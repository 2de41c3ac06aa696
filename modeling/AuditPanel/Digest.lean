/-!
SHA-256: a message is padded to whole blocks of 64 bytes, and each block is folded into eight words.
-/

set_option autoImplicit false

namespace AuditPanel.Digest

def roundConstants : Array UInt32 :=
  #[0x428a2f98, 0x71374491, 0xb5c0fbcf, 0xe9b5dba5, 0x3956c25b, 0x59f111f1, 0x923f82a4, 0xab1c5ed5,
    0xd807aa98, 0x12835b01, 0x243185be, 0x550c7dc3, 0x72be5d74, 0x80deb1fe, 0x9bdc06a7, 0xc19bf174,
    0xe49b69c1, 0xefbe4786, 0x0fc19dc6, 0x240ca1cc, 0x2de92c6f, 0x4a7484aa, 0x5cb0a9dc, 0x76f988da,
    0x983e5152, 0xa831c66d, 0xb00327c8, 0xbf597fc7, 0xc6e00bf3, 0xd5a79147, 0x06ca6351, 0x14292967,
    0x27b70a85, 0x2e1b2138, 0x4d2c6dfc, 0x53380d13, 0x650a7354, 0x766a0abb, 0x81c2c92e, 0x92722c85,
    0xa2bfe8a1, 0xa81a664b, 0xc24b8b70, 0xc76c51a3, 0xd192e819, 0xd6990624, 0xf40e3585, 0x106aa070,
    0x19a4c116, 0x1e376c08, 0x2748774c, 0x34b0bcb5, 0x391c0cb3, 0x4ed8aa4a, 0x5b9cca4f, 0x682e6ff3,
    0x748f82ee, 0x78a5636f, 0x84c87814, 0x8cc70208, 0x90befffa, 0xa4506ceb, 0xbef9a3f7, 0xc67178f2]

/-- The eight words between two blocks. -/
structure Chaining where
  a : UInt32
  b : UInt32
  c : UInt32
  d : UInt32
  e : UInt32
  f : UInt32
  g : UInt32
  h : UInt32
  deriving Repr, DecidableEq, Inhabited

namespace Chaining

def start : Chaining :=
  ⟨0x6a09e667, 0xbb67ae85, 0x3c6ef372, 0xa54ff53a, 0x510e527f, 0x9b05688c, 0x1f83d9ab, 0x5be0cd19⟩

def add (s t : Chaining) : Chaining :=
  ⟨s.a + t.a, s.b + t.b, s.c + t.c, s.d + t.d, s.e + t.e, s.f + t.f, s.g + t.g, s.h + t.h⟩

def toList (s : Chaining) : List UInt32 :=
  [s.a, s.b, s.c, s.d, s.e, s.f, s.g, s.h]

end Chaining

/-- A word turned right by `n` bits, where `n` lies strictly between 0 and 32. -/
def rotateRight (x : UInt32) (n : UInt32) : UInt32 :=
  (x >>> n) ||| (x <<< (32 - n))

def round (s : Chaining) (word constant : UInt32) : Chaining :=
  let mixE := rotateRight s.e 6 ^^^ rotateRight s.e 11 ^^^ rotateRight s.e 25
  let choice := (s.e &&& s.f) ^^^ (~~~s.e &&& s.g)
  let t1 := s.h + mixE + choice + constant + word
  let mixA := rotateRight s.a 2 ^^^ rotateRight s.a 13 ^^^ rotateRight s.a 22
  let majority := (s.a &&& s.b) ^^^ (s.a &&& s.c) ^^^ (s.b &&& s.c)
  ⟨t1 + (mixA + majority), s.a, s.b, s.c, s.d + t1, s.e, s.f, s.g⟩

/-- A byte of a message, zero behind its end. -/
def byteAt (message : ByteArray) (i : Nat) : UInt32 :=
  match message[i]? with
  | some b => b.toUInt32
  | none => 0

/-- The word of four bytes, the first one the highest. -/
def wordAt (message : ByteArray) (i : Nat) : UInt32 :=
  (byteAt message i <<< 24) ||| (byteAt message (i + 1) <<< 16) ||| (byteAt message (i + 2) <<< 8)
    ||| byteAt message (i + 3)

/-- The schedule with the word that its last sixteen give. -/
def extend (schedule : Array UInt32) : Array UInt32 :=
  let word (back : Nat) : UInt32 := schedule[schedule.size - back]?.getD 0
  let x := word 15
  let y := word 2
  let low := rotateRight x 7 ^^^ rotateRight x 18 ^^^ (x >>> 3)
  let high := rotateRight y 17 ^^^ rotateRight y 19 ^^^ (y >>> 10)
  schedule.push (word 16 + low + word 7 + high)

/-- The words of the block that starts at a byte: its own sixteen and 48 more. -/
def scheduleAt (message : ByteArray) (start : Nat) : Array UInt32 :=
  let own := (Array.range 16).map fun i => wordAt message (start + 4 * i)
  (List.range 48).foldl (fun schedule _ => extend schedule) own

def compress (message : ByteArray) (s : Chaining) (start : Nat) : Chaining :=
  let schedule := scheduleAt message start
  s.add <| (List.range 64).foldl
    (fun t i => round t (schedule[i]?.getD 0) (roundConstants[i]?.getD 0)) s

/-- The eight bytes of a number below 2 ^ 64, the first one the highest. -/
def lengthBytes (n : Nat) : List UInt8 :=
  (List.range 8).map fun i => UInt8.ofNat (n >>> (8 * (7 - i)))

/-- A message followed by one bit, zeros and its length in bits, so that whole blocks result. -/
def pad (message : ByteArray) : ByteArray :=
  let zeros := (119 - message.size % 64) % 64
  let tail := 0x80 :: List.replicate zeros 0 ++ lengthBytes (8 * message.size)
  message ++ ByteArray.mk tail.toArray

def sha256 (message : ByteArray) : Chaining :=
  let padded := pad message
  (List.range (padded.size / 64)).foldl (fun s i => compress padded s (64 * i)) .start

def wordHex (word : UInt32) : List Char :=
  let digits := Nat.toDigits 16 word.toNat
  List.replicate (8 - digits.length) '0' ++ digits

def hex (message : ByteArray) : String :=
  String.ofList ((sha256 message).toList.flatMap wordHex)

end AuditPanel.Digest
