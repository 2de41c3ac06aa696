import AuditPanel.Proofs.Bytecode.Hex
import AuditPanel.Proofs.Json.Lookahead
import AuditPanel.Proofs.Review.Prose
import Mathlib.Data.List.Pairwise

/-!
The pairs of braces of a text, and the object that is taken from it. The search keeps the positions
of the braces that are open, each behind those around it, and every pair stands clear of them: it
lies behind an open brace or ends before it. So two pairs are nested or apart, and sorting them by
where they start leaves no two in one place.

A text is paired by its bytes. Every character that the search knows is one byte, and no other
character has such a byte, so the pairs of the bytes are those of the characters, moved to where the
characters start.
-/

set_option autoImplicit false

namespace AuditPanel.Review

/-- Where the search for braces stands: its state, the positions of the open braces and the pairs so
far. -/
structure BraceScan where
  state : BraceState
  opened : List Nat
  pairs : List BracePair

namespace BraceScan

/-- The pairs that the search has found at the end of a text that goes on with `s` from position
`i`. -/
def finish (m : BraceScan) (i : Nat) (s : List Char) : List BracePair :=
  bracePairsFrom m.state m.opened m.pairs i s

/-- The search after the character at position `i`. -/
def step (m : BraceScan) (i : Nat) (c : Char) : BraceScan :=
  match m.state with
  | .escaped => { m with state := .string }
  | .string =>
    { m with state := if c = '\\' then .escaped else if c = '"' then .outside else .string }
  | .outside =>
    if c = '\x7b' then { m with opened := i :: m.opened }
    else if c = '\x7d' then
      match m.opened with
      | [] => m
      | start :: opened => { m with opened := opened, pairs := ⟨start, i⟩ :: m.pairs }
    else if c = '"' ∧ m.opened ≠ [] then { m with state := .string }
    else m

variable {m : BraceScan} {i : Nat} {c : Char}

private theorem finish_nil (m : BraceScan) (i : Nat) : m.finish i [] = m.pairs := by
  obtain ⟨state, opened, pairs⟩ := m
  cases state <;> rfl

private theorem finish_cons (m : BraceScan) (i : Nat) (c : Char) (s : List Char) :
    m.finish i (c :: s) = (m.step i c).finish (i + 1) s := by
  obtain ⟨state, opened, pairs⟩ := m
  cases state with
  | escaped => rfl
  | string => rfl
  | outside =>
    simp only [finish, step, bracePairsFrom]
    split
    · rfl
    · split
      · cases opened <;> rfl
      · split <;> rfl

/-- A character opens a brace, closes the last open one, or leaves both the open ones and the pairs
as they are. -/
private theorem step_cases (m : BraceScan) (i : Nat) (c : Char) :
    ((m.step i c).opened = m.opened ∧ (m.step i c).pairs = m.pairs) ∨
      (c = '\x7b' ∧ (m.step i c).opened = i :: m.opened ∧ (m.step i c).pairs = m.pairs) ∨
      (c = '\x7d' ∧ ∃ start, m.opened = start :: (m.step i c).opened ∧
        (m.step i c).pairs = ⟨start, i⟩ :: m.pairs) := by
  obtain ⟨state, opened, pairs⟩ := m
  cases state with
  | escaped => exact .inl ⟨rfl, rfl⟩
  | string => exact .inl ⟨rfl, rfl⟩
  | outside =>
    simp only [step]
    split
    · next brace => exact .inr (.inl ⟨brace, rfl, rfl⟩)
    · split
      · next brace =>
        cases opened with
        | nil => exact .inl ⟨rfl, rfl⟩
        | cons start opened => exact .inr (.inr ⟨brace, start, rfl, rfl⟩)
      · split <;> exact .inl ⟨rfl, rfl⟩

end BraceScan

/-- Whether a pair of braces stands around another one. -/
def BracePair.Encloses (p q : BracePair) : Prop :=
  p.start < q.start ∧ q.stop < p.stop

/-- Whether a pair of braces ends before another one starts. -/
def BracePair.Precedes (p q : BracePair) : Prop :=
  p.stop < q.start

/-- Whether two pairs of braces are nested or disjoint. -/
def BracePair.IsClearOf (p q : BracePair) : Prop :=
  p.Encloses q ∨ q.Encloses p ∨ p.Precedes q ∨ q.Precedes p

instance : Std.Symm BracePair.IsClearOf where
  symm _ _ := by
    rintro (outer | inner | before | behind)
    exacts [.inr (.inl outer), .inl inner, .inr (.inr (.inr before)), .inr (.inr (.inl behind))]

theorem BracePair.IsClearOf.ne {p q : BracePair} (clear : p.IsClearOf q) (hp : p.start < p.stop)
    (hq : q.start < q.stop) : p.start ≠ q.start ∧ p.stop ≠ q.stop := by
  simp only [IsClearOf, Encloses, Precedes] at clear
  omega

/-- What the search for braces has found in a text `front`. -/
structure IsScanned (front : List Char) (m : BraceScan) : Prop where
  /-- The open braces are listed from the last one on. -/
  innermost : m.opened.Pairwise fun o o' => o' < o
  opened : ∀ o ∈ m.opened, front[o]? = some '\x7b'
  starts : ∀ p ∈ m.pairs, front[p.start]? = some '\x7b'
  stops : ∀ p ∈ m.pairs, front[p.stop]? = some '\x7d'
  forward : ∀ p ∈ m.pairs, p.start < p.stop
  /-- The pairs are listed from the last closed one on. -/
  newest : m.pairs.Pairwise fun p q => p.Encloses q ∨ q.Precedes p
  clear : ∀ o ∈ m.opened, ∀ p ∈ m.pairs, o < p.start ∨ p.stop < o

namespace IsScanned

variable {front : List Char} {m : BraceScan} {i : Nat} {c d : Char}

private theorem lt_length (found : front[i]? = some c) : i < front.length :=
  (List.getElem?_eq_some_iff.mp found).1

private theorem getElem?_concat (found : front[i]? = some c) : (front ++ [d])[i]? = some c := by
  rw [List.getElem?_append_left (lt_length found), found]

theorem start : IsScanned [] ⟨.outside, [], []⟩ := by
  constructor <;> simp

theorem step (scanned : IsScanned front m) (c : Char) :
    IsScanned (front ++ [c]) (m.step front.length c) := by
  have opened (o) (member : o ∈ m.opened) := getElem?_concat (d := c) (scanned.opened o member)
  have starts (p) (member : p ∈ m.pairs) := getElem?_concat (d := c) (scanned.starts p member)
  have stops (p) (member : p ∈ m.pairs) := getElem?_concat (d := c) (scanned.stops p member)
  have before (o) (member : o ∈ m.opened) := lt_length (scanned.opened o member)
  have closed (p) (member : p ∈ m.pairs) := lt_length (scanned.stops p member)
  obtain ⟨same, listed⟩ | ⟨rfl, pushed, listed⟩ | ⟨rfl, start, popped, listed⟩ :=
    m.step_cases front.length c
  · constructor
    all_goals simp only [same, listed]
    exacts [scanned.innermost, opened, starts, stops, scanned.forward, scanned.newest,
      scanned.clear]
  · constructor
    all_goals simp only [pushed, listed, List.pairwise_cons, List.forall_mem_cons]
    · exact ⟨before, scanned.innermost⟩
    · exact ⟨by simp, opened⟩
    · exact starts
    · exact stops
    · exact scanned.forward
    · exact scanned.newest
    · exact ⟨fun p member => .inr (closed p member), scanned.clear⟩
  · have innermost := scanned.innermost
    have clear := scanned.clear
    rw [popped] at innermost opened before clear
    rw [List.pairwise_cons] at innermost
    rw [List.forall_mem_cons] at opened before clear
    refine ⟨innermost.2, opened.2, ?_, ?_, ?_, ?_, ?_⟩
    all_goals simp only [listed, List.pairwise_cons, List.forall_mem_cons]
    · exact ⟨opened.1, starts⟩
    · exact ⟨by simp, stops⟩
    · exact ⟨before.1, scanned.forward⟩
    · -- An old pair lies behind the brace that is closed, or ended before it.
      exact ⟨fun q member => (clear.1 q member).imp_left fun inside => ⟨inside, closed q member⟩,
        scanned.newest⟩
    · intro o member
      exact ⟨.inl (innermost.1 o member), clear.2 o member⟩

theorem finish (scanned : IsScanned front m) (s : List Char) :
    ∃ m', m'.pairs = m.finish front.length s ∧ IsScanned (front ++ s) m' := by
  induction s generalizing front m with
  | nil => exact ⟨m, (m.finish_nil _).symm, by rwa [List.append_nil]⟩
  | cons c s ih =>
    obtain ⟨m', pairs, whole⟩ := ih (scanned.step c)
    rw [List.append_assoc, List.singleton_append] at whole
    rw [List.length_append, List.length_singleton] at pairs
    exact ⟨m', pairs.trans (m.finish_cons _ c s).symm, whole⟩

end IsScanned

/-- Whether pairs of positions in `s` are matched braces: each goes forward from an opening to a
closing one, no two start or end in one place, any two are nested or disjoint, and they are listed
by where they start. -/
structure IsPairing {α : Type} (opening closing : α) (s : List α) (pairs : List BracePair) :
    Prop where
  forward : ∀ p ∈ pairs, p.start < p.stop
  within : ∀ p ∈ pairs, p.stop < s.length
  opens : ∀ p ∈ pairs, s[p.start]? = some opening
  closes : ∀ p ∈ pairs, s[p.stop]? = some closing
  ordered : pairs.Pairwise fun p q => p.start < q.start
  distinct : pairs.Pairwise fun p q => p.stop ≠ q.stop
  laminar : ∀ p ∈ pairs, ∀ q ∈ pairs, p ≠ q → p.IsClearOf q

private theorem isPairing_bracePairs (s : List Char) :
    IsPairing '\x7b' '\x7d' s (bracePairs s) := by
  obtain ⟨m, found, scanned⟩ := IsScanned.start.finish s
  have perm : (bracePairs s).Perm m.pairs := found ▸ List.mergeSort_perm _ _
  have sorted : (bracePairs s).Pairwise fun p q => p.start ≤ q.start :=
    List.pairwise_mergeSort' (fun a b : BracePair => a.start ≤ b.start) _
  have forward (p) (member : p ∈ bracePairs s) : p.start < p.stop :=
    scanned.forward p (perm.subset member)
  have clear : (bracePairs s).Pairwise BracePair.IsClearOf :=
    (perm.pairwise_iff (Std.Symm.symm _ _)).mpr
      (scanned.newest.imp fun found => found.imp_right (.inr ∘ .inr))
  refine ⟨forward, ?_, ?_, ?_, ?_, ?_, ?_⟩
  · exact fun p member => IsScanned.lt_length (scanned.stops p (perm.subset member))
  · exact fun p member => scanned.starts p (perm.subset member)
  · exact fun p member => scanned.stops p (perm.subset member)
  · refine (sorted.and clear).imp_of_mem fun hp hq both => ?_
    exact both.1.lt_of_ne (both.2.ne (forward _ hp) (forward _ hq)).1
  · exact clear.imp_of_mem fun hp hq found => (found.ne (forward _ hp) (forward _ hq)).2
  · exact fun p hp q hq => clear.forall hp hq

/-- The pairs of braces of a text by its bytes, each of which is looked at as the character of its
value. -/
def bytePairs (bytes : List UInt8) : List BracePair :=
  bracePairs (bytes.map Char.ofUInt8)

private theorem ofUInt8_injective : Function.Injective Char.ofUInt8 := by
  intro a b same
  exact UInt8.toUInt32_inj.mp (congrArg Char.val same)

theorem IsPairing.of_map {α β : Type} {f : α → β} (injective : Function.Injective f)
    {opening closing : α} {s : List α}
    {pairs : List BracePair} (pairing : IsPairing (f opening) (f closing) (s.map f) pairs) :
    IsPairing opening closing s pairs := by
  have found {i : Nat} {a : α} (h : (s.map f)[i]? = some (f a)) : s[i]? = some a := by
    rw [List.getElem?_map, Option.map_eq_some_iff] at h
    obtain ⟨b, found, same⟩ := h
    rwa [← injective same]
  refine ⟨pairing.forward, ?_, ?_, ?_, pairing.ordered, pairing.distinct, pairing.laminar⟩
  · simpa using pairing.within
  · exact fun p member => found (pairing.opens p member)
  · exact fun p member => found (pairing.closes p member)

private theorem isPairing_bytePairs (bytes : List UInt8) :
    IsPairing 0x7B 0x7D bytes (bytePairs bytes) :=
  .of_map ofUInt8_injective (isPairing_bracePairs _)

def bytesOf (s : List Char) : List UInt8 :=
  s.flatMap String.utf8EncodeChar

@[simp] theorem bytesOf_append (s t : List Char) : bytesOf (s ++ t) = bytesOf s ++ bytesOf t :=
  List.flatMap_append

@[simp] theorem bytesOf_cons (c : Char) (s : List Char) :
    bytesOf (c :: s) = String.utf8EncodeChar c ++ bytesOf s :=
  List.flatMap_cons

@[simp] theorem bytesOf_nil : bytesOf [] = [] :=
  rfl

private theorem length_bytesOf_pos {s : List Char} (some_ : s ≠ []) : 0 < (bytesOf s).length := by
  obtain ⟨c, s, rfl⟩ := List.exists_cons_of_ne_nil some_
  have := c.utf8Size_pos
  rw [bytesOf_cons, List.length_append, String.length_utf8EncodeChar]
  omega

private theorem append_inj_of_bytes {front back front' back' : List Char}
    (same : front ++ back = front' ++ back')
    (size : (bytesOf front).length = (bytesOf front').length) : front = front' ∧ back = back' := by
  obtain ⟨more, rfl, rfl⟩ | ⟨more, rfl, rfl⟩ := List.append_eq_append_iff.mp same
  all_goals
    rw [bytesOf_append, List.length_append] at size
    cases more with
    | nil => simp
    | cons c more =>
      have := length_bytesOf_pos (List.cons_ne_nil c more)
      omega

/-- The byte of a text at which the character at position `i` starts. -/
def offset (text : List Char) (i : Nat) : Nat :=
  (bytesOf (text.take i)).length

private theorem offset_append (front back : List Char) :
    offset (front ++ back) front.length = (bytesOf front).length := by
  rw [offset, List.take_left]

private theorem offset_lt_offset {text : List Char} {i j : Nat} (lt : i < j)
    (le : j ≤ text.length) :
    offset text i < offset text j := by
  have between : (text.take j).drop i ≠ [] := by
    rw [ne_eq, List.drop_eq_nil_iff, List.length_take]
    omega
  have split : text.take j = text.take i ++ (text.take j).drop i := by
    conv_lhs => rw [← List.take_append_drop i (text.take j), List.take_take, Nat.min_eq_left lt.le]
  rw [offset, offset, split, bytesOf_append, List.length_append]
  exact Nat.lt_add_of_pos_right (length_bytesOf_pos between)

private theorem offset_le_offset_iff {text : List Char} {i j : Nat} (hi : i ≤ text.length)
    (hj : j ≤ text.length) :
    offset text i ≤ offset text j ↔ i ≤ j := by
  constructor
  · intro le
    by_contra less
    exact absurd (offset_lt_offset (Nat.lt_of_not_le less) hi) (Nat.not_lt.mpr le)
  · intro le
    obtain rfl | less := le.eq_or_lt
    · exact Nat.le_refl _
    · exact (offset_lt_offset less hj).le

/-- Whether the search takes no notice of a character, apart from a backslash before it. -/
def isQuiet (c : Char) : Bool :=
  isPlain c && c != '\\'

private theorem isQuiet_of_le_toNat {c : Char} (high : 128 ≤ c.toNat) : isQuiet c := by
  by_contra special
  simp only [isQuiet, isPlain, Bool.and_eq_true, bne_iff_ne, ne_eq, not_and_or, not_not] at special
  rcases special with ((rfl | rfl) | rfl) | rfl <;> exact absurd high (by decide)

private theorem map_utf8EncodeChar_ascii {c : Char} (ascii : c.toNat < 128) :
    (String.utf8EncodeChar c).map Char.ofUInt8 = [c] := by
  have low : c.val.toNat % 2 ^ 8 = c.val.toNat := Nat.mod_eq_of_lt (Nat.lt_trans ascii (by decide))
  rw [Bytecode.utf8EncodeChar_ascii ascii, List.map_singleton]
  refine congrArg (fun d => [d]) (Char.ext (UInt32.toNat_inj.mp ?_))
  exact (UInt32.toNat_toUInt8 c.val).trans low

private theorem le_toNat_of_mem_utf8EncodeChar {c : Char} {b : UInt8} (high : 128 ≤ c.toNat)
    (member : b ∈ String.utf8EncodeChar c) : 128 ≤ b.toNat := by
  have wide : ¬c.val.toNat ≤ 127 := Nat.not_le.mpr high
  simp only [String.utf8EncodeChar, if_neg wide] at member
  repeat' split at member
  all_goals
    simp only [List.mem_cons, List.not_mem_nil, or_false] at member
  · rcases member with rfl | rfl <;> simp <;> omega
  · rcases member with rfl | rfl | rfl <;> simp <;> omega
  · rcases member with rfl | rfl | rfl | rfl <;> simp <;> omega

def BracePair.move (f : Nat → Nat) (p : BracePair) : BracePair :=
  ⟨f p.start, f p.stop⟩

namespace BraceScan

variable {m : BraceScan} {i : Nat} {c : Char}

def move (f : Nat → Nat) (m : BraceScan) : BraceScan :=
  ⟨m.state, m.opened.map f, m.pairs.map (BracePair.move f)⟩

private theorem step_move (f : Nat → Nat) (m : BraceScan) (i : Nat) (c : Char) :
    (m.move f).step (f i) c = (m.step i c).move f := by
  obtain ⟨state, opened, pairs⟩ := m
  cases state with
  | escaped => rfl
  | string => rfl
  | outside =>
    simp only [step, move, ne_eq, List.map_eq_nil_iff]
    split
    · rfl
    · split
      · cases opened <;> rfl
      · split <;> rfl

/-- The search after characters of no notice. -/
def settle (m : BraceScan) : BraceScan :=
  { m with state := if m.state = .outside then .outside else .string }

private theorem step_quiet (m : BraceScan) (i : Nat) (quiet : isQuiet c) :
    m.step i c = m.settle := by
  simp only [isQuiet, isPlain, Bool.and_eq_true, bne_iff_ne, ne_eq] at quiet
  obtain ⟨state, opened, pairs⟩ := m
  cases state <;> simp [step, settle, quiet]

private theorem finish_quiet {w : List Char} (some_ : w ≠ []) (quiet : ∀ c ∈ w, isQuiet c)
    (m : BraceScan) (i : Nat)
    (s : List Char) : m.finish i (w ++ s) = m.settle.finish (i + w.length) s := by
  induction w generalizing m i with
  | nil => exact absurd rfl some_
  | cons c w ih =>
    rw [List.forall_mem_cons] at quiet
    rw [List.cons_append, finish_cons, step_quiet m i quiet.1]
    cases w with
    | nil => rfl
    | cons d w =>
      have settled : m.settle.settle = m.settle := by
        obtain ⟨state, opened, pairs⟩ := m
        cases state <;> rfl
      rw [ih (List.cons_ne_nil d w) quiet.2, settled, List.length_cons (a := c), Nat.add_right_comm,
        Nat.add_assoc]

private theorem finish_bytes (front s : List Char) (m : BraceScan) :
    (m.move (offset (front ++ s))).finish (bytesOf front).length ((bytesOf s).map Char.ofUInt8) =
      (m.finish front.length s).map (BracePair.move (offset (front ++ s))) := by
  induction s generalizing front m with
  | nil => simp [finish_nil, move]
  | cons c s ih =>
    have next := ih (front ++ [c]) (m.step front.length c)
    have whole : front ++ [c] ++ s = front ++ c :: s := by simp
    have here := offset_append front (c :: s)
    rw [whole, bytesOf_append, bytesOf_cons, bytesOf_nil, List.append_nil, List.length_append,
      List.length_append, List.length_singleton] at next
    rw [m.finish_cons, ← next, bytesOf_cons, List.map_append]
    -- A longer character settles the search, and so does each of its bytes.
    by_cases ascii : c.toNat < 128
    · have same := map_utf8EncodeChar_ascii ascii
      have single : (String.utf8EncodeChar c).length = 1 := by simpa using congrArg List.length same
      rw [same, List.singleton_append, finish_cons, ← here, step_move, single]
    · have high := Nat.le_of_not_lt ascii
      have quiet : ∀ d ∈ (String.utf8EncodeChar c).map Char.ofUInt8, isQuiet d := by
        rw [List.forall_mem_map]
        exact fun b member => isQuiet_of_le_toNat (le_toNat_of_mem_utf8EncodeChar high member)
      have some_ : (String.utf8EncodeChar c).map Char.ofUInt8 ≠ [] := by
        rw [ne_eq, List.map_eq_nil_iff]
        exact List.ne_nil_of_length_pos (String.length_utf8EncodeChar c ▸ c.utf8Size_pos)
      rw [finish_quiet some_ quiet, List.length_map, step_quiet m _ (isQuiet_of_le_toNat high)]
      rfl

end BraceScan

private theorem bytePairs_bytesOf (s : List Char) :
    bytePairs (bytesOf s) = (bracePairs s).map (BracePair.move (offset s)) := by
  have scanned : bracePairsFrom .outside [] [] 0 ((bytesOf s).map Char.ofUInt8) =
      (bracePairsFrom .outside [] [] 0 s).map (BracePair.move (offset s)) :=
    BraceScan.finish_bytes [] s ⟨.outside, [], []⟩
  have pairing := isPairing_bracePairs s
  have inside {p : BracePair} (member : p ∈ bracePairsFrom .outside [] [] 0 s) : p.start ≤
      s.length := by
    have listed : p ∈ bracePairs s := (List.mergeSort_perm _ _).mem_iff.mpr member
    exact ((pairing.forward p listed).trans (pairing.within p listed)).le
  rw [bytePairs, bracePairs, scanned]
  refine (List.map_mergeSort ?_).symm
  intro p hp q hq
  simp only [BracePair.move, offset_le_offset_iff (inside hp) (inside hq)]

/-- Whether a text holds `region` from one byte of it up to and with another, where both ends stand
between characters. -/
def IsSlice (text : List Char) (pair : BracePair) (region : List Char) : Prop :=
  ∃ front back, text = front ++ (region ++ back) ∧ (bytesOf front).length = pair.start ∧
    (bytesOf (front ++ region)).length = pair.stop + 1

theorem IsSlice.unique {text region region' : List Char} {pair : BracePair}
    (slice : IsSlice text pair region) (slice' : IsSlice text pair region') : region = region' := by
  obtain ⟨front, back, rfl, size, long⟩ := slice
  obtain ⟨front', back', same, size', long'⟩ := slice'
  obtain ⟨rfl, -⟩ := append_inj_of_bytes same (size.trans size'.symm)
  rw [← List.append_assoc, ← List.append_assoc] at same
  exact List.append_cancel_left (append_inj_of_bytes same (long.trans long'.symm)).1

private theorem exists_append_of_getElem? {α : Type} {s : List α} {i : Nat} {a : α}
    (found : s[i]? = some a) :
    ∃ front back, s = front ++ a :: back ∧ front.length = i := by
  obtain ⟨inside, same⟩ := List.getElem?_eq_some_iff.mp found
  refine ⟨s.take i, s.drop (i + 1), ?_, List.length_take_of_le inside.le⟩
  rw [← same, List.getElem_cons_drop, List.take_append_drop]

private theorem exists_append_of_mem {text : List Char} {pair : BracePair}
    (member : pair ∈ bracePairs text) :
    ∃ front inner back, text = front ++ ('\x7b' :: (inner ++ ['\x7d']) ++ back) ∧
      pair = ⟨front.length, front.length + inner.length + 1⟩ := by
  have pairing := isPairing_bracePairs text
  obtain ⟨front, after, rfl, start⟩ := exists_append_of_getElem? (pairing.opens pair member)
  have forward := pairing.forward pair member
  have close : after[pair.stop - pair.start - 1]? = some '\x7d' := by
    rw [← pairing.closes pair member, List.getElem?_append_right (by omega), start,
      ← Nat.succ_pred_eq_of_pos (Nat.sub_pos_of_lt forward)]
    rfl
  obtain ⟨inner, back, rfl, stop⟩ := exists_append_of_getElem? close
  refine ⟨front, inner, back, by simp, ?_⟩
  obtain ⟨o, c⟩ := pair
  simp only [BracePair.mk.injEq]
  simp only at start stop forward
  omega

section Slice

variable {text front inner back region : List Char} {members : Members}
  (whole : text = front ++ ('\x7b' :: (inner ++ ['\x7d']) ++ back))
include whole

/-- The bytes of a pair of braces are the slice with the braces and what stands between them, and no
other one. -/
private theorem isSlice_iff :
    IsSlice text (BracePair.move (offset text) ⟨front.length, front.length + inner.length + 1⟩)
      region ↔ region = '\x7b' :: (inner ++ ['\x7d']) := by
  have start : offset text front.length = (bytesOf front).length := whole ▸ offset_append front _
  have stop : offset text (front.length + inner.length + 1) + 1 =
      (bytesOf (front ++ '\x7b' :: (inner ++ ['\x7d']))).length := by
    have split : text = (front ++ '\x7b' :: inner) ++ '\x7d' :: back := by simp [whole]
    have place : front.length + inner.length + 1 = (front ++ '\x7b' :: inner).length := by
      rw [List.length_append, List.length_cons, Nat.add_assoc]
    rw [place, split, offset_append]
    simp only [bytesOf_append, bytesOf_cons, List.length_append, Nat.add_assoc]
    rfl
  have slice :
    IsSlice text (BracePair.move (offset text) ⟨front.length, front.length + inner.length + 1⟩)
      ('\x7b' :: (inner ++ ['\x7d'])) :=
    ⟨front, back, whole, start.symm, stop.symm⟩
  exact ⟨fun other => other.unique slice, fun same => same ▸ slice⟩

private theorem objectIn?_eq_some_iff :
    objectIn? (text.length + 1) ⟨front.length, front.length + inner.length + 1⟩
      (text.drop front.length) = some members ↔
      Json.read? ('\x7b' :: (inner ++ ['\x7d'])) = some (.object members) := by
  have here : text.drop front.length = '\x7b' :: (inner ++ '\x7d' :: back) := by simp [whole]
  rw [here]
  constructor
  · intro found
    simp only [objectIn?] at found
    split at found
    · next members' rest read =>
      rw [Option.ite_none_right_eq_some] at found
      obtain ⟨span, same⟩ := found
      cases same
      obtain ⟨w, same, -⟩ := exists_braced_of_readValue read
      have size : ('\x7d' :: back).length = ('\x7d' :: rest).length := by
        simp only [List.length_cons, List.length_append] at span ⊢
        omega
      obtain ⟨rfl, behind⟩ := List.append_inj' same size
      obtain rfl := (List.cons.inj behind).2
      -- The reader needs no more of the text than the slice.
      exact Json.read?_of_readValue read
    · cases found
  · intro read
    have closes : ('\x7b' :: (inner ++ ['\x7d'])).getLast? = some '\x7d' :=
      List.getLast?_concat (l := '\x7b' :: inner)
    have longer : (inner ++ ['\x7d']).length + 2 ≤ text.length + 1 := by
      simp only [whole, List.length_append, List.length_cons, List.length_nil]
      omega
    have extended :=
      Json.readValue_object_append (t := back) longer (readValue_of_read? closes read)
    rw [List.append_assoc, List.singleton_append, List.nil_append] at extended
    refine objectIn?_of_readValue _ extended ?_
    simp only [List.length_cons, List.length_append]
    omega

end Slice

/-- Whether the bytes of a pair of braces in a text are read as an object. -/
def HoldsObject (text : List Char) (pair : BracePair) (members : Members) : Prop :=
  ∃ region, IsSlice text pair region ∧ Json.read? region = some (.object members)

private theorem exists_slice {text : List Char} {pair : BracePair}
    (member : pair ∈ bytePairs (bytesOf text)) :
    ∃ region, IsSlice text pair region := by
  rw [bytePairs_bytesOf, List.mem_map] at member
  obtain ⟨pair, listed, rfl⟩ := member
  obtain ⟨front, inner, back, whole, rfl⟩ := exists_append_of_mem listed
  exact ⟨_, (isSlice_iff whole).mpr rfl⟩

private theorem holdsObject_iff {text : List Char} {pair : BracePair}
    (listed : pair ∈ bracePairs text) {members : Members} :
    HoldsObject text (pair.move (offset text)) members ↔
      objectIn? (text.length + 1) pair (text.drop pair.start) = some members := by
  obtain ⟨front, inner, back, whole, rfl⟩ := exists_append_of_mem listed
  simp only [HoldsObject, isSlice_iff whole, exists_eq_left, objectIn?_eq_some_iff whole]

private theorem firstObject?_eq_findSome? {fuel i : Nat} {text : List Char} {pairs : List BracePair}
    (ordered : pairs.Pairwise fun p q => p.start < q.start) (behind : ∀ p ∈ pairs, i ≤ p.start) :
    firstObject? fuel i (text.drop i) pairs =
      pairs.findSome? fun pair => objectIn? fuel pair (text.drop pair.start) := by
  induction pairs generalizing i with
  | nil => rfl
  | cons pair pairs ih =>
    rw [List.pairwise_cons] at ordered
    have here : (text.drop i).drop (pair.start - i) = text.drop pair.start := by
      rw [List.drop_drop, Nat.add_sub_cancel' (behind pair List.mem_cons_self)]
    simp only [firstObject?, here, List.findSome?_cons, ih ordered.2 fun p member =>
      (ordered.1 p member).le]
    cases objectIn? fuel pair (text.drop pair.start) <;> rfl

private theorem findSome?_eq_some_iff_least {α β : Type} {l : List α} {f : α → Option β}
    {key : α → Nat} {b : β} (sorted : l.Pairwise fun x y => key x < key y) :
    l.findSome? f = some b ↔ ∃ x ∈ l, f x = some b ∧ ∀ y ∈ l, ∀ b', f y = some b' →
      key x ≤ key y := by
  rw [List.findSome?_eq_some_iff]
  constructor
  · rintro ⟨before, x, after, rfl, found, none⟩
    refine ⟨x, by simp, found, ?_⟩
    intro y member b' other
    rw [List.mem_append, List.mem_cons] at member
    rcases member with early | rfl | late
    · cases (none y early).symm.trans other
    · exact Nat.le_refl _
    · exact ((List.pairwise_cons.mp (List.pairwise_append.mp sorted).2.1).1 y late).le
  · rintro ⟨x, member, found, least⟩
    obtain ⟨before, after, rfl⟩ := List.append_of_mem member
    refine ⟨before, x, after, rfl, found, ?_⟩
    intro y early
    have earlier := (List.pairwise_append.mp sorted).2.2 y early x List.mem_cons_self
    rw [Option.eq_none_iff_forall_ne_some]
    intro b' other
    exact absurd (least y (List.mem_append_left _ early) b' other) (Nat.not_le.mpr earlier)

private theorem extractObject?_eq_some_iff {answer text : List Char}
    (kept : takeBytes answerLimit [] answer = text)
    {members : Members} :
    extractObject? answer = some members ↔ ∃ pair ∈ bytePairs (bytesOf text),
      HoldsObject text pair members ∧
      ∀ other ∈ bytePairs (bytesOf text), ∀ members', HoldsObject text other members' →
        pair.start ≤ other.start := by
  have found : extractObject? answer =
      (bracePairs text).findSome? fun pair =>
        objectIn? (text.length + 1) pair (text.drop pair.start) := by
    rw [extractObject?, kept]
    exact firstObject?_eq_findSome? (isPairing_bracePairs text).ordered fun p _ =>
      Nat.zero_le p.start
  have sorted : (bracePairs text).Pairwise fun p q =>
    offset text p.start < offset text q.start := by
    have ordered := (isPairing_bytePairs (bytesOf text)).ordered
    rwa [bytePairs_bytesOf, List.pairwise_map] at ordered
  simp only [found, findSome?_eq_some_iff_least sorted, bytePairs_bytesOf, List.mem_map,
    exists_exists_and_eq_and, forall_exists_index, and_imp, forall_apply_eq_imp_iff₂]
  refine exists_congr fun pair => and_congr_right fun listed => ?_
  rw [holdsObject_iff listed]
  refine and_congr_right fun _ => forall₂_congr fun other member => ?_
  simp only [holdsObject_iff member]
  rfl

def keptText (answer : List Char) : List Char :=
  takeBytes answerLimit [] answer

/-- The pairs of braces of any bytes are matched braces, a text can be cut at each pair of its
bytes, and the object of an answer is that of the pair with the least opening offset among all pairs
whose slice is an object. -/
theorem bracePairs_wellFormed :
    (∀ bytes, IsPairing 0x7B 0x7D bytes (bytePairs bytes)) ∧
    (∀ text, ∀ pair ∈ bytePairs (bytesOf text), ∃ region, IsSlice text pair region) ∧
    ∀ answer members, extractObject? answer = some members ↔
      ∃ pair ∈ bytePairs (bytesOf (keptText answer)), HoldsObject (keptText answer) pair members ∧
        ∀ other ∈ bytePairs (bytesOf (keptText answer)), ∀ members',
          HoldsObject (keptText answer) other members' → pair.start ≤ other.start :=
  ⟨isPairing_bytePairs, fun _ _ => exists_slice, fun _ _ => extractObject?_eq_some_iff rfl⟩

/-- Braces that hold no object around braces that hold one, with a character of three bytes between
them. -/
private def brokenOuter : String := "\x7b … \x7b\"a\": 1\x7d \x7d"

/-- The outer pair comes first and is no object, so the inner one is taken. -/
theorem bracePairs_wellFormed_brokenOuter :
    bytePairs (bytesOf brokenOuter.toList) = [⟨0, 15⟩, ⟨6, 13⟩] ∧
      extractObject? brokenOuter.toList = some [("a", .integer 1)] := by
  have found : bracePairsFrom .outside [] [] 0 ((bytesOf brokenOuter.toList).map Char.ofUInt8) =
      [⟨0, 15⟩, ⟨6, 13⟩] := by
    decide
  have pairs : bytePairs (bytesOf brokenOuter.toList) = [⟨0, 15⟩, ⟨6, 13⟩] := by
    rw [bytePairs, bracePairs, found]
    exact List.mergeSort_of_pairwise (by decide)
  have kept : keptText brokenOuter.toList = brokenOuter.toList := by decide
  refine ⟨pairs, (bracePairs_wellFormed.2.2 _ _).mpr ?_⟩
  rw [kept, pairs]
  refine ⟨⟨6, 13⟩, by simp, ⟨"\x7b\"a\": 1\x7d".toList, ?_, by with_unfolding_all rfl⟩, ?_⟩
  · exact ⟨"\x7b … ".toList, " \x7d".toList, by decide, by decide, by decide⟩
  · intro other member members held
    rcases List.mem_pair.mp member with rfl | rfl
    · obtain ⟨region, slice, read⟩ := held
      have whole : IsSlice brokenOuter.toList ⟨0, 15⟩ brokenOuter.toList :=
        ⟨[], [], by simp, rfl, by decide⟩
      have none : Json.read? brokenOuter.toList = none := by with_unfolding_all rfl
      rw [slice.unique whole, none] at read
      cases read
    · exact Nat.le_refl _

end AuditPanel.Review
