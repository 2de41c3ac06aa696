import AuditPanel.Proofs.Json.Reader
import AuditPanel.Review.Region

/-!
The search for braces against the grammar. A value that the strict reader takes off the front of a
text leaves the search where it was: braces inside it are paired with one another, and quotes inside
it are closed. So the braces of an object are a pair.
-/

set_option autoImplicit false

namespace AuditPanel.Review

variable {s t u w rest : List Char} {opened : List Nat} {pairs : List BracePair} {i : Nat}

theorem bracePairsFrom_eq_append (state : BraceState) (opened : List Nat) (pairs : List BracePair)
    (i : Nat)
    (s : List Char) : bracePairsFrom state opened pairs i s = bracePairsFrom state opened
    [] i s ++ pairs := by
  induction s generalizing state opened pairs i with
  | nil => cases state <;> simp [bracePairsFrom]
  | cons c s ih =>
    cases state with
    | escaped => simpa only [bracePairsFrom] using ih .string opened pairs (i + 1)
    | string => simpa only [bracePairsFrom] using ih _ opened pairs (i + 1)
    | outside =>
      simp only [bracePairsFrom]
      split
      · exact ih _ _ _ _
      · split
        · split
          · exact ih _ _ _ _
          · next start opened =>
            rw [ih .outside opened (_ :: pairs), ih .outside opened [_]]
            simp
        · split <;> exact ih _ _ _ _

theorem start_of_mem_bracePairsFrom (state : BraceState) {pair : BracePair}
    (h : pair ∈ bracePairsFrom state opened [] i s) : pair.start ∈ opened ∨ i ≤ pair.start := by
  induction s generalizing state opened i with
  | nil => cases state <;> simp [bracePairsFrom] at h
  | cons c s ih =>
    have later {state : BraceState} (h : pair ∈ bracePairsFrom state opened [] (i + 1) s) :
        pair.start ∈ opened ∨ i ≤ pair.start :=
      (ih state h).imp_right Nat.le_of_succ_le
    cases state with
    | escaped => exact later h
    | string => exact later h
    | outside =>
      simp only [bracePairsFrom] at h
      split at h
      · rcases ih .outside h with member | bound
        · rcases List.mem_cons.mp member with same | member
          · exact .inr same.ge
          · exact .inl member
        · exact .inr (Nat.le_of_succ_le bound)
      · split at h
        · split at h
          · exact later h
          · next start opened =>
            rw [bracePairsFrom_eq_append, List.mem_append, List.mem_singleton] at h
            rcases h with h | rfl
            · exact (ih .outside h).imp (List.mem_cons_of_mem start) Nat.le_of_succ_le
            · exact .inl (by simp)
        · split at h <;> exact later h

/-- A text after which the search inside a brace stands where it stood before, with new pairs only
inside the text. -/
def IsClosed (w : List Char) : Prop :=
  ∀ opened pairs i t, opened ≠ [] → ∃ inner, (∀ pair ∈ inner, i ≤ pair.start) ∧
    bracePairsFrom .outside opened pairs i (w ++ t) =
      bracePairsFrom .outside opened (inner ++ pairs) (i + w.length) t

private theorem isClosed_nil : IsClosed [] :=
  fun _ _ _ _ _ => ⟨[], by simp, rfl⟩

theorem IsClosed.append (hu : IsClosed u) (hw : IsClosed w) : IsClosed (u ++ w) := by
  intro opened pairs i t inside
  obtain ⟨inner, bound, first⟩ := hu opened pairs i (w ++ t) inside
  obtain ⟨inner', bound', second⟩ := hw opened (inner ++ pairs) (i + u.length) t inside
  refine ⟨inner' ++ inner, ?_, ?_⟩
  · intro pair member
    rcases List.mem_append.mp member with later | earlier
    · have := bound' pair later
      omega
    · exact bound pair earlier
  · rw [List.append_assoc, first, second, List.append_assoc, List.length_append, Nat.add_assoc]

/-- A character that the search outside of strings passes over. -/
def isPlain (c : Char) : Bool :=
  c != '\x7b' && c != '\x7d' && c != '"'

private theorem isClosed_singleton {c : Char} (plain : isPlain c) : IsClosed [c] := by
  intro opened pairs i t inside
  simp only [isPlain, Bool.and_eq_true, bne_iff_ne, ne_eq] at plain
  refine ⟨[], by simp, ?_⟩
  simp [bracePairsFrom, plain]

private theorem isClosed_of_plain (plain : ∀ c ∈ w, isPlain c) : IsClosed w := by
  induction w with
  | nil => exact isClosed_nil
  | cons c w ih =>
    rw [List.forall_mem_cons] at plain
    exact (isClosed_singleton plain.1).append (ih plain.2)

theorem bracePairsFrom_braced (closed : IsClosed w) (opened : List Nat) (pairs : List BracePair)
    (i : Nat) (t : List Char) : ∃ inner, (∀ pair ∈ inner, i < pair.start) ∧
      bracePairsFrom .outside opened pairs i ('\x7b' :: (w ++ '\x7d' :: t)) =
        bracePairsFrom .outside opened (⟨i, i + w.length + 1⟩ :: (inner ++ pairs))
          (i + w.length + 2) t := by
  obtain ⟨inner, bound, scanned⟩ := closed (i :: opened) pairs (i + 1) ('\x7d' :: t) (by simp)
  refine ⟨inner, bound, ?_⟩
  have start : bracePairsFrom .outside opened pairs i ('\x7b' :: (w ++ '\x7d' :: t)) =
      bracePairsFrom .outside (i :: opened) pairs (i + 1) (w ++ '\x7d' :: t) := by
    simp [bracePairsFrom]
  rw [start, scanned]
  simp [bracePairsFrom, Nat.add_right_comm]

theorem IsClosed.braced (closed : IsClosed w) : IsClosed ('\x7b' :: (w ++ ['\x7d'])) := by
  intro opened pairs i t _
  obtain ⟨inner, bound, scanned⟩ := bracePairsFrom_braced closed opened pairs i t
  refine ⟨⟨i, i + w.length + 1⟩ :: inner, ?_, ?_⟩
  · rw [List.forall_mem_cons]
    exact ⟨Nat.le_refl i, fun pair member => Nat.le_of_lt (bound pair member)⟩
  · simpa [Nat.add_assoc] using scanned

/-- Where the search stands while the strict reader is in a string. -/
def scanState : Json.TextState → BraceState
  | .plain => .string
  | .escape => .escaped
  | .unit .. => .string
  | .lowEscape _ => .string
  | .lowMark _ => .escaped

private theorem ne_quote_of_hexValue? {c : Char} {n : Nat} (h : Json.hexValue? c = some n) :
    c ≠ '\\' ∧ c ≠ '"' := by
  constructor
  all_goals
    rintro rfl
    cases h

private theorem scanState_of_closeUnit {high : Option Nat} {value : Nat} {out out' : List Char}
    {state : Json.TextState}
    (h : Json.closeUnit high value out = some (state, out')) : scanState state = .string := by
  unfold Json.closeUnit at h
  repeat' split at h
  all_goals
    cases h
    try rfl

private theorem bracePairsFrom_textStep {state state' : Json.TextState} {out out' : List Char}
    {c : Char}
    (inside : ¬(c = '"' && state.isPlain))
    (step : Json.textStep state out c = some (state', out')) :
    bracePairsFrom (scanState state) opened pairs i (c :: s) =
      bracePairsFrom (scanState state') opened pairs (i + 1) s := by
  cases state with
  | plain =>
    simp only [Json.TextState.isPlain, Bool.and_true, decide_eq_true_eq] at inside
    simp only [Json.textStep] at step
    split at step
    · next escape =>
      cases step
      simp [scanState, bracePairsFrom, escape]
    · next other =>
      split at step
      · cases step
      · cases step
        simp [scanState, bracePairsFrom, other, inside]
  | escape =>
    simp only [Json.textStep] at step
    split at step
    · cases step
      simp [scanState, bracePairsFrom]
    · obtain ⟨d, -, same⟩ := Option.map_eq_some_iff.mp step
      cases same
      simp [scanState, bracePairsFrom]
  | unit high left value =>
    simp only [Json.textStep] at step
    split at step
    · cases step
    · next d digit =>
      obtain ⟨noEscape, noQuote⟩ := ne_quote_of_hexValue? digit
      have next : scanState state' = .string := by
        split at step
        · exact scanState_of_closeUnit step
        · cases step
          rfl
      rw [next]
      simp [scanState, bracePairsFrom, noEscape, noQuote]
  | lowEscape high =>
    simp only [Json.textStep] at step
    split at step
    · next escape =>
      cases step
      simp [scanState, bracePairsFrom, escape]
    · cases step
  | lowMark high =>
    simp only [Json.textStep] at step
    split at step
    · cases step
      simp [scanState, bracePairsFrom]
    · cases step

private theorem exists_of_readText {state : Json.TextState} {out text : List Char}
    (h : Json.readText state out s = some (text, rest)) :
    ∃ w, s = w ++ '"' :: rest ∧ ∀ opened pairs i t, bracePairsFrom (scanState state) opened pairs i
      (w ++ '"' :: t) = bracePairsFrom .outside opened pairs (i + w.length + 1) t := by
  induction s generalizing state out with
  | nil => simp [Json.readText] at h
  | cons c s ih =>
    simp only [Json.readText] at h
    split at h
    · next closed =>
      cases h
      rw [Bool.and_eq_true, decide_eq_true_iff] at closed
      obtain ⟨rfl, plain⟩ := closed
      refine ⟨[], rfl, ?_⟩
      intro opened pairs i t
      cases state <;> cases plain
      simp [scanState, bracePairsFrom]
    · next inside =>
      split at h
      · cases h
      · next state' out' step =>
        obtain ⟨w, rfl, scanned⟩ := ih h
        refine ⟨c :: w, rfl, ?_⟩
        intro opened pairs i t
        rw [List.cons_append, bracePairsFrom_textStep inside step, scanned, List.length_cons]
        congr 1
        omega

/-- Whether a text is closed up to a rest of it. -/
def Passes (s rest : List Char) : Prop :=
  ∃ w, s = w ++ rest ∧ IsClosed w

theorem Passes.refl (s : List Char) : Passes s s :=
  ⟨[], rfl, isClosed_nil⟩

theorem Passes.trans (hs : Passes s t) (ht : Passes t rest) : Passes s rest := by
  obtain ⟨u, rfl, closed⟩ := hs
  obtain ⟨w, rfl, closed'⟩ := ht
  exact ⟨u ++ w, (List.append_assoc u w rest).symm, closed.append closed'⟩

theorem Passes.cons {c : Char} (plain : isPlain c) (h : Passes s rest) : Passes (c :: s) rest :=
  Passes.trans ⟨[c], rfl, isClosed_singleton plain⟩ h

private theorem passes_dropWhile {p : Char → Bool} (plain : ∀ c, p c → isPlain c) (s : List Char) :
    Passes s (s.dropWhile p) :=
  ⟨s.takeWhile p, List.takeWhile_append_dropWhile.symm,
    isClosed_of_plain fun c member => plain c (List.mem_takeWhile_imp member)⟩

private theorem passes_skipSpace (s : List Char) : Passes s (Json.skipSpace s) := by
  refine passes_dropWhile ?_ s
  intro c space
  simp only [Json.isSpace, Bool.or_eq_true, beq_iff_eq] at space
  rcases space with ((rfl | rfl) | rfl) | rfl <;> rfl

private theorem passes_digitRun (s : List Char) : Passes s (Decimal.digitRun s).2 := by
  refine passes_dropWhile ?_ s
  intro c digit
  by_contra special
  simp only [isPlain, Bool.and_eq_true, bne_iff_ne, ne_eq, not_and_or, not_not] at special
  rcases special with (rfl | rfl) | rfl <;> cases digit

private theorem passes_readString {text : String} (h : Json.readString s = some (text, rest)) :
    Passes ('"' :: s) rest := by
  obtain ⟨⟨chars, left⟩, read, same⟩ := Option.map_eq_some_iff.mp h
  cases same
  obtain ⟨w, rfl, scanned⟩ := exists_of_readText read
  refine ⟨'"' :: (w ++ ['"']), by simp, ?_⟩
  intro opened pairs i t inside
  refine ⟨[], by simp, ?_⟩
  have start : bracePairsFrom .outside opened pairs i ('"' :: (w ++ '"' :: t)) =
      bracePairsFrom .string opened pairs (i + 1) (w ++ '"' :: t) := by
    simp [bracePairsFrom, inside]
  have whole : ('"' :: (w ++ ['"'])) ++ t = '"' :: (w ++ '"' :: t) := by simp
  rw [whole, start]
  refine (scanned opened pairs (i + 1) t).trans ?_
  simp only [List.nil_append, List.length_cons, List.length_append, List.length_nil]
  congr 1
  omega

private theorem passes_signed (s : List Char) : Passes s (Decimal.signed s).2 := by
  unfold Decimal.signed
  split
  · exact .cons rfl (.refl _)
  · exact .cons rfl (.refl _)
  · exact .refl _

private theorem passes_fractionRun (s : List Char) : Passes s (Json.fractionRun s).2 := by
  unfold Json.fractionRun
  split
  · exact .cons rfl (passes_digitRun _)
  · exact .refl _

private theorem passes_readExponent {mark : Option (Bool × List Char)}
    (h : Json.readExponent s = some (mark, rest)) :
    Passes s rest := by
  cases s with
  | nil =>
    cases h
    exact .refl _
  | cons c s =>
    simp only [Json.readExponent] at h
    split at h
    · next marked =>
      split at h
      · cases h
      · cases h
        have plain : isPlain c := by rcases marked with rfl | rfl <;> rfl
        exact .cons plain ((passes_signed s).trans (passes_digitRun _))
    · cases h
      exact .refl _

private theorem passes_readMagnitude {negative : Bool} {v : Json}
    (h : Json.readMagnitude negative s = some (v, rest)) :
    Passes s rest := by
  obtain ⟨-, mark, exponent, -⟩ := Json.readMagnitude_eq_some_iff.mp h
  exact ((passes_digitRun s).trans (passes_fractionRun _)).trans (passes_readExponent exponent)

private theorem passes_readScalar {v : Json} (h : Json.readScalar s = some (v, rest)) :
    Passes s rest := by
  have word {w : List Char} (plain : w.all isPlain) : Passes (w ++ rest) rest :=
    ⟨w, rfl, isClosed_of_plain (List.all_eq_true.mp plain)⟩
  unfold Json.readScalar at h
  split at h
  · obtain ⟨⟨text, left⟩, read, same⟩ := Option.map_eq_some_iff.mp h
    cases same
    exact passes_readString read
  · exact .cons rfl (passes_readMagnitude h)
  · cases h
    exact word (w := ['t', 'r', 'u', 'e']) (by decide)
  · cases h
    exact word (w := ['f', 'a', 'l', 's', 'e']) (by decide)
  · cases h
    exact word (w := ['n', 'u', 'l', 'l']) (by decide)
  · exact passes_readMagnitude h

section Containers

variable {item : List Char → Option (Json × List Char)}
  (passes : ∀ s v rest, item s = some (v, rest) → Passes s rest) {fuel : Nat} {v : Json}
include passes

private theorem passes_readElements {out : List Json}
    (h : Json.readElements item fuel out s = some (v, rest)) :
    Passes s (']' :: rest) := by
  induction fuel generalizing out s with
  | zero => simp [Json.readElements] at h
  | succ fuel ih =>
    obtain ⟨element, after, read, behind⟩ := Json.readElements_cases h
    have separated := (passes _ _ _ read).trans (passes_skipSpace after)
    obtain ⟨left, comma, further⟩ | ⟨close, -⟩ := behind
    · rw [comma] at separated
      exact separated.trans (.cons rfl (ih further))
    · rwa [close] at separated

private theorem passes_readMembers {out : List (String × Json)}
    (h : Json.readMembers item fuel out s = some (v, rest)) :
    Passes s ('\x7d' :: rest) := by
  induction fuel generalizing out s with
  | zero => simp [Json.readMembers] at h
  | succ fuel ih =>
    obtain ⟨quoted, key, named, valued, value, after, opened, text, colon, read, behind⟩ :=
      Json.readMembers_cases h
    have keyed := (passes_skipSpace s).trans (opened ▸ passes_readString text)
    have paired := keyed.trans (colon ▸ passes_skipSpace named)
    have separated := (paired.trans (.cons rfl (passes _ _ _ read))).trans (passes_skipSpace after)
    obtain ⟨left, comma, further⟩ | ⟨close, -⟩ := behind
    · rw [comma] at separated
      exact separated.trans (.cons rfl (ih further))
    · rwa [close] at separated

end Containers

section Open

variable {fuel depth : Nat} {v : Json} {after : List Char}
  (passes : ∀ s v rest, Json.readValue fuel depth s = some (v, rest) → Passes s rest)
include passes

private theorem passes_array (opened : Json.skipSpace s = '[' :: after)
    (h : Json.readValue fuel (depth + 1) s = some (v, rest)) : Passes after (']' :: rest) := by
  have blank := passes_skipSpace after
  obtain ⟨close, -⟩ | ⟨-, items⟩ := Json.readValue_array_cases opened h
  · rwa [close] at blank
  · exact blank.trans (passes_readElements passes items)

private theorem passes_object (opened : Json.skipSpace s = '\x7b' :: after)
    (h : Json.readValue fuel (depth + 1) s = some (v, rest)) : Passes after ('\x7d' :: rest) := by
  have blank := passes_skipSpace after
  obtain ⟨close, -⟩ | ⟨-, items⟩ := Json.readValue_object_cases opened h
  · rwa [close] at blank
  · exact blank.trans (passes_readMembers passes items)

end Open

private theorem passes_readValue (fuel depth : Nat) :
    ∀ s v rest, Json.readValue fuel depth s = some (v, rest) → Passes s rest := by
  induction depth using Nat.strong_induction_on with
  | _ depth ih =>
    intro s v rest h
    obtain ⟨c, after, found, ⟨⟨inner, rfl⟩, bracket⟩ | ⟨-, read⟩⟩ := Json.readValue_cases h
    · have passes := ih inner (Nat.lt_succ_self inner)
      refine (passes_skipSpace s).trans ?_
      rw [found]
      rcases bracket with rfl | rfl
      · exact .cons rfl ((passes_array passes found h).trans (.cons rfl (.refl rest)))
      · obtain ⟨w, rfl, closed⟩ := passes_object passes found h
        exact ⟨'\x7b' :: (w ++ ['\x7d']), by simp, closed.braced⟩
    · exact (passes_skipSpace s).trans (found ▸ passes_readScalar read)

theorem exists_braced_of_readValue {fuel depth : Nat} {v : Json}
    (h : Json.readValue fuel (depth + 1) ('\x7b' :: s) = some (v, rest)) :
    ∃ w, s = w ++ '\x7d' :: rest ∧ IsClosed w :=
  passes_object (passes_readValue fuel depth) rfl h

end AuditPanel.Review
