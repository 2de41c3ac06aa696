import AuditPanel.Proofs.Text.Words
import AuditPanel.Source.Identifiers
import Mathlib.Data.List.Induction

/-!
The words of an identifier. They are its letters and digits in lower case, none lost and none twice.
A word begins behind each separator, at each step up to a capital, and at the last capital before a
small letter, and nowhere else.
-/

set_option autoImplicit false

namespace AuditPanel.Source

open AuditPanel.Text

variable {s u v part : List Char} {a b c previous : Char} {next : Option Char}
  {ws : List (List Char)}

/-- The words of a text and those of the text behind it. -/
def Divides (ws : List (List Char)) (u v : List Char) : Prop :=
  ∃ front back, ws = front ++ back ∧ front.flatten = u ∧ back.flatten = v

/-- Words of which one begins in a text and ends in the text behind it. -/
def Straddles (ws : List (List Char)) (u v : List Char) : Prop :=
  ∃ front x y back, ws = front ++ (x ++ y) :: back ∧ front.flatten ++ x = u ∧
    y ++ back.flatten = v ∧ x ≠ [] ∧ y ≠ []

private theorem Straddles.not_divides (h : Straddles ws u v) : ¬Divides ws u v := by
  rintro ⟨front', back', divided, rfl, -⟩
  obtain ⟨front, x, y, back, rfl, begun, -, filled, filled'⟩ := h
  rcases List.append_eq_append_iff.mp divided with ⟨between, rfl, whole⟩ | ⟨between, rfl, -⟩
  · rw [List.flatten_append, List.append_cancel_left_eq] at begun
    cases between with
    | nil => exact filled begun
    | cons word between =>
      obtain ⟨rfl, -⟩ := List.cons.inj whole
      rw [List.flatten_cons, List.append_assoc, List.self_eq_append_right, List.append_eq_nil_iff]
        at begun
      exact filled' begun.1
  · rw [List.flatten_append, List.append_assoc, List.append_right_eq_self, List.append_eq_nil_iff]
      at begun
    exact filled begun.2

theorem Straddles.append_left (h : Straddles ws u v) (ws' : List (List Char)) :
    Straddles (ws' ++ ws) (ws'.flatten ++ u) v := by
  obtain ⟨front, x, y, back, rfl, rfl, rfl, filled, filled'⟩ := h
  exact ⟨ws' ++ front, x, y, back, by simp, by simp, rfl, filled, filled'⟩

theorem Straddles.append_right (h : Straddles ws u v) (ws' : List (List Char)) :
    Straddles (ws ++ ws') u (v ++ ws'.flatten) := by
  obtain ⟨front, x, y, back, rfl, rfl, rfl, filled, filled'⟩ := h
  exact ⟨front, x, y, back ++ ws', by simp, rfl, by simp, filled, filled'⟩

private theorem startsWord_iff :
    startsWord a b next ↔ b.isUpper ∧ (a.isUpper → ∃ c ∈ next, c.isLower) := by
  cases capital : a.isUpper <;> cases next <;> simp [startsWord, capital]

private theorem not_isUpper_of_isLower (lower : c.isLower) : c.isUpper = false := by
  by_contra upper
  rw [Bool.not_eq_false] at upper
  obtain ⟨small, -⟩ := Bool.and_eq_true_iff.mp lower
  obtain ⟨-, capital⟩ := of_decide_eq_true upper
  have above : 97 ≤ c.val.toNat := UInt32.le_iff_toNat_le.mp (of_decide_eq_true small)
  have below : c.val.toNat ≤ 90 := UInt32.le_iff_toNat_le.mp capital
  omega

/-- A character that begins a word is no small letter, and the word before ends as at the end of the
text. -/
private theorem startsWord_front (starts : startsWord a b next) (previous c : Char) :
    startsWord previous c (some b) = startsWord previous c none := by
  have upper := (startsWord_iff.mp starts).1
  have other : b.isLower = false := by
    by_contra lower
    rw [not_isUpper_of_isLower (by simpa using lower)] at upper
    cases upper
  simp [startsWord, other]

private theorem chunkWordsFrom_eq (part : List Char) (previous : Char) (s : List Char) :
    chunkWordsFrom part previous s = (chunkWordsFrom [] previous s).modifyHead
      (part.reverse ++ ·) := by
  induction s generalizing part previous with
  | nil => simp [chunkWordsFrom]
  | cons c s ih =>
    simp only [chunkWordsFrom]
    split
    · simp
    · rw [ih, ih [c.toLower], List.modifyHead_modifyHead]
      congr 1
      funext w
      simp

private theorem flatten_chunkWordsFrom (part : List Char) (previous : Char) (s : List Char) :
    (chunkWordsFrom part previous s).flatten = part.reverse ++ s.map Char.toLower := by
  induction s generalizing part previous with
  | nil => simp [chunkWordsFrom]
  | cons c s ih =>
    simp only [chunkWordsFrom]
    split <;> simp [ih]

private theorem ne_nil_of_mem_chunkWordsFrom (filled : part ≠ []) {word : List Char}
    (member : word ∈ chunkWordsFrom part previous s) : word ≠ [] := by
  induction s generalizing part previous with
  | nil => simp_all [chunkWordsFrom]
  | cons c s ih =>
    simp only [chunkWordsFrom] at member
    split at member
    · rcases List.mem_cons.mp member with rfl | later
      · simpa using filled
      · exact ih (by simp) later
    · exact ih (by simp) member

private theorem chunkWordsFrom_ne_nil (part : List Char) (previous : Char) (s : List Char) :
    chunkWordsFrom part previous s ≠ [] := by
  induction s generalizing part previous with
  | nil => simp [chunkWordsFrom]
  | cons c s ih =>
    simp only [chunkWordsFrom]
    split
    · simp
    · exact ih _ _

private theorem chunkWordsFrom_append (u : List Char)
    (starts : startsWord (u.getLastD previous) b v.head?) :
    chunkWordsFrom part previous (u ++ b :: v) =
      chunkWordsFrom part previous u ++ chunkWordsFrom [b.toLower] b v := by
  induction u generalizing part previous with
  | nil =>
    rw [List.getLastD_nil] at starts
    simp [chunkWordsFrom, starts]
  | cons c u ih =>
    rw [List.getLastD_cons] at starts
    have same : startsWord previous c (u ++ b :: v).head? = startsWord previous c u.head? := by
      cases u with
      | nil => exact startsWord_front starts previous c
      | cons d u => rfl
    simp only [List.cons_append, chunkWordsFrom, same]
    split
    · rw [ih starts, List.cons_append]
    · exact ih starts

private theorem straddles_chunkWordsFrom (filled : part ≠ []) (u : List Char)
    (goesOn : startsWord (u.getLastD previous) b v.head? = false) :
    Straddles (chunkWordsFrom part previous (u ++ b :: v)) (part.reverse ++ u.map Char.toLower)
      ((b :: v).map Char.toLower) := by
  induction u generalizing part previous with
  | nil =>
    rw [List.getLastD_nil] at goesOn
    obtain ⟨word, back, later⟩ : ∃ word back, chunkWordsFrom [] b v = word :: back :=
      List.exists_cons_of_ne_nil (chunkWordsFrom_ne_nil [] b v)
    have whole := flatten_chunkWordsFrom [] b v
    refine ⟨[], part.reverse, b.toLower :: word, back, ?_, by simp,
      ?_, by simpa using filled, by simp⟩
    · rw [List.nil_append, chunkWordsFrom, goesOn, if_neg (by simp), chunkWordsFrom_eq, later]
      simp
    · rw [later] at whole
      simpa using whole
  | cons c u ih =>
    rw [List.getLastD_cons] at goesOn
    simp only [List.cons_append, chunkWordsFrom]
    split
    · have later := (ih (List.cons_ne_nil c.toLower []) goesOn).append_left [part.reverse]
      simpa using later
    · have later := ih (List.cons_ne_nil c.toLower part) goesOn
      simpa using later

private theorem chunkWords_append (u : List Char) (a b : Char) (v : List Char) :
    (startsWord a b v.head? → chunkWords (u ++ [a] ++ b :: v) = chunkWords (u ++ [a]) ++
      chunkWords (b :: v)) ∧ (startsWord a b v.head? = false →
        Straddles (chunkWords (u ++ [a] ++ b :: v)) ((u ++ [a]).map Char.toLower)
          ((b :: v).map Char.toLower)) := by
  obtain ⟨c, w, front, last⟩ : ∃ c w, u ++ [a] = c :: w ∧ w.getLastD c = a := by
    cases u with
    | nil => exact ⟨a, [], rfl, rfl⟩
    | cons c u => exact ⟨c, u ++ [a], rfl, by simp⟩
  rw [front, ← last]
  exact ⟨fun starts => chunkWordsFrom_append w starts,
    straddles_chunkWordsFrom (List.cons_ne_nil c.toLower []) w⟩

private theorem flatten_chunkWords (s : List Char) :
    (chunkWords s).flatten = s.map Char.toLower := by
  cases s with
  | nil => rfl
  | cons c s => simp [chunkWords, flatten_chunkWordsFrom]

private theorem ne_nil_of_mem_chunkWords {word : List Char} (member : word ∈ chunkWords s) :
    word ≠ [] := by
  cases s with
  | nil => simp [chunkWords] at member
  | cons c s => exact ne_nil_of_mem_chunkWordsFrom (by simp) member

def isSeparator (c : Char) : Bool :=
  c == '_' || c == '$'

/-- The letters and digits of an identifier in lower case. -/
def letters (s : List Char) : List Char :=
  (s.filter (!isSeparator ·)).map Char.toLower

private theorem letters_append (s t : List Char) : letters (s ++ t) = letters s ++ letters t := by
  simp [letters]

private theorem letters_of_solid (solid : ∀ c ∈ s, isSeparator c = false) :
    letters s = s.map Char.toLower := by
  rw [letters, List.filter_eq_self.mpr]
  simpa using solid

private theorem splitIdentifier_eq (s : List Char) :
    splitIdentifier s = (s.splitOnP isSeparator).flatMap chunkWords := by
  have drops (chunks : List (List Char)) : (chunks.filter (· ≠ [])).flatMap chunkWords =
      chunks.flatMap chunkWords := by
    induction chunks with
    | nil => rfl
    | cons chunk chunks ih => cases chunk <;> simp_all [chunkWords]
  rw [splitIdentifier, runsBetween_eq, drops]
  rfl

private theorem ne_nil_of_mem_splitIdentifier {word : List Char}
    (member : word ∈ splitIdentifier s) : word ≠ [] := by
  obtain ⟨chunk, -, inChunk⟩ := List.mem_flatMap.mp member
  exact ne_nil_of_mem_chunkWords inChunk

private theorem flatten_splitIdentifier (s : List Char) :
    (splitIdentifier s).flatten = letters s := by
  rw [splitIdentifier_eq, letters, ← flatten_splitOnP]
  generalize s.splitOnP isSeparator = chunks
  induction chunks with
  | nil => rfl
  | cons chunk chunks ih => simp [flatten_chunkWords, ih]

private theorem splitIdentifier_of_solid (solid : ∀ c ∈ s, isSeparator c = false) :
    splitIdentifier s = chunkWords s := by
  rw [splitIdentifier_eq, List.splitOnP_eq_singleton solid, List.flatMap_singleton]

private theorem splitIdentifier_append_cons (separates : isSeparator c) (u v : List Char) :
    splitIdentifier (u ++ c :: v) = splitIdentifier u ++ splitIdentifier v := by
  simp only [splitIdentifier_eq, List.splitOnP_append_cons u v separates, List.flatMap_append]

private theorem splitIdentifier_cons (separates : isSeparator c) (s : List Char) :
    splitIdentifier (c :: s) = splitIdentifier s :=
  splitIdentifier_append_cons separates [] s

private theorem splitIdentifier_concat (separates : isSeparator c) (s : List Char) :
    splitIdentifier (s ++ [c]) = splitIdentifier s := by
  rw [splitIdentifier_append_cons separates]
  exact List.append_nil _

private theorem exists_lastChunk (s : List Char) :
    ∃ front chunk, s = front ++ chunk ∧ (∀ c ∈ chunk, isSeparator c = false) ∧
      ∀ t, splitIdentifier (front ++ t) = splitIdentifier front ++ splitIdentifier t := by
  induction s using List.reverseRecOn with
  | nil => exact ⟨[], [], rfl, by simp, fun t => rfl⟩
  | append_singleton s c ih =>
    cases separates : isSeparator c with
    | true =>
      refine ⟨s ++ [c], [], by simp, by simp, fun t => ?_⟩
      rw [splitIdentifier_concat separates, List.append_assoc, List.singleton_append,
        splitIdentifier_append_cons separates]
    | false =>
      obtain ⟨front, chunk, rfl, solid, apart⟩ := ih
      refine ⟨front, chunk ++ [c], by simp, ?_, apart⟩
      simpa [or_imp, forall_and, separates] using solid

private theorem exists_firstChunk (s : List Char) :
    ∃ chunk back, s = chunk ++ back ∧ (∀ c ∈ chunk, isSeparator c = false) ∧
      (∀ c ∈ back.head?, isSeparator c) ∧
      ∀ t, splitIdentifier (t ++ back) = splitIdentifier t ++ splitIdentifier back := by
  induction s with
  | nil =>
    exact ⟨[], [], rfl, by simp, by simp,
      fun t => by simp [splitIdentifier_eq, chunkWords, List.splitOnP_nil]⟩
  | cons c s ih =>
    cases separates : isSeparator c with
    | true =>
      refine ⟨[], c :: s, rfl, by simp, by simpa using separates, fun t => ?_⟩
      rw [splitIdentifier_cons separates, splitIdentifier_append_cons separates]
    | false =>
      obtain ⟨chunk, back, rfl, solid, ends, apart⟩ := ih
      refine ⟨c :: chunk, back, rfl, ?_, ends, apart⟩
      simpa [separates] using solid

private theorem not_isSeparator_of_isUpper (upper : c.isUpper) : isSeparator c = false := by
  by_contra separates
  simp only [isSeparator, Bool.not_eq_false, Bool.or_eq_true, beq_iff_eq] at separates
  rcases separates with rfl | rfl <;> cases upper

private theorem not_isLower_of_isSeparator (separates : isSeparator c) : c.isLower = false := by
  simp only [isSeparator, Bool.or_eq_true, beq_iff_eq] at separates
  rcases separates with rfl | rfl <;> decide

/-- The words around two neighbours that are no separators: those of their chunk, and those before
and behind it. -/
private theorem exists_chunk (first : isSeparator a = false) (second : isSeparator b = false)
    (u v : List Char) :
    ∃ front x y back, splitIdentifier (u ++ a :: b :: v) = front ++
      (chunkWords (x ++ [a] ++ b :: y) ++ back) ∧
      letters (u ++ [a]) = front.flatten ++ (x ++ [a]).map Char.toLower ∧
      letters (b :: v) = (b :: y).map Char.toLower ++ back.flatten ∧
        startsWord a b v.head? = startsWord a b y.head? := by
  obtain ⟨u, x, rfl, solid, before⟩ := exists_lastChunk u
  obtain ⟨y, v, rfl, solid', ends, behind⟩ := exists_firstChunk v
  have solidBefore : ∀ c ∈ x ++ [a], isSeparator c = false := by
    simpa [or_imp, forall_and, first] using solid
  have solidBehind : ∀ c ∈ b :: y, isSeparator c = false := by simpa [second] using solid'
  refine ⟨splitIdentifier u, x, y, splitIdentifier v, ?_, ?_, ?_, ?_⟩
  · have whole : u ++ x ++ a :: b :: (y ++ v) = u ++ ((x ++ [a] ++ b :: y) ++ v) := by simp
    have chunk : ∀ c ∈ x ++ [a] ++ b :: y, isSeparator c = false := by
      intro c member
      exact (List.mem_append.mp member).elim (solidBefore c) (solidBehind c)
    rw [whole, before, behind, splitIdentifier_of_solid chunk]
  · rw [List.append_assoc, letters_append, flatten_splitIdentifier, letters_of_solid solidBefore]
  · rw [← List.cons_append, letters_append, flatten_splitIdentifier, letters_of_solid solidBehind]
  · cases y with
    | cons c y => rfl
    | nil =>
      cases v with
      | nil => rfl
      | cons c v => simp [startsWord, not_isLower_of_isSeparator (ends c rfl)]

private theorem divides_iff (first : isSeparator a = false) (second : isSeparator b = false)
    (u v : List Char) :
    Divides (splitIdentifier (u ++ a :: b :: v)) (letters (u ++ [a])) (letters (b :: v)) ↔
      startsWord a b v.head? := by
  obtain ⟨front, x, y, back, words, begun, rest, same⟩ := exists_chunk first second u v
  have chunk := chunkWords_append x a b y
  rw [words, begun, rest, same]
  constructor
  · intro divided
    by_contra goesOn
    have straddles := ((chunk.2 (by simpa using goesOn)).append_right back).append_left front
    exact straddles.not_divides divided
  · intro starts
    refine ⟨front ++ chunkWords (x ++ [a]), chunkWords (b :: y) ++ back, ?_, ?_, ?_⟩
    · rw [chunk.1 starts]
      simp
    · rw [List.flatten_append, flatten_chunkWords]
    · rw [List.flatten_append, flatten_chunkWords]

private theorem divides_separator (separates : isSeparator c) (u v : List Char) :
    Divides (splitIdentifier (u ++ c :: v)) (letters u) (letters v) :=
  ⟨splitIdentifier u, splitIdentifier v, splitIdentifier_append_cons separates u v,
    flatten_splitIdentifier u, flatten_splitIdentifier v⟩

private theorem letters_cons (separates : isSeparator c) (s : List Char) :
    letters (c :: s) = letters s := by
  simp [letters, separates]

/-- The words of an identifier are those of its first `n` characters and those of the others. -/
def BreaksAt (ident : List Char) (n : Nat) : Prop :=
  Divides (splitIdentifier ident) (letters (ident.take n)) (letters (ident.drop n))

private theorem breaksAt_zero (ident : List Char) : BreaksAt ident 0 :=
  ⟨[], splitIdentifier ident, rfl, rfl, flatten_splitIdentifier ident⟩

private theorem breaksAt_succ_iff {ident : List Char} {n : Nat} (before : ident[n]? = some a)
    (behind : ident[n + 1]? = some b) :
    BreaksAt ident (n + 1) ↔
      isSeparator a ∨ isSeparator b ∨ b.isUpper ∧ (a.isUpper → ∃ c ∈ ident[n + 2]?, c.isLower) := by
  have front : ident.take (n + 1) = ident.take n ++ [a] := by
    rw [List.take_add_one, before, Option.toList_some]
  have back : ident.drop (n + 1) = b :: ident.drop (n + 2) := by
    obtain ⟨short, rfl⟩ := List.getElem?_eq_some_iff.mp behind
    exact List.drop_eq_getElem_cons short
  have split : ident = ident.take n ++ a :: b :: ident.drop (n + 2) := by
    rw [← back, ← List.singleton_append, ← List.append_assoc, ← front, List.take_append_drop]
  rw [BreaksAt, front, back, ← List.head?_drop]
  generalize ident.take n = u at *
  generalize ident.drop (n + 2) = v at *
  subst split
  cases first : isSeparator a with
  | true =>
    have words := divides_separator first u (b :: v)
    simpa [letters_append, letters, first] using words
  | false =>
    cases second : isSeparator b with
    | true =>
      have words := divides_separator second (u ++ [a]) v
      rw [List.append_assoc, List.singleton_append] at words
      simpa [letters_cons second] using words
    | false =>
      rw [divides_iff first second, startsWord_iff]
      simp

/-- A run of capitals from place `i` up to place `j`, where a small letter stands. -/
structure IsCapitalRun (ident : List Char) (i j : Nat) : Prop where
  filled : i < j
  capitals : ∀ k, i ≤ k → k < j → ∃ c ∈ ident[k]?, c.isUpper
  small : ∃ c ∈ ident[j]?, c.isLower
  starts : ∀ k, k + 1 = i → ∀ c ∈ ident[k]?, c.isUpper = false

/-- From a run of capitals up to the small letter behind it, words begin with the run and with its
last capital. -/
private theorem IsCapitalRun.breaksAt_iff {ident : List Char} {i j n : Nat}
    (run : IsCapitalRun ident i j) (le : i ≤ n)
    (upTo : n ≤ j) : BreaksAt ident n ↔ n = i ∨ n + 1 = j := by
  rcases Nat.eq_or_lt_of_le le with rfl | inside
  · refine iff_of_true ?_ (.inl rfl)
    obtain ⟨b, behind, capital⟩ := run.capitals i (Nat.le_refl i) run.filled
    cases i with
    | zero => exact breaksAt_zero ident
    | succ k =>
      have listed := (List.getElem?_eq_some_iff.mp behind).1
      have before : ident[k]? = some ident[k] := List.getElem?_eq_getElem (by omega)
      have small := run.starts k rfl ident[k] before
      exact (breaksAt_succ_iff before behind).mpr
        (.inr (.inr ⟨capital, fun upper => by simp [small] at upper⟩))
  · obtain ⟨m, rfl⟩ : ∃ m, n = m + 1 := ⟨n - 1, by omega⟩
    obtain ⟨a, before, capital⟩ := run.capitals m (by omega) (by omega)
    have first := not_isSeparator_of_isUpper capital
    rcases Nat.eq_or_lt_of_le upTo with rfl | inRun
    · obtain ⟨b, behind, small⟩ := run.small
      have noCapital := not_isUpper_of_isLower small
      have second : isSeparator b = false := by
        by_contra separates
        simp [not_isLower_of_isSeparator (by simpa using separates)] at small
      rw [breaksAt_succ_iff before behind, first, second, noCapital]
      simp
      omega
    · obtain ⟨b, behind, capital'⟩ := run.capitals (m + 1) le inRun
      have followed : (∃ c ∈ ident[m + 2]?, c.isLower) ↔ m + 2 = j := by
        constructor
        · rintro ⟨c, next, small⟩
          by_contra early
          obtain ⟨d, next', upper⟩ := run.capitals (m + 2) (by omega) (by omega)
          obtain rfl : c = d := Option.some.inj (next.symm.trans next')
          simp [not_isUpper_of_isLower small] at upper
        · rintro rfl
          exact run.small
      rw [breaksAt_succ_iff before behind, first, not_isSeparator_of_isUpper capital', capital,
        capital', followed]
      simp
      omega

/-- The words of an identifier are not empty, and one after the other they are its letters and
digits in lower case. They part at separators, at each step up to a capital and before a capital
that a small letter follows, nowhere else; so a run of capitals with a small letter behind it is
split before its last capital. -/
theorem splitIdentifier_partition (ident : List Char) :
    (∀ word ∈ splitIdentifier ident, word ≠ []) ∧ (splitIdentifier ident).flatten = letters ident ∧
      (∀ n a b, ident[n]? = some a → ident[n + 1]? = some b → (BreaksAt ident (n + 1) ↔
        isSeparator a ∨ isSeparator b ∨ b.isUpper ∧ (a.isUpper → ∃ c ∈ ident[n + 2]?, c.isLower))) ∧
      ∀ i j, IsCapitalRun ident i j → ∀ n, i ≤ n → n ≤ j → (BreaksAt ident n ↔ n = i ∨ n + 1 = j) :=
  ⟨fun _ member => ne_nil_of_mem_splitIdentifier member, flatten_splitIdentifier ident,
    fun _ _ _ before behind => breaksAt_succ_iff before behind, fun _ _ run _ le upTo =>
      run.breaksAt_iff le upTo⟩

/-- An acronym before a capitalised word, a separator and a digit behind it. -/
theorem splitIdentifier_partition_ammPool :
    splitIdentifier "AMMPool_v2".toList = ["amm".toList, "pool".toList, "v2".toList] ∧
      IsCapitalRun "AMMPool_v2".toList 0 4 ∧ BreaksAt "AMMPool_v2".toList 3 ∧
        ¬BreaksAt "AMMPool_v2".toList 2 ∧ BreaksAt "AMMPool_v2".toList 7 := by
  have run : IsCapitalRun "AMMPool_v2".toList 0 4 := by
    refine ⟨by decide, ?_, ⟨'o', rfl, rfl⟩, by simp⟩
    intro k _ below
    obtain rfl | rfl | rfl | rfl : k = 0 ∨ k = 1 ∨ k = 2 ∨ k = 3 := by omega
    exacts [⟨'A', rfl, rfl⟩, ⟨'M', rfl, rfl⟩, ⟨'M', rfl, rfl⟩, ⟨'P', rfl, rfl⟩]
  obtain ⟨-, -, breaks, runs⟩ := splitIdentifier_partition "AMMPool_v2".toList
  exact ⟨by decide, run, (runs 0 4 run 3 (by decide) (by decide)).mpr (by decide),
    mt (runs 0 4 run 2 (by decide) (by decide)).mp (by decide),
    (breaks 6 'l' '_' rfl rfl).mpr (.inr (.inl rfl))⟩

end AuditPanel.Source
