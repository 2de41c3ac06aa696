import AuditPanel.Proofs.Review.Braces
import AuditPanel.Review.Reply
import Mathlib.Data.List.Sort

/-!
Prose around the object of a reviewer's answer does not matter: the first brace of the answer is
matched with the last one of the object, and no other pair of braces stands before that.
-/

set_option autoImplicit false

namespace AuditPanel.Review

variable {p j s w : List Char}

private theorem exists_takeBytes_eq (room : Nat) (out s : List Char) :
    ∃ kept, takeBytes room out s = out.reverse ++ kept := by
  induction s generalizing room out with
  | nil => exact ⟨[], by simp [takeBytes]⟩
  | cons c s ih =>
    simp only [takeBytes]
    split
    · obtain ⟨kept, same⟩ := ih (room - c.utf8Size) (c :: out)
      exact ⟨c :: kept, by simp [same]⟩
    · exact ⟨[], by simp⟩

private theorem exists_takeBytes_append {room : Nat} (out : List Char)
    (fits : (String.ofList w).utf8ByteSize ≤ room)
    (s : List Char) : ∃ kept, takeBytes room out (w ++ s) = out.reverse ++ (w ++ kept) := by
  induction w generalizing room out with
  | nil => exact exists_takeBytes_eq room out s
  | cons c w ih =>
    rw [String.ofList_cons, String.utf8ByteSize_append, String.utf8ByteSize_singleton] at fits
    have first : c.utf8Size ≤ room := by omega
    obtain ⟨kept, same⟩ := ih (c :: out) (Nat.le_sub_of_add_le' fits)
    refine ⟨kept, ?_⟩
    simp only [List.cons_append, takeBytes, if_pos first, same, List.reverse_cons,
      List.append_assoc, List.nil_append]

private theorem bracePairsFrom_prose (noBrace : '\x7b' ∉ p) (i : Nat) (s : List Char) :
    bracePairsFrom .outside [] [] i (p ++ s) = bracePairsFrom .outside [] [] (i + p.length) s := by
  induction p generalizing i with
  | nil => rfl
  | cons c p ih =>
    rw [List.mem_cons, not_or] at noBrace
    have step : bracePairsFrom .outside [] [] i (c :: (p ++ s)) = bracePairsFrom .outside [] []
        (i + 1) (p ++ s) := by
      simp [bracePairsFrom, Ne.symm noBrace.1]
    rw [List.cons_append, step, ih noBrace.2, List.length_cons, Nat.add_assoc, Nat.add_comm 1]

private theorem exists_mergeSort_eq_cons {before after : List BracePair} {pair : BracePair}
    (first : ∀ other ∈ before ++ after, pair.start < other.start) :
    ∃ others, (before ++ pair :: after).mergeSort (fun a b => a.start ≤ b.start) = pair ::
      others := by
  have perm := List.mergeSort_perm (before ++ pair :: after) fun a b => a.start ≤ b.start
  have sorted :=
    List.pairwise_mergeSort' (fun a b : BracePair => a.start ≤ b.start) (before ++ pair :: after)
  cases found : (before ++ pair :: after).mergeSort fun a b => a.start ≤ b.start with
  | nil => simp [found] at perm
  | cons head others =>
    rw [found] at perm sorted
    refine ⟨others, congrArg (· :: others) ?_⟩
    have listed : pair ∈ head :: others := perm.symm.subset (by simp)
    rcases List.mem_cons.mp listed with same | behind
    · exact same.symm
    · -- Another pair in front would start no later than this one.
      have least := (List.pairwise_cons.mp sorted).1 pair behind
      have member : head ∈ before ++ pair :: after := perm.subset (by simp)
      rw [List.mem_append, List.mem_cons] at member
      rcases member with other | same | other
      · exact absurd (first head (List.mem_append_left _ other)) (Nat.not_lt.mpr least)
      · exact same
      · exact absurd (first head (List.mem_append_right _ other)) (Nat.not_lt.mpr least)

private theorem exists_bracePairs_prose (noBrace : '\x7b' ∉ p) (closed : IsClosed w)
    (s : List Char) :
    ∃ others, bracePairs (p ++ '\x7b' :: (w ++ '\x7d' :: s)) =
      ⟨p.length, p.length + w.length + 1⟩ :: others := by
  obtain ⟨inner, bound, scanned⟩ := bracePairsFrom_braced closed [] [] p.length s
  unfold bracePairs
  rw [bracePairsFrom_prose noBrace, Nat.zero_add, scanned, bracePairsFrom_eq_append,
    List.append_nil]
  refine exists_mergeSort_eq_cons ?_
  intro other member
  rcases List.mem_append.mp member with later | inside
  · rcases start_of_mem_bracePairsFrom .outside later with impossible | behind
    · cases impossible
    · change p.length < other.start
      omega
  · exact bound other inside

theorem readValue_of_read? {members : Members} (closes : ('\x7b' :: j).getLast? = some '\x7d')
    (read : Json.read? ('\x7b' :: j) = some (.object members)) :
    Json.readValue (j.length + 2) Json.defaultDepth ('\x7b' :: j) = some (.object members, []) := by
  simp only [Json.read?, Json.readWithin, List.length_cons] at read
  split at read
  · cases read
  · next v rest found =>
    rw [Option.ite_none_right_eq_some] at read
    obtain ⟨blank, same⟩ := read
    cases same
    rw [List.isEmpty_iff] at blank
    obtain ⟨w, rfl, -⟩ := exists_braced_of_readValue found
    rcases List.eq_nil_or_concat rest with rfl | ⟨front, last, rfl⟩
    · exact found
    · -- A blank behind the last brace would end the text.
      have whole : '\x7b' :: (w ++ '\x7d' :: front.concat last) =
          ('\x7b' :: (w ++ '\x7d' :: front)) ++ [last] := by
        simp
      rw [whole, List.getLast?_concat] at closes
      cases closes
      have space := List.dropWhile_eq_nil_iff.mp blank '\x7d' (by simp)
      cases space

theorem objectIn?_of_readValue {fuel : Nat} (pair : BracePair) {members : Members}
    {rest : List Char}
    (read : Json.readValue fuel Json.defaultDepth s = some (.object members, rest))
    (span : s.length = rest.length + (pair.stop + 1 - pair.start)) :
    objectIn? fuel pair s = some members := by
  simp only [objectIn?, read, if_pos span]

theorem extractObject?_prose (noBrace : '\x7b' ∉ p) {members : Members}
    (opens : j.head? = some '\x7b')
    (closes : j.getLast? = some '\x7d') (read : Json.read? j = some (.object members))
    (fits : (String.ofList (p ++ j)).utf8ByteSize ≤ answerLimit) (s : List Char) :
    extractObject? (p ++ j ++ s) = some members := by
  obtain ⟨j, rfl⟩ := List.head?_eq_some_iff.mp opens
  have found := readValue_of_read? closes read
  obtain ⟨w, rfl, closed⟩ := exists_braced_of_readValue found
  obtain ⟨kept, same⟩ := exists_takeBytes_append [] fits s
  have text : p ++ '\x7b' :: (w ++ ['\x7d']) ++ kept = p ++ '\x7b' :: (w ++ '\x7d' :: kept) := by
    simp
  rw [List.reverse_nil, List.nil_append, text] at same
  obtain ⟨others, pairs⟩ := exists_bracePairs_prose noBrace closed kept
  simp only [extractObject?, same, pairs, firstObject?, Nat.sub_zero, List.drop_left]
  have longer : (w ++ ['\x7d']).length + 2 ≤ (p ++ '\x7b' :: (w ++ '\x7d' :: kept)).length + 1 := by
    simp only [List.length_append, List.length_cons, List.length_nil]
    omega
  have extended := Json.readValue_object_append (t := kept) longer found
  rw [List.append_assoc, List.singleton_append, List.nil_append] at extended
  have span : ('\x7b' :: (w ++ '\x7d' :: kept)).length = kept.length +
      (p.length + w.length + 1 + 1 - p.length) := by
    simp only [List.length_cons, List.length_append]
    omega
  rw [objectIn?_of_readValue ⟨p.length, p.length + w.length + 1⟩ extended span]

/-- The object in a reviewer's answer is the one that its first braces hold, and the report is the
one of the object alone, whatever prose stands around it. -/
theorem normalize_prose (r : Reviewer) (p j s : List Char) (members : Members)
    (noBrace : '\x7b' ∉ p) (opens : j.head? = some '\x7b') (closes : j.getLast? = some '\x7d')
    (read : Json.read? j = some (.object members))
    (fits : (String.ofList (p ++ j)).utf8ByteSize ≤ answerLimit) :
    extractObject? (p ++ j ++ s) = some members ∧ normalize (p ++ j ++ s) r = normalize j r := by
  have answer := extractObject?_prose noBrace opens closes read fits s
  have alone : extractObject? j = some members := by
    rw [String.ofList_append, String.utf8ByteSize_append] at fits
    have short : (String.ofList ([] ++ j)).utf8ByteSize ≤ answerLimit :=
      (Nat.le_add_left _ _).trans fits
    simpa using extractObject?_prose (by simp) opens closes read short []
  refine ⟨answer, ?_⟩
  simp only [normalize, answer, alone]

/-- A reply whose object holds braces and an escaped quote in a string, and another object. -/
private def wordy : String := "\x7b\"note\": [\"\x7d \\\" \x7b\", \x7b\"a\": 1\x7d]\x7d"

private def wordyMembers : Members :=
  [("note", .array [.string "\x7d \" \x7b", .object [("a", .integer 1)]])]

private theorem read?_wordy : Json.read? wordy.toList = some (.object wordyMembers) := by
  with_unfolding_all rfl

/-- Prose with a lone quote and a lone closing brace in front of the object, and another object
behind it. -/
theorem normalize_quoted_braces :
    extractObject?
      ("It isn't \"safe \x7d \\ ".toList ++ wordy.toList ++ " \x7b\"score\": 0\x7d \"".toList) =
        some wordyMembers ∧
      normalize
        ("It isn't \"safe \x7d \\ ".toList ++ wordy.toList ++ " \x7b\"score\": 0\x7d \"".toList)
          .security = normalize wordy.toList .security :=
  normalize_prose .security _ _ _ wordyMembers (by decide) (by decide) (by decide) read?_wordy
    (by decide)

end AuditPanel.Review
