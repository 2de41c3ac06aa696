import AuditPanel.Proofs.Source.Header

/-!
State variables. What is read of one is read from the front of its line on, and behind its name an
equals sign or a semicolon stands.
-/

set_option autoImplicit false

namespace AuditPanel.Source

open AuditPanel.Text

section Rest

variable {s rest : List Char}

private theorem trimStart_suffix (s : List Char) : trimStart s <:+ s :=
  List.dropWhile_suffix isBlank

private theorem suffix_of_after? {word : String} (found : after? word s = some rest) :
    rest <:+ s := by
  rw [after?_eq_some_iff.mp found]
  exact List.suffix_append _ rest

private theorem suffix_of_afterBlanks? (found : afterBlanks? s = some rest) : rest <:+ s := by
  obtain ⟨blanks, split, -⟩ := exists_of_afterBlanks? found
  rw [split]
  exact List.suffix_append blanks rest

private theorem suffix_of_identifier? {w : List Char} (found : identifier? s = some (w, rest)) :
    rest <:+ s := by
  rw [(identifier?_eq_some_iff.mp found).1]
  exact List.suffix_append w rest

private theorem suffix_of_flag? {flag : String} (found : flag? s = some (flag, rest)) :
    rest <:+ s := by
  simp only [flag?, bind, Option.bind_eq_some_iff] at found
  obtain ⟨⟨word, behind⟩, opened, behind', blanks, same⟩ := found
  obtain ⟨word', -, split⟩ := exists_of_wordOf? opened
  obtain ⟨-, rfl⟩ : word = flag ∧ behind' = rest := by simpa using same
  rw [split]
  exact (suffix_of_afterBlanks? blanks).trans (List.suffix_append _ _)

private theorem arraySuffix_suffix (fuel : Nat) (out s : List Char) :
    (arraySuffix fuel out s).2 <:+ s := by
  induction fuel generalizing out s with
  | zero => exact List.suffix_refl s
  | succ fuel ih =>
    rw [arraySuffix]
    split
    · next inside opened =>
      split
      · next text behind closed =>
        have bracket : behind <:+ inside := by
          unfold splitAtChar? at closed
          split at closed
          · cases closed
          · next c more dropped =>
            obtain ⟨-, rfl⟩ : _ ∧ more = behind := by simpa using closed
            have later : more <:+ inside.dropWhile (· != ']') := dropped ▸ List.suffix_cons c more
            exact later.trans (List.dropWhile_suffix _)
        have type : inside <:+ s := by
          have later : inside <:+ s.dropWhile isBlank := opened ▸ List.suffix_cons '[' inside
          exact later.trans (List.dropWhile_suffix _)
        exact (ih _ behind).trans (bracket.trans type)
      · exact List.suffix_refl s
    · exact List.suffix_refl s

private theorem suffix_of_plainType? {type : List Char} (found : plainType? s = some (type, rest)) :
    rest <:+ s := by
  cases s with
  | nil => cases found
  | cons c s =>
    by_cases starts : isNameStart c
    · rw [plainType?, if_pos starts] at found
      obtain rfl := (Prod.mk.inj (Option.some.inj found)).2
      have behind :=
        (arraySuffix_suffix s.length (c :: s.takeWhile fun c => isWordChar c || c == '.').reverse
          _).trans (List.dropWhile_suffix (fun c => isWordChar c || c == '.') (l := s))
      exact behind.trans (List.suffix_cons c s)
    · rw [plainType?, if_neg starts] at found
      cases found

private theorem suffix_of_mem_parenEndsFrom {ends : List (List Char × List Char)} {out : List Char}
    {entry : List Char × List Char}
    (member : entry ∈ parenEndsFrom ends out s) : entry ∈ ends ∨ entry.2 <:+ s := by
  induction s generalizing ends out with
  | nil => exact .inl member
  | cons c s ih =>
    rw [parenEndsFrom] at member
    rcases ih member with listed | later
    · split at listed
      · rcases List.mem_cons.mp listed with rfl | listed
        · exact .inr (List.suffix_cons c s)
        · exact .inl listed
      · exact .inl listed
    · exact .inr (later.trans (List.suffix_cons c s))

end Rest

/-- Whether a text has a sign that ends a state variable. -/
def HasEnd (s : List Char) : Prop :=
  '=' ∈ s ∨ ';' ∈ s

theorem HasEnd.of_suffix {s t : List Char} (suffix : t <:+ s) (ended : HasEnd t) : HasEnd s :=
  ended.imp (fun member => suffix.subset member) fun member => suffix.subset member

private theorem hasEnd_of_endsVariable {s : List Char} (ends : endsVariable s) : HasEnd s := by
  unfold endsVariable at ends
  split at ends
  · next c rest trimmed =>
    have member : c ∈ s := (trimStart_suffix s).subset (by simp [trimmed])
    simp only [Bool.or_eq_true, beq_iff_eq] at ends
    rcases ends with rfl | rfl
    · exact .inl member
    · exact .inr member
  · cases ends

private theorem hasEnd_of_flagsAndName? {fuel : Nat} {s : List Char}
    {found : List String × List Char} (read : flagsAndName? fuel s = some found) : HasEnd s := by
  induction fuel generalizing s found with
  | zero => cases read
  | succ fuel ih =>
    have named : ∀ p, identifier? s = some p → endsVariable p.2 → HasEnd s := by
      intro p opened ends
      exact (hasEnd_of_endsVariable ends).of_suffix (suffix_of_identifier? opened)
    rw [flagsAndName?] at read
    split at read
    · split at read
      · next opened =>
        split at read
        · next ends => exact named _ opened ends
        · cases read
      · cases read
    · next opened =>
      split at read
      · next later => exact (ih later).of_suffix (suffix_of_flag? opened)
      · -- No name stands behind the flag, so it may be the name itself.
        split at read
        · next opened =>
          split at read
          · next ends => exact named _ opened ends
          · cases read
        · cases read

private theorem hasEnd_of_variableTail? {s : List Char} {found : List String × List Char}
    (read : variableTail? s = some found) :
    HasEnd s := by
  obtain ⟨rest, blanks, name⟩ := Option.bind_eq_some_iff.mp read
  exact (hasEnd_of_flagsAndName? name).of_suffix (suffix_of_afterBlanks? blanks)

private theorem hasEnd_of_mappingParts? {s : List Char}
    {found : List Char × List String × List Char}
    (read : mappingParts? s = some found) : HasEnd s := by
  simp only [mappingParts?, bind, Option.bind_eq_some_iff] at read
  obtain ⟨rest, word, inside, opened, first, -, read⟩ := read
  obtain ⟨entry, member, tail⟩ := List.exists_of_findSome?_eq_some read
  obtain ⟨found', tail, -⟩ := Option.map_eq_some_iff.mp tail
  have later : entry.2 <:+ inside.tail :=
    (suffix_of_mem_parenEndsFrom member).resolve_left List.not_mem_nil
  have inner : inside <:+ s :=
    (suffix_of_after? opened).trans ((trimStart_suffix rest).trans (suffix_of_after? word))
  exact (hasEnd_of_variableTail? tail).of_suffix
    (later.trans ((List.tail_suffix inside).trans inner))

private theorem hasEnd_of_variableParts? {s : List Char}
    {found : List Char × List String × List Char}
    (read : variableParts? s = some found) : HasEnd s := by
  unfold variableParts? at read
  split at read
  · next mapping => exact hasEnd_of_mappingParts? mapping
  · simp only [bind, Option.bind_eq_some_iff] at read
    obtain ⟨⟨type, rest⟩, plain, ⟨flags, name⟩, tail, -⟩ := read
    exact (hasEnd_of_variableTail? tail).of_suffix (suffix_of_plainType? plain)

theorem hasEnd_of_variableLine? {s : List Char} {owner : Option String} {line : Nat}
    {v : StateVariable} (declared : variableLine? s owner line = some v) : HasEnd s := by
  simp only [variableLine?, bind, Option.bind_eq_some_iff] at declared
  obtain ⟨first, -, declared⟩ := declared
  split at declared
  · cases declared
  · obtain ⟨parts, read, -⟩ := Option.bind_eq_some_iff.mp declared
    exact (hasEnd_of_variableParts? read).of_suffix (trimStart_suffix s)

end AuditPanel.Source
