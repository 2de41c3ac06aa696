import AuditPanel.Proofs.Source.QuietLines

/-!
Headers over several lines. A header reads the same where line feeds stand for some of its blanks,
as long as it keeps to the lines that one may take; but the lines that it goes on in are read by
themselves too, and may declare something.
-/

set_option autoImplicit false

namespace AuditPanel.Source

open AuditPanel.Text

/-- A line and more tokens, each behind a blank. -/
def joined (line : List Char) (inner : List (Char × List Char)) : List Char :=
  line ++ inner.flatMap fun p => p.1 :: p.2

private theorem joined_cons (line : List Char) (p : Char × List Char)
    (inner : List (Char × List Char)) :
    joined line (p :: inner) = line ++ ([p.1] ++ joined p.2 inner) := by
  simp [joined]

section Joined

variable {line : List Char} {inner : List (Char × List Char)} (blank : ∀ p ∈ inner, isBlank p.1)
include blank

private theorem spaced_joined (t : List Char) :
    spaced (joined line inner ++ ' ' :: t) =
      spaced ((line :: inner.map (·.2)).flatMap (· ++ [' ']) ++ t) := by
  induction inner generalizing line with
  | nil => simp [joined]
  | cons p inner ih =>
    obtain ⟨first, later⟩ := List.forall_mem_cons.mp blank
    have gap : spaced [p.1] = spaced [' '] := by
      rw [spaced, spaced, List.map_singleton, List.map_singleton, spaceOf_of_blank first,
        spaceOf_of_blank rfl]
    rw [joined_cons, List.map_cons, List.flatMap_cons, List.append_assoc, List.append_assoc,
      List.append_assoc, List.append_assoc, spaced_append, spaced_append, ih later,
      spaced_append line, spaced_append [' '], gap]

private theorem isLevel_joined (level : ∀ s ∈ line :: inner.map (·.2), IsLevel s) :
    IsLevel (joined line inner) := by
  induction inner generalizing line with
  | nil =>
    rw [joined, List.flatMap_nil, List.append_nil]
    exact level line List.mem_cons_self
  | cons p inner ih =>
    obtain ⟨first, later⟩ := List.forall_mem_cons.mp level
    obtain ⟨gap, blank⟩ := List.forall_mem_cons.mp blank
    rw [joined_cons]
    exact first.append ((isLevel_blank gap).append (ih blank later))

private theorem firstPosition_joined
    (none : ∀ s ∈ line :: inner.map (·.2), contains "pragma" s = false) {c : Char}
    (other : c ∉ "pragma".toList) (x : List Char) :
    firstPosition pragmaAt? (joined line inner ++ c :: x) = firstPosition pragmaAt? x := by
  induction inner generalizing line with
  | nil =>
    rw [joined, List.flatMap_nil, List.append_nil]
    exact firstPosition_pragmaAt?_append (none line List.mem_cons_self) other x
  | cons p inner ih =>
    obtain ⟨first, later⟩ := List.forall_mem_cons.mp none
    obtain ⟨gap, blank⟩ := List.forall_mem_cons.mp blank
    rw [joined_cons, List.append_assoc, List.append_assoc, List.singleton_append,
      firstPosition_pragmaAt?_append first (not_mem_pragma_of_isBlank gap), ih blank later]

end Joined

def lineFeeds : List (List Char) :=
  ["\n".toList, "\r\n".toList]

section Fed

variable {feed : List Char} (feeds : feed ∈ lineFeeds) {ls : List (List Char)}
include feeds

private theorem lines_fed (plain : ∀ s ∈ ls, '\n' ∉ s ∧ '\r' ∉ s) (t : List Char) :
    lines (ls.flatMap (· ++ feed) ++ t) = ls ++ lines t := by
  induction ls with
  | nil => rfl
  | cons s ls ih =>
    obtain ⟨⟨one, noReturn⟩, later⟩ := List.forall_mem_cons.mp plain
    have first : ∀ t, lines (s ++ (feed ++ t)) = s :: lines t := by
      intro t
      rcases List.mem_pair.mp feeds with rfl | rfl
      · have line := lines_append_cons one t
        rwa [closeLine_reverse_of_not_mem noReturn] at line
      · -- The carriage return is the last character of the line, where it is dropped.
        have line := lines_append_cons (l := s ++ ['\r']) (by simp [one]) t
        rw [List.reverse_append] at line
        simpa [closeLine] using line
    rw [List.flatMap_cons, List.append_assoc, List.append_assoc, first, ih later, List.cons_append]

private theorem firstPosition_fed (none : ∀ s ∈ ls, contains "pragma" s = false) (x : List Char) :
    firstPosition pragmaAt? (ls.flatMap (· ++ feed) ++ x) = firstPosition pragmaAt? x := by
  induction ls with
  | nil => rfl
  | cons s ls ih =>
    obtain ⟨first, later⟩ := List.forall_mem_cons.mp none
    have skip : ∀ x, firstPosition pragmaAt? (s ++ (feed ++ x)) = firstPosition pragmaAt? x := by
      intro x
      rcases List.mem_pair.mp feeds with rfl | rfl
      · exact firstPosition_pragmaAt?_append first (by decide) x
      · have behind : firstPosition pragmaAt? ('\n' :: x) = firstPosition pragmaAt? x :=
          firstPosition_pragmaAt?_append (s := []) rfl (by decide) x
        exact (firstPosition_pragmaAt?_append first (by decide) ('\n' :: x)).trans behind
    rw [List.flatMap_cons, List.append_assoc, List.append_assoc, skip, ih later]

end Fed

/-- A source with a header on one line and the blanks in it where the line is to be broken. The
header starts on the first of the tokens between them and ends behind the last one. -/
structure BrokenHeader where
  above : List Char
  line : List Char
  inner : List (Char × List Char)
  gap : Char
  feed : List Char
  last : List Char
  closing : Char
  later : List Char
  start : String × FunctionKind
  ended : IsEnded above
  started : headerStart? line = some start
  closes : endsHeader [closing]
  feeds : feed ∈ lineFeeds
  goesOn : ∀ s ∈ line :: inner.map (·.2) ++ [last], endsHeader s = false
  plain : ∀ s ∈ line :: inner.map (·.2) ++ [last], '\n' ∉ s ∧ '\r' ∉ s
  blank : ∀ p ∈ inner ++ [(gap, last)], isBlank p.1 ∧ p.1 ≠ '\n'
  level : ∀ s ∈ line :: inner.map (·.2), IsLevel s
  room : HasRoom (lines above) (inner.length + 1)
  short : inner.length + 1 < headerLines

namespace BrokenHeader

variable (h : BrokenHeader)

def oneLine : List Char :=
  joined h.line h.inner ++ h.gap :: h.last

def severalLines : List Char :=
  (h.line :: h.inner.map (·.2)).flatMap (· ++ h.feed) ++ h.last

def source : List Char :=
  h.above ++ (h.oneLine ++ h.closing :: h.later)

def brokenSource : List Char :=
  h.above ++ (h.severalLines ++ h.closing :: h.later)

def number : Nat :=
  (lines h.above).length + 1

def breaks : Nat :=
  h.inner.length + 1

/-- Where a line of the source with the header on one line stands in the other one. -/
def push (line : Nat) : Nat :=
  if h.number < line then line + h.breaks else line

def continuation : List (List Char) :=
  ((lines h.brokenSource).drop h.number).take h.breaks

/-- The function that the header on one line declares. -/
def function : FunctionDecl :=
  functionOf h.oneLine h.start.1 h.start.2 (positionAfter (lines h.above)).owner h.number

/-- Whether no line that the header goes on in declares anything where the header stands. -/
def IsQuiet : Prop :=
  ∀ s ∈ h.continuation, item? (positionAfter (lines h.above)) [s] 0 = none

private theorem closing_other : h.closing ≠ '\n' ∧ h.closing ≠ '\r' := by
  have closes := h.closes
  constructor
  · intro feed
    rw [feed] at closes
    cases closes
  · intro returns
    rw [returns] at closes
    cases closes

theorem blanks : (∀ p ∈ h.inner, isBlank p.1) ∧ isBlank h.gap :=
  ⟨fun p member => (h.blank p (List.mem_append_left _ member)).1,
    (h.blank (h.gap, h.last) (by simp)).1⟩

private theorem headerStart?_oneLine (t : List Char) :
    headerStart? (h.oneLine ++ t) = some h.start := by
  have later :=
    headerStart?_append h.started ((h.inner.flatMap fun p => p.1 :: p.2) ++ (h.gap :: h.last ++ t))
  simpa only [oneLine, joined, List.append_assoc] using later

private theorem not_mem_oneLine {c : Char} (gap : ∀ p ∈ h.inner ++ [(h.gap, h.last)], p.1 ≠ c)
    (tokens : ∀ s ∈ h.line :: h.inner.map (·.2) ++ [h.last], c ∉ s) : c ∉ h.oneLine := by
  intro member
  simp only [oneLine, joined, List.mem_append, List.mem_flatMap, List.mem_cons] at member
  rcases member with (first | ⟨p, inner, rfl | inside⟩) | rfl | last
  · exact tokens h.line (by simp) first
  · exact gap p (List.mem_append_left _ inner) rfl
  · exact tokens p.2 (by simpa using .inr (.inl ⟨p.1, inner⟩)) inside
  · exact gap (h.gap, h.last) (by simp) rfl
  · exact tokens h.last (by simp) last

private theorem endsHeader_oneLine : endsHeader h.oneLine = false := by
  have gap {c : Char} (solid : isBlank c = false) : ∀ p ∈ h.inner ++ [(h.gap, h.last)],
      p.1 ≠ c := by
    rintro p member rfl
    rw [(h.blank p member).1] at solid
    cases solid
  have tokens := fun s member => endsHeader_eq_false_iff.mp (h.goesOn s member)
  exact endsHeader_eq_false_iff.mpr
    ⟨h.not_mem_oneLine (gap (by decide)) fun s member => (tokens s member).1,
      h.not_mem_oneLine (gap (by decide)) fun s member => (tokens s member).2⟩

private theorem braceDelta_oneLine (t : List Char) :
    braceDelta (h.oneLine ++ t) = braceDelta (h.last ++ t) := by
  obtain ⟨inner, gap⟩ := h.blanks
  have level := (isLevel_joined inner h.level).append (isLevel_blank gap)
  have split : h.oneLine ++ t = (joined h.line h.inner ++ [h.gap]) ++ (h.last ++ t) := by
    simp [oneLine]
  rw [split, level.braceDelta_append]

private theorem exists_lines : ∃ more rest,
    lines h.source = lines h.above ++ (h.oneLine ++ h.closing :: more) :: rest ∧
    lines h.brokenSource =
      lines h.above ++ (h.line :: h.inner.map (·.2) ++ (h.last ++ h.closing :: more) :: rest) := by
  obtain ⟨more, rest, begun⟩ := exists_line_append h.closing_other h.later
  refine ⟨more, rest, ?_, ?_⟩
  · have one : '\n' ∉ h.oneLine :=
      h.not_mem_oneLine (fun p member => (h.blank p member).2) fun s member => (h.plain s member).1
    rw [source, lines_append h.ended, begun h.oneLine one]
  · have last := begun h.last (h.plain h.last (by simp)).1
    have inside : ∀ s ∈ h.line :: h.inner.map (·.2), '\n' ∉ s ∧ '\r' ∉ s :=
      fun s member => h.plain s (List.mem_append_left _ member)
    rw [brokenSource, lines_append h.ended, severalLines, List.append_assoc,
      lines_fed h.feeds inside, last]

private theorem spaced_headerText {count : Nat} (room : h.breaks < count) (more : List Char)
    (rest : List (List Char)) :
    spaced (headerText (((h.oneLine ++ h.closing :: more) :: rest).take count)) =
      spaced
        (headerText
          ((h.line :: h.inner.map (·.2) ++ (h.last ++ h.closing :: more) :: rest).take count)) := by
  obtain ⟨count, rfl⟩ := Nat.exists_eq_add_of_lt room
  have front : (h.line :: h.inner.map (·.2)).length = h.breaks := by simp [breaks]
  have goesOn : ∀ s ∈ h.line :: h.inner.map (·.2), endsHeader s = false :=
    fun s member => h.goesOn s (List.mem_append_left _ member)
  have last : endsHeader h.last = false := h.goesOn h.last (by simp)
  have lines : ((h.line :: h.inner.map (·.2)) ++ (h.last ++ h.closing :: more) :: rest).take
    (h.breaks + count + 1) =
      (h.line :: h.inner.map (·.2)) ++ (h.last ++ h.closing :: more) :: rest.take count := by
    rw [List.take_append, front, List.take_of_length_le (by omega), Nat.add_assoc,
      Nat.add_sub_cancel_left, List.take_succ_cons]
  have gap : spaced (joined h.line h.inner ++ h.gap :: h.last) =
      spaced (joined h.line h.inner ++ ' ' :: h.last) := by
    rw [spaced_append, spaced_append, spaced, spaced, spaced, List.map_cons, List.map_cons,
      spaceOf_of_blank h.blanks.2, spaceOf_of_blank rfl]
  -- Each line feed is read as a space, and which blank stands in its place makes no difference.
  rw [lines, headerText_goesOn goesOn, headerText_of_ends last h.closes, List.take_succ_cons,
    headerText_of_ends h.endsHeader_oneLine h.closes, oneLine, gap, spaced_joined h.blanks.1]

private theorem spaced_headerText_append {ls : List (List Char)}
    (fits : (∃ l ∈ ls, endsHeader l) ∨ ls.length + h.breaks < headerLines) (more : List Char)
    (rest : List (List Char)) :
    spaced (headerText ((ls ++ (h.oneLine ++ h.closing :: more) :: rest).take headerLines)) =
      spaced (headerText
        ((ls ++ (h.line :: h.inner.map (·.2) ++ (h.last ++ h.closing :: more) :: rest)).take
          headerLines)) := by
  by_cases ends : ∃ l ∈ ls, endsHeader l
  · rw [headerText_take_append ends, headerText_take_append ends]
  · have goesOn : ∀ l ∈ ls, endsHeader l = false := by
      intro l member
      rw [Bool.eq_false_iff]
      exact fun ended => ends ⟨l, member, ended⟩
    have room := fits.resolve_left ends
    have lines (later : List (List Char)) :
        (ls ++ later).take headerLines = ls ++ later.take (headerLines - ls.length) := by
      rw [List.take_append, List.take_of_length_le (by omega)]
    rw [lines, lines, headerText_goesOn goesOn, headerText_goesOn goesOn, spaced_append,
      spaced_append, h.spaced_headerText (by omega)]

/-- What both sources declare: the same above the header, the same function, and then what the lines
behind declare. -/
private theorem exists_items : ∃ out more rest,
    (∀ item ∈ out, item.line < h.number) ∧
    items h.source = out ++ .function h.function ::
      itemsFrom ((positionAfter (lines h.above)).past (h.oneLine ++ h.closing :: more))
        (h.number + 1) [] rest ∧
    items h.brokenSource = out ++ .function h.function :: itemsFrom (positionAfter (lines h.above))
      (h.number + 1) [] (h.inner.map (·.2) ++ (h.last ++ h.closing :: more) :: rest) ∧
    h.continuation = h.inner.map (·.2) ++ [h.last ++ h.closing :: more] := by
  obtain ⟨more, rest, lines_source, lines_broken⟩ := h.exists_lines
  have same : ∀ ls ∈ (lines h.above).tails, ∀ s ∈ ls.head?, ∀ p line,
      item? p (ls ++ (h.oneLine ++ h.closing :: more) :: rest) line =
        item? p (ls ++ (h.line :: h.inner.map (·.2) ++ (h.last ++ h.closing :: more) :: rest))
          line := by
    intro ls member s first p line
    obtain ⟨ls, rfl⟩ : ∃ ls', ls = s :: ls' := by
      cases ls with
      | nil => cases first
      | cons t ls => exact ⟨ls, by rw [Option.some.inj first]⟩
    refine item?_congr ?_ p line
    intro started
    exact h.spaced_headerText_append (h.room _ member s rfl started) more rest
  obtain ⟨out, above, front, front'⟩ := itemsFrom_above same ⟨0, none⟩ 1
  rw [Nat.add_comm 1] at above front front'
  have short : ([] : List (List Char)).length + h.breaks < headerLines := by
    rw [List.length_nil, Nat.zero_add]
    exact h.short
  have header := h.spaced_headerText_append (.inr short) more rest
  rw [List.nil_append, List.nil_append, List.cons_append] at header
  have ended : headerText (((h.oneLine ++ h.closing :: more) :: rest).take headerLines) =
      h.oneLine :=
    headerText_of_ends h.endsHeader_oneLine h.closes more _
  rw [ended] at header
  refine ⟨out, more, rest, above, ?_, ?_, ?_⟩
  · rw [items, lines_source, front, itemsFrom_cons,
      item?_of_headerStart? (h.headerStart?_oneLine _), ended]
    rfl
  · have plain := contractLine?_of_headerStart? (Option.isSome_of_eq_some h.started) 0
    have stays :=
      Position.past_level plain (h.level h.line List.mem_cons_self).balanced
        (positionAfter (lines h.above))
    rw [items, lines_broken, front', List.cons_append, itemsFrom_cons,
      item?_of_headerStart? h.started, ← positionAfter, stays, ← functionOf_spaced, ← header,
      functionOf_spaced]
    rfl
  · have behind :
        (lines h.above ++
          (h.line :: h.inner.map (·.2) ++ (h.last ++ h.closing :: more) :: rest)).drop h.number =
          h.inner.map (·.2) ++ [h.last ++ h.closing :: more] ++ rest := by
      rw [number, ← List.drop_drop, List.drop_left]
      simp
    rw [continuation, lines_broken, behind, List.take_left' (by simp [breaks])]

private theorem push_of_le {line : Nat} (low : line ≤ h.number) : h.push line = line :=
  if_neg (Nat.not_lt.mpr low)

private theorem push_of_lt {line : Nat} (high : h.number < line) : h.push line = line + h.breaks :=
  if_pos high

private theorem items_of_isQuiet (quiet : h.IsQuiet) :
    items h.brokenSource = (items h.source).map (Item.moved h.push) := by
  obtain ⟨out, more, rest, above, one, several, lines⟩ := h.exists_items
  rw [IsQuiet, lines] at quiet
  obtain ⟨inner, last⟩ := List.forall_mem_append.mp quiet
  have silent := last _ List.mem_cons_self
  have balanced : ∀ s ∈ h.inner.map (·.2), braceDelta s = 0 :=
    fun s member => (h.level s (List.mem_cons_of_mem _ member)).balanced
  have stays : (positionAfter (Text.lines h.above)).past (h.last ++ h.closing :: more) =
      (positionAfter (Text.lines h.above)).past (h.oneLine ++ h.closing :: more) := by
    refine Position.past_eq (contractLine?_of_item? silent) ?_ ?_ _
    · exact contractLine?_of_headerStart? (Option.isSome_of_eq_some (h.headerStart?_oneLine _)) 0
    · exact (h.braceDelta_oneLine _).symm
  have front : out.map (Item.moved h.push) = out := by
    have still : ∀ item ∈ out, item.moved h.push = item :=
      fun item member => Item.moved_eq_self (h.push_of_le (Nat.le_of_lt (above item member)))
    rw [List.map_congr_left still, List.map_id']
  have here : (Item.function h.function).moved h.push = .function h.function :=
    Item.moved_eq_self (h.push_of_le (Nat.le_refl h.number))
  rw [several, one, itemsFrom_quiet balanced inner, itemsFrom_cons,
    (item?_eq_none_iff _ _ _ _).mpr silent, stays, List.map_append, List.map_cons, front, here]
  have behind :
    ∀ item ∈ itemsFrom ((positionAfter (Text.lines h.above)).past (h.oneLine ++ h.closing :: more))
      (h.number + 1) [] rest, item.moved h.push = item.down h.breaks := by
    intro item member
    exact Item.moved_eq_down (h.push_of_lt (le_line_of_mem_itemsFrom member))
  have count : h.number + 1 + (h.inner.map (·.2)).length + 1 = h.number + 1 + h.breaks := by
    rw [List.length_map, breaks, Nat.add_assoc]
  rw [List.map_congr_left behind, ← itemsFrom_down, count]
  rfl

private theorem isQuiet_of_extract
    (same : extract h.brokenSource = (extract h.source).moved h.push) : h.IsQuiet := by
  obtain ⟨out, more, rest, above, one, several, lines⟩ := h.exists_items
  by_contra loud
  have declares : ∃ s ∈ h.inner.map (·.2) ++ [h.last ++ h.closing :: more],
      item? (positionAfter (Text.lines h.above)) [s] 0 ≠ none := by
    rw [IsQuiet, lines] at loud
    simpa using loud
  have balanced : ∀ s ∈ h.inner.map (·.2), braceDelta s = 0 :=
    fun s member => (h.level s (List.mem_cons_of_mem _ member)).balanced
  obtain ⟨item, member, below⟩ := exists_mem_itemsFrom balanced declares (h.number + 1) rest
  have number := le_line_of_mem_itemsFrom member
  have listed :=
    line_mem_lineNumbers (several ▸ List.mem_append_right out (List.mem_cons_of_mem _ member))
  rw [same, Declarations.lineNumbers_moved] at listed
  -- No line of the source moves to where the header goes on.
  obtain ⟨line, -, pushed⟩ := List.mem_map.mp listed
  rw [List.length_map] at below
  rw [push, breaks] at pushed
  split at pushed <;> omega

/-- Whether every version requirement that the source starts above the header ends there, and none
starts in it. -/
def PragmasEnd : Prop :=
  (∀ s ∈ h.above.tails, ∀ rest ∈ after? "pragma" s, ';' ∈ rest) ∧
    ∀ s ∈ h.line :: h.inner.map (·.2) ++ [h.last], contains "pragma" s = false

private theorem pragma?_of_pragmasEnd (end_ : h.PragmasEnd) :
    pragma? h.brokenSource = pragma? h.source := by
  obtain ⟨above, none⟩ := end_
  obtain ⟨inner, last⟩ := List.forall_mem_append.mp none
  have closing : h.closing ∉ "pragma".toList := by
    intro member
    have letters : "pragma".toList.any (fun c => endsHeader [c]) = false := by decide
    exact List.any_eq_false.mp letters _ member h.closes
  have behind : firstPosition pragmaAt? (h.last ++ h.closing :: h.later) =
      firstPosition pragmaAt? h.later :=
    firstPosition_pragmaAt?_append (last h.last List.mem_cons_self) closing h.later
  have one : firstPosition pragmaAt? (h.oneLine ++ h.closing :: h.later) =
      firstPosition pragmaAt? h.later := by
    rw [oneLine, List.append_assoc, List.cons_append,
      firstPosition_joined h.blanks.1 inner (not_mem_pragma_of_isBlank h.blanks.2), behind]
  have several : firstPosition pragmaAt? (h.severalLines ++ h.closing :: h.later) =
      firstPosition pragmaAt? h.later := by
    rw [severalLines, List.append_assoc, firstPosition_fed h.feeds inner, behind]
  rw [pragma?, pragma?, brokenSource, source, firstPosition_pragmaAt?_congr h.ended above
    (several.trans one.symm)]

end BrokenHeader

/-- A header that keeps to the lines it may take declares the same function over several lines as on
one. All else stays the same too, further down behind the header, exactly if the version requirement
does and no line that the header goes on in declares anything by itself. -/
theorem extract_broken (h : BrokenHeader) :
    (extract h.source).functions.filter (·.line = h.number) = [h.function] ∧
    (extract h.brokenSource).functions.filter (·.line = h.number) = [h.function] ∧
    (extract h.brokenSource = (extract h.source).moved h.push ↔
      (extract h.brokenSource).pragma = (extract h.source).pragma ∧ h.IsQuiet) ∧
    (h.PragmasEnd → (∀ s ∈ h.continuation, isInert s) →
      extract h.brokenSource = (extract h.source).moved h.push) := by
  obtain ⟨out, more, rest, above, one, several, -⟩ := h.exists_items
  have moved (pragma : pragma? h.brokenSource = pragma? h.source) (quiet : h.IsQuiet) :
      extract h.brokenSource = (extract h.source).moved h.push :=
        extract_moved (h.items_of_isQuiet quiet) pragma
  refine ⟨?_, ?_, ⟨?_, ?_⟩, ?_⟩
  · rw [functions_filter, one, filter_line above rfl]
    rfl
  · rw [functions_filter, several, filter_line above rfl]
    rfl
  · intro same
    refine ⟨?_, h.isQuiet_of_extract same⟩
    rw [same]
    rfl
  · rintro ⟨pragma, quiet⟩
    exact moved pragma quiet
  · intro end_ inert
    refine moved (h.pragma?_of_pragmasEnd end_) ?_
    intro s member
    exact item?_of_isInert (inert s member) _

/-- A header in three lines that goes on in its parameters and in its attributes. -/
def threeLines : BrokenHeader where
  above := "pragma solidity ^0.8.0;\ncontract A \x7b\n".toList
  line := " function f(address a,".toList
  inner := [(' ', "uint256 b)".toList)]
  gap := '\t'
  feed := "\r\n".toList
  last := "external onlyOwner(\"\x7d\") ".toList
  closing := '\x7b'
  later := "\n\x7d\nuint256 c;\n\x7d\n".toList
  start := ("f", .function)
  ended := .inr (by decide)
  started := by decide
  closes := rfl
  feeds := by decide
  goesOn := by decide
  plain := by decide
  blank := by decide
  level := by decide
  room := by decide
  short := by decide

theorem extract_broken_threeLines :
    threeLines.PragmasEnd ∧ (∀ s ∈ threeLines.continuation, isInert s) ∧
      threeLines.function = ⟨"f", .function, some "A", .externally, .nonpayable,
        [⟨"address", some "a"⟩, ⟨"uint256", some "b"⟩], ["onlyOwner"], 3⟩ ∧
      (extract threeLines.source).stateVariables.map (·.line) = [5] ∧
      (extract threeLines.brokenSource).stateVariables.map (·.line) = [7] ∧
      extract threeLines.brokenSource = (extract threeLines.source).moved threeLines.push := by
  have ends : threeLines.PragmasEnd := by
    constructor
    · decide
    · decide
  have inert : ∀ s ∈ threeLines.continuation, isInert s := by decide
  exact ⟨ends, inert, by decide +kernel, by decide +kernel, by decide +kernel,
    (extract_broken threeLines).2.2.2 ends inert⟩

/-- A header in two lines whose second one has attributes only. -/
def twoLines : BrokenHeader where
  above := "interface I \x7b\n".toList
  line := "function f()".toList
  inner := []
  gap := ' '
  feed := "\n".toList
  last := "external view".toList
  closing := ';'
  later := "\n\x7d\n".toList
  start := ("f", .function)
  ended := .inr (by decide)
  started := by decide
  closes := rfl
  feeds := by decide
  goesOn := by decide
  plain := by decide
  blank := by decide
  level := by decide
  room := by decide
  short := by decide

/-- A header with as many blanks in its parameter list as a header may take lines. -/
def spread (blank : Char) : List Char :=
  "interface I \x7b\nfunction f(".toList ++
    (List.replicate headerLines blank ++ ") external view;\n\x7d\n".toList)

/-- Attributes on a line of their own are a state variable too, and a header over too many lines
loses its end. -/
theorem not_moved_twoLines :
    (extract twoLines.source).stateVariables = [] ∧
      (extract twoLines.brokenSource).stateVariables =
        [⟨"external", "view", some "I", .internally, false, false, 3⟩] ∧
      extract twoLines.brokenSource ≠ (extract twoLines.source).moved twoLines.push ∧
      (extract (spread ' ')).functions =
        [⟨"f", .function, some "I", .externally, .view, [], [], 2⟩] ∧
      (extract (spread '\n')).functions =
        [⟨"f", .function, some "I", .publicly, .nonpayable, [], [], 2⟩] := by
  decide +kernel

end AuditPanel.Source
