import AuditPanel.Chain.Explorer
import AuditPanel.Proofs.Json.Keyed
import AuditPanel.Proofs.Text.Words

/-!
Sources of explorers. Wrapping an object in one more pair of braces changes nothing if the strict
reader accepts it, and of the files in it none with a content is lost: each one stands under its
path, in the order of the paths.
-/

set_option autoImplicit false

namespace AuditPanel.Explorer

open AuditPanel.Text

def wrapped (s : List Char) : List Char :=
  '\x7b' :: s ++ ['\x7d']

/-- A text that starts and ends with a brace. -/
structure IsBraced (s : List Char) : Prop where
  opens : s.head? = some '\x7b'
  closes : s.getLast? = some '\x7d'

private theorem isBraced_wrapped (s : List Char) : IsBraced (wrapped s) :=
  ⟨rfl, List.getLast?_concat⟩

theorem IsBraced.trim_eq {s : List Char} (braced : IsBraced s) : trim s = s := by
  apply trim_of_solid_ends
  · rw [braced.opens]
    rintro c ⟨⟩
    decide
  · rw [braced.closes]
    rintro c ⟨⟩
    decide

private theorem unwrapped_wrapped {s : List Char} (braced : IsBraced s) :
    unwrapped (wrapped s) = s := by
  obtain ⟨rest, opened⟩ := List.head?_eq_some_iff.mp braced.opens
  obtain ⟨front, closed⟩ := List.getLast?_eq_some_iff.mp braced.closes
  have two : (wrapped s).take 2 = ['\x7b', '\x7b'] := by
    rw [opened]
    rfl
  have two' : (wrapped s).reverse.take 2 = ['\x7d', '\x7d'] := by
    rw [closed]
    simp [wrapped]
  rw [unwrapped, if_pos ⟨two, two'⟩]
  exact List.dropLast_concat

private theorem read?_two_braces (s : List Char) : Json.read? ('\x7b' :: '\x7b' :: s) = none := by
  simp [Json.read?, Json.readWithin, Json.defaultDepth, Json.readValue, Json.readMembers,
    Json.skipSpace, Json.isSpace]

private theorem unwrapped_of_read? {s : List Char} {v : Json} (read : Json.read? s = some v) :
    unwrapped s = s := by
  apply if_neg
  rintro ⟨two, -⟩
  have opened := List.take_append_drop 2 s
  rw [two] at opened
  rw [← opened, List.cons_append, List.cons_append, read?_two_braces] at read
  contradiction

private theorem unwrapped_of_head? {s : List Char} (other : s.head? ≠ some '\x7b') :
    unwrapped s = s := by
  apply if_neg
  rintro ⟨two, -⟩
  have opened := List.take_append_drop 2 s
  rw [two] at opened
  exact other (by rw [← opened]; rfl)

section Outcomes

variable {raw : List Char} {members : List (String × Json)}

private theorem source?_of_object (opens : (unwrapped (trim raw)).head? = some '\x7b')
    (read : Json.read? (unwrapped (trim raw)) = some (.object members)) :
    source? raw = filesText? members := by
  have nonempty : (trim raw).isEmpty = false := by
    by_contra empty
    rw [Bool.not_eq_false, List.isEmpty_iff] at empty
    rw [empty] at opens
    contradiction
  simp [source?, nonempty, opens, read]

private theorem source?_of_not_object (nonempty : trim raw ≠ [])
    (other : (unwrapped (trim raw)).head? = some '\x7b' →
      ∀ members, Json.read? (unwrapped (trim raw)) ≠ some (.object members)) :
    source? raw = some (String.ofList (trim raw)) := by
  rw [source?]
  dsimp only
  rw [if_neg (by simpa using nonempty)]
  split
  · rename_i members read
    split at read
    · rename_i opens
      exact absurd read (other opens members)
    · contradiction
  · rfl

end Outcomes

/-- A file with its path; none if the entry has no content. -/
def file? (entry : String × Json) : Option (String × String) :=
  ((entry.2.get? "content").bind Json.asString?).map (entry.1, ·)

private theorem file?_eq_some_iff {entry : String × Json} {path text : String} :
    file? entry = some (path, text) ↔ entry.1 = path ∧
      entry.2.get? "content" = some (.string text) := by
  rw [file?, Option.map_eq_some_iff]
  constructor
  · rintro ⟨content, found, same⟩
    obtain ⟨value, got, isText⟩ := Option.bind_eq_some_iff.mp found
    obtain ⟨rfl, rfl⟩ := Prod.mk.inj same
    cases value with
    | string s => exact ⟨rfl, by rw [got, ← Option.some.inj isText]⟩
    | _ => contradiction
  · rintro ⟨rfl, got⟩
    exact ⟨text, by rw [got]; rfl, rfl⟩

def banner (file : String × String) : String :=
  "// File: " ++ file.1 ++ "\n" ++ file.2

/-- Files with an empty line between two; none without any. -/
def listing (files : List (String × String)) : Option String :=
  if files = [] then none else some ("\n\n".intercalate (files.map banner))

private theorem filesText?_eq (members : List (String × Json)) :
    filesText? members = listing ((entries members).filterMap file?) := by
  have texts : (entries members).filterMap fileText? = ((entries members).filterMap file?).map
      banner := by
    rw [List.map_filterMap]
    apply List.filterMap_congr
    intro entry _
    rw [fileText?, file?, Option.map_map]
    rfl
  rw [filesText?, texts, listing]
  cases (entries members).filterMap file? <;> rfl

private theorem head?_of_listing {files : List (String × String)} {s : String}
    (listed : listing files = some s) :
    s.toList.head? = some '/' := by
  cases files with
  | nil => contradiction
  | cons file rest =>
    rw [listing, if_neg (List.cons_ne_nil file rest)] at listed
    obtain rfl := Option.some.inj listed
    rw [String.toList_intercalate, List.map_map, List.map_cons, List.intercalate]
    cases rest with
    | nil => simp [banner]
    | cons next rest => simp [banner]

/-- An object gives files by their paths itself, if none has the path of the sources, or as its
sources. -/
def Gives (members files : List (String × Json)) : Prop :=
  (members = files ∧ ∀ entry, ("sources", entry) ∉ files) ∨ ("sources", .object files) ∈ members

private theorem entries_eq {members files : List (String × Json)}
    (keyed : Json.IsKeyed (.object members))
    (gives : Gives members files) : entries members = files := by
  rcases gives with ⟨rfl, absent⟩ | under
  · have none : Json.member? "sources" members = none := by
      rw [Option.eq_none_iff_forall_ne_some]
      intro entry found
      exact absent entry ((Json.member?_eq_some_iff keyed.nodup).mp found)
    rw [entries, none]
  · rw [entries, (Json.member?_eq_some_iff keyed.nodup).mpr under]

private theorem isSorted_files {members files : List (String × Json)}
    (keyed : Json.IsKeyed (.object members))
    (gives : Gives members files) : Json.IsSorted files := by
  have sorted_of_keyed {files : List (String × Json)} (keyed : Json.IsKeyed (.object files)) :
      Json.IsSorted files := by
    cases keyed with
    | object sorted => exact sorted
  rcases gives with ⟨rfl, -⟩ | under
  · exact sorted_of_keyed keyed
  · exact sorted_of_keyed (keyed.of_member? ((Json.member?_eq_some_iff keyed.nodup).mpr under))

private theorem pairwise_files {files : List (String × Json)} (sorted : Json.IsSorted files) :
    (files.filterMap file?).Pairwise fun a b => a.1 < b.1 := by
  apply sorted.filterMap
  rintro entry entry' below ⟨path, text⟩ found ⟨path', text'⟩ found'
  obtain ⟨rfl, -⟩ := file?_eq_some_iff.mp found
  obtain ⟨rfl, -⟩ := file?_eq_some_iff.mp found'
  exact below

private theorem mem_files_iff {files : List (String × Json)} {path text : String} :
    (path, text) ∈ files.filterMap file? ↔
      ∃ entry, (path, entry) ∈ files ∧ entry.get? "content" = some (.string text) := by
  rw [List.mem_filterMap]
  constructor
  · rintro ⟨⟨_, entry⟩, member, found⟩
    obtain ⟨rfl, got⟩ := file?_eq_some_iff.mp found
    exact ⟨entry, member, got⟩
  · rintro ⟨entry, member, got⟩
    exact ⟨(path, entry), member, file?_eq_some_iff.mpr ⟨rfl, got⟩⟩

private theorem source?_wrapped {raw s : List Char} {members : List (String × Json)}
    (braced : IsBraced s)
    (read : Json.read? s = some (.object members)) (given : trim raw = s ∨ trim raw = wrapped s) :
    source? raw = filesText? members := by
  have same : unwrapped (trim raw) = s := by
    rcases given with plain | wrapped
    · rw [plain, unwrapped_of_read? read]
    · rw [wrapped, unwrapped_wrapped braced]
  exact source?_of_object (same ▸ braced.opens) (same ▸ read)

private theorem source?_wrapped_ne {s : List Char} (braced : IsBraced s)
    (other : ∀ members, Json.read? s ≠ some (.object members)) :
    source? (wrapped s) ≠ source? s := by
  have outer : source? (wrapped s) = some (String.ofList (wrapped s)) := by
    have trimmed := (isBraced_wrapped s).trim_eq
    rw [source?_of_not_object, trimmed]
    · rw [trimmed]
      exact List.cons_ne_nil _ _
    · intro _
      rwa [trimmed, unwrapped_wrapped braced]
  rw [outer]
  intro same
  by_cases deeper : (unwrapped s).head? = some '\x7b' ∧ ∃ members, Json.read? (unwrapped s) =
    some (.object members)
  · obtain ⟨opens, members, read⟩ := deeper
    rw [source?_of_object (braced.trim_eq.symm ▸ opens) (braced.trim_eq.symm ▸ read), filesText?_eq]
      at same
    have first := head?_of_listing same.symm
    rw [String.toList_ofList] at first
    exact absurd (Option.some.inj first) (by decide)
  · rw [source?_of_not_object, braced.trim_eq] at same
    · have size := congrArg List.length (String.ofList_injective (Option.some.inj same))
      simp only [wrapped, List.length_append, List.length_cons, List.length_nil] at size
      omega
    · rw [braced.trim_eq]
      rintro rfl
      exact absurd braced.opens (by simp)
    · rw [braced.trim_eq]
      intro opens members read
      exact deeper ⟨opens, members, read⟩

/-- One more pair of braces around an object changes nothing exactly if the strict reader accepts
the object. The source of an accepted object is then each of its files that has a content, once,
behind its path and in the order of the paths; a text that starts with no brace is the source
itself. -/
theorem source?_files :
    (∀ s, IsBraced s →
      (source? (wrapped s) = source? s ↔ ∃ members, Json.read? s = some (.object members))) ∧
    (∀ raw s members files, IsBraced s → Json.read? s = some (.object members) →
      Gives members files → (trim raw = s ∨ trim raw = wrapped s) →
      ∃ contents : List (String × String), (contents.Pairwise fun a b => a.1 < b.1) ∧
        (∀ path text, (path, text) ∈ contents ↔
          ∃ entry, (path, entry) ∈ files ∧ entry.get? "content" = some (.string text)) ∧
        source? raw = listing contents) ∧
    ∀ raw, trim raw ≠ [] → (trim raw).head? ≠ some '\x7b' →
      source? raw = some (String.ofList (trim raw)) := by
  refine ⟨?_, ?_, ?_⟩
  · intro s braced
    constructor
    · intro same
      by_contra! other
      exact source?_wrapped_ne braced other same
    · rintro ⟨members, read⟩
      rw [source?_wrapped braced read (.inr (isBraced_wrapped s).trim_eq),
        source?_wrapped braced read (.inl braced.trim_eq)]
  · intro raw s members files braced read gives given
    have keyed := Json.isKeyed_read? read
    refine ⟨files.filterMap file?, pairwise_files (isSorted_files keyed gives), fun _ _ =>
      mem_files_iff, ?_⟩
    rw [source?_wrapped braced read given, filesText?_eq, entries_eq keyed gives]
  · intro raw nonempty other
    apply source?_of_not_object nonempty
    rw [unwrapped_of_head? other]
    exact fun opens => absurd opens other

/-- Two files and an entry without a content, as sources of a wrapped object. -/
theorem source?_files_two :
    let text := ("\x7b\"sources\":\x7b\"a\":\x7b\"content\":\"A\"\x7d,\"b\":0,\"c\":"
      ++ "\x7b\"content\":\"// \x7b\x7b\"\x7d\x7d\x7d").toList
    let files : List (String × Json) :=
      [("a", .object [("content", .string "A")]), ("b", .integer 0),
        ("c", .object [("content", .string "// \x7b\x7b")])]
    IsBraced text ∧ Json.read? text = some (.object [("sources", .object files)]) ∧
      Gives [("sources", .object files)] files ∧ trim (wrapped text) = wrapped text ∧
      ∃ contents, (contents.Pairwise fun a b => a.1 < b.1) ∧ ("c", "// \x7b\x7b") ∈ contents ∧
        source? (wrapped text) = listing contents := by
  intro text files
  have braced : IsBraced text := ⟨by decide, by decide⟩
  have read : Json.read? text = some (.object [("sources", .object files)]) := by
    have sorted : Json.IsSorted files := by
      unfold Json.IsSorted
      simp only [files, List.pairwise_cons]
      decide
    rw [← Json.ofMembers_of_isSorted sorted]
    with_unfolding_all rfl
  have gives : Gives [("sources", .object files)] files := .inr List.mem_cons_self
  have trimmed := (isBraced_wrapped text).trim_eq
  obtain ⟨contents, sorted, members, listed⟩ :=
    source?_files.2.1 _ text _ files braced read gives (.inr trimmed)
  have last : ("c", "// \x7b\x7b") ∈ contents :=
    (members "c" "// \x7b\x7b").mpr ⟨_, List.mem_of_getLast? rfl, rfl⟩
  exact ⟨braced, read, gives, trimmed, contents, sorted, last, listed⟩

/-- A number beyond the range of doubles is refused, and the text of its object is taken for the
source. -/
theorem source?_refused :
    let text := ("\x7b\"sources\":\x7b\"A.sol\":\x7b\"content\":\"contract A \x7b\x7d\"\x7d\x7d,"
      ++ "\"settings\":\x7b\"runs\":1e400\x7d\x7d").toList
    IsBraced text ∧ source? text = some (String.ofList text) ∧
      source? (wrapped text) = some (String.ofList (wrapped text)) ∧
        source? (wrapped text) ≠ source? text ∧
      source? text ≠ listing [("A.sol", "contract A \x7b\x7d")] := by
  intro text
  exact ⟨⟨by decide, by decide⟩, by decide⟩

end AuditPanel.Explorer
