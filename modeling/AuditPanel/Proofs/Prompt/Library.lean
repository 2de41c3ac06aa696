import AuditPanel.Prompt.Library
import AuditPanel.Proofs.Text.Search
import AuditPanel.Proofs.Text.Segments
import Mathlib.Logic.Relation

/-!
Including templates. A template loads exactly if every file that it reaches by includes is there and
no chain of includes is longer than the levels allowed, and then it is the text with each directive
replaced by what its target expands to.
-/

set_option autoImplicit false

namespace AuditPanel.Prompt

open AuditPanel.Text Relation

def directive (target : List Char) : List Char :=
  "@include(".toList ++ target ++ [')']

/-- The targets that a directive may name. -/
def IsTarget (target : List Char) : Prop :=
  target ≠ [] ∧ ')' ∉ target

private theorem directive_append (target rest : List Char) :
    directive target ++ rest = "@include(".toList ++ (target ++ ')' :: rest) := by
  unfold directive
  rw [List.append_assoc, List.append_assoc, List.singleton_append]

private theorem length_directive (target : List Char) :
    (directive target).length = target.length + "@include()".length := by
  unfold directive
  rw [List.length_append, List.length_append, Nat.add_comm _ target.length]
  rfl

private theorem includeAt?_eq_some_iff {s target : List Char} {length : Nat} :
    includeAt? s = some (target, length) ↔
      IsTarget target ∧ directive target <+: s ∧ length = (directive target).length := by
  rw [length_directive]
  constructor
  · intro found
    unfold includeAt? at found
    split at found
    · contradiction
    · rename_i inner opened
      split at found
      · contradiction
      · rename_i inside behind closed
        split at found
        · contradiction
        · rename_i some_
          obtain ⟨rfl, rfl⟩ := Prod.mk.inj (Option.some.inj found)
          obtain ⟨none, rfl⟩ := splitAtChar?_eq_some_iff.mp closed
          refine ⟨⟨by simpa using some_, none⟩, ⟨behind, ?_⟩, rfl⟩
          rw [directive_append, after?_eq_some_iff.mp opened]
  · rintro ⟨⟨some_, none⟩, ⟨behind, rfl⟩, rfl⟩
    have opened : after? "@include(" (directive target ++ behind) =
        some (target ++ ')' :: behind) :=
      after?_eq_some_iff.mpr (directive_append target behind)
    have filled : target.isEmpty = false := List.isEmpty_eq_false_iff.mpr some_
    unfold includeAt?
    simp only [opened, splitAtChar?_eq_some_iff.mpr ⟨none, rfl⟩, filled]
    rfl

private theorem reads_directive : Reads includeAt? directive IsTarget where
  found_iff _ _ _ := includeAt?_eq_some_iff
  nonempty _ _ := List.append_ne_nil_of_right_ne_nil _ (List.cons_ne_nil ')' [])

/-- The file at a path includes the one at another. -/
def Includes (files : Directory) (path included : List Char) : Prop :=
  ∃ content target, files.read? path = some content ∧ .mark target ∈ includeParts content.toList ∧
    trim target = included

/-- Every file reached from a path by includes is there, and no chain of includes from it is longer
than the levels. -/
structure IsLoadable (files : Directory) (levels : Nat) (path : List Char) : Prop where
  present : ∀ other, ReflTransGen (Includes files) path other → (files.read? other).isSome
  short : ∀ chain, List.IsChain (Includes files) (path :: chain) → chain.length ≤ levels

/-- The includes of a text are loadable with a level less. -/
def IncludesLoadable (files : Directory) (levels : Nat) (content : List Char) : Prop :=
  ∀ target, .mark target ∈ includeParts content → ∃ fewer, levels = fewer + 1 ∧
    IsLoadable files fewer (trim target)

private theorem isLoadable_iff {files : Directory} {levels : Nat} {path : List Char} :
    IsLoadable files levels path ↔
      ∃ content, files.read? path = some content ∧
        IncludesLoadable files levels content.toList := by
  constructor
  · rintro ⟨present, short⟩
    obtain ⟨content, read⟩ := Option.isSome_iff_exists.mp (present path .refl)
    refine ⟨content, read, ?_⟩
    intro target member
    have step : Includes files path (trim target) := ⟨content, target, read, member, rfl⟩
    have one : 1 ≤ levels := short [trim target] (List.isChain_cons_cons.mpr ⟨step, .singleton _⟩)
    obtain ⟨fewer, rfl⟩ := Nat.exists_eq_add_of_le' one
    refine ⟨fewer, rfl, fun other reached => present other (.head step reached), ?_⟩
    intro chain linked
    exact Nat.le_of_succ_le_succ
      (short (trim target :: chain) (List.isChain_cons_cons.mpr ⟨step, linked⟩))
  · rintro ⟨content, read, loadable⟩
    constructor
    · intro other reached
      cases reached.cases_head with
      | inl same => exact same ▸ Option.isSome_of_eq_some read
      | inr first =>
        obtain ⟨_, ⟨content', target, read', member, rfl⟩, reached⟩ := first
        obtain rfl : content' = content := Option.some.inj (read'.symm.trans read)
        obtain ⟨fewer, -, present, -⟩ := loadable target member
        exact present other reached
    · intro chain linked
      cases chain with
      | nil => exact Nat.zero_le _
      | cons included chain =>
        obtain ⟨⟨content', target, read', member, rfl⟩, linked⟩ := List.isChain_cons_cons.mp linked
        obtain rfl : content' = content := Option.some.inj (read'.symm.trans read)
        obtain ⟨fewer, rfl, -, short⟩ := loadable target member
        exact Nat.succ_le_succ (short chain linked)

private theorem exists_includes_of_cycle {files : Directory} {path other : List Char}
    (reached : ReflTransGen (Includes files) path other)
    (cycle : TransGen (Includes files) other other) :
    ∃ next, Includes files path next ∧
      ∃ other, ReflTransGen (Includes files) next other ∧
        TransGen (Includes files) other other := by
  rcases reached.cases_head with rfl | ⟨next, step, reached⟩
  · obtain ⟨next, step, back⟩ := TransGen.head'_iff.mp cycle
    exact ⟨next, step, next, .refl, .tail' back step⟩
  · exact ⟨next, step, other, reached, cycle⟩

private theorem exists_chain_of_cycle {files : Directory} (count : Nat) {path other : List Char}
    (reached : ReflTransGen (Includes files) path other)
    (cycle : TransGen (Includes files) other other) :
    ∃ chain, List.IsChain (Includes files) (path :: chain) ∧ chain.length = count := by
  induction count generalizing path other with
  | zero => exact ⟨[], .singleton path, rfl⟩
  | succ count ih =>
    obtain ⟨next, step, other, reached, cycle⟩ := exists_includes_of_cycle reached cycle
    obtain ⟨chain, linked, rfl⟩ := ih reached cycle
    exact ⟨next :: chain, List.isChain_cons_cons.mpr ⟨step, linked⟩, rfl⟩

private theorem not_isLoadable_of_cycle {files : Directory} {levels : Nat} {path other : List Char}
    (reached : ReflTransGen (Includes files) path other)
    (cycle : TransGen (Includes files) other other) :
    ¬ IsLoadable files levels path := by
  intro loadable
  obtain ⟨chain, linked, long⟩ := exists_chain_of_cycle (levels + 1) reached cycle
  have bound := loadable.short chain linked
  omega

/-- What pieces of a template expand to: literal text stays, and a directive becomes what the file
that it targets expands to. -/
inductive Expands (files : Directory) : List (Segment (List Char)) → List Char → Prop where
  | nil : Expands files [] []
  | literal {text out : List Char} {pieces : List (Segment (List Char))} :
    Expands files pieces out → Expands files (.literal text :: pieces) (text ++ out)
  | mark {target included out : List Char} {content : String}
      {pieces : List (Segment (List Char))} :
    files.read? (trim target) = some content →
      Expands files (includeParts content.toList) included →
      Expands files pieces out → Expands files (.mark target :: pieces) (included ++ out)

/-- What the file at a path expands to. -/
def ExpandsFile (files : Directory) (path text : List Char) : Prop :=
  ∃ content, files.read? path = some content ∧ Expands files (includeParts content.toList) text

section Pieces

variable {files : Directory} {expand : List Char → Except Failure (List Char)}
  {pieces : List (Segment (List Char))} {front target text : List Char} {e : Failure}

private theorem expandParts_literal_ok_iff :
    expandParts expand (.literal front :: pieces) = .ok text ↔
      ∃ out, expandParts expand pieces = .ok out ∧ front ++ out = text := by
  rw [expandParts]
  cases expandParts expand pieces <;> simp [Except.map]

private theorem expandParts_literal_error_iff :
    expandParts expand (.literal front :: pieces) = .error e ↔ expandParts expand pieces =
      .error e := by
  rw [expandParts]
  cases expandParts expand pieces <;> simp [Except.map]

private theorem expandParts_mark_ok_iff :
    expandParts expand (.mark target :: pieces) = .ok text ↔
      ∃ included out, expand target = .ok included ∧ expandParts expand pieces = .ok out ∧
        included ++ out = text := by
  rw [expandParts]
  cases expand target <;> cases expandParts expand pieces <;> simp [bind, Except.bind]

private theorem expandParts_mark_error_iff :
    expandParts expand (.mark target :: pieces) = .error e ↔
      expand target = .error e ∨ (∃ included, expand target = .ok included) ∧
        expandParts expand pieces = .error e := by
  rw [expandParts]
  cases expand target <;> cases expandParts expand pieces <;> simp [bind, Except.bind]

private theorem expands_literal_iff :
    Expands files (.literal front :: pieces) text ↔ ∃ out, Expands files pieces out ∧
      front ++ out = text := by
  constructor
  · rintro ⟨⟩
    exact ⟨_, ‹_›, rfl⟩
  · rintro ⟨out, expands, rfl⟩
    exact .literal expands

private theorem expands_mark_iff :
    Expands files (.mark target :: pieces) text ↔
      ∃ included out, ExpandsFile files (trim target) included ∧ Expands files pieces out ∧
        included ++ out = text := by
  constructor
  · rintro ⟨⟩
    exact ⟨_, _, ⟨_, ‹_›, ‹_›⟩, ‹_›, rfl⟩
  · rintro ⟨included, out, ⟨content, read, inside⟩, expands, rfl⟩
    exact .mark read inside expands

/-- If a target expands to what its file expands to, as long as it is valid, then so do pieces with
valid targets. -/
private theorem expandParts_eq_ok_iff {valid : List Char → Prop}
    (spec : ∀ target text, expand target = .ok text ↔ valid (trim target) ∧
      ExpandsFile files (trim target) text) :
    expandParts expand pieces = .ok text ↔
      (∀ target, .mark target ∈ pieces → valid (trim target)) ∧ Expands files pieces text := by
  induction pieces generalizing text with
  | nil =>
    constructor
    · rintro ⟨⟩
      exact ⟨fun _ member => absurd member List.not_mem_nil, .nil⟩
    · rintro ⟨-, ⟨⟩⟩
      rfl
  | cons piece pieces ih =>
    cases piece with
    | literal front =>
      rw [expandParts_literal_ok_iff, expands_literal_iff]
      simp only [ih, List.mem_cons, reduceCtorEq, false_or, and_assoc, exists_and_left]
    | mark target =>
      rw [expandParts_mark_ok_iff, expands_mark_iff]
      simp only [ih, spec, List.mem_cons, Segment.mark.injEq, forall_eq_or_imp, and_assoc]
      constructor
      · rintro ⟨included, out, holds, inside, all, expands, split⟩
        exact ⟨holds, all, included, out, inside, expands, split⟩
      · rintro ⟨holds, all, included, out, inside, expands, split⟩
        exact ⟨included, out, holds, inside, all, expands, split⟩

private theorem exists_error_of_expandParts (failed : expandParts expand pieces = .error e) :
    ∃ target, .mark target ∈ pieces ∧ expand target = .error e := by
  induction pieces with
  | nil => contradiction
  | cons piece pieces ih =>
    cases piece with
    | literal front =>
      obtain ⟨target, member, failed⟩ := ih (expandParts_literal_error_iff.mp failed)
      exact ⟨target, List.mem_cons_of_mem _ member, failed⟩
    | mark target =>
      rcases expandParts_mark_error_iff.mp failed with here | ⟨-, later⟩
      · exact ⟨target, List.mem_cons_self, here⟩
      · obtain ⟨other, member, failed⟩ := ih later
        exact ⟨other, List.mem_cons_of_mem _ member, failed⟩

end Pieces

section Files

variable {files : Directory} {levels : Nat} {path text : List Char} {e : Failure}

/-- The file at a path with its includes expanded, while levels are left. -/
def expandFile (files : Directory) (levels : Nat) (path : List Char) :
    Except Failure (List Char) := do
  expandIncludes files levels (← readTemplate files path)

private theorem expandFile_eq_ok_iff_exists :
    expandFile files levels path = .ok text ↔
      ∃ content, files.read? path = some content ∧ expandIncludes files levels content.toList =
        .ok text := by
  rw [expandFile, readTemplate]
  cases files.read? path with
  | none => simp [bind, Except.bind]
  | some content => simp [bind, Except.bind]

private theorem hasInclude_iff {pieces : List (Segment (List Char))} :
    hasInclude pieces ↔ ∃ target, .mark target ∈ pieces := by
  rw [hasInclude, List.any_eq_true]
  constructor
  · rintro ⟨_ | target, member, isMark⟩
    · contradiction
    · exact ⟨target, member⟩
  · rintro ⟨target, member⟩
    exact ⟨.mark target, member, rfl⟩

private theorem expands_literals_iff {pieces : List (Segment (List Char))}
    (literal : ∀ target, .mark target ∉ pieces) :
    Expands files pieces text ↔ pieces.flatMap (·.text directive) = text := by
  induction pieces generalizing text with
  | nil =>
    constructor
    · rintro ⟨⟩
      rfl
    · rintro rfl
      exact .nil
  | cons piece pieces ih =>
    have later : ∀ target, .mark target ∉ pieces := fun target member =>
      literal target (List.mem_cons_of_mem _ member)
    cases piece with
    | literal front =>
      rw [expands_literal_iff, List.flatMap_cons]
      simp only [ih later, exists_eq_left', Segment.text]
    | mark target => exact absurd List.mem_cons_self (literal target)

private theorem expands_self_iff {content : List Char}
    (literal : ∀ target, .mark target ∉ includeParts content) :
    Expands files (includeParts content) text ↔ content = text := by
  rw [expands_literals_iff literal, includeParts,
    (reads_directive.isCut_segments content).flatMap_text]

-- Files and texts expand by turns, a level apart. The step from texts to files is the same at every
-- level, so that the induction on the levels is over texts alone.
private theorem expandFile_eq_ok_iff_of_spec
    (spec : ∀ content text, expandIncludes files levels content = .ok text ↔
      IncludesLoadable files levels content ∧ Expands files (includeParts content) text) :
    expandFile files levels path = .ok text ↔ IsLoadable files levels path ∧
      ExpandsFile files path text := by
  rw [expandFile_eq_ok_iff_exists, isLoadable_iff]
  constructor
  · rintro ⟨content, read, expanded⟩
    obtain ⟨loadable, expands⟩ := (spec content.toList text).mp expanded
    exact ⟨⟨content, read, loadable⟩, content, read, expands⟩
  · rintro ⟨⟨content, read, loadable⟩, content', read', expands⟩
    obtain rfl : content' = content := Option.some.inj (read'.symm.trans read)
    exact ⟨content', read, (spec content'.toList text).mpr ⟨loadable, expands⟩⟩

private theorem expandIncludes_eq_ok_iff (content : List Char) :
    expandIncludes files levels content = .ok text ↔
      IncludesLoadable files levels content ∧ Expands files (includeParts content) text := by
  induction levels generalizing content text with
  | zero =>
    rw [expandIncludes]
    by_cases marked : hasInclude (includeParts content)
    · rw [if_pos marked]
      obtain ⟨target, member⟩ := hasInclude_iff.mp marked
      constructor
      · intro failed
        contradiction
      · rintro ⟨loadable, -⟩
        obtain ⟨fewer, none, -⟩ := loadable target member
        exact absurd none.symm (Nat.succ_ne_zero fewer)
    · rw [if_neg marked]
      have literal : ∀ target, .mark target ∉ includeParts content :=
        fun target member => marked (hasInclude_iff.mpr ⟨target, member⟩)
      rw [expands_self_iff literal, Except.ok.injEq]
      exact ⟨fun same => ⟨fun target member => absurd member (literal target), same⟩, And.right⟩
  | succ levels ih =>
    have spec : ∀ target text, expandFile files levels (trim target) = .ok text ↔
        IsLoadable files levels (trim target) ∧ ExpandsFile files (trim target) text :=
      fun _ _ => expandFile_eq_ok_iff_of_spec fun content text => ih content
    have loadable : IncludesLoadable files (levels + 1) content ↔
        ∀ target, .mark target ∈ includeParts content → IsLoadable files levels (trim target) := by
      apply forall₂_congr
      intro target _
      simp
    rw [loadable]
    exact expandParts_eq_ok_iff spec

private theorem expandFile_eq_ok_iff :
    expandFile files levels path = .ok text ↔ IsLoadable files levels path ∧
      ExpandsFile files path text :=
  expandFile_eq_ok_iff_of_spec fun content _ => expandIncludes_eq_ok_iff content

private theorem exists_expands {pieces : List (Segment (List Char))}
    (expanded : ∀ target, .mark target ∈ pieces → ∃ text, ExpandsFile files (trim target) text) :
    ∃ text, Expands files pieces text := by
  induction pieces with
  | nil => exact ⟨[], .nil⟩
  | cons piece pieces ih =>
    obtain ⟨out, later⟩ := ih fun target member => expanded target (List.mem_cons_of_mem _ member)
    cases piece with
    | literal front => exact ⟨front ++ out, .literal later⟩
    | mark target =>
      obtain ⟨included, content, read, inside⟩ := expanded target List.mem_cons_self
      exact ⟨included ++ out, .mark read inside later⟩

private theorem exists_expandsFile (loadable : IsLoadable files levels path) :
    ∃ text, ExpandsFile files path text := by
  induction levels using Nat.strong_induction_on generalizing path with
  | _ levels ih =>
    obtain ⟨content, read, includes⟩ := isLoadable_iff.mp loadable
    have expanded : ∀ target, .mark target ∈ includeParts content.toList →
        ∃ text, ExpandsFile files (trim target) text := by
      intro target member
      obtain ⟨fewer, rfl, inside⟩ := includes target member
      exact ih fewer (Nat.lt_succ_self fewer) inside
    obtain ⟨text, expands⟩ := exists_expands expanded
    exact ⟨text, content, read, expands⟩

private theorem kind_of_expandFile_of_spec
    (spec : ∀ content e, expandIncludes files levels content = .error e → e.kind = .config)
    (failed : expandFile files levels path = .error e) : e.kind = .config := by
  rw [expandFile, readTemplate] at failed
  cases read : files.read? path with
  | none =>
    rw [read] at failed
    obtain rfl : missingTemplate files path = e := Except.error.inj failed
    rfl
  | some content =>
    rw [read] at failed
    exact spec content.toList e failed

private theorem kind_of_expandIncludes {content : List Char}
    (failed : expandIncludes files levels content = .error e) :
    e.kind = .config := by
  induction levels generalizing content e with
  | zero =>
    rw [expandIncludes] at failed
    split at failed
    · obtain rfl : tooDeep = e := Except.error.inj failed
      rfl
    · contradiction
  | succ levels ih =>
    obtain ⟨target, -, failed⟩ := exists_error_of_expandParts failed
    exact kind_of_expandFile_of_spec (fun content e => ih) failed

private theorem kind_of_load {name : List Char} (failed : load files name = .error e) :
    e.kind = .config :=
  kind_of_expandFile_of_spec (fun _ _ => kind_of_expandIncludes) failed

end Files

/-- A template loads exactly if all the files that it reaches by includes are there, in chains of at
most five. Then it is its file with each directive replaced, in place, by what its target expands
to; otherwise the configuration is wrong, and so it is with a cycle of includes in reach. -/
theorem load_expands (files : Directory) (name : List Char) :
    ((∃ text, load files name = .ok text) ↔ IsLoadable files 5 (templatePath name)) ∧
    (∀ text, load files name = .ok text ↔
      IsLoadable files 5 (templatePath name) ∧ ExpandsFile files (templatePath name) text) ∧
    (∀ content pieces, IsCut directive IsTarget content pieces ↔ pieces = includeParts content) ∧
    (∀ e, load files name = .error e → e.kind = .config) ∧
    ∀ path, ReflTransGen (Includes files) (templatePath name) path →
      TransGen (Includes files) path path → ∃ e, load files name = .error e ∧ e.kind = .config := by
  have loads : ∀ text, load files name = .ok text ↔
      IsLoadable files 5 (templatePath name) ∧ ExpandsFile files (templatePath name) text :=
    fun text => expandFile_eq_ok_iff
  refine ⟨?_, loads, fun _ _ => reads_directive.isCut_iff, fun _ => kind_of_load, ?_⟩
  · constructor
    · rintro ⟨text, loaded⟩
      exact ((loads text).mp loaded).1
    · intro loadable
      obtain ⟨text, expands⟩ := exists_expandsFile loadable
      exact ⟨text, (loads text).mpr ⟨loadable, expands⟩⟩
  · intro path reached cycle
    cases outcome : load files name with
    | error e => exact ⟨e, rfl, kind_of_load outcome⟩
    | ok text => exact absurd ((loads text).mp outcome).1 (not_isLoadable_of_cycle reached cycle)

/-- Two templates that include each other. -/
def mutualIncludes : Directory :=
  .root [("agent-security.txt", "Audit.\n@include(shared/loop.txt)"),
    ("shared/loop.txt", "@include( agent-security.txt )")]

theorem load_expands_circular :
    ReflTransGen (Includes mutualIncludes) (templatePath "agent-security".toList)
      "agent-security.txt".toList ∧
    TransGen (Includes mutualIncludes) "agent-security.txt".toList "agent-security.txt".toList ∧
    ∃ e, load mutualIncludes "agent-security".toList = .error e ∧ e.kind = .config := by
  have named : templatePath "agent-security".toList = "agent-security.txt".toList := by decide
  have there : Includes mutualIncludes "agent-security.txt".toList "shared/loop.txt".toList :=
    ⟨_, "shared/loop.txt".toList, rfl, List.mem_cons_of_mem _ List.mem_cons_self, rfl⟩
  have back : Includes mutualIncludes "shared/loop.txt".toList "agent-security.txt".toList :=
    ⟨_, " agent-security.txt ".toList, rfl, List.mem_cons_self, rfl⟩
  have cycle := TransGen.trans (.single there) (.single back)
  have reached : ReflTransGen (Includes mutualIncludes) (templatePath "agent-security".toList)
      "agent-security.txt".toList := by
    rw [named]
  exact ⟨reached, cycle, (load_expands mutualIncludes "agent-security".toList).2.2.2.2 _
    reached cycle⟩

end AuditPanel.Prompt
