import AuditPanel.Proofs.Finding.Record
import AuditPanel.Proofs.Time.Text
import AuditPanel.Review.Basic

/-!
Reports of reviewers and the results of asking them as records.
-/

set_option autoImplicit false

namespace AuditPanel

open Json

theorem Reviewer.ofJson?_toJson (r : Reviewer) : ofJson? r.toJson = some r := by
  cases r <;> rfl

private theorem Instant.ofJson?_toText {t : Instant} (proper : t.IsProper) :
    ofJson? (.string t.toText) = some t := by
  rw [ofJson?, asString?, Option.bind_some, ofText?_toText proper]

namespace CodeQuality

/-- The double of the remarks, if they have a score. -/
def reals (q : CodeQuality) : List Float :=
  q.score.toList

def mapReals (g : Float → Float) (q : CodeQuality) : CodeQuality :=
  { q with score := q.score.map g }

variable {q : CodeQuality}

theorem ofJson?_toJson (q : CodeQuality) : ofJson? q.toJson = some q := by
  have found : q.toJson.slots? ["score", "notes"] =
      some [.value (.option .real q.score), .value (.strings q.notes)] := by
    rw [toJson, slots?_ofMembers]
    · rfl
    · exact (by decide : ["score", "notes"].Nodup)
  have score : (Slot.value (.option .real q.score)).optional? asFloat? = some q.score :=
    optional?_option (fun _ _ => rfl) nofun
  rw [ofJson?, found]
  dsimp only [Option.bind_eq_bind, Option.bind_some, Slot.required?]
  rw [score, asList?_strings]
  rfl

theorem mapReals_toJson {write : Float → Json} {g : Float → Float}
    (same : ∀ x ∈ q.reals, write x = .real (g x)) :
    q.toJson.mapReals write = (q.mapReals g).toJson := by
  have score : Json.mapReals write (.option .real q.score) = .option .real (q.score.map g) := by
    cases found : q.score with
    | none => rfl
    | some x => exact same x (by simp [reals, found])
  rw [toJson, toJson, mapReals_ofMembers]
  simp only [List.map_cons, List.map_nil, mapReals_strings, score, mapReals]

theorem isStorable_toJson {depth : Nat} (q : CodeQuality) : IsStorable (depth + 2) q.toJson := by
  refine .ofMembers ?_
  simp only [List.forall_mem_cons]
  refine ⟨?_, .strings _, nofun⟩
  cases q.score with
  | none => exact .null
  | some x => exact .real x

end CodeQuality

namespace Review

/-- The findings of a report have sets of lines and sources. -/
def InRange (a : Review) : Prop :=
  ∀ f ∈ a.findings, f.InRange

def reals (a : Review) : List Float :=
  a.score :: (a.codeQuality.reals ++ a.findings.flatMap Finding.reals)

structure IsProper (a : Review) : Prop where
  inRange : a.InRange
  finite : ∀ x ∈ a.reals, x.isFinite = true

theorem fieldNames_nodup : fieldNames.Nodup := by
  decide

theorem ofJson?_toJson {a : Review} (range : a.InRange) : ofJson? a.toJson = some a := by
  have found : a.toJson.slots? fieldNames =
      some [.value a.reviewer.toJson, .value (.real a.score), .value a.riskLevel.toJson,
        .value (.string a.summary), .value (.array (a.findings.map Finding.toJson)),
        .value (.strings a.recommendations), .value (.strings a.gasOptimizations),
        .value a.codeQuality.toJson] := by
    rw [toJson, slots?_ofMembers]
    · rfl
    · exact fieldNames_nodup
  have findings : asList? Finding.ofJson? (.array (a.findings.map Finding.toJson)) =
      some a.findings :=
    asList?_map fun f member => Finding.ofJson?_toJson (range f member)
  rw [ofJson?, found]
  dsimp only [Option.bind_eq_bind, Option.bind_some, Slot.required?, asString?, asFloat?]
  rw [Reviewer.ofJson?_toJson, RiskLevel.ofJson?_toJson, findings, asList?_strings, asList?_strings,
    CodeQuality.ofJson?_toJson]
  rfl

end Review

namespace ReviewResult

/-- The report of a result is in range, the duration fits its word and the instant is one of the
calendar. -/
structure InRange (r : ReviewResult) : Prop where
  review : ∀ a, r.review = some a → a.InRange
  duration_fits : r.executionTimeMs < 1 <<< 64
  timestamp : r.timestamp.IsProper

/-- A result in range whose report has finite doubles. -/
structure IsProper (r : ReviewResult) : Prop extends r.InRange where
  finite : ∀ a, r.review = some a → ∀ x ∈ a.reals, x.isFinite = true

theorem fieldNames_nodup : fieldNames.Nodup := by
  decide

theorem ofJson?_toJson {r : ReviewResult} (range : r.InRange) : ofJson? r.toJson = some r := by
  have found : r.toJson.slots? fieldNames =
      some
        [.value r.reviewer.toJson, .value (.bool r.success),
          .value (.option Review.toJson r.review),
        .value (.option .string r.error), .value (.nat r.executionTimeMs),
        .value (.string r.timestamp.toText)] := by
    rw [toJson, slots?_ofMembers]
    · rfl
    · exact fieldNames_nodup
  have review : (Slot.value (.option Review.toJson r.review)).optional? Review.ofJson? =
      some r.review :=
    optional?_option (fun a some_ => Review.ofJson?_toJson (range.review a some_)) nofun
  have error : (Slot.value (.option .string r.error)).optional? asString? = some r.error :=
    optional?_option (fun _ _ => rfl) nofun
  rw [ofJson?, found]
  dsimp only [Option.bind_eq_bind, Option.bind_some, Slot.required?, asBool?]
  rw [Reviewer.ofJson?_toJson, review, error, asNat?_nat range.duration_fits,
    Instant.ofJson?_toText range.timestamp]
  rfl

end ReviewResult

end AuditPanel
