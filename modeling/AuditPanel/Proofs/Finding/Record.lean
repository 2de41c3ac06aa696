import AuditPanel.Finding.Basic
import AuditPanel.Proofs.Json.Decode
import AuditPanel.Proofs.Json.Restored
import AuditPanel.Proofs.Ordered

/-!
Findings as records. A finding whose lines and sources are sets is what its record holds.
-/

set_option autoImplicit false

namespace AuditPanel

open Json

theorem Severity.ofJson?_toJson (s : Severity) : ofJson? s.toJson = some s := by
  cases s <;> rfl

theorem RiskLevel.ofJson?_toJson (r : RiskLevel) : ofJson? r.toJson = some r := by
  cases r <;> rfl

theorem Confidence.ofJson?_toJson (c : Confidence) : ofJson? c.toJson = some c := by
  cases c <;> rfl

namespace Finding

/-- Lines and sources are sets. -/
structure IsOrdered (f : Finding) : Prop where
  lines_increase : f.affectedLines.Pairwise (· < ·)
  sources_increase : f.detectedBy.Pairwise (· < ·)

/-- Lines and sources are sets, and lines fit their words. -/
structure InRange (f : Finding) : Prop extends f.IsOrdered where
  lines_fit : ∀ n ∈ f.affectedLines, n < 1 <<< 32

def reals (f : Finding) : List Float :=
  [f.consensus, f.finalConfidence]

def mapReals (g : Float → Float) (f : Finding) : Finding :=
  { f with consensus := g f.consensus, finalConfidence := g f.finalConfidence }

structure IsProper (f : Finding) : Prop extends f.InRange where
  finite : ∀ x ∈ f.reals, x.isFinite = true

variable {f : Finding}

theorem fieldNames_nodup : fieldNames.Nodup := by
  decide

theorem ofJson?_toJson (range : f.InRange) : ofJson? f.toJson = some f := by
  have lines : asList? asNat32? (.array (f.affectedLines.map nat)) = some f.affectedLines :=
    asList?_map fun n member => asNat32?_nat (range.lines_fit n member)
  have found : f.toJson.slots? fieldNames =
      some [.value (.string f.name), .value (.string f.description), .value (.string f.category),
        .value f.severity.toJson, .value f.confidence.toJson,
        .value (.array (f.affectedLines.map nat)), .value (.string f.codeSnippet),
        .value (.string f.recommendation), .value (.string f.impact),
        .value (.strings f.detectedBy), .value (.real f.consensus),
        .value (.real f.finalConfidence)] := by
    rw [toJson, slots?_ofMembers]
    · rfl
    · exact fieldNames_nodup
  rw [ofJson?, found]
  dsimp only [Option.bind_eq_bind, Option.bind_some, Slot.required?, Slot.orDefault?, asString?,
    asFloat?]
  rw [Severity.ofJson?_toJson, Confidence.ofJson?_toJson, lines, asList?_strings]
  dsimp only [Option.bind_some]
  rw [Ordered.nats_of_pairwise range.lines_increase,
    Ordered.strings_of_pairwise range.sources_increase]

theorem mapReals_toJson {write : Float → Json} {g : Float → Float}
    (same : ∀ x ∈ f.reals, write x = .real (g x)) :
    f.toJson.mapReals write = (f.mapReals g).toJson := by
  have lines : (f.affectedLines.map nat).map (Json.mapReals write) = f.affectedLines.map nat := by
    rw [List.map_map]
    rfl
  rw [toJson, toJson, mapReals_ofMembers]
  simp only [List.map_cons, List.map_nil, mapReals_array, mapReals_strings, mapReals_real, lines,
    same f.consensus (by simp [reals]), same f.finalConfidence (by simp [reals])]
  rfl

theorem isStorable_toJson {depth : Nat} (range : f.InRange) : IsStorable (depth + 2) f.toJson := by
  have lines : IsStorable (depth + 1) (.array (f.affectedLines.map nat)) := by
    refine .array fun v member => ?_
    obtain ⟨n, inside, rfl⟩ := List.mem_map.mp member
    exact .nat (Nat.lt_trans (range.lines_fit n inside) (by decide))
  refine .ofMembers ?_
  simp only [List.forall_mem_cons]
  exact ⟨.string _, .string _, .string _, .string _, .string _, lines, .string _, .string _,
    .string _, .strings _, .real _, .real _, nofun⟩

end Finding

end AuditPanel
