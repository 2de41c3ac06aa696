import AuditPanel.Consensus.Merge
import AuditPanel.Proofs.Finding.Order

/-!
The strength of findings orders them totally up to the fields that a merge takes from a whole group:
equally strong findings of one identity tell the same.
-/

set_option autoImplicit false

namespace AuditPanel

/-- What a finding tells, apart from its sources and its scales. -/
structure Narrative where
  name : String
  description : String
  category : String
  affectedLines : List Nat
  codeSnippet : String
  recommendation : String
  impact : String
  deriving Repr, DecidableEq

def Finding.narrative (f : Finding) : Narrative :=
  ⟨f.name, f.description, f.category, f.affectedLines, f.codeSnippet, f.recommendation, f.impact⟩

theorem Finding.key_eq_of_narrative_eq {a b : Finding} (h : a.narrative = b.narrative) :
    a.key = b.key := by
  simp only [narrative, Narrative.mk.injEq] at h
  simp [key, h]

namespace Consensus

instance : Std.TransCmp strength :=
  inferInstanceAs (Std.TransCmp
    (compareLex (compareOn fun f : Finding => f.severity.level) <|
    compareLex (compareOn fun f : Finding => f.confidence.level) <|
    compareLex (compareOn fun f : Finding => f.description.utf8ByteSize) <|
    compareLex (fun a b => compareOn Finding.name b a) <|
    compareLex (fun a b => compareOn Finding.description b a) <|
    compareLex (fun a b => compareOn Finding.recommendation b a) <|
    compareLex (fun a b => compareOn Finding.impact b a)
      (fun a b => compareOn Finding.codeSnippet b a)))

theorem eq_of_strength_eq {a b : Finding} (h : strength a b = .eq) :
    a.severity = b.severity ∧ a.confidence = b.confidence ∧
      (a.key = b.key → a.narrative = b.narrative) := by
  simp only [strength, Ordering.then_eq_eq, Std.LawfulEqOrd.compare_eq_iff_eq] at h
  obtain ⟨severity, confidence, -, name, description, recommendation, impact, snippet⟩ := h
  refine ⟨Severity.eq_of_level_eq severity, Confidence.eq_of_level_eq confidence, ?_⟩
  intro same
  simp only [Finding.key, FindingKey.mk.injEq] at same
  simp [Finding.narrative, same, name, description, recommendation, impact, snippet]

/-- A finding is at most as strong as one that tells the same as some stronger finding on scales at
least as high. -/
theorem strength_le_of_raised {f best m : Finding} (weaker : (strength f best).isLE)
    (texts : m.narrative = best.narrative) (severity : best.severity.level ≤ m.severity.level)
    (confidence : f.confidence.level ≤ m.confidence.level)
    (highest : best.confidence.level ≤ m.confidence.level) :
    (strength f m).isLE := by
  simp only [Finding.narrative, Narrative.mk.injEq] at texts
  simp only [strength, Ordering.isLE_then_iff_and, Nat.isLE_compare, Nat.compare_eq_lt] at weaker ⊢
  obtain ⟨bySeverity, weaker⟩ := weaker
  refine ⟨bySeverity.trans severity, ?_⟩
  rcases weaker with below | ⟨byConfidence, weaker⟩
  · exact .inl (below.trans_le severity)
  · refine .inr ⟨confidence, ?_⟩
    rcases weaker with below | weaker
    · exact .inl (below.trans_le highest)
    · exact .inr (by simpa only [texts] using weaker)

theorem strongest_mem (first : Finding) (rest : List Finding) :
    strongest first rest ∈ first :: rest := by
  induction rest generalizing first with
  | nil => simp [strongest]
  | cons f rest ih =>
    have next : strongest first (f :: rest) = strongest (stronger first f) rest := rfl
    rw [next]
    have picked : stronger first f = first ∨ stronger first f = f := by
      unfold stronger
      split <;> simp
    rcases List.mem_cons.mp (ih (stronger first f)) with head | tail
    · rw [head]
      rcases picked with same | same <;> simp [same]
    · simp [tail]

private theorem strength_stronger_left (a b : Finding) : (strength a (stronger a b)).isLE := by
  unfold stronger
  split
  · simp [Std.ReflCmp.compare_self]
  · next h => rcases order : strength a b with _ | _ | _ <;> simp_all

private theorem strength_stronger_right (a b : Finding) : (strength b (stronger a b)).isLE := by
  unfold stronger
  split
  · next h => simp [Std.OrientedCmp.gt_iff_lt.mp h]
  · simp [Std.ReflCmp.compare_self]

theorem strength_strongest (first : Finding) (rest : List Finding) :
    ∀ f ∈ first :: rest, (strength f (strongest first rest)).isLE := by
  induction rest generalizing first with
  | nil => simp [strongest, Std.ReflCmp.compare_self]
  | cons g rest ih =>
    have next : strongest first (g :: rest) = strongest (stronger first g) rest := rfl
    rw [next]
    have held := ih (stronger first g)
    intro f hf
    rcases List.mem_cons.mp hf with rfl | hf
    · exact Std.TransCmp.isLE_trans (strength_stronger_left f g) (held _ (by simp))
    · rcases List.mem_cons.mp hf with rfl | hf
      · exact Std.TransCmp.isLE_trans (strength_stronger_right first f) (held _ (by simp))
      · exact held f (by simp [hf])

end Consensus

end AuditPanel
