import AuditPanel.Proofs.Consensus.Permutation
import Mathlib.Data.List.Basic

/-!
Advice without repetition. Of the texts with one normalised form the first that is not blank is
kept, where it stands; texts that come later never displace it. A panel's advice is thinned out in
this way over the reports in the order of the panel.
-/

set_option autoImplicit false

namespace AuditPanel.Consensus

def textName (t : String) : List Char :=
  normalizeName t.toList

/-- Whether a text has a character that is not blank. -/
def isSolid (t : String) : Bool :=
  !Text.isAllBlank t.toList

/-- A list thinned out to the first solid text of each normalised form. -/
structure KeepsFirsts (items kept : List String) : Prop where
  sublist : kept.Sublist items
  distinct : kept.Pairwise (textName · ≠ textName ·)
  solid : ∀ t ∈ kept, isSolid t
  first : ∀ t ∈ items, isSolid t →
    ∃ u ∈ kept, items.find? (fun u => isSolid u && textName u == textName t) = some u

variable {seen : List (List Char)} {out items kept : List String} {t : String}

private theorem dedupFrom_skip (skipped : ¬isSolid t ∨ textName t ∈ seen) :
    dedupFrom seen out (t :: items) = dedupFrom seen out items := by
  rw [dedupFrom]
  apply if_pos
  simpa [isSolid, textName] using skipped

private theorem dedupFrom_keep (solid : isSolid t) (fresh : textName t ∉ seen) :
    dedupFrom seen out (t :: items) = dedupFrom (textName t :: seen) (t :: out) items := by
  rw [dedupFrom]
  apply if_neg
  simp_all [isSolid, textName]

theorem dedupFrom_eq_append :
    dedupFrom seen out items = out.reverse ++ dedupFrom seen [] items := by
  induction items generalizing seen out with
  | nil => simp [dedupFrom]
  | cons t items ih =>
    by_cases skipped : ¬isSolid t ∨ textName t ∈ seen
    · rw [dedupFrom_skip skipped, dedupFrom_skip skipped]
      exact ih
    · obtain ⟨solid, fresh⟩ := not_or.mp skipped
      rw [dedupFrom_keep (not_not.mp solid) fresh, dedupFrom_keep (not_not.mp solid) fresh, ih,
        @ih _ [t]]
      simp

private theorem dedupFrom_eq_filter :
    dedupFrom seen [] items = (dedupText items).filter (textName · ∉ seen) := by
  induction items generalizing seen with
  | nil => rfl
  | cons t items ih =>
    by_cases solid : isSolid t
    · have front (seen : List (List Char)) : dedupFrom (textName t :: seen) [t] items =
          t :: (dedupText items).filter (textName · ∉ textName t :: seen) := by
        rw [dedupFrom_eq_append, ih]
        rfl
      rw [dedupText, dedupFrom_keep solid (by simp : textName t ∉ []), front]
      by_cases known : textName t ∈ seen
      · rw [dedupFrom_skip (.inr known), ih, List.filter_cons_of_neg (by simpa using known),
          List.filter_filter]
        apply List.filter_congr
        intro u _
        by_cases same : textName u = textName t
        · simp [same, known]
        · simp [same]
      · rw [dedupFrom_keep solid known, front, List.filter_cons_of_pos (by simpa using known),
          List.filter_filter]
        congr 1
        apply List.filter_congr
        intro u _
        simp [Bool.and_comm]
    · rw [dedupText, dedupFrom_skip (.inl solid), dedupFrom_skip (.inl solid)]
      exact ih

private theorem dedupText_cons_blank (blank : ¬isSolid t) :
    dedupText (t :: items) = dedupText items :=
  dedupFrom_skip (.inl blank)

private theorem dedupText_cons_solid (solid : isSolid t) :
    dedupText (t :: items) = t :: (dedupText items).filter (textName · ≠ textName t) := by
  rw [dedupText, dedupFrom_keep solid (by simp), dedupFrom_eq_append, dedupFrom_eq_filter]
  simp

private theorem dedupText_sublist (items : List String) : (dedupText items).Sublist items := by
  induction items with
  | nil => exact .slnil
  | cons t items ih =>
    by_cases solid : isSolid t
    · rw [dedupText_cons_solid solid]
      exact (List.filter_sublist.trans ih).cons_cons t
    · rw [dedupText_cons_blank solid]
      exact ih.cons t

private theorem isSolid_of_mem_dedupText (member : t ∈ dedupText items) : isSolid t := by
  induction items with
  | nil => cases member
  | cons u items ih =>
    by_cases solid : isSolid u
    · rw [dedupText_cons_solid solid] at member
      rcases List.mem_cons.mp member with rfl | later
      · exact solid
      · exact ih (List.mem_filter.mp later).1
    · rw [dedupText_cons_blank solid] at member
      exact ih member

private theorem dedupText_pairwise (items : List String) :
    (dedupText items).Pairwise (textName · ≠ textName ·) := by
  induction items with
  | nil => exact .nil
  | cons t items ih =>
    by_cases solid : isSolid t
    · rw [dedupText_cons_solid solid]
      refine List.pairwise_cons.mpr ⟨?_, ih.filter _⟩
      intro u later same
      have other := (List.mem_filter.mp later).2
      simp [same] at other
    · rwa [dedupText_cons_blank solid]

private theorem find?_dedupText (name : List Char) (items : List String) :
    (dedupText items).find? (textName · == name) = items.find? fun u =>
      isSolid u && textName u == name := by
  induction items with
  | nil => rfl
  | cons t items ih =>
    by_cases solid : isSolid t
    · rw [dedupText_cons_solid solid]
      by_cases same : textName t = name
      · rw [List.find?_cons_of_pos (by simpa using same),
          List.find?_cons_of_pos (by simp [solid, same])]
      · rw [List.find?_cons_of_neg (by simpa using same), List.find?_cons_of_neg (by simp [same]),
          ← ih, List.find?_filter]
        congr 1
        funext u
        by_cases equal : textName u = name
        · simp [equal, Ne.symm same]
        · simp [equal]
    · rw [dedupText_cons_blank solid, List.find?_cons_of_neg (by simp [solid]), ih]

private theorem keepsFirsts_dedupText (items : List String) :
    KeepsFirsts items (dedupText items) where
  sublist := dedupText_sublist items
  distinct := dedupText_pairwise items
  solid t := isSolid_of_mem_dedupText
  first := by
    intro t member solid
    have found : (items.find? fun u => isSolid u && textName u == textName t).isSome :=
      List.find?_isSome.mpr ⟨t, member, by simp [solid]⟩
    obtain ⟨u, first⟩ := Option.isSome_iff_exists.mp found
    exact ⟨u, List.mem_of_find?_eq_some ((find?_dedupText _ items).trans first), first⟩

private theorem dedupText_of_distinct (solid : ∀ t ∈ kept, isSolid t)
    (distinct : kept.Pairwise (textName · ≠ textName ·)) :
    dedupText kept = kept := by
  induction kept with
  | nil => rfl
  | cons t kept ih =>
    obtain ⟨head, tail⟩ := List.forall_mem_cons.mp solid
    obtain ⟨apart, distinct⟩ := List.pairwise_cons.mp distinct
    rw [dedupText_cons_solid head, ih tail distinct]
    congr 1
    apply List.filter_eq_self.mpr
    intro u member
    simpa using (apart u member).symm

private theorem dedupText_dedupText (items : List String) :
    dedupText (dedupText items) = dedupText items :=
  dedupText_of_distinct (fun _ => isSolid_of_mem_dedupText) (dedupText_pairwise items)

private theorem dedupText_append (items more : List String) : dedupText (items ++ more) =
    dedupText items ++ (dedupText more).filter (textName · ∉ (dedupText items).map textName) := by
  induction items with
  | nil => simp [dedupText, dedupFrom]
  | cons t items ih =>
    rw [List.cons_append]
    by_cases solid : isSolid t
    · rw [dedupText_cons_solid solid, dedupText_cons_solid solid, ih, List.filter_append,
        List.filter_filter, List.cons_append]
      congr 2
      apply List.filter_congr
      intro u _
      -- A form other than that of the first text is kept after it if it is kept at all.
      by_cases same : textName u = textName t
      · simp [same]
      · have kept : (∃ v ∈ dedupText items, textName v ≠ textName t ∧ textName v = textName u) ↔
            ∃ v ∈ dedupText items, textName v = textName u := by
          refine exists_congr fun v => and_congr_right fun _ =>
            ⟨And.right, fun equal => ⟨?_, equal⟩⟩
          rwa [equal]
        simp [same, and_assoc, kept]
    · rw [dedupText_cons_blank solid, dedupText_cons_blank solid, ih]

private theorem dedupText_append_absorbs (items more : List String) :
    dedupText (items ++ more) = dedupText (dedupText items ++ more) := by
  rw [dedupText_append, dedupText_append, dedupText_dedupText]

/-- Results by the rank of their reviewers; those of one reviewer stay in their order. -/
structure InRankOrder (results ordered : List ReviewResult) : Prop where
  perm : ordered.Perm results
  ranks : ordered.Pairwise fun a b => a.reviewer.priority ≤ b.reviewer.priority
  stable : ∀ r, ordered.filter (·.reviewer = r) = results.filter (·.reviewer = r)

private theorem inRankOrder_inPanelOrder (results : List ReviewResult) :
    InRankOrder results (inPanelOrder results) where
  perm := List.mergeSort_perm _ _
  ranks := inPanelOrder_pairwise results
  stable := by
    intro r
    have perm : (inPanelOrder results).Perm results := List.mergeSort_perm _ _
    have level : (results.filter (·.reviewer = r)).Pairwise fun a b =>
      a.reviewer.priority ≤ b.reviewer.priority := by
      apply List.pairwise_iff_forall_sublist.mpr
      intro a b pair
      have own (d : ReviewResult) (member : d ∈ [a, b]) : d.reviewer = r := by
        simpa using (List.mem_filter.mp (pair.subset member)).2
      rw [own a (by simp), own b (by simp)]
    have kept : (results.filter (·.reviewer = r)).Sublist (inPanelOrder results) := by
      apply List.sublist_mergeSort
      · intro a b d below above
        simp only [decide_eq_true_eq] at below above ⊢
        omega
      · intro a b
        simp only [Bool.or_eq_true, decide_eq_true_eq]
        omega
      · simpa using level
      · exact List.filter_sublist
    have own := kept.filter (·.reviewer = r)
    simp only [List.filter_filter, Bool.and_self] at own
    exact (own.eq_of_length (perm.filter _).length_eq.symm).symm

variable {results : List ReviewResult} {statics : List Finding} {c : Source.Characteristics}
  {rules : ScoringRules} {view : Aggregate}

private theorem aggregate_advice (h : aggregate results statics c rules = .ok view) :
    view.recommendations = dedupText ((reviewsOf results).flatMap (·.recommendations)) ∧
      view.gasOptimizations = dedupText ((reviewsOf results).flatMap (·.gasOptimizations)) ∧
      view.codeQuality.notes = dedupText ((reviewsOf results).flatMap (·.codeQuality.notes)) := by
  obtain ⟨-, rfl⟩ := aggregate_eq_ok_iff.mp h
  exact ⟨rfl, rfl, rfl⟩

/-- Advice is thinned out to the first text of each normalised form, whatever is added later; and so
is the advice in a view, in the order of the panel. -/
theorem dedupText_keepsFirsts (items more : List String) :
    KeepsFirsts items (dedupText items) ∧
      dedupText items <+: dedupText (items ++ more) ∧
      dedupText (dedupText items) = dedupText items ∧
      dedupText (items ++ more) = dedupText (dedupText items ++ more) ∧
      ∀ (results : List ReviewResult) (statics : List Finding) (c : Source.Characteristics)
        (rules : ScoringRules) (view : Aggregate), aggregate results statics c rules = .ok view →
        ∃ ordered, InRankOrder results ordered ∧
          let reviews := ordered.filterMap successfulReview?
          view.recommendations = dedupText (reviews.flatMap (·.recommendations)) ∧
            view.gasOptimizations = dedupText (reviews.flatMap (·.gasOptimizations)) ∧
            view.codeQuality.notes = dedupText (reviews.flatMap (·.codeQuality.notes)) := by
  refine ⟨keepsFirsts_dedupText items, ?_, dedupText_dedupText items,
    dedupText_append_absorbs items more, ?_⟩
  · rw [dedupText_append]
    apply List.prefix_append
  · intro results statics c rules view h
    exact ⟨inPanelOrder results, inRankOrder_inPanelOrder results, aggregate_advice h⟩

/-- One piece of advice in three wordings, and two reviewers in the order in which they do not
speak. -/
theorem dedupText_keepsFirsts_reworded :
    let advice (r : Reviewer) (texts : List String) :=
      ReviewResult.succeeded { Review.neutral r with recommendations := texts } 0 default
    let results := [advice .quality ["use cei", "Check calls"], advice .security ["Use CEI."]]
    KeepsFirsts ["Use CEI.", " ", "use  cei!", "Add events"] ["Use CEI.", "Add events"] ∧
      ∃ view, aggregate results [] default .standard = .ok view ∧
        view.recommendations = ["Use CEI.", "Check calls"] := by
  intro advice results
  obtain ⟨kept, -, -, -, panel⟩ :=
    dedupText_keepsFirsts ["Use CEI.", " ", "use  cei!", "Add events"] []
  have two : dedupText ["Use CEI.", " ", "use  cei!", "Add events"] =
    ["Use CEI.", "Add events"] := by decide
  have distinct : (results.map (·.reviewer)).Nodup := by decide
  have turned : [advice .security ["Use CEI."], advice .quality ["use cei", "Check calls"]] =
      inPanelOrder results :=
    inPanelOrder_eq_of_perm distinct (.swap _ _ _)
      (by simp [advice, ReviewResult.succeeded, Review.neutral, Reviewer.priority])
  have answered : reviewsOf results ≠ [] := by
    rw [reviewsOf, ← turned]
    exact List.cons_ne_nil _ _
  obtain ⟨view, completed⟩ := aggregate_completes [] default .standard answered
  obtain ⟨ordered, order, recommendations, -⟩ := panel results [] default .standard view completed
  refine ⟨two ▸ kept, view, completed, ?_⟩
  rw [recommendations, inPanelOrder_eq_of_perm distinct order.perm order.ranks, ← turned]
  decide

end AuditPanel.Consensus
