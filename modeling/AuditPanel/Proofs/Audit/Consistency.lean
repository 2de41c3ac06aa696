import AuditPanel.Proofs.Audit.Credit
import AuditPanel.Proofs.Audit.Transparency
import AuditPanel.Proofs.Consensus.Listing

/-!
Completed reports agree with themselves. The list, its order, its counts and the risk are made in
one step from the last merge. The contributions come with the view: they are those of the session
that the view was taken from, which for an audit that is served is the session of an earlier one
under the same key.
-/

set_option autoImplicit false

namespace AuditPanel

open Consensus (Aggregate)

/-- A report whose list of findings is in order, and whose counts and risk are those of the list. -/
structure AuditReport.IsConsistent (r : AuditReport) : Prop where
  keys_nodup : (r.findings.map Finding.key).Nodup
  sorted : r.findings.Pairwise Finding.ListedBefore
  counts (severity : Severity) : r.counts.of severity =
    (r.findings.filter (·.severity = severity)).length
  total : r.counts.total = r.findings.length
  critical : (∃ f ∈ r.findings, f.severity = .critical) → r.riskLevel = .critical

namespace SourceAudit

def chosen (x : SourceAudit) (a : Auditor) : List Reviewer :=
  match Source.analyze x.source.toList with
  | .error _ => []
  | .ok analysis =>
    Review.selectPanel (analysis.characteristics x.source.toList) x.options.agents
      a.settings.maxConcurrentAgents

/-- The results of the session that an audit holds when nothing is served. -/
def results (x : SourceAudit) (a : Auditor) (s : AuditorState) : List ReviewResult :=
  a.sessionResults x.occasion x.source x.options s.made

/-- Where the view of an audit comes from: its own session, or the session of an earlier audit with
the same key. -/
inductive TakenFrom (a : Auditor) (x : SourceAudit) (s : AuditorState) :
    SourceAudit → AuditorState → Prop
  | own (missed : x.served? a s = none) : TakenFrom a x s x s
  | earlier {y : SourceAudit} {s₀ : AuditorState} {view : Aggregate}
      (served : x.served? a s = some view)
      (reached : Auditor.Reachable a s₀) (missed : y.served? a s₀ = none)
        (taken : y.view? a s₀ = some view)
      (key : (y.request? a).map PanelRequest.key = (x.request? a).map PanelRequest.key) :
        TakenFrom a x s y s₀

variable {a : Auditor} {s : AuditorState} {x y : SourceAudit} {p : Auditor.Preparation}
  {view : Aggregate}

private theorem chosen_eq (prepared : Auditor.prepare a.settings x.source x.options = .ok p) :
    x.chosen a = p.reviewers := by
  obtain ⟨-, analysed, characteristics, reviewers, -⟩ := Auditor.prepare_ok prepared
  rw [chosen, analysed, reviewers, characteristics]

private theorem exists_view_of_completed {r : AuditReport} (completed : (x.run a s).1 = .ok r) :
    ∃ p view elapsed, Auditor.prepare a.settings x.source x.options = .ok p ∧
      x.view? a s = some view ∧
      r = Auditor.completedReport a.settings x.occasion x.options p view elapsed := by
  obtain ⟨after, run, -⟩ := Auditor.auditSource_ok (Prod.ext completed rfl)
  obtain ⟨p, view, elapsed, prepared, consulted, made⟩ := Auditor.runSource_ok run
  have taken := (view?_eq_some_iff prepared).mpr ⟨elapsed, congrArg Prod.fst consulted⟩
  exact ⟨p, view, elapsed, prepared, taken, made⟩

private theorem isCredited_of_missed (missed : x.served? a s = none)
    (taken : x.view? a s = some view) :
    IsCredited (x.chosen a) (x.results a s) view.contributions := by
  cases prepared : Auditor.prepare a.settings x.source x.options with
  | error e => simp [view?, prepared] at taken
  | ok p =>
    have distinct : p.reviewers.Nodup := by
      rw [(Auditor.prepare_ok prepared).2.2.2.1]
      exact Review.selectPanel_nodup _ _ _
    obtain ⟨elapsed, consulted⟩ := (view?_eq_some_iff prepared).mp taken
    obtain ⟨session, held, -, aggregated⟩ :=
      Auditor.exists_session_of_consult prepared missed consulted
    obtain ⟨p', prepared', -, rfl⟩ := Auditor.session?_eq_some_iff.mp held
    obtain rfl : p = p' := Except.ok.inj (prepared.symm.trans prepared')
    rw [results, Auditor.sessionResults_of_session? held, chosen_eq prepared]
    exact Consensus.isCredited_of_aggregate distinct aggregated

end SourceAudit

namespace Auditor

open SourceAudit

variable {a : Auditor} {s s' : AuditorState} {now : Nat} {o : Occasion} {options : AuditOptions}

private theorem consult_fetches (a : Auditor) (o : Occasion) (source : String)
    (options : AuditOptions) (p : Preparation) (s : AuditorState) (n : Nat) :
    (consult a o source options p { s with fetches := n }).1 =
    (consult a o source options p s).1 := by
  simp only [consult]
  split
  · rfl
  split
  · rfl
  simp only [conclude]
  split
  · rfl
  split <;> rfl

/-- What is in a cache was there in a state before, or was added by an audit in that state. -/
def IsBrought (a : Auditor) (s : AuditorState) (cache : Option (Cache Aggregate)) : Prop :=
  ∀ c, cache = some c → ∀ e ∈ c.entries,
    (∃ before, s.cache = some before ∧ e ∈ before.entries) ∨ ∃ (y : SourceAudit) (lifetime : Nat),
      y.Adds a s lifetime e

theorem IsBrought.refl (a : Auditor) (s : AuditorState) : IsBrought a s s.cache :=
  fun c held _ member => .inl ⟨c, held, member⟩

private theorem isBrought_runSource (x : SourceAudit) (a : Auditor) (s : AuditorState) :
    IsBrought a s (a.runSource x.occasion x.source x.options s).2.cache := by
  intro c' after e member
  cases held : s.cache with
  | none =>
    rw [runSource_cache_none held] at after
    cases after
  | some c =>
    obtain ⟨c'', stepped, step⟩ := step_runSource (x := x) (a := a) held
    cases after.symm.trans stepped
    exact (step.origin e member).imp (fun old => ⟨c, rfl, old⟩) fun added => ⟨x, c.lifetime, added⟩

private theorem IsBrought.of_fetches {n : Nat} {cache : Option (Cache Aggregate)}
    (brought : IsBrought a { s with fetches := n } cache) : IsBrought a s cache := by
  intro c after e member
  refine (brought c after e member).imp_right ?_
  rintro ⟨y, lifetime, added⟩
  have view : y.view? a { s with fetches := n } = y.view? a s := by
    simp only [view?, consult_fetches]
  exact ⟨y, lifetime, added.key, added.missed, view ▸ added.view, added.full, added.expiry⟩

private theorem isBrought_runAddress (a : Auditor) (o : Occasion) (address chain : String)
    (options : AuditOptions) (s : AuditorState) :
    IsBrought a s (a.runAddress o address chain options s).2.cache := by
  rcases runAddress_cases a o address chain options s with
    ⟨-, -, n, state⟩ | ⟨source, size, -, run⟩
  · rw [state]
    exact .refl a s
  · rw [run]
    exact (isBrought_runSource ⟨o, source, { options with chain := some chain }⟩ a
      { s with fetches := s.fetches + 1 }).of_fetches

private theorem Audits.isBrought (audited : Audits a now s s') : IsBrought a s s'.cache := by
  cases audited with
  | source x =>
    rw [cache_run]
    exact isBrought_runSource x a s
  | address o address chain options =>
    rw [auditAddress, cache_finish]
    exact isBrought_runAddress a o address chain options s

private theorem Reachable.exists_adds (reached : Reachable a s) {c : Cache Aggregate}
    (held : s.cache = some c) {e : CacheEntry Aggregate} (member : e ∈ c.entries) :
    ∃ (y : SourceAudit) (s₀ : AuditorState) (lifetime : Nat), Reachable a s₀ ∧
      y.Adds a s₀ lifetime e := by
  induction reached generalizing c with
  | initial =>
    obtain ⟨ttl, -, rfl⟩ := Option.map_eq_some_iff.mp held
    cases member
  | @audit now s s' before audited ih =>
    obtain ⟨c, held, old⟩ | ⟨y, lifetime, added⟩ := audited.isBrought _ held e member
    · exact ih held old
    · exact ⟨y, s, lifetime, before, added⟩

private theorem Reachable.exists_earlier (reached : Reachable a s) {x : SourceAudit}
    {view : Aggregate} (served : x.served? a s = some view) :
    ∃ (y : SourceAudit) (s₀ : AuditorState), Reachable a s₀ ∧ y.served? a s₀ = none ∧
      y.view? a s₀ = some view ∧
      (y.request? a).map PanelRequest.key = (x.request? a).map PanelRequest.key := by
  obtain ⟨q, asked⟩ := exists_request?_of_served? served
  obtain ⟨p, prepared, -⟩ := exists_of_request? asked
  have found := (cachedView?_eq prepared).symm.trans served
  obtain ⟨c, held, got⟩ := Option.bind_eq_some_iff.mp found
  obtain ⟨e, first, rfl⟩ := Option.map_eq_some_iff.mp got
  obtain ⟨y, s₀, lifetime, before, added⟩ :=
    reached.exists_adds held (List.mem_of_find?_eq_some first)
  have key : e.key = p.key := by
    have matched := List.find?_some first
    simp only [Bool.and_eq_true, beq_iff_eq] at matched
    exact matched.1
  exact ⟨y, s₀, before, added.missed, added.view, by rw [added.key, key_request? prepared, key]⟩

private theorem isConsistent_completedReport (settings : Settings) (o : Occasion)
    (options : AuditOptions) (p : Preparation)
    (view : Aggregate) (elapsed : Nat) :
    (completedReport settings o options p view elapsed).IsConsistent where
  keys_nodup :=
    ((finalFindings_perm view _).map Finding.key).symm.nodup (Consensus.merged_keys_nodup _)
  sorted := Consensus.sortFindings_pairwise (Consensus.merged_keys_nodup _)
  counts := SeverityCounts.of_ofFindings _
  total := SeverityCounts.total_ofFindings _
  critical := by
    rintro ⟨f, member, critical⟩
    exact riskLevel_eq_critical member critical

private theorem chosen_eq_of_keysApart {x y : SourceAudit} {p : Preparation}
    (apart : KeysApart a y x) (prepared : prepare a.settings x.source x.options = .ok p)
    (key : (y.request? a).map PanelRequest.key = (x.request? a).map PanelRequest.key) :
    y.chosen a = x.chosen a := by
  rw [request?_eq prepared, Option.map_some] at key
  obtain ⟨q, asked, key⟩ := Option.map_eq_some_iff.mp key
  have same := apart q _ asked (request?_eq prepared) key
  obtain ⟨p', prepared', rfl⟩ := exists_of_request? asked
  rw [chosen_eq prepared', chosen_eq prepared]
  exact same.reviewers

/-- A completed report agrees with itself, and it credits the reviewers of the session that its view
was taken from. Those are the ones chosen for the audit unless different requests have one key. -/
theorem completed_isConsistent (a : Auditor) (x : SourceAudit) (s : AuditorState) (r : AuditReport)
    (reached : Reachable a s) (completed : (x.run a s).1 = .ok r) :
    r.IsConsistent ∧ ∃ y s₀, TakenFrom a x s y s₀ ∧
      IsCredited (y.chosen a) (y.results a s₀) r.contributions ∧
      (KeysApart a y x → y.chosen a = x.chosen a) := by
  obtain ⟨p, view, elapsed, prepared, taken, rfl⟩ := exists_view_of_completed completed
  refine ⟨isConsistent_completedReport _ _ _ _ _ _, ?_⟩
  cases served : x.served? a s with
  | none => exact ⟨x, s, .own served, isCredited_of_missed served taken, fun _ => rfl⟩
  | some kept =>
    obtain rfl : kept = view := by simpa [taken] using (run_of_served? served).1.symm
    obtain ⟨y, s₀, before, missed, made, key⟩ := reached.exists_earlier served
    exact ⟨y, s₀, .earlier served before missed made key, isCredited_of_missed missed made,
      fun apart => chosen_eq_of_keysApart apart prepared key⟩

private theorem exists_served_of_key_eq {x y : SourceAudit} {ttl : Nat}
    (caching : a.settings.cacheTtl = some ttl) (fresh : Fresh a [y, x])
    (timely : a.IsTimely y.occasion) {q q' : PanelRequest}
    (asked : y.request? a = some q) (asked' : x.request? a = some q') (key : q.key = q'.key)
    (answered : isFullyAnswered a y.occasion y.source y.options .none) :
    ∃ view r, y.served? a (.initial a.settings) = none ∧
      y.view? a (.initial a.settings) = some view ∧
        x.served? a (a.stateAfter [y]) = some view ∧ (x.run a (a.stateAfter [y])).1 = .ok r ∧
          r.contributions = view.contributions := by
  have missed : y.served? a (.initial a.settings) = none := cachedView?_initial _ _ _ _
  obtain ⟨_, view, -, taken, full⟩ := completesFully_of_isFullyAnswered
    (s := .initial a.settings) answered missed timely fun _ => lifetime_initial
  have both : Fresh a ([y] ++ [x]) := fresh
  have first : y.view? a (a.stateAfter []) = some view := taken
  have single : Fresh a ([] ++ [y]) := (fresh_concat.mp both).1
  obtain ⟨e, member, stored, rfl⟩ := exists_mem_of_view? caching single asked first full
  have served := served?_of_mem caching both asked' member (stored.trans key)
  obtain ⟨p, prepared, -⟩ := exists_of_request? asked'
  obtain ⟨elapsed, completed⟩ := run_of_view? prepared (run_of_served? served).1
  exact ⟨_, _, missed, taken, served, completed, rfl⟩

theorem uncapitalized_isConsistent :
    ∃ r y s₀, Reachable thrifty (thrifty.stateAfter [capitalized]) ∧
      (uncapitalized.run thrifty (thrifty.stateAfter [capitalized])).1 = .ok r ∧ r.IsConsistent ∧
        (uncapitalized.served? thrifty (thrifty.stateAfter [capitalized])).isSome ∧
          TakenFrom thrifty uncapitalized (thrifty.stateAfter [capitalized]) y s₀ ∧
            IsCredited (y.chosen thrifty) (y.results thrifty s₀) r.contributions := by
  have valid : (capitalized.request? thrifty).isSome := by
    decide
  obtain ⟨q, asked⟩ := Option.isSome_iff_exists.mp valid
  have alike : AsksSame thrifty capitalized uncapitalized :=
    asksSame_respelled asked ⟨"2", default⟩ (by decide)
  obtain ⟨_, q', asked₁, asked', same⟩ := alike
  obtain rfl := Option.some.inj (asked.symm.trans asked₁)
  have caching : thrifty.settings.cacheTtl = some 3600000 := rfl
  have fresh : Fresh thrifty [capitalized, uncapitalized] := fresh_of_pairwise caching (by decide)
  obtain ⟨view, r, -, -, served, completed, -⟩ :=
    exists_served_of_key_eq (x := uncapitalized) caching fresh (by decide) asked asked'
      same.key_eq (by decide +kernel)
  have reached := reachable_stateAfter thrifty [capitalized]
  obtain ⟨consistent, y, s₀, from_, credited, -⟩ :=
    completed_isConsistent thrifty uncapitalized _ r reached completed
  exact ⟨r, y, s₀, reached, completed, consistent, by rw [served]; rfl, from_, credited⟩

/-- An audit of a contract by one reviewer, with null characters in the chain. -/
def imitated : SourceAudit :=
  ⟨⟨"1", default⟩, "contract A \x7b\x7d",
    ⟨some "x\x00quality,\x00fast\x00", .fast, some ["security"]⟩⟩

/-- An audit by another reviewer, of a source that goes on with the end of that chain. -/
def imitator : SourceAudit :=
  ⟨⟨"2", default⟩, "contract A \x7b\x7d\x00security,\x00fast\x00\x01x",
    ⟨none, .fast, some ["quality"]⟩⟩

/-- A report that credits a reviewer who was not chosen, and not the one who was. -/
theorem imitator_is_miscredited :
    ∃ r, (imitator.run thrifty (thrifty.stateAfter [imitated])).1 = .ok r ∧
      imitator.chosen thrifty = [.quality] ∧ r.contributions.map (·.1) = ["security"] := by
  have chosen : imitated.chosen thrifty = [.security] := by
    decide +kernel
  have chosen' : imitator.chosen thrifty = [.quality] := by
    decide +kernel
  have valid : (imitated.request? thrifty).isSome ∧ (imitator.request? thrifty).isSome := by
    decide
  obtain ⟨q, asked⟩ := Option.isSome_iff_exists.mp valid.1
  obtain ⟨q', asked'⟩ := Option.isSome_iff_exists.mp valid.2
  have key : q.key = q'.key := by
    obtain ⟨p, prepared, rfl⟩ := exists_of_request? asked
    obtain ⟨p', prepared', rfl⟩ := exists_of_request? asked'
    rw [← chosen_eq prepared, ← chosen_eq prepared', chosen, chosen', PanelRequest.key_eq,
      PanelRequest.key_eq]
    have text :
      (⟨imitated.source, [.security], imitated.options.mode, imitated.options.chain⟩ :
        PanelRequest).keyText =
        (⟨imitator.source, [.quality], imitator.options.mode, imitator.options.chain⟩ :
          PanelRequest).keyText := by
      decide
    rw [text]
  have caching : thrifty.settings.cacheTtl = some 3600000 := rfl
  have fresh : Fresh thrifty [imitated, imitator] := fresh_of_pairwise caching (by decide)
  obtain ⟨view, r, missed, taken, -, completed, contributions⟩ :=
    exists_served_of_key_eq (x := imitator) caching fresh (by decide) asked asked' key
      (by decide +kernel)
  have credited := isCredited_of_missed missed taken
  refine ⟨r, completed, chosen', ?_⟩
  rw [contributions]
  have names := credited.names
  rw [chosen] at names
  exact List.perm_singleton.mp names

end Auditor

end AuditPanel
