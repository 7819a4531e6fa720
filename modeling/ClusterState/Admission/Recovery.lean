import ClusterState.Admission.Coordination

/-! # The recovery pod follows the discipline

The snapshot a recovery pod decides on is older than its seal, and the state
it decides about is read after it. What makes the two fit is `AfterSeal`: a
state that the pods of the snapshot cannot have moved on from.
-/

namespace ClusterState.Admission

open Concurrency

section

variable {d : Deployment} {sha256 : String → String} {i : Identity} {c : Cluster} {store : Store}

/-! ## Retirement evidence -/

theorem workerRetired_eq_ok {snapshot : List Pod} {op : Operation}
    (h : workerRetired snapshot op true = .ok true) (hclaimed : op.claimed = true) {w : Identity}
    (hw : op.worker = some w) : terminal snapshot w = .ok true := by
  simpa [workerRetired, hclaimed, hw] using h

theorem quiescent_eq_ok {snapshot : List Pod} {op : Operation}
    (h : quiescent snapshot op = .ok true) :
    terminal snapshot op.coordinator = .ok true ∧ workerRetired snapshot op true = .ok true ∧
      ∀ k, op.holder = some k → terminal snapshot k = .ok true := by
  obtain ⟨coord, hcoord, h⟩ := Data.bind_eq_ok.mp h
  cases coord with
  | false => cases h
  | true =>
    obtain ⟨worker, hworker, h⟩ := Data.bind_eq_ok.mp h
    cases worker with
    | false => cases h
    | true =>
      refine ⟨hcoord, hworker, fun k hk => ?_⟩
      simpa [hk] using h

theorem restoreOutcome_text {snapshot : List Pod} {op : Operation} {outcome : String}
    (hop : text op.outcome = true) (h : restoreOutcome op snapshot = .ok outcome) :
    text outcome = true := by
  unfold restoreOutcome at h
  split at h
  · split at h
    · cases h
    · split at h
      · cases h
      · cases h
        split <;> decide
  · split at h
    · cases h
      decide
    · split at h
      · cases h
        decide
      · cases h
        exact hop

theorem only_stillOpen (snapshot : List Pod) (phase : Phase) (op : Operation) :
    (stillOpen snapshot phase op).Only Request.Observes := by
  have hdrain : (stillOpen snapshot .draining op).Only Request.Observes := by
    refine Program.Only.bind (only_call trivial) fun t => ?_
    split
    · exact Program.Only.bind (only_lift _) fun _ => trivial
    · trivial
  have hcleanup : (stillOpen snapshot .claimed op).Only Request.Observes := by
    refine Program.Only.bind (only_call trivial) fun t => ?_
    split
    · exact Program.Only.bind (only_lift _) fun _ => trivial
    · trivial
  cases phase with
  | pauseIntent => exact hdrain
  | draining => exact hdrain
  | admitted => exact hcleanup
  | claimed => exact hcleanup
  | _ => trivial

theorem Fresh.reread {read : ConfigMap × State} (h : Fresh d sha256 i store .again read c) :
    Reread i c.state c.log := by
  obtain ⟨pre, hlog⟩ := h.event
  refine ⟨read.1, by rw [h.cm]; rfl, ?_⟩
  rw [hlog]
  exact List.mem_cons_self

/-! ## The restoration -/

theorem stable_restores {o : Operation} {J : Cluster → Prop}
    (hJ : (discipline d sha256).Stable i J) :
    (discipline d sha256).Stable i (fun c => J c ∧ (i ∉ c.retired → Restores i o c.state)) :=
  stable_state hJ (fun _ _ _ _ hinv hj _ _ hcommit hrestores =>
    hcommit.restores hinv.current hj hrestores)

theorem meets_restoreRunner {o : Operation} {s : State} (hbase : o.baseline = false)
    (hs : s.operation = some o) (hphase : s.phase = .restoring) (hwrite : o.write = .restore)
    (hholder : o.holder = some i) (hlic : Licensed d i c) (hput : NoPut i c.log)
    (hsaved : Saved i s c.log) (hack : PauseAcked o c.log)
    (hrestores : i ∉ c.retired → Restores i o c.state) :
    (discipline d sha256).Meets i (fun _ c' => Licensed d i c') (fun _ _ => True)
      (restoreRunner sha256 store o) c := by
  have hstable : (discipline d sha256).Stable i
      (fun c' => Licensed d i c' ∧ (i ∉ c'.retired → Restores i o c'.state)) :=
    stable_restores stable_licensed
  refine .tryCatch (F := fun _ c' => Licensed d i c' ∧ (i ∉ c'.retired → Restores i o c'.state))
    ?_ ?_
  · rw [hbase]
    refine .bind (Q := fun _ c' => Licensed d i c' ∧ (i ∉ c'.retired → Restores i o c'.state)) ?_
      fun _ c₂ h₂ => ?_
    · intro c₁ hrely _
      have hc := extends_of_rely hrely
      have hlic₁ : Licensed d i c₁ := hlic.mono hc
      have hrestores₁ := (hstable.rely hrely ⟨hlic, hrestores⟩).2
      refine ⟨fun halive => ⟨stable_noPut.rely hrely hput,
        ⟨hack.mono hc.log, s, hsaved.mono hc.log, hs, hphase, hwrite, hholder⟩,
        fun _ => hrestores₁ halive, hlic₁⟩, fun x c₂ hp => ?_⟩
      have hlic₂ : Licensed d i c₂ := hlic₁.mono hp.extends
      cases hp with
      | answers _ _ u halive hx => exact ⟨hlic₂, hrestores₁⟩
      | fails _ _ e halive => exact ⟨hlic₂, hrestores₁⟩
    · refine meets_runner_bind hstable ?_ h₂ (fun _ _ h => h) fun paused c₃ h₃ => ?_
      · rintro c' x ⟨hlic', hrestores'⟩
        exact ⟨hlic'.mono (Cluster.extends_record c' i _ x), hrestores'⟩
      · exact meets_lift (fun _ _ => h₃.1) (fun _ _ => h₃)
  · rintro e c₁ h₁
    refine .bind (meets_read hstable h₁ (fun _ _ _ => trivial)) ?_
    rintro ⟨cm, state⟩ c₂ ⟨⟨hlic₂, hrestores₂⟩, hread⟩
    obtain rfl : state = c₂.state := hread.state
    obtain ⟨op, hop, _, hholder₂, _⟩ := hrestores₂ hread.alive
    refine meets_lift_bind (fun _ => trivial) fun op' hop' => ?_
    obtain rfl : op = op' := by simpa [hop] using theOperation_eq_ok.mp hop'
    exact meets_alert hread (.start hlic₂)
      (.latchUnknown op "unknown-restore-write" hop (by decide) (.inr hholder₂))
      (fun _ _ _ => trivial)

theorem meets_restore {snapshot : List Pod} {read : ConfigMap × State} {op : Operation}
    {c₀ : Cluster} (hread : Fresh d sha256 i store .again read c₀) (hc : Since d i c₀ c)
    (hi : i.Valid controlNamespace) (hput : NoPut i c.log) (hlisted : Listed i snapshot c)
    (hop : c₀.state.operation = some op) (hquiet : quiescent snapshot op = .ok true)
    (hphase : c₀.state.phase = .closing ∨ c₀.state.phase = .alert) (hwrite : op.write = .none) :
    (discipline d sha256).Meets i (fun _ _ => True) (fun _ _ => True)
      (restore sha256 store i snapshot read.1 read.2 op) c := by
  obtain ⟨hcoord, hworker, _⟩ := quiescent_eq_ok hquiet
  have hwell := (hread.inv.current.valid.operation op hop).1
  have hstate := hread.state
  obtain ⟨cm, state⟩ := read
  obtain rfl : state = c₀.state := hstate
  refine meets_lift_bind (fun _ => trivial) fun outcome houtcome => ?_
  have hcommit : Commit sha256 c i c₀.state { c₀.state with
      phase := .restoring
      operation := some { op with outcome := outcome, holder := some i, write := .restore } } :=
    .restore op outcome hop hphase hwrite (hlisted.terminal hcoord).1
      (fun hclaimed w hw => (hlisted.terminal (workerRetired_eq_ok hworker hclaimed hw)).1)
      (restoreOutcome_text hwell.outcome houtcome) hi (fun _ => hread.reread.mono hc.moved.log)
  refine .bind (meets_save hread hc hcommit (fun _ _ _ => trivial)) ?_
  rintro observed c₁ ⟨_, hstate₁, _, hinv₁, hc₁, hsaved⟩
  have hop₁ : c₁.state.operation =
      some { op with outcome := outcome, holder := some i, write := .restore } := by rw [hstate₁]
  have hack := (hinv₁.current.operation _ hop₁).acked (.inr rfl)
  refine .bind (meets_restoreRunner hwell.baseline rfl rfl rfl rfl hc₁.licensed (hc₁.noPut hput)
    hsaved hack (fun _ => ⟨_, hop₁, rfl, rfl, by simp⟩)) fun _ c₂ hlic₂ => ?_
  refine .bind (meets_read stable_licensed hlic₂ (fun _ _ _ => trivial)) ?_
  rintro ⟨cm', state⟩ c₃ ⟨hlic₃, hread₃⟩
  obtain rfl : state = c₃.state := hread₃.state
  refine meets_require_bind (fun _ => trivial) fun hphase₃ => ?_
  refine meets_lift_bind (fun _ => trivial) fun op₃ hop₃ => ?_
  refine meets_require_bind (fun _ => trivial) fun hholder₃ => ?_
  have hcommit₃ : Commit sha256 c₃ i c₃.state { c₃.state with
      phase := .done
      operation := some { op₃ with write := .none, restored := true } } :=
    .finish op₃ (theOperation_eq_ok.mp hop₃) (beq_iff_eq.mp hphase₃) (beq_iff_eq.mp hholder₃)
  exact .bind (meets_save hread₃ (.start hlic₃) hcommit₃ (fun _ _ _ => trivial))
    (fun _ _ _ => trivial)

theorem meets_restoreIfQuiescent {snapshot : List Pod} {read : ConfigMap × State} {c₀ : Cluster}
    (hread : Fresh d sha256 i store .again read c₀) (hc : Since d i c₀ c)
    (hi : i.Valid controlNamespace) (hput : NoPut i c.log) (hlisted : Listed i snapshot c)
    (hsealed : ∀ op, c₀.state.operation = some op → quiescent snapshot op = .ok true →
      op.write = .none → c₀.state.phase = .closing ∨ c₀.state.phase = .alert) :
    (discipline d sha256).Meets i (fun _ _ => True) (fun _ _ => True)
      (restoreIfQuiescent sha256 store i snapshot read.1 read.2) c := by
  refine meets_lift_bind (fun _ => trivial) fun op hop => ?_
  have hop : c₀.state.operation = some op := by
    rw [← hread.state]
    exact theOperation_eq_ok.mp hop
  refine meets_lift_bind (fun _ => trivial) fun quiet hquiet => ?_
  cases quiet with
  | false => trivial
  | true =>
    change Discipline.Meets _ _ _ _ (if op.write != .none then _ else _) c
    split
    · exact meets_latch hread hc (by decide) (fun _ _ _ => trivial)
    · rename_i hwrite
      have hwrite : op.write = .none := by simpa using hwrite
      exact meets_restore hread hc hi hput hlisted hop hquiet (hsealed op hop hquiet hwrite) hwrite

/-! ## The seal -/

/-- Since a seal that came after the snapshot, only pods that were not retired
in the snapshot have committed. -/
theorem stable_afterSeal (c₀ : Cluster) : (discipline d sha256).Stable i
    (fun c => Since d i c₀ c ∧ (i ∉ c.retired → AfterSeal (· ∈ c₀.retired) c.state)) :=
  stable_state (stable_since c₀) (fun _ _ _ hc _ _ hj _ hcommit hseal =>
    hcommit.afterSeal (fun hgone => hj (hc.moved.retired hgone)) hseal)

theorem AfterSeal.phase_of_quiescent {snapshot : List Pod} {c₀ : Cluster} {s : State}
    (h : AfterSeal (· ∈ c₀.retired) s) (hlisted : Listed i snapshot c₀) {op : Operation}
    (hop : s.operation = some op) (hquiet : quiescent snapshot op = .ok true) :
    s.phase = .closing ∨ s.phase = .alert := by
  obtain ⟨hcoord, _, hholder⟩ := quiescent_eq_ok hquiet
  obtain ⟨op', hop', hcases⟩ := h
  obtain rfl : op = op' := by simpa [hop] using hop'
  rcases hcases with hgone | hclosing | halert | ⟨k, hk, hgone⟩
  · exact absurd (hlisted.terminal hcoord).1 hgone
  · exact .inl hclosing
  · exact .inr halert
  · exact absurd (hlisted.terminal (hholder k hk)).1 hgone

theorem meets_closeOperation {read : ConfigMap × State}
    (hread : Fresh d sha256 i store .again read c) (hi : i.Valid controlNamespace)
    (hlic : Licensed d i c) (hput : NoPut i c.log) :
    (discipline d sha256).Meets i (fun _ _ => True) (fun _ _ => True)
      (closeOperation sha256 store i read.1 read.2) c := by
  have hstate := hread.state
  obtain ⟨cm, state⟩ := read
  obtain rfl : state = c.state := hstate
  unfold closeOperation
  split
  · trivial
  rename_i hopen
  simp only [Bool.or_eq_true, beq_iff_eq, not_or] at hopen
  refine .bind (meets_snapshotAll (stable_since c) (.start hlic) (fun _ _ _ => trivial)) ?_
  rintro snapshot c₁ ⟨hc₁, hlisted⟩
  refine .bind (meets_now (stable_since c₁) (.start hc₁.licensed) (fun _ _ _ => trivial)) ?_
  rintro t c₂ ⟨hc₂, _, _⟩
  refine meets_lift_bind (fun _ => trivial) fun op hop => ?_
  have hop : c.state.operation = some op := theOperation_eq_ok.mp hop
  split
  · exact meets_latch hread (hc₁.trans hc₂) (by decide) (fun _ _ _ => trivial)
  refine .only_bind (stable_since c₁) (only_stillOpen _ _ _) hc₂ (fun _ _ _ => trivial)
    fun early c₃ hc₃ => ?_
  cases early with
  | true => trivial
  | false =>
    change Discipline.Meets _ _ _ _ (if c.state.phase != .restoring then _ else _) c₃
    split
    · rename_i hphase
      have hphase : c.state.phase ≠ .restoring := by simpa using hphase
      have hcommit : Commit sha256 c₃ i c.state { c.state with phase := .closing } :=
        .close op hop hopen.2 hphase (fun _ => hread.reread.mono (hc₁.trans hc₃).moved.log)
      refine .bind (meets_save hread (hc₁.trans hc₃) hcommit (fun _ _ _ => trivial)) ?_
      rintro observed c₄ ⟨_, hstate₄, _, _, hc₄, _⟩
      have hseal : AfterSeal (· ∈ c₁.retired) c₄.state := by
        rw [hstate₄]
        exact ⟨op, hop, .inr (.inl rfl)⟩
      refine .bind (meets_read (stable_afterSeal c₁) ⟨hc₃.trans hc₄, fun _ => hseal⟩
        (fun _ _ _ => trivial)) ?_
      rintro read₅ c₅ ⟨⟨hc₅, hseal₅⟩, hread₅⟩
      refine meets_restoreIfQuiescent hread₅ (.start hc₅.licensed) hi
        (hc₅.noPut (hc₁.noPut hput)) (hlisted.mono hc₅.moved) fun op₅ hop₅ hquiet _ => ?_
      exact (hseal₅ hread₅.alive).phase_of_quiescent hlisted hop₅ hquiet
    · rename_i hphase
      have hphase : c.state.phase = .restoring := by simpa using hphase
      refine meets_restoreIfQuiescent hread (hc₁.trans hc₃) hi (hc₃.noPut (hc₁.noPut hput))
        (hlisted.mono hc₃.moved) fun op' hop' _ hwrite => ?_
      -- a restoration that is under way has a write pending
      exact absurd hwrite (hread.inv.current.stage hop' hphase).1

/-! ## The whole run -/

theorem meets_retireGcAndClose {read : ConfigMap × State}
    (hread : Fresh d sha256 i store .again read c) (hi : i.Valid controlNamespace)
    (hlic : Licensed d i c) (hput : NoPut i c.log) :
    (discipline d sha256).Meets i (fun _ _ => True) (fun _ _ => True)
      (retireGcAndClose sha256 store i read.1 read.2) c := by
  have hstate := hread.state
  obtain ⟨cm, state⟩ := read
  obtain rfl : state = c.state := hstate
  unfold retireGcAndClose
  split
  · exact meets_closeOperation hread hi hlic hput
  refine .bind (meets_snapshotAll (stable_since c) (.start hlic) (fun _ _ _ => trivial)) ?_
  rintro snapshot c₁ ⟨hc₁, hlisted⟩
  refine meets_lift_bind (fun _ => trivial) fun ⟨retired, free⟩ hretire => ?_
  cases free with
  | false =>
    refine .bind (meets_now (stable_since c) hc₁ (fun _ _ _ => trivial)) ?_
    rintro t c₂ ⟨hc₂, _, _⟩
    split
    · exact meets_latch hread hc₂ (by decide) (fun _ _ _ => trivial)
    · trivial
  | true =>
    obtain ⟨rfl, _⟩ := retireGc_eq_ok hretire
    have hcommit : Commit sha256 c₁ i c.state { c.state with gcHolder := none } :=
      .retireGc (hlisted.gcGone hretire)
    refine .bind (meets_save hread hc₁ hcommit (fun _ _ _ => trivial)) ?_
    rintro observed c₂ ⟨_, _, _, _, hc₂, _⟩
    refine .bind (meets_read (stable_since c) (hc₁.trans hc₂) (fun _ _ _ => trivial)) ?_
    rintro read₃ c₃ ⟨hc₃, hread₃⟩
    exact meets_closeOperation hread₃ hi hc₃.licensed (hc₃.noPut hput)

theorem meets_recoveryReady {read : ConfigMap × State} {site : ReadSite}
    (hread : Fresh d sha256 i store site read c) (hlic : Licensed d i c) :
    (discipline d sha256).Meets i (fun _ => Since d i c) (fun _ _ => True)
      (recoveryReady sha256 store read.1 read.2) c := by
  refine .tryCatch (F := fun _ => Since d i c) ?_ fun e c₁ hc₁ => ?_
  · refine .only_bind (stable_since c) (only_call (by trivial)) (.start hlic) (fun _ _ h => h)
      fun t c₁ hc₁ => ?_
    refine meets_require_bind (fun _ => hc₁) fun _ => ?_
    exact meets_runner_bind (stable_since c) (fun _ _ h => h.record (by simp)) hc₁
      (fun _ _ h => h) (fun _ _ h => h)
  · split
    · exact meets_latch hread hc₁ (by decide) (fun _ _ _ => trivial)
    · trivial

theorem meets_recover (hi : i.Valid controlNamespace) (hlic : Licensed d i c)
    (hput : NoPut i c.log) :
    (discipline d sha256).Meets i (fun _ _ => True) (fun _ _ => True)
      (recover sha256 store i) c := by
  refine .bind (meets_read (stable_since c) (.start hlic) (fun _ _ _ => trivial)) ?_
  rintro ⟨cm, state⟩ c₁ ⟨hc₁, hread⟩
  obtain rfl : state = c₁.state := hread.state
  dsimp only
  split
  · trivial
  rename_i hphase
  have hphase : c₁.state.phase ≠ .alert := by simpa using hphase
  refine .bind (meets_recoveryReady hread hc₁.licensed) fun _ c₂ hc₂ => ?_
  refine .bind (meets_now (stable_since c₁) hc₂ (fun _ _ _ => trivial)) ?_
  rintro t c₃ ⟨hc₃, hinv₃, rfl⟩
  have hcommit : Commit sha256 c₃ i c₁.state { c₁.state with heartbeat := ⌊c₃.clock⌋ } :=
    .beat ⌊c₃.clock⌋ (Int.floor_nonneg.mpr hinv₃.clock) hphase
  refine .bind (meets_save hread hc₃ hcommit (fun _ _ _ => trivial)) ?_
  rintro observed c₄ ⟨_, _, _, _, hc₄, _⟩
  refine .bind (meets_read (stable_since c₁) (hc₃.trans hc₄) (fun _ _ _ => trivial)) ?_
  rintro read₅ c₅ ⟨hc₅, hread₅⟩
  exact meets_retireGcAndClose hread₅ hi hc₅.licensed (hc₅.noPut (hc₁.noPut hput))

end

end ClusterState.Admission
