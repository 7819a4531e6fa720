import ClusterState.Admission.Rules

/-! # The coordinator follows the discipline -/

namespace ClusterState.Admission

open Concurrency

section

variable {d : Deployment} {sha256 : String → String} {i : Identity} {c : Cluster} {store : Store}

theorem retireGc_eq_ok {state state' : State} {snapshot : List Pod}
    (h : retireGc state snapshot = .ok (state', true)) :
    state' = { state with gcHolder := none } ∧
      ∀ g, state.gcHolder = some g → terminal snapshot g.identity = .ok true := by
  unfold retireGc at h
  split at h
  · rename_i hnone
    cases h
    exact ⟨by rw [← hnone], by simp [hnone]⟩
  · rename_i gc hsome
    obtain ⟨gone, hgone, hret⟩ := Data.bind_eq_ok.mp h
    cases gone with
    | false => simp [pure, Except.pure] at hret
    | true =>
      simp only [pure, Except.pure, if_true, Except.ok.injEq, Prod.mk.injEq, and_true] at hret
      refine ⟨hret.symm, fun g hg => ?_⟩
      obtain rfl : gc = g := by simpa [hsome] using hg
      exact hgone

theorem Listed.gcGone {snapshot : List Pod} {state state' : State} (h : Listed i snapshot c)
    (hr : retireGc state snapshot = .ok (state', true)) : state.GcGone c i :=
  fun g hg => h.terminal ((retireGc_eq_ok hr).2 g hg)

/-! ## The drain loop -/

theorem meets_isWorker {own p : Pod} {slot : Int} {P : Cluster → Prop}
    (hP : (discipline d sha256).Stable i P) (hc : P c) :
    (discipline d sha256).Meets i
      (fun keep c' => P c' ∧ (keep = true → p.ns = workerNamespace))
      (fun _ _ => True) (isWorker own slot p) c := by
  unfold isWorker
  split
  · rename_i hns
    simp only [Bool.and_eq_true, beq_iff_eq] at hns
    refine meets_lift_bind (fun _ => trivial) fun _ _ => ?_
    refine meets_lift_bind (fun _ => trivial) fun _ _ => ?_
    split
    · split
      · refine .bind (meets_scheduled hP hc (fun _ _ _ => trivial)) ?_
        rintro _ c₁ ⟨hc₁, _⟩
        exact ⟨hc₁, fun _ => hns.1⟩
      · exact ⟨hc, by simp⟩
    · exact ⟨hc, by simp⟩
  · exact ⟨hc, by simp⟩

theorem meets_filterWorkers {own : Pod} {slot : Int} {snapshot : List Pod} {P : Cluster → Prop}
    (hP : (discipline d sha256).Stable i P) (hc : P c) :
    (discipline d sha256).Meets i
      (fun workers c' => P c' ∧ ∀ p ∈ workers, p ∈ snapshot ∧ p.ns = workerNamespace)
      (fun _ _ => True) (filterWorkers own slot snapshot) c := by
  induction snapshot generalizing c with
  | nil => exact ⟨hc, by simp⟩
  | cons p rest ih =>
    refine .bind (meets_isWorker hP hc) ?_
    rintro keep c₁ ⟨hc₁, hkeep⟩
    refine .bind (ih hc₁) ?_
    rintro others c₂ ⟨hc₂, hothers⟩
    refine ⟨hc₂, fun q hq => ?_⟩
    cases keep with
    | false =>
      obtain ⟨hmem, hns⟩ := hothers q hq
      exact ⟨List.mem_cons_of_mem p hmem, hns⟩
    | true =>
      rcases List.mem_cons.mp hq with rfl | hq
      · exact ⟨List.mem_cons_self, hkeep rfl⟩
      · obtain ⟨hmem, hns⟩ := hothers q hq
        exact ⟨List.mem_cons_of_mem p hmem, hns⟩

theorem meets_drainRound {own : Pod} {slot : Int} (hlic : Licensed d i c) :
    (discipline d sha256).Meets i (fun _ c' => Licensed d i c') (fun _ _ => True)
      (drainRound sha256 store i own slot) c := by
  refine .bind (meets_read stable_licensed hlic (fun _ _ _ => trivial)) ?_
  rintro ⟨cm, state⟩ c₁ ⟨hlic₁, hread⟩
  obtain rfl : state = c₁.state := hread.state
  refine meets_require_bind (fun _ => trivial) fun hphase => ?_
  refine meets_lift_bind (fun _ => trivial) fun op hop => ?_
  have hop : c₁.state.operation = some op := theOperation_eq_ok.mp hop
  refine meets_require_bind (fun _ => trivial) fun hcoord => ?_
  refine .bind (meets_snapshotAll (stable_since c₁) (.start hlic₁) (fun _ _ _ => trivial)) ?_
  rintro snapshot c₂ h₂
  refine meets_lift_bind (fun _ => trivial) fun ⟨state', free⟩ hretire => ?_
  cases free with
  | false => exact h₂.1.licensed
  | true =>
    obtain ⟨rfl, _⟩ := retireGc_eq_ok hretire
    have hP : (discipline d sha256).Stable i (fun c' => Since d i c₁ c' ∧ Listed i snapshot c') :=
      (stable_since c₁).and (stable_listed snapshot)
    refine meets_runner_bind hP (fun c x h => ⟨h.1.record (by simp),
      h.2.mono (Cluster.extends_record c i _ x)⟩) h₂ (fun _ _ _ => trivial) fun paused c₃ h₃ => ?_
    cases paused with
    | false => exact h₃.1.licensed
    | true =>
      refine .only_bind hP only_drained h₃ (fun _ _ _ => trivial) fun idle c₄ h₄ => ?_
      cases idle with
      | false => exact h₄.1.licensed
      | true =>
        refine meets_lift_bind (fun _ => trivial) fun free _ => ?_
        cases free with
        | false => exact h₄.1.licensed
        | true =>
          refine .bind (meets_filterWorkers hP h₄) ?_
          rintro workers c₅ ⟨⟨hc₅, hlisted⟩, hworkers⟩
          match workers with
          | [] => exact hc₅.licensed
          | [worker] =>
            obtain ⟨hmem, hns⟩ := hworkers worker (List.mem_singleton_self worker)
            refine meets_lift_bind (fun _ => trivial) fun op' hop' => ?_
            obtain rfl : op = op' := by simpa [hop] using theOperation_eq_ok.mp hop'
            refine meets_lift_bind (fun _ => trivial) fun ident hident => ?_
            have hvalid : ident.Valid workerNamespace :=
              hns ▸ hlisted.valid worker hmem (.inl hns) ident hident
            have hcommit : Commit sha256 c₅ i c₁.state { c₁.state with
                phase := .admitted
                operation := some { op with worker := some ident, outcome := "admitted" }
                gcHolder := none } :=
              .admission op ident hop (beq_iff_eq.mp hphase) (beq_iff_eq.mp hcoord)
                (hlisted.gcGone hretire) hvalid
            refine .bind (meets_save hread hc₅ hcommit (fun _ _ _ => trivial)) ?_
            rintro observed c₆ ⟨_, _, _, _, hc₆, _⟩
            exact hc₆.licensed
          | _ :: _ :: _ => trivial

theorem meets_drainLoop {own : Pod} {slot : Int} {fuel : Nat} (hlic : Licensed d i c) :
    (discipline d sha256).Meets i (fun _ c' => Licensed d i c') (fun _ _ => True)
      (drainLoop sha256 store i own slot fuel) c := by
  induction fuel generalizing c with
  | zero => trivial
  | succ fuel ih =>
    refine .only_bind stable_licensed (only_call (by trivial)) hlic (fun _ _ _ => trivial)
      fun t c₁ hlic₁ => ?_
    split
    · refine .bind (meets_drainRound hlic₁) fun admitted c₂ hlic₂ => ?_
      cases admitted with
      | true => exact hlic₂
      | false => exact ih hlic₂
    · exact hlic₁

theorem meets_drain {own : Pod} {slot : Int} {fuel : Nat} (hlic : Licensed d i c) :
    (discipline d sha256).Meets i (fun _ _ => True) (fun _ _ => True)
      (drain sha256 store i own slot fuel) c := by
  refine .bind (meets_drainLoop hlic) fun admitted c₁ hlic₁ => ?_
  cases admitted with
  | true => trivial
  | false =>
    refine .bind (meets_read stable_licensed hlic₁ (fun _ _ _ => trivial)) ?_
    rintro ⟨cm, state⟩ c₂ ⟨hlic₂, hread⟩
    obtain rfl : state = c₂.state := hread.state
    refine meets_require_bind (fun _ => trivial) fun hphase => ?_
    refine meets_lift_bind (fun _ => trivial) fun op hop => ?_
    have hcommit : Commit sha256 c₂ i c₂.state { c₂.state with
        phase := .closing
        operation := some { op with outcome := "drain-timeout" } } :=
      .timeout op (theOperation_eq_ok.mp hop) (beq_iff_eq.mp hphase)
    exact .bind (meets_save hread (.start hlic₂) hcommit (fun _ _ _ => trivial))
      (fun _ _ _ => trivial)

/-! ## The pause -/

theorem stable_active {o : Operation} (ho : o.coordinator = i) {J : Cluster → Prop}
    (hJ : (discipline d sha256).Stable i J) :
    (discipline d sha256).Stable i (fun c => J c ∧ (i ∉ c.retired → Active o c.state)) :=
  stable_state hJ (fun _ _ _ _ hinv _ _ hi hcommit hactive =>
    hcommit.active hinv.current (ho ▸ hi) hactive)

/-- The one pause attempt: it succeeds with its acknowledgement in the record,
or the alert is latched and nothing follows. -/
theorem meets_pauseRunner {o : Operation} {s : State} (ho : o.coordinator = i)
    (hs : s.operation = some o) (hphase : s.phase = .pauseIntent) (hwrite : o.write = .pause)
    (hlic : Licensed d i c) (hput : NoPut i c.log) (hsaved : Saved i s c.log)
    (hactive : i ∉ c.retired → Active o c.state) :
    (discipline d sha256).Meets i
      (fun _ c' => (Licensed d i c' ∧ PauseAcked o c'.log) ∧ (i ∉ c'.retired → Active o c'.state))
      (fun _ _ => True) (pauseRunner sha256 store o) c := by
  have hstable : (discipline d sha256).Stable i
      (fun c' => Licensed d i c' ∧ (i ∉ c'.retired → Active o c'.state)) :=
    stable_active ho stable_licensed
  refine .tryCatch (F := fun _ c' => Licensed d i c' ∧ (i ∉ c'.retired → Active o c'.state)) ?_ ?_
  · refine .bind (Q := fun _ c' => (Licensed d i c' ∧ ⟨i, .putRunner o true, .ok ()⟩ ∈ c'.log) ∧
      (i ∉ c'.retired → Active o c'.state)) ?_ fun _ c₂ h₂ => ?_
    · intro c₁ hrely _
      have hc := extends_of_rely hrely
      have hlic₁ : Licensed d i c₁ := hlic.mono hc
      have hactive₁ := (hstable.rely hrely ⟨hlic, hactive⟩).2
      refine ⟨fun _ => ⟨stable_noPut.rely hrely hput,
        ⟨s, hsaved.mono hc.log, hs, hphase, hwrite, ho⟩, by simp, hlic₁⟩, fun x c₂ hp => ?_⟩
      have hlic₂ : Licensed d i c₂ := hlic₁.mono hp.extends
      cases hp with
      | answers _ _ u halive hx => exact ⟨⟨hlic₂, List.mem_cons_self⟩, hactive₁⟩
      | fails _ _ e halive => exact ⟨hlic₂, hactive₁⟩
    · have hstable₂ : (discipline d sha256).Stable i (fun c' =>
          (Licensed d i c' ∧ ⟨i, .putRunner o true, .ok ()⟩ ∈ c'.log) ∧
            (i ∉ c'.retired → Active o c'.state)) :=
        stable_active ho (stable_licensed.and (stable_of_mono (fun _ _ hc h => hc.log.subset h)))
      refine .bind (Q := fun paused c' => (Licensed d i c' ∧ (paused = true → PauseAcked o c'.log)) ∧
        (i ∉ c'.retired → Active o c'.state)) ?_ ?_
      · apply meets_runner hstable₂ h₂
        · rintro e c₃ x ⟨⟨hlic₃, _⟩, hactive₃⟩
          exact ⟨hlic₃.mono (Cluster.extends_record c₃ i _ x), hactive₃⟩
        · rintro paused c₃ value ⟨⟨hlic₃, hmem⟩, hactive₃⟩ _ _ hvalue
          refine ⟨⟨hlic₃.mono (Cluster.extends_record c₃ i _ _), ?_⟩, hactive₃⟩
          rintro rfl
          refine ⟨o, value, rfl, hvalue, ?_⟩
          rw [ho]
          exact List.Sublist.cons_cons _ (List.singleton_sublist.mpr hmem)
      · rintro paused c₃ ⟨⟨hlic₃, hack⟩, hactive₃⟩
        refine meets_lift (fun _ h => ?_) (fun _ _ => ⟨hlic₃, hactive₃⟩)
        exact ⟨⟨hlic₃, hack (require_eq_ok.mp h)⟩, hactive₃⟩
  · rintro e c₁ h₁
    refine .bind (meets_read hstable h₁ (fun _ _ _ => trivial)) ?_
    rintro ⟨cm, state⟩ c₂ ⟨⟨hlic₂, hactive₂⟩, hread⟩
    obtain rfl : state = c₂.state := hread.state
    obtain ⟨op, hop, hkey, _⟩ := hactive₂ hread.alive
    refine meets_lift_bind (fun _ => trivial) fun op' hop' => ?_
    obtain rfl : op = op' := by simpa [hop] using theOperation_eq_ok.mp hop'
    have hcoord : op.coordinator = i := (Operation.coordinator_of_key hkey).trans ho
    exact meets_alert hread (.start hlic₂)
      (.latchUnknown op "unknown-pause-write" hop (by decide) (.inl hcoord)) (fun _ _ _ => trivial)

theorem meets_pauseAndDrain {own : Pod} {slot : Int} {fuel : Nat} {site : ReadSite}
    {read : ConfigMap × State} {c₀ : Cluster} (hread : Fresh d sha256 i store site read c₀)
    (hc : Since d i c₀ c) (hput : NoPut i c.log) (hi : i.Valid controlNamespace)
    (hphase : read.2.phase = .idle ∨ read.2.phase = .done) (hslot : slot % 3600 = 47 * 60)
    (hold : ∀ old, read.2.operation = some old → old.slot < slot) :
    (discipline d sha256).Meets i (fun _ _ => True) (fun _ _ => True)
      (pauseAndDrain sha256 store i own slot read.1 read.2 fuel) c := by
  have hstate := hread.state
  have hpolicy := hread.policy
  obtain ⟨cm, state⟩ := read
  obtain rfl : state = c₀.state := hstate
  have hcommit : Commit sha256 c i c₀.state { c₀.state with
      operation := some (newOperation sha256 slot i store.policy), phase := .pauseIntent } := by
    rw [← hpolicy]
    exact .intend slot hphase hslot hold hi
  refine .bind (meets_save hread hc hcommit (fun _ _ _ => trivial)) ?_
  rintro observed c₁ ⟨_, hstate₁, _, _, hc₁, hsaved⟩
  have hactive : Active (newOperation sha256 slot i store.policy) c₁.state := by
    rw [hstate₁]
    exact ⟨_, rfl, rfl, rfl, rfl⟩
  refine .bind (meets_pauseRunner rfl rfl rfl rfl hc₁.licensed (hc₁.noPut hput) hsaved
    (fun _ => hactive)) fun _ c₂ h₂ => ?_
  have ho : (newOperation sha256 slot i store.policy).coordinator = i := rfl
  have hstable : (discipline d sha256).Stable i (fun c' => (Licensed d i c' ∧
      PauseAcked (newOperation sha256 slot i store.policy) c'.log) ∧
      (i ∉ c'.retired → Active (newOperation sha256 slot i store.policy) c'.state)) :=
    stable_active ho
      (stable_licensed.and (stable_of_mono (fun _ _ hc h => PauseAcked.mono h hc.log)))
  refine .bind (meets_read hstable h₂ (fun _ _ _ => trivial)) ?_
  rintro ⟨cm', state⟩ c₃ ⟨⟨⟨hlic₃, hack⟩, hactive₃⟩, hread₃⟩
  obtain rfl : state = c₃.state := hread₃.state
  refine meets_require_bind (fun _ => trivial) fun hphase₃ => ?_
  refine meets_lift_bind (fun _ => trivial) fun op hop => ?_
  refine meets_require_bind (fun _ => trivial) fun hcoord => ?_
  obtain ⟨op', hop', hkey, _⟩ := hactive₃ hread₃.alive
  have hop : c₃.state.operation = some op := theOperation_eq_ok.mp hop
  obtain rfl : op = op' := by simpa [hop] using hop'
  have hcommit₃ : Commit sha256 c₃ i c₃.state { c₃.state with
      phase := .draining
      operation := some { op with write := .none } } :=
    .acknowledge op hop (beq_iff_eq.mp hphase₃) (beq_iff_eq.mp hcoord) (hack.congr hkey.symm)
  refine .bind (meets_save hread₃ (.start hlic₃) hcommit₃ (fun _ _ _ => trivial)) ?_
  rintro observed c₄ ⟨_, _, _, _, hc₄, _⟩
  exact meets_drain hc₄.licensed

/-! ## The whole run -/

def Untouched (i : Identity) (log : List Event) : Prop :=
  NoPut i log ∧ log.filterMap (Event.reading i) = []

theorem Untouched.cons {log : List Event} {e : Event} (h : Untouched i log)
    (hput : e.who = i → ∀ o paused, e.request ≠ .putRunner o paused)
    (hget : e.who = i → e.request ≠ .getRunner) : Untouched i (e :: log) := by
  refine ⟨h.1.cons hput, ?_⟩
  rw [List.filterMap_cons, h.2]
  obtain ⟨who, r, x⟩ := e
  cases r with
  | getRunner =>
    have hwho : who ≠ i := fun heq => hget heq rfl
    simp [Event.reading, hwho]
  | _ => rfl

theorem stable_untouched : (discipline d sha256).Stable i (fun c => Untouched i c.log) := by
  rintro c c' ⟨_, hdrifts | ⟨j, r, x, hj, _, hp⟩⟩ hc
  · cases hdrifts <;> exact hc
  · have hquiet : j = i → r.Observes := fun hji => hj.resolve_left (fun h => h hji)
    have hput : j = i → ∀ o paused, r ≠ .putRunner o paused :=
      fun hji => observes_ne_put (hquiet hji)
    have hget : j = i → r ≠ .getRunner := by
      rintro hji rfl
      exact hquiet hji
    cases hp with
    | answers c r x halive hx => exact hc.cons hput hget
    | fails c r e halive => exact hc.cons hput hget
    | commits c desired x halive hcurrent => exact hc.cons hput hget

theorem Untouched.unpaused {value : RunnerValue} (h : Untouched i c.log)
    (hvalue : runnerOf value = .ok false) :
    Unpaused i (c.record i .getRunner (.ok value)).log := by
  have hreading : Event.reading i ⟨i, .getRunner, .ok value⟩ = some (.ok value) := if_pos rfl
  refine ⟨value, ?_, hvalue⟩
  rw [baseline, Cluster.record, List.filterMap_cons_some hreading, h.2]
  rfl

theorem previousRetired_eq_ok {snapshot : List Pod} {slot : Int} {operation : Option Operation}
    (h : previousRetired snapshot slot operation = .ok ()) {old : Operation}
    (hold : operation = some old) : old.slot < slot := by
  subst hold
  rw [previousRetired, require_bind_eq_ok] at h
  exact of_decide_eq_true h.1

theorem meets_coordinate {fuel : Nat} (hi : i.Valid controlNamespace) (hc : Untouched i c.log) :
    (discipline d sha256).Meets i (fun _ _ => True) (fun _ _ => True)
      (coordinate sha256 store i fuel) c := by
  refine .only_bind stable_untouched only_snapshotAll hc (fun _ _ _ => trivial)
    fun snapshot c₁ h₁ => ?_
  split
  · trivial
  rename_i own _
  refine meets_lift_bind (fun _ => trivial) fun _ _ => ?_
  refine meets_require_bind (fun _ => trivial) fun _ => ?_
  refine .bind (meets_scheduled stable_untouched h₁ (fun _ _ _ => trivial)) ?_
  rintro slot c₂ ⟨h₂, hslot⟩
  refine .only_bind stable_untouched (only_call (by trivial)) h₂ (fun _ _ _ => trivial)
    fun t c₃ h₃ => ?_
  refine meets_require_bind (fun _ => trivial) fun _ => ?_
  refine .bind (meets_read stable_untouched h₃ (fun _ _ _ => trivial)) ?_
  rintro ⟨cm, state⟩ c₄ ⟨h₄, hread⟩
  refine meets_require_bind (fun _ => trivial) fun hphase => ?_
  have hP : (discipline d sha256).Stable i (fun c' => c₄.Extends c' ∧ Untouched i c'.log) :=
    (stable_extends c₄).and stable_untouched
  refine .only_bind hP (only_call (by trivial)) ⟨.refl c₄, h₄⟩ (fun _ _ _ => trivial)
    fun t₅ c₅ h₅ => ?_
  refine meets_require_bind (fun _ => trivial) fun _ => ?_
  refine .only_bind hP (only_call (by trivial)) h₅ (fun _ _ _ => trivial) fun t₆ c₆ h₆ => ?_
  refine meets_require_bind (fun _ => trivial) fun _ => ?_
  refine meets_lift_bind (fun _ => trivial) fun _ hprevious => ?_
  refine .bind (meets_runner hP h₆ (fun _ _ _ _ => trivial) (Q := fun paused c' =>
    paused = false → Since d i c₄ c' ∧ NoPut i c'.log) ?_) fun paused c₇ h₇ => ?_
  · rintro paused c' value ⟨hc', huntouched⟩ _ _ hvalue rfl
    have hext := Cluster.extends_record c' i .getRunner (.ok value)
    have hnoPut : NoPut i (c'.record i .getRunner (.ok value)).log :=
      huntouched.1.cons (fun _ => by simp)
    exact ⟨⟨hc'.trans hext, fun _ => huntouched.unpaused hvalue, fun _ => hnoPut⟩, hnoPut⟩
  · cases paused with
    | true => trivial
    | false =>
      obtain ⟨hc₇, hput⟩ := h₇ rfl
      simp only [Bool.or_eq_true, beq_iff_eq] at hphase
      exact meets_pauseAndDrain hread hc₇ hput hi hphase hslot
        (fun old hold => previousRetired_eq_ok hprevious hold)

end

end ClusterState.Admission
