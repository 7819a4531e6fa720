import ClusterState.Admission.Rules

/-! # Worker fence and GC claim follow the discipline -/

namespace ClusterState.Admission

open Concurrency

section

variable {d : Deployment} {sha256 : String → String} {i : Identity} {c : Cluster} {store : Store}

/-! ## GC claim -/

theorem stable_holdsGc : (discipline d sha256).Stable i
    (fun c => True ∧ (i ∉ c.retired → HoldsGc i c.state)) :=
  stable_state Discipline.Stable.const
    (fun _ _ _ _ _ _ _ hi hcommit hholds => hcommit.holdsGc hi hholds)

theorem meets_gcClaim (hi : i.Valid workerNamespace) (hlic : Licensed d i c) :
    (discipline d sha256).Meets i (fun _ c' => i ∉ c'.retired → HoldsGc i c'.state)
      (fun _ _ => True) (gcClaim sha256 store i) c := by
  have hE : ∀ (e : Fault) (c : Cluster), Licensed d i c → True := fun _ _ _ => trivial
  refine meets_require_bind (fun _ => trivial) fun _ => ?_
  refine .only_bind stable_licensed (only_pods _) hlic hE fun items c₁ hlic₁ => ?_
  refine meets_lift_bind (fun _ => trivial) fun own _ => ?_
  cases own with
  | none => trivial
  | some own =>
    refine meets_require_bind (fun _ => trivial) fun _ => ?_
    refine .only_bind stable_licensed (only_call (by trivial)) hlic₁ hE fun job c₂ hlic₂ => ?_
    refine meets_require_bind (fun _ => trivial) fun _ => ?_
    refine meets_lift_bind (fun _ => trivial) fun _ _ => ?_
    refine meets_lift_bind (fun _ => trivial) fun _ _ => ?_
    refine meets_require_bind (fun _ => trivial) fun _ => ?_
    refine .only_bind stable_licensed (only_call (by trivial)) hlic₂ hE fun _ c₃ hlic₃ => ?_
    refine .bind (meets_read stable_licensed hlic₃ hE) ?_
    rintro ⟨cm, state⟩ c₄ ⟨hlic₄, hread⟩
    refine meets_require_bind (fun _ => trivial) fun hopen => ?_
    refine .bind (meets_now (stable_since c₄) (.start hlic₄) (fun _ _ _ => trivial)) ?_
    rintro t c₅ ⟨hc₅, hinv₅, rfl⟩
    obtain rfl : state = c₄.state := hread.state
    simp only [Bool.and_eq_true, Bool.or_eq_true, beq_iff_eq, Option.isNone_iff_eq_none] at hopen
    have hcommit : Commit sha256 c₅ i c₄.state { c₄.state with gcHolder := some ⟨i, ⌊c₅.clock⌋⟩ } :=
      .claimGc ⌊c₅.clock⌋ (Int.floor_nonneg.mpr hinv₅.clock) hopen.1 hopen.2 hi
    refine .bind (meets_save hread hc₅ hcommit (fun _ _ _ => trivial)) ?_
    rintro observed c₆ ⟨_, hstate₆, _, _, _, _⟩
    have hholds : HoldsGc i c₆.state := ⟨_, by rw [hstate₆]⟩
    exact .only_bind stable_holdsGc (only_call (by trivial)) ⟨trivial, fun _ => hholds⟩
      (fun _ _ _ => trivial) (fun _ _ h => h.2)

theorem meets_gc (hi : i.Valid workerNamespace) (hlic : Licensed d i c) :
    (discipline d sha256).Meets i (fun _ _ => True) (fun _ _ => True) (gc sha256 store i) c := by
  refine .bind (meets_gcClaim hi hlic) fun _ c₁ hholds => ?_
  intro c₂ hrely _
  refine ⟨(stable_holdsGc.rely hrely ⟨trivial, hholds⟩).2, fun x c₃ _ => ?_⟩
  cases x <;> trivial

/-! ## Worker fence -/

theorem stable_bound (operation : String) : (discipline d sha256).Stable i
    (fun c => True ∧ (i ∉ c.retired → Bound i operation c.state)) :=
  stable_state Discipline.Stable.const
    (fun _ _ _ _ hinv _ _ hi hcommit hbound => hcommit.bound hinv.current hi hbound)

theorem meets_check {operation : String} :
    (discipline d sha256).Meets i (fun _ c' => i ∉ c'.retired → Bound i operation c'.state)
      (fun _ _ => True) (WorkerFence.check sha256 store i operation) c := by
  refine .bind (meets_read (P := fun _ => True) Discipline.Stable.const trivial
    (fun _ _ _ => trivial)) ?_
  rintro ⟨cm, state⟩ c₁ ⟨_, hread⟩
  obtain rfl : state = c₁.state := hread.state
  refine meets_require_bind (fun _ => trivial) fun hphase => ?_
  refine meets_lift_bind (fun _ => trivial) fun op hop => ?_
  have hop : c₁.state.operation = some op := theOperation_eq_ok.mp hop
  refine meets_require_bind (fun _ => trivial) fun hfence => ?_
  simp only [Bool.and_eq_true, beq_iff_eq] at hphase hfence
  obtain ⟨⟨⟨hid, hworker⟩, hclaimed⟩, _⟩ := hfence
  have hunsealed : op.Unsealed := hread.inv.current.stage hop hphase
  have hbound : Bound i operation c₁.state := ⟨op, hop, hid, hworker, hclaimed, hunsealed⟩
  refine .only_bind (stable_bound operation) (only_call (by trivial)) ⟨trivial, fun _ => hbound⟩
    (fun _ _ _ => trivial) fun t c₂ h₂ => ?_
  exact meets_lift (fun _ _ => h₂.2) (fun _ _ => trivial)

theorem meets_claimRound (hlic : Licensed d i c) :
    (discipline d sha256).Meets i
      (fun result c' => match result with
        | none => Licensed d i c'
        | some operation => i ∉ c'.retired → Bound i operation c'.state)
      (fun _ _ => True) (WorkerFence.claimRound sha256 store i) c := by
  refine .bind (meets_read stable_licensed hlic (fun _ _ _ => trivial)) ?_
  rintro ⟨cm, state⟩ c₁ ⟨hlic₁, hread⟩
  obtain rfl : state = c₁.state := hread.state
  dsimp only
  split
  · rename_i op hfilter
    obtain ⟨hop, hworker⟩ := Option.filter_eq_some_iff.mp hfilter
    refine .bind (meets_now (stable_since c₁) (.start hlic₁) (fun _ _ _ => trivial)) ?_
    rintro t c₂ ⟨hc₂, _, rfl⟩
    refine meets_require_bind (fun _ => trivial) fun _ => ?_
    split
    · rename_i hphase
      refine meets_require_bind (fun _ => trivial) fun hgc => ?_
      have hcommit : Commit sha256 c₂ i c₁.state { c₁.state with
          phase := .claimed
          operation := some { op with claimed := true } } :=
        .claim op hop (beq_iff_eq.mp hphase) (beq_iff_eq.mp hworker)
          (Option.isNone_iff_eq_none.mp hgc)
      refine .bind (meets_save hread hc₂ hcommit (fun _ _ _ => trivial)) ?_
      rintro observed c₃ _
      exact .bind meets_check (fun _ _ h => h)
    · refine meets_require_bind (fun _ => trivial) fun _ => ?_
      refine meets_require_bind (fun _ => trivial) fun _ => ?_
      exact hc₂.licensed
  · refine meets_require_bind (fun _ => trivial) fun _ => ?_
    exact hlic₁

theorem meets_claimLoop {deadline : ℚ} {fuel : Nat} (hlic : Licensed d i c) :
    (discipline d sha256).Meets i
      (fun operation c' => i ∉ c'.retired → Bound i operation c'.state)
      (fun _ _ => True) (WorkerFence.claimLoop sha256 store i deadline fuel) c := by
  induction fuel generalizing c with
  | zero => trivial
  | succ fuel ih =>
    refine .only_bind stable_licensed (only_call (by trivial)) hlic (fun _ _ _ => trivial)
      fun t c₁ hlic₁ => ?_
    split
    · refine .bind (meets_claimRound hlic₁) fun result c₂ h₂ => ?_
      cases result with
      | none => exact ih h₂
      | some operation => exact h₂
    · trivial

theorem meets_checks {operation : String} {fuel : Nat} :
    (discipline d sha256).Meets i (fun _ _ => True) (fun _ _ => True)
      (WorkerFence.checks sha256 store i operation fuel) c := by
  induction fuel generalizing c with
  | zero => trivial
  | succ fuel ih =>
    refine .bind meets_check fun _ c₁ hbound => ?_
    intro c₂ hrely _
    refine ⟨((stable_bound operation).rely hrely ⟨trivial, hbound⟩).2, fun x c₃ _ => ?_⟩
    cases x with
    | ok u => exact ih
    | error e => trivial

theorem meets_worker {fuel : Nat} (hlic : Licensed d i c) :
    (discipline d sha256).Meets i (fun _ _ => True) (fun _ _ => True)
      (worker sha256 store i fuel) c := by
  refine .bind (Q := fun operation c' => i ∉ c'.retired → Bound i operation c'.state) ?_ ?_
  · refine meets_require_bind (fun _ => trivial) fun _ => ?_
    exact .only_bind stable_licensed (only_call (by trivial)) hlic (fun _ _ _ => trivial)
      fun _ _ hlic₁ => meets_claimLoop hlic₁
  · intro operation c₁ hbound c₂ hrely _
    refine ⟨((stable_bound operation).rely hrely ⟨trivial, hbound⟩).2, fun x c₃ _ => ?_⟩
    cases x with
    | ok u => exact meets_checks
    | error e => trivial

end

end ClusterState.Admission
