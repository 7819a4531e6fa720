import ClusterState.Admission.Protocol

/-! # The invariant of committed states

`validate` alone is not inductive: that a draining operation has no write
pending, that a restoration has a holder, or that the GC slot of a claimed
operation is free is true of the states that occur only. `State.Sane` is the
strengthening that every commit preserves. Its last part holds as long as no
recovery pod has looked again at an alert over a restored operation.
-/

namespace ClusterState.Admission

/-- Progress of an operation; the phases from the seal on are not ordered. -/
def Phase.rank : Phase → Nat
  | .idle => 0
  | .pauseIntent => 1
  | .draining => 2
  | .admitted => 3
  | .claimed => 4
  | .closing | .restoring | .done | .alert => 5

/-- No recovery pod has sealed the operation with a restore intent. -/
def Operation.Unsealed (op : Operation) : Prop := op.holder = none ∧ op.restored = false

def Operation.Stage (op : Operation) : Phase → Prop
  | .idle => False
  | .pauseIntent => op.Unsealed ∧ op.claimed = false ∧ op.worker = none
  | .draining => op.Unsealed ∧ op.claimed = false ∧ op.worker = none ∧ op.write = .none
  | .admitted => op.Unsealed ∧ op.claimed = false
  | .claimed => op.Unsealed
  | .closing => True
  | .restoring => op.write ≠ .none ∧ op.holder.isSome = true
  | .done => op.restored = true ∧ op.write = .none
  | .alert => True

structure Operation.Sane (c : Cluster) (s : State) (op : Operation) : Prop where
  stage : op.Stage s.phase
  restored : op.restored = true → op.holder.isSome = true
  settled : op.holder.isSome = true → op.write = .none → op.restored = true
  quiet : op.holder.isSome = true → op.coordinator ∈ c.retired ∧ op.WorkerGone c.retired
  gcFree : s.phase = .admitted ∨ s.phase = .claimed ∨ op.claimed = true →
    op.restored = false → s.gcHolder = none
  acked : op.write = .none ∨ op.holder.isSome = true → PauseAcked op c.log
  once : ¬RereadRestored c.log → s.phase = .closing ∨ s.phase = .restoring → op.restored = false

structure State.Sane (sha256 : String → String) (c : Cluster) (s : State) : Prop where
  valid : s.Valid sha256 c.uid s.policy
  idle : s.phase = .idle → s.operation = none
  operation : ∀ op, s.operation = some op → op.Sane c s

theorem Operation.Sane.mono {c c' : Cluster} {s : State} {op : Operation} (h : op.Sane c s)
    (hc : c.Extends c') : op.Sane c' s :=
  { h with
    quiet := fun hh => ⟨hc.retired (h.quiet hh).1,
      fun hcl w hw => hc.retired ((h.quiet hh).2 hcl w hw)⟩
    acked := fun hw => (h.acked hw).mono hc.log
    once := fun hclean => h.once (fun hr => hclean (hr.mono hc.log)) }

variable {sha256 : String → String}

theorem State.Sane.mono {c c' : Cluster} {s : State} (h : s.Sane sha256 c) (hc : c.Extends c') :
    s.Sane sha256 c' where
  valid := by rw [hc.uid]; exact h.valid
  idle := h.idle
  operation op hop := (h.operation op hop).mono hc

section Commits

variable {c : Cluster} {i : Identity} {s s' : State}

theorem State.Sane.ne_idle (h : s.Sane sha256 c) {op : Operation} (hop : s.operation = some op) :
    s.phase ≠ .idle := by
  intro hidle
  rw [h.idle hidle] at hop
  cases hop

theorem State.Sane.stage (h : s.Sane sha256 c) {op : Operation} (hop : s.operation = some op)
    {p : Phase} (hp : s.phase = p) : op.Stage p :=
  hp ▸ (h.operation op hop).stage

/-- What a recovery pod seals is not restored yet, unless it looked again at an
alert over a restored operation. -/
theorem State.Sane.unrestored_of_seal (h : s.Sane sha256 c) {op : Operation}
    (hop : s.operation = some op) (hphase : s.phase ≠ .done)
    (hread : s.phase = .alert → Reread i s c.log) (hclean : ¬RereadRestored c.log) :
    op.restored = false := by
  have hstage := (h.operation op hop).stage
  have honce := (h.operation op hop).once hclean
  cases hp : s.phase with
  | idle => exact absurd hp (h.ne_idle hop)
  | pauseIntent => rw [hp] at hstage; exact hstage.1.2
  | draining => rw [hp] at hstage; exact hstage.1.2
  | admitted => rw [hp] at hstage; exact hstage.1.2
  | claimed => rw [hp] at hstage; exact hstage.2
  | closing => exact honce (.inl hp)
  | restoring => exact honce (.inr hp)
  | done => exact absurd hp hphase
  | alert =>
    by_contra hrestored
    exact hclean ⟨i, s, op, hread hp, hp, hop, by simpa using hrestored⟩

private theorem valid_of_operation (h : s.Valid sha256 c.uid s.policy) {op op' : Operation}
    (hop : s.operation = some op) {phase : Phase} {gc : Option GcHolder}
    (hgc : gc = s.gcHolder ∨ gc = none)
    (hop' : op.WellFormed sha256 s.policy → op'.WellFormed sha256 s.policy)
    (hfits : op'.Fits phase) :
    ({ s with phase := phase, operation := some op', gcHolder := gc } : State).Valid
      sha256 c.uid s.policy :=
  { h with
    gc := by
      rcases hgc with rfl | rfl
      · exact h.gc
      · simp
    missing := by simp
    operation := by
      rintro _ ⟨⟩
      exact ⟨hop' (h.operation op hop).1, hfits⟩ }

theorem newOperation_wellFormed {slot : Int} {policy : String}
    (hslot : slot % 3600 = 47 * 60) (hi : i.Valid controlNamespace) :
    (newOperation sha256 slot i policy).WellFormed sha256 policy where
  coordinator := hi
  worker := by simp [newOperation]
  holder := by simp [newOperation]
  baseline := rfl
  restoreRequired := rfl
  slot := hslot
  drainBy := rfl
  cleanupBy := rfl
  recoverBy := rfl
  outcome := (by decide : text "pause-intent" = true)
  id := rfl
  claimant := by simp [newOperation]

theorem Commit.valid (h : Commit sha256 c i s s') (hs : s.Sane sha256 c) :
    s'.Valid sha256 c.uid s'.policy := by
  have hv := hs.valid
  cases h with
  | beat t ht hphase => exact { hv with heartbeat := ht }
  | intend slot hphase hslot hold hi =>
    exact { hv with
      missing := by simp
      operation := by
        rintro _ ⟨⟩
        exact ⟨newOperation_wellFormed hslot hi, by constructor <;> simp⟩ }
  | acknowledge op hop hphase hcoord hack =>
    exact valid_of_operation hv hop (.inl rfl) (fun h => { h with }) (by constructor <;> simp)
  | admission op w hop hphase hcoord hgc hw =>
    refine valid_of_operation hv hop (.inr rfl) (fun h => { h with
      worker := by rintro _ ⟨⟩; exact hw
      outcome := (by decide : text "admitted" = true)
      claimant := by simp }) ?_
    obtain ⟨_, _, _, hwrite⟩ := hs.stage hop hphase
    exact ⟨fun _ => ⟨rfl, hwrite⟩, by simp, by simp⟩
  | timeout op hop hphase =>
    exact valid_of_operation hv hop (.inl rfl) (fun h => { h with
      outcome := (by decide : text "drain-timeout" = true) }) (by constructor <;> simp)
  | claim op hop hphase hworker hgc =>
    refine valid_of_operation hv hop (.inl rfl) (fun h => { h with
      claimant := by simp [hworker] }) ?_
    have hfits := (hv.operation op hop).2.admission (.inl hphase)
    exact ⟨fun _ => hfits, fun _ => rfl, by simp⟩
  | claimGc t ht hphase hgc hi =>
    exact { hv with gc := by rintro _ ⟨⟩; exact ⟨ht, hi⟩ }
  | retireGc hgc => exact { hv with gc := by simp }
  | close op hop hphase hphase' hread =>
    refine { hv with
      missing := by simp [hop]
      operation := fun op' hop' => ⟨(hv.operation op' hop').1, by constructor <;> simp⟩ }
  | latch reason hreason =>
    refine { hv with
      missing := by simp
      operation := ?_ }
    intro op' hop'
    obtain ⟨op, hop, rfl⟩ := Option.map_eq_some_iff.mp hop'
    exact ⟨{ (hv.operation op hop).1 with outcome := hreason }, by constructor <;> simp⟩
  | latchUnknown op reason hop hreason howner =>
    exact valid_of_operation hv hop (.inl rfl) (fun h => { h with outcome := hreason })
      (by constructor <;> simp)
  | restore op outcome hop hphase hwrite hcoord hworker hout hi hread =>
    exact valid_of_operation hv hop (.inl rfl) (fun h => { h with
      outcome := hout
      holder := by rintro _ ⟨⟩; exact hi }) (by constructor <;> simp)
  | finish op hop hphase hholder =>
    exact valid_of_operation hv hop (.inl rfl) (fun h => { h with })
      ⟨by simp, by simp, fun _ => ⟨rfl, rfl⟩⟩

theorem Commit.sane (h : Commit sha256 c i s s') (hs : s.Sane sha256 c) : s'.Sane sha256 c := by
  refine ⟨h.valid hs, ?_, ?_⟩
  · cases h <;> simp_all [hs.idle]
  · cases h with
    | beat t ht hphase => exact fun op hop => { hs.operation op hop with }
    | intend slot hphase hslot hold hi =>
      rintro _ ⟨⟩
      constructor <;> simp [newOperation, Operation.Stage, Operation.Unsealed]
    | acknowledge op hop hphase hcoord hack =>
      rintro _ ⟨⟩
      obtain ⟨⟨hholder, hrestored⟩, hclaimed, hworker⟩ := hs.stage hop hphase
      exact { hs.operation op hop with
        stage := ⟨⟨hholder, hrestored⟩, hclaimed, hworker, rfl⟩
        settled := by simp [hholder]
        gcFree := by simp [hclaimed]
        acked := fun _ => hack
        once := by simp }
    | admission op w hop hphase hcoord hgc hw =>
      rintro _ ⟨⟩
      obtain ⟨⟨hholder, hrestored⟩, hclaimed, _, _⟩ := hs.stage hop hphase
      exact { hs.operation op hop with
        stage := ⟨⟨hholder, hrestored⟩, hclaimed⟩
        quiet := by simp [hholder]
        gcFree := fun _ _ => rfl
        once := by simp }
    | timeout op hop hphase =>
      rintro _ ⟨⟩
      obtain ⟨⟨hholder, hrestored⟩, hclaimed, _, _⟩ := hs.stage hop hphase
      exact { hs.operation op hop with
        stage := trivial
        gcFree := by simp [hclaimed]
        once := fun _ _ => hrestored }
    | claim op hop hphase hworker hgc =>
      rintro _ ⟨⟩
      obtain ⟨⟨hholder, hrestored⟩, _⟩ := hs.stage hop hphase
      exact { hs.operation op hop with
        stage := ⟨hholder, hrestored⟩
        quiet := by simp [hholder]
        gcFree := fun _ _ => hgc
        once := by simp }
    | claimGc t ht hphase hgc hi =>
      intro op hop
      have hdone : s.phase = .done := hphase.resolve_left (hs.ne_idle hop)
      obtain ⟨hrestored, _⟩ := hs.stage hop hdone
      exact { hs.operation op hop with
        gcFree := by simp [hrestored] }
    | retireGc hgc =>
      intro op hop
      exact { hs.operation op hop with
        gcFree := fun _ _ => rfl }
    | close op hop hphase hphase' hread =>
      intro op' hop'
      obtain rfl : op = op' := by simpa [hop] using hop'
      have ho := hs.operation op hop
      exact { ho with
        stage := trivial
        gcFree := by simpa using fun h => ho.gcFree (.inr (.inr h))
        once := fun hclean _ => hs.unrestored_of_seal hop hphase hread hclean }
    | latch reason hreason =>
      intro op' hop'
      obtain ⟨op, hop, rfl⟩ := Option.map_eq_some_iff.mp hop'
      have ho := hs.operation op hop
      exact { ho with
        stage := trivial
        gcFree := by simpa using fun h => ho.gcFree (.inr (.inr h))
        once := by simp }
    | latchUnknown op reason hop hreason howner =>
      rintro _ ⟨⟩
      have ho := hs.operation op hop
      exact { ho with
        stage := trivial
        settled := by simp
        gcFree := by simpa using fun h => ho.gcFree (.inr (.inr h))
        acked := fun h => ho.acked (.inr (by simpa using h))
        once := by simp }
    | restore op outcome hop hphase hwrite hcoord hworker hout hi hread =>
      rintro _ ⟨⟩
      have ho := hs.operation op hop
      have hphase' : s.phase ≠ .done := by rcases hphase with h | h <;> simp [h]
      have honce : ¬RereadRestored c.log → op.restored = false :=
        hs.unrestored_of_seal hop hphase' hread
      exact { ho with
        stage := ⟨by simp, rfl⟩
        restored := fun _ => rfl
        settled := by simp
        quiet := fun _ => ⟨hcoord, hworker⟩
        gcFree := by simpa using fun h => ho.gcFree (.inr (.inr h))
        acked := fun _ => ho.acked (.inl hwrite)
        once := fun hclean _ => honce hclean }
    | finish op hop hphase hholder =>
      rintro _ ⟨⟩
      have ho := hs.operation op hop
      obtain ⟨_, hsome⟩ := hs.stage hop hphase
      exact { ho with
        stage := ⟨rfl, rfl⟩
        restored := fun _ => hsome
        settled := fun _ _ => rfl
        gcFree := by simp
        acked := fun _ => ho.acked (.inr hsome)
        once := by simp }

end Commits

end ClusterState.Admission
