import ClusterState.Admission.Invariant

/-! # How committed states follow one another

Along the history of the state object an operation only grows, and gives way
only to one of a later slot. The predicates at the end are what a pod may take
for granted between two of its own requests: no commit of another pod breaks
them.
-/

namespace ClusterState.Admission

/-- The same operation, further on. Its holder stays the same where `once`
holds; otherwise it may pass to another recovery pod. -/
structure Operation.Continues (once : Prop) (op op' : Operation) : Prop where
  id : op'.id = op.id
  slot : op'.slot = op.slot
  coordinator : op'.coordinator = op.coordinator
  baseline : op'.baseline = op.baseline
  restoreRequired : op'.restoreRequired = op.restoreRequired
  drainBy : op'.drainBy = op.drainBy
  cleanupBy : op'.cleanupBy = op.cleanupBy
  recoverBy : op'.recoverBy = op.recoverBy
  worker : ∀ w, op.worker = some w → op'.worker = some w
  sealed : op.holder.isSome = true → op'.holder.isSome = true
  holder : once → ∀ h, op.holder = some h → op'.holder = some h
  claimed : op.claimed = true → op'.claimed = true
  restored : op.restored = true → op'.restored = true

section Continues

variable {once : Prop}

theorem Operation.Continues.refl (op : Operation) : op.Continues once op := by
  constructor <;> simp

theorem Operation.Continues.trans {a b c : Operation} (h : a.Continues once b)
    (h' : b.Continues once c) : a.Continues once c where
  id := h'.id.trans h.id
  slot := h'.slot.trans h.slot
  coordinator := h'.coordinator.trans h.coordinator
  baseline := h'.baseline.trans h.baseline
  restoreRequired := h'.restoreRequired.trans h.restoreRequired
  drainBy := h'.drainBy.trans h.drainBy
  cleanupBy := h'.cleanupBy.trans h.cleanupBy
  recoverBy := h'.recoverBy.trans h.recoverBy
  worker w hw := h'.worker w (h.worker w hw)
  sealed hs := h'.sealed (h.sealed hs)
  holder ho k hk := h'.holder ho k (h.holder ho k hk)
  claimed hc := h'.claimed (h.claimed hc)
  restored hr := h'.restored (h.restored hr)

theorem Operation.Continues.key_eq {op op' : Operation} (h : op.Continues once op') :
    op'.key = op.key := by
  simp only [Operation.key, h.id, h.slot, h.coordinator]

/-- `s'` comes after `s` in a history: its operation continues the one of `s`,
or belongs to a later slot. -/
def State.Later (once : Prop) (s s' : State) : Prop :=
  s'.policy = s.policy ∧ ∀ op, s.operation = some op → ∃ op', s'.operation = some op' ∧
    ((op.Continues once op' ∧ s.phase.rank ≤ s'.phase.rank) ∨ op.slot < op'.slot)

theorem State.Later.refl (s : State) : s.Later once s :=
  ⟨rfl, fun op hop => ⟨op, hop, .inl ⟨.refl op, le_rfl⟩⟩⟩

theorem State.Later.trans {s t u : State} (h : s.Later once t) (h' : t.Later once u) :
    s.Later once u := by
  refine ⟨h'.1.trans h.1, fun op hop => ?_⟩
  obtain ⟨op₁, hop₁, hstep₁⟩ := h.2 op hop
  obtain ⟨op₂, hop₂, hstep₂⟩ := h'.2 op₁ hop₁
  refine ⟨op₂, hop₂, ?_⟩
  rcases hstep₁ with ⟨hc₁, hr₁⟩ | hlt₁
  · rcases hstep₂ with ⟨hc₂, hr₂⟩ | hlt₂
    · exact .inl ⟨hc₁.trans hc₂, hr₁.trans hr₂⟩
    · exact .inr (hc₁.slot ▸ hlt₂)
  · rcases hstep₂ with ⟨hc₂, _⟩ | hlt₂
    · exact .inr (hc₂.slot.symm ▸ hlt₁)
    · exact .inr (hlt₁.trans hlt₂)

end Continues

section Commits

variable {sha256 : String → String} {c : Cluster} {i : Identity} {s s' : State}

private theorem later_of_operation {once : Prop} {op op' : Operation}
    (hop : s.operation = some op) (hpolicy : s'.policy = s.policy)
    (hop' : s'.operation = some op') (hc : op.Continues once op')
    (hrank : s.phase.rank ≤ s'.phase.rank) : s.Later once s' := by
  refine ⟨hpolicy, fun o ho => ⟨op', hop', .inl ?_⟩⟩
  obtain rfl : op = o := by simpa [hop] using ho
  exact ⟨hc, hrank⟩

theorem Phase.rank_le_five (p : Phase) : p.rank ≤ 5 := by cases p <;> simp [Phase.rank]

theorem Phase.eq_of_rank {p q : Phase} (hp : p = .admitted ∨ p = .claimed)
    (h : q.rank = p.rank) : q = p := by
  rcases hp with rfl | rfl <;> cases q <;> simp [Phase.rank] at h ⊢

/-- An operation that is restored again has been restored before, which takes a
recovery pod that looked again at an alert. -/
theorem State.Sane.holder_none_of_restore (hs : s.Sane sha256 c) {op : Operation}
    (hop : s.operation = some op) (hphase : s.phase = .closing ∨ s.phase = .alert)
    (hwrite : op.write = .none) (hread : s.phase = .alert → Reread i s c.log)
    (hclean : ¬RereadRestored c.log) : op.holder = none := by
  have hdone : s.phase ≠ .done := by rcases hphase with h | h <;> simp [h]
  have hrestored := hs.unrestored_of_seal hop hdone hread hclean
  have hsettled := (hs.operation op hop).settled
  cases hholder : op.holder with
  | none => rfl
  | some h =>
    rw [hsettled (by simp [hholder]) hwrite] at hrestored
    cases hrestored

theorem Commit.later (h : Commit sha256 c i s s') (hs : s.Sane sha256 c) :
    s.Later (¬RereadRestored c.log) s' := by
  cases h with
  | beat t ht hphase => exact .refl s
  | intend slot hphase hslot hold hi =>
    exact ⟨rfl, fun op hop => ⟨_, rfl, .inr (hold op hop)⟩⟩
  | acknowledge op hop hphase hcoord hack =>
    exact later_of_operation hop rfl rfl { Operation.Continues.refl op with }
      (by simp [hphase, Phase.rank])
  | admission op w hop hphase hcoord hgc hw =>
    obtain ⟨_, _, hworker, _⟩ := hs.stage hop hphase
    exact later_of_operation hop rfl rfl
      { Operation.Continues.refl op with worker := by simp [hworker] }
      (by simp [hphase, Phase.rank])
  | timeout op hop hphase =>
    exact later_of_operation hop rfl rfl { Operation.Continues.refl op with }
      (Phase.rank_le_five _)
  | claim op hop hphase hworker hgc =>
    exact later_of_operation hop rfl rfl
      { Operation.Continues.refl op with claimed := fun _ => rfl }
      (by simp [hphase, Phase.rank])
  | claimGc t ht hphase hgc hi => exact .refl s
  | retireGc hgc => exact .refl s
  | close op hop hphase hphase' hread =>
    exact later_of_operation hop rfl hop (.refl op) (Phase.rank_le_five _)
  | latch reason hreason =>
    refine ⟨rfl, fun op hop => ⟨_, by simp [hop]; rfl, .inl ⟨?_, Phase.rank_le_five _⟩⟩⟩
    exact { Operation.Continues.refl op with }
  | latchUnknown op reason hop hreason howner =>
    exact later_of_operation hop rfl rfl { Operation.Continues.refl op with }
      (Phase.rank_le_five _)
  | restore op outcome hop hphase hwrite hcoord hworker hout hi hread =>
    have hnone : ¬RereadRestored c.log → op.holder = none :=
      hs.holder_none_of_restore hop hphase hwrite hread
    have hrefl : op.Continues True op := .refl op
    exact later_of_operation hop rfl rfl
      { hrefl with
        sealed := fun _ => rfl
        holder := fun hclean => by simp [hnone hclean] } (Phase.rank_le_five _)
  | finish op hop hphase hholder =>
    exact later_of_operation hop rfl rfl
      { Operation.Continues.refl op with restored := fun _ => rfl } (Phase.rank_le_five _)

/-- Only a coordinator's intent puts another operation in place. -/
theorem Commit.replaces (h : Commit sha256 c i s s') {op' : Operation}
    (hop' : s'.operation = some op') (hnew : ∀ op, s.operation = some op → op'.id ≠ op.id) :
    (s.phase = .idle ∨ s.phase = .done) ∧ s'.phase = .pauseIntent ∧
      ∀ op, s.operation = some op → op.slot < op'.slot := by
  cases h with
  | intend slot hphase hslot hold hi =>
    cases hop'
    exact ⟨hphase, rfl, hold⟩
  | latch reason hreason =>
    obtain ⟨op, hop, rfl⟩ := Option.map_eq_some_iff.mp hop'
    exact absurd rfl (hnew op hop)
  | beat t ht hphase => exact absurd rfl (hnew op' hop')
  | claimGc t ht hphase hgc hi => exact absurd rfl (hnew op' hop')
  | retireGc hgc => exact absurd rfl (hnew op' hop')
  | close op hop hphase hphase' hread => exact absurd rfl (hnew op' hop')
  | acknowledge op hop hphase hcoord hack => cases hop'; exact absurd rfl (hnew op hop)
  | admission op w hop hphase hcoord hgc hw => cases hop'; exact absurd rfl (hnew op hop)
  | timeout op hop hphase => cases hop'; exact absurd rfl (hnew op hop)
  | claim op hop hphase hworker hgc => cases hop'; exact absurd rfl (hnew op hop)
  | latchUnknown op reason hop hreason howner => cases hop'; exact absurd rfl (hnew op hop)
  | restore op outcome hop hphase hwrite hcoord hworker hout hi hread =>
    cases hop'
    exact absurd rfl (hnew op hop)
  | finish op hop hphase hholder => cases hop'; exact absurd rfl (hnew op hop)

/-- The GC slot is given up only on evidence of its holder's retirement. -/
def GcKept (c : Cluster) (s s' : State) : Prop :=
  ∀ g, s.gcHolder = some g → s'.gcHolder = some g ∨
    (s'.gcHolder = none ∧ g.identity ∈ c.retired ∧ ∃ i, Observed i g.identity c.log)

theorem Commit.gcKept (h : Commit sha256 c i s s') : GcKept c s s' := by
  intro g hg
  cases h with
  | admission op w hop hphase hcoord hgc hw =>
    exact .inr ⟨rfl, (hgc g hg).1, i, (hgc g hg).2⟩
  | retireGc hgc => exact .inr ⟨rfl, (hgc g hg).1, i, (hgc g hg).2⟩
  | claimGc t ht hphase hgc hi =>
    rw [hgc] at hg
    cases hg
  | _ => exact .inl hg

/-- An alert gives way only to a recovery pod that looked again at it. -/
theorem Commit.alert_kept (h : Commit sha256 c i s s') (hs : s.phase = .alert)
    (hclean : ¬RereadAlert c.log) : s'.phase = .alert := by
  cases h with
  | beat t ht hphase => exact hs
  | claimGc t ht hphase hgc hi => exact hs
  | retireGc hgc => exact hs
  | latch reason hreason => rfl
  | latchUnknown op reason hop hreason howner => rfl
  | close op hop hphase hphase' hread => exact absurd ⟨i, s, hread hs, hs⟩ hclean
  | restore op outcome hop hphase hwrite hcoord hworker hout hi hread =>
    exact absurd ⟨i, s, hread hs, hs⟩ hclean
  | intend slot hphase hslot hold hi => simp [hs] at hphase
  | _ => simp_all

/-! ## What other pods cannot break -/

def HoldsGc (g : Identity) (s : State) : Prop := ∃ t, s.gcHolder = some ⟨g, t⟩

/-- The worker has claimed the operation, and nobody restores it. -/
def Bound (w : Identity) (id : String) (s : State) : Prop :=
  ∃ op, s.operation = some op ∧ op.id = id ∧ op.worker = some w ∧ op.claimed = true ∧ op.Unsealed

def Active (o : Operation) (s : State) : Prop :=
  ∃ op, s.operation = some op ∧ op.key = o.key ∧ op.Unsealed

/-- The pod is restoring the operation, which is the current one. -/
def Restores (i : Identity) (o : Operation) (s : State) : Prop :=
  ∃ op, s.operation = some op ∧ op.key = o.key ∧ op.holder = some i ∧ op.write ≠ .none

/-- After a seal, in view of the pods `gone` that had retired before it: an
operation whose coordinator and holder are all among those is as it was sealed,
or latched. -/
def AfterSeal (gone : Identity → Prop) (s : State) : Prop :=
  ∃ op, s.operation = some op ∧ (¬gone op.coordinator ∨ s.phase = .closing ∨ s.phase = .alert ∨
    ∃ h, op.holder = some h ∧ ¬gone h)

variable {j : Identity}

theorem Commit.holdsGc (h : Commit sha256 c i s s') (hj : j ∉ c.retired) (hg : HoldsGc j s) :
    HoldsGc j s' := by
  obtain ⟨t, ht⟩ := hg
  rcases h.gcKept _ ht with hkeep | ⟨_, hret, _⟩
  · exact ⟨t, hkeep⟩
  · exact absurd hret hj

/-- What a commit can mean for the operation it finds: it is carried on with
its holder and its `restored` flag as they were, it was restored and gives way
to a new one, its restoration begins, or its holder finishes. -/
theorem Commit.fate (h : Commit sha256 c i s s') (hs : s.Sane sha256 c) {op : Operation}
    (hop : s.operation = some op) :
    (∃ op', s'.operation = some op' ∧ op.Continues True op' ∧ op'.holder = op.holder ∧
      op'.restored = op.restored ∧
      (op.holder.isSome = true → op.write ≠ .none → op'.write ≠ .none)) ∨
    (op.restored = true ∧ op.write = .none) ∨
    (op.coordinator ∈ c.retired ∧ op.WorkerGone c.retired ∧ op.write = .none) ∨
    op.holder = some i := by
  cases h with
  | beat t ht hphase => exact .inl ⟨op, hop, .refl op, rfl, rfl, fun _ h => h⟩
  | intend slot hphase hslot hold hi =>
    have hdone : s.phase = .done := hphase.resolve_left (hs.ne_idle hop)
    exact .inr (.inl (hs.stage hop hdone))
  | acknowledge op' hop' hphase hcoord hack =>
    obtain rfl : op = op' := by simpa [hop] using hop'
    obtain ⟨⟨hholder, _⟩, _⟩ := hs.stage hop hphase
    exact .inl ⟨_, rfl, { Operation.Continues.refl op with }, rfl, rfl, by simp [hholder]⟩
  | admission op' w hop' hphase hcoord hgc hw =>
    obtain rfl : op = op' := by simpa [hop] using hop'
    obtain ⟨_, _, hworker, _⟩ := hs.stage hop hphase
    exact .inl ⟨_, rfl, { Operation.Continues.refl op with worker := by simp [hworker] }, rfl, rfl,
      fun _ h => h⟩
  | timeout op' hop' hphase =>
    obtain rfl : op = op' := by simpa [hop] using hop'
    exact .inl ⟨_, rfl, { Operation.Continues.refl op with }, rfl, rfl, fun _ h => h⟩
  | claim op' hop' hphase hworker hgc =>
    obtain rfl : op = op' := by simpa [hop] using hop'
    exact .inl ⟨_, rfl, { Operation.Continues.refl op with claimed := fun _ => rfl }, rfl, rfl,
      fun _ h => h⟩
  | claimGc t ht hphase hgc hi => exact .inl ⟨op, hop, .refl op, rfl, rfl, fun _ h => h⟩
  | retireGc hgc => exact .inl ⟨op, hop, .refl op, rfl, rfl, fun _ h => h⟩
  | close op' hop' hphase hphase' hread => exact .inl ⟨op, hop, .refl op, rfl, rfl, fun _ h => h⟩
  | latch reason hreason =>
    refine .inl ⟨{ op with outcome := reason }, by simp [hop], ?_, rfl, rfl, fun _ h => h⟩
    exact { Operation.Continues.refl op with }
  | latchUnknown op' reason hop' hreason howner =>
    obtain rfl : op = op' := by simpa [hop] using hop'
    exact .inl ⟨_, rfl, { Operation.Continues.refl op with }, rfl, rfl, by simp⟩
  | restore op' outcome hop' hphase hwrite hcoord hworker hout hi hread =>
    obtain rfl : op = op' := by simpa [hop] using hop'
    exact .inr (.inr (.inl ⟨hcoord, hworker, hwrite⟩))
  | finish op' hop' hphase hholder =>
    obtain rfl : op = op' := by simpa [hop] using hop'
    exact .inr (.inr (.inr hholder))

theorem Commit.bound (h : Commit sha256 c i s s') (hs : s.Sane sha256 c) {id : String}
    (hj : j ∉ c.retired) (hb : Bound j id s) : Bound j id s' := by
  obtain ⟨op, hop, hid, hworker, hclaimed, hholder, hrestored⟩ := hb
  rcases h.fate hs hop with ⟨op', hop', hc, hh, hr, _⟩ | ⟨hr, _⟩ | ⟨_, hgone, _⟩ | hh
  · exact ⟨op', hop', hc.id.trans hid, hc.worker _ hworker, hc.claimed hclaimed,
      hh.trans hholder, hr.trans hrestored⟩
  · simp [hrestored] at hr
  · exact absurd (hgone hclaimed j hworker) hj
  · simp [hholder] at hh

theorem Commit.active (h : Commit sha256 c i s s') (hs : s.Sane sha256 c) {o : Operation}
    (ho : o.coordinator ∉ c.retired) (hb : Active o s) : Active o s' := by
  obtain ⟨op, hop, hkey, hholder, hrestored⟩ := hb
  rcases h.fate hs hop with ⟨op', hop', hc, hh, hr, _⟩ | ⟨hr, _⟩ | ⟨hret, _, _⟩ | hh
  · exact ⟨op', hop', hc.key_eq.trans hkey, hh.trans hholder, hr.trans hrestored⟩
  · simp [hrestored] at hr
  · exact absurd (Operation.coordinator_of_key hkey ▸ hret) ho
  · simp [hholder] at hh

theorem Commit.restores (h : Commit sha256 c i s s') (hs : s.Sane sha256 c) {o : Operation}
    (hij : i ≠ j) (hb : Restores j o s) : Restores j o s' := by
  obtain ⟨op, hop, hkey, hholder, hwrite⟩ := hb
  rcases h.fate hs hop with ⟨op', hop', hc, hh, _, hw⟩ | ⟨_, hw⟩ | ⟨_, _, hw⟩ | hh
  · exact ⟨op', hop', hc.key_eq.trans hkey, hh.trans hholder, hw (by simp [hholder]) hwrite⟩
  · exact absurd hw hwrite
  · exact absurd hw hwrite
  · exact absurd (by simpa [hholder] using hh.symm) hij

/-- A commit of a pod that is not gone leads nowhere else. -/
theorem Commit.afterSeal (h : Commit sha256 c i s s') {gone : Identity → Prop} (hi : ¬gone i)
    (ha : AfterSeal gone s) : AfterSeal gone s' := by
  obtain ⟨op, hop, hcases⟩ := ha
  cases h with
  | beat t ht hphase => exact ⟨op, hop, hcases⟩
  | intend slot hphase hslot hold hi' => exact ⟨_, rfl, .inl hi⟩
  | acknowledge op' hop' hphase hcoord hack => exact ⟨_, rfl, .inl (hcoord ▸ hi)⟩
  | admission op' w hop' hphase hcoord hgc hw => exact ⟨_, rfl, .inl (hcoord ▸ hi)⟩
  | timeout op' hop' hphase => exact ⟨_, rfl, .inr (.inl rfl)⟩
  | claim op' hop' hphase hworker hgc =>
    obtain rfl : op = op' := by simpa [hop] using hop'
    refine ⟨_, rfl, ?_⟩
    rcases hcases with hc | hp | hp | hh
    · exact .inl hc
    · simp [hphase] at hp
    · simp [hphase] at hp
    · exact .inr (.inr (.inr hh))
  | claimGc t ht hphase hgc hi' => exact ⟨op, hop, hcases⟩
  | retireGc hgc => exact ⟨op, hop, hcases⟩
  | close op' hop' hphase hphase' hread => exact ⟨op, hop, .inr (.inl rfl)⟩
  | latch reason hreason =>
    exact ⟨{ op with outcome := reason }, by simp [hop], .inr (.inr (.inl rfl))⟩
  | latchUnknown op' reason hop' hreason howner => exact ⟨_, rfl, .inr (.inr (.inl rfl))⟩
  | restore op' outcome hop' hphase hwrite hcoord hworker hout hi' hread =>
    exact ⟨_, rfl, .inr (.inr (.inr ⟨i, rfl, hi⟩))⟩
  | finish op' hop' hphase hholder => exact ⟨_, rfl, .inr (.inr (.inr ⟨i, hholder, hi⟩))⟩

end Commits

end ClusterState.Admission
