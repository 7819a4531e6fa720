import ClusterState.Admission.Discipline

/-! # Rules for the steps of a pod

What each helper of `maintenance-admission.py` establishes when it is called by
a pod that follows the discipline, whatever the other pods do meanwhile. The
entry points are put together from these rules.
-/

namespace ClusterState.Admission

open Concurrency

/-- A coordinator only ever writes when it found the runner active. -/
def Licensed (d : Deployment) (i : Identity) (c : Cluster) : Prop :=
  d.role i = some .coordinator → Unpaused i c.log

section Stability

variable {d : Deployment} {sha256 : String → String} {i : Identity} {c c' : Cluster}

theorem extends_of_interferes (h : (discipline d sha256).Interferes i c c') : c.Extends c' := by
  obtain ⟨_, hdrifts | ⟨_, _, _, _, _, hperforms⟩⟩ := h
  · exact Cluster.Drifts.extends hdrifts
  · exact Cluster.Performs.extends hperforms

theorem stable_extends (c₀ : Cluster) : (discipline d sha256).Stable i (fun c => c₀.Extends c) :=
  fun _ _ h hc => hc.trans (extends_of_interferes h)

theorem stable_of_mono {K : Cluster → Prop} (hK : ∀ c c' : Cluster, c.Extends c' → K c → K c') :
    (discipline d sha256).Stable i K :=
  fun c c' h hc => hK c c' (extends_of_interferes h) hc

theorem extends_of_rely (h : (discipline d sha256).Rely i c c') : c.Extends c' :=
  (stable_extends c).rely h (.refl c)

theorem observes_ne_put {r : Request} (h : r.Observes) (o : Operation) (paused : Bool) :
    r ≠ .putRunner o paused := by
  rintro rfl
  exact h

theorem NoPut.performs {who : Identity} {r : Request} {x : Answer r} (h : NoPut i c.log)
    (hr : who = i → ∀ o paused, r ≠ .putRunner o paused) (hp : c.Performs who r x c') :
    NoPut i c'.log := by
  cases hp with
  | answers c r x halive hx => exact h.cons hr
  | fails c r e halive => exact h.cons hr
  | commits c desired x halive hcurrent => exact h.cons hr

theorem stable_noPut : (discipline d sha256).Stable i (fun c => NoPut i c.log) := by
  rintro c c' ⟨_, hdrifts | ⟨j, r, x, hj, _, hp⟩⟩ hc
  · cases hdrifts <;> exact hc
  · refine hc.performs (fun hji => ?_) hp
    exact observes_ne_put (hj.resolve_left (fun h => h hji))

theorem Licensed.mono (h : Licensed d i c) (hc : c.Extends c') : Licensed d i c' :=
  fun hrole => (h hrole).mono hc.log

theorem stable_licensed : (discipline d sha256).Stable i (Licensed d i) :=
  stable_of_mono (fun _ _ hc h => h.mono hc)

/-- A fact about the current state that no commit of another pod breaks. -/
theorem stable_state {J : Cluster → Prop} {K : State → Prop}
    (hJ : (discipline d sha256).Stable i J)
    (hK : ∀ c j s, J c → Inv d sha256 c → j ≠ i → j ∉ c.retired → i ∉ c.retired →
      Commit sha256 c j c.state s → K c.state → K s) :
    (discipline d sha256).Stable i (fun c => J c ∧ (i ∉ c.retired → K c.state)) := by
  intro c c' h hc
  refine ⟨hJ c c' h hc.1, fun hi' => ?_⟩
  have hi : i ∉ c.retired := fun hr => hi' ((extends_of_interferes h).retired hr)
  obtain ⟨hinv, hdrifts | ⟨j, r, x, hj, hguard, hp⟩⟩ := h
  · cases hdrifts <;> exact hc.2 hi
  · have hpermit := hguard hp.alive
    cases hp with
    | answers c r x halive hx => exact hc.2 hi
    | fails c r e halive => exact hc.2 hi
    | commits c desired x halive hcurrent =>
      rw [Cluster.record_state, Cluster.commit_state]
      exact hK c j _ hc.1 hinv (hj.resolve_right (fun h => h)) halive hi (hpermit.1 hcurrent)
        (hc.2 hi)

end Stability

/-! ## Requests that only observe -/

section Observations

variable {d : Deployment} {sha256 : String → String} {i : Identity} {c : Cluster} {α : Type}
  {P : Cluster → Prop} {E : Fault → Cluster → Prop}

theorem meets_lift {m : Except Fault α} {Q : α → Cluster → Prop}
    (hok : ∀ a, m = .ok a → Q a c) (herr : ∀ e, m = .error e → E e c) :
    (discipline d sha256).Meets i Q E (lift m) c := by
  cases m with
  | ok a => exact hok a rfl
  | error e => exact herr e rfl

theorem meets_lift_bind {β : Type} {m : Except Fault α} {f : α → Api β}
    {Q : β → Cluster → Prop} (herr : ∀ e, E e c)
    (hok : ∀ a, m = .ok a → (discipline d sha256).Meets i Q E (f a) c) :
    (discipline d sha256).Meets i Q E (lift m >>= f) c := by
  cases m with
  | ok a => exact hok a rfl
  | error e => exact herr e

theorem meets_require_bind {β : Type} {b : Bool} {reason : String} {f : Unit → Api β}
    {Q : β → Cluster → Prop} (herr : ∀ e, E e c)
    (hok : b = true → (discipline d sha256).Meets i Q E (f ()) c) :
    (discipline d sha256).Meets i Q E (lift (require b reason) >>= f) c :=
  meets_lift_bind herr (fun _ h => hok (require_eq_ok.mp h))

theorem meets_call {r : Request} {Q : Value r → Cluster → Prop}
    (hP : (discipline d sha256).Stable i P) (hr : r.Observes) (hc : P c)
    (hE : ∀ e c, P c → E e c)
    (hQ : ∀ x (c₁ : Cluster), P (c₁.record i r (.ok x)) → Inv d sha256 (c₁.record i r (.ok x)) →
      i ∉ c₁.retired → c₁.Answers r x → Q x (c₁.record i r (.ok x))) :
    (discipline d sha256).Meets i Q E (call r) c := by
  intro c₁ hrely hinv
  have hguard := (discipline d sha256).guard_of_quiet i r c₁ hr
  refine ⟨hguard, fun x c₂ hp => ?_⟩
  have hc₂ : P c₂ := hP c₁ c₂ ⟨hinv, .inr ⟨i, r, x, .inr hr, hguard, hp⟩⟩ (hP.rely hrely hc)
  have hinv₂ : Inv d sha256 c₂ := Inv.performs hinv hguard hp
  cases hp with
  | answers _ _ x halive hx => exact hQ x c₁ hc₂ hinv₂ halive hx
  | fails _ _ e halive => exact hE e _ hc₂
  | commits _ desired x halive hcurrent => exact absurd hr not_false

theorem meets_now (hP : (discipline d sha256).Stable i P) (hc : P c) (hE : ∀ e c, P c → E e c) :
    (discipline d sha256).Meets i (fun t c' => P c' ∧ Inv d sha256 c' ∧ t = c'.clock) E now c :=
  meets_call hP trivial hc hE (fun _ _ hP' hinv _ hx => ⟨hP', hinv, hx⟩)

/-- The state object as it was read, at the moment of the answer. -/
structure Fresh (d : Deployment) (sha256 : String → String) (i : Identity) (store : Store)
    (site : ReadSite) (read : ConfigMap × State) (c : Cluster) : Prop where
  inv : Inv d sha256 c
  alive : i ∉ c.retired
  cm : read.1 = c.configMap
  state : read.2 = c.state
  uid : c.uid = store.uid
  policy : c.state.policy = store.policy
  event : ∃ pre, c.log = ⟨i, .getState site, .ok read.1⟩ :: pre

theorem meets_read {store : Store} {site : ReadSite} (hP : (discipline d sha256).Stable i P)
    (hc : P c) (hE : ∀ e c, P c → E e c) :
    (discipline d sha256).Meets i (fun read c' => P c' ∧ Fresh d sha256 i store site read c') E
      (store.read sha256 site) c := by
  refine Discipline.Meets.bind (Q := fun cm c' => P c' ∧ Inv d sha256 c' ∧ i ∉ c'.retired ∧
    cm = c'.configMap ∧ ∃ pre, c'.log = ⟨i, .getState site, .ok cm⟩ :: pre) ?_ ?_
  · refine meets_call hP trivial hc hE ?_
    rintro x c₁ hP' hinv halive rfl
    exact ⟨hP', hinv, halive, rfl, c₁.log, rfl⟩
  · rintro cm c' ⟨hP', hinv, halive, hcm, hevent⟩
    have herr : ∀ e, E e c' := fun e => hE e c' hP'
    refine meets_require_bind herr fun _ => meets_require_bind herr fun _ => ?_
    refine meets_require_bind herr fun huid => meets_lift_bind herr fun _ hvalid => ?_
    have hvalid := validate_eq_ok.mp hvalid
    subst hcm
    exact ⟨hP', hinv, halive, rfl, rfl, (beq_iff_eq.mp huid).symm, hvalid.policy_eq, hevent⟩

structure Listed (i : Identity) (snapshot : List Pod) (c : Cluster) : Prop where
  retired : ∀ pod ∈ snapshot, pod.retired = true → ∀ ident, podIdentity pod = .ok ident →
    ident ∈ c.retired ∧ Observed i ident c.log
  valid : ∀ pod ∈ snapshot, pod.ns = workerNamespace ∨ pod.ns = controlNamespace →
    ∀ ident, podIdentity pod = .ok ident → ident.Valid pod.ns

theorem Listed.mono {snapshot : List Pod} {c c' : Cluster} (h : Listed i snapshot c)
    (hc : c.Extends c') : Listed i snapshot c' where
  retired pod hpod hret ident hident :=
    have ⟨hmem, hobs⟩ := h.retired pod hpod hret ident hident
    ⟨hc.retired hmem, hobs.mono hc.log⟩
  valid := h.valid

theorem stable_listed (snapshot : List Pod) :
    (discipline d sha256).Stable i (Listed i snapshot) :=
  stable_of_mono (fun _ _ hc h => h.mono hc)

theorem Listed.append {s t : List Pod} (hs : Listed i s c) (ht : Listed i t c) :
    Listed i (s ++ t) c where
  retired pod hpod := (List.mem_append.mp hpod).elim (hs.retired pod) (ht.retired pod)
  valid pod hpod := (List.mem_append.mp hpod).elim (hs.valid pod) (ht.valid pod)

theorem Listed.terminal {snapshot : List Pod} {ident : Identity} (h : Listed i snapshot c)
    (ht : terminal snapshot ident = .ok true) : ident ∈ c.retired ∧ Observed i ident c.log := by
  obtain ⟨pod, hpod, hident, hret⟩ := terminal_eq_true ht
  exact h.retired pod hpod hret ident hident

theorem meets_pods {ns : String} (hP : (discipline d sha256).Stable i P) (hc : P c)
    (hE : ∀ e c, P c → E e c) :
    (discipline d sha256).Meets i (fun items c' => P c' ∧ Listed i items c') E (pods ns) c := by
  refine Discipline.Meets.bind (Q := fun value c' => P c' ∧
    ∀ items, podsOf ns value = .ok items → Listed i items c') ?_ ?_
  · refine meets_call hP trivial hc hE fun value c₁ hP' _ _ htruth => ⟨hP', ?_⟩
    intro items hitems
    obtain ⟨rfl, hchecked⟩ := podsOf_eq_ok hitems
    refine ⟨fun pod hpod hret ident hident => ⟨htruth pod hpod hret ident hident, ?_⟩, ?_⟩
    · exact ⟨ns, value, List.mem_cons_self, pod, hpod, hident, hret⟩
    · intro pod hpod hns ident hident
      have hpns : pod.ns = ns := (hchecked pod hpod).1
      rw [hpns] at hns ⊢
      exact podIdentity_valid hns hitems hpod hident
  · rintro value c' ⟨hP', hlisted⟩
    exact meets_lift (fun items h => ⟨hP', hlisted items h⟩) (fun e _ => hE e c' hP')

theorem meets_snapshotAll (hP : (discipline d sha256).Stable i P) (hc : P c)
    (hE : ∀ e c, P c → E e c) :
    (discipline d sha256).Meets i (fun snapshot c' => P c' ∧ Listed i snapshot c') E
      snapshotAll c := by
  refine .bind (meets_pods hP hc hE) fun ci c₁ h₁ => ?_
  have hP₁ := hP.and (stable_listed ci)
  refine .bind (meets_pods hP₁ h₁ (fun e c h => hE e c h.1)) fun control c₂ h₂ => ?_
  have hP₂ := hP₁.and (stable_listed control)
  refine .bind (meets_pods hP₂ h₂ (fun e c h => hE e c h.1.1)) fun worker c₃ h₃ => ?_
  obtain ⟨⟨⟨hP₃, hci⟩, hcontrol⟩, hworker⟩ := h₃
  refine meets_require_bind (fun e => hE e c₃ hP₃) fun _ => ?_
  exact ⟨hP₃, (hci.append hcontrol).append hworker⟩

theorem meets_scheduled {pod : Pod} {cron : String} (hP : (discipline d sha256).Stable i P)
    (hc : P c) (hE : ∀ e c, P c → E e c) :
    (discipline d sha256).Meets i (fun slot c' => P c' ∧ slot % 3600 = 47 * 60) E
      (scheduled pod cron) c := by
  refine meets_lift_bind (fun e => hE e c hc) fun ident _ => ?_
  refine meets_require_bind (fun e => hE e c hc) fun _ => ?_
  refine .bind (meets_call hP trivial hc hE (Q := fun _ => P) (fun _ _ h _ _ _ => h)) ?_
  intro job c' hP'
  exact meets_lift (fun slot h => ⟨hP', scheduledOf_mod h⟩) (fun e _ => hE e c' hP')

theorem meets_runner {Q : Bool → Cluster → Prop} (hP : (discipline d sha256).Stable i P)
    (hc : P c) (hE : ∀ e (c₁ : Cluster) x, P c₁ → E e (c₁.record i .getRunner x))
    (hQ : ∀ b (c₁ : Cluster) value, P c₁ → Inv d sha256 (c₁.record i .getRunner (.ok value)) →
      i ∉ c₁.retired → runnerOf value = .ok b → Q b (c₁.record i .getRunner (.ok value))) :
    (discipline d sha256).Meets i Q E runner c := by
  intro c₁ hrely hinv
  have hc₁ : P c₁ := hP.rely hrely hc
  refine ⟨fun _ => trivial, fun x c₂ hp => ?_⟩
  have hguard : Guard d sha256 i .getRunner c₁ := fun _ => trivial
  have hinv₂ : Inv d sha256 c₂ := Inv.performs hinv hguard hp
  cases hp with
  | answers _ _ value halive hx =>
    exact meets_lift (fun b hb => hQ b c₁ value hc₁ hinv₂ halive hb) (fun e _ => hE e c₁ _ hc₁)
  | fails _ _ e halive => exact hE e c₁ _ hc₁

theorem meets_runner_bind {β : Type} {f : Bool → Api β} {Q : β → Cluster → Prop}
    (hP : (discipline d sha256).Stable i P)
    (hown : ∀ (c : Cluster) x, P c → P (c.record i .getRunner x)) (hc : P c)
    (hE : ∀ e c, P c → E e c)
    (hf : ∀ b c, P c → (discipline d sha256).Meets i Q E (f b) c) :
    (discipline d sha256).Meets i Q E (runner >>= f) c :=
  .bind (meets_runner hP hc (fun e c₁ x h => hE e _ (hown c₁ x h))
    (fun _ c₁ value h _ _ _ => hown c₁ (.ok value) h)) hf

end Observations

/-! ## Saving a state -/

section Saving

variable {d : Deployment} {sha256 : String → String} {i : Identity} {c : Cluster}
  {E : Fault → Cluster → Prop} {store : Store} {site : ReadSite} {read : ConfigMap × State}

/-- The cluster has moved on, without a PUT of the pod on the runner; the pod
may write. -/
structure Since (d : Deployment) (i : Identity) (c₀ c : Cluster) : Prop where
  moved : c₀.Extends c
  licensed : Licensed d i c
  noPut : NoPut i c₀.log → NoPut i c.log

theorem stable_since (c₀ : Cluster) : (discipline d sha256).Stable i (Since d i c₀) :=
  fun c c' h hc =>
    { moved := stable_extends c₀ c c' h hc.moved
      licensed := stable_licensed c c' h hc.licensed
      noPut := fun h₀ => stable_noPut c c' h (hc.noPut h₀) }

theorem Since.trans {c₀ c₁ c₂ : Cluster} (h : Since d i c₀ c₁) (h' : Since d i c₁ c₂) :
    Since d i c₀ c₂ where
  moved := h.moved.trans h'.moved
  licensed := h'.licensed
  noPut h₀ := h'.noPut (h.noPut h₀)

theorem Since.start (h : Licensed d i c) : Since d i c c := ⟨.refl c, h, id⟩

theorem Since.performs {c₀ c' : Cluster} {r : Request} {x : Answer r} (h : Since d i c₀ c)
    (hr : ∀ o paused, r ≠ .putRunner o paused) (hp : c.Performs i r x c') : Since d i c₀ c' where
  moved := h.moved.trans hp.extends
  licensed := h.licensed.mono hp.extends
  noPut h₀ := (h.noPut h₀).performs (fun _ => hr) hp

theorem Since.record {c₀ : Cluster} {r : Request} {x : Answer r} (h : Since d i c₀ c)
    (hr : ∀ o paused, r ≠ .putRunner o paused) : Since d i c₀ (c.record i r x) where
  moved := h.moved.trans (Cluster.extends_record c i r x)
  licensed := h.licensed.mono (Cluster.extends_record c i r x)
  noPut h₀ := (h.noPut h₀).cons (fun _ => hr)

/-- A PUT built from the state read at `c₀` can only arrive while that state is
still the current one. -/
theorem Cluster.Extends.current {c₀ c : Cluster} (h : c₀.Extends c) {s : State}
    (hcur : c.Current { c₀.configMap with data := s }) : c.state = c₀.state := by
  have hversion : c₀.version = c.version := hcur.2
  rw [Cluster.state, ← hversion, h.past c₀.version le_rfl]
  rfl

theorem Fresh.saved_sublist (h : Fresh d sha256 i store site read c) {desired : ConfigMap}
    (hput : ⟨i, .putState desired, .ok ()⟩ ∈ c.log) :
    [⟨i, .getState site, .ok read.1⟩, ⟨i, .putState desired, .ok ()⟩].Sublist c.log := by
  obtain ⟨pre, hlog⟩ := h.event
  rw [hlog] at hput ⊢
  rcases List.mem_cons.mp hput with heq | hpre
  · cases heq
  · exact List.Sublist.cons_cons _ (List.singleton_sublist.mpr hpre)

theorem meets_save {c₀ : Cluster} {s : State} (hread : Fresh d sha256 i store site read c₀)
    (hc : Since d i c₀ c) (hcommit : Commit sha256 c i c₀.state s)
    (hE : ∀ e c', Since d i c c' → E e c') :
    (discipline d sha256).Meets i
      (fun observed c' => observed = s ∧ c'.state = s ∧ i ∉ c'.retired ∧ Inv d sha256 c' ∧
        Since d i c c' ∧ Saved i s c'.log) E
      (store.save sha256 read.1 s) c := by
  have hsane : c₀.state.Sane sha256 c := hread.inv.current.mono hc.moved
  have hpolicy : s.policy = store.policy := (hcommit.later hsane).1.trans hread.policy
  have huid : c.uid = store.uid := hc.moved.uid.trans hread.uid
  have hvalid : s.Valid sha256 store.uid store.policy := by
    rw [← huid, ← hpolicy]
    exact hcommit.valid hsane
  -- the call of `save` is noted first
  intro c₁ hrely₁ _
  have hc₁ : Since d i c c₁ := (stable_since c).rely hrely₁ (.start hc.licensed)
  refine ⟨fun _ => validate_eq_ok.mpr hvalid, fun x c₂ hp₂ => ?_⟩
  have hc₂ : Since d i c c₂ := hc₁.performs (by simp) hp₂
  refine .bind (Q := fun _ => Since d i c) ?_ ?_
  · exact meets_lift (fun _ _ => hc₂) (fun e _ => hE e c₂ hc₂)
  rintro _ c₂ hc₂
  refine meets_lift_bind (fun e => hE e c₂ hc₂) fun _ _ => ?_
  -- the PUT
  refine .bind (Q := fun _ c' => Since d i c c' ∧
    ⟨i, .putState { read.1 with data := s }, .ok ()⟩ ∈ c'.log) ?_ ?_
  · intro c₃ hrely₃ hinv₃
    have hc₃ : Since d i c c₃ := (stable_since c).rely hrely₃ hc₂
    have hguard : Guard d sha256 i (.putState { read.1 with data := s }) c₃ := by
      intro _
      refine ⟨fun hcur => ?_, hc₃.licensed⟩
      rw [hread.cm] at hcur
      rw [(hc.moved.trans hc₃.moved).current hcur]
      exact hcommit.mono hc₃.moved
    refine ⟨hguard, fun x c₄ hp₄ => ?_⟩
    have hc₄ : Since d i c c₄ := hc₃.performs (by simp) hp₄
    cases x with
    | error e => exact hE e c₄ hc₄
    | ok u =>
      refine ⟨hc₄, ?_⟩
      cases hp₄ with
      | answers _ _ _ _ hx => exact absurd hx not_false
      | commits _ _ _ _ _ => exact List.mem_cons_self
  -- the confirmation
  rintro _ c₄ hc₄
  have hstable : (discipline d sha256).Stable i (fun c' => Since d i c c' ∧
      ⟨i, .putState { read.1 with data := s }, .ok ()⟩ ∈ c'.log) :=
    (stable_since c).and (stable_of_mono (fun _ _ hext hput => hext.log.subset hput))
  refine .bind (meets_read hstable hc₄ (fun e c' h => hE e c' h.1)) ?_
  rintro ⟨cm, observed⟩ c₅ ⟨⟨hc₅, hput⟩, hback⟩
  refine meets_require_bind (fun e => hE e c₅ hc₅) fun heq => ?_
  have hstate : c₅.state = s := hback.state.symm.trans (beq_iff_eq.mp heq)
  refine ⟨beq_iff_eq.mp heq, hstate, hback.alive, hback.inv, hc₅, _, _, rfl, ?_,
    hback.saved_sublist hput⟩
  rw [hback.cm]
  exact hstate

/-- `alert` never returns. -/
theorem meets_alert {α : Type} {Q : α → Cluster → Prop} {c₀ : Cluster} {s : State} {reason : String}
    (hread : Fresh d sha256 i store site read c₀) (hc : Since d i c₀ c)
    (hcommit : Commit sha256 c i c₀.state { s with
      phase := .alert
      operation := s.operation.map (fun op => { op with outcome := reason }) })
    (hE : ∀ e c', Since d i c c' → E e c') :
    (discipline d sha256).Meets i Q E (alert sha256 store read.1 s reason) c := by
  refine .bind (meets_save hread hc hcommit hE) ?_
  rintro observed c' ⟨_, _, _, _, hc', _⟩
  exact hE _ c' hc'

theorem meets_latch {α : Type} {Q : α → Cluster → Prop} {c₀ : Cluster} {reason : String}
    (hread : Fresh d sha256 i store site read c₀) (hc : Since d i c₀ c)
    (hreason : text reason = true) (hE : ∀ e c', Since d i c c' → E e c') :
    (discipline d sha256).Meets i Q E (alert sha256 store read.1 read.2 reason) c := by
  rw [hread.state]
  exact meets_alert hread hc (.latch reason hreason) hE

end Saving

end ClusterState.Admission
