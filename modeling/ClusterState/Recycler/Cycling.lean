import ClusterState.Recycler.Cycler

/-! # The recycler acts on the pod it selected

An eviction names a pod by namespace and name only, and the debouncer is asked
first and told last. Both are harmless as long as no pod takes the name of a
pending candidate and no two goroutines cycle the same UID.
-/

namespace ClusterState.Recycler

open Concurrency

/-- Candidates are current when they are selected, names of pending candidates
are not taken by new pods, a UID is not cycled by two goroutines at once, and a
UID whose eviction went unnoticed is left alone for the debounce window. -/
def CalmSteps (c : Cycler) : Steps
  | .act _ (.select candidates), s =>
    ∀ pod ∈ candidates, s.pods.lookup pod.key = none ∨ s.pods.lookup pod.key = some pod.uid
  | .act _ (.skip uid), s => (∀ e ∈ s.cycling.entries, e.2 ≠ uid) ∧
      ∀ e ∈ s.lost, e.actual = uid → e.time + c.ttl ≤ s.now
  | .create key _, s => ∀ e ∈ s.pending.entries, ∀ pod ∈ e.2, pod.key ≠ key
  | _, _ => True

namespace State

variable {c : Cycler} {s s' : State} {i j : Nat} {u : String}

/-- The effect is over, known to the debouncer, or went unnoticed. -/
def Settled (c : Cycler) (s : State) (e : Effect) : Prop :=
  e.time + c.ttl ≤ s.now ∨ (∃ t, s.marks.lookup e.actual = some t ∧ e.time ≤ t) ∨ e ∈ s.lost

def Rested (c : Cycler) (s : State) (uid : String) : Prop :=
  ∀ e ∈ s.effects, e.actual = uid → e.time + c.ttl ≤ s.now

structure Inv (c : Cycler) (s : State) : Prop where
  current : ∀ i, ∀ pod ∈ s.pendingOf i,
    s.pods.lookup pod.key = none ∨ s.pods.lookup pod.key = some pod.uid
  alone : ∀ i j u, s.cyclingOf i = some u → s.cyclingOf j = some u → i = j
  marked : ∀ u t, s.marks.lookup u = some t → t ≤ s.now
  past : ∀ e ∈ s.effects, e.time ≤ s.now
  meant : ∀ e ∈ s.effects, e.wanted = e.actual
  settled : ∀ e ∈ s.effects, s.Settled c e ∨ ∃ i, s.cyclingOf i = some e.actual
  apart : s.effects.Pairwise fun e e' => e.actual = e'.actual → e'.time + c.ttl ≤ e.time

def Guard (c : Cycler) (i : Nat) : Action → State → Prop
  | .evict pod, s => (∃ rest, s.pendingOf i = pod :: rest) ∧ s.cyclingOf i = some pod.uid ∧
      s.Rested c pod.uid
  | .forceDelete pod, s => (∃ rest, s.pendingOf i = pod :: rest) ∧
      s.cyclingOf i = some pod.uid ∧ s.Rested c pod.uid
  | .mark uid, s => s.cyclingOf i = some uid
  | .skip _, s => s.cyclingOf i = none
  | .settle, s => ∀ u, s.cyclingOf i = some u →
      ∀ e ∈ s.effects, e.actual = u → s.Settled c e
  | _, _ => True

section Preservation

variable {a : Action} {x : a.Value} {e : Effect}

theorem lookup_insert_cases {V : Type} {k k' : Nat} (m : AList (fun _ : Nat => V)) (v : V) :
    (m.insert k v).lookup k' = if k' = k then some v else m.lookup k' := by
  split
  · rename_i hk
    rw [hk, AList.lookup_insert]
  · rename_i hk
    exact AList.lookup_insert_ne hk

theorem lookup_erase_cases {V : Type} {k k' : Nat} (m : AList (fun _ : Nat => V)) :
    (m.erase k).lookup k' = if k' = k then none else m.lookup k' := by
  split
  · rename_i hk
    rw [hk, AList.lookup_erase]
  · rename_i hk
    exact AList.lookup_erase_ne hk

theorem after_other (hj : j ≠ i) :
    (s.after i a x).pendingOf j = s.pendingOf j ∧
      (s.after i a x).cyclingOf j = s.cyclingOf j := by
  unfold after
  split
  all_goals simp only [pendingOf, cyclingOf, strike, lookup_insert_cases, lookup_erase_cases,
    if_neg hj, and_self]

theorem after_now : (s.after i a x).now = s.now := by
  unfold after
  split <;> rfl

theorem Settled.of_rested (h : s.Rested c u) : ∀ e ∈ s.effects, e.actual = u → s.Settled c e :=
  fun e he heu => .inl (h e he heu)

theorem Settled.after (h : s.Settled c e) (hmarked : ∀ u t, s.marks.lookup u = some t → t ≤ s.now)
    (hpast : e.time ≤ s.now) (hx : s.Answers c a x) : (s.after i a x).Settled c e := by
  rcases h with hold | ⟨t, ht, hle⟩ | hlost
  · exact .inl (after_now.symm ▸ hold)
  · have hsame : ∀ {s' : State}, s'.marks = s.marks → s'.Settled c e := by
      intro s' h
      exact .inr (.inl ⟨t, h ▸ ht, hle⟩)
    cases a with
    | skip uid =>
      cases x with
      | true => exact hsame rfl
      | false =>
        by_cases hu : e.actual = uid
        -- the mark is deleted because it is too old
        · have hskips : s.skips c uid = false := hx.symm
          rw [hu] at ht
          simp only [skips, ht, Bool.not_eq_false', decide_eq_true_eq] at hskips
          have := hmarked uid t ht
          refine .inl ?_
          change e.time + c.ttl ≤ s.now
          omega
        · refine .inr (.inl ⟨t, ?_, hle⟩)
          exact (AList.lookup_erase_ne hu).trans ht
    | mark uid =>
      by_cases hu : e.actual = uid
      · refine .inr (.inl ⟨s.now, ?_, hpast⟩)
        rw [hu]
        exact AList.lookup_insert _
      · refine .inr (.inl ⟨t, ?_, hle⟩)
        exact (AList.lookup_insert_ne hu).trans ht
    | evict pod =>
      match x with
      | .ok () | .error (.lost _) | .error .tooManyRequests | .error (.other _) => exact hsame rfl
    | forceDelete pod =>
      match x with
      | .ok () | .error (.lost _) | .error .tooManyRequests | .error (.other _) => exact hsame rfl
    | _ => exact hsame rfl
  · refine .inr (.inr ?_)
    unfold State.after
    split
    case h_8 => exact List.mem_cons_of_mem _ hlost
    case h_10 => exact List.mem_cons_of_mem _ hlost
    all_goals exact hlost

theorem Inv.actual {pod : Pod} (h : Inv c s) (hpending : ∃ rest, s.pendingOf i = pod :: rest)
    (hkey : pod.key ∈ s.pods) : (s.pods.lookup pod.key).getD "" = pod.uid := by
  obtain ⟨rest, hrest⟩ := hpending
  have hmem : pod ∈ s.pendingOf i := by
    rw [hrest]
    exact List.mem_cons_self
  rcases h.current i pod hmem with hnone | hsome
  · exact absurd hkey (AList.lookup_eq_none.mp hnone)
  · rw [hsome, Option.getD_some]

theorem Inv.strike {pod : Pod} {lost : Bool} (h : Inv c s)
    (hpending : ∃ rest, s.pendingOf i = pod :: rest) (hcycling : s.cyclingOf i = some pod.uid)
    (hrested : s.Rested c pod.uid) (hkey : pod.key ∈ s.pods) : Inv c (s.strike pod lost) := by
  have hactual := h.actual hpending hkey
  refine ⟨h.current, h.alone, h.marked, ?_, ?_, ?_, ?_⟩
  · rintro e (_ | ⟨_, he⟩)
    · exact le_rfl
    · exact h.past e he
  · rintro e (_ | ⟨_, he⟩)
    · exact hactual.symm
    · exact h.meant e he
  · rintro e (_ | ⟨_, he⟩)
    · exact .inr ⟨i, hcycling.trans (congrArg some hactual.symm)⟩
    · apply (h.settled e he).imp_left
      rintro (hold | hmark | hlost)
      · exact .inl hold
      · exact .inr (.inl hmark)
      · refine .inr (.inr ?_)
        cases lost with
        | true => exact List.mem_cons_of_mem _ hlost
        | false => exact hlost
  · refine List.pairwise_cons.mpr ⟨fun e he heq => ?_, h.apart⟩
    exact hrested e he (heq.symm.trans hactual)

theorem Inv.calm (h : Inv c s) (hx : s.Answers c a x) (heffects : (s.after i a x).effects = s.effects)
    (hpods : (s.after i a x).pods = s.pods)
    (hcurrent : ∀ pod ∈ (s.after i a x).pendingOf i,
      s.pods.lookup pod.key = none ∨ s.pods.lookup pod.key = some pod.uid)
    (halone : ∀ j u, (s.after i a x).cyclingOf i = some u → s.cyclingOf j = some u → j = i)
    (hmarked : ∀ u t, (s.after i a x).marks.lookup u = some t → t ≤ s.now)
    (hsettled : ∀ e ∈ s.effects, s.cyclingOf i = some e.actual →
      (s.after i a x).Settled c e ∨ (s.after i a x).cyclingOf i = some e.actual) :
    Inv c (s.after i a x) where
  current j pod hpod := by
    rw [hpods]
    by_cases hji : j = i
    · rw [hji] at hpod
      exact hcurrent pod hpod
    · rw [(after_other hji).1] at hpod
      exact h.current j pod hpod
  alone j k u hj hk := by
    by_cases hji : j = i
    · by_cases hki : k = i
      · rw [hji, hki]
      · rw [(after_other hki).2] at hk
        rw [hji] at hj
        exact absurd (halone k u hj hk) hki
    · rw [(after_other hji).2] at hj
      by_cases hki : k = i
      · rw [hki] at hk
        exact absurd (halone j u hk hj) hji
      · rw [(after_other hki).2] at hk
        exact h.alone j k u hj hk
  marked u t ht := by
    rw [after_now]
    exact hmarked u t ht
  past e he := by
    rw [after_now]
    rw [heffects] at he
    exact h.past e he
  meant e he := by
    rw [heffects] at he
    exact h.meant e he
  settled e he := by
    rw [heffects] at he
    rcases h.settled e he with hold | ⟨j, hj⟩
    · exact .inl (hold.after h.marked (h.past e he) hx)
    · by_cases hji : j = i
      · rw [hji] at hj
        exact (hsettled e he hj).imp_right fun h => ⟨i, h⟩
      · exact .inr ⟨j, (after_other hji).2.trans hj⟩
  apart := by
    rw [heffects]
    exact h.apart

theorem Inv.after (h : Inv c s) (hguard : Guard c i a s) (hallowed : CalmSteps c (.act i a) s)
    (hx : s.Answers c a x) : Inv c (s.after i a x) := by
  have hmark : ∀ u t, s.marks.lookup u = some t → t ≤ s.now := h.marked
  have hsame : s.after i a x = s → Inv c (s.after i a x) := fun heq => heq.symm ▸ h
  cases a with
  | select candidates =>
    refine h.calm hx rfl rfl ?_ (fun j u hi hj => h.alone j i u hj hi) hmark (fun e he => .inr)
    intro pod hpod
    change pod ∈ ((s.pending.insert i candidates).lookup i).getD [] at hpod
    rw [AList.lookup_insert] at hpod
    exact hallowed pod hpod
  | settle =>
    refine h.calm hx rfl rfl ?_ ?_ hmark ?_
    · intro pod hpod
      change pod ∈ ((s.pending.insert i (s.pendingOf i).tail).lookup i).getD [] at hpod
      rw [AList.lookup_insert] at hpod
      exact h.current i pod (List.mem_of_mem_tail hpod)
    · intro j u hi
      change (s.cycling.erase i).lookup i = some u at hi
      rw [AList.lookup_erase] at hi
      cases hi
    · intro e he hi
      exact .inl ((hguard e.actual hi e he rfl).after h.marked (h.past e he) hx)
  | release =>
    refine h.calm hx rfl rfl ?_ (fun j u hi hj => h.alone j i u hj hi) hmark (fun e he => .inr)
    intro pod hpod
    change pod ∈ ((s.pending.erase i).lookup i).getD [] at hpod
    rw [AList.lookup_erase] at hpod
    cases hpod
  | skip uid =>
    cases x with
    | true => exact h
    | false =>
      refine h.calm hx rfl rfl (fun pod => h.current i pod) ?_ ?_ ?_
      · intro j u hi hj
        change (s.cycling.insert i uid).lookup i = some u at hi
        rw [AList.lookup_insert] at hi
        cases hi
        exact absurd rfl (hallowed.1 ⟨j, uid⟩ (AList.mem_lookup_iff.mp hj))
      · intro u t ht
        change (s.marks.erase uid).lookup u = some t at ht
        by_cases hu : u = uid
        · rw [hu, AList.lookup_erase] at ht
          cases ht
        · rw [AList.lookup_erase_ne hu] at ht
          exact h.marked u t ht
      · intro e he hi
        rw [show s.cyclingOf i = none from hguard] at hi
        cases hi
  | mark uid =>
    refine h.calm hx rfl rfl (fun pod => h.current i pod) ?_ ?_ ?_
    · intro j u hi
      change (s.cycling.erase i).lookup i = some u at hi
      rw [AList.lookup_erase] at hi
      cases hi
    · intro u t ht
      change (s.marks.insert uid s.now).lookup u = some t at ht
      by_cases hu : u = uid
      · rw [hu, AList.lookup_insert] at ht
        exact (Option.some.inj ht).ge
      · rw [AList.lookup_insert_ne hu] at ht
        exact h.marked u t ht
    · intro e he hi
      have hu : e.actual = uid := (Option.some.inj ((show s.cyclingOf i = some uid from hguard).symm.trans
        hi)).symm
      refine .inl (.inr (.inl ⟨s.now, ?_, h.past e he⟩))
      rw [hu]
      exact AList.lookup_insert _
  | evict pod =>
    obtain ⟨hpending, hcycling, hrested⟩ := hguard
    match x, hx with
    | .ok (), .inr (.inr hkey) => exact h.strike hpending hcycling hrested hkey
    | .error (.lost _), .inr (.inr hkey) => exact h.strike hpending hcycling hrested hkey
    | .error .tooManyRequests, _ => exact h
    | .error (.other _), _ => exact h
    | .ok (), .inl hother => exact absurd hother (by simp)
    | .error (.lost _), .inl hother => exact absurd hother (by simp)
    | .ok (), .inr (.inl hmany) => cases hmany
    | .error (.lost _), .inr (.inl hmany) => cases hmany
  | forceDelete pod =>
    obtain ⟨hpending, hcycling, hrested⟩ := hguard
    match x, hx with
    | .ok (), .inr (.inr hkey) => exact h.strike hpending hcycling hrested hkey
    | .error (.lost _), .inr (.inr hkey) => exact h.strike hpending hcycling hrested hkey
    | .error .tooManyRequests, _ => exact h
    | .error (.other _), _ => exact h
    | .ok (), .inl hother => exact absurd hother (by simp)
    | .error (.lost _), .inl hother => exact absurd hother (by simp)
    | .ok (), .inr (.inl hmany) => cases hmany
    | .error (.lost _), .inr (.inl hmany) => cases hmany
  | now => exact h
  | sleep => exact h
  | smokeWait pod => exact h

theorem Settled.proceeds (h : s.Settled c e) (hstep : s.Proceeds (CalmSteps c) s') :
    s'.Settled c e := by
  cases hstep with
  | tick now hle => exact h.imp_left fun hold => hold.trans hle
  | vanish key => exact h
  | create key uid hfree hallowed => exact h

theorem Inv.proceeds (h : Inv c s) (hstep : s.Proceeds (CalmSteps c) s') : Inv c s' := by
  have hsettled : ∀ e ∈ s.effects, s'.Settled c e ∨ ∃ i, s.cyclingOf i = some e.actual :=
    fun e he => (h.settled e he).imp_left fun hold => hold.proceeds hstep
  cases hstep with
  | tick now hle =>
    exact ⟨h.current, h.alone, fun u t ht => (h.marked u t ht).trans hle,
      fun e he => (h.past e he).trans hle, h.meant, hsettled, h.apart⟩
  | vanish key =>
    refine ⟨fun i pod hpod => ?_, h.alone, h.marked, h.past, h.meant, hsettled, h.apart⟩
    change (s.pods.erase key).lookup pod.key = none ∨ (s.pods.erase key).lookup pod.key = some pod.uid
    by_cases hkey : pod.key = key
    · rw [hkey, AList.lookup_erase]
      exact .inl rfl
    · rw [AList.lookup_erase_ne hkey]
      exact h.current i pod hpod
  | create key uid hfree hallowed =>
    refine ⟨fun i pod hpod => ?_, h.alone, h.marked, h.past, h.meant, hsettled, h.apart⟩
    have hkey : pod.key ≠ key := by
      cases hlookup : s.pending.lookup i with
      | none =>
        rw [pendingOf, hlookup] at hpod
        cases hpod
      | some pods =>
        rw [pendingOf, hlookup] at hpod
        exact hallowed ⟨i, pods⟩ (AList.mem_lookup_iff.mp hlookup) pod hpod
    change (s.pods.insert key uid).lookup pod.key = none ∨
      (s.pods.insert key uid).lookup pod.key = some pod.uid
    rw [AList.lookup_insert_ne hkey]
    exact h.current i pod hpod

end Preservation

end State

/-! ## The goroutines -/

def discipline (c : Cycler) : Discipline Nat Action Action.Value State where
  toSystem := system c (CalmSteps c)
  inv := State.Inv c
  guard := State.Guard c
  quiet _ _ := False
  guard_of_quiet _ _ _ hquiet := hquiet.elim
  inv_performs := by
    rintro i a s x s' hinv hguard ⟨hallowed, hx, rfl⟩
    exact hinv.after hguard hallowed hx
  inv_env _ _ hinv hstep := hinv.proceeds hstep

section Goroutines

variable {c : Cycler} {i : Nat} {s s' : State} {pod : Pod} {rest : List Pod} {u : String}

theorem State.Inv.effects_after {a : Action} {x : a.Value} {e : Effect} (h : State.Inv c s)
    (hguard : State.Guard c i a s) (hx : s.Answers c a x) (he : e ∈ (s.after i a x).effects) :
    e ∈ s.effects ∨ s.cyclingOf i = some e.actual := by
  have hstrike : ∀ {pod : Pod} {lost : Bool}, (∃ rest, s.pendingOf i = pod :: rest) →
      s.cyclingOf i = some pod.uid → pod.key ∈ s.pods → e ∈ (s.strike pod lost).effects →
      e ∈ s.effects ∨ s.cyclingOf i = some e.actual := by
    rintro pod lost hpending hcycling hkey (_ | ⟨_, he⟩)
    · exact .inr (hcycling.trans (congrArg some (h.actual hpending hkey).symm))
    · exact .inl he
  cases a with
  | skip uid => cases x <;> exact .inl he
  | evict pod =>
    match x, hx with
    | .ok (), .inr (.inr hkey) => exact hstrike hguard.1 hguard.2.1 hkey he
    | .error (.lost _), .inr (.inr hkey) => exact hstrike hguard.1 hguard.2.1 hkey he
    | .error .tooManyRequests, _ => exact .inl he
    | .error (.other _), _ => exact .inl he
    | .ok (), .inl hother => exact absurd hother (by simp)
    | .error (.lost _), .inl hother => exact absurd hother (by simp)
    | .ok (), .inr (.inl hmany) => cases hmany
    | .error (.lost _), .inr (.inl hmany) => cases hmany
  | forceDelete pod =>
    match x, hx with
    | .ok (), .inr (.inr hkey) => exact hstrike hguard.1 hguard.2.1 hkey he
    | .error (.lost _), .inr (.inr hkey) => exact hstrike hguard.1 hguard.2.1 hkey he
    | .error .tooManyRequests, _ => exact .inl he
    | .error (.other _), _ => exact .inl he
    | .ok (), .inl hother => exact absurd hother (by simp)
    | .error (.lost _), .inl hother => exact absurd hother (by simp)
    | .ok (), .inr (.inl hmany) => cases hmany
    | .error (.lost _), .inr (.inl hmany) => cases hmany
  | _ => exact .inl he

def State.Closed (c : Cycler) (s : State) (uid : String) : Prop :=
  ∀ e ∈ s.effects, e.actual = uid → s.Settled c e

structure State.Kept (c : Cycler) (i : Nat) (s s' : State) : Prop where
  pending : s'.pendingOf i = s.pendingOf i
  cycling : s'.cyclingOf i = s.cyclingOf i
  rested : ∀ u, s.cyclingOf i = some u → s.Rested c u → s'.Rested c u
  closed : ∀ u, s.cyclingOf i = some u → s.Closed c u → s'.Closed c u

theorem kept_of_interferes (h : (discipline c).Interferes i s s') : s.Kept c i s' := by
  obtain ⟨hinv, hstep | ⟨j, a, x, hj, hguard, -, hx, rfl⟩⟩ := h
  · have heffects : s'.effects = s.effects ∧ s'.pending = s.pending ∧ s'.cycling = s.cycling ∧
        s.now ≤ s'.now := by
      cases hstep with
      | tick now hle => exact ⟨rfl, rfl, rfl, hle⟩
      | vanish key => exact ⟨rfl, rfl, rfl, le_rfl⟩
      | create key uid hfree hallowed => exact ⟨rfl, rfl, rfl, le_rfl⟩
    obtain ⟨heffects, hpending, hcycling, hnow⟩ := heffects
    refine ⟨by rw [State.pendingOf, hpending, State.pendingOf],
      by rw [State.cyclingOf, hcycling, State.cyclingOf], fun u _ hrested e he hu => ?_,
      fun u _ hclosed e he hu => ?_⟩
    · rw [heffects] at he
      exact (hrested e he hu).trans hnow
    · rw [heffects] at he
      exact (hclosed e he hu).proceeds hstep
  · have hji : i ≠ j := by
      rcases hj with hj | hquiet
      · exact Ne.symm hj
      · exact absurd hquiet (by simp [discipline])
    obtain ⟨hpending, hcycling⟩ := State.after_other (a := a) (x := x) (s := s) hji
    have hold : ∀ {u e}, s.cyclingOf i = some u → e ∈ (s.after j a x).effects → e.actual = u →
        e ∈ s.effects := by
      intro u e hi he hu
      rcases hinv.effects_after hguard hx he with he | hcyclingj
      · exact he
      · rw [hu] at hcyclingj
        exact absurd (hinv.alone i j u hi hcyclingj) hji
    refine ⟨hpending, hcycling, fun u hi hrested e he hu => ?_, fun u hi hclosed e he hu => ?_⟩
    · rw [State.after_now]
      exact hrested e (hold hi he hu) hu
    · have he' := hold hi he hu
      exact (hclosed e he' hu).after hinv.marked (hinv.past e he') hx

theorem kept_of_rely (h : (discipline c).Rely i s s') : s.Kept c i s' := by
  induction h with
  | refl => exact ⟨rfl, rfl, fun _ _ h => h, fun _ _ h => h⟩
  | tail _ hstep ih =>
    have hkept := kept_of_interferes hstep
    refine ⟨hkept.pending.trans ih.pending, hkept.cycling.trans ih.cycling, ?_, ?_⟩
    · exact fun u hi hrested => hkept.rested u (ih.cycling.trans hi) (ih.rested u hi hrested)
    · exact fun u hi hclosed => hkept.closed u (ih.cycling.trans hi) (ih.closed u hi hclosed)

structure State.Evicting (c : Cycler) (i : Nat) (pod : Pod) (rest : List Pod) (s : State) :
    Prop where
  pending : s.pendingOf i = pod :: rest
  cycling : s.cyclingOf i = some pod.uid
  rested : s.Rested c pod.uid

structure State.Cycled (c : Cycler) (i : Nat) (pod : Pod) (rest : List Pod) (s : State) :
    Prop where
  pending : s.pendingOf i = pod :: rest
  closed : ∀ u, s.cyclingOf i = some u → s.Closed c u

theorem State.Evicting.rely (h : s.Evicting c i pod rest) (hrely : (discipline c).Rely i s s') :
    s'.Evicting c i pod rest := by
  have hkept := kept_of_rely hrely
  exact ⟨hkept.pending.trans h.pending, hkept.cycling.trans h.cycling,
    hkept.rested _ h.cycling h.rested⟩

theorem State.Evicting.cycled (h : s.Evicting c i pod rest) : s.Cycled c i pod rest := by
  refine ⟨h.pending, fun u hu => ?_⟩
  rw [h.cycling] at hu
  obtain rfl := Option.some.inj hu
  exact State.Settled.of_rested h.rested

theorem State.Cycled.rely (h : s.Cycled c i pod rest) (hrely : (discipline c).Rely i s s') :
    s'.Cycled c i pod rest := by
  have hkept := kept_of_rely hrely
  refine ⟨hkept.pending.trans h.pending, fun u hu => ?_⟩
  rw [hkept.cycling] at hu
  exact hkept.closed u hu (h.closed u hu)

theorem State.Evicting.strike_lost (h : s.Evicting c i pod rest) :
    (s.strike pod true).Cycled c i pod rest := by
  refine ⟨h.pending, fun u hu => ?_⟩
  obtain rfl : pod.uid = u := Option.some.inj (h.cycling.symm.trans hu)
  rintro e (_ | ⟨_, he⟩) heu
  · exact .inr (.inr List.mem_cons_self)
  · exact .inl (h.rested e he heu)

theorem meets_mark (hpending : s.pendingOf i = pod :: rest)
    (hcycling : s.cyclingOf i = some pod.uid) :
    (discipline c).Meets i (fun _ t => t.Cycled c i pod rest) (fun _ _ => True)
      (act (.mark pod.uid) >>= fun _ => pure (Except.ok () : Except String Unit)) s := by
  intro t hrely _
  have hkept := kept_of_rely hrely
  refine ⟨hkept.cycling.trans hcycling, fun _ t' hperforms => ?_⟩
  obtain ⟨-, -, rfl⟩ := hperforms
  refine ⟨hkept.pending.trans hpending, fun u hu => ?_⟩
  change (t.cycling.erase i).lookup i = some u at hu
  rw [AList.lookup_erase] at hu
  cases hu

theorem meets_evictUntil {deadline left : Nat} (h : s.Evicting c i pod rest) :
    (discipline c).Meets i (fun _ t => t.Cycled c i pod rest) (fun _ _ => True)
      (evictUntil pod deadline left) s := by
  induction left generalizing s with
  | zero => trivial
  | succ left ih =>
    intro t hrely _
    have ht := h.rely hrely
    refine ⟨⟨⟨rest, ht.pending⟩, ht.cycling, ht.rested⟩, fun x t' hperforms => ?_⟩
    obtain ⟨-, -, rfl⟩ := hperforms
    match x with
    | .ok () => exact meets_mark ht.pending ht.cycling
    | .error (.lost err) => exact ht.strike_lost
    | .error (.other err) => exact ht.cycled
    | .error .tooManyRequests =>
      intro t₁ hrely₁ _
      have ht₁ := State.Evicting.rely ht hrely₁
      refine ⟨trivial, fun now t₂ hperforms => ?_⟩
      obtain ⟨-, -, rfl⟩ := hperforms
      change (discipline c).Meets _ _ _ (if _ then _ else _) _
      split
      · intro t₃ hrely₃ _
        have ht₃ := State.Evicting.rely ht₁ hrely₃
        refine ⟨⟨⟨rest, ht₃.pending⟩, ht₃.cycling, ht₃.rested⟩, fun y t₄ hperforms => ?_⟩
        obtain ⟨-, -, rfl⟩ := hperforms
        match y with
        | .ok () => exact meets_mark ht₃.pending ht₃.cycling
        | .error (.lost err) => exact ht₃.strike_lost
        | .error (.other err) => exact ht₃.cycled
        | .error .tooManyRequests => exact ht₃.cycled
      · intro t₃ hrely₃ _
        have ht₃ := State.Evicting.rely ht₁ hrely₃
        refine ⟨trivial, fun canceled t₄ hperforms => ?_⟩
        obtain ⟨-, -, rfl⟩ := hperforms
        cases canceled with
        | true => exact ht₃.cycled
        | false => exact ih ht₃

theorem State.Inv.rested_of_skips (h : State.Inv c s) (hskips : s.skips c u = false)
    (hcalm : CalmSteps c (.act i (.skip u)) s) : s.Rested c u := by
  obtain ⟨halone, hlost⟩ := hcalm
  intro e he hu
  rcases h.settled e he with (hold | ⟨t, ht, hle⟩ | hlost') | ⟨j, hj⟩
  · exact hold
  · rw [hu] at ht
    simp only [State.skips, ht, Bool.not_eq_false', decide_eq_true_eq] at hskips
    have := h.marked u t ht
    omega
  · exact hlost e hlost' hu
  · rw [hu] at hj
    exact absurd rfl (halone ⟨j, u⟩ (AList.mem_lookup_iff.mp hj))

structure State.Between (i : Nat) (pods : List Pod) (s : State) : Prop where
  pending : s.pendingOf i = pods
  cycling : s.cyclingOf i = none

theorem State.Between.rely {pods : List Pod} (h : s.Between i pods)
    (hrely : (discipline c).Rely i s s') : s'.Between i pods := by
  have hkept := kept_of_rely hrely
  exact ⟨hkept.pending.trans h.pending, hkept.cycling.trans h.cycling⟩

theorem State.Between.cycled (h : s.Between i (pod :: rest)) : s.Cycled c i pod rest := by
  refine ⟨h.pending, fun u hu => ?_⟩
  rw [h.cycling] at hu
  cases hu

theorem meets_cycleOne (hpending : s.pendingOf i = pod :: rest) (hcycling : s.cyclingOf i = none) :
    (discipline c).Meets i (fun _ t => t.Cycled c i pod rest) (fun _ _ => True) (cycleOne c pod)
      s := by
  intro t hrely hinv
  have hkept := kept_of_rely hrely
  have hpending' := hkept.pending.trans hpending
  have hcycling' := hkept.cycling.trans hcycling
  refine ⟨hcycling', fun skip t' hperforms => ?_⟩
  obtain ⟨hallowed, hskips, rfl⟩ := hperforms
  cases skip with
  | true => exact State.Between.cycled ⟨hpending', hcycling'⟩
  | false =>
    have hevicting : (t.after i (.skip pod.uid) false).Evicting c i pod rest := by
      refine ⟨hpending', ?_, hinv.rested_of_skips hskips.symm hallowed⟩
      exact AList.lookup_insert _
    intro t₁ hrely₁ _
    refine ⟨trivial, fun start t₂ hperforms => ?_⟩
    obtain ⟨-, -, rfl⟩ := hperforms
    exact meets_evictUntil (hevicting.rely hrely₁)

theorem meets_settle {α : Type} {Q : α → State → Prop} {next : Unit → Api α}
    (hnext : ∀ t : State, t.Between i rest → (discipline c).Meets i Q (fun _ _ => True) (next ()) t)
    (h : s.Cycled c i pod rest) :
    (discipline c).Meets i Q (fun _ _ => True) (act .settle >>= next) s := by
  intro t hrely _
  have ht := h.rely hrely
  refine ⟨fun u hu => ht.closed u hu, fun _ t' hperforms => ?_⟩
  obtain ⟨-, -, rfl⟩ := hperforms
  refine hnext _ ⟨?_, AList.lookup_erase _ _⟩
  change ((t.pending.insert i (t.pendingOf i).tail).lookup i).getD [] = rest
  rw [AList.lookup_insert, ht.pending]
  rfl

theorem meets_cycleThen {last : Bool} {next : Api Unit}
    (hnext : ∀ t : State, t.Between i rest →
      (discipline c).Meets i (fun _ _ => True) (fun _ _ => True) next t)
    (h : s.Between i (pod :: rest)) :
    (discipline c).Meets i (fun _ _ => True) (fun _ _ => True) (cycleThen c pod last next) s := by
  refine (meets_cycleOne h.pending h.cycling).bind fun _ t ht => ?_
  refine meets_settle (fun t₁ ht₁ => ?_) ht
  change (discipline c).Meets _ _ _ (if _ then _ else _) _
  split
  · intro t₂ hrely _
    refine ⟨trivial, fun canceled t₃ hperforms => ?_⟩
    obtain ⟨-, -, rfl⟩ := hperforms
    cases canceled with
    | true => trivial
    | false => exact hnext _ (State.Between.rely ht₁ hrely)
  · exact hnext t₁ ht₁

theorem meets_cycleEach {pods : List Pod} (h : s.Between i pods) :
    (discipline c).Meets i (fun _ _ => True) (fun _ _ => True) (cycleEach c pods) s := by
  induction pods generalizing s with
  | nil => trivial
  | cons pod rest ih =>
    rw [cycleEach]
    split
    · intro t hrely _
      refine ⟨trivial, fun x t' hperforms => ?_⟩
      obtain ⟨-, -, rfl⟩ := hperforms
      have ht := State.Between.rely h hrely
      match x with
      | .error .canceled => trivial
      | .error .failed =>
        exact meets_settle (fun _ ht₁ => ih ht₁) ht.cycled
      | .ok () => exact meets_cycleThen (fun t₁ ht₁ => ih ht₁) ht
    · exact meets_cycleThen (fun t₁ ht₁ => ih ht₁) h

theorem meets_select {candidates : List Pod} {next : Api Unit}
    (hnext : ∀ t : State, t.Between i candidates →
      (discipline c).Meets i (fun _ _ => True) (fun _ _ => True) next t)
    (hcycling : s.cyclingOf i = none) :
    (discipline c).Meets i (fun _ _ => True) (fun _ _ => True)
      (act (.select candidates) >>= fun _ => next) s := by
  intro t hrely _
  refine ⟨trivial, fun _ t' hperforms => ?_⟩
  obtain ⟨-, -, rfl⟩ := hperforms
  refine hnext _ ⟨?_, (kept_of_rely hrely).cycling.trans hcycling⟩
  change ((t.pending.insert i candidates).lookup i).getD [] = candidates
  rw [AList.lookup_insert]
  rfl

theorem meets_release : (discipline c).Meets i (fun _ _ => True) (fun _ _ => True)
    (act .release) s :=
  fun _ _ _ => ⟨trivial, fun _ _ _ => trivial⟩

theorem meets_program (hcycling : s.cyclingOf i = none) :
    (discipline c).Meets i (fun _ _ => True) (fun _ _ => True) (c.program i) s := by
  unfold Cycler.program
  split
  · refine meets_select (fun t ht => ?_) hcycling
    exact (meets_cycleEach ht).bind fun _ _ _ => meets_release
  · refine meets_select (fun t ht => ?_) hcycling
    refine (meets_cycleOne ht.pending ht.cycling).bind fun _ t₁ ht₁ => ?_
    exact meets_settle (fun _ _ => meets_release) ht₁

end Goroutines

end ClusterState.Recycler
