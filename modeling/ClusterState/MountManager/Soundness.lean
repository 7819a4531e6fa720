import ClusterState.MountManager.Conduct

/-! # Runs of the mount service

The programs of all threads keep to their guards, so the invariant holds in
every state that any interleaving reaches.
-/

namespace ClusterState.MountManager

open Concurrency

section Threads

variable {d : Deployment} {A : Steps} {n : Nat} {s : State} {p : ProcessId}

theorem held_nil (s : State) : s.locks.Held [] := List.forall_mem_nil _

theorem within_nil {i : Thread} (h : Entered d i s) : Within d i [] s := ⟨held_nil s, h⟩

theorem entered_of_not_client {i : Thread} (h : d.client i = false) : Entered d i s := by
  intro hclient
  rw [h] at hclient
  cases hclient

theorem conducts_letIn {body : Api Response} {err : String}
    (hclient : d.client (.request n) = true)
    (hbody : ∀ t, Within d (.request n) [] t → Conducts d A n [] body t) :
    Conducts d A n []
      (perform .takeoverInProgress >>= fun busy => if busy then throw err else body) s := by
  refine meets_perform_bind (P := fun _ => True) (fun _ _ _ _ => trivial) trivial
    (fun _ _ _ => trivial) ?_
  intro x t _ _ _ _
  cases x with
  | true => exact held_nil t
  | false =>
    refine hbody _ (within_nil fun _ => ?_)
    rw [State.after, if_pos hclient]
    exact List.mem_cons_self

theorem conducts_mount {req : Option MountRequest} (hcall : d.calls n = .mount req) :
    Conducts d A n [] (mount d req) s := by
  have hclient : d.client (.request n) = true := by
    rw [Deployment.client, hcall]
    rfl
  refine conducts_letIn hclient fun t ht => ?_
  cases req with
  | none => exact ht.1
  | some req =>
    change Conducts d A n [] (Program.ofExcept (validateMountRequest req) >>= fun _ => _) t
    cases validateMountRequest req with
    | error err => exact ht.1
    | ok _ =>
      exact conducts_withLock (List.forall_mem_nil _)
        (fun m t hF ht => conducts_mountLocked hF List.mem_cons_self hclient ht) ht

theorem conducts_unmount {req : Option UnmountRequest} (hcall : d.calls n = .unmount req) :
    Conducts d A n [] (unmount req) s := by
  have hclient : d.client (.request n) = true := by
    rw [Deployment.client, hcall]
    rfl
  refine conducts_letIn hclient fun t ht => ?_
  cases req with
  | none => exact ht.1
  | some req =>
    dsimp only
    split
    · exact ht.1
    · exact conducts_withLock (List.forall_mem_nil _)
        (fun m t hF ht => conducts_unmountLocked hF List.mem_cons_self hclient ht) ht

theorem conducts_finalizeTakeover {req : Option TakeoverVolumeRequest}
    (hcall : d.calls n = .finalizeTakeover req) :
    Conducts d A n [] (finalizeTakeover req) s := by
  have hentered : Entered d (.request n) s := by
    apply entered_of_not_client
    rw [Deployment.client, hcall]
    rfl
  cases req with
  | none => exact held_nil s
  | some req =>
    rw [finalizeTakeover]
    split
    · exact held_nil s
    · exact conducts_withLock (List.forall_mem_nil _) (fun m t hF ht =>
        conducts_finalizeLocked hF List.mem_cons_self ⟨n, req, rfl, hcall, rfl⟩ ht)
        (within_nil hentered)

theorem conducts_only_bind {α : Type} {m : Api α} {f : α → Api Response}
    (hm : m.Only (Quiet (.request n))) (hf : ∀ a t, Conducts d A n [] (f a) t) :
    Conducts d A n [] (m >>= f) s :=
  .only_bind (P := fun _ => True) (fun _ _ _ _ => trivial) hm trivial (fun _ t _ => held_nil t)
    (fun a t _ => hf a t)

theorem conducts_handle {call : Call} (hcall : d.calls n = call) : Conducts d A n [] (handle d call) s := by
  have hentered : call.client = false → Entered d (.request n) s := by
    intro hclient
    apply entered_of_not_client
    rw [Deployment.client, hcall]
    exact hclient
  cases call with
  | mount req => exact conducts_mount hcall
  | unmount req => exact conducts_unmount hcall
  | takeoverInventory req =>
    cases req with
    | none => exact held_nil s
    | some _ =>
      refine conducts_only_bind (only_perform trivial) fun _ _ => ?_
      exact conducts_only_bind (only_perform trivial) fun _ t => ⟨held_nil t, trivial⟩
  | exportTakeover req =>
    cases req with
    | none => exact held_nil s
    | some req =>
      rw [handle, exportTakeover]
      repeat' split
      · exact held_nil s
      · exact held_nil s
      · exact conducts_withLock (List.forall_mem_nil _) (fun m t hF ht => conducts_exportLocked hF ht)
          (within_nil (hentered rfl))
  | finalizeTakeover req => exact conducts_finalizeTakeover hcall
  | cancelTakeover req => exact conducts_cancelTakeover (List.forall_mem_nil _) (within_nil (hentered rfl))
  | releaseTakeover req =>
    cases req with
    | none => exact held_nil s
    | some _ => exact conducts_only_bind (only_perform trivial) fun _ t => ⟨held_nil t, trivial⟩
  | importTakeoverMount mount fdFile =>
    exact conducts_withLock (List.forall_mem_nil _) (fun m t hF ht => conducts_importLocked hF List.mem_cons_self
      ⟨n, mount, fdFile, rfl, hcall⟩ ht) (within_nil (hentered rfl))

theorem meets_serve : (discipline d A).Meets (.request n) (fun _ _ => True) (fun _ _ => True)
    (serve d (d.calls n)) s := by
  refine .bind (.attempt (conducts_handle rfl)) fun result t ht => ?_
  rcases ht with ⟨r, rfl, -, hreported⟩ | ⟨err, rfl, -⟩
  · intro t' hrely _
    have hreported' := (stable_reported r).rely hrely hreported
    refine ⟨?_, fun _ _ _ => trivial⟩
    cases r with
    | mounted _ p => exact hreported'
    | _ => trivial
  · exact fun _ _ _ => ⟨trivial, fun _ _ _ => trivial⟩

/-! ## The goroutine of a worker -/

/-- The stage of a process changes by its own goroutine, and when it exits. -/
theorem stage_after {i : Thread} {o : Operation} {x : o.Value} {w w' : Process}
    (hw : s.processes[p]? = some w) (hw' : (s.after d i o x).processes[p]? = some w') :
    w'.stage = w.stage ∨ o = .cmdWait p ∨ o = .closeDone p ∨
      (i = .waiter p ∧ ∃ v, o = .detachMount v) := by
  have hsame : s.processes[p]? = some w' → w'.stage = w.stage := by
    intro h
    rw [Option.some.inj (hw.symm.trans h)]
  have hmodify : ∀ {q : ProcessId} {f : Process → Process},
      (s.modifyProcess q f).processes[p]? = some w' →
      w'.stage = w.stage ∨ p = q ∧ w' = f w := by
    intro q f h
    obtain ⟨w₀, hw₀, heq⟩ := State.of_modifyProcess h
    rw [← Option.some.inj (hw.symm.trans hw₀)] at heq
    rcases heq with heq | ⟨-, rfl⟩
    · exact .inr heq
    · exact .inl rfl
  cases o with
  | putMount v e =>
    rcases hmodify hw' with h | ⟨-, rfl⟩
    · exact .inl h
    · exact .inl rfl
  | detachMount v =>
    cases i with
    | request k => exact .inl (hsame hw')
    | waiter q =>
      rcases hmodify hw' with h | ⟨rfl, -⟩
      · exact .inl h
      · exact .inr (.inr (.inr ⟨rfl, v, rfl⟩))
  | start cmd =>
    cases x with
    | error err => exact .inl (hsame hw')
    | ok q =>
      have hlt := (List.getElem?_eq_some_iff.mp hw).1
      exact .inl (hsame ((List.getElem?_append_left hlt).symm.trans hw'))
  | takeoverInProgress =>
    cases x with
    | true => exact .inl (hsame hw')
    | false =>
      rw [State.after] at hw'
      split at hw' <;> exact .inl (hsame hw')
  | reply result =>
    cases result with
    | error err => exact .inl (hsame hw')
    | ok response =>
      cases response with
      | mounted _ q =>
        rcases hmodify hw' with h | ⟨-, rfl⟩
        · exact .inl h
        · exact .inl rfl
      | _ => exact .inl (hsame hw')
  | terminate q =>
    rcases hmodify hw' with h | ⟨-, rfl⟩
    · exact .inl h
    · exact .inl rfl
  | setPreserveMountOnExit q preserve =>
    rcases hmodify hw' with h | ⟨-, rfl⟩
    · exact .inl h
    · exact .inl rfl
  | recordMountFD q fd =>
    rcases hmodify hw' with h | ⟨-, rfl⟩
    · exact .inl h
    · exact .inl rfl
  | cmdWait q =>
    rcases hmodify hw' with h | ⟨rfl, -⟩
    · exact .inl h
    · exact .inr (.inl rfl)
  | closeDone q =>
    rcases hmodify hw' with h | ⟨rfl, -⟩
    · exact .inl h
    · exact .inr (.inr (.inl rfl))
  | _ => exact .inl (hsame hw')

def Waits (p : ProcessId) (target v : String) (stage : Stage) (s : State) : Prop :=
  s.Has p (fun w => (w.target = target ∧ w.volumeID = v) ∧ w.stage = stage)

theorem stable_waits {target v : String} {stage : Stage} (hstage : stage ≠ .running) :
    (discipline d A).Stable (.waiter p) (Waits p target v stage) := by
  rintro s s' h ⟨w, hw, ⟨htarget, hvol⟩, hw_stage⟩
  obtain ⟨w', hw', hstep⟩ := forward_of_interferes h p w hw
  refine ⟨w', hw', ⟨hstep.target.trans htarget, hstep.volumeID.trans hvol⟩, ?_⟩
  rw [← hw_stage]
  obtain ⟨-, ⟨q, w₀, hw₀, hrun, rfl⟩ | ⟨l, rfl⟩ | ⟨j, o, x, hj, -, hperm, -, rfl⟩⟩ :=
    interferes_cases h
  · obtain ⟨w₁, hw₁, ⟨rfl, -⟩ | ⟨-, rfl⟩⟩ := State.of_modifyProcess hw'
    · rw [← hw_stage, Option.some.inj (hw.symm.trans hw₀), hrun] at hstage
      exact absurd rfl hstage
    · rw [Option.some.inj (hw.symm.trans hw₁)]
  · rw [Option.some.inj (hw.symm.trans hw')]
  · have hloud : j = .waiter p → ¬Quiet j (.own o) → w'.stage = w.stage :=
      fun hjp hquiet => absurd (hj.resolve_left fun hne => hne hjp) hquiet
    rcases stage_after hw hw' with hsame | rfl | rfl | ⟨rfl, v', rfl⟩
    · exact hsame
    · exact hloud hperm (by rw [show j = .waiter p from hperm]; exact id)
    · exact hloud hperm.1 (by rw [hperm.1]; exact id)
    · exact hloud rfl id

theorem meets_wait : (discipline d A).Meets (.waiter p) (fun _ _ => True) (fun _ _ => True)
    (wait p) s := by
  refine meets_perform_bind (P := fun _ => True) (fun _ _ _ _ => trivial) trivial
    (fun _ _ _ => rfl) ?_
  rintro ⟨target, v⟩ t - - - ⟨w, hw, -, heq⟩
  obtain ⟨rfl, rfl⟩ := Prod.mk.inj heq
  have hreaped : Waits p w.target w.volumeID .reaped
      (t.after d (.waiter p) (.cmdWait p) (w.target, w.volumeID)) :=
    ⟨_, State.getElem?_modifyProcess_self hw, ⟨rfl, rfl⟩, rfl⟩
  have hstable : ∀ stage : Stage, stage ≠ .running → (discipline d A).Stable (.waiter p)
      (Waits p w.target w.volumeID stage) := fun _ => stable_waits
  have hclose : ∀ t', Waits p w.target w.volumeID .reaped t' →
      (discipline d A).Meets (.waiter p) (fun _ _ => True) (fun _ _ => True)
        (perform (.closeDone p) >>= fun _ => perform (.detachMount w.volumeID)) t' := by
    intro t' ht'
    refine meets_perform_bind (hstable .reaped nofun) ht'
      (fun _ _ h => ⟨rfl, h.mono fun _ h => h.2⟩) ?_
    rintro x t₁ - ⟨w₁, hw₁, hsame, -⟩ - -
    have hclosed : Waits p w.target w.volumeID .closed (t₁.after d (.waiter p) (.closeDone p) x) :=
      ⟨_, State.getElem?_modifyProcess_self hw₁, hsame, rfl⟩
    intro t₂ hrely _
    have hclosed₂ := (hstable .closed nofun).rely hrely hclosed
    exact ⟨hclosed₂.mono fun _ h => ⟨h.1.2, h.2⟩, fun _ _ _ => trivial⟩
  refine meets_observe_bind (hstable .reaped nofun) hreaped fun preserve t₁ _ ht₁ _ => ?_
  cases preserve with
  | true => exact hclose t₁ ht₁
  | false =>
    apply meets_perform_bind (hstable .reaped nofun) ht₁
    · intro t₂ _ ht₂ q hq
      cases hq
      exact ht₂.mono fun _ h => ⟨h.1.1, h.2⟩
    · intro x t₂ _ ht₂ _ _
      exact hclose t₂ ht₂

end Threads

/-! ## Runs -/

def Deployment.Reachable (d : Deployment) (A : Steps) (run : Run) : Prop :=
  ((system d).under A).Reaches d.start run

section Runs

variable {d : Deployment} {A : Steps} {run : Run}

theorem Deployment.sound_start (d : Deployment) (A : Steps) : (discipline d A).Sound d.start := by
  refine ⟨inv_initial d A, fun i => ?_⟩
  cases i with
  | request n => exact meets_serve
  | waiter p => exact meets_wait

theorem Deployment.Reachable.sound (h : d.Reachable A run) : (discipline d A).Sound run :=
  (d.sound_start A).reaches h

theorem Deployment.Reachable.inv (h : d.Reachable A run) : Inv d A run.shared := h.sound.1

theorem locks_after_cases {i : Thread} {o : Operation} {x : o.Value} {s : State} :
    (s.after d i o x).locks = s.locks ∨ ∃ v, (s.after d i o x).locks = s.locks.delete v := by
  unfold State.after
  repeat' split
  case h_7 v _ => exact .inr ⟨v, rfl⟩
  all_goals exact .inl rfl

theorem Deployment.Reachable.numbered (h : d.Reachable A run) : run.shared.locks.Numbered := by
  refine (d.sound_start A).keeps (R := fun s : State => s.locks.Numbered) ?_ ?_
    KeyedLock.numbered_empty h
  · rintro i r s x s' hguard ⟨-, hperforms⟩ hs
    cases r with
    | get k =>
      obtain ⟨-, rfl⟩ := hperforms
      exact hs.get
    | lock k m =>
      obtain ⟨-, rfl⟩ := hperforms
      exact hs.lock hguard
    | unlock k m =>
      obtain rfl := hperforms
      exact hs.unlock
    | own o =>
      obtain ⟨-, rfl⟩ := hperforms
      rcases locks_after_cases (d := d) (i := i) (o := o) (x := x) (s := s) with hlocks | ⟨v, hlocks⟩
      · rw [hlocks]
        exact hs
      · rw [hlocks]
        exact hs.delete
  · rintro s s' ⟨p, w, -, -, rfl⟩ hs
    exact hs

theorem Deployment.Reachable.permitted (h : d.Reachable A run) {i : Thread} {o : Operation}
    {next : o.Value → Api Unit} (hask : run.procs i = .ask (.own o) next) :
    Permitted d A i o run.shared := h.sound.guard hask

end Runs

end ClusterState.MountManager
