import ClusterState.MountManager.Settling

/-! # Which takeovers orphan a mount

A takeover that does not get through orphans the volume it has stopped at, if the old
worker is gone by then. Before its inventory has arrived it orphans nothing.
-/

namespace ClusterState.MountManager

open Concurrency

section Takeover

variable {w : World} {old : State}

theorem State.listing_sublist {s : State} (hentry : ∀ v e, s.mountOf v = some e → e.volumeID = v)
    (keys : List String) : ((keys.filterMap s.mountOf).map (·.volumeID)).Sublist keys := by
  induction keys with
  | nil => exact .slnil
  | cons v keys ih =>
    cases he : s.mountOf v with
    | none =>
      rw [List.filterMap_cons_none he]
      exact ih.cons v
    | some e =>
      rw [List.filterMap_cons_some he, List.map_cons, hentry v e he]
      exact ih.cons_cons v

/-- In every run, a takeover finds the registered workers apart from each other;
that they run is an assumption. -/
theorem Deployment.Reachable.pending {d : Deployment} {A : Steps} {run : Run}
    (hrun : d.Reachable A run)
    (hrunning : ∀ e ∈ run.shared.listing, run.shared.Has e.process (fun w => w.stage = .running)) :
    Pending run.shared run.shared .initial run.shared.listing where
  unused m hm := by
    cases hlocked : run.shared.locks.locked m with
    | false => rfl
    | true => exact absurd (hrun.numbered.locked m hlocked) hm.not_gt
  unlocked _ := rfl
  serves e he := by
    obtain ⟨v, hv⟩ := State.mem_listing.mp he
    obtain ⟨rfl, p, hp, hvol, -⟩ := hrun.inv.entry v e hv
    obtain ⟨p', hp', hstage⟩ := hrunning e he
    cases hp.symm.trans hp'
    exact ⟨hv, p, hp, hvol, hstage⟩
  absent e _ := AList.lookup_empty _
  same _ _ := rfl
  free _ _ := Iff.rfl
  distinct := by
    have hentry : ∀ v e, run.shared.mountOf v = some e → e.volumeID = v :=
      fun v e he => (hrun.inv.entry v e he).1
    apply (State.listing_sublist hentry _).nodup
    exact (List.mergeSort_perm _ _).nodup_iff.mpr run.shared.mounts.nodupKeys

/-- Takeovers that never get an inventory leave the old manager as it is. -/
theorem unorphaned_of_core {old u : State} {err : String}
    (h : Pending old old .initial old.listing) (hcore : u.core = old.core) :
    Unorphaned old.listing (.error err, u, .initial) := by
  have hlive : ∀ e ∈ old.listing, u.Live e.volumeID :=
    fun e he => (h.serves e he).live.of_core hcore
  refine ⟨fun e he => ?_, nofun, fun _ _ e he _ => hlive e he⟩
  rw [Live.isSome (hlive e he), h.absent e he]
  simp

theorem Pending.of_alike {old s s' new : State} {entries : List MountEntry}
    (h : Pending old s new entries) (hlocks : s'.locks = s.locks) (hmounts : s'.mounts = s.mounts)
    (hprocesses : s'.processes = s.processes) : Pending old s' new entries where
  unused := by
    rw [hlocks]
    exact h.unused
  unlocked := h.unlocked
  serves e he := by
    obtain ⟨hentry, hworker⟩ := h.serves e he
    refine ⟨?_, ?_⟩
    · rw [State.mountOf, hmounts]
      exact hentry
    · rw [State.Has, hprocesses]
      exact hworker
  absent := h.absent
  same := by
    rw [hprocesses]
    exact h.same
  free e he := by
    rw [State.Free, hlocks]
    exact h.free e he
  distinct := h.distinct

theorem unorphaned_takeoverFrom (h : Pending old old .initial old.listing) :
    Unorphaned old.listing (w.takeoverFrom old) ↔
      (w.client = .ok () → w.delivery (.takeoverInventory (some ())) = .delivered →
        w.Spared old old.listing) := by
  have hrelease : ∀ t : State, (w.rpc (.releaseTakeover (some ())) t).2.core = t.core :=
    fun t => core_rpc ⟨trivial, fun _ => trivial⟩
  have hinventory : ∀ t : State, (w.rpc (.takeoverInventory (some ())) t).2.core = t.core :=
    fun t => core_rpc ⟨trivial, fun _ => ⟨trivial, fun _ => trivial⟩⟩
  unfold World.takeoverFrom
  cases hclient : w.client with
  | error err =>
    apply iff_of_true (unorphaned_of_core h rfl)
    intro hok
    cases hok
  | ok _ =>
    dsimp only
    cases hdelivery : w.delivery (.takeoverInventory (some ())) with
    | delivered =>
      let listed := (old.after w.deployment (.request 0) (.setTakeoverInProgress true) ()).after
        w.deployment (.request 0) .listMounts old.listing
      have hrpc : w.rpc (.takeoverInventory (some ())) old =
          (.ok (.inventory (old.listing.map takeoverMountFromEntry)), listed) := by
        simp only [World.rpc, hdelivery]
        rfl
      have hpending : Pending old listed .initial old.listing := h.of_alike rfl rfl rfl
      have hsettles := takeoverMounts_settles (w := w) hpending
      simp only [hrpc, forall_const]
      rw [← hsettles.unorphaned_iff]
      generalize w.takeoverMounts (old.listing.map takeoverMountFromEntry) listed .initial = result
        at hsettles
      obtain ⟨r, t, n⟩ := result
      cases r with
      | ok _ => rfl
      | error err =>
        rw [hsettles.unorphaned_iff]
        exact (hsettles.of_core (hrelease t)).unorphaned_iff
    | lost err =>
      have hcore := hinventory old
      have hrpc : (w.rpc (.takeoverInventory (some ())) old).1 = .error err := by
        simp only [World.rpc, hdelivery]
      generalize w.rpc (.takeoverInventory (some ())) old = listed at hcore hrpc
      obtain ⟨r, t⟩ := listed
      obtain rfl : r = .error err := hrpc
      apply iff_of_true (unorphaned_of_core h ((hrelease t).trans hcore))
      intro _ hlost
      cases hlost
    | unreached err =>
      have hrpc : w.rpc (.takeoverInventory (some ())) old = (.error err, old) := by
        simp only [World.rpc, hdelivery]
      rw [hrpc]
      apply iff_of_true (unorphaned_of_core h (hrelease old))
      intro _ hunreached
      cases hunreached
    | unsupported =>
      have hrpc : w.rpc (.takeoverInventory (some ())) old =
          (.error "mount service takeover unsupported by predecessor", old) := by
        simp only [World.rpc, hdelivery]
      rw [hrpc]
      apply iff_of_true (unorphaned_of_core h rfl)
      intro _ hunsupported
      cases hunsupported

/-- A takeover from a mount service orphans nothing if and only if the step it
ends at, if it does not get through, has not cost an old worker its life. -/
theorem takeover_orphans_none_iff {d : Deployment} {run : Run} (hrun : d.Reachable AnyStep run)
    (hrunning : ∀ e ∈ run.shared.listing, run.shared.Has e.process (fun w => w.stage = .running))
    (w : World) :
    Unorphaned run.shared.listing (w.takeoverFrom run.shared) ↔
      (w.client = .ok () → w.delivery (.takeoverInventory (some ())) = .delivered →
        w.Spared run.shared run.shared.listing) :=
  unorphaned_takeoverFrom (hrun.pending hrunning)

namespace Sample

def probe : (q : Probe) → q.Value
  | .getMount _ => none
  | .signal0 _ => true
  | .kill _ => ()
  | .awaitDone _ => true
  | .preserveMountOnExit _ => false
  | .mountFD _ => none
  | .openFD _ _ => .ok 7
  | .discoverMountFD _ => .ok 3
  | .isLikelyNotMountPoint _ => .ok false
  | .mkdirAll _ => .ok ()
  | .removeAll _ => .ok ()
  | .remove _ => .ok ()
  | .stat _ => .ok true
  | .stdoutPipe => .ok ()
  | .stderrPipe => .ok ()
  | .prepareHotRestart _ => .ok ⟨true, ⟨0, 0, 0, true, true⟩⟩
  | .cancelHotRestart _ => .ok ()
  | .hotRestartStatus _ => .ok ⟨0, 0, 0, true, true⟩
  | .deadlinePassed => true
  | .sendFileDescriptor _ _ => .ok ()

def outcomes (start : Except String Unit) : Outcomes :=
  ⟨probe, fun _ => start, fun _ => .ok (), fun _ => .term⟩

/-- A takeover in which only the start of an adopting worker may fail. -/
def world (start : Except String Unit) : World where
  weedBinary := "weed"
  client := .ok ()
  predecessor := outcomes (.ok ())
  successor := outcomes start
  delivery _ := .delivered
  timeout := "context deadline exceeded"
  handoffSocketPath _ := "/handoff"
  removeHandoff _ := .ok ()
  listen _ := .ok ()
  receive _ := .ok (some 7)

end Sample

/-- A mounted volume that is handed over. -/
theorem mounted_volume_handed_over : ∃ run, Sample.service.Reachable AnyStep run ∧
    run.shared.listing.map (·.volumeID) = ["v"] ∧
    Unorphaned run.shared.listing ((Sample.world (.ok ())).takeoverFrom run.shared) := by
  have hrun : (((responder Sample.service).under AnyStep).execute
      [.act (.request 0) Sample.mounting] Sample.service.start).any (fun run =>
        decide (run.shared.listing.map (·.volumeID) = ["v"] ∧ ∀ e ∈ run.shared.listing,
          (run.shared.processes[e.process]?).any (fun w => w.stage = .running) = true ∧
          (Sample.world (.ok ())).moves run.shared e = true)) = true := by
    decide +kernel
  obtain ⟨run, hreach, hcheck⟩ := reachable_of_execute hrun
  obtain ⟨hlisting, hall⟩ := of_decide_eq_true hcheck
  refine ⟨run, hreach, hlisting, (takeover_orphans_none_iff hreach ?_ _).mpr ?_⟩
  · intro e he
    obtain ⟨p, hp, hrunning⟩ := (Option.any_eq_true _ _).mp (hall e he).1
    exact ⟨p, hp, of_decide_eq_true hrunning⟩
  · rintro - - pre e post heq -
    exact World.orphans_of_moves (hall e (by rw [heq]; simp)).2

/-- The old worker is gone and the new one does not start: the volume is in
neither manager. -/
theorem failed_import_orphans_volume : ∃ run, Sample.service.Reachable AnyStep run ∧
    (∀ e ∈ run.shared.listing, run.shared.Has e.process (fun w => w.stage = .running)) ∧
    ¬Unorphaned run.shared.listing
      ((Sample.world (.error "fork")).takeoverFrom run.shared) := by
  have hrun : (((responder Sample.service).under AnyStep).execute
      [.act (.request 0) Sample.mounting] Sample.service.start).any (fun run =>
        decide ((∃ e ∈ run.shared.listing,
          (((Sample.world (.error "fork")).takeoverFrom run.shared).2.1.mountOf e.volumeID).isSome =
          (((Sample.world (.error "fork")).takeoverFrom run.shared).2.2.mountOf e.volumeID).isSome) ∧
          ∀ e ∈ run.shared.listing,
          (run.shared.processes[e.process]?).any (fun w => w.stage = .running) = true)) = true := by
    decide +kernel
  obtain ⟨run, hreach, hcheck⟩ := reachable_of_execute hrun
  obtain ⟨⟨e, he, hsame⟩, hall⟩ := of_decide_eq_true hcheck
  refine ⟨run, hreach, fun x hx => ?_, fun h => h.one e he hsame⟩
  obtain ⟨p, hp, hrunning⟩ := (Option.any_eq_true _ _).mp (hall x hx)
  exact ⟨p, hp, of_decide_eq_true hrunning⟩

end Takeover

end ClusterState.MountManager
