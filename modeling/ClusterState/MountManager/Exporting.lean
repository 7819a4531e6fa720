import ClusterState.MountManager.Orphans

/-! # Whether an export comes to an end

An export whose descriptor cannot be handed over cancels the hot restart it has just
brought about. The cancellation asks for the lock of the volume, and the export holds it.
-/

namespace ClusterState.MountManager

open Concurrency

def Outcomes.accepts (O : Outcomes) (e : MountEntry) : Bool :=
  match O.probe (.prepareHotRestart e.localSocket) with
  | .ok prepare => prepare.accepted
  | .error _ => false

/-- The worker is asked and accepts, and its descriptor is not handed over. -/
def Outcomes.strands (O : Outcomes) (s : State) (e : MountEntry) (req : TakeoverExportRequest) :
    Bool :=
  decide (req.volumeID ≠ "") && decide (req.handoffSocket ≠ "") && O.accepts e &&
    !O.hands s e req.handoffSocket

def cancels (e : MountEntry) : Request → Bool
  | .own (.probe (.cancelHotRestart localSocket)) => decide (localSocket = e.localSocket)
  | _ => false

/-- The export returns, the lock is free again, and a hot restart that has come to nothing
has been cancelled once. -/
def Outcomes.Completes (O : Outcomes) (d : Deployment) (s : State) (e : MountEntry)
    (req : TakeoverExportRequest) : Prop :=
  ∃ result t log, (exportTakeover (some req)).eval (Program.logging (O.respond d)) (s, []) =
      (some result, t, log) ∧ t.Free req.volumeID ∧
    (O.strands s e req = true → log.countP (cancels e) = 1)

section Exporting

variable {O : Outcomes} {d : Deployment} {s : State} {e : MountEntry} {v : String}

theorem not_free_entering : ¬(s.entering v).Free v := by
  simp [State.Free, State.entering, KeyedLock.mutexOf, KeyedLock.lock, KeyedLock.get]

theorem free_leaving : ((s.entering v).leaving v (s.locks.mutexOf v)).Free v := by
  simp [State.Free, State.leaving, State.entering, KeyedLock.unlock, KeyedLock.lock,
    KeyedLock.get, KeyedLock.mutexOf]

theorem eval_exportFailed_blocked {err : String} (hv : v ≠ "") (hlocked : ¬s.Free v) :
    ((exportFailed v err).eval (O.respond d) s).1 = none := by
  rw [exportFailed, Program.eval_bind, Program.eval_attempt, cancelTakeover, if_neg hv,
    eval_withLock_blocked hlocked]
  rfl

theorem eval_exportLocked_cases (req : TakeoverExportRequest)
    (he : s.mountOf req.volumeID = some e) :
    if O.accepts e = true ∧ O.hands s e req.handoffSocket = false then
      ∃ err, (exportLocked req).eval (O.respond d) s =
        (exportFailed req.volumeID err).eval (O.respond d) s
    else ∃ r, (exportLocked req).eval (O.respond d) s = (some r, s) := by
  have hget : O.observe s (.getMount req.volumeID) = some e := he
  rw [exportLocked, eval_observe_bind (.getMount req.volumeID) (by simp) hget]
  obtain ⟨prepared, hprepared⟩ : ∃ x : Except String PrepareHotRestartResult,
    O.probe (.prepareHotRestart e.localSocket) = x := ⟨_, rfl⟩
  obtain ⟨fd, hfd⟩ : ∃ fd, (s.processes[e.process]?).bind (·.mountFD) = fd := ⟨_, rfl⟩
  dsimp only
  rw [eval_observe_bind (.prepareHotRestart e.localSocket) (by simp) hprepared, eval_orThrow_bind]
  simp only [Outcomes.accepts, Outcomes.hands, hprepared, hfd]
  cases prepared with
  | error err => exact (if_neg fun h => Bool.false_ne_true h.1).mpr ⟨_, rfl⟩
  | ok prepare =>
    obtain ⟨accepted, status⟩ := prepare
    cases accepted with
    | false => exact (if_neg fun h => Bool.false_ne_true h.1).mpr ⟨_, rfl⟩
    | true =>
      dsimp only
      rw [if_neg (Ne.symm Bool.false_ne_true), Program.eval_bind, Program.eval_attempt,
        eval_dupMountFD hfd]
      cases fd with
      | none => exact (if_pos ⟨rfl, rfl⟩).mpr ⟨_, rfl⟩
      | some fd =>
        obtain ⟨file, hfile⟩ : ∃ x : Except String Nat, O.probe (.openFD e.process fd) = x := ⟨_, rfl⟩
        simp only [hfile]
        cases file with
        | error err => exact (if_pos ⟨trivial, rfl⟩).mpr ⟨_, rfl⟩
        | ok file =>
          obtain ⟨sent, hsent⟩ : ∃ x : Except String Unit,
            O.probe (.sendFileDescriptor req.handoffSocket file) = x := ⟨_, rfl⟩
          simp only [Option.map_some, hsent]
          rw [eval_observe_bind (.sendFileDescriptor req.handoffSocket file) (by simp) hsent]
          cases sent with
          | error err => exact (if_pos ⟨trivial, rfl⟩).mpr ⟨_, rfl⟩
          | ok _ => exact (if_neg fun h => Bool.false_ne_true h.2.symm).mpr ⟨_, rfl⟩

/-- An export that strands its worker waits for itself. -/
theorem eval_exportTakeover_stranded {req : TakeoverExportRequest}
    (he : s.mountOf req.volumeID = some e) (hfree : s.Free req.volumeID)
    (h : O.strands s e req = true) :
    ((exportTakeover (some req)).eval (O.respond d) s).1 = none := by
  simp only [Outcomes.strands, Bool.and_eq_true, decide_eq_true_eq, Bool.not_eq_true'] at h
  obtain ⟨⟨⟨hvolume, hsocket⟩, haccepts⟩, hhands⟩ := h
  have hbody := @eval_exportLocked_cases O d (s.entering req.volumeID) e req he
  rw [if_pos ⟨haccepts, hhands⟩] at hbody
  obtain ⟨err, hbody⟩ := hbody
  have hblocked : ((exportLocked req).eval (O.respond d) (s.entering req.volumeID)).1 = none := by
    rw [hbody]
    exact eval_exportFailed_blocked hvolume not_free_entering
  rw [exportTakeover, if_neg hvolume, if_neg hsocket, eval_withLock hfree]
  cases heval : (exportLocked req).eval (O.respond d) (s.entering req.volumeID) with
  | mk r t =>
    rw [heval] at hblocked
    subst hblocked
    rfl

theorem eval_exportTakeover_released {req : TakeoverExportRequest}
    (he : s.mountOf req.volumeID = some e) (hfree : s.Free req.volumeID)
    (h : O.strands s e req = false) :
    ∃ result t, (exportTakeover (some req)).eval (O.respond d) s = (some result, t) ∧
      t.Free req.volumeID := by
  rw [exportTakeover]
  by_cases hvolume : req.volumeID = ""
  · rw [if_pos hvolume]
    exact ⟨_, s, rfl, hfree⟩
  rw [if_neg hvolume]
  by_cases hsocket : req.handoffSocket = ""
  · rw [if_pos hsocket]
    exact ⟨_, s, rfl, hfree⟩
  rw [if_neg hsocket, eval_withLock hfree]
  have hbody := @eval_exportLocked_cases O d (s.entering req.volumeID) e req he
  rw [if_neg] at hbody
  · obtain ⟨r, hbody⟩ := hbody
    rw [hbody]
    exact ⟨r, _, rfl, free_leaving⟩
  · rintro ⟨haccepts, hhands⟩
    have hhands' : O.hands s e req.handoffSocket = false := hhands
    rw [Outcomes.strands, haccepts, hhands', decide_eq_true hvolume, decide_eq_true hsocket] at h
    exact Bool.false_ne_true h.symm

end Exporting

/-- An export comes to its end just when it need not cancel. -/
theorem export_completes_iff (O : Outcomes) (d : Deployment) (s : State) (e : MountEntry)
    (req : TakeoverExportRequest) (he : s.mountOf req.volumeID = some e)
    (hfree : s.Free req.volumeID) : O.Completes d s e req ↔ O.strands s e req = false := by
  obtain ⟨log, hlog⟩ :=
    @Program.eval_logging _ _ _ _ _ (O.respond d) (exportTakeover (some req)) s []
  constructor
  · rintro ⟨result, t, log', heval, -, -⟩
    rw [← Bool.not_eq_true]
    intro hstrands
    rw [hlog, eval_exportTakeover_stranded he hfree hstrands] at heval
    cases heval
  · intro hstrands
    obtain ⟨result, t, heval, hreleased⟩ := @eval_exportTakeover_released O d s e req he hfree hstrands
    rw [heval] at hlog
    refine ⟨result, t, log, hlog, hreleased, fun h => ?_⟩
    rw [hstrands] at h
    cases h

namespace Sample

/-- A worker whose hot restart is accepted and whose descriptor does not get through. -/
def deaf : Outcomes where
  probe
    | .sendFileDescriptor _ _ => .error "connection refused"
    | q => probe q
  start _ := .ok ()
  unmountTarget _ := .ok ()
  fate _ := .term

def exportOfV : TakeoverExportRequest := ⟨"v", "/handoff"⟩

end Sample

/-- A mounted volume whose descriptor gets through. -/
theorem mounted_volume_exported : ∃ run, ∃ e, Sample.service.Reachable AnyStep run ∧
    run.shared.mountOf "v" = some e ∧
    (Sample.world (.ok ())).predecessor.Completes Sample.service run.shared e
      Sample.exportOfV := by
  have hrun : (((responder Sample.service).under AnyStep).execute
      [.act (.request 0) Sample.mounting] Sample.service.start).any (fun run =>
        decide (run.shared.Free "v") && (run.shared.mountOf "v").any fun e =>
          !(Sample.world (.ok ())).predecessor.strands run.shared e
            Sample.exportOfV) = true := by
    decide
  obtain ⟨run, hreach, hcheck⟩ := reachable_of_execute hrun
  rw [Bool.and_eq_true, decide_eq_true_eq] at hcheck
  obtain ⟨hfree, hcheck⟩ := hcheck
  obtain ⟨e, he, hstrands⟩ := (Option.any_eq_true _ _).mp hcheck
  refine ⟨run, e, hreach, he, (export_completes_iff _ _ _ _ Sample.exportOfV he hfree).mpr ?_⟩
  rwa [Bool.not_eq_true'] at hstrands

/-- A mounted volume whose export never returns. -/
theorem export_waits_for_itself : ∃ run, ∃ e, Sample.service.Reachable AnyStep run ∧
    run.shared.mountOf "v" = some e ∧ run.shared.Free "v" ∧
    ¬Sample.deaf.Completes Sample.service run.shared e Sample.exportOfV := by
  have hrun : (((responder Sample.service).under AnyStep).execute
      [.act (.request 0) Sample.mounting] Sample.service.start).any (fun run =>
        decide (run.shared.Free "v") && (run.shared.mountOf "v").any fun e =>
          Sample.deaf.strands run.shared e Sample.exportOfV) = true := by
    decide
  obtain ⟨run, hreach, hcheck⟩ := reachable_of_execute hrun
  rw [Bool.and_eq_true, decide_eq_true_eq] at hcheck
  obtain ⟨hfree, hcheck⟩ := hcheck
  obtain ⟨e, he, hstrands⟩ := (Option.any_eq_true _ _).mp hcheck
  refine ⟨run, e, hreach, he, hfree, ?_⟩
  rintro ⟨result, t, log, heval, -⟩
  obtain ⟨log', hlog⟩ := @Program.eval_logging _ _ _ _ _ (Sample.deaf.respond Sample.service)
    (exportTakeover (some Sample.exportOfV)) run.shared []
  rw [hlog, eval_exportTakeover_stranded he hfree hstrands] at heval
  cases heval

end ClusterState.MountManager
