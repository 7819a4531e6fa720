import ClusterState.MountManager.Importing
import ClusterState.MountManager.Safety

/-! # What becomes of one volume

It depends on three things: whether the successor got its descriptor, whether the old
worker went away when it was asked to, and whether the successor learned of that and
could import the volume.
-/

namespace ClusterState.MountManager

open Concurrency

/-- The handler runs, whether or not its reply arrives. -/
def Delivery.reaches : Delivery → Bool
  | .delivered => true
  | .lost _ => true
  | _ => false

namespace World

def received (w : World) (old : State) (e : MountEntry) : Option Nat :=
  let socketPath := w.handoffSocketPath e.volumeID
  if e.volumeID ≠ "" ∧ socketPath ≠ "" ∧ old.Free e.volumeID ∧
      w.removeHandoff socketPath = .ok () ∧ w.listen socketPath = .ok () ∧
      w.delivery (.exportTakeover (some ⟨e.volumeID, socketPath⟩)) = .delivered ∧
      w.predecessor.hands old e socketPath = true then
    match w.receive socketPath with
    | .ok file => file
    | .error _ => none
  else none

def finalizing (w : World) (e : MountEntry) : Delivery :=
  w.delivery (.finalizeTakeover (some ⟨e.volumeID⟩))

def moves (w : World) (old : State) (e : MountEntry) : Bool :=
  match w.received old e with
  | none => false
  | some file => decide (w.finalizing e = .delivered) && (w.predecessor.fate e.process).stops &&
      w.successor.imports w.deployment (takeoverMountFromEntry e) file

/-- The old worker of the entry is asked to stop and does not survive that, but
the entry does not get to the new manager. -/
def orphans (w : World) (old : State) (e : MountEntry) : Bool :=
  (w.received old e).isSome && (w.finalizing e).reaches &&
    decide (w.predecessor.fate e.process ≠ .survives) && !w.moves old e

end World

def State.Live (s : State) (v : String) : Prop :=
  ∃ e, s.mountOf v = some e ∧ s.Has e.process (fun w => w.stage = .running)

section Mount

variable {w : World} {s t : State} {e : MountEntry}

structure State.Serves (s : State) (e : MountEntry) : Prop where
  entry : s.mountOf e.volumeID = some e
  worker : s.Has e.process (fun w => w.volumeID = e.volumeID ∧ w.stage = .running)

theorem has_congr {K : Process → Prop} {p : ProcessId}
    (h : (t.processes[p]?).map Process.bare = (s.processes[p]?).map Process.bare)
    (hK : ∀ w w' : Process, w'.bare = w.bare → K w → K w') (hs : s.Has p K) : t.Has p K := by
  obtain ⟨w, hw, hKw⟩ := hs
  rw [hw, Option.map_some] at h
  obtain ⟨w', hw', hbare⟩ := Option.map_eq_some_iff.mp h
  exact ⟨w', hw', hK w w' hbare hKw⟩

theorem bare_inj {w w' : Process} (h : w'.bare = w.bare) :
    w'.volumeID = w.volumeID ∧ w'.stage = w.stage ∧ w'.mountFD = w.mountFD := by
  simp only [Process.bare, Process.mk.injEq] at h
  exact ⟨h.1, h.2.2.1, h.2.2.2.2.1⟩

theorem State.Serves.of_core (hs : s.Serves e) (h : t.core = s.core) : t.Serves e := by
  obtain ⟨hmounts, hprocesses⟩ := Prod.mk.inj h
  refine ⟨?_, has_congr (s := s) ?_ ?_ hs.worker⟩
  · rw [State.mountOf, hmounts]
    exact hs.entry
  · rw [← List.getElem?_map, hprocesses, List.getElem?_map]
  · intro w w' hbare
    rw [(bare_inj hbare).1, (bare_inj hbare).2.1]
    exact id

theorem core_rpc {call : Call} (hcall : (handle w.deployment call).Only CoreQuiet) :
    (w.rpc call s).2.core = s.core := by
  have hserved := core_eval (O := w.predecessor) (d := w.deployment) (s := s) hcall
  unfold World.rpc
  cases w.delivery call with
  | delivered => exact hserved
  | lost err => exact hserved
  | unreached err => rfl
  | unsupported => rfl

theorem rpc_eq_ok {call : Call} {r : Response} (h : w.rpc call s = (.ok r, t)) :
    w.delivery call = .delivered ∧
      (handle w.deployment call).eval (w.predecessor.respond w.deployment) s = (some (.ok r), t) := by
  unfold World.rpc at h
  dsimp only at h
  split at h
  · cases h
  · cases h
  · cases h
  case h_4 hdelivered =>
    refine ⟨hdelivered, ?_⟩
    generalize (handle w.deployment call).eval (w.predecessor.respond w.deployment) s = served at h
    obtain ⟨outcome, t'⟩ := served
    cases outcome with
    | none => cases h
    | some outcome =>
      cases h
      rfl

theorem eval_exportTakeover {O : Outcomes} {d : Deployment} (socketPath : String)
    (he : s.mountOf e.volumeID = some e) :
    if e.volumeID ≠ "" ∧ socketPath ≠ "" ∧ s.Free e.volumeID ∧ O.hands s e socketPath = true then
      ∃ status t, s.Relocks t e.volumeID ∧ t.Free e.volumeID ∧
        (exportTakeover (some ⟨e.volumeID, socketPath⟩)).eval (O.respond d) s =
          (some (.ok (.exported ⟨true, some (takeoverMountFromEntry e), some status⟩)), t)
    else ∀ resp, ((exportTakeover (some ⟨e.volumeID, socketPath⟩)).eval (O.respond d) s).1 =
      some (.ok (.exported resp)) → resp.accepted = false := by
  by_cases hvolume : e.volumeID = ""
  · simp [exportTakeover, hvolume]
  by_cases hsocket : socketPath = ""
  · simp [exportTakeover, hvolume, hsocket]
  rw [exportTakeover, if_neg hvolume, if_neg hsocket]
  by_cases hfree : s.Free e.volumeID
  swap
  · rw [if_neg (fun h => hfree h.2.2.1), eval_withLock_blocked hfree]
    intro resp hresp
    cases hresp
  rw [eval_withLock hfree]
  have hbody := eval_exportLocked (O := O) (d := d) (s := s.entering e.volumeID)
    ⟨e.volumeID, socketPath⟩ he
  by_cases hhands : O.hands s e socketPath = true
  · rw [if_pos ⟨hvolume, hsocket, hfree, hhands⟩]
    rw [if_pos (show O.hands (s.entering e.volumeID) e socketPath = true from hhands)] at hbody
    obtain ⟨status, hbody⟩ := hbody
    rw [hbody]
    refine ⟨status, _, .leaving hfree (.of_locks rfl), ?_, rfl⟩
    simp [State.Free, State.leaving, State.entering, KeyedLock.unlock, KeyedLock.lock,
      KeyedLock.get, KeyedLock.mutexOf]
  · rw [if_neg (fun h => hhands h.2.2.2)]
    rw [if_neg (show ¬O.hands (s.entering e.volumeID) e socketPath = true from hhands)] at hbody
    intro resp hresp
    apply hbody resp
    rw [← hresp]
    cases (exportLocked ⟨e.volumeID, socketPath⟩).eval (O.respond d) (s.entering e.volumeID) with
    | mk r t => cases r <;> rfl

theorem core_receiveExportedFileDescriptor {v : String} :
    (w.receiveExportedFileDescriptor v s).2.core = s.core := by
  have hrpc : (w.rpc (.exportTakeover (some ⟨v, w.handoffSocketPath v⟩)) s).2.core = s.core :=
    core_rpc coreQuiet_exportTakeover
  unfold World.receiveExportedFileDescriptor
  dsimp only
  split
  · rfl
  split
  · rfl
  split
  case h_1 heq =>
    rw [heq] at hrpc
    exact hrpc
  case h_2 heq =>
    rw [heq] at hrpc
    split
    · split <;> exact hrpc
    · exact hrpc
  case h_3 heq =>
    rw [heq] at hrpc
    exact hrpc

theorem receive_of_received {file : Nat} (he : s.mountOf e.volumeID = some e)
    (h : w.received s e = some file) :
    ∃ status t, s.Relocks t e.volumeID ∧ t.Free e.volumeID ∧ w.receiveExportedFileDescriptor e.volumeID s =
      (.ok (some file, ⟨true, some (takeoverMountFromEntry e), some status⟩), t) := by
  unfold World.received at h
  dsimp only at h
  split at h
  case isFalse => cases h
  case isTrue hall =>
    obtain ⟨hvolume, hsocket, hfree, hremove, hlisten, hdelivered, hhands⟩ := hall
    have heval := eval_exportTakeover (O := w.predecessor) (d := w.deployment)
      (w.handoffSocketPath e.volumeID) he
    rw [if_pos ⟨hvolume, hsocket, hfree, hhands⟩] at heval
    obtain ⟨status, t, hlocks, ht, heval⟩ := heval
    refine ⟨status, t, hlocks, ht, ?_⟩
    unfold World.receiveExportedFileDescriptor World.rpc
    simp only [hremove, hlisten, hdelivered, handle, heval, Option.getD_some, if_true]
    cases hreceive : w.receive (w.handoffSocketPath e.volumeID) with
    | error err =>
      rw [hreceive] at h
      cases h
    | ok x =>
      rw [hreceive] at h
      rw [show x = some file from h]

theorem received_of_receive {file : Nat} {resp : TakeoverExportResponse}
    (he : s.mountOf e.volumeID = some e) (haccepted : resp.accepted = true)
    (h : (w.receiveExportedFileDescriptor e.volumeID s).1 = .ok (some file, resp)) :
    w.received s e = some file := by
  have heval := eval_exportTakeover (O := w.predecessor) (d := w.deployment)
    (w.handoffSocketPath e.volumeID) he
  unfold World.receiveExportedFileDescriptor at h
  dsimp only at h
  split at h
  · cases h
  rename_i hremove
  split at h
  · cases h
  rename_i hlisten
  split at h
  · cases h
  case h_3 => cases h
  case h_2 heq =>
    split at h
    case isFalse hnot =>
      cases h
    case isTrue htrue =>
    split at h
    · cases h
    rename_i hreceive
    cases h
    obtain ⟨hdelivered, hserved⟩ := rpc_eq_ok heq
    by_cases hall : e.volumeID ≠ "" ∧ w.handoffSocketPath e.volumeID ≠ "" ∧ s.Free e.volumeID ∧
        w.predecessor.hands s e (w.handoffSocketPath e.volumeID) = true
    · obtain ⟨hvolume, hsocket, hfree, hhands⟩ := hall
      unfold World.received
      dsimp only
      rw [if_pos ⟨hvolume, hsocket, hfree, hremove, hlisten, hdelivered, hhands⟩, hreceive]
    · rw [if_neg hall] at heval
      have hrefused := heval resp (congrArg Prod.fst hserved)
      rw [haccepted] at hrefused
      cases hrefused

theorem State.Serves.live (hs : s.Serves e) : s.Live e.volumeID :=
  ⟨e, hs.entry, hs.worker.mono fun _ h => h.2⟩

theorem State.Spares.of_core {v : String} {p : ProcessId} (h : t.core = s.core) : s.Spares t v p := by
  obtain ⟨hmounts, hprocesses⟩ := Prod.mk.inj h
  refine ⟨fun u _ => ?_, fun q _ => ?_⟩
  · rw [State.mountOf, hmounts, State.mountOf]
  · rw [← List.getElem?_map, hprocesses, List.getElem?_map]

theorem State.Live.of_core {v : String} (hs : s.Live v) (h : t.core = s.core) : t.Live v := by
  obtain ⟨hmounts, hprocesses⟩ := Prod.mk.inj h
  obtain ⟨e, he, hworker⟩ := hs
  refine ⟨e, ?_, has_congr (s := s) ?_ ?_ hworker⟩
  · rw [State.mountOf, hmounts]
    exact he
  · rw [← List.getElem?_map, hprocesses, List.getElem?_map]
  · intro w w' hbare hrunning
    rw [(bare_inj hbare).2.1]
    exact hrunning

theorem live_congr {v : String} (h : t.core = s.core) : t.Live v ↔ s.Live v :=
  ⟨fun ht => ht.of_core h.symm, fun hs => hs.of_core h⟩

/-- What becomes of one entry: it is moved, or the takeover ends with an error. -/
structure World.Treats (w : World) (s new : State) (e : MountEntry)
    (result : Except String Unit × State × State) : Prop where
  spares : s.Spares result.2.1 e.volumeID e.process
  others : ∀ u, u ≠ e.volumeID → result.2.2.mountOf u = new.mountOf u
  moves : w.moves s e = true → result.1 = .ok () ∧ s.Relocks result.2.1 e.volumeID ∧
    new.Relocks result.2.2 e.volumeID ∧
    result.2.1.mountOf e.volumeID = none ∧ (result.2.2.mountOf e.volumeID).isSome = true
  stays : w.moves s e = false → (∃ err, result.1 = .error err) ∧
    result.2.2.mountOf e.volumeID = none ∧
    (result.2.1.Live e.volumeID ↔ w.orphans s e = false)

theorem World.treats_of_core {new u : State} {err : String} (hs : s.Serves e)
    (hnone : new.mountOf e.volumeID = none) (hcore : u.core = s.core)
    (hmoves : w.moves s e = false) (horphans : w.orphans s e = false) :
    w.Treats s new e (.error err, u, new) := by
  refine ⟨.of_core hcore, fun _ _ => rfl, ?_, fun _ => ⟨⟨err, rfl⟩, hnone, ?_⟩⟩
  · intro hmoved
    rw [hmoves] at hmoved
    cases hmoved
  · exact iff_of_true (hs.live.of_core hcore) horphans

theorem Finalized.live_iff {fate : Fate} (h : Finalized fate e s t) :
    t.Live e.volumeID ↔ fate = .survives := by
  cases hstops : fate.stops with
  | true =>
    have hnone := h.removed hstops
    constructor
    · rintro ⟨e', he', -⟩
      rw [hnone] at he'
      cases he'
    · rintro rfl
      cases hstops
  | false =>
    obtain ⟨hentry, p, hp, hrunning⟩ := h.kept hstops
    constructor
    · rintro ⟨e', he', p', hp', hrunning'⟩
      cases hentry.symm.trans he'
      cases hp.symm.trans hp'
      exact hrunning.mp hrunning'
    · intro hsurvives
      exact ⟨e, hentry, p, hp, hrunning.mpr hsurvives⟩

theorem World.treats_of_finalized {new u : State} {file : Nat} {err : String}
    (hspares : s.Spares t e.volumeID e.process)
    (hlive : t.Live e.volumeID ↔ w.predecessor.fate e.process = .survives)
    (hcore : u.core = t.core) {new' : State} (hothers : ∀ v, v ≠ e.volumeID → new'.mountOf v = new.mountOf v)
    (hnone : new'.mountOf e.volumeID = none) (hreceived : w.received s e = some file)
    (hreaches : (w.finalizing e).reaches = true) (hmoves : w.moves s e = false) :
    w.Treats s new e (.error err, u, new') := by
  refine ⟨hspares.trans (.of_core hcore), hothers, ?_, fun _ => ⟨⟨err, rfl⟩, hnone, ?_⟩⟩
  · intro hmoved
    rw [hmoves] at hmoved
    cases hmoved
  · rw [live_congr hcore, hlive, World.orphans, hreceived, hreaches, hmoves]
    simp

theorem World.treats_of_none {new : State} (hs : s.Serves e)
    (hnone : new.mountOf e.volumeID = none) (h : w.received s e = none) :
    w.Treats s new e (w.takeoverMount (takeoverMountFromEntry e) s new) := by
  have hcore := core_receiveExportedFileDescriptor (w := w) (s := s) (v := e.volumeID)
  have hreceive : ∀ file resp, resp.accepted = true →
      (w.receiveExportedFileDescriptor e.volumeID s).1 ≠ .ok (some file, resp) := by
    intro file resp haccepted heq
    rw [received_of_receive hs.entry haccepted heq] at h
    cases h
  have hmoves : w.moves s e = false := by
    rw [World.moves, h]
  have horphans : w.orphans s e = false := by
    rw [World.orphans, h]
    rfl
  unfold World.takeoverMount
  rw [show (takeoverMountFromEntry e).volumeID = e.volumeID from rfl]
  generalize w.receiveExportedFileDescriptor e.volumeID s = received at hcore hreceive ⊢
  obtain ⟨x, t⟩ := received
  cases x with
  | error err => exact treats_of_core hs hnone hcore hmoves horphans
  | ok pair =>
    obtain ⟨file, resp⟩ := pair
    cases haccepted : resp.accepted with
    | false =>
      dsimp only
      rw [if_pos haccepted]
      exact treats_of_core hs hnone hcore hmoves horphans
    | true =>
      dsimp only
      rw [if_neg (by simp [haccepted])]
      cases file with
      | none => exact treats_of_core hs hnone hcore hmoves horphans
      | some file => exact absurd rfl (hreceive file resp haccepted)

theorem World.treats_of_some {new : State} {file : Nat} (hs : s.Serves e)
    (hnew : new.Free e.volumeID) (hnone : new.mountOf e.volumeID = none) (h : w.received s e = some file) :
    w.Treats s new e (w.takeoverMount (takeoverMountFromEntry e) s new) := by
  have hvolume : e.volumeID ≠ "" := by
    intro hempty
    simp [World.received, hempty] at h
  obtain ⟨status, t, hlocks, ht, hreceive⟩ := receive_of_received hs.entry h
  have hcore : t.core = s.core := by
    have := core_receiveExportedFileDescriptor (w := w) (s := s) (v := e.volumeID)
    rw [hreceive] at this
    exact this
  have hserves := hs.of_core hcore
  obtain ⟨p, hp, hvol, hrunning⟩ := hserves.worker
  obtain ⟨err, t', hlocks', hfinalized, heval⟩ := eval_finalizeTakeover (O := w.predecessor)
    (d := w.deployment) ht hvolume hserves.entry hp hvol hrunning
  have hspares : s.Spares t' e.volumeID e.process :=
    (State.Spares.of_core hcore).trans hfinalized.spares
  have hcancel : ∀ u : State, (w.rpc (.cancelTakeover (some ⟨e.volumeID⟩)) u).2.core = u.core :=
    fun u => core_rpc coreQuiet_cancelTakeover
  have hmoves : w.moves s e = (decide (w.finalizing e = .delivered) &&
      (w.predecessor.fate e.process).stops &&
      w.successor.imports w.deployment (takeoverMountFromEntry e) file) := by
    rw [World.moves, h]
  unfold World.takeoverMount
  rw [show (takeoverMountFromEntry e).volumeID = e.volumeID from rfl, hreceive]
  dsimp only
  rw [if_neg (by simp)]
  cases hdelivery : w.finalizing e with
  | unreached lost =>
    have hrpc : w.rpc (.finalizeTakeover (some ⟨e.volumeID⟩)) t = (.error lost, t) := by
      simp only [World.rpc, show w.delivery _ = _ from hdelivery]
    rw [hrpc]
    apply treats_of_core hs hnone ((hcancel t).trans hcore)
    · rw [hmoves, hdelivery]
      rfl
    · rw [World.orphans, h, hdelivery]
      rfl
  | unsupported =>
    have hrpc : w.rpc (.finalizeTakeover (some ⟨e.volumeID⟩)) t =
        (.error "mount service takeover unsupported by predecessor", t) := by
      simp only [World.rpc, show w.delivery _ = _ from hdelivery]
    rw [hrpc]
    apply treats_of_core hs hnone ((hcancel t).trans hcore)
    · rw [hmoves, hdelivery]
      rfl
    · rw [World.orphans, h, hdelivery]
      rfl
  | lost lost =>
    have hrpc : w.rpc (.finalizeTakeover (some ⟨e.volumeID⟩)) t = (.error lost, t') := by
      simp only [World.rpc, show w.delivery _ = _ from hdelivery, handle, heval]
    rw [hrpc]
    refine treats_of_finalized hspares hfinalized.live_iff (hcancel t') (fun _ _ => rfl) hnone h ?_ ?_
    · rw [hdelivery]
      rfl
    · rw [hmoves, hdelivery]
      rfl
  | delivered =>
    have hrpc : w.rpc (.finalizeTakeover (some ⟨e.volumeID⟩)) t =
        (if (w.predecessor.fate e.process).stops then .ok .finalized else .error err, t') := by
      simp only [World.rpc, show w.delivery _ = _ from hdelivery, handle, heval, Option.getD_some]
    rw [hdelivery, decide_eq_true rfl, Bool.true_and] at hmoves
    rw [hrpc]
    cases hstops : (w.predecessor.fate e.process).stops with
    | false =>
      refine treats_of_finalized hspares hfinalized.live_iff (hcancel t') (fun _ _ => rfl) hnone h ?_ ?_
      · rw [hdelivery]
        rfl
      · rw [hmoves, hstops]
        rfl
    | true =>
      rw [hstops, Bool.true_and] at hmoves
      obtain ⟨err, n, hlocksNew, himported, himport⟩ := eval_importTakeoverMount (O := w.successor)
        (d := w.deployment) (takeoverMountFromEntry e) file hnew rfl hnone
      dsimp only [if_true, Option.getD_some]
      rw [World.importMount, himport]
      cases himports : w.successor.imports w.deployment (takeoverMountFromEntry e) file with
      | false =>
        rw [himports] at himported hmoves
        refine treats_of_finalized hspares hfinalized.live_iff rfl himported.others ?_ h ?_ hmoves
        · exact Option.isNone_iff_eq_none.mp (Option.isSome_eq_false_iff.mp himported.mounted)
        · rw [hdelivery]
          rfl
      | true =>
        rw [himports] at himported hmoves
        refine ⟨hspares, himported.others, fun _ => ⟨rfl, hlocks.trans hlocks', hlocksNew,
          hfinalized.removed hstops, himported.mounted⟩, fun hstays => ?_⟩
        rw [hmoves] at hstays
        cases hstays

theorem World.treats {new : State} (hs : s.Serves e) (hnew : new.Free e.volumeID)
    (hnone : new.mountOf e.volumeID = none) :
    w.Treats s new e (w.takeoverMount (takeoverMountFromEntry e) s new) := by
  cases h : w.received s e with
  | none => exact treats_of_none hs hnone h
  | some file => exact treats_of_some hs hnew hnone h

end Mount

end ClusterState.MountManager
