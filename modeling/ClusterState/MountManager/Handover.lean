import ClusterState.MountManager.Registry
import ClusterState.MountManager.Takeover

/-! # What the steps of a takeover do

Each handler of the predecessor and the import at the successor, run alone.
-/

namespace ClusterState.MountManager

open Concurrency

def State.Free (s : State) (v : String) : Prop := s.locks.locked (s.locks.mutexOf v) = false

instance (s : State) (v : String) : Decidable (s.Free v) := inferInstanceAs (Decidable (_ = _))

/-- The mutexes are locked as before, and at most the table entry of one volume
has changed. -/
structure State.Relocks (s t : State) (v : String) : Prop where
  locked : t.locks.locked = s.locks.locked
  table : ∀ u, u ≠ v → t.locks.table u = s.locks.table u
  next : s.locks.next ≤ t.locks.next

section Evaluation

variable {O : Outcomes} {d : Deployment} {s s' : State} {v : String} {p : ProcessId}

theorem eval_observe (q : Probe) (hq : ∀ p, q ≠ .kill p) :
    (observe q).eval (O.respond d) s = (some (.ok (O.observe s q)), s) := by
  cases q with
  | kill p => exact absurd rfl (hq p)
  | _ => rfl

theorem eval_observe_bind {β : Type} (q : Probe) {f : q.Value → Api β} {x : q.Value}
    (hq : ∀ p, q ≠ .kill p) (hx : O.observe s q = x) :
    (observe q >>= f).eval (O.respond d) s = (f x).eval (O.respond d) s := by
  subst hx
  exact Program.eval_bind_ok (eval_observe q hq)

theorem eval_perform_bind {β : Type} (o : Operation) {f : o.Value → Api β} {y : o.Value}
    (h : O.respond d (.own o) s = some (y, s')) :
    (perform o >>= f).eval (O.respond d) s = (f y).eval (O.respond d) s' :=
  Program.eval_ask h

theorem eval_orThrow_bind {α β : Type} {wrap : String → String} {x : Except String α}
    {f : α → Api β} :
    (orThrow wrap x >>= f).eval (O.respond d) s = match x with
      | .ok a => (f a).eval (O.respond d) s
      | .error err => (some (.error (wrap err)), s) := by
  cases x <;> rfl

def State.entering (s : State) (v : String) : State :=
  { s with locks := (s.locks.get (.request 0) v).lock (.request 0) v (s.locks.mutexOf v) }

def State.leaving (s : State) (v : String) (m : Nat) : State :=
  { s with locks := s.locks.unlock (.request 0) v m }

theorem eval_withLock {body : Api Response} (hfree : s.Free v) :
    (withLock v body).eval (O.respond d) s =
      match body.eval (O.respond d) (s.entering v) with
      | (some r, t) => (some r, t.leaving v (s.locks.mutexOf v))
      | (none, t) => (none, t) := by
  have hget : O.respond d (.get v) s =
      some (s.locks.mutexOf v, { s with locks := s.locks.get (.request 0) v }) := rfl
  have hlock : O.respond d (.lock v (s.locks.mutexOf v))
      { s with locks := s.locks.get (.request 0) v } = some ((), s.entering v) := if_pos hfree
  rw [withLock, Program.eval_ask hget, Program.eval_ask hlock, Program.eval_bind,
    Program.eval_attempt]
  cases hbody : body.eval (O.respond d) (s.entering v) with
  | mk r t =>
    cases r with
    | none => rfl
    | some r => cases r <;> rfl

/-- A locked section that does not find its mutex free never comes to an end. -/
theorem eval_withLock_blocked {body : Api Response} (hlocked : ¬s.Free v) :
    ((withLock v body).eval (O.respond d) s).1 = none := by
  have hget : O.respond d (.get v) s =
      some (s.locks.mutexOf v, { s with locks := s.locks.get (.request 0) v }) := rfl
  have hlock : O.respond d (.lock v (s.locks.mutexOf v))
      { s with locks := s.locks.get (.request 0) v } = none := if_neg hlocked
  rw [withLock, Program.eval_ask hget, Program.eval, hlock]

theorem State.Relocks.of_locks {t : State} (h : t.locks = s.locks) : s.Relocks t v :=
  ⟨by rw [h], fun u _ => by rw [h], by rw [h]⟩

theorem State.Relocks.trans {t : State} (h : s.Relocks s' v) (h' : s'.Relocks t v) :
    s.Relocks t v where
  locked := h'.locked.trans h.locked
  table u hu := (h'.table u hu).trans (h.table u hu)
  next := h.next.trans h'.next

theorem State.Relocks.leaving {t : State} (hfree : s.Free v) (h : (s.entering v).Relocks t v) :
    s.Relocks (t.leaving v (s.locks.mutexOf v)) v where
  locked := by
    simp only [State.leaving, KeyedLock.unlock, h.locked, State.entering, KeyedLock.lock,
      KeyedLock.get, Function.update_idem]
    exact Function.update_eq_self_iff.mpr hfree.symm
  table u hu := by
    apply (h.table u hu).trans
    simp [State.entering, KeyedLock.lock, KeyedLock.get, hu]
  next := by
    refine le_trans ?_ h.next
    change s.locks.next ≤ if s.locks.table v = none then s.locks.next + 1 else s.locks.next
    split <;> omega

theorem State.Relocks.unused {t : State} (h : s.Relocks t v)
    (hunused : ∀ m, s.locks.next ≤ m → s.locks.locked m = false) :
    ∀ m, t.locks.next ≤ m → t.locks.locked m = false := by
  intro m hm
  rw [h.locked]
  exact hunused m (h.next.trans hm)

theorem State.Relocks.free_iff {t : State} {u : String} (h : s.Relocks t v) (hu : u ≠ v)
    (hunused : ∀ m, s.locks.next ≤ m → s.locks.locked m = false) : t.Free u ↔ s.Free u := by
  have hunused' := h.unused hunused
  cases htable : s.locks.table u with
  | some m =>
    have htable' : t.locks.table u = some m := (h.table u hu).trans htable
    simp only [State.Free, KeyedLock.mutexOf, htable, htable', h.locked, Option.getD_some]
  | none =>
    have htable' : t.locks.table u = none := (h.table u hu).trans htable
    simp only [State.Free, KeyedLock.mutexOf, htable, htable', Option.getD_none]
    exact iff_of_true (hunused' _ le_rfl) (hunused _ le_rfl)

/-! ## Handlers that leave mounts and workers alone -/

def Process.bare (w : Process) : Process := { w with preserveMountOnExit := false, stopAsked := false }

/-- The mounts, and the processes up to their flags. -/
def State.core (s : State) : AList (fun _ : String => MountEntry) × List Process :=
  (s.mounts, s.processes.map Process.bare)

def CoreQuiet : Request → Prop
  | .own (.probe (.kill _)) => False
  | .own (.probe _) => True
  | .own (.setPreserveMountOnExit _ _) => True
  | .own (.setTakeoverInProgress _) => True
  | .own .listMounts => True
  | .own _ => False
  | _ => True

theorem core_modifyProcess {f : Process → Process} (hf : ∀ w, (f w).bare = w.bare) :
    (s.modifyProcess p f).core = s.core := by
  refine Prod.ext rfl (List.ext_getElem? fun q => ?_)
  simp only [State.core, List.getElem?_map, State.getElem?_modifyProcess, Option.map_map]
  congr 1
  funext w
  by_cases hpq : p = q
  · simp [hpq, hf]
  · simp [hpq]

theorem core_respond {r : Request} {y : Answer r} (hr : CoreQuiet r)
    (h : O.respond d r s = some (y, s')) : s'.core = s.core := by
  unfold Outcomes.respond at h
  split at h
  case h_2 =>
    split at h
    · cases h
      rfl
    · cases h
  case h_15 =>
    cases h
    exact core_modifyProcess fun _ => rfl
  all_goals first | cases hr | skip
  all_goals cases h
  all_goals rfl

theorem core_eval {α : Type} {m : Api α} (hm : m.Only CoreQuiet) :
    (m.eval (O.respond d) s).2.core = s.core := by
  refine Program.eval_keeps (R := fun (t : State) => t.core = s.core) ?_ hm rfl
  intro r y t t' hr hrespond ht
  exact (core_respond hr hrespond).trans ht

theorem coreQuiet_orThrow {α : Type} {wrap : String → String} {x : Except String α} :
    (orThrow wrap x).Only CoreQuiet := by
  cases x <;> trivial

theorem coreQuiet_withLock {body : Api Response} (hbody : body.Only CoreQuiet) :
    (withLock v body).Only CoreQuiet := by
  refine ⟨trivial, fun m => ⟨trivial, fun _ => hbody.attempt.bind fun result => ?_⟩⟩
  refine ⟨trivial, fun _ => ?_⟩
  cases result <;> trivial

theorem coreQuiet_cancelTakeover {req : TakeoverVolumeRequest} :
    (cancelTakeover (some req)).Only CoreQuiet := by
  rw [cancelTakeover]
  split
  · trivial
  · refine coreQuiet_withLock ⟨trivial, fun entry => ?_⟩
    cases entry with
    | none => trivial
    | some entry =>
      refine ⟨trivial, fun cancelled => coreQuiet_orThrow.bind fun _ => ?_⟩
      exact ⟨trivial, fun _ => trivial⟩

theorem coreQuiet_exportFailed {err : String} : (exportFailed v err).Only CoreQuiet :=
  coreQuiet_cancelTakeover.attempt.bind fun _ => trivial

theorem coreQuiet_dupMountFD : (dupMountFD p).Only CoreQuiet := by
  refine ⟨trivial, fun fd => ?_⟩
  cases fd with
  | none => trivial
  | some fd => exact ⟨trivial, fun _ => coreQuiet_orThrow⟩

theorem coreQuiet_exportTakeover {req : TakeoverExportRequest} :
    (exportTakeover (some req)).Only CoreQuiet := by
  rw [exportTakeover]
  split
  · trivial
  split
  · trivial
  refine coreQuiet_withLock ⟨trivial, fun entry => ?_⟩
  cases entry with
  | none => trivial
  | some entry =>
    refine ⟨trivial, fun prepared => coreQuiet_orThrow.bind fun prepare => ?_⟩
    split
    · trivial
    refine coreQuiet_dupMountFD.attempt.bind fun fdFile => ?_
    cases fdFile with
    | error err => exact coreQuiet_exportFailed
    | ok fdFile =>
      refine ⟨trivial, fun sent => ?_⟩
      cases sent with
      | error err => exact coreQuiet_exportFailed
      | ok _ => trivial

/-! ## Export -/

/-- The worker of an entry lets itself be replaced and its descriptor is sent. -/
def Outcomes.hands (O : Outcomes) (s : State) (e : MountEntry) (socketPath : String) : Bool :=
  match O.probe (.prepareHotRestart e.localSocket), (s.processes[e.process]?).bind (·.mountFD) with
  | .ok prepare, some fd =>
    prepare.accepted && match O.probe (.openFD e.process fd) with
      | .ok file => (O.probe (.sendFileDescriptor socketPath file)).isOk
      | .error _ => false
  | _, _ => false

theorem eval_exportFailed_ne {err : String} {r : Response} :
    ((exportFailed v err).eval (O.respond d) s).1 ≠ some (.ok r) := by
  rw [exportFailed, Program.eval_bind, Program.eval_attempt]
  cases ((cancelTakeover (some ⟨v⟩)).eval (O.respond d) s).1 <;> exact nofun

theorem eval_dupMountFD {x : Option Nat}
    (hx : (s.processes[p]?).bind (·.mountFD) = x) :
    (dupMountFD p).eval (O.respond d) s = (some (match x with
      | none => .error ("weed mount process " ++ toString p ++ " has no recorded FUSE fd")
      | some fd => match O.probe (.openFD p fd) with
        | .ok file => .ok file
        | .error err => .error ("open duplicated FUSE fd /proc/" ++ toString p ++ "/fd/" ++
            toString fd ++ ": " ++ err)), s) := by
  have hfd : O.observe s (.mountFD p) = x := hx
  rw [dupMountFD, eval_observe_bind (.mountFD p) nofun hfd]
  cases x with
  | none => rfl
  | some fd =>
    obtain ⟨y, hy⟩ : ∃ y : Except String Nat, O.probe (.openFD p fd) = y := ⟨_, rfl⟩
    dsimp only
    rw [eval_observe_bind (.openFD p fd) nofun hy, hy]
    cases y <;> rfl

theorem eval_exportLocked (req : TakeoverExportRequest) {e : MountEntry}
    (he : s.mountOf req.volumeID = some e) :
    if O.hands s e req.handoffSocket then
      ∃ status, (exportLocked req).eval (O.respond d) s =
        (some (.ok (.exported ⟨true, some (takeoverMountFromEntry e), some status⟩)), s)
    else ∀ resp, ((exportLocked req).eval (O.respond d) s).1 = some (.ok (.exported resp)) →
      resp.accepted = false := by
  have hget : O.observe s (.getMount req.volumeID) = some e := he
  rw [exportLocked, eval_observe_bind (.getMount req.volumeID) nofun hget]
  obtain ⟨prepared, hprepared⟩ : ∃ x : Except String PrepareHotRestartResult,
    O.probe (.prepareHotRestart e.localSocket) = x := ⟨_, rfl⟩
  obtain ⟨fd, hfd⟩ : ∃ fd, (s.processes[e.process]?).bind (·.mountFD) = fd := ⟨_, rfl⟩
  dsimp only
  rw [eval_observe_bind (.prepareHotRestart e.localSocket) nofun hprepared, eval_orThrow_bind]
  simp only [Outcomes.hands, hprepared, hfd]
  cases prepared with
  | error err => simp
  | ok prepare =>
    cases haccepted : prepare.accepted with
    | false =>
      cases fd <;> simp [haccepted]
    | true =>
      have hnot : ¬prepare.accepted = false := by simp [haccepted]
      simp only [if_neg hnot]
      rw [Program.eval_bind, Program.eval_attempt, eval_dupMountFD hfd]
      cases fd with
      | none => exact fun resp hresp => absurd hresp eval_exportFailed_ne
      | some fd =>
        obtain ⟨file, hfile⟩ : ∃ x : Except String Nat, O.probe (.openFD e.process fd) = x := ⟨_, rfl⟩
        simp only [hfile, haccepted, Bool.true_and]
        cases file with
        | error err => exact fun resp hresp => absurd hresp eval_exportFailed_ne
        | ok file =>
          obtain ⟨sent, hsent⟩ : ∃ x : Except String Unit,
            O.probe (.sendFileDescriptor req.handoffSocket file) = x := ⟨_, rfl⟩
          simp only [Option.map_some, hsent]
          rw [eval_observe_bind (.sendFileDescriptor req.handoffSocket file) nofun hsent]
          cases sent with
          | error err => exact fun resp hresp => absurd hresp eval_exportFailed_ne
          | ok _ => exact ⟨prepare.status, rfl⟩

/-! ## Stopping a worker -/

def Fate.stops : Fate → Bool
  | .term => true
  | .kill => true
  | _ => false

theorem getElem?_bury {w : Process} (hw : s.processes[p]? = some w) :
    (s.bury d p).processes[p]? = some { w with stage := .finished } := by
  simp only [State.bury, hw]
  refine State.getElem?_modifyProcess_self (w := { w with stage := .closed }) ?_
  refine State.getElem?_modifyProcess_self (w := { w with stage := .reaped }) ?_
  refine State.getElem?_modifyProcess_self (w := { w with stage := .exited }) ?_
  exact State.getElem?_modifyProcess_self hw

theorem getElem?_bury_of_ne {q : ProcessId} (hq : p ≠ q) :
    (s.bury d p).processes[q]? = s.processes[q]? := by
  unfold State.bury
  split
  · rfl
  · simp [State.after, State.eraseMount, State.modifyProcess, hq]

theorem mounts_bury {w : Process} (hw : s.processes[p]? = some w) :
    (s.bury d p).mounts = s.mounts.erase w.volumeID := by
  simp only [State.bury, hw]
  rfl

def State.stopped (s : State) (d : Deployment) (p : ProcessId) (fate : Fate) : State :=
  let asked := s.after d (.request 0) (.terminate p) ()
  match fate with
  | .late => asked.die p
  | .survives => asked
  | _ => asked.bury d p

theorem observe_awaitDone {w : Process} (hw : s.processes[p]? = some w) :
    O.observe s (.awaitDone p) = decide (Stage.closed.rank ≤ w.stage.rank) := by
  simp only [Outcomes.observe, hw, Option.any_some]

theorem eval_stop {w : Process} (hw : s.processes[p]? = some w) (hrunning : w.stage = .running) :
    (stop p).eval (O.respond d) s =
      (some (if (O.fate p).stops then .ok () else .error "timed out waiting for weed mount to stop"),
        s.stopped d p (O.fate p)) := by
  have hasked : (s.after d (.request 0) (.terminate p) ()).processes[p]? =
      some { w with stopAsked := true } := State.getElem?_modifyProcess_self hw
  have halive : O.observe (s.after d (.request 0) (.terminate p) ()) (.awaitDone p) = false := by
    simp only [observe_awaitDone hasked, hrunning]
    rfl
  have hgone : O.observe ((s.after d (.request 0) (.terminate p) ()).bury d p) (.awaitDone p) =
      true := observe_awaitDone (getElem?_bury hasked)
  have hdying : O.observe ((s.after d (.request 0) (.terminate p) ()).die p) (.awaitDone p) =
      false := observe_awaitDone (State.getElem?_modifyProcess_self hasked)
  have hterm : O.respond d (.own (.terminate p)) s = some ((), _) := rfl
  have hkill : ∀ t : State, O.respond d (.own (.probe (.kill p))) t = some ((), _) := fun _ => rfl
  cases hfate : O.fate p with
  | term =>
    rw [hfate] at hterm
    rw [stop, eval_perform_bind _ hterm, eval_observe_bind (.awaitDone p) nofun hgone]
    rfl
  | kill =>
    rw [hfate] at hterm
    simp only [hfate] at hkill
    rw [stop, eval_perform_bind _ hterm, eval_observe_bind (.awaitDone p) nofun halive]
    change (observe (.kill p) >>= _).eval _ _ = _
    rw [observe, eval_perform_bind _ (hkill _), eval_observe_bind (.awaitDone p) nofun hgone]
    rfl
  | late =>
    rw [hfate] at hterm
    simp only [hfate] at hkill
    rw [stop, eval_perform_bind _ hterm, eval_observe_bind (.awaitDone p) nofun halive]
    change (observe (.kill p) >>= _).eval _ _ = _
    rw [observe, eval_perform_bind _ (hkill _), eval_observe_bind (.awaitDone p) nofun hdying]
    rfl
  | survives =>
    rw [hfate] at hterm
    simp only [hfate] at hkill
    rw [stop, eval_perform_bind _ hterm, eval_observe_bind (.awaitDone p) nofun halive]
    change (observe (.kill p) >>= _).eval _ _ = _
    rw [observe, eval_perform_bind _ (hkill _), eval_observe_bind (.awaitDone p) nofun halive]
    rfl

/-! ## Finalizing -/

structure State.Spares (s t : State) (v : String) (p : ProcessId) : Prop where
  mountOf : ∀ u, u ≠ v → t.mountOf u = s.mountOf u
  process : ∀ q, p ≠ q → (t.processes[q]?).map Process.bare = (s.processes[q]?).map Process.bare

theorem State.Spares.trans {t : State} (h : s.Spares s' v p) (h' : s'.Spares t v p) :
    s.Spares t v p where
  mountOf u hu := (h'.mountOf u hu).trans (h.mountOf u hu)
  process q hq := (h'.process q hq).trans (h.process q hq)

theorem spares_modifyProcess {f : Process → Process} : s.Spares (s.modifyProcess p f) v p where
  mountOf _ _ := rfl
  process q hq := by
    rw [State.getElem?_modifyProcess]
    simp only [if_neg hq, Option.map_id']

theorem mountOf_of_erase {t : State} (h : t.mounts = s.mounts.erase v) :
    t.mountOf v = none ∧ ∀ u, u ≠ v → t.mountOf u = s.mountOf u := by
  constructor
  · rw [State.mountOf, h, AList.lookup_erase]
  · intro u hu
    rw [State.mountOf, h, AList.lookup_erase_ne hu, State.mountOf]

theorem locks_bury : (s.bury d p).locks = s.locks := by
  unfold State.bury
  split <;> rfl

theorem locks_stopped {fate : Fate} : (s.stopped d p fate).locks = s.locks := by
  cases fate with
  | term => exact locks_bury
  | kill => exact locks_bury
  | late => rfl
  | survives => rfl

theorem spares_stopped {w : Process} (fate : Fate) (hw : s.processes[p]? = some w)
    (hvol : w.volumeID = v) : s.Spares (s.stopped d p fate) v p := by
  have hasked : (s.after d (.request 0) (.terminate p) ()).processes[p]? =
      some { w with stopAsked := true } := State.getElem?_modifyProcess_self hw
  have hbury : (s.after d (.request 0) (.terminate p) ()).Spares
      ((s.after d (.request 0) (.terminate p) ()).bury d p) v p := by
    rw [← hvol]
    refine ⟨(mountOf_of_erase (mounts_bury hasked)).2, fun q hq => ?_⟩
    rw [getElem?_bury_of_ne hq]
  have hterm : s.Spares (s.after d (.request 0) (.terminate p) ()) v p := spares_modifyProcess
  apply hterm.trans
  cases fate with
  | term => exact hbury
  | kill => exact hbury
  | late => exact spares_modifyProcess
  | survives => exact ⟨fun _ _ => rfl, fun _ _ => rfl⟩

theorem mountOf_stopped {w : Process} (fate : Fate) (hw : s.processes[p]? = some w)
    (hvol : w.volumeID = v) :
    (s.stopped d p fate).mountOf v = if fate.stops then none else s.mountOf v := by
  have hasked : (s.after d (.request 0) (.terminate p) ()).processes[p]? =
      some { w with stopAsked := true } := State.getElem?_modifyProcess_self hw
  subst hvol
  cases fate with
  | term => exact (mountOf_of_erase (mounts_bury hasked)).1
  | kill => exact (mountOf_of_erase (mounts_bury hasked)).1
  | late => rfl
  | survives => rfl

theorem process_stopped {w : Process} (fate : Fate) (hw : s.processes[p]? = some w)
    (hrunning : w.stage = .running) :
    (s.stopped d p fate).Has p (fun w' => w'.stage = .running ↔ fate = .survives) := by
  have hasked : (s.after d (.request 0) (.terminate p) ()).processes[p]? =
      some { w with stopAsked := true } := State.getElem?_modifyProcess_self hw
  cases fate with
  | term => exact ⟨_, getElem?_bury hasked, by simp⟩
  | kill => exact ⟨_, getElem?_bury hasked, by simp⟩
  | late => exact ⟨_, State.getElem?_modifyProcess_self hasked, by simp⟩
  | survives => exact ⟨_, hasked, by simp [hrunning]⟩

/-- The worker is out of the way and the entry is gone, or the entry is kept and
its worker runs if it survives. -/
structure Finalized (fate : Fate) (e : MountEntry) (s t : State) : Prop where
  spares : s.Spares t e.volumeID e.process
  removed : fate.stops = true → t.mountOf e.volumeID = none
  kept : fate.stops = false → t.mountOf e.volumeID = some e ∧
    t.Has e.process (fun w => w.stage = .running ↔ fate = .survives)

theorem eval_finalizeLocked {e : MountEntry} {w : Process} (he : s.mountOf e.volumeID = some e)
    (hw : s.processes[e.process]? = some w) (hvol : w.volumeID = e.volumeID)
    (hrunning : w.stage = .running) :
    ∃ t, s.Relocks t e.volumeID ∧ Finalized (O.fate e.process) e s t ∧
      (finalizeLocked ⟨e.volumeID⟩).eval (O.respond d) s =
        (some (if (O.fate e.process).stops then .ok .finalized
          else .error ("stop old worker for volume " ++ e.volumeID ++
            ": " ++ "timed out waiting for weed mount to stop")), t) := by
  have hget : O.observe s (.getMount e.volumeID) = some e := he
  let marked := s.after d (.request 0) (.setPreserveMountOnExit e.process true) ()
  have hmark : O.respond d (.own (.setPreserveMountOnExit e.process true)) s = some ((), marked) :=
    rfl
  have hmarked : marked.processes[e.process]? = some { w with preserveMountOnExit := true } :=
    State.getElem?_modifyProcess_self hw
  have hstop := eval_stop (O := O) (d := d) hmarked hrunning
  have hspares : s.Spares (marked.stopped d e.process (O.fate e.process)) e.volumeID e.process :=
    spares_modifyProcess.trans (spares_stopped _ hmarked hvol)
  have hlocks : (marked.stopped d e.process (O.fate e.process)).locks = s.locks := locks_stopped
  have hmountOf : (marked.stopped d e.process (O.fate e.process)).mountOf e.volumeID =
      if (O.fate e.process).stops then none else some e := by
    rw [← he]
    exact mountOf_stopped _ hmarked hvol
  have hprocess := process_stopped (d := d) (O.fate e.process) hmarked hrunning
  rw [finalizeLocked, eval_observe_bind (.getMount e.volumeID) nofun hget]
  dsimp only
  rw [eval_perform_bind _ hmark, Program.eval_bind, Program.eval_attempt, hstop]
  cases hstops : (O.fate e.process).stops with
  | true =>
    refine ⟨(marked.stopped d e.process (O.fate e.process)).after d (.request 0)
      (.removeMount e.volumeID) (), ?_, ⟨⟨?_, ?_⟩, ?_, ?_⟩, rfl⟩
    · have hdelete : ((marked.stopped d e.process (O.fate e.process)).after d (.request 0)
          (.removeMount e.volumeID) ()).locks = s.locks.delete e.volumeID := by
        rw [← hlocks]
        rfl
      refine ⟨by rw [hdelete]; rfl, fun u hu => ?_, by rw [hdelete]; rfl⟩
      rw [hdelete]
      exact Function.update_of_ne hu _ _
    · intro u hu
      exact ((mountOf_of_erase rfl).2 u hu).trans (hspares.mountOf u hu)
    · exact hspares.process
    · intro _
      exact (mountOf_of_erase rfl).1
    · intro hfalse
      rw [hstops] at hfalse
      cases hfalse
  | false =>
    refine ⟨(marked.stopped d e.process (O.fate e.process)).after d (.request 0)
      (.setPreserveMountOnExit e.process false) (), .of_locks hlocks, ⟨?_, ?_, ?_⟩, rfl⟩
    · exact hspares.trans spares_modifyProcess
    · intro htrue
      rw [hstops] at htrue
      cases htrue
    · intro _
      rw [hstops] at hmountOf
      obtain ⟨w', hw', hiff⟩ := hprocess
      exact ⟨hmountOf, _, State.getElem?_modifyProcess_self hw', hiff⟩

end Evaluation

end ClusterState.MountManager
