import ClusterState.MountManager.Handover

/-! # What an import does

The import at the successor, run alone, and both halves of a handover under the lock of
the volume.
-/

namespace ClusterState.MountManager

open Concurrency

section Evaluation

variable {O : Outcomes} {d : Deployment} {s s' : State} {v : String} {p : ProcessId}

/-! ## Import -/

def Outcomes.pathReady (O : Outcomes) (targetPath : String) : Bool :=
  match O.probe (.isLikelyNotMountPoint targetPath) with
  | .error ⟨.notExist, _⟩ => (O.probe (.mkdirAll targetPath)).isOk
  | .error ⟨.corrupted, _⟩ =>
    (O.unmountTarget targetPath).isOk && (O.probe (.mkdirAll targetPath)).isOk
  | .error ⟨.other, _⟩ => false
  | .ok false => true
  | .ok true =>
    match O.probe (.stat targetPath) with
    | .ok isDir => isDir
    | .error ⟨.notExist, _⟩ => (O.probe (.mkdirAll targetPath)).isOk
    | .error _ => false

def Outcomes.socketCleared (O : Outcomes) (localSocket : String) : Bool :=
  match O.probe (.remove localSocket) with
  | .ok () => true
  | .error ⟨.notExist, _⟩ => true
  | .error _ => false

def adoptingCommand (d : Deployment) (mount : TakeoverMount) (fdFile : Nat) : Command :=
  ⟨d.weedBinary, mount.mountArgs ++
    ["-dirAutoCreate=true", "-hotRestart.mountFd=3", "-hotRestart.adoptLiveFd=true"],
    mount.targetPath, mount.volumeID, [fdFile]⟩

def Outcomes.adopts (O : Outcomes) (d : Deployment) (mount : TakeoverMount) (fdFile : Nat) : Bool :=
  (O.probe .stdoutPipe).isOk && (O.probe .stderrPipe).isOk &&
    (O.start (adoptingCommand d mount fdFile)).isOk &&
    (O.probe (.hotRestartStatus mount.localSocket)).isOk

/-- Every step of `importTakeoverMount` succeeds. -/
def Outcomes.imports (O : Outcomes) (d : Deployment) (mount : TakeoverMount) (fdFile : Nat) :
    Bool :=
  O.pathReady mount.targetPath && O.socketCleared mount.localSocket && O.adopts d mount fdFile

theorem eval_mkdirAll (path : String) :
    ∃ err, ((do orThrow id (← observe (.mkdirAll path))) : Api Unit).eval (O.respond d) s =
      (some (if (O.probe (.mkdirAll path)).isOk then .ok () else .error err), s) := by
  obtain ⟨x, hx⟩ : ∃ x : Except String Unit, O.probe (.mkdirAll path) = x := ⟨_, rfl⟩
  rw [eval_observe_bind (.mkdirAll path) nofun hx, hx]
  cases x with
  | ok _ => exact ⟨"", rfl⟩
  | error err => exact ⟨err, rfl⟩

theorem eval_ensureTakeoverTargetPath (targetPath : String) :
    ∃ err, (ensureTakeoverTargetPath targetPath).eval (O.respond d) s =
      (some (if O.pathReady targetPath then .ok () else .error err), s) := by
  obtain ⟨x, hx⟩ : ∃ x : Except PathError Bool, O.probe (.isLikelyNotMountPoint targetPath) = x :=
    ⟨_, rfl⟩
  rw [ensureTakeoverTargetPath, eval_observe_bind (.isLikelyNotMountPoint targetPath) nofun hx]
  simp only [Outcomes.pathReady, hx]
  match x with
  | .error ⟨.notExist, err⟩ => exact eval_mkdirAll targetPath
  | .error ⟨.corrupted, err⟩ =>
    have hunmount : O.respond d (.own (.unmountTarget targetPath)) s =
      some (O.unmountTarget targetPath, s) := rfl
    dsimp only
    rw [eval_perform_bind _ hunmount, eval_orThrow_bind]
    cases O.unmountTarget targetPath with
    | ok _ => exact eval_mkdirAll targetPath
    | error err => exact ⟨_, rfl⟩
  | .error ⟨.other, err⟩ => exact ⟨err, rfl⟩
  | .ok false => exact ⟨"", rfl⟩
  | .ok true =>
    obtain ⟨y, hy⟩ : ∃ y : Except PathError Bool, O.probe (.stat targetPath) = y := ⟨_, rfl⟩
    dsimp only
    rw [eval_observe_bind (.stat targetPath) nofun hy, hy]
    match y with
    | .ok true => exact ⟨"", rfl⟩
    | .ok false => exact ⟨_, rfl⟩
    | .error ⟨.notExist, err⟩ => exact eval_mkdirAll targetPath
    | .error ⟨.corrupted, err⟩ => exact ⟨err, rfl⟩
    | .error ⟨.other, err⟩ => exact ⟨err, rfl⟩

theorem eval_waitForWorkerSocket (localSocket : String) :
    ∃ err, (waitForWorkerSocket localSocket 1).eval (O.respond d) s =
      (some (if (O.probe (.hotRestartStatus localSocket)).isOk then .ok () else .error err), s) := by
  obtain ⟨x, hx⟩ : ∃ x : Except String HotRestartStatus,
    O.probe (.hotRestartStatus localSocket) = x := ⟨_, rfl⟩
  rw [waitForWorkerSocket, eval_observe_bind (.hotRestartStatus localSocket) nofun hx, hx]
  cases x with
  | ok _ => exact ⟨"", rfl⟩
  | error err => exact ⟨_, rfl⟩

def State.Alike (s t : State) : Prop :=
  t.locks = s.locks ∧ ∀ u, t.mountOf u = s.mountOf u

theorem eval_adopt (mount : TakeoverMount) (fdFile : Nat)
    (hnone : s.mountOf mount.volumeID = none) :
    ∃ err t, s.Alike t ∧ (startWeedMountProcessWithOptions (adoptingCommand d mount fdFile)
      (waitForWorkerSocket mount.localSocket 1)).eval (O.respond d) s =
        (some (if O.adopts d mount fdFile then .ok s.processes.length else .error err), t) := by
  obtain ⟨out, hout⟩ : ∃ x : Except String Unit, O.probe .stdoutPipe = x := ⟨_, rfl⟩
  obtain ⟨err, herr⟩ : ∃ x : Except String Unit, O.probe .stderrPipe = x := ⟨_, rfl⟩
  have hsame : s.Alike s := ⟨rfl, fun _ => rfl⟩
  rw [startWeedMountProcessWithOptions, eval_observe_bind .stdoutPipe nofun hout, eval_orThrow_bind]
  simp only [Outcomes.adopts, hout, herr]
  cases out with
  | error err => exact ⟨_, s, hsame, rfl⟩
  | ok _ =>
  dsimp only
  rw [eval_observe_bind .stderrPipe nofun herr, eval_orThrow_bind]
  cases err with
  | error err => exact ⟨_, s, hsame, rfl⟩
  | ok _ =>
  have hstart : O.respond d (.own (.start (adoptingCommand d mount fdFile))) s =
      some ((O.start (adoptingCommand d mount fdFile)).map fun _ => s.processes.length,
        s.after d (.request 0) (.start (adoptingCommand d mount fdFile))
          ((O.start (adoptingCommand d mount fdFile)).map fun _ => s.processes.length)) := rfl
  dsimp only
  rw [eval_perform_bind _ hstart, eval_orThrow_bind]
  cases O.start (adoptingCommand d mount fdFile) with
  | error err => exact ⟨_, s, hsame, rfl⟩
  | ok _ =>
  obtain ⟨late, hready⟩ := eval_waitForWorkerSocket (O := O) (d := d)
    (s := s.after d (.request 0) (.start (adoptingCommand d mount fdFile)) (.ok s.processes.length))
    mount.localSocket
  simp only [Except.map]
  rw [Program.eval_bind, Program.eval_attempt, hready]
  cases (O.probe (.hotRestartStatus mount.localSocket)).isOk with
  | true =>
    obtain ⟨fd, hfd⟩ : ∃ x : Except String Nat, O.probe (.discoverMountFD s.processes.length) = x :=
      ⟨_, rfl⟩
    simp only [if_true, Option.map_some]
    rw [eval_observe_bind (.discoverMountFD s.processes.length) nofun hfd]
    cases fd with
    | error err =>
      refine ⟨"", _, ?_, rfl⟩
      exact ⟨rfl, fun _ => rfl⟩
    | ok fd =>
      refine ⟨"", _, ?_, rfl⟩
      exact ⟨rfl, fun _ => rfl⟩
  | false =>
    have hnew : (s.after d (.request 0) (.start (adoptingCommand d mount fdFile))
        (.ok s.processes.length)).processes[s.processes.length]? = some ⟨mount.volumeID,
          mount.targetPath, .running, false, none, false, false, false⟩ :=
      List.getElem?_concat_length
    have hspares := spares_stopped (d := d) (O.fate s.processes.length) hnew rfl
    have hmountOf := mountOf_stopped (d := d) (O.fate s.processes.length) hnew rfl
    have halike : s.Alike ((s.after d (.request 0) (.start (adoptingCommand d mount fdFile))
        (.ok s.processes.length)).stopped d s.processes.length (O.fate s.processes.length)) := by
      refine ⟨locks_stopped, fun u => ?_⟩
      by_cases hu : u = mount.volumeID
      · subst hu
        rw [hnone, hmountOf]
        split
        · rfl
        · exact hnone
      · exact hspares.mountOf u hu
    refine ⟨late, _, halike, ?_⟩
    simp only [Bool.false_eq_true, if_false, Option.map_some, Bool.and_false]
    rw [Program.eval_bind, Program.eval_attempt, eval_stop hnew rfl]
    rfl

/-- What an import of a volume leaves: the volume is mounted if it succeeded, and
the others are as before. -/
structure Imported (s t : State) (v : String) (success : Bool) : Prop where
  others : ∀ u, u ≠ v → t.mountOf u = s.mountOf u
  mounted : (t.mountOf v).isSome = success

theorem eval_adoptAndPut (mount : TakeoverMount) (fdFile : Nat) (hpolls : d.polls = 1)
    (hnone : s.mountOf mount.volumeID = none) :
    ∃ err t, t.locks = s.locks ∧ Imported s t mount.volumeID (O.adopts d mount fdFile) ∧
      ((do
        let started ← (startWeedMountProcessWithOptions (adoptingCommand d mount fdFile)
          (waitForWorkerSocket mount.localSocket d.polls)).attempt
        let process ← orThrow (("start adopted worker for volume " ++ mount.volumeID ++ ": ") ++ ·)
          started
        perform (.putMount mount.volumeID ⟨mount.volumeID, mount.targetPath, mount.cacheDir,
          mount.mountArgs, mount.localSocket, process⟩)
        pure .imported) : Api Response).eval (O.respond d) s =
        (some (if O.adopts d mount fdFile then .ok .imported else .error err), t) := by
  obtain ⟨err, t, ⟨hlocks, hmountOf⟩, hadopt⟩ :=
    eval_adopt (O := O) (d := d) mount fdFile hnone
  rw [hpolls, Program.eval_bind, Program.eval_attempt, hadopt]
  cases O.adopts d mount fdFile with
  | false =>
    refine ⟨_, t, hlocks, ⟨fun u _ => hmountOf u, ?_⟩, rfl⟩
    rw [hmountOf, hnone]
    rfl
  | true =>
    refine ⟨"", _, ?_, ⟨?_, ?_⟩, rfl⟩
    · exact hlocks
    · intro u hu
      exact (AList.lookup_insert_ne hu).trans (hmountOf u)
    · exact Option.isSome_iff_exists.mpr ⟨_, AList.lookup_insert _⟩

theorem eval_importLocked (mount : TakeoverMount) (fdFile : Nat) (hpolls : d.polls = 1)
    (hnone : s.mountOf mount.volumeID = none) :
    ∃ err t, t.locks = s.locks ∧ Imported s t mount.volumeID (O.imports d mount fdFile) ∧
      (importLocked d mount fdFile).eval (O.respond d) s =
        (some (if O.imports d mount fdFile then .ok .imported else .error err), t) := by
  obtain ⟨pathErr, hpath⟩ := eval_ensureTakeoverTargetPath (O := O) (d := d) (s := s) mount.targetPath
  obtain ⟨ready, hready⟩ : ∃ x, O.pathReady mount.targetPath = x := ⟨_, rfl⟩
  obtain ⟨removed, hremoved⟩ : ∃ x : Except PathError Unit, O.probe (.remove mount.localSocket) = x :=
    ⟨_, rfl⟩
  have hput := eval_adoptAndPut (O := O) mount fdFile hpolls hnone
  have hfails : Imported s s mount.volumeID false :=
    ⟨fun _ _ => rfl, by rw [hnone, Option.isSome_none]⟩
  rw [hready] at hpath
  rw [importLocked, Program.eval_bind, Program.eval_attempt, hpath]
  simp only [Outcomes.imports, Outcomes.socketCleared, hready, hremoved]
  cases ready with
  | false => exact ⟨_, s, rfl, hfails, rfl⟩
  | true =>
    simp only [if_true, Option.map_some]
    rw [eval_observe_bind (.remove mount.localSocket) nofun hremoved]
    match removed with
    | .error ⟨.corrupted, err⟩ => exact ⟨_, s, rfl, hfails, rfl⟩
    | .error ⟨.other, err⟩ => exact ⟨_, s, rfl, hfails, rfl⟩
    | .error ⟨.notExist, _⟩ => exact hput
    | .ok () => exact hput

/-! ## Under the lock of the volume -/

theorem eval_finalizeTakeover {e : MountEntry} {w : Process} (hfree : s.Free e.volumeID)
    (hvolume : e.volumeID ≠ "") (he : s.mountOf e.volumeID = some e)
    (hw : s.processes[e.process]? = some w) (hvol : w.volumeID = e.volumeID)
    (hrunning : w.stage = .running) :
    ∃ err t, s.Relocks t e.volumeID ∧ Finalized (O.fate e.process) e s t ∧
      (finalizeTakeover (some ⟨e.volumeID⟩)).eval (O.respond d) s =
        (some (if (O.fate e.process).stops then .ok .finalized else .error err), t) := by
  obtain ⟨t, hlocks, hfinalized, hbody⟩ := eval_finalizeLocked (O := O) (d := d)
    (s := s.entering e.volumeID) he hw hvol hrunning
  rw [finalizeTakeover, if_neg hvolume, eval_withLock hfree, hbody]
  refine ⟨_, t.leaving e.volumeID (s.locks.mutexOf e.volumeID), .leaving hfree hlocks, ?_, rfl⟩
  exact ⟨⟨hfinalized.spares.mountOf, hfinalized.spares.process⟩, hfinalized.removed,
    hfinalized.kept⟩

theorem eval_importTakeoverMount (mount : TakeoverMount) (fdFile : Nat)
    (hfree : s.Free mount.volumeID) (hpolls : d.polls = 1)
    (hnone : s.mountOf mount.volumeID = none) :
    ∃ err t, s.Relocks t mount.volumeID ∧
      Imported s t mount.volumeID (O.imports d mount fdFile) ∧
      (importTakeoverMount d mount fdFile).eval (O.respond d) s =
        (some (if O.imports d mount fdFile then .ok .imported else .error err), t) := by
  obtain ⟨err, t, hlocks, himported, hbody⟩ := eval_importLocked (O := O)
    (s := s.entering mount.volumeID) mount fdFile hpolls hnone
  rw [importTakeoverMount, eval_withLock hfree, hbody]
  refine ⟨err, t.leaving mount.volumeID (s.locks.mutexOf mount.volumeID),
    .leaving hfree (.of_locks hlocks), ?_, rfl⟩
  exact ⟨himported.others, himported.mounted⟩

end Evaluation

end ClusterState.MountManager
