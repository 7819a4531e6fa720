import ClusterState.NodeServer.Execution
import ClusterState.NodeServer.MountOrder

/-! # Staging again

`NodePublishVolume` stages a volume again when its staging path is not healthy, and all later
publishes share the new mount. It is read-only also when only the publish was.
-/

namespace ClusterState.NodeServer

open Concurrency

def NodePublishVolumeRequest.stageRequest (req : NodePublishVolumeRequest) :
    NodeStageVolumeRequest :=
  ⟨req.volumeId, req.stagingTargetPath, req.volumeCapability, req.volumeContext⟩

/-- The request is not refused before the lock. -/
structure NodePublishVolumeRequest.Complete (req : NodePublishVolumeRequest) : Prop where
  volumeCapability : req.volumeCapability.isSome = true
  volumeId : req.volumeId ≠ ""
  targetPath : req.targetPath ≠ ""
  stagingTargetPath : req.stagingTargetPath ≠ ""

def NodePublishVolumeRequest.Faithful (req : NodePublishVolumeRequest) : Prop :=
  req.readonly = true → isVolumeReadOnly req.stageRequest = true

def RestagesAlike (req : NodePublishVolumeRequest) : Prop :=
  ∀ volumeID volumeID' readOnly readOnly' volContext volContext',
    (nodePublishVolume req).Issues (.own (.newMounter volumeID readOnly volContext)) →
    (nodeStageVolume req.stageRequest).Issues
      (.own (.newMounter volumeID' readOnly' volContext')) →
    readOnly = readOnly' ∧ ∀ (driver : SeaweedFsDriver) (site : MountSite)
      (context options options' : Range),
      SameArgs (buildMountArgs ⟨driver, volumeID, readOnly, volContext⟩ site context options)
        (buildMountArgs ⟨driver, volumeID', readOnly', volContext'⟩ site context options')

section Requests

variable {req : NodePublishVolumeRequest}

theorem isPublishVolumeReadOnly_eq :
    isPublishVolumeReadOnly req = (req.readonly || isVolumeReadOnly req.stageRequest) := rfl

theorem faithful_iff :
    req.Faithful ↔ isPublishVolumeReadOnly req = isVolumeReadOnly req.stageRequest := by
  rw [isPublishVolumeReadOnly_eq, NodePublishVolumeRequest.Faithful]
  cases req.readonly <;> cases isVolumeReadOnly req.stageRequest <;> decide

theorem issues_withLock {r : Request} {v : String} {body : Api Unit} (h : body.Issues r) :
    (withLock v body : Api Unit).Issues r :=
  .inr ⟨(0 : Nat), .inr ⟨(), h.attempt.bind⟩⟩

theorem issues_require {ok : Prop} [Decidable ok] {code : Code} {message : String} {p : Api Unit}
    {r : Request} (hok : ok) (h : p.Issues r) :
    (require ok code message >>= fun _ => p).Issues r := by
  unfold require
  rw [if_pos hok]
  exact h

theorem nodePublishVolume_issues (h : req.Complete) :
    (nodePublishVolume req).Issues (.own (.newMounter req.volumeId (isPublishVolumeReadOnly req)
      (injectVolumeMountGroup req.volumeCapability req.volumeContext))) :=
  issues_require h.volumeCapability <| issues_require h.volumeId <| issues_require h.targetPath <|
    issues_require h.stagingTargetPath <| issues_withLock <|
      .inr ⟨none, .inr ⟨false, .inr ⟨.ok (), .inl rfl⟩⟩⟩

theorem nodeStageVolume_issues (h : req.Complete) :
    (nodeStageVolume req.stageRequest).Issues (.own (.newMounter req.volumeId
      (isVolumeReadOnly req.stageRequest)
      (injectVolumeMountGroup req.volumeCapability req.volumeContext))) :=
  issues_require h.volumeCapability <| issues_require h.volumeId <|
    issues_require h.stagingTargetPath <| issues_withLock <|
      .inr ⟨none, .inr ⟨false, .inr ⟨false, .inl rfl⟩⟩⟩

theorem complete_of_issues {r : Request} (h : (nodePublishVolume req).Issues r) : req.Complete := by
  unfold nodePublishVolume require at h
  by_cases hcap : req.volumeCapability.isSome = true
  swap
  · rw [if_neg hcap] at h
    exact h.elim
  rw [if_pos hcap] at h
  by_cases hid : req.volumeId ≠ ""
  swap
  · rw [if_neg hid] at h
    exact h.elim
  rw [if_pos hid] at h
  by_cases htarget : req.targetPath ≠ ""
  swap
  · rw [if_neg htarget] at h
    exact h.elim
  rw [if_pos htarget] at h
  by_cases hstaging : req.stagingTargetPath ≠ ""
  swap
  · rw [if_neg hstaging] at h
    exact h.elim
  exact ⟨hcap, hid, htarget, hstaging⟩

theorem sameArgs_of_options (m : Mounter) (site : MountSite) (context options options' : Range) :
    SameArgs (buildMountArgs m site context options) (buildMountArgs m site context options') := by
  cases hopts : m.options site.filers context with
  | error err =>
    rw [buildMountArgs, buildMountArgs, hopts]
    rfl
  | ok opts => exact sameArgs_of_lookup hopts hopts fun _ => rfl

/-- The re-stage is that of `NodeStageVolume` just when the publish adds no read-only flag. -/
theorem restagesAlike_iff : RestagesAlike req ↔ (req.Complete → req.Faithful) := by
  constructor
  · intro h hcomplete
    have halike := h _ _ _ _ _ _ (nodePublishVolume_issues hcomplete) (nodeStageVolume_issues hcomplete)
    exact faithful_iff.mpr halike.1
  · intro h volumeID volumeID' readOnly readOnly' volContext volContext' hpublish hstage
    have hfaithful := faithful_iff.mp (h (complete_of_issues hpublish))
    obtain ⟨staging, heq, rfl, rfl, rfl⟩ := (only_asks (.nodePublishVolume req)).of_issues hpublish
    obtain ⟨staging', heq', rfl, rfl, rfl⟩ :=
      (only_asks (.nodeStageVolume req.stageRequest)).of_issues hstage
    obtain rfl := Option.some.inj heq
    obtain rfl := Option.some.inj heq'
    refine ⟨hfaithful, fun driver site context options options' => ?_⟩
    change SameArgs (buildMountArgs ⟨driver, _, isPublishVolumeReadOnly req, _⟩ site context options) _
    rw [hfaithful]
    exact sameArgs_of_options _ site context options options'

end Requests

/-! ## The staging mounts of a node -/

/-- The service and the staging mounts beside it: whether the mounter of a call is read-only,
which mounts were asked for, and what is mounted. -/
structure Host where
  service : State
  mounter : Thread → Bool
  requested : List (String × Bool)
  mounted : String → Option Bool

namespace Host

/-- A mount may end at any time, and one that was asked for may come up at any time. -/
def Drifts (s s' : Host) : Prop :=
  ∀ path, s'.mounted path = s.mounted path ∨ s'.mounted path = none ∨
    ∃ readOnly, s'.mounted path = some readOnly ∧ (path, readOnly) ∈ s'.requested

def mounterAfter (i : Thread) : Request → Host → Thread → Bool
  | .own (.newMounter _ readOnly _), s => Function.update s.mounter i readOnly
  | _, s => s.mounter

def requestedAfter (i : Thread) : Request → Host → List (String × Bool)
  | .own (.stage _ stagingTargetPath), s => (stagingTargetPath, s.mounter i) :: s.requested
  | _, s => s.requested

def Sees : (r : Request) → Answer r → Host → Prop
  | .own (.isStagingPathHealthy path), x, s => x = true → (s.mounted path).isSome = true
  | _, _, _ => True

structure Performs (i : Thread) (r : Request) (s : Host) (x : Answer r) (s' : Host) : Prop where
  service : State.Performs i r s.service x s'.service
  mounter : s'.mounter = s.mounterAfter i r
  requested : s'.requested = s.requestedAfter i r
  drifts : s.Drifts s'
  sees : Sees r x s'

structure Elapses (s s' : Host) : Prop where
  service : s'.service = s.service ∨ s'.service = .initial
  mounter : s'.mounter = s.mounter
  requested : s'.requested = s.requested
  drifts : s.Drifts s'

def initial : Host := ⟨.initial, fun _ => false, [], fun _ => none⟩

end Host

def host : System Thread Request Answer Host where
  performs := Host.Performs
  env := Host.Elapses

def hostStart (calls : Thread → Call) : Config Thread Request Answer Status Unit Host :=
  ⟨fun i => serve (calls i), .initial⟩

/-- A call that stages is not more read-only than its volume. -/
def FaithfulMounters (calls : Thread → Call) (i : Thread) : Request → Host → Prop
  | .own (.newMounter _ _ _), _ => ∀ req, calls i = .nodePublishVolume req → req.Faithful
  | _, _ => True

def Call.stageRequest : Call → Option NodeStageVolumeRequest
  | .nodeStageVolume req => some req
  | .nodePublishVolume req => some req.stageRequest
  | _ => none

def Writable (calls : Thread → Call) (path : String) : Prop :=
  ∀ i req, (calls i).stageRequest = some req → req.stagingTargetPath = path →
    isVolumeReadOnly req = false

namespace Host

structure WritableAt (calls : Thread → Call) (path : String) (s : Host) : Prop where
  mounted : s.mounted path ≠ some true
  requested : (path, true) ∉ s.requested
  mounter : ∀ i staging, (calls i).staging = some staging → staging.stagingTargetPath = path →
    s.mounter i = false

variable {calls : Thread → Call} {path : String} {s s' : Host}

theorem WritableAt.drifts (h : s.WritableAt calls path) (hdrifts : s.Drifts s')
    (hrequested : (path, true) ∉ s'.requested) : s'.mounted path ≠ some true := by
  rcases hdrifts path with hsame | hnone | ⟨readOnly, hsome, hmem⟩
  · rw [hsame]
    exact h.mounted
  · rw [hnone]
    exact nofun
  · rw [hsome]
    rintro heq
    obtain rfl := Option.some.inj heq
    exact hrequested hmem

theorem WritableAt.elapses (h : s.WritableAt calls path) (henv : s.Elapses s') :
    s'.WritableAt calls path := by
  have hrequested : (path, true) ∉ s'.requested := by
    rw [henv.requested]
    exact h.requested
  refine ⟨h.drifts henv.drifts hrequested, hrequested, fun i staging hstaging hpath => ?_⟩
  rw [henv.mounter]
  exact h.mounter i staging hstaging hpath

theorem readOnly_eq_false {i : Thread} {staging : Staging} (hwritable : Writable calls path)
    (hfaithful : ∀ req, calls i = .nodePublishVolume req → req.Faithful)
    (hstaging : (calls i).staging = some staging) (hpath : staging.stagingTargetPath = path) :
    staging.readOnly = false := by
  have hwritable := hwritable i
  revert hwritable hfaithful hstaging
  cases calls i with
  | nodeStageVolume req =>
    intro _ hstaging hwritable
    obtain rfl := Option.some.inj hstaging
    exact hwritable req rfl hpath
  | nodePublishVolume req =>
    intro hfaithful hstaging hwritable
    obtain rfl := Option.some.inj hstaging
    have hmode := hwritable req.stageRequest rfl hpath
    exact (faithful_iff.mp (hfaithful req rfl)).trans hmode
  | _ => nofun

theorem WritableAt.performs {i : Thread} {r : Request} {x : Answer r}
    (hwritable : Writable calls path) (h : s.WritableAt calls path) (hasks : (calls i).Asks r)
    (hfaithful : FaithfulMounters calls i r s) (hp : Performs i r s x s') :
    s'.WritableAt calls path := by
  have hrequested : (path, true) ∉ s'.requested := by
    rw [hp.requested]
    unfold requestedAfter
    split
    · obtain ⟨staging, hstaging, -, rfl⟩ := hasks
      intro hmem
      rcases List.mem_cons.mp hmem with heq | hmem
      · have hmounter := h.mounter i staging hstaging (Prod.mk.inj heq).1.symm
        rw [hmounter] at heq
        cases heq
      · exact h.requested hmem
    · exact h.requested
  refine ⟨h.drifts hp.drifts hrequested, hrequested, fun j staging hstaging hpath => ?_⟩
  rw [hp.mounter]
  unfold mounterAfter
  split
  · obtain ⟨staging', hstaging', -, rfl, -⟩ := hasks
    by_cases hj : j = i
    · subst hj
      obtain rfl := Option.some.inj (hstaging.symm.trans hstaging')
      rw [Function.update_self]
      exact readOnly_eq_false hwritable hfaithful hstaging hpath
    · rw [Function.update_of_ne hj]
      exact h.mounter j staging hstaging hpath
  · exact h.mounter j staging hstaging hpath

end Host

def hostDiscipline {calls : Thread → Call} {path : String} (hwritable : Writable calls path) :
    Discipline Thread Request Answer Host where
  toSystem := host.under (FaithfulMounters calls)
  inv := Host.WritableAt calls path
  guard i r _ := (calls i).Asks r
  quiet _ _ := False
  guard_of_quiet _ _ _ := False.elim
  inv_performs _ _ _ _ _ hinv hasks hp := hinv.performs hwritable hasks hp.1 hp.2
  inv_env _ _ hinv henv := hinv.elapses henv

theorem writable_of_reaches {calls : Thread → Call} {path : String}
    {run : Config Thread Request Answer Status Unit Host} (hwritable : Writable calls path)
    (h : (host.under (FaithfulMounters calls)).Reaches (hostStart calls) run) :
    run.shared.mounted path ≠ some true := by
  have hstart : (hostDiscipline hwritable).Sound (hostStart calls) :=
    ⟨⟨nofun, List.not_mem_nil, fun _ _ _ _ => rfl⟩, fun i =>
      Discipline.Meets.of_permitted ((only_asks (calls i)).mono fun _ hasks _ => hasks)⟩
  exact (hstart.reaches h).1.mounted

/-- A publish re-stages as `NodeStageVolume` stages just when it is no more read-only than its
volume, and where all publishes that re-stage are such, a volume with a writable access mode is
never mounted read-only. -/
theorem restage_is_stage_iff_faithful (req : NodePublishVolumeRequest) (calls : Thread → Call) :
    (RestagesAlike req ↔ (req.Complete → req.Faithful)) ∧
    ∀ run : Config Thread Request Answer Status Unit Host,
      (host.under (FaithfulMounters calls)).Reaches (hostStart calls) run →
      ∀ path, Writable calls path → run.shared.mounted path ≠ some true :=
  ⟨restagesAlike_iff, fun _ h _ hwritable => writable_of_reaches hwritable h⟩

/-! ## A read-only publish of a writable volume -/

namespace Host

inductive Happening where
  | comesUp (path : String) (readOnly : Bool)
  | ends (path : String)
  | restarts

def happen : Happening → Host → Option Host
  | .comesUp path readOnly, s =>
    if (path, readOnly) ∈ s.requested then
      some { s with mounted := Function.update s.mounted path (some readOnly) }
    else none
  | .ends path, s => some { s with mounted := Function.update s.mounted path none }
  | .restarts, s => some { s with service := .initial }

instance (r : Request) (x : Answer r) (s : Host) : Decidable (Sees r x s) := by
  unfold Sees
  split
  · rename_i healthy
    exact @instDecidableForall _ _ (instDecidableEqBool healthy true) inferInstance
  · infer_instance

def respond (i : Thread) (r : Request) (s : Host) (y : Reply) : Option (Answer r × Host) :=
  ((State.respond i r s.service y).map fun found =>
    (found.1, ⟨found.2, s.mounterAfter i r, s.requestedAfter i r, s.mounted⟩)).filter
    fun found => Sees r found.1 found.2

theorem Drifts.of_update {s : Host} {path : String} {mount : Option Bool}
    (h : mount = none ∨ ∃ readOnly, mount = some readOnly ∧ (path, readOnly) ∈ s.requested) :
    s.Drifts { s with mounted := Function.update s.mounted path mount } := by
  intro path'
  by_cases hpath : path' = path
  · subst hpath
    simp only [Function.update_self]
    exact .inr h
  · exact .inl (Function.update_of_ne hpath _ _)

def responder : Responder host Reply Happening where
  respond := respond
  happen := happen
  performs_of_respond := by
    intro i r s y x s' h
    obtain ⟨hfound, hsees⟩ := Option.filter_eq_some_iff.mp h
    obtain ⟨⟨x', service⟩, hrespond, heq⟩ := Option.map_eq_some_iff.mp hfound
    cases heq
    exact ⟨State.performs_of_respond hrespond, rfl, rfl, fun _ => .inl rfl, of_decide_eq_true hsees⟩
  env_of_happen := by
    intro e s s' h
    cases e with
    | comesUp path readOnly =>
      rw [happen] at h
      split at h
      · rename_i hrequested
        cases h
        exact ⟨.inl rfl, rfl, rfl, .of_update (.inr ⟨readOnly, rfl, hrequested⟩)⟩
      · cases h
    | ends path =>
      cases h
      exact ⟨.inl rfl, rfl, rfl, .of_update (.inl rfl)⟩
    | restarts =>
      cases h
      exact ⟨.inr rfl, rfl, rfl, fun _ => .inl rfl⟩

end Host

instance (req : NodePublishVolumeRequest) : Decidable req.Faithful :=
  inferInstanceAs (Decidable (_ → _))

instance (calls : Thread → Call) (i : Thread) (r : Request) (s : Host) :
    Decidable (FaithfulMounters calls i r s) := by
  unfold FaithfulMounters
  split
  · cases calls i with
    | nodePublishVolume req => exact decidable_of_iff req.Faithful (by simp)
    | _ => exact .isTrue nofun
  · infer_instance

namespace Sample

def writableCapability : Option VolumeCapability := some ⟨some .multiNodeMultiWriter, none⟩

def publish (targetPath : String) (readonly : Bool) : NodePublishVolumeRequest :=
  ⟨"/buckets/pv", targetPath, "/staging", writableCapability, readonly, ∅⟩

/-- Three pods of one node use the volume, and one of them only reads. -/
def pods : Thread → Call
  | 0 => .nodePublishVolume (publish "/pod" false)
  | 1 => .nodePublishVolume (publish "/reader" true)
  | _ => .nodePublishVolume (publish "/other" false)

/-- The first pod stages the volume, and the reader binds its mount. The mount dies, the
service restarts, and the last pod stages the volume again. -/
def rebound : List (Turn Thread Reply Host.Happening) :=
  [.act 0 publishing, .happens (.comesUp "/staging" false), .act 1 (plain 6),
    .happens (.ends "/staging"), .happens .restarts, .act 2 publishing,
    .happens (.comesUp "/staging" false)]

def isDone (p : Api Unit) : Bool :=
  match p with
  | .done _ => true
  | _ => false

def published (run : Config Thread Request Answer Status Unit Host) : Bool :=
  [0, 1, 2].all fun i => isDone (run.procs i)

end Sample

/-- The mount that a publish has staged again. -/
theorem writable_volume_stays_writable : ∃ run,
    (host.under (FaithfulMounters Sample.pods)).Reaches (hostStart Sample.pods) run ∧
    run.shared.requested = [("/staging", false), ("/staging", false)] ∧
    Sample.published run = true ∧
    (run.shared.mounted "/staging").isSome = true ∧ run.shared.mounted "/staging" ≠ some true ∧
    RestagesAlike (Sample.publish "/other" false) := by
  have hrun : ((Host.responder.under (FaithfulMounters Sample.pods)).execute Sample.rebound
      (hostStart Sample.pods)).any (fun run => decide (
        run.shared.requested = [("/staging", false), ("/staging", false)] ∧
        Sample.published run = true ∧
        (run.shared.mounted "/staging").isSome = true)) = true := by
    decide
  obtain ⟨run, hreach, hcheck⟩ := Responder.exists_reaches hrun
  obtain ⟨hrequested, hpublished, hmounted⟩ := of_decide_eq_true hcheck
  obtain ⟨halike, hwritable⟩ :=
    restage_is_stage_iff_faithful (Sample.publish "/other" false) Sample.pods
  refine ⟨run, hreach, hrequested, hpublished, hmounted, ?_, ?_⟩
  · apply hwritable run hreach
    intro i req heq _
    match i with
    | 0 => cases heq; rfl
    | 1 => cases heq; rfl
    | n + 2 => cases heq; rfl
  · apply halike.mpr
    intro _ hreadonly
    cases hreadonly

theorem read_only_publish_restages_read_only : ¬∀ req, RestagesAlike req := by
  intro h
  have hfaithful := restagesAlike_iff.mp (h (Sample.publish "/pod" true))
    ⟨rfl, by decide, by decide, by decide⟩
  exact Bool.false_ne_true (hfaithful rfl)

end ClusterState.NodeServer
