import ClusterState.NodeServer.Server

/-! # What the handlers ask for

A call stages at most one volume at one path, with one context and one read-only flag, and
a publish binds that path.
-/

namespace ClusterState.NodeServer

open Concurrency

structure Staging where
  volumeID : String
  stagingTargetPath : String
  volContext : VolumeContext
  readOnly : Bool

def Call.staging : Call → Option Staging
  | .nodeStageVolume req => some ⟨req.volumeId, req.stagingTargetPath,
      injectVolumeMountGroup req.volumeCapability req.volumeContext, isVolumeReadOnly req⟩
  | .nodePublishVolume req => some ⟨req.volumeId, req.stagingTargetPath,
      injectVolumeMountGroup req.volumeCapability req.volumeContext, isPublishVolumeReadOnly req⟩
  | _ => none

def Operation.Ordinary : Operation → Prop
  | .newMounter _ _ _ => False
  | .stage _ _ => False
  | .publish _ _ _ => False
  | _ => True

def Call.Asks (call : Call) : Request → Prop
  | .own (.newMounter volumeID readOnly volContext) => ∃ staging, call.staging = some staging ∧
      volumeID = staging.volumeID ∧ readOnly = staging.readOnly ∧ volContext = staging.volContext
  | .own (.stage volumeID stagingTargetPath) => ∃ staging, call.staging = some staging ∧
      volumeID = staging.volumeID ∧ stagingTargetPath = staging.stagingTargetPath
  | .own (.publish stagingTargetPath targetPath readOnly) => ∃ req, call = .nodePublishVolume req ∧
      stagingTargetPath = req.stagingTargetPath ∧ targetPath = req.targetPath ∧
      readOnly = req.readonly
  | _ => True

/-! ## The handlers -/

section Handlers

variable {P : Request → Prop} (hP : ∀ o : Operation, o.Ordinary → P (.own o))

include hP

omit hP in
theorem only_perform {o : Operation} (h : P (.own o)) : (perform o).Only P := ⟨h, fun _ => trivial⟩

theorem only_unstageFailed (volume : Volume) (text : String) :
    (unstageFailed volume text).Only P := (only_perform (hP _ (by trivial))).bind fun _ => trivial

theorem only_applyQuota (volume : Volume) : (applyQuota volume).Only P := by
  refine (only_perform (hP _ (by trivial))).bind fun capacity => ?_
  cases capacity with
  | error err => trivial
  | ok capacity =>
    refine (only_perform (hP _ (by trivial))).bind fun applied => ?_
    cases applied with
    | error err => exact only_unstageFailed hP volume err
    | ok _ => trivial

theorem only_finishStaging (volume : Volume) (volContext : VolumeContext) (readOnly : Bool) :
    (finishStaging volume volContext readOnly).Only P := by
  cases readOnly with
  | true => exact only_applyQuota hP volume
  | false =>
    refine (only_perform (hP _ (by trivial))).bind fun owned => ?_
    cases owned with
    | error err => exact only_unstageFailed hP volume _
    | ok _ =>
      refine (only_perform (hP _ (by trivial))).bind fun owned => ?_
      cases owned with
      | error err => exact only_unstageFailed hP volume _
      | ok _ => exact only_applyQuota hP volume

theorem only_stageNewVolume (st : Staging)
    (hmounter : P (.own (.newMounter st.volumeID st.readOnly st.volContext)))
    (hstage : P (.own (.stage st.volumeID st.stagingTargetPath))) :
    (stageNewVolume st.volumeID st.stagingTargetPath st.volContext st.readOnly).Only P := by
  refine (only_perform hmounter).bind fun mounter => ?_
  cases mounter with
  | error err => trivial
  | ok _ =>
    refine (only_perform hstage).bind fun staged => ?_
    cases staged with
    | error err => trivial
    | ok _ => exact only_finishStaging hP _ st.volContext st.readOnly

theorem only_dropMutex {α : Type} (volumeID : String) (status : Status) :
    (dropMutex volumeID status : Api α).Only P := (only_perform (hP _ (by trivial))).bind fun _ => trivial

theorem only_stageFresh (req : NodeStageVolumeRequest)
    (hasks : ∀ o, (Call.nodeStageVolume req).Asks (.own o) → P (.own o)) :
    (stageFresh req).Only P := by
  refine (only_stageNewVolume hP ⟨req.volumeId, req.stagingTargetPath, _, isVolumeReadOnly req⟩
    (hasks _ ⟨_, rfl, rfl, rfl, rfl⟩) (hasks _ ⟨_, rfl, rfl, rfl⟩)).bind fun staged => ?_
  cases staged with
  | error err => exact only_dropMutex hP _ _
  | ok volume => exact only_perform (hP _ (by trivial))

theorem only_stageLocked (req : NodeStageVolumeRequest)
    (hasks : ∀ o, (Call.nodeStageVolume req).Asks (.own o) → P (.own o)) : (stageLocked req).Only P := by
  refine (only_perform (hP _ (by trivial))).bind fun volume => ?_
  cases volume with
  | some volume => trivial
  | none =>
    refine (only_perform (hP _ (by trivial))).bind fun healthy => ?_
    cases healthy with
    | true => exact only_perform (hP _ (by trivial))
    | false =>
      refine (only_perform (hP _ (by trivial))).bind fun stale => ?_
      cases stale with
      | false => exact only_stageFresh hP req hasks
      | true =>
        refine (only_perform (hP _ (by trivial))).bind fun cleaned => ?_
        cases cleaned with
        | error err => exact only_dropMutex hP _ _
        | ok _ => exact only_stageFresh hP req hasks

theorem only_selfHeal (req : NodePublishVolumeRequest)
    (hasks : ∀ o, (Call.nodePublishVolume req).Asks (.own o) → P (.own o)) : (selfHeal req).Only P := by
  refine (only_perform (hP _ (by trivial))).bind fun healthy => ?_
  cases healthy with
  | true => exact only_perform (hP _ (by trivial))
  | false =>
    refine (only_perform (hP _ (by trivial))).bind fun cleaned => ?_
    cases cleaned with
    | error err => exact only_dropMutex hP _ _
    | ok _ =>
      refine (only_stageNewVolume hP
        ⟨req.volumeId, req.stagingTargetPath, _, isPublishVolumeReadOnly req⟩
        (hasks _ ⟨_, rfl, rfl, rfl, rfl⟩) (hasks _ ⟨_, rfl, rfl, rfl⟩)).bind fun staged => ?_
      cases staged with
      | error err => exact only_dropMutex hP _ _
      | ok volume => exact only_perform (hP _ (by trivial))

omit hP in
theorem only_publishStaged (req : NodePublishVolumeRequest)
    (hasks : ∀ o, (Call.nodePublishVolume req).Asks (.own o) → P (.own o)) : (publishStaged req).Only P := by
  refine (only_perform (hasks (.publish _ _ _) ⟨req, rfl, rfl, rfl, rfl⟩)).bind fun published => ?_
  cases published <;> trivial

theorem only_publishLocked (req : NodePublishVolumeRequest)
    (hasks : ∀ o, (Call.nodePublishVolume req).Asks (.own o) → P (.own o)) : (publishLocked req).Only P := by
  have hheal := (only_selfHeal hP req hasks).bind fun _ => only_publishStaged req hasks
  refine (only_perform (hP _ (by trivial))).bind fun volume => ?_
  cases volume with
  | none => exact hheal
  | some volume =>
    refine (only_perform (hP _ (by trivial))).bind fun healthy => ?_
    cases healthy with
    | true => exact only_publishStaged req hasks
    | false => exact (only_perform (hP _ (by trivial))).bind fun _ => hheal

theorem only_unpublishLocked (req : NodeUnpublishVolumeRequest) :
    (unpublishLocked req).Only P := by
  refine (only_perform (hP _ (by trivial))).bind fun volume => ?_
  cases volume with
  | none => exact (only_perform (hP _ (by trivial))).bind fun _ => trivial
  | some volume =>
    refine (only_perform (hP _ (by trivial))).bind fun unpublished => ?_
    cases unpublished <;> trivial

theorem only_unstageLocked (req : NodeUnstageVolumeRequest) : (unstageLocked req).Only P := by
  refine (only_perform (hP _ (by trivial))).bind fun volume => ?_
  cases volume with
  | none =>
    exact (only_perform (hP _ (by trivial))).bind fun _ => (only_perform (hP _ (by trivial))).bind fun _ => only_perform (hP _ (by trivial))
  | some volume =>
    refine (only_perform (hP _ (by trivial))).bind fun unstaged => ?_
    cases unstaged with
    | error err => trivial
    | ok _ => exact (only_perform (hP _ (by trivial))).bind fun _ => only_perform (hP _ (by trivial))

theorem only_expandLocked (req : NodeExpandVolumeRequest) : (expandLocked req).Only P := by
  refine (only_perform (hP _ (by trivial))).bind fun volume => ?_
  cases volume with
  | none => trivial
  | some volume =>
    refine (only_perform (hP _ (by trivial))).bind fun applied => ?_
    cases applied <;> trivial

end Handlers

/-! ## Whole calls -/

variable {call : Call}

theorem asks_ordinary (o : Operation) (h : o.Ordinary) : call.Asks (.own o) := by
  cases o with
  | newMounter _ _ _ => exact h.elim
  | stage _ _ => exact h.elim
  | publish _ _ _ => exact h.elim
  | _ => trivial

theorem only_require {P : Request → Prop} {ok : Prop} [Decidable ok] {code : Code} {message : String}
    {p : Api Unit} (hp : p.Only P) : (require ok code message >>= fun _ => p).Only P := by
  unfold require
  split
  · exact hp
  · trivial

theorem only_withLock {v : String} {body : Api Unit} (hbody : body.Only call.Asks) :
    (withLock v body).Only call.Asks := by
  refine ⟨trivial, fun _ => ⟨trivial, fun _ => hbody.attempt.bind fun result => ⟨trivial, fun _ => ?_⟩⟩⟩
  cases result <;> trivial

theorem only_asks (call : Call) : (serve call).Only call.Asks := by
  have hself : ∀ o, call.Asks (.own o) → call.Asks (.own o) := fun _ => id
  cases call with
  | nodeStageVolume req =>
    exact only_require (only_require (only_require
      (only_withLock (only_stageLocked asks_ordinary req hself))))
  | nodePublishVolume req =>
    exact only_require (only_require (only_require (only_require
      (only_withLock (only_publishLocked asks_ordinary req hself)))))
  | nodeUnpublishVolume req =>
    exact only_require (only_require (only_withLock (only_unpublishLocked asks_ordinary req)))
  | nodeUnstageVolume req =>
    exact only_require (only_require (only_withLock (only_unstageLocked asks_ordinary req)))
  | nodeExpandVolume req =>
    exact only_require (only_require (only_withLock (only_expandLocked asks_ordinary req)))

end ClusterState.NodeServer
