import ClusterState.Data.Checks
import ClusterState.Data.Json

/-! # Two checks of the CI pods

The worker refuses to clean up beside a job, and the coordinator waits until there is
none. Both read the pod list of the cluster.
-/

namespace ClusterState.Maintenance

inductive Failure where
  | refuse (reason : String)
  /-- Any other exception. -/
  | exception
  deriving DecidableEq

def require (ok : Bool) (reason : String) : Except Failure Unit :=
  if ok then .ok () else .error (.refuse reason)

section Requirements

variable {α β : Type}

theorem require_bind_ok {ok : Bool} {reason : String} {f : Unit → Except Failure α} {a : α} :
    (require ok reason >>= f) = .ok a ↔ ok = true ∧ f () = .ok a := by
  cases ok with
  | false => exact iff_of_false nofun fun h => Bool.false_ne_true h.1
  | true => exact (and_iff_right rfl).symm

theorem require_refuses {ok : Bool} {reason : String} :
    require ok reason ≠ .error .exception := by
  cases ok <;> exact nofun

theorem bind_refuses {x : Except Failure β} {f : β → Except Failure α}
    (hx : x ≠ .error .exception) (hf : ∀ b, f b ≠ .error .exception) :
    (x >>= f) ≠ .error .exception := by
  cases x with
  | error e =>
    intro h
    cases h
    exact hx rfl
  | ok b => exact hf b

end Requirements

def jobLabel : String := "ci.brmartin.co.uk/job"

def maintenanceLabel : String := "ci.brmartin.co.uk/maintenance"

/-! ## The worker -/

structure Pod where
  uid : String
  name : String
  phase : String
  node : String
  labels : Json
  terminating : Bool

/-- `spec.get('nodeName', '')`, if it is a string. -/
def nodeName (spec : Json) : Option String :=
  match spec.get "nodeName" with
  | some node => node.str?
  | none => some ""

def readPod (pod : Json) : Except Failure Pod :=
  if !pod.isDict then .error (.refuse "invalid Pod item")
  else
    match (pod.get "metadata").bind Json.dict?, (pod.get "spec").bind Json.dict?,
      (pod.get "status").bind Json.dict? with
    | some meta', some spec, some status =>
      match (meta'.get "uid").bind Json.str?, (meta'.get "name").bind Json.str?,
        (status.get "phase").bind Json.str?, nodeName spec,
        (meta'.get "labels").bind Json.dict? with
      | some uid, some name, some phase, some node, some labels =>
        .ok ⟨uid, name, phase, node, labels, meta'.has "deletionTimestamp"⟩
      | _, _, _, _, _ => .error (.refuse "invalid Pod identity types")
    | _, _, _ => .error (.refuse "incomplete Pod identity")

structure Gate where
  seen : Bool
  pending : Bool
  uids : List String

def livePhases : List String := ["Running", "Pending", "Succeeded", "Failed"]

def remoteNodes : List String := ["heracles", "nyx"]

def selfConsistent (pod : Pod) : Bool :=
  pod.labels.holds maintenanceLabel "true" && pod.labels.holds jobLabel "true" &&
    pod.node == "hestia" && (pod.phase == "Running" || pod.phase == "Pending") && !pod.terminating

def isActive (phase : String) : Bool := phase == "Running" || phase == "Pending"

/-- One turn of the loop in `pod_gate`. -/
def gatePod (selfUid : String) (gate : Gate) (item : Json) : Except Failure Gate := do
  let pod ← readPod item
  require (!(pod.uid == "" || pod.name == "" || gate.uids.contains pod.uid))
    "empty or duplicate Pod identity"
  let gate := { gate with uids := pod.uid :: gate.uids }
  if pod.uid == selfUid then
    require (!gate.seen && selfConsistent pod) "inconsistent maintenance Pod identity"
    .ok { gate with seen := true, pending := pod.phase == "Pending" }
  else if pod.labels.holds jobLabel "true" then
    require (!(pod.terminating || !livePhases.contains pod.phase))
      ("terminating or unknown-phase CI Pod: " ++ pod.name)
    require (!(isActive pod.phase && !remoteNodes.contains pod.node))
      ("active CI Pod: " ++ pod.name ++ " (" ++ pod.phase ++ ")")
    .ok gate
  else .ok gate

/-- `metadata.get('continue', '') == ''` -/
def isComplete (metadata : Json) : Bool :=
  match metadata.get "continue" with
  | some j => j.str? == some ""
  | none => true

def podGate (payload : Json) (selfUid : String) : Except Failure Bool :=
  match (payload.get "items").bind Json.list? with
  | none => .error (.refuse "invalid Pod list")
  | some items =>
    match (payload.get "metadata").bind Json.dict? with
    | none => .error (.refuse "incomplete Pod list")
    | some metadata =>
      if !isComplete metadata then .error (.refuse "incomplete Pod list")
      else do
        let gate ← items.foldlM (gatePod selfUid) ⟨false, false, []⟩
        require gate.seen "maintenance Pod absent"
        .ok !gate.pending

/-! ## The coordinator -/

/-- `document[key]` -/
def subscript (document : Json) (key : String) : Except Failure Json :=
  match document.get key with
  | some j => .ok j
  | none => .error .exception

/-- `document.get(key)` raises unless the document is a dictionary. -/
def getItem (document : Json) (key : String) : Except Failure (Option Json) :=
  if document.isDict then .ok (document.get key) else .error .exception

/-- `value in {...}`, a set of strings. -/
def memberOf (value : Option Json) (texts : List String) : Except Failure Bool :=
  match value with
  | some (.arr _) => .error .exception
  | some (.obj _) => .error .exception
  | some (.str text) => .ok (texts.contains text)
  | _ => .ok false

/-- One turn of the loop in `ci_drained`: whether the loop goes on. -/
def drainedPod (pod : Json) : Except Failure Bool := do
  let metadata ← subscript pod "metadata"
  match ← getItem metadata "labels" with
  | some (.obj fields) =>
    if (Json.obj fields).holds jobLabel "true" && !(Json.obj fields).holds maintenanceLabel "true" then
      let phase ← subscript (← subscript pod "status") "phase"
      if metadata.has "deletionTimestamp" then .ok false
      else if !(← memberOf (some phase) livePhases) then .ok false
      else if ← memberOf (some phase) ["Running", "Pending"] then
        memberOf (← getItem (← subscript pod "spec") "nodeName") remoteNodes
      else .ok true
    else .ok true
  | _ => .error (.refuse "missing Pod labels")

def ciDrained : List Json → Except Failure Bool
  | [] => .ok true
  | pod :: rest => do
    if ← drainedPod pod then ciDrained rest else .ok false

end ClusterState.Maintenance
