import ClusterState.Data.Json
import ClusterState.Data.PythonText

/-! # Exporting a resource

`strip_resource` takes from a live resource what the cluster has added to it. `none` is an
exception.
-/

namespace ClusterState.Export

open Data.PythonText (replace)

/-! ## Dictionaries -/

abbrev Fields := List (String × Json)

def pop (key : String) (fields : Fields) : Fields := fields.filter fun field => field.1 != key

def set (key : String) (value : Json) : Fields → Fields
  | [] => [(key, value)]
  | (k, v) :: rest => if k == key then (k, value) :: rest else (k, v) :: set key value rest

def popAll (keys : List String) (fields : Fields) : Fields :=
  keys.foldl (fun fields key => pop key fields) fields

/-- A dictionary, or an exception when it is used as one. -/
def dict : Json → Option Fields
  | .obj fields => some fields
  | _ => none

/-- `get(key, {})`, used as a dictionary. -/
def getDict (key : String) (fields : Fields) : Option Fields :=
  match fields.lookup key with
  | some value => dict value
  | none => some []

/-! ## What is scrubbed -/

def RUNTIME_METADATA_KEYS : List String :=
  ["creationTimestamp", "deletionGracePeriodSeconds", "deletionTimestamp", "generation",
    "managedFields", "resourceVersion", "selfLink", "uid"]

def RUNTIME_ANNOTATIONS : List String :=
  ["deployment.kubernetes.io/revision", "kubectl.kubernetes.io/last-applied-configuration",
    "kubectl.kubernetes.io/restartedAt", "reloader.stakater.com/last-reloaded-from",
    "pv.kubernetes.io/bind-completed", "pv.kubernetes.io/bound-by-controller",
    "volume.beta.kubernetes.io/storage-provisioner", "volume.kubernetes.io/storage-provisioner"]

def MANAGED_BY_LABEL_KEYS : List String := ["managed-by", "app.kubernetes.io/managed-by"]

def RUNTIME_LABELS : List String :=
  ["kustomize.toolkit.fluxcd.io/name", "kustomize.toolkit.fluxcd.io/namespace"]

/-- The only entry of `STRING_REPLACEMENTS`. -/
def replaceText (text : String) : String :=
  String.ofList
    (replace "Managed by Terraform".toList "Managed in cluster-state".toList text.toList)

mutual

def normalizeEmbeddedStrings : Json → Json
  | .obj fields => .obj (normalizeFields fields)
  | .arr items => .arr (normalizeItems items)
  | .str text => .str (replaceText text)
  | value => value

def normalizeFields : List (String × Json) → List (String × Json)
  | [] => []
  | (key, item) :: rest => (key, normalizeEmbeddedStrings item) :: normalizeFields rest

def normalizeItems : List Json → List Json
  | [] => []
  | item :: rest => normalizeEmbeddedStrings item :: normalizeItems rest

end

def hasManagedBy : Json → Bool
  | .obj fields => MANAGED_BY_LABEL_KEYS.any fun key => (fields.lookup key).isSome
  | _ => false

mutual

def requiresManagedByLabels : Json → Bool
  | .obj fields => requiresInFields fields
  | .arr items => requiresInItems items
  | _ => false

def requiresInFields : List (String × Json) → Bool
  | [] => false
  | (key, item) :: rest =>
    (["selector", "matchLabels"].contains key && hasManagedBy item) ||
      requiresManagedByLabels item || requiresInFields rest

def requiresInItems : List Json → Bool
  | [] => false
  | item :: rest => requiresManagedByLabels item || requiresInItems rest

end

def isRuntime (preserveManagedBy : Bool) (key : String) (item : Json) : Bool :=
  RUNTIME_LABELS.contains key ||
    (!preserveManagedBy && MANAGED_BY_LABEL_KEYS.contains key && item.str? == some "terraform") ||
    RUNTIME_ANNOTATIONS.contains key

def isEmptyDict : Json → Bool
  | .obj [] => true
  | _ => false

def isEmptied (key : String) (item : Json) : Bool :=
  ["annotations", "labels", "matchLabels"].contains key && isEmptyDict item

mutual

def scrubRuntimeFields (preserveManagedBy : Bool) : Json → Json
  | .obj fields => .obj (scrubFields preserveManagedBy fields)
  | .arr items => .arr (scrubItems preserveManagedBy items)
  | value => value

def scrubFields (preserveManagedBy : Bool) : List (String × Json) → List (String × Json)
  | [] => []
  | (key, item) :: rest =>
    if isRuntime preserveManagedBy key item then scrubFields preserveManagedBy rest
    else
      let item := scrubRuntimeFields preserveManagedBy item
      if isEmptied key item then scrubFields preserveManagedBy rest
      else (key, item) :: scrubFields preserveManagedBy rest

def scrubItems (preserveManagedBy : Bool) : List Json → List Json
  | [] => []
  | item :: rest => scrubRuntimeFields preserveManagedBy item :: scrubItems preserveManagedBy rest

end

/-! ## The volume claims of a stateful set -/

def claimLabels (template : Json) : Option (Option String × Fields) := do
  let metadata ← getDict "metadata" (← dict template)
  let labels ← match metadata.lookup "labels" with
    | some labels => if labels.truthy then dict labels else some []
    | none => some []
  some ((metadata.lookup "name").bind Json.str?,
    labels.filter fun label => MANAGED_BY_LABEL_KEYS.contains label.1)

def restoreClaim (byName : List (Option String × Fields)) (template : Json) : Option Json := do
  let fields ← dict template
  let metadata ← getDict "metadata" fields
  let name := (metadata.lookup "name").bind Json.str?
  -- the last template of a name counts
  match byName.reverse.lookup name with
  | none => some (.obj (set "metadata" (.obj metadata) fields))
  | some [] => some (.obj (set "metadata" (.obj metadata) fields))
  | some managed => do
    let labels ← getDict "labels" metadata
    let labels := managed.foldl (fun labels label => set label.1 label.2 labels) labels
    some (.obj (set "metadata" (.obj (set "labels" (.obj labels) metadata)) fields))

/-- `get(key, [])`, iterated over. -/
def getList (key : String) (fields : Fields) : Option (List Json) :=
  match fields.lookup key with
  | some (.arr items) => some items
  | some (.obj []) => some []
  | some (.str "") => some []
  | some _ => none
  | none => some []

def restoreStatefulsetVolumeClaimLabels (resource original : Fields) : Option Fields :=
  if (resource.lookup "kind").bind Json.str? ≠ some "StatefulSet" then some resource
  else do
    let byName ← (← getList "volumeClaimTemplates" (← getDict "spec" original)).mapM claimLabels
    let spec ← getDict "spec" resource
    let templates ← (← getList "volumeClaimTemplates" spec).mapM (restoreClaim byName)
    some (match spec.lookup "volumeClaimTemplates" with
      | some (.arr _) => set "spec" (.obj (set "volumeClaimTemplates" (.arr templates) spec)) resource
      | _ => resource)

/-! ## The resource -/

/-- Takes entries out of a map below the metadata, and the map if nothing is left. -/
def trim (key : String) (keeps : String × Json → Bool) (metadata : Fields) : Option Fields :=
  match metadata.lookup key with
  | none => some metadata
  | some value =>
    if !value.truthy then some metadata
    else do
      let kept := (← dict value).filter keeps
      some (if kept.isEmpty then pop key metadata else set key (.obj kept) metadata)

def stripMetadata (metadata : Fields) : Option Fields := do
  let metadata := popAll RUNTIME_METADATA_KEYS metadata
  let metadata ← trim "annotations" (fun field => !RUNTIME_ANNOTATIONS.contains field.1) metadata
  trim "labels" (fun field =>
    !(MANAGED_BY_LABEL_KEYS.contains field.1 && field.2.str? == some "terraform")) metadata

def stripService (spec : Fields) : Fields :=
  let spec := if (spec.lookup "clusterIP").bind Json.str? ≠ some "None" then
    popAll ["clusterIP", "clusterIPs"] spec else spec
  let spec := popAll ["healthCheckNodePort", "ipFamilies", "ipFamilyPolicy"] spec
  if (spec.lookup "sessionAffinityConfig").any Json.truthy then spec
  else pop "sessionAffinityConfig" spec

def onSpec (f : Fields → Fields) (resource : Fields) : Option Fields :=
  match resource.lookup "spec" with
  | none => some resource
  | some value => do some (set "spec" (.obj (f (← dict value))) resource)

/-- Only the name and the labels are exported. -/
def bare (kind : String) (labels : Json) (metadata : Fields) : Option Fields := do
  let name ← metadata.lookup "name"
  some [("apiVersion", .str "v1"), ("kind", .str kind),
    ("metadata", .obj [("name", name), ("labels", labels)])]

def labelsOf (metadata : Fields) : Json := (metadata.lookup "labels").getD (.obj [])

def stripKind (metadata resource : Fields) : Option Fields :=
  match (resource.lookup "kind").bind Json.str? with
  | some "Service" => onSpec stripService resource
  | some "PersistentVolumeClaim" => onSpec (pop "volumeName") resource
  | some "PersistentVolume" => onSpec (pop "claimRef") resource
  | some "ServiceAccount" => some (pop "secrets" resource)
  | some "Namespace" => bare "Namespace" (labelsOf metadata) metadata
  | some "Node" => do
    let labels := (← dict (labelsOf metadata)).filter fun label => label.1 == "nvidia.com/gpu.present"
    bare "Node" (.obj labels) metadata
  | _ => some resource

def stripResource (resource : Json) : Option Json := do
  let preserveManagedBy := requiresManagedByLabels resource
  let original ← dict resource
  let scrubbed := scrubFields preserveManagedBy (normalizeFields original)
  let metadata ← stripMetadata (← getDict "metadata" scrubbed)
  let stripped := pop "status" (set "metadata" (.obj metadata) scrubbed)
  let exported ← stripKind metadata stripped
  some (.obj (← restoreStatefulsetVolumeClaimLabels exported original))

end ClusterState.Export
