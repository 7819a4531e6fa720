import ClusterState.Export.Naming

/-! # Writing a component

Every resource is written into the directory of its component under the name of its file, and a
later one replaces an earlier one of that name. Of `kustomization.yaml` the list of resources is
kept here, of the migrations Job what it is called.
-/

namespace ClusterState.Export

/-! ## Fetching -/

def addResource (collected : List Key × List Json) (resource : Json) : Option (List Key × List Json) := do
  let stripped ← stripResource resource
  let key ← resourceKey stripped
  if key ∈ collected.1 then some collected else some (key :: collected.1, collected.2 ++ [stripped])

/-- The config maps that Grafana's kustomization generates. -/
def isGenerated (resource : Json) : Option Bool := do
  let fields ← dict resource
  if (← text "kind" fields) ≠ "ConfigMap" then some false
  else do
    let metadata ← (fields.lookup "metadata").bind dict
    some (["grafana-alerting", "grafana-datasources"].contains (← text "name" metadata))

/-- The answers of `kubectl`, one after another. -/
def fetchComponentResources (answers : List (List Json)) (postprocess : Option String) :
    Option (List Json) := do
  let collected ← answers.flatten.foldlM addResource ([], [])
  if postprocess ≠ some "grafana" then some collected.2
  else if collected.2.all fun resource => (isGenerated resource).isSome then
    some (collected.2.filter fun resource => isGenerated resource = some false)
  else none

/-! ## Writing -/

inductive Document where
  | manifest (json : Json)
  | kustomization (resources : List String)
  | other (content : String)

/-- The files of a component, without the directory `files` of Grafana's. -/
abbrev Directory := AList fun _ : String => Document

def manifest? (dir : Directory) (name : String) : Option Json :=
  match dir.lookup name with
  | some (.manifest json) => some json
  | _ => none

def listing? (dir : Directory) : Option (List String) :=
  match dir.lookup "kustomization.yaml" with
  | some (.kustomization resources) => some resources
  | _ => none

def sortKey (resource : Json) : Option (String ×ₗ String ×ₗ String) := do
  let fields ← dict resource
  let kind ← text "kind" fields
  let metadata ← (fields.lookup "metadata").bind dict
  let objectNamespace ← textOr "namespace" metadata
  let name ← text "name" metadata
  some (toLex (kind, toLex (objectNamespace, name)))

structure Named where
  order : String ×ₗ String ×ₗ String
  file : String
  resource : Json

def nameResource (lower : String → String) (resource : Json) : Option Named := do
  some ⟨← sortKey resource, ← filenameFor lower resource, resource⟩

def insertAll (dir : Directory) (files : List Named) : Directory :=
  files.foldl (fun dir named => dir.insert named.file (.manifest named.resource)) dir

def writeFiles (lower : String → String) (resources : List Json) : Option Directory := do
  let files := (← resources.mapM (nameResource lower)).mergeSort fun a b => decide (a.order ≤ b.order)
  some ((insertAll ∅ files).insert "kustomization.yaml" (.kustomization (files.map Named.file)))

/-! ## Grafana -/

def onPath (f : Json → Option Json) : List String → Json → Option Json
  | [], value => f value
  | key :: path, value => do
    let fields ← dict value
    match fields.lookup key with
    | none => some value
    | some below => some (.obj (set key (← onPath f path below) fields))

/-- The name without the suffix that the generator has appended. -/
def renameConfigMap (volume : Json) : Option Json := do
  let fields ← dict volume
  match fields.lookup "configMap" with
  | none => some volume
  | some configMap =>
    if !configMap.truthy then some volume
    else do
      let entries ← dict configMap
      let name ← textOr "name" entries
      if name.startsWith "grafana-datasources" then
        some (.obj (set "configMap" (.obj (set "name" (.str "grafana-datasources") entries)) fields))
      else if name.startsWith "grafana-alerting" then
        some (.obj (set "configMap" (.obj (set "name" (.str "grafana-alerting") entries)) fields))
      else some volume

def renameVolumes : Json → Option Json
  | .arr volumes => (volumes.mapM renameConfigMap).map .arr
  | .obj [] => some (.obj [])
  | .str "" => some (.str "")
  | _ => none

/-- `rules` are the alert rules, if they can be exported. -/
def writeGrafanaFiles (rules : Option String) (dir : Directory) : Option Directory := do
  let dir := dir.insert "_grafana_alert_rules.yaml" (.other (← rules))
  let deployment ← manifest? dir "deployment-default-grafana.yaml"
  let renamed ← onPath renameVolumes ["spec", "template", "spec", "volumes"] deployment
  let dir := dir.insert "deployment-default-grafana.yaml" (.manifest renamed)
  some (dir.insert "kustomization.yaml" (.kustomization (← listing? dir)))

/-! ## GitLab -/

def GITLAB_CNG_IMAGES : List (String × String) := [
  ("gitlab-gitaly", "registry.gitlab.com/gitlab-org/build/cng/gitaly"),
  ("gitlab-registry", "registry.gitlab.com/gitlab-org/build/cng/gitlab-container-registry"),
  ("gitlab-sidekiq", "registry.gitlab.com/gitlab-org/build/cng/gitlab-sidekiq-ce"),
  ("gitlab-webservice", "registry.gitlab.com/gitlab-org/build/cng/gitlab-webservice-ce"),
  ("gitlab-workhorse", "registry.gitlab.com/gitlab-org/build/cng/gitlab-workhorse-ce")]

def splitImageTag (image : List Char) : Option (List Char × List Char) :=
  if '@' ∈ image then none
  else
    let tag := (image.reverse.takeWhile (· ≠ ':')).reverse
    let name := image.take (image.length - tag.length - 1)
    if ':' ∈ image ∧ name ≠ [] ∧ tag ≠ [] then some (name, tag) else none

def nameOf (resource : Json) : Option String := do
  text "name" (← ((← dict resource).lookup "metadata").bind dict)

def deploymentNamed (resources : List Json) (name : String) : Option Json :=
  (resources.filter fun resource => resource.holds "kind" "Deployment" && nameOf resource = some name).getLast?

def versionOf (resources : List Json) (image : String × String) : Option (List Char) := do
  let deployment ← dict (← deploymentNamed resources image.1)
  let podSpec ← getDict "spec" (← getDict "template" (← getDict "spec" deployment))
  match ← getList "containers" podSpec with
  | [container] =>
    let (name, tag) ← splitImageTag (← text "image" (← dict container)).toList
    if name = image.2.toList then some tag else none
  | _ => none

def gitlabVersion (resources : List Json) : Option (List Char) := do
  match (← GITLAB_CNG_IMAGES.mapM (versionOf resources)).dedup with
  | [version] => some version
  | _ => none

def jobFilename : String := "job-default-gitlab-migrations.yaml"

def job : Json := .obj [
  ("apiVersion", .str "batch/v1"), ("kind", .str "Job"),
  ("metadata", .obj [("name", .str "gitlab-migrations-placeholder"), ("namespace", .str "default"),
    ("labels", .obj [("app", .str "gitlab"), ("component", .str "migrations")])])]

def writeGitlabFiles (resources : List Json) (dir : Directory) : Option Directory := do
  let _ ← gitlabVersion resources
  let dir := dir.insert jobFilename (.manifest job)
  let listing ← listing? dir
  some (dir.insert "kustomization.yaml"
    (.kustomization (if jobFilename ∈ listing then listing else listing ++ [jobFilename])))

def writeComponent (lower : String → String) (postprocess rules : Option String)
    (resources : List Json) : Option Directory := do
  let dir ← writeFiles lower resources
  if postprocess = some "grafana" then writeGrafanaFiles rules dir
  else if postprocess = some "gitlab" then writeGitlabFiles resources dir
  else some dir

/-! ## What is to be shown -/

/-- Two documents are the same but for what stands below some keys. -/
def AgreeBut (r : Json → Json → Prop) : List String → Json → Json → Prop
  | [], a, b => r a b
  | key :: path, a, b => ∃ fields fields', a = .obj fields ∧ b = .obj fields' ∧
      (∀ other, other ≠ key → fields'.lookup other = fields.lookup other) ∧
      Option.Rel (AgreeBut r path) (fields.lookup key) (fields'.lookup key)

/-- The config maps that Grafana's kustomization generates have lost a suffix of their names. -/
def SameVolume (volume volume' : Json) : Prop :=
  volume' = volume ∨ ∃ name ∈ ["grafana-datasources", "grafana-alerting"],
    AgreeBut (fun x x' => ∃ suffix, x = .str (name ++ suffix) ∧ x' = .str name)
      ["configMap", "name"] volume volume'

def SameVolumes (volumes volumes' : Json) : Prop :=
  volumes' = volumes ∨ ∃ l l', volumes = .arr l ∧ volumes' = .arr l' ∧ List.Forall₂ SameVolume l l'

/-- A file holds a resource: all of it, but for the volumes of Grafana's deployment. -/
def Holds (postprocess : Option String) (dir : Directory) (name : String) (resource : Json) : Prop :=
  ∃ json, manifest? dir name = some json ∧ (json = resource ∨
    postprocess = some "grafana" ∧ name = "deployment-default-grafana.yaml" ∧
      AgreeBut SameVolumes ["spec", "template", "spec", "volumes"] resource json)

def IsOf (dir : Directory) (name : String) (resource : Json) : Prop :=
  ∃ json, manifest? dir name = some json ∧ resourceKey json = resourceKey resource

/-- The names are distinct, and every resource is in the file of its name, in no other one, and
listed once. -/
structure Complete (lower : String → String) (postprocess : Option String) (resources : List Json)
    (dir : Directory) : Prop where
  distinct : (resources.map (filenameFor lower)).Nodup
  reserved : some "kustomization.yaml" ∉ resources.map (filenameFor lower)
  stored : ∀ resource ∈ resources, ∃ name, filenameFor lower resource = some name ∧
    Holds postprocess dir name resource ∧ (∀ other, IsOf dir other resource → other = name) ∧
    ∃ listing, listing? dir = some listing ∧ listing.count name = 1

def jobKey : Key := ⟨"batch/v1", "Job", "default", "gitlab-migrations-placeholder"⟩

/-- No two resources have the same pieces, and none of those of GitLab is taken for the Job. -/
structure Separable (lower : String → String) (postprocess : Option String) (keys : List Key) : Prop where
  pieces : (keys.map (parts lower)).Nodup
  job : postprocess = some "gitlab" → ∀ key ∈ keys, key ≠ jobKey ∧
    parts lower key ≠ ["job".toList, "default".toList, "gitlab".toList, "migrations".toList]

end ClusterState.Export
