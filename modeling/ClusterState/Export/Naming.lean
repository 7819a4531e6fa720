import ClusterState.Export.Strip

/-! # What exported resources are called

Resources are told apart by four texts, and their files by three of them, joined by hyphens.
Hyphens also occur inside of them.
-/

namespace ClusterState.Export

structure Key where
  apiVersion : String
  kind : String
  objectNamespace : String
  name : String
  deriving DecidableEq

def text (key : String) (fields : Fields) : Option String := (fields.lookup key).bind Json.str?

def textOr (key : String) (fields : Fields) : Option String :=
  match fields.lookup key with
  | some value => value.str?
  | none => some ""

def resourceKey (resource : Json) : Option Key := do
  let fields ← dict resource
  let metadata ← getDict "metadata" fields
  some {
    apiVersion := ← textOr "apiVersion" fields
    kind := ← textOr "kind" fields
    objectNamespace := ← textOr "namespace" metadata
    name := ← textOr "name" metadata }

def safeName (name : List Char) : List Char :=
  (name.map fun c => if c = '/' then '-' else c).map fun c => if c = ':' then '-' else c

/-- `lower` is `str.lower`. -/
def stem (lower : String → String) (key : Key) : List Char :=
  (lower key.kind).toList ++ '-' ::
    if key.objectNamespace = "" then safeName key.name.toList
    else key.objectNamespace.toList ++ '-' :: safeName key.name.toList

def fileName (lower : String → String) (key : Key) : String :=
  .ofList (stem lower key ++ ".yaml".toList)

def filenameFor (lower : String → String) (resource : Json) : Option String := do
  let fields ← dict resource
  let kind ← text "kind" fields
  let metadata ← (fields.lookup "metadata").bind dict
  let name ← text "name" metadata
  let objectNamespace ← textOr "namespace" metadata
  some (fileName lower ⟨"", kind, objectNamespace, name⟩)

def parts (lower : String → String) (key : Key) : List (List Char) :=
  (lower key.kind).toList.splitOn '-' ++
    ((if key.objectNamespace = "" then [] else key.objectNamespace.toList.splitOn '-') ++
      (safeName key.name.toList).splitOn '-')

section Names

variable {lower : String → String} {key key' : Key} {resource : Json} {name : String}

theorem text_eq_some {field : String} {fields : Fields} {value : String}
    (h : text field fields = some value) : textOr field fields = some value := by
  unfold text at h
  unfold textOr
  cases hlookup : fields.lookup field with
  | none =>
    rw [hlookup] at h
    cases h
  | some json =>
    rw [hlookup] at h
    exact h

theorem filenameFor_eq (hname : filenameFor lower resource = some name)
    (hkey : resourceKey resource = some key) : name = fileName lower key := by
  unfold filenameFor at hname
  unfold resourceKey at hkey
  simp only [Option.bind_eq_bind, Option.bind_eq_some_iff, Option.some.injEq] at hname hkey
  obtain ⟨fields, hfields, kind, hkind, metadata, ⟨value, hvalue, hmetadata⟩, text, htext,
    objectNamespace, hns, rfl⟩ := hname
  obtain ⟨fields', hfields', metadata', hmetadata', apiVersion, -, kind', hkind', ns', hns', text',
    htext', rfl⟩ := hkey
  cases hfields.symm.trans hfields'
  rw [getDict, hvalue] at hmetadata'
  cases hmetadata.symm.trans hmetadata'
  cases (text_eq_some hkind).symm.trans hkind'
  cases (text_eq_some htext).symm.trans htext'
  cases hns.symm.trans hns'
  rfl

theorem splitOn_stem : (stem lower key).splitOn '-' = parts lower key := by
  unfold stem parts
  rw [List.splitOn_append_cons_self]
  split
  · rfl
  · rw [List.splitOn_append_cons_self]

theorem stem_eq_iff {text : List Char} : stem lower key = text ↔ parts lower key = text.splitOn '-' := by
  rw [← splitOn_stem]
  constructor
  · exact congrArg (List.splitOn '-')
  · intro h
    rw [← @List.intercalate_splitOn _ (stem lower key) _ _ '-', h, List.intercalate_splitOn]

theorem fileName_eq_ofList {text : List Char} :
    fileName lower key = .ofList (text ++ ".yaml".toList) ↔ parts lower key = text.splitOn '-' := by
  rw [fileName, String.ofList_inj, List.append_cancel_right_eq, stem_eq_iff]

/-- Two files have one name exactly if their pieces are the same. -/
theorem fileName_eq_iff : fileName lower key = fileName lower key' ↔
    parts lower key = parts lower key' := by
  rw [← @splitOn_stem _ key', ← fileName_eq_ofList]
  rfl

theorem fileName_ne {other : String} (h : '-' ∉ other.toList) : fileName lower key ≠ other := by
  intro heq
  apply h
  rw [← heq]
  simp [fileName, stem]

theorem fileName_ne_kustomization : fileName lower key ≠ "kustomization.yaml" := fileName_ne (by decide)

end Names

end ClusterState.Export
