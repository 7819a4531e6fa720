import ClusterState.Export.Strip

/-! # Which pods are selected

A selector and the labels of a pod template are maps of strings, wherever they stand in
their resources.
-/

namespace ClusterState.Export

inductive Distinct : Json → Prop
  | null : Distinct .null
  | bool (b : Bool) : Distinct (.bool b)
  | int (n : Int) : Distinct (.int n)
  | float (x : Float) : Distinct (.float x)
  | str (text : String) : Distinct (.str text)
  | arr (items : List Json) (h : ∀ item ∈ items, Distinct item) : Distinct (.arr items)
  | obj (fields : Fields) (hkeys : (fields.map Prod.fst).Nodup)
      (h : ∀ field ∈ fields, Distinct field.2) : Distinct (.obj fields)

mutual

def hasDistinctKeys : Json → Bool
  | .obj fields => decide (fields.map Prod.fst).Nodup && fieldsHaveDistinctKeys fields
  | .arr items => itemsHaveDistinctKeys items
  | _ => true

def fieldsHaveDistinctKeys : List (String × Json) → Bool
  | [] => true
  | (_, item) :: rest => hasDistinctKeys item && fieldsHaveDistinctKeys rest

def itemsHaveDistinctKeys : List Json → Bool
  | [] => true
  | item :: rest => hasDistinctKeys item && itemsHaveDistinctKeys rest

end

mutual

theorem distinct_of_hasDistinctKeys : ∀ {j : Json}, hasDistinctKeys j = true → Distinct j
  | .null, _ => .null
  | .bool b, _ => .bool b
  | .int n, _ => .int n
  | .float x, _ => .float x
  | .str text, _ => .str text
  | .arr items, h => .arr items (distinct_of_items h)
  | .obj fields, h => by
    rw [hasDistinctKeys, Bool.and_eq_true, decide_eq_true_eq] at h
    exact .obj fields h.1 (distinct_of_fields h.2)

theorem distinct_of_fields : ∀ {fields : Fields}, fieldsHaveDistinctKeys fields = true →
    ∀ field ∈ fields, Distinct field.2
  | [], _ => List.forall_mem_nil _
  | (_, _) :: _, h => by
    rw [fieldsHaveDistinctKeys, Bool.and_eq_true] at h
    exact List.forall_mem_cons.mpr ⟨distinct_of_hasDistinctKeys h.1, distinct_of_fields h.2⟩

theorem distinct_of_items : ∀ {items : List Json}, itemsHaveDistinctKeys items = true →
    ∀ item ∈ items, Distinct item
  | [], _ => List.forall_mem_nil _
  | _ :: _, h => by
    rw [itemsHaveDistinctKeys, Bool.and_eq_true] at h
    exact List.forall_mem_cons.mpr ⟨distinct_of_hasDistinctKeys h.1, distinct_of_items h.2⟩

end

structure Resource where
  json : Json
  distinct : Distinct json

abbrev Labels := List (String × String)

def label? (field : String × Json) : Option (String × String) :=
  field.2.str?.map fun text => (field.1, text)

def labels? : Json → Option Labels
  | .obj fields => fields.mapM label?
  | _ => none

inductive Selector where
  | service (labels : Labels)
  | workload (labels : Labels)

def Selector.labels : Selector → Labels
  | service labels => labels
  | workload labels => labels

/-- An empty selector of a service selects nothing, one of a workload everything. -/
def Selector.Matches (selector : Selector) (labels : Labels) : Prop :=
  (∀ label ∈ selector.labels, labels.lookup label.1 = some label.2) ∧
    match selector with
    | service required => required ≠ []
    | workload _ => True

def kindOf (resource : Json) : Option String := (resource.get "kind").bind Json.str?

/-- `spec[key]` -/
def inSpec (key : String) (holder : Json) : Option Json :=
  (holder.get "spec").bind fun spec => spec.get key

def workloadKinds : List String := ["Deployment", "StatefulSet", "DaemonSet", "ReplicaSet", "Job"]

def inWorkload (key : String) (resource : Json) : Option Json := do
  let kind ← kindOf resource
  if workloadKinds.contains kind then inSpec key resource
  else if kind = "CronJob" then (inSpec "jobTemplate" resource).bind (inSpec key)
  else none

/-- The map below a key; nothing there is an empty map. -/
def labelsAt (key : String) (holder : Json) : Option Labels :=
  match holder.get key with
  | some value => labels? value
  | none => if holder.isDict then some [] else none

/-- `spec.selector` of a service, `selector.matchLabels` of a workload. -/
def selector? (resource : Json) : Option Selector :=
  if kindOf resource = some "Service" then
    ((inSpec "selector" resource).bind labels?).map .service
  else ((inWorkload "selector" resource).bind (labelsAt "matchLabels")).map .workload

/-- `template.metadata.labels` -/
def labelsOfTemplate (template : Json) : Option Labels :=
  match template.get "metadata" with
  | some metadata => labelsAt "labels" metadata
  | none => if template.isDict then some [] else none

def templateLabels? (resource : Json) : Option Labels :=
  (inWorkload "template" resource).bind labelsOfTemplate

end ClusterState.Export
