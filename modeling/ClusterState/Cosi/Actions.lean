import ClusterState.Cosi.Driver

/-! # The actions of an identity

`grantActions` adds the actions of a policy on one bucket and keeps what was there.
-/

namespace ClusterState.Cosi

/-! ## Actions on a bucket -/

/-- The name of an action on the bucket: what stands before the first colon, when the bucket
stands after it. -/
def actionOn (bucket action : String) : Option String :=
  match action.toList.span (· ≠ ':') with
  | (name, _ :: rest) => if rest = bucket.toList then some (String.ofList name) else none
  | (_, []) => none

def actionsOn (bucket : String) (actions : List String) : List String :=
  actions.filterMap (actionOn bucket)

def actionsOff (bucket : String) (actions : List String) : List String :=
  actions.filter fun action => (actionOn bucket action).isNone

/-! ## What `grantActions` adds -/

section Actions

variable {bucket : String} {actions policy : List String} {a : String}

theorem actionOn_append (ha : ':' ∉ a.toList) : actionOn bucket (a ++ ":" ++ bucket) = some a := by
  have htext : (a ++ ":" ++ bucket).toList = a.toList ++ ':' :: bucket.toList := by
    rw [String.toList_append, String.toList_append, List.append_assoc]
    rfl
  have hname : ∀ c ∈ a.toList, decide (c ≠ ':') = true := by
    intro c hc
    exact decide_eq_true fun heq => ha (heq ▸ hc)
  have hspan : (a ++ ":" ++ bucket).toList.span (· ≠ ':') = (a.toList, ':' :: bucket.toList) := by
    rw [htext, List.span_eq_takeWhile_dropWhile, List.takeWhile_append_of_pos hname,
      List.dropWhile_append_of_pos hname]
    simp
  rw [actionOn, hspan]
  change (if bucket.toList = bucket.toList then some (String.ofList a.toList) else none) = _
  rw [if_pos rfl, String.ofList_toList]

theorem policy_names {policy : String} {actions : List String}
    (h : actionsForPolicy policy = .ok actions) : ∀ a ∈ actions, ':' ∉ a.toList := by
  unfold actionsForPolicy at h
  split at h
  · cases h
    decide
  split at h
  · cases h
    decide
  · cases h

/-- The step of `grantActions`. -/
def addAction (bucket : String) (granted : List String) (a : String) : List String :=
  if a ++ ":" ++ bucket ∈ granted then granted else granted ++ [a ++ ":" ++ bucket]

theorem grantActions_eq (identity : Identity) :
    grantActions identity bucket policy = policy.foldl (addAction bucket) identity.actions := rfl

/-- What a grant leaves: the old actions, and the policy's where they are not there. -/
structure Extends (bucket : String) (policy old new : List String) : Prop where
  enlarges : ∃ added, new = old ++ added ∧ ∀ action ∈ added, ∃ a ∈ policy, action = a ++ ":" ++ bucket
  granted : ∀ a ∈ policy, a ++ ":" ++ bucket ∈ new

theorem extends_foldl (policy old : List String) :
    Extends bucket policy old (policy.foldl (addAction bucket) old) := by
  induction policy generalizing old with
  | nil => exact ⟨⟨[], (List.append_nil old).symm, nofun⟩, nofun⟩
  | cons a policy ih =>
    obtain ⟨⟨added, heq, hadded⟩, hgranted⟩ := ih (addAction bucket old a)
    have hsub : ∀ action ∈ addAction bucket old a,
        action ∈ policy.foldl (addAction bucket) (addAction bucket old a) := by
      intro action haction
      rw [heq]
      exact List.mem_append_left _ haction
    have hself : a ++ ":" ++ bucket ∈ addAction bucket old a := by
      unfold addAction
      split
      · assumption
      · exact List.mem_append_right _ (List.mem_singleton.mpr rfl)
    refine ⟨?_, fun a' ha' => ?_⟩
    · rw [List.foldl_cons, heq]
      have hadded' : ∀ action ∈ added, ∃ a' ∈ a :: policy, action = a' ++ ":" ++ bucket := by
        intro action haction
        obtain ⟨a', ha', rfl⟩ := hadded action haction
        exact ⟨a', List.mem_cons_of_mem a ha', rfl⟩
      unfold addAction
      split
      · exact ⟨added, rfl, hadded'⟩
      · refine ⟨(a ++ ":" ++ bucket) :: added, by rw [List.append_assoc, List.singleton_append],
          fun action haction => ?_⟩
        rcases List.mem_cons.mp haction with rfl | haction
        · exact ⟨a, List.mem_cons_self, rfl⟩
        · exact hadded' action haction
    · rcases List.mem_cons.mp ha' with rfl | ha'
      · exact hsub _ hself
      · exact hgranted a' ha'

theorem foldl_of_granted {old : List String} (h : ∀ a ∈ policy, a ++ ":" ++ bucket ∈ old) :
    policy.foldl (addAction bucket) old = old := by
  induction policy with
  | nil => rfl
  | cons a policy ih =>
    rw [List.foldl_cons, addAction, if_pos (h a List.mem_cons_self)]
    exact ih fun a' ha' => h a' (List.mem_cons_of_mem a ha')

variable {old new : List String}

theorem Extends.mem_actionsOn (h : Extends bucket policy old new)
    (hnames : ∀ a ∈ policy, ':' ∉ a.toList) :
    a ∈ actionsOn bucket new ↔ a ∈ actionsOn bucket old ∨ a ∈ policy := by
  obtain ⟨added, rfl, hadded⟩ := h.enlarges
  rw [actionsOn, List.filterMap_append, List.mem_append]
  refine or_congr_right' fun hold => ?_
  constructor
  · intro ha
    obtain ⟨action, haction, hon⟩ := List.mem_filterMap.mp ha
    obtain ⟨a', ha', rfl⟩ := hadded action haction
    rw [actionOn_append (hnames a' ha')] at hon
    obtain rfl := Option.some.inj hon
    exact ha'
  · intro ha
    rcases List.mem_append.mp (h.granted a ha) with hmem | hmem
    · exact absurd (List.mem_filterMap.mpr ⟨_, hmem, actionOn_append (hnames a ha)⟩) hold
    · exact List.mem_filterMap.mpr ⟨_, hmem, actionOn_append (hnames a ha)⟩

theorem Extends.actionsOff (h : Extends bucket policy old new)
    (hnames : ∀ a ∈ policy, ':' ∉ a.toList) : actionsOff bucket new = actionsOff bucket old := by
  obtain ⟨added, rfl, hadded⟩ := h.enlarges
  have hnone : added.filter (fun action => (actionOn bucket action).isNone) = [] := by
    rw [List.filter_eq_nil_iff]
    intro action haction
    obtain ⟨a', ha', rfl⟩ := hadded action haction
    rw [actionOn_append (hnames a' ha')]
    exact Bool.false_ne_true
  rw [Cosi.actionsOff, List.filter_append, hnone, List.append_nil, Cosi.actionsOff]

end Actions

end ClusterState.Cosi
