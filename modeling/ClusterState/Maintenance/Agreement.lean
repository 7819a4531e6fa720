import ClusterState.Maintenance.Pods

/-! # The two checks of the CI pods agree

Both depend on what the items say, one by one. So the order of the list does not matter,
and they differ only where the maintenance pod itself is concerned.
-/

namespace ClusterState.Maintenance

/-! ## One item -/

/-- A job that is no danger to the caches: it is over, or it runs elsewhere. -/
def isClear (pod : Pod) : Bool :=
  !pod.terminating && livePhases.contains pod.phase &&
    !(isActive pod.phase && !remoteNodes.contains pod.node)

def isJob (pod : Pod) : Bool := pod.labels.holds jobLabel "true"

def isMaintenance (pod : Pod) : Bool := pod.labels.holds maintenanceLabel "true"

/-- What `pod_gate` asks of a pod, whatever the others are. -/
structure Admissible (selfUid : String) (pod : Pod) : Prop where
  uid : pod.uid ≠ ""
  name : pod.name ≠ ""
  own : pod.uid = selfUid → selfConsistent pod = true
  clear : pod.uid ≠ selfUid → isJob pod = true → isClear pod = true

def Gate.after (selfUid : String) (gate : Gate) (pod : Pod) : Gate where
  seen := gate.seen || pod.uid == selfUid
  pending := if pod.uid == selfUid then pod.phase == "Pending" else gate.pending
  uids := pod.uid :: gate.uids

variable {selfUid : String} {gate gate' : Gate} {item : Json}

theorem named_iff {pod : Pod} {uids : List String} :
    (!(pod.uid == "" || pod.name == "" || uids.contains pod.uid)) = true ↔
      pod.uid ≠ "" ∧ pod.name ≠ "" ∧ pod.uid ∉ uids := by
  simp [and_assoc]

theorem isClear_iff {pod : Pod} : isClear pod = true ↔
    (!(pod.terminating || !livePhases.contains pod.phase)) = true ∧
      (!(isActive pod.phase && !remoteNodes.contains pod.node)) = true := by
  rw [isClear, Bool.and_eq_true, Bool.not_or, Bool.not_not]

theorem gatePod_ok_iff : gatePod selfUid gate item = .ok gate' ↔
    ∃ pod, readPod item = .ok pod ∧ Admissible selfUid pod ∧ pod.uid ∉ gate.uids ∧
      (pod.uid = selfUid → gate.seen = false) ∧ gate' = gate.after selfUid pod := by
  rw [gatePod, Data.bind_eq_ok]
  refine exists_congr fun pod => and_congr_right fun _ => ?_
  rw [require_bind_ok, named_iff]
  by_cases hself : pod.uid = selfUid
  · have hbeq : (pod.uid == selfUid) = true := beq_iff_eq.mpr hself
    simp only [hbeq, if_true]
    rw [require_bind_ok, Bool.and_eq_true, Bool.not_eq_true']
    constructor
    · rintro ⟨⟨huid, hname, hfresh⟩, ⟨hseen, hown⟩, hgate⟩
      refine ⟨⟨huid, hname, fun _ => hown, fun hne => absurd hself hne⟩, hfresh, fun _ => hseen, ?_⟩
      cases hgate
      simp [Gate.after, hbeq]
    · rintro ⟨hadmissible, hfresh, hseen, rfl⟩
      refine ⟨⟨hadmissible.uid, hadmissible.name, hfresh⟩, ⟨hseen hself, hadmissible.own hself⟩, ?_⟩
      simp [Gate.after, hbeq]
  · have hbeq : (pod.uid == selfUid) = false := beq_eq_false_iff_ne.mpr hself
    simp only [hbeq, Bool.false_eq_true, if_false]
    have hafter : gate.after selfUid pod = { gate with uids := pod.uid :: gate.uids } := by
      simp [Gate.after, hbeq]
    by_cases hjob : isJob pod = true
    · have hholds : pod.labels.holds jobLabel "true" = true := hjob
      rw [if_pos hholds, require_bind_ok, require_bind_ok, hafter]
      constructor
      · rintro ⟨⟨huid, hname, hfresh⟩, hlive, hidle, hgate⟩
        exact ⟨⟨huid, hname, fun h => absurd h hself, fun _ _ => isClear_iff.mpr ⟨hlive, hidle⟩⟩,
          hfresh, fun h => absurd h hself, (Except.ok.inj hgate).symm⟩
      · rintro ⟨hadmissible, hfresh, -, rfl⟩
        obtain ⟨hlive, hidle⟩ := isClear_iff.mp (hadmissible.clear hself hjob)
        exact ⟨⟨hadmissible.uid, hadmissible.name, hfresh⟩, hlive, hidle, rfl⟩
    · have hholds : ¬ pod.labels.holds jobLabel "true" = true := hjob
      rw [if_neg hholds, hafter]
      constructor
      · rintro ⟨⟨huid, hname, hfresh⟩, hgate⟩
        exact ⟨⟨huid, hname, fun h => absurd h hself, fun _ h => absurd h hjob⟩, hfresh,
          fun h => absurd h hself, (Except.ok.inj hgate).symm⟩
      · rintro ⟨hadmissible, hfresh, -, rfl⟩
        exact ⟨⟨hadmissible.uid, hadmissible.name, hfresh⟩, rfl⟩

/-! ## All items -/

def Reads (items : List Json) (pods : List Pod) : Prop :=
  List.Forall₂ (fun item pod => readPod item = .ok pod) items pods

theorem seen_after {pod : Pod} (hseen : gate.seen = true → selfUid ∈ gate.uids) :
    (gate.after selfUid pod).seen = true → selfUid ∈ (gate.after selfUid pod).uids := by
  intro h
  rw [Gate.after, Bool.or_eq_true, beq_iff_eq] at h
  rcases h with h | rfl
  · exact List.mem_cons_of_mem _ (hseen h)
  · exact List.mem_cons_self

theorem gatePods_ok_iff {items : List Json} (hseen : gate.seen = true → selfUid ∈ gate.uids) :
    items.foldlM (gatePod selfUid) gate = .ok gate' ↔
      ∃ pods, Reads items pods ∧ (∀ pod ∈ pods, Admissible selfUid pod ∧ pod.uid ∉ gate.uids) ∧
        (pods.map Pod.uid).Nodup ∧ gate' = pods.foldl (Gate.after selfUid) gate := by
  induction items generalizing gate with
  | nil =>
    constructor
    · intro h
      cases h
      exact ⟨[], .nil, nofun, .nil, rfl⟩
    · rintro ⟨pods, hreads, -, -, rfl⟩
      cases hreads
      rfl
  | cons item items ih =>
    rw [List.foldlM_cons, Data.bind_eq_ok]
    constructor
    · rintro ⟨gate₁, hpod, hrest⟩
      obtain ⟨pod, hread, hadmissible, hfresh, -, rfl⟩ := gatePod_ok_iff.mp hpod
      obtain ⟨pods, hreads, hall, hnodup, rfl⟩ := (ih (seen_after hseen)).mp hrest
      refine ⟨pod :: pods, .cons hread hreads, ?_, ?_, rfl⟩
      · rw [List.forall_mem_cons]
        refine ⟨⟨hadmissible, hfresh⟩, fun other hother => ⟨(hall other hother).1, fun hmem => ?_⟩⟩
        exact (hall other hother).2 (List.mem_cons_of_mem _ hmem)
      · rw [List.map_cons, List.nodup_cons]
        refine ⟨fun hmem => ?_, hnodup⟩
        obtain ⟨other, hother, heq⟩ := List.mem_map.mp hmem
        exact (hall other hother).2 (by rw [heq]; exact List.mem_cons_self)
    · rintro ⟨_ | ⟨pod, pods⟩, hreads, hall, hnodup, rfl⟩
      · cases hreads
      · obtain ⟨hread, hreads⟩ := List.forall₂_cons.mp hreads
        rw [List.forall_mem_cons] at hall
        rw [List.map_cons, List.nodup_cons] at hnodup
        obtain ⟨⟨hadmissible, hfresh⟩, hall⟩ := hall
        refine ⟨gate.after selfUid pod, gatePod_ok_iff.mpr
          ⟨pod, hread, hadmissible, hfresh, fun hself => ?_, rfl⟩, ?_⟩
        · rw [← Bool.not_eq_true]
          exact fun h => hfresh (hself ▸ hseen h)
        · refine (ih (seen_after hseen)).mpr ⟨pods, hreads, fun other hother => ?_, hnodup.2, rfl⟩
          refine ⟨(hall other hother).1, fun hmem => ?_⟩
          rcases List.mem_cons.mp hmem with heq | hmem
          · exact hnodup.1 (List.mem_map.mpr ⟨other, hother, heq⟩)
          · exact (hall other hother).2 hmem

theorem seen_foldl {pods : List Pod} : (pods.foldl (Gate.after selfUid) gate).seen = true ↔
    gate.seen = true ∨ ∃ pod ∈ pods, pod.uid = selfUid := by
  induction pods generalizing gate with
  | nil => simp
  | cons pod pods ih =>
    rw [List.foldl_cons, ih, List.exists_mem_cons_iff]
    simp [Gate.after, or_assoc]

theorem pending_foldl_of_absent {pods : List Pod} (h : ∀ pod ∈ pods, pod.uid ≠ selfUid) :
    (pods.foldl (Gate.after selfUid) gate).pending = gate.pending := by
  induction pods generalizing gate with
  | nil => rfl
  | cons pod pods ih =>
    rw [List.forall_mem_cons] at h
    rw [List.foldl_cons, ih h.2]
    simp [Gate.after, h.1]

theorem pending_foldl {pods : List Pod} (hnodup : (pods.map Pod.uid).Nodup) {own : Pod}
    (hmem : own ∈ pods) (hown : own.uid = selfUid) :
    (pods.foldl (Gate.after selfUid) gate).pending = (own.phase == "Pending") := by
  induction pods generalizing gate with
  | nil => cases hmem
  | cons pod pods ih =>
    rw [List.map_cons, List.nodup_cons] at hnodup
    rw [List.foldl_cons]
    rcases List.mem_cons.mp hmem with rfl | hmem
    · have habsent : ∀ other ∈ pods, other.uid ≠ selfUid := by
        intro other hother heq
        exact hnodup.1 (List.mem_map.mpr ⟨other, hother, heq.trans hown.symm⟩)
      rw [pending_foldl_of_absent habsent]
      simp [Gate.after, hown]
    · exact ih hnodup.2 hmem

def Lists (payload : Json) (items : List Json) : Prop :=
  (payload.get "items").bind Json.list? = some items ∧
    ∃ metadata, (payload.get "metadata").bind Json.dict? = some metadata ∧
      isComplete metadata = true

theorem podGate_ok_iff {payload : Json} {verdict : Bool} :
    podGate payload selfUid = .ok verdict ↔
      ∃ items pods, Lists payload items ∧ Reads items pods ∧
        (∀ pod ∈ pods, Admissible selfUid pod) ∧ (pods.map Pod.uid).Nodup ∧
        ∃ own ∈ pods, own.uid = selfUid ∧ verdict = !(own.phase == "Pending") := by
  have hinit : (⟨false, false, []⟩ : Gate).seen = true → selfUid ∈ ([] : List String) := nofun
  unfold podGate Lists
  cases hitems : (payload.get "items").bind Json.list? with
  | none => exact iff_of_false nofun fun ⟨_, _, ⟨h, _⟩, _⟩ => nomatch h
  | some items =>
    cases hmetadata : (payload.get "metadata").bind Json.dict? with
    | none =>
      refine iff_of_false nofun ?_
      rintro ⟨_, _, ⟨-, _, h, -⟩, -⟩
      cases h
    | some metadata =>
      by_cases hcomplete : isComplete metadata = true
      · simp only [hcomplete, Bool.not_true, Bool.false_eq_true, if_false]
        rw [Data.bind_eq_ok]
        constructor
        · rintro ⟨gate, hloop, hend⟩
          obtain ⟨pods, hreads, hall, hnodup, rfl⟩ := (gatePods_ok_iff hinit).mp hloop
          obtain ⟨hseen, hverdict⟩ := require_bind_ok.mp hend
          obtain ⟨own, hown, huid⟩ := (seen_foldl.mp hseen).resolve_left Bool.false_ne_true
          rw [pending_foldl hnodup hown huid] at hverdict
          exact ⟨items, pods, ⟨rfl, metadata, rfl, hcomplete⟩, hreads,
            fun pod hpod => (hall pod hpod).1, hnodup, own, hown, huid, (Except.ok.inj hverdict).symm⟩
        · rintro ⟨items', pods, ⟨heq, -⟩, hreads, hall, hnodup, own, hown, huid, rfl⟩
          cases heq
          refine ⟨_, (gatePods_ok_iff hinit).mpr
            ⟨pods, hreads, fun pod hpod => ⟨hall pod hpod, List.not_mem_nil⟩, hnodup, rfl⟩, ?_⟩
          rw [require_bind_ok, pending_foldl hnodup hown huid]
          exact ⟨seen_foldl.mpr (.inr ⟨own, hown, huid⟩), rfl⟩
      · simp only [Bool.not_eq_true] at hcomplete
        simp only [hcomplete, Bool.not_false, if_true]
        refine iff_of_false nofun ?_
        rintro ⟨_, _, ⟨-, metadata', heq, hcomplete'⟩, -⟩
        cases heq
        rw [hcomplete] at hcomplete'
        cases hcomplete'

/-! ## The coordinator -/

theorem readPod_ok {pod : Pod} (h : readPod item = .ok pod) :
    ∃ metadata spec status labels, item.get "metadata" = some (.obj metadata) ∧
      item.get "spec" = some (.obj spec) ∧ item.get "status" = some (.obj status) ∧
      (Json.obj status).get "phase" = some (.str pod.phase) ∧
      (Json.obj metadata).get "labels" = some (.obj labels) ∧ pod.labels = .obj labels ∧
      nodeName (.obj spec) = some pod.node ∧
      pod.terminating = (Json.obj metadata).has "deletionTimestamp" := by
  have hdict : ∀ {key : String} {j d : Json}, (j.get key).bind Json.dict? = some d →
      ∃ fields, d = .obj fields ∧ j.get key = some (.obj fields) := by
    intro key j d h
    obtain ⟨found, hfound, hd⟩ := Option.bind_eq_some_iff.mp h
    cases found <;> cases hd
    exact ⟨_, rfl, hfound⟩
  unfold readPod at h
  split at h
  · cases h
  · split at h
    · rename_i metadata spec status hmetadata hspec hstatus
      split at h
      · rename_i uid name phase node labels huid hname hphase hnode hlabels
        cases h
        obtain ⟨metadata, rfl, hgetMetadata⟩ := hdict hmetadata
        obtain ⟨spec, rfl, hgetSpec⟩ := hdict hspec
        obtain ⟨status, rfl, hgetStatus⟩ := hdict hstatus
        obtain ⟨labels, rfl, hgetLabels⟩ := hdict hlabels
        obtain ⟨found, hfound, htext⟩ := Option.bind_eq_some_iff.mp hphase
        cases found <;> cases htext
        exact ⟨metadata, spec, status, labels, hgetMetadata, hgetSpec, hgetStatus, hfound, hgetLabels, rfl,
          hnode, rfl⟩
      · cases h
    · cases h

theorem remote_of_nodeName {spec : List (String × Json)} {node : String}
    (h : nodeName (.obj spec) = some node) :
    memberOf ((Json.obj spec).get "nodeName") remoteNodes = .ok (remoteNodes.contains node) := by
  unfold nodeName at h
  split at h
  · rename_i j hj
    cases j <;> cases h
    rw [hj]
    rfl
  · rename_i hnone
    cases h
    rw [hnone]
    rfl

theorem drainedPod_eq {pod : Pod} (h : readPod item = .ok pod) :
    drainedPod item = .ok (!(isJob pod && !isMaintenance pod) || isClear pod) := by
  obtain ⟨metadata, spec, status, labels, hmetadata, hspec, hstatus, hphase, hlabels, hpod, hnode,
    hterminating⟩ := readPod_ok h
  have hremote := remote_of_nodeName hnode
  have hactive : ["Running", "Pending"].contains pod.phase = isActive pod.phase := by
    simp [isActive, beq_eq_decide]
  unfold drainedPod isJob isMaintenance isClear
  rw [hpod, hterminating]
  simp only [subscript, hmetadata, hstatus, hspec, hphase, hlabels, getItem, Json.isDict, if_true,
    memberOf, bind, Except.bind, hactive]
  by_cases hjob : ((Json.obj labels).holds jobLabel "true" &&
      !(Json.obj labels).holds maintenanceLabel "true") = true
  · rw [if_pos hjob, hjob]
    by_cases hdeleted : (Json.obj metadata).has "deletionTimestamp" = true
    · rw [if_pos hdeleted, hdeleted]
      rfl
    · rw [if_neg hdeleted, Bool.eq_false_iff.mpr hdeleted]
      cases hlive : livePhases.contains pod.phase with
      | false => rfl
      | true =>
        cases isActive pod.phase with
        | false => rfl
        | true =>
          change memberOf _ remoteNodes = _
          rw [hremote]
          cases remoteNodes.contains pod.node <;> rfl
  · rw [if_neg hjob, Bool.eq_false_iff.mpr hjob]
    rfl

theorem ciDrained_eq {items : List Json} {pods : List Pod} (h : Reads items pods) :
    ciDrained items =
      .ok (pods.all fun pod => !(isJob pod && !isMaintenance pod) || isClear pod) := by
  induction h with
  | nil => rfl
  | cons hread _ ih =>
    rw [ciDrained, drainedPod_eq hread, List.all_cons]
    simp only [bind, Except.bind]
    split
    · rename_i hclear
      rw [ih, hclear, Bool.true_and]
    · rename_i hbusy
      rw [Bool.eq_false_iff.mpr hbusy, Bool.false_and]

/-! ## Both -/

def OwnRunning (selfUid : String) (pod : Pod) : Prop :=
  pod.uid = selfUid ∧ selfConsistent pod = true ∧ pod.phase = "Running"

/-- A complete list of pods that can be told apart. -/
structure WellFormed (payload : Json) (items : List Json) (pods : List Pod) : Prop where
  lists : Lists payload items
  reads : Reads items pods
  named : ∀ pod ∈ pods, pod.uid ≠ "" ∧ pod.name ≠ ""
  distinct : (pods.map Pod.uid).Nodup

theorem drained_of_gate {payload : Json} {verdict : Bool} (h : podGate payload selfUid = .ok verdict) :
    ∃ items, (payload.get "items").bind Json.list? = some items ∧ ciDrained items = .ok true := by
  obtain ⟨items, pods, hlists, hreads, hall, -⟩ := podGate_ok_iff.mp h
  refine ⟨items, hlists.1, ?_⟩
  rw [ciDrained_eq hreads, Except.ok.injEq, List.all_eq_true]
  intro pod hpod
  by_cases hself : pod.uid = selfUid
  · have hown := (hall pod hpod).own hself
    simp only [selfConsistent, Bool.and_eq_true] at hown
    have hmaintenance : isMaintenance pod = true := hown.1.1.1.1
    rw [hmaintenance, Bool.not_true, Bool.and_false, Bool.not_false, Bool.true_or]
  · cases hjob : isJob pod with
    | false => rfl
    | true => rw [(hall pod hpod).clear hself hjob, Bool.or_true]

theorem gate_of_drained {payload : Json} {items : List Json} {pods : List Pod}
    (h : WellFormed payload items pods) (hown : ∃ own ∈ pods, OwnRunning selfUid own)
    (hothers : ∀ pod ∈ pods, pod.uid ≠ selfUid → isMaintenance pod = false)
    (hdrained : ciDrained items = .ok true) : podGate payload selfUid = .ok true := by
  obtain ⟨own, hmem, huid, hconsistent, hrunning⟩ := hown
  rw [ciDrained_eq h.reads, Except.ok.injEq, List.all_eq_true] at hdrained
  refine podGate_ok_iff.mpr ⟨items, pods, h.lists, h.reads, fun pod hpod => ?_, h.distinct, own, hmem,
    huid, by rw [hrunning]; rfl⟩
  refine ⟨(h.named pod hpod).1, (h.named pod hpod).2, fun hself => ?_, fun hother hjob => ?_⟩
  · rwa [List.inj_on_of_nodup_map h.distinct hpod hmem (hself.trans huid.symm)]
  · have hclear := hdrained pod hpod
    rwa [hjob, hothers pod hpod hother] at hclear

/-- The reason of a refusal apart. -/
inductive Verdict where
  | answer (verdict : Bool)
  | refusal
  | exception
  deriving DecidableEq

def verdictOf : Except Failure Bool → Verdict
  | .ok verdict => .answer verdict
  | .error (.refuse _) => .refusal
  | .error .exception => .exception

/-! ## Verdicts without their reasons -/

theorem readPod_refuses : readPod item ≠ .error .exception := by
  unfold readPod
  intro h
  repeat' split at h
  all_goals cases h

theorem gatePod_refuses : gatePod selfUid gate item ≠ .error .exception := by
  refine bind_refuses readPod_refuses fun pod => bind_refuses require_refuses fun _ => ?_
  simp only
  split
  · exact bind_refuses require_refuses fun _ => nofun
  · split
    · exact bind_refuses require_refuses fun _ => bind_refuses require_refuses fun _ => nofun
    · exact nofun

theorem gatePods_refuses {items : List Json} :
    items.foldlM (gatePod selfUid) gate ≠ .error .exception := by
  induction items generalizing gate with
  | nil => exact nofun
  | cons item items ih => exact bind_refuses gatePod_refuses fun _ => ih

theorem podGate_refuses {payload : Json} : podGate payload selfUid ≠ .error .exception := by
  unfold podGate
  split
  · exact nofun
  · split
    · exact nofun
    · split
      · exact nofun
      · exact bind_refuses gatePods_refuses fun _ => bind_refuses require_refuses fun _ => nofun

theorem verdictOf_eq {x y : Except Failure Bool} (hx : x ≠ .error .exception)
    (hy : y ≠ .error .exception) (h : ∀ b, x = .ok b ↔ y = .ok b) : verdictOf x = verdictOf y := by
  cases x with
  | ok b => rw [(h b).mp rfl]
  | error e =>
    cases y with
    | ok b => cases (h b).mpr rfl
    | error e' =>
      cases e with
      | exception => exact absurd rfl hx
      | refuse reason =>
        cases e' with
        | exception => exact absurd rfl hy
        | refuse reason' => rfl

theorem reads_perm {items items' : List Json} {pods : List Pod} (h : Reads items pods)
    (hperm : items.Perm items') : ∃ pods', pods.Perm pods' ∧ Reads items' pods' := by
  have hcomp : Relation.Comp List.Perm (List.Forall₂ fun item pod => readPod item = .ok pod)
      items' pods := ⟨items, hperm.symm, h⟩
  rw [← List.forall₂_comp_perm_eq_perm_comp_forall₂] at hcomp
  obtain ⟨pods', hreads, hpods⟩ := hcomp
  exact ⟨pods', hpods.symm, hreads⟩

theorem podGate_perm {payload payload' : Json} {items items' : List Json}
    (hlists : Lists payload items) (hlists' : Lists payload' items') (hperm : items.Perm items')
    {verdict : Bool} (h : podGate payload selfUid = .ok verdict) :
    podGate payload' selfUid = .ok verdict := by
  obtain ⟨items₀, pods, ⟨hitems, -⟩, hreads, hall, hnodup, own, hown, huid, rfl⟩ := podGate_ok_iff.mp h
  cases hlists.1.symm.trans hitems
  obtain ⟨pods', hpods, hreads'⟩ := reads_perm hreads hperm
  exact podGate_ok_iff.mpr ⟨items', pods', hlists', hreads',
    fun pod hpod => hall pod (hpods.mem_iff.mpr hpod), (hpods.map Pod.uid).nodup_iff.mp hnodup, own,
    hpods.mem_iff.mp hown, huid, rfl⟩

theorem ciDrained_perm {items items' : List Json} {pods : List Pod} (h : Reads items pods)
    (hperm : items.Perm items') : ciDrained items' = ciDrained items := by
  obtain ⟨pods', hpods, hreads'⟩ := reads_perm h hperm
  rw [ciDrained_eq h, ciDrained_eq hreads', hpods.all_eq]

/-- The checks draw the same line, and neither depends on the order of the list. -/
theorem pod_checks_agree (selfUid : String) :
    (∀ payload verdict, podGate payload selfUid = .ok verdict →
      ∃ items, (payload.get "items").bind Json.list? = some items ∧ ciDrained items = .ok true) ∧
    (∀ payload items pods, WellFormed payload items pods → (∃ own ∈ pods, OwnRunning selfUid own) →
      (∀ pod ∈ pods, pod.uid ≠ selfUid → isMaintenance pod = false) →
      ciDrained items = .ok true → podGate payload selfUid = .ok true) ∧
    ∀ payload payload' items items' pods, Lists payload items → Lists payload' items' →
      Reads items pods → items.Perm items' →
      verdictOf (podGate payload selfUid) = verdictOf (podGate payload' selfUid) ∧
        verdictOf (ciDrained items) = verdictOf (ciDrained items') := by
  refine ⟨fun _ _ => drained_of_gate, fun _ _ _ => gate_of_drained, ?_⟩
  intro payload payload' items items' pods hlists hlists' hreads hperm
  refine ⟨verdictOf_eq podGate_refuses podGate_refuses fun verdict => ?_, ?_⟩
  · exact ⟨podGate_perm hlists hlists' hperm, podGate_perm hlists' hlists hperm.symm⟩
  · rw [ciDrained_perm hreads hperm]

namespace Sample

def pod (uid phase node : String) (labels : List (String × Json)) : Json :=
  .obj [("metadata", .obj [("uid", .str uid), ("name", .str uid), ("labels", .obj labels)]),
    ("spec", .obj [("nodeName", .str node)]), ("status", .obj [("phase", .str phase)])]

def own : Json := pod "own" "Running" "hestia"
  [(jobLabel, .str "true"), (maintenanceLabel, .str "true")]

def job : Json := pod "job" "Running" "nyx" [(jobLabel, .str "true")]

def payload (items : List Json) : Json := .obj [("items", .arr items), ("metadata", .obj [])]

def pods : List Pod :=
  [⟨"own", "own", "Running", "hestia",
      .obj [(jobLabel, .str "true"), (maintenanceLabel, .str "true")], false⟩,
    ⟨"job", "job", "Running", "nyx", .obj [(jobLabel, .str "true")], false⟩]

end Sample

/-- The worker and a job on another node. -/
theorem pod_checks_agree_remote :
    podGate (Sample.payload [Sample.own, Sample.job]) "own" = .ok true ∧
      ciDrained [Sample.own, Sample.job] = .ok true ∧
      verdictOf (podGate (Sample.payload [Sample.job, Sample.own]) "own") = .answer true := by
  obtain ⟨hdrained, hgate, hperm⟩ := pod_checks_agree "own"
  have hlists : ∀ items, Lists (Sample.payload items) items := fun _ => ⟨rfl, .obj [], rfl, rfl⟩
  have hreads : Reads [Sample.own, Sample.job] Sample.pods := .cons rfl (.cons rfl .nil)
  have hwellFormed : WellFormed (Sample.payload [Sample.own, Sample.job])
      [Sample.own, Sample.job] Sample.pods :=
    ⟨hlists _, hreads, by decide, by decide⟩
  have hanswer := hgate _ _ _ hwellFormed ⟨_, List.mem_cons_self, rfl, rfl, rfl⟩ (by decide) rfl
  obtain ⟨items, hitems, hok⟩ := hdrained _ _ hanswer
  cases hitems
  refine ⟨hanswer, hok, ?_⟩
  rw [← (hperm _ _ _ _ _ (hlists _) (hlists [Sample.job, Sample.own]) hreads (.swap _ _ _)).1,
    hanswer]
  rfl

end ClusterState.Maintenance
