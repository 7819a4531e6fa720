import ClusterState.Export.Written

/-! # No resource is lost

The files of a component hold all of its resources exactly if no two of them have the same
pieces between the hyphens of their names.
-/

namespace ClusterState.Export

/-! ## All resources -/

section Complete

variable {lower : String → String} {postprocess rules : Option String} {resources : List Json}
  {keys : List Key} {dir dir' : Directory} {resource : Json} {key : Key}

theorem exists_filenameFor
    (hnames : resources.map (filenameFor lower) = (keys.map (fileName lower)).map some)
    (hresource : resource ∈ resources) :
    ∃ name, filenameFor lower resource = some name ∧ name ∈ keys.map (fileName lower) := by
  have hmem : filenameFor lower resource ∈ (keys.map (fileName lower)).map some := by
    rw [← hnames]
    exact List.mem_map_of_mem hresource
  obtain ⟨name, hname, heq⟩ := List.mem_map.mp hmem
  exact ⟨name, heq.symm, hname⟩

theorem fileName_eq_job : fileName lower key = jobFilename ↔
    parts lower key = ["job".toList, "default".toList, "gitlab".toList, "migrations".toList] :=
  @fileName_eq_ofList _ _ "job-default-gitlab-migrations".toList

theorem fileName_jobKey : fileName lower jobKey ≠ jobFilename := by
  rw [Ne, fileName_eq_job]
  intro h
  have hparts : parts lower jobKey = (lower "Job").toList.splitOn '-' ++
      ["default".toList, "gitlab".toList, "migrations".toList, "placeholder".toList] := rfl
  rw [hparts] at h
  have hlast := congrArg List.getLast? h
  rw [List.getLast?_append] at hlast
  exact absurd (Option.some.inj hlast) (by decide)

theorem Written.complete (h : Written lower postprocess resources keys dir)
    (hkeys : List.Forall₂ (fun a b => resourceKey a = some b) resources keys)
    (hnames : resources.map (filenameFor lower) = (keys.map (fileName lower)).map some)
    (hnodup : (keys.map (fileName lower)).Nodup) : Complete lower postprocess resources dir where
  distinct := by
    rw [hnames]
    exact hnodup.map (Option.some_injective _)
  reserved := by
    rw [hnames]
    intro hmem
    obtain ⟨name, hname, heq⟩ := List.mem_map.mp hmem
    obtain ⟨key, -, rfl⟩ := List.mem_map.mp hname
    exact fileName_ne_kustomization (Option.some.inj heq)
  stored resource hresource := by
    obtain ⟨name, hname, hmem⟩ := exists_filenameFor hnames hresource
    obtain ⟨key, hkey, hof⟩ := exists_of_forall₂ hkeys hresource
    have hfile := filenameFor_eq hname hof
    refine ⟨name, hname, h.stored hnodup resource hresource name hname, ?_, ?_⟩
    · rintro other ⟨json, hmanifest, hjson⟩
      obtain ⟨key', -, hother, rfl⟩ := h.named other json hmanifest
      rw [hother, hof] at hjson
      rw [Option.some.inj hjson, hfile]
    · obtain ⟨listing, hfound, hperm⟩ := h.listed
      refine ⟨listing, hfound, ?_⟩
      rw [hperm.count_eq]
      exact List.count_eq_one_of_mem hnodup hmem

theorem Written.complete_gitlab (h : Written lower none resources keys dir)
    (hkeys : List.Forall₂ (fun a b => resourceKey a = some b) resources keys)
    (hnames : resources.map (filenameFor lower) = (keys.map (fileName lower)).map some)
    (hwrite : writeGitlabFiles resources dir = some dir')
    (hnodup : (keys.map (fileName lower)).Nodup)
    (hjob : ∀ key ∈ keys, key ≠ jobKey ∧
      parts lower key ≠ ["job".toList, "default".toList, "gitlab".toList, "migrations".toList]) :
    Complete lower (some "gitlab") resources dir' := by
  obtain ⟨hmanifest, listing, hlisting, hlisting'⟩ := writeGitlabFiles_spec h hwrite
  have hcomplete := h.complete hkeys hnames hnodup
  refine ⟨hcomplete.distinct, hcomplete.reserved, fun resource hresource => ?_⟩
  obtain ⟨name, hname, hholds, hof, listing₀, hlisting₀, hcount⟩ := hcomplete.stored resource hresource
  cases hlisting.symm.trans hlisting₀
  obtain ⟨key, hkey, hresourceKey⟩ := exists_of_forall₂ hkeys hresource
  obtain ⟨hjobKey, hparts⟩ := hjob key hkey
  have hne : name ≠ jobFilename := by
    rw [filenameFor_eq hname hresourceKey]
    exact fun heq => hparts (fileName_eq_job.mp heq)
  refine ⟨name, hname, ?_, ?_, _, hlisting', ?_⟩
  · refine ⟨resource, ?_, .inl rfl⟩
    rw [hmanifest, if_neg hne, holds_none.mp hholds]
  · rintro other ⟨json, hjson, hsame⟩
    rw [hmanifest] at hjson
    split at hjson
    · cases hjson
      exact absurd (Option.some.inj (hresourceKey.symm.trans hsame.symm)) hjobKey
    · exact hof other ⟨json, hjson, hsame⟩
  · split
    · exact hcount
    · rw [List.count_append, List.count_singleton, if_neg (by simpa using hne.symm), add_zero, hcount]

theorem Written.job_of_complete (h : Written lower none resources keys dir)
    (hkeys : List.Forall₂ (fun a b => resourceKey a = some b) resources keys)
    (hwrite : writeGitlabFiles resources dir = some dir')
    (hcomplete : Complete lower (some "gitlab") resources dir')
    (hkey : key ∈ keys) : key ≠ jobKey ∧
      parts lower key ≠ ["job".toList, "default".toList, "gitlab".toList, "migrations".toList] := by
  obtain ⟨hmanifest, -⟩ := writeGitlabFiles_spec h hwrite
  obtain ⟨resource, hmem, hof⟩ := exists_of_forall₂ hkeys.flip hkey
  obtain ⟨name, hname, ⟨json, hjson, heq⟩, hsole, -⟩ := hcomplete.stored resource hmem
  obtain rfl : json = resource := heq.resolve_right fun hgrafana => absurd hgrafana.1 (by decide)
  have hfile := filenameFor_eq hname hof
  have hne : key ≠ jobKey := by
    rintro rfl
    have hjob : IsOf dir' jobFilename json := ⟨job, by rw [hmanifest, if_pos rfl], hof.symm⟩
    exact fileName_jobKey (hfile.symm.trans (hsole jobFilename hjob).symm)
  refine ⟨hne, fun hparts => hne ?_⟩
  rw [hmanifest, if_pos (hfile.trans (fileName_eq_job.mpr hparts))] at hjson
  cases hjson
  exact Option.some.inj (hof.symm.trans rfl)

end Complete

/-- A component is complete exactly if the pieces of its resources differ, and the Job that is
added to GitLab's takes the place of none. -/
theorem export_complete_iff (lower : String → String) (postprocess rules : Option String)
    (resources : List Json) (keys : List Key) (dir : Directory)
    (hkeys : resources.mapM resourceKey = some keys)
    (hwrite : writeComponent lower postprocess rules resources = some dir) :
    Complete lower postprocess resources dir ↔ Separable lower postprocess keys := by
  unfold writeComponent at hwrite
  obtain ⟨files, hfiles, hpost⟩ := Option.bind_eq_some_iff.mp hwrite
  obtain ⟨hwritten, hnames⟩ := writeFiles_written hkeys hfiles
  have hforall := forall₂_of_mapM hkeys
  have hnodup : Complete lower postprocess resources dir → (keys.map (fileName lower)).Nodup := by
    intro h
    have hdistinct := h.distinct
    rw [hnames] at hdistinct
    exact hdistinct.of_map some
  by_cases hgitlab : postprocess = some "gitlab"
  · subst hgitlab
    rw [if_neg (by decide), if_pos rfl] at hpost
    constructor
    · intro h
      exact ⟨nodup_fileName_iff.mp (hnodup h), fun _ key hkey =>
        hwritten.job_of_complete hforall hpost h hkey⟩
    · intro h
      exact hwritten.complete_gitlab hforall hnames hpost (nodup_fileName_iff.mpr h.pieces) (h.job rfl)
  · have hplain : Written lower postprocess resources keys dir := by
      split at hpost
      · rename_i hgrafana
        subst hgrafana
        exact writeGrafanaFiles_written hwritten hpost
      · cases hpost
        exact hwritten.of_none postprocess
    constructor
    · intro h
      exact ⟨nodup_fileName_iff.mp (hnodup h), fun hgit => absurd hgit hgitlab⟩
    · intro h
      exact hplain.complete hforall hnames (nodup_fileName_iff.mpr h.pieces)

/-! ## What is fetched -/

section Fetch

variable {resources : List Json} {keys : List Key}

/-- The resources have keys, none of them twice. -/
def Keyed (resources : List Json) : Prop :=
  ∃ keys, List.Forall₂ (fun a b => resourceKey a = some b) resources keys ∧ keys.Nodup

def Seen (collected : List Key × List Json) : Prop :=
  ∃ keys, List.Forall₂ (fun a b => resourceKey a = some b) collected.2 keys ∧ keys.Nodup ∧
    ∀ key, key ∈ collected.1 ↔ key ∈ keys

theorem seen_addResource {collected collected' : List Key × List Json} {resource : Json}
    (h : Seen collected) (hadd : addResource collected resource = some collected') : Seen collected' := by
  unfold addResource at hadd
  simp only [Option.bind_eq_bind, Option.bind_eq_some_iff] at hadd
  obtain ⟨stripped, -, key, hkey, hadd⟩ := hadd
  split at hadd
  · cases hadd
    exact h
  · rename_i hnew
    cases hadd
    obtain ⟨keys, hforall, hnodup, hmem⟩ := h
    refine ⟨keys ++ [key], List.rel_append hforall (.cons hkey .nil), ?_, fun other => ?_⟩
    · rw [List.nodup_append']
      refine ⟨hnodup, List.nodup_singleton key, ?_⟩
      rw [List.disjoint_singleton]
      exact fun hold => hnew ((hmem key).mpr hold)
    · rw [List.mem_cons, List.mem_append, List.mem_singleton, hmem, or_comm]

theorem seen_foldlM {collected collected' : List Key × List Json} (h : Seen collected)
    (hfold : resources.foldlM addResource collected = some collected') : Seen collected' := by
  induction resources generalizing collected with
  | nil =>
    cases hfold
    exact h
  | cons resource resources ih =>
    rw [List.foldlM_cons] at hfold
    obtain ⟨next, hnext, hrest⟩ := Option.bind_eq_some_iff.mp hfold
    exact ih (seen_addResource h hnext) hrest

theorem keyed_filter (h : Keyed resources) (p : Json → Bool) : Keyed (resources.filter p) := by
  obtain ⟨keys, hforall, hnodup⟩ := h
  suffices ∃ keys', List.Forall₂ (fun a b => resourceKey a = some b) (resources.filter p) keys' ∧
      keys'.Sublist keys from this.imp fun _ h => ⟨h.1, hnodup.sublist h.2⟩
  clear hnodup
  induction hforall with
  | nil => exact ⟨[], .nil, .slnil⟩
  | @cons resource key resources keys hkey _ ih =>
    obtain ⟨keys', hforall', hsublist⟩ := ih
    rw [List.filter_cons]
    split
    · exact ⟨key :: keys', .cons hkey hforall', hsublist.cons_cons key⟩
    · exact ⟨keys', hforall', hsublist.cons key⟩

/-- No key is fetched twice. -/
theorem fetchComponentResources_keyed {answers : List (List Json)} {postprocess : Option String}
    (h : fetchComponentResources answers postprocess = some resources) : Keyed resources := by
  unfold fetchComponentResources at h
  obtain ⟨collected, hcollected, h⟩ := Option.bind_eq_some_iff.mp h
  obtain ⟨keys, hforall, hnodup, -⟩ := seen_foldlM ⟨[], .nil, .nil, fun _ => .rfl⟩ hcollected
  split at h
  · cases h
    exact ⟨keys, hforall, hnodup⟩
  · split at h
    · cases h
      exact keyed_filter ⟨keys, hforall, hnodup⟩ _
    · cases h

end Fetch

/-! ## Cluster roles -/

namespace Sample

def asciiLower (s : String) : String := .ofList (s.toList.map Char.toLower)

def clusterRole (name : String) : Json := .obj [
  ("apiVersion", .str "rbac.authorization.k8s.io/v1"), ("kind", .str "ClusterRole"),
  ("metadata", .obj [("name", .str name), ("uid", .str "5f0c")]), ("rules", .arr [])]

def roleKey (name : String) : Key := ⟨"rbac.authorization.k8s.io/v1", "ClusterRole", "", name⟩

def fetched (name name' : String) : Option (List Json) :=
  fetchComponentResources [[clusterRole name, clusterRole name']] none

theorem isSome_fetched : (fetched "cert-manager:edit" "cert-manager-edit").isSome = true := by
  decide

theorem isSome_distinct : (fetched "cert-manager:edit" "cert-manager:view").isSome = true := by
  decide

theorem isSome_written : (writeComponent asciiLower none none
    ((fetched "cert-manager:edit" "cert-manager-edit").get isSome_fetched)).isSome = true := by
  decide

theorem isSome_writtenDistinct : (writeComponent asciiLower none none
    ((fetched "cert-manager:edit" "cert-manager:view").get isSome_distinct)).isSome = true := by
  decide

end Sample

theorem cluster_roles_complete : Complete Sample.asciiLower none
    ((Sample.fetched "cert-manager:edit" "cert-manager:view").get Sample.isSome_distinct)
    ((writeComponent Sample.asciiLower none none _).get Sample.isSome_writtenDistinct) :=
  (export_complete_iff Sample.asciiLower none none _
    [Sample.roleKey "cert-manager:edit", Sample.roleKey "cert-manager:view"] _ (by decide +kernel)
    (Option.some_get _).symm).mpr ⟨by decide, nofun⟩

theorem cluster_role_is_lost : ¬ ∀ (answers : List (List Json)) (postprocess rules : Option String)
    (resources : List Json) (dir : Directory),
    fetchComponentResources answers postprocess = some resources →
    writeComponent Sample.asciiLower postprocess rules resources = some dir →
    Complete Sample.asciiLower postprocess resources dir := by
  intro h
  have hcomplete := h _ none none _ _ (Option.some_get Sample.isSome_fetched).symm
    (Option.some_get Sample.isSome_written).symm
  have hdistinct := hcomplete.distinct
  revert hdistinct
  decide +kernel

end ClusterState.Export
