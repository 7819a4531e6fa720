import ClusterState.NodeServer.MountOrder

/-! # Whose ownership is stamped

The directory that is mounted is chosen from the volume ID and the context, the one whose
ownership is stamped from the volume ID alone.
-/

namespace ClusterState.NodeServer

open ClusterState.Data

def trimRightSlashes (p : String) : String := String.ofList (SlashPath.trimRight p.toList)

def splitVolumeIDForFiler (volumeID : String) : String × String :=
  if pathIsAbs volumeID = false then ("/buckets", volumeID)
  else
    let clean := trimRightSlashes volumeID
    let parent := pathDir clean
    (if parent = "" then "/" else parent, pathBase clean)

def stampedPath (volumeID : String) : String :=
  (splitVolumeIDForFiler volumeID).1 ++ "/" ++ (splitVolumeIDForFiler volumeID).2

/-- The directory that a volume ID stands for. One of slashes only is taken for the current
directory. -/
def volumeDirectory (volumeID : String) : String :=
  if pathIsAbs volumeID then if trimRightSlashes volumeID = "" then "." else pathClean volumeID
  else pathClean ("/buckets/" ++ volumeID)

def Mounter.NamesVolume (m : Mounter) : Prop :=
  if m.volContext.get "filer.path" ≠ "" then
    pathClean (m.volContext.get "filer.path") = volumeDirectory m.volumeID
  else if pathIsAbs m.volumeID then trimRightSlashes m.volumeID ≠ ""
  else m.volContext.get "path" = "" ∨
    pathClean (m.volContext.get "path") = volumeDirectory m.volumeID

/-! ## Paths as strings -/

section Paths

variable {volumeID p : String}

theorem toList_eq_nil : p.toList = [] ↔ p = "" := by
  rw [← String.toList_inj]
  rfl

theorem clean_ne_nil (cs : List Char) : SlashPath.clean cs ≠ [] := by
  unfold SlashPath.clean
  dsimp only
  split
  · exact List.cons_ne_nil _ _
  · split
    · exact List.cons_ne_nil _ _
    · assumption

theorem pathDir_ne : pathDir p ≠ "" := by
  rw [Ne, ← toList_eq_nil, pathDir, String.toList_ofList]
  exact clean_ne_nil _

theorem pathClean_eq {p q : String} (h : SlashPath.clean p.toList = SlashPath.clean q.toList) :
    pathClean p = pathClean q := by
  rw [pathClean, pathClean, h]

/-- The path that is stamped is the directory of the volume. -/
theorem pathClean_stampedPath : pathClean (stampedPath volumeID) = volumeDirectory volumeID := by
  rw [stampedPath, splitVolumeIDForFiler, volumeDirectory]
  by_cases habs : pathIsAbs volumeID = true
  · rw [habs, if_neg (Ne.symm Bool.false_ne_true), if_pos rfl]
    dsimp only
    rw [if_neg pathDir_ne]
    by_cases hslashes : trimRightSlashes volumeID = ""
    · rw [if_pos hslashes, hslashes]
      decide
    · rw [if_neg hslashes]
      have hne : SlashPath.trimRight volumeID.toList ≠ [] := by
        intro h
        rw [trimRightSlashes, h] at hslashes
        exact hslashes rfl
      have hslash : "/".toList = ['/'] := by decide
      apply pathClean_eq
      rw [String.toList_append, String.toList_append, hslash, pathDir, pathBase, trimRightSlashes,
        String.toList_ofList, String.toList_ofList, String.toList_ofList, List.append_assoc,
        List.singleton_append]
      exact SlashPath.clean_dir_base habs hne
  · rw [Bool.not_eq_true] at habs
    rw [habs, if_pos rfl, if_neg Bool.false_ne_true]
    have hfront : "/buckets" ++ "/" = "/buckets/" := by decide
    exact congrArg (fun front => pathClean (front ++ volumeID)) hfront

theorem toList_buckets : ("/buckets/" ++ volumeID).toList = "/buckets".toList ++ '/' :: volumeID.toList := by
  rw [String.toList_append]
  have hliteral : "/buckets/".toList = "/buckets".toList ++ ['/'] := by decide
  rw [hliteral, List.append_assoc]
  rfl

theorem pathJoin_buckets : pathJoin "/buckets" volumeID = pathClean ("/buckets/" ++ volumeID) := by
  have hne : "/buckets".toList ≠ [] := by decide
  rw [pathJoin, SlashPath.join₂, if_neg hne, pathClean, toList_buckets]

theorem pathClean_pathJoin : pathClean (pathJoin "/buckets" volumeID) =
    pathClean ("/buckets/" ++ volumeID) := by
  rw [pathJoin_buckets]
  apply pathClean_eq
  rw [pathClean, String.toList_ofList]
  apply SlashPath.clean_clean
  rw [toList_buckets]
  exact SlashPath.isAbs_append (by decide)

theorem pathClean_of_slashes (habs : pathIsAbs p = true) : pathClean p ≠ "." := by
  intro h
  have htext := congrArg String.toList h
  rw [pathClean, String.toList_ofList, SlashPath.clean_of_isAbs habs] at htext
  exact absurd (List.cons.inj htext).1 (by decide)

end Paths

/-! ## The path that is mounted -/

section Mounting

variable {m : Mounter} {site : MountSite} {context options : Range} {opts : Options}

theorem filterMap_writes_path : ∀ v ∈ m.volContext.pairs.filterMap (writes "filer.path"),
    v = m.volContext.get "filer.path" ∧ v ≠ "" := by
  have hplain : ∀ names ∈ parameterArgMap, names.1 ≠ "filer.path" ∧ names.2 ≠ "filer.path" := by
    decide
  have hkey : argKey "filer.path" = "filer.path" := by decide
  intro v hv
  obtain ⟨⟨key, value⟩, hmem, hwrites⟩ := List.mem_filterMap.mp hv
  obtain ⟨-, hname, hvalue, rfl⟩ := writes_eq_some_iff.mp hwrites
  rcases argKey_eq (hname.trans hkey.symm) with rfl | halias | halias
  · exact ⟨(get_of_mem hmem).symm, hvalue⟩
  · exact absurd rfl (hplain _ halias).2
  · exact absurd rfl (hplain _ halias).1

theorem lookup_path_defaults {argsMap : Options} {filers : List String}
    (h : m.defaults filers = .ok argsMap) : argsMap.lookup "filer.path" = some m.filerPath := by
  have hplain : (m.argsMap filers).lookup "filer.path" = some m.filerPath := rfl
  unfold Mounter.defaults at h
  cases hlocality : m.dataLocality with
  | error err =>
    rw [hlocality] at h
    cases h
  | ok dataLocality =>
    rw [hlocality] at h
    change (checkDataLocality dataLocality m.driver.dataCenter >>= _) = _ at h
    cases hcheck : checkDataLocality dataLocality m.driver.dataCenter with
    | error err =>
      rw [hcheck] at h
      cases h
    | ok _ =>
      rw [hcheck] at h
      cases dataLocality with
      | none =>
        cases h
        exact hplain
      | writePreferLocalDc =>
        cases h
        rw [lookup_set_of_ne (by decide)]
        exact hplain

theorem lookup_path (hopts : m.options site.filers context = .ok opts) :
    opts.lookup "filer.path" = some (if m.volContext.get "filer.path" ≠ "" then
      m.volContext.get "filer.path" else m.filerPath) := by
  cases hdefaults : m.defaults site.filers with
  | error err =>
    rw [Mounter.options, hdefaults] at hopts
    cases hopts
  | ok argsMap =>
    rw [lookup_options hdefaults hopts (by decide), lookup_path_defaults hdefaults]
    have hperm := (context.perm m.volContext.pairs).filterMap (writes "filer.path")
    cases hlast : ((context.visit m.volContext.pairs).filterMap (writes "filer.path")).getLast? with
    | some v =>
      obtain ⟨rfl, hv⟩ := filterMap_writes_path v (hperm.mem_iff.mp (List.mem_of_getLast? hlast))
      rw [Option.some_or, if_pos hv]
    | none =>
      rw [List.getLast?_eq_none_iff] at hlast
      rw [Option.none_or, if_neg]
      rw [not_not]
      by_contra hne
      have hkept : ignoredArgs.contains "filer.path" = false := by decide
      have hkey : argKey "filer.path" = "filer.path" := by decide
      have hwrites : writes "filer.path" ("filer.path", m.volContext.get "filer.path") =
          some (m.volContext.get "filer.path") := writes_eq_some hkept hkey hne
      have hmem := hperm.mem_iff.mpr
        (List.mem_filterMap.mpr ⟨_, mem_pairs_of_get hne, hwrites⟩)
      rw [hlast] at hmem
      cases hmem

theorem filerPath_ne (m : Mounter) : m.filerPath ≠ "" := by
  unfold Mounter.filerPath
  split
  · rename_i habs
    intro h
    rw [h] at habs
    cases habs
  · split
    · rw [Ne, ← toList_eq_nil, pathJoin_buckets, pathClean, String.toList_ofList]
      exact clean_ne_nil _
    · assumption

theorem pathClean_filerPath (hpath : m.volContext.get "filer.path" = "") :
    pathClean m.filerPath = volumeDirectory m.volumeID ↔ m.NamesVolume := by
  rw [Mounter.NamesVolume, if_neg (not_not.mpr hpath), Mounter.filerPath, volumeDirectory]
  by_cases habs : pathIsAbs m.volumeID = true
  · rw [if_pos habs, if_pos habs, if_pos habs]
    by_cases hslashes : trimRightSlashes m.volumeID = ""
    · rw [if_pos hslashes]
      exact iff_of_false (pathClean_of_slashes habs) (not_not.mpr hslashes)
    · rw [if_neg hslashes]
      exact iff_of_true rfl hslashes
  · rw [if_neg habs, if_neg habs, if_neg habs]
    by_cases hcontext : m.volContext.get "path" = ""
    · rw [if_pos hcontext]
      exact iff_of_true pathClean_pathJoin (.inl hcontext)
    · rw [if_neg hcontext]
      exact (or_iff_right hcontext).symm

end Mounting

/-- The directory that is mounted is the one whose ownership is stamped just when the context
names no other directory than the volume ID. -/
theorem ownership_stamped_on_mounted_path_iff (m : Mounter) (site : MountSite)
    (context options : Range) (args : List String) (hargs : buildMountArgs m site context options = .ok args) :
    ∃ path, (∀ value, argument ("filer.path", value) ∈ args ↔ value = path) ∧
      (pathClean path = pathClean (stampedPath m.volumeID) ↔ m.NamesVolume) := by
  cases hopts : m.options site.filers context with
  | error err =>
    rw [buildMountArgs, hopts] at hargs
    cases hargs
  | ok opts =>
    refine ⟨if m.volContext.get "filer.path" ≠ "" then m.volContext.get "filer.path"
      else m.filerPath, fun value => ?_, ?_⟩
    · rw [argument_mem_iff hopts hargs (by decide), lookup_path hopts, Option.some_inj]
      constructor
      · exact fun h => h.2.symm
      · rintro rfl
        refine ⟨?_, rfl⟩
        split
        · assumption
        · exact filerPath_ne m
    · rw [pathClean_stampedPath]
      by_cases hpath : m.volContext.get "filer.path" = ""
      · rw [if_neg (not_not.mpr hpath)]
        exact pathClean_filerPath hpath
      · rw [if_pos hpath, Mounter.NamesVolume, if_pos hpath]

/-! ## A static volume -/

/-- A volume that is provisioned with a path of its own. -/
def staticMounter : Mounter :=
  ⟨plainDriver, "static-pv", false, (∅ : VolumeContext).insert "path" "/data/pv"⟩

def plainSite : MountSite := ⟨"/staging", "/cache", "/socket", ["filer:8888"]⟩

def staticArgs : List String :=
  staticMounter.fixedArgs plainSite ++ ((staticMounter.argsMap plainSite.filers).filter fun option =>
    option.2 ≠ "").map argument

theorem build_staticArgs : buildMountArgs staticMounter plainSite .forward .forward = .ok staticArgs := by
  have hignored : overwrite (staticMounter.argsMap plainSite.filers) ("path", "/data/pv") =
      staticMounter.argsMap plainSite.filers := by rfl
  have hdefaults : staticMounter.defaults plainSite.filers = .ok (staticMounter.argsMap plainSite.filers) :=
    rfl
  rw [buildMountArgs, options_of_defaults hdefaults]
  rfl

theorem static_ownership_path : ∃ path,
    (∀ value, argument ("filer.path", value) ∈ staticArgs ↔ value = path) ∧
      (pathClean path = pathClean (stampedPath staticMounter.volumeID) ↔ staticMounter.NamesVolume) :=
  ownership_stamped_on_mounted_path_iff staticMounter plainSite .forward .forward staticArgs build_staticArgs

theorem static_volume_stamps_elsewhere : ¬∀ (m : Mounter) (site : MountSite) (context options : Range)
    (args : List String), buildMountArgs m site context options = .ok args →
    ∀ path, argument ("filer.path", path) ∈ args →
      pathClean path = pathClean (stampedPath m.volumeID) := by
  intro h
  have hmem : argument ("filer.path", "/data/pv") ∈ staticArgs := by decide
  have hsame := h _ _ _ _ _ build_staticArgs "/data/pv" hmem
  exact absurd hsame (by decide)

end ClusterState.NodeServer
