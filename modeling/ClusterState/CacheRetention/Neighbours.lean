import ClusterState.CacheRetention.Removal

/-! # Candidates side by side

The removal of one candidate shows in another where they share files, but only in the
`ctime` of these. The digest leaves that of a regular file out, so that the other candidate
looks as before unless they share a symbolic link.
-/

namespace ClusterState.CacheRetention

open ClusterState.Data.PythonText Concurrency

/-! ## What a scan does not see -/

/-- The same but for the `ctime` of a regular file. -/
structure Metadata.Alike (st st' : Metadata) : Prop where
  eq : st' = { st with ctime := st'.ctime }
  ctime : st.isRegular = true ∨ st'.ctime = st.ctime

namespace Metadata.Alike

variable {st st' : Metadata} {limits : Limits} {b : Bool} {py : Python} {relative : List Name}
  {tally : Tally}

theorem refl (st : Metadata) : st.Alike st := ⟨rfl, .inr rfl⟩

theorem trans {st'' : Metadata} (h : st.Alike st') (h' : st'.Alike st'') : st.Alike st'' where
  eq := by
    rw [h'.eq, h.eq]
  ctime := by
    rcases h.ctime with hregular | hctime
    · exact .inl hregular
    · rcases h'.ctime with hregular | hctime'
      · rw [h.eq] at hregular
        exact .inl hregular
      · exact .inr (hctime'.trans hctime)

theorem checkEntry (h : st.Alike st') :
    checkEntry limits b st' = CacheRetention.checkEntry limits b st := by
  rw [h.eq]
  rfl

theorem note (h : st.Alike st') : tally.note py relative st' = tally.note py relative st := by
  rcases h.ctime with hregular | hctime
  · rw [h.eq]
    have hregular' : ({ st with ctime := st'.ctime } : Metadata).isRegular = true := hregular
    simp only [Tally.note, record, hregular, hregular']
    rfl
  · rw [h.eq, hctime]

theorem directory (h : st.Alike st') : tally.directory py st' = tally.directory py st := by
  rw [h.eq]
  rfl

theorem leaf (h : st.Alike st') : tally.leaf py st' = tally.leaf py st := by
  have hage : leafAge py st' = leafAge py st := by
    rcases h.ctime with hregular | hctime
    · have hformat : st.format = 0o100000 := beq_iff_eq.mp hregular
      have hlink : st.isSymlink = false := by
        rw [Attributes.isSymlink, hformat]
        rfl
      have hlink' : ({ st with ctime := st'.ctime } : Metadata).isSymlink = false := hlink
      rw [h.eq]
      simp only [leafAge, hlink, hlink', Bool.false_eq_true, if_false]
    · rw [h.eq, hctime]
  rw [Tally.leaf, Tally.leaf, hage]

end Metadata.Alike

section Scans

variable {py : Python} {limits : Limits} {fs fs' : FileSystem} {f : Forest} {c : Candidate}

def Alike (fs fs' : FileSystem) (i : Identity) : Prop := (fs.stat i).Alike (fs'.stat i)

theorem Forest.scan_congr (h : f.All (Alike fs fs')) (relative : List Name) (tally : Tally) :
    f.scan py limits fs' relative tally = f.scan py limits fs relative tally := by
  induction f generalizing relative tally with
  | nil => rfl
  | leaf name i rest ih =>
    obtain ⟨hdirs, hleaves⟩ := h
    obtain ⟨hi, hleaves⟩ := List.forall_mem_cons.mp hleaves
    have hi : (fs.stat i).Alike (fs'.stat i) := hi
    rw [Forest.scan, Forest.scan, hi.checkEntry, hi.note, hi.leaf]
    exact congrArg _ (funext fun _ => ih ⟨hdirs, hleaves⟩ _ _)
  | directory name i children rest ihc ih =>
    obtain ⟨hdirs, hleaves⟩ := h
    rw [Forest.directories, List.forall_mem_append, List.forall_mem_cons] at hdirs
    rw [Forest.leaves, List.forall_mem_append] at hleaves
    obtain ⟨⟨hi, hdirsc⟩, hdirs⟩ := hdirs
    have hi : (fs.stat i).Alike (fs'.stat i) := hi
    rw [Forest.scan, Forest.scan, hi.checkEntry, hi.note, hi.directory, ihc ⟨hdirsc, hleaves.1⟩]
    exact congrArg _ (funext fun _ => congrArg _ (funext fun _ => ih ⟨hdirs, hleaves.2⟩ _ _))

theorem Candidate.scan_congr (hi : Alike fs fs' c.identity) (h : c.content.All (Alike fs fs')) :
    c.scan py limits fs' = c.scan py limits fs := by
  have hi : (fs.stat c.identity).Alike (fs'.stat c.identity) := hi
  rw [Candidate.scan, Candidate.scan, hi.checkEntry, hi.note, hi.directory]
  exact congrArg _ (funext fun _ => Forest.scan_congr h _ _)

end Scans

/-! ## Apart -/

section Apart

variable {fs fs' : FileSystem} {f : Forest} {c c' : Candidate} {i : Identity}

theorem Forest.isDirectory_of_mem (h : fs.Shows f) (hi : i ∈ f.directories) :
    (fs.stat i).isDirectory = true := by
  induction f with
  | nil => cases hi
  | leaf name j rest ih => exact ih h.2 hi
  | directory name j children rest ihc ih =>
    obtain ⟨hdir, -, hchildren, hrest⟩ := h
    rw [directories, List.mem_append, List.mem_cons] at hi
    rcases hi with (rfl | hi) | hi
    · exact hdir
    · exact ihc hchildren hi
    · exact ih hrest hi

theorem Forest.not_isDirectory_of_mem (h : fs.Shows f) (hi : i ∈ f.leaves) :
    (fs.stat i).isDirectory = false := by
  induction f with
  | nil => cases hi
  | leaf name j rest ih =>
    rcases List.mem_cons.mp hi with rfl | hi
    · exact h.1
    · exact ih h.2 hi
  | directory name j children rest ihc ih =>
    obtain ⟨-, -, hchildren, hrest⟩ := h
    rw [leaves, List.mem_append] at hi
    rcases hi with hi | hi
    · exact ihc hchildren hi
    · exact ih hrest hi

theorem Candidate.isDirectory_of_mem (h : fs.Holds c) (hi : i ∈ c.node.directories) :
    (fs.stat i).isDirectory = true := by
  rcases List.mem_cons.mp hi with rfl | hi
  · exact h.directory
  · exact Forest.isDirectory_of_mem h.shows hi

/-- The candidates have no directory in common, and no name. -/
structure Candidate.Apart (c c' : Candidate) : Prop where
  directories : c.node.directories.Disjoint c'.node.directories
  parent : c.parent ∉ c'.node.directories
  parent' : c'.parent ∉ c.node.directories
  name : c.parent = c'.parent → c.target.name ≠ c'.target.name

theorem Candidate.Apart.symm (h : c.Apart c') : c'.Apart c where
  directories := h.directories.symm
  parent := h.parent'
  parent' := h.parent
  name heq := (h.name heq.symm).symm

def Candidate.SharesRegular (fs : FileSystem) (c c' : Candidate) : Prop :=
  ∀ i ∈ c.content.leaves, i ∈ c'.content.leaves → (fs.stat i).isRegular = true

section Removed

variable (hremoved : Removed c.parent c.target.name c.node fs fs')
include hremoved

theorem Removed.holds (h : fs.Holds c') (hapart : c.Apart c') : fs'.Holds c' where
  root := by
    rw [hremoved.frame.roots]
    exact h.root
  entry := by
    by_cases hparent : c.parent = c'.parent
    · rw [← hparent, hremoved.lookup (hapart.name hparent).symm, hparent]
      exact h.entry
    · rw [hremoved.frame.lookup]
      · exact h.entry
      · rw [List.mem_cons, not_or]
        exact ⟨Ne.symm hparent, hapart.parent'⟩
  directory := by
    rw [hremoved.frame.isDirectory]
    exact h.directory
  entries := by
    rw [hremoved.frame.entries c'.identity]
    · exact h.entries
    · rw [List.mem_cons, not_or]
      refine ⟨?_, hapart.directories.symm List.mem_cons_self⟩
      rintro hparent
      exact hapart.parent (hparent ▸ List.mem_cons_self)
  ascends := h.ascends
  shows := by
    refine Forest.shows_of_frame h.shows hremoved.frame fun d hd => ?_
    have hmem : d ∈ c'.node.directories := List.mem_cons_of_mem _ hd
    rw [List.mem_cons, not_or]
    refine ⟨?_, hapart.directories.symm hmem⟩
    rintro rfl
    exact hapart.parent hmem

theorem Removed.alike_directory (hc : fs.Holds c) (hapart : c.Apart c') (h : fs.Holds c')
    (hi : i ∈ c'.node.directories) : fs'.stat i = fs.stat i := by
  have hnot : i ∉ c.parent :: c.node.directories := by
    rw [List.mem_cons, not_or]
    refine ⟨?_, hapart.directories.symm hi⟩
    rintro rfl
    exact hapart.parent hi
  have hleaf : i ∉ c.node.leaves := by
    intro hmem
    have hfalse := Forest.not_isDirectory_of_mem hc.shows hmem
    rw [Candidate.isDirectory_of_mem h hi] at hfalse
    cases hfalse
  have hattributes : fs'.attributes i = fs.attributes i := by
    rw [hremoved.frame.attributes i hnot, hremoved.frame.ctime i hnot hleaf]
  rw [FileSystem.stat, FileSystem.stat, hattributes]

theorem Removed.alike_leaf (hparent : (fs.stat c.parent).isDirectory = true) (hc : fs.Holds c)
    (h : fs.Holds c') (hshared : c.SharesRegular fs c') (hi : i ∈ c'.content.leaves) :
    Alike fs fs' i := by
  have hfalse := Forest.not_isDirectory_of_mem h.shows hi
  have hnot : i ∉ c.parent :: c.node.directories := by
    rw [List.mem_cons, not_or]
    constructor
    · rintro rfl
      rw [hparent] at hfalse
      cases hfalse
    · intro hmem
      rw [Candidate.isDirectory_of_mem hc hmem] at hfalse
      cases hfalse
  have hattributes := hremoved.frame.attributes i hnot
  constructor
  · rw [FileSystem.stat, FileSystem.stat, hattributes]
  · by_cases hleaf : i ∈ c.content.leaves
    · exact .inl (hshared i hleaf hi)
    · exact .inr (hremoved.frame.ctime i hnot hleaf)

/-- A candidate looks as before where another one is removed. -/
theorem Removed.scan {py : Python} {limits : Limits} (hparent : (fs.stat c.parent).isDirectory = true)
    (hc : fs.Holds c) (h : fs.Holds c') (hapart : c.Apart c') (hshared : c.SharesRegular fs c') :
    c'.scan py limits fs' = c'.scan py limits fs := by
  have hdirectory (i : Identity) (hi : i ∈ c'.node.directories) : Alike fs fs' i := by
    rw [Alike, hremoved.alike_directory hc hapart h hi]
    exact .refl _
  refine Candidate.scan_congr (hdirectory _ List.mem_cons_self) ⟨fun i hi => ?_, fun i hi => ?_⟩
  · exact hdirectory i (List.mem_cons_of_mem _ hi)
  · exact hremoved.alike_leaf hparent hc h hshared hi

theorem Removed.isRegular : (fs'.stat i).isRegular = (fs.stat i).isRegular := by
  change ((fs'.attributes i).mode &&& _ == _) = ((fs.attributes i).mode &&& _ == _)
  rw [hremoved.frame.mode]

end Removed

end Apart

end ClusterState.CacheRetention
