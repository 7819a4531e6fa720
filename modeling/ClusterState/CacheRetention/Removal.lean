import ClusterState.CacheRetention.Scanning

/-! # What `remove_tree` removes

Entry by entry, in the order in which the directories are listed: the file system keeps
everything but the directories of the tree, and the `ctime` of what had a name in it.
-/

namespace ClusterState.CacheRetention

open ClusterState.Data.PythonText Concurrency

/-! ## Frames -/

/-- Only these directories have changed, and of the leaves only their `ctime`. -/
structure FileSystem.Frame (directories leaves : List Identity) (fs fs' : FileSystem) : Prop where
  entries : ∀ d, d ∉ directories → fs'.entries d = fs.entries d
  mode : ∀ i, (fs'.attributes i).mode = (fs.attributes i).mode
  attributes : ∀ i, i ∉ directories → fs'.attributes i =
    { fs.attributes i with ctime := (fs'.attributes i).ctime }
  ctime : ∀ i, i ∉ directories → i ∉ leaves → (fs'.attributes i).ctime = (fs.attributes i).ctime
  data : fs'.data = fs.data
  roots : fs'.directories = fs.directories

section Frames

variable {K : Kernel} {fs fs' fs'' : FileSystem} {D D' L L' : List Identity} {d i : Identity}
  {name name' : Name} {limits : Limits} {b : Bool}

namespace FileSystem.Frame

theorem refl (D L : List Identity) (fs : FileSystem) : Frame D L fs fs :=
  ⟨fun _ _ => rfl, fun _ => rfl, fun _ _ => rfl, fun _ _ _ => rfl, rfl, rfl⟩

theorem mono (h : Frame D L fs fs') (hD : D ⊆ D') (hL : ∀ i ∈ L, i ∈ D' ∨ i ∈ L') :
    Frame D' L' fs fs' where
  entries d hd := h.entries d fun hmem => hd (hD hmem)
  mode := h.mode
  attributes i hi := h.attributes i fun hmem => hi (hD hmem)
  ctime i hi hl := h.ctime i (fun hmem => hi (hD hmem)) fun hmem => (hL i hmem).elim hi hl
  data := h.data
  roots := h.roots

theorem trans (h : Frame D L fs fs') (h' : Frame D L fs' fs'') : Frame D L fs fs'' where
  entries d hd := (h'.entries d hd).trans (h.entries d hd)
  mode i := (h'.mode i).trans (h.mode i)
  attributes i hi := by
    rw [h'.attributes i hi, h.attributes i hi]
  ctime i hi hl := (h'.ctime i hi hl).trans (h.ctime i hi hl)
  data := h'.data.trans h.data
  roots := h'.roots.trans h.roots

theorem isDirectory (h : Frame D L fs fs') :
    (fs'.stat i).isDirectory = (fs.stat i).isDirectory := by
  change ((fs'.attributes i).mode &&& _ == _) = ((fs.attributes i).mode &&& _ == _)
  rw [h.mode]

theorem checkEntry (h : Frame D L fs fs') :
    checkEntry limits b (fs'.stat i) = checkEntry limits b (fs.stat i) := by
  have hformat : (fs'.stat i).format = (fs.stat i).format := by
    change (fs'.attributes i).mode &&& _ = (fs.attributes i).mode &&& _
    rw [h.mode]
  simp only [CacheRetention.checkEntry, Attributes.isDirectory, Attributes.isRegular,
    Attributes.isSymlink, hformat]
  rfl

theorem lookup (h : Frame D L fs fs') (hd : d ∉ D) : fs'.lookup d name = fs.lookup d name := by
  rw [FileSystem.lookup, FileSystem.lookup, h.entries d hd]

end FileSystem.Frame

theorem frame_drop : FileSystem.Frame [d] [i] fs (fs.drop K d name i) where
  entries d' hd' := Function.update_of_ne (List.ne_of_not_mem_cons hd') _ _
  mode i' := by
    by_cases hd : i' = d
    · subst hd
      simp only [FileSystem.drop, Function.update_self]
      exact K.touched_mode fs i'
    · simp only [FileSystem.drop, Function.update_of_ne hd]
      by_cases hi : i' = i
      · subst hi
        rw [Function.update_self]
      · rw [Function.update_of_ne hi]
  attributes i' hd := by
    have hd : i' ≠ d := List.ne_of_not_mem_cons hd
    simp only [FileSystem.drop, Function.update_of_ne hd]
    by_cases hi : i' = i
    · subst hi
      rw [Function.update_self]
    · rw [Function.update_of_ne hi]
  ctime i' hd hi := by
    simp only [FileSystem.drop, Function.update_of_ne (List.ne_of_not_mem_cons hd),
      Function.update_of_ne (List.ne_of_not_mem_cons hi)]
  data := rfl
  roots := rfl

theorem entries_drop : (fs.drop K d name i).entries d = (fs.entries d).filter fun e => e.1 ≠ name := by
  simp only [FileSystem.drop, Function.update_self]

theorem lookup_filter {l : List (Name × Identity)} {p : Name → Bool} (h : p name = true) :
    (l.filter fun e => p e.1).lookup name = l.lookup name := by
  induction l with
  | nil => rfl
  | cons e l ih =>
    obtain ⟨name', i⟩ := e
    rw [List.filter_cons]
    by_cases hname : name = name'
    · subst hname
      rw [if_pos h, List.lookup_cons_self, List.lookup_cons_self]
    · have hne : (name == name') = false := beq_eq_false_iff_ne.mpr hname
      split
      · rw [List.lookup_cons, List.lookup_cons, hne, ih]
      · rw [List.lookup_cons, hne, ih]

end Frames

/-! ## Nodes -/

inductive Node where
  | leaf (i : Identity)
  | directory (i : Identity) (children : Forest)

namespace Node

def identity : Node → Identity
  | leaf i => i
  | directory i _ => i

def directories : Node → List Identity
  | leaf _ => []
  | directory i children => i :: children.directories

def leaves : Node → List Identity
  | leaf i => [i]
  | directory _ children => children.leaves

def depth : Node → Nat
  | leaf _ => 1
  | directory _ children => children.depth + 1

end Node

def FileSystem.ShowsNode (fs : FileSystem) : Node → Prop
  | .leaf i => (fs.stat i).isDirectory = false
  | .directory i children => (fs.stat i).isDirectory = true ∧
      (fs.entries i).Perm children.top ∧ children.Ascends ∧ fs.Shows children

namespace Forest

def nodes : Forest → List (Name × Node)
  | nil => []
  | leaf name i rest => (name, .leaf i) :: rest.nodes
  | directory name i children rest => (name, .directory i children) :: rest.nodes

variable {f : Forest} {fs fs' : FileSystem} {D L : List Identity}

theorem map_nodes : f.nodes.map (fun c => (c.1, c.2.identity)) = f.top := by
  induction f with
  | nil => rfl
  | leaf name i rest ih => exact congrArg ((name, i) :: ·) ih
  | directory name i children rest _ ih => exact congrArg ((name, i) :: ·) ih

theorem fst_nodes : f.nodes.map Prod.fst = f.names := by
  rw [names, ← map_nodes, List.map_map]
  rfl

theorem flatMap_directories : f.nodes.flatMap (·.2.directories) = f.directories := by
  induction f with
  | nil => rfl
  | leaf name i rest ih => exact ih
  | directory name i children rest _ ih =>
    exact congrArg (i :: children.directories ++ ·) ih

theorem flatMap_leaves : f.nodes.flatMap (·.2.leaves) = f.leaves := by
  induction f with
  | nil => rfl
  | leaf name i rest ih => exact congrArg (i :: ·) ih
  | directory name i children rest _ ih => exact congrArg (children.leaves ++ ·) ih

theorem depth_of_mem {c : Name × Node} (h : c ∈ f.nodes) : c.2.depth ≤ f.depth := by
  induction f with
  | nil => cases h
  | leaf name i rest ih =>
    rcases List.mem_cons.mp h with rfl | hmem
    · exact le_max_left _ _
    · exact (ih hmem).trans (le_max_right _ _)
  | directory name i children rest _ ih =>
    rcases List.mem_cons.mp h with rfl | hmem
    · exact le_max_left _ _
    · exact (ih hmem).trans (le_max_right _ _)

theorem showsNode_of_mem {c : Name × Node} (hshows : fs.Shows f) (hascends : f.Ascends)
    (h : c ∈ f.nodes) : fs.ShowsNode c.2 := by
  induction f with
  | nil => cases h
  | leaf name i rest ih =>
    rcases List.mem_cons.mp h with rfl | hmem
    · exact hshows.1
    · exact ih hshows.2 hascends.2 hmem
  | directory name i children rest _ ih =>
    rcases List.mem_cons.mp h with rfl | hmem
    · exact ⟨hshows.1, hshows.2.1, hascends.2.1, hshows.2.2.1⟩
    · exact ih hshows.2.2.2 hascends.2.2 hmem

theorem All.of_mem {P : Identity → Prop} {c : Name × Node} (h : f.All P) (hc : c ∈ f.nodes) :
    (∀ i ∈ c.2.directories, P i) ∧ ∀ i ∈ c.2.leaves, P i := by
  refine ⟨fun i hi => h.1 i ?_, fun i hi => h.2 i ?_⟩
  · rw [← flatMap_directories]
    exact List.mem_flatMap.mpr ⟨c, hc, hi⟩
  · rw [← flatMap_leaves]
    exact List.mem_flatMap.mpr ⟨c, hc, hi⟩

theorem mem_top {c : Name × Node} (hc : c ∈ f.nodes) : (c.1, c.2.identity) ∈ f.top := by
  rw [← map_nodes]
  exact List.mem_map_of_mem hc

theorem shows_of_frame (hshows : fs.Shows f) (hframe : FileSystem.Frame D L fs fs')
    (hdisjoint : ∀ d ∈ f.directories, d ∉ D) : fs'.Shows f := by
  induction f with
  | nil => trivial
  | leaf name i rest ih =>
    refine ⟨?_, ih hshows.2 hdisjoint⟩
    rw [hframe.isDirectory]
    exact hshows.1
  | directory name i children rest ihc ih =>
    obtain ⟨hdir, hperm, hchildren, hrest⟩ := hshows
    rw [directories, List.forall_mem_append, List.forall_mem_cons] at hdisjoint
    obtain ⟨⟨hi, hdisjointc⟩, hdisjoint⟩ := hdisjoint
    refine ⟨?_, ?_, ihc hchildren hdisjointc, ih hrest hdisjoint⟩
    · rw [hframe.isDirectory]
      exact hdir
    · rw [hframe.entries i hi]
      exact hperm

end Forest

theorem showsNode_of_frame {node : Node} {fs fs' : FileSystem} {D L : List Identity}
    (h : fs.ShowsNode node) (hframe : FileSystem.Frame D L fs fs')
    (hdisjoint : ∀ d ∈ node.directories, d ∉ D) : fs'.ShowsNode node := by
  cases node with
  | leaf i =>
    rw [FileSystem.ShowsNode, hframe.isDirectory]
    exact h
  | directory i children =>
    obtain ⟨hdir, hperm, hascends, hshows⟩ := h
    obtain ⟨hi, hdisjoint⟩ := List.forall_mem_cons.mp hdisjoint
    refine ⟨?_, ?_, hascends, Forest.shows_of_frame hshows hframe hdisjoint⟩
    · rw [hframe.isDirectory]
      exact hdir
    · rw [hframe.entries i hi]
      exact hperm

/-! ## Removing -/

section Removing

variable {K : Kernel} {limits : Limits} {fs fs' : FileSystem} {d i : Identity} {name : Name}
  {node : Node} {expected : Option Identity} {fuel : Nat}

def Node.PassesBelow (limits : Limits) (fs : FileSystem) : Node → Prop
  | leaf _ => True
  | directory _ children => children.All (Passes limits fs)

/-- The node is gone, and nothing else. -/
structure Removed (d : Identity) (name : Name) (node : Node) (fs fs' : FileSystem) : Prop where
  frame : FileSystem.Frame (d :: node.directories) node.leaves fs fs'
  entries : fs'.entries d = (fs.entries d).filter fun e => e.1 ≠ name
  empty : ∀ i ∈ node.directories, fs'.entries i = []

theorem checkEntry_of_directory {b : Bool} {st : Metadata} (h : checkEntry limits b st = .ok ())
    (hdir : st.isDirectory = true) : checkEntry limits false st = .ok () := by
  simpa [checkEntry, hdir] using h

theorem respond_unlink (h : fs.lookup d name = some i) (hleaf : (fs.stat i).isDirectory = false) :
    respond K (.unlink d name) fs = some (.ok (), fs.drop K d name i) := by
  simp [respond, h, hleaf]

theorem respond_rmdir (h : fs.lookup d name = some i) (hdir : (fs.stat i).isDirectory = true)
    (hempty : fs.entries i = []) :
    respond K (.rmdir d name) fs = some (.ok (), fs.drop K d name i) := by
  simp [respond, h, hdir, hempty]

theorem eval_remove_leaf (h : fs.lookup d name = some i) (hleaf : (fs.stat i).isDirectory = false)
    (hcheck : checkEntry limits (limits.links && expected.isNone) (fs.stat i) = .ok ())
    (hexpected : expected = none ∨ expected = some i) :
    (remove limits (fuel + 1) d name expected).eval (respond K) fs =
      (some (.ok ()), fs.drop K d name i) := by
  have hnot : ¬(expected.isSome = true ∧ expected ≠ some (fs.stat i).identity) := by
    rintro ⟨hsome, hne⟩
    rcases hexpected with rfl | rfl
    · cases hsome
    · exact hne rfl
  rw [remove, Program.eval_bind_ok (eval_perform (respond_statAt h)), hcheck, eval_check]
  simp only [hnot, hleaf, if_false, Bool.false_eq_true]
  rw [Program.eval_bind_ok (eval_perform (respond_statAt h)), if_pos rfl]
  exact eval_perform (respond_unlink h hleaf)

theorem Node.PassesBelow.of_frame {D L : List Identity} (h : node.PassesBelow limits fs)
    (hframe : FileSystem.Frame D L fs fs') : node.PassesBelow limits fs' := by
  cases node with
  | leaf i => trivial
  | directory i children =>
    refine ⟨fun i hi => ?_, fun i hi => ?_⟩
    · rw [Passes, hframe.checkEntry]
      exact h.1 i hi
    · rw [Passes, hframe.checkEntry]
      exact h.2 i hi

section Below

variable {children : Forest} {c : Name × Node}

theorem passes_of_mem (h : children.All (Passes limits fs)) (hc : c ∈ children.nodes) :
    Passes limits fs c.2.identity := by
  obtain ⟨hdirs, hleaves⟩ := h.of_mem hc
  obtain ⟨name, node⟩ := c
  cases node with
  | leaf i => exact hleaves i List.mem_cons_self
  | directory i children => exact hdirs i List.mem_cons_self

theorem passesBelow_of_mem (h : children.All (Passes limits fs)) (hc : c ∈ children.nodes) :
    c.2.PassesBelow limits fs := by
  obtain ⟨hdirs, hleaves⟩ := h.of_mem hc
  obtain ⟨name, node⟩ := c
  cases node with
  | leaf i => trivial
  | directory i children => exact ⟨fun i hi => hdirs i (List.mem_cons_of_mem _ hi), hleaves⟩

end Below

theorem Removed.lookup {name' : Name} (h : Removed d name node fs fs') (hne : name' ≠ name) :
    fs'.lookup d name' = fs.lookup d name' := by
  rw [FileSystem.lookup, h.entries]
  exact lookup_filter (p := fun name' => decide (name' ≠ name)) (decide_eq_true hne)

def Removes (K : Kernel) (limits : Limits) (fuel : Nat) (d : Identity) : Prop :=
  ∀ (fs : FileSystem) (name : Name) (node : Node), node.depth ≤ fuel →
    fs.lookup d name = some node.identity → fs.ShowsNode node → (d :: node.directories).Nodup →
    Passes limits fs node.identity → node.PassesBelow limits fs →
    ∃ fs', (remove limits fuel d name none).eval (respond K) fs = (some (.ok ()), fs') ∧
      Removed d name node fs fs'

/-- The entries of a directory are removed one by one, in any order. -/
theorem eval_remove_all (ih : Removes K limits fuel d)
    {l : List (Name × Node)} (hdepth : ∀ c ∈ l, c.2.depth ≤ fuel)
    (hlookup : ∀ c ∈ l, fs.lookup d c.1 = some c.2.identity) (hshows : ∀ c ∈ l, fs.ShowsNode c.2)
    (hnodup : (d :: l.flatMap (·.2.directories)).Nodup) (hnames : (l.map Prod.fst).Nodup)
    (hpasses : ∀ c ∈ l, Passes limits fs c.2.identity)
    (hbelow : ∀ c ∈ l, c.2.PassesBelow limits fs) :
    ∃ fs', ((l.map Prod.fst).forM fun child => remove limits fuel d child none).eval (respond K) fs =
        (some (.ok ()), fs') ∧
      FileSystem.Frame (d :: l.flatMap (·.2.directories)) (l.flatMap (·.2.leaves)) fs fs' ∧
      fs'.entries d = (fs.entries d).filter (fun e => e.1 ∉ l.map Prod.fst) ∧
      ∀ i ∈ l.flatMap (·.2.directories), fs'.entries i = [] := by
  induction l generalizing fs with
  | nil => exact ⟨fs, rfl, .refl _ _ _, by simp, by simp⟩
  | cons c l ihl =>
    obtain ⟨hdepth, hdepths⟩ := List.forall_mem_cons.mp hdepth
    obtain ⟨hlookup, hlookups⟩ := List.forall_mem_cons.mp hlookup
    obtain ⟨hnode, hnodes⟩ := List.forall_mem_cons.mp hshows
    obtain ⟨hpass, hpasses⟩ := List.forall_mem_cons.mp hpasses
    obtain ⟨hbelow, hbelows⟩ := List.forall_mem_cons.mp hbelow
    obtain ⟨hname, hnames⟩ := List.nodup_cons.mp hnames
    rw [List.flatMap_cons, List.nodup_cons, List.nodup_append', List.mem_append, not_or] at hnodup
    obtain ⟨⟨hdc, hdl⟩, hnodupc, hnodupl, hdisjoint⟩ := hnodup
    have hapart : ∀ i ∈ l.flatMap (·.2.directories), i ∉ d :: c.2.directories := by
      intro i hi hmem
      rcases List.mem_cons.mp hmem with rfl | hmem
      · exact hdl hi
      · exact hdisjoint hmem hi
    obtain ⟨fs₁, heval, hremoved⟩ := ih _ _ _ hdepth hlookup hnode (List.nodup_cons.mpr ⟨hdc, hnodupc⟩)
      hpass hbelow
    have hframe := hremoved.frame
    obtain ⟨fs₂, heval', hframe', hentries, hempty⟩ := ihl hdepths
      (fun c' hc' => by
        rw [hremoved.lookup (ne_of_mem_of_not_mem (List.mem_map_of_mem hc') hname)]
        exact hlookups c' hc')
      (fun c' hc' => showsNode_of_frame (hnodes c' hc') hframe fun i hi =>
        hapart i (List.mem_flatMap.mpr ⟨c', hc', hi⟩))
      (List.nodup_cons.mpr ⟨hdl, hnodupl⟩) hnames
      (fun c' hc' => by
        rw [Passes, hframe.checkEntry]
        exact hpasses c' hc')
      fun c' hc' => (hbelows c' hc').of_frame hframe
    refine ⟨fs₂, ?_, ?_, ?_, ?_⟩
    · exact (Program.eval_bind_ok heval).trans heval'
    · rw [List.flatMap_cons, List.flatMap_cons]
      refine (hframe.mono ?_ fun i hi => .inr ?_).trans (hframe'.mono ?_ fun i hi => .inr ?_)
      · exact List.cons_subset_cons _ (List.subset_append_left _ _)
      · exact List.mem_append_left _ hi
      · exact List.cons_subset_cons _ (List.subset_append_right _ _)
      · exact List.mem_append_right _ hi
    · rw [hentries, hremoved.entries, List.filter_filter, List.map_cons]
      refine List.filter_congr fun e _ => ?_
      rw [← Bool.decide_and, decide_eq_decide, List.mem_cons, not_or, and_comm]
    · rw [List.flatMap_cons, List.forall_mem_append]
      refine ⟨fun i hi => ?_, hempty⟩
      rw [hframe'.entries i, hremoved.empty i hi]
      rw [List.mem_cons, not_or]
      refine ⟨?_, fun hmem => hdisjoint hi hmem⟩
      rintro rfl
      exact hdc hi

theorem eval_remove_children {children : Forest} (ih : Removes K limits fuel i)
    (hdepth : children.depth ≤ fuel) (hperm : (fs.entries i).Perm children.top)
    (hascends : children.Ascends) (hshows : fs.Shows children)
    (hnodup : (i :: children.directories).Nodup) (hbelow : children.All (Passes limits fs)) :
    ∃ fs', ((K.listed fs i).forM fun child => remove limits fuel i child none).eval (respond K) fs =
        (some (.ok ()), fs') ∧
      FileSystem.Frame (i :: children.directories) children.leaves fs fs' ∧
      fs'.entries i = [] ∧ ∀ j ∈ children.directories, fs'.entries j = [] := by
  have hnames : (K.listed fs i).Perm (children.nodes.map Prod.fst) := by
    rw [Forest.fst_nodes]
    exact (K.listed_perm fs i).trans (hperm.map Prod.fst)
  -- The nodes, in the order in which the directory is listed.
  have hcomp := congrFun (congrFun (List.eq_map_comp_perm Prod.fst) (K.listed fs i)) children.nodes
  obtain ⟨l, hl, hlperm⟩ := hcomp.mpr hnames
  have hmem (c : Name × Node) (hc : c ∈ l) : c ∈ children.nodes := hlperm.mem_iff.mp hc
  have hdirs : (l.flatMap (·.2.directories)).Perm children.directories := by
    rw [← Forest.flatMap_directories]
    exact hlperm.flatMap_right _
  have hleaves : (l.flatMap (·.2.leaves)).Perm children.leaves := by
    rw [← Forest.flatMap_leaves]
    exact hlperm.flatMap_right _
  have hnodupn : (l.map Prod.fst).Nodup := by
    rw [← hl, hnames.nodup_iff, Forest.fst_nodes]
    exact hascends.nodup
  obtain ⟨fs', heval, hframe, hentries, hempty⟩ := eval_remove_all ih
    (fun c hc => (Forest.depth_of_mem (hmem c hc)).trans hdepth)
    (fun c hc => has_of_perm hascends hperm _ (Forest.mem_top (hmem c hc)))
    (fun c hc => Forest.showsNode_of_mem hshows hascends (hmem c hc))
    ((hdirs.cons i).nodup_iff.mpr hnodup) hnodupn
    (fun c hc => passes_of_mem hbelow (hmem c hc)) fun c hc => passesBelow_of_mem hbelow (hmem c hc)
  rw [← hl] at heval hentries
  refine ⟨fs', heval, hframe.mono ?_ ?_, ?_, fun j hj => hempty j (hdirs.mem_iff.mpr hj)⟩
  · exact (hdirs.cons i).subset
  · exact fun j hj => .inr (hleaves.mem_iff.mp hj)
  · rw [hentries, List.filter_eq_nil_iff]
    intro e he
    have hlisted := (K.listed_perm fs i).mem_iff.mpr (List.mem_map_of_mem he)
    simpa using hlisted

theorem eval_rmdir (h : fs.lookup d name = some i) (hdir : (fs.stat i).isDirectory = true)
    (hcheck : checkEntry limits false (fs.stat i) = .ok ()) {st : Metadata} (hst : st = fs'.stat i)
    {D L : List Identity} (hframe : FileSystem.Frame D L fs' fs) (hempty : fs.entries i = []) :
    (do
      let current ← perform (.statAt d name)
      .ofExcept (checkEntry limits false current)
      if current.identity = st.identity ∧ current.mode = st.mode then perform (.rmdir d name)
      else refuse "directory replaced during deletion").eval (respond K) fs =
        (some (.ok ()), fs.drop K d name i) := by
  have hsame : (fs.stat i).identity = st.identity ∧ (fs.stat i).mode = st.mode := by
    subst hst
    exact ⟨rfl, hframe.mode i⟩
  rw [Program.eval_bind_ok (eval_perform (respond_statAt h)), hcheck, eval_check]
  dsimp only
  rw [if_pos hsame]
  exact eval_perform (respond_rmdir h hdir hempty)

theorem eval_remove (hdepth : node.depth ≤ fuel) (hlookup : fs.lookup d name = some node.identity)
    (hshows : fs.ShowsNode node) (hnodup : (d :: node.directories).Nodup)
    (hcheck : checkEntry limits (limits.links && expected.isNone) (fs.stat node.identity) = .ok ())
    (hexpected : expected = none ∨ expected = some node.identity)
    (hbelow : node.PassesBelow limits fs) :
    ∃ fs', (remove limits fuel d name expected).eval (respond K) fs = (some (.ok ()), fs') ∧
      Removed d name node fs fs' := by
  induction fuel generalizing fs d name node expected with
  | zero => cases node <;> cases hdepth
  | succ fuel ih =>
    cases node with
    | leaf i =>
      refine ⟨_, eval_remove_leaf hlookup hshows hcheck hexpected, frame_drop, entries_drop, ?_⟩
      exact List.forall_mem_nil _
    | directory i children =>
      obtain ⟨hdir, hperm, hascends, hshows⟩ := hshows
      have hlookup : fs.lookup d name = some i := hlookup
      have hcheck : checkEntry limits (limits.links && expected.isNone) (fs.stat i) = .ok () := hcheck
      obtain ⟨hd, hnodup⟩ := List.nodup_cons.mp hnodup
      have hremoves : Removes K limits fuel i := fun fs name node hdepth hlookup hshows hnodup hpass
        hbelow => ih hdepth hlookup hshows hnodup (by simpa [Passes] using hpass) (.inl rfl) hbelow
      obtain ⟨fs₁, heval, hframe, hempty, hempties⟩ := eval_remove_children hremoves
        (Nat.le_of_succ_le_succ hdepth) hperm hascends hshows hnodup hbelow
      have hnot : ¬(expected.isSome = true ∧ expected ≠ some (fs.stat i).identity) := by
        rintro ⟨hsome, hne⟩
        rcases hexpected with rfl | rfl
        · cases hsome
        · exact hne rfl
      have hfstat : respond K (.fstat i) fs = some (.ok (fs.stat i), fs) := rfl
      have hscandir : respond K (.scandir i) fs = some (.ok (K.listed fs i), fs) := rfl
      have hlookup₁ : fs₁.lookup d name = some i := (hframe.lookup hd).trans hlookup
      have hdir₁ : (fs₁.stat i).isDirectory = true := hframe.isDirectory.trans hdir
      have hcheck₁ : checkEntry limits false (fs₁.stat i) = .ok () :=
        hframe.checkEntry.trans (checkEntry_of_directory hcheck hdir)
      refine ⟨fs₁.drop K d name i, ?_, ?_, ?_, ?_⟩
      · rw [remove, Program.eval_bind_ok (eval_perform (respond_statAt hlookup)), hcheck, eval_check]
        simp only [hnot, hdir, if_false, if_true]
        rw [Program.eval_bind_ok (eval_perform (respond_openAt hlookup hdir)),
          Program.eval_bind_ok (eval_perform hfstat), if_pos rfl,
          Program.eval_bind_ok (eval_perform hscandir), Program.eval_bind_ok heval]
        exact eval_rmdir hlookup₁ hdir₁ hcheck₁ rfl hframe hempty
      · refine (hframe.mono ?_ fun j hj => .inr hj).trans (frame_drop.mono ?_ ?_)
        · exact List.subset_cons_self _ _
        · exact List.cons_subset.mpr ⟨List.mem_cons_self, List.nil_subset _⟩
        · intro j hj
          rw [List.mem_singleton.mp hj]
          exact .inl (List.mem_cons_of_mem _ List.mem_cons_self)
      · rw [entries_drop, hframe.entries d hd]
      · intro j hj
        have hne : j ≠ d := by
          rintro rfl
          exact hd hj
        have hkeep : (fs₁.drop K d name i).entries j = fs₁.entries j := by
          simp only [FileSystem.drop, Function.update_of_ne hne]
        rw [hkeep]
        rcases List.mem_cons.mp hj with rfl | hj
        · exact hempty
        · exact hempties j hj

theorem eval_removeTree_node {target : Target} (hroot : fs.directories target.root = some d)
    (hlookup : fs.lookup d target.name = some node.identity) (hshows : fs.ShowsNode node)
    (hnodup : (d :: node.directories).Nodup) (hdepth : node.depth ≤ fuel)
    (hcheck : checkEntry limits false (fs.stat node.identity) = .ok ())
    (hbelow : node.PassesBelow limits fs) :
    ∃ fs', (removeTree fuel target limits (some node.identity)).eval (respond K) fs =
        (some (.ok ()), fs') ∧ Removed d target.name node fs fs' := by
  have hopen : respond K (.openParent target.root) fs = some (.ok d, fs) := by
    simp only [respond, hroot]
  have hcheck : checkEntry limits (limits.links && (some node.identity).isNone)
      (fs.stat node.identity) = .ok () := by
    rw [Option.isNone_some, Bool.and_false]
    exact hcheck
  obtain ⟨fs', heval, hremoved⟩ :=
    eval_remove (K := K) hdepth hlookup hshows hnodup hcheck (.inr rfl) hbelow
  exact ⟨fs', (Program.eval_bind_ok (eval_perform hopen)).trans heval, hremoved⟩

end Removing

/-! ## Candidates -/

section Candidates

variable {K : Kernel} {limits : Limits} {fs : FileSystem} {c : Candidate} {fuel : Nat}

def Candidate.node (c : Candidate) : Node := .directory c.identity c.content

/-- No directory of the candidate has a second name in it. -/
def Candidate.Proper (c : Candidate) : Prop := (c.parent :: c.node.directories).Nodup

theorem eval_removeTree (h : fs.Holds c) (hproper : c.Proper)
    (hdepth : c.content.depth < fuel) (hallowed : c.Allowed limits fs) :
    ∃ fs', (removeTree fuel c.target limits (some c.identity)).eval (respond K) fs =
        (some (.ok ()), fs') ∧ Removed c.parent c.target.name c.node fs fs' := by
  have hentry : fs.lookup c.parent c.target.name = some c.node.identity := h.entry
  have hshows : fs.ShowsNode c.node := ⟨h.directory, h.entries, h.ascends, h.shows⟩
  exact eval_removeTree_node h.root hentry hshows hproper hdepth hallowed.1 hallowed.2

/-- Nothing else changing, `remove_tree` removes what `snapshot` accepts, all of it and nothing
else; and what `snapshot` refuses has an entry that must not be touched. -/
theorem removeTree_removes_snapshot (py : Python) (h : fs.Holds c)
    (hproper : c.Proper) (hdepth : c.content.depth < fuel) :
    (∃ proof latest fs', (snapshot py fuel false c.target limits).eval (respond K) fs =
        (some (.ok (proof, latest)), fs) ∧
      (removeTree fuel c.target limits proof.2).eval (respond K) fs = (some (.ok ()), fs') ∧
      Removed c.parent c.target.name c.node fs fs') ∨
    ∃ message, (snapshot py fuel false c.target limits).eval (respond K) fs =
        (some (.error (.refuse message)), fs) ∧ ¬c.Allowed limits fs := by
  rw [eval_snapshot (by simp) h hdepth]
  rcases c.scan_cases py limits fs with
    ⟨tally, hscan, hroot, hallowed⟩ | ⟨message, hscan, hnot⟩
  · obtain ⟨fs', heval, hremoved⟩ := eval_removeTree (K := K) h hproper hdepth hallowed
    refine .inl ⟨tally.proof py, tally.latest, fs', ?_, ?_, hremoved⟩
    · rw [hscan]
      rfl
    · rw [Tally.proof, hroot]
      exact heval
  · refine .inr ⟨message, ?_, hnot⟩
    rw [hscan]
    rfl

end Candidates

/-! ## Two workspaces that share a file -/

namespace Sample

def builds : Path := codePoints "/var/lib/ci-builds-nocow"

def inode (ino : Nat) : Identity := ((8, 1), ino)

def modeOf (ino : Nat) : Nat :=
  if ino = 30 then 0o100644 else if ino = 31 then 0o120777 else 0o040755

def entriesOf (ino : Nat) : List (Name × Identity) :=
  if ino = 2 then [(codePoints "b", inode 20), (codePoints "a", inode 10)]
  else if ino = 10 then [(codePoints "sub", inode 11), (codePoints "shared", inode 30)]
  else if ino = 11 then [(codePoints "link", inode 31)]
  else if ino = 20 then [(codePoints "shared", inode 30)]
  else []

def fileSystem : FileSystem where
  attributes i := ⟨modeOf i.2, 0, 0, 0, 0, 0⟩
  entries i := entriesOf i.2
  data _ := []
  directories path := if path = builds then some (inode 2) else none

def kernel : Kernel where
  listed fs d := (fs.entries d).map Prod.fst
  touched fs d := { fs.attributes d with mtime := 1, ctime := 1 }
  changed fs i := (fs.attributes i).ctime + 1
  listed_perm _ _ := .refl _
  touched_mode _ _ := rfl

def contentOfA : Forest :=
  .leaf (codePoints "shared") (inode 30)
    (.directory (codePoints "sub") (inode 11) (.leaf (codePoints "link") (inode 31) .nil) .nil)

def contentOfB : Forest := .leaf (codePoints "shared") (inode 30) .nil

def candidate : Candidate := ⟨⟨builds, codePoints "a"⟩, inode 2, inode 10, contentOfA⟩

def limits : Limits := ⟨(8, 1), [], [], true⟩

theorem ascends_contentOfA : contentOfA.Ascends := by
  simp only [contentOfA, Forest.Ascends, Forest.names, Forest.top]
  decide

theorem shows_contentOfA : fileSystem.Shows contentOfA :=
  ⟨rfl, rfl, .refl _, ⟨rfl, trivial⟩, trivial⟩

theorem holds_candidate : fileSystem.Holds candidate where
  root := rfl
  entry := by decide
  directory := rfl
  entries := .swap _ _ _
  ascends := ascends_contentOfA
  shows := shows_contentOfA

theorem allowed_candidate : candidate.Allowed limits fileSystem := by
  have hdirs : ∀ i ∈ contentOfA.directories, Passes limits fileSystem i :=
    List.forall_mem_cons.mpr ⟨rfl, List.forall_mem_nil _⟩
  have hleaves : ∀ i ∈ contentOfA.leaves, Passes limits fileSystem i :=
    List.forall_mem_cons.mpr ⟨rfl, List.forall_mem_cons.mpr ⟨rfl, List.forall_mem_nil _⟩⟩
  exact ⟨rfl, hdirs, hleaves⟩

theorem proper_candidate : candidate.Proper := by
  rw [Candidate.Proper]
  decide

end Sample

/-- A workspace with a link and with a file that has another name elsewhere. -/
theorem removeTree_removes_shared :
    ∃ proof latest fs', (snapshot ⟨fun _ => true, id, fun time => time⟩ 3 false Sample.candidate.target
        Sample.limits).eval (respond Sample.kernel) Sample.fileSystem =
          (some (.ok (proof, latest)), Sample.fileSystem) ∧
      (removeTree 3 Sample.candidate.target Sample.limits proof.2).eval (respond Sample.kernel)
        Sample.fileSystem = (some (.ok ()), fs') ∧
      Removed Sample.candidate.parent Sample.candidate.target.name Sample.candidate.node
        Sample.fileSystem fs' := by
  refine (removeTree_removes_snapshot _ Sample.holds_candidate Sample.proper_candidate
    (by decide)).resolve_right ?_
  rintro ⟨message, -, hnot⟩
  exact hnot Sample.allowed_candidate

end ClusterState.CacheRetention
