import ClusterState.CacheRetention.FileTrees

/-! # What `snapshot` sees

Where nothing else changes the file system, `snapshot` goes over the forest in the
order of the names, in whatever order the directories are listed.
-/

namespace ClusterState.CacheRetention

open ClusterState.Data.PythonText Concurrency

section Walks

variable {K : Kernel} {fs fs' : FileSystem} {α β : Type}

theorem eval_perform {r : Syscall Identity} {a : r.Result} (h : respond K r fs = some (.ok a, fs')) :
    (perform r).eval (respond K) fs = (some (.ok a), fs') := by
  rw [perform, Program.eval_ask h]
  rfl

theorem eval_ofExcept (x : Except Failure α) :
    (Program.ofExcept x : Walk Identity α).eval (respond K) fs = (some x, fs) := by cases x <;> rfl

theorem eval_check {x : Except Failure Unit} {m : Walk Identity α} :
    (Program.ofExcept x >>= fun _ => m).eval (respond K) fs =
      match x with
      | .ok _ => m.eval (respond K) fs
      | .error e => (some (.error e), fs) := by
  rw [Program.eval_bind, eval_ofExcept]
  cases x <;> rfl

end Walks

/-! ## Sorted names -/

section Names

variable {name : Name} {names names' : List Name}

theorem sorted_eq (hascends : names.Pairwise (· < ·)) (hperm : names'.Perm names) :
    sorted names' = names := by
  have hsorted : names.Pairwise (· ≤ ·) := hascends.imp le_of_lt
  have hsorted' : (sorted names').Pairwise (· ≤ ·) := List.pairwise_insertionSort _ names'
  have hperm' : (sorted names').Perm names := (List.perm_insertionSort _ names').trans hperm
  exact hperm'.eq_of_pairwise (fun a b _ _ => le_antisymm) hsorted' hsorted

theorem lookup_of_mem {κ ν : Type} [BEq κ] [LawfulBEq κ] {l : List (κ × ν)} {k : κ} {v : ν}
    (hnodup : (l.map Prod.fst).Nodup) (h : (k, v) ∈ l) : l.lookup k = some v := by
  induction l with
  | nil => cases h
  | cons e l ih =>
    rw [List.map_cons, List.nodup_cons] at hnodup
    rcases List.mem_cons.mp h with rfl | hmem
    · rw [List.lookup_cons_self]
    · have hne : (k == e.1) = false := by
        rw [beq_eq_false_iff_ne]
        rintro rfl
        exact hnodup.1 (List.mem_map.mpr ⟨_, hmem, rfl⟩)
      obtain ⟨k', v'⟩ := e
      rw [List.lookup_cons, hne]
      exact ih hnodup.2 hmem

end Names

namespace Forest

theorem Ascends.pairwise {f : Forest} (h : f.Ascends) : f.names.Pairwise (· < ·) := by
  induction f with
  | nil => exact .nil
  | leaf name i rest ih => exact List.pairwise_cons.mpr ⟨h.1, ih h.2⟩
  | directory name i children rest _ ih => exact List.pairwise_cons.mpr ⟨h.1, ih h.2.2⟩

theorem Ascends.nodup {f : Forest} (h : f.Ascends) : f.names.Nodup :=
  h.pairwise.imp fun hlt => ne_of_lt hlt

end Forest

def FileSystem.Has (fs : FileSystem) (d : Identity) (f : Forest) : Prop :=
  ∀ e ∈ f.top, fs.lookup d e.1 = some e.2

theorem has_of_perm {fs : FileSystem} {d : Identity} {f : Forest} (hascends : f.Ascends)
    (hperm : (fs.entries d).Perm f.top) : fs.Has d f := by
  intro e he
  refine lookup_of_mem ?_ (hperm.mem_iff.mpr he)
  rw [(hperm.map Prod.fst).nodup_iff]
  exact hascends.nodup

/-! ## The scan -/

section Scan

variable (py : Python) (limits : Limits) (fs : FileSystem)

def Forest.scan : Forest → List Name → Tally → Except Failure Tally
  | nil, _, tally => .ok tally
  | leaf name i rest, relative, tally => do
    checkEntry limits limits.links (fs.stat i)
    rest.scan relative ((tally.note py (relative ++ [name]) (fs.stat i)).leaf py (fs.stat i))
  | directory name i children rest, relative, tally => do
    checkEntry limits limits.links (fs.stat i)
    let tally ← children.scan (relative ++ [name])
      ((tally.note py (relative ++ [name]) (fs.stat i)).directory py (fs.stat i))
    rest.scan relative tally

end Scan

section Visit

variable {py : Python} {limits : Limits} {K : Kernel} {fs : FileSystem} {d i : Identity} {name : Name}
  {relative : List Name} {tally : Tally} {fuel : Nat} {f : Forest}

theorem respond_statAt (h : fs.lookup d name = some i) :
    respond K (.statAt d name) fs = some (.ok (fs.stat i), fs) := by simp only [respond, h]

theorem respond_openAt (h : fs.lookup d name = some i) (hdir : (fs.stat i).isDirectory = true) :
    respond K (.openAt d name) fs = some (.ok i, fs) := by simp only [respond, h, hdir, if_true]

theorem eval_visit_leaf (h : fs.lookup d name = some i) (hleaf : (fs.stat i).isDirectory = false) :
    (visit py limits (fuel + 1) d name relative tally).eval (respond K) fs =
      (some ((checkEntry limits (limits.links && relative ≠ []) (fs.stat i)).map fun _ =>
        (tally.note py relative (fs.stat i)).leaf py (fs.stat i)), fs) := by
  rw [visit, Program.eval_bind_ok (eval_perform (respond_statAt h)), eval_check]
  cases checkEntry limits (limits.links && relative ≠ []) (fs.stat i) with
  | error e => rfl
  | ok _ =>
    simp only [hleaf]
    rfl

theorem eval_visit_directory (h : fs.lookup d name = some i) (hdir : (fs.stat i).isDirectory = true)
    (hascends : f.Ascends) (hperm : (fs.entries i).Perm f.top) :
    (visit py limits (fuel + 1) d name relative tally).eval (respond K) fs =
      match checkEntry limits (limits.links && relative ≠ []) (fs.stat i) with
      | .ok _ => (f.names.foldlM
          (fun tally child => visit py limits fuel i child (relative ++ [child]) tally)
          ((tally.note py relative (fs.stat i)).directory py (fs.stat i))).eval (respond K) fs
      | .error e => (some (.error e), fs) := by
  rw [visit, Program.eval_bind_ok (eval_perform (respond_statAt h)), eval_check]
  cases checkEntry limits (limits.links && relative ≠ []) (fs.stat i) with
  | error e => rfl
  | ok _ =>
    have hlisted : sorted (K.listed fs i) = f.names :=
      sorted_eq hascends.pairwise ((K.listed_perm fs i).trans (hperm.map Prod.fst))
    have hlistdir : respond K (.listdir i) fs = some (.ok (K.listed fs i), fs) := rfl
    have hfstat : respond K (.fstat i) fs = some (.ok (fs.stat i), fs) := rfl
    simp only [hdir, if_true]
    rw [Program.eval_bind_ok (eval_perform (respond_openAt h hdir)),
      Program.eval_bind_ok (eval_perform hfstat), if_pos rfl,
      Program.eval_bind_ok (eval_perform hlistdir), hlisted]

theorem eval_visit_names (hshows : fs.Shows f) (hascends : f.Ascends) (hhas : fs.Has d f)
    (hdepth : f.depth ≤ fuel) :
    (f.names.foldlM (fun tally child => visit py limits fuel d child (relative ++ [child]) tally)
      tally).eval (respond K) fs = (some (f.scan py limits fs relative tally), fs) := by
  induction f generalizing d fuel relative tally with
  | nil => rfl
  | leaf name i rest ih =>
    obtain ⟨hleaf, hrest⟩ := hshows
    obtain ⟨hname, hhas⟩ := List.forall_mem_cons.mp hhas
    obtain ⟨hfuel, hdepth⟩ := max_le_iff.mp hdepth
    obtain ⟨fuel, rfl⟩ := Nat.exists_eq_add_of_le' hfuel
    rw [Forest.names_leaf, List.foldlM_cons, Program.eval_bind, eval_visit_leaf hname hleaf, Forest.scan]
    simp only [ne_eq, List.append_eq_nil_iff, List.cons_ne_nil, and_false, not_false_eq_true,
      decide_true, Bool.and_true]
    cases checkEntry limits limits.links (fs.stat i) with
    | error e => rfl
    | ok _ => exact ih hrest hascends.2 hhas hdepth
  | directory name i children rest ihc ih =>
    obtain ⟨hdir, hperm, hchildren, hrest⟩ := hshows
    obtain ⟨hname, hhas⟩ := List.forall_mem_cons.mp hhas
    obtain ⟨-, hascendsc, hascends⟩ := hascends
    obtain ⟨hfuel, hdepth⟩ := max_le_iff.mp hdepth
    obtain ⟨fuel, rfl⟩ := Nat.exists_eq_add_of_le' (le_trans (Nat.le_add_left 1 _) hfuel)
    rw [Forest.names_directory, List.foldlM_cons, Program.eval_bind,
      eval_visit_directory hname hdir hascendsc hperm, Forest.scan]
    simp only [ne_eq, List.append_eq_nil_iff, List.cons_ne_nil, and_false, not_false_eq_true,
      decide_true, Bool.and_true]
    cases checkEntry limits limits.links (fs.stat i) with
    | error e => rfl
    | ok _ =>
      dsimp only
      rw [ihc hchildren hascendsc (has_of_perm hascendsc hperm) (Nat.le_of_succ_le_succ hfuel)]
      cases children.scan py limits fs (relative ++ [name])
          ((tally.note py (relative ++ [name]) (fs.stat i)).directory py (fs.stat i)) with
      | error e => rfl
      | ok tally' => exact ih hrest hascends hhas hdepth

def Passes (limits : Limits) (fs : FileSystem) (i : Identity) : Prop :=
  checkEntry limits limits.links (fs.stat i) = .ok ()

theorem checkEntry_error {b : Bool} {st : Metadata} {e : Failure} (h : checkEntry limits b st = .error e) :
    ∃ message, e = .refuse message := by
  rw [checkEntry] at h
  split at h
  · cases h
    exact ⟨_, rfl⟩
  · split at h
    · cases h
      exact ⟨_, rfl⟩
    · cases h

/-- The scan comes to an end where every entry may be touched. -/
theorem scan_cases (py : Python) (limits : Limits) (fs : FileSystem) (f : Forest)
    (relative : List Name) (tally : Tally) :
    (∃ tally', f.scan py limits fs relative tally = .ok tally' ∧ tally'.rootId = tally.rootId ∧
      f.All (Passes limits fs)) ∨
    ∃ message, f.scan py limits fs relative tally = .error (.refuse message) ∧
      ¬f.All (Passes limits fs) := by
  induction f generalizing relative tally with
  | nil => exact .inl ⟨tally, rfl, rfl, by simp [Forest.All, Forest.directories, Forest.leaves]⟩
  | leaf name i rest ih =>
    have hall : (Forest.leaf name i rest).All (Passes limits fs) ↔
        Passes limits fs i ∧ rest.All (Passes limits fs) := by
      simp only [Forest.All, Forest.directories, Forest.leaves, List.forall_mem_cons]
      tauto
    rw [Forest.scan, hall]
    cases hcheck : checkEntry limits limits.links (fs.stat i) with
    | error e =>
      obtain ⟨message, rfl⟩ := checkEntry_error hcheck
      refine .inr ⟨message, rfl, fun h => ?_⟩
      cases hcheck.symm.trans h.1
    | ok _ =>
      apply (ih relative ((tally.note py (relative ++ [name]) (fs.stat i)).leaf py (fs.stat i))).imp
      · rintro ⟨tally', hscan, hroot, hrest⟩
        refine ⟨tally', hscan, hroot.trans ?_, hcheck, hrest⟩
        simp [Tally.leaf, Tally.note]
      · rintro ⟨message, hscan, hrest⟩
        exact ⟨message, hscan, fun h => hrest h.2⟩
  | directory name i children rest ihc ih =>
    have hall : (Forest.directory name i children rest).All (Passes limits fs) ↔
        Passes limits fs i ∧ children.All (Passes limits fs) ∧ rest.All (Passes limits fs) := by
      simp only [Forest.All, Forest.directories, Forest.leaves, List.forall_mem_cons,
        List.forall_mem_append]
      tauto
    rw [Forest.scan, hall]
    cases hcheck : checkEntry limits limits.links (fs.stat i) with
    | error e =>
      obtain ⟨message, rfl⟩ := checkEntry_error hcheck
      refine .inr ⟨message, rfl, fun h => ?_⟩
      cases hcheck.symm.trans h.1
    | ok _ =>
      rcases ihc (relative ++ [name])
        ((tally.note py (relative ++ [name]) (fs.stat i)).directory py (fs.stat i)) with
        ⟨tally₁, hscan₁, hroot₁, hchildren⟩ | ⟨message, hscan₁, hchildren⟩
      · apply (ih relative tally₁).imp
        · rintro ⟨tally', hscan, hroot, hrest⟩
          refine ⟨tally', ?_, (hroot.trans hroot₁).trans ?_, hcheck, hchildren, hrest⟩
          · exact (congrArg (· >>= fun tally => rest.scan py limits fs relative tally) hscan₁).trans hscan
          · simp [Tally.directory, Tally.note]
        · rintro ⟨message, hscan, hrest⟩
          refine ⟨message, ?_, fun h => hrest h.2.2⟩
          exact (congrArg (· >>= fun tally => rest.scan py limits fs relative tally) hscan₁).trans hscan
      · refine .inr ⟨message, ?_, fun h => hchildren h.2.1⟩
        exact congrArg (· >>= fun tally => rest.scan py limits fs relative tally) hscan₁

/-! ## Candidates -/

structure Candidate where
  target : Target
  /-- The root, and the directory itself. -/
  parent : Identity
  identity : Identity
  content : Forest

structure FileSystem.Holds (fs : FileSystem) (c : Candidate) : Prop where
  root : fs.directories c.target.root = some c.parent
  entry : fs.lookup c.parent c.target.name = some c.identity
  directory : (fs.stat c.identity).isDirectory = true
  entries : (fs.entries c.identity).Perm c.content.top
  ascends : c.content.Ascends
  shows : fs.Shows c.content

variable {c : Candidate}

def Candidate.Allowed (limits : Limits) (fs : FileSystem) (c : Candidate) : Prop :=
  checkEntry limits false (fs.stat c.identity) = .ok () ∧ c.content.All (Passes limits fs)

def Candidate.scan (py : Python) (limits : Limits) (fs : FileSystem) (c : Candidate) :
    Except Failure Tally := do
  checkEntry limits false (fs.stat c.identity)
  c.content.scan py limits fs []
    ((Tally.empty.note py [] (fs.stat c.identity)).directory py (fs.stat c.identity))

theorem Candidate.scan_cases (py : Python) (limits : Limits) (fs : FileSystem) (c : Candidate) :
    (∃ tally, c.scan py limits fs = .ok tally ∧ tally.rootId = some c.identity ∧
      c.Allowed limits fs) ∨
    ∃ message, c.scan py limits fs = .error (.refuse message) ∧ ¬c.Allowed limits fs := by
  rw [Candidate.scan, Candidate.Allowed]
  cases hcheck : checkEntry limits false (fs.stat c.identity) with
  | error e =>
    obtain ⟨message, rfl⟩ := checkEntry_error hcheck
    refine .inr ⟨message, rfl, fun h => ?_⟩
    cases h.1
  | ok _ =>
    rcases CacheRetention.scan_cases py limits fs c.content []
      ((Tally.empty.note py [] (fs.stat c.identity)).directory py (fs.stat c.identity)) with
      ⟨tally, hscan, hroot, hall⟩ | ⟨message, hscan, hall⟩
    · exact .inl ⟨tally, hscan, hroot, rfl, hall⟩
    · exact .inr ⟨message, hscan, fun h => hall h.2⟩

theorem eval_snapshot {nativeUv : Bool} (huv : nativeUv = true → c.target = uvRoot) (h : fs.Holds c)
    (hdepth : c.content.depth < fuel) :
    (snapshot py fuel nativeUv c.target limits).eval (respond K) fs =
      (some ((c.scan py limits fs).map fun tally => (tally.proof py, tally.latest)), fs) := by
  obtain ⟨fuel, rfl⟩ := Nat.exists_eq_add_of_le' (Nat.one_le_of_lt hdepth)
  have hopen : respond K (.openParent c.target.root) fs = some (.ok c.parent, fs) := by
    simp only [respond, h.root]
  have hnot : ¬(nativeUv && decide (c.target ≠ uvRoot)) = true := by
    rw [Bool.and_eq_true, decide_eq_true_iff]
    exact fun h => h.2 (huv h.1)
  rw [snapshot, if_neg hnot, Program.eval_bind_ok (eval_perform hopen), Program.eval_bind,
    eval_visit_directory h.entry h.directory h.ascends h.entries, Candidate.scan]
  simp only [ne_eq, not_true_eq_false, decide_false, Bool.and_false]
  cases checkEntry limits false (fs.stat c.identity) with
  | error e => rfl
  | ok _ =>
    dsimp only
    rw [eval_visit_names h.shows h.ascends (has_of_perm h.ascends h.entries) (Nat.le_of_lt_succ hdepth)]
    cases c.content.scan py limits fs []
        ((Tally.empty.note py [] (fs.stat c.identity)).directory py (fs.stat c.identity)) <;> rfl

theorem exists_snapshot (h : fs.Holds c) (hdepth : c.content.depth < fuel)
    (hallowed : c.Allowed limits fs) :
    ∃ proof latest, (snapshot py fuel false c.target limits).eval (respond K) fs =
      (some (.ok (proof, latest)), fs) := by
  rw [eval_snapshot (by simp) h hdepth]
  rcases c.scan_cases py limits fs with ⟨tally, hscan, -⟩ | ⟨message, -, hnot⟩
  · exact ⟨tally.proof py, tally.latest, by rw [hscan]; rfl⟩
  · exact (hnot hallowed).elim

end Visit

end ClusterState.CacheRetention
