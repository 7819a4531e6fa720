import ClusterState.CacheRetention.Digests

/-! # What a path leads to

A path leads to a directory, with all that is in it, or to a file. Of both, the fingerprint tells
the entries, and the age is that of the youngest file.
-/

namespace ClusterState.CacheRetention

open ClusterState.Data.PythonText ClusterState.Data.PrefixCodes Concurrency

/-- A path, the directory that it is in, and what is there. -/
structure Subtree where
  target : Target
  parent : Identity
  node : Node

structure FileSystem.HoldsSubtree (fs : FileSystem) (e : Subtree) : Prop where
  root : fs.directories e.target.root = some e.parent
  entry : fs.lookup e.parent e.target.name = some e.node.identity
  shows : fs.ShowsNode e.node

namespace Node

def content : Node → Forest
  | leaf _ => .nil
  | directory _ children => children

/-- The entries with their paths, from the node on. -/
def entries (n : Node) : List (List Name × Identity) := ([], n.identity) :: n.content.listing

def imprints (fs : FileSystem) (n : Node) : List (List Name × Imprint) :=
  n.entries.map fun e => (e.1, (fs.stat e.2).imprint)

/-- What the digest is taken of. -/
def text (py : Python) (fs : FileSystem) (n : Node) : Text :=
  (n.imprints fs).flatMap fun e => encode py (relativePath e.1, e.2)

def scan (py : Python) (limits : Limits) (fs : FileSystem) : Node → Except Failure Tally
  | leaf i => do
    checkEntry limits false (fs.stat i)
    return (Tally.empty.note py [] (fs.stat i)).leaf py (fs.stat i)
  | directory i children => do
    checkEntry limits false (fs.stat i)
    children.scan py limits fs [] ((Tally.empty.note py [] (fs.stat i)).directory py (fs.stat i))

def Allowed (limits : Limits) (fs : FileSystem) (n : Node) : Prop :=
  checkEntry limits false (fs.stat n.identity) = .ok () ∧ n.content.All (Passes limits fs)

end Node

def Candidate.subtree (c : Candidate) : Subtree := ⟨c.target, c.parent, c.node⟩

theorem FileSystem.Holds.subtree {fs : FileSystem} {c : Candidate} (h : fs.Holds c) :
    fs.HoldsSubtree c.subtree := ⟨h.root, h.entry, h.directory, h.entries, h.ascends, h.shows⟩

section Snapshots

variable {py : Python} {K : Kernel} {limits : Limits} {fs fs' : FileSystem} {n n' : Node} {e : Subtree}
  {fuel : Nat} {nativeUv : Bool} {tally : Tally} {proof : Proof} {latest : WithBot ℚ}

theorem Node.ascends (h : fs.ShowsNode n) : n.content.Ascends := by
  cases n with
  | leaf i => trivial
  | directory i children => exact h.2.2.1

/-- The scan of a node comes to an end where every entry may be touched. -/
theorem Node.scan_cases (py : Python) (limits : Limits) (fs : FileSystem) (n : Node) :
    (∃ tally, n.scan py limits fs = .ok tally ∧ tally.rootId = some n.identity ∧ n.Allowed limits fs) ∨
      ∃ message, n.scan py limits fs = .error (.refuse message) ∧ ¬n.Allowed limits fs := by
  cases n with
  | leaf i =>
    rw [scan, Allowed, identity]
    cases hcheck : checkEntry limits false (fs.stat i) with
    | error failure =>
      obtain ⟨message, rfl⟩ := checkEntry_error hcheck
      refine .inr ⟨message, rfl, fun h => ?_⟩
      cases h.1
    | ok _ => exact .inl ⟨_, rfl, rfl, rfl, by simp [content, Forest.All, Forest.directories, Forest.leaves]⟩
  | directory i children =>
    exact Candidate.scan_cases py limits fs ⟨uvRoot, i, i, children⟩

theorem eval_snapshot_subtree (huv : nativeUv = true → e.target = uvRoot) (h : fs.HoldsSubtree e)
    (hdepth : e.node.depth ≤ fuel) :
    (snapshot py fuel nativeUv e.target limits).eval (respond K) fs =
      (some ((e.node.scan py limits fs).map fun tally => (tally.proof py, tally.latest)), fs) := by
  obtain ⟨target, parent, node⟩ := e
  obtain ⟨hroot, hentry, hshows⟩ := h
  cases node with
  | leaf i =>
    obtain ⟨fuel, rfl⟩ := Nat.exists_eq_add_of_le' (show 1 ≤ fuel from hdepth)
    have hentry : fs.lookup parent target.name = some i := hentry
    have hleaf : (fs.stat i).isDirectory = false := hshows
    have hopen : respond K (.openParent target.root) fs = some (.ok parent, fs) := by
      simp only [respond, hroot]
    have hnot : ¬(nativeUv && decide (target ≠ uvRoot)) = true := by
      rw [Bool.and_eq_true, decide_eq_true_iff]
      exact fun h => h.2 (huv h.1)
    rw [snapshot, if_neg hnot, Program.eval_bind_ok (eval_perform hopen), Program.eval_bind,
      eval_visit_leaf hentry hleaf, Node.scan]
    simp only [ne_eq, not_true_eq_false, decide_false, Bool.and_false]
    cases checkEntry limits false (fs.stat i) <;> rfl
  | directory i children =>
    exact eval_snapshot (c := ⟨target, parent, i, children⟩) huv
      ⟨hroot, hentry, hshows.1, hshows.2.1, hshows.2.2.1, hshows.2.2.2⟩ hdepth

/-- `snapshot` accepts the trees all of whose entries may be touched. -/
theorem snapshot_cases (py : Python) (K : Kernel) (limits : Limits) (h : fs.HoldsSubtree e)
    (hdepth : e.node.depth ≤ fuel) :
    (∃ digest latest, (snapshot py fuel false e.target limits).eval (respond K) fs =
        (some (.ok ((digest, some e.node.identity), latest)), fs) ∧ e.node.Allowed limits fs) ∨
      ∃ message, (snapshot py fuel false e.target limits).eval (respond K) fs =
        (some (.error (.refuse message)), fs) ∧ ¬e.node.Allowed limits fs := by
  rw [eval_snapshot_subtree (by simp) h hdepth]
  rcases e.node.scan_cases py limits fs with ⟨tally, hscan, hroot, hallowed⟩ | ⟨message, hscan, hnot⟩
  · refine .inl ⟨py.sha256 tally.text, tally.latest, ?_, hallowed⟩
    rw [hscan, ← hroot]
    rfl
  · refine .inr ⟨message, ?_, hnot⟩
    rw [hscan]
    rfl

theorem Node.text_of_scan (h : n.scan py limits fs = .ok tally) : tally.text = n.text py fs := by
  cases n with
  | leaf i =>
    rw [scan] at h
    cases hcheck : checkEntry limits false (fs.stat i) with
    | error failure =>
      rw [hcheck] at h
      cases h
    | ok _ =>
      rw [hcheck] at h
      cases h
      rw [text, imprints, entries, List.flatMap_map, List.flatMap_cons]
      simp only [← record_eq_encode]
      exact (List.append_nil _).symm
  | directory i children => exact Candidate.text_of_scan (c := ⟨uvRoot, i, i, children⟩) h

theorem Node.pairwise_imprints (h : n.content.Ascends) :
    (n.imprints fs).Pairwise fun e e' => e.1 < e'.1 :=
  CacheRetention.pairwise_imprints (c := ⟨uvRoot, n.identity, n.identity, n.content⟩) h

theorem Node.imprints_of_text (h : n.content.Named) (h' : n'.content.Named)
    (htext : n.text py fs = n'.text py fs') : n.imprints fs = n'.imprints fs' :=
  @CacheRetention.imprints_of_text py fs fs' ⟨uvRoot, n.identity, n.identity, n.content⟩
    ⟨uvRoot, n'.identity, n'.identity, n'.content⟩ h h' htext

theorem Node.imprints_eq_of_mem_iff (h : n.content.Ascends) (h' : n'.content.Ascends)
    (hmem : ∀ e, e ∈ n.imprints fs ↔ e ∈ n'.imprints fs') : n.imprints fs = n'.imprints fs' :=
  @CacheRetention.imprints_eq_of_mem_iff fs fs' ⟨uvRoot, n.identity, n.identity, n.content⟩
    ⟨uvRoot, n'.identity, n'.identity, n'.content⟩ h h' hmem

/-- A node is as old as its youngest file or link, or, if there is none, as its youngest directory. -/
theorem Node.latest_isGreatest (h : n.scan py limits fs = .ok tally) :
    (n.leaves ≠ [] → IsGreatest {a | a ∈ leafAges py fs n.leaves} tally.latest) ∧
      (n.leaves = [] → IsGreatest {a | a ∈ directoryAges py fs n.directories} tally.latest) := by
  cases n with
  | leaf i =>
    rw [scan] at h
    cases hcheck : checkEntry limits false (fs.stat i) with
    | error failure =>
      rw [hcheck] at h
      cases h
    | ok _ =>
      rw [hcheck] at h
      cases h
      refine ⟨fun _ => ⟨List.mem_singleton.mpr rfl, fun a ha => ?_⟩, fun hnil => ?_⟩
      · exact (List.mem_singleton.mp ha).le
      · exact (List.cons_ne_nil _ _ hnil).elim
  | directory i children => exact Candidate.latest_isGreatest (c := ⟨uvRoot, i, i, children⟩) h

/-! ## What `snapshot` returns -/

variable {K' : Kernel} {limits' : Limits} {fs₁ fs₁' : FileSystem} {e' : Subtree} {fuel' : Nat}
  {nativeUv' : Bool} {proof' : Proof} {latest' : WithBot ℚ}

end Snapshots

namespace Sample

end Sample

end ClusterState.CacheRetention
