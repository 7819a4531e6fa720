import ClusterState.CacheRetention.Sweeping

/-! # The survey before the sweep

What the survey finds of the roots can be deleted in any order, unless candidates share
a symbolic link.
-/

namespace ClusterState.CacheRetention

open ClusterState.Data.PythonText Concurrency

/-- The roots with all that is below them, all on one device. No directory has two names. -/
structure FileSystem.HoldsTrees (H : Host) (device : Device) (fs : FileSystem) (trees : List Tree) :
    Prop where
  holds : ∀ t ∈ trees, fs.HoldsTree t
  device_eq : ∀ t ∈ trees, t.identity.1 = device
  depth : ∀ t ∈ trees, t.content.depth ≤ H.fuel
  distinct : (trees.flatMap fun t => t.identity :: t.content.directories).Nodup

/-- No symbolic link has names in two candidates. -/
structure FileSystem.Stands (H : Host) (device : Device) (fs : FileSystem) (trees : List Tree) :
    Prop extends fs.HoldsTrees H device trees where
  links : (trees.flatMap Tree.candidates).Pairwise fun c c' =>
    ∀ i ∈ c.content.leaves, i ∈ c'.content.leaves → (fs.stat i).isSymlink = false

section Candidates

variable {H : Host} {device : Device} {fs : FileSystem} {t t' : Tree} {c c' : Candidate}
  {p : Found × Candidate}

theorem mem_candidates (h : c ∈ t.candidates) : ∃ name i children,
    (name, .directory i children) ∈ t.content.nodes ∧ c = t.candidate name i children ∧
      (skipped ⟨t.root.path, name⟩ || storeNames.contains name) = false := by
  obtain ⟨⟨name, node⟩, hmem, hc⟩ := List.mem_filterMap.mp h
  cases node with
  | leaf i => cases hc
  | directory i children =>
    rw [Tree.candidateAt, Option.ite_none_left_eq_some, Bool.not_eq_true] at hc
    exact ⟨name, i, children, hmem, (Option.some.inj hc.2).symm, hc.1⟩

theorem directories_subset_of_mem {n : Name × Node} {f : Forest} (h : n ∈ f.nodes) :
    n.2.directories ⊆ f.directories := by
  intro i hi
  rw [← Forest.flatMap_directories]
  exact List.mem_flatMap.mpr ⟨n, h, hi⟩

theorem Candidate.directories_subset (h : c ∈ t.candidates) :
    c.node.directories ⊆ t.content.directories := by
  obtain ⟨name, i, children, hmem, rfl, -⟩ := mem_candidates h
  exact directories_subset_of_mem hmem

theorem Candidate.parent_eq (h : c ∈ t.candidates) : c.parent = t.identity := by
  obtain ⟨name, i, children, hmem, rfl, -⟩ := mem_candidates h
  rfl

theorem Candidate.holds_of_mem (ht : fs.HoldsTree t) (h : c ∈ t.candidates) : fs.Holds c := by
  obtain ⟨name, i, children, hmem, rfl, -⟩ := mem_candidates h
  obtain ⟨hdir, hperm, hascends, hshows⟩ := Forest.showsNode_of_mem ht.shows ht.ascends hmem
  have hentry := has_of_perm ht.ascends ht.entries _ (Forest.mem_top hmem)
  exact ⟨ht.root, hentry, hdir, hperm, hascends, hshows⟩

theorem Candidate.depth_of_mem (hdepth : t.content.depth ≤ H.fuel) (h : c ∈ t.candidates) :
    c.content.depth < H.fuel := by
  obtain ⟨name, i, children, hmem, rfl, -⟩ := mem_candidates h
  exact (Nat.lt_of_succ_le (Forest.depth_of_mem hmem)).trans_le hdepth

theorem Candidate.proper_of_mem (hnodup : (t.identity :: t.content.directories).Nodup)
    (h : c ∈ t.candidates) : c.Proper := by
  obtain ⟨hidentity, hnodup⟩ := List.nodup_cons.mp hnodup
  have hsubset := Candidate.directories_subset h
  obtain ⟨name, i, children, hmem, rfl, -⟩ := mem_candidates h
  rw [← Forest.flatMap_directories, List.nodup_flatMap] at hnodup
  refine List.nodup_cons.mpr ⟨fun hparent => hidentity (hsubset hparent), ?_⟩
  exact hnodup.1 _ hmem

theorem Tree.pairwise_apart (ht : fs.HoldsTree t)
    (hnodup : (t.identity :: t.content.directories).Nodup) :
    t.candidates.Pairwise Candidate.Apart := by
  obtain ⟨hidentity, hnodup⟩ := List.nodup_cons.mp hnodup
  have hnames : t.content.nodes.Pairwise fun n n' => n.1 ≠ n'.1 := by
    have hnodup : (t.content.nodes.map Prod.fst).Nodup := by
      rw [Forest.fst_nodes]
      exact ht.ascends.nodup
    exact List.pairwise_map.mp hnodup
  rw [← Forest.flatMap_directories, List.nodup_flatMap] at hnodup
  rw [Tree.candidates, List.pairwise_filterMap]
  refine ((hnames.and hnodup.2).imp_of_mem ?_)
  rintro n n' hn hn' ⟨hname, hdisjoint⟩ c hc c' hc'
  have hmem : c ∈ t.candidates := List.mem_filterMap.mpr ⟨n, hn, hc⟩
  have hmem' : c' ∈ t.candidates := List.mem_filterMap.mpr ⟨n', hn', hc'⟩
  obtain ⟨name, node⟩ := n
  obtain ⟨name', node'⟩ := n'
  cases node with
  | leaf i => cases hc
  | directory i children =>
    cases node' with
    | leaf i => cases hc'
    | directory i' children' =>
      have hparent := fun h => hidentity (Candidate.directories_subset hmem h)
      have hparent' := fun h => hidentity (Candidate.directories_subset hmem' h)
      rw [Tree.candidateAt, Option.ite_none_left_eq_some] at hc hc'
      obtain rfl := Option.some.inj hc.2
      obtain rfl := Option.some.inj hc'.2
      exact ⟨hdisjoint, hparent', hparent, fun _ => hname⟩

theorem Candidate.apart_of_trees
    (hdisjoint : (t.identity :: t.content.directories).Disjoint (t'.identity :: t'.content.directories))
    (h : c ∈ t.candidates) (h' : c' ∈ t'.candidates) : c.Apart c' := by
  have hsubset := Candidate.directories_subset h
  have hsubset' := Candidate.directories_subset h'
  have hparent := Candidate.parent_eq h
  have hparent' := Candidate.parent_eq h'
  constructor
  · intro i hi hi'
    exact hdisjoint (List.mem_cons_of_mem _ (hsubset hi)) (List.mem_cons_of_mem _ (hsubset' hi'))
  · rw [hparent]
    exact fun hi => hdisjoint List.mem_cons_self (List.mem_cons_of_mem _ (hsubset' hi))
  · rw [hparent']
    exact fun hi => hdisjoint (List.mem_cons_of_mem _ (hsubset hi)) List.mem_cons_self
  · intro heq
    rw [hparent, hparent'] at heq
    exact (hdisjoint List.mem_cons_self (heq ▸ List.mem_cons_self)).elim

end Candidates

section Surveys

variable {H : Host} {device : Device} {fs : FileSystem} {t : Tree} {c c' : Candidate}
  {p q : Found × Candidate} {trees : List Tree} {root : Root}

theorem foundAs_eq_some (h : foundAs H fs device root c = some p) : p.2 = c ∧ p.1.root = root ∧
    p.1.target = c.target ∧ ∃ tally,
      c.scan H.python (limitsOf root device H.mounted H.busy) fs = .ok tally ∧
        tally.proof H.python = p.1.proof := by
  rw [foundAs] at h
  split at h
  · rename_i tally hscan
    obtain rfl := Option.some.inj h
    exact ⟨rfl, rfl, rfl, tally, hscan, rfl⟩
  · cases h

theorem mem_admitted (h : p ∈ t.admitted H fs device) :
    ∃ c ∈ t.candidates, foundAs H fs device t.root c = some p := List.mem_filterMap.mp h

theorem isRegular_of_passes {limits : Limits} {i : Identity} (h : Passes limits fs i)
    (hleaf : (fs.stat i).isDirectory = false) (hlink : (fs.stat i).isSymlink = false) :
    (fs.stat i).isRegular = true := by
  rw [Passes, checkEntry] at h
  split at h
  · cases h
  · split at h
    · cases h
    · rename_i hkind
      simpa [hleaf, hlink] using fun hregular => hkind (.inr hregular)

theorem sharesRegular_of_foundAs {root' : Root} (hc : fs.Holds c)
    (h : foundAs H fs device root c = some p)
    (hlinks : ∀ i ∈ c.content.leaves, i ∈ c'.content.leaves → (fs.stat i).isSymlink = false)
    (h' : foundAs H fs device root' c' = some q) : p.2.SharesRegular fs q.2 := by
  obtain ⟨hp, -, -, tally, hscan, -⟩ := foundAs_eq_some h
  obtain ⟨hq, -⟩ := foundAs_eq_some h'
  rw [hp, hq]
  rcases c.scan_cases H.python (limitsOf root device H.mounted H.busy) fs with
    ⟨-, -, -, hallowed⟩ | ⟨message, hrefused, -⟩
  · intro i hi hi'
    exact isRegular_of_passes (hallowed.2.2 i hi) (Forest.not_isDirectory_of_mem hc.shows hi)
      (hlinks i hi hi')
  · cases hscan.symm.trans hrefused

theorem FileSystem.HoldsTrees.nodup (h : fs.HoldsTrees H device trees) (ht : t ∈ trees) :
    (t.identity :: t.content.directories).Nodup := (List.nodup_flatMap.mp h.distinct).1 t ht

theorem FileSystem.HoldsTrees.pending (h : fs.HoldsTrees H device trees) (hp : p ∈ admitted H fs device trees) :
    Pending H device fs p := by
  obtain ⟨t, ht, hp⟩ := List.mem_flatMap.mp hp
  obtain ⟨c, hc, hfound⟩ := mem_admitted hp
  obtain ⟨rfl, hroot, htarget, hscan⟩ := foundAs_eq_some hfound
  have hparent := Candidate.parent_eq hc
  exact {
    target := htarget
    root := by
      obtain ⟨name, i, children, -, heq, -⟩ := mem_candidates hc
      rw [hroot, heq]
      rfl
    holds := Candidate.holds_of_mem (h.holds t ht) hc
    proper := Candidate.proper_of_mem (h.nodup ht) hc
    depth := Candidate.depth_of_mem (h.depth t ht) hc
    parent := hparent ▸ (h.holds t ht).directory
    device_eq := hparent ▸ h.device_eq t ht
    scan := by
      have hlimits : limitsFor H device p = limitsOf t.root device H.mounted H.busy := by
        rw [limitsFor, hroot]
      rw [hlimits]
      exact hscan }

theorem FileSystem.HoldsTrees.apart (h : fs.HoldsTrees H device trees) :
    (admitted H fs device trees).Pairwise fun p q => p.2.Apart q.2 := by
  rw [admitted, List.pairwise_flatMap]
  constructor
  · intro t ht
    rw [Tree.admitted, List.pairwise_filterMap]
    apply (Tree.pairwise_apart (h.holds t ht) (h.nodup ht)).imp
    intro c c' hapart p hp q hq
    rw [(foundAs_eq_some hp).1, (foundAs_eq_some hq).1]
    exact hapart
  · apply (List.nodup_flatMap.mp h.distinct).2.imp
    intro t t' hdisjoint p hp q hq
    obtain ⟨c, hc, hfound⟩ := mem_admitted hp
    obtain ⟨c', hc', hfound'⟩ := mem_admitted hq
    rw [(foundAs_eq_some hfound).1, (foundAs_eq_some hfound').1]
    exact Candidate.apart_of_trees hdisjoint hc hc'

theorem FileSystem.Stands.shared (h : fs.Stands H device trees) :
    (admitted H fs device trees).Pairwise fun p q => p.2.SharesRegular fs q.2 := by
  obtain ⟨hlinks, hlinks'⟩ := List.pairwise_flatMap.mp h.links
  rw [admitted, List.pairwise_flatMap]
  constructor
  · intro t ht
    rw [Tree.admitted, List.pairwise_filterMap]
    apply (hlinks t ht).imp_of_mem
    intro c c' hc _ hlinks p hp q hq
    exact sharesRegular_of_foundAs (Candidate.holds_of_mem (h.holds t ht) hc) hp hlinks hq
  · apply hlinks'.imp_of_mem
    intro t t' ht _ hlinks p hp q hq
    obtain ⟨c, hc, hfound⟩ := mem_admitted hp
    obtain ⟨c', hc', hfound'⟩ := mem_admitted hq
    have hholds := Candidate.holds_of_mem (h.holds t ht) hc
    exact sharesRegular_of_foundAs hholds hfound (hlinks c hc c' hc') hfound'

/-- Everything that is admitted can be deleted, in the order of the policy. -/
theorem FileSystem.HoldsTrees.surveyed (h : fs.HoldsTrees H device trees)
    (hshared : (admitted H fs device trees).Pairwise fun p q => p.2.SharesRegular fs q.2)
    (roots : List Root) : Surveyed H device fs (inOrder roots (admitted H fs device trees)) := by
  have hsurveyed : Surveyed H device fs (admitted H fs device trees) :=
    ⟨fun p hp => h.pending hp, h.apart, hshared⟩
  exact hsurveyed.perm (List.perm_insertionSort _ _).symm

end Surveys

/-! ## The survey -/

section Looking

variable {H : Host} {device : Device} {fs : FileSystem} {t : Tree} {trees : List Tree}
  {settings : Settings}

theorem eval_attempt_of {α : Type} {m : Retain α} {x : Except Failure α}
    (h : m.eval H.respond fs = (some x, fs)) :
    m.attempt.eval H.respond fs = (some (.ok x), fs) := by
  rw [Program.eval_attempt, h]
  rfl

/-- Looking at an entry finds a candidate, or protects it. -/
theorem eval_examine (ht : fs.HoldsTree t) (hdepth : t.content.depth ≤ H.fuel) {n : Name × Node}
    (hn : n ∈ t.content.nodes)
    (hkept : skipped ⟨t.root.path, n.1⟩ = false) :
    (∃ p, (t.candidateAt n).bind (foundAs H fs device t.root) = some p ∧
      (examine t.root device H.mounted H.busy ⟨t.root.path, n.1⟩).eval H.respond fs =
        (some (.ok p.1), fs)) ∨
    ∃ text, (t.candidateAt n).bind (foundAs H fs device t.root) = none ∧
      (examine t.root device H.mounted H.busy ⟨t.root.path, n.1⟩).eval H.respond fs =
        (some (.error (.refuse text)), fs) := by
  have hlookup := has_of_perm ht.ascends ht.entries _ (Forest.mem_top hn)
  have hlstat : H.respond (.lstatChild ⟨t.root.path, n.1⟩) fs =
      some (.ok (fs.stat n.2.identity), fs) := by
    have hbind : ((fs.directories t.root.path).bind fun d => fs.lookup d n.1) = some n.2.identity := by
      rw [ht.root]
      exact hlookup
    simp only [Host.respond, hbind]
  have hnode := Forest.showsNode_of_mem ht.shows ht.ascends hn
  rw [examine, Program.eval_bind_ok (eval_call hlstat)]
  obtain ⟨name, node⟩ := n
  cases node with
  | leaf i =>
    have hleaf : (fs.stat i).isDirectory = false := hnode
    have hnot : ¬(fs.stat (Node.leaf i).identity).isDirectory = true := by
      rw [Bool.not_eq_true]
      exact hleaf
    rw [if_neg hnot]
    exact .inr ⟨_, rfl, rfl⟩
  | directory i children =>
    have hdir : (fs.stat (Node.directory i children).identity).isDirectory = true := hnode.1
    rw [if_pos hdir]
    have hcandidate : t.candidateAt (name, .directory i children) =
        if storeNames.contains name then none else some (t.candidate name i children) := by
      rw [Tree.candidateAt, hkept, Bool.false_or]
    rw [hcandidate]
    by_cases hstore : storeNames.contains name = true
    · rw [if_pos hstore, if_pos hstore]
      exact .inr ⟨_, rfl, rfl⟩
    · have hholds : fs.Holds (t.candidate name i children) :=
        ⟨ht.root, hlookup, hdir, hnode.2.1, hnode.2.2.1, hnode.2.2.2⟩
      have hfuel : (t.candidate name i children).content.depth < H.fuel :=
        (Nat.lt_of_succ_le (Forest.depth_of_mem hn)).trans_le hdepth
      have hsnapshot : H.respond (.snapshot ⟨t.root.path, name⟩
          (limitsOf t.root device H.mounted H.busy) false) fs =
            some (((t.candidate name i children).scan H.python
              (limitsOf t.root device H.mounted H.busy) fs).map
                fun tally => (tally.proof H.python, tally.latest), fs) :=
        walk_eq (eval_snapshot (by simp) hholds hfuel)
      rw [if_neg hstore, if_neg hstore, Option.bind_some, foundAs]
      rcases (t.candidate name i children).scan_cases H.python
        (limitsOf t.root device H.mounted H.busy) fs with ⟨tally, hscan, -⟩ | ⟨message, hscan, -⟩
      · rw [hscan] at hsnapshot ⊢
        refine .inl ⟨_, rfl, ?_⟩
        rw [Program.eval_bind_ok (eval_call hsnapshot)]
        rfl
      · rw [hscan] at hsnapshot ⊢
        refine .inr ⟨message, rfl, ?_⟩
        have hcall : (call (.snapshot ⟨t.root.path, name⟩ (limitsOf t.root device H.mounted H.busy)
            false)).eval H.respond fs = (some (.error (.refuse message)), fs) := by
          rw [call, Program.eval_ask hsnapshot]
          rfl
        exact Program.eval_bind_error hcall

theorem eval_collect (ht : fs.HoldsTree t) (hdepth : t.content.depth ≤ H.fuel)
    {l : List (Name × Node)} (hl : l ⊆ t.content.nodes) :
    (collect t.root device H.mounted H.busy (l.map Prod.fst)).eval H.respond fs =
      (some (.ok (((l.filterMap t.candidateAt).filterMap (foundAs H fs device t.root)).map Prod.fst)),
        fs) := by
  induction l with
  | nil => rfl
  | cons n l ih =>
    obtain ⟨hn, hl⟩ := List.cons_subset.mp hl
    have ih := ih hl
    rw [List.filterMap_filterMap] at ih ⊢
    rw [List.map_cons, collect, List.filterMap_cons]
    by_cases hkept : skipped ⟨t.root.path, n.1⟩ = true
    · have hnone : t.candidateAt n = none := by
        obtain ⟨name, node⟩ := n
        cases node with
        | leaf i => rfl
        | directory i children =>
          rw [Tree.candidateAt, hkept, Bool.true_or]
          rfl
      rw [if_pos hkept, hnone]
      exact ih
    · rw [if_neg hkept]
      rcases eval_examine ht hdepth hn (Bool.eq_false_iff.mpr hkept) with
        ⟨p, hp, heval⟩ | ⟨text, hnone, heval⟩
      · rw [Program.eval_bind_ok (eval_attempt_of heval), hp]
        dsimp only
        rw [Program.eval_bind_ok ih]
        rfl
      · rw [Program.eval_bind_ok (eval_attempt_of heval), hnone]
        exact ih

def Tree.looked (fs : FileSystem) (t : Tree) : Root × Metadata := (t.root, fs.stat t.identity)

theorem eval_collectAll (hholds : ∀ t ∈ trees, fs.HoldsTree t)
    (hdevice : ∀ t ∈ trees, t.identity.1 = device) (hdepth : ∀ t ∈ trees, t.content.depth ≤ H.fuel) :
    (collectAll H.mounted H.busy (trees.map (Tree.looked fs))).eval H.respond fs =
      (some (.ok ((admitted H fs device trees).map Prod.fst)), fs) := by
  induction trees with
  | nil => rfl
  | cons t l ih =>
    obtain ⟨ht, hholds⟩ := List.forall_mem_cons.mp hholds
    obtain ⟨hdevice, hdevices⟩ := List.forall_mem_cons.mp hdevice
    obtain ⟨hdepth, hdepths⟩ := List.forall_mem_cons.mp hdepth
    have hiterdir : H.respond (.iterdir t.root.path) fs =
        some (.ok (H.kernel.listed fs t.identity), fs) := by
      simp only [Host.respond, Host.atPath, ht.root]
    have hnames : sorted (H.kernel.listed fs t.identity) = t.content.nodes.map Prod.fst := by
      rw [Forest.fst_nodes]
      exact sorted_eq ht.ascends.pairwise
        ((H.kernel.listed_perm fs t.identity).trans (ht.entries.map Prod.fst))
    have hst : (fs.stat t.identity).device = device := hdevice
    have hadmitted : admitted H fs device (t :: l) =
        t.admitted H fs device ++ admitted H fs device l := List.flatMap_cons
    rw [List.map_cons, Tree.looked, collectAll, Program.eval_bind_ok (eval_call hiterdir), hnames, hst,
      Program.eval_bind_ok (eval_collect ht hdepth (List.Subset.refl _)),
      Program.eval_bind_ok (ih hholds hdevices hdepths), hadmitted, List.map_append]
    rfl

theorem eval_checkRoots (h : ∀ t ∈ trees, fs.HoldsTree t) :
    (checkRoots (trees.map Tree.root)).eval H.respond fs =
      (some (.ok (trees.map (Tree.looked fs))), fs) := by
  induction trees with
  | nil => rfl
  | cons t l ih =>
    obtain ⟨ht, h⟩ := List.forall_mem_cons.mp h
    rw [List.map_cons, checkRoots, Program.eval_bind_ok (eval_call (respond_lstat ht.root)),
      Program.eval_bind_ok (ih h)]
    rfl

theorem eval_checkKinds (h : ∀ t ∈ trees, fs.HoldsTree t) :
    (checkKinds (trees.map (Tree.looked fs))).eval H.respond fs = (some (.ok ()), fs) := by
  induction trees with
  | nil => rfl
  | cons t l ih =>
    obtain ⟨ht, h⟩ := List.forall_mem_cons.mp h
    have hdir : (fs.stat t.identity).isDirectory = true := ht.directory
    rw [List.map_cons, Tree.looked, checkKinds, if_pos hdir, ih h]

theorem commonDevice_looked (hne : trees ≠ []) (h : ∀ t ∈ trees, t.identity.1 = device) :
    commonDevice (trees.map (Tree.looked fs)) = some device := by
  cases trees with
  | nil => exact (hne rfl).elim
  | cons t l =>
    obtain ⟨ht, h⟩ := List.forall_mem_cons.mp h
    have ht : (fs.stat t.identity).device = device := ht
    have hall : (l.map (Tree.looked fs)).all (fun p => decide (p.2.device = (fs.stat t.identity).device)) =
        true := by
      rw [List.all_eq_true]
      intro p hp
      obtain ⟨t', ht', rfl⟩ := List.mem_map.mp hp
      exact decide_eq_true ((h t' ht').trans ht.symm)
    rw [List.map_cons, Tree.looked, commonDevice, if_pos hall, ht]

theorem ranked_admitted (roots : List Root) (l : List (Found × Candidate)) :
    ranked roots (l.map Prod.fst) = (inOrder roots l).map Prod.fst :=
  (List.map_insertionSort (fun p q : Found × Candidate => rank roots p.1 ≤ rank roots q.1)
    (fun a b => rank roots a ≤ rank roots b) Prod.fst l fun _ _ _ _ => Iff.rfl).symm

end Looking

/-! ## The sweep -/

def sweptWith (H : Host) (device : Device) (fs fs₁ : FileSystem) (trees : List Tree) : Swept :=
  ⟨trees.map (Tree.looked fs), device, H.mounted, H.busy, decide (67 ≤ H.used fs₁)⟩

section Sweep

variable {H : Host} {device : Device} {fs : FileSystem} {trees : List Tree} {settings : Settings}

theorem eval_reclaimAll_calm {l : List Found} :
    (reclaimAll settings device false l).eval H.respond fs = (some (.ok ()), fs) := by
  induction l with
  | nil => rfl
  | cons found l ih =>
    have hreclaim : (reclaim settings device false found).eval H.respond fs = (some (.ok ()), fs) := rfl
    rw [reclaimAll, Program.eval_bind_ok hreclaim, ih]

theorem eval_sweep (hexecute : settings.execute = true) (hne : trees ≠ [])
    (h : fs.HoldsTrees H device trees)
    (hshared : (admitted H fs device trees).Pairwise fun p q => p.2.SharesRegular fs q.2) :
    ∃ fs₁ fs₂ taken, (sweep settings (trees.map Tree.root)).eval H.respond fs =
        (some (.ok (sweptWith H device fs fs₁ trees)), fs₂) ∧
      Deleted ((expiredOf settings (inOrder (trees.map Tree.root)
        (admitted H fs device trees))).map Prod.snd) fs fs₁ ∧
      ((67 ≤ H.used fs₁ ∧ Relieved H.used ((freshOf settings (inOrder (trees.map Tree.root)
          (admitted H fs device trees))).map Prod.snd) taken fs₁ fs₂) ∨
        (¬67 ≤ H.used fs₁ ∧ fs₂ = fs₁)) := by
  have hmounts : H.respond .mounts fs = some (.ok H.mounted, fs) := rfl
  have hopened : H.respond .opened fs = some (.ok H.busy, fs) := rfl
  have hsurveyed : Surveyed H device fs ([] ++ inOrder (trees.map Tree.root)
    (admitted H fs device trees)) := h.surveyed hshared (trees.map Tree.root)
  obtain ⟨fs₁, hexpired, hdeleted, hfresh⟩ := eval_deleteExpired hexecute hsurveyed
  have hused : H.respond (.used (firstPath (trees.map Tree.root))) fs₁ = some (.ok (H.used fs₁), fs₁) :=
    rfl
  rw [sweep, Program.eval_bind_ok (eval_checkRoots h.holds),
    Program.eval_bind_ok (eval_checkKinds h.holds), commonDevice_looked hne h.device_eq]
  dsimp only
  rw [Program.eval_bind_ok (eval_call hmounts), Program.eval_bind_ok (eval_call hopened),
    Program.eval_bind_ok (eval_collectAll h.holds h.device_eq h.depth), ranked_admitted,
    Program.eval_bind_ok hexpired, Program.eval_bind_ok (eval_call hused)]
  by_cases hpressure : 67 ≤ H.used fs₁
  · rw [List.nil_append] at hfresh
    obtain ⟨taken, fs₂, hreclaim, hrelieved⟩ := eval_reclaimAll hexecute hfresh
    rw [decide_eq_true hpressure, Program.eval_bind_ok hreclaim]
    refine ⟨fs₁, fs₂, taken, ?_, hdeleted, .inl ⟨hpressure, hrelieved⟩⟩
    rw [sweptWith, decide_eq_true hpressure]
    rfl
  · rw [decide_eq_false hpressure, Program.eval_bind_ok eval_reclaimAll_calm]
    refine ⟨fs₁, fs₁, [], ?_, hdeleted, .inr ⟨hpressure, rfl⟩⟩
    rw [sweptWith, decide_eq_false hpressure]
    rfl

/-- Nothing else changing, the sweep comes to its end. It has deleted all that was too old, and
then, if the file system was too full, of the rest the first ones until there was room, in the
order of the policy, each candidate whole and nothing else. -/
theorem sweep_deletes_selected (hexecute : settings.execute = true) (hne : trees ≠ [])
    (h : fs.Stands H device trees) :
    ∃ fs₁ fs₂ taken, (sweep settings (trees.map Tree.root)).eval H.respond fs =
        (some (.ok (sweptWith H device fs fs₁ trees)), fs₂) ∧
      Deleted ((expiredOf settings (inOrder (trees.map Tree.root)
        (admitted H fs device trees))).map Prod.snd) fs fs₁ ∧
      ((67 ≤ H.used fs₁ ∧ Relieved H.used ((freshOf settings (inOrder (trees.map Tree.root)
          (admitted H fs device trees))).map Prod.snd) taken fs₁ fs₂) ∨
        (¬67 ≤ H.used fs₁ ∧ fs₂ = fs₁)) :=
  eval_sweep hexecute hne h.toHoldsTrees h.shared

end Sweep

namespace Sample

def host : Host where
  python := ⟨fun _ => true, id, fun time => time⟩
  kernel := kernel
  fuel := 4
  mounted := []
  busy := []
  used fs := 60 + 10 * (fs.entries (inode 2)).length
  other _ _ := none

def tree : Tree where
  root := ⟨builds, 7⟩
  identity := inode 2
  content := .directory (codePoints "a") (inode 10) contentOfA
    (.directory (codePoints "b") (inode 20) contentOfB .nil)

def policy : Settings := ⟨true, fun _ => 5⟩

theorem executes_policy : policy.execute = true := rfl

/-- The link in the first workspace is younger than the rest. -/
def aged : FileSystem :=
  { fileSystem with
    attributes i := { fileSystem.attributes i with mtime := if i.2 = 31 then 9 else 0 } }

def candidateA : Candidate := tree.candidate (codePoints "a") (inode 10) contentOfA

def candidateB : Candidate := tree.candidate (codePoints "b") (inode 20) contentOfB

theorem holds_tree : aged.HoldsTree tree where
  root := rfl
  directory := rfl
  entries := .swap _ _ _
  ascends := ⟨by decide, ascends_contentOfA, by decide, ⟨by decide, trivial⟩, trivial⟩
  shows := ⟨rfl, .swap _ _ _, ⟨rfl, rfl, .refl _, ⟨rfl, trivial⟩, trivial⟩, rfl, .refl _,
    ⟨rfl, trivial⟩, trivial⟩

theorem candidates_tree : tree.candidates = [candidateA, candidateB] := by
  have ha : (skipped ⟨builds, codePoints "a"⟩ || storeNames.contains (codePoints "a")) = false := by
    decide +kernel
  have hb : (skipped ⟨builds, codePoints "b"⟩ || storeNames.contains (codePoints "b")) = false := by
    decide +kernel
  have hcandidate (name : Name) (i : Identity) (children : Forest)
      (h : (skipped ⟨builds, name⟩ || storeNames.contains name) = false) :
      tree.candidateAt (name, .directory i children) = some (tree.candidate name i children) := by
    rw [Tree.candidateAt]
    exact if_neg (Bool.eq_false_iff.mp h)
  have hnodes : tree.content.nodes = [(codePoints "a", .directory (inode 10) contentOfA),
      (codePoints "b", .directory (inode 20) contentOfB)] := rfl
  rw [Tree.candidates, hnodes, List.filterMap_cons_some (hcandidate _ _ _ ha),
    List.filterMap_cons_some (hcandidate _ _ _ hb), List.filterMap_nil]
  rfl

theorem stands_tree : aged.Stands host (8, 1) [tree] where
  holds := List.forall_mem_singleton.mpr holds_tree
  device_eq := List.forall_mem_singleton.mpr rfl
  depth := List.forall_mem_singleton.mpr (by decide)
  distinct := by decide
  links := by
    rw [List.flatMap_singleton, candidates_tree]
    apply List.pairwise_pair.mpr
    intro i _ hi
    rw [List.mem_singleton.mp hi]
    rfl

theorem limitsOf_tree : limitsOf tree.root (8, 1) [] [] = limits := by
  have hlinks : decide (tree.root.path = workspaceRoot) = true := decide_eq_true rfl
  rw [limitsOf, hlinks]
  rfl

theorem exists_foundAs {c : Candidate} {latest : ℚ}
    (hlatest : (c.scan host.python limits aged).map Tally.latest = .ok (latest : WithBot ℚ)) :
    ∃ found, foundAs host aged (8, 1) tree.root c = some (found, c) ∧ found.latest = latest := by
  rw [foundAs]
  have hlimits : limitsOf tree.root (8, 1) host.mounted host.busy = limits := limitsOf_tree
  rw [hlimits]
  cases hscan : c.scan host.python limits aged with
  | error e =>
    rw [hscan] at hlatest
    cases hlatest
  | ok tally =>
    rw [hscan] at hlatest
    exact ⟨_, rfl, Except.ok.inj hlatest⟩

theorem latest_candidateA :
    (candidateA.scan host.python limits aged).map Tally.latest = .ok ((9 : ℚ) : WithBot ℚ) := by
  rfl

theorem latest_candidateB :
    (candidateB.scan host.python limits aged).map Tally.latest = .ok ((0 : ℚ) : WithBot ℚ) := by
  rfl

theorem exists_admitted : ∃ a b, admitted host aged (8, 1) [tree] = [(a, candidateA), (b, candidateB)] ∧
    a.expired policy = false ∧ b.expired policy = true := by
  obtain ⟨a, ha, hlatest⟩ := exists_foundAs latest_candidateA
  obtain ⟨b, hb, hlatest'⟩ := exists_foundAs latest_candidateB
  refine ⟨a, b, ?_, ?_, ?_⟩
  · rw [admitted, List.flatMap_singleton, Tree.admitted, candidates_tree,
      List.filterMap_cons_some ha, List.filterMap_cons_some hb, List.filterMap_nil]
  · apply decide_eq_false
    rw [hlatest, WithBot.coe_le_coe]
    norm_num [policy]
  · apply decide_eq_true
    rw [hlatest', WithBot.coe_le_coe]
    simp [policy]

theorem filter_inOrder {roots : List Root} {l : List (Found × Candidate)} {p : Found × Candidate}
    {q : Found × Candidate → Bool} (h : l.filter q = [p]) : (inOrder roots l).filter q = [p] :=
  List.perm_singleton.mp (h ▸ (List.perm_insertionSort _ l).filter q)

theorem selected : ((expiredOf policy (inOrder ([tree].map Tree.root)
      (admitted host aged (8, 1) [tree]))).map Prod.snd) = [candidateB] ∧
    ((freshOf policy (inOrder ([tree].map Tree.root)
      (admitted host aged (8, 1) [tree]))).map Prod.snd) = [candidateA] := by
  obtain ⟨a, b, hadmitted, ha, hb⟩ := exists_admitted
  rw [hadmitted, expiredOf, freshOf, filter_inOrder (p := (b, candidateB)) (by simp [ha, hb]),
    filter_inOrder (p := (a, candidateA)) (by simp [ha, hb])]
  exact ⟨rfl, rfl⟩

theorem entries_of_removed {c : Candidate} {fs fs' : FileSystem} (hparent : c.parent = inode 2)
    (h : Removed c.parent c.target.name c.node fs fs') :
    fs'.entries (inode 2) = (fs.entries (inode 2)).filter fun e => e.1 ≠ c.target.name := by
  rw [← hparent]
  exact h.entries

theorem entries_of_deleted {fs₁ : FileSystem} (h : Deleted [candidateB] aged fs₁) :
    fs₁.entries (inode 2) = [(codePoints "a", inode 10)] := by
  cases h with
  | cons hremoved hrest =>
    cases hrest
    rw [entries_of_removed rfl hremoved]
    decide

theorem taken_of_relieved {fs₁ fs₂ : FileSystem} {taken : List Candidate}
    (hentries : fs₁.entries (inode 2) = [(codePoints "a", inode 10)])
    (h : Relieved host.used [candidateA] taken fs₁ fs₂) :
    taken = [candidateA] ∧ host.used fs₂ = 60 := by
  cases h with
  | enough henough =>
    have hused : host.used fs₁ = 70 := by
      norm_num [host, hentries]
    rw [hused] at henough
    norm_num at henough
  | next _ hremoved hrest =>
    have hnone : ∀ fs : FileSystem, fs.entries (inode 2) = [] → host.used fs = 60 := by
      intro fs h
      norm_num [host, h]
    have hempty := entries_of_removed rfl hremoved
    rw [hentries] at hempty
    cases hrest with
    | exhausted => exact ⟨rfl, hnone _ hempty⟩
    | enough => exact ⟨rfl, hnone _ hempty⟩

end Sample

/-- One workspace goes for its age. The other one has to make room, although they share a file. -/
theorem sweep_deletes_selected_shared :
    ∃ fs₁ fs₂, (sweep Sample.policy ([Sample.tree].map Tree.root)).eval Sample.host.respond
        Sample.aged =
          (some (.ok (sweptWith Sample.host (8, 1) Sample.aged fs₁ [Sample.tree])), fs₂) ∧
      Deleted [Sample.candidateB] Sample.aged fs₁ ∧ Sample.host.used fs₁ = 70 ∧
      Relieved Sample.host.used [Sample.candidateA] [Sample.candidateA] fs₁ fs₂ ∧
      Sample.host.used fs₂ = 60 := by
  obtain ⟨fs₁, fs₂, taken, heval, hdeleted, hpressure⟩ :=
    sweep_deletes_selected Sample.executes_policy (by simp) Sample.stands_tree
  rw [Sample.selected.1] at hdeleted
  rw [Sample.selected.2] at hpressure
  have hentries := Sample.entries_of_deleted hdeleted
  have hused : Sample.host.used fs₁ = 70 := by
    norm_num [Sample.host, hentries]
  rw [hused] at hpressure
  obtain ⟨-, hrelieved⟩ := hpressure.resolve_right (by norm_num)
  obtain ⟨rfl, hroom⟩ := Sample.taken_of_relieved hentries hrelieved
  exact ⟨fs₁, fs₂, heval, hdeleted, hused, hrelieved, hroom⟩

end ClusterState.CacheRetention
