import ClusterState.CacheRetention.Fingerprints
import ClusterState.CacheRetention.Removal

/-! # What a digest says of a tree

Two trees have the same digest if and only if they have the same entries, wherever and
whenever they are read. The age of a tree is that of its youngest file.
-/

namespace ClusterState.CacheRetention

open ClusterState.Data.PythonText ClusterState.Data.PrefixCodes Concurrency

/-! ## Paths -/

/-- A name that a directory can have an entry of. -/
structure Ordinary (name : Name) : Prop where
  nonempty : name ≠ []
  noSlash : slash ∉ name
  notDot : name ≠ [dot]

section Paths

variable {name : Name} {relative relative' : List Name}

theorem intercalate_cons (name name' : Name) (relative : List Name) :
    [slash].intercalate (name :: name' :: relative) =
      name ++ slash :: [slash].intercalate (name' :: relative) := by
  rw [List.intercalate_cons_cons, List.append_assoc]
  rfl

/-- The first part of a path is the text before its first slash. -/
theorem intercalate_inj (h : ∀ name ∈ relative, Ordinary name) (h' : ∀ name ∈ relative', Ordinary name)
    (hne : relative ≠ []) (hne' : relative' ≠ [])
    (heq : [slash].intercalate relative = [slash].intercalate relative') : relative = relative' := by
  induction relative generalizing relative' with
  | nil => exact (hne rfl).elim
  | cons name relative ih =>
    obtain ⟨hname, htail⟩ := List.forall_mem_cons.mp h
    cases relative' with
    | nil => exact (hne' rfl).elim
    | cons name' relative' =>
      obtain ⟨hname', htail'⟩ := List.forall_mem_cons.mp h'
      have hslash (c : CodePoint) (hc : c ∈ name) : c ≠ slash := fun h => hname.noSlash (h ▸ hc)
      have hslash' (c : CodePoint) (hc : c ∈ name') : c ≠ slash := fun h => hname'.noSlash (h ▸ hc)
      cases relative with
      | nil =>
        rw [List.intercalate_singleton] at heq
        cases relative' with
        | nil =>
          rw [List.intercalate_singleton] at heq
          rw [heq]
        | cons second rest =>
          rw [intercalate_cons] at heq
          exact (hname.noSlash (heq ▸ List.mem_append_right _ List.mem_cons_self)).elim
      | cons second rest =>
        rw [intercalate_cons] at heq
        cases relative' with
        | nil =>
          rw [List.intercalate_singleton] at heq
          exact (hname'.noSlash (heq ▸ List.mem_append_right _ List.mem_cons_self)).elim
        | cons second' rest' =>
          rw [intercalate_cons] at heq
          obtain ⟨rfl, hrest⟩ := SelfDelimiting.span_inj hslash hslash' (by simp) heq
          rw [ih htail htail' (List.cons_ne_nil _ _) (List.cons_ne_nil _ _) hrest]

theorem intercalate_ne_dot (h : ∀ name ∈ relative, Ordinary name) (hne : relative ≠ []) :
    [slash].intercalate relative ≠ [dot] := by
  cases relative with
  | nil => exact (hne rfl).elim
  | cons name relative =>
    have hname := h name List.mem_cons_self
    cases relative with
    | nil =>
      rw [List.intercalate_singleton]
      exact hname.notDot
    | cons second rest =>
      intro heq
      rw [intercalate_cons] at heq
      have hmem : slash ∈ [dot] := heq ▸ List.mem_append_right _ List.mem_cons_self
      exact absurd (List.mem_singleton.mp hmem) (by decide)

theorem relativePath_inj (h : ∀ name ∈ relative, Ordinary name) (h' : ∀ name ∈ relative', Ordinary name)
    (heq : relativePath relative = relativePath relative') : relative = relative' := by
  rw [relativePath, relativePath] at heq
  split at heq
  case isTrue hnil =>
    split at heq
    case isTrue hnil' => rw [hnil, hnil']
    case isFalse hne' => exact (intercalate_ne_dot h' hne' heq.symm).elim
  case isFalse hne =>
    split at heq
    case isTrue hnil' => exact (intercalate_ne_dot h hne heq).elim
    case isFalse hne' => exact intercalate_inj h h' hne hne' heq

end Paths

/-! ## Listings -/

namespace Forest

/-- All entries with their paths, in the order of the names. -/
def listing : Forest → List (List Name × Identity)
  | nil => []
  | leaf name i rest => ([name], i) :: rest.listing
  | directory name i children rest =>
    ([name], i) :: children.listing.map (fun e => (name :: e.1, e.2)) ++ rest.listing

def Named : Forest → Prop
  | nil => True
  | leaf name _ rest => Ordinary name ∧ rest.Named
  | directory name _ children rest => Ordinary name ∧ children.Named ∧ rest.Named

variable {f : Forest} {e : List Name × Identity}

theorem ordinary_of_mem_listing (h : f.Named) (he : e ∈ f.listing) : ∀ name ∈ e.1, Ordinary name := by
  induction f generalizing e with
  | nil => cases he
  | leaf name i rest ih =>
    rcases List.mem_cons.mp he with rfl | he
    · exact List.forall_mem_singleton.mpr h.1
    · exact ih h.2 he
  | directory name i children rest ihc ih =>
    obtain ⟨hname, hchildren, hrest⟩ := h
    rw [listing, List.mem_append, List.mem_cons, List.mem_map] at he
    rcases he with (rfl | ⟨e', he', rfl⟩) | he
    · exact List.forall_mem_singleton.mpr hname
    · exact List.forall_mem_cons.mpr ⟨hname, ihc hchildren he'⟩
    · exact ih hrest he

theorem head_of_mem_listing (he : e ∈ f.listing) : ∃ name ∈ f.names, ∃ rest, e.1 = name :: rest := by
  induction f generalizing e with
  | nil => cases he
  | leaf name i rest ih =>
    rcases List.mem_cons.mp he with rfl | he
    · exact ⟨name, List.mem_cons_self, [], rfl⟩
    · obtain ⟨name', hname', tail, htail⟩ := ih he
      exact ⟨name', List.mem_cons_of_mem _ hname', tail, htail⟩
  | directory name i children rest _ ih =>
    rw [listing, List.mem_append, List.mem_cons, List.mem_map] at he
    rcases he with (rfl | ⟨e', he', rfl⟩) | he
    · exact ⟨name, List.mem_cons_self, [], rfl⟩
    · exact ⟨name, List.mem_cons_self, e'.1, rfl⟩
    · obtain ⟨name', hname', tail, htail⟩ := ih he
      exact ⟨name', List.mem_cons_of_mem _ hname', tail, htail⟩

theorem lt_of_head {name name' : Name} {tail tail' : List Name} (h : name < name') :
    name :: tail < name' :: tail' := List.Lex.rel h

theorem mem_listing {i : Identity} (h : i ∈ f.directories ∨ i ∈ f.leaves) :
    ∃ relative ≠ [], (relative, i) ∈ f.listing := by
  induction f with
  | nil => rcases h with h | h <;> cases h
  | leaf name j rest ih =>
    have hlater (h : i ∈ rest.directories ∨ i ∈ rest.leaves) :
        ∃ relative ≠ [], (relative, i) ∈ (leaf name j rest).listing := by
      obtain ⟨relative, hne, hmem⟩ := ih h
      exact ⟨relative, hne, List.mem_cons_of_mem _ hmem⟩
    rcases h with h | h
    · exact hlater (.inl h)
    · rcases List.mem_cons.mp h with rfl | h
      · exact ⟨[name], List.cons_ne_nil _ _, List.mem_cons_self⟩
      · exact hlater (.inr h)
  | directory name j children rest ihc ih =>
    have hbelow (h : i ∈ children.directories ∨ i ∈ children.leaves) :
        ∃ relative ≠ [], (relative, i) ∈ (directory name j children rest).listing := by
      obtain ⟨relative, -, hmem⟩ := ihc h
      refine ⟨name :: relative, List.cons_ne_nil _ _, List.mem_append_left _ (List.mem_cons_of_mem _ ?_)⟩
      exact List.mem_map.mpr ⟨(relative, i), hmem, rfl⟩
    have hlater (h : i ∈ rest.directories ∨ i ∈ rest.leaves) :
        ∃ relative ≠ [], (relative, i) ∈ (directory name j children rest).listing := by
      obtain ⟨relative, hne, hmem⟩ := ih h
      exact ⟨relative, hne, List.mem_append_right _ hmem⟩
    rcases h with h | h
    · rcases List.mem_append.mp h with h | h
      · rcases List.mem_cons.mp h with rfl | h
        · exact ⟨[name], List.cons_ne_nil _ _, List.mem_append_left _ List.mem_cons_self⟩
        · exact hbelow (.inl h)
      · exact hlater (.inl h)
    · rcases List.mem_append.mp h with h | h
      · exact hbelow (.inr h)
      · exact hlater (.inr h)

theorem pairwise_listing (h : f.Ascends) : f.listing.Pairwise fun e e' => e.1 < e'.1 := by
  induction f with
  | nil => exact .nil
  | leaf name i rest ih =>
    refine List.pairwise_cons.mpr ⟨fun e he => ?_, ih h.2⟩
    obtain ⟨name', hname', tail, htail⟩ := head_of_mem_listing he
    rw [htail]
    exact lt_of_head (h.1 name' hname')
  | directory name i children rest ihc ih =>
    obtain ⟨hname, hchildren, hrest⟩ := h
    have hlater (e) (he : e ∈ rest.listing) (tail : List Name) : name :: tail < e.1 := by
      obtain ⟨name', hname', tail', htail⟩ := head_of_mem_listing he
      rw [htail]
      exact lt_of_head (hname name' hname')
    rw [listing, List.cons_append]
    refine List.pairwise_cons.mpr ⟨fun e he => ?_, List.pairwise_append.mpr ⟨?_, ih hrest, ?_⟩⟩
    · rcases List.mem_append.mp he with he | he
      · obtain ⟨e', he', rfl⟩ := List.mem_map.mp he
        obtain ⟨name', -, tail, htail⟩ := head_of_mem_listing he'
        rw [htail]
        exact List.Lex.cons List.Lex.nil
      · exact hlater e he []
    · exact List.pairwise_map.mpr ((ihc hchildren).imp fun hlt => List.Lex.cons hlt)
    · intro e he e' he'
      obtain ⟨e, he, rfl⟩ := List.mem_map.mp he
      exact hlater e' he' e.1

end Forest

/-! ## Digests -/

/-- The candidate itself, and all that is in it. -/
def Candidate.entries (c : Candidate) : List (List Name × Identity) :=
  ([], c.identity) :: c.content.listing

def Candidate.imprints (fs : FileSystem) (c : Candidate) : List (List Name × Imprint) :=
  c.entries.map fun e => (e.1, (fs.stat e.2).imprint)

/-- What the digest is taken of. -/
def Candidate.text (py : Python) (fs : FileSystem) (c : Candidate) : Text :=
  (c.imprints fs).flatMap fun e => encode py (relativePath e.1, e.2)

section Digests

variable {py : Python} {limits : Limits} {fs fs' : FileSystem} {f : Forest} {c c' : Candidate}
  {relative : List Name} {tally tally' : Tally}

theorem Forest.text_of_scan (h : f.scan py limits fs relative tally = .ok tally') :
    tally'.text = tally.text ++ f.listing.flatMap fun e => record py (relative ++ e.1) (fs.stat e.2) := by
  induction f generalizing relative tally tally' with
  | nil =>
    cases h
    simp [listing]
  | leaf name i rest ih =>
    rw [scan] at h
    cases hcheck : checkEntry limits limits.links (fs.stat i) with
    | error e =>
      rw [hcheck] at h
      cases h
    | ok _ =>
      rw [hcheck] at h
      rw [ih h, listing, List.flatMap_cons, ← List.append_assoc]
      rfl
  | directory name i children rest ihc ih =>
    rw [scan] at h
    cases hcheck : checkEntry limits limits.links (fs.stat i) with
    | error e =>
      rw [hcheck] at h
      cases h
    | ok _ =>
      rw [hcheck] at h
      change (children.scan py limits fs (relative ++ [name]) _ >>= _) = _ at h
      cases hscan : children.scan py limits fs (relative ++ [name])
          ((tally.note py (relative ++ [name]) (fs.stat i)).directory py (fs.stat i)) with
      | error e =>
        rw [hscan] at h
        cases h
      | ok tally₁ =>
        rw [hscan] at h
        have hpaths : (children.listing.map fun e => (name :: e.1, e.2)).flatMap
            (fun e => record py (relative ++ e.1) (fs.stat e.2)) =
              children.listing.flatMap fun e => record py (relative ++ [name] ++ e.1) (fs.stat e.2) := by
          rw [List.flatMap_map]
          exact List.flatMap_congr fun e _ => by rw [List.append_assoc, List.singleton_append]
        have htext : ((tally.note py (relative ++ [name]) (fs.stat i)).directory py (fs.stat i)).text =
            tally.text ++ record py (relative ++ [name]) (fs.stat i) := rfl
        rw [ih h, ihc hscan, htext, listing, List.flatMap_append, List.flatMap_cons, hpaths]
        simp only [List.append_assoc]

theorem Candidate.text_of_scan (h : c.scan py limits fs = .ok tally) :
    tally.text = c.text py fs := by
  rw [scan] at h
  cases hcheck : checkEntry limits false (fs.stat c.identity) with
  | error e =>
    rw [hcheck] at h
    cases h
  | ok _ =>
    rw [hcheck] at h
    have htext := Forest.text_of_scan h
    rw [htext, Candidate.text, imprints, entries, List.flatMap_map, List.flatMap_cons]
    simp only [List.nil_append, ← record_eq_encode]
    rfl

theorem eq_of_map_relativePath {l l' : List (List Name × Imprint)}
    (h : ∀ e ∈ l, ∀ name ∈ e.1, Ordinary name) (h' : ∀ e ∈ l', ∀ name ∈ e.1, Ordinary name)
    (heq : (l.map fun e => (relativePath e.1, e.2)) = l'.map fun e => (relativePath e.1, e.2)) :
    l = l' := by
  induction l generalizing l' with
  | nil => exact (List.map_eq_nil_iff.mp heq.symm).symm
  | cons e l ih =>
    cases l' with
    | nil => cases heq
    | cons e' l' =>
      obtain ⟨he, h⟩ := List.forall_mem_cons.mp h
      obtain ⟨he', h'⟩ := List.forall_mem_cons.mp h'
      obtain ⟨hhead, htail⟩ := List.cons.inj heq
      obtain ⟨hpath, himprint⟩ := Prod.mk.inj hhead
      rw [Prod.ext (relativePath_inj he he' hpath) himprint, ih h h' htail]

theorem ordinary_of_mem_imprints (h : c.content.Named) {e : List Name × Imprint} (he : e ∈ c.imprints fs) :
    ∀ name ∈ e.1, Ordinary name := by
  obtain ⟨e', he', rfl⟩ := List.mem_map.mp he
  rcases List.mem_cons.mp he' with rfl | he'
  · exact List.forall_mem_nil _
  · exact Forest.ordinary_of_mem_listing h he'

theorem pairwise_imprints (h : c.content.Ascends) : (c.imprints fs).Pairwise fun e e' => e.1 < e'.1 := by
  refine List.pairwise_map.mpr (List.pairwise_cons.mpr ⟨fun e he => ?_, Forest.pairwise_listing h⟩)
  obtain ⟨name, -, tail, htail⟩ := Forest.head_of_mem_listing he
  rw [htail]
  exact List.Lex.nil

theorem Candidate.text_eq_flatMap : c.text py fs =
    ((c.imprints fs).map fun e => (relativePath e.1, e.2)).flatMap (encode py) :=
  (List.flatMap_map _ _ _).symm

theorem imprints_of_text (h : c.content.Named) (h' : c'.content.Named)
    (htext : c.text py fs = c'.text py fs') : c.imprints fs = c'.imprints fs' := by
  rw [Candidate.text_eq_flatMap, Candidate.text_eq_flatMap] at htext
  exact eq_of_map_relativePath (fun e => ordinary_of_mem_imprints h)
    (fun e => ordinary_of_mem_imprints h')
    (selfDelimiting_encode.flatMap_injective encode_ne_nil htext)

theorem imprints_eq_of_mem_iff (h : c.content.Ascends) (h' : c'.content.Ascends)
    (hmem : ∀ e, e ∈ c.imprints fs ↔ e ∈ c'.imprints fs') : c.imprints fs = c'.imprints fs' := by
  have hpairwise : (c.imprints fs).Pairwise fun e e' => e.1 < e'.1 := pairwise_imprints h
  have hpairwise' : (c'.imprints fs').Pairwise fun e e' => e.1 < e'.1 := pairwise_imprints h'
  have hnodup : (c.imprints fs).Nodup := hpairwise.imp fun hlt heq => (heq ▸ hlt).false
  have hnodup' : (c'.imprints fs').Nodup := hpairwise'.imp fun hlt heq => (heq ▸ hlt).false
  have hperm := (List.perm_ext_iff_of_nodup hnodup hnodup').mpr hmem
  exact hperm.eq_of_pairwise (fun e e' _ _ hlt hlt' => (lt_asymm hlt hlt').elim) hpairwise hpairwise'

end Digests

/-! ## Ages -/

section Ages

variable {py : Python} {limits : Limits} {fs : FileSystem} {f : Forest} {c : Candidate}
  {relative : List Name} {tally tally' : Tally}

theorem isGreatest_foldl_max {α : Type*} [LinearOrder α] (b : α) (l : List α) :
    IsGreatest {x | x = b ∨ x ∈ l} (l.foldl max b) := by
  induction l generalizing b with
  | nil => exact ⟨.inl rfl, by simp [upperBounds]⟩
  | cons a l ih =>
    obtain ⟨hmem, hbound⟩ := ih (max b a)
    have hmax : max b a ≤ l.foldl max (max b a) := hbound (.inl rfl)
    constructor
    · rcases hmem with heq | hmem
      · rcases max_choice b a with hb | ha
        · exact .inl (heq.trans hb)
        · exact .inr (List.mem_cons.mpr (.inl (heq.trans ha)))
      · exact .inr (List.mem_cons_of_mem _ hmem)
    · rintro x (rfl | hx)
      · exact (le_max_left _ _).trans hmax
      · rcases List.mem_cons.mp hx with rfl | hx
        · exact (le_max_right _ _).trans hmax
        · exact hbound (.inr hx)

def leafAges (py : Python) (fs : FileSystem) (l : List Identity) : List (WithBot ℚ) :=
  l.map fun i => ((leafAge py (fs.stat i) : ℚ) : WithBot ℚ)

def directoryAges (py : Python) (fs : FileSystem) (l : List Identity) : List (WithBot ℚ) :=
  l.map fun i => ((py.seconds (fs.stat i).mtime : ℚ) : WithBot ℚ)

theorem leafAges_append {l l' : List Identity} :
    leafAges py fs (l ++ l') = leafAges py fs l ++ leafAges py fs l' := List.map_append

theorem directoryAges_append {l l' : List Identity} :
    directoryAges py fs (l ++ l') = directoryAges py fs l ++ directoryAges py fs l' := List.map_append

/-- No file is a file of age `⊥`. -/
def Tally.file (tally : Tally) : WithBot ℚ := tally.latestFile

theorem file_leaf {st : Metadata} :
    (tally.leaf py st).file = max tally.file ((leafAge py st : ℚ) : WithBot ℚ) := by
  rw [Tally.file, Tally.file, Tally.leaf]
  cases tally.latestFile with
  | none => exact (max_eq_right bot_le).symm
  | some latest => exact WithBot.coe_max _ _

theorem Forest.ages_of_scan (h : f.scan py limits fs relative tally = .ok tally') :
    tally'.file = (leafAges py fs f.leaves).foldl max tally.file ∧
      tally'.latestDirectory = (directoryAges py fs f.directories).foldl max tally.latestDirectory := by
  induction f generalizing relative tally tally' with
  | nil =>
    cases h
    exact ⟨rfl, rfl⟩
  | leaf name i rest ih =>
    rw [scan] at h
    cases hcheck : checkEntry limits limits.links (fs.stat i) with
    | error e =>
      rw [hcheck] at h
      cases h
    | ok _ =>
      rw [hcheck] at h
      obtain ⟨hfile, hdirectory⟩ := ih h
      rw [file_leaf] at hfile
      exact ⟨hfile, hdirectory⟩
  | directory name i children rest ihc ih =>
    rw [scan] at h
    cases hcheck : checkEntry limits limits.links (fs.stat i) with
    | error e =>
      rw [hcheck] at h
      cases h
    | ok _ =>
      rw [hcheck] at h
      change (children.scan py limits fs (relative ++ [name]) _ >>= _) = _ at h
      cases hscan : children.scan py limits fs (relative ++ [name])
          ((tally.note py (relative ++ [name]) (fs.stat i)).directory py (fs.stat i)) with
      | error e =>
        rw [hscan] at h
        cases h
      | ok tally₁ =>
        rw [hscan] at h
        obtain ⟨hfile, hdirectory⟩ := ih h
        obtain ⟨hfile₁, hdirectory₁⟩ := ihc hscan
        constructor
        · rw [hfile, hfile₁, leaves, leafAges_append, List.foldl_append]
          rfl
        · rw [hdirectory, hdirectory₁, directories, directoryAges_append, List.foldl_append]
          rfl

theorem Candidate.ages_of_scan (h : c.scan py limits fs = .ok tally) :
    tally.file = (leafAges py fs c.content.leaves).foldl max ⊥ ∧
      tally.latestDirectory =
        (directoryAges py fs (c.identity :: c.content.directories)).foldl max ⊥ := by
  rw [scan] at h
  cases hcheck : checkEntry limits false (fs.stat c.identity) with
  | error e =>
    rw [hcheck] at h
    cases h
  | ok _ =>
    rw [hcheck] at h
    exact Forest.ages_of_scan h

theorem isGreatest_of_ne_nil {l : List (WithBot ℚ)} (hne : l ≠ []) :
    IsGreatest {x | x ∈ l} (l.foldl max ⊥) := by
  obtain ⟨hmem, hbound⟩ := isGreatest_foldl_max ⊥ l
  have hupper : l.foldl max ⊥ ∈ upperBounds {x | x ∈ l} := fun x hx => hbound (.inr hx)
  rcases hmem with hbot | hmem
  · obtain ⟨a, ha⟩ := List.exists_mem_of_ne_nil l hne
    have ha' : a = l.foldl max ⊥ := by
      rw [hbot]
      exact le_bot_iff.mp (hbot ▸ hupper ha)
    exact ⟨ha' ▸ ha, hupper⟩
  · exact ⟨hmem, hupper⟩

/-- A tree is as old as its youngest file or link, or, if there is none, as its youngest directory. -/
theorem Candidate.latest_isGreatest (h : c.scan py limits fs = .ok tally) :
    (c.content.leaves ≠ [] → IsGreatest {a | a ∈ leafAges py fs c.content.leaves} tally.latest) ∧
      (c.content.leaves = [] →
        IsGreatest {a | a ∈ directoryAges py fs (c.identity :: c.content.directories)} tally.latest) := by
  obtain ⟨hfile, hdirectory⟩ := Candidate.ages_of_scan h
  constructor
  · intro hne
    have hgreatest := isGreatest_of_ne_nil (l := leafAges py fs c.content.leaves) (by simpa [leafAges])
    have hlatest : tally.latest = tally.file := by
      rw [Tally.latest, Tally.file]
      cases hnone : tally.latestFile with
      | none =>
        obtain ⟨i, -, hi⟩ := List.mem_map.mp hgreatest.1
        rw [← hfile, Tally.file, hnone] at hi
        cases hi
      | some latest => rfl
    rw [hlatest, hfile]
    exact hgreatest
  · intro hnil
    have hnone : tally.latestFile = none := by
      rw [hnil] at hfile
      exact hfile
    have hlatest : tally.latest = tally.latestDirectory := by rw [Tally.latest, hnone]
    rw [hlatest, hdirectory]
    exact isGreatest_of_ne_nil (List.cons_ne_nil _ _)

end Ages

/-! ## What `snapshot` returns -/

section Snapshots

variable {py : Python} {K K' : Kernel} {limits limits' : Limits} {fs fs' fs₁ fs₁' : FileSystem}
  {c c' : Candidate} {fuel fuel' : Nat} {proof proof' : Proof} {latest latest' : WithBot ℚ}

theorem scan_of_snapshot (h : fs.Holds c) (hdepth : c.content.depth < fuel)
    (heval : (snapshot py fuel false c.target limits).eval (respond K) fs =
      (some (.ok (proof, latest)), fs₁)) :
    ∃ tally, c.scan py limits fs = .ok tally ∧ proof = tally.proof py ∧ latest = tally.latest := by
  rw [eval_snapshot (by simp) h hdepth] at heval
  cases hscan : c.scan py limits fs with
  | error e =>
    rw [hscan] at heval
    cases heval
  | ok tally =>
    rw [hscan] at heval
    cases heval
    exact ⟨tally, rfl, rfl, rfl⟩

/-- Whatever the order in which the directories are listed, two trees have the same digest if
and only if they have the same entries. -/
theorem digest_eq_iff_same_entries
    (hsha : py.sha256 (c.text py fs) = py.sha256 (c'.text py fs') → c.text py fs = c'.text py fs')
    (h : fs.Holds c) (h' : fs'.Holds c') (hnamed : c.content.Named) (hnamed' : c'.content.Named)
    (hdepth : c.content.depth < fuel) (hdepth' : c'.content.depth < fuel')
    (heval : (snapshot py fuel false c.target limits).eval (respond K) fs =
      (some (.ok (proof, latest)), fs₁))
    (heval' : (snapshot py fuel' false c'.target limits').eval (respond K') fs' =
      (some (.ok (proof', latest')), fs₁')) :
    proof.1 = proof'.1 ↔ ∀ e, e ∈ c.imprints fs ↔ e ∈ c'.imprints fs' := by
  obtain ⟨tally, hscan, rfl, -⟩ := scan_of_snapshot h hdepth heval
  obtain ⟨tally', hscan', rfl, -⟩ := scan_of_snapshot h' hdepth' heval'
  rw [Tally.proof, Tally.proof, Candidate.text_of_scan hscan, Candidate.text_of_scan hscan']
  constructor
  · intro hdigest e
    rw [imprints_of_text hnamed hnamed' (hsha hdigest)]
  · intro hmem
    rw [Candidate.text, Candidate.text, imprints_eq_of_mem_iff h.ascends h'.ascends hmem]

/-- The age that `snapshot` returns is that of the youngest file or link, and of the youngest
directory where there is neither. -/
theorem snapshot_returns_youngest (h : fs.Holds c) (hdepth : c.content.depth < fuel)
    (heval : (snapshot py fuel false c.target limits).eval (respond K) fs =
      (some (.ok (proof, latest)), fs₁)) :
    (c.content.leaves ≠ [] → IsGreatest {a | a ∈ leafAges py fs c.content.leaves} latest) ∧
      (c.content.leaves = [] →
        IsGreatest {a | a ∈ directoryAges py fs (c.identity :: c.content.directories)} latest) := by
  obtain ⟨tally, hscan, -, rfl⟩ := scan_of_snapshot h hdepth heval
  exact Candidate.latest_isGreatest hscan

end Snapshots

namespace Sample

def python : Python := ⟨fun _ => true, id, fun time => time⟩

theorem named_contentOfA : contentOfA.Named := by
  refine ⟨⟨by decide, by decide, by decide⟩, ⟨by decide, by decide, by decide⟩, ?_, trivial⟩
  exact ⟨⟨by decide, by decide, by decide⟩, trivial⟩

def written : FileSystem :=
  { fileSystem with
    attributes i := { fileSystem.attributes i with mtime := if i.2 = 30 then 9 else 0 } }

theorem holds_written : written.Holds candidate where
  root := rfl
  entry := by decide
  directory := rfl
  entries := .swap _ _ _
  ascends := ascends_contentOfA
  shows := ⟨rfl, rfl, .refl _, ⟨rfl, trivial⟩, trivial⟩

theorem allowed_written : candidate.Allowed limits written := by
  have hdirs : ∀ i ∈ contentOfA.directories, Passes limits written i :=
    List.forall_mem_cons.mpr ⟨rfl, List.forall_mem_nil _⟩
  have hleaves : ∀ i ∈ contentOfA.leaves, Passes limits written i :=
    List.forall_mem_cons.mpr ⟨rfl, List.forall_mem_cons.mpr ⟨rfl, List.forall_mem_nil _⟩⟩
  exact ⟨rfl, hdirs, hleaves⟩

theorem depth_candidate : candidate.content.depth < 3 := by decide

theorem snapshot_candidate : ∃ proof latest, (snapshot python 3 false candidate.target limits).eval
    (respond kernel) fileSystem = (some (.ok (proof, latest)), fileSystem) :=
  exists_snapshot holds_candidate depth_candidate allowed_candidate

theorem snapshot_written : ∃ proof latest, (snapshot python 3 false candidate.target limits).eval
    (respond kernel) written = (some (.ok (proof, latest)), written) :=
  exists_snapshot holds_written depth_candidate allowed_written

end Sample

/-- A write shows in the digest exactly as it shows in the entries. -/
theorem digest_eq_iff_same_entries_written : ∃ proof proof' : Proof,
    (∃ latest, (snapshot Sample.python 3 false Sample.candidate.target Sample.limits).eval
      (respond Sample.kernel) Sample.fileSystem = (some (.ok (proof, latest)), Sample.fileSystem)) ∧
    (∃ latest, (snapshot Sample.python 3 false Sample.candidate.target Sample.limits).eval
      (respond Sample.kernel) Sample.written = (some (.ok (proof', latest)), Sample.written)) ∧
    (proof.1 = proof'.1 ↔ ∀ e, e ∈ Sample.candidate.imprints Sample.fileSystem ↔
      e ∈ Sample.candidate.imprints Sample.written) := by
  obtain ⟨proof, latest, heval⟩ := Sample.snapshot_candidate
  obtain ⟨proof', latest', heval'⟩ := Sample.snapshot_written
  refine ⟨proof, proof', ⟨latest, heval⟩, ⟨latest', heval'⟩, ?_⟩
  exact digest_eq_iff_same_entries id Sample.holds_candidate Sample.holds_written
    Sample.named_contentOfA Sample.named_contentOfA Sample.depth_candidate Sample.depth_candidate
    heval heval'

theorem snapshot_returns_youngest_written : ∃ proof latest,
    (snapshot Sample.python 3 false Sample.candidate.target Sample.limits).eval
      (respond Sample.kernel) Sample.written = (some (.ok (proof, latest)), Sample.written) ∧
    (Sample.contentOfA.leaves ≠ [] → IsGreatest
      {a | a ∈ leafAges Sample.python Sample.written Sample.contentOfA.leaves} latest) ∧
    (Sample.contentOfA.leaves = [] → IsGreatest {a | a ∈ directoryAges Sample.python Sample.written
      (Sample.candidate.identity :: Sample.contentOfA.directories)} latest) := by
  obtain ⟨proof, latest, heval⟩ := Sample.snapshot_written
  exact ⟨proof, latest, heval,
    snapshot_returns_youngest Sample.holds_written Sample.depth_candidate heval⟩

end ClusterState.CacheRetention
