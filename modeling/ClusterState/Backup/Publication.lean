import ClusterState.Backup.Retention

/-! # A published export is recognised

The stage becomes an export with one rename, and by then it passes. So every run
of the exporter leaves a directory in order, wherever it is cut.
-/

namespace ClusterState.Backup

open Concurrency

variable {Content : Type} {py : Python Content} {s : State Content}

/-! ## What the recognisers return -/

section Lists

variable {α β : Type} {f : α → Except Failure β}

theorem mapM_ok_iff {xs : List α} :
    (∃ ys, xs.mapM f = .ok ys) ↔ ∀ x ∈ xs, ∃ y, f x = .ok y := by
  induction xs with
  | nil => exact ⟨fun _ => nofun, fun _ => ⟨[], rfl⟩⟩
  | cons x xs ih =>
    rw [List.forall_mem_cons, ← ih, List.mapM_cons]
    constructor
    · rintro ⟨ys, h⟩
      obtain ⟨y, hy, h⟩ := Data.bind_eq_ok.mp h
      obtain ⟨ys, hys, -⟩ := Data.bind_eq_ok.mp h
      exact ⟨⟨y, hy⟩, ys, hys⟩
    · rintro ⟨⟨y, hy⟩, ys, hys⟩
      refine ⟨y :: ys, ?_⟩
      rw [hy, hys]
      rfl

theorem mem_of_mapM {xs : List α} {ys : List β} (h : xs.mapM f = .ok ys) {y : β} (hy : y ∈ ys) :
    ∃ x ∈ xs, f x = .ok y := by
  induction xs generalizing ys with
  | nil =>
    cases h
    cases hy
  | cons x xs ih =>
    rw [List.mapM_cons] at h
    obtain ⟨y', hy', h⟩ := Data.bind_eq_ok.mp h
    obtain ⟨ys', hys', h⟩ := Data.bind_eq_ok.mp h
    cases h
    rcases List.mem_cons.mp hy with rfl | hy
    · exact ⟨x, List.mem_cons_self, hy'⟩
    · obtain ⟨x', hx', hok⟩ := ih hys' hy
      exact ⟨x', List.mem_cons_of_mem x hx', hok⟩

theorem mem_mapM_of {xs : List α} {ys : List β} (h : xs.mapM f = .ok ys) {x : α} (hx : x ∈ xs)
    {y : β} (hy : f x = .ok y) : y ∈ ys := by
  induction xs generalizing ys with
  | nil => cases hx
  | cons x' xs ih =>
    rw [List.mapM_cons] at h
    obtain ⟨y', hy', h⟩ := Data.bind_eq_ok.mp h
    obtain ⟨ys', hys', h⟩ := Data.bind_eq_ok.mp h
    cases h
    rcases List.mem_cons.mp hx with rfl | hx
    · rw [hy] at hy'
      cases hy'
      exact List.mem_cons_self
    · exact List.mem_cons_of_mem _ (ih hys' hx)

theorem forM_ok {f : α → Except Failure PUnit} {xs : List α} (h : ∀ x ∈ xs, f x = .ok ()) :
    xs.forM f = .ok () := by
  induction xs with
  | nil => rfl
  | cons x xs ih =>
    change (f x >>= fun _ => xs.forM f) = .ok ()
    rw [h x List.mem_cons_self]
    exact ih fun x hx => h x (List.mem_cons_of_mem _ hx)

theorem mem_sorted {κ : Type} {key : κ → List Nat} {found : List (κ × String)} {x : κ × String} :
    x ∈ sorted key found ↔ x ∈ found := (List.perm_insertionSort _ found).mem_iff

theorem snd_mem_of_dropLast {κ : Type} {keep : Nat} {completions : List (κ × String)}
    {name : String} (h : name ∈ dropLast keep completions) : ∃ x ∈ completions, x.2 = name := by
  obtain ⟨x, hx, rfl⟩ := List.mem_map.mp h
  exact ⟨x, List.mem_of_mem_take hx, rfl⟩

end Lists

theorem owned_of_completedExport {name : String} {e : Entry Content} {x : Nat × String}
    (h : completedExport py name e = .ok (some x)) : Owned py .exports x.2 := by
  cases e with
  | other => cases h
  | directory d =>
    simp only [completedExport, matchName_append] at h
    split at h
    · cases h
    · rename_i timestamp version hmatch
      obtain ⟨_, -, h⟩ := Data.bind_eq_ok.mp h
      obtain ⟨_, -, h⟩ := Data.bind_eq_ok.mp h
      obtain ⟨_, -, h⟩ := Data.bind_eq_ok.mp h
      obtain ⟨_, -, h⟩ := Data.bind_eq_ok.mp h
      cases h
      exact Option.isSome_iff_exists.mpr ⟨_, hmatch⟩

theorem owned_of_completedArchive {name : String} {e : Entry Content} {x : Utc × String}
    (h : completedArchive py name e = .ok (some x)) : Owned py .dbArchives x.2 := by
  unfold completedArchive at h
  split at h
  · rename_i hname
    cases e with
    | other => cases h
    | directory d =>
      obtain ⟨_, -, h⟩ := Data.bind_eq_ok.mp h
      obtain ⟨_, -, h⟩ := Data.bind_eq_ok.mp h
      obtain ⟨_, -, h⟩ := Data.bind_eq_ok.mp h
      obtain ⟨_, -, h⟩ := Data.bind_eq_ok.mp h
      obtain ⟨_, -, h⟩ := Data.bind_eq_ok.mp h
      obtain ⟨_, -, h⟩ := Data.bind_eq_ok.mp h
      obtain ⟨_, -, h⟩ := Data.bind_eq_ok.mp h
      obtain ⟨_, -, h⟩ := Data.bind_eq_ok.mp h
      cases h
      exact hname
  · cases h

theorem owned_of_completed {p : Place Content} {found : List (Nat × String)}
    (h : completed py p = .ok found) {x : Nat × String} (hx : x ∈ found) :
    Owned py .exports x.2 := by
  obtain ⟨listed, hlisted, h⟩ := Data.bind_eq_ok.mp h
  cases h
  rw [mem_sorted, List.reduceOption_mem_iff] at hx
  obtain ⟨entry, -, hentry⟩ := mem_of_mapM hlisted hx
  exact owned_of_completedExport hentry

theorem owned_of_completedDbArchives {p : Place Content} {found : List (Utc × String)}
    (h : completedDbArchives py p = .ok found) {x : Utc × String} (hx : x ∈ found) :
    Owned py .dbArchives x.2 := by
  cases p with
  | absent =>
    cases h
    cases hx
  | other => cases h
  | directory attributes entries =>
    obtain ⟨_, -, h⟩ := Data.bind_eq_ok.mp h
    obtain ⟨listed, hlisted, h⟩ := Data.bind_eq_ok.mp h
    cases h
    rw [mem_sorted, List.reduceOption_mem_iff] at hx
    obtain ⟨entry, -, hentry⟩ := mem_of_mapM hlisted hx
    exact owned_of_completedArchive hentry

def Accepts (py : Python Content) (s : State Content) : Prop :=
  (∃ found, completed py (s.places .exports) = .ok found) ∧
    ∃ found, completedDbArchives py (s.places .dbArchives) = .ok found

theorem completed_ok_iff {p : Place Content} :
    (∃ found, completed py p = .ok found) ↔
      ∀ name e, p.lookup name = some e → ∃ found, completedExport py name e = .ok found := by
  have hmap : (∃ found, completed py p = .ok found) ↔
      ∃ found, (entries p).mapM (fun entry => completedExport py entry.1 entry.2) = .ok found := by
    constructor
    · rintro ⟨found, h⟩
      obtain ⟨listed, hlisted, -⟩ := Data.bind_eq_ok.mp h
      exact ⟨listed, hlisted⟩
    · rintro ⟨listed, hlisted⟩
      exact ⟨_, by rw [completed, hlisted]; rfl⟩
  rw [hmap, mapM_ok_iff]
  cases p with
  | absent => exact ⟨fun _ _ _ => nofun, fun _ => nofun⟩
  | other => exact ⟨fun _ _ _ => nofun, fun _ => nofun⟩
  | directory attributes entries =>
    exact ⟨fun h name e he => h ⟨name, e⟩ (AList.mem_lookup_iff.mp he),
      fun h entry hentry => h entry.1 entry.2 (AList.mem_lookup_iff.mpr hentry)⟩

theorem completedDbArchives_ok_iff {p : Place Content} (hp : PrivatePlace p) :
    (∃ found, completedDbArchives py p = .ok found) ↔
      ∀ name e, p.lookup name = some e → ∃ found, completedArchive py name e = .ok found := by
  cases p with
  | absent => exact ⟨fun _ _ _ => nofun, fun _ => ⟨[], rfl⟩⟩
  | other => rcases hp with hp | hp <;> cases hp
  | directory attributes entries =>
    have hattributes : attributes = ⟨1000, 1000, 0o700⟩ := by
      rcases hp with hp | hp
      · cases hp
      · exact Option.some.inj hp
    have hmap : (∃ found, completedDbArchives py (.directory attributes entries) = .ok found) ↔
        ∃ found, entries.entries.mapM (fun entry => completedArchive py entry.1 entry.2) =
          .ok found := by
      constructor
      · rintro ⟨found, h⟩
        obtain ⟨_, -, h⟩ := Data.bind_eq_ok.mp h
        obtain ⟨listed, hlisted, -⟩ := Data.bind_eq_ok.mp h
        exact ⟨listed, hlisted⟩
      · rintro ⟨listed, hlisted⟩
        refine ⟨sorted Utc.key listed.reduceOption, ?_⟩
        rw [completedDbArchives, privateDirectory, require_of hattributes, hlisted]
        rfl
    rw [hmap, mapM_ok_iff]
    exact ⟨fun h name e he => h ⟨name, e⟩ (AList.mem_lookup_iff.mp he),
      fun h entry hentry => h entry.1 entry.2 (AList.mem_lookup_iff.mpr hentry)⟩

theorem Orderly.accepts_iff (h : Orderly py s) : Accepts py s ↔ s.emptying = none := by
  constructor
  · rintro ⟨hexports, hdbArchives⟩
    by_contra hsome
    obtain ⟨⟨l, name⟩, hemptying⟩ := Option.ne_none_iff_exists'.mp hsome
    obtain ⟨e, he, hnot⟩ := h.emptying l name hemptying
    cases l with
    | exports => exact hnot (completed_ok_iff.mp hexports name e he)
    | dbArchives =>
      exact hnot ((completedDbArchives_ok_iff (h.privatePlace _)).mp hdbArchives name e he)
  · intro hnone
    have hpasses : ∀ l name e, s.entry l name = some e → Passes py l name e := fun l name e he =>
      h.passes l name e he (by rw [hnone]; nofun)
    exact ⟨completed_ok_iff.mpr (hpasses .exports),
      (completedDbArchives_ok_iff (h.privatePlace _)).mpr (hpasses .dbArchives)⟩

/-! ## What a stage becomes -/

def Plain (py : Python Content) (c : Char) : Prop := (py.decimal c).isSome ∨ c = '_' ∨ c = '.'

theorem plain_of_digits {n v v' : Nat} {cs rest : List Char}
    (h : digits py n v cs = some (v', rest)) :
    ∃ front, cs = front ++ rest ∧ ∀ c ∈ front, Plain py c := by
  induction n generalizing v cs with
  | zero =>
    cases h
    exact ⟨[], rfl, nofun⟩
  | succ n ih =>
    cases cs with
    | nil => cases h
    | cons c cs =>
      rw [digits] at h
      split at h
      · rename_i d hd
        obtain ⟨front, rfl, hfront⟩ := ih h
        refine ⟨c :: front, rfl, fun c' hc' => ?_⟩
        rcases List.mem_cons.mp hc' with rfl | hc'
        · exact .inl (by rw [hd]; rfl)
        · exact hfront c' hc'
      · cases h

theorem plain_of_number {cs front rest : List Char} (h : number py cs = some (front, rest)) :
    cs = front ++ rest ∧ ∀ c ∈ front, Plain py c := by
  rw [number, List.span_eq_takeWhile_dropWhile] at h
  split at h
  · cases h
  · rename_i c more rest' heq
    cases h
    obtain ⟨htake, hdrop⟩ := Prod.ext_iff.mp heq
    simp only at htake hdrop
    refine ⟨?_, fun c' hc' => ?_⟩
    · rw [← htake, ← hdrop, List.takeWhile_append_dropWhile]
    · rw [← htake] at hc'
      exact .inl (List.mem_takeWhile_imp (p := fun c => (py.decimal c).isSome) hc')

theorem append_of_literal {text : String} {cs rest : List Char} (h : literal text cs = some rest) :
    cs = text.toList ++ rest := by
  unfold literal at h
  split at h
  · rename_i hfront
    cases h
    exact (List.prefix_iff_eq_append.mp hfront).symm
  · cases h

theorem plain_of_matchStem {stem : String} {found : Nat × String}
    (h : matchStem py stem = some found) : ∀ c ∈ stem.toList, Plain py c := by
  simp only [matchStem, Option.bind_eq_bind, Option.bind_eq_some_iff, Prod.exists] at h
  obtain ⟨_, cs₁, h₁, cs₂, h₂, _, cs₃, h₃, cs₄, h₄, _, cs₅, h₅, cs₆, h₆, _, cs₇, h₇, cs₈, h₈, major,
    cs₉, h₉, cs₁₀, h₁₀, minor, cs₁₁, h₁₁, cs₁₂, h₁₂, patch, cs₁₃, h₁₃, h⟩ := h
  obtain ⟨f₁, e₁, p₁⟩ := plain_of_digits h₁
  obtain ⟨f₃, e₃, p₃⟩ := plain_of_digits h₃
  obtain ⟨f₅, e₅, p₅⟩ := plain_of_digits h₅
  obtain ⟨f₇, e₇, p₇⟩ := plain_of_digits h₇
  obtain ⟨e₉, p₉⟩ := plain_of_number h₉
  obtain ⟨e₁₁, p₁₁⟩ := plain_of_number h₁₁
  obtain ⟨e₁₃, p₁₃⟩ := plain_of_number h₁₃
  have hend : cs₁₃ = [] := by
    by_contra hne
    rw [if_neg hne] at h
    cases h
  have hunderscore : ∀ c ∈ "_".toList, Plain py c := by
    intro c hc
    exact .inr (.inl (List.mem_singleton.mp hc))
  have hdot : ∀ c ∈ ".".toList, Plain py c := by
    intro c hc
    exact .inr (.inr (List.mem_singleton.mp hc))
  rw [e₁, append_of_literal h₂, e₃, append_of_literal h₄, e₅, append_of_literal h₆, e₇,
    append_of_literal h₈, e₉, append_of_literal h₁₀, e₁₁, append_of_literal h₁₂, e₁₃, hend]
  simp only [List.forall_mem_append]
  exact ⟨p₁, hunderscore, p₃, hunderscore, p₅, hunderscore, p₇, hunderscore, p₉, hdot, p₁₁, hdot, p₁₃,
    List.forall_mem_nil _⟩

theorem return_not_mem_checksumText {c : Content} {name : String}
    (hname : '\r' ∉ name.toList) : '\r' ∉ (checksumText (py.sha256 c) name).toList := by
  simp only [checksumText, String.toList_append, List.mem_append, not_or]
  refine ⟨⟨⟨fun h => ?_, by decide⟩, hname⟩, by decide⟩
  exact absurd (py.sha256_hex c _ h) (by decide)

theorem return_not_mem_name {target : String} {found : Nat × String}
    (h : matchStem py target = some found) : '\r' ∉ (target ++ backupSuffix).toList := by
  rw [String.toList_append, List.mem_append, not_or]
  refine ⟨fun hmem => ?_, by decide⟩
  rcases plain_of_matchStem h _ hmem with hdigit | hunderscore | hdot
  · rw [py.decimal_return] at hdigit
    cases hdigit
  · exact absurd hunderscore (by decide)
  · exact absurd hdot (by decide)

theorem append_suffix_ne {target name : String} (h : ¬ backupSuffix.toList <:+ name.toList) :
    target ++ backupSuffix ≠ name := by
  rintro rfl
  exact h (by simp)

def stagedFiles (name : String) (archive yml sha : File Content) : AList fun _ : String => Leaf Content :=
  (((∅ : AList fun _ : String => Leaf Content).insert name (.file archive)).insert
    "backup_information.yml" (.file yml)).insert "archive.sha256" (.file sha)

section Staged

variable {target : String} {archive yml sha : File Content}

theorem keys_stagedFiles : (stagedFiles (target ++ backupSuffix) archive yml sha).keys =
    ["archive.sha256", "backup_information.yml", target ++ backupSuffix] := by
  have hyml : target ++ backupSuffix ≠ "backup_information.yml" := append_suffix_ne (by decide)
  have hsha : target ++ backupSuffix ≠ "archive.sha256" := append_suffix_ne (by decide)
  simp [stagedFiles, AList.keys_insert, hyml, hsha]

theorem lookup_stagedFiles : (stagedFiles (target ++ backupSuffix) archive yml sha).lookup
    (target ++ backupSuffix) = some (.file archive) := by
  rw [stagedFiles, AList.lookup_insert_ne (append_suffix_ne (by decide)),
    AList.lookup_insert_ne (append_suffix_ne (by decide)), AList.lookup_insert]

theorem passes_of_stage {found : Nat × String} (hmatch : matchStem py target = some found)
    (hprivate : ∀ entry ∈ (stagedFiles (target ++ backupSuffix) archive yml sha).entries,
      privateFile entry.2 = .ok ())
    (htext : sha.content =
      py.ofText (checksumText (py.sha256 archive.content) (target ++ backupSuffix))) :
    Passes py .exports target
      (.directory ⟨State.newDirectory, stagedFiles (target ++ backupSuffix) archive yml sha⟩) := by
  refine ⟨some (found.1, target), ?_⟩
  generalize hd : (⟨State.newDirectory, stagedFiles (target ++ backupSuffix) archive yml sha⟩ :
    Directory Content) = d
  have hfiles : exactFiles d (exportFiles target) "unexpected completed export contents" =
      .ok () := by
    subst hd
    have hkeys : (stagedFiles (target ++ backupSuffix) archive yml sha).keys ⊆ exportFiles target ∧
        exportFiles target ⊆ (stagedFiles (target ++ backupSuffix) archive yml sha).keys := by
      rw [keys_stagedFiles, exportFiles]
      simp
    rw [exactFiles, privateDirectory, State.newDirectory, require_of rfl, require_of hkeys]
    exact forM_ok hprivate
  have hread : readText py d "archive.sha256" =
      .ok (checksumText (py.sha256 archive.content) (target ++ backupSuffix)) := by
    have hdecoded : py.text sha.content =
        some (checksumText (py.sha256 archive.content) (target ++ backupSuffix)) := by
      rw [htext, py.text_ofText _ (return_not_mem_checksumText (return_not_mem_name hmatch))]
    have hcontent : content d "archive.sha256" = .ok sha.content := by
      rw [content, ← hd, stagedFiles, AList.lookup_insert]
    unfold readText
    rw [hcontent]
    dsimp only [bind, Except.bind]
    rw [hdecoded]
  have hdigest : digest py d (target ++ backupSuffix) = .ok (py.sha256 archive.content) := by
    rw [digest, content, ← hd, lookup_stagedFiles]
    rfl
  simp only [completedExport, matchName_append, hmatch]
  rw [hfiles, hread, hdigest]
  change (require _ _ >>= fun _ => Except.ok _) = _
  rw [require_of rfl]
  rfl

end Staged

/-! ## Publishing -/

section Publish

variable {α β : Type} {Q : β → State Content → Prop}

theorem entry_putFile {l : Location} {path : String} {d : Directory Content} (name : String)
    (f : File Content) (h : s.entry l path = some (.directory d)) :
    (s.putFile l path name f).entry l path =
      some (.directory { d with files := d.files.insert name (.file f) }) := by
  rw [State.putFile, h]
  exact State.entry_put (Place.attributes_of_lookup h)

theorem emptying_putFile {l : Location} {path name : String} {f : File Content} :
    (s.putFile l path name f).emptying = s.emptying := by
  unfold State.putFile
  split <;> rfl

theorem achieves_write {hidden name : String} {content : Content} {d : Directory Content}
    {next : Unit → Export Content β}
    (hentry : s.entry .exports ("." ++ hidden) = some (.directory d)) (hnone : s.emptying = none)
    (hnext : ∀ f t, f.content = content →
      t.entry .exports ("." ++ hidden) =
        some (.directory { d with files := d.files.insert name (.file f) }) →
      t.emptying = none → Achieves py Q (next ()) t) :
    Achieves py Q (act (.write ("." ++ hidden) name content) >>= fun x => orFail x >>= next) s := by
  refine achieves_act ⟨hidden, rfl⟩ fun x t _ hperforms => achieves_orFail fun _ hok => ?_
  obtain ⟨-, hfail⟩ | ⟨f, rfl, hcontent⟩ := hperforms
  · rw [hfail] at hok
    cases hok
  · exact hnext f _ (hcontent hok) (entry_putFile name f hentry) (emptying_putFile.trans hnone)

theorem achieves_checkDigest {path name checksum reason : String} {d : Directory Content}
    {next : Unit → Export Content β} (hentry : s.entry .exports path = some (.directory d))
    (hnext : digest py d name = .ok checksum → Achieves py Q (next ()) s) :
    Achieves py Q (checkDigest py path name checksum reason >>= next) s := by
  have hcheck : Achieves py (fun _ t => t = s ∧ digest py d name = .ok checksum)
      (checkDigest py path name checksum reason) s := by
    refine achieves_directoryAt fun d' _ hd' => achieves_lift fun found hfound => ?_
    cases hentry.symm.trans hd'
    by_cases heq : found = checksum
    · subst heq
      rw [require_of rfl]
      exact ⟨rfl, hfound⟩
    · rw [require, if_neg heq]
      trivial
  refine hcheck.bind fun _ t ht => ?_
  obtain ⟨rfl, hdigest⟩ := ht
  exact hnext hdigest

theorem achieves_sync {next : Unit → Export Content β} (hnext : Achieves py Q (next ()) s) :
    Achieves py Q (act .sync >>= fun x => orFail x >>= next) s :=
  achieves_read trivial fun _ _ _ => achieves_orFail fun _ _ => hnext

theorem achieves_checkStage {listed : List ((_ : String) × Leaf Content)} :
    Achieves py (fun _ t => t = s ∧ ∀ entry ∈ listed, privateFile entry.2 = .ok ())
      (checkStage listed) s := by
  induction listed with
  | nil => exact ⟨rfl, nofun⟩
  | cons entry rest ih =>
    refine achieves_lift fun _ hprivate => achieves_sync (ih.mono (fun _ t ht => ?_) fun _ _ => id)
    exact ⟨ht.1, List.forall_mem_cons.mpr ⟨hprivate, ht.2⟩⟩

theorem achieves_publish {p : Prepared Content} {hidden : String} {found : Nat × String}
    (hmatch : matchStem py p.target = some found) (hname : p.name = p.target ++ backupSuffix)
    (hentry : s.entry .exports ("." ++ hidden) = some (.directory ⟨State.newDirectory, ∅⟩))
    (hnone : s.emptying = none) :
    Achieves py (fun _ t => t.emptying = none) (publish py p ("." ++ hidden)) s := by
  refine achieves_act ⟨hidden, rfl⟩ fun x t _ hperforms => achieves_orFail fun _ hok => ?_
  obtain ⟨-, hfail⟩ | ⟨archive, rfl⟩ := hperforms
  · rw [hfail] at hok
    cases hok
  have hwritten := entry_putFile p.name archive hentry
  have hnone' : (s.putFile .exports ("." ++ hidden) p.name archive).emptying = none :=
    emptying_putFile.trans hnone
  generalize s.putFile .exports ("." ++ hidden) p.name archive = t at hwritten hnone'
  refine achieves_directoryAt fun d _ hd => achieves_lift fun _ _ => ?_
  refine achieves_checkDigest hwritten fun hdigest => ?_
  refine achieves_write hwritten hnone' fun yml t₁ _ hwritten₁ hnone₁ => ?_
  refine achieves_write hwritten₁ hnone₁ fun sha t₂ hsum hwritten₂ hnone₂ => ?_
  refine achieves_directoryAt fun d₂ _ hd₂ => ?_
  cases hwritten₂.symm.trans hd₂
  refine achieves_checkStage.bind fun _ t₃ hstage => ?_
  obtain ⟨rfl, hprivate⟩ := hstage
  refine achieves_checkDigest hwritten₂ fun _ => achieves_sync ?_
  have hsum' : py.sha256 archive.content = p.checksum := by
    rw [digest, content, AList.lookup_insert] at hdigest
    exact Except.ok.inj hdigest
  rw [hname] at hwritten₂ hprivate hsum
  rw [← hsum'] at hsum
  refine achieves_act ⟨hnone₂, fun e he => ?_⟩ fun x t₄ _ hperforms =>
    achieves_orFail fun _ hok => ?_
  · cases hwritten₂.symm.trans he
    exact passes_of_stage hmatch hprivate hsum
  · have hnone₄ : t₄.emptying = none := by
      obtain ⟨rfl, -⟩ | heffect := hperforms
      · exact hnone₂
      · simp only [State.effect] at heffect
        split at heffect
        · cases heffect
          exact hnone₂
        · cases heffect
    apply achieves_sync
    refine achieves_directoryAt fun d₅ _ _ => achieves_lift fun found _ => ?_
    unfold require
    split
    · exact hnone₄
    · trivial

end Publish

end ClusterState.Backup
