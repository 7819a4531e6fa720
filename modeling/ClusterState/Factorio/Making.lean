import ClusterState.Factorio.Conduct

/-! # From the saves to the world

The plan follows from the regular saves and the markers. It is carried out without
touching a save, but for the legacy one, and a backup holds a copy of each.
-/

namespace ClusterState.Factorio

open Concurrency State

section Making

variable {cfg : Sources} {settings : Settings} {s₀ t u : State} {saves : List Name}

/-! ## What is there -/

structure State.Lists (t : State) (saves : List Name) : Prop where
  nodup : saves.Nodup
  mem_iff : ∀ name, name ∈ saves ↔ isSave name = true ∧ isFile (t.entry .saves name) = true

theorem ensures_regularSaves {names : List Name} :
    Ensures cfg settings s₀ (fun saves u => u = t ∧
      saves = names.filter fun name => !isTempSave name && isFile (t.entry .saves name))
      (regularSaves names) t := by
  induction names with
  | nil => exact ensures_pure ⟨rfl, rfl⟩
  | cons name rest ih =>
    rw [regularSaves]
    split
    · rename_i htemp
      refine ih.mono fun saves u hu => ⟨hu.1, ?_⟩
      rw [List.filter_cons_of_neg (by simp [htemp]), hu.2]
    · rename_i htemp
      refine ensures_entry.bind fun x u hx => ?_
      obtain ⟨rfl, rfl⟩ := hx
      split
      · rename_i hfile
        refine ih.bind fun saves v hv => ensures_pure ⟨hv.1, ?_⟩
        rw [List.filter_cons_of_pos (by simp [htemp, hfile]), hv.2]
      · rename_i hfile
        refine ih.mono fun saves v hv => ⟨hv.1, ?_⟩
        rw [List.filter_cons_of_neg (by simp [hfile]), hv.2]

theorem isSome_of_isFile {e : Option Entry} (h : isFile e = true) : e.isSome = true := by
  obtain ⟨content, rfl⟩ := isFile_iff.mp h
  rfl

theorem State.Globbed.lists {names : List Name} (h : t.Globbed .zips names) :
    t.Lists (names.filter fun name => !isTempSave name && isFile (t.entry .saves name)) where
  nodup := h.nodup.filter _
  mem_iff name := by
    rw [List.mem_filter, h.mem_iff, isSave, Bool.and_eq_true, Bool.and_eq_true]
    constructor
    · rintro ⟨⟨hzip, -⟩, htemp, hfile⟩
      exact ⟨⟨hzip, htemp⟩, hfile⟩
    · rintro ⟨⟨hzip, htemp⟩, hfile⟩
      exact ⟨⟨hzip, isSome_of_isFile hfile⟩, htemp, hfile⟩

theorem ensures_readVersionMarker :
    Ensures cfg settings s₀ (fun text u => u = t ∧ text = t.lastStarted) readVersionMarker t := by
  refine ensures_entry.bind fun x u hx => ?_
  obtain ⟨rfl, rfl⟩ := hx
  split
  · refine ensures_read.bind fun x v hx => (ensures_orExit hx).mono fun text w hw => ?_
    obtain ⟨rfl, content, hentry, rfl⟩ := hw
    exact ⟨rfl, by rw [State.lastStarted, hentry]⟩
  · rename_i hfile
    refine ensures_pure ⟨rfl, ?_⟩
    rw [State.lastStarted]
    split
    · rename_i content hentry
      rw [hentry] at hfile
      exact absurd rfl hfile
    · rfl

theorem ensures_readWorldMarker (ht : s₀.Admissible → t.Admissible) :
    Ensures cfg settings s₀ (fun marked u => u = t ∧ if marked then t.Marked else t.Unmarked)
      (readWorldMarker settings) t := by
  refine ensures_entry.bind fun x u hx => ?_
  obtain ⟨rfl, rfl⟩ := hx
  -- Where the marker is not what it should be, the state is not admissible.
  have hmarked : u.entry .top worldMarker ≠ none → s₀.Admissible → u.Marked := by
    intro hne hs
    cases (ht hs).world with
    | marked hmarked _ => exact hmarked
    | made hunmarked _ _ => exact absurd hunmarked hne
    | fresh hunmarked _ _ _ => exact absurd hunmarked hne
    | legacy hunmarked _ _ _ _ _ => exact absurd hunmarked hne
  cases hentry : u.entry .top worldMarker with
  | none => exact ensures_pure ⟨rfl, hentry⟩
  | some e =>
    rw [hentry] at hmarked
    cases e with
    | file content =>
      refine ensures_read.bind fun x v hx => ?_
      split
      · rename_i htext
        subst htext
        obtain ⟨rfl, content', hentry', htext⟩ := hx
        exact ensures_pure ⟨rfl, content', hentry', htext.symm⟩
      · rename_i htext
        refine ensures_refuse fun hfine => ?_
        cases x with
        | none => exact hx
        | some text =>
          obtain ⟨rfl, content', hentry', rfl⟩ := hx
          obtain ⟨content'', hentry'', htext'⟩ := hmarked (by simp) hfine.ready.toAdmissible
          rw [hentry'] at hentry''
          cases hentry''
          exact absurd (congrArg some htext') htext
    | directory _ | link _ | other =>
      refine ensures_refuse fun hfine => ?_
      obtain ⟨content, hentry', -⟩ := hmarked (by simp) hfine.ready.toAdmissible
      cases hentry.symm.trans hentry'

/-! ## The plan -/

theorem State.Lists.mem_primary (h : t.Lists saves) {name : Name} :
    name ∈ saves.filter isPrimary ↔ isPrimary name = true ∧ isFile (t.entry .saves name) = true := by
  rw [List.mem_filter, h.mem_iff]
  constructor
  · rintro ⟨⟨-, hfile⟩, hprimary⟩
    exact ⟨hprimary, hfile⟩
  · rintro ⟨hprimary, hfile⟩
    exact ⟨⟨isSave_of_isPrimary hprimary, hfile⟩, hprimary⟩

theorem State.Lists.onlyPrimary (h : t.Lists saves) {only : Name}
    (hprimary : saves.filter isPrimary = [only]) :
    isFile (t.entry .saves only) = true ∧ t.OnlyPrimary only := by
  have hmem (name : Name) : name ∈ saves.filter isPrimary ↔
      isPrimary name = true ∧ isFile (t.entry .saves name) = true := h.mem_primary
  rw [hprimary] at hmem
  refine ⟨((hmem only).mp List.mem_cons_self).2, fun name hname hfile => ?_⟩
  exact List.mem_singleton.mp ((hmem name).mpr ⟨hname, hfile⟩)

theorem State.Lists.noPrimary (h : t.Lists saves) (hprimary : saves.filter isPrimary = []) :
    t.NoPrimary := by
  intro name hname
  rw [← Bool.not_eq_true]
  intro hfile
  have hmem := h.mem_primary.mpr ⟨hname, hfile⟩
  rw [hprimary] at hmem
  cases hmem

theorem State.Lists.noAutosaves (h : t.Lists saves) (hautosaves : saves.filter isAutosave = []) :
    t.NoAutosaves := by
  intro name hname
  rw [← Bool.not_eq_true]
  intro hfile
  have hmem : name ∈ saves.filter isAutosave :=
    List.mem_filter.mpr ⟨(h.mem_iff name).mpr ⟨isSave_of_isAutosave hname, hfile⟩, hname⟩
  rw [hautosaves] at hmem
  cases hmem

theorem State.Lists.primary_eq (h : t.Lists saves) {only : Name} (hname : isPrimary only = true)
    (hfile : isFile (t.entry .saves only) = true) (hprimary : t.OnlyPrimary only) :
    saves.filter isPrimary = [only] := by
  apply List.perm_singleton.mp
  rw [List.perm_ext_iff_of_nodup (h.nodup.filter _) (List.nodup_singleton _)]
  intro name
  rw [h.mem_primary, List.mem_singleton]
  constructor
  · rintro ⟨hname', hfile'⟩
    exact hprimary name hname' hfile'
  · rintro rfl
    exact ⟨hname, hfile⟩

def State.Planned (t : State) (plan : Plan) (u : State) : Prop :=
  match plan with
  | .existing => u = t ∧ t.Sole
  | .create => (u = t ∨ u = t.drop .saves legacySave) ∧ u.Unmarked ∧ u.NoAutosaves ∧ u.NoPrimary

theorem State.Lists.primary_cases (h : t.Lists saves) (ht : t.Admissible) (hunmarked : t.Unmarked) :
    saves.filter isPrimary = [] ∨ saves.filter isPrimary = [finalSave] ∨
      saves.filter isPrimary = [legacySave] ∧ isFile (t.entry .saves legacySave) = true ∧
        t.lastStarted = legacyVersion := by
  cases ht.world with
  | marked hmarked _ => exact absurd hunmarked hmarked.not_unmarked
  | made _ _ hsole => exact .inr (.inl (h.primary_eq isPrimary_finalSave hsole.regular hsole.only))
  | fresh _ _ hprimary _ =>
    left
    rw [List.eq_nil_iff_forall_not_mem]
    intro name hmem
    obtain ⟨hname, hfile⟩ := h.mem_primary.mp hmem
    cases (hprimary name hname).symm.trans hfile
  | legacy _ _ hprimary hlegacy hversion _ =>
    exact .inr (.inr ⟨h.primary_eq isPrimary_legacySave hlegacy hprimary, hlegacy, hversion⟩)

theorem State.World.noAutosaves (h : t.World) (hunmarked : t.Unmarked) : t.NoAutosaves := by
  cases h with
  | marked hmarked _ => exact absurd hunmarked hmarked.not_unmarked
  | made _ hautosaves _ => exact hautosaves
  | fresh _ hautosaves _ _ => exact hautosaves
  | legacy _ hautosaves _ _ _ _ => exact hautosaves

theorem State.World.sole (h : t.World) (hmarked : t.Marked) : t.Sole := by
  cases h with
  | marked _ hsole => exact hsole
  | made hunmarked _ _ => exact absurd hunmarked hmarked.not_unmarked
  | fresh hunmarked _ _ _ => exact absurd hunmarked hmarked.not_unmarked
  | legacy hunmarked _ _ _ _ _ => exact absurd hunmarked hmarked.not_unmarked

theorem ensures_choosePlan {marked : Bool} (hmarked : if marked then t.Marked else t.Unmarked)
    (hlists : t.Lists saves) (ht : s₀.Admissible → t.Admissible) (hsame : s₀.SameWorld t) :
    Ensures cfg settings s₀ (fun plan u => t.Planned plan u)
      (choosePlan settings marked t.lastStarted saves) t := by
  unfold choosePlan
  dsimp only
  cases marked with
  | true =>
    rw [if_pos rfl]
    split
    · rename_i hprimary
      obtain ⟨hregular, honly⟩ := hlists.onlyPrimary hprimary
      exact ensures_pure ⟨rfl, hregular, honly⟩
    · rename_i hprimary
      refine ensures_refuse fun hfine => absurd ?_ hprimary
      have hsole := (ht hfine.ready.toAdmissible).world.sole hmarked
      exact hlists.primary_eq isPrimary_finalSave hsole.regular hsole.only
  | false =>
    rw [if_neg Bool.false_ne_true]
    have hunmarked : t.Unmarked := hmarked
    have hcases (hfine : Fine cfg settings s₀) :=
      hlists.primary_cases (ht hfine.ready.toAdmissible) hunmarked
    split
    · rename_i hautosaves
      refine ensures_refuse fun hfine => absurd ?_ hautosaves
      have hnone := (ht hfine.ready.toAdmissible).world.noAutosaves hunmarked
      rw [List.filter_eq_nil_iff]
      intro name hmem hname
      cases (hnone name hname).symm.trans ((hlists.mem_iff name).mp hmem).2
    · rename_i hautosaves
      have hnoAutosaves := hlists.noAutosaves (not_not.mp hautosaves)
      split
      · rename_i hprimary
        exact ensures_pure ⟨.inl rfl, hunmarked, hnoAutosaves, hlists.noPrimary hprimary⟩
      · rename_i save hprimary
        obtain ⟨hregular, honly⟩ := hlists.onlyPrimary hprimary
        split
        · rename_i hfinal
          subst hfinal
          exact ensures_pure ⟨rfl, hregular, honly⟩
        · rename_i hother
          split
          · rename_i happroved
            obtain ⟨rfl, hlast, hversion⟩ := happroved
            have hguard : guard settings s₀ (.rm .saves legacySave) t :=
              .inr ⟨rfl, hsame, hunmarked, hnoAutosaves, hregular, honly, hlast, hversion⟩
            refine (ensures_rm hguard).orExit_bind fun _ u hu => ?_
            subst hu
            refine ensures_pure ⟨.inr rfl, ?_, hnoAutosaves.drop, honly.drop⟩
            exact (entry_drop_of_place (by decide)).trans hunmarked
          · rename_i hrefused
            refine ensures_refuse fun hfine => ?_
            rcases hcases hfine with hnil | hfinal | ⟨hlegacy, hfile, hlast⟩
            · cases hprimary.symm.trans hnil
            · exact absurd (List.cons.inj (hprimary.symm.trans hfinal)).1 hother
            · rw [hsame.isFile (isSave_of_isPrimary isPrimary_legacySave)] at hfile
              exact absurd ⟨(List.cons.inj (hprimary.symm.trans hlegacy)).1, hlast,
                hfine.ready.legacy hfile⟩ hrefused
      · rename_i hnil hsingle
        refine ensures_refuse fun hfine => ?_
        rcases hcases hfine with hprimary | hprimary | ⟨hprimary, -⟩
        · exact absurd hprimary hnil
        · exact absurd hprimary (hsingle _)
        · exact absurd hprimary (hsingle _)

/-! ## The backup -/

theorem State.files_eq_some {p : Place} {name : Name} {files : Files} :
    t.files p name = some files ↔ t.entry p name = some (.directory files) := by
  rw [State.files]
  constructor
  · intro h
    split at h
    · rename_i heq
      rw [heq, Option.some.inj h]
    · cases h
  · intro h
    rw [h]

structure State.BesideBackups (t u : State) : Prop where
  top : ∀ name, u.entry .top name = t.entry .top name
  saves : ∀ name, u.entry .saves name = t.entry .saves name

theorem State.BesideBackups.refl (t : State) : t.BesideBackups t := ⟨fun _ => rfl, fun _ => rfl⟩

theorem State.BesideBackups.trans {v : State} (h : t.BesideBackups u) (h' : u.BesideBackups v) :
    t.BesideBackups v :=
  ⟨fun name => (h'.top name).trans (h.top name), fun name => (h'.saves name).trans (h.saves name)⟩

theorem State.BesideBackups.put {name : Name} {e : Entry} : t.BesideBackups (t.put .preUpgrade name e) :=
  ⟨fun _ => entry_put_of_place (by decide), fun _ => entry_put_of_place (by decide)⟩

theorem State.BesideBackups.drop {name : Name} : t.BesideBackups (t.drop .preUpgrade name) :=
  ⟨fun _ => entry_drop_of_place (by decide), fun _ => entry_drop_of_place (by decide)⟩

theorem State.BesideBackups.sameWorld (h : t.BesideBackups u) : t.SameWorld u :=
  ⟨h.top _, h.top _, fun name _ => h.saves name⟩

section Nested

variable {f : Name → Name} {key : Name} {leaf : Leaf}

theorem lookup_foldl_insert_of_ne {l : List ((_ : Name) × Leaf)} {all : Files}
    (h : ∀ file ∈ l, key ≠ f file.1) :
    (l.foldl (fun all file => all.insert (f file.1) file.2) all).lookup key = all.lookup key := by
  induction l generalizing all with
  | nil => rfl
  | cons file rest ih =>
    obtain ⟨hne, hrest⟩ := List.forall_mem_cons.mp h
    rw [List.foldl_cons, ih hrest, AList.lookup_insert_ne hne]

theorem lookup_foldl_insert (hf : Function.Injective f) {l : List ((_ : Name) × Leaf)}
    (hnodup : l.NodupKeys) {all : Files} (hmem : ⟨key, leaf⟩ ∈ l) :
    (l.foldl (fun all file => all.insert (f file.1) file.2) all).lookup (f key) = some leaf := by
  induction l generalizing all with
  | nil => cases hmem
  | cons file rest ih =>
    obtain ⟨hkey, hnodup⟩ := List.nodupKeys_cons.mp hnodup
    rcases List.mem_cons.mp hmem with rfl | hmem
    · rw [List.foldl_cons, lookup_foldl_insert_of_ne, AList.lookup_insert]
      intro file' hfile' heq
      have hmem' := List.mem_keys_of_mem hfile'
      rw [← hf heq] at hmem'
      exact hkey hmem'
    · exact ih hnodup hmem

theorem lookup_nested {staging : Name} {files target : Files} (h : files.lookup key = some leaf) :
    (nested staging files target).lookup (staging ++ '/' :: key) = some leaf := by
  have hinjective : Function.Injective fun name : Name => staging ++ '/' :: name := by
    intro name name' heq
    exact (List.cons.inj (List.append_cancel_left heq)).2
  exact lookup_foldl_insert (f := fun name => staging ++ '/' :: name) hinjective files.nodupKeys
    (AList.mem_lookup_iff.mp h)

end Nested

def State.Holds (t : State) (saves : List Name) (files : Files) : Prop :=
  ∀ save ∈ saves, ∀ content, t.entry .saves save = some (.file content) →
    files.lookup save = some (.file content)

structure State.Staged (t : State) (staging : Name) (files : Files) (u : State) : Prop where
  beside : t.BesideBackups u
  others : ∀ name, name ≠ staging → u.entry .preUpgrade name = t.entry .preUpgrade name
  stage : u.entry .preUpgrade staging = some (.directory files)

theorem State.Staged.put {staging : Name} {files files' : Files} (h : t.Staged staging files u) :
    t.Staged staging files' (u.put .preUpgrade staging (.directory files')) where
  beside := h.beside.trans .put
  others name hne := (entry_put_of_name hne).trans (h.others name hne)
  stage := entry_put_self

theorem State.Staged.writes {staging file : Name} {files : Files} {content : Text} {v : State}
    {x : Option Unit} (h : t.Staged staging files u)
    (hp : u.Writes .preUpgrade staging file content x v) :
    Tried (fun _ v => t.Staged staging (files.insert file (.file content)) v) x v := by
  rw [Writes, State.files_eq_some.mpr h.stage] at hp
  obtain ⟨rfl, rfl⟩ | ⟨rfl, rfl | ⟨leaf, rfl⟩⟩ := hp
  · exact h.put
  · rfl
  · rfl

theorem State.Staged.backsUp {staging : Name} {files : Files} (h : t.Staged staging files u)
    (hfresh : s₀.BacksUp staging t) : s₀.BacksUp staging u :=
  ⟨hfresh.fresh, (h.beside.top _).trans hfresh.version⟩

theorem ensures_copySaves {staging : Name} {files : Files} (hfresh : s₀.BacksUp staging t)
    (h : t.Staged staging files u) :
    Ensures cfg settings s₀ (fun _ v => ∃ files', t.Staged staging files' v ∧ t.Holds saves files' ∧
      ∀ name, name ∉ saves → files'.lookup name = files.lookup name) (copySaves staging saves) u := by
  induction saves generalizing u files with
  | nil => exact ensures_pure ⟨files, h, by simp [State.Holds], fun _ _ => rfl⟩
  | cons save rest ih =>
    refine ensures_entry.bind fun x v hx => ?_
    obtain ⟨rfl, rfl⟩ := hx
    rw [h.beside.saves]
    split
    · rename_i hfile
      obtain ⟨content, hcontent⟩ := isFile_iff.mp hfile
      have hcopy : Ensures cfg settings s₀ (Tried fun _ w =>
          t.Staged staging (files.insert save (.file content)) w) (act (.cpSave save staging)) v := by
        refine ensures_act (h.backsUp hfresh) fun x w _ hp => ?_
        simp only [performs, h.beside.saves, hcontent] at hp
        exact h.writes hp
      refine hcopy.orExit_bind fun _ w hw => (ih hw).mono fun _ w hw => ?_
      obtain ⟨files', hstaged, hholds, hothers⟩ := hw
      refine ⟨files', hstaged, ?_, fun name hname => ?_⟩
      · intro save' hmem content' hcontent'
        by_cases hrest : save' ∈ rest
        · exact hholds save' hrest content' hcontent'
        · obtain rfl := (List.mem_cons.mp hmem).resolve_right hrest
          rw [hothers save' hrest, AList.lookup_insert]
          cases hcontent.symm.trans hcontent'
          rfl
      · rw [List.mem_cons, not_or] at hname
        rw [hothers name hname.2, AList.lookup_insert_ne hname.1]
    · rename_i hfile
      refine (ih h).mono fun _ w hw => ?_
      obtain ⟨files', hstaged, hholds, hothers⟩ := hw
      refine ⟨files', hstaged, ?_, fun name hname => hothers name fun hmem =>
        hname (List.mem_cons_of_mem _ hmem)⟩
      intro save' hmem content' hcontent'
      rcases List.mem_cons.mp hmem with rfl | hmem
      · exact absurd (isFile_iff.mpr ⟨content', hcontent'⟩) hfile
      · exact hholds save' hmem content' hcontent'

theorem stagingName_ne {backup target : Name} (h : target.head? = some 'f') :
    target ≠ stagingName settings backup := by
  rintro rfl
  cases h

theorem ensures_mvBackup {staging target : Name} {files : Files} {timestamp : Text}
    (hlists : t.Lists saves) (hfresh : s₀.BacksUp staging t) (h : t.Staged staging files u)
    (hholds : t.Holds saves files) (hne : target ≠ staging)
    (htarget : target = backupName settings t.lastStarted timestamp ∨
      target = backupName settings t.lastStarted timestamp ++ '-' :: settings.pid)
    (hmetadata : files.lookup "backup-metadata.txt".toList =
      some (.file (backupMetadata settings t.lastStarted timestamp))) :
    Ensures cfg settings s₀ (Tried fun _ v => t.BesideBackups v ∧ (t.NoLinks → t.Copied settings v))
      (act (.mvBackup staging target)) u := by
  have hcopies : ∀ save content, isSave save = true → t.entry .saves save = some (.file content) →
      files.lookup save = some (.file content) := by
    intro save content hname hcontent
    exact hholds save ((hlists.mem_iff save).mpr ⟨hname, isFile_iff.mpr ⟨content, hcontent⟩⟩) content
      hcontent
  refine ensures_act ⟨hne, h.backsUp hfresh⟩ fun x v _ hp => ?_
  simp only [performs, MovesBackup, State.files_eq_some.mpr h.stage] at hp
  split at hp
  · rename_i files' heq hnone
    cases heq
    obtain ⟨rfl, rfl⟩ | ⟨rfl, rfl | rfl⟩ := hp
    · exact ⟨(h.beside.trans .drop).trans .put, fun _ => ⟨timestamp, target, files, [], htarget,
        entry_put_self, hmetadata, hcopies⟩⟩
    · rfl
    · rfl
  · rename_i files' targetFiles heq _
    cases heq
    split at hp
    · exact tried_of_fails hp
    · obtain ⟨rfl, rfl⟩ | ⟨rfl, rfl | rfl⟩ := hp
      · refine ⟨(h.beside.trans .drop).trans .put, fun _ => ⟨timestamp, target, _, staging ++ ['/'],
          htarget, entry_put_self, ?_, fun save content hname hcontent => ?_⟩⟩
        · rw [List.append_assoc]
          exact lookup_nested hmetadata
        · rw [List.append_assoc]
          exact lookup_nested (hcopies save content hname hcontent)
      · rfl
      · rfl
  · rename_i heq hlink
    obtain ⟨rfl, rfl⟩ | ⟨rfl, rfl | rfl⟩ := hp
    · refine ⟨h.beside.trans .drop, fun hnoLinks => absurd ?_ (hnoLinks target)⟩
      rw [← h.others target hne, hlink]
    · rfl
    · rfl
  · exact tried_of_fails hp

theorem ensures_backUp (hlists : t.Lists saves)
    (hpreUpgrade : ∀ name, t.entry .preUpgrade name = s₀.entry .preUpgrade name)
    (hversion : t.entry .top versionMarker = s₀.entry .top versionMarker) :
    Ensures cfg settings s₀ (fun _ u => t.BesideBackups u ∧ (t.NoLinks → t.Copied settings u))
      (backUp settings t.lastStarted saves) t := by
  have hdate : Ensures cfg settings s₀ (Tried fun _ u => u = t) (act .date) t := by
    refine ensures_act trivial fun x u _ hp => ?_
    rcases hp with hfails | ⟨hsome, rfl⟩
    · exact tried_of_fails hfails
    · cases x with
      | none => exact absurd rfl hsome
      | some timestamp => rfl
  refine hdate.orExit_bind fun timestamp u hu => ?_
  subst hu
  refine ensures_entry.bind fun x v hx => ?_
  obtain ⟨rfl, rfl⟩ := hx
  dsimp only
  generalize hbackup : backupName settings v.lastStarted timestamp = backup
  have hhead : ∀ suffix, (backup ++ suffix).head? = some 'f' := by
    intro suffix
    subst hbackup
    rfl
  generalize htarget : (if exists? (v.entry .preUpgrade backup) = true then
    backup ++ '-' :: settings.pid else backup) = target
  have hne : target ≠ stagingName settings backup := by
    apply stagingName_ne
    subst htarget
    split
    · exact hhead _
    · rw [← List.append_nil backup]
      exact hhead []
  have hnamed : target = backupName settings v.lastStarted timestamp ∨
      target = backupName settings v.lastStarted timestamp ++ '-' :: settings.pid := by
    rw [hbackup, ← htarget]
    split
    · exact .inr rfl
    · exact .inl rfl
  have hmkdir : Ensures cfg settings s₀ (Tried fun _ u => s₀.BacksUp (stagingName settings backup) v ∧
      v.Staged (stagingName settings backup) ∅ u)
      (act (.mkdirStaging (stagingName settings backup))) v := by
    refine ensures_act hversion fun x u _ hp => ?_
    simp only [performs] at hp
    split at hp
    · rename_i hnone
      obtain ⟨rfl, rfl⟩ | ⟨rfl, rfl | rfl⟩ := hp
      · refine ⟨⟨(hpreUpgrade _).symm.trans hnone, hversion⟩, .put, ?_, entry_put_self⟩
        exact fun name hne => entry_put_of_name hne
      · rfl
      · rfl
    · exact tried_of_fails hp
  refine hmkdir.orExit_bind fun _ u hu => ?_
  obtain ⟨hfresh, hu⟩ := hu
  refine (ensures_copySaves hfresh hu).bind fun _ w hw => ?_
  obtain ⟨files, hstaged, hholds, -⟩ := hw
  have hmetadata : Ensures cfg settings s₀ (Tried fun _ u => v.Staged (stagingName settings backup)
      (files.insert "backup-metadata.txt".toList
        (.file (backupMetadata settings v.lastStarted timestamp))) u)
      (act (.writeMetadata (stagingName settings backup)
        (backupMetadata settings v.lastStarted timestamp))) w :=
    ensures_act (hstaged.backsUp hfresh) fun _ _ _ hp => hstaged.writes hp
  refine hmetadata.orExit_bind fun _ y hy => ?_
  have hholds' : v.Holds saves (files.insert "backup-metadata.txt".toList
      (.file (backupMetadata settings v.lastStarted timestamp))) := by
    intro save hmem content hcontent
    rw [AList.lookup_insert_ne]
    · exact hholds save hmem content hcontent
    · rintro rfl
      exact absurd ((hlists.mem_iff _).mp hmem).1 (by decide)
  exact (ensures_mvBackup hlists hfresh hy hholds' hne hnamed (AList.lookup_insert _)).bind fun _ _ h => ensures_orExit h

end Making

end ClusterState.Factorio
