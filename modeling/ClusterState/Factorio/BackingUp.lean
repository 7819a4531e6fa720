import ClusterState.Factorio.Staging

/-! # The script in its own second

Every command of the script is issued under its guard, and with what is known of the
backup by then.
-/

namespace ClusterState.Factorio

open Concurrency State

section BackingUp

variable {cfg : Sources} {settings : Settings} {stamp : Text} {s₀ t u v : State} {saves : List Name}
  {staging target : Name}

theorem State.HasBackup.moves {x : Option Unit} (h : t.HasBackup settings stamp staging u)
    (hfree : exists? (u.entry .preUpgrade target) = false) (hp : u.MovesBackup staging target x v) :
    t.HasBackup settings stamp target v ∨ x = none ∧ Same .preUpgrade target u v := by
  obtain ⟨files, hentry, hcomplete⟩ := h
  rw [MovesBackup, State.files_eq_some.mpr hentry] at hp
  split at hp
  · rename_i files' heq _
    cases heq
    obtain ⟨rfl, rfl⟩ | ⟨rfl, rfl | rfl⟩ := hp
    · exact .inl ⟨files, entry_put_self, hcomplete⟩
    · exact .inr ⟨rfl, entry_fail⟩
    · exact .inl ⟨files, entry_fail.trans entry_put_self, hcomplete⟩
  · rename_i hdirectory
    rw [hdirectory] at hfree
    cases hfree
  · rename_i hlink
    rw [hlink] at hfree
    cases hfree
  · exact .inr ⟨hp.1, Same.fails hp⟩

theorem head?_backupTarget : (s₀.backupTarget settings stamp).head? = some 'f' := by
  rw [backupTarget]
  split <;> rfl

theorem visible_backupTarget : visible (s₀.backupTarget settings stamp) = true := by
  rw [visible, head?_backupTarget]
  rfl

theorem visible_stagingName {backup : Name} : visible (stagingName settings backup) = false := rfl

theorem State.Lists.complete {files : Files} (hlists : t.Lists saves) (hholds : t.Holds saves files)
    (hversion : t.entry .top versionMarker = s₀.entry .top versionMarker)
    (hsame : ∀ save, isSave save = true → t.entry .saves save = s₀.entry .saves save)
    (hmetadata : files.lookup "backup-metadata.txt".toList =
      some (.file (backupMetadata settings t.lastStarted stamp))) :
    s₀.Complete settings stamp files where
  metadata := by
    rw [hmetadata, State.lastStarted, State.lastStarted, hversion]
  saves save content hname hcontent := by
    have hcontent' := (hsame save hname).trans hcontent
    exact hholds save ((hlists.mem_iff save).mpr ⟨hname, isFile_iff.mpr ⟨content, hcontent'⟩⟩) content
      hcontent'

theorem ensuresAt_copySaves {files : Files} (hhidden : visible staging = false)
    (hfresh : s₀.BacksUp staging t) (h : t.Staged staging files u) :
    EnsuresAt cfg settings stamp s₀ (fun _ v => ∃ files', t.Staged staging files' v ∧
      t.Holds saves files') (copySaves staging saves) u := by
  have hcopies : Ensures cfg settings s₀ (fun _ v => ∃ files', t.Staged staging files' v ∧
      t.Holds saves files') (copySaves staging saves) u :=
    (ensures_copySaves hfresh h).mono fun _ _ hv => hv.imp fun _ hv => ⟨hv.1, hv.2.1⟩
  refine hcopies.dated (P := fun _ => True) orderly_copySaves trivial (fun r w hr _ => ?_)
    fun _ _ _ _ _ _ _ _ => trivial
  rcases hr with hearly | ⟨save, rfl⟩
  · exact hearly.guardAt
  · exact hhidden

theorem ensuresAt_date : EnsuresAt cfg settings stamp s₀
    (fun x u => ∀ a, x = some a → a = stamp ∧ u = t) (act .date) t := by
  refine ensuresAt_act trivial trivial fun x u hp hdated => ?_
  rintro a rfl
  rcases hp with hfails | ⟨-, rfl⟩
  · cases hfails.1
  · rcases hdated with hnone | hstamp
    · cases hnone
    · exact ⟨Option.some.inj hstamp, rfl⟩

theorem ensuresAt_mkdirStaging (hhidden : visible staging = false)
    (hpreUpgrade : ∀ name, t.entry .preUpgrade name = s₀.entry .preUpgrade name)
    (hversion : t.entry .top versionMarker = s₀.entry .top versionMarker) :
    EnsuresAt cfg settings stamp s₀
      (fun x u => ∀ a, x = some a → s₀.BacksUp staging t ∧ t.Staged staging ∅ u)
      (act (.mkdirStaging staging)) t := by
  refine ensuresAt_act hversion hhidden fun x u hp _ => ?_
  rintro a rfl
  simp only [performs] at hp
  split at hp
  · rename_i hnone
    obtain ⟨-, rfl⟩ | ⟨hcontra, -⟩ := hp
    · refine ⟨⟨(hpreUpgrade _).symm.trans hnone, hversion⟩, .put, ?_, entry_put_self⟩
      exact fun name hne => entry_put_of_name hne
    · cases hcontra
  · cases hp.1

/-- A complete stage gets the name of the backup, where nothing had it. -/
theorem ensuresAt_mvBackup (hhidden : visible staging = false) (hbacksUp : s₀.BacksUp staging t)
    (htarget : t.entry .preUpgrade (s₀.backupTarget settings stamp) =
      s₀.entry .preUpgrade (s₀.backupTarget settings stamp))
    (hfree : exists? (s₀.entry .preUpgrade (s₀.backupTarget settings stamp)) = false)
    (hbackup : s₀.HasBackup settings stamp staging t) :
    EnsuresAt cfg settings stamp s₀
      (fun x u => ∀ a, x = some a → s₀.HasBackup settings stamp (s₀.backupTarget settings stamp) u)
      (act (.mvBackup staging (s₀.backupTarget settings stamp))) t := by
  have hne : s₀.backupTarget settings stamp ≠ staging := by
    rintro rfl
    cases hhidden.symm.trans visible_backupTarget
  refine ensuresAt_act ⟨hne, hbacksUp⟩ ⟨hhidden, rfl, htarget, hbackup⟩ fun x u hp _ => ?_
  rintro a rfl
  rw [← htarget] at hfree
  rcases hbackup.moves hfree hp with hmoved | ⟨hnone, -⟩
  · exact hmoved
  · cases hnone

/-- The backup ends up complete, and under its own name. -/
theorem ensuresAt_backUp (hlists : t.Lists saves)
    (hpreUpgrade : ∀ name, t.entry .preUpgrade name = s₀.entry .preUpgrade name)
    (hversion : t.entry .top versionMarker = s₀.entry .top versionMarker)
    (hsaves : ∀ save, isSave save = true → t.entry .saves save = s₀.entry .saves save)
    (hfree : exists? (s₀.entry .preUpgrade (s₀.backupTarget settings stamp)) = false) :
    EnsuresAt cfg settings stamp s₀
      (fun _ u => s₀.HasBackup settings stamp (s₀.backupTarget settings stamp) u)
      (backUp settings t.lastStarted saves) t := by
  have hlast : t.lastStarted = s₀.lastStarted := by
    rw [State.lastStarted, State.lastStarted, hversion]
  refine ensuresAt_date.orExit_bind fun a u hu => ?_
  obtain ⟨rfl, rfl⟩ := hu
  refine (ensures_entry.early (orderly_act trivial)).bind fun x v hx => ?_
  obtain ⟨rfl, rfl⟩ := hx
  dsimp only
  rw [hpreUpgrade]
  have hbackup : backupName settings v.lastStarted a = s₀.backup settings a := by
    rw [hlast, State.backup]
  rw [hbackup]
  change EnsuresAt cfg settings a s₀ _ (do
    orExit (← act (.mkdirStaging (stagingName settings (s₀.backup settings a))))
    copySaves (stagingName settings (s₀.backup settings a)) saves
    orExit (← act (.writeMetadata (stagingName settings (s₀.backup settings a))
      (backupMetadata settings v.lastStarted a)))
    orExit (← act (.mvBackup (stagingName settings (s₀.backup settings a)) (s₀.backupTarget settings a)))) v
  generalize hstaging : stagingName settings (s₀.backup settings a) = staging
  have hhidden : visible staging = false := by
    subst hstaging
    exact visible_stagingName
  refine (ensuresAt_mkdirStaging hhidden hpreUpgrade hversion).orExit_bind fun _ u hu => ?_
  obtain ⟨hfresh, hu⟩ := hu
  refine (ensuresAt_copySaves hhidden hfresh hu).bind fun _ w hw => ?_
  obtain ⟨files, hstaged, hholds⟩ := hw
  have hmetadata : EnsuresAt cfg settings a s₀ (fun x u => ∀ y, x = some y →
      v.Staged staging (files.insert "backup-metadata.txt".toList
        (.file (backupMetadata settings v.lastStarted a))) u)
      (act (.writeMetadata staging (backupMetadata settings v.lastStarted a))) w :=
    ensuresAt_act (hstaged.backsUp hfresh) hhidden fun _ _ hp _ => some_of_tried (hstaged.writes hp)
  refine hmetadata.orExit_bind fun _ y hy => ?_
  have hcomplete : s₀.Complete settings a (files.insert "backup-metadata.txt".toList
      (.file (backupMetadata settings v.lastStarted a))) := by
    refine hlists.complete (fun save hmem content hcontent => ?_) hversion hsaves (AList.lookup_insert _)
    rw [AList.lookup_insert_ne]
    · exact hholds save hmem content hcontent
    · rintro rfl
      exact absurd ((hlists.mem_iff _).mp hmem).1 (by decide)
  have hne : s₀.backupTarget settings a ≠ staging := by
    rintro rfl
    cases hhidden.symm.trans visible_backupTarget
  have hhas : s₀.HasBackup settings a staging y := ⟨_, hy.stage, hcomplete⟩
  have htarget := (hy.others _ hne).trans (hpreUpgrade _)
  exact (ensuresAt_mvBackup hhidden (hy.backsUp hfresh) htarget hfree hhas).orExit_last

/-! ## The whole script -/

theorem not_upgrades_of_noPrimary {version : Text} (hsame : u.entry .saves finalSave =
    s₀.entry .saves finalSave) (h : u.NoPrimary) : ¬s₀.Upgrades version := by
  intro hupgrades
  have hregular := hupgrades.regular
  rw [← hsame, h _ isPrimary_finalSave] at hregular
  cases hregular

theorem ensuresAt_makeWorld {plan : Plan} {sources : List (Text × Text)} (hcleaned : s₀.Cleaned t)
    (hlists : t.Lists saves) (hplan : t.Planned plan u)
    (hfree : exists? (s₀.entry .preUpgrade (s₀.backupTarget settings stamp)) = false) :
    EnsuresAt cfg settings stamp s₀ (fun _ v => s₀.Upgrades settings.version →
      s₀.HasBackup settings stamp (s₀.backupTarget settings stamp) v)
      (makeWorld settings sources t.lastStarted saves plan) u := by
  have hsame := hcleaned.sameWorld
  cases plan with
  | existing =>
    obtain ⟨rfl, -⟩ := hplan
    rw [makeWorld]
    split
    · exact (ensuresAt_backUp hlists hcleaned.preUpgrade hsame.version hsame.saves hfree).mono
        fun _ _ h _ => h
    · rename_i hnot
      intro hupgrades
      refine absurd ?_ hnot
      rw [hsame.lastStarted]
      exact ⟨hupgrades.started, hupgrades.other⟩
  | create =>
    obtain ⟨hdrop, hunmarked, hautosaves, hprimary⟩ := hplan
    have hfinal : u.entry .saves finalSave = s₀.entry .saves finalSave := by
      rw [← hsame.final]
      rcases hdrop with rfl | rfl
      · rfl
      · exact entry_drop_of_name (by decide)
    refine ((ensures_create ⟨hunmarked, hautosaves, hprimary⟩).early orderly_create).mono
      fun _ _ _ hupgrades => ?_
    exact (not_upgrades_of_noPrimary hfinal hprimary hupgrades).elim

theorem ensuresAt_of_inv {α : Type} {Q : α → State → Prop} {r : Command} {next : r.Value → Script α}
    (h : (s₀.Admissible → t.Admissible) → EnsuresAt cfg settings stamp s₀ Q (.ask r next) t) :
    EnsuresAt cfg settings stamp s₀ Q (.ask r next) t := by
  intro v hrely hinv
  obtain rfl := Discipline.eq_of_rely hrely
  exact h hinv v .refl hinv

theorem ensuresAt_start {sources : List (Text × Text)} (hcleaned : s₀.Cleaned t)
    (hfree : exists? (s₀.entry .preUpgrade (s₀.backupTarget settings stamp)) = false) :
    EnsuresAt cfg settings stamp s₀ (fun _ u => u.Started settings.version) (do
      let saves ← regularSaves (← act (.glob .zips))
      let lastStarted ← readVersionMarker
      let marked ← readWorldMarker settings
      let plan ← choosePlan settings marked lastStarted saves
      makeWorld settings sources lastStarted saves plan
      serve settings marked lastStarted) t := by
  refine ensuresAt_of_inv fun hinv => ?_
  refine (ensures_glob.early (orderly_act trivial)).bind fun names u hnames => ?_
  obtain ⟨rfl, hnames⟩ := hnames
  refine (ensures_regularSaves.early orderly_regularSaves).bind fun saves v hsaves => ?_
  obtain ⟨rfl, rfl⟩ := hsaves
  have hlists := hnames.lists
  refine (ensures_readVersionMarker.early orderly_readVersionMarker).bind fun lastStarted w hlast => ?_
  obtain ⟨rfl, rfl⟩ := hlast
  refine ((ensures_readWorldMarker hinv).early orderly_readWorldMarker).bind fun marked t hmarked => ?_
  obtain ⟨rfl, hmarked⟩ := hmarked
  refine ((ensures_choosePlan hmarked hlists hinv hcleaned.sameWorld).early orderly_choosePlan).bind
    fun plan u hplan => ?_
  refine ((ensuresAt_makeWorld hcleaned hlists hplan hfree).and
    (ensures_makeWorld hcleaned hlists hplan)).bind fun _ v hv => ?_
  obtain ⟨⟨hworld, hversion, hsole, hbacked⟩, hbackup⟩ := hv
  have hlast : v.lastStarted = t.lastStarted := by
    rw [State.lastStarted, State.lastStarted, hversion]
  rw [← hlast]
  refine (ensures_serve ?_ hsole hbacked).plain orderly_serve hbackup
  cases marked with
  | true =>
    obtain ⟨content, hentry, htext⟩ := hmarked
    exact ⟨content, hworld.trans hentry, htext⟩
  | false => exact hworld.trans hmarked

/-- Where there is nothing yet at the place of the backup, the version marker is only written when
the backup is there, complete. -/
theorem ensuresAt_script
    (hfree : exists? (s₀.entry .preUpgrade (s₀.backupTarget settings stamp)) = false) :
    EnsuresAt cfg settings stamp s₀ (fun _ u => u.Started settings.version) (script settings) s₀ := by
  unfold script
  split
  · trivial
  refine (ensures_checkSources.early orderly_checkSources).bind fun sources s hs => ?_
  subst hs
  have hmkdirs : Ensures cfg settings s (Tried fun _ u => u = s) (act .mkdirs) s :=
    ensures_idle (ensures_act trivial fun _ _ _ h => h)
  refine ((hmkdirs.early (orderly_act trivial)).mono fun _ _ => some_of_tried).orExit_bind
    fun _ s' hs => ?_
  subst hs
  refine (ensures_copyConfigs.early orderly_copyConfigs).bind fun _ s hs => ?_
  subst hs
  refine ((ensures_removeStale id).early orderly_removeStale).bind fun _ t hcleaned => ?_
  exact ensuresAt_start hcleaned hfree

end BackingUp

end ClusterState.Factorio
