import ClusterState.Backup.Stages
import ClusterState.Backup.Execution

/-! # Every run of the script keeps the contract

What the stage holds before the rename is what the exporter asks of an archive.
-/

namespace ClusterState.Backup.Upgrade

open Concurrency

variable {Content : Type} {py : Python Content} {start : Place Content} {s t : Site Content}
  {stage : String} {names : List String} {d : Directory Content}

/-! ## The archive -/

section Archive

variable {α : Type} {log : List Event}

structure Staging (start : Place Content) (stage : String) (log : List Event) (names : List String)
    (d : Directory Content) (s : Site Content) : Prop extends Holds s stage names d where
  clean : Clean start s
  logged : s.log = log

theorem Site.putFile_log {name : String} {f : File Content} :
    (s.putFile stage name f).log = s.log := by
  unfold Site.putFile
  split <;> rfl

theorem Staging.write {name : String} {complete : File Content → Prop} {x : Option Unit}
    (h : Staging start stage log names d s) (hhidden : Hidden stage)
    (hwrites : s.Writes stage name x t complete) (hx : x = some ()) :
    ∃ f, complete f ∧
      Staging start stage log (name :: names) { d with files := d.files.insert name (.file f) } t := by
  rcases hwrites with ⟨hnone, -⟩ | ⟨-, f, rfl, hcomplete⟩
  · rw [hx] at hnone
    cases hnone
  · exact ⟨f, hcomplete, h.toHolds.putFile name f, h.clean.touches hhidden touches_putFile,
      Site.putFile_log.trans h.logged⟩

theorem Staging.logged_dump (h : Staging start stage log names d s) :
    Staging start stage (.dumped :: log) names d { s with log := .dumped :: s.log } :=
  ⟨h.toHolds.log, h.clean, by rw [h.logged]⟩

theorem Staging.renameDump {dump : File Content} {x : Option Unit} (hhidden : Hidden stage)
    (h : Staging start stage log [Site.partialDump] d s)
    (hdump : d.files.lookup Site.partialDump = some (.file dump))
    (hmove : Performs py s (.mvDump stage) x t) (hx : x = some ()) :
    ∃ d', d'.files.lookup "database.dump" = some (.file dump) ∧
      Staging start stage log ["database.dump"] d' t := by
  rcases hmove with ⟨hnone, -⟩ | rfl
  · rw [hx] at hnone
    cases hnone
  · obtain ⟨d', hholds, hlookup⟩ := h.toHolds.renameDump hdump
    have hlog : (s.renameDump stage).log = s.log := by
      unfold Site.renameDump
      split <;> rfl
    exact ⟨d', hlookup, hholds, h.clean.touches hhidden touches_renameDump, hlog.trans h.logged⟩

/-- The dump is in the stage with its checksum and its listing. -/
structure Dumped (py : Python Content) (d : Directory Content) (dump checksum list : File Content) :
    Prop where
  hasDump : d.files.lookup "database.dump" = some (.file dump)
  hasChecksum : d.files.lookup "database.sha256" = some (.file checksum)
  hasList : d.files.lookup "archive.list" = some (.file list)
  sum : checksum.content = py.ofText (checksumText (py.sha256 dump.content) "database.dump")
  dumpSize : 0 < py.size dump.content
  listSize : 0 < py.size list.content

def dumpedNames : List String := ["archive.list", "database.sha256", "database.dump"]

theorem safe_dumpInto {f : Unit → Script Content α} (hown : OwnStage start stage)
    (h : Staging start stage log [] d s)
    (hnext : ∀ d dump checksum list t, Dumped py d dump checksum list →
      Staging start stage (.dumped :: log) dumpedNames d t → Safe py start (f ()) t) :
    Safe py start (dumpInto py stage >>= f) s := by
  simp only [dumpInto, script_bind_assoc]
  -- the dump under its first name
  refine safe_act ⟨hown, h.clean⟩ fun x s₁ _ hdump => safe_orFail fun _ hx => ?_
  obtain ⟨t, hwrites, rfl⟩ := hdump
  obtain ⟨dump, -, h₁⟩ := h.write hown.1 hwrites hx
  refine safe_act trivial fun x s₂ _ hentry => safe_check fun hsize => ?_
  obtain ⟨rfl, rfl⟩ := hentry
  have hpartial := AList.lookup_insert (a := Site.partialDump) (b := Leaf.file dump) d.files
  have hdumpSize := size_of_nonEmpty h₁.toHolds hpartial hsize
  -- the dump and its checksum
  refine safe_act hown fun x s₃ _ hmove => safe_orFail fun _ hx => ?_
  obtain ⟨d₃, hdump₃, h₃⟩ := h₁.logged_dump.renameDump hown.1 hpartial hmove hx
  refine safe_act hown fun x s₄ _ hwrites => safe_orFail fun _ hx => ?_
  obtain ⟨checksum, ⟨dump', hfile, hsum⟩, h₄⟩ := h₃.write hown.1 hwrites hx
  rw [h₃.toHolds.file hdump₃] at hfile
  cases hfile
  -- the listing
  refine safe_act hown fun x s₅ _ hwrites => safe_orFail fun _ hx => ?_
  obtain ⟨list, -, h₅⟩ := h₄.write hown.1 hwrites hx
  refine safe_act trivial fun x s₆ _ hentry => safe_check fun hsize => ?_
  obtain ⟨rfl, rfl⟩ := hentry
  have hlist := AList.lookup_insert (a := "archive.list") (b := Leaf.file list)
    (d₃.files.insert "database.sha256" (.file checksum))
  have hlistSize := size_of_nonEmpty h₅.toHolds hlist hsize
  refine safe_act trivial fun x s₇ _ hcheck => safe_orFail fun _ hx => ?_
  cases hcheck
  refine hnext _ dump checksum list _ ⟨?_, ?_, hlist, hsum, hdumpSize, hlistSize⟩ h₅
  · rw [AList.lookup_insert_ne (by decide), AList.lookup_insert_ne (by decide), hdump₃]
  · rw [AList.lookup_insert_ne (by decide), AList.lookup_insert]

def Recognised (py : Python Content) (d : Directory Content) : Prop :=
  ∀ name, isAdmission name = true →
    ∃ observed, completedArchive py name (.directory d) = .ok (some (observed, name))

theorem visibleFiles_archive (h : Holds s stage ("admission.txt" :: dumpedNames) d) :
    visibleFiles (s.archives.lookup stage) = d.files.entries := by
  have hvisible : (archiveFiles.all fun name => !String.isPrefixOf "." name) = true := by
    decide +kernel
  rw [h.entry, visibleFiles, List.filter_eq_self]
  intro entry hentry
  have hmem : entry.1 ∈ d.files := List.mem_map_of_mem hentry
  rw [h.names] at hmem
  apply List.all_eq_true.mp hvisible entry.1
  simp only [dumpedNames, archiveFiles, List.mem_cons, List.not_mem_nil, or_false] at hmem ⊢
  tauto

theorem safe_describe {f : Unit → Script Content α} {v : Versions} {mainBefore : String}
    {dump checksum list : File Content} (hown : OwnStage start stage) (hv : v.Readable)
    (hidentity : PrintableText mainBefore) (hdumped : Dumped py d dump checksum list)
    (h : Staging start stage log dumpedNames d s)
    (hnext : ∀ d names t, Recognised py d → Staging start stage log names d t →
      Safe py start (f ()) t) :
    Safe py start (describe v mainBefore stage >>= f) s := by
  simp only [describe, script_bind_assoc]
  refine safe_act trivial fun time s₁ _ hdate => ?_
  obtain ⟨rfl, htime⟩ := hdate
  refine safe_act hown fun x s₂ _ hwrites => safe_orFail fun _ hx => ?_
  obtain ⟨metadata, htext, h₂⟩ := h.write hown.1 hwrites hx
  refine safe_act trivial fun x s₃ _ hentry => safe_checkFiles fun hprivate => ?_
  obtain ⟨rfl, rfl⟩ := hentry
  rw [visibleFiles_archive h₂.toHolds] at hprivate
  refine hnext _ _ _ (fun name hname => ⟨time, ?_⟩) h₂
  have hnames : ∀ name, name ∈ d.files.insert "admission.txt" (.file metadata) ↔
      name ∈ archiveFiles := by
    intro name
    rw [h₂.names]
    simp only [dumpedNames, archiveFiles, List.mem_cons, List.not_mem_nil, or_false]
    tauto
  refine completedArchive_ok hname h.attributes hnames hprivate ?_ ?_ ?_
    (AList.lookup_insert d.files) hdumped.sum hdumped.dumpSize hdumped.listSize htext
    (return_notMem_admissionText hv htime hidentity) (observedAt_admissionText py hv htime hidentity)
  · rw [AList.lookup_insert_ne (by decide), hdumped.hasDump]
  · rw [AList.lookup_insert_ne (by decide), hdumped.hasChecksum]
  · rw [AList.lookup_insert_ne (by decide), hdumped.hasList]

theorem safe_publishStage {settings : Settings} {mainBefore published : String}
    (hown : OwnStage start stage) (hpublished : isAdmission published = true) (hrecognised : Recognised py d)
    (h : Staging start stage [.dumped, .observed mainBefore, .observed mainBefore] names d s) :
    Safe py start (publishStage settings mainBefore stage published) s := by
  refine safe_observe h.clean fun mainAfter _ => safe_observe h.clean fun ciAfter _ => ?_
  refine safe_check fun hsame => ?_
  simp only [Bool.and_eq_true, beq_iff_eq] at hsame
  obtain ⟨rfl, rfl⟩ := hsame
  refine safe_act trivial fun x s₁ _ hentry => safe_check fun _ => ?_
  obtain ⟨rfl, -⟩ := hentry
  have hready : Ready py stage published
      { s with log := .observed mainBefore :: .observed mainBefore :: s.log } := by
    refine ⟨hpublished, ⟨mainBefore, by rw [h.logged]⟩, fun e he => ?_⟩
    obtain ⟨observed, hcompleted⟩ := hrecognised published hpublished
    rw [h.entry] at he
    cases he
    exact ⟨d, observed, rfl, hcompleted⟩
  refine safe_act ⟨hown, h.clean, hready⟩ fun x s₂ _ _ => safe_orFail fun _ _ => ?_
  exact safe_act trivial fun x s₃ _ _ => safe_end

theorem safe_archive {settings : Settings} {v : Versions} {mainBefore published : String}
    (hown : OwnStage start stage) (hpublished : isAdmission published = true) (hv : v.Readable)
    (hidentity : PrintableText mainBefore)
    (h : Staging start stage [.observed mainBefore, .observed mainBefore] [] d s) :
    Safe py start (archive py settings v mainBefore stage published) s := by
  refine safe_dumpInto hown h fun d₁ dump checksum list s₁ hdumped h₁ => ?_
  refine safe_describe hown hv hidentity hdumped h₁ fun d₂ names s₂ hrecognised h₂ => ?_
  exact safe_publishStage hown hpublished hrecognised h₂

theorem isAdmission_random {random : String} (h : Site.isRandom random) :
    isAdmission ("admission." ++ random) = true := by
  rw [isAdmission, String.toList_append, literal_append]
  simp only [h.1, h.2, decide_true, Bool.and_self]

theorem hidden_stage {random : String} : Hidden (".admission." ++ random) := by
  refine ⟨"admission." ++ random, ?_⟩
  rw [← String.append_assoc]
  rfl

theorem safe_mkdirIfAbsent {f : Unit → Script Content α} {p : Place Content}
    (hclean : Clean start s)
    (h : ∀ t, Clean start t → t.log = s.log → Safe py start (f ()) t) :
    Safe py start (mkdirIfAbsent p >>= f) s := by
  cases p with
  | absent =>
    simp only [mkdirIfAbsent, script_bind_assoc]
    refine safe_act trivial fun x t _ hmkdir => safe_orFail fun _ _ => ?_
    rcases hmkdir with rfl | ⟨habsent, rfl⟩
    · exact h t hclean rfl
    · refine h _ (fun name hname => ?_) rfl
      rw [← hclean name hname, habsent]
      rfl
  | directory attributes entries => exact h s hclean rfl
  | other => exact h s hclean rfl

theorem staging_of_mktemp {random : String} {x : Option String} (hinv : Inv py start s)
    (hclean : Clean start s) (hlog : s.log = log) (hattributes : s.archives.attributes?.isSome)
    (hmktemp : Performs py s .mktemp x t) (hx : x = some random) :
    Site.isRandom random ∧ OwnStage start (".admission." ++ random) ∧
      Staging start (".admission." ++ random) log [] ⟨State.newDirectory, ∅⟩ t := by
  rcases hmktemp with ⟨hnone, -⟩ | ⟨random', hrandom, hfresh, rfl, hx'⟩
  · rw [hx] at hnone
    cases hnone
  · obtain rfl : random' = random := by
      rcases hx' with hx' | hx' <;> rw [hx] at hx' <;> cases hx'
      rfl
    have hstart : start.lookup (".admission." ++ random') = none := by
      cases hlookup : start.lookup (".admission." ++ random') with
      | none => rfl
      | some e =>
        rw [hinv.kept _ e hlookup] at hfresh
        cases hfresh
    refine ⟨hrandom, ⟨hidden_stage, hstart⟩, ⟨Place.lookup_insert hattributes, rfl, fun name => ?_⟩,
      hclean.touches hidden_stage touches_insert, hlog⟩
    exact iff_of_false (AList.notMem_empty name) List.not_mem_nil

/-- The script between its traps. -/
theorem safe_admission {settings : Settings} {v : Versions} (hv : v.Readable)
    (hsettings : checkSettings settings = .ok ()) (hclean : Clean start s) (hlog : s.log = []) :
    Safe py start (admission py settings v) s := by
  obtain ⟨hdatabase, huser⟩ := words_of_checkSettings hsettings
  refine safe_act trivial fun x s₁ _ hpassword => safe_orFail fun _ _ => safe_check fun _ => ?_
  cases hpassword
  refine safe_act trivial fun x s₂ _ hpgpass => safe_orFail fun _ _ => ?_
  cases hpgpass
  refine safe_checkClients (safe_observe hclean fun mainBefore hok => ?_)
  refine safe_observe hclean fun ciBefore _ => safe_check fun hsame => ?_
  rw [beq_iff_eq] at hsame
  subst hsame
  refine safe_act trivial fun x s₃ _ hrecovery => safe_check fun _ => ?_
  cases hrecovery
  refine safe_act trivial fun x s₄ _ hlook => ?_
  obtain ⟨rfl, -⟩ := hlook
  refine safe_mkdirIfAbsent hclean fun s₅ hclean₅ hlog₅ => ?_
  refine safe_act trivial fun x s₆ _ hlook => safe_check fun hprivate => ?_
  obtain ⟨rfl, rfl⟩ := hlook
  have hattributes : s₆.archives.attributes?.isSome := by
    rw [of_decide_eq_true hprivate]
    rfl
  refine safe_act trivial fun x s₇ hinv hmktemp => safe_orFail fun random hx => ?_
  rw [hlog] at hlog₅
  obtain ⟨hrandom, hown, hstaging⟩ :=
    staging_of_mktemp hinv hclean₅ hlog₅ hattributes hmktemp hx
  refine Safe.bind ((safe_archive hown (isAdmission_random hrandom) hv
    (printable_observation hdatabase huser hok) hstaging).tryCatch fun message t => ?_) ?_
  · refine safe_act hown fun _ _ _ _ => safe_orFail fun _ _ => safe_throw
  · intro _ t
    exact safe_act trivial fun _ _ _ _ => safe_orFail fun _ _ => safe_last trivial

theorem safe_script {settings : Settings} (hclean : Clean start s) (hlog : s.log = []) :
    Safe py start (script py settings) s := by
  refine safe_act trivial fun x s₁ _ hchart => safe_orFail fun chartInfo _ => ?_
  cases hchart
  refine safe_ofExcept fun v hv => safe_ofExcept fun _ hsettings => ?_
  refine safe_act trivial fun x s₂ _ hid => safe_check fun _ => ?_
  cases hid
  refine safe_act trivial fun x s₃ _ hmktemp => safe_orFail fun _ _ => ?_
  cases hmktemp
  refine (safe_admission (readable_of_checkVersions hv) hsettings hclean hlog).finallyDo fun t => ?_
  exact safe_last trivial

end Archive

/-! ## The contract -/

def system (py : Python Content) :
    System PUnit.{1} Command (Command.Value Content) (Site Content) where
  performs _ c s x s' := Performs py s c x s'
  env _ _ := False

theorem completedDbArchives_mem {p : Place Content} {found : List (Utc × String)} {name : String}
    {e : Entry Content} {observed : Utc} (h : completedDbArchives py p = .ok found)
    (he : p.lookup name = some e) (hcompleted : completedArchive py name e = .ok (some (observed, name))) :
    (observed, name) ∈ found := by
  cases p with
  | absent => cases he
  | other => cases he
  | directory attributes entries =>
    obtain ⟨_, -, h⟩ := Data.bind_eq_ok.mp h
    obtain ⟨listed, hlisted, h⟩ := Data.bind_eq_ok.mp h
    cases h
    rw [mem_sorted, List.reduceOption_mem_iff]
    exact mem_mapM_of hlisted (AList.mem_lookup_iff.mp he) hcompleted

theorem completedArchive_hidden {name : String} {e : Entry Content} (h : Hidden name) :
    completedArchive py name e = .ok none := by
  obtain ⟨rest, rfl⟩ := h
  unfold completedArchive
  rw [if_neg (by rw [isAdmission_hidden]; decide)]

theorem privatePlace_of_ok {p : Place Content} {found : List (Utc × String)}
    (h : completedDbArchives py p = .ok found) : PrivatePlace p := by
  cases p with
  | absent => exact .inl rfl
  | other => cases h
  | directory attributes entries =>
    obtain ⟨_, hprivate, -⟩ := Data.bind_eq_ok.mp h
    exact .inr (congrArg some (of_require hprivate))

/-- What the exporter accepted it accepts, the new archive included. -/
theorem Inv.accepts (h : Inv py start s) (hstart : ∃ found, completedDbArchives py start = .ok found) :
    ∃ found, completedDbArchives py s.archives = .ok found := by
  obtain ⟨found, hfound⟩ := hstart
  have hprivate := privatePlace_of_ok hfound
  have hall := (completedDbArchives_ok_iff hprivate).mp ⟨found, hfound⟩
  refine (completedDbArchives_ok_iff (h.privatePlace hprivate)).mpr fun name e he => ?_
  by_cases hname : Hidden name
  · exact ⟨none, completedArchive_hidden hname⟩
  · rcases h.added with hclean | ⟨name', d, observed, -, -, hlookup, hcompleted, -, hothers⟩
    · exact hall name e (by rw [← hclean name hname, he])
    · by_cases heq : name = name'
      · subst heq
        rw [hlookup] at he
        cases he
        exact ⟨_, hcompleted⟩
      · exact hall name e (by rw [← hothers name hname heq, he])

/-- Wherever the script is cut, it has modified nothing, and all it can have added in
sight is one archive that the exporter accepts and that was dumped between two equal
observations. -/
theorem admission_archive_accepted (py : Python Content) (settings : Settings)
    (start : Place Content)
    {c : Config PUnit.{1} Command (Command.Value Content) String Unit (Site Content)}
    (hr : (system py).Reaches ⟨fun _ => script py settings, ⟨start, []⟩⟩ c) :
    (∀ name e, start.lookup name = some e → c.shared.archives.lookup name = some e) ∧
      ((∀ name, ¬ Hidden name → c.shared.archives.lookup name = start.lookup name) ∨
        ∃ name d observed, isAdmission name = true ∧ start.lookup name = none ∧
          c.shared.archives.lookup name = some (.directory d) ∧
          completedArchive py name (.directory d) = .ok (some (observed, name)) ∧
          Steady c.shared.log ∧ ∀ other, ¬ Hidden other → other ≠ name →
            c.shared.archives.lookup other = start.lookup other) ∧
      ((∃ found, completedDbArchives py start = .ok found) →
        ∃ found, completedDbArchives py c.shared.archives = .ok found ∧
          ∀ name, ¬ Hidden name → start.lookup name = none →
            (c.shared.archives.lookup name).isSome → ∃ observed, (observed, name) ∈ found) := by
  have hclean : Clean start ⟨start, []⟩ := fun _ _ => rfl
  have hsound : (discipline py start).Sound
      (⟨fun _ => script py settings, ⟨start, []⟩⟩ :
        Config PUnit.{1} Command (Command.Value Content) String Unit (Site Content)) :=
    ⟨⟨fun _ _ h => h, id, .inl hclean⟩, fun _ => (safe_script hclean rfl).meets⟩
  have hinv : Inv py start c.shared := (hsound.reaches hr).1
  refine ⟨hinv.kept, hinv.added, fun hstart => ?_⟩
  obtain ⟨found, hfound⟩ := hinv.accepts hstart
  refine ⟨found, hfound, fun name hname hnone hsome => ?_⟩
  rcases hinv.added with hsame | ⟨name', d, observed, -, -, hlookup, hcompleted, -, hothers⟩
  · rw [hsame name hname, hnone] at hsome
    cases hsome
  · by_cases heq : name = name'
    · subst heq
      exact ⟨observed, completedDbArchives_mem hfound hlookup hcompleted⟩
    · rw [hothers name hname heq, hnone] at hsome
      cases hsome

namespace Sample

def settings : Settings where
  gitlabVersion := "v19.5.4"
  chartVersion := "10.5.4"
  pgHost := "postgres.db"
  pgPort := "5432"
  pgDatabase := "gitlab"
  pgUser := "gitlab"
  ciDbHost := "postgres.db"
  ciDbPort := "5432"
  ciDbName := "gitlab"
  ciDatabaseTasks := "false"

def observation : String :=
  "on|170002|gitlab|gitlab|10.0.0.5|5432|public|native|0123456789abcdef0123456789abcdef|12|0\n"

def file (content : String) : File String := ⟨⟨1000, 1000, 0o600⟩, content⟩

def random : String := "k3v9q2k3v9q2"

theorem random_isRandom : Site.isRandom random := by
  unfold Site.isRandom
  decide

def respond (s : Site String) : (c : Command) → Option (c.Value String × Site String)
  | .chartInfo => some (some ("v19.5.3\n", "10.5.3\n"), s)
  | .id => some ("1000:1000", s)
  | .mktempPrivate => some (some (), s)
  | .password => some (some "secret\n", s)
  | .writePgpass => some (some (), s)
  | .clientVersion _ => some (some "psql (PostgreSQL) 17.2\n", s)
  | .query => some (some observation, { s with log := .observed (trimNewlines observation) :: s.log })
  | .recovery => some (true, s)
  | .archives => some (s.archives, s)
  | .mkdirArchives => none
  | .mktemp =>
    match s.archives.lookup (".admission." ++ random) with
    | none => some (some random,
        s.put (".admission." ++ random) (.directory ⟨State.newDirectory, ∅⟩))
    | some _ => none
  | .pgDump stage =>
    let dumped := s.putFile stage Site.partialDump (file "dump")
    some (some (), { dumped with log := .dumped :: dumped.log })
  | .entry path => some (s.archives.lookup path, s)
  | .mvDump stage => some (some (), s.renameDump stage)
  | .sha256sum stage =>
    match s.file stage "database.dump" with
    | some _ => some (some (), s.putFile stage "database.sha256"
        (file (checksumText Sample.dumpDigest "database.dump")))
    | none => none
  | .pgRestoreList stage => some (some (), s.putFile stage "archive.list" (file "list"))
  | .sha256sumCheck _ => some (some (), s)
  | .date => some (⟨2026, 9, 30, 7, 5, 1⟩, s)
  | .writeAdmission stage text => some (some (), s.putFile stage "admission.txt" (file text))
  | .sync => some (some (), s)
  | .publish stage published =>
    match s.archives.lookup stage, s.archives.lookup published with
    | some e, none => some (some (),
        { s with archives := (s.archives.erase stage).insert published e })
    | _, _ => none
  | .removeStage _ => none
  | .removePrivate => some (some (), s)

theorem performs_of_respond {s s' : Site String} {c : Command} {x : c.Value String}
    (h : respond s c = some (x, s')) : Performs Sample.python s c x s' := by
  cases c with
  | query =>
    cases h
    exact .inr ⟨_, rfl, rfl⟩
  | archives =>
    cases h
    exact ⟨rfl, rfl⟩
  | mkdirArchives => cases h
  | mktemp =>
    simp only [respond] at h
    split at h
    · rename_i hfree
      cases h
      exact .inr ⟨random, random_isRandom, hfree, rfl, .inr rfl⟩
    · cases h
  | pgDump stage =>
    cases h
    exact ⟨_, .inr ⟨rfl, _, rfl, trivial⟩, rfl⟩
  | entry path =>
    cases h
    exact ⟨rfl, rfl⟩
  | mvDump stage =>
    cases h
    exact .inr rfl
  | sha256sum stage =>
    simp only [respond] at h
    split at h
    · rename_i dump hdump
      cases h
      exact .inr ⟨rfl, _, rfl, dump, hdump, rfl⟩
    · cases h
  | pgRestoreList stage =>
    cases h
    exact .inr ⟨rfl, _, rfl, trivial⟩
  | date =>
    cases h
    exact ⟨rfl, by decide⟩
  | writeAdmission stage text =>
    cases h
    exact .inr ⟨rfl, _, rfl, rfl⟩
  | publish stage published =>
    simp only [respond] at h
    split at h
    · rename_i e hstage hfree
      cases h
      exact .inr ⟨e, hstage, hfree, rfl⟩
    · cases h
  | removeStage stage => cases h
  | chartInfo | id | mktempPrivate | password | writePgpass | clientVersion | recovery
  | sha256sumCheck | sync | removePrivate =>
    cases h
    exact rfl

def responder : Responder (system Sample.python) Unit Empty where
  respond _ c s _ := respond s c
  happen e := e.elim
  performs_of_respond := performs_of_respond
  env_of_happen := fun {e} => e.elim

def noArchives : Place String := .directory State.newDirectory ∅

def published : String := "admission." ++ random

end Sample

/-- A run is cut right after the rename. -/
theorem cut_admission_accepted : ∃ c,
    (system Sample.python).Reaches (⟨fun _ => script Sample.python Sample.settings,
      ⟨Sample.noArchives, []⟩⟩ :
        Config PUnit.{1} Command (Command.Value String) String Unit (Site String)) c ∧
      ∃ found observed, completedDbArchives Sample.python c.shared.archives = .ok found ∧
        (observed, Sample.published) ∈ found := by
  have hrun : (Sample.responder.execute [.act ⟨⟩ (List.replicate 32 ())]
      (⟨fun _ => script Sample.python Sample.settings, ⟨Sample.noArchives, []⟩⟩ :
        Config PUnit.{1} Command (Command.Value String) String Unit (Site String))).any (fun c =>
        (c.shared.archives.lookup Sample.published).isSome) = true := by
    decide +kernel
  obtain ⟨c, hreach, hpublished⟩ := Responder.exists_reaches hrun
  obtain ⟨-, -, haccepts⟩ := admission_archive_accepted Sample.python Sample.settings _ hreach
  obtain ⟨found, hfound, hadded⟩ := haccepts ⟨[], rfl⟩
  have hvisible : ¬ Hidden Sample.published :=
    not_hidden_of_isAdmission (isAdmission_random Sample.random_isRandom)
  obtain ⟨observed, hmem⟩ := hadded _ hvisible rfl hpublished
  exact ⟨c, hreach, found, observed, hfound, hmem⟩

end ClusterState.Backup.Upgrade
