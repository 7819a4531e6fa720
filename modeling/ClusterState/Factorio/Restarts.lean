import ClusterState.Factorio.Runs

/-! # Starting again and again

A start is cut off in the script or in the server that it becomes. The next one, of
this version or of another one, finds what was left.
-/

namespace ClusterState.Factorio

open Concurrency State

def State.begin (s : State) : State := { s with failed := false }

inductive Starts (s : State) : State → Prop
  | script (cfg : Sources) (settings : Settings) (c : Run) (hrun : RunsTo cfg settings s.begin c) :
      Starts s c.shared
  | server (cfg : Sources) (settings : Settings) (c : Run) (t : State)
      (hrun : RunsTo cfg settings s.begin c) (hdone : c.procs ⟨⟩ = .done ())
      (hplays : c.shared.Plays t) : Starts s t

def Restarts : State → State → Prop := Relation.ReflTransGen Starts

section Restarts

variable {cfg : Sources} {settings : Settings} {s t u : State} {c : Run} {p : Place} {name : Name}
  {version : Text}

@[simp] theorem entry_begin : s.begin.entry p name = s.entry p name := by cases p <;> rfl

theorem Restarts.induct {P : State → Prop} (hbegin : ∀ s, P s → P s.begin)
    (hscript : ∀ cfg settings s c, RunsTo cfg settings s c → P s → P c.shared)
    (hserver : ∀ t u version, t.Started version → t.Plays u → P t → P u)
    (h : Restarts s t) (hs : P s) : P t := by
  induction h with
  | refl => exact hs
  | tail _ hstart ih =>
    cases hstart with
    | script cfg settings c hrun => exact hscript cfg settings _ c hrun (hbegin _ ih)
    | server cfg settings c u hrun hdone hplays =>
      have hmeets := hrun.meets.2
      rw [hdone] at hmeets
      exact hserver c.shared _ settings.version hmeets hplays (hscript cfg settings _ c hrun (hbegin _ ih))

/-! ## The world -/

def State.Settled (s : State) : Prop := s.Marked ∧ s.Sole

theorem RunsTo.marker (h : RunsTo cfg settings s c) (hs : s.Marked) :
    Same .top worldMarker s c.shared := by
  refine h.preserves (P := Same .top worldMarker s) (fun r u x v hguard hp hsame => ?_) rfl
  by_cases htouches : r.Touches .top worldMarker
  · obtain ⟨temp, rfl⟩ := htouches.marker (m := .world) hguard
    obtain ⟨-, -, hunmarked, -⟩ := hguard
    exact absurd (hsame.entry.symm.trans hunmarked) hs.not_unmarked
  · exact hsame.trans (same_of_performs hp htouches)

theorem RunsTo.sole (h : RunsTo cfg settings s c) (hs : s.Sole) : c.shared.Sole where
  regular := by
    cases h.fate finalSave with
    | same h =>
      rw [h.entry]
      exact hs.regular
    | removed hname _ _ => exact absurd hname (by decide)
    | replaced hname _ _ => exact absurd hname (by decide)
    | made _ _ hfile => exact hfile
  only name hname hfile := by
    cases h.fate name with
    | same h =>
      rw [h.entry] at hfile
      exact hs.only name hname hfile
    | removed _ _ hgone =>
      rw [hgone] at hfile
      cases hfile
    | replaced _ _ hgone =>
      rw [hgone] at hfile
      cases hfile
    | made hname _ _ => exact hname

theorem State.Same.marked (h : Same .top worldMarker s t) (hs : s.Marked) : t.Marked := by
  obtain ⟨content, hentry, htext⟩ := hs
  exact ⟨content, h.entry.trans hentry, htext⟩

theorem State.SameWorld.begin : s.SameWorld s.begin := ⟨entry_begin, entry_begin, fun _ _ => entry_begin⟩

theorem Restarts.settled (h : Restarts s t) (hs : s.Settled) : t.Settled := by
  refine h.induct (P := State.Settled) (fun s hs => ?_) (fun cfg settings s c hrun hs => ?_)
    (fun t u version _ hplays ht => ?_) hs
  · exact ⟨State.SameWorld.begin.marked hs.1, State.SameWorld.begin.sole hs.2⟩
  · exact ⟨(hrun.marker hs.1).marked hs.1, hrun.sole hs.2⟩
  · exact ⟨State.Same.marked (hplays.own _ (by decide)) ht.1, hplays.sole ht.2⟩

/-! ## The backups -/

theorem State.KeepsBackups.trans (h : s.KeepsBackups t) (h' : t.KeepsBackups u) :
    s.KeepsBackups u := by
  intro name files hentry
  obtain ⟨files', hentry', hfiles⟩ := h name files hentry
  obtain ⟨files'', hentry'', hfiles'⟩ := h' name files' hentry'
  exact ⟨files'', hentry'', fun key leaf hkey => hfiles' key leaf (hfiles key leaf hkey)⟩

theorem keepsBackups_of_same (h : ∀ name, Same .preUpgrade name s t) : s.KeepsBackups t :=
  fun name files hentry => ⟨files, (h name).entry.trans hentry, fun _ _ => id⟩

theorem Restarts.keepsBackups (h : Restarts s t) : s.KeepsBackups t := by
  refine h.induct (P := s.KeepsBackups) (fun u hu => ?_) (fun cfg settings u c hrun hu => ?_)
    (fun u v version _ hplays hu => ?_) (keepsBackups_of_same fun _ => rfl)
  · exact hu.trans (keepsBackups_of_same fun _ => entry_begin)
  · exact hu.trans hrun.keepsBackups
  · exact hu.trans (keepsBackups_of_same hplays.preUpgrade)

/-- No sequence of starts, each cut off anywhere, loses the published world or takes anything
away from a backup. -/
theorem restarts_keep (h : Restarts s t) :
    (s.Marked → s.Sole → t.Marked ∧ t.Sole) ∧ s.KeepsBackups t :=
  ⟨fun hmarked hsole => h.settled ⟨hmarked, hsole⟩, h.keepsBackups⟩

/-! ## Starts that are cut off -/

/-- Starts of some settings, each cut off after so many commands. -/
def startsOf (cfg : Sources) : List (Settings × Nat) → State → Option State
  | [], s => some s
  | (settings, n) :: rest, s =>
    ((responder cfg).execute [.act ⟨⟩ (List.replicate n true)] ⟨fun _ => script settings, s.begin⟩).bind
      fun c => startsOf cfg rest c.shared

theorem restarts_of_startsOf {starts : List (Settings × Nat)} (h : startsOf cfg starts s = some t) :
    Restarts s t := by
  induction starts generalizing s with
  | nil =>
    cases h
    exact .refl
  | cons start rest ih =>
    obtain ⟨c, hrun, hrest⟩ := Option.bind_eq_some_iff.mp h
    have hreach : RunsTo cfg start.1 s.begin c := Responder.execute_reaches hrun
    exact .head (.script cfg start.1 c hreach) (ih hrest)

namespace Sample

def settingsOf (pid : String) : Settings := { Sample.settings with pid := pid.toList }

def earlier : Name := "from-2.0.77-to-2.0.78-20260101T000000Z".toList

/-- There is a backup from an earlier attempt, with another world. -/
def stocked : State :=
  { started with
    preUpgrade := AList.singleton earlier (.directory (AList.singleton finalSave (.file "older".toList))) }

/-- One start is cut off while the world is copied, one before the version marker is written. -/
def interrupted : List (Settings × Nat) := [(settingsOf "7", 41), (settingsOf "8", 45)]

theorem stocked_marked : stocked.Marked := started_marked

theorem stocked_sole : stocked.Sole := ⟨started_sole.regular, started_sole.only⟩

end Sample

/-- After two starts that are cut off and one that is not, the world and the earlier backup are
there. -/
theorem restarts_keep_started : ∃ t, Restarts Sample.stocked t ∧
    t.entry .top versionMarker = some (.file "2.0.78\n".toList) ∧ t.Marked ∧ t.Sole ∧
    ∃ files, t.entry .preUpgrade Sample.earlier = some (.directory files) ∧
      files.lookup finalSave = some (.file "older".toList) := by
  have hrun : (startsOf Sample.sources (Sample.interrupted ++ [(Sample.settingsOf "9", 57)])
      Sample.stocked).any (fun t => hasFile t .top versionMarker "2.0.78\n".toList) = true := by
    decide +kernel
  obtain ⟨t, hstarts, hmarker⟩ := (Option.any_eq_true _ _).mp hrun
  have hrestarts := restarts_of_startsOf hstarts
  obtain ⟨hworld, hbackups⟩ := restarts_keep hrestarts
  obtain ⟨hmarked, hsole⟩ := hworld Sample.stocked_marked Sample.stocked_sole
  obtain ⟨files, hentry, hfiles⟩ := hbackups Sample.earlier _ rfl
  exact ⟨t, hrestarts, entry_of_hasFile hmarker, hmarked, hsole, files, hentry, hfiles _ _ rfl⟩

/-! ## Recovery -/

theorem RunsTo.legacy (h : RunsTo cfg settings s c)
    (hfile : isFile (c.shared.entry .saves legacySave) = true) :
    isFile (s.entry .saves legacySave) = true := by
  cases h.fate legacySave with
  | same h =>
    rw [← h.entry]
    exact hfile
  | removed hname _ _ => exact absurd hname (by decide)
  | replaced _ _ hgone =>
    rw [hgone] at hfile
    cases hfile
  | made hname _ _ => exact absurd hname (by decide)

theorem State.Plays.legacy (h : s.Plays t) (hfile : isFile (t.entry .saves legacySave) = true) :
    isFile (s.entry .saves legacySave) = true := by
  rcases h.saves legacySave with hsame | htemp | hauto | ⟨hname, -⟩
  · rw [← hsame]
    exact hfile
  · exact absurd htemp (by decide)
  · exact absurd hauto (by decide)
  · exact absurd hname (by decide)

theorem State.Ready.begin (h : s.Ready version) : s.begin.Ready version where
  toAdmissible := h.toAdmissible.of_same (fun _ _ => entry_begin) fun _ _ => entry_begin
  legacy hfile := by
    rw [entry_begin] at hfile
    exact h.legacy hfile

theorem Restarts.ready (h : Restarts s t) (hs : s.Ready version) : t.Ready version := by
  refine h.induct (P := fun s => s.Ready version) (fun s hs => hs.begin)
    (fun cfg settings s c hrun hs => ?_) (fun t u _ hstarted hplays ht => ?_) hs
  · exact ⟨hrun.meets.1 hs.toAdmissible, fun hfile => hs.legacy (hrun.legacy hfile)⟩
  · refine ⟨?_, fun hfile => ht.legacy (hplays.legacy hfile)⟩
    exact hplays.admissible ht.toAdmissible hstarted.marked hstarted.sole

/-- Wherever earlier starts were cut off, and whatever has failed in them: the next one gives
up only after a command of its own has failed. -/
theorem failed_of_raise {e : Exit} (hfine : Fine cfg settings s) (hrestarts : Restarts s t)
    (hrun : RunsTo cfg settings t.begin c) (hraise : c.procs ⟨⟩ = .raise e) :
    c.shared.failed = true := by
  have hmeets := hrun.meets.2
  rw [hraise] at hmeets
  exact hmeets ⟨hfine.sources, hfine.version_ne, hfine.nul_not_mem, hfine.getLast?_ne,
    (hrestarts.ready hfine.ready).begin⟩

theorem Sample.fine : Fine Sample.sources (Sample.settingsOf "9") Sample.stocked where
  sources := ⟨⟨"/config".toList, rfl, fun name _ => ⟨_, rfl, Sample.within_config name⟩⟩, rfl⟩
  version_ne := by decide
  nul_not_mem := by decide
  getLast?_ne := by decide
  ready := {
    creationRoots := fun name hname => .inl (Sample.entry_started_top (ne_of_isCreationRoot hname).1.symm
      (ne_of_isCreationRoot hname).2.symm)
    markerTemps := fun name hname => .inl (Sample.entry_started_top (ne_of_isMarkerTemp hname).1.symm
      (ne_of_isMarkerTemp hname).2.symm)
    version := .inr (by decide +kernel)
    world := .marked Sample.stocked_marked Sample.stocked_sole
    legacy := by decide +kernel }

/-- Two starts are cut off, and leave a temporary marker; after the next one has removed it, the
server cannot be executed. -/
theorem failed_of_raise_started : ∃ t c e, Restarts Sample.stocked t ∧
    isFile (t.entry .top (Marker.version.tempPrefix ++ "5vK8PQnb".toList)) = true ∧
    RunsTo Sample.sources (Sample.settingsOf "9") t.begin c ∧
    c.procs ⟨⟩ = .raise e ∧ c.shared.failed = true := by
  have hrun : (startsOf Sample.sources Sample.interrupted Sample.stocked).any (fun t =>
      isFile (t.entry .top (Marker.version.tempPrefix ++ "5vK8PQnb".toList)) &&
        ((responder Sample.sources).execute [.act ⟨⟩ (List.replicate 56 true ++ [false])]
          ⟨fun _ => script (Sample.settingsOf "9"), t.begin⟩).any fun c => gaveUp (c.procs ⟨⟩)) =
      true := by
    decide +kernel
  obtain ⟨t, hstarts, hcheck⟩ := (Option.any_eq_true _ _).mp hrun
  obtain ⟨htemp, hlast⟩ := (Bool.and_eq_true _ _).mp hcheck
  have hrestarts := restarts_of_startsOf hstarts
  obtain ⟨c, hreach, hgaveUp⟩ := Responder.exists_reaches hlast
  obtain ⟨e, hraise⟩ := eq_raise_of_gaveUp hgaveUp
  exact ⟨t, c, e, hrestarts, htemp, hreach, hraise, failed_of_raise Sample.fine hrestarts hreach hraise⟩

end Restarts

end ClusterState.Factorio
