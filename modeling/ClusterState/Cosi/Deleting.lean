import ClusterState.Cosi.Buckets

/-! # Retried deletions

A deletion that fails between its two changes leaves a location behind. The retry finds no
entry, takes the bucket for deleted and never looks at the location.
-/

namespace ClusterState.Cosi.Buckets

open Concurrency

variable {Conf Bytes Location : Type} {F : FilerConf Conf Bytes Location} {id : String}
  {o : Outage} {s : Filer Bytes} {entries : Entries Bytes}

/-! ## Calls -/

theorem eval_call {α ε : Type} {c : Call Bytes} {next : c.Value → Rpc Bytes ε α} {x : c.Value}
    {s' : Filer Bytes} (h : o.respond c s = some (x, s')) :
    (call c >>= next).eval o.respond s = (next x).eval o.respond s' := Program.eval_ask h

theorem confKey_ne : (directoryEtcSeaweedFS, filerConfName) ≠ (filerBucketsPath, id) := by
  intro h
  exact absurd (show directoryEtcSeaweedFS = filerBucketsPath from congrArg Prod.fst h) (by decide)

theorem location_congr {entries entries' : Entries Bytes}
    (h : entries'.lookup (directoryEtcSeaweedFS, filerConfName) =
      entries.lookup (directoryEtcSeaweedFS, filerConfName)) (name : String) :
    location F entries' name = location F entries name := by
  rw [location, location, h]

theorem change_cases (there : Bool) (changed : Entries Bytes) : ∃ x entries',
    o.change s there changed = (x, ⟨entries', s.calls + 1⟩) ∧
    (x = .ok () → there = true ∧ entries' = changed) ∧
    (entries' = s.entries ∨ there = true ∧ entries' = changed) ∧
    (∀ err, x = .error err → isNotFoundError err → there = false) := by
  unfold Outage.change
  split
  · rename_i failure _
    refine ⟨_, _, rfl, nofun, ?_, fun err herr hnot => ?_⟩
    · by_cases hmade : (failure.made && there) = true
      · exact .inr ⟨(Bool.and_eq_true_iff.mp hmade).2, if_pos hmade⟩
      · exact .inl (if_neg hmade)
    · cases herr
      exact absurd hnot failure.error.2
  · cases there with
    | true => exact ⟨_, _, rfl, fun _ => ⟨rfl, rfl⟩, .inr ⟨rfl, rfl⟩, nofun⟩
    | false => exact ⟨_, _, rfl, nofun, .inl rfl, fun _ _ _ => rfl⟩

theorem eval_readFilerConf : ∃ x,
    (readFilerConf F).eval o.respond s = (some x, ⟨s.entries, s.calls + 1⟩) ∧
    ∀ fc, x = .ok fc → ∀ name, F.getLocationConf fc name = location F s.entries name := by
  have hread : o.lookup s (directoryEtcSeaweedFS, filerConfName) =
      ((o.lookup s (directoryEtcSeaweedFS, filerConfName)).1, ⟨s.entries, s.calls + 1⟩) := by
    unfold Outage.lookup
    split <;> rfl
  have hrespond : o.respond (.lookupDirectoryEntry directoryEtcSeaweedFS filerConfName) s = _ :=
    congrArg some hread
  rw [readFilerConf, eval_call hrespond]
  unfold Outage.lookup location
  cases o.failure s.calls with
  | some failure =>
    have hgenuine : ¬ noEntryIsFound failure.error.1 := fun h => failure.error.2 (.inr h)
    simp only [if_neg hgenuine]
    exact ⟨_, rfl, nofun⟩
  | none =>
    cases s.entries.lookup (directoryEtcSeaweedFS, filerConfName) with
    | none =>
      simp only [if_pos o.absent_text]
      refine ⟨.ok F.new, rfl, ?_⟩
      intro fc hfc name
      cases hfc
      exact F.get_new name
    | some content =>
      cases content with
      | none =>
        refine ⟨.ok F.new, rfl, ?_⟩
        intro fc hfc name
        cases hfc
        exact F.get_new name
      | some content =>
        simp only
        cases F.loadFromBytes content with
        | error err => exact ⟨_, rfl, nofun⟩
        | ok fc =>
          refine ⟨.ok fc, rfl, ?_⟩
          intro fc' hfc name
          cases hfc
          rfl

theorem location_insert {fc : Conf} {data : Bytes} (htext : F.toText fc = .ok data) (name : String) :
    location F (entries.insert (directoryEtcSeaweedFS, filerConfName) (some data)) name =
      F.getLocationConf fc name := by
  obtain ⟨fc', hload, hget⟩ := F.load_toText fc data htext
  rw [location, AList.lookup_insert]
  simp only [hload]
  exact hget name

theorem eval_createConf {data : Bytes} : ∃ x s',
    (do match ← call (.createEntry directoryEtcSeaweedFS filerConfName data) with
        | .ok () => pure ()
        | .error err => throw err.text : Rpc Bytes String Unit).eval o.respond s = (some x, s') ∧
    (x = .ok () → s'.entries = s.entries.insert (directoryEtcSeaweedFS, filerConfName) (some data)) ∧
    (s'.entries = s.entries ∨
      s'.entries = s.entries.insert (directoryEtcSeaweedFS, filerConfName) (some data)) := by
  obtain ⟨y, entries', hchange, hok, hcases, -⟩ := change_cases (o := o) (s := s) true
    (s.entries.insert (directoryEtcSeaweedFS, filerConfName) (some data))
  have hrespond : o.respond (.createEntry directoryEtcSeaweedFS filerConfName data) s = _ :=
    congrArg some hchange
  rw [eval_call hrespond]
  cases y with
  | ok u => exact ⟨_, _, rfl, fun _ => (hok rfl).2, hcases.imp id And.right⟩
  | error err => exact ⟨_, _, rfl, nofun, hcases.imp id And.right⟩

theorem eval_saveFilerConf {fc : Conf} : ∃ x s',
    (saveFilerConf F fc).eval o.respond s = (some x, s') ∧
    ((s'.entries = s.entries ∧ x ≠ .ok ()) ∨ ∃ data, F.toText fc = .ok data ∧
      s'.entries = s.entries.insert (directoryEtcSeaweedFS, filerConfName) (some data)) := by
  unfold saveFilerConf
  cases htext : F.toText fc with
  | error err => exact ⟨_, _, rfl, .inl ⟨rfl, nofun⟩⟩
  | ok data =>
    obtain ⟨y, entries', hchange, hok, hcases, -⟩ := change_cases (o := o) (s := s)
      (s.entries.lookup (directoryEtcSeaweedFS, filerConfName)).isSome
      (s.entries.insert (directoryEtcSeaweedFS, filerConfName) (some data))
    have hrespond : o.respond (.updateEntry directoryEtcSeaweedFS filerConfName data) s = _ :=
      congrArg some hchange
    rw [eval_call hrespond]
    cases y with
    | ok u => exact ⟨_, _, rfl, .inr ⟨data, rfl, (hok rfl).2⟩⟩
    | error err =>
      dsimp only
      split
      · obtain ⟨x, s', hcreate, hok', hcases'⟩ := @eval_createConf _ o ⟨entries', s.calls + 1⟩ data
        refine ⟨x, s', hcreate, ?_⟩
        rcases hcases with heq | ⟨-, heq⟩
        · rw [heq] at hok' hcases'
          rcases hcases' with hsame | hput
          · by_cases hx : x = .ok ()
            · exact .inr ⟨data, rfl, hok' hx⟩
            · exact .inl ⟨hsame, hx⟩
          · exact .inr ⟨data, rfl, hput⟩
        · refine .inr ⟨data, rfl, ?_⟩
          rw [heq] at hcases'
          rcases hcases' with hsame | hput
          · exact hsame
          · rw [hput, AList.insert_insert]
      · rcases hcases with hsame | ⟨-, hput⟩
        · exact ⟨_, _, rfl, .inl ⟨hsame, nofun⟩⟩
        · exact ⟨_, _, rfl, .inr ⟨data, rfl, hput⟩⟩

/-! ## A call -/

theorem lookup_insert_conf {content : Option Bytes} :
    (entries.insert (directoryEtcSeaweedFS, filerConfName) content).lookup (filerBucketsPath, id) =
      entries.lookup (filerBucketsPath, id) := AList.lookup_insert_ne confKey_ne.symm

theorem location_erase (name : String) :
    location F (entries.erase (filerBucketsPath, id)) name = location F entries name :=
  location_congr (AList.lookup_erase_ne confKey_ne) name

/-- Only the location of the bucket is touched, and it is gone if the call returns. -/
theorem eval_deleteLocation : ∃ x s', (deleteLocation F id).eval o.respond s = (some x, s') ∧
    s'.entries.lookup (filerBucketsPath, id) = s.entries.lookup (filerBucketsPath, id) ∧
    (∀ name, name ≠ bucketLocation id → location F s'.entries name = location F s.entries name) ∧
    (x = .ok () → location F s'.entries (bucketLocation id) = none) := by
  unfold deleteLocation
  obtain ⟨read, hread, hfc⟩ := eval_readFilerConf (F := F) (o := o) (s := s)
  cases read with
  | error err => exact ⟨_, _, Program.eval_bind_error hread, rfl, fun _ _ => rfl, nofun⟩
  | ok fc =>
    rw [Program.eval_bind_ok hread]
    have hlocation := hfc fc rfl
    split
    · rename_i hnone
      refine ⟨_, _, rfl, rfl, fun _ _ => rfl, fun _ => ?_⟩
      rw [← hlocation]
      exact Option.isNone_iff_eq_none.mp hnone
    · obtain ⟨x, s', hsave, hcases⟩ := @eval_saveFilerConf _ _ _ F o
        ⟨s.entries, s.calls + 1⟩ (F.deleteLocationConf fc (bucketLocation id))
      refine ⟨x, s', hsave, ?_⟩
      rcases hcases with ⟨hsame, hfailed⟩ | ⟨data, htext, hput⟩
      · rw [hsame]
        exact ⟨rfl, fun _ _ => rfl, fun hok => absurd hok hfailed⟩
      · rw [hput]
        refine ⟨lookup_insert_conf, ?_, ?_⟩
        · intro name hname
          rw [location_insert htext, F.get_delete, if_neg hname, hlocation]
        · intro _
          rw [location_insert htext, F.get_delete, if_pos rfl]

structure Ends (F : FilerConf Conf Bytes Location) (id : String) (before : Entries Bytes)
    (returned : Prop) (entries : Entries Bytes) : Prop where
  others : ∀ name, name ≠ bucketLocation id → location F entries name = location F before name
  entry : returned → entries.lookup (filerBucketsPath, id) = none
  location : returned → Resumable F id before → Buckets.location F entries (bucketLocation id) = none

theorem ends_of_failed {before entries : Entries Bytes} {returned : Prop}
    (hothers : ∀ name, name ≠ bucketLocation id → location F entries name = location F before name)
    (hfailed : ¬ returned) : Ends F id before returned entries :=
  ⟨hothers, fun h => absurd h hfailed, fun h => absurd h hfailed⟩

theorem eval_deleteBucket : ∃ x s', (deleteBucket F id).eval o.respond s = (some x, s') ∧
    Ends F id s.entries (x = .ok ()) s'.entries := by
  have hdial : ∃ y, o.respond .dial s = some (y, ⟨s.entries, s.calls + 1⟩) := by
    cases hfailure : o.failure s.calls with
    | none => exact ⟨.ok (), by simp [Outage.respond, Outage.dial, hfailure]⟩
    | some failure => exact ⟨.error failure.error.1, by simp [Outage.respond, Outage.dial, hfailure]⟩
  obtain ⟨dialled, hdial⟩ := hdial
  rw [deleteBucket, withFilerClient, eval_call hdial]
  cases dialled with
  | error err => exact ⟨_, _, rfl, ends_of_failed (fun _ _ => rfl) nofun⟩
  | ok u =>
    obtain ⟨y, entries', hchange, hok, hcases, habsent⟩ := change_cases (o := o)
      (s := ⟨s.entries, s.calls + 1⟩) (s.entries.lookup (filerBucketsPath, id)).isSome
      (s.entries.erase (filerBucketsPath, id))
    have hrespond : o.respond (.deleteEntry filerBucketsPath id) ⟨s.entries, s.calls + 1⟩ = _ :=
      congrArg some hchange
    have hothers : ∀ name, location F entries' name = location F s.entries name := by
      intro name
      rcases hcases with heq | ⟨-, heq⟩
      · rw [heq]
      · rw [heq, location_erase]
    dsimp only
    rw [eval_call hrespond]
    cases y with
    | error err =>
      dsimp only
      split
      · rename_i hnotFound
        have hgone : s.entries.lookup (filerBucketsPath, id) = none := by
          simpa using habsent err rfl hnotFound
        have hsame : entries' = s.entries := by
          rcases hcases with heq | ⟨hthere, -⟩
          · exact heq
          · rw [hgone] at hthere
            cases hthere
        refine ⟨_, _, rfl, fun name _ => hothers name, fun _ => ?_, fun _ hresumable => ?_⟩
        · rw [hsame, hgone]
        · rw [hsame]
          exact hresumable.resolve_left fun hthere => hthere hgone
      · exact ⟨_, _, rfl, ends_of_failed (fun name _ => hothers name) nofun⟩
    | ok u =>
      obtain ⟨x, s', heval, hentry, hkept, hlocation⟩ := @eval_deleteLocation _ _ _ F id o
        ⟨entries', s.calls + 1 + 1⟩
      refine ⟨x, s', heval, fun name hname => ?_, fun _ => ?_, fun hreturned _ => hlocation hreturned⟩
      · rw [hkept name hname, hothers]
      · rw [hentry, (hok rfl).2, AList.lookup_erase]

theorem attempt_ends : Ends F id entries ((attempt F id o entries).1 = some (.ok ()))
    (attempt F id o entries).2.entries := by
  obtain ⟨x, s', heval, hends⟩ := @eval_deleteBucket _ _ _ F id o ⟨entries, 0⟩
  have houtcome := @Program.eval_outcome _ _ _ _ _ o.respond Status (deleteBucket F id)
    ⟨entries, 0⟩
  rw [heval] at houtcome
  rw [attempt, driverDeleteBucket, Program.eval_bind_ok houtcome]
  cases x with
  | ok u => exact ⟨hends.others, fun _ => hends.entry rfl, fun _ => hends.location rfl⟩
  | error err => exact ends_of_failed hends.others nofun

/-- A bucket whose entry is gone is taken for deleted. -/
theorem attempt_calm (hgone : entries.lookup (filerBucketsPath, id) = none) :
    (attempt F id .calm entries).1 = some (.ok ()) ∧
      (attempt F id .calm entries).2.entries = entries := by
  have habsent : isNotFoundError Outage.calm.absent := .inr Outage.calm.absent_text
  have hdelete : Outage.calm.respond (.deleteEntry filerBucketsPath id) ⟨entries, 1⟩ =
      some (.error Outage.calm.absent, ⟨entries, 2⟩) := by
    simp [Outage.respond, Outage.change, Outage.calm, hgone]
  have heval : (deleteBucket F id).eval Outage.calm.respond ⟨entries, 0⟩ =
      (some (.ok ()), ⟨entries, 2⟩) := by
    have hdial : Outage.calm.respond .dial ⟨entries, 0⟩ = some (.ok (), ⟨entries, 1⟩) := rfl
    rw [deleteBucket, withFilerClient, eval_call hdial]
    dsimp only
    rw [eval_call hdelete]
    simp only [if_pos habsent, Program.eval_pure]
  have houtcome := @Program.eval_outcome _ _ _ _ _ Outage.calm.respond Status
    (deleteBucket F id) ⟨entries, 0⟩
  rw [heval] at houtcome
  rw [attempt, driverDeleteBucket, Program.eval_bind_ok houtcome]
  exact ⟨rfl, rfl⟩

/-! ## Calls one after the other -/

theorem attempts_others (outages : List Outage) : ∀ name, name ≠ bucketLocation id →
    location F (attempts F id entries outages) name = location F entries name := by
  induction outages generalizing entries with
  | nil => exact fun _ _ => rfl
  | cons o outages ih =>
    intro name hname
    rw [attempts, List.foldl_cons, ← attempts, ih name hname]
    exact attempt_ends.others name hname

/-- After any calls, whatever has failed in them: a call that returns has deleted the bucket,
just when the entry is still there or its location is gone with it. -/
theorem deletion_retried_iff (F : FilerConf Conf Bytes Location) (id : String)
    (entries : Entries Bytes) (outages : List Outage) :
    (∀ o, (attempt F id o (attempts F id entries outages)).1 = some (.ok ()) →
      Deleted F id entries (attempt F id o (attempts F id entries outages)).2.entries) ↔
    Resumable F id (attempts F id entries outages) := by
  constructor
  · intro h
    by_cases hgone : (attempts F id entries outages).lookup (filerBucketsPath, id) = none
    · obtain ⟨hreturned, hsame⟩ := attempt_calm (F := F) hgone
      have hdeleted := h .calm hreturned
      rw [hsame] at hdeleted
      exact .inr hdeleted.location
    · exact .inl hgone
  · intro hresumable o hreturned
    have hends := @attempt_ends _ _ _ F id o (attempts F id entries outages)
    refine ⟨hends.entry hreturned, hends.location hreturned hresumable, fun name hname => ?_⟩
    rw [hends.others name hname, attempts_others outages name hname]

/-! ## A deletion that is interrupted -/

namespace Sample

/-- A configuration is the map of its locations, and so is its text. -/
def filerConf : FilerConf (AList fun _ : String => String) (AList fun _ : String => String) String where
  new := ∅
  loadFromBytes := .ok
  toText := .ok
  getLocationConf fc location := fc.lookup location
  deleteLocationConf fc location := fc.erase location
  get_new := AList.lookup_empty
  get_delete fc location location' := by
    split
    · rename_i heq
      rw [heq, AList.lookup_erase]
    · rename_i hne
      exact AList.lookup_erase_ne hne
  load_toText _ _ h := ⟨_, rfl, fun _ => congrArg (AList.lookup _) (Except.ok.inj h).symm⟩

def ssdBucket : Entries (AList fun _ : String => String) :=
  ((∅ : Entries _).insert (filerBucketsPath, "media") none).insert
    (directoryEtcSeaweedFS, filerConfName) (some (AList.singleton "/buckets/media/" "ssd"))

/-- The third call fails, in which the configuration is read. -/
def interrupted : Outage :=
  { Outage.calm with
    failure := fun n => if n = 2 then some ⟨false, ⟨.unavailable, "transport is closing"⟩,
      by decide⟩ else none }

end Sample

theorem retried_deletion_leaves_location : ¬ ∀ (id : String)
    (entries : Entries (AList fun _ : String => String)) (outages : List Outage) (o : Outage),
    (attempt Sample.filerConf id o (attempts Sample.filerConf id entries outages)).1 =
      some (.ok ()) →
    Deleted Sample.filerConf id entries
      (attempt Sample.filerConf id o (attempts Sample.filerConf id entries outages)).2.entries := by
  intro h
  have hdeleted := h "media" Sample.ssdBucket [Sample.interrupted] .calm (by decide)
  have hlocation := hdeleted.location
  revert hlocation
  decide

end ClusterState.Cosi.Buckets
