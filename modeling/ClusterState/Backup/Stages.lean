import ClusterState.Backup.Archiving

/-! # What the script puts into its stage

Command by command: what the stage holds, and what the script may do next.
-/

namespace ClusterState.Backup.Upgrade

open Concurrency

variable {Content : Type} {py : Python Content} {start : Place Content} {s t : Site Content}

/-! ## The stage -/

structure Holds (s : Site Content) (stage : String) (names : List String) (d : Directory Content) :
    Prop where
  entry : s.archives.lookup stage = some (.directory d)
  attributes : d.attributes = State.newDirectory
  names : ∀ name, name ∈ d.files ↔ name ∈ names

variable {stage : String} {names : List String} {d : Directory Content}

theorem Holds.putFile (h : Holds s stage names d) (name : String) (f : File Content) :
    Holds (s.putFile stage name f) stage (name :: names)
      { d with files := d.files.insert name (.file f) } where
  entry := by
    simp only [Site.putFile, h.entry]
    exact Place.lookup_insert (Place.attributes_of_lookup h.entry)
  attributes := h.attributes
  names other := by
    rw [AList.mem_insert, h.names, List.mem_cons]

theorem Holds.file {name : String} {f : File Content} (h : Holds s stage names d)
    (hf : d.files.lookup name = some (.file f)) : s.file stage name = some f := by
  simp only [Site.file, h.entry, hf]

theorem Holds.log {log : List Event} (h : Holds s stage names d) :
    Holds { s with log := log } stage names d := ⟨h.entry, h.attributes, h.names⟩

theorem Holds.renameDump (h : Holds s stage [Site.partialDump] d) {f : File Content}
    (hf : d.files.lookup Site.partialDump = some (.file f)) :
    ∃ d', Holds (s.renameDump stage) stage ["database.dump"] d' ∧
      d'.files.lookup "database.dump" = some (.file f) := by
  have hrenamed : Site.renamed d.files =
      (d.files.erase Site.partialDump).insert "database.dump" (.file f) := by
    rw [Site.renamed, hf]
  refine ⟨{ d with files := Site.renamed d.files }, ⟨?_, h.attributes, fun name => ?_⟩, ?_⟩
  · simp only [Site.renameDump, h.entry]
    exact Place.lookup_insert (Place.attributes_of_lookup h.entry)
  · rw [hrenamed, AList.mem_insert, AList.mem_erase, h.names, List.mem_singleton, List.mem_singleton]
    tauto
  · rw [hrenamed, AList.lookup_insert]

theorem size_of_nonEmpty {name : String} {f : File Content} (h : Holds s stage names d)
    (hf : d.files.lookup name = some (.file f))
    (hsize : nonEmpty py (s.archives.lookup stage) name = true) : 0 < py.size f.content := by
  simpa [nonEmpty, h.entry, hf] using hsize

theorem privateFile_of_hasPrivateMode {leaf : Leaf Content} (h : hasPrivateMode leaf = true) :
    privateFile leaf = .ok () := by
  cases leaf with
  | file f => exact require_of (of_decide_eq_true h)
  | other => cases h

/-- What the exporter asks of an archive. -/
theorem completedArchive_ok {name text : String} {observed : Utc} {dump checksum list metadata : File Content}
    (hname : isAdmission name = true) (hattributes : d.attributes = State.newDirectory)
    (hnames : ∀ name, name ∈ d.files ↔ name ∈ archiveFiles)
    (hprivate : ∀ entry ∈ d.files.entries, hasPrivateMode entry.2 = true)
    (hdump : d.files.lookup "database.dump" = some (.file dump))
    (hchecksum : d.files.lookup "database.sha256" = some (.file checksum))
    (hlist : d.files.lookup "archive.list" = some (.file list))
    (hmetadata : d.files.lookup "admission.txt" = some (.file metadata))
    (hsum : checksum.content = py.ofText (checksumText (py.sha256 dump.content) "database.dump"))
    (hdumpSize : 0 < py.size dump.content) (hlistSize : 0 < py.size list.content)
    (htext : metadata.content = py.ofText text) (hreturn : '\r' ∉ text.toList)
    (hobserved : observedAt py text = .ok observed) :
    completedArchive py name (.directory d) = .ok (some (observed, name)) := by
  have hfiles : exactFiles d archiveFiles "unknown completed admission contents" = .ok () := by
    have hkeys : d.files.keys ⊆ archiveFiles ∧ archiveFiles ⊆ d.files.keys :=
      ⟨fun name hname => (hnames name).mp hname, fun name hname => (hnames name).mpr hname⟩
    have hmode : d.attributes = ⟨1000, 1000, 0o700⟩ := hattributes
    rw [exactFiles, privateDirectory, require_of hmode, require_of hkeys]
    exact forM_ok fun entry hentry => privateFile_of_hasPrivateMode (hprivate entry hentry)
  have hreturnName : '\r' ∉ "database.dump".toList := by decide
  have hread : readText py d "database.sha256" =
      .ok (checksumText (py.sha256 dump.content) "database.dump") := by
    simp only [readText, content, hchecksum, hsum, bind, Except.bind,
      py.text_ofText _ (return_not_mem_checksumText hreturnName)]
  have hdigest : digest py d "database.dump" = .ok (py.sha256 dump.content) := by
    rw [digest, content, hdump]
    rfl
  have hcontent : content d "database.dump" = .ok dump.content := by rw [content, hdump]
  have hlisting : content d "archive.list" = .ok list.content := by rw [content, hlist]
  have hreadMetadata : readText py d "admission.txt" = .ok text := by
    simp only [readText, content, hmetadata, htext, bind, Except.bind, py.text_ofText _ hreturn]
  rw [completedArchive, if_pos hname]
  simp only [hfiles, hread, hdigest, hcontent, hlisting, hreadMetadata, hobserved, bind, Except.bind]
  rw [require_of ⟨trivial, hdumpSize, hlistSize⟩]

/-! ## Command by command -/

section Commands

variable (py start)

/-- From here on the script keeps the contract. -/
structure Safe {α : Type} (m : Script Content α) (s : Site Content) : Prop where
  meets : (discipline py start).Meets ⟨⟩ (fun _ _ => True) (fun _ _ => True) m s

variable {py start} {α β : Type}

theorem safe_act {c : Command} {f : c.Value Content → Script Content α}
    (hguard : Guard py start c s)
    (hnext : ∀ x t, Inv py start s → Performs py s c x t → Safe py start (f x) t) :
    Safe py start (act c >>= f) s :=
  ⟨Discipline.meets_ask hguard fun x t hinv hperforms => (hnext x t hinv hperforms).meets⟩

theorem safe_throw {reason : String} : Safe py start (throw reason : Script Content α) s := ⟨trivial⟩

theorem safe_last {c : Command} {reason : String} {f : c.Value Content → Option Unit}
    (hguard : Guard py start c s) : Safe py start (act c >>= fun x => orFail reason (f x)) s := by
  refine safe_act hguard fun x t _ _ => ?_
  cases f x with
  | none => exact safe_throw
  | some u => exact ⟨trivial⟩

theorem safe_orFail {reason : String} {o : Option β} {f : β → Script Content α}
    (h : ∀ b, o = some b → Safe py start (f b) s) : Safe py start (orFail reason o >>= f) s := by
  cases o with
  | none => exact safe_throw
  | some b => exact h b rfl

theorem safe_check {ok : Bool} {reason : String} {f : Unit → Script Content α}
    (h : ok = true → Safe py start (f ()) s) : Safe py start (check ok reason >>= f) s := by
  cases ok with
  | false => exact safe_throw
  | true => exact h rfl

theorem safe_end {ok : Bool} {reason : String} :
    Safe py start (check ok reason : Script Content Unit) s := by
  cases ok with
  | false => exact safe_throw
  | true => exact ⟨trivial⟩

theorem Safe.bind {m : Script Content β} {f : β → Script Content α} (hm : Safe py start m s)
    (hf : ∀ b t, Safe py start (f b) t) : Safe py start (m >>= f) s :=
  ⟨hm.meets.bind fun b t _ => (hf b t).meets⟩

theorem Safe.tryCatch {m : Script Content α} {handle : String → Script Content α}
    (hm : Safe py start m s) (hhandle : ∀ e t, Safe py start (handle e) t) :
    Safe py start (tryCatchThe String m handle) s :=
  ⟨hm.meets.tryCatch fun e t _ => (hhandle e t).meets⟩

theorem Safe.finallyDo {m : Script Content α} {last : Script Content PUnit}
    (hm : Safe py start m s) (hlast : ∀ t, Safe py start last t) :
    Safe py start (m.finallyDo last) s :=
  ⟨hm.meets.finallyDo (fun _ t _ => (hlast t).meets) fun _ t _ => (hlast t).meets⟩

theorem safe_ofExcept {x : Except String β} {f : β → Script Content α}
    (h : ∀ b, x = .ok b → Safe py start (f b) s) : Safe py start (Program.ofExcept x >>= f) s := by
  cases x with
  | error e => exact safe_throw
  | ok b => exact h b rfl

theorem script_bind_assoc {γ : Type} (m : Script Content γ) (g : γ → Script Content β)
    (f : β → Script Content α) : m >>= g >>= f = m >>= fun x => g x >>= f :=
  Program.bind_bind m g f

theorem script_pure_bind (b : β) (f : β → Script Content α) : pure b >>= f = f b := rfl

theorem safe_observe {settings : Settings} {f : String → Script Content α} (hclean : Clean start s)
    (h : ∀ o, isObservation settings o = true →
      Safe py start (f o) { s with log := .observed o :: s.log }) :
    Safe py start (observe settings >>= f) s := by
  simp only [observe, script_bind_assoc, script_pure_bind]
  refine safe_act hclean fun x t _ hperforms => ?_
  refine safe_orFail fun observation hobservation => safe_check fun hok => ?_
  rcases hperforms with ⟨hnone, -⟩ | ⟨o, hsome, rfl⟩
  · rw [hobservation] at hnone
    cases hnone
  · cases hobservation.symm.trans hsome
    exact h _ hok

theorem safe_checkClients {clients : List String} {f : Unit → Script Content α}
    (h : Safe py start (f ()) s) : Safe py start (checkClients clients >>= f) s := by
  induction clients with
  | nil => exact h
  | cons client rest ih =>
    simp only [checkClients, script_bind_assoc]
    refine safe_act trivial fun x t _ hperforms => ?_
    cases hperforms
    refine safe_orFail fun version _ => ?_
    exact safe_check fun _ => ih

theorem safe_checkFiles {files : List ((_ : String) × Leaf Content)} {f : Unit → Script Content α}
    (h : (∀ entry ∈ files, hasPrivateMode entry.2 = true) → Safe py start (f ()) s) :
    Safe py start (checkFiles files >>= f) s := by
  induction files with
  | nil => exact h nofun
  | cons entry rest ih =>
    simp only [checkFiles, script_bind_assoc]
    refine safe_check fun hentry => ?_
    refine safe_act trivial fun x t _ hperforms => ?_
    cases hperforms
    refine safe_orFail fun _ _ => ih fun hrest => h fun other hother => ?_
    rcases List.mem_cons.mp hother with rfl | hother
    · exact hentry
    · exact hrest other hother

end Commands

end ClusterState.Backup.Upgrade
