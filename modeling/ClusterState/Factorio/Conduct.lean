import ClusterState.Factorio.Guards

/-! # What the parts of the start-up bring about

Each part has one lemma: the state it leaves if it returns. It exits only after a
command has failed, where the state and the configuration are in order.
-/

namespace ClusterState.Factorio

open Concurrency State

structure Sources.InOrder (cfg : Sources) : Prop where
  resolves : ∃ directory, cfg.directory = some directory ∧ ∀ name ∈ requiredConfigSources,
    ∃ path, cfg.file name = some path ∧ within directory path = true
  configLines : cfg.configLines = some expectedConfigLines

structure Fine (cfg : Sources) (settings : Settings) (s₀ : State) : Prop where
  sources : cfg.InOrder
  version_ne : settings.version ≠ []
  nul_not_mem : '\x00' ∉ settings.version
  getLast?_ne : settings.version.getLast? ≠ some '\n'
  ready : s₀.Ready settings.version

section Ensures

variable (cfg : Sources) (settings : Settings) (s₀ : State) {α β : Type}

/-- The part issues its commands under their guards, and exits only where something was not in
order or has failed. -/
def Ensures (Q : α → State → Prop) (m : Script α) (t : State) : Prop :=
  (discipline cfg settings s₀).Meets ⟨⟩ Q (fun _ u => Fine cfg settings s₀ → u.failed = true) m t

def Tried (P : α → State → Prop) (x : Option α) (u : State) : Prop :=
  match x with
  | some a => P a u
  | none => u.failed = true

variable {cfg settings s₀} {Q : α → State → Prop} {Q' : β → State → Prop} {m : Script α}
  {f : α → Script β} {t u : State}

theorem Ensures.bind (hm : Ensures cfg settings s₀ Q m t)
    (hf : ∀ a u, Q a u → Ensures cfg settings s₀ Q' (f a) u) :
    Ensures cfg settings s₀ Q' (m >>= f) t := Discipline.Meets.bind hm hf

theorem Ensures.mono {R : α → State → Prop} (hm : Ensures cfg settings s₀ Q m t)
    (h : ∀ a u, Q a u → R a u) : Ensures cfg settings s₀ R m t :=
  Discipline.Meets.mono hm h fun _ _ h => h

theorem ensures_pure {a : α} (h : Q a t) : Ensures cfg settings s₀ Q (pure a) t := h

theorem ensures_throw {exit : Exit} (h : Fine cfg settings s₀ → t.failed = true) :
    Ensures cfg settings s₀ Q (throw exit) t := h

theorem ensures_refuse {text : String} {path : Text} (h : Fine cfg settings s₀ → t.failed = true) :
    Ensures cfg settings s₀ Q (refuse text path) t := h

theorem ensures_act {r : Command} {Q : r.Value → State → Prop} (hguard : guard settings s₀ r t)
    (hnext : ∀ x u, (s₀.Admissible → t.Admissible) → performs cfg r t x u → Q x u) :
    Ensures cfg settings s₀ Q (act r) t :=
  Discipline.meets_ask hguard hnext

theorem ensures_orExit {x : Option α} (h : Tried Q x t) : Ensures cfg settings s₀ Q (orExit x) t := by
  cases x with
  | none => exact fun _ => h
  | some a => exact h

theorem Ensures.orExit_bind {P : α → State → Prop} {m : Script (Option α)}
    (hm : Ensures cfg settings s₀ (Tried P) m t)
    (hf : ∀ a u, P a u → Ensures cfg settings s₀ Q' (f a) u) :
    Ensures cfg settings s₀ Q' (m >>= fun x => orExit x >>= f) t :=
  hm.bind fun _ _ h => (ensures_orExit h).bind hf

theorem tried_of_leads {s : State} {x : Option Unit} (h : s.Leads t x u) :
    Tried (fun _ u => u = t) x u := by
  obtain ⟨rfl, rfl⟩ | ⟨rfl, rfl | rfl⟩ := h <;> rfl

theorem tried_of_fails {P : α → State → Prop} {x : Option α} (h : t.Fails x u) : Tried P x u := by
  obtain ⟨rfl, rfl⟩ := h
  rfl

theorem ensures_entry {p : Place} {name : Name} :
    Ensures cfg settings s₀ (fun x u => u = t ∧ x = t.entry p name) (act (.entry p name)) t :=
  ensures_act trivial fun _ _ _ h => h

theorem ensures_read {p : Place} {name : Name} :
    Ensures cfg settings s₀ (Tried fun text u => u = t ∧
      ∃ content, t.entry p name = some (.file content) ∧ text = substitute content)
      (act (.read p name)) t := by
  refine ensures_act trivial fun x u _ hp => ?_
  rcases hp with hfails | ⟨content, hentry, rfl, rfl⟩
  · exact tried_of_fails hfails
  · exact ⟨rfl, content, hentry, rfl⟩

structure State.Globbed (t : State) (g : Glob) (names : List Name) : Prop where
  nodup : names.Nodup
  mem_iff : ∀ name, name ∈ names ↔ g.matches name = true ∧ (t.entry g.place name).isSome = true

theorem ensures_glob {g : Glob} :
    Ensures cfg settings s₀ (fun names u => u = t ∧ t.Globbed g names) (act (.glob g)) t := by
  refine ensures_act trivial fun names u _ hp => ⟨hp.1, ?_, fun name => ?_⟩
  · exact hp.2.nodup_iff.mpr ((t.dir g.place).keys_nodup.filter _)
  · rw [hp.2.mem_iff, List.mem_filter, and_comm, State.entry, AList.lookup_isSome]
    rfl

/-! ## The configuration -/

theorem ensures_resolveSources {directory : Text} {names : List Text}
    (hnames : Fine cfg settings s₀ → ∀ name ∈ names, ∃ path, cfg.file name = some path ∧
      within directory path = true) :
    Ensures cfg settings s₀ (fun _ u => u = t) (resolveSources settings directory names) t := by
  induction names with
  | nil => exact ensures_pure rfl
  | cons name rest ih =>
    have hread : Ensures cfg settings s₀ (fun x u => u = t ∧ x = cfg.file name)
        (act (.realpathFile name)) t := ensures_act trivial fun _ _ _ h => h
    refine hread.bind fun x u hx => ?_
    obtain ⟨rfl, rfl⟩ := hx
    cases hfile : cfg.file name with
    | none =>
      refine ensures_refuse fun hfine => ?_
      obtain ⟨path, hpath, -⟩ := hnames hfine name List.mem_cons_self
      cases hfile.symm.trans hpath
    | some path =>
      dsimp only
      split
      · refine (ih fun hfine name' hname' => hnames hfine name' (List.mem_cons_of_mem _ hname')).bind
          fun _ u hu => ensures_pure hu
      · rename_i hout
        refine ensures_refuse fun hfine => ?_
        obtain ⟨path', hpath, hin⟩ := hnames hfine name List.mem_cons_self
        obtain rfl := Option.some.inj (hfile.symm.trans hpath)
        exact absurd hin hout

theorem ensures_checkSources :
    Ensures cfg settings s₀ (fun _ u => u = t) (checkSources settings) t := by
  have hread : Ensures cfg settings s₀ (fun x u => u = t ∧ x = cfg.directory)
      (act .realpathDirectory) t := ensures_act trivial fun _ _ _ h => h
  refine hread.bind fun x u hx => ?_
  obtain ⟨rfl, rfl⟩ := hx
  cases hdirectory : cfg.directory with
  | none =>
    refine ensures_refuse fun hfine => ?_
    obtain ⟨directory, h, -⟩ := hfine.sources.resolves
    cases hdirectory.symm.trans h
  | some directory =>
    refine ensures_resolveSources fun hfine => ?_
    obtain ⟨directory', h, hnames⟩ := hfine.sources.resolves
    obtain rfl := Option.some.inj (hdirectory.symm.trans h)
    exact hnames

theorem ensures_idle {m : Script (Option Unit)}
    (hm : Ensures cfg settings s₀ (fun x u => t.Leads t x u) m t) :
    Ensures cfg settings s₀ (Tried fun _ u => u = t) m t := hm.mono fun _ _ => tried_of_leads

theorem ensures_copyConfigs {sources : List (Text × Text)} {names : List Text} :
    Ensures cfg settings s₀ (fun _ u => u = t) (copyConfigs sources names) t := by
  induction names with
  | nil => exact ensures_pure rfl
  | cons name rest ih =>
    have hcp : Ensures cfg settings s₀ (Tried fun _ u => u = t)
        (act (.cpConfig (resolvedSource sources name) name)) t :=
      ensures_idle (ensures_act trivial fun _ _ _ h => h)
    have hchmod : Ensures cfg settings s₀ (Tried fun _ u => u = t) (act (.chmodConfig name)) t :=
      ensures_idle (ensures_act trivial fun _ _ _ h => h)
    refine hcp.orExit_bind fun _ u hu => ?_
    subst hu
    refine hchmod.orExit_bind fun _ u hu => ?_
    subst hu
    exact ih

/-! ## What earlier runs left behind -/

structure State.Cleaned (t u : State) : Prop where
  saves : ∀ name, isTempSave name = false → u.entry .saves name = t.entry .saves name
  top : ∀ name, isCreationRoot name = false → isMarkerTemp name = false →
    u.entry .top name = t.entry .top name
  preUpgrade : ∀ name, u.entry .preUpgrade name = t.entry .preUpgrade name

theorem State.Cleaned.refl (t : State) : t.Cleaned t := ⟨fun _ _ => rfl, fun _ _ _ => rfl, fun _ => rfl⟩

theorem State.Cleaned.trans {v : State} (h : t.Cleaned u) (h' : u.Cleaned v) : t.Cleaned v where
  saves name hname := (h'.saves name hname).trans (h.saves name hname)
  top name hroot htemp := (h'.top name hroot htemp).trans (h.top name hroot htemp)
  preUpgrade name := (h'.preUpgrade name).trans (h.preUpgrade name)

theorem State.Cleaned.drop_tempSave {name : Name} (hname : isTempSave name = true) :
    t.Cleaned (t.drop .saves name) where
  saves name' hname' := by
    apply entry_drop_of_name
    rintro rfl
    cases hname'.symm.trans hname
  top _ _ _ := entry_drop_of_place (by decide)
  preUpgrade _ := entry_drop_of_place (by decide)

theorem State.Cleaned.drop_top {name : Name}
    (hname : isCreationRoot name = true ∨ isMarkerTemp name = true) : t.Cleaned (t.drop .top name) where
  saves _ _ := entry_drop_of_place (by decide)
  top name' hroot htemp := by
    apply entry_drop_of_name
    rintro rfl
    rcases hname with hname | hname
    · cases hroot.symm.trans hname
    · cases htemp.symm.trans hname
  preUpgrade _ := entry_drop_of_place (by decide)

theorem State.Cleaned.sameWorld (h : t.Cleaned u) : t.SameWorld u where
  marker := h.top _ (by decide) (by decide)
  version := h.top _ (by decide) (by decide)
  saves name hname := h.saves name (isTempSave_eq_false hname)

theorem ensures_rm {p : Place} {name : Name} (hguard : guard settings s₀ (.rm p name) t) :
    Ensures cfg settings s₀ (Tried fun _ u => u = t.drop p name) (act (.rm p name)) t :=
  (ensures_act hguard fun _ _ _ h => h).mono fun _ _ => tried_of_leads

theorem ensures_removeTempSaves {names : List Name} (hnames : ∀ name ∈ names, isTempSave name = true) :
    Ensures cfg settings s₀ (fun _ u => t.Cleaned u ∧ ∀ name, u.entry .top name = t.entry .top name)
      (removeTempSaves names) t := by
  induction names generalizing t with
  | nil => exact ensures_pure ⟨.refl t, fun _ => rfl⟩
  | cons name rest ih =>
    obtain ⟨hname, hrest⟩ := List.forall_mem_cons.mp hnames
    refine ensures_entry.bind fun x u hx => ?_
    obtain ⟨rfl, rfl⟩ := hx
    split
    · rename_i hfile
      have hguard : guard settings s₀ (.rm .saves name) u := .inl ⟨hname, hfile⟩
      refine (ensures_rm hguard).orExit_bind fun _ v hv => ?_
      subst hv
      refine (ih hrest).mono fun _ v hv => ⟨(Cleaned.drop_tempSave hname).trans hv.1, fun name' => ?_⟩
      exact (hv.2 name').trans (entry_drop_of_place (by decide))
    · exact ih hrest

theorem ensures_removeCreationRoots {names : List Name}
    (hnames : ∀ name ∈ names, isCreationRoot name = true) (hnodup : names.Nodup)
    (hfine : Fine cfg settings s₀ → ∀ name ∈ names, isDirectory (t.entry .top name) = true) :
    Ensures cfg settings s₀ (fun _ u => t.Cleaned u ∧
      ∀ name, isCreationRoot name = false → u.entry .top name = t.entry .top name)
      (removeCreationRoots settings names) t := by
  induction names generalizing t with
  | nil => exact ensures_pure ⟨.refl t, fun _ _ => rfl⟩
  | cons name rest ih =>
    obtain ⟨hname, hrest⟩ := List.forall_mem_cons.mp hnames
    obtain ⟨hnot, hnodup⟩ := List.nodup_cons.mp hnodup
    refine ensures_entry.bind fun x u hx => ?_
    obtain ⟨rfl, rfl⟩ := hx
    split
    · have hrm : Ensures cfg settings s₀ (Tried fun _ v => v = u.drop .top name) (act (.rmTree name)) u := by
        refine ensures_act hname fun x v _ hp => ?_
        rcases hp with hleads | ⟨rfl, -, files, rfl⟩
        · exact tried_of_leads hleads
        · rfl
      refine hrm.orExit_bind fun _ v hv => ?_
      subst hv
      have hkeep : ∀ name' ∈ rest, (u.drop .top name).entry .top name' = u.entry .top name' := by
        intro name' hname'
        apply entry_drop_of_name
        rintro rfl
        exact hnot hname'
      refine (ih hrest hnodup fun h name' hname' => ?_).mono fun _ v hv =>
        ⟨(Cleaned.drop_top (.inl hname)).trans hv.1, fun name' hname' => ?_⟩
      · rw [hkeep name' hname']
        exact hfine h name' (List.mem_cons_of_mem _ hname')
      · refine (hv.2 name' hname').trans (entry_drop_of_name ?_)
        rintro rfl
        cases hname'.symm.trans hname
    · rename_i hother
      exact ensures_refuse fun h => absurd (hfine h name List.mem_cons_self) hother

theorem ensures_removeMarkerTemps {m : Marker} {names : List Name}
    (hnames : ∀ name ∈ names, isMarkerTemp name = true) (hnodup : names.Nodup)
    (hfine : Fine cfg settings s₀ → ∀ name ∈ names, isFile (t.entry .top name) = true) :
    Ensures cfg settings s₀ (fun _ u => t.Cleaned u ∧
      ∀ name, name ∉ names → u.entry .top name = t.entry .top name)
      (removeMarkerTemps settings m names) t := by
  induction names generalizing t with
  | nil => exact ensures_pure ⟨.refl t, fun _ _ => rfl⟩
  | cons name rest ih =>
    obtain ⟨hname, hrest⟩ := List.forall_mem_cons.mp hnames
    obtain ⟨hnot, hnodup⟩ := List.nodup_cons.mp hnodup
    refine ensures_entry.bind fun x u hx => ?_
    obtain ⟨rfl, rfl⟩ := hx
    split
    · rename_i hfile
      have hguard : guard settings s₀ (.rm .top name) u := ⟨hname, hfile⟩
      refine (ensures_rm hguard).orExit_bind fun _ v hv => ?_
      subst hv
      have hkeep : ∀ name', name' ≠ name → (u.drop .top name).entry .top name' = u.entry .top name' :=
        fun name' hne => entry_drop_of_name hne
      refine (ih hrest hnodup fun h name' hname' => ?_).mono fun _ v hv =>
        ⟨(Cleaned.drop_top (.inr hname)).trans hv.1, fun name' hname' => ?_⟩
      · rw [hkeep name' (ne_of_mem_of_not_mem hname' hnot)]
        exact hfine h name' (List.mem_cons_of_mem _ hname')
      · rw [List.mem_cons, not_or] at hname'
        exact (hv.2 name' hname'.2).trans (hkeep name' hname'.1)
    · rename_i hother
      exact ensures_refuse fun h => absurd (hfine h name List.mem_cons_self) hother

theorem State.Globbed.isDirectory {names : List Name} (h : t.Globbed .creationRoots names)
    (ht : t.Admissible) : ∀ name ∈ names, isDirectory (t.entry .top name) = true := by
  intro name hname
  obtain ⟨hroot, hsome⟩ := (h.mem_iff name).mp hname
  refine (ht.creationRoots name hroot).resolve_left fun hnone => ?_
  change (t.entry .top name).isSome = true at hsome
  rw [hnone] at hsome
  cases hsome

theorem isFile_of_temp {name : Name} (ht : t.Admissible) (hname : isMarkerTemp name = true)
    (hsome : (t.entry .top name).isSome = true) : isFile (t.entry .top name) = true := by
  refine (ht.markerTemps name hname).resolve_left fun hnone => ?_
  rw [hnone] at hsome
  cases hsome

theorem ensures_removeStale (ht : s₀.Admissible → t.Admissible) :
    Ensures cfg settings s₀ (fun _ u => t.Cleaned u) (removeStale settings) t := by
  refine ensures_glob.bind fun tempSaves u htempSaves => ?_
  obtain ⟨rfl, htempSaves⟩ := htempSaves
  refine ensures_glob.bind fun roots v hroots => ?_
  obtain ⟨rfl, hroots⟩ := hroots
  refine ensures_glob.bind fun worldTemps w hworld => ?_
  obtain ⟨rfl, hworld⟩ := hworld
  refine ensures_glob.bind fun versionTemps t hversion => ?_
  obtain ⟨rfl, hversion⟩ := hversion
  refine ensures_entry.bind fun old u hold => ?_
  obtain ⟨rfl, rfl⟩ := hold
  refine (ensures_removeTempSaves fun name hname => ((htempSaves.mem_iff name).mp hname).1).bind
    fun _ t₁ h₁ => ?_
  refine (ensures_removeCreationRoots (fun name hname => ((hroots.mem_iff name).mp hname).1)
    hroots.nodup fun hfine name hname => ?_).bind fun _ t₂ h₂ => ?_
  · rw [h₁.2]
    exact hroots.isDirectory (ht hfine.ready.toAdmissible) name hname
  have htop : ∀ name, isMarkerTemp name = true → t₂.entry .top name = u.entry .top name :=
    fun name hname => (h₂.2 name (isCreationRoot_of_isMarkerTemp hname)).trans (h₁.2 name)
  have htemp : ∀ {m : Marker} {names : List Name}, u.Globbed (.markerTemps m) names →
      ∀ name ∈ names, isMarkerTemp name = true ∧ (u.entry .top name).isSome = true := by
    intro m names hnames name hname
    obtain ⟨htemp, hsome⟩ := (hnames.mem_iff name).mp hname
    exact ⟨isMarkerTemp_of_isTemp htemp, hsome⟩
  refine (ensures_removeMarkerTemps (m := .world) (fun name hname => (htemp hworld name hname).1)
    hworld.nodup fun hfine name hname => ?_).bind fun _ t₃ h₃ => ?_
  · obtain ⟨hname, hsome⟩ := htemp hworld name hname
    rw [htop name hname]
    exact isFile_of_temp (ht hfine.ready.toAdmissible) hname hsome
  have hlist : ∀ name ∈ (if (u.entry .top versionMarkerTemp).isSome then
      versionTemps ++ [versionMarkerTemp] else versionTemps), (isMarkerTemp name = true ∧
        Marker.world.isTemp name = false) ∧ (u.entry .top name).isSome = true := by
    have hfound : ∀ name ∈ versionTemps, (isMarkerTemp name = true ∧
        Marker.world.isTemp name = false) ∧ (u.entry .top name).isSome = true := by
      intro name hname
      obtain ⟨htemp, hsome⟩ := (hversion.mem_iff name).mp hname
      exact ⟨⟨isMarkerTemp_of_isTemp htemp, world_isTemp_of_version htemp⟩, hsome⟩
    split
    · rename_i hsome
      rw [List.forall_mem_append, List.forall_mem_singleton]
      exact ⟨hfound, ⟨by decide, by decide⟩, hsome⟩
    · exact hfound
  have hnodup : (if (u.entry .top versionMarkerTemp).isSome then
      versionTemps ++ [versionMarkerTemp] else versionTemps).Nodup := by
    split
    · apply hversion.nodup.append (List.nodup_singleton _)
      rw [List.disjoint_singleton]
      intro hmem
      exact absurd ((hversion.mem_iff _).mp hmem).1 (by decide)
    · exact hversion.nodup
  refine (ensures_removeMarkerTemps (m := .version) (fun name hname => (hlist name hname).1.1) hnodup
    fun hfine name hname => ?_).mono fun _ t₄ h₄ => ((h₁.1.trans h₂.1).trans h₃.1).trans h₄.1
  obtain ⟨⟨hname, hother⟩, hsome⟩ := hlist name hname
  rw [h₃.2 name, htop name hname]
  · exact isFile_of_temp (ht hfine.ready.toAdmissible) hname hsome
  · intro hmem
    cases hother.symm.trans ((hworld.mem_iff name).mp hmem).1

end Ensures

end ClusterState.Factorio
