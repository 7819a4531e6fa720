import ClusterState.Factorio.Creating

/-! # From the world to the server

A marker is written aside, read back, and moved to its name.
-/

namespace ClusterState.Factorio

open Concurrency State

section Starting

variable {cfg : Sources} {settings : Settings} {s₀ t u v : State} {temp name : Name} {text : Text}
  {m : Marker}

/-- The file is the text and a newline, as far as the script can tell. -/
def State.HoldsLine (t : State) (name : Name) (text : Text) : Prop :=
  ∃ content, t.entry .top name = some (.file content) ∧ substitute content = text ∧
    content.length = text.length + 1

theorem State.HoldsLine.reads (h : t.HoldsLine name text) : t.Reads name text := by
  obtain ⟨content, hentry, htext, -⟩ := h
  exact ⟨content, hentry, htext⟩

structure State.Besides (t : State) (name : Name) (u : State) : Prop where
  entry : ∀ p name', ¬(p = .top ∧ name' = name) → u.entry p name' = t.entry p name'
  failed : t.failed = true → u.failed = true

theorem State.Besides.refl (t : State) (name : Name) : t.Besides name t := ⟨fun _ _ _ => rfl, id⟩

theorem State.Besides.trans (h : t.Besides name u) (h' : u.Besides name v) : t.Besides name v :=
  ⟨fun p name' hne => (h'.entry p name' hne).trans (h.entry p name' hne),
    fun hfailed => h'.failed (h.failed hfailed)⟩

theorem State.Besides.put {e : Entry} : t.Besides name (t.put .top name e) :=
  ⟨fun p name' hne => by rw [entry_put, if_neg hne], fun h => failed_put.trans h⟩

theorem State.Besides.drop : t.Besides name (t.drop .top name) :=
  ⟨fun p name' hne => by rw [entry_drop, if_neg hne], fun h => failed_drop.trans h⟩

def State.Tests (t u : State) : Prop := u = t ∨ u = t.fail

theorem State.Tests.entry {p : Place} (h : t.Tests u) : u.entry p name = t.entry p name := by
  obtain rfl | rfl := h
  · rfl
  · exact entry_fail

theorem State.Tests.failed (h : t.Tests u) (ht : t.failed = true) : u.failed = true := by
  obtain rfl | rfl := h
  · exact ht
  · rfl

theorem ensures_holdsLine :
    Ensures cfg settings s₀ (fun ok u => t.Tests u ∧ (ok = true → t.HoldsLine name text) ∧
      (ok = false → t.HoldsLine name text → u.failed = true)) (holdsLine name text) t := by
  refine ensures_entry.bind fun x u hx => ?_
  obtain ⟨rfl, rfl⟩ := hx
  split
  · have hread : Ensures cfg settings s₀ (fun x v => u.Fails x v ∨ ∃ content,
        u.entry .top name = some (.file content) ∧ x = some (substitute content) ∧ v = u)
        (act (.read .top name)) u := ensures_act trivial fun _ _ _ h => h
    refine hread.bind fun x v hx => ?_
    rcases hx with ⟨rfl, rfl⟩ | ⟨content, hentry, rfl, rfl⟩
    · rw [if_neg (by simp)]
      exact ensures_pure ⟨.inr rfl, by simp, fun _ _ => rfl⟩
    · split
      · rename_i htext
        have hwc : Ensures cfg settings s₀ (fun x w => v.Fails x w ∨ ∃ content,
            v.entry .top name = some (.file content) ∧ x = some content.length ∧ w = v)
            (act (.wc .top name)) v := ensures_act trivial fun _ _ _ h => h
        refine hwc.bind fun x w hx => ensures_pure ?_
        rcases hx with ⟨rfl, rfl⟩ | ⟨content', hentry', rfl, rfl⟩
        · exact ⟨.inr rfl, by simp, fun _ _ => rfl⟩
        · cases hentry.symm.trans hentry'
          refine ⟨.inl rfl, fun hok => ⟨content, hentry, Option.some.inj htext, ?_⟩, fun hok => ?_⟩
          · exact Option.some.inj (of_decide_eq_true hok)
          · rintro ⟨content', hentry', -, hlength⟩
            cases hentry.symm.trans hentry'
            exact absurd (congrArg some hlength) (of_decide_eq_false hok)
      · rename_i htext
        refine ensures_pure ⟨.inl rfl, by simp, fun _ hholds => ?_⟩
        obtain ⟨content', hentry', htext', -⟩ := hholds
        cases hentry.symm.trans hentry'
        exact absurd (congrArg some htext') htext
  · rename_i hfile
    refine ensures_pure ⟨.inl rfl, by simp, fun _ hholds => ?_⟩
    obtain ⟨content, hentry, -⟩ := hholds
    exact absurd (isFile_iff.mpr ⟨content, hentry⟩) hfile

/-- The text can be read back from a line. -/
def IsLine (text : Text) : Prop := '\x00' ∉ text ∧ text.getLast? ≠ some '\n'

theorem holdsLine_put (h : IsLine text) :
    (t.put .top name (.file (text ++ ['\n']))).HoldsLine name text :=
  ⟨text ++ ['\n'], entry_put_self, substitute_append_newline h.1 h.2, List.length_append⟩

theorem State.HoldsLine.of_entry (h : t.HoldsLine name text)
    (heq : u.entry .top name = t.entry .top name) : u.HoldsLine name text := by
  obtain ⟨content, hentry, hrest⟩ := h
  exact ⟨content, heq.trans hentry, hrest⟩

theorem ensures_writeMarkerTemp (htemp : isMarkerTemp temp = true)
    (hfile : isFile (t.entry .top temp) = true) (hline : Fine cfg settings s₀ → IsLine text) :
    Ensures cfg settings s₀ (fun _ u => t.Besides temp u ∧ u.HoldsLine temp text)
      (writeMarkerTemp m temp text) t := by
  refine ensures_entry.bind fun x u hx => ?_
  obtain ⟨rfl, rfl⟩ := hx
  rw [if_pos hfile]
  have hwrite : Ensures cfg settings s₀ (Tried fun _ v => v = u.put .top temp (.file (text ++ ['\n'])))
      (act (.writeTemp temp (text ++ ['\n']))) u := by
    refine ensures_act htemp fun x v _ hp => ?_
    obtain ⟨content, hcontent⟩ := isFile_iff.mp hfile
    simp only [performs, hcontent] at hp
    obtain ⟨rfl, rfl⟩ | ⟨rfl, content', rfl⟩ := hp <;> rfl
  refine hwrite.bind fun x v hx => ?_
  cases x with
  | none => exact ensures_refuse fun _ => hx
  | some _ =>
    cases hx
    refine ensures_holdsLine.bind fun ok w hok => ?_
    obtain ⟨htests, htrue, hfalse⟩ := hok
    cases ok with
    | true =>
      have hbesides : u.Besides temp w := Besides.put.trans ⟨fun _ _ _ => htests.entry, htests.failed⟩
      exact ensures_pure ⟨hbesides, (htrue rfl).of_entry htests.entry⟩
    | false => exact ensures_refuse fun hfine => hfalse rfl (holdsLine_put (hline hfine))

def Movable (settings : Settings) (s₀ : State) (m : Marker) (text : Text) (t : State) : Prop :=
  match m with
  | .world => text = finalSave ∧ t.Unmarked ∧ t.Sole
  | .version => text = settings.version ∧ t.Marked ∧ t.Sole ∧ s₀.BackedUp settings t

structure State.Moved (t : State) (m : Marker) (temp : Name) (text : Text) (u : State) : Prop where
  holds : u.HoldsLine m.name text
  gone : u.entry .top temp = none
  others : ∀ p name, ¬(p = .top ∧ (name = temp ∨ name = m.name)) → u.entry p name = t.entry p name

theorem ne_of_isTemp (htemp : m.isTemp temp = true) : m.name ≠ temp := by
  have hne := ne_of_isMarkerTemp (isMarkerTemp_of_isTemp htemp)
  cases m
  · exact hne.1
  · exact hne.2

theorem moved_put (htemp : m.isTemp temp = true) (hholds : t.HoldsLine temp text) {e : Entry}
    (he : t.entry .top temp = some e) :
    t.Moved m temp text ((t.drop .top temp).put .top m.name e) where
  holds := by
    obtain ⟨content, hentry, hrest⟩ := hholds
    cases he.symm.trans hentry
    exact ⟨content, entry_put_self, hrest⟩
  gone := by
    rw [entry_put_of_name (ne_of_isTemp htemp).symm, entry_drop_self]
  others p name hne := by
    rw [entry_put, if_neg fun h => hne ⟨h.1, .inr h.2⟩, entry_drop, if_neg fun h => hne ⟨h.1, .inl h.2⟩]

theorem ensures_moveMarker (htemp : m.isTemp temp = true) (hholds : t.HoldsLine temp text)
    (hmovable : Movable settings s₀ m text t) :
    Ensures cfg settings s₀ (fun _ u => t.Moved m temp text u) (moveMarker m temp) t := by
  obtain ⟨content, hentry, -⟩ := hholds.reads
  cases m with
  | world =>
    obtain ⟨rfl, hunmarked, hsole⟩ := hmovable
    have hmv : Ensures cfg settings s₀ (Tried fun _ u => t.Moved .world temp finalSave u)
        (act (.mvWorldMarker temp)) t := by
      refine ensures_act ⟨htemp, hholds.reads, hunmarked, hsole⟩ fun x u _ hp => ?_
      have hnone : t.entry .top worldMarker = none := hunmarked
      simp only [performs, hentry, hnone, if_true] at hp
      obtain ⟨rfl, rfl⟩ | ⟨rfl, rfl | rfl⟩ := hp
      · exact moved_put htemp hholds hentry
      · rfl
      · rfl
    refine hmv.orExit_bind fun _ u hu => ensures_entry.bind fun x v hx => ?_
    obtain ⟨rfl, rfl⟩ := hx
    rw [hu.gone]
    exact ensures_pure hu
  | version =>
    obtain ⟨rfl, hmarked, hsole, hbacked⟩ := hmovable
    have hmv : Ensures cfg settings s₀ (Tried fun _ u => t.Moved .version temp settings.version u)
        (act (.mvVersionMarker temp)) t := by
      refine ensures_act ⟨htemp, hholds.reads, hmarked, hsole, hbacked⟩ fun x u _ hp => ?_
      simp only [performs, hentry] at hp
      split at hp
      · exact tried_of_fails hp
      · obtain ⟨rfl, rfl⟩ | ⟨rfl, rfl | rfl⟩ := hp
        · exact moved_put htemp hholds hentry
        · rfl
        · rfl
    exact hmv.bind fun _ _ h => ensures_orExit h

theorem State.Besides.sameWorld (h : t.Besides temp u) (htemp : isMarkerTemp temp = true) :
    t.SameWorld u where
  marker := h.entry .top _ fun heq => (ne_of_isMarkerTemp htemp).1 heq.2
  version := h.entry .top _ fun heq => (ne_of_isMarkerTemp htemp).2 heq.2
  saves name _ := h.entry .saves name (by simp)

theorem State.Copied.of_preUpgrade (h : s₀.Copied settings t)
    (hsame : ∀ name, u.entry .preUpgrade name = t.entry .preUpgrade name) : s₀.Copied settings u := by
  obtain ⟨timestamp, name, files, front, hname, hentry, hcopies⟩ := h
  exact ⟨timestamp, name, files, front, hname, (hsame name).trans hentry, hcopies⟩

theorem State.BackedUp.of_preUpgrade (h : s₀.BackedUp settings t)
    (hsame : ∀ name, u.entry .preUpgrade name = t.entry .preUpgrade name) : s₀.BackedUp settings u :=
  fun hlinks hupgrades => (h hlinks hupgrades).of_preUpgrade hsame

theorem Movable.besides (h : Movable settings s₀ m text t) (htemp : isMarkerTemp temp = true)
    (hsame : t.Besides temp u) : Movable settings s₀ m text u := by
  have hworld := hsame.sameWorld htemp
  cases m with
  | world => exact ⟨h.1, hworld.unmarked h.2.1, hworld.sole h.2.2⟩
  | version =>
    refine ⟨h.1, hworld.marked h.2.1, hworld.sole h.2.2.1, h.2.2.2.of_preUpgrade fun name => ?_⟩
    exact hsame.entry .preUpgrade name (by simp)

/-- The marker reads as it should, and all else is as it was but temporary files. -/
structure State.Published (t : State) (m : Marker) (text : Text) (u : State) : Prop where
  reads : u.Reads m.name text
  others : ∀ p name, ¬(p = .top ∧ (isMarkerTemp name = true ∨ name = m.name)) →
    u.entry p name = t.entry p name

theorem ensures_publishMarker (hline : Fine cfg settings s₀ → IsLine text)
    (hmovable : Movable settings s₀ m text t) :
    Ensures cfg settings s₀ (fun _ u => t.Published m text u) (publishMarker m text) t := by
  have hmktemp : Ensures cfg settings s₀
      (Tried fun temp u => m.isTemp temp = true ∧ u = t.put .top temp (.file [])) (act (.mktemp m)) t := by
    refine ensures_act trivial fun x u _ hp => ?_
    rcases hp with hfails | ⟨random, -, ⟨rfl, rfl⟩ | ⟨rfl, rfl⟩⟩
    · exact tried_of_fails hfails
    · exact ⟨isTemp_append m random, rfl⟩
    · rfl
  refine hmktemp.orExit_bind fun temp u hu => ?_
  obtain ⟨htemp, rfl⟩ := hu
  have hname := isMarkerTemp_of_isTemp htemp
  have hput : t.Besides temp (t.put .top temp (.file [])) := .put
  have hfile : isFile ((t.put .top temp (.file [])).entry .top temp) = true := by
    rw [entry_put_self]
    rfl
  have hmake : Ensures cfg settings s₀ (fun _ v => ∃ w, t.Besides temp w ∧ w.Moved m temp text v)
      (do writeMarkerTemp m temp text; moveMarker m temp) (t.put .top temp (.file [])) := by
    refine (ensures_writeMarkerTemp hname hfile hline).bind fun _ w hw => ?_
    have hbesides := hput.trans hw.1
    refine (ensures_moveMarker htemp hw.2 (hmovable.besides hname hbesides)).mono fun _ v hv => ?_
    exact ⟨w, hbesides, hv⟩
  refine Ensures.bind (Ensures.tryCatch hmake fun exit v hfailed => ?_) fun _ v hv => ?_
  · have hrm : Ensures cfg settings s₀ (fun _ w => v.failed = true → w.failed = true)
        (act (.rmForced temp)) v := by
      refine ensures_act hname fun x w _ hp hv => ?_
      obtain ⟨-, rfl⟩ | ⟨-, rfl | rfl⟩ := hp
      · exact failed_drop.trans hv
      · rfl
      · rfl
    exact hrm.bind fun _ w hw => ensures_throw fun hfine => hw (hfailed hfine)
  · obtain ⟨w, hbesides, hmoved⟩ := hv
    refine ensures_holdsLine.bind fun ok y hok => ?_
    obtain ⟨htests, -, hfalse⟩ := hok
    cases ok with
    | true =>
      refine ensures_pure ⟨(hmoved.holds.of_entry htests.entry).reads, fun p name hne => ?_⟩
      have hnot : ¬(p = .top ∧ name = temp) := by
        rintro ⟨rfl, rfl⟩
        exact hne ⟨rfl, .inl hname⟩
      have hnot' : ¬(p = .top ∧ (name = temp ∨ name = m.name)) := by
        rintro ⟨rfl, rfl | rfl⟩
        · exact hnot ⟨rfl, rfl⟩
        · exact hne ⟨rfl, .inr rfl⟩
      rw [htests.entry, hmoved.others p name hnot', hbesides.entry p name hnot]
    | false => exact ensures_refuse fun _ => hfalse rfl hmoved.holds

theorem State.Published.sole (h : t.Published m text u) (ht : t.Sole) : u.Sole where
  regular := by
    rw [h.others .saves finalSave (by simp)]
    exact ht.regular
  only name hname hfile := by
    rw [h.others .saves name (by simp)] at hfile
    exact ht.only name hname hfile

/-- The world can be played, and both markers tell so. -/
structure State.Started (version : Text) (t : State) : Prop where
  marked : t.Marked
  sole : t.Sole
  lastStarted : t.lastStarted = version

theorem ensures_exec (h : t.Started settings.version) :
    Ensures cfg settings s₀ (fun _ u => u.Started settings.version)
      (do orExit (← act .exec)) t := by
  have hexec : Ensures cfg settings s₀ (Tried fun _ u => u.Started settings.version) (act .exec) t := by
    refine ensures_act ⟨h.marked, h.sole, h.lastStarted⟩ fun x u _ hp => ?_
    rcases hp with hfails | ⟨rfl, rfl⟩
    · exact tried_of_fails hfails
    · exact h
  exact hexec.bind fun _ _ h => ensures_orExit h

theorem isLine_finalSave : IsLine finalSave := ⟨by decide, by decide⟩

theorem State.Reads.lastStarted (h : t.Reads versionMarker text) : t.lastStarted = text := by
  obtain ⟨content, hentry, rfl⟩ := h
  rw [State.lastStarted, hentry]

theorem ensures_publishWorld {marked : Bool} (hmarked : if marked then t.Marked else t.Unmarked)
    (hsole : t.Sole) (hbacked : s₀.BackedUp settings t) :
    Ensures cfg settings s₀ (fun _ u => u.Marked ∧ u.Sole ∧ u.lastStarted = t.lastStarted ∧
      s₀.BackedUp settings u) (publishWorld marked) t := by
  cases marked with
  | true => exact ensures_pure ⟨hmarked, hsole, rfl, hbacked⟩
  | false =>
    have hmovable : Movable settings s₀ .world finalSave t := ⟨rfl, hmarked, hsole⟩
    refine (ensures_publishMarker (fun _ => isLine_finalSave) hmovable).mono fun _ u hu => ?_
    have hversion : u.entry .top versionMarker = t.entry .top versionMarker :=
      hu.others .top versionMarker (by decide)
    refine ⟨hu.reads, hu.sole hsole, by rw [State.lastStarted, hversion]; rfl, ?_⟩
    exact hbacked.of_preUpgrade fun name => hu.others .preUpgrade name (by simp)

theorem ensures_publishVersion (hmarked : t.Marked) (hsole : t.Sole)
    (hbacked : s₀.BackedUp settings t) :
    Ensures cfg settings s₀ (fun _ u => u.Started settings.version)
      (publishVersion settings t.lastStarted) t := by
  rw [publishVersion]
  split
  · rename_i heq
    exact ensures_pure ⟨hmarked, hsole, heq⟩
  · have hmovable : Movable settings s₀ .version settings.version t :=
      ⟨rfl, hmarked, hsole, hbacked⟩
    refine (ensures_publishMarker (fun hfine => ⟨hfine.nul_not_mem, hfine.getLast?_ne⟩)
      hmovable).mono fun _ u hu => ⟨?_, hu.sole hsole, hu.reads.lastStarted⟩
    obtain ⟨content, hentry, htext⟩ := hmarked
    exact ⟨content, (hu.others .top worldMarker (by decide)).trans hentry, htext⟩

theorem ensures_serve {marked : Bool} (hmarked : if marked then t.Marked else t.Unmarked)
    (hsole : t.Sole) (hbacked : s₀.BackedUp settings t) :
    Ensures cfg settings s₀ (fun _ u => u.Started settings.version)
      (serve settings marked t.lastStarted) t := by
  refine ensures_entry.bind fun x u hx => ?_
  obtain ⟨rfl, rfl⟩ := hx
  rw [if_pos hsole.regular]
  refine (ensures_publishWorld hmarked hsole hbacked).bind fun _ v hv => ?_
  obtain ⟨hmarked, hsole, hlast, hbacked⟩ := hv
  rw [← hlast]
  exact (ensures_publishVersion hmarked hsole hbacked).bind fun _ w hw => ensures_exec hw

/-! ## The whole script -/

theorem State.Cleaned.noLinks (h : t.Cleaned u) (ht : t.NoLinks) : u.NoLinks := by
  intro name
  rw [h.preUpgrade name]
  exact ht name

theorem ensures_makeWorld {plan : Plan} {saves : List Name} {sources : List (Text × Text)}
    (hcleaned : s₀.Cleaned t) (hlists : t.Lists saves) (hplan : t.Planned plan u) :
    Ensures cfg settings s₀ (fun _ v => v.entry .top worldMarker = t.entry .top worldMarker ∧
      v.entry .top versionMarker = t.entry .top versionMarker ∧ v.Sole ∧
      s₀.BackedUp settings v) (makeWorld settings sources t.lastStarted saves plan) u := by
  have hsame := hcleaned.sameWorld
  cases plan with
  | existing =>
    obtain ⟨rfl, hsole⟩ := hplan
    rw [makeWorld]
    split
    · refine (ensures_backUp hlists hcleaned.preUpgrade hsame.version).mono fun _ v hv => ?_
      obtain ⟨hbeside, hcopied⟩ := hv
      refine ⟨hbeside.top _, hbeside.top _, hbeside.sameWorld.sole hsole, fun hlinks _ => ?_⟩
      obtain ⟨timestamp, name, files, front, hname, hentry, hmetadata, hcopies⟩ :=
        hcopied (hcleaned.noLinks hlinks)
      rw [hsame.lastStarted] at hname hmetadata
      refine ⟨timestamp, name, files, front, hname, hentry, hmetadata, fun save content hname hcontent => ?_⟩
      exact hcopies save content hname ((hsame.saves save hname).trans hcontent)
    · rename_i hnot
      refine ensures_pure ⟨rfl, rfl, hsole, fun _ hupgrades => absurd ?_ hnot⟩
      rw [hsame.lastStarted]
      exact ⟨hupgrades.started, hupgrades.other⟩
  | create =>
    obtain ⟨hdrop, hunmarked, hautosaves, hprimary⟩ := hplan
    have htop : ∀ name, u.entry .top name = t.entry .top name := by
      rcases hdrop with rfl | rfl
      · exact fun _ => rfl
      · exact fun _ => entry_drop_of_place (by decide)
    have hfinal : u.entry .saves finalSave = t.entry .saves finalSave := by
      rcases hdrop with rfl | rfl
      · rfl
      · exact entry_drop_of_name (by decide)
    refine (ensures_create ⟨hunmarked, hautosaves, hprimary⟩).mono fun _ v hv => ?_
    refine ⟨hv.marker.trans (htop _), hv.version.trans (htop _), hv.sole, fun _ hupgrades => ?_⟩
    have hregular := hupgrades.regular
    rw [← hsame.final, ← hfinal, hprimary _ isPrimary_finalSave] at hregular
    cases hregular

theorem ensures_start {sources : List (Text × Text)} (hcleaned : s₀.Cleaned t) :
    Ensures cfg settings s₀ (fun _ u => u.Started settings.version) (do
      let saves ← regularSaves (← act (.glob .zips))
      let lastStarted ← readVersionMarker
      let marked ← readWorldMarker settings
      let plan ← choosePlan settings marked lastStarted saves
      makeWorld settings sources lastStarted saves plan
      serve settings marked lastStarted) t := by
  refine ensures_of_inv fun hinv => ?_
  refine ensures_glob.bind fun names u hnames => ?_
  obtain ⟨rfl, hnames⟩ := hnames
  refine ensures_regularSaves.bind fun saves v hsaves => ?_
  obtain ⟨rfl, rfl⟩ := hsaves
  have hlists := hnames.lists
  refine ensures_readVersionMarker.bind fun lastStarted w hlast => ?_
  obtain ⟨rfl, rfl⟩ := hlast
  refine (ensures_readWorldMarker hinv).bind fun marked t hmarked => ?_
  obtain ⟨rfl, hmarked⟩ := hmarked
  refine (ensures_choosePlan hmarked hlists hinv hcleaned.sameWorld).bind fun plan u hplan => ?_
  refine (ensures_makeWorld hcleaned hlists hplan).bind fun _ v hv => ?_
  obtain ⟨hworld, hversion, hsole, hbacked⟩ := hv
  have hlast : v.lastStarted = t.lastStarted := by
    rw [State.lastStarted, State.lastStarted, hversion]
  rw [← hlast]
  refine ensures_serve ?_ hsole hbacked
  cases marked with
  | true =>
    obtain ⟨content, hentry, htext⟩ := hmarked
    exact ⟨content, hworld.trans hentry, htext⟩
  | false => exact hworld.trans hmarked

/-- Started in any state, the script issues each command under its guard, returns only as the
server, and exits only after a failure where nothing speaks against a start. -/
theorem ensures_script :
    Ensures cfg settings s₀ (fun _ u => u.Started settings.version) (script settings) s₀ := by
  unfold script
  split
  · rename_i hempty
    exact ensures_refuse fun hfine => absurd hempty hfine.version_ne
  refine ensures_checkSources.bind fun sources s hs => ?_
  subst hs
  have hmkdirs : Ensures cfg settings s (Tried fun _ u => u = s) (act .mkdirs) s :=
    ensures_idle (ensures_act trivial fun _ _ _ h => h)
  refine hmkdirs.orExit_bind fun _ s' hs => ?_
  subst hs
  refine ensures_copyConfigs.bind fun _ s hs => ?_
  subst hs
  exact (ensures_removeStale id).bind fun _ t hcleaned => ensures_start hcleaned

end Starting

end ClusterState.Factorio
