import ClusterState.MountManager.Moving

/-! # What becomes of an inventory

A takeover moves one volume after the other until the first error. What has been moved
stays moved, and what comes after the error stays where it is.
-/

namespace ClusterState.MountManager

open Concurrency

/-- Each volume of an inventory is registered in one of the two managers: in the
new one if there was no error, and otherwise in the old one, with its worker
running, if the new one did not import it. -/
structure Unorphaned (inventory : List MountEntry) (result : Except String Unit × State × State) :
    Prop where
  one : ∀ e ∈ inventory,
    (result.2.1.mountOf e.volumeID).isSome ≠ (result.2.2.mountOf e.volumeID).isSome
  moved : result.1 = .ok () → ∀ e ∈ inventory, (result.2.2.mountOf e.volumeID).isSome = true
  kept : ∀ err, result.1 = .error err → ∀ e ∈ inventory,
    result.2.2.mountOf e.volumeID = none → result.2.1.Live e.volumeID

section Walk

variable {w : World} {old s new : State}

theorem hands_congr {O : Outcomes} {t : State} {e : MountEntry} {socketPath : String}
    (h : (t.processes[e.process]?).map Process.bare = (s.processes[e.process]?).map Process.bare) :
    O.hands t e socketPath = O.hands s e socketPath := by
  have hfd : (t.processes[e.process]?).bind (·.mountFD) =
      (s.processes[e.process]?).bind (·.mountFD) := by
    cases ht : t.processes[e.process]? <;> cases hs : s.processes[e.process]? <;>
      rw [ht, hs] at h
    · cases h
    · cases h
    · exact (bare_inj (Option.some.inj h)).2.2
  simp only [Outcomes.hands, hfd]

theorem moves_congr {t : State} {e : MountEntry} (hfree : t.Free e.volumeID ↔ s.Free e.volumeID)
    (h : (t.processes[e.process]?).map Process.bare = (s.processes[e.process]?).map Process.bare) :
    w.moves t e = w.moves s e ∧ w.orphans t e = w.orphans s e := by
  have hreceived : w.received t e = w.received s e := by
    simp only [World.received, hands_congr h, hfree]
  have hmoves : w.moves t e = w.moves s e := by
    rw [World.moves, hreceived, World.moves]
  exact ⟨hmoves, by rw [World.orphans, hreceived, hmoves, World.orphans]⟩

/-- What becomes of the entries of an inventory: they are moved up to the first
one that is not, and from there on they stay. -/
def World.Settles (w : World) (old : State) (result : Except String Unit × State × State) :
    List MountEntry → Prop
  | [] => result.1 = .ok ()
  | e :: rest =>
    if w.moves old e then result.2.1.mountOf e.volumeID = none ∧
      (result.2.2.mountOf e.volumeID).isSome = true ∧ w.Settles old result rest
    else (∃ err, result.1 = .error err) ∧ result.2.2.mountOf e.volumeID = none ∧
      (result.2.1.Live e.volumeID ↔ w.orphans old e = false) ∧
      ∀ x ∈ rest, result.2.1.Live x.volumeID ∧ result.2.2.mountOf x.volumeID = none

structure Pending (old s new : State) (entries : List MountEntry) : Prop where
  unused : ∀ m, s.locks.next ≤ m → s.locks.locked m = false
  unlocked : ∀ m, new.locks.locked m = false
  serves : ∀ e ∈ entries, s.Serves e
  absent : ∀ e ∈ entries, new.mountOf e.volumeID = none
  same : ∀ e ∈ entries,
    (s.processes[e.process]?).map Process.bare = (old.processes[e.process]?).map Process.bare
  free : ∀ e ∈ entries, s.Free e.volumeID ↔ old.Free e.volumeID
  distinct : (entries.map (·.volumeID)).Nodup

theorem State.Serves.process_ne {e x : MountEntry} (he : s.Serves e) (hx : s.Serves x)
    (hne : x.volumeID ≠ e.volumeID) : e.process ≠ x.process := by
  intro heq
  obtain ⟨p, hp, hvol, -⟩ := he.worker
  obtain ⟨p', hp', hvol', -⟩ := hx.worker
  rw [← heq, hp] at hp'
  cases hp'
  exact hne (hvol'.symm.trans hvol)

theorem State.Serves.of_spares {e x : MountEntry} {t : State} (he : s.Serves e) (hx : s.Serves x)
    (hne : x.volumeID ≠ e.volumeID) (h : s.Spares t e.volumeID e.process) : t.Serves x := by
  refine ⟨(h.mountOf _ hne).trans hx.entry, ?_⟩
  refine has_congr (h.process _ (he.process_ne hx hne)) ?_ hx.worker
  intro p p' hbare
  rw [(bare_inj hbare).1, (bare_inj hbare).2.1]
  exact id

section Step

variable {e : MountEntry} {rest : List MountEntry} {result : Except String Unit × State × State}

theorem Pending.ne (h : Pending old s new (e :: rest)) {x : MountEntry} (hx : x ∈ rest) :
    x.volumeID ≠ e.volumeID := by
  intro heq
  have hnodup := h.distinct
  rw [List.map_cons, List.nodup_cons] at hnodup
  exact hnodup.1 (heq ▸ List.mem_map_of_mem hx)

theorem Pending.treats (h : Pending old s new (e :: rest)) :
    w.Treats s new e (w.takeoverMount (takeoverMountFromEntry e) s new) :=
  World.treats (h.serves e List.mem_cons_self) (h.unlocked _) (h.absent e List.mem_cons_self)

theorem Pending.others (h : Pending old s new (e :: rest)) (hresult : w.Treats s new e result)
    {x : MountEntry} (hx : x ∈ rest) :
    result.2.1.Serves x ∧ result.2.2.mountOf x.volumeID = none := by
  have hxs := List.mem_cons_of_mem e hx
  constructor
  · exact (h.serves e List.mem_cons_self).of_spares (h.serves x hxs) (h.ne hx) hresult.spares
  · exact (hresult.others _ (h.ne hx)).trans (h.absent x hxs)

theorem Pending.next (h : Pending old s new (e :: rest)) (hresult : w.Treats s new e result)
    (hmoves : w.moves s e = true) : Pending old result.2.1 result.2.2 rest where
  unused := (hresult.moves hmoves).2.1.unused h.unused
  unlocked m := by
    rw [(hresult.moves hmoves).2.2.1.locked]
    exact h.unlocked m
  serves x hx := (h.others hresult hx).1
  absent x hx := (h.others hresult hx).2
  same x hx := by
    have hxs := List.mem_cons_of_mem e hx
    have hne := (h.serves e List.mem_cons_self).process_ne (h.serves x hxs) (h.ne hx)
    exact (hresult.spares.process _ hne).trans (h.same x hxs)
  free x hx := ((hresult.moves hmoves).2.1.free_iff (h.ne hx) h.unused).trans
    (h.free x (List.mem_cons_of_mem e hx))
  distinct := by
    have hnodup := h.distinct
    rw [List.map_cons, List.nodup_cons] at hnodup
    exact hnodup.2

end Step

theorem takeoverMounts_others {entries : List MountEntry} (h : Pending old s new entries) {v : String}
    (hv : v ∉ entries.map (·.volumeID)) :
    (w.takeoverMounts (entries.map takeoverMountFromEntry) s new).2.1.mountOf v = s.mountOf v ∧
      (w.takeoverMounts (entries.map takeoverMountFromEntry) s new).2.2.mountOf v =
        new.mountOf v := by
  induction entries generalizing s new with
  | nil => exact ⟨rfl, rfl⟩
  | cons e rest ih =>
    rw [List.map_cons, List.mem_cons, not_or] at hv
    have htreats := h.treats (w := w)
    rw [List.map_cons, World.takeoverMounts]
    generalize w.takeoverMount (takeoverMountFromEntry e) s new = result at htreats
    obtain ⟨r, s', new'⟩ := result
    cases hmoves : w.moves s e with
    | false =>
      obtain ⟨err, rfl⟩ := (htreats.stays hmoves).1
      exact ⟨htreats.spares.mountOf v hv.1, htreats.others v hv.1⟩
    | true =>
      obtain rfl := (htreats.moves hmoves).1
      obtain ⟨hold, hnew⟩ := ih (h.next htreats hmoves) hv.2
      exact ⟨hold.trans (htreats.spares.mountOf v hv.1), hnew.trans (htreats.others v hv.1)⟩

theorem takeoverMounts_settles {entries : List MountEntry} (h : Pending old s new entries) :
    w.Settles old (w.takeoverMounts (entries.map takeoverMountFromEntry) s new) entries := by
  induction entries generalizing s new with
  | nil => rfl
  | cons e rest ih =>
    have htreats := h.treats (w := w)
    obtain ⟨hmoves, horphans⟩ := moves_congr (w := w) (h.free e List.mem_cons_self)
      (h.same e List.mem_cons_self)
    have hfirst : e.volumeID ∉ rest.map (·.volumeID) := by
      have hnodup := h.distinct
      rw [List.map_cons, List.nodup_cons] at hnodup
      exact hnodup.1
    rw [List.map_cons, World.takeoverMounts, World.Settles, ← hmoves, ← horphans]
    generalize w.takeoverMount (takeoverMountFromEntry e) s new = result at htreats
    obtain ⟨r, s', new'⟩ := result
    cases hmoved : w.moves s e with
    | false =>
      obtain ⟨⟨err, rfl⟩, hnone, hlive⟩ := htreats.stays hmoved
      refine ⟨⟨err, rfl⟩, hnone, hlive, fun x hx => ?_⟩
      exact (h.others htreats hx).imp_left (·.live)
    | true =>
      obtain ⟨rfl, -, -, hremoved, hmounted⟩ := htreats.moves hmoved
      have hnext := h.next htreats hmoved
      obtain ⟨hold, hnew⟩ := takeoverMounts_others (w := w) hnext hfirst
      refine ⟨hold.trans hremoved, ?_, ih hnext⟩
      rw [hnew]
      exact hmounted

theorem Live.isSome {t : State} {v : String} (h : t.Live v) : (t.mountOf v).isSome = true := by
  obtain ⟨e, he, -⟩ := h
  rw [he]
  rfl

/-- No entry is orphaned by the walk, which ends at the first one it does not
move. -/
def World.Spared (w : World) (old : State) (entries : List MountEntry) : Prop :=
  ∀ pre e post, entries = pre ++ e :: post → (∀ x ∈ pre, w.moves old x = true) →
    w.orphans old e = false

theorem World.orphans_of_moves {e : MountEntry} (h : w.moves old e = true) :
    w.orphans old e = false := by
  rw [World.orphans, h]
  simp

theorem World.spared_cons {e : MountEntry} {rest : List MountEntry} :
    w.Spared old (e :: rest) ↔
      if w.moves old e then w.Spared old rest else w.orphans old e = false := by
  split
  case isTrue hmoves =>
    constructor
    · rintro h pre x post rfl hpre
      refine h (e :: pre) x post rfl fun y hy => ?_
      rcases List.mem_cons.mp hy with rfl | hy
      · exact hmoves
      · exact hpre y hy
    · intro h pre x post heq hpre
      cases pre with
      | nil =>
        cases heq
        exact orphans_of_moves hmoves
      | cons y pre =>
        cases heq
        exact h pre x post rfl fun z hz => hpre z (List.mem_cons_of_mem _ hz)
  case isFalse hstays =>
    constructor
    · intro h
      exact h [] e rest rfl nofun
    · intro h pre x post heq hpre
      cases pre with
      | nil =>
        cases heq
        exact h
      | cons y pre =>
        cases heq
        exact absurd (hpre e List.mem_cons_self) hstays

theorem World.Settles.unorphaned_iff {result : Except String Unit × State × State}
    {entries : List MountEntry} (h : w.Settles old result entries) :
    Unorphaned entries result ↔ w.Spared old entries := by
  induction entries with
  | nil =>
    constructor
    · intro _ pre e post hnil
      simp at hnil
    · intro _
      exact ⟨List.forall_mem_nil _, fun _ => List.forall_mem_nil _, fun _ _ => List.forall_mem_nil _⟩
  | cons e rest ih =>
    rw [World.spared_cons]
    rw [World.Settles] at h
    split at h
    case isTrue hmoves =>
      obtain ⟨hremoved, hmounted, hrest⟩ := h
      rw [if_pos hmoves, ← ih hrest]
      constructor
      · intro hall
        exact ⟨fun x hx => hall.one x (List.mem_cons_of_mem _ hx),
          fun hok x hx => hall.moved hok x (List.mem_cons_of_mem _ hx),
          fun err herr x hx => hall.kept err herr x (List.mem_cons_of_mem _ hx)⟩
      · intro hall
        refine ⟨List.forall_mem_cons.mpr ⟨?_, hall.one⟩,
          fun hok => List.forall_mem_cons.mpr ⟨hmounted, hall.moved hok⟩,
          fun err herr => List.forall_mem_cons.mpr ⟨fun hnone => ?_, hall.kept err herr⟩⟩
        · rw [hremoved, hmounted]
          simp
        · rw [hnone] at hmounted
          cases hmounted
    case isFalse hstays =>
      obtain ⟨⟨err, herr⟩, hnone, hlive, hrest⟩ := h
      rw [if_neg hstays, ← hlive]
      constructor
      · intro hall
        exact hall.kept err herr e List.mem_cons_self hnone
      · intro halive
        have hall : ∀ x ∈ e :: rest,
            result.2.1.Live x.volumeID ∧ result.2.2.mountOf x.volumeID = none :=
          List.forall_mem_cons.mpr ⟨⟨halive, hnone⟩, hrest⟩
        refine ⟨fun x hx => ?_, fun hok => ?_, fun _ _ x hx _ => (hall x hx).1⟩
        · rw [Live.isSome (hall x hx).1, (hall x hx).2]
          simp
        · rw [herr] at hok
          cases hok

theorem World.Settles.of_core {r : Except String Unit} {t t' n : State} {entries : List MountEntry}
    (h : w.Settles old (r, t, n) entries) (hcore : t'.core = t.core) :
    w.Settles old (r, t', n) entries := by
  have hmountOf : ∀ v, t'.mountOf v = t.mountOf v := by
    intro v
    rw [State.mountOf, (Prod.mk.inj hcore).1, State.mountOf]
  induction entries with
  | nil => exact h
  | cons e rest ih =>
    rw [World.Settles] at h ⊢
    split at h
    case isTrue hmoves =>
      rw [if_pos hmoves]
      exact ⟨(hmountOf _).trans h.1, h.2.1, ih h.2.2⟩
    case isFalse hstays =>
      rw [if_neg hstays]
      obtain ⟨herr, hnone, hlive, hrest⟩ := h
      exact ⟨herr, hnone, (live_congr hcore).trans hlive,
        fun x hx => (hrest x hx).imp_left fun hx => hx.of_core hcore⟩

end Walk

end ClusterState.MountManager
