import ClusterState.MountManager.Registry

/-! # Inventories

What a listed inventory says about the mounts until the next release, when it
was listed with no mount or unmount request under way: the mounts are the listed
ones, less those that a finalization or the goroutine of a dead worker removed.
-/

namespace ClusterState.MountManager

open Concurrency

def Deployment.Finalizes (d : Deployment) (i : Thread) (volumeID : String) : Prop :=
  ∃ n req, i = .request n ∧ d.calls n = .finalizeTakeover (some req) ∧ req.volumeID = volumeID

def Deployment.Imports (d : Deployment) (i : Thread) : Prop :=
  ∃ n mount fdFile, i = .request n ∧ d.calls n = .importTakeoverMount mount fdFile

/-- A service that imports nothing any more: `main` takes over from its
predecessor before it serves. -/
def Deployment.Serving (d : Deployment) : Prop :=
  ∀ n mount fdFile, d.calls n ≠ .importTakeoverMount mount fdFile

def State.Buries (s : State) (i : Thread) (volumeID : String) : Prop :=
  ∃ p, i = .waiter p ∧ s.Has p (fun w => w.volumeID = volumeID ∧ w.stage ≠ .running)

structure Window.Tracks (d : Deployment) (s : State) (w : Window) : Prop where
  entries : ∀ v e, s.mountOf v = some e ↔
    e ∈ w.listing ∧ e.volumeID = v ∧ ∀ j, (j, v) ∉ w.removed
  removed : ∀ j v, (j, v) ∈ w.removed → d.Finalizes j v ∨ s.Buries j v

structure State.Inventoried (d : Deployment) (s : State) : Prop where
  closed : s.windows ≠ [] → s.takeover = true ∧ s.active = []
  tracks : ∀ w ∈ s.windows, w.Tracks d s

section Steps

variable {d : Deployment} {s s' : State} {i : Thread} {v : String}

theorem State.Buries.forward (h : s.Buries i v) (hs : s.Forward s') : s'.Buries i v := by
  obtain ⟨p, hi, hp⟩ := h
  refine ⟨p, hi, hp.forward hs ?_⟩
  rintro w w' hstep ⟨hvol, hrun⟩
  exact ⟨hstep.volumeID.trans hvol, fun hrun' => hrun (hstep.running hrun')⟩

theorem Window.Tracks.forward {w : Window} (h : w.Tracks d s) (hmounts : s'.mounts = s.mounts)
    (hs : s.Forward s') : w.Tracks d s' := by
  constructor
  · intro v e
    rw [State.mountOf, hmounts]
    exact h.entries v e
  · intro j v hmem
    exact (h.removed j v hmem).imp_right (fun hbury => hbury.forward hs)

theorem State.mem_listing {e : MountEntry} : e ∈ s.listing ↔ ∃ v, s.mountOf v = some e := by
  constructor
  · intro h
    obtain ⟨v, -, hv⟩ := List.mem_filterMap.mp h
    exact ⟨v, hv⟩
  · rintro ⟨v, hv⟩
    refine List.mem_filterMap.mpr ⟨v, ?_, hv⟩
    rw [List.mem_mergeSort]
    have hsome : (s.mounts.lookup v).isSome := by
      rw [show s.mounts.lookup v = some e from hv]
      rfl
    exact AList.mem_keys.mp (AList.lookup_isSome.mp hsome)

theorem State.Inventoried.forward (h : s.Inventoried d) (hmounts : s'.mounts = s.mounts)
    (hwindows : s'.windows = s.windows) (htakeover : s'.takeover = s.takeover)
    (hactive : s.takeover = true → s.active = [] → s'.active = []) (hs : s.Forward s') :
    s'.Inventoried d := by
  constructor
  · intro hne
    rw [hwindows] at hne
    obtain ⟨htrue, hempty⟩ := h.closed hne
    rw [htakeover]
    exact ⟨htrue, hactive htrue hempty⟩
  · intro w hw
    rw [hwindows] at hw
    exact (h.tracks w hw).forward hmounts hs

theorem State.inventoried_of_nil (h : s.windows = []) : s.Inventoried d := by
  constructor
  · exact fun hne => absurd h hne
  · intro w hw
    rw [h] at hw
    cases hw

theorem State.Inventoried.list (h : s.Inventoried d) (htakeover : s.takeover = true)
    (hactive : s.active = []) (hentry : ∀ v e, s.mountOf v = some e → e.volumeID = v) :
    State.Inventoried d { s with windows := ⟨s.listing, []⟩ :: s.windows } := by
  constructor
  · exact fun _ => ⟨htakeover, hactive⟩
  · intro w hw
    rcases List.mem_cons.mp hw with rfl | hw
    · constructor
      · intro v e
        constructor
        · intro he
          exact ⟨mem_listing.mpr ⟨v, he⟩, hentry v e he, fun _ => List.not_mem_nil⟩
        · rintro ⟨hmem, hvol, -⟩
          obtain ⟨v', hv'⟩ := mem_listing.mp hmem
          rw [← hvol, hentry v' e hv']
          exact hv'
      · intro j v hmem
        cases hmem
    · exact (h.tracks w hw).forward rfl (forward_of_processes rfl)

theorem State.Inventoried.erase (h : s.Inventoried d) (hby : d.Finalizes i v ∨ s.Buries i v) :
    (s.eraseMount i v).Inventoried d := by
  constructor
  · intro hne
    refine h.closed fun hnil => hne ?_
    rw [eraseMount, hnil, List.map_nil]
  · intro w' hw'
    obtain ⟨w, hw, rfl⟩ := List.mem_map.mp hw'
    have htracks := h.tracks w hw
    constructor
    · intro u e
      by_cases huv : u = v
      · subst huv
        constructor
        · intro he
          simp [mountOf, eraseMount] at he
        · rintro ⟨-, -, hnot⟩
          exact absurd List.mem_cons_self (hnot i)
      · have hsame : (s.eraseMount i v).mountOf u = s.mountOf u := AList.lookup_erase_ne huv
        rw [hsame, htracks.entries u e]
        refine and_congr_right fun _ => and_congr_right fun _ => forall_congr' fun j => ?_
        rw [List.mem_cons, not_or]
        refine ⟨fun hnot => ⟨fun heq => huv (Prod.mk.inj heq).2, hnot⟩, And.right⟩
    · intro j u hmem
      have hforward : s.Forward (s.eraseMount i v) := forward_of_processes rfl
      rcases List.mem_cons.mp hmem with heq | hmem
      · obtain ⟨rfl, rfl⟩ := Prod.mk.inj heq
        exact hby.imp_right (fun hbury => hbury.forward hforward)
      · exact (htracks.removed j u hmem).imp_right (fun hbury => hbury.forward hforward)

end Steps

end ClusterState.MountManager
