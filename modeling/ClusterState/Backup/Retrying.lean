import ClusterState.Backup.Publication

/-! # An export can be retried

A run that is cut leaves a directory that the next run accepts and publishes to,
unless it is cut while it takes the files out of a backup.
-/

namespace ClusterState.Backup

open Concurrency

variable {Content : Type} {py : Python Content} {s : State Content}

/-! ## Any run -/

structure Qualified (py : Python Content) (p : Prepared Content) : Prop where
  name : p.name = p.target ++ backupSuffix
  target : Owned py .exports p.target
  retained : ∀ x ∈ p.retained, Owned py .exports x.2
  dbRetained : ∀ x ∈ p.dbRetained, Owned py .dbArchives x.2

theorem qualified_name {name : String} {found : Nat × String} (h : matchName py name = some found) :
    (stem? name).getD name ++ backupSuffix = name ∧
      matchStem py ((stem? name).getD name) = some found := by
  obtain ⟨stem, hstem, hfound⟩ := Option.bind_eq_some_iff.mp h
  rw [hstem]
  exact ⟨append_of_stem hstem, hfound⟩

theorem achieves_namespaceExports :
    Achieves py (fun _ t => (t.places .exports).attributes?.isSome) namespaceExports s := by
  refine achieves_read trivial fun x _ _ => achieves_orFail fun p _ => ?_
  have hrest : ∀ t, Achieves py (fun _ t => (t.places .exports).attributes?.isSome)
      (act (.look .exports) >>= fun x => orFail x >>= fun p => lift (privatePlace p)) t := by
    intro t
    refine achieves_read trivial fun x _ hperforms => achieves_orFail fun p hp => ?_
    obtain rfl := hperforms.2 p hp
    unfold privatePlace
    split
    · rename_i attributes hattributes
      unfold privateDirectory require
      split
      · exact (congrArg Option.isSome hattributes).trans rfl
      · trivial
    · trivial
  unfold mkdirIfAbsent
  split
  · exact achieves_act trivial fun x t _ _ => achieves_orFail fun _ _ => hrest t
  · exact hrest s

theorem achieves_produce {version : String} :
    Achieves py (fun _ t => t = s) (produce py version) s := by
  refine achieves_read trivial fun x _ _ => achieves_orFail fun p _ => ?_
  cases checkProduction py version p with
  | ok produced => rfl
  | error e => trivial

theorem achieves_prepare : Achieves py
    (fun p t => t.emptying = none ∧ (t.places .exports).attributes?.isSome ∧ Qualified py p)
    (prepare py) s := by
  refine achieves_read trivial fun _ _ _ => achieves_lift fun _ _ => ?_
  refine achieves_read trivial fun _ _ _ => achieves_lift fun _ _ => ?_
  refine achieves_namespaceExports.bind fun _ t hexports => ?_
  refine achieves_read trivial fun _ _ _ => achieves_orFail fun _ _ => ?_
  refine achieves_read trivial fun _ _ _ => achieves_orFail fun version _ => ?_
  refine achieves_lift fun _ _ => ?_
  refine achieves_read trivial fun _ _ _ => achieves_orFail fun _ _ => ?_
  refine achieves_produce.bind fun produced t' ht' => ?_
  subst ht'
  obtain ⟨name, empty⟩ := produced
  simp only
  split
  · trivial
  · rename_i timestamp version hmatch
    obtain ⟨hname, htarget⟩ := qualified_name hmatch
    refine achieves_read trivial fun _ _ _ => achieves_orFail fun metadata _ => ?_
    refine achieves_read trivial fun _ _ _ => achieves_orFail fun checksum _ => ?_
    refine achieves_read trivial fun _ _ _ => achieves_orFail fun there _ => ?_
    refine achieves_lift fun _ _ => ?_
    refine achieves_read trivial fun _ _ hlook => achieves_orFail fun place hplace => ?_
    obtain rfl := hlook.2 place hplace
    refine achieves_lift fun retained hretained => ?_
    refine achieves_read trivial fun _ hs hlook => achieves_orFail fun place hplace => ?_
    obtain rfl := hlook.2 place hplace
    refine achieves_lift fun dbRetained hdbRetained => ?_
    refine ⟨hs.accepts_iff.mp ⟨⟨retained, hretained⟩, dbRetained, hdbRetained⟩, hexports, ?_⟩
    exact ⟨hname.symm, Option.isSome_iff_exists.mpr ⟨_, htarget⟩,
      fun x hx => owned_of_completed hretained hx, fun x hx => owned_of_completedDbArchives hdbRetained hx⟩

theorem achieves_retention {p : Prepared Content} (hp : Qualified py p) (hnone : s.emptying = none) :
    Achieves py (fun _ _ => True) (retention p) s := by
  have hexports : ∀ name ∈ dropLast 7 (sorted timestampKey (p.retained ++ [(p.timestamp, p.target)])),
      Owned py .exports name := by
    intro name hname
    obtain ⟨x, hx, rfl⟩ := snd_mem_of_dropLast hname
    rcases List.mem_append.mp (mem_sorted.mp hx) with hx | hx
    · exact hp.retained x hx
    · rw [List.mem_singleton.mp hx]
      exact hp.target
  have hdbArchives : ∀ name ∈ dropLast 14 p.dbRetained, Owned py .dbArchives name := by
    intro name hname
    obtain ⟨x, hx, rfl⟩ := snd_mem_of_dropLast hname
    exact hp.dbRetained x hx
  refine (achieves_pruneOwned hexports hnone).bind fun _ t ht => ?_
  refine (achieves_pruneOwned hdbArchives ht).bind fun _ t' _ => ?_
  have hend : ∀ u, Achieves py (fun _ _ => True)
      (act .sync >>= fun x => orFail x >>= fun _ => act .cleanup >>= orFail) u := fun u =>
    achieves_sync (achieves_read trivial fun x _ _ => by cases x <;> trivial)
  split
  · exact achieves_sync (hend t')
  · exact hend t'

theorem achieves_removeStage {hidden : String} :
    Achieves py (fun _ _ => True) (removeStage ("." ++ hidden)) s := by
  refine achieves_read trivial fun _ _ _ => achieves_orFail fun there _ => ?_
  cases there with
  | none => trivial
  | some e => exact achieves_act ⟨hidden, rfl⟩ fun x _ _ _ => by cases x <;> trivial

theorem achieves_main : Achieves py (fun _ _ => True) (main py) s := by
  refine achieves_prepare.bind fun p t hp => ?_
  obtain ⟨hnone, hexports, hqualified⟩ := hp
  obtain ⟨found, hmatch⟩ := Option.isSome_iff_exists.mp hqualified.target
  refine achieves_act trivial fun x t' _ hperforms => achieves_orFail fun stage hstage => ?_
  obtain ⟨-, hfail⟩ | ⟨random, -, rfl, hfail | hname⟩ := hperforms
  · rw [hfail] at hstage
    cases hstage
  · rw [hfail] at hstage
    cases hstage
  · cases hstage.symm.trans hname
    refine Discipline.Meets.finallyDo ?_ (fun _ _ (_ : True) => achieves_removeStage)
      fun _ _ (_ : True) => achieves_removeStage
    exact (achieves_publish hmatch hqualified.name (State.entry_put hexports) hnone).bind
      fun _ _ ht => achieves_retention hqualified ht

end ClusterState.Backup
