import ClusterState.Backup.LaterRun

/-! # The backups of a directory

The recognisers find each backup once, so that the newest are not among those that
retention drops.
-/

namespace ClusterState.Backup

variable {Content : Type} (py : Python Content)

def recognised {α : Type} (recognise : String → Entry Content → Except Failure (Option α))
    (p : Place Content) : List α :=
  (entries p).filterMap fun entry =>
    match recognise entry.1 entry.2 with
    | .ok found => found
    | .error _ => none

def exportsIn (p : Place Content) : List (Nat × String) :=
  sorted timestampKey (recognised (completedExport py) p)

def archivesIn (p : Place Content) : List (Utc × String) :=
  sorted Utc.key (recognised (completedArchive py) p)

def publication (target : String) : Option (Nat × String) :=
  (matchStem py target).map fun found => (found.1, target)

def exportsWith (p : Place Content) (published : List String) : List (Nat × String) :=
  sorted timestampKey (exportsIn py p ++ published.filterMap (publication py))

/-- `completions[-keep:]` -/
def newest {κ : Type} (keep : Nat) (completions : List (κ × String)) : List (κ × String) :=
  completions.drop (completions.length - keep)

variable {py} {p : Place Content} {α κ : Type}

theorem reduceOption_mapM {β : Type} {f : β → Except Failure (Option α)} {xs : List β}
    {ys : List (Option α)} (h : xs.mapM f = .ok ys) :
    ys.reduceOption = xs.filterMap fun x =>
      match f x with
      | .ok found => found
      | .error _ => none := by
  induction xs generalizing ys with
  | nil =>
    cases h
    rfl
  | cons x xs ih =>
    rw [List.mapM_cons] at h
    obtain ⟨y, hy, h⟩ := Data.bind_eq_ok.mp h
    obtain ⟨ys', hys', h⟩ := Data.bind_eq_ok.mp h
    cases h
    cases y with
    | none => rw [List.reduceOption_cons_of_none, ih hys', List.filterMap_cons, hy]
    | some a => rw [List.reduceOption_cons_of_some, ih hys', List.filterMap_cons, hy]

theorem eq_of_completed {found : List (Nat × String)} (h : completed py p = .ok found) :
    found = exportsIn py p := by
  obtain ⟨listed, hlisted, h⟩ := Data.bind_eq_ok.mp h
  cases h
  rw [reduceOption_mapM hlisted, exportsIn, recognised]

theorem eq_of_completedDbArchives {found : List (Utc × String)}
    (h : completedDbArchives py p = .ok found) : found = archivesIn py p := by
  cases p with
  | absent =>
    cases h
    rfl
  | other => cases h
  | directory attributes listed =>
    obtain ⟨_, -, h⟩ := Data.bind_eq_ok.mp h
    obtain ⟨ys, hys, h⟩ := Data.bind_eq_ok.mp h
    cases h
    rw [reduceOption_mapM hys, archivesIn, recognised, entries]

theorem mem_entries {entry : (_ : String) × Entry Content} :
    entry ∈ entries p ↔ p.lookup entry.1 = some entry.2 := by
  cases p with
  | directory attributes listed => exact AList.mem_lookup_iff.symm
  | absent => exact iff_of_false List.not_mem_nil nofun
  | other => exact iff_of_false List.not_mem_nil nofun

theorem mem_recognised {recognise : String → Entry Content → Except Failure (Option α)} {x : α} :
    x ∈ recognised recognise p ↔
      ∃ name e, p.lookup name = some e ∧ recognise name e = .ok (some x) := by
  rw [recognised, List.mem_filterMap]
  constructor
  · rintro ⟨entry, hentry, hx⟩
    refine ⟨entry.1, entry.2, mem_entries.mp hentry, ?_⟩
    split at hx
    · rename_i found hfound
      rw [hfound, hx]
    · cases hx
  · rintro ⟨name, e, he, hx⟩
    refine ⟨⟨name, e⟩, mem_entries.mpr he, ?_⟩
    rw [hx]

theorem name_of_completedExport {name : String} {e : Entry Content} {x : Nat × String}
    (h : completedExport py name e = .ok (some x)) :
    x.2 = name ∧ ∃ version, matchStem py name = some (x.1, version) := by
  cases e with
  | other => cases h
  | directory d =>
    simp only [completedExport, matchName_append] at h
    split at h
    · cases h
    · rename_i timestamp version hmatch
      obtain ⟨_, -, h⟩ := Data.bind_eq_ok.mp h
      obtain ⟨_, -, h⟩ := Data.bind_eq_ok.mp h
      obtain ⟨_, -, h⟩ := Data.bind_eq_ok.mp h
      obtain ⟨_, -, h⟩ := Data.bind_eq_ok.mp h
      cases h
      exact ⟨rfl, version, hmatch⟩

theorem name_of_completedArchive {name : String} {e : Entry Content} {x : Utc × String}
    (h : completedArchive py name e = .ok (some x)) : x.2 = name ∧ isAdmission name = true := by
  unfold completedArchive at h
  split at h
  · rename_i hname
    cases e with
    | other => cases h
    | directory d =>
      obtain ⟨_, -, h⟩ := Data.bind_eq_ok.mp h
      obtain ⟨_, -, h⟩ := Data.bind_eq_ok.mp h
      obtain ⟨_, -, h⟩ := Data.bind_eq_ok.mp h
      obtain ⟨_, -, h⟩ := Data.bind_eq_ok.mp h
      obtain ⟨_, -, h⟩ := Data.bind_eq_ok.mp h
      obtain ⟨_, -, h⟩ := Data.bind_eq_ok.mp h
      obtain ⟨_, -, h⟩ := Data.bind_eq_ok.mp h
      obtain ⟨_, -, h⟩ := Data.bind_eq_ok.mp h
      cases h
      exact ⟨rfl, hname⟩
  · cases h

theorem completedExport_of_passes {name : String} {d : Directory Content} {found : Nat × String}
    (hmatch : matchStem py name = some found) (h : Passes py .exports name (.directory d)) :
    completedExport py name (.directory d) = .ok (some (found.1, name)) := by
  obtain ⟨x, hx⟩ := h
  cases x with
  | some x =>
    obtain ⟨hname, version, hmatch'⟩ := name_of_completedExport hx
    cases hmatch.symm.trans hmatch'
    rw [hx, ← hname]
  | none =>
    simp only [completedExport, matchName_append, hmatch] at hx
    obtain ⟨_, -, hx⟩ := Data.bind_eq_ok.mp hx
    obtain ⟨_, -, hx⟩ := Data.bind_eq_ok.mp hx
    obtain ⟨_, -, hx⟩ := Data.bind_eq_ok.mp hx
    obtain ⟨_, -, hx⟩ := Data.bind_eq_ok.mp hx
    cases hx

theorem publication_eq_some {target : String} {x : Nat × String} :
    publication py target = some x ↔
      x.2 = target ∧ ∃ version, matchStem py target = some (x.1, version) := by
  rw [publication, Option.map_eq_some_iff]
  constructor
  · rintro ⟨found, hfound, rfl⟩
    exact ⟨rfl, found.2, hfound⟩
  · rintro ⟨rfl, version, hmatch⟩
    exact ⟨_, hmatch, rfl⟩

theorem mem_exportsIn {x : Nat × String} : x ∈ exportsIn py p ↔
    ∃ e, p.lookup x.2 = some e ∧ completedExport py x.2 e = .ok (some x) := by
  rw [exportsIn, mem_sorted, mem_recognised]
  constructor
  · rintro ⟨name, e, he, hx⟩
    obtain ⟨rfl, -⟩ := name_of_completedExport hx
    exact ⟨e, he, hx⟩
  · rintro ⟨e, he, hx⟩
    exact ⟨x.2, e, he, hx⟩

theorem mem_archivesIn {x : Utc × String} : x ∈ archivesIn py p ↔
    ∃ e, p.lookup x.2 = some e ∧ completedArchive py x.2 e = .ok (some x) := by
  rw [archivesIn, mem_sorted, mem_recognised]
  constructor
  · rintro ⟨name, e, he, hx⟩
    obtain ⟨rfl, -⟩ := name_of_completedArchive hx
    exact ⟨e, he, hx⟩
  · rintro ⟨e, he, hx⟩
    exact ⟨x.2, e, he, hx⟩

theorem mem_exportsWith {published : List String} {x : Nat × String} :
    x ∈ exportsWith py p published ↔ x ∈ exportsIn py p ∨
      x.2 ∈ published ∧ ∃ version, matchStem py x.2 = some (x.1, version) := by
  rw [exportsWith, mem_sorted, List.mem_append, List.mem_filterMap]
  refine or_congr Iff.rfl ⟨?_, ?_⟩
  · rintro ⟨target, htarget, hx⟩
    obtain ⟨rfl, hmatch⟩ := publication_eq_some.mp hx
    exact ⟨htarget, hmatch⟩
  · rintro ⟨htarget, hmatch⟩
    exact ⟨x.2, htarget, publication_eq_some.mpr ⟨rfl, hmatch⟩⟩

/-! ## No backup is counted twice -/

theorem nodup_recognised {κ : Type} {recognise : String → Entry Content → Except Failure (Option (κ × String))}
    (hname : ∀ name e x, recognise name e = .ok (some x) → x.2 = name) :
    ((recognised recognise p).map Prod.snd).Nodup := by
  have hkeys : ((entries p).map Sigma.fst).Nodup := by
    cases p with
    | directory attributes listed => exact listed.keys_nodup
    | absent => exact List.nodup_nil
    | other => exact List.nodup_nil
  refine hkeys.sublist ?_
  rw [recognised]
  induction entries p with
  | nil => exact List.nil_sublist _
  | cons entry rest ih =>
    rw [List.filterMap_cons]
    split
    · exact ih.cons _
    · rename_i x hx
      have hok : recognise entry.1 entry.2 = .ok (some x) := by
        split at hx
        · rename_i found hfound
          rw [hfound, hx]
        · cases hx
      rw [List.map_cons, List.map_cons, hname _ _ _ hok]
      exact ih.cons_cons _

theorem nodup_sorted {key : κ → List Nat} {found : List (κ × String)}
    (h : (found.map Prod.snd).Nodup) : ((sorted key found).map Prod.snd).Nodup :=
  (((List.perm_insertionSort _ found).map Prod.snd).nodup_iff).mpr h

theorem nodup_archivesIn : ((archivesIn py p).map Prod.snd).Nodup :=
  nodup_sorted (nodup_recognised fun _ _ _ h => (name_of_completedArchive h).1)

theorem nodup_exportsWith {published : List String} (hpublished : published.Nodup)
    (hfresh : ∀ target ∈ published, p.lookup target = none) :
    ((exportsWith py p published).map Prod.snd).Nodup := by
  apply nodup_sorted
  rw [List.map_append]
  apply List.Nodup.append
  · exact nodup_sorted (nodup_recognised fun _ _ _ h => (name_of_completedExport h).1)
  · refine hpublished.sublist ?_
    clear hfresh hpublished
    induction published with
    | nil => exact List.nil_sublist _
    | cons target rest ih =>
      rw [List.filterMap_cons]
      split
      · exact ih.cons _
      · rename_i x hx
        rw [List.map_cons, (publication_eq_some.mp hx).1]
        exact ih.cons_cons _
  · intro name hbefore hsince
    obtain ⟨x, hx, rfl⟩ := List.mem_map.mp hbefore
    obtain ⟨e, he, -⟩ := mem_exportsIn.mp hx
    obtain ⟨y, hy, hname⟩ := List.mem_map.mp hsince
    obtain ⟨target, htarget, hy⟩ := List.mem_filterMap.mp hy
    rw [← hname, (publication_eq_some.mp hy).1, hfresh target htarget] at he
    cases he

/-! ## What is newest -/

/-- By the key, and by the path among equal keys. -/
def Earlier (key : κ → List Nat) (x y : κ × String) : Prop :=
  key x.1 < key y.1 ∨ key x.1 = key y.1 ∧ x.2 < y.2

instance (key : κ → List Nat) : DecidableRel (Earlier key) := fun x y =>
  inferInstanceAs (Decidable (key x.1 < key y.1 ∨ key x.1 = key y.1 ∧ x.2 < y.2))

theorem mem_of_newest {keep : Nat} {completions : List (κ × String)} {x : κ × String}
    (hx : x ∈ newest keep completions) : x ∈ completions := List.mem_of_mem_drop hx

section Newest

variable {key : κ → List Nat} {found : List (κ × String)} {keep : Nat} {x y : κ × String}

theorem earlier_iff_lt : Earlier key x y ↔ toLex (key x.1, x.2) < toLex (key y.1, y.2) := by
  rw [Prod.Lex.toLex_lt_toLex]
  rfl

theorem Earlier.asymm (h : Earlier key x y) : ¬Earlier key y x := by
  rw [earlier_iff_lt] at h ⊢
  exact h.asymm

/-- `sorted` orders by the key and then by the path. -/
theorem pairwise_sorted (h : ((sorted key found).map Prod.snd).Nodup) :
    (sorted key found).Pairwise (Earlier key) := by
  have hle (a b : κ × String) : (key a.1 < key b.1 ∨ key a.1 = key b.1 ∧ a.2 ≤ b.2) ↔
      toLex (key a.1, a.2) ≤ toLex (key b.1, b.2) := by
    rw [Prod.Lex.toLex_le_toLex]
  have htotal : Std.Total fun a b : κ × String => key a.1 < key b.1 ∨ key a.1 = key b.1 ∧ a.2 ≤ b.2 :=
    ⟨fun a b => by simpa only [hle] using le_total _ _⟩
  have htrans : IsTrans (κ × String) fun a b => key a.1 < key b.1 ∨ key a.1 = key b.1 ∧ a.2 ≤ b.2 :=
    ⟨fun a b c => by simpa only [hle] using le_trans⟩
  have hsorted := List.pairwise_insertionSort
    (fun a b : κ × String => key a.1 < key b.1 ∨ key a.1 = key b.1 ∧ a.2 ≤ b.2) found
  apply (hsorted.and (List.pairwise_map.mp h)).imp
  rintro a b ⟨horder, hne⟩
  exact horder.imp_right fun heq => ⟨heq.1, lt_of_le_of_ne heq.2 hne⟩

theorem filter_later {before after : List (κ × String)}
    (h : (before ++ x :: after).Pairwise (Earlier key)) :
    (before ++ x :: after).filter (fun y => Earlier key x y) = after := by
  obtain ⟨-, hafter, hbefore⟩ := List.pairwise_append.mp h
  have hnone : before.filter (fun y => Earlier key x y) = [] := by
    refine List.filter_eq_nil_iff.mpr fun y hy => ?_
    simpa using (hbefore y hy x List.mem_cons_self).asymm
  have hself : ¬Earlier key x x := fun hx => hx.asymm hx
  have hall : after.filter (fun y => Earlier key x y) = after :=
    List.filter_eq_self.mpr fun y hy => decide_eq_true (List.rel_of_pairwise_cons hafter hy)
  rw [List.filter_append, hnone, List.nil_append, List.filter_cons, hall, if_neg (by simpa using hself)]

/-- The newest are those that few come after. -/
theorem mem_newest_iff {completions : List (κ × String)} (h : completions.Pairwise (Earlier key)) :
    x ∈ newest keep completions ↔
      x ∈ completions ∧ (completions.filter fun y => Earlier key x y).length < keep := by
  by_cases hx : x ∈ completions
  case neg => exact ⟨fun hnewest => (hx (mem_of_newest hnewest)).elim, fun hmem => (hx hmem.1).elim⟩
  case pos =>
    obtain ⟨before, after, rfl⟩ := List.append_of_mem hx
    have hself : x ∉ after := by
      intro hmem
      have hearlier := List.rel_of_pairwise_cons (List.pairwise_append.mp h).2.1 hmem
      exact hearlier.asymm hearlier
    rw [filter_later h, newest, List.length_append, List.length_cons]
    constructor
    · intro hnewest
      refine ⟨hx, ?_⟩
      by_contra hmany
      have hlength : before.length + (after.length + 1) - keep =
          before.length + (after.length - keep + 1) := by omega
      rw [hlength, List.drop_length_add_append, List.drop_succ_cons] at hnewest
      exact hself (List.mem_of_mem_drop hnewest)
    · rintro ⟨-, hfew⟩
      rw [List.drop_append_of_le_length (by omega)]
      exact List.mem_append_right _ List.mem_cons_self

end Newest

theorem mem_newest_archivesIn {keep : Nat} {x : Utc × String} : x ∈ newest keep (archivesIn py p) ↔
    x ∈ archivesIn py p ∧ ((archivesIn py p).filter fun y => Earlier Utc.key x y).length < keep :=
  mem_newest_iff (pairwise_sorted nodup_archivesIn)

theorem mem_newest_exportsWith {published : List String} (hpublished : published.Nodup)
    (hfresh : ∀ target ∈ published, p.lookup target = none) {keep : Nat} {x : Nat × String} :
    x ∈ newest keep (exportsWith py p published) ↔ x ∈ exportsWith py p published ∧
      ((exportsWith py p published).filter fun y => Earlier timestampKey x y).length < keep :=
  mem_newest_iff (pairwise_sorted (nodup_exportsWith hpublished hfresh))

/-- What is dropped is not among the newest. -/
theorem not_dropped_of_newest {keep : Nat} {completions : List (κ × String)} {x : κ × String}
    (hnodup : (completions.map Prod.snd).Nodup) (hx : x ∈ newest keep completions) :
    x.2 ∉ dropLast keep completions := by
  intro hdropped
  rw [← List.take_append_drop (completions.length - keep) completions, List.map_append] at hnodup
  exact (List.disjoint_of_nodup_append hnodup) hdropped (List.mem_map_of_mem hx)

end ClusterState.Backup
