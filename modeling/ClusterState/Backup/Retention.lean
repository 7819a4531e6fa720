import ClusterState.Backup.Site

/-! # The exporter keeps its directory in order

Every change that the exporter makes leaves the recovery directory in order. What
it takes files out of is a completed backup until `rmdir`, and nothing else is.
-/

namespace ClusterState.Backup

open Concurrency

variable {Content : Type} (py : Python Content)

def Permits : Request Content → State Content → Prop
  | .rename stage target, s => s.emptying = none ∧
      ∀ e, s.entry .exports stage = some e → Passes py .exports target e
  | .unlink l path name, s => (s.emptying = none ∨ s.emptying = some (l, path)) ∧
      ∀ d, s.entry l path = some (.directory d) → name ∈ d.files.keys →
        ¬ Passes py l path (.directory { d with files := d.files.erase name })
  | .rmdir l path, s => s.emptying = some (l, path)
  | .copyfile _ stage, _ => ∃ hidden, stage = "." ++ hidden
  | .write stage _ _, _ => ∃ hidden, stage = "." ++ hidden
  | .rmtree stage, _ => ∃ hidden, stage = "." ++ hidden
  | _, _ => True

variable {py} {s s' : State Content}

theorem Orderly.not_emptying_hidden (h : Orderly py s) (hidden : String) :
    s.emptying ≠ some (.exports, "." ++ hidden) := by
  intro hin
  obtain ⟨e, -, hnot⟩ := h.emptying _ _ hin
  exact hnot (passes_hidden hidden)

theorem Orderly.putFile (h : Orderly py s) (hidden name : String) (f : File Content) :
    Orderly py (s.putFile .exports ("." ++ hidden) name f) := by
  unfold State.putFile
  split
  · exact h.put (passes_hidden hidden) (h.not_emptying_hidden hidden)
  · exact h

theorem Orderly.mkdirExports (h : Orderly py s) (heffect : s.effect .mkdirExports = some s') :
    Orderly py s' := by
  simp only [State.effect] at heffect
  split at heffect
  · rename_i habsent
    cases heffect
    have hentry : ∀ l name, (s.setPlace .exports (.directory State.newDirectory ∅)).entry l name =
        s.entry l name := by
      intro l name
      cases l with
      | exports =>
        rw [State.entry, State.places_setPlace, State.entry, habsent]
        rfl
      | dbArchives => rfl
    refine ⟨fun l => ?_, fun l name e he => ?_, fun l name hin => ?_⟩
    · cases l with
      | exports => exact .inr rfl
      | dbArchives => exact h.privatePlace .dbArchives
    · rw [hentry] at he
      exact h.passes l name e he
    · rw [hentry]
      exact h.emptying l name hin
  · cases heffect

theorem Orderly.rename {stage target : String} (h : Orderly py s)
    (hpermits : Permits py (.rename stage target) s)
    (heffect : s.effect (.rename stage target) = some s') : Orderly py s' := by
  obtain ⟨hnone, hpasses⟩ := hpermits
  simp only [State.effect] at heffect
  split at heffect
  · rename_i e hstage htarget
    cases heffect
    have hdrop : Orderly py (s.drop .exports stage) := h.drop (by rw [hnone]; nofun)
    have hput := hdrop.put (hpasses e hstage) (by rw [State.emptying_drop, hnone]; nofun)
    exact ⟨hput.privatePlace, hput.passes, hput.emptying⟩
  · cases heffect

theorem Orderly.unlink {l : Location} {path name : String} (h : Orderly py s)
    (hpermits : Permits py (.unlink l path name) s)
    (heffect : s.effect (.unlink l path name) = some s') : Orderly py s' := by
  obtain ⟨hemptying, hbreaks⟩ := hpermits
  simp only [State.effect] at heffect
  split at heffect
  · rename_i d hentry
    split at heffect
    · rename_i hmem
      cases heffect
      have hplace := Place.attributes_of_lookup hentry
      refine ⟨fun l' => (h.privatePlace l').put, fun l' name' e he hnot => ?_, fun l' name' hin => ?_⟩
      · have hne : (l', name') ≠ (l, path) := fun heq => hnot (by rw [heq])
        have he' : s.entry l' name' = some e := (State.entry_put_ne hne).symm.trans he
        refine h.passes l' name' e he' fun hin => ?_
        rcases hemptying with hnone | hsome
        · rw [hnone] at hin
          cases hin
        · exact hne (Option.some.inj (hin.symm.trans hsome))
      · cases hin
        exact ⟨_, State.entry_put hplace, hbreaks d hentry hmem⟩
    · cases heffect
  · cases heffect

theorem Orderly.rmdir {l : Location} {path : String} (h : Orderly py s)
    (hpermits : Permits py (.rmdir l path) s)
    (heffect : s.effect (.rmdir l path) = some s') : Orderly py s' := by
  have hemptying : s.emptying = some (l, path) := hpermits
  simp only [State.effect] at heffect
  split at heffect
  · split at heffect
    · cases heffect
      refine ⟨fun l' => (h.privatePlace l').drop, fun l' name' e he _ => ?_, nofun⟩
      have hne : (l', name') ≠ (l, path) := by
        intro heq
        cases heq
        have hgone : (s.drop l path).entry l path = some e := he
        rw [State.entry_drop] at hgone
        cases hgone
      have he' : s.entry l' name' = some e := (State.entry_drop_ne hne).symm.trans he
      refine h.passes l' name' e he' fun hin => ?_
      exact hne (Option.some.inj (hin.symm.trans hemptying))
    · cases heffect
  · cases heffect

theorem Orderly.performs {r : Request Content} {x : r.Value} (h : Orderly py s)
    (hpermits : Permits py r s) (hperforms : s.Performs r x s') : Orderly py s' := by
  cases r with
  | look l =>
    obtain ⟨rfl, -⟩ := hperforms
    exact h
  | stat l path =>
    obtain ⟨rfl, -⟩ := hperforms
    exact h
  | mkdtemp target =>
    obtain ⟨rfl, -⟩ | ⟨random, -, rfl, -⟩ := hperforms
    · exact h
    · exact h.put (passes_hidden _) (h.not_emptying_hidden _)
  | copyfile name stage =>
    obtain ⟨hidden, rfl⟩ := hpermits
    obtain ⟨rfl, -⟩ | ⟨f, rfl⟩ := hperforms
    · exact h
    · exact h.putFile hidden name f
  | write stage name content =>
    obtain ⟨hidden, rfl⟩ := hpermits
    obtain ⟨rfl, -⟩ | ⟨f, rfl, -⟩ := hperforms
    · exact h
    · exact h.putFile hidden name f
  | rmtree stage =>
    obtain ⟨hidden, rfl⟩ := hpermits
    obtain ⟨-, rfl | ⟨e, rfl⟩⟩ | rfl := hperforms
    · exact h
    · exact h.put (passes_hidden hidden) (h.not_emptying_hidden hidden)
    · exact h.drop (h.not_emptying_hidden hidden)
  | mkdirExports =>
    obtain ⟨rfl, -⟩ | heffect := hperforms
    · exact h
    · exact h.mkdirExports heffect
  | rename stage target =>
    obtain ⟨rfl, -⟩ | heffect := hperforms
    · exact h
    · exact h.rename hpermits heffect
  | unlink l path name =>
    obtain ⟨rfl, -⟩ | heffect := hperforms
    · exact h
    · exact h.unlink hpermits heffect
  | rmdir l path =>
    obtain ⟨rfl, -⟩ | heffect := hperforms
    · exact h
    · exact h.rmdir hpermits heffect
  | _ =>
    obtain rfl : s' = s := hperforms
    exact h

variable (py)

def exporting : Discipline PUnit (Request Content) Request.Value (State Content) :=
  .alone (fun r s x s' => s.Performs r x s') (Orderly py) (Permits py)
    fun _ _ _ _ h hpermits hperforms => h.performs hpermits hperforms

variable {py} {α β : Type} {Q : β → State Content → Prop}

def Harmless : Request Content → Prop
  | .mkdirExports => False
  | .mkdtemp _ => False
  | .copyfile _ _ => False
  | .write _ _ _ => False
  | .rename _ _ => False
  | .unlink _ _ _ => False
  | .rmdir _ _ => False
  | .rmtree _ => False
  | _ => True

theorem eq_of_harmless {r : Request Content} {x : r.Value} (hr : Harmless r)
    (h : s.Performs r x s') : s' = s := by
  cases r with
  | look l => exact h.1
  | stat l path => exact h.1
  | mkdirExports => exact hr.elim
  | mkdtemp target => exact hr.elim
  | copyfile name stage => exact hr.elim
  | write stage name content => exact hr.elim
  | rename stage target => exact hr.elim
  | unlink l path name => exact hr.elim
  | rmdir l path => exact hr.elim
  | rmtree stage => exact hr.elim
  | _ => exact h

theorem permits_of_harmless {r : Request Content} (hr : Harmless r) : Permits py r s := by
  cases r <;> trivial

/-- A program that can only fail in a harmless way. -/
abbrev Achieves (py : Python Content) (Q : α → State Content → Prop) (m : Export Content α)
    (s : State Content) : Prop :=
  (exporting py).Meets ⟨⟩ Q (fun _ _ => True) m s

theorem achieves_act {r : Request Content} {next : r.Value → Export Content β}
    (hpermits : Permits py r s)
    (hnext : ∀ x t, Orderly py s → s.Performs r x t → Achieves py Q (next x) t) :
    Achieves py Q (act r >>= next) s :=
  Discipline.meets_ask hpermits hnext

theorem achieves_read {r : Request Content} {next : r.Value → Export Content β} (hr : Harmless r)
    (hnext : ∀ x, Orderly py s → s.Performs r x s → Achieves py Q (next x) s) :
    Achieves py Q (act r >>= next) s := by
  refine achieves_act (permits_of_harmless hr) fun x t hs hperforms => ?_
  obtain rfl := eq_of_harmless hr hperforms
  exact hnext x hs hperforms

theorem achieves_orFail {x : Option α} {next : α → Export Content β}
    (hnext : ∀ a, x = some a → Achieves py Q (next a) s) :
    Achieves py Q (orFail x >>= next) s := by
  cases x with
  | some a => exact hnext a rfl
  | none => trivial

theorem achieves_lift {x : Except Failure α} {next : α → Export Content β}
    (hnext : ∀ a, x = .ok a → Achieves py Q (next a) s) :
    Achieves py Q (lift x >>= next) s := by
  cases x with
  | ok a => exact hnext a rfl
  | error e => trivial

theorem achieves_directoryAt {l : Location} {path : String}
    {next : Directory Content → Export Content β}
    (hnext : ∀ d, Orderly py s → s.entry l path = some (.directory d) → Achieves py Q (next d) s) :
    Achieves py Q (directoryAt l path >>= next) s := by
  refine achieves_read trivial fun x hs hperforms => ?_
  obtain ⟨-, hread⟩ := hperforms
  cases x with
  | none => trivial
  | some e =>
    obtain rfl := hread e rfl
    cases he : s.entry l path with
    | none => trivial
    | some e =>
      cases e with
      | directory d => exact hnext d hs he
      | other => trivial

/-! ## Removing what is not retained -/

theorem achieves_unlinkAll {l : Location} {path : String} (howned : Owned py l path)
    {names : List String} {d : Directory Content} (hentry : s.entry l path = some (.directory d))
    (hkeys : d.files.keys = names) (hexpected : names ⊆ expectedFiles l path)
    (hemptying : s.emptying = some (l, path) ∨ s.emptying = none ∧ names ≠ []) :
    Achieves py (fun _ t => t.emptying = some (l, path)) (unlinkAll l path names) s := by
  induction names generalizing s d with
  | nil =>
    rcases hemptying with hsome | ⟨-, hne⟩
    · exact hsome
    · exact absurd rfl hne
  | cons name rest ih =>
    have hnodup : (name :: rest).Nodup := hkeys ▸ d.files.keys_nodup
    have herase : (d.files.erase name).keys = rest := by
      rw [AList.keys_erase, hkeys, List.erase_cons_head]
    refine achieves_act ⟨hemptying.symm.imp And.left id, fun d' hd' _ hpasses => ?_⟩
      fun x t _ hperforms => achieves_orFail fun _ hok => ?_
    · cases hentry.symm.trans hd'
      have hmem := (names_of_passes howned hpasses).2 (hexpected List.mem_cons_self)
      exact (List.nodup_cons.mp hnodup).1 (herase ▸ hmem)
    · obtain ⟨-, hnone⟩ | heffect := hperforms
      · rw [hnone] at hok
        cases hok
      · simp only [State.effect, hentry] at heffect
        rw [if_pos (hkeys ▸ List.mem_cons_self)] at heffect
        cases heffect
        exact ih (State.entry_put (Place.attributes_of_lookup hentry)) herase
          (fun _ h => hexpected (List.mem_cons_of_mem name h)) (.inl rfl)

theorem achieves_pruneOwned {l : Location} {names : List String}
    (howned : ∀ name ∈ names, Owned py l name) (hemptying : s.emptying = none) :
    Achieves py (fun _ t => t.emptying = none) (pruneOwned l names) s := by
  induction names generalizing s with
  | nil => exact hemptying
  | cons old rest ih =>
    have hold := howned old List.mem_cons_self
    refine achieves_directoryAt fun d hs hentry => ?_
    have hnames := names_of_passes hold (hs.passes l old _ hentry (by rw [hemptying]; nofun))
    have hne : d.files.keys ≠ [] := by
      intro hnil
      rw [hnil] at hnames
      cases l <;> exact absurd (hnames.2 List.mem_cons_self) List.not_mem_nil
    refine (achieves_unlinkAll hold hentry rfl hnames.1 (.inr ⟨hemptying, hne⟩)).bind
      fun _ t ht => ?_
    refine achieves_act ht fun x t' _ hperforms => achieves_orFail fun _ hok => ?_
    obtain ⟨-, hnone⟩ | heffect := hperforms
    · rw [hnone] at hok
      cases hok
    · refine ih (fun name hname => howned name (List.mem_cons_of_mem old hname)) ?_
      simp only [State.effect] at heffect
      split at heffect
      · split at heffect
        · cases heffect
          rfl
        · cases heffect
      · cases heffect

end ClusterState.Backup
