import Mathlib

/-! # Going through a table page by page

Every page begins below the key of the last row of the page before it. Rows of one key that
do not fit on one page are lost, whatever order they come in.
-/

namespace ClusterState.Data.Paging

variable {α κ : Type} [LinearOrder κ]

/-- How rows are sorted. The order of rows of one key is not known. -/
structure Arrangement (key : α → κ) where
  sort : List α → List α
  perm : ∀ rows, (sort rows).Perm rows
  sorted : ∀ rows, (sort rows).Pairwise fun a b => key b ≤ key a

variable (key : α → κ)

/-- Rows of one key in the order they come in. -/
def Arrangement.stable : Arrangement key where
  sort rows := rows.mergeSort fun a b => decide (key b ≤ key a)
  perm rows := List.mergeSort_perm rows _
  sorted rows := by
    have h := @List.pairwise_mergeSort _ (fun a b : α => decide (key b ≤ key a))
      (fun a b c hab hbc => by simpa using (of_decide_eq_true hbc).trans (of_decide_eq_true hab))
      (fun a b => by simpa using le_total (key b) (key a)) rows
    exact h.imp fun hab => of_decide_eq_true hab

def below (before : Option κ) (rows : List α) : List α :=
  rows.filter fun a => before.all fun c => decide (key a < c)

variable {key} in
def page (order : Arrangement key) (limit : Nat) (before : Option κ) (rows : List α) : List α :=
  (order.sort (below key before rows)).take limit

/-- The rows of all pages up to the first that is empty; `none` if it is not reached within some
calls. -/
def walk {ε : Type} (fetch : Nat → Option κ → Except ε (List α)) :
    Nat → Option κ → Except ε (Option (List α))
  | 0, _ => .ok none
  | calls + 1, before => do
    match ← fetch calls before with
    | [] => pure (some [])
    | a :: rest =>
      let others ← walk fetch calls (some (key ((a :: rest).getLast (List.cons_ne_nil a rest))))
      pure (others.map ((a :: rest) ++ ·))

def descending (rows : List α) : List κ := (Arrangement.stable key).sort rows |>.map key

/-- No page ends between two equal keys. -/
def Separated (limit : Nat) (keys : List κ) : Prop :=
  ∀ k a b, keys[(k + 1) * limit - 1]? = some a → keys[(k + 1) * limit]? = some b → a ≠ b

/-! ## Keys -/

section Keys

variable {key} {order : Arrangement key} {limit : Nat} {keys : List κ} {rows : List α}

theorem descending_eq {l : List α} (hperm : l.Perm rows) (hsorted : l.Pairwise fun a b => key b ≤ key a) :
    descending key rows = l.map key := by
  have hkeys : (descending key rows).Perm (l.map key) :=
    (((Arrangement.stable key).perm rows).trans hperm.symm).map key
  exact hkeys.eq_of_pairwise (fun a b _ _ hab hba => le_antisymm hba hab)
    (List.pairwise_map.mpr ((Arrangement.stable key).sorted rows)) (List.pairwise_map.mpr hsorted)

theorem separated_of_nil (key : α → κ) : Separated limit (descending key []) := by
  rw [descending_eq .nil .nil]
  exact fun k a b ha => nomatch ha

omit [LinearOrder κ] in
theorem separated_iff (hlimit : 0 < limit) : Separated limit keys ↔
    (∀ a b, keys[limit - 1]? = some a → keys[limit]? = some b → a ≠ b) ∧
      Separated limit (keys.drop limit) := by
  have hstep : ∀ k, limit + ((k + 1) * limit - 1) = (k + 1 + 1) * limit - 1 := by
    intro k
    have : 0 < (k + 1) * limit := Nat.mul_pos (Nat.succ_pos k) hlimit
    rw [Nat.succ_mul (k + 1)]
    omega
  have hstep' : ∀ k, limit + (k + 1) * limit = (k + 1 + 1) * limit := by
    intro k
    rw [Nat.succ_mul (k + 1), Nat.add_comm]
  unfold Separated
  constructor
  · intro h
    refine ⟨fun a b ha hb => h 0 a b (by simpa using ha) (by simpa using hb), fun k a b ha hb => ?_⟩
    rw [List.getElem?_drop, hstep] at ha
    rw [List.getElem?_drop, hstep'] at hb
    exact h (k + 1) a b ha hb
  · rintro ⟨hfirst, hrest⟩ k a b ha hb
    cases k with
    | zero => exact hfirst a b (by simpa using ha) (by simpa using hb)
    | succ k =>
      apply hrest k a b
      · rwa [List.getElem?_drop, hstep]
      · rwa [List.getElem?_drop, hstep']

end Keys

/-! ## One page -/

section Page

variable {key} {order : Arrangement key} {limit : Nat} {before : Option κ} {rows : List α}

theorem mem_below {a : α} : a ∈ below key before rows ↔ a ∈ rows ∧ ∀ c, before = some c → key a < c := by
  cases before <;> simp [below]

/-- Going on below a row is going on from the rows that were left. -/
theorem below_of_mem {last : α} (h : last ∈ below key before rows) :
    below key (some (key last)) rows =
      (below key before rows).filter fun a => decide (key a < key last) := by
  have hlast := (mem_below.mp h).2
  unfold below
  rw [List.filter_filter]
  apply List.filter_congr
  intro a _
  by_cases ha : key a < key last
  · cases before with
    | none => simp [ha]
    | some c => simp [ha, ha.trans (hlast c rfl)]
  · simp [ha]

structure Cut (order : Arrangement key) (limit : Nat) (before : Option κ) (rows first : List α)
    (last : α) : Prop where
  mem : ∀ a ∈ first, a ∈ below key before rows
  last_mem : last ∈ first
  lowest : ∀ a ∈ first, key last ≤ key a
  sorted : first.Pairwise fun a b => key b ≤ key a
  shorter : (below key (some (key last)) rows).length < (below key before rows).length
  /-- Without a tie at its end the page and the rows below it are all the rows. -/
  whole : (∀ a b, (descending key (below key before rows))[limit - 1]? = some a →
      (descending key (below key before rows))[limit]? = some b → a ≠ b) →
    (first ++ below key (some (key last)) rows).Perm (below key before rows) ∧
      descending key (below key (some (key last)) rows) =
        (descending key (below key before rows)).drop limit
  /-- With one a row is neither on the page nor below it. -/
  lost : ∀ a b, (descending key (below key before rows))[limit - 1]? = some a →
    (descending key (below key before rows))[limit]? = some b → a = b →
      first.countP (key · = key last) < (below key before rows).countP (key · = key last)

theorem cut_page (hlimit : 0 < limit) {first : List α} (hpage : page order limit before rows = first)
    (h : first ≠ []) : Cut order limit before rows first (first.getLast h) := by
  subst hpage
  generalize hlast : (page order limit before rows).getLast h = last
  have hperm := order.perm (below key before rows)
  have hsorted := order.sorted (below key before rows)
  have hkeys := descending_eq hperm hsorted
  have happend := List.take_append_drop limit (order.sort (below key before rows))
  have hmem : last ∈ page order limit before rows := hlast ▸ List.getLast_mem h
  unfold page at h hlast hmem ⊢
  generalize order.sort (below key before rows) = sorted at *
  have hsplit := hsorted
  rw [← happend, List.pairwise_append] at hsplit
  obtain ⟨hfirst, hrest, hacross⟩ := hsplit
  have hlowest : ∀ a ∈ sorted.take limit, key last ≤ key a := by
    intro a ha
    rw [← List.dropLast_append_getLast h, hlast] at hfirst ha
    obtain ha | ha := List.mem_append.mp ha
    · exact (List.pairwise_append.mp hfirst).2.2 a ha last (List.mem_singleton_self last)
    · exact (List.mem_singleton.mp ha) ▸ le_refl (key last)
  have hbelow : last ∈ below key before rows := hperm.mem_iff.mp (List.mem_of_mem_take hmem)
  have hends : ∀ d rest, sorted.drop limit = d :: rest →
      (descending key (below key before rows))[limit - 1]? = some (key last) ∧
        (descending key (below key before rows))[limit]? = some (key d) := by
    intro d rest hdrop
    have hlength : limit < sorted.length := by
      have hlong := congrArg List.length hdrop
      rw [List.length_drop, List.length_cons] at hlong
      omega
    rw [hkeys, List.getElem?_map, List.getElem?_map, List.getElem?_eq_getElem hlength,
      List.getElem?_eq_getElem (show limit - 1 < sorted.length by omega)]
    rw [List.drop_eq_getElem_cons hlength] at hdrop
    rw [List.getLast_eq_getElem, List.getElem_take] at hlast
    simp only [List.length_take, Nat.min_eq_left hlength.le] at hlast
    rw [hlast, (List.cons.inj hdrop).1]
    exact ⟨rfl, rfl⟩
  refine ⟨fun a ha => hperm.mem_iff.mp (List.mem_of_mem_take ha), hmem, hlowest, hfirst, ?_, ?_, ?_⟩
  · rw [below_of_mem hbelow, List.length_filter_lt_length_iff_exists]
    exact ⟨last, hbelow, by simp⟩
  · intro hseparate
    have hunder : ∀ d ∈ sorted.drop limit, key d < key last := by
      cases hdrop : sorted.drop limit with
      | nil => exact nofun
      | cons d rest =>
        obtain ⟨ha, hb⟩ := hends d rest hdrop
        rw [hdrop] at hrest hacross
        have hd : key d < key last :=
          lt_of_le_of_ne (hacross last hmem d List.mem_cons_self) (hseparate _ _ ha hb).symm
        intro e he
        obtain rfl | he := List.mem_cons.mp he
        · exact hd
        · exact (List.rel_of_pairwise_cons hrest he).trans_lt hd
    have hfilter : sorted.filter (fun a => decide (key a < key last)) = sorted.drop limit := by
      conv_lhs => rw [← happend]
      rw [List.filter_append, List.filter_eq_nil_iff.mpr, List.filter_eq_self.mpr, List.nil_append]
      · exact fun d hd => decide_eq_true (hunder d hd)
      · exact fun a ha hlt => absurd (of_decide_eq_true hlt) (hlowest a ha).not_gt
    have hrows : (sorted.drop limit).Perm (below key (some (key last)) rows) := by
      rw [below_of_mem hbelow, ← hfilter]
      exact hperm.filter _
    constructor
    · have hall := hrows.append_left (sorted.take limit)
      rw [happend] at hall
      exact hall.symm.trans hperm
    · rw [hkeys, descending_eq hrows hrest, List.map_drop]
  · intro a b ha hb hab
    cases hdrop : sorted.drop limit with
    | nil =>
      rw [hkeys, List.getElem?_map, List.getElem?_eq_none (List.drop_eq_nil_iff.mp hdrop)] at hb
      cases hb
    | cons d rest =>
      obtain ⟨ha', hb'⟩ := hends d rest hdrop
      have hd : key d = key last :=
        (Option.some.inj (hb'.symm.trans hb)).trans (hab.symm.trans (Option.some.inj (ha.symm.trans ha')))
      have hcount : sorted.countP (key · = key last) =
          (sorted.take limit).countP (key · = key last) + (d :: rest).countP (key · = key last) := by
        rw [← hdrop, ← List.countP_append, happend]
      have hpos : 0 < (d :: rest).countP (key · = key last) :=
        List.countP_pos_iff.mpr ⟨d, List.mem_cons_self, decide_eq_true hd⟩
      rw [← hperm.countP_eq, hcount]
      omega

theorem below_of_page (hlimit : 0 < limit) (h : page order limit before rows = []) :
    below key before rows = [] := by
  obtain hzero | hsorted := List.take_eq_nil_iff.mp h
  · omega
  · exact List.perm_nil.mp (hsorted ▸ (order.perm (below key before rows)).symm)

end Page

/-! ## All pages -/

section Walk

variable {key} {limit : Nat} {before : Option κ} {rows : List α} {first others : List α} {last : α}
  {order : Arrangement key}

/-- A row that is lost at the end of a page is not found on a later one. -/
theorem Cut.perm_iff (hcut : Cut order limit before rows first last) (hlimit : 0 < limit)
    (hothers : ∀ a ∈ others, a ∈ below key (some (key last)) rows)
    (hrest : others.Perm (below key (some (key last)) rows) ↔
      Separated limit (descending key (below key (some (key last)) rows))) :
    (first ++ others).Perm (below key before rows) ↔
      Separated limit (descending key (below key before rows)) := by
  rw [separated_iff hlimit]
  constructor
  · intro hperm
    have hseparate : ∀ a b, (descending key (below key before rows))[limit - 1]? = some a →
        (descending key (below key before rows))[limit]? = some b → a ≠ b := by
      intro a b ha hb hab
      have hlost := hcut.lost a b ha hb hab
      have hnone : others.countP (key · = key last) = 0 := by
        rw [List.countP_eq_zero]
        intro a ha heq
        exact ((mem_below.mp (hothers a ha)).2 _ rfl).ne (of_decide_eq_true heq)
      rw [← hperm.countP_eq, List.countP_append, hnone] at hlost
      omega
    obtain ⟨hwhole, hdrop⟩ := hcut.whole hseparate
    rw [← hdrop, ← hrest]
    exact ⟨hseparate, (List.perm_append_left_iff first).mp (hperm.trans hwhole.symm)⟩
  · rintro ⟨hseparate, hdrop⟩
    obtain ⟨hwhole, hkeys⟩ := hcut.whole hseparate
    rw [← hkeys, ← hrest] at hdrop
    exact (hdrop.append_left first).trans hwhole

/-- With one call more than there are rows the walk comes to its end. It finds all rows if no
page ends between two equal keys, and only then. -/
theorem walk_page {ε : Type} (order : Nat → Arrangement key) (hlimit : 0 < limit) {calls : Nat}
    (hcalls : (below key before rows).length < calls) : ∃ items,
    walk key (fun n before => Except.ok (ε := ε) (page (order n) limit before rows)) calls before =
      .ok (some items) ∧
    (∀ a ∈ items, a ∈ below key before rows) ∧ items.Pairwise (fun a b => key b ≤ key a) ∧
    (items.Perm (below key before rows) ↔ Separated limit (descending key (below key before rows))) := by
  induction calls generalizing before with
  | zero => omega
  | succ calls ih =>
    unfold walk
    dsimp only [Bind.bind, Except.bind]
    cases hpage : page (order calls) limit before rows with
    | nil =>
      rw [below_of_page hlimit hpage]
      exact ⟨[], rfl, nofun, .nil, iff_of_true .nil (separated_of_nil key)⟩
    | cons a rest =>
      have hcut := cut_page hlimit hpage (List.cons_ne_nil a rest)
      obtain ⟨others, hwalk, hmem, hsorted, hperm⟩ := @ih (some (key _))
        (hcut.shorter.trans_le (Nat.lt_succ_iff.mp hcalls))
      dsimp only
      rw [hwalk]
      refine ⟨(a :: rest) ++ others, rfl, ?_, ?_, hcut.perm_iff hlimit hmem hperm⟩
      · intro b hb
        obtain hb | hb := List.mem_append.mp hb
        · exact hcut.mem b hb
        · have hbelow := hmem b hb
          rw [below_of_mem (hcut.mem _ hcut.last_mem)] at hbelow
          exact List.mem_of_mem_filter hbelow
      · rw [List.pairwise_append]
        refine ⟨hcut.sorted, hsorted, fun b hb c hc => ?_⟩
        exact ((mem_below.mp (hmem c hc)).2 _ rfl).le.trans (hcut.lowest b hb)

end Walk

end ClusterState.Data.Paging
