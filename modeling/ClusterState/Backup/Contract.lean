import ClusterState.Backup.Publication
import ClusterState.Backup.Upgrade

/-! # The metadata of an archive

What the script writes down is read back: six lines, and the time in the fifth.
-/

namespace ClusterState.Backup.Upgrade

/-! ## Lines -/

/-- Not a control character, and ASCII. -/
def Printable (c : Char) : Prop := 0x20 ≤ c.toNat ∧ c.toNat < 0x7f

instance (c : Char) : Decidable (Printable c) := by
  unfold Printable
  infer_instance

def PrintableText (text : String) : Prop := ∀ c ∈ text.toList, Printable c

theorem Printable.not_lineBreak {c : Char} (h : Printable c) : isLineBreak c = false := by
  rw [isLineBreak, decide_eq_false_iff_not]
  intro hmem
  simp only [List.mem_cons, List.not_mem_nil, or_false] at hmem
  rcases hmem with rfl | rfl | rfl | rfl | rfl | rfl | rfl | rfl | rfl | rfl <;>
    exact absurd h (by decide)

theorem PrintableText.append {a b : String} (ha : PrintableText a) (hb : PrintableText b) :
    PrintableText (a ++ b) := by
  intro c hc
  rw [String.toList_append] at hc
  exact (List.mem_append.mp hc).elim (ha c) (hb c)

theorem splitLinesFrom_line {line : List Char} (h : ∀ c ∈ line, Printable c) (begun rest : List Char) :
    splitLinesFrom begun (line ++ '\n' :: rest) =
      String.ofList (begun.reverse ++ line) :: splitLinesFrom [] rest := by
  induction line generalizing begun with
  | nil =>
    have hbreak : isLineBreak '\n' = true := by decide
    cases begun <;> simp [splitLinesFrom, hbreak]
  | cons c line ih =>
    have hc := (h c List.mem_cons_self).not_lineBreak
    have hrest := ih (fun c' hc' => h c' (List.mem_cons_of_mem c hc')) (c :: begun)
    rw [List.reverse_cons, List.append_assoc] at hrest
    cases begun <;> simpa [splitLinesFrom, hc] using hrest

theorem splitLines_cons {line rest : String} (h : PrintableText line) :
    splitLines (line ++ "\n" ++ rest) = line :: splitLines rest := by
  have htext : (line ++ "\n" ++ rest).toList = line.toList ++ '\n' :: rest.toList := by
    simp [String.toList_append]
  rw [splitLines, htext, splitLinesFrom_line h, splitLines]
  simp

/-! ## Times -/

section Times

variable {Content : Type} (py : Python Content)

def Faithful (cls : Char → Option Nat) : Prop :=
  ∀ k < 10, ∀ v, cls (Nat.digitChar k) = some v → v = k

theorem faithful_decimal : Faithful py.decimal := by
  intro k hk v hv
  rw [py.decimal_ascii k hk] at hv
  exact (Option.some.inj hv).symm

theorem toNat_digitChar {k : Nat} (hk : k < 10) : (Nat.digitChar k).toNat = '0'.toNat + k := by
  interval_cases k <;> rfl

theorem faithful_range (lo hi : Nat) : Faithful (range lo hi) := by
  intro k hk v hv
  rw [range, toNat_digitChar hk] at hv
  split at hv
  · have := Option.some.inj hv
    omega
  · cases hv

theorem faithful_space : Faithful space := by
  intro k hk v hv
  have hne : Nat.digitChar k ≠ ' ' := by interval_cases k <;> decide
  rw [space, if_neg hne] at hv
  cases hv

theorem range_digitChar {lo hi k : Nat} (hlo : lo ≤ k) (hhi : k ≤ hi) (hk : k < 10) :
    range lo hi (Nat.digitChar k) = some k := by
  rw [range, toNat_digitChar hk, if_pos (by omega)]
  congr 1
  omega

theorem sequence_faithful {classes : List (Char → Option Nat)} (h : ∀ cls ∈ classes, Faithful cls)
    {ks : List Nat} (hks : ∀ k ∈ ks, k < 10) {value v : Nat}
    (hv : sequence classes value (ks.map Nat.digitChar) = some v) :
    v = ks.foldl (fun value k => 10 * value + k) value := by
  induction ks generalizing classes value with
  | nil =>
    cases classes with
    | nil => exact (Option.some.inj hv).symm
    | cons cls more => cases hv
  | cons k ks ih =>
    cases classes with
    | nil => cases hv
    | cons cls more =>
      rw [List.map_cons, sequence] at hv
      split at hv
      · rename_i digit hdigit
        have heq := h cls List.mem_cons_self k (hks k List.mem_cons_self) digit hdigit
        subst heq
        exact ih (fun cls hcls => h cls (List.mem_cons_of_mem _ hcls))
          (fun k hk => hks k (List.mem_cons_of_mem _ hk)) hv
      · cases hv

theorem alternatives_faithful {alts : List (List (Char → Option Nat))}
    (h : ∀ classes ∈ alts, ∀ cls ∈ classes, Faithful cls) {ks : List Nat}
    (hks : ∀ k ∈ ks, k < 10) {classes : List (Char → Option Nat)} (hclasses : classes ∈ alts)
    {value : Nat} (hvalue : sequence classes 0 (ks.map Nat.digitChar) = some value) :
    alternatives alts (ks.map Nat.digitChar) = some value := by
  have hsome : (alternatives alts (ks.map Nat.digitChar)).isSome := by
    rw [alternatives, List.findSome?_isSome_iff]
    exact ⟨classes, hclasses, by rw [hvalue]; rfl⟩
  obtain ⟨found, hfound⟩ := Option.isSome_iff_exists.mp hsome
  obtain ⟨classes', hclasses', hsequence⟩ := List.exists_of_findSome?_eq_some hfound
  rw [hfound, sequence_faithful (h _ hclasses') hks hsequence,
    sequence_faithful (h _ hclasses) hks hvalue]

theorem sequence_twoDigits {a b : Char → Option Nat} {n : Nat}
    (ha : a (Nat.digitChar (n / 10)) = some (n / 10))
    (hb : b (Nat.digitChar (n % 10)) = some (n % 10)) : sequence [a, b] 0 (twoDigits n) = some n := by
  simp only [twoDigits, sequence, ha, hb]
  congr 1
  omega

theorem alternatives_twoDigits {alts : List (List (Char → Option Nat))} {n : Nat} (hn : n < 100)
    (h : ∀ classes ∈ alts, ∀ cls ∈ classes, Faithful cls) {a b : Char → Option Nat}
    (hmem : [a, b] ∈ alts) (ha : a (Nat.digitChar (n / 10)) = some (n / 10))
    (hb : b (Nat.digitChar (n % 10)) = some (n % 10)) :
    alternatives alts (twoDigits n) = some n := by
  have hks : ∀ k ∈ [n / 10, n % 10], k < 10 := by
    intro k hk
    simp only [List.mem_cons, List.not_mem_nil, or_false] at hk
    omega
  exact alternatives_faithful h hks hmem (sequence_twoDigits ha hb)

theorem fieldUpTo_stop {stop : Char → Bool} {alts : List (List (Char → Option Nat))}
    {text rest : List Char} {c : Char} {value : Nat} (htext : ∀ c ∈ text, stop c = false)
    (hstop : stop c = true) (halts : alternatives alts text = some value) :
    fieldUpTo stop alts (text ++ c :: rest) = some (value, rest) := by
  have hspan : (text ++ c :: rest).span (fun c => !stop c) = (text, c :: rest) := by
    rw [List.span_eq_takeWhile_dropWhile, List.takeWhile_append_of_pos, List.dropWhile_append_of_pos]
    · simp [hstop]
    · simpa using htext
    · simpa using htext
  simp only [fieldUpTo, hspan, halts, Option.map_some]

theorem stop_digits (stop : Char → Bool) (h : ∀ k < 10, stop (Nat.digitChar k) = false) {n : Nat}
    (hn : n < 100) : ∀ c ∈ twoDigits n, stop c = false := by
  intro c hc
  simp only [twoDigits, List.mem_cons, List.not_mem_nil, or_false] at hc
  rcases hc with rfl | rfl
  · exact h _ (by omega)
  · exact h _ (by omega)

theorem field_twoDigits (stop : Char → Bool) (c : Char) {alts : List (List (Char → Option Nat))}
    {n : Nat} (rest : List Char) (hn : n < 100)
    (hdigits : ∀ k < 10, stop (Nat.digitChar k) = false) (hstop : stop c = true)
    (h : alternatives alts (twoDigits n) = some n) :
    fieldUpTo stop alts (twoDigits n ++ c :: rest) = some (n, rest) :=
  fieldUpTo_stop (stop_digits stop hdigits hn) hstop h

theorem field_year (rest : List Char) {n : Nat} (hn : n ≤ 9999) :
    fieldUpTo (· == '-') [[py.decimal, py.decimal, py.decimal, py.decimal]]
      (fourDigits n ++ '-' :: rest) = some (n, rest) := by
  have hdigits : ∀ k < 10, ((Nat.digitChar k) == '-') = false := by decide
  have h1 := stop_digits (· == '-') hdigits (n := n / 100) (by omega)
  have h2 := stop_digits (· == '-') hdigits (n := n % 100) (by omega)
  apply fieldUpTo_stop
  · intro c hc
    exact (List.mem_append.mp hc).elim (h1 c) (h2 c)
  · rfl
  · simp only [alternatives, List.findSome?_cons, fourDigits, twoDigits, List.cons_append,
      List.nil_append, sequence]
    rw [py.decimal_ascii _ (by omega), py.decimal_ascii _ (by omega), py.decimal_ascii _ (by omega),
      py.decimal_ascii _ (by omega)]
    simp only [Option.some.injEq]
    omega

def monthClasses : List (List (Char → Option Nat)) :=
  [[range 1 1, range 0 2], [range 0 0, range 1 9], [range 1 9]]

def dayClasses : List (List (Char → Option Nat)) :=
  [[range 3 3, range 0 1], [range 1 2, py.decimal], [range 0 0, range 1 9], [range 1 9],
    [space, range 1 9]]

def hourClasses : List (List (Char → Option Nat)) :=
  [[range 2 2, range 0 3], [range 0 1, py.decimal], [py.decimal]]

def minuteClasses : List (List (Char → Option Nat)) := [[range 0 5, py.decimal], [py.decimal]]

def secondClasses : List (List (Char → Option Nat)) :=
  [[range 6 6, range 0 1], [range 0 5, py.decimal], [py.decimal]]

theorem month_twoDigits {n : Nat} (hlo : 1 ≤ n) (hhi : n ≤ 12) :
    alternatives monthClasses (twoDigits n) = some n := by
  have hfaithful : ∀ classes ∈ monthClasses, ∀ cls ∈ classes, Faithful cls := by
    simp [monthClasses, faithful_range]
  by_cases h : 10 ≤ n
  · exact alternatives_twoDigits (a := range 1 1) (b := range 0 2) (by omega) hfaithful
      (by simp [monthClasses]) (range_digitChar (by omega) (by omega) (by omega))
      (range_digitChar (by omega) (by omega) (by omega))
  · exact alternatives_twoDigits (a := range 0 0) (b := range 1 9) (by omega) hfaithful
      (by simp [monthClasses]) (range_digitChar (by omega) (by omega) (by omega))
      (range_digitChar (by omega) (by omega) (by omega))

theorem day_twoDigits {n : Nat} (hlo : 1 ≤ n) (hhi : n ≤ 31) :
    alternatives (dayClasses py) (twoDigits n) = some n := by
  have hfaithful : ∀ classes ∈ dayClasses py, ∀ cls ∈ classes, Faithful cls := by
    simp [dayClasses, faithful_range, faithful_decimal, faithful_space]
  by_cases hten : 10 ≤ n
  · by_cases hthirty : 30 ≤ n
    · exact alternatives_twoDigits (a := range 3 3) (b := range 0 1) (by omega) hfaithful
        (by simp [dayClasses]) (range_digitChar (by omega) (by omega) (by omega))
        (range_digitChar (by omega) (by omega) (by omega))
    · exact alternatives_twoDigits (a := range 1 2) (b := py.decimal) (by omega) hfaithful
        (by simp [dayClasses]) (range_digitChar (by omega) (by omega) (by omega))
        (py.decimal_ascii _ (by omega))
  · exact alternatives_twoDigits (a := range 0 0) (b := range 1 9) (by omega) hfaithful
      (by simp [dayClasses]) (range_digitChar (by omega) (by omega) (by omega))
      (range_digitChar (by omega) (by omega) (by omega))

theorem hour_twoDigits {n : Nat} (hhi : n ≤ 23) :
    alternatives (hourClasses py) (twoDigits n) = some n := by
  have hfaithful : ∀ classes ∈ hourClasses py, ∀ cls ∈ classes, Faithful cls := by
    simp [hourClasses, faithful_range, faithful_decimal]
  by_cases h : 20 ≤ n
  · exact alternatives_twoDigits (a := range 2 2) (b := range 0 3) (by omega) hfaithful
      (by simp [hourClasses]) (range_digitChar (by omega) (by omega) (by omega))
      (range_digitChar (by omega) (by omega) (by omega))
  · exact alternatives_twoDigits (a := range 0 1) (b := py.decimal) (by omega) hfaithful
      (by simp [hourClasses]) (range_digitChar (by omega) (by omega) (by omega))
      (py.decimal_ascii _ (by omega))

theorem minute_twoDigits {n : Nat} (hhi : n ≤ 59) :
    alternatives (minuteClasses py) (twoDigits n) = some n := by
  have hfaithful : ∀ classes ∈ minuteClasses py, ∀ cls ∈ classes, Faithful cls := by
    simp [minuteClasses, faithful_range, faithful_decimal]
  exact alternatives_twoDigits (a := range 0 5) (b := py.decimal) (by omega) hfaithful
    (by simp [minuteClasses]) (range_digitChar (by omega) (by omega) (by omega))
    (py.decimal_ascii _ (by omega))

theorem second_twoDigits {n : Nat} (hhi : n ≤ 59) :
    alternatives (secondClasses py) (twoDigits n) = some n := by
  have hfaithful : ∀ classes ∈ secondClasses py, ∀ cls ∈ classes, Faithful cls := by
    simp [secondClasses, faithful_range, faithful_decimal]
  exact alternatives_twoDigits (a := range 0 5) (b := py.decimal) (by omega) hfaithful
    (by simp [secondClasses]) (range_digitChar (by omega) (by omega) (by omega))
    (py.decimal_ascii _ (by omega))

theorem daysInMonth_le (year month : Nat) : Utc.daysInMonth year month ≤ 31 := by
  unfold Utc.daysInMonth
  split_ifs <;> omega

theorem literal_append (text : String) (cs : List Char) : literal text (text.toList ++ cs) = some cs := by
  simp [literal]

/-- The time that `date` prints is the time that `strptime` reads. -/
theorem strptime_isoDate {t : Utc} (h : t.Valid) :
    strptime py ("observed_at=" ++ isoDate t) = some t := by
  have hvalid := h
  obtain ⟨-, hyear, hmonth1, hmonth, hday1, hday, hhour, hminute, hsecond⟩ := h
  have hday31 := hday.trans (daysInMonth_le _ _)
  have htext : ("observed_at=" ++ isoDate t).toList = "observed_at=".toList ++
      (fourDigits t.year ++ '-' :: (twoDigits t.month ++ '-' :: (twoDigits t.day ++ 'T' ::
        (twoDigits t.hour ++ ':' :: (twoDigits t.minute ++ ':' :: (twoDigits t.second ++ ['Z'])))))) := by
    simp only [isoDate, String.toList_append, String.toList_ofList, List.append_assoc, List.cons_append]
  have hdash : ∀ k < 10, (Nat.digitChar k == '-') = false := by decide
  have hT : ∀ k < 10, (Nat.digitChar k == 'T' || Nat.digitChar k == 't') = false := by decide
  have hcolon : ∀ k < 10, (Nat.digitChar k == ':') = false := by decide
  have hZ : ∀ k < 10, (Nat.digitChar k == 'Z' || Nat.digitChar k == 'z') = false := by decide
  have h1 := fun rest => field_year py rest hyear
  have h2 := fun rest => field_twoDigits (fun c => c == '-') '-' rest (by omega) hdash rfl
    (month_twoDigits hmonth1 hmonth)
  have h3 := fun rest => field_twoDigits (fun c => c == 'T' || c == 't') 'T' rest (by omega) hT rfl (day_twoDigits py hday1 hday31)
  have h4 := fun rest => field_twoDigits (fun c => c == ':') ':' rest (by omega) hcolon rfl
    (hour_twoDigits py hhour)
  have h5 := fun rest => field_twoDigits (fun c => c == ':') ':' rest (by omega) hcolon rfl
    (minute_twoDigits py hminute)
  have h6 := fun rest => field_twoDigits (fun c => c == 'Z' || c == 'z') 'Z' rest (by omega) hZ rfl (second_twoDigits py hsecond)
  simp only [monthClasses, dayClasses, hourClasses, minuteClasses, secondClasses] at h2 h3 h4 h5 h6
  rw [strptime, htext, literal_append]
  simp only [Option.bind_eq_bind, Option.bind_some, h1, h2, h3, h4, h5, h6]
  rw [if_pos ⟨trivial, hvalid⟩]

end Times
/-! ## What the script has checked -/

theorem mem_of_intersperse {α : Type} {sep part : α} {parts : List α}
    (h : part ∈ parts.intersperse sep) : part = sep ∨ part ∈ parts := by
  induction parts with
  | nil => exact .inr h
  | cons first rest ih =>
    cases rest with
    | nil => exact .inr h
    | cons second rest =>
      rw [List.intersperse_cons_cons, List.mem_cons, List.mem_cons] at h
      rcases h with rfl | rfl | h
      · exact .inr List.mem_cons_self
      · exact .inl rfl
      · exact (ih h).imp_right (List.mem_cons_of_mem _)

theorem mem_of_splitOn {c sep : Char} {cs : List Char} (h : c ∈ cs) :
    c = sep ∨ ∃ part ∈ cs.splitOn sep, c ∈ part := by
  have hparts : [sep].intercalate (cs.splitOn sep) = cs := List.intercalate_splitOn sep
  rw [← hparts, List.intercalate, List.mem_flatten] at h
  obtain ⟨part, hpart, hc⟩ := h
  rcases mem_of_intersperse hpart with rfl | hpart
  · exact .inl (List.mem_singleton.mp hc)
  · exact .inr ⟨part, hpart, hc⟩

theorem printable_digit {c : Char} (h : c.isDigit = true) : Printable c := by
  simp only [Char.isDigit, Bool.and_eq_true, decide_eq_true_eq, UInt32.le_iff_toNat_le] at h
  exact ⟨le_trans (by decide) h.1, lt_of_le_of_lt h.2 (by decide)⟩

theorem printable_alphanum {c : Char} (h : c.isAlphanum = true) : Printable c := by
  simp only [Char.isAlphanum, Char.isAlpha, Char.isUpper, Char.isLower, Char.isDigit,
    Bool.and_eq_true, Bool.or_eq_true, decide_eq_true_eq, UInt32.le_iff_toNat_le] at h
  rcases h with (h | h) | h <;> exact ⟨le_trans (by decide) h.1, lt_of_le_of_lt h.2 (by decide)⟩

theorem printable_between {c : Char} {lo hi : Char} (hlo : lo ≤ c) (hhi : c ≤ hi) (hl : Printable lo)
    (hh : Printable hi) : Printable c :=
  ⟨hl.1.trans hlo, lt_of_le_of_lt hhi hh.2⟩

theorem printable_lowerHex {c : Char} (h : isLowerHex c = true) : Printable c := by
  simp only [isLowerHex, Bool.or_eq_true, Bool.and_eq_true, decide_eq_true_eq] at h
  rcases h with h | h
  · exact printable_digit h
  · exact printable_between h.1 h.2 (by decide) (by decide)

theorem printable_component {part : List Char} (h : isComponent part = true) :
    ∀ c ∈ part, Printable c := by
  intro c hc
  simp only [isComponent, Bool.or_eq_true, Bool.and_eq_true, beq_iff_eq, List.all_eq_true] at h
  rcases h with rfl | ⟨⟨⟨hdigits, -⟩, -⟩, -⟩
  · rw [List.mem_singleton] at hc
    subst hc
    decide
  · exact printable_digit (hdigits c hc)

theorem printable_stable {version : String} (h : stable version = true) :
    PrintableText (withoutV version) := by
  intro c hc
  rw [withoutV, String.toList_ofList] at hc
  simp only [stable, Bool.and_eq_true, List.all_eq_true] at h
  rcases @mem_of_splitOn c '.' _ hc with rfl | ⟨part, hpart, hmem⟩
  · decide
  · exact printable_component (h.2 part hpart) c hmem

theorem printable_word {text : String} (h : isWord text = true) : PrintableText text := by
  intro c hc
  simp only [isWord, Bool.and_eq_true, List.all_eq_true, Bool.or_eq_true, beq_iff_eq] at h
  rcases h.2 c hc with h | rfl
  · exact printable_alphanum h
  · decide

theorem printable_address {cs : List Char} (h : isAddress cs = true) : ∀ c ∈ cs, Printable c := by
  intro c hc
  simp only [isAddress, Bool.and_eq_true, List.all_eq_true, Bool.or_eq_true, beq_iff_eq,
    decide_eq_true_eq] at h
  rcases h.2 c hc with ((h | h) | rfl) | rfl
  · exact printable_lowerHex h
  · exact printable_between h.1 h.2 (by decide) (by decide)
  · decide
  · decide

theorem printable_observation {settings : Settings} {observation : String}
    (hdatabase : isWord settings.pgDatabase = true) (huser : isWord settings.pgUser = true)
    (h : isObservation settings observation = true) : PrintableText observation := by
  intro c hc
  rcases @mem_of_splitOn c '|' _ hc with rfl | ⟨part, hpart, hmem⟩
  · decide
  · unfold isObservation at h
    split at h
    · rename_i readOnly version database user address port schema native fingerprint count pending heq
      simp only [Bool.and_eq_true, beq_iff_eq, List.all_eq_true, decide_eq_true_eq, isPort,
        String.toList_ofList] at h
      obtain ⟨⟨⟨⟨⟨⟨⟨⟨⟨⟨⟨⟨⟨⟨rfl, -⟩, -⟩, hversion⟩, rfl⟩, rfl⟩, haddress⟩, -, hport⟩, rfl⟩, rfl⟩, -⟩,
        hfingerprint⟩, -⟩, hcount⟩, rfl⟩ := h
      rw [heq] at hpart
      simp only [List.mem_cons, List.not_mem_nil, or_false] at hpart
      have hfixed : ["on", "public", "native", "0"].all (fun text =>
          text.toList.all fun c => decide (Printable c)) = true := by decide
      simp only [List.all_eq_true, decide_eq_true_eq] at hfixed
      rcases hpart with rfl | rfl | rfl | rfl | rfl | rfl | rfl | rfl | rfl | rfl | rfl
      · exact hfixed "on" (by decide) c hmem
      · exact printable_digit (hversion c hmem)
      · exact printable_word hdatabase c hmem
      · exact printable_word huser c hmem
      · exact printable_address haddress c hmem
      · exact printable_digit (hport c hmem)
      · exact hfixed "public" (by decide) c hmem
      · exact hfixed "native" (by decide) c hmem
      · exact printable_lowerHex (hfingerprint c hmem)
      · exact printable_digit (hcount c hmem)
      · exact hfixed "0" (by decide) c hmem
    · cases h

theorem printable_digitChar {k : Nat} (hk : k < 10) : Printable (Nat.digitChar k) := by
  have h0 : '0'.toNat = 48 := rfl
  have hnat := toNat_digitChar hk
  exact ⟨by omega, by omega⟩

theorem printable_twoDigits {n : Nat} (hn : n < 100) : ∀ c ∈ twoDigits n, Printable c := by
  intro c hc
  simp only [twoDigits, List.mem_cons, List.not_mem_nil, or_false] at hc
  rcases hc with rfl | rfl
  · exact printable_digitChar (by omega)
  · exact printable_digitChar (by omega)

theorem printable_isoDate {t : Utc} (h : t.Valid) : PrintableText (isoDate t) := by
  obtain ⟨-, hyear, -, hmonth, -, hday, hhour, hminute, hsecond⟩ := h
  have hday31 := hday.trans (daysInMonth_le _ _)
  have htwo := fun n (hn : n < 100) => printable_twoDigits hn
  intro c hc
  simp only [isoDate, fourDigits, String.toList_ofList, List.mem_append, List.mem_cons,
    List.not_mem_nil, or_false] at hc
  rcases hc with (((((((hc | hc) | rfl | hc) | rfl | hc) | rfl | hc) | rfl | hc) | rfl | hc) | rfl)
  · exact htwo _ (by omega) c hc
  · exact htwo _ (by omega) c hc
  · decide
  · exact htwo _ (by omega) c hc
  · decide
  · exact htwo _ (by omega) c hc
  · decide
  · exact htwo _ (by omega) c hc
  · decide
  · exact htwo _ (by omega) c hc
  · decide
  · exact htwo _ (by omega) c hc
  · decide

/-! ## The metadata -/

def Versions.Readable (v : Versions) : Prop :=
  PrintableText v.previous ∧ PrintableText v.previousChart ∧ PrintableText v.target ∧
    PrintableText v.targetChart

theorem readable_of_checkVersions {settings : Settings} {chartInfo : String × String} {v : Versions}
    (h : checkVersions settings chartInfo = .ok v) : v.Readable := by
  rw [checkVersions] at h
  split at h
  · cases h
  · rename_i hstable
    split at h
    · cases h
    · split at h
      · cases h
      · cases h
        simp only [Bool.not_eq_true', Bool.not_eq_false, List.all_cons, List.all_nil,
          Bool.and_true, Bool.and_eq_true] at hstable
        exact ⟨printable_stable hstable.1, printable_stable hstable.2.1,
          printable_stable hstable.2.2.1, printable_stable hstable.2.2.2⟩

theorem words_of_checkSettings {settings : Settings} (h : checkSettings settings = .ok ()) :
    isWord settings.pgDatabase = true ∧ isWord settings.pgUser = true := by
  rw [checkSettings] at h
  split at h
  · cases h
  · split at h
    · cases h
    · split at h
      · cases h
      · rename_i hwords
        simp only [Bool.not_eq_true', Bool.not_eq_false, Bool.and_eq_true] at hwords
        exact ⟨hwords.1.2, hwords.2⟩

theorem printable_field (label : String) {text : String}
    (hlabel : (label.toList.all fun c => decide (Printable c)) = true) (htext : PrintableText text) :
    PrintableText (label ++ text) := by
  simp only [List.all_eq_true, decide_eq_true_eq] at hlabel
  exact PrintableText.append hlabel htext

section Metadata

variable {v : Versions} {observed identity : String}

theorem printable_admissionFields (hv : v.Readable) (hobserved : PrintableText observed)
    (hidentity : PrintableText identity) :
    ∀ line ∈ admissionFields v observed identity, PrintableText line := by
  obtain ⟨h1, h2, h3, h4⟩ := hv
  have hprevious := printable_field "previous_gitlab=" (by decide) h1
  have hchart := printable_field "previous_chart=" (by decide) h2
  have htarget := printable_field "target_gitlab=" (by decide) h3
  have htargetChart := printable_field "target_chart=" (by decide) h4
  have hobserved := printable_field "observed_at=" (by decide) hobserved
  have hidentity := printable_field "identity=" (by decide) hidentity
  simp only [admissionFields, List.forall_mem_cons]
  exact ⟨hprevious, hchart, htarget, htargetChart, hobserved, hidentity, by simp⟩

theorem splitLines_ofLines {lines : List String} (h : ∀ line ∈ lines, PrintableText line) :
    splitLines (ofLines lines) = lines := by
  induction lines with
  | nil => rfl
  | cons line lines ih =>
    rw [ofLines, splitLines_cons (h line List.mem_cons_self),
      ih fun line hline => h line (List.mem_cons_of_mem _ hline)]

theorem return_notMem_ofLines {lines : List String} (h : ∀ line ∈ lines, PrintableText line) :
    '\r' ∉ (ofLines lines).toList := by
  induction lines with
  | nil => decide
  | cons line lines ih =>
    rw [ofLines, String.toList_append, String.toList_append]
    intro hmem
    rcases List.mem_append.mp hmem with hmem | hmem
    · rcases List.mem_append.mp hmem with hmem | hmem
      · exact absurd (h line List.mem_cons_self _ hmem) (by decide)
      · exact absurd hmem (by decide)
    · exact ih (fun line hline => h line (List.mem_cons_of_mem _ hline)) hmem

end Metadata

/-- What the script writes down is what the exporter reads. -/
theorem observedAt_admissionText {Content : Type} (py : Python Content) {v : Versions} {t : Utc}
    {identity : String} (hv : v.Readable) (ht : t.Valid) (hidentity : PrintableText identity) :
    observedAt py (admissionText v (isoDate t) identity) = .ok t := by
  have hlines := splitLines_ofLines (printable_admissionFields hv (printable_isoDate ht) hidentity)
  have hfront : "observed_at=".toList <+: ("observed_at=" ++ isoDate t).toList := by
    rw [String.toList_append]
    exact List.prefix_append _ _
  have hfield : (admissionFields v (isoDate t) identity).getD 4 "" = "observed_at=" ++ isoDate t := rfl
  have hlength : (admissionFields v (isoDate t) identity).length = 6 := rfl
  rw [observedAt, admissionText, hlines]
  simp only [hfield, strptime_isoDate py ht]
  rw [require_of ⟨hlength, hfront⟩]
  rfl

theorem return_notMem_admissionText {v : Versions} {t : Utc} {identity : String} (hv : v.Readable)
    (ht : t.Valid) (hidentity : PrintableText identity) :
    '\r' ∉ (admissionText v (isoDate t) identity).toList := by
  rw [admissionText]
  exact return_notMem_ofLines (printable_admissionFields hv (printable_isoDate ht) hidentity)

end ClusterState.Backup.Upgrade
