import ClusterState.CacheRetention.Unescaping
import ClusterState.Data.Decimal

/-! # Reading the tables of the kernel

Where the names in a table have no white space but what the kernel escapes, every record is read
as it was written. Python splits at more.
-/

namespace ClusterState.CacheRetention

open ClusterState.Data.PythonText

/-! ## Escapes -/

section Escapes

variable {c : Char}

def escaped : List Char := [' ', '\t', '\n', '\\']

def escapeOnly (chars : List Char) (c : Char) : Text := if c ∈ chars then escape c else [c]

theorem escaped_cases (h : c ∈ escaped) :
    c = ' ' ∧ escape c = ['\\', '0', '4', '0'] ∨ c = '\t' ∧ escape c = ['\\', '0', '1', '1'] ∨
      c = '\n' ∧ escape c = ['\\', '0', '1', '2'] ∨ c = '\\' ∧ escape c = ['\\', '1', '3', '4'] := by
  simp only [escaped, List.mem_cons, List.not_mem_nil, or_false] at h
  rcases h with rfl | rfl | rfl | rfl
  · exact .inl ⟨rfl, by decide⟩
  · exact .inr (.inl ⟨rfl, by decide⟩)
  · exact .inr (.inr (.inl ⟨rfl, by decide⟩))
  · exact .inr (.inr (.inr ⟨rfl, by decide⟩))

theorem escape_of_mem (h : c ∈ escaped) : escape c = '\\' :: (escape c).tail ∧
    (escape c).tail.length = 3 ∧ '\\' ∉ (escape c).tail := by
  rcases escaped_cases h with ⟨-, heq⟩ | ⟨-, heq⟩ | ⟨-, heq⟩ | ⟨-, heq⟩
  all_goals
    rw [heq]
    exact ⟨rfl, rfl, by decide⟩

theorem escapeOnly_escaped (c : Char) : escapeOnly escaped c = escape c := by
  unfold escapeOnly
  split
  · rfl
  · rename_i hc
    have hfind : escapeCodes.find? (fun code => code.2 = c) = none := by
      rw [List.find?_eq_none]
      intro code hcode heq
      have hmem := List.mem_map_of_mem (f := Prod.snd) hcode
      rw [escapeCodes_eq] at hmem
      exact hc (of_decide_eq_true heq ▸ hmem)
    rw [escape, hfind]

end Escapes

/-! ## Records -/

section Records

variable {m : Mount} {table : List Mount} {device : Device} {t : Text}

theorem isSpace_of_endsLine {c : Char} (h : endsLine c = true) : isSpace c = true := by
  simp only [endsLine, decide_eq_true_eq, List.mem_cons, List.not_mem_nil, or_false] at h
  rcases h with rfl | rfl | rfl | rfl | rfl | rfl | rfl | rfl | rfl | rfl <;> decide

theorem isSpace_of_isDigit {c : Char} (h : c.isDigit = true) : isSpace c = false := by
  have hrange : 48 ≤ c.toNat ∧ c.toNat ≤ 57 := by
    rw [Char.isDigit, Bool.and_eq_true, decide_eq_true_eq, decide_eq_true_eq] at h
    exact h
  rw [isSpace, Bool.or_eq_false_iff, Bool.and_eq_false_iff]
  refine ⟨decide_eq_false fun hmem => ?_, .inl (decide_eq_false (by omega))⟩
  simp only [List.mem_cons, List.not_mem_nil, or_false] at hmem
  rcases hmem with rfl | rfl | rfl | rfl | rfl | rfl | rfl | rfl | rfl | rfl | rfl | rfl | rfl |
    rfl | rfl | rfl | rfl | rfl <;> exact absurd hrange (by decide)

theorem isDigit_toDigits {n : Nat} {c : Char} (h : c ∈ Nat.toDigits 10 n) : c.isDigit = true :=
  Nat.isDigit_of_mem_toDigits (by decide) le_rfl h

theorem solid_toDigits (n : Nat) : Solid (Nat.toDigits 10 n) :=
  ⟨Nat.toDigits_ne_nil, fun _ hc => isSpace_of_isDigit (isDigit_toDigits hc)⟩

theorem solid_deviceText : Solid m.deviceText := by
  refine ⟨List.append_ne_nil_of_right_ne_nil _ (List.cons_ne_nil _ _), fun c hc => ?_⟩
  rcases List.mem_append.mp hc with hc | hc
  · exact isSpace_of_isDigit (isDigit_toDigits hc)
  rcases List.mem_cons.mp hc with rfl | hc
  · decide
  · exact isSpace_of_isDigit (isDigit_toDigits hc)

theorem solid_escapePath {path : Text} (hne : path ≠ [])
    (h : ∀ c ∈ path, isSpace c = true → c ∈ [' ', '\t', '\n']) : Solid (escapePath path) := by
  have hescape : ∀ c, escape c ≠ [] := by
    intro c
    rw [← escapeOnly_escaped, escapeOnly]
    split
    · rename_i hc
      rw [(escape_of_mem hc).1]
      exact List.cons_ne_nil _ _
    · exact List.cons_ne_nil _ _
  refine ⟨fun hnil => ?_, fun d hd => ?_⟩
  · obtain ⟨c, hc⟩ := List.exists_mem_of_ne_nil path hne
    exact hescape c (List.flatMap_eq_nil_iff.mp hnil c hc)
  · obtain ⟨c, hc, hd⟩ := List.mem_flatMap.mp hd
    rw [← escapeOnly_escaped, escapeOnly] at hd
    split at hd
    · rename_i hmem
      rcases escaped_cases hmem with ⟨-, heq⟩ | ⟨-, heq⟩ | ⟨-, heq⟩ | ⟨-, heq⟩
      all_goals
        rw [heq] at hd
        simp only [List.mem_cons, List.not_mem_nil, or_false] at hd
        rcases hd with rfl | rfl | rfl | rfl <;> decide
    · rename_i hmem
      obtain rfl := List.mem_singleton.mp hd
      by_contra hspace
      have hkept := h d hc (by simpa using hspace)
      apply hmem
      simp only [List.mem_cons, List.not_mem_nil, or_false] at hkept
      rcases hkept with rfl | rfl | rfl <;> decide

theorem solid_fields (h : m.Plain) : ∀ f ∈ m.fields, Solid f := by
  have hroot := solid_escapePath m.root_ne_nil fun c hc => h c (List.mem_append_left _ hc)
  have hmountpoint := solid_escapePath m.mountpoint_ne_nil fun c hc => h c (List.mem_append_right _ hc)
  intro f hf
  rw [Mount.fields] at hf
  rcases List.mem_cons.mp hf with rfl | hf
  · exact solid_toDigits _
  rcases List.mem_cons.mp hf with rfl | hf
  · exact solid_toDigits _
  rcases List.mem_cons.mp hf with rfl | hf
  · exact solid_deviceText
  rcases List.mem_cons.mp hf with rfl | hf
  · exact hroot
  rcases List.mem_cons.mp hf with rfl | hf
  · exact hmountpoint
  rcases List.mem_cons.mp hf with rfl | hf
  · exact m.solid _ List.mem_cons_self
  rcases List.mem_append.mp hf with hf | hf
  · exact m.solid f (List.mem_cons_of_mem _ (List.mem_append_left _ hf))
  rcases List.mem_cons.mp hf with rfl | hf
  · exact ⟨List.cons_ne_nil _ _, fun c hc => List.mem_singleton.mp hc ▸ by decide⟩
  · exact m.solid f (List.mem_cons_of_mem _ (List.mem_append_right _ hf))

theorem split_line (h : m.Plain) : split m.line = m.fields := split_intercalate (solid_fields h)

theorem splitlines_tableText (h : ∀ m ∈ table, m.Plain) :
    splitlines (tableText table) = table.map Mount.line := by
  refine splitlines_terminated fun line hline c hc => ?_
  obtain ⟨m, hm, rfl⟩ := List.mem_map.mp hline
  rcases mem_of_mem_intercalate hc with rfl | ⟨f, hf, hcf⟩
  · decide
  · by_contra hends
    have hspace := isSpace_of_endsLine (by simpa using hends)
    rw [(solid_fields (h m hm) f hf).2 c hcf] at hspace
    cases hspace

theorem parseDevice_deviceText {d : Device} (h : parseDevice m.deviceText = some d) : d = m.device := by
  have hcolon : ∀ n, ':' ∉ Nat.toDigits 10 n := fun n hc => absurd (isDigit_toDigits hc) (by decide)
  have hsplit : m.deviceText.splitOn ':' =
      [Nat.toDigits 10 m.device.1, Nat.toDigits 10 m.device.2] := by
    rw [Mount.deviceText, List.splitOn_append_cons_self_of_not_mem (hcolon _),
      List.splitOn_eq_singleton (hcolon _)]
  rw [parseDevice, hsplit] at h
  dsimp only at h
  rw [int, int, Nat.ofDigitChars_ten_toDigits, Nat.ofDigitChars_ten_toDigits] at h
  split at h
  · unfold makedev at h
    split at h
    · exact (Option.some.inj h).symm
    · cases h
  · cases h

theorem checkRecord_line {mountNumbers : List Text} {number : Text} {answer : Option Text}
    (h : m.Plain) (hok : checkRecord device mountNumbers m.line = .ok (number, answer)) :
    answer = if m.device = device then some m.mountpoint else none := by
  unfold checkRecord at hok
  rw [split_line h] at hok
  have hdevice : m.fields.getD 2 [] = m.deviceText := rfl
  have hmountpoint : decode (m.fields.getD 4 []) = m.mountpoint := decode_escapePath m.mountpoint
  dsimp only at hok
  split at hok
  · cases hok
  · rw [hdevice, hmountpoint] at hok
    cases hparse : parseDevice m.deviceText with
    | none =>
      rw [hparse] at hok
      cases hok
    | some d =>
      obtain rfl := parseDevice_deviceText hparse
      rw [hparse] at hok
      dsimp only at hok
      by_cases hsame : m.device = device
      · rw [if_pos hsame, if_pos hsame] at hok
        rw [if_pos hsame]
        split at hok
        · cases hok
        · cases hok
          rfl
      · rw [if_neg hsame, if_neg hsame] at hok
        rw [if_neg hsame]
        split at hok
        · cases hok
        · cases hok
          rfl

end Records

/-! ## Scans -/

section Scans

variable {proc : Proc} {device : Device} {tables : String → List Mount} {s : Scan} {owner : String}

structure Scan.Inv (proc : Proc) (device : Device) (tables : String → List Mount) (s : Scan) :
    Prop where
  asks : ∀ entry ∈ s.asked, ∃ m ∈ tables entry.1, m.device = device ∧ m.path = entry.2
  contains : ∀ owner ∈ s.read, ∀ m ∈ tables owner, m.device = device →
    ∃ st, proc.stat owner m.path = .ok st ∧ st.identity ∈ s.result
  named : ∀ ns ∈ s.seen, ∃ owner ∈ s.read, proc.namespaceId owner = .ok ns

structure Scan.Grows (device : Device) (owner : String) (table : List Mount) (s s' : Scan) : Prop where
  asks : ∀ entry ∈ s'.asked, entry ∈ s.asked ∨ ∃ m ∈ table, m.device = device ∧ (owner, m.path) = entry
  result : ∀ i ∈ s.result, i ∈ s'.result
  seen : s'.seen = s.seen
  read : s'.read = s.read

theorem Scan.Grows.refl {table : List Mount} : Scan.Grows device owner table s s :=
  ⟨fun _ => .inl, fun _ => id, rfl, rfl⟩

theorem Scan.Grows.cons {m : Mount} {table : List Mount} {s' s'' : Scan}
    (h : Scan.Grows device owner table s' s'')
    (hasks : ∀ entry ∈ s'.asked, entry ∈ s.asked ∨ m.device = device ∧ (owner, m.path) = entry)
    (hresult : ∀ i ∈ s.result, i ∈ s'.result) (hseen : s'.seen = s.seen) (hread : s'.read = s.read) :
    Scan.Grows device owner (m :: table) s s'' where
  asks entry hentry := by
    rcases h.asks entry hentry with hentry | ⟨m', hm', hrest⟩
    · exact (hasks entry hentry).imp_right fun hm => ⟨m, List.mem_cons_self, hm⟩
    · exact .inr ⟨m', List.mem_cons_of_mem m hm', hrest⟩
  result i hi := h.result i (hresult i hi)
  seen := h.seen.trans hseen
  read := h.read.trans hread

theorem scanRecords_reads {table : List Mount} (hplain : ∀ m ∈ table, m.Plain)
    (mountNumbers : List Text) (s : Scan) :
    Scan.Grows device owner table s
      (scanRecords proc device owner (table.map Mount.line) mountNumbers s).2 ∧
    ((scanRecords proc device owner (table.map Mount.line) mountNumbers s).1 = .ok () →
      ∀ m ∈ table, m.device = device → ∃ st, proc.stat owner m.path = .ok st ∧
        st.identity ∈ (scanRecords proc device owner (table.map Mount.line) mountNumbers s).2.result) := by
  induction table generalizing mountNumbers s with
  | nil => exact ⟨.refl, fun _ _ => nofun⟩
  | cons m table ih =>
    have ih := ih fun m' hm' => hplain m' (List.mem_cons_of_mem m hm')
    rw [List.map_cons, scanRecords]
    cases hcheck : checkRecord device mountNumbers m.line with
    | error message => exact ⟨.cons .refl (fun _ => .inl) (fun _ => id) rfl rfl, nofun⟩
    | ok record =>
      obtain ⟨number, answer⟩ := record
      have hanswer := checkRecord_line (hplain m List.mem_cons_self) hcheck
      by_cases hdevice : m.device = device
      · rw [if_pos hdevice] at hanswer
        subst hanswer
        dsimp only
        have hpath : ∀ entry ∈ (owner, lstrip m.mountpoint) :: s.asked,
            entry ∈ s.asked ∨ m.device = device ∧ (owner, m.path) = entry := by
          intro entry hentry
          rcases List.mem_cons.mp hentry with rfl | hentry
          · exact .inr ⟨hdevice, rfl⟩
          · exact .inl hentry
        cases hstat : proc.stat owner (lstrip m.mountpoint) with
        | error failure => exact ⟨.cons .refl hpath (fun _ => id) rfl rfl, nofun⟩
        | ok st =>
          dsimp only
          split
          · exact ⟨.cons .refl hpath (fun _ => id) rfl rfl, nofun⟩
          · obtain ⟨hgrows, hreads⟩ := ih (number :: mountNumbers) ⟨st.identity :: s.result, s.seen,
              (owner, lstrip m.mountpoint) :: s.asked, s.read⟩
            refine ⟨.cons hgrows hpath (fun _ => List.mem_cons_of_mem _) rfl rfl,
              fun hok m' hm' hon => ?_⟩
            rcases List.mem_cons.mp hm' with rfl | hm'
            · exact ⟨st, hstat, hgrows.result _ List.mem_cons_self⟩
            · exact hreads hok m' hm' hon
      · rw [if_neg hdevice] at hanswer
        subst hanswer
        obtain ⟨hgrows, hreads⟩ := ih (number :: mountNumbers) s
        refine ⟨.cons hgrows (fun _ => .inl) (fun _ => id) rfl rfl, fun hok m' hm' hon => ?_⟩
        rcases List.mem_cons.mp hm' with rfl | hm'
        · exact absurd hon hdevice
        · exact hreads hok m' hm' hon

theorem Scan.Inv.grows {s' : Scan} (h : s.Inv proc device tables)
    (hgrows : Scan.Grows device owner (tables owner) s s') : s'.Inv proc device tables where
  asks entry hentry := by
    rcases hgrows.asks entry hentry with hentry | ⟨m, hm, hdevice, rfl⟩
    · exact h.asks entry hentry
    · exact ⟨m, hm, hdevice, rfl⟩
  contains o ho m hm hdevice := by
    obtain ⟨st, hst, hmem⟩ := h.contains o (hgrows.read ▸ ho) m hm hdevice
    exact ⟨st, hst, hgrows.result _ hmem⟩
  named ns hns := by
    obtain ⟨o, ho, heq⟩ := h.named ns (hgrows.seen ▸ hns)
    exact ⟨o, hgrows.read ▸ ho, heq⟩

variable (hplain : ∀ owner, ∀ m ∈ tables owner, m.Plain) (hshows : proc.Shows tables)

include hplain hshows

theorem scanOwner_inv (h : s.Inv proc device tables) :
    (scanOwner proc device owner s).2.Inv proc device tables ∧
    (∀ o ∈ s.read, o ∈ (scanOwner proc device owner s).2.read) ∧
    ((scanOwner proc device owner s).1 = .ok () →
      ∃ other ∈ (scanOwner proc device owner s).2.read, ∃ ns,
        proc.namespaceId owner = .ok ns ∧ proc.namespaceId other = .ok ns) := by
  unfold scanOwner
  cases hns : proc.namespaceId owner with
  | error failure => exact ⟨h, fun _ => id, nofun⟩
  | ok ns =>
    dsimp only
    split
    · rename_i hseen
      obtain ⟨other, hother, heq⟩ := h.named ns hseen
      exact ⟨h, fun _ => id, fun _ => ⟨other, hother, ns, rfl, heq⟩⟩
    · cases htext : proc.mountinfo owner with
      | error failure => exact ⟨h, fun _ => id, nofun⟩
      | ok text =>
        dsimp only
        split
        · exact ⟨h, fun _ => id, nofun⟩
        · rw [hshows owner text htext, splitlines_tableText (hplain owner)]
          obtain ⟨hgrows, hreads⟩ := @scanRecords_reads proc device owner _ (hplain owner) [] s
          have hinv := h.grows hgrows
          revert hgrows hreads hinv
          rcases scanRecords proc device owner ((tables owner).map Mount.line) [] s with
            ⟨failure | _, s'⟩
          · exact fun hgrows _ hinv => ⟨hinv, fun o ho => hgrows.read ▸ ho, nofun⟩
          · intro hgrows hreads hinv
            refine ⟨⟨hinv.asks, fun o ho => ?_, fun ns' hns' => ?_⟩,
              fun o ho => List.mem_cons_of_mem _ (hgrows.read ▸ ho), fun _ =>
              ⟨owner, List.mem_cons_self, ns, rfl, hns⟩⟩
            · rcases List.mem_cons.mp ho with rfl | ho
              · exact hreads rfl
              · exact hinv.contains o ho
            · rcases List.mem_cons.mp hns' with rfl | hns'
              · exact ⟨owner, List.mem_cons_self, hns⟩
              · obtain ⟨o, ho, heq⟩ := hinv.named ns' hns'
                exact ⟨o, List.mem_cons_of_mem _ ho, heq⟩

/-- The owners are gone, or their namespaces have been read. -/
theorem scanOwners_inv (owners : List String) (s : Scan) (h : s.Inv proc device tables) :
    (scanOwners proc device owners s).2.Inv proc device tables ∧
    (∀ o ∈ s.read, o ∈ (scanOwners proc device owners s).2.read) ∧
    ∀ result, (scanOwners proc device owners s).1 = .ok result →
      result = (scanOwners proc device owners s).2.result ∧
      ∀ owner ∈ owners, proc.namespaceAgain owner = .error .gone ∨
        ∃ other ∈ (scanOwners proc device owners s).2.read, ∃ ns,
          proc.namespaceId owner = .ok ns ∧ proc.namespaceId other = .ok ns := by
  induction owners generalizing s with
  | nil => exact ⟨h, fun _ => id, fun result hresult => ⟨(Except.ok.inj hresult).symm, fun _ => nofun⟩⟩
  | cons owner owners ih =>
    obtain ⟨hinv, hread, hcovered⟩ := @scanOwner_inv proc device tables s owner hplain hshows h
    unfold scanOwners
    revert hinv hread hcovered
    rcases scanOwner proc device owner s with ⟨failure | _, s'⟩
    · intro hinv hread _
      cases failure with
      | refuse message => exact ⟨hinv, hread, fun _ => nofun⟩
      | other message => exact ⟨hinv, hread, fun _ => nofun⟩
      | gone =>
        dsimp only
        split
        · exact ⟨hinv, hread, fun _ => nofun⟩
        · cases hagain : proc.namespaceAgain owner with
          | ok ns => exact ⟨hinv, hread, fun _ => nofun⟩
          | error failure =>
            cases failure with
            | refuse message => exact ⟨hinv, hread, fun _ => nofun⟩
            | other message => exact ⟨hinv, hread, fun _ => nofun⟩
            | gone =>
              obtain ⟨hinv', hread', hrest⟩ := ih s' hinv
              refine ⟨hinv', fun o ho => hread' o (hread o ho), fun result hresult => ?_⟩
              obtain ⟨heq, hcovers⟩ := hrest result hresult
              refine ⟨heq, fun o ho => ?_⟩
              rcases List.mem_cons.mp ho with rfl | ho
              · exact .inl hagain
              · exact hcovers o ho
    · intro hinv hread hcovered
      obtain ⟨hinv', hread', hrest⟩ := ih s' hinv
      refine ⟨hinv', fun o ho => hread' o (hread o ho), fun result hresult => ?_⟩
      obtain ⟨heq, hcovers⟩ := hrest result hresult
      refine ⟨heq, fun o ho => ?_⟩
      rcases List.mem_cons.mp ho with rfl | ho
      · obtain ⟨other, hother, hns⟩ := hcovered rfl
        exact .inr ⟨other, hread' other hother, hns⟩
      · exact hcovers o ho

end Scans

/-- Where names have no white space but what the kernel escapes, no mount point is misread. -/
theorem plain_tables_never_misread {proc : Proc} {device : Device} {tables : String → List Mount}
    (hplain : ∀ owner, ∀ m ∈ tables owner, m.Plain) (hshows : proc.Shows tables) :
    NeverMisreads proc device tables := by
  have hstart : Scan.Inv proc device tables ⟨[], [], [], []⟩ := ⟨fun _ => nofun, fun _ => nofun, fun _ => nofun⟩
  obtain ⟨hinv, -, hrest⟩ := scanOwners_inv hplain hshows ("self" :: proc.pids) _ hstart
  refine ⟨hinv.asks, fun result hresult owner howner m hm hdevice => ?_,
    fun result hresult => (hrest result hresult).2⟩
  obtain ⟨st, hst, hmem⟩ := hinv.contains owner howner m hm hdevice
  exact ⟨st, hst, (hrest result hresult).1 ▸ hmem⟩

/-! ## Two mounts -/

namespace Sample

theorem solid_of_all {fs : List Text}
    (h : fs.all (fun f => decide (f ≠ []) && f.all fun c => !isSpace c) = true) : ∀ f ∈ fs, Solid f := by
  intro f hf
  obtain ⟨hne, hall⟩ := Bool.and_eq_true_iff.mp (List.all_eq_true.mp h f hf)
  exact ⟨of_decide_eq_true hne, fun c hc => (Bool.not_eq_true' _).mp (List.all_eq_true.mp hall c hc)⟩

theorem plain_of_all {m : Mount} (h : (m.root ++ m.mountpoint).all
    (fun c => !isSpace c || [' ', '\t', '\n'].contains c) = true) : m.Plain := by
  intro c hc hspace
  have hkept := List.all_eq_true.mp h c hc
  rw [hspace, Bool.not_true, Bool.false_or] at hkept
  exact List.contains_iff_mem.mp hkept

def mount (number : Nat) (mountpoint : Text) (h : mountpoint ≠ []) : Mount where
  number := number
  parent := 1
  device := (8, 1)
  root := ['/']
  mountpoint := mountpoint
  options := "rw".toList
  optional := []
  fstype := "ext4".toList
  source := "/dev/sda1".toList
  superOptions := "rw".toList
  root_ne_nil := List.cons_ne_nil _ _
  mountpoint_ne_nil := h
  solid := solid_of_all (by decide)

def cache : Text := "/cache".toList

/-- The white space in the name is a no-break space, which the kernel does not escape. -/
def otherCache : Text := "/cache\u00a0two".toList

def table (second : Text) (h : second ≠ []) : List Mount :=
  [mount 36 cache (by decide), mount 37 second h]

def proc (second : Text) (h : second ≠ []) : Proc where
  pids := []
  namespaceId _ := .ok ((0, 4), 1)
  namespaceAgain _ := .ok ((0, 4), 1)
  mountinfo _ := .ok (tableText (table second h))
  stat _ path := .ok ⟨(8, 1), if path = lstrip cache then 2 else 3⟩

theorem otherCache_ne_nil : otherCache ≠ [] := by decide

theorem mountIds_otherCache : (mountIds (proc otherCache otherCache_ne_nil) (8, 1)).1 =
    .ok [((8, 1), 2), ((8, 1), 2)] := rfl

theorem read_otherCache : (mountIds (proc otherCache otherCache_ne_nil) (8, 1)).2.read = ["self"] := rfl

end Sample

/-- A name with an ordinary space is read as it was written. -/
theorem spaced_name_never_misread : NeverMisreads (Sample.proc "/my cache".toList (by decide))
    (8, 1) fun _ => Sample.table "/my cache".toList (by decide) := by
  refine plain_tables_never_misread (fun _ m hm => ?_) fun _ _ h => (Except.ok.inj h).symm
  rcases List.mem_cons.mp hm with rfl | hm
  · exact Sample.plain_of_all (by decide)
  · obtain rfl := List.mem_singleton.mp hm
    exact Sample.plain_of_all (by decide)

theorem no_break_space_misread : ¬∀ (proc : Proc) (device : Device) (tables : String → List Mount),
    proc.Shows tables → NeverMisreads proc device tables := by
  intro h
  have hreads := h (Sample.proc Sample.otherCache Sample.otherCache_ne_nil) (8, 1)
    (fun _ => Sample.table Sample.otherCache Sample.otherCache_ne_nil)
    fun _ _ heq => (Except.ok.inj heq).symm
  have hself := List.mem_singleton.mpr (rfl : "self" = "self")
  rw [← Sample.read_otherCache] at hself
  obtain ⟨st, hst, hmem⟩ := hreads.contains _ Sample.mountIds_otherCache "self" hself
    (Sample.mount 37 Sample.otherCache Sample.otherCache_ne_nil)
    (List.mem_cons_of_mem _ (List.mem_singleton.mpr rfl)) rfl
  have hino : st = ⟨(8, 1), 3⟩ := by
    obtain rfl := Except.ok.inj hst
    rfl
  rw [hino] at hmem
  revert hmem
  decide

end ClusterState.CacheRetention
