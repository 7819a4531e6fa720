import ClusterState.CacheRetention.Scanning
import ClusterState.Data.PrefixCodes

/-! # The text of a fingerprint

The digest is taken of the records of all entries, one after another with nothing in
between. Their text can be read back, whatever the names are.
-/

namespace ClusterState.CacheRetention

open ClusterState.Data.PythonText ClusterState.Data.PrefixCodes Concurrency

/-! ## Characters -/

section Characters

variable {py : Python} {quote c : Char} {t t' x y : Text} {n w acc : Nat}

def hexValue (digits : Text) : Nat :=
  digits.foldl (fun acc c => 16 * acc + "0123456789abcdef".toList.idxOf c) 0

theorem idxOf_digitChar (h : n < 16) : "0123456789abcdef".toList.idxOf n.digitChar = n := by
  interval_cases n <;> rfl

theorem hexDigits_succ : hexDigits (w + 1) n = (n / 16 ^ w % 16).digitChar :: hexDigits w n := by
  rw [hexDigits, List.range_succ, List.reverse_append]
  rfl

theorem length_hexDigits : (hexDigits w n).length = w := by
  rw [hexDigits, List.length_map, List.length_reverse, List.length_range]

theorem foldl_hexDigits :
    (hexDigits w n).foldl (fun acc c => 16 * acc + "0123456789abcdef".toList.idxOf c) acc =
      16 ^ w * acc + n % 16 ^ w := by
  induction w generalizing acc with
  | zero => simp [hexDigits, Nat.mod_one]
  | succ w ih =>
    rw [hexDigits_succ, List.foldl_cons, ih, idxOf_digitChar (Nat.mod_lt _ (by decide)), Nat.mod_pow_succ]
    ring

theorem hexValue_hexDigits (h : n < 16 ^ w) : hexValue (hexDigits w n) = n := by
  rw [hexValue, foldl_hexDigits, Nat.mul_zero, Nat.zero_add, Nat.mod_eq_of_lt h]

def codePoint (n : Nat) : CodePoint := if h : n < 0x110000 then ⟨n, h⟩ else dot

def readHex (width : Nat) (t : Text) : Option (CodePoint × Text) :=
  some (codePoint (hexValue (t.take width)), t.drop width)

def readEscape : Text → Option (CodePoint × Text)
  | [] => none
  | c :: rest =>
    if c = 't' then some (.ofChar '\t', rest)
    else if c = 'n' then some (.ofChar '\n', rest)
    else if c = 'r' then some (.ofChar '\r', rest)
    else if c = 'x' then readHex 2 rest
    else if c = 'u' then readHex 4 rest
    else if c = 'U' then readHex 8 rest
    else some (.ofChar c, rest)

def readChar : Text → Option (CodePoint × Text)
  | [] => none
  | c :: rest => if c = '\\' then readEscape rest else some (.ofChar c, rest)

theorem readHex_hexDigits {p : CodePoint} (h : p.val < 16 ^ w) :
    readHex w (hexDigits w p.val ++ x) = some (p, x) := by
  rw [readHex, List.take_left' length_hexDigits, List.drop_left' length_hexDigits, hexValue_hexDigits h,
    codePoint, dif_pos p.isLt]

theorem readChar_escapeChar (hquote : quote = '\'' ∨ quote = '"') :
    readChar (escapeChar py quote c ++ x) = some (.ofChar c, x) := by
  have hlt : c.toNat < 16 ^ 8 := c.val.toNat_lt
  have hhex {w : Nat} (h : c.toNat < 16 ^ w) :
      readHex w (hexDigits w c.toNat ++ x) = some (.ofChar c, x) :=
    readHex_hexDigits (p := .ofChar c) h
  rw [escapeChar]
  split
  case isTrue h =>
    rcases h with rfl | rfl
    · rcases hquote with rfl | rfl <;> rfl
    · rfl
  case isFalse hplain =>
    have hne : c ≠ '\\' := fun h => hplain (.inr h)
    split
    case isTrue h =>
      subst h
      rfl
    case isFalse =>
      split
      case isTrue h =>
        subst h
        rfl
      case isFalse =>
        split
        case isTrue h =>
          subst h
          rfl
        case isFalse =>
          split
          case isTrue h => exact hhex (by omega)
          case isFalse =>
            split
            case isTrue h => exact if_neg hne
            case isFalse =>
              split
              case isTrue h => exact hhex (by omega)
              case isFalse =>
                split
                case isTrue h => exact hhex (by omega)
                case isFalse => exact hhex hlt

theorem ofChar_of_char? {p : CodePoint} (h : p.char? = some c) : .ofChar c = p := by
  rw [CodePoint.char?] at h
  split at h
  case isTrue hvalid =>
    cases h
    apply Fin.ext
    change (Char.ofNat p.val).toNat = p.val
    rw [Char.ofNat, dif_pos hvalid]
    rfl
  case isFalse => cases h

theorem lt_of_char?_eq_none {p : CodePoint} (h : p.char? = none) : p.val < 16 ^ 4 := by
  rw [CodePoint.char?] at h
  split at h
  case isTrue => cases h
  case isFalse hnot =>
    rw [Nat.isValidChar] at hnot
    have hlt := p.isLt
    omega

theorem readChar_escapePoint {p : CodePoint} (hquote : quote = '\'' ∨ quote = '"') :
    readChar (escapePoint py quote p ++ x) = some (p, x) := by
  rw [escapePoint]
  cases hchar : p.char? with
  | some c =>
    rw [← ofChar_of_char? hchar]
    exact readChar_escapeChar hquote
  | none => exact readHex_hexDigits (lt_of_char?_eq_none hchar)

theorem head?_escapeChar (hquote : quote = '\'' ∨ quote = '"') :
    (escapeChar py quote c).head? ≠ some quote := by
  have hslash : some '\\' ≠ some quote := by
    rcases hquote with rfl | rfl <;> decide
  rw [escapeChar]
  split
  case isTrue => exact hslash
  case isFalse hplain =>
    have hne : some c ≠ some quote := fun h => hplain (.inl (Option.some.inj h))
    split_ifs <;> assumption

theorem escapeChar_ne_nil : escapeChar py quote c ≠ [] := by
  rw [escapeChar]
  split_ifs <;> simp

theorem head?_escapePoint {p : CodePoint} (hquote : quote = '\'' ∨ quote = '"') :
    (escapePoint py quote p).head? ≠ some quote := by
  rw [escapePoint]
  cases p.char? with
  | some c => exact head?_escapeChar hquote
  | none => rcases hquote with rfl | rfl <;> simp

theorem escapePoint_ne_nil {p : CodePoint} : escapePoint py quote p ≠ [] := by
  rw [escapePoint]
  cases p.char? with
  | some c => exact escapeChar_ne_nil
  | none => exact List.cons_ne_nil _ _

theorem quoteOf_cases (t : List CodePoint) : quoteOf t = '\'' ∨ quoteOf t = '"' := by
  rw [quoteOf]
  split_ifs
  · exact .inr rfl
  · exact .inl rfl

theorem selfDelimiting_reprText : SelfDelimiting (reprText py) := by
  intro t t' x y heq
  obtain ⟨hquote, hrest⟩ := List.cons.inj heq
  rw [← hquote] at hrest
  have hcases := quoteOf_cases t
  have hread : SelfDelimiting (escapePoint py (quoteOf t)) :=
    .of_read fun p x => readChar_escapePoint hcases
  exact hread.marked (fun _ => escapePoint_ne_nil) (fun _ => head?_escapePoint hcases) hrest

end Characters

/-! ## Numbers -/

section Numbers

variable {n m : Nat} {z : Int} {c q : Char}

theorem reprNat_injective : Function.Injective reprNat := by
  intro n m h
  rw [← Nat.ofDigitChars_ten_toDigits (n := n), ← Nat.ofDigitChars_ten_toDigits (n := m)]
  exact congrArg (Nat.ofDigitChars 10 · 0) h

theorem isDigit_of_mem_reprNat (h : c ∈ reprNat n) : c.isDigit = true :=
  Nat.isDigit_of_mem_toDigits (by decide) le_rfl h

theorem selfDelimiting_reprNat (hq : q.isDigit = false) : SelfDelimiting fun n => reprNat n ++ [q] :=
  .of_kind (p := fun c => c.isDigit = true) reprNat_injective (fun _ _ => isDigit_of_mem_reprNat)
    (by simp [hq])

theorem reprInt_injective : Function.Injective reprInt := by
  have hsign (n m : Nat) : '-' :: reprNat n ≠ reprNat m := by
    intro h
    have hdigit := isDigit_of_mem_reprNat (n := m) (h ▸ List.mem_cons_self)
    cases hdigit
  intro z z' h
  rw [reprInt, reprInt] at h
  split at h
  case isTrue hz =>
    split at h
    case isTrue hz' =>
      have hnat := reprNat_injective (List.cons.inj h).2
      omega
    case isFalse => exact (hsign _ _ h).elim
  case isFalse hz =>
    split at h
    case isTrue => exact (hsign _ _ h.symm).elim
    case isFalse hz' =>
      have hnat := reprNat_injective h
      omega

/-- The characters of numbers, and of `None`. -/
def isPlain (c : Char) : Bool := c.isDigit || c ∈ "-None".toList

theorem isPlain_of_mem_reprInt (h : c ∈ reprInt z) : isPlain c = true := by
  have hnat {n : Nat} (h : c ∈ reprNat n) : isPlain c = true := by
    rw [isPlain, isDigit_of_mem_reprNat h, Bool.true_or]
  rw [reprInt] at h
  split at h
  · rcases List.mem_cons.mp h with rfl | h
    · rfl
    · exact hnat h
  · exact hnat h

theorem selfDelimiting_reprInt (hq : isPlain q = false) : SelfDelimiting fun z => reprInt z ++ [q] :=
  .of_kind (p := fun c => isPlain c = true) reprInt_injective (fun _ _ => isPlain_of_mem_reprInt)
    (by simp [hq])

/-- A `ctime`, if it counts. -/
def reprTime : Option Int → Text
  | none => "None".toList
  | some z => reprInt z

theorem reprTime_injective : Function.Injective reprTime := by
  have hnone (z : Int) : "None".toList ≠ reprInt z := by
    rw [reprInt]
    split
    · simp
    · intro h
      have hmem : 'N' ∈ reprNat z.natAbs := by
        rw [← h]
        exact List.mem_cons_self
      cases isDigit_of_mem_reprNat hmem
  intro time time' h
  cases time with
  | none =>
    cases time' with
    | none => rfl
    | some z' => exact (hnone z' h).elim
  | some z =>
    cases time' with
    | none => exact (hnone z h.symm).elim
    | some z' => exact congrArg some (reprInt_injective h)

theorem selfDelimiting_reprTime (hq : isPlain q = false) :
    SelfDelimiting fun time => reprTime time ++ [q] := by
  refine .of_kind (p := fun c => isPlain c = true) reprTime_injective (fun time c h => ?_) (by simp [hq])
  cases time with
  | none =>
    have hall : (reprTime none).all isPlain = true := rfl
    exact List.all_eq_true.mp hall c h
  | some z => exact isPlain_of_mem_reprInt h

end Numbers

/-! ## Records -/

structure Imprint where
  device : Nat
  ino : Nat
  mode : Nat
  uid : Nat
  gid : Nat
  size : Nat
  mtime : Int
  ctime : Option Int

def Metadata.imprint (st : Metadata) : Imprint where
  device := deviceNumber st.device
  ino := st.ino
  mode := st.mode
  uid := st.uid
  gid := st.gid
  size := st.size
  mtime := st.mtime
  ctime := if st.isRegular then none else some st.ctime

def encode (py : Python) (e : Path × Imprint) : Text :=
  reprTuple [reprText py e.1, reprTuple [
    reprTuple [reprNat e.2.device, reprNat e.2.ino], reprNat e.2.mode, reprNat e.2.uid,
    reprNat e.2.gid, reprNat e.2.size, reprInt e.2.mtime, reprTime e.2.ctime]]

section Records

variable {py : Python} {relative : List Name} {st : Metadata}

theorem record_eq_encode : record py relative st = encode py (relativePath relative, st.imprint) := by
  have htime : (if st.isRegular then "None".toList else reprInt st.ctime) = reprTime st.imprint.ctime := by
    rw [Metadata.imprint]
    split <;> rfl
  rw [record, htime]
  rfl

theorem encode_ne_nil (e : Path × Imprint) : encode py e ≠ [] := List.cons_ne_nil _ _

theorem encode_append (t : Path) (i : Imprint) (x : Text) : encode py (t, i) ++ x =
    '(' :: (reprText py t ++ (", ((".toList ++ ((reprNat i.device ++ [',']) ++ (" ".toList ++
      ((reprNat i.ino ++ [')']) ++ (", ".toList ++ ((reprNat i.mode ++ [',']) ++ (" ".toList ++
        ((reprNat i.uid ++ [',']) ++ (" ".toList ++ ((reprNat i.gid ++ [',']) ++ (" ".toList ++
          ((reprNat i.size ++ [',']) ++ (" ".toList ++ ((reprInt i.mtime ++ [',']) ++ (" ".toList ++
            ((reprTime i.ctime ++ [')']) ++ (")".toList ++ x)))))))))))))))))) := by
  simp [encode, reprTuple, List.intercalate]

theorem selfDelimiting_encode : SelfDelimiting (encode py) := by
  rintro ⟨t, i⟩ ⟨t', i'⟩ x y heq
  rw [encode_append, encode_append] at heq
  obtain ⟨htext, heq⟩ := selfDelimiting_reprText (List.cons.inj heq).2
  obtain ⟨hdevice, heq⟩ := selfDelimiting_reprNat rfl (List.append_cancel_left heq)
  obtain ⟨hino, heq⟩ := selfDelimiting_reprNat rfl (List.append_cancel_left heq)
  obtain ⟨hmode, heq⟩ := selfDelimiting_reprNat rfl (List.append_cancel_left heq)
  obtain ⟨huid, heq⟩ := selfDelimiting_reprNat rfl (List.append_cancel_left heq)
  obtain ⟨hgid, heq⟩ := selfDelimiting_reprNat rfl (List.append_cancel_left heq)
  obtain ⟨hsize, heq⟩ := selfDelimiting_reprNat rfl (List.append_cancel_left heq)
  obtain ⟨hmtime, heq⟩ := selfDelimiting_reprInt rfl (List.append_cancel_left heq)
  obtain ⟨hctime, heq⟩ := selfDelimiting_reprTime rfl (List.append_cancel_left heq)
  refine ⟨?_, List.append_cancel_left heq⟩
  rw [htext]
  cases i
  cases i'
  simp only [Prod.mk.injEq, true_and, Imprint.mk.injEq]
  exact ⟨hdevice, hino, hmode, huid, hgid, hsize, hmtime, hctime⟩

end Records

end ClusterState.CacheRetention
