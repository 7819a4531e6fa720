import ClusterState.Data.BlockDocument
import ClusterState.Migrations.JobDocuments

/-! # Rendered documents

What the scan makes of the lines of a document that is written in block style, entry by entry.
-/

namespace ClusterState.Migrations

open Data.PythonText Data.BlockDocument

/-- A document as it is rendered: the fields of an object, and one for its metadata. -/
structure Document where
  entries : List (Text × Node)
  /-- Text that would end a line is escaped. -/
  solid : ∀ line ∈ entriesLines entries, ∀ c ∈ line.text, endsLine c = false
  keys : ∀ entry ∈ entries, ':' ∉ entry.1 ∧ entry.1.head? ≠ some ' '
  distinct : (entries.map Prod.fst).Nodup
  metadata : ∀ node, entries.lookup "metadata".toList = some node → ∃ fields, node = .mapping fields ∧
    (∀ field ∈ fields, ':' ∉ field.1) ∧ (fields.map Prod.fst).Nodup

namespace Document

def lines (d : Document) : List Line := entriesLines d.entries

def text (d : Document) : Text := written d.lines

def kind (d : Document) : Option Text := (d.entries.lookup "kind".toList).bind Node.text?

def nameNode (d : Document) : Option Node :=
  (d.entries.lookup "metadata".toList).bind (Node.get? "name".toList)

def name (d : Document) : Option Text := d.nameNode.bind Node.text?

/-- Where the containers of a job have their images. -/
def imagePaths : List (List Text) :=
  ["containers", "initContainers"].map fun containers =>
    ["spec", "template", "spec", containers, "image"].map String.toList

def images (d : Document) : List Scalar :=
  ((entriesFields d.entries).filter fun field => imagePaths.contains field.1).map Prod.snd

def job (d : Document) : Option (Text × Text) :=
  if d.kind = some "Job".toList then d.name.bind fun name =>
    d.images.head?.map fun image => (name, image.value)
  else none

end Document

/-- Documents with a separator on a line of its own between them. -/
def stream : List Document → Text
  | [] => []
  | [d] => d.text
  | d :: ds => d.text ++ separator ++ '\n' :: stream ds

def Bare (node : Node) : Prop :=
  ∃ text, node = .scalar (.plain text []) ∧ strip text = text ∧ text ≠ []

/-! ## Keys -/

variable {key k text front : Text} {node : Node} {scan : Scan} {entries fields : List (Text × Node)}
  {lines : List Text}

theorem key_of_front (hk : ':' ∉ k) (hkey : ':' ∉ key) :
    (k ++ [':']).isPrefixOf (key ++ ':' :: text) = true ↔ key = k := by
  rw [List.isPrefixOf_iff_prefix]
  induction k generalizing key with
  | nil =>
    cases key with
    | nil => exact iff_of_true ⟨text, rfl⟩ rfl
    | cons c key =>
      refine iff_of_false (fun h => hkey ?_) (List.cons_ne_nil _ _)
      rw [(List.cons_prefix_cons.mp h).1]
      exact List.mem_cons_self
  | cons c k ih =>
    rw [List.mem_cons, not_or] at hk
    cases key with
    | nil => exact iff_of_false (fun h => hk.1 (List.cons_prefix_cons.mp h).1.symm) (List.cons_ne_nil _ _).symm
    | cons c' key =>
      rw [List.mem_cons, not_or] at hkey
      rw [List.cons_append, List.cons_append, List.cons_prefix_cons, ih hk.2 hkey.2, List.cons.injEq]
      exact and_congr_left' eq_comm

theorem afterColon_append (h : ':' ∉ front) (htext : strip text = text) :
    afterColon (front ++ ':' :: ' ' :: text) = text := by
  have hdrop : (front ++ ':' :: ' ' :: text).dropWhile (· ≠ ':') = ':' :: ' ' :: text := by
    induction front with
    | nil => rfl
    | cons c front ih =>
      rw [List.mem_cons, not_or] at h
      rw [List.cons_append, List.dropWhile_cons_of_pos (by simpa using Ne.symm h.1), ih h.2]
  rw [afterColon, hdrop]
  exact htext

theorem strip_key : strip (key ++ ':' :: text) ≠ [] := strip_ne_nil (c := ':') (by simp) (by decide)

/-! ## Lines below a key -/

theorem not_prefix_of_below {start : Text} {c : Char} (h : Below text) (hspace : c ≠ ' ') (hdash : c ≠ '-') :
    (c :: start).isPrefixOf text = false := by
  rw [Bool.eq_false_iff]
  intro hfront
  obtain ⟨back, rfl⟩ := List.isPrefixOf_iff_prefix.mp hfront
  rcases h with h | h | h
  · cases h
  · exact hspace (Option.some.inj h)
  · exact hdash (Option.some.inj h)

theorem ne_metadata_of_below (h : Below text) : text ≠ "metadata:".toList := by
  rintro rfl
  exact absurd h (by unfold Below; decide)

theorem scan_below_kind (h : ∀ line ∈ lines, Below line) :
    (lines.foldl scanLine scan).kind = scan.kind := by
  induction lines generalizing scan with
  | nil => rfl
  | cons line lines ih =>
    obtain ⟨hline, hlines⟩ := List.forall_mem_cons.mp h
    have hkind : "kind:".toList.isPrefixOf line = false :=
      @not_prefix_of_below _ "ind:".toList _ hline (by decide : 'k' ≠ ' ') (by decide)
    rw [List.foldl_cons, ih hlines, scanLine_kind, if_neg (Bool.eq_false_iff.mp hkind)]

theorem scan_below_name (h : ∀ line ∈ lines, Below line) (hout : scan.inMetadata = false) :
    (lines.foldl scanLine scan).name = scan.name ∧ (lines.foldl scanLine scan).inMetadata = false := by
  induction lines generalizing scan with
  | nil => exact ⟨rfl, hout⟩
  | cons line lines ih =>
    obtain ⟨hline, hlines⟩ := List.forall_mem_cons.mp h
    have hout' : (scanLine scan line).inMetadata = false := by
      by_cases hblank : strip line = []
      · rw [scanLine, if_pos hblank, hout]
      · rw [scanLine_inMetadata hblank, if_neg (ne_metadata_of_below hline), hout, Bool.false_and]
    rw [List.foldl_cons, (ih hlines hout').1, scanLine_name, hout]
    exact ⟨rfl, (ih hlines hout').2⟩

/-! ## Entries -/

variable {first : Line} {rest : List Line}

theorem text?_bare (h : Bare node) : ∃ text, node = .scalar (.plain text []) ∧ node.text? = some text ∧
    strip text = text ∧ text ≠ [] := by
  obtain ⟨text, rfl, hstrip, hne⟩ := h
  exact ⟨text, rfl, congrArg some (List.intercalate_singleton ..), hstrip, hne⟩

theorem entryLines_bare (h : Bare node) (hkey : ':' ∉ key) : ∃ text, node.text? = some text ∧
    text ≠ [] ∧ entryLines key node.lines node = [⟨key ++ ':' :: ' ' :: text, some ([key], .plain text [])⟩] ∧
      afterColon (key ++ ':' :: ' ' :: text) = text := by
  obtain ⟨text, rfl, htext, hstrip, hne⟩ := text?_bare h
  exact ⟨text, htext, hne, rfl, afterColon_append hkey hstrip⟩

theorem lookup_none_of_keys (h : key ∉ entries.map Prod.fst) : entries.lookup key = none := by
  rw [List.lookup_eq_none_iff]
  intro entry hentry
  rw [bne_iff_ne]
  rintro rfl
  exact h (List.mem_map_of_mem hentry)

theorem of_absent {P : Node → Prop} {entry : Option Node} (h : entry = none) :
    ∀ node, entry = some node → P node := by
  intro node hnode
  rw [h] at hnode
  cases hnode

theorem scan_kind (hkeys : ∀ entry ∈ entries, ':' ∉ entry.1) (hnodup : (entries.map Prod.fst).Nodup)
    (hbare : ∀ node, entries.lookup "kind".toList = some node → Bare node) :
    (((entriesLines entries).map Line.text).foldl scanLine scan).kind =
      ((entries.lookup "kind".toList).bind Node.text?).getD scan.kind := by
  induction entries generalizing scan with
  | nil => rfl
  | cons entry entries ih =>
    obtain ⟨key, node⟩ := entry
    obtain ⟨hkey, hkeys'⟩ := List.forall_mem_cons.mp hkeys
    rw [List.map_cons, List.nodup_cons] at hnodup
    obtain ⟨first, rest, hlines, ⟨text, htext⟩, hbelow⟩ := entryLines_cons key node
    have hrest : ∀ line ∈ rest.map Line.text, Below line := by simpa using hbelow
    rw [entriesLines, List.map_append, List.foldl_append, hlines, List.map_cons, List.foldl_cons]
    have hfront : "kind:".toList.isPrefixOf first.text = true ↔ key = "kind".toList :=
      htext ▸ key_of_front (by decide : ':' ∉ "kind".toList) hkey
    by_cases heq : key = "kind".toList
    · subst heq
      have hnone : entries.lookup "kind".toList = none := lookup_none_of_keys hnodup.1
      have hlookup : (("kind".toList, node) :: entries).lookup "kind".toList = some node := by
        rw [List.lookup_cons, beq_self_eq_true]
      obtain ⟨value, hvalue, -, hentry, hafter⟩ := entryLines_bare (hbare node hlookup) hkey
      cases hlines.symm.trans hentry
      rw [ih hkeys' hnodup.2 (of_absent hnone), hnone, hlookup, Option.bind_some,
        hvalue]
      exact scanLine_kind.trans ((if_pos (hfront.mpr rfl)).trans hafter)
    · have hlookup : ((key, node) :: entries).lookup "kind".toList = entries.lookup "kind".toList := by
        rw [List.lookup_cons, beq_eq_false_iff_ne.mpr (Ne.symm heq)]
      rw [ih hkeys' hnodup.2 fun node h => hbare node (hlookup.trans h), hlookup, scan_below_kind hrest,
        scanLine_kind, if_neg fun h => heq (hfront.mp h)]

/-! ## The metadata -/

theorem indent_ne (h : text ≠ []) : indent text = ' ' :: ' ' :: text := if_neg h

theorem scan_field_rest {texts : List Text} (h : ∀ text ∈ texts, Below text) (hin : scan.inMetadata = true) :
    ((texts.map indent).foldl scanLine scan).name = scan.name ∧
      ((texts.map indent).foldl scanLine scan).inMetadata = true := by
  induction texts generalizing scan with
  | nil => exact ⟨rfl, hin⟩
  | cons text texts ih =>
    obtain ⟨htext, htexts⟩ := List.forall_mem_cons.mp h
    have hname : "  name:".toList.isPrefixOf (indent text) = false := by
      unfold indent
      split
      · rfl
      · rename_i hne
        have hfront : "name:".toList.isPrefixOf text = false :=
          @not_prefix_of_below _ "ame:".toList _ htext (by decide : 'n' ≠ ' ') (by decide)
        exact hfront
    have hin' : (scanLine scan (indent text)).inMetadata = true := by
      by_cases hblank : strip (indent text) = []
      · rw [scanLine, if_pos hblank, hin]
      · rw [scanLine_inMetadata hblank, hin]
        split
        · rfl
        · unfold indent at hblank ⊢
          split
          · rename_i hnil
            rw [if_pos hnil] at hblank
            exact absurd rfl hblank
          · rfl
    rw [List.map_cons, List.foldl_cons, (ih htexts hin').1, scanLine_name, hname]
    simp only [Bool.and_false, Bool.false_and, Bool.false_eq_true, if_false, true_and]
    exact (ih htexts hin').2

theorem scan_fields (hkeys : ∀ field ∈ fields, ':' ∉ field.1) (hnodup : (fields.map Prod.fst).Nodup)
    (hbare : ∀ node, fields.lookup "name".toList = some node → Bare node) (hin : scan.inMetadata = true) :
    ((((entriesLines fields).map Line.text).map indent).foldl scanLine scan).name =
      if scan.name = [] then ((fields.lookup "name".toList).bind Node.text?).getD [] else scan.name := by
  induction fields generalizing scan with
  | nil =>
    split
    · assumption
    · rfl
  | cons field fields ih =>
    obtain ⟨key, node⟩ := field
    obtain ⟨hkey, hkeys'⟩ := List.forall_mem_cons.mp hkeys
    rw [List.map_cons, List.nodup_cons] at hnodup
    obtain ⟨first, rest, hlines, ⟨text, htext⟩, hbelow⟩ := entryLines_cons key node
    have hrest : ∀ text ∈ rest.map Line.text, Below text := by simpa using hbelow
    have hindent : indent first.text = ' ' :: ' ' :: (key ++ ':' :: text) := by
      rw [htext, indent_ne (by simp)]
    have hfront : "  name:".toList.isPrefixOf (indent first.text) = true ↔ key = "name".toList := by
      rw [hindent]
      exact key_of_front (by decide : ':' ∉ "name".toList) hkey
    have hin' : (scanLine scan (indent first.text)).inMetadata = true := by
      have hblank : strip (indent first.text) ≠ [] :=
        hindent ▸ strip_ne_nil (c := ':') (by simp) (by decide)
      rw [scanLine_inMetadata hblank, hin, hindent]
      split <;> rfl
    obtain ⟨hname, hin''⟩ := scan_field_rest hrest hin'
    rw [entriesLines, List.map_append, List.map_append, List.foldl_append, hlines, List.map_cons,
      List.map_cons, List.foldl_cons]
    by_cases heq : key = "name".toList
    · subst heq
      have hnone : fields.lookup "name".toList = none := lookup_none_of_keys hnodup.1
      have hlookup : (("name".toList, node) :: fields).lookup "name".toList = some node := by
        rw [List.lookup_cons, beq_self_eq_true]
      obtain ⟨value, hvalue, hne, hentry, hafter⟩ := entryLines_bare (hbare node hlookup) hkey
      cases hlines.symm.trans hentry
      have hafter' : afterColon (indent ("name".toList ++ ':' :: ' ' :: value)) = value := by
        rw [indent_ne (by simp)]
        exact hafter
      have hfirst : (scanLine scan (indent ("name".toList ++ ':' :: ' ' :: value))).name =
          if scan.name = [] then value else scan.name := by
        rw [scanLine_name, hin, hfront.mpr rfl, hafter']
        simp
      rw [ih hkeys' hnodup.2 (of_absent hnone) hin'', hnone, hlookup,
        Option.bind_some, hvalue, hname]
      simp only [hfirst]
      by_cases hempty : scan.name = []
      · rw [if_pos hempty, if_neg hne, if_pos hempty]
        rfl
      · rw [if_neg hempty, if_neg hempty, if_neg hempty]
    · have hlookup : ((key, node) :: fields).lookup "name".toList = fields.lookup "name".toList := by
        rw [List.lookup_cons, beq_eq_false_iff_ne.mpr (Ne.symm heq)]
      have hfirst : (scanLine scan (indent first.text)).name = scan.name := by
        rw [scanLine_name, Bool.eq_false_iff.mpr fun h => heq (hfront.mp h)]
        simp
      rw [ih hkeys' hnodup.2 (fun node h => hbare node (hlookup.trans h)) hin'', hlookup, hname, hfirst]

theorem not_name_of_key (hspace : key.head? ≠ some ' ') :
    "  name:".toList.isPrefixOf (key ++ ':' :: text) = false := by
  rw [Bool.eq_false_iff]
  intro hstart
  have hfront := List.isPrefixOf_iff_prefix.mp hstart
  cases key with
  | nil => exact absurd (List.cons_prefix_cons.mp hfront).1 (by decide)
  | cons c key => exact hspace (congrArg some (List.cons_prefix_cons.mp hfront).1.symm)

theorem scanLine_key (hkey : ':' ∉ key) (hspace : key.head? ≠ some ' ') :
    (scanLine scan (key ++ ':' :: text)).name = scan.name ∧
      (scanLine scan (key ++ ':' :: text)).inMetadata =
        decide (key = "metadata".toList ∧ text = []) := by
  constructor
  · rw [scanLine_name, not_name_of_key hspace]
    simp
  · have hhead : ((key ++ ':' :: text).head? == some ' ') = false := by
      cases key with
      | nil => rfl
      | cons c key => exact beq_eq_false_iff_ne.mpr hspace
    rw [scanLine_inMetadata strip_key, hhead, Bool.and_false]
    by_cases h : key = "metadata".toList ∧ text = []
    · obtain ⟨rfl, rfl⟩ := h
      rfl
    · rw [decide_eq_false h, if_neg]
      intro heq
      have hstart : ("metadata".toList ++ [':']).isPrefixOf (key ++ ':' :: text) = true := by
        rw [heq]
        decide
      have hmetadata := (key_of_front (by decide) hkey).mp hstart
      subst hmetadata
      exact h ⟨rfl, (List.cons.inj (@List.append_cancel_left _ "metadata".toList _ [':'] heq)).2⟩

theorem scan_other (hkey : ':' ∉ key) (hspace : key.head? ≠ some ' ') (hother : key ≠ "metadata".toList) :
    (((entryLines key node.lines node).map Line.text).foldl scanLine scan).name = scan.name := by
  obtain ⟨first, rest, hlines, ⟨text, htext⟩, hbelow⟩ := entryLines_cons key node
  have hrest : ∀ text ∈ rest.map Line.text, Below text := by simpa using hbelow
  obtain ⟨hname, hin⟩ := @scanLine_key _ text scan hkey hspace
  rw [decide_eq_false fun h => hother h.1] at hin
  rw [hlines, List.map_cons, List.foldl_cons, htext, (scan_below_name hrest hin).1, hname]

theorem scan_metadata (hkeys : ∀ field ∈ fields, ':' ∉ field.1) (hnodup : (fields.map Prod.fst).Nodup)
    (hbare : ∀ node, fields.lookup "name".toList = some node → Bare node) :
    (((entryLines "metadata".toList (Node.mapping fields).lines (.mapping fields)).map Line.text).foldl
        scanLine scan).name =
      if scan.name = [] then ((fields.lookup "name".toList).bind Node.text?).getD [] else scan.name := by
  cases fields with
  | nil =>
    have hkey := @scanLine_key "metadata".toList [' ', '{', '}'] scan (by decide) (by decide)
    change (scanLine scan ("metadata".toList ++ [':', ' ', '{', '}'])).name = _
    apply hkey.1.trans
    split
    · assumption
    · rfl
  | cons field fields =>
    have hkey := @scanLine_key "metadata".toList [] scan (by decide) (by decide)
    have htexts : ((entriesLines (field :: fields)).map fun line =>
        (line.within "metadata".toList).indented).map Line.text =
          ((entriesLines (field :: fields)).map Line.text).map indent := by
      rw [List.map_map, List.map_map]
      rfl
    change ((((entriesLines (field :: fields)).map _).map Line.text).foldl scanLine
      (scanLine scan ("metadata".toList ++ [':']))).name = _
    rw [htexts, scan_fields hkeys hnodup hbare (hkey.2.trans (by decide)), hkey.1]

theorem scan_name (hkeys : ∀ entry ∈ entries, ':' ∉ entry.1 ∧ entry.1.head? ≠ some ' ')
    (hnodup : (entries.map Prod.fst).Nodup)
    (hmetadata : ∀ node, entries.lookup "metadata".toList = some node → ∃ fields,
      node = .mapping fields ∧ (∀ field ∈ fields, ':' ∉ field.1) ∧ (fields.map Prod.fst).Nodup)
    (hbare : ∀ node, (entries.lookup "metadata".toList).bind (Node.get? "name".toList) = some node →
      Bare node) :
    (((entriesLines entries).map Line.text).foldl scanLine scan).name =
      if scan.name = [] then
        (((entries.lookup "metadata".toList).bind (Node.get? "name".toList)).bind Node.text?).getD []
      else scan.name := by
  induction entries generalizing scan with
  | nil =>
    split
    · assumption
    · rfl
  | cons entry entries ih =>
    obtain ⟨key, node⟩ := entry
    obtain ⟨⟨hkey, hspace⟩, hkeys'⟩ := List.forall_mem_cons.mp hkeys
    rw [List.map_cons, List.nodup_cons] at hnodup
    rw [entriesLines, List.map_append, List.foldl_append]
    by_cases heq : key = "metadata".toList
    · subst heq
      have hnone : entries.lookup "metadata".toList = none := lookup_none_of_keys hnodup.1
      have hlookup : (("metadata".toList, node) :: entries).lookup "metadata".toList = some node := by
        rw [List.lookup_cons, beq_self_eq_true]
      obtain ⟨fields, rfl, hfields, hdistinct⟩ := hmetadata node hlookup
      rw [hlookup, Option.bind_some] at hbare ⊢
      rw [ih hkeys' hnodup.2 (of_absent hnone) (of_absent (by rw [hnone]; rfl)), hnone,
        scan_metadata hfields hdistinct hbare]
      have hread : ∀ read : Text, (if read = [] then [] else read) = read := by
        intro read
        split
        · exact Eq.symm ‹_›
        · rfl
      exact hread _
    · have hlookup : ((key, node) :: entries).lookup "metadata".toList =
          entries.lookup "metadata".toList := by
        rw [List.lookup_cons, beq_eq_false_iff_ne.mpr (Ne.symm heq)]
      rw [hlookup] at hmetadata hbare ⊢
      rw [ih hkeys' hnodup.2 hmetadata hbare, scan_other hkey hspace heq]

end ClusterState.Migrations
