import ClusterState.Data.PythonText

/-! # Documents in block style

A document is written with a line for each entry and each item. Lines know which scalar they
begin, if any, and under which keys it stands.
-/

namespace ClusterState.Data.BlockDocument

open PythonText

inductive Scalar
  /-- As it is; a line that is too long goes on below, after a blank of the text. -/
  | plain (first : Text) (more : List Text)
  /-- In quotes, or below the header of a block: it stands for the value. -/
  | styled (value head : Text) (more : List Text)

namespace Scalar

def value : Scalar → Text
  | plain first more => [' '].intercalate (first :: more)
  | styled value _ _ => value

/-- What stands on the line where the scalar begins. -/
def head : Scalar → Text
  | plain first _ => first
  | styled _ head _ => head

def more : Scalar → List Text
  | plain _ more => more
  | styled _ _ more => more

end Scalar

inductive Node
  | scalar (s : Scalar)
  | mapping (entries : List (Text × Node))
  | sequence (items : List Node)

def Node.text? : Node → Option Text
  | .scalar s => some s.value
  | _ => none

def Node.get? (key : Text) : Node → Option Node
  | .mapping entries => entries.lookup key
  | _ => none

structure Line where
  text : Text
  /-- The scalar that begins here as the value of a key, with the keys that lead to it. -/
  field : Option (List Text × Scalar)

def indent (text : Text) : Text := if text = [] then [] else ' ' :: ' ' :: text

def lead (key : Text) (field : List Text × Scalar) : List Text × Scalar := (key :: field.1, field.2)

namespace Line

def other (text : Text) : Line := ⟨text, none⟩

def indented (line : Line) : Line := ⟨indent line.text, line.field⟩

def within (key : Text) (line : Line) : Line := ⟨line.text, line.field.map (lead key)⟩

end Line

/-- The lines of an item, with the dash before the first one. -/
def hang : List Line → List Line
  | [] => []
  | line :: lines => ⟨'-' :: ' ' :: line.text, line.field⟩ :: lines.map Line.indented

/-- The lines of an entry. Items stand below the first letter of their key. -/
def entryLines (key : Text) (content : List Line) : Node → List Line
  | .scalar s => ⟨key ++ ':' :: ' ' :: s.head, some ([key], s)⟩ :: s.more.map fun t => .other (indent t)
  | .mapping [] => [.other (key ++ [':', ' ', '{', '}'])]
  | .mapping _ => .other (key ++ [':']) :: content.map fun line => (line.within key).indented
  | .sequence [] => [.other (key ++ [':', ' ', '[', ']'])]
  | .sequence _ => .other (key ++ [':']) :: content.map (Line.within key)

mutual

def Node.lines : Node → List Line
  | .scalar s => .other s.head :: s.more.map .other
  | .mapping [] => [.other ['{', '}']]
  | .mapping (entry :: entries) => entriesLines (entry :: entries)
  | .sequence [] => [.other ['[', ']']]
  | .sequence (item :: items) => itemsLines (item :: items)

def entriesLines : List (Text × Node) → List Line
  | [] => []
  | (key, node) :: rest => entryLines key node.lines node ++ entriesLines rest

def itemsLines : List Node → List Line
  | [] => []
  | node :: rest => hang node.lines ++ itemsLines rest

end

mutual

/-- The scalars under keys, in the order in which they are written. -/
def Node.fields : Node → List (List Text × Scalar)
  | .scalar _ => []
  | .mapping entries => entriesFields entries
  | .sequence items => itemsFields items

def entriesFields : List (Text × Node) → List (List Text × Scalar)
  | [] => []
  | (key, .scalar s) :: rest => ([key], s) :: entriesFields rest
  | (key, node) :: rest => node.fields.map (lead key) ++ entriesFields rest

def itemsFields : List Node → List (List Text × Scalar)
  | [] => []
  | node :: rest => node.fields ++ itemsFields rest

end

def written (lines : List Line) : Text := lines.flatMap fun line => line.text ++ ['\n']

variable {key : Text} {node : Node} {line : Line} {lines : List Line} {entries : List (Text × Node)}
  {items : List Node}

/-! ## Fields -/

theorem filterMap_indented : (lines.map Line.indented).filterMap Line.field =
    lines.filterMap Line.field := by
  rw [List.filterMap_map]
  rfl

theorem filterMap_within : (lines.map (Line.within key)).filterMap Line.field =
    (lines.filterMap Line.field).map (lead key) := by
  rw [List.filterMap_map, List.map_filterMap]
  rfl

theorem filterMap_other {texts : List Text} : (texts.map Line.other).filterMap Line.field = [] := by
  rw [List.filterMap_map, List.filterMap_eq_nil_iff]
  exact fun _ _ => rfl

theorem filterMap_hang : (hang lines).filterMap Line.field = lines.filterMap Line.field := by
  cases lines with
  | nil => rfl
  | cons line lines =>
    rw [hang, List.filterMap_cons, filterMap_indented, List.filterMap_cons]

@[elab_as_elim]
theorem Node.inductionOn {motive : Node → Prop} (scalar : ∀ s, motive (.scalar s))
    (mapping : ∀ entries : List (Text × Node), (∀ entry ∈ entries, motive entry.2) →
      motive (.mapping entries))
    (sequence : ∀ items, (∀ item ∈ items, motive item) → motive (.sequence items)) (node : Node) :
    motive node :=
  @Node.rec motive (fun entries => ∀ entry ∈ entries, motive entry.2)
    (fun items => ∀ item ∈ items, motive item) (fun entry => motive entry.2)
    scalar mapping sequence (List.forall_mem_nil _)
    (fun _ _ hentry hentries => List.forall_mem_cons.mpr ⟨hentry, hentries⟩) (List.forall_mem_nil _)
    (fun _ _ hitem hitems => List.forall_mem_cons.mpr ⟨hitem, hitems⟩) (fun _ _ hnode => hnode) node

theorem filterMap_entriesLines
    (h : ∀ entry ∈ entries, entry.2.lines.filterMap Line.field = entry.2.fields) :
    (entriesLines entries).filterMap Line.field = entriesFields entries := by
  induction entries with
  | nil => rfl
  | cons entry entries ih =>
    obtain ⟨key, node⟩ := entry
    obtain ⟨hnode, hentries⟩ := List.forall_mem_cons.mp h
    rw [entriesLines, List.filterMap_append, ih hentries]
    cases node with
    | scalar s =>
      have hmore : (s.more.map fun t => Line.other (indent t)).filterMap Line.field = [] := by
        rw [List.filterMap_map, List.filterMap_eq_nil_iff]
        exact fun _ _ => rfl
      rw [entryLines, List.filterMap_cons, hmore]
      rfl
    | mapping fields =>
      rw [entriesFields]
      · refine congrArg (· ++ entriesFields entries) ?_
        rw [← hnode]
        cases fields with
        | nil => rfl
        | cons field fields =>
          change ((Node.lines _).map (Line.indented ∘ Line.within key)).filterMap Line.field = _
          rw [← List.map_map, filterMap_indented, filterMap_within]
      · exact fun s h => nomatch h
    | sequence items =>
      rw [entriesFields]
      · refine congrArg (· ++ entriesFields entries) ?_
        rw [← hnode]
        cases items with
        | nil => rfl
        | cons item items => exact filterMap_within
      · exact fun s h => nomatch h

theorem filterMap_itemsLines (h : ∀ item ∈ items, item.lines.filterMap Line.field = item.fields) :
    (itemsLines items).filterMap Line.field = itemsFields items := by
  induction items with
  | nil => rfl
  | cons item items ih =>
    obtain ⟨hitem, hitems⟩ := List.forall_mem_cons.mp h
    rw [itemsLines, List.filterMap_append, ih hitems, filterMap_hang, hitem, itemsFields]

theorem filterMap_lines (node : Node) : node.lines.filterMap Line.field = node.fields := by
  induction node using Node.inductionOn with
  | scalar s =>
    rw [Node.lines, List.filterMap_cons, filterMap_other]
    rfl
  | mapping entries ih =>
    cases entries with
    | nil => rfl
    | cons entry entries => exact filterMap_entriesLines ih
  | sequence items ih =>
    cases items with
    | nil => rfl
    | cons item items => exact filterMap_itemsLines ih

/-! ## Lines below -/

/-- A line that does not begin in the first column, or begins an item there. -/
def Below (text : Text) : Prop := text = [] ∨ text.head? = some ' ' ∨ text.head? = some '-'

theorem below_indent (text : Text) : Below (indent text) := by
  unfold indent
  split
  · exact .inl rfl
  · exact .inr (.inl rfl)

theorem below_hang (h : line ∈ hang lines) : Below line.text := by
  cases lines with
  | nil => cases h
  | cons first lines =>
    rcases List.mem_cons.mp h with rfl | h
    · exact .inr (.inr rfl)
    · obtain ⟨line, -, rfl⟩ := List.mem_map.mp h
      exact below_indent line.text

theorem below_itemsLines (h : line ∈ itemsLines items) : Below line.text := by
  induction items with
  | nil => cases h
  | cons item items ih => exact (List.mem_append.mp h).elim below_hang ih

theorem entryLines_cons (key : Text) (node : Node) : ∃ first rest,
    entryLines key node.lines node = first :: rest ∧ (∃ text, first.text = key ++ ':' :: text) ∧
      ∀ line ∈ rest, Below line.text := by
  cases node with
  | scalar s =>
    refine ⟨_, _, rfl, ⟨_, rfl⟩, fun line h => ?_⟩
    obtain ⟨text, -, rfl⟩ := List.mem_map.mp h
    exact below_indent text
  | mapping entries =>
    cases entries with
    | nil => exact ⟨_, [], rfl, ⟨_, rfl⟩, List.forall_mem_nil _⟩
    | cons entry entries =>
      refine ⟨_, _, rfl, ⟨_, rfl⟩, fun line h => ?_⟩
      obtain ⟨line, -, rfl⟩ := List.mem_map.mp h
      exact below_indent line.text
  | sequence items =>
    cases items with
    | nil => exact ⟨_, [], rfl, ⟨_, rfl⟩, List.forall_mem_nil _⟩
    | cons item items =>
      refine ⟨_, _, rfl, ⟨_, rfl⟩, fun line h => ?_⟩
      obtain ⟨line, hline, rfl⟩ := List.mem_map.mp h
      change Below line.text
      exact @below_itemsLines _ (item :: items) hline

/-! ## Where a scalar begins -/

/-- Blanks and dashes stand before a key, and nothing else. -/
def Leads (front : Text) : Prop := ∀ c ∈ front, c = ' ' ∨ c = '-'

def Begins (line : Line) : Prop := ∀ path s, line.field = some (path, s) →
  ∃ front key, path.getLast? = some key ∧ Leads front ∧ line.text = front ++ key ++ ':' :: ' ' :: s.head

theorem Begins.indented (h : Begins line) : Begins line.indented := by
  intro path s hfield
  obtain ⟨front, key, hkey, hfront, htext⟩ := h path s hfield
  refine ⟨' ' :: ' ' :: front, key, hkey, ?_, ?_⟩
  · exact List.forall_mem_cons.mpr ⟨.inl rfl, List.forall_mem_cons.mpr ⟨.inl rfl, hfront⟩⟩
  · change indent line.text = _
    rw [indent, htext, if_neg (by simp)]
    rfl

theorem Begins.within (h : Begins line) : Begins (line.within key) := by
  intro path s hfield
  obtain ⟨⟨path', s'⟩, hfield', heq⟩ := Option.map_eq_some_iff.mp hfield
  cases heq
  obtain ⟨front, key', hkey', hfront, htext⟩ := h path' s' hfield'
  refine ⟨front, key', ?_, hfront, htext⟩
  cases path' with
  | nil => cases hkey'
  | cons first path' =>
    change (key :: first :: path').getLast? = some key'
    rwa [List.getLast?_cons_cons]

theorem begins_other (text : Text) : Begins (.other text) := fun _ _ h => nomatch h

theorem begins_hang (h : ∀ line ∈ lines, Begins line) : ∀ line ∈ hang lines, Begins line := by
  cases lines with
  | nil => exact h
  | cons first lines =>
    obtain ⟨hfirst, hlines⟩ := List.forall_mem_cons.mp h
    rw [hang]
    refine List.forall_mem_cons.mpr ⟨fun path s hfield => ?_, fun line hline => ?_⟩
    · obtain ⟨front, key, hkey, hfront, htext⟩ := hfirst path s hfield
      refine ⟨'-' :: ' ' :: front, key, hkey, ?_, congrArg ('-' :: ' ' :: ·) htext⟩
      exact List.forall_mem_cons.mpr ⟨.inr rfl, List.forall_mem_cons.mpr ⟨.inl rfl, hfront⟩⟩
    · obtain ⟨line, hline', rfl⟩ := List.mem_map.mp hline
      exact (hlines line hline').indented

theorem begins_entryLines (h : ∀ line ∈ node.lines, Begins line) :
    ∀ line ∈ entryLines key node.lines node, Begins line := by
  intro line hline
  cases node with
  | scalar s =>
    rcases List.mem_cons.mp hline with rfl | hline
    · intro path s' hfield
      cases hfield
      exact ⟨[], key, rfl, List.forall_mem_nil _, rfl⟩
    · obtain ⟨text, -, rfl⟩ := List.mem_map.mp hline
      exact begins_other _
  | mapping entries =>
    cases entries with
    | nil => exact List.mem_singleton.mp hline ▸ begins_other _
    | cons entry entries =>
      rcases List.mem_cons.mp hline with rfl | hline
      · exact begins_other _
      · obtain ⟨line, hmem, rfl⟩ := List.mem_map.mp hline
        exact (h line hmem).within.indented
  | sequence items =>
    cases items with
    | nil => exact List.mem_singleton.mp hline ▸ begins_other _
    | cons item items =>
      rcases List.mem_cons.mp hline with rfl | hline
      · exact begins_other _
      · obtain ⟨line, hmem, rfl⟩ := List.mem_map.mp hline
        exact (h line hmem).within

theorem begins_entriesLines (h : ∀ entry ∈ entries, ∀ line ∈ entry.2.lines, Begins line) :
    ∀ line ∈ entriesLines entries, Begins line := by
  induction entries with
  | nil => exact List.forall_mem_nil _
  | cons entry entries ih =>
    obtain ⟨hentry, hentries⟩ := List.forall_mem_cons.mp h
    rw [entriesLines]
    exact fun line hline => (List.mem_append.mp hline).elim (begins_entryLines hentry line) (ih hentries line)

theorem begins_lines (node : Node) : ∀ line ∈ node.lines, Begins line := by
  induction node using Node.inductionOn with
  | scalar s =>
    rw [Node.lines]
    refine List.forall_mem_cons.mpr ⟨begins_other _, fun line hline => ?_⟩
    obtain ⟨text, -, rfl⟩ := List.mem_map.mp hline
    exact begins_other text
  | mapping entries ih =>
    cases entries with
    | nil => exact fun line hline => List.mem_singleton.mp hline ▸ begins_other _
    | cons entry entries => exact begins_entriesLines ih
  | sequence items ih =>
    cases items with
    | nil => exact fun line hline => List.mem_singleton.mp hline ▸ begins_other _
    | cons item items =>
      rw [Node.lines]
      generalize item :: items = items at ih ⊢
      induction items with
      | nil => exact List.forall_mem_nil _
      | cons item items ih' =>
        obtain ⟨hitem, hitems⟩ := List.forall_mem_cons.mp ih
        rw [itemsLines]
        exact fun line hline =>
          (List.mem_append.mp hline).elim (begins_hang hitem line) (ih' hitems line)

end ClusterState.Data.BlockDocument
