import ClusterState.Data.Checks
import ClusterState.Migrations.Rendering

/-! # Legible documents

A job is found if nothing in its document looks like a separator, and if the image of its first
container is the first thing that looks like an image.
-/

namespace ClusterState.Migrations

open Data.PythonText Data.BlockDocument

def readsImage (text : Text) : Bool := isImageLine text && afterColon text ≠ []

def ofContainer (line : Line) : Bool := line.field.any fun field => Document.imagePaths.contains field.1

structure Legible (d : Document) : Prop where
  unbroken : ∀ line ∈ d.lines, ¬ separator <:+: line.text
  kind : ∀ node, d.entries.lookup "kind".toList = some node → Bare node
  name : d.kind = some "Job".toList → ∀ node, d.nameNode = some node → Bare node
  /-- The first line that has a container's image, or could be read as one, is both. -/
  image : d.kind = some "Job".toList → d.name.isSome → ∀ line,
    d.lines.find? (fun line => ofContainer line || readsImage line.text) = some line →
      ofContainer line = true ∧ readsImage line.text = true ∧
        ∃ path text, line.field = some (path, .plain text []) ∧ strip text = text

/-! ## The image -/

section Find

variable {α : Type} {l : List α} {p q : α → Bool} {a : α}

theorem find?_of_or (h : l.find? (fun a => p a || q a) = some a) (hp : p a = true) :
    l.find? p = some a := by
  obtain ⟨-, front, back, rfl, hfront⟩ := List.find?_eq_some_iff_append.mp h
  refine List.find?_eq_some_iff_append.mpr ⟨hp, front, back, rfl, fun b hb => ?_⟩
  have hnot := hfront b hb
  rw [Bool.not_or, Bool.and_eq_true] at hnot
  exact hnot.1

end Find

variable {scan : Scan} {d : Document} {docs : List Document} {text : Text}

theorem scan_image (lines : List Text) : (lines.foldl scanLine scan).image =
    if scan.image = [] then ((lines.find? readsImage).map afterColon).getD [] else scan.image := by
  induction lines generalizing scan with
  | nil =>
    split
    · assumption
    · rfl
  | cons line lines ih =>
    rw [List.foldl_cons, ih, scanLine_image, List.find?_cons, readsImage]
    by_cases hempty : scan.image = []
    · cases hline : isImageLine line with
      | false => simp [hempty]
      | true =>
        by_cases hnil : afterColon line = []
        · simp [hempty, hnil]
        · simp [hempty, hnil]
    · simp [hempty]

def Document.readImage (d : Document) : Option Text :=
  ((d.lines.map Line.text).find? readsImage).map afterColon

theorem readImage_ne_nil (h : d.readImage = some text) : text ≠ [] := by
  obtain ⟨line, hline, rfl⟩ := Option.map_eq_some_iff.mp h
  have hreads := List.find?_some hline
  rw [readsImage, Bool.and_eq_true, decide_eq_true_eq] at hreads
  exact hreads.2

theorem name_ne_nil (hname : ∀ node, d.nameNode = some node → Bare node) (h : d.name = some text) :
    text ≠ [] := by
  obtain ⟨node, hnode, htext⟩ := Option.bind_eq_some_iff.mp h
  obtain ⟨value, -, hvalue, -, hne⟩ := text?_bare (hname node hnode)
  cases hvalue.symm.trans htext
  exact hne

theorem lines_text (d : Document) : splitlines d.text = d.lines.map Line.text := by
  have hwritten : d.text = (d.lines.map Line.text).flatMap (· ++ ['\n']) := by
    rw [Document.text, written, List.flatMap_map]
  rw [hwritten]
  refine splitlines_terminated fun text htext => ?_
  obtain ⟨line, hline, rfl⟩ := List.mem_map.mp htext
  exact d.solid line hline

theorem parseDocument_text (hkind : ∀ node, d.entries.lookup "kind".toList = some node → Bare node)
    (hname : d.kind = some "Job".toList → ∀ node, d.nameNode = some node → Bare node) :
    parseDocument d.text = if d.kind = some "Job".toList then
      d.name.bind fun name => d.readImage.map fun image => (name, image) else none := by
  obtain ⟨final, hfinal⟩ : ∃ final, (d.lines.map Line.text).foldl scanLine {} = final := ⟨_, rfl⟩
  have hfinalKind : final.kind = d.kind.getD [] :=
    hfinal ▸ scan_kind (fun entry hentry => (d.keys entry hentry).1) d.distinct hkind
  have hfinalName : d.kind = some "Job".toList → final.name = d.name.getD [] := fun hjob =>
    hfinal ▸ scan_name d.keys d.distinct d.metadata (hname hjob)
  have hfinalImage : final.image = d.readImage.getD [] := hfinal ▸ scan_image (d.lines.map Line.text)
  rw [parseDocument, lines_text, hfinal]
  by_cases hjob : d.kind = some "Job".toList
  · have hname' := hfinalName hjob
    rw [hjob] at hfinalKind
    rw [if_pos hjob]
    cases hread : d.name with
    | none =>
      rw [hread] at hname'
      exact if_neg fun h => h.2.1 hname'
    | some name =>
      rw [hread] at hname'
      cases himage : d.readImage with
      | none =>
        rw [himage] at hfinalImage
        exact if_neg fun h => h.2.2 hfinalImage
      | some image =>
        rw [himage] at hfinalImage
        have hne := name_ne_nil (hname hjob) hread
        refine (if_pos ⟨hfinalKind, hname' ▸ hne, hfinalImage ▸ readImage_ne_nil himage⟩).trans ?_
        rw [hname', hfinalImage]
        rfl
  · rw [if_neg hjob]
    refine if_neg fun h => hjob ?_
    cases hread : d.kind with
    | none =>
      rw [hread] at hfinalKind
      exact absurd (hfinalKind.symm.trans h.1) (by decide)
    | some kind =>
      rw [hread] at hfinalKind
      exact congrArg some (hfinalKind.symm.trans h.1)

theorem parseDocument_hidden (hkind : ∀ node, d.entries.lookup "kind".toList = some node → Bare node)
    (hname : d.kind = some "Job".toList → ∀ node, d.nameNode = some node → Bare node)
    (himage : ∀ line ∈ d.lines, readsImage line.text = false) : parseDocument d.text = none := by
  have hread : d.readImage = none := by
    rw [Document.readImage, Option.map_eq_none_iff, List.find?_eq_none]
    intro text htext
    obtain ⟨line, hline, rfl⟩ := List.mem_map.mp htext
    rw [himage line hline]
    exact Bool.false_ne_true
  rw [parseDocument_text hkind hname, hread]
  split
  · cases d.name <;> rfl
  · rfl

/-- A single document is read right exactly if the first image that is read of it is that of its
first container, if it has one. -/
theorem parseDocument_eq_job (hkind : ∀ node, d.entries.lookup "kind".toList = some node → Bare node)
    (hname : d.kind = some "Job".toList → ∀ node, d.nameNode = some node → Bare node) :
    parseDocument d.text = d.job ↔ (d.kind = some "Job".toList → d.name.isSome →
      d.readImage = d.images.head?.map Scalar.value) := by
  rw [parseDocument_text hkind hname, Document.job]
  by_cases hjob : d.kind = some "Job".toList
  · rw [if_pos hjob, if_pos hjob]
    cases d.name with
    | none => exact iff_of_true rfl fun _ h => nomatch h
    | some name =>
      have hpair : Function.Injective fun image : Text => (name, image) := Prod.mk_right_injective name
      have himages : (d.images.head?.map fun image => (name, image.value)) =
          (d.images.head?.map Scalar.value).map fun image => (name, image) := by
        rw [Option.map_map]
        rfl
      rw [Option.bind_some, Option.bind_some, himages, (Option.map_injective hpair).eq_iff]
      exact ⟨fun h _ _ => h, fun h => h hjob rfl⟩
  · rw [if_neg hjob, if_neg hjob]
    exact iff_of_true rfl fun h => absurd h hjob

/-! ## Images of containers -/

theorem images_head? (d : Document) : d.images.head? =
    (d.lines.find? ofContainer).bind fun line => line.field.map Prod.snd := by
  have hfields : d.lines.filterMap Line.field = entriesFields d.entries :=
    filterMap_entriesLines fun entry _ => filterMap_lines entry.2
  rw [Document.images, ← hfields]
  generalize d.lines = lines
  induction lines with
  | nil => rfl
  | cons line lines ih =>
    rw [List.filterMap_cons, List.find?_cons, ofContainer]
    cases hfield : line.field with
    | none => exact ih
    | some field =>
      rw [List.filter_cons, Option.any_some]
      cases hpath : Document.imagePaths.contains field.1 with
      | false =>
        rw [if_neg Bool.false_ne_true]
        exact ih
      | true =>
        rw [if_pos rfl, Option.bind_some, hfield]
        rfl

theorem afterColon_field {line : Line} (hline : line ∈ d.lines) (hcontainer : ofContainer line = true)
    {path : List Text} (hfield : line.field = some (path, .plain text [])) (hstrip : strip text = text) :
    afterColon line.text = text := by
  obtain ⟨front, key, hkey, hfront, htext⟩ :=
    begins_entriesLines (fun entry _ => begins_lines entry.2) line hline path _ hfield
  have hlast : ∀ path ∈ Document.imagePaths, path.getLast? = some "image".toList := by decide
  rw [ofContainer, hfield, Option.any_some, List.contains_iff_mem] at hcontainer
  cases hkey.symm.trans (hlast path hcontainer)
  rw [htext]
  refine afterColon_append (fun hmem => ?_) hstrip
  rcases List.mem_append.mp hmem with hmem | hmem
  · exact (hfront _ hmem).elim (by decide) (by decide)
  · exact absurd hmem (by decide)

theorem Legible.readImage (h : Legible d) (hjob : d.kind = some "Job".toList) (hname : d.name.isSome) :
    d.readImage = d.images.head?.map Scalar.value := by
  rw [Document.readImage, List.find?_map, images_head?]
  cases hfound : d.lines.find? (fun line => ofContainer line || readsImage line.text) with
  | none =>
    rw [List.find?_eq_none] at hfound
    have hcontainer : d.lines.find? ofContainer = none :=
      List.find?_eq_none.mpr fun line hline hof => hfound line hline (by rw [hof, Bool.true_or])
    have hreads : d.lines.find? (readsImage ∘ Line.text) = none :=
      List.find?_eq_none.mpr fun line hline hread => hfound line hline (by
        rw [Bool.or_eq_true]
        exact .inr hread)
    rw [hcontainer, hreads]
    rfl
  | some line =>
    obtain ⟨hcontainer, hread, path, text, hfield, hstrip⟩ := h.image hjob hname line hfound
    have hfirst := find?_of_or hfound hcontainer
    have hreads : d.lines.find? (readsImage ∘ Line.text) = some line := by
      refine find?_of_or (q := ofContainer) ?_ hread
      rw [← hfound]
      exact congrArg (d.lines.find? ·) (funext fun _ => Bool.or_comm _ _)
    rw [hfirst, hreads, Option.bind_some, hfield]
    change some (afterColon line.text) = some ([' '].intercalate [text])
    rw [afterColon_field (List.mem_of_find?_eq_some hfound) hcontainer hfield hstrip,
      List.intercalate_singleton]

theorem Legible.parseDocument (h : Legible d) : parseDocument d.text = d.job :=
  (parseDocument_eq_job h.kind h.name).mpr h.readImage

/-! ## Streams -/

theorem parseDocument_newline (text : Text) : parseDocument ('\n' :: text) = parseDocument text := by
  have hlines : splitlines ('\n' :: text) = [] :: splitlines text :=
    @linesFrom_append [] _ (List.forall_mem_nil _) []
  rw [Migrations.parseDocument, hlines]
  rfl

theorem splitByFrom_text (h : ∀ line ∈ d.lines, ¬ separator <:+: line.text) (front rest : Text) :
    splitByFrom separator front 0 (d.text ++ rest) = splitByFrom separator (front ++ d.text) 0 rest := by
  have hwritten : d.text = (d.lines.map Line.text).flatMap (· ++ ['\n']) := by
    rw [Document.text, written, List.flatMap_map]
  rw [hwritten]
  refine splitByFrom_lines (by decide) (by decide) fun text htext => ?_
  obtain ⟨line, hline, rfl⟩ := List.mem_map.mp htext
  exact h line hline

theorem parse_pieces (h : ∀ d ∈ docs, ∀ line ∈ d.lines, ¬ separator <:+: line.text) {front : Text}
    (hfront : ∀ text, parseDocument (front ++ text) = parseDocument text) :
    (splitByFrom separator front 0 (stream docs)).filterMap parseDocument =
      docs.filterMap fun d => parseDocument d.text := by
  induction docs generalizing front with
  | nil =>
    have hnone : parseDocument front = none := by
      rw [← List.append_nil front, hfront]
      rfl
    rw [stream, splitByFrom, List.filterMap_cons, hnone]
    rfl
  | cons d docs ih =>
    obtain ⟨hd, hdocs⟩ := List.forall_mem_cons.mp h
    cases docs with
    | nil =>
      have hpiece := splitByFrom_text hd front []
      rw [List.append_nil] at hpiece
      rw [stream, hpiece, splitByFrom, List.filterMap_cons, hfront, List.filterMap_cons]
      rfl
    | cons d' docs =>
      have hnewline : splitByFrom separator [] 0 ('\n' :: stream (d' :: docs)) =
          splitByFrom separator ['\n'] 0 (stream (d' :: docs)) :=
        @splitByFrom_line _ [] _ _ (by decide) (by decide) (by decide)
      rw [stream, List.append_assoc, splitByFrom_text hd, splitByFrom_sep (by decide), List.filterMap_cons,
        hfront, hnewline, List.filterMap_cons, @ih hdocs ['\n'] parseDocument_newline]
      exact List.cons_ne_nil d' docs

/-! ## The checks -/

section Checks

variable {render : Text → Except Refusal Text} {path rendered : Text} {jobs : List (Text × Text)}
  {job : Text × Text}

theorem forM_ok {α : Type} {xs : List α} {f : α → Except Refusal Unit} (h : xs.forM f = .ok ()) :
    ∀ x ∈ xs, f x = .ok () := by
  induction xs with
  | nil => exact List.forall_mem_nil _
  | cons x xs ih =>
    obtain ⟨⟨⟩, hx, hxs⟩ := Data.bind_eq_ok.mp h
    exact List.forall_mem_cons.mpr ⟨hx, ih hxs⟩

theorem validate_ok {name image : Text} (h : validateJobNameMatchesImage name image = .ok ()) :
    ':' ∈ image ∧ NamesTag name (imageTag image) := by
  unfold validateJobNameMatchesImage at h
  split at h
  · cases h
  · rename_i hcolon
    split at h
    · exact ⟨not_not.mp hcolon, ‹_›⟩
    · cases h

theorem checkTargets_ok (h : checkTargets render = .ok ()) (hpath : path ∈ TARGETS)
    (hrender : render path = .ok rendered) :
    ∀ job ∈ parseJobDocuments rendered, ':' ∈ job.2 ∧ NamesTag job.1 (imageTag job.2) := by
  have hcheck := forM_ok h path hpath
  obtain ⟨rendered', hrendered, hrest⟩ := Data.bind_eq_ok.mp hcheck
  cases hrender.symm.trans hrendered
  dsimp only at hrest
  split at hrest
  · cases hrest
  · exact fun job hjob => validate_ok (forM_ok hrest job hjob)

end Checks

/-- All jobs of legible documents are found, and with what they are found they pass the check. -/
theorem parseJobDocuments_legible (h : ∀ d ∈ docs, Legible d) :
    parseJobDocuments (stream docs) = docs.filterMap Document.job ∧
      ∀ render path, path ∈ TARGETS → render path = .ok (stream docs) → checkTargets render = .ok () →
        ∀ d ∈ docs, ∀ job, d.job = some job → ':' ∈ job.2 ∧ NamesTag job.1 (imageTag job.2) := by
  have hparse : parseJobDocuments (stream docs) = docs.filterMap Document.job := by
    refine (@parse_pieces _ (fun d hd => (h d hd).unbroken) [] fun _ => rfl).trans ?_
    exact List.filterMap_congr fun d hd => (h d hd).parseDocument
  refine ⟨hparse, fun render path hpath hrender hcheck d hd job hjob => ?_⟩
  apply checkTargets_ok hcheck hpath hrender job
  rw [hparse, List.mem_filterMap]
  exact ⟨d, hd, hjob⟩

def word (s : String) : Node := .scalar (.plain s.toList [])

def entriesOf (kind name : String) (container : List (Text × Node)) : List (Text × Node) :=
  [("kind".toList, word kind), ("metadata".toList, .mapping [("name".toList, word name)]),
    ("spec".toList, .mapping [("template".toList, .mapping [("spec".toList,
      .mapping [("containers".toList, .sequence [.mapping container])])])])]

theorem solid_of_all {lines : List Line}
    (h : (lines.all fun line => line.text.all fun c => !endsLine c) = true) :
    ∀ line ∈ lines, ∀ c ∈ line.text, endsLine c = false := by
  intro line hline c hc
  have hline' := List.all_eq_true.mp (List.all_eq_true.mp h line hline) c hc
  rwa [Bool.not_eq_true'] at hline'

/-- The container has arguments before its image. -/
def seenJob : Document where
  entries := entriesOf "Job" "feedback-v2"
    [("args".toList, .sequence [word "up"]), ("image".toList, word "feedback:v2")]
  solid := solid_of_all (by decide)
  keys := by decide
  distinct := by decide
  metadata node h := by
    cases h
    exact ⟨_, rfl, by decide, by decide⟩

def seenCleanup : Document where
  entries := entriesOf "Job" "cleanup-v3"
    [("args".toList, .sequence [word "all"]), ("image".toList, word "cleanup:v3")]
  solid := solid_of_all (by decide)
  keys := by decide
  distinct := by decide
  metadata node h := by
    cases h
    exact ⟨_, rfl, by decide, by decide⟩

/-- No job, although it has a name and an image. -/
def deployment : Document where
  entries := entriesOf "Deployment" "feedback" [("image".toList, word "feedback:v1")]
  solid := solid_of_all (by decide)
  keys := by decide
  distinct := by decide
  metadata node h := by
    cases h
    exact ⟨_, rfl, by decide, by decide⟩

/-- The container begins with its image. -/
def unseenJob : Document where
  entries := entriesOf "Job" "gitlab-v1" [("image".toList, word "gitlab:v2"), ("name".toList, word "migrations")]
  solid := solid_of_all (by decide)
  keys := by decide
  distinct := by decide
  metadata node h := by
    cases h
    exact ⟨_, rfl, by decide, by decide⟩

theorem seenJob_legible : Legible seenJob where
  unbroken := by decide
  kind node h := by
    cases h
    exact ⟨_, rfl, by decide, by decide⟩
  name _ node h := by
    cases h
    exact ⟨_, rfl, by decide, by decide⟩
  image _ _ line h := by
    cases h
    exact ⟨by decide, by decide, _, _, rfl, by decide⟩

theorem seenCleanup_legible : Legible seenCleanup where
  unbroken := by decide
  kind node h := by
    cases h
    exact ⟨_, rfl, by decide, by decide⟩
  name _ node h := by
    cases h
    exact ⟨_, rfl, by decide, by decide⟩
  image _ _ line h := by
    cases h
    exact ⟨by decide, by decide, _, _, rfl, by decide⟩

theorem deployment_legible : Legible deployment where
  unbroken := by decide
  kind node h := by
    cases h
    exact ⟨_, rfl, by decide, by decide⟩
  name hjob := absurd hjob (by decide)
  image hjob := absurd hjob (by decide)

/-- The deployment is left out, and both jobs are checked. -/
theorem seen_job_checked : parseJobDocuments (stream [seenJob, deployment, seenCleanup]) =
      [("feedback-v2".toList, "feedback:v2".toList), ("cleanup-v3".toList, "cleanup:v3".toList)] ∧
    ∀ render, render "apps/feedback".toList = .ok (stream [seenJob, deployment, seenCleanup]) →
      checkTargets render = .ok () →
        NamesTag "feedback-v2".toList "v2".toList ∧ NamesTag "cleanup-v3".toList "v3".toList := by
  obtain ⟨hparse, hchecks⟩ := @parseJobDocuments_legible [seenJob, deployment, seenCleanup]
    (by simp [seenJob_legible, deployment_legible, seenCleanup_legible])
  have hjob : seenJob.job = some ("feedback-v2".toList, "feedback:v2".toList) := by decide
  have hcleanup : seenCleanup.job = some ("cleanup-v3".toList, "cleanup:v3".toList) := by decide
  have hnone : deployment.job = none := by decide
  refine ⟨hparse.trans ?_, fun render hrender hcheck => ?_⟩
  · rw [List.filterMap_cons_some hjob, List.filterMap_cons_none hnone,
      List.filterMap_cons_some hcleanup, List.filterMap_nil]
  · have hall := hchecks render _ (by decide) hrender hcheck
    exact ⟨(hall seenJob (by simp) _ hjob).2, (hall seenCleanup (by simp) _ hcleanup).2⟩

/-- The second job is named for another tag than its image has, and is not looked at. -/
theorem parseJobDocuments_misses : ¬ parseJobDocuments (stream [seenJob, unseenJob]) =
      [seenJob, unseenJob].filterMap Document.job ∧
    (∃ render, render "apps/gitlab".toList = .ok (stream [seenJob, unseenJob]) ∧
      checkTargets render = .ok ()) ∧
    unseenJob.job = some ("gitlab-v1".toList, "gitlab:v2".toList) ∧
    ¬ NamesTag "gitlab-v1".toList (imageTag "gitlab:v2".toList) := by
  have hpassed : (checkTargets fun _ => .ok (stream [seenJob, unseenJob])).isOk = true := by decide +kernel
  refine ⟨by decide +kernel, ⟨fun _ => .ok _, rfl, ?_⟩, by decide +kernel, by decide⟩
  cases hcheck : checkTargets fun _ => .ok (stream [seenJob, unseenJob]) with
  | ok => rfl
  | error refusal =>
    rw [hcheck] at hpassed
    cases hpassed

end ClusterState.Migrations
