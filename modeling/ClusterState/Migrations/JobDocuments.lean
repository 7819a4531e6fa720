import ClusterState.Data.PythonText

/-! # Versioned migration jobs

`parse_job_documents` reads rendered documents line by line. What it finds is what the loop of
`main` checks.
-/

namespace ClusterState.Migrations

open Data.PythonText

structure Scan where
  kind : Text := []
  name : Text := []
  image : Text := []
  inMetadata : Bool := false

/-- `line.split(":", 1)[1].strip()` -/
def afterColon (line : Text) : Text := strip ((line.dropWhile (· ≠ ':')).drop 1)

/-- `re.match(r"^\s*image:\s*", line)` -/
def isImageLine (line : Text) : Bool := "image:".toList.isPrefixOf (line.dropWhile isSpace)

def scanLine (scan : Scan) (line : Text) : Scan :=
  if strip line = [] then scan
  else
    let scan := if line.head? ≠ some ' ' then { scan with inMetadata := false } else scan
    if "kind:".toList.isPrefixOf line then { scan with kind := afterColon line }
    else if line = "metadata:".toList then { scan with inMetadata := true }
    else if scan.inMetadata && "  name:".toList.isPrefixOf line && scan.name = [] then
      { scan with name := afterColon line }
    else if isImageLine line && scan.image = [] then { scan with image := afterColon line }
    else scan

def parseDocument (document : Text) : Option (Text × Text) :=
  let scan := (splitlines document).foldl scanLine {}
  if scan.kind = "Job".toList ∧ scan.name ≠ [] ∧ scan.image ≠ [] then some (scan.name, scan.image)
  else none

def separator : Text := "---".toList

def parseJobDocuments (rendered : Text) : List (Text × Text) :=
  (splitBy separator rendered).filterMap parseDocument

inductive Refusal
  | unrendered (message : Text)
  | noJob (path : Text)
  | missingTag (name image : Text)
  | otherTag (name tag image : Text)

/-- `image.rsplit(":", 1)[1]` -/
def imageTag (image : Text) : Text := image.rtakeWhile (· ≠ ':')

/-- The name has the tag between dashes, or at its end. -/
def NamesTag (name tag : Text) : Prop := '-' :: tag ++ ['-'] <:+: name ∨ '-' :: tag <:+ name

instance (name tag : Text) : Decidable (NamesTag name tag) := by
  unfold NamesTag
  infer_instance

def validateJobNameMatchesImage (name image : Text) : Except Refusal Unit :=
  if ':' ∉ image then .error (.missingTag name image)
  else if NamesTag name (imageTag image) then .ok ()
  else .error (.otherTag name (imageTag image) image)

def TARGETS : List Text := ["apps/gitlab".toList, "apps/feedback".toList]

def checkTarget (render : Text → Except Refusal Text) (path : Text) : Except Refusal Unit := do
  let jobs := parseJobDocuments (← render path)
  if jobs = [] then throw (.noJob path)
  jobs.forM fun job => validateJobNameMatchesImage job.1 job.2

def checkTargets (render : Text → Except Refusal Text) : Except Refusal Unit :=
  TARGETS.forM (checkTarget render)

/-! ## Lines -/

variable {scan : Scan} {line text : Text}

theorem dropWhile_of_strip (h : strip line = []) : line.dropWhile isSpace = [] := by
  rw [strip, List.rdropWhile_eq_nil_iff] at h
  by_contra hne
  have hfirst := List.head_dropWhile_not isSpace hne
  rw [h _ (List.head_mem hne)] at hfirst
  cases hfirst

theorem not_isImageLine_of_strip (h : strip line = []) : isImageLine line = false := by
  rw [isImageLine, dropWhile_of_strip h]
  rfl

theorem not_isImageLine_of_start {start more : Text} {c : Char} (h : start.isPrefixOf line = true)
    (hstart : start.dropWhile isSpace = c :: more) (hc : c ≠ 'i') : isImageLine line = false := by
  obtain ⟨back, rfl⟩ := List.isPrefixOf_iff_prefix.mp h
  rw [isImageLine, List.dropWhile_append, hstart, Bool.eq_false_iff]
  intro hfront
  exact hc (List.cons_prefix_cons.mp (List.isPrefixOf_iff_prefix.mp hfront)).1.symm

theorem strip_ne_nil {c : Char} (hmem : c ∈ line) (hc : isSpace c = false) : strip line ≠ [] := by
  intro h
  have hall := List.dropWhile_eq_nil_iff.mp (dropWhile_of_strip h) c hmem
  rw [hc] at hall
  cases hall

theorem mem_of_start {start : Text} {c : Char} (h : start.isPrefixOf line = true) (hc : c ∈ start) :
    c ∈ line := (List.isPrefixOf_iff_prefix.mp h).subset hc

/-- The scan as it is when the line has been looked at for the end of the metadata. -/
def dedent (scan : Scan) (line : Text) : Scan :=
  if line.head? ≠ some ' ' then { scan with inMetadata := false } else scan

theorem dedent_kind : (dedent scan line).kind = scan.kind := by
  unfold dedent
  split <;> rfl

theorem dedent_name : (dedent scan line).name = scan.name := by
  unfold dedent
  split <;> rfl

theorem dedent_image : (dedent scan line).image = scan.image := by
  unfold dedent
  split <;> rfl

theorem dedent_inMetadata :
    (dedent scan line).inMetadata = (scan.inMetadata && line.head? == some ' ') := by
  unfold dedent
  split
  · rename_i hhead
    rw [beq_eq_false_iff_ne.mpr hhead, Bool.and_false]
  · rename_i hhead
    rw [beq_iff_eq.mpr (not_not.mp hhead), Bool.and_true]

theorem scanLine_nonblank (h : strip line ≠ []) : scanLine scan line =
    if "kind:".toList.isPrefixOf line then { dedent scan line with kind := afterColon line }
    else if line = "metadata:".toList then { dedent scan line with inMetadata := true }
    else if (dedent scan line).inMetadata && "  name:".toList.isPrefixOf line &&
        (dedent scan line).name = [] then
      { dedent scan line with name := afterColon line }
    else if isImageLine line && (dedent scan line).image = [] then
      { dedent scan line with image := afterColon line }
    else dedent scan line := if_neg h

theorem scanLine_kind : (scanLine scan line).kind =
    if "kind:".toList.isPrefixOf line then afterColon line else scan.kind := by
  by_cases hblank : strip line = []
  · have hkind : "kind:".toList.isPrefixOf line = false := by
      rw [Bool.eq_false_iff]
      exact fun h => strip_ne_nil (mem_of_start h (by decide : 'k' ∈ "kind:".toList)) (by decide) hblank
    rw [scanLine, if_pos hblank, hkind, if_neg Bool.false_ne_true]
  · rw [scanLine_nonblank hblank]
    split
    · rfl
    · split
      · exact dedent_kind
      · split
        · exact dedent_kind
        · split <;> exact dedent_kind

theorem scanLine_inMetadata (h : strip line ≠ []) : (scanLine scan line).inMetadata =
    if line = "metadata:".toList then true else scan.inMetadata && line.head? == some ' ' := by
  rw [scanLine_nonblank h, ← dedent_inMetadata]
  split
  · rename_i hkind
    rw [if_neg]
    rintro rfl
    exact absurd hkind (by decide)
  · split
    · rfl
    · split
      · rfl
      · split <;> rfl

theorem scanLine_name : (scanLine scan line).name =
    if scan.inMetadata && "  name:".toList.isPrefixOf line && scan.name = [] then afterColon line
    else scan.name := by
  by_cases hname : "  name:".toList.isPrefixOf line = true
  · have hblank := strip_ne_nil (mem_of_start hname (by decide : 'n' ∈ "  name:".toList)) (by decide)
    obtain ⟨back, rfl⟩ := List.isPrefixOf_iff_prefix.mp hname
    have hhead : (("  name:".toList ++ back).head? == some ' ') = true := rfl
    rw [scanLine_nonblank hblank, if_neg (by simp), if_neg (by simp), dedent_inMetadata, dedent_name,
      hhead, Bool.and_true]
    split
    · rfl
    · split <;> exact dedent_name
  · rw [Bool.not_eq_true] at hname
    rw [hname, Bool.and_false, Bool.false_and, if_neg Bool.false_ne_true]
    by_cases hblank : strip line = []
    · rw [scanLine, if_pos hblank]
    · rw [scanLine_nonblank hblank, hname, Bool.and_false, Bool.false_and, if_neg Bool.false_ne_true]
      split
      · exact dedent_name
      · split
        · exact dedent_name
        · split <;> exact dedent_name

theorem scanLine_image : (scanLine scan line).image =
    if isImageLine line && scan.image = [] then afterColon line else scan.image := by
  by_cases hblank : strip line = []
  · rw [scanLine, if_pos hblank, not_isImageLine_of_strip hblank, Bool.false_and,
      if_neg Bool.false_ne_true]
  · rw [scanLine_nonblank hblank]
    split
    · rename_i hkind
      have hother := not_isImageLine_of_start hkind (by decide : _ = 'k' :: "ind:".toList) (by decide)
      rw [hother, Bool.false_and, if_neg Bool.false_ne_true]
      exact dedent_image
    · split
      · rename_i hmetadata
        have hother : isImageLine line = false := by
          rw [hmetadata]
          decide
        rw [hother, Bool.false_and, if_neg Bool.false_ne_true]
        exact dedent_image
      · split
        · rename_i hname
          rw [Bool.and_eq_true, Bool.and_eq_true] at hname
          have hother := not_isImageLine_of_start hname.1.2 (by decide : _ = 'n' :: "ame:".toList) (by decide)
          rw [hother, Bool.false_and, if_neg Bool.false_ne_true]
          exact dedent_image
        · rw [dedent_image]
          split
          · rfl
          · exact dedent_image

end ClusterState.Migrations
