import ClusterState.CacheRetention.Unescaping
import ClusterState.Recycler.Prober

/-! # Two readers of one mount table

The prober and the mount service look for the same mounts with parsers of their own. Only
that of the service undoes the escapes of the kernel.
-/

namespace ClusterState.Recycler

open MountManager
open CacheRetention (escapeCodes marked_escapeCodes decodes_unescapeMountInfo)

def dropCR (line : List Char) : List Char :=
  if line.getLast? = some '\r' then line.dropLast else line

/-- `bufio.ScanLines` -/
def scanLines (text : String) : List String :=
  let lines := text.toList.splitOn '\n'
  (if lines.getLast? = some [] then lines.dropLast else lines).map fun line =>
    String.ofList (dropCR line)

/-- The line is that of a `fuse.seaweedfs` mount, with this mount point as its fifth field. -/
def MountsSeaweedFuse (line : List Char) (mountPoint : List Char) : Prop :=
  ∃ head tail, cutSeparator line = some (head, tail) ∧ (fields head)[4]? = some mountPoint ∧
    (fields tail).head? = some "fuse.seaweedfs".toList

def escapes : List (List Char) := ["\\040".toList, "\\011".toList, "\\012".toList, "\\134".toList]

def Escaped (mountPoint : List Char) : Prop := ∃ code ∈ escapes, code <:+: mountPoint

/-! ## Escapes -/

section Escapes

variable {s p : List Char}

theorem escaped_iff : Escaped s ↔ ∃ code ∈ escapeCodes, code.1 <:+: s := by
  have hescapes : escapes = escapeCodes.map Prod.fst := by decide
  simp [Escaped, hescapes]

theorem unescape_eq_or_shorter (s : List Char) :
    (unescapeMountInfo s = s ∧ ¬Escaped s) ∨
      (unescapeMountInfo s).length < s.length ∧ Escaped s := by
  rw [escaped_iff]
  rcases (decodes_unescapeMountInfo s).eq_or_shorter (by decide) with ⟨heq, hnone⟩ | hshorter
  · exact .inl ⟨heq, fun ⟨code, hcode, hinfix⟩ => hnone code hcode hinfix⟩
  · exact .inr hshorter

theorem prefix_unescape_iff (hp : ∀ c ∈ p, c ∉ ['\\', ' ', '\t', '\n']) :
    p <+: unescapeMountInfo s ↔ p <+: s := by
  have hdecodes := decodes_unescapeMountInfo s
  constructor
  · apply hdecodes.prefix_of_prefix
    intro code hcode hmem
    have hdecoded : ∀ code ∈ escapeCodes, code.2 ∈ ['\\', ' ', '\t', '\n'] := by decide
    exact hp code.2 hmem (hdecoded code hcode)
  · rintro ⟨rest, rfl⟩
    have hbackslash : '\\' ∉ p := fun hmem => hp _ hmem (by decide)
    obtain ⟨v, heq, -⟩ := hdecodes.append_inv marked_escapeCodes hbackslash
    exact ⟨v, heq.symm⟩

end Escapes

/-- A shrinking function that maps a set onto itself leaves all of it alone. -/
theorem eq_of_onto {α : Type} {f : List α → List α}
    (hshrinks : ∀ s, f s = s ∨ (f s).length < s.length) {l : List (List α)}
    (honto : ∀ s ∈ l, ∃ t ∈ l, f t = s) : ∀ s ∈ l, f s = s := by
  have hbound : ∀ s ∈ l, s.length ≤ l.flatten.length := fun s hs =>
    (List.sublist_flatten_of_mem hs).length_le
  have hlonger : ∀ n, ∀ s ∈ l, l.flatten.length < s.length + n → f s = s := by
    intro n
    induction n with
    | zero => exact fun s hs hlt => absurd (hbound s hs) (Nat.not_le.mpr hlt)
    | succ n ih =>
      intro s hs hlt
      obtain ⟨t, ht, rfl⟩ := honto s hs
      rcases hshrinks t with heq | hshorter
      · rw [heq, heq]
      · rw [ih t ht (by omega), ih t ht (by omega)]
  intro s hs
  exact hlonger (l.flatten.length + 1) s hs (by omega)

/-! ## Lines -/

section Lines

variable {line : List Char} {mountPoint : List Char} {mp : String} {text : String}

theorem cutSeparator_cons {c : Char} {rest : List Char} (h : ¬[' ', '-', ' '] <+: c :: rest) :
    cutSeparator (c :: rest) = (cutSeparator rest).map fun (head, tail) => (c :: head, tail) := by
  apply cutSeparator.eq_2 c rest
  rintro tail rfl rfl
  exact h ⟨tail, rfl⟩

theorem cutSeparator_cr (line : List Char) : cutSeparator (line ++ ['\r']) =
    (cutSeparator line).map fun (head, tail) => (head, tail ++ ['\r']) := by
  induction line with
  | nil => rfl
  | cons c rest ih =>
    by_cases hsep : [' ', '-', ' '] <+: c :: rest
    · obtain ⟨tail, heq⟩ := hsep
      rw [← heq]
      rfl
    · have hsep' : ¬[' ', '-', ' '] <+: c :: (rest ++ ['\r']) := by
        intro h
        rw [← List.cons_append, List.prefix_concat_iff] at h
        rcases h with heq | hfront
        · have hlast := congrArg List.getLast? heq
          rw [List.getLast?_concat] at hlast
          revert hlast
          decide
        · exact hsep hfront
      rw [List.cons_append, cutSeparator_cons hsep', cutSeparator_cons hsep, ih, Option.map_map,
        Option.map_map]
      rfl

theorem fields_append {s : List Char} {c : Char} (hc : isSpace c = true) :
    fields (s ++ [c]) = fields s := by
  rw [fields, List.splitOnP_append_cons s [] hc, List.filter_append, List.splitOnP_nil]
  exact List.append_nil _

theorem mountsSeaweedFuse_dropCR :
    MountsSeaweedFuse (dropCR line) mountPoint ↔ MountsSeaweedFuse line mountPoint := by
  unfold dropCR
  split
  · rename_i hlast
    have hline : line.dropLast ++ ['\r'] = line := by
      have := List.dropLast_append_getLast? '\r' hlast
      exact this
    have hcut := cutSeparator_cr line.dropLast
    rw [hline] at hcut
    unfold MountsSeaweedFuse
    rw [hcut]
    constructor
    · rintro ⟨head, tail, heq, hfield, htype⟩
      refine ⟨head, tail ++ ['\r'], ?_, hfield, ?_⟩
      · rw [heq]
        rfl
      · rw [fields_append (by decide)]
        exact htype
    · rintro ⟨head, tail, heq, hfield, htype⟩
      obtain ⟨⟨head', tail'⟩, heq', hpair⟩ := Option.map_eq_some_iff.mp heq
      cases hpair
      rw [fields_append (by decide)] at htype
      exact ⟨_, _, heq', hfield, htype⟩
  · rfl

theorem exists_mem_scanLines {Q : List Char → Prop} (hQ : ¬Q []) (hcr : ∀ l, Q (dropCR l) ↔ Q l) :
    (∃ line ∈ scanLines text, Q line.toList) ↔ ∃ line ∈ text.toList.splitOn '\n', Q line := by
  have hmem : ∀ line, Q line →
      (line ∈ (if (text.toList.splitOn '\n').getLast? = some [] then
        (text.toList.splitOn '\n').dropLast else text.toList.splitOn '\n') ↔
        line ∈ text.toList.splitOn '\n') := by
    intro line hline
    split
    · rename_i hlast
      have heq := List.dropLast_append_getLast? [] hlast
      refine ⟨fun h => List.mem_of_mem_dropLast h, fun h => ?_⟩
      rw [← heq, List.mem_append, List.mem_singleton] at h
      exact h.resolve_right fun hnil => hQ (hnil ▸ hline)
    · rfl
  unfold scanLines
  constructor
  · rintro ⟨_, hline, hq⟩
    obtain ⟨line, hmemline, rfl⟩ := List.mem_map.mp hline
    rw [String.toList_ofList] at hq
    have hq' := (hcr line).mp hq
    exact ⟨line, (hmem line hq').mp hmemline, hq'⟩
  · rintro ⟨line, hline, hq⟩
    refine ⟨_, List.mem_map_of_mem ((hmem line hq).mpr hline), ?_⟩
    rw [String.toList_ofList]
    exact (hcr line).mpr hq

/-- A mount point of the pods, as the line has it. -/
def PodMount (text : String) (mountPoint : List Char) : Prop :=
  (∃ line ∈ scanLines text, MountsSeaweedFuse line.toList mountPoint) ∧
    kubeletPodsPrefix.toList <+: mountPoint

theorem mountpointOfLine_eq_some_iff {line : String} : mountpointOfLine line = some mp ↔
    MountsSeaweedFuse line.toList mp.toList ∧ kubeletPodsPrefix.toList <+: mp.toList := by
  constructor
  · intro h
    obtain ⟨⟨head, tail⟩, hcut, h⟩ := Option.bind_eq_some_iff.mp h
    obtain ⟨mountpoint, hfield, h⟩ := Option.bind_eq_some_iff.mp h
    obtain ⟨fstype, htype, h⟩ := Option.bind_eq_some_iff.mp h
    split at h
    · rename_i hboth
      rw [Bool.and_eq_true, decide_eq_true_eq, List.isPrefixOf_iff_prefix] at hboth
      obtain rfl := Option.some.inj h
      rw [String.toList_ofList]
      exact ⟨⟨head, tail, hcut, hfield, hboth.1 ▸ htype⟩, hboth.2⟩
    · cases h
  · rintro ⟨⟨head, tail, hcut, hfield, htype⟩, hfront⟩
    rw [mountpointOfLine]
    refine Option.bind_eq_some_iff.mpr ⟨_, hcut, Option.bind_eq_some_iff.mpr ⟨_, hfield,
      Option.bind_eq_some_iff.mpr ⟨_, htype, ?_⟩⟩⟩
    rw [if_pos, String.ofList_toList]
    rw [Bool.and_eq_true, decide_eq_true_eq, List.isPrefixOf_iff_prefix]
    exact ⟨rfl, hfront⟩

theorem parse_eq_some_iff {line : String} : parseMountInfoLineForSeaweedFuse line = some mp ↔
    ∃ mountPoint, MountsSeaweedFuse line.toList mountPoint ∧
      mp = String.ofList (unescapeMountInfo mountPoint) := by
  constructor
  · intro h
    obtain ⟨⟨head, tail⟩, hcut, h⟩ := Option.bind_eq_some_iff.mp h
    obtain ⟨mountPoint, hfield, h⟩ := Option.bind_eq_some_iff.mp h
    obtain ⟨fsType, htype, h⟩ := Option.bind_eq_some_iff.mp h
    split at h
    · rename_i heq
      exact ⟨mountPoint, ⟨head, tail, hcut, hfield, heq ▸ htype⟩, (Option.some.inj h).symm⟩
    · cases h
  · rintro ⟨mountPoint, ⟨head, tail, hcut, hfield, htype⟩, rfl⟩
    rw [parseMountInfoLineForSeaweedFuse]
    refine Option.bind_eq_some_iff.mpr ⟨_, hcut, Option.bind_eq_some_iff.mpr ⟨_, hfield,
      Option.bind_eq_some_iff.mpr ⟨_, htype, ?_⟩⟩⟩
    rw [if_pos rfl]

theorem mem_parseMountinfo : mp ∈ parseMountinfo text ↔ PodMount text mp.toList := by
  have hnil : ¬MountsSeaweedFuse [] mp.toList := by
    rintro ⟨head, tail, hcut, -⟩
    cases hcut
  have hlines := @exists_mem_scanLines text (MountsSeaweedFuse · mp.toList) hnil
    fun _ => mountsSeaweedFuse_dropCR
  rw [parseMountinfo, List.mem_filterMap, PodMount, hlines]
  constructor
  · rintro ⟨_, hmem, heq⟩
    obtain ⟨line, hline, rfl⟩ := List.mem_map.mp hmem
    obtain ⟨hmounts, hfront⟩ := mountpointOfLine_eq_some_iff.mp heq
    rw [String.toList_ofList] at hmounts
    exact ⟨⟨line, hline, hmounts⟩, hfront⟩
  · rintro ⟨⟨line, hline, hmounts⟩, hfront⟩
    refine ⟨_, List.mem_map_of_mem hline, mountpointOfLine_eq_some_iff.mpr ⟨?_, hfront⟩⟩
    rw [String.toList_ofList]
    exact hmounts

theorem mem_findSeaweedFuseMounts :
    mp ∈ findSeaweedFuseMounts (scanLines text) ∧ kubeletPodsPrefix.toList <+: mp.toList ↔
      ∃ mountPoint, PodMount text mountPoint ∧ mp = String.ofList (unescapeMountInfo mountPoint) := by
  have hclean : ∀ c ∈ kubeletPodsPrefix.toList, c ∉ ['\\', ' ', '\t', '\n'] := by
    rw [kubeletPodsPrefix]
    simp
  rw [findSeaweedFuseMounts, List.mem_eraseDups, List.mem_filterMap]
  constructor
  · rintro ⟨⟨line, hline, heq⟩, hfront⟩
    obtain ⟨mountPoint, hmounts, rfl⟩ := parse_eq_some_iff.mp heq
    rw [String.toList_ofList, prefix_unescape_iff hclean] at hfront
    exact ⟨mountPoint, ⟨⟨line, hline, hmounts⟩, hfront⟩, rfl⟩
  · rintro ⟨mountPoint, ⟨⟨line, hline, hmounts⟩, hfront⟩, rfl⟩
    refine ⟨⟨line, hline, parse_eq_some_iff.mpr ⟨mountPoint, hmounts, rfl⟩⟩, ?_⟩
    rw [String.toList_ofList, prefix_unescape_iff hclean]
    exact hfront

end Lines

/-- The two find the same mounts below the pods directory just when none of them has an escape
in its mount point. -/
theorem readers_agree_iff_no_escape (text : String) :
    (∀ mp, mp ∈ parseMountinfo text ↔
      mp ∈ findSeaweedFuseMounts (scanLines text) ∧ kubeletPodsPrefix.toList <+: mp.toList) ↔
      ∀ mountPoint, PodMount text mountPoint → ¬Escaped mountPoint := by
  constructor
  · intro h
    have honto : ∀ s ∈ (parseMountinfo text).map String.toList,
        ∃ t ∈ (parseMountinfo text).map String.toList, unescapeMountInfo t = s := by
      intro s hs
      obtain ⟨mp, hmp, rfl⟩ := List.mem_map.mp hs
      obtain ⟨mountPoint, hpod, heq⟩ := mem_findSeaweedFuseMounts.mp ((h mp).mp hmp)
      refine ⟨mountPoint, List.mem_map.mpr ⟨String.ofList mountPoint, ?_, ?_⟩, ?_⟩
      · rw [mem_parseMountinfo, String.toList_ofList]
        exact hpod
      · exact String.toList_ofList
      · rw [heq, String.toList_ofList]
    have hshrinks : ∀ s, unescapeMountInfo s = s ∨ (unescapeMountInfo s).length < s.length :=
      fun s => (unescape_eq_or_shorter s).imp And.left And.left
    intro mountPoint hpod
    have hmem : mountPoint ∈ (parseMountinfo text).map String.toList := by
      refine List.mem_map.mpr ⟨String.ofList mountPoint, ?_, String.toList_ofList⟩
      rw [mem_parseMountinfo, String.toList_ofList]
      exact hpod
    have hsame := eq_of_onto hshrinks honto mountPoint hmem
    rcases unescape_eq_or_shorter mountPoint with hplain | hshorter
    · exact hplain.2
    · rw [hsame] at hshorter
      exact absurd hshorter.1 (Nat.lt_irrefl _)
  · intro h mp
    have hplain : ∀ mountPoint, PodMount text mountPoint → unescapeMountInfo mountPoint = mountPoint :=
      fun mountPoint hpod => ((unescape_eq_or_shorter mountPoint).resolve_right
        fun hshorter => h mountPoint hpod hshorter.2).1
    rw [mem_findSeaweedFuseMounts, mem_parseMountinfo]
    constructor
    · intro hpod
      refine ⟨mp.toList, hpod, ?_⟩
      rw [hplain _ hpod, String.ofList_toList]
    · rintro ⟨mountPoint, hpod, rfl⟩
      rw [hplain _ hpod, String.toList_ofList]
      exact hpod

def spacedTable : String :=
  "36 35 0:50 / /var/lib/kubelet/pods/u1/volumes/my\\040data rw - fuse.seaweedfs filer rw\n"

theorem readers_disagree_on_escapes : ¬∀ text mp, mp ∈ parseMountinfo text ↔
    mp ∈ findSeaweedFuseMounts (scanLines text) ∧ kubeletPodsPrefix.toList <+: mp.toList := by
  intro h
  have hmem := ((h spacedTable "/var/lib/kubelet/pods/u1/volumes/my\\040data").mp
    (by decide)).1
  revert hmem
  decide

end ClusterState.Recycler
