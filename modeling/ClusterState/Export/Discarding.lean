import ClusterState.Export.Resting

/-! # What is discarded

As long as no selector is discarded with it, the labels that are preserved once are
preserved again.
-/

namespace ClusterState.Export

def discardedOfSpec : Option String → List String
  | some "Service" => ["clusterIP", "clusterIPs", "healthCheckNodePort", "ipFamilies", "ipFamilyPolicy"]
  | some "PersistentVolumeClaim" => ["volumeName"]
  | some "PersistentVolume" => ["claimRef"]
  | _ => []

def bareKinds : List (Option String) := [some "Namespace", some "Node"]

inductive ClaimTemplates (resource : Fields) (templates : List Json) : Prop
  | intro {spec : Fields} (hspec : ("spec", .obj spec) ∈ resource)
      (htemplates : ("volumeClaimTemplates", .arr templates) ∈ spec)

def claimName (template : Json) : Option String :=
  (template.get "metadata").bind fun metadata => (metadata.get "name").bind Json.str?

def templateLabel (key : String) (template : Json) : Option Json :=
  ((template.get "metadata").bind fun metadata => metadata.get "labels").bind fun labels =>
    labels.get key

/-- The entries that `strip_resource` takes out of a resource. -/
inductive Discarded (resource : Fields) : String × Json → Prop
  | status {value : Json} (h : ("status", value) ∈ resource) : Discarded resource ("status", value)
  | metadata {metadata : Fields} {field : String × Json} (h : ("metadata", .obj metadata) ∈ resource)
      (hfield : field ∈ metadata) (hkey : field.1 ∈ RUNTIME_METADATA_KEYS) : Discarded resource field
  | runtime {fields : Fields} {field : String × Json} (h : Json.Part (.obj fields) (.obj resource))
      (hfield : field ∈ fields) (hkey : field.1 ∈ RUNTIME_LABELS ++ RUNTIME_ANNOTATIONS) :
      Discarded resource field
  | spec {spec : Fields} {field : String × Json} (h : ("spec", .obj spec) ∈ resource)
      (hfield : field ∈ spec) (hkey : field.1 ∈ discardedOfSpec (kindOf (.obj resource))) :
      Discarded resource field
  | secrets {value : Json} (hkind : kindOf (.obj resource) = some "ServiceAccount")
      (h : ("secrets", value) ∈ resource) : Discarded resource ("secrets", value)
  | bare {field : String × Json} (hkind : kindOf (.obj resource) ∈ bareKinds)
      (hfield : field ∈ resource) (hkey : field.1 ≠ "metadata") : Discarded resource field
  | bareMetadata {metadata : Fields} {field : String × Json}
      (hkind : kindOf (.obj resource) ∈ bareKinds) (h : ("metadata", .obj metadata) ∈ resource)
      (hfield : field ∈ metadata) (hkey : field.1 ∉ ["name", "labels"]) : Discarded resource field
  | nodeLabel {metadata labels : Fields} {field : String × Json}
      (hkind : kindOf (.obj resource) = some "Node") (h : ("metadata", .obj metadata) ∈ resource)
      (hlabels : ("labels", .obj labels) ∈ metadata) (hfield : field ∈ labels)
      (hkey : field.1 ≠ "nvidia.com/gpu.present") : Discarded resource field
  /-- A label of another template of the name comes in the place of this one. -/
  | claimLabel {templates : List Json} {template other : Json} {metadata labels : Fields}
      {field : String × Json} (hkind : kindOf (.obj resource) = some "StatefulSet")
      (htemplates : ClaimTemplates resource templates) (htemplate : template ∈ templates)
      (hother : other ∈ templates) (hne : other ≠ template)
      (hname : claimName other = (claimName template).map replaceText)
      (h : template.get "metadata" = some (.obj metadata)) (hlabels : ("labels", .obj labels) ∈ metadata)
      (hfield : field ∈ labels) (hkey : field.1 ∈ MANAGED_BY_LABEL_KEYS)
      (hreplaced : (templateLabel field.1 other).isSome) : Discarded resource field

def Clear (resource : Fields) : Prop := ∀ field, Discarded resource field → ¬ EntryHoldsSelector field

variable {preserve : Bool} {fields original : Fields} {key : String} {item j : Json}
  {field : String × Json}

theorem Clear.runtimeClear (h : Clear original) : RuntimeClear (.obj original) :=
  fun _ hpart _ hfield hkey => h _ (.runtime hpart hfield hkey)

theorem entryRequires_cleaned (h : ¬ EntryHoldsSelector (key, item)) :
    entryRequires (key, clean preserve item) = false := by
  rw [Bool.eq_false_iff]
  intro hrequires
  rcases entryRequires_iff.mp hrequires with ⟨hkey, hmanaged⟩ | hitem
  · exact h (.inl ⟨hkey, isDict_of_hasManagedBy (hasManagedBy_of_clean hmanaged)⟩)
  · exact h (.inr (holdsSelector_of_requires (requires_of_clean hitem)))

theorem mem_clean_obj {inner : Fields} (h : clean preserve j = .obj inner) :
    ∃ fields, j = .obj fields ∧ inner = cleanFields preserve fields := by
  cases j with
  | obj fields =>
    rw [clean_obj, Json.obj.injEq] at h
    exact ⟨fields, rfl, h.symm⟩
  | arr items =>
    rw [clean_arr] at h
    cases h
  | _ => cases h

theorem keys_cleanFields_sublist :
    ((cleanFields preserve fields).map Prod.fst).Sublist (fields.map Prod.fst) := by
  induction fields with
  | nil => exact List.Sublist.refl _
  | cons field fields ih =>
    obtain ⟨key, item⟩ := field
    rw [cleanFields_cons]
    split
    · exact ih.cons_cons _
    · exact ih.cons _

theorem Distinct.nodup (h : Distinct (.obj fields)) : (fields.map Prod.fst).Nodup := by
  cases h with
  | obj _ hkeys _ => exact hkeys

theorem Distinct.value (h : Distinct (.obj fields)) (hfield : field ∈ fields) : Distinct field.2 := by
  cases h with
  | obj _ _ hall => exact hall field hfield

theorem Distinct.nodup_cleanFields (h : Distinct (.obj fields)) :
    ((cleanFields preserve fields).map Prod.fst).Nodup := h.nodup.sublist keys_cleanFields_sublist

/-! ## Between the scrubbing and the kinds -/

/-- Scrubbed, with these metadata and without a status. -/
structure Tidy (preserve : Bool) (metadata fields : Fields) : Prop where
  requires : requiresManagedByLabels (.obj fields) = preserve
  settled : Settled preserve fields
  metadata : fields.lookup "metadata" = some (.obj metadata)
  status : ∀ field ∈ fields, field.1 ≠ "status"

def tidied (preserve : Bool) (metadata original : Fields) : Fields :=
  pop "status" (set "metadata" (.obj metadata) (cleanFields preserve original))

theorem stripResource_obj : stripResource (.obj original) =
    ((getDict "metadata" (cleanFields (requiresManagedByLabels (.obj original)) original)).bind
      stripMetadata).bind fun metadata =>
        (stripKind metadata
          (tidied (requiresManagedByLabels (.obj original)) metadata original)).bind fun exported =>
          (restoreStatefulsetVolumeClaimLabels exported original).bind fun restored =>
            some (.obj restored) := by
  change (some original >>= fun original => _) = _
  rw [Option.bind_eq_bind, Option.bind_some, ← Option.bind_assoc]
  rfl

theorem getDict_eq_some {inner : Fields} : getDict key fields = some inner ↔
    fields.lookup key = some (.obj inner) ∨ fields.lookup key = none ∧ inner = [] := by
  unfold getDict
  split
  · rename_i value hvalue
    rw [dict_eq_some, hvalue, Option.some.injEq]
    exact ⟨.inl, fun h => h.resolve_right fun h => nomatch h.1⟩
  · rename_i hnone
    rw [hnone, Option.some.injEq]
    exact ⟨fun h => .inr ⟨rfl, h.symm⟩, fun h => (h.resolve_left nofun).2.symm⟩

section FirstPass

variable {metadata₀ metadata : Fields}

theorem mem_metadata (hget : getDict "metadata" (cleanFields preserve original) = some metadata₀)
    (hfield : field ∈ metadata₀) : ∃ inner item, ("metadata", .obj inner) ∈ original ∧
      (field.1, item) ∈ inner ∧ field.2 = clean preserve item := by
  rcases getDict_eq_some.mp hget with hlookup | ⟨-, rfl⟩
  · obtain ⟨item, hitem, hleft⟩ := mem_cleanFields.mp (mem_of_lookup hlookup)
    obtain ⟨inner, rfl, rfl⟩ := mem_clean_obj (cleanEntry_eq_some.mp hleft).2.2
    obtain ⟨item', hitem', hleft'⟩ := mem_cleanFields.mp hfield
    exact ⟨inner, item', hitem, hitem', (cleanEntry_eq_some.mp hleft').2.2.symm⟩
  · cases hfield

theorem settled_metadata (hget : getDict "metadata" (cleanFields preserve original) = some metadata₀) :
    Settled preserve metadata₀ := by
  rcases getDict_eq_some.mp hget with hlookup | ⟨-, rfl⟩
  · exact settled_cleanFields.of_mem (mem_of_lookup hlookup)
  · exact List.forall_mem_nil _

theorem nodup_metadata (hdistinct : Distinct (.obj original))
    (hget : getDict "metadata" (cleanFields preserve original) = some metadata₀) :
    (metadata₀.map Prod.fst).Nodup := by
  rcases getDict_eq_some.mp hget with hlookup | ⟨-, rfl⟩
  · obtain ⟨item, hitem, hleft⟩ := mem_cleanFields.mp (mem_of_lookup hlookup)
    obtain ⟨inner, rfl, rfl⟩ := mem_clean_obj (cleanEntry_eq_some.mp hleft).2.2
    exact (hdistinct.value hitem).nodup_cleanFields
  · exact List.nodup_nil

theorem requires_metadata (hdistinct : Distinct (.obj original)) (hclear : Clear original)
    (hget : getDict "metadata" (cleanFields preserve original) = some metadata₀)
    (hstrip : stripMetadata metadata₀ = some metadata) :
    requiresManagedByLabels (.obj metadata) = requiresManagedByLabels (.obj metadata₀) := by
  apply requires_stripMetadata hstrip (nodup_metadata hdistinct hget) (settled_metadata hget)
  intro field hfield hkey
  obtain ⟨inner, item, hinner, hitem, heq⟩ := mem_metadata hget hfield
  rw [← Prod.mk.eta (p := field), heq]
  exact entryRequires_cleaned (hclear _ (.metadata hinner hitem hkey))

theorem tidy_tidied (hdistinct : Distinct (.obj original)) (hclear : Clear original)
    (hpreserve : requiresManagedByLabels (.obj original) = preserve)
    (hget : getDict "metadata" (cleanFields preserve original) = some metadata₀)
    (hstrip : stripMetadata metadata₀ = some metadata) :
    Tidy preserve metadata (tidied preserve metadata original) := by
  have hmetadata := requires_metadata hdistinct hclear hget hstrip
  have hsettled : Settled preserve metadata := (settled_metadata hget).stripMetadata hstrip
  have hkey : "metadata" ∉ selectorKeys := by decide
  refine ⟨?_, ?_, ?_, fun field hfield => (mem_pop.mp hfield).2⟩
  · -- the status requires nothing, nor does what was stripped of the metadata
    rw [tidied, requires_pop]
    · have hclean := requires_clean hclear.runtimeClear
      rw [hpreserve, clean_obj] at hclean
      rcases getDict_eq_some.mp hget with hlookup | ⟨hnone, rfl⟩
      · rw [requires_set hlookup, hclean]
        rw [entryRequires_plain hkey, entryRequires_plain hkey, hmetadata]
      · rw [requires_set_new hnone, hclean]
        rw [entryRequires_plain hkey, hmetadata]
        rfl
    · intro field hfield heq
      obtain ⟨k, v⟩ := field
      obtain rfl : k = "status" := heq
      rcases mem_set hfield with heq | hfield
      · exact absurd (Prod.mk.inj heq).1 (by decide)
      · obtain ⟨item, hitem, hleft⟩ := mem_cleanFields.mp hfield
        obtain ⟨-, -, rfl⟩ := cleanEntry_eq_some.mp hleft
        exact entryRequires_cleaned (hclear _ (.status hitem))
  · exact (settled_cleanFields.set (cleanEntry_of_settled (by decide) hsettled rfl)).pop
  · rw [tidied, lookup_pop_ne (by decide), lookup_set]

theorem kind_tidied (hdistinct : Distinct (.obj original)) {kind : String} (hblank : ' ' ∉ kind.toList)
    (hsame : replaceText kind = kind) :
    ((tidied preserve metadata original).lookup "kind").bind Json.str? = some kind ↔
      kindOf (.obj original) = some kind := by
  have hget := @get_clean_path preserve "kind" (.obj original) hdistinct (by simp [pathKeys])
  rw [clean_obj] at hget
  have hlookup : (tidied preserve metadata original).lookup "kind" =
      ((Json.obj original).get "kind").map (clean preserve) := by
    rw [tidied, lookup_pop_ne (by decide), lookup_set_ne (by decide)]
    exact hget
  rw [hlookup, kindOf]
  cases (Json.obj original).get "kind" with
  | none => exact Iff.rfl
  | some value =>
    cases value with
    | str text =>
      rw [Option.map_some, Option.bind_some, Option.bind_some, clean_str]
      change some (replaceText text) = some kind ↔ some text = some kind
      rw [Option.some.injEq, Option.some.injEq]
      exact replaceText_eq_iff hblank hsame
    | obj inner =>
      rw [Option.map_some, clean_obj]
      exact Iff.rfl
    | arr items =>
      rw [Option.map_some, clean_arr]
      exact Iff.rfl
    | _ => exact Iff.rfl

end FirstPass

end ClusterState.Export
