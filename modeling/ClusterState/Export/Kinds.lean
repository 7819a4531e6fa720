import ClusterState.Export.Discarding

/-! # The kinds

What is exported of a resource is at rest, but for the claims of a stateful set.
-/

namespace ClusterState.Export

variable {preserve : Bool} {fields original metadata exported spec : Fields} {key : String}
  {field : String × Json}

/-! ## The second pass -/

theorem Tidy.stripResource (h : Tidy preserve metadata fields)
    (hmetadata : stripMetadata metadata = some metadata)
    (hkind : stripKind metadata fields = some fields) :
    stripResource (.obj fields) = (restoreStatefulsetVolumeClaimLabels fields fields).bind fun restored =>
      some (.obj restored) := by
  have htidied : tidied preserve metadata fields = fields := by
    rw [tidied, h.settled.cleanFields_eq, set_eq_self h.metadata, pop_eq_self h.status]
  rw [stripResource_obj, h.requires, h.settled.cleanFields_eq,
    getDict_eq_some.mpr (.inl h.metadata), Option.bind_some, hmetadata, Option.bind_some, htidied,
    hkind, Option.bind_some]

theorem restore_of_kind (hkind : kindOf (.obj fields) ≠ some "StatefulSet") :
    restoreStatefulsetVolumeClaimLabels fields original = some fields := if_pos hkind

/-! ## Specifications -/

theorem Tidy.pop (h : Tidy preserve metadata fields) (hkey : key ≠ "metadata")
    (hclear : ∀ field ∈ fields, field.1 = key → entryRequires field = false) :
    Tidy preserve metadata (pop key fields) where
  requires := (requires_pop hclear).trans h.requires
  settled := h.settled.pop
  metadata := (lookup_pop_ne (Ne.symm hkey)).trans h.metadata
  status field hfield := h.status field (mem_pop.mp hfield).1

theorem Tidy.setSpec {spec' : Fields} (h : Tidy preserve metadata fields)
    (hspec : fields.lookup "spec" = some (.obj spec)) (hsubset : spec' ⊆ spec)
    (hrequires : requiresManagedByLabels (.obj spec') = requiresManagedByLabels (.obj spec)) :
    Tidy preserve metadata (set "spec" (.obj spec') fields) where
  requires := by
    have hkey : "spec" ∉ selectorKeys := by decide
    rw [requires_set hspec (by rw [entryRequires_plain hkey, entryRequires_plain hkey, hrequires]),
      h.requires]
  settled := by
    have hsettled := (h.settled.of_mem (mem_of_lookup hspec)).subset hsubset
    exact h.settled.set (cleanEntry_of_settled (by decide) hsettled rfl)
  metadata := (lookup_set_ne (by decide)).trans h.metadata
  status field hfield := by
    rcases mem_set hfield with rfl | hfield
    · exact (by decide : "spec" ≠ "status")
    · exact h.status field hfield

theorem rest_onSpec {f : Fields → Fields} (hagain : ∀ spec, f (f spec) = f spec)
    (hsubset : ∀ spec, f spec ⊆ spec) (h : Tidy preserve metadata fields)
    (hrequires : ∀ spec, fields.lookup "spec" = some (.obj spec) →
      requiresManagedByLabels (.obj (f spec)) = requiresManagedByLabels (.obj spec))
    (hexported : onSpec f fields = some exported) :
    Tidy preserve metadata exported ∧ onSpec f exported = some exported ∧
      exported.lookup "kind" = fields.lookup "kind" := by
  unfold onSpec at hexported
  split at hexported
  · rename_i hnone
    cases hexported
    refine ⟨h, ?_, rfl⟩
    rw [onSpec, hnone]
  · rename_i value hvalue
    obtain ⟨spec, hspec, hexported⟩ := Option.bind_eq_some_iff.mp hexported
    rw [dict_eq_some.mp hspec] at hvalue
    cases hexported
    refine ⟨h.setSpec hvalue (hsubset spec) (hrequires spec hvalue), ?_, lookup_set_ne (by decide)⟩
    rw [onSpec, lookup_set]
    change some (set "spec" (.obj (f (f spec))) _) = _
    rw [hagain, set_eq_self lookup_set]

def SERVICE_KEYS : List String :=
  ["clusterIP", "clusterIPs", "healthCheckNodePort", "ipFamilies", "ipFamilyPolicy"]

theorem lookup_none_iff : fields.lookup key = none ↔ ∀ field ∈ fields, field.1 ≠ key := by
  rw [List.lookup_eq_none_iff]
  exact forall₂_congr fun field _ => by
    rw [bne_iff_ne, ne_comm]

section Service

/-- The service after the first pops, with or without its address. -/
def withoutFamilies (spec : Fields) : Fields :=
  popAll ["healthCheckNodePort", "ipFamilies", "ipFamilyPolicy"]
    (if (spec.lookup "clusterIP").bind Json.str? ≠ some "None" then
      popAll ["clusterIP", "clusterIPs"] spec else spec)

theorem stripService_eq : stripService spec =
    if ((withoutFamilies spec).lookup "sessionAffinityConfig").any Json.truthy then withoutFamilies spec
    else pop "sessionAffinityConfig" (withoutFamilies spec) := rfl

theorem mem_withoutFamilies (h : field ∈ withoutFamilies spec) :
    field ∈ spec ∧ field.1 ∉ ["healthCheckNodePort", "ipFamilies", "ipFamilyPolicy"] ∧
      ((spec.lookup "clusterIP").bind Json.str? ≠ some "None" →
        field.1 ∉ ["clusterIP", "clusterIPs"]) := by
  obtain ⟨hmem, hkey⟩ := mem_popAll.mp h
  split at hmem
  · obtain ⟨hmem, haddress⟩ := mem_popAll.mp hmem
    exact ⟨hmem, hkey, fun _ => haddress⟩
  · rename_i hnone
    exact ⟨hmem, hkey, fun h => absurd h hnone⟩

theorem mem_stripService (h : field ∈ stripService spec) : field ∈ withoutFamilies spec := by
  rw [stripService_eq] at h
  split at h
  · exact h
  · exact (mem_pop.mp h).1

theorem stripService_subset : stripService spec ⊆ spec := fun _ hfield =>
  (mem_withoutFamilies (mem_stripService hfield)).1

theorem lookup_clusterIP_of_none (h : (spec.lookup "clusterIP").bind Json.str? = some "None") :
    (stripService spec).lookup "clusterIP" = spec.lookup "clusterIP" := by
  have hwithout : (withoutFamilies spec).lookup "clusterIP" = spec.lookup "clusterIP" := by
    rw [withoutFamilies, if_neg (not_not.mpr h), lookup_popAll (by decide)]
  rw [stripService_eq]
  split
  · exact hwithout
  · rw [lookup_pop_ne (by decide), hwithout]

theorem stripService_again : stripService (stripService spec) = stripService spec := by
  have hwithout : withoutFamilies (stripService spec) = stripService spec := by
    rw [withoutFamilies]
    split
    · rename_i haddress
      have hspec : (spec.lookup "clusterIP").bind Json.str? ≠ some "None" := fun h =>
        haddress (by rw [lookup_clusterIP_of_none h, h])
      rw [@popAll_eq_self _ ["clusterIP", "clusterIPs"], popAll_eq_self]
      · exact fun field hfield => (mem_withoutFamilies (mem_stripService hfield)).2.1
      · exact fun field hfield => (mem_withoutFamilies (mem_stripService hfield)).2.2 hspec
    · exact popAll_eq_self fun field hfield => (mem_withoutFamilies (mem_stripService hfield)).2.1
  rw [stripService_eq, hwithout]
  split
  · rfl
  · rename_i haffinity
    refine pop_eq_self fun field hfield heq => haffinity ?_
    rw [stripService_eq] at hfield ⊢
    split at hfield
    · rename_i htruthy
      rw [if_pos htruthy]
      exact htruthy
    · exact absurd heq (mem_pop.mp hfield).2

theorem requires_of_falsy {j : Json} (h : j.truthy = false) : requiresManagedByLabels j = false := by
  cases j with
  | obj fields =>
    cases fields with
    | nil => rfl
    | cons field fields => cases h
  | arr items =>
    cases items with
    | nil => rfl
    | cons item items => cases h
  | _ => rfl

theorem requires_stripService (hnodup : (spec.map Prod.fst).Nodup)
    (hclear : ∀ field ∈ spec, field.1 ∈ SERVICE_KEYS → entryRequires field = false) :
    requiresManagedByLabels (.obj (stripService spec)) = requiresManagedByLabels (.obj spec) := by
  have hwithout : requiresManagedByLabels (.obj (withoutFamilies spec)) =
      requiresManagedByLabels (.obj spec) := by
    have haddress : ["clusterIP", "clusterIPs"] ⊆ SERVICE_KEYS := by decide
    have hfamilies : ["healthCheckNodePort", "ipFamilies", "ipFamilyPolicy"] ⊆ SERVICE_KEYS := by decide
    unfold withoutFamilies
    split
    · rw [requires_popAll, requires_popAll]
      · exact fun field hfield hkey => hclear field hfield (haddress hkey)
      · exact fun field hfield hkey => hclear field (mem_popAll.mp hfield).1 (hfamilies hkey)
    · exact requires_popAll fun field hfield hkey => hclear field hfield (hfamilies hkey)
  rw [← hwithout, stripService_eq]
  split
  · rfl
  · rename_i haffinity
    refine requires_pop fun field hfield heq => ?_
    obtain ⟨k, v⟩ := field
    obtain rfl : k = "sessionAffinityConfig" := heq
    have hnodup' : ((withoutFamilies spec).map Prod.fst).Nodup := by
      refine hnodup.sublist (List.Sublist.map _ (popAll_sublist.trans ?_))
      split
      · exact popAll_sublist
      · exact List.Sublist.refl _
    rw [lookup_of_mem hnodup' hfield, Option.any_some, Bool.not_eq_true] at haffinity
    rw [entryRequires_plain (by decide), requires_of_falsy haffinity]

end Service

/-! ## Kinds that keep their specification -/

section Kinds

variable {metadata₀ : Fields}

theorem mem_inner {inner : Fields} (h : (key, .obj inner) ∈ cleanFields preserve fields) :
    ∃ inner₀, (key, .obj inner₀) ∈ fields ∧ inner = cleanFields preserve inner₀ := by
  obtain ⟨item, hitem, hleft⟩ := mem_cleanFields.mp h
  obtain ⟨inner₀, rfl, heq⟩ := mem_clean_obj (cleanEntry_eq_some.mp hleft).2.2
  exact ⟨inner₀, hitem, heq⟩

theorem spec_of_tidied (h : (tidied preserve metadata original).lookup "spec" = some (.obj spec)) :
    ∃ spec₀, ("spec", .obj spec₀) ∈ original ∧ spec = cleanFields preserve spec₀ := by
  rw [tidied, lookup_pop_ne (by decide), lookup_set_ne (by decide)] at h
  exact mem_inner (mem_of_lookup h)

theorem requires_spec (hclear : Clear original) {keys : List String}
    (hkeys : keys ⊆ discardedOfSpec (kindOf (.obj original)))
    (h : (tidied preserve metadata original).lookup "spec" = some (.obj spec)) :
    ∀ field ∈ spec, field.1 ∈ keys → entryRequires field = false := by
  obtain ⟨spec₀, hspec₀, rfl⟩ := spec_of_tidied h
  intro field hfield hkey
  obtain ⟨item, hitem, hleft⟩ := mem_cleanFields.mp hfield
  obtain ⟨-, -, heq⟩ := cleanEntry_eq_some.mp hleft
  rw [← Prod.mk.eta (p := field), ← heq]
  exact entryRequires_cleaned (hclear _ (.spec hspec₀ hitem (hkeys hkey)))

theorem pop_pop : pop key (pop key fields) = pop key fields :=
  pop_eq_self fun _ hfield => (mem_pop.mp hfield).2

theorem rest_stripKind (hdistinct : Distinct (.obj original)) (hclear : Clear original)
    (htidy : Tidy preserve metadata (tidied preserve metadata original))
    (hbare : kindOf (.obj original) ∉ bareKinds)
    (h : stripKind metadata (tidied preserve metadata original) = some exported) :
    Tidy preserve metadata exported ∧ stripKind metadata exported = some exported ∧
      exported.lookup "kind" = (tidied preserve metadata original).lookup "kind" := by
  have hkind := fun kind => @kind_tidied preserve original metadata hdistinct kind
  unfold stripKind at h
  split at h
  · rename_i heq
    have horiginal := (hkind "Service" (by decide) (by decide)).mp heq
    obtain ⟨htidy', hagain, hsame⟩ := rest_onSpec (fun _ => stripService_again)
      (fun _ => stripService_subset) htidy (fun spec hspec => by
        obtain ⟨spec₀, hspec₀, rfl⟩ := spec_of_tidied hspec
        refine requires_stripService (hdistinct.value hspec₀).nodup_cleanFields
          (requires_spec hclear ?_ hspec)
        rw [horiginal]
        exact List.Subset.refl _) h
    refine ⟨htidy', ?_, hsame⟩
    rw [stripKind, hsame, heq]
    exact hagain
  · rename_i heq
    have horiginal := (hkind "PersistentVolumeClaim" (by decide) (by decide)).mp heq
    obtain ⟨htidy', hagain, hsame⟩ := rest_onSpec (fun _ => pop_pop)
      (fun _ => List.filter_sublist.subset) htidy (fun spec hspec =>
        requires_pop fun field hfield hkey => requires_spec hclear (by
          rw [horiginal]
          exact List.Subset.refl _) hspec field hfield (List.mem_singleton.mpr hkey)) h
    refine ⟨htidy', ?_, hsame⟩
    rw [stripKind, hsame, heq]
    exact hagain
  · rename_i heq
    have horiginal := (hkind "PersistentVolume" (by decide) (by decide)).mp heq
    obtain ⟨htidy', hagain, hsame⟩ := rest_onSpec (fun _ => pop_pop)
      (fun _ => List.filter_sublist.subset) htidy (fun spec hspec =>
        requires_pop fun field hfield hkey => requires_spec hclear (by
          rw [horiginal]
          exact List.Subset.refl _) hspec field hfield (List.mem_singleton.mpr hkey)) h
    refine ⟨htidy', ?_, hsame⟩
    rw [stripKind, hsame, heq]
    exact hagain
  · rename_i heq
    have horiginal := (hkind "ServiceAccount" (by decide) (by decide)).mp heq
    cases h
    have hsame : (pop "secrets" (tidied preserve metadata original)).lookup "kind" =
        (tidied preserve metadata original).lookup "kind" := lookup_pop_ne (by decide)
    refine ⟨htidy.pop (by decide) fun field hfield hkey => ?_, ?_, hsame⟩
    · obtain ⟨k, v⟩ := field
      obtain rfl : k = "secrets" := hkey
      rcases mem_set (mem_pop.mp hfield).1 with heq | hfield
      · exact absurd (Prod.mk.inj heq).1 (by decide)
      · obtain ⟨item, hitem, hleft⟩ := mem_cleanFields.mp hfield
        obtain ⟨-, -, rfl⟩ := cleanEntry_eq_some.mp hleft
        exact entryRequires_cleaned (hclear _ (.secrets horiginal hitem))
    · rw [stripKind, hsame, heq]
      exact congrArg some pop_pop
  · rename_i heq
    have horiginal := (hkind "Namespace" (by decide) (by decide)).mp heq
    rw [horiginal] at hbare
    exact absurd List.mem_cons_self hbare
  · rename_i heq
    have horiginal := (hkind "Node" (by decide) (by decide)).mp heq
    rw [horiginal] at hbare
    exact absurd (List.mem_cons_of_mem _ List.mem_cons_self) hbare
  · cases h
    refine ⟨htidy, ?_, rfl⟩
    unfold stripKind
    split <;> first | contradiction | rfl

end Kinds

/-! ## Kinds of which the name and the labels are exported -/

section Bare

variable {metadata₀ labels : Fields} {name label : Json} {kind : String}

def bareFields (kind : String) (name labels : Json) : Fields :=
  [("apiVersion", .str "v1"), ("kind", .str kind), ("metadata", .obj [("name", name), ("labels", labels)])]

theorem bare_eq_some : bare kind label metadata = some exported ↔
    ∃ name, metadata.lookup "name" = some name ∧ exported = bareFields kind name label := by
  change ((metadata.lookup "name").bind fun name => some (bareFields kind name label)) = _ ↔ _
  rw [Option.bind_eq_some_iff]
  exact exists_congr fun name => and_congr_right fun _ => by
    rw [Option.some.injEq, eq_comm]

theorem requires_bareFields : requiresManagedByLabels (.obj (bareFields kind name label)) = true ↔
    requiresManagedByLabels name = true ∨ requiresManagedByLabels label = true := by
  have hinner : requiresManagedByLabels (.obj [("name", name), ("labels", label)]) = true ↔
      requiresManagedByLabels name = true ∨ requiresManagedByLabels label = true := by
    rw [requires_obj, List.exists_mem_cons_iff, List.exists_mem_cons_iff,
      entryRequires_plain (by decide), entryRequires_plain (by decide)]
    simp
  rw [← hinner, requires_obj, bareFields, List.exists_mem_cons_iff, List.exists_mem_cons_iff,
    List.exists_mem_cons_iff, entryRequires_plain (by decide), entryRequires_plain (by decide),
    entryRequires_plain (by decide)]
  simp [requiresManagedByLabels]

theorem requires_of_mem_trim {keeps : String × Json → Bool} {trimmed : Fields} (hkey : key ∉ selectorKeys)
    (h : trim key keeps metadata = some trimmed) (hfield : field ∈ trimmed)
    (hrequires : entryRequires field = true) :
    ∃ value, (field.1, value) ∈ metadata ∧ entryRequires (field.1, value) = true := by
  rcases trim_cases h with ⟨rfl, -⟩ | ⟨map, hmap, ⟨-, rfl⟩ | ⟨-, rfl⟩⟩
  · exact ⟨field.2, hfield, hrequires⟩
  · exact ⟨field.2, (mem_pop.mp hfield).1, hrequires⟩
  · rcases mem_set hfield with rfl | hfield
    · refine ⟨.obj map, mem_of_lookup hmap, ?_⟩
      rw [entryRequires_plain hkey] at hrequires ⊢
      obtain ⟨field, hfield, hrequires⟩ := requires_obj.mp hrequires
      exact requires_obj.mpr ⟨field, (List.mem_filter.mp hfield).1, hrequires⟩
    · exact ⟨field.2, hfield, hrequires⟩

theorem requires_of_mem_stripMetadata (h : stripMetadata metadata₀ = some metadata)
    (hfield : field ∈ metadata) (hrequires : entryRequires field = true) :
    ∃ value, (field.1, value) ∈ metadata₀ ∧ entryRequires (field.1, value) = true := by
  obtain ⟨between, hannotations, hlabels⟩ := stripMetadata_eq_some.mp h
  obtain ⟨value, hvalue, hrequires'⟩ := requires_of_mem_trim (by decide) hlabels hfield hrequires
  obtain ⟨value', hvalue', hrequires''⟩ :=
    requires_of_mem_trim (by decide) hannotations hvalue hrequires'
  exact ⟨value', (mem_popAll.mp hvalue').1, hrequires''⟩

/-- The labels of a bare resource, or those of them that are exported. -/
structure BareLabels (preserve : Bool) (label : Json) : Prop where
  settled : cleanEntry preserve "labels" label = some label ∨ label = .obj []
  trimmed : label.truthy = true → ∃ map, label = .obj map ∧ ∀ field ∈ map, keepsLabel field = true

theorem strip_bareFields (hkind : kind ∈ ["Namespace", "Node"])
    (hrequires : requiresManagedByLabels (.obj (bareFields kind name label)) = preserve)
    (hname : cleanEntry preserve "name" name = some name) (hlabels : BareLabels preserve label)
    (hagain : ∀ metadata fields, metadata.lookup "name" = some name → labelsOf metadata = label →
      (fields.lookup "kind").bind Json.str? = some kind →
        stripKind metadata fields = some (bareFields kind name label)) :
    stripResource (.obj (bareFields kind name label)) = some (.obj (bareFields kind name label)) := by
  have hsame : ∀ kind ∈ ["Namespace", "Node"], replaceText kind = kind ∧ kind ≠ "StatefulSet" := by
    decide
  -- the metadata without an empty map
  obtain ⟨metadata, hclean, hlookup, hlabelsOf, hkeys, hannotations, hlabel⟩ : ∃ metadata,
      cleanFields preserve [("name", name), ("labels", label)] = metadata ∧
        metadata.lookup "name" = some name ∧ labelsOf metadata = label ∧
        (∀ field ∈ metadata, field.1 ∉ RUNTIME_METADATA_KEYS) ∧
        metadata.lookup "annotations" = none ∧
        (metadata.lookup "labels" = some label ∨ metadata.lookup "labels" = none) := by
    have hplain : ∀ key ∈ ["name", "labels"], key ∉ RUNTIME_METADATA_KEYS := by decide
    rcases hlabels.settled with hsettled | rfl
    · refine ⟨[("name", name), ("labels", label)], ?_, rfl, rfl, ?_, rfl, .inl rfl⟩
      · rw [cleanFields_cons, hname, cleanFields_cons, hsettled]
        rfl
      · intro field hfield
        simp only [List.mem_cons, List.not_mem_nil, or_false] at hfield
        rcases hfield with rfl | rfl
        · exact hplain "name" (by decide)
        · exact hplain "labels" (by decide)
    · refine ⟨[("name", name)], ?_, rfl, rfl, ?_, rfl, .inr rfl⟩
      · have hempty : cleanEntry preserve "labels" (.obj []) = none := by
          rw [cleanEntry, isRuntime_plain (by decide)]
          rfl
        rw [cleanFields_cons, hname, cleanFields_cons, hempty]
        rfl
      · intro field hfield
        rw [List.mem_singleton.mp hfield]
        exact hplain "name" (by decide)
  have hfields : cleanFields preserve (bareFields kind name label) =
      [("apiVersion", .str "v1"), ("kind", .str kind), ("metadata", .obj metadata)] := by
    have hversion : cleanEntry preserve "apiVersion" (.str "v1") = some (.str "v1") :=
      cleanEntry_eq_some.mpr ⟨isRuntime_plain (by decide), rfl, by
        rw [clean_str, (by decide : replaceText "v1" = "v1")]⟩
    have hkind' : cleanEntry preserve "kind" (.str kind) = some (.str kind) :=
      cleanEntry_eq_some.mpr ⟨isRuntime_plain (by decide), rfl, by
        rw [clean_str, (hsame kind hkind).1]⟩
    have hmetadata : cleanEntry preserve "metadata" (.obj [("name", name), ("labels", label)]) =
        some (.obj metadata) :=
      cleanEntry_eq_some.mpr ⟨isRuntime_plain (by decide), by
        rw [clean_obj, hclean]
        rfl, by rw [clean_obj, hclean]⟩
    rw [bareFields, cleanFields_cons, hversion, cleanFields_cons, hkind', cleanFields_cons, hmetadata]
    rfl
  have hstrip : stripMetadata metadata = some metadata := by
    have htrimmed : Trimmed "labels" keepsLabel metadata := by
      intro value hvalue htruthy
      rcases hlabel with hlabel | hnone
      · cases hlabel.symm.trans hvalue
        exact hlabels.trimmed htruthy
      · rw [hnone] at hvalue
        cases hvalue
    have habsent : Trimmed "annotations" keepsOfAnnotations metadata := by
      intro value hvalue
      rw [hannotations] at hvalue
      cases hvalue
    rw [stripMetadata_eq_some, popAll_eq_self hkeys]
    exact ⟨metadata, habsent.trim_eq, htrimmed.trim_eq⟩
  have htidied : tidied preserve metadata (bareFields kind name label) =
      [("apiVersion", .str "v1"), ("kind", .str kind), ("metadata", .obj metadata)] := by
    rw [tidied, hfields]
    rfl
  have hother : kindOf (.obj (bareFields kind name label)) ≠ some "StatefulSet" := by
    intro heq
    exact (hsame kind hkind).2 (Option.some.inj heq)
  rw [stripResource_obj, hrequires, hfields, getDict_eq_some.mpr (.inl rfl), Option.bind_some, hstrip,
    Option.bind_some, htidied, hagain metadata _ hlookup hlabelsOf rfl, Option.bind_some,
    restore_of_kind hother, Option.bind_some]

theorem trimmed_labels (h : stripMetadata metadata₀ = some metadata) :
    Trimmed "labels" keepsLabel metadata := by
  obtain ⟨between, -, hlabels⟩ := stripMetadata_eq_some.mp h
  exact trimmed_of_trim hlabels

theorem requires_bare (hdistinct : Distinct (.obj original)) (hclear : Clear original)
    (hkind : kindOf (.obj original) ∈ bareKinds)
    (hget : getDict "metadata" (cleanFields preserve original) = some metadata₀)
    (hstrip : stripMetadata metadata₀ = some metadata)
    (htidy : Tidy preserve metadata (tidied preserve metadata original))
    (hname : metadata.lookup "name" = some name)
    (hlabel : requiresManagedByLabels label = requiresManagedByLabels (labelsOf metadata)) :
    requiresManagedByLabels (.obj (bareFields kind name label)) = preserve := by
  have hnodup := nodup_stripMetadata hstrip (nodup_metadata hdistinct hget)
  have hmetadata : requiresManagedByLabels (.obj metadata) = preserve := by
    rw [← htidy.requires, Bool.eq_iff_iff]
    constructor
    · intro h
      refine requires_obj.mpr ⟨_, mem_of_lookup htidy.metadata, ?_⟩
      rwa [entryRequires_plain (by decide)]
    · intro h
      obtain ⟨⟨key, value⟩, hfield, hrequires⟩ := requires_obj.mp h
      rcases mem_set (mem_pop.mp hfield).1 with heq | hfield
      · cases heq
        rwa [entryRequires_plain (by decide)] at hrequires
      · obtain ⟨item, hitem, hleft⟩ := mem_cleanFields.mp hfield
        obtain ⟨-, -, rfl⟩ := cleanEntry_eq_some.mp hleft
        by_cases hkey : key = "metadata"
        · subst hkey
          rw [entryRequires_plain (by decide)] at hrequires
          have hlookup := lookup_of_mem hdistinct.nodup_cleanFields hfield
          rcases getDict_eq_some.mp hget with hfound | ⟨hnone, -⟩
          · rw [Option.some.inj (hlookup.symm.trans hfound)] at hrequires
            rwa [requires_metadata hdistinct hclear hget hstrip]
          · rw [hnone] at hlookup
            cases hlookup
        · rw [entryRequires_cleaned (hclear _ (.bare hkind hitem hkey))] at hrequires
          cases hrequires
  rw [← hmetadata, Bool.eq_iff_iff, requires_bareFields, hlabel, requires_obj]
  constructor
  · rintro (hrequires | hrequires)
    · exact ⟨_, mem_of_lookup hname, by rwa [entryRequires_plain (by decide)]⟩
    · unfold labelsOf at hrequires
      cases hlookup : metadata.lookup "labels" with
      | none =>
        rw [hlookup] at hrequires
        cases hrequires
      | some value =>
        rw [hlookup] at hrequires
        exact ⟨_, mem_of_lookup hlookup, by rwa [entryRequires_plain (by decide)]⟩
  · rintro ⟨⟨key, value⟩, hfield, hrequires⟩
    obtain ⟨value₀, hvalue₀, hrequires₀⟩ := requires_of_mem_stripMetadata hstrip hfield hrequires
    have hkey : key ∈ ["name", "labels"] := by
      by_contra hkey
      obtain ⟨inner, item, hinner, hitem, heq⟩ := mem_metadata hget hvalue₀
      simp only at heq
      rw [heq, entryRequires_cleaned (hclear _ (.bareMetadata hkind hinner hitem hkey))] at hrequires₀
      cases hrequires₀
    have hlookup := lookup_of_mem hnodup hfield
    rcases List.mem_cons.mp hkey with rfl | hkey
    · cases hlookup.symm.trans hname
      rw [entryRequires_plain (by decide)] at hrequires
      exact .inl hrequires
    · obtain rfl := List.mem_singleton.mp hkey
      rw [entryRequires_plain (by decide)] at hrequires
      refine .inr ?_
      rw [labelsOf, hlookup]
      exact hrequires

theorem mem_labels {map : Fields}
    (hget : getDict "metadata" (cleanFields preserve original) = some metadata₀)
    (hstrip : stripMetadata metadata₀ = some metadata) (hmap : labelsOf metadata = .obj map)
    (hfield : field ∈ map) : ∃ inner raw item, ("metadata", .obj inner) ∈ original ∧
      ("labels", .obj raw) ∈ inner ∧ (field.1, item) ∈ raw ∧ field.2 = clean preserve item := by
  obtain ⟨between, hannotations, hlabels⟩ := stripMetadata_eq_some.mp hstrip
  have hbetween : between.lookup "labels" = metadata₀.lookup "labels" := by
    rw [lookup_trim_ne hannotations (by decide), lookup_popAll (by decide)]
  obtain ⟨map₀, hmap₀, hfield₀⟩ : ∃ map₀, metadata₀.lookup "labels" = some (.obj map₀) ∧
      field ∈ map₀ := by
    rw [← hbetween]
    unfold labelsOf at hmap
    rcases trim_cases hlabels with ⟨rfl, -⟩ | ⟨map₀, hmap₀, ⟨-, rfl⟩ | ⟨-, rfl⟩⟩
    · cases hlookup : metadata.lookup "labels" with
      | none =>
        rw [hlookup] at hmap
        cases hmap
        cases hfield
      | some value =>
        rw [hlookup] at hmap
        exact ⟨map, congrArg some hmap, hfield⟩
    · rw [lookup_none_iff.mpr fun _ h => (mem_pop.mp h).2] at hmap
      cases hmap
      cases hfield
    · rw [lookup_set] at hmap
      cases hmap
      exact ⟨map₀, hmap₀, (List.mem_filter.mp hfield).1⟩
  obtain ⟨inner, item, hinner, hitem, heq⟩ := mem_metadata hget (mem_of_lookup hmap₀)
  obtain ⟨raw, rfl, rfl⟩ := mem_clean_obj heq.symm
  obtain ⟨item', hitem', hleft⟩ := mem_cleanFields.mp hfield₀
  exact ⟨inner, raw, item', hinner, hitem, hitem', (cleanEntry_eq_some.mp hleft).2.2.symm⟩

theorem bareLabels_of_metadata (hstrip : stripMetadata metadata₀ = some metadata)
    (hsettled : Settled preserve metadata) : BareLabels preserve (labelsOf metadata) := by
  unfold labelsOf
  cases hlookup : metadata.lookup "labels" with
  | none => exact ⟨.inr rfl, nofun⟩
  | some value =>
    exact ⟨.inl (hsettled _ (mem_of_lookup hlookup)), trimmed_labels hstrip value hlookup⟩

theorem BareLabels.filter {map : Fields} (h : BareLabels preserve (.obj map))
    (keeps : String × Json → Bool) : BareLabels preserve (.obj (map.filter keeps)) := by
  have hsettled : Settled preserve map := by
    rcases h.settled with hsettled | hnil
    · exact settled_of_clean (cleanEntry_eq_some.mp hsettled).2.2
    · rw [Json.obj.inj hnil]
      exact List.forall_mem_nil _
  refine ⟨?_, fun htruthy => ⟨_, rfl, fun field hfield => ?_⟩⟩
  · by_cases hnil : map.filter keeps = []
    · exact .inr (congrArg Json.obj hnil)
    · exact .inl (cleanEntry_of_settled (by decide)
        (hsettled.subset List.filter_sublist.subset) (isEmptied_of_ne hnil))
  · have hmem := (List.mem_filter.mp hfield).1
    have hnonempty : (Json.obj map).truthy = true := by
      cases map with
      | nil => cases hmem
      | cons field map => rfl
    obtain ⟨map', hmap', hall⟩ := h.trimmed hnonempty
    cases hmap'
    exact hall field hmem

end Bare

/-- What is exported of a resource, step by step. -/
structure Exports (original : Fields) (preserve : Bool) (metadata₀ metadata exported restored : Fields) :
    Prop where
  requires : requiresManagedByLabels (.obj original) = preserve
  get : getDict "metadata" (cleanFields preserve original) = some metadata₀
  strip : stripMetadata metadata₀ = some metadata
  kind : stripKind metadata (tidied preserve metadata original) = some exported
  restore : restoreStatefulsetVolumeClaimLabels exported original = some restored

theorem exports_of_strip {r : Json} (h : stripResource (.obj original) = some r) :
    ∃ preserve metadata₀ metadata exported restored,
      Exports original preserve metadata₀ metadata exported restored ∧ r = .obj restored := by
  rw [stripResource_obj] at h
  obtain ⟨metadata, hmetadata, h⟩ := Option.bind_eq_some_iff.mp h
  obtain ⟨metadata₀, hget, hstrip⟩ := Option.bind_eq_some_iff.mp hmetadata
  obtain ⟨exported, hkind, h⟩ := Option.bind_eq_some_iff.mp h
  obtain ⟨restored, hrestore, h⟩ := Option.bind_eq_some_iff.mp h
  cases h
  exact ⟨_, metadata₀, metadata, exported, restored, ⟨rfl, hget, hstrip, hkind, hrestore⟩, rfl⟩

section Again

variable {metadata₀ restored : Fields}

theorem Exports.tidy (h : Exports original preserve metadata₀ metadata exported restored)
    (hdistinct : Distinct (.obj original)) (hclear : Clear original) :
    Tidy preserve metadata (tidied preserve metadata original) :=
  tidy_tidied hdistinct hclear h.requires h.get h.strip

theorem Exports.restored_eq (h : Exports original preserve metadata₀ metadata exported restored)
    (hkind : kindOf (.obj exported) ≠ some "StatefulSet") : restored = exported := by
  have hrestore := h.restore
  rw [restore_of_kind hkind] at hrestore
  exact (Option.some.inj hrestore).symm

theorem Exports.bare_again (h : Exports original preserve metadata₀ metadata exported restored)
    (hdistinct : Distinct (.obj original)) (hclear : Clear original)
    (hbare : kindOf (.obj original) ∈ bareKinds) :
    stripResource (.obj restored) = some (.obj restored) := by
  have htidy := h.tidy hdistinct hclear
  have hsettled : Settled preserve metadata := (settled_metadata h.get).stripMetadata h.strip
  have hlabels := bareLabels_of_metadata h.strip hsettled
  have hkind := h.kind
  simp only [bareKinds, List.mem_cons, List.not_mem_nil, or_false] at hbare
  rcases hbare with hbare | hbare
  · have heq := (@kind_tidied preserve original metadata hdistinct "Namespace" (by decide)
      (by decide)).mpr hbare
    unfold stripKind at hkind
    rw [heq] at hkind
    obtain ⟨name, hname, hexported⟩ := bare_eq_some.mp hkind
    have hother : kindOf (.obj exported) ≠ some "StatefulSet" := by
      rw [hexported]
      exact fun heq => absurd (Option.some.inj heq) (by decide)
    rw [h.restored_eq hother, hexported]
    refine strip_bareFields (by decide) (requires_bare hdistinct hclear (hbare ▸ by decide) h.get
      h.strip htidy hname rfl) (hsettled _ (mem_of_lookup hname)) hlabels ?_
    intro metadata' fields hname' hlabels' hkind'
    unfold stripKind
    rw [hkind', hlabels']
    exact bare_eq_some.mpr ⟨name, hname', rfl⟩
  · have heq := (@kind_tidied preserve original metadata hdistinct "Node" (by decide)
      (by decide)).mpr hbare
    unfold stripKind at hkind
    rw [heq] at hkind
    obtain ⟨map, hmap, hkind⟩ := Option.bind_eq_some_iff.mp hkind
    rw [dict_eq_some] at hmap
    obtain ⟨name, hname, hexported⟩ := bare_eq_some.mp hkind
    have hother : kindOf (.obj exported) ≠ some "StatefulSet" := by
      rw [hexported]
      exact fun heq => absurd (Option.some.inj heq) (by decide)
    rw [hmap] at hlabels
    have hrequires : requiresManagedByLabels
        (.obj (map.filter fun label => label.1 == "nvidia.com/gpu.present")) =
          requiresManagedByLabels (labelsOf metadata) := by
      rw [hmap]
      refine requires_filter fun field hfield hdropped => ?_
      obtain ⟨inner, raw, item, hinner, hraw, hitem, heq⟩ := mem_labels h.get h.strip hmap hfield
      rw [← Prod.mk.eta (p := field), heq]
      exact entryRequires_cleaned
        (hclear _ (.nodeLabel hbare hinner hraw hitem (beq_eq_false_iff_ne.mp hdropped)))
    rw [h.restored_eq hother, hexported]
    refine strip_bareFields (by decide) (requires_bare hdistinct hclear (hbare ▸ by decide) h.get
      h.strip htidy hname hrequires) (hsettled _ (mem_of_lookup hname)) (hlabels.filter _) ?_
    intro metadata' fields hname' hlabels' hkind'
    unfold stripKind
    rw [hkind', hlabels']
    change bare "Node" (.obj ((map.filter _).filter _)) metadata' = _
    rw [List.filter_filter]
    simp only [Bool.and_self]
    exact bare_eq_some.mpr ⟨name, hname', rfl⟩

/-- Anything else is at rest, up to the claims. -/
theorem Exports.rest (h : Exports original preserve metadata₀ metadata exported restored)
    (hdistinct : Distinct (.obj original)) (hclear : Clear original)
    (hbare : kindOf (.obj original) ∉ bareKinds) :
    Tidy preserve metadata exported ∧ stripKind metadata exported = some exported ∧
      (kindOf (.obj exported) = some "StatefulSet" ↔ kindOf (.obj original) = some "StatefulSet") := by
  obtain ⟨htidy, hkind, hsame⟩ :=
    rest_stripKind hdistinct hclear (h.tidy hdistinct hclear) hbare h.kind
  refine ⟨htidy, hkind, ?_⟩
  rw [← @kind_tidied preserve original metadata hdistinct "StatefulSet" (by decide) (by decide),
    ← hsame]
  exact Iff.rfl

theorem Exports.again (h : Exports original preserve metadata₀ metadata exported restored)
    (hdistinct : Distinct (.obj original)) (hclear : Clear original)
    (hkind : kindOf (.obj original) ≠ some "StatefulSet") :
    stripResource (.obj restored) = some (.obj restored) := by
  by_cases hbare : kindOf (.obj original) ∈ bareKinds
  · exact h.bare_again hdistinct hclear hbare
  · obtain ⟨htidy, hagain, hset⟩ := h.rest hdistinct hclear hbare
    have hother : kindOf (.obj exported) ≠ some "StatefulSet" := fun heq => hkind (hset.mp heq)
    rw [h.restored_eq hother, htidy.stripResource (stripMetadata_again h.strip) hagain,
      restore_of_kind hother, Option.bind_some]

end Again

end ClusterState.Export
