import ClusterState.Export.Reclaiming

/-! # A template that is restored twice

The second time changes a template only where another label has come for its name.
-/

namespace ClusterState.Export

variable {preserve : Bool} {fields metadata relabeled labels managed managed' : Fields}
  {key key' : String} {value j template restored : Json}

/-! ## Documents without repeated keys -/

theorem Distinct.clean (h : Distinct j) : Distinct (clean preserve j) := by
  induction h with
  | null => exact .null
  | bool b => exact .bool b
  | int n => exact .int n
  | float x => exact .float x
  | str text => exact .str _
  | arr items h ih =>
    rw [clean_arr]
    refine .arr _ fun left hleft => ?_
    obtain ⟨item, hitem, rfl⟩ := List.mem_map.mp hleft
    exact ih item hitem
  | obj fields hkeys h ih =>
    rw [clean_obj]
    refine .obj _ (Distinct.obj fields hkeys h).nodup_cleanFields fun field hfield => ?_
    obtain ⟨item, hitem, hleft⟩ := mem_cleanFields.mp hfield
    rw [← (cleanEntry_eq_some.mp hleft).2.2]
    exact ih _ hitem

theorem Distinct.set (h : Distinct (.obj fields)) (hvalue : Distinct value) :
    Distinct (.obj (set key value fields)) := by
  refine .obj _ (nodup_set h.nodup) fun field hfield => ?_
  rcases mem_set hfield with rfl | hfield
  · exact hvalue
  · exact h.value hfield

theorem distinct_mergeLabels (hmanaged : ∀ label ∈ managed, Distinct label.2)
    (h : Distinct (.obj labels)) : Distinct (.obj (mergeLabels managed labels)) := by
  refine .obj _ (nodup_mergeLabels h.nodup) fun label hlabel => ?_
  exact (mem_mergeLabels hlabel).elim (hmanaged label) fun hlabel => h.value hlabel

theorem distinct_getDict (h : Distinct (.obj fields)) (hget : getDict key fields = some labels) :
    Distinct (.obj labels) := by
  rcases getDict_eq_some.mp hget with hlookup | ⟨-, rfl⟩
  · exact h.value (mem_of_lookup hlookup)
  · exact .obj [] List.nodup_nil (List.forall_mem_nil _)

/-! ## Scrubbing what has changed -/

theorem Settled.cleanFields_set (h : Settled preserve fields) {left : Json}
    (hleft : cleanEntry preserve key value = some left) :
    cleanFields preserve (Export.set key value fields) = Export.set key left fields := by
  induction fields with
  | nil =>
    rw [Export.set, cleanFields_cons, hleft]
    rfl
  | cons field fields ih =>
    obtain ⟨k, v⟩ := field
    obtain ⟨hfield, hfields⟩ := List.forall_mem_cons.mp h
    rw [Export.set, Export.set]
    by_cases heq : k = key
    · rw [heq, beq_self_eq_true, if_pos rfl, if_pos rfl, cleanFields_cons, hleft]
      exact congrArg ((key, left) :: ·) (Settled.cleanFields_eq hfields)
    · rw [beq_eq_false_iff_ne.mpr heq, if_neg Bool.false_ne_true, if_neg Bool.false_ne_true,
        cleanFields_cons, hfield]
      exact congrArg ((k, v) :: ·) (ih hfields)

theorem Settled.lookup (h : Settled preserve fields) :
    (fields.lookup key).bind (cleanEntry preserve key) = fields.lookup key := by
  cases hlookup : fields.lookup key with
  | none => rfl
  | some value => exact h _ (mem_of_lookup hlookup)

/-! ## Labels -/

def labelIn (key : String) (metadata : Fields) : Option Json :=
  (metadata.lookup "labels").bind fun labels => labels.get key

theorem labelIn_getDict (h : getDict "labels" metadata = some labels) :
    labelIn key metadata = labels.lookup key := by
  rw [labelIn]
  rcases getDict_eq_some.mp h with hlookup | ⟨hnone, rfl⟩
  · rw [hlookup]
    rfl
  · rw [hnone]
    rfl

theorem labelIn_clean (h : Distinct (.obj metadata)) : labelIn key (cleanFields preserve metadata) =
    (labelIn key metadata).bind (cleanEntry preserve key) := by
  rw [labelIn, labelIn, lookup_cleanFields h.nodup]
  cases hlookup : metadata.lookup "labels" with
  | none => rfl
  | some labels =>
    rw [Option.bind_some, Option.bind_some, ← get_clean (h.value (mem_of_lookup hlookup))]
    cases hleft : cleanEntry preserve "labels" labels with
    | some left =>
      obtain ⟨-, -, rfl⟩ := cleanEntry_eq_some.mp hleft
      rfl
    | none =>
      -- nothing has been left in the map
      rw [cleanEntry, isRuntime_plain (by decide), if_neg Bool.false_ne_true] at hleft
      split at hleft
      · rename_i hemptied
        rw [isEmptied, Bool.and_eq_true] at hemptied
        rw [isEmptyDict_iff.mp hemptied.2]
        rfl
      · cases hleft

theorem labelIn_settled (h : Settled preserve metadata) :
    (labelIn key metadata).bind (cleanEntry preserve key) = labelIn key metadata := by
  rw [labelIn]
  cases hlookup : metadata.lookup "labels" with
  | none => rfl
  | some labels =>
    cases labels with
    | obj labels => exact (h.of_mem (mem_of_lookup hlookup)).lookup
    | _ => rfl

theorem relabel_eq_some : relabel managed metadata = some relabeled ↔
    (managed = [] ∧ relabeled = metadata) ∨ managed ≠ [] ∧ ∃ labels,
      getDict "labels" metadata = some labels ∧
        relabeled = set "labels" (.obj (mergeLabels managed labels)) metadata := by
  cases managed with
  | nil =>
    rw [relabel, Option.some.injEq]
    exact ⟨fun h => .inl ⟨rfl, h.symm⟩, fun h => (h.resolve_right fun h => h.1 rfl).2.symm⟩
  | cons label managed =>
    change (getDict "labels" metadata).map _ = some relabeled ↔ _
    rw [Option.map_eq_some_iff]
    constructor
    · rintro ⟨labels, hlabels, rfl⟩
      exact .inr ⟨List.cons_ne_nil _ _, labels, hlabels, rfl⟩
    · rintro (⟨hnil, -⟩ | ⟨-, labels, hlabels, rfl⟩)
      · cases hnil
      · exact ⟨labels, hlabels, rfl⟩

theorem lookup_relabel_ne (h : relabel managed metadata = some relabeled) (hne : key ≠ "labels") :
    relabeled.lookup key = metadata.lookup key := by
  rcases relabel_eq_some.mp h with ⟨-, rfl⟩ | ⟨-, labels, -, rfl⟩
  · rfl
  · exact lookup_set_ne hne

theorem labelIn_relabel (hnodup : (managed.map Prod.fst).Nodup)
    (h : relabel managed metadata = some relabeled) :
    labelIn key relabeled = (managed.lookup key).or (labelIn key metadata) := by
  rcases relabel_eq_some.mp h with ⟨rfl, rfl⟩ | ⟨-, labels, hlabels, rfl⟩
  · rfl
  · rw [labelIn_getDict hlabels, ← lookup_mergeLabels hnodup, labelIn, lookup_set]
    rfl

theorem distinct_relabel (hmanaged : ∀ label ∈ managed, Distinct label.2)
    (hdistinct : Distinct (.obj metadata)) (h : relabel managed metadata = some relabeled) :
    Distinct (.obj relabeled) := by
  rcases relabel_eq_some.mp h with ⟨-, rfl⟩ | ⟨-, labels, hlabels, rfl⟩
  · exact hdistinct
  · exact hdistinct.set (distinct_mergeLabels hmanaged (distinct_getDict hdistinct hlabels))

theorem heldLabels_relabel (hheld : (heldLabels metadata).isSome)
    (h : relabel managed metadata = some relabeled) : (heldLabels relabeled).isSome := by
  rcases relabel_eq_some.mp h with ⟨-, rfl⟩ | ⟨-, labels, -, rfl⟩
  · exact hheld
  · rw [heldLabels_eq_some.mpr (.inl lookup_set)]
    rfl

theorem truthy_clean (h : j.truthy = false) : (clean preserve j).truthy = false := by
  cases j with
  | str text =>
    rw [Json.truthy, bne_eq_false_iff_eq] at h
    rw [h, clean_str]
    decide
  | arr items =>
    cases items with
    | nil => rfl
    | cons item items => cases h
  | obj fields =>
    cases fields with
    | nil => rfl
    | cons field fields => cases h
  | _ => exact h

theorem heldLabels_clean (hdistinct : Distinct (.obj metadata)) (h : (heldLabels metadata).isSome) :
    (heldLabels (cleanFields preserve metadata)).isSome := by
  obtain ⟨labels, hlabels⟩ := Option.isSome_iff_exists.mp h
  have hlookup := @lookup_cleanFields preserve _ "labels" hdistinct.nodup
  rcases heldLabels_eq_some.mp hlabels with hfound | ⟨-, hfalsy⟩
  · rw [hfound, Option.bind_some] at hlookup
    cases hleft : cleanEntry preserve "labels" (.obj labels) with
    | none =>
      rw [hleft] at hlookup
      rw [heldLabels, hlookup]
      rfl
    | some left =>
      obtain ⟨-, -, rfl⟩ := cleanEntry_eq_some.mp hleft
      rw [hleft, clean_obj] at hlookup
      rw [heldLabels_eq_some.mpr (.inl hlookup)]
      rfl
  · rw [heldLabels, hlookup]
    cases hfound : metadata.lookup "labels" with
    | none => rfl
    | some value =>
      rw [Option.bind_some]
      cases hleft : cleanEntry preserve "labels" value with
      | none => rfl
      | some left =>
        obtain ⟨-, -, rfl⟩ := cleanEntry_eq_some.mp hleft
        dsimp only
        rw [truthy_clean (hfalsy value hfound)]
        rfl

/-! ## The second time -/

/-- The metadata between the two times: scrubbed, which leaves all but the labels as they were. -/
structure Rescrubbed (preserve : Bool) (managed relabeled scrubbed : Fields) : Prop where
  labels : scrubbed.lookup "labels" = (relabeled.lookup "labels").bind (cleanEntry preserve "labels")
  other : ∀ key, key ≠ "labels" → scrubbed.lookup key = relabeled.lookup key
  label : ∀ key, managed.lookup key = none → labelIn key scrubbed = labelIn key relabeled
  same : managed = [] → scrubbed.lookup "labels" = relabeled.lookup "labels"

theorem exists_lookup (h : managed ≠ []) : ∃ key value, managed.lookup key = some value := by
  cases managed with
  | nil => exact absurd rfl h
  | cons label managed => exact ⟨label.1, label.2, by rw [List.lookup_cons, beq_self_eq_true]⟩

theorem Rescrubbed.alike_iff {scrubbed : Fields} (h : Rescrubbed preserve managed relabeled scrubbed)
    (hnodup : (managed.map Prod.fst).Nodup) :
    (∃ again, relabel managed scrubbed = some again ∧ Json.Alike (.obj again) (.obj relabeled)) ↔
      ∀ key value, managed.lookup key = some value →
        ∃ value', labelIn key relabeled = some value' ∧ Json.Alike value value' := by
  constructor
  · rintro ⟨again, hagain, halike⟩ key value hvalue
    rcases relabel_eq_some.mp hagain with ⟨rfl, -⟩ | ⟨-, labels, hlabels, rfl⟩
    · cases hvalue
    · obtain ⟨hkeys, hall⟩ := Json.alike_obj_iff.mp halike
      have hsome := hkeys "labels"
      rw [lookup_set] at hsome
      obtain ⟨map, hmap⟩ := Option.isSome_iff_exists.mp hsome.symm
      have hlabels' := hall "labels" _ _ lookup_set hmap
      cases hlabels' with
      | obj fields fields' hkeys' hall' =>
        have hmerged : (mergeLabels managed labels).lookup key = some value := by
          rw [lookup_mergeLabels hnodup, hvalue]
          rfl
        have hsome' := hkeys' key
        rw [hmerged] at hsome'
        obtain ⟨value', hvalue'⟩ := Option.isSome_iff_exists.mp hsome'.symm
        refine ⟨value', ?_, hall' key value value' hmerged hvalue'⟩
        rw [labelIn, hmap]
        exact hvalue'
  · intro hall
    by_cases hnil : managed = []
    · refine ⟨scrubbed, relabel_eq_some.mpr (.inl ⟨hnil, rfl⟩), ?_⟩
      have hlookup : ∀ key, scrubbed.lookup key = relabeled.lookup key := by
        intro key
        by_cases heq : key = "labels"
        · exact heq ▸ h.same hnil
        · exact h.other key heq
      refine Json.alike_obj_iff.mpr ⟨fun key => by rw [hlookup], fun key a b ha hb => ?_⟩
      cases (hlookup key ▸ ha).symm.trans hb
      exact .refl a
    · obtain ⟨key, value, hvalue⟩ := exists_lookup hnil
      obtain ⟨value', hvalue', -⟩ := hall key value hvalue
      obtain ⟨map, hmap, hget⟩ := Option.bind_eq_some_iff.mp hvalue'
      cases map with
      | obj map =>
        obtain ⟨labels, hlabels⟩ : ∃ labels, getDict "labels" scrubbed = some labels := by
          cases hleft : cleanEntry preserve "labels" (.obj map) with
          | none => exact ⟨[], getDict_eq_some.mpr (.inr ⟨by rw [h.labels, hmap, ← hleft]; rfl, rfl⟩)⟩
          | some left =>
            obtain ⟨-, -, rfl⟩ := cleanEntry_eq_some.mp hleft
            rw [clean_obj] at hleft
            exact ⟨_, getDict_eq_some.mpr (.inl (by rw [h.labels, hmap, ← hleft]; rfl))⟩
        refine ⟨_, relabel_eq_some.mpr (.inr ⟨hnil, labels, hlabels, rfl⟩), ?_⟩
        have hother : ∀ key, key ≠ "labels" →
            (set "labels" (.obj (mergeLabels managed labels)) scrubbed).lookup key =
              relabeled.lookup key := fun key hne => (lookup_set_ne hne).trans (h.other key hne)
        have hmerged : ∀ key, (mergeLabels managed labels).lookup key =
            (managed.lookup key).or (labelIn key scrubbed) := fun key => by
          rw [lookup_mergeLabels hnodup, labelIn_getDict hlabels]
        have hmap' : ∀ key, labelIn key relabeled = map.lookup key := fun key => by
          rw [labelIn, hmap]
          rfl
        -- labels that do not come are left
        have hleft : ∀ key, managed.lookup key = none →
            (mergeLabels managed labels).lookup key = map.lookup key := fun key hnone => by
          rw [hmerged, hnone, Option.none_or, h.label key hnone, hmap']
        rw [Json.alike_of_lookup hother lookup_set hmap, Json.alike_obj_iff]
        constructor
        · intro key
          cases hlookup : managed.lookup key with
          | none => rw [hleft key hlookup]
          | some value =>
            obtain ⟨value', hvalue', -⟩ := hall key value hlookup
            rw [hmerged, hlookup, ← hmap', hvalue']
            rfl
        · intro key a b ha hb
          cases hlookup : managed.lookup key with
          | none =>
            rw [hleft key hlookup] at ha
            cases ha.symm.trans hb
            exact .refl a
          | some value =>
            obtain ⟨value', hvalue', halike⟩ := hall key value hlookup
            rw [hmerged, hlookup] at ha
            rw [hmap'] at hvalue'
            cases ha
            cases hvalue'.symm.trans hb
            exact halike
      | _ => cases hget

theorem rescrubbed (hsettled : Settled preserve metadata) (hnodup : (managed.map Prod.fst).Nodup)
    (hdistinct : Distinct (.obj relabeled)) (h : relabel managed metadata = some relabeled)
    (hsubset : ∀ key, managed'.lookup key = none → managed.lookup key = none) :
    Rescrubbed preserve managed' relabeled (cleanFields preserve relabeled) where
  labels := lookup_cleanFields hdistinct.nodup
  other key hne := by rw [lookup_cleanFields hdistinct.nodup, lookup_relabel_ne h hne, hsettled.lookup]
  label key hnone := by
    rw [labelIn_clean hdistinct, labelIn_relabel hnodup h, hsubset key hnone, Option.none_or,
      labelIn_settled hsettled]
  same hnil := by
    have hmanaged : managed = [] := by
      by_contra hne
      obtain ⟨key, value, hvalue⟩ := exists_lookup hne
      rw [hsubset key (hnil ▸ rfl)] at hvalue
      cases hvalue
    rcases relabel_eq_some.mp h with ⟨-, rfl⟩ | ⟨hne, -⟩
    · rw [hsettled.cleanFields_eq]
    · exact absurd hmanaged hne

section Restored

variable {byName byName' : List (Option String × Fields)}

theorem settled_getDict (h : Settled preserve fields) (hget : getDict key fields = some metadata) :
    Settled preserve metadata := by
  rcases getDict_eq_some.mp hget with hlookup | ⟨-, rfl⟩
  · exact h.of_mem (mem_of_lookup hlookup)
  · exact List.forall_mem_nil _

theorem Template.of_restoreClaim (h : Template template fields metadata)
    (hrestored : restoreClaim byName template = some restored) : ∃ relabeled,
      relabel (managedOf byName (claimName template)) metadata = some relabeled ∧
        restored = .obj (set "metadata" (.obj relabeled) fields) ∧
        Template restored (set "metadata" (.obj relabeled) fields) relabeled ∧
        claimName restored = claimName template := by
  rw [h.restoreClaim_eq] at hrestored
  obtain ⟨relabeled, hrelabeled, rfl⟩ := Option.map_eq_some_iff.mp hrestored
  refine ⟨relabeled, hrelabeled, rfl, template_set, ?_⟩
  rw [template_set.claimName_eq, h.claimName_eq, lookup_relabel_ne hrelabeled (by decide)]

theorem Template.restoreClaim_again (h : Template template fields metadata)
    (hsettled : Settled preserve fields) (hdistinct : Distinct template)
    (hmanaged : ∀ label ∈ managedOf byName (claimName template), Distinct label.2)
    (hnodup : ((managedOf byName (claimName template)).map Prod.fst).Nodup)
    (hnodup' : ((managedOf byName' (claimName template)).map Prod.fst).Nodup)
    (hsubset : ∀ key, (managedOf byName' (claimName template)).lookup key = none →
      (managedOf byName (claimName template)).lookup key = none)
    (hrestored : restoreClaim byName template = some restored) :
    (∃ again, restoreClaim byName' (clean preserve restored) = some again ∧ Json.Alike again restored) ↔
      ∀ key value, (managedOf byName' (claimName template)).lookup key = some value →
        ∃ value', templateLabel key restored = some value' ∧ Json.Alike value value' := by
  obtain ⟨relabeled, hrelabeled, heq, htemplate, -⟩ := h.of_restoreClaim hrestored
  have hmetadata : Settled preserve metadata := settled_getDict hsettled h.get
  have hdistinct' : Distinct (.obj relabeled) :=
    distinct_relabel hmanaged (distinct_getDict (h.eq ▸ hdistinct) h.get) hrelabeled
  have hrescrubbed := rescrubbed hmetadata hnodup hdistinct' hrelabeled hsubset
  have hclean : clean preserve restored =
      .obj (set "metadata" (.obj (cleanFields preserve relabeled)) fields) := by
    rw [heq, clean_obj, hsettled.cleanFields_set (cleanEntry_path (by simp [pathKeys])), clean_obj]
  have hname : claimName (clean preserve restored) = claimName template := by
    rw [hclean, template_set.claimName_eq, h.claimName_eq, hrescrubbed.other _ (by decide),
      lookup_relabel_ne hrelabeled (by decide)]
  have hstep : ∀ again, restoreClaim byName' (clean preserve restored) = some again ↔
      ∃ metadata, relabel (managedOf byName' (claimName template)) (cleanFields preserve relabeled) =
        some metadata ∧ .obj (set "metadata" (.obj metadata) fields) = again := by
    intro again
    rw [← hname, hclean, template_set.restoreClaim_eq, Option.map_eq_some_iff]
    simp only [set_set]
  have hlabel : ∀ key, templateLabel key restored = labelIn key relabeled := fun key =>
    htemplate.templateLabel_eq
  have halike : ∀ again, Json.Alike (.obj (set "metadata" (.obj again) fields)) restored ↔
      Json.Alike (.obj again) (.obj relabeled) := by
    intro again
    rw [heq]
    exact Json.alike_of_lookup (fun key hne => by rw [lookup_set_ne hne, lookup_set_ne hne])
      lookup_set lookup_set
  simp only [hlabel]
  rw [← hrescrubbed.alike_iff hnodup']
  constructor
  · rintro ⟨again, hagain, h⟩
    obtain ⟨metadata', hmetadata', rfl⟩ := (hstep again).mp hagain
    exact ⟨metadata', hmetadata', (halike metadata').mp h⟩
  · rintro ⟨metadata', hmetadata', h⟩
    exact ⟨_, (hstep _).mpr ⟨metadata', hmetadata', rfl⟩, (halike metadata').mpr h⟩

end Restored

end ClusterState.Export
