import ClusterState.Export.Restoring

/-! # What the selectors require of restored templates

A selector is lost with a label only where the label of another template comes in its place.
-/

namespace ClusterState.Export

variable {preserve : Bool} {original fields metadata relabeled labels managed : Fields} {key : String}
  {template restored a b : Json} {name : Option String} {field : String × Json}
  {templates restoreds : List Json} {byName : List (Option String × Fields)}

theorem requires_of_mem (h : requiresManagedByLabels a = true) (hmem : (key, a) ∈ fields) :
    requiresManagedByLabels (.obj fields) = true :=
  requires_obj.mpr ⟨_, hmem, entryRequires_iff.mpr (.inr h)⟩

theorem requires_getDict {inner : Fields} (h : requiresManagedByLabels (.obj inner) = true)
    (hget : getDict key fields = some inner) : requiresManagedByLabels (.obj fields) = true := by
  obtain ⟨field, hfield, -⟩ := requires_obj.mp h
  exact requires_of_mem h (mem_getDict hget hfield)

theorem mem_set_self {value : Json} : (key, value) ∈ set key value fields := mem_of_lookup lookup_set

theorem mem_set_of_ne {value : Json} (hmem : field ∈ fields) (hne : field.1 ≠ key) :
    field ∈ set key value fields := by
  induction fields with
  | nil => cases hmem
  | cons head fields ih =>
    obtain ⟨k, v⟩ := head
    rw [set]
    rcases List.mem_cons.mp hmem with rfl | hmem
    · rw [if_neg (by simpa using hne)]
      exact List.mem_cons_self
    · split
      · exact List.mem_cons_of_mem _ hmem
      · exact List.mem_cons_of_mem _ (ih hmem)

/-! ## Nothing new -/

theorem requires_of_merged (h : requiresManagedByLabels (.obj (mergeLabels managed labels)) = true) :
    requiresManagedByLabels (.obj managed) = true ∨ requiresManagedByLabels (.obj labels) = true := by
  obtain ⟨label, hlabel, hrequires⟩ := requires_obj.mp h
  exact (mem_mergeLabels hlabel).imp (fun hmem => requires_obj.mpr ⟨label, hmem, hrequires⟩)
    fun hmem => requires_obj.mpr ⟨label, hmem, hrequires⟩

theorem requires_of_relabeled (hrelabeled : relabel managed metadata = some relabeled)
    (h : requiresManagedByLabels (.obj relabeled) = true) :
    requiresManagedByLabels (.obj managed) = true ∨ requiresManagedByLabels (.obj metadata) = true := by
  rcases relabel_eq_some.mp hrelabeled with ⟨-, rfl⟩ | ⟨-, labels, hlabels, rfl⟩
  · exact .inr h
  · obtain ⟨field, hfield, hrequires⟩ := requires_obj.mp h
    rcases mem_set hfield with rfl | hfield
    · rw [entryRequires_plain (by decide)] at hrequires
      exact (requires_of_merged hrequires).imp_right fun h => requires_getDict h hlabels
    · exact .inr (requires_obj.mpr ⟨field, hfield, hrequires⟩)

theorem requires_managedOf (hclaims : templates.mapM claimLabels = some byName)
    (h : requiresManagedByLabels (.obj (managedOf byName name)) = true) :
    requiresManagedByLabels (.arr templates) = true := by
  obtain ⟨label, hlabel, hrequires⟩ := requires_obj.mp h
  obtain ⟨template, hmem, fields, metadata, labels, rfl, hmetadata, hlabels, hmem'⟩ :=
    mem_managedOf hclaims hlabel
  have hinner := requires_of_mem (requires_obj.mpr ⟨label, hmem', hrequires⟩) hlabels
  exact requires_arr.mpr ⟨_, hmem, requires_of_mem hinner hmetadata⟩

theorem requires_of_restored (hclaims : templates.mapM claimLabels = some byName)
    (hdistinct : Distinct template) (hmem : template ∈ templates)
    (hrestored : restoreClaim byName (clean preserve template) = some restored)
    (h : requiresManagedByLabels restored = true) : requiresManagedByLabels (.arr templates) = true := by
  obtain ⟨fields, metadata, htemplate, -⟩ := template_of_mem hclaims hmem
  have htemplate' := @Template.clean preserve _ _ _ htemplate hdistinct
  obtain ⟨relabeled, hrelabeled, rfl, -⟩ := htemplate'.of_restoreClaim hrestored
  obtain ⟨field, hfield, hrequires⟩ := requires_obj.mp h
  have hclean : requiresManagedByLabels (.obj (managedOf byName (claimName (clean preserve template)))) = true ∨
      requiresManagedByLabels (clean preserve template) = true := by
    rcases mem_set hfield with rfl | hfield
    · rw [entryRequires_plain (by decide)] at hrequires
      exact (requires_of_relabeled hrelabeled hrequires).imp_right fun h =>
        htemplate'.eq ▸ requires_getDict h htemplate'.get
    · exact .inr (htemplate'.eq ▸ requires_obj.mpr ⟨field, hfield, hrequires⟩)
  rcases hclean with h | h
  · exact requires_managedOf hclaims h
  · exact requires_arr.mpr ⟨template, hmem, requires_of_clean h⟩

/-! ## Nothing less -/

/-- A map still requires the labels if a label that is replaced requires none of its own. -/
theorem requires_relabeled (hmetadata : Distinct (.obj metadata))
    (hnodup : (managed.map Prod.fst).Nodup) (hrelabeled : relabel managed metadata = some relabeled)
    (hreplaced : ∀ key value left, managed.lookup key = some value → labelIn key metadata = some left →
      entryRequires (key, left) = true → entryRequires (key, value) = true)
    (h : requiresManagedByLabels (.obj metadata) = true) :
    requiresManagedByLabels (.obj relabeled) = true := by
  rcases relabel_eq_some.mp hrelabeled with ⟨-, rfl⟩ | ⟨-, labels, hlabels, rfl⟩
  · exact h
  · obtain ⟨⟨key, value⟩, hfield, hrequires⟩ := requires_obj.mp h
    by_cases hkey : key = "labels"
    · subst hkey
      have hlookup := lookup_of_mem hmetadata.nodup hfield
      rcases getDict_eq_some.mp hlabels with hfound | ⟨hnone, -⟩
      · cases hlookup.symm.trans hfound
        rw [entryRequires_plain (by decide)] at hrequires
        obtain ⟨⟨key, left⟩, hlabel, hrequires⟩ := requires_obj.mp hrequires
        refine requires_of_mem (requires_obj.mpr ?_) mem_set_self
        have hleft := lookup_of_mem (hmetadata.value hfield).nodup hlabel
        cases hmanaged : managed.lookup key with
        | none =>
          refine ⟨(key, left), mem_of_lookup ?_, hrequires⟩
          rw [lookup_mergeLabels hnodup, hmanaged, hleft]
          rfl
        | some value =>
          refine ⟨(key, value), mem_of_lookup ?_, hreplaced key value left hmanaged ?_ hrequires⟩
          · rw [lookup_mergeLabels hnodup, hmanaged]
            rfl
          · rw [labelIn_getDict hlabels, hleft]
      · rw [hnone] at hlookup
        cases hlookup
    · exact requires_obj.mpr ⟨_, mem_set_of_ne hfield hkey, hrequires⟩

theorem get_metadata (h : Template template fields metadata) (hfield : field ∈ metadata) :
    template.get "metadata" = some (.obj metadata) := by
  rw [h.eq]
  rcases getDict_eq_some.mp h.get with hlookup | ⟨-, rfl⟩
  · exact hlookup
  · cases hfield

theorem entryRequires_of_clean {item : Json} (h : entryRequires (key, clean preserve item) = true) :
    entryRequires (key, item) = true :=
  entryRequires_iff.mpr ((entryRequires_iff.mp h).imp (fun h => ⟨h.1, hasManagedBy_of_clean h.2⟩)
    requires_of_clean)

theorem requires_replaced {value left : Json} (hclear : Clear original)
    (hkind : kindOf (.obj original) = some "StatefulSet") (htemplates : ClaimTemplates original templates)
    (hdistinct : ∀ template ∈ templates, Distinct template)
    (hclaims : templates.mapM claimLabels = some byName) (hmem : template ∈ templates)
    (htemplate : Template template fields metadata)
    (hvalue : (managedOf byName (scrubbedName template)).lookup key = some value)
    (hleft : labelIn key (cleanFields preserve metadata) = some left)
    (h : entryRequires (key, left) = true) : entryRequires (key, value) = true := by
  have hmetadata := distinct_getDict (htemplate.eq ▸ hdistinct _ hmem) htemplate.get
  rw [labelIn_clean hmetadata] at hleft
  obtain ⟨item, hitem, hleft⟩ := Option.bind_eq_some_iff.mp hleft
  obtain ⟨-, -, rfl⟩ := cleanEntry_eq_some.mp hleft
  rw [lookup_managedOf hclaims] at hvalue
  split at hvalue
  · rename_i hkey
    obtain ⟨other, hother, hvalue⟩ := Option.bind_eq_some_iff.mp hvalue
    have hname : claimName other = scrubbedName template := by simpa using List.find?_some hother
    by_cases heq : other = template
    · -- its own label, from before
      rw [heq, htemplate.templateLabel_eq] at hvalue
      cases hitem.symm.trans hvalue
      exact entryRequires_of_clean h
    · obtain ⟨map, hmap, hget⟩ := Option.bind_eq_some_iff.mp hitem
      cases map with
      | obj labels =>
        have hlabels := mem_of_lookup hmap
        have hmem' := List.mem_reverse.mp (List.mem_of_find?_eq_some hother)
        have hdiscarded : Discarded original (key, item) :=
          .claimLabel hkind htemplates hmem hmem' heq hname (get_metadata htemplate hlabels) hlabels
            (mem_of_lookup hget) hkey (Option.isSome_of_eq_some hvalue)
        rw [entryRequires_cleaned (hclear _ hdiscarded)] at h
        cases h
      | _ => cases hget
  · cases hvalue

theorem requires_restored (hclear : Clear original)
    (hkind : kindOf (.obj original) = some "StatefulSet") (htemplates : ClaimTemplates original templates)
    (hdistinct : ∀ template ∈ templates, Distinct template)
    (hclaims : templates.mapM claimLabels = some byName) (hmem : template ∈ templates)
    (hrestored : restoreClaim byName (clean preserve template) = some restored)
    (h : requiresManagedByLabels (clean preserve template) = true) :
    requiresManagedByLabels restored = true := by
  obtain ⟨fields, metadata, htemplate, -⟩ := template_of_mem hclaims hmem
  have htemplate' := @Template.clean preserve _ _ _ htemplate (hdistinct _ hmem)
  have hfields : Distinct (.obj (cleanFields preserve fields)) :=
    htemplate'.eq ▸ (hdistinct _ hmem).clean
  have hmetadata := distinct_getDict (htemplate.eq ▸ hdistinct _ hmem) htemplate.get
  have hmetadata' := distinct_getDict hfields htemplate'.get
  have hname := @claimName_clean preserve _ _ _ htemplate (hdistinct _ hmem)
  obtain ⟨relabeled, hrelabeled, rfl, -⟩ := htemplate'.of_restoreClaim hrestored
  rw [hname] at hrelabeled
  rw [htemplate'.eq] at h
  obtain ⟨⟨key, value⟩, hfield, hrequires⟩ := requires_obj.mp h
  by_cases hkey : key = "metadata"
  · subst hkey
    have hlookup := lookup_of_mem hfields.nodup hfield
    rcases getDict_eq_some.mp htemplate'.get with hfound | ⟨hnone, -⟩
    · cases hlookup.symm.trans hfound
      rw [entryRequires_plain (by decide)] at hrequires
      refine requires_of_mem ?_ mem_set_self
      refine requires_relabeled hmetadata' (nodup_managedOf hdistinct hclaims) hrelabeled ?_ hrequires
      exact fun key value left =>
        requires_replaced hclear hkind htemplates hdistinct hclaims hmem htemplate
    · rw [hnone] at hlookup
      cases hlookup
  · exact requires_obj.mpr ⟨_, mem_set_of_ne hfield hkey, hrequires⟩

end ClusterState.Export
