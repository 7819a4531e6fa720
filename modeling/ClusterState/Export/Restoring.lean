import ClusterState.Export.Relabeling

/-! # All templates of a stateful set

The second time takes the labels from the templates that the first one has restored.
-/

namespace ClusterState.Export

section Alike

variable {xs ys : List Json} {f : Json → Option Json}

theorem alike_arr : Json.Alike (.arr xs) (.arr ys) ↔ List.Forall₂ Json.Alike xs ys := by
  rw [Json.alike_arr_iff]
  constructor
  · rintro ⟨hlength, h⟩
    exact List.forall₂_iff_get.mpr ⟨hlength, fun i hx hy =>
      h i _ _ (List.getElem?_eq_getElem hx) (List.getElem?_eq_getElem hy)⟩
  · intro h
    obtain ⟨hlength, h⟩ := List.forall₂_iff_get.mp h
    refine ⟨hlength, fun i a b ha hb => ?_⟩
    obtain ⟨hx, rfl⟩ := List.getElem?_eq_some_iff.mp ha
    obtain ⟨hy, rfl⟩ := List.getElem?_eq_some_iff.mp hb
    exact h i hx hy

theorem mapM_alike : (∃ again, xs.mapM f = some again ∧ Json.Alike (.arr again) (.arr xs)) ↔
    ∀ x ∈ xs, ∃ again, f x = some again ∧ Json.Alike again x := by
  simp only [alike_arr, mapM_eq_some]
  induction xs with
  | nil => exact ⟨fun _ => List.forall_mem_nil _, fun _ => ⟨[], .nil, .nil⟩⟩
  | cons x xs ih =>
    rw [List.forall_mem_cons, ← ih]
    constructor
    · rintro ⟨again, hagain, halike⟩
      cases hagain with
      | cons hx hxs =>
        cases halike with
        | cons hx' hxs' => exact ⟨⟨_, hx, hx'⟩, _, hxs, hxs'⟩
    · rintro ⟨⟨y, hx, hx'⟩, ys, hxs, hxs'⟩
      exact ⟨y :: ys, .cons hx hxs, .cons hx' hxs'⟩

theorem mapM_isSome {α β : Type} {f : α → Option β} {xs : List α} (h : ∀ x ∈ xs, (f x).isSome) :
    ∃ ys, xs.mapM f = some ys := by
  induction xs with
  | nil => exact ⟨[], rfl⟩
  | cons x xs ih =>
    obtain ⟨hx, hxs⟩ := List.forall_mem_cons.mp h
    obtain ⟨y, hy⟩ := Option.isSome_iff_exists.mp hx
    obtain ⟨ys, hys⟩ := ih hxs
    exact ⟨y :: ys, by rw [List.mapM_cons, hy, hys]; rfl⟩

end Alike

variable {preserve : Bool} {fields metadata labels managed : Fields} {key : String}
  {template restored : Json} {name : Option String} {label : String × Json}
  {templates restoreds : List Json} {byName byName' : List (Option String × Fields)}

/-! ## Scrubbed templates -/

theorem getDict_clean {inner : Fields} (hkey : key ∈ pathKeys) (hdistinct : Distinct (.obj fields))
    (h : getDict key fields = some inner) :
    getDict key (cleanFields preserve fields) = some (cleanFields preserve inner) := by
  rw [getDict_eq_some, lookup_cleanFields hdistinct.nodup]
  rcases getDict_eq_some.mp h with hlookup | ⟨hnone, rfl⟩
  · rw [hlookup, Option.bind_some, cleanEntry_path hkey, clean_obj]
    exact .inl rfl
  · rw [hnone]
    exact .inr ⟨rfl, rfl⟩

theorem Template.clean (h : Template template fields metadata) (hdistinct : Distinct template) :
    Template (clean preserve template) (cleanFields preserve fields) (cleanFields preserve metadata) where
  eq := by rw [h.eq, clean_obj]
  get := getDict_clean (by simp [pathKeys]) (h.eq ▸ hdistinct) h.get

def scrubbedName (template : Json) : Option String := (claimName template).map replaceText

theorem claimName_clean (h : Template template fields metadata) (hdistinct : Distinct template) :
    claimName (clean preserve template) = scrubbedName template := by
  have hmetadata := distinct_getDict (h.eq ▸ hdistinct) h.get
  rw [(h.clean hdistinct).claimName_eq, scrubbedName, h.claimName_eq,
    lookup_cleanFields hmetadata.nodup]
  cases metadata.lookup "name" with
  | none => rfl
  | some value =>
    have hleft : cleanEntry preserve "name" value = some (clean preserve value) :=
      cleanEntry_eq_some.mpr ⟨isRuntime_plain (by decide), rfl, rfl⟩
    rw [Option.bind_some, hleft, Option.bind_some, Option.bind_some]
    cases value with
    | obj fields =>
      rw [clean_obj]
      rfl
    | arr items =>
      rw [clean_arr]
      rfl
    | _ => rfl

theorem templateLabel_clean (h : Template template fields metadata) (hdistinct : Distinct template) :
    templateLabel key (clean preserve template) =
      (templateLabel key template).bind (cleanEntry preserve key) := by
  rw [(h.clean hdistinct).templateLabel_eq, h.templateLabel_eq]
  exact labelIn_clean (distinct_getDict (h.eq ▸ hdistinct) h.get)

/-! ## Labels by name -/

theorem claimLabels_eq_some : claimLabels template = some (name, managed) ↔
    ∃ fields metadata labels, Template template fields metadata ∧ heldLabels metadata = some labels ∧
      name = claimName template ∧
        managed = labels.filter fun label => MANAGED_BY_LABEL_KEYS.contains label.1 := by
  constructor
  · intro h
    obtain ⟨fields, metadata, htemplate⟩ := template_of_claimLabels (Option.isSome_of_eq_some h)
    rw [htemplate.claimLabels_eq] at h
    obtain ⟨labels, hlabels, heq⟩ := Option.map_eq_some_iff.mp h
    cases heq
    exact ⟨fields, metadata, labels, htemplate, hlabels, rfl, rfl⟩
  · rintro ⟨fields, metadata, labels, htemplate, hlabels, rfl, rfl⟩
    rw [htemplate.claimLabels_eq, hlabels]
    rfl

/-- The label that a name stands for: that of the last template which has the name. -/
def labelOfName (nameOf : Json → Option String) (key : String) (name : Option String)
    (templates : List Json) : Option Json :=
  (templates.reverse.find? fun template => nameOf template == name).bind (templateLabel key)

theorem rel_managedOf (h : templates.mapM claimLabels = some byName) :
    Option.Rel (fun template claim => claimLabels template = some claim)
      (templates.reverse.find? fun template => claimName template == name)
      (byName.reverse.find? fun claim => claim.1 == name) := by
  refine find?_forall₂ (List.forall₂_reverse_iff.mpr (mapM_eq_some.mp h)) fun template claim hclaim => ?_
  obtain ⟨-, -, -, -, -, hname, -⟩ := claimLabels_eq_some.mp hclaim
  rw [hname]

theorem managedOf_cases (h : templates.mapM claimLabels = some byName) :
    (templates.reverse.find? (fun template => claimName template == name) = none ∧
        managedOf byName name = []) ∨
      ∃ template, templates.reverse.find? (fun template => claimName template == name) = some template ∧
        claimLabels template = some (name, managedOf byName name) := by
  have hrel := @rel_managedOf name _ _ h
  rw [managedOf, lookup_eq_find?]
  generalize templates.reverse.find? (fun template => claimName template == name) = first at hrel ⊢
  cases hfound : byName.reverse.find? (fun claim => claim.1 == name) with
  | none =>
    rw [hfound] at hrel
    cases hrel
    exact .inl ⟨rfl, rfl⟩
  | some claim =>
    rw [hfound] at hrel
    have hname : claim.1 = name := by simpa using List.find?_some hfound
    cases hrel with
    | some hclaim =>
      refine .inr ⟨_, rfl, hclaim.trans ?_⟩
      rw [← hname]
      rfl

theorem lookup_managedOf (h : templates.mapM claimLabels = some byName) :
    (managedOf byName name).lookup key =
      if key ∈ MANAGED_BY_LABEL_KEYS then labelOfName claimName key name templates else none := by
  rw [labelOfName]
  rcases @managedOf_cases name _ _ h with ⟨hnone, hnil⟩ | ⟨template, hfound, hclaim⟩
  · rw [hnone, hnil]
    exact (ite_self none).symm
  · obtain ⟨fields, metadata, labels, htemplate, hlabels, -, hmanaged⟩ := claimLabels_eq_some.mp hclaim
    rw [hfound, hmanaged, lookup_filter_managed, Option.bind_some, htemplate.templateLabel_held hlabels]

theorem mem_heldLabels (h : heldLabels metadata = some labels) (hlabel : label ∈ labels) :
    ("labels", .obj labels) ∈ metadata := by
  rcases heldLabels_eq_some.mp h with hlookup | ⟨rfl, -⟩
  · exact mem_of_lookup hlookup
  · cases hlabel

theorem mem_getDict {inner : Fields} {field : String × Json} (h : getDict key fields = some inner)
    (hfield : field ∈ inner) : (key, .obj inner) ∈ fields := by
  rcases getDict_eq_some.mp h with hlookup | ⟨-, rfl⟩
  · exact mem_of_lookup hlookup
  · cases hfield

theorem mem_managedOf (h : templates.mapM claimLabels = some byName)
    (hlabel : label ∈ managedOf byName name) : ∃ template ∈ templates, ∃ fields metadata labels,
      template = .obj fields ∧ ("metadata", .obj metadata) ∈ fields ∧
        ("labels", .obj labels) ∈ metadata ∧ label ∈ labels := by
  rcases @managedOf_cases name _ _ h with ⟨-, hnil⟩ | ⟨template, hfound, hclaim⟩
  · rw [hnil] at hlabel
    cases hlabel
  · obtain ⟨fields, metadata, labels, htemplate, hlabels, -, hmanaged⟩ := claimLabels_eq_some.mp hclaim
    rw [hmanaged] at hlabel
    have hmem := (List.mem_filter.mp hlabel).1
    have hheld := mem_heldLabels hlabels hmem
    exact ⟨template, List.mem_reverse.mp (List.mem_of_find?_eq_some hfound), fields, metadata, labels,
      htemplate.eq, mem_getDict htemplate.get hheld, hheld, hmem⟩

theorem distinct_managedOf (hdistinct : ∀ template ∈ templates, Distinct template)
    (h : templates.mapM claimLabels = some byName) (hlabel : label ∈ managedOf byName name) :
    Distinct label.2 := by
  obtain ⟨template, htemplate, fields, metadata, labels, rfl, hmetadata, hlabels, hmem⟩ :=
    mem_managedOf h hlabel
  exact (((hdistinct _ htemplate).value hmetadata).value hlabels).value hmem

theorem nodup_managedOf (hdistinct : ∀ template ∈ templates, Distinct template)
    (h : templates.mapM claimLabels = some byName) : ((managedOf byName name).map Prod.fst).Nodup := by
  rcases @managedOf_cases name _ _ h with ⟨-, hnil⟩ | ⟨template, hfound, hclaim⟩
  · rw [hnil]
    exact List.nodup_nil
  · obtain ⟨fields, metadata, labels, htemplate, hlabels, -, hmanaged⟩ := claimLabels_eq_some.mp hclaim
    rw [hmanaged]
    have hfields := hdistinct _ (List.mem_reverse.mp (List.mem_of_find?_eq_some hfound))
    rw [htemplate.eq] at hfields
    rcases heldLabels_eq_some.mp hlabels with hlookup | ⟨rfl, -⟩
    · have hmetadata := distinct_getDict hfields htemplate.get
      exact (hmetadata.value (mem_of_lookup hlookup)).nodup.sublist (List.filter_sublist.map _)
    · exact List.nodup_nil

/-! ## Restored templates -/

/-- A template keeps the labels that the last template of its exported name has, unless the name
stands for such a label before it is exported. -/
def ClaimSettled (preserve : Bool) (templates : List Json) (template : Json) : Prop :=
  ∀ key ∈ MANAGED_BY_LABEL_KEYS,
    labelOfName claimName key (scrubbedName template) templates = none →
      ∀ value, (labelOfName scrubbedName key (scrubbedName template) templates).bind
          (cleanEntry preserve key) = some value →
        ∃ value', (templateLabel key template).bind (cleanEntry preserve key) = some value' ∧
          Json.Alike value value'

def ClaimsSettled (preserve : Bool) (templates : List Json) : Prop :=
  ∀ template ∈ templates, ClaimSettled preserve templates template

section Again

variable (hdistinct : ∀ template ∈ templates, Distinct template)
  (h : templates.mapM claimLabels = some byName)

include h in
theorem template_of_mem (hmem : template ∈ templates) : ∃ fields metadata,
    Template template fields metadata ∧ (heldLabels metadata).isSome := by
  obtain ⟨⟨name, managed⟩, -, hclaim⟩ := forall₂_mem_left (mapM_eq_some.mp h) hmem
  obtain ⟨fields, metadata, labels, htemplate, hlabels, -⟩ := claimLabels_eq_some.mp hclaim
  exact ⟨fields, metadata, htemplate, Option.isSome_of_eq_some hlabels⟩

include hdistinct h in
theorem restored_of_mem (hmem : template ∈ templates)
    (hrestored : restoreClaim byName (clean preserve template) = some restored) :
    claimName restored = scrubbedName template ∧ (claimLabels restored).isSome ∧ Distinct restored ∧
      ∀ key, templateLabel key restored = ((managedOf byName (scrubbedName template)).lookup key).or
        ((templateLabel key template).bind (cleanEntry preserve key)) := by
  obtain ⟨fields, metadata, htemplate, hheld⟩ := template_of_mem h hmem
  have htemplate' := @Template.clean preserve _ _ _ htemplate (hdistinct _ hmem)
  have hdistinct' : Distinct (.obj (cleanFields preserve fields)) :=
    htemplate'.eq ▸ (hdistinct _ hmem).clean
  have hmetadata := distinct_getDict (htemplate.eq ▸ hdistinct _ hmem) htemplate.get
  have hname := @claimName_clean preserve _ _ _ htemplate (hdistinct _ hmem)
  obtain ⟨relabeled, hrelabeled, heq, hagain, hname'⟩ := htemplate'.of_restoreClaim hrestored
  rw [hname] at hrelabeled
  have hnodup := @nodup_managedOf (scrubbedName template) _ _ hdistinct h
  refine ⟨hname'.trans hname, ?_, ?_, fun key => ?_⟩
  · rw [hagain.claimLabels_eq, Option.isSome_map]
    exact heldLabels_relabel (heldLabels_clean hmetadata hheld) hrelabeled
  · rw [heq]
    exact hdistinct'.set (distinct_relabel (fun label hlabel => distinct_managedOf hdistinct h hlabel)
      (distinct_getDict hdistinct' htemplate'.get) hrelabeled)
  · rw [hagain.templateLabel_eq]
    change labelIn key relabeled = _
    rw [labelIn_relabel hnodup hrelabeled, ← templateLabel_clean htemplate (hdistinct _ hmem),
      htemplate'.templateLabel_eq]
    rfl

theorem forall₂_restored
    (hrestored : (templates.map (clean preserve)).mapM (restoreClaim byName) = some restoreds) :
    List.Forall₂ (fun template restored => template ∈ templates ∧
      restoreClaim byName (clean preserve template) = some restored) templates restoreds :=
  (List.forall₂_and_left _ _).mpr ⟨fun _ h => h, List.forall₂_map_left_iff.mp (mapM_eq_some.mp hrestored)⟩

include hdistinct h in
theorem labelOfName_restored
    (hrestored : (templates.map (clean preserve)).mapM (restoreClaim byName) = some restoreds) :
    labelOfName claimName key name restoreds =
      (templates.reverse.find? fun template => scrubbedName template == name).bind fun template =>
        ((managedOf byName name).lookup key).or
          ((templateLabel key template).bind (cleanEntry preserve key)) := by
  have hrel := find?_forall₂ (p := fun template => scrubbedName template == name)
    (q := fun restored => claimName restored == name)
    (List.forall₂_reverse_iff.mpr (forall₂_restored hrestored)) fun template restored hpair => by
      rw [(restored_of_mem hdistinct h hpair.1 hpair.2).1]
  rw [labelOfName]
  generalize hfound : templates.reverse.find? (fun template => scrubbedName template == name) = first
    at hrel ⊢
  generalize restoreds.reverse.find? (fun restored => claimName restored == name) = second at hrel ⊢
  cases hrel with
  | none => rfl
  | @some template restored hpair =>
    have hname : scrubbedName template = name := by simpa using List.find?_some hfound
    rw [Option.bind_some, Option.bind_some, (restored_of_mem hdistinct h hpair.1 hpair.2).2.2.2, hname]

include hdistinct h in
theorem claims_of_restored
    (hrestored : (templates.map (clean preserve)).mapM (restoreClaim byName) = some restoreds) :
    (∀ restored ∈ restoreds, Distinct restored) ∧ ∃ byName', restoreds.mapM claimLabels = some byName' := by
  have hpairs := forall₂_restored hrestored
  refine ⟨fun restored hmem => ?_, mapM_isSome fun restored hmem => ?_⟩
  · obtain ⟨template, -, hpair⟩ := forall₂_mem_right hpairs hmem
    exact (restored_of_mem hdistinct h hpair.1 hpair.2).2.2.1
  · obtain ⟨template, -, hpair⟩ := forall₂_mem_right hpairs hmem
    exact (restored_of_mem hdistinct h hpair.1 hpair.2).2.1

include hdistinct h in
theorem restoreClaim_settled
    (hrestored : (templates.map (clean preserve)).mapM (restoreClaim byName) = some restoreds)
    (h' : restoreds.mapM claimLabels = some byName') (hmem : template ∈ templates)
    (hrestore : restoreClaim byName (clean preserve template) = some restored) :
    (∃ again, restoreClaim byName' (clean preserve restored) = some again ∧
      Json.Alike again restored) ↔ ClaimSettled preserve templates template := by
  have hdistinct' := (claims_of_restored hdistinct h hrestored).1
  obtain ⟨fields, metadata, htemplate, -⟩ := template_of_mem h hmem
  have hname := @claimName_clean preserve _ _ _ htemplate (hdistinct _ hmem)
  obtain ⟨-, -, -, hlabel⟩ := restored_of_mem hdistinct h hmem hrestore
  obtain ⟨last, hlast⟩ : ∃ last, (templates.reverse.find? fun other =>
      scrubbedName other == scrubbedName template) = some last :=
    Option.isSome_iff_exists.mp
      (List.find?_isSome.mpr ⟨template, List.mem_reverse.mpr hmem, beq_self_eq_true _⟩)
  have hlookup := fun key => @lookup_managedOf key (scrubbedName template) _ _ h
  have hlookup' : ∀ key ∈ MANAGED_BY_LABEL_KEYS,
      (managedOf byName' (scrubbedName template)).lookup key =
        ((managedOf byName (scrubbedName template)).lookup key).or
          ((templateLabel key last).bind (cleanEntry preserve key)) := by
    intro key hkey
    rw [lookup_managedOf h', if_pos hkey, labelOfName_restored hdistinct h hrestored, hlast]
    rfl
  have hsubset : ∀ key, (managedOf byName' (scrubbedName template)).lookup key = none →
      (managedOf byName (scrubbedName template)).lookup key = none := by
    intro key hnone
    by_cases hkey : key ∈ MANAGED_BY_LABEL_KEYS
    · rw [hlookup' key hkey, Option.or_eq_none_iff] at hnone
      exact hnone.1
    · rw [hlookup, if_neg hkey]
  have hagain := @Template.restoreClaim_again _ _ _ _ _ _ byName' (htemplate.clean (hdistinct _ hmem))
    settled_cleanFields (hdistinct _ hmem).clean
    (fun label hlabel => distinct_managedOf hdistinct h hlabel) (nodup_managedOf hdistinct h)
    (nodup_managedOf hdistinct' h') (by rwa [hname]) hrestore
  rw [hagain, hname]
  constructor
  · intro hall key hkey hnone value hvalue
    rw [labelOfName, hlast, Option.bind_some] at hvalue
    have hmanaged : (managedOf byName (scrubbedName template)).lookup key = none := by
      rw [hlookup, if_pos hkey, hnone]
    obtain ⟨value', hvalue', halike⟩ := hall key value (by
      rw [hlookup' key hkey, hmanaged, hvalue]
      rfl)
    rw [hlabel, hmanaged, Option.none_or] at hvalue'
    exact ⟨value', hvalue', halike⟩
  · intro hall key value hvalue
    have hkey : key ∈ MANAGED_BY_LABEL_KEYS := by
      by_contra hkey
      rw [lookup_managedOf h', if_neg hkey] at hvalue
      cases hvalue
    rw [hlookup' key hkey] at hvalue
    cases hmanaged : (managedOf byName (scrubbedName template)).lookup key with
    | some label =>
      rw [hmanaged] at hvalue
      cases hvalue
      exact ⟨value, by rw [hlabel, hmanaged]; rfl, .refl value⟩
    | none =>
      rw [hmanaged, Option.none_or] at hvalue
      rw [hlookup, if_pos hkey] at hmanaged
      have hvalue' : (labelOfName scrubbedName key (scrubbedName template) templates).bind
          (cleanEntry preserve key) = some value := by
        rw [labelOfName, hlast]
        exact hvalue
      obtain ⟨value', hvalue', halike⟩ := hall key hkey hmanaged value hvalue'
      refine ⟨value', ?_, halike⟩
      rw [hlabel, hlookup, if_pos hkey, hmanaged]
      exact hvalue'

include hdistinct h in
/-- Whether all templates stay the same the second time. -/
theorem restored_again
    (hrestored : (templates.map (clean preserve)).mapM (restoreClaim byName) = some restoreds)
    (h' : restoreds.mapM claimLabels = some byName') :
    (∃ again, (restoreds.map (clean preserve)).mapM (restoreClaim byName') = some again ∧
      Json.Alike (.arr again) (.arr restoreds)) ↔ ClaimsSettled preserve templates := by
  have hpairs := forall₂_restored hrestored
  have hmap : (restoreds.map (clean preserve)).mapM (restoreClaim byName') =
      restoreds.mapM fun restored => restoreClaim byName' (clean preserve restored) := List.mapM_map
  rw [hmap, mapM_alike]
  constructor
  · intro hall template hmem
    obtain ⟨restored, hmem', hpair⟩ := forall₂_mem_left hpairs hmem
    exact (restoreClaim_settled hdistinct h hrestored h' hpair.1 hpair.2).mp (hall restored hmem')
  · intro hsettled restored hmem
    obtain ⟨template, hmem', hpair⟩ := forall₂_mem_right hpairs hmem
    exact (restoreClaim_settled hdistinct h hrestored h' hpair.1 hpair.2).mpr (hsettled template hmem')

end Again

end ClusterState.Export
