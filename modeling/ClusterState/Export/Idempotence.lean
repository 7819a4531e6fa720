import ClusterState.Export.Retaining

/-! # Exporting once more

What is exported is exported as it is, unless the labels of a claim template have come for a
name that it has in the export only.
-/

namespace ClusterState.Export

variable {preserve : Bool} {original fields metadata metadata₀ exported restored spec : Fields}
  {templates restoreds : List Json} {byName : List (Option String × Fields)}

/-! ## The claims of a stateful set -/

def withTemplates (templates : List Json) (spec fields : Fields) : Fields :=
  set "spec" (.obj (set "volumeClaimTemplates" (.arr templates) spec)) fields

theorem restore_eq_some (hkind : kindOf (.obj fields) = some "StatefulSet") :
    restoreStatefulsetVolumeClaimLabels fields original = some restored ↔
      ∃ spec₀ templates₀ byName spec templates restoreds,
        getDict "spec" original = some spec₀ ∧
        getList "volumeClaimTemplates" spec₀ = some templates₀ ∧
        templates₀.mapM claimLabels = some byName ∧
        getDict "spec" fields = some spec ∧ getList "volumeClaimTemplates" spec = some templates ∧
        templates.mapM (restoreClaim byName) = some restoreds ∧
        (match spec.lookup "volumeClaimTemplates" with
          | some (.arr _) => withTemplates restoreds spec fields
          | _ => fields) = restored := by
  have hset : ¬ (fields.lookup "kind").bind Json.str? ≠ some "StatefulSet" := not_not.mpr hkind
  rw [restoreStatefulsetVolumeClaimLabels, if_neg hset]
  constructor
  · intro h
    obtain ⟨spec₀, hspec₀, h⟩ := Option.bind_eq_some_iff.mp h
    obtain ⟨templates₀, htemplates₀, h⟩ := Option.bind_eq_some_iff.mp h
    obtain ⟨byName, hbyName, h⟩ := Option.bind_eq_some_iff.mp h
    obtain ⟨spec, hspec, h⟩ := Option.bind_eq_some_iff.mp h
    obtain ⟨templates, htemplates, h⟩ := Option.bind_eq_some_iff.mp h
    obtain ⟨restoreds, hrestoreds, h⟩ := Option.bind_eq_some_iff.mp h
    exact ⟨spec₀, templates₀, byName, spec, templates, restoreds, hspec₀, htemplates₀, hbyName, hspec,
      htemplates, hrestoreds, Option.some.inj h⟩
  · rintro ⟨spec₀, templates₀, byName, spec, templates, restoreds, hspec₀, htemplates₀, hbyName, hspec,
      htemplates, hrestoreds, rfl⟩
    simp only [hspec₀, htemplates₀, hbyName, hspec, htemplates, hrestoreds, Option.bind_eq_bind,
      Option.bind_some]
    rfl

theorem getList_clean {inner : Fields} (hdistinct : Distinct (.obj inner))
    (h : getList "volumeClaimTemplates" inner = some templates) :
    getList "volumeClaimTemplates" (cleanFields preserve inner) =
      some (templates.map (clean preserve)) := by
  have hleft : ∀ item, cleanEntry preserve "volumeClaimTemplates" item = some (clean preserve item) :=
    fun item => cleanEntry_eq_some.mpr ⟨isRuntime_plain (by decide), rfl, rfl⟩
  rw [getList, lookup_cleanFields hdistinct.nodup]
  unfold getList at h
  split at h
  · rename_i items hitems
    cases h
    rw [hitems, Option.bind_some, hleft, clean_arr]
  · rename_i hempty
    cases h
    rw [hempty, Option.bind_some, hleft]
    rfl
  · rename_i hempty
    cases h
    rw [hempty, Option.bind_some, hleft, clean_str, (by decide : replaceText "" = "")]
    rfl
  · cases h
  · rename_i hnone
    cases h
    rw [hnone]
    rfl

section Second

variable (hspec : fields.lookup "spec" = some (.obj spec))
  (hlist : spec.lookup "volumeClaimTemplates" = some (.arr templates))

theorem lookup_withTemplates : (withTemplates restoreds spec fields).lookup "spec" =
    some (.obj (set "volumeClaimTemplates" (.arr restoreds) spec)) := lookup_set

include hspec in
theorem cleanFields_withTemplates (h : Settled preserve fields) :
    cleanFields preserve (withTemplates restoreds spec fields) =
      withTemplates (restoreds.map (clean preserve)) spec fields := by
  have hleft : cleanEntry preserve "volumeClaimTemplates" (.arr restoreds) =
      some (.arr (restoreds.map (clean preserve))) :=
    cleanEntry_eq_some.mpr ⟨isRuntime_plain (by decide), rfl, clean_arr⟩
  have hinner := (h.of_mem (mem_of_lookup hspec)).cleanFields_set hleft
  rw [withTemplates, h.cleanFields_set (cleanEntry_path (by simp [pathKeys])), clean_obj, hinner]
  rfl

theorem Tidy.strip_withTemplates (h : Tidy preserve metadata fields)
    (hmetadata : stripMetadata metadata = some metadata)
    (hkind : kindOf (.obj fields) = some "StatefulSet")
    (hspec : fields.lookup "spec" = some (.obj spec))
    (hrequires : requiresManagedByLabels (.obj (withTemplates restoreds spec fields)) = preserve)
    (hclaims : restoreds.mapM claimLabels = some byName) {r : Json} :
    Export.stripResource (.obj (withTemplates restoreds spec fields)) = some r ↔
      ∃ again, (restoreds.map (clean preserve)).mapM (restoreClaim byName) = some again ∧
        .obj (withTemplates again spec fields) = r := by
  have hclean := @cleanFields_withTemplates _ _ _ restoreds hspec h.settled
  have hlookup : ∀ templates, (withTemplates templates spec fields).lookup "metadata" =
      some (.obj metadata) := fun _ => (lookup_set_ne (by decide)).trans h.metadata
  have hstatus : ∀ field ∈ withTemplates (restoreds.map (clean preserve)) spec fields,
      field.1 ≠ "status" := by
    intro field hfield
    rcases mem_set hfield with rfl | hfield
    · exact (by decide : "spec" ≠ "status")
    · exact h.status field hfield
  have htidied : tidied preserve metadata (withTemplates restoreds spec fields) =
      withTemplates (restoreds.map (clean preserve)) spec fields := by
    rw [tidied, hclean, set_eq_self (hlookup _), pop_eq_self hstatus]
  have hkind' : ((withTemplates (restoreds.map (clean preserve)) spec fields).lookup "kind").bind
      Json.str? = some "StatefulSet" := by
    rw [withTemplates, lookup_set_ne (by decide)]
    exact hkind
  have hstrip : stripKind metadata (withTemplates (restoreds.map (clean preserve)) spec fields) =
      some (withTemplates (restoreds.map (clean preserve)) spec fields) := by
    unfold stripKind
    rw [hkind']
    rfl
  have hgetList : ∀ templates, getList "volumeClaimTemplates"
      (set "volumeClaimTemplates" (.arr templates) spec) = some templates := by
    intro templates
    rw [getList, lookup_set]
  rw [stripResource_obj, hrequires, hclean, getDict_eq_some.mpr (.inl (hlookup _)), Option.bind_some,
    hmetadata, Option.bind_some, htidied, hstrip, Option.bind_some, Option.bind_eq_some_iff]
  have hset : ∀ again, withTemplates again
      (set "volumeClaimTemplates" (.arr (restoreds.map (clean preserve))) spec)
      (withTemplates (restoreds.map (clean preserve)) spec fields) = withTemplates again spec fields := by
    intro again
    rw [withTemplates, withTemplates, set_set, set_set, withTemplates]
  constructor
  · rintro ⟨restored, hrestored, hr⟩
    obtain ⟨spec₀, templates₀, byName', spec', templates, again, hspec₀, htemplates₀, hbyName', hspec',
      htemplates, hagain, rfl⟩ := (restore_eq_some hkind').mp hrestored
    rw [getDict_eq_some.mpr (.inl lookup_withTemplates)] at hspec₀ hspec'
    cases hspec₀
    cases hspec'
    rw [hgetList] at htemplates₀ htemplates
    cases htemplates₀
    cases htemplates
    cases hbyName'.symm.trans hclaims
    rw [lookup_set] at hr
    cases hr
    exact ⟨again, hagain, by rw [hset]⟩
  · rintro ⟨again, hagain, rfl⟩
    refine ⟨_, (restore_eq_some hkind').mpr ⟨_, _, byName, _, _, again,
      getDict_eq_some.mpr (.inl lookup_withTemplates), hgetList _, hclaims,
      getDict_eq_some.mpr (.inl lookup_withTemplates), hgetList _, hagain, rfl⟩, ?_⟩
    rw [lookup_set]
    dsimp only
    rw [hset]

theorem alike_withTemplates {again : List Json} :
    Json.Alike (.obj (withTemplates again spec fields)) (.obj (withTemplates restoreds spec fields)) ↔
      Json.Alike (.arr again) (.arr restoreds) := by
  have hother : ∀ {key : String} {value value' : Json} {fields : Fields} (key' : String), key' ≠ key →
      (set key value fields).lookup key' = (set key value' fields).lookup key' := fun key' hne => by
    rw [lookup_set_ne hne, lookup_set_ne hne]
  rw [withTemplates, withTemplates, Json.alike_of_lookup hother lookup_set lookup_set,
    Json.alike_of_lookup hother lookup_set lookup_set]

end Second

/-! ## The whole resource -/

theorem Distinct.item (h : Distinct (.arr templates)) : ∀ template ∈ templates, Distinct template := by
  cases h with
  | arr _ h => exact h

theorem claimTemplates_iff (hdistinct : Distinct (.obj original))
    (hspec : getDict "spec" original = some spec) :
    ClaimTemplates original templates ↔
      spec.lookup "volumeClaimTemplates" = some (.arr templates) := by
  constructor
  · rintro ⟨hmem, htemplates⟩
    have hlookup := lookup_of_mem hdistinct.nodup hmem
    rw [getDict_eq_some, hlookup] at hspec
    rcases hspec with heq | ⟨hnone, -⟩
    · cases heq
      exact lookup_of_mem (hdistinct.value hmem).nodup htemplates
    · cases hnone
  · intro h
    exact ⟨mem_getDict hspec (mem_of_lookup h), mem_of_lookup h⟩

theorem lookup_clean_arr (hdistinct : Distinct (.obj spec)) :
    (cleanFields preserve spec).lookup "volumeClaimTemplates" = some (.arr restoreds) ↔
      ∃ templates, spec.lookup "volumeClaimTemplates" = some (.arr templates) ∧
        templates.map (clean preserve) = restoreds := by
  have hleft : ∀ item, cleanEntry preserve "volumeClaimTemplates" item = some (clean preserve item) :=
    fun item => cleanEntry_eq_some.mpr ⟨isRuntime_plain (by decide), rfl, rfl⟩
  rw [lookup_cleanFields hdistinct.nodup, Option.bind_eq_some_iff]
  constructor
  · rintro ⟨item, hitem, h⟩
    rw [hleft, Option.some.injEq] at h
    cases item with
    | arr templates =>
      rw [clean_arr, Json.arr.injEq] at h
      exact ⟨templates, hitem, h⟩
    | obj fields =>
      rw [clean_obj] at h
      cases h
    | _ => cases h
  · rintro ⟨templates, htemplates, rfl⟩
    exact ⟨_, htemplates, (hleft _).trans (congrArg some clean_arr)⟩

theorem requires_restoreds (hclear : Clear original)
    (hpreserve : requiresManagedByLabels (.obj original) = preserve)
    (hkind : kindOf (.obj original) = some "StatefulSet") (htemplates : ClaimTemplates original templates)
    (hdistinct : ∀ template ∈ templates, Distinct template)
    (hclaims : templates.mapM claimLabels = some byName)
    (hrestored : (templates.map (clean preserve)).mapM (restoreClaim byName) = some restoreds) :
    requiresManagedByLabels (.arr restoreds) =
      requiresManagedByLabels (.arr (templates.map (clean preserve))) := by
  have hpairs := forall₂_restored hrestored
  rw [Bool.eq_iff_iff]
  constructor
  · intro h
    obtain ⟨restored, hmem, hrequires⟩ := requires_arr.mp h
    obtain ⟨template, -, htemplate, hrestore⟩ := forall₂_mem_right hpairs hmem
    have hbefore := requires_of_restored hclaims (hdistinct _ htemplate) htemplate hrestore hrequires
    obtain ⟨hspec, hlist⟩ := htemplates
    have htrue := requires_of_mem (requires_of_mem hbefore hlist) hspec
    have hrunning : RuntimeClear (.arr templates) := (hclear.runtimeClear.value hspec).value hlist
    rw [← hpreserve, htrue, ← clean_arr]
    exact requires_clean_true hrunning hbefore
  · intro h
    obtain ⟨left, hleft, hrequires⟩ := requires_arr.mp h
    obtain ⟨template, htemplate, rfl⟩ := List.mem_map.mp hleft
    obtain ⟨restored, hmem, -, hrestore⟩ := forall₂_mem_left hpairs htemplate
    exact requires_arr.mpr ⟨restored, hmem,
      requires_restored hclear hkind htemplates hdistinct hclaims htemplate hrestore hrequires⟩

theorem Exports.claims_again (h : Exports original preserve metadata₀ metadata exported restored)
    (hdistinct : Distinct (.obj original)) (hclear : Clear original)
    (hkind : kindOf (.obj original) = some "StatefulSet") :
    (∃ r, stripResource (.obj restored) = some r ∧ Json.Alike r (.obj restored)) ↔
      ∀ templates, ClaimTemplates original templates → ClaimsSettled preserve templates := by
  have hbare : kindOf (.obj original) ∉ bareKinds := by
    rw [hkind]
    decide
  obtain ⟨htidy, hagain, hset⟩ := h.rest hdistinct hclear hbare
  have hkind' := hset.mpr hkind
  obtain ⟨spec₀, templates₀, byName, spec, templates, restoreds, hspec₀, htemplates₀, hbyName, hspec,
    htemplates, hrestoreds, hrestored⟩ := (restore_eq_some hkind').mp h.restore
  have hspecDistinct := distinct_getDict hdistinct hspec₀
  have hexported : exported = tidied preserve metadata original := by
    have hkind₀ := (@kind_tidied preserve original metadata hdistinct "StatefulSet" (by decide)
      (by decide)).mpr hkind
    have hstrip := h.kind
    unfold stripKind at hstrip
    rw [hkind₀] at hstrip
    exact (Option.some.inj hstrip).symm
  have hlookup : exported.lookup "spec" = (cleanFields preserve original).lookup "spec" := by
    rw [hexported, tidied, lookup_pop_ne (by decide), lookup_set_ne (by decide)]
  obtain rfl : cleanFields preserve spec₀ = spec := by
    have hclean := @getDict_clean preserve _ _ _ (by simp [pathKeys]) hdistinct hspec₀
    rw [getDict, ← hlookup] at hclean
    exact Option.some.inj (hclean.symm.trans hspec)
  obtain rfl : templates₀.map (clean preserve) = templates :=
    Option.some.inj ((getList_clean hspecDistinct htemplates₀).symm.trans htemplates)
  simp only [claimTemplates_iff hdistinct hspec₀]
  split at hrestored
  · rename_i items hitems
    subst hrestored
    obtain ⟨items₀, hitems₀, -⟩ := (lookup_clean_arr hspecDistinct).mp hitems
    obtain rfl : items₀ = templates₀ := by
      rw [getList, hitems₀] at htemplates₀
      exact Option.some.inj htemplates₀
    have hdistinct₀ := Distinct.item (hspecDistinct.value (mem_of_lookup hitems₀))
    have hclaimTemplates := (claimTemplates_iff hdistinct hspec₀).mpr hitems₀
    have hspec' : exported.lookup "spec" = some (.obj (cleanFields preserve spec₀)) := by
      refine (getDict_eq_some.mp hspec).resolve_right fun hnone => ?_
      rw [hnone.2] at hitems
      cases hitems
    have hsame := requires_restoreds hclear h.requires hkind hclaimTemplates hdistinct₀ hbyName hrestoreds
    have hmap : items = items₀.map (clean preserve) := by
      rw [getList, hitems] at htemplates
      exact Option.some.inj htemplates
    have hplain : "spec" ∉ selectorKeys ∧ "volumeClaimTemplates" ∉ selectorKeys := by decide
    have hinner := @requires_set _ _ _ (.arr restoreds) hitems (by
      rw [entryRequires_plain hplain.2, entryRequires_plain hplain.2, hsame, hmap])
    have hrequires : requiresManagedByLabels
        (.obj (withTemplates restoreds (cleanFields preserve spec₀) exported)) = preserve := by
      rw [withTemplates, requires_set hspec', htidy.requires]
      rw [entryRequires_plain hplain.1, entryRequires_plain hplain.1, hinner]
    obtain ⟨-, byName', hbyName'⟩ := claims_of_restored hdistinct₀ hbyName hrestoreds
    have hstrip := fun r => htidy.strip_withTemplates (stripMetadata_again h.strip) hkind' hspec'
      hrequires hbyName' (r := r)
    rw [hitems₀]
    simp only [hstrip, Option.some.injEq, Json.arr.injEq, forall_eq']
    rw [← restored_again hdistinct₀ hbyName hrestoreds hbyName']
    constructor
    · rintro ⟨r, ⟨again, hagain, rfl⟩, halike⟩
      exact ⟨again, hagain, alike_withTemplates.mp halike⟩
    · rintro ⟨again, hagain, halike⟩
      exact ⟨_, ⟨again, hagain, rfl⟩, alike_withTemplates.mpr halike⟩
  · rename_i hother
    subst hrestored
    refine iff_of_true ⟨_, ?_, .refl _⟩ fun templates htemplates' => ?_
    · have hnil : templates₀.map (clean preserve) = [] := by
        unfold getList at htemplates
        split at htemplates
        · rename_i items hitems
          exact absurd hitems (hother items)
        · exact (Option.some.inj htemplates).symm
        · exact (Option.some.inj htemplates).symm
        · cases htemplates
        · exact (Option.some.inj htemplates).symm
      rw [hnil] at htemplates
      have hsame : (match (cleanFields preserve spec₀).lookup "volumeClaimTemplates" with
          | some (.arr _) => withTemplates [] (cleanFields preserve spec₀) exported
          | _ => exported) = exported := by
        split
        · rename_i items hitems
          exact absurd hitems (hother items)
        · rfl
      have hrestore : restoreStatefulsetVolumeClaimLabels exported exported = some exported :=
        (restore_eq_some hkind').mpr ⟨_, [], [], _, [], [], hspec, htemplates, rfl, hspec, htemplates,
          rfl, hsame⟩
      rw [htidy.stripResource (stripMetadata_again h.strip) hagain, hrestore, Option.bind_some]
    · exact absurd ((lookup_clean_arr hspecDistinct).mpr ⟨templates, htemplates', rfl⟩) (hother _)

theorem claimsSettled_of_names (h : ∀ template ∈ templates, scrubbedName template = claimName template) :
    ClaimsSettled preserve templates := by
  intro template hmem key hkey hnone value hvalue
  have hfind : ∀ name, labelOfName scrubbedName key name templates =
      labelOfName claimName key name templates := by
    intro name
    rw [labelOfName, labelOfName]
    congr 1
    refine List.find?_congr fun other hother => ?_
    rw [h other (List.mem_reverse.mp hother)]
  rw [hfind, hnone] at hvalue
  cases hvalue

/-! ## Resources without selectors -/

mutual

def holdsSelector : Json → Bool
  | .obj fields => holdsSelectorInFields fields
  | .arr items => holdsSelectorInItems items
  | _ => false

def holdsSelectorInFields : List (String × Json) → Bool
  | [] => false
  | (key, item) :: rest =>
    (selectorKeys.contains key && item.isDict) || holdsSelector item || holdsSelectorInFields rest

def holdsSelectorInItems : List Json → Bool
  | [] => false
  | item :: rest => holdsSelector item || holdsSelectorInItems rest

end

theorem holdsSelector_obj {field : String × Json} (hmem : field ∈ fields)
    (h : (selectorKeys.contains field.1 && field.2.isDict || holdsSelector field.2) = true) :
    holdsSelector (.obj fields) = true := by
  rw [holdsSelector]
  induction fields with
  | nil => cases hmem
  | cons head fields ih =>
    rw [holdsSelectorInFields, Bool.or_eq_true]
    rcases List.mem_cons.mp hmem with rfl | hmem
    · exact .inl h
    · exact .inr (ih hmem)

theorem holdsSelector_arr {item : Json} (hmem : item ∈ templates) (h : holdsSelector item = true) :
    holdsSelector (.arr templates) = true := by
  rw [holdsSelector]
  induction templates with
  | nil => cases hmem
  | cons head templates ih =>
    rw [holdsSelectorInItems, Bool.or_eq_true]
    rcases List.mem_cons.mp hmem with rfl | hmem
    · exact .inl h
    · exact .inr (ih hmem)

theorem holdsSelector_of_part {a b : Json} (hpart : Json.Part a b) (h : holdsSelector a = true) :
    holdsSelector b = true := by
  induction hpart with
  | refl => exact h
  | field hfield _ ih => exact holdsSelector_obj hfield (by rw [ih, Bool.or_true])
  | item hitem _ ih => exact holdsSelector_arr hitem ih

theorem Discarded.part {field : String × Json} (h : Discarded original field) :
    ∃ fields, Json.Part (.obj fields) (.obj original) ∧ field ∈ fields := by
  cases h with
  | status h => exact ⟨_, .refl _, h⟩
  | metadata h hfield _ => exact ⟨_, .field h (.refl _), hfield⟩
  | runtime h hfield _ => exact ⟨_, h, hfield⟩
  | spec h hfield _ => exact ⟨_, .field h (.refl _), hfield⟩
  | secrets _ h => exact ⟨_, .refl _, h⟩
  | bare _ hfield _ => exact ⟨_, .refl _, hfield⟩
  | bareMetadata _ h hfield _ => exact ⟨_, .field h (.refl _), hfield⟩
  | nodeLabel _ h hlabels hfield _ => exact ⟨_, .field h (.field hlabels (.refl _)), hfield⟩
  | @claimLabel _ template _ _ _ _ _ htemplates htemplate _ _ _ h hlabels hfield _ _ =>
    obtain ⟨hspec, hlist⟩ := htemplates
    cases template with
    | obj fields =>
      have hmetadata := mem_of_lookup h
      exact ⟨_, .field hspec (.field hlist (.item htemplate (.field hmetadata (.field hlabels (.refl _))))),
        hfield⟩
    | _ => cases h

theorem clear_of_selectorless (h : holdsSelector (.obj original) = false) : Clear original := by
  intro field hdiscarded hholds
  obtain ⟨fields, hpart, hmem⟩ := hdiscarded.part
  have hfield : (selectorKeys.contains field.1 && field.2.isDict || holdsSelector field.2) = true := by
    rw [Bool.or_eq_true, Bool.and_eq_true, List.contains_iff_mem]
    refine hholds.imp_right fun hinner => ?_
    obtain ⟨inner, key, selected, hinner, hselected, hkey⟩ := hinner
    refine holdsSelector_of_part hinner (holdsSelector_obj hselected ?_)
    rw [List.contains_iff_mem.mpr hkey]
    rfl
  rw [holdsSelector_of_part hpart (holdsSelector_obj hmem hfield)] at h
  cases h

/-! ## Twice -/

/-- Stripping what has been stripped gives the same, unless a stateful set has templates whose
labels come for a name that is theirs in the export only. -/
theorem strip_idempotent_iff {r : Json} (hdistinct : Distinct (.obj original)) (hclear : Clear original)
    (h : stripResource (.obj original) = some r) :
    (∃ again, stripResource r = some again ∧ Json.Alike again r) ↔
      (kindOf (.obj original) = some "StatefulSet" → ∀ templates, ClaimTemplates original templates →
        ClaimsSettled (requiresManagedByLabels (.obj original)) templates) := by
  obtain ⟨preserve, metadata₀, metadata, exported, restored, hexports, rfl⟩ := exports_of_strip h
  by_cases hkind : kindOf (.obj original) = some "StatefulSet"
  · rw [hexports.claims_again hdistinct hclear hkind, hexports.requires]
    exact ⟨fun h _ => h, fun h => h hkind⟩
  · exact iff_of_true ⟨_, hexports.again hdistinct hclear hkind, .refl _⟩ fun h => absurd h hkind

/-- A stateful set as it is exported, with the label of a claim that the scrubbing takes. -/
def settledStatefulSet : Fields :=
  [("kind", .str "StatefulSet"), ("metadata", .obj [("name", .str "db")]),
    ("spec", .obj [("volumeClaimTemplates", .arr [
      .obj [("metadata", .obj [("name", .str "data"), ("labels", .obj [("managed-by", .str "terraform")])])]])])]

theorem settled_strip_idempotent : ∃ r, stripResource (.obj settledStatefulSet) = some r ∧
    ∃ again, stripResource r = some again ∧ Json.Alike again r := by
  have hdistinct : Distinct (.obj settledStatefulSet) := distinct_of_hasDistinctKeys (by decide)
  have hclear : Clear settledStatefulSet := clear_of_selectorless (by decide)
  have hsome : (stripResource (.obj settledStatefulSet)).isSome = true := by decide
  obtain ⟨r, hr⟩ := Option.isSome_iff_exists.mp hsome
  refine ⟨r, hr, (strip_idempotent_iff hdistinct hclear hr).mpr fun _ templates htemplates => ?_⟩
  obtain ⟨hspec, hlist⟩ := htemplates
  simp [settledStatefulSet] at hspec
  subst hspec
  simp at hlist
  subst hlist
  refine claimsSettled_of_names fun template hmem => ?_
  rw [List.mem_singleton.mp hmem]
  decide

/-- The second has a name that is replaced by that of the first. -/
def driftingTemplates : List Json := [
  .obj [("metadata", .obj [("name", .str "Managed in cluster-state")])],
  .obj [("metadata", .obj [("name", .str "Managed by Terraform"),
    ("labels", .obj [("managed-by", .str "helm")])])]]

def driftingStatefulSet : Fields :=
  [("kind", .str "StatefulSet"), ("metadata", .obj [("name", .str "db")]),
    ("spec", .obj [("volumeClaimTemplates", .arr driftingTemplates)])]

theorem strip_not_idempotent : Distinct (.obj driftingStatefulSet) ∧ Clear driftingStatefulSet ∧
    ∃ r, stripResource (.obj driftingStatefulSet) = some r ∧
      ¬ ∃ again, stripResource r = some again ∧ Json.Alike again r := by
  have hdistinct : Distinct (.obj driftingStatefulSet) := distinct_of_hasDistinctKeys (by decide)
  have hclear : Clear driftingStatefulSet := clear_of_selectorless (by decide)
  have hsome : (stripResource (.obj driftingStatefulSet)).isSome = true := by decide
  obtain ⟨r, hr⟩ := Option.isSome_iff_exists.mp hsome
  obtain ⟨preserve, metadata₀, metadata, exported, restored, hexports, rfl⟩ := exports_of_strip hr
  refine ⟨hdistinct, hclear, _, hr, ?_⟩
  rw [hexports.claims_again hdistinct hclear rfl, ← hexports.requires]
  intro h
  have hspec : ("spec", Json.obj [("volumeClaimTemplates", .arr driftingTemplates)]) ∈
      driftingStatefulSet := List.mem_cons_of_mem _ (List.mem_cons_of_mem _ List.mem_cons_self)
  -- the label comes for the first template
  have hsettled := h driftingTemplates ⟨hspec, List.mem_cons_self⟩ _ List.mem_cons_self "managed-by"
    List.mem_cons_self (Option.isNone_iff_eq_none.mp (by decide))
  have hlabel : ((labelOfName scrubbedName "managed-by" (some "Managed in cluster-state")
      driftingTemplates).bind (cleanEntry false "managed-by")).isSome = true := by decide
  obtain ⟨value, hvalue⟩ := Option.isSome_iff_exists.mp hlabel
  obtain ⟨value', hvalue', -⟩ := hsettled value hvalue
  cases hvalue'

end ClusterState.Export
