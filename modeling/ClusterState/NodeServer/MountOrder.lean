import ClusterState.NodeServer.MountArgs

/-! # The order of the volume context

An option is written by its own key and by an alias of it. When the context has both, the
one that is visited last is passed to the mount.
-/

namespace ClusterState.NodeServer

def SameArgs : Except String (List String) → Except String (List String) → Prop
  | .ok args, .ok args' => ∀ arg, arg ∈ args ↔ arg ∈ args'
  | .error err, .error err' => err = err'
  | _, _ => False

def Mounter.Refused (m : Mounter) : Prop :=
  match m.dataLocality with
  | .ok dataLocality => dataLocality ≠ .none ∧ m.driver.dataCenter = ""
  | .error _ => True

/-- The context has a value for an option under its own key, and another one under an alias. -/
def Conflicts (volContext : VolumeContext) (names : String × String) : Prop :=
  volContext.get names.1 ≠ "" ∧ volContext.get names.2 ≠ "" ∧
    volContext.get names.1 ≠ volContext.get names.2

/-! ## Looking options up -/

section Lookup

variable {argsMap : Options} {key k value : String} {entry : String × String} {l : Options}

theorem keys_set : (Options.set key value argsMap).map Prod.fst = argsMap.map Prod.fst := by
  rw [Options.set, List.map_map]
  refine List.map_congr_left fun option _ => ?_
  change (if option.1 = key then (key, value) else option).1 = option.1
  split
  · rename_i h
    exact h.symm
  · rfl

theorem lookup_set_self (h : (argsMap.lookup key).isSome = true) :
    (Options.set key value argsMap).lookup key = some value := by
  induction argsMap with
  | nil => cases h
  | cons option argsMap ih =>
    rw [Options.set, List.map_cons]
    by_cases hkey : option.1 = key
    · rw [if_pos hkey, List.lookup_cons, beq_self_eq_true]
    · rw [if_neg hkey, List.lookup_cons, beq_eq_false_iff_ne.mpr (Ne.symm hkey)]
      rw [List.lookup_cons, beq_eq_false_iff_ne.mpr (Ne.symm hkey)] at h
      exact ih h

theorem lookup_set_of_ne (h : k ≠ key) :
    (Options.set key value argsMap).lookup k = argsMap.lookup k := by
  induction argsMap with
  | nil => rfl
  | cons option argsMap ih =>
    rw [Options.set, List.map_cons]
    by_cases hkey : option.1 = key
    · rw [if_pos hkey, List.lookup_cons, beq_eq_false_iff_ne.mpr h, List.lookup_cons,
        beq_eq_false_iff_ne.mpr (hkey ▸ h)]
      exact ih
    · rw [if_neg hkey, List.lookup_cons, List.lookup_cons]
      split
      · rfl
      · exact ih

def writes (k : String) (entry : String × String) : Option String :=
  if ignoredArgs.contains entry.1 = true ∨ argKey entry.1 ≠ k ∨ entry.2 = "" then none
  else some entry.2

theorem keys_overwrite : (overwrite argsMap entry).map Prod.fst = argsMap.map Prod.fst := by
  unfold overwrite
  split
  · rfl
  split
  · rfl
  split
  · rfl
  · exact keys_set

theorem writes_eq_none (h : ignoredArgs.contains entry.1 = true ∨ argKey entry.1 ≠ k ∨ entry.2 = "") :
    writes k entry = none := if_pos h

theorem writes_eq_some (hignored : ignoredArgs.contains entry.1 = false) (hkey : argKey entry.1 = k)
    (hvalue : entry.2 ≠ "") : writes k entry = some entry.2 := by
  apply if_neg
  rintro (h | h | h)
  · exact Bool.false_ne_true (hignored.symm.trans h)
  · exact h hkey
  · exact hvalue h

theorem lookup_overwrite (h : (argsMap.lookup k).isSome = true) :
    (overwrite argsMap entry).lookup k = (writes k entry).or (argsMap.lookup k) := by
  unfold overwrite
  by_cases hignored : ignoredArgs.contains entry.1 = true
  · rw [if_pos hignored, writes_eq_none (.inl hignored), Option.none_or]
  by_cases hvalue : entry.2 = ""
  · rw [if_neg hignored, writes_eq_none (.inr (.inr hvalue)), Option.none_or, if_pos hvalue, ite_self]
  by_cases hkey : argKey entry.1 = k
  · have hsome : ¬(argsMap.lookup (argKey entry.1)).isNone = true := by
      rw [hkey, Option.isNone_iff_eq_none, ← Option.not_isSome_iff_eq_none, not_not]
      exact h
    rw [if_neg hignored, if_neg hsome, if_neg hvalue,
      writes_eq_some (Bool.eq_false_iff.mpr hignored) hkey hvalue, hkey, lookup_set_self h,
      Option.some_or]
  · rw [if_neg hignored, if_neg hvalue, writes_eq_none (.inr (.inl hkey)), Option.none_or]
    split
    · rfl
    · exact lookup_set_of_ne (Ne.symm hkey)

theorem isSome_lookup_of_keys {argsMap' : Options}
    (h : argsMap'.map Prod.fst = argsMap.map Prod.fst) :
    (argsMap'.lookup k).isSome = (argsMap.lookup k).isSome := by
  induction argsMap generalizing argsMap' with
  | nil =>
    rw [List.map_eq_nil_iff.mp h]
  | cons option argsMap ih =>
    cases argsMap' with
    | nil => cases h
    | cons option' argsMap' =>
      rw [List.map_cons, List.map_cons, List.cons.injEq] at h
      rw [List.lookup_cons, List.lookup_cons, h.1]
      split
      · rfl
      · exact ih h.2

theorem keys_foldl : (l.foldl overwrite argsMap).map Prod.fst = argsMap.map Prod.fst := by
  induction l generalizing argsMap with
  | nil => rfl
  | cons entry l ih => exact ih.trans keys_overwrite

theorem lookup_foldl (h : (argsMap.lookup k).isSome = true) :
    (l.foldl overwrite argsMap).lookup k =
      ((l.filterMap (writes k)).getLast?).or (argsMap.lookup k) := by
  induction l generalizing argsMap with
  | nil => rw [List.filterMap_nil, List.getLast?_nil, Option.none_or, List.foldl_nil]
  | cons entry l ih =>
    rw [List.foldl_cons, ih ((isSome_lookup_of_keys keys_overwrite).trans h), lookup_overwrite h]
    cases hwrites : writes k entry with
    | none => rw [List.filterMap_cons_none hwrites, Option.none_or]
    | some written =>
      rw [List.filterMap_cons_some hwrites, List.getLast?_cons, Option.some_or]
      cases (l.filterMap (writes k)).getLast? <;> rfl

end Lookup

/-! ## The options of a mounter -/

def optionKeys : List String :=
  ["collection", "filer", "filer.path", "cacheCapacityMB", "cacheMetaTtlSec", "concurrentReaders",
    "concurrentWriters", "map.uid", "map.gid", "disk", "dataCenter", "replication", "ttl",
    "chunkSizeLimitMB", "volumeServerAccess", "readRetryTime"]

section Options

variable {m : Mounter} {site : MountSite} {filers : List String} {context options : Range}
  {opts opts' : Options} {args : List String} {k v : String}

theorem keys_defaults (h : m.defaults filers = .ok opts) : opts.map Prod.fst = optionKeys := by
  unfold Mounter.defaults at h
  cases hlocality : m.dataLocality with
  | error err =>
    rw [hlocality] at h
    cases h
  | ok dataLocality =>
    cases hcheck : checkDataLocality dataLocality m.driver.dataCenter with
    | error err =>
      rw [hlocality] at h
      change (checkDataLocality dataLocality m.driver.dataCenter >>= _) = _ at h
      rw [hcheck] at h
      cases h
    | ok _ =>
      rw [hlocality] at h
      change (checkDataLocality dataLocality m.driver.dataCenter >>= _) = _ at h
      rw [hcheck] at h
      cases dataLocality with
      | none =>
        cases h
        rfl
      | writePreferLocalDc =>
        cases h
        exact keys_set

theorem keys_options (h : m.options filers context = .ok opts) : opts.map Prod.fst = optionKeys := by
  unfold Mounter.options at h
  cases hdefaults : m.defaults filers with
  | error err =>
    rw [hdefaults] at h
    cases h
  | ok argsMap =>
    rw [hdefaults] at h
    cases h
    exact keys_foldl.trans (keys_defaults hdefaults)

theorem mem_iff_lookup (hkeys : (opts.map Prod.fst).Nodup) : (k, v) ∈ opts ↔ opts.lookup k = some v := by
  induction opts with
  | nil => simp
  | cons option opts ih =>
    obtain ⟨k', v'⟩ := option
    rw [List.map_cons, List.nodup_cons] at hkeys
    rw [List.mem_cons, List.lookup_cons, Prod.mk.injEq]
    by_cases hkey : k = k'
    · subst hkey
      rw [beq_self_eq_true]
      constructor
      · rintro (⟨-, rfl⟩ | hmem)
        · rfl
        · exact absurd (List.mem_map.mpr ⟨(k, v), hmem, rfl⟩) hkeys.1
      · intro h
        exact .inl ⟨rfl, (Option.some.inj h).symm⟩
    · rw [beq_eq_false_iff_ne.mpr hkey, ← ih hkeys.2]
      exact or_iff_right fun h => hkey h.1

theorem nodup_options (h : m.options filers context = .ok opts) : (opts.map Prod.fst).Nodup := by
  rw [keys_options h]
  decide

def argName (arg : String) : List Char := arg.toList.takeWhile (· ≠ '=')

theorem toList_argument : (argument (k, v)).toList = '-' :: k.toList ++ '=' :: v.toList := by
  rw [argument, String.toList_append, String.toList_append, String.toList_append]
  simp

theorem argName_argument (hk : '=' ∉ k.toList) : argName (argument (k, v)) = '-' :: k.toList := by
  rw [argName, toList_argument, List.takeWhile_append_of_pos]
  · simp
  · intro c hc
    rcases List.mem_cons.mp hc with rfl | hc
    · decide
    · exact decide_eq_true fun h => hk (h ▸ hc)

theorem argument_inj {k' v' : String} (hk : '=' ∉ k.toList) (hk' : '=' ∉ k'.toList)
    (h : argument (k, v) = argument (k', v')) : k = k' ∧ v = v' := by
  have hname := congrArg argName h
  rw [argName_argument hk, argName_argument hk'] at hname
  obtain rfl := String.toList_inj.mp (List.cons.inj hname).2
  have htext := congrArg String.toList h
  rw [toList_argument, toList_argument] at htext
  exact ⟨rfl, String.toList_inj.mp (List.cons.inj (List.append_cancel_left htext)).2⟩

theorem no_equals : ∀ k ∈ optionKeys, '=' ∉ k.toList := by decide

theorem no_option_of_name {arg : String} {name : String} (harg : argName arg = '-' :: name.toList)
    (hname : name ∉ optionKeys) (hk : k ∈ optionKeys) : arg ≠ argument (k, v) := by
  rintro rfl
  rw [argName_argument (no_equals k hk), List.cons.injEq] at harg
  rw [String.toList_inj.mp harg.2] at hk
  exact hname hk

theorem ne_argument_of_mem_fixedArgs {arg : String} (h : arg ∈ m.fixedArgs site)
    (hk : k ∈ optionKeys) : arg ≠ argument (k, v) := by
  have hclosed : ∀ arg ∈ ["-logtostderr=true", "mount", "-dirAutoCreate=false", "-umask=000", "-readOnly"],
      ∀ k ∈ optionKeys, argName arg ≠ '-' :: k.toList := by decide
  have hclosed' : ∀ arg ∈ ["-logtostderr=true", "mount", "-dirAutoCreate=false", "-umask=000", "-readOnly"],
      arg ≠ argument (k, v) := by
    rintro arg harg rfl
    exact hclosed _ harg k hk (argName_argument (no_equals k hk))
  have hopen : ∀ name ∈ ["dir", "localSocket", "cacheDir"], ∀ value : String,
      argument (name, value) ≠ argument (k, v) := by
    intro name hname value
    have hplain : ∀ name ∈ ["dir", "localSocket", "cacheDir"], '=' ∉ name.toList ∧ name ∉ optionKeys := by
      decide
    obtain ⟨hequals, hother⟩ := hplain name hname
    exact no_option_of_name (argName_argument hequals) hother hk
  rcases List.mem_append.mp h with h | h
  · simp only [List.mem_cons, List.not_mem_nil, or_false] at h
    rcases h with rfl | rfl | rfl | rfl | rfl | rfl | rfl
    · exact hclosed' _ (by decide)
    · exact hclosed' _ (by decide)
    · exact hclosed' _ (by decide)
    · exact hclosed' _ (by decide)
    · exact hopen "dir" (by decide) site.targetPath
    · exact hopen "localSocket" (by decide) site.localSocket
    · exact hopen "cacheDir" (by decide) site.cacheDir
  · split at h
    · rw [List.mem_singleton] at h
      subst h
      exact hclosed' _ (by decide)
    · cases h

theorem mem_args_iff {arg : String} (hopts : m.options site.filers context = .ok opts)
    (hargs : buildMountArgs m site context options = .ok args) :
    arg ∈ args ↔ arg ∈ m.fixedArgs site ∨ ∃ k v, opts.lookup k = some v ∧ v ≠ "" ∧ argument (k, v) = arg := by
  rw [buildMountArgs, hopts] at hargs
  cases hargs
  rw [List.mem_append, List.mem_map]
  refine or_congr_right ⟨?_, ?_⟩
  · rintro ⟨⟨k, v⟩, hmem, rfl⟩
    rw [List.mem_filter, (options.perm opts).mem_iff, mem_iff_lookup (nodup_options hopts),
      decide_eq_true_eq] at hmem
    exact ⟨k, v, hmem.1, hmem.2, rfl⟩
  · rintro ⟨k, v, hlookup, hv, rfl⟩
    refine ⟨(k, v), ?_, rfl⟩
    rw [List.mem_filter, (options.perm opts).mem_iff, mem_iff_lookup (nodup_options hopts),
      decide_eq_true_eq]
    exact ⟨hlookup, hv⟩

theorem mem_keys_of_lookup (h : opts.lookup k = some v) : k ∈ opts.map Prod.fst := by
  obtain ⟨front, back, rfl, -⟩ := List.lookup_eq_some_iff.mp h
  exact List.mem_map.mpr ⟨(k, v), List.mem_append_right _ List.mem_cons_self, rfl⟩

theorem argument_mem_iff (hopts : m.options site.filers context = .ok opts)
    (hargs : buildMountArgs m site context options = .ok args) (hk : k ∈ optionKeys) :
    argument (k, v) ∈ args ↔ v ≠ "" ∧ opts.lookup k = some v := by
  rw [mem_args_iff hopts hargs]
  constructor
  · rintro (hfixed | ⟨k', v', hlookup, hv, heq⟩)
    · exact absurd rfl (ne_argument_of_mem_fixedArgs hfixed hk)
    · have hk' : k' ∈ optionKeys := by
        rw [← keys_options hopts]
        exact mem_keys_of_lookup hlookup
      obtain ⟨rfl, rfl⟩ := argument_inj (no_equals k' hk') (no_equals k hk) heq
      exact ⟨hv, hlookup⟩
  · rintro ⟨hv, hlookup⟩
    exact .inr ⟨k, v, hlookup, hv, rfl⟩

theorem sameArgs_of_lookup {context' options' : Range} (hopts : m.options site.filers context = .ok opts)
    (hopts' : m.options site.filers context' = .ok opts') (h : ∀ k, opts.lookup k = opts'.lookup k) :
    SameArgs (buildMountArgs m site context options) (buildMountArgs m site context' options') := by
  obtain ⟨args, hargs⟩ : ∃ args, buildMountArgs m site context options = .ok args := by
    rw [buildMountArgs, hopts]
    exact ⟨_, rfl⟩
  obtain ⟨args', hargs'⟩ : ∃ args, buildMountArgs m site context' options' = .ok args := by
    rw [buildMountArgs, hopts']
    exact ⟨_, rfl⟩
  rw [hargs, hargs']
  intro arg
  rw [mem_args_iff hopts hargs, mem_args_iff hopts' hargs']
  simp only [h]

end Options

/-! ## What the context writes -/

section Writes

variable {m : Mounter} {volContext : VolumeContext} {k v : String} {names : String × String}

theorem nodup_pairs : (volContext.pairs.map Prod.fst).Nodup := by
  rw [VolumeContext.pairs, List.map_map]
  exact volContext.nodupKeys

theorem mem_pairs : (k, v) ∈ volContext.pairs ↔ volContext.lookup k = some v := by
  rw [VolumeContext.pairs, List.mem_map]
  constructor
  · rintro ⟨entry, hmem, heq⟩
    cases heq
    exact AList.mem_lookup_iff.mpr hmem
  · intro h
    exact ⟨⟨k, v⟩, AList.mem_lookup_iff.mp h, rfl⟩

theorem get_of_mem (h : (k, v) ∈ volContext.pairs) : volContext.get k = v := by
  rw [VolumeContext.get, mem_pairs.mp h, Option.getD_some]

theorem mem_pairs_of_get (h : volContext.get k ≠ "") : (k, volContext.get k) ∈ volContext.pairs := by
  rw [mem_pairs]
  unfold VolumeContext.get at h ⊢
  cases hlookup : volContext.lookup k with
  | none =>
    rw [hlookup] at h
    exact absurd rfl h
  | some value => rfl

theorem mem_of_lookup_parameterArgMap {key native : String}
    (h : parameterArgMap.lookup key = some native) : (key, native) ∈ parameterArgMap := by
  obtain ⟨front, back, heq, -⟩ := List.lookup_eq_some_iff.mp h
  rw [heq]
  exact List.mem_append_right _ List.mem_cons_self

theorem argKey_eq {a b : String} (h : argKey a = argKey b) :
    a = b ∨ (a, b) ∈ parameterArgMap ∨ (b, a) ∈ parameterArgMap := by
  have hinj : ∀ p ∈ parameterArgMap, ∀ q ∈ parameterArgMap, p.2 = q.2 → p.1 = q.1 := by decide
  unfold argKey at h
  cases ha : parameterArgMap.lookup a with
  | none =>
    cases hb : parameterArgMap.lookup b with
    | none =>
      rw [ha, hb] at h
      exact .inl h
    | some native =>
      rw [ha, hb] at h
      obtain rfl : a = native := h
      exact .inr (.inr (mem_of_lookup_parameterArgMap hb))
  | some native =>
    have hmem := mem_of_lookup_parameterArgMap ha
    cases hb : parameterArgMap.lookup b with
    | none =>
      rw [ha, hb] at h
      obtain rfl : native = b := h
      exact .inr (.inl hmem)
    | some native' =>
      rw [ha, hb] at h
      exact .inl (hinj _ hmem _ (mem_of_lookup_parameterArgMap hb) h)

theorem writes_eq_some_iff {entry : String × String} : writes k entry = some v ↔
    ignoredArgs.contains entry.1 = false ∧ argKey entry.1 = k ∧ entry.2 ≠ "" ∧ entry.2 = v := by
  unfold writes
  split
  · rename_i h
    refine iff_of_false nofun fun h' => ?_
    rcases h with h | h | h
    · exact Bool.false_ne_true (h'.1.symm.trans h)
    · exact h h'.2.1
    · exact h'.2.2.1 h
  · rename_i h
    rw [not_or, not_or, not_not, Bool.not_eq_true] at h
    rw [Option.some_inj]
    exact ⟨fun hv => ⟨h.1, h.2.1, h.2.2, hv⟩, fun h' => h'.2.2.2⟩

theorem writes_unique (hfree : ∀ names ∈ parameterArgMap, ¬Conflicts volContext names) :
    ∀ v ∈ volContext.pairs.filterMap (writes k), ∀ v' ∈ volContext.pairs.filterMap (writes k), v = v' := by
  intro v hv v' hv'
  obtain ⟨⟨a, va⟩, ha, hwrites⟩ := List.mem_filterMap.mp hv
  obtain ⟨⟨b, vb⟩, hb, hwrites'⟩ := List.mem_filterMap.mp hv'
  obtain ⟨-, hka, hva, rfl⟩ := writes_eq_some_iff.mp hwrites
  obtain ⟨-, hkb, hvb, rfl⟩ := writes_eq_some_iff.mp hwrites'
  have hget := get_of_mem ha
  have hget' := get_of_mem hb
  dsimp only at hva hvb hka hkb ⊢
  rw [← hget] at hva ⊢
  rw [← hget'] at hvb ⊢
  rcases argKey_eq (hka.trans hkb.symm) with rfl | hmem | hmem
  · rfl
  · by_contra hne
    exact hfree _ hmem ⟨hva, hvb, hne⟩
  · by_contra hne
    exact hfree _ hmem ⟨hvb, hva, Ne.symm hne⟩

theorem getLast?_of_perm {l l' : List String} (hperm : l.Perm l') (h : ∀ v ∈ l, ∀ v' ∈ l, v = v') :
    l.getLast? = l'.getLast? := by
  cases hlast : l.getLast? with
  | none =>
    rw [List.getLast?_eq_none_iff] at hlast
    subst hlast
    rw [hperm.symm.eq_nil]
    rfl
  | some v =>
    cases hlast' : l'.getLast? with
    | none =>
      rw [List.getLast?_eq_none_iff] at hlast'
      subst hlast'
      rw [hperm.eq_nil] at hlast
      cases hlast
    | some v' =>
      have hmem := List.mem_of_getLast? hlast
      have hmem' := hperm.mem_iff.mpr (List.mem_of_getLast? hlast')
      rw [h v hmem v' hmem']

end Writes

/-! ## The order shows where keys conflict -/

def Range.forward : Range := ⟨fun entries => entries, fun _ => .refl _⟩

def Range.backward : Range := ⟨List.reverse, List.reverse_perm⟩

section Orders

variable {m : Mounter} {site : MountSite} {filers : List String} {context context' : Range}
  {argsMap opts opts' : Options} {names : String × String}

theorem exists_error_iff : (∃ err, m.defaults filers = .error err) ↔ m.Refused := by
  unfold Mounter.defaults Mounter.Refused
  cases m.dataLocality with
  | error err => exact iff_of_true ⟨err, rfl⟩ trivial
  | ok dataLocality =>
    change (∃ err, (checkDataLocality dataLocality m.driver.dataCenter >>= _) = _) ↔ _ ∧ _
    unfold checkDataLocality
    by_cases hmissing : dataLocality ≠ .none ∧ m.driver.dataCenter = ""
    · rw [if_pos hmissing]
      exact iff_of_true ⟨_, rfl⟩ hmissing
    · rw [if_neg hmissing]
      refine iff_of_false ?_ hmissing
      rintro ⟨err, h⟩
      cases dataLocality <;> cases h

theorem options_of_defaults (h : m.defaults filers = .ok argsMap) :
    m.options filers context = .ok ((context.visit m.volContext.pairs).foldl overwrite argsMap) := by
  rw [Mounter.options, h]
  rfl

theorem lookup_options {k : String} (h : m.defaults filers = .ok argsMap)
    (hopts : m.options filers context = .ok opts) (hk : k ∈ optionKeys) :
    opts.lookup k =
      (((context.visit m.volContext.pairs).filterMap (writes k)).getLast?).or (argsMap.lookup k) := by
  rw [options_of_defaults h] at hopts
  cases hopts
  apply lookup_foldl
  rw [← keys_defaults h] at hk
  obtain ⟨option, hmem, rfl⟩ := List.mem_map.mp hk
  have hnodup : (argsMap.map Prod.fst).Nodup := by
    rw [keys_defaults h]
    decide
  rw [(mem_iff_lookup hnodup).mp hmem]
  rfl

theorem lookup_eq_none {k : String} (hopts : m.options filers context = .ok opts)
    (hk : k ∉ optionKeys) : opts.lookup k = none := by
  cases hlookup : opts.lookup k with
  | none => rfl
  | some v =>
    rw [← keys_options hopts] at hk
    exact absurd (mem_keys_of_lookup hlookup) hk

theorem options_order_free (hfree : ∀ names ∈ parameterArgMap, ¬Conflicts m.volContext names)
    (h : m.defaults filers = .ok argsMap) (hopts : m.options filers context = .ok opts)
    (hopts' : m.options filers context' = .ok opts') (k : String) : opts.lookup k = opts'.lookup k := by
  by_cases hk : k ∈ optionKeys
  · rw [lookup_options h hopts hk, lookup_options h hopts' hk]
    have hperm := (context.perm m.volContext.pairs).filterMap (writes k)
    have hperm' := (context'.perm m.volContext.pairs).filterMap (writes k)
    rw [← getLast?_of_perm hperm.symm (writes_unique hfree),
      ← getLast?_of_perm hperm'.symm (writes_unique hfree)]
  · rw [lookup_eq_none hopts hk, lookup_eq_none hopts' hk]

theorem writes_of_conflict (hnames : names ∈ parameterArgMap) (h : Conflicts m.volContext names) :
    (m.volContext.pairs.filterMap (writes names.2)).Perm
      [m.volContext.get names.1, m.volContext.get names.2] := by
  have hplain : ∀ names ∈ parameterArgMap, names.1 ≠ names.2 ∧
      ignoredArgs.contains names.1 = false ∧ ignoredArgs.contains names.2 = false ∧
      argKey names.1 = names.2 ∧ argKey names.2 = names.2 := by decide
  have honly : ∀ names ∈ parameterArgMap, ∀ names' ∈ parameterArgMap,
      names'.1 = names.1 ∨ names'.2 ≠ names.2 := by decide
  obtain ⟨hne, hignored, hignored', hkey, hkey'⟩ := hplain names hnames
  obtain ⟨hvalue, hvalue', -⟩ := h
  have hwrites : writes names.2 (names.1, m.volContext.get names.1) = some (m.volContext.get names.1) :=
    writes_eq_some hignored hkey hvalue
  have hwrites' : writes names.2 (names.2, m.volContext.get names.2) = some (m.volContext.get names.2) :=
    writes_eq_some hignored' hkey' hvalue'
  obtain ⟨rest, hrest⟩ : ∃ rest, m.volContext.pairs.Perm ((names.1, m.volContext.get names.1) ::
      (names.2, m.volContext.get names.2) :: rest) := by
    have hfirst := List.perm_cons_erase (mem_pairs_of_get hvalue)
    have hmem : (names.2, m.volContext.get names.2) ∈
        m.volContext.pairs.erase (names.1, m.volContext.get names.1) :=
      (List.mem_erase_of_ne fun h => hne (congrArg Prod.fst h).symm).mpr (mem_pairs_of_get hvalue')
    exact ⟨_, hfirst.trans ((List.perm_cons_erase hmem).cons _)⟩
  have hnodup : (((names.1, m.volContext.get names.1) ::
      (names.2, m.volContext.get names.2) :: rest).map Prod.fst).Nodup :=
    (hrest.map Prod.fst).nodup_iff.mp nodup_pairs
  rw [List.map_cons, List.map_cons, List.nodup_cons, List.nodup_cons, List.mem_cons, not_or] at hnodup
  have hnone : rest.filterMap (writes names.2) = [] := by
    rw [List.filterMap_eq_nil_iff]
    rintro ⟨key, value⟩ hmem
    refine writes_eq_none (.inr (.inl fun hother => ?_))
    have hmem' : key ∈ rest.map Prod.fst := List.mem_map.mpr ⟨(key, value), hmem, rfl⟩
    rcases argKey_eq (hother.trans hkey'.symm) with rfl | halias | halias
    · exact hnodup.2.1 hmem'
    · rcases honly _ hnames _ halias with hsame | hdiffers
      · exact hnodup.1.2 (hsame ▸ hmem')
      · exact hdiffers rfl
    · exact (hplain _ halias).1 (hkey'.symm.trans (hplain _ halias).2.2.2.1)
  have hperm := hrest.filterMap (writes names.2)
  rw [List.filterMap_cons_some hwrites, List.filterMap_cons_some hwrites', hnone] at hperm
  exact hperm

theorem getLast?_ne_of_perm {l : List String} {a b : String} (hperm : l.Perm [a, b]) (hne : a ≠ b) :
    ∃ x y, l.getLast? = some x ∧ l.reverse.getLast? = some y ∧ x ≠ y ∧ (x = a ∨ x = b) := by
  have hlength : l.length = 2 := hperm.length_eq
  obtain ⟨y, x, rfl⟩ := List.length_eq_two.mp hlength
  have hnodup : [y, x].Nodup := hperm.nodup_iff.mpr (by simpa using hne)
  refine ⟨x, y, rfl, rfl, ?_, ?_⟩
  · rintro rfl
    simp at hnodup
  · simpa using hperm.mem_iff.mp (List.mem_cons_of_mem _ List.mem_cons_self)

theorem conflict_shows (hnames : names ∈ parameterArgMap) (h : Conflicts m.volContext names)
    (hdefaults : m.defaults site.filers = .ok argsMap) :
    ¬SameArgs (buildMountArgs m site .forward .forward) (buildMountArgs m site .backward .forward) := by
  have hkeys : ∀ names ∈ parameterArgMap, names.2 ∈ optionKeys := by decide
  have hk := hkeys names hnames
  have hopts := @options_of_defaults m site.filers .forward _ hdefaults
  have hopts' := @options_of_defaults m site.filers .backward _ hdefaults
  obtain ⟨args, hargs⟩ : ∃ args, buildMountArgs m site .forward .forward = .ok args := by
    rw [buildMountArgs, hopts]
    exact ⟨_, rfl⟩
  obtain ⟨args', hargs'⟩ : ∃ args, buildMountArgs m site .backward .forward = .ok args := by
    rw [buildMountArgs, hopts']
    exact ⟨_, rfl⟩
  obtain ⟨x, y, hlast, hfirst, hxy, hx⟩ := getLast?_ne_of_perm (writes_of_conflict hnames h) h.2.2
  have hvalue : x ≠ "" := by
    rcases hx with rfl | rfl
    · exact h.1
    · exact h.2.1
  have hlookup := lookup_options hdefaults hopts hk
  have hlookup' := lookup_options hdefaults hopts' hk
  change _ = ((m.volContext.pairs.filterMap (writes names.2)).getLast?).or _ at hlookup
  change _ = ((m.volContext.pairs.reverse.filterMap (writes names.2)).getLast?).or _ at hlookup'
  rw [hlast, Option.some_or] at hlookup
  rw [List.filterMap_reverse, hfirst, Option.some_or] at hlookup'
  rw [hargs, hargs']
  intro hsame
  have hmem := (argument_mem_iff hopts hargs hk).mpr ⟨hvalue, hlookup⟩
  have hmem' := ((argument_mem_iff hopts' hargs' hk).mp ((hsame _).mp hmem)).2
  rw [hlookup'] at hmem'
  exact hxy (Option.some.inj hmem').symm

end Orders

/-- The arguments depend on the order of the context just when an option has one value under
its own key and another under its alias. -/
theorem mount_args_order_free_iff (m : Mounter) (site : MountSite) :
    (∀ context options context' options' : Range, SameArgs (buildMountArgs m site context options)
      (buildMountArgs m site context' options')) ↔
      m.Refused ∨ ∀ names ∈ parameterArgMap, ¬Conflicts m.volContext names := by
  constructor
  · intro h
    by_contra hnot
    rw [not_or] at hnot
    obtain ⟨hrefused, hconflict⟩ := hnot
    push Not at hconflict
    obtain ⟨names, hnames, hconflict⟩ := hconflict
    cases hdefaults : m.defaults site.filers with
    | error err => exact hrefused (exists_error_iff.mp ⟨err, hdefaults⟩)
    | ok argsMap => exact conflict_shows hnames hconflict hdefaults (h _ _ _ _)
  · intro h context options context' options'
    cases hdefaults : m.defaults site.filers with
    | error err =>
      rw [buildMountArgs, buildMountArgs, Mounter.options, Mounter.options, hdefaults]
      rfl
    | ok argsMap =>
      have hfree := h.resolve_left fun hrefused => by
        obtain ⟨err, herr⟩ := (@exists_error_iff m site.filers).mpr hrefused
        rw [hdefaults] at herr
        cases herr
      have hopts := @options_of_defaults m site.filers context _ hdefaults
      have hopts' := @options_of_defaults m site.filers context' _ hdefaults
      exact sameArgs_of_lookup hopts hopts' (options_order_free hfree hdefaults hopts hopts')

/-! ## A volume with a group of its own -/

def plainDriver : SeaweedFsDriver := ⟨0, 0, 0, 0, "", "", "", .none⟩

/-- The context of a volume whose files have a group, staged with another mount group. -/
def groupedContext : VolumeContext :=
  injectVolumeMountGroup (some ⟨some .multiNodeMultiWriter, some "200"⟩)
    ((∅ : VolumeContext).insert "map.gid" "100:0")

def groupedMounter : Mounter := ⟨plainDriver, "/buckets/pv", false, groupedContext⟩

theorem grouped_args_depend_on_order : ¬∀ (m : Mounter) (site : MountSite)
    (context options context' options' : Range), SameArgs (buildMountArgs m site context options)
      (buildMountArgs m site context' options') := by
  intro h
  have hconflict : Conflicts groupedMounter.volContext ("gidMap", "map.gid") := by
    refine ⟨?_, ?_, ?_⟩ <;> decide
  have hnames : ("gidMap", "map.gid") ∈ parameterArgMap := by decide
  have hsame := h groupedMounter ⟨"/staging", "/cache", "/socket", ["filer:8888"]⟩ .forward .forward
    .backward .forward
  exact conflict_shows hnames hconflict rfl hsame

end ClusterState.NodeServer
