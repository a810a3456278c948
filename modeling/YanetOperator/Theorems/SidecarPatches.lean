import YanetOperator.Manifests.Render

/-!
# The grammar of sidecar patches

`ValidateSidecarPatch` walks down three levels of an object and checks the lists of the innermost one. The grammar here is stated
on JSON values: which objects the walk accepts, with the last occurrence of a repeated key. What an accepted patch names is what
the composition of a sidecar carries into the dataplane.
-/

namespace YanetOperator

open Check

/-! ## The grammar -/

/-- The value of a key of an object: of a repeated key the last occurrence counts. -/
def LastValue (members : List (String × Json)) (key : String) (value : Json) : Prop :=
  ∃ before after, members = before ++ (key, value) :: after ∧ ∀ e ∈ after, e.1 ≠ key

/-- Objects with nonempty names, no two of them equal. -/
def NamedItems (items : List Json) : Prop :=
  ∃ names : List String, names.Nodup ∧ "" ∉ names ∧
    List.Forall₂ (fun item name => ∃ members, item = .obj members ∧ LastValue members "name" (.str name)) items names

/-- A list of a sidecar patch. -/
def ItemList (value : Json) : Prop := value = .null ∨ ∃ items, value = .arr items ∧ NamedItems items

/-- The lists of a Pod that the composition of a sidecar carries into the dataplane. -/
def carriedLists : List String := ["containers", "initContainers", "volumes"]

/-- The key of a carried list, or of the directive that orders it. -/
def IsCarried (key : String) : Prop := ∃ field ∈ carriedLists, key = field ∨ key = "$setElementOrder/" ++ field

/-- The Pod of a sidecar patch. -/
def PodFragment (value : Json) : Prop :=
  ∃ members, value = .obj members ∧ ∀ key item, LastValue members key item → IsCarried key ∧ ItemList item

/-- Objects of one key each, down to a Pod: an empty object ends the chain at any level. -/
def PatchChain : List String → Json → Prop
  | [], value => PodFragment value
  | level :: levels, value => ∃ members, value = .obj members ∧
      (members = [] ∨ ((∀ e ∈ members, e.1 = level) ∧ ∃ child, LastValue members level child ∧ PatchChain levels child))

/-- The JSON values a sidecar patch may be. -/
def SidecarPatch (value : Json) : Prop := value = .null ∨ PatchChain ["spec", "template", "spec"] value

/-- The paths of keys that a value names, from its root. -/
inductive Names : Json → List String → Prop
  | root (value : Json) : Names value []
  | member {members : List (String × Json)} {key : String} {value : Json} {path : List String} :
      LastValue members key value → Names value path → Names (.obj members) (key :: path)

/-! ## Decoded objects -/

theorem getElem?_of_iff {members : List (String × Json)} {key : String} {value : Json} :
    (StrMap.of members)[key]? = some value ↔ LastValue members key value := by
  rw [StrMap.getElem?_of, Option.map_eq_some_iff]
  constructor
  · rintro ⟨⟨k, v⟩, hfind, rfl⟩
    obtain ⟨hk, after, before, heq, hafter⟩ := List.find?_eq_some_iff_append.1 hfind
    obtain rfl : k = key := by simpa using hk
    refine ⟨before.reverse, after.reverse, ?_, fun e he => by simpa using hafter e (List.mem_reverse.1 he)⟩
    rw [← List.reverse_reverse members, heq]
    simp
  · rintro ⟨before, after, rfl, hafter⟩
    refine ⟨(key, value), List.find?_eq_some_iff_append.2 ⟨by simp, after.reverse, before.reverse, by simp, ?_⟩, rfl⟩
    intro e he
    simpa using hafter e (List.mem_reverse.1 he)

theorem isEmpty_of_iff {members : List (String × Json)} : (StrMap.of members).isEmpty = true ↔ members = [] := by
  rw [Std.ExtTreeMap.isEmpty_iff]
  constructor
  · intro hempty
    rw [List.eq_nil_iff_forall_not_mem]
    intro e he
    have hnone : (StrMap.of members)[e.1]? = none := by rw [hempty]; simp
    rw [StrMap.getElem?_of, Option.map_eq_none_iff, List.find?_eq_none] at hnone
    exact hnone e (List.mem_reverse.2 he) (by simp)
  · rintro rfl
    rfl

/-- A map that holds a key holds no other exactly when its size is one. -/
theorem size_eq_one_iff {m : StrMap Json} {key : String} {value : Json} (h : m[key]? = some value) :
    m.size = 1 ↔ ∀ k, m[k]? ≠ none → k = key := by
  have hmem := StrMap.mem_toList.2 h
  rw [← Std.ExtTreeMap.length_toList, List.length_eq_one_iff]
  constructor
  · rintro ⟨e, he⟩ k hk
    obtain ⟨v, hv⟩ := Option.ne_none_iff_exists'.1 hk
    have hkv := StrMap.mem_toList.2 hv
    rw [he, List.mem_singleton] at hkv hmem
    exact congrArg Prod.fst (hkv.trans hmem.symm)
  · intro hall
    have hsingle : ∀ e ∈ m.toList, e = (key, value) := by
      rintro ⟨k, v⟩ he
      have hv := StrMap.mem_toList.1 he
      obtain rfl := hall k (by simp [hv])
      rw [h] at hv
      rw [Option.some.inj hv]
    have hnodup : m.toList.Nodup := Std.ExtTreeMap.ordered_keys_toList.imp fun {a b} hlt heq => by
      rw [heq] at hlt
      simp at hlt
    cases hlist : m.toList with
    | nil =>
      rw [hlist] at hmem
      cases hmem
    | cons e rest =>
      cases rest with
      | nil => exact ⟨e, rfl⟩
      | cons e' rest =>
        rw [hlist] at hsingle hnodup
        have hsame : e = e' := (hsingle e (by simp)).trans (hsingle e' (by simp)).symm
        exact absurd (hsame ▸ List.mem_cons_self ..) (List.nodup_cons.1 hnodup).1

/-- The members of an object that holds a key, decoded: no other key exactly when the size is one. -/
theorem size_of_iff {members : List (String × Json)} {key : String} {value : Json} (h : LastValue members key value) :
    (StrMap.of members).size = 1 ↔ ∀ e ∈ members, e.1 = key := by
  rw [size_eq_one_iff (getElem?_of_iff.2 h)]
  constructor
  · intro hall e he
    refine hall e.1 fun hnone => ?_
    rw [StrMap.getElem?_of, Option.map_eq_none_iff, List.find?_eq_none] at hnone
    exact hnone e (List.mem_reverse.2 he) (by simp)
  · intro hall k hk
    obtain ⟨v, hv⟩ := Option.ne_none_iff_exists'.1 hk
    exact hall (k, v) (StrMap.mem_of_getElem?_of hv)

/-! ## Lists of a patch -/

theorem mem_sidecarPatchKeys {key : String} : key ∈ sidecarPatchKeys ↔ IsCarried key := by
  simp only [sidecarPatchKeys, IsCarried, carriedLists, List.mem_cons, List.not_mem_nil, or_false, exists_eq_or_imp, exists_eq_left]
  constructor
  · rintro (h | h | h | h | h | h) <;> simp [h]
  · rintro ((h | h) | (h | h) | (h | h)) <;> simp [h]

/-- The name an item of a list is checked by: empty when there is none. -/
def itemName (item : StrMap Json) : String :=
  match Json.asText item["name"]? with
  | .ok name => name
  | .error _ => ""

theorem validateSidecarPatchItems_ok {key : String} {items : List (StrMap Json)} :
    validateSidecarPatchItems key items = .ok () ↔ (items.map itemName).Nodup ∧ ∀ item ∈ items, itemName item ≠ "" := by
  constructor
  · intro h
    obtain ⟨hown, hnodup, -⟩ := distinct_ok h
    refine ⟨hnodup, fun item hitem => ?_⟩
    obtain ⟨j, hj, -⟩ := hown item hitem
    exact refuse_ok.1 hj
  · rintro ⟨hnodup, hnamed⟩
    exact distinct_of (fun item hitem j => ⟨refuse_ok.2 (hnamed item hitem), rfl⟩) hnodup (by simp)

/-- A decoded item with a name is an object with a string under that key. -/
theorem itemName_iff {item : Json} {object : StrMap Json} {name : String} (h : item.asObject = .ok object) (hname : name ≠ "") :
    itemName object = name ↔ ∃ members, item = .obj members ∧ LastValue members "name" (.str name) := by
  cases item with
  | null =>
    cases h
    have hempty : itemName ∅ = "" := rfl
    rw [hempty]
    exact ⟨fun heq => absurd heq.symm hname, fun ⟨members, heq, _⟩ => by cases heq⟩
  | obj members =>
    cases h
    have hvalue : itemName (StrMap.of members) = name ↔ (StrMap.of members)["name"]? = some (.str name) := by
      unfold itemName
      cases (StrMap.of members)["name"]? with
      | none => exact ⟨fun heq => absurd heq.symm hname, nofun⟩
      | some value =>
        cases value with
        | str s => simp [Json.asText]
        | null | bool b | num t | arr items | obj ms =>
          exact ⟨fun heq => absurd heq.symm hname, nofun⟩
    rw [hvalue, getElem?_of_iff]
    constructor
    · intro hlast
      exact ⟨members, rfl, hlast⟩
    · rintro ⟨members', heq, hlast⟩
      cases heq
      exact hlast
  | bool b | num t | str s | arr items => cases h

/-- A list passes its check exactly when it is in the grammar. -/
theorem itemList_iff (key : String) {value : Json} :
    (∃ items, value.asObjects = .ok items ∧ validateSidecarPatchItems key items = .ok ()) ↔ ItemList value := by
  cases value with
  | null => exact ⟨fun _ => Or.inl rfl, fun _ => ⟨[], rfl, rfl⟩⟩
  | arr items =>
    simp only [Json.asObjects, validateSidecarPatchItems_ok, mapM_ok, ItemList, NamedItems, reduceCtorEq, false_or, Json.arr.injEq,
      exists_eq_left']
    constructor
    · rintro ⟨objects, hdecoded, hnodup, hnamed⟩
      refine ⟨objects.map itemName, hnodup, fun hmem => ?_, ?_⟩
      · obtain ⟨object, hobject, hempty⟩ := List.mem_map.1 hmem
        exact hnamed object hobject hempty
      · clear hnodup
        induction hdecoded with
        | nil => exact .nil
        | cons hitem _ ih =>
          refine .cons ((itemName_iff hitem (hnamed _ (by simp))).1 rfl) (ih fun object hobject => hnamed object (by simp [hobject]))
    · rintro ⟨names, hnodup, hempty, hitems⟩
      have hdecoded : ∃ objects : List (StrMap Json), List.Forall₂ (fun item object => Json.asObject item = .ok object) items objects ∧
          objects.map itemName = names := by
        clear hnodup
        induction hitems with
        | nil => exact ⟨[], .nil, rfl⟩
        | @cons item name items names hitem _ ih =>
          obtain ⟨objects, hobjects, hnames⟩ := ih fun hmem => hempty (by simp [hmem])
          have hname : name ≠ "" := fun heq => hempty (by simp [heq])
          obtain ⟨members, rfl, hlast⟩ := hitem
          refine ⟨StrMap.of members :: objects, .cons rfl hobjects, ?_⟩
          rw [List.map_cons, hnames, (@itemName_iff (.obj members) _ name rfl hname).2 ⟨members, rfl, hlast⟩]
      obtain ⟨objects, hobjects, hnames⟩ := hdecoded
      refine ⟨objects, hobjects, hnames ▸ hnodup, fun object hobject heq => hempty ?_⟩
      rw [← hnames, ← heq]
      exact List.mem_map_of_mem hobject
  | bool b | num t | str s | obj members =>
    constructor
    · rintro ⟨items, hitems, -⟩
      cases hitems
    · rintro (heq | ⟨items, heq, -⟩) <;> cases heq

/-! ## The walk -/

theorem podFragment_iff {members : List (String × Json)} :
    validateSidecarPatchLevels [] (StrMap.of members) = .ok () ↔ PodFragment (.obj members) := by
  rw [validateSidecarPatchLevels, forM_ok]
  constructor
  · intro h
    refine ⟨members, rfl, fun key value hlast => ?_⟩
    have hentry := h (key, value) (StrMap.mem_toList.2 (getElem?_of_iff.2 hlast))
    dsimp only at hentry
    rw [← mem_sidecarPatchKeys, ← itemList_iff key]
    split at hentry
    · next hkey =>
      cases hitems : value.asObjects with
      | error e =>
        rw [hitems] at hentry
        cases hentry
      | ok items =>
        rw [hitems] at hentry
        exact ⟨hkey, items, rfl, hentry⟩
    · cases hentry
  · rintro ⟨members', heq, h⟩ ⟨key, value⟩ hmem
    cases heq
    have hentry := h key value (getElem?_of_iff.1 (StrMap.mem_toList.1 hmem))
    rw [← mem_sidecarPatchKeys, ← itemList_iff key] at hentry
    obtain ⟨hkey, items, hitems, hvalid⟩ := hentry
    dsimp only
    rw [if_pos hkey, hitems]
    exact hvalid

/-- The walk down the levels accepts the chains of the grammar. -/
theorem patchChain_iff {levels : List String} {members : List (String × Json)} :
    validateSidecarPatchLevels levels (StrMap.of members) = .ok () ↔ PatchChain levels (.obj members) := by
  induction levels generalizing members with
  | nil => exact podFragment_iff
  | cons level levels ih =>
    have hchain : PatchChain (level :: levels) (.obj members) ↔
        members = [] ∨ ((∀ e ∈ members, e.1 = level) ∧ ∃ child, LastValue members level child ∧ PatchChain levels child) := by
      simp [PatchChain]
    rw [hchain, validateSidecarPatchLevels]
    by_cases hempty : members = []
    · rw [if_pos (isEmpty_of_iff.2 hempty)]
      exact iff_of_true rfl (Or.inl hempty)
    · rw [if_neg (fun h => hempty (isEmpty_of_iff.1 h)), or_iff_right hempty]
      dsimp only
      cases hchild : (StrMap.of members)[level]? with
      | none =>
        refine iff_of_false nofun fun ⟨_, child, hlast, _⟩ => ?_
        rw [getElem?_of_iff.2 hlast] at hchild
        cases hchild
      | some child =>
        have hlast := getElem?_of_iff.1 hchild
        -- the last occurrence of the key is the only value the walk and the grammar look at
        have hunique : (∃ c, LastValue members level c ∧ PatchChain levels c) ↔ PatchChain levels child := by
          constructor
          · rintro ⟨c, hc, h⟩
            rw [getElem?_of_iff.2 hc] at hchild
            cases hchild
            exact h
          · intro h
            exact ⟨child, hlast, h⟩
        have hobject : PatchChain levels child → ∃ ms, child = .obj ms := by
          cases levels with
          | nil => exact fun ⟨ms, heq, _⟩ => ⟨ms, heq⟩
          | cons l ls => exact fun ⟨ms, heq, _⟩ => ⟨ms, heq⟩
        rw [hunique, ← size_of_iff hlast]
        cases child with
        | obj ms =>
          dsimp only
          split
          · next hsize => exact iff_of_false nofun fun h => hsize h.1
          · next hsize =>
            rw [← ih]
            exact ⟨fun h => ⟨not_not.1 hsize, h⟩, fun h => h.2⟩
        | null => exact iff_of_false nofun fun h => by cases hobject h.2 with | intro ms heq => cases heq
        | bool b | num t | str t | arr items =>
          refine iff_of_false (fun h => ?_) fun h => by cases hobject h.2 with | intro ms heq => cases heq
          dsimp only at h
          split at h <;> cases h

/-- The values `ValidateSidecarPatch` accepts. -/
theorem validateSidecarPatch_iff (raw : RawPatch) :
    validateSidecarPatch raw = .ok () ↔ ∃ value, raw = .json value ∧ SidecarPatch value := by
  have hlevels (value : Json) : validateSidecarPatch (.json value) = .ok () ↔ SidecarPatch value := by
    unfold validateSidecarPatch
    rw [bind_eq_ok]
    cases value with
    | null => exact iff_of_true ⟨∅, rfl, rfl⟩ (Or.inl rfl)
    | obj members =>
      have hobject : SidecarPatch (.obj members) ↔ PatchChain ["spec", "template", "spec"] (.obj members) := by
        simp [SidecarPatch]
      rw [hobject, ← patchChain_iff]
      constructor
      · rintro ⟨object, hdecoded, h⟩
        cases hdecoded
        exact h
      · intro h
        exact ⟨StrMap.of members, rfl, h⟩
    | bool b | num t | str t | arr items =>
      refine iff_of_false (fun ⟨object, hdecoded, _⟩ => by cases hdecoded) ?_
      rintro (heq | ⟨members, heq, -⟩) <;> cases heq
  cases raw with
  | json value =>
    rw [hlevels]
    simp
  | empty | invalid => exact iff_of_false nofun nofun

/-! ## What a patch names -/

/-- The keys of a chain on the way to a path: its levels, then one of the carried lists. -/
theorem PatchChain.names {levels : List String} {value : Json} {path : List String} (h : PatchChain levels value)
    (hpath : Names value path) : ∃ key, IsCarried key ∧ path.take (levels.length + 1) <+: levels ++ [key] := by
  have hany : IsCarried "containers" := ⟨"containers", by decide, Or.inl rfl⟩
  induction levels generalizing value path with
  | nil =>
    obtain ⟨members, rfl, hmembers⟩ := h
    cases hpath with
    | root => exact ⟨_, hany, List.nil_prefix⟩
    | @member _ key item path hlast _ => exact ⟨key, (hmembers key item hlast).1, List.prefix_refl _⟩
  | cons level levels ih =>
    obtain ⟨members, rfl, hmembers⟩ := h
    cases hpath with
    | root => exact ⟨_, hany, List.nil_prefix⟩
    | @member _ key item path hlast hrest =>
      have hmem := StrMap.mem_of_getElem?_of (getElem?_of_iff.2 hlast)
      obtain rfl | ⟨hsingle, child, hchild, hchain⟩ := hmembers
      · cases hmem
      · obtain rfl : key = level := hsingle (key, item) hmem
        have hsame := (getElem?_of_iff.2 hlast).symm.trans (getElem?_of_iff.2 hchild)
        cases hsame
        obtain ⟨carried, hcarried, hprefix⟩ := ih hchain hrest
        exact ⟨carried, hcarried, List.cons_prefix_cons.2 ⟨rfl, hprefix⟩⟩

/-- The composition of a sidecar takes nothing from its Deployment but the carried lists. -/
theorem mergeSidecar_congr (Γ : Platform) (d : Deployment) (sidecar : String) {op op' : Deployment}
    (hcontainers : op.pod.containers = op'.pod.containers) (hinits : op.pod.initContainers = op'.pod.initContainers)
    (hvolumes : op.pod.volumes = op'.pod.volumes) : mergeSidecar Γ d sidecar op = mergeSidecar Γ d sidecar op' := by
  simp only [mergeSidecar, mapResourceFieldRefs, PodSpec.mapContainers, hcontainers, hinits, hvolumes]

/-- `ValidateSidecarPatch` accepts exactly the patches of the grammar; what an accepted patch names above the lists is the way to
one of them; and these lists are all that is composed into the dataplane. -/
theorem sidecarPatch_exact (raw : RawPatch) :
    (validateSidecarPatch raw = .ok () ↔ ∃ value, raw = .json value ∧ SidecarPatch value) ∧
      (∀ value, raw = .json value → validateSidecarPatch raw = .ok () → ∀ path, Names value path →
        ∃ key, IsCarried key ∧ path.take 4 <+: ["spec", "template", "spec", key]) ∧
      ∀ (Γ : Platform) (d : Deployment) (sidecar : String) (op op' : Deployment), op.pod.containers = op'.pod.containers →
        op.pod.initContainers = op'.pod.initContainers → op.pod.volumes = op'.pod.volumes →
        mergeSidecar Γ d sidecar op = mergeSidecar Γ d sidecar op' := by
  refine ⟨validateSidecarPatch_iff raw, ?_, fun Γ d sidecar op op' => mergeSidecar_congr Γ d sidecar⟩
  rintro value rfl hok path hpath
  obtain ⟨value', heq, hpatch⟩ := (validateSidecarPatch_iff _).1 hok
  cases heq
  rcases hpatch with rfl | hchain
  · cases hpath
    exact ⟨"containers", ⟨"containers", by decide, Or.inl rfl⟩, List.nil_prefix⟩
  · exact hchain.names hpath

/-- A patch with repeated keys: the replicas and the first name do not count. -/
def repeatedKeys : Json :=
  .obj [("spec", .obj [("replicas", .num "1")]),
    ("spec", .obj [("template", .obj [("spec", .obj
      [("containers", .arr [.obj [("name", .null), ("name", .str "worker")], .obj [("name", .str "helper")]]),
        ("$setElementOrder/volumes", .null)])])])]

theorem repeatedKeys_accepted : validateSidecarPatch (.json repeatedKeys) = .ok () ∧
    ∃ value, RawPatch.json repeatedKeys = .json value ∧ SidecarPatch value :=
  have h : validateSidecarPatch (.json repeatedKeys) = .ok () := by decide +kernel
  ⟨h, (sidecarPatch_exact (.json repeatedKeys)).1.1 h⟩

end YanetOperator
