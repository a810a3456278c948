import YanetOperator.Lemmas.Admission

/-!
# What admission leaves to the resolver

The references of an admitted configuration, and what follows for an installation with well-shaped overrides: the resolver, the
enumeration and the repeated check of the overrides do not fail, apart from sidecars whose names have one key.
-/

namespace YanetOperator

open Check

/-- The references and the palette of an admitted configuration. -/
structure AdmittedWiring (config : YanetConfigSpec) : Prop where
  sidecarBound : config.components.dataplane.sidecars.length ≤ maxDataplaneSidecars
  sidecarListeners : ∀ s ∈ config.components.dataplane.sidecars, validateListeners s.name s.listeners = .ok ()
  operatorContainers : ∀ op ∈ config.components.operators, op.containers ≠ []
  networks : validateNetworkAttachments (config.components.dataplane.networks.getD []) = .ok ()
  numa : optional config.components.controlplane.numa validateControlplaneNuma = .ok ()
  boxSidecars : ∀ box ∈ config.boxTypes, ∀ slot, box.components.dataplane = some slot → ∀ name : String,
    slot.sidecars[name]? ≠ none → name ∈ config.components.dataplane.sidecars.map SidecarSpec.name
  boxBirdAdapter : ∀ box ∈ config.boxTypes, box.components.birdAdapter ≠ none → config.components.birdAdapter ≠ none
  boxOperators : ∀ box ∈ config.boxTypes, ∀ name : String, box.operators[name]? ≠ none →
    name ∈ config.components.operators.map OperatorSpec.name

/-- Every entry of a map that was walked passed. -/
theorem forM_toList_ok {β : Type} {m : StrMap β} {f : String × β → Check} (h : forM m.toList f = .ok ()) {k : String} {v : β}
    (hk : m[k]? = some v) : f (k, v) = .ok () := forM_ok.1 h (k, v) (StrMap.mem_toList.2 hk)

/-- The references of one box type. -/
theorem validateBoxTypeRef_wiring {Γ : Platform} {config : YanetConfigSpec} {i : Nat} {box : BoxType}
    (h : validateBoxTypeRef Γ config i box = .ok ()) :
    (∀ slot, box.components.dataplane = some slot → ∀ name : String, slot.sidecars[name]? ≠ none →
      name ∈ config.components.dataplane.sidecars.map SidecarSpec.name) ∧
    (box.components.birdAdapter ≠ none → config.components.birdAdapter ≠ none) ∧
    ∀ name : String, box.operators[name]? ≠ none → name ∈ config.components.operators.map OperatorSpec.name := by
  unfold validateBoxTypeRef at h
  dsimp only at h
  split at h
  · cases h
  · cases h
  · next controlplane dataplane hc hd =>
    obtain ⟨-, h⟩ := seq_ok.1 h
    obtain ⟨-, h⟩ := seq_ok.1 h
    obtain ⟨hsidecars, h⟩ := seq_ok.1 h
    obtain ⟨hbird, h⟩ := seq_ok.1 h
    obtain ⟨hoperators, -⟩ := seq_ok.1 h
    refine ⟨fun slot hslot name hname => ?_, fun hb => ?_, fun name hname => ?_⟩
    · rw [hd] at hslot
      cases hslot
      obtain ⟨wired, hwired⟩ := Option.ne_none_iff_exists'.1 hname
      have := (seq_ok.1 (forM_toList_ok hsidecars hwired)).1
      exact not_not.1 (refuse_ok.1 this)
    · obtain ⟨adapter, hadapter⟩ := Option.ne_none_iff_exists'.1 hb
      exact refuse_ok.1 (seq_ok.1 (optional_ok.1 hbird adapter hadapter)).1
    · obtain ⟨wired, hwired⟩ := Option.ne_none_iff_exists'.1 hname
      have := (seq_ok.1 (forM_toList_ok hoperators hwired)).1
      exact not_not.1 (refuse_ok.1 this)

theorem validateYanetConfig_wiring {Γ : Platform} {config : YanetConfigSpec} (h : validateYanetConfig Γ config = .ok ()) :
    AdmittedWiring config := by
  have hchecks := validateYanetConfig_checks h
  have hrefs := hchecks.refs
  obtain ⟨hbound, hsc⟩ := seq_ok.1 hchecks.sidecars
  obtain ⟨hsidecars, -, -⟩ := distinct_ok hsc
  obtain ⟨hoperators, -, -⟩ := distinct_ok hchecks.operators
  have hwiring : ∀ box ∈ config.boxTypes, _ := fun box hm =>
    let ⟨_, hi⟩ := each_mem hrefs hm
    validateBoxTypeRef_wiring hi
  refine ⟨by simpa using refuse_ok.1 hbound, ?_, ?_, hchecks.networks, (seq_ok.1 hchecks.disabledNuma).1,
    fun box hm => (hwiring box hm).1, fun box hm => (hwiring box hm).2.1, fun box hm => (hwiring box hm).2.2⟩
  · intro s hs
    obtain ⟨_, -, hafter⟩ := hsidecars s hs
    exact hafter
  · intro op hm
    obtain ⟨_, -, hafter⟩ := hoperators op hm
    have hcount := refuse_ok.1 (seq_ok.1 (seq_ok.1 hafter).2).1
    rintro hnil
    simp [hnil] at hcount

/-! ## The resolver -/

/-- The first element with a key that some element has. -/
theorem exists_find?_of_mem_map {α : Type} {key : α → String} {xs : List α} {k : String} (h : k ∈ xs.map key) :
    ∃ x ∈ xs, key x = k ∧ xs.find? (key · == k) = some x := by
  obtain ⟨y, hy, rfl⟩ := List.mem_map.1 h
  cases hfind : xs.find? (key · == key y) with
  | some x => exact ⟨x, List.mem_of_find?_eq_some hfind, by simpa using List.find?_some hfind, rfl⟩
  | none => exact absurd (beq_self_eq_true (key y)) (List.find?_eq_none.1 hfind y hy)

/-- The box type of a name among those of the configuration. -/
theorem findBoxType_of_mem {config : YanetConfigSpec} {name : String} (h : name ∈ config.boxTypes.map BoxType.name) :
    ∃ box, findBoxType config name = .ok box := by
  obtain ⟨box, -, -, hfind⟩ := exists_find?_of_mem_map h
  exact ⟨box, by rw [findBoxType, hfind]⟩

theorem findOperator_of_mem {config : YanetConfigSpec} {name : String}
    (h : name ∈ config.components.operators.map OperatorSpec.name) :
    ∃ op ∈ config.components.operators, op.name = name ∧ findOperator config name = .ok op := by
  obtain ⟨op, hop, hname, hfind⟩ := exists_find?_of_mem_map h
  exact ⟨op, hop, hname, by rw [findOperator, hfind]⟩

/-- The walk of the palette does not fail when the keys are distinct and the listeners pass. -/
theorem resolveSidecarPalette_of_keys {Γ : Platform} {config : YanetConfigSpec} {yanet : YanetSpec} {box : BoxDataplane}
    {before rest : List SidecarSpec} (hkeys : ((before ++ rest).map fun s => Γ.shortNodeKey s.name).Nodup)
    (hlisteners : ∀ s ∈ rest, validateListeners s.name s.listeners = .ok ()) :
    ∃ rs, resolveSidecarPalette Γ config yanet box before rest = .ok rs := by
  induction rest generalizing before with
  | nil => exact ⟨[], rfl⟩
  | cons s rest ih =>
    have hkeys' : ((before ++ [s] ++ rest).map fun s => Γ.shortNodeKey s.name).Nodup := by
      rwa [List.append_assoc, List.singleton_append]
    obtain ⟨rs, hrs⟩ := ih hkeys' fun s' hs' => hlisteners s' (List.mem_cons_of_mem s hs')
    have hfresh : ∀ b ∈ before, Γ.shortNodeKey b.name ≠ Γ.shortNodeKey s.name := by
      intro b hb
      rw [List.map_append, List.nodup_append] at hkeys
      exact hkeys.2.2 _ (List.mem_map_of_mem hb) _ (List.mem_map_of_mem List.mem_cons_self)
    have hname : s.name ∉ before.map (·.name) := by
      intro hmem
      obtain ⟨b, hb, hbs⟩ := List.mem_map.1 hmem
      exact hfresh b hb (by rw [hbs])
    have hnone : before.reverse.find? (fun b => Γ.shortNodeKey b.name == Γ.shortNodeKey s.name) = none := by
      rw [List.find?_eq_none]
      intro b hb
      simpa using hfresh b (List.mem_reverse.1 hb)
    have hcheck : checkSidecarPalette Γ before s = .ok () := by
      unfold checkSidecarPalette
      rw [seq_ok, refuse_ok, hnone]
      exact ⟨hname, hlisteners s List.mem_cons_self⟩
    refine ⟨resolveSidecar config yanet box before.length s :: rs, ?_⟩
    unfold resolveSidecarPalette
    rw [seq_ok, bind_eq_ok]
    exact ⟨hcheck, rs, hrs, rfl⟩

/-- No two sidecars of the palette have one key. -/
def KeysApart (Γ : Platform) (config : YanetConfigSpec) : Prop :=
  (config.components.dataplane.sidecars.map fun s => Γ.shortNodeKey s.name).Nodup

section
variable {Γ : Platform} {config : YanetConfigSpec} {yanet : YanetSpec} {box : BoxType} {slot : BoxDataplane}

theorem AdmittedWiring.resolveDataplaneSidecars (hc : AdmittedWiring config) (hkeys : KeysApart Γ config)
    (hbox : box ∈ config.boxTypes) (hslot : box.components.dataplane = some slot) (yanet : YanetSpec) :
    ∃ rs, YanetOperator.resolveDataplaneSidecars Γ config yanet box.name slot = .ok rs := by
  have hpalette : ∃ rs, resolveSidecarPalette Γ config yanet slot [] config.components.dataplane.sidecars = .ok rs :=
    resolveSidecarPalette_of_keys hkeys hc.sidecarListeners
  obtain ⟨rs, hrs⟩ := hpalette
  refine ⟨rs, ?_⟩
  unfold YanetOperator.resolveDataplaneSidecars
  rw [seq_ok, refuse_ok, bind_eq_ok]
  refine ⟨not_lt.2 hc.sidecarBound, rs, hrs, ?_⟩
  rw [seq_ok, forM_ok]
  refine ⟨fun name hname => ?_, rfl⟩
  have hwired : slot.sidecars[name]? ≠ none := by simpa using hname
  exact refuse_ok.2 (not_not.2 (hc.boxSidecars box hbox slot hslot name hwired))

/-- The networks of an installation with well-shaped overrides. -/
theorem AdmittedWiring.resolveDataplaneNetworks (hc : AdmittedWiring config)
    (hshape : validateYanetComponentOverrideShape Γ yanet.components = .ok ()) :
    ∃ networks, YanetOperator.resolveDataplaneNetworks config.components.dataplane.networks yanet = .ok networks := by
  unfold YanetOperator.resolveDataplaneNetworks
  have hselected : validateNetworkAttachments
      ((((yanet.components.bind (·.dataplane)).bind (·.networks)).or config.components.dataplane.networks).getD []) = .ok () := by
    cases hnetworks : (yanet.components.bind (·.dataplane)).bind (·.networks) with
    | none => exact hc.networks
    | some networks =>
      obtain ⟨dataplane, hdataplane, hsome⟩ := Option.bind_eq_some_iff.1 hnetworks
      obtain ⟨overrides, hoverrides, hdataplane⟩ := Option.bind_eq_some_iff.1 hdataplane
      obtain ⟨-, hshape⟩ := seq_ok.1 (optional_ok.1 hshape overrides hoverrides)
      have hshape := optional_ok.1 (seq_ok.1 hshape).1 dataplane hdataplane
      have := within_ok.1 (seq_ok.1 (seq_ok.1 hshape).2).1
      rwa [hsome] at this
  refine ⟨_, seq_ok.2 ⟨hc.networks, seq_ok.2 ⟨hselected, rfl⟩⟩⟩

/-- A role that the box type wires resolves. -/
theorem AdmittedWiring.resolveBoxComponent (hadmitted : AdmittedConfig config) (hc : AdmittedWiring config)
    (hshape : validateYanetComponentOverrideShape Γ yanet.components = .ok ())
    (hbox : findBoxType config yanet.boxType = .ok box) {kind : ComponentKind} {name : String} (hwires : box.wires kind name)
    (hkeys : kind = .dataplane ∨ kind = .sidecar → KeysApart Γ config) :
    ∃ rc, YanetOperator.resolveBoxComponent Γ config yanet kind name = .ok (some rc) := by
  have hmem := (findBoxType_ok hbox).1
  unfold YanetOperator.resolveBoxComponent
  simp only [bind_eq_ok, hbox, Except.ok.injEq, exists_eq_left']
  cases kind with
  | controlplane =>
    obtain ⟨slot, hslot⟩ := Option.ne_none_iff_exists'.1 hwires
    simp only [hslot]
    exact ⟨_, seq_ok.2 ⟨hc.numa, rfl⟩⟩
  | dataplane =>
    obtain ⟨slot, hslot⟩ := Option.ne_none_iff_exists'.1 hwires
    obtain ⟨rs, hrs⟩ := hc.resolveDataplaneSidecars (hkeys (.inl rfl)) hmem hslot yanet
    obtain ⟨networks, hnetworks⟩ := hc.resolveDataplaneNetworks hshape
    simp only [hslot]
    exact ⟨_, bind_eq_ok.2 ⟨rs, hrs, bind_eq_ok.2 ⟨networks, hnetworks, rfl⟩⟩⟩
  | sidecar =>
    obtain ⟨slot, hslot, hwired⟩ := hwires
    obtain ⟨rs, hrs⟩ := hc.resolveDataplaneSidecars (hkeys (.inr rfl)) hmem hslot yanet
    have hnames : name ∈ rs.map (·.name) := by
      rw [(resolveDataplaneSidecars_ok hrs).names]
      exact hc.boxSidecars box hmem slot hslot name hwired
    obtain ⟨r, -, -, hfind⟩ := exists_find?_of_mem_map hnames
    simp only [hslot, if_neg hwired]
    exact ⟨_, bind_eq_ok.2 ⟨rs, hrs, by rw [hfind]; rfl⟩⟩
  | birdAdapter =>
    obtain ⟨slot, hslot⟩ := Option.ne_none_iff_exists'.1 hwires
    obtain ⟨adapter, hadapter⟩ := Option.ne_none_iff_exists'.1 (hc.boxBirdAdapter box hmem hwires)
    simp only [hslot, hadapter]
    exact ⟨_, rfl⟩
  | operator =>
    obtain ⟨slot, hslot⟩ := Option.ne_none_iff_exists'.1 hwires
    obtain ⟨op, hop, hname, hfind⟩ := findOperator_of_mem (hc.boxOperators box hmem name hwires)
    obtain ⟨first, rest, hcontainers⟩ := List.exists_cons_of_ne_nil (hc.operatorContainers op hop)
    have hlisteners : validateListeners name op.listeners = .ok () := hname ▸ hadmitted.operatorListeners op hop
    simp only [resolveOperator, hslot]
    exact ⟨_, bind_eq_ok.2 ⟨op, hfind, by rw [hcontainers]; exact seq_ok.2 ⟨hlisteners, rfl⟩⟩⟩

/-! ## The enumeration -/

/-- The references that stand for the wired roles of a box type. -/
def BoxType.wiresRef (box : BoxType) (ref : ComponentRef) : Prop :=
  box.wires ref.kind ref.operatorName ∧ (ref.kind = .operator ∨ ref.kind = .sidecar ∨ ref.operatorName = "")

/-- The references of the dataplane: its own, and one for each wired sidecar of the palette. -/
theorem dataplaneRefs_ok (hkeys : KeysApart Γ config) (hc : AdmittedWiring config) (hmem : box ∈ config.boxTypes)
    (hslot : box.components.dataplane = some slot) (boxName : String) :
    ∃ names : List String, dataplaneRefs Γ config boxName box =
        .ok ({ kind := .dataplane } :: names.map fun n => { kind := .sidecar, operatorName := n }) ∧
      names.Nodup ∧ ∀ n, n ∈ names ↔ slot.sidecars[n]? ≠ none := by
  obtain ⟨rs, hrs⟩ := hc.resolveDataplaneSidecars hkeys hmem hslot { boxType := boxName }
  have hpalette := resolveDataplaneSidecars_ok hrs
  have hnames : rs.map (·.name) = config.components.dataplane.sidecars.map (·.name) := hpalette.names
  have hnodup : (rs.map (·.name)).Nodup := by
    refine List.Nodup.of_map Γ.shortNodeKey ?_
    rw [List.map_map]
    exact hpalette.role_keys
  refine ⟨(rs.filter fun s => (slot.sidecars[s.name]?).isSome).map (·.name), ?_, hnodup.sublist (List.filter_sublist.map _),
    fun n => ?_⟩
  · simp only [dataplaneRefs, hslot]
    rw [bind_eq_ok]
    exact ⟨rs, hrs, by rw [List.map_map]; rfl⟩
  · rw [List.mem_map]
    constructor
    · rintro ⟨s, hs, rfl⟩
      exact Option.isSome_iff_ne_none.1 (by simpa using (List.mem_filter.1 hs).2)
    · intro hn
      have hdeclared := hc.boxSidecars box hmem slot hslot n hn
      rw [← hnames] at hdeclared
      obtain ⟨s, hs, rfl⟩ := List.mem_map.1 hdeclared
      exact ⟨s, List.mem_filter.2 ⟨hs, by simpa using Option.isSome_iff_ne_none.2 hn⟩, rfl⟩

/-- Every wired role of an admitted configuration is enumerated, once. -/
theorem AdmittedWiring.enabledComponentsForBox (hadmitted : AdmittedConfig config) (hc : AdmittedWiring config)
    (hkeys : KeysApart Γ config) {boxName : String} (hbox : findBoxType config boxName = .ok box) :
    ∃ refs, YanetOperator.enabledComponentsForBox Γ config boxName = .ok refs ∧ refs.Nodup ∧
      ∀ ref, ref ∈ refs ↔ box.wiresRef ref := by
  have hmem := (findBoxType_ok hbox).1
  obtain ⟨controlplane, hcontrolplane⟩ := Option.ne_none_iff_exists'.1 (hadmitted.boxControlplane box hmem)
  obtain ⟨slot, hslot⟩ := Option.ne_none_iff_exists'.1 (hadmitted.boxDataplane box hmem)
  obtain ⟨names, hdataplane, hnames, hwired⟩ := dataplaneRefs_ok hkeys hc hmem hslot boxName
  let operators := (config.components.operators.map OperatorSpec.name).filter fun n => (box.operators[n]?).isSome
  have hoperators : (config.components.operators.filter fun o => (box.operators[o.name]?).isSome).map
      (fun o => ({ kind := .operator, operatorName := o.name } : ComponentRef)) =
        operators.map fun n => { kind := .operator, operatorName := n } := by
    simp only [operators, List.filter_map, List.map_map]
    rfl
  have hnodup : operators.Nodup := hadmitted.operatorNames.filter _
  have hmemOperators (n : String) : n ∈ operators ↔ box.operators[n]? ≠ none := by
    rw [List.mem_filter]
    refine ⟨fun h => Option.isSome_iff_ne_none.1 (by simpa using h.2), fun h => ⟨hc.boxOperators box hmem n h, ?_⟩⟩
    simpa using Option.isSome_iff_ne_none.2 h
  have hfind : forM box.operators.keys (fun name => (findOperator config name).map fun _ => ()) = .ok () := by
    rw [forM_ok]
    intro name hname
    have hwires : box.operators[name]? ≠ none := by simpa using hname
    obtain ⟨op, -, -, hop⟩ := findOperator_of_mem (hc.boxOperators box hmem name hwires)
    rw [hop]
    rfl
  let refs : List ComponentRef := [{ kind := .controlplane }] ++
    ({ kind := .dataplane } :: names.map fun n => { kind := .sidecar, operatorName := n }) ++
    (if box.components.birdAdapter = none then [] else [{ kind := .birdAdapter }]) ++
    operators.map fun n => { kind := .operator, operatorName := n }
  refine ⟨refs, ?_, ?_, ?_⟩
  · unfold YanetOperator.enabledComponentsForBox
    rw [bind_eq_ok]
    refine ⟨box, hbox, ?_⟩
    rw [seq_ok]
    refine ⟨hfind, ?_⟩
    dsimp only
    rw [bind_eq_ok]
    exact ⟨_, hdataplane, by rw [hoperators, hcontrolplane]; rfl⟩
  · have hsidecar : Function.Injective fun n => ({ kind := .sidecar, operatorName := n } : ComponentRef) := by
      intro a b h
      cases h
      rfl
    have hoperator : Function.Injective fun n => ({ kind := .operator, operatorName := n } : ComponentRef) := by
      intro a b h
      cases h
      rfl
    simp only [refs]
    split_ifs <;> simp [List.nodup_append, List.nodup_map_iff hsidecar, List.nodup_map_iff hoperator, hnames, hnodup]
  · rintro ⟨kind, name⟩
    cases kind <;> by_cases hbird : box.components.birdAdapter = none <;>
      simp [refs, BoxType.wiresRef, BoxType.wires, hcontrolplane, hslot, hwired, hmemOperators, hbird]

/-! ## The overrides that have an effect -/

/-- An operator override that has an effect: one of a wired operator, without the containers its operator does not declare. -/
theorem effectiveOverrides_operator {overrides : YanetComponentsOverride} {name : String} {o : YanetComponentOverride}
    (h : (effectiveOverrides overrides config.components box).operators[name]? = some o) :
    box.operators[name]? ≠ none ∧ ∃ given, overrides.operators[name]? = some given ∧
      o = effectiveOperatorOverride config.components name given := by
  obtain ⟨⟨n, given⟩, hgiven, heq⟩ := List.mem_map.1 (StrMap.mem_of_getElem?_of h)
  cases heq
  rw [StrMap.mem_toList, StrMap.getElem?_eraseWhere] at hgiven
  split at hgiven
  · cases hgiven
  · next hwired => exact ⟨by simpa using hwired, given, hgiven, rfl⟩

/-- A container of an effective operator override was given. -/
theorem effectiveOperatorOverride_container {declared : ComponentsSpec} {name container : String}
    {given : YanetComponentOverride} {c : YanetContainerOverride}
    (h : (effectiveOperatorOverride declared name given).containers[container]? = some c) :
    given.containers[container]? = some c ∧ ∀ op, declared.operators.find? (·.name == name) = some op →
      container ∈ op.containers.map OperatorContainer.name := by
  unfold effectiveOperatorOverride at h
  cases hfind : declared.operators.find? (·.name == name) with
  | none =>
    rw [hfind] at h
    exact ⟨h, nofun⟩
  | some op =>
    rw [hfind] at h
    dsimp only at h
    rw [StrMap.getElem?_eraseWhere] at h
    split at h
    · cases h
    · next hdeclared =>
      refine ⟨h, fun op' hop' => ?_⟩
      cases hop'
      simpa using hdeclared

/-- The effective part of well-shaped overrides is well shaped. -/
theorem effectiveOverrides_shape {overrides : YanetComponentsOverride}
    (h : validateYanetComponentOverrideShape Γ (some overrides) = .ok ()) :
    validateYanetComponentOverrideShape Γ (some (effectiveOverrides overrides config.components box)) = .ok () := by
  have h := optional_ok.1 h overrides rfl
  obtain ⟨hcontrolplane, h⟩ := seq_ok.1 h
  obtain ⟨hdataplane, h⟩ := seq_ok.1 h
  obtain ⟨hbird, hoperators⟩ := seq_ok.1 h
  refine optional_ok.2 fun effective heffective => ?_
  cases heffective
  refine seq_ok.2 ⟨?_, seq_ok.2 ⟨?_, seq_ok.2 ⟨?_, ?_⟩⟩⟩
  · unfold effectiveOverrides
    dsimp only
    split_ifs
    · rfl
    · exact hcontrolplane
  · refine optional_ok.2 fun d hd => ?_
    unfold effectiveOverrides at hd
    dsimp only at hd
    split at hd
    · cases hd
    · next wired _ =>
      obtain ⟨given, hgiven, rfl⟩ := Option.map_eq_some_iff.1 hd
      have hgiven := optional_ok.1 hdataplane given hgiven
      obtain ⟨hkeys, hgiven⟩ := seq_ok.1 hgiven
      obtain ⟨hnetworks, hgiven⟩ := seq_ok.1 hgiven
      obtain ⟨hhugepages, hnames⟩ := seq_ok.1 hgiven
      refine seq_ok.2 ⟨hkeys, seq_ok.2 ⟨hnetworks, seq_ok.2 ⟨hhugepages, forM_ok.2 fun name hname => ?_⟩⟩⟩
      refine forM_ok.1 hnames name ?_
      rw [Std.ExtTreeMap.mem_keys] at hname ⊢
      rw [Std.ExtTreeMap.mem_iff_isSome_getElem?, StrMap.getElem?_eraseWhere] at hname
      split at hname
      · cases hname
      · exact Std.ExtTreeMap.mem_iff_isSome_getElem?.2 hname
  · unfold effectiveOverrides
    dsimp only
    split_ifs
    · rfl
    · exact hbird
  · refine forM_ok.2 fun e ho => forM_ok.2 fun e' hcontainer => ?_
    obtain ⟨name, o⟩ := e
    obtain ⟨container, c⟩ := e'
    obtain ⟨-, given, hgiven, rfl⟩ := effectiveOverrides_operator (StrMap.mem_toList.1 ho)
    obtain ⟨hc, -⟩ := effectiveOperatorOverride_container (StrMap.mem_toList.1 hcontainer)
    exact refuse_ok.2 (refuse_ok.1 (forM_toList_ok (forM_toList_ok hoperators hgiven) hc))

/-- The reconciler's check of the overrides passes, whatever stale overrides there are. -/
theorem AdmittedWiring.validateEffective (hadmitted : AdmittedConfig config) (hc : AdmittedWiring config)
    (hmem : box ∈ config.boxTypes) {overrides : Option YanetComponentsOverride}
    (hshape : validateYanetComponentOverrideShape Γ overrides = .ok ()) :
    validateEffectiveYanetComponentOverrides Γ overrides config.components box = .ok () := by
  refine optional_ok.2 fun overrides ho => ?_
  subst ho
  refine seq_ok.2 ⟨effectiveOverrides_shape hshape, optional_ok.2 fun effective heffective => ?_⟩
  cases heffective
  refine seq_ok.2 ⟨?_, seq_ok.2 ⟨?_, ?_⟩⟩
  · refine optional_ok.2 fun d hd => forM_ok.2 fun name hname => ?_
    unfold effectiveOverrides at hd
    dsimp only at hd
    split at hd
    · cases hd
    · next slot hslot =>
      obtain ⟨given, -, rfl⟩ := Option.map_eq_some_iff.1 hd
      have hwired : slot.sidecars[name]? ≠ none := by
        rw [Std.ExtTreeMap.mem_keys, Std.ExtTreeMap.mem_iff_isSome_getElem?, StrMap.getElem?_eraseWhere] at hname
        split at hname
        · cases hname
        · next hwired => simpa using hwired
      refine seq_ok.2 ⟨refuse_ok.2 (not_not.2 (hc.boxSidecars box hmem slot hslot name hwired)), refuse_ok.2 hwired⟩
  · refine onlyIf_ok.2 fun hbird => ?_
    have hwired : box.components.birdAdapter ≠ none := by
      intro hnone
      exact hbird (by simp [effectiveOverrides, hnone])
    exact seq_ok.2 ⟨refuse_ok.2 (hc.boxBirdAdapter box hmem hwired), refuse_ok.2 hwired⟩
  · refine forM_ok.2 fun e ho => ?_
    obtain ⟨name, o⟩ := e
    obtain ⟨hwired, given, -, rfl⟩ := effectiveOverrides_operator (StrMap.mem_toList.1 ho)
    obtain ⟨op, hop, hname, hfind⟩ := exists_find?_of_mem_map (hc.boxOperators box hmem name hwired)
    -- names are unique, so the first operator of a name is the last
    have hlast : lastOperator config.components name = some op := by
      have hmem' : name ∈ config.components.operators.reverse.map OperatorSpec.name := by
        rw [List.map_reverse, List.mem_reverse, ← hname]
        exact List.mem_map_of_mem hop
      obtain ⟨op', hop', hname', hfind'⟩ := exists_find?_of_mem_map hmem'
      have : op' = op := List.inj_on_of_nodup_map hadmitted.operatorNames (List.mem_reverse.1 hop') hop (hname'.trans hname.symm)
      rw [lastOperator, hfind', this]
    unfold validateOperatorOverride
    dsimp only
    rw [hlast]
    refine seq_ok.2 ⟨refuse_ok.2 hwired, forM_ok.2 fun container hcontainer => refuse_ok.2 (not_not.2 ?_)⟩
    rw [Std.ExtTreeMap.mem_keys, Std.ExtTreeMap.mem_iff_isSome_getElem?] at hcontainer
    obtain ⟨c, hcontainer⟩ := Option.isSome_iff_exists.1 hcontainer
    exact (effectiveOperatorOverride_container hcontainer).2 op hfind

end

end YanetOperator
