import YanetOperator.Lemmas.Resolve

/-!
# What an admitted configuration satisfies

The facts about names that `validateYanetConfig` establishes, and what they say about resolved roles: a name belongs to one
role only.
-/

namespace YanetOperator

open Check

/-- The checks an admitted configuration passed that constrain its components and box types. -/
structure ConfigChecks (Γ : Platform) (config : YanetConfigSpec) : Prop where
  operators : validateOperatorUniqueness config.components.operators = .ok ()
  sidecars : validateSidecarUniqueness config.components = .ok ()
  boxTypes : validateBoxTypeUniqueness config.boxTypes = .ok ()
  refs : validateBoxTypeRefs Γ config = .ok ()
  hugepages : validateHugepages Γ config.components.dataplane.hugepages = .ok ()
  networks : validateNetworkAttachments (config.components.dataplane.networks.getD []) = .ok ()
  sources : validateConfigSources config.components = .ok ()
  disabledNuma : validateDisabledNuma config.components.controlplane = .ok ()

theorem validateYanetConfig_checks {Γ : Platform} {config : YanetConfigSpec} (h : validateYanetConfig Γ config = .ok ()) :
    ConfigChecks Γ config := by
  unfold validateYanetConfig at h
  obtain ⟨-, h⟩ := seq_ok.1 h
  obtain ⟨-, h⟩ := seq_ok.1 h
  obtain ⟨-, h⟩ := seq_ok.1 h
  obtain ⟨-, h⟩ := seq_ok.1 h
  obtain ⟨hoperators, h⟩ := seq_ok.1 h
  obtain ⟨hsidecars, h⟩ := seq_ok.1 h
  obtain ⟨hboxTypes, h⟩ := seq_ok.1 h
  obtain ⟨hrefs, h⟩ := seq_ok.1 h
  obtain ⟨hhugepages, h⟩ := seq_ok.1 h
  obtain ⟨hnetworks, h⟩ := seq_ok.1 h
  obtain ⟨-, h⟩ := seq_ok.1 h
  obtain ⟨hsources, hnuma⟩ := seq_ok.1 h
  exact ⟨hoperators, hsidecars, hboxTypes, hrefs, hhugepages, within_ok.1 hnetworks, hsources, hnuma⟩

/-- The names of an admitted configuration. -/
structure AdmittedConfig (config : YanetConfigSpec) : Prop where
  operatorNames : (config.components.operators.map OperatorSpec.name).Nodup
  operatorLabel : ∀ op ∈ config.components.operators, Text.isDNS1123Label op.name = []
  operatorFree : ∀ op ∈ config.components.operators, op.name ∉ reservedNames
  operatorListeners : ∀ op ∈ config.components.operators, validateListeners op.name op.listeners = .ok ()
  sidecarNames : (config.components.dataplane.sidecars.map SidecarSpec.name).Nodup
  sidecarLabel : ∀ s ∈ config.components.dataplane.sidecars, Text.isDNS1123Label s.name = []
  sidecarFree : ∀ s ∈ config.components.dataplane.sidecars,
    s.name ∉ config.components.operators.map OperatorSpec.name ∧ s.name ∉ reservedNames
  boxNames : (config.boxTypes.map BoxType.name).Nodup
  boxNonempty : ∀ box ∈ config.boxTypes, box.name ≠ ""
  boxLabel : ∀ box ∈ config.boxTypes, Text.isDNS1123Label box.name = []
  boxControlplane : ∀ box ∈ config.boxTypes, box.components.controlplane ≠ none
  boxDataplane : ∀ box ∈ config.boxTypes, box.components.dataplane ≠ none

/-- Every box type wires a controlplane and a dataplane. -/
theorem validateBoxTypeRef_ok {Γ : Platform} {config : YanetConfigSpec} {i : Nat} {box : BoxType}
    (h : validateBoxTypeRef Γ config i box = .ok ()) : box.components.controlplane ≠ none ∧ box.components.dataplane ≠ none := by
  unfold validateBoxTypeRef at h
  dsimp only at h
  split at h
  · cases h
  · cases h
  · next hc hd => exact ⟨by rw [hc]; nofun, by rw [hd]; nofun⟩

theorem validateYanetConfig_ok {Γ : Platform} {config : YanetConfigSpec} (h : validateYanetConfig Γ config = .ok ()) :
    AdmittedConfig config := by
  have hchecks := validateYanetConfig_checks h
  have hrefs := hchecks.refs
  obtain ⟨o1, o2, -⟩ := distinct_ok hchecks.operators
  obtain ⟨s1, s2, s3⟩ := distinct_ok (seq_ok.1 hchecks.sidecars).2
  obtain ⟨b1, b2, -⟩ := distinct_ok (seq_ok.1 hchecks.boxTypes).2
  have hwired : ∀ box ∈ config.boxTypes, box.components.controlplane ≠ none ∧ box.components.dataplane ≠ none := by
    intro box hm
    obtain ⟨i, hi⟩ := each_mem hrefs hm
    exact validateBoxTypeRef_ok hi
  refine ⟨o2, ?_, ?_, ?_, s2, ?_, ?_, b2, ?_, ?_, fun box hm => (hwired box hm).1, fun box hm => (hwired box hm).2⟩
  · intro op hm
    obtain ⟨i, hb, -⟩ := o1 op hm
    obtain ⟨-, hb⟩ := seq_ok.1 hb
    obtain ⟨hl, -⟩ := seq_ok.1 hb
    simpa using refuse_ok.1 hl
  · intro op hm
    obtain ⟨i, hb, -⟩ := o1 op hm
    obtain ⟨-, hb⟩ := seq_ok.1 hb
    obtain ⟨-, hb⟩ := seq_ok.1 hb
    exact refuse_ok.1 hb
  · intro op hm
    obtain ⟨i, -, ha⟩ := o1 op hm
    exact (seq_ok.1 ha).1
  · intro s hm
    obtain ⟨i, hb, -⟩ := s1 s hm
    simpa using refuse_ok.1 hb
  · intro s hm
    have := s3 s hm
    rw [List.mem_append] at this
    exact not_or.1 this
  · intro box hm
    obtain ⟨i, hb, -⟩ := b1 box hm
    exact refuse_ok.1 (seq_ok.1 hb).1
  · intro box hm
    obtain ⟨i, hb, -⟩ := b1 box hm
    simpa using refuse_ok.1 (seq_ok.1 hb).2

/-- The box type that a name stands for. -/
theorem findBoxType_ok {config : YanetConfigSpec} {name : String} {box : BoxType} (h : findBoxType config name = .ok box) :
    box ∈ config.boxTypes ∧ box.name = name := by
  unfold findBoxType at h
  split at h
  · next found hf =>
    cases h
    exact ⟨List.mem_of_find?_eq_some hf, by simpa using List.find?_some hf⟩
  · cases h

/-- The name of the bird adapter is not a label: it has an upper-case letter. -/
theorem ne_birdAdapter_of_label {s : String} (h : Text.isDNS1123Label s = []) : s ≠ "birdAdapter" := by
  rintro rfl
  revert h
  decide

theorem ComponentKind.text_injective : Function.Injective ComponentKind.text := by
  intro a b h
  cases a <;> cases b <;> first | rfl | exact absurd h (by decide)

/-- The roles of which a box has at most one. -/
theorem fixedRole (config : YanetConfigSpec) {k : ComponentKind} (ho : k ≠ .operator) (hs : k ≠ .sidecar) (n n' : String) :
    roleName k n = k.text ∧ declaredRole config k n = declaredRole config k n' := by
  cases k with
  | operator => exact absurd rfl ho
  | sidecar => exact absurd rfl hs
  | controlplane => exact ⟨rfl, rfl⟩
  | dataplane => exact ⟨rfl, rfl⟩
  | birdAdapter => exact ⟨rfl, rfl⟩

/-- No operator of an admitted configuration has the name of a fixed role. -/
theorem AdmittedConfig.operator_ne_fixed {config : YanetConfigSpec} (hc : AdmittedConfig config) {op : OperatorSpec}
    (hm : op ∈ config.components.operators) {k : ComponentKind} (ho : k ≠ .operator) (hs : k ≠ .sidecar) :
    op.name ≠ k.text := by
  intro e
  have hfree := hc.operatorFree op hm
  have hbird := ne_birdAdapter_of_label (hc.operatorLabel op hm)
  rw [e] at hfree hbird
  cases k with
  | operator => exact ho rfl
  | sidecar => exact hs rfl
  | controlplane => exact hfree (by decide)
  | dataplane => exact hfree (by decide)
  | birdAdapter => exact hbird rfl

/-- The name of the dataplane belongs to the dataplane. -/
theorem AdmittedConfig.dataplane_iff {Γ : Platform} {config : YanetConfigSpec} {y : YanetSpec} {k : ComponentKind} {n : String}
    {rc : ResolvedComponent} (hc : AdmittedConfig config) (h : ResolvedAs Γ config y k n rc) (hk : k ≠ .sidecar) :
    rc.name = ComponentKind.dataplane.text ↔ rc.kind = .dataplane := by
  rw [h.name, h.kind]
  by_cases ho : k = .operator
  · obtain ⟨op, hm, hname⟩ := h.operator ho
    have hne := hc.operator_ne_fixed hm (k := .dataplane) (by decide) (by decide)
    subst ho
    rw [hname] at hne
    exact ⟨fun e => absurd e hne, nofun⟩
  · rw [(fixedRole config ho hk n n).1]
    exact ComponentKind.text_injective.eq_iff

/-- The box type of an installation of an admitted configuration has a name. -/
theorem AdmittedConfig.boxType_ne {Γ : Platform} {config : YanetConfigSpec} {y : YanetSpec} {k : ComponentKind} {n : String}
    {rc : ResolvedComponent} (hc : AdmittedConfig config) (h : ResolvedAs Γ config y k n rc) : y.boxType ≠ "" := by
  obtain ⟨box, hbox, -⟩ := h.box
  obtain ⟨hm, hname⟩ := findBoxType_ok hbox
  rw [← hname]
  exact hc.boxNonempty box hm

/-- In an admitted configuration a name other than a sidecar's belongs to one role. -/
theorem AdmittedConfig.role_unique {Γ : Platform} {config : YanetConfigSpec} {y y' : YanetSpec} {k k' : ComponentKind}
    {n n' : String} {rc rc' : ResolvedComponent} (hc : AdmittedConfig config) (h : ResolvedAs Γ config y k n rc)
    (h' : ResolvedAs Γ config y' k' n' rc') (hk : k ≠ .sidecar) (hk' : k' ≠ .sidecar) (hn : rc.name = rc'.name) :
    k = k' ∧ rc.toResolvedRole.core = rc'.toResolvedRole.core := by
  rw [h.name, h'.name] at hn
  rw [h.core, h'.core]
  by_cases ho : k = .operator <;> by_cases ho' : k' = .operator
  · subst ho ho'
    have hn' : n = n' := hn
    rw [hn']
    exact ⟨rfl, rfl⟩
  · obtain ⟨op, hm, hname⟩ := h.operator ho
    rw [(fixedRole config ho' hk' n' n').1, ho] at hn
    exact absurd (hname.trans hn) (hc.operator_ne_fixed hm ho' hk')
  · obtain ⟨op, hm, hname⟩ := h'.operator ho'
    rw [(fixedRole config ho hk n n).1, ho'] at hn
    exact absurd (hname.trans hn.symm) (hc.operator_ne_fixed hm ho hk)
  · rw [(fixedRole config ho hk n n).1, (fixedRole config ho' hk' n' n').1] at hn
    have hkk := ComponentKind.text_injective hn
    subst hkk
    exact ⟨rfl, (fixedRole config ho hk n n').2⟩

end YanetOperator
