import YanetOperator.Lemmas.Admission
import YanetOperator.Lemmas.Names
import YanetOperator.Manifests.Service

/-!
# Service plans

The plans of a role, what their selectors select, and that they depend on the core of the role only.
-/

namespace YanetOperator

open Check

theorem matchesLabels_iff {selector labels : StrMap String} :
    matchesLabels selector labels = true ↔ ∀ k v : String, selector[k]? = some v → labels[k]? = some v := by
  rw [matchesLabels, List.all_eq_true]
  constructor
  · intro h k v hk
    simpa using h (k, v) (StrMap.mem_toList.2 hk)
  · rintro h ⟨k, v⟩ he
    simpa using h k v (StrMap.mem_toList.1 he)

/-- A selector given by entries with distinct keys. -/
theorem matchesLabels_of {entries : List (String × String)} {labels : StrMap String} (h : (entries.map Prod.fst).Nodup) :
    matchesLabels (StrMap.of entries) labels = true ↔ ∀ e ∈ entries, labels[e.1]? = some e.2 := by
  rw [matchesLabels_iff]
  constructor
  · intro hm e he
    exact hm e.1 e.2 ((StrMap.getElem?_of_nodup h).2 he)
  · intro hm k v hk
    exact hm (k, v) ((StrMap.getElem?_of_nodup h).1 hk)

/-- A membership label is none of the labels of a selector. -/
theorem membershipLabel_ne (Γ : Platform) (operator : String) {k : String} (hk : k ∈ workloadIdentityLabels) :
    operatorMembershipLabel Γ operator ≠ k := by
  intro e
  have := not_hasPrefix_of_mem_identity hk
  rw [← e, membershipLabel_hasPrefix] at this
  cases this

/-- The entries of the selector of a plan. -/
def selectorEntries (Γ : Platform) (boxType : String) (role : ResolvedRole) (numa : Option Nat) : List (String × String) :=
  [(labelBoxType, boxType)] ++
    (if role.isColocated then
      [(labelComponent, ComponentKind.dataplane.text), (operatorMembershipLabel Γ role.name, role.name)]
    else [(labelComponent, role.name)]) ++
    (numa.map fun i => (labelNuma, toString i)).toList

theorem serviceSelector_eq (Γ : Platform) (boxType : String) (role : ResolvedRole) (numa : Option Nat) :
    serviceSelector Γ boxType role numa = StrMap.of (selectorEntries Γ boxType role numa) := by
  unfold serviceSelector selectorEntries
  cases numa <;> cases role.isColocated <;> rfl

theorem selectorEntries_nodup (Γ : Platform) (boxType : String) (role : ResolvedRole) (numa : Option Nat) :
    ((selectorEntries Γ boxType role numa).map Prod.fst).Nodup := by
  have hm : ∀ k ∈ [labelBoxType, labelComponent, labelNuma], operatorMembershipLabel Γ role.name ≠ k := by
    intro k hk
    refine membershipLabel_ne Γ role.name ?_
    simp only [List.mem_cons, List.not_mem_nil, or_false] at hk
    rcases hk with rfl | rfl | rfl <;> simp [workloadIdentityLabels]
  have h1 := hm labelBoxType (by simp)
  have h2 := hm labelComponent (by simp)
  have h3 := hm labelNuma (by simp)
  have d1 : labelBoxType ≠ labelComponent := by decide
  have d2 : labelBoxType ≠ labelNuma := by decide
  have d3 : labelComponent ≠ labelNuma := by decide
  unfold selectorEntries
  cases numa <;> cases role.isColocated <;> simp [h3, h1.symm, h2.symm, d1, d2, d3]

/-- What the selector of a plan selects. -/
theorem matches_serviceSelector {Γ : Platform} {boxType : String} {role : ResolvedRole} {numa : Option Nat}
    {labels : StrMap String} :
    matchesLabels (serviceSelector Γ boxType role numa) labels = true ↔
      labels[labelBoxType]? = some boxType ∧
      (if role.isColocated then labels[labelComponent]? = some ComponentKind.dataplane.text ∧
          labels[operatorMembershipLabel Γ role.name]? = some role.name
        else labels[labelComponent]? = some role.name) ∧
      ∀ i, numa = some i → labels[labelNuma]? = some (toString i) := by
  rw [serviceSelector_eq, matchesLabels_of (selectorEntries_nodup Γ boxType role numa)]
  unfold selectorEntries
  cases numa <;> cases role.isColocated <;> simp [and_assoc]

/-! ## Plans of a role -/

/-- The NUMA indices a role has plans for: every index of the fan-out of the controlplane, else one plan without an index. -/
theorem mem_buildServices {Γ : Platform} {boxType : String} {role : ResolvedRole} {plan : ServicePlan}
    (h : plan ∈ buildServices Γ boxType role) :
    listenerPorts Γ role ≠ [] ∧ ∃ numa, plan = buildServicePlan Γ boxType role numa (listenerPorts Γ role) ∧
      (numa.isSome = true ↔ role.kind = .controlplane) := by
  unfold buildServices at h
  dsimp only at h
  split at h
  · cases h
  · next hl =>
    refine ⟨hl, ?_⟩
    split at h
    · next hk =>
      exact ⟨none, List.mem_singleton.1 h, by simpa using hk⟩
    · next hk =>
      split at h
      · cases h
      · obtain ⟨i, -, rfl⟩ := List.mem_map.1 h
        exact ⟨some i, rfl, by simpa using hk⟩

/-- The plans of a wired role, when it resolves. -/
def rolePlans (Γ : Platform) (config : YanetConfigSpec) (boxType : String) (ref : ComponentRef) : List ServicePlan :=
  match resolveBoxServiceComponent Γ config boxType ref.kind ref.operatorName with
  | .ok (some component) => buildServices Γ boxType component.toResolvedRole
  | _ => []

/-- The plans of a box type. -/
def boxPlans (Γ : Platform) (config : YanetConfigSpec) (boxType : String) : List ServicePlan :=
  match enabledComponentsForBox Γ config boxType with
  | .ok refs => refs.flatMap (rolePlans Γ config boxType)
  | .error _ => []

/-- A role resolves alike under its own name and under the name of its reference. -/
theorem resolveBoxComponent_roleName (Γ : Platform) (config : YanetConfigSpec) (yanet : YanetSpec) (kind : ComponentKind)
    (operatorName : String) :
    resolveBoxComponent Γ config yanet kind (roleName kind operatorName) = resolveBoxComponent Γ config yanet kind operatorName := by
  cases kind <;> rfl

/-- An installation does not resolve a role only when its box type does not wire it. -/
theorem rolePlans_none {Γ : Platform} {config : YanetConfigSpec} {yanet : YanetSpec} {ref : ComponentRef}
    (h : resolveBoxComponent Γ config yanet ref.kind ref.operatorName = .ok none) : rolePlans Γ config yanet.boxType ref = [] := by
  unfold rolePlans resolveBoxServiceComponent
  split
  · next component hr =>
    obtain ⟨box, hbox, hw⟩ := (resolveBoxComponent_ok hr).box
    have hbox' : findBoxType config yanet.boxType = .ok box := hbox
    exact absurd hw (resolveBoxComponent_none hbox' h)
  · rfl

theorem mem_rolePlans {Γ : Platform} {config : YanetConfigSpec} {boxType : String} {ref : ComponentRef} {p : ServicePlan}
    (h : p ∈ rolePlans Γ config boxType ref) :
    ∃ (role : ResolvedRole) (numa : Option Nat), p = buildServicePlan Γ boxType role numa (listenerPorts Γ role) := by
  unfold rolePlans at h
  split at h
  · next component hr =>
    obtain ⟨-, numa, hp, -⟩ := mem_buildServices h
    exact ⟨component.toResolvedRole, numa, hp⟩
  · cases h

theorem mem_boxPlans {Γ : Platform} {config : YanetConfigSpec} {boxType : String} {p : ServicePlan}
    (h : p ∈ boxPlans Γ config boxType) :
    ∃ (role : ResolvedRole) (numa : Option Nat), p = buildServicePlan Γ boxType role numa (listenerPorts Γ role) := by
  unfold boxPlans at h
  split at h
  · obtain ⟨ref, -, hp⟩ := List.mem_flatMap.1 h
    exact mem_rolePlans hp
  · cases h

/-- A role with listeners is not a dataplane. -/
theorem not_dataplane_of_listeners {Γ : Platform} {role : ResolvedRole} (h : listenerPorts Γ role ≠ []) :
    role.kind ≠ .dataplane := by
  intro hk
  exact h (by simp [listenerPorts, hk])

/-! ## The core of a role -/

theorem listenerPorts_core (Γ : Platform) (role : ResolvedRole) : listenerPorts Γ role.core = listenerPorts Γ role := rfl

theorem runtimePortPair_core (role : ResolvedRole) : runtimePortPair role.core = runtimePortPair role := rfl

theorem listenerContainerName_core (role : ResolvedRole) : listenerContainerName role.core = listenerContainerName role := by
  unfold listenerContainerName
  cases hk : role.kind <;> simp [ResolvedRole.core, hk, Option.map_map, Function.comp_def]

theorem listenerOwner_core (Γ : Platform) (role : ResolvedRole) (composed : Bool) :
    listenerOwner Γ role.core composed = listenerOwner Γ role composed := by
  unfold listenerOwner
  rw [listenerContainerName_core]
  rfl

/-- The listeners of a resolved role are gRPC and HTTP. -/
theorem mem_resolveListeners {listeners : Option (List String)} {names : List String}
    (h : resolveListeners listeners = some names) {n : String} (hn : n ∈ names) : n = "grpc" ∨ n = "http" := by
  unfold resolveListeners at h
  obtain ⟨ls, -, rfl⟩ := Option.map_eq_some_iff.1 h
  simp only [List.flatMap_cons, List.flatMap_nil, List.append_nil, List.mem_append, List.mem_filter, beq_iff_eq] at hn
  rcases hn with ⟨-, hn⟩ | ⟨-, hn⟩
  · exact Or.inl hn
  · exact Or.inr hn

theorem declaredRole_listeners {config : YanetConfigSpec} {kind : ComponentKind} {operatorName : String} {names : List String}
    (h : (declaredRole config kind operatorName).listenerNames = some names) {n : String} (hn : n ∈ names) :
    n = "grpc" ∨ n = "http" := by
  unfold declaredRole at h
  cases kind with
  | operator =>
    dsimp only at h
    split at h
    · cases h
    · exact mem_resolveListeners h hn
  | sidecar =>
    dsimp only at h
    split at h
    · cases h
    · exact mem_resolveListeners h hn
  | controlplane => cases h
  | dataplane => cases h
  | birdAdapter => cases h

/-- Every listener of a declared role has a nonempty target port. -/
theorem listenerTargetPortName_ne {Γ : Platform} {config : YanetConfigSpec} {kind : ComponentKind} {operatorName : String}
    {l : ListenerPort} (h : l ∈ listenerPorts Γ (declaredRole config kind operatorName)) : listenerTargetPortName l ≠ "" := by
  unfold listenerTargetPortName
  split
  · assumption
  · unfold listenerPorts at h
    split at h
    · cases h
    · obtain ⟨n, hn, rfl⟩ := List.mem_map.1 h
      dsimp only
      have hgh : n = "grpc" ∨ n = "http" := by
        split at hn
        · simpa using hn
        · cases hl : (declaredRole config kind operatorName).listenerNames with
          | none =>
            rw [hl] at hn
            exact Or.inl (by simpa using hn)
          | some names =>
            rw [hl] at hn
            exact declaredRole_listeners hl hn
      rcases hgh with rfl | rfl <;> decide

theorem buildServices_core (Γ : Platform) (boxType : String) (role : ResolvedRole) :
    buildServices Γ boxType role.core = buildServices Γ boxType role := rfl

end YanetOperator
