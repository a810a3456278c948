import Mathlib.Data.List.Dedup
import Mathlib.Data.List.Perm.Subperm
import YanetOperator.Lemmas.Resolvable
import YanetOperator.Lemmas.Services

/-!
# The roles of a Pod

The roles a rendered Pod hosts: the component it is rendered for and the sidecars composed into it. Admission and resolution say
where their listeners are, which protocols they declare, and how far a controlplane fans out.
-/

namespace YanetOperator

open Check

/-- The roles with a listener container in the Pods of a component: the component unless it is the dataplane, and the enabled
sidecars. -/
def podRoles (component : ResolvedComponent) : List ResolvedRole :=
  (if component.kind ≠ .dataplane then [component.toResolvedRole] else []) ++ component.sidecars.filter (·.enabled)

/-- The configuration of the listener container of a role. -/
def roleConfig (role : ResolvedRole) : Option ConfigSource :=
  if role.kind = .operator then role.containers.head?.bind (·.config) else role.config

/-- The volume of that configuration in the Pod that hosts the role. -/
def configVolume (Γ : Platform) (role : ResolvedRole) : String :=
  let name := if role.kind = .operator then "config-0" else "config"
  if role.isColocated then scopedOperatorName Γ role.name name else name

/-- The listener container of a role in the Pod that hosts it. -/
def listenerContainer (Γ : Platform) (role : ResolvedRole) : String := listenerOwner Γ role role.isColocated

theorem podRoles_kind {component : ResolvedComponent} (hsidecars : ∀ s ∈ component.sidecars, s.isColocated = true)
    {role : ResolvedRole} (hrole : role ∈ podRoles component) : role.kind ≠ .dataplane := by
  rcases List.mem_append.1 hrole with hrole | hrole
  · split at hrole
    · next hkind => exact List.mem_singleton.1 hrole ▸ hkind
    · cases hrole
  · intro hdataplane
    have hcolocated := hsidecars role (List.mem_filter.1 hrole).1
    rw [ResolvedRole.isColocated, hdataplane] at hcolocated
    cases hcolocated

/-! ## The roles of a resolved component -/

section

variable {Γ : Platform} {config : YanetConfigSpec} {yanet : YanetSpec} {component : ResolvedComponent} {role : ResolvedRole}

/-- A role of a Pod is the component itself, or a sidecar of the palette. -/
theorem podRoles_cases (h : Resolved Γ config yanet component) (hrole : role ∈ podRoles component) :
    (role = component.toResolvedRole ∧ component.kind ≠ .dataplane ∧ component.sidecars = []) ∨
      (component.kind = .dataplane ∧ role ∈ component.sidecars ∧ role.enabled = true ∧
        ∃ slot, ResolvedPalette Γ config yanet slot component.sidecars) := by
  obtain ⟨kind, operatorName, has⟩ := h.as
  rcases List.mem_append.1 hrole with hrole | hrole
  · by_cases hkind : component.kind ≠ .dataplane
    · rw [if_pos hkind] at hrole
      exact .inl ⟨List.mem_singleton.1 hrole, hkind, has.noSidecars (has.kind ▸ hkind)⟩
    · rw [if_neg hkind] at hrole
      cases hrole
  · obtain ⟨hmem, henabled⟩ := List.mem_filter.1 hrole
    have hkind : kind = .dataplane := by
      by_contra hne
      rw [has.noSidecars hne] at hmem
      cases hmem
    exact .inr ⟨has.kind.trans hkind, hmem, henabled, has.palette hkind⟩

theorem podRoles_core (h : Resolved Γ config yanet component) (hrole : role ∈ podRoles component) :
    role.core = declaredRole config role.kind role.name := by
  rcases podRoles_cases h hrole with ⟨rfl, -, -⟩ | ⟨-, hmem, -, slot, hpalette⟩
  · obtain ⟨kind, operatorName, has⟩ := h.as
    rw [has.kind, has.name, has.core]
    cases kind <;> rfl
  · have hcore := hpalette.core hmem
    have hkind : role.kind = .sidecar := by
      have := congrArg ResolvedRole.kind hcore
      rwa [declaredRole_kind] at this
    rw [hkind, hcore]

theorem sidecars_colocated (h : Resolved Γ config yanet component) : ∀ s ∈ component.sidecars, s.isColocated = true := by
  intro s hs
  obtain ⟨kind, operatorName, has⟩ := h.as
  have hkind : kind = .dataplane := by
    by_contra hne
    rw [has.noSidecars hne] at hs
    cases hs
  obtain ⟨slot, hpalette⟩ := has.palette hkind
  have hsidecar := congrArg ResolvedRole.kind (hpalette.core hs)
  rw [declaredRole_kind] at hsidecar
  have hsidecar : s.kind = .sidecar := hsidecar
  rw [ResolvedRole.isColocated, hsidecar]
  rfl

/-- The roles of a Pod have listener containers of their own. -/
theorem podRoles_owners (h : Resolved Γ config yanet component) :
    ((podRoles component).map (listenerContainer Γ)).Nodup := by
  obtain ⟨kind, operatorName, has⟩ := h.as
  unfold podRoles
  by_cases hkind : component.kind ≠ .dataplane
  · rw [if_pos hkind, has.noSidecars (has.kind ▸ hkind)]
    exact List.nodup_singleton _
  · rw [if_neg hkind, List.nil_append]
    have hkeys : ((component.sidecars.filter (·.enabled)).map fun r => Γ.shortNodeKey r.name).Nodup :=
      (List.filter_sublist.map _).nodup has.sidecar_keys
    refine List.Nodup.map_on (fun a ha b hb heq => ?_) (hkeys.of_map _)
    have hcolocated := sidecars_colocated h
    unfold listenerContainer listenerOwner at heq
    rw [if_pos (hcolocated a (List.mem_filter.1 ha).1), if_pos (hcolocated b (List.mem_filter.1 hb).1)] at heq
    exact List.inj_on_of_nodup_map hkeys ha hb (shortNodeKey_eq_of_scoped heq)

/-- The port slot of a role of a Pod is in range. -/
theorem podRoles_ports (h : Resolved Γ config yanet component) (hkind : component.kind ≠ .sidecar) (hrole : role ∈ podRoles component) :
    ∃ grpcPort httpPort, runtimePortPair role = .ok (grpcPort, httpPort) := by
  unfold runtimePortPair
  rcases podRoles_cases h hrole with ⟨rfl, -, -⟩ | ⟨-, hmem, -, slot, hpalette⟩
  · rw [if_neg (by simp [ResolvedRole.isColocated, hkind])]
    exact ⟨_, _, rfl⟩
  · rw [if_pos (sidecars_colocated h role hmem)]
    have hbound := hpalette.bounded
    rw [hpalette.roles] at hmem
    obtain ⟨⟨s, i⟩, hentry, rfl⟩ := List.mem_map.1 hmem
    have hlt : i < config.components.dataplane.sidecars.length := (List.mem_zipIdx' hentry).1
    rw [if_neg (by show ¬i ≥ maxDataplaneSidecars; omega)]
    exact ⟨_, _, rfl⟩

/-- An enabled sidecar of a dataplane is wired by the box type, and no two of the palette have one key. -/
theorem sidecar_wired (h : Resolved Γ config yanet component) (hkind : component.kind = .dataplane) (hmem : role ∈ component.sidecars)
    (henabled : role.enabled = true) :
    ∃ box, findBoxType config yanet.boxType = .ok box ∧ box.wires .sidecar role.name ∧ KeysApart Γ config := by
  obtain ⟨kind, operatorName, rc0, enabled, hrc, rfl⟩ := h
  have hkind : kind = .dataplane := (resolveBoxComponent_ok hrc).kind.symm.trans hkind
  subst hkind
  obtain ⟨box, slot, hbox, hslot, hpalette⟩ := resolveBoxComponent_slot hrc
  refine ⟨box, hbox, ⟨slot, hslot, ?_⟩, hpalette.keys⟩
  have hmem : role ∈ rc0.sidecars := hmem
  rw [hpalette.roles] at hmem
  obtain ⟨⟨s, i⟩, -, rfl⟩ := List.mem_map.1 hmem
  exact sidecarEnabled_wired henabled

end

/-! ## Listeners -/

theorem resolveListeners_nodup {name : String} {listeners : Option (List String)} {names : List String}
    (h : validateListeners name listeners = .ok ()) (hnames : resolveListeners listeners = some names) : names.Nodup := by
  obtain ⟨ls, rfl, rfl⟩ := Option.map_eq_some_iff.1 hnames
  obtain ⟨-, hnodup, -⟩ := distinct_ok h
  rw [List.map_id] at hnodup
  simp only [List.flatMap_cons, List.flatMap_nil, List.append_nil]
  rw [List.nodup_append]
  refine ⟨hnodup.filter _, hnodup.filter _, fun a ha b hb heq => ?_⟩
  have ha : a = "grpc" := by simpa using (List.mem_filter.1 ha).2
  have hb : b = "http" := by simpa using (List.mem_filter.1 hb).2
  rw [ha, hb] at heq
  revert heq
  decide

theorem declaredRole_listeners_nodup {Γ : Platform} {config : YanetConfigSpec} (hconfig : validateYanetConfig Γ config = .ok ())
    {kind : ComponentKind} {operatorName : String} {names : List String}
    (h : (declaredRole config kind operatorName).listenerNames = some names) : names.Nodup := by
  unfold declaredRole at h
  cases kind with
  | operator =>
    dsimp only at h
    split at h
    · cases h
    · next op hop => exact resolveListeners_nodup ((validateYanetConfig_ok hconfig).operatorListeners op (List.mem_of_find?_eq_some hop)) h
  | sidecar =>
    dsimp only at h
    split at h
    · cases h
    · next entry hentry =>
      have hmem := List.fst_mem_of_mem_zipIdx (List.mem_of_find?_eq_some hentry)
      exact resolveListeners_nodup ((validateYanetConfig_wiring hconfig).sidecarListeners entry.1 hmem) h
  | controlplane | dataplane | birdAdapter => cases h

/-- The protocols of an operator or a sidecar. -/
def protocols (role : ResolvedRole) : List String := role.listenerNames.getD ["grpc"]

/-- A role with a server of its own: an operator or a sidecar. -/
def HasServer (role : ResolvedRole) : Prop := role.kind = .operator ∨ role.kind = .sidecar

theorem listenerPorts_server {Γ : Platform} {role : ResolvedRole} (h : HasServer role) :
    listenerPorts Γ role = (protocols role).map fun name =>
      { name := name
        servicePort := if name = "http" then runtimeHTTPPort else runtimeGRPCPort
        targetPortName := if role.isColocated then colocatedTargetPort Γ role.name name else "" } := by
  unfold listenerPorts
  rcases h with hkind | hkind
  · simp [hkind, protocols]
  · simp [hkind, protocols]

/-- The protocols of a declared role are gRPC and HTTP, each at most once. -/
theorem protocols_of_core {Γ : Platform} {config : YanetConfigSpec} {role : ResolvedRole} (hconfig : validateYanetConfig Γ config = .ok ())
    (hrole : role.core = declaredRole config role.kind role.name) :
    (protocols role).Nodup ∧ ∀ n ∈ protocols role, n = "grpc" ∨ n = "http" := by
  have hcore := congrArg ResolvedRole.listenerNames hrole
  have hcore : role.listenerNames = (declaredRole config role.kind role.name).listenerNames := hcore
  unfold protocols
  cases hnames : role.listenerNames with
  | none => simp
  | some names =>
    rw [hnames] at hcore
    exact ⟨declaredRole_listeners_nodup hconfig hcore.symm, fun n hn => declaredRole_listeners hcore.symm hn⟩

theorem protocols_ok {Γ : Platform} {config : YanetConfigSpec} {yanet : YanetSpec} {component : ResolvedComponent}
    {role : ResolvedRole} (hconfig : validateYanetConfig Γ config = .ok ()) (h : Resolved Γ config yanet component)
    (hrole : role ∈ podRoles component) : (protocols role).Nodup ∧ ∀ n ∈ protocols role, n = "grpc" ∨ n = "http" :=
  protocols_of_core hconfig (podRoles_core h hrole)

/-! ## The fan-out of the controlplane -/

section

variable {Γ : Platform} {config : YanetConfigSpec} {yanet : YanetSpec} {cp : ResolvedComponent}

/-- The fan-out of an admitted controlplane. -/
theorem effectiveNuma_admitted (hconfig : validateYanetConfig Γ config = .ok ())
    (hcp : resolveBoxComponent Γ config yanet .controlplane "" = .ok (some cp)) :
    effectiveNuma cp.toResolvedRole = config.components.controlplane.numa.getD 1 ∧
      validateControlplaneNuma (effectiveNuma cp.toResolvedRole) = .ok () := by
  have hnuma : cp.numa = config.components.controlplane.numa.getD 0 :=
    congrArg ResolvedRole.numa (resolveBoxComponent_ok hcp).core
  have hvalid := (validateYanetConfig_wiring hconfig).numa
  unfold effectiveNuma
  rw [hnuma]
  cases hcount : config.components.controlplane.numa with
  | none => exact ⟨rfl, by decide⟩
  | some n =>
    have hn := optional_ok.1 hvalid n hcount
    have hne : n ≠ 0 := by
      rintro rfl
      revert hn
      decide
    rw [Option.getD_some, Option.getD_some, if_pos hne]
    exact ⟨rfl, hn⟩

/-- The admitted list of disabled domains leaves one. -/
theorem enabledNuma_ne_nil (hconfig : validateYanetConfig Γ config = .ok ())
    (hcp : resolveBoxComponent Γ config yanet .controlplane "" = .ok (some cp))
    (hinherited : (yanet.components.bind (·.controlplane)).bind (·.disabledNuma) = none) :
    enabledNuma cp.toResolvedRole ≠ [] := by
  obtain ⟨hcount, hvalid⟩ := effectiveNuma_admitted hconfig hcp
  have hdisabled : cp.disabledNuma = config.components.controlplane.disabledNuma := by
    rw [resolveBoxComponent_disabledNuma hcp, resolveDisabledNuma]
    split
    · next disabled _ hoverride =>
      rw [hoverride] at hinherited
      cases hinherited
    · rfl
  have hpositive : 1 ≤ effectiveNuma cp.toResolvedRole := by
    unfold validateControlplaneNuma at hvalid
    split at hvalid
    · cases hvalid
    · omega
  intro hnone
  -- every domain of the fan-out would be in the list
  have hall : ∀ i < (effectiveNuma cp.toResolvedRole).toNat, (i : Int) ∈ cp.disabledNuma := by
    intro i hi
    by_contra hfree
    have hmem : i ∈ enabledNuma cp.toResolvedRole := List.mem_filter.2 ⟨List.mem_range.2 hi, by simpa using hfree⟩
    rw [hnone] at hmem
    cases hmem
  have hsubset : (List.range (effectiveNuma cp.toResolvedRole).toNat).map Int.ofNat ⊆
      config.components.controlplane.disabledNuma.dedup.filter (· < effectiveNuma cp.toResolvedRole) := by
    intro x hx
    obtain ⟨i, hi, rfl⟩ := List.mem_map.1 hx
    have hi := List.mem_range.1 hi
    refine List.mem_filter.2 ⟨List.mem_dedup.2 (hdisabled ▸ hall i hi), ?_⟩
    rw [decide_eq_true_eq]
    show (i : Int) < _
    omega
  have hlength := (List.Nodup.subperm (List.nodup_range.map fun _ _ h => Int.ofNat.inj h) hsubset).length_le
  rw [List.length_map, List.length_range] at hlength
  have hrefused := refuse_ok.1 (seq_ok.1 (seq_ok.1 ((validateYanetConfig_checks hconfig).disabledNuma)).2).2
  rw [← hcount] at hrefused
  refine hrefused ⟨List.ne_nil_of_mem (hdisabled ▸ hall 0 (by omega)), ?_⟩
  omega

end

/-! ## The fields of a resolved role -/

/-- No slot of a box type lists a patch. -/
structure BoxType.PatchFree (box : BoxType) : Prop where
  controlplane : ∀ slot, box.components.controlplane = some slot → slot.patches = []
  dataplane : ∀ slot, box.components.dataplane = some slot → slot.patches = []
  sidecars : ∀ slot, box.components.dataplane = some slot → ∀ (name : String) s, slot.sidecars[name]? = some s → s.patches = []
  birdAdapter : ∀ slot, box.components.birdAdapter = some slot → slot.patches = []
  operators : ∀ (name : String) slot, box.operators[name]? = some slot → slot.patches = []

/-- The fields of a role come from the palette, the slots of its box type and the overrides of its installation. -/
structure ResolvedFields (config : YanetConfigSpec) (yanet : YanetSpec) (box : BoxType) (role : ResolvedRole) : Prop where
  hugepages : role.kind ≠ .dataplane → role.hugepages = none
  sources : ∀ cs, role.config = some cs ∨ (∃ c ∈ role.containers, c.config = some cs) →
    ∃ path, (path, some cs) ∈ configSources config.components
  containers : role.kind = .operator → ∃ op ∈ config.components.operators, op.name = role.name ∧
    role.containers.map (·.name) = op.containers.map (·.name)
  noContainers : role.kind ≠ .operator → role.containers = []
  overrides : role.overrides = componentOverride yanet role.kind role.name
  patches : box.PatchFree → role.patches = []

section

variable {Γ : Platform} {config : YanetConfigSpec} {yanet : YanetSpec} {box : BoxType}

/-- A role without containers of its own takes its configuration from the palette. -/
theorem ResolvedFields.of_single {role : ResolvedRole} (hkind : role.kind ≠ .operator) (hcontainers : role.containers = [])
    (hhugepages : role.kind ≠ .dataplane → role.hugepages = none)
    (hsource : ∃ path, (path, role.config) ∈ configSources config.components)
    (hoverrides : role.overrides = componentOverride yanet role.kind role.name) (hpatches : box.PatchFree → role.patches = []) :
    ResolvedFields config yanet box role := by
  refine ⟨hhugepages, fun cs hcs => ?_, fun hoperator => absurd hoperator hkind, fun _ => hcontainers, hoverrides, hpatches⟩
  rcases hcs with hcs | ⟨c, hc, -⟩
  · obtain ⟨path, hpath⟩ := hsource
    exact ⟨path, hcs ▸ hpath⟩
  · rw [hcontainers] at hc
    cases hc

theorem resolveSidecar_fields {slot : BoxDataplane} (hslot : box.components.dataplane = some slot) {i : Nat} {s : SidecarSpec}
    (hs : (s, i) ∈ config.components.dataplane.sidecars.zipIdx) :
    ResolvedFields config yanet box (resolveSidecar config yanet slot i s) := by
  have hsource : ("spec.components.dataplane.sidecars[" ++ toString i ++ ":" ++ s.name ++ "].config", s.config) ∈
      configSources config.components := by
    refine List.mem_append_left _ (List.mem_append_left _ (List.mem_append_right _ ?_))
    exact List.mem_map.2 ⟨(s, i), hs, rfl⟩
  refine ResolvedFields.of_single (by simp [resolveSidecar]) rfl (fun _ => rfl) ⟨_, hsource⟩ ?_ fun hfree => ?_
  · show none = componentOverride yanet .sidecar s.name
    unfold componentOverride
    split <;> rfl
  · show ((slot.sidecars[s.name]?).map (·.patches)).getD [] = []
    cases hwired : slot.sidecars[s.name]? with
    | none => rfl
    | some w => exact hfree.sidecars slot hslot s.name w hwired

theorem ResolvedPalette.fields {slot : BoxDataplane} {rs : List ResolvedRole} (h : ResolvedPalette Γ config yanet slot rs)
    (hslot : box.components.dataplane = some slot) : ∀ r ∈ rs, ResolvedFields config yanet box r := by
  intro r hr
  rw [h.roles, List.mem_map] at hr
  obtain ⟨⟨s, i⟩, hs, rfl⟩ := hr
  exact resolveSidecar_fields hslot hs

/-- The configuration of a declared container is one of those that admission checks. -/
theorem operatorSource_mem {components : ComponentsSpec} {op : OperatorSpec} (hop : op ∈ components.operators)
    {c : OperatorContainer} (hc : c ∈ op.containers) : ∃ path, (path, c.config) ∈ configSources components := by
  obtain ⟨i, hi⟩ := List.mem_iff_getElem?.1 hop
  obtain ⟨j, hj⟩ := List.mem_iff_getElem?.1 hc
  have hmem := List.mem_map_of_mem (f := fun p : OperatorContainer × Nat =>
    ("spec.components.operators[" ++ toString i ++ ":" ++ op.name ++ "].containers[" ++ toString p.2 ++ ":" ++ p.1.name ++
      "].config", p.1.config)) (List.mem_zipIdx_iff_getElem?.2 hj : (c, j) ∈ op.containers.zipIdx)
  exact ⟨_, List.mem_append_right _ (List.mem_flatMap.2 ⟨(op, i), List.mem_zipIdx_iff_getElem?.2 hi, hmem⟩)⟩

/-- The fields of the roles of a resolved component: its own, and those of its sidecars. -/
theorem resolveBoxComponent_fields {kind : ComponentKind} {operatorName : String} {rc : ResolvedComponent}
    (h : resolveBoxComponent Γ config yanet kind operatorName = .ok (some rc)) :
    ∃ box, findBoxType config yanet.boxType = .ok box ∧
      ∀ role ∈ rc.toResolvedRole :: rc.sidecars, ResolvedFields config yanet box role := by
  unfold resolveBoxComponent at h
  obtain ⟨box, hbox, h⟩ := bind_eq_ok.1 h
  refine ⟨box, hbox, ?_⟩
  cases kind with
  | controlplane =>
    dsimp only at h
    cases hs : box.components.controlplane with
    | none =>
      rw [hs] at h
      cases h
    | some slot =>
      rw [hs] at h
      obtain ⟨-, h⟩ := seq_ok.1 h
      cases h
      refine List.forall_mem_singleton.2 (.of_single nofun rfl (fun _ => rfl) ⟨_, List.mem_cons_self ..⟩ ?_
        fun hfree => hfree.controlplane slot hs)
      rfl
  | dataplane =>
    dsimp only at h
    cases hs : box.components.dataplane with
    | none =>
      rw [hs] at h
      cases h
    | some slot =>
      rw [hs] at h
      obtain ⟨sidecars, hr, h⟩ := bind_eq_ok.1 h
      obtain ⟨⟨networks, resources⟩, -, h⟩ := bind_eq_ok.1 h
      cases h
      refine List.forall_mem_cons.2 ⟨?_, (resolveDataplaneSidecars_ok hr).fields hs⟩
      refine .of_single nofun rfl (fun hk => absurd rfl hk) ⟨_, List.mem_cons_of_mem _ (List.mem_cons_self ..)⟩ ?_
        fun hfree => hfree.dataplane slot hs
      rfl
  | sidecar =>
    dsimp only at h
    cases hs : box.components.dataplane with
    | none =>
      rw [hs] at h
      cases h
    | some slot =>
      rw [hs] at h
      dsimp only at h
      split at h
      · cases h
      · obtain ⟨sidecars, hr, h⟩ := bind_eq_ok.1 h
        split at h
        · next sidecar hf =>
          cases h
          exact List.forall_mem_singleton.2
            ((resolveDataplaneSidecars_ok hr).fields hs sidecar (List.mem_of_find?_eq_some hf))
        · cases h
  | birdAdapter =>
    dsimp only at h
    cases hs : box.components.birdAdapter with
    | none =>
      rw [hs] at h
      cases h
    | some slot =>
      rw [hs] at h
      cases ha : config.components.birdAdapter with
      | none =>
        rw [ha] at h
        cases h
      | some adapter =>
        rw [ha] at h
        cases h
        have hsource : ("spec.components.birdAdapter.config", adapter.config) ∈ configSources config.components := by
          refine List.mem_append_left _ (List.mem_append_right _ ?_)
          rw [ha]
          exact List.mem_singleton.2 rfl
        refine List.forall_mem_singleton.2 (.of_single nofun rfl (fun _ => rfl) ⟨_, hsource⟩ ?_
          fun hfree => hfree.birdAdapter slot hs)
        rfl
  | operator =>
    dsimp only at h
    unfold resolveOperator at h
    split at h
    · cases h
    · next slot hs =>
      obtain ⟨operator, hop, h⟩ := bind_eq_ok.1 h
      have hfind : config.components.operators.find? (·.name == operatorName) = some operator := by
        unfold findOperator at hop
        split at hop
        · next found hf =>
          cases hop
          exact hf
        · cases hop
      have hmem := List.mem_of_find?_eq_some hfind
      have hname : operator.name = operatorName := by simpa using List.find?_some hfind
      dsimp only at h
      split at h
      · cases h
      · next first rest hc =>
        obtain ⟨-, h⟩ := seq_ok.1 h
        cases h
        refine List.forall_mem_singleton.2 ⟨fun _ => rfl, fun cs hcs => ?_, fun _ => ⟨operator, hmem, hname, ?_⟩,
          fun hk => absurd rfl hk, rfl, fun hfree => hfree.operators operatorName slot hs⟩
        · rcases hcs with hcs | ⟨c, hcmem, hcs⟩
          · cases hcs
          · rw [← hc] at hcmem
            obtain ⟨declared, hdeclared, rfl⟩ := List.mem_map.1 hcmem
            obtain ⟨path, hpath⟩ := operatorSource_mem hmem hdeclared
            have hcs : declared.config = some cs := hcs
            exact ⟨path, hcs ▸ hpath⟩
        · show (first :: rest).map (·.name) = _
          rw [← hc, List.map_map]
          rfl

end

/-! ## What admission says of containers and configurations -/

/-- The containers and the configurations of an admitted palette. -/
structure AdmittedPalette (config : YanetConfigSpec) : Prop where
  containerCount : ∀ op ∈ config.components.operators, op.containers.length ≤ 8
  containerNames : ∀ op ∈ config.components.operators, (op.containers.map OperatorContainer.name).Nodup
  containerLabels : ∀ op ∈ config.components.operators, ∀ c ∈ op.containers, Text.isDNS1123Label c.name = []
  sources : ∀ path cs, (path, some cs) ∈ configSources config.components → cs.variantsSet = 1

theorem validateYanetConfig_palette {Γ : Platform} {config : YanetConfigSpec} (h : validateYanetConfig Γ config = .ok ()) :
    AdmittedPalette config := by
  have hchecks := validateYanetConfig_checks h
  have hoperator : ∀ op ∈ config.components.operators, op.containers.length ≤ 8 ∧
      (op.containers.map OperatorContainer.name).Nodup ∧ ∀ c ∈ op.containers, Text.isDNS1123Label c.name = [] := by
    intro op hm
    obtain ⟨i, -, hi⟩ := (distinct_ok hchecks.operators).1 op hm
    obtain ⟨-, hi⟩ := seq_ok.1 hi
    obtain ⟨hcount, hcontainers⟩ := seq_ok.1 hi
    obtain ⟨hlabels, hnames, -⟩ := distinct_ok hcontainers
    refine ⟨by have := refuse_ok.1 hcount; omega, hnames, fun c hc => ?_⟩
    obtain ⟨j, hj, -⟩ := hlabels c hc
    exact not_not.1 (refuse_ok.1 (seq_ok.1 hj).2)
  refine ⟨fun op hm => (hoperator op hm).1, fun op hm => (hoperator op hm).2.1, fun op hm => (hoperator op hm).2.2,
    fun path cs hcs => ?_⟩
  have hsource := optional_ok.1 (forM_ok.1 hchecks.sources (path, some cs) hcs) cs rfl
  exact not_not.1 (refuse_ok.1 (seq_ok.1 hsource).1)

end YanetOperator
