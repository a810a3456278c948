import YanetOperator.Helpers.Resolve

/-!
# What a resolved component is

The part of a resolved component that no installation can change, and the palette of sidecars that comes with a dataplane.
-/

namespace YanetOperator

open Check

/-- The part of a role that Services and listeners depend on. -/
def ResolvedRole.core (r : ResolvedRole) : ResolvedRole :=
  { kind := r.kind
    name := r.name
    numa := r.numa
    containers := r.containers.map fun c => { name := c.name }
    listenerNames := r.listenerNames
    portIndex := r.portIndex }

/-- The core of a role as the palette declares it. -/
def declaredRole (config : YanetConfigSpec) (kind : ComponentKind) (operatorName : String) : ResolvedRole :=
  match kind with
  | .operator =>
    match config.components.operators.find? (·.name == operatorName) with
    | none => { kind := .operator, name := operatorName }
    | some op =>
      { kind := .operator
        name := operatorName
        containers := op.containers.map fun c => { name := c.name }
        listenerNames := resolveListeners op.listeners }
  | .sidecar =>
    match config.components.dataplane.sidecars.zipIdx.find? (·.1.name == operatorName) with
    | none => { kind := .sidecar, name := operatorName }
    | some p => { kind := .sidecar, name := operatorName, listenerNames := resolveListeners p.1.listeners, portIndex := p.2 }
  | .controlplane => { kind := .controlplane, name := "controlplane", numa := config.components.controlplane.numa.getD 0 }
  | .dataplane => { kind := .dataplane, name := "dataplane" }
  | .birdAdapter => { kind := .birdAdapter, name := "birdAdapter" }

/-- The name of a declared role: fixed for the singletons, given for operators and sidecars. -/
def roleName (kind : ComponentKind) (operatorName : String) : String :=
  match kind with
  | .operator => operatorName
  | .sidecar => operatorName
  | kind => kind.text

theorem declaredRole_kind (config : YanetConfigSpec) (kind : ComponentKind) (operatorName : String) :
    (declaredRole config kind operatorName).kind = kind := by
  cases kind <;> unfold declaredRole <;> dsimp only <;> split <;> rfl

theorem declaredRole_name (config : YanetConfigSpec) (kind : ComponentKind) (operatorName : String) :
    (declaredRole config kind operatorName).name = roleName kind operatorName := by
  cases kind <;> unfold declaredRole roleName <;> dsimp only <;> first | rfl | (split <;> rfl)

/-- Whether a box type wires a role. -/
def BoxType.wires (box : BoxType) (kind : ComponentKind) (operatorName : String) : Prop :=
  match kind with
  | .controlplane => box.components.controlplane ≠ none
  | .dataplane => box.components.dataplane ≠ none
  | .birdAdapter => box.components.birdAdapter ≠ none
  | .operator => box.operators[operatorName]? ≠ none
  | .sidecar => ∃ slot, box.components.dataplane = some slot ∧ slot.sidecars[operatorName]? ≠ none

/-- The loop over the palette: one role for each entry, with its index, and no two entries share a key. -/
theorem resolveSidecarPalette_ok {Γ : Platform} {config : YanetConfigSpec} {yanet : YanetSpec} {box : BoxDataplane}
    {before rest : List SidecarSpec} {rs : List ResolvedRole} (hb : (before.map fun s => Γ.shortNodeKey s.name).Nodup)
    (h : resolveSidecarPalette Γ config yanet box before rest = .ok rs) :
    rs = (rest.zipIdx before.length).map (fun p => resolveSidecar config yanet box p.2 p.1) ∧
      ((before ++ rest).map fun s => Γ.shortNodeKey s.name).Nodup ∧
      ∀ s ∈ rest, validateListeners s.name s.listeners = .ok () := by
  induction rest generalizing before rs with
  | nil =>
    cases h
    simpa using hb
  | cons s rest ih =>
    unfold resolveSidecarPalette at h
    obtain ⟨hc, h⟩ := seq_ok.1 h
    obtain ⟨rs', hrs, h⟩ := bind_eq_ok.1 h
    cases h
    unfold checkSidecarPalette at hc
    obtain ⟨-, hc⟩ := seq_ok.1 hc
    split at hc
    · cases hc
    · next hf =>
      rw [List.find?_eq_none] at hf
      have hb' : ((before ++ [s]).map fun s => Γ.shortNodeKey s.name).Nodup := by
        rw [List.map_append, List.nodup_append]
        refine ⟨hb, by simp, ?_⟩
        intro a ha b hb e
        obtain ⟨x, hx, rfl⟩ := List.mem_map.1 ha
        simp only [List.map_cons, List.map_nil, List.mem_singleton] at hb
        exact hf x (List.mem_reverse.2 hx) (by simp [e, hb])
      obtain ⟨h1, h2, h3⟩ := ih hb' hrs
      refine ⟨?_, by simpa using h2, ?_⟩
      · rw [h1]
        simp [List.zipIdx_cons]
      · intro x hx
        rcases List.mem_cons.1 hx with rfl | hx
        · exact hc
        · exact h3 x hx

/-- The resolved palette: the entries in order with their indices, no two with one key, and few enough for the port range. -/
structure ResolvedPalette (Γ : Platform) (config : YanetConfigSpec) (yanet : YanetSpec) (box : BoxDataplane)
    (rs : List ResolvedRole) : Prop where
  roles : rs = config.components.dataplane.sidecars.zipIdx.map fun p => resolveSidecar config yanet box p.2 p.1
  bounded : config.components.dataplane.sidecars.length ≤ maxDataplaneSidecars
  keys : (config.components.dataplane.sidecars.map fun s => Γ.shortNodeKey s.name).Nodup
  listeners : ∀ s ∈ config.components.dataplane.sidecars, validateListeners s.name s.listeners = .ok ()

theorem resolveDataplaneSidecars_ok {Γ : Platform} {config : YanetConfigSpec} {yanet : YanetSpec} {boxName : String}
    {box : BoxDataplane} {rs : List ResolvedRole} (h : resolveDataplaneSidecars Γ config yanet boxName box = .ok rs) :
    ResolvedPalette Γ config yanet box rs := by
  unfold resolveDataplaneSidecars at h
  obtain ⟨hl, h⟩ := seq_ok.1 h
  obtain ⟨rs', hrs, h⟩ := bind_eq_ok.1 h
  obtain ⟨-, h⟩ := seq_ok.1 h
  cases h
  obtain ⟨h1, h2, h3⟩ := resolveSidecarPalette_ok (by simp) hrs
  exact ⟨h1, by simpa using refuse_ok.1 hl, by simpa using h2, h3⟩

/-- The names of a resolved palette. -/
theorem ResolvedPalette.names {Γ : Platform} {config : YanetConfigSpec} {yanet : YanetSpec} {box : BoxDataplane}
    {rs : List ResolvedRole} (h : ResolvedPalette Γ config yanet box rs) :
    rs.map (·.name) = config.components.dataplane.sidecars.map (·.name) := by
  conv_rhs => rw [← List.zipIdx_map_fst 0 config.components.dataplane.sidecars]
  rw [h.roles, List.map_map, List.map_map]
  rfl

theorem ResolvedPalette.role_keys {Γ : Platform} {config : YanetConfigSpec} {yanet : YanetSpec} {box : BoxDataplane}
    {rs : List ResolvedRole} (h : ResolvedPalette Γ config yanet box rs) :
    (rs.map fun r => Γ.shortNodeKey r.name).Nodup := by
  have hkeys := h.keys
  have hmap (xs : List SidecarSpec) : xs.map (fun s => Γ.shortNodeKey s.name) = (xs.map (·.name)).map Γ.shortNodeKey := by
    rw [List.map_map]
    rfl
  rw [hmap, ← h.names, List.map_map] at hkeys
  exact hkeys

/-- A resolved palette entry has the core its declaration gives it. -/
theorem ResolvedPalette.core {Γ : Platform} {config : YanetConfigSpec} {yanet : YanetSpec} {box : BoxDataplane}
    {rs : List ResolvedRole} (h : ResolvedPalette Γ config yanet box rs) {r : ResolvedRole} (hr : r ∈ rs) :
    r.core = declaredRole config .sidecar r.name := by
  rw [h.roles, List.mem_map] at hr
  obtain ⟨⟨s, i⟩, hp, rfl⟩ := hr
  have hnames : (config.components.dataplane.sidecars.map SidecarSpec.name).Nodup :=
    List.Nodup.of_map Γ.shortNodeKey (by rw [List.map_map]; exact h.keys)
  have hfind : config.components.dataplane.sidecars.zipIdx.find? (·.1.name == s.name) = some (s, i) := by
    rw [List.find?_eq_some_iff_getElem]
    refine ⟨by simp, i, ?_⟩
    rw [List.mem_zipIdx_iff_getElem?, List.getElem?_eq_some_iff] at hp
    obtain ⟨hi, hs⟩ := hp
    refine ⟨by simpa using hi, by simp [hs], ?_⟩
    intro j hj
    have hne := (List.nodup_iff_pairwise_ne.1 hnames)
    rw [List.pairwise_iff_getElem] at hne
    have := hne j i (by simp; omega) (by simpa using hi) hj
    simpa [hs] using this
  unfold declaredRole
  dsimp only
  have hname : (resolveSidecar config yanet box i s).name = s.name := rfl
  rw [hname, hfind]
  rfl

/-- What `ResolveBoxComponent` gives: the core of the role asked for, which the box type wires and the palette declares, and
sidecars only for the dataplane. -/
structure ResolvedAs (Γ : Platform) (config : YanetConfigSpec) (yanet : YanetSpec) (kind : ComponentKind)
    (operatorName : String) (rc : ResolvedComponent) : Prop where
  core : rc.toResolvedRole.core = declaredRole config kind operatorName
  box : ∃ box, findBoxType config yanet.boxType = .ok box ∧ box.wires kind operatorName
  noSidecars : kind ≠ .dataplane → rc.sidecars = []
  palette : kind = .dataplane → ∃ slot, ResolvedPalette Γ config yanet slot rc.sidecars
  operator : kind = .operator → ∃ op ∈ config.components.operators, op.name = operatorName
  sidecar : kind = .sidecar → ∃ s ∈ config.components.dataplane.sidecars, s.name = operatorName

theorem resolveBoxComponent_ok {Γ : Platform} {config : YanetConfigSpec} {yanet : YanetSpec} {kind : ComponentKind}
    {operatorName : String} {rc : ResolvedComponent}
    (h : resolveBoxComponent Γ config yanet kind operatorName = .ok (some rc)) :
    ResolvedAs Γ config yanet kind operatorName rc := by
  unfold resolveBoxComponent at h
  obtain ⟨box, hbox, h⟩ := bind_eq_ok.1 h
  cases kind with
  | controlplane =>
    dsimp only at h
    cases hs : box.components.controlplane with
    | none =>
      rw [hs] at h
      cases h
    | some slot =>
      rw [hs] at h
      obtain ⟨-, h⟩ := seq_ok.1 h
      cases h
      exact ⟨rfl, ⟨box, hbox, by simp [BoxType.wires, hs]⟩, fun _ => rfl, nofun, nofun, nofun⟩
  | dataplane =>
    dsimp only at h
    cases hs : box.components.dataplane with
    | none =>
      rw [hs] at h
      cases h
    | some slot =>
      rw [hs] at h
      obtain ⟨sidecars, hr, h⟩ := bind_eq_ok.1 h
      obtain ⟨⟨networks, resources⟩, -, h⟩ := bind_eq_ok.1 h
      cases h
      exact ⟨rfl, ⟨box, hbox, by simp [BoxType.wires, hs]⟩, fun hk => absurd rfl hk,
        fun _ => ⟨slot, resolveDataplaneSidecars_ok hr⟩, nofun, nofun⟩
  | sidecar =>
    dsimp only at h
    cases hs : box.components.dataplane with
    | none =>
      rw [hs] at h
      cases h
    | some slot =>
      rw [hs] at h
      dsimp only at h
      split at h
      · cases h
      · next hslot =>
        obtain ⟨sidecars, hr, h⟩ := bind_eq_ok.1 h
        split at h
        · next sidecar hf =>
          cases h
          have hp := resolveDataplaneSidecars_ok hr
          have hmem := List.mem_of_find?_eq_some hf
          have hname : sidecar.name = operatorName := by simpa using List.find?_some hf
          refine ⟨?_, ⟨box, hbox, slot, hs, hslot⟩, fun _ => rfl, nofun, nofun, fun _ => ?_⟩
          · rw [← hname]
            exact hp.core hmem
          · rw [hp.roles, List.mem_map] at hmem
            obtain ⟨p, hp, rfl⟩ := hmem
            exact ⟨p.1, List.fst_mem_of_mem_zipIdx hp, hname⟩
        · cases h
  | birdAdapter =>
    dsimp only at h
    cases hs : box.components.birdAdapter with
    | none =>
      rw [hs] at h
      cases h
    | some slot =>
      rw [hs] at h
      cases ha : config.components.birdAdapter with
      | none =>
        rw [ha] at h
        cases h
      | some adapter =>
        rw [ha] at h
        cases h
        exact ⟨rfl, ⟨box, hbox, by simp [BoxType.wires, hs]⟩, fun _ => rfl, nofun, nofun, nofun⟩
  | operator =>
    dsimp only at h
    unfold resolveOperator at h
    split at h
    · cases h
    · next slot hs =>
      obtain ⟨operator, hop, h⟩ := bind_eq_ok.1 h
      have hfind : config.components.operators.find? (·.name == operatorName) = some operator := by
        unfold findOperator at hop
        split at hop
        · next found hf =>
          cases hop
          exact hf
        · cases hop
      dsimp only at h
      split at h
      · cases h
      · next first rest hc =>
        obtain ⟨-, h⟩ := seq_ok.1 h
        cases h
        refine ⟨?_, ⟨box, hbox, by simp [BoxType.wires, hs]⟩, fun _ => rfl, nofun, fun _ => ?_, nofun⟩
        · unfold declaredRole
          dsimp only
          rw [hfind]
          unfold ResolvedRole.core
          dsimp only
          rw [← hc, List.map_map]
          rfl
        · exact ⟨operator, List.mem_of_find?_eq_some hfind, by simpa using List.find?_some hfind⟩

/-- What is resolved of the fan-out: an installation may only choose the disabled indices. -/
theorem resolveBoxComponent_disabledNuma {Γ : Platform} {config : YanetConfigSpec} {yanet : YanetSpec} {operatorName : String}
    {rc : ResolvedComponent} (h : resolveBoxComponent Γ config yanet .controlplane operatorName = .ok (some rc)) :
    rc.disabledNuma = resolveDisabledNuma config.components.controlplane.disabledNuma yanet := by
  unfold resolveBoxComponent at h
  obtain ⟨box, -, h⟩ := bind_eq_ok.1 h
  dsimp only at h
  split at h
  · cases h
  · obtain ⟨-, h⟩ := seq_ok.1 h
    cases h
    rfl

/-- The palette of a dataplane is resolved with the slot of its box type. -/
theorem resolveBoxComponent_slot {Γ : Platform} {config : YanetConfigSpec} {yanet : YanetSpec} {operatorName : String}
    {rc : ResolvedComponent} (h : resolveBoxComponent Γ config yanet .dataplane operatorName = .ok (some rc)) :
    ∃ box slot, findBoxType config yanet.boxType = .ok box ∧ box.components.dataplane = some slot ∧
      ResolvedPalette Γ config yanet slot rc.sidecars := by
  unfold resolveBoxComponent at h
  obtain ⟨box, hbox, h⟩ := bind_eq_ok.1 h
  dsimp only at h
  cases hslot : box.components.dataplane with
  | none =>
    rw [hslot] at h
    cases h
  | some slot =>
    rw [hslot] at h
    obtain ⟨sidecars, hr, h⟩ := bind_eq_ok.1 h
    obtain ⟨networks, -, h⟩ := bind_eq_ok.1 h
    cases h
    exact ⟨box, slot, hbox, hslot, resolveDataplaneSidecars_ok hr⟩

/-- An enabled sidecar is wired by its slot. -/
theorem sidecarEnabled_wired {yanet : YanetSpec} {slot : BoxDataplane} {name : String} (h : sidecarEnabled yanet slot name = true) :
    slot.sidecars[name]? ≠ none := by
  intro hnone
  simp [sidecarEnabled, sidecarOverrideOf, hnone] at h

/-- Nothing is resolved only for a role that the box type does not wire. -/
theorem resolveBoxComponent_none {Γ : Platform} {config : YanetConfigSpec} {yanet : YanetSpec} {kind : ComponentKind}
    {operatorName : String} {box : BoxType} (hbox : findBoxType config yanet.boxType = .ok box)
    (h : resolveBoxComponent Γ config yanet kind operatorName = .ok none) : ¬ box.wires kind operatorName := by
  unfold resolveBoxComponent at h
  obtain ⟨box', hbox', h⟩ := bind_eq_ok.1 h
  cases hbox.symm.trans hbox'
  intro hw
  unfold BoxType.wires at hw
  cases kind with
  | controlplane =>
    obtain ⟨slot, hs⟩ := Option.ne_none_iff_exists'.1 hw
    dsimp only at h
    rw [hs] at h
    obtain ⟨-, h⟩ := seq_ok.1 h
    cases h
  | dataplane =>
    obtain ⟨slot, hs⟩ := Option.ne_none_iff_exists'.1 hw
    dsimp only at h
    rw [hs] at h
    obtain ⟨_, -, h⟩ := bind_eq_ok.1 h
    obtain ⟨_, -, h⟩ := bind_eq_ok.1 h
    cases h
  | sidecar =>
    obtain ⟨slot, hs, hw⟩ := hw
    dsimp only at h
    rw [hs] at h
    dsimp only at h
    rw [if_neg hw] at h
    obtain ⟨_, -, h⟩ := bind_eq_ok.1 h
    split at h <;> cases h
  | birdAdapter =>
    obtain ⟨slot, hs⟩ := Option.ne_none_iff_exists'.1 hw
    dsimp only at h
    rw [hs] at h
    dsimp only at h
    split at h <;> cases h
  | operator =>
    obtain ⟨slot, hs⟩ := Option.ne_none_iff_exists'.1 hw
    dsimp only at h
    rw [resolveOperator, hs] at h
    obtain ⟨_, -, h⟩ := bind_eq_ok.1 h
    dsimp only at h
    split at h
    · cases h
    · obtain ⟨-, h⟩ := seq_ok.1 h
      cases h

theorem ResolvedAs.kind {Γ : Platform} {config : YanetConfigSpec} {yanet : YanetSpec} {kind : ComponentKind}
    {operatorName : String} {rc : ResolvedComponent} (h : ResolvedAs Γ config yanet kind operatorName rc) :
    rc.kind = kind := by
  have := congrArg ResolvedRole.kind h.core
  rwa [declaredRole_kind] at this

theorem ResolvedAs.name {Γ : Platform} {config : YanetConfigSpec} {yanet : YanetSpec} {kind : ComponentKind}
    {operatorName : String} {rc : ResolvedComponent} (h : ResolvedAs Γ config yanet kind operatorName rc) :
    rc.name = roleName kind operatorName := by
  have := congrArg ResolvedRole.name h.core
  rwa [declaredRole_name] at this

theorem ResolvedAs.sidecar_keys {Γ : Platform} {config : YanetConfigSpec} {yanet : YanetSpec} {kind : ComponentKind}
    {operatorName : String} {rc : ResolvedComponent} (h : ResolvedAs Γ config yanet kind operatorName rc) :
    (rc.sidecars.map fun r => Γ.shortNodeKey r.name).Nodup := by
  by_cases hk : kind = .dataplane
  · obtain ⟨slot, hp⟩ := h.palette hk
    exact hp.role_keys
  · rw [h.noSidecars hk]
    exact List.nodup_nil

/-- A component as the renderer gets it: resolved, and perhaps disabled for the pass. -/
def Resolved (Γ : Platform) (config : YanetConfigSpec) (yanet : YanetSpec) (rc : ResolvedComponent) : Prop :=
  ∃ kind operatorName rc0 enabled, resolveBoxComponent Γ config yanet kind operatorName = .ok (some rc0) ∧
    rc = { rc0 with enabled := enabled }

theorem Resolved.as {Γ : Platform} {config : YanetConfigSpec} {yanet : YanetSpec} {rc : ResolvedComponent}
    (h : Resolved Γ config yanet rc) : ∃ kind operatorName, ResolvedAs Γ config yanet kind operatorName rc := by
  obtain ⟨kind, operatorName, rc0, enabled, h, rfl⟩ := h
  have h' := resolveBoxComponent_ok h
  exact ⟨kind, operatorName, h'.core, h'.box, h'.noSidecars, h'.palette, h'.operator, h'.sidecar⟩

theorem Resolved.dataplane_name {Γ : Platform} {config : YanetConfigSpec} {yanet : YanetSpec} {rc : ResolvedComponent}
    (h : Resolved Γ config yanet rc) (hk : rc.kind = .dataplane) : rc.name = ComponentKind.dataplane.text := by
  obtain ⟨kind, operatorName, h⟩ := h.as
  have hkind : kind = .dataplane := h.kind.symm.trans hk
  have := h.name
  rwa [hkind] at this

theorem Resolved.sidecar_keys {Γ : Platform} {config : YanetConfigSpec} {yanet : YanetSpec} {rc : ResolvedComponent}
    (h : Resolved Γ config yanet rc) : (rc.sidecars.map fun r => Γ.shortNodeKey r.name).Nodup := by
  obtain ⟨kind, operatorName, h⟩ := h.as
  exact h.sidecar_keys

end YanetOperator
