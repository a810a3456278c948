import Mathlib.Data.List.Pairwise
import YanetOperator.Lemmas.Unpatched
import YanetOperator.Theorems.Rendering

/-!
# Inline configurations

The volumes of a Pod and the ConfigMaps the operator creates are derived apart from each other, from the same declarations. They
agree, and a ConfigMap belongs to one container of one node: its name is taken apart from both ends.
-/

namespace YanetOperator

open Check

/-! ## Names of ConfigMaps -/

/-- The name of a role, twice, followed by texts of equal length: the name and the text can be read back. -/
theorem doubled_inj {k k' u u' : String} (h : k ++ "-" ++ k ++ u = k' ++ "-" ++ k' ++ u') (hlength : u.length = u'.length) :
    k = k' ∧ u = u' := by
  have hlen : k.length = k'.length := by
    have := congrArg String.length h
    simp only [String.length_append] at this
    omega
  obtain ⟨hdouble, hu⟩ := Text.append_inj h (by simp only [String.length_append, hlen])
  rw [String.append_assoc, String.append_assoc] at hdouble
  exact ⟨(Text.append_inj hdouble hlen).1, hu⟩

/-- The name of a role, twice, followed by texts whose lengths differ by an odd number: two such names are different. -/
theorem doubled_ne {k k' u u' : String} {n : Nat} (hlength : u.length = u'.length + (2 * n + 1)) :
    k ++ "-" ++ k ++ u ≠ k' ++ "-" ++ k' ++ u' := by
  intro h
  have := congrArg String.length h
  simp only [String.length_append] at this
  omega

/-- What precedes the role in the names of a node's objects. -/
def nodeStem (Γ : Platform) (ctx : BuildContext) : String :=
  if ctx.nodeName ≠ "" then ctx.yanetName ++ "-" ++ Γ.shortNodeKey ctx.nodeName ++ "-" else ctx.yanetName ++ "-"

/-- What follows the role in the name of the ConfigMap of its container at an index. -/
def configStem (role : ResolvedRole) (i : Nat) : String := if role.kind = .operator then "-c" ++ toString i else ""

/-- The name of the ConfigMap of the container at an index. -/
def configMapNameAt (Γ : Platform) (ctx : BuildContext) (role : ResolvedRole) (i : Nat) (text : String) : String :=
  if role.kind = .operator then inlineContainerConfigMapName Γ ctx role i text else inlineConfigMapName Γ ctx role text

theorem configMapNameAt_eq (Γ : Platform) (ctx : BuildContext) (role : ResolvedRole) (i : Nat) (text : String) :
    configMapNameAt Γ ctx role i text = nodeStem Γ ctx ++
      (toLowerKebab role.name ++ "-" ++ toLowerKebab role.name ++ (configStem role i ++ ("-cfg-" ++ Γ.shortNodeKey text))) := by
  have hname : singleDeploymentName Γ ctx role = nodeStem Γ ctx ++ toLowerKebab role.name := by
    unfold singleDeploymentName nodeStem
    split <;> rfl
  unfold configMapNameAt configStem
  split
  · simp only [inlineContainerConfigMapName, hname, String.append_assoc]
  · simp only [inlineConfigMapName, hname, String.append_assoc, String.empty_append]

/-- The length of the index of one of at most ten containers. -/
theorem length_configStem {role : ResolvedRole} {i : Nat} (h : i < 10) :
    (configStem role i).length = if role.kind = .operator then 3 else 0 := by
  unfold configStem
  split
  · have hdigit : ∀ n < 10, (toString n).length = 1 := by decide
    rw [String.length_append, hdigit i h]
    rfl
  · rfl

/-- A ConfigMap name says for which role it is, and for which of its containers. -/
theorem configMapNameAt_inj {Γ : Platform} {ctx : BuildContext} {role role' : ResolvedRole} {i i' : Nat} {text text' : String}
    (hi : i < 10) (hi' : i' < 10) (h : configMapNameAt Γ ctx role i text = configMapNameAt Γ ctx role' i' text') :
    toLowerKebab role.name = toLowerKebab role'.name ∧ (role.kind = .operator ↔ role'.kind = .operator) ∧
      (role.kind = .operator → i = i') := by
  rw [configMapNameAt_eq, configMapNameAt_eq] at h
  have h := String.append_right_inj _ |>.1 h
  have hlen (r : ResolvedRole) (j : Nat) (hj : j < 10) (t : String) :
      (configStem r j ++ ("-cfg-" ++ Γ.shortNodeKey t)).length = (if r.kind = .operator then 3 else 0) + 13 := by
    rw [String.length_append, length_configStem hj, String.length_append, shortNodeKey_length]
    rfl
  have hl := hlen role i hi text
  have hl' := hlen role' i' hi' text'
  by_cases hk : role.kind = .operator <;> by_cases hk' : role'.kind = .operator
  · rw [if_pos hk] at hl
    rw [if_pos hk'] at hl'
    obtain ⟨hname, hrest⟩ := doubled_inj h (by omega)
    refine ⟨hname, ⟨fun _ => hk', fun _ => hk⟩, fun _ => ?_⟩
    obtain ⟨hstem, -⟩ := Text.append_inj hrest (by rw [length_configStem hi, length_configStem hi', if_pos hk, if_pos hk'])
    rw [configStem, configStem, if_pos hk, if_pos hk'] at hstem
    exact Text.toString_inj (String.append_right_inj _ |>.1 hstem)
  · rw [if_pos hk] at hl
    rw [if_neg hk'] at hl'
    exact absurd h (doubled_ne (n := 1) (by omega))
  · rw [if_neg hk] at hl
    rw [if_pos hk'] at hl'
    exact absurd h.symm (doubled_ne (n := 1) (by omega))
  · rw [if_neg hk] at hl
    rw [if_neg hk'] at hl'
    obtain ⟨hname, -⟩ := doubled_inj h (by omega)
    exact ⟨hname, ⟨fun h => absurd h hk, fun h => absurd h hk'⟩, fun h => absurd h hk⟩

/-- Nodes whose keys differ share no ConfigMap name. -/
theorem configMapNameAt_apart {Γ : Platform} {ctx ctx' : BuildContext} (hyanet : ctx.yanetName = ctx'.yanetName)
    (hnode : ctx.nodeName ≠ "") (hnode' : ctx'.nodeName ≠ "")
    (hkeys : Γ.shortNodeKey ctx.nodeName ≠ Γ.shortNodeKey ctx'.nodeName) (role role' : ResolvedRole) (i i' : Nat)
    (text text' : String) : configMapNameAt Γ ctx role i text ≠ configMapNameAt Γ ctx' role' i' text' := by
  intro h
  rw [configMapNameAt_eq, configMapNameAt_eq] at h
  have hstem (c : BuildContext) (hc : c.nodeName ≠ "") :
      nodeStem Γ c = (c.yanetName ++ "-") ++ (Γ.shortNodeKey c.nodeName ++ "-") := by
    rw [nodeStem, if_pos hc, String.append_assoc]
  obtain ⟨hstems, -⟩ := Text.append_inj h (by
    rw [hstem ctx hnode, hstem ctx' hnode', hyanet]
    simp only [String.length_append, shortNodeKey_length])
  rw [hstem ctx hnode, hstem ctx' hnode', hyanet] at hstems
  obtain ⟨-, hrest⟩ := Text.append_inj hstems rfl
  exact hkeys (Text.append_inj hrest (by rw [shortNodeKey_length, shortNodeKey_length])).1

/-! ## Containers and their configurations -/

/-- The containers of a role in the Pod that hosts it, with the configurations they declare. -/
def roleContainers (Γ : Platform) (role : ResolvedRole) : List (String × Option ConfigSource) :=
  if role.kind = .operator then role.containers.map fun c => (c.name, c.config)
  else [(if role.kind = .sidecar then scopedOperatorName Γ role.name role.name else toLowerKebab role.kind.text, role.config)]

/-- The roles hosted by the Pods of a component: its own, and its enabled sidecars. -/
def hostedRoles (component : ResolvedComponent) : List ResolvedRole :=
  component.toResolvedRole :: component.sidecars.filter (·.enabled)

/-- A container of a role declares an inline text, for which the operator names a ConfigMap. -/
def RoleSlot (Γ : Platform) (ctx : BuildContext) (role : ResolvedRole) (container configMap text : String) : Prop :=
  ∃ i source, (roleContainers Γ role)[i]? = some (container, source) ∧ inlineOf source = some text ∧
    configMap = configMapNameAt Γ ctx role i text

theorem mem_inlineRoleConfigMaps {Γ : Platform} {ctx : BuildContext} {role : ResolvedRole} {configMap text : String} :
    (configMap, text) ∈ inlineRoleConfigMaps Γ ctx role ↔ ∃ container, RoleSlot Γ ctx role container configMap text := by
  unfold inlineRoleConfigMaps RoleSlot roleContainers configMapNameAt
  by_cases hkind : role.kind = .operator
  · simp only [if_pos hkind, List.mem_filterMap, Prod.exists, List.mem_zipIdx_iff_getElem?, List.getElem?_map,
      Option.map_eq_some_iff, Prod.mk.injEq]
    constructor
    · rintro ⟨c, i, hc, text', htext, rfl, rfl⟩
      exact ⟨c.name, i, c.config, ⟨c, hc, rfl, rfl⟩, htext, rfl⟩
    · rintro ⟨-, i, -, ⟨c, hc, -, rfl⟩, htext, rfl⟩
      exact ⟨c, i, hc, text, htext, rfl, rfl⟩
  · simp only [if_neg hkind, Option.mem_toList, Option.map_eq_some_iff, Prod.mk.injEq]
    constructor
    · rintro ⟨text', htext, rfl, rfl⟩
      exact ⟨_, 0, role.config, rfl, htext, rfl⟩
    · rintro ⟨container, i, source, hi, htext, rfl⟩
      cases List.mem_singleton.1 (List.mem_of_getElem? hi)
      exact ⟨text, htext, rfl, rfl⟩

/-! ## The components of an installation -/

/-- A component with Pods of its own, as an installation resolves it. -/
def Wired (Γ : Platform) (config : YanetConfigSpec) (yanet : YanetSpec) (component : ResolvedComponent) : Prop :=
  component.kind ≠ .sidecar ∧
    ∃ kind operatorName, resolveBoxComponent Γ config yanet kind operatorName = .ok (some component)

section

variable {Γ : Platform} {config : YanetConfigSpec} {yanet : YanetSpec} {component component' : ResolvedComponent}
  {role role' : ResolvedRole}

theorem Wired.resolved (h : Wired Γ config yanet component) : Resolved Γ config yanet component := by
  obtain ⟨-, kind, operatorName, h⟩ := h
  exact ⟨kind, operatorName, component, component.enabled, h, rfl⟩

/-- A component is resolved by its own kind and name. -/
theorem Wired.resolve (h : Wired Γ config yanet component) :
    resolveBoxComponent Γ config yanet component.kind component.name = .ok (some component) := by
  obtain ⟨-, kind, operatorName, h⟩ := h
  have has := resolveBoxComponent_ok h
  rw [has.kind, has.name, resolveBoxComponent_roleName, h]

/-- The name of a component in the names of its objects: reserved, or the name of an operator. -/
theorem Wired.kebab (hadmitted : AdmittedConfig config) (h : Wired Γ config yanet component) :
    (toLowerKebab component.name ∈ reservedNames ∧ component.kind ≠ .operator ∧ component.name = component.kind.text) ∨
    (toLowerKebab component.name = component.name ∧ component.name ∉ reservedNames ∧
      component.name ∈ config.components.operators.map OperatorSpec.name) := by
  have has := resolveBoxComponent_ok h.resolve
  have hname := has.name
  cases hkind : component.kind with
  | controlplane | dataplane | birdAdapter =>
    rw [hkind] at hname
    dsimp only [roleName] at hname
    refine Or.inl ⟨?_, nofun, hname⟩
    rw [hname]
    decide
  | sidecar => exact absurd hkind h.1
  | operator =>
    obtain ⟨op, hop, hopName⟩ := has.operator hkind
    rw [← hopName]
    exact Or.inr ⟨toLowerKebab_label (hadmitted.operatorLabel op hop), hadmitted.operatorFree op hop, List.mem_map_of_mem hop⟩

/-- Two components whose objects have one name are one component. -/
theorem Wired.unique (hadmitted : AdmittedConfig config) (h : Wired Γ config yanet component)
    (h' : Wired Γ config yanet component') (hname : toLowerKebab component.name = toLowerKebab component'.name) :
    component = component' := by
  have hsame : component.name = component'.name := by
    rcases h.kebab hadmitted with ⟨hreserved, hkind, htext⟩ | ⟨hself, hfree, -⟩ <;>
      rcases h'.kebab hadmitted with ⟨hreserved', hkind', htext'⟩ | ⟨hself', hfree', -⟩
    · rw [htext, htext'] at hname ⊢
      have hs := h.1
      have hs' := h'.1
      revert hname hkind hkind' hs hs'
      generalize component.kind = k
      generalize component'.kind = k'
      cases k <;> cases k' <;> decide
    · exact absurd (hself' ▸ hname ▸ hreserved) hfree'
    · exact absurd (hself ▸ hname ▸ hreserved') hfree
    · rw [← hself, ← hself', hname]
  have hkind := (hadmitted.role_unique (resolveBoxComponent_ok h.resolve) (resolveBoxComponent_ok h'.resolve) h.1 h'.1 hsame).1
  have hresolve := h'.resolve
  rw [← hkind, ← hsame, h.resolve] at hresolve
  cases hresolve
  rfl

/-- A sidecar is hosted by a dataplane, and its name is its own. -/
theorem Wired.sidecar (hadmitted : AdmittedConfig config) (h : Wired Γ config yanet component) (hrole : role ∈ component.sidecars) :
    component.kind = .dataplane ∧ role.kind = .sidecar ∧ toLowerKebab role.name = role.name ∧ role.name ∉ reservedNames ∧
      role.name ∉ config.components.operators.map OperatorSpec.name := by
  have has := resolveBoxComponent_ok h.resolve
  have hkind : component.kind = .dataplane := by
    by_contra hne
    rw [has.noSidecars hne] at hrole
    cases hrole
  obtain ⟨slot, hpalette⟩ := has.palette hkind
  have hcolocated := sidecars_colocated h.resolved role hrole
  have hname : role.name ∈ config.components.dataplane.sidecars.map (·.name) := hpalette.names ▸ List.mem_map_of_mem hrole
  obtain ⟨s, hs, hsname⟩ := List.mem_map.1 hname
  obtain ⟨hoperators, hreserved⟩ := hadmitted.sidecarFree s hs
  rw [← hsname]
  exact ⟨hkind, by simpa [ResolvedRole.isColocated] using hcolocated, toLowerKebab_label (hadmitted.sidecarLabel s hs), hreserved,
    hoperators⟩

/-- Two hosted roles whose objects have one name are one role of one component. -/
theorem Wired.hosted_unique (hadmitted : AdmittedConfig config) (h : Wired Γ config yanet component)
    (h' : Wired Γ config yanet component') (hrole : role ∈ hostedRoles component) (hrole' : role' ∈ hostedRoles component')
    (hname : toLowerKebab role.name = toLowerKebab role'.name) : component = component' ∧ role = role' := by
  have happart {c c' : ResolvedComponent} {s : ResolvedRole} (hc : Wired Γ config yanet c) (hc' : Wired Γ config yanet c')
      (hs : s ∈ c'.sidecars) : toLowerKebab c.name ≠ toLowerKebab s.name := by
    obtain ⟨-, -, hself, hreserved, hoperators⟩ := hc'.sidecar hadmitted hs
    rw [hself]
    rcases hc.kebab hadmitted with ⟨hmem, -⟩ | ⟨hkebab, -, hmem⟩
    · exact fun he => hreserved (he ▸ hmem)
    · exact fun he => hoperators (he ▸ hkebab.symm ▸ hmem)
  rcases List.mem_cons.1 hrole with rfl | hmem <;> rcases List.mem_cons.1 hrole' with rfl | hmem'
  · cases h.unique hadmitted h' hname
    exact ⟨rfl, rfl⟩
  · exact absurd hname (happart h h' (List.mem_filter.1 hmem').1)
  · exact absurd hname.symm (happart h' h (List.mem_filter.1 hmem).1)
  · have hs := (List.mem_filter.1 hmem).1
    have hs' := (List.mem_filter.1 hmem').1
    obtain ⟨hkind, -, hself, -⟩ := h.sidecar hadmitted hs
    obtain ⟨hkind', -, hself', -⟩ := h'.sidecar hadmitted hs'
    have hdataplane := h.resolved.dataplane_name hkind
    have hdataplane' := h'.resolved.dataplane_name hkind'
    cases h.unique hadmitted h' (by rw [hdataplane, hdataplane'])
    refine ⟨rfl, List.inj_on_of_nodup_map h.resolved.sidecar_keys hs hs' ?_⟩
    rw [← hself, ← hself', hname]

theorem Wired.fields (h : Wired Γ config yanet component) (hrole : role ∈ hostedRoles component) :
    ∃ box, ResolvedFields config yanet box role := by
  obtain ⟨box, -, hfields⟩ := resolveBoxComponent_fields h.resolve
  refine ⟨box, hfields role ?_⟩
  rcases List.mem_cons.1 hrole with rfl | hmem
  · exact List.mem_cons_self ..
  · exact List.mem_cons_of_mem _ (List.mem_filter.1 hmem).1

/-- A hosted role has at most eight containers. -/
theorem Wired.containers_le (hpalette : AdmittedPalette config) (h : Wired Γ config yanet component)
    (hrole : role ∈ hostedRoles component) : (roleContainers Γ role).length ≤ 8 := by
  obtain ⟨box, hfields⟩ := h.fields hrole
  unfold roleContainers
  split
  · next hkind =>
    obtain ⟨op, hop, -, hnames⟩ := hfields.containers hkind
    have hlength := congrArg List.length hnames
    rw [List.length_map, List.length_map] at hlength
    rw [List.length_map, hlength]
    exact hpalette.containerCount op hop
  · rw [List.length_singleton]
    omega

/-- A container in the Pods of a component declares an inline text, for which the operator names a ConfigMap. -/
def Slot (Γ : Platform) (ctx : BuildContext) (component : ResolvedComponent) (container configMap text : String) : Prop :=
  ∃ role ∈ hostedRoles component, RoleSlot Γ ctx role container configMap text

/-- A ConfigMap belongs to one container and one text. -/
theorem Slot.unique {ctx : BuildContext} {container container' configMap text text' : String}
    (hconfig : validateYanetConfig Γ config = .ok ()) (h : Wired Γ config yanet component) (h' : Wired Γ config yanet component')
    (hslot : Slot Γ ctx component container configMap text) (hslot' : Slot Γ ctx component' container' configMap text') :
    component = component' ∧ container = container' ∧ text = text' := by
  have hpalette := validateYanetConfig_palette hconfig
  obtain ⟨role, hrole, i, source, hi, htext, hname⟩ := hslot
  obtain ⟨role', hrole', i', source', hi', htext', hname'⟩ := hslot'
  have hbound := (List.getElem?_eq_some_iff.1 hi).1
  have hbound' := (List.getElem?_eq_some_iff.1 hi').1
  have hle := h.containers_le hpalette hrole
  have hle' := h'.containers_le hpalette hrole'
  obtain ⟨hkebab, -, hindex⟩ := configMapNameAt_inj (by omega) (by omega) (hname.symm.trans hname')
  obtain ⟨rfl, rfl⟩ := h.hosted_unique (validateYanetConfig_ok hconfig) h' hrole hrole' hkebab
  have hsame : (container, source) = (container', source') := by
    by_cases hkind : role.kind = .operator
    · rw [← hindex hkind, hi] at hi'
      exact Option.some_inj.1 hi'
    · rw [roleContainers, if_neg hkind] at hi hi'
      rw [List.mem_singleton.1 (List.mem_of_getElem? hi), List.mem_singleton.1 (List.mem_of_getElem? hi')]
  cases hsame
  exact ⟨rfl, rfl, Option.some_inj.1 (htext.symm.trans htext')⟩

/-- The ConfigMaps the operator creates for a component. -/
theorem getElem?_inlineConfigMaps {ctx : BuildContext} (hconfig : validateYanetConfig Γ config = .ok ())
    (h : Wired Γ config yanet component) {configMap text : String} :
    (inlineConfigMaps Γ ctx component)[configMap]? = some text ↔ ∃ container, Slot Γ ctx component container configMap text := by
  have hentries (n t : String) : (n, t) ∈ (component.sidecars.filter (·.enabled)).flatMap (inlineRoleConfigMaps Γ ctx) ++
      inlineRoleConfigMaps Γ ctx component.toResolvedRole ↔ ∃ container, Slot Γ ctx component container n t := by
    simp only [List.mem_append, List.mem_flatMap, mem_inlineRoleConfigMaps, Slot, hostedRoles, List.mem_cons]
    constructor
    · rintro (⟨s, hs, container, hslot⟩ | ⟨container, hslot⟩)
      · exact ⟨container, s, Or.inr hs, hslot⟩
      · exact ⟨container, _, Or.inl rfl, hslot⟩
    · rintro ⟨container, role, rfl | hs, hslot⟩
      · exact Or.inr ⟨container, hslot⟩
      · exact Or.inl ⟨role, hs, container, hslot⟩
  rw [inlineConfigMaps, StrMap.getElem?_of_functional, hentries]
  intro t t' ht ht'
  obtain ⟨container, hslot⟩ := (hentries configMap t).1 ht
  obtain ⟨container', hslot'⟩ := (hentries configMap t').1 ht'
  exact (hslot.unique hconfig h h hslot').2.2

end

/-! ## Mounts -/

/-- A container mounts a ConfigMap through a volume of its Pod. -/
def Mounts (pod : PodSpec) (c : Container) (configMap : String) : Prop :=
  ∃ m ∈ c.volumeMounts, ∃ v ∈ pod.volumes, v.name = m.name ∧ v.configMap = some configMap

/-- A Pod made of containers each of which mounts its own volumes. -/
structure PodParts (pod : PodSpec) (parts : List (Container × List Volume)) : Prop where
  containers : pod.allContainers.map (fun c => (c.name, c.volumeMounts)) = parts.map fun p => (p.1.name, p.1.volumeMounts)
  volumes : pod.volumes = parts.flatMap (·.2)
  own : ∀ p ∈ parts, p.1.volumeMounts.map (·.name) = p.2.map (·.name)
  apart : parts.Pairwise fun p q => ∀ v ∈ p.2, ∀ w ∈ q.2, v.name ≠ w.name

section

variable {pod : PodSpec} {parts : List (Container × List Volume)} {n : String}

/-- What a container mounts is one of its own volumes. -/
theorem PodParts.of_mounts (h : PodParts pod parts) {c : Container} (hc : c ∈ pod.allContainers) (hmounts : Mounts pod c n) :
    ∃ p ∈ parts, p.1.name = c.name ∧ ∃ v ∈ p.2, v.configMap = some n := by
  obtain ⟨m, hm, v, hv, hname, hconfigMap⟩ := hmounts
  have hpart : (c.name, c.volumeMounts) ∈ parts.map fun p => (p.1.name, p.1.volumeMounts) :=
    h.containers ▸ List.mem_map_of_mem (f := fun c : Container => (c.name, c.volumeMounts)) hc
  obtain ⟨p, hp, hpc⟩ := List.mem_map.1 hpart
  obtain ⟨hpname, hpmounts⟩ := Prod.mk.injEq .. ▸ hpc
  have hw : m.name ∈ p.2.map (·.name) := h.own p hp ▸ List.mem_map_of_mem (hpmounts ▸ hm)
  obtain ⟨w, hw, hwname⟩ := List.mem_map.1 hw
  rw [h.volumes, List.mem_flatMap] at hv
  obtain ⟨q, hq, hv⟩ := hv
  -- the volume of another container has another name
  have hsame : p = q := by
    by_contra hne
    have hsymm : Std.Symm fun p q : Container × List Volume => ∀ v ∈ p.2, ∀ w ∈ q.2, v.name ≠ w.name :=
      ⟨fun _ _ hpq v hv w hw => (hpq w hw v hv).symm⟩
    exact h.apart.forall hp hq hne w hw v hv (hwname.trans hname.symm)
  exact ⟨p, hp, hpname, v, hsame ▸ hv, hconfigMap⟩

/-- A container mounts each of its volumes. -/
theorem PodParts.mounts (h : PodParts pod parts) {p : Container × List Volume} (hp : p ∈ parts) {v : Volume} (hv : v ∈ p.2)
    (hconfigMap : v.configMap = some n) : ∃ c ∈ pod.allContainers, c.name = p.1.name ∧ Mounts pod c n := by
  have hcontainer : (p.1.name, p.1.volumeMounts) ∈ pod.allContainers.map fun c => (c.name, c.volumeMounts) :=
    h.containers ▸ List.mem_map_of_mem (f := fun p : Container × List Volume => (p.1.name, p.1.volumeMounts)) hp
  obtain ⟨c, hc, hpc⟩ := List.mem_map.1 hcontainer
  obtain ⟨hcname, hcmounts⟩ := Prod.mk.injEq .. ▸ hpc
  have hm : v.name ∈ p.1.volumeMounts.map (·.name) := h.own p hp ▸ List.mem_map_of_mem hv
  obtain ⟨m, hm, hmname⟩ := List.mem_map.1 hm
  exact ⟨c, hc, hcname, m, hcmounts ▸ hm, v, h.volumes ▸ List.mem_flatMap.2 ⟨p, hp, hv⟩, hmname.symm, hconfigMap⟩

end

/-! ## The parts of a rendered Pod -/

/-- The containers of a role, each with its volumes, before the role is composed into another Pod. -/
def roleParts (Γ : Platform) (ctx : BuildContext) (role : ResolvedRole) : List (Container × List Volume) :=
  if role.kind = .operator then
    role.containers.zipIdx.map fun p =>
      ({ name := p.1.name, volumeMounts := (buildConfigVolumesForContainer Γ ctx role p.1 p.2).2.1 },
        (buildConfigVolumesForContainer Γ ctx role p.1 p.2).1)
  else [singleContainer Γ ctx role]

/-- The container of a sidecar with its volumes, composed into the dataplane. -/
def nativePart (Γ : Platform) (ctx : BuildContext) (s : ResolvedRole) : Container × List Volume :=
  (nativeImage Γ s.name (sidecarContainer Γ ctx s), (singleContainer Γ ctx s).2.map (volumeImage Γ s.name))

section

variable {Γ : Platform} {ctx : BuildContext} {role : ResolvedRole} {component : ResolvedComponent}

/-- The Pod of a skeleton consists of the parts of its role. -/
theorem instanceSkeleton_parts (Γ : Platform) (ctx : BuildContext) (role : ResolvedRole) {numa : Option Nat}
    (hnuma : numa ∈ instances role) :
    (instanceSkeleton Γ ctx role numa).pod.allContainers.map (fun c => (c.name, c.volumeMounts)) =
        (roleParts Γ ctx role).map (fun p => (p.1.name, p.1.volumeMounts)) ∧
      (instanceSkeleton Γ ctx role numa).pod.volumes = (roleParts Γ ctx role).flatMap (·.2) := by
  have hsingle : (buildSingle Γ ctx role).pod.allContainers.map (fun c => (c.name, c.volumeMounts)) =
      [singleContainer Γ ctx role].map (fun p => (p.1.name, p.1.volumeMounts)) := by
    rw [buildSingle_allContainers]
    rfl
  have hvolumes : (buildSingle Γ ctx role).pod.volumes = [singleContainer Γ ctx role].flatMap (·.2) := by
    rw [buildSingle_volumes, List.flatMap_singleton]
  unfold instances at hnuma
  by_cases hkind : role.kind = .operator
  · rw [if_neg (by simp [hkind])] at hnuma
    cases List.mem_singleton.1 hnuma
    rw [instanceSkeleton, if_pos hkind, roleParts, if_pos hkind]
    refine ⟨?_, ?_⟩
    · show (List.map _ (List.map _ _) ++ []).map _ = _
      rw [List.append_nil, List.map_map, List.map_map, List.map_map]
      rfl
    · show List.flatMap _ (List.map _ _) = _
      rw [List.flatMap_map, List.flatMap_map]
  · rw [roleParts, if_neg hkind]
    split at hnuma
    · obtain ⟨i, -, rfl⟩ := List.mem_map.1 hnuma
      exact ⟨hsingle, hvolumes⟩
    · cases List.mem_singleton.1 hnuma
      rw [instanceSkeleton, if_neg hkind]
      exact ⟨hsingle, hvolumes⟩

theorem singleContainer_own (Γ : Platform) (ctx : BuildContext) (role : ResolvedRole) :
    (singleContainer Γ ctx role).1.volumeMounts.map (·.name) = (singleContainer Γ ctx role).2.map (·.name) := by
  have hparts := singleContainer_parts Γ ctx role
  obtain ⟨mounts, hmounts, hnames⟩ := hparts.mounts
  rw [hmounts, hparts.volumes, List.map_append, List.map_append, hnames]
  exact congrArg (· ++ _) (configVolumes_mounts ..)

theorem roleParts_own : ∀ p ∈ roleParts Γ ctx role, p.1.volumeMounts.map (·.name) = p.2.map (·.name) := by
  intro p hp
  unfold roleParts at hp
  split at hp
  · obtain ⟨q, -, rfl⟩ := List.mem_map.1 hp
    exact configVolumes_mounts ..
  · cases List.mem_singleton.1 hp
    exact singleContainer_own Γ ctx role

/-- The volumes of an operator's containers are numbered. -/
theorem roleParts_apart : (roleParts Γ ctx role).Pairwise fun p q => ∀ v ∈ p.2, ∀ w ∈ q.2, v.name ≠ w.name := by
  unfold roleParts
  split
  · rw [List.pairwise_map]
    have hindices : role.containers.zipIdx.Pairwise fun p q => p.2 ≠ q.2 := by
      have hnodup : (role.containers.zipIdx.map Prod.snd).Nodup := by
        rw [List.zipIdx_map_snd]
        exact List.nodup_range'
      rwa [List.Nodup, List.pairwise_map] at hnodup
    refine hindices.imp fun hne v hv w hw hname => ?_
    rw [configVolumes_names v hv, configVolumes_names w hw] at hname
    exact hne (Text.toString_inj (String.append_right_inj _ |>.1 hname))
  · exact List.pairwise_singleton _ _

theorem nativePart_own (s : ResolvedRole) :
    (nativePart Γ ctx s).1.volumeMounts.map (·.name) = (nativePart Γ ctx s).2.map (·.name) := by
  have hscoped := congrArg (List.map (scopedOperatorName Γ s.name)) (singleContainer_own Γ ctx s)
  rw [List.map_map, List.map_map] at hscoped
  show ((singleContainer Γ ctx s).1.volumeMounts.map _).map _ = ((singleContainer Γ ctx s).2.map _).map _
  rw [List.map_map, List.map_map]
  exact hscoped

/-- A volume of a composed sidecar carries the key of the sidecar. -/
theorem nativePart_volume {s : ResolvedRole} {v : Volume} (hv : v ∈ (nativePart Γ ctx s).2) :
    ∃ n, v.name = scopedOperatorName Γ s.name n := by
  obtain ⟨w, -, rfl⟩ := List.mem_map.1 hv
  exact ⟨w.name, rfl⟩

/-- The parts of the Pods of a component: those of its own role, and its enabled sidecars. -/
def componentParts (Γ : Platform) (ctx : BuildContext) (component : ResolvedComponent) (hugepages : Option Hugepages) :
    List (Container × List Volume) :=
  roleParts Γ ctx { component.toResolvedRole with hugepages := hugepages } ++
    (component.sidecars.filter (·.enabled)).map (nativePart Γ ctx)

theorem componentParts_apart (hplain : PlainComponent Γ component) (hsidecars : component.kind ≠ .dataplane → component.sidecars = [])
    (hugepages : Option Hugepages) :
    (componentParts Γ ctx component hugepages).Pairwise fun p q => ∀ v ∈ p.2, ∀ w ∈ q.2, v.name ≠ w.name := by
  refine List.pairwise_append.2 ⟨roleParts_apart, ?_, fun p hp q hq v hv w hw hname => ?_⟩
  · rw [List.pairwise_map]
    have hkeys := hplain.keys.sublist
      (List.filter_sublist.map _ : ((component.sidecars.filter (·.enabled)).map fun s => Γ.shortNodeKey s.name).Sublist _)
    rw [List.Nodup, List.pairwise_map] at hkeys
    refine hkeys.imp fun hne v hv w hw hname => ?_
    obtain ⟨n, hn⟩ := nativePart_volume hv
    obtain ⟨n', hn'⟩ := nativePart_volume hw
    exact hne (shortNodeKey_eq_of_scoped (hn.symm.trans (hname.trans hn')))
  · obtain ⟨s, hs, rfl⟩ := List.mem_map.1 hq
    have hkind : component.kind = .dataplane := by
      by_contra hne
      rw [hsidecars hne] at hs
      cases hs
    rw [roleParts, if_neg (by simp [hkind]), List.mem_singleton] at hp
    subst hp
    have hunscoped := (singleContainer_unscoped Γ ctx (c := { component.toResolvedRole with hugepages := hugepages }) hkind).2 v hv
    obtain ⟨n, hn⟩ := nativePart_volume hw
    rw [hname, hn, isManagedNativeContainer_scoped] at hunscoped
    cases hunscoped

/-- A rendered Pod consists of the parts of its component. -/
theorem rendered_parts {registry : PatchRegistry} {ds : List Deployment} (hplain : PlainComponent Γ component)
    (hname : component.kind = .dataplane → component.name = ComponentKind.dataplane.text)
    (hsidecars : component.kind ≠ .dataplane → component.sidecars = [])
    (h : renderDeployments Γ ctx component registry = .ok ds) {d : Deployment} (hd : d ∈ ds) :
    ∃ hugepages, PodParts d.pod (componentParts Γ ctx component hugepages) := by
  obtain ⟨-, built, b, _, hbuilt, hb, hinstance⟩ := renderDeployments_mem hname h hd
  obtain ⟨hugepages, hskeletons⟩ := buildDeployments_ok hbuilt
  obtain ⟨numa, hnuma, hlisten⟩ := forall₂_mem_right hskeletons hb
  have hports := configureComponentListeners_rewrites hlisten
  obtain ⟨hcontainers, hvolumes⟩ :=
    instanceSkeleton_parts Γ ctx { component.toResolvedRole with hugepages := hugepages } hnuma
  obtain ⟨composed, patched, overridden, networked, listening, hpasses⟩ := renderDeployment_passes hinstance.render
  have hinits := hinstance.skeleton.initContainers
  obtain ⟨hdvolumes, hdcontainers⟩ := hpasses.mounts hplain hinits
  have hcomposed := composeSidecars_plain hplain.sidecars hpasses.compose
  have hbase : b.pod.allContainers = b.pod.containers := by rw [PodSpec.allContainers, hinits, List.append_nil]
  refine ⟨hugepages, ?_, ?_, fun p hp => ?_, componentParts_apart hplain hsidecars hugepages⟩
  · rw [hdcontainers, PodSpec.allContainers, hcomposed.containers, hcomposed.initContainers, hinits, List.nil_append, ← hbase,
      List.map_append, hports.map_eq (by rintro c _ ⟨ports, rfl⟩; rfl), componentParts, List.map_append, ← hcontainers,
      nativeContainers, List.map_map, List.map_map]
    rfl
  · rw [hdvolumes, hcomposed.volumes, hports.volumes, componentParts, List.flatMap_append, ← hvolumes, nativeVolumes,
      List.flatMap_map]
    rfl
  · rcases List.mem_append.1 hp with hp | hp
    · exact roleParts_own p hp
    · obtain ⟨s, -, rfl⟩ := List.mem_map.1 hp
      exact nativePart_own s

/-- Every configuration of a role is either an inline text or a host path. -/
def OneSource (role : ResolvedRole) : Prop :=
  ∀ cs, role.config = some cs ∨ (∃ c ∈ role.containers, c.config = some cs) → cs.variantsSet = 1

/-- The ConfigMap a single container mounts. -/
theorem singleContainer_configMap (hone : OneSource role) {n : String} :
    (∃ v ∈ (singleContainer Γ ctx role).2, v.configMap = some n) ↔
      ∃ text, inlineOf role.config = some text ∧ n = inlineConfigMapName Γ ctx role text := by
  rw [(singleContainer_parts Γ ctx role).volumes, ← configVolumes_configMap fun cs hcs => hone cs (Or.inl hcs)]
  constructor
  · rintro ⟨v, hv, hn⟩
    rcases List.mem_append.1 hv with hv | hv
    · exact ⟨v, hv, hn⟩
    · rw [(hostVolumes_mem hv).2.1] at hn
      cases hn
  · rintro ⟨v, hv, hn⟩
    exact ⟨v, List.mem_append_left _ hv, hn⟩

/-- The parts of a role mount the ConfigMaps of its containers. -/
theorem roleParts_slot (hkind : role.kind ≠ .sidecar) (hone : OneSource role) {container n : String} :
    (∃ p ∈ roleParts Γ ctx role, p.1.name = container ∧ ∃ v ∈ p.2, v.configMap = some n) ↔
      ∃ text, RoleSlot Γ ctx role container n text := by
  unfold roleParts RoleSlot roleContainers configMapNameAt
  by_cases hoperator : role.kind = .operator
  · simp only [if_pos hoperator, List.mem_map, Prod.exists, List.getElem?_map, Option.map_eq_some_iff, Prod.mk.injEq]
    constructor
    · rintro ⟨p, volumes, ⟨c, i, hc, rfl, rfl⟩, rfl, hv⟩
      have hc := List.mem_zipIdx_iff_getElem?.1 hc
      have hsource : ∀ cs, c.config = some cs → cs.variantsSet = 1 := fun cs hcs =>
        hone cs (Or.inr ⟨c, List.mem_of_getElem? hc, hcs⟩)
      obtain ⟨text, htext, hn⟩ := (configVolumes_configMap hsource).1 hv
      exact ⟨text, i, c.config, ⟨c, hc, rfl, rfl⟩, htext, hn⟩
    · rintro ⟨text, i, source, ⟨c, hc, rfl, rfl⟩, htext, rfl⟩
      have hsource : ∀ cs, c.config = some cs → cs.variantsSet = 1 := fun cs hcs =>
        hone cs (Or.inr ⟨c, List.mem_of_getElem? hc, hcs⟩)
      exact ⟨_, _, ⟨c, i, List.mem_zipIdx_iff_getElem?.2 hc, rfl, rfl⟩, rfl,
        (configVolumes_configMap hsource).2 ⟨text, htext, rfl⟩⟩
  · simp only [if_neg hoperator, if_neg hkind, List.mem_singleton, exists_eq_left, singleContainer_configMap hone,
      (singleContainer_parts Γ ctx role).name]
    constructor
    · rintro ⟨rfl, text, htext, hn⟩
      exact ⟨text, 0, role.config, rfl, htext, hn⟩
    · rintro ⟨text, i, source, hi, htext, hn⟩
      cases List.mem_singleton.1 (List.mem_of_getElem? hi)
      exact ⟨rfl, text, htext, hn⟩

/-- A composed sidecar mounts the ConfigMap of its container. -/
theorem nativePart_slot {s : ResolvedRole} (hkind : s.kind = .sidecar) (hone : OneSource s) {container n : String} :
    ((nativePart Γ ctx s).1.name = container ∧ ∃ v ∈ (nativePart Γ ctx s).2, v.configMap = some n) ↔
      ∃ text, RoleSlot Γ ctx s container n text := by
  have hname : (nativePart Γ ctx s).1.name = scopedOperatorName Γ s.name s.name :=
    congrArg (scopedOperatorName Γ s.name) (sidecarContainer_name (Γ := Γ) hkind)
  have hvolumes : (∃ v ∈ (nativePart Γ ctx s).2, v.configMap = some n) ↔
      ∃ v ∈ (singleContainer Γ ctx s).2, v.configMap = some n := by
    simp only [nativePart, List.mem_map, exists_exists_and_eq_and]
    rfl
  unfold RoleSlot roleContainers configMapNameAt
  rw [hname, hvolumes, singleContainer_configMap hone]
  have hoperator : s.kind ≠ .operator := by simp [hkind]
  simp only [if_neg hoperator, if_pos hkind]
  constructor
  · rintro ⟨rfl, text, htext, hn⟩
    exact ⟨text, 0, s.config, rfl, htext, hn⟩
  · rintro ⟨text, i, source, hi, htext, hn⟩
    cases List.mem_singleton.1 (List.mem_of_getElem? hi)
    exact ⟨rfl, text, htext, hn⟩

/-- The parts of a component mount the ConfigMaps of the containers of its Pods. -/
theorem componentParts_slot (hplain : PlainComponent Γ component) (hkind : component.kind ≠ .sidecar)
    (hone : ∀ r ∈ hostedRoles component, OneSource r) {hugepages : Option Hugepages} {container n : String} :
    (∃ p ∈ componentParts Γ ctx component hugepages, p.1.name = container ∧ ∃ v ∈ p.2, v.configMap = some n) ↔
      ∃ text, Slot Γ ctx component container n text := by
  have hown : OneSource { component.toResolvedRole with hugepages := hugepages } := hone component.toResolvedRole (List.mem_cons_self ..)
  have hparts := @roleParts_slot Γ ctx { component.toResolvedRole with hugepages := hugepages } hkind hown container n
  unfold componentParts Slot hostedRoles
  constructor
  · rintro ⟨p, hp, hmounts⟩
    rcases List.mem_append.1 hp with hp | hp
    · obtain ⟨text, hslot⟩ := hparts.1 ⟨p, hp, hmounts⟩
      exact ⟨text, _, List.mem_cons_self .., hslot⟩
    · obtain ⟨s, hs, rfl⟩ := List.mem_map.1 hp
      have hsidecar := hplain.sidecars s (List.mem_filter.1 hs).1
      obtain ⟨text, hslot⟩ := (nativePart_slot hsidecar.kind (hone s (List.mem_cons_of_mem _ hs))).1 hmounts
      exact ⟨text, s, List.mem_cons_of_mem _ hs, hslot⟩
  · rintro ⟨text, r, hr, hslot⟩
    rcases List.mem_cons.1 hr with rfl | hs
    · obtain ⟨p, hp, hmounts⟩ := hparts.2 ⟨text, hslot⟩
      exact ⟨p, List.mem_append_left _ hp, hmounts⟩
    · have hsidecar := hplain.sidecars r (List.mem_filter.1 hs).1
      have hmounts := (nativePart_slot hsidecar.kind (hone r (List.mem_cons_of_mem _ hs))).2 ⟨text, hslot⟩
      exact ⟨nativePart Γ ctx r, List.mem_append_right _ (List.mem_map_of_mem hs), hmounts⟩

end

/-! ## Agreement -/

/-- A role without its patches. -/
def ResolvedRole.unpatched (role : ResolvedRole) : ResolvedRole := { role with patches := [] }

/-- A component without its patches, and without those of its sidecars. -/
def ResolvedComponent.unpatched (component : ResolvedComponent) : ResolvedComponent :=
  { component with patches := [], sidecars := component.sidecars.map ResolvedRole.unpatched }

/-- The inline texts of the containers in the Pods of a component, as they are declared. -/
def inlineTexts (Γ : Platform) (component : ResolvedComponent) : List (String × String) :=
  (hostedRoles component).flatMap fun role =>
    (roleContainers Γ role).filterMap fun c => (inlineOf c.2).map fun text => (c.1, text)

section

variable {Γ : Platform} {config : YanetConfigSpec} {yanet : YanetSpec} {component : ResolvedComponent} {ctx : BuildContext}

theorem hostedRoles_unpatched (component : ResolvedComponent) :
    hostedRoles component.unpatched = (hostedRoles component).map ResolvedRole.unpatched := by
  show _ :: (component.sidecars.map ResolvedRole.unpatched).filter _ = _
  rw [List.filter_map, hostedRoles, List.map_cons]
  rfl

/-- Patches have no part in the configurations. -/
theorem slot_unpatched {container configMap text : String} :
    Slot Γ ctx component.unpatched container configMap text ↔ Slot Γ ctx component container configMap text := by
  unfold Slot
  simp only [hostedRoles_unpatched, List.mem_map, exists_exists_and_eq_and]
  rfl

theorem Slot.mem_inlineTexts {container configMap text : String} (h : Slot Γ ctx component container configMap text) :
    (container, text) ∈ inlineTexts Γ component := by
  obtain ⟨role, hrole, i, source, hi, htext, -⟩ := h
  refine List.mem_flatMap.2 ⟨role, hrole, List.mem_filterMap.2 ⟨(container, source), List.mem_of_getElem? hi, ?_⟩⟩
  rw [htext, Option.map_some]

theorem Wired.plain (h : Wired Γ config yanet component) : PlainComponent Γ component.unpatched := by
  obtain ⟨box, -, hfields⟩ := resolveBoxComponent_fields h.resolve
  refine ⟨rfl, fun s hs => ?_, ?_⟩
  · obtain ⟨r, hr, rfl⟩ := List.mem_map.1 hs
    have hkind : r.kind = .sidecar := by simpa [ResolvedRole.isColocated] using sidecars_colocated h.resolved r hr
    exact ⟨hkind, (hfields r (List.mem_cons_of_mem _ hr)).hugepages (by simp [hkind]), rfl⟩
  · show ((component.sidecars.map ResolvedRole.unpatched).map _).Nodup
    rw [List.map_map]
    exact h.resolved.sidecar_keys

theorem Wired.oneSource (hconfig : validateYanetConfig Γ config = .ok ()) (h : Wired Γ config yanet component) :
    ∀ r ∈ hostedRoles component.unpatched, OneSource r := by
  intro r hr
  rw [hostedRoles_unpatched] at hr
  obtain ⟨role, hrole, rfl⟩ := List.mem_map.1 hr
  obtain ⟨box, hfields⟩ := h.fields hrole
  intro cs hcs
  obtain ⟨path, hpath⟩ := hfields.sources cs hcs
  exact (validateYanetConfig_palette hconfig).sources path cs hpath

/-- The ConfigMaps that the containers of a rendered Pod mount. -/
theorem mounts_iff {registry : PatchRegistry} {ds : List Deployment} (hconfig : validateYanetConfig Γ config = .ok ())
    (h : Wired Γ config yanet component) (hds : renderDeployments Γ ctx component.unpatched registry = .ok ds) {d : Deployment}
    (hd : d ∈ ds) :
    (∀ c ∈ d.pod.allContainers, ∀ n, Mounts d.pod c n → ∃ text, Slot Γ ctx component c.name n text) ∧
      ∀ container n text, Slot Γ ctx component container n text → ∃ c ∈ d.pod.allContainers, c.name = container ∧ Mounts d.pod c n := by
  have hkind : component.unpatched.kind ≠ .sidecar := h.1
  have hsidecars : component.unpatched.kind ≠ .dataplane → component.unpatched.sidecars = [] := by
    intro hne
    have has := resolveBoxComponent_ok h.resolve
    show component.sidecars.map ResolvedRole.unpatched = []
    rw [has.noSidecars hne, List.map_nil]
  obtain ⟨hugepages, hparts⟩ := rendered_parts h.plain h.resolved.dataplane_name hsidecars hds hd
  have hslot (container n : String) := @componentParts_slot Γ ctx component.unpatched h.plain hkind (h.oneSource hconfig) hugepages
    container n
  refine ⟨fun c hc n hmounts => ?_, fun container n text htext => ?_⟩
  · obtain ⟨p, hp, hname, hv⟩ := hparts.of_mounts hc hmounts
    obtain ⟨text, htext⟩ := (hslot c.name n).1 ⟨p, hp, hname, hv⟩
    exact ⟨text, slot_unpatched.1 htext⟩
  · obtain ⟨p, hp, rfl, v, hv, hn⟩ := (hslot container n).2 ⟨text, slot_unpatched.2 htext⟩
    exact hparts.mounts hp hv hn

/-- A component whose controlplane has a domain left is rendered to some Pod. -/
theorem rendered_ne_nil {registry : PatchRegistry} {ds : List Deployment} (h : Wired Γ config yanet component)
    (hnuma : ∀ cp, resolveBoxComponent Γ config yanet .controlplane "" = .ok (some cp) → enabledNuma cp.toResolvedRole ≠ [])
    (hds : renderDeployments Γ ctx component.unpatched registry = .ok ds) : ds ≠ [] := by
  obtain ⟨-, -, -, hlength, -⟩ := @renderDeployments_ok Γ ctx component.unpatched registry ds h.1 h.resolved.dataplane_name hds
  have hinstances : instances component.unpatched.toResolvedRole ≠ [] := by
    show (if component.kind = .controlplane then (enabledNuma component.toResolvedRole).map some else [none]) ≠ []
    split
    · next hkind =>
      have hresolve := h.resolve
      have hname := (resolveBoxComponent_ok hresolve).name
      rw [hkind] at hresolve hname
      rw [hname, ← resolveBoxComponent_roleName] at hresolve
      have hcp := hnuma component hresolve
      simpa using hcp
    · exact List.cons_ne_nil _ _
  rintro rfl
  exact hinstances (List.eq_nil_of_length_eq_zero hlength)

end

/-- Every mounted inline configuration is created, with the text its container declares. Whatever an admitted configuration names its
roles and containers: the ConfigMaps that the Pods of a component mount, rendered without patches, are those created for it; the
text created under a mounted name, for this or another component, is the one of the container that mounts it; a name belongs to
one container of one component; and nodes whose keys differ share no name. The instances of a controlplane are one declared
container. -/
theorem inlineConfigs_created (Γ : Platform) (config : YanetConfigSpec) (yanet : YanetSpec) (registry : PatchRegistry)
    (hconfig : validateYanetConfig Γ config = .ok ())
    (hnuma : ∀ cp, resolveBoxComponent Γ config yanet .controlplane "" = .ok (some cp) → enabledNuma cp.toResolvedRole ≠ []) :
    (∀ (ctx : BuildContext) (component : ResolvedComponent) (ds : List Deployment), Wired Γ config yanet component →
      renderDeployments Γ ctx component.unpatched registry = .ok ds →
      (∀ n : String, (∃ d ∈ ds, ∃ c ∈ d.pod.allContainers, Mounts d.pod c n) ↔ (inlineConfigMaps Γ ctx component)[n]? ≠ none) ∧
      (∀ d ∈ ds, ∀ c ∈ d.pod.allContainers, ∀ n : String, Mounts d.pod c n →
        ∃ text, (c.name, text) ∈ inlineTexts Γ component ∧ (inlineConfigMaps Γ ctx component)[n]? = some text ∧
          ∀ component', Wired Γ config yanet component' → ∀ text', (inlineConfigMaps Γ ctx component')[n]? = some text' →
            text' = text) ∧
      ∀ component' ds', Wired Γ config yanet component' → renderDeployments Γ ctx component'.unpatched registry = .ok ds' →
        ∀ d ∈ ds, ∀ c ∈ d.pod.allContainers, ∀ d' ∈ ds', ∀ c' ∈ d'.pod.allContainers, ∀ n, Mounts d.pod c n →
          Mounts d'.pod c' n → component = component' ∧ c.name = c'.name) ∧
    ∀ ctx ctx' : BuildContext, ctx.yanetName = ctx'.yanetName → ctx.nodeName ≠ "" → ctx'.nodeName ≠ "" →
      Γ.shortNodeKey ctx.nodeName ≠ Γ.shortNodeKey ctx'.nodeName →
      ∀ component component', Wired Γ config yanet component → Wired Γ config yanet component' →
        ∀ n : String, (inlineConfigMaps Γ ctx component)[n]? ≠ none → (inlineConfigMaps Γ ctx' component')[n]? = none := by
  refine ⟨fun ctx component ds h hds => ⟨fun n => ⟨?_, fun hkey => ?_⟩, fun d hd c hc n hmounts => ?_,
    fun component' ds' h' hds' d hd c hc d' hd' c' hc' n hmounts hmounts' => ?_⟩,
    fun ctx ctx' hyanet hnode hnode' hkeys component component' h h' n hkey => ?_⟩
  · rintro ⟨d, hd, c, hc, hmounts⟩
    obtain ⟨text, hslot⟩ := (mounts_iff hconfig h hds hd).1 c hc n hmounts
    rw [(getElem?_inlineConfigMaps hconfig h).2 ⟨_, hslot⟩]
    nofun
  · obtain ⟨text, htext⟩ := Option.ne_none_iff_exists'.1 hkey
    obtain ⟨container, hslot⟩ := (getElem?_inlineConfigMaps hconfig h).1 htext
    obtain ⟨d, hd⟩ := List.exists_mem_of_ne_nil ds (rendered_ne_nil h hnuma hds)
    obtain ⟨c, hc, -, hmounts⟩ := (mounts_iff hconfig h hds hd).2 container n text hslot
    exact ⟨d, hd, c, hc, hmounts⟩
  · obtain ⟨text, hslot⟩ := (mounts_iff hconfig h hds hd).1 c hc n hmounts
    refine ⟨text, hslot.mem_inlineTexts, (getElem?_inlineConfigMaps hconfig h).2 ⟨_, hslot⟩, fun component' h' text' htext' => ?_⟩
    obtain ⟨container', hslot'⟩ := (getElem?_inlineConfigMaps hconfig h').1 htext'
    exact (hslot.unique hconfig h h' hslot').2.2.symm
  · obtain ⟨text, hslot⟩ := (mounts_iff hconfig h hds hd).1 c hc n hmounts
    obtain ⟨text', hslot'⟩ := (mounts_iff hconfig h' hds' hd').1 c' hc' n hmounts'
    obtain ⟨hcomponent, hcontainer, -⟩ := hslot.unique hconfig h h' hslot'
    exact ⟨hcomponent, hcontainer⟩
  · obtain ⟨text, htext⟩ := Option.ne_none_iff_exists'.1 hkey
    obtain ⟨container, role, -, i, -, -, -, hname⟩ := (getElem?_inlineConfigMaps hconfig h).1 htext
    by_contra hkey'
    obtain ⟨text', htext'⟩ := Option.ne_none_iff_exists'.1 hkey'
    obtain ⟨container', role', -, i', -, -, -, hname'⟩ := (getElem?_inlineConfigMaps hconfig h').1 htext'
    exact configMapNameAt_apart hyanet hnode hnode' hkeys role role' i i' text text' (hname.symm.trans hname')

/-! ## A box with inline configurations -/

/-- The sample box, with one inline text in its sidecar and in both containers of its operator. -/
def inlineConfig : YanetConfigSpec :=
  { sampleConfig with components := { sampleConfig.components with
      dataplane :=
        { image := { name := "dataplane" }
          sidecars := [{ name := "telemetry", image := { name := "telemetry" }, config := some { inlineText := "level: info" } }] }
      operators :=
        [{ name := "route"
           containers :=
            [{ name := "route", image := { name := "route" }, config := some { inlineText := "level: info" } },
              { name := "agent", image := { name := "agent" }, config := some { inlineText := "level: info" } }] }] } }

/-- The dataplane of that box. -/
def inlineDataplane : ResolvedComponent :=
  { sampleDataplane with sidecars :=
      [{ kind := .sidecar, name := "telemetry", enabled := true
         image := { registry := "registry.example", name := "telemetry", tag := "1.0" }
         config := some { inlineText := "level: info" } }] }

/-- The sidecar mounts a ConfigMap that is created with its text. -/
theorem inlineDataplane_created :
    ∃ ds, renderDeployments samplePlatform sampleContext inlineDataplane.unpatched ∅ = .ok ds ∧
      ∃ d ∈ ds, ∃ c ∈ d.pod.allContainers, c.name = "op-16091175-telemetry" ∧ ∃ n : String, Mounts d.pod c n ∧
        (inlineConfigMaps samplePlatform sampleContext inlineDataplane)[n]? = some "level: info" := by
  have hconfig : validateYanetConfig samplePlatform inlineConfig = .ok () := by decide +kernel
  have hwired : Wired samplePlatform inlineConfig { boxType := "edge" } inlineDataplane :=
    ⟨by decide, .dataplane, "", by decide +kernel⟩
  have hok : ((renderDeployments samplePlatform sampleContext inlineDataplane.unpatched ∅).toOption.any fun _ => true) = true := by
    decide +kernel
  obtain ⟨ds, hds, -⟩ := exists_of_any hok
  obtain ⟨hkeys, hcontents, -⟩ := (inlineConfigs_created samplePlatform inlineConfig { boxType := "edge" } ∅ hconfig
    fun cp hcp => enabledNuma_ne_nil hconfig hcp rfl).1 sampleContext inlineDataplane ds hwired hds
  have hkey : (inlineConfigMaps samplePlatform sampleContext inlineDataplane)[
      inlineConfigMapName samplePlatform sampleContext { kind := .sidecar, name := "telemetry" } "level: info"]? ≠ none := by
    decide +kernel
  obtain ⟨d, hd, c, hc, hmounts⟩ := (hkeys _).2 hkey
  obtain ⟨text, htext, hcreated, -⟩ := hcontents d hd c hc _ hmounts
  have hone : ∀ p ∈ inlineTexts samplePlatform inlineDataplane, p = ("op-16091175-telemetry", "level: info") := by decide +kernel
  obtain ⟨hname, rfl⟩ := Prod.mk.injEq .. ▸ hone _ htext
  exact ⟨ds, hds, d, hd, c, hc, hname, _, hmounts, hcreated⟩

end YanetOperator
