import YanetOperator.Lemmas.Render
import YanetOperator.Lemmas.Services

/-!
# Ports of the listeners

Each listener of a role is a named port of one container of its Pod, and stays one through the passes that run after.
-/

namespace YanetOperator

open Check

/-- A container of that name has these ports. -/
def Declares (d : Deployment) (owner : String) (ports : List ContainerPort) : Prop :=
  ∃ c ∈ d.pod.allContainers, c.name = owner ∧ ∀ p ∈ ports, p ∈ c.ports

theorem allContainers_modifyContainer (d : Deployment) (name : String) (f : Container → Container) :
    (modifyContainer d name f).pod.allContainers = d.pod.allContainers.map fun c => if c.name = name then f c else c := by
  simp [modifyContainer, Deployment.withPod, PodSpec.mapContainers, PodSpec.allContainers, Deployment.pod]

theorem mem_modifyContainer {d : Deployment} {name : String} {f : Container → Container} {c : Container}
    (hc : c ∈ d.pod.allContainers) (hn : c.name = name) : f c ∈ (modifyContainer d name f).pod.allContainers := by
  rw [allContainers_modifyContainer]
  exact List.mem_map.2 ⟨c, hc, if_pos hn⟩

/-- A change of another container, or of something else than ports, keeps what a container declares. -/
theorem Declares.modify {d : Deployment} {owner name : String} {ports : List ContainerPort} {f : Container → Container}
    (h : Declares d owner ports) (hn : ∀ c, (f c).name = c.name) (hp : name = owner → ∀ c, (f c).ports = c.ports) :
    Declares (modifyContainer d name f) owner ports := by
  obtain ⟨c, hc, hco, hcp⟩ := h
  refine ⟨if c.name = name then f c else c, ?_, ?_, ?_⟩
  · rw [allContainers_modifyContainer]
    exact List.mem_map_of_mem hc
  · split
    · rw [hn, hco]
    · exact hco
  · intro p hpm
    split
    · next e =>
      rw [hp (e.symm.trans hco)]
      exact hcp p hpm
    · exact hcp p hpm

theorem configureRuntimeContainer_declares {Γ : Platform} {d d' : Deployment} {ctx : BuildContext} {component : ResolvedRole}
    {composed : Bool} {owner : String} {ports : List ContainerPort} (hd : Declares d owner ports)
    (h : configureRuntimeContainer Γ d ctx component composed = .ok d') : Declares d' owner ports := by
  obtain rfl | ⟨vars, -, rfl⟩ := configureRuntimeContainer_cases h
  · exact hd
  · exact hd.modify (fun _ => rfl) (fun _ _ => rfl)

theorem configureRuntimeNetwork_declares {Γ : Platform} {d d' : Deployment} {ctx : BuildContext}
    {component : ResolvedComponent} {owner : String} {ports : List ContainerPort} (hd : Declares d owner ports)
    (h : configureRuntimeNetwork Γ d ctx component = .ok d') : Declares d' owner ports := by
  unfold configureRuntimeNetwork at h
  obtain ⟨e, he, h⟩ := bind_eq_ok.1 h
  have hde : Declares e owner ports := by
    split at he
    · exact configureRuntimeContainer_declares hd he
    · cases he
      exact hd
  exact foldlM_inv (J := fun d => Declares d owner ports) h hde
    fun _ _ _ _ hb hx => configureRuntimeContainer_declares hb hx

/-- The listeners of a role, on the container that owns them. -/
def DeclaresListeners (Γ : Platform) (d : Deployment) (role : ResolvedRole) (composed : Bool) : Prop :=
  ∃ grpcPort httpPort, runtimePortPair role = .ok (grpcPort, httpPort) ∧
    Declares d (listenerOwner Γ role composed) ((listenerPorts Γ role).map (listenerContainerPort grpcPort httpPort))

/-- Roles with one core have one set of listeners. -/
theorem DeclaresListeners.of_core {Γ : Platform} {d : Deployment} {r r' : ResolvedRole} {composed : Bool}
    (h : DeclaresListeners Γ d r composed) (hc : r.core = r'.core) : DeclaresListeners Γ d r' composed := by
  unfold DeclaresListeners at h ⊢
  rwa [← runtimePortPair_core, ← listenerOwner_core, ← listenerPorts_core, ← hc, runtimePortPair_core, listenerOwner_core,
    listenerPorts_core]

theorem configureComponentListeners_declares {Γ : Platform} {d d' : Deployment} {role : ResolvedRole} {composed : Bool}
    (hl : listenerPorts Γ role ≠ []) (h : configureComponentListeners Γ d role composed = .ok d') :
    DeclaresListeners Γ d' role composed := by
  rcases configureComponentListeners_ok h with ⟨hn, -⟩ | ⟨-, c, g, t, hc, hp, -, rfl⟩
  · exact absurd hn hl
  · refine ⟨g, t, hp, ?_⟩
    have hfound : c ∈ d.pod.allContainers ∧ c.name = listenerOwner Γ role composed := by
      unfold findContainer at hc
      split at hc
      · cases hc
      · next found hf =>
        cases hc
        have : c ∈ d.pod.allContainers.filter (·.name == listenerOwner Γ role composed) := by
          rw [hf]
          exact List.mem_singleton_self c
        simpa using List.mem_filter.1 this
      · cases hc
    exact ⟨_, mem_modifyContainer hfound.1 hfound.2, hfound.2, fun p hpm => List.mem_append_left _ hpm⟩

/-- The listeners of one role leave those of a role with another container. -/
theorem configureComponentListeners_keeps {Γ : Platform} {d d' : Deployment} {role : ResolvedRole} {composed : Bool}
    {owner : String} {ports : List ContainerPort} (hne : listenerOwner Γ role composed ≠ owner) (hd : Declares d owner ports)
    (h : configureComponentListeners Γ d role composed = .ok d') : Declares d' owner ports := by
  rcases configureComponentListeners_ok h with ⟨-, rfl⟩ | ⟨-, c, g, t, -, -, -, rfl⟩
  · exact hd
  · exact hd.modify (fun _ => rfl) (fun e => absurd e hne)

theorem configureSidecarListeners_keeps {Γ : Platform} {d d' : Deployment} {sidecar other : ResolvedRole}
    {ports : List ContainerPort} (hne : Γ.shortNodeKey sidecar.name ≠ Γ.shortNodeKey other.name)
    (hd : Declares d (listenerOwner Γ other true) ports) (h : configureSidecarListeners Γ d sidecar = .ok d') :
    Declares d' (listenerOwner Γ other true) ports := by
  unfold configureSidecarListeners at h
  obtain ⟨-, h⟩ := seq_ok.1 h
  split at h
  · refine configureComponentListeners_keeps ?_ hd h
    intro e
    exact hne (shortNodeKey_eq_of_scoped e)
  · cases h
    exact hd

/-- The loop over the sidecars: every enabled one with listeners declares them at the end. -/
theorem configureSidecars_declares {Γ : Platform} {d d' : Deployment} {sidecars : List ResolvedRole} {s : ResolvedRole}
    (hkeys : (sidecars.map fun r => Γ.shortNodeKey r.name).Nodup) (hs : s ∈ sidecars) (he : s.enabled = true)
    (hl : listenerPorts Γ s ≠ []) (h : sidecars.foldlM (configureSidecarListeners Γ) d = .ok d') :
    DeclaresListeners Γ d' s true := by
  induction sidecars generalizing d with
  | nil => cases hs
  | cons x rest ih =>
    rw [List.foldlM_cons] at h
    obtain ⟨e, hx, hrest⟩ := bind_eq_ok.1 h
    rw [List.map_cons, List.nodup_cons] at hkeys
    rcases List.mem_cons.1 hs with rfl | hs
    · unfold configureSidecarListeners at hx
      obtain ⟨-, hx⟩ := seq_ok.1 hx
      rw [if_pos he] at hx
      obtain ⟨g, t, hp, hd⟩ := configureComponentListeners_declares hl hx
      -- the rest of the loop works on containers with other keys
      refine ⟨g, t, hp, foldlM_inv (J := fun d => Declares d _ _) hrest hd ?_⟩
      intro y hy b b' hb hstep
      exact configureSidecarListeners_keeps (fun e => hkeys.1 (List.mem_map.2 ⟨y, hy, e⟩)) hb hstep
    · exact ih hkeys.2 hs hrest

/-- A rendered Deployment of a role of its own declares its listeners. -/
theorem renderDeployment_declares {Γ : Platform} {ctx : BuildContext} {component : ResolvedComponent}
    {registry : PatchRegistry} {b d : Deployment} (hs : component.sidecars = [])
    (hl : listenerPorts Γ component.toResolvedRole ≠ []) (h : renderDeployment Γ ctx component registry b = .ok d) :
    DeclaresListeners Γ d component.toResolvedRole false := by
  unfold renderDeployment at h
  obtain ⟨c, -, h⟩ := bind_eq_ok.1 h
  obtain ⟨p, -, h⟩ := bind_eq_ok.1 h
  obtain ⟨-, h⟩ := seq_ok.1 h
  obtain ⟨l, hcl, h⟩ := bind_eq_ok.1 h
  obtain ⟨r, hr, h⟩ := bind_eq_ok.1 h
  obtain ⟨-, h⟩ := seq_ok.1 h
  obtain ⟨-, h⟩ := seq_ok.1 h
  cases h
  unfold configureListeners at hcl
  obtain ⟨e, he, hcl⟩ := bind_eq_ok.1 hcl
  rw [hs] at hcl
  cases hcl
  obtain ⟨g, t, hp, hd⟩ := configureComponentListeners_declares hl he
  exact ⟨g, t, hp, configureRuntimeNetwork_declares hd hr⟩

/-- A rendered dataplane declares the listeners of its enabled sidecars. -/
theorem renderDeployment_declares_sidecar {Γ : Platform} {ctx : BuildContext} {component : ResolvedComponent}
    {registry : PatchRegistry} {b d : Deployment} {s : ResolvedRole}
    (hkeys : (component.sidecars.map fun r => Γ.shortNodeKey r.name).Nodup) (hs : s ∈ component.sidecars)
    (he : s.enabled = true) (hl : listenerPorts Γ s ≠ []) (h : renderDeployment Γ ctx component registry b = .ok d) :
    DeclaresListeners Γ d s true := by
  unfold renderDeployment at h
  obtain ⟨c, -, h⟩ := bind_eq_ok.1 h
  obtain ⟨p, -, h⟩ := bind_eq_ok.1 h
  obtain ⟨-, h⟩ := seq_ok.1 h
  obtain ⟨l, hcl, h⟩ := bind_eq_ok.1 h
  obtain ⟨r, hr, h⟩ := bind_eq_ok.1 h
  obtain ⟨-, h⟩ := seq_ok.1 h
  obtain ⟨-, h⟩ := seq_ok.1 h
  cases h
  unfold configureListeners at hcl
  obtain ⟨e, -, hcl⟩ := bind_eq_ok.1 hcl
  obtain ⟨g, t, hp, hd⟩ := configureSidecars_declares hkeys hs he hl hcl
  exact ⟨g, t, hp, configureRuntimeNetwork_declares hd hr⟩

/-- Where port names are unique, a nonempty one belongs to one port of one container. -/
theorem portNames_unique {cs : List Container} (h : (portNames cs).Nodup) {c c' : Container} {p p' : ContainerPort}
    (hc : c ∈ cs) (hc' : c' ∈ cs) (hp : p ∈ c.ports) (hp' : p' ∈ c'.ports) (hn : p'.name = p.name) (hne : p.name ≠ "") :
    c' = c ∧ p' = p := by
  induction cs with
  | nil => cases hc
  | cons x xs ih =>
    have hmem : ∀ {x : Container} {q : ContainerPort}, q ∈ x.ports → q.name = p.name →
        p.name ∈ (x.ports.map (·.name)).filter (· ≠ "") := by
      intro x q hq e
      exact List.mem_filter.2 ⟨e ▸ List.mem_map_of_mem hq, by simpa using hne⟩
    have hrest : ∀ {x : Container} {q : ContainerPort}, x ∈ xs → q ∈ x.ports → q.name = p.name → p.name ∈ portNames xs := by
      intro x q hx hq e
      refine List.mem_filter.2 ⟨List.mem_map.2 ⟨q, List.mem_flatMap.2 ⟨x, hx, hq⟩, e⟩, by simpa using hne⟩
    rw [portNames_cons, List.nodup_append] at h
    obtain ⟨h1, h2, h3⟩ := h
    rcases List.mem_cons.1 hc with rfl | hx <;> rcases List.mem_cons.1 hc' with rfl | hx'
    · refine ⟨rfl, ?_⟩
      have hfilter : (c'.ports.map (·.name)).filter (· ≠ "") = (c'.ports.filter (·.name ≠ "")).map (·.name) := by
        rw [List.filter_map]
        rfl
      rw [hfilter] at h1
      exact List.inj_on_of_nodup_map h1 (List.mem_filter.2 ⟨hp', by simpa [hn] using hne⟩)
        (List.mem_filter.2 ⟨hp, by simpa using hne⟩) hn
    · exact absurd rfl (h3 _ (hmem hp rfl) _ (hrest hx' hp' hn))
    · exact absurd rfl (h3 _ (hmem hp' hn) _ (hrest hx hp rfl))
    · exact ih h2 hx hx'

end YanetOperator
