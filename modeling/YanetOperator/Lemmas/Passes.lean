import YanetOperator.Lemmas.Overrides

/-!
# What the last passes over a Pod change

The listeners change the ports of containers and the runtime endpoints change their environment. `Rewrites` says so once for a
whole Deployment: every container is changed in an allowed way, and nothing else is.
-/

namespace YanetOperator

open Check

/-- Two Deployments that differ in their containers only, and in each as `K` allows. -/
def Rewrites (K : Container → Container → Prop) (d d' : Deployment) : Prop :=
  ∃ g : Container → Container, (∀ c, K c (g c)) ∧ d' = d.mapContainers g

/-- A container that got other ports. -/
def PortsOnly (c c' : Container) : Prop := ∃ ports, c' = { c with ports := ports }

/-- A container that got another environment. -/
def EnvOnly (c c' : Container) : Prop := ∃ env, c' = { c with env := env }

instance : Std.Refl PortsOnly := ⟨fun c => ⟨c.ports, rfl⟩⟩

instance : IsTrans Container PortsOnly where
  trans := by
    rintro a b c ⟨ports, rfl⟩ ⟨ports', rfl⟩
    exact ⟨ports', rfl⟩

instance : Std.Refl EnvOnly := ⟨fun c => ⟨c.env, rfl⟩⟩

instance : IsTrans Container EnvOnly where
  trans := by
    rintro a b c ⟨env, rfl⟩ ⟨env', rfl⟩
    exact ⟨env', rfl⟩

section

variable {K : Container → Container → Prop}

theorem Rewrites.refl [Std.Refl K] (d : Deployment) : Rewrites K d d :=
  ⟨id, fun c => refl_of K c, (mapContainers_id d).symm⟩

theorem Rewrites.trans [IsTrans Container K] {a b c : Deployment} (h : Rewrites K a b) (h' : Rewrites K b c) : Rewrites K a c := by
  obtain ⟨g, hg, rfl⟩ := h
  obtain ⟨g', hg', rfl⟩ := h'
  exact ⟨g' ∘ g, fun c => trans_of K (hg c) (hg' (g c)), mapContainers_mapContainers a g g'⟩

theorem rewrites_modifyContainer [Std.Refl K] {f : Container → Container} (hf : ∀ c, K c (f c)) (d : Deployment) (name : String) :
    Rewrites K d (modifyContainer d name f) := by
  refine ⟨_, fun c => ?_, modifyContainer_eq d name f⟩
  split
  · exact hf c
  · exact refl_of K c

/-- The invariant rule for a loop of passes. -/
theorem foldlM_rewrites [Std.Refl K] [IsTrans Container K] {ι : Type} {f : Deployment → ι → Except String Deployment} {xs : List ι}
    {d d' : Deployment} (h : xs.foldlM f d = .ok d') (hf : ∀ d x d', f d x = .ok d' → Rewrites K d d') : Rewrites K d d' :=
  foldlM_inv (J := Rewrites K d) h (Rewrites.refl d) fun x _ b b' hb hx => hb.trans (hf b x b' hx)

/-- What no container changes, the Deployment does not change. -/
theorem Rewrites.map_eq {α : Type} {p : Container → α} (hp : ∀ c c', K c c' → p c' = p c) {d d' : Deployment}
    (h : Rewrites K d d') : d'.pod.allContainers.map p = d.pod.allContainers.map p := by
  obtain ⟨g, hg, rfl⟩ := h
  rw [allContainers_mapContainers, List.map_map]
  exact List.map_congr_left fun c _ => hp c (g c) (hg c)

theorem Rewrites.replicas {d d' : Deployment} (h : Rewrites K d d') : d'.spec.replicas = d.spec.replicas := by
  obtain ⟨g, -, rfl⟩ := h
  rfl

theorem Rewrites.volumes {d d' : Deployment} (h : Rewrites K d d') : d'.pod.volumes = d.pod.volumes := by
  obtain ⟨g, -, rfl⟩ := h
  rfl

end

/-! ## Listeners -/

theorem configureComponentListeners_rewrites {Γ : Platform} {d d' : Deployment} {component : ResolvedRole} {composed : Bool}
    (h : configureComponentListeners Γ d component composed = .ok d') : Rewrites PortsOnly d d' := by
  rcases configureComponentListeners_ok h with ⟨-, rfl⟩ | ⟨-, c, g, t, -, -, -, rfl⟩
  · exact Rewrites.refl d'
  · exact rewrites_modifyContainer (fun c => ⟨_, rfl⟩) d _

theorem configureListeners_rewrites {Γ : Platform} {d d' : Deployment} {component : ResolvedComponent}
    (h : configureListeners Γ d component = .ok d') : Rewrites PortsOnly d d' := by
  obtain ⟨e, he, h⟩ := bind_eq_ok.1 h
  refine (configureComponentListeners_rewrites he).trans (foldlM_rewrites h fun d s d' hs => ?_)
  obtain ⟨-, hs⟩ := seq_ok.1 hs
  split at hs
  · exact configureComponentListeners_rewrites hs
  · cases hs
    exact Rewrites.refl d

/-! ## Runtime endpoints -/

theorem configureRuntimeContainer_rewrites {Γ : Platform} {d d' : Deployment} {ctx : BuildContext} {component : ResolvedRole}
    {composed : Bool} (h : configureRuntimeContainer Γ d ctx component composed = .ok d') : Rewrites EnvOnly d d' := by
  obtain rfl | ⟨vars, -, rfl⟩ := configureRuntimeContainer_cases h
  · exact Rewrites.refl d'
  · exact rewrites_modifyContainer (fun c => ⟨_, rfl⟩) d _

theorem configureRuntimeNetwork_rewrites {Γ : Platform} {d d' : Deployment} {ctx : BuildContext}
    {component : ResolvedComponent} (h : configureRuntimeNetwork Γ d ctx component = .ok d') : Rewrites EnvOnly d d' := by
  unfold configureRuntimeNetwork at h
  obtain ⟨e, he, h⟩ := bind_eq_ok.1 h
  have hde : Rewrites EnvOnly d e := by
    split at he
    · exact configureRuntimeContainer_rewrites he
    · cases he
      exact Rewrites.refl d
  exact hde.trans (foldlM_rewrites h fun _ _ _ hs => configureRuntimeContainer_rewrites hs)

/-! ## One Deployment -/

/-- The intermediate Deployments of a rendering: composed with its sidecars, patched, overridden by its installation, given its
networks, and given its listeners. -/
structure Passes (Γ : Platform) (ctx : BuildContext) (component : ResolvedComponent) (registry : PatchRegistry)
    (b composed patched overridden networked listening d : Deployment) : Prop where
  compose : component.sidecars.foldlM (composeSidecar Γ ctx registry) b = .ok composed
  patch : applyPatches Γ composed component.patches registry = .ok patched
  override : applyInstallationOverrides Γ patched composed component = .ok overridden
  network : (if component.kind = .dataplane then
      configureDataplaneNetworks Γ (restoreWorkloadIdentity overridden (captureWorkloadIdentity composed)) component.toResolvedRole
    else .ok (restoreWorkloadIdentity overridden (captureWorkloadIdentity composed))) = .ok networked
  patchAll : patchDeployment Γ component registry composed = .ok networked
  listen : configureListeners Γ networked component = .ok listening
  runtime : configureRuntimeNetwork Γ listening ctx component = .ok d
  valid : validateComposedPod d = .ok ()

theorem renderDeployment_passes {Γ : Platform} {ctx : BuildContext} {component : ResolvedComponent} {registry : PatchRegistry}
    {b d : Deployment} (h : renderDeployment Γ ctx component registry b = .ok d) :
    ∃ composed patched overridden networked listening,
      Passes Γ ctx component registry b composed patched overridden networked listening d := by
  unfold renderDeployment at h
  obtain ⟨composed, hcompose, h⟩ := bind_eq_ok.1 h
  obtain ⟨networked, hpatchAll, h⟩ := bind_eq_ok.1 h
  obtain ⟨-, h⟩ := seq_ok.1 h
  obtain ⟨listening, hlisten, h⟩ := bind_eq_ok.1 h
  obtain ⟨d', hruntime, h⟩ := bind_eq_ok.1 h
  obtain ⟨hvalid, h⟩ := seq_ok.1 h
  obtain ⟨-, h⟩ := seq_ok.1 h
  cases h
  have hpatch := hpatchAll
  unfold patchDeployment at hpatch
  obtain ⟨patched, hpatched, hpatch⟩ := bind_eq_ok.1 hpatch
  obtain ⟨overridden, hoverride, hpatch⟩ := bind_eq_ok.1 hpatch
  obtain ⟨-, hpatch⟩ := seq_ok.1 hpatch
  exact ⟨composed, patched, overridden, networked, listening, hcompose, hpatched, hoverride, hpatch, hpatchAll, hlisten, hruntime,
    hvalid⟩

/-- The name and the image of a container. -/
def Container.face (c : Container) : String × String := (c.name, c.image)

theorem setImages_name (images : List (String × String)) (c : Container) : (setImages images c).name = c.name := by
  rw [setImages_eq]

/-- The name and the image of a container after the overrides. -/
theorem overriddenContainer_face (Γ : Platform) (component : ResolvedComponent) (unpatched : Deployment) (c : Container) :
    (overriddenContainer Γ component unpatched c).face = (c.name, (setImages (imageOverrides Γ component) c).image) := by
  have hkeep (original : Option ResourceRequirements) (c : Container) : (restoreContainerHugepages original c).face = c.face := by
    unfold restoreContainerHugepages
    split
    · rfl
    · split <;> rfl
  rw [overriddenContainer, hkeep, Container.face, setImages_name]

theorem configureDataplaneNetworks_faces {Γ : Platform} {d d' : Deployment} {component : ResolvedRole}
    (h : configureDataplaneNetworks Γ d component = .ok d') :
    d'.pod.allContainers.map Container.face = d.pod.allContainers.map Container.face ∧ d'.spec.replicas = d.spec.replicas := by
  obtain rfl | ⟨payload, counts, rfl⟩ := configureDataplaneNetworks_cases h
  · exact ⟨rfl, rfl⟩
  · refine ⟨?_, rfl⟩
    simp only [PodSpec.allContainers, Deployment.pod, Deployment.withDevices, List.map_append, List.append_left_inj]
    cases d.spec.template.spec.containers with
    | nil => rfl
    | cons c cs => rfl

/-- The passes after the overrides keep the name and the image of every container, and the replicas. -/
theorem Passes.faces {Γ : Platform} {ctx : BuildContext} {component : ResolvedComponent} {registry : PatchRegistry}
    {b composed patched overridden networked listening d : Deployment}
    (h : Passes Γ ctx component registry b composed patched overridden networked listening d) :
    d.pod.allContainers.map Container.face =
        (restoreWorkloadIdentity overridden (captureWorkloadIdentity composed)).pod.allContainers.map Container.face ∧
      d.spec.replicas = overridden.spec.replicas := by
  have hruntime := configureRuntimeNetwork_rewrites h.runtime
  have hlisten := configureListeners_rewrites h.listen
  have hnetwork : networked.pod.allContainers.map Container.face =
        (restoreWorkloadIdentity overridden (captureWorkloadIdentity composed)).pod.allContainers.map Container.face ∧
      networked.spec.replicas = overridden.spec.replicas := by
    have hn := h.network
    split at hn
    · exact configureDataplaneNetworks_faces hn
    · cases hn
      exact ⟨rfl, rfl⟩
  refine ⟨?_, ?_⟩
  · rw [hruntime.map_eq (by rintro c _ ⟨env, rfl⟩; rfl), hlisten.map_eq (by rintro c _ ⟨ports, rfl⟩; rfl), hnetwork.1]
  · rw [hruntime.replicas, hlisten.replicas, hnetwork.2]

end YanetOperator
