import YanetOperator.Manifests.Render

/-!
# What the passes over a Pod leave alone

The passes that run after the identity of a Deployment is restored change ports, environment, images, resources and annotations
of its Pod. `SameShape` names what they keep: the metadata of the Deployment, its selector and strategy, the labels and the
placement of its Pods, and the name and restart policy of every container.
-/

namespace YanetOperator

open Check

/-- The part of a container that the identity of a Pod is about. -/
def Container.shape (c : Container) : String × Option String := (c.name, c.restartPolicy)

/-- Two Deployments that differ at most in what the passes over a Pod may change. -/
structure SameShape (d d' : Deployment) : Prop where
  metadata : d'.metadata = d.metadata
  selector : d'.spec.selector = d.spec.selector
  strategy : d'.spec.strategy = d.spec.strategy
  labels : d'.spec.template.labels = d.spec.template.labels
  nodeName : d'.pod.nodeName = d.pod.nodeName
  nodeSelector : d'.pod.nodeSelector = d.pod.nodeSelector
  containers : d'.pod.containers.map Container.shape = d.pod.containers.map Container.shape
  initContainers : d'.pod.initContainers.map Container.shape = d.pod.initContainers.map Container.shape

theorem SameShape.refl (d : Deployment) : SameShape d d := ⟨rfl, rfl, rfl, rfl, rfl, rfl, rfl, rfl⟩

theorem SameShape.trans {a b c : Deployment} (h : SameShape a b) (h' : SameShape b c) : SameShape a c :=
  ⟨h'.metadata.trans h.metadata, h'.selector.trans h.selector, h'.strategy.trans h.strategy, h'.labels.trans h.labels,
    h'.nodeName.trans h.nodeName, h'.nodeSelector.trans h.nodeSelector, h'.containers.trans h.containers,
    h'.initContainers.trans h.initContainers⟩

/-- A change of containers that keeps names and restart policies keeps the shape. -/
theorem map_shape {f : Container → Container} (hf : ∀ c, (f c).shape = c.shape) (cs : List Container) :
    (cs.map f).map Container.shape = cs.map Container.shape := by
  rw [List.map_map]
  exact List.map_congr_left fun c _ => hf c

theorem modifyContainer_sameShape {f : Container → Container} (hf : ∀ c, (f c).shape = c.shape) (d : Deployment)
    (name : String) : SameShape d (modifyContainer d name f) := by
  have hg : ∀ c : Container, (if c.name = name then f c else c).shape = c.shape := by
    intro c
    split
    · exact hf c
    · rfl
  exact ⟨rfl, rfl, rfl, rfl, rfl, rfl, map_shape hg _, map_shape hg _⟩

/-- The invariant rule for a loop of passes. -/
theorem foldlM_sameShape {ι : Type} {f : Deployment → ι → Except String Deployment} {xs : List ι} {d d' : Deployment}
    (h : xs.foldlM f d = .ok d') (hf : ∀ d x d', f d x = .ok d' → SameShape d d') : SameShape d d' :=
  foldlM_inv (J := SameShape d) h (SameShape.refl d) fun x _ b b' hb hx => hb.trans (hf b x b' hx)

/-! ## Listeners -/

/-- What a configured role means: it has no listeners, or its owner was found, its port names are free, and they are asserted on
the owner. -/
theorem configureComponentListeners_ok {Γ : Platform} {d d' : Deployment} {component : ResolvedRole} {composed : Bool}
    (h : configureComponentListeners Γ d component composed = .ok d') :
    (listenerPorts Γ component = [] ∧ d' = d) ∨
    (listenerPorts Γ component ≠ [] ∧ ∃ c grpcPort httpPort, findContainer d (listenerOwner Γ component composed) = .ok c ∧
      runtimePortPair component = .ok (grpcPort, httpPort) ∧
      (∀ l ∈ listenerPorts Γ component,
        validatePortNameOwner d (listenerOwner Γ component composed) (listenerTargetPortName l) = .ok ()) ∧
      d' = modifyContainer d (listenerOwner Γ component composed) fun c =>
        { c with ports := assertPorts ((listenerPorts Γ component).map (listenerContainerPort grpcPort httpPort)) c.ports }) := by
  unfold configureComponentListeners at h
  dsimp only at h
  split at h
  · next hl =>
    cases h
    exact Or.inl ⟨hl, rfl⟩
  · next hl =>
    obtain ⟨c, hc, h⟩ := bind_eq_ok.1 h
    obtain ⟨⟨g, t⟩, hp, h⟩ := bind_eq_ok.1 h
    obtain ⟨hv, h⟩ := seq_ok.1 h
    cases h
    exact Or.inr ⟨hl, c, g, t, hc, hp, forM_ok.1 hv, rfl⟩

theorem configureComponentListeners_sameShape {Γ : Platform} {d d' : Deployment} {component : ResolvedRole} {composed : Bool}
    (h : configureComponentListeners Γ d component composed = .ok d') : SameShape d d' := by
  rcases configureComponentListeners_ok h with ⟨-, rfl⟩ | ⟨-, c, g, t, -, -, -, rfl⟩
  · exact SameShape.refl d'
  · refine modifyContainer_sameShape ?_ d _
    intro c
    rfl

theorem configureSidecarListeners_sameShape {Γ : Platform} {d d' : Deployment} {sidecar : ResolvedRole}
    (h : configureSidecarListeners Γ d sidecar = .ok d') : SameShape d d' := by
  unfold configureSidecarListeners at h
  obtain ⟨-, h⟩ := seq_ok.1 h
  split at h
  · exact configureComponentListeners_sameShape h
  · cases h
    exact SameShape.refl d

theorem configureListeners_sameShape {Γ : Platform} {d d' : Deployment} {component : ResolvedComponent}
    (h : configureListeners Γ d component = .ok d') : SameShape d d' := by
  obtain ⟨e, he, h⟩ := bind_eq_ok.1 h
  exact (configureComponentListeners_sameShape he).trans
    (foldlM_sameShape h fun _ _ _ hs => configureSidecarListeners_sameShape hs)

/-! ## Runtime endpoints -/

theorem runtimeVariables_plain {Γ : Platform} {ctx : BuildContext} {component : ResolvedRole} {grpcPort httpPort : Int} :
    ∀ v ∈ runtimeVariables Γ ctx component grpcPort httpPort, v.valueFrom = none := by
  intro v hv
  unfold runtimeVariables at hv
  dsimp only at hv
  split at hv
  · simp only [List.mem_cons, List.not_mem_nil, or_false] at hv
    rcases hv with rfl | rfl <;> rfl
  · simp only [List.mem_cons, List.not_mem_nil, or_false] at hv
    rcases hv with rfl | rfl <;> rfl
  · simp only [List.mem_append, List.mem_singleton, List.mem_map] at hv
    rcases hv with (rfl | ⟨_, _, rfl⟩) | ⟨_, _, rfl⟩ <;> rfl

/-- What the runtime endpoints of a role do to a Deployment: nothing, or they set variables of one container. -/
theorem configureRuntimeContainer_cases {Γ : Platform} {d d' : Deployment} {ctx : BuildContext} {component : ResolvedRole}
    {composed : Bool} (h : configureRuntimeContainer Γ d ctx component composed = .ok d') :
    d' = d ∨ ∃ vars : List EnvVar, (∀ v ∈ vars, v.valueFrom = none) ∧
      d' = modifyContainer d (listenerOwner Γ component composed) fun c =>
        { c with env := vars ++ c.env.filter fun v => v.name ∉ vars.map (·.name) } := by
  unfold configureRuntimeContainer at h
  obtain ⟨⟨configName, source⟩, -, h⟩ := bind_eq_ok.1 h
  dsimp only at h
  by_cases hz : ConfigSource.isZero source = true
  · rw [if_pos hz] at h
    cases h
    exact Or.inl rfl
  · rw [if_neg hz] at h
    obtain ⟨c, -, h⟩ := bind_eq_ok.1 h
    generalize (if composed = true then scopedOperatorName Γ component.name configName else configName) = volume at h
    split at h
    · cases h
      exact Or.inl rfl
    · obtain ⟨⟨g, t⟩, -, h⟩ := bind_eq_ok.1 h
      cases h
      exact Or.inr ⟨_, runtimeVariables_plain, rfl⟩

theorem configureRuntimeContainer_sameShape {Γ : Platform} {d d' : Deployment} {ctx : BuildContext} {component : ResolvedRole}
    {composed : Bool} (h : configureRuntimeContainer Γ d ctx component composed = .ok d') : SameShape d d' := by
  obtain rfl | ⟨vars, -, rfl⟩ := configureRuntimeContainer_cases h
  · exact SameShape.refl d'
  · refine modifyContainer_sameShape ?_ d _
    intro c
    rfl

theorem configureRuntimeNetwork_sameShape {Γ : Platform} {d d' : Deployment} {ctx : BuildContext}
    {component : ResolvedComponent} (h : configureRuntimeNetwork Γ d ctx component = .ok d') : SameShape d d' := by
  unfold configureRuntimeNetwork at h
  obtain ⟨e, he, h⟩ := bind_eq_ok.1 h
  have hde : SameShape d e := by
    split at he
    · exact configureRuntimeContainer_sameShape he
    · cases he
      exact SameShape.refl d
  exact hde.trans (foldlM_sameShape h fun _ _ _ hs => configureRuntimeContainer_sameShape hs)

/-! ## Typed networks -/

theorem modifyHead_shape {f : Container → Container} (hf : ∀ c, (f c).shape = c.shape) (cs : List Container) :
    (cs.modifyHead f).map Container.shape = cs.map Container.shape := by
  cases cs with
  | nil => rfl
  | cons c cs => simp [List.modifyHead, hf]

/-- A Deployment whose first container asks for devices, with the selection of its networks. -/
def Deployment.withDevices (d : Deployment) (payload : String) (counts : ResourceList) : Deployment :=
  { d with spec := { d.spec with template := { d.spec.template with
    annotations := d.spec.template.annotations.insert multusNetworksAnnotation payload
    spec := { d.pod with
      containers := d.pod.containers.modifyHead fun c =>
        { c with resources :=
            { requests := c.resources.requests.override counts, limits := c.resources.limits.override counts } } } } } }

theorem configureDataplaneNetworks_cases {Γ : Platform} {d d' : Deployment} {component : ResolvedRole}
    (h : configureDataplaneNetworks Γ d component = .ok d') : d' = d ∨ ∃ payload counts, d' = d.withDevices payload counts := by
  unfold configureDataplaneNetworks at h
  split at h
  · cases h
    exact Or.inl rfl
  · obtain ⟨-, h⟩ := seq_ok.1 h
    obtain ⟨-, h⟩ := seq_ok.1 h
    obtain ⟨-, h⟩ := seq_ok.1 h
    split at h
    · cases h
      exact Or.inl rfl
    · cases h
      exact Or.inr ⟨_, _, rfl⟩

theorem configureDataplaneNetworks_sameShape {Γ : Platform} {d d' : Deployment} {component : ResolvedRole}
    (h : configureDataplaneNetworks Γ d component = .ok d') : SameShape d d' := by
  obtain rfl | ⟨payload, counts, rfl⟩ := configureDataplaneNetworks_cases h
  · exact SameShape.refl d'
  · refine ⟨rfl, rfl, rfl, rfl, rfl, rfl, modifyHead_shape ?_ d.pod.containers, rfl⟩
    intro c
    rfl

end YanetOperator
