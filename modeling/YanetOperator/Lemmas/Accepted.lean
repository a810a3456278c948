import YanetOperator.Lemmas.Unpatched
import YanetOperator.Theorems.PodPorts

/-!
# What the checks of a Pod accept

A Pod of containers that refer to its own volumes only, whose ports are those of the listeners of roles, passes
`ValidateComposedPod`. The parts say what is needed of each container and volume, of the containers that own listeners, and of the
ports of the roles.
-/

namespace YanetOperator

open Check

/-! ## Containers and volumes -/

/-- A container that refers to volumes of its Pod only, without devices, probes, hooks or references in its environment. -/
structure PlainContainer (volumes : List Volume) (c : Container) : Prop where
  label : Text.isDNS1123Label c.name = []
  policy : c.restartPolicy = none ∨ c.restartPolicy = some restartAlways
  mounts : ∀ m ∈ c.volumeMounts, m.name ∈ volumes.map (·.name)
  devices : c.volumeDevices = []
  probes : c.startupProbe = none ∧ c.readinessProbe = none ∧ c.livenessProbe = none
  lifecycle : c.lifecycle = none
  env : ∀ v ∈ c.env, v.valueFrom = none

/-- A volume that refers to no container. -/
structure PlainVolume (v : Volume) : Prop where
  label : Text.isDNS1123Label v.name = []
  projected : v.projected = none
  downwardAPI : v.downwardAPI = none

/-- A Pod with a private network that consists of such containers and volumes. -/
structure PlainPod (pod : PodSpec) : Prop where
  hostNetwork : pod.hostNetwork = false
  containers : pod.containers ≠ []
  volumeNames : (pod.volumes.map (·.name)).Nodup
  volumes : ∀ v ∈ pod.volumes, PlainVolume v
  each : ∀ c ∈ pod.allContainers, PlainContainer pod.volumes c

section

variable {volumes : List Volume} {c : Container}

theorem PlainContainer.refs (h : PlainContainer volumes c) : validateContainerRefs (volumes.map (·.name)) c = .ok () := by
  refine seq_ok.2 ⟨refuse_ok.2 ?_, seq_ok.2 ⟨refuse_ok.2 (by simp [h.label]), seq_ok.2 ⟨forM_ok.2 fun m hm => ?_, ?_⟩⟩⟩
  · rcases h.policy with hp | hp <;> simp [hp]
  · exact refuse_ok.2 (not_not.2 (h.mounts m hm))
  · rw [h.devices]
    rfl

theorem PlainContainer.probePorts (h : PlainContainer volumes c) : validateContainerProbePorts c = .ok () := by
  obtain ⟨hs, hr, hl⟩ := h.probes
  have hactions : containerPortActions c = [] := by simp [containerPortActions, hs, hr, hl, h.lifecycle]
  unfold validateContainerProbePorts
  rw [hactions, hs, hr, hl]
  rfl

theorem PlainPod.fieldRefs {pod : PodSpec} (h : PlainPod pod) : resourceFieldRefs pod = [] := by
  rw [resourceFieldRefs_eq, List.append_eq_nil_iff, List.flatMap_eq_nil_iff, List.flatMap_eq_nil_iff]
  refine ⟨fun c hc => ?_, fun v hv => ?_⟩
  · rw [containerRefs, List.filterMap_eq_nil_iff]
    intro v hv
    rw [(h.each c hc).env v hv]
    rfl
  · have hvolume := h.volumes v hv
    simp [volumeRefs, hvolume.projected, hvolume.downwardAPI]

end

/-! ## Listeners -/

/-- The listeners of roles in a Pod: its containers have names of their own, every role has the container that owns its listeners,
and a container without a role has no ports. -/
structure WiredPod (Γ : Platform) (owner : ResolvedRole → String) (roles : List ResolvedRole) (pod : PodSpec) : Prop where
  names : (pod.allContainers.map (·.name)).Nodup
  owners : ∀ r ∈ roles, owner r ∈ pod.allContainers.map (·.name)
  ports : ∀ c ∈ pod.allContainers, c.ports = [] ∨ ∃ r ∈ roles, c.name = owner r ∧ c.ports = rolePorts Γ r

/-- The ports of roles: each is one a Pod may declare, and no two of them share a name or a number. -/
structure PortRoles (Γ : Platform) (roles : List ResolvedRole) : Prop where
  valid : ∀ r ∈ roles, ∀ p ∈ rolePorts Γ r, PortOk p
  names : ∀ r ∈ roles, ((rolePorts Γ r).map (·.name)).Nodup
  apart : ∀ r ∈ roles, ∀ r' ∈ roles, r ≠ r' → ∀ p ∈ rolePorts Γ r, ∀ p' ∈ rolePorts Γ r', p.name ≠ p'.name ∧ portKey p ≠ portKey p'

section

variable {Γ : Platform} {owner : ResolvedRole → String} {roles : List ResolvedRole} {pod : PodSpec}

theorem WiredPod.portOk (h : WiredPod Γ owner roles pod) (hports : PortRoles Γ roles) {c : Container} (hc : c ∈ pod.allContainers)
    {p : ContainerPort} (hp : p ∈ c.ports) : PortOk p := by
  rcases h.ports c hc with hnone | ⟨r, hr, -, heq⟩
  · rw [hnone] at hp
    cases hp
  · exact hports.valid r hr p (heq ▸ hp)

/-- The ports of two containers of a Pod differ in name and number. -/
theorem WiredPod.apart (h : WiredPod Γ owner roles pod) (hports : PortRoles Γ roles) :
    pod.allContainers.Pairwise fun c c' => ∀ p ∈ c.ports, ∀ p' ∈ c'.ports, p.name ≠ p'.name ∧ portKey p ≠ portKey p' := by
  have hnames := h.names
  rw [List.Nodup, List.pairwise_map] at hnames
  refine hnames.imp_of_mem fun {c c'} hc hc' hne p hp p' hp' => ?_
  rcases h.ports c hc with hnone | ⟨r, hr, hcr, heq⟩
  · rw [hnone] at hp
    cases hp
  · rcases h.ports c' hc' with hnone | ⟨r', hr', hcr', heq'⟩
    · rw [hnone] at hp'
      cases hp'
    · refine hports.apart r hr r' hr' (fun hsame => hne ?_) p (heq ▸ hp) p' (heq' ▸ hp')
      rw [hcr, hcr', hsame]

theorem WiredPod.portNames (h : WiredPod Γ owner roles pod) (hports : PortRoles Γ roles) :
    (pod.allContainers.flatMap fun c => c.ports.map (·.name)).Nodup := by
  rw [List.nodup_flatMap]
  refine ⟨fun c hc => ?_, (h.apart hports).imp fun {c c'} hapart n hn hn' => ?_⟩
  · rcases h.ports c hc with hnone | ⟨r, hr, -, heq⟩
    · rw [hnone]
      exact List.nodup_nil
    · exact heq ▸ hports.names r hr
  · obtain ⟨p, hp, rfl⟩ := List.mem_map.1 hn
    obtain ⟨p', hp', heq⟩ := List.mem_map.1 hn'
    exact (hapart p hp p' hp').1 heq.symm

theorem WiredPod.concurrentPorts (h : WiredPod Γ owner roles pod) (hports : PortRoles Γ roles) :
    validateConcurrentPodPorts pod = .ok () := by
  have hclash : pod.allContainers.Pairwise fun c c' => ¬Clash c c' :=
    (h.apart hports).imp fun {c c'} hapart ⟨p, hp, p', hp', heq⟩ => (hapart p hp p' hp').2 heq
  obtain ⟨hregular, hinit, hmixed⟩ := List.pairwise_append.1 hclash
  have hlater : pod.initContainers.Pairwise fun c c' => c.isRestartable → ¬Clash c c' := by
    refine hinit.imp ?_
    intro c c' hnot _
    exact hnot
  exact (validateConcurrentPodPorts_iff h.names).2 ⟨hregular, fun c hc _ c' hc' => hmixed c' hc' c hc, hlater⟩

theorem validatePrivatePodNetwork_of (hplain : PlainPod pod) (h : WiredPod Γ owner roles pod) (hports : PortRoles Γ roles) :
    validatePrivatePodNetwork pod = .ok () := by
  refine seq_ok.2 ⟨refuse_ok.2 (by simp [hplain.hostNetwork]), forM_ok.2 fun c hc => forM_ok.2 fun p hp => refuse_ok.2 ?_⟩
  exact not_not.2 (h.portOk hports hc hp).noHostPort

/-- A plain Pod with the listeners of its roles passes all checks of a composed Pod. -/
theorem validateComposedPod_of {d : Deployment} (hplain : PlainPod d.pod) (h : WiredPod Γ owner roles d.pod) (hports : PortRoles Γ roles)
    (hname : Text.isDNS1123Subdomain d.metadata.name = [])
    (hmanaged : d.spec.template.labels[labelComponent]? = some ComponentKind.dataplane.text →
      ∀ c ∈ d.pod.containers, isManagedNativeContainer c.name = false) : validateComposedPod d = .ok () := by
  have hcontainers : validatePodContainerNames d = .ok () := by
    refine distinct_of (fun x hx j => ⟨refuse_ok.2 fun ⟨hregular, hdataplane, hmember⟩ => ?_, rfl⟩) ?_ (by simp)
    · rcases List.mem_append.1 hx with hx | hx
      · obtain ⟨c, hc, rfl⟩ := List.mem_map.1 hx
        rw [hmanaged (by simpa using hdataplane) c hc] at hmember
        cases hmember
      · obtain ⟨c, hc, rfl⟩ := List.mem_map.1 hx
        have hregular : "init" = "regular" := hregular
        exact absurd hregular (by decide)
    · have hnames := h.names
      rw [PodSpec.allContainers, List.map_append] at hnames
      rw [List.map_append, List.map_map, List.map_map]
      exact hnames
  have hvolumes : distinct Volume.name
      (fun _ v => refuse (Text.isDNS1123Label v.name ≠ []) ("invalid or duplicate volume name " ++ Text.quote v.name))
      (fun _ v => "invalid or duplicate volume name " ++ Text.quote v.name) (fun _ _ => .ok ()) [] 0 d.pod.volumes = .ok () :=
    distinct_of (fun v hv j => ⟨refuse_ok.2 (not_not.2 (hplain.volumes v hv).label), rfl⟩) hplain.volumeNames (by simp)
  have hloop : validateContainers (d.pod.volumes.map (·.name)) [] d.pod.allContainers = .ok () :=
    validateContainers_of (fun c hc => (hplain.each c hc).refs) (fun c hc => (hplain.each c hc).probePorts)
      (fun c hc p hp => h.portOk hports hc hp) (h.portNames hports) (by simp)
  refine seq_ok.2 ⟨validatePrivatePodNetwork_of hplain h hports, seq_ok.2 ⟨hcontainers, seq_ok.2 ⟨refuse_ok.2 (not_not.2 hname),
    seq_ok.2 ⟨refuse_ok.2 hplain.containers, seq_ok.2 ⟨hvolumes, seq_ok.2 ⟨hloop, ?_⟩⟩⟩⟩⟩⟩
  rw [hplain.fieldRefs]
  exact h.concurrentPorts hports

end

/-! ## Frames and rewritten containers -/

theorem PlainContainer.frame_iff {volumes : List Volume} {c : Container} : PlainContainer volumes c.frame ↔ PlainContainer volumes c :=
  ⟨fun h => ⟨h.label, h.policy, h.mounts, h.devices, h.probes, h.lifecycle, h.env⟩,
    fun h => ⟨h.label, h.policy, h.mounts, h.devices, h.probes, h.lifecycle, h.env⟩⟩

theorem PlainPod.sameFrame {d d' : Deployment} (h : PlainPod d.pod) (hframe : SameFrame d d') : PlainPod d'.pod where
  hostNetwork := hframe.hostNetwork.trans h.hostNetwork
  containers := by
    intro hnone
    have hmap := hframe.containers
    rw [hnone, List.map_nil] at hmap
    exact h.containers (List.map_eq_nil_iff.1 hmap.symm)
  volumeNames := hframe.volumes ▸ h.volumeNames
  volumes := hframe.volumes ▸ h.volumes
  each := by
    intro c' hc'
    obtain ⟨c, hc, heq⟩ := hframe.exists_of_mem hc'
    rw [hframe.volumes, ← PlainContainer.frame_iff, ← heq, PlainContainer.frame_iff]
    exact h.each c hc

/-- A plain Pod stays plain when each of its containers does. -/
theorem PlainPod.mapContainers {d : Deployment} {g : Container → Container} (h : PlainPod d.pod)
    (hg : ∀ c, PlainContainer d.pod.volumes c → PlainContainer d.pod.volumes (g c)) : PlainPod (d.mapContainers g).pod where
  hostNetwork := h.hostNetwork
  containers := fun hnone => h.containers (List.map_eq_nil_iff.1 hnone)
  volumeNames := h.volumeNames
  volumes := h.volumes
  each := by
    intro c' hc'
    rw [allContainers_mapContainers] at hc'
    obtain ⟨c, hc, rfl⟩ := List.mem_map.1 hc'
    exact hg c (h.each c hc)

theorem PlainPod.ports {d d' : Deployment} (h : PlainPod d.pod) (hports : Rewrites PortsOnly d d') : PlainPod d'.pod := by
  obtain ⟨g, hg, rfl⟩ := hports
  refine h.mapContainers fun c hc => ?_
  obtain ⟨ports, heq⟩ := hg c
  rw [heq]
  exact ⟨hc.label, hc.policy, hc.mounts, hc.devices, hc.probes, hc.lifecycle, hc.env⟩

/-- The runtime endpoints add no references to an environment. -/
theorem configureRuntimeContainer_plain {Γ : Platform} {d d' : Deployment} {ctx : BuildContext} {component : ResolvedRole}
    {composed : Bool} (hplain : PlainPod d.pod) (h : configureRuntimeContainer Γ d ctx component composed = .ok d') :
    PlainPod d'.pod := by
  obtain rfl | ⟨vars, hvars, rfl⟩ := configureRuntimeContainer_cases h
  · exact hplain
  · rw [modifyContainer_eq]
    refine hplain.mapContainers fun c hc => ?_
    split
    · refine ⟨hc.label, hc.policy, hc.mounts, hc.devices, hc.probes, hc.lifecycle, fun v hv => ?_⟩
      rcases List.mem_append.1 hv with hv | hv
      · exact hvars v hv
      · exact hc.env v (List.mem_filter.1 hv).1
    · exact hc

/-- What is known of the listeners of a Pod depends on the names and the ports of its containers only. -/
theorem WiredPod.of_ports {Γ : Platform} {owner : ResolvedRole → String} {roles : List ResolvedRole} {pod pod' : PodSpec}
    (h : WiredPod Γ owner roles pod)
    (heq : pod'.allContainers.map (fun c => (c.name, c.ports)) = pod.allContainers.map fun c => (c.name, c.ports)) :
    WiredPod Γ owner roles pod' := by
  have hnames : pod'.allContainers.map (·.name) = pod.allContainers.map (·.name) := by
    have hfst := congrArg (List.map Prod.fst) heq
    rwa [List.map_map, List.map_map] at hfst
  refine ⟨hnames ▸ h.names, hnames ▸ h.owners, fun c' hc' => ?_⟩
  have hmem : (c'.name, c'.ports) ∈ pod.allContainers.map fun c => (c.name, c.ports) :=
    heq ▸ List.mem_map_of_mem (f := fun c : Container => (c.name, c.ports)) hc'
  obtain ⟨c, hc, hsame⟩ := List.mem_map.1 hmem
  obtain ⟨hname, hports⟩ := Prod.mk.injEq .. ▸ hsame
  rw [← hname, ← hports]
  exact h.ports c hc

/-! ## Passes that cannot fail -/

theorem findContainer_of {d : Deployment} {name : String} (hnames : (d.pod.allContainers.map (·.name)).Nodup)
    (h : name ∈ d.pod.allContainers.map (·.name)) : ∃ c, findContainer d name = .ok c := by
  obtain ⟨c, hc, rfl⟩ := List.mem_map.1 h
  refine ⟨c, ?_⟩
  unfold findContainer
  rw [filter_name_eq hnames hc]

/-- The listeners of a role are configured in a Pod that has its container, and stay as they were. -/
theorem configureComponentListeners_wired {Γ : Platform} {owner : ResolvedRole → String} {roles : List ResolvedRole} {d : Deployment}
    {r : ResolvedRole} {composed : Bool} (h : WiredPod Γ owner roles d.pod) (hports : PortRoles Γ roles) (hr : r ∈ roles)
    (howners : ∀ r' ∈ roles, owner r' = owner r → r' = r) (howner : listenerOwner Γ r composed = owner r)
    (hpair : ∃ grpcPort httpPort, runtimePortPair r = .ok (grpcPort, httpPort)) :
    ∃ d', configureComponentListeners Γ d r composed = .ok d' ∧ WiredPod Γ owner roles d'.pod := by
  obtain ⟨g, t, hpair⟩ := hpair
  have hasserted : ∀ c ∈ d.pod.allContainers, c.name = owner r → c.ports = [] ∨ c.ports = rolePorts Γ r := by
    intro c hc hname
    rcases h.ports c hc with hnone | ⟨r', hr', hc', heq⟩
    · exact Or.inl hnone
    · rw [howners r' hr' (hc'.symm.trans hname)] at heq
      exact Or.inr heq
  have hconfigured : ∃ d', configureComponentListeners Γ d r composed = .ok d' := by
    unfold configureComponentListeners
    dsimp only
    by_cases hnone : listenerPorts Γ r = []
    · rw [if_pos hnone]
      exact ⟨d, rfl⟩
    · rw [if_neg hnone, howner]
      obtain ⟨c, hc⟩ := findContainer_of h.names (h.owners r hr)
      refine ⟨_, bind_eq_ok.2 ⟨c, hc, bind_eq_ok.2 ⟨(g, t), hpair, seq_ok.2 ⟨forM_ok.2 fun l hl => ?_, rfl⟩⟩⟩⟩
      -- another container has the ports of another role
      refine forM_ok.2 fun x hx => ?_
      split
      · rfl
      · next hname =>
        refine forM_ok.2 fun p hp => refuse_ok.2 fun heq => ?_
        rcases h.ports x hx with hempty | ⟨r', hr', hxr, hxports⟩
        · rw [hempty] at hp
          cases hp
        · have hne : r ≠ r' := fun hsame => hname (hsame ▸ hxr)
          have hmem : listenerContainerPort g t l ∈ rolePorts Γ r := by
            rw [rolePorts_of_pair hpair]
            exact List.mem_map_of_mem hl
          exact (hports.apart r hr r' hr' hne _ hmem p (hxports ▸ hp)).1 heq.symm
  obtain ⟨d', hd'⟩ := hconfigured
  refine ⟨d', hd', ?_⟩
  have hmodified := configureComponentListeners_asserts (by rwa [howner]) hd'
  rw [howner] at hmodified
  subst hmodified
  have hnames := (rewrites_modifyContainer (fun c => ⟨_, rfl⟩) d (owner r) :
    Rewrites PortsOnly d (modifyContainer d (owner r) fun c => { c with ports := rolePorts Γ r })).map_eq
      (p := (·.name)) (by rintro c _ ⟨ports, rfl⟩; rfl)
  refine ⟨hnames ▸ h.names, fun r' hr' => hnames ▸ h.owners r' hr', fun c' hc' => ?_⟩
  rw [allContainers_modifyContainer] at hc'
  obtain ⟨c, hc, rfl⟩ := List.mem_map.1 hc'
  split
  · next hname => exact Or.inr ⟨r, hr, hname, rfl⟩
  · exact h.ports c hc

section

variable {Γ : Platform} {d : Deployment} {names : List String} {component : ResolvedComponent}

theorem configureRuntimeContainer_total {ctx : BuildContext} {r : ResolvedRole} {composed : Bool} (hnames : names.Nodup)
    (hd : d.pod.allContainers.map (·.name) = names) (howner : listenerOwner Γ r composed ∈ names)
    (hpair : ∃ grpcPort httpPort, runtimePortPair r = .ok (grpcPort, httpPort)) (hconfig : ∃ source, runtimeConfig r = .ok source) :
    ∃ d', configureRuntimeContainer Γ d ctx r composed = .ok d' ∧ d'.pod.allContainers.map (·.name) = names := by
  have hconfigured : ∃ d', configureRuntimeContainer Γ d ctx r composed = .ok d' := by
    obtain ⟨g, t, hpair⟩ := hpair
    obtain ⟨⟨configName, source⟩, hconfig⟩ := hconfig
    obtain ⟨c, hc⟩ := findContainer_of (hd ▸ hnames) (hd ▸ howner)
    unfold configureRuntimeContainer
    simp only [bind_eq_ok, hconfig, Except.ok.injEq, exists_eq_left']
    split
    · exact ⟨d, rfl⟩
    · simp only [bind_eq_ok, hc, Except.ok.injEq, exists_eq_left']
      generalize (if composed = true then scopedOperatorName Γ r.name configName else configName) = volume
      split
      · exact ⟨d, rfl⟩
      · exact ⟨_, bind_eq_ok.2 ⟨(g, t), hpair, rfl⟩⟩
  obtain ⟨d', hd'⟩ := hconfigured
  refine ⟨d', hd', ?_⟩
  rw [(configureRuntimeContainer_rewrites hd').map_eq (by rintro c _ ⟨env, rfl⟩; rfl), hd]

theorem setsImages_names {images : List (String × String)} {d d' : Deployment} (h : SetsImages images d d') :
    d'.pod.allContainers.map (·.name) = d.pod.allContainers.map (·.name) := by
  rw [h.1, allContainers_mapContainers, List.map_map]
  exact List.map_congr_left fun c _ => setImages_name images c

theorem applyImageOverride_total {name : String} {image : ResolvedImage} {override : Option YanetContainerOverride}
    (hnames : names.Nodup) (hd : d.pod.allContainers.map (·.name) = names) (hname : name ∈ names) :
    ∃ d', applyImageOverride d name image override = .ok d' ∧ d'.pod.allContainers.map (·.name) = names := by
  have happlied : ∃ d', applyImageOverride d name image override = .ok d' := by
    obtain ⟨c, hc⟩ := findContainer_of (hd ▸ hnames) (hd ▸ hname)
    unfold applyImageOverride
    split
    · exact ⟨d, rfl⟩
    · split
      · exact ⟨d, rfl⟩
      · exact ⟨_, bind_eq_ok.2 ⟨c, hc, rfl⟩⟩
  obtain ⟨d', hd'⟩ := happlied
  exact ⟨d', hd', (setsImages_names (applyImageOverride_ok hd')).trans hd⟩

/-- The overrides of an installation apply when every container they name is there. -/
theorem applyInstallationOverrides_total {unpatched : Deployment} (hnames : names.Nodup)
    (hd : d.pod.allContainers.map (·.name) = names)
    (hcontainers : ∀ o, component.overrides = some o → ∀ (k : String) c, o.containers[k]? = some c →
      overrideImage component.toResolvedRole k ≠ none → k ∈ names)
    (hsidecars : ∀ s ∈ component.sidecars, s.enabled = true → scopedOperatorName Γ s.name s.name ∈ names)
    (hdataplane : component.kind = .dataplane → dataplaneContainerName ∈ names) :
    ∃ d', applyInstallationOverrides Γ d unpatched component = .ok d' := by
  unfold applyInstallationOverrides
  dsimp only
  generalize hstart : (if component.enabled = false ∨ (component.overrides.bind (·.enabled)).isSome = true then
    { d with spec := { d.spec with replicas := replicasFor component.toResolvedRole } } else d : Deployment) = e
  have he : e.pod.allContainers.map (·.name) = names := by
    rw [← hstart, ← hd]
    split <;> rfl
  have hown : ∃ e', applyContainerOverrides component.toResolvedRole e = .ok e' ∧ e'.pod.allContainers.map (·.name) = names := by
    unfold applyContainerOverrides
    cases ho : component.overrides with
    | none => exact ⟨e, rfl, he⟩
    | some o =>
      refine foldlM_total (J := fun d : Deployment => d.pod.allContainers.map (·.name) = names) he ?_
      rintro ⟨k, c⟩ hk d hd
      dsimp only
      cases himage : overrideImage component.toResolvedRole k with
      | none => exact ⟨d, rfl, hd⟩
      | some image =>
        exact applyImageOverride_total hnames hd (hcontainers o ho k c (StrMap.mem_toList.1 hk) (by simp [himage]))
  obtain ⟨e1, he1, hn1⟩ := hown
  obtain ⟨e2, he2, hn2⟩ : ∃ e2, (component.sidecars.filter (·.enabled)).foldlM (fun d sidecar => applyImageOverride d
      (scopedOperatorName Γ sidecar.name sidecar.name) sidecar.image sidecar.sidecarOverride) e1 = .ok e2 ∧
      e2.pod.allContainers.map (·.name) = names := by
    refine foldlM_total (J := fun d : Deployment => d.pod.allContainers.map (·.name) = names) hn1 fun s hs d hd => ?_
    obtain ⟨hmem, henabled⟩ := List.mem_filter.1 hs
    exact applyImageOverride_total hnames hd (hsidecars s hmem henabled)
  simp only [bind_eq_ok, he1, he2, Except.ok.injEq, exists_eq_left']
  split
  · exact ⟨e2, rfl⟩
  · next hkind =>
    split
    · exact ⟨e2, rfl⟩
    · split
      · obtain ⟨c, hc⟩ := findContainer_of (hn2 ▸ hnames) (hn2 ▸ hdataplane (not_not.1 hkind))
        exact ⟨_, bind_eq_ok.2 ⟨c, hc, rfl⟩⟩
      · exact ⟨e2, rfl⟩

end

end YanetOperator
