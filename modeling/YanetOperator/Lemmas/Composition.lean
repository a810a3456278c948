import YanetOperator.Lemmas.Render
import YanetOperator.Lemmas.Resolve
import YanetOperator.Lemmas.Skeleton

/-!
# The composition of sidecars

The images under which the volumes and the containers of a sidecar join the dataplane Pod, and where the volumes and the init
containers of a composed Pod come from.
-/

namespace YanetOperator

open Check

/-! ## Images -/

/-- A volume of a sidecar in the composed Pod. -/
def volumeImage (Γ : Platform) (sidecar : String) (v : Volume) : Volume :=
  { v.mapRefs (scopeRef Γ sidecar) with name := scopedOperatorName Γ sidecar v.name }

/-- A one-shot container of a sidecar in the composed Pod. -/
def initImage (Γ : Platform) (sidecar : String) (c : Container) : Container :=
  scopeContainer Γ sidecar (c.mapRefs (scopeRef Γ sidecar))

/-- The container of a sidecar in the composed Pod. -/
def nativeImage (Γ : Platform) (sidecar : String) (c : Container) : Container :=
  { initImage Γ sidecar c with restartPolicy := some restartAlways }

/-- The references of a container to containers of its Pod. -/
def containerRefs (c : Container) : List ResourceFieldSelector := c.env.filterMap fun v => v.valueFrom.bind (·.resourceFieldRef)

/-- The references of a volume to containers of its Pod. -/
def volumeRefs (v : Volume) : List ResourceFieldSelector :=
  ((v.downwardAPI.getD []) ++ (v.projected.getD []).flatMap fun s => s.downwardAPI.getD []).filterMap (·.resourceFieldRef)

theorem resourceFieldRefs_eq (pod : PodSpec) :
    resourceFieldRefs pod = pod.allContainers.flatMap containerRefs ++ pod.volumes.flatMap volumeRefs := rfl

/-- An enabled sidecar appends its volumes, its one-shot containers and its container. -/
theorem mergeSidecar_volumes (Γ : Platform) (d op : Deployment) (sidecar : String) :
    (mergeSidecar Γ d sidecar op).pod.volumes = d.pod.volumes ++ op.pod.volumes.map (volumeImage Γ sidecar) := by
  simp only [mergeSidecar, mapResourceFieldRefs, Deployment.pod, List.map_map]
  rfl

theorem mergeSidecar_initContainers (Γ : Platform) (d op : Deployment) (sidecar : String) :
    (mergeSidecar Γ d sidecar op).pod.initContainers =
      d.pod.initContainers ++ op.pod.initContainers.map (initImage Γ sidecar) ++
        op.pod.containers.map (nativeImage Γ sidecar) := by
  simp only [mergeSidecar, mapResourceFieldRefs, PodSpec.mapContainers, Deployment.pod, List.map_map]
  rfl

theorem mergeSidecar_containers (Γ : Platform) (d op : Deployment) (sidecar : String) :
    (mergeSidecar Γ d sidecar op).pod.containers = d.pod.containers := rfl

/-! ## Where the parts of a composed Pod come from -/

/-- A sidecar that joins the dataplane, with its own Deployment. -/
def Joins (Γ : Platform) (ctx : BuildContext) (registry : PatchRegistry) (sidecars : List ResolvedRole) (s : ResolvedRole)
    (op : Deployment) : Prop :=
  s ∈ sidecars ∧ s.enabled = true ∧ renderSidecar Γ ctx s registry = .ok op

/-- The parts of a Pod into which sidecars were composed: those of the base, and the images of those of the sidecars. -/
structure ComposedParts (Γ : Platform) (ctx : BuildContext) (registry : PatchRegistry) (base : PodSpec)
    (sidecars : List ResolvedRole) (pod : PodSpec) : Prop where
  containers : pod.containers = base.containers
  volumes : ∀ v', v' ∈ pod.volumes ↔ v' ∈ base.volumes ∨
    ∃ s op, Joins Γ ctx registry sidecars s op ∧ ∃ v ∈ op.pod.volumes, v' = volumeImage Γ s.name v
  initContainers : ∀ c', c' ∈ pod.initContainers ↔ c' ∈ base.initContainers ∨
    ∃ s op, Joins Γ ctx registry sidecars s op ∧
      ((∃ c ∈ op.pod.initContainers, c' = initImage Γ s.name c) ∨ ∃ c ∈ op.pod.containers, c' = nativeImage Γ s.name c)

section
variable {Γ : Platform} {ctx : BuildContext} {registry : PatchRegistry}

/-- What holds of a sidecar that joins holds of one that joined before, or of the one that joins now. -/
theorem exists_joins_concat {done : List ResolvedRole} {s : ResolvedRole} {op : Deployment}
    (hop : renderSidecar Γ ctx s registry = .ok op) (P : ResolvedRole → Deployment → Prop) :
    (∃ r o, Joins Γ ctx registry (done ++ [s]) r o ∧ P r o) ↔
      (∃ r o, Joins Γ ctx registry done r o ∧ P r o) ∨ (s.enabled = true ∧ P s op) := by
  simp only [Joins, List.mem_append, List.mem_singleton]
  constructor
  · rintro ⟨r, o, ⟨hmem | rfl, he, hr⟩, hP⟩
    · exact .inl ⟨r, o, ⟨hmem, he, hr⟩, hP⟩
    · rw [hop] at hr
      cases hr
      exact .inr ⟨he, hP⟩
  · rintro (⟨r, o, ⟨hmem, he, hr⟩, hP⟩ | ⟨he, hP⟩)
    · exact ⟨r, o, ⟨.inl hmem, he, hr⟩, hP⟩
    · exact ⟨s, op, ⟨.inr rfl, he, hop⟩, hP⟩

/-- What one composition does. -/
theorem composeSidecar_cases {d d' : Deployment} {s : ResolvedRole} (h : composeSidecar Γ ctx registry d s = .ok d') :
    ∃ op, renderSidecar Γ ctx s registry = .ok op ∧ d' = if s.enabled then mergeSidecar Γ d s.name op else d := by
  unfold composeSidecar at h
  obtain ⟨op, hop, h⟩ := bind_eq_ok.1 h
  cases h
  exact ⟨op, within_ok.1 hop, rfl⟩

theorem ComposedParts.compose {base : PodSpec} {done : List ResolvedRole} {d d' : Deployment} {s : ResolvedRole}
    (hd : ComposedParts Γ ctx registry base done d.pod) (h : composeSidecar Γ ctx registry d s = .ok d') :
    ComposedParts Γ ctx registry base (done ++ [s]) d'.pod := by
  obtain ⟨op, hop, rfl⟩ := composeSidecar_cases h
  by_cases he : s.enabled = true
  · rw [if_pos he]
    refine ⟨hd.containers, fun v' => ?_, fun c' => ?_⟩
    · rw [mergeSidecar_volumes, List.mem_append, hd.volumes, or_assoc, exists_joins_concat hop]
      simp [he, eq_comm]
    · rw [mergeSidecar_initContainers, List.append_assoc, List.mem_append, hd.initContainers, or_assoc,
        exists_joins_concat hop]
      simp [he, eq_comm]
  · rw [if_neg he]
    refine ⟨hd.containers, fun v' => ?_, fun c' => ?_⟩
    · rw [hd.volumes, exists_joins_concat hop]
      simp [he]
    · rw [hd.initContainers, exists_joins_concat hop]
      simp [he]

/-- The composition of all sidecars. -/
theorem composeSidecars_parts {base d d' : Deployment} {done sidecars : List ResolvedRole}
    (hd : ComposedParts Γ ctx registry base.pod done d.pod)
    (h : sidecars.foldlM (composeSidecar Γ ctx registry) d = .ok d') :
    ComposedParts Γ ctx registry base.pod (done ++ sidecars) d'.pod := by
  induction sidecars generalizing d done with
  | nil =>
    cases h
    simpa using hd
  | cons s sidecars ih =>
    obtain ⟨d₁, h₁, h⟩ := bind_eq_ok.1 h
    have := ih (hd.compose h₁) h
    rwa [List.append_assoc] at this

theorem ComposedParts.start (Γ : Platform) (ctx : BuildContext) (registry : PatchRegistry) (pod : PodSpec) :
    ComposedParts Γ ctx registry pod [] pod := by
  refine ⟨rfl, fun v' => ?_, fun c' => ?_⟩
  · simp [Joins]
  · simp [Joins]

end

/-! ## The dataplane before the composition -/

theorem configVolumes_names {volName : String} {configMapName : String → String} {source : Option ConfigSource} :
    ∀ v ∈ (configVolumes volName configMapName source).1, v.name = volName := by
  unfold configVolumes
  split
  · simp
  · split
    · simp
    · dsimp only
      split <;> simp

/-- The container and the volumes of a dataplane have no scoped names. -/
theorem singleContainer_unscoped (Γ : Platform) (ctx : BuildContext) {c : ResolvedRole} (hkind : c.kind = .dataplane) :
    isManagedNativeContainer (singleContainer Γ ctx c).1.name = false ∧
      ∀ v ∈ (singleContainer Γ ctx c).2, isManagedNativeContainer v.name = false := by
  have hparts := singleContainer_parts Γ ctx c
  rw [hparts.name, hparts.volumes, hkind, if_neg (by decide)]
  refine ⟨by decide, fun v hv => ?_⟩
  rcases List.mem_append.1 hv with hv | hv
  · rw [configVolumes_names v hv]
    decide
  · exact (by decide : ∀ name ∈ hostVolumeNames, isManagedNativeContainer name = false) v.name (hostVolumes_mem hv).1

end YanetOperator
