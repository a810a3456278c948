import YanetOperator.Manifests.Listeners
import YanetOperator.Lemmas.Names

/-!
# Skeletons

The Pods of the builder: the containers it makes, the volumes of the configurations and of the host, and the mounts of both.
-/

namespace YanetOperator

/-- A container as the builder makes it: no ports, environment, devices, probes or hooks. -/
structure BuiltContainer (c : Container) : Prop where
  ports : c.ports = []
  env : c.env = []
  volumeDevices : c.volumeDevices = []
  restartPolicy : c.restartPolicy = none
  probes : c.startupProbe = none ∧ c.readinessProbe = none ∧ c.livenessProbe = none
  lifecycle : c.lifecycle = none

/-- The volumes of a role beside its configuration. -/
def hostVolumes (c : ResolvedRole) : List Volume :=
  (c.hugepages.map fun _ => { name := "hugepages", hostPath := some { path := "/dev/hugepages" } : Volume }).toList ++
    match c.kind with
    | .dataplane =>
      [hostDevVolume "host-vfio" "/dev/vfio" (some "Directory"), hostDevVolume "host-vhost-net" "/dev/vhost-net" none,
        hostDevVolume "host-net" "/dev/net" (some "Directory"), hostDevVolume "host-sys" "/sys" (some "Directory")]
    | .controlplane => [{ name := "hugepages", hostPath := some { path := "/dev/hugepages" } }]
    | _ => []

/-- The names of volumes of the host. -/
def hostVolumeNames : List String := ["hugepages", "host-vfio", "host-vhost-net", "host-net", "host-sys"]

/-- A volume of the host holds no ConfigMap and has a name of its own. -/
theorem hostVolumes_mem {c : ResolvedRole} {v : Volume} (h : v ∈ hostVolumes c) :
    v.name ∈ hostVolumeNames ∧ v.configMap = none ∧ v.projected = none ∧ v.downwardAPI = none := by
  unfold hostVolumes at h
  rcases List.mem_append.1 h with h | h
  · obtain ⟨hp, -, rfl⟩ := Option.map_eq_some_iff.1 (Option.mem_toList.1 h)
    exact ⟨by decide, rfl, rfl, rfl⟩
  · have hkind : ∀ v ∈ (match c.kind with
        | .dataplane =>
          [hostDevVolume "host-vfio" "/dev/vfio" (some "Directory"), hostDevVolume "host-vhost-net" "/dev/vhost-net" none,
            hostDevVolume "host-net" "/dev/net" (some "Directory"), hostDevVolume "host-sys" "/sys" (some "Directory")]
        | .controlplane => [{ name := "hugepages", hostPath := some { path := "/dev/hugepages" } }]
        | _ => []),
        v.name ∈ hostVolumeNames ∧ v.configMap = none ∧ v.projected = none ∧ v.downwardAPI = none := by
      cases c.kind <;> decide
    exact hkind v h

/-- A configuration is mounted under the name of its volume. -/
theorem configVolumes_mounts (volName : String) (configMapName : String → String) (source : Option ConfigSource) :
    (configVolumes volName configMapName source).2.1.map (·.name) =
      (configVolumes volName configMapName source).1.map (·.name) := by
  unfold configVolumes
  split
  · rfl
  · split
    · rfl
    · dsimp only
      split <;> rfl

/-- A configuration mounts a ConfigMap exactly when it is an inline text. -/
theorem configVolumes_configMap {volName : String} {configMapName : String → String} {source : Option ConfigSource}
    (hone : ∀ cs, source = some cs → cs.variantsSet = 1) {n : String} :
    (∃ v ∈ (configVolumes volName configMapName source).1, v.configMap = some n) ↔
      ∃ text, inlineOf source = some text ∧ n = configMapName text := by
  cases source with
  | none => simp [configVolumes, inlineOf]
  | some cs =>
    have hone := hone cs rfl
    unfold ConfigSource.variantsSet at hone
    by_cases hinline : cs.inlineText = ""
    · have hpath : cs.hostPath ≠ "" := by
        rintro hpath
        simp [hinline, hpath] at hone
      simp [configVolumes, inlineOf, hinline, hpath]
    · have hpath : cs.hostPath = "" := by
        by_contra hpath
        simp [hinline, hpath] at hone
      simp only [configVolumes, inlineOf, hinline, hpath, false_and, if_false, ne_eq, not_true, not_false_eq_true, if_true,
        List.mem_singleton, exists_eq_left, Option.some.injEq, exists_eq_left']
      exact eq_comm

/-- A container of a role and volumes for its Pod: the configuration, then volumes of the host. -/
structure SingleParts (Γ : Platform) (ctx : BuildContext) (c : ResolvedRole) (host : List Volume)
    (parts : Container × List Volume) : Prop where
  name : parts.1.name = if c.kind = .sidecar then c.name else toLowerKebab c.kind.text
  image : parts.1.image = c.image.fullPath
  built : BuiltContainer parts.1
  volumes : parts.2 = (buildConfigVolumes Γ ctx c).1 ++ host
  mounts : ∃ mounts, parts.1.volumeMounts = (buildConfigVolumes Γ ctx c).2.1 ++ mounts ∧
    mounts.map (·.name) = host.map (·.name)
  resources : ∀ k : String, parts.1.resources.requests[k]? ≠ none ∨ parts.1.resources.limits[k]? ≠ none →
    ∃ hp total, c.hugepages = some hp ∧ hp.totalQuantity Γ = .ok total ∧ k = resourceHugePagesPrefix ++ hp.size

/-- More volumes of the host, mounted by the container. -/
theorem SingleParts.mount {Γ : Platform} {ctx : BuildContext} {c : ResolvedRole} {host volumes : List Volume}
    {parts : Container × List Volume} (h : SingleParts Γ ctx c host parts) (privileged : Option Bool) (mounts : List VolumeMount)
    (hmounts : mounts.map (·.name) = volumes.map (·.name)) :
    SingleParts Γ ctx c (host ++ volumes)
      ({ parts.1 with privileged := privileged, volumeMounts := parts.1.volumeMounts ++ mounts }, parts.2 ++ volumes) := by
  obtain ⟨before, hbefore, hnames⟩ := h.mounts
  refine ⟨h.name, h.image, ⟨h.built.ports, h.built.env, h.built.volumeDevices, h.built.restartPolicy, h.built.probes,
    h.built.lifecycle⟩, ?_, ⟨before ++ mounts, ?_, ?_⟩, h.resources⟩
  · show parts.2 ++ volumes = _
    rw [h.volumes, List.append_assoc]
  · show parts.1.volumeMounts ++ mounts = _
    rw [hbefore, List.append_assoc]
  · rw [List.map_append, List.map_append, hnames, hmounts]

theorem SingleParts.hugepages {Γ : Platform} {ctx : BuildContext} {c : ResolvedRole} {parts : Container × List Volume} {hp : Hugepages}
    (h : SingleParts Γ ctx c [] parts) (hhp : c.hugepages = some hp) :
    SingleParts Γ ctx c [{ name := "hugepages", hostPath := some { path := "/dev/hugepages" } }]
      (applyHugepages Γ parts.1 parts.2 hp) := by
  have hnames : [({ name := "hugepages", mountPath := "/dev/hugepages" } : VolumeMount)].map (·.name) =
      [({ name := "hugepages", hostPath := some { path := "/dev/hugepages" } } : Volume)].map (·.name) := rfl
  have hmounted := h.mount parts.1.privileged _ hnames
  unfold applyHugepages
  dsimp only
  cases htotal : hp.totalQuantity Γ with
  | error e => exact hmounted
  | ok total =>
    refine ⟨hmounted.name, hmounted.image, ⟨h.built.ports, h.built.env, h.built.volumeDevices, h.built.restartPolicy, h.built.probes,
      h.built.lifecycle⟩, hmounted.volumes, hmounted.mounts, fun k hk => ?_⟩
    by_cases hname : k = resourceHugePagesPrefix ++ hp.size
    · exact ⟨hp, total, hhp, htotal, hname⟩
    · refine h.resources k ?_
      simpa [Ne.symm hname] using hk

/-- The parts of a container with its reserved pages. -/
def pagedParts (Γ : Platform) (c : ResolvedRole) (parts : Container × List Volume) : Container × List Volume :=
  match c.hugepages with
  | none => parts
  | some hp => applyHugepages Γ parts.1 parts.2 hp

/-- The parts of a container with what its kind mounts from the host. -/
def mountedParts (c : ResolvedRole) (parts : Container × List Volume) : Container × List Volume :=
  match c.kind with
  | .dataplane => applyDataplaneSecurity parts.1 parts.2
  | .controlplane => applyControlplaneShmem parts.1 parts.2
  | _ => parts

theorem singleContainer_parts (Γ : Platform) (ctx : BuildContext) (c : ResolvedRole) :
    SingleParts Γ ctx c (hostVolumes c) (singleContainer Γ ctx c) := by
  let container : Container :=
    { name := if c.kind = .sidecar then c.name else toLowerKebab c.kind.text
      image := c.image.fullPath
      imagePullPolicy := ctx.pullPolicy
      volumeMounts := (buildConfigVolumes Γ ctx c).2.1
      args := (buildConfigVolumes Γ ctx c).2.2 }
  have hstart : SingleParts Γ ctx c [] (container, (buildConfigVolumes Γ ctx c).1) := by
    refine ⟨rfl, rfl, ⟨rfl, rfl, rfl, rfl, ⟨rfl, rfl, rfl⟩, rfl⟩, (List.append_nil _).symm,
      ⟨[], (List.append_nil _).symm, rfl⟩, fun k hk => ?_⟩
    simp [container] at hk
  let reserved : List Volume :=
    (c.hugepages.map fun _ => { name := "hugepages", hostPath := some { path := "/dev/hugepages" } : Volume }).toList
  have hreserved : SingleParts Γ ctx c reserved (pagedParts Γ c (container, (buildConfigVolumes Γ ctx c).1)) := by
    unfold pagedParts
    cases hhp : c.hugepages with
    | none =>
      have hnone : reserved = [] := by simp [reserved, hhp]
      rw [hnone]
      exact hstart
    | some hp =>
      have hsome : reserved = [{ name := "hugepages", hostPath := some { path := "/dev/hugepages" } }] := by simp [reserved, hhp]
      rw [hsome]
      exact hstart.hugepages hhp
  have hkinds (r : Container × List Volume) (hr : SingleParts Γ ctx c reserved r) :
      SingleParts Γ ctx c (hostVolumes c) (mountedParts c r) := by
    unfold hostVolumes mountedParts
    cases c.kind with
    | dataplane =>
      exact hr.mount (some true) [{ name := "host-vfio", mountPath := "/dev/vfio" },
        { name := "host-vhost-net", mountPath := "/dev/vhost-net" }, { name := "host-net", mountPath := "/dev/net" },
        { name := "host-sys", mountPath := "/sys", readOnly := true }] rfl
    | controlplane => exact hr.mount r.1.privileged [{ name := "hugepages", mountPath := "/dev/hugepages" }] rfl
    | birdAdapter | operator | sidecar =>
      rw [List.append_nil]
      exact hr
  exact hkinds _ hreserved

theorem buildSingle_containers (Γ : Platform) (ctx : BuildContext) (c : ResolvedRole) :
    (buildSingle Γ ctx c).pod.containers = [(singleContainer Γ ctx c).1] := rfl

theorem buildSingle_volumes (Γ : Platform) (ctx : BuildContext) (c : ResolvedRole) :
    (buildSingle Γ ctx c).pod.volumes = (singleContainer Γ ctx c).2 := rfl

theorem buildSingle_allContainers (Γ : Platform) (ctx : BuildContext) (c : ResolvedRole) :
    (buildSingle Γ ctx c).pod.allContainers = [(singleContainer Γ ctx c).1] := by
  rw [PodSpec.allContainers, buildSingle_containers]
  rfl

end YanetOperator
