import YanetOperator.Manifests.PodChecks

/-!
# What the checks of a Pod establish

`PodWellFormed` is what a Deployment that passed `ValidateComposedPod` satisfies. The loops over ports and containers are also
read the other way: what they accept.
-/

namespace YanetOperator

open Check

/-- The port names of a list of containers, without the empty ones. -/
def portNames (cs : List Container) : List String := ((cs.flatMap (·.ports)).map (·.name)).filter (· ≠ "")

/-- A Pod with a private network, unique names, and references that resolve inside it. -/
structure PodWellFormed (pod : PodSpec) : Prop where
  noHostNetwork : pod.hostNetwork = false
  noHostPort : ∀ c ∈ pod.allContainers, ∀ p ∈ c.ports, p.hostPort = 0
  containerNames : (pod.allContainers.map (·.name)).Nodup
  volumeNames : (pod.volumes.map (·.name)).Nodup
  mounts : ∀ c ∈ pod.allContainers, ∀ m ∈ c.volumeMounts, m.name ∈ pod.volumes.map (·.name)
  devices : ∀ c ∈ pod.allContainers, ∀ v ∈ c.volumeDevices, v.name ∈ pod.volumes.map (·.name)
  fieldRefs : ∀ r ∈ resourceFieldRefs pod, r.containerName ≠ "" → r.containerName ∈ pod.allContainers.map (·.name)
  portNames : (portNames pod.allContainers).Nodup

theorem validatePrivatePodNetwork_ok {pod : PodSpec} (h : validatePrivatePodNetwork pod = .ok ()) :
    pod.hostNetwork = false ∧ ∀ c ∈ pod.allContainers, ∀ p ∈ c.ports, p.hostPort = 0 := by
  unfold validatePrivatePodNetwork at h
  obtain ⟨hn, h⟩ := seq_ok.1 h
  refine ⟨by simpa using refuse_ok.1 hn, ?_⟩
  intro c hc p hp
  have := forM_ok.1 (forM_ok.1 h c hc) p hp
  simpa using refuse_ok.1 this

theorem validatePodContainerNames_ok {d : Deployment} (h : validatePodContainerNames d = .ok ()) :
    (d.pod.allContainers.map (·.name)).Nodup := by
  unfold validatePodContainerNames at h
  obtain ⟨-, hn, -⟩ := distinct_ok h
  simpa [PodSpec.allContainers, Function.comp_def] using hn

/-- The ports of one container: the names are new, distinct, and recorded. -/
theorem validatePorts_ok {container : String} {seen seen' : List String} {ports : List ContainerPort}
    (h : validatePorts container seen ports = .ok seen') :
    ((ports.map (·.name)).filter (· ≠ "")).Nodup ∧ (∀ n ∈ (ports.map (·.name)).filter (· ≠ ""), n ∉ seen) ∧
      ∀ n, n ∈ seen' ↔ n ∈ seen ∨ n ∈ (ports.map (·.name)).filter (· ≠ "") := by
  induction ports generalizing seen with
  | nil =>
    cases h
    simp
  | cons p ps ih =>
    unfold validatePorts at h
    obtain ⟨-, h⟩ := seq_ok.1 h
    obtain ⟨-, h⟩ := seq_ok.1 h
    split at h
    · next he =>
      have hskip : ((p :: ps).map (·.name)).filter (· ≠ "") = (ps.map (·.name)).filter (· ≠ "") := by simp [he]
      rw [hskip]
      exact ih h
    · next he =>
      obtain ⟨hr, h⟩ := seq_ok.1 h
      have hp : p.name ∉ seen := fun hm => refuse_ok.1 hr (Or.inr hm)
      obtain ⟨h1, h2, h3⟩ := ih h
      have hcons : ((p :: ps).map (·.name)).filter (· ≠ "") = p.name :: (ps.map (·.name)).filter (· ≠ "") := by simp [he]
      rw [hcons]
      refine ⟨List.nodup_cons.2 ⟨fun hm => h2 _ hm (by simp), h1⟩, ?_, ?_⟩
      · intro n hn
        rcases List.mem_cons.1 hn with rfl | hn
        · exact hp
        · exact fun hm => h2 n hn (by simp [hm])
      · intro n
        rw [h3 n]
        simp only [List.mem_cons]
        tauto

theorem portNames_cons (c : Container) (cs : List Container) :
    portNames (c :: cs) = (c.ports.map (·.name)).filter (· ≠ "") ++ portNames cs := by
  simp [portNames]

/-- The loop over the containers: references resolve, and the port names are new and distinct. -/
theorem validateContainers_ok {volumes seen : List String} {cs : List Container}
    (h : validateContainers volumes seen cs = .ok ()) :
    (∀ c ∈ cs, (∀ m ∈ c.volumeMounts, m.name ∈ volumes) ∧ ∀ v ∈ c.volumeDevices, v.name ∈ volumes) ∧
      (portNames cs).Nodup ∧ ∀ n ∈ portNames cs, n ∉ seen := by
  induction cs generalizing seen with
  | nil => simp [portNames]
  | cons c cs ih =>
    unfold validateContainers at h
    obtain ⟨hr, h⟩ := seq_ok.1 h
    obtain ⟨seen', hp, h⟩ := bind_eq_ok.1 h
    obtain ⟨-, h⟩ := seq_ok.1 h
    obtain ⟨i1, i2, i3⟩ := ih h
    obtain ⟨p1, p2, p3⟩ := validatePorts_ok hp
    unfold validateContainerRefs at hr
    obtain ⟨-, hr⟩ := seq_ok.1 hr
    obtain ⟨-, hr⟩ := seq_ok.1 hr
    obtain ⟨hm, hd⟩ := seq_ok.1 hr
    refine ⟨?_, ?_, ?_⟩
    · intro x hx
      rcases List.mem_cons.1 hx with rfl | hx
      · refine ⟨fun m hmem => ?_, fun v hv => ?_⟩
        · simpa using refuse_ok.1 (forM_ok.1 hm m hmem)
        · simpa using refuse_ok.1 (forM_ok.1 hd v hv)
      · exact i1 x hx
    · rw [portNames_cons, List.nodup_append]
      exact ⟨p1, i2, fun a ha b hb e => i3 b hb ((p3 b).2 (Or.inr (e ▸ ha)))⟩
    · intro n hn
      rw [portNames_cons, List.mem_append] at hn
      rcases hn with hn | hn
      · exact p2 n hn
      · exact fun hm => i3 n hn ((p3 n).2 (Or.inl hm))

/-! ## What the loops accept -/

/-- A port the operator may assert on a container. -/
structure PortOk (p : ContainerPort) : Prop where
  protocol : p.protocol = "TCP"
  number : 1 ≤ p.containerPort ∧ p.containerPort ≤ 65535
  noHostPort : p.hostPort = 0
  name : Text.isValidPortName p.name = []

theorem PortOk.name_ne {p : ContainerPort} (h : PortOk p) : p.name ≠ "" := by
  intro hempty
  have hname := h.name
  rw [hempty] at hname
  revert hname
  decide

theorem validatePorts_of (container : String) {seen : List String} {ports : List ContainerPort} (hports : ∀ p ∈ ports, PortOk p)
    (hnodup : (ports.map (·.name)).Nodup) (hnew : ∀ p ∈ ports, p.name ∉ seen) :
    ∃ seen', validatePorts container seen ports = .ok seen' := by
  induction ports generalizing seen with
  | nil => exact ⟨seen, rfl⟩
  | cons p ps ih =>
    rw [List.map_cons, List.nodup_cons] at hnodup
    have hp := hports p (by simp)
    have hrestNew : ∀ q ∈ ps, q.name ∉ p.name :: seen := by
      intro q hq hm
      rcases List.mem_cons.1 hm with heq | hm
      · exact hnodup.1 (heq ▸ List.mem_map_of_mem hq)
      · exact hnew q (by simp [hq]) hm
    obtain ⟨seen', hrest⟩ := ih (fun q hq => hports q (by simp [hq])) hnodup.2 hrestNew
    refine ⟨seen', seq_ok.2 ⟨refuse_ok.2 ?_, seq_ok.2 ⟨refuse_ok.2 ?_, ?_⟩⟩⟩
    · simp [hp.protocol]
    · have := hp.number
      rw [hp.noHostPort]
      omega
    · rw [if_neg hp.name_ne]
      exact seq_ok.2 ⟨refuse_ok.2 (by simp [hp.name, hnew p (by simp)]), hrest⟩

theorem validateContainers_of {volumes seen : List String} {cs : List Container}
    (hrefs : ∀ c ∈ cs, validateContainerRefs volumes c = .ok ()) (hprobes : ∀ c ∈ cs, validateContainerProbePorts c = .ok ())
    (hports : ∀ c ∈ cs, ∀ p ∈ c.ports, PortOk p) (hnodup : (cs.flatMap fun c => c.ports.map (·.name)).Nodup)
    (hnew : ∀ c ∈ cs, ∀ p ∈ c.ports, p.name ∉ seen) : validateContainers volumes seen cs = .ok () := by
  induction cs generalizing seen with
  | nil => rfl
  | cons c cs ih =>
    rw [List.flatMap_cons, List.nodup_append] at hnodup
    obtain ⟨seen', hseen⟩ := validatePorts_of c.name (hports c (by simp)) hnodup.1 (hnew c (by simp))
    refine seq_ok.2 ⟨hrefs c (by simp), bind_eq_ok.2 ⟨seen', hseen, seq_ok.2 ⟨hprobes c (by simp), ?_⟩⟩⟩
    refine ih (fun x hx => hrefs x (by simp [hx])) (fun x hx => hprobes x (by simp [hx])) (fun x hx => hports x (by simp [hx]))
      hnodup.2.1 fun x hx p hp hm => ?_
    rcases ((validatePorts_ok hseen).2.2 p.name).1 hm with hm | hm
    · exact hnew x (by simp [hx]) p hp hm
    · refine hnodup.2.2 p.name (List.mem_filter.1 hm).1 p.name ?_ rfl
      exact List.mem_flatMap.2 ⟨x, hx, List.mem_map_of_mem hp⟩

/-! ## The Pod -/

/-- A Deployment that passes `ValidateComposedPod` has a well-formed Pod. -/
theorem validateComposedPod_ok {d : Deployment} (h : validateComposedPod d = .ok ()) : PodWellFormed d.pod := by
  unfold validateComposedPod at h
  obtain ⟨hp, h⟩ := seq_ok.1 h
  obtain ⟨hn, h⟩ := seq_ok.1 h
  dsimp only at h
  obtain ⟨-, h⟩ := seq_ok.1 h
  obtain ⟨-, h⟩ := seq_ok.1 h
  obtain ⟨hv, h⟩ := seq_ok.1 h
  obtain ⟨hc, h⟩ := seq_ok.1 h
  obtain ⟨p1, p2⟩ := validatePrivatePodNetwork_ok hp
  obtain ⟨-, v2, -⟩ := distinct_ok hv
  obtain ⟨c1, c2, -⟩ := validateContainers_ok hc
  refine ⟨p1, p2, validatePodContainerNames_ok hn, v2, fun c hx => (c1 c hx).1, fun c hx => (c1 c hx).2, ?_, c2⟩
  intro r hr hne
  split at h
  · cases h
  · next hlast =>
    rw [List.getLast?_eq_none_iff, List.filter_eq_nil_iff] at hlast
    have := hlast r hr
    simpa [hne] using this

end YanetOperator
