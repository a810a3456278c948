import YanetOperator.Lemmas.Accepted
import YanetOperator.Theorems.Hugepages
import YanetOperator.Theorems.InlineConfigs
import YanetOperator.Theorems.SidecarComposition

/-!
# Components without patches

What the builder makes of a component of an admitted configuration, and of the sidecars composed into it: Pods that every check of
the renderer accepts.
-/

namespace YanetOperator

open Check

/-! ## The ports of roles -/

/-- The protocols a role listens on. -/
def roleProtocols (role : ResolvedRole) : List String :=
  if role.kind = .dataplane then [] else if role.kind = .controlplane then ["grpc", "http"] else protocols role

/-- The port of a role for a protocol. -/
def protocolPort (Γ : Platform) (role : ResolvedRole) (grpcPort httpPort : Int) (protocol : String) : ContainerPort :=
  { name := if role.isColocated then colocatedTargetPort Γ role.name protocol else protocol
    containerPort := if protocol = "http" then httpPort else grpcPort
    protocol := "TCP" }

/-- A role with a pair of ports that listens on gRPC and HTTP, each at most once. -/
structure Listening (role : ResolvedRole) : Prop where
  nodup : (roleProtocols role).Nodup
  known : ∀ n ∈ roleProtocols role, n = "grpc" ∨ n = "http"
  pair : ∃ grpcPort httpPort, runtimePortPair role = .ok (grpcPort, httpPort) ∧ (1 ≤ grpcPort ∧ grpcPort ≤ 65535) ∧
    1 ≤ httpPort ∧ httpPort ≤ 65535

section

variable {Γ : Platform} {role : ResolvedRole}

theorem colocatedTargetPort_ne (operator : String) {n : String} (h : n = "grpc" ∨ n = "http") : colocatedTargetPort Γ operator n ≠ "" := by
  obtain ⟨l, -, hlist⟩ := colocatedTargetPort_toList Γ operator h
  intro hempty
  rw [hempty] at hlist
  cases hlist

theorem rolePorts_eq {grpcPort httpPort : Int} (hknown : ∀ n ∈ roleProtocols role, n = "grpc" ∨ n = "http")
    (hpair : runtimePortPair role = .ok (grpcPort, httpPort)) :
    rolePorts Γ role = (roleProtocols role).map (protocolPort Γ role grpcPort httpPort) := by
  rw [rolePorts_of_pair hpair]
  unfold listenerPorts
  unfold roleProtocols at hknown ⊢
  split
  · rfl
  · next hkind =>
    rw [if_neg hkind] at hknown
    dsimp only
    rw [List.map_map]
    refine List.map_congr_left fun n hn => ?_
    have hn := hknown n hn
    have hname : n ≠ "" := by rcases hn with rfl | rfl <;> decide
    unfold listenerContainerPort listenerTargetPortName protocolPort
    dsimp only [Function.comp_apply]
    by_cases hcolocated : role.isColocated = true
    · simp [hcolocated, colocatedTargetPort_ne role.name hn]
    · simp [hcolocated]

theorem protocolPort_ok {grpcPort httpPort : Int} {n : String} (hn : n = "grpc" ∨ n = "http")
    (hgrpc : 1 ≤ grpcPort ∧ grpcPort ≤ 65535) (hhttp : 1 ≤ httpPort ∧ httpPort ≤ 65535) :
    PortOk (protocolPort Γ role grpcPort httpPort n) := by
  refine ⟨rfl, ?_, rfl, ?_⟩
  · unfold protocolPort
    dsimp only
    split
    · exact hhttp
    · exact hgrpc
  · unfold protocolPort
    dsimp only
    split
    · exact colocatedTargetPort_valid Γ role.name hn
    · rcases hn with rfl | rfl <;> decide

/-- The ports of one role have names of their own. -/
theorem protocolPort_name_inj {grpcPort httpPort : Int} {n n' : String} (hn : n = "grpc" ∨ n = "http") (hn' : n' = "grpc" ∨ n' = "http")
    (h : (protocolPort Γ role grpcPort httpPort n).name = (protocolPort Γ role grpcPort httpPort n').name) : n = n' := by
  unfold protocolPort at h
  dsimp only at h
  split at h
  · have htake : Text.take n 1 = Text.take n' 1 := by
      unfold colocatedTargetPort at h
      exact String.append_right_inj _ |>.1 h
    rcases hn with rfl | rfl <;> rcases hn' with rfl | rfl
    · rfl
    · exact absurd htake (by decide)
    · exact absurd htake (by decide)
    · rfl
  · exact h

/-- Roles that listen, no two of which share a slot, have ports that a Pod may declare together. -/
theorem portRoles_of {roles : List ResolvedRole} (hlistening : ∀ r ∈ roles, Listening r)
    (hapart : ∀ r ∈ roles, ∀ r' ∈ roles, r ≠ r' → r.isColocated = true ∧ r'.isColocated = true ∧ SidecarsApart Γ r r') :
    PortRoles Γ roles := by
  refine ⟨fun r hr p hp => ?_, fun r hr => ?_, fun r hr r' hr' hne p hp p' hp' => ?_⟩
  · obtain ⟨g, t, hpair, hg, ht⟩ := (hlistening r hr).pair
    rw [rolePorts_eq (hlistening r hr).known hpair] at hp
    obtain ⟨n, hn, rfl⟩ := List.mem_map.1 hp
    exact protocolPort_ok ((hlistening r hr).known n hn) hg ht
  · obtain ⟨g, t, hpair, -⟩ := (hlistening r hr).pair
    rw [rolePorts_eq (hlistening r hr).known hpair, List.map_map]
    exact (hlistening r hr).nodup.map_on fun n hn n' hn' heq =>
      protocolPort_name_inj ((hlistening r hr).known n hn) ((hlistening r hr).known n' hn') heq
  · obtain ⟨g, t, hpair, -⟩ := (hlistening r hr).pair
    obtain ⟨g', t', hpair', -⟩ := (hlistening r' hr').pair
    rw [rolePorts_eq (hlistening r hr).known hpair] at hp
    rw [rolePorts_eq (hlistening r' hr').known hpair'] at hp'
    obtain ⟨n, hn, rfl⟩ := List.mem_map.1 hp
    obtain ⟨n', hn', rfl⟩ := List.mem_map.1 hp'
    obtain ⟨hcolocated, hcolocated', hap⟩ := hapart r hr r' hr' hne
    obtain ⟨hgg, hgt, htg, htt⟩ := hap.ports _ _ hpair hpair'
    refine ⟨?_, fun heq => ?_⟩
    · unfold protocolPort
      dsimp only
      rw [if_pos hcolocated, if_pos hcolocated']
      exact hap.targetPorts n n'
    · have hnumber := congrArg Prod.fst heq
      unfold portKey protocolPort at hnumber
      dsimp only at hnumber
      split at hnumber <;> split at hnumber
      · exact htt hnumber
      · exact htg hnumber
      · exact hgt hnumber
      · exact hgg hnumber

end

/-! ## The Pods of the builder -/

/-- The names of the containers of a role in its own Pod. -/
def ownNames (role : ResolvedRole) : List String :=
  if role.kind = .operator then role.containers.map (·.name)
  else [if role.kind = .sidecar then role.name else toLowerKebab role.kind.text]

/-- A role whose Pod can be built: its containers have labels of their own, and only a dataplane reserves hugepages. -/
structure Buildable (role : ResolvedRole) : Prop where
  containers : ownNames role ≠ []
  names : (ownNames role).Nodup
  labels : ∀ n ∈ ownNames role, Text.isDNS1123Label n = []
  hugepages : role.kind ≠ .dataplane → role.hugepages = none

section

variable {Γ : Platform} {ctx : BuildContext} {role : ResolvedRole} {numa : Option Nat}

theorem configVolumes_plain (volName : String) (hlabel : Text.isDNS1123Label volName = []) (configMapName : String → String)
    (source : Option ConfigSource) :
    ((configVolumes volName configMapName source).1.map (·.name)).Nodup ∧
      ∀ v ∈ (configVolumes volName configMapName source).1, PlainVolume v := by
  unfold configVolumes
  split
  · exact ⟨List.nodup_nil, nofun⟩
  · split
    · exact ⟨List.nodup_nil, nofun⟩
    · dsimp only
      split
      · exact ⟨List.nodup_singleton _, List.forall_mem_singleton.2 ⟨hlabel, rfl, rfl⟩⟩
      · exact ⟨List.nodup_singleton _, List.forall_mem_singleton.2 ⟨hlabel, rfl, rfl⟩⟩

theorem hostVolumes_plain (hhugepages : role.kind ≠ .dataplane → role.hugepages = none) :
    ((hostVolumes role).map (·.name)).Nodup ∧ ∀ v ∈ hostVolumes role, PlainVolume v := by
  refine ⟨?_, fun v hv => ?_⟩
  · unfold hostVolumes
    by_cases hkind : role.kind = .dataplane
    · rw [hkind]
      cases role.hugepages with
      | none => decide
      | some hp =>
        rw [Option.map_some]
        decide
    · rw [hhugepages hkind]
      cases role.kind <;> decide
  · obtain ⟨hname, -, hprojected, hdownward⟩ := hostVolumes_mem hv
    have hlabels : ∀ n ∈ hostVolumeNames, Text.isDNS1123Label n = [] := by decide
    exact ⟨hlabels _ hname, hprojected, hdownward⟩

/-- The volumes of each part of a role have labels of their own and refer to no container. -/
theorem roleParts_plain (hhugepages : role.kind ≠ .dataplane → role.hugepages = none) (hcount : role.containers.length ≤ 8) :
    ∀ p ∈ roleParts Γ ctx role, (p.2.map (·.name)).Nodup ∧ ∀ v ∈ p.2, PlainVolume v := by
  intro p hp
  unfold roleParts at hp
  split at hp
  · obtain ⟨⟨c, i⟩, hc, rfl⟩ := List.mem_map.1 hp
    have hi : i < role.containers.length := (List.mem_zipIdx' hc).1
    have hlabels : ∀ i < 8, Text.isDNS1123Label ("config-" ++ toString i) = [] := by decide +kernel
    exact configVolumes_plain _ (hlabels i (by omega)) _ _
  · cases List.mem_singleton.1 hp
    rw [(singleContainer_parts Γ ctx role).volumes]
    obtain ⟨hconfigNames, hconfig⟩ := configVolumes_plain "config" (by decide) (inlineConfigMapName Γ ctx role) role.config
    obtain ⟨hhostNames, hhost⟩ := hostVolumes_plain hhugepages
    refine ⟨?_, List.forall_mem_append.2 ⟨hconfig, hhost⟩⟩
    rw [List.map_append, List.nodup_append]
    refine ⟨hconfigNames, hhostNames, fun a ha b hb heq => ?_⟩
    obtain ⟨v, hv, rfl⟩ := List.mem_map.1 ha
    obtain ⟨w, hw, rfl⟩ := List.mem_map.1 hb
    have hname := (hostVolumes_mem hw).1
    rw [← heq, configVolumes_names v hv] at hname
    revert hname
    decide

theorem instanceSkeleton_volumes (hnuma : numa ∈ instances role) (hhugepages : role.kind ≠ .dataplane → role.hugepages = none)
    (hcount : role.containers.length ≤ 8) :
    ((instanceSkeleton Γ ctx role numa).pod.volumes.map (·.name)).Nodup ∧
      ∀ v ∈ (instanceSkeleton Γ ctx role numa).pod.volumes, PlainVolume v := by
  have hparts := @roleParts_plain Γ ctx role hhugepages hcount
  rw [(instanceSkeleton_parts Γ ctx role hnuma).2]
  refine ⟨?_, fun v hv => ?_⟩
  · rw [List.map_flatMap, List.nodup_flatMap]
    refine ⟨fun p hp => (hparts p hp).1, roleParts_apart.imp fun {p q} hapart n hn hn' => ?_⟩
    obtain ⟨v, hv, rfl⟩ := List.mem_map.1 hn
    obtain ⟨w, hw, heq⟩ := List.mem_map.1 hn'
    exact hapart v hv w hw heq.symm
  · obtain ⟨p, hp, hv⟩ := List.mem_flatMap.1 hv
    exact (hparts p hp).2 v hv

/-- The containers of a skeleton: those of an operator, or the one container of the role with its arguments. -/
theorem instanceSkeleton_containers (hnuma : numa ∈ instances role) :
    (role.kind = .operator ∧ (instanceSkeleton Γ ctx role numa).pod.allContainers = role.containers.zipIdx.map fun p =>
        { name := p.1.name, image := p.1.image.fullPath, imagePullPolicy := ctx.pullPolicy,
          volumeMounts := (buildConfigVolumesForContainer Γ ctx role p.1 p.2).2.1,
          args := (buildConfigVolumesForContainer Γ ctx role p.1 p.2).2.2 }) ∨
      (role.kind ≠ .operator ∧ ∃ args, (instanceSkeleton Γ ctx role numa).pod.allContainers =
        [{ (singleContainer Γ ctx role).1 with args := args }]) := by
  unfold instances at hnuma
  by_cases hkind : role.kind = .operator
  · rw [if_neg (by simp [hkind])] at hnuma
    cases List.mem_singleton.1 hnuma
    rw [instanceSkeleton, if_pos hkind]
    refine Or.inl ⟨hkind, ?_⟩
    show List.map _ (List.map _ _) ++ [] = _
    rw [List.append_nil, List.map_map]
    rfl
  · refine Or.inr ⟨hkind, ?_⟩
    split at hnuma
    · obtain ⟨i, -, rfl⟩ := List.mem_map.1 hnuma
      exact ⟨_, rfl⟩
    · cases List.mem_singleton.1 hnuma
      rw [instanceSkeleton, if_neg hkind, buildSingle_allContainers]
      exact ⟨_, rfl⟩

theorem instanceSkeleton_names (hnuma : numa ∈ instances role) :
    (instanceSkeleton Γ ctx role numa).pod.allContainers.map (·.name) = ownNames role := by
  unfold ownNames
  rcases @instanceSkeleton_containers Γ ctx role numa hnuma with ⟨hkind, heq⟩ | ⟨hkind, args, heq⟩
  · rw [heq, if_pos hkind, List.map_map]
    have hfst := congrArg (List.map (·.name)) (List.zipIdx_map_fst 0 role.containers)
    rwa [List.map_map] at hfst
  · rw [heq, if_neg hkind]
    exact congrArg (fun n => [n]) (singleContainer_parts Γ ctx role).name

/-- A container of a skeleton is as the builder makes it, and asks for hugepages at most. -/
theorem instanceSkeleton_built (hnuma : numa ∈ instances role) :
    ∀ c ∈ (instanceSkeleton Γ ctx role numa).pod.allContainers, BuiltContainer c ∧
      ∀ k : String, c.resources.requests[k]? ≠ none ∨ c.resources.limits[k]? ≠ none →
        ∃ hp total, role.hugepages = some hp ∧ hp.totalQuantity Γ = .ok total ∧ k = resourceHugePagesPrefix ++ hp.size := by
  intro c hc
  rcases @instanceSkeleton_containers Γ ctx role numa hnuma with ⟨-, heq⟩ | ⟨-, args, heq⟩
  · rw [heq] at hc
    obtain ⟨p, -, rfl⟩ := List.mem_map.1 hc
    refine ⟨⟨rfl, rfl, rfl, rfl, ⟨rfl, rfl, rfl⟩, rfl⟩, fun k hk => ?_⟩
    simp at hk
  · rw [heq, List.mem_singleton] at hc
    subst hc
    have hparts := singleContainer_parts Γ ctx role
    have hbuilt := hparts.built
    exact ⟨⟨hbuilt.ports, hbuilt.env, hbuilt.volumeDevices, hbuilt.restartPolicy, hbuilt.probes, hbuilt.lifecycle⟩, hparts.resources⟩

/-- What a container mounts in a skeleton is a volume of the Pod. -/
theorem instanceSkeleton_mounts (hnuma : numa ∈ instances role) :
    ∀ c ∈ (instanceSkeleton Γ ctx role numa).pod.allContainers, ∀ m ∈ c.volumeMounts,
      m.name ∈ (instanceSkeleton Γ ctx role numa).pod.volumes.map (·.name) := by
  intro c hc m hm
  obtain ⟨hcontainers, hvolumes⟩ := instanceSkeleton_parts Γ ctx role hnuma
  have hpart : (c.name, c.volumeMounts) ∈ (roleParts Γ ctx role).map fun p => (p.1.name, p.1.volumeMounts) :=
    hcontainers ▸ List.mem_map_of_mem (f := fun c : Container => (c.name, c.volumeMounts)) hc
  obtain ⟨p, hp, hpc⟩ := List.mem_map.1 hpart
  have hmounts : p.1.volumeMounts = c.volumeMounts := congrArg Prod.snd hpc
  have hown : m.name ∈ p.2.map (·.name) := roleParts_own p hp ▸ List.mem_map_of_mem (hmounts ▸ hm)
  obtain ⟨v, hv, hname⟩ := List.mem_map.1 hown
  rw [hvolumes]
  exact List.mem_map.2 ⟨v, List.mem_flatMap.2 ⟨p, hp, hv⟩, hname⟩

theorem instanceSkeleton_pod (numa : Option Nat) :
    (instanceSkeleton Γ ctx role numa).pod.hostNetwork = false ∧ (instanceSkeleton Γ ctx role numa).pod.initContainers = [] ∧
      (instanceSkeleton Γ ctx role numa).spec.template.annotations = ∅ := by
  cases numa with
  | some i => exact ⟨rfl, rfl, rfl⟩
  | none =>
    by_cases hkind : role.kind = .operator
    · rw [instanceSkeleton, if_pos hkind]
      exact ⟨rfl, rfl, rfl⟩
    · rw [instanceSkeleton, if_neg hkind]
      exact ⟨rfl, rfl, rfl⟩

/-- The skeleton of a buildable role is plain. -/
theorem instanceSkeleton_plain (hbuildable : Buildable role) (hcount : role.containers.length ≤ 8) (hnuma : numa ∈ instances role) :
    PlainPod (instanceSkeleton Γ ctx role numa).pod := by
  obtain ⟨hnetwork, hinits, -⟩ := @instanceSkeleton_pod Γ ctx role numa
  obtain ⟨hvolumeNames, hvolumes⟩ := @instanceSkeleton_volumes Γ ctx role numa hnuma hbuildable.hugepages hcount
  have hnames := @instanceSkeleton_names Γ ctx role numa hnuma
  refine ⟨hnetwork, fun hnone => ?_, hvolumeNames, hvolumes, fun c hc => ?_⟩
  · rw [PodSpec.allContainers, hnone, hinits] at hnames
    exact hbuildable.containers hnames.symm
  · obtain ⟨hbuilt, -⟩ := instanceSkeleton_built hnuma c hc
    refine ⟨hbuildable.labels _ (hnames ▸ List.mem_map_of_mem hc), Or.inl hbuilt.restartPolicy, instanceSkeleton_mounts hnuma c hc,
      hbuilt.volumeDevices, hbuilt.probes, hbuilt.lifecycle, fun v hv => ?_⟩
    rw [hbuilt.env] at hv
    cases hv

/-- A skeleton has no ports. -/
theorem instanceSkeleton_wired (owner : ResolvedRole → String) {roles : List ResolvedRole} (hbuildable : Buildable role)
    (hnuma : numa ∈ instances role) (howners : ∀ r ∈ roles, owner r ∈ ownNames role) :
    WiredPod Γ owner roles (instanceSkeleton Γ ctx role numa).pod := by
  have hnames := @instanceSkeleton_names Γ ctx role numa hnuma
  refine ⟨hnames ▸ hbuildable.names, hnames ▸ howners, fun c hc => Or.inl ?_⟩
  exact (instanceSkeleton_built hnuma c hc).1.ports

end

/-! ## Names of Deployments -/

/-- A valid name of an installation, short enough for a label. -/
structure YanetNameOk (name : String) : Prop where
  subdomain : Text.isDNS1123Subdomain name = []
  length : name.length ≤ 63

/-- A role whose name, in kebab case, continues a name of objects. -/
structure RoleNameOk (role : ResolvedRole) : Prop where
  labelEnd : LabelEnd (toLowerKebab role.name)
  length : (toLowerKebab role.name).length ≤ 63

section

variable {Γ : Platform} {ctx : BuildContext} {role : ResolvedRole} {numa : Option Nat}

/-- The name of a Deployment is a subdomain: the name of its installation, continued. -/
theorem instanceName_subdomain (hyanet : YanetNameOk ctx.yanetName) (hrole : RoleNameOk role) (hnuma : ∀ i, numa = some i → i < 10) :
    Text.isDNS1123Subdomain (instanceName Γ ctx role numa) = [] := by
  have hdash : ∀ c ∈ "-".toList, labelChar c = true := List.all_eq_true.1 (by decide)
  have hone : "-".length = 1 := by decide
  have hsuffix : LabelEnd (toLowerKebab role.name ++ numaSuffix numa) ∧ (numaSuffix numa).length ≤ 6 := by
    cases numa with
    | none =>
      rw [numaSuffix, String.append_empty]
      exact ⟨hrole.labelEnd, by decide⟩
    | some i =>
      have hword : ∀ c ∈ "-numa".toList, labelChar c = true := List.all_eq_true.1 (by decide)
      have hdigit : ∀ n < 10, (toString n).length = 1 := by decide
      refine ⟨.append hrole.labelEnd.2 (.append hword (.number i)), ?_⟩
      rw [numaSuffix, String.length_append, hdigit i (hnuma i rfl)]
      decide
  obtain ⟨rest, hname, hrest, hlength⟩ : ∃ rest, instanceName Γ ctx role numa = ctx.yanetName ++ rest ∧ LabelEnd rest ∧
      rest.length ≤ 80 := by
    have hinstance : instanceName Γ ctx role numa = singleDeploymentName Γ ctx role ++ numaSuffix numa := by
      cases numa with
      | none => exact (String.append_empty).symm
      | some i => exact String.append_assoc ..
    have hrolelen := hrole.length
    rw [hinstance]
    unfold singleDeploymentName
    split
    · refine ⟨"-" ++ (Γ.shortNodeKey ctx.nodeName ++ ("-" ++ (toLowerKebab role.name ++ numaSuffix numa))), ?_,
        .append hdash (.append (LabelEnd.key Γ _).2 (.append hdash hsuffix.1)), ?_⟩
      · simp only [String.append_assoc]
      · simp only [String.length_append, shortNodeKey_length, hone]
        omega
    · refine ⟨"-" ++ (toLowerKebab role.name ++ numaSuffix numa), ?_, .append hdash hsuffix.1, ?_⟩
      · simp only [String.append_assoc]
      · simp only [String.length_append, hone]
        omega
  obtain ⟨-, hsub⟩ := Text.isDNS1123Subdomain_eq_nil.1 hyanet.subdomain
  have hyanetlen := hyanet.length
  rw [hname, Text.isDNS1123Subdomain_eq_nil, String.length_append, String.toList_append]
  exact ⟨by omega, Text.dns1123Subdomain_append hsub hrest.1 hrest.2⟩

end

/-! ## Sidecars -/

/-- A sidecar of an admitted palette without patches. -/
structure FreeSidecar (s : ResolvedRole) : Prop extends PlainSidecar s where
  label : Text.isDNS1123Label s.name = []
  notDataplane : s.name ≠ ComponentKind.dataplane.text
  noContainers : s.containers = []
  listening : Listening s

section

variable {Γ : Platform} {ctx : BuildContext} {registry : PatchRegistry} {s : ResolvedRole}

theorem FreeSidecar.colocated (hs : FreeSidecar s) : s.isColocated = true := by
  rw [ResolvedRole.isColocated, hs.kind]
  rfl

theorem FreeSidecar.ownNames (hs : FreeSidecar s) : ownNames s = [s.name] := by
  rw [YanetOperator.ownNames, if_neg (by simp [hs.kind]), if_pos hs.kind]

theorem FreeSidecar.buildable (hs : FreeSidecar s) : Buildable s := by
  refine ⟨?_, ?_, ?_, fun _ => hs.hugepages⟩
  · rw [hs.ownNames]
    exact List.cons_ne_nil _ _
  · rw [hs.ownNames]
    exact List.nodup_singleton _
  · rw [hs.ownNames]
    exact List.forall_mem_singleton.2 hs.label

theorem FreeSidecar.nameOk (hs : FreeSidecar s) : RoleNameOk s := by
  have hself := toLowerKebab_label hs.label
  refine ⟨?_, ?_⟩
  · rw [hself]
    exact LabelEnd.of_label hs.label
  · rw [hself]
    exact (Text.isDNS1123Label_eq_nil.1 hs.label).1

theorem FreeSidecar.instance (hs : FreeSidecar s) : none ∈ instances s ∧ instanceSkeleton Γ ctx s none = buildSingle Γ ctx s := by
  have hcontrol : ¬s.kind = .controlplane := by simp [hs.kind]
  have hoperator : ¬s.kind = .operator := by simp [hs.kind]
  rw [instances, if_neg hcontrol, instanceSkeleton, if_neg hoperator]
  exact ⟨List.mem_singleton.2 rfl, rfl⟩

/-- The own Deployment of a sidecar passes every check. -/
theorem renderSidecar_total (hyanet : YanetNameOk ctx.yanetName) (hs : FreeSidecar s) :
    ∃ op, renderSidecar Γ ctx s registry = .ok op := by
  obtain ⟨hinstance, hskeleton⟩ := @FreeSidecar.instance Γ ctx s hs
  have howner : listenerOwner Γ s false = s.name := by
    rw [listenerOwner, if_neg (by decide), listenerContainerName, hs.kind]
  have hports : PortRoles Γ [s] := by
    refine portRoles_of (List.forall_mem_singleton.2 hs.listening) fun r hr r' hr' hne => ?_
    exact absurd ((List.mem_singleton.1 hr).trans (List.mem_singleton.1 hr').symm) hne
  have hplain : PlainPod (buildSingle Γ ctx s).pod :=
    hskeleton ▸ instanceSkeleton_plain hs.buildable (by simp [hs.noContainers]) hinstance
  have hwired : WiredPod Γ (listenerOwner Γ · false) [s] (buildSingle Γ ctx s).pod := by
    rw [← hskeleton]
    refine instanceSkeleton_wired (listenerOwner Γ · false) hs.buildable hinstance (List.forall_mem_singleton.2 ?_)
    rw [howner, hs.ownNames]
    exact List.mem_singleton.2 rfl
  have hnames : (buildSingle Γ ctx s).pod.allContainers.map (·.name) = [s.name] := by
    rw [← hskeleton, instanceSkeleton_names hinstance, hs.ownNames]
  obtain ⟨overridden, hoverride, -⟩ := @applyImageOverride_total (buildSingle Γ ctx s) [s.name] s.name s.image
    s.sidecarOverride (List.nodup_singleton s.name) hnames (List.mem_singleton.2 rfl)
  cases applyImageOverride_skeleton hoverride
  obtain ⟨g, t, hpair, -⟩ := hs.listening.pair
  obtain ⟨listening, hlisten, hlistening⟩ := configureComponentListeners_wired hwired hports (List.mem_singleton.2 rfl)
    (fun r hr _ => List.mem_singleton.1 hr) rfl ⟨g, t, hpair⟩
  have hshape := configureComponentListeners_sameShape hlisten
  have hcomposed : validateComposedPod listening = .ok () := by
    refine validateComposedPod_of (hplain.ports (configureComponentListeners_rewrites hlisten)) hlistening hports ?_ fun hlabel => ?_
    · rw [hshape.metadata, ← hskeleton, (instanceSkeleton_skeleton Γ ctx s none).name]
      exact instanceName_subdomain hyanet hs.nameOk fun i hi => by cases hi
    · rw [hshape.labels, ← hskeleton, (instanceSkeleton_skeleton Γ ctx s none).podLabels, instanceLabels_component] at hlabel
      exact absurd (Option.some.inj hlabel) hs.notDataplane
  refine ⟨listening, seq_ok.2 ⟨?_, bind_eq_ok.2 ⟨buildSingle Γ ctx s, ?_, bind_eq_ok.2 ⟨_, hoverride, seq_ok.2 ⟨?_, seq_ok.2
    ⟨refuse_ok.2 (not_not.2 ?_), seq_ok.2 ⟨rfl, bind_eq_ok.2 ⟨listening, hlisten, seq_ok.2 ⟨hcomposed, rfl⟩⟩⟩⟩⟩⟩⟩⟩⟩
  · rw [hs.patches]
    rfl
  · rw [hs.patches]
    rfl
  · exact validatePrivatePodNetwork_of hplain hwired hports
  · exact hnames

end

/-! ## Components -/

/-- A component of an admitted configuration without patches. -/
structure FreeComponent (Γ : Platform) (component : ResolvedComponent) : Prop where
  kind : component.kind ≠ .sidecar
  patches : component.patches = []
  name : RoleNameOk component.toResolvedRole
  dataplane : component.name = ComponentKind.dataplane.text ↔ component.kind = .dataplane
  buildable : Buildable component.toResolvedRole
  containers : component.containers.length ≤ 8
  numa : component.kind = .controlplane → validateControlplaneNuma (effectiveNuma component.toResolvedRole) = .ok ()
  listening : component.kind ≠ .dataplane → Listening component.toResolvedRole
  overrides : ∀ o, component.overrides = some o → ∀ (k : String) c, o.containers[k]? = some c →
    overrideImage component.toResolvedRole k ≠ none → k ∈ ownNames component.toResolvedRole
  sidecars : ∀ s ∈ component.sidecars, FreeSidecar s
  noSidecars : component.kind ≠ .dataplane → component.sidecars = []
  keys : (component.sidecars.map fun s => Γ.shortNodeKey s.name).Nodup
  apart : ∀ s ∈ component.sidecars, ∀ s' ∈ component.sidecars, s ≠ s' → SidecarsApart Γ s s'

/-- The role of a component, unless it is a dataplane, which has no listeners of its own. -/
def ownRoles (component : ResolvedComponent) : List ResolvedRole :=
  if component.kind ≠ .dataplane then [component.toResolvedRole] else []

section

variable {Γ : Platform} {component : ResolvedComponent}

theorem FreeComponent.plain (h : FreeComponent Γ component) : PlainComponent Γ component :=
  ⟨h.patches, fun s hs => (h.sidecars s hs).toPlainSidecar, h.keys⟩

/-- The listener container of a component is one of its own. -/
theorem FreeComponent.owner (h : FreeComponent Γ component) (hkind : component.kind ≠ .dataplane) :
    listenerOwner Γ component.toResolvedRole false ∈ ownNames component.toResolvedRole := by
  have hcontainers := h.buildable.containers
  rw [listenerOwner, if_neg (by decide)]
  unfold listenerContainerName ownNames
  unfold ownNames at hcontainers
  have hsidecar := h.kind
  cases hk : component.kind with
  | dataplane => exact absurd hk hkind
  | sidecar => exact absurd hk hsidecar
  | controlplane | birdAdapter => exact List.mem_singleton.2 rfl
  | operator =>
    rw [hk, if_pos rfl] at hcontainers
    dsimp only
    rw [if_pos rfl]
    cases hc : component.containers with
    | nil =>
      rw [hc] at hcontainers
      exact absurd rfl hcontainers
    | cons c cs => exact List.mem_cons_self ..

theorem FreeComponent.listenerContainer (h : FreeComponent Γ component) :
    listenerContainer Γ component.toResolvedRole = listenerOwner Γ component.toResolvedRole false := by
  have hcolocated : component.toResolvedRole.isColocated = false := by simp [ResolvedRole.isColocated, h.kind]
  rw [YanetOperator.listenerContainer, hcolocated]

theorem FreeSidecar.listenerContainer {s : ResolvedRole} (h : FreeSidecar s) :
    listenerContainer Γ s = scopedOperatorName Γ s.name s.name := by
  rw [YanetOperator.listenerContainer, h.colocated, listenerOwner, if_pos rfl, listenerContainerName, h.kind]

/-- The ports of the roles in the Pods of a component. -/
theorem FreeComponent.portRoles (h : FreeComponent Γ component) : PortRoles Γ (podRoles component) := by
  by_cases hkind : component.kind = .dataplane
  · have hroles : podRoles component = component.sidecars.filter (·.enabled) := by
      rw [podRoles, if_neg (not_not.2 hkind), List.nil_append]
    rw [hroles]
    refine portRoles_of (fun r hr => (h.sidecars r (List.mem_filter.1 hr).1).listening) fun r hr r' hr' hne => ?_
    have hr := (List.mem_filter.1 hr).1
    have hr' := (List.mem_filter.1 hr').1
    exact ⟨(h.sidecars r hr).colocated, (h.sidecars r' hr').colocated, h.apart r hr r' hr' hne⟩
  · have hroles : podRoles component = [component.toResolvedRole] := by
      rw [podRoles, if_pos hkind, h.noSidecars hkind]
      rfl
    rw [hroles]
    refine portRoles_of (List.forall_mem_singleton.2 (h.listening hkind)) fun r hr r' hr' hne => ?_
    exact absurd ((List.mem_singleton.1 hr).trans (List.mem_singleton.1 hr').symm) hne

end

/-! ## Built Deployments -/

/-- The resources of the containers of a Pod have no slash in their names. -/
def SlashFree (pod : PodSpec) : Prop :=
  ∀ c ∈ pod.allContainers, ∀ k : String, c.resources.requests[k]? ≠ none ∨ c.resources.limits[k]? ≠ none → '/' ∉ k.toList

/-- A built Deployment of a component, with the listeners of its role. -/
structure BasePod (Γ : Platform) (ctx : BuildContext) (component : ResolvedComponent) (hugepages : Option Hugepages) (b : Deployment) :
    Prop where
  skeleton : ∃ numa, (∀ i, numa = some i → i < 10) ∧ Skeleton Γ ctx component.toResolvedRole numa b
  annotations : b.spec.template.annotations = ∅
  names : b.pod.allContainers.map (·.name) = ownNames component.toResolvedRole
  volumes : b.pod.volumes = (roleParts Γ ctx { component.toResolvedRole with hugepages := hugepages }).flatMap (·.2)
  plain : PlainPod b.pod
  wired : WiredPod Γ (listenerContainer Γ) (ownRoles component) b.pod
  slashFree : SlashFree b.pod

section

variable {Γ : Platform} {ctx : BuildContext} {component : ResolvedComponent}

/-- The hugepages a component is built with on a node: they were resolved, and their total is valid. -/
def HugepagesOn (Γ : Platform) (ctx : BuildContext) (component : ResolvedComponent) (hugepages : Option Hugepages) : Prop :=
  resolveHugepagesForNode Γ ctx component.toResolvedRole = .ok { component.toResolvedRole with hugepages := hugepages } ∧
    ∀ h, hugepages = some h → ∃ total, h.totalQuantity Γ = .ok total

theorem enabledNuma_lt {role : ResolvedRole} (h : validateControlplaneNuma (effectiveNuma role) = .ok ()) {i : Nat}
    (hi : i ∈ enabledNuma role) : i < 10 := by
  have hlt := List.mem_range.1 (List.mem_filter.1 hi).1
  unfold validateControlplaneNuma maxControlplaneNuma at h
  split at h
  · cases h
  · omega

theorem HugepagesOn.none {hugepages : Option Hugepages} (h : FreeComponent Γ component) (hpages : HugepagesOn Γ ctx component hugepages)
    (hkind : component.kind ≠ .dataplane) : hugepages = none := by
  have hresolved := hpages.1
  unfold resolveHugepagesForNode at hresolved
  rw [if_pos hkind] at hresolved
  have hsame := congrArg ResolvedRole.hugepages (Except.ok.inj hresolved)
  exact hsame.symm.trans (h.buildable.hugepages hkind)

/-- One skeleton of a component with the listeners of its role. -/
theorem basePod_of (hquantity : ∀ s q, Γ.parseQuantity s = .ok q → '/' ∉ s.toList) (h : FreeComponent Γ component)
    {hugepages : Option Hugepages} (hpages : HugepagesOn Γ ctx component hugepages) {numa : Option Nat}
    (hnuma : numa ∈ instances component.toResolvedRole) :
    ∃ b, configureComponentListeners Γ (instanceSkeleton Γ ctx { component.toResolvedRole with hugepages := hugepages } numa)
      component.toResolvedRole false = .ok b ∧ BasePod Γ ctx component hugepages b := by
  have hbuildable : Buildable { component.toResolvedRole with hugepages := hugepages } :=
    ⟨h.buildable.containers, h.buildable.names, h.buildable.labels, hpages.none h⟩
  have hnuma' : numa ∈ instances { component.toResolvedRole with hugepages := hugepages } := hnuma
  have hplain := @instanceSkeleton_plain Γ ctx _ numa hbuildable h.containers hnuma'
  have howners : ∀ r ∈ ownRoles component, listenerContainer Γ r ∈ ownNames component.toResolvedRole := by
    intro r hr
    unfold ownRoles at hr
    split at hr
    · next hkind =>
      rw [List.mem_singleton.1 hr, h.listenerContainer]
      exact h.owner hkind
    · cases hr
  have hwired : WiredPod Γ (listenerContainer Γ) (ownRoles component)
      (instanceSkeleton Γ ctx { component.toResolvedRole with hugepages := hugepages } numa).pod :=
    instanceSkeleton_wired _ hbuildable hnuma' howners
  have hskeleton := instanceSkeleton_skeleton Γ ctx { component.toResolvedRole with hugepages := hugepages } numa
  have hnames := @instanceSkeleton_names Γ ctx _ numa hnuma'
  have hbuilt := @instanceSkeleton_built Γ ctx _ numa hnuma'
  have hvolumes := (instanceSkeleton_parts Γ ctx { component.toResolvedRole with hugepages := hugepages } hnuma').2
  have hannotations := (@instanceSkeleton_pod Γ ctx { component.toResolvedRole with hugepages := hugepages } numa).2.2
  generalize instanceSkeleton Γ ctx { component.toResolvedRole with hugepages := hugepages } numa = d at *
  have hlisten : ∃ b, configureComponentListeners Γ d component.toResolvedRole false = .ok b ∧
      WiredPod Γ (listenerContainer Γ) (ownRoles component) b.pod := by
    by_cases hkind : component.kind = .dataplane
    · have hnone : listenerPorts Γ component.toResolvedRole = [] := by rw [listenerPorts, if_pos hkind]
      refine ⟨d, ?_, hwired⟩
      unfold configureComponentListeners
      rw [hnone]
      rfl
    · have hroles : ownRoles component = [component.toResolvedRole] := if_pos hkind
      have hpodRoles : podRoles component = [component.toResolvedRole] := by
        rw [podRoles, if_pos hkind, h.noSidecars hkind]
        rfl
      rw [hroles] at hwired ⊢
      obtain ⟨g, t, hpair, -⟩ := (h.listening hkind).pair
      exact configureComponentListeners_wired hwired (hpodRoles ▸ h.portRoles) (List.mem_singleton.2 rfl)
        (fun r hr _ => List.mem_singleton.1 hr) h.listenerContainer.symm ⟨g, t, hpair⟩
  obtain ⟨b, hb, hbwired⟩ := hlisten
  have hports := configureComponentListeners_rewrites hb
  have hshape := configureComponentListeners_sameShape hb
  have hnumaLt : ∀ i, numa = some i → i < 10 := by
    rintro i rfl
    unfold instances at hnuma
    split at hnuma
    · next hkind =>
      obtain ⟨j, hj, hij⟩ := List.mem_map.1 hnuma
      cases hij
      exact enabledNuma_lt (h.numa hkind) hj
    · cases List.mem_singleton.1 hnuma
  refine ⟨b, hb, ⟨numa, hnumaLt, ?_⟩, ?_, ?_, ?_, hplain.ports hports, hbwired, ?_⟩
  · have hsame : Skeleton Γ ctx component.toResolvedRole numa d := by
      obtain ⟨h1, h2, h3, h4, h5, h6, h7, h8, h9, h10⟩ := hskeleton
      cases numa <;> exact ⟨h1, h2, h3, h4, h5, h6, h7, h8, h9, h10⟩
    exact hsame.of_sameShape hshape
  · obtain ⟨g, -, rfl⟩ := hports
    exact hannotations
  · rw [hports.map_eq (by rintro c _ ⟨ports, rfl⟩; rfl), hnames]
    rfl
  · rw [hports.volumes, hvolumes]
  · intro c hc k hk
    obtain ⟨g, hg, rfl⟩ := hports
    rw [allContainers_mapContainers] at hc
    obtain ⟨c0, hc0, rfl⟩ := List.mem_map.1 hc
    obtain ⟨ports, heq⟩ := hg c0
    rw [heq] at hk
    obtain ⟨hp, total, -, htotal, rfl⟩ := (hbuilt c0 hc0).2 k hk
    obtain ⟨q, hq, -⟩ := totalQuantity_ok.1 htotal
    rw [String.toList_append, List.mem_append]
    rintro (hname | hsize)
    · exact absurd hname (by decide)
    · exact hquantity hp.size _ hq hsize

theorem buildDeployments_total (hquantity : ∀ s q, Γ.parseQuantity s = .ok q → '/' ∉ s.toList) (h : FreeComponent Γ component)
    {hugepages : Option Hugepages} (hpages : HugepagesOn Γ ctx component hugepages) :
    ∃ built, buildDeployments Γ ctx component.toResolvedRole = .ok built ∧ ∀ b ∈ built, BasePod Γ ctx component hugepages b := by
  have hinstance (d : Deployment) (hd : d ∈ buildByKind Γ ctx { component.toResolvedRole with hugepages := hugepages }) :
      ∃ b, configureComponentListeners Γ d { component.toResolvedRole with hugepages := hugepages } false = .ok b ∧
        BasePod Γ ctx component hugepages b := by
    rw [buildByKind_eq] at hd
    obtain ⟨numa, hnuma, rfl⟩ := List.mem_map.1 hd
    exact basePod_of hquantity h hpages hnuma
  obtain ⟨built, hbuilt⟩ : ∃ built, (buildByKind Γ ctx { component.toResolvedRole with hugepages := hugepages }).mapM (fun d =>
      within ("buildDeployments: component " ++ Text.quote component.name ++ ": ")
        (configureComponentListeners Γ d { component.toResolvedRole with hugepages := hugepages } false)) = .ok built :=
    mapM_total fun d hd => by
      obtain ⟨b, hb, -⟩ := hinstance d hd
      exact ⟨b, within_ok.2 hb⟩
  refine ⟨built, ?_, fun b hb => ?_⟩
  · refine bind_eq_ok.2 ⟨_, hpages.1, seq_ok.2 ⟨onlyIf_ok.2 h.numa, seq_ok.2 ⟨optional_ok.2 fun hp hhp => ?_, hbuilt⟩⟩⟩
    obtain ⟨total, htotal⟩ := hpages.2 hp hhp
    rw [htotal]
    rfl
  · obtain ⟨d, hd, hdb⟩ := mapM_mem hbuilt hb
    obtain ⟨b', hb', hbase⟩ := hinstance d hd
    rw [within_ok.1 hdb] at hb'
    cases hb'
    exact hbase

end

/-! ## Composed Deployments -/

section

variable {Γ : Platform} {ctx : BuildContext}

theorem PlainContainer.mono {volumes volumes' : List Volume} {c : Container} (h : PlainContainer volumes c)
    (hsub : ∀ v ∈ volumes, v ∈ volumes') : PlainContainer volumes' c := by
  refine ⟨h.label, h.policy, fun m hm => ?_, h.devices, h.probes, h.lifecycle, h.env⟩
  obtain ⟨v, hv, hname⟩ := List.mem_map.1 (h.mounts m hm)
  exact List.mem_map.2 ⟨v, hsub v hv, hname⟩

/-- A plain container stays plain in the Pod it is composed into. -/
theorem PlainContainer.native {volumes : List Volume} {c : Container} (sidecar : String) (h : PlainContainer volumes c) :
    PlainContainer (volumes.map (volumeImage Γ sidecar)) (nativeImage Γ sidecar c) := by
  refine ⟨scopedOperatorName_label Γ sidecar h.label, Or.inr rfl, fun m hm => ?_, ?_, h.probes, h.lifecycle, fun v hv => ?_⟩
  · obtain ⟨m0, hm0, rfl⟩ := List.mem_map.1 hm
    obtain ⟨v, hv, hname⟩ := List.mem_map.1 (h.mounts m0 hm0)
    refine List.mem_map.2 ⟨volumeImage Γ sidecar v, List.mem_map_of_mem hv, ?_⟩
    exact congrArg (scopedOperatorName Γ sidecar) hname
  · show c.volumeDevices.map _ = []
    rw [h.devices]
    rfl
  · obtain ⟨v0, hv0, rfl⟩ := List.mem_map.1 hv
    show v0.valueFrom.map _ = none
    rw [h.env v0 hv0]
    rfl

theorem PlainVolume.native {v : Volume} (sidecar : String) (h : PlainVolume v) : PlainVolume (volumeImage Γ sidecar v) := by
  refine ⟨scopedOperatorName_label Γ sidecar h.label, ?_, ?_⟩
  · show v.projected.map _ = none
    rw [h.projected]
    rfl
  · show v.downwardAPI.map _ = none
    rw [h.downwardAPI]
    rfl

/-- A sidecar has one volume at most. -/
theorem FreeSidecar.volumes {s : ResolvedRole} (h : FreeSidecar s) :
    (singleContainer Γ ctx s).2.length ≤ 1 ∧ ∀ v ∈ (singleContainer Γ ctx s).2, PlainVolume v := by
  have hhost : hostVolumes s = [] := by
    unfold hostVolumes
    rw [h.hugepages, h.kind]
    rfl
  have hvolumes : (singleContainer Γ ctx s).2 = (buildConfigVolumes Γ ctx s).1 := by
    rw [(singleContainer_parts Γ ctx s).volumes, hhost, List.append_nil]
  obtain ⟨hnodup, hplain⟩ := configVolumes_plain "config" (by decide) (inlineConfigMapName Γ ctx s) s.config
  rw [hvolumes]
  refine ⟨?_, hplain⟩
  have hsub : (buildConfigVolumes Γ ctx s).1.map (·.name) ⊆ ["config"] := by
    intro n hn
    obtain ⟨v, hv, rfl⟩ := List.mem_map.1 hn
    exact List.mem_singleton.2 (configVolumes_names v hv)
  have hlength := (hnodup.subperm hsub).length_le
  rwa [List.length_map] at hlength

/-- The container of a sidecar in its own Deployment. -/
theorem FreeSidecar.container {s : ResolvedRole} (h : FreeSidecar s) :
    PlainContainer (singleContainer Γ ctx s).2 (sidecarContainer Γ ctx s) := by
  obtain ⟨hinstance, hskeleton⟩ := @FreeSidecar.instance Γ ctx s h
  have hplain : PlainPod (buildSingle Γ ctx s).pod :=
    hskeleton ▸ instanceSkeleton_plain h.buildable (by simp [h.noContainers]) hinstance
  have hc := hplain.each (singleContainer Γ ctx s).1 (by rw [buildSingle_allContainers]; exact List.mem_singleton.2 rfl)
  exact ⟨hc.label, hc.policy, hc.mounts, hc.devices, hc.probes, hc.lifecycle, hc.env⟩

end

/-- A Deployment into which the sidecars of a component were composed. -/
structure ComposedPod (Γ : Platform) (ctx : BuildContext) (component : ResolvedComponent) (b composed : Deployment) : Prop where
  parts : ComposedPlain Γ ctx b component.sidecars composed
  names : composed.pod.allContainers.map (·.name) = ownNames component.toResolvedRole ++ enabledSidecarNames Γ component
  plain : PlainPod composed.pod
  wired : WiredPod Γ (listenerContainer Γ) (podRoles component) composed.pod
  slashFree : SlashFree composed.pod

section

variable {Γ : Platform} {ctx : BuildContext} {component : ResolvedComponent} {registry : PatchRegistry} {hugepages : Option Hugepages}
  {b composed : Deployment}

theorem composeSidecars_total (hyanet : YanetNameOk ctx.yanetName) (h : FreeComponent Γ component) (b : Deployment) :
    ∃ composed, component.sidecars.foldlM (composeSidecar Γ ctx registry) b = .ok composed := by
  obtain ⟨composed, hcomposed, -⟩ : ∃ composed, component.sidecars.foldlM (composeSidecar Γ ctx registry) b = .ok composed ∧ True := by
    refine foldlM_total trivial fun s hs d _ => ?_
    obtain ⟨op, hop⟩ := @renderSidecar_total Γ ctx registry s hyanet (h.sidecars s hs)
    exact ⟨_, bind_eq_ok.2 ⟨op, within_ok.2 hop, rfl⟩, trivial⟩
  exact ⟨composed, hcomposed⟩

theorem ComposedPlain.allContainers (hb : BasePod Γ ctx component hugepages b)
    (h : ComposedPlain Γ ctx b component.sidecars composed) :
    composed.pod.allContainers = b.pod.allContainers ++ nativeContainers Γ ctx component.sidecars := by
  obtain ⟨numa, -, hskeleton⟩ := hb.skeleton
  rw [PodSpec.allContainers, h.containers, h.initContainers, PodSpec.allContainers, hskeleton.initContainers, List.nil_append,
    List.append_nil]

theorem ownNames_unscoped (h : FreeComponent Γ component) (hs : component.sidecars ≠ []) :
    ∀ n ∈ ownNames component.toResolvedRole, isManagedNativeContainer n = false := by
  have hkind : component.kind = .dataplane := by
    by_contra hne
    exact hs (h.noSidecars hne)
  have hown : ownNames component.toResolvedRole = ["dataplane"] := by
    unfold ownNames
    rw [hkind, if_neg (by decide), if_neg (by decide)]
    rfl
  rw [hown]
  decide

theorem composed_names (h : FreeComponent Γ component) (hb : BasePod Γ ctx component hugepages b)
    (hcomposed : ComposedPlain Γ ctx b component.sidecars composed) :
    composed.pod.allContainers.map (·.name) = ownNames component.toResolvedRole ++ enabledSidecarNames Γ component ∧
      (composed.pod.allContainers.map (·.name)).Nodup := by
  have hnames : composed.pod.allContainers.map (·.name) = ownNames component.toResolvedRole ++ enabledSidecarNames Γ component := by
    rw [hcomposed.allContainers hb, List.map_append, hb.names, nativeContainers_names fun s hs => (h.sidecars s hs).kind]
    rfl
  refine ⟨hnames, ?_⟩
  rw [hnames, List.nodup_append]
  refine ⟨h.buildable.names, scopedNames_nodup h.keys, fun n hn n' hn' heq => ?_⟩
  obtain ⟨s, hs, rfl⟩ := List.mem_map.1 hn'
  have hunscoped := ownNames_unscoped h (List.ne_nil_of_mem (List.mem_filter.1 hs).1) n hn
  rw [heq, isManagedNativeContainer_scoped] at hunscoped
  cases hunscoped

theorem composed_volumes (h : FreeComponent Γ component) (hb : BasePod Γ ctx component hugepages b)
    (hcomposed : ComposedPlain Γ ctx b component.sidecars composed) :
    (composed.pod.volumes.map (·.name)).Nodup ∧ ∀ v ∈ composed.pod.volumes, PlainVolume v := by
  refine ⟨?_, ?_⟩
  · have hparts : composed.pod.volumes = (componentParts Γ ctx component hugepages).flatMap (·.2) := by
      rw [hcomposed.volumes, hb.volumes, componentParts, List.flatMap_append, nativeVolumes, List.flatMap_map]
      rfl
    have hown : ∀ p ∈ componentParts Γ ctx component hugepages, (p.2.map (·.name)).Nodup := by
      intro p hp
      rcases List.mem_append.1 hp with hp | hp
      · have hnodup := hb.plain.volumeNames
        rw [hb.volumes, List.map_flatMap, List.nodup_flatMap] at hnodup
        exact hnodup.1 p hp
      · obtain ⟨s, hs, rfl⟩ := List.mem_map.1 hp
        have hlength := (@FreeSidecar.volumes Γ ctx s (h.sidecars s (List.mem_filter.1 hs).1)).1
        show (((singleContainer Γ ctx s).2.map _).map _).Nodup
        generalize (singleContainer Γ ctx s).2 = volumes at hlength
        cases volumes with
        | nil => exact List.nodup_nil
        | cons v vs =>
          have hnil : vs = [] := List.length_eq_zero_iff.1 (by simpa using hlength)
          rw [hnil]
          exact List.nodup_singleton _
    rw [hparts, List.map_flatMap, List.nodup_flatMap]
    refine ⟨hown, (componentParts_apart h.plain h.noSidecars hugepages).imp fun {p q} hapart n hn hn' => ?_⟩
    obtain ⟨v, hv, rfl⟩ := List.mem_map.1 hn
    obtain ⟨w, hw, heq⟩ := List.mem_map.1 hn'
    exact hapart v hv w hw heq.symm
  · rw [hcomposed.volumes, nativeVolumes]
    refine List.forall_mem_append.2 ⟨hb.plain.volumes, fun v hv => ?_⟩
    obtain ⟨s, hs, hv⟩ := List.mem_flatMap.1 hv
    obtain ⟨w, hw, rfl⟩ := List.mem_map.1 hv
    exact ((h.sidecars s (List.mem_filter.1 hs).1).volumes.2 w hw).native s.name

/-- The resources of a sidecar: it asks for none. -/
theorem FreeSidecar.slashFree {s : ResolvedRole} (h : FreeSidecar s) (k : String) :
    ¬((sidecarContainer Γ ctx s).resources.requests[k]? ≠ none ∨ (sidecarContainer Γ ctx s).resources.limits[k]? ≠ none) := by
  intro hk
  obtain ⟨hinstance, hskeleton⟩ := @FreeSidecar.instance Γ ctx s h
  have hmem : (singleContainer Γ ctx s).1 ∈ (instanceSkeleton Γ ctx s none).pod.allContainers := by
    rw [hskeleton, buildSingle_allContainers]
    exact List.mem_singleton.2 rfl
  obtain ⟨hp, total, hsome, -⟩ := (instanceSkeleton_built hinstance _ hmem).2 k hk
  rw [h.hugepages] at hsome
  cases hsome

/-- Composing the sidecars of a component leaves Pods every check accepts. -/
theorem composedPod_of (h : FreeComponent Γ component) (hb : BasePod Γ ctx component hugepages b)
    (hcomposed : component.sidecars.foldlM (composeSidecar Γ ctx registry) b = .ok composed) : ComposedPod Γ ctx component b composed := by
  have hparts := composeSidecars_plain (fun s hs => (h.sidecars s hs).toPlainSidecar) hcomposed
  obtain ⟨hnames, hnodup⟩ := composed_names h hb hparts
  obtain ⟨hvolumeNames, hvolumes⟩ := composed_volumes h hb hparts
  have hcontainers := hparts.allContainers hb
  refine ⟨hparts, hnames, ⟨?_, ?_, hvolumeNames, hvolumes, ?_⟩, ⟨hnodup, ?_, ?_⟩, ?_⟩
  · rw [hparts.hostNetwork]
    exact hb.plain.hostNetwork
  · rw [hparts.containers]
    exact hb.plain.containers
  · rw [hcontainers, hparts.volumes]
    refine List.forall_mem_append.2 ⟨fun c hc => (hb.plain.each c hc).mono fun v hv => List.mem_append_left _ hv, fun c hc => ?_⟩
    obtain ⟨s, hs, rfl⟩ := List.mem_map.1 hc
    refine ((h.sidecars s (List.mem_filter.1 hs).1).container.native s.name).mono fun v hv => List.mem_append_right _ ?_
    exact List.mem_flatMap.2 ⟨s, hs, hv⟩
  · intro r hr
    rw [hnames]
    rcases List.mem_append.1 hr with hr | hr
    · refine List.mem_append_left _ ?_
      rw [← hb.names]
      exact hb.wired.owners r hr
    · rw [(h.sidecars r (List.mem_filter.1 hr).1).listenerContainer]
      exact List.mem_append_right _ (List.mem_map.2 ⟨r, hr, rfl⟩)
  · rw [hcontainers]
    refine List.forall_mem_append.2 ⟨fun c hc => ?_, fun c hc => ?_⟩
    · exact (hb.wired.ports c hc).imp id fun ⟨r, hr, hport⟩ => ⟨r, List.mem_append_left _ hr, hport⟩
    · obtain ⟨s, hs, rfl⟩ := List.mem_map.1 hc
      have hfree := h.sidecars s (List.mem_filter.1 hs).1
      refine Or.inr ⟨s, List.mem_append_right _ hs, ?_, rfl⟩
      rw [hfree.listenerContainer]
      exact congrArg (scopedOperatorName Γ s.name) (sidecarContainer_name hfree.kind)
  · unfold SlashFree
    rw [hcontainers]
    refine List.forall_mem_append.2 ⟨hb.slashFree, fun c hc k hk => ?_⟩
    obtain ⟨s, hs, rfl⟩ := List.mem_map.1 hc
    exact absurd hk ((h.sidecars s (List.mem_filter.1 hs).1).slashFree k)

end

end YanetOperator
