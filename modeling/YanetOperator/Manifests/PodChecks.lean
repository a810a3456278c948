import YanetOperator.Manifests.Listeners

/-!
# Checks of a composed Pod

`pod_ports.go`, `ValidatePodContainerNames` of `labels.go`, and the validators of `operator_placement.go`: names, references and
ports of a Pod, before any resource is written.
-/

namespace YanetOperator

open Check

/-- `isManagedNativeContainer`. -/
def isManagedNativeContainer (name : String) : Bool := Text.hasPrefix name operatorContainerPrefix

/-- The text of the restart policy `Always`. -/
def restartAlways : String := "Always"

/-- `ValidatePodContainerNames`. -/
def validatePodContainerNames (d : Deployment) : Check :=
  let regular := d.pod.containers.map (·.name)
  let managed := d.spec.template.labels[labelComponent]? == some ComponentKind.dataplane.text
  distinct (fun c : Container × String => c.1.name)
    (fun _ c => refuse (c.2 = "regular" ∧ managed = true ∧ isManagedNativeContainer c.1.name = true)
      ("deployment " ++ d.metadata.name ++ " must place dataplane sidecar " ++ Text.quote c.1.name ++ " in initContainers"))
    (fun _ c => "deployment " ++ d.metadata.name ++ " uses container name " ++ Text.quote c.1.name ++ " in both " ++
      (if c.1.name ∈ regular then "regular" else "init") ++ " and " ++ c.2 ++ " containers")
    (fun _ _ => .ok ()) [] 0
    (d.pod.containers.map (fun c => (c, "regular")) ++ d.pod.initContainers.map (fun c => (c, "init")))

/-! ## Probes and lifecycle hooks -/

/-- The ports `visitContainerPortActions` visits, in its order. -/
def containerPortActions (container : Container) : List IntOrString :=
  let action (http tcp : Option PortAction) : List IntOrString := (http.toList ++ tcp.toList).map (·.port)
  let probes := [container.startupProbe, container.readinessProbe, container.livenessProbe].filterMap id
  let hooks := (container.lifecycle.toList.flatMap fun l => [l.postStart, l.preStop]).filterMap id
  probes.flatMap (fun p => action p.httpGet p.tcpSocket) ++ hooks.flatMap (fun h => action h.httpGet h.tcpSocket)

/-- Whether a named action resolves to a TCP port of the container, or a numbered one is in range. -/
def portActionError (container : Container) : IntOrString → Option String
  | .str name =>
    let names := (container.ports.filter fun p => p.protocol = "" ∨ p.protocol = "TCP").map (·.name)
    if name = "" ∨ name ∉ names then
      some ("container " ++ Text.quote container.name ++ " probe/lifecycle port " ++ Text.quote name ++
        " does not name a TCP port in that container")
    else none
  | .int n =>
    if n < 1 ∨ n > 65535 then
      some ("container " ++ Text.quote container.name ++ " probe/lifecycle has invalid port " ++ toString n)
    else none

/-- `validateContainerProbePorts`: of several bad actions the last is reported. -/
def validateContainerProbePorts (container : Container) : Check :=
  match ((containerPortActions container).filterMap (portActionError container)).getLast? with
  | some e => .error e
  | none =>
    forM (([container.startupProbe, container.readinessProbe, container.livenessProbe].filterMap id).filterMap (·.grpc))
      fun port => refuse (port < 1 ∨ port > 65535)
        ("container " ++ Text.quote container.name ++ " gRPC probe has invalid port " ++ toString port)

/-! ## Ports of containers that run at the same time -/

/-- A port number with its protocol; an empty protocol is TCP. -/
def portKey (port : ContainerPort) : Int × String :=
  (port.containerPort, if port.protocol = "" then "TCP" else port.protocol)

/-- The ports in use, the latest user of a port first. -/
abbrev Occupied := List ((Int × String) × String)

/-- `check` of `validateConcurrentPodPorts`. -/
def checkOccupied (occupied : Occupied) (container : Container) : Check :=
  forM container.ports fun port =>
    match occupied.find? (·.1 == portKey port) with
    | none => .ok ()
    | some (_, owner) => refuse (owner ≠ container.name)
      ("containers " ++ Text.quote owner ++ " and " ++ Text.quote container.name ++
        " run concurrently and use the same " ++ (portKey port).2 ++ " port " ++ toString port.containerPort)

/-- `reserve` of `validateConcurrentPodPorts`. -/
def reservePorts (occupied : Occupied) (container : Container) : Occupied :=
  (container.ports.map fun port => (portKey port, container.name)).reverse ++ occupied

/-- The loop over the regular containers. -/
def checkRegularPorts : Occupied → List Container → Except String Occupied
  | persistent, [] => .ok persistent
  | persistent, container :: containers => do
    checkOccupied persistent container
    checkRegularPorts (reservePorts persistent container) containers

/-- The loop over the init containers: a restartable one overlaps everything that runs on, a one-shot one only the restartable
ones before it. -/
def checkInitPorts : Occupied → Occupied → List Container → Check
  | _, _, [] => .ok ()
  | persistent, sidecars, container :: containers =>
    if container.restartPolicy = some restartAlways then do
      checkOccupied persistent container
      checkInitPorts (reservePorts persistent container) (reservePorts sidecars container) containers
    else do
      checkOccupied sidecars container
      checkInitPorts persistent sidecars containers

/-- `validateConcurrentPodPorts`. -/
def validateConcurrentPodPorts (pod : PodSpec) : Check := do
  let persistent ← checkRegularPorts [] pod.containers
  checkInitPorts persistent [] pod.initContainers

/-! ## References to containers -/

/-- The references `visitResourceFieldRefs` visits, in its order. -/
def resourceFieldRefs (pod : PodSpec) : List ResourceFieldSelector :=
  (pod.allContainers.flatMap fun c => c.env.filterMap fun v => v.valueFrom.bind (·.resourceFieldRef)) ++
  pod.volumes.flatMap fun v =>
    ((v.downwardAPI.getD []) ++ (v.projected.getD []).flatMap fun s => s.downwardAPI.getD []).filterMap (·.resourceFieldRef)

/-- Change the references of a list of downward API files. -/
def mapFileRefs (f : ResourceFieldSelector → ResourceFieldSelector) (items : List DownwardAPIVolumeFile) :
    List DownwardAPIVolumeFile :=
  items.map fun item => { item with resourceFieldRef := item.resourceFieldRef.map f }

/-- Change the references of a container. -/
def Container.mapRefs (f : ResourceFieldSelector → ResourceFieldSelector) (c : Container) : Container :=
  { c with env := c.env.map fun v =>
      { v with valueFrom := v.valueFrom.map fun s => { s with resourceFieldRef := s.resourceFieldRef.map f } } }

/-- Change the references of a volume. -/
def Volume.mapRefs (f : ResourceFieldSelector → ResourceFieldSelector) (v : Volume) : Volume :=
  { v with
    downwardAPI := v.downwardAPI.map (mapFileRefs f)
    projected := v.projected.map fun sources =>
      sources.map fun s => { s with downwardAPI := s.downwardAPI.map (mapFileRefs f) } }

/-- `visitResourceFieldRefs` with a visitor that changes the references. -/
def mapResourceFieldRefs (f : ResourceFieldSelector → ResourceFieldSelector) (pod : PodSpec) : PodSpec :=
  { pod.mapContainers (·.mapRefs f) with volumes := pod.volumes.map (·.mapRefs f) }

/-! ## The composed Pod -/

/-- The checks of one port; the result is the list of port names seen. -/
def validatePorts (container : String) : List String → List ContainerPort → Except String (List String)
  | seen, [] => .ok seen
  | seen, port :: ports => do
    refuse (port.protocol ∉ ["", "TCP", "UDP", "SCTP"])
      ("container " ++ Text.quote container ++ " has invalid port protocol " ++ Text.quote port.protocol)
    refuse (port.containerPort < 1 ∨ port.containerPort > 65535 ∨ port.hostPort < 0 ∨ port.hostPort > 65535)
      ("container " ++ Text.quote container ++ " has invalid port " ++ toString port.containerPort ++ "/" ++
        toString port.hostPort)
    if port.name = "" then validatePorts container seen ports
    else do
      refuse (Text.isValidPortName port.name ≠ [] ∨ port.name ∈ seen)
        ("invalid or duplicate port name " ++ Text.quote port.name)
      validatePorts container (port.name :: seen) ports

/-- The checks of one container of `ValidateComposedPod` before its ports. -/
def validateContainerRefs (volumes : List String) (c : Container) : Check := do
  refuse (c.restartPolicy ≠ none ∧ c.restartPolicy ≠ some restartAlways)
    ("container " ++ Text.quote c.name ++ " has unsupported restartPolicy " ++ Text.quote (c.restartPolicy.getD ""))
  refuse (Text.isDNS1123Label c.name ≠ []) ("invalid container name " ++ Text.quote c.name)
  forM c.volumeMounts fun mount => refuse (mount.name ∉ volumes)
    ("container " ++ Text.quote c.name ++ " references missing volume " ++ Text.quote mount.name)
  forM c.volumeDevices fun device => refuse (device.name ∉ volumes)
    ("container " ++ Text.quote c.name ++ " references missing volume device " ++ Text.quote device.name)

/-- The loop of `ValidateComposedPod` over the containers, with the port names seen. -/
def validateContainers (volumes : List String) : List String → List Container → Check
  | _, [] => .ok ()
  | seen, c :: cs => do
    validateContainerRefs volumes c
    let seen ← validatePorts c.name seen c.ports
    validateContainerProbePorts c
    validateContainers volumes seen cs

/-- `ValidateComposedPod`. -/
def validateComposedPod (d : Deployment) : Check := do
  validatePrivatePodNetwork d.pod
  validatePodContainerNames d
  let problems := Text.isDNS1123Subdomain d.metadata.name
  refuse (problems ≠ []) ("invalid Deployment name " ++ Text.quote d.metadata.name ++ ": " ++ Text.bracketed problems)
  refuse (d.pod.containers = []) ("deployment " ++ Text.quote d.metadata.name ++ " has no application containers")
  let text (v : Volume) := "invalid or duplicate volume name " ++ Text.quote v.name
  distinct Volume.name (fun _ v => refuse (Text.isDNS1123Label v.name ≠ []) (text v)) (fun _ v => text v) (fun _ _ => .ok ()) []
    0 d.pod.volumes
  validateContainers (d.pod.volumes.map (·.name)) [] d.pod.allContainers
  let names := d.pod.allContainers.map (·.name)
  match ((resourceFieldRefs d.pod).filter fun r => r.containerName ≠ "" ∧ r.containerName ∉ names).getLast? with
  | some r => .error ("resourceFieldRef refers to missing container " ++ Text.quote r.containerName)
  | none => validateConcurrentPodPorts d.pod

/-- The scoped names of the enabled sidecars, in the order of the palette. -/
def enabledSidecarNames (Γ : Platform) (component : ResolvedComponent) : List String :=
  (component.sidecars.filter (·.enabled)).map fun s => scopedOperatorName Γ s.name s.name

/-- The loop of `validateSidecarComposition` over the init containers: the restartable ones are the expected ones in order. -/
def checkSidecarOrder : List String → List Container → Check
  | expected, [] => refuse (expected ≠ []) "dataplane patch removed a declared native sidecar or its restartPolicy"
  | expected, container :: containers =>
    match container.restartPolicy with
    | none => checkSidecarOrder expected containers
    | some policy =>
      match expected with
      | [] => .error "dataplane patch changed declared native sidecar composition/order/restartPolicy"
      | name :: rest =>
        if policy ≠ restartAlways ∨ container.name ≠ name then
          .error "dataplane patch changed declared native sidecar composition/order/restartPolicy"
        else checkSidecarOrder rest containers

/-- `validateSidecarComposition`. -/
def validateSidecarComposition (Γ : Platform) (pod : PodSpec) (component : ResolvedComponent) : Check := do
  refuse (pod.containers.map (·.name) ≠ [dataplaneContainerName])
    "dataplane patches must retain its primary container; declare sidecars in dataplane.sidecars"
  checkSidecarOrder (enabledSidecarNames Γ component) pod.initContainers

/-- The reserved ports of the sidecars with their owners, the latest first. -/
def reservedPorts (Γ : Platform) : List ResolvedRole → List (Int × String) → Except String (List (Int × String))
  | [], owners => .ok owners
  | sidecar :: sidecars, owners => do
    let (grpcPort, httpPort) ← runtimePortPair sidecar
    let owner := scopedOperatorName Γ sidecar.name sidecar.name
    reservedPorts Γ sidecars ((httpPort, owner) :: (grpcPort, owner) :: owners)

/-- `validateReservedColocatedPorts`. -/
def validateReservedColocatedPorts (Γ : Platform) (d : Deployment) (component : ResolvedComponent) : Check := do
  let owners ← reservedPorts Γ component.sidecars []
  forM d.pod.allContainers fun container =>
    forM container.ports fun port =>
      match owners.find? (·.1 == port.containerPort) with
      | none => .ok ()
      | some (_, owner) => refuse (owner ≠ container.name ∧ (port.protocol = "" ∨ port.protocol = "TCP"))
        ("port " ++ toString port.containerPort ++ " is reserved for " ++ Text.quote owner ++ ", not " ++
          Text.quote container.name)

end YanetOperator
