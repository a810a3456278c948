import YanetOperator.Manifests.Identity
import YanetOperator.Manifests.Service

/-!
# Rendering

`RenderDeployments` and the passes it runs over each Deployment: the composition of sidecars, the overrides of the installation
(`installation_overrides.go`), the typed networks (`dataplane_networks.go`) and the runtime endpoints (`runtime_network.go`).
-/

namespace YanetOperator

open Check

/-! ## Installation overrides -/

/-- `applyImageOverride`. -/
def applyImageOverride (d : Deployment) (name : String) (image : ResolvedImage) (override : Option YanetContainerOverride) :
    Except String Deployment :=
  match override with
  | none => .ok d
  | some o =>
    if o.name = "" ∧ o.tag = "" then .ok d else do
    let _ ← findContainer d name
    pure (modifyContainer d name fun c => { c with image := image.fullPath })

/-- `hasHugepages`. -/
def hasHugepages (resources : ResourceList) : Bool := resources.keys.any fun name => Text.hasPrefix name resourceHugePagesPrefix

/-- `restoreHugepages`. -/
def restoreHugepages (patched original : ResourceList) : ResourceList :=
  (patched.eraseWhere fun name => Text.hasPrefix name resourceHugePagesPrefix).override
    (original.eraseWhere fun name => !Text.hasPrefix name resourceHugePagesPrefix)

/-- The image an override of a container selects: none for a container the operator does not declare. -/
def overrideImage (component : ResolvedRole) (name : String) : Option ResolvedImage :=
  match component.containers.find? (·.name == name) with
  | some container => some container.image
  | none => if component.kind ≠ .operator then some component.image else none

/-- The container overrides of `applyInstallationOverrides`, in the order of their names. -/
def applyContainerOverrides (component : ResolvedRole) (d : Deployment) : Except String Deployment :=
  match component.overrides with
  | none => .ok d
  | some overrides => overrides.containers.toList.foldlM (fun d (name, override) =>
      match overrideImage component name with
      | none => .ok d
      | some image => applyImageOverride d name image (some override)) d

/-- `applyInstallationOverrides`. -/
def applyInstallationOverrides (Γ : Platform) (d unpatched : Deployment) (component : ResolvedComponent) :
    Except String Deployment := do
  let d : Deployment :=
    if component.enabled = false ∨ (component.overrides.bind (·.enabled)).isSome = true then
      { d with spec := { d.spec with replicas := replicasFor component.toResolvedRole } }
    else d
  let d ← applyContainerOverrides component.toResolvedRole d
  let d ← (component.sidecars.filter (·.enabled)).foldlM (fun d sidecar =>
    applyImageOverride d (scopedOperatorName Γ sidecar.name sidecar.name) sidecar.image sidecar.sidecarOverride) d
  if component.kind ≠ .dataplane then pure d else
  match unpatched.pod.containers with
  | [] => pure d
  | original :: _ =>
    if hasHugepages original.resources.requests then do
      let _ ← findContainer d dataplaneContainerName
      pure (modifyContainer d dataplaneContainerName fun c =>
        { c with resources :=
            { requests := restoreHugepages c.resources.requests original.resources.requests
              limits := restoreHugepages c.resources.limits original.resources.limits } })
    else pure d

/-! ## Typed networks -/

def multusNetworksAnnotation : String := "k8s.v1.cni.cncf.io/networks"

/-- Count an attachment under its resource name. -/
def addResource (counts : ResourceList) (network : NetworkAttachment) : ResourceList :=
  counts.insert network.resourceName ((counts[network.resourceName]?).getD 0 + 1)

/-- `configureDataplaneNetworks`. -/
def configureDataplaneNetworks (Γ : Platform) (d : Deployment) (component : ResolvedRole) : Except String Deployment :=
  match component.networks with
  | none => .ok d
  | some declared => do
    refuse ((d.spec.template.annotations[ multusNetworksAnnotation]?).isSome = true)
      ("dataplane networks conflict with a patched " ++ multusNetworksAnnotation ++ " annotation")
    forM d.pod.allContainers fun container =>
      forM component.networkResources fun name =>
        refuse ((container.resources.requests[name]?).isSome = true ∨ (container.resources.limits[name]?).isSome = true)
          ("dataplane network resource " ++ Text.quote name ++ " conflicts with patched resources in container " ++
            Text.quote container.name)
    let networks := declared.map fun n => { n with ns := if n.ns = "" then d.metadata.ns else n.ns }
    validateNetworkAttachments networks
    if networks = [] then pure d else
    let payload := Γ.marshalSelections (networks.map fun n => (n.name, n.ns, n.interface))
    let counts := networks.foldl addResource ∅
    pure { d with spec := { d.spec with template := { d.spec.template with
      annotations := d.spec.template.annotations.insert multusNetworksAnnotation payload
      spec := { d.pod with
        containers := d.pod.containers.modifyHead fun c =>
          { c with resources :=
              { requests := c.resources.requests.override counts, limits := c.resources.limits.override counts } } } } } }

/-! ## Runtime endpoints -/

/-- `serviceEndpoint`. -/
def serviceEndpoint (ctx : BuildContext) (name : String) (port : Int) : String :=
  name ++ "." ++ ctx.ns ++ ".svc.cluster.local:" ++ toString port

/-- `WithRuntimeNetwork`. -/
def withRuntimeNetwork (Γ : Platform) (ctx : BuildContext) (config : YanetConfigSpec) (spec : YanetSpec) :
    Except String BuildContext := do
  match ← resolveBoxComponent Γ config spec .controlplane "" with
  | none => pure ctx
  | some controlplane =>
    let endpoint (i : Nat) := serviceEndpoint ctx (sharedServiceName Γ ctx.boxType controlplane.name (some i)) runtimeGRPCPort
    pure { ctx with gatewayEndpoints := (enabledNuma controlplane.toResolvedRole).map endpoint }

/-- `managedHostConfig`. -/
def managedHostConfig (pod : PodSpec) (container : Container) (name : String) : Bool :=
  container.volumeMounts.any (·.name == name) &&
    match pod.volumes.find? (·.name == name) with
    | some volume => volume.hostPath.isSome
    | none => false

/-- The environment `configureRuntimeContainer` owns on the listener container of a role. -/
def runtimeVariables (Γ : Platform) (ctx : BuildContext) (component : ResolvedRole) (grpcPort httpPort : Int) : List EnvVar :=
  let bindTo (port : Int) : String := "[::]:" ++ toString port
  match component.kind with
  | .controlplane =>
    [{ name := "YANET_GATEWAY_SERVER_ENDPOINT", value := bindTo grpcPort },
      { name := "YANET_GATEWAY_SERVER_HTTP_ENDPOINT", value := bindTo httpPort }]
  | .birdAdapter =>
    [{ name := "YANET_LISTEN_ADDR", value := bindTo grpcPort },
      { name := "YANET_ROUTE_OPERATOR_ENDPOINT"
        value := serviceEndpoint ctx (sharedServiceName Γ ctx.boxType "route" none) runtimeGRPCPort }]
  | _ =>
    [{ name := "YANET_SERVER_ENDPOINT"
       value := bindTo (if component.listenerNames = some ["http"] then httpPort else grpcPort) }] ++
    ((listenerPorts Γ component).filter (·.name == "grpc")).map (fun _ =>
      { name := "YANET_SERVER_ADVERTISE_ENDPOINT"
        value := serviceEndpoint ctx (sharedServiceName Γ ctx.boxType component.name none) runtimeGRPCPort }) ++
    ctx.gatewayEndpoints.zipIdx.map fun (endpoint, index) =>
      { name := "YANET_GATEWAYS_" ++ toString index ++ "_ENDPOINT", value := endpoint }

/-- The configuration of the listener container of a role: the name of its volume, and its source. -/
def runtimeConfig (component : ResolvedRole) : Except String (String × Option ConfigSource) :=
  match component.kind, component.containers with
  | .operator, [] => .error ("operator " ++ Text.quote component.name ++ " has no primary container")
  | .operator, primary :: _ => .ok ("config-0", primary.config)
  | _, _ => .ok ("config", component.config)

/-- `configureRuntimeContainer`. -/
def configureRuntimeContainer (Γ : Platform) (d : Deployment) (ctx : BuildContext) (component : ResolvedRole)
    (composed : Bool) : Except String Deployment := do
  let (configName, source) ← runtimeConfig component
  if ConfigSource.isZero source then pure d else
  let name := listenerOwner Γ component composed
  let configName := if composed then scopedOperatorName Γ component.name configName else configName
  let container ← findContainer d name
  if managedHostConfig d.pod container configName = false then pure d else
  let (grpcPort, httpPort) ← runtimePortPair component
  let vars := runtimeVariables Γ ctx component grpcPort httpPort
  pure (modifyContainer d name fun c =>
    { c with env := vars ++ c.env.filter fun v => v.name ∉ vars.map (·.name) })

/-- `ConfigureRuntimeNetwork`. -/
def configureRuntimeNetwork (Γ : Platform) (d : Deployment) (ctx : BuildContext) (component : ResolvedComponent) :
    Except String Deployment := do
  let d ← (if component.kind ≠ .dataplane then configureRuntimeContainer Γ d ctx component.toResolvedRole false else .ok d)
  (component.sidecars.filter (·.enabled)).foldlM (fun d sidecar => configureRuntimeContainer Γ d ctx sidecar true) d

/-! ## Composition -/

/-- The sidecar's own Deployment of `composeSidecar`, patched and checked. -/
def renderSidecar (Γ : Platform) (ctx : BuildContext) (sidecar : ResolvedRole) (registry : PatchRegistry) :
    Except String Deployment := do
  forM sidecar.patches fun name =>
    match registry[name]? with
    | none => .error ("patch " ++ Text.quote name ++ " is not defined")
    | some patch => within ("patch " ++ Text.quote name ++ ": ") (validateSidecarPatch patch.patch)
  let op ← applyPatches Γ (buildSingle Γ ctx sidecar) sidecar.patches registry
  let op ← applyImageOverride op sidecar.name sidecar.image sidecar.sidecarOverride
  validatePrivatePodNetwork op.pod
  refuse (op.pod.containers.map (·.name) ≠ [sidecar.name])
    ("sidecar " ++ Text.quote sidecar.name ++ " patches must retain exactly its declared container")
  forM op.pod.initContainers fun container => refuse (container.restartPolicy ≠ none)
    ("sidecar " ++ Text.quote sidecar.name ++
      " patch adds a restartable container; declare it in dataplane.sidecars")
  let op ← configureComponentListeners Γ op sidecar false
  validateComposedPod op
  pure op

/-- A container of a sidecar under its scoped names. -/
def scopeContainer (Γ : Platform) (sidecar : String) (c : Container) : Container :=
  { c with
    name := scopedOperatorName Γ sidecar c.name
    volumeMounts := c.volumeMounts.map fun m => { m with name := scopedOperatorName Γ sidecar m.name }
    volumeDevices := c.volumeDevices.map fun v => { v with name := scopedOperatorName Γ sidecar v.name } }

/-- A reference to a container of a sidecar under its scoped name. -/
def scopeRef (Γ : Platform) (sidecar : String) (r : ResourceFieldSelector) : ResourceFieldSelector :=
  if r.containerName ≠ "" then { r with containerName := scopedOperatorName Γ sidecar r.containerName } else r

/-- The Pod of an enabled sidecar, scoped and appended to the dataplane's. -/
def mergeSidecar (Γ : Platform) (d : Deployment) (sidecar : String) (op : Deployment) : Deployment :=
  let pod := mapResourceFieldRefs (scopeRef Γ sidecar) op.pod
  { d with spec := { d.spec with template := { d.spec.template with
    labels := d.spec.template.labels.insert (operatorMembershipLabel Γ sidecar) sidecar
    spec := { d.pod with
      volumes := d.pod.volumes ++ pod.volumes.map fun v => { v with name := scopedOperatorName Γ sidecar v.name }
      initContainers := d.pod.initContainers ++ pod.initContainers.map (scopeContainer Γ sidecar) ++
        pod.containers.map fun c => { scopeContainer Γ sidecar c with restartPolicy := some restartAlways } } } } }

/-- `composeSidecar`. -/
def composeSidecar (Γ : Platform) (ctx : BuildContext) (registry : PatchRegistry) (d : Deployment) (sidecar : ResolvedRole) :
    Except String Deployment := do
  let op ← within ("compose sidecar " ++ Text.quote sidecar.name ++ ": ") (renderSidecar Γ ctx sidecar registry)
  pure (if sidecar.enabled then mergeSidecar Γ d sidecar.name op else d)

/-- The passes of `RenderDeployments` over one composed Deployment, before the final checks. -/
def patchDeployment (Γ : Platform) (component : ResolvedComponent) (registry : PatchRegistry) (d : Deployment) :
    Except String Deployment := do
  let patched ← applyPatches Γ d component.patches registry
  let patched ← applyInstallationOverrides Γ patched d component
  onlyIf (component.kind = .dataplane) (validateSidecarComposition Γ patched.pod component)
  let restored := restoreWorkloadIdentity patched (captureWorkloadIdentity d)
  if component.kind = .dataplane then configureDataplaneNetworks Γ restored component.toResolvedRole else pure restored

/-- One Deployment of `RenderDeployments`. -/
def renderDeployment (Γ : Platform) (ctx : BuildContext) (component : ResolvedComponent) (registry : PatchRegistry)
    (d : Deployment) : Except String Deployment := do
  let d ← component.sidecars.foldlM (composeSidecar Γ ctx registry) d
  let d ← patchDeployment Γ component registry d
  validatePrivatePodNetwork d.pod
  let d ← configureListeners Γ d component
  let d ← configureRuntimeNetwork Γ d ctx component
  validateComposedPod d
  onlyIf (component.sidecars ≠ []) (validateReservedColocatedPorts Γ d component)
  pure d

/-- `RenderDeployments`. -/
def renderDeployments (Γ : Platform) (ctx : BuildContext) (component : ResolvedComponent) (registry : PatchRegistry) :
    Except String (List Deployment) :=
  if component.isColocated then .ok [] else do
  let deployments ← buildDeployments Γ ctx component.toResolvedRole
  deployments.mapM (renderDeployment Γ ctx component registry)

end YanetOperator
