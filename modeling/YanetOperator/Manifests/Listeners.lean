import YanetOperator.Manifests.Builder

/-!
# Listeners

`internal/manifests/listeners.go` and `BuildDeployments`: the protocols a role exposes, the container that owns them, and the
named ports the operator asserts on it.
-/

namespace YanetOperator

open Check

structure ListenerPort where
  name : String
  targetPortName : String := ""
  servicePort : Int
  deriving DecidableEq

/-- `ListenerPorts`. -/
def listenerPorts (Γ : Platform) (component : ResolvedRole) : List ListenerPort :=
  if component.kind = .dataplane then []
  else
    let names := if component.kind = .controlplane then ["grpc", "http"] else component.listenerNames.getD ["grpc"]
    names.map fun name =>
      { name := name
        servicePort := if name = "http" then runtimeHTTPPort else runtimeGRPCPort
        targetPortName := if component.isColocated then colocatedTargetPort Γ component.name name else "" }

/-- `listenerTargetPortName`. -/
def listenerTargetPortName (listener : ListenerPort) : String :=
  if listener.targetPortName ≠ "" then listener.targetPortName else listener.name

/-- `ListenerContainerName`. -/
def listenerContainerName (component : ResolvedRole) : String :=
  match component.kind with
  | .dataplane => ""
  | .operator => (component.containers.head?.map (·.name)).getD ""
  | .sidecar => component.name
  | kind => toLowerKebab kind.text

/-- `runtimePortPair`: the gRPC and the HTTP port of a role. -/
def runtimePortPair (component : ResolvedRole) : Except String (Int × Int) :=
  if component.isColocated then
    if component.portIndex ≥ maxDataplaneSidecars then
      .error ("sidecar " ++ Text.quote component.name ++ " has invalid port slot " ++ toString component.portIndex)
    else .ok (runtimeGRPCPort + 2 * component.portIndex, runtimeHTTPPort + 2 * component.portIndex)
  else .ok (runtimeGRPCPort, runtimeHTTPPort)

/-! ## Containers of a Deployment -/

/-- The Pod of a Deployment. -/
def Deployment.pod (d : Deployment) : PodSpec := d.spec.template.spec

/-- A Deployment with another Pod. -/
def Deployment.withPod (d : Deployment) (pod : PodSpec) : Deployment :=
  { d with spec := { d.spec with template := { d.spec.template with spec := pod } } }

/-- Change every container of a Pod. -/
def PodSpec.mapContainers (f : Container → Container) (pod : PodSpec) : PodSpec :=
  { pod with containers := pod.containers.map f, initContainers := pod.initContainers.map f }

/-- `findContainer`: the only container of that name. -/
def findContainer (d : Deployment) (name : String) : Except String Container :=
  match d.pod.allContainers.filter (·.name == name) with
  | [] => .error ("deployment " ++ d.metadata.name ++ " has no container " ++ Text.quote name)
  | [container] => .ok container
  | _ => .error ("deployment " ++ d.metadata.name ++ " has duplicate container " ++ Text.quote name)

/-- Change the container that `findContainer` finds. -/
def modifyContainer (d : Deployment) (name : String) (f : Container → Container) : Deployment :=
  d.withPod (d.pod.mapContainers fun c => if c.name = name then f c else c)

/-- `validatePortNameOwner`. -/
def validatePortNameOwner (d : Deployment) (owner portName : String) : Check :=
  forM d.pod.allContainers fun container =>
    if container.name = owner then .ok ()
    else forM container.ports fun port => refuse (port.name = portName)
      ("deployment " ++ d.metadata.name ++ " listener target port name " ++ Text.quote portName ++ " is reserved for " ++
        Text.quote owner ++ ", but used by container " ++ Text.quote container.name)

/-- The port a listener gets on its container. -/
def listenerContainerPort (grpcPort httpPort : Int) (listener : ListenerPort) : ContainerPort :=
  { name := listenerTargetPortName listener
    containerPort := if listener.name = "http" then httpPort else grpcPort
    protocol := "TCP" }

/-- The ports of a container after the owned ports are asserted: the owned ones first, then the others. -/
def assertPorts (owned ports : List ContainerPort) : List ContainerPort :=
  owned ++ ports.filter fun port => port.name ∉ owned.map (·.name)

/-- The container that owns the listeners of a role, in its own Pod or composed into the dataplane's. -/
def listenerOwner (Γ : Platform) (component : ResolvedRole) (composed : Bool) : String :=
  if composed then scopedOperatorName Γ component.name (listenerContainerName component) else listenerContainerName component

/-- `configureComponentListeners`. -/
def configureComponentListeners (Γ : Platform) (d : Deployment) (component : ResolvedRole) (composed : Bool) :
    Except String Deployment :=
  let listeners := listenerPorts Γ component
  if listeners = [] then .ok d else do
  let name := listenerOwner Γ component composed
  let _ ← findContainer d name
  let (grpcPort, httpPort) ← runtimePortPair component
  forM listeners fun listener => validatePortNameOwner d name (listenerTargetPortName listener)
  let owned := listeners.map (listenerContainerPort grpcPort httpPort)
  pure (modifyContainer d name fun c => { c with ports := assertPorts owned c.ports })

/-- One sidecar of `ConfigureListeners`. -/
def configureSidecarListeners (Γ : Platform) (d : Deployment) (sidecar : ResolvedRole) : Except String Deployment := do
  let owner := scopedOperatorName Γ sidecar.name sidecar.name
  forM ["grpc", "http"] fun protocol => validatePortNameOwner d owner (colocatedTargetPort Γ sidecar.name protocol)
  if sidecar.enabled then configureComponentListeners Γ d sidecar true else pure d

/-- `ConfigureListeners`. -/
def configureListeners (Γ : Platform) (d : Deployment) (component : ResolvedComponent) : Except String Deployment := do
  let d ← configureComponentListeners Γ d component.toResolvedRole false
  component.sidecars.foldlM (configureSidecarListeners Γ) d

/-! ## Deployments of a component -/

/-- The node-specific hugepages of a dataplane: none is resolved for a disabled one that asks for no count. -/
def resolveHugepagesForNode (Γ : Platform) (ctx : BuildContext) (c : ResolvedRole) : Except String ResolvedRole :=
  if c.kind ≠ .dataplane then .ok c
  else if c.enabled = false ∧ (c.hugepages.all fun h => h.count == 0) = true then .ok { c with hugepages := none }
  else
    (within ("buildDeployments: node " ++ Text.quote ctx.nodeName ++ " hugepages: ")
      (resolveNodeHugepages Γ ctx c.hugepages)).map fun h => { c with hugepages := h }

/-- The Deployments of a component by its kind. -/
def buildByKind (Γ : Platform) (ctx : BuildContext) (c : ResolvedRole) : List Deployment :=
  match c.kind with
  | .controlplane => buildControlplaneFanout Γ ctx c
  | .operator => [buildOperator Γ ctx c]
  | _ => [buildSingle Γ ctx c]

/-- `BuildDeployments`. -/
def buildDeployments (Γ : Platform) (ctx : BuildContext) (component : ResolvedRole) : Except String (List Deployment) := do
  let c ← resolveHugepagesForNode Γ ctx component
  onlyIf (c.kind = .controlplane) (validateControlplaneNuma (effectiveNuma c))
  optional c.hugepages fun h =>
    (within ("buildDeployments: invalid hugepages for component " ++ Text.quote c.name ++ ": ") (h.totalQuantity Γ)).map
      fun _ => ()
  (buildByKind Γ ctx c).mapM fun d =>
    within ("buildDeployments: component " ++ Text.quote c.name ++ ": ") (configureComponentListeners Γ d c false)

end YanetOperator
