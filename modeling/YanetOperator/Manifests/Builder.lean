import YanetOperator.Helpers.Resolve

/-!
# Deployment skeletons

`internal/manifests/builder.go` and the names of `operator_placement.go`: the Deployments of a resolved component before any
patch.
-/

namespace YanetOperator

/-- `BuildContext`: what the builder needs beside the component. -/
structure BuildContext where
  yanetName : String
  ns : String
  boxType : String := ""
  nodeName : String := ""
  nodeAllocatable : ResourceList := ∅
  pullPolicy : String := ""
  pullSecrets : List String := []
  ownerRef : OwnerReference
  gatewayEndpoints : List String := []

/-! ## Labels and names -/

def labelYanet : String := "yanet.yanet-platform.io/yanet"
def labelBoxType : String := "yanet.yanet-platform.io/box-type"
def labelComponent : String := "yanet.yanet-platform.io/component"
def labelNuma : String := "yanet.yanet-platform.io/numa"
def labelNode : String := "yanet.yanet-platform.io/node"
def labelSharedService : String := "yanet.yanet-platform.io/shared-service"
def labelApp : String := "app"
def annotationConfigMap : String := "yanet.yanet-platform.io/configmap"
def annotationManagedLabels : String := "yanet.yanet-platform.io/managed-labels"
def annotationManagedAnnotations : String := "yanet.yanet-platform.io/managed-annotations"
def operatorContainerPrefix : String := "op-"
def operatorMembershipPrefix : String := "yanet.yanet-platform.io/operator-"
def labelHostname : String := "kubernetes.io/hostname"

/-- The loop of `toLowerKebab`: the flag says that a character was read. -/
def toLowerKebabFrom : Bool → List Char → List Char
  | _, [] => []
  | started, c :: cs =>
    if Text.isUpper c then
      (if started then ['-'] else []) ++ Char.ofNat (c.toNat + 32) :: toLowerKebabFrom true cs
    else c :: toLowerKebabFrom true cs

/-- `toLowerKebab`. -/
def toLowerKebab (s : String) : String := String.ofList (toLowerKebabFrom false s.toList)

/-- `singleDeploymentName`. -/
def singleDeploymentName (Γ : Platform) (ctx : BuildContext) (c : ResolvedRole) : String :=
  if ctx.nodeName ≠ "" then ctx.yanetName ++ "-" ++ Γ.shortNodeKey ctx.nodeName ++ "-" ++ toLowerKebab c.name
  else ctx.yanetName ++ "-" ++ toLowerKebab c.name

/-- `numaDeploymentName`. -/
def numaDeploymentName (Γ : Platform) (ctx : BuildContext) (c : ResolvedRole) (numa : Nat) : String :=
  singleDeploymentName Γ ctx c ++ "-numa" ++ toString numa

/-- `OperatorMembershipLabel`. -/
def operatorMembershipLabel (Γ : Platform) (operator : String) : String :=
  operatorMembershipPrefix ++ Γ.shortNodeKey operator

/-- `scopedOperatorName`. -/
def scopedOperatorName (Γ : Platform) (operator name : String) : String :=
  let result := operatorContainerPrefix ++ Γ.shortNodeKey operator ++ "-" ++ name
  if result.length > 63 then Text.trimRightDash (Text.take result 54) ++ "-" ++ Γ.shortNodeKey result else result

/-- `colocatedTargetPort`. -/
def colocatedTargetPort (Γ : Platform) (operator listener : String) : String :=
  operatorContainerPrefix ++ Γ.shortNodeKey operator ++ "-" ++ Text.take listener 1

/-- `inlineConfigMapName`. -/
def inlineConfigMapName (Γ : Platform) (ctx : BuildContext) (c : ResolvedRole) (content : String) : String :=
  singleDeploymentName Γ ctx c ++ "-" ++ toLowerKebab c.name ++ "-cfg-" ++ Γ.shortNodeKey content

/-- `inlineContainerConfigMapName`. -/
def inlineContainerConfigMapName (Γ : Platform) (ctx : BuildContext) (c : ResolvedRole) (idx : Nat) (content : String) :
    String :=
  singleDeploymentName Γ ctx c ++ "-" ++ toLowerKebab c.name ++ "-c" ++ toString idx ++ "-cfg-" ++ Γ.shortNodeKey content

/-- `baseLabels`. -/
def baseLabels (ctx : BuildContext) (c : ResolvedRole) : StrMap String :=
  let out := StrMap.of [(labelYanet, ctx.yanetName), (labelComponent, c.name), (labelApp, c.name)]
  if ctx.nodeName ≠ "" then out.insert labelNode ctx.nodeName else out

/-- `workloadLabels`. -/
def workloadLabels (ctx : BuildContext) (selectorLabels : StrMap String) : StrMap String :=
  if ctx.boxType ≠ "" then selectorLabels.insert labelBoxType ctx.boxType else selectorLabels

/-- `nodeSelector`. -/
def nodeSelector (ctx : BuildContext) : StrMap String :=
  if ctx.nodeName = "" then ∅ else StrMap.of [(labelHostname, ctx.nodeName)]

/-- `replicasFor`. -/
def replicasFor (c : ResolvedRole) : Option Int := if c.enabled then some 1 else some 0

/-- `effectiveNuma`. -/
def effectiveNuma (c : ResolvedRole) : Int := if c.numa ≠ 0 then c.numa else 1

/-- The indices of the fan-out that are not disabled, in ascending order. -/
def enabledNuma (c : ResolvedRole) : List Nat :=
  (List.range (effectiveNuma c).toNat).filter fun i => (i : Int) ∉ c.disabledNuma

/-! ## Configuration volumes -/

/-- `defaultConfigMountPath`. -/
def defaultConfigMountPath : String := "/etc/yanet2"

/-- The volumes, the mounts and the arguments of one configuration source, under a volume name; `configMapName` gives the
name of the ConfigMap of an inline text. -/
def configVolumes (volName : String) (configMapName : String → String) (source : Option ConfigSource) :
    List Volume × List VolumeMount × List String :=
  match source with
  | none => ([], [], [])
  | some cs =>
    if cs.inlineText = "" ∧ cs.hostPath = "" then ([], [], [])
    else
      let mounts := [{ name := volName, mountPath := if cs.mountPath ≠ "" then cs.mountPath else defaultConfigMountPath,
                       readOnly := true : VolumeMount }]
      if cs.hostPath ≠ "" then ([{ name := volName, hostPath := some { path := cs.hostPath } }], mounts, cs.args)
      else ([{ name := volName, configMap := some (configMapName cs.inlineText) }], mounts, cs.args)

/-- `buildConfigVolumes`. -/
def buildConfigVolumes (Γ : Platform) (ctx : BuildContext) (c : ResolvedRole) : List Volume × List VolumeMount × List String :=
  configVolumes "config" (inlineConfigMapName Γ ctx c) c.config

/-- `buildConfigVolumesForContainer`. -/
def buildConfigVolumesForContainer (Γ : Platform) (ctx : BuildContext) (c : ResolvedRole) (rc : ResolvedContainer)
    (idx : Nat) : List Volume × List VolumeMount × List String :=
  configVolumes ("config-" ++ toString idx) (inlineContainerConfigMapName Γ ctx c idx) rc.config

/-- The inline text of a source that is not zero. -/
def inlineOf (source : Option ConfigSource) : Option String :=
  match source with
  | some cs => if cs.inlineText ≠ "" then some cs.inlineText else none
  | none => none

/-- `InlineConfigMaps` of one role: the names of its inline ConfigMaps with their contents. -/
def inlineRoleConfigMaps (Γ : Platform) (ctx : BuildContext) (c : ResolvedRole) : List (String × String) :=
  if c.kind = .operator then
    c.containers.zipIdx.filterMap fun (rc, i) =>
      (inlineOf rc.config).map fun text => (inlineContainerConfigMapName Γ ctx c i text, text)
  else ((inlineOf c.config).map fun text => (inlineConfigMapName Γ ctx c text, text)).toList

/-- `InlineConfigMaps`. -/
def inlineConfigMaps (Γ : Platform) (ctx : BuildContext) (c : ResolvedComponent) : StrMap String :=
  StrMap.of ((c.sidecars.filter (·.enabled)).flatMap (inlineRoleConfigMaps Γ ctx) ++
    inlineRoleConfigMaps Γ ctx c.toResolvedRole)

/-! ## Security and hugepages -/

/-- `hostDevVolume`. -/
def hostDevVolume (name path : String) (t : Option String) : Volume :=
  { name := name, hostPath := some { path := path, type := t } }

/-- `applyDataplaneSecurity`. -/
def applyDataplaneSecurity (c : Container) (volumes : List Volume) : Container × List Volume :=
  ({ c with
      privileged := some true
      volumeMounts := c.volumeMounts ++
        [{ name := "host-vfio", mountPath := "/dev/vfio" }, { name := "host-vhost-net", mountPath := "/dev/vhost-net" },
          { name := "host-net", mountPath := "/dev/net" }, { name := "host-sys", mountPath := "/sys", readOnly := true }] },
    volumes ++ [hostDevVolume "host-vfio" "/dev/vfio" (some "Directory"), hostDevVolume "host-vhost-net" "/dev/vhost-net" none,
      hostDevVolume "host-net" "/dev/net" (some "Directory"), hostDevVolume "host-sys" "/sys" (some "Directory")])

/-- `applyControlplaneShmem`. -/
def applyControlplaneShmem (c : Container) (volumes : List Volume) : Container × List Volume :=
  ({ c with volumeMounts := c.volumeMounts ++ [{ name := "hugepages", mountPath := "/dev/hugepages" }] },
    volumes ++ [{ name := "hugepages", hostPath := some { path := "/dev/hugepages" } }])

def resourceHugePagesPrefix : String := "hugepages-"

/-- `Quantity.AsInt64`, when the value is exact. -/
def Quantity.asInt64 (q : Quantity) : Option Int :=
  if q.den = 1 ∧ -maxInt64 - 1 ≤ q.num ∧ q.num ≤ maxInt64 then some q.num else none

/-- The largest value of the type `int32`. -/
def maxInt32 : Int := 2 ^ 31 - 1

/-- The hugepage sizes with a positive pool on the node, in ascending order. -/
def hugepageSizes (allocatable : ResourceList) : List String :=
  (allocatable.toList.filter fun (name, q) => Text.hasPrefix name resourceHugePagesPrefix && decide (0 < q)).map
    fun (name, _) => Text.trimPrefix name resourceHugePagesPrefix

/-- The page count of an automatic request. -/
def countNodeHugepages (Γ : Platform) (ctx : BuildContext) (size : String) : Except String Hugepages := do
  let page ← { size := size, count := 1 : Hugepages }.totalQuantity Γ
  let name := resourceHugePagesPrefix ++ size
  let quantity := (ctx.nodeAllocatable[name]?).getD 0
  Check.refuse (quantity ≤ 0)
    ("no allocatable " ++ name ++ "; reserve hugepages on the node or set an explicit count")
  let whole := "allocatable " ++ name ++ "=" ++ toString quantity ++ " must be a whole number of " ++ size ++ " pages"
  match quantity.asInt64 with
  | none => .error whole
  | some bytes => do
    Check.refuse (bytes.tmod page.value ≠ 0) whole
    let count := bytes.tdiv page.value
    Check.refuse (count < 1 ∨ count > maxInt32)
      ("allocatable " ++ name ++ " page count " ++ toString count ++ " must be between 1 and " ++ toString maxInt32)
    pure { size := size, count := count }

/-- `resolveNodeHugepages`. -/
def resolveNodeHugepages (Γ : Platform) (ctx : BuildContext) (requested : Option Hugepages) :
    Except String (Option Hugepages) :=
  match requested with
  | some h => if h.count ≠ 0 then .ok (some h) else (countNodeHugepages Γ ctx h.size).map some
  | none =>
    match hugepageSizes ctx.nodeAllocatable with
    | [] => .ok none
    | [size] => (countNodeHugepages Γ ctx size).map some
    | sizes => .error ("multiple hugepage sizes (" ++ Text.join ", " sizes ++ "); set spec.components.dataplane.hugepages.size")

/-- `applyHugepages`: a total that does not parse leaves the resources alone. -/
def applyHugepages (Γ : Platform) (c : Container) (volumes : List Volume) (hp : Hugepages) : Container × List Volume :=
  let volumes := volumes ++ [{ name := "hugepages", hostPath := some { path := "/dev/hugepages" } }]
  let c := { c with volumeMounts := c.volumeMounts ++ [{ name := "hugepages", mountPath := "/dev/hugepages" }] }
  match hp.totalQuantity Γ with
  | .error _ => (c, volumes)
  | .ok total =>
    let name := resourceHugePagesPrefix ++ hp.size
    ({ c with resources :=
        { requests := c.resources.requests.insert name total, limits := c.resources.limits.insert name total } }, volumes)

/-! ## Skeletons -/

/-- `runtimeTolerations`. -/
def runtimeTolerations : List Toleration :=
  [{ operator := "Exists", effect := "NoSchedule" }, { operator := "Exists", effect := "NoExecute" }]

/-- The main container of `buildSingle` and the volumes of its Pod. -/
def singleContainer (Γ : Platform) (ctx : BuildContext) (c : ResolvedRole) : Container × List Volume :=
  let (volumes, mounts, args) := buildConfigVolumes Γ ctx c
  let container : Container :=
    { name := if c.kind = .sidecar then c.name else toLowerKebab c.kind.text
      image := c.image.fullPath
      imagePullPolicy := ctx.pullPolicy
      volumeMounts := mounts
      args := args }
  let (container, volumes) :=
    match c.hugepages with
    | none => (container, volumes)
    | some hp => applyHugepages Γ container volumes hp
  match c.kind with
  | .dataplane => applyDataplaneSecurity container volumes
  | .controlplane => applyControlplaneShmem container volumes
  | _ => (container, volumes)

/-- The Deployment around a Pod: its name, labels, owner, selector, replicas and strategy. -/
def skeleton (Γ : Platform) (ctx : BuildContext) (c : ResolvedRole) (annotations : StrMap String) (pod : PodSpec) : Deployment :=
  let selectorLabels := baseLabels ctx c
  let labels := workloadLabels ctx selectorLabels
  { metadata :=
      { name := singleDeploymentName Γ ctx c
        ns := ctx.ns
        labels := labels
        annotations := annotations
        ownerReferences := [ctx.ownerRef] }
    spec :=
      { replicas := replicasFor c
        selector := some { matchLabels := selectorLabels }
        strategy := { type := "Recreate" }
        template := { labels := labels, spec := pod } } }

/-- The name of the inline ConfigMap that `buildSingle` mounts and records in an annotation: none for a host path. -/
def singleConfigMapName (Γ : Platform) (ctx : BuildContext) (c : ResolvedRole) : Option String :=
  match c.config with
  | some cs =>
    if cs.hostPath = "" ∧ cs.inlineText ≠ "" then some (inlineConfigMapName Γ ctx c cs.inlineText) else none
  | none => none

/-- `buildSingle`. -/
def buildSingle (Γ : Platform) (ctx : BuildContext) (c : ResolvedRole) : Deployment :=
  let (container, volumes) := singleContainer Γ ctx c
  let annotations : StrMap String :=
    match singleConfigMapName Γ ctx c with
    | some name => StrMap.of [(annotationConfigMap, name)]
    | none => ∅
  skeleton Γ ctx c annotations
    { containers := [container]
      volumes := volumes
      imagePullSecrets := ctx.pullSecrets
      nodeSelector := nodeSelector ctx
      tolerations := runtimeTolerations
      hostIPC := decide (c.kind = .dataplane ∨ c.kind = .controlplane) }

/-- `buildOperator`. -/
def buildOperator (Γ : Platform) (ctx : BuildContext) (c : ResolvedRole) : Deployment :=
  let parts := c.containers.zipIdx.map fun (rc, i) => (rc, buildConfigVolumesForContainer Γ ctx c rc i)
  skeleton Γ ctx c ∅
    { containers := parts.map fun (rc, _, mounts, args) =>
        { name := rc.name, image := rc.image.fullPath, imagePullPolicy := ctx.pullPolicy, volumeMounts := mounts, args := args }
      volumes := parts.flatMap fun (_, volumes, _, _) => volumes
      imagePullSecrets := ctx.pullSecrets
      nodeSelector := nodeSelector ctx
      tolerations := runtimeTolerations }

/-- `numaConfigArgs`. -/
def numaConfigArgs (args : List String) (numa : Nat) : List String :=
  args.map fun a => Text.replaceAll a "\x7bnuma\x7d" (toString numa)

/-- One Deployment of the fan-out: the skeleton with the index in its name, its labels and its first container's arguments. -/
def numaDeployment (Γ : Platform) (ctx : BuildContext) (c : ResolvedRole) (i : Nat) : Deployment :=
  let d := buildSingle Γ ctx c
  let numa := toString i
  { d with
    metadata := { d.metadata with name := numaDeploymentName Γ ctx c i, labels := d.metadata.labels.insert labelNuma numa }
    spec := { d.spec with
      selector := d.spec.selector.map fun s => { s with matchLabels := s.matchLabels.insert labelNuma numa }
      template := { d.spec.template with
        labels := d.spec.template.labels.insert labelNuma numa
        spec := { d.spec.template.spec with
          containers := d.spec.template.spec.containers.modifyHead fun c => { c with args := numaConfigArgs c.args i } } } } }

/-- `buildControlplaneFanout`. -/
def buildControlplaneFanout (Γ : Platform) (ctx : BuildContext) (c : ResolvedRole) : List Deployment :=
  (enabledNuma c).map (numaDeployment Γ ctx c)

end YanetOperator
