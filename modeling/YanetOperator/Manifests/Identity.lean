import YanetOperator.Manifests.PodChecks

/-!
# Workload identity and patches

`internal/manifests/labels.go` and `patcher.go`: what the operator captures of a Deployment before a patch is applied, and how
it is restored afterwards.
-/

namespace YanetOperator

open Check

/-- `workloadIdentityLabels`. -/
def workloadIdentityLabels : List String := [labelYanet, labelBoxType, labelComponent, labelNuma, labelNode, labelApp]

/-- The labels a patch may not change: the identity labels and every membership label. -/
def isReservedLabel (key : String) : Bool := key ∈ workloadIdentityLabels || Text.hasPrefix key operatorMembershipPrefix

/-- `reservedLabels`. -/
def reservedLabels (labels : StrMap String) : StrMap String := labels.eraseWhere fun key => !isReservedLabel key

/-- `mergeIdentityLabels`. -/
def mergeIdentityLabels (labels identity : StrMap String) : StrMap String :=
  (labels.eraseWhere isReservedLabel).override identity

structure WorkloadIdentity where
  name : String
  ns : String
  ownerReferences : List OwnerReference
  deployment : StrMap String
  selector : Option LabelSelector
  pod : StrMap String
  nodeName : String
  nodeSelector : StrMap String
  strategy : DeploymentStrategy
  manageNativeSidecars : Bool
  nativeSidecars : List Container

/-- `CaptureWorkloadIdentity`. -/
def captureWorkloadIdentity (d : Deployment) : WorkloadIdentity :=
  let pod := reservedLabels d.spec.template.labels
  let manage := pod[labelComponent]? == some ComponentKind.dataplane.text
  { name := d.metadata.name
    ns := d.metadata.ns
    ownerReferences := d.metadata.ownerReferences
    deployment := reservedLabels d.metadata.labels
    selector := d.spec.selector
    pod := pod
    nodeName := d.pod.nodeName
    nodeSelector := d.pod.nodeSelector
    strategy := d.spec.strategy
    manageNativeSidecars := manage
    nativeSidecars := if manage then d.pod.initContainers.filter fun c => isManagedNativeContainer c.name else [] }

/-- The loop of `restoreNativeSidecars`: each managed container is replaced by the next expected one, and the rest of them
follows the last managed one. -/
def placeNativeSidecars (managed : String → Bool) : List Container → List Container → List Container
  | _, [] => []
  | expected, c :: cs =>
    if managed c.name then
      if cs.any (managed ·.name) then expected.take 1 ++ placeNativeSidecars managed (expected.drop 1) cs
      else expected ++ placeNativeSidecars managed [] cs
    else c :: placeNativeSidecars managed expected cs

/-- `restoreNativeSidecars`. -/
def restoreNativeSidecars (initContainers expected : List Container) : List Container :=
  let managed (name : String) : Bool := name ∈ expected.map (·.name)
  let restored := expected.map fun baseline =>
    { (initContainers.reverse.find? (·.name == baseline.name)).getD baseline with restartPolicy := baseline.restartPolicy }
  if initContainers.any (managed ·.name) then placeNativeSidecars managed restored initContainers
  else restored ++ initContainers

/-- `RestoreWorkloadIdentity`. -/
def restoreWorkloadIdentity (d : Deployment) (identity : WorkloadIdentity) : Deployment :=
  { d with
    metadata := { d.metadata with
      name := identity.name
      ns := identity.ns
      ownerReferences := identity.ownerReferences
      labels := mergeIdentityLabels d.metadata.labels identity.deployment }
    spec := { d.spec with
      selector := identity.selector
      strategy := identity.strategy
      template := { d.spec.template with
        labels := mergeIdentityLabels d.spec.template.labels identity.pod
        spec := { d.pod with
          nodeName := identity.nodeName
          nodeSelector := identity.nodeSelector
          initContainers :=
            if identity.manageNativeSidecars then restoreNativeSidecars d.pod.initContainers identity.nativeSidecars
            else d.pod.initContainers } } } }

/-! ## Patches -/

/-- `PatchRegistry`. -/
abbrev PatchRegistry := StrMap NamedPatch

/-- `NewPatchRegistry`: of a repeated name the last entry wins. -/
def newPatchRegistry (patches : List NamedPatch) : PatchRegistry := StrMap.of (patches.map fun p => (p.name, p))

/-- One patch of `ApplyPatches`, decoded. -/
def loadPatch (registry : PatchRegistry) (name : String) : Except String Json :=
  match registry[name]? with
  | none => .error ("applyPatches: patch " ++ Text.quote name ++ " is not defined in YanetConfig.spec.patches")
  | some { patch := .empty, .. } => .error ("applyPatches: patch " ++ Text.quote name ++ " is empty")
  | some { patch := .json .null, .. } => .ok .null
  | some { patch := .json (.obj members), .. } => .ok (.obj members)
  | some _ => .error ("applyPatches: patch " ++ Text.quote name ++ " is not valid JSON")

/-- `ApplyPatches`. -/
def applyPatches (Γ : Platform) (d : Deployment) (patchNames : List String) (registry : PatchRegistry) :
    Except String Deployment :=
  if patchNames = [] then .ok d else do
  let patches ← patchNames.mapM (loadPatch registry)
  Γ.strategicMerge patches d

end YanetOperator
