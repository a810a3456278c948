import YanetOperator.Controller.Status

/-!
# Applying ConfigMaps and Deployments

The write paths of `yanet_reconciler.go`: ownership checks, the merge of managed metadata, `applyInlineConfigMaps` and
`applyDeployment`.
-/

namespace YanetOperator

/-! ## Ownership -/

/-- The reference by which an installation controls an object, as `SetControllerReference` writes it. -/
def controllerRef (y : Yanet) : OwnerReference :=
  { apiVersion := groupVersion, kind := "Yanet", name := y.metadata.name, uid := y.metadata.uid, controller := some true
    blockOwnerDeletion := some true }

/-- The owner of the Deployments of a pass: the type of the object read, or the served type when the read left it empty. -/
def yanetOwner (y : Yanet) : OwnerReference :=
  { controllerRef y with
    apiVersion := if y.apiVersion = "" then groupVersion else y.apiVersion
    kind := if y.apiVersion = "" then "Yanet" else y.kind }

/-- `controlledByYanet`. -/
def controlledByYanet (m : ObjectMeta) (y : Yanet) : Bool :=
  decide (m.ns = y.metadata.ns) &&
    match getControllerOf m with
    | none => false
    | some owner => decide (owner.apiVersion = groupVersion ∧ owner.kind = "Yanet" ∧ owner.name = y.metadata.name ∧
        (y.metadata.uid = 0 ∨ owner.uid = y.metadata.uid))

/-- `validateDeploymentOwnership` and `validateServiceOwnership`: the two differ in the kind they name. -/
def validateOwnership (kind : String) (existing desired : ObjectMeta) : Except Err Unit :=
  let what (m : ObjectMeta) := kind ++ " " ++ m.ns ++ "/" ++ m.name
  match getControllerOf desired, getControllerOf existing with
  | none, _ => .error { text := "desired " ++ what desired ++ " has no controller owner" }
  | some _, none => .error { text := "existing " ++ what existing ++ " has no desired controller owner" }
  | some desiredOwner, some existingOwner =>
    if desiredOwner.uid ≠ 0 ∧ existingOwner.uid ≠ desiredOwner.uid then
      .error { text := "existing " ++ what existing ++ " is controlled by another resource instance" }
    else if existingOwner.apiVersion ≠ desiredOwner.apiVersion ∨ existingOwner.kind ≠ desiredOwner.kind ∨
        existingOwner.name ≠ desiredOwner.name then
      .error { text := "existing " ++ what existing ++ " is controlled by another resource" }
    else .ok ()

/-- `validateDeploymentOwnership`. -/
def validateDeploymentOwnership (existing desired : Deployment) : Except Err Unit :=
  validateOwnership "Deployment" existing.metadata desired.metadata

/-- `validateServiceOwnership`. -/
def validateServiceOwnership (existing desired : Service) : Except Err Unit :=
  validateOwnership "Service" existing.metadata desired.metadata

/-! ## Managed metadata -/

/-- `parseManagedKeys`. -/
def parseManagedKeys (s : String) : List String := ((s.toList.splitOn ',').map String.ofList).filter (· ≠ "")

/-- `serializeManagedKeys`. -/
def serializeManagedKeys (m : StrMap String) : String := Text.join "," m.keys

/-- `mergeManagedKV`. -/
def mergeManagedKV (existing desired : StrMap String) (prevManaged : List String) : StrMap String :=
  (existing.eraseWhere fun k => k ∈ prevManaged && (desired[k]?).isNone).override desired

/-- Record the managed keys of a map under an annotation; no keys leave no annotation. -/
def trackManaged (annotations : StrMap String) (tracker : String) (managed : StrMap String) : StrMap String :=
  if managed.isEmpty then annotations.erase tracker else annotations.insert tracker (serializeManagedKeys managed)

/-- `mergeManagedMeta`. -/
def mergeManagedMeta (fresh desired : ObjectMeta) : ObjectMeta :=
  let prev (tracker : String) := parseManagedKeys ((fresh.annotations[tracker]?).getD "")
  let annotations := mergeManagedKV fresh.annotations desired.annotations (prev annotationManagedAnnotations)
  { fresh with
    labels := mergeManagedKV fresh.labels desired.labels (prev annotationManagedLabels)
    annotations := trackManaged (trackManaged annotations annotationManagedLabels desired.labels) annotationManagedAnnotations
      desired.annotations }

/-! ## Inline ConfigMaps -/

/-- `ensureLabel`: an empty value is ignored. -/
def ensureLabel (labels : StrMap String) (key value : String) : StrMap String :=
  if value = "" then labels else labels.insert key value

/-- The ConfigMap a component asks for. -/
def desiredConfigMap (ctx : BuildContext) (rc : ResolvedRole) (name content : String) : ConfigMap :=
  { metadata := { name := name, ns := ctx.ns, labels := StrMap.of [(labelYanet, ctx.yanetName), (labelComponent, rc.name)] }
    data := StrMap.of [("config", content)] }

/-- The ConfigMap after the mutation, before the reference to its controller is set. -/
def fillConfigMap (ctx : BuildContext) (rc : ResolvedRole) (content : String) (cm : ConfigMap) : ConfigMap :=
  { metadata := { cm.metadata with
      labels := ensureLabel (ensureLabel cm.metadata.labels labelYanet ctx.yanetName) labelComponent rc.name }
    data := StrMap.of [("config", content)] }

/-- The mutation of `applyInlineConfigMaps`: an existing ConfigMap must be controlled by the installation. -/
def mutateConfigMap (y : Yanet) (ctx : BuildContext) (rc : ResolvedRole) (content : String) (cm : ConfigMap) :
    TryPass ConfigMap := do
  if cm.metadata.resourceVersion ≠ 0 ∧ controlledByYanet cm.metadata y = false then
    throw { text := "ConfigMap " ++ cm.metadata.ns ++ "/" ++ cm.metadata.name ++
      " already exists without the desired controller owner" }
  let cm := fillConfigMap ctx rc content cm
  match setControllerReference cm.metadata (controllerRef y) with
  | .error e => throw e
  | .ok m => do
    checkGlobalStop
    pure { cm with metadata := m }

/-- Whether a ConfigMap that is only observed deviates from the desired one. -/
def configMapDrifts (y : Yanet) (existing desired : ConfigMap) : Bool :=
  !controlledByYanet existing.metadata y || existing.metadata.deletionTimestamp.isSome || existing.data != desired.data

/-- One ConfigMap of `applyInlineConfigMaps`: whether it drifts, when it is only observed. -/
def applyInlineConfigMap (y : Yanet) (ctx : BuildContext) (rc : ResolvedRole) (autoSync : Bool) (name content : String) :
    TryPass Bool :=
  let cm := desiredConfigMap ctx rc name content
  if autoSync then ExceptT.mk do
    match ← (createOrUpdate cm (mutateConfigMap y ctx rc content)).run with
    | .ok () => pure (.ok false)
    | .error e => pure (.error (e.wrap ("configmap " ++ ctx.ns ++ "/" ++ name)))
  else ExceptT.mk do
    match ← issue (.get .configMap { ns := ctx.ns, name := name }) with
    | .ok existing => pure (.ok (configMapDrifts y existing cm))
    | .error e =>
      if e.reason = .notFound then pure (.ok true)
      else pure (.error ((Err.api e).wrap ("configmap get " ++ ctx.ns ++ "/" ++ name)))

/-- `applyInlineConfigMaps`: the names of the ConfigMaps, and whether one drifts. The source walks a map; here the names are taken
in order. -/
def applyInlineConfigMaps (Γ : Platform) (y : Yanet) (ctx : BuildContext) (rc : ResolvedComponent) (autoSync : Bool) :
    TryPass (List String × Bool) := do
  let cmaps := inlineConfigMaps Γ ctx rc
  let drift ← cmaps.toList.foldlM (fun drift (name, content) => do
    let d ← applyInlineConfigMap y ctx rc.toResolvedRole autoSync name content
    pure (drift || d)) false
  pure (cmaps.keys, drift)

/-! ## Deployments -/

/-- `deploymentUpdateChanged`. -/
def deploymentUpdateChanged (existing candidate : Deployment) : Bool :=
  decide (existing.spec ≠ candidate.spec ∨ existing.metadata.ownerReferences ≠ candidate.metadata.ownerReferences ∨
    existing.metadata.labels ≠ candidate.metadata.labels ∨ existing.metadata.annotations ≠ candidate.metadata.annotations)

/-- The candidate of `desiredDeploymentUpdate`, before it is normalized. -/
def deploymentCandidate (existing desired : Deployment) : Deployment :=
  { existing with
    spec := desired.spec
    metadata := mergeManagedMeta { existing.metadata with ownerReferences := desired.metadata.ownerReferences } desired.metadata }

/-- `desiredDeploymentUpdate`: the candidate as the server would persist it, when it differs from the existing object. -/
def desiredDeploymentUpdate (existing desired : Deployment) : TryPass (Option Deployment) := do
  let candidate := deploymentCandidate existing desired
  if deploymentUpdateChanged existing candidate = false then pure none
  else do
    checkGlobalStop
    let normalized ← ExceptT.mk do
      match ← issue (.dryRun candidate) with
      | .ok d => pure (.ok d)
      | .error e => pure (.error ((Err.api e).wrap
          ("normalize Deployment " ++ desired.metadata.ns ++ "/" ++ desired.metadata.name)))
    pure (if deploymentUpdateChanged existing normalized then some normalized else none)

/-- The state of a Deployment after `applyDeployment`, the time to wait, and the error. -/
structure ApplyOutcome where
  state : String
  requeue : Int := 0
  err : Option Err := none

/-- One attempt of the update of `applyDeployment`: the state and the time to wait. -/
def updateDeploymentOnce (desired : Deployment) (autoSync : Bool) (updateWindow : Int) (nodeName : String) :
    TryPass (String × Int) := do
  let fresh : Deployment ← getObj .deployment (keyOf .deployment desired)
  match validateDeploymentOwnership fresh desired with
  | .error e => throw e
  | .ok () => do
    match ← desiredDeploymentUpdate fresh desired with
    | none => pure ("synced", 0)
    | some candidate =>
      if autoSync = false then pure ("out-of-sync", 0)
      else do
        let requeue : Int ← ExceptT.lift (issue (.requeue updateWindow nodeName))
        if requeue > 0 then pure ("sync-waiting", requeue)
        else do
          checkGlobalStop
          attempt (issue (.update .deployment candidate))
          pure ("synced", requeue)

/-- The creation of `applyDeployment`. -/
def createDeployment (desired : Deployment) (autoSync : Bool) : Pass ApplyOutcome := do
  if autoSync = false then pure { state := "out-of-sync (missing)" }
  else
    let desired := { desired with metadata := mergeManagedMeta desired.metadata desired.metadata }
    match ← checkGlobalStop.run with
    | .error e => pure { state := "sync-waiting", err := some e }
    | .ok () =>
      match ← issue (.create .deployment desired) with
      | .ok () => pure { state := "synced" }
      | .error e => pure { state := "error", err := some ((Err.api e).wrap
          ("create Deployment " ++ desired.metadata.ns ++ "/" ++ desired.metadata.name)) }

/-- `applyDeployment`. -/
def applyDeployment (desired : Deployment) (autoSync : Bool) (updateWindow : Int) (nodeName : String) : Pass ApplyOutcome := do
  match ← issue (.get .deployment (keyOf .deployment desired)) with
  | .error e =>
    if e.reason = .notFound then createDeployment desired autoSync
    else pure { state := "error", err := some ((Err.api e).wrap
      ("get Deployment " ++ desired.metadata.ns ++ "/" ++ desired.metadata.name)) }
  | .ok existing =>
    match validateDeploymentOwnership existing desired with
    | .error e => pure { state := "error", err := some e }
    | .ok () =>
      match ← (retryOnConflict (updateDeploymentOnce desired autoSync updateWindow nodeName) defaultRetries).run with
      | .ok (state, requeue) => pure { state := state, requeue := requeue }
      | .error e => pure { state := "error", err := some (e.wrap
          ("update Deployment " ++ desired.metadata.ns ++ "/" ++ desired.metadata.name)) }

end YanetOperator
