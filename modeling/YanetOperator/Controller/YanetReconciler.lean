import YanetOperator.Controller.Preflight

/-!
# The pass of an installation

`Reconcile` of `yanet_controller.go`, and `reconcileYanet` and `handleYanetDeletion` of `yanet_reconciler.go`.
-/

namespace YanetOperator

def yanetFinalizer : String := "yanet.yanet-platform.io/finalizer"

/-- The result of a pass: after how many nanoseconds it is to be repeated, and its error. -/
structure Outcome where
  requeueAfter : Int := 0
  err : Option Err := none

/-- Thirty seconds. -/
def retryDelay : Int := 30000000000

/-- The object with the finalizer added. -/
def addFinalizer (y : Yanet) : Yanet :=
  { y with metadata := { y.metadata with finalizers := y.metadata.finalizers ++ [yanetFinalizer] } }

/-- The object with the finalizer removed. -/
def removeFinalizer (y : Yanet) : Yanet :=
  { y with metadata := { y.metadata with finalizers := y.metadata.finalizers.filter (· ≠ yanetFinalizer) } }

/-! ## Deletion -/

/-- `handleYanetDeletion`. -/
def handleYanetDeletion (y : Yanet) : Pass Outcome := do
  if yanetFinalizer ∉ y.metadata.finalizers then pure {}
  else
    recordEvent "Cleanup" "Running cleanup before deletion"
    let (_, err) ← pruneOrphans y {} true
    match err with
    | some e => pure { requeueAfter := retryDelay, err := some e }
    | none =>
      match ← (listObjs .deployment (some y.metadata.ns) ∅).run with
      | .error e => pure { err := some e }
      | .ok deployments =>
        if deployments.any (fun d => controlledByYanet d.metadata y) then pure { requeueAfter := 5000000000 }
        else
          match ← checkGlobalStop.run with
          | .error e => pure { err := some e }
          | .ok () =>
            match ← issue (.update .yanet (removeFinalizer y)) with
            | .ok () => pure {}
            | .error e => if e.reason = .notFound then pure {} else pure { err := some (.api e) }

/-! ## The apply loop -/

/-- The progress of the apply loop. -/
structure LoopState where
  errs : List Err := []
  nodesStatus : StrMap NodeStatus := ∅
  desired : DesiredSet := {}
  missingOperators : List String := []
  syncWaiting : Bool := false
  earliestRequeue : Int := 0

/-- The state after a Deployment was applied. -/
def LoopState.record (st : LoopState) (d : Deployment) (outcome : ApplyOutcome) (state : String) : LoopState :=
  { st with
    errs := st.errs ++ outcome.err.toList
    desired := { st.desired with deployments := d.metadata.name :: st.desired.deployments }
    syncWaiting := st.syncWaiting || state == "sync-waiting"
    earliestRequeue :=
      if outcome.requeue > 0 ∧ (st.earliestRequeue = 0 ∨ outcome.requeue < st.earliestRequeue) then outcome.requeue
      else st.earliestRequeue }

/-- One rendered Deployment of the apply loop. -/
def applyRendered (plan : PassPlan) (node : Node) (isControlplane configDrift : Bool) (acc : LoopState × NodeStatus)
    (d : Deployment) : Pass (LoopState × NodeStatus) := do
  let (st, ns) := acc
  let outcome ← applyDeployment d plan.autoSync plan.updateWindow node.metadata.name
  let state := if configDrift && outcome.state == "synced" then "out-of-sync (inline config)" else outcome.state
  let ns := { ns with
    numaCount := if isControlplane then ns.numaCount + 1 else ns.numaCount
    deployments := ns.deployments.insert d.metadata.name state }
  if outcome.requeue > 0 then
    recordEvent "UpdateThrottled" ("Deployment " ++ d.metadata.name ++ " waiting " ++ toString outcome.requeue ++
      " for UpdateWindow on node " ++ node.metadata.name)
  pure (st.record d outcome state, ns)

/-- One component of one node in the apply loop. -/
def applyComponent (Γ : Platform) (plan : PassPlan) (y : Yanet) (node : Node) (ctx : BuildContext)
    (acc : LoopState × NodeStatus) (ref : ComponentRef) : Pass (LoopState × NodeStatus) := do
  let (st, ns) := acc
  match resolveForPass Γ plan y ref with
  | .error e => pure ({ st with errs := st.errs ++ [{ text := e }] }, ns)
  | .ok none =>
    let missing := if ref.operatorName ≠ "" then st.missingOperators.insert ref.operatorName else st.missingOperators
    pure ({ st with missingOperators := missing }, ns)
  | .ok (some rc) =>
    if rc.isColocated then pure (st, ns)
    else
      match ← (applyInlineConfigMaps Γ y ctx rc plan.autoSync).run with
      | .error e => pure ({ st with errs := st.errs ++ [e] }, ns)
      | .ok (names, configDrift) =>
        let st := { st with desired := { st.desired with configMaps := names ++ st.desired.configMaps } }
        match renderDeployments Γ ctx rc (newPatchRegistry plan.cfg.patches) with
        | .error e => pure ({ st with errs := st.errs ++ [{ text := e }] }, ns)
        | .ok deployments =>
          (deployments.map fun d => normalizeDeploymentReplicas d rc.enabled plan.installationEnabled).foldlM
            (applyRendered plan node (decide (ref.kind = .controlplane)) configDrift) (st, ns)

/-- One node of the apply loop: an unresolved context ends the pass. -/
def applyNode (Γ : Platform) (plan : PassPlan) (y : Yanet) (st : LoopState) (node : Node) : TryPass LoopState :=
  match nodeContext Γ plan y node with
  | .error e => throw { text := e }
  | .ok ctx => do
    let (st, ns) ← ExceptT.lift (plan.enabled.foldlM (applyComponent Γ plan y node ctx) (st, { nodeName := node.metadata.name }))
    pure { st with nodesStatus := st.nodesStatus.insert node.metadata.name ns }

/-! ## The end of a pass -/

/-- The status of the installation from what the pass observed. -/
def observedStatus (y : Yanet) (nodesStatus : StrMap NodeStatus) (services : List String) (pods : StrMap (List String)) :
    Yanet :=
  { y with status := { y.status with
    nodesStatus := nodesStatus, services := services, sync := aggregateSyncStatus nodesStatus, pods := pods } }

/-- The end of a pass that failed: the status says so. -/
def reportFailure (y : Yanet) (e : Err) : Pass Outcome := do
  let now : Nat ← issue .now
  let status := setConditionsDegraded y now "ReconcileFailed" e.text
  let statusErr ← (updateStatus y fun _ => pure status).run
  let errs := match statusErr with | .ok () => [e] | .error e' => [e, e']
  pure { requeueAfter := retryDelay, err := Err.join errs }

/-- The Deployments that a report-only prune keeps, entered into the status of their nodes. -/
def markOrphans (nodesStatus : StrMap NodeStatus) (retained : List Deployment) : StrMap NodeStatus :=
  retained.foldl (fun m d =>
    let nodeName := nodeLabel d.metadata
    let ns := (m[nodeName]?).getD {}
    m.insert nodeName { ns with
      nodeName := nodeName, deployments := ns.deployments.insert d.metadata.name "out-of-sync (orphan)" }) nodesStatus

/-- The last status of a pass without errors. -/
def reportSuccess (y : Yanet) (plan : PassPlan) (st : LoopState) (retainedConfigMaps : List String) : Pass Outcome := do
  let now : Nat ← issue .now
  let y := { y with status := { y.status with conditions := computeConditions y now st.missingOperators } }
  let status ← if retainedConfigMaps = [] then pure y.status
    else do
      let now : Nat ← issue .now
      pure (setConditionsDegraded y now "OrphansRetained"
        ("ConfigMaps retained with autoSync=false: " ++ Text.bracketed (sortStrings retainedConfigMaps)))
  match ← (updateStatus y fun _ => pure status).run with
  | .error _ => pure { requeueAfter := retryDelay }
  | .ok () =>
    if st.syncWaiting then
      pure { requeueAfter := if st.earliestRequeue = 0 then plan.updateWindow else st.earliestRequeue }
    else pure {}

/-- The part of `reconcileYanet` after the apply loop. -/
def finishPass (y : Yanet) (plan : PassPlan) (services : StrMap ServicePlan) (st : LoopState) : Pass Outcome := do
  let pods ← (collectPods y).run
  let st := { st with errs := st.errs ++ (match pods with | .ok _ => [] | .error e => [e]) }
  let pods := match pods with | .ok pods => pods | .error _ => y.status.pods
  match Err.join st.errs with
  | some e => reportFailure (observedStatus y st.nodesStatus services.keys pods) e
  | none =>
    let (pruned, err) ← pruneOrphans y st.desired plan.autoSync
    let y := observedStatus y (markOrphans st.nodesStatus pruned.retainedDeployments) services.keys pods
    if pruned.deleted > 0 then
      recordEvent "OrphanPruned" ("Requested deletion of " ++ toString pruned.deleted ++
        " orphan resources no longer in desired set")
    match err with
    | some e => reportFailure y (e.wrap "prune orphans")
    | none => reportSuccess y plan st pruned.retainedConfigMaps

/-! ## The whole pass -/

/-- An early end of a pass: an event, a degraded status, and a later try. -/
def bailOut (y : Yanet) (reason note message : String) : Pass Outcome := do
  recordEvent reason note
  let _ ← (updateStatus y (degraded reason message)).run
  pure { requeueAfter := retryDelay }

/-- The pass once the nodes and the components are known. -/
def reconcileNodes (Γ : Platform) (y : Yanet) (plan : PassPlan) (nodes : List Node) : Pass Outcome := do
  match ← validateExclusiveNodes y nodes with
  | .error conflict =>
    recordEvent "NodeSelectionConflict" conflict.err.text
    let statusErr ← (updateStatus y (degraded "NodeSelectionConflict" conflict.err.text)).run
    let cleanupErr ← match conflict.cleanup with
      | some nodeNames => if plan.autoSync then (pruneConflictingDeployments y nodeNames).run else pure (.ok ())
      | none => pure (.ok ())
    let errs := [statusErr, cleanupErr].filterMap fun r => match r with | .ok () => none | .error e => some e
    pure { requeueAfter := retryDelay, err := Err.join errs }
  | .ok () =>
    match ← (preflightResources Γ plan y nodes).run with
    | .error e =>
      recordEvent "ResourcePreflightFailed" e.text
      let statusErr ← (updateStatus y (degraded "ResourcePreflightFailed" e.text)).run
      let errs := match statusErr with | .ok () => [e] | .error e' => [e, e']
      pure { requeueAfter := retryDelay, err := Err.join errs }
    | .ok services =>
      match ← (nodes.foldlM (applyNode Γ plan y) {}).run with
      | .error e => pure { err := some e }
      | .ok st => finishPass y plan services st

/-- The pass of a live installation with a finalizer, once its configuration is loaded. -/
def reconcileLive (Γ : Platform) (y : Yanet) (cfg : YanetConfigSpec) : Pass Outcome := do
  match findBoxType cfg y.spec.boxType with
  | .error e =>
    bailOut y "BoxTypeNotFound" ("boxType " ++ Text.quote y.spec.boxType ++ " not found in YanetConfig: " ++ e) e
  | .ok box =>
    match validateEffectiveYanetComponentOverrides Γ y.spec.components cfg.components box with
    | .error e => bailOut y "OverridesInvalid" ("component overrides are invalid: " ++ e) e
    | .ok () =>
      match enabledComponentsForBox Γ cfg y.spec.boxType with
      | .error e =>
        bailOut y "BoxTypeInvalid" ("boxType " ++ Text.quote y.spec.boxType ++ " has invalid components: " ++ e) e
      | .ok enabled =>
        match ← (listObjs .node none y.spec.nodeSelector).run with
        | .error _ => pure { requeueAfter := retryDelay }
        | .ok nodes => reconcileNodes Γ y (passPlan y cfg enabled) nodes

/-- The configuration of a pass: the snapshot, or the persisted object while the snapshot is empty; none when there is no object. -/
def loadConfig : TryPass (Option YanetConfigSpec) :=
  ExceptT.mk do
    let snapshot ← issue .snapshot
    if snapshot.boxTypes = [] ∧ snapshot.stop = false then
      match ← issue (.get .yanetConfig { name := yanetConfigName }) with
      | .ok persisted => pure (.ok (some persisted.spec))
      | .error e =>
        if e.reason = .notFound then pure (.ok none) else pure (.error ((Err.api e).wrap "read YanetConfig before reconcile"))
    else pure (.ok (some snapshot))

/-- The body of `reconcileYanet`. -/
def reconcileYanetBody (Γ : Platform) (y : Yanet) : Pass Outcome := do
  match ← loadConfig.run with
  | .error e => pure { err := some e }
  | .ok config =>
    if config.any (·.stop) then pure {}
    else if y.metadata.deletionTimestamp.isSome then handleYanetDeletion y
    else if yanetFinalizer ∉ y.metadata.finalizers then
      match ← checkGlobalStop.run with
      | .error e => pure { err := some e }
      | .ok () =>
        match ← issue (.update .yanet (addFinalizer y)) with
        | .ok () => pure { requeueAfter := 100000000 }
        | .error e => pure { err := some (.api e) }
    else
      match config with
      | none => bailOut y "ConfigNotLoaded" "YanetConfig snapshot is empty; reconcile is paused" "YanetConfig snapshot is empty"
      | some cfg => reconcileLive Γ y cfg

/-- `reconcileYanet`: a pass that met the global stop, or ends under it, reports nothing. -/
def reconcileYanet (Γ : Platform) (y : Yanet) : Pass Outcome := do
  let outcome ← reconcileYanetBody Γ y
  if outcome.err.any (·.globalStop) then pure {}
  else if ← issue .checkStop then pure {} else pure outcome

/-- `YanetReconciler.Reconcile`. -/
def YanetReconciler.reconcile (Γ : Platform) (key : Key) : Pass Outcome := do
  match ← issue (.get .yanet key) with
  | .error e => if e.reason = .notFound then pure {} else pure { err := some (.api e) }
  | .ok y => reconcileYanet Γ y

end YanetOperator
