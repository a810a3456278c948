import YanetOperator.Controller.Exclusive

/-!
# Preflight

`preflightResources` of `yanet_reconciler.go`: every effective component is resolved, rendered and checked before any resource
changes, the Service plans of the installation are collected, and the placement gate is asked.
-/

namespace YanetOperator

/-- What a pass works with once its configuration is known. -/
structure PassPlan where
  cfg : YanetConfigSpec
  enabled : List ComponentRef
  owner : OwnerReference
  pullPolicy : String
  updateWindow : Int
  installationEnabled : Bool
  autoSync : Bool

/-- The plan of a pass for an installation. -/
def passPlan (y : Yanet) (cfg : YanetConfigSpec) (enabled : List ComponentRef) : PassPlan :=
  { cfg := cfg
    enabled := enabled
    owner := yanetOwner y
    pullPolicy := if cfg.images.pullPolicy = "" then "IfNotPresent" else cfg.images.pullPolicy
    updateWindow := Int.bmod (cfg.updateWindow * 1000000000) (2 ^ 64)
    installationEnabled := boolValue y.spec.enabled true
    autoSync := boolValue y.spec.autoSync false }

/-- The build context of a node. -/
def nodeContext (Γ : Platform) (plan : PassPlan) (y : Yanet) (node : Node) : Except String BuildContext :=
  withRuntimeNetwork Γ
    { yanetName := y.metadata.name
      ns := y.metadata.ns
      boxType := y.spec.boxType
      nodeName := node.metadata.name
      nodeAllocatable := node.allocatable
      pullPolicy := plan.pullPolicy
      pullSecrets := plan.cfg.images.pullSecrets
      ownerRef := plan.owner } plan.cfg y.spec

/-- The component of a reference, disabled with its installation. -/
def resolveForPass (Γ : Platform) (plan : PassPlan) (y : Yanet) (ref : ComponentRef) :
    Except String (Option ResolvedComponent) :=
  match resolveBoxComponent Γ plan.cfg y.spec ref.kind ref.operatorName with
  | .error e => .error e
  | .ok none => .ok none
  | .ok (some rc) => .ok (some { rc with enabled := rc.enabled && plan.installationEnabled })

/-- `normalizeDeploymentReplicas`. -/
def normalizeDeploymentReplicas (d : Deployment) (componentEnabled installationEnabled : Bool) : Deployment :=
  if componentEnabled && installationEnabled then d else drained d

/-- The progress of `preflightResources`. -/
structure PreflightState where
  plans : StrMap ServicePlan := ∅
  collided : List String := []
  errs : List Err := []

/-- Record an error. -/
def PreflightState.fail (st : PreflightState) (text : String) : PreflightState := { st with errs := st.errs ++ [{ text := text }] }

/-- One Service plan of `addServicePlans`. -/
def addServicePlan (component location : String) (st : PreflightState) (p : ServicePlan) : PreflightState :=
  match p.validate with
  | .error e => st.fail ("validate Service for " ++ component ++ " " ++ location ++ ": " ++ e)
  | .ok () =>
    if p.name ∈ st.collided then st
    else
      match st.plans[p.name]? with
      | none => { st with plans := st.plans.insert p.name p }
      | some existing =>
        if existing ≠ p then
          { st with plans := st.plans.erase p.name, collided := p.name :: st.collided }.fail
            ("components generate conflicting Service plans named " ++ Text.quote p.name)
        else { st with plans := st.plans.insert p.name p }

/-- `addServicePlans`. -/
def addServicePlans (Γ : Platform) (cfg : YanetConfigSpec) (boxType : String) (component : ResolvedRole) (location : String)
    (st : PreflightState) : PreflightState :=
  match resolveBoxServiceComponent Γ cfg boxType component.kind component.name with
  | .error e => st.fail ("resolve Service for " ++ component.name ++ " " ++ location ++ ": " ++ e)
  | .ok none => st
  | .ok (some declared) =>
    (buildServices Γ boxType declared.toResolvedRole).foldl (addServicePlan component.name location) st

/-- The replica check of a rendered Deployment. -/
def checkReplicas (rc : ResolvedRole) (st : PreflightState) (d : Deployment) : PreflightState :=
  match d.spec.replicas with
  | some n =>
    if rc.kind = .dataplane ∧ n > 1 then
      st.fail ("deployment " ++ d.metadata.name ++ " is a node-pinned dataplane workload with " ++ toString n ++ " replicas")
    else st
  | none => st

/-- One component of one node in `preflightResources`: the state, and the workloads rendered so far. -/
def preflightComponent (Γ : Platform) (plan : PassPlan) (y : Yanet) (node : Node) (ctx : BuildContext)
    (acc : PreflightState × List RenderedWorkload) (ref : ComponentRef) : PreflightState × List RenderedWorkload :=
  let (st, workloads) := acc
  match resolveForPass Γ plan y ref with
  | .error e => (st.fail ("resolve " ++ ref.kind.text ++ " on node " ++ node.metadata.name ++ ": " ++ e), workloads)
  | .ok none => (st, workloads)
  | .ok (some rc) =>
    match renderDeployments Γ ctx rc (newPatchRegistry plan.cfg.patches) with
    | .error e => (st.fail ("build " ++ rc.name ++ " on node " ++ node.metadata.name ++ ": " ++ e), workloads)
    | .ok deployments =>
      if ref.kind = .controlplane ∧ rc.enabled = true ∧ plan.installationEnabled = true ∧ deployments = [] then
        (st.fail ("controlplane has no enabled NUMA domain on node " ++ node.metadata.name), workloads)
      else
        let deployments := deployments.map fun d => normalizeDeploymentReplicas d rc.enabled plan.installationEnabled
        let st := deployments.foldl (checkReplicas rc.toResolvedRole) st
        (addServicePlans Γ plan.cfg y.spec.boxType rc.toResolvedRole ("on node " ++ node.metadata.name) st,
          workloads ++ deployments.map fun d => { deployment := d, component := rc })

/-- The loop of `preflightResources` over the nodes: the state, and the workloads of each node. -/
def preflightNodes (Γ : Platform) (plan : PassPlan) (y : Yanet) :
    List Node → PreflightState → Except Err (PreflightState × List (Node × List RenderedWorkload))
  | [], st => .ok (st, [])
  | node :: nodes, st =>
    match nodeContext Γ plan y node with
    | .error e => .error { text := e }
    | .ok ctx => do
      let (st, workloads) := plan.enabled.foldl (preflightComponent Γ plan y node ctx) (st, [])
      let (st, rest) ← preflightNodes Γ plan y nodes st
      pure (st, (node, workloads) :: rest)

/-- One component of `preflightResources` when no node matches. -/
def preflightUnmatched (Γ : Platform) (plan : PassPlan) (y : Yanet) (st : PreflightState) (ref : ComponentRef) :
    PreflightState :=
  match resolveBoxComponent Γ plan.cfg y.spec ref.kind ref.operatorName with
  | .error e => st.fail ("resolve " ++ ref.kind.text ++ " without matched nodes: " ++ e)
  | .ok none => st
  | .ok (some rc) => addServicePlans Γ plan.cfg y.spec.boxType rc.toResolvedRole "without matched nodes" st

/-- The part of `preflightResources` before the placement gate: the Service plans and the rendered workloads. -/
def preflightPlans (Γ : Platform) (plan : PassPlan) (y : Yanet) (nodes : List Node) :
    Except Err (StrMap ServicePlan × List (Node × List RenderedWorkload)) := do
  let (st, workloads) ← preflightNodes Γ plan y nodes {}
  let st := if nodes = [] then plan.enabled.foldl (preflightUnmatched Γ plan y) st else st
  match Err.join st.errs with
  | some e => .error e
  | none => pure (st.plans, workloads)

/-- `preflightResources`. -/
def preflightResources (Γ : Platform) (plan : PassPlan) (y : Yanet) (nodes : List Node) : TryPass (StrMap ServicePlan) := do
  match preflightPlans Γ plan y nodes with
  | .error e => throw e
  | .ok (plans, workloads) => do
    validateOperatorPlacementTransition Γ y workloads
    pure plans

end YanetOperator
