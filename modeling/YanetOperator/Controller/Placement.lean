import YanetOperator.Controller.Prune

/-!
# Placement migration

`internal/controller/operator_placement.go`: the inventory of the workloads that can still produce Pods, and the gate that
keeps a role from moving between a standalone operator and a dataplane sidecar while an old producer lives.
-/

namespace YanetOperator

/-- `renderedWorkload`. -/
structure RenderedWorkload where
  deployment : Deployment
  component : ResolvedComponent

/-- `deploymentReplicasAreZero`. -/
def deploymentReplicasAreZero (d : Deployment) : Bool := d.spec.replicas == some 0

/-- `placementProducer`. -/
structure PlacementProducer where
  kind : String
  name : String
  template : PodTemplateSpec
  deriving DecidableEq

/-- The producer a Deployment is, unless it is drained. -/
def deploymentProducer (d : Deployment) : Option PlacementProducer :=
  if deploymentReplicasAreZero d = false ∨ d.status.replicas ≠ 0 ∨ d.status.observedGeneration < d.metadata.generation then
    some { kind := "Deployment", name := d.metadata.name, template := d.spec.template }
  else none

/-- The producer a ReplicaSet is, unless it is drained. -/
def replicaSetProducer (r : ReplicaSet) : Option PlacementProducer :=
  if r.replicas ≠ some 0 ∨ r.statusReplicas ≠ 0 ∨ r.observedGeneration < r.metadata.generation then
    some { kind := "ReplicaSet", name := r.metadata.name, template := r.template }
  else none

/-- A Pod that has neither succeeded nor failed. -/
def Pod.isLive (p : Pod) : Bool := p.phase != .succeeded && p.phase != .failed

/-- The template of a Pod: its own metadata and specification. -/
def Pod.template (p : Pod) : PodTemplateSpec :=
  { labels := p.metadata.labels, annotations := p.metadata.annotations, spec := p.spec }

/-- The producer a Pod is, while it has not ended. -/
def podProducer (p : Pod) : Option PlacementProducer :=
  if p.isLive then some { kind := "Pod", name := p.metadata.name, template := p.template } else none

/-- The order of the producers in an inventory. -/
def producerLe (a b : PlacementProducer) : Prop := a.kind ++ "/" ++ a.name ≤ b.kind ++ "/" ++ b.name

instance : DecidableRel producerLe := fun _ _ => inferInstanceAs (Decidable (_ ≤ _))

/-- One list of `listPlacementProducers`. -/
def listLive (ns : String) (k : Kind) : TryPass (List (Obj k)) := ExceptT.mk do
  match ← (listObjs k (some ns) ∅).run with
  | .ok os => pure (.ok os)
  | .error e => pure (.error (e.wrap ("list live workloads in namespace " ++ Text.quote ns ++
      " before operator placement migration")))

/-- `listPlacementProducers`. -/
def listPlacementProducers (ns : String) : TryPass (List PlacementProducer) := do
  let deps : List Deployment ← listLive ns .deployment
  let sets : List ReplicaSet ← listLive ns .replicaSet
  let pods : List Pod ← listLive ns .pod
  pure ((deps.filterMap deploymentProducer ++ sets.filterMap replicaSetProducer ++
    pods.filterMap podProducer).insertionSort producerLe)

/-- `incompatibleOperatorPlacement`. -/
def incompatibleOperatorPlacement (Γ : Platform) (labels : StrMap String) (name : String) (colocated : Bool) : Bool :=
  let standaloneProducer := (labels[labelComponent]?).getD "" == name
  let colocatedProducer := (labels[operatorMembershipLabel Γ name]?).getD "" == name
  (colocated && standaloneProducer) || (!colocated && colocatedProducer)

/-- `podMayUseNode`. -/
def podMayUseNode (pod : PodSpec) (node : Node) : Bool :=
  if pod.nodeName ≠ "" then pod.nodeName == node.metadata.name else matchesLabels pod.nodeSelector node.metadata.labels

/-- A role that a pass is about to run on a node. -/
structure PlacementRole where
  name : String
  colocated : Bool
  node : Node

/-- The roles of the workloads of one node that are not scaled to zero. -/
def workloadRoles (node : Node) (w : RenderedWorkload) : List PlacementRole :=
  if deploymentReplicasAreZero w.deployment then []
  else
    (if w.component.kind = .operator then [{ name := w.component.name, colocated := false, node := node }] else []) ++
    (w.component.sidecars.filter (·.enabled)).map fun s => { name := s.name, colocated := true, node := node }

/-- Whether a template can put a Pod of the installation on the node. -/
def templateOnNode (y : Yanet) (node : Node) (t : PodTemplateSpec) : Bool :=
  let label := (t.labels[labelNode]?).getD ""
  (t.labels[labelYanet]?).getD "" == y.metadata.name &&
    if t.spec.nodeName = "" ∧ label ≠ "" then label == node.metadata.name else podMayUseNode t.spec node

/-- The check of one producer against one role. -/
def checkPlacement (Γ : Platform) (y : Yanet) (target : PlacementRole) (producer : PlacementProducer) : Except Err Unit :=
  if templateOnNode y target.node producer.template &&
      incompatibleOperatorPlacement Γ producer.template.labels target.name target.colocated then
    .error { text := "unsafe operator placement migration for " ++ Text.quote target.name ++ " on node " ++
      target.node.metadata.name ++ ": old producer in " ++ producer.kind ++ " " ++ producer.name ++
      "; explicitly drain (Yanet spec.enabled=false with autoSync=true), wait for zero Deployment/ReplicaSet replicas and" ++
      " terminated Pods, then enable the new placement" }
  else .ok ()

/-- The order in which the roles are checked. -/
def roleLe (a b : PlacementRole) : Prop := a.node.metadata.name ++ "/" ++ a.name ≤ b.node.metadata.name ++ "/" ++ b.name

instance : DecidableRel roleLe := fun _ _ => inferInstanceAs (Decidable (_ ≤ _))

/-- `validateOperatorPlacementTransition`. -/
def validateOperatorPlacementTransition (Γ : Platform) (y : Yanet) (workloads : List (Node × List RenderedWorkload)) :
    TryPass Unit := do
  let desired := workloads.flatMap fun (node, ws) => ws.flatMap (workloadRoles node)
  if desired.isEmpty then pure ()
  else do
    let producers ← listPlacementProducers y.metadata.ns
    ExceptT.mk (pure ((desired.insertionSort roleLe).forM fun target => producers.forM (checkPlacement Γ y target)))

end YanetOperator
