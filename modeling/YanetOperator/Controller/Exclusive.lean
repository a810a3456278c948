import YanetOperator.Controller.Placement

/-!
# Node exclusivity

`validateExclusiveNodes` and `yanetPrecedes` of `yanet_reconciler.go`: a node belongs to at most one installation.
-/

namespace YanetOperator

/-- `yanetPrecedes`: the older installation, or of two of one age the one with the smaller key. -/
def yanetPrecedes (left right : Yanet) : Bool :=
  if left.metadata.creationTimestamp ≠ right.metadata.creationTimestamp then
    decide (left.metadata.creationTimestamp < right.metadata.creationTimestamp)
  else decide (left.metadata.ns ++ "/" ++ left.metadata.name < right.metadata.ns ++ "/" ++ right.metadata.name)

/-- `hasWorkload`: an installation has a Deployment with the node's label. -/
def hasWorkload (deployments : List Deployment) (installation : Yanet) (nodeName : String) : Bool :=
  deployments.any fun d => d.metadata.ns == installation.metadata.ns && nodeLabel d.metadata == nodeName &&
    controlledByYanet d.metadata installation

/-- Whether an installation has a workload on a node or selects it. -/
def claimsNode (deployments : List Deployment) (other : Yanet) (node : Node) : Bool :=
  hasWorkload deployments other node.metadata.name || matchesLabels other.spec.nodeSelector node.metadata.labels

/-- Whether the current installation comes before the other on a node: a workload there decides, else the precedence. -/
def currentWins (deployments : List Deployment) (y other : Yanet) (node : Node) : Bool :=
  let current := hasWorkload deployments y node.metadata.name
  let others := hasWorkload deployments other node.metadata.name
  if current = others then yanetPrecedes y other else current && !others

/-- Another installation stands in the way on a node: it claims it, and it wins or is being deleted. -/
def nodeConflict (deployments : List Deployment) (y other : Yanet) (node : Node) : Bool :=
  claimsNode deployments other node && !(currentWins deployments y other node && other.metadata.deletionTimestamp.isNone)

/-- The pairs of an installation and a node that are in conflict with the current installation. -/
def nodeConflicts (deployments : List Deployment) (installations : List Yanet) (y : Yanet) (nodes : List Node) :
    List (Yanet × Node) :=
  (installations.filter fun other => decide (keyOf .yanet other ≠ keyOf .yanet y)).flatMap fun other =>
    (nodes.filter (nodeConflict deployments y other)).map fun node => (other, node)

/-- The nodes a losing installation must release: those it has a workload on and does not win, and those it no longer
selects. -/
def cleanupNodeNames (deployments : List Deployment) (installations : List Yanet) (y : Yanet) (nodes : List Node) :
    List String :=
  ((nodeConflicts deployments installations y nodes).filter fun (other, node) =>
    hasWorkload deployments y node.metadata.name && !currentWins deployments y other node).map (fun (_, node) =>
      node.metadata.name) ++
  (deployments.filter fun d => decide (nodeLabel d.metadata ∉ nodes.map (·.metadata.name)) &&
    controlledByYanet d.metadata y).map fun d => nodeLabel d.metadata

/-- An error of `validateExclusiveNodes`: a conflict carries the nodes to release. -/
structure ExclusiveErr where
  err : Err
  cleanup : Option (List String) := none

/-- The conflict the lists give, if any. -/
def exclusiveVerdict (deployments : List Deployment) (installations : List Yanet) (y : Yanet) (nodes : List Node) :
    Except ExclusiveErr Unit :=
  if nodeConflicts deployments installations y nodes = [] then .ok ()
  else
    let messages := (nodeConflicts deployments installations y nodes).map fun (other, node) =>
      "node " ++ node.metadata.name ++ " is also selected by Yanet " ++ other.metadata.ns ++ "/" ++ other.metadata.name
    .error { err := { text := Text.join "; " (sortStrings messages) }
             cleanup := some (cleanupNodeNames deployments installations y nodes) }

/-- `validateExclusiveNodes`. -/
def validateExclusiveNodes (y : Yanet) (nodes : List Node) : Pass (Except ExclusiveErr Unit) := do
  if nodes = [] then pure (.ok ())
  else
    match ← (listObjs .yanet none ∅).run with
    | .error e => pure (.error { err := e.wrap "list Yanet objects for node exclusivity" })
    | .ok installations =>
      match ← (listObjs .deployment none ∅).run with
      | .error e => pure (.error { err := e.wrap "list Deployments for node exclusivity" })
      | .ok deployments => pure (exclusiveVerdict deployments installations y nodes)

end YanetOperator
