import YanetOperator.Controller.Apply

/-!
# Pruning

`internal/controller/prune.go`: the deletion of owned objects that are no longer wanted, and the release of nodes that another
installation won.
-/

namespace YanetOperator

/-- `isNotFoundOrGone` on an error. -/
def isNotFoundOrGone (e : ApiError) : Bool := e.reason = .notFound ∨ e.reason = .gone

/-- The node label of an object; an object without one has the empty node. -/
def nodeLabel (m : ObjectMeta) : String := (m.labels[labelNode]?).getD ""

/-- A Deployment scaled to zero. -/
def drained (d : Deployment) : Deployment := { d with spec := { d.spec with replicas := some 0 } }

/-- One Deployment of `pruneConflictingDeployments`. -/
def pruneConflictingDeployment (y : Yanet) (nodeNames : List String) (d : Deployment) : TryPass Unit := do
  if controlledByYanet d.metadata y = false ∨ d.metadata.deletionTimestamp.isSome = true then pure ()
  else if nodeLabel d.metadata ∉ nodeNames then
    if boolValue y.spec.enabled true = true ∨ d.spec.replicas = some 0 then pure ()
    else do
      checkGlobalStop
      ExceptT.mk do
        match ← issue (.update .deployment (drained d)) with
        | .ok () => pure (.ok ())
        | .error e => pure (.error ((Err.api e).wrap ("drain Deployment " ++ d.metadata.ns ++ "/" ++ d.metadata.name)))
  else do
    checkGlobalStop
    ExceptT.mk do
      match ← issue (.delete .deployment d true) with
      | .ok () => pure (.ok ())
      | .error e =>
        if isNotFoundOrGone e then pure (.ok ())
        else pure (.error ((Err.api e).wrap ("delete conflicting Deployment " ++ d.metadata.ns ++ "/" ++ d.metadata.name)))

/-- `pruneConflictingDeployments`. -/
def pruneConflictingDeployments (y : Yanet) (nodeNames : List String) : TryPass Unit := do
  let deployments : List Deployment ← ExceptT.mk do
    match ← (listObjs .deployment (some y.metadata.ns) ∅).run with
    | .ok ds => pure (.ok ds)
    | .error e => pure (.error (e.wrap "list conflicting Deployments"))
  deployments.forM (pruneConflictingDeployment y nodeNames)

/-! ## Orphans -/

/-- `desiredSet`: the names of the objects a pass wants to keep. -/
structure DesiredSet where
  deployments : List String := []
  configMaps : List String := []

/-- `pruneResult`. -/
structure PruneResult where
  deleted : Nat := 0
  retainedDeployments : List Deployment := []
  retainedConfigMaps : List String := []

/-- The progress of `pruneOrphans`: its result, its first error, and whether a Deployment was asked to go. -/
structure PruneState where
  result : PruneResult := {}
  firstErr : Option Err := none
  deletionRequested : Bool := false

/-- Count the answer of a deletion. -/
def PruneState.count (st : PruneState) : Except ApiError Unit → PruneState
  | .ok () => { st with result := { st.result with deleted := st.result.deleted + 1 } }
  | .error e => if isNotFoundOrGone e then st else { st with firstErr := st.firstErr.or (some (.api e)) }

/-- One Deployment of `pruneOrphans`; a global stop ends the loop. -/
def pruneDeployment (y : Yanet) (desired : DesiredSet) (autoSync : Bool) (st : PruneState) (d : Deployment) :
    ExceptT (PruneState × Err) Pass PruneState :=
  if controlledByYanet d.metadata y = false ∨ d.metadata.name ∈ desired.deployments then pure st
  else if autoSync = false then
    pure { st with result := { st.result with retainedDeployments := st.result.retainedDeployments ++ [d] } }
  else if d.metadata.deletionTimestamp.isSome then pure st
  else ExceptT.mk do
    match ← checkGlobalStop.run with
    | .error e => pure (.error (st, e))
    | .ok () => do
      let r ← issue (.delete .deployment d true)
      pure (.ok ({ st with deletionRequested := true }.count r))

/-- The names `collectPodConfigMapRefs` adds for a Pod. -/
def podConfigMapRefs (pod : PodSpec) : List String :=
  pod.volumes.flatMap (fun v => v.configMap.toList ++ (v.projected.getD []).filterMap (·.configMap)) ++
  pod.allContainers.flatMap fun c =>
    c.envFrom.filterMap (·.configMapRef) ++
      c.env.filterMap fun e => (e.valueFrom.bind (·.configMapKeyRef)).map (·.name)

/-- A Deployment whose rollout may still create Pods of an older template. -/
def rolloutPending (d : Deployment) : Bool :=
  d.metadata.deletionTimestamp.isSome || decide (d.status.observedGeneration < d.metadata.generation) ||
    decide (d.status.updatedReplicas ≠ d.spec.replicas.getD 1) || decide (d.status.replicas ≠ d.spec.replicas.getD 1)

/-- What `pruneOrphans` knows before it deletes ConfigMaps: the references in use, and whether a rollout is pending. -/
structure ConfigMapUse where
  referenced : List String := []
  pending : Bool := false

/-- The use of ConfigMaps by the owned Deployments. -/
def deploymentUse (y : Yanet) (deployments : List Deployment) : ConfigMapUse :=
  let owned := deployments.filter fun d => controlledByYanet d.metadata y
  { referenced := owned.flatMap fun d => podConfigMapRefs d.pod, pending := owned.any rolloutPending }

/-- One ConfigMap of `pruneOrphans`. -/
def pruneConfigMap (y : Yanet) (desired : DesiredSet) (autoSync : Bool) (inUse : ConfigMapUse) (st : PruneState)
    (c : ConfigMap) : ExceptT (PruneState × Err) Pass PruneState :=
  if controlledByYanet c.metadata y = false ∨ c.metadata.name ∈ desired.configMaps ∨ c.metadata.name ∈ inUse.referenced ∨
      inUse.pending = true then pure st
  else if autoSync = false then
    pure { st with result := { st.result with retainedConfigMaps := st.result.retainedConfigMaps ++ [c.metadata.name] } }
  else if c.metadata.deletionTimestamp.isSome then pure st
  else ExceptT.mk do
    match ← checkGlobalStop.run with
    | .error e => pure (.error (st, e))
    | .ok () => do
      let r ← issue (.delete .configMap c false)
      pure (.ok (st.count r))

/-- A failing read of `pruneOrphans`: the result so far is returned with the error. -/
def pruneRead {α : Type} (st : PruneState) (p : TryPass α) : ExceptT (PruneState × Err) Pass α :=
  ExceptT.mk do
    match ← p.run with
    | .ok a => pure (.ok a)
    | .error e => pure (.error (st, e))

/-- The ConfigMaps of `pruneOrphans`, given the Deployments that are there. -/
def pruneConfigMaps (y : Yanet) (desired : DesiredSet) (autoSync : Bool) (st : PruneState) (deployments : List Deployment) :
    ExceptT (PruneState × Err) Pass PruneState := do
  let selector := StrMap.of [(labelYanet, y.metadata.name)]
  let cms : List ConfigMap ← pruneRead st (listObjs .configMap (some y.metadata.ns) selector)
  let inUse := deploymentUse y deployments
  if cms = [] then pure st
  else do
    let pods : List Pod ← pruneRead st (listObjs .pod (some y.metadata.ns) selector)
    let inUse := { inUse with referenced := inUse.referenced ++ pods.flatMap fun p => podConfigMapRefs p.spec }
    cms.foldlM (pruneConfigMap y desired autoSync inUse) st

/-- `pruneOrphans`, with the state at the point where it stopped early as the error. -/
def pruneOrphansFrom (y : Yanet) (desired : DesiredSet) (autoSync : Bool) : ExceptT (PruneState × Err) Pass PruneState := do
  let deps : List Deployment ← pruneRead {} (listObjs .deployment (some y.metadata.ns) ∅)
  let st ← deps.foldlM (pruneDeployment y desired autoSync) {}
  -- the Deployments are read anew when one was asked to go, so that finished deletions no longer hold ConfigMaps
  let deps : List Deployment ← if st.deletionRequested then pruneRead st (listObjs .deployment (some y.metadata.ns) ∅)
    else pure deps
  pruneConfigMaps y desired autoSync st deps

/-- `pruneOrphans`. -/
def pruneOrphans (y : Yanet) (desired : DesiredSet) (autoSync : Bool) : Pass (PruneResult × Option Err) := do
  match ← (pruneOrphansFrom y desired autoSync).run with
  | .ok st => pure (st.result, st.firstErr)
  | .error (st, e) => pure (st.result, some e)

end YanetOperator
