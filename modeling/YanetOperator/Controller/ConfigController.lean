import YanetOperator.Pool
import YanetOperator.Controller.YanetReconciler
import YanetOperator.Controller.SharedServices

/-!
# The controller of the YanetConfig, and what wakes a reconcile

The configuration lives in memory, in a snapshot behind a lock. Two parties refresh it from the persisted singleton: the reconcile of
the singleton, and the mapper that turns its change into requests for every installation. A refresh holds the lock over the read and
the publication; a pass only looks at the snapshot, for which it takes the lock and gives it back in one call.
-/

namespace YanetOperator

/-- The calls of a refresh: the lock, the read of the singleton, the publication. -/
inductive SnapshotOp where
  | lock
  | read
  | publish (spec : YanetConfigSpec)
  | unlock

abbrev SnapshotOp.Answer : SnapshotOp → Type
  | .lock => Unit
  | .read => Except ApiError YanetConfig
  | .publish _ => Unit
  | .unlock => Unit

/-- The interface of a refresh. -/
def SnapshotApi : Interface := { Call := SnapshotOp, Answer := SnapshotOp.Answer }

/-- The interface of the operator: the refreshes and the passes. -/
abbrev Operator : Interface := SnapshotApi.sum Api

/-- What is published for an answer to the read: an empty configuration when there is no object or it could not be read. -/
def publishedSpec : Except ApiError YanetConfig → YanetConfigSpec
  | .ok config => config.spec
  | .error _ => {}

/-- What a refresh returns for an answer to the read; a missing object is not an error. -/
def refreshed : Except ApiError YanetConfig → Except Err (Option YanetConfig)
  | .ok config => .ok (some config)
  | .error e => if e.reason = .notFound then .ok none else .error (.api e)

/-- `refreshYanetConfigSnapshot`. -/
def refreshYanetConfigSnapshot : Prog SnapshotApi (Except Err (Option YanetConfig)) := do
  Prog.perform (I := SnapshotApi) .lock
  let answer : Except ApiError YanetConfig ← Prog.perform (I := SnapshotApi) .read
  Prog.perform (I := SnapshotApi) (.publish (publishedSpec answer))
  Prog.perform (I := SnapshotApi) .unlock
  pure (refreshed answer)

/-- `YanetConfigReconciler.Reconcile`. -/
def YanetConfigReconciler.reconcile (Γ : Platform) : Prog Operator Outcome := do
  match ← refreshYanetConfigSnapshot.inl with
  | .error e => pure { err := some e }
  | .ok none => pure {}
  | .ok (some config) =>
    if config.spec.stop then pure {}
    else do
      let err ← (reconcileSharedServices Γ config).inr
      pure { err := err }

/-! ## The mappers of events -/

/-- The requests for the installations of a list. -/
def requestsFor (ys : List Yanet) : List Key := ys.map (keyOf .yanet)

/-- `mapConfigToYanets`: a failed refresh does not keep the installations from being woken. -/
def mapConfigToYanets : Prog Operator (List Key) := do
  let _ ← refreshYanetConfigSnapshot.inl
  match ← (listObjs .yanet none ∅).run.inr with
  | .error _ => pure []
  | .ok ys => pure (requestsFor ys)

/-- `mapNodeToYanets`. -/
def mapNodeToYanets (node : Node) : Pass (List Key) := do
  match ← (listObjs .yanet none ∅).run with
  | .error _ => pure []
  | .ok ys => pure (requestsFor (ys.filter fun y => matchesLabels y.spec.nodeSelector node.metadata.labels))

/-- `mapPodToYanet`. -/
def mapPodToYanet (pod : Pod) : List Key :=
  let name := (pod.metadata.labels[labelYanet]?).getD ""
  if name = "" then [] else [{ ns := pod.metadata.ns, name := name }]

/-- `enqueueYanetConfigSingleton`. -/
def enqueueYanetConfigSingleton : List Key := [{ name := yanetConfigName }]

end YanetOperator
