import Mathlib.Data.List.Sort
import YanetOperator.Controller.Interface

/-!
# Status of an installation

`yanet_conditions.go`, and `updateStatus` and `aggregateSyncStatus` of `yanet_reconciler.go`.
-/

namespace YanetOperator

/-- `sort.Strings`. -/
def sortStrings (xs : List String) : List String := xs.insertionSort (· ≤ ·)

/-! ## Conditions -/

/-- `mergeConditions`: a fresh condition keeps the transition time of an existing one with the same status and reason, and the
existing conditions of other types are kept. -/
def mergeConditions (existing fresh : List Condition) : List Condition :=
  fresh.map (fun nc =>
    match existing.reverse.find? (·.type == nc.type) with
    | some old =>
      if old.status = nc.status ∧ old.reason = nc.reason then { nc with lastTransitionTime := old.lastTransitionTime } else nc
    | none => nc) ++
  existing.filter fun oc => oc.type ∉ fresh.map (·.type)

/-- `setConditionsDegraded`: the status of the installation after it. -/
def setConditionsDegraded (y : Yanet) (now : Nat) (reason message : String) : YanetStatus :=
  let deg : Condition :=
    { type := "Degraded", status := .isTrue, observedGeneration := y.metadata.generation, lastTransitionTime := now
      reason := reason, message := message }
  let ready : Condition :=
    { type := "Ready", status := .isFalse, observedGeneration := y.metadata.generation, lastTransitionTime := now
      reason := "NotReady", message := "See Degraded condition" }
  { y.status with conditions := mergeConditions y.status.conditions [deg, ready] }

/-- `computeConditions`. -/
def computeConditions (y : Yanet) (now : Nat) (missingOperators : List String) : List Condition :=
  let sync := y.status.sync
  let base (type : String) (status : ConditionStatus) (reason message : String) : Condition :=
    { type := type, status := status, observedGeneration := y.metadata.generation, lastTransitionTime := now
      reason := reason, message := message }
  let avail :=
    if sync.error ≠ [] then
      base "Available" .isFalse "SyncError" ("Errors syncing deployments: " ++ Text.bracketed sync.error)
    else if sync.outOfSync ≠ [] then
      base "Available" .isFalse "OutOfSync" ("Deployments out of sync (autoSync=false): " ++ Text.bracketed sync.outOfSync)
    else base "Available" .isTrue "AllSynced" "All deployments are in sync"
  let prog :=
    if sync.syncWaiting ≠ [] then
      base "Progressing" .isTrue "WaitingForUpdateWindow" ("Waiting for UpdateWindow: " ++ Text.bracketed sync.syncWaiting)
    else base "Progressing" .isFalse "Idle" "No updates in progress"
  let deg :=
    if missingOperators ≠ [] then
      base "Degraded" .isTrue "OperatorMissing"
        ("BoxType references operators missing from palette: " ++ Text.bracketed (sortStrings missingOperators))
    else if sync.error ≠ [] then
      base "Degraded" .isTrue "SyncError" ("Errors syncing deployments: " ++ Text.bracketed sync.error)
    else base "Degraded" .isFalse "Healthy" "No errors detected"
  let ready :=
    if avail.status ≠ .isTrue ∨ prog.status = .isTrue ∨ deg.status = .isTrue then
      base "Ready" .isFalse "NotReady" "See Available/Progressing/Degraded conditions"
    else base "Ready" .isTrue "AllChecksPassed" "Yanet is ready"
  mergeConditions y.status.conditions [avail, prog, deg, ready]

/-! ## Aggregation -/

/-- The names of the Deployments whose state satisfies the predicate, sorted. -/
def namesInState (byNode : StrMap NodeStatus) (p : String → Bool) : List String :=
  sortStrings (byNode.toList.flatMap fun (_, ns) => (ns.deployments.toList.filter fun e => p e.2).map (·.1))

/-- `aggregateSyncStatus`. -/
def aggregateSyncStatus (byNode : StrMap NodeStatus) : SyncStatus :=
  { synced := namesInState byNode (· == "synced")
    syncWaiting := namesInState byNode (· == "sync-waiting")
    error := namesInState byNode (· == "error")
    outOfSync := namesInState byNode fun s => s != "synced" && s != "sync-waiting" && s != "error" }

/-- The text of a Pod phase. -/
def PodPhase.text : PodPhase → String
  | .pending => "Pending"
  | .running => "Running"
  | .succeeded => "Succeeded"
  | .failed => "Failed"
  | .unknown => "Unknown"

/-- The Pods of an installation by phase. -/
def podsByPhase (pods : List Pod) : StrMap (List String) :=
  StrMap.of ((pods.map fun p => p.phase.text).map fun phase =>
    (phase, sortStrings ((pods.filter fun p => p.phase.text == phase).map (·.metadata.name))))

/-- `collectPods`. -/
def collectPods (y : Yanet) : TryPass (StrMap (List String)) :=
  ExceptT.mk do
    match ← (listObjs .pod (some y.metadata.ns) (StrMap.of [(labelYanet, y.metadata.name)])).run with
    | .ok pods => pure (.ok (podsByPhase pods))
    | .error e => pure (.error (e.wrap ("list Pods for Yanet " ++ y.metadata.ns ++ "/" ++ y.metadata.name)))

/-! ## Writing the status -/

/-- One attempt of `updateStatus`: the object is read anew, and written only when its status changes. -/
def updateStatusOnce (y : Yanet) (mutate : Yanet → Pass YanetStatus) : TryPass Unit := do
  let fresh : Yanet ← getObj .yanet (keyOf .yanet y)
  let status ← ExceptT.lift (mutate fresh)
  if fresh.status = status then pure ()
  else do
    checkGlobalStop
    attempt (issue (.updateStatus { fresh with status := status }))

/-- `updateStatus`. -/
def updateStatus (y : Yanet) (mutate : Yanet → Pass YanetStatus) : TryPass Unit :=
  retryOnConflict (updateStatusOnce y mutate) defaultRetries

/-- The mutator that marks the installation degraded. -/
def degraded (reason message : String) (fresh : Yanet) : Pass YanetStatus := do
  let now : Nat ← issue .now
  pure (setConditionsDegraded fresh now reason message)

end YanetOperator
