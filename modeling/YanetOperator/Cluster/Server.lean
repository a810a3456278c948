import YanetOperator.Cluster.Store
import YanetOperator.Controller.Throttle
import YanetOperator.Lemmas.Run

/-!
# An API server without failures

An API server that answers every call by the objects it stores. It refuses a write of an object that is missing, that exists
already, or that was read at another version; it normalizes the Deployments it stores; and a dry run persists nothing and answers
with what an update would store. The other calls of a pass are answered by the snapshot of the configuration, the update window
and the clock of the controller.
-/

namespace YanetOperator

/-- The normalization of Deployments: the defaults and conversions the server applies to a spec. -/
structure Normalization where
  norm : DeploymentSpec → DeploymentSpec
  idem : ∀ s, norm (norm s) = norm s

/-- A Deployment as the server persists it. -/
def Normalization.deployment (N : Normalization) (d : Deployment) : Deployment := { d with spec := N.norm d.spec }

/-- An object as the server persists it. -/
def Normalization.obj (N : Normalization) : (k : Kind) → Obj k → Obj k
  | .deployment, (d : Deployment) => N.deployment d
  | .yanet, (o : Yanet) => o
  | .yanetConfig, (o : YanetConfig) => o
  | .node, (o : Node) => o
  | .replicaSet, (o : ReplicaSet) => o
  | .pod, (o : Pod) => o
  | .configMap, (o : ConfigMap) => o
  | .service, (o : Service) => o

/-- The state of the server and of the controller: the objects, the last version, the writes so far, the snapshot of the
configuration, the update window with the number of times it was asked, and the clock. -/
structure Server where
  store : Store
  revision : Nat := 0
  writes : List Op := []
  config : YanetConfigSpec := {}
  throttle : Throttle := ⟨0, ""⟩
  asked : Nat := 0
  clock : Nat := 0

namespace Server

/-- The stored object a write is for, unless it is missing or was read at another version. -/
def current (s : Server) (k : Kind) (o : Obj k) : Except ApiError (Obj k) :=
  match s.store.get k (keyOf k o) with
  | .error e => .error e
  | .ok stored =>
    if (metaOf k o).resourceVersion ≠ 0 ∧ (metaOf k o).resourceVersion ≠ (metaOf k stored).resourceVersion then
      .error { reason := .conflict }
    else .ok stored

/-- Persist an object at a new version. -/
def save (N : Normalization) (s : Server) (k : Kind) (o : Obj k) (c : Op) : Server :=
  { s with
    store := s.store.put k (withMeta k (N.obj k o) { metaOf k o with resourceVersion := s.revision + 1 })
    revision := s.revision + 1
    writes := s.writes ++ [c] }

/-- Delete an object: with a finalizer, or while its dependents go first, it stays and is marked. -/
def drop (N : Normalization) (s : Server) (k : Kind) (stored : Obj k) (foreground : Bool) (c : Op) : Server :=
  if foreground = true ∨ (metaOf k stored).finalizers ≠ [] then
    s.save N k (withMeta k stored { metaOf k stored with
      deletionTimestamp := (metaOf k stored).deletionTimestamp.or (some s.clock) }) c
  else { s with store := s.store.remove k (keyOf k stored), writes := s.writes ++ [c] }

/-- The answer to a call, and the state after it. -/
def exec (N : Normalization) (s : Server) (c : Api.Call) : Api.Answer c × Server :=
  match c with
  | .get k key => (s.store.get k key, s)
  | .list k ns labels => (.ok (s.store.select k ns labels), s)
  | .create k o =>
    match s.store.find k (keyOf k o) with
    | some _ => (.error { reason := .alreadyExists }, s)
    | none => (.ok (), s.save N k o (.create k o))
  | .update k o =>
    match s.current k o with
    | .error e => (.error e, s)
    | .ok _ => (.ok (), s.save N k o (.update k o))
  | .updateStatus y =>
    match s.current .yanet y with
    | .error e => (.error e, s)
    | .ok (stored : Yanet) => (.ok (), s.save N .yanet { stored with status := y.status } (.updateStatus y))
  | .dryRun d =>
    match s.current .deployment d with
    | .error e => (.error e, s)
    | .ok _ => (.ok (N.deployment d), s)
  | .delete k o foreground =>
    match s.store.get k (keyOf k o) with
    | .error e => (.error e, s)
    | .ok stored =>
      if (metaOf k stored).uid ≠ (metaOf k o).uid ∨ (metaOf k stored).resourceVersion ≠ (metaOf k o).resourceVersion then
        (.error { reason := .conflict }, s)
      else (.ok (), s.drop N k stored foreground (.delete k o foreground))
  | .event _ _ => ((), s)
  | .checkStop => (s.config.stop, s)
  | .snapshot => (s.config, s)
  | .requeue window host =>
    let (d, throttle) := checkUpdateRequeue s.throttle window host s.clock
    (d, { s with throttle := throttle, asked := s.asked + 1 })
  | .now => (s.clock, s)

/-! ## Single calls -/

variable {N : Normalization} {s : Server} {k : Kind} {o stored : Obj k} {key : Key}

theorem save_store_other {k' : Kind} {c : Op} (h : k' ≠ k) : (s.save N k o c).store k' = s.store k' := by
  unfold save
  exact Store.put_other h

theorem exec_update (h : s.current k o = .ok stored) :
    s.exec N (Op.update k o) = (.ok (), s.save N k o (.update k o)) := by
  simp only [exec, h]

theorem exec_dryRun {d stored : Deployment} (h : s.current .deployment d = .ok stored) :
    s.exec N (Op.dryRun d) = (.ok (N.deployment d), s) := by
  simp only [exec, h]

theorem exec_get (h : s.store.find k key = some o) : s.exec N (Op.get k key) = (.ok o, s) := by
  simp only [exec, Store.get_of_find h]

theorem exec_get_none (h : s.store.find k key = none) : s.exec N (Op.get k key) = (.error { reason := .notFound }, s) := by
  simp only [exec, Store.get_of_find_none h]

end Server

end YanetOperator
