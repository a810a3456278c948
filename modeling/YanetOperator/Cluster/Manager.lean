import Mathlib.Logic.Function.Basic
import YanetOperator.Controller.ConfigController

/-!
# The operator as a running process

Any number of reconciles and mappers run side by side: a pass of an installation, a reconcile of the YanetConfig, the mapper of its
events, the mapper of Node events. They share the snapshot and its lock. The singleton goes through a sequence of versions; the cache
that the client reads stands at one of them and only moves on.

A read of the singleton for a refresh answers with the version the cache stands at, or fails; what the API server answers to the
other calls is not said. Two fields are for the proofs only: what each thread read last, with the version, and what was published.
-/

namespace YanetOperator

/-- The versions of the singleton; `none` where it does not exist. -/
abbrev Versions := Nat → Option YanetConfig

/-- What a refresh read, and the version the cache stood at. -/
structure Publication where
  version : Nat
  answer : Except ApiError YanetConfig

namespace Publication

/-- The read failed, and not because there is no object. -/
def failed (p : Publication) : Bool :=
  match p.answer with
  | .ok _ => false
  | .error e => decide (e.reason ≠ .notFound)

/-- The answer is the version it was read at, or a failure. -/
inductive Truthful (versions : Versions) : Publication → Prop where
  | found {n : Nat} {config : YanetConfig} (h : versions n = some config) : Truthful versions ⟨n, .ok config⟩
  | missing {n : Nat} {e : ApiError} (h : versions n = none) (he : e.reason = .notFound) : Truthful versions ⟨n, .error e⟩
  | failure {n : Nat} {e : ApiError} (he : e.reason ≠ .notFound) : Truthful versions ⟨n, .error e⟩

end Publication

/-- What the threads share. -/
structure Manager where
  version : Nat := 0
  snapshot : YanetConfigSpec := {}
  holder : Option Nat := none
  lastRead : Nat → Option Publication := fun _ => none
  published : List Publication := []

namespace Manager

/-- The cache moves on to a later version. -/
def Moves (m m' : Manager) : Prop := ∃ n, m.version ≤ n ∧ m' = { m with version := n }

/-- What a call of a thread may do. The lock makes the refreshes and the looks at the snapshot wait. -/
inductive Answers (versions : Versions) (i : Nat) (m : Manager) : (c : Operator.Call) → Operator.Answer c → Manager → Prop where
  | lock (free : m.holder = none) : Answers versions i m (.inl .lock) () { m with holder := some i }
  | read {answer : Except ApiError YanetConfig} (h : Publication.Truthful versions ⟨m.version, answer⟩) :
      Answers versions i m (.inl .read) answer { m with lastRead := Function.update m.lastRead i (some ⟨m.version, answer⟩) }
  | publish {spec : YanetConfigSpec} {p : Publication} (h : m.lastRead i = some p) :
      Answers versions i m (.inl (.publish spec)) () { m with snapshot := spec, published := p :: m.published }
  | unlock : Answers versions i m (.inl .unlock) () { m with holder := none }
  | checkStop (free : m.holder = none) : Answers versions i m (.inr .checkStop) m.snapshot.stop m
  | snapshot (free : m.holder = none) : Answers versions i m (.inr .snapshot) m.snapshot m
  | api {c : Op} (r : c.Answer) (hstop : c ≠ .checkStop) (hsnapshot : c ≠ .snapshot) : Answers versions i m (.inr c) r m

end Manager

/-- What a thread of the operator runs. -/
inductive Starts (Γ : Platform) : Prog Operator Unit → Prop where
  | yanet (key : Key) : Starts Γ ((YanetReconciler.reconcile Γ key).inr >>= fun _ => pure ())
  | config : Starts Γ (YanetConfigReconciler.reconcile Γ >>= fun _ => pure ())
  | mapConfig : Starts Γ (mapConfigToYanets >>= fun _ => pure ())
  | mapNode (node : Node) : Starts Γ ((mapNodeToYanets node).inr >>= fun _ => pure ())

/-- One step of the running operator. -/
abbrev Running (Γ : Platform) (versions : Versions) : Pool Operator Manager → Pool Operator Manager → Prop :=
  Pool.Step (Starts Γ) Manager.Moves (Manager.Answers versions)

/-- The operator has started, at some version, and has run. -/
def Started (Γ : Platform) (versions : Versions) (P : Pool Operator Manager) : Prop :=
  ∃ n, Relation.ReflTransGen (Running Γ versions) { state := { version := n } } P

end YanetOperator
