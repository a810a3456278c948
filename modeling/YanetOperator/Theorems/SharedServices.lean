import YanetOperator.Lemmas.Preflight
import YanetOperator.Lemmas.SharedPlan
import YanetOperator.Theorems.DeploymentNames

/-!
# The two Service planners

The preflight plans the Services of one installation; the shared reconciler merges the Services of all of them. They agree on a
name unless another box type of the namespace plans a Service under it: the shared reconciler then blocks the name.
-/

namespace YanetOperator

open Registry

section

variable {Γ : Platform} {config : YanetConfigSpec} {owner : OwnerReference}

end

/-- A platform that knows the names of the ambiguous roles. -/
def ambiguousPlatform : Platform :=
  Platform.tabulated [("node-a", "66570ff0"), ("c", "2e7d2c03"), ("b-c", "ea8fa858")] fun _ d => .ok d

/-- Box type and role are joined by a dash: `a` with `b-c` and `a-b` with `c` give the same Service name. -/
def ambiguousConfig : YanetConfig where
  metadata := { name := "yanetconfig", uid := 7 }
  spec :=
    { images := { registry := "registry.example", tag := "1.0" }
      components :=
        { controlplane := { image := { name := "controlplane" } }
          dataplane := { image := { name := "dataplane" } }
          operators := ["b-c", "c"].map fun name => { name := name, containers := [{ name := name, image := { name := "operator" } }] } }
      boxTypes := [("a", "b-c"), ("a-b", "c")].map fun (name, operator) =>
        { name := name
          components := { controlplane := some {}, dataplane := some {} }
          operators := StrMap.of [(operator, {})] } }

/-- An installation of a box type. -/
def installationOf (name boxType : String) : Yanet where
  metadata := { name := name, ns := "default", uid := 1, resourceVersion := 1 }
  spec := { boxType := boxType, nodeSelector := StrMap.of [("role", name)] }

end YanetOperator
