import YanetOperator.Cluster.Fleet

/-!
# Rollouts

The fleet as its Deployments roll out: a Deployment runs Pods of its template and, until the controller of Deployments reports the
rollout of a template as complete, Pods of the templates before it. Between two calls of a pass Pods come, change and go. The templates
of the Deployments of an installation are changed by its passes only; what a Pod mounts is fixed when it is created, from its template
and from what admission adds to every Pod.
-/

namespace YanetOperator

/-- A template that a Deployment may still create Pods of: one of its versions has it, and since that version no rollout of another
template was reported as complete. -/
def MayRun (w : World) (d : Deployment) (template : PodTemplateSpec) : Prop :=
  ∃ v ∈ w.past .deployment, keyOf .deployment v = keyOf .deployment d ∧ v.spec.template = template ∧
    ∀ u ∈ w.past .deployment, keyOf .deployment u = keyOf .deployment d →
      v.metadata.resourceVersion ≤ u.metadata.resourceVersion → rolloutPending u = false → u.spec.template = template

/-- The Pod is of an installation, by its namespace and its label. -/
def Pod.ofYanet (p : Pod) (ns name : String) : Prop := p.metadata.ns = ns ∧ p.metadata.labels[labelYanet]? = some name

namespace World

/-- A Pod that has just appeared in the store: a new version of a Pod, or a new Pod of a template that a Deployment of the same
installation may run. Admission may have added mounts of the ConfigMaps in `injected`. -/
inductive Appears (injected : String → Prop) (w : World) (p : Pod) : Prop where
  | unlabelled (h : p.metadata.labels[labelYanet]? = none)
  | changed (stored : Pod) (mem : stored ∈ w.store .pod) (ns : p.metadata.ns = stored.metadata.ns)
      (label : p.metadata.labels[labelYanet]? = stored.metadata.labels[labelYanet]?)
      (mounts : podConfigMapRefs p.spec = podConfigMapRefs stored.spec)
  | started (d : Deployment) (t : Tenant) (template : PodTemplateSpec) (mem : d ∈ w.store .deployment)
      (own : tenant d.metadata = some t) (label : p.ofYanet t.ns t.name) (runs : MayRun w d template)
      (mounts : ∀ name ∈ podConfigMapRefs p.spec, name ∈ podConfigMapRefs template.spec ∨ injected name)

/-- What others may do while rollouts go on. -/
structure Unfolds (injected : String → Prop) (w w' : World) : Prop where
  tolerated : Tolerated w w'
  templates : ∀ d ∈ w'.store .deployment, tenant d.metadata ≠ none → d ∉ w.store .deployment →
    ∃ stored ∈ w.store .deployment, SameBearings stored.metadata d.metadata ∧ d.spec.template = stored.spec.template
  pods : ∀ p ∈ w'.store .pod, p ∉ w.store .pod → Appears injected w p

/-- A call of a pass, while rollouts go on. -/
def unfolding (injected : String → Prop) : Prog.Step Api World :=
  Prog.Step.after (Relation.ReflTransGen (Unfolds injected)) Serves

end World

/-- One step of the fleet while rollouts go on. -/
inductive RolloutStep (Γ : Platform) (injected : String → Prop) (w w' : World) : Prop where
  | others (h : World.Unfolds injected w w')
  | pass (key : Key) (rest : Pass Outcome)
      (h : Prog.Reaches (World.unfolding injected) (YanetReconciler.reconcile Γ key) w rest w')

end YanetOperator
