import YanetOperator.Cluster.Fleet
import YanetOperator.Controller.Placement

/-!
# Where Pods come from

The cluster as a source of Pods. A template can run when a Deployment or a ReplicaSet that is not scaled to zero has it, or a Pod of it
has not ended. Whatever others and the controllers of the workloads do between two calls of a pass, a Pod or a ReplicaSet that can run
something has it from what could run before it in this order: a Deployment, a ReplicaSet, a Pod. Only passes write the Deployments that
carry the labels of an installation, and a Pod is bound to the node of its label.
-/

namespace YanetOperator

/-- The workloads that make Pods, in the order in which they follow from each other. -/
inductive Source where
  | deployment
  | replicaSet
  | pod

def Source.rank : Source → Nat
  | .deployment => 0
  | .replicaSet => 1
  | .pod => 2

/-- The template can run in the namespace. -/
inductive Supplies (w : World) (ns : String) : Source → PodTemplateSpec → Prop where
  | deployment (d : Deployment) (mem : d ∈ w.store .deployment) (inNs : d.metadata.ns = ns)
      (scaled : deploymentReplicasAreZero d = false) : Supplies w ns .deployment d.spec.template
  | replicaSet (r : ReplicaSet) (mem : r ∈ w.store .replicaSet) (inNs : r.metadata.ns = ns) (scaled : r.replicas ≠ some 0) :
      Supplies w ns .replicaSet r.template
  | pod (p : Pod) (mem : p ∈ w.store .pod) (inNs : p.metadata.ns = ns) (live : p.isLive = true) : Supplies w ns .pod p.template

/-- Two templates are for the same installation and node, and run the same roles. -/
structure SameRoles (Γ : Platform) (t t' : PodTemplateSpec) : Prop where
  yanet : t'.labels[labelYanet]? = t.labels[labelYanet]?
  node : t'.labels[labelNode]? = t.labels[labelNode]?
  component : t'.labels[labelComponent]? = t.labels[labelComponent]?
  membership : ∀ name, t'.labels[operatorMembershipLabel Γ name]? = t.labels[operatorMembershipLabel Γ name]?

/-- The template is bound to no node, or to the node of its label. -/
def BoundToLabel (t : PodTemplateSpec) : Prop := t.spec.nodeName = "" ∨ t.labels[labelNode]? = some t.spec.nodeName

/-- The role runs in Pods of its own. -/
def Standalone (role : String) (t : PodTemplateSpec) : Prop := t.labels[labelComponent]? = some role

/-- The role runs inside the dataplane. -/
def Colocated (Γ : Platform) (role : String) (t : PodTemplateSpec) : Prop := t.labels[operatorMembershipLabel Γ role]? = some role

/-- Two templates are for one node of one installation. -/
structure SamePlace (t t' : PodTemplateSpec) : Prop where
  yanet : ∃ name, t.labels[labelYanet]? = some name ∧ t'.labels[labelYanet]? = some name
  node : ∃ name, name ≠ "" ∧ t.labels[labelNode]? = some name ∧ t'.labels[labelNode]? = some name

/-- What a server keeps of the Deployment that was sent. -/
structure SameWorkload (Γ : Platform) (d d' : Deployment) : Prop where
  ns : d'.metadata.ns = d.metadata.ns
  roles : SameRoles Γ d.spec.template d'.spec.template
  nodeName : d'.pod.nodeName = d.pod.nodeName
  scale : deploymentReplicasAreZero d' = deploymentReplicasAreZero d

/-- A configuration that a pass may read: one that was admitted, or the empty one before the first. -/
def Admissible (Γ : Platform) (config : YanetConfigSpec) : Prop := config.boxTypes = [] ∨ validateYanetConfig Γ config = .ok ()

/-- The answer to a dry run is the workload that was sent, and the configurations that are read were admitted. -/
def Faithful (Γ : Platform) : (c : Op) → c.Answer → Prop
  | .dryRun d, .ok d' => SameWorkload Γ d d'
  | .snapshot, config => Admissible Γ config
  | .get .yanetConfig _, .ok config => Admissible Γ config.spec
  | _, _ => True

namespace World

/-- What others may do: nothing labelled for an installation can run that could not before. -/
def Supplied (Γ : Platform) (w w' : World) : Prop :=
  ∀ ns source t, Supplies w' ns source t → t.labels[labelYanet]? ≠ none →
    BoundToLabel t ∧ ∃ source' t', source'.rank ≤ source.rank ∧ Supplies w ns source' t' ∧ SameRoles Γ t' t

/-- The answers to a call of a pass: a Deployment is stored as the workload that was sent. -/
structure Keeps (Γ : Platform) (w : World) (c : Op) (r : c.Answer) (w' : World) : Prop where
  serves : Serves w c r w'
  written : ∀ d, c = .create .deployment d ∨ c = .update .deployment d → ∀ d' ∈ w'.store .deployment, d' ∉ w.store .deployment →
    SameWorkload Γ d d'
  faithful : Faithful Γ c r

/-- A call of a pass, after what others did. -/
def supplied (Γ : Platform) : Prog.Step Api World := Prog.Step.after (Relation.ReflTransGen (Supplied Γ)) (Keeps Γ)

end World

/-- One step: others act, or a pass of some installation runs up to some point. -/
inductive SupplyStep (Γ : Platform) (w w' : World) : Prop where
  | others (h : World.Supplied Γ w w')
  | pass (key : Key) (rest : Pass Outcome) (h : Prog.Reaches (World.supplied Γ) (YanetReconciler.reconcile Γ key) w rest w')

end YanetOperator
