import YanetOperator.Cluster.World
import YanetOperator.Controller.YanetReconciler

/-!
# A fleet of installations

The cluster as the passes of the installations share it. One pass runs at a time, may fail at any call and may be abandoned after any;
it reads what is stored. Between two of its calls others create, edit and delete installations, relabel nodes, change any object of
another kind, and finish or update Deployments. They leave alone what the operator relies on: the identity of the Deployments that an
installation controls, and its finalizer.
-/

namespace YanetOperator

/-- The installation that controls an object, by its key and UID. -/
structure Tenant where
  ns : String
  name : String
  uid : Nat
  deriving DecidableEq

/-- The tenant of an object: its controller, when that is an installation. -/
def tenant (m : ObjectMeta) : Option Tenant :=
  (getControllerOf m).bind fun ref =>
    if ref.apiVersion = groupVersion ∧ ref.kind = "Yanet" then some ⟨m.ns, ref.name, ref.uid⟩ else none

/-- An installation as a tenant. -/
def Yanet.tenant (y : Yanet) : Tenant := ⟨y.metadata.ns, y.metadata.name, y.metadata.uid⟩

/-- The metadata that ownership and placement rest on. -/
structure SameBearings (m m' : ObjectMeta) : Prop where
  ns : m'.ns = m.ns
  name : m'.name = m.name
  labels : m'.labels = m.labels
  ownerReferences : m'.ownerReferences = m.ownerReferences

namespace World

/-- The answers to a call of a pass. A read is answered by what is stored; a write that is carried out stores the identity and the
finalizers that were sent, and may still be answered by an error; a deletion drops the object or marks it in its metadata; any call
may fail. -/
inductive Serves : World → (c : Op) → c.Answer → World → Prop where
  | get {w : World} {k : Kind} {key : Key} {o : Obj k} (found : w.store.find k key = some o) : Serves w (.get k key) (.ok o) w
  | getFails {w : World} {k : Kind} {key : Key} (e : ApiError) : Serves w (.get k key) (.error e) w
  | list {w : World} {k : Kind} {ns : Option String} {labels : StrMap String} :
      Serves w (.list k ns labels) (.ok (w.store.select k ns labels)) w
  | listFails {w : World} {k : Kind} {ns : Option String} {labels : StrMap String} (e : ApiError) :
      Serves w (.list k ns labels) (.error e) w
  | create {w : World} {k : Kind} {o : Obj k} (free : w.store.find k (keyOf k o) = none) (o' : Obj k)
      (same : SameBearings (metaOf k o) (metaOf k o')) (h : Persisted k o') (r : Except ApiError Unit) :
      Serves w (.create k o) r (w.persist k o' h)
  | createFails {w : World} {k : Kind} {o : Obj k} (e : ApiError) : Serves w (.create k o) (.error e) w
  | update {w : World} {k : Kind} {o stored : Obj k} (found : w.store.find k (keyOf k o) = some stored)
      (version : (metaOf k o).resourceVersion = 0 ∨ (metaOf k o).resourceVersion = (metaOf k stored).resourceVersion) (o' : Obj k)
      (same : SameBearings (metaOf k o) (metaOf k o')) (uid : (metaOf k o').uid = (metaOf k stored).uid)
      (finalizers : (metaOf k o').finalizers = (metaOf k o).finalizers) (h : Persisted k o') (r : Except ApiError Unit) :
      Serves w (.update k o) r (w.persist k o' h)
  | updateFails {w : World} {k : Kind} {o : Obj k} (e : ApiError) : Serves w (.update k o) (.error e) w
  | updateStatus {w : World} {y stored : Yanet} (found : w.store.find .yanet (keyOf .yanet y) = some stored) (y' : Yanet)
      (same : y'.metadata = stored.metadata) (h : Persisted .yanet y') (r : Except ApiError Unit) :
      Serves w (.updateStatus y) r (w.persist .yanet y' h)
  | updateStatusFails {w : World} {y : Yanet} (e : ApiError) : Serves w (.updateStatus y) (.error e) w
  | dryRun {w : World} {d d' : Deployment} (same : SameBearings d.metadata d'.metadata)
      (version : d'.metadata.resourceVersion = d.metadata.resourceVersion) : Serves w (.dryRun d) (.ok d') w
  | dryRunFails {w : World} {d : Deployment} (e : ApiError) : Serves w (.dryRun d) (.error e) w
  | deleteMarks {w : World} {k : Kind} {o stored : Obj k} {foreground : Bool} (found : w.store.find k (keyOf k o) = some stored)
      (uid : (metaOf k stored).uid = (metaOf k o).uid)
      (version : (metaOf k stored).resourceVersion = (metaOf k o).resourceVersion) (o' : Obj k)
      (same : SameBearings (metaOf k stored) (metaOf k o')) (content : o' = withMeta k stored (metaOf k o')) (h : Persisted k o')
      (r : Except ApiError Unit) : Serves w (.delete k o foreground) r (w.persist k o' h)
  | deleteDrops {w : World} {k : Kind} {o stored : Obj k} {foreground : Bool} (found : w.store.find k (keyOf k o) = some stored)
      (uid : (metaOf k stored).uid = (metaOf k o).uid)
      (version : (metaOf k stored).resourceVersion = (metaOf k o).resourceVersion) (r : Except ApiError Unit) :
      Serves w (.delete k o foreground) r (w.drop k (keyOf k o))
  | deleteFails {w : World} {k : Kind} {o : Obj k} {foreground : Bool} (e : ApiError) :
      Serves w (.delete k o foreground) (.error e) w
  | event {w : World} (reason note : String) : Serves w (.event reason note) () w
  | checkStop {w : World} (stop : Bool) : Serves w .checkStop stop w
  | snapshot {w : World} (cfg : YanetConfigSpec) : Serves w .snapshot cfg w
  | requeue {w : World} (window : Int) (host : String) (wait : Int) : Serves w (.requeue window host) wait w
  | now {w : World} (time : Nat) : Serves w .now time w

/-- What others may do. Deleting an installation is an edit that marks it while it has the finalizer of the operator; without that
finalizer it may go at any time. A Deployment may go at any time. -/
inductive Tolerated : World → World → Prop where
  | install {w : World} (y : Yanet) (free : w.store.find .yanet (keyOf .yanet y) = none) (h : Persisted .yanet y) :
      Tolerated w (w.persist .yanet y h)
  | edit {w : World} {stored : Yanet} (y : Yanet) (found : w.store.find .yanet (keyOf .yanet y) = some stored)
      (uid : y.metadata.uid = stored.metadata.uid)
      (finalizer : yanetFinalizer ∈ stored.metadata.finalizers → yanetFinalizer ∈ y.metadata.finalizers) (h : Persisted .yanet y) :
      Tolerated w (w.persist .yanet y h)
  | uninstall {w : World} {stored : Yanet} {key : Key} (found : w.store.find .yanet key = some stored)
      (released : yanetFinalizer ∉ stored.metadata.finalizers) : Tolerated w (w.drop .yanet key)
  | finish {w : World} (key : Key) : Tolerated w (w.drop .deployment key)
  | touch {w : World} {stored : Deployment} (d : Deployment) (found : w.store.find .deployment (keyOf .deployment d) = some stored)
      (same : SameBearings stored.metadata d.metadata) (h : Persisted .deployment d) : Tolerated w (w.persist .deployment d h)
  | foreign {w : World} (d : Deployment) (own : tenant d.metadata = none)
      (old : ∀ stored : Deployment, w.store.find .deployment (keyOf .deployment d) = some stored → tenant stored.metadata = none)
      (h : Persisted .deployment d) : Tolerated w (w.persist .deployment d h)
  | write {w : World} {k : Kind} (o : Obj k) (hy : k ≠ .yanet) (hd : k ≠ .deployment) (h : Persisted k o) :
      Tolerated w (w.persist k o h)
  | remove {w : World} {k : Kind} (key : Key) (hy : k ≠ .yanet) (hd : k ≠ .deployment) : Tolerated w (w.drop k key)

/-- A call of a pass, after what others did. -/
def served : Prog.Step Api World := Prog.Step.after (Relation.ReflTransGen Tolerated) Serves

end World

/-- One step of the fleet: others act, or a pass of some installation runs up to some point. -/
inductive FleetStep (Γ : Platform) (w w' : World) : Prop where
  | others (h : World.Tolerated w w')
  | pass (key : Key) (rest : Pass Outcome) (h : Prog.Reaches World.served (YanetReconciler.reconcile Γ key) w rest w')

end YanetOperator
