import YanetOperator.Prog
import YanetOperator.Manifests.Render

/-!
# What the controllers call

The calls a reconcile pass issues, with their answers: reads and writes of the API server, events, the checks of the
in-memory snapshot of the YanetConfig, the update window, and the clock. A pass is a program over this interface; what a call
does is not said here. The helpers of the client libraries that passes are written with (`RetryOnConflict`, `CreateOrUpdate`,
`SetControllerReference`) are programs over the same interface.
-/

namespace YanetOperator

/-! ## Objects -/

inductive Kind where
  | yanet
  | yanetConfig
  | node
  | deployment
  | replicaSet
  | pod
  | configMap
  | service
  deriving DecidableEq

/-- The objects of a kind. -/
abbrev Obj : Kind → Type
  | .yanet => Yanet
  | .yanetConfig => YanetConfig
  | .node => Node
  | .deployment => Deployment
  | .replicaSet => ReplicaSet
  | .pod => Pod
  | .configMap => ConfigMap
  | .service => Service

/-- The metadata of an object. -/
def metaOf : (k : Kind) → Obj k → ObjectMeta
  | .yanet, (o : Yanet) => o.metadata
  | .yanetConfig, (o : YanetConfig) => o.metadata
  | .node, (o : Node) => o.metadata
  | .deployment, (o : Deployment) => o.metadata
  | .replicaSet, (o : ReplicaSet) => o.metadata
  | .pod, (o : Pod) => o.metadata
  | .configMap, (o : ConfigMap) => o.metadata
  | .service, (o : Service) => o.metadata

/-- The object with other metadata. -/
def withMeta : (k : Kind) → Obj k → ObjectMeta → Obj k
  | .yanet, (o : Yanet), m => { o with metadata := m }
  | .yanetConfig, (o : YanetConfig), m => { o with metadata := m }
  | .node, (o : Node), m => { o with metadata := m }
  | .deployment, (o : Deployment), m => { o with metadata := m }
  | .replicaSet, (o : ReplicaSet), m => { o with metadata := m }
  | .pod, (o : Pod), m => { o with metadata := m }
  | .configMap, (o : ConfigMap), m => { o with metadata := m }
  | .service, (o : Service), m => { o with metadata := m }

/-- `types.NamespacedName`. -/
structure Key where
  ns : String := ""
  name : String
  deriving DecidableEq

/-- Keys are ordered by namespace, then by name. -/
instance : Ord Key := ⟨compareLex (compareOn Key.ns) (compareOn Key.name)⟩

instance : Std.TransOrd Key := inferInstanceAs (Std.TransCmp (compareLex (compareOn Key.ns) (compareOn Key.name)))

instance : Std.LawfulEqOrd Key where
  eq_of_compare {a b} h := by
    have h' : compareLex (compareOn Key.ns) (compareOn Key.name) a b = .eq := h
    rw [compareLex_eq_eq] at h'
    have hns : a.ns = b.ns := Std.LawfulEqOrd.eq_of_compare h'.1
    have hname : a.name = b.name := Std.LawfulEqOrd.eq_of_compare h'.2
    cases a
    cases b
    simp_all

/-- The key of an object. -/
def keyOf (k : Kind) (o : Obj k) : Key := { ns := (metaOf k o).ns, name := (metaOf k o).name }

/-! ## Errors -/

/-- The reasons of an API status error the code tells apart. -/
inductive Reason where
  | notFound
  | conflict
  | alreadyExists
  | gone
  | other
  deriving DecidableEq

structure ApiError where
  reason : Reason
  text : String := ""
  deriving DecidableEq

/-- An error: its text, and what `errors.Is` and `errors.As` find in its chain. -/
structure Err where
  text : String
  reason : Option Reason := none
  globalStop : Bool := false
  deriving DecidableEq

/-- An API error. -/
def Err.api (e : ApiError) : Err := { text := e.text, reason := some e.reason }

/-- `fmt.Errorf("...: %w", err)`. -/
def Err.wrap (message : String) (e : Err) : Err := { e with text := message ++ ": " ++ e.text }

/-- `errors.Join` of the errors that are not nil. -/
def Err.join (es : List Err) : Option Err :=
  if es = [] then none
  else some { text := Text.join "\n" (es.map (·.text)), reason := es.findSome? (·.reason), globalStop := es.any (·.globalStop) }

/-- `errGlobalStop`. -/
def errGlobalStop : Err := { text := "YanetConfig.spec.stop is true", globalStop := true }

/-! ## Calls -/

/-- The calls of a pass. -/
inductive Op where
  | get (k : Kind) (key : Key)
  | list (k : Kind) (ns : Option String) (labels : StrMap String)
  | create (k : Kind) (o : Obj k)
  | update (k : Kind) (o : Obj k)
  | updateStatus (y : Yanet)
  | dryRun (d : Deployment)
  | delete (k : Kind) (o : Obj k) (foreground : Bool)
  | event (reason note : String)
  | checkStop
  | snapshot
  | requeue (window : Int) (host : String)
  | now

/-- The answers to a call. A deletion carries the UID and the resource version of its object as preconditions; a dry run
answers with the object as the server would persist it; `checkStop` and `snapshot` read the shared YanetConfig snapshot,
and `requeue` asks the update window. -/
abbrev Op.Answer : Op → Type
  | .get k _ => Except ApiError (Obj k)
  | .list k _ _ => Except ApiError (List (Obj k))
  | .create _ _ => Except ApiError Unit
  | .update _ _ => Except ApiError Unit
  | .updateStatus _ => Except ApiError Unit
  | .dryRun _ => Except ApiError Deployment
  | .delete _ _ _ => Except ApiError Unit
  | .event _ _ => Unit
  | .checkStop => Bool
  | .snapshot => YanetConfigSpec
  | .requeue _ _ => Int
  | .now => Nat

/-- The interface of the controllers. -/
def Api : Interface := { Call := Op, Answer := Op.Answer }

/-- A pass or a part of one. -/
abbrev Pass := Prog Api

/-- A part of a pass that may fail. -/
abbrev TryPass (α : Type) := ExceptT Err Pass α

/-- Issue a call. -/
def issue (c : Op) : Pass c.Answer := Prog.perform (I := Api) c

/-- Issue a call whose answer may be an API error. -/
def attempt {α : Type} (p : Pass (Except ApiError α)) : TryPass α :=
  ExceptT.mk do
    match ← p with
    | .ok a => pure (.ok a)
    | .error e => pure (.error (.api e))

/-- Read one object. -/
def getObj (k : Kind) (key : Key) : TryPass (Obj k) := attempt (issue (.get k key))

/-- List the objects of a kind, in a namespace or in all, with the given labels. -/
def listObjs (k : Kind) (ns : Option String) (labels : StrMap String) : TryPass (List (Obj k)) :=
  attempt (issue (.list k ns labels))

/-- `checkGlobalStop`. -/
def checkGlobalStop : TryPass Unit :=
  ExceptT.mk do
    if ← issue .checkStop then pure (.error errGlobalStop) else pure (.ok ())

/-- An event is recorded only when the stop is not set. -/
def recordEvent (reason note : String) : Pass Unit := do
  if ← issue .checkStop then pure () else issue (.event reason note)

/-! ## Library helpers -/

/-- The attempts of `retry.DefaultRetry` after the first. -/
def defaultRetries : Nat := 4

/-- `retry.RetryOnConflict`, with the number of attempts after the first: the last error is returned when they are used up. -/
def retryOnConflict {α : Type} (body : TryPass α) : Nat → TryPass α
  | 0 => body
  | n + 1 => ExceptT.mk do
    match ← body.run with
    | .ok a => pure (.ok a)
    | .error e => if e.reason = some .conflict then (retryOnConflict body n).run else pure (.error e)

/-- `referSameObject`: the same group, kind and name. -/
def referSameObject (a b : OwnerReference) : Prop :=
  resourcePrefix a.apiVersion = resourcePrefix b.apiVersion ∧ a.kind = b.kind ∧ a.name = b.name

instance (a b : OwnerReference) : Decidable (referSameObject a b) := inferInstanceAs (Decidable (_ ∧ _))

/-- `upsertOwnerRef`: the first reference to the same object is replaced, else the reference is appended. -/
def upsertOwnerRef (refs : List OwnerReference) (owner : OwnerReference) : List OwnerReference :=
  match refs.findIdx? (fun r => decide (referSameObject r owner)) with
  | some i => refs.set i owner
  | none => refs ++ [owner]

/-- `SetControllerReference`: an object with another controller is refused. -/
def setControllerReference (m : ObjectMeta) (owner : OwnerReference) : Except Err ObjectMeta :=
  match (getControllerOf m).filter (fun existing => decide (¬referSameObject existing owner)) with
  | some existing => .error { text := "Object " ++ m.ns ++ "/" ++ m.name ++ " is already owned by another " ++ existing.kind ++
      " controller " ++ existing.name }
  | none => .ok { m with ownerReferences := upsertOwnerRef m.ownerReferences owner }

/-- `controllerutil.CreateOrUpdate` for a ConfigMap: the object is read, changed by `mutate`, and created when it was missing or
updated when the change made a difference. -/
def createOrUpdate (cm : ConfigMap) (mutate : ConfigMap → TryPass ConfigMap) : TryPass Unit :=
  ExceptT.mk do
    match ← issue (.get .configMap (keyOf .configMap cm)) with
    | .error e =>
      if e.reason = .notFound then
        (do let cm ← mutate cm
            attempt (issue (.create .configMap cm)) : TryPass Unit).run
      else pure (.error (.api e))
    | .ok existing =>
      (do let cm ← mutate existing
          if cm = existing then pure () else attempt (issue (.update .configMap cm)) : TryPass Unit).run

end YanetOperator
