import YanetOperator.Controller.YanetReconciler

/-!
# Shared Services

`internal/controller/shared_services.go`: the Services of every namespace and box type, planned from all installations, held back
while a placement migrates, applied, and pruned.
-/

namespace YanetOperator

/-- `sharedServiceScope`. -/
structure SharedServiceScope where
  ns : String
  boxType : String
  deriving DecidableEq

/-- `metav1.NewControllerRef` for the YanetConfig. -/
def configOwner (config : YanetConfig) : OwnerReference :=
  { apiVersion := groupVersion, kind := "YanetConfig", name := config.metadata.name, uid := config.metadata.uid
    controller := some true, blockOwnerDeletion := some true }

/-- `controlledBy`. -/
def controlledBy (m : ObjectMeta) (owner : OwnerReference) : Bool :=
  match getControllerOf m with
  | none => false
  | some existing => decide ((owner.uid = 0 ∨ existing.uid = owner.uid) ∧ existing.apiVersion = owner.apiVersion ∧
      existing.kind = owner.kind ∧ existing.name = owner.name)

/-! ## Planning -/

/-- The progress of the planning loop of `reconcileSharedServices`. -/
structure SharedPlan where
  desired : Std.ExtTreeMap Key Service := ∅
  blocked : List Key := []
  protectedScopes : List SharedServiceScope := []
  scopes : List SharedServiceScope := []
  errs : List Err := []

/-- Record an error. -/
def SharedPlan.fail (st : SharedPlan) (text : String) : SharedPlan := { st with errs := st.errs ++ [{ text := text }] }

/-- One Service plan of one installation: the state, and whether the installation failed. -/
def planService (owner : OwnerReference) (ns : String) (acc : SharedPlan × Bool) (p : ServicePlan) : SharedPlan × Bool :=
  let (st, failed) := acc
  match p.validate with
  | .error e => (st.fail ("validate shared Service " ++ ns ++ "/" ++ p.name ++ ": " ++ e), true)
  | .ok () =>
    let service := p.toService ns owner
    let key := keyOf .service service
    if key ∈ st.blocked then (st, true)
    else
      match st.desired[key]? with
      | none => ({ st with desired := st.desired.insert key service }, failed)
      | some previous =>
        if previous.spec ≠ service.spec then
          ({ st with desired := st.desired.erase key, blocked := key :: st.blocked }.fail
            ("conflicting shared Service plans generated by Yanet objects for " ++ key.ns ++ "/" ++ key.name), true)
        else ({ st with desired := st.desired.insert key service }, failed)

/-- One component of one installation. -/
def planComponent (Γ : Platform) (config : YanetConfigSpec) (owner : OwnerReference) (y : Yanet) (acc : SharedPlan × Bool)
    (ref : ComponentRef) : SharedPlan × Bool :=
  match resolveBoxServiceComponent Γ config y.spec.boxType ref.kind ref.operatorName with
  | .error e => (acc.1.fail ("resolve " ++ ref.kind.text ++ " for Yanet " ++ y.metadata.ns ++ "/" ++ y.metadata.name ++ ": " ++ e),
      true)
  | .ok none => acc
  | .ok (some component) =>
    (buildServices Γ y.spec.boxType component.toResolvedRole).foldl (planService owner y.metadata.ns) acc

/-- The scope of an installation. -/
def scopeOf (y : Yanet) : SharedServiceScope := { ns := y.metadata.ns, boxType := y.spec.boxType }

/-- One installation of the planning loop. -/
def planInstallation (Γ : Platform) (config : YanetConfigSpec) (owner : OwnerReference) (st : SharedPlan) (y : Yanet) :
    SharedPlan :=
  if y.metadata.deletionTimestamp.isSome then st
  else
    let st := { st with scopes := if scopeOf y ∈ st.scopes then st.scopes else scopeOf y :: st.scopes }
    match enabledComponentsForBox Γ config y.spec.boxType with
    | .error e =>
      { st with protectedScopes := scopeOf y :: st.protectedScopes }.fail
        ("resolve Yanet " ++ y.metadata.ns ++ "/" ++ y.metadata.name ++ " components: " ++ e)
    | .ok refs =>
      let (st, failed) := refs.foldl (planComponent Γ config owner y) (st, false)
      if failed then { st with protectedScopes := scopeOf y :: st.protectedScopes } else st

/-- The planning loop of `reconcileSharedServices`. -/
def planSharedServices (Γ : Platform) (config : YanetConfig) (installations : List Yanet) : SharedPlan :=
  installations.foldl (planInstallation Γ config.spec (configOwner config)) {}

/-! ## The migration gate -/

/-- The progress of `blockedSharedServicePlacementScopes`, with the inventories read so far. -/
structure GateState where
  blocked : List SharedServiceScope := []
  errs : List Err := []
  inventories : List (String × Except Err (List PlacementProducer)) := []

/-- The role names a box type wires, sorted, and which of them are sidecars. -/
def boxRoles (box : BoxType) : List String × List String :=
  let sidecars := match box.components.dataplane with | some dp => dp.sidecars.keys | none => []
  (sortStrings (box.operators.keys ++ sidecars), sidecars)

/-- The first producer and role of a scope that are incompatible. -/
def scopeConflict (Γ : Platform) (box : BoxType) (boxType : String) (producers : List PlacementProducer) :
    Option (PlacementProducer × String) :=
  let (names, sidecars) := boxRoles box
  producers.findSome? fun producer =>
    if (producer.template.labels[labelBoxType]?).getD "" ≠ boxType then none
    else (names.find? fun name => incompatibleOperatorPlacement Γ producer.template.labels name (name ∈ sidecars)).map
      fun name => (producer, name)

/-- The inventory of a namespace, read at most once. -/
def inventoryOf (st : GateState) (ns : String) : Pass (GateState × Except Err (List PlacementProducer)) := do
  match st.inventories.find? (·.1 == ns) with
  | some (_, live) => pure (st, live)
  | none =>
    let live ← (listPlacementProducers ns).run
    pure ({ st with inventories := (ns, live) :: st.inventories }, live)

/-- One scope of `blockedSharedServicePlacementScopes`. -/
def gateScope (Γ : Platform) (config : YanetConfigSpec) (st : GateState) (scope : SharedServiceScope) : Pass GateState := do
  match findBoxType config scope.boxType with
  | .error _ => pure st
  | .ok box =>
    if (boxRoles box).1 = [] then pure st
    else
      match ← inventoryOf st scope.ns with
      | (st, .error e) => pure { st with blocked := scope :: st.blocked, errs := st.errs ++ [e] }
      | (st, .ok producers) =>
        match scopeConflict Γ box scope.boxType producers with
        | none => pure st
        | some (producer, name) => pure { st with
            blocked := scope :: st.blocked
            errs := st.errs ++ [{ text := "shared Service placement migration in " ++ scope.ns ++ "/" ++ scope.boxType ++
              " for " ++ Text.quote name ++ " requires drain of old " ++ producer.kind ++ " " ++ producer.name ++
              "; preserving existing Services until all installations in this scope have drained incompatible producers" }] }

/-- The order in which the scopes are visited. -/
def scopeLe (a b : SharedServiceScope) : Prop := a.ns ++ "/" ++ a.boxType ≤ b.ns ++ "/" ++ b.boxType

instance : DecidableRel scopeLe := fun _ _ => inferInstanceAs (Decidable (_ ≤ _))

/-- `blockedSharedServicePlacementScopes`. -/
def blockedSharedServicePlacementScopes (Γ : Platform) (config : YanetConfigSpec) (scopes : List SharedServiceScope) :
    Pass GateState :=
  (scopes.insertionSort scopeLe).foldlM (gateScope Γ config) {}

/-! ## Applying -/

/-- `desiredSharedServiceUpdate`: the candidate, and whether it differs. -/
def desiredSharedServiceUpdate (existing desired : Service) : Service × Bool :=
  let spec := { desired.spec with
    sessionAffinity := "None"
    clusterIP := existing.spec.clusterIP
    clusterIPs := existing.spec.clusterIPs
    ipFamilies := existing.spec.ipFamilies
    ipFamilyPolicy := existing.spec.ipFamilyPolicy.or desired.spec.ipFamilyPolicy }
  let merged :=
    mergeManagedMeta { existing.metadata with ownerReferences := desired.metadata.ownerReferences } desired.metadata
  let candidate : Service := { metadata := { merged with labels := merged.labels.erase labelYanet }, spec := spec }
  (candidate, decide (existing.spec ≠ candidate.spec ∨ existing.metadata.labels ≠ candidate.metadata.labels ∨
    existing.metadata.annotations ≠ candidate.metadata.annotations ∨
    existing.metadata.ownerReferences ≠ candidate.metadata.ownerReferences))

/-- The Service `applySharedService` creates when there is none. -/
def createdSharedService (desired : Service) : Service :=
  { metadata := mergeManagedMeta desired.metadata desired.metadata, spec := { desired.spec with sessionAffinity := "None" } }

/-- One attempt of the update of `applySharedService`. -/
def updateSharedServiceOnce (desired : Service) : TryPass Unit := do
  let fresh : Service ← getObj .service (keyOf .service desired)
  match validateServiceOwnership fresh desired with
  | .error e => throw e
  | .ok () =>
    let (candidate, changed) := desiredSharedServiceUpdate fresh desired
    if changed = false then pure ()
    else do
      if ← ExceptT.lift (issue .checkStop) then pure ()
      else attempt (issue (.update .service candidate))

/-- `applySharedService`. -/
def applySharedService (desired : Service) : TryPass Unit :=
  if desired.spec.ports = [] ∨ desired.spec.selector.isEmpty = true then
    throw { text := "refusing to apply invalid shared Service " ++ desired.metadata.ns ++ "/" ++ desired.metadata.name }
  else ExceptT.mk do
    match ← issue (.get .service (keyOf .service desired)) with
    | .error e =>
      if e.reason = .notFound then
        if ← issue .checkStop then pure (.ok ())
        else (attempt (issue (.create .service (createdSharedService desired)))).run
      else pure (.error (.api e))
    | .ok existing =>
      match validateServiceOwnership existing desired with
      | .error e => pure (.error e)
      | .ok () => (retryOnConflict (updateSharedServiceOnce desired) defaultRetries).run

/-- The progress of the write loops: the scopes protected from pruning, and the errors. -/
structure SharedState where
  protectedScopes : List SharedServiceScope
  errs : List Err

/-- The scope a Service belongs to. -/
def serviceScope (s : Service) : SharedServiceScope :=
  { ns := s.metadata.ns, boxType := (s.metadata.labels[labelBoxType]?).getD "" }

/-- One desired Service of the apply loop; `none` when the stop ended the pass. -/
def applyDesired (held : List SharedServiceScope) (st : SharedState) (key : Key) (service : Service) :
    OptionT Pass SharedState :=
  let scope := { serviceScope service with ns := key.ns }
  if scope ∈ held then pure st
  else OptionT.mk do
    if ← issue .checkStop then pure none
    else
      match ← (applySharedService service).run with
      | .ok () => pure (some st)
      | .error e => pure (some { protectedScopes := scope :: st.protectedScopes
                                 errs := st.errs ++ [e.wrap ("apply shared Service " ++ key.ns ++ "/" ++ key.name)] })

/-- Whether the prune keeps a Service. -/
def keepsService (plan : SharedPlan) (owner : OwnerReference) (protectedScopes : List SharedServiceScope) (s : Service) : Bool :=
  (plan.desired[keyOf .service s]?).isSome || decide (serviceScope s ∈ protectedScopes) ||
    decide (keyOf .service s ∈ plan.blocked) || !controlledBy s.metadata owner

/-- One Service of the prune loop; `none` when the stop ended the pass. -/
def pruneService (plan : SharedPlan) (owner : OwnerReference) (st : SharedState) (s : Service) : OptionT Pass SharedState :=
  if keepsService plan owner st.protectedScopes s then pure st
  else OptionT.mk do
    if ← issue .checkStop then pure none
    else
      match ← issue (.delete .service s false) with
      | .ok () => pure (some st)
      | .error e =>
        if e.reason = .notFound then pure (some st)
        else pure (some { st with errs := st.errs ++
          [(Err.api e).wrap ("delete shared Service " ++ s.metadata.ns ++ "/" ++ s.metadata.name)] })

/-- The write part of `reconcileSharedServices`: the desired Services in the order of their keys, then the prune. -/
def writeSharedServices (plan : SharedPlan) (owner : OwnerReference) (held : List SharedServiceScope) (st : SharedState) :
    OptionT Pass (List Err) := do
  let st ← plan.desired.toList.foldlM (fun st (key, service) => applyDesired held st key service) st
  match ← (listObjs .service none (StrMap.of [(labelSharedService, "true")])).run with
  | .error e => pure (st.errs ++ [e.wrap "list shared Services for pruning"])
  | .ok services => do
    let st ← services.foldlM (pruneService plan owner) st
    pure st.errs

/-- `reconcileSharedServices`. -/
def reconcileSharedServices (Γ : Platform) (config : YanetConfig) : Pass (Option Err) := do
  match ← (listObjs .yanet none ∅).run with
  | .error e => pure (some (e.wrap "list Yanet objects for shared Services"))
  | .ok installations =>
    let plan := planSharedServices Γ config installations
    let gate ← blockedSharedServicePlacementScopes Γ config.spec plan.scopes
    match ← (writeSharedServices plan (configOwner config) gate.blocked
        { protectedScopes := gate.blocked ++ plan.protectedScopes, errs := plan.errs ++ gate.errs }).run with
    | none => pure none
    | some errs => pure (Err.join errs)

end YanetOperator
