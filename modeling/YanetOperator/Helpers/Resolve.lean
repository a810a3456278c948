import YanetOperator.Api.YanetWebhook

/-!
# Resolving components

`internal/helpers/resolve.go`: the palette, the wiring of a box type and the overrides of an installation, combined into the
input of the renderer. A resolved component of the source holds its sidecars as further resolved components, and these hold
none: here the flat part is `ResolvedRole`, and only the whole has sidecars.
-/

namespace YanetOperator

open Check

/-- `BoolValue`: the value of a pointer, or the default. -/
def boolValue (p : Option Bool) (default : Bool) : Bool := p.getD default

inductive ComponentKind where
  | controlplane
  | dataplane
  | birdAdapter
  | operator
  | sidecar
  deriving DecidableEq

/-- The text of a component kind. -/
def ComponentKind.text : ComponentKind → String
  | .controlplane => "controlplane"
  | .dataplane => "dataplane"
  | .birdAdapter => "birdAdapter"
  | .operator => "operator"
  | .sidecar => "sidecar"

structure ResolvedImage where
  registry : String := ""
  imagePrefix : String := ""
  name : String := ""
  tag : String := ""
  deriving DecidableEq

/-- `ResolvedImage.FullPath`. -/
def ResolvedImage.fullPath (i : ResolvedImage) : String :=
  (if i.registry ≠ "" then i.registry ++ "/" else "") ++ (if i.imagePrefix ≠ "" then i.imagePrefix ++ "/" else "") ++ i.name ++
    (if i.tag ≠ "" then ":" ++ i.tag else "")

structure ResolvedContainer where
  name : String
  image : ResolvedImage := {}
  config : Option ConfigSource := none
  deriving DecidableEq

/-- One resolved workload or sidecar. -/
structure ResolvedRole where
  kind : ComponentKind
  name : String
  enabled : Bool := false
  image : ResolvedImage := {}
  config : Option ConfigSource := none
  hugepages : Option Hugepages := none
  numa : Int := 0
  disabledNuma : List Int := []
  networks : Option (List NetworkAttachment) := none
  networkResources : List String := []
  containers : List ResolvedContainer := []
  listenerNames : Option (List String) := none
  portIndex : Nat := 0
  patches : List String := []
  overrides : Option YanetComponentOverride := none
  sidecarOverride : Option YanetContainerOverride := none
  deriving DecidableEq

/-- `ResolvedComponent`: a role with the whole palette of dataplane sidecars, unselected and disabled ones included. -/
structure ResolvedComponent extends ResolvedRole where
  sidecars : List ResolvedRole := []
  deriving DecidableEq

/-- `ResolvedComponent.IsColocated`. -/
def ResolvedRole.isColocated (rc : ResolvedRole) : Bool := rc.kind == .sidecar

/-- `FindBoxType`. -/
def findBoxType (config : YanetConfigSpec) (name : String) : Except String BoxType :=
  match config.boxTypes.find? (·.name == name) with
  | some box => .ok box
  | none => .error ("boxType " ++ Text.quote name ++ " not found in YanetConfig")

/-- `FindOperator`. -/
def findOperator (config : YanetConfigSpec) (name : String) : Except String OperatorSpec :=
  match config.components.operators.find? (·.name == name) with
  | some operator => .ok operator
  | none => .error ("operator " ++ Text.quote name ++ " not found in YanetConfig.spec.components.operators")

/-- `componentOverride`. -/
def componentOverride (yanet : YanetSpec) (kind : ComponentKind) (operatorName : String) : Option YanetComponentOverride :=
  match yanet.components with
  | none => none
  | some components =>
    match kind with
    | .controlplane => components.controlplane.map (·.toYanetComponentOverride)
    | .dataplane => components.dataplane.map (·.toYanetComponentOverride)
    | .birdAdapter => components.birdAdapter
    | .operator => components.operators[operatorName]?
    | .sidecar => none

/-- `containerOverride`. -/
def containerOverride (override : Option YanetComponentOverride) (name : String) : Option YanetContainerOverride :=
  override.bind fun o => o.containers[name]?

/-- `resolveEnabled`. -/
def resolveEnabled (override : Option YanetComponentOverride) : Bool :=
  match override with
  | none => true
  | some o => boolValue o.enabled true

/-- `mergeImage`. -/
def mergeImage (images : ImagesSpec) (base : ImageRef) (override : Option YanetContainerOverride) : ResolvedImage :=
  let result : ResolvedImage :=
    { registry := base.registry.getD images.registry
      imagePrefix := base.imagePrefix.getD images.imagePrefix
      name := base.name
      tag := if base.tag ≠ "" then base.tag else images.tag }
  match override with
  | none => result
  | some o =>
    { result with
      name := if o.name ≠ "" then o.name else result.name
      tag := if o.tag ≠ "" then o.tag else result.tag }

/-- `resolveListeners`: the declared protocols in the order gRPC, HTTP; nil stays nil. -/
def resolveListeners (listeners : Option (List String)) : Option (List String) :=
  listeners.map fun ls => ["grpc", "http"].flatMap fun protocol => ls.filter (· == protocol)

/-- `resolveDisabledNuma`. -/
def resolveDisabledNuma (clusterWide : List Int) (yanet : YanetSpec) : List Int :=
  match yanet.components.bind (·.controlplane) with
  | some { disabledNuma := some disabled, .. } => disabled
  | _ => clusterWide

/-- The distinct texts of a list in ascending order (the keys of a map, sorted). -/
def sortedDistinct (xs : List String) : List String := (StrMap.of (xs.map fun x => (x, ()))).keys

/-- `resolveDataplaneNetworks`: the selected attachments, and the resource names of the defaults and the selected ones. -/
def resolveDataplaneNetworks (defaults : Option (List NetworkAttachment)) (yanet : YanetSpec) :
    Except String (Option (List NetworkAttachment) × List String) := do
  validateNetworkAttachments (defaults.getD [])
  let selected := ((yanet.components.bind (·.dataplane)).bind (·.networks)).or defaults
  validateNetworkAttachments (selected.getD [])
  pure (selected, sortedDistinct ((defaults.getD [] ++ selected.getD []).map (·.resourceName)))

/-! ## Dataplane sidecars -/

/-- The override of a sidecar: only a wired sidecar has one. -/
def sidecarOverrideOf (yanet : YanetSpec) (box : BoxDataplane) (name : String) : Option YanetContainerOverride :=
  match box.sidecars[name]? with
  | none => none
  | some _ => (yanet.components.bind (·.dataplane)).bind fun d => d.sidecars[name]?

/-- Whether a sidecar runs: it is wired and its slot enables it, or its override says so. -/
def sidecarEnabled (yanet : YanetSpec) (box : BoxDataplane) (name : String) : Bool :=
  match (sidecarOverrideOf yanet box name).bind (·.enabled) with
  | some enabled => enabled
  | none =>
    match box.sidecars[name]? with
    | none => false
    | some slot => boolValue slot.enabled true

/-- The resolved form of the palette entry at an index. -/
def resolveSidecar (config : YanetConfigSpec) (yanet : YanetSpec) (box : BoxDataplane) (index : Nat) (sidecar : SidecarSpec) :
    ResolvedRole :=
  let override := sidecarOverrideOf yanet box sidecar.name
  { kind := .sidecar
    name := sidecar.name
    enabled := sidecarEnabled yanet box sidecar.name
    image := mergeImage config.images sidecar.image override
    config := sidecar.config
    listenerNames := resolveListeners sidecar.listeners
    portIndex := index
    patches := (box.sidecars[sidecar.name]?.map (·.patches)).getD []
    sidecarOverride := override }

/-- The checks of one palette entry in `resolveDataplaneSidecars`, against the entries before it. -/
def checkSidecarPalette (Γ : Platform) (before : List SidecarSpec) (sidecar : SidecarSpec) : Check := do
  refuse (sidecar.name ∈ before.map (·.name)) ("duplicate dataplane sidecar " ++ Text.quote sidecar.name)
  match before.reverse.find? (fun s => Γ.shortNodeKey s.name == Γ.shortNodeKey sidecar.name) with
  | some previous => .error ("sidecars " ++ Text.quote previous.name ++ " and " ++ Text.quote sidecar.name ++
      " have colliding role identities")
  | none => validateListeners sidecar.name sidecar.listeners

/-- The loop of `resolveDataplaneSidecars` over the rest of the palette. -/
def resolveSidecarPalette (Γ : Platform) (config : YanetConfigSpec) (yanet : YanetSpec) (box : BoxDataplane) :
    List SidecarSpec → List SidecarSpec → Except String (List ResolvedRole)
  | _, [] => .ok []
  | before, sidecar :: rest => do
    checkSidecarPalette Γ before sidecar
    let resolved ← resolveSidecarPalette Γ config yanet box (before ++ [sidecar]) rest
    pure (resolveSidecar config yanet box before.length sidecar :: resolved)

/-- `resolveDataplaneSidecars`. -/
def resolveDataplaneSidecars (Γ : Platform) (config : YanetConfigSpec) (yanet : YanetSpec) (boxName : String)
    (box : BoxDataplane) : Except String (List ResolvedRole) := do
  let palette := config.components.dataplane.sidecars
  refuse (palette.length > maxDataplaneSidecars) "dataplane sidecars exhaust the listener port range"
  let resolved ← resolveSidecarPalette Γ config yanet box [] palette
  forM box.sidecars.keys fun name => refuse (name ∉ palette.map (·.name))
    ("boxType " ++ Text.quote boxName ++ " wires dataplane sidecar " ++ Text.quote name ++ " but the palette does not define it")
  pure resolved

/-! ## Components -/

/-- `resolveOperator`. -/
def resolveOperator (config : YanetConfigSpec) (yanet : YanetSpec) (box : BoxType) (name : String) :
    Except String (Option ResolvedComponent) :=
  match box.operators[name]? with
  | none => .ok none
  | some slot => do
    let operator ← findOperator config name
    let override := componentOverride yanet .operator name
    match operator.containers.map fun c =>
        ({ name := c.name
           image := mergeImage config.images c.image (containerOverride override c.name)
           config := c.config } : ResolvedContainer) with
    | [] => .error ("operator " ++ Text.quote name ++ " has no containers")
    | first :: rest => do
      validateListeners name operator.listeners
      pure (some
        { kind := .operator
          name := name
          enabled := resolveEnabled override
          image := first.image
          containers := first :: rest
          patches := slot.patches
          listenerNames := resolveListeners operator.listeners
          overrides := override })

/-- `ResolveBoxComponent`: nothing for a component the box type does not wire. -/
def resolveBoxComponent (Γ : Platform) (config : YanetConfigSpec) (yanet : YanetSpec) (kind : ComponentKind)
    (operatorName : String) : Except String (Option ResolvedComponent) := do
  let box ← findBoxType config yanet.boxType
  match kind with
  | .controlplane =>
    match box.components.controlplane with
    | none => .ok none
    | some slot => do
      let cp := config.components.controlplane
      optional cp.numa validateControlplaneNuma
      let override := componentOverride yanet kind ""
      pure (some
        { kind := kind
          name := kind.text
          enabled := resolveEnabled override
          image := mergeImage config.images cp.image (containerOverride override "controlplane")
          config := cp.config
          numa := cp.numa.getD 0
          disabledNuma := resolveDisabledNuma cp.disabledNuma yanet
          patches := slot.patches
          overrides := override })
  | .dataplane =>
    match box.components.dataplane with
    | none => .ok none
    | some slot => do
      let sidecars ← resolveDataplaneSidecars Γ config yanet box.name slot
      let dp := config.components.dataplane
      let (networks, resources) ← resolveDataplaneNetworks dp.networks yanet
      let override := componentOverride yanet kind ""
      pure (some
        { kind := kind
          name := kind.text
          enabled := resolveEnabled override
          image := mergeImage config.images dp.image (containerOverride override "dataplane")
          config := dp.config
          hugepages := ((yanet.components.bind (·.dataplane)).bind (·.hugepages)).or dp.hugepages
          sidecars := sidecars
          patches := slot.patches
          networks := networks
          networkResources := resources
          overrides := override })
  | .sidecar =>
    match box.components.dataplane with
    | none => .ok none
    | some slot =>
      if slot.sidecars[operatorName]? = none then .ok none else do
      let sidecars ← resolveDataplaneSidecars Γ config yanet box.name slot
      match sidecars.find? (·.name == operatorName) with
      | some sidecar => pure (some { toResolvedRole := sidecar })
      | none => .error ("sidecar " ++ Text.quote operatorName ++ " is not declared in the dataplane palette")
  | .birdAdapter =>
    match box.components.birdAdapter with
    | none => .ok none
    | some slot =>
      match config.components.birdAdapter with
      | none => .error ("boxType " ++ Text.quote box.name ++
          " wires birdAdapter but YanetConfig.spec.components.birdAdapter is not defined")
      | some adapter =>
        let override := componentOverride yanet kind ""
        .ok (some
          { kind := kind
            name := kind.text
            enabled := resolveEnabled override
            image := mergeImage config.images adapter.image (containerOverride override "bird-adapter")
            config := adapter.config
            patches := slot.patches
            overrides := override })
  | .operator => resolveOperator config yanet box operatorName

/-- `ResolveBoxServiceComponent`: without the overrides of any installation. -/
def resolveBoxServiceComponent (Γ : Platform) (config : YanetConfigSpec) (boxName : String) (kind : ComponentKind)
    (operatorName : String) : Except String (Option ResolvedComponent) :=
  resolveBoxComponent Γ config { boxType := boxName } kind operatorName

structure ComponentRef where
  kind : ComponentKind
  operatorName : String := ""
  deriving DecidableEq

/-- The dataplane of a box type and its wired sidecars, in the order of the palette. -/
def dataplaneRefs (Γ : Platform) (config : YanetConfigSpec) (boxName : String) (box : BoxType) :
    Except String (List ComponentRef) :=
  match box.components.dataplane with
  | none => .ok []
  | some slot => do
    let sidecars ← resolveDataplaneSidecars Γ config { boxType := boxName } box.name slot
    let wired := sidecars.filter fun s => (slot.sidecars[s.name]?).isSome
    pure ({ kind := .dataplane : ComponentRef } :: wired.map fun s => { kind := .sidecar, operatorName := s.name })

/-- `EnabledComponentsForBox`: the wired roles, in the order controlplane, dataplane with its sidecars, bird-adapter, operators. -/
def enabledComponentsForBox (Γ : Platform) (config : YanetConfigSpec) (boxName : String) :
    Except String (List ComponentRef) := do
  let box ← findBoxType config boxName
  forM box.operators.keys fun name => (findOperator config name).map fun _ => ()
  let controlplane := if box.components.controlplane = none then [] else [{ kind := .controlplane : ComponentRef }]
  let dataplane ← dataplaneRefs Γ config boxName box
  let birdAdapter := if box.components.birdAdapter = none then [] else [{ kind := .birdAdapter : ComponentRef }]
  let operators := (config.components.operators.filter fun o => (box.operators[o.name]?).isSome).map
    fun o => { kind := .operator, operatorName := o.name : ComponentRef }
  pure (controlplane ++ dataplane ++ birdAdapter ++ operators)

end YanetOperator
