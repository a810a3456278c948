import YanetOperator.Api.YanetConfigWebhook

/-!
# Admission of a Yanet

`yanet_webhook.go`: the shape of the overrides, their references into the palette and the selected box type, and the weaker form
the reconciler repeats, which first drops the overrides that have no effect.
-/

namespace YanetOperator

open Check

/-- `validateHardcodedContainerKeys`. -/
def validateHardcodedContainerKeys (fieldName containerName : String) (ovr : Option YanetComponentOverride) : Check :=
  optional ovr fun ovr => forM ovr.containers.toList fun (k, c) => do
    refuse (k ≠ containerName) ("spec.components." ++ fieldName ++ ".containers[" ++ Text.quote k ++ "]: only key " ++
      Text.quote containerName ++ " is allowed for fixed workloads")
    refuse (c.enabled ≠ none) ("spec.components." ++ fieldName ++ ".containers[" ++ Text.quote k ++
      "].enabled is only supported for dataplane native sidecars")

/-- `validateOverrideDisabledNuma`. -/
def validateOverrideDisabledNuma (disabled : List Int) : Check :=
  forM disabled fun n => refuse (n < 0)
    ("spec.components.controlplane.disabledNuma must contain non-negative indices, got " ++ toString n)

/-- `validateDataplaneOverrideShape`. -/
def validateDataplaneOverrideShape (Γ : Platform) (override : Option YanetDataplaneOverride) : Check :=
  optional override fun override => do
    validateHardcodedContainerKeys "dataplane" dataplaneContainerName (some override.toYanetComponentOverride)
    within "spec.components.dataplane." (validateNetworkAttachments (override.networks.getD []))
    validateHugepages Γ override.hugepages
    forM override.sidecars.keys fun name =>
      let errs := Text.isDNS1123Label name
      refuse (errs ≠ [])
        ("spec.components.dataplane.sidecars[" ++ Text.quote name ++ "] is invalid: " ++ Text.join "; " errs)

/-- `validateYanetComponentOverrideShape`. -/
def validateYanetComponentOverrideShape (Γ : Platform) (overrides : Option YanetComponentsOverride) : Check :=
  optional overrides fun overrides => do
    optional overrides.controlplane fun cp => do
      validateHardcodedContainerKeys "controlplane" "controlplane" (some cp.toYanetComponentOverride)
      validateOverrideDisabledNuma (cp.disabledNuma.getD [])
    validateDataplaneOverrideShape Γ overrides.dataplane
    validateHardcodedContainerKeys "birdAdapter" birdAdapterContainerName overrides.birdAdapter
    forM overrides.operators.toList fun (operatorName, override) =>
      forM override.containers.toList fun (containerName, container) =>
        refuse (container.enabled ≠ none) ("spec.components.operators[" ++ Text.quote operatorName ++ "].containers[" ++
          Text.quote containerName ++ "].enabled is only supported for dataplane native sidecars")

/-- `validateDataplaneOverride`. -/
def validateDataplaneOverride (override : Option YanetDataplaneOverride) (declared : DataplaneSpec)
    (box : Option BoxDataplane) : Check :=
  optional override fun override => forM override.sidecars.keys fun name => do
    let field := "spec.components.dataplane.sidecars[" ++ Text.quote name ++ "]"
    refuse (name ∉ declared.sidecars.map SidecarSpec.name) (field ++ " has no matching YanetConfig sidecar")
    match box with
    | none => .error (field ++ " is not wired by the selected boxType")
    | some box => refuse (box.sidecars[name]? = none) (field ++ " is not wired by the selected boxType")

/-- The operator declared under a name; of a repeated name the last, as the map of the source keeps it. -/
def lastOperator (declared : ComponentsSpec) (name : String) : Option OperatorSpec :=
  declared.operators.reverse.find? (·.name == name)

/-- One operator override of `ValidateYanetComponentOverrides`. -/
def validateOperatorOverride (declared : ComponentsSpec) (box : BoxType) (opName : String) (ovr : YanetComponentOverride) :
    Check :=
  let field := "spec.components.operators[" ++ Text.quote opName ++ "]"
  match lastOperator declared opName with
  | none => .error (field ++ " is not declared in YanetConfig.spec.components.operators")
  | some op => do
    refuse (box.operators[opName]? = none) (field ++ " is not wired by the selected boxType")
    forM ovr.containers.keys fun cname => refuse (cname ∉ op.containers.map OperatorContainer.name)
      (field ++ ".containers[" ++ Text.quote cname ++ "] is not declared in YanetConfig.spec.components.operators[" ++
        Text.quote opName ++ "].containers")

/-- `ValidateYanetComponentOverrides`. -/
def validateYanetComponentOverrides (Γ : Platform) (overrides : Option YanetComponentsOverride) (declared : ComponentsSpec)
    (box : BoxType) : Check := do
  validateYanetComponentOverrideShape Γ overrides
  optional overrides fun overrides => do
    validateDataplaneOverride overrides.dataplane declared.dataplane box.components.dataplane
    onlyIf (overrides.birdAdapter ≠ none) do
      refuse (declared.birdAdapter = none)
        "spec.components.birdAdapter override has no matching YanetConfig component"
      refuse (box.components.birdAdapter = none)
        "spec.components.birdAdapter override is not wired by the selected boxType"
    forM overrides.operators.toList fun (opName, ovr) => validateOperatorOverride declared box opName ovr

/-- The containers of an operator override that its operator renders; an operator that is not declared keeps all. -/
def effectiveOperatorOverride (declared : ComponentsSpec) (name : String) (override : YanetComponentOverride) :
    YanetComponentOverride :=
  match declared.operators.find? (·.name == name) with
  | none => override
  | some operator =>
    { override with containers :=
        override.containers.eraseWhere fun c => c ∉ operator.containers.map OperatorContainer.name }

/-- The overrides that can affect the selected box. -/
def effectiveOverrides (overrides : YanetComponentsOverride) (declared : ComponentsSpec) (box : BoxType) :
    YanetComponentsOverride :=
  { controlplane := if box.components.controlplane = none then none else overrides.controlplane
    dataplane :=
      match box.components.dataplane with
      | none => none
      | some wired => overrides.dataplane.map fun d =>
        { d with sidecars := d.sidecars.eraseWhere fun name => wired.sidecars[name]? = none }
    birdAdapter := if box.components.birdAdapter = none then none else overrides.birdAdapter
    operators := StrMap.of ((overrides.operators.eraseWhere fun name => box.operators[name]? = none).toList.map
      fun (name, override) => (name, effectiveOperatorOverride declared name override)) }

/-- `ValidateEffectiveYanetComponentOverrides`. -/
def validateEffectiveYanetComponentOverrides (Γ : Platform) (overrides : Option YanetComponentsOverride)
    (declared : ComponentsSpec) (box : BoxType) : Check :=
  optional overrides fun overrides =>
    validateYanetComponentOverrides Γ (some (effectiveOverrides overrides declared box)) declared box

/-- `YanetCustomValidator.validate`, given what the lookup of the YanetConfig answered; an admitted object may carry a
warning. -/
def YanetCustomValidator.validate (Γ : Platform) (config : Except String YanetConfig) (y : Yanet) :
    Except String (List String) := do
  refuse (y.metadata.name.length > 63) "metadata.name must fit in a 63-character workload label"
  refuse (y.spec.boxType = "") "spec.boxType is required"
  let errs := Text.isDNS1123Label y.spec.boxType
  refuse (errs ≠ []) ("spec.boxType " ++ Text.quote y.spec.boxType ++ " is invalid: " ++ Text.join "; " errs)
  validateYanetComponentOverrideShape Γ y.spec.components
  match config with
  | .error e => .ok ["could not get cluster-wide YanetConfig " ++ Text.quote yanetConfigName ++ ": " ++ e ++
      " — validating shape only"]
  | .ok config =>
    match config.spec.boxTypes.find? (·.name == y.spec.boxType) with
    | none => .error ("spec.boxType " ++ Text.quote y.spec.boxType ++ " is not defined in the cluster YanetConfig")
    | some box => do
      validateYanetComponentOverrides Γ y.spec.components config.spec.components box
      pure []

/-- `YanetCustomValidator.ValidateUpdate`. -/
def YanetCustomValidator.validateUpdate (Γ : Platform) (config : Except String YanetConfig) (old y : Yanet) :
    Except String (List String) :=
  if y.metadata.deletionTimestamp ≠ none then .ok []
  else if old.spec.boxType ≠ y.spec.boxType then
    .error ("spec.boxType is immutable (was " ++ Text.quote old.spec.boxType ++ ", now " ++ Text.quote y.spec.boxType ++ ")")
  else YanetCustomValidator.validate Γ config y

end YanetOperator
