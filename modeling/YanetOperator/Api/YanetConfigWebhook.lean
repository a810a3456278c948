import YanetOperator.Api.Validation

/-!
# Admission of the YanetConfig

`validateYanetConfig` of `yanetconfig_webhook.go`: unique names, references between box types, patches and operators, a dry run
of every patch, and the checks of the palette. Where the source walks a map, the entries are taken in key order: the order
decides only which of several errors is reported.
-/

namespace YanetOperator

open Check

/-- `validatePatchUniqueness`. -/
def validatePatchUniqueness (patches : List NamedPatch) : Check :=
  let field (i : Nat) := "spec.patches[" ++ toString i ++ "].name"
  distinct NamedPatch.name (fun i p => refuse (p.name = "") (field i ++ " is empty"))
    (fun i p => field i ++ " " ++ Text.quote p.name ++ " is duplicated") (fun _ _ => .ok ()) [] 0 patches

/-- One patch of `dryRunPatches`: a JSON object that merges into an empty Deployment. -/
def dryRunPatch (Γ : Platform) (i : Nat) (p : NamedPatch) : Check :=
  let field := "spec.patches[" ++ toString i ++ ":" ++ p.name ++ "].patch"
  match p.patch with
  | .empty => .error (field ++ " is empty")
  | .json .null => .error (field ++ " must be a JSON object, not null")
  | .json (.obj members) =>
    (within (field ++ " is not a valid strategic merge fragment of appsv1.Deployment: ")
      (Γ.strategicMerge [.obj members] {})).map fun _ => ()
  | .json _ => .error (field ++ " is not valid JSON: json: cannot unmarshal value")
  | .invalid => .error (field ++ " is not valid JSON: invalid character")

/-- `dryRunPatches`. -/
def dryRunPatches (Γ : Platform) (patches : List NamedPatch) : Check := each (dryRunPatch Γ) patches

/-- The names an operator may not take. -/
def reservedNames : List String := ["controlplane", "dataplane", "bird-adapter"]

/-- The containers of one operator. -/
def validateOperatorContainers (field : String) (containers : List OperatorContainer) : Check :=
  let text (j : Nat) := field ++ ".containers[" ++ toString j ++ "].name"
  distinct OperatorContainer.name
    (fun j c => do
      refuse (c.name = "") (text j ++ " is required")
      let errs := Text.isDNS1123Label c.name
      refuse (errs ≠ []) (text j ++ " " ++ Text.quote c.name ++ " is invalid: " ++ Text.join "; " errs))
    (fun j c => text j ++ " " ++ Text.quote c.name ++ " is duplicated") (fun _ _ => .ok ()) [] 0 containers

/-- What `validateOperatorUniqueness` checks of an operator after its name. -/
def validateOperator (i : Nat) (op : OperatorSpec) : Check := do
  validateListeners op.name op.listeners
  let field := "spec.components.operators[" ++ toString i ++ ":" ++ op.name ++ "]"
  refuse (op.containers.length < 1 ∨ op.containers.length > 8)
    (field ++ ".containers must contain between 1 and 8 entries, got " ++ toString op.containers.length)
  validateOperatorContainers field op.containers

/-- `validateOperatorUniqueness`. -/
def validateOperatorUniqueness (ops : List OperatorSpec) : Check :=
  let field (i : Nat) := "spec.components.operators[" ++ toString i ++ "].name"
  distinct OperatorSpec.name
    (fun i op => do
      refuse (op.name = "") (field i ++ " is empty")
      let errs := Text.isDNS1123Label op.name
      refuse (errs ≠ []) (field i ++ " " ++ Text.quote op.name ++ " is invalid: " ++ Text.join "; " errs)
      refuse (op.name ∈ reservedNames)
        (field i ++ " " ++ Text.quote op.name ++ " is reserved for a built-in component"))
    (fun i op => field i ++ " " ++ Text.quote op.name ++ " is duplicated") validateOperator [] 0 ops

/-- `validateSidecarUniqueness`. -/
def validateSidecarUniqueness (components : ComponentsSpec) : Check := do
  let sidecars := components.dataplane.sidecars
  refuse (sidecars.length > maxDataplaneSidecars) "spec.components.dataplane.sidecars exhausts the listener port range"
  let field (i : Nat) := "spec.components.dataplane.sidecars[" ++ toString i ++ "].name"
  distinct SidecarSpec.name
    (fun i s => do
      let errs := Text.isDNS1123Label s.name
      refuse (errs ≠ []) (field i ++ " " ++ Text.quote s.name ++ " is invalid: " ++ Text.join "; " errs))
    (fun i s => field i ++ " " ++ Text.quote s.name ++ " duplicates a role or is reserved")
    (fun _ s => validateListeners s.name s.listeners)
    (components.operators.map OperatorSpec.name ++ reservedNames) 0 sidecars

/-- `validateBoxTypeUniqueness`. -/
def validateBoxTypeUniqueness (boxes : List BoxType) : Check := do
  refuse (boxes = []) "spec.boxTypes must contain at least one entry"
  let field (i : Nat) := "spec.boxTypes[" ++ toString i ++ "].name"
  distinct BoxType.name
    (fun i b => do
      refuse (b.name = "") (field i ++ " is empty")
      let errs := Text.isDNS1123Label b.name
      refuse (errs ≠ []) (field i ++ " " ++ Text.quote b.name ++ " is invalid: " ++ Text.join "; " errs))
    (fun i b => field i ++ " " ++ Text.quote b.name ++ " is duplicated") (fun _ _ => .ok ()) [] 0 boxes

/-! ## References of a box type -/

/-- `assertPatchesExist`. -/
def assertPatchesExist (path : String) (refs registry : List String) : Check :=
  each (fun i name => refuse (name ∉ registry)
    (path ++ "[" ++ toString i ++ "]: patch " ++ Text.quote name ++ " is not defined in spec.patches")) refs

/-- `validateDataplaneSidecarRefs`. -/
def validateDataplaneSidecarRefs (path : String) (spec : YanetConfigSpec) (box : BoxDataplane) (patchSet : List String) :
    Check :=
  forM box.sidecars.toList fun (name, slot) => do
    let field := path ++ ".components.dataplane.sidecars[" ++ name ++ "]"
    refuse (name ∉ spec.components.dataplane.sidecars.map SidecarSpec.name)
      (field ++ " has no matching spec.components.dataplane.sidecars entry")
    assertPatchesExist (field ++ ".patches") slot.patches patchSet
    forM slot.patches fun patchName =>
      forM spec.patches fun p =>
        onlyIf (p.name = patchName)
          (within (field ++ " patch " ++ Text.quote patchName ++ ": ") (validateSidecarPatch p.patch))

/-- The JSON values of the named patches of a registry, of a repeated name the last. -/
def patchValues (patches : List NamedPatch) (names : List String) : List Json :=
  names.filterMap fun name =>
    match patches.reverse.find? (·.name == name) with
    | some { patch := .json value, .. } => some value
    | _ => none

/-- `validateBoxPrivateNetwork`: the patches of every wired role, merged in order from nothing, keep the network private. -/
def validateBoxPrivateNetwork (Γ : Platform) (spec : YanetConfigSpec) (box : BoxType) (controlplane : BoxComponent)
    (dataplane : BoxDataplane) : Check :=
  let fixed : StrMap (List String) := StrMap.of
    ([("controlplane", controlplane.patches), ("dataplane", dataplane.patches)] ++
      (box.components.birdAdapter.map fun b => ("birdAdapter", b.patches)).toList)
  let groups := (fixed.override (StrMap.of (box.operators.toList.map fun (name, slot) => (name, slot.patches)))).override
    (StrMap.of (dataplane.sidecars.toList.map fun (name, slot) => (name, slot.patches)))
  forM groups.toList fun (role, names) =>
    onlyIf (names ≠ []) do
      let effective ← within (role ++ " patch: ") (Γ.mergeFragments (patchValues spec.patches names))
      within (role ++ ": ") (validatePrivatePodNetwork effective.spec.template.spec)

/-- One box type of `validateBoxTypeRefs`. -/
def validateBoxTypeRef (Γ : Platform) (spec : YanetConfigSpec) (i : Nat) (box : BoxType) : Check :=
  let patchSet := spec.patches.map NamedPatch.name
  let path := "spec.boxTypes[" ++ toString i ++ ":" ++ box.name ++ "]"
  match box.components.controlplane, box.components.dataplane with
  | none, _ => .error (path ++ ".components.controlplane is required")
  | some _, none => .error (path ++ ".components.dataplane is required")
  | some controlplane, some dataplane => do
    assertPatchesExist (path ++ ".components.controlplane.patches") controlplane.patches patchSet
    assertPatchesExist (path ++ ".components.dataplane.patches") dataplane.patches patchSet
    validateDataplaneSidecarRefs path spec dataplane patchSet
    optional box.components.birdAdapter fun adapter => do
      refuse (spec.components.birdAdapter = none)
        (path ++ ".components.birdAdapter has no matching spec.components.birdAdapter")
      assertPatchesExist (path ++ ".components.birdAdapter.patches") adapter.patches patchSet
    forM box.operators.toList fun (opName, opSlot) => do
      refuse (opName ∉ spec.components.operators.map OperatorSpec.name)
        (path ++ ".operators[" ++ opName ++ "]: operator is not declared in spec.components.operators")
      assertPatchesExist (path ++ ".operators[" ++ opName ++ "].patches") opSlot.patches patchSet
    within (path ++ ": ") (validateBoxPrivateNetwork Γ spec box controlplane dataplane)

/-- `validateBoxTypeRefs`. -/
def validateBoxTypeRefs (Γ : Platform) (spec : YanetConfigSpec) : Check := each (validateBoxTypeRef Γ spec) spec.boxTypes

/-! ## The palette -/

/-- `validateHugepages`: an automatic request is checked with one page. -/
def validateHugepages (Γ : Platform) (hugepages : Option Hugepages) : Check :=
  optional hugepages fun h => (within "spec.components.dataplane.hugepages."
    ({ h with count := if h.count = 0 then 1 else h.count }.totalQuantity Γ)).map fun _ => ()

/-- The images of `validateComponentImages`, with their paths, in the order of the checks. -/
def componentImages (components : ComponentsSpec) : List (String × ImageRef) :=
  [("spec.components.controlplane.image", components.controlplane.image),
    ("spec.components.dataplane.image", components.dataplane.image)] ++
  components.dataplane.sidecars.zipIdx.map (fun (s, i) =>
    ("spec.components.dataplane.sidecars[" ++ toString i ++ ":" ++ s.name ++ "].image", s.image)) ++
  (components.birdAdapter.map fun b => ("spec.components.birdAdapter.image", b.image)).toList ++
  components.operators.zipIdx.flatMap (fun (op, i) => op.containers.zipIdx.map fun (c, j) =>
    ("spec.components.operators[" ++ toString i ++ "].containers[" ++ toString j ++ "].image", c.image))

/-- `validateComponentImages`. -/
def validateComponentImages (components : ComponentsSpec) : Check :=
  forM (componentImages components) fun (path, image) => refuse (image.name = "") (path ++ ".name is required")

/-- The configuration sources of `validateConfigSources`, with their paths, in the order of the checks. -/
def configSources (components : ComponentsSpec) : List (String × Option ConfigSource) :=
  [("spec.components.controlplane.config", components.controlplane.config),
    ("spec.components.dataplane.config", components.dataplane.config)] ++
  components.dataplane.sidecars.zipIdx.map (fun (s, i) =>
    ("spec.components.dataplane.sidecars[" ++ toString i ++ ":" ++ s.name ++ "].config", s.config)) ++
  (components.birdAdapter.map fun b => ("spec.components.birdAdapter.config", b.config)).toList ++
  components.operators.zipIdx.flatMap (fun (op, i) => op.containers.zipIdx.map fun (c, j) =>
    ("spec.components.operators[" ++ toString i ++ ":" ++ op.name ++ "].containers[" ++ toString j ++ ":" ++ c.name ++
      "].config", c.config))

/-- `path.IsAbs`. -/
def isAbs (path : String) : Bool := Text.hasPrefix path "/"

/-- `validateConfigSources`. -/
def validateConfigSources (components : ComponentsSpec) : Check :=
  forM (configSources components) fun (path, source) =>
    optional source fun source => do
      refuse (source.variantsSet ≠ 1)
        (path ++ " must define exactly one of inline or hostPath, got " ++ toString source.variantsSet)
      refuse (source.hostPath ≠ "" ∧ isAbs source.hostPath = false) (path ++ ".hostPath must be an absolute path")
      refuse (source.mountPath ≠ "" ∧ isAbs source.mountPath = false) (path ++ ".mountPath must be an absolute path")

/-- `validateDisabledNuma`: the indices are not negative, and some domain of the fan-out stays. -/
def validateDisabledNuma (cp : ControlplaneSpec) : Check := do
  optional cp.numa validateControlplaneNuma
  forM cp.disabledNuma fun n => refuse (n < 0)
    ("spec.components.controlplane.disabledNuma must contain non-negative indices, got " ++ toString n)
  let count := cp.numa.getD 1
  let disabled := (cp.disabledNuma.dedup.filter (· < count)).length
  refuse (cp.disabledNuma ≠ [] ∧ (disabled : Int) ≥ count)
    ("spec.components.controlplane.disabledNuma disables every one of the " ++ toString count ++
      " NUMA domains; drop the controlplane from the boxType instead")

/-- `validateYanetConfig`. -/
def validateYanetConfig (Γ : Platform) (spec : YanetConfigSpec) : Check := do
  refuse (spec.updateWindow < 0) ("spec.updateWindow must be >= 0, got " ++ toString spec.updateWindow)
  let maxUpdateWindow := maxInt64 / 1000000000
  refuse (spec.updateWindow > maxUpdateWindow)
    ("spec.updateWindow must not exceed " ++ toString maxUpdateWindow ++ " seconds, got " ++ toString spec.updateWindow)
  validatePatchUniqueness spec.patches
  dryRunPatches Γ spec.patches
  validateOperatorUniqueness spec.components.operators
  validateSidecarUniqueness spec.components
  validateBoxTypeUniqueness spec.boxTypes
  validateBoxTypeRefs Γ spec
  validateHugepages Γ spec.components.dataplane.hugepages
  within "spec.components.dataplane." (validateNetworkAttachments (spec.components.dataplane.networks.getD []))
  validateComponentImages spec.components
  validateConfigSources spec.components
  validateDisabledNuma spec.components.controlplane

end YanetOperator
