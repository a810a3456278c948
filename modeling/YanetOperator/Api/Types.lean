import YanetOperator.Kube

/-!
# The API: YanetConfig and Yanet

The two custom resources (`api/v1alpha1`), and what the operator uses that is not part of its repository (`Platform`): the
short hash, the strategic merge of patches, and the parser of quantities.
-/

namespace YanetOperator

/-! ## Patches -/

/-- A JSON value. The members of an object stand in the order of the text, a key may occur more than once. -/
inductive Json where
  | null
  | bool (b : Bool)
  | num (text : String)
  | str (s : String)
  | arr (items : List Json)
  | obj (members : List (String × Json))

/-- The bytes of a patch: none, a text that is not JSON, or the text of a JSON value. -/
inductive RawPatch where
  | empty
  | invalid
  | json (value : Json)

structure NamedPatch where
  name : String
  patch : RawPatch

/-! ## Images and configuration sources -/

structure ImagesSpec where
  registry : String := ""
  imagePrefix : String := ""
  tag : String := ""
  pullPolicy : String := ""
  pullSecrets : List String := []
  deriving DecidableEq

structure ImageRef where
  registry : Option String := none
  imagePrefix : Option String := none
  name : String := ""
  tag : String := ""
  deriving DecidableEq

structure ConfigSource where
  inlineText : String := ""
  hostPath : String := ""
  mountPath : String := ""
  args : List String := []
  deriving DecidableEq

/-- `ConfigSource.IsZero`: no variant is chosen; a nil source is zero. -/
def ConfigSource.isZero : Option ConfigSource → Bool
  | none => true
  | some c => c.inlineText == "" && c.hostPath == ""

/-- `ConfigSource.VariantsSet`. -/
def ConfigSource.variantsSet (c : ConfigSource) : Nat :=
  (if c.inlineText != "" then 1 else 0) + (if c.hostPath != "" then 1 else 0)

/-! ## The palette -/

/-- The largest physical NUMA fan-out of a node. -/
def maxControlplaneNuma : Int := 4

/-- `ValidateControlplaneNuma`. -/
def validateControlplaneNuma (count : Int) : Except String Unit :=
  if count < 1 ∨ count > maxControlplaneNuma then
    .error ("spec.components.controlplane.numa must be between 1 and " ++ toString maxControlplaneNuma ++ ", got " ++
      toString count)
  else .ok ()

structure ControlplaneSpec where
  image : ImageRef := {}
  config : Option ConfigSource := none
  numa : Option Int := none
  disabledNuma : List Int := []
  deriving DecidableEq

/-- The primary container in the dataplane Pod. -/
def dataplaneContainerName : String := "dataplane"

/-- The rendered bird-adapter container. -/
def birdAdapterContainerName : String := "bird-adapter"

structure NetworkAttachment where
  name : String
  ns : String := ""
  interface : String
  resourceName : String
  deriving DecidableEq

structure Hugepages where
  size : String
  count : Int := 0
  deriving DecidableEq

structure SidecarSpec where
  name : String
  image : ImageRef := {}
  config : Option ConfigSource := none
  listeners : Option (List String) := none
  deriving DecidableEq

structure DataplaneSpec where
  image : ImageRef := {}
  config : Option ConfigSource := none
  hugepages : Option Hugepages := none
  networks : Option (List NetworkAttachment) := none
  sidecars : List SidecarSpec := []
  deriving DecidableEq

structure BirdAdapterComp where
  image : ImageRef := {}
  config : Option ConfigSource := none
  deriving DecidableEq

structure OperatorContainer where
  name : String
  image : ImageRef := {}
  config : Option ConfigSource := none
  deriving DecidableEq

structure OperatorSpec where
  name : String
  containers : List OperatorContainer := []
  listeners : Option (List String) := none
  deriving DecidableEq

structure ComponentsSpec where
  controlplane : ControlplaneSpec := {}
  dataplane : DataplaneSpec := {}
  birdAdapter : Option BirdAdapterComp := none
  operators : List OperatorSpec := []
  deriving DecidableEq

/-! ## Box types -/

structure BoxComponent where
  patches : List String := []
  deriving DecidableEq

structure BoxDataplaneSidecar where
  enabled : Option Bool := none
  patches : List String := []
  deriving DecidableEq

structure BoxDataplane where
  patches : List String := []
  sidecars : StrMap BoxDataplaneSidecar := ∅
  deriving DecidableEq

structure BoxOperator where
  patches : List String := []
  deriving DecidableEq

structure BoxComponents where
  controlplane : Option BoxComponent := none
  dataplane : Option BoxDataplane := none
  birdAdapter : Option BoxComponent := none
  deriving DecidableEq

structure BoxType where
  name : String
  components : BoxComponents := {}
  operators : StrMap BoxOperator := ∅
  deriving DecidableEq

structure YanetConfigSpec where
  stop : Bool := false
  updateWindow : Int := 0
  images : ImagesSpec := {}
  components : ComponentsSpec := {}
  patches : List NamedPatch := []
  boxTypes : List BoxType := []

structure YanetConfig where
  metadata : ObjectMeta := {}
  spec : YanetConfigSpec := {}

/-- The fixed name of the cluster-wide singleton. -/
def yanetConfigName : String := "config"

/-- `GroupVersion.String()`. -/
def groupVersion : String := "yanet.yanet-platform.io/v1alpha1"

/-! ## Installations -/

structure YanetContainerOverride where
  enabled : Option Bool := none
  name : String := ""
  tag : String := ""
  deriving DecidableEq

structure YanetComponentOverride where
  enabled : Option Bool := none
  containers : StrMap YanetContainerOverride := ∅
  deriving DecidableEq

structure YanetControlplaneOverride extends YanetComponentOverride where
  disabledNuma : Option (List Int) := none
  deriving DecidableEq

structure YanetDataplaneOverride extends YanetComponentOverride where
  hugepages : Option Hugepages := none
  networks : Option (List NetworkAttachment) := none
  sidecars : StrMap YanetContainerOverride := ∅
  deriving DecidableEq

structure YanetComponentsOverride where
  controlplane : Option YanetControlplaneOverride := none
  dataplane : Option YanetDataplaneOverride := none
  birdAdapter : Option YanetComponentOverride := none
  operators : StrMap YanetComponentOverride := ∅
  deriving DecidableEq

structure YanetSpec where
  boxType : String := ""
  nodeSelector : StrMap String := ∅
  enabled : Option Bool := none
  autoSync : Option Bool := none
  components : Option YanetComponentsOverride := none
  deriving DecidableEq

/-! ## Status -/

inductive ConditionStatus where
  | isTrue
  | isFalse
  | isUnknown
  deriving DecidableEq

structure Condition where
  type : String
  status : ConditionStatus
  observedGeneration : Nat
  lastTransitionTime : Nat
  reason : String
  message : String
  deriving DecidableEq

structure SyncStatus where
  synced : List String := []
  outOfSync : List String := []
  syncWaiting : List String := []
  error : List String := []
  deriving DecidableEq

structure NodeStatus where
  nodeName : String := ""
  deployments : StrMap String := ∅
  numaCount : Nat := 0
  deriving DecidableEq

structure YanetStatus where
  pods : StrMap (List String) := ∅
  sync : SyncStatus := {}
  conditions : List Condition := []
  nodesStatus : StrMap NodeStatus := ∅
  services : List String := []
  deriving DecidableEq

structure Yanet where
  apiVersion : String := ""
  kind : String := ""
  metadata : ObjectMeta := {}
  spec : YanetSpec := {}
  status : YanetStatus := {}
  deriving DecidableEq

/-! ## What the operator rests on -/

/-- Eight lower-case hexadecimal digits. -/
def IsShortKey (s : String) : Prop :=
  s.length = 8 ∧ s.toList.all (fun c => Text.isDigit c || (decide ('a' ≤ c) && decide (c ≤ 'f'))) = true

instance (s : String) : Decidable (IsShortKey s) := inferInstanceAs (Decidable (_ ∧ _))

/-- What the operator uses of the libraries it links: the first four bytes of a SHA-256 sum in hexadecimal
(`helpers.ShortNodeKey`), the strategic merge of a list of patches into a Deployment (the marshalling, merging and decoding of
`ApplyPatches`), the same merge from an empty object (`validateBoxPrivateNetwork`), `resource.ParseQuantity`, and
`json.Marshal` on a list of name, namespace and interface triples. -/
structure Platform where
  shortNodeKey : String → String
  shortNodeKey_hex : ∀ s, IsShortKey (shortNodeKey s)
  strategicMerge : List Json → Deployment → Except String Deployment
  mergeFragments : List Json → Except String Deployment
  parseQuantity : String → Except String Quantity
  marshalSelections : List (String × String × String) → String

/-- A key from a table of known sums. -/
def tabulatedKey (table : List (String × String)) (s : String) : String :=
  match table.lookup s with
  | some key => if IsShortKey key then key else "00000000"
  | none => "00000000"

theorem tabulatedKey_hex (table : List (String × String)) (s : String) : IsShortKey (tabulatedKey table s) := by
  unfold tabulatedKey
  split
  · split
    · assumption
    · decide
  · decide

/-- A platform for fixed inputs: it knows the sums of some texts and how some patches merge. -/
def Platform.tabulated (table : List (String × String)) (merge : List Json → Deployment → Except String Deployment) :
    Platform where
  shortNodeKey := tabulatedKey table
  shortNodeKey_hex := tabulatedKey_hex table
  strategicMerge := merge
  mergeFragments patches := merge patches {}
  parseQuantity _ := .error "quantities must match the regular expression"
  marshalSelections _ := "null"

end YanetOperator
