import Mathlib.Algebra.Group.Int.Defs
import YanetOperator.Api.Types
import YanetOperator.Check

/-!
# Checks shared by admission and rendering

`operator_validation.go`, `network_attachments.go` and the quantity check of `yanetconfig_types.go`: listeners, the grammar of
sidecar patches, private networking, device-backed networks and hugepage totals.
-/

namespace YanetOperator

open Check

/-- The gRPC port of a standalone role, and the base of the gRPC slots. -/
def runtimeGRPCPort : Int := 8080

/-- The HTTP port of a standalone role, and the base of the HTTP slots. -/
def runtimeHTTPPort : Int := 8081

/-- The number of two-port slots that fit below port 65536. -/
def maxDataplaneSidecars : Nat := (65535 - 8081) / 2 + 1

/-- `ValidateListeners`. -/
def validateListeners (name : String) (listeners : Option (List String)) : Check :=
  match listeners with
  | none => .ok ()
  | some listeners =>
    let text (l : String) := "role " ++ Text.quote name ++ " has unsupported or duplicate listener " ++ Text.quote l
    distinct id (fun _ l => refuse (l ≠ "grpc" ∧ l ≠ "http") (text l)) (fun _ l => text l) (fun _ _ => .ok ()) [] 0 listeners

/-! ## Sidecar patches -/

/-- Decoding into a map of raw values: `null` decodes to the empty map, of a repeated key the last value counts. -/
def Json.asObject : Json → Except String (StrMap Json)
  | .null => .ok ∅
  | .obj members => .ok (StrMap.of members)
  | _ => .error "json: cannot unmarshal value into Go value of type map[string]json.RawMessage"

/-- Decoding into a list of maps of raw values. -/
def Json.asObjects : Json → Except String (List (StrMap Json))
  | .null => .ok []
  | .arr items => items.mapM Json.asObject
  | _ => .error "json: cannot unmarshal value into Go value of type []map[string]json.RawMessage"

/-- Decoding an optional raw value into a string: a missing value is an error, `null` leaves the string empty. -/
def Json.asText : Option Json → Except String String
  | none => .error "unexpected end of JSON input"
  | some .null => .ok ""
  | some (.str s) => .ok s
  | some _ => .error "json: cannot unmarshal value into Go value of type string"

def RawPatch.asObject : RawPatch → Except String (StrMap Json)
  | .json value => value.asObject
  | .empty => .error "unexpected end of JSON input"
  | .invalid => .error "invalid character"

/-- The keys a sidecar patch may set in the Pod. -/
def sidecarPatchKeys : List String :=
  ["containers", "initContainers", "volumes", "$setElementOrder/containers", "$setElementOrder/initContainers",
    "$setElementOrder/volumes"]

/-- The items of one list of a sidecar patch have unique nonempty names. -/
def validateSidecarPatchItems (key : String) (items : List (StrMap Json)) : Check :=
  let text := key ++ " requires unique nonempty names"
  let name (item : StrMap Json) : String := match Json.asText item["name"]? with | .ok name => name | .error _ => ""
  distinct name (fun _ item => refuse (name item = "") text) (fun _ _ => text) (fun _ _ => .ok ()) [] 0 items

/-- The walk of `ValidateSidecarPatch` down the levels that are left, and the check of the innermost object. -/
def validateSidecarPatchLevels : List String → StrMap Json → Check
  | [], object => forM object.toList fun (key, value) =>
    if key ∈ sidecarPatchKeys then
      match value.asObjects with
      | .error e => .error ("invalid " ++ key ++ ": " ++ e)
      | .ok items => validateSidecarPatchItems key items
    else .error ("sidecar patch cannot set pod field " ++ Text.quote key)
  | level :: levels, object =>
    if object.isEmpty then .ok () else
    let text := "sidecar patches support only spec.template.spec containers, initContainers and volumes"
    match object[level]? with
    | none => .error text
    | some .null => .error text
    | some child => if object.size ≠ 1 then .error text else do validateSidecarPatchLevels levels (← child.asObject)

/-- `ValidateSidecarPatch`. -/
def validateSidecarPatch (raw : RawPatch) : Check := do
  validateSidecarPatchLevels ["spec", "template", "spec"] (← raw.asObject)

/-! ## Networking -/

/-- `ValidatePrivatePodNetwork`. -/
def validatePrivatePodNetwork (pod : PodSpec) : Check := do
  refuse (pod.hostNetwork = true) "a private network namespace is required; hostNetwork is unsupported"
  forM pod.allContainers fun container =>
    forM container.ports fun port =>
      refuse (port.hostPort ≠ 0)
        ("container " ++ Text.quote container.name ++ " must not declare hostPort " ++ toString port.hostPort)

/-- The expression `^[a-zA-Z0-9_.-]+$`. -/
def networkInterfaceName (s : String) : Bool :=
  s.length > 0 && s.toList.all (fun c => Text.isAlnum c || c == '_' || c == '.' || c == '-')

/-- The part of a resource name before the first slash, when there is one (`strings.Cut`). -/
def resourcePrefix (s : String) : Option String :=
  if '/' ∈ s.toList then some (String.ofList (s.toList.takeWhile (· != '/'))) else none

/-- A qualified extended resource name. -/
def isExtendedResource (s : String) : Bool :=
  match resourcePrefix s with
  | none => false
  | some pre => (Text.isQualifiedName s).isEmpty && pre != "kubernetes.io" && !Text.hasSuffix pre ".kubernetes.io" &&
      !Text.hasPrefix s "requests."

/-- The loop of `ValidateNetworkAttachments`: the interfaces seen, and the resource of each attachment definition seen. -/
def validateNetworkAttachmentsFrom :
    List String → StrMap String → Nat → List NetworkAttachment → Check
  | _, _, _, [] => .ok ()
  | interfaces, nadResources, index, network :: networks => do
    let field := "networks[" ++ toString index ++ "]"
    let nameErrors := Text.isDNS1123Subdomain network.name
    refuse (nameErrors ≠ []) (field ++ ".name is invalid: " ++ Text.join "; " nameErrors)
    let nsErrors := Text.isDNS1123Label network.ns
    refuse (network.ns ≠ "" ∧ nsErrors ≠ []) (field ++ ".namespace is invalid: " ++ Text.join "; " nsErrors)
    refuse (network.interface.length > 15 ∨ networkInterfaceName network.interface = false ∨
        network.interface ∈ [".", "..", "lo", "eth0"])
      (field ++ ".interface must be a non-reserved interface name of 1-15 characters")
    refuse (network.interface ∈ interfaces) (field ++ ".interface " ++ Text.quote network.interface ++ " is duplicated")
    refuse (isExtendedResource network.resourceName = false)
      (field ++ ".resourceName must be a qualified extended resource name")
    let identity := network.ns ++ "/" ++ network.name
    refuse (nadResources[identity]?.any (· != network.resourceName) = true)
      (field ++ ".resourceName conflicts with another attachment of NAD " ++ Text.quote identity)
    validateNetworkAttachmentsFrom (network.interface :: interfaces) (nadResources.insert identity network.resourceName)
      (index + 1) networks

/-- `ValidateNetworkAttachments`. -/
def validateNetworkAttachments (networks : List NetworkAttachment) : Check :=
  validateNetworkAttachmentsFrom [] ∅ 0 networks

/-! ## Hugepages -/

/-- The largest value of the type `int64`. -/
def maxInt64 : Int := 2 ^ 63 - 1

/-- `Quantity.Value`: the value rounded up, in the type `int64`. -/
def Quantity.value (q : Quantity) : Int := Int.bmod q.ceil (2 ^ 64)

/-- `Hugepages.TotalQuantity`. -/
def Hugepages.totalQuantity (Γ : Platform) (h : Hugepages) : Except String Quantity := do
  let pageQty ← match Γ.parseQuantity h.size with
    | .error e => .error ("size " ++ Text.quote h.size ++ " is not a valid Kubernetes quantity: " ++ e)
    | .ok q => .ok q
  refuse (pageQty ≤ 0) ("size must be greater than zero, got " ++ Text.quote h.size)
  refuse (h.count ≤ 0) ("count must be greater than zero, got " ++ toString h.count)
  let pageBytes := Quantity.value pageQty
  refuse (pageBytes ≤ 0 ∨ (pageBytes : Quantity) ≠ pageQty)
    ("size " ++ Text.quote h.size ++ " must be a whole number of bytes that fits in int64")
  refuse (pageBytes > maxInt64 / h.count)
    ("size " ++ Text.quote h.size ++ " multiplied by count " ++ toString h.count ++ " overflows int64")
  pure ((pageBytes * h.count : Int) : Quantity)

end YanetOperator
