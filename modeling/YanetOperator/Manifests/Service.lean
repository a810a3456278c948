import YanetOperator.Manifests.Listeners

/-!
# Shared Services

`internal/manifests/service.go`: the Service plans of a component, their checks, and the Services they stand for.
-/

namespace YanetOperator

open Check

structure ServicePortPlan where
  name : String
  port : Int
  targetPort : Int := 0
  targetPortName : String := ""
  deriving DecidableEq

structure ServicePlan where
  name : String
  boxType : String
  component : String
  selector : StrMap String
  ports : List ServicePortPlan
  isLocal : Bool
  deriving DecidableEq

/-- The loop of `ServicePlan.Validate` over the ports, with the names and the numbers seen. -/
def validatePlanPorts (plan : String) : Nat → List String → List Int → List ServicePortPlan → Check
  | _, _, _, [] => .ok ()
  | i, names, numbers, port :: ports => do
    let text := "shared Service " ++ Text.quote plan
    refuse (port.name = "") (text ++ " port[" ++ toString i ++ "] has an empty name")
    refuse (port.name ∈ names) (text ++ " port name " ++ Text.quote port.name ++ " is duplicated")
    refuse (port.port ≤ 0 ∨ port.port > 65535) (text ++ " port " ++ toString port.port ++ " must be in 1..65535")
    refuse (port.port ∈ numbers) (text ++ " port " ++ toString port.port ++ " is duplicated")
    refuse (port.targetPort < 0 ∨ port.targetPort > 65535)
      (text ++ " target port " ++ toString port.targetPort ++ " must be in 0..65535")
    validatePlanPorts plan (i + 1) (port.name :: names) (port.port :: numbers) ports

/-- `ServicePlan.Validate`. -/
def ServicePlan.validate (p : ServicePlan) : Check := do
  let errs := Text.isDNS1035Label p.name
  refuse (errs ≠ []) ("invalid Service name " ++ Text.quote p.name ++ ": " ++ Text.join "; " errs)
  refuse (p.boxType = "") ("shared Service " ++ Text.quote p.name ++ " has an empty box type")
  refuse (p.component = "") ("shared Service " ++ Text.quote p.name ++ " has an empty component")
  refuse (p.selector.isEmpty = true) ("shared Service " ++ Text.quote p.name ++ " has an empty selector")
  refuse (p.ports = []) ("shared Service " ++ Text.quote p.name ++ " has no ports")
  validatePlanPorts p.name 0 [] [] p.ports

/-- `SharedServiceName`. -/
def sharedServiceName (Γ : Platform) (boxType component : String) (numa : Option Nat) : String :=
  let name := "yanet-" ++ toLowerKebab boxType ++ "-" ++ toLowerKebab component ++
    (match numa with | some i => "-numa" ++ toString i | none => "")
  if name.length ≤ 63 then name
  else Text.trimRightDash (Text.take name 54) ++ "-" ++ Γ.shortNodeKey name

/-- The selector of a Service plan. -/
def serviceSelector (Γ : Platform) (boxType : String) (component : ResolvedRole) (numa : Option Nat) : StrMap String :=
  let selector :=
    if component.isColocated then
      StrMap.of [(labelBoxType, boxType), (labelComponent, ComponentKind.dataplane.text),
        (operatorMembershipLabel Γ component.name, component.name)]
    else StrMap.of [(labelBoxType, boxType), (labelComponent, component.name)]
  match numa with
  | some i => selector.insert labelNuma (toString i)
  | none => selector

/-- `buildServicePlan`. -/
def buildServicePlan (Γ : Platform) (boxType : String) (component : ResolvedRole) (numa : Option Nat)
    (listeners : List ListenerPort) : ServicePlan :=
  { name := sharedServiceName Γ boxType component.name numa
    boxType := boxType
    component := component.name
    selector := serviceSelector Γ boxType component numa
    ports := listeners.map fun l => { name := l.name, port := l.servicePort, targetPortName := listenerTargetPortName l }
    isLocal := true }

/-- `BuildServices`. Of the build context only the box type is read. -/
def buildServices (Γ : Platform) (boxType : String) (component : ResolvedRole) : List ServicePlan :=
  let listeners := listenerPorts Γ component
  if listeners = [] then []
  else if component.kind ≠ .controlplane then [buildServicePlan Γ boxType component none listeners]
  else
    match validateControlplaneNuma (effectiveNuma component) with
    | .error _ => []
    | .ok () => (List.range (effectiveNuma component).toNat).map fun i => buildServicePlan Γ boxType component (some i) listeners

/-- One port of `ToService`. -/
def ServicePortPlan.toServicePort (p : ServicePortPlan) : ServicePort :=
  { name := p.name
    port := p.port
    protocol := "TCP"
    targetPort :=
      if p.targetPortName ≠ "" then .str p.targetPortName else if p.targetPort = 0 then .int p.port else .int p.targetPort }

/-- `ServicePlan.ToService`. -/
def ServicePlan.toService (p : ServicePlan) (ns : String) (owner : OwnerReference) : Service :=
  let labels := StrMap.of [(labelSharedService, "true"), (labelBoxType, p.boxType), (labelComponent, p.component)]
  { metadata :=
      { name := p.name
        ns := ns
        labels := match p.selector[labelNuma]? with | some numa => labels.insert labelNuma numa | none => labels
        ownerReferences := if owner.name ≠ "" then [owner] else [] }
    spec :=
      { type := "ClusterIP"
        selector := p.selector
        ports := p.ports.map ServicePortPlan.toServicePort
        internalTrafficPolicy := if p.isLocal then some "Local" else none } }

end YanetOperator
