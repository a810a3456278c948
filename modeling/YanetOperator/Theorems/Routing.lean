import YanetOperator.Lemmas.Ports
import YanetOperator.Lemmas.Services
import YanetOperator.Theorems.Rendering

/-!
# Shared Services route to the Pods of their role

The planner of Services and the renderer of Pods are separate paths. They agree: the selector of a plan matches a rendered Pod
exactly when the Pod hosts the role of the plan, and each port of the plan targets the listener container of the role.
-/

namespace YanetOperator

/-- Whether an instance of a rendered component hosts a role, for the controlplane the instance of that index. -/
def Hosts (role : ResolvedRole) (index : Option Nat) (component : ResolvedComponent) (numa : Option Nat) : Prop :=
  if role.isColocated then component.kind = .dataplane ∧ ∃ s ∈ component.sidecars, s.enabled = true ∧ s.name = role.name
  else component.kind = role.kind ∧ component.name = role.name ∧ numa = index

/-- The target of a Service port in a Pod: one port of one container, the listener container of the role, with the number the
role has for the protocol. -/
def RoutesTo (Γ : Platform) (role : ResolvedRole) (d : Deployment) (port : ServicePortPlan) : Prop :=
  ∃ grpcPort httpPort, runtimePortPair role = .ok (grpcPort, httpPort) ∧
    ∃ c ∈ d.pod.allContainers, c.name = listenerOwner Γ role role.isColocated ∧
      ∃ p ∈ c.ports, p.name = port.targetPortName ∧ p.containerPort = (if port.name = "http" then httpPort else grpcPort) ∧
        ∀ c' ∈ d.pod.allContainers, ∀ p' ∈ c'.ports, p'.name = port.targetPortName → c' = c ∧ p' = p

/-- A Pod that declares the listeners of a role routes every port of its plan. -/
theorem DeclaresListeners.routesTo {Γ : Platform} {config : YanetConfigSpec} {kind : ComponentKind} {operatorName : String}
    {role : ResolvedRole} {d : Deployment} (hcore : role.core = declaredRole config kind operatorName)
    (hd : DeclaresListeners Γ d role role.isColocated) (hpod : PodWellFormed d.pod) {boxType : String} {numa : Option Nat}
    {port : ServicePortPlan} (hp : port ∈ (buildServicePlan Γ boxType role numa (listenerPorts Γ role)).ports) :
    RoutesTo Γ role d port := by
  obtain ⟨l, hl, rfl⟩ := List.mem_map.1 hp
  obtain ⟨g, t, hpair, c, hc, hcn, hports⟩ := hd
  have hne : listenerTargetPortName l ≠ "" := by
    rw [← listenerPorts_core, hcore] at hl
    exact listenerTargetPortName_ne hl
  have hmem := hports _ (List.mem_map_of_mem hl)
  refine ⟨g, t, hpair, c, hc, hcn, _, hmem, rfl, rfl, ?_⟩
  intro c' hc' p' hp' hn
  exact portNames_unique hpod.portNames hc hc' hmem hp' hn hne

/-- The box-type label of an instance. -/
theorem instanceLabels_boxType (ctx : BuildContext) (c : ResolvedRole) (numa : Option Nat) {boxName : String}
    (hb : ctx.boxType ≠ "") : (instanceLabels ctx c numa)[labelBoxType]? = some boxName ↔ ctx.boxType = boxName := by
  rw [getElem?_instanceLabels, if_neg (fun h => absurd h.1 (by decide)), if_pos ⟨rfl, hb⟩, Option.some.injEq]

/-- The NUMA label of an instance. -/
theorem instanceLabels_numa (ctx : BuildContext) (c : ResolvedRole) (numa : Option Nat) {i : Nat} :
    (instanceLabels ctx c numa)[labelNuma]? = some (toString i) ↔ numa = some i := by
  rw [getElem?_instanceLabels, getElem?_baseLabels]
  cases numa with
  | none => simp [labelNuma, labelBoxType, labelNode, labelApp, labelComponent, labelYanet]
  | some j =>
    rw [if_pos ⟨rfl, rfl⟩, Option.map_some, Option.some.injEq, Option.some.injEq]
    exact ⟨Text.toString_inj, fun h => by rw [h]⟩

/-- Only the controlplane has an index. -/
theorem mem_instances {c : ResolvedRole} {numa : Option Nat} (h : numa ∈ instances c) :
    numa.isSome = true ↔ c.kind = .controlplane := by
  unfold instances at h
  split at h
  · next hk =>
    obtain ⟨i, -, rfl⟩ := List.mem_map.1 h
    simp [hk]
  · next hk =>
    rw [List.mem_singleton.1 h]
    simp [hk]

section

variable {Γ : Platform} {config : YanetConfigSpec} {boxName operatorName : String} {kind : ComponentKind}
  {role component : ResolvedComponent} {yanet : YanetSpec} {ctx : BuildContext} {registry : PatchRegistry}
  {index numa : Option Nat} {b d : Deployment}

/-- A label of the identity of a rendered Pod is that of its instance. -/
theorem RenderedInstance.podLabel (hd : RenderedInstance Γ ctx component registry numa b d) {k : String}
    (hk : k ∈ workloadIdentityLabels) :
    d.spec.template.labels[k]? = (instanceLabels ctx component.toResolvedRole numa)[k]? := by
  rw [hd.rendered.podLabel hk, hd.skeleton.podLabels]

/-- The selector of a role matches the Pods that host it. -/
theorem matches_iff_hosts (hc : AdmittedConfig config)
    (hrole : ResolvedAs Γ config { boxType := boxName } kind operatorName role) (hcomp : Resolved Γ config yanet component)
    (hk : component.kind ≠ .sidecar) (hctx : ctx.boxType = yanet.boxType)
    (hd : RenderedInstance Γ ctx component registry numa b d) (hnuma : numa ∈ instances component.toResolvedRole)
    (hindex : index.isSome = true ↔ role.kind = .controlplane) :
    matchesLabels (serviceSelector Γ boxName role.toResolvedRole index) d.spec.template.labels = true ↔
      yanet.boxType = boxName ∧ Hosts role.toResolvedRole index component numa := by
  obtain ⟨k, n, has⟩ := hcomp.as
  have hk' : k ≠ .sidecar := fun e => hk (has.kind.trans e)
  have hlabel : ∀ key ∈ workloadIdentityLabels,
      d.spec.template.labels[key]? = (instanceLabels ctx component.toResolvedRole numa)[key]? := fun key h => hd.podLabel h
  rw [matches_serviceSelector, hlabel labelBoxType (by simp [workloadIdentityLabels]),
    hlabel labelComponent (by simp [workloadIdentityLabels]), hlabel labelNuma (by simp [workloadIdentityLabels]),
    instanceLabels_boxType ctx _ numa (by rw [hctx]; exact hc.boxType_ne has), instanceLabels_component, hctx]
  refine and_congr_right fun _ => ?_
  simp only [Option.some.injEq, instanceLabels_numa]
  unfold Hosts
  by_cases hs : role.isColocated = true
  · rw [if_pos hs, if_pos hs, hc.dataplane_iff has hk',
      hd.rendered.membership hcomp.sidecar_keys (membershipLabel_hasPrefix Γ role.name)
        (by rw [hd.skeleton.podLabels]; exact instanceLabels_membership (membershipLabel_hasPrefix Γ role.name))]
    have hnone : index = none := by
      cases index with
      | none => rfl
      | some i =>
        have hcp := hindex.1 rfl
        rw [ResolvedRole.isColocated, hcp] at hs
        cases hs
    rw [hnone]
    constructor
    · rintro ⟨⟨h1, s, hm, he, -, hname⟩, -⟩
      exact ⟨h1, s, hm, he, hname.symm⟩
    · rintro ⟨h1, s, hm, he, hname⟩
      exact ⟨⟨h1, s, hm, he, by rw [hname], hname.symm⟩, fun i hi => by cases hi⟩
  · rw [if_neg hs, if_neg hs]
    have hks : kind ≠ .sidecar := by
      intro e
      exact hs (by rw [ResolvedRole.isColocated, hrole.kind, e]; rfl)
    have hnumas := mem_instances hnuma
    constructor
    · rintro ⟨hname, hi⟩
      have hkk : component.kind = role.kind := by
        rw [has.kind, hrole.kind, (hc.role_unique has hrole hk' hks hname).1]
      refine ⟨hkk, hname, ?_⟩
      cases hi' : index with
      | some i => exact hi i hi'
      | none =>
        have : ¬ numa.isSome = true := by
          rw [hnumas, hkk, ← hindex, hi']
          exact Bool.false_ne_true
        simpa using this
    · rintro ⟨-, hname, rfl⟩
      exact ⟨hname, fun i hi => hi⟩

/-- A Pod that hosts a role with listeners declares them. -/
theorem declares_of_hosts (hc : AdmittedConfig config)
    (hrole : ResolvedAs Γ config { boxType := boxName } kind operatorName role) (hcomp : Resolved Γ config yanet component)
    (hk : component.kind ≠ .sidecar) (hd : RenderedInstance Γ ctx component registry numa b d)
    (hl : listenerPorts Γ role.toResolvedRole ≠ []) (h : Hosts role.toResolvedRole index component numa) :
    DeclaresListeners Γ d role.toResolvedRole role.isColocated := by
  obtain ⟨k, n, has⟩ := hcomp.as
  unfold Hosts at h
  by_cases hs : role.isColocated = true
  · rw [if_pos hs] at h
    obtain ⟨hkind, s, hm, he, hname⟩ := h
    obtain ⟨slot, hp⟩ := has.palette (has.kind.symm.trans hkind)
    have hkind' : kind = .sidecar := by
      rw [← hrole.kind]
      simpa [ResolvedRole.isColocated] using hs
    have hcore : s.core = role.toResolvedRole.core := by
      rw [hp.core hm, hrole.core, hname, hrole.name, hkind']
      rfl
    rw [hs]
    have hls : listenerPorts Γ s ≠ [] := by rwa [← listenerPorts_core, hcore, listenerPorts_core]
    exact (renderDeployment_declares_sidecar hcomp.sidecar_keys hm he hls hd.render).of_core hcore
  · rw [if_neg hs] at h
    obtain ⟨hkind, hname, -⟩ := h
    have hks : kind ≠ .sidecar := by
      intro e
      exact hs (by rw [ResolvedRole.isColocated, hrole.kind, e]; rfl)
    have hcore := (hc.role_unique has hrole (fun e => hk (has.kind.trans e)) hks hname).2
    have hnd : k ≠ .dataplane := by
      rw [← has.kind, hkind]
      exact not_dataplane_of_listeners hl
    have hlc : listenerPorts Γ component.toResolvedRole ≠ [] := by rwa [← listenerPorts_core, hcore, listenerPorts_core]
    rw [Bool.eq_false_iff.2 hs]
    exact (renderDeployment_declares (has.noSidecars hnd) hlc hd.render).of_core hcore

end

/-- Shared Services route to exactly the Pods of their role. -/
theorem sharedService_routes_exactly (Γ : Platform) (config : YanetConfigSpec) (boxName : String) (kind : ComponentKind)
    (operatorName : String) (role : ResolvedComponent) (plan : ServicePlan) (yanet : YanetSpec) (component : ResolvedComponent)
    (ctx : BuildContext) (registry : PatchRegistry) (ds : List Deployment) (hc : validateYanetConfig Γ config = .ok ())
    (hrole : resolveBoxServiceComponent Γ config boxName kind operatorName = .ok (some role))
    (hplan : plan ∈ buildServices Γ boxName role.toResolvedRole) (hcomp : Resolved Γ config yanet component)
    (hctx : ctx.boxType = yanet.boxType) (hds : renderDeployments Γ ctx component registry = .ok ds) :
    ∃ index, plan = buildServicePlan Γ boxName role.toResolvedRole index (listenerPorts Γ role.toResolvedRole) ∧
      (index.isSome = true ↔ kind = .controlplane) ∧
      ∀ numa d, (numa, d) ∈ (instances component.toResolvedRole).zip ds →
        d.metadata.name = instanceName Γ ctx component.toResolvedRole numa ∧
        (matchesLabels plan.selector d.spec.template.labels = true ↔
          yanet.boxType = boxName ∧ Hosts role.toResolvedRole index component numa) ∧
        (matchesLabels plan.selector d.spec.template.labels = true →
          ∀ port ∈ plan.ports, RoutesTo Γ role.toResolvedRole d port) := by
  have hadm := validateYanetConfig_ok hc
  have hras := resolveBoxComponent_ok hrole
  obtain ⟨hl, index, rfl, hindex⟩ := mem_buildServices hplan
  refine ⟨index, rfl, by rw [hindex, hras.kind], ?_⟩
  intro numa d hm
  obtain ⟨hk, b, hd⟩ := renderDeployments_instance hcomp.dataplane_name hds hm
  have hiff := matches_iff_hosts hadm hras hcomp hk hctx hd (List.of_mem_zip hm).1 hindex
  obtain ⟨c, hcmp, hid⟩ := hd.rendered.composed
  refine ⟨by rw [hid.name, hcmp.metadata, hd.skeleton.name], hiff, ?_⟩
  intro hmatch port hport
  have hhost := (hiff.1 hmatch).2
  exact (declares_of_hosts hadm hras hcomp hk hd hl hhost).routesTo hras.core hd.rendered.pod hport

/-- The sidecar of the sample box, without the overrides of any installation. -/
def sampleTelemetry : ResolvedComponent where
  kind := .sidecar
  name := "telemetry"
  enabled := true
  image := { registry := "registry.example", name := "telemetry", tag := "1.0" }

/-- The plan of the sample sidecar. -/
def sampleTelemetryPlan : ServicePlan :=
  buildServicePlan samplePlatform "edge" sampleTelemetry.toResolvedRole none
    (listenerPorts samplePlatform sampleTelemetry.toResolvedRole)

/-- The Service of the sample sidecar routes to the rendered dataplane. -/
theorem sampleTelemetry_routes_exactly :
    ∃ ds, renderDeployments samplePlatform sampleContext sampleDataplane (newPatchRegistry sampleConfig.patches) = .ok ds ∧
      (∃ d ∈ ds, matchesLabels sampleTelemetryPlan.selector d.spec.template.labels = true) ∧
      ∃ index, sampleTelemetryPlan = buildServicePlan samplePlatform "edge" sampleTelemetry.toResolvedRole index
          (listenerPorts samplePlatform sampleTelemetry.toResolvedRole) ∧
        (index.isSome = true ↔ ComponentKind.sidecar = .controlplane) ∧
        ∀ numa d, (numa, d) ∈ (instances sampleDataplane.toResolvedRole).zip ds →
          d.metadata.name = instanceName samplePlatform sampleContext sampleDataplane.toResolvedRole numa ∧
          (matchesLabels sampleTelemetryPlan.selector d.spec.template.labels = true ↔
            "edge" = "edge" ∧ Hosts sampleTelemetry.toResolvedRole index sampleDataplane numa) ∧
          (matchesLabels sampleTelemetryPlan.selector d.spec.template.labels = true →
            ∀ port ∈ sampleTelemetryPlan.ports, RoutesTo samplePlatform sampleTelemetry.toResolvedRole d port) := by
  have hok : ((renderDeployments samplePlatform sampleContext sampleDataplane (newPatchRegistry sampleConfig.patches)).toOption.any
      fun ds => ds.any fun d => matchesLabels sampleTelemetryPlan.selector d.spec.template.labels) = true := by decide +kernel
  obtain ⟨ds, hds, hany⟩ := Check.exists_of_any hok
  refine ⟨ds, hds, by simpa using hany, ?_⟩
  exact sharedService_routes_exactly samplePlatform sampleConfig "edge" .sidecar "telemetry" sampleTelemetry
    sampleTelemetryPlan { boxType := "edge" } sampleDataplane sampleContext _ ds (by decide +kernel) (by decide +kernel)
    (by decide +kernel) sampleDataplane_resolved rfl hds

end YanetOperator
