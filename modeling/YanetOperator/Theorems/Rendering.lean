import YanetOperator.Lemmas.Render

/-!
# Rendering keeps the identity of a workload

Whatever the patches do to a Deployment, what `RenderDeployments` returns has the identity the builder gave it and a Pod that
is well formed.
-/

namespace YanetOperator

/-- What a rendered Deployment `d` of a component has in common with the Deployment `b` of the builder. -/
structure KeepsIdentity (Γ : Platform) (component : ResolvedComponent) (b d : Deployment) : Prop where
  name : d.metadata.name = b.metadata.name
  ns : d.metadata.ns = b.metadata.ns
  ownerReferences : d.metadata.ownerReferences = b.metadata.ownerReferences
  selector : d.spec.selector = b.spec.selector
  strategy : d.spec.strategy = b.spec.strategy ∧ d.spec.strategy = { type := "Recreate" }
  nodeName : d.pod.nodeName = b.pod.nodeName
  nodeSelector : d.pod.nodeSelector = b.pod.nodeSelector
  labels : ∀ k : String, isReservedLabel k = true → d.metadata.labels[k]? = b.metadata.labels[k]?
  podLabels : ∀ k ∈ workloadIdentityLabels, d.spec.template.labels[k]? = b.spec.template.labels[k]?
  membership : ∀ k v : String, Text.hasPrefix k operatorMembershipPrefix = true → (d.spec.template.labels[k]? = some v ↔
    ∃ s ∈ component.sidecars, s.enabled = true ∧ k = operatorMembershipLabel Γ s.name ∧ v = s.name)
  selected : ∃ sel, d.spec.selector = some sel ∧
    ∀ (k v : String), sel.matchLabels[k]? = some v → d.spec.template.labels[k]? = some v
  pod : PodWellFormed d.pod
  dataplane : component.kind = .dataplane → DataplaneShape Γ component.sidecars d.pod

theorem Rendered.keepsIdentity {Γ : Platform} {ctx : BuildContext} {component : ResolvedComponent} {numa : Option Nat}
    {b d : Deployment} (hs : Skeleton Γ ctx component.toResolvedRole numa b) (h : Rendered Γ component b d)
    (hkeys : (component.sidecars.map fun s => Γ.shortNodeKey s.name).Nodup) : KeepsIdentity Γ component b d := by
  obtain ⟨c, hc, hid⟩ := h.composed
  have hstrategy : d.spec.strategy = b.spec.strategy := hid.strategy.trans hc.strategy
  have hselector : d.spec.selector = b.spec.selector := hid.selector.trans hc.selector
  exact
    { name := by rw [hid.name, hc.metadata]
      ns := by rw [hid.ns, hc.metadata]
      ownerReferences := by rw [hid.ownerReferences, hc.metadata]
      selector := hselector
      strategy := ⟨hstrategy, hstrategy.trans hs.strategy⟩
      nodeName := hid.nodeName.trans hc.nodeName
      nodeSelector := hid.nodeSelector.trans hc.nodeSelector
      labels := fun k hk => by rw [hid.labels k hk, hc.metadata]
      podLabels := fun k hk => h.podLabel hk
      membership := fun k v hk => h.membership hkeys hk (by rw [hs.podLabels]; exact instanceLabels_membership hk)
      selected := by
        refine ⟨_, hselector.trans hs.selector, fun k v hk => ?_⟩
        have hb := instanceSelector_sub hk
        rw [h.podLabel (mem_identity_of_instanceLabels hb), hs.podLabels]
        exact hb
      pod := h.pod
      dataplane := h.dataplane }

/-- Patches cannot break the identity of a workload or the well-formedness of its Pod: whatever Γ's strategic merge does,
every rendered Deployment of a resolved component keeps the identity the builder gave it. -/
theorem renderDeployments_keepsIdentity (Γ : Platform) (config : YanetConfigSpec) (yanet : YanetSpec) (ctx : BuildContext)
    (component : ResolvedComponent) (registry : PatchRegistry) (ds : List Deployment)
    (hr : Resolved Γ config yanet component) (hk : component.kind ≠ .sidecar)
    (h : renderDeployments Γ ctx component registry = .ok ds) :
    ∃ built, buildDeployments Γ ctx component.toResolvedRole = .ok built ∧
      List.Forall₂ (KeepsIdentity Γ component) built ds := by
  obtain ⟨built, hb, hl, hli, hall⟩ := renderDeployments_ok hk hr.dataplane_name h
  refine ⟨built, hb, List.forall₂_iff_get.2 ⟨hl, ?_⟩⟩
  intro i hi hi'
  have hd := hall i _ _ _ (List.getElem?_eq_getElem (by rwa [hli])) (List.getElem?_eq_getElem hi) (List.getElem?_eq_getElem hi')
  exact hd.rendered.keepsIdentity hd.skeleton hr.sidecar_keys

/-! ## A box with a sidecar -/

/-- A patch that scales a Deployment and writes over one of its own Pod labels. -/
def scalePatch : Json :=
  .obj [("spec", .obj [("replicas", .num "3"),
    ("template", .obj [("metadata", .obj [("labels", .obj [("app", .str "other"), ("tier", .str "edge")])])])])]

/-- The merge of the scaling patch. -/
def scaleMerge : List Json → Deployment → Except String Deployment
  | [.obj [("spec", .obj [("replicas", .num "3"), ("template", .obj [("metadata", .obj [("labels", .obj labels)])])])]], d =>
    .ok { d with spec := { d.spec with
      replicas := some 3
      template := { d.spec.template with labels := labels.foldl (fun m e =>
        match e.2 with | .str v => m.insert e.1 v | _ => m) d.spec.template.labels } } }
  | _, _ => .error "unknown patch"

/-- The sums of the names of the sample box. -/
def samplePlatform : Platform :=
  Platform.tabulated [("node-a", "66570ff0"), ("telemetry", "16091175"), ("route", "8a84e406")] scaleMerge

/-- A configuration with one box type that wires every kind of role. -/
def sampleConfig : YanetConfigSpec where
  images := { registry := "registry.example", tag := "1.0" }
  components :=
    { controlplane := { image := { name := "controlplane" }, numa := some 2 }
      dataplane := { image := { name := "dataplane" }, sidecars := [{ name := "telemetry", image := { name := "telemetry" } }] }
      birdAdapter := some { image := { name := "bird" } }
      operators := [{ name := "route", containers := [{ name := "route", image := { name := "route" } }] }] }
  patches := [{ name := "scale", patch := .json scalePatch }]
  boxTypes :=
    [{ name := "edge"
       components :=
        { controlplane := some {}
          dataplane := some { patches := ["scale"], sidecars := StrMap.of [("telemetry", {})] }
          birdAdapter := some {} }
       operators := StrMap.of [("route", {})] }]

def sampleContext : BuildContext where
  yanetName := "yanet"
  ns := "default"
  boxType := "edge"
  nodeName := "node-a"
  ownerRef := { apiVersion := "yanet.yanet-platform.io/v1alpha1", kind := "Yanet", name := "yanet", uid := 1,
                controller := some true }

/-- The resolved dataplane of the sample box. -/
def sampleDataplane : ResolvedComponent where
  kind := .dataplane
  name := "dataplane"
  enabled := true
  image := { registry := "registry.example", name := "dataplane", tag := "1.0" }
  patches := ["scale"]
  sidecars :=
    [{ kind := .sidecar, name := "telemetry", enabled := true
       image := { registry := "registry.example", name := "telemetry", tag := "1.0" } }]

theorem sampleDataplane_resolved : Resolved samplePlatform sampleConfig { boxType := "edge" } sampleDataplane :=
  ⟨.dataplane, "", sampleDataplane, true, by decide +kernel, rfl⟩

/-- The patched dataplane of the sample box renders, and keeps its identity. -/
theorem sampleDataplane_keepsIdentity :
    ∃ ds, renderDeployments samplePlatform sampleContext sampleDataplane (newPatchRegistry sampleConfig.patches) = .ok ds ∧
      ds.length = 1 ∧ ∃ built, buildDeployments samplePlatform sampleContext sampleDataplane.toResolvedRole = .ok built ∧
        List.Forall₂ (KeepsIdentity samplePlatform sampleDataplane) built ds := by
  have hok : ((renderDeployments samplePlatform sampleContext sampleDataplane (newPatchRegistry sampleConfig.patches)).toOption.any
      fun ds => ds.length == 1) = true := by decide +kernel
  obtain ⟨ds, hds, hone⟩ := Check.exists_of_any hok
  exact ⟨ds, hds, by simpa using hone, renderDeployments_keepsIdentity samplePlatform sampleConfig { boxType := "edge" }
    sampleContext sampleDataplane _ ds sampleDataplane_resolved (by decide) hds⟩

end YanetOperator
