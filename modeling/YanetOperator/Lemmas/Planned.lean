import YanetOperator.Lemmas.Metadata
import YanetOperator.Lemmas.Plan

/-!
# The Deployments a pass wants

A Deployment that a pass plans for a node says so itself, whatever the patches wrote: it is controlled by the installation, lies in
its namespace, and carries the label of the node, on itself and on its Pods. Its Pods are labelled with the role of the component and
with the sidecars that run in it.
-/

namespace YanetOperator

open Check

section

variable {Γ : Platform} {plan : PassPlan} {y : Yanet} {node : Node} {ctx : BuildContext}

/-- What the context of a node says about it. -/
structure NodeContext (plan : PassPlan) (y : Yanet) (node : Node) (ctx : BuildContext) : Prop where
  yanetName : ctx.yanetName = y.metadata.name
  ns : ctx.ns = y.metadata.ns
  boxType : ctx.boxType = y.spec.boxType
  nodeName : ctx.nodeName = node.metadata.name
  ownerRef : ctx.ownerRef = plan.owner

theorem nodeContext_ok (h : nodeContext Γ plan y node = .ok ctx) : NodeContext plan y node ctx := by
  unfold nodeContext withRuntimeNetwork at h
  obtain ⟨resolved, -, h⟩ := bind_eq_ok.1 h
  cases resolved with
  | none =>
    cases h
    exact ⟨rfl, rfl, rfl, rfl, rfl⟩
  | some controlplane =>
    cases h
    exact ⟨rfl, rfl, rfl, rfl, rfl⟩

/-- The node label of an instance is the name of its node. -/
theorem instanceLabels_node (ctx : BuildContext) (c : ResolvedRole) (numa : Option Nat) :
    ((instanceLabels ctx c numa)[labelNode]?).getD "" = ctx.nodeName := by
  rw [getElem?_instanceLabels, getElem?_baseLabels]
  by_cases hn : ctx.nodeName = ""
  · simp [labelComponent, labelNuma, labelBoxType, labelNode, labelApp, labelYanet, hn]
  · simp [labelComponent, labelNuma, labelBoxType, labelNode, labelApp, hn]

theorem instanceLabels_yanet (ctx : BuildContext) (c : ResolvedRole) (numa : Option Nat) :
    (instanceLabels ctx c numa)[labelYanet]? = some ctx.yanetName := by
  rw [getElem?_instanceLabels, getElem?_baseLabels]
  simp [labelComponent, labelNuma, labelBoxType, labelNode, labelApp, labelYanet]

end

/-- A membership label of a composed Pod whose base has none is that of an enabled sidecar. -/
theorem Composed.of_membership {Γ : Platform} {base d : Deployment} {sidecars : List ResolvedRole} (h : Composed Γ base sidecars d)
    {k v : String} (hb : base.spec.template.labels[k]? = none) (hv : d.spec.template.labels[k]? = some v) :
    ∃ s ∈ sidecars, s.enabled = true ∧ v = s.name := by
  rw [h.labels, StrMap.getElem?_foldl_insert, hb, Option.or_none] at hv
  obtain ⟨e, he, rfl⟩ := Option.map_eq_some_iff.1 hv
  have hmem := List.mem_of_find?_eq_some he
  rw [List.mem_reverse, membershipEntries, List.mem_map] at hmem
  obtain ⟨s, hs, rfl⟩ := hmem
  obtain ⟨hs, henabled⟩ := List.mem_filter.1 hs
  exact ⟨s, hs, henabled, rfl⟩

/-- What a Deployment that a pass wants on a node says about itself. -/
structure PlannedIdentity (Γ : Platform) (y : Yanet) (owner : OwnerReference) (node : Node) (rc : ResolvedComponent) (d : Deployment) : Prop where
  ns : d.metadata.ns = y.metadata.ns
  ownerReferences : d.metadata.ownerReferences = [owner]
  onNode : nodeLabel d.metadata = node.metadata.name
  podOnNode : (d.spec.template.labels[labelNode]?).getD "" = node.metadata.name
  podYanet : d.spec.template.labels[labelYanet]? = some y.metadata.name
  podComponent : d.spec.template.labels[labelComponent]? = some rc.name
  podMembership : ∀ name v, d.spec.template.labels[operatorMembershipLabel Γ name]? = some v →
    ∃ s ∈ rc.sidecars, s.enabled = true ∧ v = s.name
  podNodeName : d.pod.nodeName = ""

theorem Planned.identity {Γ : Platform} {y : Yanet} {plan : PassPlan} {nodes : List Node} {node : Node} {ctx : BuildContext}
    {rc : ResolvedComponent} {d : Deployment} (h : Planned Γ y plan nodes node ctx rc d) :
    PlannedIdentity Γ y plan.owner node rc d := by
  have hctx := nodeContext_ok h.context
  obtain ⟨ref, -, hresolve⟩ := h.component
  obtain ⟨hkind, hname⟩ := resolveForPass_role hresolve
  obtain ⟨ds, hds, d0, hd0, rfl⟩ := h.rendered
  have hdataplane : rc.kind = .dataplane → rc.name = ComponentKind.dataplane.text := by
    intro hk
    rw [hname, ← hkind, hk]
    rfl
  obtain ⟨-, built, b, numa, -, -, hinstance⟩ := renderDeployments_mem hdataplane hds hd0
  obtain ⟨c, hc, hid⟩ := hinstance.rendered.composed
  have hs := hinstance.skeleton
  -- scaling to zero changes neither the metadata nor the template
  have hmeta : (normalizeDeploymentReplicas d0 rc.enabled plan.installationEnabled).metadata = d0.metadata := by
    unfold normalizeDeploymentReplicas
    split <;> rfl
  have htemplate : (normalizeDeploymentReplicas d0 rc.enabled plan.installationEnabled).spec.template = d0.spec.template := by
    unfold normalizeDeploymentReplicas
    split <;> rfl
  have hlabels (k : String) (hk : k ∈ workloadIdentityLabels) : d0.metadata.labels[k]? = (instanceLabels ctx rc.toResolvedRole numa)[k]? := by
    rw [hid.labels k (by simp [isReservedLabel, hk]), hc.metadata, hs.labels]
  have hpod (k : String) (hk : k ∈ workloadIdentityLabels) :
      d0.spec.template.labels[k]? = (instanceLabels ctx rc.toResolvedRole numa)[k]? := by
    rw [hinstance.rendered.podLabel hk, hs.podLabels]
  constructor
  · rw [hmeta, hid.ns, hc.metadata, hs.ns, hctx.ns]
  · rw [hmeta, hid.ownerReferences, hc.metadata, hs.ownerReferences, hctx.ownerRef]
  · rw [hmeta, nodeLabel, hlabels labelNode (by simp [workloadIdentityLabels]), instanceLabels_node, hctx.nodeName]
  · rw [htemplate, hpod labelNode (by simp [workloadIdentityLabels]), instanceLabels_node, hctx.nodeName]
  · rw [htemplate, hpod labelYanet (by simp [workloadIdentityLabels]), instanceLabels_yanet, hctx.yanetName]
  · rw [htemplate, hpod labelComponent (by simp [workloadIdentityLabels]), instanceLabels_component]
  · intro name v hv
    have hreserved := membershipLabel_hasPrefix Γ name
    rw [htemplate, hid.podLabels _ (by simp [isReservedLabel, hreserved])] at hv
    exact hc.of_membership (by rw [hs.podLabels, instanceLabels_membership hreserved]) hv
  · rw [Deployment.pod, htemplate]
    exact hid.nodeName.trans (hc.nodeName.trans hs.nodeName)

end YanetOperator
