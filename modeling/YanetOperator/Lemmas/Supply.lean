import YanetOperator.Cluster.Supply
import YanetOperator.Lemmas.Planned
import YanetOperator.Lemmas.Preflight
import YanetOperator.Lemmas.Rollout

/-!
# What the Deployments of a pass run

The workload a pass plans for a node, the roles that its Pods say they run, and where the placement gate has met them: the role of a
planned workload that is not scaled to zero is one the gate has checked, and one configuration never runs a role both ways. A call of a
pass adds nothing that can run but the Deployment it sends.
-/

namespace YanetOperator

open Prog Check

section

variable {Γ : Platform} {t t' t'' : PodTemplateSpec}

theorem SameRoles.refl (t : PodTemplateSpec) : SameRoles Γ t t := ⟨rfl, rfl, rfl, fun _ => rfl⟩

theorem SameRoles.trans (h : SameRoles Γ t t') (h' : SameRoles Γ t' t'') : SameRoles Γ t t'' :=
  ⟨h'.yanet.trans h.yanet, h'.node.trans h.node, h'.component.trans h.component, fun name => (h'.membership name).trans (h.membership name)⟩

theorem SameRoles.standalone {role : String} (h : SameRoles Γ t t') : Standalone role t' ↔ Standalone role t := by
  rw [Standalone, Standalone, h.component]

theorem SameRoles.colocated {role : String} (h : SameRoles Γ t t') : Colocated Γ role t' ↔ Colocated Γ role t := by
  rw [Colocated, Colocated, h.membership]

theorem SameRoles.samePlace {s s' : PodTemplateSpec} (h : SameRoles Γ t t') (hs : SameRoles Γ s s') (hplace : SamePlace t' s') :
    SamePlace t s := by
  obtain ⟨hyanet, hnode⟩ := hplace
  rw [h.yanet, hs.yanet] at hyanet
  rw [h.node, hs.node] at hnode
  exact ⟨hyanet, hnode⟩

end

/-! ## Planned workloads -/

/-- The template is that of a workload planned for the node, not scaled to zero, up to what does not say which roles it runs. -/
def Draws (Γ : Platform) (y : Yanet) (plan : PassPlan) (nodes : List Node) (node : Node) (rc : ResolvedComponent)
    (t : PodTemplateSpec) : Prop :=
  ∃ ctx desired, Planned Γ y plan nodes node ctx rc desired ∧ deploymentReplicasAreZero desired = false ∧
    SameRoles Γ desired.spec.template t

/-- The components that every box has, which are no roles that move. -/
def builtIn : List String := [ComponentKind.controlplane.text, ComponentKind.dataplane.text, ComponentKind.birdAdapter.text]

section

variable {Γ : Platform} {y : Yanet} {plan : PassPlan} {nodes : List Node} {node : Node} {ctx : BuildContext}
  {rc rc' : ResolvedComponent} {t : PodTemplateSpec} {role : String}

/-- The component of a pass is one that its configuration resolves. -/
theorem resolvedAs_of_resolveForPass {ref : ComponentRef} (h : resolveForPass Γ plan y ref = .ok (some rc)) :
    ∃ rc₀, ResolvedAs Γ plan.cfg y.spec ref.kind ref.operatorName rc₀ ∧ rc.kind = rc₀.kind ∧ rc.name = rc₀.name ∧
      rc.sidecars = rc₀.sidecars := by
  unfold resolveForPass at h
  cases hr : resolveBoxComponent Γ plan.cfg y.spec ref.kind ref.operatorName with
  | error e =>
    rw [hr] at h
    cases h
  | ok o =>
    rw [hr] at h
    cases o with
    | none => cases h
    | some rc₀ =>
      cases h
      exact ⟨rc₀, resolveBoxComponent_ok hr, rfl, rfl, rfl⟩

theorem Draws.trans {t' : PodTemplateSpec} (h : Draws Γ y plan nodes node rc t) (ht : SameRoles Γ t t') :
    Draws Γ y plan nodes node rc t' := by
  obtain ⟨ctx, desired, hplanned, hscaled, hroles⟩ := h
  exact ⟨ctx, desired, hplanned, hscaled, hroles.trans ht⟩

/-- A workload that runs a role in Pods of its own is the operator of that name. -/
theorem Draws.standalone (h : Draws Γ y plan nodes node rc t) (hrole : role ∉ builtIn) (hs : Standalone role t) :
    rc.kind = .operator ∧ rc.name = role ∧ role ∈ plan.cfg.components.operators.map OperatorSpec.name := by
  obtain ⟨ctx, desired, hplanned, -, hroles⟩ := h
  have hname : rc.name = role := Option.some.inj (hplanned.identity.podComponent.symm.trans (hroles.standalone.1 hs))
  obtain ⟨ref, -, hresolve⟩ := hplanned.component
  obtain ⟨rc₀, has, hkind₀, hname₀, -⟩ := resolvedAs_of_resolveForPass hresolve
  have hrefName : role = roleName ref.kind ref.operatorName := by rw [← hname, hname₀, has.name]
  have hkind : rc.kind = ref.kind := hkind₀.trans has.kind
  cases hk : ref.kind with
  | operator =>
    obtain ⟨op, hop, hopName⟩ := has.operator hk
    rw [hk] at hrefName
    refine ⟨hkind.trans hk, hname, ?_⟩
    rw [hrefName]
    exact List.mem_map.2 ⟨op, hop, hopName⟩
  | sidecar =>
    have hstandalone := hplanned.standalone
    simp [ResolvedRole.isColocated, hkind, hk] at hstandalone
  | controlplane | dataplane | birdAdapter =>
    rw [hk] at hrefName
    exact absurd (by rw [hrefName]; simp [builtIn, roleName]) hrole

/-- A workload that runs a role inside the dataplane has it as an enabled sidecar. -/
theorem Draws.colocated (h : Draws Γ y plan nodes node rc t) (hc : Colocated Γ role t) :
    (∃ s ∈ rc.sidecars, s.enabled = true ∧ s.name = role) ∧
      role ∈ plan.cfg.components.dataplane.sidecars.map SidecarSpec.name := by
  obtain ⟨ctx, desired, hplanned, -, hroles⟩ := h
  obtain ⟨s, hs, henabled, rfl⟩ := hplanned.identity.podMembership _ _ (hroles.colocated.1 hc)
  obtain ⟨ref, -, hresolve⟩ := hplanned.component
  obtain ⟨rc₀, has, -, -, hsidecars⟩ := resolvedAs_of_resolveForPass hresolve
  refine ⟨⟨s, hs, henabled, rfl⟩, ?_⟩
  rw [hsidecars] at hs
  have hdataplane : ref.kind = .dataplane := by
    by_contra hne
    rw [has.noSidecars hne] at hs
    cases hs
  obtain ⟨slot, hpalette⟩ := has.palette hdataplane
  exact hpalette.names ▸ List.mem_map_of_mem hs

/-- One configuration never runs a role both ways. -/
theorem Draws.apart {node' : Node} {t' : PodTemplateSpec} (hadmitted : AdmittedConfig plan.cfg) (hrole : role ∉ builtIn)
    (h : Draws Γ y plan nodes node rc t) (h' : Draws Γ y plan nodes node' rc' t') (hs : Standalone role t) (hc : Colocated Γ role t') :
    False := by
  obtain ⟨-, -, hoperator⟩ := h.standalone hrole hs
  obtain ⟨s, hs', rfl⟩ := List.mem_map.1 (h'.colocated hc).2
  exact (hadmitted.sidecarFree s hs').1 hoperator

/-! ## The gate -/

/-- The workload of a planned Deployment was rendered by the preflight. -/
theorem Planned.workload {d : Deployment} {plans : StrMap ServicePlan} {ws : List (Node × List RenderedWorkload)}
    (h : Planned Γ y plan nodes node ctx rc d) (hws : preflightPlans Γ plan y nodes = .ok (plans, ws)) :
    ∃ l, (node, l) ∈ ws ∧ { deployment := d, component := rc } ∈ l := by
  obtain ⟨hnodes, hall⟩ := preflightPlans_ok hws
  obtain ⟨⟨node', l⟩, hmem, rfl⟩ := List.mem_map.1 (hnodes ▸ h.selected)
  obtain ⟨ctx', hctx', -, hl⟩ := hall _ hmem
  obtain rfl : ctx = ctx' := Except.ok.inj (h.context.symm.trans hctx')
  obtain ⟨ref, href, hresolve⟩ := h.component
  obtain ⟨ds, hds, d₀, hd₀, rfl⟩ := h.rendered
  refine ⟨l, hmem, ?_⟩
  dsimp only at hl
  rw [hl]
  refine List.mem_flatMap.2 ⟨ref, href, ?_⟩
  simp only [passWorkloads, hresolve, hds]
  exact List.mem_map_of_mem hd₀

/-- A role that a planned workload runs is one of the pass. -/
theorem Draws.role_mem {plans : StrMap ServicePlan} {ws : List (Node × List RenderedWorkload)}
    (h : Draws Γ y plan nodes node rc t) (hws : preflightPlans Γ plan y nodes = .ok (plans, ws)) :
    (rc.kind = .operator → { name := rc.name, colocated := false, node := node } ∈ passRoles ws) ∧
      ∀ s ∈ rc.sidecars, s.enabled = true → { name := s.name, colocated := true, node := node } ∈ passRoles ws := by
  obtain ⟨ctx, desired, hplanned, hscaled, -⟩ := h
  obtain ⟨l, hl, hmem⟩ := hplanned.workload hws
  have hin (target : PlacementRole) (ht : target ∈ workloadRoles node { deployment := desired, component := rc }) :
      target ∈ passRoles ws :=
    List.mem_flatMap.2 ⟨(node, l), hl, List.mem_flatMap.2 ⟨_, hmem, ht⟩⟩
  have hroles : workloadRoles node { deployment := desired, component := rc } =
      (if rc.kind = .operator then [{ name := rc.name, colocated := false, node := node }] else []) ++
        (rc.sidecars.filter (·.enabled)).map fun s => { name := s.name, colocated := true, node := node } := by
    simp [workloadRoles, hscaled]
  refine ⟨fun hk => hin _ ?_, fun s hs henabled => hin _ ?_⟩
  · rw [hroles, if_pos hk]
    exact List.mem_append_left _ List.mem_cons_self
  · rw [hroles]
    exact List.mem_append_right _ (List.mem_map.2 ⟨s, List.mem_filter.2 ⟨hs, henabled⟩, rfl⟩)

/-- A planned workload is for the node of its label. -/
theorem Draws.node_eq (h : Draws Γ y plan nodes node rc t) {name : String} (hn : t.labels[labelNode]? = some name) :
    node.metadata.name = name := by
  obtain ⟨ctx, desired, hplanned, -, hroles⟩ := h
  have hnode := hplanned.identity.podOnNode
  rw [← hroles.node, hn] at hnode
  exact hnode.symm

theorem Draws.yanet_eq (h : Draws Γ y plan nodes node rc t) : t.labels[labelYanet]? = some y.metadata.name := by
  obtain ⟨ctx, desired, hplanned, -, hroles⟩ := h
  rw [hroles.yanet, hplanned.identity.podYanet]

/-- A producer that was listed for the node of a target, and passed the check, does not run the role the other way. -/
theorem compatible_of_check {target : PlacementRole} {p : PlacementProducer} (hcheck : checkPlacement Γ y target p = .ok ())
    (hbound : BoundToLabel p.template) (hyanet : p.template.labels[labelYanet]? = some y.metadata.name)
    (hnode : p.template.labels[labelNode]? = some target.node.metadata.name) (hne : target.node.metadata.name ≠ "") :
    (target.colocated = true → ¬ Standalone target.name p.template) ∧
      (target.colocated = false → ¬ Colocated Γ target.name p.template) := by
  have hon : templateOnNode y target.node p.template = true := by
    unfold templateOnNode
    simp only [hyanet, hnode, Option.getD_some, beq_self_eq_true, Bool.true_and]
    rcases hbound with hnone | hlabel
    · simp [hnone, hne]
    · rw [hnode, Option.some.injEq] at hlabel
      simp [podMayUseNode, ← hlabel, hne]
  have hcompatible : incompatibleOperatorPlacement Γ p.template.labels target.name target.colocated = false := by
    by_contra hincompatible
    simp [checkPlacement, hon, hincompatible] at hcheck
  refine ⟨fun hcolocated hs => ?_, fun hcolocated hc => ?_⟩
  · rw [Standalone] at hs
    simp [incompatibleOperatorPlacement, hcolocated, hs] at hcompatible
  · rw [Colocated] at hc
    simp [incompatibleOperatorPlacement, hcolocated, hc] at hcompatible

end

end YanetOperator
