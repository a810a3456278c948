import YanetOperator.Cluster.Server
import YanetOperator.Lemmas.Frame
import YanetOperator.Theorems.Rendering

/-!
# A plan is rejected as a whole or applied as a whole

The preflight and the apply loop walk the same nodes and components. A plan that fails one check changes nothing anywhere; an
accepted plan is applied with the workloads that were checked, and the prune knows all of them.
-/

namespace YanetOperator

open Prog hiding pure

/-! ## The preflight -/

section

variable {σ : Type} {exec : σ → (c : Api.Call) → Api.Answer c × σ} {Γ : Platform} {plan : PassPlan} {y : Yanet} {nodes : List Node}
  {t u : σ}

/-- An accepted plan goes to the placement guard with its workloads. -/
theorem run_preflightResources (exec : σ → (c : Api.Call) → Api.Answer c × σ) (t : σ) (h : PlanAccepted Γ plan y nodes) : ∃ services,
    run exec (preflightResources Γ plan y nodes).run t =
      ((run exec (validateOperatorPlacementTransition Γ y (planWorkloads Γ plan y nodes)).run t).1.map fun _ => services,
        (run exec (validateOperatorPlacementTransition Γ y (planWorkloads Γ plan y nodes)).run t).2) := by
  obtain ⟨plans, ws, hp⟩ := preflightPlans_iff.2 h
  refine ⟨plans, ?_⟩
  rw [← preflightPlans_workloads hp, preflightResources, hp]
  dsimp only
  rw [ExceptT.run_bind, run_bind]
  generalize run exec (validateOperatorPlacementTransition Γ y ws).run t = r
  obtain ⟨r, u⟩ := r
  cases r <;> rfl

/-- A plan that is not accepted, or that the guard refuses, fails the preflight. -/
theorem preflightResources_rejects (h : ¬(PlanAccepted Γ plan y nodes ∧
      (run exec (validateOperatorPlacementTransition Γ y (planWorkloads Γ plan y nodes)).run t).1 = .ok ())) :
    ∃ e u, run exec (preflightResources Γ plan y nodes).run t = (.error e, u) := by
  by_cases hplan : PlanAccepted Γ plan y nodes
  · obtain ⟨services, hrun⟩ := run_preflightResources exec t hplan
    have hguard : (run exec (validateOperatorPlacementTransition Γ y (planWorkloads Γ plan y nodes)).run t).1 ≠ .ok () :=
      fun hok => h ⟨hplan, hok⟩
    rw [hrun]
    generalize run exec (validateOperatorPlacementTransition Γ y (planWorkloads Γ plan y nodes)).run t = r at hguard
    obtain ⟨r, u⟩ := r
    cases r with
    | error e => exact ⟨e, u, rfl⟩
    | ok v => exact absurd rfl hguard
  · cases hp : preflightPlans Γ plan y nodes with
    | ok pw => exact absurd (preflightPlans_iff.1 ⟨pw.1, pw.2, hp⟩) hplan
    | error e =>
      refine ⟨e, t, ?_⟩
      rw [preflightResources, hp]
      rfl

end

/-! ## The calls of an accepted plan -/

/-- A call that keeps to the plan: a Deployment that is written is a workload of the plan, as it is created or as the server
normalizes it for an update, and nothing of the plan is deleted. -/
def FollowsPlan {σ : Type} (exec : σ → (c : Api.Call) → Api.Answer c × σ) (Γ : Platform) (plan : PassPlan) (y : Yanet)
    (nodes : List Node) : Op → Prop
  | .create .deployment d => ∃ w ∈ planWorkloads Γ plan y nodes, ∃ x ∈ w.2, d = managedDeployment x.deployment
  | .update .deployment d => ∃ w ∈ planWorkloads Γ plan y nodes, ∃ x ∈ w.2, ∃ fresh u,
      (exec u (Op.dryRun (deploymentCandidate fresh x.deployment))).1 = .ok d
  | .delete .deployment (d : Deployment) _ => d.metadata.name ∉ planDeployments Γ plan y nodes
  | .delete .configMap (c : ConfigMap) _ => c.metadata.name ∉ planConfigMaps Γ plan y nodes
  | _ => True

section

variable {σ : Type} {exec : σ → (c : Api.Call) → Api.Answer c × σ} {Γ : Platform} {plan : PassPlan} {y : Yanet} {nodes : List Node}

theorem followsPlan_of_unchanged {c : Op} (h : Op.changesWorkload c = false) : FollowsPlan exec Γ plan y nodes c := by
  unfold FollowsPlan
  split <;> first | trivial | cases h

/-- The calls of the apply loop. -/
theorem followsPlan_of_applyNodes {s : σ} {c : Op} (hc : c ∈ calls exec (nodes.foldlM (applyNode Γ plan y) {}).run s) :
    FollowsPlan exec Γ plan y nodes c := by
  obtain ⟨tr, htr, hcall⟩ := (safe_applyNodes (Γ := Γ) []).mem_calls (fun e he => nomatch he) hc
  rcases hcall.written with hread | hwrite
  · exact followsPlan_of_unchanged (Op.reports_of_isRead (y := y) hread).unchanged
  · cases hwrite with
    | create node ctx rc desired hp =>
      obtain ⟨w, hw, hx⟩ := hp.mem_planWorkloads
      exact ⟨w, hw, _, hx, rfl⟩
    | update node ctx rc desired fresh d hp hn =>
      obtain ⟨w, hw, hx⟩ := hp.mem_planWorkloads
      exact ⟨w, hw, _, hx, fresh, htr _ hn⟩
    | _ => trivial

/-- The calls after the apply loop. -/
theorem followsPlan_of_finishPass {s : σ} {services : StrMap ServicePlan} {st : LoopState} {c : Op}
    (hst : st.Covers exec Γ y plan (planDeployments Γ plan y nodes) (planConfigMaps Γ plan y nodes))
    (hc : c ∈ calls exec (finishPass y plan services st) s) : FollowsPlan exec Γ plan y nodes c := by
  rcases (only_finishPass y plan services st).mem_calls hc with hreports | ⟨herrs, hprune⟩
  · exact followsPlan_of_unchanged hreports.unchanged
  · cases hprune with
    | read h => exact followsPlan_of_unchanged (Op.reports_of_isIdle (y := y) h).unchanged
    | deployment d h _ => exact fun hmem => h ((hst.deployments herrs _).2 hmem)
    | configMap c h _ => exact fun hmem => h ((hst.configMaps herrs _).2 hmem)

end

/-! ## Rejected or applied -/

/-- **A plan is rejected as a whole or applied as a whole.** For every installation, configuration and list of nodes without a
conflict, on any server: a plan that is not accepted, or that the placement guard refuses, changes no Deployment and no ConfigMap.
Otherwise the apply loop comes to its end, no error in it comes from resolving or rendering, it writes the workloads that were
checked, and when it hands over to the prune its desired set holds exactly the names that the plan renders, none of which is
deleted. -/
theorem plan_all_or_nothing (Γ : Platform) (y : Yanet) (cfg : YanetConfigSpec) (enabled : List ComponentRef) (nodes : List Node)
    {σ : Type} (exec : σ → (c : Api.Call) → Api.Answer c × σ) (s t : σ) (h : PassSelects exec Γ y s cfg enabled nodes t) :
    let plan := passPlan y cfg enabled
    let guard := run exec (validateOperatorPlacementTransition Γ y (planWorkloads Γ plan y nodes)).run t
    (¬(PlanAccepted Γ plan y nodes ∧ guard.1 = .ok ()) →
      ∀ c ∈ calls exec (reconcileYanet Γ y) s, Op.changesWorkload c = false) ∧
    (PlanAccepted Γ plan y nodes ∧ guard.1 = .ok () →
      ∃ st v, run exec (nodes.foldlM (applyNode Γ plan y) {}).run guard.2 = (.ok st, v) ∧
        (∀ e ∈ st.errs, ApplyErr exec Γ y plan e) ∧
        (st.errs = [] → (∀ name, name ∈ st.desired.deployments ↔ name ∈ planDeployments Γ plan y nodes) ∧
          ∀ name, name ∈ st.desired.configMaps ↔ name ∈ planConfigMaps Γ plan y nodes) ∧
        ∀ c ∈ calls exec (reconcileYanet Γ y) s, FollowsPlan exec Γ plan y nodes c) := by
  intro plan guard
  constructor
  · intro hrejected c hc
    obtain ⟨e, u, hp⟩ := preflightResources_rejects hrejected
    exact Bool.eq_false_iff.2 (List.filter_eq_nil_iff.1 (h.rejected hp) c hc)
  · rintro ⟨hplan, hguard⟩
    obtain ⟨services, hp⟩ := run_preflightResources exec t hplan
    have hp : run exec (preflightResources Γ plan y nodes).run t = (.ok services, guard.2) := by
      rw [hp]
      change (guard.1.map _, guard.2) = _
      rw [hguard]
      rfl
    have hcovers := (applyNodes_covers exec guard.2 hplan).run
    cases hl : run exec (nodes.foldlM (applyNode Γ plan y) {}).run guard.2 with
    | mk r v =>
      rw [hl] at hcovers
      cases r with
      | error e => exact hcovers.elim
      | ok st =>
        refine ⟨st, v, rfl, hcovers.errors, fun he => ⟨hcovers.deployments he, hcovers.configMaps he⟩, fun c hc => ?_⟩
        by_cases hchange : Op.changesWorkload c = true
        · have hmem : c ∈ changes exec (reconcileYanet Γ y) s := List.mem_filter.2 ⟨hc, hchange⟩
          rw [(h.accepted hp hl).2] at hmem
          rcases List.mem_append.1 hmem with hmem | hmem
          · exact followsPlan_of_applyNodes (List.mem_filter.1 hmem).1
          · exact followsPlan_of_finishPass hcovers (List.mem_filter.1 hmem).1
        · exact followsPlan_of_unchanged (Bool.eq_false_iff.2 hchange)

/-! ## A dataplane with and without a patch -/

/-- A server that persists a Deployment as it is sent. -/
def keepSpec : Normalization := ⟨id, fun _ => rfl⟩

/-- A configuration whose box type has a dataplane with the given patches. -/
def dataplaneConfig (patches : List String) : YanetConfigSpec where
  components := { dataplane := { image := { name := "dataplane" } } }
  patches := [{ name := "scale", patch := .json scalePatch }]
  boxTypes := [{ name := "edge", components := { dataplane := some { patches := patches } } }]

def dataplaneYanet : Yanet where
  metadata := { name := "yanet", ns := "default", uid := 1, finalizers := [yanetFinalizer] }
  spec := { boxType := "edge", autoSync := some true }

def dataplaneNode : Node := { metadata := { name := "node-a" } }

/-- The plan of the installation. -/
def dataplanePlan (patches : List String) : PassPlan := passPlan dataplaneYanet (dataplaneConfig patches) [{ kind := .dataplane }]

/-- A cluster with the installation and its node. -/
def dataplaneServer (patches : List String) : Server where
  store
    | .node => [dataplaneNode]
    | .yanet => [dataplaneYanet]
    | _ => []
  config := dataplaneConfig patches

theorem dataplaneServer_selects (patches : List String) (hbox : ∃ box, findBoxType (dataplaneConfig patches) "edge" = .ok box ∧
      validateEffectiveYanetComponentOverrides samplePlatform none (dataplaneConfig patches).components box = .ok ())
    (hwired : enabledComponentsForBox samplePlatform (dataplaneConfig patches) "edge" = .ok [{ kind := .dataplane }]) :
    PassSelects (Server.exec keepSpec) samplePlatform dataplaneYanet (dataplaneServer patches) (dataplaneConfig patches)
      [{ kind := .dataplane }] [dataplaneNode] (dataplaneServer patches) where
  live := rfl
  finalizer := List.mem_singleton.2 rfl
  running := rfl
  box := hbox
  wired := hwired
  reads := ⟨dataplaneServer patches, dataplaneServer patches, rfl, rfl, rfl⟩

/-- The patched dataplane is rejected for its replicas and changes nothing; without the patch it is applied. -/
theorem dataplane_planned :
    (∀ c ∈ calls (Server.exec keepSpec) (reconcileYanet samplePlatform dataplaneYanet) (dataplaneServer ["scale"]),
      Op.changesWorkload c = false) ∧
    ∀ c ∈ calls (Server.exec keepSpec) (reconcileYanet samplePlatform dataplaneYanet) (dataplaneServer []),
      FollowsPlan (Server.exec keepSpec) samplePlatform (dataplanePlan []) dataplaneYanet [dataplaneNode] c := by
  constructor
  · refine (plan_all_or_nothing samplePlatform dataplaneYanet (dataplaneConfig ["scale"]) [{ kind := .dataplane }] [dataplaneNode]
      (Server.exec keepSpec) _ _ (dataplaneServer_selects _ ⟨_, rfl, by decide +kernel⟩ (by decide +kernel))).1 fun h => ?_
    obtain ⟨plans, ws, hp⟩ := preflightPlans_iff.2 h.1
    have hrejected : (preflightPlans samplePlatform (dataplanePlan ["scale"]) dataplaneYanet [dataplaneNode]).toOption.isSome =
        false := by decide +kernel
    rw [dataplanePlan, hp] at hrejected
    cases hrejected
  · have haccepted : (preflightPlans samplePlatform (dataplanePlan []) dataplaneYanet [dataplaneNode]).toOption.isSome = true := by
      decide +kernel
    have hplan : PlanAccepted samplePlatform (dataplanePlan []) dataplaneYanet [dataplaneNode] := by
      cases hp : preflightPlans samplePlatform (dataplanePlan []) dataplaneYanet [dataplaneNode] with
      | ok pw => exact preflightPlans_iff.1 ⟨pw.1, pw.2, hp⟩
      | error e =>
        rw [hp] at haccepted
        cases haccepted
    obtain ⟨st, v, -, -, -, hcalls⟩ := (plan_all_or_nothing samplePlatform dataplaneYanet (dataplaneConfig []) [{ kind := .dataplane }]
      [dataplaneNode] (Server.exec keepSpec) _ _ (dataplaneServer_selects _ ⟨_, rfl, by decide +kernel⟩
        (by decide +kernel))).2 ⟨hplan, by decide +kernel⟩
    exact hcalls

end YanetOperator
