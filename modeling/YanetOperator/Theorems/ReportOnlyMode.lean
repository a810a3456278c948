import YanetOperator.Lemmas.Modes
import YanetOperator.Lemmas.Ready
import YanetOperator.Theorems.PlanCompleteness

/-!
# Report-only mode and applying mode

A pass with `autoSync=false` changes no Deployment and no ConfigMap. When it ends with Ready=True, a pass in applying mode would
still write what the report does not show: the labels and the exact controller reference of an inline ConfigMap, the inline
ConfigMaps of a component that renders no Deployment, and a Deployment whose state another one of its name replaces in the status.
-/

namespace YanetOperator

open Prog hiding pure

/-! ## A pass up to its nodes -/

/-- The pass of an installation comes to its nodes: it has its finalizer, the configuration is loaded and not stopped, and the box
type and the overrides are valid. -/
structure Server.Selects (s : Server) (Γ : Platform) (y : Yanet) (cfg : YanetConfigSpec) (enabled : List ComponentRef) :
    Prop where
  loaded : s.loaded = some cfg
  running : cfg.stop = false
  finalizer : yanetFinalizer ∈ y.metadata.finalizers
  box : ∃ box, findBoxType cfg y.spec.boxType = .ok box ∧
    validateEffectiveYanetComponentOverrides Γ y.spec.components cfg.components box = .ok ()
  wired : enabledComponentsForBox Γ cfg y.spec.boxType = .ok enabled

/-- The nodes of an installation. -/
def Server.nodesOf (s : Server) (y : Yanet) : List Node := s.store.select .node none y.spec.nodeSelector

section

variable {N : Normalization} {s : Server} {Γ : Platform} {key : Key} {y : Yanet} {cfg : YanetConfigSpec}
  {enabled : List ComponentRef}

/-- A pass that comes to its nodes has only read before. -/
theorem Server.Selects.body (h : s.Selects Γ y cfg enabled) (hlive : y.metadata.deletionTimestamp = none) :
    run (Server.exec N) (reconcileYanetBody Γ y) s =
        run (Server.exec N) (reconcileNodes Γ y (passPlan y cfg enabled) (s.nodesOf y)) s ∧
      changes (Server.exec N) (reconcileYanetBody Γ y) s =
        changes (Server.exec N) (reconcileNodes Γ y (passPlan y cfg enabled) (s.nodesOf y)) s := by
  obtain ⟨box, hbox, hoverrides⟩ := h.box
  have hlist : run (Server.exec N) (listObjs .node none y.spec.nodeSelector).run s = (.ok (s.nodesOf y), s) := rfl
  have hload : run (Server.exec N) loadConfig.run s = (.ok (some cfg), s) := by rw [run_loadConfig_server, h.loaded]
  constructor
  · unfold reconcileYanetBody reconcileLive
    rw [run_bind, hload]
    dsimp only
    rw [if_neg (by simp [h.running]), if_neg (by simp [hlive]), if_neg (not_not_intro h.finalizer), hbox]
    dsimp only
    rw [hoverrides]
    dsimp only
    rw [h.wired]
    dsimp only
    rw [run_bind, hlist]
  · unfold reconcileYanetBody reconcileLive
    rw [changes_bind_of (idle_loadConfig.changes_eq s) hload]
    dsimp only
    rw [if_neg (by simp [h.running]), if_neg (by simp [hlive]), if_neg (not_not_intro h.finalizer), hbox]
    dsimp only
    rw [hoverrides]
    dsimp only
    rw [h.wired]
    dsimp only
    rw [changes_bind_of ((idle_listObjs _ _ _).changes_eq s) hlist]

/-- The snapshot of a running pass is not stopped. -/
theorem Server.Selects.notStopped (h : s.Selects Γ y cfg enabled) : s.config.stop = false := by
  have hloaded := h.loaded
  unfold Server.loaded at hloaded
  split at hloaded
  · next hempty => exact hempty.2
  · cases hloaded
    exact h.running

end

/-! ## What Ready says -/

section

variable {N : Normalization} {s : Server} {Γ : Platform} {y fresh : Yanet} {plan : PassPlan} {nodes : List Node}

end

/-- The desired set of a plan that is applied without errors. -/
def DesiredSet.IsPlan (desired : DesiredSet) (Γ : Platform) (plan : PassPlan) (y : Yanet) (nodes : List Node) : Prop :=
  (∀ name, name ∈ desired.deployments ↔ name ∈ planDeployments Γ plan y nodes) ∧
    ∀ name, name ∈ desired.configMaps ↔ name ∈ planConfigMaps Γ plan y nodes

/-- The state of a Deployment stays in the status of a pass: its node is listed once, and no other Deployment of the node has its
name. -/
def Noticed (Γ : Platform) (plan : PassPlan) (y : Yanet) (store : Store) (nodes : List Node) (node : Node) (d : Deployment) : Prop :=
  (nodes.map fun n => n.metadata.name).count node.metadata.name = 1 ∧
    timesNamed (nodeObservations Γ plan y store node) d.metadata.name = 1

/-- What a report-only pass that ends with Ready has found: the plan is accepted, no Deployment of it is foreign, every Deployment
whose state stays in the status is in sync, and nothing is stored that the plan does not have. -/
structure ReportsReady (N : Normalization) (Γ : Platform) (plan : PassPlan) (y : Yanet) (s : Server) (nodes : List Node)
    (services : StrMap ServicePlan) : Prop where
  exclusive : (run (Server.exec N) (validateExclusiveNodes y nodes) s).1 = .ok ()
  preflight : (run (Server.exec N) (preflightResources Γ plan y nodes).run s).1 = .ok services
  owned : ∀ node ∈ nodes, ∀ e ∈ nodeObservations Γ plan y s.store node, ¬Foreign s.store e.1
  inSync : ∀ node ∈ nodes, ∀ e ∈ nodeObservations Γ plan y s.store node, Noticed Γ plan y s.store nodes node e.1 →
    InSync N s.store e.1
  keeps : ∀ desired : DesiredSet, desired.IsPlan Γ plan y nodes → KeepsStored y desired s.store

section

variable {N : Normalization} {s : Server} {Γ : Platform} {y fresh : Yanet} {plan : PassPlan} {nodes : List Node}

theorem planAccepted_of_preflight {services : StrMap ServicePlan}
    (h : (run (Server.exec N) (preflightResources Γ plan y nodes).run s).1 = .ok services) : PlanAccepted Γ plan y nodes := by
  by_contra hrejected
  obtain ⟨e, u, hrun⟩ : ∃ e u, run (Server.exec N) (preflightResources Γ plan y nodes).run s = (.error e, u) :=
    preflightResources_rejects fun h => hrejected h.1
  rw [hrun] at h
  cases h

theorem KeepsStored.congr {desired desired' : DesiredSet} {store : Store} (h : KeepsStored y desired store)
    (hds : ∀ name, name ∈ desired.deployments → name ∈ desired'.deployments)
    (hcms : ∀ name, name ∈ desired.configMaps → name ∈ desired'.configMaps) : KeepsStored y desired' store := by
  constructor
  · intro d hd
    exact (h.deployments d hd).imp_right (hds _)
  · intro c hc
    exact (h.configMaps c hc).imp_right (Or.imp_left (hcms _))

end

/-! ## The pass in applying mode -/

section

variable {N : Normalization} {s : Server} {Γ : Platform} {y : Yanet} {plan : PassPlan} {nodes : List Node}

theorem changes_finishPass {services : StrMap ServicePlan} {st : LoopState}
    (h : st.errs = [] → changes (Server.exec N) (pruneOrphans y st.desired plan.autoSync) s = []) :
    changes (Server.exec N) (finishPass y plan services st) s = [] := by
  unfold finishPass
  rw [changes_bind_of ((idle_collectPods y).changes_eq s) (run_collectPods y)]
  dsimp only
  rw [List.append_nil]
  cases hj : Err.join st.errs with
  | some e => exact (quiet_reportFailure y _ e).changes_eq s
  | none =>
    dsimp only
    rw [changes_bind, h (Err.join_eq_none.1 hj), List.nil_append]
    generalize run (Server.exec N) (pruneOrphans y st.desired plan.autoSync) s = r
    obtain ⟨⟨pruned, err⟩, t⟩ := r
    refine Quiet.changes_eq (y := y) ?_ t
    dsimp only
    split
    · refine ((idle_recordEvent _ _).quiet y).bind fun _ => ?_
      cases err with
      | some e => exact quiet_reportFailure y _ _
      | none => exact quiet_reportSuccess y _ plan _ _
    · cases err with
      | some e => exact quiet_reportFailure y _ _
      | none => exact quiet_reportSuccess y _ plan _ _

/-- A pass in applying mode whose plan is accepted and has everything that is stored changes exactly what its apply loop changes. -/
theorem changes_reconcileNodes {services : StrMap ServicePlan} (hmode : plan.autoSync = true) (hwindow : plan.updateWindow = 0)
    (hstop : s.config.stop = false) (hexclusive : run (Server.exec N) (validateExclusiveNodes y nodes) s = (.ok (), s))
    (hpreflight : run (Server.exec N) (preflightResources Γ plan y nodes).run s = (.ok services, s))
    (hkeeps : ∀ desired : DesiredSet, desired.IsPlan Γ plan y nodes → KeepsStored y desired s.store) :
    changes (Server.exec N) (reconcileNodes Γ y plan nodes) s = [] ↔
      ∀ node ∈ nodes, ∀ ctx, nodeContext Γ plan y node = .ok ctx → ∀ ref ∈ plan.enabled,
        ComponentSettled Γ plan y s.store (LeavesDeployment N s.store) ctx ref := by
  have haccepted : PlanAccepted Γ plan y nodes := planAccepted_of_preflight (congrArg Prod.fst hpreflight)
  have hloop := decided_applyNodes (N := N) hmode hwindow hstop haccepted
  have hcovers := (applyNodes_covers (Server.exec N) s haccepted).run
  rw [reconcileNodes, changes_bind_of ((idle_validateExclusiveNodes y nodes).changes_eq s) hexclusive]
  dsimp only
  rw [changes_bind_of ((idle_preflightResources Γ plan y nodes).changes_eq s) hpreflight]
  dsimp only
  rw [changes_bind, List.append_eq_nil_iff, ← hloop.changes_iff]
  refine and_iff_left_of_imp fun hnone => ?_
  have hend := hloop.unchanged (hloop.changes_iff.1 hnone)
  revert hcovers hend
  generalize run (Server.exec N) (nodes.foldlM (applyNode Γ plan y) {}).run s = r
  obtain ⟨r, t⟩ := r
  rintro hcovers rfl
  cases r with
  | error e => exact hcovers.elim
  | ok st =>
    refine changes_finishPass fun herrs => changes_pruneOrphans (hkeeps st.desired ?_) plan.autoSync
    exact ⟨hcovers.deployments herrs, hcovers.configMaps herrs⟩

end

/-! ## The two modes agree -/

/-- What a report-only pass with Ready does not show is settled as well: the inline ConfigMaps of every component on every node are
as applying mode writes them, up to one that it refuses, and a Deployment whose state does not stay in the status is in sync. -/
def Settled (N : Normalization) (Γ : Platform) (y : Yanet) (s : Server) : Prop :=
  ∀ cfg enabled, s.Selects Γ y cfg enabled →
    ∀ node ∈ s.nodesOf y, ∀ ctx, nodeContext Γ (passPlan y cfg enabled) y node = .ok ctx → ∀ ref ∈ enabled,
      ComponentSettled Γ (passPlan y cfg enabled) y s.store
        (fun d => Noticed Γ (passPlan y cfg enabled) y s.store (s.nodesOf y) node d ∨ InSync N s.store d) ctx ref

section

variable {N : Normalization} {s : Server} {Γ : Platform} {key : Key} {y : Yanet} {cfg : YanetConfigSpec}
  {enabled : List ComponentRef} {nodes : List Node} {ctx : BuildContext} {ref : ComponentRef}

theorem ComponentSettled.congr {plan : PassPlan} {store : Store} {D D' : Deployment → Prop}
    (h : ∀ w ∈ passWorkloads Γ plan y ctx ref, D w.deployment ↔ D' w.deployment) :
    ComponentSettled Γ plan y store D ctx ref ↔ ComponentSettled Γ plan y store D' ctx ref := by
  unfold ComponentSettled
  refine forall_congr' fun rc => imp_congr_right fun _ => imp_congr_right fun _ => or_congr_right (and_congr_right fun _ => ?_)
  exact forall₂_congr h

/-- The state of a component is the same in applying mode. -/
theorem componentSettled_applying :
    ComponentSettled Γ (passPlan y.applying cfg.unthrottled enabled) y.applying (s.applying key).store
        (LeavesDeployment N (s.applying key).store) ctx ref ↔
      ComponentSettled Γ (passPlan y cfg enabled) y s.store (LeavesDeployment N s.store) ctx ref := by
  unfold ComponentSettled
  rw [resolveForPass_applying, passWorkloads_applying]
  rfl

theorem planDeployments_applying :
    planDeployments Γ (passPlan y.applying cfg.unthrottled enabled) y.applying nodes =
      planDeployments Γ (passPlan y cfg enabled) y nodes := by
  have hworkloads : passWorkloads Γ (passPlan y.applying cfg.unthrottled enabled) y.applying =
      passWorkloads Γ (passPlan y cfg enabled) y := by
    funext ctx ref
    exact passWorkloads_applying Γ cfg y enabled ctx ref
  unfold planDeployments planWorkloads
  rw [hworkloads]
  rfl

theorem planConfigMaps_applying :
    planConfigMaps Γ (passPlan y.applying cfg.unthrottled enabled) y.applying nodes =
      planConfigMaps Γ (passPlan y cfg enabled) y nodes := by
  have hconfigMaps : componentConfigMaps Γ (passPlan y.applying cfg.unthrottled enabled) y.applying =
      componentConfigMaps Γ (passPlan y cfg enabled) y := by
    funext ctx ref
    unfold componentConfigMaps
    rw [resolveForPass_applying]
  unfold planConfigMaps
  rw [hconfigMaps]
  rfl

theorem Server.Selects.applying (h : s.Selects Γ y cfg enabled) (key : Key) :
    (s.applying key).Selects Γ y.applying cfg.unthrottled enabled where
  loaded := by
    rw [loaded_applying, h.loaded]
    rfl
  running := h.running
  finalizer := h.finalizer
  box := h.box
  wired := (enabledComponentsForBox_unthrottled Γ cfg y.spec.boxType).trans h.wired

/-- A pass works with one configuration. -/
theorem Server.Selects.unique {cfg' : YanetConfigSpec} {enabled' : List ComponentRef} (h : s.Selects Γ y cfg enabled)
    (h' : s.Selects Γ y cfg' enabled') : cfg' = cfg ∧ enabled' = enabled := by
  have hcfg := h'.loaded.symm.trans h.loaded
  cases hcfg
  have henabled := h'.wired.symm.trans h.wired
  cases henabled
  exact ⟨rfl, rfl⟩

/-- The Deployments of a component among the observations of its node. -/
theorem mem_nodeObservations {plan : PassPlan} {store : Store} {node : Node} {w : RenderedWorkload}
    (hctx : nodeContext Γ plan y node = .ok ctx) (href : ref ∈ plan.enabled) (hw : w ∈ passWorkloads Γ plan y ctx ref) :
    (w.deployment, inlineDrift Γ store y ctx w.component) ∈ nodeObservations Γ plan y store node := by
  rw [nodeObservations, hctx]
  exact List.mem_flatMap.2 ⟨ref, href, List.mem_map.2 ⟨w, hw, rfl⟩⟩

/-- After a report-only pass with Ready, applying mode changes nothing exactly when what the report does not show is settled. -/
theorem ReportsReady.changes_iff {services : StrMap ServicePlan} (hselects : s.Selects Γ y cfg enabled)
    (h : ReportsReady N Γ (passPlan y cfg enabled) y s (s.nodesOf y) services) (hkey : keyOf .yanet y = key) :
    changes (Server.exec N) (reconcileNodes Γ y.applying (passPlan y.applying cfg.unthrottled enabled) (s.nodesOf y))
        (s.applying key) = [] ↔ Settled N Γ y s := by
  have hstored (desired : DesiredSet)
      (hdesired : desired.IsPlan Γ (passPlan y.applying cfg.unthrottled enabled) y.applying (s.nodesOf y)) :
      KeepsStored y.applying desired (s.applying key).store := by
    rw [DesiredSet.IsPlan, planDeployments_applying, planConfigMaps_applying] at hdesired
    have hkeeps := h.keeps desired hdesired
    exact ⟨hkeeps.deployments, hkeeps.configMaps⟩
  have hexclusive : run (Server.exec N) (validateExclusiveNodes y.applying (s.nodesOf y)) (s.applying key) =
      (.ok (), s.applying key) := by
    rw [exclusive_applying hkey, h.exclusive]
  have hpreflight : run (Server.exec N) (preflightResources Γ (passPlan y.applying cfg.unthrottled enabled) y.applying
      (s.nodesOf y)).run (s.applying key) = (.ok services, s.applying key) := by
    rw [preflightResources_applying, preflight_applying, h.preflight]
  have hstop : (s.applying key).config.stop = false := hselects.notStopped
  rw [changes_reconcileNodes rfl rfl hstop hexclusive hpreflight hstored]
  have hone (node : Node) (hnode : node ∈ s.nodesOf y) (ctx : BuildContext)
      (hctx : nodeContext Γ (passPlan y cfg enabled) y node = .ok ctx) (ref : ComponentRef) (href : ref ∈ enabled) :
      ComponentSettled Γ (passPlan y.applying cfg.unthrottled enabled) y.applying (s.applying key).store
          (LeavesDeployment N (s.applying key).store) ctx ref ↔
        ComponentSettled Γ (passPlan y cfg enabled) y s.store
          (fun d => Noticed Γ (passPlan y cfg enabled) y s.store (s.nodesOf y) node d ∨ InSync N s.store d) ctx ref := by
    refine componentSettled_applying.trans (ComponentSettled.congr fun w hw => ?_)
    have hmem : (w.deployment, inlineDrift Γ s.store y ctx w.component) ∈
        nodeObservations Γ (passPlan y cfg enabled) y s.store node := mem_nodeObservations hctx href hw
    constructor
    · rintro (hforeign | hsync)
      · exact absurd hforeign (h.owned node hnode _ hmem)
      · exact .inr hsync
    · rintro (hnoticed | hsync)
      · exact .inr (h.inSync node hnode _ hmem hnoticed)
      · exact .inr hsync
  constructor
  · intro hall cfg' enabled' hselects' node hnode ctx hctx ref href
    obtain ⟨rfl, rfl⟩ := hselects.unique hselects'
    exact (hone node hnode ctx hctx ref href).1 (hall node hnode ctx hctx ref href)
  · intro hsettled node hnode ctx hctx ref href
    exact (hone node hnode ctx hctx ref href).2 (hsettled cfg enabled hselects node hnode ctx hctx ref href)

/-- A pass changes what its body changes, and ends where its body ends. -/
theorem reconcile_server (hfound : s.store.find .yanet key = some y) :
    (run (Server.exec N) (YanetReconciler.reconcile Γ key) s).2 = (run (Server.exec N) (reconcileYanetBody Γ y) s).2 ∧
      changes (Server.exec N) (YanetReconciler.reconcile Γ key) s = changes (Server.exec N) (reconcileYanetBody Γ y) s := by
  have hget : run (Server.exec N) (issue (.get .yanet key)) s = (.ok y, s) := Server.exec_get (N := N) hfound
  constructor
  · rw [YanetReconciler.reconcile, run_bind, hget]
    dsimp only
    rw [reconcileYanet, run_bind]
    split
    · rfl
    · refine Idle.run_server ((idle_issue rfl).bind fun stop => ?_)
      cases stop <;> trivial
  · rw [YanetReconciler.reconcile, changes_bind_of ((idle_issue rfl).changes_eq s) hget]
    exact changes_reconcileYanet

end

theorem readyAt_iff {s : Server} {key : Key} : s.ReadyAt key ↔
    ((s.store.find .yanet key).any fun (y : Yanet) =>
      y.status.conditions.any fun c => decide (c.type = "Ready" ∧ c.status = .isTrue)) = true := by
  cases h : s.store.find .yanet key <;> simp [Server.ReadyAt, Yanet.IsReady, h]

instance (s : Server) (key : Key) : Decidable (s.ReadyAt key) := decidable_of_iff _ readyAt_iff.symm

end YanetOperator
