import YanetOperator.Lemmas.Applying

/-!
# The two modes of an installation

The same cluster with an installation in applying mode and no update window. The mode and the update window decide what a pass does
with its plan; the plan itself does not depend on them.
-/

namespace YanetOperator

open Prog hiding pure

/-- The configuration without an update window. -/
def YanetConfigSpec.unthrottled (cfg : YanetConfigSpec) : YanetConfigSpec := { cfg with updateWindow := 0 }

/-- The installation in applying mode. -/
def Yanet.applying (y : Yanet) : Yanet := { y with spec := { y.spec with autoSync := some true } }

/-- The cluster with the installation under the key in applying mode, and without an update window. -/
def Server.applying (s : Server) (key : Key) : Server :=
  { s with
    store := fun
      | .yanet => (s.store .yanet).map fun (y : Yanet) => if keyOf .yanet y = key then y.applying else y
      | .yanetConfig => (s.store .yanetConfig).map fun (c : YanetConfig) => { c with spec := c.spec.unthrottled }
      | k => s.store k
    config := s.config.unthrottled }

/-! ## The plan -/

section

variable (Γ : Platform) (cfg : YanetConfigSpec) (yanet : YanetSpec) (mode : Option Bool)

theorem resolveSidecarPalette_unthrottled (box : BoxDataplane) (before rest : List SidecarSpec) :
    resolveSidecarPalette Γ cfg.unthrottled { yanet with autoSync := mode } box before rest =
      resolveSidecarPalette Γ cfg yanet box before rest := by
  induction rest generalizing before with
  | nil => rfl
  | cons sidecar rest ih =>
    rw [resolveSidecarPalette, resolveSidecarPalette, ih]
    rfl

theorem resolveDataplaneSidecars_unthrottled (boxName : String) (box : BoxDataplane) :
    resolveDataplaneSidecars Γ cfg.unthrottled { yanet with autoSync := mode } boxName box =
      resolveDataplaneSidecars Γ cfg yanet boxName box := by
  unfold resolveDataplaneSidecars
  dsimp only
  rw [resolveSidecarPalette_unthrottled]
  rfl

theorem resolveBoxComponent_unthrottled (kind : ComponentKind) (operatorName : String) :
    resolveBoxComponent Γ cfg.unthrottled { yanet with autoSync := mode } kind operatorName =
      resolveBoxComponent Γ cfg yanet kind operatorName := by
  unfold resolveBoxComponent
  cases kind with
  | dataplane =>
    simp only [resolveDataplaneSidecars_unthrottled]
    rfl
  | sidecar =>
    simp only [resolveDataplaneSidecars_unthrottled]
    rfl
  | _ => rfl

theorem enabledComponentsForBox_unthrottled (boxName : String) :
    enabledComponentsForBox Γ cfg.unthrottled boxName = enabledComponentsForBox Γ cfg boxName := by
  have hrefs (box : BoxType) : dataplaneRefs Γ cfg.unthrottled boxName box = dataplaneRefs Γ cfg boxName box := by
    have hsidecars := resolveDataplaneSidecars_unthrottled Γ cfg { boxType := boxName } none
    dsimp only at hsidecars
    unfold dataplaneRefs
    simp only [hsidecars]
  unfold enabledComponentsForBox
  simp only [hrefs]
  rfl

theorem addServicePlans_unthrottled (boxType : String) (component : ResolvedRole) (location : String) (st : PreflightState) :
    addServicePlans Γ cfg.unthrottled boxType component location st = addServicePlans Γ cfg boxType component location st := by
  unfold addServicePlans resolveBoxServiceComponent
  rw [show ({ boxType := boxType } : YanetSpec) = { ({ boxType := boxType } : YanetSpec) with autoSync := none } from rfl,
    resolveBoxComponent_unthrottled]

end

section

variable (Γ : Platform) (cfg : YanetConfigSpec) (y : Yanet) (enabled : List ComponentRef)

theorem resolveForPass_applying (ref : ComponentRef) :
    resolveForPass Γ (passPlan y.applying cfg.unthrottled enabled) y.applying ref = resolveForPass Γ (passPlan y cfg enabled) y ref := by
  unfold resolveForPass
  rw [show resolveBoxComponent Γ (passPlan y.applying cfg.unthrottled enabled).cfg y.applying.spec ref.kind ref.operatorName =
    resolveBoxComponent Γ cfg y.spec ref.kind ref.operatorName from resolveBoxComponent_unthrottled Γ cfg y.spec _ _ _]
  rfl

theorem passWorkloads_applying (ctx : BuildContext) (ref : ComponentRef) :
    passWorkloads Γ (passPlan y.applying cfg.unthrottled enabled) y.applying ctx ref =
      passWorkloads Γ (passPlan y cfg enabled) y ctx ref := by
  unfold passWorkloads
  rw [resolveForPass_applying]
  rfl

theorem nodeContext_applying (node : Node) :
    nodeContext Γ (passPlan y.applying cfg.unthrottled enabled) y.applying node = nodeContext Γ (passPlan y cfg enabled) y node := rfl

theorem preflightComponent_applying (node : Node) (ctx : BuildContext) :
    preflightComponent Γ (passPlan y.applying cfg.unthrottled enabled) y.applying node ctx =
      preflightComponent Γ (passPlan y cfg enabled) y node ctx := by
  funext acc ref
  unfold preflightComponent
  rw [resolveForPass_applying]
  simp only [show (passPlan y.applying cfg.unthrottled enabled).cfg = cfg.unthrottled from rfl, addServicePlans_unthrottled]
  rfl

theorem preflightUnmatched_applying :
    preflightUnmatched Γ (passPlan y.applying cfg.unthrottled enabled) y.applying =
      preflightUnmatched Γ (passPlan y cfg enabled) y := by
  funext st ref
  unfold preflightUnmatched
  rw [show resolveBoxComponent Γ (passPlan y.applying cfg.unthrottled enabled).cfg y.applying.spec ref.kind ref.operatorName =
    resolveBoxComponent Γ cfg y.spec ref.kind ref.operatorName from resolveBoxComponent_unthrottled Γ cfg y.spec _ _ _]
  simp only [show (passPlan y.applying cfg.unthrottled enabled).cfg = cfg.unthrottled from rfl, addServicePlans_unthrottled]
  rfl

theorem preflightPlans_applying (nodes : List Node) :
    preflightPlans Γ (passPlan y.applying cfg.unthrottled enabled) y.applying nodes =
      preflightPlans Γ (passPlan y cfg enabled) y nodes := by
  have hnodes (nodes : List Node) (st : PreflightState) :
      preflightNodes Γ (passPlan y.applying cfg.unthrottled enabled) y.applying nodes st =
        preflightNodes Γ (passPlan y cfg enabled) y nodes st := by
    induction nodes generalizing st with
    | nil => rfl
    | cons node nodes ih =>
      rw [preflightNodes, preflightNodes, nodeContext_applying]
      simp only [ih, preflightComponent_applying]
      rfl
  unfold preflightPlans
  rw [hnodes, preflightUnmatched_applying]
  rfl

theorem preflightResources_applying (nodes : List Node) :
    preflightResources Γ (passPlan y.applying cfg.unthrottled enabled) y.applying nodes =
      preflightResources Γ (passPlan y cfg enabled) y nodes := by
  unfold preflightResources
  rw [preflightPlans_applying]
  rfl

end

/-! ## The reads of a pass -/

/-- The configuration that a pass reads from a server. -/
def Server.loaded (s : Server) : Option YanetConfigSpec :=
  if s.config.boxTypes = [] ∧ s.config.stop = false then
    (s.store.find .yanetConfig { name := yanetConfigName }).map fun (c : YanetConfig) => c.spec
  else some s.config

section

variable {N : Normalization} {s : Server} {key : Key} {y : Yanet} {nodes : List Node}

theorem run_loadConfig_server : run (Server.exec N) loadConfig.run s = (.ok s.loaded, s) := by
  unfold loadConfig Server.loaded
  rw [ExceptT.run_mk, run_bind, run_issue]
  show run (Server.exec N) (if s.config.boxTypes = [] ∧ s.config.stop = false then _ else _) s = _
  split
  · cases hfound : s.store.find .yanetConfig { name := yanetConfigName } with
    | none =>
      rw [run_bind, run_issue, Server.exec_get_none hfound]
      rfl
    | some c =>
      rw [run_bind, run_issue, Server.exec_get hfound]
      rfl
  · rfl

theorem loaded_applying : (s.applying key).loaded = s.loaded.map YanetConfigSpec.unthrottled := by
  unfold Server.loaded
  show (if s.config.boxTypes = [] ∧ s.config.stop = false then _ else some s.config.unthrottled) = _
  split
  · rw [Option.map_map]
    show Option.map _ (List.find? _ (List.map _ _)) = _
    rw [List.find?_map, Option.map_map]
    rfl
  · rfl

/-- The check of node exclusivity reads the installations and the Deployments. -/
theorem run_validateExclusiveNodes_server : run (Server.exec N) (validateExclusiveNodes y nodes) s =
    (if nodes = [] then .ok ()
      else exclusiveVerdict (s.store.select .deployment none ∅) (s.store.select .yanet none ∅) y nodes, s) := by
  unfold validateExclusiveNodes
  split <;> rfl

/-- The mode of an installation does not matter for the nodes it has. -/
theorem exclusiveVerdict_applying (deployments : List Deployment) (installations : List Yanet) (hkey : keyOf .yanet y = key) :
    exclusiveVerdict deployments (installations.map fun o => if keyOf .yanet o = key then o.applying else o) y.applying nodes =
      exclusiveVerdict deployments installations y nodes := by
  have hconflicts : nodeConflicts deployments (installations.map fun o => if keyOf .yanet o = key then o.applying else o)
      y.applying nodes = nodeConflicts deployments installations y nodes := by
    unfold nodeConflicts
    rw [List.filter_map, List.flatMap_map]
    have hothers : (fun other : Yanet => decide (keyOf .yanet other ≠ keyOf .yanet y.applying)) ∘
        (fun o => if keyOf .yanet o = key then o.applying else o) = fun other => decide (keyOf .yanet other ≠ keyOf .yanet y) := by
      funext o
      dsimp only [Function.comp]
      split <;> rfl
    rw [hothers]
    refine List.flatMap_congr fun other hother => ?_
    have hne : keyOf .yanet other ≠ key := by simpa [hkey] using (List.mem_filter.1 hother).2
    rw [if_neg hne]
    rfl
  unfold exclusiveVerdict cleanupNodeNames
  rw [hconflicts]
  rfl

theorem exclusive_applying (hkey : keyOf .yanet y = key) :
    run (Server.exec N) (validateExclusiveNodes y.applying nodes) (s.applying key) =
      ((run (Server.exec N) (validateExclusiveNodes y nodes) s).1, s.applying key) := by
  have hselect : (s.applying key).store.select .yanet none ∅ =
      (s.store.select .yanet none ∅).map fun o : Yanet => if keyOf .yanet o = key then o.applying else o := by
    show List.filter _ (List.map _ _) = List.map _ (List.filter _ _)
    rw [List.filter_map]
    congr 2
  rw [run_validateExclusiveNodes_server, run_validateExclusiveNodes_server, hselect, exclusiveVerdict_applying _ _ hkey]
  rfl

/-- The placement guard reads neither the installations nor the configuration. -/
theorem guard_applying (Γ : Platform) (ws : List (Node × List RenderedWorkload)) :
    (run (Server.exec N) (validateOperatorPlacementTransition Γ y ws).run (s.applying key)).1 =
      (run (Server.exec N) (validateOperatorPlacementTransition Γ y ws).run s).1 := by
  have hread (t : Server) : run (Server.exec N) (listPlacementProducers y.metadata.ns).run t =
      (.ok (((t.store.select .deployment (some y.metadata.ns) ∅).filterMap deploymentProducer ++
        (t.store.select .replicaSet (some y.metadata.ns) ∅).filterMap replicaSetProducer ++
        (t.store.select .pod (some y.metadata.ns) ∅).filterMap podProducer).insertionSort producerLe), t) := rfl
  unfold validateOperatorPlacementTransition
  dsimp only
  split
  · rfl
  · rw [run_tryBind_ok (hread _), run_tryBind_ok (hread _)]
    rfl

theorem preflight_applying (Γ : Platform) (plan : PassPlan) :
    run (Server.exec N) (preflightResources Γ plan y nodes).run (s.applying key) =
      ((run (Server.exec N) (preflightResources Γ plan y nodes).run s).1, s.applying key) := by
  refine Prod.ext ?_ (idle_preflightResources Γ plan y nodes).run_server
  unfold preflightResources
  cases preflightPlans Γ plan y nodes with
  | error e => rfl
  | ok pw =>
    dsimp only
    rw [ExceptT.run_bind, run_bind, run_bind, guard_applying]
    cases (run (Server.exec N) (validateOperatorPlacementTransition Γ y pw.2).run s).1 <;> rfl

end

end YanetOperator
