import YanetOperator.Controller.YanetReconciler
import YanetOperator.Lemmas.Passes
import YanetOperator.Lemmas.Preflight
import YanetOperator.Theorems.NodeOwnership
import YanetOperator.Theorems.Rendering

/-!
# Draining

A pass of a disabled installation: what it renders and whether it proceeds depends neither on the capacity of the nodes nor on
what still runs on them, and everything it renders is scaled to zero.
-/

namespace YanetOperator

open Check

/-! ## A disabled component -/

section

variable {Γ : Platform} {ctx : BuildContext} {registry : PatchRegistry}

/-- A disabled dataplane never asks the node for its hugepages. -/
theorem resolveHugepagesForNode_allocatable {c : ResolvedRole} (h : c.enabled = false) (allocatable : ResourceList) :
    resolveHugepagesForNode Γ { ctx with nodeAllocatable := allocatable } c = resolveHugepagesForNode Γ ctx c := by
  unfold resolveHugepagesForNode
  by_cases hkind : c.kind ≠ .dataplane
  · rw [if_pos hkind, if_pos hkind]
  · rw [if_neg hkind, if_neg hkind]
    cases hhp : c.hugepages with
    | none => simp [h]
    | some hp =>
      by_cases hcount : hp.count = 0
      · simp [h, hcount]
      · simp [hcount, resolveNodeHugepages]

theorem renderDeployments_allocatable {rc : ResolvedComponent} (h : rc.enabled = false) (allocatable : ResourceList) :
    renderDeployments Γ { ctx with nodeAllocatable := allocatable } rc registry = renderDeployments Γ ctx rc registry := by
  unfold renderDeployments buildDeployments
  rw [resolveHugepagesForNode_allocatable h]
  rfl

/-- Whatever the patches wrote, a disabled component renders no replicas. -/
theorem renderDeployments_disabled {rc : ResolvedComponent} (h : rc.enabled = false) {ds : List Deployment}
    (hrender : renderDeployments Γ ctx rc registry = .ok ds) : ∀ d ∈ ds, d.spec.replicas = some 0 := by
  intro d hd
  unfold renderDeployments at hrender
  split at hrender
  · cases hrender
    cases hd
  · obtain ⟨built, -, hrender⟩ := bind_eq_ok.1 hrender
    obtain ⟨b, -, hb⟩ := mapM_mem hrender hd
    obtain ⟨composed, patched, overridden, networked, listening, hpasses⟩ := renderDeployment_passes hb
    obtain ⟨hover, -, -⟩ := applyInstallationOverrides_ok hpasses.override
    have hdecided : decidesReplicas rc.toResolvedRole := Or.inl h
    rw [hpasses.faces.2, hover]
    show overriddenReplicas rc.toResolvedRole patched.spec.replicas = some 0
    rw [overriddenReplicas, if_pos hdecided, replicasFor, h]
    rfl

end

/-! ## Preflight -/

/-- A node with other allocatable resources. -/
def Node.withAllocatable (node : Node) (allocatable : ResourceList) : Node := { node with allocatable := allocatable }

/-- The node list of a second run: the same nodes, each with any allocatable resources. -/
def SameNodes (nodes nodes' : List Node) : Prop := List.Forall₂ (fun a b => b = a.withAllocatable b.allocatable) nodes nodes'

section

variable {Γ : Platform} {plan : PassPlan} {y : Yanet}

theorem nodeContext_allocatable (node : Node) (allocatable : ResourceList) :
    nodeContext Γ plan y (node.withAllocatable allocatable) =
      (nodeContext Γ plan y node).map fun ctx => { ctx with nodeAllocatable := allocatable } := by
  unfold nodeContext withRuntimeNetwork
  cases resolveBoxComponent Γ plan.cfg y.spec .controlplane "" with
  | error e => rfl
  | ok controlplane =>
    cases controlplane with
    | none => rfl
    | some controlplane => rfl

/-- The component of a pass of a disabled installation is disabled. -/
theorem resolveForPass_disabled (h : plan.installationEnabled = false) {ref : ComponentRef} {rc : ResolvedComponent}
    (hrc : resolveForPass Γ plan y ref = .ok (some rc)) : rc.enabled = false := by
  unfold resolveForPass at hrc
  split at hrc
  · cases hrc
  · cases hrc
  · next rc0 _ =>
    cases hrc
    show (rc0.enabled && plan.installationEnabled) = false
    rw [h, Bool.and_false]

theorem preflightComponent_allocatable (h : plan.installationEnabled = false) (node : Node) (ctx : BuildContext)
    (allocatable : ResourceList) (acc : PreflightState × List RenderedWorkload) (ref : ComponentRef) :
    preflightComponent Γ plan y (node.withAllocatable allocatable) { ctx with nodeAllocatable := allocatable } acc ref =
      preflightComponent Γ plan y node ctx acc ref := by
  unfold preflightComponent
  cases hrc : resolveForPass Γ plan y ref with
  | error e => rfl
  | ok rc =>
    cases rc with
    | none => rfl
    | some rc =>
      dsimp only
      rw [renderDeployments_allocatable (resolveForPass_disabled h hrc)]
      rfl

/-- The state of a preflight and the workloads it rendered, without the nodes. -/
def renderedOnly (r : PreflightState × List (Node × List RenderedWorkload)) : PreflightState × List (List RenderedWorkload) :=
  (r.1, r.2.map (·.2))

theorem preflightNodes_allocatable (h : plan.installationEnabled = false) {nodes nodes' : List Node} (hnodes : SameNodes nodes nodes')
    (st : PreflightState) :
    (preflightNodes Γ plan y nodes' st).map renderedOnly = (preflightNodes Γ plan y nodes st).map renderedOnly := by
  induction hnodes generalizing st with
  | nil => rfl
  | @cons node node' nodes nodes' hnode hnodes ih =>
    rw [hnode]
    simp only [preflightNodes, nodeContext_allocatable]
    cases nodeContext Γ plan y node with
    | error e => rfl
    | ok ctx =>
      have hstep : preflightComponent Γ plan y (node.withAllocatable node'.allocatable)
          { ctx with nodeAllocatable := node'.allocatable } = preflightComponent Γ plan y node ctx :=
        funext fun acc => funext fun ref => preflightComponent_allocatable h node ctx _ acc ref
      simp only [Except.map, hstep]
      generalize plan.enabled.foldl (preflightComponent Γ plan y node ctx) (st, []) = acc
      rcases map_eq_map (ih acc.1) with ⟨e, hr, hr'⟩ | ⟨r, r', hr, hr', heq⟩
      · rw [hr, hr']
        rfl
      · obtain ⟨hst, hws⟩ := Prod.ext_iff.1 heq
        have hst : r'.1 = r.1 := hst
        have hws : r'.2.map (·.2) = r.2.map (·.2) := hws
        rw [hr, hr']
        show Except.ok _ = Except.ok _
        simp [renderedOnly, hst, hws]

/-- The workloads of a disabled installation are scaled to zero. -/
theorem preflightPlans_zero (h : plan.installationEnabled = false) {nodes : List Node} {plans : StrMap ServicePlan}
    {workloads : List (Node × List RenderedWorkload)} (hok : preflightPlans Γ plan y nodes = .ok (plans, workloads)) :
    ∀ p ∈ workloads, ∀ w ∈ p.2, w.deployment.spec.replicas = some 0 := by
  intro p hp w hw
  obtain ⟨ctx, -, -, hworkloads⟩ := (preflightPlans_ok hok).2 p hp
  rw [hworkloads, List.mem_flatMap] at hw
  obtain ⟨ref, -, hw⟩ := hw
  unfold passWorkloads at hw
  split at hw
  · split at hw
    · obtain ⟨d, -, rfl⟩ := List.mem_map.1 hw
      rw [normalizeDeploymentReplicas, h, Bool.and_false]
      rfl
    · cases hw
  · cases hw

theorem preflightPlans_allocatable (h : plan.installationEnabled = false) {nodes nodes' : List Node}
    (hnodes : SameNodes nodes nodes') :
    (preflightPlans Γ plan y nodes').map (fun r => (r.1, r.2.map (·.2))) =
      (preflightPlans Γ plan y nodes).map (fun r => (r.1, r.2.map (·.2))) := by
  have hempty : nodes' = [] ↔ nodes = [] := by
    rw [← List.length_eq_zero_iff, ← List.length_eq_zero_iff, List.Forall₂.length_eq hnodes]
  unfold preflightPlans
  rcases map_eq_map (preflightNodes_allocatable (Γ := Γ) (y := y) h hnodes {}) with ⟨e, hr, hr'⟩ | ⟨r, r', hr, hr', heq⟩
  · rw [hr, hr']
    rfl
  · obtain ⟨hst, hws⟩ := Prod.ext_iff.1 heq
    have hst : r'.1 = r.1 := hst
    have hws : r'.2.map (·.2) = r.2.map (·.2) := hws
    rw [hr, hr']
    simp only [bind, Except.bind, hst, hempty]
    generalize (if nodes = [] then plan.enabled.foldl (preflightUnmatched Γ plan y) r.1 else r.1) = st
    cases Err.join st.errs with
    | some e => rfl
    | none => exact congrArg (fun ws => Except.ok (st.plans, ws)) hws

/-- The placement gate reads nothing when everything is scaled to zero. -/
theorem validateOperatorPlacementTransition_zero {workloads : List (Node × List RenderedWorkload)}
    (h : ∀ p ∈ workloads, ∀ w ∈ p.2, w.deployment.spec.replicas = some 0) :
    validateOperatorPlacementTransition Γ y workloads = pure () := by
  have hnone : (workloads.flatMap fun p => p.2.flatMap (workloadRoles p.1)) = [] := by
    rw [List.flatMap_eq_nil_iff]
    intro p hp
    rw [List.flatMap_eq_nil_iff]
    intro w hw
    rw [workloadRoles, deploymentReplicasAreZero, h p hp w hw]
    rfl
  unfold validateOperatorPlacementTransition
  rw [hnone]
  rfl

/-- The preflight of a disabled installation is decided by its plans alone. -/
theorem preflightResources_disabled (h : plan.installationEnabled = false) (nodes : List Node) :
    (preflightResources Γ plan y nodes).run = pure ((preflightPlans Γ plan y nodes).map (·.1)) := by
  unfold preflightResources
  cases hplans : preflightPlans Γ plan y nodes with
  | error e => rfl
  | ok r =>
    obtain ⟨plans, workloads⟩ := r
    dsimp only
    rw [validateOperatorPlacementTransition_zero (preflightPlans_zero h hplans)]
    rfl

end

/-! ## A blocked pass -/

/-- What a Deployment becomes: its deletion was requested, or it is stored without replicas. -/
def Released (d : Deployment) (t : Recording) : Prop :=
  Op.delete .deployment d true ∈ t.writes ∨
    ∃ stored : Deployment, t.store.find .deployment (keyOf .deployment d) = some stored ∧ stored.spec.replicas = some 0

/-- A Deployment that a disabled installation owns and that is not going yet is released, and no other is touched. -/
theorem releaseStep {y : Yanet} (hdisabled : y.spec.enabled = some false) (nodeNames : List String) (d : Deployment) (s : Recording) :
    (controlledByYanet d.metadata y = true → d.metadata.deletionTimestamp = none →
        s.store.find .deployment (keyOf .deployment d) = some d →
        Released d (s.afterRelease (releaseWrite y nodeNames d))) ∧
      (∀ key, key ≠ keyOf .deployment d →
        (s.afterRelease (releaseWrite y nodeNames d)).store.find .deployment key = s.store.find .deployment key) ∧
      ∀ c ∈ s.writes, c ∈ (s.afterRelease (releaseWrite y nodeNames d)).writes := by
  unfold releaseWrite
  split
  · next hskip =>
    refine ⟨fun howned hlive => ?_, fun _ _ => rfl, fun _ hc => hc⟩
    rcases hskip with hforeign | hgoing
    · exact absurd howned (by simp [hforeign])
    · exact absurd hgoing (by simp [hlive])
  · split
    · split
      · next hzero =>
        refine ⟨fun _ _ hfind => .inr ⟨d, hfind, ?_⟩, fun _ _ => rfl, fun _ hc => hc⟩
        rcases hzero with henabled | hzero
        · rw [hdisabled] at henabled
          cases henabled
        · exact hzero
      · -- the update stores the Deployment without replicas under its own key
        refine ⟨fun _ _ _ => .inr ⟨drained d, ?_, rfl⟩, fun key hkey => ?_, fun c hc => List.mem_append_left _ hc⟩
        · exact Store.find_put_self
        · exact Store.find_put fun heq => hkey heq.symm
    · refine ⟨fun _ _ _ => .inl (List.mem_append_right _ (List.mem_singleton.2 rfl)), fun key hkey => ?_,
        fun c hc => List.mem_append_left _ hc⟩
      exact Store.find_remove fun heq => hkey heq.symm

theorem Released.mono {d : Deployment} {t u : Recording} (h : Released d t)
    (hfind : u.store.find .deployment (keyOf .deployment d) = t.store.find .deployment (keyOf .deployment d))
    (hwrites : ∀ c ∈ t.writes, c ∈ u.writes) : Released d u := by
  rcases h with hdelete | ⟨stored, hstored, hzero⟩
  · exact .inl (hwrites _ hdelete)
  · exact .inr ⟨stored, hfind.trans hstored, hzero⟩

/-- The loop over the Deployments of a namespace releases every one that is owned. -/
theorem releaseLoop {y : Yanet} (hdisabled : y.spec.enabled = some false) (nodeNames : List String) {ds : List Deployment}
    (hkeys : (ds.map (keyOf .deployment)).Nodup) (s : Recording)
    (hstored : ∀ d ∈ ds, s.store.find .deployment (keyOf .deployment d) = some d) :
    ∃ t, Prog.run Recording.exec (ds.forM (pruneConflictingDeployment y nodeNames)).run s = (.ok (), t) ∧
      (∀ d ∈ ds, controlledByYanet d.metadata y = true → d.metadata.deletionTimestamp = none → Released d t) ∧
      (∀ key ∉ ds.map (keyOf .deployment), t.store.find .deployment key = s.store.find .deployment key) ∧
      ∀ c ∈ s.writes, c ∈ t.writes := by
  induction ds generalizing s with
  | nil =>
    refine ⟨s, rfl, ?_, fun _ _ => rfl, fun _ hc => hc⟩
    intro d hd
    cases hd
  | cons d ds ih =>
    rw [List.map_cons, List.nodup_cons] at hkeys
    rw [List.forall_mem_cons] at hstored
    obtain ⟨hreleased, hother, hwrites⟩ := releaseStep hdisabled nodeNames d s
    have hstored' : ∀ x ∈ ds, (s.afterRelease (releaseWrite y nodeNames d)).store.find .deployment (keyOf .deployment x) =
        some x := by
      intro x hx
      rw [hother _ fun heq => hkeys.1 (heq ▸ List.mem_map_of_mem hx)]
      exact hstored.2 x hx
    obtain ⟨t, ht, hall, hrest, hmore⟩ := ih hkeys.2 _ hstored'
    refine ⟨t, ?_, ?_, fun key hkey => ?_, fun c hc => hmore c (hwrites c hc)⟩
    · rw [List.forM_eq_forM, List.forM_cons, run_tryBind_ok (run_pruneConflictingDeployment s y nodeNames d)]
      exact ht
    · rw [List.forall_mem_cons]
      refine ⟨fun howned hlive => ?_, hall⟩
      exact (hreleased howned hlive hstored.1).mono (hrest _ hkeys.1) hmore
    · rw [List.map_cons, List.mem_cons, not_or] at hkey
      rw [hrest key hkey.2, hother key hkey.1]

/-- The release of a disabled installation reaches every Deployment it owns. -/
theorem pruneConflictingDeployments_releases {y : Yanet} (hdisabled : y.spec.enabled = some false) (nodeNames : List String)
    {s : Recording} (hkeys : ((s.store .deployment).map (keyOf .deployment)).Nodup) :
    ∃ t, Prog.run Recording.exec (pruneConflictingDeployments y nodeNames).run s = (.ok (), t) ∧
      ∀ d ∈ s.store .deployment, controlledByYanet d.metadata y = true → d.metadata.deletionTimestamp = none → Released d t := by
  have hselect : (s.store.select .deployment (some y.metadata.ns) ∅).Sublist (s.store .deployment) := List.filter_sublist
  obtain ⟨t, ht, hall, -, -⟩ := releaseLoop hdisabled nodeNames ((hselect.map _).nodup hkeys) s
    fun d hd => Store.find_of_mem hkeys (hselect.subset hd)
  refine ⟨t, ?_, fun d hd howned hlive => hall d (controlled_listed hd howned) howned hlive⟩
  rw [pruneConflictingDeployments, ExceptT.run_bind, Prog.run_bind, ExceptT.run_mk, Prog.run_bind, run_listObjs]
  exact ht

/-- A blocked pass of a disabled installation ends with every Deployment it owns released. -/
theorem blockedPass_drains (Γ : Platform) {plan : PassPlan} {s : Recording} {y : Yanet} {nodes : List Node}
    (hdisabled : y.spec.enabled = some false) (hsync : plan.autoSync = true)
    (hkeys : ((s.store .deployment).map (keyOf .deployment)).Nodup) {conflict : ExclusiveErr}
    (hverdict : exclusiveVerdict (s.store .deployment) (s.store .yanet) y nodes = .error conflict) :
    ∀ d ∈ s.store .deployment, controlledByYanet d.metadata y = true → d.metadata.deletionTimestamp = none →
      Released d (Prog.run Recording.exec (reconcileNodes Γ y plan nodes) s).2 := by
  have hcleanup : conflict.cleanup = some (cleanupNodeNames (s.store .deployment) (s.store .yanet) y nodes) := by
    unfold exclusiveVerdict at hverdict
    split at hverdict
    · cases hverdict
    · cases hverdict
      rfl
  obtain ⟨t, hstore, hend⟩ := run_blockedPass Γ plan hsync hverdict hcleanup
  rw [← hstore] at hkeys ⊢
  obtain ⟨u, hrun, hreleased⟩ := pruneConflictingDeployments_releases hdisabled
    (cleanupNodeNames (s.store .deployment) (s.store .yanet) y nodes) hkeys
  rw [hstore] at hreleased ⊢
  rw [hend, hrun]
  exact hreleased

/-! ## The drain -/

/-- The pass of a disabled installation asks nobody before it proceeds: on the same nodes the preflight ends the same way and
renders the same workloads whatever the nodes offer and whatever a server answers. Everything it renders has no replicas, and a
pass that is blocked by another installation releases every Deployment it still owns. -/
theorem draining_unblocked (Γ : Platform) (cfg : YanetConfigSpec) (enabled : List ComponentRef) (y : Yanet)
    (hdisabled : y.spec.enabled = some false) :
    let plan := passPlan y cfg enabled
    (∀ nodes nodes', SameNodes nodes nodes' →
      (∃ result, ∀ (σ σ' : Type) (exec : σ → (c : Api.Call) → Api.Answer c × σ) (exec' : σ' → (c : Api.Call) → Api.Answer c × σ')
        (s : σ) (s' : σ'),
        Prog.run exec (preflightResources Γ plan y nodes).run s = (result, s) ∧
          Prog.run exec' (preflightResources Γ plan y nodes').run s' = (result, s')) ∧
      (preflightPlans Γ plan y nodes').map (fun r => (r.1, r.2.map (·.2))) =
        (preflightPlans Γ plan y nodes).map (fun r => (r.1, r.2.map (·.2)))) ∧
    (∀ nodes plans workloads, preflightPlans Γ plan y nodes = .ok (plans, workloads) →
      ∀ p ∈ workloads, ∀ w ∈ p.2, w.deployment.spec.replicas = some 0) ∧
    (∀ ref rc, resolveForPass Γ plan y ref = .ok (some rc) → ∀ (ctx : BuildContext) (registry : PatchRegistry),
      (∀ allocatable, renderDeployments Γ { ctx with nodeAllocatable := allocatable } rc registry =
        renderDeployments Γ ctx rc registry) ∧
      ∀ ds, renderDeployments Γ ctx rc registry = .ok ds → ∀ d ∈ ds, d.spec.replicas = some 0 ∧
        (normalizeDeploymentReplicas d rc.enabled plan.installationEnabled).spec.replicas = some 0) ∧
    ∀ s : Recording, ((s.store .deployment).map (keyOf .deployment)).Nodup →
      (∀ nodeNames, ∃ t, Prog.run Recording.exec (pruneConflictingDeployments y nodeNames).run s = (.ok (), t) ∧
        ∀ d ∈ s.store .deployment, controlledByYanet d.metadata y = true → d.metadata.deletionTimestamp = none → Released d t) ∧
      ∀ nodes conflict, exclusiveVerdict (s.store .deployment) (s.store .yanet) y nodes = .error conflict →
        plan.autoSync = true →
        ∀ d ∈ s.store .deployment, controlledByYanet d.metadata y = true → d.metadata.deletionTimestamp = none →
          Released d (Prog.run Recording.exec (reconcileNodes Γ y plan nodes) s).2 := by
  intro plan
  have hoff : plan.installationEnabled = false := by
    show boolValue y.spec.enabled true = false
    rw [hdisabled]
    rfl
  refine ⟨fun nodes nodes' hnodes => ?_, fun _ _ _ hplans => preflightPlans_zero hoff hplans,
    fun ref rc hrc ctx registry => ?_, fun s hkeys => ⟨fun nodeNames => ?_, fun nodes conflict hverdict hsync => ?_⟩⟩
  · have hsame := preflightPlans_allocatable (Γ := Γ) (y := y) hoff hnodes
    refine ⟨⟨(preflightPlans Γ plan y nodes).map (·.1), fun σ σ' exec exec' s s' => ⟨?_, ?_⟩⟩, hsame⟩
    · rw [preflightResources_disabled hoff]
      rfl
    · have hplans : (preflightPlans Γ plan y nodes').map (·.1) = (preflightPlans Γ plan y nodes).map (·.1) := by
        rcases map_eq_map hsame with ⟨e, hr, hr'⟩ | ⟨r, r', hr, hr', heq⟩
        · rw [hr, hr']
        · rw [hr, hr']
          exact congrArg Except.ok (Prod.ext_iff.1 heq).1
      rw [preflightResources_disabled hoff, hplans]
      rfl
  · have hrc_off := resolveForPass_disabled hoff hrc
    refine ⟨renderDeployments_allocatable hrc_off, fun ds hds d hd => ⟨renderDeployments_disabled hrc_off hds d hd, ?_⟩⟩
    rw [normalizeDeploymentReplicas, hoff, Bool.and_false]
    rfl
  · exact pruneConflictingDeployments_releases hdisabled nodeNames hkeys
  · exact blockedPass_drains Γ hdisabled hsync hkeys hverdict

/-! ## An installation that drains -/

/-- The younger of two installations of a pool, disabled. -/
def drainingYanet : Yanet :=
  { poolYanet "b" 2 2 "edge" with
    spec := { boxType := "edge", nodeSelector := StrMap.of [("pool", "edge")], enabled := some false, autoSync := some true } }

/-- A cluster where it lost its node to the older one, and still runs on a node it no longer selects. -/
def contestedCluster : Recording where
  store
    | .deployment => [workloadOf (poolYanet "a" 1 1 "edge") "node-a", workloadOf drainingYanet "node-b"]
    | .yanet => [poolYanet "a" 1 1 "edge", drainingYanet]
    | _ => []

/-- On a node without hugepages the installation passes the preflight although no inventory can be read, and the blocked pass
releases its Deployment. -/
theorem drainingYanet_released :
    (∀ (σ : Type) (exec : σ → (c : Api.Call) → Api.Answer c × σ) (s : σ),
      (Prog.run exec (preflightResources samplePlatform (passPlan drainingYanet sampleConfig [{ kind := .dataplane }])
        drainingYanet [edgeNode]).run s).1.isOk = true) ∧
    Released (workloadOf drainingYanet "node-b") (Prog.run Recording.exec (reconcileNodes samplePlatform drainingYanet
      (passPlan drainingYanet sampleConfig [{ kind := .dataplane }]) [edgeNode]) contestedCluster).2 := by
  obtain ⟨hpreflight, -, -, hrelease⟩ := draining_unblocked samplePlatform sampleConfig [{ kind := .dataplane }] drainingYanet rfl
  constructor
  · intro σ exec s
    obtain ⟨result, hresult⟩ := (hpreflight [edgeNode] [edgeNode] (.cons rfl .nil)).1
    have hrecorded := (hresult Recording σ Recording.exec exec contestedCluster s).1
    have hok : (Prog.run Recording.exec (preflightResources samplePlatform
        (passPlan drainingYanet sampleConfig [{ kind := .dataplane }]) drainingYanet [edgeNode]).run contestedCluster).1.isOk =
        true := by
      decide +kernel
    rw [hrecorded] at hok
    rw [(hresult σ σ exec exec s s).1]
    exact hok
  · have hconflict : ∃ conflict, exclusiveVerdict (contestedCluster.store .deployment) (contestedCluster.store .yanet)
        drainingYanet [edgeNode] = .error conflict := by
      refine ⟨_, if_neg ?_⟩
      decide +kernel
    obtain ⟨conflict, hverdict⟩ := hconflict
    exact (hrelease contestedCluster (by decide +kernel)).2 [edgeNode] conflict hverdict rfl _
      (List.mem_cons_of_mem _ (List.mem_singleton.2 rfl)) (by decide +kernel) rfl

end YanetOperator
