import YanetOperator.Cluster.Recording
import YanetOperator.Lemmas.Exclusive

/-!
# Conflict resolution leaves the rightful owner

Which installation keeps a node that several have workloads on, whose passes report a conflict, and what a blocked pass releases.
An installation keeps its claim to a node for as long as it has a workload there, also when it no longer selects the node.
-/

namespace YanetOperator

open Prog

/-! ## The release of a blocked pass -/

/-- What `pruneConflictingDeployments` writes for a Deployment. -/
def releaseWrite (y : Yanet) (nodeNames : List String) (d : Deployment) : Option Op :=
  if controlledByYanet d.metadata y = false ∨ d.metadata.deletionTimestamp.isSome = true then none
  else if nodeLabel d.metadata ∉ nodeNames then
    if boolValue y.spec.enabled true = true ∨ d.spec.replicas = some 0 then none else some (.update .deployment (drained d))
  else some (.delete .deployment d true)

/-- The server after a write, if there is one. -/
def Recording.afterRelease (s : Recording) : Option Op → Recording
  | none => s
  | some c => s.after c

theorem run_pruneConflictingDeployment (s : Recording) (y : Yanet) (nodeNames : List String) (d : Deployment) :
    run Recording.exec (pruneConflictingDeployment y nodeNames d).run s =
      (.ok (), s.afterRelease (releaseWrite y nodeNames d)) := by
  unfold pruneConflictingDeployment releaseWrite
  split
  · rfl
  · split
    · split
      · rfl
      · rw [run_tryBind_ok (run_checkGlobalStop s)]
        rfl
    · rw [run_tryBind_ok (run_checkGlobalStop s)]
      rfl

/-- A release is a write of a Deployment. -/
theorem afterRelease_writes (s : Recording) (y : Yanet) (nodeNames : List String) (d : Deployment) :
    (s.afterRelease (releaseWrite y nodeNames d)).writes = s.writes ++ (releaseWrite y nodeNames d).toList := by
  unfold releaseWrite
  split
  · simp [Recording.afterRelease]
  · split
    · split
      · simp [Recording.afterRelease]
      · rfl
    · rfl

theorem run_releaseLoop (y : Yanet) (nodeNames : List String) (ds : List Deployment) (s : Recording) :
    ∃ t, run Recording.exec (ds.forM (pruneConflictingDeployment y nodeNames)).run s = (.ok (), t) ∧
      t.writes = s.writes ++ ds.filterMap (releaseWrite y nodeNames) := by
  induction ds generalizing s with
  | nil => exact ⟨s, rfl, by simp⟩
  | cons d ds ih =>
    obtain ⟨t, ht, hwrites⟩ := ih (s.afterRelease (releaseWrite y nodeNames d))
    refine ⟨t, ?_, ?_⟩
    · rw [List.forM_eq_forM, List.forM_cons, run_tryBind_ok (run_pruneConflictingDeployment s y nodeNames d)]
      exact ht
    · rw [hwrites, afterRelease_writes, List.append_assoc, List.filterMap_cons]
      cases releaseWrite y nodeNames d <;> rfl

/-- The release writes for every Deployment of the namespace. -/
theorem run_pruneConflictingDeployments (s : Recording) (y : Yanet) (nodeNames : List String) :
    ∃ t, run Recording.exec (pruneConflictingDeployments y nodeNames).run s = (.ok (), t) ∧
      t.writes = s.writes ++
        (s.store.select .deployment (some y.metadata.ns) ∅).filterMap (releaseWrite y nodeNames) := by
  obtain ⟨t, ht, hwrites⟩ := run_releaseLoop y nodeNames (s.store.select .deployment (some y.metadata.ns) ∅) s
  refine ⟨t, ?_, hwrites⟩
  rw [pruneConflictingDeployments, ExceptT.run_bind, run_bind, ExceptT.run_mk, run_bind, run_listObjs]
  exact ht

/-- Reporting a degraded status leaves the Deployments. -/
theorem run_updateStatus_degraded (s : Recording) (y : Yanet) (reason message : String) :
    ∃ r t, run Recording.exec (updateStatus y (degraded reason message)).run s = (r, t) ∧
      t.store .deployment = s.store .deployment := by
  cases hget : s.store.get .yanet (keyOf .yanet y) with
  | error e =>
    have hreason : e.reason = .notFound := by
      unfold Store.get at hget
      split at hget
      · cases hget
      · cases hget
        rfl
    have honce : run Recording.exec (updateStatusOnce y (degraded reason message)).run s = (.error (.api e), s) := by
      refine run_tryBind_error ?_
      rw [run_getObj, hget]
      rfl
    refine ⟨_, s, run_retryOnConflict_error honce ?_ _, rfl⟩
    simp [Err.api, hreason]
  | ok fresh =>
    let written : Yanet := { (fresh : Yanet) with status := setConditionsDegraded fresh 0 reason message }
    have hread : run Recording.exec (getObj .yanet (keyOf .yanet y)).run s = (.ok fresh, s) := by
      rw [run_getObj, hget]
      rfl
    have hmutate : run Recording.exec (ExceptT.lift (ε := Err) (degraded reason message fresh)).run s =
        (.ok (setConditionsDegraded fresh 0 reason message), s) := rfl
    by_cases hsame : fresh.status = setConditionsDegraded fresh 0 reason message
    · refine ⟨.ok (), s, run_retryOnConflict ?_ _, rfl⟩
      rw [updateStatusOnce, run_tryBind_ok hread, run_tryBind_ok hmutate, if_pos hsame]
      rfl
    · refine ⟨.ok (), s.after (.updateStatus written), run_retryOnConflict ?_ _, ?_⟩
      · rw [updateStatusOnce, run_tryBind_ok hread, run_tryBind_ok hmutate, if_neg hsame,
          run_tryBind_ok (run_checkGlobalStop s)]
        rfl
      · show s.store.put .yanet written .deployment = s.store .deployment
        exact Store.put_other (by decide)

/-! ## The verdict of a pass -/

/-- The nodes an installation selects. -/
def selectedNodes (allNodes : List Node) (y : Yanet) : List Node :=
  allNodes.filter fun n => matchesLabels y.spec.nodeSelector n.metadata.labels

section
variable (deployments : List Deployment) (installations : List Yanet) (allNodes : List Node)

/-- The pass of an installation reports a conflict. -/
def ReportsConflict (y : Yanet) : Prop :=
  ∃ e, exclusiveVerdict deployments installations y (selectedNodes allNodes y) = .error e

/-- The nodes the conflict of a pass asks to release. -/
def conflictCleanup (y : Yanet) : List String :=
  match exclusiveVerdict deployments installations y (selectedNodes allNodes y) with
  | .ok () => []
  | .error e => e.cleanup.getD []

/-- The installations with a workload on a node. -/
def Incumbent (n : Node) (w : Yanet) : Prop := w ∈ installations ∧ hasWorkload deployments w n.metadata.name = true

end

section
variable {deployments : List Deployment} {installations : List Yanet} {allNodes : List Node} {y : Yanet} {n : Node}

theorem reportsConflict_iff : ReportsConflict deployments installations allNodes y ↔
    nodeConflicts deployments installations y (selectedNodes allNodes y) ≠ [] := by
  unfold ReportsConflict exclusiveVerdict
  split
  · next h => simp [h]
  · next h => simp [h]

theorem reportsConflict_of {other : Yanet} (hother : other ∈ installations) (hne : keyOf .yanet other ≠ keyOf .yanet y)
    (hn : n ∈ selectedNodes allNodes y) (h : nodeConflict deployments y other n = true) :
    ReportsConflict deployments installations allNodes y := by
  rw [reportsConflict_iff]
  exact List.ne_nil_of_mem (mem_nodeConflicts.2 ⟨hother, hne, hn, h⟩)

theorem mem_conflictCleanup {name : String} : name ∈ conflictCleanup deployments installations allNodes y ↔
    ReportsConflict deployments installations allNodes y ∧
      name ∈ cleanupNodeNames deployments installations y (selectedNodes allNodes y) := by
  rw [reportsConflict_iff]
  unfold conflictCleanup exclusiveVerdict
  by_cases h : nodeConflicts deployments installations y (selectedNodes allNodes y) = []
  · simp [h]
  · simp [h]

/-- An incumbent that selects the node releases it exactly when another incumbent precedes it. -/
theorem incumbent_releases_iff (hkeys : (installations.map (keyOf .yanet)).Nodup)
    (hslash : ∀ w ∈ installations, '/' ∉ w.metadata.ns.toList) (hy : Incumbent deployments installations n y)
    (hn : n ∈ selectedNodes allNodes y) :
    n.metadata.name ∈ conflictCleanup deployments installations allNodes y ↔
      ∃ w, Incumbent deployments installations n w ∧ yanetPrecedes w y = true := by
  rw [mem_conflictCleanup, mem_cleanupNodeNames]
  constructor
  · rintro ⟨-, ⟨other, hother, hne, node, -, hname, -, hwork, hloses⟩ | ⟨-, -, -, -, hnot⟩⟩
    · -- a lost node: the other has a workload there, so the order decides
      rw [hname] at hwork
      cases hothers : hasWorkload deployments other node.metadata.name with
      | false => rw [currentWins_alone (hname ▸ hwork) hothers] at hloses; cases hloses
      | true =>
        rw [currentWins_both (hname ▸ hwork) hothers] at hloses
        have htotal := yanetPrecedes_total (hslash y hy.1) (hslash other hother) (Ne.symm hne)
        rw [hloses] at htotal
        exact ⟨other, ⟨hother, hname ▸ hothers⟩, htotal.resolve_left Bool.false_ne_true⟩
    · exact absurd (List.mem_map_of_mem hn) hnot
  · rintro ⟨w, ⟨hw, hworkload⟩, hprecedes⟩
    have hne : keyOf .yanet w ≠ keyOf .yanet y := by
      intro h
      have hwy := List.inj_on_of_nodup_map hkeys hw hy.1 h
      rw [hwy, yanetPrecedes_irrefl] at hprecedes
      cases hprecedes
    have hloses : currentWins deployments y w n = false := by
      rw [currentWins_both hy.2 hworkload, ← Bool.not_eq_true]
      intro h
      have := yanetPrecedes_trans h hprecedes
      rw [yanetPrecedes_irrefl] at this
      cases this
    have hconflict := nodeConflict_of_workload hworkload hloses
    exact ⟨reportsConflict_of hw hne hn hconflict, .inl ⟨w, hw, hne, n, hn, rfl, hconflict, hy.2, hloses⟩⟩

/-- An installation without a workload on a node it selects is in conflict with every incumbent. -/
theorem newcomer_conflicts {w : Yanet} (hkeys : (installations.map (keyOf .yanet)).Nodup) (hy : y ∈ installations)
    (hno : ¬Incumbent deployments installations n y) (hn : n ∈ selectedNodes allNodes y)
    (hw : Incumbent deployments installations n w) : ReportsConflict deployments installations allNodes y := by
  have hwork : hasWorkload deployments y n.metadata.name = false := by
    rw [← Bool.not_eq_true]
    exact fun h => hno ⟨hy, h⟩
  have hne : keyOf .yanet w ≠ keyOf .yanet y := fun h => hno (List.inj_on_of_nodup_map hkeys hw.1 hy h ▸ hw)
  exact reportsConflict_of hw.1 hne hn (nodeConflict_of_workload hw.2 (currentWins_without hwork hw.2))

/-- Every node with a workload that the installation no longer selects is released with a conflict. -/
theorem former_released (hconflict : ReportsConflict deployments installations allNodes y) {d : Deployment}
    (hd : d ∈ deployments) (hcontrolled : controlledByYanet d.metadata y = true)
    (hformer : nodeLabel d.metadata ∉ (selectedNodes allNodes y).map (·.metadata.name)) :
    nodeLabel d.metadata ∈ conflictCleanup deployments installations allNodes y :=
  mem_conflictCleanup.2 ⟨hconflict, mem_cleanupNodeNames.2 (.inr ⟨d, hd, rfl, hcontrolled, hformer⟩)⟩

end

/-! ## A blocked pass -/

theorem select_all (store : Store) (k : Kind) : store.select k none ∅ = store k := by
  simp [Store.select, matchesLabels]

theorem run_validateExclusiveNodes (s : Recording) (y : Yanet) (nodes : List Node) :
    run Recording.exec (validateExclusiveNodes y nodes) s =
      (exclusiveVerdict (s.store .deployment) (s.store .yanet) y nodes, s) := by
  unfold validateExclusiveNodes
  split
  · next h =>
    have hnone : nodeConflicts (s.store .deployment) (s.store .yanet) y nodes = [] := by simp [nodeConflicts, h]
    rw [exclusiveVerdict, if_pos hnone]
    rfl
  · rw [run_bind, run_listObjs, select_all]
    dsimp only
    rw [run_bind, run_listObjs, select_all]
    rfl

/-- A blocked pass with automatic synchronisation ends as the release does, on a server with the same Deployments. -/
theorem run_blockedPass (Γ : Platform) (plan : PassPlan) {s : Recording} {y : Yanet} {nodes : List Node}
    {conflict : ExclusiveErr} {nodeNames : List String} (hsync : plan.autoSync = true)
    (hverdict : exclusiveVerdict (s.store .deployment) (s.store .yanet) y nodes = .error conflict)
    (hcleanup : conflict.cleanup = some nodeNames) :
    ∃ t : Recording, t.store .deployment = s.store .deployment ∧
      (run Recording.exec (reconcileNodes Γ y plan nodes) s).2 =
        (run Recording.exec (pruneConflictingDeployments y nodeNames).run t).2 := by
  obtain ⟨r, t, hstatus, hstore⟩ := run_updateStatus_degraded s y "NodeSelectionConflict" conflict.err.text
  obtain ⟨u, hrelease, -⟩ := run_pruneConflictingDeployments t y nodeNames
  refine ⟨t, hstore, ?_⟩
  unfold reconcileNodes
  rw [run_bind, run_validateExclusiveNodes, hverdict]
  dsimp only
  rw [run_bind, run_recordEvent, run_bind, hstatus, hcleanup, hsync]
  dsimp only
  rw [if_pos rfl, run_bind, hrelease]
  rfl

/-- The release lists the Deployments of the installation. -/
theorem controlled_listed {store : Store} {y : Yanet} {d : Deployment} (hd : d ∈ store .deployment)
    (hcontrolled : controlledByYanet d.metadata y = true) : d ∈ store.select .deployment (some y.metadata.ns) ∅ := by
  unfold controlledByYanet at hcontrolled
  rw [Bool.and_eq_true, decide_eq_true_eq] at hcontrolled
  rw [Store.mem_select]
  refine ⟨hd, fun n hn => ?_, by simp [matchesLabels]⟩
  rw [← Option.some.inj hn]
  exact hcontrolled.1.symm

/-- A blocked pass with automatic synchronisation deletes the Deployments on the nodes to release. -/
theorem blockedPass_releases (Γ : Platform) (plan : PassPlan) {s : Recording} {y : Yanet} {nodes : List Node}
    {conflict : ExclusiveErr} {nodeNames : List String} (hsync : plan.autoSync = true)
    (hverdict : exclusiveVerdict (s.store .deployment) (s.store .yanet) y nodes = .error conflict)
    (hcleanup : conflict.cleanup = some nodeNames) {d : Deployment} (hd : d ∈ s.store .deployment)
    (hcontrolled : controlledByYanet d.metadata y = true) (hlive : d.metadata.deletionTimestamp = none)
    (hnode : nodeLabel d.metadata ∈ nodeNames) :
    .delete .deployment d true ∈ (run Recording.exec (reconcileNodes Γ y plan nodes) s).2.writes := by
  obtain ⟨t, hstore, hend⟩ := run_blockedPass Γ plan hsync hverdict hcleanup
  obtain ⟨u, hrelease, hwrites⟩ := run_pruneConflictingDeployments t y nodeNames
  have hwrite : releaseWrite y nodeNames d = some (.delete .deployment d true) := by
    simp [releaseWrite, hcontrolled, hlive, hnode]
  rw [hend, hrelease, hwrites]
  exact List.mem_append_right _ (List.mem_filterMap.2 ⟨d, controlled_listed (hstore ▸ hd) hcontrolled, hwrite⟩)

/-! ## Whose passes conflict -/

/-- The order of installations is strict and total, the first incumbent of a node keeps it, every other incumbent that selects the
node releases it, a newcomer waits, and a blocked pass releases its former nodes. -/
theorem nodeOwnership_resolved (deployments : List Deployment) (installations : List Yanet) (allNodes : List Node)
    (hkeys : (installations.map (keyOf .yanet)).Nodup)
    (hslash : ∀ w ∈ installations, '/' ∉ w.metadata.ns.toList ∧ '/' ∉ w.metadata.name.toList) :
    ((∀ a, yanetPrecedes a a = false) ∧
      (∀ a b c, yanetPrecedes a b = true → yanetPrecedes b c = true → yanetPrecedes a c = true) ∧
      ∀ a ∈ installations, ∀ b ∈ installations, a ≠ b → yanetPrecedes a b = true ∨ yanetPrecedes b a = true) ∧
    (∀ y ∈ installations, ∀ n ∈ selectedNodes allNodes y,
      (Incumbent deployments installations n y →
        (n.metadata.name ∈ conflictCleanup deployments installations allNodes y ↔
          ∃ w, Incumbent deployments installations n w ∧ yanetPrecedes w y = true) ∧
        (n.metadata.name ∈ conflictCleanup deployments installations allNodes y →
          ReportsConflict deployments installations allNodes y)) ∧
      (¬Incumbent deployments installations n y → (∃ w, Incumbent deployments installations n w) →
        ReportsConflict deployments installations allNodes y)) ∧
    ∀ y ∈ installations, ReportsConflict deployments installations allNodes y →
      ∀ d ∈ deployments, controlledByYanet d.metadata y = true →
        nodeLabel d.metadata ∉ (selectedNodes allNodes y).map (·.metadata.name) →
        nodeLabel d.metadata ∈ conflictCleanup deployments installations allNodes y ∧
          ∀ (Γ : Platform) (plan : PassPlan) (s : Recording), s.store .deployment = deployments →
            s.store .yanet = installations → plan.autoSync = true → d.metadata.deletionTimestamp = none →
            .delete .deployment d true ∈
              (run Recording.exec (reconcileNodes Γ y plan (selectedNodes allNodes y)) s).2.writes := by
  have hns : ∀ w ∈ installations, '/' ∉ w.metadata.ns.toList := fun w hw => (hslash w hw).1
  refine ⟨⟨yanetPrecedes_irrefl, fun _ _ _ => yanetPrecedes_trans, fun a ha b hb hab => ?_⟩, fun y hy n hn => ⟨fun hinc => ?_, ?_⟩,
    fun y _ hconflict d hd hcontrolled hformer => ?_⟩
  · exact yanetPrecedes_total (hns a ha) (hns b hb) fun h => hab (List.inj_on_of_nodup_map hkeys ha hb h)
  · exact ⟨incumbent_releases_iff hkeys hns hinc hn, fun h => (mem_conflictCleanup.1 h).1⟩
  · rintro hno ⟨w, hw⟩
    exact newcomer_conflicts hkeys hy hno hn hw
  · have hreleased := former_released hconflict hd hcontrolled hformer
    refine ⟨hreleased, fun Γ plan s hdeployments hyanets hsync hlive => ?_⟩
    obtain ⟨e, he⟩ := hconflict
    unfold conflictCleanup at hreleased
    rw [he] at hreleased
    cases hcleanup : e.cleanup with
    | none => simp [hcleanup] at hreleased
    | some nodeNames =>
      refine blockedPass_releases Γ plan hsync (by rw [hdeployments, hyanets, he]) hcleanup (hdeployments ▸ hd) hcontrolled
        hlive ?_
      simpa [hcleanup] using hreleased

/-! ## Two incumbents -/

/-- An installation of an age that selects the nodes of a pool. -/
def poolYanet (name : String) (uid created : Nat) (pool : String) : Yanet :=
  { metadata := { ns := "yanet", name := name, uid := uid, creationTimestamp := created }
    spec := { nodeSelector := StrMap.of [("pool", pool)] } }

/-- A workload of an installation on a node. -/
def workloadOf (y : Yanet) (node : String) : Deployment :=
  { metadata := { ns := y.metadata.ns, name := y.metadata.name ++ "-controlplane", labels := StrMap.of [(labelNode, node)]
                  ownerReferences := [controllerRef y] } }

/-- A node of the pool `edge`. -/
def edgeNode : Node := { metadata := { name := "node-a", labels := StrMap.of [("pool", "edge")] } }

/-- The younger of two incumbents that select a node releases it. -/
theorem youngerIncumbent_releases :
    let a := poolYanet "a" 1 1 "edge"
    let b := poolYanet "b" 2 2 "edge"
    "node-a" ∈ conflictCleanup [workloadOf a "node-a", workloadOf b "node-a"] [a, b] [edgeNode] b := by
  intro a b
  have hresolved := nodeOwnership_resolved [workloadOf a "node-a", workloadOf b "node-a"] [a, b] [edgeNode]
    (by decide +kernel) (by decide +kernel)
  have hincumbent := (hresolved.2.1 b (by simp) edgeNode (by decide +kernel)).1 ⟨by simp, by decide +kernel⟩
  exact hincumbent.1.2 ⟨a, ⟨by simp, by decide +kernel⟩, by decide +kernel⟩

/-- Of two incumbents only the younger selects the node, and still its pass is asked to release it: the older one keeps its claim
while its workload is there. -/
theorem selectingIncumbent_released :
    let a := poolYanet "a" 1 1 "core"
    let b := poolYanet "b" 2 2 "edge"
    let deployments := [workloadOf a "node-a", workloadOf b "node-a"]
    Incumbent deployments [a, b] edgeNode b ∧ edgeNode ∈ selectedNodes [edgeNode] b ∧
      (∀ w, Incumbent deployments [a, b] edgeNode w → edgeNode ∈ selectedNodes [edgeNode] w → w ≠ b → yanetPrecedes b w = true) ∧
      "node-a" ∈ conflictCleanup deployments [a, b] [edgeNode] b := by
  intro a b deployments
  refine ⟨⟨by simp, by decide +kernel⟩, by decide +kernel, fun w hw hselects hne => ?_, by decide +kernel⟩
  have hw' : w = a := by
    have := hw.1
    simp only [List.mem_cons, List.not_mem_nil, or_false] at this
    exact this.resolve_right hne
  subst hw'
  exact absurd hselects (by decide +kernel)

end YanetOperator
