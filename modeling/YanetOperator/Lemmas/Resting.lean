import YanetOperator.Lemmas.Converging
import YanetOperator.Lemmas.Sweep
import YanetOperator.Theorems.ReportOnlyMode

/-!
# An installation at rest

An installation is at rest when its plan is in order, nothing else of it is stored, and no other installation claims its nodes. A pass
in applying mode then changes no Deployment and no ConfigMap, whatever its update window, and the status it writes leaves the
installation at rest.
-/

namespace YanetOperator

open Prog hiding pure

/-! ## A plan in order is left alone -/

section

variable {N : Normalization} {s : Server} {Γ : Platform} {plan : PassPlan} {y : Yanet} {nodes : List Node} {node : Node}
  {ctx : BuildContext} {ref : ComponentRef} {rc : ResolvedComponent} {d : Deployment}

theorem still_applyDeployment (hstop : s.config.stop = false) (h : Realizes N s.store d) (window : Int) (host : String) :
    Decided N s True (applyDeployment d true window host) := by
  obtain ⟨stored, hfound, hdrift, howned⟩ := h
  have hget : run (Server.exec N) (issue (.get .deployment (keyOf .deployment d))) s = (.ok stored, s) :=
    Server.exec_get (N := N) hfound
  have hidle : changes (Server.exec N) (issue (.get .deployment (keyOf .deployment d))) s = [] := (idle_issue rfl).changes_eq s
  have honce := run_updateDeploymentOnce (N := N) hfound howned hstop true window host
  refine ⟨iff_true_intro ?_, fun _ => ?_⟩
  · rw [applyDeployment, changes_bind_of hidle hget]
    dsimp only
    rw [howned]
    dsimp only
    rw [changes_bind, run_retryOnConflict honce, changes_retryOnConflict honce,
      changes_updateDeploymentOnce_synced hfound howned hstop hdrift]
    rfl
  · rw [run_applyDeployment hfound howned hstop, applied_of_not_drifts hdrift]

theorem still_applyRendered (hmode : plan.autoSync = true) (hstop : s.config.stop = false) (h : Realizes N s.store d)
    (isControlplane configDrift : Bool) (acc : LoopState × NodeStatus) :
    Decided N s True (applyRendered plan node isControlplane configDrift acc d) := by
  unfold applyRendered
  rw [hmode]
  refine (still_applyDeployment hstop h plan.updateWindow node.metadata.name).bind_idle fun outcome => ?_
  dsimp only
  split
  · exact (idle_recordEvent _ _).bind fun _ => trivial
  · trivial

theorem inlineFate_kept (h : ∀ name content, (name, content) ∈ (inlineConfigMaps Γ ctx rc).toList →
    configMapFate s.store y ctx rc.toResolvedRole name content = .kept) : inlineFate Γ s.store y ctx rc = .kept := by
  unfold inlineFate
  rw [List.find?_eq_none.2]
  · rfl
  · intro fate hfate
    obtain ⟨e, he, rfl⟩ := List.mem_map.1 hfate
    simp [h e.1 e.2 he]

theorem still_applyComponent (hmode : plan.autoSync = true) (hstop : s.config.stop = false)
    (h : ∀ i ∈ RefItem Γ plan y ctx ref, i.Holds N y s) (acc : LoopState × NodeStatus) :
    Decided N s True (applyComponent Γ plan y node ctx acc ref) := by
  unfold applyComponent
  dsimp only
  cases hrc : resolveForPass Γ plan y ref with
  | error e => exact Idle.decided trivial
  | ok o =>
    cases o with
    | none => exact Idle.decided trivial
    | some rc =>
      dsimp only
      by_cases hcol : rc.isColocated = true
      · rw [if_pos hcol]
        exact Idle.decided trivial
      · rw [if_neg hcol, hmode]
        have hitem (i : Item) (hi : ComponentItem Γ plan ctx rc i) : i.Holds N y s := h i ⟨rc, hrc, by simpa using hcol, hi⟩
        have hinline := @applyInlineConfigMaps_meets N s Γ y ctx hstop rc
        rw [inlineFate_kept fun name content he => hitem _ (.configMap name content he)] at hinline
        cases hinline with
        | kept hchanges hrun =>
          have hfirst : Decided N s True (applyInlineConfigMaps Γ y ctx rc true).run :=
            ⟨iff_true_intro hchanges, fun _ => by rw [hrun]⟩
          refine (hfirst.bind (Q := True) fun _ => ?_).congr (iff_of_eq (and_self True))
          rw [hrun]
          dsimp only
          cases hds : renderDeployments Γ ctx rc (newPatchRegistry plan.cfg.patches) with
          | error e => exact Idle.decided trivial
          | ok ds =>
            refine (Decided.foldlM (P := fun _ => True) (fun d hd acc => ?_) _).congr (by simp)
            obtain ⟨d₀, hd₀, rfl⟩ := List.mem_map.1 hd
            exact still_applyRendered hmode hstop (hitem _ (.deployment ds d₀ hds hd₀)) _ _ acc

/-- The apply loop of an accepted plan that is in order. -/
theorem still_applyNodes (hmode : plan.autoSync = true) (hstop : s.config.stop = false) (haccepted : PlanAccepted Γ plan y nodes)
    (h : ∀ i ∈ PlanItem Γ plan y nodes, i.Holds N y s) : Decided N s True (nodes.foldlM (applyNode Γ plan y) {}).run := by
  refine (Decided.tryFoldlM (P := fun _ => True) (fun node hnode st => ?_) _).congr (by simp)
  obtain ⟨ctx, hctx, -⟩ := haccepted.renders node hnode
  unfold applyNode
  rw [hctx]
  dsimp only
  have hloop := Decided.foldlM (P := fun _ => True) (f := applyComponent Γ plan y node ctx) (l := plan.enabled)
    (fun ref href acc => still_applyComponent hmode hstop (fun i hi => h i ⟨node, hnode, ctx, hctx, ref, href, hi⟩) acc)
    (st, { nodeName := node.metadata.name })
  constructor
  · refine (Decided.bind_idle (Decided.bind_idle hloop fun acc => ?_) fun r => ?_).congr (by simp)
    · trivial
    · cases r <;> trivial
  · rw [ExceptT.run_bind, run_bind, ExceptT.run_lift, map_eq_pure_bind, run_bind]
    exact ⟨_, rfl⟩

/-- A prune of what has been swept. -/
theorem Swept.leaves {desired : DesiredSet} (h : Swept y desired s.store) :
    changes (Server.exec N) (pruneOrphans y desired true) s = [] ∧ (run (Server.exec N) (pruneOrphans y desired true) s).2 = s := by
  refine pruneOrphans_leaves (fun d hd st => ?_) fun c hc st => ?_
  · exact pruneDeployment_fine (h.deployments d hd) st
  · exact pruneConfigMap_fine (h.configMaps c hc) st

end

/-! ## Parts that write the status -/

/-- A part of a pass changes no workload, and of the rest only the status of the installation. -/
structure Closes (N : Normalization) (key : Key) (y : Yanet) (s : Server) {α : Type} (p : Pass α) : Prop where
  unchanged : changes (Server.exec N) p s = []
  restamps : ∃ y', Restamps key y y' s (run (Server.exec N) p s).2

section

variable {N : Normalization} {key : Key} {s : Server} {y z : Yanet} {α β : Type}

theorem Decided.bind_closes {p : Pass α} {f : α → Pass β} (hp : Decided N s True p)
    (hf : Closes N key y s (f (run (Server.exec N) p s).1)) : Closes N key y s (p >>= f) := by
  have hstate := hp.unchanged trivial
  constructor
  · rw [changes_bind, hp.changes_iff.2 trivial, hstate]
    exact hf.unchanged
  · rw [run_bind, hstate]
    exact hf.restamps

theorem Closes.bind_idle {p : Pass α} {f : α → Pass β} (hp : Closes N key y s p) (hf : ∀ a, Idle (f a)) :
    Closes N key y s (p >>= f) := by
  constructor
  · rw [changes_bind, hp.unchanged, (hf _).changes_eq]
    rfl
  · rw [run_bind, (hf _).run_server]
    exact hp.restamps

/-- A status that is computed without a write. -/
theorem closes_updateStatus {mutate : Yanet → Pass YanetStatus} (hkey : keyOf .yanet z = key)
    (hfound : s.store.find .yanet key = some y) (hstop : s.config.stop = false) (hm : ∀ fresh, ReadsOnly (mutate fresh))
    {status : YanetStatus} (hrun : run (Server.exec N) (mutate y) s = (status, s)) :
    Closes N key y s (updateStatus z mutate).run := by
  subst hkey
  obtain ⟨t, y', hrun, hrestamps, -⟩ := run_updateStatus hfound hstop hrun
  refine ⟨(quiet_updateStatus z hm (y := y)).changes_eq s, y', ?_⟩
  rw [hrun]
  exact hrestamps

theorem closes_storeStatus (hkey : keyOf .yanet z = key) (hfound : s.store.find .yanet key = some y) (hstop : s.config.stop = false)
    (status : YanetStatus) : Closes N key y s (updateStatus z fun _ => pure status).run :=
  closes_updateStatus hkey hfound hstop (fun _ _ => trivial) rfl

theorem closes_reportFailure (hkey : keyOf .yanet z = key) (hfound : s.store.find .yanet key = some y)
    (hstop : s.config.stop = false) (e : Err) : Closes N key y s (reportFailure z e) := by
  refine (Idle.decided (idle_issue rfl)).bind_closes ?_
  exact (closes_storeStatus hkey hfound hstop _).bind_idle fun r => trivial

theorem closes_reportSuccess (hkey : keyOf .yanet z = key) (hfound : s.store.find .yanet key = some y)
    (hstop : s.config.stop = false) (plan : PassPlan) (st : LoopState) (retained : List String) :
    Closes N key y s (reportSuccess z plan st retained) := by
  refine (Idle.decided (idle_issue rfl)).bind_closes ?_
  dsimp only
  split
  · rw [LawfulMonad.pure_bind]
    refine Closes.bind_idle (closes_storeStatus ?_ hfound hstop _) fun r => ?_
    · exact hkey
    cases r with
    | error e => trivial
    | ok u =>
      dsimp only
      split <;> trivial
  · refine (Idle.decided (idle_issue rfl)).bind_closes ?_
    rw [LawfulMonad.pure_bind]
    refine Closes.bind_idle (closes_storeStatus ?_ hfound hstop _) fun r => ?_
    · exact hkey
    cases r with
    | error e => trivial
    | ok u =>
      dsimp only
      split <;> trivial

/-- The end of a pass in applying mode whose prune has nothing to do. -/
theorem closes_finishPass {plan : PassPlan} {services : StrMap ServicePlan} {st : LoopState} (hkey : keyOf .yanet y = key)
    (hfound : s.store.find .yanet key = some y) (hstop : s.config.stop = false) (hmode : plan.autoSync = true)
    (h : st.errs = [] → changes (Server.exec N) (pruneOrphans y st.desired true) s = [] ∧
      (run (Server.exec N) (pruneOrphans y st.desired true) s).2 = s) :
    Closes N key y s (finishPass y plan services st) := by
  unfold finishPass
  refine (Idle.decided (idle_collectPods y)).bind_closes ?_
  rw [run_collectPods]
  dsimp only
  rw [List.append_nil]
  cases hj : Err.join st.errs with
  | some e => exact closes_reportFailure (z := observedStatus y _ _ _) hkey hfound hstop e
  | none =>
    obtain ⟨hunchanged, hsame⟩ := h (Err.join_eq_none.1 hj)
    dsimp only
    rw [hmode]
    refine Decided.bind_closes ⟨iff_true_intro hunchanged, fun _ => hsame⟩ ?_
    generalize (run (Server.exec N) (pruneOrphans y st.desired true) s).1 = r
    obtain ⟨pruned, err⟩ := r
    dsimp only
    split
    · refine (Idle.decided (idle_recordEvent _ _)).bind_closes ?_
      cases err with
      | some e => exact closes_reportFailure (z := observedStatus y _ _ _) hkey hfound hstop _
      | none => exact closes_reportSuccess (z := observedStatus y _ _ _) hkey hfound hstop plan _ _
    · cases err with
      | some e => exact closes_reportFailure (z := observedStatus y _ _ _) hkey hfound hstop _
      | none => exact closes_reportSuccess (z := observedStatus y _ _ _) hkey hfound hstop plan _ _

end

/-! ## At rest -/

/-- No other installation selects a node of this one or has a workload there. -/
def Uncontested (s : Server) (y : Yanet) : Prop :=
  ∀ other ∈ s.store .yanet, keyOf .yanet other ≠ keyOf .yanet y → ∀ node ∈ s.nodesOf y,
    claimsNode (s.store .deployment) other node = false

/-- A live installation in applying mode whose plan is in order, with nothing else stored for it. -/
structure Resting (N : Normalization) (Γ : Platform) (key : Key) (cfg : YanetConfigSpec) (enabled : List ComponentRef) (y : Yanet)
    (s : Server) : Prop where
  found : s.store.find .yanet key = some y
  live : y.metadata.deletionTimestamp = none
  mode : boolValue y.spec.autoSync false = true
  selects : s.Selects Γ y cfg enabled
  uncontested : Uncontested s y
  held : ∀ i ∈ PlanItem Γ (passPlan y cfg enabled) y (s.nodesOf y), i.Holds N y s
  swept : ∀ desired : DesiredSet, desired.IsPlan Γ (passPlan y cfg enabled) y (s.nodesOf y) → Swept y desired s.store

section

variable {N : Normalization} {Γ : Platform} {key : Key} {cfg : YanetConfigSpec} {enabled : List ComponentRef} {y y' : Yanet}
  {s t : Server}

theorem hasWorkload_eq_false {deployments : List Deployment} {other : Yanet} {nodeName : String} :
    hasWorkload deployments other nodeName = false ↔ ∀ d ∈ deployments, d.metadata.ns = other.metadata.ns →
      nodeLabel d.metadata = nodeName → controlledByYanet d.metadata other = false := by
  simp [hasWorkload, List.any_eq_false]

theorem claimsNode_eq_false {deployments : List Deployment} {other : Yanet} {node : Node} :
    claimsNode deployments other node = false ↔ hasWorkload deployments other node.metadata.name = false ∧
      matchesLabels other.spec.nodeSelector node.metadata.labels = false := by
  simp [claimsNode]

theorem Uncontested.exclusive (h : Uncontested s y) :
    run (Server.exec N) (validateExclusiveNodes y (s.nodesOf y)) s = (.ok (), s) := by
  have hnone : nodeConflicts (s.store.select .deployment none ∅) (s.store.select .yanet none ∅) y (s.nodesOf y) = [] := by
    refine List.flatMap_eq_nil_iff.2 fun other hother => ?_
    obtain ⟨hother, hne⟩ := List.mem_filter.1 hother
    rw [List.map_eq_nil_iff, List.filter_eq_nil_iff]
    intro node hnode
    obtain ⟨hwork, hlabels⟩ := claimsNode_eq_false.1
      (h other (Store.mem_select.1 hother).1 (by simpa using hne) node hnode)
    have hwork : hasWorkload (s.store.select .deployment none ∅) other node.metadata.name = false :=
      hasWorkload_eq_false.2 fun d hd => hasWorkload_eq_false.1 hwork d (Store.mem_select.1 hd).1
    simp [nodeConflict, claimsNode_eq_false.2 ⟨hwork, hlabels⟩]
  have hyanets : run (Server.exec N) (listObjs .yanet none ∅).run s = (.ok (s.store.select .yanet none ∅), s) := rfl
  have hds : run (Server.exec N) (listObjs .deployment none ∅).run s = (.ok (s.store.select .deployment none ∅), s) := rfl
  unfold validateExclusiveNodes
  split
  · rfl
  · rw [run_bind, hyanets]
    dsimp only
    rw [run_bind, hds]
    dsimp only
    rw [exclusiveVerdict, if_pos hnone]
    rfl

theorem Server.nodesOf_congr (h : t.store .node = s.store .node) (y : Yanet) : t.nodesOf y = s.nodesOf y := by
  unfold Server.nodesOf Store.select
  rw [h]

theorem Server.Selects.congr (h : s.Selects Γ y cfg enabled) (hconfig : t.config = s.config)
    (hstore : t.store .yanetConfig = s.store .yanetConfig) : t.Selects Γ y cfg enabled := by
  have hloaded : t.loaded = s.loaded := by
    unfold Server.loaded Store.find
    rw [hconfig, hstore]
  exact ⟨hloaded.trans h.loaded, h.running, h.finalizer, h.box, h.wired⟩

theorem Restamps.holds {i : Item} (ht : Restamps key y y' s t) (h : i.Holds N y s) : i.Holds N y t := by
  refine h.congr (fun d _ => ?_) fun ctx role name content _ => ?_
  · unfold Store.find
    rw [ht.others .deployment (by decide)]
  · unfold Store.find
    rw [ht.others .configMap (by decide)]

theorem Restamps.swept {desired : DesiredSet} (ht : Restamps key y y' s t) (h : Swept y desired s.store) :
    Swept y desired t.store := by
  have huse : storedUse y t.store = storedUse y s.store := by
    unfold storedUse Store.select
    rw [ht.others .deployment (by decide), ht.others .pod (by decide)]
  constructor
  · intro d hd
    unfold Store.select at hd
    rw [ht.others .deployment (by decide)] at hd
    exact h.deployments d hd
  · intro c hc
    unfold Store.select at hc
    rw [ht.others .configMap (by decide)] at hc
    rw [huse]
    exact h.configMaps c hc

theorem Item.holds_restamped {i : Item} (version : Nat) (status : YanetStatus) :
    i.Holds N (y.restamped version status) s ↔ i.Holds N y s := by
  cases i with
  | deployment d => exact Iff.rfl
  | configMap ctx role name content => exact Iff.rfl

/-- A status is no part of what rests. -/
theorem Resting.restamp (h : Resting N Γ key cfg enabled y s) (ht : Restamps key y y' s t) : Resting N Γ key cfg enabled y' t := by
  obtain ⟨version, status, rfl⟩ := ht.same
  have hnodes : t.nodesOf (y.restamped version status) = s.nodesOf y := Server.nodesOf_congr (ht.others .node (by decide)) y
  have hselects := h.selects.congr ht.config (ht.others .yanetConfig (by decide))
  refine ⟨ht.found, h.live, h.mode, ?_, fun other hother hne node hnode => ?_, fun i hi => ?_, fun desired hdesired => ?_⟩
  · exact ⟨hselects.loaded, hselects.running, hselects.finalizer, hselects.box, hselects.wired⟩
  · rw [hnodes] at hnode
    rw [ht.others .deployment (by decide)]
    rcases ht.installations other hother with hother | hsame
    · exact h.uncontested other hother hne node hnode
    · exact absurd (hsame.trans (Store.find_some h.found).2.symm) hne
  · rw [hnodes] at hi
    exact (Item.holds_restamped version status).2 (ht.holds (h.held i hi))
  · rw [hnodes] at hdesired
    have hswept := ht.swept (h.swept desired hdesired)
    exact ⟨hswept.deployments, hswept.configMaps⟩

/-- The nodes of an installation at rest. -/
theorem Resting.closes (h : Resting N Γ key cfg enabled y s) :
    Closes N key y s (reconcileNodes Γ y (passPlan y cfg enabled) (s.nodesOf y)) := by
  have hkey : keyOf .yanet y = key := (Store.find_some h.found).2
  have hstop := h.selects.notStopped
  unfold reconcileNodes
  refine (Idle.decided (idle_validateExclusiveNodes y _)).bind_closes ?_
  rw [h.uncontested.exclusive]
  dsimp only
  refine (Idle.decided (idle_preflightResources Γ _ y _)).bind_closes ?_
  cases hpreflight : (run (Server.exec N) (preflightResources Γ (passPlan y cfg enabled) y (s.nodesOf y)).run s).1 with
  | error e =>
    refine (Idle.decided (idle_recordEvent _ _)).bind_closes ?_
    exact (closes_updateStatus hkey h.found hstop (readsOnly_degraded _ _) rfl).bind_idle fun r => trivial
  | ok services =>
    dsimp only
    have haccepted := planAccepted_of_preflight hpreflight
    have hcovers := (applyNodes_covers (Server.exec N) s haccepted).run
    refine (still_applyNodes h.mode hstop haccepted h.held).bind_closes ?_
    revert hcovers
    generalize run (Server.exec N) ((s.nodesOf y).foldlM (applyNode Γ (passPlan y cfg enabled) y) {}).run s = r
    obtain ⟨r, t⟩ := r
    intro hcovers
    cases r with
    | error e => exact hcovers.elim
    | ok st =>
      dsimp only
      exact closes_finishPass hkey h.found hstop h.mode fun herrs =>
        (h.swept st.desired ⟨hcovers.deployments herrs, hcovers.configMaps herrs⟩).leaves

/-- A pass of an installation at rest changes no Deployment and no ConfigMap, and the installation stays at rest. -/
theorem Resting.pass (h : Resting N Γ key cfg enabled y s) :
    changes (Server.exec N) (YanetReconciler.reconcile Γ key) s = [] ∧
      ∃ y', Resting N Γ key cfg enabled y' (run (Server.exec N) (YanetReconciler.reconcile Γ key) s).2 := by
  obtain ⟨hstate, hchanges⟩ := reconcile_server (N := N) (Γ := Γ) h.found
  obtain ⟨hrun, hbody⟩ := h.selects.body (N := N) h.live
  rw [hstate, hchanges, hrun, hbody]
  obtain ⟨y', hrestamps⟩ := h.closes.restamps
  exact ⟨h.closes.unchanged, y', h.restamp hrestamps⟩

end

end YanetOperator
