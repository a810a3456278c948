import YanetOperator.Lemmas.Preflight
import YanetOperator.Lemmas.Trace

/-!
# The calls of a whole pass

`PassCall` lists every call that `reconcileYanet` may issue, with what the pass has read and checked before it. A Deployment is
written only for a node that the exclusivity check, the preflight and the placement gate of this pass have cleared.
-/

namespace YanetOperator

open Prog Check

/-! ## What the apply loop rests on -/

/-- The configuration was read: from the snapshot, or from the persisted object. -/
def SawConfig (tr : PassTrace) (cfg : YanetConfigSpec) : Prop :=
  Saw tr .snapshot cfg ∨
    ∃ persisted : YanetConfig, Saw tr (.get .yanetConfig { name := yanetConfigName }) (.ok persisted) ∧ persisted.spec = cfg

/-- The exclusivity check found no conflict on the nodes. -/
def SawExclusive (y : Yanet) (nodes : List Node) (tr : PassTrace) : Prop :=
  nodes = [] ∨ ∃ ys ds, Saw tr (.list .yanet none ∅) (.ok ys) ∧ Saw tr (.list .deployment none ∅) (.ok ds) ∧
    exclusiveVerdict ds ys y nodes = .ok ()

/-- The Deployments, the ReplicaSets and the Pods of a namespace were listed, one after the other. -/
def SawInventory (tr : PassTrace) (ns : String) (ds : List Deployment) (rs : List ReplicaSet) (ps : List Pod) : Prop :=
  ∃ later earlier, tr = later ++ (⟨Op.list .pod (some ns) ∅, .ok ps⟩ : Event Api) ::
    (⟨Op.list .replicaSet (some ns) ∅, .ok rs⟩ : Event Api) :: (⟨Op.list .deployment (some ns) ∅, .ok ds⟩ : Event Api) :: earlier

/-- The producers among the listed workloads. -/
def producersOf (ds : List Deployment) (rs : List ReplicaSet) (ps : List Pod) : List PlacementProducer :=
  ds.filterMap deploymentProducer ++ rs.filterMap replicaSetProducer ++ ps.filterMap podProducer

/-- The roles that the workloads of a pass run. -/
def passRoles (ws : List (Node × List RenderedWorkload)) : List PlacementRole :=
  ws.flatMap fun (node, ws) => ws.flatMap (workloadRoles node)

/-- The placement gate let the workloads pass. -/
def Cleared (Γ : Platform) (y : Yanet) (ws : List (Node × List RenderedWorkload)) (tr : PassTrace) : Prop :=
  passRoles ws = [] ∨ ∃ ds rs ps, SawInventory tr y.metadata.ns ds rs ps ∧
    ∀ target ∈ passRoles ws, ∀ producer ∈ producersOf ds rs ps, checkPlacement Γ y target producer = .ok ()

/-- A Deployment that a pass wants on one of its nodes. -/
structure Planned (Γ : Platform) (y : Yanet) (plan : PassPlan) (nodes : List Node) (node : Node) (ctx : BuildContext)
    (rc : ResolvedComponent) (d : Deployment) : Prop where
  selected : node ∈ nodes
  context : nodeContext Γ plan y node = .ok ctx
  component : ∃ ref ∈ plan.enabled, resolveForPass Γ plan y ref = .ok (some rc)
  standalone : rc.isColocated = false
  rendered : ∃ ds, renderDeployments Γ ctx rc (newPatchRegistry plan.cfg.patches) = .ok ds ∧
    ∃ d0 ∈ ds, d = normalizeDeploymentReplicas d0 rc.enabled plan.installationEnabled

/-- A write of the apply loop. -/
inductive PlannedWrite (Γ : Platform) (y : Yanet) (plan : PassPlan) (nodes : List Node) (tr : PassTrace) : Op → Prop where
  | event (reason note : String) : PlannedWrite Γ y plan nodes tr (.event reason note)
  | createConfigMap (cm : ConfigMap) : PlannedWrite Γ y plan nodes tr (.create .configMap cm)
  | updateConfigMap (cm : ConfigMap) : PlannedWrite Γ y plan nodes tr (.update .configMap cm)
  | create (node : Node) (ctx : BuildContext) (rc : ResolvedComponent) (desired : Deployment)
      (planned : Planned Γ y plan nodes node ctx rc desired) :
      PlannedWrite Γ y plan nodes tr (.create .deployment (managedDeployment desired))
  | update (node : Node) (ctx : BuildContext) (rc : ResolvedComponent) (desired fresh d : Deployment)
      (planned : Planned Γ y plan nodes node ctx rc desired)
      (normalized : Saw tr (.dryRun (deploymentCandidate fresh desired)) (.ok d)) :
      PlannedWrite Γ y plan nodes tr (.update .deployment d)

/-- What holds whenever the apply loop runs: the pass is for a live installation with its finalizer, it has read its
configuration and its nodes, every check was passed, and nothing but the apply loop has written. -/
structure Approved (Γ : Platform) (y : Yanet) (plan : PassPlan) (nodes : List Node) (tr : PassTrace) : Prop where
  live : y.metadata.deletionTimestamp = none
  finalizer : yanetFinalizer ∈ y.metadata.finalizers
  configured : ∃ cfg enabled, plan = passPlan y cfg enabled ∧ SawConfig tr cfg ∧
    enabledComponentsForBox Γ cfg y.spec.boxType = .ok enabled
  listed : Saw tr (.list .node none y.spec.nodeSelector) (.ok nodes)
  exclusive : SawExclusive y nodes tr
  preflight : ∃ plans ws, preflightPlans Γ plan y nodes = .ok (plans, ws) ∧ Cleared Γ y ws tr
  written : ∀ e ∈ tr, Op.isRead e.1 = true ∨ PlannedWrite Γ y plan nodes tr e.1

/-- The inline ConfigMaps of a component are ensured, unless the pass only observes. -/
def InlineEnsured (Γ : Platform) (plan : PassPlan) (ctx : BuildContext) (rc : ResolvedComponent) (tr : PassTrace) : Prop :=
  plan.autoSync = true → ∀ name ∈ (inlineConfigMaps Γ ctx rc).keys, Ensured tr { ns := ctx.ns, name := name }

/-- The calls of the apply loop. -/
inductive ApplyCall (Γ : Platform) (y : Yanet) (plan : PassPlan) (nodes : List Node) (tr : PassTrace) : Op → Prop where
  | event {c : Op} (h : EventCall tr c) : ApplyCall Γ y plan nodes tr c
  | inline {c : Op} (h : InlineCall y tr c) : ApplyCall Γ y plan nodes tr c
  | deployment {c : Op} (node : Node) (ctx : BuildContext) (rc : ResolvedComponent) (desired : Deployment)
      (h : DeploymentCall desired plan.autoSync tr c) (planned : Planned Γ y plan nodes node ctx rc desired)
      (ensured : InlineEnsured Γ plan ctx rc tr) :
      ApplyCall Γ y plan nodes tr c

/-! ## Facts about the trace are kept -/

section

variable {Γ : Platform} {y : Yanet} {plan : PassPlan} {nodes : List Node} {tr : PassTrace} {e : Event Api}

theorem SawConfig.cons {cfg : YanetConfigSpec} (h : SawConfig tr cfg) : SawConfig (e :: tr) cfg := by
  rcases h with h | ⟨persisted, h, hs⟩
  · exact Or.inl h.cons
  · exact Or.inr ⟨persisted, h.cons, hs⟩

theorem SawExclusive.cons (h : SawExclusive y nodes tr) : SawExclusive y nodes (e :: tr) := by
  rcases h with h | ⟨ys, ds, hy, hd, hv⟩
  · exact Or.inl h
  · exact Or.inr ⟨ys, ds, hy.cons, hd.cons, hv⟩

theorem SawInventory.cons {ns : String} {ds : List Deployment} {rs : List ReplicaSet} {ps : List Pod}
    (h : SawInventory tr ns ds rs ps) : SawInventory (e :: tr) ns ds rs ps := by
  obtain ⟨later, earlier, rfl⟩ := h
  exact ⟨e :: later, earlier, rfl⟩

theorem Cleared.cons {ws : List (Node × List RenderedWorkload)} (h : Cleared Γ y ws tr) : Cleared Γ y ws (e :: tr) := by
  rcases h with h | ⟨ds, rs, ps, hi, hc⟩
  · exact Or.inl h
  · exact Or.inr ⟨ds, rs, ps, hi.cons, hc⟩

theorem PlannedWrite.cons {c : Op} (h : PlannedWrite Γ y plan nodes tr c) : PlannedWrite Γ y plan nodes (e :: tr) c := by
  cases h with
  | event reason note => exact .event reason note
  | createConfigMap cm => exact .createConfigMap cm
  | updateConfigMap cm => exact .updateConfigMap cm
  | create node ctx rc desired hp => exact .create node ctx rc desired hp
  | update node ctx rc desired fresh d hp hn => exact .update node ctx rc desired fresh d hp hn.cons

theorem InlineEnsured.cons {ctx : BuildContext} {rc : ResolvedComponent} (h : InlineEnsured Γ plan ctx rc tr) :
    InlineEnsured Γ plan ctx rc (e :: tr) :=
  fun ha name hn => (h ha name hn).cons

theorem ApplyCall.written {c : Op} (h : ApplyCall Γ y plan nodes tr c) :
    Op.isRead c = true ∨ PlannedWrite Γ y plan nodes tr c := by
  cases h with
  | event h =>
    cases h with
    | read h => exact Or.inl h
    | event reason note _ => exact Or.inr (.event reason note)
  | inline h =>
    cases h with
    | read h => exact Or.inl h
    | create cm _ => exact Or.inr (.createConfigMap cm)
    | update key existing cm _ _ _ _ => exact Or.inr (.updateConfigMap cm)
  | deployment node ctx rc desired h hp _ =>
    cases h with
    | read h => exact Or.inl h
    | create _ _ => exact Or.inr (.create node ctx rc desired hp)
    | update fresh d _ _ _ _ hn => exact Or.inr (.update node ctx rc desired fresh d hp hn)

theorem Approved.cons {c : Op} {r : c.Answer} (h : Approved Γ y plan nodes tr)
    (hc : Op.isRead c = true ∨ PlannedWrite Γ y plan nodes tr c) : Approved Γ y plan nodes (⟨c, r⟩ :: tr) where
  live := h.live
  finalizer := h.finalizer
  configured := by
    obtain ⟨cfg, enabled, hp, hs, he⟩ := h.configured
    exact ⟨cfg, enabled, hp, hs.cons, he⟩
  listed := h.listed.cons
  exclusive := h.exclusive.cons
  preflight := by
    obtain ⟨plans, ws, hp, hc⟩ := h.preflight
    exact ⟨plans, ws, hp, hc.cons⟩
  written := by
    intro e he
    rcases List.mem_cons.1 he with rfl | he
    · exact hc.imp_right PlannedWrite.cons
    · exact (h.written e he).imp_right PlannedWrite.cons

/-! ## The apply loop -/

/-- One rendered Deployment. -/
theorem safe_applyRendered {node : Node} {ctx : BuildContext} {rc : ResolvedComponent} {d : Deployment}
    (hp : Planned Γ y plan nodes node ctx rc d) (isControlplane configDrift : Bool) (acc : LoopState × NodeStatus)
    (he : InlineEnsured Γ plan ctx rc tr) :
    Safe tracing (ApplyCall Γ y plan nodes) (fun _ tr => InlineEnsured Γ plan ctx rc tr)
      (applyRendered plan node isControlplane configDrift acc d) tr := by
  have hdep := (safe_applyDeployment d plan.autoSync plan.updateWindow node.metadata.name tr).frame
    (InlineEnsured Γ plan ctx rc) (fun _ _ _ _ h => h.cons) he
  refine Safe.bind (hdep.mono (fun tr c hc => .deployment node ctx rc d hc.1 hp hc.2) fun _ _ h => h.2) fun outcome tr he => ?_
  dsimp only
  split
  · refine Safe.bind (((safe_recordEvent _ _ tr).frame (InlineEnsured Γ plan ctx rc) (fun _ _ _ _ h => h.cons) he).mono
      (fun tr c hc => .event hc.1) fun _ _ h => h.2) fun _ tr he => he
  · exact he

/-- One component of one node. -/
theorem safe_applyComponent {node : Node} {ctx : BuildContext} (hnode : node ∈ nodes) (hctx : nodeContext Γ plan y node = .ok ctx)
    (acc : LoopState × NodeStatus) {ref : ComponentRef} (href : ref ∈ plan.enabled) (tr : PassTrace) :
    Safe tracing (ApplyCall Γ y plan nodes) (fun _ _ => True) (applyComponent Γ plan y node ctx acc ref) tr := by
  unfold applyComponent
  dsimp only
  cases hr : resolveForPass Γ plan y ref with
  | error e => trivial
  | ok o =>
    cases o with
    | none => trivial
    | some rc =>
      dsimp only
      split
      · trivial
      · next hcol =>
        refine Safe.bind ((safe_applyInlineConfigMaps Γ y ctx rc plan.autoSync tr).mono (fun _ _ h => .inline h) fun _ _ h => h)
          fun r tr he => ?_
        cases r with
        | error e => trivial
        | ok inline =>
          obtain ⟨names, configDrift⟩ := inline
          dsimp only
          cases hd : renderDeployments Γ ctx rc (newPatchRegistry plan.cfg.patches) with
          | error e => trivial
          | ok ds =>
            dsimp only
            refine (Safe.foldlM (J := fun _ tr => InlineEnsured Γ plan ctx rc tr) (fun d hd' acc tr he => ?_) he).post
              fun _ _ _ => trivial
            obtain ⟨d0, hd0, rfl⟩ := List.mem_map.1 hd'
            exact safe_applyRendered ⟨hnode, hctx, ⟨ref, href, hr⟩, by simpa using hcol, ds, hd, d0, hd0, rfl⟩ _ _ acc he

/-- The whole apply loop. -/
theorem safe_applyNodes (tr : PassTrace) :
    Safe tracing (ApplyCall Γ y plan nodes) (fun _ _ => True) (nodes.foldlM (applyNode Γ plan y) {}).run tr := by
  refine (Safe.tryFoldlM (J := fun _ _ => True) (E := fun _ _ => True) (fun node hnode st tr _ => ?_) trivial).post
    fun _ _ _ => trivial
  unfold applyNode
  cases hctx : nodeContext Γ plan y node with
  | error e => trivial
  | ok ctx =>
    refine Safe.tryBind (J := fun _ _ => True) (Safe.tryLift ?_) fun _ _ _ => trivial
    exact Safe.foldlM (J := fun _ _ => True) (fun ref href acc tr _ => safe_applyComponent hnode hctx acc href tr) trivial

end

/-! ## The checks before the apply loop -/

section

variable {G : PassTrace → Op → Prop} {Γ : Platform} {tr : PassTrace} {A : PassTrace → Prop}

theorem safe_validateExclusiveNodes (hread : Reads G) (hA : KeptByReads A) (y : Yanet) (nodes : List Node) (h : A tr) :
    Safe tracing G (fun r tr => A tr ∧ (r = .ok () → SawExclusive y nodes tr)) (validateExclusiveNodes y nodes) tr := by
  unfold validateExclusiveNodes
  split
  · next hn => exact ⟨h, fun _ => Or.inl hn⟩
  · refine Safe.bind (safe_listObjs hread (fun ys => show onResult (fun ys tr => A tr ∧ Saw tr (.list .yanet none ∅) (.ok ys))
      (fun _ tr => A tr) (.ok ys) _ from ⟨hA _ _ _ rfl h, .head⟩) fun _ => hA _ _ _ rfl h) fun r tr hr => ?_
    cases r with
    | error e => exact ⟨hr, nofun⟩
    | ok ys =>
      refine Safe.bind (safe_listObjs hread (fun ds => show onResult (fun ds tr => A tr ∧ Saw tr (.list .yanet none ∅) (.ok ys) ∧
        Saw tr (.list .deployment none ∅) (.ok ds)) (fun _ tr => A tr) (.ok ds) _ from
          ⟨hA _ _ _ rfl hr.1, hr.2.cons, .head⟩) fun _ => hA _ _ _ rfl hr.1) fun r tr hr => ?_
      cases r with
      | error e => exact ⟨hr, nofun⟩
      | ok ds => exact ⟨hr.1, fun hv => Or.inr ⟨ys, ds, hr.2.1, hr.2.2, hv⟩⟩

/-- One list of the inventory. -/
theorem safe_listLive (hread : Reads G) {k : Kind} {ns : String} {J : List (Obj k) → PassTrace → Prop} (hA : KeptByReads A)
    (hJ : ∀ os, J os (⟨.list k (some ns) ∅, .ok os⟩ :: tr)) (h : A tr) :
    Safe tracing G (onResult J fun _ tr => A tr) (listLive ns k).run tr := by
  refine Safe.bind (safe_listObjs hread (fun os => show onResult J (fun _ tr => A tr) (.ok os) _ from hJ os)
    fun _ => hA _ _ _ rfl h) fun r tr hr => ?_
  cases r with
  | ok os => exact hr
  | error e => exact hr

theorem safe_listPlacementProducers (hread : Reads G) (hA : KeptByReads A) (ns : String) (h : A tr) :
    Safe tracing G (onResult (fun producers tr => A tr ∧ ∃ ds rs ps, SawInventory tr ns ds rs ps ∧
      ∀ p, p ∈ producers ↔ p ∈ producersOf ds rs ps) fun _ tr => A tr) (listPlacementProducers ns).run tr := by
  unfold listPlacementProducers
  refine Safe.tryBind (J := fun ds tr' => tr' = (⟨.list .deployment (some ns) ∅, .ok ds⟩ : Event Api) :: tr)
    (safe_listLive hread hA (fun _ => rfl) h) fun ds tr1 h1 => ?_
  have ha1 : A tr1 := h1 ▸ hA _ _ _ rfl h
  refine Safe.tryBind (J := fun rs tr' => tr' = (⟨.list .replicaSet (some ns) ∅, .ok rs⟩ : Event Api) :: tr1)
    (safe_listLive hread hA (fun _ => rfl) ha1) fun rs tr2 h2 => ?_
  have ha2 : A tr2 := h2 ▸ hA _ _ _ rfl ha1
  refine Safe.tryBind (J := fun ps tr' => tr' = (⟨.list .pod (some ns) ∅, .ok ps⟩ : Event Api) :: tr2)
    (safe_listLive hread hA (fun _ => rfl) ha2) fun ps tr3 h3 => ?_
  refine ⟨h3 ▸ hA _ _ _ rfl ha2, ds, rs, ps, ⟨[], tr, ?_⟩, fun p => ?_⟩
  · rw [h3, h2, h1]
    rfl
  · rw [List.mem_insertionSort, producersOf]

theorem safe_validateOperatorPlacementTransition (hread : Reads G) (hA : KeptByReads A) (y : Yanet)
    (ws : List (Node × List RenderedWorkload)) (h : A tr) :
    Safe tracing G (onResult (fun _ tr => A tr ∧ Cleared Γ y ws tr) fun _ tr => A tr)
      (validateOperatorPlacementTransition Γ y ws).run tr := by
  unfold validateOperatorPlacementTransition
  dsimp only
  split
  · next hempty => exact ⟨h, Or.inl (List.isEmpty_iff.1 hempty)⟩
  · refine Safe.tryBind (safe_listPlacementProducers hread hA y.metadata.ns h) fun producers tr hp => ?_
    obtain ⟨ha, ds, rs, ps, hinv, hmem⟩ := hp
    change onResult _ _ (forM ((passRoles ws).insertionSort roleLe) fun target => forM producers (checkPlacement Γ y target)) tr
    cases hv : forM ((passRoles ws).insertionSort roleLe) fun target => forM producers (checkPlacement Γ y target) with
    | error e => exact ha
    | ok u =>
      refine ⟨ha, Or.inr ⟨ds, rs, ps, hinv, fun target ht producer hpr => ?_⟩⟩
      have htarget := forM_ok.1 hv target (by rw [List.mem_insertionSort]; exact ht)
      exact forM_ok.1 htarget producer ((hmem producer).2 hpr)

theorem safe_preflightResources (hread : Reads G) (hA : KeptByReads A) (plan : PassPlan) (y : Yanet) (nodes : List Node) (h : A tr) :
    Safe tracing G (onResult (fun plans tr => A tr ∧ ∃ ws, preflightPlans Γ plan y nodes = .ok (plans, ws) ∧ Cleared Γ y ws tr)
      fun _ tr => A tr) (preflightResources Γ plan y nodes).run tr := by
  unfold preflightResources
  cases hp : preflightPlans Γ plan y nodes with
  | error e => exact h
  | ok pw =>
    obtain ⟨plans, ws⟩ := pw
    refine Safe.tryBind (safe_validateOperatorPlacementTransition hread hA y ws h) fun _ tr ht => ?_
    exact ⟨ht.1, ws, rfl, ht.2⟩

theorem safe_loadConfig (hread : Reads G) (hA : KeptByReads A) (h : A tr) :
    Safe tracing G (onResult (fun o tr => A tr ∧ ∀ cfg, o = some cfg → SawConfig tr cfg) fun _ tr => A tr) loadConfig.run tr := by
  refine safe_issue_bind (hread _ _ rfl) fun snapshot => ?_
  have ha := hA _ _ snapshot rfl h
  split
  · refine safe_issue_bind (hread _ _ rfl) fun r => ?_
    cases r with
    | ok persisted =>
      refine ⟨hA _ _ _ rfl ha, fun cfg hc => ?_⟩
      cases hc
      exact Or.inr ⟨persisted, .head, rfl⟩
    | error e =>
      dsimp only
      split
      · exact ⟨hA _ _ _ rfl ha, fun cfg hc => by cases hc⟩
      · exact hA _ _ _ rfl ha
  · refine ⟨ha, fun cfg hc => ?_⟩
    cases hc
    exact Or.inl .head

end

/-! ## The whole pass -/

/-- The pass is for an installation with the finalizer, and has not written it. -/
def Anchored (y : Yanet) (tr : PassTrace) : Prop :=
  yanetFinalizer ∈ y.metadata.finalizers ∧ ∀ e ∈ tr, ∀ o, e.1 ≠ Op.update .yanet o

theorem Anchored.of_cons {y : Yanet} {e : Event Api} {tr : PassTrace} (h : Anchored y (e :: tr)) : Anchored y tr :=
  ⟨h.1, fun e he => h.2 e (List.mem_cons_of_mem _ he)⟩

theorem Anchored.cons {y : Yanet} {e : Event Api} {tr : PassTrace} (h : Anchored y tr) (he : ∀ o, e.1 ≠ Op.update .yanet o) :
    Anchored y (e :: tr) :=
  ⟨h.1, List.forall_mem_cons.2 ⟨he, h.2⟩⟩

/-- A pass that is approved has not written its installation. -/
theorem Approved.anchored {Γ : Platform} {y : Yanet} {plan : PassPlan} {nodes : List Node} {tr : PassTrace}
    (h : Approved Γ y plan nodes tr) : Anchored y tr := by
  refine ⟨h.finalizer, fun e he o heq => ?_⟩
  have hwritten := h.written e he
  rw [heq] at hwritten
  rcases hwritten with hread | hplanned
  · cases hread
  · cases hplanned

/-- The calls of a pass of an installation. -/
inductive PassCall (Γ : Platform) (y : Yanet) (tr : PassTrace) : Op → Prop where
  | event {c : Op} (h : EventCall tr c) : PassCall Γ y tr c
  | status {c : Op} (h : StatusCall y tr c) : PassCall Γ y tr c
  | addFinalizer (armed : Armed tr) (live : y.metadata.deletionTimestamp = none) : PassCall Γ y tr (.update .yanet (addFinalizer y))
  | removeFinalizer (ds : List Deployment) (armed : Armed tr) (saw : SawFresh tr (listsDeployments y) (.ok ds))
      (gone : ∀ d ∈ ds, controlledByYanet d.metadata y = false) : PassCall Γ y tr (.update .yanet (removeFinalizer y))
  | release {c : Op} (h : ReleaseCall y tr c) : PassCall Γ y tr c
  | prune {c : Op} (h : PruneCall y tr c) (anchored : Anchored y tr) : PassCall Γ y tr c
  | apply {c : Op} (plan : PassPlan) (nodes : List Node) (h : ApplyCall Γ y plan nodes tr c)
      (approved : Approved Γ y plan nodes tr) : PassCall Γ y tr c

section

variable {Γ : Platform} {y : Yanet}

theorem PassCall.reads : Reads (PassCall Γ y) := fun _ _ h => .event (.read h)

theorem anchored_keptByReads : KeptByReads (Anchored y) := by
  intro tr c r hc h
  refine h.cons fun o heq => ?_
  subst heq
  cases hc

theorem safe_passEvent (reason note : String) (tr : PassTrace) :
    Safe tracing (PassCall Γ y) (fun _ _ => True) (recordEvent reason note) tr :=
  (safe_recordEvent reason note tr).mono (fun _ _ h => .event h) fun _ _ h => h

/-- A status of the installation is stored, whatever else the pass knows of it by now. -/
theorem safe_passStatus {y' : Yanet} (hkey : keyOf .yanet y' = keyOf .yanet y) {mutate : Yanet → Pass YanetStatus}
    (hm : ∀ fresh, ReadsOnly (mutate fresh)) (tr : PassTrace) :
    Safe tracing (PassCall Γ y) (fun _ _ => True) (updateStatus y' mutate).run tr := by
  refine (safe_updateStatus y' hm tr).mono (fun tr c hc => .status ?_) fun _ _ h => h
  cases hc with
  | read h => exact .read h
  | write fresh status armed saw => exact .write fresh status armed (hkey ▸ saw)

/-- A status that is known is stored. -/
theorem safe_storeStatus {y' : Yanet} (hkey : keyOf .yanet y' = keyOf .yanet y) (status : YanetStatus) (tr : PassTrace) :
    Safe tracing (PassCall Γ y) (fun _ _ => True) (updateStatus y' fun _ => Pure.pure status).run tr := by
  refine safe_passStatus hkey (fun _ tr => ?_) tr
  trivial

theorem safe_bailOut (reason note message : String) (tr : PassTrace) :
    Safe tracing (PassCall Γ y) (fun _ _ => True) (bailOut y reason note message) tr :=
  (safe_passEvent reason note tr).bind fun _ tr _ =>
    (safe_passStatus rfl (readsOnly_degraded reason message) tr).bind fun _ _ _ => trivial

/-- Pruning, for an installation that the pass has not written. -/
theorem safe_passPrune (desired : DesiredSet) (autoSync : Bool) {tr : PassTrace} (h : Anchored y tr) :
    Safe tracing (PassCall Γ y) (fun _ _ => True) (pruneOrphans y desired autoSync) tr := by
  refine ((safe_pruneOrphans y desired autoSync tr).frame (Anchored y) (fun tr c r hc h => h.cons fun o heq => ?_) h).mono
    (fun _ _ h => .prune h.1 h.2) fun _ _ _ => trivial
  subst heq
  cases hc with
  | read h => cases h

theorem safe_handleYanetDeletion {tr : PassTrace} (hread : ∀ e ∈ tr, Op.isRead e.1 = true) :
    Safe tracing (PassCall Γ y) (fun _ _ => True) (handleYanetDeletion y) tr := by
  unfold handleYanetDeletion
  split
  · trivial
  · next hfin =>
    have hanchored : Anchored y tr := by
      refine ⟨by simpa using hfin, fun e he o heq => ?_⟩
      have := hread e he
      rw [heq] at this
      cases this
    refine (((safe_recordEvent _ _ tr).frame (Anchored y) (fun tr c r hc h => h.cons fun o heq => ?_) hanchored).mono
      (fun _ _ h => .event h.1) fun _ _ h => h.2).bind fun _ tr hanchored => ?_
    · subst heq
      cases hc with
      | read h => cases h
    refine (safe_passPrune {} true hanchored).bind fun pruned tr _ => ?_
    dsimp only
    split
    · trivial
    · refine Safe.bind (safe_listObjs PassCall.reads
        (fun ds => show onResult (fun ds tr => SawFresh tr (listsDeployments y) (.ok ds)) (fun _ _ => True) (.ok ds) _ from .head)
        fun _ => trivial) fun r tr hr => ?_
      cases r with
      | error e => trivial
      | ok ds =>
        dsimp only
        split
        · trivial
        · next hgone =>
          refine Safe.bind (safe_checkGlobalStop PassCall.reads (show onResult (fun _ tr => Armed tr ∧
            SawFresh tr (listsDeployments y) (.ok ds)) (fun _ _ => True) (.ok ()) _ from ⟨.head, SawFresh.cons hr rfl⟩) trivial)
            fun r tr hr => ?_
          cases r with
          | error e => trivial
          | ok u =>
            refine safe_issue_bind (.removeFinalizer ds hr.1 hr.2 (by simpa using hgone)) fun r => ?_
            cases r with
            | ok u => trivial
            | error e =>
              dsimp only
              split <;> trivial

theorem safe_reportFailure {y' : Yanet} (hkey : keyOf .yanet y' = keyOf .yanet y) (e : Err) (tr : PassTrace) :
    Safe tracing (PassCall Γ y) (fun _ _ => True) (reportFailure y' e) tr :=
  safe_issue_bind (PassCall.reads _ _ rfl) fun _ =>
    (safe_storeStatus hkey _ _).bind fun _ _ _ => trivial

theorem safe_reportSuccess {y' : Yanet} (hkey : keyOf .yanet y' = keyOf .yanet y) (plan : PassPlan) (st : LoopState)
    (retained : List String) (tr : PassTrace) :
    Safe tracing (PassCall Γ y) (fun _ _ => True) (reportSuccess y' plan st retained) tr := by
  refine safe_issue_bind (PassCall.reads _ _ rfl) fun now => ?_
  dsimp only
  split
  · refine (safe_storeStatus hkey _ _).bind fun r tr _ => ?_
    cases r with
    | error e => trivial
    | ok u =>
      dsimp only
      split <;> trivial
  · refine safe_issue_bind (PassCall.reads _ _ rfl) fun now => ?_
    refine (safe_storeStatus hkey _ _).bind fun r tr _ => ?_
    cases r with
    | error e => trivial
    | ok u =>
      dsimp only
      split <;> trivial

theorem safe_collectPods {tr : PassTrace} (h : Anchored y tr) :
    Safe tracing (PassCall Γ y) (fun _ tr => Anchored y tr) (collectPods y).run tr := by
  refine Safe.bind (R := fun _ tr => Anchored y tr) (safe_listObjs PassCall.reads (fun _ => anchored_keptByReads _ _ _ rfl h)
    fun _ => anchored_keptByReads _ _ _ rfl h) fun r tr h => ?_
  cases r <;> exact h

theorem safe_finishPass (plan : PassPlan) (services : StrMap ServicePlan) (st : LoopState) {tr : PassTrace} (h : Anchored y tr) :
    Safe tracing (PassCall Γ y) (fun _ _ => True) (finishPass y plan services st) tr := by
  have hkey (nodesStatus : StrMap NodeStatus) (services : List String) (pods : StrMap (List String)) :
      keyOf .yanet (observedStatus y nodesStatus services pods) = keyOf .yanet y := rfl
  unfold finishPass
  refine (safe_collectPods h).bind fun pods tr h => ?_
  dsimp only
  split
  · exact safe_reportFailure (hkey _ _ _) _ tr
  · refine (safe_passPrune st.desired plan.autoSync h).bind fun pruned tr _ => ?_
    split
    · refine (safe_passEvent _ _ tr).bind fun _ tr _ => ?_
      split
      · exact safe_reportFailure (hkey _ _ _) _ tr
      · exact safe_reportSuccess (hkey _ _ _) plan _ _ tr
    · split
      · exact safe_reportFailure (hkey _ _ _) _ tr
      · exact safe_reportSuccess (hkey _ _ _) plan _ _ tr

/-- What a pass knows when it comes to its nodes: its configuration and its nodes were read, and nothing was written. -/
structure Prepared (Γ : Platform) (y : Yanet) (plan : PassPlan) (nodes : List Node) (tr : PassTrace) : Prop where
  configured : ∃ cfg enabled, plan = passPlan y cfg enabled ∧ SawConfig tr cfg ∧
    enabledComponentsForBox Γ cfg y.spec.boxType = .ok enabled
  listed : Saw tr (.list .node none y.spec.nodeSelector) (.ok nodes)
  unwritten : ∀ e ∈ tr, Op.isRead e.1 = true

theorem prepared_keptByReads {plan : PassPlan} {nodes : List Node} : KeptByReads (Prepared Γ y plan nodes) := by
  intro tr c r hc h
  obtain ⟨cfg, enabled, hp, hs, he⟩ := h.configured
  refine ⟨⟨cfg, enabled, hp, hs.cons, he⟩, h.listed.cons, fun e hm => ?_⟩
  rcases List.mem_cons.1 hm with rfl | hm
  · exact hc
  · exact h.unwritten e hm

theorem safe_reconcileNodes (hlive : y.metadata.deletionTimestamp = none) (hfin : yanetFinalizer ∈ y.metadata.finalizers)
    {plan : PassPlan} {nodes : List Node} {tr : PassTrace} (h : Prepared Γ y plan nodes tr) :
    Safe tracing (PassCall Γ y) (fun _ _ => True) (reconcileNodes Γ y plan nodes) tr := by
  unfold reconcileNodes
  refine (safe_validateExclusiveNodes PassCall.reads prepared_keptByReads y nodes h).bind fun r tr hr => ?_
  cases r with
  | error conflict =>
    refine (safe_passEvent _ _ tr).bind fun _ tr _ => ?_
    refine (safe_passStatus rfl (readsOnly_degraded _ _) tr).bind fun _ tr _ => ?_
    cases conflict.cleanup with
    | none => trivial
    | some nodeNames =>
      dsimp only
      split
      · exact ((safe_pruneConflictingDeployments y nodeNames tr).mono (fun _ _ h => .release h) fun _ _ h => h).bind
          fun _ _ _ => trivial
      · trivial
  | ok u =>
    have hexclusive := hr.2 rfl
    refine (safe_preflightResources (A := fun tr => Prepared Γ y plan nodes tr ∧ SawExclusive y nodes tr) PassCall.reads
      (fun tr c r hc h => ⟨prepared_keptByReads tr c r hc h.1, h.2.cons⟩) plan y nodes ⟨hr.1, hexclusive⟩).bind fun r tr hr => ?_
    cases r with
    | error e =>
      refine (safe_passEvent _ _ tr).bind fun _ tr _ => ?_
      exact (safe_passStatus rfl (readsOnly_degraded _ _) tr).bind fun _ _ _ => trivial
    | ok services =>
      obtain ⟨⟨hprepared, hexclusive⟩, ws, hplans, hcleared⟩ := hr
      have happroved : Approved Γ y plan nodes tr :=
        ⟨hlive, hfin, hprepared.configured, hprepared.listed, hexclusive, ⟨services, ws, hplans, hcleared⟩,
          fun e he => Or.inl (hprepared.unwritten e he)⟩
      have happly : Safe tracing (ApplyCall Γ y plan nodes) (fun _ _ => True) (nodes.foldlM (applyNode Γ plan y) {}).run tr :=
        safe_applyNodes tr
      have hloop := happly.frame (Approved Γ y plan nodes) (fun _ _ _ hc h => h.cons hc.written) happroved
      refine (hloop.mono (fun tr c hc => .apply plan nodes hc.1 hc.2) fun _ _ h => h.2).bind fun r tr happroved => ?_
      cases r with
      | error e => trivial
      | ok st => exact safe_finishPass plan services st happroved.anchored

theorem safe_reconcileLive (hlive : y.metadata.deletionTimestamp = none) (hfin : yanetFinalizer ∈ y.metadata.finalizers)
    {cfg : YanetConfigSpec} {tr : PassTrace} (hsaw : SawConfig tr cfg) (hread : ∀ e ∈ tr, Op.isRead e.1 = true) :
    Safe tracing (PassCall Γ y) (fun _ _ => True) (reconcileLive Γ y cfg) tr := by
  unfold reconcileLive
  cases findBoxType cfg y.spec.boxType with
  | error e => exact safe_bailOut _ _ _ tr
  | ok box =>
    dsimp only
    cases validateEffectiveYanetComponentOverrides Γ y.spec.components cfg.components box with
    | error e => exact safe_bailOut _ _ _ tr
    | ok u =>
      dsimp only
      cases henabled : enabledComponentsForBox Γ cfg y.spec.boxType with
      | error e => exact safe_bailOut _ _ _ tr
      | ok enabled =>
        refine Safe.bind (R := onResult (fun nodes tr => Prepared Γ y (passPlan y cfg enabled) nodes tr) fun _ _ => True)
          (safe_listObjs PassCall.reads (fun nodes => ⟨⟨cfg, enabled, rfl, hsaw.cons, henabled⟩, .head, fun e he => ?_⟩)
            fun _ => trivial) fun r tr hr => ?_
        · rcases List.mem_cons.1 he with rfl | he
          · rfl
          · exact hread e he
        · cases r with
          | error e => trivial
          | ok nodes => exact safe_reconcileNodes hlive hfin hr

theorem safe_reconcileYanetBody {tr : PassTrace} (hread : ∀ e ∈ tr, Op.isRead e.1 = true) :
    Safe tracing (PassCall Γ y) (fun _ _ => True) (reconcileYanetBody Γ y) tr := by
  unfold reconcileYanetBody
  have hkept : KeptByReads fun tr => ∀ e ∈ tr, Op.isRead e.1 = true := by
    intro tr c r hc h e he
    rcases List.mem_cons.1 he with rfl | he
    · exact hc
    · exact h e he
  refine (safe_loadConfig PassCall.reads hkept hread).bind fun r tr hr => ?_
  cases r with
  | error e => trivial
  | ok config =>
    dsimp only
    split
    · trivial
    · split
      · exact safe_handleYanetDeletion hr.1
      · next hlive =>
        have hlive : y.metadata.deletionTimestamp = none := by simpa using hlive
        split
        · refine Safe.bind (safe_checkGlobalStop PassCall.reads
            (show onResult (fun _ tr => Armed tr) (fun _ _ => True) (.ok ()) _ from .head) trivial) fun r tr hr => ?_
          cases r with
          | error e => trivial
          | ok u =>
            refine safe_issue_bind (.addFinalizer hr hlive) fun r => ?_
            cases r <;> trivial
        · next hfin =>
          have hfin : yanetFinalizer ∈ y.metadata.finalizers := by simpa using hfin
          cases config with
          | none => exact safe_bailOut _ _ _ tr
          | some cfg => exact safe_reconcileLive hlive hfin (hr.2 cfg rfl) hr.1

/-- Every call of a pass is one of `PassCall`. -/
theorem safe_reconcileYanet {tr : PassTrace} (hread : ∀ e ∈ tr, Op.isRead e.1 = true) :
    Safe tracing (PassCall Γ y) (fun _ _ => True) (reconcileYanet Γ y) tr := by
  refine (safe_reconcileYanetBody hread).bind fun outcome tr _ => ?_
  split
  · trivial
  · refine safe_issue_bind (PassCall.reads _ _ rfl) fun stop => ?_
    split <;> trivial

end

end YanetOperator
