import YanetOperator.Lemmas.Plan

/-!
# What the parts of a pass leave alone

Most parts of a pass only read and report: they write events, the status and the finalizer. The apply loop and the prune are the
parts that change Deployments and ConfigMaps, and with `autoSync=false` they only read.
-/

namespace YanetOperator

open Prog hiding pure

/-- A call that creates, updates or deletes a Deployment or a ConfigMap. -/
def Op.changesWorkload : Op → Bool
  | .create .deployment _ | .update .deployment _ | .delete .deployment _ _ => true
  | .create .configMap _ | .update .configMap _ | .delete .configMap _ _ => true
  | _ => false

/-- A call that writes at most events, the status, and the finalizer of the installation. -/
def Op.Reports (y : Yanet) : Op → Prop
  | .update .yanet o => o = addFinalizer y
  | .create _ _ | .update _ _ | .delete _ _ _ => False
  | _ => True

theorem Op.reports_of_isRead {y : Yanet} {c : Op} (h : Op.isRead c = true) : Op.Reports y c := by
  cases c with
  | create k o => cases h
  | update k o => cases h
  | delete k o foreground => cases h
  | _ => trivial

theorem Op.Reports.unchanged {y : Yanet} {c : Op} (h : Op.Reports y c) : Op.changesWorkload c = false := by
  cases c with
  | create k o => exact h.elim
  | delete k o foreground => exact h.elim
  | update k o =>
    cases k with
    | yanet => rfl
    | _ => exact h.elim
  | _ => rfl

/-- A call that reads or records an event: it neither writes an object nor asks the update window. -/
def Op.isIdle : Op → Bool
  | .create _ _ | .update _ _ | .updateStatus _ | .delete _ _ _ | .requeue _ _ => false
  | _ => true

theorem Op.reports_of_isIdle {y : Yanet} {c : Op} (h : Op.isIdle c = true) : Op.Reports y c := by
  cases c with
  | create k o => cases h
  | update k o => cases h
  | delete k o foreground => cases h
  | _ => trivial

/-- A part of a pass that only reports. -/
abbrev Quiet {α : Type} (y : Yanet) (p : Pass α) : Prop := Only (I := Api) (Op.Reports y) p

/-- A part of a pass that only reads and records events. -/
abbrev Idle {α : Type} (p : Pass α) : Prop := Only (I := Api) (fun c => Op.isIdle c = true) p

theorem Idle.quiet {α : Type} {p : Pass α} (h : Idle p) (y : Yanet) : Quiet y p := h.mono fun _ => Op.reports_of_isIdle

/-! ## Parts that only read -/

section

variable {α : Type}

theorem idle_issue {c : Op} (h : Op.isIdle c = true) : Idle (issue c) := Only.perform h

theorem idle_attempt {p : Pass (Except ApiError α)} (h : Idle p) : Idle (attempt p).run := by
  refine h.bind fun r => ?_
  cases r <;> trivial

theorem idle_listObjs (k : Kind) (ns : Option String) (labels : StrMap String) : Idle (listObjs k ns labels).run :=
  idle_attempt (idle_issue rfl)

theorem idle_recordEvent (reason note : String) : Idle (recordEvent reason note) := by
  refine (idle_issue rfl).bind fun stop => ?_
  cases stop with
  | true => trivial
  | false => exact idle_issue rfl

theorem idle_checkGlobalStop : Idle checkGlobalStop.run := by
  refine (idle_issue rfl).bind fun stop => ?_
  cases stop <;> trivial

theorem idle_loadConfig : Idle loadConfig.run := by
  refine (idle_issue rfl).bind fun snapshot => ?_
  split
  · refine (idle_issue rfl).bind fun r => ?_
    cases r with
    | ok persisted => trivial
    | error e =>
      dsimp only
      split <;> trivial
  · trivial

theorem idle_validateExclusiveNodes (y : Yanet) (nodes : List Node) : Idle (validateExclusiveNodes y nodes) := by
  unfold validateExclusiveNodes
  split
  · trivial
  · refine (idle_listObjs _ _ _).bind fun r => ?_
    cases r with
    | error e => trivial
    | ok installations =>
      refine (idle_listObjs _ _ _).bind fun r => ?_
      cases r <;> trivial

theorem idle_listPlacementProducers (ns : String) : Idle (listPlacementProducers ns).run := by
  have hlist (k : Kind) : Idle (listLive ns k).run := by
    refine (idle_listObjs k (some ns) ∅).bind fun r => ?_
    cases r <;> trivial
  exact (hlist .deployment).tryBind fun _ => (hlist .replicaSet).tryBind fun _ => (hlist .pod).tryBind fun _ => trivial

theorem idle_preflightResources (Γ : Platform) (plan : PassPlan) (y : Yanet) (nodes : List Node) :
    Idle (preflightResources Γ plan y nodes).run := by
  unfold preflightResources
  cases preflightPlans Γ plan y nodes with
  | error e => trivial
  | ok pw =>
    refine Only.tryBind ?_ fun _ => trivial
    unfold validateOperatorPlacementTransition
    dsimp only
    split
    · trivial
    · exact (idle_listPlacementProducers _).tryBind fun _ => trivial

theorem idle_collectPods (y : Yanet) : Idle (collectPods y).run := by
  refine (idle_listObjs _ _ _).bind fun r => ?_
  cases r <;> trivial

end

/-! ## Parts that only report -/

section

variable (y : Yanet)

theorem quiet_updateStatus (y' : Yanet) {mutate : Yanet → Pass YanetStatus} (hm : ∀ fresh, ReadsOnly (mutate fresh)) :
    Quiet y (updateStatus y' mutate).run := by
  refine Only.of_safe (safe_updateStatus y' hm []) fun _ c h => ?_
  cases h with
  | read h => exact Op.reports_of_isRead h
  | write => trivial

theorem quiet_storeStatus (y' : Yanet) (status : YanetStatus) : Quiet y (updateStatus y' fun _ => pure status).run :=
  quiet_updateStatus y y' fun _ _ => trivial

theorem quiet_degraded (y' : Yanet) (reason message : String) : Quiet y (updateStatus y' (degraded reason message)).run :=
  quiet_updateStatus y y' (readsOnly_degraded reason message)

theorem quiet_reportFailure (y' : Yanet) (e : Err) : Quiet y (reportFailure y' e) := by
  refine ((idle_issue rfl).quiet y).bind fun now => ?_
  dsimp only
  exact (quiet_storeStatus y y' _).bind fun _ => trivial

theorem quiet_reportSuccess (y' : Yanet) (plan : PassPlan) (st : LoopState) (retained : List String) :
    Quiet y (reportSuccess y' plan st retained) := by
  refine ((idle_issue rfl).quiet y).bind fun now => ?_
  dsimp only
  split
  · refine (quiet_storeStatus y _ _).bind fun r => ?_
    cases r with
    | error e => trivial
    | ok u =>
      dsimp only
      split <;> trivial
  · refine ((idle_issue rfl).quiet y).bind fun now => (quiet_storeStatus y _ _).bind fun r => ?_
    cases r with
    | error e => trivial
    | ok u =>
      dsimp only
      split <;> trivial

end

/-! ## The prune -/

/-- A call of the prune: it reads, or it deletes a Deployment or a ConfigMap that is not desired, unless the pass only reports. -/
inductive PruneOp (desired : DesiredSet) (autoSync : Bool) : Op → Prop where
  | read {c : Op} (h : Op.isIdle c = true) : PruneOp desired autoSync c
  | deployment (d : Deployment) (h : d.metadata.name ∉ desired.deployments) (sync : autoSync = true) :
      PruneOp desired autoSync (.delete .deployment d true)
  | configMap (c : ConfigMap) (h : c.metadata.name ∉ desired.configMaps) (sync : autoSync = true) :
      PruneOp desired autoSync (.delete .configMap c false)

section

variable (y : Yanet) (desired : DesiredSet) (autoSync : Bool)

theorem only_pruneDeployment (st : PruneState) (d : Deployment) :
    Only (I := Api) (PruneOp desired autoSync) (pruneDeployment y desired autoSync st d).run := by
  unfold pruneDeployment
  split
  · trivial
  · next hkeep =>
    rw [not_or] at hkeep
    split
    · trivial
    · next hsync =>
      split
      · trivial
      · refine Only.bind (Only.bind (Only.perform (.read rfl)) fun stop => ?_) fun r => ?_
        · cases stop <;> trivial
        · cases r with
          | error e => trivial
          | ok u => exact Only.bind (Only.perform (.deployment d hkeep.2 (by simpa using hsync))) fun _ => trivial

theorem only_pruneConfigMap (inUse : ConfigMapUse) (st : PruneState) (c : ConfigMap) :
    Only (I := Api) (PruneOp desired autoSync) (pruneConfigMap y desired autoSync inUse st c).run := by
  unfold pruneConfigMap
  split
  · trivial
  · next hkeep =>
    simp only [not_or] at hkeep
    split
    · trivial
    · next hsync =>
      split
      · trivial
      · refine Only.bind (Only.bind (Only.perform (.read rfl)) fun stop => ?_) fun r => ?_
        · cases stop <;> trivial
        · cases r with
          | error e => trivial
          | ok u => exact Only.bind (Only.perform (.configMap c hkeep.2.1 (by simpa using hsync))) fun _ => trivial

theorem only_pruneRead {k : Kind} (ns : Option String) (labels : StrMap String) (st : PruneState) :
    Only (I := Api) (PruneOp desired autoSync) (pruneRead st (listObjs k ns labels)).run := by
  refine Only.bind (Only.bind (Only.perform (.read rfl)) fun r => ?_) fun r => ?_
  · cases r <;> trivial
  · cases r <;> trivial

theorem only_pruneConfigMaps (st : PruneState) (ds : List Deployment) :
    Only (I := Api) (PruneOp desired autoSync) (pruneConfigMaps y desired autoSync st ds).run := by
  refine (only_pruneRead desired autoSync _ _ _).tryBind fun cms => ?_
  dsimp only
  split
  · trivial
  · exact (only_pruneRead desired autoSync _ _ _).tryBind fun pods =>
      Only.tryFoldlM fun c _ st => only_pruneConfigMap y desired autoSync _ st c

theorem only_pruneOrphans : Only (I := Api) (PruneOp desired autoSync) (pruneOrphans y desired autoSync) := by
  refine Only.bind ?_ fun r => by cases r <;> trivial
  refine (only_pruneRead desired autoSync _ _ _).tryBind fun ds => ?_
  refine (Only.tryFoldlM fun d _ st => only_pruneDeployment y desired autoSync st d).tryBind fun st => ?_
  dsimp only
  split
  · exact (only_pruneRead desired autoSync _ _ _).tryBind fun ds => only_pruneConfigMaps y desired autoSync st ds
  · exact only_pruneConfigMaps y desired autoSync st ds

/-- The calls after the apply loop: the prune is reached only without an error. -/
theorem only_finishPass (plan : PassPlan) (services : StrMap ServicePlan) (st : LoopState) :
    Only (I := Api) (fun c => Op.Reports y c ∨ (st.errs = [] ∧ PruneOp st.desired plan.autoSync c))
      (finishPass y plan services st) := by
  have hquiet {α : Type} {p : Pass α} (h : Quiet y p) :
      Only (I := Api) (fun c => Op.Reports y c ∨ (st.errs = [] ∧ PruneOp st.desired plan.autoSync c)) p :=
    h.mono fun _ => Or.inl
  refine (hquiet ((idle_collectPods y).quiet y)).bind fun pods => ?_
  dsimp only
  split
  · next e hj => exact hquiet (quiet_reportFailure y _ e)
  · next hj =>
    have herrs : st.errs = [] := (List.append_eq_nil_iff.1 (Err.join_eq_none.1 hj)).1
    refine ((only_pruneOrphans y st.desired plan.autoSync).mono fun c hc => Or.inr ⟨herrs, hc⟩).bind fun r => ?_
    obtain ⟨pruned, err⟩ := r
    dsimp only
    split
    · refine (hquiet ((idle_recordEvent _ _).quiet y)).bind fun _ => ?_
      cases err with
      | some e => exact hquiet (quiet_reportFailure y _ _)
      | none => exact hquiet (quiet_reportSuccess y _ plan _ _)
    · cases err with
      | some e => exact hquiet (quiet_reportFailure y _ _)
      | none => exact hquiet (quiet_reportSuccess y _ plan _ _)

end

/-! ## A pass up to its plan -/

/-- The pass of a live installation, run from `s`, comes to its plan in `t`: it reads its configuration, the box type and the
overrides are valid, and the exclusivity check finds no conflict on the nodes that it lists. -/
structure PassSelects {σ : Type} (exec : σ → (c : Api.Call) → Api.Answer c × σ) (Γ : Platform) (y : Yanet) (s : σ)
    (cfg : YanetConfigSpec) (enabled : List ComponentRef) (nodes : List Node) (t : σ) : Prop where
  live : y.metadata.deletionTimestamp = none
  finalizer : yanetFinalizer ∈ y.metadata.finalizers
  running : cfg.stop = false
  box : ∃ box, findBoxType cfg y.spec.boxType = .ok box ∧
    validateEffectiveYanetComponentOverrides Γ y.spec.components cfg.components box = .ok ()
  wired : enabledComponentsForBox Γ cfg y.spec.boxType = .ok enabled
  reads : ∃ s₁ s₂, run exec loadConfig.run s = (.ok (some cfg), s₁) ∧
    run exec (listObjs .node none y.spec.nodeSelector).run s₁ = (.ok nodes, s₂) ∧
    run exec (validateExclusiveNodes y nodes) s₂ = (.ok (), t)

section

variable {σ α β : Type} {exec : σ → (c : Api.Call) → Api.Answer c × σ}

/-- The calls of a run that change a Deployment or a ConfigMap. -/
def changes (exec : σ → (c : Api.Call) → Api.Answer c × σ) (p : Pass α) (s : σ) : List Op :=
  (calls exec p s).filter Op.changesWorkload

theorem changes_bind (p : Pass α) (f : α → Pass β) (s : σ) :
    changes exec (p >>= f) s = changes exec p s ++ changes exec (f (run exec p s).1) (run exec p s).2 := by
  rw [changes, calls_bind]
  exact List.filter_append _ _

theorem Quiet.changes_eq {p : Pass α} {y : Yanet} (h : Quiet y p) (s : σ) : changes exec p s = [] := by
  refine List.filter_eq_nil_iff.2 fun c hc => ?_
  rw [(h.mem_calls hc).unchanged]
  exact Bool.false_ne_true

theorem Idle.changes_eq {p : Pass α} (h : Idle p) (s : σ) : changes exec p s = [] := (h.quiet {}).changes_eq s

/-- A sequence that begins with a part that changes nothing. -/
theorem changes_bind_of {p : Pass α} {f : α → Pass β} {s t : σ} {a : α} (hp : changes exec p s = [])
    (hrun : run exec p s = (a, t)) : changes exec (p >>= f) s = changes exec (f a) t := by
  rw [changes_bind, hp, hrun, List.nil_append]

theorem changes_tryBind_of {ε : Type} {p : ExceptT ε Pass α} {f : α → ExceptT ε Pass β} {s t : σ} {a : α}
    (hp : changes exec p.run s = []) (hrun : run exec p.run s = (.ok a, t)) :
    changes exec (p >>= f).run s = changes exec (f a).run t :=
  changes_bind_of hp hrun

end

section

variable {σ : Type} {exec : σ → (c : Api.Call) → Api.Answer c × σ} {Γ : Platform} {y : Yanet} {s t u v : σ}
  {cfg : YanetConfigSpec} {enabled : List ComponentRef} {nodes : List Node}

/-- A pass changes what its body changes. -/
theorem changes_reconcileYanet : changes exec (reconcileYanet Γ y) s = changes exec (reconcileYanetBody Γ y) s := by
  unfold reconcileYanet
  rw [changes_bind]
  refine List.append_right_eq_self.2 ?_
  split
  · rfl
  · refine Idle.changes_eq ((idle_issue rfl).bind fun stop => ?_) _
    cases stop <;> trivial

/-- The pass goes on with its nodes, and has only read before. -/
theorem PassSelects.reaches_nodes (h : PassSelects exec Γ y s cfg enabled nodes t) :
    ∃ s₂, run exec (validateExclusiveNodes y nodes) s₂ = (.ok (), t) ∧
      run exec (reconcileYanetBody Γ y) s = run exec (reconcileNodes Γ y (passPlan y cfg enabled) nodes) s₂ ∧
      changes exec (reconcileYanetBody Γ y) s = changes exec (reconcileNodes Γ y (passPlan y cfg enabled) nodes) s₂ := by
  obtain ⟨s₁, s₂, hload, hlist, hexclusive⟩ := h.reads
  obtain ⟨box, hbox, hoverrides⟩ := h.box
  refine ⟨s₂, hexclusive, ?_, ?_⟩
  · unfold reconcileYanetBody reconcileLive
    rw [run_bind, hload]
    dsimp only
    rw [if_neg (by simp [h.running]), if_neg (by simp [h.live]), if_neg (not_not_intro h.finalizer), hbox]
    dsimp only
    rw [hoverrides]
    dsimp only
    rw [h.wired]
    dsimp only
    rw [run_bind, hlist]
  · unfold reconcileYanetBody reconcileLive
    rw [changes_bind_of (idle_loadConfig.changes_eq s) hload]
    dsimp only
    rw [if_neg (by simp [h.running]), if_neg (by simp [h.live]), if_neg (not_not_intro h.finalizer), hbox]
    dsimp only
    rw [hoverrides]
    dsimp only
    rw [h.wired]
    dsimp only
    rw [changes_bind_of ((idle_listObjs _ _ _).changes_eq s₁) hlist]

/-- A pass whose plan is rejected changes nothing. -/
theorem PassSelects.rejected (h : PassSelects exec Γ y s cfg enabled nodes t) {e : Err}
    (hp : run exec (preflightResources Γ (passPlan y cfg enabled) y nodes).run t = (.error e, u)) :
    changes exec (reconcileYanet Γ y) s = [] := by
  obtain ⟨s₂, hexclusive, -, hchanges⟩ := h.reaches_nodes
  rw [changes_reconcileYanet, hchanges, reconcileNodes,
    changes_bind_of ((idle_validateExclusiveNodes y nodes).changes_eq s₂) hexclusive]
  dsimp only
  rw [changes_bind_of ((idle_preflightResources Γ _ y nodes).changes_eq t) hp]
  refine Quiet.changes_eq (y := y) (((idle_recordEvent _ _).quiet y).bind fun _ => ?_) u
  exact (quiet_degraded y y _ _).bind fun _ => trivial

/-- A pass whose plan is accepted applies it and comes to its end. -/
theorem PassSelects.accepted (h : PassSelects exec Γ y s cfg enabled nodes t) {services : StrMap ServicePlan} {st : LoopState}
    (hp : run exec (preflightResources Γ (passPlan y cfg enabled) y nodes).run t = (.ok services, u))
    (hl : run exec (nodes.foldlM (applyNode Γ (passPlan y cfg enabled) y) {}).run u = (.ok st, v)) :
    run exec (reconcileYanetBody Γ y) s = run exec (finishPass y (passPlan y cfg enabled) services st) v ∧
      changes exec (reconcileYanet Γ y) s = changes exec (nodes.foldlM (applyNode Γ (passPlan y cfg enabled) y) {}).run u ++
        changes exec (finishPass y (passPlan y cfg enabled) services st) v := by
  obtain ⟨s₂, hexclusive, hrun, hchanges⟩ := h.reaches_nodes
  constructor
  · rw [hrun, reconcileNodes, run_bind, hexclusive]
    dsimp only
    rw [run_bind, hp]
    dsimp only
    rw [run_bind, hl]
  · rw [changes_reconcileYanet, hchanges, reconcileNodes,
      changes_bind_of ((idle_validateExclusiveNodes y nodes).changes_eq s₂) hexclusive]
    dsimp only
    rw [changes_bind_of ((idle_preflightResources Γ _ y nodes).changes_eq t) hp]
    dsimp only
    rw [changes_bind, hl]

end

end YanetOperator
