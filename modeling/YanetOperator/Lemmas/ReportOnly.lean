import YanetOperator.Lemmas.Frame
import YanetOperator.Lemmas.ServerRun

/-!
# Passes that only report

With `autoSync=false` the apply loop and the prune only read. On a server without failures such a pass sees one state of the
cluster from its beginning to its last status write.
-/

namespace YanetOperator

open Prog hiding pure

/-! ## Report-only parts only read -/

section

variable (y : Yanet) {plan : PassPlan}

theorem idle_desiredDeploymentUpdate (existing desired : Deployment) : Idle (desiredDeploymentUpdate existing desired).run := by
  unfold desiredDeploymentUpdate
  dsimp only
  split
  · trivial
  · refine idle_checkGlobalStop.tryBind fun _ => Only.tryBind ?_ fun _ => trivial
    refine (idle_issue rfl).bind fun r => ?_
    cases r <;> trivial

theorem idle_pruneOrphans (desired : DesiredSet) : Idle (pruneOrphans y desired false) := by
  refine (only_pruneOrphans y desired false).mono fun c hc => ?_
  cases hc with
  | read h => exact h
  | deployment d _ hsync => cases hsync
  | configMap c _ hsync => cases hsync

/-! ## A report-only pass -/

end

/-! ## What a report-only pass observes -/

section

variable {α : Type} {N : Normalization} {s : Server}

theorem Server.exec_idle {c : Op} (h : Op.isIdle c = true) : (s.exec N c).2 = s := by
  cases c with
  | create k o => cases h
  | update k o => cases h
  | updateStatus y => cases h
  | delete k o foreground => cases h
  | requeue window host => cases h
  | dryRun d =>
    unfold Server.exec
    dsimp only
    split <;> rfl
  | _ => rfl

/-- A part that only reads leaves the server as it is. -/
theorem Idle.run_server {p : Pass α} (h : Idle p) : (run (Server.exec N) p s).2 = s := by
  induction p generalizing s with
  | pure a => rfl
  | call c k ih =>
    rw [run_call, ih _ (h.2 _)]
    exact Server.exec_idle h.1

theorem Server.exec_reports {y : Yanet} {c : Op} (h : Op.Reports y c) :
    (s.exec N c).2.store .deployment = s.store .deployment ∧ (s.exec N c).2.store .configMap = s.store .configMap := by
  have hsave (o : Yanet) (c : Op) : (s.save N .yanet o c).store .deployment = s.store .deployment ∧
      (s.save N .yanet o c).store .configMap = s.store .configMap := 
    ⟨Server.save_store_other (by decide), Server.save_store_other (by decide)⟩
  cases c with
  | create k o => exact h.elim
  | delete k o foreground => exact h.elim
  | update k o =>
    cases k with
    | yanet =>
      unfold Server.exec
      dsimp only
      split
      · exact ⟨rfl, rfl⟩
      · exact hsave _ _
    | _ => exact h.elim
  | updateStatus o =>
    unfold Server.exec
    dsimp only
    split
    · exact ⟨rfl, rfl⟩
    · exact hsave _ _
  | dryRun d =>
    unfold Server.exec
    dsimp only
    split <;> exact ⟨rfl, rfl⟩
  | _ => exact ⟨rfl, rfl⟩

/-- A part that only reports leaves the Deployments and the ConfigMaps of the server as they are. -/
theorem Quiet.run_server {y : Yanet} {p : Pass α} (h : Quiet y p) :
    (run (Server.exec N) p s).2.store .deployment = s.store .deployment ∧
      (run (Server.exec N) p s).2.store .configMap = s.store .configMap := by
  induction p generalizing s with
  | pure a => exact ⟨rfl, rfl⟩
  | call c k ih =>
    rw [run_call]
    obtain ⟨hd, hc⟩ := ih (s.exec N c).1 (h.2 _) (s := (s.exec N c).2)
    obtain ⟨hd', hc'⟩ := Server.exec_reports (N := N) (s := s) h.1
    exact ⟨hd.trans hd', hc.trans hc'⟩

end

/-- The stored Deployment under the name of the desired one belongs to something else. -/
def Foreign (store : Store) (d : Deployment) : Prop :=
  ∃ existing e, store.find .deployment (keyOf .deployment d) = some existing ∧ validateDeploymentOwnership existing d = .error e

/-- A stored Deployment is as the desired one. -/
def InSync (N : Normalization) (store : Store) (d : Deployment) : Prop :=
  ∃ existing, store.find .deployment (keyOf .deployment d) = some existing ∧ N.drifts existing d = false

/-- Some inline ConfigMap of a component is missing or is reported as drifted. -/
def inlineDrift (Γ : Platform) (store : Store) (y : Yanet) (ctx : BuildContext) (rc : ResolvedComponent) : Bool :=
  (inlineConfigMaps Γ ctx rc).toList.any fun e =>
    match store.find .configMap { ns := ctx.ns, name := e.1 } with
    | none => true
    | some cm => configMapDrifts y cm (desiredConfigMap ctx rc.toResolvedRole e.1 e.2)

section

variable {N : Normalization} {s : Server} {Γ : Platform} {y : Yanet} {plan : PassPlan} {node : Node} {ctx : BuildContext}

/-- The workloads of a component on a node, each with whether the inline ConfigMaps of its component drift. -/
def observations (Γ : Platform) (plan : PassPlan) (y : Yanet) (store : Store) (ctx : BuildContext) (ref : ComponentRef) :
    List (Deployment × Bool) :=
  (passWorkloads Γ plan y ctx ref).map fun w => (w.deployment, inlineDrift Γ store y ctx w.component)

/-- How often a Deployment name is observed. -/
def timesNamed (seen : List (Deployment × Bool)) (name : String) : Nat := (seen.map fun e => e.1.metadata.name).count name

/-- A state that is only given to a Deployment in sync whose inline ConfigMaps do not drift. -/
def Shows (N : Normalization) (store : Store) (e : Deployment × Bool) (state : String) : Prop :=
  state = "synced" → InSync N store e.1 ∧ e.2 = false

/-- The loop over a node after some workloads: without an error none of them is foreign, and the state of one whose name was
observed once is in the status of the node. -/
structure Observes (N : Normalization) (store : Store) (base : LoopState) (seen : List (Deployment × Bool))
    (acc : LoopState × NodeStatus) : Prop where
  kept : acc.1.nodesStatus = base.nodesStatus
  errs : acc.1.errs = [] → base.errs = [] ∧ ∀ e ∈ seen, ¬Foreign store e.1
  shown : ∀ e ∈ seen, timesNamed seen e.1.metadata.name = 1 →
    ∃ state, acc.2.deployments[e.1.metadata.name]? = some state ∧ Shows N store e state

theorem timesNamed_append (seen : List (Deployment × Bool)) (e : Deployment × Bool) (name : String) :
    timesNamed (seen ++ [e]) name = timesNamed seen name + if e.1.metadata.name = name then 1 else 0 := by
  simp only [timesNamed, List.map_append, List.map_cons, List.map_nil, List.count_append, List.count_singleton]
  congr 1
  by_cases h : e.1.metadata.name = name <;> simp [h]

theorem one_le_timesNamed {seen : List (Deployment × Bool)} {e : Deployment × Bool} (h : e ∈ seen) :
    1 ≤ timesNamed seen e.1.metadata.name :=
  List.count_pos_iff.2 (List.mem_map_of_mem h)

/-- One more Deployment is recorded. -/
theorem Observes.record {store : Store} {base : LoopState} {seen : List (Deployment × Bool)} {acc : LoopState × NodeStatus}
    (h : Observes N store base seen acc) {e : Deployment × Bool} {outcome : ApplyOutcome} {state : String} {numaCount : Nat}
    (hforeign : outcome.err = none → ¬Foreign store e.1) (hstate : Shows N store e state) :
    Observes N store base (seen ++ [e]) (acc.1.record e.1 outcome state,
      { acc.2 with numaCount := numaCount, deployments := acc.2.deployments.insert e.1.metadata.name state }) := by
  refine ⟨h.kept, fun he => ?_, fun x hx hcount => ?_⟩
  · obtain ⟨hbefore, hnew⟩ := List.append_eq_nil_iff.1 he
    obtain ⟨hbase, hseen⟩ := h.errs hbefore
    refine ⟨hbase, fun x hx => ?_⟩
    rcases List.mem_append.1 hx with hx | hx
    · exact hseen x hx
    · rw [List.mem_singleton.1 hx]
      exact hforeign (by simpa using hnew)
  · rw [timesNamed_append] at hcount
    rcases List.mem_append.1 hx with hx | hx
    · -- the new Deployment has another name, or the name would be observed twice
      have hone := one_le_timesNamed hx
      have hne : e.1.metadata.name ≠ x.1.metadata.name := by
        intro heq
        rw [if_pos heq] at hcount
        omega
      rw [if_neg hne] at hcount
      obtain ⟨state', hfound, hshows⟩ := h.shown x hx hcount
      exact ⟨state', by simp [Std.ExtTreeMap.getElem?_insert, hne, hfound], hshows⟩
    · rw [List.mem_singleton.1 hx]
      exact ⟨state, by simp, hstate⟩

/-- The observations of a node. -/
def nodeObservations (Γ : Platform) (plan : PassPlan) (y : Yanet) (store : Store) (node : Node) : List (Deployment × Bool) :=
  match nodeContext Γ plan y node with
  | .ok ctx => plan.enabled.flatMap (observations Γ plan y store ctx)
  | .error _ => []

end

end YanetOperator
