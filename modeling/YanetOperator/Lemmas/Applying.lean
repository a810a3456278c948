import YanetOperator.Lemmas.Plan
import YanetOperator.Lemmas.ReportOnly

/-!
# Passes that apply

With `autoSync=true` and no update window the apply loop writes at once. On a server without failures the stored objects decide
whether it writes at all, and as long as it does not, it sees one state of the cluster.
-/

namespace YanetOperator

open Prog hiding pure

/-! ## Parts whose changes are decided by the state -/

/-- A part of a pass, run from `s`, changes no workload exactly when `P` holds, and then leaves the server as it is. -/
structure Decided (N : Normalization) (s : Server) (P : Prop) {α : Type} (p : Pass α) : Prop where
  changes_iff : changes (Server.exec N) p s = [] ↔ P
  unchanged : P → (run (Server.exec N) p s).2 = s

section

variable {N : Normalization} {s : Server} {P Q : Prop} {α β ι : Type}

theorem Decided.congr {p : Pass α} (h : Decided N s P p) (hiff : P ↔ Q) : Decided N s Q p :=
  ⟨h.changes_iff.trans hiff, fun hq => h.unchanged (hiff.2 hq)⟩

theorem Idle.decided {p : Pass α} (h : Idle p) : Decided N s True p :=
  ⟨iff_true_intro (h.changes_eq s), fun _ => h.run_server⟩

/-- The second part runs from the same state as the first. -/
theorem Decided.bind {p : Pass α} {f : α → Pass β} (hp : Decided N s P p)
    (hf : P → Decided N s Q (f (run (Server.exec N) p s).1)) : Decided N s (P ∧ Q) (p >>= f) := by
  constructor
  · rw [changes_bind, List.append_eq_nil_iff, hp.changes_iff]
    refine and_congr_right fun h => ?_
    rw [hp.unchanged h]
    exact (hf h).changes_iff
  · rintro ⟨h, hq⟩
    rw [run_bind, hp.unchanged h]
    exact (hf h).unchanged hq

/-- What precedes a part that only reads. -/
theorem Decided.bind_idle {p : Pass α} {f : α → Pass β} (hp : Decided N s P p) (hf : ∀ a, Idle (f a)) : Decided N s P (p >>= f) :=
  (hp.bind fun _ => (hf _).decided).congr (iff_of_eq (and_true P))

theorem Decided.foldlM {P : ι → Prop} {f : α → ι → Pass α} {l : List ι} (hf : ∀ x ∈ l, ∀ a, Decided N s (P x) (f a x)) (a : α) :
    Decided N s (∀ x ∈ l, P x) (l.foldlM f a) := by
  induction l generalizing a with
  | nil => exact ⟨iff_of_true rfl (fun _ h => nomatch h), fun _ => rfl⟩
  | cons x l ih =>
    rw [List.foldlM_cons]
    refine ((hf x List.mem_cons_self a).bind fun _ => ?_).congr List.forall_mem_cons.symm
    exact ih (fun x' hx' => hf x' (List.mem_cons_of_mem x hx')) _

/-- A loop whose steps do not fail. -/
theorem Decided.tryFoldlM {ε : Type} {P : ι → Prop} {f : α → ι → ExceptT ε Pass α} {l : List ι}
    (hf : ∀ x ∈ l, ∀ a, Decided N s (P x) (f a x).run ∧ ∃ b, (run (Server.exec N) (f a x).run s).1 = .ok b) (a : α) :
    Decided N s (∀ x ∈ l, P x) (l.foldlM f a).run := by
  induction l generalizing a with
  | nil => exact ⟨iff_of_true rfl (fun _ h => nomatch h), fun _ => rfl⟩
  | cons x l ih =>
    obtain ⟨hx, b, hb⟩ := hf x List.mem_cons_self a
    rw [List.foldlM_cons, ExceptT.run_bind]
    refine (hx.bind fun _ => ?_).congr List.forall_mem_cons.symm
    rw [hb]
    exact ih (fun x' hx' => hf x' (List.mem_cons_of_mem x hx')) b

end

/-! ## Inline ConfigMaps -/

/-- What the mutation of `applyInlineConfigMaps` makes of a stored ConfigMap; nothing when it refuses the ConfigMap. -/
def mutatedConfigMap (y : Yanet) (ctx : BuildContext) (rc : ResolvedRole) (content : String) (cm : ConfigMap) :
    Option ConfigMap :=
  if cm.metadata.resourceVersion ≠ 0 ∧ controlledByYanet cm.metadata y = false then none
  else (setControllerReference (fillConfigMap ctx rc content cm).metadata (controllerRef y)).toOption.map fun m =>
    { fillConfigMap ctx rc content cm with metadata := m }

/-- What applying mode does to an inline ConfigMap: it is as it should be, it is refused, or it is created or updated. -/
inductive Fate where
  | kept
  | refused
  | written
  deriving DecidableEq

/-- The fate of one inline ConfigMap. -/
def configMapFate (store : Store) (y : Yanet) (ctx : BuildContext) (rc : ResolvedRole) (name content : String) : Fate :=
  match store.find .configMap { ns := ctx.ns, name := name } with
  | none => .written
  | some existing =>
    match mutatedConfigMap y ctx rc content existing with
    | none => .refused
    | some cm => if cm = existing then .kept else .written

/-- The fate of the inline ConfigMaps of a component: the first that is not kept decides. -/
def inlineFate (Γ : Platform) (store : Store) (y : Yanet) (ctx : BuildContext) (rc : ResolvedComponent) : Fate :=
  (((inlineConfigMaps Γ ctx rc).toList.map fun e => configMapFate store y ctx rc.toResolvedRole e.1 e.2).find?
    fun fate => decide (fate ≠ .kept)).getD .kept

section

variable {N : Normalization} {s : Server} {Γ : Platform} {y : Yanet} {ctx : BuildContext}

theorem idle_mutateConfigMap (rc : ResolvedRole) (content : String) (cm : ConfigMap) :
    Idle (mutateConfigMap y ctx rc content cm).run := by
  unfold mutateConfigMap
  split
  · trivial
  · dsimp only
    cases setControllerReference (fillConfigMap ctx rc content cm).metadata (controllerRef y) with
    | error e => trivial
    | ok m => exact idle_checkGlobalStop.tryBind fun _ => trivial

theorem run_mutateConfigMap (hstop : s.config.stop = false) (rc : ResolvedRole) (content : String) (cm : ConfigMap) :
    (run (Server.exec N) (mutateConfigMap y ctx rc content cm).run s).1.toOption = mutatedConfigMap y ctx rc content cm := by
  unfold mutateConfigMap mutatedConfigMap
  split
  · rfl
  · dsimp only
    cases setControllerReference (fillConfigMap ctx rc content cm).metadata (controllerRef y) with
    | error e => rfl
    | ok m =>
      dsimp only
      rw [run_tryBind_ok (run_checkGlobalStop_server hstop)]
      rfl

/-- The mutation of a stored ConfigMap, followed by the rest. -/
theorem mutateConfigMap_cases (hstop : s.config.stop = false) (rc : ResolvedRole) (content : String) (cm : ConfigMap) :
    (∃ e, mutatedConfigMap y ctx rc content cm = none ∧
      run (Server.exec N) (mutateConfigMap y ctx rc content cm).run s = (.error e, s)) ∨
    ∃ cm', mutatedConfigMap y ctx rc content cm = some cm' ∧
      run (Server.exec N) (mutateConfigMap y ctx rc content cm).run s = (.ok cm', s) := by
  have hidle : Idle (mutateConfigMap y ctx rc content cm).run := idle_mutateConfigMap rc content cm
  have hresult := @run_mutateConfigMap N s y ctx hstop rc content cm
  have hend := hidle.run_server (N := N) (s := s)
  revert hresult hend
  generalize run (Server.exec N) (mutateConfigMap y ctx rc content cm).run s = r
  obtain ⟨r, t⟩ := r
  rintro hresult rfl
  cases r with
  | error e => exact .inl ⟨e, hresult.symm, rfl⟩
  | ok cm' => exact .inr ⟨cm', hresult.symm, rfl⟩

/-- A ConfigMap that is not stored is not refused. -/
theorem mutatedConfigMap_desired (rc : ResolvedRole) (name content : String) :
    mutatedConfigMap y ctx rc content (desiredConfigMap ctx rc name content) ≠ none := by
  rw [mutatedConfigMap, if_neg (by simp [desiredConfigMap])]
  simp [setControllerReference, getControllerOf, fillConfigMap, desiredConfigMap, Except.toOption]

/-- A part that writes inline ConfigMaps does to them what their fate says: it returns without a change, fails without a change, or
changes something. -/
inductive Meets (N : Normalization) (s : Server) {α : Type} (a : α) (p : TryPass α) : Fate → Prop where
  | kept (hchanges : changes (Server.exec N) p.run s = []) (hrun : run (Server.exec N) p.run s = (.ok a, s)) : Meets N s a p .kept
  | refused (e : Err) (hchanges : changes (Server.exec N) p.run s = []) (hrun : run (Server.exec N) p.run s = (.error e, s)) :
      Meets N s a p .refused
  | written (hchanges : changes (Server.exec N) p.run s ≠ []) : Meets N s a p .written

theorem createOrUpdate_meets (hstop : s.config.stop = false) (rc : ResolvedRole) (name content : String) :
    Meets N s () (createOrUpdate (desiredConfigMap ctx rc name content) (mutateConfigMap y ctx rc content))
      (configMapFate s.store y ctx rc name content) := by
  have hkey : keyOf .configMap (desiredConfigMap ctx rc name content) = { ns := ctx.ns, name := name } := rfl
  unfold createOrUpdate configMapFate
  rw [hkey]
  have hidle : changes (Server.exec N) (issue (.get .configMap { ns := ctx.ns, name := name })) s = [] :=
    (idle_issue rfl).changes_eq s
  cases hfound : s.store.find .configMap { ns := ctx.ns, name := name } with
  | none =>
    have hget : run (Server.exec N) (issue (.get .configMap { ns := ctx.ns, name := name })) s =
        (.error { reason := .notFound }, s) := Server.exec_get_none (N := N) hfound
    refine .written ?_
    rw [ExceptT.run_mk, changes_bind_of hidle hget]
    dsimp only
    rcases mutateConfigMap_cases (N := N) (y := y) hstop rc content (desiredConfigMap ctx rc name content) with
      ⟨e, hnone, -⟩ | ⟨cm, -, hrun⟩
    · exact absurd hnone (mutatedConfigMap_desired rc name content)
    · rw [if_pos rfl, changes_tryBind_of ((idle_mutateConfigMap rc content _).changes_eq s) hrun]
      exact List.cons_ne_nil _ _
  | some existing =>
    have hget : run (Server.exec N) (issue (.get .configMap { ns := ctx.ns, name := name })) s = (.ok existing, s) :=
      Server.exec_get (N := N) hfound
    have hmutate : changes (Server.exec N) (mutateConfigMap y ctx rc content existing).run s = [] :=
      (idle_mutateConfigMap rc content existing).changes_eq s
    dsimp only
    rcases mutateConfigMap_cases (N := N) (y := y) hstop rc content existing with ⟨e, hnone, hrun⟩ | ⟨cm, hsome, hrun⟩
    · rw [hnone]
      refine .refused e ?_ ?_
      · rw [ExceptT.run_mk, changes_bind_of hidle hget]
        dsimp only
        rw [ExceptT.run_bind, changes_bind_of hmutate hrun]
        rfl
      · rw [ExceptT.run_mk, run_bind, hget]
        exact run_tryBind_error hrun
    · rw [hsome]
      dsimp only
      split
      · next hsame =>
        refine .kept ?_ ?_
        · rw [ExceptT.run_mk, changes_bind_of hidle hget]
          dsimp only
          rw [changes_tryBind_of hmutate hrun, if_pos hsame]
          rfl
        · rw [ExceptT.run_mk, run_bind, hget]
          dsimp only
          rw [run_tryBind_ok hrun, if_pos hsame]
          rfl
      · next hdiffers =>
        refine .written ?_
        rw [ExceptT.run_mk, changes_bind_of hidle hget]
        dsimp only
        rw [changes_tryBind_of hmutate hrun, if_neg hdiffers]
        exact List.cons_ne_nil _ _

section

variable {α β ι : Type} {a : α} {b : β} {p : TryPass α} {f : α → TryPass β} {fate : Fate}

/-- What follows a part without a change. -/
theorem Meets.after (hchanges : changes (Server.exec N) p.run s = []) (hrun : run (Server.exec N) p.run s = (.ok a, s))
    (h : Meets N s b (f a) fate) : Meets N s b (p >>= f) fate := by
  cases h with
  | kept hc hr => exact .kept ((changes_tryBind_of hchanges hrun).trans hc) ((run_tryBind_ok hrun).trans hr)
  | refused e hc hr => exact .refused e ((changes_tryBind_of hchanges hrun).trans hc) ((run_tryBind_ok hrun).trans hr)
  | written hc =>
    refine .written ?_
    rw [changes_tryBind_of hchanges hrun]
    exact hc

/-- A part that is refused or changes something decides the whole. -/
theorem Meets.stop (h : Meets N s a p fate) (hfate : fate ≠ .kept) : Meets N s b (p >>= f) fate := by
  cases h with
  | kept hc hr => exact absurd rfl hfate
  | refused e hc hr =>
    refine .refused e ?_ (run_tryBind_error hr)
    rw [ExceptT.run_bind, changes_bind_of hc hr]
    rfl
  | written hc =>
    refine .written fun h => hc ?_
    rw [ExceptT.run_bind, changes_bind] at h
    exact (List.append_eq_nil_iff.1 h).1

theorem Meets.decided (h : Meets N s a p fate) : Decided N s (fate ≠ .written) p.run := by
  cases h with
  | kept hc hr => exact ⟨iff_of_true hc (by decide), fun _ => congrArg Prod.snd hr⟩
  | refused e hc hr => exact ⟨iff_of_true hc (by decide), fun _ => congrArg Prod.snd hr⟩
  | written hc => exact ⟨iff_of_false hc (by decide), fun h => absurd rfl h⟩

theorem Meets.map (h : Meets N s a p fate) (g : α → β) : Meets N s (g a) (do let x ← p; pure (g x)) fate := by
  by_cases hfate : fate = .kept
  · subst hfate
    cases h with
    | kept hc hr => exact .after hc hr (.kept rfl rfl)
  · exact h.stop hfate

/-- The fate of a walk: the first that is not kept decides. -/
theorem Meets.foldlM {f : α → ι → TryPass α} {fate : ι → Fate} {l : List ι} (hf : ∀ x ∈ l, Meets N s a (f a x) (fate x)) :
    Meets N s a (l.foldlM f a) (((l.map fate).find? fun fate => decide (fate ≠ .kept)).getD .kept) := by
  induction l with
  | nil => exact .kept rfl rfl
  | cons x l ih =>
    have ih := ih fun x' hx' => hf x' (List.mem_cons_of_mem x hx')
    have hx := hf x List.mem_cons_self
    rw [List.map_cons, List.foldlM_cons]
    by_cases hfate : fate x = .kept
    · rw [List.find?_cons_of_neg (by simpa using hfate)]
      rw [hfate] at hx
      cases hx with
      | kept hc hr => exact .after hc hr ih
    · rw [List.find?_cons_of_pos (by simpa using hfate)]
      exact hx.stop hfate

end

theorem applyInlineConfigMap_meets (hstop : s.config.stop = false) (rc : ResolvedRole) (name content : String) :
    Meets N s false (applyInlineConfigMap y ctx rc true name content) (configMapFate s.store y ctx rc name content) := by
  have h := @createOrUpdate_meets N s y ctx hstop rc name content
  revert h
  generalize configMapFate s.store y ctx rc name content = fate
  intro h
  unfold applyInlineConfigMap
  rw [if_pos rfl]
  cases h with
  | kept hchanges hrun =>
    refine .kept ?_ ?_
    · rw [ExceptT.run_mk, changes_bind_of hchanges hrun]
      rfl
    · rw [ExceptT.run_mk, run_bind, hrun]
      rfl
  | refused e hchanges hrun =>
    refine .refused (e.wrap ("configmap " ++ ctx.ns ++ "/" ++ name)) ?_ ?_
    · rw [ExceptT.run_mk, changes_bind_of hchanges hrun]
      rfl
    · rw [ExceptT.run_mk, run_bind, hrun]
      rfl
  | written hchanges =>
    refine .written fun h => hchanges ?_
    rw [ExceptT.run_mk, changes_bind] at h
    exact (List.append_eq_nil_iff.1 h).1

theorem applyInlineConfigMaps_meets (hstop : s.config.stop = false) (rc : ResolvedComponent) :
    Meets N s ((inlineConfigMaps Γ ctx rc).keys, false) (applyInlineConfigMaps Γ y ctx rc true) (inlineFate Γ s.store y ctx rc) := by
  refine Meets.map (Meets.foldlM fun e _ => ?_) _
  exact (applyInlineConfigMap_meets hstop rc.toResolvedRole e.1 e.2).map fun d => false || d

end

/-! ## Deployments -/

section

variable {N : Normalization} {s : Server} {existing desired : Deployment}

/-- Applying mode leaves a Deployment alone: it refuses the stored one, or finds it in sync. -/
def LeavesDeployment (N : Normalization) (store : Store) (d : Deployment) : Prop := Foreign store d ∨ InSync N store d

theorem changes_retryOnConflict {α σ : Type} {exec : σ → (c : Api.Call) → Api.Answer c × σ} {body : TryPass α} {s t : σ} {a : α}
    (h : run exec body.run s = (.ok a, t)) (n : Nat) :
    changes exec (retryOnConflict body n).run s = changes exec body.run s := by
  cases n with
  | zero => rfl
  | succ n =>
    rw [retryOnConflict, ExceptT.run_mk, changes_bind, h]
    exact List.append_nil _

/-- An update of a stored Deployment that does not drift is not written, whatever the update window. -/
theorem changes_updateDeploymentOnce_synced (hfound : s.store.find .deployment (keyOf .deployment desired) = some existing)
    (howned : validateDeploymentOwnership existing desired = .ok ()) (hstop : s.config.stop = false)
    (hdrift : N.drifts existing desired = false) (window : Int) (host : String) :
    changes (Server.exec N) (updateDeploymentOnce desired true window host).run s = [] := by
  have hget : run (Server.exec N) (getObj .deployment (keyOf .deployment desired)).run s = (.ok existing, s) := by
    rw [getObj, run_attempt, run_issue, Server.exec_get hfound]
    rfl
  have hidle : changes (Server.exec N) (getObj .deployment (keyOf .deployment desired)).run s = [] :=
    (idle_attempt (idle_issue rfl)).changes_eq s
  rw [updateDeploymentOnce, changes_tryBind_of hidle hget, howned]
  dsimp only
  rw [changes_tryBind_of ((idle_desiredDeploymentUpdate existing desired).changes_eq s) (run_desiredDeploymentUpdate hfound hstop),
    hdrift]
  rfl

/-- Without an update window an update of a stored Deployment is written exactly when it drifts. -/
theorem changes_updateDeploymentOnce (hfound : s.store.find .deployment (keyOf .deployment desired) = some existing)
    (howned : validateDeploymentOwnership existing desired = .ok ()) (hstop : s.config.stop = false) (host : String) :
    changes (Server.exec N) (updateDeploymentOnce desired true 0 host).run s = [] ↔ N.drifts existing desired = false := by
  refine ⟨fun hnone => ?_, fun hdrift => changes_updateDeploymentOnce_synced hfound howned hstop hdrift 0 host⟩
  by_contra hdrift
  have hdrift : N.drifts existing desired = true := by simpa using hdrift
  have hget : run (Server.exec N) (getObj .deployment (keyOf .deployment desired)).run s = (.ok existing, s) := by
    rw [getObj, run_attempt, run_issue, Server.exec_get hfound]
    rfl
  have hidle : changes (Server.exec N) (getObj .deployment (keyOf .deployment desired)).run s = [] :=
    (idle_attempt (idle_issue rfl)).changes_eq s
  have hask : run (Server.exec N) (ExceptT.lift (ε := Err) (issue (.requeue 0 host))).run s = (.ok 0, s.askWindow 0 host) := rfl
  rw [updateDeploymentOnce, changes_tryBind_of hidle hget, howned] at hnone
  dsimp only at hnone
  rw [changes_tryBind_of ((idle_desiredDeploymentUpdate existing desired).changes_eq s) (run_desiredDeploymentUpdate hfound hstop),
    if_pos hdrift] at hnone
  dsimp only at hnone
  rw [if_neg (by decide), changes_tryBind_of rfl hask, if_neg (lt_irrefl (0 : Int)),
    changes_tryBind_of (idle_checkGlobalStop.changes_eq _) (run_checkGlobalStop_server (s := s.askWindow 0 host) hstop)] at hnone
  exact List.cons_ne_nil _ _ hnone

/-- Whether applying mode without an update window writes a Deployment. -/
theorem decided_applyDeployment (hstop : s.config.stop = false) (desired : Deployment) (host : String) :
    Decided N s (LeavesDeployment N s.store desired) (applyDeployment desired true 0 host) := by
  have hidle : changes (Server.exec N) (issue (.get .deployment (keyOf .deployment desired))) s = [] :=
    (idle_issue rfl).changes_eq s
  cases hfound : s.store.find .deployment (keyOf .deployment desired) with
  | none =>
    have hget : run (Server.exec N) (issue (.get .deployment (keyOf .deployment desired))) s =
        (.error { reason := .notFound }, s) := Server.exec_get_none (N := N) hfound
    have hnot : ¬LeavesDeployment N s.store desired := by
      rintro (⟨existing, e, h, -⟩ | ⟨existing, h, -⟩) <;> (rw [hfound] at h; cases h)
    refine ⟨iff_of_false ?_ hnot, fun h => absurd h hnot⟩
    rw [applyDeployment, changes_bind_of hidle hget]
    dsimp only
    rw [if_pos rfl, createDeployment, if_neg (by decide),
      changes_bind_of (idle_checkGlobalStop.changes_eq s) (run_checkGlobalStop_server hstop)]
    exact List.cons_ne_nil _ _
  | some existing =>
    have hget : run (Server.exec N) (issue (.get .deployment (keyOf .deployment desired))) s = (.ok existing, s) :=
      Server.exec_get (N := N) hfound
    cases howned : validateDeploymentOwnership existing desired with
    | error e =>
      have hleaves : LeavesDeployment N s.store desired := .inl ⟨existing, e, hfound, howned⟩
      refine ⟨iff_of_true ?_ hleaves, fun _ => ?_⟩
      · rw [applyDeployment, changes_bind_of hidle hget]
        dsimp only
        rw [howned]
        rfl
      · rw [applyDeployment, run_bind, hget]
        dsimp only
        rw [howned]
        rfl
    | ok u =>
      have hleaves : LeavesDeployment N s.store desired ↔ N.drifts existing desired = false := by
        constructor
        · rintro (⟨existing', e, h, he⟩ | ⟨existing', h, hdrift⟩)
          · rw [hfound] at h
            cases h
            rw [howned] at he
            cases he
          · rw [hfound] at h
            cases h
            exact hdrift
        · exact fun h => .inr ⟨existing, hfound, h⟩
      have honce := run_updateDeploymentOnce (N := N) hfound howned hstop true 0 host
      constructor
      · rw [hleaves, ← changes_updateDeploymentOnce hfound howned hstop host, ← changes_retryOnConflict honce defaultRetries,
          applyDeployment, changes_bind_of hidle hget]
        dsimp only
        rw [howned]
        dsimp only
        rw [changes_bind, run_retryOnConflict honce]
        exact iff_of_eq (congrArg (· = []) (List.append_nil _))
      · intro h
        rw [run_applyDeployment hfound howned hstop, applied_of_not_drifts (hleaves.1 h)]

end

/-! ## The apply loop -/

/-- Applying mode changes nothing of a component: an inline ConfigMap is refused before one is written, or all are kept and every
rendered Deployment is as `D` says. -/
def ComponentSettled (Γ : Platform) (plan : PassPlan) (y : Yanet) (store : Store) (D : Deployment → Prop) (ctx : BuildContext)
    (ref : ComponentRef) : Prop :=
  ∀ rc, resolveForPass Γ plan y ref = .ok (some rc) → rc.isColocated = false →
    inlineFate Γ store y ctx rc = .refused ∨
      (inlineFate Γ store y ctx rc = .kept ∧ ∀ w ∈ passWorkloads Γ plan y ctx ref, D w.deployment)

section

variable {N : Normalization} {s : Server} {Γ : Platform} {plan : PassPlan} {y : Yanet} {node : Node} {ctx : BuildContext}

theorem decided_applyRendered (hmode : plan.autoSync = true) (hwindow : plan.updateWindow = 0) (hstop : s.config.stop = false)
    (isControlplane configDrift : Bool) (acc : LoopState × NodeStatus) (d : Deployment) :
    Decided N s (LeavesDeployment N s.store d) (applyRendered plan node isControlplane configDrift acc d) := by
  unfold applyRendered
  rw [hmode, hwindow]
  refine (decided_applyDeployment hstop d node.metadata.name).bind_idle fun outcome => ?_
  dsimp only
  split
  · exact (idle_recordEvent _ _).bind fun _ => trivial
  · trivial

theorem decided_applyComponent {ref : ComponentRef} (hmode : plan.autoSync = true) (hwindow : plan.updateWindow = 0)
    (hstop : s.config.stop = false) (hr : Renders Γ plan y ctx ref) (acc : LoopState × NodeStatus) :
    Decided N s (ComponentSettled Γ plan y s.store (LeavesDeployment N s.store) ctx ref)
      (applyComponent Γ plan y node ctx acc ref) := by
  unfold applyComponent ComponentSettled passWorkloads
  dsimp only
  rcases hr with hnone | ⟨rc, rendered, hr, hd⟩
  · rw [hnone]
    exact ⟨iff_of_true rfl (fun _ h => nomatch h), fun _ => rfl⟩
  · rw [hr]
    dsimp only
    rw [hd]
    dsimp only
    split
    · next hcol =>
      refine ⟨iff_of_true rfl fun rc' h hcol' => ?_, fun _ => rfl⟩
      cases h
      rw [hcol] at hcol'
      cases hcol'
    · next hcol =>
      rw [hmode]
      have hinline := @applyInlineConfigMaps_meets N s Γ y ctx hstop rc
      refine (hinline.decided.bind (Q := inlineFate Γ s.store y ctx rc = .kept →
        ∀ d ∈ rendered.map fun d => normalizeDeploymentReplicas d rc.enabled plan.installationEnabled,
          LeavesDeployment N s.store d) fun hfate => ?_).congr ?_
      · revert hinline hfate
        generalize inlineFate Γ s.store y ctx rc = fate
        intro hinline hfate
        cases hinline with
        | kept hc hrun =>
          rw [hrun]
          have hloop := Decided.foldlM (P := LeavesDeployment N s.store)
            (f := applyRendered plan node (decide (ref.kind = .controlplane)) false)
            (l := rendered.map fun d => normalizeDeploymentReplicas d rc.enabled plan.installationEnabled)
            (fun d _ acc => decided_applyRendered hmode hwindow hstop _ _ acc d)
          exact (hloop _).congr ⟨fun h _ => h, fun h => h rfl⟩
        | refused e hc hrun =>
          rw [hrun]
          exact ⟨iff_of_true rfl (fun h => nomatch h), fun _ => rfl⟩
        | written hc => exact absurd rfl hfate
      · generalize hfate : inlineFate Γ s.store y ctx rc = fate
        constructor
        · rintro ⟨hwritten, hkept⟩ rc' h -
          cases h
          rw [hfate]
          cases fate with
          | kept => exact .inr ⟨rfl, by simpa using hkept rfl⟩
          | refused => exact .inl rfl
          | written => exact absurd rfl hwritten
        · intro h
          have h := h rc rfl (by simpa using hcol)
          rw [hfate] at h
          rcases h with rfl | ⟨rfl, h⟩
          · exact ⟨by decide, fun h => nomatch h⟩
          · exact ⟨by decide, fun _ => by simpa using h⟩

/-- The whole apply loop. -/
theorem decided_applyNodes {nodes : List Node} (hmode : plan.autoSync = true) (hwindow : plan.updateWindow = 0)
    (hstop : s.config.stop = false) (h : PlanAccepted Γ plan y nodes) :
    Decided N s (∀ node ∈ nodes, ∀ ctx, nodeContext Γ plan y node = .ok ctx → ∀ ref ∈ plan.enabled,
      ComponentSettled Γ plan y s.store (LeavesDeployment N s.store) ctx ref) (nodes.foldlM (applyNode Γ plan y) {}).run := by
  refine Decided.tryFoldlM (fun node hnode st => ?_) _
  obtain ⟨ctx, hctx, hrefs⟩ := h.renders node hnode
  unfold applyNode
  rw [hctx]
  dsimp only
  have hloop := Decided.foldlM (f := applyComponent Γ plan y node ctx)
    (fun ref href acc => decided_applyComponent (N := N) hmode hwindow hstop (hrefs ref href).renders acc)
    (st, { nodeName := node.metadata.name })
  constructor
  · refine (Decided.bind_idle (Decided.bind_idle hloop fun acc => ?_) fun r => ?_).congr ?_
    · trivial
    · cases r <;> trivial
    · constructor
      · rintro h ctx' hctx'
        cases hctx'
        exact h
      · exact fun h => h ctx rfl
  · rw [ExceptT.run_bind, run_bind, ExceptT.run_lift, map_eq_pure_bind, run_bind]
    exact ⟨_, rfl⟩

end

end YanetOperator
