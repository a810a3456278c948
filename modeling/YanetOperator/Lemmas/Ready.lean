import YanetOperator.Lemmas.Conditions
import YanetOperator.Lemmas.ReportOnly

/-!
# What Ready means after a report-only pass

On a server without failures every end of a pass that is not a success leaves the installation not ready, and a success leaves it
ready only when every state is synced and no object is retained.
-/

namespace YanetOperator

open Prog hiding pure

/-- The installation has the condition Ready=True. -/
def Yanet.IsReady (y : Yanet) : Prop := ∃ c ∈ y.status.conditions, c.type = "Ready" ∧ c.status = .isTrue

/-- The installation under the key is stored with Ready=True. -/
def Server.ReadyAt (s : Server) (key : Key) : Prop := ∃ y : Yanet, s.store.find .yanet key = some y ∧ y.IsReady

/-! ## Conditions -/

/-- The prune keeps a Deployment: it is foreign or desired. -/
def KeepsDeployment (y : Yanet) (desired : DesiredSet) (d : Deployment) : Prop :=
  controlledByYanet d.metadata y = false ∨ d.metadata.name ∈ desired.deployments

/-- The prune keeps a ConfigMap: it is foreign, desired or in use, or a rollout is pending. -/
def KeepsConfigMap (y : Yanet) (desired : DesiredSet) (inUse : ConfigMapUse) (c : ConfigMap) : Prop :=
  controlledByYanet c.metadata y = false ∨ c.metadata.name ∈ desired.configMaps ∨ c.metadata.name ∈ inUse.referenced ∨
    inUse.pending = true

instance (y : Yanet) (desired : DesiredSet) (d : Deployment) : Decidable (KeepsDeployment y desired d) :=
  inferInstanceAs (Decidable (_ ∨ _))

instance (y : Yanet) (desired : DesiredSet) (inUse : ConfigMapUse) (c : ConfigMap) : Decidable (KeepsConfigMap y desired inUse c) :=
  inferInstanceAs (Decidable (_ ∨ _))

/-- The use of ConfigMaps by the stored Deployments and Pods of an installation. -/
def storedUse (y : Yanet) (store : Store) : ConfigMapUse :=
  let ds := store.select .deployment (some y.metadata.ns) ∅
  let pods := store.select .pod (some y.metadata.ns) (yanetLabels y)
  { deploymentUse y ds with referenced := (deploymentUse y ds).referenced ++ pods.flatMap fun p => podConfigMapRefs p.spec }

/-- The prune keeps everything that is stored. -/
structure KeepsStored (y : Yanet) (desired : DesiredSet) (store : Store) : Prop where
  deployments : ∀ d ∈ store.select .deployment (some y.metadata.ns) ∅, KeepsDeployment y desired d
  configMaps : ∀ c ∈ store.select .configMap (some y.metadata.ns) (yanetLabels y), KeepsConfigMap y desired (storedUse y store) c

section

variable {N : Normalization} {s : Server} {y : Yanet} {desired : DesiredSet} {inUse : ConfigMapUse}

theorem pruneDeployment_keeps (autoSync : Bool) (st : PruneState) {d : Deployment} (h : KeepsDeployment y desired d) :
    pruneDeployment y desired autoSync st d = pure st := by
  unfold KeepsDeployment at h
  rw [pruneDeployment, if_pos h]

theorem pruneConfigMap_keeps (autoSync : Bool) (st : PruneState) {c : ConfigMap} (h : KeepsConfigMap y desired inUse c) :
    pruneConfigMap y desired autoSync inUse st c = pure st := by
  unfold KeepsConfigMap at h
  rw [pruneConfigMap, if_pos h]

theorem run_pruneRead {k : Kind} (ns : Option String) (labels : StrMap String) (st : PruneState) :
    run (Server.exec N) (pruneRead st (listObjs k ns labels)).run s = (.ok (s.store.select k ns labels), s) := rfl

theorem foldlM_eq_pure {α ι : Type} {m : Type → Type} [Monad m] [LawfulMonad m] {f : α → ι → m α} {l : List ι}
    (hf : ∀ x ∈ l, ∀ a, f a x = pure a) (a : α) : l.foldlM f a = pure a := by
  induction l with
  | nil => rfl
  | cons x l ih =>
    rw [List.foldlM_cons, hf x List.mem_cons_self, LawfulMonad.pure_bind]
    exact ih fun x' hx' => hf x' (List.mem_cons_of_mem x hx')

/-- A prune that leaves each object alone only reads. -/
theorem pruneOrphans_leaves {autoSync : Bool}
    (hds : ∀ d ∈ s.store.select .deployment (some y.metadata.ns) ∅, ∀ st, pruneDeployment y desired autoSync st d = pure st)
    (hcms : ∀ c ∈ s.store.select .configMap (some y.metadata.ns) (yanetLabels y), ∀ st,
      pruneConfigMap y desired autoSync (storedUse y s.store) st c = pure st) :
    changes (Server.exec N) (pruneOrphans y desired autoSync) s = [] ∧
      (run (Server.exec N) (pruneOrphans y desired autoSync) s).2 = s := by
  have hread {k : Kind} (ns : Option String) (labels : StrMap String) (st : PruneState) :
      changes (Server.exec N) (pruneRead st (listObjs k ns labels)).run s = [] := rfl
  have hfrom : run (Server.exec N) (pruneOrphansFrom y desired autoSync).run s = (.ok {}, s) ∧
      changes (Server.exec N) (pruneOrphansFrom y desired autoSync).run s = [] := by
    unfold pruneOrphansFrom
    constructor
    · rw [run_tryBind_ok (run_pruneRead _ _ _), foldlM_eq_pure hds, LawfulMonad.pure_bind]
      dsimp only
      rw [if_neg Bool.false_ne_true, LawfulMonad.pure_bind, pruneConfigMaps, run_tryBind_ok (run_pruneRead _ _ _)]
      dsimp only
      split
      · rfl
      · rw [run_tryBind_ok (run_pruneRead _ _ _)]
        exact congrArg (fun p : ExceptT (PruneState × Err) Pass PruneState => run (Server.exec N) p.run s) (foldlM_eq_pure hcms {})
    · rw [changes_tryBind_of (hread _ _ _) (run_pruneRead _ _ _), foldlM_eq_pure hds, LawfulMonad.pure_bind]
      dsimp only
      rw [if_neg Bool.false_ne_true, LawfulMonad.pure_bind, pruneConfigMaps,
        changes_tryBind_of (hread _ _ _) (run_pruneRead _ _ _)]
      dsimp only
      split
      · rfl
      · rw [changes_tryBind_of (hread _ _ _) (run_pruneRead _ _ _)]
        exact congrArg (fun p : ExceptT (PruneState × Err) Pass PruneState => changes (Server.exec N) p.run s)
          (foldlM_eq_pure hcms {})
  constructor
  · rw [pruneOrphans, changes_bind_of hfrom.2 hfrom.1]
    rfl
  · rw [pruneOrphans, run_bind, hfrom.1]
    rfl

/-- A prune that keeps everything changes nothing, in either mode. -/
theorem changes_pruneOrphans (h : KeepsStored y desired s.store) (autoSync : Bool) :
    changes (Server.exec N) (pruneOrphans y desired autoSync) s = [] :=
  (pruneOrphans_leaves (fun d hd st => pruneDeployment_keeps autoSync st (h.deployments d hd))
    fun c hc st => pruneConfigMap_keeps autoSync st (h.configMaps c hc)).1

end

/-! ## The status of a pass -/

/-- The installation with another version and another status. -/
def Yanet.restamped (y : Yanet) (version : Nat) (status : YanetStatus) : Yanet :=
  { y with metadata := { y.metadata with resourceVersion := version }, status := status }

/-- Nothing has changed but the version and the status of the installation under the key. -/
structure Restamps (key : Key) (y y' : Yanet) (s t : Server) : Prop where
  config : t.config = s.config
  others : ∀ k, k ≠ .yanet → t.store k = s.store k
  installations : ∀ o ∈ t.store .yanet, o ∈ s.store .yanet ∨ keyOf .yanet o = key
  found : t.store.find .yanet key = some y'
  same : ∃ version status, y' = y.restamped version status

section

variable {N : Normalization} {s : Server} {y fresh : Yanet}

theorem run_collectPods (y : Yanet) : run (Server.exec N) (collectPods y).run s = (.ok (podsByPhase
    (s.store.select .pod (some y.metadata.ns) (StrMap.of [(labelYanet, y.metadata.name)]))), s) := rfl

/-- The status that is computed is the status that is stored afterwards, and nothing else is stored. -/
theorem run_updateStatus {mutate : Yanet → Pass YanetStatus} {status : YanetStatus}
    (hfound : s.store.find .yanet (keyOf .yanet y) = some fresh) (hstop : s.config.stop = false)
    (hm : run (Server.exec N) (mutate fresh) s = (status, s)) :
    ∃ t y', run (Server.exec N) (updateStatus y mutate).run s = (.ok (), t) ∧
      Restamps (keyOf .yanet y) fresh y' s t ∧ y'.status = status := by
  have hkey := (Store.find_some hfound).2
  have hget : run (Server.exec N) (getObj .yanet (keyOf .yanet y)).run s = (.ok fresh, s) := by
    rw [getObj, run_attempt, run_issue, Server.exec_get hfound]
    rfl
  have hlift : run (Server.exec N) (ExceptT.lift (ε := Err) (mutate fresh)).run s = (.ok status, s) := by
    rw [ExceptT.run_lift, map_eq_pure_bind, run_bind, hm]
    rfl
  by_cases hsame : fresh.status = status
  · refine ⟨s, fresh, run_retryOnConflict ?_ defaultRetries, ⟨rfl, fun _ _ => rfl, fun _ h => .inl h, hfound,
      fresh.metadata.resourceVersion, fresh.status, rfl⟩, hsame⟩
    rw [updateStatusOnce, run_tryBind_ok hget, run_tryBind_ok hlift, if_pos hsame]
    rfl
  · have hcurrent : s.current .yanet ({ fresh with status := status } : Yanet) = .ok fresh := by
      unfold Server.current
      rw [show keyOf .yanet ({ fresh with status := status } : Yanet) = keyOf .yanet y from hkey, Store.get_of_find hfound]
      simp [metaOf]
    refine ⟨s.save N .yanet ({ fresh with status := status } : Yanet) (.updateStatus { fresh with status := status }),
      fresh.restamped (s.revision + 1) status, run_retryOnConflict ?_ defaultRetries,
      ⟨rfl, fun k hk => Store.put_other hk, fun o ho => ?_, ?_, _, _, rfl⟩, rfl⟩
    · rw [updateStatusOnce, run_tryBind_ok hget, run_tryBind_ok hlift, if_neg hsame,
        run_tryBind_ok (run_checkGlobalStop_server hstop), run_attempt, run_issue]
      simp only [Server.exec, hcurrent]
      rfl
    · rcases Store.mem_put.1 ho with rfl | ho
      · exact .inr hkey
      · exact .inl ho.1
    · rw [← hkey]
      exact Store.find_put_self (k := .yanet)

end

end YanetOperator
