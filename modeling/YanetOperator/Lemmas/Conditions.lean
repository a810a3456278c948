import YanetOperator.Controller.YanetReconciler

/-!
# Conditions

What a merge of conditions keeps: types that were distinct, the conditions of other types, and the times of conditions that did
not change. The status a completed pass computes, as a function of what the pass observed and of the two times at which it reads
the clock.
-/

namespace YanetOperator

/-! ## Merging conditions -/

/-- The condition at another time. -/
def Condition.at (c : Condition) (t : Nat) : Condition := { c with lastTransitionTime := t }

/-- A fresh condition as `mergeConditions` writes it over the existing ones. -/
def overlay (existing : List Condition) (nc : Condition) : Condition :=
  match existing.reverse.find? (·.type == nc.type) with
  | some old => if old.status = nc.status ∧ old.reason = nc.reason then nc.at old.lastTransitionTime else nc
  | none => nc

theorem mergeConditions_eq (existing fresh : List Condition) :
    mergeConditions existing fresh =
      fresh.map (overlay existing) ++ existing.filter fun oc => oc.type ∉ fresh.map (·.type) := rfl

theorem overlay_of_find {existing : List Condition} (nc : Condition) {old : Condition}
    (h : existing.reverse.find? (·.type == nc.type) = some old) :
    overlay existing nc = if old.status = nc.status ∧ old.reason = nc.reason then nc.at old.lastTransitionTime else nc := by
  rw [overlay, h]

/-- An overlay changes at most the time. -/
theorem overlay_eq_at (existing : List Condition) (nc : Condition) : ∃ t, overlay existing nc = nc.at t := by
  unfold overlay
  split
  · split
    · exact ⟨_, rfl⟩
    · exact ⟨nc.lastTransitionTime, rfl⟩
  · exact ⟨nc.lastTransitionTime, rfl⟩

@[simp] theorem overlay_type (existing : List Condition) (nc : Condition) : (overlay existing nc).type = nc.type := by
  obtain ⟨t, ht⟩ := overlay_eq_at existing nc
  rw [ht]
  rfl

theorem map_type_overlay (existing fresh : List Condition) :
    (fresh.map (overlay existing)).map (·.type) = fresh.map (·.type) := by
  simp [List.map_map, Function.comp_def]

/-- A merge keeps types distinct. -/
theorem mergeConditions_nodup {existing fresh : List Condition} (hfresh : (fresh.map (·.type)).Nodup)
    (h : (existing.map (·.type)).Nodup) : ((mergeConditions existing fresh).map (·.type)).Nodup := by
  rw [mergeConditions_eq, List.map_append, map_type_overlay]
  refine List.nodup_append.2 ⟨hfresh, h.sublist (List.filter_sublist.map _), fun a ha b hb hab => ?_⟩
  obtain ⟨c, hc, rfl⟩ := List.mem_map.1 hb
  have hnot : c.type ∉ fresh.map (·.type) := by simpa using (List.mem_filter.1 hc).2
  exact hnot (hab ▸ ha)

/-- A merge keeps the conditions of the types it does not write, in their order. -/
theorem filter_mergeConditions {existing fresh : List Condition} {p : Condition → Bool}
    (hp : ∀ c ∈ existing, p c = true → c.type ∉ fresh.map (·.type)) (hfresh : ∀ nc ∈ fresh, ∀ t, p (nc.at t) = false) :
    (mergeConditions existing fresh).filter p = existing.filter p := by
  have hnone : (fresh.map (overlay existing)).filter p = [] := by
    rw [List.filter_eq_nil_iff]
    intro c hc
    obtain ⟨nc, hnc, rfl⟩ := List.mem_map.1 hc
    obtain ⟨t, ht⟩ := overlay_eq_at existing nc
    simp [ht, hfresh nc hnc t]
  rw [mergeConditions_eq, List.filter_append, hnone, List.nil_append, List.filter_filter]
  refine List.filter_congr fun c hc => ?_
  cases h : p c with
  | false => simp
  | true => simpa using hp c hc h

/-- With distinct types the condition found under a type is the one that has it. -/
theorem find?_type {l : List Condition} {c : Condition} (hnodup : (l.map (·.type)).Nodup) (h : c ∈ l) :
    l.find? (·.type == c.type) = some c := by
  cases hf : l.find? (·.type == c.type) with
  | none => exact absurd (beq_self_eq_true c.type) (List.find?_eq_none.1 hf c h)
  | some c' =>
    have htype : c'.type = c.type := by simpa using List.find?_some hf
    rw [List.inj_on_of_nodup_map hnodup (List.mem_of_find?_eq_some hf) h htype]

/-- After a merge the condition found under a written type is the one written. -/
theorem find?_mergeConditions (existing : List Condition) {fresh : List Condition} {nc : Condition} (hfresh : (fresh.map (·.type)).Nodup)
    (h : nc ∈ fresh) :
    (mergeConditions existing fresh).reverse.find? (·.type == nc.type) = some (overlay existing nc) := by
  have hold : (existing.filter fun oc => oc.type ∉ fresh.map (·.type)).reverse.find? (·.type == nc.type) = none := by
    rw [List.find?_eq_none]
    intro c hc htype
    rw [List.mem_reverse, List.mem_filter] at hc
    have hnot : c.type ∉ fresh.map (·.type) := by simpa using hc.2
    exact hnot (by rw [beq_iff_eq.1 htype]; exact List.mem_map_of_mem h)
  have hnew : (fresh.map (overlay existing)).reverse.find? (·.type == (overlay existing nc).type) =
      some (overlay existing nc) := by
    refine find?_type ?_ (List.mem_reverse.2 (List.mem_map_of_mem h))
    rw [List.map_reverse, List.nodup_reverse, map_type_overlay]
    exact hfresh
  rw [overlay_type] at hnew
  rw [mergeConditions_eq, List.reverse_append, List.find?_append, hold, hnew]
  rfl

/-- Merging the same conditions at a later time changes nothing. -/
theorem mergeConditions_again {existing fresh : List Condition} (hfresh : (fresh.map (·.type)).Nodup) (t : Nat) :
    mergeConditions (mergeConditions existing fresh) (fresh.map (·.at t)) = mergeConditions existing fresh := by
  have htypes : (fresh.map (·.at t)).map (·.type) = fresh.map (·.type) := by simp [Condition.at, Function.comp_def]
  have hnew : (fresh.map (·.at t)).map (overlay (mergeConditions existing fresh)) = fresh.map (overlay existing) := by
    rw [List.map_map]
    refine List.map_congr_left fun nc hnc => ?_
    obtain ⟨t', ht'⟩ := overlay_eq_at existing nc
    have hfind := find?_mergeConditions existing hfresh hnc
    rw [Function.comp_apply, overlay_of_find (nc.at t) hfind, ht']
    simp [Condition.at]
  have hold : (mergeConditions existing fresh).filter (fun oc => oc.type ∉ fresh.map (·.type)) =
      existing.filter fun oc => oc.type ∉ fresh.map (·.type) := by
    refine filter_mergeConditions (fun c _ hc => by simpa using hc) fun nc hnc t => ?_
    simpa [Condition.at] using ⟨nc, hnc, rfl⟩
  rw [mergeConditions_eq (mergeConditions existing fresh), htypes, hnew, hold, ← mergeConditions_eq]

/-! ## The conditions of a completed pass -/

/-- The types of the conditions a pass manages. -/
def managedTypes : List String := ["Available", "Progressing", "Degraded", "Ready"]

/-- The conditions `computeConditions` merges into the existing ones. -/
def freshConditions (y : Yanet) (now : Nat) (missingOperators : List String) : List Condition :=
  computeConditions { y with status := { y.status with conditions := [] } } now missingOperators

theorem computeConditions_eq (y : Yanet) (now : Nat) (missingOperators : List String) :
    computeConditions y now missingOperators =
      mergeConditions y.status.conditions (freshConditions y now missingOperators) := by
  simp [computeConditions, freshConditions, mergeConditions]

theorem freshConditions_types (y : Yanet) (now : Nat) (missingOperators : List String) :
    (freshConditions y now missingOperators).map (·.type) = managedTypes := by
  simp only [freshConditions, computeConditions, mergeConditions]
  split_ifs <;> rfl

theorem freshConditions_at (y : Yanet) (now later : Nat) (missingOperators : List String) :
    freshConditions y later missingOperators = (freshConditions y now missingOperators).map (·.at later) := by
  simp only [freshConditions, computeConditions, mergeConditions]
  split_ifs <;> rfl

/-- The conditions depend on the generation and on what was synced. -/
theorem freshConditions_congr {y y' : Yanet} (hgeneration : y'.metadata.generation = y.metadata.generation)
    (hsync : y'.status.sync = y.status.sync) (now : Nat) (missingOperators : List String) :
    freshConditions y' now missingOperators = freshConditions y now missingOperators := by
  simp only [freshConditions, computeConditions, hgeneration, hsync]

/-- Retained ConfigMaps are not a reason of `computeConditions`. -/
theorem freshConditions_reason {y : Yanet} {now : Nat} {missingOperators : List String} :
    ∀ c ∈ freshConditions y now missingOperators, c.reason ≠ "OrphansRetained" := by
  simp only [freshConditions, computeConditions, mergeConditions]
  split_ifs <;> simp

/-! ## The status of a completed pass -/

/-- What a pass that completes has observed: the state of each node with the retained orphans, the Services, the Pods, the missing
operators and the retained ConfigMaps. -/
structure PassResult where
  nodesStatus : StrMap NodeStatus := ∅
  services : List String := []
  pods : StrMap (List String) := ∅
  missingOperators : List String := []
  retainedConfigMaps : List String := []

/-- The installation with the status that was observed. -/
def PassResult.observed (r : PassResult) (y : Yanet) : Yanet := observedStatus y r.nodesStatus r.services r.pods

/-- The installation with the conditions that were computed. -/
def PassResult.computed (r : PassResult) (y : Yanet) (now : Nat) : Yanet :=
  { r.observed y with
    status := { (r.observed y).status with conditions := computeConditions (r.observed y) now r.missingOperators } }

/-- The conditions are computed at one reading of the clock, and retained ConfigMaps are reported at another. -/
def passStatus (y : Yanet) (r : PassResult) (now later : Nat) : YanetStatus :=
  if r.retainedConfigMaps = [] then (r.computed y now).status
  else setConditionsDegraded (r.computed y now) later "OrphansRetained"
    ("ConfigMaps retained with autoSync=false: " ++ Text.bracketed (sortStrings r.retainedConfigMaps))

/-- A pass without errors writes the status it computed. -/
theorem reportSuccess_eq (y : Yanet) (plan : PassPlan) (st : LoopState) (r : PassResult)
    (hmissing : st.missingOperators = r.missingOperators) :
    reportSuccess (r.observed y) plan st r.retainedConfigMaps = (do
      let now : Nat ← issue .now
      let later : Nat ← if r.retainedConfigMaps = [] then pure now else issue .now
      match ← (updateStatus (r.observed y) fun _ => pure (passStatus y r now later)).run with
      | .error _ => pure { requeueAfter := retryDelay }
      | .ok () =>
        if st.syncWaiting then
          pure { requeueAfter := if st.earliestRequeue = 0 then plan.updateWindow else st.earliestRequeue }
        else pure {}) := by
  unfold reportSuccess passStatus
  rw [hmissing]
  refine congrArg _ (funext fun now => ?_)
  by_cases hretained : r.retainedConfigMaps = []
  · simp only [if_pos hretained]
    rfl
  · simp only [if_neg hretained]
    rfl

end YanetOperator
