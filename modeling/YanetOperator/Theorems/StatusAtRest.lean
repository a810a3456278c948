import YanetOperator.Lemmas.Conditions
import YanetOperator.Lemmas.Run

/-!
# The status at rest

When a pass that observes what the pass before it observed computes the status that is already stored. Retained ConfigMaps are
reported by a second merge over the conditions just computed, not over the stored ones, so they get a new time in every pass.
-/

namespace YanetOperator

/-- The conditions after a pass have distinct types if those before it had, and those of other types are the same. -/
def KeepsConditions (before after : List Condition) : Prop :=
  ((before.map (·.type)).Nodup → (after.map (·.type)).Nodup) ∧
    after.filter (fun c => c.type ∉ managedTypes) = before.filter fun c => c.type ∉ managedTypes

/-- Writing a status over a stored one reads the object and issues no other call. -/
def NoStatusWrite (y : Yanet) (stored computed : YanetStatus) : Prop :=
  ∀ (σ : Type) (exec : σ → (c : Api.Call) → Api.Answer c × σ) (s s' : σ) (fresh : Yanet),
    exec s (Op.get .yanet (keyOf .yanet y)) = (.ok fresh, s') → fresh.status = stored →
      Prog.run exec (updateStatus y fun _ => pure computed).run s = (.ok (), s')

/-! ## One pass -/

theorem KeepsConditions.trans {a b c : List Condition} (h : KeepsConditions a b) (h' : KeepsConditions b c) :
    KeepsConditions a c :=
  ⟨fun hnodup => h'.1 (h.1 hnodup), h'.2.trans h.2⟩

/-- A merge of conditions of managed types. -/
theorem mergeConditions_keeps (existing : List Condition) {fresh : List Condition} (hnodup : (fresh.map (·.type)).Nodup)
    (hmanaged : ∀ c ∈ fresh, c.type ∈ managedTypes) : KeepsConditions existing (mergeConditions existing fresh) := by
  refine ⟨mergeConditions_nodup hnodup, filter_mergeConditions (fun c _ hc hmem => ?_) fun nc hnc t => ?_⟩
  · obtain ⟨nc, hnc, htype⟩ := List.mem_map.1 hmem
    have hnot : c.type ∉ managedTypes := by simpa using hc
    exact hnot (htype ▸ hmanaged nc hnc)
  · exact decide_eq_false (not_not_intro (hmanaged nc hnc))

theorem computeConditions_keeps (y : Yanet) (now : Nat) (missingOperators : List String) :
    KeepsConditions y.status.conditions (computeConditions y now missingOperators) := by
  have htypes := freshConditions_types y now missingOperators
  rw [computeConditions_eq]
  refine mergeConditions_keeps _ (htypes ▸ by decide) fun c hc => ?_
  rw [← htypes]
  exact List.mem_map_of_mem hc

theorem setConditionsDegraded_keeps (y : Yanet) (now : Nat) (reason message : String) :
    KeepsConditions y.status.conditions (setConditionsDegraded y now reason message).conditions :=
  mergeConditions_keeps _ (by simp) (by simp [managedTypes])

theorem passStatus_keeps (y : Yanet) (r : PassResult) (now later : Nat) :
    KeepsConditions y.status.conditions (passStatus y r now later).conditions := by
  have hcomputed : KeepsConditions y.status.conditions (r.computed y now).status.conditions :=
    computeConditions_keeps (r.observed y) now r.missingOperators
  unfold passStatus
  split
  · exact hcomputed
  · exact hcomputed.trans (setConditionsDegraded_keeps ..)

/-! ## Two passes -/

/-- Without retained ConfigMaps the second pass computes the same status. -/
theorem passStatus_again {y y' : Yanet} {r : PassResult} {now later : Nat} (hretained : r.retainedConfigMaps = [])
    (hgeneration : y'.metadata.generation = y.metadata.generation) (hstored : y'.status = passStatus y r now later)
    (now' later' : Nat) : passStatus y' r now' later' = passStatus y r now later := by
  rw [passStatus, if_pos hretained] at hstored ⊢
  rw [passStatus, if_pos hretained]
  have hfresh : freshConditions (r.observed y') now' r.missingOperators =
      (freshConditions (r.observed y) now r.missingOperators).map (·.at now') := by
    rw [← freshConditions_at]
    have hobserved : (r.observed y').metadata.generation = (r.observed y).metadata.generation := hgeneration
    exact freshConditions_congr hobserved rfl ..
  have hexisting : (r.observed y').status.conditions =
      mergeConditions (r.observed y).status.conditions (freshConditions (r.observed y) now r.missingOperators) := by
    rw [← computeConditions_eq]
    exact congrArg YanetStatus.conditions hstored
  have hnodup : ((freshConditions (r.observed y) now r.missingOperators).map (·.type)).Nodup := by
    rw [freshConditions_types]
    decide
  have hconditions : computeConditions (r.observed y') now' r.missingOperators =
      computeConditions (r.observed y) now r.missingOperators := by
    rw [computeConditions_eq, computeConditions_eq, hfresh, hexisting, mergeConditions_again hnodup]
  simp only [PassResult.computed, hconditions]
  rfl

/-- Retained ConfigMaps are reported at the time of the pass: the conditions just computed give another reason. -/
theorem passStatus_retained (y : Yanet) {r : PassResult} (hretained : r.retainedConfigMaps ≠ []) (now later : Nat) :
    (passStatus y r now later).conditions.head?.map (·.lastTransitionTime) = some later := by
  obtain ⟨nc, hnc, htype⟩ : ∃ nc ∈ freshConditions (r.observed y) now r.missingOperators, nc.type = "Degraded" := by
    rw [← List.mem_map, freshConditions_types]
    decide
  obtain ⟨t, ht⟩ := overlay_eq_at (r.observed y).status.conditions nc
  have hnodup : ((freshConditions (r.observed y) now r.missingOperators).map (·.type)).Nodup := by
    rw [freshConditions_types]
    decide
  have hfind : (r.computed y now).status.conditions.reverse.find? (·.type == "Degraded") = some (nc.at t) := by
    rw [← ht, ← htype]
    have := find?_mergeConditions (r.observed y).status.conditions hnodup hnc
    rwa [← computeConditions_eq] at this
  have hreason : (nc.at t).reason ≠ "OrphansRetained" := freshConditions_reason nc hnc
  rw [passStatus, if_neg hretained, setConditionsDegraded, mergeConditions_eq, List.map_cons, List.cons_append, List.head?_cons,
    overlay_of_find _ hfind, if_neg fun h => hreason h.2]
  rfl

/-- A pass whose status is stored already writes none. -/
theorem noStatusWrite (y : Yanet) (status : YanetStatus) : NoStatusWrite y status status := by
  intro σ exec s s' fresh hget hstored
  refine run_retryOnConflict ?_ _
  have hread : Prog.run exec (getObj .yanet (keyOf .yanet y)).run s = (.ok fresh, s') := by
    rw [getObj, run_attempt, run_issue, hget]
    rfl
  have hmutate : Prog.run exec (ExceptT.lift (ε := Err) (pure status : Pass YanetStatus)).run s' = (.ok status, s') := rfl
  rw [updateStatusOnce, run_tryBind_ok hread, run_tryBind_ok hmutate, if_pos hstored]
  rfl

/-- A second pass with the same outcome computes the stored status and writes nothing, and both passes keep the conditions. -/
def StatusAtRest (y y' : Yanet) (r : PassResult) (now later now' later' : Nat) : Prop :=
  passStatus y' r now' later' = passStatus y r now later ∧
    NoStatusWrite (r.observed y') y'.status (passStatus y' r now' later') ∧
    KeepsConditions y.status.conditions (passStatus y r now later).conditions ∧
    KeepsConditions y'.status.conditions (passStatus y' r now' later').conditions

/-- The status is at rest exactly when no ConfigMap is retained. -/
theorem statusAtRest_iff (y y' : Yanet) (r : PassResult) {now later now' later' : Nat}
    (hgeneration : y'.metadata.generation = y.metadata.generation) (hstored : y'.status = passStatus y r now later)
    (hclock : now ≤ later ∧ later < now' ∧ now' ≤ later') :
    StatusAtRest y y' r now later now' later' ↔ r.retainedConfigMaps = [] := by
  constructor
  · rintro ⟨hsame, -⟩
    by_contra hretained
    have hfirst := passStatus_retained y hretained now later
    have hsecond := passStatus_retained y' hretained now' later'
    rw [hsame, hfirst, Option.some_inj] at hsecond
    omega
  · intro hretained
    have hsame := passStatus_again hretained hgeneration hstored now' later'
    refine ⟨hsame, ?_, passStatus_keeps .., passStatus_keeps ..⟩
    rw [hsame, ← hstored]
    exact noStatusWrite _ _

/-- A pass that waits for the update window, twice, with a condition of another controller. -/
theorem waitingStatus_atRest :
    let y : Yanet := { status := { conditions := [⟨"Custom", .isTrue, 1, 3, "Foreign", ""⟩] } }
    let r : PassResult := { nodesStatus := StrMap.of [("node-a", { deployments := StrMap.of [("d", "sync-waiting")] })] }
    StatusAtRest y { y with status := passStatus y r 10 10 } r 10 10 20 20 := by
  intro y r
  exact (statusAtRest_iff y { y with status := passStatus y r 10 10 } r rfl rfl ⟨le_refl 10, by decide, le_refl 20⟩).2 rfl

/-- A retained ConfigMap is reported anew in the second pass, at its own time. -/
theorem retainedConfigMap_not_atRest :
    let r : PassResult := { retainedConfigMaps := ["yanet-a-controlplane-config"] }
    let first := passStatus {} r 10 11
    let second := passStatus { status := first } r 20 21
    first.conditions.map (fun c => (c.type, c.lastTransitionTime)) =
        [("Degraded", 11), ("Ready", 11), ("Available", 10), ("Progressing", 10)] ∧
      second.conditions.map (fun c => (c.type, c.lastTransitionTime)) =
        [("Degraded", 21), ("Ready", 21), ("Available", 10), ("Progressing", 10)] ∧
      ¬StatusAtRest {} { status := first } r 10 11 20 21 := by
  refine ⟨by decide +kernel, by decide +kernel, fun h => ?_⟩
  have hsame := congrArg (fun s : YanetStatus => s.conditions.map (·.lastTransitionTime)) h.1
  exact absurd hsame (by decide +kernel)

end YanetOperator
