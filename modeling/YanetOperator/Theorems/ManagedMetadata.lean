import YanetOperator.Lemmas.Metadata

/-!
# Managed metadata over whole histories

The metadata an object ends up with when a sequence of desired metadata is merged into it and no one else writes it.
-/

namespace YanetOperator

/-- The map wanted last. -/
def lastWanted (history : List (StrMap String)) : StrMap String := history.getLast?.getD ∅

/-- What a history of wanted maps leaves under a key: the last wanted value, or else the initial one of a key that was never
wanted. -/
def settledValue (initial : StrMap String) (history : List (StrMap String)) (k : String) : Option String :=
  (lastWanted history)[k]?.or (if ∃ d ∈ history, k ∈ d then none else initial[k]?)

/-- The tracking annotation of a wanted map: its keys in order, and none when there are none. -/
def trackerOf (wanted : StrMap String) : Option String :=
  if wanted.isEmpty then none else some (Text.join "," wanted.keys)

/-- The metadata after a history of merges. -/
def mergeHistory (initial : ObjectMeta) (history : List ObjectMeta) : ObjectMeta := history.foldl mergeManagedMeta initial

@[simp] theorem lastWanted_concat (history : List (StrMap String)) (d : StrMap String) : lastWanted (history ++ [d]) = d := by
  simp [lastWanted]

theorem mergeHistory_concat (initial : ObjectMeta) (history : List ObjectMeta) (d : ObjectMeta) :
    mergeHistory initial (history ++ [d]) = mergeManagedMeta (mergeHistory initial history) d := by
  simp [mergeHistory]

theorem mem_of_mem_lastWanted {history : List (StrMap String)} {k : String} (h : k ∈ lastWanted history) :
    ∃ d ∈ history, k ∈ d := by
  unfold lastWanted at h
  cases hlast : history.getLast? with
  | none =>
    rw [hlast] at h
    exact absurd h (by simp)
  | some d =>
    rw [hlast] at h
    exact ⟨d, List.mem_of_getLast? hlast, h⟩

/-- One more wanted map: a key it has gets its value, and a key that was wanted last and is not wanted now goes. -/
theorem settledValue_concat (initial : StrMap String) (history : List (StrMap String)) (d : StrMap String) (k : String) :
    settledValue initial (history ++ [d]) k =
      d[k]?.or (if k ∈ (lastWanted history).keys then none else settledValue initial history k) := by
  rw [settledValue, lastWanted_concat]
  cases hd : d[k]? with
  | some v => simp
  | none =>
    have hk : k ∉ d := by simpa using hd
    simp only [Option.none_or, Std.ExtTreeMap.mem_keys]
    by_cases hlast : k ∈ lastWanted history
    · obtain ⟨d', hd', hkd'⟩ := mem_of_mem_lastWanted hlast
      rw [if_pos hlast, if_pos ⟨d', List.mem_append_left _ hd', hkd'⟩]
    · have hnone : (lastWanted history)[k]? = none := by simpa using hlast
      have hex : (∃ d' ∈ history ++ [d], k ∈ d') ↔ ∃ d' ∈ history, k ∈ d' := by simp [or_and_right, exists_or, hk]
      rw [if_neg hlast, settledValue, hnone, Option.none_or]
      simp only [hex]

/-! ## The trackers along a history -/

section
variable {initial : ObjectMeta} (history : List ObjectMeta)

/-- The trackers of a history are those of the metadata wanted last. -/
theorem mergeHistory_trackers (hlabels : initial.annotations[annotationManagedLabels]? = none)
    (hannotations : initial.annotations[annotationManagedAnnotations]? = none) :
    (mergeHistory initial history).annotations[annotationManagedLabels]? =
        trackerOf (lastWanted (history.map (·.labels))) ∧
      (mergeHistory initial history).annotations[annotationManagedAnnotations]? =
        trackerOf (lastWanted (history.map (·.annotations))) := by
  rcases List.eq_nil_or_concat history with rfl | ⟨before, d, rfl⟩
  · exact ⟨hlabels, hannotations⟩
  · rw [List.concat_eq_append, mergeHistory_concat, mergeManagedMeta_labelTracker, mergeManagedMeta_annotationTracker]
    simp [trackerOf, serializeManagedKeys]

/-- The tracker of the map wanted last names its keys. -/
theorem trackedKeys_of_tracking {m : ObjectMeta} {tracker : String} {maps : List (StrMap String)}
    (h : m.annotations[tracker]? = trackerOf (lastWanted maps)) (hkeys : ∀ d ∈ maps, CommaFree d) :
    trackedKeys m tracker = (lastWanted maps).keys := by
  have hlast : CommaFree (lastWanted maps) := by
    unfold lastWanted
    cases hlast : maps.getLast? with
    | none => exact fun k hk => absurd hk (by simp)
    | some d => exact hkeys d (List.mem_of_getLast? hlast)
  rw [trackedKeys, h]
  exact parse_tracker hlast

/-- A value that each merge treats as a managed key, with the keys wanted last as the managed ones, is settled by the history. -/
theorem mergeHistory_value (value : ObjectMeta → Option String) {wanted : ObjectMeta → StrMap String} {tracker k : String}
    {start : StrMap String} (hstart : value initial = start[k]?)
    (hstep : ∀ fresh desired, value (mergeManagedMeta fresh desired) =
      (wanted desired)[k]?.or (if k ∈ trackedKeys fresh tracker then none else value fresh))
    (htracked : ∀ before d after, history = before ++ d :: after →
      trackedKeys (mergeHistory initial before) tracker = (lastWanted (before.map wanted)).keys) :
    value (mergeHistory initial history) = settledValue start (history.map wanted) k := by
  induction history using List.reverseRecOn with
  | nil => simp [mergeHistory, settledValue, lastWanted, hstart]
  | append_singleton before d ih =>
    have hbefore := ih fun before' d' after h => htracked before' d' (after ++ [d]) (by simp [h])
    rw [mergeHistory_concat, hstep, htracked before d [] rfl, hbefore, List.map_append, List.map_singleton,
      settledValue_concat]

end

/-! ## The metadata along a history -/

/-- After any history the labels and the annotations are what was wanted last and what was never wanted, the trackers name the
keys that were wanted last, and merging the last again changes nothing. -/
theorem mergeHistory_settled (initial : ObjectMeta) (history : List ObjectMeta)
    (hlabels : initial.annotations[annotationManagedLabels]? = none)
    (hannotations : initial.annotations[annotationManagedAnnotations]? = none)
    (hkeys : ∀ d ∈ history, CommaFree d.labels ∧ CommaFree d.annotations) :
    (∀ k : String, (mergeHistory initial history).labels[k]? = settledValue initial.labels (history.map (·.labels)) k) ∧
      (∀ k : String, k ≠ annotationManagedLabels → k ≠ annotationManagedAnnotations →
        (mergeHistory initial history).annotations[k]? = settledValue initial.annotations (history.map (·.annotations)) k) ∧
      (mergeHistory initial history).annotations[annotationManagedLabels]? =
        trackerOf (lastWanted (history.map (·.labels))) ∧
      (mergeHistory initial history).annotations[annotationManagedAnnotations]? =
        trackerOf (lastWanted (history.map (·.annotations))) ∧
      (∀ d ∈ history.getLast?, mergeManagedMeta (mergeHistory initial history) d = mergeHistory initial history) ∧
      ∀ m : StrMap String, CommaFree m →
        parseManagedKeys (serializeManagedKeys m) = m.keys ∧ m.keys.Pairwise (· < ·) := by
  have htrackers (ds : List ObjectMeta) := mergeHistory_trackers ds hlabels hannotations
  have hearlier {before after : List ObjectMeta} {d : ObjectMeta} (h : history = before ++ d :: after) :
      ∀ d' ∈ before, CommaFree d'.labels ∧ CommaFree d'.annotations :=
    fun d' hd' => hkeys d' (by simp [h, hd'])
  refine ⟨fun k => ?_, fun k hl ha => ?_, (htrackers history).1, (htrackers history).2, fun d hd => ?_, fun m hm => ?_⟩
  · refine mergeHistory_value history (fun m => m.labels[k]?) rfl (getElem?_mergeManagedMeta_labels · · k) ?_
    intro before d after h
    exact trackedKeys_of_tracking (htrackers before).1 (List.forall_mem_map.2 fun d' hd' => (hearlier h d' hd').1)
  · refine mergeHistory_value history (fun m => m.annotations[k]?) rfl
      (fun fresh desired => getElem?_mergeManagedMeta_annotations fresh desired hl ha) ?_
    intro before d after h
    exact trackedKeys_of_tracking (htrackers before).2 (List.forall_mem_map.2 fun d' hd' => (hearlier h d' hd').2)
  · obtain ⟨before, rfl⟩ := List.getLast?_eq_some_iff.1 hd
    obtain ⟨hdl, hda⟩ := hkeys d (by simp)
    rw [mergeHistory_concat, mergeManagedMeta_idem _ hdl hda]
  · exact ⟨parse_serializeManagedKeys hm, Std.ExtTreeMap.ordered_keys.imp fun h => compare_lt_iff_lt.1 h⟩

/-- A label that was there before the operator, wanted by it and then retracted is gone; one never wanted stays. -/
theorem retracted_label_settled :
    let initial : ObjectMeta := { name := "d", labels := StrMap.of [("a", "1"), ("b", "2")] }
    let history : List ObjectMeta := [{ name := "d", labels := StrMap.of [("a", "3"), ("c", "4")] },
      { name := "d", labels := StrMap.of [("c", "5")], annotations := StrMap.of [("n", "6")] }]
    (mergeHistory initial history).labels["a"]? = settledValue initial.labels (history.map (·.labels)) "a" ∧
      settledValue initial.labels (history.map (·.labels)) "a" = none ∧
      settledValue initial.labels (history.map (·.labels)) "b" = some "2" := by
  intro initial history
  exact ⟨(mergeHistory_settled initial history (by decide +kernel) (by decide +kernel) (by decide +kernel)).1 "a",
    by decide +kernel, by decide +kernel⟩

end YanetOperator
