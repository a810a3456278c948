import YanetOperator.Controller.Apply

/-!
# The merge of managed metadata

What one merge does to a key, in terms of the keys the tracking annotations name; that the trackers read back as the keys they
were written from; and that a second merge of the same metadata changes nothing.
-/

namespace YanetOperator

/-- The keys of a map are not empty and have no comma, as the keys of labels and annotations are. -/
def CommaFree (m : StrMap String) : Prop := ∀ k ∈ m.keys, k ≠ "" ∧ ',' ∉ k.toList

instance (m : StrMap String) : Decidable (CommaFree m) := inferInstanceAs (Decidable (∀ k ∈ m.keys, _))

/-- The keys a tracking annotation names. -/
def trackedKeys (m : ObjectMeta) (tracker : String) : List String := parseManagedKeys ((m.annotations[tracker]?).getD "")

/-! ## Trackers -/

/-- A list of keys reads back from its serialization. -/
theorem parseManagedKeys_join {keys : List String} (hkeys : ∀ k ∈ keys, k ≠ "" ∧ ',' ∉ k.toList) :
    parseManagedKeys (Text.join "," keys) = keys := by
  by_cases hnil : keys = []
  · subst hnil
    decide
  · have hsplit : ((Text.join "," keys).toList.splitOn ',') = keys.map String.toList := by
      rw [Text.join, String.toList_intercalate]
      refine List.splitOn_intercalate ',' (fun l hl => ?_) (by simpa using hnil)
      obtain ⟨k, hk, rfl⟩ := List.mem_map.1 hl
      exact (hkeys k hk).2
    have hid : (keys.map String.toList).map String.ofList = keys := by simp [Function.comp_def]
    rw [parseManagedKeys, hsplit, hid, List.filter_eq_self]
    exact fun k hk => decide_eq_true (hkeys k hk).1

/-- The keys of a map read back from their serialization. -/
theorem parse_serializeManagedKeys {m : StrMap String} (h : CommaFree m) : parseManagedKeys (serializeManagedKeys m) = m.keys :=
  parseManagedKeys_join h

theorem getElem?_trackManaged_self (annotations : StrMap String) (tracker : String) (managed : StrMap String) :
    (trackManaged annotations tracker managed)[tracker]? =
      if managed.isEmpty then none else some (serializeManagedKeys managed) := by
  unfold trackManaged
  split <;> simp

theorem getElem?_trackManaged_ne {annotations managed : StrMap String} {tracker k : String} (h : k ≠ tracker) :
    (trackManaged annotations tracker managed)[k]? = annotations[k]? := by
  have h' : tracker ≠ k := h.symm
  unfold trackManaged
  split <;> simp [Std.ExtTreeMap.getElem?_insert, Std.ExtTreeMap.getElem?_erase, h']

/-! ## One merge -/

/-- A key of the merge: the desired value, or else the existing one, unless the key was managed before. -/
theorem getElem?_mergeManagedKV (existing desired : StrMap String) (prevManaged : List String) (k : String) :
    (mergeManagedKV existing desired prevManaged)[k]? = desired[k]?.or (if k ∈ prevManaged then none else existing[k]?) := by
  rw [mergeManagedKV, StrMap.getElem?_override, StrMap.getElem?_eraseWhere]
  cases hd : desired[k]? with
  | none => simp
  | some v => simp

theorem trackers_ne : annotationManagedLabels ≠ annotationManagedAnnotations := by decide

section
variable (fresh desired : ObjectMeta)

theorem getElem?_mergeManagedMeta_labels (k : String) :
    (mergeManagedMeta fresh desired).labels[k]? =
      desired.labels[k]?.or (if k ∈ trackedKeys fresh annotationManagedLabels then none else fresh.labels[k]?) :=
  getElem?_mergeManagedKV ..

/-- Apart from the trackers the annotations are merged like the labels. -/
theorem getElem?_mergeManagedMeta_annotations {k : String} (hl : k ≠ annotationManagedLabels)
    (ha : k ≠ annotationManagedAnnotations) :
    (mergeManagedMeta fresh desired).annotations[k]? =
      desired.annotations[k]?.or
        (if k ∈ trackedKeys fresh annotationManagedAnnotations then none else fresh.annotations[k]?) := by
  rw [mergeManagedMeta, getElem?_trackManaged_ne ha, getElem?_trackManaged_ne hl]
  exact getElem?_mergeManagedKV ..

theorem mergeManagedMeta_labelTracker :
    (mergeManagedMeta fresh desired).annotations[annotationManagedLabels]? =
      if desired.labels.isEmpty then none else some (serializeManagedKeys desired.labels) := by
  rw [mergeManagedMeta, getElem?_trackManaged_ne trackers_ne]
  exact getElem?_trackManaged_self ..

theorem mergeManagedMeta_annotationTracker :
    (mergeManagedMeta fresh desired).annotations[annotationManagedAnnotations]? =
      if desired.annotations.isEmpty then none else some (serializeManagedKeys desired.annotations) :=
  getElem?_trackManaged_self ..

end

/-- A tracker names the keys it was written from. -/
theorem parse_tracker {managed : StrMap String} (h : CommaFree managed) :
    parseManagedKeys ((if managed.isEmpty then none else some (serializeManagedKeys managed)).getD "") = managed.keys := by
  split
  · next hempty =>
    rw [Std.ExtTreeMap.isEmpty_iff] at hempty
    subst hempty
    decide
  · exact parse_serializeManagedKeys h

theorem trackedKeys_mergeManagedMeta_labels (fresh : ObjectMeta) {desired : ObjectMeta} (h : CommaFree desired.labels) :
    trackedKeys (mergeManagedMeta fresh desired) annotationManagedLabels = desired.labels.keys := by
  rw [trackedKeys, mergeManagedMeta_labelTracker, parse_tracker h]

theorem trackedKeys_mergeManagedMeta_annotations (fresh : ObjectMeta) {desired : ObjectMeta} (h : CommaFree desired.annotations) :
    trackedKeys (mergeManagedMeta fresh desired) annotationManagedAnnotations = desired.annotations.keys := by
  rw [trackedKeys, mergeManagedMeta_annotationTracker, parse_tracker h]

/-! ## Merging twice -/

/-- A key that is wanted again keeps its value, and a key that is not wanted was not managed. -/
theorem or_unmanaged_idem {desired : StrMap String} {k : String} {v : Option String} :
    desired[k]?.or (if k ∈ desired.keys then none else desired[k]?.or v) = desired[k]?.or v := by
  cases hd : desired[k]? with
  | some x => simp
  | none =>
    have hk : k ∉ desired.keys := by simpa using hd
    simp [hk]

/-- A second merge of the same metadata changes nothing. -/
theorem mergeManagedMeta_idem (fresh : ObjectMeta) {desired : ObjectMeta} (hlabels : CommaFree desired.labels)
    (hannotations : CommaFree desired.annotations) :
    mergeManagedMeta (mergeManagedMeta fresh desired) desired = mergeManagedMeta fresh desired := by
  have hl : (mergeManagedMeta (mergeManagedMeta fresh desired) desired).labels = (mergeManagedMeta fresh desired).labels := by
    refine StrMap.ext fun k => ?_
    rw [getElem?_mergeManagedMeta_labels, trackedKeys_mergeManagedMeta_labels _ hlabels, getElem?_mergeManagedMeta_labels]
    exact or_unmanaged_idem
  have ha : (mergeManagedMeta (mergeManagedMeta fresh desired) desired).annotations =
      (mergeManagedMeta fresh desired).annotations := by
    refine StrMap.ext fun k => ?_
    by_cases h₁ : k = annotationManagedLabels
    · rw [h₁, mergeManagedMeta_labelTracker, mergeManagedMeta_labelTracker]
    · by_cases h₂ : k = annotationManagedAnnotations
      · rw [h₂, mergeManagedMeta_annotationTracker, mergeManagedMeta_annotationTracker]
      · rw [getElem?_mergeManagedMeta_annotations _ _ h₁ h₂, trackedKeys_mergeManagedMeta_annotations _ hannotations,
          getElem?_mergeManagedMeta_annotations _ _ h₁ h₂]
        exact or_unmanaged_idem
  calc mergeManagedMeta (mergeManagedMeta fresh desired) desired
      = { mergeManagedMeta fresh desired with
          labels := (mergeManagedMeta (mergeManagedMeta fresh desired) desired).labels
          annotations := (mergeManagedMeta (mergeManagedMeta fresh desired) desired).annotations } := rfl
    _ = mergeManagedMeta fresh desired := by rw [hl, ha]

end YanetOperator
