import YanetOperator.Controller.SharedServices
import YanetOperator.Lemmas.Metadata

/-!
# Updating a shared Service

What `desiredSharedServiceUpdate` makes of a stored Service for a Service of a plan, and that a second update changes nothing.
-/

namespace YanetOperator

/-! ## The desired metadata -/

/-- The labels of the Service of a plan. -/
theorem toService_label {p : ServicePlan} {ns k v : String} {owner : OwnerReference}
    (h : (p.toService ns owner).metadata.labels[k]? = some v) :
    k ∈ [labelSharedService, labelBoxType, labelComponent, labelNuma] := by
  unfold ServicePlan.toService at h
  dsimp only at h
  have hof {k v : String} (h : (StrMap.of [(labelSharedService, "true"), (labelBoxType, p.boxType),
      (labelComponent, p.component)])[k]? = some v) : k ∈ [labelSharedService, labelBoxType, labelComponent, labelNuma] := by
    have hmem := StrMap.mem_of_getElem?_of h
    simp only [List.mem_cons, List.not_mem_nil, or_false, Prod.mk.injEq] at hmem ⊢
    tauto
  cases hnuma : p.selector[labelNuma]? with
  | none =>
    rw [hnuma] at h
    exact hof h
  | some numa =>
    rw [hnuma] at h
    dsimp only at h
    rw [Std.ExtTreeMap.getElem?_insert] at h
    split at h
    · next heq =>
      have heq : labelNuma = k := by simpa using heq
      simp [← heq]
    · exact hof h

theorem commaFree_toService (p : ServicePlan) (ns : String) (owner : OwnerReference) :
    CommaFree (p.toService ns owner).metadata.labels := by
  intro k hk
  rw [Std.ExtTreeMap.mem_keys, Std.ExtTreeMap.mem_iff_isSome_getElem?, Option.isSome_iff_exists] at hk
  obtain ⟨v, hv⟩ := hk
  have hmem := toService_label hv
  simp only [List.mem_cons, List.not_mem_nil, or_false] at hmem
  rcases hmem with rfl | rfl | rfl | rfl <;> decide

/-- No Service of a plan has the label of an installation. -/
theorem toService_labelYanet (p : ServicePlan) (ns : String) (owner : OwnerReference) :
    (p.toService ns owner).metadata.labels[labelYanet]? = none := by
  cases h : (p.toService ns owner).metadata.labels[labelYanet]? with
  | none => rfl
  | some v => exact absurd (toService_label h) (by decide)

/-! ## One update -/

/-- The candidate of `desiredSharedServiceUpdate`. -/
def sharedCandidate (existing desired : Service) : Service := (desiredSharedServiceUpdate existing desired).1

section

variable (existing desired : Service)

theorem sharedCandidate_label (k : String) : (sharedCandidate existing desired).metadata.labels[k]? =
    if k = labelYanet then none
    else desired.metadata.labels[k]?.or
      (if k ∈ trackedKeys existing.metadata annotationManagedLabels then none else existing.metadata.labels[k]?) := by
  have hmerged := getElem?_mergeManagedMeta_labels { existing.metadata with ownerReferences := desired.metadata.ownerReferences }
    desired.metadata k
  unfold sharedCandidate desiredSharedServiceUpdate
  dsimp only
  rw [Std.ExtTreeMap.getElem?_erase, hmerged]
  by_cases hk : k = labelYanet
  · simp [hk]
  · have hk' : labelYanet ≠ k := fun h => hk h.symm
    rw [if_neg hk, if_neg (by simpa using hk')]
    rfl

theorem sharedCandidate_metadata : (sharedCandidate existing desired).metadata =
    { mergeManagedMeta { existing.metadata with ownerReferences := desired.metadata.ownerReferences } desired.metadata with
      labels := (sharedCandidate existing desired).metadata.labels } := rfl

theorem sharedCandidate_annotations : (sharedCandidate existing desired).metadata.annotations =
    (mergeManagedMeta { existing.metadata with ownerReferences := desired.metadata.ownerReferences } desired.metadata).annotations :=
  rfl

/-- Nothing changes exactly when the candidate is the stored Service. -/
theorem sharedUpdate_unchanged_iff :
    (desiredSharedServiceUpdate existing desired).2 = false ↔ sharedCandidate existing desired = existing := by
  constructor
  · intro h
    have h : ¬(existing.spec ≠ (sharedCandidate existing desired).spec ∨
        existing.metadata.labels ≠ (sharedCandidate existing desired).metadata.labels ∨
        existing.metadata.annotations ≠ (sharedCandidate existing desired).metadata.annotations ∨
        existing.metadata.ownerReferences ≠ (sharedCandidate existing desired).metadata.ownerReferences) :=
      of_decide_eq_false h
    simp only [not_or, not_not] at h
    obtain ⟨hspec, hlabels, hannotations, howners⟩ := h
    -- the update writes labels, annotations, owners and the spec, and nothing else
    have hrest : sharedCandidate existing desired =
        { existing with
          spec := (sharedCandidate existing desired).spec
          metadata := { existing.metadata with
            labels := (sharedCandidate existing desired).metadata.labels
            annotations := (sharedCandidate existing desired).metadata.annotations
            ownerReferences := (sharedCandidate existing desired).metadata.ownerReferences } } := rfl
    rw [hrest, ← hspec, ← hlabels, ← hannotations, ← howners]
  · intro h
    refine decide_eq_false ?_
    show ¬(existing.spec ≠ (sharedCandidate existing desired).spec ∨
        existing.metadata.labels ≠ (sharedCandidate existing desired).metadata.labels ∨
        existing.metadata.annotations ≠ (sharedCandidate existing desired).metadata.annotations ∨
        existing.metadata.ownerReferences ≠ (sharedCandidate existing desired).metadata.ownerReferences)
    rw [h]
    simp

end

/-! ## The second update -/

section

variable (existing : Service) (p : ServicePlan) (ns : String) (owner : OwnerReference)

theorem sharedCandidate_idem :
    sharedCandidate (sharedCandidate existing (p.toService ns owner)) (p.toService ns owner) =
      sharedCandidate existing (p.toService ns owner) := by
  set desired := p.toService ns owner with hdesired
  set candidate := sharedCandidate existing desired with hcandidate
  have htracked : trackedKeys candidate.metadata annotationManagedLabels = desired.metadata.labels.keys := by
    rw [trackedKeys, hcandidate, sharedCandidate_annotations]
    exact trackedKeys_mergeManagedMeta_labels _ (commaFree_toService p ns owner)
  have hlabels : (sharedCandidate candidate desired).metadata.labels = candidate.metadata.labels := by
    refine StrMap.ext fun k => ?_
    rw [sharedCandidate_label, htracked, hcandidate, sharedCandidate_label]
    by_cases hk : k = labelYanet
    · rw [if_pos hk, if_pos hk]
    · rw [if_neg hk, if_neg hk]
      exact or_unmanaged_idem
  have hannotations : (sharedCandidate candidate desired).metadata.annotations = candidate.metadata.annotations := by
    have hnone : CommaFree desired.metadata.annotations :=
      fun k hk => absurd hk (by simp [hdesired, ServicePlan.toService])
    let owned := { existing.metadata with ownerReferences := desired.metadata.ownerReferences }
    have hidem : mergeManagedMeta (mergeManagedMeta owned desired.metadata) desired.metadata =
        mergeManagedMeta owned desired.metadata :=
      mergeManagedMeta_idem owned (commaFree_toService p ns owner) hnone
    have hidem' := congrArg ObjectMeta.annotations hidem
    exact hidem'
  have hspec : (sharedCandidate candidate desired).spec = candidate.spec := by
    show { candidate.spec with ipFamilyPolicy := candidate.spec.ipFamilyPolicy.or none } = candidate.spec
    rw [Option.or_none]
  have hrest : sharedCandidate candidate desired =
      { candidate with
        spec := (sharedCandidate candidate desired).spec
        metadata := { candidate.metadata with
          labels := (sharedCandidate candidate desired).metadata.labels
          annotations := (sharedCandidate candidate desired).metadata.annotations } } := rfl
  rw [hrest, hspec, hlabels, hannotations]

end

/-- A key of the labels or annotations that the operator does not manage: it is neither tracked on the stored object nor desired. -/
def Unmanaged (tracked : List String) (desired : StrMap String) (k : String) : Prop := k ∉ tracked ∧ desired[k]? = none

/-- The update of a stored Service to the Service of a plan: what the server assigned and what the operator never managed is kept,
but for the label of an installation; the rest is as desired; nothing is written exactly when nothing changes; and a second update
changes nothing. -/
theorem sharedServiceUpdate_settles (existing : Service) (p : ServicePlan) (ns : String) (owner : OwnerReference) :
    let desired := p.toService ns owner
    let candidate := (desiredSharedServiceUpdate existing desired).1
    (candidate.spec.clusterIP = existing.spec.clusterIP ∧ candidate.spec.clusterIPs = existing.spec.clusterIPs ∧
        candidate.spec.ipFamilies = existing.spec.ipFamilies ∧ candidate.spec.ipFamilyPolicy = existing.spec.ipFamilyPolicy) ∧
      (∀ k, Unmanaged (trackedKeys existing.metadata annotationManagedLabels) desired.metadata.labels k → k ≠ labelYanet →
        candidate.metadata.labels[k]? = existing.metadata.labels[k]?) ∧
      candidate.metadata.labels[labelYanet]? = none ∧
      (∀ k, Unmanaged (trackedKeys existing.metadata annotationManagedAnnotations) desired.metadata.annotations k →
        k ≠ annotationManagedLabels → k ≠ annotationManagedAnnotations →
        candidate.metadata.annotations[k]? = existing.metadata.annotations[k]?) ∧
      (∀ k v : String, desired.metadata.labels[k]? = some v → candidate.metadata.labels[k]? = some v) ∧
      (candidate.spec.selector = desired.spec.selector ∧ candidate.spec.ports = desired.spec.ports ∧
        candidate.spec.type = desired.spec.type ∧
        candidate.spec.internalTrafficPolicy = desired.spec.internalTrafficPolicy ∧ candidate.spec.sessionAffinity = "None" ∧
        candidate.metadata.ownerReferences = desired.metadata.ownerReferences) ∧
      ((desiredSharedServiceUpdate existing desired).2 = false ↔ candidate = existing) ∧
      desiredSharedServiceUpdate candidate desired = (candidate, false) := by
  intro desired candidate
  refine ⟨⟨rfl, rfl, rfl, Option.or_none⟩, fun k hk hyanet => ?_, ?_, fun k hk hl ha => ?_, fun k v hv => ?_,
    ⟨rfl, rfl, rfl, rfl, rfl, rfl⟩, sharedUpdate_unchanged_iff existing desired, ?_⟩
  · obtain ⟨htracked, hdesired⟩ := hk
    exact (sharedCandidate_label existing desired k).trans (by rw [if_neg hyanet, hdesired, if_neg htracked, Option.none_or])
  · exact (sharedCandidate_label existing desired labelYanet).trans (if_pos rfl)
  · obtain ⟨htracked, hdesired⟩ := hk
    refine (getElem?_mergeManagedMeta_annotations _ _ hl ha).trans ?_
    rw [hdesired, Option.none_or]
    exact if_neg htracked
  · have hne : k ≠ labelYanet := by
      rintro rfl
      rw [toService_labelYanet] at hv
      cases hv
    exact (sharedCandidate_label existing desired k).trans (by rw [if_neg hne, hv, Option.some_or])
  · have hidem : sharedCandidate candidate desired = candidate := sharedCandidate_idem existing p ns owner
    have hunchanged := (sharedUpdate_unchanged_iff candidate desired).2 hidem
    exact Prod.ext hidem hunchanged

end YanetOperator
