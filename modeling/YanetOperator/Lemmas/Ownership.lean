import YanetOperator.Controller.SharedServices

/-!
# Controllers

When an object is controlled by exactly one resource, and what the ownership checks of the operator say about it.
-/

namespace YanetOperator

/-- The controller of an object is exactly the resource a reference names: API version, kind, name and UID agree. -/
def Controls (owner : OwnerReference) (m : ObjectMeta) : Prop :=
  ∃ ref, getControllerOf m = some ref ∧ ref.apiVersion = owner.apiVersion ∧ ref.kind = owner.kind ∧ ref.name = owner.name ∧
    ref.uid = owner.uid

/-- At most one UID controls an object. -/
theorem Controls.uid_unique {a b : OwnerReference} {m : ObjectMeta} (ha : Controls a m) (hb : Controls b m) : a.uid = b.uid := by
  obtain ⟨r, hr, -, -, -, hra⟩ := ha
  obtain ⟨r', hr', -, -, -, hrb⟩ := hb
  rw [hr] at hr'
  cases hr'
  exact hra.symm.trans hrb

/-- `controlledByYanet` is exact for an installation with a UID. -/
theorem controlledByYanet_iff {m : ObjectMeta} {y : Yanet} (huid : y.metadata.uid ≠ 0) :
    controlledByYanet m y = true ↔ m.ns = y.metadata.ns ∧ Controls (controllerRef y) m := by
  unfold controlledByYanet Controls
  cases getControllerOf m with
  | none => simp
  | some ref => simp [controllerRef, huid]

/-- `controlledBy` is exact for an owner with a UID. -/
theorem controls_of_controlledBy {m : ObjectMeta} {owner : OwnerReference} (huid : owner.uid ≠ 0)
    (h : controlledBy m owner = true) : Controls owner m := by
  unfold controlledBy at h
  cases hc : getControllerOf m with
  | none => simp [hc] at h
  | some ref =>
    rw [hc] at h
    simp only [huid, false_or, decide_eq_true_eq] at h
    exact ⟨ref, hc, h.2.1, h.2.2.1, h.2.2.2, h.1⟩

/-- An object passes the ownership check when the controller of the desired object, with a UID, controls it. -/
theorem controls_of_validateOwnership {kind : String} {existing desired : ObjectMeta} {owner : OwnerReference} (huid : owner.uid ≠ 0)
    (hdesired : getControllerOf desired = some owner) (h : validateOwnership kind existing desired = .ok ()) :
    Controls owner existing := by
  unfold validateOwnership at h
  rw [hdesired] at h
  cases hc : getControllerOf existing with
  | none =>
    rw [hc] at h
    cases h
  | some ref =>
    rw [hc] at h
    dsimp only at h
    split at h
    · cases h
    · next huids =>
      split at h
      · cases h
      · next hnames =>
        simp only [not_or, not_not, not_and] at huids hnames
        exact ⟨ref, hc, hnames.1, hnames.2.1, hnames.2.2, huids huid⟩

end YanetOperator
