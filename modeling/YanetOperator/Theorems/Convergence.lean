import YanetOperator.Lemmas.Metadata
import YanetOperator.Lemmas.ServerRun

/-!
# A Deployment converges in one write

What `applyDeployment` does to an owned Deployment on a server that normalizes specs: one write brings the stored spec to the
normalization of the desired one, and after it the same call finds nothing to do.
-/

namespace YanetOperator

open Prog

/-! ## Drift -/

/-- A stored spec that does not drift is the normalization of the desired one. -/
theorem spec_of_not_drifts {N : Normalization} {existing desired : Deployment} (hnormal : N.norm existing.spec = existing.spec)
    (h : N.drifts existing desired = false) : existing.spec = N.norm desired.spec := by
  rw [Normalization.drifts, Bool.and_eq_false_iff] at h
  rcases h with h | h
  · rw [← hnormal, (deploymentUpdateChanged_eq_false.1 h).1]
    rfl
  · exact (deploymentUpdateChanged_eq_false.1 h).1

/-- The labels and the annotations of a merge depend on those it is applied to. -/
theorem mergeManagedMeta_congr {fresh fresh' : ObjectMeta} (desired : ObjectMeta) (hlabels : fresh'.labels = fresh.labels)
    (hannotations : fresh'.annotations = fresh.annotations) :
    (mergeManagedMeta fresh' desired).labels = (mergeManagedMeta fresh desired).labels ∧
      (mergeManagedMeta fresh' desired).annotations = (mergeManagedMeta fresh desired).annotations := by
  simp only [mergeManagedMeta, hlabels, hannotations, and_self]

/-- A Deployment with the normalized spec, the owners and the merged metadata does not drift. -/
theorem not_drifts_of_merged {N : Normalization} {stored desired : Deployment} {fresh : ObjectMeta}
    (hkeys : CommaFree desired.metadata.labels ∧ CommaFree desired.metadata.annotations)
    (hspec : stored.spec = N.norm desired.spec) (howners : stored.metadata.ownerReferences = desired.metadata.ownerReferences)
    (hlabels : stored.metadata.labels = (mergeManagedMeta fresh desired.metadata).labels)
    (hannotations : stored.metadata.annotations = (mergeManagedMeta fresh desired.metadata).annotations) :
    N.drifts stored desired = false := by
  let fresh' : ObjectMeta := { stored.metadata with ownerReferences := desired.metadata.ownerReferences }
  have hcongr := mergeManagedMeta_congr desired.metadata (show fresh'.labels = _ from hlabels)
    (show fresh'.annotations = _ from hannotations)
  rw [mergeManagedMeta_idem fresh hkeys.1 hkeys.2] at hcongr
  rw [Normalization.drifts, Bool.and_eq_false_iff]
  right
  exact deploymentUpdateChanged_eq_false.2 ⟨hspec, howners, hlabels.trans hcongr.1.symm, hannotations.trans hcongr.2.symm⟩

/-- A Deployment with the owners of the desired one is owned, if any is. -/
theorem owned_of_owners {existing stored desired : Deployment} (h : validateDeploymentOwnership existing desired = .ok ())
    (howners : stored.metadata.ownerReferences = desired.metadata.ownerReferences) :
    validateDeploymentOwnership stored desired = .ok () := by
  unfold validateDeploymentOwnership validateOwnership at *
  have hcontroller : getControllerOf stored.metadata = getControllerOf desired.metadata := by
    simp only [getControllerOf, howners]
  rw [hcontroller]
  cases hdesired : getControllerOf desired.metadata with
  | none =>
    rw [hdesired] at h
    cases h
  | some owner => simp

/-! ## One write -/

/-- The Deployment stored after a call that was not held back: it does not drift, and its spec is the normalization of the desired
one. -/
theorem stored_after_apply {N : Normalization} {s : Server} {existing desired : Deployment}
    (hfound : s.store.find .deployment (keyOf .deployment desired) = some existing)
    (hnormal : N.norm existing.spec = existing.spec) (howned : validateDeploymentOwnership existing desired = .ok ())
    (hkeys : CommaFree desired.metadata.labels ∧ CommaFree desired.metadata.annotations) {window : Int} {host : String}
    (hfree : (checkUpdateRequeue s.throttle window host s.clock).1 ≤ 0) :
    ∃ stored, (s.applied N existing desired true window host).2.store.find .deployment (keyOf .deployment desired) = some stored ∧
      stored.spec = N.norm desired.spec ∧ N.drifts stored desired = false ∧
      validateDeploymentOwnership stored desired = .ok () := by
  by_cases hdrift : N.drifts existing desired = false
  · rw [applied_of_not_drifts hdrift]
    exact ⟨existing, hfound, spec_of_not_drifts hnormal hdrift, hdrift, howned⟩
  · rw [Server.applied, if_neg hdrift, if_neg (by decide), if_neg (by omega)]
    let stored : Deployment := { N.obj .deployment (N.updated existing desired) with
      metadata := { (N.updated existing desired).metadata with resourceVersion := s.revision + 1 } }
    have hspec : stored.spec = N.norm desired.spec := N.idem desired.spec
    have hkey : keyOf .deployment stored = keyOf .deployment desired := (Store.find_some hfound).2
    refine ⟨stored, ?_, hspec, not_drifts_of_merged hkeys hspec rfl rfl rfl, owned_of_owners howned rfl⟩
    rw [← hkey]
    exact Store.find_put_self

/-- An owned Deployment converges in one write. After a call with automatic synchronisation that the update window does not hold
back, the stored spec is the normalization of the desired one, and every later call with the same Deployment reports it as synced
and changes nothing, in whatever state the rest of the cluster and the update window are by then. A call that only reports says
synced exactly when the applying call would not write. -/
theorem applyDeployment_converges (N : Normalization) (s : Server) (existing desired : Deployment) (window : Int) (host : String)
    (hfound : s.store.find .deployment (keyOf .deployment desired) = some existing)
    (hnormal : N.norm existing.spec = existing.spec) (howned : validateDeploymentOwnership existing desired = .ok ())
    (hkeys : CommaFree desired.metadata.labels ∧ CommaFree desired.metadata.annotations) (hstop : s.config.stop = false)
    (hfree : (checkUpdateRequeue s.throttle window host s.clock).1 ≤ 0) :
    (run (Server.exec N) (applyDeployment desired true window host) s).1.state = "synced" ∧
      (∃ stored, (run (Server.exec N) (applyDeployment desired true window host) s).2.store.find .deployment
          (keyOf .deployment desired) = some stored ∧ stored.spec = N.norm desired.spec ∧
        ∀ (t : Server) (autoSync : Bool) (window' : Int) (host' : String),
          t.store.find .deployment (keyOf .deployment desired) = some stored → t.config.stop = false →
          run (Server.exec N) (applyDeployment desired autoSync window' host') t = ({ state := "synced" }, t)) ∧
      ((run (Server.exec N) (applyDeployment desired false window host) s).1.state = "synced" ↔
        (run (Server.exec N) (applyDeployment desired true window host) s).2.writes = s.writes) := by
  rw [run_applyDeployment hfound howned hstop, run_applyDeployment hfound howned hstop]
  obtain ⟨stored, hstored, hspec, hsettled, howned'⟩ := stored_after_apply hfound hnormal howned hkeys hfree
  refine ⟨?_, ⟨stored, hstored, hspec, fun t autoSync window' host' hfound' hstop' => ?_⟩, ?_⟩
  · by_cases hdrift : N.drifts existing desired = false
    · rw [applied_of_not_drifts hdrift]
    · rw [Server.applied, if_neg hdrift, if_neg (by decide), if_neg (by omega)]
  · rw [run_applyDeployment hfound' howned' hstop', applied_of_not_drifts hsettled]
  · by_cases hdrift : N.drifts existing desired = false
    · rw [applied_of_not_drifts hdrift, applied_of_not_drifts hdrift]
      simp
    · rw [Server.applied, if_neg hdrift, if_pos rfl, Server.applied, if_neg hdrift, if_neg (by decide), if_neg (by omega)]
      simp [Server.save, Server.askWindow]

/-- A normalization that fills in one replica. -/
def oneReplica : Normalization where
  norm spec := { spec with replicas := spec.replicas.or (some 1) }
  idem spec := by cases spec.replicas <;> simp

/-- A Deployment of an installation under a name, with a label. -/
def labelled (value : String) (replicas : Option Int) : Deployment :=
  { metadata := { ns := "yanet", name := "d", labels := StrMap.of [("app", value)], ownerReferences := [controllerRef {}] }
    spec := { replicas := replicas } }

/-- A stored Deployment with a foreign label that is scaled to three replicas by hand converges. -/
theorem scaledDeployment_converges :
    let existing := labelled "old" (some 3)
    let s : Server := { store := fun k => match k with | .deployment => [existing] | _ => [], clock := 100 }
    (run (Server.exec oneReplica) (applyDeployment (labelled "new" none) true 60 "node-a") s).1.state = "synced" ∧
      (run (Server.exec oneReplica) (applyDeployment (labelled "new" none) false 60 "node-a") s).1.state = "out-of-sync" := by
  intro existing s
  exact ⟨(applyDeployment_converges oneReplica s existing (labelled "new" none) 60 "node-a" (by decide +kernel)
    (by decide +kernel) (by decide +kernel) (by decide +kernel) rfl (by decide +kernel)).1, by decide +kernel⟩

end YanetOperator
