import YanetOperator.Cluster.Server
import YanetOperator.Controller.Apply

/-!
# Running parts of a pass against a server

What `applyDeployment` does on a server without failures, as a function of the stored Deployment.
-/

namespace YanetOperator

open Prog

/-! ## Drift -/

/-- A stored Deployment differs from the desired one, before and after the candidate is normalized. -/
def Normalization.drifts (N : Normalization) (existing desired : Deployment) : Bool :=
  deploymentUpdateChanged existing (deploymentCandidate existing desired) &&
    deploymentUpdateChanged existing (N.deployment (deploymentCandidate existing desired))

/-- The Deployment that an update stores. -/
def Normalization.updated (N : Normalization) (existing desired : Deployment) : Deployment :=
  N.deployment (deploymentCandidate existing desired)

theorem deploymentUpdateChanged_eq_false {existing candidate : Deployment} :
    deploymentUpdateChanged existing candidate = false ↔
      existing.spec = candidate.spec ∧ existing.metadata.ownerReferences = candidate.metadata.ownerReferences ∧
        existing.metadata.labels = candidate.metadata.labels ∧
        existing.metadata.annotations = candidate.metadata.annotations := by
  simp only [deploymentUpdateChanged, decide_eq_false_iff_not]
  tauto

/-! ## The runs -/

section
variable {N : Normalization} {s : Server} {existing desired : Deployment}

/-- A candidate for a stored Deployment, normalized or not, is at its version. -/
theorem current_candidate {d : Deployment} (hfound : s.store.find .deployment (keyOf .deployment desired) = some existing)
    (hd : d.metadata = (deploymentCandidate existing desired).metadata) : s.current .deployment d = .ok existing := by
  have hkey : keyOf .deployment d = keyOf .deployment desired := by
    rw [← (Store.find_some hfound).2]
    simp only [keyOf, metaOf, hd]
    rfl
  unfold Server.current
  rw [hkey, Store.get_of_find hfound]
  simp [metaOf, hd, deploymentCandidate, mergeManagedMeta]

theorem run_checkGlobalStop_server (hstop : s.config.stop = false) :
    run (Server.exec N) checkGlobalStop.run s = (.ok (), s) := by
  rw [checkGlobalStop, ExceptT.run_mk, run_bind, run_issue]
  show run _ (if s.config.stop = true then _ else _) s = _
  rw [hstop]
  rfl

/-- The update is the normalized candidate when the stored Deployment drifts. -/
theorem run_desiredDeploymentUpdate (hfound : s.store.find .deployment (keyOf .deployment desired) = some existing)
    (hstop : s.config.stop = false) :
    run (Server.exec N) (desiredDeploymentUpdate existing desired).run s =
      (.ok (if N.drifts existing desired then some (N.updated existing desired) else none), s) := by
  unfold desiredDeploymentUpdate
  dsimp only
  by_cases hfirst : deploymentUpdateChanged existing (deploymentCandidate existing desired) = false
  · rw [if_pos hfirst]
    simp [Normalization.drifts, hfirst]
  · rw [if_neg hfirst, run_tryBind_ok (run_checkGlobalStop_server hstop)]
    have hdry : s.exec N (Op.dryRun (deploymentCandidate existing desired)) = (.ok (N.updated existing desired), s) :=
      Server.exec_dryRun (current_candidate hfound rfl)
    rw [ExceptT.run_bind, run_bind, ExceptT.run_mk, run_bind, run_issue, hdry]
    have hfirst' : deploymentUpdateChanged existing (deploymentCandidate existing desired) = true := by simpa using hfirst
    simp [Normalization.drifts, Normalization.updated, hfirst']

/-- The controller after it asked the update window. -/
def Server.askWindow (s : Server) (window : Int) (host : String) : Server :=
  { s with throttle := (checkUpdateRequeue s.throttle window host s.clock).2, asked := s.asked + 1 }

/-- What one call does to an owned Deployment: nothing when it does not drift; otherwise it reports the drift, waits for the update
window, or updates. -/
def Server.applied (N : Normalization) (s : Server) (existing desired : Deployment) (autoSync : Bool) (window : Int)
    (host : String) : ApplyOutcome × Server :=
  if N.drifts existing desired = false then ({ state := "synced" }, s)
  else if autoSync = false then ({ state := "out-of-sync" }, s)
  else if (checkUpdateRequeue s.throttle window host s.clock).1 > 0 then
    ({ state := "sync-waiting", requeue := (checkUpdateRequeue s.throttle window host s.clock).1 }, s.askWindow window host)
  else
    ({ state := "synced", requeue := (checkUpdateRequeue s.throttle window host s.clock).1 },
      (s.askWindow window host).save N .deployment (N.updated existing desired) (.update .deployment (N.updated existing desired)))

/-- One attempt of the update. -/
theorem run_updateDeploymentOnce (hfound : s.store.find .deployment (keyOf .deployment desired) = some existing)
    (howned : validateDeploymentOwnership existing desired = .ok ()) (hstop : s.config.stop = false) (autoSync : Bool)
    (window : Int) (host : String) :
    run (Server.exec N) (updateDeploymentOnce desired autoSync window host).run s =
      (.ok ((s.applied N existing desired autoSync window host).1.state, (s.applied N existing desired autoSync window host).1.requeue),
        (s.applied N existing desired autoSync window host).2) := by
  have hget : run (Server.exec N) (getObj .deployment (keyOf .deployment desired)).run s = (.ok existing, s) := by
    rw [getObj, run_attempt, run_issue, Server.exec_get hfound]
    rfl
  rw [updateDeploymentOnce, run_tryBind_ok hget, howned]
  dsimp only
  rw [run_tryBind_ok (run_desiredDeploymentUpdate hfound hstop)]
  unfold Server.applied
  by_cases hdrift : N.drifts existing desired = false
  · simp [hdrift]
  · have hdrift' : N.drifts existing desired = true := by simpa using hdrift
    rw [if_neg hdrift, if_pos hdrift']
    dsimp only
    cases autoSync with
    | false => rfl
    | true =>
      have hask : run (Server.exec N) (ExceptT.lift (ε := Err) (issue (.requeue window host))).run s =
          (.ok (checkUpdateRequeue s.throttle window host s.clock).1, s.askWindow window host) := rfl
      rw [if_neg (by decide), if_neg (by decide), run_tryBind_ok hask]
      by_cases hwait : (checkUpdateRequeue s.throttle window host s.clock).1 > 0
      · rw [if_pos hwait, if_pos hwait]
        rfl
      · have hupdate : (s.askWindow window host).exec N (Op.update .deployment (N.updated existing desired)) =
            (.ok (), (s.askWindow window host).save N .deployment (N.updated existing desired)
              (.update .deployment (N.updated existing desired))) :=
          Server.exec_update (current_candidate (s := s.askWindow window host) hfound rfl)
        rw [if_neg hwait, if_neg hwait, run_tryBind_ok (run_checkGlobalStop_server (s := s.askWindow window host) hstop),
          ExceptT.run_bind, run_bind, run_attempt, run_issue, hupdate]
        rfl

/-- One call of `applyDeployment` on an owned Deployment. -/
theorem run_applyDeployment (hfound : s.store.find .deployment (keyOf .deployment desired) = some existing)
    (howned : validateDeploymentOwnership existing desired = .ok ()) (hstop : s.config.stop = false) (autoSync : Bool)
    (window : Int) (host : String) :
    run (Server.exec N) (applyDeployment desired autoSync window host) s =
      s.applied N existing desired autoSync window host := by
  have honce := run_retryOnConflict (run_updateDeploymentOnce (N := N) hfound howned hstop autoSync window host) defaultRetries
  rw [applyDeployment, run_bind, run_issue, Server.exec_get hfound]
  dsimp only
  rw [howned]
  dsimp only
  rw [run_bind, honce]
  have herr : (s.applied N existing desired autoSync window host).1.err = none := by
    unfold Server.applied
    split_ifs <;> rfl
  revert herr
  generalize s.applied N existing desired autoSync window host = r
  obtain ⟨⟨state, requeue, err⟩, t⟩ := r
  rintro rfl
  rfl

/-- A Deployment that does not drift is reported as synced, whatever the mode and the update window, and nothing changes. -/
theorem applied_of_not_drifts (h : N.drifts existing desired = false) (autoSync : Bool) (window : Int) (host : String) :
    s.applied N existing desired autoSync window host = ({ state := "synced" }, s) := by
  rw [Server.applied, if_pos h]

end

end YanetOperator
