import YanetOperator.Controller.Interface

/-!
# Running parts of a pass

The runs of a single call and of the library helpers, against any server that answers every call.
-/

namespace YanetOperator

open Prog

variable {σ α β : Type} {exec : σ → (c : Api.Call) → Api.Answer c × σ}

@[simp] theorem run_issue (s : σ) (c : Op) : run exec (issue c) s = exec s c := rfl

@[simp] theorem run_attempt (p : Pass (Except ApiError α)) (s : σ) :
    run exec (attempt p).run s = ((run exec p s).1.mapError Err.api, (run exec p s).2) := by
  unfold attempt
  rw [ExceptT.run_mk, run_bind]
  generalize run exec p s = r
  obtain ⟨a, t⟩ := r
  cases a <;> rfl

/-- A part that succeeds is followed by the next. -/
theorem run_tryBind_ok {ε : Type} {p : ExceptT ε Pass α} {f : α → ExceptT ε Pass β} {s t : σ} {a : α} (h : run exec p.run s = (.ok a, t)) :
    run exec (p >>= f).run s = run exec (f a).run t := by
  rw [ExceptT.run_bind, run_bind, h]

/-- A part that fails ends the whole. -/
theorem run_tryBind_error {ε : Type} {p : ExceptT ε Pass α} {f : α → ExceptT ε Pass β} {s t : σ} {e : ε} (h : run exec p.run s = (.error e, t)) :
    run exec (p >>= f).run s = (.error e, t) := by
  rw [ExceptT.run_bind, run_bind, h]
  rfl

/-- A body that succeeds is not repeated. -/
theorem run_retryOnConflict {body : TryPass α} {s t : σ} {a : α} (h : run exec body.run s = (.ok a, t)) (n : Nat) :
    run exec (retryOnConflict body n).run s = (.ok a, t) := by
  cases n with
  | zero => exact h
  | succ n =>
    rw [retryOnConflict, ExceptT.run_mk, run_bind, h]
    rfl

/-- A body that fails for another reason than a conflict is not repeated. -/
theorem run_retryOnConflict_error {body : TryPass α} {s t : σ} {e : Err} (h : run exec body.run s = (.error e, t))
    (hreason : e.reason ≠ some .conflict) (n : Nat) : run exec (retryOnConflict body n).run s = (.error e, t) := by
  cases n with
  | zero => exact h
  | succ n =>
    rw [retryOnConflict, ExceptT.run_mk, run_bind, h]
    dsimp only
    rw [if_neg hreason]
    rfl

end YanetOperator
