import Mathlib.Algebra.Group.Int.Defs
import Mathlib.Algebra.Group.Nat.Defs

/-!
# The update window

`checkUpdateRequeue` of `yanet_controller.go`: the throttle that keeps updates of different nodes apart. The clock counts
nanoseconds. `applyDeployment` asks it before each update and writes when the answer is zero.
-/

namespace YanetOperator

/-- The part of the `YanetReconciler` that its lock guards: the last update it let through. -/
structure Throttle where
  lastUpdateTS : Int
  lastUpdateHost : String
  deriving DecidableEq

/-- `time.Time.Sub`: the difference of two instants, saturated at the ends of a duration. -/
def timeSub (t u : Int) : Int := max (-2 ^ 63) (min (2 ^ 63 - 1) (t - u))

/-- The difference of two durations, which wraps around. -/
def durationSub (a b : Int) : Int := Int.bmod (a - b) (2 ^ 64)

/-- `checkUpdateRequeue`: the time to wait, zero when the update may go ahead, and the throttle afterwards. -/
def checkUpdateRequeue (st : Throttle) (updateWindow : Int) (updateHost : String) (timeNow : Int) : Int × Throttle :=
  if updateWindow = 0 then (0, st)
  else
    let timerExpired := decide (st.lastUpdateTS + updateWindow < timeNow)
    if timerExpired = false ∧ updateHost ≠ st.lastUpdateHost then
      (durationSub updateWindow (timeSub timeNow st.lastUpdateTS), st)
    else (0, { lastUpdateTS := timeNow, lastUpdateHost := updateHost })

/-- A call of `checkUpdateRequeue`: the node it asks for, and the time of the clock when it holds the lock. -/
structure UpdateCall where
  host : String
  time : Int
  deriving DecidableEq

/-- The calls in the order in which they take the lock, each with its answer. -/
def updateRequeues (updateWindow : Int) : Throttle → List UpdateCall → List (UpdateCall × Int)
  | _, [] => []
  | st, c :: cs =>
    let (d, st') := checkUpdateRequeue st updateWindow c.host c.time
    (c, d) :: updateRequeues updateWindow st' cs

/-- The calls that were let through. -/
def granted (answers : List (UpdateCall × Int)) : List UpdateCall := (answers.filter (·.2 = 0)).map (·.1)

end YanetOperator
