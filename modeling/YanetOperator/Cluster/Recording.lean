import YanetOperator.Cluster.Store
import YanetOperator.Lemmas.Run

/-!
# A server that grants every call

An API server on which every call succeeds, with a record of the writes, and the runs of reads against it.
-/

namespace YanetOperator

open Prog

/-- An API server that grants every call, with the writes it has seen. -/
structure Recording where
  store : Store
  writes : List Op := []

/-- The answer to a call, and the server after it. -/
def Recording.exec (s : Recording) (c : Api.Call) : Api.Answer c × Recording :=
  match c with
  | .get k key => (s.store.get k key, s)
  | .list k ns labels => (.ok (s.store.select k ns labels), s)
  | .create k o => (.ok (), { store := s.store.put k o, writes := s.writes ++ [.create k o] })
  | .update k o => (.ok (), { store := s.store.put k o, writes := s.writes ++ [.update k o] })
  | .updateStatus y => (.ok (), { store := s.store.put .yanet y, writes := s.writes ++ [.updateStatus y] })
  | .dryRun d => (.ok d, s)
  | .delete k o foreground =>
    (.ok (), { store := s.store.remove k (keyOf k o), writes := s.writes ++ [.delete k o foreground] })
  | .event _ _ => ((), s)
  | .checkStop => (false, s)
  | .snapshot => ({}, s)
  | .requeue _ _ => ((0 : Int), s)
  | .now => ((0 : Nat), s)

/-- The server after a call. -/
def Recording.after (s : Recording) (c : Op) : Recording := (s.exec c).2

@[simp] theorem run_listObjs (s : Recording) (k : Kind) (ns : Option String) (labels : StrMap String) :
    run Recording.exec (listObjs k ns labels).run s = (.ok (s.store.select k ns labels), s) := by
  rw [listObjs, run_attempt]
  rfl

/-- A read of one object: it is missing, or it is the one under the key. -/
@[simp] theorem run_getObj (s : Recording) (k : Kind) (key : Key) :
    run Recording.exec (getObj k key).run s = ((s.store.get k key).mapError Err.api, s) := by
  rw [getObj, run_attempt]
  rfl

@[simp] theorem run_checkGlobalStop (s : Recording) : run Recording.exec checkGlobalStop.run s = (.ok (), s) := rfl

@[simp] theorem run_recordEvent (s : Recording) (reason note : String) :
    run Recording.exec (recordEvent reason note) s = ((), s) := rfl

end YanetOperator
