import Mathlib.Logic.Function.Basic
import YanetOperator.Controller.Interface

/-!
# The objects of a cluster

The objects an API server holds, by kind. Within a kind an object is found by its key; a write replaces the object under the key.
-/

namespace YanetOperator

/-- The objects of a cluster. -/
abbrev Store := (k : Kind) → List (Obj k)

namespace Store

/-- The object under a key. -/
def find (s : Store) (k : Kind) (key : Key) : Option (Obj k) := (s k).find? fun o => decide (keyOf k o = key)

/-- The answer to a read of one object. -/
def get (s : Store) (k : Kind) (key : Key) : Except ApiError (Obj k) :=
  match s.find k key with
  | some o => .ok o
  | none => .error { reason := .notFound }

/-- The objects of a kind in a namespace, or in all, that have the labels. -/
def select (s : Store) (k : Kind) (ns : Option String) (labels : StrMap String) : List (Obj k) :=
  (s k).filter fun o => ns.all (· == (metaOf k o).ns) && matchesLabels labels (metaOf k o).labels

/-- Write an object under its key. -/
def put (s : Store) (k : Kind) (o : Obj k) : Store :=
  Function.update s k (o :: (s k).filter fun x => decide (keyOf k x ≠ keyOf k o))

/-- Drop the object under a key. -/
def remove (s : Store) (k : Kind) (key : Key) : Store :=
  Function.update s k ((s k).filter fun x => decide (keyOf k x ≠ key))

variable {s : Store} {k : Kind} {o x : Obj k} {key : Key}

theorem find_some (h : s.find k key = some o) : o ∈ s k ∧ keyOf k o = key :=
  ⟨List.mem_of_find?_eq_some h, by simpa using List.find?_some h⟩

theorem find_none : s.find k key = none ↔ ∀ o ∈ s k, keyOf k o ≠ key := by
  simp [find]

theorem get_of_find (h : s.find k key = some o) : s.get k key = .ok o := by
  rw [get, h]

theorem get_of_find_none (h : s.find k key = none) : s.get k key = .error { reason := .notFound } := by
  rw [get, h]

theorem mem_select {ns : Option String} {labels : StrMap String} :
    o ∈ s.select k ns labels ↔
      o ∈ s k ∧ (∀ n, ns = some n → n = (metaOf k o).ns) ∧ matchesLabels labels (metaOf k o).labels = true := by
  cases ns <;> simp [select]

theorem mem_put : x ∈ s.put k o k ↔ x = o ∨ (x ∈ s k ∧ keyOf k x ≠ keyOf k o) := by
  simp [put]

theorem put_other {k' : Kind} (h : k' ≠ k) : s.put k o k' = s k' := Function.update_of_ne h _ _

theorem mem_remove : x ∈ s.remove k key k ↔ x ∈ s k ∧ keyOf k x ≠ key := by
  simp [remove]

theorem remove_other {k' : Kind} (h : k' ≠ k) : s.remove k key k' = s k' := Function.update_of_ne h _ _

/-- A write is seen in no other kind. -/
theorem find_put_kind {k' : Kind} (h : k' ≠ k) : (s.put k o).find k' = s.find k' := by
  funext key
  rw [find, find, put_other h]

theorem find_remove_kind {k' : Kind} (h : k' ≠ k) : (s.remove k key).find k' = s.find k' := by
  funext key'
  rw [find, find, remove_other h]

/-- Where every object has a key of its own, each is the one found under it. -/
theorem find_of_mem (h : ((s k).map (keyOf k)).Nodup) (ho : o ∈ s k) : s.find k (keyOf k o) = some o := by
  cases hfind : s.find k (keyOf k o) with
  | none => exact absurd rfl (find_none.1 hfind o ho)
  | some x =>
    obtain ⟨hx, hkey⟩ := find_some hfind
    rw [List.inj_on_of_nodup_map h hx ho hkey]

/-- A write is seen under no other key. -/
theorem find_put_self : (s.put k o).find k (keyOf k o) = some o := by
  unfold find put
  rw [Function.update_self, List.find?_cons_of_pos (by simp)]

theorem find_put (h : keyOf k o ≠ key) : (s.put k o).find k key = s.find k key := by
  unfold find put
  rw [Function.update_self, List.find?_cons_of_neg (by simpa using h), List.find?_filter]
  congr 1
  funext x
  by_cases hx : keyOf k x = key
  · simp [hx, Ne.symm h]
  · simp [hx]

theorem find_remove {key' : Key} (h : key' ≠ key) : (s.remove k key').find k key = s.find k key := by
  unfold find remove
  rw [Function.update_self, List.find?_filter]
  congr 1
  funext x
  by_cases hx : keyOf k x = key
  · simp [hx, Ne.symm h]
  · simp [hx]

end Store

end YanetOperator
