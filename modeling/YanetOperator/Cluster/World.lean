import Mathlib.Logic.Relation
import YanetOperator.Cluster.Store

/-!
# An API server that others write to

An API server that keeps every version it ever stored. Between two calls of a pass other writers may create, change, re-own, delete
and recreate any object. Every write gives the object a new version, so under one key a version stands for one object. The server
refuses a write that carries another version than the stored one, and may refuse any call; what it stores it may complete and
convert.
-/

namespace YanetOperator

theorem metaOf_withMeta (k : Kind) (o : Obj k) (m : ObjectMeta) : metaOf k (withMeta k o m) = m := by
  cases k <;> rfl

/-- What holds of every object that a server has stored: it has a UID, and an installation carries its served type or none. -/
def Persisted : (k : Kind) → Obj k → Prop
  | .yanet, (y : Yanet) => y.metadata.uid ≠ 0 ∧ (y.apiVersion = "" ∨ y.apiVersion = groupVersion ∧ y.kind = "Yanet")
  | k, o => (metaOf k o).uid ≠ 0

theorem Persisted.uid {k : Kind} {o : Obj k} (h : Persisted k o) : (metaOf k o).uid ≠ 0 := by
  cases k with
  | yanet => exact h.1
  | _ => exact h

theorem persisted_withMeta {k : Kind} {o : Obj k} {m : ObjectMeta} (h : Persisted k o) (hm : m.uid = (metaOf k o).uid) :
    Persisted k (withMeta k o m) := by
  cases k with
  | yanet => exact ⟨(congrArg (· ≠ 0) hm).mpr h.1, h.2⟩
  | _ => exact (congrArg (· ≠ 0) hm).mpr h

/-- The objects of the server, every version that was ever stored, and the last version given. -/
structure World where
  store : Store
  past : Store
  revision : Nat
  stored : ∀ k, ∀ o ∈ store k, o ∈ past k
  persisted : ∀ k, ∀ o ∈ past k, Persisted k o
  numbered : ∀ k, ∀ o ∈ past k, 0 < (metaOf k o).resourceVersion ∧ (metaOf k o).resourceVersion ≤ revision
  distinct : ∀ k, ∀ o ∈ past k, ∀ o' ∈ past k, keyOf k o = keyOf k o' →
    (metaOf k o).resourceVersion = (metaOf k o').resourceVersion → o = o'

namespace World

/-- The object at the next version. -/
def stamp (w : World) (k : Kind) (o : Obj k) : Obj k :=
  withMeta k o { metaOf k o with resourceVersion := w.revision + 1 }

theorem keyOf_stamp (w : World) (k : Kind) (o : Obj k) : keyOf k (w.stamp k o) = keyOf k o := by
  simp [stamp, keyOf, metaOf_withMeta]

theorem resourceVersion_stamp (w : World) (k : Kind) (o : Obj k) : (metaOf k (w.stamp k o)).resourceVersion = w.revision + 1 := by
  simp [stamp, metaOf_withMeta]

/-- The versions after one more was stored. -/
theorem mem_update_past {past : Store} {k : Kind} {o : Obj k} {k' : Kind} {x : Obj k'} :
    x ∈ Function.update past k (o :: past k) k' ↔ x ∈ past k' ∨ ∃ h : k = k', h ▸ o = x := by
  by_cases hk : k = k'
  · subst hk
    simp only [Function.update_self, List.mem_cons, exists_const]
    exact ⟨fun h => h.symm.imp_right Eq.symm, fun h => h.symm.imp_left Eq.symm⟩
  · rw [Function.update_of_ne (Ne.symm hk)]
    simp [hk]

/-- Store an object under its key, at a new version. -/
def persist (w : World) (k : Kind) (o : Obj k) (h : Persisted k o) : World where
  store := w.store.put k (w.stamp k o)
  past := Function.update w.past k (w.stamp k o :: w.past k)
  revision := w.revision + 1
  stored k' x hx := by
    rw [mem_update_past]
    by_cases hk : k = k'
    · subst hk
      rcases Store.mem_put.1 hx with rfl | hx
      · exact Or.inr ⟨rfl, rfl⟩
      · exact Or.inl (w.stored k x hx.1)
    · rw [Store.put_other (Ne.symm hk)] at hx
      exact Or.inl (w.stored k' x hx)
  persisted k' x hx := by
    rcases mem_update_past.1 hx with hx | ⟨rfl, rfl⟩
    · exact w.persisted k' x hx
    · exact persisted_withMeta h rfl
  numbered k' x hx := by
    rcases mem_update_past.1 hx with hx | ⟨rfl, rfl⟩
    · exact ⟨(w.numbered k' x hx).1, (w.numbered k' x hx).2.trans (Nat.le_succ _)⟩
    · rw [resourceVersion_stamp]
      exact ⟨Nat.succ_pos _, le_rfl⟩
  distinct k' x hx x' hx' hkey hversion := by
    rcases mem_update_past.1 hx with hx | ⟨rfl, rfl⟩ <;> rcases mem_update_past.1 hx' with hx' | ⟨h', rfl⟩
    · exact w.distinct k' x hx x' hx' hkey hversion
    · subst h'
      rw [resourceVersion_stamp] at hversion
      have := (w.numbered k x hx).2
      omega
    · rw [resourceVersion_stamp] at hversion
      have := (w.numbered k x' hx').2
      omega
    · rfl

/-- Drop the object under a key; its versions stay known. -/
def drop (w : World) (k : Kind) (key : Key) : World :=
  { w with
    store := w.store.remove k key
    stored := by
      intro k' x hx
      by_cases hk : k = k'
      · subst hk
        exact w.stored k x (Store.mem_remove.1 hx).1
      · rw [Store.remove_other (Ne.symm hk)] at hx
        exact w.stored k' x hx }

/-- A server without objects. -/
def empty : World where
  store := fun _ => []
  past := fun _ => []
  revision := 0
  stored := fun _ _ h => h
  persisted := fun _ _ h => absurd h List.not_mem_nil
  numbered := fun _ _ h => absurd h List.not_mem_nil
  distinct := fun _ _ h => absurd h List.not_mem_nil

/-! ## Calls and other writers -/

/-- One write of somebody else: any object is stored, or dropped. -/
inductive Interferes : World → World → Prop where
  | write (w : World) (k : Kind) (o : Obj k) (h : Persisted k o) : Interferes w (w.persist k o h)
  | delete (w : World) (k : Kind) (key : Key) : Interferes w (w.drop k key)

/-- The answers to a call. A read is answered by versions that have been stored, the latest or, from a cache, an earlier one. A write
that is carried out may still be answered by an error. -/
inductive Answers : World → (c : Op) → c.Answer → World → Prop where
  | get {w : World} {k : Kind} {key : Key} {o : Obj k} (mem : o ∈ w.past k) (hkey : keyOf k o = key) :
      Answers w (.get k key) (.ok o) w
  | getFails {w : World} {k : Kind} {key : Key} (e : ApiError) : Answers w (.get k key) (.error e) w
  | list {w : World} {k : Kind} {ns : Option String} {labels : StrMap String} {os : List (Obj k)} (mem : ∀ o ∈ os, o ∈ w.past k) :
      Answers w (.list k ns labels) (.ok os) w
  | listFails {w : World} {k : Kind} {ns : Option String} {labels : StrMap String} (e : ApiError) :
      Answers w (.list k ns labels) (.error e) w
  | create {w : World} {k : Kind} {o : Obj k} (free : w.store.find k (keyOf k o) = none) (o' : Obj k) (hkey : keyOf k o' = keyOf k o)
      (h : Persisted k o') (r : Except ApiError Unit) : Answers w (.create k o) r (w.persist k o' h)
  | createFails {w : World} {k : Kind} {o : Obj k} (e : ApiError) : Answers w (.create k o) (.error e) w
  | update {w : World} {k : Kind} {o stored : Obj k} (found : w.store.find k (keyOf k o) = some stored)
      (version : (metaOf k o).resourceVersion = 0 ∨ (metaOf k o).resourceVersion = (metaOf k stored).resourceVersion)
      (o' : Obj k) (hkey : keyOf k o' = keyOf k o) (h : Persisted k o') (r : Except ApiError Unit) :
      Answers w (.update k o) r (w.persist k o' h)
  | updateFails {w : World} {k : Kind} {o : Obj k} (e : ApiError) : Answers w (.update k o) (.error e) w
  | updateStatus {w : World} {y : Yanet} (y' : Yanet) (h : Persisted .yanet y') (r : Except ApiError Unit) :
      Answers w (.updateStatus y) r (w.persist .yanet y' h)
  | updateStatusFails {w : World} {y : Yanet} (e : ApiError) : Answers w (.updateStatus y) (.error e) w
  | dryRun {w : World} {d d' : Deployment} (hkey : keyOf .deployment d' = keyOf .deployment d)
      (version : d'.metadata.resourceVersion = d.metadata.resourceVersion) : Answers w (.dryRun d) (.ok d') w
  | dryRunFails {w : World} {d : Deployment} (e : ApiError) : Answers w (.dryRun d) (.error e) w
  | deleteMarks {w : World} {k : Kind} {o stored : Obj k} {foreground : Bool} (found : w.store.find k (keyOf k o) = some stored)
      (uid : (metaOf k stored).uid = (metaOf k o).uid)
      (version : (metaOf k stored).resourceVersion = (metaOf k o).resourceVersion)
      (o' : Obj k) (hkey : keyOf k o' = keyOf k o) (h : Persisted k o') (r : Except ApiError Unit) :
      Answers w (.delete k o foreground) r (w.persist k o' h)
  | deleteDrops {w : World} {k : Kind} {o stored : Obj k} {foreground : Bool} (found : w.store.find k (keyOf k o) = some stored)
      (uid : (metaOf k stored).uid = (metaOf k o).uid)
      (version : (metaOf k stored).resourceVersion = (metaOf k o).resourceVersion) (r : Except ApiError Unit) :
      Answers w (.delete k o foreground) r (w.drop k (keyOf k o))
  | deleteFails {w : World} {k : Kind} {o : Obj k} {foreground : Bool} (e : ApiError) :
      Answers w (.delete k o foreground) (.error e) w
  | event {w : World} (reason note : String) : Answers w (.event reason note) () w
  | checkStop {w : World} (stop : Bool) : Answers w .checkStop stop w
  | snapshot {w : World} (cfg : YanetConfigSpec) : Answers w .snapshot cfg w
  | requeue {w : World} (window : Int) (host : String) (wait : Int) : Answers w (.requeue window host) wait w
  | now {w : World} (time : Nat) : Answers w .now time w

/-- A call of a pass with other writers before it. -/
def interleaved : Prog.Step Api World := Prog.Step.after (Relation.ReflTransGen Interferes) Answers

end World

end YanetOperator
