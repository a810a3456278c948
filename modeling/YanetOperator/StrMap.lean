import Std.Data.ExtTreeMap
import Mathlib.Data.List.Nodup

/-!
# Maps with string keys

A Go map from strings, as a finite map with its keys in order, with the bulk operations programs use on such maps: build from
entries, write one map over another, remove the keys a predicate selects. Each is characterised by the lookup of a key.
-/

/-- A Go map with string keys: two maps with the same entries are equal, and the keys are listed in order. -/
abbrev StrMap (β : Type) := Std.ExtTreeMap String β

namespace StrMap

variable {β : Type}

/-- A map given by its entries, the last entry of a key winning. -/
def of (entries : List (String × β)) : StrMap β := entries.foldl (fun m e => m.insert e.1 e.2) ∅

/-- Write every entry of `m'` into `m`. -/
def override (m m' : StrMap β) : StrMap β := m'.toList.foldl (fun m e => m.insert e.1 e.2) m

/-- Remove every key that satisfies the predicate. -/
def eraseWhere (m : StrMap β) (p : String → Bool) : StrMap β := m.keys.foldl (fun m k => if p k then m.erase k else m) m

theorem getElem?_foldl_insert (l : List (String × β)) (m : StrMap β) (k : String) :
    (l.foldl (fun m e => m.insert e.1 e.2) m)[k]? = ((l.reverse.find? (·.1 == k)).map (·.2)).or m[k]? := by
  induction l generalizing m with
  | nil => simp
  | cons e l ih =>
    rw [List.foldl_cons, ih, List.reverse_cons, List.find?_append]
    cases h : l.reverse.find? (·.1 == k) with
    | some e' => simp
    | none =>
      by_cases hk : e.1 = k
      · simp [hk]
      · simp [Std.ExtTreeMap.getElem?_insert, hk]

theorem getElem?_of (l : List (String × β)) (k : String) :
    (of l)[k]? = (l.reverse.find? (·.1 == k)).map (·.2) := by
  rw [of, getElem?_foldl_insert]
  simp

/-- An entry of a map was given. -/
theorem mem_of_getElem?_of {l : List (String × β)} {k : String} {v : β} (h : (of l)[k]? = some v) : (k, v) ∈ l := by
  rw [getElem?_of, Option.map_eq_some_iff] at h
  obtain ⟨e, he, rfl⟩ := h
  have hk : e.1 = k := by simpa using List.find?_some he
  rw [← hk]
  exact List.mem_reverse.1 (List.mem_of_find?_eq_some he)

/-- The entry of a key that is given one value only. -/
theorem getElem?_of_functional {l : List (String × β)} {k : String} (h : ∀ v v', (k, v) ∈ l → (k, v') ∈ l → v = v') {v : β} :
    (of l)[k]? = some v ↔ (k, v) ∈ l := by
  refine ⟨mem_of_getElem?_of, fun hm => ?_⟩
  cases hget : (of l)[k]? with
  | none =>
    rw [getElem?_of, Option.map_eq_none_iff, List.find?_eq_none] at hget
    exact absurd (beq_self_eq_true k) (hget (k, v) (List.mem_reverse.2 hm))
  | some v' => rw [h v' v (mem_of_getElem?_of hget) hm]

/-- The entries of a map whose keys are given once. -/
theorem getElem?_of_nodup {l : List (String × β)} (h : (l.map Prod.fst).Nodup) {k : String} {v : β} :
    (of l)[k]? = some v ↔ (k, v) ∈ l :=
  getElem?_of_functional fun _ _ hv hv' => congrArg Prod.snd (List.inj_on_of_nodup_map h hv hv' rfl)

theorem find?_toList (m : StrMap β) (k : String) : (m.toList.reverse.find? (·.1 == k)).map (·.2) = m[k]? := by
  cases h : m[k]? with
  | none =>
    rw [Option.map_eq_none_iff, List.find?_eq_none]
    intro e he hk
    rw [List.mem_reverse, Std.ExtTreeMap.mem_toList_iff_getElem?_eq_some (k := e.1) (v := e.2)] at he
    simp_all
  | some v =>
    have hmem : (k, v) ∈ m.toList := Std.ExtTreeMap.mem_toList_iff_getElem?_eq_some.2 h
    cases hf : m.toList.reverse.find? (·.1 == k) with
    | none =>
      rw [List.find?_eq_none] at hf
      exact absurd (beq_self_eq_true k) (hf (k, v) (List.mem_reverse.2 hmem))
    | some e =>
      have he := List.mem_of_find?_eq_some hf
      have hk : e.1 = k := by simpa using List.find?_some hf
      rw [List.mem_reverse, Std.ExtTreeMap.mem_toList_iff_getElem?_eq_some (k := e.1) (v := e.2), hk, h] at he
      simpa using he.symm

@[simp] theorem getElem?_override (m m' : StrMap β) (k : String) : (m.override m')[k]? = m'[k]?.or m[k]? := by
  rw [override, getElem?_foldl_insert, find?_toList]

theorem getElem?_foldl_erase (l : List String) (p : String → Bool) (m : StrMap β) (k : String) :
    (l.foldl (fun m k => if p k then m.erase k else m) m)[k]? = if p k = true ∧ k ∈ l then none else m[k]? := by
  induction l generalizing m with
  | nil => simp
  | cons x l ih =>
    rw [List.foldl_cons, ih]
    by_cases hx : k = x
    · subst hx
      by_cases hp : p k = true <;> simp [hp]
    · have hx' : x ≠ k := fun h => hx h.symm
      by_cases hp : p x = true <;> simp [hp, hx, hx', Std.ExtTreeMap.getElem?_erase]

@[simp] theorem getElem?_eraseWhere (m : StrMap β) (p : String → Bool) (k : String) :
    (m.eraseWhere p)[k]? = if p k then none else m[k]? := by
  rw [eraseWhere, getElem?_foldl_erase]
  by_cases hk : k ∈ m.keys
  · simp [hk]
  · have hn : m[k]? = none := by
      rw [Std.ExtTreeMap.mem_keys] at hk
      simpa using hk
    by_cases hp : p k = true <;> simp [hk, hn]

theorem mem_toList {m : StrMap β} {k : String} {v : β} : (k, v) ∈ m.toList ↔ m[k]? = some v :=
  Std.ExtTreeMap.mem_toList_iff_getElem?_eq_some

/-- Two maps that agree on the selected keys list the same selected entries. -/
theorem filter_toList_congr {m m' : StrMap β} {p : String → Bool} (h : ∀ k, p k = true → m[k]? = m'[k]?) :
    m.toList.filter (fun e => p e.1) = m'.toList.filter (fun e => p e.1) := by
  have hsorted (m : StrMap β) : (m.toList.filter fun e => p e.1).Pairwise fun a b => compare a.1 b.1 = .lt :=
    Std.ExtTreeMap.ordered_keys_toList.sublist List.filter_sublist
  have hirrefl (a b : String × β) (hlt : compare a.1 b.1 = .lt) : a ≠ b := by
    rintro rfl
    simp at hlt
  have hperm : (m.toList.filter fun e => p e.1).Perm (m'.toList.filter fun e => p e.1) := by
    refine (List.perm_ext_iff_of_nodup ((hsorted m).imp (hirrefl _ _)) ((hsorted m').imp (hirrefl _ _))).2 fun ⟨k, v⟩ => ?_
    simp only [List.mem_filter, mem_toList]
    refine and_congr_left fun hk => ?_
    rw [h k hk]
  refine hperm.eq_of_pairwise (fun a b _ _ hab hba => ?_) (hsorted m) (hsorted m')
  have hswap : compare a.1 b.1 = (compare b.1 a.1).swap := Std.OrientedCmp.eq_swap
  rw [hab, hba] at hswap
  cases hswap

theorem ext {m m' : StrMap β} (h : ∀ k : String, m[k]? = m'[k]?) : m = m' := Std.ExtTreeMap.ext_getElem? h

end StrMap
