import Mathlib.Data.List.Basic
import Mathlib.Data.List.Nodup

/-!
# Checks that stop at the first problem

A check passes or gives one error text. The combinators are the shapes validators are written in: refuse on a condition, one
check after another, every element of a list with its index, and a list whose keys must be new. For each, what it means that
the check passed.
-/

/-- A check: it passes, or fails with a text. -/
abbrev Check := Except String Unit

namespace Check

variable {ε α β : Type}

/-- Fail with the text when the condition holds. -/
def refuse (bad : Prop) [Decidable bad] (text : String) : Check := if bad then .error text else .ok ()

@[simp] theorem refuse_ok {bad : Prop} [Decidable bad] {text : String} : refuse bad text = .ok () ↔ ¬bad := by
  unfold refuse
  split <;> simp_all

/-- Put a text before the error. -/
def within (text : String) (x : Except String α) : Except String α :=
  match x with
  | .error e => .error (text ++ e)
  | .ok a => .ok a

@[simp] theorem within_ok {text : String} {x : Except String α} {a : α} : within text x = .ok a ↔ x = .ok a := by
  cases x <;> simp [within]

/-- Check a value that may be absent. -/
def optional (o : Option α) (f : α → Check) : Check :=
  match o with
  | none => .ok ()
  | some x => f x

@[simp] theorem optional_ok {o : Option α} {f : α → Check} : optional o f = .ok () ↔ ∀ x, o = some x → f x = .ok () := by
  cases o <;> simp [optional]

/-- Check only when the condition holds. -/
def onlyIf (condition : Prop) [Decidable condition] (x : Check) : Check := if condition then x else .ok ()

@[simp] theorem onlyIf_ok {condition : Prop} [Decidable condition] {x : Check} :
    onlyIf condition x = .ok () ↔ (condition → x = .ok ()) := by
  unfold onlyIf
  split <;> simp_all

/-- A test that holds of a result: there is a result. -/
theorem exists_of_any {x : Except ε α} {p : α → Bool} (h : x.toOption.any p = true) : ∃ a, x = .ok a ∧ p a = true := by
  cases x with
  | error e => cases h
  | ok a => exact ⟨a, rfl, h⟩

/-- A sequence of computations that may fail succeeds when the first does and the rest does on its result. -/
theorem bind_eq_ok {x : Except ε α} {f : α → Except ε β} {b : β} :
    (x >>= f) = .ok b ↔ ∃ a, x = .ok a ∧ f a = .ok b := by
  cases x with
  | error e => simp [bind, Except.bind]
  | ok a => simp [bind, Except.bind]

/-- One check and then another. -/
theorem seq_ok {x : Except ε Unit} {f : Unit → Except ε α} {a : α} :
    (x >>= f) = .ok a ↔ x = .ok () ∧ f () = .ok a := by
  rw [bind_eq_ok]
  exact ⟨fun ⟨_, h⟩ => h, fun h => ⟨(), h⟩⟩

/-- A check of every element of a list. -/
theorem forM_ok {xs : List α} {f : α → Except ε PUnit} : forM xs f = .ok () ↔ ∀ x ∈ xs, f x = .ok () := by
  induction xs with
  | nil => simp [pure, Except.pure]
  | cons x xs ih =>
    rw [List.forM_cons, seq_ok, ih]
    simp

/-- A computation on every element of a list succeeds when each succeeds, with the list of the results. -/
theorem mapM_ok {xs : List α} {f : α → Except ε β} {ys : List β} :
    xs.mapM f = .ok ys ↔ List.Forall₂ (fun x y => f x = .ok y) xs ys := by
  induction xs generalizing ys with
  | nil => simp [pure, Except.pure, eq_comm]
  | cons x xs ih =>
    rw [List.mapM_cons, bind_eq_ok]
    simp only [bind_eq_ok, ih, List.forall₂_cons_left_iff]
    constructor
    · rintro ⟨y, hy, zs, hzs, h⟩
      exact ⟨y, zs, hy, hzs, (Except.ok.inj h).symm⟩
    · rintro ⟨y, zs, hy, hzs, rfl⟩
      exact ⟨y, hy, zs, hzs, rfl⟩

/-- Two results with one image: the same error, or values with one image. -/
theorem map_eq_map {f : α → β} {r r' : Except ε α} (h : r'.map f = r.map f) :
    (∃ e, r = .error e ∧ r' = .error e) ∨ ∃ a a', r = .ok a ∧ r' = .ok a' ∧ f a' = f a := by
  cases r with
  | error e =>
    cases r' with
    | error e' =>
      cases h
      exact .inl ⟨e, rfl, rfl⟩
    | ok a' => cases h
  | ok a =>
    cases r' with
    | error e' => cases h
    | ok a' => exact .inr ⟨a, a', rfl, rfl, Except.ok.inj h⟩

theorem forall₂_mem_right {R : α → β → Prop} {xs : List α} {ys : List β} (h : List.Forall₂ R xs ys) {y : β} (hy : y ∈ ys) :
    ∃ x ∈ xs, R x y := by
  obtain ⟨hlength, hall⟩ := List.forall₂_iff_get.1 h
  obtain ⟨i, hi, rfl⟩ := List.mem_iff_getElem.1 hy
  exact ⟨_, List.getElem_mem (hlength ▸ hi), hall i (hlength ▸ hi) hi⟩

theorem mapM_mem {xs : List α} {f : α → Except ε β} {ys : List β} (h : xs.mapM f = .ok ys) {y : β} (hy : y ∈ ys) :
    ∃ x ∈ xs, f x = .ok y := forall₂_mem_right (mapM_ok.1 h) hy

theorem mapM_total {xs : List α} {f : α → Except ε β} (h : ∀ x ∈ xs, ∃ y, f x = .ok y) : ∃ ys, xs.mapM f = .ok ys := by
  induction xs with
  | nil => exact ⟨[], rfl⟩
  | cons x xs ih =>
    obtain ⟨y, hy⟩ := h x (by simp)
    obtain ⟨ys, hys⟩ := ih fun z hz => h z (by simp [hz])
    exact ⟨y :: ys, mapM_ok.2 (.cons hy (mapM_ok.1 hys))⟩

/-- A loop that may fail: an invariant of the accumulator that every step keeps holds at the end. -/
theorem foldlM_inv {J : β → Prop} {f : β → α → Except ε β} {xs : List α} {b b' : β} (h : xs.foldlM f b = .ok b')
    (hJ : J b) (hf : ∀ x ∈ xs, ∀ b b', J b → f b x = .ok b' → J b') : J b' := by
  induction xs generalizing b with
  | nil =>
    cases h
    exact hJ
  | cons x xs ih =>
    rw [List.foldlM_cons, bind_eq_ok] at h
    obtain ⟨c, hc, hxs⟩ := h
    exact ih hxs (hf x (by simp) b c hJ hc) fun y hy => hf y (by simp [hy])

/-- A loop that cannot fail: under an invariant of the accumulator every step succeeds and keeps it. -/
theorem foldlM_total {J : β → Prop} {f : β → α → Except ε β} {xs : List α} {b : β} (hJ : J b)
    (hf : ∀ x ∈ xs, ∀ b, J b → ∃ b', f b x = .ok b' ∧ J b') : ∃ b', xs.foldlM f b = .ok b' ∧ J b' := by
  induction xs generalizing b with
  | nil => exact ⟨b, rfl, hJ⟩
  | cons x xs ih =>
    obtain ⟨c, hc, hJc⟩ := hf x (by simp) b hJ
    obtain ⟨b', hb', hJ'⟩ := ih hJc fun y hy => hf y (by simp [hy])
    exact ⟨b', bind_eq_ok.2 ⟨c, hc, hb'⟩, hJ'⟩

/-- A loop may leave out the elements it skips. -/
theorem foldlM_filter {f : β → α → Except ε β} {p : α → Bool} (h : ∀ b x, p x = false → f b x = .ok b) (xs : List α) (b : β) :
    (xs.filter p).foldlM f b = xs.foldlM f b := by
  induction xs generalizing b with
  | nil => rfl
  | cons x xs ih =>
    cases hp : p x with
    | true =>
      rw [List.filter_cons_of_pos hp, List.foldlM_cons, List.foldlM_cons]
      exact congrArg _ (funext fun b => ih b)
    | false =>
      rw [List.filter_cons_of_neg (by simp [hp]), ih, List.foldlM_cons, h b x hp]
      rfl

/-- Check every element of a list, with its index. -/
def each (f : Nat → α → Check) (xs : List α) : Check := forM xs.zipIdx fun p => f p.2 p.1

theorem each_ok {f : Nat → α → Check} {xs : List α} :
    each f xs = .ok () ↔ ∀ i x, xs[i]? = some x → f i x = .ok () := by
  rw [each, forM_ok]
  constructor
  · intro h i x hx
    exact h (x, i) (by simp [List.mem_zipIdx_iff_getElem?, hx])
  · rintro h ⟨x, i⟩ hx
    exact h i x (by simpa [List.mem_zipIdx_iff_getElem?] using hx)

theorem each_mem {f : Nat → α → Check} {xs : List α} (h : each f xs = .ok ()) {x : α} (hx : x ∈ xs) :
    ∃ i, f i x = .ok () := by
  obtain ⟨i, hi⟩ := List.mem_iff_getElem?.1 hx
  exact ⟨i, each_ok.1 h i x hi⟩

/-- Check the elements of a list in order, with their indices from `i`: `before` the key is looked up, that the key was not
`seen` yet, and `after` it was recorded. -/
def distinct (key : α → String) (before : Nat → α → Check) (dup : Nat → α → String) (after : Nat → α → Check) :
    List String → Nat → List α → Check
  | _, _, [] => .ok ()
  | seen, i, x :: xs => do
    before i x
    refuse (key x ∈ seen) (dup i x)
    after i x
    distinct key before dup after (key x :: seen) (i + 1) xs

section distinct

variable {key : α → String} {before after : Nat → α → Check} {dup : Nat → α → String}

/-- When the check passes, every element passed its own checks, the keys are pairwise distinct, and none was seen before. -/
theorem distinct_ok {seen : List String} {i : Nat} {xs : List α} (h : distinct key before dup after seen i xs = .ok ()) :
    (∀ x ∈ xs, ∃ j, before j x = .ok () ∧ after j x = .ok ()) ∧ (xs.map key).Nodup ∧ ∀ x ∈ xs, key x ∉ seen := by
  induction xs generalizing seen i with
  | nil => simp
  | cons x xs ih =>
    simp only [distinct, seq_ok, refuse_ok] at h
    obtain ⟨hb, hn, ha, hxs⟩ := h
    obtain ⟨h1, h2, h3⟩ := ih hxs
    refine ⟨?_, ?_, ?_⟩
    · intro y hy
      rcases List.mem_cons.1 hy with rfl | hy
      · exact ⟨i, hb, ha⟩
      · exact h1 y hy
    · rw [List.map_cons, List.nodup_cons]
      refine ⟨fun hm => ?_, h2⟩
      obtain ⟨y, hy, e⟩ := List.mem_map.1 hm
      exact h3 y hy (by simp [e])
    · intro y hy
      rcases List.mem_cons.1 hy with rfl | hy
      · exact hn
      · exact fun hm => h3 y hy (by simp [hm])

/-- The check passes when every element passes its own checks at any index, and the keys are pairwise distinct and new. -/
theorem distinct_of {seen : List String} {i : Nat} {xs : List α}
    (hown : ∀ x ∈ xs, ∀ j, before j x = .ok () ∧ after j x = .ok ()) (hnodup : (xs.map key).Nodup)
    (hnew : ∀ x ∈ xs, key x ∉ seen) : distinct key before dup after seen i xs = .ok () := by
  induction xs generalizing seen i with
  | nil => rfl
  | cons x xs ih =>
    rw [List.map_cons, List.nodup_cons] at hnodup
    obtain ⟨hbefore, hafter⟩ := hown x (by simp) i
    refine seq_ok.2 ⟨hbefore, seq_ok.2 ⟨refuse_ok.2 (hnew x (by simp)), seq_ok.2 ⟨hafter, ?_⟩⟩⟩
    refine ih (fun y hy => hown y (by simp [hy])) hnodup.2 fun y hy hm => ?_
    rcases List.mem_cons.1 hm with heq | hm
    · exact hnodup.1 (heq ▸ List.mem_map_of_mem hy)
    · exact hnew y (by simp [hy]) hm

end distinct

end Check
