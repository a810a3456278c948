import Mathlib.Data.Set.Lattice
import YanetOperator.Prog

/-!
# Programs that settle items

A program that runs against a function of the state and brings items into order, one after the other: an item is settled when its
condition holds of the state. What one part settles must survive the parts after it, so every part says which items it settles and
keeps all items of the whole settled that were. A part may go wrong, and its value shows it: nothing is said about a run whose value
is not good.
-/

namespace Prog

variable {I : Interface} {α β ε ι κ σ : Type}

/-- Run from a state in `A`, the program stays in `A`. When its value is good, then so was what came before, the items of `done` are
settled at the end, and every item of `all` that was settled still is. -/
structure Settles (exec : σ → (c : I.Call) → I.Answer c × σ) (A : σ → Prop) (holds : κ → σ → Prop) (all done : Set κ) (before : Prop)
    (good : α → Prop) (p : Prog I α) : Prop where
  keeps : ∀ s, A s → A (run exec p s).2
  before : ∀ s, A s → good (run exec p s).1 → before
  settled : ∀ s, A s → good (run exec p s).1 → ∀ i ∈ done, holds i (run exec p s).2
  stays : ∀ s, A s → good (run exec p s).1 → ∀ i ∈ all, holds i s → holds i (run exec p s).2

/-- A value that is good and no error. -/
def isGood (good : α → Prop) : Except ε α → Prop
  | .ok a => good a
  | .error _ => False

section

variable {exec : σ → (c : I.Call) → I.Answer c × σ} {A : σ → Prop} {holds : κ → σ → Prop} {all done done' : Set κ} {before : Prop}
  {good : α → Prop} {good' : β → Prop}

/-- A program that leaves the state alone settles nothing and unsettles nothing. -/
theorem Settles.idle {p : Prog I α} (hrun : ∀ s, (run exec p s).2 = s) (hbefore : ∀ s, A s → good (run exec p s).1 → before) :
    Settles exec A holds all ∅ before good p where
  keeps s hs := by
    rw [hrun]
    exact hs
  before := hbefore
  settled _ _ _ _ hi := absurd hi (Set.notMem_empty _)
  stays s _ _ _ _ h := by
    rw [hrun]
    exact h

theorem Settles.pure (a : α) (h : good a → before) : Settles exec A holds all ∅ before good (Pure.pure a : Prog I α) :=
  .idle (fun _ => rfl) fun _ _ => h

/-- A value that is not good settles whatever is asked. -/
theorem Settles.bad {a : α} (h : ¬good a) : Settles exec A holds all done before good (Pure.pure a : Prog I α) :=
  ⟨fun _ hs => hs, fun _ _ hg => absurd hg h, fun _ _ hg => absurd hg h, fun _ _ hg => absurd hg h⟩

theorem Settles.mono {p : Prog I α} (h : Settles exec A holds all done before good p) (hsub : done' ⊆ done) :
    Settles exec A holds all done' before good p :=
  ⟨h.keeps, h.before, fun s hs hg i hi => h.settled s hs hg i (hsub hi), h.stays⟩

/-- The items of the first part are among those that the second keeps. -/
theorem Settles.bind {p : Prog I α} {f : α → Prog I β} (hsub : done ⊆ all) (hp : Settles exec A holds all done before good p)
    (hf : ∀ a, Settles exec A holds all done' (good a) good' (f a)) :
    Settles exec A holds all (done ∪ done') before good' (p >>= f) where
  keeps s hs := by
    rw [run_bind]
    exact (hf _).keeps _ (hp.keeps s hs)
  before s hs hg := by
    rw [run_bind] at hg
    exact hp.before s hs ((hf _).before _ (hp.keeps s hs) hg)
  settled s hs hg i hi := by
    rw [run_bind] at hg ⊢
    have hfirst := (hf _).before _ (hp.keeps s hs) hg
    rcases hi with hi | hi
    · exact (hf _).stays _ (hp.keeps s hs) hg i (hsub hi) (hp.settled s hs hfirst i hi)
    · exact (hf _).settled _ (hp.keeps s hs) hg i hi
  stays s hs hg i hi h := by
    rw [run_bind] at hg ⊢
    have hfirst := (hf _).before _ (hp.keeps s hs) hg
    exact (hf _).stays _ (hp.keeps s hs) hg i hi (hp.stays s hs hfirst i hi h)

/-- What follows settles nothing more. -/
theorem Settles.bind_idle {p : Prog I α} {f : α → Prog I β} (hsub : done ⊆ all) (hp : Settles exec A holds all done before good p)
    (hf : ∀ a, Settles exec A holds all ∅ (good a) good' (f a)) : Settles exec A holds all done before good' (p >>= f) :=
  (hp.bind hsub hf).mono Set.subset_union_left

/-- A loop settles what its rounds settle. -/
theorem Settles.foldlM {f : α → ι → Prog I α} {l : List ι} {D : ι → Set κ} (hsub : ∀ x ∈ l, D x ⊆ all)
    (hf : ∀ x ∈ l, ∀ a, Settles exec A holds all (D x) (good a) good (f a x)) (a : α) :
    Settles exec A holds all {i | ∃ x ∈ l, i ∈ D x} (good a) good (l.foldlM f a) := by
  induction l generalizing a with
  | nil =>
    refine (Settles.pure a id).mono ?_
    rintro i ⟨x, hx, -⟩
    exact absurd hx List.not_mem_nil
  | cons x l ih =>
    rw [List.foldlM_cons]
    refine ((hf x List.mem_cons_self a).bind (hsub x List.mem_cons_self)
      (ih (fun x' hx' => hsub x' (List.mem_cons_of_mem x hx')) fun x' hx' => hf x' (List.mem_cons_of_mem x hx'))).mono ?_
    rintro i ⟨x', hx', hi⟩
    rcases List.mem_cons.1 hx' with rfl | hx'
    · exact .inl hi
    · exact .inr ⟨x', hx', hi⟩

/-- An error ends the sequence, and is not good. -/
theorem Settles.tryBind {p : ExceptT ε (Prog I) α} {f : α → ExceptT ε (Prog I) β} (hsub : done ⊆ all)
    (hp : Settles exec A holds all done before (isGood good) p.run)
    (hf : ∀ a, Settles exec A holds all done' (good a) (isGood good') (f a).run) :
    Settles exec A holds all (done ∪ done') before (isGood good') (p >>= f).run := by
  rw [ExceptT.run_bind]
  refine hp.bind hsub fun r => ?_
  cases r with
  | ok a => exact hf a
  | error e => exact .bad id

theorem Settles.tryLift {p : Prog I α} (hsub : done ⊆ all) (h : Settles exec A holds all done before good p) :
    Settles exec A holds all done before (isGood good) (ExceptT.lift p : ExceptT ε (Prog I) α).run := by
  rw [ExceptT.run_lift, map_eq_pure_bind]
  exact h.bind_idle hsub fun a => .pure (Except.ok a) fun h => h

theorem Settles.tryFoldlM {f : α → ι → ExceptT ε (Prog I) α} {l : List ι} {D : ι → Set κ} (hsub : ∀ x ∈ l, D x ⊆ all)
    (hf : ∀ x ∈ l, ∀ a, Settles exec A holds all (D x) (good a) (isGood good) (f a x).run) (a : α) :
    Settles exec A holds all {i | ∃ x ∈ l, i ∈ D x} (good a) (isGood good) (l.foldlM f a).run := by
  induction l generalizing a with
  | nil =>
    have hpure : Settles exec A holds all ∅ (good a) (isGood good) (Pure.pure (.ok a : Except ε α) : Prog I (Except ε α)) :=
      .pure _ id
    refine hpure.mono ?_
    rintro i ⟨x, hx, -⟩
    exact absurd hx List.not_mem_nil
  | cons x l ih =>
    rw [List.foldlM_cons]
    refine ((hf x List.mem_cons_self a).tryBind (hsub x List.mem_cons_self)
      (ih (fun x' hx' => hsub x' (List.mem_cons_of_mem x hx')) fun x' hx' => hf x' (List.mem_cons_of_mem x hx'))).mono ?_
    rintro i ⟨x', hx', hi⟩
    rcases List.mem_cons.1 hx' with rfl | hx'
    · exact .inl hi
    · exact .inr ⟨x', hx', hi⟩

end

end Prog
