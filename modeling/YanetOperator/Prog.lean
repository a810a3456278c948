import Mathlib.Logic.Relation
import Mathlib.Data.List.Basic

/-!
# Programs over an interface, and what they may do

A program is a tree of calls: it ends with a value, or it issues a call of an interface and goes on with the answer. Nothing
is said here about what a call does; a transition relation `step s c r s'` gives that (in state `s` the call `c` may be
answered by `r` and leave state `s'`), and one program is read under several relations: serialised, with other parties acting
between two calls, or against an automaton that only watches the calls.

`Safe` is the program logic: along every execution each call is allowed where it is issued, and the value returned satisfies
the postcondition in the state it is returned in. The rules follow the constructors and the loop combinator; `Safe.reaches`
says that the logic is sound for partial executions (`Issues` and `Returns` take an execution apart), and `Safe.simulate` moves
a proof from one relation to another. Under `tracing` the state is the history of the calls; `Safe.frame` and `Safe.follow` take
a proof about histories to any relation, `Safe.mem_calls` to the run against a function.
-/

/-- An interface: its calls, and the type of the answers to each. -/
structure Interface where
  Call : Type
  Answer : Call → Type

/-- A program that issues calls of the interface and returns a value. -/
inductive Prog (I : Interface) (α : Type) : Type where
  | pure (a : α)
  | call (c : I.Call) (k : I.Answer c → Prog I α)

namespace Prog

variable {I : Interface} {α β γ σ τ : Type}

/-- Run the first program, and go on with the value it returned. -/
def bind : Prog I α → (α → Prog I β) → Prog I β
  | .pure a, f => f a
  | .call c k, f => .call c (fun r => (k r).bind f)

/-- The program that issues one call and returns the answer. -/
def perform (c : I.Call) : Prog I (I.Answer c) := .call c .pure

instance : Monad (Prog I) where
  pure := Prog.pure
  bind := Prog.bind

@[simp] theorem pure_bind (a : α) (f : α → Prog I β) : (Pure.pure a : Prog I α) >>= f = f a := rfl

@[simp] theorem call_bind (c : I.Call) (k : I.Answer c → Prog I α) (f : α → Prog I β) :
    Prog.call c k >>= f = .call c (fun r => k r >>= f) := rfl

@[simp] theorem perform_bind (c : I.Call) (f : I.Answer c → Prog I β) : perform c >>= f = .call c f := rfl

theorem bind_assoc (p : Prog I α) (f : α → Prog I β) (g : β → Prog I γ) :
    (p >>= f) >>= g = p >>= fun a => f a >>= g := by
  induction p with
  | pure a => rfl
  | call c k ih => exact congrArg (Prog.call c) (funext ih)

theorem bind_pure (p : Prog I α) : (p >>= fun a => Pure.pure a) = p := by
  induction p with
  | pure a => rfl
  | call c k ih => exact congrArg (Prog.call c) (funext ih)

instance : LawfulMonad (Prog I) := LawfulMonad.mk' (Prog I) bind_pure pure_bind bind_assoc

/-! ## Executions -/

/-- What a call may do: in a state, the call, its answer, and the state it leaves. -/
abbrev Step (I : Interface) (σ : Type) := σ → (c : I.Call) → I.Answer c → σ → Prop

/-- `Reaches step p s q t`: the program `p` started in `s` may, after some calls, have `q` left to run in `t`. -/
inductive Reaches (step : Step I σ) : Prog I α → σ → Prog I α → σ → Prop where
  | refl (p : Prog I α) (s : σ) : Reaches step p s p s
  | call {c : I.Call} {k : I.Answer c → Prog I α} {r : I.Answer c} {s s' t : σ} {q : Prog I α} :
      step s c r s' → Reaches step (k r) s' q t → Reaches step (.call c k) s q t

/-- A program started in `s` may return `a` and leave `t`. -/
def Returns (step : Step I σ) (p : Prog I α) (s : σ) (a : α) (t : σ) : Prop := Reaches step p s (.pure a) t

theorem Reaches.trans {step : Step I σ} {p q r : Prog I α} {s t u : σ} (h : Reaches step p s q t)
    (h' : Reaches step q t r u) : Reaches step p s r u := by
  induction h with
  | refl => exact h'
  | call hs _ ih => exact .call hs (ih h')

/-- What every step keeps holds along an execution. -/
theorem Reaches.keeps {step : Step I σ} {p q : Prog I α} {s t : σ} {A : σ → Prop}
    (hA : ∀ s c r s', step s c r s' → A s → A s') (h : Reaches step p s q t) (hs : A s) : A t := by
  induction h with
  | refl => exact hs
  | call hstep _ ih => exact ih (hA _ _ _ _ hstep hs)

/-- An execution where less may happen is one where more may. -/
theorem Reaches.mono {step step' : Step I σ} {p q : Prog I α} {s t : σ} (hstep : ∀ s c r s', step s c r s' → step' s c r s')
    (h : Reaches step p s q t) : Reaches step' p s q t := by
  induction h with
  | refl => exact .refl _ _
  | call hs _ ih => exact .call (hstep _ _ _ _ hs) ih

/-- A program started in `s` may come to issue the call `c` in `t`. -/
def Issues (step : Step I σ) (p : Prog I α) (s : σ) (c : I.Call) (t : σ) : Prop := ∃ k, Reaches step p s (.call c k) t

theorem Issues.here {step : Step I σ} {c : I.Call} {k : I.Answer c → Prog I α} {s : σ} : Issues step (.call c k) s c s :=
  ⟨k, .refl _ _⟩

theorem Issues.call {step : Step I σ} {c d : I.Call} {k : I.Answer c → Prog I α} {r : I.Answer c} {s s' t : σ}
    (hs : step s c r s') (h : Issues step (k r) s' d t) : Issues step (.call c k) s d t := by
  obtain ⟨k', h⟩ := h
  exact ⟨k', .call hs h⟩

section inversion

variable {step : Step I σ} {s t : σ}

@[simp] theorem returns_pure {a b : α} : Returns step (Pure.pure a : Prog I α) s b t ↔ b = a ∧ t = s := by
  constructor
  · intro h
    cases h
    exact ⟨rfl, rfl⟩
  · rintro ⟨rfl, rfl⟩
    exact .refl _ _

@[simp] theorem returns_perform {c : I.Call} {r : I.Answer c} : Returns step (perform c) s r t ↔ step s c r t := by
  constructor
  · rintro (_ | ⟨hs, hr⟩)
    cases hr
    exact hs
  · intro hs
    exact .call hs (.refl _ _)

/-- What is left of a sequence is left of its first part, or the first part has returned. -/
theorem Reaches.bind_cases {p : Prog I α} {f : α → Prog I β} {q : Prog I β} (h : Reaches step (p >>= f) s q t) :
    (∃ p', Reaches step p s p' t ∧ q = p' >>= f) ∨ ∃ a u, Returns step p s a u ∧ Reaches step (f a) u q t := by
  induction p generalizing s with
  | pure a => exact .inr ⟨a, s, .refl _ _, h⟩
  | call c k ih =>
    cases h with
    | refl => exact .inl ⟨.call c k, .refl _ _, rfl⟩
    | call hs hr =>
      rcases ih _ hr with ⟨p', hp', hq⟩ | ⟨a, u, ha, hq⟩
      · exact .inl ⟨p', .call hs hp', hq⟩
      · exact .inr ⟨a, u, .call hs ha, hq⟩

theorem returns_bind {p : Prog I α} {f : α → Prog I β} {b : β} :
    Returns step (p >>= f) s b t ↔ ∃ a u, Returns step p s a u ∧ Returns step (f a) u b t := by
  constructor
  · intro h
    rcases h.bind_cases with ⟨p', hp', hq⟩ | ⟨a, u, ha, hb⟩
    · cases p' with
      | pure a => exact ⟨a, t, hp', by rw [Returns, hq]; exact .refl _ _⟩
      | call c k => cases hq
    · exact ⟨a, u, ha, hb⟩
  · rintro ⟨a, u, ha, hb⟩
    induction p generalizing s with
    | pure a' =>
      obtain ⟨rfl, rfl⟩ := returns_pure.1 ha
      exact hb
    | call c k ih =>
      cases ha with
      | call hs hr => exact .call hs (ih _ hr)

/-- A sequence issues what its first part issues, and what the rest issues on the value returned. -/
theorem Issues.bind_cases {p : Prog I α} {f : α → Prog I β} {c : I.Call} (h : Issues step (p >>= f) s c t) :
    Issues step p s c t ∨ ∃ a u, Returns step p s a u ∧ Issues step (f a) u c t := by
  obtain ⟨k, h⟩ := h
  rcases h.bind_cases with ⟨p', hp', hq⟩ | ⟨a, u, ha, hq⟩
  · cases p' with
    | pure a => exact .inr ⟨a, t, hp', k, hq ▸ .refl _ _⟩
    | call c' k' =>
      cases hq
      exact .inl ⟨k', hp'⟩
  · exact .inr ⟨a, u, ha, k, hq⟩

/-- Every call a program may ever issue satisfies `P`. -/
def Only (P : I.Call → Prop) : Prog I α → Prop
  | .pure _ => True
  | .call c k => P c ∧ ∀ r, Only P (k r)

theorem Only.bind {P : I.Call → Prop} {p : Prog I α} {f : α → Prog I β} (hp : Only P p) (hf : ∀ a, Only P (f a)) :
    Only P (p >>= f) := by
  induction p with
  | pure a => exact hf a
  | call c k ih => exact ⟨hp.1, fun r => ih r (hp.2 r)⟩

theorem Only.perform {P : I.Call → Prop} {c : I.Call} (hc : P c) : Only P (perform c) := ⟨hc, fun _ => trivial⟩

theorem Only.foldlM {ι : Type} {P : I.Call → Prop} {f : α → ι → Prog I α} {l : List ι} {a : α}
    (hf : ∀ x ∈ l, ∀ a, Only P (f a x)) : Only P (l.foldlM f a) := by
  induction l generalizing a with
  | nil => trivial
  | cons x l ih =>
    rw [List.foldlM_cons]
    exact (hf x List.mem_cons_self a).bind fun b => ih fun y hy => hf y (List.mem_cons_of_mem x hy)

theorem Only.mono {P Q : I.Call → Prop} {p : Prog I α} (hp : Only P p) (h : ∀ c, P c → Q c) : Only Q p := by
  induction p with
  | pure a => trivial
  | call c k ih => exact ⟨h c hp.1, fun r => ih r (hp.2 r)⟩

theorem Only.tryBind {ε : Type} {P : I.Call → Prop} {x : ExceptT ε (Prog I) α} {f : α → ExceptT ε (Prog I) β} (hx : Only P x.run)
    (hf : ∀ a, Only P (f a).run) : Only P (x >>= f).run := by
  refine hx.bind fun r => ?_
  cases r with
  | ok a => exact hf a
  | error e => trivial

theorem Only.tryFoldlM {ε ι : Type} {P : I.Call → Prop} {f : α → ι → ExceptT ε (Prog I) α} {l : List ι} {a : α}
    (hf : ∀ x ∈ l, ∀ a, Only P (f a x).run) : Only P (l.foldlM f a).run := by
  induction l generalizing a with
  | nil => trivial
  | cons x l ih =>
    rw [List.foldlM_cons]
    exact (hf x List.mem_cons_self a).tryBind fun b => ih fun y hy => hf y (List.mem_cons_of_mem x hy)

theorem Only.issues {P : I.Call → Prop} {p : Prog I α} {c : I.Call} (hp : Only P p) (h : Issues step p s c t) : P c := by
  obtain ⟨k, h⟩ := h
  induction p generalizing s with
  | pure a => cases h
  | call c' k' ih =>
    cases h with
    | refl => exact hp.1
    | call hs hr => exact ih _ (hp.2 _) hr

end inversion

/-- Another party moves between two calls: the relation `env` acts, then the call is answered. -/
def Step.after (env : σ → σ → Prop) (step : Step I σ) : Step I σ :=
  fun s c r t => ∃ s', env s s' ∧ step s' c r t

/-! ## The logic -/

/-- Along every execution of the program from the state, each call issued satisfies `G` in the state it is issued in, and
the value returned satisfies `Q` in the state it is returned in. -/
def Safe (step : Step I σ) (G : σ → I.Call → Prop) (Q : α → σ → Prop) : Prog I α → σ → Prop
  | .pure a, s => Q a s
  | .call c k, s => G s c ∧ ∀ r s', step s c r s' → Safe step G Q (k r) s'

section rules

variable {step : Step I σ} {G : σ → I.Call → Prop} {s : σ}

@[simp] theorem safe_pure {Q : α → σ → Prop} (a : α) : Safe step G Q (Pure.pure a) s ↔ Q a s := Iff.rfl

theorem safe_call {Q : α → σ → Prop} (c : I.Call) (k : I.Answer c → Prog I α) :
    Safe step G Q (.call c k) s ↔ G s c ∧ ∀ r s', step s c r s' → Safe step G Q (k r) s' := Iff.rfl

theorem safe_perform {Q : (α : Type) → α → σ → Prop} (c : I.Call) :
    Safe step G (Q (I.Answer c)) (perform c) s ↔ G s c ∧ ∀ r s', step s c r s' → Q (I.Answer c) r s' := Iff.rfl

/-- Consequence: a weaker permission and a weaker postcondition. -/
theorem Safe.mono {G' : σ → I.Call → Prop} {Q Q' : α → σ → Prop} {p : Prog I α} (h : Safe step G Q p s)
    (hG : ∀ s c, G s c → G' s c) (hQ : ∀ a s, Q a s → Q' a s) : Safe step G' Q' p s := by
  induction p generalizing s with
  | pure a => exact hQ a s h
  | call c k ih => exact ⟨hG s c h.1, fun r s' hs => ih r (h.2 r s' hs)⟩

theorem Safe.post {Q Q' : α → σ → Prop} {p : Prog I α} (h : Safe step G Q p s) (hQ : ∀ a s, Q a s → Q' a s) :
    Safe step G Q' p s :=
  h.mono (fun _ _ h => h) hQ

/-- Sequencing: the first program is safe with the postcondition that the rest is. -/
theorem safe_bind {Q : β → σ → Prop} {p : Prog I α} {f : α → Prog I β} :
    Safe step G Q (p >>= f) s ↔ Safe step G (fun a t => Safe step G Q (f a) t) p s := by
  induction p generalizing s with
  | pure a => exact Iff.rfl
  | call c k ih =>
    rw [call_bind, safe_call, safe_call]
    simp only [ih]

theorem Safe.bind {R : α → σ → Prop} {Q : β → σ → Prop} {p : Prog I α} {f : α → Prog I β} (hp : Safe step G R p s)
    (hf : ∀ a t, R a t → Safe step G Q (f a) t) : Safe step G Q (p >>= f) s :=
  safe_bind.2 (hp.post hf)

/-- A loop over a list with an accumulator: an invariant of the accumulator and the state, kept by the body, holds at the
end. -/
theorem Safe.foldlM {ι : Type} {J : α → σ → Prop} {f : α → ι → Prog I α} {l : List ι} {a : α}
    (hf : ∀ x ∈ l, ∀ a s, J a s → Safe step G J (f a x) s) (h : J a s) : Safe step G J (l.foldlM f a) s := by
  induction l generalizing a s with
  | nil => exact h
  | cons x l ih =>
    rw [List.foldlM_cons]
    exact (hf x (by simp) a s h).bind fun b t hb => ih (fun y hy => hf y (by simp [hy])) hb

/-- Two postconditions at once. -/
theorem Safe.and {G' : σ → I.Call → Prop} {Q Q' : α → σ → Prop} {p : Prog I α} (h : Safe step G Q p s)
    (h' : Safe step G' Q' p s) : Safe step (fun s c => G s c ∧ G' s c) (fun a s => Q a s ∧ Q' a s) p s := by
  induction p generalizing s with
  | pure a => exact ⟨h, h'⟩
  | call c k ih => exact ⟨⟨h.1, h'.1⟩, fun r s' hs => ih r (h.2 r s' hs) (h'.2 r s' hs)⟩

/-- A postcondition for a value that may be an error. -/
def onResult {ε : Type} (J : α → σ → Prop) (E : ε → σ → Prop) : Except ε α → σ → Prop
  | .ok a, s => J a s
  | .error e, s => E e s

/-- Sequencing of programs that may fail: an error ends the sequence. -/
theorem Safe.tryBind {ε : Type} {J : α → σ → Prop} {Q : Except ε β → σ → Prop} {x : ExceptT ε (Prog I) α}
    {f : α → ExceptT ε (Prog I) β} (hx : Safe step G (onResult J fun e s => Q (.error e) s) x.run s)
    (hf : ∀ a t, J a t → Safe step G Q (f a).run t) : Safe step G Q (x >>= f).run s := by
  refine Safe.bind hx fun r t hr => ?_
  cases r with
  | ok a => exact hf a t hr
  | error e => exact hr

theorem Safe.tryLift {ε : Type} {Q : Except ε α → σ → Prop} {p : Prog I α} (h : Safe step G (fun a t => Q (.ok a) t) p s) :
    Safe step G Q (ExceptT.lift p).run s :=
  Safe.bind h fun _ _ ha => ha

/-- A loop of a program that may fail: the body keeps the invariant or fails. -/
theorem Safe.tryFoldlM {ε ι : Type} {J : α → σ → Prop} {E : ε → σ → Prop} {f : α → ι → ExceptT ε (Prog I) α} {l : List ι} {a : α}
    (hf : ∀ x ∈ l, ∀ a s, J a s → Safe step G (onResult J E) (f a x).run s) (h : J a s) :
    Safe step G (onResult J E) (l.foldlM f a).run s := by
  induction l generalizing a s with
  | nil => exact h
  | cons x l ih =>
    rw [List.foldlM_cons]
    exact (hf x (by simp) a s h).tryBind fun b t hb => ih (fun y hy => hf y (by simp [hy])) hb

/-- A loop whose invariant speaks about the part of the list that is done. -/
theorem Safe.foldlM_done {ι : Type} {J : List ι → α → σ → Prop} {f : α → ι → Prog I α} {l : List ι} {a : α} (done : List ι)
    (hf : ∀ done, ∀ x ∈ l, ∀ a s, J done a s → Safe step G (J (done ++ [x])) (f a x) s) (h : J done a s) :
    Safe step G (J (done ++ l)) (l.foldlM f a) s := by
  induction l generalizing done a s with
  | nil =>
    rw [List.append_nil]
    exact h
  | cons x l ih =>
    rw [List.foldlM_cons, List.append_cons]
    exact (hf done x (by simp) a s h).bind fun b t hb => ih (done ++ [x]) (fun done y hy => hf done y (by simp [hy])) hb

theorem Safe.tryFoldlM_done {ε ι : Type} {J : List ι → α → σ → Prop} {E : ε → σ → Prop} {f : α → ι → ExceptT ε (Prog I) α}
    {l : List ι} {a : α} (done : List ι)
    (hf : ∀ done, ∀ x ∈ l, ∀ a s, J done a s → Safe step G (onResult (J (done ++ [x])) E) (f a x).run s) (h : J done a s) :
    Safe step G (onResult (J (done ++ l)) E) (l.foldlM f a).run s := by
  induction l generalizing done a s with
  | nil =>
    rw [List.append_nil]
    exact h
  | cons x l ih =>
    rw [List.foldlM_cons, List.append_cons]
    exact (hf done x (by simp) a s h).tryBind fun b t hb => ih (done ++ [x]) (fun done y hy => hf done y (by simp [hy])) hb

theorem Safe.tryForM {ε ι : Type} {A : σ → Prop} {E : ε → σ → Prop} {f : ι → ExceptT ε (Prog I) PUnit} {l : List ι}
    (hf : ∀ x ∈ l, ∀ s, A s → Safe step G (onResult (fun _ s => A s) E) (f x).run s) (h : A s) :
    Safe step G (onResult (fun _ s => A s) E) (l.forM f).run s := by
  induction l generalizing s with
  | nil => exact h
  | cons x l ih => exact (hf x (by simp) s h).tryBind fun _ t ht => ih (fun y hy => hf y (by simp [hy])) ht

/-- Sequencing of programs that may end early. -/
theorem Safe.optionBind {Q : Option β → σ → Prop} {J : α → σ → Prop} {x : OptionT (Prog I) α} {f : α → OptionT (Prog I) β}
    (hx : Safe step G (fun r t => ∀ a, r = some a → J a t) x.run s) (hnone : ∀ t, Q none t)
    (hf : ∀ a t, J a t → Safe step G Q (f a).run t) : Safe step G Q (x >>= f).run s := by
  refine Safe.bind hx fun r t hr => ?_
  cases r with
  | none => exact hnone t
  | some a => exact hf a t (hr a rfl)

/-- A loop of a program that may end early. -/
theorem Safe.optionFoldlM {ι : Type} {J : α → σ → Prop} {f : α → ι → OptionT (Prog I) α} {l : List ι} {a : α}
    (hf : ∀ x ∈ l, ∀ a s, J a s → Safe step G (fun r t => ∀ b, r = some b → J b t) (f a x).run s) (h : J a s) :
    Safe step G (fun r t => ∀ b, r = some b → J b t) (l.foldlM f a).run s := by
  induction l generalizing a s with
  | nil =>
    intro b hb
    cases hb
    exact h
  | cons x l ih =>
    rw [List.foldlM_cons]
    exact (hf x (by simp) a s h).optionBind (fun t b hb => nomatch hb) fun b t hb => ih (fun y hy => hf y (by simp [hy])) hb

end rules

/-- Soundness for partial executions: whatever is left to run is safe where it is left. -/
theorem Safe.reaches {step : Step I σ} {G : σ → I.Call → Prop} {Q : α → σ → Prop} {p q : Prog I α} {s t : σ}
    (h : Reaches step p s q t) (hp : Safe step G Q p s) : Safe step G Q q t := by
  induction h with
  | refl => exact hp
  | call hs _ ih => exact ih (hp.2 _ _ hs)

theorem Safe.returns {step : Step I σ} {G : σ → I.Call → Prop} {Q : α → σ → Prop} {p : Prog I α} {s t : σ} {a : α}
    (hp : Safe step G Q p s) (h : Returns step p s a t) : Q a t :=
  hp.reaches h

/-- Simulation: a proof against the relation `step'` on `τ` carries over to `step` on `σ` along `R`, when every call that
`step` answers is answered alike by `step'`, in related states. -/
theorem Safe.simulate {step : Step I σ} {step' : Step I τ} {G : σ → I.Call → Prop} {G' : τ → I.Call → Prop}
    {Q' : α → τ → Prop} (R : σ → τ → Prop) (hG : ∀ s t c, R s t → G' t c → G s c)
    (hstep : ∀ s t c r s', R s t → G' t c → step s c r s' → ∃ t', step' t c r t' ∧ R s' t')
    {p : Prog I α} {s : σ} {t : τ} (hR : R s t) (h : Safe step' G' Q' p t) :
    Safe step G (fun a s => ∃ t, R s t ∧ Q' a t) p s := by
  induction p generalizing s t with
  | pure a => exact ⟨t, hR, h⟩
  | call c k ih =>
    refine ⟨hG s t c hR h.1, fun r s' hs => ?_⟩
    obtain ⟨t', ht, hR'⟩ := hstep s t c r s' hR h.1 hs
    exact ih r hR' (h.2 r t' ht)

/-! ## Traces -/

/-- A call with its answer. -/
abbrev Event (I : Interface) := Σ c : I.Call, I.Answer c

/-- The calls a program has issued, with their answers, the latest first. -/
abbrev Trace (I : Interface) := List (Event I)

/-- The relation under which the state is the trace and an answer may be anything. -/
def tracing : Step I (Trace I) := fun tr c r tr' => tr' = ⟨c, r⟩ :: tr

section tracing

variable {G : Trace I → I.Call → Prop} {Q : α → Trace I → Prop} {p q : Prog I α} {tr : Trace I}

theorem safe_tracing_call (c : I.Call) (k : I.Answer c → Prog I α) :
    Safe tracing G Q (.call c k) tr ↔ G tr c ∧ ∀ r, Safe tracing G Q (k r) (⟨c, r⟩ :: tr) :=
  ⟨fun h => ⟨h.1, fun r => h.2 r _ rfl⟩, fun h => ⟨h.1, by rintro r _ rfl; exact h.2 r⟩⟩

theorem safe_tracing_perform {c : I.Call} {Q : I.Answer c → Trace I → Prop} (hG : G tr c) (hQ : ∀ r, Q r (⟨c, r⟩ :: tr)) :
    Safe tracing G Q (perform c) tr :=
  ⟨hG, by rintro r _ rfl; exact hQ r⟩

/-- Frame: an assertion about the trace that every permitted call keeps holds at every call and at the end. -/
theorem Safe.frame (A : Trace I → Prop) (hA : ∀ tr c r, G tr c → A tr → A (⟨c, r⟩ :: tr)) (h : Safe tracing G Q p tr)
    (htr : A tr) : Safe tracing (fun tr c => G tr c ∧ A tr) (fun a tr => Q a tr ∧ A tr) p tr := by
  induction p generalizing tr with
  | pure a => exact ⟨h, htr⟩
  | call c k ih =>
    rw [safe_tracing_call] at h ⊢
    exact ⟨⟨h.1, htr⟩, fun r => ih r (h.2 r) (hA tr c r h.1 htr)⟩

/-- A proof about traces carries over to executions under any relation: an invariant of the state and the trace that every
permitted call keeps holds in every state reached, with the rest of the program still safe. -/
theorem Safe.follow {step : Step I σ} (Inv : σ → Trace I → Prop)
    (hstep : ∀ s tr c r s', Inv s tr → G tr c → step s c r s' → Inv s' (⟨c, r⟩ :: tr)) {s t : σ}
    (hreach : Reaches step p s q t) (h : Safe tracing G Q p tr) (hinv : Inv s tr) :
    ∃ tr', Inv t tr' ∧ Safe tracing G Q q tr' := by
  induction hreach generalizing tr with
  | refl => exact ⟨tr, hinv, h⟩
  | call hs _ ih =>
    rw [safe_tracing_call] at h
    exact ih (h.2 _) (hstep _ _ _ _ _ hinv h.1 hs)

/-- The calls permitted along the traces are all a program may ever issue. -/
theorem Only.of_safe {P : I.Call → Prop} (h : Safe tracing G Q p tr) (hG : ∀ tr c, G tr c → P c) : Only P p := by
  induction p generalizing tr with
  | pure a => trivial
  | call c k ih =>
    rw [safe_tracing_call] at h
    exact ⟨hG tr c h.1, fun r => ih r (h.2 r)⟩

end tracing

/-! ## Running against a function -/

/-- Run the program against an interface that answers every call by a function of the state. -/
def run (exec : σ → (c : I.Call) → I.Answer c × σ) : Prog I α → σ → α × σ
  | .pure a, s => (a, s)
  | .call c k, s => run exec (k (exec s c).1) (exec s c).2

@[simp] theorem run_pure (exec : σ → (c : I.Call) → I.Answer c × σ) (a : α) (s : σ) :
    run exec (Pure.pure a : Prog I α) s = (a, s) := rfl

@[simp] theorem run_call (exec : σ → (c : I.Call) → I.Answer c × σ) (c : I.Call) (k : I.Answer c → Prog I α) (s : σ) :
    run exec (.call c k) s = run exec (k (exec s c).1) (exec s c).2 := rfl

@[simp] theorem run_bind (exec : σ → (c : I.Call) → I.Answer c × σ) (p : Prog I α) (f : α → Prog I β) (s : σ) :
    run exec (p >>= f) s = run exec (f (run exec p s).1) (run exec p s).2 := by
  induction p generalizing s with
  | pure a => rfl
  | call c k ih => exact ih _ _

/-- The relation of an interface that answers by a function of the state. -/
def answering (exec : σ → (c : I.Call) → I.Answer c × σ) : Step I σ := fun s c r t => exec s c = (r, t)

/-- The calls of a run, in order. -/
def calls (exec : σ → (c : I.Call) → I.Answer c × σ) : Prog I α → σ → List I.Call
  | .pure _, _ => []
  | .call c k, s => c :: calls exec (k (exec s c).1) (exec s c).2

/-- The calls of a run are issued. -/
theorem issues_of_mem_calls {exec : σ → (c : I.Call) → I.Answer c × σ} {p : Prog I α} {s : σ} {c : I.Call}
    (h : c ∈ calls exec p s) : ∃ t, Issues (answering exec) p s c t := by
  induction p generalizing s with
  | pure a => cases h
  | call c' k ih =>
    rcases List.mem_cons.1 h with rfl | h
    · exact ⟨s, k, .refl _ _⟩
    · obtain ⟨t, k', hk⟩ := ih _ h
      exact ⟨t, k', .call rfl hk⟩

section run

variable {exec : σ → (c : I.Call) → I.Answer c × σ} {s : σ} {p : Prog I α}

@[simp] theorem calls_pure (a : α) : calls exec (Pure.pure a : Prog I α) s = [] := rfl

theorem calls_bind (f : α → Prog I β) :
    calls exec (p >>= f) s = calls exec p s ++ calls exec (f (run exec p s).1) (run exec p s).2 := by
  induction p generalizing s with
  | pure a => rfl
  | call c k ih => exact congrArg (List.cons c) (ih (exec s c).1)

theorem Only.mem_calls {P : I.Call → Prop} {c : I.Call} (hp : Only P p) (h : c ∈ calls exec p s) : P c :=
  (issues_of_mem_calls h).elim fun _ => hp.issues

/-- A run is the execution under its relation. -/
theorem safe_answering (p : Prog I α) (s : σ) :
    Safe (answering exec) (fun _ _ => True) (fun a t => run exec p s = (a, t)) p s := by
  induction p generalizing s with
  | pure a => rfl
  | call c k ih =>
    refine ⟨trivial, fun r s' hs => (ih r s').post fun a t h => ?_⟩
    have hs : exec s c = (r, s') := hs
    rw [run_call, hs]
    exact h

theorem Safe.run {G : σ → I.Call → Prop} {Q : α → σ → Prop} (h : Safe (answering exec) G Q p s) :
    Q (Prog.run exec p s).1 (Prog.run exec p s).2 := by
  induction p generalizing s with
  | pure a => exact h
  | call c k ih => exact ih _ (h.2 _ _ rfl)

variable {G : Trace I → I.Call → Prop} {Q : α → Trace I → Prop} {tr : Trace I}

/-- A call of a run is permitted, after calls that the function has answered. -/
theorem Safe.mem_calls {c : I.Call} (h : Safe tracing G Q p tr) (htr : ∀ e ∈ tr, ∃ u, (exec u e.1).1 = e.2)
    (hc : c ∈ calls exec p s) : ∃ tr', (∀ e ∈ tr', ∃ u, (exec u e.1).1 = e.2) ∧ G tr' c := by
  induction p generalizing s tr with
  | pure a => cases hc
  | call c' k ih =>
    rw [safe_tracing_call] at h
    rcases List.mem_cons.1 hc with rfl | hc
    · exact ⟨tr, htr, h.1⟩
    · refine ih _ (h.2 (exec s c').1) (fun e he => ?_) hc
      rcases List.mem_cons.1 he with rfl | he
      · exact ⟨s, rfl⟩
      · exact htr e he

end run

end Prog
