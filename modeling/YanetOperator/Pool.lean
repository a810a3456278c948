import YanetOperator.Prog

/-!
# Programs that run side by side

Two interfaces make one, whose programs issue the calls of both. A pool is a shared state and any number of threads, each with the
program it still has to run and the calls it has issued. In one step somebody outside changes the state, a thread starts, or one
thread issues its next call; so a run of the pool is any interleaving of the calls of its threads.

A proof about the traces of a program carries over to its threads, whatever the others do (`Pool.safe`).
-/

/-- The interface with the calls of both. -/
def Interface.sum (I J : Interface) : Interface where
  Call := I.Call ⊕ J.Call
  Answer
    | .inl c => I.Answer c
    | .inr c => J.Answer c

namespace Prog

variable {I J : Interface} {α : Type}

/-- A program of the first interface as one of both. -/
def inl : Prog I α → Prog (I.sum J) α
  | .pure a => .pure a
  | .call c k => .call (I := I.sum J) (.inl c) fun r => (k r).inl

/-- A program of the second interface as one of both. -/
def inr : Prog J α → Prog (I.sum J) α
  | .pure a => .pure a
  | .call c k => .call (I := I.sum J) (.inr c) fun r => (k r).inr

/-- A call of the second interface as one of both. -/
def Event.inr (e : Event J) : Event (I.sum J) := ⟨.inr e.1, e.2⟩

/-- A proof about the traces of a program of the second interface, after calls of both. -/
theorem Safe.inr {G : Trace J → J.Call → Prop} {G' : Trace (I.sum J) → (I.sum J).Call → Prop} {Q : α → Trace J → Prop}
    {p : Prog J α} {tr : Trace J} {earlier : Trace (I.sum J)} (h : Safe tracing G Q p tr)
    (hG : ∀ tr c, G tr c → G' (tr.map Event.inr ++ earlier) (.inr c)) :
    Safe tracing G' (fun a t => ∃ tr, t = tr.map Event.inr ++ earlier ∧ Q a tr) (p.inr : Prog (I.sum J) α)
      (tr.map Event.inr ++ earlier) := by
  induction p generalizing tr with
  | pure a => exact ⟨tr, rfl, h⟩
  | call c k ih =>
    rw [safe_tracing_call] at h
    exact (safe_tracing_call _ _).2 ⟨hG tr c h.1, fun r => ih r (h.2 r)⟩

end Prog

open Prog

/-- A thread: what it has left to run, and the calls it has issued. -/
structure Thread (I : Interface) where
  rest : Prog I Unit
  trace : Trace I := []

/-- A shared state and the threads over it. -/
structure Pool (I : Interface) (σ : Type) where
  state : σ
  threads : List (Thread I) := []

namespace Pool

variable {I : Interface} {σ : Type}

/-- The thread with the number has issued a call. -/
def advance (P : Pool I σ) (i : Nat) (s : σ) (t : Thread I) : Pool I σ := { state := s, threads := P.threads.set i t }

/-- One step of a pool: `starts` are the programs a thread may start with, `env` what happens outside, and `call` what a call of a
thread may do. -/
inductive Step (starts : Prog I Unit → Prop) (env : σ → σ → Prop) (call : Nat → Prog.Step I σ) : Pool I σ → Pool I σ → Prop where
  | outside {P : Pool I σ} {s : σ} (h : env P.state s) : Step starts env call P { P with state := s }
  | start {P : Pool I σ} {p : Prog I Unit} (h : starts p) : Step starts env call P { P with threads := P.threads ++ [{ rest := p }] }
  | call {P : Pool I σ} {i : Nat} {c : I.Call} {k : I.Answer c → Prog I Unit} {tr : Trace I} {r : I.Answer c} {s : σ}
      (thread : P.threads[i]? = some ⟨.call c k, tr⟩) (h : call i P.state c r s) :
      Step starts env call P (P.advance i s ⟨k r, ⟨c, r⟩ :: tr⟩)

variable {starts : Prog I Unit → Prop} {env : σ → σ → Prop} {call : Nat → Prog.Step I σ} {P P' : Pool I σ}

/-- The threads after one has issued a call. -/
theorem getElem?_advance {i j : Nat} {s : σ} {t t' : Thread I} (h : (P.advance i s t).threads[j]? = some t') :
    (j = i ∧ t' = t) ∨ (j ≠ i ∧ P.threads[j]? = some t') := by
  rw [advance, List.getElem?_set] at h
  split at h
  · next hij =>
    split at h
    · cases h
      exact Or.inl ⟨hij.symm, rfl⟩
    · cases h
  · next hij => exact Or.inr ⟨fun e => hij e.symm, h⟩

theorem getElem?_advance_self {i : Nat} {s : σ} {t t' : Thread I} (h : P.threads[i]? = some t') :
    (P.advance i s t).threads[i]? = some t := by
  rw [advance, List.getElem?_set_self (List.getElem?_eq_some_iff.1 h).1]

theorem getElem?_advance_ne {i j : Nat} {s : σ} {t : Thread I} (h : j ≠ i) : (P.advance i s t).threads[j]? = P.threads[j]? := by
  rw [advance, List.getElem?_set_ne h.symm]

/-- The threads after one more has started. -/
theorem getElem?_start {p : Prog I Unit} {j : Nat} {t : Thread I} (h : (P.threads ++ [{ rest := p }])[j]? = some t) :
    P.threads[j]? = some t ∨ (P.threads[j]? = none ∧ t = { rest := p }) := by
  rcases Nat.lt_trichotomy j P.threads.length with hj | hj | hj
  · rw [List.getElem?_append_left hj] at h
    exact Or.inl h
  · rw [hj, List.getElem?_concat_length] at h
    cases h
    exact Or.inr ⟨List.getElem?_eq_none (Nat.le_of_eq hj.symm), rfl⟩
  · rw [List.getElem?_eq_none (by simp; omega)] at h
    cases h

/-- What the traces of the programs permit holds of every thread. -/
def Safe (G : Trace I → I.Call → Prop) (P : Pool I σ) : Prop :=
  ∀ t ∈ P.threads, Prog.Safe tracing G (fun _ _ => True) t.rest t.trace

theorem Step.safe {G : Trace I → I.Call → Prop} (hstarts : ∀ p, starts p → Prog.Safe tracing G (fun _ _ => True) p [])
    (h : Step starts env call P P') (hP : P.Safe G) : P'.Safe G := by
  cases h with
  | outside h => exact hP
  | start h =>
    intro t ht
    rcases List.mem_append.1 ht with ht | ht
    · exact hP t ht
    · cases List.mem_singleton.1 ht
      exact hstarts _ h
  | @call i c k tr r s thread h =>
    intro t ht
    rcases List.mem_or_eq_of_mem_set ht with ht | rfl
    · exact hP t ht
    · have hcall := hP _ (List.mem_of_getElem? thread)
      exact ((safe_tracing_call _ _).1 hcall).2 r

/-! ## Runs -/

/-- Some run leads to a pool with the property. -/
def Leads (step : Pool I σ → Pool I σ → Prop) (P : Pool I σ) (Q : Pool I σ → Prop) : Prop :=
  ∃ P', Relation.ReflTransGen step P P' ∧ Q P'

theorem Leads.now {step : Pool I σ → Pool I σ → Prop} {Q : Pool I σ → Prop} (h : Q P) : Leads step P Q := ⟨P, .refl, h⟩

theorem Leads.step {step : Pool I σ → Pool I σ → Prop} {Q : Pool I σ → Prop} (h : step P P') (h' : Leads step P' Q) :
    Leads step P Q := by
  obtain ⟨P'', hrun, hQ⟩ := h'
  exact ⟨P'', .head h hrun, hQ⟩

end Pool
