import Mathlib.Data.List.Chain
import YanetOperator.Controller.Throttle

/-!
# The update window separates nodes

Which sequences of calls the throttle keeps one window apart. The instant at which the window ends is let through by the
computed rest of the window, and is not recorded: the call after it meets the throttle as it was before.
-/

namespace YanetOperator

/-- Two calls for different nodes are a window apart. -/
def Apart (updateWindow : Int) (a b : UpdateCall) : Prop := a.host ≠ b.host → updateWindow ≤ b.time - a.time

/-- The window separates nodes: consecutive calls that were let through are apart, and a call that is held back waits for a part
of the window. -/
def Separated (updateWindow : Int) (answers : List (UpdateCall × Int)) : Prop :=
  (granted answers).IsChain (Apart updateWindow) ∧ ∀ a ∈ answers, a.2 ≠ 0 → 0 < a.2 ∧ a.2 ≤ updateWindow

/-- A call whose node is not the recorded one comes after the recorded update; and when it comes just as the window ends, the next
call is for the same node or a window later. -/
def Clear (updateWindow : Int) (st : Throttle) (c : UpdateCall) (next : Option UpdateCall) : Prop :=
  c.host ≠ st.lastUpdateHost → st.lastUpdateTS ≤ c.time ∧
    (c.time = st.lastUpdateTS + updateWindow → ∀ c' ∈ next, Apart updateWindow c c')

/-- Every call of a sequence is clear in the state of the throttle it meets. -/
def AllClear (updateWindow : Int) : Throttle → List UpdateCall → Prop
  | _, [] => True
  | st, c :: cs => Clear updateWindow st c cs.head? ∧ AllClear updateWindow (checkUpdateRequeue st updateWindow c.host c.time).2 cs

instance (updateWindow : Int) (a b : UpdateCall) : Decidable (Apart updateWindow a b) := inferInstanceAs (Decidable (_ → _))

instance (updateWindow : Int) (st : Throttle) (c : UpdateCall) (next : Option UpdateCall) :
    Decidable (Clear updateWindow st c next) := inferInstanceAs (Decidable (_ → _))

instance AllClear.decidable (updateWindow : Int) : (st : Throttle) → (cs : List UpdateCall) →
    Decidable (AllClear updateWindow st cs)
  | _, [] => isTrue trivial
  | st, c :: cs =>
    have := AllClear.decidable updateWindow (checkUpdateRequeue st updateWindow c.host c.time).2 cs
    inferInstanceAs (Decidable (Clear updateWindow st c cs.head? ∧ _))

section
variable {updateWindow : Int} {st : Throttle} {c : UpdateCall}

@[simp] theorem granted_cons_zero {answers : List (UpdateCall × Int)} : granted ((c, 0) :: answers) = c :: granted answers := by
  simp [granted]

@[simp] theorem granted_cons_refused {answers : List (UpdateCall × Int)} {d : Int} (hd : d ≠ 0) :
    granted ((c, d) :: answers) = granted answers := by
  simp [granted, hd]

theorem separated_cons_zero {answers : List (UpdateCall × Int)} :
    Separated updateWindow ((c, 0) :: answers) ↔
      (∀ c' ∈ (granted answers).head?, Apart updateWindow c c') ∧ Separated updateWindow answers := by
  simp [Separated, List.isChain_cons, and_assoc]

theorem separated_cons_refused {answers : List (UpdateCall × Int)} {d : Int} (hd : d ≠ 0) :
    Separated updateWindow ((c, d) :: answers) ↔ (0 < d ∧ d ≤ updateWindow) ∧ Separated updateWindow answers := by
  simp [Separated, hd, and_left_comm]

/-! ## One call -/

/-- The rest of the window is zero just at its end, and within the window just when the recorded update is not in the future. -/
theorem durationSub_timeSub (now last : Int) (hpos : 0 < updateWindow) (hmax : updateWindow < 2 ^ 63)
    (hopen : now ≤ last + updateWindow) :
    (durationSub updateWindow (timeSub now last) = 0 ↔ now = last + updateWindow) ∧
      (now < last + updateWindow → (0 < durationSub updateWindow (timeSub now last) ∧
        durationSub updateWindow (timeSub now last) ≤ updateWindow ↔ last ≤ now)) := by
  have h : durationSub updateWindow (timeSub now last) = Int.bmod (updateWindow - timeSub now last) (2 ^ 64) := rfl
  rw [h, Int.bmod_def, timeSub]
  omega

/-- What a call can do: record itself, be held back, or pass unrecorded as the window ends. -/
theorem checkUpdateRequeue_cases (hpos : 0 < updateWindow) (hmax : updateWindow < 2 ^ 63) (st : Throttle) (c : UpdateCall) :
    (checkUpdateRequeue st updateWindow c.host c.time = (0, ⟨c.time, c.host⟩) ∧
        (c.host ≠ st.lastUpdateHost → st.lastUpdateTS + updateWindow < c.time)) ∨
      (c.host ≠ st.lastUpdateHost ∧ c.time < st.lastUpdateTS + updateWindow ∧
        ∃ d ≠ 0, checkUpdateRequeue st updateWindow c.host c.time = (d, st) ∧
          (0 < d ∧ d ≤ updateWindow ↔ st.lastUpdateTS ≤ c.time)) ∨
      (c.host ≠ st.lastUpdateHost ∧ c.time = st.lastUpdateTS + updateWindow ∧
        checkUpdateRequeue st updateWindow c.host c.time = (0, st)) := by
  have hzero : updateWindow ≠ 0 := by omega
  unfold checkUpdateRequeue
  rw [if_neg hzero]
  by_cases hhost : c.host = st.lastUpdateHost
  · left
    simp [hhost]
  · rcases Int.lt_trichotomy c.time (st.lastUpdateTS + updateWindow) with hlt | heq | hgt
    · right; left
      have hopen : ¬st.lastUpdateTS + updateWindow < c.time := by omega
      obtain ⟨hnonzero, hbound⟩ := durationSub_timeSub c.time st.lastUpdateTS hpos hmax (by omega)
      refine ⟨hhost, hlt, durationSub updateWindow (timeSub c.time st.lastUpdateTS), ?_, by simp [hhost, hopen], hbound hlt⟩
      exact fun h0 => absurd (hnonzero.1 h0) (by omega)
    · right; right
      have hopen : ¬st.lastUpdateTS + updateWindow < c.time := by omega
      have hrest := (durationSub_timeSub c.time st.lastUpdateTS hpos hmax (by omega)).1.2 heq
      exact ⟨hhost, heq, by simp [hhost, hopen, hrest]⟩
    · left
      exact ⟨by simp [hgt], fun _ => hgt⟩

/-! ## The calls after it -/

/-- The first call let through after a recorded one is apart from it. -/
theorem apart_of_recorded {cs : List UpdateCall} (hpos : 0 < updateWindow) (hmax : updateWindow < 2 ^ 63) :
    ∀ c' ∈ (granted (updateRequeues updateWindow ⟨c.time, c.host⟩ cs)).head?, Apart updateWindow c c' := by
  induction cs with
  | nil => exact fun _ h => absurd h (Option.not_mem_none _)
  | cons first rest ih =>
    rcases checkUpdateRequeue_cases hpos hmax ⟨c.time, c.host⟩ first with
      ⟨hcall, hlate⟩ | ⟨-, -, d, hd, hcall, -⟩ | ⟨-, hend, hcall⟩
    · simp only [updateRequeues, hcall, granted_cons_zero, List.head?_cons, Option.mem_some_iff, forall_eq', Apart]
      intro hne
      have hlater : c.time + updateWindow < first.time := hlate (Ne.symm hne)
      omega
    · rw [updateRequeues, hcall, granted_cons_refused hd]
      exact ih
    · simp only [updateRequeues, hcall, granted_cons_zero, List.head?_cons, Option.mem_some_iff, forall_eq', Apart]
      intro _
      have hend : first.time = c.time + updateWindow := hend
      omega

/-- As the window ends every call is let through, so the next call is the next one let through. -/
theorem granted_at_end (st : Throttle) {cs : List UpdateCall} (hpos : 0 < updateWindow) (hmax : updateWindow < 2 ^ 63)
    (hlate : ∀ c' ∈ cs, st.lastUpdateTS + updateWindow ≤ c'.time) :
    (granted (updateRequeues updateWindow st cs)).head? = cs.head? := by
  cases cs with
  | nil => rfl
  | cons first rest =>
    have hfirst := hlate first List.mem_cons_self
    rcases checkUpdateRequeue_cases hpos hmax st first with ⟨hcall, -⟩ | ⟨-, hearly, -⟩ | ⟨-, -, hcall⟩
    · simp [updateRequeues, hcall]
    · omega
    · simp [updateRequeues, hcall]

end

/-! ## A sequence of calls -/

/-- The nodes are separated by a window exactly when every call of the sequence is clear. -/
theorem updateWindow_separated_iff {updateWindow : Int} (hpos : 0 < updateWindow) (hmax : updateWindow < 2 ^ 63) (st : Throttle)
    (calls : List UpdateCall) (hclock : calls.Pairwise fun a b => a.time ≤ b.time) :
    Separated updateWindow (updateRequeues updateWindow st calls) ↔ AllClear updateWindow st calls := by
  induction calls generalizing st with
  | nil => simp [Separated, AllClear, updateRequeues, granted]
  | cons c cs ih =>
    obtain ⟨hnow, hrest⟩ := List.pairwise_cons.1 hclock
    rcases checkUpdateRequeue_cases hpos hmax st c with
      ⟨hcall, hlate⟩ | ⟨hhost, hopen, d, hd, hcall, hbound⟩ | ⟨hhost, hend, hcall⟩
    all_goals rw [AllClear, updateRequeues, hcall]; dsimp only
    · -- recorded: the next call let through is for the same node or a window later
      have hclear : Clear updateWindow st c cs.head? := fun hne => by
        have hlater := hlate hne
        exact ⟨by omega, fun hend => by omega⟩
      rw [separated_cons_zero, ih _ hrest]
      exact and_congr_left' (iff_of_true (apart_of_recorded hpos hmax) hclear)
    · -- held back: only the wait depends on the call
      rw [separated_cons_refused hd, ih _ hrest, hbound]
      refine and_congr_left' ⟨fun hpast _ => ⟨hpast, fun hend => by omega⟩, fun hclear => (hclear hhost).1⟩
    · -- let through as the window ends: the next call is let through too
      have hnext := granted_at_end st hpos hmax fun c' hc' => hend ▸ hnow c' hc'
      rw [separated_cons_zero, ih _ hrest, hnext]
      refine and_congr_left' ⟨fun hapart _ => ⟨by omega, fun _ => hapart⟩, fun hclear => (hclear hhost).2 hend⟩

/-- Three nodes updated a window apart. -/
theorem threeNodes_separated :
    Separated 60 (updateRequeues 60 ⟨0, "node-a"⟩ [⟨"node-b", 61⟩, ⟨"node-c", 100⟩, ⟨"node-c", 122⟩]) :=
  (updateWindow_separated_iff (by decide) (by decide) ⟨0, "node-a"⟩ _ (by decide)).2 (by decide)

/-- Two nodes are let through at the instant at which the window of a third ends. -/
theorem twoNodes_at_end_not_separated :
    granted (updateRequeues 60 ⟨0, "node-a"⟩ [⟨"node-b", 60⟩, ⟨"node-c", 60⟩]) = [⟨"node-b", 60⟩, ⟨"node-c", 60⟩] ∧
      ¬Separated 60 (updateRequeues 60 ⟨0, "node-a"⟩ [⟨"node-b", 60⟩, ⟨"node-c", 60⟩]) := by
  refine ⟨by decide, fun h => ?_⟩
  have hchain : [⟨"node-b", 60⟩, ⟨"node-c", 60⟩].IsChain (Apart 60) := h.1
  exact absurd (List.isChain_pair.1 hchain (by decide)) (by decide)

end YanetOperator
