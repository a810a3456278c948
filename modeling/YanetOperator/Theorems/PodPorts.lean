import Mathlib.Data.List.Pairwise
import YanetOperator.Lemmas.PodChecks

/-!
# Ports of containers that run at the same time

`validateConcurrentPodPorts` keeps two maps of ports in use. Here each map is the ports of a list of containers, and the loops
check every pair of containers that can overlap exactly once.
-/

namespace YanetOperator

open Check

/-! ## Overlap -/

/-- An init container that keeps running. -/
def Container.isRestartable (c : Container) : Prop := c.restartPolicy = some restartAlways

instance (c : Container) : Decidable c.isRestartable := inferInstanceAs (Decidable (_ = _))

/-- Two containers declare one port number with one protocol. -/
def Clash (c c' : Container) : Prop := ∃ p ∈ c.ports, ∃ p' ∈ c'.ports, portKey p = portKey p'

theorem Clash.symm {c c' : Container} : Clash c c' → Clash c' c := by
  rintro ⟨p, hp, p', hp', heq⟩
  exact ⟨p', hp', p, hp, heq.symm⟩

/-! ## The maps of ports in use -/

/-- The ports in use are those of the given containers. -/
def Occupied.HoldsPorts (occupied : Occupied) (cs : List Container) : Prop :=
  ∀ e, e ∈ occupied ↔ ∃ c ∈ cs, ∃ p ∈ c.ports, e = (portKey p, c.name)

theorem holdsPorts_nil : Occupied.HoldsPorts [] [] := by
  intro e
  simp

theorem Occupied.HoldsPorts.reserve {occupied : Occupied} {cs : List Container} (h : occupied.HoldsPorts cs) (c : Container) :
    Occupied.HoldsPorts (reservePorts occupied c) (cs ++ [c]) := by
  intro e
  rw [reservePorts, List.mem_append, List.mem_reverse, List.mem_map, h e]
  constructor
  · rintro (⟨p, hp, rfl⟩ | ⟨c', hc', hp⟩)
    · exact ⟨c, by simp, p, hp, rfl⟩
    · exact ⟨c', by simp [hc'], hp⟩
  · rintro ⟨c', hc', p, hp, rfl⟩
    rcases List.mem_append.1 hc' with hc' | hc'
    · exact Or.inr ⟨c', hc', p, hp, rfl⟩
    · rw [List.mem_singleton.1 hc'] at hp ⊢
      exact Or.inl ⟨p, hp, rfl⟩

/-- A container whose name is not in use passes exactly when it clashes with no container that holds ports. -/
theorem Occupied.HoldsPorts.check {occupied : Occupied} {cs : List Container} (h : occupied.HoldsPorts cs) {c : Container}
    (hname : c.name ∉ cs.map (·.name)) : checkOccupied occupied c = .ok () ↔ ∀ c' ∈ cs, ¬Clash c' c := by
  rw [checkOccupied, forM_ok]
  constructor
  · rintro hok c' hc' ⟨p', hp', p, hp, heq⟩
    have hused : (portKey p, c'.name) ∈ occupied := (h _).2 ⟨c', hc', p', hp', by rw [heq]⟩
    have hport := hok p hp
    cases hf : occupied.find? (·.1 == portKey p) with
    | none => exact absurd (List.find?_eq_none.1 hf _ hused) (by simp)
    | some e =>
      obtain ⟨owner, howner, q, -, rfl⟩ := (h e).1 (List.mem_of_find?_eq_some hf)
      rw [hf] at hport
      have hsame : owner.name = c.name := by simpa using refuse_ok.1 hport
      exact hname (hsame ▸ List.mem_map_of_mem howner)
  · intro hfree p hp
    cases hf : occupied.find? (·.1 == portKey p) with
    | none => rfl
    | some e =>
      obtain ⟨owner, howner, q, hq, rfl⟩ := (h e).1 (List.mem_of_find?_eq_some hf)
      have heq : portKey q = portKey p := by simpa using List.find?_some hf
      exact absurd ⟨q, hq, p, hp, heq⟩ (hfree owner howner)

/-! ## The loops -/

theorem checkRegularPorts_holds {occupied occupied' : Occupied} {done cs : List Container} (h : occupied.HoldsPorts done)
    (hok : checkRegularPorts occupied cs = .ok occupied') : occupied'.HoldsPorts (done ++ cs) := by
  induction cs generalizing occupied done with
  | nil =>
    cases hok
    simpa using h
  | cons c cs ih =>
    obtain ⟨-, hok⟩ := seq_ok.1 hok
    simpa using ih (h.reserve c) hok

/-- The loop over the regular containers passes exactly when no two of them clash. -/
theorem checkRegularPorts_iff {occupied : Occupied} {done cs : List Container} (h : occupied.HoldsPorts done)
    (hnames : ((done ++ cs).map (·.name)).Nodup) :
    (∃ occupied', checkRegularPorts occupied cs = .ok occupied') ↔
      (∀ c ∈ cs, ∀ c' ∈ done, ¬Clash c' c) ∧ cs.Pairwise fun c c' => ¬Clash c c' := by
  induction cs generalizing occupied done with
  | nil => simp [checkRegularPorts]
  | cons c cs ih =>
    have hname : c.name ∉ done.map (·.name) := by
      rw [List.map_append, List.nodup_append] at hnames
      exact fun hmem => hnames.2.2 _ hmem _ (by simp) rfl
    have hrest : (∃ occupied', checkRegularPorts occupied (c :: cs) = .ok occupied') ↔
        checkOccupied occupied c = .ok () ∧ ∃ occupied', checkRegularPorts (reservePorts occupied c) cs = .ok occupied' := by
      simp only [checkRegularPorts, seq_ok, exists_and_left]
    rw [hrest, h.check hname, ih (h.reserve c) (by simpa using hnames), List.pairwise_cons]
    simp only [List.forall_mem_append, List.forall_mem_singleton, List.forall_mem_cons, forall_and]
    tauto

/-- The loop over the init containers: a restartable one clashes with nothing that runs on, a one-shot one with no restartable one
before it. -/
theorem checkInitPorts_iff {persistent sidecars : Occupied} {running before cs : List Container}
    (hp : persistent.HoldsPorts running) (hs : sidecars.HoldsPorts before) (hsub : ∀ c ∈ before, c ∈ running)
    (hnames : ((running ++ cs).map (·.name)).Nodup) :
    checkInitPorts persistent sidecars cs = .ok () ↔
      (∀ c ∈ cs, c.isRestartable → ∀ c' ∈ running, ¬Clash c' c) ∧
        (∀ c ∈ cs, ¬c.isRestartable → ∀ c' ∈ before, ¬Clash c' c) ∧
        cs.Pairwise fun c c' => c.isRestartable → ¬Clash c c' := by
  induction cs generalizing persistent sidecars running before with
  | nil => simp [checkInitPorts]
  | cons c cs ih =>
    have hname : c.name ∉ running.map (·.name) := by
      rw [List.map_append, List.nodup_append] at hnames
      exact fun hmem => hnames.2.2 _ hmem _ (by simp) rfl
    have hname' : c.name ∉ before.map (·.name) := by
      intro hmem
      obtain ⟨c', hc', heq⟩ := List.mem_map.1 hmem
      exact hname (List.mem_map.2 ⟨c', hsub c' hc', heq⟩)
    rw [checkInitPorts, List.pairwise_cons]
    by_cases hr : c.restartPolicy = some restartAlways
    · have hr' : c.isRestartable := hr
      have hsub' : ∀ x ∈ before ++ [c], x ∈ running ++ [c] := by
        intro x hx
        rcases List.mem_append.1 hx with hx | hx
        · exact List.mem_append_left _ (hsub x hx)
        · exact List.mem_append_right _ hx
      rw [if_pos hr, seq_ok, hp.check hname, ih (hp.reserve c) (hs.reserve c) hsub' (by simpa using hnames)]
      simp only [List.forall_mem_append, List.forall_mem_singleton, List.forall_mem_cons, imp_and, forall_and, hr',
        true_imp_iff, not_true_eq_false, false_imp_iff, true_and]
      constructor
      · rintro ⟨hc, ⟨hrun, hlate⟩, ⟨hbefore, hshot⟩, hpair⟩
        refine ⟨⟨hc, hrun⟩, hbefore, fun x hx => ?_, hpair⟩
        by_cases hx' : x.isRestartable
        · exact hlate x hx hx'
        · exact hshot x hx hx'
      · rintro ⟨⟨hc, hrun⟩, hbefore, hlate, hpair⟩
        exact ⟨hc, ⟨hrun, fun x hx _ => hlate x hx⟩, ⟨hbefore, fun x hx _ => hlate x hx⟩, hpair⟩
    · have hr' : ¬c.isRestartable := hr
      have hnames' : ((running ++ cs).map (·.name)).Nodup := by
        refine hnames.sublist (List.Sublist.map _ ?_)
        exact (List.sublist_cons_self c cs).append_left running
      rw [if_neg hr, seq_ok, hs.check hname', ih hp hs hsub hnames']
      simp only [List.mem_cons, forall_eq_or_imp, hr', false_imp_iff, true_and, not_false_eq_true, true_imp_iff, implies_true]
      tauto

/-! ## The Pod -/

/-- The check of a Pod as its loops make it: the regular containers, each restartable init container against them, and each
restartable init container against those listed after it. -/
theorem validateConcurrentPodPorts_iff {pod : PodSpec} (hnames : (pod.allContainers.map (·.name)).Nodup) :
    validateConcurrentPodPorts pod = .ok () ↔
      (pod.containers.Pairwise fun c c' => ¬Clash c c') ∧
        (∀ c ∈ pod.initContainers, c.isRestartable → ∀ c' ∈ pod.containers, ¬Clash c' c) ∧
        pod.initContainers.Pairwise fun c c' => c.isRestartable → ¬Clash c c' := by
  have hregularNames : (([] ++ pod.containers : List Container).map (·.name)).Nodup := by
    rw [PodSpec.allContainers, List.map_append, List.nodup_append] at hnames
    exact hnames.1
  have hregular := checkRegularPorts_iff holdsPorts_nil hregularNames
  have hinit (persistent : Occupied) (hp : persistent.HoldsPorts pod.containers) :=
    checkInitPorts_iff hp holdsPorts_nil (by simp) hnames
  simp only [List.not_mem_nil, false_imp_iff, implies_true, true_and] at hregular hinit
  rw [← hregular, validateConcurrentPodPorts, bind_eq_ok]
  constructor
  · rintro ⟨persistent, hok, hrest⟩
    exact ⟨⟨persistent, hok⟩, (hinit persistent (checkRegularPorts_holds holdsPorts_nil hok)).1 hrest⟩
  · rintro ⟨⟨persistent, hok⟩, hrest⟩
    exact ⟨persistent, hok, (hinit persistent (checkRegularPorts_holds holdsPorts_nil hok)).2 hrest⟩

end YanetOperator
