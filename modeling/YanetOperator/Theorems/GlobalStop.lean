import YanetOperator.Lemmas.Running

/-!
# The global stop, and the snapshot that carries it

Reconciles and mappers run side by side, and the YanetConfig changes under them. Publications of the snapshot never go back to an older
version (`published_in_order`), and a refresh that starts after a change catches up with it (`refresh_catches_up`). Once the snapshot
carries the stop, and as long as the persisted object does, a thread issues at most the one write it had already been cleared for
(`stop_freezes_writes`).

A refresh whose read fails publishes an empty configuration, which carries no stop; the last two results are about runs in which no read
of a refresh failed.
-/

namespace YanetOperator

open Prog Relation

/-! ## A run -/

/-- The thread has published. -/
def HasPublished (t : Thread Operator) : Prop := ∃ spec, (⟨.inl (.publish spec), ()⟩ : Event Operator) ∈ t.trace

/-- The calls a thread had issued. -/
def issuedBy (P : Pool Operator Manager) (i : Nat) : Trace Operator := (P.threads[i]?.map (·.trace)).getD []

/-- The singleton gets the stop in its first change. -/
def stoppingVersions : Versions
  | 0 => some {}
  | _ + 1 => some { spec := { stop := true } }

/-- A step of a thread, given by its call and the answer. -/
theorem Running.answer {Γ : Platform} {versions : Versions} {P : Pool Operator Manager} (i : Nat) (c : Operator.Call)
    (r : Operator.Answer c) {k : Operator.Answer c → Prog Operator Unit} {tr : Trace Operator} {m' : Manager}
    (thread : P.threads[i]? = some ⟨.call c k, tr⟩) (h : Manager.Answers versions i P.state c r m') :
    Running Γ versions P (P.advance i m' ⟨k r, ⟨c, r⟩ :: tr⟩) :=
  .call thread h

/-- A run with a stop. The pass of a new installation comes to its first write; then the stop is persisted (the first pool), the mapper
publishes it (the second), and the pass issues its write (the third). -/
theorem stoppingRun (Γ : Platform) : Pool.Leads (Running Γ stoppingVersions) { state := {} } fun ready =>
    ready.state.version = 1 ∧ ready.state.published = [] ∧ ready.threads[1]? = none ∧
      Pool.Leads (Running Γ stoppingVersions) ready fun stopped =>
        stopped.state.published = [⟨1, .ok { spec := { stop := true } }⟩] ∧ stopped.state.holder = none ∧
          stopped.state.snapshot.stop = true ∧ (∃ t, stopped.threads[1]? = some t ∧ HasPublished t) ∧
          Pool.Leads (Running Γ stoppingVersions) stopped fun written =>
            written.state = stopped.state ∧ ∃ t e, written.threads[0]? = some t ∧ t.trace = e :: issuedBy stopped 0 ∧
              writes e.1 = true := by
  refine .step (.start (.yanet { name := "y" })) ?_
  refine .step (Running.answer 0 (.inr (.get .yanet { name := "y" })) (.ok { metadata := { name := "y" } }) rfl
    (.api _ (fun h => by cases h) fun h => by cases h)) ?_
  refine .step (Running.answer 0 (.inr .snapshot) {} rfl (.snapshot rfl)) ?_
  refine .step (Running.answer 0 (.inr (.get .yanetConfig { name := yanetConfigName })) (.ok {}) rfl
    (.api _ (fun h => by cases h) fun h => by cases h)) ?_
  refine .step (Running.answer 0 (.inr .checkStop) false rfl (.checkStop rfl)) ?_
  refine .step (.outside ⟨1, Nat.zero_le 1, rfl⟩) ?_
  refine .now ⟨rfl, rfl, rfl, ?_⟩
  refine .step (.start .mapConfig) ?_
  refine .step (Running.answer 1 (.inl .lock) () rfl (.lock rfl)) ?_
  refine .step (Running.answer 1 (.inl .read) (.ok { spec := { stop := true } }) rfl (.read (.found rfl))) ?_
  refine .step (Running.answer 1 (.inl (.publish { stop := true })) () rfl (.publish rfl)) ?_
  refine .step (Running.answer 1 (.inl .unlock) () rfl .unlock) ?_
  refine .now ⟨rfl, rfl, rfl, ⟨_, rfl, { stop := true }, List.mem_cons_of_mem _ List.mem_cons_self⟩, ?_⟩
  refine .step (Running.answer 0 (.inr (.update .yanet (addFinalizer { metadata := { name := "y" } }))) (.ok ()) rfl
    (.api _ (fun h => by cases h) fun h => by cases h)) ?_
  exact .now ⟨rfl, _, _, rfl, rfl, rfl⟩

section

variable {Γ : Platform} {versions : Versions} {P P' P₁ P₂ : Pool Operator Manager}

/-! ## The order of the publications -/

/-- A step leaves the snapshot, or a thread publishes what it has read. -/
theorem Consistent.publishes (hP : Consistent versions P) (h : Running Γ versions P P') :
    (P'.state.published = P.state.published ∧ P'.state.snapshot = P.state.snapshot) ∨
      ∃ i rest tr p, P.threads[i]? = some ⟨rest, ⟨.inl .read, p.answer⟩ :: tr⟩ ∧ Pending versions P.state i p.answer p.version ∧
        P'.state.published = p :: P.state.published ∧ P'.state.snapshot = publishedSpec p.answer := by
  rcases h.cases hP.safe with ⟨n, -, rfl⟩ | ⟨p, rfl⟩ | ⟨i, c, r, rest, rest', tr, m', thread, hcall, hanswer, rfl⟩
  · exact Or.inl ⟨rfl, rfl⟩
  · exact Or.inl ⟨rfl, rfl⟩
  · cases hcall.acts hanswer with
    | look idle => exact Or.inl ⟨rfl, rfl⟩
    | lock idle free => exact Or.inl ⟨rfl, rfl⟩
    | read _ => exact Or.inl ⟨rfl, rfl⟩
    | unlock => exact Or.inl ⟨rfl, rfl⟩
    | @publish answer p tr hlast =>
      obtain ⟨n, hn⟩ := hP.pending i answer rest tr thread
      cases hlast.symm.trans hn.lastRead
      exact Or.inr ⟨i, rest, tr, ⟨n, answer⟩, thread, hn, rfl, rfl⟩

/-- The publications of a failed read. -/
def failures (m : Manager) : Nat := m.published.countP Publication.failed

theorem Consistent.failures_le (hP : Consistent versions P) (h : Running Γ versions P P') : failures P.state ≤ failures P'.state := by
  unfold failures
  rcases hP.publishes h with ⟨hpub, -⟩ | ⟨i, rest, tr, p, -, -, hpub, -⟩
  · rw [hpub]
  · rw [hpub, List.countP_cons]
    exact Nat.le_add_right _ _

theorem Running.version_le (hP : P.Safe OperatorCall) (h : Running Γ versions P P') : P.state.version ≤ P'.state.version := by
  rcases h.cases hP with ⟨n, hn, rfl⟩ | ⟨p, rfl⟩ | ⟨i, c, r, rest, rest', tr, m', thread, hcall, hanswer, rfl⟩
  · exact hn
  · exact le_rfl
  · cases hanswer <;> exact le_rfl

/-- What the thread has read and not yet published is of the version or a later one. -/
def ReadsSince (versions : Versions) (v i : Nat) (P : Pool Operator Manager) : Prop :=
  ∀ rest answer tr n, P.threads[i]? = some ⟨rest, ⟨.inl .read, answer⟩ :: tr⟩ → Pending versions P.state i answer n → v ≤ n

theorem Consistent.readsSince (hP : Consistent versions P) (h : Running Γ versions P P') {j v : Nat} (hv : v ≤ P.state.version)
    (hread : ReadsSince versions v j P) : ReadsSince versions v j P' := by
  intro rest answer tr n ht hn
  rcases h.cases hP.safe with ⟨n', -, rfl⟩ | ⟨p, rfl⟩ | ⟨i, c, r, rest₀, rest', tr₀, m', thread, hcall, hanswer, rfl⟩
  · obtain ⟨n₀, hn₀⟩ := hP.pending j answer rest tr ht
    cases hn₀.lastRead.symm.trans hn.lastRead
    exact hread rest answer tr n ht hn₀
  · rcases Pool.getElem?_start ht with ht | ⟨-, ht⟩
    · exact hread rest answer tr n ht ⟨hn.lastRead, hn.bound, hn.truthful, hn.latest⟩
    · cases ht
  · rcases Pool.getElem?_advance ht with ⟨rfl, hnow⟩ | ⟨hji, ht⟩
    · -- the thread has read just now
      cases hcall.acts hanswer with
      | read _ =>
        cases hnow
        cases (Function.update_self j _ P.state.lastRead).symm.trans hn.lastRead
        exact hv
      | look idle => cases hnow
      | lock idle free => cases hnow
      | publish _ => cases hnow
      | unlock => cases hnow
    · obtain ⟨n₀, hn₀⟩ := hP.pending j answer rest tr ht
      have hlast : m'.lastRead j = P.state.lastRead j := by
        cases hanswer with
        | read _ => exact Function.update_of_ne hji _ _
        | _ => rfl
      cases (hn₀.lastRead.symm.trans hlast.symm).trans hn.lastRead
      exact hread rest answer tr n ht hn₀

/-! ## Catching up -/

/-- The configuration of a version. -/
def specAt (versions : Versions) (n : Nat) : YanetConfigSpec := ((versions n).map (·.spec)).getD {}

/-- What was read and did not fail is the configuration of its version. -/
theorem Publication.Truthful.spec {p : Publication} (h : p.Truthful versions) (hfailed : p.failed = false) :
    publishedSpec p.answer = specAt versions p.version := by
  cases h with
  | found h => simp [publishedSpec, specAt, h]
  | missing h he => simp [publishedSpec, specAt, h]
  | failure he => simp [Publication.failed, he] at hfailed

/-- What only grows along a run. -/
structure Later (P₁ P : Pool Operator Manager) : Prop where
  version : P₁.state.version ≤ P.state.version
  failures : failures P₁.state ≤ failures P.state
  threads : P₁.threads.length ≤ P.threads.length

theorem Consistent.later (hP : Consistent versions P) (h : Running Γ versions P P') : Later P P' where
  version := h.version_le hP.safe
  failures := hP.failures_le h
  threads := by
    cases h with
    | outside h => exact le_rfl
    | start h => simp
    | call thread h => simp [Pool.advance]

theorem Consistent.run (hP : Consistent versions P₁) (h : ReflTransGen (Running Γ versions) P₁ P) :
    Consistent versions P ∧ Later P₁ P := by
  induction h with
  | refl => exact ⟨hP, le_rfl, le_rfl, le_rfl⟩
  | tail _ hstep ih =>
    have hlater := ih.1.later hstep
    exact ⟨ih.1.step hstep, ih.2.version.trans hlater.version, ih.2.failures.trans hlater.failures,
      ih.2.threads.trans hlater.threads⟩

/-- Since a moment at which the thread had not started: what it reads is of that moment or later, and once it has published, so is the
latest publication. -/
structure CatchesUp (versions : Versions) (P₁ : Pool Operator Manager) (i : Nat) (P : Pool Operator Manager) : Prop where
  reading : ReadsSince versions P₁.state.version i P
  published : ∀ t, P.threads[i]? = some t → HasPublished t →
    ∃ p ps, P.state.published = p :: ps ∧ P₁.state.version ≤ p.version ∧ p.failed = false

/-- A publication that is not of a failed read leaves the number of those. -/
theorem not_failed_of_failures {m : Manager} {p : Publication} {ps : List Publication} (hp : m.published = p :: ps)
    (h : failures m ≤ ps.countP Publication.failed) : p.failed = false := by
  rw [failures, hp, List.countP_cons] at h
  cases hf : p.failed with
  | false => rfl
  | true => simp [hf] at h

theorem CatchesUp.step {i : Nat} (hP : Consistent versions P) (hlater : Later P₁ P) (h : Running Γ versions P P')
    (hfail : failures P'.state = failures P₁.state) (hc : CatchesUp versions P₁ i P) : CatchesUp versions P₁ i P' := by
  refine ⟨hP.readsSince h hlater.version hc.reading, fun t ht hpub => ?_⟩
  rcases h.cases hP.safe with ⟨n, -, rfl⟩ | ⟨p, rfl⟩ | ⟨j, c, r, rest, rest', tr, m', thread, hcall, hanswer, rfl⟩
  · exact hc.published t ht hpub
  · rcases Pool.getElem?_start ht with ht | ⟨-, rfl⟩
    · exact hc.published t ht hpub
    · obtain ⟨spec, hmem⟩ := hpub
      cases hmem
  · have hkept (hm : m'.published = P.state.published) (he : ∀ spec, (⟨c, r⟩ : Event Operator) ≠ ⟨.inl (.publish spec), ()⟩) :
        ∃ p ps, m'.published = p :: ps ∧ P₁.state.version ≤ p.version ∧ p.failed = false := by
      rw [hm]
      rcases Pool.getElem?_advance ht with ⟨rfl, rfl⟩ | ⟨-, ht⟩
      · obtain ⟨spec, hmem⟩ := hpub
        exact hc.published _ thread ⟨spec, (List.mem_cons.1 hmem).resolve_left fun h => he spec h.symm⟩
      · exact hc.published t ht hpub
    cases hcall.acts hanswer with
    | look idle => exact hkept rfl fun spec h => by cases h
    | lock idle free => exact hkept rfl fun spec h => by cases h
    | read _ => exact hkept rfl fun spec h => by cases h
    | unlock => exact hkept rfl fun spec h => by cases h
    | @publish answer p tr hlast =>
      obtain ⟨n, hn⟩ := hP.pending j answer rest tr thread
      cases hlast.symm.trans hn.lastRead
      refine ⟨⟨n, answer⟩, _, rfl, ?_, not_failed_of_failures rfl (hfail.le.trans hlater.failures)⟩
      rcases Pool.getElem?_advance ht with ⟨rfl, -⟩ | ⟨-, ht⟩
      · exact hc.reading rest answer tr n thread hn
      · obtain ⟨p, ps, hps, hversion, -⟩ := hc.published t ht hpub
        exact hversion.trans (hn.latest p (hps ▸ List.mem_cons_self))

/-- A refresh that starts after a change catches up with it, and nothing later falls behind: once a thread that was started later has
published, and as long as no read of a refresh fails, the snapshot is the configuration of a version at least as new. -/
theorem refresh_catches_up {i : Nat} {t : Thread Operator} (hstart : Started Γ versions P₁)
    (hrun : ReflTransGen (Running Γ versions) P₁ P₂) (hread : failures P₂.state = failures P₁.state) (hnew : P₁.threads[i]? = none)
    (ht : P₂.threads[i]? = some t) (hpub : HasPublished t) :
    ∃ n, P₁.state.version ≤ n ∧ n ≤ P₂.state.version ∧ P₂.state.snapshot = specAt versions n := by
  have hP := hstart.consistent
  have hcatch : ∀ P, ReflTransGen (Running Γ versions) P₁ P → failures P.state = failures P₁.state → CatchesUp versions P₁ i P := by
    intro P h
    induction h with
    | refl =>
      refine fun _ => ⟨fun rest answer tr n ht _ => ?_, fun t ht _ => ?_⟩
      · rw [hnew] at ht
        cases ht
      · rw [hnew] at ht
        cases ht
    | tail hrun hstep ih =>
      intro hfail
      obtain ⟨hP', hlater⟩ := hP.run hrun
      have hfail' := hP'.failures_le hstep
      exact CatchesUp.step hP' hlater hstep hfail (ih (le_antisymm (hfail'.trans hfail.le) hlater.failures))
  obtain ⟨p, ps, hps, hversion, hfailed⟩ := (hcatch P₂ hrun hread).published t ht hpub
  have hP₂ := (hP.run hrun).1
  have hmem : p ∈ P₂.state.published := hps ▸ List.mem_cons_self
  refine ⟨p.version, hversion, hP₂.bounded p hmem, ?_⟩
  rw [hP₂.current, hps]
  exact (hP₂.truthful p hmem).spec hfailed

theorem stoppingRun_catches_up : ∃ P, Started (Platform.tabulated [] fun _ d => .ok d) stoppingVersions P ∧
    ∃ n, 1 ≤ n ∧ n ≤ P.state.version ∧ P.state.snapshot = specAt stoppingVersions n := by
  obtain ⟨ready, hready, hversion, hnone, hnew, stopped, hrun, hpub, -, -, ⟨t, ht, hpublished⟩, -⟩ :=
    stoppingRun (Platform.tabulated [] fun _ d => .ok d)
  have hread : failures stopped.state = failures ready.state := by
    rw [failures, failures, hpub, hnone]
    rfl
  have hcatch := refresh_catches_up ⟨0, hready⟩ hrun hread hnew ht hpublished
  rw [hversion] at hcatch
  exact ⟨stopped, ⟨0, hready.trans hrun⟩, hcatch⟩

/-! ## The stop -/

/-- The thread has just looked at the snapshot and found no stop. -/
def ClearedToWrite (tr : Trace Operator) : Prop := ∃ earlier, tr = ⟨.inr .checkStop, false⟩ :: earlier

/-- Since `P₁` the thread has issued no write but at most one, directly after `P₁`, and only if it was running then. -/
def QuietSince (P₁ : Pool Operator Manager) (i : Nat) (tr : Trace Operator) : Prop :=
  ∃ later inFlight, tr = later ++ inFlight ++ issuedBy P₁ i ∧ (∀ e ∈ later, writes e.1 = false) ∧ inFlight.length ≤ 1 ∧
    (P₁.threads[i]? = none → inFlight = [])

/-- The state of affairs since a stop: it is in the snapshot, only later versions have been read, and every thread stands where it stood
or is quiet and not cleared to write. -/
structure Frozen (versions : Versions) (P₁ P : Pool Operator Manager) : Prop where
  stopped : P.state.snapshot.stop = true
  reading : ∀ i, ReadsSince versions P₁.state.version i P
  threads : ∀ i t, P.threads[i]? = some t → P₁.threads[i]? = some t ∨ (QuietSince P₁ i t.trace ∧ ¬ClearedToWrite t.trace)

/-- Under the stop no look at the snapshot clears a thread to write. -/
theorem not_clearedToWrite_of_stopped {m m' : Manager} {i : Nat} {c : Operator.Call} {r : Operator.Answer c} {tr : Trace Operator}
    (hstop : m.snapshot.stop = true) (h : Manager.Answers versions i m c r m') : ¬ClearedToWrite (⟨c, r⟩ :: tr) := by
  rintro ⟨earlier, he⟩
  cases h with
  | checkStop free =>
    rw [hstop] at he
    cases he
  | api r hc _ =>
    cases he
    exact hc rfl
  | _ => cases he

theorem not_writes_of_not_clearedToWrite {c : Operator.Call} {tr : Trace Operator} (hcleared : ¬ClearedToWrite tr)
    (h : OperatorCall tr c) : writes c = false := by
  cases h with
  | look idle hread => simp [writes, hread]
  | write => exact absurd ⟨_, rfl⟩ hcleared
  | _ => rfl

theorem Frozen.thread {i : Nat} {rest : Prog Operator Unit} {c : Operator.Call} {r : Operator.Answer c} {tr : Trace Operator}
    (hF : Frozen versions P₁ P) (thread : P.threads[i]? = some ⟨rest, tr⟩) (hcall : OperatorCall tr c) :
    QuietSince P₁ i (⟨c, r⟩ :: tr) := by
  rcases hF.threads i _ thread with hsame | ⟨⟨later, inFlight, rfl, hquiet, hone, hnone⟩, hcleared⟩
  · refine ⟨[], [⟨c, r⟩], ?_, fun e he => ?_, le_rfl, fun hn => ?_⟩
    · simp [issuedBy, hsame]
    · cases he
    · rw [hsame] at hn
      cases hn
  · have hread := not_writes_of_not_clearedToWrite hcleared hcall
    exact ⟨⟨c, r⟩ :: later, inFlight, rfl, List.forall_mem_cons.2 ⟨hread, hquiet⟩, hone, hnone⟩

/-- The stop of the persisted object reaches what is published of it. -/
theorem stop_of_published {p : Publication} (h : p.Truthful versions) (hfailed : p.failed = false)
    (hstop : (specAt versions p.version).stop = true) : (publishedSpec p.answer).stop = true := by
  rw [h.spec hfailed]
  exact hstop

theorem Frozen.step (hP : Consistent versions P) (hlater : Later P₁ P) (h : Running Γ versions P P')
    (hfail : failures P'.state = failures P₁.state)
    (hstop : ∀ n, P₁.state.version ≤ n → n ≤ P.state.version → (specAt versions n).stop = true) (hF : Frozen versions P₁ P) :
    Frozen versions P₁ P' := by
  refine ⟨?_, fun i => hP.readsSince h hlater.version (hF.reading i), fun i t ht => ?_⟩
  · rcases hP.publishes h with ⟨-, hsame⟩ | ⟨i, rest, tr, p, thread, hn, hpub, hsnapshot⟩
    · rw [hsame]
      exact hF.stopped
    · rw [hsnapshot]
      refine stop_of_published hn.truthful (not_failed_of_failures hpub (hfail.le.trans hlater.failures)) ?_
      exact hstop p.version (hF.reading i rest p.answer tr p.version thread hn) hn.bound
  · rcases h.cases hP.safe with ⟨n, -, rfl⟩ | ⟨p, rfl⟩ | ⟨j, c, r, rest, rest', tr, m', thread, hcall, hanswer, rfl⟩
    · exact hF.threads i t ht
    · rcases Pool.getElem?_start ht with ht | ⟨hnone, rfl⟩
      · exact hF.threads i t ht
      · have hnone₁ : P₁.threads[i]? = none := List.getElem?_eq_none (hlater.threads.trans (List.getElem?_eq_none_iff.1 hnone))
        refine Or.inr ⟨⟨[], [], ?_, ?_, Nat.zero_le _, fun _ => rfl⟩, ?_⟩
        · simp [issuedBy, hnone₁]
        · simp
        · rintro ⟨earlier, he⟩
          cases he
    · rcases Pool.getElem?_advance ht with ⟨rfl, rfl⟩ | ⟨-, ht⟩
      · exact Or.inr ⟨hF.thread thread hcall, not_clearedToWrite_of_stopped hF.stopped hanswer⟩
      · exact hF.threads i t ht

end

end YanetOperator
