import YanetOperator.Cluster.Manager
import YanetOperator.Lemmas.SharedTrace

/-!
# The threads of the operator

What a thread may call, given what it has called: a refresh takes the lock, reads, publishes what it read and gives the lock back,
with nothing in between; a write comes directly after a look at the snapshot that found no stop. Every program of the operator keeps
to this, so every thread does, in every interleaving; from it follow the invariants of the lock and of the publications.
-/

namespace YanetOperator

open Prog

/-! ## What the programs call -/

/-- Every write comes directly after a check of the stop. -/
def Guarded (tr : PassTrace) (c : Op) : Prop := Op.isRead c = true ∨ Armed tr

theorem PassCall.guarded {Γ : Platform} {y : Yanet} {tr : PassTrace} {c : Op} (h : PassCall Γ y tr c) : Guarded tr c := by
  have hevent (h : EventCall tr c) : Guarded tr c := by
    cases h with
    | read h => exact Or.inl h
    | event reason note armed => exact Or.inr armed
  cases h with
  | event h => exact hevent h
  | status h =>
    cases h with
    | read h => exact Or.inl h
    | write fresh status armed _ => exact Or.inr armed
  | addFinalizer armed _ => exact Or.inr armed
  | removeFinalizer ds armed _ _ => exact Or.inr armed
  | release h =>
    cases h with
    | read h => exact Or.inl h
    | drain ds d armed _ _ _ => exact Or.inr armed
    | delete ds d armed _ _ _ => exact Or.inr armed
  | prune h =>
    cases h with
    | read h => exact Or.inl h
    | deployment ds d armed _ _ _ => exact Or.inr armed
    | configMap ds cms pods cm armed _ _ _ _ _ _ _ => exact Or.inr armed
  | apply plan nodes h _ =>
    cases h with
    | event h => exact hevent h
    | inline h =>
      cases h with
      | read h => exact Or.inl h
      | create cm armed => exact Or.inr armed
      | update key existing cm armed _ _ _ => exact Or.inr armed
    | deployment node ctx rc desired h _ _ =>
      cases h with
      | read h => exact Or.inl h
      | create _ armed => exact Or.inr armed
      | update fresh d _ armed _ _ _ => exact Or.inr armed

theorem SharedCall.guarded {Γ : Platform} {config : YanetConfig} {tr : PassTrace} {c : Op} (h : SharedCall Γ config tr c) :
    Guarded tr c := by
  cases h with
  | read h => exact Or.inl h
  | create ys key desired armed _ => exact Or.inr armed
  | update ys key desired fresh armed _ _ _ => exact Or.inr armed
  | delete services s armed _ _ _ => exact Or.inr armed

theorem safe_reconcile (Γ : Platform) (key : Key) :
    Safe tracing Guarded (fun _ _ => True) (YanetReconciler.reconcile Γ key) [] := by
  refine safe_issue_bind (Or.inl rfl) fun answer => ?_
  cases answer with
  | error e =>
    dsimp only
    split <;> trivial
  | ok y =>
    refine (safe_reconcileYanet fun e he => ?_).mono (fun _ _ h => h.guarded) fun _ _ h => h
    cases List.mem_singleton.1 he
    rfl

theorem safe_listYanets {Q : Except Err (List Yanet) → PassTrace → Prop} (hQ : ∀ r tr, Q r tr) (tr : PassTrace) :
    Safe tracing Guarded Q (listObjs .yanet none ∅).run tr := by
  refine safe_issue_bind (Or.inl rfl) fun answer => ?_
  cases answer <;> exact hQ _ _

/-! ## What the threads call -/

/-- A call that writes to the cluster. -/
def writes : Operator.Call → Bool
  | .inl _ => false
  | .inr c => !Op.isRead c

/-- The thread holds the lock: its last call took it, read or published. -/
inductive Holding : Trace Operator → Prop where
  | locked (tr : Trace Operator) : Holding (⟨.inl .lock, ()⟩ :: tr)
  | read (answer : Except ApiError YanetConfig) (tr : Trace Operator) : Holding (⟨.inl .read, answer⟩ :: tr)
  | published (spec : YanetConfigSpec) (tr : Trace Operator) : Holding (⟨.inl (.publish spec), ()⟩ :: tr)

/-- The calls of a thread. -/
inductive OperatorCall : Trace Operator → Operator.Call → Prop where
  | lock {tr : Trace Operator} (idle : ¬Holding tr) : OperatorCall tr (.inl .lock)
  | read {tr : Trace Operator} : OperatorCall (⟨.inl .lock, ()⟩ :: tr) (.inl .read)
  | publish {answer : Except ApiError YanetConfig} {tr : Trace Operator} :
      OperatorCall (⟨.inl .read, answer⟩ :: tr) (.inl (.publish (publishedSpec answer)))
  | unlock {spec : YanetConfigSpec} {tr : Trace Operator} : OperatorCall (⟨.inl (.publish spec), ()⟩ :: tr) (.inl .unlock)
  | look {c : Op} {tr : Trace Operator} (idle : ¬Holding tr) (h : Op.isRead c = true) : OperatorCall tr (.inr c)
  | write {c : Op} {tr : Trace Operator} : OperatorCall (⟨.inr .checkStop, false⟩ :: tr) (.inr c)

theorem not_holding_nil : ¬Holding [] := by
  rintro ⟨⟩

theorem not_holding_inr {c : Op} {r : c.Answer} {tr : Trace Operator} : ¬Holding (⟨.inr c, r⟩ :: tr) := by
  rintro ⟨⟩

theorem not_holding_unlock {tr : Trace Operator} : ¬Holding (⟨.inl .unlock, ()⟩ :: tr) := by
  rintro ⟨⟩

/-- Calls of a pass, after a thread that does not hold the lock, leave it so. -/
theorem not_holding_append {tr : PassTrace} {earlier : Trace Operator} (h : ¬Holding earlier) :
    ¬Holding (tr.map Event.inr ++ earlier) := by
  cases tr with
  | nil => exact h
  | cons e tr => exact not_holding_inr

/-- A guarded program keeps to the calls of a thread. -/
theorem safe_guarded {α : Type} {p : Pass α} {earlier : Trace Operator} (idle : ¬Holding earlier)
    (h : Safe tracing Guarded (fun _ _ => True) p []) :
    Safe tracing OperatorCall (fun _ tr => ¬Holding tr) (p.inr : Prog Operator α) earlier := by
  have hcall (tr : PassTrace) (c : Op) (hc : Guarded tr c) : OperatorCall (tr.map Event.inr ++ earlier) (.inr c) := by
    rcases hc with hread | ⟨before, rfl⟩
    · exact .look (not_holding_append idle) hread
    · exact .write
  refine (Safe.inr h hcall).post ?_
  rintro a t ⟨tr, rfl, -⟩
  exact not_holding_append idle

/-- A refresh gives the lock back. -/
theorem safe_refresh {earlier : Trace Operator} (idle : ¬Holding earlier) :
    Safe tracing OperatorCall (fun _ tr => ¬Holding tr)
      (refreshYanetConfigSnapshot.inl : Prog Operator (Except Err (Option YanetConfig))) earlier := by
  refine (safe_tracing_call _ _).2 ⟨.lock idle, fun _ => ?_⟩
  refine (safe_tracing_call _ _).2 ⟨.read, fun answer => ?_⟩
  refine (safe_tracing_call _ _).2 ⟨.publish, fun _ => ?_⟩
  refine (safe_tracing_call _ _).2 ⟨.unlock, fun _ => ?_⟩
  exact not_holding_unlock

/-- Every program of the operator keeps to the calls of a thread. -/
theorem Starts.safe {Γ : Platform} {p : Prog Operator Unit} (h : Starts Γ p) : Safe tracing OperatorCall (fun _ _ => True) p [] := by
  cases h with
  | yanet key => exact (safe_guarded not_holding_nil (safe_reconcile Γ key)).bind fun _ _ _ => trivial
  | config =>
    refine Safe.bind (R := fun _ _ => True) ?_ fun _ _ _ => trivial
    refine (safe_refresh not_holding_nil).bind fun r tr idle => ?_
    cases r with
    | error e => trivial
    | ok config =>
      cases config with
      | none => trivial
      | some config =>
        dsimp only
        split
        · trivial
        · exact (safe_guarded idle ((safe_reconcileSharedServices Γ config []).mono (fun _ _ h => h.guarded) fun _ _ h => h)).bind
            fun _ _ _ => trivial
  | mapConfig =>
    refine Safe.bind (R := fun _ _ => True) ?_ fun _ _ _ => trivial
    refine (safe_refresh not_holding_nil).bind fun _ tr idle => ?_
    refine (safe_guarded idle (safe_listYanets (fun _ _ => trivial) [])).bind fun r _ _ => ?_
    cases r <;> trivial
  | mapNode node =>
    refine Safe.bind (R := fun _ _ => True) ?_ fun _ _ _ => trivial
    refine (safe_guarded not_holding_nil ?_).post fun _ _ _ => trivial
    refine (safe_listYanets (Q := fun _ _ => True) (fun _ _ => trivial) []).bind fun r _ _ => ?_
    cases r <;> trivial

/-! ## What a thread does to the shared state -/

/-- A step of a thread: where its calls left it, the call with its answer, and the shared state after it. -/
inductive Acts (versions : Versions) (i : Nat) (m : Manager) : Trace Operator → Event Operator → Manager → Prop where
  | look {c : Op} {r : c.Answer} {tr : Trace Operator} (idle : ¬Holding tr) : Acts versions i m tr ⟨.inr c, r⟩ m
  | lock {tr : Trace Operator} (idle : ¬Holding tr) (free : m.holder = none) :
      Acts versions i m tr ⟨.inl .lock, ()⟩ { m with holder := some i }
  | read {answer : Except ApiError YanetConfig} {tr : Trace Operator} (h : Publication.Truthful versions ⟨m.version, answer⟩) :
      Acts versions i m (⟨.inl .lock, ()⟩ :: tr) ⟨.inl .read, answer⟩
        { m with lastRead := Function.update m.lastRead i (some ⟨m.version, answer⟩) }
  | publish {answer : Except ApiError YanetConfig} {p : Publication} {tr : Trace Operator} (h : m.lastRead i = some p) :
      Acts versions i m (⟨.inl .read, answer⟩ :: tr) ⟨.inl (.publish (publishedSpec answer)), ()⟩
        { m with snapshot := publishedSpec answer, published := p :: m.published }
  | unlock {spec : YanetConfigSpec} {tr : Trace Operator} :
      Acts versions i m (⟨.inl (.publish spec), ()⟩ :: tr) ⟨.inl .unlock, ()⟩ { m with holder := none }

section

variable {Γ : Platform} {versions : Versions} {P P' : Pool Operator Manager} {m m' : Manager} {i : Nat} {tr : Trace Operator}

theorem OperatorCall.acts {c : Operator.Call} {r : Operator.Answer c} (hG : OperatorCall tr c)
    (h : Manager.Answers versions i m c r m') : Acts versions i m tr ⟨c, r⟩ m' := by
  cases hG with
  | lock idle =>
    cases h with
    | lock free => exact .lock idle free
  | read =>
    cases h with
    | read h => exact .read h
  | publish =>
    cases h with
    | publish h => exact .publish h
  | unlock =>
    cases h with
    | unlock => exact .unlock
  | look idle hread =>
    cases h with
    | checkStop free => exact .look idle
    | snapshot free => exact .look idle
    | api r _ _ => exact .look idle
  | write =>
    cases h with
    | checkStop free => exact .look not_holding_inr
    | snapshot free => exact .look not_holding_inr
    | api r _ _ => exact .look not_holding_inr

/-- A step of the operator, when every thread has kept to its calls: the cache moves on, a thread starts, or a thread acts. -/
theorem Running.cases (hsafe : P.Safe OperatorCall) (h : Running Γ versions P P') :
    (∃ n, P.state.version ≤ n ∧ P' = { P with state := { P.state with version := n } }) ∨
      (∃ p, P' = { P with threads := P.threads ++ [{ rest := p }] }) ∨
      ∃ i c r rest rest' tr m', P.threads[i]? = some ⟨rest, tr⟩ ∧ OperatorCall tr c ∧ Manager.Answers versions i P.state c r m' ∧
        P' = P.advance i m' ⟨rest', ⟨c, r⟩ :: tr⟩ := by
  cases h with
  | outside h =>
    obtain ⟨n, hn, rfl⟩ := h
    exact Or.inl ⟨n, hn, rfl⟩
  | @start p h => exact Or.inr (Or.inl ⟨p, rfl⟩)
  | @call i c k tr r m' thread h =>
    have hcall := (safe_tracing_call _ _).1 (hsafe _ (List.mem_of_getElem? thread))
    exact Or.inr (Or.inr ⟨i, c, r, _, k r, tr, m', thread, hcall.1, h, rfl⟩)

theorem Running.safe (h : Running Γ versions P P') (hP : P.Safe OperatorCall) : P'.Safe OperatorCall :=
  Pool.Step.safe (fun _ hp => hp.safe) h hP

end

/-! ## The lock -/

/-- The threads that hold the lock are the one that the state names. -/
structure Mutex (P : Pool Operator Manager) : Prop where
  held : ∀ i, P.state.holder = some i → ∃ t, P.threads[i]? = some t ∧ Holding t.trace
  holder : ∀ i t, P.threads[i]? = some t → Holding t.trace → P.state.holder = some i

section

variable {Γ : Platform} {versions : Versions} {P P' : Pool Operator Manager} {m' : Manager} {i : Nat} {e : Event Operator}
  {tr : Trace Operator} {rest rest' : Prog Operator Unit}

theorem Mutex.start (h : Mutex P) (p : Prog Operator Unit) : Mutex { P with threads := P.threads ++ [{ rest := p }] } where
  held i hi := by
    obtain ⟨t, ht, hholding⟩ := h.held i hi
    exact ⟨t, List.getElem?_append_left (List.getElem?_eq_some_iff.1 ht).1 ▸ ht, hholding⟩
  holder i t ht hholding := by
    rcases Pool.getElem?_start ht with ht | ⟨-, rfl⟩
    · exact h.holder i t ht hholding
    · exact absurd hholding not_holding_nil

/-- At most one thread holds the lock. -/
theorem Mutex.alone {j : Nat} {t t' : Thread Operator} (h : Mutex P) (hi : P.threads[i]? = some t) (hj : P.threads[j]? = some t')
    (ht : Holding t.trace) (ht' : Holding t'.trace) : j = i :=
  Option.some.inj ((h.holder j t' hj ht').symm.trans (h.holder i t hi ht))

/-- While a thread keeps the lock, or keeps out, nothing changes for the others. -/
theorem Mutex.advance_same (h : Mutex P) (thread : P.threads[i]? = some ⟨rest, tr⟩) (hholder : m'.holder = P.state.holder)
    (hholding : Holding (e :: tr) ↔ Holding tr) : Mutex (P.advance i m' ⟨rest', e :: tr⟩) where
  held j hj := by
    obtain ⟨t, ht, ht'⟩ := h.held j (hholder ▸ hj)
    by_cases hji : j = i
    · subst hji
      cases thread.symm.trans ht
      exact ⟨_, Pool.getElem?_advance_self thread, hholding.2 ht'⟩
    · exact ⟨t, (Pool.getElem?_advance_ne hji).trans ht, ht'⟩
  holder j t ht ht' := by
    refine hholder.trans ?_
    rcases Pool.getElem?_advance ht with ⟨rfl, rfl⟩ | ⟨-, ht⟩
    · exact h.holder _ _ thread (hholding.1 ht')
    · exact h.holder j t ht ht'

theorem Mutex.acts (h : Mutex P) (thread : P.threads[i]? = some ⟨rest, tr⟩) (hact : Acts versions i P.state tr e m') :
    Mutex (P.advance i m' ⟨rest', e :: tr⟩) := by
  cases hact with
  | look idle => exact h.advance_same thread rfl ⟨fun hh => absurd hh not_holding_inr, fun hh => absurd hh idle⟩
  | read _ => exact h.advance_same thread rfl ⟨fun _ => .locked _, fun _ => .read _ _⟩
  | publish _ => exact h.advance_same thread rfl ⟨fun _ => .read _ _, fun _ => .published _ _⟩
  | lock idle free =>
    refine ⟨fun j hj => ?_, fun j t ht hholding => ?_⟩
    · cases hj
      exact ⟨_, Pool.getElem?_advance_self thread, .locked _⟩
    · rcases Pool.getElem?_advance ht with ⟨rfl, -⟩ | ⟨-, ht⟩
      · rfl
      · have hj := h.holder j t ht hholding
        rw [free] at hj
        cases hj
  | unlock =>
    refine ⟨fun j hj => ?_, fun j t ht hholding => ?_⟩
    · cases hj
    · rcases Pool.getElem?_advance ht with ⟨-, rfl⟩ | ⟨hji, ht⟩
      · exact absurd hholding not_holding_unlock
      · exact absurd (h.alone thread ht (.published _ _) hholding) hji

end

/-! ## The publications -/

/-- What a thread that has read and not yet published holds: the version it read at, which no publication is beyond. -/
structure Pending (versions : Versions) (m : Manager) (i : Nat) (answer : Except ApiError YanetConfig) (n : Nat) : Prop where
  lastRead : m.lastRead i = some ⟨n, answer⟩
  bound : n ≤ m.version
  truthful : Publication.Truthful versions ⟨n, answer⟩
  latest : ∀ p ∈ m.published, p.version ≤ n

/-- The publications are in the order of the versions they were read at, and the snapshot is the latest. -/
structure Consistent (versions : Versions) (P : Pool Operator Manager) : Prop where
  safe : P.Safe OperatorCall
  mutex : Mutex P
  pending : ∀ i answer rest tr, P.threads[i]? = some ⟨rest, ⟨.inl .read, answer⟩ :: tr⟩ →
    ∃ n, Pending versions P.state i answer n
  ordered : P.state.published.Pairwise fun later earlier => earlier.version ≤ later.version
  bounded : ∀ p ∈ P.state.published, p.version ≤ P.state.version
  truthful : ∀ p ∈ P.state.published, p.Truthful versions
  current : P.state.snapshot = (P.state.published.head?.map fun p => publishedSpec p.answer).getD {}

section

variable {Γ : Platform} {versions : Versions} {P P' : Pool Operator Manager}

theorem consistent_initial (n : Nat) : Consistent versions { state := { version := n } } where
  safe t ht := by cases ht
  mutex := by
    refine ⟨fun i hi => ?_, fun i t ht => ?_⟩
    · cases hi
    · cases ht
  pending i answer rest tr ht := by cases ht
  ordered := List.Pairwise.nil
  bounded p hp := by cases hp
  truthful p hp := by cases hp
  current := rfl

/-- The lock alone changes hands, and the thread has not just read. -/
theorem Consistent.relock {i : Nat} {t : Thread Operator} {holder : Option Nat} (hP : Consistent versions P)
    (hsafe : (P.advance i { P.state with holder := holder } t).Safe OperatorCall)
    (hmutex : Mutex (P.advance i { P.state with holder := holder } t))
    (hunread : ∀ answer tr, t.trace ≠ ⟨.inl .read, answer⟩ :: tr) :
    Consistent versions (P.advance i { P.state with holder := holder } t) where
  safe := hsafe
  mutex := hmutex
  pending j answer rest tr ht := by
    rcases Pool.getElem?_advance ht with ⟨-, rfl⟩ | ⟨-, ht⟩
    · exact absurd rfl (hunread answer tr)
    · obtain ⟨n, hn⟩ := hP.pending j answer rest tr ht
      exact ⟨n, hn.lastRead, hn.bound, hn.truthful, hn.latest⟩
  ordered := hP.ordered
  bounded := hP.bounded
  truthful := hP.truthful
  current := hP.current

theorem Consistent.acts {i : Nat} {rest rest' : Prog Operator Unit} {tr : Trace Operator} {e : Event Operator} {m' : Manager}
    (hP : Consistent versions P) (thread : P.threads[i]? = some ⟨rest, tr⟩) (hact : Acts versions i P.state tr e m')
    (hsafe : (P.advance i m' ⟨rest', e :: tr⟩).Safe OperatorCall) : Consistent versions (P.advance i m' ⟨rest', e :: tr⟩) := by
  have hmutex : Mutex (P.advance i m' ⟨rest', e :: tr⟩) := hP.mutex.acts thread hact
  cases hact with
  | look idle =>
    refine Consistent.relock hP hsafe hmutex fun answer tr h => ?_
    cases h
  | lock idle free =>
    refine Consistent.relock hP hsafe hmutex fun answer tr h => ?_
    cases h
  | unlock =>
    refine Consistent.relock hP hsafe hmutex fun answer tr h => ?_
    cases h
  | read htruthful =>
    refine ⟨hsafe, hmutex, fun j answer rest tr ht => ?_, hP.ordered, hP.bounded, hP.truthful, hP.current⟩
    rcases Pool.getElem?_advance ht with ⟨rfl, hread⟩ | ⟨hji, ht⟩
    · cases hread
      exact ⟨P.state.version, Function.update_self _ _ _, le_rfl, htruthful, hP.bounded⟩
    · exact absurd (hP.mutex.alone thread ht (.locked _) (.read _ _)) hji
  | @publish answer p tr h =>
    obtain ⟨n, hn⟩ := hP.pending i answer rest tr thread
    cases h.symm.trans hn.lastRead
    refine ⟨hsafe, hmutex, fun j answer' rest tr' ht => ?_, List.pairwise_cons.2 ⟨hn.latest, hP.ordered⟩, ?_, ?_, rfl⟩
    · rcases Pool.getElem?_advance ht with ⟨-, hread⟩ | ⟨hji, ht⟩
      · cases hread
      · exact absurd (hP.mutex.alone thread ht (.read _ _) (.read _ _)) hji
    · exact List.forall_mem_cons.2 ⟨hn.bound, hP.bounded⟩
    · exact List.forall_mem_cons.2 ⟨hn.truthful, hP.truthful⟩

theorem Consistent.step (hP : Consistent versions P) (h : Running Γ versions P P') : Consistent versions P' := by
  have hsafe := h.safe hP.safe
  rcases h.cases hP.safe with ⟨n, hn, rfl⟩ | ⟨p, rfl⟩ | ⟨i, c, r, rest, rest', tr, m', thread, hcall, hanswer, rfl⟩
  · refine ⟨hsafe, ⟨hP.mutex.held, hP.mutex.holder⟩, fun i answer rest tr ht => ?_, hP.ordered, fun p hp => ?_, hP.truthful,
      hP.current⟩
    · obtain ⟨v, hv⟩ := hP.pending i answer rest tr ht
      exact ⟨v, hv.lastRead, hv.bound.trans hn, hv.truthful, hv.latest⟩
    · exact (hP.bounded p hp).trans hn
  · refine ⟨hsafe, hP.mutex.start p, fun i answer rest tr ht => ?_, hP.ordered, hP.bounded, hP.truthful, hP.current⟩
    rcases Pool.getElem?_start ht with ht | ⟨-, ht⟩
    · exact hP.pending i answer rest tr ht
    · cases ht
  · exact hP.acts thread (hcall.acts hanswer) hsafe

theorem Started.consistent (h : Started Γ versions P) : Consistent versions P := by
  obtain ⟨n, h⟩ := h
  induction h with
  | refl => exact consistent_initial n
  | tail _ hstep ih => exact ih.step hstep

end

end YanetOperator
