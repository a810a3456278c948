import YanetOperator.Lemmas.PassTrace
import YanetOperator.Lemmas.SharedPlan

/-!
# The calls of a shared reconcile

`SharedCall` lists every call that `reconcileSharedServices` may issue, with what it has read and checked before it. A Service is
written only for a scope that the migration gate of this reconcile has cleared, and replaced or deleted only when the YanetConfig
controls it.
-/

namespace YanetOperator

open Prog

/-- The producers of a namespace were listed. -/
def SawProducers (tr : PassTrace) (ns : String) (producers : List PlacementProducer) : Prop :=
  ∃ ds rs ps, SawInventory tr ns ds rs ps ∧ ∀ p, p ∈ producers ↔ p ∈ producersOf ds rs ps

/-- The migration gate let a scope pass: the scope wires no roles, or none of the producers listed is in its way. -/
def ScopeCleared (Γ : Platform) (config : YanetConfigSpec) (scope : SharedServiceScope) (tr : PassTrace) : Prop :=
  ∀ box, findBoxType config scope.boxType = .ok box → (boxRoles box).1 = [] ∨
    ∃ producers, SawProducers tr scope.ns producers ∧ scopeConflict Γ box scope.boxType producers = none

/-- A Service that a shared reconcile wants: it is planned from the installations that were listed, and the gate let its scope
pass. -/
structure WantsService (Γ : Platform) (config : YanetConfig) (ys : List Yanet) (key : Key) (desired : Service) (tr : PassTrace) :
    Prop where
  listed : Saw tr (.list .yanet none ∅) (.ok ys)
  planned : (planSharedServices Γ config ys).desired[key]? = some desired
  cleared : { serviceScope desired with ns := key.ns } ∈ (planSharedServices Γ config ys).scopes →
    ScopeCleared Γ config.spec { serviceScope desired with ns := key.ns } tr

/-- The calls of a shared reconcile. -/
inductive SharedCall (Γ : Platform) (config : YanetConfig) (tr : PassTrace) : Op → Prop where
  | read {c : Op} (h : Op.isRead c = true) : SharedCall Γ config tr c
  | create (ys : List Yanet) (key : Key) (desired : Service) (armed : Armed tr) (wanted : WantsService Γ config ys key desired tr) :
      SharedCall Γ config tr (.create .service (createdSharedService desired))
  | update (ys : List Yanet) (key : Key) (desired fresh : Service) (armed : Armed tr)
      (wanted : WantsService Γ config ys key desired tr)
      (saw : Saw tr (.get .service (keyOf .service desired)) (.ok fresh)) (owned : validateServiceOwnership fresh desired = .ok ()) :
      SharedCall Γ config tr (.update .service (desiredSharedServiceUpdate fresh desired).1)
  | delete (services : List Service) (s : Service) (armed : Armed tr)
      (saw : Saw tr (.list .service none (StrMap.of [(labelSharedService, "true")])) (.ok services)) (mem : s ∈ services)
      (owned : controlledBy s.metadata (configOwner config) = true) : SharedCall Γ config tr (.delete .service s false)

section

variable {Γ : Platform} {config : YanetConfig} {tr : PassTrace} {e : Event Api}

theorem SharedCall.reads : Reads (SharedCall Γ config) := fun _ _ h => .read h

theorem SawProducers.cons {ns : String} {producers : List PlacementProducer} (h : SawProducers tr ns producers) :
    SawProducers (e :: tr) ns producers := by
  obtain ⟨ds, rs, ps, hinv, hmem⟩ := h
  exact ⟨ds, rs, ps, hinv.cons, hmem⟩

theorem ScopeCleared.cons {spec : YanetConfigSpec} {scope : SharedServiceScope} (h : ScopeCleared Γ spec scope tr) :
    ScopeCleared Γ spec scope (e :: tr) := by
  intro box hbox
  obtain hroles | ⟨producers, hsaw, hfree⟩ := h box hbox
  · exact Or.inl hroles
  · exact Or.inr ⟨producers, hsaw.cons, hfree⟩

theorem WantsService.cons {ys : List Yanet} {key : Key} {desired : Service} (h : WantsService Γ config ys key desired tr) :
    WantsService Γ config ys key desired (e :: tr) :=
  ⟨h.listed.cons, h.planned, fun hs => (h.cleared hs).cons⟩

/-! ## The migration gate -/

/-- The inventories of the gate were listed. -/
def GateState.Listed (st : GateState) (tr : PassTrace) : Prop :=
  ∀ ns producers, (ns, Except.ok producers) ∈ st.inventories → SawProducers tr ns producers

theorem GateState.Listed.cons {st : GateState} (h : st.Listed tr) : st.Listed (e :: tr) :=
  fun ns producers hm => (h ns producers hm).cons

/-- The inventory of a namespace is listed, now or before. -/
theorem safe_inventoryOf {st : GateState} (ns : String) {A : PassTrace → Prop} (hA : KeptByReads A) (h : st.Listed tr) (ha : A tr) :
    Safe tracing (SharedCall Γ config) (fun r tr => A tr ∧ r.1.Listed tr ∧ r.1.blocked = st.blocked ∧
      ∀ producers, r.2 = .ok producers → SawProducers tr ns producers) (inventoryOf st ns) tr := by
  unfold inventoryOf
  cases hfind : st.inventories.find? (·.1 == ns) with
  | some entry =>
    obtain ⟨ns', live⟩ := entry
    have hns : ns' = ns := by simpa using List.find?_some hfind
    refine ⟨ha, h, rfl, fun producers hlive => ?_⟩
    have hmem := List.mem_of_find?_eq_some hfind
    rw [hns, show live = .ok producers from hlive] at hmem
    exact h ns producers hmem
  | none =>
    refine (safe_listPlacementProducers SharedCall.reads (A := fun tr => A tr ∧ st.Listed tr)
      (fun tr c r hc h => ⟨hA tr c r hc h.1, h.2.cons⟩) ns ⟨ha, h⟩).bind fun live tr hlive => ?_
    have hsaw : ∀ producers, live = .ok producers → SawProducers tr ns producers := by
      rintro producers rfl
      exact hlive.2
    have hkept : A tr ∧ st.Listed tr := by
      cases live with
      | ok producers => exact hlive.1
      | error e => exact hlive
    refine ⟨hkept.1, fun ns' producers hm => ?_, rfl, hsaw⟩
    rcases List.mem_cons.1 hm with heq | hm
    · obtain ⟨rfl, hok⟩ := Prod.mk.inj heq
      exact hsaw producers hok.symm
    · exact hkept.2 ns' producers hm

/-- The scopes visited are blocked or cleared. -/
structure GateDone (Γ : Platform) (config : YanetConfigSpec) (A : PassTrace → Prop) (done : List SharedServiceScope) (st : GateState)
    (tr : PassTrace) : Prop where
  kept : A tr
  listed : st.Listed tr
  visited : ∀ scope ∈ done, scope ∈ st.blocked ∨ ScopeCleared Γ config scope tr

theorem safe_gateScope {A : PassTrace → Prop} (hA : KeptByReads A) {done : List SharedServiceScope} (scope : SharedServiceScope)
    {st : GateState} (h : GateDone Γ config.spec A done st tr) :
    Safe tracing (SharedCall Γ config) (GateDone Γ config.spec A (done ++ [scope])) (gateScope Γ config.spec st scope) tr := by
  have hvisited {st' : GateState} {tr : PassTrace} (hdone : ∀ s ∈ done, s ∈ st'.blocked ∨ ScopeCleared Γ config.spec s tr)
      (hscope : scope ∈ st'.blocked ∨ ScopeCleared Γ config.spec scope tr) :
      ∀ s ∈ done ++ [scope], s ∈ st'.blocked ∨ ScopeCleared Γ config.spec s tr := by
    intro s hs
    rcases List.mem_append.1 hs with hs | hs
    · exact hdone s hs
    · rw [List.mem_singleton.1 hs]
      exact hscope
  unfold gateScope
  cases hbox : findBoxType config.spec scope.boxType with
  | error e =>
    refine ⟨h.kept, h.listed, hvisited h.visited (Or.inr fun box hb => ?_)⟩
    rw [hbox] at hb
    cases hb
  | ok box =>
    dsimp only
    by_cases hroles : (boxRoles box).1 = []
    · rw [if_pos hroles]
      refine ⟨h.kept, h.listed, hvisited h.visited (Or.inr fun box' hb => ?_)⟩
      rw [hbox] at hb
      cases hb
      exact Or.inl hroles
    · rw [if_neg hroles]
      have hkept : KeptByReads fun tr => A tr ∧ ∀ s ∈ done, s ∈ st.blocked ∨ ScopeCleared Γ config.spec s tr :=
        fun tr c r hc h => ⟨hA tr c r hc h.1, fun s hs => (h.2 s hs).imp_right ScopeCleared.cons⟩
      refine (safe_inventoryOf scope.ns hkept h.listed ⟨h.kept, h.visited⟩).bind fun r tr hr => ?_
      obtain ⟨st', live⟩ := r
      obtain ⟨⟨ha, hdone⟩, hlisted, hblocked, hlive⟩ := hr
      dsimp only at hlisted hblocked hlive
      rw [← hblocked] at hdone
      have hblock (st'' : GateState) (hst : st''.blocked = scope :: st'.blocked) :
          ∀ s ∈ done ++ [scope], s ∈ st''.blocked ∨ ScopeCleared Γ config.spec s tr :=
        hvisited (fun s hs => (hdone s hs).imp_left fun hm => hst ▸ List.mem_cons_of_mem _ hm)
          (Or.inl (hst ▸ List.mem_cons_self))
      cases live with
      | error e => exact ⟨ha, hlisted, hblock _ rfl⟩
      | ok producers =>
        dsimp only
        cases hfree : scopeConflict Γ box scope.boxType producers with
        | none =>
          refine ⟨ha, hlisted, hvisited hdone (Or.inr fun box' hb => ?_)⟩
          rw [hbox] at hb
          cases hb
          exact Or.inr ⟨producers, hlive producers rfl, hfree⟩
        | some found => exact ⟨ha, hlisted, hblock _ rfl⟩

/-- Every scope is blocked or cleared when the gate is through. -/
theorem safe_blockedScopes {A : PassTrace → Prop} (hA : KeptByReads A) (scopes : List SharedServiceScope) (h : A tr) :
    Safe tracing (SharedCall Γ config) (fun g tr => A tr ∧ ∀ scope ∈ scopes, scope ∈ g.blocked ∨ ScopeCleared Γ config.spec scope tr)
      (blockedSharedServicePlacementScopes Γ config.spec scopes) tr := by
  refine (Safe.foldlM_done (J := GateDone Γ config.spec A) [] (fun done scope _ st tr ht => safe_gateScope hA scope ht)
    ⟨h, fun _ _ hm => absurd hm List.not_mem_nil, fun _ hs => absurd hs List.not_mem_nil⟩).post fun g tr hg => ?_
  refine ⟨hg.kept, fun scope hs => hg.visited scope ?_⟩
  rw [List.nil_append, List.mem_insertionSort]
  exact hs

/-! ## The writes -/

section

variable {ys : List Yanet} {key : Key} {desired : Service}

theorem safe_updateSharedServiceOnce (h : WantsService Γ config ys key desired tr) :
    Safe tracing (SharedCall Γ config) (onResult (fun _ tr => WantsService Γ config ys key desired tr)
      fun _ tr => WantsService Γ config ys key desired tr) (updateSharedServiceOnce desired).run tr := by
  unfold updateSharedServiceOnce
  refine Safe.tryBind (J := fun fresh tr => Saw tr (.get .service (keyOf .service desired)) (.ok fresh) ∧
    WantsService Γ config ys key desired tr) (safe_getObj SharedCall.reads (fun fresh => ⟨.head, h.cons⟩) fun _ => h.cons)
    fun fresh tr hf => ?_
  cases howned : validateServiceOwnership fresh desired with
  | error e => exact hf.2
  | ok u =>
    dsimp only
    split
    · exact hf.2
    · refine Safe.tryBind (J := fun stop tr => Saw tr (.get .service (keyOf .service desired)) (.ok fresh) ∧
        WantsService Γ config ys key desired tr ∧ (stop = false → Armed tr)) (Safe.tryLift (safe_issue (SharedCall.reads _ _ rfl)
          fun stop => ⟨hf.1.cons, hf.2.cons, fun hs => ?_⟩)) fun stop tr hs => ?_
      · rw [show stop = false from hs]
        exact .head
      · cases stop with
        | true => exact hs.2.1
        | false =>
          refine safe_attempt (safe_issue (.update ys key desired fresh (hs.2.2 rfl) hs.2.1 hs.1 howned) fun r => ?_)
          cases r <;> exact hs.2.1.cons

theorem safe_applySharedService (h : WantsService Γ config ys key desired tr) :
    Safe tracing (SharedCall Γ config) (fun _ _ => True) (applySharedService desired).run tr := by
  unfold applySharedService
  split
  · trivial
  · refine safe_issue_bind (SharedCall.reads _ _ rfl) fun r => ?_
    cases r with
    | error e =>
      dsimp only
      split
      · refine safe_issue_bind (SharedCall.reads _ _ rfl) fun stop => ?_
        cases stop with
        | true => trivial
        | false =>
          refine safe_attempt (safe_issue (.create ys key desired .head h.cons.cons) fun r => ?_)
          trivial
      · trivial
    | ok existing =>
      dsimp only
      cases validateServiceOwnership existing desired with
      | error e => trivial
      | ok u =>
        exact (safe_retryOnConflict (A := fun tr => WantsService Γ config ys key desired tr)
          (fun tr ht => safe_updateSharedServiceOnce ht) defaultRetries h.cons).post fun _ _ _ => trivial

/-- One desired Service whose scope the gate let pass, unless it is held back. -/
theorem safe_applyDesired {held : List SharedServiceScope} (st : SharedState)
    (h : { serviceScope desired with ns := key.ns } ∉ held → WantsService Γ config ys key desired tr) :
    Safe tracing (SharedCall Γ config) (fun _ _ => True) (applyDesired held st key desired).run tr := by
  unfold applyDesired
  dsimp only
  split
  · trivial
  · next hfree =>
    refine safe_issue_bind (SharedCall.reads _ _ rfl) fun stop => ?_
    cases stop with
    | true => trivial
    | false =>
      refine (safe_applySharedService (h hfree).cons).bind fun r tr _ => ?_
      cases r <;> trivial

end

theorem safe_pruneService (plan : SharedPlan) (st : SharedState) {services : List Service} {s : Service} (hs : s ∈ services)
    (h : Saw tr (.list .service none (StrMap.of [(labelSharedService, "true")])) (.ok services)) :
    Safe tracing (SharedCall Γ config) (fun _ _ => True) (pruneService plan (configOwner config) st s).run tr := by
  unfold pruneService
  split
  · trivial
  · next hkeep =>
    have howned : controlledBy s.metadata (configOwner config) = true := by
      simp only [keepsService, Bool.not_eq_true, Bool.or_eq_false_iff, Bool.not_eq_false'] at hkeep
      exact hkeep.2
    refine safe_issue_bind (SharedCall.reads _ _ rfl) fun stop => ?_
    cases stop with
    | true => trivial
    | false =>
      refine safe_issue_bind (.delete services s .head h.cons hs howned) fun r => ?_
      cases r with
      | ok u => trivial
      | error e =>
        dsimp only
        split <;> trivial

theorem safe_writeSharedServices {ys : List Yanet} {held : List SharedServiceScope} (st : SharedState)
    (hlisted : Saw tr (.list .yanet none ∅) (.ok ys))
    (hgate : ∀ scope ∈ (planSharedServices Γ config ys).scopes, scope ∈ held ∨ ScopeCleared Γ config.spec scope tr) :
    Safe tracing (SharedCall Γ config) (fun _ _ => True)
      (writeSharedServices (planSharedServices Γ config ys) (configOwner config) held st).run tr := by
  -- what the gate cleared stays cleared while the Services are written
  let Gated (tr : PassTrace) : Prop := Saw tr (.list .yanet none ∅) (.ok ys) ∧
    ∀ scope ∈ (planSharedServices Γ config ys).scopes, scope ∈ held ∨ ScopeCleared Γ config.spec scope tr
  have hstays (tr : PassTrace) (c : Op) (r : c.Answer) (h : Gated tr) : Gated (⟨c, r⟩ :: tr) :=
    ⟨h.1.cons, fun scope hs => (h.2 scope hs).imp_right ScopeCleared.cons⟩
  have happly (e : Key × Service) (he : e ∈ (planSharedServices Γ config ys).desired.toList) (st : SharedState) (tr : PassTrace)
      (h : Gated tr) : Safe tracing (SharedCall Γ config) (fun r tr => ∀ b, r = some b → Gated tr)
        (applyDesired held st e.1 e.2).run tr := by
    have hwanted : { serviceScope e.2 with ns := e.1.ns } ∉ held → WantsService Γ config ys e.1 e.2 tr := fun hfree =>
      ⟨h.1, Std.ExtTreeMap.mem_toList_iff_getElem?_eq_some.1 he, fun hs => (h.2 _ hs).resolve_left hfree⟩
    exact ((safe_applyDesired st hwanted).frame Gated (fun tr c r _ h => hstays tr c r h) h).mono (fun _ _ h => h.1)
      fun _ _ h _ _ => h.2
  unfold writeSharedServices
  refine Safe.optionBind (J := fun _ tr => Gated tr) (Safe.optionFoldlM (fun e he st tr h => happly e he st tr h) ⟨hlisted, hgate⟩)
    (fun _ => trivial) fun st tr _ => ?_
  refine Safe.optionBind (J := fun services tr => ∀ ss, services = .ok ss →
      Saw tr (.list .service none (StrMap.of [(labelSharedService, "true")])) (.ok ss)) ?_ (fun _ => trivial) fun services tr hs => ?_
  · refine Safe.bind (R := fun services tr => ∀ ss, services = .ok ss →
      Saw tr (.list .service none (StrMap.of [(labelSharedService, "true")])) (.ok ss)) ?_ fun services tr hs r hr => ?_
    · refine safe_listObjs SharedCall.reads (fun os ss hss => ?_) fun e ss hss => ?_
      · cases hss
        exact .head
      · cases hss
    · cases hr
      exact hs
  cases services with
  | error e => trivial
  | ok services =>
    refine Safe.optionBind (J := fun _ _ => True) (Safe.post (Safe.optionFoldlM (J := fun _ tr =>
      Saw tr (.list .service none (StrMap.of [(labelSharedService, "true")])) (.ok services)) (fun s hm st tr h => ?_)
      (hs services rfl)) fun _ _ _ _ _ => trivial) (fun _ => trivial) fun _ _ _ => trivial
    exact ((safe_pruneService _ st hm h).frame _ (fun _ _ _ _ h => Saw.cons h) h).mono (fun _ _ h => h.1) fun _ _ h _ _ => h.2

/-- Every call of a shared reconcile is one of `SharedCall`. -/
theorem safe_reconcileSharedServices (Γ : Platform) (config : YanetConfig) (tr : PassTrace) :
    Safe tracing (SharedCall Γ config) (fun _ _ => True) (reconcileSharedServices Γ config) tr := by
  unfold reconcileSharedServices
  refine Safe.bind (R := onResult (fun ys tr => Saw tr (.list .yanet none ∅) (.ok ys)) fun _ _ => True)
    (safe_listObjs SharedCall.reads (fun _ => .head) fun _ => trivial) fun r tr hr => ?_
  cases r with
  | error e => trivial
  | ok ys =>
    refine (safe_blockedScopes saw_keptByReads _ hr).bind fun gate tr hg => ?_
    refine (safe_writeSharedServices _ hg.1 hg.2).bind fun r tr _ => ?_
    cases r <;> trivial

end

end YanetOperator
