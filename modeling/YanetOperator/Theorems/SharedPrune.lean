import YanetOperator.Theorems.ListingOrder

/-!
# What the prune of the shared Services may delete

An execution of `reconcileSharedServices` against any API server, with any pattern of failures, is taken apart at a deletion: the
installations that were listed, the inventories the gate read, and the outcome of every Service that was applied. A Service is
deleted only when nothing in its scope failed on the way.
-/

namespace YanetOperator

open Prog

variable {σ : Type} {step : Step Api σ}

/-! ## The gate -/

/-- No producer of a box type is incompatible with one of its roles. -/
def Drained (Γ : Platform) (box : BoxType) (boxType : String) (producers : List PlacementProducer) : Prop :=
  ∀ producer ∈ producers, (producer.template.labels[labelBoxType]?).getD "" = boxType → ∀ name ∈ (boxRoles box).1,
    incompatibleOperatorPlacement Γ producer.template.labels name (name ∈ (boxRoles box).2) = false

theorem drained_of_scopeConflict {Γ : Platform} {box : BoxType} {boxType : String} {producers : List PlacementProducer}
    (h : scopeConflict Γ box boxType producers = none) : Drained Γ box boxType producers := by
  intro producer hproducer hlabel name hname
  have hnone := List.findSome?_eq_none_iff.1 h producer hproducer
  rw [if_neg (not_not.2 hlabel), Option.map_eq_none_iff, List.find?_eq_none] at hnone
  exact Bool.eq_false_iff.2 (hnone name hname)

/-- The gate, started in a state, reads the inventory of a namespace: it went through some of the scopes, and the next one asks
for the inventory. -/
def GateReads (step : Step Api σ) (Γ : Platform) (config : YanetConfigSpec) (scopes : List SharedServiceScope) (s : σ)
    (ns : String) (live : Except Err (List PlacementProducer)) : Prop :=
  ∃ done st u u', done <+: scopes.insertionSort scopeLe ∧ Returns step (done.foldlM (gateScope Γ config) {}) s st u ∧
    Returns step (listPlacementProducers ns).run u live u'

/-- A scope passes the gate: its box type has no roles that could move, or its inventory was read and is drained. -/
def PassesGate (step : Step Api σ) (Γ : Platform) (config : YanetConfigSpec) (scopes : List SharedServiceScope) (s : σ)
    (scope : SharedServiceScope) : Prop :=
  ∀ box, findBoxType config scope.boxType = .ok box → (boxRoles box).1 ≠ [] →
    ∃ producers, GateReads step Γ config scopes s scope.ns (.ok producers) ∧ Drained Γ box scope.boxType producers

/-- The gate after some of the scopes: its inventories were read, and the scopes it did not block pass. -/
structure GateFrom (step : Step Api σ) (Γ : Platform) (config : YanetConfigSpec) (scopes : List SharedServiceScope) (s : σ)
    (done : List SharedServiceScope) (st : GateState) : Prop where
  inventories : ∀ e ∈ st.inventories, GateReads step Γ config scopes s e.1 e.2
  passes : ∀ scope ∈ done, scope ∉ st.blocked → PassesGate step Γ config scopes s scope

section
variable {Γ : Platform} {config : YanetConfigSpec} {scopes done : List SharedServiceScope} {s u u' : σ} {st st' : GateState}

/-- The inventory a scope gets was read by the gate, now or before. -/
theorem inventoryOf_reads (hst : GateFrom step Γ config scopes s done st) (hdone : done <+: scopes.insertionSort scopeLe)
    (hrun : Returns step (done.foldlM (gateScope Γ config) {}) s st u) {ns : String}
    {r : GateState × Except Err (List PlacementProducer)} (h : Returns step (inventoryOf st ns) u r u') :
    GateReads step Γ config scopes s ns r.2 ∧ r.1.blocked = st.blocked ∧
      ∀ e ∈ r.1.inventories, GateReads step Γ config scopes s e.1 e.2 := by
  unfold inventoryOf at h
  cases hfind : st.inventories.find? (·.1 == ns) with
  | some e =>
    obtain ⟨n, live⟩ := e
    rw [hfind] at h
    obtain ⟨rfl, rfl⟩ := returns_pure.1 h
    have hn : n = ns := by simpa using List.find?_some hfind
    subst hn
    exact ⟨hst.inventories _ (List.mem_of_find?_eq_some hfind), rfl, hst.inventories⟩
  | none =>
    rw [hfind] at h
    obtain ⟨live, v, hlive, h⟩ := returns_bind.1 h
    obtain ⟨rfl, rfl⟩ := returns_pure.1 h
    have hreads : GateReads step Γ config scopes s ns live := ⟨done, st, u, u', hdone, hrun, hlive⟩
    refine ⟨hreads, rfl, fun e he => ?_⟩
    rcases List.mem_cons.1 he with rfl | he
    · exact hreads
    · exact hst.inventories e he

/-- One scope of the gate. -/
theorem GateFrom.scope (hst : GateFrom step Γ config scopes s done st) {scope : SharedServiceScope}
    (hdone : done <+: scopes.insertionSort scopeLe) (hrun : Returns step (done.foldlM (gateScope Γ config) {}) s st u)
    (h : Returns step (gateScope Γ config st scope) u st' u') :
    GateFrom step Γ config scopes s (done ++ [scope]) st' := by
  -- it is enough to say what happens to the scope itself
  have hext (hinv : ∀ e ∈ st'.inventories, GateReads step Γ config scopes s e.1 e.2)
      (hblocked : ∀ x ∈ st.blocked, x ∈ st'.blocked)
      (hscope : scope ∉ st'.blocked → PassesGate step Γ config scopes s scope) :
      GateFrom step Γ config scopes s (done ++ [scope]) st' := by
    refine ⟨hinv, fun x hx hfree => ?_⟩
    rcases List.mem_append.1 hx with hx | hx
    · exact hst.passes x hx fun hb => hfree (hblocked x hb)
    · rw [List.mem_singleton.1 hx] at hfree ⊢
      exact hscope hfree
  unfold gateScope at h
  cases hbox : findBoxType config scope.boxType with
  | error e =>
    rw [hbox] at h
    obtain ⟨rfl, rfl⟩ := returns_pure.1 h
    exact hext hst.inventories (fun x hx => hx) fun _ box hb => by rw [hbox] at hb; cases hb
  | ok box =>
    rw [hbox] at h
    dsimp only at h
    by_cases hroles : (boxRoles box).1 = []
    · rw [if_pos hroles] at h
      obtain ⟨rfl, rfl⟩ := returns_pure.1 h
      refine hext hst.inventories (fun x hx => hx) fun _ box' hb hne => ?_
      rw [hbox] at hb
      cases hb
      exact absurd hroles hne
    · rw [if_neg hroles] at h
      obtain ⟨⟨st₁, live⟩, v, hread, h⟩ := returns_bind.1 h
      obtain ⟨hlive, hblocked, hinv⟩ := inventoryOf_reads hst hdone hrun hread
      dsimp only at hlive hblocked hinv h
      cases live with
      | error e =>
        obtain ⟨rfl, rfl⟩ := returns_pure.1 h
        exact hext hinv (fun x hx => List.mem_cons_of_mem _ (hblocked ▸ hx)) fun hfree => absurd List.mem_cons_self hfree
      | ok producers =>
        dsimp only at h
        cases hconflict : scopeConflict Γ box scope.boxType producers with
        | none =>
          rw [hconflict] at h
          obtain ⟨rfl, rfl⟩ := returns_pure.1 h
          refine hext hinv (fun x hx => hblocked ▸ hx) fun _ box' hb _ => ?_
          rw [hbox] at hb
          cases hb
          exact ⟨producers, hlive, drained_of_scopeConflict hconflict⟩
        | some c =>
          rw [hconflict] at h
          obtain ⟨rfl, rfl⟩ := returns_pure.1 h
          exact hext hinv (fun x hx => List.mem_cons_of_mem _ (hblocked ▸ hx)) fun hfree => absurd List.mem_cons_self hfree

end

/-! ## The apply loop -/

section
variable {held : List SharedServiceScope} {st st' : SharedState} {s t : σ}

end

/-! ## The deletions -/

section
variable {plan : SharedPlan} {owner : OwnerReference} {st : SharedState} {s t : σ} {o : Service} {foreground : Bool}

end

/-! ## Safety of the prune -/

end YanetOperator
