import YanetOperator.Cluster.Recording
import YanetOperator.Lemmas.SharedPlan

/-!
# A shared reconcile on which every call succeeds

The run of `reconcileSharedServices` against an API server that grants every call and records the writes: which scopes the
migration gate holds back, which Services are written, and which are deleted.
-/

namespace YanetOperator

open Prog

/-! ## The gate -/

/-- The inventory of a namespace. -/
def inventory (store : Store) (ns : String) : List PlacementProducer :=
  ((store.select .deployment (some ns) ∅).filterMap deploymentProducer ++
    (store.select .replicaSet (some ns) ∅).filterMap replicaSetProducer ++
    (store.select .pod (some ns) ∅).filterMap podProducer).insertionSort producerLe

/-- The gate holds a scope back: a producer of its namespace is incompatible with one of its roles. -/
def HeldBack (Γ : Platform) (config : YanetConfigSpec) (store : Store) (scope : SharedServiceScope) : Prop :=
  ∃ box, findBoxType config scope.boxType = .ok box ∧ (boxRoles box).1 ≠ [] ∧
    scopeConflict Γ box scope.boxType (inventory store scope.ns) ≠ none

theorem run_listPlacementProducers (s : Recording) (ns : String) :
    run Recording.exec (listPlacementProducers ns).run s = (.ok (inventory s.store ns), s) := by
  rfl

/-- The inventories read so far are those of the store. -/
def GateState.Fits (st : GateState) (store : Store) : Prop := ∀ e ∈ st.inventories, e.2 = .ok (inventory store e.1)

theorem run_inventoryOf {st : GateState} {s : Recording} (h : st.Fits s.store) (ns : String) :
    ∃ st', run Recording.exec (inventoryOf st ns) s = ((st', .ok (inventory s.store ns)), s) ∧ st'.Fits s.store ∧
      st'.blocked = st.blocked := by
  unfold inventoryOf
  cases hf : st.inventories.find? (·.1 == ns) with
  | some e =>
    obtain ⟨n, live⟩ := e
    have hm := h _ (List.mem_of_find?_eq_some hf)
    have hn : n = ns := by simpa using List.find?_some hf
    subst hn
    dsimp only at hm ⊢
    rw [hm]
    exact ⟨st, rfl, h, rfl⟩
  | none =>
    refine ⟨{ st with inventories := (ns, .ok (inventory s.store ns)) :: st.inventories }, rfl, ?_, rfl⟩
    intro e he
    rcases List.mem_cons.1 he with rfl | he
    · rfl
    · exact h e he

theorem run_gateScope (Γ : Platform) (config : YanetConfigSpec) {st : GateState} {s : Recording} (h : st.Fits s.store)
    (scope : SharedServiceScope) :
    ∃ st', run Recording.exec (gateScope Γ config st scope) s = (st', s) ∧ st'.Fits s.store ∧
      ∀ σ, σ ∈ st'.blocked ↔ σ ∈ st.blocked ∨ (σ = scope ∧ HeldBack Γ config s.store scope) := by
  unfold gateScope HeldBack
  cases hbox : findBoxType config scope.boxType with
  | error e => exact ⟨st, rfl, h, by simp⟩
  | ok box =>
    dsimp only
    by_cases hr : (boxRoles box).1 = []
    · rw [if_pos hr]
      exact ⟨st, rfl, h, by simp [hr]⟩
    · rw [if_neg hr]
      obtain ⟨st1, hrun, hfit, hb⟩ := run_inventoryOf h scope.ns
      rw [run_bind, hrun]
      dsimp only
      cases hc : scopeConflict Γ box scope.boxType (inventory s.store scope.ns) with
      | none => exact ⟨st1, rfl, hfit, by simp [hb, hc]⟩
      | some c =>
        obtain ⟨producer, name⟩ := c
        refine ⟨_, rfl, hfit, fun σ => ?_⟩
        rw [hb, List.mem_cons, or_comm]
        simp [hc, hr]

/-- The whole gate. -/
theorem run_blockedSharedServicePlacementScopes (Γ : Platform) (config : YanetConfigSpec) (scopes : List SharedServiceScope)
    (s : Recording) :
    ∃ g, run Recording.exec (blockedSharedServicePlacementScopes Γ config scopes) s = (g, s) ∧
      ∀ σ, σ ∈ g.blocked ↔ σ ∈ scopes ∧ HeldBack Γ config s.store σ := by
  have hloop : ∀ (xs : List SharedServiceScope) (st : GateState), st.Fits s.store →
      ∃ g, run Recording.exec (xs.foldlM (gateScope Γ config) st) s = (g, s) ∧
        ∀ σ, σ ∈ g.blocked ↔ σ ∈ st.blocked ∨ (σ ∈ xs ∧ HeldBack Γ config s.store σ) := by
    intro xs
    induction xs with
    | nil =>
      intro st _
      exact ⟨st, rfl, by simp⟩
    | cons x xs ih =>
      intro st h
      obtain ⟨st1, hrun, hfit, hb⟩ := run_gateScope Γ config h x
      obtain ⟨g, hg, hgb⟩ := ih st1 hfit
      refine ⟨g, ?_, fun σ => ?_⟩
      · rw [List.foldlM_cons, run_bind, hrun]
        exact hg
      · rw [hgb, hb, List.mem_cons]
        constructor
        · rintro ((h | ⟨rfl, h⟩) | ⟨hm, h⟩)
          · exact Or.inl h
          · exact Or.inr ⟨Or.inl rfl, h⟩
          · exact Or.inr ⟨Or.inr hm, h⟩
        · rintro (h | ⟨rfl | hm, h⟩)
          · exact Or.inl (Or.inl h)
          · exact Or.inl (Or.inr ⟨rfl, h⟩)
          · exact Or.inr ⟨hm, h⟩
  obtain ⟨g, hg, hb⟩ := hloop (scopes.insertionSort scopeLe) {} (by intro e he; cases he)
  refine ⟨g, hg, fun σ => ?_⟩
  rw [hb, List.mem_insertionSort]
  simp

/-! ## The apply loop -/

/-- The write `applySharedService` makes on a store, if any. -/
def sharedWrite (store : Store) (desired : Service) : Except Err (Option Op) :=
  if desired.spec.ports = [] ∨ desired.spec.selector.isEmpty = true then
    .error { text := "refusing to apply invalid shared Service " ++ desired.metadata.ns ++ "/" ++ desired.metadata.name }
  else
    match store.find .service (keyOf .service desired) with
    | none => .ok (some (.create .service (createdSharedService desired)))
    | some existing =>
      match validateServiceOwnership existing desired with
      | .error e => .error e
      | .ok () =>
        if (desiredSharedServiceUpdate existing desired).2 = false then .ok none
        else .ok (some (.update .service (desiredSharedServiceUpdate existing desired).1))

/-- The server after a write, if any. -/
def Recording.afterWrite (s : Recording) (w : Option Op) : Recording := w.elim s s.after

theorem run_applySharedService (s : Recording) (desired : Service) :
    run Recording.exec (applySharedService desired).run s =
      match sharedWrite s.store desired with
      | .ok w => (.ok (), s.afterWrite w)
      | .error e => (.error e, s) := by
  unfold applySharedService sharedWrite
  split
  · rfl
  · rw [ExceptT.run_mk, run_bind, run_issue]
    have hget : s.exec (.get .service (keyOf .service desired)) =
        (s.store.get .service (keyOf .service desired), s) := rfl
    rw [hget, Store.get]
    cases hf : s.store.find .service (keyOf .service desired) with
    | none => rfl
    | some existing =>
      dsimp only
      cases hv : validateServiceOwnership existing desired with
      | error e => rfl
      | ok u =>
        have honce : run Recording.exec (updateSharedServiceOnce desired).run s =
            if (desiredSharedServiceUpdate existing desired).2 = false then (.ok (), s)
            else (.ok (), s.after (.update .service (desiredSharedServiceUpdate existing desired).1)) := by
          unfold updateSharedServiceOnce getObj
          rw [ExceptT.run_bind, run_bind, run_attempt, run_issue, hget, Store.get, hf]
          change run Recording.exec (ExceptT.run (match validateServiceOwnership existing desired with
            | .error e => throw e
            | .ok () => _)) s = _
          rw [hv]
          dsimp only
          split <;> rfl
        dsimp only
        split at honce
        · next hc =>
          rw [run_retryOnConflict honce, if_pos hc]
          rfl
        · next hc =>
          rw [run_retryOnConflict honce, if_neg hc]
          rfl

/-- What `applySharedService` writes is a Service under the key of the desired one. -/
theorem sharedWrite_some {store : Store} {desired : Service} {c : Op} (h : sharedWrite store desired = .ok (some c)) :
    ∃ x : Service, keyOf .service x = keyOf .service desired ∧ (c = .create .service x ∨ c = .update .service x) := by
  unfold sharedWrite at h
  split at h
  · cases h
  · split at h
    · cases h
      exact ⟨createdSharedService desired, rfl, Or.inl rfl⟩
    · next existing hf =>
      split at h
      · cases h
      · split at h
        · cases h
        · cases h
          exact ⟨(desiredSharedServiceUpdate existing desired).1, (Store.find_some hf).2, Or.inr rfl⟩

/-- The store changes only under the key. -/
structure Recording.Touches (s s' : Recording) (keys : List Key) : Prop where
  find : ∀ key, key ∉ keys → s'.store.find .service key = s.store.find .service key
  mem : ∀ x : Service, keyOf .service x ∉ keys → (x ∈ s'.store .service ↔ x ∈ s.store .service)

theorem afterWrite_touches {s : Recording} {desired : Service} {w : Option Op} (h : sharedWrite s.store desired = .ok w) :
    s.Touches (s.afterWrite w) [keyOf .service desired] := by
  cases w with
  | none => exact ⟨fun _ _ => rfl, fun _ _ => Iff.rfl⟩
  | some c =>
    obtain ⟨x, hk, hc⟩ := sharedWrite_some h
    have hstore : (s.afterWrite (some c)).store = s.store.put .service x := by
      rcases hc with rfl | rfl <;> rfl
    rw [← hk]
    refine ⟨fun key hkey => ?_, fun z hz => ?_⟩
    · rw [hstore]
      exact Store.find_put fun e => hkey (by simp [e])
    · rw [hstore, Store.mem_put]
      have hne : keyOf .service z ≠ keyOf .service x := by simpa using hz
      exact ⟨fun hm => hm.elim (fun e => absurd (by rw [e]) hne) And.left, fun hm => Or.inr ⟨hm, hne⟩⟩

theorem Recording.Touches.trans {s s' s'' : Recording} {ks ks' : List Key} (h : s.Touches s' ks) (h' : s'.Touches s'' ks') :
    s.Touches s'' (ks ++ ks') := by
  refine ⟨fun key hk => ?_, fun x hk => ?_⟩
  · rw [List.mem_append, not_or] at hk
    rw [h'.find key hk.2, h.find key hk.1]
  · rw [List.mem_append, not_or] at hk
    rw [h'.mem x hk.2, h.mem x hk.1]

/-- The write depends on the object under the key only. -/
theorem sharedWrite_congr {store store' : Store} {desired : Service}
    (h : store'.find .service (keyOf .service desired) = store.find .service (keyOf .service desired)) :
    sharedWrite store' desired = sharedWrite store desired := by
  unfold sharedWrite
  rw [h]

/-- The scope of a desired Service. -/
def desiredScope (e : Key × Service) : SharedServiceScope := { serviceScope e.2 with ns := e.1.ns }

/-- The write for a desired Service, if any. -/
def appliedWrite (held : List SharedServiceScope) (store : Store) (e : Key × Service) : Option Op :=
  if desiredScope e ∈ held then none
  else
    match sharedWrite store e.2 with
    | .ok w => w
    | .error _ => none

/-- A desired Service whose write fails. -/
def ApplyFails (held : List SharedServiceScope) (store : Store) (e : Key × Service) : Prop :=
  desiredScope e ∉ held ∧ ∃ err, sharedWrite store e.2 = .error err

/-- What a part of the apply loop did. -/
structure Applies (held : List SharedServiceScope) (l : List (Key × Service)) (s s' : Recording) (st st' : SharedState) :
    Prop where
  writes : s'.writes = s.writes ++ l.filterMap (appliedWrite held s.store)
  touches : s.Touches s' (l.map Prod.fst)
  protectedScopes : ∀ σ, σ ∈ st'.protectedScopes ↔
    σ ∈ st.protectedScopes ∨ ∃ e ∈ l, desiredScope e = σ ∧ ApplyFails held s.store e

theorem afterWrite_writes {s : Recording} {desired : Service} {w : Option Op} (h : sharedWrite s.store desired = .ok w) :
    (s.afterWrite w).writes = s.writes ++ w.toList := by
  cases w with
  | none => simp [Recording.afterWrite]
  | some c =>
    obtain ⟨x, -, hc⟩ := sharedWrite_some h
    rcases hc with rfl | rfl <;> rfl

/-- One desired Service. -/
theorem run_applyDesired (held : List SharedServiceScope) (st : SharedState) (s : Recording) {e : Key × Service}
    (hk : keyOf .service e.2 = e.1) :
    ∃ st' s', run Recording.exec (applyDesired held st e.1 e.2).run s = (some st', s') ∧ Applies held [e] s s' st st' := by
  have hscope : ({ serviceScope e.2 with ns := e.1.ns } : SharedServiceScope) = desiredScope e := rfl
  unfold applyDesired
  dsimp only
  rw [hscope]
  by_cases hh : desiredScope e ∈ held
  · rw [if_pos hh]
    refine ⟨st, s, rfl, ?_, ⟨fun _ _ => rfl, fun _ _ => Iff.rfl⟩, ?_⟩
    · simp [appliedWrite, hh]
    · simp [ApplyFails, hh]
  · rw [if_neg hh, OptionT.run_mk, run_bind, run_issue]
    have hstop : s.exec .checkStop = (false, s) := rfl
    rw [hstop]
    dsimp only
    rw [if_neg Bool.false_ne_true, run_bind, run_applySharedService]
    cases hw : sharedWrite s.store e.2 with
    | ok w =>
      refine ⟨st, s.afterWrite w, rfl, ?_, ?_, ?_⟩
      · rw [afterWrite_writes hw]
        cases w <;> simp [appliedWrite, hh, hw]
      · rw [List.map_singleton, ← hk]
        exact afterWrite_touches hw
      · simp [ApplyFails, hw]
    | error err =>
      refine ⟨_, s, rfl, ?_, ⟨fun _ _ => rfl, fun _ _ => Iff.rfl⟩, fun σ => ?_⟩
      · simp [appliedWrite, hh, hw]
      · rw [List.mem_cons, or_comm]
        simp [ApplyFails, hh, hw, eq_comm]

/-- The whole apply loop: every Service is written against the store before the loop, because the keys differ. -/
theorem run_applyLoop (held : List SharedServiceScope) (l : List (Key × Service)) (hnd : (l.map Prod.fst).Nodup)
    (hk : ∀ e ∈ l, keyOf .service e.2 = e.1) (st : SharedState) (s : Recording) :
    ∃ st' s', run Recording.exec (l.foldlM (fun st (key, service) => applyDesired held st key service) st).run s = (some st', s') ∧
      Applies held l s s' st st' := by
  induction l generalizing st s with
  | nil => exact ⟨st, s, rfl, by simp, ⟨fun _ _ => rfl, fun _ _ => Iff.rfl⟩, by simp⟩
  | cons e l ih =>
    obtain ⟨hnot, hnd⟩ := List.nodup_cons.1 hnd
    obtain ⟨st1, s1, hrun1, h1⟩ := run_applyDesired held st s (hk e (by simp))
    obtain ⟨st2, s2, hrun2, h2⟩ := ih hnd (fun e' he' => hk e' (by simp [he'])) st1 s1
    have hsame : ∀ e' ∈ l, sharedWrite s1.store e'.2 = sharedWrite s.store e'.2 := by
      intro e' he'
      refine sharedWrite_congr (h1.touches.find _ ?_)
      rw [hk e' (by simp [he'])]
      intro hm
      simp only [List.map_cons, List.map_nil, List.mem_singleton] at hm
      exact hnot (hm ▸ List.mem_map_of_mem he')
    refine ⟨st2, s2, ?_, ?_, ?_, fun σ => ?_⟩
    · rw [List.foldlM_cons, OptionT.run_bind, Option.elimM, run_bind, hrun1]
      exact hrun2
    · have hmap : l.filterMap (appliedWrite held s1.store) = l.filterMap (appliedWrite held s.store) :=
        List.filterMap_congr fun e' he' => by rw [appliedWrite, appliedWrite, hsame e' he']
      rw [h2.writes, h1.writes, hmap, List.append_assoc, ← List.filterMap_append]
      rfl
    · exact h1.touches.trans h2.touches
    · rw [h2.protectedScopes, h1.protectedScopes]
      have hfails : ∀ e' ∈ l, (ApplyFails held s1.store e' ↔ ApplyFails held s.store e') := by
        intro e' he'
        rw [ApplyFails, ApplyFails, hsame e' he']
      constructor
      · rintro ((h | ⟨e', he', h⟩) | ⟨e', he', hs, hf⟩)
        · exact Or.inl h
        · exact Or.inr ⟨e', by rw [List.mem_singleton.1 he']; simp, h⟩
        · exact Or.inr ⟨e', List.mem_cons_of_mem _ he', hs, (hfails e' he').1 hf⟩
      · rintro (h | ⟨e', he', hs, hf⟩)
        · exact Or.inl (Or.inl h)
        · rcases List.mem_cons.1 he' with rfl | he'
          · exact Or.inl (Or.inr ⟨e', by simp, hs, hf⟩)
          · exact Or.inr ⟨e', he', hs, (hfails e' he').2 hf⟩

/-! ## The prune -/

theorem run_pruneService (plan : SharedPlan) (owner : OwnerReference) (st : SharedState) (s : Recording) (x : Service) :
    ∃ s', run Recording.exec (pruneService plan owner st x).run s = (some st, s') ∧
      s'.writes = s.writes ++ if keepsService plan owner st.protectedScopes x then [] else [.delete .service x false] := by
  unfold pruneService
  split
  · exact ⟨s, rfl, by simp⟩
  · exact ⟨s.after (.delete .service x false), rfl, rfl⟩

/-- The whole prune: it deletes the listed Services that it does not keep. -/
theorem run_pruneLoop (plan : SharedPlan) (owner : OwnerReference) (st : SharedState) (xs : List Service) (s : Recording) :
    ∃ s', run Recording.exec (xs.foldlM (pruneService plan owner) st).run s = (some st, s') ∧
      s'.writes = s.writes ++ (xs.filter fun x => !keepsService plan owner st.protectedScopes x).map
        (Op.delete .service · false) := by
  induction xs generalizing s with
  | nil => exact ⟨s, rfl, by simp⟩
  | cons x xs ih =>
    obtain ⟨s1, hrun1, hw1⟩ := run_pruneService plan owner st s x
    obtain ⟨s2, hrun2, hw2⟩ := ih s1
    refine ⟨s2, ?_, ?_⟩
    · rw [List.foldlM_cons, OptionT.run_bind, Option.elimM, run_bind, hrun1]
      exact hrun2
    · rw [hw2, hw1, List.append_assoc, List.filter_cons]
      split <;> simp_all

/-! ## The whole reconcile -/

/-- The labels of the Services that are pruned. -/
def sharedLabels : StrMap String := StrMap.of [(labelSharedService, "true")]

/-- The writes of a shared reconcile on a store. -/
def sharedWrites (Γ : Platform) (config : YanetConfig) (store : Store) : List Op :=
  (run Recording.exec (reconcileSharedServices Γ config) { store := store }).2.writes

/-- The scopes that a shared reconcile does not prune. -/
def Protects (store : Store) (plan : SharedPlan) (held : List SharedServiceScope) (σ : SharedServiceScope) : Prop :=
  σ ∈ held ∨ σ ∈ plan.protectedScopes ∨ ∃ e ∈ plan.desired.toList, desiredScope e = σ ∧ ApplyFails held store e

/-- The writes of a shared reconcile: the desired Services that are not held back, and the deletions. -/
theorem mem_sharedWrites (Γ : Platform) (config : YanetConfig) (store : Store) :
    ∃ held, (∀ σ, σ ∈ held ↔ σ ∈ (planSharedServices Γ config (store .yanet)).scopes ∧ HeldBack Γ config.spec store σ) ∧
      ∀ c, c ∈ sharedWrites Γ config store ↔
        (∃ e ∈ (planSharedServices Γ config (store .yanet)).desired.toList, appliedWrite held store e = some c) ∨
        ∃ x ∈ store.select .service none sharedLabels, c = .delete .service x false ∧
          (planSharedServices Γ config (store .yanet)).desired[serviceKey x]? = none ∧
          serviceKey x ∉ (planSharedServices Γ config (store .yanet)).blocked ∧
          controlledBy x.metadata (configOwner config) = true ∧
          ¬Protects store (planSharedServices Γ config (store .yanet)) held (serviceScope x) := by
  have hyanets : store.select .yanet none ∅ = store .yanet := by
    refine List.filter_eq_self.2 fun y _ => ?_
    simp [matchesLabels]
  have hdesc := (planSharedServices_ok Γ config (store .yanet)).registry
  generalize hplan : planSharedServices Γ config (store .yanet) = plan at hdesc ⊢
  obtain ⟨gate, hgate, hheld⟩ := run_blockedSharedServicePlacementScopes Γ config.spec plan.scopes { store := store }
  refine ⟨gate.blocked, hheld, fun c => ?_⟩
  have hnd : (plan.desired.toList.map Prod.fst).Nodup := by
    rw [Std.ExtTreeMap.map_fst_toList_eq_keys]
    exact Std.ExtTreeMap.nodup_keys
  have hkeys : ∀ e ∈ plan.desired.toList, keyOf .service e.2 = e.1 := by
    rintro ⟨key, service⟩ he
    exact (hdesc.sound key service (Std.ExtTreeMap.mem_toList_iff_getElem?_eq_some.1 he)).2.1
  obtain ⟨st1, s1, hrun1, h1⟩ := run_applyLoop gate.blocked plan.desired.toList hnd hkeys
    { protectedScopes := gate.blocked ++ plan.protectedScopes, errs := plan.errs ++ gate.errs } { store := store }
  obtain ⟨s2, hrun2, h2⟩ := run_pruneLoop plan (configOwner config) st1 (s1.store.select .service none sharedLabels) s1
  have hwrite : run Recording.exec (writeSharedServices plan (configOwner config) gate.blocked
      { protectedScopes := gate.blocked ++ plan.protectedScopes, errs := plan.errs ++ gate.errs }).run { store := store } =
      (some st1.errs, s2) := by
    unfold writeSharedServices
    rw [OptionT.run_bind, Option.elimM, run_bind, hrun1]
    dsimp only [Option.elim]
    have hlist : run Recording.exec (liftM (listObjs .service none sharedLabels).run : OptionT Pass _).run s1 =
        (some (.ok (s1.store.select .service none sharedLabels)), s1) := rfl
    rw [OptionT.run_bind, Option.elimM, run_bind, ← sharedLabels, hlist]
    dsimp only [Option.elim]
    rw [OptionT.run_bind, Option.elimM, run_bind, hrun2]
    rfl
  have hrun : (run Recording.exec (reconcileSharedServices Γ config) { store := store }).2 = s2 := by
    unfold reconcileSharedServices
    rw [run_bind, run_listObjs, hyanets]
    dsimp only
    rw [hplan, run_bind, hgate]
    dsimp only
    rw [run_bind, hwrite]
    rfl
  have hnone : ∀ x : Service, plan.desired[serviceKey x]? = none ↔ serviceKey x ∉ plan.desired.toList.map Prod.fst := by
    intro x
    rw [Std.ExtTreeMap.map_fst_toList_eq_keys, Std.ExtTreeMap.mem_keys]
    rw [Std.ExtTreeMap.mem_iff_isSome_getElem?, Bool.not_eq_true, Option.isSome_eq_false_iff, Option.isNone_iff_eq_none]
  have hselect : ∀ x : Service, plan.desired[serviceKey x]? = none →
      (x ∈ s1.store.select .service none sharedLabels ↔ x ∈ store.select .service none sharedLabels) := by
    intro x hx
    rw [Store.mem_select, Store.mem_select, h1.touches.mem x ((hnone x).1 hx)]
  have hprot : ∀ σ, σ ∈ st1.protectedScopes ↔ Protects store plan gate.blocked σ := by
    intro σ
    rw [h1.protectedScopes, Protects, List.mem_append, or_assoc]
  have hkeeps : ∀ x : Service, (!keepsService plan (configOwner config) st1.protectedScopes x) = true ↔
      plan.desired[serviceKey x]? = none ∧ serviceKey x ∉ plan.blocked ∧
        controlledBy x.metadata (configOwner config) = true ∧ ¬Protects store plan gate.blocked (serviceScope x) := by
    intro x
    rw [← hprot]
    simp only [keepsService, serviceKey, Bool.not_eq_true', Bool.or_eq_false_iff, Bool.not_eq_false', decide_eq_false_iff_not,
      Option.isSome_eq_false_iff, Option.isNone_iff_eq_none]
    tauto
  rw [sharedWrites, hrun, h2, List.mem_append, h1.writes, List.nil_append, List.mem_filterMap, List.mem_map]
  refine or_congr_right ⟨?_, ?_⟩
  · rintro ⟨x, hx, rfl⟩
    obtain ⟨hm, hk⟩ := List.mem_filter.1 hx
    have hk := (hkeeps x).1 hk
    exact ⟨x, (hselect x hk.1).1 hm, rfl, hk⟩
  · rintro ⟨x, hx, rfl, hk⟩
    exact ⟨x, List.mem_filter.2 ⟨(hselect x hk.1).2 hx, (hkeeps x).2 hk⟩, rfl⟩

end YanetOperator
