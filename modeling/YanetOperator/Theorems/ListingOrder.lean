import YanetOperator.Lemmas.SharedRun
import YanetOperator.Theorems.SharedServices

/-!
# The order in which installations are listed

A shared reconcile creates and updates the same Services whatever the order. What it deletes may depend on the order: of the
scopes that are in conflict, the one visited first is not protected from pruning.
-/

namespace YanetOperator

open Registry

/-- The installations listed in another order. -/
def relisted (store : Store) (ys : List Yanet) : Store := Function.update store .yanet ys

/-- The writes of a shared reconcile are the same for every order in which the installations are listed. -/
def OrderIndependent (Γ : Platform) (config : YanetConfig) (store : Store) : Prop :=
  ∀ ys, (store .yanet).Perm ys → ∀ c, c ∈ sharedWrites Γ config (relisted store ys) ↔ c ∈ sharedWrites Γ config store

section

variable (Γ : Platform) (config : YanetConfig) (store : Store)

/-- The Services that the live installations of a store offer. -/
def offeredIn : List Service := offeredServices Γ config.spec (configOwner config) (liveScopes (store .yanet))

/-- A Service that is written, unless its scope is held back: it is offered, and its key is not in conflict. -/
def Wanted (s : Service) : Prop := s ∈ offeredIn Γ config store ∧ ¬ServiceConflict (offeredIn Γ config store) (serviceKey s)

/-- A shared Service of the operator that no live installation offers. -/
structure Orphan (x : Service) : Prop where
  listed : x ∈ store.select .service none sharedLabels
  controlled : controlledBy x.metadata (configOwner config) = true
  notOffered : ∀ s ∈ offeredIn Γ config store, serviceKey s ≠ serviceKey x

/-- A scope of live installations that the gate holds back. -/
def Held (σ : SharedServiceScope) : Prop := σ ∈ liveScopes (store .yanet) ∧ HeldBack Γ config.spec store σ

/-- A scope in which a wanted Service cannot be written. -/
def Fails (σ : SharedServiceScope) : Prop :=
  ∃ s, Wanted Γ config store s ∧ serviceScope s = σ ∧ ¬Held Γ config store σ ∧ ∃ err, sharedWrite store s = .error err

/-- A scope that met a problem when it was visited. -/
def MeetsTrouble (scopes : List SharedServiceScope) (σ : SharedServiceScope) : Prop :=
  ∃ before after, scopes = before ++ σ :: after ∧ Troubled Γ config.spec (configOwner config) before σ

/-- A scope that can be planned, whose Services are in conflict with those of other scopes only. -/
structure Contested (σ : SharedServiceScope) : Prop where
  live : σ ∈ liveScopes (store .yanet)
  planned : ¬Unplannable Γ config.spec σ.boxType
  alone : ∀ s ∈ offeredBy Γ config.spec (configOwner config) σ,
    ¬ServiceConflict (offeredBy Γ config.spec (configOwner config) σ) (serviceKey s)
  conflict : ∃ s ∈ offeredBy Γ config.spec (configOwner config) σ, ServiceConflict (offeredIn Γ config store) (serviceKey s)

/-- An orphan whose deletion depends on the order: its scope is contested, and nothing else protects it. -/
structure Exposed (x : Service) : Prop extends Orphan Γ config store x where
  contested : Contested Γ config store (serviceScope x)
  notHeld : ¬Held Γ config store (serviceScope x)
  applied : ¬Fails Γ config store (serviceScope x)

end

section

variable {Γ : Platform} {config : YanetConfig} {store : Store}

theorem wanted_iff {s : Service} :
    (planSharedServices Γ config (store .yanet)).desired[serviceKey s]? = some s ↔ Wanted Γ config store s := by
  have hdesc := (planSharedServices_ok Γ config (store .yanet)).registry
  refine (hdesc.entries_iff fun a ha b hb => offered_inj ha hb).trans ?_
  simp [Wanted, offeredIn]

/-- The entries of the desired map are the wanted Services under their keys. -/
theorem mem_desired {e : Key × Service} :
    e ∈ (planSharedServices Γ config (store .yanet)).desired.toList ↔ e.1 = serviceKey e.2 ∧ Wanted Γ config store e.2 := by
  obtain ⟨key, s⟩ := e
  rw [Std.ExtTreeMap.mem_toList_iff_getElem?_eq_some]
  constructor
  · intro h
    have hk := ((planSharedServices_ok Γ config (store .yanet)).registry.sound key s h).2.1
    exact ⟨hk.symm, wanted_iff.1 (hk ▸ h)⟩
  · rintro ⟨hk, hw⟩
    dsimp only at hk
    rw [hk]
    exact wanted_iff.2 hw

/-- A key is neither desired nor blocked exactly when no Service is offered under it. -/
theorem free_iff {key : Key} :
    (planSharedServices Γ config (store .yanet)).desired[key]? = none ∧ key ∉ (planSharedServices Γ config (store .yanet)).blocked ↔
      ∀ s ∈ offeredIn Γ config store, serviceKey s ≠ key := by
  have hdesc := (planSharedServices_ok Γ config (store .yanet)).registry
  constructor
  · rintro ⟨hn, hb⟩ s hs rfl
    obtain ⟨t, ht, -⟩ := hdesc.complete s hs hb
    change (planSharedServices Γ config (store .yanet)).desired[serviceKey s]? = some t at ht
    rw [hn] at ht
    cases ht
  · intro h
    constructor
    · rw [Option.eq_none_iff_forall_ne_some]
      intro s hs
      obtain ⟨hm, hk, -⟩ := hdesc.sound key s hs
      exact h s hm hk
    · intro hb
      obtain ⟨a, ha, -, -, hk, -⟩ := (hdesc.blocked key).1 hb
      exact h a ha hk

theorem desiredScope_eq {e : Key × Service} (h : e.1 = serviceKey e.2) : desiredScope e = serviceScope e.2 := by
  rw [desiredScope, h]
  rfl

/-- The writes of a shared reconcile; the order of the installations enters only through the scopes that met a problem. -/
theorem mem_sharedWrites_iff (c : Op) :
    c ∈ sharedWrites Γ config store ↔
      (∃ s, Wanted Γ config store s ∧ ¬Held Γ config store (serviceScope s) ∧ sharedWrite store s = .ok (some c)) ∨
      ∃ x, c = .delete .service x false ∧ Orphan Γ config store x ∧ ¬Held Γ config store (serviceScope x) ∧
        ¬Fails Γ config store (serviceScope x) ∧ ¬MeetsTrouble Γ config (liveScopes (store .yanet)) (serviceScope x) := by
  obtain ⟨held, hheld, hmem⟩ := mem_sharedWrites Γ config store
  have hok := planSharedServices_ok Γ config (store .yanet)
  have hheld : ∀ σ, σ ∈ held ↔ Held Γ config store σ := fun σ => by rw [hheld, hok.scopes, Held]
  have hfails : ∀ σ, (∃ e ∈ (planSharedServices Γ config (store .yanet)).desired.toList,
      desiredScope e = σ ∧ ApplyFails held store e) ↔ Fails Γ config store σ := by
    intro σ
    constructor
    · rintro ⟨e, he, rfl, hh, hf⟩
      obtain ⟨hk, hw⟩ := mem_desired.1 he
      rw [hheld, desiredScope_eq hk] at hh
      rw [desiredScope_eq hk]
      exact ⟨e.2, hw, rfl, hh, hf⟩
    · rintro ⟨s, hw, rfl, hh, hf⟩
      exact ⟨(serviceKey s, s), mem_desired.2 ⟨rfl, hw⟩, rfl, (hheld _).not.2 hh, hf⟩
  rw [hmem]
  refine or_congr ⟨?_, ?_⟩ ⟨?_, ?_⟩
  · rintro ⟨e, he, hc⟩
    obtain ⟨hk, hw⟩ := mem_desired.1 he
    unfold appliedWrite at hc
    rw [desiredScope_eq hk] at hc
    split at hc
    · cases hc
    · next hh =>
      split at hc
      · next w hs => exact ⟨e.2, hw, (hheld _).not.1 hh, by rw [hs, hc]⟩
      · cases hc
  · rintro ⟨s, hw, hh, hs⟩
    refine ⟨(serviceKey s, s), mem_desired.2 ⟨rfl, hw⟩, ?_⟩
    have hscope : desiredScope (serviceKey s, s) = serviceScope s := desiredScope_eq rfl
    rw [appliedWrite, hscope, if_neg ((hheld _).not.2 hh), hs]
  · rintro ⟨x, hx, rfl, hn, hb, hc, hp⟩
    rw [Protects, hheld, hok.protectedScopes, hfails, not_or, not_or] at hp
    exact ⟨x, rfl, ⟨hx, hc, free_iff.1 ⟨hn, hb⟩⟩, hp.1, hp.2.2, hp.2.1⟩
  · rintro ⟨x, rfl, ho, hh, hf, ht⟩
    obtain ⟨hn, hb⟩ := free_iff.2 ho.notOffered
    refine ⟨x, ho.listed, rfl, hn, hb, ho.controlled, ?_⟩
    rw [Protects, hheld, hok.protectedScopes, hfails, not_or, not_or]
    exact ⟨hh, ht, hf⟩

/-! ## Another order -/

theorem relisted_yanet (ys : List Yanet) : relisted store ys .yanet = ys := Function.update_self _ _ _

theorem relisted_other {k : Kind} (ys : List Yanet) (h : k ≠ .yanet) : relisted store ys k = store k := Function.update_of_ne h _ _

theorem select_relisted {k : Kind} (ys : List Yanet) (h : k ≠ .yanet) (ns : Option String) (labels : StrMap String) :
    (relisted store ys).select k ns labels = store.select k ns labels := by
  rw [Store.select, Store.select, relisted_other ys h]

theorem sharedWrite_relisted (ys : List Yanet) (s : Service) : sharedWrite (relisted store ys) s = sharedWrite store s := by
  refine sharedWrite_congr ?_
  rw [Store.find, Store.find, relisted_other ys (by decide)]

theorem heldBack_relisted (ys : List Yanet) (σ : SharedServiceScope) :
    HeldBack Γ config.spec (relisted store ys) σ ↔ HeldBack Γ config.spec store σ := by
  have hinv : inventory (relisted store ys) σ.ns = inventory store σ.ns := by
    rw [inventory, inventory, select_relisted ys (by decide), select_relisted ys (by decide), select_relisted ys (by decide)]
  rw [HeldBack, HeldBack, hinv]

section

variable {ys : List Yanet} (hp : (store .yanet).Perm ys)

include hp

theorem mem_liveScopes_relisted (σ : SharedServiceScope) :
    σ ∈ liveScopes (relisted store ys .yanet) ↔ σ ∈ liveScopes (store .yanet) := by
  rw [relisted_yanet]
  exact (((hp.filter isLive).map scopeOf).mem_iff).symm

theorem mem_offeredIn_relisted (s : Service) : s ∈ offeredIn Γ config (relisted store ys) ↔ s ∈ offeredIn Γ config store := by
  simp only [offeredIn, offeredServices, List.mem_flatMap, mem_liveScopes_relisted hp]

theorem wanted_relisted (s : Service) : Wanted Γ config (relisted store ys) s ↔ Wanted Γ config store s := by
  rw [Wanted, Wanted, mem_offeredIn_relisted hp]
  exact and_congr_right fun _ => not_congr (conflicted_congr (mem_offeredIn_relisted hp))

theorem orphan_relisted (x : Service) : Orphan Γ config (relisted store ys) x ↔ Orphan Γ config store x := by
  have hselect : (relisted store ys).select .service none sharedLabels = store.select .service none sharedLabels :=
    select_relisted ys (by decide) none sharedLabels
  constructor
  · rintro ⟨h1, h2, h3⟩
    exact ⟨hselect ▸ h1, h2, fun s hs => h3 s ((mem_offeredIn_relisted hp s).2 hs)⟩
  · rintro ⟨h1, h2, h3⟩
    exact ⟨hselect.symm ▸ h1, h2, fun s hs => h3 s ((mem_offeredIn_relisted hp s).1 hs)⟩

theorem held_relisted (σ : SharedServiceScope) : Held Γ config (relisted store ys) σ ↔ Held Γ config store σ := by
  rw [Held, Held, mem_liveScopes_relisted hp, heldBack_relisted]

theorem fails_relisted (σ : SharedServiceScope) : Fails Γ config (relisted store ys) σ ↔ Fails Γ config store σ := by
  simp only [Fails, wanted_relisted hp, held_relisted hp, sharedWrite_relisted]

/-- The writes when the installations are listed in another order. -/
theorem mem_sharedWrites_relisted (c : Op) :
    c ∈ sharedWrites Γ config (relisted store ys) ↔
      (∃ s, Wanted Γ config store s ∧ ¬Held Γ config store (serviceScope s) ∧ sharedWrite store s = .ok (some c)) ∨
      ∃ x, c = .delete .service x false ∧ Orphan Γ config store x ∧ ¬Held Γ config store (serviceScope x) ∧
        ¬Fails Γ config store (serviceScope x) ∧ ¬MeetsTrouble Γ config (liveScopes ys) (serviceScope x) := by
  rw [mem_sharedWrites_iff]
  simp only [wanted_relisted hp, held_relisted hp, sharedWrite_relisted, orphan_relisted hp, fails_relisted hp, relisted_yanet]

end

/-! ## When the order matters -/

/-- A scope that is not contested meets a problem in every order or in none. -/
theorem meetsTrouble_iff {ys : List Yanet} {σ : SharedServiceScope} (hp : (store .yanet).Perm ys)
    (hc : ¬Contested Γ config store σ) :
    MeetsTrouble Γ config (liveScopes ys) σ ↔ σ ∈ liveScopes (store .yanet) ∧ (Unplannable Γ config.spec σ.boxType ∨
      ∃ s ∈ offeredBy Γ config.spec (configOwner config) σ,
        ServiceConflict (offeredBy Γ config.spec (configOwner config) σ) (serviceKey s)) := by
  have hlive : ∀ τ, τ ∈ liveScopes ys ↔ τ ∈ liveScopes (store .yanet) := by
    intro τ
    rw [← mem_liveScopes_relisted hp, relisted_yanet]
  constructor
  · rintro ⟨before, after, hsplit, ht⟩
    have hm : σ ∈ liveScopes (store .yanet) := by
      rw [← hlive, hsplit]
      simp
    refine ⟨hm, ?_⟩
    by_contra hno
    rw [not_or] at hno
    obtain ⟨s, hs, hconf⟩ := ht.resolve_left hno.1
    refine hc ⟨hm, hno.1, fun t ht hct => hno.2 ⟨t, ht, hct⟩, s, hs, hconf.mono ?_⟩
    intro t ht
    obtain ⟨τ, hτ, ht⟩ := List.mem_flatMap.1 ht
    refine List.mem_flatMap.2 ⟨τ, (hlive τ).1 ?_, ht⟩
    rw [hsplit]
    rcases List.mem_append.1 hτ with h | h
    · simp [h]
    · simp [List.mem_singleton.1 h]
  · rintro ⟨hm, ht⟩
    obtain ⟨before, after, hsplit⟩ := List.append_of_mem ((hlive σ).2 hm)
    refine ⟨before, after, hsplit, ht.imp_right ?_⟩
    rintro ⟨s, hs, hconf⟩
    exact ⟨s, hs, hconf.mono fun t ht => List.mem_flatMap.2 ⟨σ, by simp, ht⟩⟩

/-- Some order has the installations of a scope before all others. -/
theorem exists_first (installations : List Yanet) (σ : SharedServiceScope) :
    ∃ ys zs, installations.Perm (ys ++ zs) ∧ (∀ τ ∈ liveScopes ys, τ = σ) ∧ σ ∉ liveScopes zs := by
  refine ⟨_, _, (List.filter_append_perm (fun z => isLive z && decide (scopeOf z = σ)) installations).symm, ?_, ?_⟩
  · intro τ hτ
    obtain ⟨z, hz, rfl⟩ := List.mem_map.1 hτ
    have hz := (List.mem_filter.1 (List.mem_filter.1 hz).1).2
    simp only [Bool.and_eq_true, decide_eq_true_eq] at hz
    exact hz.2
  · intro hm
    obtain ⟨z, hz, hσ⟩ := List.mem_map.1 hm
    obtain ⟨hz, hl⟩ := List.mem_filter.1 hz
    have hz := (List.mem_filter.1 hz).2
    simp [hl, hσ] at hz

/-- Some order has an installation of a live scope after all others. -/
theorem exists_last {installations : List Yanet} {σ : SharedServiceScope} (h : σ ∈ liveScopes installations) :
    ∃ ys y, installations.Perm (ys ++ [y]) ∧ isLive y = true ∧ scopeOf y = σ := by
  obtain ⟨y, hy, hσ⟩ := List.mem_map.1 h
  obtain ⟨hy, hl⟩ := List.mem_filter.1 hy
  obtain ⟨before, after, hsplit⟩ := List.append_of_mem hy
  refine ⟨before ++ after, y, ?_, hl, hσ⟩
  rw [hsplit, List.append_assoc]
  exact (List.perm_append_comm : ([y] ++ after).Perm (after ++ [y])).append_left before

/-- A contested scope visited before all others meets no problem. -/
theorem not_meetsTrouble_first {σ : SharedServiceScope} (hc : Contested Γ config store σ) {ys zs : List Yanet}
    (hy : ∀ τ ∈ liveScopes ys, τ = σ) (hz : σ ∉ liveScopes zs) : ¬MeetsTrouble Γ config (liveScopes (ys ++ zs)) σ := by
  rintro ⟨before, after, hsplit, ht⟩
  have happ : liveScopes (ys ++ zs) = liveScopes ys ++ liveScopes zs := by simp [liveScopes]
  rw [happ] at hsplit
  -- every occurrence of the scope lies in the first part, and nothing else comes before it
  have hbefore : ∀ τ ∈ before, τ = σ := by
    rcases List.append_eq_append_iff.1 hsplit with ⟨mid, h1, h2⟩ | ⟨mid, h1, h2⟩
    · intro τ hτ
      exact absurd (by rw [h2]; simp) hz
    · intro τ hτ
      exact hy τ (by rw [h1]; simp [hτ])
  obtain ⟨s, hs, hconf⟩ := ht.resolve_left hc.planned
  refine hc.alone s hs (hconf.mono fun t ht => ?_)
  obtain ⟨τ, hτ, ht⟩ := List.mem_flatMap.1 ht
  rcases List.mem_append.1 hτ with h | h
  · rwa [hbefore τ h] at ht
  · rwa [List.mem_singleton.1 h] at ht

/-- A contested scope visited after all others meets a problem. -/
theorem meetsTrouble_last {σ : SharedServiceScope} (hc : Contested Γ config store σ) {ys : List Yanet} {y : Yanet}
    (hp : (store .yanet).Perm (ys ++ [y])) (hl : isLive y = true) (hσ : scopeOf y = σ) :
    MeetsTrouble Γ config (liveScopes (ys ++ [y])) σ := by
  have happ : liveScopes (ys ++ [y]) = liveScopes ys ++ [σ] := by simp [liveScopes, hl, hσ]
  obtain ⟨s, hs, hconf⟩ := hc.conflict
  refine ⟨liveScopes ys, [], happ, Or.inr ⟨s, hs, hconf.mono fun t ht => ?_⟩⟩
  rw [← happ]
  have hmem : t ∈ offeredIn Γ config (relisted store (ys ++ [y])) := (mem_offeredIn_relisted hp t).2 ht
  rwa [offeredIn, relisted_yanet] at hmem

end

/-- A shared reconcile does not depend on the order exactly when no orphan is exposed. -/
theorem orderIndependent_iff (Γ : Platform) (config : YanetConfig) (store : Store) :
    OrderIndependent Γ config store ↔ ∀ x, ¬Exposed Γ config store x := by
  constructor
  · intro h x hx
    obtain ⟨ys, zs, hfirst, hy, hz⟩ := exists_first (store .yanet) (serviceScope x)
    obtain ⟨ws, w, hlast, hl, hσ⟩ := exists_last hx.contested.live
    have hdelete : Op.delete .service x false ∈ sharedWrites Γ config (relisted store (ys ++ zs)) :=
      (mem_sharedWrites_relisted hfirst _).2
        (Or.inr ⟨x, rfl, hx.toOrphan, hx.notHeld, hx.applied, not_meetsTrouble_first hx.contested hy hz⟩)
    have hkept := (h _ hlast _).2 ((h _ hfirst _).1 hdelete)
    rw [mem_sharedWrites_relisted hlast] at hkept
    rcases hkept with ⟨s, -, -, hw⟩ | ⟨x', hx', -, -, -, ht⟩
    · obtain ⟨z, -, hz | hz⟩ := sharedWrite_some hw <;> cases hz
    · cases hx'
      exact ht (meetsTrouble_last hx.contested hlast hl hσ)
  · intro h ys hp c
    rw [mem_sharedWrites_relisted hp, mem_sharedWrites_iff]
    refine or_congr_right (exists_congr fun x => and_congr_right fun _ => and_congr_right fun ho => and_congr_right fun hh =>
      and_congr_right fun hf => not_congr ?_)
    have hc : ¬Contested Γ config store (serviceScope x) := fun hc => h x ⟨ho, hc, hh, hf⟩
    rw [meetsTrouble_iff hp hc, meetsTrouble_iff (List.Perm.refl _) hc]

/-! ## An exposed orphan -/

/-- A Service of box type `a` whose role is no longer wired. -/
def orphanService : Service where
  metadata :=
    { name := "yanet-a-old", ns := "default", uid := 9, resourceVersion := 9
      labels := StrMap.of [(labelSharedService, "true"), (labelBoxType, "a"), (labelComponent, "old")]
      ownerReferences := [configOwner ambiguousConfig] }

/-- Two installations of box types that share a Service name, and the orphan. -/
def ambiguousStore : Store
  | .yanet => [installationOf "first" "a", installationOf "second" "a-b"]
  | .service => [orphanService]
  | _ => []

/-- Whether a call deletes the orphan. -/
def deletesOrphan : Op → Bool
  | .delete .service s _ => s == orphanService
  | _ => false

/-- The orphan is deleted when the installation of its box type is listed first, and kept when it is listed last. -/
theorem orphan_deleted_by_order :
    validateYanetConfig ambiguousPlatform ambiguousConfig.spec = .ok () ∧
    ([installationOf "first" "a", installationOf "second" "a-b"]).Perm
      [installationOf "second" "a-b", installationOf "first" "a"] ∧
    ∃ c, c ∈ sharedWrites ambiguousPlatform ambiguousConfig ambiguousStore ∧
      c ∉ sharedWrites ambiguousPlatform ambiguousConfig
        (relisted ambiguousStore [installationOf "second" "a-b", installationOf "first" "a"]) := by
  refine ⟨by decide +kernel, List.Perm.swap _ _ _, ?_⟩
  have hfirst : (sharedWrites ambiguousPlatform ambiguousConfig ambiguousStore).any deletesOrphan = true := by
    decide +kernel
  have hlast : (sharedWrites ambiguousPlatform ambiguousConfig
      (relisted ambiguousStore [installationOf "second" "a-b", installationOf "first" "a"])).any deletesOrphan = false := by
    decide +kernel
  obtain ⟨c, hc, hd⟩ := List.any_eq_true.1 hfirst
  refine ⟨c, hc, fun hm => ?_⟩
  rw [List.any_eq_true.2 ⟨c, hm, hd⟩] at hlast
  cases hlast

end YanetOperator
