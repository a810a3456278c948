import YanetOperator.Controller.SharedServices
import YanetOperator.Lemmas.Services
import YanetOperator.Registry

/-!
# The plan of the shared Services

The planning loop offers the Services of every live installation to a registry under their keys. What it desires and what it
blocks follows from the rules of registries; a scope is protected when one of its installations could not be planned, or met a
conflict.
-/

namespace YanetOperator

open Registry

/-! ## What an installation offers -/

/-- The key of a Service. -/
def serviceKey (s : Service) : Key := keyOf .service s

/-- The Services that plans stand for, without the invalid ones. -/
def validServices (ns : String) (owner : OwnerReference) (plans : List ServicePlan) : List Service :=
  (plans.filter fun p => p.validate.isOk).map fun p => p.toService ns owner

/-- The Services an installation offers. -/
def offeredBy (Γ : Platform) (config : YanetConfigSpec) (owner : OwnerReference) (scope : SharedServiceScope) : List Service :=
  validServices scope.ns owner (boxPlans Γ config scope.boxType)

/-- A wired role that does not resolve. -/
def Unresolved (Γ : Platform) (config : YanetConfigSpec) (boxType : String) (ref : ComponentRef) : Prop :=
  ∃ e, resolveBoxServiceComponent Γ config boxType ref.kind ref.operatorName = .error e

/-- A box type that cannot be planned, or only in part. -/
def Unplannable (Γ : Platform) (config : YanetConfigSpec) (boxType : String) : Prop :=
  match enabledComponentsForBox Γ config boxType with
  | .ok refs => (∃ ref ∈ refs, Unresolved Γ config boxType ref) ∨ ∃ p ∈ boxPlans Γ config boxType, p.validate.isOk = false
  | .error _ => True

/-- The part of the plan that is a registry. -/
def SharedPlan.registry (st : SharedPlan) : Registry Key Service := { entries := st.desired, blocked := st.blocked }

/-- The conflicts among Services. -/
abbrev ServiceConflict (services : List Service) (key : Key) : Prop := Conflicted serviceKey Service.spec services key

/-- A part of the loop over the roles of an installation: it offered the Services to the registry, and failed the installation
when one was refused or when something is `bad`. -/
structure Tracks (acc acc' : SharedPlan × Bool) (services : List Service) (bad : Prop) : Prop where
  registry : acc'.1.registry = services.foldl (Registry.add serviceKey Service.spec) acc.1.registry
  failed : acc'.2 = true ↔ (services.foldl (offer serviceKey Service.spec) (acc.1.registry, acc.2)).2 = true ∨ bad
  scopes : acc'.1.scopes = acc.1.scopes
  protectedScopes : acc'.1.protectedScopes = acc.1.protectedScopes

theorem Tracks.nil (acc : SharedPlan × Bool) : Tracks acc acc [] False := ⟨rfl, by simp, rfl, rfl⟩

theorem Tracks.append {a b c : SharedPlan × Bool} {xs ys : List Service} {p q : Prop} (h : Tracks a b xs p)
    (h' : Tracks b c ys q) : Tracks a c (xs ++ ys) (p ∨ q) := by
  refine ⟨?_, ?_, h'.scopes.trans h.scopes, h'.protectedScopes.trans h.protectedScopes⟩
  · rw [List.foldl_append, ← h.registry, h'.registry]
  · have hfold : (xs ++ ys).foldl (offer serviceKey Service.spec) (a.1.registry, a.2) =
        ys.foldl (offer serviceKey Service.spec)
          (b.1.registry, (xs.foldl (offer serviceKey Service.spec) (a.1.registry, a.2)).2) := by
      rw [List.foldl_append, h.registry, ← foldl_offer_fst xs (a.1.registry, a.2)]
    rw [h'.failed, hfold, foldl_offer_snd ys b.1.registry b.2, foldl_offer_snd ys b.1.registry (Prod.snd _), Bool.or_eq_true,
      Bool.or_eq_true, h.failed]
    tauto

theorem Tracks.foldl {ι : Type} {f : SharedPlan × Bool → ι → SharedPlan × Bool} {services : ι → List Service} {bad : ι → Prop}
    (hf : ∀ acc x, Tracks acc (f acc x) (services x) (bad x)) (xs : List ι) (acc : SharedPlan × Bool) :
    Tracks acc (xs.foldl f acc) (xs.flatMap services) (∃ x ∈ xs, bad x) := by
  induction xs generalizing acc with
  | nil => simpa using Tracks.nil acc
  | cons x xs ih =>
    have := (hf acc x).append (ih (f acc x))
    simpa only [List.foldl_cons, List.flatMap_cons, List.mem_cons, exists_eq_or_imp] using this

section

variable {Γ : Platform} {config : YanetConfigSpec} {owner : OwnerReference} {ns boxType : String}

/-- One plan: a valid one is offered, an invalid one fails the installation. -/
theorem planService_tracks (owner : OwnerReference) (ns : String) (acc : SharedPlan × Bool) (p : ServicePlan) :
    Tracks acc (planService owner ns acc p) (validServices ns owner [p]) (p.validate.isOk = false) := by
  obtain ⟨st, failed⟩ := acc
  unfold planService
  cases hv : p.validate with
  | error e =>
    have hn : validServices ns owner [p] = [] := by simp [validServices, hv, Except.isOk, Except.toBool]
    rw [hn]
    exact ⟨rfl, by simp [Except.isOk, Except.toBool], rfl, rfl⟩
  | ok u =>
    have hs : validServices ns owner [p] = [p.toService ns owner] := by simp [validServices, hv, Except.isOk, Except.toBool]
    have hkey : keyOf .service (p.toService ns owner) = serviceKey (p.toService ns owner) := rfl
    rw [hs]
    dsimp only
    rw [hkey]
    by_cases hb : serviceKey (p.toService ns owner) ∈ st.blocked
    · rw [if_pos hb]
      refine ⟨?_, ?_, rfl, rfl⟩
      · simp [Registry.add, SharedPlan.registry, hb]
      · simp [offer, clashes, SharedPlan.registry, hb]
    · rw [if_neg hb]
      cases hd : st.desired[serviceKey (p.toService ns owner)]? with
      | none =>
        refine ⟨?_, ?_, rfl, rfl⟩
        · simp [Registry.add, SharedPlan.registry, hb, hd]
        · simp [offer, clashes, SharedPlan.registry, hb, hd, Except.isOk, Except.toBool]
      | some previous =>
        dsimp only
        split
        · next hne =>
          refine ⟨?_, ?_, rfl, rfl⟩
          · simp [Registry.add, SharedPlan.registry, SharedPlan.fail, hb, hd, hne]
          · simp [offer, clashes, SharedPlan.registry, hb, hd, hne]
        · next he =>
          refine ⟨?_, ?_, rfl, rfl⟩
          · simp [Registry.add, SharedPlan.registry, hb, hd, he]
          · simp [offer, clashes, SharedPlan.registry, hb, hd, he, Except.isOk, Except.toBool]

theorem validServices_flatMap {ι : Type} (f : ι → List ServicePlan) (xs : List ι) :
    xs.flatMap (fun x => validServices ns owner (f x)) = validServices ns owner (xs.flatMap f) := by
  induction xs with
  | nil => rfl
  | cons x xs ih =>
    rw [List.flatMap_cons, ih, List.flatMap_cons]
    simp [validServices]

/-- One role. -/
theorem planComponent_tracks (Γ : Platform) (config : YanetConfigSpec) (owner : OwnerReference) (y : Yanet)
    (acc : SharedPlan × Bool) (ref : ComponentRef) :
    Tracks acc (planComponent Γ config owner y acc ref)
      (validServices y.metadata.ns owner (rolePlans Γ config y.spec.boxType ref))
      (Unresolved Γ config y.spec.boxType ref ∨ ∃ p ∈ rolePlans Γ config y.spec.boxType ref, p.validate.isOk = false) := by
  unfold planComponent rolePlans Unresolved
  cases hr : resolveBoxServiceComponent Γ config y.spec.boxType ref.kind ref.operatorName with
  | error e => exact ⟨rfl, by simp, rfl, rfl⟩
  | ok o =>
    cases o with
    | none => simpa [validServices] using Tracks.nil acc
    | some component =>
      dsimp only
      have h := Tracks.foldl (planService_tracks owner y.metadata.ns)
        (buildServices Γ y.spec.boxType component.toResolvedRole) acc
      rw [validServices_flatMap (fun p => [p])] at h
      simpa using h

/-- The roles of an installation. -/
theorem planComponents_tracks {refs : List ComponentRef} (owner : OwnerReference) (y : Yanet)
    (he : enabledComponentsForBox Γ config y.spec.boxType = .ok refs) (acc : SharedPlan × Bool) :
    Tracks acc (refs.foldl (planComponent Γ config owner y) acc) (offeredBy Γ config owner (scopeOf y))
      (Unplannable Γ config y.spec.boxType) := by
  have h := Tracks.foldl (planComponent_tracks Γ config owner y) refs acc
  rw [validServices_flatMap (rolePlans Γ config y.spec.boxType)] at h
  have hplans : boxPlans Γ config y.spec.boxType = refs.flatMap (rolePlans Γ config y.spec.boxType) := by
    simp [boxPlans, he]
  have hbad : (∃ ref ∈ refs, Unresolved Γ config y.spec.boxType ref ∨
      ∃ p ∈ rolePlans Γ config y.spec.boxType ref, p.validate.isOk = false) ↔ Unplannable Γ config y.spec.boxType := by
    unfold Unplannable
    rw [he, hplans]
    simp only [List.mem_flatMap]
    constructor
    · rintro ⟨ref, hm, hu | ⟨p, hp, hv⟩⟩
      · exact Or.inl ⟨ref, hm, hu⟩
      · exact Or.inr ⟨p, ⟨ref, hm, hp⟩, hv⟩
    · rintro (⟨ref, hm, hu⟩ | ⟨p, ⟨ref, hm, hp⟩, hv⟩)
      · exact ⟨ref, hm, Or.inl hu⟩
      · exact ⟨ref, hm, Or.inr ⟨p, hp, hv⟩⟩
  rw [hbad] at h
  rw [offeredBy, scopeOf, hplans]
  exact h

/-! ## The loop over the installations -/

/-- An installation that is not being deleted. -/
def isLive (y : Yanet) : Bool := y.metadata.deletionTimestamp.isNone

/-- The scopes of the live installations, in order. -/
def liveScopes (installations : List Yanet) : List SharedServiceScope := (installations.filter isLive).map scopeOf

/-- The Services offered by a list of scopes. -/
def offeredServices (Γ : Platform) (config : YanetConfigSpec) (owner : OwnerReference) (scopes : List SharedServiceScope) :
    List Service :=
  scopes.flatMap (offeredBy Γ config owner)

/-- A scope meets a problem when it is visited after some others: it cannot be planned, or one of its Services is in conflict
with one offered so far. -/
def Troubled (Γ : Platform) (config : YanetConfigSpec) (owner : OwnerReference) (before : List SharedServiceScope)
    (scope : SharedServiceScope) : Prop :=
  Unplannable Γ config scope.boxType ∨ ∃ s ∈ offeredBy Γ config owner scope,
    ServiceConflict (offeredServices Γ config owner (before ++ [scope])) (serviceKey s)

/-- The plan after some scopes were visited. -/
structure PlansScopes (Γ : Platform) (config : YanetConfigSpec) (owner : OwnerReference) (visited : List SharedServiceScope)
    (st : SharedPlan) : Prop where
  registry : Describes serviceKey Service.spec st.registry (offeredServices Γ config owner visited)
  scopes : ∀ scope, scope ∈ st.scopes ↔ scope ∈ visited
  protectedScopes : ∀ scope, scope ∈ st.protectedScopes ↔
    ∃ before after, visited = before ++ scope :: after ∧ Troubled Γ config owner before scope

theorem plansScopes_empty : PlansScopes Γ config owner [] {} :=
  ⟨describes_empty, by simp, by simp⟩

/-- The scopes that met a problem, after one more visit. -/
theorem troubled_snoc {visited : List SharedServiceScope} {new scope : SharedServiceScope} :
    (∃ before after, visited ++ [new] = before ++ scope :: after ∧ Troubled Γ config owner before scope) ↔
      (∃ before after, visited = before ++ scope :: after ∧ Troubled Γ config owner before scope) ∨
        (scope = new ∧ Troubled Γ config owner visited scope) := by
  constructor
  · rintro ⟨before, after, h, ht⟩
    rcases List.eq_nil_or_concat after with rfl | ⟨rest, last, rfl⟩
    · have := List.append_inj' h rfl
      obtain ⟨rfl, hs⟩ := this
      exact Or.inr ⟨(List.singleton_inj.1 hs).symm, ht⟩
    · rw [List.concat_eq_append, ← List.cons_append, ← List.append_assoc] at h
      have := List.append_inj' h rfl
      exact Or.inl ⟨before, rest, this.1, ht⟩
  · rintro (⟨before, after, rfl, ht⟩ | ⟨rfl, ht⟩)
    · exact ⟨before, after ++ [new], by simp, ht⟩
    · exact ⟨visited, [], rfl, ht⟩

/-- One live installation. -/
theorem planInstallation_live {visited : List SharedServiceScope} {st : SharedPlan} {y : Yanet}
    (h : PlansScopes Γ config owner visited st) (hl : isLive y = true) :
    PlansScopes Γ config owner (visited ++ [scopeOf y]) (planInstallation Γ config owner st y) := by
  have hscopes : ∀ scope, (scope ∈ if scopeOf y ∈ st.scopes then st.scopes else scopeOf y :: st.scopes) ↔
      scope ∈ visited ++ [scopeOf y] := by
    intro scope
    rw [List.mem_append, List.mem_singleton, ← h.scopes]
    split
    · next hm => exact ⟨Or.inl, fun hs => hs.elim id fun e => e ▸ hm⟩
    · rw [List.mem_cons, or_comm]
  unfold planInstallation
  rw [if_neg (by simpa [isLive] using hl)]
  dsimp only
  cases he : enabledComponentsForBox Γ config y.spec.boxType with
  | error e =>
    have hun : Unplannable Γ config (scopeOf y).boxType := by simp [Unplannable, scopeOf, he]
    have hnone : offeredBy Γ config owner (scopeOf y) = [] := by simp [offeredBy, boxPlans, scopeOf, he, validServices]
    refine ⟨?_, hscopes, fun scope => ?_⟩
    · rw [offeredServices, List.flatMap_append, List.flatMap_singleton, hnone, List.append_nil]
      exact h.registry
    · rw [troubled_snoc, ← h.protectedScopes]
      change scope ∈ scopeOf y :: st.protectedScopes ↔ _
      rw [List.mem_cons, or_comm]
      exact or_congr_right ⟨fun e => ⟨e, e ▸ Or.inl hun⟩, And.left⟩
  | ok refs =>
    dsimp only
    let start : SharedPlan := { st with scopes := if scopeOf y ∈ st.scopes then st.scopes else scopeOf y :: st.scopes }
    have ht := planComponents_tracks owner y he (start, false)
    have hstart : (start, false).1.registry = st.registry := rfl
    obtain ⟨⟨st', failed⟩, hacc⟩ : ∃ acc, refs.foldl (planComponent Γ config owner y) (start, false) = acc := ⟨_, rfl⟩
    rw [hacc] at ht
    rw [show refs.foldl (planComponent Γ config owner y) ({ st with
      scopes := if scopeOf y ∈ st.scopes then st.scopes else scopeOf y :: st.scopes }, false) = (st', failed) from hacc]
    have hreg : Describes serviceKey Service.spec (st.registry, false).1 (offeredServices Γ config owner visited) := h.registry
    obtain ⟨hd, hf⟩ := hreg.offerAll (offeredBy Γ config owner (scopeOf y))
    rw [foldl_offer_fst, ← hstart, ← ht.registry] at hd
    have happ : offeredServices Γ config owner visited ++ offeredBy Γ config owner (scopeOf y) =
        offeredServices Γ config owner (visited ++ [scopeOf y]) := by
      simp [offeredServices]
    rw [happ] at hd hf
    have hfailed : failed = true ↔ Troubled Γ config owner visited (scopeOf y) := by
      rw [ht.failed, hstart, hf, Troubled, or_comm]
      simp [scopeOf]
    have hprot : st'.protectedScopes = st.protectedScopes := ht.protectedScopes
    dsimp only
    split
    · next hfl =>
      refine ⟨hd, fun scope => by rw [← hscopes]; exact ht.scopes ▸ Iff.rfl, fun scope => ?_⟩
      rw [troubled_snoc, ← h.protectedScopes]
      change scope ∈ scopeOf y :: st'.protectedScopes ↔ _
      rw [List.mem_cons, or_comm, hprot]
      exact or_congr_right ⟨fun e => ⟨e, e ▸ hfailed.1 hfl⟩, And.left⟩
    · next hfl =>
      refine ⟨hd, fun scope => by rw [← hscopes]; exact ht.scopes ▸ Iff.rfl, fun scope => ?_⟩
      rw [troubled_snoc, ← h.protectedScopes, hprot]
      exact ⟨Or.inl, fun hs => hs.elim id fun hs => absurd (hfailed.2 (hs.1 ▸ hs.2)) hfl⟩

/-- The whole loop: it visits the scopes of the live installations in order. -/
theorem planSharedServices_ok (Γ : Platform) (config : YanetConfig) (installations : List Yanet) :
    PlansScopes Γ config.spec (configOwner config) (liveScopes installations) (planSharedServices Γ config installations) := by
  have hrun : ∀ (ys : List Yanet) (visited : List SharedServiceScope) (st : SharedPlan),
      PlansScopes Γ config.spec (configOwner config) visited st →
      PlansScopes Γ config.spec (configOwner config) (visited ++ liveScopes ys)
        (ys.foldl (planInstallation Γ config.spec (configOwner config)) st) := by
    intro ys
    induction ys with
    | nil =>
      intro visited st h
      simpa [liveScopes] using h
    | cons y ys ih =>
      intro visited st h
      rw [List.foldl_cons]
      by_cases hl : isLive y = true
      · have hscopes : liveScopes (y :: ys) = scopeOf y :: liveScopes ys := by simp [liveScopes, hl]
        rw [hscopes, List.append_cons]
        exact ih _ _ (planInstallation_live h hl)
      · have hskip : planInstallation Γ config.spec (configOwner config) st y = st := by
          rw [planInstallation, if_pos (by simpa [isLive, Option.isSome_iff_ne_none] using hl)]
        have hscopes : liveScopes (y :: ys) = liveScopes ys := by simp [liveScopes, hl]
        rw [hskip, hscopes]
        exact ih visited st h
  exact hrun installations [] {} plansScopes_empty

end

/-! ## The key and the specification determine an offered Service -/

/-- The selector of a plan determines its box type and its role. -/
theorem serviceSelector_inj {Γ : Platform} {b b' : String} {role role' : ResolvedRole} {numa numa' : Option Nat}
    (h : serviceSelector Γ b role numa = serviceSelector Γ b' role' numa') : b = b' ∧ role.name = role'.name := by
  rw [serviceSelector_eq, serviceSelector_eq] at h
  have hmem : ∀ e ∈ selectorEntries Γ b role numa, e ∈ selectorEntries Γ b' role' numa' := by
    intro e he
    have := (StrMap.getElem?_of_nodup (selectorEntries_nodup Γ b role numa)).2 he
    rw [h] at this
    exact (StrMap.getElem?_of_nodup (selectorEntries_nodup Γ b' role' numa')).1 this
  have hmem' : ∀ e ∈ selectorEntries Γ b' role' numa', e ∈ selectorEntries Γ b role numa := by
    intro e he
    have := (StrMap.getElem?_of_nodup (selectorEntries_nodup Γ b' role' numa')).2 he
    rw [← h] at this
    exact (StrMap.getElem?_of_nodup (selectorEntries_nodup Γ b role numa)).1 this
  have hne : ∀ (n : String) (k : String), k ∈ [labelBoxType, labelComponent, labelNuma] → operatorMembershipLabel Γ n ≠ k := by
    intro n k hk
    refine membershipLabel_ne Γ n ?_
    simp only [List.mem_cons, List.not_mem_nil, or_false] at hk
    rcases hk with rfl | rfl | rfl <;> simp [workloadIdentityLabels]
  have d1 : labelBoxType ≠ labelComponent := by decide
  have d2 : labelBoxType ≠ labelNuma := by decide
  have d3 : labelComponent ≠ labelNuma := by decide
  have hbox := hmem (labelBoxType, b) (by simp [selectorEntries])
  have hbb : b = b' := by
    have m := (hne role'.name labelBoxType (by simp)).symm
    unfold selectorEntries at hbox
    cases numa' <;> cases hc : role'.isColocated <;> simpa [hc, d1, d2, m] using hbox
  refine ⟨hbb, ?_⟩
  -- a membership entry is found on both sides or on neither; without one the component entry names the role
  by_cases hc : role.isColocated = true
  · have he := hmem (operatorMembershipLabel Γ role.name, role.name) (by simp [selectorEntries, hc])
    have m1 := hne role.name labelBoxType (by simp)
    have m2 := hne role.name labelComponent (by simp)
    have m3 := hne role.name labelNuma (by simp)
    unfold selectorEntries at he
    cases numa' <;> cases hc' : role'.isColocated <;> simp [hc', m1, m2, m3] at he
    · exact he.2
    · exact he.2
  · by_cases hc' : role'.isColocated = true
    · have he := hmem' (operatorMembershipLabel Γ role'.name, role'.name) (by simp [selectorEntries, hc'])
      have m1 := hne role'.name labelBoxType (by simp)
      have m2 := hne role'.name labelComponent (by simp)
      have m3 := hne role'.name labelNuma (by simp)
      unfold selectorEntries at he
      cases numa <;> simp [hc, m1, m2, m3] at he
    · have he := hmem (labelComponent, role.name) (by simp [selectorEntries, hc])
      unfold selectorEntries at he
      cases numa' <;> simpa [hc', d1.symm, d3] using he

theorem serviceKey_toService (p : ServicePlan) (ns : String) (owner : OwnerReference) :
    serviceKey (p.toService ns owner) = { ns := ns, name := p.name } := rfl

theorem selector_toService (p : ServicePlan) (ns : String) (owner : OwnerReference) :
    (p.toService ns owner).spec.selector = p.selector := rfl

/-- Two plans of one role of one box type that give the same key and the same specification give the same Service. -/
theorem toService_eq {p q : ServicePlan} {ns ns' : String} {owner : OwnerReference}
    (hk : serviceKey (p.toService ns owner) = serviceKey (q.toService ns' owner))
    (hs : (p.toService ns owner).spec = (q.toService ns' owner).spec) (hb : p.boxType = q.boxType)
    (hc : p.component = q.component) : p.toService ns owner = q.toService ns' owner := by
  rw [serviceKey_toService, serviceKey_toService, Key.mk.injEq] at hk
  obtain ⟨rfl, hname⟩ := hk
  have hsel : p.selector = q.selector := by
    rw [← selector_toService p ns owner, hs, selector_toService]
  have hm : (p.toService ns owner).metadata = (q.toService ns owner).metadata := by
    simp only [ServicePlan.toService, hname, hb, hc, hsel]
  generalize p.toService ns owner = a at hs hm ⊢
  generalize q.toService ns owner = b at hs hm ⊢
  cases a
  cases b
  simp_all

/-- The key and the specification determine an offered Service. -/
theorem offered_inj {Γ : Platform} {config : YanetConfigSpec} {owner : OwnerReference} {scopes : List SharedServiceScope}
    {a b : Service} (ha : a ∈ offeredServices Γ config owner scopes) (hb : b ∈ offeredServices Γ config owner scopes)
    (hk : serviceKey a = serviceKey b) (hs : a.spec = b.spec) : a = b := by
  obtain ⟨sa, -, ha⟩ := List.mem_flatMap.1 ha
  obtain ⟨sb, -, hb⟩ := List.mem_flatMap.1 hb
  obtain ⟨p, hp, rfl⟩ := List.mem_map.1 ha
  obtain ⟨q, hq, rfl⟩ := List.mem_map.1 hb
  obtain ⟨role, numa, hpe⟩ := mem_boxPlans (List.mem_filter.1 hp).1
  obtain ⟨role', numa', hqe⟩ := mem_boxPlans (List.mem_filter.1 hq).1
  have hsel : p.selector = q.selector := by
    rw [← selector_toService p sa.ns owner, hs, selector_toService]
  have hp1 : p.selector = serviceSelector Γ sa.boxType role numa ∧ p.boxType = sa.boxType ∧ p.component = role.name := by
    rw [hpe]
    exact ⟨rfl, rfl, rfl⟩
  have hq1 : q.selector = serviceSelector Γ sb.boxType role' numa' ∧ q.boxType = sb.boxType ∧ q.component = role'.name := by
    rw [hqe]
    exact ⟨rfl, rfl, rfl⟩
  rw [hp1.1, hq1.1] at hsel
  obtain ⟨hbox, hrole⟩ := serviceSelector_inj hsel
  exact toService_eq hk hs (by rw [hp1.2.1, hq1.2.1, hbox]) (by rw [hp1.2.2, hq1.2.2, hrole])

end YanetOperator
