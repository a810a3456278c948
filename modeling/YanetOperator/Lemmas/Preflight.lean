import YanetOperator.Controller.Preflight
import YanetOperator.Lemmas.Render
import YanetOperator.Lemmas.Services

/-!
# What a passed preflight means

Errors are collected and never dropped, so a preflight without errors resolved and rendered every component on every node, and
its plans are exactly the plans of the box type.
-/

namespace YanetOperator

open Check

theorem Err.join_eq_none {es : List Err} : Err.join es = none ↔ es = [] := by
  unfold Err.join
  split <;> simp_all

/-! ## Errors are kept -/

/-- Every error of the first state is an error of the second. -/
def PreflightState.Grows (st st' : PreflightState) : Prop := st.errs <+: st'.errs

theorem PreflightState.Grows.refl (st : PreflightState) : st.Grows st := List.prefix_refl _

theorem PreflightState.Grows.trans {a b c : PreflightState} (h : a.Grows b) (h' : b.Grows c) : a.Grows c := List.IsPrefix.trans h h'

theorem PreflightState.Grows.fail (st : PreflightState) (text : String) : st.Grows (st.fail text) := List.prefix_append _ _

/-- A state without errors came from one without errors. -/
theorem PreflightState.Grows.errs_nil {st st' : PreflightState} (h : st.Grows st') (he : st'.errs = []) : st.errs = [] := by
  unfold PreflightState.Grows at h
  rw [he] at h
  exact List.prefix_nil.1 h

theorem grows_foldl {ι : Type} {f : PreflightState → ι → PreflightState} (hf : ∀ (st : PreflightState) x, st.Grows (f st x)) (xs : List ι)
    (st : PreflightState) : st.Grows (xs.foldl f st) := by
  induction xs generalizing st with
  | nil => exact .refl st
  | cons x xs ih => exact (hf st x).trans (ih (f st x))

theorem addServicePlan_grows (component location : String) (st : PreflightState) (p : ServicePlan) :
    st.Grows (addServicePlan component location st p) := by
  unfold addServicePlan
  split
  · exact .fail st _
  · split
    · exact .refl st
    · split
      · exact .refl st
      · split
        · exact PreflightState.Grows.fail { st with plans := _, collided := _ } _
        · exact .refl st

theorem addServicePlans_grows (Γ : Platform) (cfg : YanetConfigSpec) (boxType : String) (component : ResolvedRole)
    (location : String) (st : PreflightState) : st.Grows (addServicePlans Γ cfg boxType component location st) := by
  unfold addServicePlans
  split
  · exact .fail st _
  · exact .refl st
  · exact grows_foldl (addServicePlan_grows _ _) _ st

theorem checkReplicas_grows (rc : ResolvedRole) (st : PreflightState) (d : Deployment) : st.Grows (checkReplicas rc st d) := by
  unfold checkReplicas
  split
  · split
    · exact .fail st _
    · exact .refl st
  · exact .refl st

/-! ## Workloads -/

/-- The workloads of a component on a node, as both loops of a pass render them. -/
def passWorkloads (Γ : Platform) (plan : PassPlan) (y : Yanet) (ctx : BuildContext) (ref : ComponentRef) :
    List RenderedWorkload :=
  match resolveForPass Γ plan y ref with
  | .ok (some rc) =>
    match renderDeployments Γ ctx rc (newPatchRegistry plan.cfg.patches) with
    | .ok ds => ds.map fun d => { deployment := normalizeDeploymentReplicas d rc.enabled plan.installationEnabled, component := rc }
    | .error _ => []
  | _ => []

/-- A component that resolves and renders. -/
def Renders (Γ : Platform) (plan : PassPlan) (y : Yanet) (ctx : BuildContext) (ref : ComponentRef) : Prop :=
  resolveForPass Γ plan y ref = .ok none ∨
    ∃ rc ds, resolveForPass Γ plan y ref = .ok (some rc) ∧
      renderDeployments Γ ctx rc (newPatchRegistry plan.cfg.patches) = .ok ds

section

variable {Γ : Platform} {plan : PassPlan} {y : Yanet} {node : Node} {ctx : BuildContext}

theorem preflightComponent_grows (acc : PreflightState × List RenderedWorkload) (ref : ComponentRef) :
    acc.1.Grows (preflightComponent Γ plan y node ctx acc ref).1 := by
  unfold preflightComponent
  dsimp only
  split
  · exact .fail _ _
  · exact .refl _
  · split
    · exact .fail _ _
    · split
      · exact .fail _ _
      · exact (grows_foldl (checkReplicas_grows _) _ _).trans (addServicePlans_grows _ _ _ _ _ _)

/-- One component of a preflight that ends without errors. -/
theorem preflightComponent_ok {acc : PreflightState × List RenderedWorkload} {ref : ComponentRef}
    (he : (preflightComponent Γ plan y node ctx acc ref).1.errs = []) :
    Renders Γ plan y ctx ref ∧ (preflightComponent Γ plan y node ctx acc ref).2 = acc.2 ++ passWorkloads Γ plan y ctx ref := by
  unfold preflightComponent at he ⊢
  unfold passWorkloads Renders
  dsimp only at he ⊢
  cases hr : resolveForPass Γ plan y ref with
  | error e =>
    rw [hr] at he
    exact absurd he (by simp [PreflightState.fail])
  | ok o =>
    cases o with
    | none => exact ⟨Or.inl rfl, by simp⟩
    | some rc =>
      rw [hr] at he
      dsimp only at he ⊢
      cases hd : renderDeployments Γ ctx rc (newPatchRegistry plan.cfg.patches) with
      | error e =>
        rw [hd] at he
        exact absurd he (by simp [PreflightState.fail])
      | ok ds =>
        rw [hd] at he
        dsimp only at he ⊢
        split at he
        · exact absurd he (by simp [PreflightState.fail])
        · next hz =>
          rw [if_neg hz]
          exact ⟨Or.inr ⟨rc, ds, rfl, hd⟩, by simp [Function.comp_def]⟩

/-- The loop over the components of a node, when it ends without errors. -/
theorem preflightComponents_ok {refs : List ComponentRef} {acc : PreflightState × List RenderedWorkload}
    (he : (refs.foldl (preflightComponent Γ plan y node ctx) acc).1.errs = []) :
    acc.1.errs = [] ∧ (∀ ref ∈ refs, Renders Γ plan y ctx ref) ∧
      (refs.foldl (preflightComponent Γ plan y node ctx) acc).2 = acc.2 ++ refs.flatMap (passWorkloads Γ plan y ctx) := by
  induction refs generalizing acc with
  | nil => exact ⟨he, nofun, by simp⟩
  | cons ref refs ih =>
    rw [List.foldl_cons] at he ⊢
    obtain ⟨h1, h2, h3⟩ := ih he
    obtain ⟨h4, h5⟩ := preflightComponent_ok h1
    refine ⟨(preflightComponent_grows acc ref).errs_nil h1, ?_, ?_⟩
    · intro r hr
      rcases List.mem_cons.1 hr with rfl | hr
      · exact h4
      · exact h2 r hr
    · rw [h3, h5, List.flatMap_cons, List.append_assoc]

/-- The workloads of a node in a preflight that ends without errors. -/
def NodeWorkloads (Γ : Platform) (plan : PassPlan) (y : Yanet) (w : Node × List RenderedWorkload) : Prop :=
  ∃ ctx, nodeContext Γ plan y w.1 = .ok ctx ∧ (∀ ref ∈ plan.enabled, Renders Γ plan y ctx ref) ∧
    w.2 = plan.enabled.flatMap (passWorkloads Γ plan y ctx)

/-- The loop over the nodes, when it ends without errors. -/
theorem preflightNodes_ok {nodes : List Node} {st st' : PreflightState} {ws : List (Node × List RenderedWorkload)}
    (h : preflightNodes Γ plan y nodes st = .ok (st', ws)) (he : st'.errs = []) :
    st.errs = [] ∧ ws.map Prod.fst = nodes ∧ ∀ w ∈ ws, NodeWorkloads Γ plan y w := by
  induction nodes generalizing st ws with
  | nil =>
    cases h
    exact ⟨he, rfl, nofun⟩
  | cons node nodes ih =>
    unfold preflightNodes at h
    cases hc : nodeContext Γ plan y node with
    | error e =>
      rw [hc] at h
      cases h
    | ok ctx =>
      rw [hc] at h
      dsimp only at h
      obtain ⟨⟨st1, rest⟩, hrest, h⟩ := bind_eq_ok.1 h
      cases h
      obtain ⟨h1, h2, h3⟩ := ih hrest
      obtain ⟨h4, h5, h6⟩ := preflightComponents_ok h1
      refine ⟨h4, by rw [List.map_cons, h2], ?_⟩
      intro w hw
      rcases List.mem_cons.1 hw with rfl | hw
      · exact ⟨ctx, hc, h5, by simpa using h6⟩
      · exact h3 w hw

/-- A preflight that is accepted: every component of every node renders. -/
theorem preflightPlans_ok {nodes : List Node} {plans : StrMap ServicePlan} {ws : List (Node × List RenderedWorkload)}
    (h : preflightPlans Γ plan y nodes = .ok (plans, ws)) :
    ws.map Prod.fst = nodes ∧ ∀ w ∈ ws, NodeWorkloads Γ plan y w := by
  unfold preflightPlans at h
  obtain ⟨⟨st, ws'⟩, hn, h⟩ := bind_eq_ok.1 h
  dsimp only at h
  split at h
  · cases h
  · next hj =>
    cases h
    rw [Err.join_eq_none] at hj
    have hst : st.errs = [] := by
      split at hj
      · next hnil =>
        subst hnil
        cases hn
        rfl
      · exact hj
    exact (preflightNodes_ok hn hst).2

/-! ## Service plans -/

/-- A state without errors has collected the plans: no name was taken twice by different ones. -/
def PreflightState.Collects (st : PreflightState) (ps : List ServicePlan) : Prop :=
  st.errs = [] → st.collided = [] ∧ (∀ p ∈ ps, p.validate = .ok () ∧ st.plans[p.name]? = some p) ∧
    ∀ (name : String) p, st.plans[name]? = some p → p ∈ ps ∧ p.name = name

theorem collects_empty : ({} : PreflightState).Collects [] := by
  intro _
  simp

theorem collects_fail (st : PreflightState) (text : String) (ps : List ServicePlan) : (st.fail text).Collects ps := by
  intro he
  simp [PreflightState.fail] at he

theorem addServicePlan_collects {st : PreflightState} {ps : List ServicePlan} (component location : String) (p : ServicePlan)
    (h : st.Collects ps) : (addServicePlan component location st p).Collects (ps ++ [p]) := by
  intro he
  obtain ⟨hc, hall, honly⟩ := h ((addServicePlan_grows component location st p).errs_nil he)
  have hinsert : p.validate = .ok () → (∀ q ∈ ps, q.name = p.name → q = p) →
      st.collided = [] ∧ (∀ q ∈ ps ++ [p], q.validate = .ok () ∧ (st.plans.insert p.name p)[q.name]? = some q) ∧
        ∀ (name : String) q, (st.plans.insert p.name p)[name]? = some q → q ∈ ps ++ [p] ∧ q.name = name := by
    intro hv huniq
    refine ⟨hc, fun q hq => ?_, fun name q hq => ?_⟩
    · rcases List.mem_append.1 hq with hq | hq
      · refine ⟨(hall q hq).1, ?_⟩
        by_cases hn : q.name = p.name
        · rw [huniq q hq hn]
          simp
        · simp [Std.ExtTreeMap.getElem?_insert, (hall q hq).2, Ne.symm hn]
      · rw [List.mem_singleton.1 hq]
        exact ⟨hv, by simp⟩
    · rw [Std.ExtTreeMap.getElem?_insert] at hq
      split at hq
      · next hn =>
        obtain rfl : p = q := Option.some.inj hq
        exact ⟨by simp, by simpa using hn⟩
      · exact ⟨by simp [(honly name q hq).1], (honly name q hq).2⟩
  unfold addServicePlan at he ⊢
  cases hv : p.validate with
  | error e =>
    rw [hv] at he
    simp [PreflightState.fail] at he
  | ok u =>
    rw [hv] at he
    dsimp only at he ⊢
    rw [if_neg (by simp [hc])] at he ⊢
    cases hp : st.plans[p.name]? with
    | none =>
      refine hinsert hv fun q hq hn => ?_
      rw [← hn, (hall q hq).2] at hp
      cases hp
    | some existing =>
      rw [hp] at he
      dsimp only at he ⊢
      split at he
      · simp [PreflightState.fail] at he
      · next heq =>
        rw [if_neg heq]
        refine hinsert hv fun q hq hn => ?_
        rw [← hn, (hall q hq).2] at hp
        rw [Option.some.inj hp]
        exact not_not.1 heq

theorem addServicePlan_foldl_collects {st : PreflightState} {ps : List ServicePlan} (component location : String)
    (qs : List ServicePlan) (h : st.Collects ps) : (qs.foldl (addServicePlan component location) st).Collects (ps ++ qs) := by
  induction qs generalizing st ps with
  | nil => simpa using h
  | cons q qs ih =>
    have := ih (addServicePlan_collects component location q h)
    simpa using this

/-- The plans of a role are added under the role's own name. -/
theorem addServicePlans_collects {cfg : YanetConfigSpec} {yanet : YanetSpec} {ref : ComponentRef} {rc : ResolvedRole}
    {st : PreflightState} {ps : List ServicePlan} (location : String) (hk : rc.kind = ref.kind)
    (hn : rc.name = roleName ref.kind ref.operatorName) (h : st.Collects ps) :
    (addServicePlans Γ cfg yanet.boxType rc location st).Collects (ps ++ rolePlans Γ cfg yanet.boxType ref) := by
  have hr : resolveBoxServiceComponent Γ cfg yanet.boxType rc.kind rc.name =
      resolveBoxServiceComponent Γ cfg yanet.boxType ref.kind ref.operatorName := by
    rw [hk, hn]
    exact resolveBoxComponent_roleName Γ cfg _ ref.kind ref.operatorName
  unfold addServicePlans rolePlans
  rw [hr]
  cases resolveBoxServiceComponent Γ cfg yanet.boxType ref.kind ref.operatorName with
  | error e => exact collects_fail _ _ _
  | ok o =>
    cases o with
    | none => simpa using h
    | some declared => exact addServicePlan_foldl_collects _ _ _ h

theorem checkReplicas_collects {st : PreflightState} {ps : List ServicePlan} (rc : ResolvedRole) (ds : List Deployment)
    (h : st.Collects ps) : (ds.foldl (checkReplicas rc) st).Collects ps := by
  induction ds generalizing st with
  | nil => exact h
  | cons d ds ih =>
    refine ih ?_
    unfold checkReplicas
    split
    · split
      · exact collects_fail _ _ _
      · exact h
    · exact h

theorem preflightComponent_collects {acc : PreflightState × List RenderedWorkload} {ps : List ServicePlan} (ref : ComponentRef)
    (h : acc.1.Collects ps) :
    (preflightComponent Γ plan y node ctx acc ref).1.Collects (ps ++ rolePlans Γ plan.cfg y.spec.boxType ref) := by
  unfold preflightComponent resolveForPass
  dsimp only
  cases hr : resolveBoxComponent Γ plan.cfg y.spec ref.kind ref.operatorName with
  | error e => exact collects_fail _ _ _
  | ok o =>
    cases o with
    | none =>
      rw [rolePlans_none hr]
      simpa using h
    | some rc =>
      have has := resolveBoxComponent_ok hr
      dsimp only
      split
      · exact collects_fail _ _ _
      · split
        · exact collects_fail _ _ _
        · exact addServicePlans_collects _ has.kind has.name (checkReplicas_collects _ _ h)

theorem preflightUnmatched_collects {st : PreflightState} {ps : List ServicePlan} (ref : ComponentRef) (h : st.Collects ps) :
    (preflightUnmatched Γ plan y st ref).Collects (ps ++ rolePlans Γ plan.cfg y.spec.boxType ref) := by
  unfold preflightUnmatched
  cases hr : resolveBoxComponent Γ plan.cfg y.spec ref.kind ref.operatorName with
  | error e => exact collects_fail _ _ _
  | ok o =>
    cases o with
    | none =>
      rw [rolePlans_none hr]
      simpa using h
    | some rc =>
      have has := resolveBoxComponent_ok hr
      exact addServicePlans_collects _ has.kind has.name h

theorem preflightComponents_collects {acc : PreflightState × List RenderedWorkload} {ps : List ServicePlan}
    (refs : List ComponentRef) (h : acc.1.Collects ps) :
    (refs.foldl (preflightComponent Γ plan y node ctx) acc).1.Collects
      (ps ++ refs.flatMap (rolePlans Γ plan.cfg y.spec.boxType)) := by
  induction refs generalizing acc ps with
  | nil => simpa using h
  | cons ref refs ih =>
    rw [List.foldl_cons, List.flatMap_cons, ← List.append_assoc]
    exact ih (preflightComponent_collects ref h)

theorem preflightUnmatched_foldl_collects {st : PreflightState} {ps : List ServicePlan} (refs : List ComponentRef)
    (h : st.Collects ps) :
    (refs.foldl (preflightUnmatched Γ plan y) st).Collects (ps ++ refs.flatMap (rolePlans Γ plan.cfg y.spec.boxType)) := by
  induction refs generalizing st ps with
  | nil => simpa using h
  | cons ref refs ih =>
    rw [List.foldl_cons, List.flatMap_cons, ← List.append_assoc]
    exact ih (preflightUnmatched_collects ref h)

/-- Every node adds the same plans again. -/
theorem preflightNodes_collects {nodes : List Node} {st st' : PreflightState} {ws : List (Node × List RenderedWorkload)}
    {ps : List ServicePlan} (h : st.Collects ps) (hn : preflightNodes Γ plan y nodes st = .ok (st', ws)) :
    st'.Collects (ps ++ nodes.flatMap fun _ => plan.enabled.flatMap (rolePlans Γ plan.cfg y.spec.boxType)) := by
  induction nodes generalizing st ws ps with
  | nil =>
    cases hn
    simpa using h
  | cons node nodes ih =>
    unfold preflightNodes at hn
    cases hc : nodeContext Γ plan y node with
    | error e =>
      rw [hc] at hn
      cases hn
    | ok ctx =>
      rw [hc] at hn
      dsimp only at hn
      obtain ⟨⟨st1, rest⟩, hrest, hn⟩ := bind_eq_ok.1 hn
      cases hn
      rw [List.flatMap_cons, ← List.append_assoc]
      exact ih (preflightComponents_collects plan.enabled h) hrest

/-- A preflight that is accepted: its plans are the plans of the wired roles, all of them valid and under their own names. -/
theorem preflightPlans_plans {nodes : List Node} {plans : StrMap ServicePlan} {ws : List (Node × List RenderedWorkload)}
    (h : preflightPlans Γ plan y nodes = .ok (plans, ws)) :
    (∀ p ∈ plan.enabled.flatMap (rolePlans Γ plan.cfg y.spec.boxType), p.validate = .ok () ∧ plans[p.name]? = some p) ∧
      ∀ (name : String) p, plans[name]? = some p →
        p ∈ plan.enabled.flatMap (rolePlans Γ plan.cfg y.spec.boxType) ∧ p.name = name := by
  unfold preflightPlans at h
  obtain ⟨⟨st, ws'⟩, hn, h⟩ := bind_eq_ok.1 h
  dsimp only at h
  have hcollects := preflightNodes_collects collects_empty hn
  split at h
  · cases h
  · next hj =>
    cases h
    rw [Err.join_eq_none] at hj
    by_cases hnil : nodes = []
    · rw [if_pos hnil] at hj ⊢
      subst hnil
      have hall := (preflightUnmatched_foldl_collects plan.enabled hcollects hj).2
      simpa using hall
    · rw [if_neg hnil] at hj ⊢
      obtain ⟨node, hnode⟩ := List.exists_mem_of_ne_nil nodes hnil
      obtain ⟨-, hall, honly⟩ := hcollects hj
      refine ⟨fun p hp => hall p ?_, fun name p hp => ⟨?_, (honly name p hp).2⟩⟩
      · exact List.mem_append_right _ (List.mem_flatMap.2 ⟨node, hnode, hp⟩)
      · have := (honly name p hp).1
        rw [List.nil_append] at this
        exact (List.mem_flatMap.1 this).elim fun _ hx => hx.2

end

end YanetOperator
