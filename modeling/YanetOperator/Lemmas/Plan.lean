import YanetOperator.Lemmas.PassTrace

/-!
# The plan of a pass

`PlanAccepted` says what `preflightResources` asks of a plan before the placement guard: everything that is wired resolves, and
renders on every node, and the Service plans are valid and agree. The preflight accepts a plan exactly when this holds.
-/

namespace YanetOperator

open Prog Check

/-! ## Acceptance -/

/-- The Service plans of the roles of a pass. -/
def planServices (Γ : Platform) (plan : PassPlan) (y : Yanet) : List ServicePlan :=
  plan.enabled.flatMap (rolePlans Γ plan.cfg y.spec.boxType)

/-- A component passes on a node: it resolves and renders, an enabled controlplane keeps a NUMA domain, and a dataplane has at most
one replica. -/
def ComponentAccepted (Γ : Platform) (plan : PassPlan) (y : Yanet) (ctx : BuildContext) (ref : ComponentRef) : Prop :=
  ∃ o, resolveForPass Γ plan y ref = .ok o ∧ ∀ rc, o = some rc →
    ∃ ds, renderDeployments Γ ctx rc (newPatchRegistry plan.cfg.patches) = .ok ds ∧
      ¬(ref.kind = .controlplane ∧ rc.enabled = true ∧ plan.installationEnabled = true ∧ ds = []) ∧
      (rc.kind = .dataplane → ∀ d ∈ ds, ∀ n,
        (normalizeDeploymentReplicas d rc.enabled plan.installationEnabled).spec.replicas = some n → n ≤ 1)

/-- The Services of a component can be planned. -/
def ServicesResolve (Γ : Platform) (plan : PassPlan) (y : Yanet) (ref : ComponentRef) : Prop :=
  ∀ rc, resolveForPass Γ plan y ref = .ok (some rc) →
    ∃ o, resolveBoxServiceComponent Γ plan.cfg y.spec.boxType ref.kind ref.operatorName = .ok o

/-- A plan that passes every check of the preflight before the placement guard. -/
structure PlanAccepted (Γ : Platform) (plan : PassPlan) (y : Yanet) (nodes : List Node) : Prop where
  resolves : ∀ ref ∈ plan.enabled, ∃ o, resolveForPass Γ plan y ref = .ok o
  renders : ∀ node ∈ nodes, ∃ ctx, nodeContext Γ plan y node = .ok ctx ∧ ∀ ref ∈ plan.enabled, ComponentAccepted Γ plan y ctx ref
  services : ∀ ref ∈ plan.enabled, ServicesResolve Γ plan y ref
  valid : ∀ p ∈ planServices Γ plan y, p.validate = .ok ()
  agree : ∀ p ∈ planServices Γ plan y, ∀ q ∈ planServices Γ plan y, p.name = q.name → p = q

section

variable {Γ : Platform} {plan : PassPlan} {y : Yanet} {node : Node} {ctx : BuildContext} {ref : ComponentRef}

theorem ComponentAccepted.renders (h : ComponentAccepted Γ plan y ctx ref) : Renders Γ plan y ctx ref := by
  obtain ⟨o, hr, hrender⟩ := h
  cases o with
  | none => exact Or.inl hr
  | some rc =>
    obtain ⟨ds, hds, -⟩ := hrender rc rfl
    exact Or.inr ⟨rc, ds, hr, hds⟩

/-- A component keeps the kind and the name of its reference. -/
theorem resolveForPass_role {rc : ResolvedComponent} (h : resolveForPass Γ plan y ref = .ok (some rc)) :
    rc.kind = ref.kind ∧ rc.name = roleName ref.kind ref.operatorName := by
  unfold resolveForPass at h
  cases hr : resolveBoxComponent Γ plan.cfg y.spec ref.kind ref.operatorName with
  | error e =>
    rw [hr] at h
    cases h
  | ok o =>
    rw [hr] at h
    cases o with
    | none => cases h
    | some rc0 =>
      cases h
      exact ⟨(resolveBoxComponent_ok hr).kind, (resolveBoxComponent_ok hr).name⟩

/-- The Services of a component are resolved under its reference. -/
theorem resolveBoxServiceComponent_role {rc : ResolvedRole} (hk : rc.kind = ref.kind)
    (hn : rc.name = roleName ref.kind ref.operatorName) :
    resolveBoxServiceComponent Γ plan.cfg y.spec.boxType rc.kind rc.name =
      resolveBoxServiceComponent Γ plan.cfg y.spec.boxType ref.kind ref.operatorName := by
  rw [hk, hn]
  exact resolveBoxComponent_roleName Γ plan.cfg _ ref.kind ref.operatorName

/-! ## An accepted preflight -/

theorem checkReplicas_ok {rc : ResolvedRole} {st : PreflightState} {ds : List Deployment} (hk : rc.kind = .dataplane)
    (he : (ds.foldl (checkReplicas rc) st).errs = []) : ∀ d ∈ ds, ∀ n, d.spec.replicas = some n → n ≤ 1 := by
  induction ds generalizing st with
  | nil => exact fun d hd => nomatch hd
  | cons d ds ih =>
    rw [List.foldl_cons] at he
    intro x hx n hn
    rcases List.mem_cons.1 hx with rfl | hx
    · have hst := (grows_foldl (checkReplicas_grows rc) ds _).errs_nil he
      by_contra hlt
      rw [checkReplicas, hn] at hst
      dsimp only at hst
      rw [if_pos ⟨hk, by omega⟩] at hst
      simp [PreflightState.fail] at hst
    · exact ih he x hx n hn

theorem addServicePlans_ok {cfg : YanetConfigSpec} {boxType location : String} {rc : ResolvedRole} {st : PreflightState}
    (he : (addServicePlans Γ cfg boxType rc location st).errs = []) :
    ∃ o, resolveBoxServiceComponent Γ cfg boxType rc.kind rc.name = .ok o := by
  unfold addServicePlans at he
  cases hr : resolveBoxServiceComponent Γ cfg boxType rc.kind rc.name with
  | ok o => exact ⟨o, rfl⟩
  | error e =>
    rw [hr] at he
    simp [PreflightState.fail] at he

/-- A component that adds no error passes. -/
theorem preflightComponent_accepted {acc : PreflightState × List RenderedWorkload}
    (he : (preflightComponent Γ plan y node ctx acc ref).1.errs = []) :
    ComponentAccepted Γ plan y ctx ref ∧ ServicesResolve Γ plan y ref := by
  unfold preflightComponent at he
  dsimp only at he
  cases hr : resolveForPass Γ plan y ref with
  | error e =>
    rw [hr] at he
    simp [PreflightState.fail] at he
  | ok o =>
    cases o with
    | none => exact ⟨⟨none, hr, fun rc hrc => by cases hrc⟩, fun rc hrc => by rw [hr] at hrc; cases hrc⟩
    | some rc =>
      rw [hr] at he
      dsimp only at he
      cases hd : renderDeployments Γ ctx rc (newPatchRegistry plan.cfg.patches) with
      | error e =>
        rw [hd] at he
        simp [PreflightState.fail] at he
      | ok ds =>
        rw [hd] at he
        dsimp only at he
        split at he
        · simp [PreflightState.fail] at he
        · next hnuma =>
          have hservices := addServicePlans_ok he
          have hreplicas := (addServicePlans_grows _ _ _ _ _ _).errs_nil he
          refine ⟨⟨some rc, hr, fun rc' hrc => ?_⟩, fun rc' hrc => ?_⟩
          · cases hrc
            refine ⟨ds, hd, hnuma, fun hk d hmem => ?_⟩
            exact checkReplicas_ok hk hreplicas _ (List.mem_map_of_mem hmem)
          · rw [hr] at hrc
            cases hrc
            obtain ⟨hk, hn⟩ := resolveForPass_role hr
            rwa [resolveBoxServiceComponent_role hk hn] at hservices

/-- The components of a node when the loop over them adds no error. -/
theorem preflightComponents_accepted {refs : List ComponentRef} {acc : PreflightState × List RenderedWorkload}
    (he : (refs.foldl (preflightComponent Γ plan y node ctx) acc).1.errs = []) :
    ∀ ref ∈ refs, ComponentAccepted Γ plan y ctx ref ∧ ServicesResolve Γ plan y ref := by
  induction refs generalizing acc with
  | nil => exact fun ref href => nomatch href
  | cons r refs ih =>
    rw [List.foldl_cons] at he
    intro ref href
    rcases List.mem_cons.1 href with rfl | href
    · exact preflightComponent_accepted (preflightComponents_ok he).1
    · exact ih he ref href

theorem preflightNodes_accepted {nodes : List Node} {st st' : PreflightState} {ws : List (Node × List RenderedWorkload)}
    (h : preflightNodes Γ plan y nodes st = .ok (st', ws)) (he : st'.errs = []) :
    ∀ node ∈ nodes, ∃ ctx, nodeContext Γ plan y node = .ok ctx ∧
      ∀ ref ∈ plan.enabled, ComponentAccepted Γ plan y ctx ref ∧ ServicesResolve Γ plan y ref := by
  induction nodes generalizing st ws with
  | nil => exact fun node hnode => nomatch hnode
  | cons n nodes ih =>
    unfold preflightNodes at h
    cases hc : nodeContext Γ plan y n with
    | error e =>
      rw [hc] at h
      cases h
    | ok ctx =>
      rw [hc] at h
      dsimp only at h
      obtain ⟨⟨st1, rest⟩, hrest, h⟩ := bind_eq_ok.1 h
      cases h
      intro node hnode
      rcases List.mem_cons.1 hnode with rfl | hnode
      · exact ⟨ctx, hc, preflightComponents_accepted (preflightNodes_ok hrest he).1⟩
      · exact ih hrest node hnode

/-- The components of a plan without nodes. -/
theorem preflightUnmatched_accepted {refs : List ComponentRef} {st : PreflightState}
    (he : (refs.foldl (preflightUnmatched Γ plan y) st).errs = []) :
    ∀ ref ∈ refs, (∃ o, resolveForPass Γ plan y ref = .ok o) ∧ ServicesResolve Γ plan y ref := by
  have hgrows (st : PreflightState) (ref : ComponentRef) : st.Grows (preflightUnmatched Γ plan y st ref) := by
    unfold preflightUnmatched
    split
    · exact .fail _ _
    · exact .refl _
    · exact addServicePlans_grows _ _ _ _ _ _
  induction refs generalizing st with
  | nil => exact fun ref href => nomatch href
  | cons r refs ih =>
    rw [List.foldl_cons] at he
    intro ref href
    rcases List.mem_cons.1 href with rfl | href
    · have hst := (grows_foldl hgrows refs _).errs_nil he
      unfold preflightUnmatched at hst
      unfold ServicesResolve resolveForPass
      cases hr : resolveBoxComponent Γ plan.cfg y.spec ref.kind ref.operatorName with
      | error e =>
        rw [hr] at hst
        simp [PreflightState.fail] at hst
      | ok o =>
        cases o with
        | none => exact ⟨⟨none, rfl⟩, fun rc hrc => by cases hrc⟩
        | some rc0 =>
          rw [hr] at hst
          refine ⟨⟨_, rfl⟩, fun rc _ => ?_⟩
          have has := resolveBoxComponent_ok hr
          have hservices := addServicePlans_ok hst
          rwa [resolveBoxServiceComponent_role has.kind has.name] at hservices
    · exact ih he ref href

theorem planAccepted_of_preflightPlans {nodes : List Node} {plans : StrMap ServicePlan} {ws : List (Node × List RenderedWorkload)}
    (h : preflightPlans Γ plan y nodes = .ok (plans, ws)) : PlanAccepted Γ plan y nodes := by
  obtain ⟨hplans, -⟩ := preflightPlans_plans h
  have hagree : ∀ p ∈ planServices Γ plan y, ∀ q ∈ planServices Γ plan y, p.name = q.name → p = q := by
    intro p hp q hq hname
    have hp' := (hplans p hp).2
    rw [hname, (hplans q hq).2] at hp'
    exact (Option.some.inj hp').symm
  have hvalid : ∀ p ∈ planServices Γ plan y, p.validate = .ok () := fun p hp => (hplans p hp).1
  unfold preflightPlans at h
  obtain ⟨⟨st, ws'⟩, hn, h⟩ := bind_eq_ok.1 h
  dsimp only at h
  split at h
  · cases h
  · next hj =>
    rw [Err.join_eq_none] at hj
    by_cases hnil : nodes = []
    · rw [if_pos hnil] at hj
      have hrefs := preflightUnmatched_accepted hj
      exact ⟨fun ref href => (hrefs ref href).1, by simp [hnil], fun ref href => (hrefs ref href).2, hvalid, hagree⟩
    · rw [if_neg hnil] at hj
      have hnodes := preflightNodes_accepted hn hj
      obtain ⟨node, hnode⟩ := List.exists_mem_of_ne_nil nodes hnil
      obtain ⟨ctx, -, hrefs⟩ := hnodes node hnode
      refine ⟨fun ref href => ?_, fun node hnode => ?_, fun ref href => (hrefs ref href).2, hvalid, hagree⟩
      · obtain ⟨o, hr, -⟩ := (hrefs ref href).1
        exact ⟨o, hr⟩
      · obtain ⟨ctx, hctx, hrefs⟩ := hnodes node hnode
        exact ⟨ctx, hctx, fun ref href => (hrefs ref href).1⟩

/-! ## The preflight of an accepted plan -/

/-- A state without errors whose plans are among the given ones. -/
structure PreflightState.Clean (st : PreflightState) (ps : List ServicePlan) : Prop where
  errs : st.errs = []
  collided : st.collided = []
  plans : ∀ (name : String) p, st.plans[name]? = some p → p ∈ ps ∧ p.name = name

theorem clean_empty (ps : List ServicePlan) : ({} : PreflightState).Clean ps := ⟨rfl, rfl, by simp⟩

theorem addServicePlan_clean {st : PreflightState} {ps : List ServicePlan} (component location : String) {p : ServicePlan}
    (hagree : ∀ p ∈ ps, ∀ q ∈ ps, p.name = q.name → p = q) (hp : p ∈ ps) (hvalid : p.validate = .ok ()) (h : st.Clean ps) :
    (addServicePlan component location st p).Clean ps := by
  have hinsert : ({ st with plans := st.plans.insert p.name p } : PreflightState).Clean ps := by
    refine ⟨h.errs, h.collided, fun name q hq => ?_⟩
    dsimp only at hq
    rw [Std.ExtTreeMap.getElem?_insert] at hq
    split at hq
    · next hname =>
      obtain rfl : p = q := Option.some.inj hq
      exact ⟨hp, by simpa using hname⟩
    · exact h.plans name q hq
  unfold addServicePlan
  rw [hvalid]
  dsimp only
  rw [if_neg (by simp [h.collided])]
  cases hfound : st.plans[p.name]? with
  | none => exact hinsert
  | some existing =>
    obtain ⟨hmem, hname⟩ := h.plans _ _ hfound
    dsimp only
    rw [if_neg (not_not_intro (hagree existing hmem p hp hname))]
    exact hinsert

theorem checkReplicas_foldl_eq {rc : ResolvedRole} (st : PreflightState) {ds : List Deployment}
    (h : rc.kind = .dataplane → ∀ d ∈ ds, ∀ n, d.spec.replicas = some n → n ≤ 1) : ds.foldl (checkReplicas rc) st = st := by
  induction ds with
  | nil => rfl
  | cons d ds ih =>
    have hd : checkReplicas rc st d = st := by
      unfold checkReplicas
      split
      · next n hn =>
        rw [if_neg]
        rintro ⟨hk, hgt⟩
        have := h hk d List.mem_cons_self n hn
        omega
      · rfl
    rw [List.foldl_cons, hd]
    exact ih fun hk x hx => h hk x (List.mem_cons_of_mem d hx)

/-- The Services of a component of an accepted plan are added without an error. -/
theorem addServicePlans_clean {st : PreflightState} {rc : ResolvedRole} (location : String)
    (hagree : ∀ p ∈ planServices Γ plan y, ∀ q ∈ planServices Γ plan y, p.name = q.name → p = q)
    (hvalid : ∀ p ∈ planServices Γ plan y, p.validate = .ok ()) (href : ref ∈ plan.enabled) (hk : rc.kind = ref.kind)
    (hn : rc.name = roleName ref.kind ref.operatorName)
    (hresolve : ∃ o, resolveBoxServiceComponent Γ plan.cfg y.spec.boxType ref.kind ref.operatorName = .ok o)
    (h : st.Clean (planServices Γ plan y)) :
    (addServicePlans Γ plan.cfg y.spec.boxType rc location st).Clean (planServices Γ plan y) := by
  obtain ⟨o, ho⟩ := hresolve
  unfold addServicePlans
  rw [resolveBoxServiceComponent_role hk hn, ho]
  cases o with
  | none => exact h
  | some declared =>
    have hsub : ∀ p ∈ buildServices Γ y.spec.boxType declared.toResolvedRole, p ∈ planServices Γ plan y := by
      intro p hp
      refine List.mem_flatMap.2 ⟨ref, href, ?_⟩
      rw [rolePlans, ho]
      exact hp
    dsimp only
    generalize buildServices Γ y.spec.boxType declared.toResolvedRole = qs at hsub
    induction qs generalizing st with
    | nil => exact h
    | cons q qs ih =>
      rw [List.foldl_cons]
      have hq := hsub q List.mem_cons_self
      exact ih (addServicePlan_clean _ _ hagree hq (hvalid q hq) h) fun p hp => hsub p (List.mem_cons_of_mem q hp)

section

variable {nodes : List Node}

theorem preflightComponent_clean {acc : PreflightState × List RenderedWorkload} (h : PlanAccepted Γ plan y nodes)
    (href : ref ∈ plan.enabled) (hc : ComponentAccepted Γ plan y ctx ref) (hst : acc.1.Clean (planServices Γ plan y)) :
    (preflightComponent Γ plan y node ctx acc ref).1.Clean (planServices Γ plan y) := by
  obtain ⟨o, hr, hrender⟩ := hc
  unfold preflightComponent
  rw [hr]
  cases o with
  | none => exact hst
  | some rc =>
    obtain ⟨ds, hds, hnuma, hreplicas⟩ := hrender rc rfl
    obtain ⟨hk, hn⟩ := resolveForPass_role hr
    dsimp only
    rw [hds]
    dsimp only
    rw [if_neg hnuma, checkReplicas_foldl_eq]
    · exact addServicePlans_clean _ h.agree h.valid href hk hn (h.services ref href rc hr) hst
    · intro hk d hd
      obtain ⟨d0, hd0, rfl⟩ := List.mem_map.1 hd
      exact hreplicas hk d0 hd0

theorem preflightNodes_clean {ns : List Node} (h : PlanAccepted Γ plan y nodes) (hsub : ∀ node ∈ ns, node ∈ nodes)
    {st : PreflightState} (hst : st.Clean (planServices Γ plan y)) :
    ∃ st' ws, preflightNodes Γ plan y ns st = .ok (st', ws) ∧ st'.Clean (planServices Γ plan y) := by
  induction ns generalizing st with
  | nil => exact ⟨st, [], rfl, hst⟩
  | cons node ns ih =>
    obtain ⟨ctx, hctx, hrefs⟩ := h.renders node (hsub node List.mem_cons_self)
    have hloop : (plan.enabled.foldl (preflightComponent Γ plan y node ctx) (st, [])).1.Clean (planServices Γ plan y) :=
      List.foldlRecOn (motive := fun (acc : PreflightState × List RenderedWorkload) => acc.1.Clean (planServices Γ plan y)) plan.enabled _ hst
        fun acc hacc ref href => preflightComponent_clean h href (hrefs ref href) hacc
    obtain ⟨st', ws, hrest, hclean⟩ := ih (fun n hn => hsub n (List.mem_cons_of_mem node hn)) hloop
    refine ⟨st', (node, (plan.enabled.foldl (preflightComponent Γ plan y node ctx) (st, [])).2) :: ws, ?_, hclean⟩
    rw [preflightNodes, hctx]
    dsimp only
    rw [hrest]
    rfl

theorem preflightUnmatched_clean {st : PreflightState} (h : PlanAccepted Γ plan y nodes) (href : ref ∈ plan.enabled)
    (hst : st.Clean (planServices Γ plan y)) : (preflightUnmatched Γ plan y st ref).Clean (planServices Γ plan y) := by
  obtain ⟨o, ho⟩ := h.resolves ref href
  have hservices := h.services ref href
  unfold ServicesResolve resolveForPass at hservices
  unfold resolveForPass at ho
  unfold preflightUnmatched
  cases hr : resolveBoxComponent Γ plan.cfg y.spec ref.kind ref.operatorName with
  | error e =>
    rw [hr] at ho
    cases ho
  | ok o' =>
    cases o' with
    | none => exact hst
    | some rc0 =>
      rw [hr] at hservices
      have has := resolveBoxComponent_ok hr
      exact addServicePlans_clean _ h.agree h.valid href has.kind has.name (hservices _ rfl) hst

/-- The preflight of a plan up to the placement guard: it succeeds exactly on an accepted plan. -/
theorem preflightPlans_iff : (∃ plans ws, preflightPlans Γ plan y nodes = .ok (plans, ws)) ↔ PlanAccepted Γ plan y nodes := by
  constructor
  · rintro ⟨plans, ws, h⟩
    exact planAccepted_of_preflightPlans h
  · intro h
    obtain ⟨st, ws, hn, hst⟩ := preflightNodes_clean h (fun _ hn => hn) (clean_empty _)
    have hend : (if nodes = [] then plan.enabled.foldl (preflightUnmatched Γ plan y) st else st).errs = [] := by
      split
      · exact (List.foldlRecOn (motive := fun (st : PreflightState) => st.Clean (planServices Γ plan y)) plan.enabled _ hst
          fun st hst ref href => preflightUnmatched_clean h href hst).errs
      · exact hst.errs
    refine ⟨(if nodes = [] then plan.enabled.foldl (preflightUnmatched Γ plan y) st else st).plans, ws, ?_⟩
    unfold preflightPlans
    refine Check.bind_eq_ok.2 ⟨(st, ws), hn, ?_⟩
    dsimp only
    rw [Err.join_eq_none.2 hend]
    rfl

end

end

/-! ## What a plan renders -/

/-- The workloads of a plan, node by node. -/
def planWorkloads (Γ : Platform) (plan : PassPlan) (y : Yanet) (nodes : List Node) : List (Node × List RenderedWorkload) :=
  nodes.map fun node => (node, match nodeContext Γ plan y node with
    | .ok ctx => plan.enabled.flatMap (passWorkloads Γ plan y ctx)
    | .error _ => [])

/-- The names of the Deployments of workloads. -/
def workloadNames (ws : List RenderedWorkload) : List String := ws.map fun w => w.deployment.metadata.name

/-- The names of the Deployments of a plan. -/
def planDeployments (Γ : Platform) (plan : PassPlan) (y : Yanet) (nodes : List Node) : List String :=
  (planWorkloads Γ plan y nodes).flatMap fun w => workloadNames w.2

/-- The names of the inline ConfigMaps of a component; a sidecar has them in its dataplane. -/
def componentConfigMaps (Γ : Platform) (plan : PassPlan) (y : Yanet) (ctx : BuildContext) (ref : ComponentRef) : List String :=
  match resolveForPass Γ plan y ref with
  | .ok (some rc) => if rc.isColocated then [] else (inlineConfigMaps Γ ctx rc).keys
  | _ => []

/-- The names of the inline ConfigMaps of a plan. -/
def planConfigMaps (Γ : Platform) (plan : PassPlan) (y : Yanet) (nodes : List Node) : List String :=
  nodes.flatMap fun node => match nodeContext Γ plan y node with
    | .ok ctx => plan.enabled.flatMap (componentConfigMaps Γ plan y ctx)
    | .error _ => []

section

variable {Γ : Platform} {plan : PassPlan} {y : Yanet} {nodes : List Node} {node : Node} {ctx : BuildContext} {ref : ComponentRef}

theorem preflightPlans_workloads {plans : StrMap ServicePlan} {ws : List (Node × List RenderedWorkload)}
    (h : preflightPlans Γ plan y nodes = .ok (plans, ws)) : ws = planWorkloads Γ plan y nodes := by
  obtain ⟨hfst, hws⟩ := preflightPlans_ok h
  rw [planWorkloads, ← hfst, List.map_map]
  refine (List.map_id ws).symm.trans (List.map_congr_left fun w hw => ?_)
  obtain ⟨ctx, hctx, -, hw2⟩ := hws w hw
  simp only [Function.comp_apply, hctx]
  rw [← hw2]
  rfl

/-- A workload that the apply loop writes is a workload of the plan. -/
theorem Planned.mem_planWorkloads {rc : ResolvedComponent} {d : Deployment} (h : Planned Γ y plan nodes node ctx rc d) :
    ∃ w ∈ planWorkloads Γ plan y nodes, ({ deployment := d, component := rc } : RenderedWorkload) ∈ w.2 := by
  obtain ⟨ref, href, hr⟩ := h.component
  obtain ⟨ds, hds, d0, hd0, rfl⟩ := h.rendered
  refine ⟨_, List.mem_map_of_mem h.selected, ?_⟩
  rw [h.context]
  refine List.mem_flatMap.2 ⟨ref, href, ?_⟩
  rw [passWorkloads, hr]
  dsimp only
  rw [hds]
  exact List.mem_map_of_mem hd0

/-! ## The apply loop of an accepted plan -/

section

variable {σ : Type} {exec : σ → (c : Api.Call) → Api.Answer c × σ}

/-- An error of the apply loop that comes from writing an object, not from resolving or rendering it. -/
inductive ApplyErr (exec : σ → (c : Api.Call) → Api.Answer c × σ) (Γ : Platform) (y : Yanet) (plan : PassPlan) : Err → Prop where
  | inline (ctx : BuildContext) (rc : ResolvedComponent) (s : σ) (e : Err)
      (h : (run exec (applyInlineConfigMaps Γ y ctx rc plan.autoSync).run s).1 = .error e) : ApplyErr exec Γ y plan e
  | deployment (d : Deployment) (nodeName : String) (s : σ) (e : Err)
      (h : (run exec (applyDeployment d plan.autoSync plan.updateWindow nodeName) s).1.err = some e) : ApplyErr exec Γ y plan e

/-- A loop state after the given objects: its errors come from writing them, and without errors it wants to keep exactly them. -/
structure LoopState.Covers (exec : σ → (c : Api.Call) → Api.Answer c × σ) (Γ : Platform) (y : Yanet) (plan : PassPlan)
    (ds cms : List String) (st : LoopState) : Prop where
  errors : ∀ e ∈ st.errs, ApplyErr exec Γ y plan e
  deployments : st.errs = [] → ∀ name, name ∈ st.desired.deployments ↔ name ∈ ds
  configMaps : st.errs = [] → ∀ name, name ∈ st.desired.configMaps ↔ name ∈ cms

variable {s : σ} {acc : LoopState × NodeStatus} {ds cms : List String}

/-- A Deployment that was applied. -/
theorem LoopState.Covers.record {d : Deployment} {nodeName : String} {outcome : ApplyOutcome} {t : σ}
    (h : acc.1.Covers exec Γ y plan ds cms)
    (hrun : run exec (applyDeployment d plan.autoSync plan.updateWindow nodeName) s = (outcome, t)) (state : String) :
    (acc.1.record d outcome state).Covers exec Γ y plan (ds ++ [d.metadata.name]) cms := by
  refine ⟨fun e he => ?_, fun he name => ?_, fun he => h.configMaps (List.append_eq_nil_iff.1 he).1⟩
  · rcases List.mem_append.1 he with he | he
    · exact h.errors e he
    · exact .deployment d nodeName s e (by rw [hrun]; simpa using he)
  · simp [LoopState.record, h.deployments (List.append_eq_nil_iff.1 he).1 name, or_comm]

theorem applyRendered_covers (h : acc.1.Covers exec Γ y plan ds cms) (isControlplane configDrift : Bool) (d : Deployment) :
    Safe (answering exec) (fun _ _ => True) (fun r _ => r.1.Covers exec Γ y plan (ds ++ [d.metadata.name]) cms)
      (applyRendered plan node isControlplane configDrift acc d) s := by
  unfold applyRendered
  refine Safe.bind (safe_answering _ s) fun outcome t hrun => ?_
  dsimp only
  split
  · exact Safe.bind (safe_answering _ t) fun _ _ _ => h.record hrun _
  · exact h.record hrun _

theorem applyInlineConfigMaps_names (rc : ResolvedComponent) (autoSync : Bool) :
    Safe (answering exec) (fun _ _ => True) (onResult (fun r _ => r.1 = (inlineConfigMaps Γ ctx rc).keys)
      fun e _ => (run exec (applyInlineConfigMaps Γ y ctx rc autoSync).run s).1 = .error e)
      (applyInlineConfigMaps Γ y ctx rc autoSync).run s := by
  refine (safe_answering _ s).post fun r t hrun => ?_
  cases r with
  | error e => exact congrArg Prod.fst hrun
  | ok names =>
    unfold applyInlineConfigMaps at hrun
    rw [ExceptT.run_bind, run_bind] at hrun
    generalize run exec _ s = first at hrun
    obtain ⟨r, u⟩ := first
    cases r with
    | error e => cases hrun
    | ok drift =>
      cases hrun
      rfl

theorem applyComponent_covers (hr : Renders Γ plan y ctx ref) (h : acc.1.Covers exec Γ y plan ds cms) :
    Safe (answering exec) (fun _ _ => True)
      (fun r _ => r.1.Covers exec Γ y plan (ds ++ workloadNames (passWorkloads Γ plan y ctx ref))
        (cms ++ componentConfigMaps Γ plan y ctx ref)) (applyComponent Γ plan y node ctx acc ref) s := by
  unfold applyComponent componentConfigMaps
  dsimp only
  rcases hr with hnone | ⟨rc, rendered, hr, hd⟩
  · have hst (missing : List String) : ({ acc.1 with missingOperators := missing } : LoopState).Covers exec Γ y plan ds cms :=
      ⟨h.errors, h.deployments, h.configMaps⟩
    simpa [hnone, passWorkloads, workloadNames] using hst _
  · have hnames : workloadNames (passWorkloads Γ plan y ctx ref) =
        (rendered.map fun d => normalizeDeploymentReplicas d rc.enabled plan.installationEnabled).map fun d => d.metadata.name := by
      simp [workloadNames, passWorkloads, hr, hd, Function.comp_def]
    rw [hr, hnames]
    dsimp only
    split
    · next hcol =>
      rw [renderDeployments, if_pos hcol] at hd
      cases hd
      simpa using h
    · refine Safe.bind (applyInlineConfigMaps_names rc plan.autoSync) fun r t hinline => ?_
      cases r with
      | error e =>
        refine ⟨fun e' he => ?_, fun he => ?_, fun he => ?_⟩
        · rcases List.mem_append.1 he with he | he
          · exact h.errors e' he
          · rw [List.mem_singleton.1 he]
            exact .inline ctx rc s e hinline
        · simp at he
        · simp at he
      | ok inline =>
        obtain ⟨names, configDrift⟩ := inline
        obtain rfl : names = _ := hinline
        dsimp only
        rw [hd]
        dsimp only
        rw [← List.nil_append (List.map _ rendered)]
        refine Safe.foldlM_done (J := fun (done : List Deployment) (acc : LoopState × NodeStatus) _ => acc.1.Covers exec Γ y plan
          (ds ++ done.map fun d => d.metadata.name) (cms ++ (inlineConfigMaps Γ ctx rc).keys)) []
          (fun done d _ acc t hacc => ?_) ⟨h.errors, ?_, fun he name => ?_⟩
        · simpa using applyRendered_covers hacc _ _ d
        · simpa using h.deployments
        · simp [h.configMaps he name, or_comm]

/-- The apply loop of an accepted plan comes to its end, and a state without errors keeps exactly what the plan renders. -/
theorem applyNodes_covers (exec : σ → (c : Api.Call) → Api.Answer c × σ) (s : σ) (h : PlanAccepted Γ plan y nodes) :
    Safe (answering exec) (fun _ _ => True)
      (onResult (fun st _ => st.Covers exec Γ y plan (planDeployments Γ plan y nodes) (planConfigMaps Γ plan y nodes)) fun _ _ => False)
      (nodes.foldlM (applyNode Γ plan y) {}).run s := by
  refine Safe.tryFoldlM_done (J := fun done (st : LoopState) _ => st.Covers exec Γ y plan (planDeployments Γ plan y done)
    (planConfigMaps Γ plan y done)) [] (fun done node hnode st t hst => ?_) ⟨nofun, fun _ _ => Iff.rfl, fun _ _ => Iff.rfl⟩
  obtain ⟨ctx, hctx, hrefs⟩ := h.renders node hnode
  unfold applyNode
  rw [hctx]
  dsimp only
  have hds : planDeployments Γ plan y (done ++ [node]) = planDeployments Γ plan y done ++
      workloadNames (([] ++ plan.enabled).flatMap (passWorkloads Γ plan y ctx)) := by
    simp [planDeployments, planWorkloads, hctx]
  have hcms : planConfigMaps Γ plan y (done ++ [node]) = planConfigMaps Γ plan y done ++
      ([] ++ plan.enabled).flatMap (componentConfigMaps Γ plan y ctx) := by
    simp [planConfigMaps, hctx]
  rw [hds, hcms]
  refine Safe.tryBind (Safe.tryLift (Safe.foldlM_done (J := fun refs (acc : LoopState × NodeStatus) _ => acc.1.Covers exec Γ y plan
    (planDeployments Γ plan y done ++ workloadNames (refs.flatMap (passWorkloads Γ plan y ctx)))
    (planConfigMaps Γ plan y done ++ refs.flatMap (componentConfigMaps Γ plan y ctx))) []
    (fun refs ref href acc t hacc => ?_) (by simpa [workloadNames] using hst))) fun acc t hacc =>
      ⟨hacc.errors, hacc.deployments, hacc.configMaps⟩
  simpa [workloadNames] using applyComponent_covers (hrefs ref href).renders hacc

end

end

end YanetOperator
