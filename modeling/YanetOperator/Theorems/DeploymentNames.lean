import YanetOperator.Lemmas.Admission
import YanetOperator.Lemmas.Preflight
import YanetOperator.Theorems.Rendering

/-!
# Names of the Deployments of a node

The Deployments of one node share a name only when an operator has the name of a controlplane instance: the suffix of the
fan-out is joined to the role with the separator that an operator name may contain.
-/

namespace YanetOperator

open Check

/-! ## Names -/

/-- The part of a Deployment name before the role. -/
def namePrefix (Γ : Platform) (ctx : BuildContext) : String :=
  if ctx.nodeName ≠ "" then ctx.yanetName ++ "-" ++ Γ.shortNodeKey ctx.nodeName ++ "-" else ctx.yanetName ++ "-"

/-- The part of a Deployment name that says the role and the index. -/
def instanceSuffix (c : ResolvedRole) : Option Nat → String
  | some i => toLowerKebab c.name ++ "-numa" ++ toString i
  | none => toLowerKebab c.name

theorem instanceName_eq (Γ : Platform) (ctx : BuildContext) (c : ResolvedRole) (numa : Option Nat) :
    instanceName Γ ctx c numa = namePrefix Γ ctx ++ instanceSuffix c numa := by
  have hs : singleDeploymentName Γ ctx c = namePrefix Γ ctx ++ toLowerKebab c.name := by
    unfold singleDeploymentName namePrefix
    split <;> rfl
  cases numa with
  | none => exact hs
  | some i => simp only [instanceName, numaDeploymentName, instanceSuffix, hs, String.append_assoc]

theorem renderDeployments_names {Γ : Platform} {ctx : BuildContext} {component : ResolvedComponent} {registry : PatchRegistry}
    {ds : List Deployment} (hk : component.kind ≠ .sidecar)
    (hn : component.kind = .dataplane → component.name = ComponentKind.dataplane.text)
    (h : renderDeployments Γ ctx component registry = .ok ds) :
    ds.map (·.metadata.name) =
      (instances component.toResolvedRole).map fun numa => namePrefix Γ ctx ++ instanceSuffix component.toResolvedRole numa := by
  obtain ⟨built, -, hl, hli, hall⟩ := renderDeployments_ok hk hn h
  refine List.ext_getElem (by simp [hli]) ?_
  intro i h1 h2
  simp only [List.length_map] at h1 h2
  have hi := hall i _ _ _ (List.getElem?_eq_getElem h2) (List.getElem?_eq_getElem (by omega)) (List.getElem?_eq_getElem h1)
  obtain ⟨c, hc, hid⟩ := hi.rendered.composed
  rw [List.getElem_map, List.getElem_map, hid.name, hc.metadata, hi.skeleton.name, instanceName_eq]

/-- The indices of the controlplane that an installation renders. -/
def renderedNuma (cfg : YanetConfigSpec) (yanet : YanetSpec) : List Nat :=
  enabledNuma
    { kind := .controlplane
      name := "controlplane"
      numa := cfg.components.controlplane.numa.getD 0
      disabledNuma := resolveDisabledNuma cfg.components.controlplane.disabledNuma yanet }

/-- The name of a controlplane instance beside the other roles. -/
def numaRoleName (i : Nat) : String := "controlplane-numa" ++ toString i

/-- The names a wired role gives its Deployments. -/
def refNames (cfg : YanetConfigSpec) (yanet : YanetSpec) (ref : ComponentRef) : List String :=
  match ref.kind with
  | .controlplane => (renderedNuma cfg yanet).map numaRoleName
  | .dataplane => ["dataplane"]
  | .birdAdapter => ["bird-adapter"]
  | .operator => [ref.operatorName]
  | .sidecar => []

section

variable {Γ : Platform} {cfg : YanetConfigSpec} {y : Yanet} {enabled : List ComponentRef} {box : BoxType} {ctx : BuildContext}
  {ref : ComponentRef}

/-- The component of a wired reference of a pass, and its Deployments. -/
theorem resolveForPass_ok {plan : PassPlan} {rc : ResolvedComponent} (h : resolveForPass Γ plan y ref = .ok (some rc)) :
    ∃ rc0, resolveBoxComponent Γ plan.cfg y.spec ref.kind ref.operatorName = .ok (some rc0) ∧
      rc = { rc0 with enabled := rc0.enabled && plan.installationEnabled } := by
  unfold resolveForPass at h
  split at h
  · cases h
  · cases h
  · next rc0 hr =>
    cases h
    exact ⟨rc0, hr, rfl⟩

theorem resolveForPass_none {plan : PassPlan} (h : resolveForPass Γ plan y ref = .ok none) :
    resolveBoxComponent Γ plan.cfg y.spec ref.kind ref.operatorName = .ok none := by
  unfold resolveForPass at h
  split at h
  · cases h
  · assumption
  · cases h

/-- The names of the instances of a resolved role. -/
theorem instanceSuffix_names (hc : AdmittedConfig cfg) {rc : ResolvedComponent}
    (hr : resolveBoxComponent Γ cfg y.spec ref.kind ref.operatorName = .ok (some rc)) (hk : ref.kind ≠ .sidecar) :
    (instances rc.toResolvedRole).map (instanceSuffix rc.toResolvedRole) = refNames cfg y.spec ref := by
  have has := resolveBoxComponent_ok hr
  have hkind := has.kind
  have hname := has.name
  unfold refNames instances
  cases hrk : ref.kind with
  | sidecar => exact absurd hrk hk
  | controlplane =>
    rw [hrk] at hkind hname
    rw [hrk] at hr
    have hnuma : rc.numa = cfg.components.controlplane.numa.getD 0 := by
      have := congrArg ResolvedRole.numa has.core
      rwa [hrk] at this
    have hen : enabledNuma rc.toResolvedRole = renderedNuma cfg y.spec := by
      simp only [renderedNuma, enabledNuma, effectiveNuma, hnuma, resolveBoxComponent_disabledNuma hr]
    rw [if_pos hkind, hen, List.map_map]
    refine List.map_congr_left fun i _ => ?_
    have hcp : toLowerKebab "controlplane" ++ "-numa" = "controlplane-numa" := by decide
    rw [Function.comp_apply, instanceSuffix, hname, numaRoleName, ← hcp]
    rfl
  | dataplane =>
    rw [hrk] at hkind hname
    rw [if_neg (by rw [hkind]; decide)]
    have hdp : toLowerKebab "dataplane" = "dataplane" := by decide
    simp only [List.map_cons, List.map_nil, instanceSuffix, hname]
    exact congrArg (fun n => [n]) hdp
  | birdAdapter =>
    rw [hrk] at hkind hname
    rw [if_neg (by rw [hkind]; decide)]
    have hbird : toLowerKebab "birdAdapter" = "bird-adapter" := by decide
    simp only [List.map_cons, List.map_nil, instanceSuffix, hname]
    exact congrArg (fun n => [n]) hbird
  | operator =>
    rw [hrk] at hkind hname
    rw [if_neg (by rw [hkind]; decide)]
    obtain ⟨op, hm, hop⟩ := has.operator hrk
    have hlabel := toLowerKebab_label (hc.operatorLabel op hm)
    rw [hop] at hlabel
    simp only [List.map_cons, List.map_nil, instanceSuffix, hname, roleName, hlabel]

/-- The names of the workloads of a wired component. -/
theorem passWorkloads_names (hc : AdmittedConfig cfg) (hbox : findBoxType cfg y.spec.boxType = .ok box)
    (hw : box.wires ref.kind ref.operatorName) (hr : Renders Γ (passPlan y cfg enabled) y ctx ref) :
    (passWorkloads Γ (passPlan y cfg enabled) y ctx ref).map (·.deployment.metadata.name) =
      (refNames cfg y.spec ref).map (namePrefix Γ ctx ++ ·) := by
  rcases hr with hr | ⟨rc, ds, hr, hds⟩
  · exact absurd hw (resolveBoxComponent_none hbox (resolveForPass_none hr))
  · obtain ⟨rc0, hr0, rfl⟩ := resolveForPass_ok hr
    have has := resolveBoxComponent_ok hr0
    unfold passWorkloads
    rw [hr]
    dsimp only
    rw [hds]
    dsimp only
    rw [List.map_map]
    have hnorm : ((fun w : RenderedWorkload => w.deployment.metadata.name) ∘ fun d =>
        { deployment := normalizeDeploymentReplicas d (rc0.enabled && (passPlan y cfg enabled).installationEnabled)
            (passPlan y cfg enabled).installationEnabled,
          component := { rc0 with enabled := rc0.enabled && (passPlan y cfg enabled).installationEnabled } }) =
        fun d : Deployment => d.metadata.name := by
      funext d
      simp only [Function.comp_apply, normalizeDeploymentReplicas]
      split <;> rfl
    rw [hnorm]
    by_cases hk : ref.kind = .sidecar
    · rw [renderDeployments, if_pos (by simp [ResolvedRole.isColocated, has.kind, hk])] at hds
      cases hds
      simp [refNames, hk]
    · have hn : rc0.kind = .dataplane → rc0.name = ComponentKind.dataplane.text := by
        intro h
        rw [has.name, ← has.kind, h]
        rfl
      have hnames := fun hk' hn' => renderDeployments_names hk' hn' hds
      rw [hnames (fun e => hk (has.kind.symm.trans e)) hn, ← instanceSuffix_names hc hr0 hk, List.map_map]
      rfl

/-! ## The wired roles of a box -/

/-- The operators of the palette that a box wires. -/
def wiredOperators (cfg : YanetConfigSpec) (box : BoxType) : List OperatorSpec :=
  cfg.components.operators.filter fun o => (box.operators[o.name]?).isSome

/-- The references of a box that wires a controlplane, a dataplane and some sidecars. -/
def boxRefs (cfg : YanetConfigSpec) (box : BoxType) (sidecars : List ComponentRef) : List ComponentRef :=
  [{ kind := .controlplane }] ++ ({ kind := .dataplane } :: sidecars) ++
    (if box.components.birdAdapter = none then [] else [{ kind := .birdAdapter }]) ++
    (wiredOperators cfg box).map fun o => { kind := .operator, operatorName := o.name }

theorem enabledComponentsForBox_ok {boxName : String} (hbox : findBoxType cfg boxName = .ok box)
    (hcp : box.components.controlplane ≠ none) (hdp : box.components.dataplane ≠ none)
    (h : enabledComponentsForBox Γ cfg boxName = .ok enabled) :
    ∃ sidecars : List ComponentRef, enabled = boxRefs cfg box sidecars ∧
      (∀ r ∈ sidecars, r.kind = .sidecar) ∧ (∀ r ∈ enabled, box.wires r.kind r.operatorName) ∧
      ∀ name, box.operators[name]? ≠ none → ∃ o ∈ cfg.components.operators, o.name = name := by
  unfold enabledComponentsForBox at h
  obtain ⟨box', hbox', h⟩ := bind_eq_ok.1 h
  cases hbox.symm.trans hbox'
  obtain ⟨hdecl, h⟩ := seq_ok.1 h
  obtain ⟨dp, hdps, h⟩ := bind_eq_ok.1 h
  cases h
  obtain ⟨slot, hslot⟩ := Option.ne_none_iff_exists'.1 hdp
  unfold dataplaneRefs at hdps
  rw [hslot] at hdps
  obtain ⟨rs, hrs, hdps⟩ := bind_eq_ok.1 hdps
  cases hdps
  refine ⟨_, by rw [if_neg hcp]; rfl, ?_, ?_, ?_⟩
  · intro r hr
    obtain ⟨s, -, rfl⟩ := List.mem_map.1 hr
    rfl
  · intro r hr
    rw [if_neg hcp] at hr
    simp only [List.mem_append, List.mem_cons, List.not_mem_nil, or_false, List.mem_map] at hr
    rcases hr with ((rfl | rfl | ⟨s, hs, rfl⟩) | hr) | ⟨o, ho, rfl⟩
    · exact hcp
    · exact hdp
    · exact ⟨slot, hslot, Option.isSome_iff_ne_none.1 (List.mem_filter.1 hs).2⟩
    · split at hr
      · cases hr
      · next hb =>
        rw [List.mem_singleton.1 hr]
        exact hb
    · exact Option.isSome_iff_ne_none.1 (List.mem_filter.1 ho).2
  · intro name hname
    have hkey : name ∈ box.operators.keys := by
      rw [Std.ExtTreeMap.mem_keys]
      exact Std.ExtTreeMap.mem_iff_isSome_getElem?.2 (Option.isSome_iff_ne_none.2 hname)
    have hfound := forM_ok.1 hdecl name hkey
    unfold findOperator at hfound
    split at hfound
    · next o ho => exact ⟨o, List.mem_of_find?_eq_some ho, by simpa using List.find?_some ho⟩
    · cases hfound

/-- The names of all roles of a box. -/
def boxNames (cfg : YanetConfigSpec) (yanet : YanetSpec) (box : BoxType) : List String :=
  (renderedNuma cfg yanet).map numaRoleName ++
    ("dataplane" :: (if box.components.birdAdapter = none then [] else ["bird-adapter"]) ++
      (wiredOperators cfg box).map (·.name))

theorem flatMap_refNames {sidecars : List ComponentRef} (hs : ∀ r ∈ sidecars, r.kind = .sidecar) (yanet : YanetSpec) :
    (boxRefs cfg box sidecars).flatMap (refNames cfg yanet) = boxNames cfg yanet box := by
  have hnone : sidecars.flatMap (refNames cfg yanet) = [] := by
    rw [List.flatMap_eq_nil_iff]
    intro r hr
    simp [refNames, hs r hr]
  have hops : ∀ ops : List OperatorSpec, (ops.map fun o => { kind := .operator, operatorName := o.name : ComponentRef }).flatMap
      (refNames cfg yanet) = ops.map (·.name) := by
    intro ops
    induction ops with
    | nil => rfl
    | cons o ops ih =>
      rw [List.map_cons, List.flatMap_cons, ih]
      rfl
  unfold boxRefs boxNames
  rw [List.flatMap_append, List.flatMap_append, List.flatMap_append, List.flatMap_cons, List.flatMap_cons, hnone, hops]
  split <;> simp [refNames]

/-- Apart from an operator with the name of an instance, the names of a box are distinct. -/
theorem boxNames_nodup_iff (hc : AdmittedConfig cfg) (yanet : YanetSpec)
    (hdecl : ∀ name, box.operators[name]? ≠ none → ∃ o ∈ cfg.components.operators, o.name = name) :
    (boxNames cfg yanet box).Nodup ↔ ∀ i ∈ renderedNuma cfg yanet, box.operators[numaRoleName i]? = none := by
  have hhead : ∀ i, (numaRoleName i).toList.head? = some 'c' := by
    intro i
    rw [numaRoleName, String.toList_append]
    rfl
  have hnuma : ((renderedNuma cfg yanet).map numaRoleName).Nodup := by
    refine List.Nodup.map ?_ (List.Nodup.filter _ List.nodup_range)
    intro i j h
    have h' := congrArg String.toList h
    rw [numaRoleName, numaRoleName, String.toList_append, String.toList_append, List.append_cancel_left_eq] at h'
    exact Text.toString_inj (String.toList_injective h')
  have hsub : wiredOperators cfg box ⊆ cfg.components.operators := fun o ho => (List.mem_filter.1 ho).1
  have hops : ((wiredOperators cfg box).map (·.name)).Nodup :=
    hc.operatorNames.sublist (List.filter_sublist.map _)
  have hfree : ∀ n ∈ reservedNames, n ∉ (wiredOperators cfg box).map (·.name) := by
    intro n hn hm
    obtain ⟨o, ho, rfl⟩ := List.mem_map.1 hm
    exact hc.operatorFree o (hsub ho) hn
  have hfixed : ("dataplane" :: (if box.components.birdAdapter = none then [] else ["bird-adapter"]) ++
      (wiredOperators cfg box).map (·.name)).Nodup := by
    have h1 := hfree "dataplane" (by decide)
    have h2 := hfree "bird-adapter" (by decide)
    split
    · exact List.nodup_cons.2 ⟨h1, hops⟩
    · exact List.nodup_cons.2 ⟨by simpa using h1, List.nodup_cons.2 ⟨h2, hops⟩⟩
  unfold boxNames
  rw [List.nodup_append]
  constructor
  · rintro ⟨-, -, hdis⟩ i hi
    by_contra hn
    obtain ⟨o, ho, hname⟩ := hdecl _ hn
    refine hdis _ (List.mem_map_of_mem hi) (numaRoleName i) ?_ rfl
    refine List.mem_append_right _ (List.mem_map.2 ⟨o, List.mem_filter.2 ⟨ho, ?_⟩, hname⟩)
    rw [hname]
    exact Option.isSome_iff_ne_none.2 hn
  · intro h
    refine ⟨hnuma, hfixed, ?_⟩
    rintro a ha b hb rfl
    obtain ⟨i, hi, rfl⟩ := List.mem_map.1 ha
    rcases List.mem_append.1 hb with hb | hb
    · -- the fixed names do not start like the name of an instance
      have hf : ∀ n ∈ ("dataplane" :: if box.components.birdAdapter = none then [] else ["bird-adapter"]),
          n.toList.head? ≠ some 'c' := by
        split <;> simp
      exact hf _ hb (hhead i)
    · obtain ⟨o, ho, hname⟩ := List.mem_map.1 hb
      have := (List.mem_filter.1 ho).2
      rw [hname, h i hi] at this
      cases this

end

/-- Deployment names collide exactly when the box wires an operator with the name of a controlplane instance. -/
theorem preflight_names_nodup_iff (Γ : Platform) (cfg : YanetConfigSpec) (y : Yanet) (box : BoxType)
    (enabled : List ComponentRef) (nodes : List Node) (plans : StrMap ServicePlan) (ws : List (Node × List RenderedWorkload))
    (hc : validateYanetConfig Γ cfg = .ok ()) (hbox : findBoxType cfg y.spec.boxType = .ok box)
    (he : enabledComponentsForBox Γ cfg y.spec.boxType = .ok enabled)
    (hp : preflightPlans Γ (passPlan y cfg enabled) y nodes = .ok (plans, ws)) :
    ∀ w ∈ ws, ((w.2.map (·.deployment.metadata.name)).Nodup ↔
      ∀ i ∈ renderedNuma cfg y.spec, box.operators[numaRoleName i]? = none) := by
  have hadm := validateYanetConfig_ok hc
  have hmem := (findBoxType_ok hbox).1
  obtain ⟨sidecars, hrefs, hside, hwires, hdecl⟩ :=
    enabledComponentsForBox_ok hbox (hadm.boxControlplane box hmem) (hadm.boxDataplane box hmem) he
  intro w hw
  obtain ⟨ctx, -, hren, hws⟩ := (preflightPlans_ok hp).2 w hw
  have hnames : w.2.map (·.deployment.metadata.name) = (boxNames cfg y.spec box).map (namePrefix Γ ctx ++ ·) := by
    rw [hws, List.map_flatMap, ← flatMap_refNames hside y.spec, ← hrefs, List.map_flatMap]
    exact List.flatMap_congr fun r hr => passWorkloads_names hadm hbox (hwires r hr) (hren r hr)
  rw [hnames, List.nodup_map_iff, boxNames_nodup_iff hadm y.spec hdecl]
  intro a b h
  have h' := congrArg String.toList h
  rw [String.toList_append, String.toList_append, List.append_cancel_left_eq] at h'
  exact String.toList_injective h'

/-! ## An operator with the name of an instance -/

/-- An API server without workloads. -/
def emptyCluster : (c : Op) → c.Answer
  | .get _ _ => .error { reason := .notFound }
  | .list _ _ _ => .ok []
  | .create _ _ => .ok ()
  | .update _ _ => .ok ()
  | .updateStatus _ => .ok ()
  | .dryRun d => .ok d
  | .delete _ _ _ => .ok ()
  | .event _ _ => ()
  | .checkStop => false
  | .snapshot => {}
  | .requeue _ _ => 0
  | .now => 0

/-- The sample box with one more operator, without listeners. -/
def operatorConfig (operator : String) : YanetConfigSpec where
  images := { registry := "registry.example", tag := "1.0" }
  components :=
    { controlplane := { image := { name := "controlplane" } }
      dataplane := { image := { name := "dataplane" } }
      operators := [{ name := operator, containers := [{ name := "main", image := { name := "main" } }], listeners := some [] }] }
  boxTypes :=
    [{ name := "edge"
       components := { controlplane := some {}, dataplane := some {} }
       operators := StrMap.of [(operator, {})] }]

/-- The sample installation. -/
def sampleYanet : Yanet where
  metadata := { name := "yanet", ns := "default", uid := 1, resourceVersion := 1, finalizers := ["yanet.yanet-platform.io/finalizer"] }
  spec := { boxType := "edge", nodeSelector := StrMap.of [("role", "edge")] }

def sampleNode : Node where
  metadata := { name := "node-a", labels := StrMap.of [("kubernetes.io/hostname", "node-a"), ("role", "edge")] }

/-- The references of the box with one more operator. -/
def operatorRefs (operator : String) : List ComponentRef :=
  [{ kind := .controlplane }, { kind := .dataplane }, { kind := .operator, operatorName := operator }]

/-- An operator named like the first controlplane instance passes both webhooks and the preflight, and its Deployment has the
name of that instance. -/
theorem numaOperator_collides :
    validateYanetConfig samplePlatform (operatorConfig "controlplane-numa0") = .ok () ∧
    YanetCustomValidator.validate samplePlatform (.ok { spec := operatorConfig "controlplane-numa0" }) sampleYanet = .ok [] ∧
    enabledComponentsForBox samplePlatform (operatorConfig "controlplane-numa0") "edge" =
      .ok (operatorRefs "controlplane-numa0") ∧
    ((preflightResources samplePlatform (passPlan sampleYanet (operatorConfig "controlplane-numa0")
      (operatorRefs "controlplane-numa0")) sampleYanet [sampleNode]).run.run (fun _ c => (emptyCluster c, ())) ()).1.isOk = true ∧
    ∃ plans ws, preflightPlans samplePlatform (passPlan sampleYanet (operatorConfig "controlplane-numa0")
        (operatorRefs "controlplane-numa0")) sampleYanet [sampleNode] = .ok (plans, ws) ∧
      ∃ w ∈ ws, ∃ a ∈ w.2, ∃ b ∈ w.2, a.component.name ≠ b.component.name ∧
        a.deployment.metadata.name = b.deployment.metadata.name := by
  refine ⟨by decide +kernel, by decide +kernel, by decide +kernel, by decide +kernel, ?_⟩
  have hok : (match preflightPlans samplePlatform (passPlan sampleYanet (operatorConfig "controlplane-numa0")
        (operatorRefs "controlplane-numa0")) sampleYanet [sampleNode] with
      | .ok (_, ws) => decide (∃ w ∈ ws, ∃ a ∈ w.2, ∃ b ∈ w.2, a.component.name ≠ b.component.name ∧
          a.deployment.metadata.name = b.deployment.metadata.name)
      | .error _ => false) = true := by decide +kernel
  split at hok
  · next plans ws hp => exact ⟨plans, ws, hp, of_decide_eq_true hok⟩
  · cases hok

/-- With another operator name the Deployments of the sample node have distinct names. -/
theorem routeOperator_names_nodup :
    ∃ plans ws, preflightPlans samplePlatform (passPlan sampleYanet (operatorConfig "route") (operatorRefs "route")) sampleYanet
        [sampleNode] = .ok (plans, ws) ∧ ws.length = 1 ∧
      ∀ w ∈ ws, ((w.2.map (·.deployment.metadata.name)).Nodup ↔
        ∀ i ∈ renderedNuma (operatorConfig "route") sampleYanet.spec,
          (StrMap.of [("route", ({} : BoxOperator))])[numaRoleName i]? = none) := by
  have hok : (match preflightPlans samplePlatform (passPlan sampleYanet (operatorConfig "route") (operatorRefs "route"))
        sampleYanet [sampleNode] with
      | .ok (_, ws) => ws.length == 1
      | .error _ => false) = true := by decide +kernel
  split at hok
  · next plans ws hp =>
    refine ⟨plans, ws, hp, by simpa using hok, ?_⟩
    exact preflight_names_nodup_iff samplePlatform (operatorConfig "route") sampleYanet
      { name := "edge"
        components := { controlplane := some {}, dataplane := some {} }
        operators := StrMap.of [("route", {})] }
      (operatorRefs "route") [sampleNode] plans ws (by decide +kernel) (by decide +kernel) (by decide +kernel) hp
  · cases hok

end YanetOperator
