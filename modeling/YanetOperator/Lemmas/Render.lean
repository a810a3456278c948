import YanetOperator.Lemmas.Identity
import YanetOperator.Lemmas.PodChecks
import YanetOperator.Lemmas.Resolve

/-!
# What rendering gives

The skeletons the builder makes, one for each instance of a component, and what a rendered Deployment keeps of its skeleton.
-/

namespace YanetOperator

open Check

/-! ## Skeletons -/

/-- The instances of a component: one for each enabled NUMA index of the controlplane, else one. -/
def instances (c : ResolvedRole) : List (Option Nat) :=
  if c.kind = .controlplane then (enabledNuma c).map some else [none]

/-- The skeleton of an instance. -/
def instanceSkeleton (Γ : Platform) (ctx : BuildContext) (c : ResolvedRole) : Option Nat → Deployment
  | some i => numaDeployment Γ ctx c i
  | none => if c.kind = .operator then buildOperator Γ ctx c else buildSingle Γ ctx c

theorem buildByKind_eq (Γ : Platform) (ctx : BuildContext) (c : ResolvedRole) :
    buildByKind Γ ctx c = (instances c).map (instanceSkeleton Γ ctx c) := by
  unfold buildByKind instances
  cases hk : c.kind <;> simp [buildControlplaneFanout, instanceSkeleton, hk]

/-- The labels of an instance, of its Deployment and of its Pods. -/
def instanceLabels (ctx : BuildContext) (c : ResolvedRole) (numa : Option Nat) : StrMap String :=
  let labels := workloadLabels ctx (baseLabels ctx c)
  match numa with
  | some i => labels.insert labelNuma (toString i)
  | none => labels

/-- The labels an instance selects its Pods by. -/
def instanceSelector (ctx : BuildContext) (c : ResolvedRole) (numa : Option Nat) : StrMap String :=
  match numa with
  | some i => (baseLabels ctx c).insert labelNuma (toString i)
  | none => baseLabels ctx c

/-- The name of the Deployment of an instance. -/
def instanceName (Γ : Platform) (ctx : BuildContext) (c : ResolvedRole) : Option Nat → String
  | some i => numaDeploymentName Γ ctx c i
  | none => singleDeploymentName Γ ctx c

theorem getElem?_baseLabels (ctx : BuildContext) (c : ResolvedRole) (k : String) :
    (baseLabels ctx c)[k]? =
      if k = labelNode ∧ ctx.nodeName ≠ "" then some ctx.nodeName
      else if k = labelApp then some c.name
      else if k = labelComponent then some c.name
      else if k = labelYanet then some ctx.yanetName else none := by
  unfold baseLabels
  by_cases hn : ctx.nodeName = ""
  · simp only [hn, ne_eq, not_true_eq_false, if_false, and_false, StrMap.of, List.foldl_cons, List.foldl_nil,
      Std.ExtTreeMap.getElem?_insert, compare_eq_iff_eq, Std.ExtTreeMap.getElem?_empty, eq_comm (b := k)]
  · simp only [hn, ne_eq, not_false_eq_true, if_true, and_true, StrMap.of, List.foldl_cons, List.foldl_nil,
      Std.ExtTreeMap.getElem?_insert, compare_eq_iff_eq, Std.ExtTreeMap.getElem?_empty, eq_comm (b := k)]

theorem getElem?_workloadLabels (ctx : BuildContext) (labels : StrMap String) (k : String) :
    (workloadLabels ctx labels)[k]? = if k = labelBoxType ∧ ctx.boxType ≠ "" then some ctx.boxType else labels[k]? := by
  unfold workloadLabels
  by_cases hb : ctx.boxType = ""
  · simp [hb]
  · simp [hb, Std.ExtTreeMap.getElem?_insert, eq_comm (b := k)]

theorem getElem?_instanceLabels (ctx : BuildContext) (c : ResolvedRole) (numa : Option Nat) (k : String) :
    (instanceLabels ctx c numa)[k]? =
      if k = labelNuma ∧ numa.isSome = true then numa.map toString
      else if k = labelBoxType ∧ ctx.boxType ≠ "" then some ctx.boxType else (baseLabels ctx c)[k]? := by
  unfold instanceLabels
  cases numa with
  | none => simp [getElem?_workloadLabels]
  | some i => simp [getElem?_workloadLabels, Std.ExtTreeMap.getElem?_insert, eq_comm (b := k)]

/-- Every label of an instance is a label of the identity. -/
theorem mem_identity_of_instanceLabels {ctx : BuildContext} {c : ResolvedRole} {numa : Option Nat} {k v : String}
    (h : (instanceLabels ctx c numa)[k]? = some v) : k ∈ workloadIdentityLabels := by
  rw [getElem?_instanceLabels, getElem?_baseLabels] at h
  unfold workloadIdentityLabels
  split at h
  · next hk => simp [hk.1]
  · split at h
    · next hk => simp [hk.1]
    · split at h
      · next hk => simp [hk.1]
      · split at h
        · next hk => simp [hk]
        · split at h
          · next hk => simp [hk]
          · split at h
            · next hk => simp [hk]
            · cases h

/-- The labels an instance selects by are among its own. -/
theorem instanceSelector_sub {ctx : BuildContext} {c : ResolvedRole} {numa : Option Nat} {k v : String}
    (h : (instanceSelector ctx c numa)[k]? = some v) : (instanceLabels ctx c numa)[k]? = some v := by
  have hbox : ∀ k, k = labelBoxType → (baseLabels ctx c)[k]? = none := by
    rintro k rfl
    rw [getElem?_baseLabels]
    simp [labelBoxType, labelNode, labelApp, labelComponent, labelYanet]
  rw [getElem?_instanceLabels]
  unfold instanceSelector at h
  cases numa with
  | none =>
    by_cases hk : k = labelBoxType
    · rw [hbox k hk] at h
      cases h
    · simpa [hk] using h
  | some i =>
    rw [Std.ExtTreeMap.getElem?_insert] at h
    by_cases hn : k = labelNuma
    · simpa [hn] using h
    · by_cases hk : k = labelBoxType
      · rw [if_neg (by simpa using fun e => hn e.symm), hbox k hk] at h
        cases h
      · rw [if_neg (by simpa using fun e => hn e.symm)] at h
        simpa [hn, hk] using h

/-- What every skeleton has. -/
structure Skeleton (Γ : Platform) (ctx : BuildContext) (c : ResolvedRole) (numa : Option Nat) (s : Deployment) : Prop where
  name : s.metadata.name = instanceName Γ ctx c numa
  ns : s.metadata.ns = ctx.ns
  ownerReferences : s.metadata.ownerReferences = [ctx.ownerRef]
  labels : s.metadata.labels = instanceLabels ctx c numa
  selector : s.spec.selector = some { matchLabels := instanceSelector ctx c numa }
  strategy : s.spec.strategy = { type := "Recreate" }
  podLabels : s.spec.template.labels = instanceLabels ctx c numa
  nodeName : s.pod.nodeName = ""
  nodeSelector : s.pod.nodeSelector = nodeSelector ctx
  initContainers : s.pod.initContainers = []

theorem instanceSkeleton_skeleton (Γ : Platform) (ctx : BuildContext) (c : ResolvedRole) (numa : Option Nat) :
    Skeleton Γ ctx c numa (instanceSkeleton Γ ctx c numa) := by
  cases numa with
  | some i => exact ⟨rfl, rfl, rfl, rfl, rfl, rfl, rfl, rfl, rfl, rfl⟩
  | none =>
    unfold instanceSkeleton
    dsimp only
    split <;> exact ⟨rfl, rfl, rfl, rfl, rfl, rfl, rfl, rfl, rfl, rfl⟩

theorem Skeleton.of_sameShape {Γ : Platform} {ctx : BuildContext} {c : ResolvedRole} {numa : Option Nat} {s b : Deployment}
    (h : Skeleton Γ ctx c numa s) (hs : SameShape s b) : Skeleton Γ ctx c numa b where
  name := by rw [hs.metadata, h.name]
  ns := by rw [hs.metadata, h.ns]
  ownerReferences := by rw [hs.metadata, h.ownerReferences]
  labels := by rw [hs.metadata, h.labels]
  selector := hs.selector.trans h.selector
  strategy := hs.strategy.trans h.strategy
  podLabels := hs.labels.trans h.podLabels
  nodeName := hs.nodeName.trans h.nodeName
  nodeSelector := hs.nodeSelector.trans h.nodeSelector
  initContainers := by
    have := hs.initContainers
    rwa [h.initContainers, List.map_nil, List.map_eq_nil_iff] at this

/-- The hugepages of a node change nothing else of a component. -/
theorem resolveHugepagesForNode_ok {Γ : Platform} {ctx : BuildContext} {c c' : ResolvedRole}
    (h : resolveHugepagesForNode Γ ctx c = .ok c') : c' = { c with hugepages := c'.hugepages } := by
  unfold resolveHugepagesForNode at h
  split at h
  · cases h
    rfl
  · split at h
    · cases h
      rfl
    · generalize within _ (resolveNodeHugepages Γ ctx c.hugepages) = r at h
      cases r with
      | error e => cases h
      | ok hp =>
        cases h
        rfl

/-- The Deployments of a component: a skeleton for each instance, with its listeners configured. -/
theorem buildDeployments_ok {Γ : Platform} {ctx : BuildContext} {c : ResolvedRole} {built : List Deployment}
    (h : buildDeployments Γ ctx c = .ok built) :
    ∃ hp, List.Forall₂ (fun numa b => configureComponentListeners Γ (instanceSkeleton Γ ctx { c with hugepages := hp } numa)
      { c with hugepages := hp } false = .ok b) (instances c) built := by
  unfold buildDeployments at h
  obtain ⟨c', hc, h⟩ := bind_eq_ok.1 h
  obtain ⟨-, h⟩ := seq_ok.1 h
  obtain ⟨-, h⟩ := seq_ok.1 h
  have hc' := resolveHugepagesForNode_ok hc
  have hi : instances c' = instances c := by rw [hc']; rfl
  rw [buildByKind_eq, mapM_ok, List.forall₂_map_left_iff, hi] at h
  refine ⟨c'.hugepages, ?_⟩
  rw [← hc']
  exact h.imp fun _ _ hb => within_ok.1 hb

theorem buildDeployments_skeleton {Γ : Platform} {ctx : BuildContext} {c : ResolvedRole} {built : List Deployment}
    (h : buildDeployments Γ ctx c = .ok built) : List.Forall₂ (fun numa b => Skeleton Γ ctx c numa b) (instances c) built := by
  obtain ⟨hp, h⟩ := buildDeployments_ok h
  refine h.imp fun numa b hb => ?_
  have hs := instanceSkeleton_skeleton Γ ctx { c with hugepages := hp } numa
  have hb' := hs.of_sameShape (configureComponentListeners_sameShape hb)
  exact ⟨by rw [hb'.name]; cases numa <;> rfl, hb'.ns, hb'.ownerReferences, hb'.labels, hb'.selector, hb'.strategy,
    hb'.podLabels, hb'.nodeName, hb'.nodeSelector, hb'.initContainers⟩

/-! ## Rendering -/

/-- The regular containers and the restartable init containers of a dataplane Pod: the declared ones, in order. -/
def DataplaneShape (Γ : Platform) (sidecars : List ResolvedRole) (pod : PodSpec) : Prop :=
  pod.containers.map (·.name) = [dataplaneContainerName] ∧
    (pod.initContainers.map Container.shape).filter (·.2.isSome) = nativeShapes Γ sidecars

theorem DataplaneShape.of_sameShape {Γ : Platform} {sidecars : List ResolvedRole} {d d' : Deployment}
    (h : DataplaneShape Γ sidecars d.pod) (hs : SameShape d d') : DataplaneShape Γ sidecars d'.pod := by
  refine ⟨?_, by rw [hs.initContainers]; exact h.2⟩
  have := congrArg (List.map Prod.fst) hs.containers
  simp only [List.map_map, Function.comp_def, Container.shape] at this
  rw [this]
  exact h.1

/-- The restartable containers of a patched dataplane that passed the check come back in the captured order. -/
theorem restore_dataplaneShape {Γ : Platform} {component : ResolvedComponent} {base d patched : Deployment}
    (hd : Composed Γ base component.sidecars d)
    (hl : d.spec.template.labels[labelComponent]? = some ComponentKind.dataplane.text)
    (h : validateSidecarComposition Γ patched.pod component = .ok ()) :
    DataplaneShape Γ component.sidecars (restoreWorkloadIdentity patched (captureWorkloadIdentity d)).pod := by
  obtain ⟨hc, ho⟩ := seq_ok.1 h
  have hshapes := checkSidecarOrder_ok ho
  have hnative : (enabledSidecarNames Γ component).map (fun n => (n, some restartAlways)) =
      nativeShapes Γ component.sidecars := by
    simp [enabledSidecarNames, nativeShapes, Function.comp_def]
  have hmanage : (captureWorkloadIdentity d).manageNativeSidecars = true := by
    simp [captureWorkloadIdentity, reservedLabels, hl, isReservedLabel, workloadIdentityLabels]
  have hcaptured : (captureWorkloadIdentity d).nativeSidecars = d.pod.initContainers := by
    have hm : (captureWorkloadIdentity d).nativeSidecars =
        if (captureWorkloadIdentity d).manageNativeSidecars then
          d.pod.initContainers.filter fun c => isManagedNativeContainer c.name else [] := rfl
    rw [hm, hmanage, if_pos rfl]
    exact List.filter_eq_self.2 hd.managed
  have hinits : (restoreWorkloadIdentity patched (captureWorkloadIdentity d)).pod.initContainers =
      restoreNativeSidecars patched.pod.initContainers d.pod.initContainers := by
    rw [← hcaptured]
    simp [restoreWorkloadIdentity, Deployment.pod, hmanage]
  refine ⟨not_not.1 (refuse_ok.1 hc), ?_⟩
  rw [hinits, restoreNativeSidecars_shapes, hd.native]
  -- a restartable container of the patched Pod is an expected one, and each of those was captured
  intro c hcm hr
  have hmem : c.shape ∈ (patched.pod.initContainers.map Container.shape).filter (·.2.isSome) :=
    List.mem_filter.2 ⟨List.mem_map_of_mem hcm, hr⟩
  rw [hshapes, hnative, ← hd.native, List.mem_filter, List.mem_map] at hmem
  obtain ⟨⟨x, hx, hxc⟩, -⟩ := hmem
  exact List.mem_map.2 ⟨x, hx, congrArg Prod.fst hxc⟩

/-- The passes over a composed Deployment keep its identity, and a dataplane keeps its containers. -/
theorem patchDeployment_ok {Γ : Platform} {component : ResolvedComponent} {registry : PatchRegistry} {base d d' : Deployment}
    (hd : Composed Γ base component.sidecars d)
    (hl : component.kind = .dataplane → d.spec.template.labels[labelComponent]? = some ComponentKind.dataplane.text)
    (h : patchDeployment Γ component registry d = .ok d') :
    SameIdentity d d' ∧ (component.kind = .dataplane → DataplaneShape Γ component.sidecars d'.pod) := by
  unfold patchDeployment at h
  obtain ⟨merged, -, h⟩ := bind_eq_ok.1 h
  obtain ⟨patched, -, h⟩ := bind_eq_ok.1 h
  obtain ⟨hv, h⟩ := seq_ok.1 h
  have hid := restoreWorkloadIdentity_sameIdentity d patched
  by_cases hk : component.kind = .dataplane
  · rw [if_pos hk] at h
    have hs := configureDataplaneNetworks_sameShape h
    have hshape := restore_dataplaneShape hd (hl hk) (onlyIf_ok.1 hv hk)
    exact ⟨hid.trans_shape hs, fun _ => hshape.of_sameShape hs⟩
  · rw [if_neg hk] at h
    cases h
    exact ⟨hid, fun hk' => absurd hk' hk⟩

/-- No label of the identity is written by the composition. -/
theorem Composed.label {Γ : Platform} {base d : Deployment} {sidecars : List ResolvedRole} (h : Composed Γ base sidecars d)
    {k : String} (hk : Text.hasPrefix k operatorMembershipPrefix = false) :
    d.spec.template.labels[k]? = base.spec.template.labels[k]? := by
  rw [h.labels, StrMap.getElem?_foldl_insert]
  have hf : (membershipEntries Γ sidecars).reverse.find? (·.1 == k) = none := by
    rw [List.find?_eq_none]
    intro e he hek
    rw [List.mem_reverse, membershipEntries, List.mem_map] at he
    obtain ⟨s, -, rfl⟩ := he
    rw [← beq_iff_eq.1 hek, membershipLabel_hasPrefix] at hk
    cases hk
  rw [hf]
  rfl

/-- The membership labels of a composed Pod whose base has none: those of the enabled sidecars. -/
theorem Composed.membership {Γ : Platform} {base d : Deployment} {sidecars : List ResolvedRole}
    (h : Composed Γ base sidecars d) (hkeys : (sidecars.map fun s => Γ.shortNodeKey s.name).Nodup) {k v : String}
    (hb : base.spec.template.labels[k]? = none) :
    d.spec.template.labels[k]? = some v ↔
      ∃ s ∈ sidecars, s.enabled = true ∧ k = operatorMembershipLabel Γ s.name ∧ v = s.name := by
  rw [h.labels, StrMap.getElem?_foldl_insert, hb, Option.or_none]
  constructor
  · intro hv
    obtain ⟨e, he, rfl⟩ := Option.map_eq_some_iff.1 hv
    have hmem := List.mem_of_find?_eq_some he
    rw [List.mem_reverse, membershipEntries, List.mem_map] at hmem
    obtain ⟨s, hs, rfl⟩ := hmem
    obtain ⟨hs, hen⟩ := List.mem_filter.1 hs
    exact ⟨s, hs, hen, (by simpa using List.find?_some he : _ = k).symm, rfl⟩
  · rintro ⟨s, hs, hen, rfl, rfl⟩
    have hin : (operatorMembershipLabel Γ s.name, s.name) ∈ (membershipEntries Γ sidecars).reverse :=
      List.mem_reverse.2 (List.mem_map.2 ⟨s, List.mem_filter.2 ⟨hs, hen⟩, rfl⟩)
    cases hf : (membershipEntries Γ sidecars).reverse.find? (·.1 == operatorMembershipLabel Γ s.name) with
    | none => exact absurd (List.find?_eq_none.1 hf _ hin) (by simp)
    | some e =>
      have hmem := List.mem_of_find?_eq_some hf
      rw [List.mem_reverse, membershipEntries, List.mem_map] at hmem
      obtain ⟨s', hs', rfl⟩ := hmem
      have hk : Γ.shortNodeKey s'.name = Γ.shortNodeKey s.name :=
        membershipLabel_inj (by simpa using List.find?_some hf)
      have heq := List.inj_on_of_nodup_map hkeys (List.mem_filter.1 hs').1 hs hk
      rw [heq]
      rfl

/-- A rendered Deployment beside the one the builder made: the sidecars were composed into it, and the passes after kept its
identity. -/
structure Rendered (Γ : Platform) (component : ResolvedComponent) (b d : Deployment) : Prop where
  composed : ∃ c, Composed Γ b component.sidecars c ∧ SameIdentity c d
  pod : PodWellFormed d.pod
  dataplane : component.kind = .dataplane → DataplaneShape Γ component.sidecars d.pod

theorem renderDeployment_ok {Γ : Platform} {ctx : BuildContext} {component : ResolvedComponent} {registry : PatchRegistry}
    {b d : Deployment} (hi : b.pod.initContainers = [])
    (hl : component.kind = .dataplane → b.spec.template.labels[labelComponent]? = some ComponentKind.dataplane.text)
    (h : renderDeployment Γ ctx component registry b = .ok d) : Rendered Γ component b d := by
  unfold renderDeployment at h
  obtain ⟨c, hc, h⟩ := bind_eq_ok.1 h
  obtain ⟨p, hp, h⟩ := bind_eq_ok.1 h
  obtain ⟨-, h⟩ := seq_ok.1 h
  obtain ⟨l, hcl, h⟩ := bind_eq_ok.1 h
  obtain ⟨r, hr, h⟩ := bind_eq_ok.1 h
  obtain ⟨hv, h⟩ := seq_ok.1 h
  obtain ⟨-, h⟩ := seq_ok.1 h
  cases h
  have hcomp : Composed Γ b component.sidecars c := by simpa using composeSidecars_composed (Composed.start hi) hc
  have hlabel : component.kind = .dataplane →
      c.spec.template.labels[labelComponent]? = some ComponentKind.dataplane.text := by
    intro hk
    rw [hcomp.label (not_hasPrefix_of_mem_identity (by simp [workloadIdentityLabels]))]
    exact hl hk
  obtain ⟨hid, hshape⟩ := patchDeployment_ok hcomp hlabel hp
  have hs := (configureListeners_sameShape hcl).trans (configureRuntimeNetwork_sameShape hr)
  exact ⟨⟨c, hcomp, hid.trans_shape hs⟩, validateComposedPod_ok hv, fun hk => (hshape hk).of_sameShape hs⟩

theorem Rendered.podLabel {Γ : Platform} {component : ResolvedComponent} {b d : Deployment} (h : Rendered Γ component b d)
    {k : String} (hk : k ∈ workloadIdentityLabels) : d.spec.template.labels[k]? = b.spec.template.labels[k]? := by
  obtain ⟨c, hc, hid⟩ := h.composed
  rw [hid.podLabels k (by simp [isReservedLabel, hk]), hc.label (not_hasPrefix_of_mem_identity hk)]

theorem Rendered.membership {Γ : Platform} {component : ResolvedComponent} {b d : Deployment} (h : Rendered Γ component b d)
    (hkeys : (component.sidecars.map fun s => Γ.shortNodeKey s.name).Nodup) {k v : String}
    (hk : Text.hasPrefix k operatorMembershipPrefix = true) (hb : b.spec.template.labels[k]? = none) :
    d.spec.template.labels[k]? = some v ↔
      ∃ s ∈ component.sidecars, s.enabled = true ∧ k = operatorMembershipLabel Γ s.name ∧ v = s.name := by
  obtain ⟨c, hc, hid⟩ := h.composed
  rw [hid.podLabels k (by simp [isReservedLabel, hk]), hc.membership hkeys hb]

/-- The skeletons have no membership label. -/
theorem instanceLabels_membership {ctx : BuildContext} {c : ResolvedRole} {numa : Option Nat} {k : String}
    (hk : Text.hasPrefix k operatorMembershipPrefix = true) : (instanceLabels ctx c numa)[k]? = none := by
  cases h : (instanceLabels ctx c numa)[k]? with
  | none => rfl
  | some v =>
    rw [not_hasPrefix_of_mem_identity (mem_identity_of_instanceLabels h)] at hk
    cases hk

/-- Every instance carries the name of its component. -/
theorem instanceLabels_component (ctx : BuildContext) (c : ResolvedRole) (numa : Option Nat) :
    (instanceLabels ctx c numa)[labelComponent]? = some c.name := by
  rw [getElem?_instanceLabels, getElem?_baseLabels]
  simp [labelComponent, labelNuma, labelBoxType, labelNode, labelApp]

/-- One Deployment of a component: the skeleton of an instance, and what it is rendered to. -/
structure RenderedInstance (Γ : Platform) (ctx : BuildContext) (component : ResolvedComponent) (registry : PatchRegistry)
    (numa : Option Nat) (b d : Deployment) : Prop where
  skeleton : Skeleton Γ ctx component.toResolvedRole numa b
  render : renderDeployment Γ ctx component registry b = .ok d
  rendered : Rendered Γ component b d

/-- `RenderDeployments` of a component that is not a sidecar: for each instance the Deployment of the builder, rendered. -/
theorem renderDeployments_ok {Γ : Platform} {ctx : BuildContext} {component : ResolvedComponent} {registry : PatchRegistry}
    {ds : List Deployment} (hk : component.kind ≠ .sidecar)
    (hn : component.kind = .dataplane → component.name = ComponentKind.dataplane.text)
    (h : renderDeployments Γ ctx component registry = .ok ds) :
    ∃ built, buildDeployments Γ ctx component.toResolvedRole = .ok built ∧ built.length = ds.length ∧
      (instances component.toResolvedRole).length = ds.length ∧
      ∀ (i : Nat) numa b d, (instances component.toResolvedRole)[i]? = some numa → built[i]? = some b → ds[i]? = some d →
        RenderedInstance Γ ctx component registry numa b d := by
  unfold renderDeployments at h
  rw [if_neg (by simpa [ResolvedRole.isColocated] using hk)] at h
  obtain ⟨built, hb, h⟩ := bind_eq_ok.1 h
  rw [mapM_ok] at h
  have hsk := buildDeployments_skeleton hb
  refine ⟨built, hb, h.length_eq, hsk.length_eq.trans h.length_eq, ?_⟩
  intro i numa b d hi hbi hdi
  obtain ⟨hi', rfl⟩ := List.getElem?_eq_some_iff.1 hi
  obtain ⟨hbi', rfl⟩ := List.getElem?_eq_some_iff.1 hbi
  obtain ⟨hdi', rfl⟩ := List.getElem?_eq_some_iff.1 hdi
  have hs := (List.forall₂_iff_get.1 hsk).2 i hi' hbi'
  have hr := (List.forall₂_iff_get.1 h).2 i hbi' hdi'
  simp only [List.get_eq_getElem] at hs hr
  refine ⟨hs, hr, renderDeployment_ok hs.initContainers ?_ hr⟩
  intro hd
  rw [hs.podLabels, instanceLabels_component, hn hd]

/-- The Deployment rendered for an instance. -/
theorem renderDeployments_instance {Γ : Platform} {ctx : BuildContext} {component : ResolvedComponent}
    {registry : PatchRegistry} {ds : List Deployment}
    (hn : component.kind = .dataplane → component.name = ComponentKind.dataplane.text)
    (h : renderDeployments Γ ctx component registry = .ok ds) {numa : Option Nat} {d : Deployment}
    (hm : (numa, d) ∈ (instances component.toResolvedRole).zip ds) :
    component.kind ≠ .sidecar ∧ ∃ b, RenderedInstance Γ ctx component registry numa b d := by
  by_cases hk : component.kind = .sidecar
  · rw [renderDeployments, if_pos (by simp [ResolvedRole.isColocated, hk])] at h
    cases h
    simp at hm
  · refine ⟨hk, ?_⟩
    obtain ⟨built, -, hl, -, hall⟩ := renderDeployments_ok hk hn h
    obtain ⟨i, hi⟩ := List.mem_iff_getElem?.1 hm
    obtain ⟨h1, h2⟩ := List.getElem?_zip_eq_some.1 hi
    have hlt : i < built.length := by
      rw [hl]
      exact (List.getElem?_eq_some_iff.1 h2).1
    exact ⟨_, hall i numa _ d h1 (List.getElem?_eq_getElem hlt) h2⟩

/-- A rendered Deployment comes from one the builder made. -/
theorem renderDeployments_mem {Γ : Platform} {ctx : BuildContext} {component : ResolvedComponent}
    {registry : PatchRegistry} {ds : List Deployment}
    (hn : component.kind = .dataplane → component.name = ComponentKind.dataplane.text)
    (h : renderDeployments Γ ctx component registry = .ok ds) {d : Deployment} (hd : d ∈ ds) :
    component.kind ≠ .sidecar ∧ ∃ built b numa, buildDeployments Γ ctx component.toResolvedRole = .ok built ∧ b ∈ built ∧
      RenderedInstance Γ ctx component registry numa b d := by
  by_cases hk : component.kind = .sidecar
  · rw [renderDeployments, if_pos (by simp [ResolvedRole.isColocated, hk])] at h
    cases h
    cases hd
  · refine ⟨hk, ?_⟩
    obtain ⟨built, hb, hl, hi, hall⟩ := renderDeployments_ok hk hn h
    obtain ⟨i, hlt, rfl⟩ := List.mem_iff_getElem.1 hd
    have hlt' : i < built.length := hl ▸ hlt
    have hlt'' : i < (instances component.toResolvedRole).length := hi ▸ hlt
    exact ⟨built, built[i], _, hb, List.getElem_mem hlt', hall i _ _ _ (List.getElem?_eq_getElem hlt'')
      (List.getElem?_eq_getElem hlt') (List.getElem?_eq_getElem hlt)⟩

end YanetOperator
