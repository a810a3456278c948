import YanetOperator.Lemmas.Names
import YanetOperator.Lemmas.PodChecks
import YanetOperator.Lemmas.Shape

/-!
# Identity through composition, patches and restoration

The identity that `CaptureWorkloadIdentity` takes of a composed Deployment and `RestoreWorkloadIdentity` writes back, and what
the composition of sidecars adds to it: one membership label and one restartable container for each enabled sidecar.
-/

namespace YanetOperator

open Check

/-! ## Composition -/

/-- A sidecar that rendered has its declared container only, one-shot init containers, and a well-formed Pod. -/
theorem renderSidecar_ok {Γ : Platform} {ctx : BuildContext} {sidecar : ResolvedRole} {registry : PatchRegistry}
    {op : Deployment} (h : renderSidecar Γ ctx sidecar registry = .ok op) :
    op.pod.containers.map (·.name) = [sidecar.name] ∧ (∀ c ∈ op.pod.initContainers, c.restartPolicy = none) ∧
      PodWellFormed op.pod := by
  unfold renderSidecar at h
  obtain ⟨-, h⟩ := seq_ok.1 h
  obtain ⟨a, -, h⟩ := bind_eq_ok.1 h
  obtain ⟨b, -, h⟩ := bind_eq_ok.1 h
  obtain ⟨-, h⟩ := seq_ok.1 h
  obtain ⟨hn, h⟩ := seq_ok.1 h
  obtain ⟨hi, h⟩ := seq_ok.1 h
  obtain ⟨c, hc, h⟩ := bind_eq_ok.1 h
  obtain ⟨hwell, h⟩ := seq_ok.1 h
  cases h
  have hs := configureComponentListeners_sameShape hc
  refine ⟨?_, ?_, validateComposedPod_ok hwell⟩
  · have := congrArg (List.map Prod.fst) hs.containers
    simp only [List.map_map, Function.comp_def, Container.shape] at this
    rw [this]
    simpa using refuse_ok.1 hn
  · intro x hx
    have hmem : x.shape ∈ b.pod.initContainers.map Container.shape := by
      rw [← hs.initContainers]
      exact List.mem_map_of_mem hx
    obtain ⟨y, hy, hxy⟩ := List.mem_map.1 hmem
    have hy' : y.restartPolicy = none := by simpa using refuse_ok.1 (forM_ok.1 hi y hy)
    have hp := congrArg Prod.snd hxy
    simp only [Container.shape] at hp
    rw [← hp, hy']

/-- The membership labels of the enabled sidecars. -/
def membershipEntries (Γ : Platform) (sidecars : List ResolvedRole) : List (String × String) :=
  (sidecars.filter (·.enabled)).map fun s => (operatorMembershipLabel Γ s.name, s.name)

/-- The shapes of the containers of the enabled sidecars. -/
def nativeShapes (Γ : Platform) (sidecars : List ResolvedRole) : List (String × Option String) :=
  (sidecars.filter (·.enabled)).map fun s => (scopedOperatorName Γ s.name s.name, some restartAlways)

/-- A Deployment after some sidecars were composed into a base without init containers. -/
structure Composed (Γ : Platform) (base : Deployment) (sidecars : List ResolvedRole) (d : Deployment) : Prop where
  metadata : d.metadata = base.metadata
  selector : d.spec.selector = base.spec.selector
  strategy : d.spec.strategy = base.spec.strategy
  nodeName : d.pod.nodeName = base.pod.nodeName
  nodeSelector : d.pod.nodeSelector = base.pod.nodeSelector
  labels : d.spec.template.labels =
    (membershipEntries Γ sidecars).foldl (fun m e => m.insert e.1 e.2) base.spec.template.labels
  managed : ∀ c ∈ d.pod.initContainers, isManagedNativeContainer c.name = true
  native : (d.pod.initContainers.map Container.shape).filter (·.2.isSome) = nativeShapes Γ sidecars

theorem Composed.start {Γ : Platform} {base : Deployment} (h : base.pod.initContainers = []) : Composed Γ base [] base := by
  refine ⟨rfl, rfl, rfl, rfl, rfl, rfl, ?_, ?_⟩
  · simp [h]
  · simp [h, nativeShapes]

/-- The init containers a sidecar adds: its one-shot ones, then its own as a restartable one. -/
theorem mergeSidecar_inits {Γ : Platform} {d op : Deployment} {sidecar : String}
    (hn : op.pod.containers.map (·.name) = [sidecar]) (hi : ∀ c ∈ op.pod.initContainers, c.restartPolicy = none) :
    ∃ added, (mergeSidecar Γ d sidecar op).pod.initContainers = d.pod.initContainers ++ added ∧
      (∀ c ∈ added, isManagedNativeContainer c.name = true) ∧
      (added.map Container.shape).filter (·.2.isSome) = [(scopedOperatorName Γ sidecar sidecar, some restartAlways)] := by
  obtain ⟨c, hc, hcn⟩ := List.map_eq_singleton_iff.1 hn
  refine ⟨_, List.append_assoc .., ?_, ?_⟩
  · intro x hx
    rcases List.mem_append.1 hx with hx | hx
    · obtain ⟨y, -, rfl⟩ := List.mem_map.1 hx
      exact isManagedNativeContainer_scoped Γ sidecar _
    · obtain ⟨y, -, rfl⟩ := List.mem_map.1 hx
      exact isManagedNativeContainer_scoped Γ sidecar _
  · have hnone : ((op.pod.initContainers.map fun x => scopeContainer Γ sidecar (x.mapRefs (scopeRef Γ sidecar))).map
        Container.shape).filter (·.2.isSome) = [] := by
      rw [List.filter_eq_nil_iff]
      intro x hx
      simp only [List.map_map, List.mem_map, Function.comp_apply] at hx
      obtain ⟨y, hy, rfl⟩ := hx
      simp [Container.shape, scopeContainer, Container.mapRefs, hi y hy]
    have hpod : op.pod = op.spec.template.spec := rfl
    simp only [mapResourceFieldRefs, PodSpec.mapContainers, List.map_map, List.map_append, List.filter_append,
      Function.comp_def, hc, List.map_cons, List.map_nil] at hnone ⊢
    rw [hnone]
    simp [Container.shape, scopeContainer, Container.mapRefs, hcn]

theorem composeSidecar_composed {Γ : Platform} {ctx : BuildContext} {registry : PatchRegistry} {base d d' : Deployment}
    {done : List ResolvedRole} {s : ResolvedRole} (hd : Composed Γ base done d)
    (h : composeSidecar Γ ctx registry d s = .ok d') : Composed Γ base (done ++ [s]) d' := by
  unfold composeSidecar at h
  obtain ⟨op, hop, h⟩ := bind_eq_ok.1 h
  obtain ⟨hn, hi, -⟩ := renderSidecar_ok (within_ok.1 hop)
  cases h
  by_cases he : s.enabled = true
  · obtain ⟨added, hadd, hman, hnat⟩ := mergeSidecar_inits (Γ := Γ) (d := d) hn hi
    rw [if_pos he]
    refine ⟨hd.metadata, hd.selector, hd.strategy, hd.nodeName, hd.nodeSelector, ?_, ?_, ?_⟩
    · have := hd.labels
      simp only [membershipEntries, List.filter_append, List.map_append, List.foldl_append] at this ⊢
      rw [← this]
      simp [he, mergeSidecar]
    · intro c hc
      rw [hadd, List.mem_append] at hc
      rcases hc with hc | hc
      · exact hd.managed c hc
      · exact hman c hc
    · rw [hadd, List.map_append, List.filter_append, hd.native, hnat]
      simp [nativeShapes, he]
  · rw [if_neg he]
    have hf : (done ++ [s]).filter (·.enabled) = done.filter (·.enabled) := by simp [he]
    refine ⟨hd.metadata, hd.selector, hd.strategy, hd.nodeName, hd.nodeSelector, ?_, hd.managed, ?_⟩
    · rw [membershipEntries, hf]
      exact hd.labels
    · rw [nativeShapes, hf]
      exact hd.native

/-- The composition of all sidecars. -/
theorem composeSidecars_composed {Γ : Platform} {ctx : BuildContext} {registry : PatchRegistry} {base d d' : Deployment}
    {done sidecars : List ResolvedRole} (hd : Composed Γ base done d)
    (h : sidecars.foldlM (composeSidecar Γ ctx registry) d = .ok d') : Composed Γ base (done ++ sidecars) d' := by
  induction sidecars generalizing done d with
  | nil =>
    cases h
    simpa using hd
  | cons s rest ih =>
    rw [List.foldlM_cons] at h
    obtain ⟨e, he, h⟩ := bind_eq_ok.1 h
    have := ih (composeSidecar_composed hd he) h
    simpa using this

/-! ## Restoration -/

/-- Two Deployments with the same operator-owned identity. -/
structure SameIdentity (d d' : Deployment) : Prop where
  name : d'.metadata.name = d.metadata.name
  ns : d'.metadata.ns = d.metadata.ns
  ownerReferences : d'.metadata.ownerReferences = d.metadata.ownerReferences
  labels : ∀ k, isReservedLabel k = true → d'.metadata.labels[k]? = d.metadata.labels[k]?
  selector : d'.spec.selector = d.spec.selector
  strategy : d'.spec.strategy = d.spec.strategy
  podLabels : ∀ k, isReservedLabel k = true → d'.spec.template.labels[k]? = d.spec.template.labels[k]?
  nodeName : d'.pod.nodeName = d.pod.nodeName
  nodeSelector : d'.pod.nodeSelector = d.pod.nodeSelector

theorem SameIdentity.trans_shape {a b c : Deployment} (h : SameIdentity a b) (h' : SameShape b c) : SameIdentity a c where
  name := by rw [h'.metadata, h.name]
  ns := by rw [h'.metadata, h.ns]
  ownerReferences := by rw [h'.metadata, h.ownerReferences]
  labels := by rw [h'.metadata]; exact h.labels
  selector := h'.selector.trans h.selector
  strategy := h'.strategy.trans h.strategy
  podLabels := by rw [h'.labels]; exact h.podLabels
  nodeName := h'.nodeName.trans h.nodeName
  nodeSelector := h'.nodeSelector.trans h.nodeSelector

/-- Restored labels agree with the captured ones on every reserved key. -/
theorem getElem?_mergeIdentityLabels {labels captured : StrMap String} {k : String} (hk : isReservedLabel k = true) :
    (mergeIdentityLabels labels (reservedLabels captured))[k]? = captured[k]? := by
  simp [mergeIdentityLabels, reservedLabels, hk]

theorem restoreWorkloadIdentity_sameIdentity (d patched : Deployment) :
    SameIdentity d (restoreWorkloadIdentity patched (captureWorkloadIdentity d)) where
  name := rfl
  ns := rfl
  ownerReferences := rfl
  labels _ hk := getElem?_mergeIdentityLabels hk
  selector := rfl
  strategy := rfl
  podLabels _ hk := getElem?_mergeIdentityLabels hk
  nodeName := rfl
  nodeSelector := rfl

/-- The containers placed are the expected ones in order, among the unmanaged ones: a property no unmanaged container has selects
exactly what it selects of the expected ones. -/
theorem filter_placeNativeSidecars {managed : String → Bool} {p : Container → Bool} {expected cs : List Container}
    (hp : ∀ c ∈ cs, managed c.name = false → p c = false) (hm : cs.any (managed ·.name) = true) :
    (placeNativeSidecars managed expected cs).filter p = expected.filter p := by
  induction cs generalizing expected with
  | nil => simp at hm
  | cons c cs ih =>
    have ih' : ∀ e : List Container, cs.any (managed ·.name) = true →
        (placeNativeSidecars managed e cs).filter p = e.filter p := fun e => ih fun x hx => hp x (by simp [hx])
    by_cases hc : managed c.name = true
    · by_cases hr : cs.any (managed ·.name) = true
      · rw [placeNativeSidecars, if_pos hc, if_pos hr, List.filter_append, ih' _ hr, ← List.filter_append,
          List.take_append_drop]
      · rw [placeNativeSidecars, if_pos hc, if_neg hr, List.filter_append]
        have hrest : (placeNativeSidecars managed [] cs).filter p = [] := by
          rw [List.filter_eq_nil_iff]
          intro x hx
          have hsub : ∀ (l : List Container), (∀ y ∈ l, managed y.name = false) → placeNativeSidecars managed [] l = l := by
            intro l hl
            induction l with
            | nil => rfl
            | cons y l ihl =>
              rw [placeNativeSidecars, if_neg (by simp [hl y (by simp)]), ihl fun z hz => hl z (by simp [hz])]
          have hun : ∀ y ∈ cs, managed y.name = false := by
            intro y hy
            by_contra hy'
            exact hr (List.any_eq_true.2 ⟨y, hy, by simpa using hy'⟩)
          rw [hsub cs hun] at hx
          simp [hp x (by simp [hx]) (hun x hx)]
        rw [hrest, List.append_nil]
    · have hc' : managed c.name = false := by simpa using hc
      rw [List.any_cons, hc', Bool.false_or] at hm
      rw [placeNativeSidecars, if_neg hc, List.filter_cons_of_neg (by simp [hp c (by simp) hc']), ih' _ hm]

/-- Restoration brings back the restartable containers that were captured, when the patch added none. -/
theorem restoreNativeSidecars_shapes {inits expected : List Container}
    (h : ∀ c ∈ inits, c.restartPolicy.isSome = true → c.name ∈ expected.map (·.name)) :
    ((restoreNativeSidecars inits expected).map Container.shape).filter (·.2.isSome) =
      (expected.map Container.shape).filter (·.2.isSome) := by
  have hshape : (expected.map fun baseline => { (inits.reverse.find? (·.name == baseline.name)).getD baseline with
      restartPolicy := baseline.restartPolicy }).map Container.shape = expected.map Container.shape := by
    rw [List.map_map]
    refine List.map_congr_left fun b _ => ?_
    simp only [Function.comp_apply, Container.shape]
    cases hf : inits.reverse.find? (·.name == b.name) with
    | none => rfl
    | some c =>
      have hc : c.name = b.name := by simpa using List.find?_some hf
      rw [Option.getD_some, hc]
  have hun : ∀ c ∈ inits, decide (c.name ∈ expected.map (·.name)) = false → c.shape.2.isSome = false := by
    intro c hc hn
    by_contra hs
    exact (by simpa using hn : c.name ∉ expected.map (·.name)) (h c hc (by simpa [Container.shape, Option.isSome_iff_ne_none] using hs))
  unfold restoreNativeSidecars
  dsimp only
  rw [List.filter_map]
  split
  · next hany =>
    rw [filter_placeNativeSidecars hun hany, ← List.filter_map, hshape]
  · next hany =>
    have hnone : inits.filter ((fun s : String × Option String => s.2.isSome) ∘ Container.shape) = [] := by
      rw [List.filter_eq_nil_iff]
      intro c hc
      have hn : decide (c.name ∈ expected.map (·.name)) = false := by
        by_contra hn
        exact hany (List.any_eq_true.2 ⟨c, hc, by simpa using hn⟩)
      simpa using hun c hc hn
    rw [List.filter_append, hnone, List.append_nil, ← List.filter_map, hshape]

/-- The restartable containers that pass the check are the expected ones in order. -/
theorem checkSidecarOrder_ok {expected : List String} {cs : List Container} (h : checkSidecarOrder expected cs = .ok ()) :
    (cs.map Container.shape).filter (·.2.isSome) = expected.map fun n => (n, some restartAlways) := by
  induction cs generalizing expected with
  | nil =>
    have he : expected = [] := by simpa using refuse_ok.1 h
    rw [he]
    rfl
  | cons c cs ih =>
    unfold checkSidecarOrder at h
    cases hp : c.restartPolicy with
    | none =>
      rw [hp] at h
      rw [List.map_cons, List.filter_cons_of_neg (by simp [Container.shape, hp])]
      exact ih h
    | some policy =>
      rw [hp] at h
      cases expected with
      | nil => cases h
      | cons n rest =>
        dsimp only at h
        split at h
        · cases h
        · next hok =>
          simp only [not_or, not_not] at hok
          rw [List.map_cons, List.filter_cons_of_pos (by simp [Container.shape, hp]), ih h, List.map_cons, Container.shape, hp,
            hok.1, hok.2]

end YanetOperator
