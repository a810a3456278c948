import YanetOperator.Lemmas.Composition
import YanetOperator.Lemmas.Passes
import YanetOperator.Lemmas.Roles
import YanetOperator.Theorems.NativeSidecars

/-!
# Rendering without patches

Without patches the passes over a composed Pod change images and resources only, until its listeners are configured. `SameFrame`
says what they keep: all that decides where a configuration is mounted, and all that is checked of a Pod.
-/

namespace YanetOperator

open Check

/-! ## Frames -/

/-- A container without its image and its resources. -/
def Container.frame (c : Container) : Container := { c with image := "", resources := {} }

/-- Two Deployments whose Pods differ at most in the images and the resources of their containers, and in what no check of a Pod
reads. -/
structure SameFrame (d d' : Deployment) : Prop where
  name : d'.metadata.name = d.metadata.name
  role : d'.spec.template.labels[labelComponent]? = d.spec.template.labels[labelComponent]?
  hostNetwork : d'.pod.hostNetwork = d.pod.hostNetwork
  volumes : d'.pod.volumes = d.pod.volumes
  containers : d'.pod.containers.map Container.frame = d.pod.containers.map Container.frame
  initContainers : d'.pod.initContainers.map Container.frame = d.pod.initContainers.map Container.frame

theorem SameFrame.refl (d : Deployment) : SameFrame d d := ⟨rfl, rfl, rfl, rfl, rfl, rfl⟩

theorem SameFrame.trans {a b c : Deployment} (h : SameFrame a b) (h' : SameFrame b c) : SameFrame a c :=
  ⟨h'.name.trans h.name, h'.role.trans h.role, h'.hostNetwork.trans h.hostNetwork, h'.volumes.trans h.volumes,
    h'.containers.trans h.containers, h'.initContainers.trans h.initContainers⟩

theorem SameFrame.allContainers {d d' : Deployment} (h : SameFrame d d') :
    d'.pod.allContainers.map Container.frame = d.pod.allContainers.map Container.frame := by
  rw [PodSpec.allContainers, PodSpec.allContainers, List.map_append, List.map_append, h.containers, h.initContainers]

/-- What depends on the frame of a container only is the same for both. -/
theorem map_of_frame {α : Type} {p : Container → α} (hp : ∀ c : Container, p c.frame = p c) {cs cs' : List Container}
    (h : cs'.map Container.frame = cs.map Container.frame) : cs'.map p = cs.map p := by
  have hframe (cs : List Container) : (cs.map Container.frame).map p = cs.map p := by
    rw [List.map_map]
    exact List.map_congr_left fun c _ => hp c
  rw [← hframe, h, hframe]

/-- A container of one has a container with its frame in the other. -/
theorem SameFrame.exists_of_mem {d d' : Deployment} (h : SameFrame d d') {c' : Container} (hc : c' ∈ d'.pod.allContainers) :
    ∃ c ∈ d.pod.allContainers, c.frame = c'.frame := by
  have hmem : c'.frame ∈ d.pod.allContainers.map Container.frame := h.allContainers ▸ List.mem_map_of_mem hc
  exact List.mem_map.1 hmem

theorem sameFrame_mapContainers {f : Container → Container} {d : Deployment}
    (hf : ∀ c ∈ d.pod.allContainers, (f c).frame = c.frame) : SameFrame d (d.mapContainers f) := by
  have hmap (cs : List Container) (hcs : ∀ c ∈ cs, c ∈ d.pod.allContainers) :
      (cs.map f).map Container.frame = cs.map Container.frame := by
    rw [List.map_map]
    exact List.map_congr_left fun c hc => hf c (hcs c hc)
  exact ⟨rfl, rfl, rfl, rfl, hmap _ fun c hc => List.mem_append_left _ hc, hmap _ fun c hc => List.mem_append_right _ hc⟩

/-! ## Passes -/

theorem overriddenContainer_frame (Γ : Platform) (component : ResolvedComponent) (unpatched : Deployment) (c : Container) :
    (overriddenContainer Γ component unpatched c).frame = c.frame := by
  have hkeep (original : Option ResourceRequirements) (c : Container) : (restoreContainerHugepages original c).frame = c.frame := by
    unfold restoreContainerHugepages
    split
    · rfl
    · split <;> rfl
  rw [overriddenContainer, hkeep, setImages_eq]
  rfl

theorem applyInstallationOverrides_sameFrame {Γ : Platform} {d unpatched d' : Deployment} {component : ResolvedComponent}
    (h : applyInstallationOverrides Γ d unpatched component = .ok d') : SameFrame d d' := by
  obtain ⟨rfl, -⟩ := applyInstallationOverrides_ok h
  have hreplicas (replicas : Option Int) : SameFrame d (d.withReplicas replicas) := ⟨rfl, rfl, rfl, rfl, rfl, rfl⟩
  exact (hreplicas _).trans (sameFrame_mapContainers fun c _ => overriddenContainer_frame Γ component unpatched c)

theorem configureDataplaneNetworks_sameFrame {Γ : Platform} {d d' : Deployment} {component : ResolvedRole}
    (h : configureDataplaneNetworks Γ d component = .ok d') : SameFrame d d' := by
  obtain rfl | ⟨payload, counts, rfl⟩ := configureDataplaneNetworks_cases h
  · exact SameFrame.refl d'
  · refine ⟨rfl, rfl, rfl, rfl, ?_, rfl⟩
    show (d.pod.containers.modifyHead _).map Container.frame = _
    cases d.pod.containers with
    | nil => rfl
    | cons c cs => rfl

/-- Restored containers are the captured ones where every one of them is left in its place. -/
theorem restoreNativeSidecars_self {inits expected : List Container} (hshape : inits.map Container.shape = expected.map Container.shape)
    (hnames : (expected.map (·.name)).Nodup) : restoreNativeSidecars inits expected = inits := by
  have hmap : inits.map (·.name) = expected.map (·.name) := by
    have hfst := congrArg (List.map Prod.fst) hshape
    rwa [List.map_map, List.map_map] at hfst
  have hcaptured : ∀ c ∈ inits, isCaptured expected c.name = true := fun c hc =>
    decide_eq_true (hmap ▸ List.mem_map_of_mem hc)
  have hrestored : expected.map (restoredSidecar inits) = inits := by
    refine List.ext_getElem? fun i => ?_
    rw [List.getElem?_map]
    have hi : inits[i]?.map Container.shape = expected[i]?.map Container.shape := by
      rw [← List.getElem?_map, hshape, List.getElem?_map]
    cases hb : expected[i]? with
    | none =>
      rw [hb, Option.map_none, Option.map_eq_none_iff] at hi
      rw [hi, Option.map_none]
    | some b =>
      rw [hb, Option.map_some, Option.map_eq_some_iff] at hi
      obtain ⟨c, hc, hcb⟩ := hi
      have hname : c.name = b.name := congrArg Prod.fst hcb
      have hpolicy : c.restartPolicy = b.restartPolicy := congrArg Prod.snd hcb
      have hfind : inits.reverse.find? (·.name == b.name) = some c := by
        rw [← List.head?_filter, List.filter_reverse, ← hname, filter_name_eq (hmap ▸ hnames) (List.mem_of_getElem? hc)]
        rfl
      rw [hc, Option.map_some, restoredSidecar, hfind, Option.getD_some, ← hpolicy]
  rw [restoreNativeSidecars_eq, hrestored]
  cases inits with
  | nil => rfl
  | cons c cs =>
    rw [if_pos (List.any_eq_true.2 ⟨c, List.mem_cons_self .., hcaptured c (List.mem_cons_self ..)⟩)]
    have hall := List.filter_eq_self.2 hcaptured
    calc placeNativeSidecars (isCaptured expected) (c :: cs) (c :: cs)
        = placeNativeSidecars (isCaptured expected) ((c :: cs).filter fun c => isCaptured expected c.name) (c :: cs) := by rw [hall]
      _ = c :: cs := placeNativeSidecars_filter _ _

/-- Without a patch the restored containers are those of the overridden Pod. -/
theorem restore_unpatched {composed overridden : Deployment} (h : SameFrame composed overridden)
    (hnames : (composed.pod.initContainers.map (·.name)).Nodup)
    (hmanaged : ∀ c ∈ composed.pod.initContainers, isManagedNativeContainer c.name = true) :
    (restoreWorkloadIdentity overridden (captureWorkloadIdentity composed)).pod.initContainers = overridden.pod.initContainers := by
  have hshape : overridden.pod.initContainers.map Container.shape = composed.pod.initContainers.map Container.shape :=
    map_of_frame (fun c => rfl) h.initContainers
  show (if (captureWorkloadIdentity composed).manageNativeSidecars = true then
    restoreNativeSidecars overridden.pod.initContainers (captureWorkloadIdentity composed).nativeSidecars
    else overridden.pod.initContainers) = _
  by_cases hmanage : (captureWorkloadIdentity composed).manageNativeSidecars = true
  · have hnative : (captureWorkloadIdentity composed).nativeSidecars = composed.pod.initContainers := by
      show (if (captureWorkloadIdentity composed).manageNativeSidecars = true then _ else _) = _
      rw [if_pos hmanage]
      exact List.filter_eq_self.2 hmanaged
    rw [if_pos hmanage, hnative]
    exact restoreNativeSidecars_self hshape hnames
  · rw [if_neg hmanage]

theorem restore_sameFrame {composed overridden : Deployment} (h : SameFrame composed overridden)
    (hnames : (composed.pod.initContainers.map (·.name)).Nodup)
    (hmanaged : ∀ c ∈ composed.pod.initContainers, isManagedNativeContainer c.name = true) :
    SameFrame composed (restoreWorkloadIdentity overridden (captureWorkloadIdentity composed)) where
  name := rfl
  role := (restoreWorkloadIdentity_sameIdentity composed overridden).podLabels labelComponent (by decide)
  hostNetwork := h.hostNetwork
  volumes := h.volumes
  containers := h.containers
  initContainers := by rw [restore_unpatched h hnames hmanaged, h.initContainers]

/-! ## Listeners of a Pod without ports of its own -/

/-- The ports the operator asserts for the listeners of a role. -/
def rolePorts (Γ : Platform) (role : ResolvedRole) : List ContainerPort :=
  match runtimePortPair role with
  | .ok (grpcPort, httpPort) => (listenerPorts Γ role).map (listenerContainerPort grpcPort httpPort)
  | .error _ => []

theorem rolePorts_of_pair {Γ : Platform} {role : ResolvedRole} {grpcPort httpPort : Int}
    (h : runtimePortPair role = .ok (grpcPort, httpPort)) :
    rolePorts Γ role = (listenerPorts Γ role).map (listenerContainerPort grpcPort httpPort) := by
  rw [rolePorts, h]

theorem rolePorts_nil {Γ : Platform} {role : ResolvedRole} (h : listenerPorts Γ role = []) : rolePorts Γ role = [] := by
  unfold rolePorts
  split
  · rw [h]
    rfl
  · rfl

theorem assertPorts_self (owned : List ContainerPort) : assertPorts owned owned = owned := by
  have hnone : owned.filter (fun port => port.name ∉ owned.map (·.name)) = [] := by
    rw [List.filter_eq_nil_iff]
    intro port hport hfree
    exact (by simpa using hfree : port.name ∉ owned.map (·.name)) (List.mem_map_of_mem hport)
  rw [assertPorts, hnone, List.append_nil]

/-- Asserting the ports of a role gives its container these ports, when it had none or these. -/
theorem configureComponentListeners_asserts {Γ : Platform} {d d' : Deployment} {role : ResolvedRole} {composed : Bool}
    (hports : ∀ c ∈ d.pod.allContainers, c.name = listenerOwner Γ role composed → c.ports = [] ∨ c.ports = rolePorts Γ role)
    (h : configureComponentListeners Γ d role composed = .ok d') :
    d' = modifyContainer d (listenerOwner Γ role composed) fun c => { c with ports := rolePorts Γ role } := by
  rcases configureComponentListeners_ok h with ⟨hnone, rfl⟩ | ⟨-, c, g, t, -, hpair, -, rfl⟩
  · rw [rolePorts_nil hnone] at hports ⊢
    conv_lhs => rw [← mapContainers_id d']
    refine mapContainers_congr fun c hc => ?_
    split
    · next hname =>
      have hempty : c.ports = [] := (hports c hc hname).elim id id
      rw [← hempty]
      rfl
    · rfl
  · rw [rolePorts_of_pair hpair] at hports ⊢
    refine mapContainers_congr fun c hc => ?_
    dsimp only
    split
    · next hname =>
      rcases hports c hc hname with hempty | hasserted
      · rw [hempty, assertPorts, List.filter_nil, List.append_nil]
      · rw [hasserted, assertPorts_self]
    · rfl

/-! ## Sidecars -/

/-- A sidecar of a palette without patches. -/
structure PlainSidecar (s : ResolvedRole) : Prop where
  kind : s.kind = .sidecar
  hugepages : s.hugepages = none
  patches : s.patches = []

/-- The container of a sidecar in its own Deployment. -/
def sidecarContainer (Γ : Platform) (ctx : BuildContext) (s : ResolvedRole) : Container :=
  { (singleContainer Γ ctx s).1 with ports := rolePorts Γ s }

/-- The own Deployment of a sidecar without patches. -/
def sidecarDeployment (Γ : Platform) (ctx : BuildContext) (s : ResolvedRole) : Deployment :=
  (buildSingle Γ ctx s).mapContainers fun c => { c with ports := rolePorts Γ s }

section

variable {Γ : Platform} {ctx : BuildContext} {registry : PatchRegistry} {s : ResolvedRole}

theorem sidecarContainer_name (hkind : s.kind = .sidecar) : (sidecarContainer Γ ctx s).name = s.name := by
  have hname := (singleContainer_parts Γ ctx s).name
  rwa [if_pos hkind] at hname

theorem sidecarDeployment_containers : (sidecarDeployment Γ ctx s).pod.containers = [sidecarContainer Γ ctx s] := rfl

theorem sidecarDeployment_initContainers : (sidecarDeployment Γ ctx s).pod.initContainers = [] := rfl

theorem sidecarDeployment_volumes : (sidecarDeployment Γ ctx s).pod.volumes = (singleContainer Γ ctx s).2 := rfl

/-- A skeleton has the overridden image already. -/
theorem applyImageOverride_skeleton {name : String} {override : Option YanetContainerOverride} {d : Deployment}
    (h : applyImageOverride (buildSingle Γ ctx s) name s.image override = .ok d) : d = buildSingle Γ ctx s := by
  obtain ⟨rfl, -⟩ := applyImageOverride_ok h
  conv_rhs => rw [← mapContainers_id (buildSingle Γ ctx s)]
  refine mapContainers_congr fun c hc => setImages_self fun e he => ?_
  rw [buildSingle_allContainers, List.mem_singleton] at hc
  rw [hc, (singleContainer_parts Γ ctx s).image]
  unfold explicitImage at he
  split at he
  · cases he
  · split at he
    · cases he
    · rw [List.mem_singleton.1 he]

/-- Without patches the Deployment of a sidecar is the built one with the ports asserted. -/
theorem renderSidecar_unpatched (hs : PlainSidecar s) {op : Deployment} (h : renderSidecar Γ ctx s registry = .ok op) :
    op = sidecarDeployment Γ ctx s := by
  have hparts := singleContainer_parts Γ ctx s
  have hmem : ∀ c ∈ (buildSingle Γ ctx s).pod.allContainers, c = (singleContainer Γ ctx s).1 := fun c hc =>
    List.mem_singleton.1 (buildSingle_allContainers Γ ctx s ▸ hc)
  unfold renderSidecar at h
  obtain ⟨-, h⟩ := seq_ok.1 h
  obtain ⟨patched, hpatched, h⟩ := bind_eq_ok.1 h
  rw [hs.patches] at hpatched
  cases hpatched
  obtain ⟨overridden, hoverride, h⟩ := bind_eq_ok.1 h
  cases applyImageOverride_skeleton hoverride
  obtain ⟨-, h⟩ := seq_ok.1 h
  obtain ⟨-, h⟩ := seq_ok.1 h
  obtain ⟨-, h⟩ := seq_ok.1 h
  obtain ⟨listening, hlisten, h⟩ := bind_eq_ok.1 h
  obtain ⟨-, h⟩ := seq_ok.1 h
  cases h
  rw [configureComponentListeners_asserts (fun c hc _ => Or.inl (hmem c hc ▸ hparts.built.ports)) hlisten]
  refine mapContainers_congr fun c hc => if_pos ?_
  rw [hmem c hc, listenerOwner, if_neg (by decide), listenerContainerName, hs.kind]
  exact sidecarContainer_name (Γ := Γ) hs.kind

end

/-! ## Composition -/

/-- The containers enabled sidecars add to the dataplane. -/
def nativeContainers (Γ : Platform) (ctx : BuildContext) (sidecars : List ResolvedRole) : List Container :=
  (sidecars.filter (·.enabled)).map fun s => nativeImage Γ s.name (sidecarContainer Γ ctx s)

/-- The volumes enabled sidecars add to the dataplane. -/
def nativeVolumes (Γ : Platform) (ctx : BuildContext) (sidecars : List ResolvedRole) : List Volume :=
  (sidecars.filter (·.enabled)).flatMap fun s => (singleContainer Γ ctx s).2.map (volumeImage Γ s.name)

/-- A Deployment into which sidecars without patches were composed. -/
structure ComposedPlain (Γ : Platform) (ctx : BuildContext) (base : Deployment) (sidecars : List ResolvedRole) (d : Deployment) :
    Prop where
  metadata : d.metadata = base.metadata
  annotations : d.spec.template.annotations = base.spec.template.annotations
  role : d.spec.template.labels[labelComponent]? = base.spec.template.labels[labelComponent]?
  hostNetwork : d.pod.hostNetwork = base.pod.hostNetwork
  containers : d.pod.containers = base.pod.containers
  initContainers : d.pod.initContainers = base.pod.initContainers ++ nativeContainers Γ ctx sidecars
  volumes : d.pod.volumes = base.pod.volumes ++ nativeVolumes Γ ctx sidecars

section

variable {Γ : Platform} {ctx : BuildContext} {registry : PatchRegistry} {sidecars : List ResolvedRole}

theorem mergeSidecar_plain (d : Deployment) {s : ResolvedRole} (henabled : s.enabled = true) :
    ComposedPlain Γ ctx d [s] (mergeSidecar Γ d s.name (sidecarDeployment Γ ctx s)) where
  metadata := rfl
  annotations := rfl
  role := by
    have hne := membershipLabel_ne Γ s.name (k := labelComponent) (by decide)
    exact (Std.ExtTreeMap.getElem?_insert).trans (if_neg (by simpa using hne))
  hostNetwork := rfl
  containers := rfl
  initContainers := by
    rw [mergeSidecar_initContainers, sidecarDeployment_initContainers, sidecarDeployment_containers, nativeContainers,
      List.filter_cons_of_pos henabled]
    simp
  volumes := by
    rw [mergeSidecar_volumes, sidecarDeployment_volumes, nativeVolumes, List.filter_cons_of_pos henabled]
    simp

theorem ComposedPlain.trans {a b d : Deployment} {xs ys : List ResolvedRole} (h : ComposedPlain Γ ctx a xs b)
    (h' : ComposedPlain Γ ctx b ys d) : ComposedPlain Γ ctx a (xs ++ ys) d where
  metadata := h'.metadata.trans h.metadata
  annotations := h'.annotations.trans h.annotations
  role := h'.role.trans h.role
  hostNetwork := h'.hostNetwork.trans h.hostNetwork
  containers := h'.containers.trans h.containers
  initContainers := by
    rw [h'.initContainers, h.initContainers, nativeContainers, nativeContainers, nativeContainers, List.filter_append,
      List.map_append, List.append_assoc]
  volumes := by
    rw [h'.volumes, h.volumes, nativeVolumes, nativeVolumes, nativeVolumes, List.filter_append, List.flatMap_append,
      List.append_assoc]

theorem composedPlain_skip (d : Deployment) (hsidecars : ∀ s ∈ sidecars, s.enabled = false) :
    ComposedPlain Γ ctx d sidecars d := by
  have hnone : sidecars.filter (·.enabled) = [] := by
    rw [List.filter_eq_nil_iff]
    intro s hs
    simp [hsidecars s hs]
  refine ⟨rfl, rfl, rfl, rfl, rfl, ?_, ?_⟩
  · simp [nativeContainers, hnone]
  · simp [nativeVolumes, hnone]

/-- The composition of sidecars without patches. -/
theorem composeSidecars_plain (hsidecars : ∀ s ∈ sidecars, PlainSidecar s) {b d : Deployment}
    (h : sidecars.foldlM (composeSidecar Γ ctx registry) b = .ok d) : ComposedPlain Γ ctx b sidecars d := by
  induction sidecars generalizing b with
  | nil =>
    cases h
    exact composedPlain_skip d (by intro s hs; cases hs)
  | cons s sidecars ih =>
    obtain ⟨b', hb, h⟩ := bind_eq_ok.1 h
    have hrest := ih (fun r hr => hsidecars r (List.mem_cons_of_mem _ hr)) h
    obtain ⟨op, hop, rfl⟩ := composeSidecar_cases hb
    rw [renderSidecar_unpatched (hsidecars s (List.mem_cons_self ..)) hop] at hrest
    by_cases henabled : s.enabled = true
    · rw [if_pos henabled] at hrest
      exact (mergeSidecar_plain b henabled).trans hrest
    · rw [if_neg henabled] at hrest
      have hskip : ComposedPlain Γ ctx b [s] b := composedPlain_skip b (by simpa using henabled)
      exact hskip.trans hrest

theorem nativeContainers_names (hkind : ∀ s ∈ sidecars, s.kind = .sidecar) :
    (nativeContainers Γ ctx sidecars).map (·.name) =
      (sidecars.filter (·.enabled)).map fun s => scopedOperatorName Γ s.name s.name := by
  rw [nativeContainers, List.map_map]
  refine List.map_congr_left fun s hs => ?_
  show scopedOperatorName Γ s.name (sidecarContainer Γ ctx s).name = _
  rw [sidecarContainer_name (hkind s (List.mem_filter.1 hs).1)]

theorem scopedNames_nodup (hkeys : (sidecars.map fun s => Γ.shortNodeKey s.name).Nodup) :
    ((sidecars.filter (·.enabled)).map fun s => scopedOperatorName Γ s.name s.name).Nodup := by
  have hsub := (hkeys.sublist (List.filter_sublist.map _ : ((sidecars.filter (·.enabled)).map fun s => Γ.shortNodeKey s.name).Sublist _))
  rw [List.Nodup, List.pairwise_map] at hsub ⊢
  exact hsub.imp fun hne heq => hne (shortNodeKey_eq_of_scoped heq)

end

/-! ## Components -/

/-- A component without patches, with a palette whose keys are distinct. -/
structure PlainComponent (Γ : Platform) (component : ResolvedComponent) : Prop where
  patches : component.patches = []
  sidecars : ∀ s ∈ component.sidecars, PlainSidecar s
  keys : (component.sidecars.map fun s => Γ.shortNodeKey s.name).Nodup

section

variable {Γ : Platform} {ctx : BuildContext} {component : ResolvedComponent} {registry : PatchRegistry}
  {b composed patched overridden networked listening d : Deployment}

/-- The init containers of a composed Deployment are the sidecars: scoped, each once. -/
theorem ComposedPlain.natives (h : ComposedPlain Γ ctx b component.sidecars composed) (hplain : PlainComponent Γ component)
    (hb : b.pod.initContainers = []) :
    composed.pod.initContainers.map (·.name) =
        (component.sidecars.filter (·.enabled)).map (fun s => scopedOperatorName Γ s.name s.name) ∧
      (composed.pod.initContainers.map (·.name)).Nodup ∧
      ∀ c ∈ composed.pod.initContainers, isManagedNativeContainer c.name = true := by
  have hnames : composed.pod.initContainers.map (·.name) =
      (component.sidecars.filter (·.enabled)).map fun s => scopedOperatorName Γ s.name s.name := by
    rw [h.initContainers, hb, List.nil_append, nativeContainers_names fun s hs => (hplain.sidecars s hs).kind]
  refine ⟨hnames, hnames ▸ scopedNames_nodup hplain.keys, fun c hc => ?_⟩
  have hname : c.name ∈ (component.sidecars.filter (·.enabled)).map fun s => scopedOperatorName Γ s.name s.name :=
    hnames ▸ List.mem_map_of_mem hc
  obtain ⟨s, -, hs⟩ := List.mem_map.1 hname
  exact hs ▸ isManagedNativeContainer_scoped Γ s.name s.name

/-- Without patches the passes up to the networks keep the frame of what was composed. -/
theorem Passes.unpatched (hplain : PlainComponent Γ component) (hb : b.pod.initContainers = [])
    (h : Passes Γ ctx component registry b composed patched overridden networked listening d) :
    ComposedPlain Γ ctx b component.sidecars composed ∧ SameFrame composed networked := by
  have hcomposed := composeSidecars_plain hplain.sidecars h.compose
  obtain ⟨-, hnames, hmanaged⟩ := hcomposed.natives hplain hb
  have hpatch := h.patch
  rw [hplain.patches] at hpatch
  cases hpatch
  have hrestored := restore_sameFrame (applyInstallationOverrides_sameFrame h.override) hnames hmanaged
  refine ⟨hcomposed, ?_⟩
  have hnetwork := h.network
  split at hnetwork
  · exact hrestored.trans (configureDataplaneNetworks_sameFrame hnetwork)
  · cases hnetwork
    exact hrestored

/-- Without patches a rendered Pod has the volumes and the mounts of what was composed. -/
theorem Passes.mounts (hplain : PlainComponent Γ component) (hb : b.pod.initContainers = [])
    (h : Passes Γ ctx component registry b composed patched overridden networked listening d) :
    d.pod.volumes = composed.pod.volumes ∧
      d.pod.allContainers.map (fun c => (c.name, c.volumeMounts)) =
        composed.pod.allContainers.map fun c => (c.name, c.volumeMounts) := by
  have hruntime := configureRuntimeNetwork_rewrites h.runtime
  have hlisten := configureListeners_rewrites h.listen
  obtain ⟨-, hframe⟩ := h.unpatched hplain hb
  refine ⟨?_, ?_⟩
  · rw [hruntime.volumes, hlisten.volumes, hframe.volumes]
  · rw [hruntime.map_eq (by rintro c _ ⟨env, rfl⟩; rfl), hlisten.map_eq (by rintro c _ ⟨ports, rfl⟩; rfl)]
    exact map_of_frame (fun c => rfl) hframe.allContainers

end

end YanetOperator
