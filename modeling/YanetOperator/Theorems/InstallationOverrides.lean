import YanetOperator.Lemmas.Composition
import YanetOperator.Lemmas.Passes
import YanetOperator.Lemmas.Render
import YanetOperator.Lemmas.Resolve
import YanetOperator.Theorems.NativeSidecars

/-!
# The overrides of an installation

Which images and replicas an installation decides: those it names explicitly, whatever the patches wrote, and no others.
-/

namespace YanetOperator

open Check

/-! ## Pinned images -/

/-- An override that sets a name or a tag. -/
def YanetContainerOverride.IsExplicit (o : YanetContainerOverride) : Prop := ¬(o.name = "" ∧ o.tag = "")

/-- The image of an explicit override: registry and path of the palette entry, or else the global ones, without the empty segments;
name and tag of the override where it sets them. -/
def pinnedImage (images : ImagesSpec) (base : ImageRef) (o : YanetContainerOverride) : String :=
  let segments := [base.registry.getD images.registry, base.imagePrefix.getD images.imagePrefix].filter (· ≠ "")
  let name := if o.name ≠ "" then o.name else base.name
  let tag := if o.tag ≠ "" then o.tag else if base.tag ≠ "" then base.tag else images.tag
  Text.join "/" (segments ++ [name]) ++ if tag = "" then "" else ":" ++ tag

theorem fullPath_eq (i : ResolvedImage) : i.fullPath =
    Text.join "/" ([i.registry, i.imagePrefix].filter (· ≠ "") ++ [i.name]) ++ if i.tag = "" then "" else ":" ++ i.tag := by
  unfold ResolvedImage.fullPath Text.join
  by_cases hr : i.registry = "" <;> by_cases hp : i.imagePrefix = "" <;> by_cases ht : i.tag = "" <;>
    simp [hr, hp, ht, String.intercalate_cons_cons, String.append_assoc]

theorem pinnedImage_eq (images : ImagesSpec) (base : ImageRef) (o : YanetContainerOverride) :
    (mergeImage images base (some o)).fullPath = pinnedImage images base o := fullPath_eq _

/-- The palette image of a container of a component. -/
def paletteImage (config : YanetConfigSpec) (kind : ComponentKind) (role container : String) : Option ImageRef :=
  match kind with
  | .controlplane => if container = "controlplane" then some config.components.controlplane.image else none
  | .dataplane => if container = dataplaneContainerName then some config.components.dataplane.image else none
  | .birdAdapter => if container = birdAdapterContainerName then config.components.birdAdapter.map (·.image) else none
  | .operator =>
    ((config.components.operators.find? (·.name == role)).bind fun op => op.containers.find? (·.name == container)).map (·.image)
  | .sidecar => none

/-- A container of a component is pinned to an image: the installation overrides it explicitly. -/
def PinnedContainer (config : YanetConfigSpec) (yanet : YanetSpec) (rc : ResolvedComponent) (container image : String) : Prop :=
  ∃ base o, paletteImage config rc.kind rc.name container = some base ∧
    containerOverride (componentOverride yanet rc.kind rc.name) container = some o ∧ o.IsExplicit ∧
    image = pinnedImage config.images base o

/-- An enabled sidecar of a dataplane is pinned to an image. -/
def PinnedSidecar (Γ : Platform) (config : YanetConfigSpec) (yanet : YanetSpec) (rc : ResolvedComponent)
    (container image : String) : Prop :=
  ∃ s ∈ config.components.dataplane.sidecars, (∃ r ∈ rc.sidecars, r.name = s.name ∧ r.enabled = true) ∧
    container = scopedOperatorName Γ s.name s.name ∧
    ∃ o, ((yanet.components.bind (·.dataplane)).bind fun d => d.sidecars[s.name]?) = some o ∧ o.IsExplicit ∧
      image = pinnedImage config.images s.image o

/-- A rendered container is pinned to an image. -/
def Pinned (Γ : Platform) (config : YanetConfigSpec) (yanet : YanetSpec) (rc : ResolvedComponent) (container image : String) : Prop :=
  PinnedContainer config yanet rc container image ∨ PinnedSidecar Γ config yanet rc container image

theorem mem_explicitImage {name : String} {image : ResolvedImage} {override : Option YanetContainerOverride} {e : String × String} :
    e ∈ explicitImage name image override ↔ ∃ o, override = some o ∧ o.IsExplicit ∧ e = (name, image.fullPath) := by
  unfold explicitImage YanetContainerOverride.IsExplicit
  cases override with
  | none => simp
  | some o =>
    by_cases hempty : o.name = "" ∧ o.tag = ""
    · simp [hempty]
    · simp only [if_neg hempty, List.mem_singleton, Option.some.injEq, exists_eq_left']
      exact ⟨fun he => ⟨hempty, he⟩, fun he => he.2⟩

/-! ## Accepted keys -/

/-- The only key of the container overrides of a fixed workload. -/
def fixedContainer : ComponentKind → Option String
  | .controlplane => some "controlplane"
  | .dataplane => some dataplaneContainerName
  | .birdAdapter => some birdAdapterContainerName
  | _ => none

theorem validateHardcodedContainerKeys_ok {field key : String} {ovr : YanetComponentOverride}
    (h : validateHardcodedContainerKeys field key (some ovr) = .ok ()) : ∀ k ∈ ovr.containers, k = key := by
  intro k hk
  have hget := Std.ExtTreeMap.getElem?_eq_some_getElem hk
  have hentry := forM_ok.1 (optional_ok.1 h ovr rfl) (k, ovr.containers[k]) (StrMap.mem_toList.2 hget)
  exact not_not.1 (refuse_ok.1 (seq_ok.1 hentry).1)

/-- Accepted overrides name the containers of fixed workloads only. -/
theorem accepted_keys {Γ : Platform} {config : YanetConfigSpec} {yanet : YanetSpec} {box : BoxType} {kind : ComponentKind}
    {operatorName role key : String} (hkey : fixedContainer kind = some key) (hwired : box.wires kind operatorName)
    (h : validateEffectiveYanetComponentOverrides Γ yanet.components config.components box = .ok ())
    {override : YanetComponentOverride} (ho : componentOverride yanet kind role = some override) :
    ∀ k ∈ override.containers, k = key := by
  unfold componentOverride at ho
  cases hcomponents : yanet.components with
  | none =>
    rw [hcomponents] at ho
    cases ho
  | some overrides =>
    rw [hcomponents] at ho h
    have heffective := optional_ok.1 h overrides rfl
    have hshape := optional_ok.1 (seq_ok.1 heffective).1 _ rfl
    obtain ⟨hcontrolplane, hshape⟩ := seq_ok.1 hshape
    obtain ⟨hdataplane, hshape⟩ := seq_ok.1 hshape
    obtain ⟨hbird, -⟩ := seq_ok.1 hshape
    cases kind with
    | controlplane =>
      cases hkey
      obtain ⟨cp, hcp, rfl⟩ := Option.map_eq_some_iff.1 ho
      have heff : (effectiveOverrides overrides config.components box).controlplane = some cp := (if_neg hwired).trans hcp
      exact validateHardcodedContainerKeys_ok (seq_ok.1 (optional_ok.1 hcontrolplane cp heff)).1
    | dataplane =>
      cases hkey
      obtain ⟨dp, hdp, rfl⟩ := Option.map_eq_some_iff.1 ho
      obtain ⟨slot, hslot⟩ := Option.ne_none_iff_exists'.1 hwired
      have heff : (effectiveOverrides overrides config.components box).dataplane =
          some { dp with sidecars := dp.sidecars.eraseWhere fun name => slot.sidecars[name]? = none } := by
        simp only [effectiveOverrides, hslot, hdp, Option.map_some]
      rw [heff] at hdataplane
      exact validateHardcodedContainerKeys_ok (seq_ok.1 (optional_ok.1 hdataplane _ rfl)).1
    | birdAdapter =>
      cases hkey
      have heff : (effectiveOverrides overrides config.components box).birdAdapter = some override := (if_neg hwired).trans ho
      rw [heff] at hbird
      exact validateHardcodedContainerKeys_ok hbird
    | operator => cases hkey
    | sidecar => cases hkey

/-! ## What the resolved overrides pin -/

section

variable {Γ : Platform} {config : YanetConfigSpec} {yanet : YanetSpec} {kind : ComponentKind} {operatorName : String}
  {rc : ResolvedComponent}

/-- The overrides of a resolved component, whether they enable it, and the image an accepted key selects. -/
theorem resolved_overrideImage (h : resolveBoxComponent Γ config yanet kind operatorName = .ok (some rc)) (hkind : kind ≠ .sidecar) :
    rc.overrides = componentOverride yanet rc.kind rc.name ∧ rc.enabled = resolveEnabled rc.overrides ∧
      ∀ name, (∀ key, fixedContainer kind = some key → name = key) → overrideImage rc.toResolvedRole name =
        (paletteImage config rc.kind rc.name name).map fun base =>
          mergeImage config.images base (containerOverride rc.overrides name) := by
  unfold resolveBoxComponent at h
  obtain ⟨box, -, h⟩ := bind_eq_ok.1 h
  cases kind with
  | controlplane =>
    dsimp only at h
    split at h
    · cases h
    · obtain ⟨-, h⟩ := seq_ok.1 h
      cases h
      refine ⟨rfl, rfl, fun name hname => ?_⟩
      obtain rfl := hname _ rfl
      rfl
  | dataplane =>
    dsimp only at h
    split at h
    · cases h
    · obtain ⟨sidecars, -, h⟩ := bind_eq_ok.1 h
      obtain ⟨⟨networks, resources⟩, -, h⟩ := bind_eq_ok.1 h
      cases h
      refine ⟨rfl, rfl, fun name hname => ?_⟩
      obtain rfl := hname _ rfl
      rfl
  | birdAdapter =>
    dsimp only at h
    split at h
    · cases h
    · cases hadapter : config.components.birdAdapter with
      | none =>
        rw [hadapter] at h
        cases h
      | some adapter =>
        rw [hadapter] at h
        cases h
        refine ⟨rfl, rfl, fun name hname => ?_⟩
        obtain rfl := hname _ rfl
        simp only [paletteImage, hadapter]
        rfl
  | operator =>
    dsimp only at h
    unfold resolveOperator at h
    split at h
    · cases h
    · next slot hslot =>
      obtain ⟨operator, hoperator, h⟩ := bind_eq_ok.1 h
      have hfind : config.components.operators.find? (·.name == operatorName) = some operator := by
        unfold findOperator at hoperator
        split at hoperator
        · next found hf =>
          cases hoperator
          exact hf
        · cases hoperator
      dsimp only at h
      split at h
      · cases h
      · next first rest hcontainers =>
        obtain ⟨-, h⟩ := seq_ok.1 h
        cases h
        refine ⟨rfl, rfl, fun name _ => ?_⟩
        simp only [paletteImage, hfind, overrideImage, ← hcontainers, List.find?_map, Option.bind_some, Function.comp_def]
        cases hf : operator.containers.find? (·.name == name) with
        | none => rfl
        | some c =>
          have hname : c.name = name := by simpa using List.find?_some hf
          simp [hname]
  | sidecar => exact absurd rfl hkind

/-- The images set on the containers of a component are the pinned ones. -/
theorem mem_containerImages (h : resolveBoxComponent Γ config yanet kind operatorName = .ok (some rc)) (hkind : kind ≠ .sidecar)
    (hkeys : ∀ key, fixedContainer kind = some key → ∀ override, rc.overrides = some override → ∀ k ∈ override.containers, k = key)
    {name image : String} : (name, image) ∈ containerImages rc.toResolvedRole ↔ PinnedContainer config yanet rc name image := by
  obtain ⟨hoverrides, -, himage⟩ := resolved_overrideImage h hkind
  unfold containerImages PinnedContainer
  rw [← hoverrides]
  cases ho : rc.overrides with
  | none => simp [containerOverride]
  | some override =>
    have hselected {k : String} {o : YanetContainerOverride} (hget : override.containers[k]? = some o) :
        overrideImage rc.toResolvedRole k = (paletteImage config rc.kind rc.name k).map fun base =>
          mergeImage config.images base (some o) := by
      have hmem : k ∈ override.containers := by
        rw [Std.ExtTreeMap.mem_iff_isSome_getElem?, hget]
        rfl
      rw [himage k fun key hkey => hkeys key hkey override ho k hmem, ho]
      simp only [containerOverride, Option.bind_some, hget]
    simp only [containerOverride, Option.bind_some, List.mem_flatMap]
    constructor
    · rintro ⟨⟨k, o⟩, hmem, he⟩
      have hget := StrMap.mem_toList.1 hmem
      dsimp only at he
      rw [hselected hget] at he
      cases hbase : paletteImage config rc.kind rc.name k with
      | none =>
        rw [hbase] at he
        cases he
      | some base =>
        rw [hbase, Option.map_some] at he
        obtain ⟨o', ho', hexplicit, heq⟩ := mem_explicitImage.1 he
        cases ho'
        cases heq
        exact ⟨base, o, hbase, hget, hexplicit, pinnedImage_eq _ _ _⟩
    · rintro ⟨base, o, hbase, hget, hexplicit, rfl⟩
      refine ⟨(name, o), StrMap.mem_toList.2 hget, ?_⟩
      dsimp only
      rw [hselected hget, hbase, Option.map_some]
      exact mem_explicitImage.2 ⟨o, rfl, hexplicit, by rw [pinnedImage_eq]⟩

/-- An enabled sidecar is wired, so its override is the installation's. -/
theorem sidecarOverrideOf_enabled {slot : BoxDataplane} {name : String} (h : sidecarEnabled yanet slot name = true) :
    sidecarOverrideOf yanet slot name = (yanet.components.bind (·.dataplane)).bind fun d => d.sidecars[name]? := by
  unfold sidecarEnabled sidecarOverrideOf at *
  cases hslot : slot.sidecars[name]? with
  | none =>
    rw [hslot] at h
    cases h
  | some s => rfl

/-- The images set on the enabled sidecars are the pinned ones. -/
theorem mem_sidecarImages (h : resolveBoxComponent Γ config yanet kind operatorName = .ok (some rc)) {name image : String} :
    (name, image) ∈ sidecarImages Γ rc ↔ PinnedSidecar Γ config yanet rc name image := by
  have hresolved := resolveBoxComponent_ok h
  unfold sidecarImages PinnedSidecar
  by_cases hkind : kind = .dataplane
  · obtain ⟨slot, hpalette⟩ := hresolved.palette hkind
    simp only [List.mem_flatMap, List.mem_filter, mem_explicitImage]
    constructor
    · rintro ⟨r, ⟨hr, henabled⟩, o, ho, hexplicit, heq⟩
      have hr' := hr
      rw [hpalette.roles, List.mem_map] at hr
      obtain ⟨⟨s, i⟩, hs, rfl⟩ := hr
      cases heq
      refine ⟨s, List.fst_mem_of_mem_zipIdx hs, ⟨_, hr', rfl, henabled⟩, rfl, o, ?_, hexplicit, ?_⟩
      · rw [← sidecarOverrideOf_enabled henabled]
        exact ho
      · have himage : (resolveSidecar config yanet slot i s).image = mergeImage config.images s.image (some o) := by
          rw [← ho]
          rfl
        rw [himage, pinnedImage_eq]
    · rintro ⟨s, hs, ⟨r, hr, hname, henabled⟩, rfl, o, ho, hexplicit, rfl⟩
      have hr' := hr
      rw [hpalette.roles, List.mem_map] at hr
      obtain ⟨⟨s', i⟩, hs', rfl⟩ := hr
      -- one palette entry has the name
      have hnames : (config.components.dataplane.sidecars.map SidecarSpec.name).Nodup :=
        List.Nodup.of_map Γ.shortNodeKey (by rw [List.map_map]; exact hpalette.keys)
      obtain rfl : s' = s := List.inj_on_of_nodup_map hnames (List.fst_mem_of_mem_zipIdx hs') hs hname
      have ho' : (resolveSidecar config yanet slot i s').sidecarOverride = some o := (sidecarOverrideOf_enabled henabled).trans ho
      have himage : (resolveSidecar config yanet slot i s').image = mergeImage config.images s'.image (some o) := by
        rw [← ho']
        rfl
      exact ⟨_, ⟨hr', henabled⟩, o, ho', hexplicit, by rw [himage, pinnedImage_eq]; rfl⟩
  · rw [hresolved.noSidecars hkind]
    simp

/-- One container is pinned to one image. -/
theorem Pinned.unique (h : resolveBoxComponent Γ config yanet kind operatorName = .ok (some rc)) {name image image' : String}
    (hi : Pinned Γ config yanet rc name image) (hi' : Pinned Γ config yanet rc name image') : image = image' := by
  have hresolved := resolveBoxComponent_ok h
  have happart {image image' : String} (hc : PinnedContainer config yanet rc name image)
      (hs : PinnedSidecar Γ config yanet rc name image') : False := by
    obtain ⟨base, o, hbase, -⟩ := hc
    obtain ⟨s, -, ⟨r, hr, -⟩, rfl, -⟩ := hs
    by_cases hkind : kind = .dataplane
    · -- the primary container has no scoped name
      rw [hresolved.kind, hkind, paletteImage] at hbase
      split at hbase
      · next heq =>
        have hmanaged := isManagedNativeContainer_scoped Γ s.name s.name
        rw [heq] at hmanaged
        exact absurd hmanaged (by decide)
      · cases hbase
    · rw [hresolved.noSidecars hkind] at hr
      cases hr
  rcases hi with hi | hi <;> rcases hi' with hi' | hi'
  · obtain ⟨base, o, hbase, ho, -, rfl⟩ := hi
    obtain ⟨base', o', hbase', ho', -, rfl⟩ := hi'
    cases hbase.symm.trans hbase'
    cases ho.symm.trans ho'
    rfl
  · exact (happart hi hi').elim
  · exact (happart hi' hi).elim
  · obtain ⟨s, hs, ⟨r, hr, -⟩, hname, o, ho, -, rfl⟩ := hi
    obtain ⟨s', hs', -, hname', o', ho', -, rfl⟩ := hi'
    have hkind : kind = .dataplane := by
      by_contra hne
      rw [hresolved.noSidecars hne] at hr
      cases hr
    obtain ⟨slot, hpalette⟩ := hresolved.palette hkind
    obtain rfl : s = s' :=
      List.inj_on_of_nodup_map hpalette.keys hs hs' (shortNodeKey_eq_of_scoped (hname.symm.trans hname'))
    cases ho.symm.trans ho'
    rfl

end

/-! ## Restored containers -/

theorem mem_restoreNativeSidecars {inits expected : List Container} {c : Container}
    (h : c ∈ restoreNativeSidecars inits expected) : c ∈ inits ∨ ∃ b ∈ expected, c = restoredSidecar inits b := by
  cases hcaptured : isCaptured expected c.name with
  | true =>
    have hmem : c ∈ capturedOf expected (restoreNativeSidecars inits expected) := List.mem_filter.2 ⟨h, hcaptured⟩
    rw [capturedOf_restore, List.mem_map] at hmem
    obtain ⟨b, hb, rfl⟩ := hmem
    exact .inr ⟨b, hb, rfl⟩
  | false =>
    have hmem : c ∈ foreignOf expected (restoreNativeSidecars inits expected) :=
      List.mem_filter.2 ⟨h, by rw [hcaptured]; rfl⟩
    rw [foreignOf_restore] at hmem
    exact .inl (List.mem_filter.1 hmem).1

/-- Every name stays. -/
theorem name_mem_restoreNativeSidecars {inits expected : List Container} {c : Container} (h : c ∈ inits) :
    ∃ c' ∈ restoreNativeSidecars inits expected, c'.name = c.name := by
  cases hcaptured : isCaptured expected c.name with
  | true =>
    obtain ⟨b, hb, hname⟩ := List.mem_map.1 (of_decide_eq_true hcaptured)
    have hmem : restoredSidecar inits b ∈ capturedOf expected (restoreNativeSidecars inits expected) := by
      rw [capturedOf_restore]
      exact List.mem_map_of_mem hb
    exact ⟨_, (List.mem_filter.1 hmem).1, (restoredSidecar_name inits b).trans hname⟩
  | false =>
    have hmem : c ∈ foreignOf expected inits := List.mem_filter.2 ⟨h, by rw [hcaptured]; rfl⟩
    rw [← foreignOf_restore] at hmem
    exact ⟨c, (List.mem_filter.1 hmem).1, rfl⟩

/-- The init containers after the identity is restored: those of the Pod, with the captured ones put back or not. -/
theorem restoreWorkloadIdentity_inits (overridden composed : Deployment) : ∃ expected,
    (∀ b ∈ expected, b ∈ composed.pod.initContainers) ∧
      (restoreWorkloadIdentity overridden (captureWorkloadIdentity composed)).pod.initContainers =
        restoreNativeSidecars overridden.pod.initContainers expected := by
  have hinits : (restoreWorkloadIdentity overridden (captureWorkloadIdentity composed)).pod.initContainers =
      if (captureWorkloadIdentity composed).manageNativeSidecars then
        restoreNativeSidecars overridden.pod.initContainers (captureWorkloadIdentity composed).nativeSidecars
      else overridden.pod.initContainers := rfl
  rw [hinits]
  split
  · next hmanage =>
    refine ⟨_, ?_, rfl⟩
    intro b hb
    have hnative : (captureWorkloadIdentity composed).nativeSidecars =
        if (captureWorkloadIdentity composed).manageNativeSidecars then
          composed.pod.initContainers.filter fun c => isManagedNativeContainer c.name else [] := rfl
    rw [hnative, if_pos hmanage] at hb
    exact (List.mem_filter.1 hb).1
  · refine ⟨[], ?_, ?_⟩
    · intro b hb
      cases hb
    · simp [restoreNativeSidecars]

/-- A container after the identity is restored, when names are unique: it has the image of the Pod's container of its name, or the Pod
has none and it is a captured one. -/
theorem mem_restoreWorkloadIdentity {overridden composed : Deployment} {c : Container}
    (hnames : ((restoreWorkloadIdentity overridden (captureWorkloadIdentity composed)).pod.allContainers.map (·.name)).Nodup)
    (h : c ∈ (restoreWorkloadIdentity overridden (captureWorkloadIdentity composed)).pod.allContainers) :
    (∃ c0 ∈ overridden.pod.allContainers, c0.face = c.face) ∨
      (¬overridden.Has c.name ∧ ∃ b ∈ composed.pod.initContainers, b.face = c.face) := by
  set restored := restoreWorkloadIdentity overridden (captureWorkloadIdentity composed) with hrestored
  have hregular : restored.pod.containers = overridden.pod.containers := rfl
  obtain ⟨expected, hexpected, hinits⟩ := restoreWorkloadIdentity_inits overridden composed
  rw [← hrestored] at hinits
  rcases List.mem_append.1 h with hc | hc
  · exact .inl ⟨c, List.mem_append_left _ (hregular ▸ hc), rfl⟩
  · have hinit := hc
    rw [hinits] at hinit
    rcases mem_restoreNativeSidecars hinit with hold | ⟨b, hb, rfl⟩
    · exact .inl ⟨c, List.mem_append_right _ hold, rfl⟩
    · cases hf : overridden.pod.initContainers.reverse.find? (·.name == b.name) with
      | some c0 =>
        have hmem := List.mem_reverse.1 (List.mem_of_find?_eq_some hf)
        refine .inl ⟨c0, List.mem_append_right _ hmem, ?_⟩
        rw [restoredSidecar, hf]
        rfl
      | none =>
        refine .inr ⟨?_, b, hexpected b hb, by rw [restoredSidecar, hf]; rfl⟩
        rintro ⟨x, hx, hname⟩
        rw [restoredSidecar_name] at hname
        rcases List.mem_append.1 hx with hx | hx
        · -- a regular container of that name would stand twice in the restored Pod
          rw [PodSpec.allContainers, List.map_append, List.nodup_append] at hnames
          refine hnames.2.2 x.name (List.mem_map_of_mem (hregular ▸ hx)) _ (List.mem_map_of_mem hc) ?_
          rw [restoredSidecar_name]
          exact hname
        · exact List.find?_eq_none.1 hf x (List.mem_reverse.2 hx) (by simp [hname])

/-! ## Undeclared containers -/

/-- Two overrides of an operator that differ at most in containers its palette entry does not have. -/
def AgreeOn (config : YanetConfigSpec) (name : String) (a b : YanetComponentOverride) : Prop :=
  a.enabled = b.enabled ∧
    ∀ c, (paletteImage config .operator name c).isSome = true → a.containers[c]? = b.containers[c]?

/-- An installation with other overrides of its operators. -/
def YanetSpec.withOperators (yanet : YanetSpec) (overrides : YanetComponentsOverride)
    (operators : StrMap YanetComponentOverride) : YanetSpec :=
  { yanet with components := some { overrides with operators := operators } }

/-- A component whose overrides differ at most in names without an image renders the same. -/
theorem applyInstallationOverrides_congr {Γ : Platform} (rc : ResolvedComponent) {overrides : Option YanetComponentOverride}
    (henabled : overrides.bind (·.enabled) = rc.overrides.bind (·.enabled))
    (hnone : overrides = none ↔ rc.overrides = none)
    (hcontainers : ∀ o o' name, rc.overrides = some o → overrides = some o' → (overrideImage rc.toResolvedRole name).isSome = true →
      o'.containers[name]? = o.containers[name]?) (d unpatched : Deployment) :
    applyInstallationOverrides Γ d unpatched { rc with overrides := overrides } = applyInstallationOverrides Γ d unpatched rc := by
  have hloop (d : Deployment) : applyContainerOverrides { rc.toResolvedRole with overrides := overrides } d =
      applyContainerOverrides rc.toResolvedRole d := by
    unfold applyContainerOverrides
    cases ho : rc.overrides with
    | none =>
      rw [hnone.2 ho]
    | some o =>
      cases ho' : overrides with
      | none => exact absurd (hnone.1 ho') (by simp [ho])
      | some o' =>
        have hentries := StrMap.filter_toList_congr (p := fun name => (overrideImage rc.toResolvedRole name).isSome)
          fun name hname => hcontainers o o' name ho ho' hname
        dsimp only
        rw [← foldlM_filter (p := fun e => (overrideImage rc.toResolvedRole e.1).isSome) _ o.containers.toList,
          ← foldlM_filter (p := fun e => (overrideImage rc.toResolvedRole e.1).isSome) _ o'.containers.toList, hentries]
        · rfl
        all_goals
          rintro b ⟨name, override⟩ hskip
          have hskip : overrideImage rc.toResolvedRole name = none := by simpa using hskip
          have hskip' : overrideImage { rc.toResolvedRole with overrides := some o' } name = none := hskip
          simp only [hskip, hskip']
  unfold applyInstallationOverrides
  simp only [henabled, hloop]
  rfl

/-- The Deployments that are built do not depend on the overrides. -/
theorem buildDeployments_overrides {Γ : Platform} {ctx : BuildContext} {c : ResolvedRole} (hkind : c.kind ≠ .dataplane)
    (overrides : Option YanetComponentOverride) :
    buildDeployments Γ ctx { c with overrides := overrides } = buildDeployments Γ ctx c := by
  have h : resolveHugepagesForNode Γ ctx c = .ok c := if_pos hkind
  have h' : resolveHugepagesForNode Γ ctx { c with overrides := overrides } = .ok { c with overrides := overrides } := if_pos hkind
  unfold buildDeployments
  rw [h, h']
  rfl

theorem renderDeployments_congr {Γ : Platform} {ctx : BuildContext} {registry : PatchRegistry} (rc : ResolvedComponent)
    {overrides : Option YanetComponentOverride} (hkind : rc.kind ≠ .dataplane)
    (h : ∀ d unpatched, applyInstallationOverrides Γ d unpatched { rc with overrides := overrides } =
      applyInstallationOverrides Γ d unpatched rc) :
    renderDeployments Γ ctx { rc with overrides := overrides } registry = renderDeployments Γ ctx rc registry := by
  unfold renderDeployments renderDeployment patchDeployment
  simp only [h, buildDeployments_overrides hkind]
  rfl

theorem resolveSidecarPalette_withOperators {Γ : Platform} {config : YanetConfigSpec} {yanet : YanetSpec} {box : BoxDataplane}
    {overrides : YanetComponentsOverride} {operators : StrMap YanetComponentOverride}
    (hcomponents : yanet.components = some overrides) (before rest : List SidecarSpec) :
    resolveSidecarPalette Γ config (yanet.withOperators overrides operators) box before rest =
      resolveSidecarPalette Γ config yanet box before rest := by
  have hsidecar (i : Nat) (s : SidecarSpec) : resolveSidecar config (yanet.withOperators overrides operators) box i s =
      resolveSidecar config yanet box i s := by
    unfold resolveSidecar sidecarEnabled sidecarOverrideOf
    rw [hcomponents]
    rfl
  induction rest generalizing before with
  | nil => rfl
  | cons s rest ih => simp only [resolveSidecarPalette, ih, hsidecar]

theorem resolveBoxComponent_withOperators {Γ : Platform} {config : YanetConfigSpec} {yanet : YanetSpec} {kind : ComponentKind}
    {operatorName : String} {overrides : YanetComponentsOverride} {operators : StrMap YanetComponentOverride}
    (hcomponents : yanet.components = some overrides) (hkind : kind ≠ .operator) :
    resolveBoxComponent Γ config (yanet.withOperators overrides operators) kind operatorName =
      resolveBoxComponent Γ config yanet kind operatorName := by
  have hdataplane : (yanet.withOperators overrides operators).components.bind (·.dataplane) = yanet.components.bind (·.dataplane) := by
    rw [hcomponents]
    rfl
  have hnuma (xs : List Int) : resolveDisabledNuma xs (yanet.withOperators overrides operators) = resolveDisabledNuma xs yanet := by
    unfold resolveDisabledNuma
    rw [hcomponents]
    rfl
  have hoverride : componentOverride (yanet.withOperators overrides operators) kind "" = componentOverride yanet kind "" := by
    unfold componentOverride
    rw [hcomponents]
    cases kind with
    | operator => exact absurd rfl hkind
    | controlplane => rfl
    | dataplane => rfl
    | birdAdapter => rfl
    | sidecar => rfl
  cases kind with
  | operator => exact absurd rfl hkind
  | controlplane =>
    unfold resolveBoxComponent
    simp only [hoverride, hnuma]
    rfl
  | dataplane =>
    unfold resolveBoxComponent resolveDataplaneSidecars resolveDataplaneNetworks
    simp only [hoverride, hdataplane, resolveSidecarPalette_withOperators hcomponents]
    rfl
  | sidecar =>
    unfold resolveBoxComponent resolveDataplaneSidecars
    simp only [resolveSidecarPalette_withOperators hcomponents]
    rfl
  | birdAdapter =>
    unfold resolveBoxComponent
    simp only [hoverride]
    rfl

/-- What agreeing overrides share. -/
theorem agree_overrides {config : YanetConfigSpec} {name : String} {o o' : Option YanetComponentOverride}
    (h : Option.Rel (AgreeOn config name) o o') :
    (o' = none ↔ o = none) ∧ o'.bind (·.enabled) = o.bind (·.enabled) ∧ resolveEnabled o' = resolveEnabled o ∧
      ∀ c, (paletteImage config .operator name c).isSome = true → containerOverride o' c = containerOverride o c := by
  cases h with
  | none => exact ⟨Iff.rfl, rfl, rfl, fun _ _ => rfl⟩
  | some h =>
    refine ⟨by simp, h.1.symm, ?_, fun c hc => (h.2 c hc).symm⟩
    rw [resolveEnabled, resolveEnabled, h.1]

theorem resolveOperator_withOperators {Γ : Platform} {config : YanetConfigSpec} {yanet : YanetSpec} {operatorName : String}
    {overrides : YanetComponentsOverride} {operators : StrMap YanetComponentOverride} {rc : ResolvedComponent}
    (hcomponents : yanet.components = some overrides)
    (hagree : Option.Rel (AgreeOn config operatorName) overrides.operators[operatorName]? operators[operatorName]?)
    (h : resolveBoxComponent Γ config yanet .operator operatorName = .ok (some rc)) :
    rc.overrides = overrides.operators[operatorName]? ∧
      resolveBoxComponent Γ config (yanet.withOperators overrides operators) .operator operatorName =
        .ok (some { rc with overrides := operators[operatorName]? }) := by
  unfold resolveBoxComponent at h ⊢
  obtain ⟨box, hbox, h⟩ := bind_eq_ok.1 h
  have hbox' : findBoxType config (yanet.withOperators overrides operators).boxType = .ok box := hbox
  rw [hbox']
  dsimp only at h ⊢
  unfold resolveOperator at h
  split at h
  · cases h
  · next slot hslot =>
    obtain ⟨operator, hoperator, h⟩ := bind_eq_ok.1 h
    have hfind : config.components.operators.find? (·.name == operatorName) = some operator := by
      unfold findOperator at hoperator
      split at hoperator
      · next found hf =>
        cases hoperator
        exact hf
      · cases hoperator
    have hoverride : componentOverride yanet .operator operatorName = overrides.operators[operatorName]? := by
      rw [componentOverride, hcomponents]
    have hoverride' : componentOverride (yanet.withOperators overrides operators) .operator operatorName =
        operators[operatorName]? := rfl
    obtain ⟨-, -, henabled, hsame⟩ := agree_overrides hagree
    have hcontainers : (operator.containers.map fun c =>
          ({ name := c.name
             image := mergeImage config.images c.image (containerOverride operators[operatorName]? c.name)
             config := c.config } : ResolvedContainer)) =
        operator.containers.map fun c =>
          ({ name := c.name
             image := mergeImage config.images c.image (containerOverride overrides.operators[operatorName]? c.name)
             config := c.config } : ResolvedContainer) := by
      refine List.map_congr_left fun c hc => ?_
      have hdeclared : (paletteImage config .operator operatorName c.name).isSome = true := by
        simp only [paletteImage, hfind, Option.bind_some, Option.isSome_map, List.find?_isSome]
        exact ⟨c, hc, by simp⟩
      rw [hsame c.name hdeclared]
    dsimp only at h
    split at h
    · cases h
    · next first rest hcons =>
      obtain ⟨hlisteners, h⟩ := seq_ok.1 h
      cases h
      rw [hoverride] at hcons
      refine ⟨hoverride, ?_⟩
      show resolveOperator config (yanet.withOperators overrides operators) box operatorName = _
      simp only [resolveOperator, hslot, hoperator, hoverride', hcontainers, hcons, hlisteners, henabled, bind, Except.bind, pure,
        Except.pure, hoverride]

/-- A component as a pass renders it: disabled with its installation. -/
def ResolvedComponent.enabledIn (rc : ResolvedComponent) (installationEnabled : Bool) : ResolvedComponent :=
  { rc with enabled := rc.enabled && installationEnabled }

/-- The replicas of a component that an explicit override disables only when it says so. -/
theorem overriddenReplicas_eq {component : ResolvedRole}
    (h : component.overrides.bind (·.enabled) = some false → component.enabled = false) (patched : Option Int) :
    overriddenReplicas component patched =
      if component.enabled = false then some 0
      else if component.overrides.bind (·.enabled) = some true then some 1
      else patched := by
  by_cases hdisabled : component.enabled = false
  · have hdecided : decidesReplicas component := Or.inl hdisabled
    rw [if_pos hdisabled, overriddenReplicas, if_pos hdecided, replicasFor, hdisabled]
    rfl
  · have henabled : component.enabled = true := by simpa using hdisabled
    rw [if_neg hdisabled]
    by_cases hexplicit : component.overrides.bind (·.enabled) = some true
    · have hdecided : decidesReplicas component := Or.inr (by rw [hexplicit]; rfl)
      rw [if_pos hexplicit, overriddenReplicas, if_pos hdecided, replicasFor, if_pos henabled]
    · have hundecided : ¬decidesReplicas component := by
        rintro (hfalse | hsome)
        · exact hdisabled hfalse
        · obtain ⟨enabled, ho⟩ := Option.isSome_iff_exists.1 hsome
          cases enabled with
          | true => exact hexplicit ho
          | false => exact hdisabled (h ho)
      rw [if_neg hexplicit, overriddenReplicas, if_neg hundecided]

theorem componentOverride_roleName (yanet : YanetSpec) (kind : ComponentKind) (operatorName : String) :
    componentOverride yanet kind (roleName kind operatorName) = componentOverride yanet kind operatorName := by
  cases kind <;> rfl

section

variable {Γ : Platform} {config : YanetConfigSpec} {yanet : YanetSpec} {kind : ComponentKind} {operatorName : String}
  {rc : ResolvedComponent}

/-- Overrides of containers that the palette does not have change nothing of what is rendered. -/
theorem undeclared_no_effect (h : resolveBoxComponent Γ config yanet kind operatorName = .ok (some rc))
    {overrides : YanetComponentsOverride} (hcomponents : yanet.components = some overrides)
    {operators : StrMap YanetComponentOverride}
    (hagree : ∀ name : String, Option.Rel (AgreeOn config name) overrides.operators[name]? operators[name]?) :
    ∃ rc', resolveBoxComponent Γ config (yanet.withOperators overrides operators) kind operatorName = .ok (some rc') ∧
      ∀ ctx registry installationEnabled,
        renderDeployments Γ ctx (rc'.enabledIn installationEnabled) registry =
          renderDeployments Γ ctx (rc.enabledIn installationEnabled) registry := by
  by_cases hkind : kind = .operator
  · subst hkind
    obtain ⟨hoverrides, hresolve⟩ := resolveOperator_withOperators hcomponents (hagree operatorName) h
    obtain ⟨hnone, henabled, -, hsame⟩ := agree_overrides (hagree operatorName)
    obtain ⟨-, -, himage⟩ := resolved_overrideImage h (by simp)
    have hrc := resolveBoxComponent_ok h
    refine ⟨_, hresolve, fun ctx registry installationEnabled => ?_⟩
    have hkind : (rc.enabledIn installationEnabled).kind ≠ .dataplane := by
      show rc.kind ≠ .dataplane
      rw [hrc.kind]
      decide
    refine renderDeployments_congr _ hkind (applyInstallationOverrides_congr (rc.enabledIn installationEnabled) ?_ ?_ ?_)
    · show operators[operatorName]?.bind (·.enabled) = rc.overrides.bind (·.enabled)
      rw [hoverrides, henabled]
    · show operators[operatorName]? = none ↔ rc.overrides = none
      rw [hoverrides, hnone]
    · intro o o' name ho ho' hname
      have ho : overrides.operators[operatorName]? = some o := hoverrides.symm.trans ho
      have ho' : operators[operatorName]? = some o' := ho'
      have hname : (overrideImage rc.toResolvedRole name).isSome = true := hname
      rw [himage name nofun, Option.isSome_map, hrc.kind, hrc.name] at hname
      have heq := hsame name hname
      rw [ho, ho'] at heq
      exact heq
  · rw [resolveBoxComponent_withOperators hcomponents hkind]
    exact ⟨rc, h, fun _ _ _ => rfl⟩

/-- The containers of a sidecar: as its own patches left them, but for the image of an explicit override. -/
theorem renderSidecar_faces {ctx : BuildContext} {registry : PatchRegistry} {s : ResolvedRole} {op : Deployment}
    (h : renderSidecar Γ ctx s registry = .ok op) : ∃ own, applyPatches Γ (buildSingle Γ ctx s) s.patches registry = .ok own ∧
      op.pod.allContainers.map Container.face =
        own.pod.allContainers.map fun c => (setImages (explicitImage s.name s.image s.sidecarOverride) c).face := by
  unfold renderSidecar at h
  obtain ⟨-, h⟩ := seq_ok.1 h
  obtain ⟨own, hown, h⟩ := bind_eq_ok.1 h
  obtain ⟨pinned, hpinned, h⟩ := bind_eq_ok.1 h
  obtain ⟨-, h⟩ := seq_ok.1 h
  obtain ⟨-, h⟩ := seq_ok.1 h
  obtain ⟨-, h⟩ := seq_ok.1 h
  obtain ⟨listening, hlisten, h⟩ := bind_eq_ok.1 h
  obtain ⟨-, h⟩ := seq_ok.1 h
  cases h
  refine ⟨own, hown, ?_⟩
  obtain ⟨rfl, -⟩ := applyImageOverride_ok hpinned
  rw [(configureComponentListeners_rewrites hlisten).map_eq (by rintro c _ ⟨ports, rfl⟩; rfl), allContainers_mapContainers,
    List.map_map]
  rfl

/-- A container that a sidecar brought into the dataplane has the image its own patches left, unless it is pinned. -/
theorem composed_image {ctx : BuildContext} {registry : PatchRegistry} {b composed : Deployment}
    (hrc : resolveBoxComponent Γ config yanet kind operatorName = .ok (some rc)) (hb : b.pod.initContainers = [])
    (h : rc.sidecars.foldlM (composeSidecar Γ ctx registry) b = .ok composed) {c : Container}
    (hc : c ∈ composed.pod.initContainers) (hfree : ∀ image, ¬Pinned Γ config yanet rc c.name image) :
    ∃ s ∈ rc.sidecars, s.enabled = true ∧ ∃ own, applyPatches Γ (buildSingle Γ ctx s) s.patches registry = .ok own ∧
      ∃ c0 ∈ own.pod.allContainers, c.name = scopedOperatorName Γ s.name c0.name ∧ c.image = c0.image := by
  have hparts := composeSidecars_parts (ComposedParts.start Γ ctx registry b.pod) h
  rcases (hparts.initContainers c).1 hc with hnone | ⟨s, op, ⟨hs, henabled, hop⟩, hcases⟩
  · rw [hb] at hnone
    cases hnone
  · have hmem : ∃ c1 ∈ op.pod.allContainers, c.name = scopedOperatorName Γ s.name c1.name ∧ c.image = c1.image := by
      rcases hcases with ⟨c1, hc1, rfl⟩ | ⟨c1, hc1, rfl⟩
      · exact ⟨c1, List.mem_append_right _ hc1, rfl, rfl⟩
      · exact ⟨c1, List.mem_append_left _ hc1, rfl, rfl⟩
    obtain ⟨c1, hc1, hname, himage⟩ := hmem
    obtain ⟨own, hown, hfaces⟩ := renderSidecar_faces hop
    have hface : c1.face ∈ op.pod.allContainers.map Container.face := List.mem_map_of_mem hc1
    rw [hfaces, List.mem_map] at hface
    obtain ⟨c0, hc0, heq⟩ := hface
    have hname0 : c0.name = c1.name := by
      have := congrArg Prod.fst heq
      rwa [setImages_eq] at this
    refine ⟨s, by simpa using hs, henabled, own, hown, c0, hc0, by rw [hname, hname0], ?_⟩
    have himage0 : (setImages (explicitImage s.name s.image s.sidecarOverride) c0).image = c1.image := congrArg Prod.snd heq
    rw [himage, ← himage0]
    refine setImages_of_not_mem fun image hmem => ?_
    obtain ⟨o, ho, hexplicit, hentry⟩ := mem_explicitImage.1 hmem
    have hname0' : c0.name = s.name := congrArg Prod.fst hentry
    refine hfree s.image.fullPath (.inr ((mem_sidecarImages hrc).1 ?_))
    refine List.mem_flatMap.2 ⟨s, List.mem_filter.2 ⟨by simpa using hs, henabled⟩, mem_explicitImage.2 ⟨o, ho, hexplicit, ?_⟩⟩
    rw [hname, ← hname0, hname0']

/-- An installation decides what it overrides explicitly and nothing else. A pinned container or sidecar is rendered and has its
pinned image; any other container has the image of the patched Pod, or, when the patches removed it, that of the composed Pod, in which a
sidecar's containers have the images its own patches left; the replicas are zero for a disabled component, one for an explicitly
enabled one, and the patched ones otherwise; and overrides of containers the palette does not have change nothing. -/
theorem installationOverrides_win {box : BoxType} (hbox : findBoxType config yanet.boxType = .ok box)
    (hvalid : validateEffectiveYanetComponentOverrides Γ yanet.components config.components box = .ok ())
    (hrc : resolveBoxComponent Γ config yanet kind operatorName = .ok (some rc)) :
    (∀ ctx registry installationEnabled ds,
      renderDeployments Γ ctx (rc.enabledIn installationEnabled) registry = .ok ds → ∀ d ∈ ds,
      ∃ built b composed patched,
        buildDeployments Γ ctx (rc.enabledIn installationEnabled).toResolvedRole = .ok built ∧ b ∈ built ∧
        rc.sidecars.foldlM (composeSidecar Γ ctx registry) b = .ok composed ∧
        applyPatches Γ composed rc.patches registry = .ok patched ∧
        renderDeployment Γ ctx (rc.enabledIn installationEnabled) registry b = .ok d ∧
        (∀ name image, Pinned Γ config yanet rc name image → d.Has name ∧ ∀ c ∈ d.pod.allContainers, c.name = name → c.image = image) ∧
        (∀ c ∈ d.pod.allContainers, (∀ image, ¬Pinned Γ config yanet rc c.name image) →
          (∃ c0 ∈ patched.pod.allContainers, c0.name = c.name ∧ c0.image = c.image) ∨
          (¬patched.Has c.name ∧ ∃ c0 ∈ composed.pod.initContainers, c0.name = c.name ∧ c0.image = c.image)) ∧
        (∀ c ∈ composed.pod.initContainers, (∀ image, ¬Pinned Γ config yanet rc c.name image) →
          ∃ s ∈ rc.sidecars, s.enabled = true ∧ ∃ own, applyPatches Γ (buildSingle Γ ctx s) s.patches registry = .ok own ∧
            ∃ c0 ∈ own.pod.allContainers, c.name = scopedOperatorName Γ s.name c0.name ∧ c.image = c0.image) ∧
        d.spec.replicas =
          if (rc.enabledIn installationEnabled).enabled = false then some 0
          else if (componentOverride yanet kind operatorName).bind (·.enabled) = some true then some 1
          else patched.spec.replicas) ∧
    ∀ overrides operators, yanet.components = some overrides →
      (∀ name : String, Option.Rel (AgreeOn config name) overrides.operators[name]? operators[name]?) →
      ∃ rc', resolveBoxComponent Γ config (yanet.withOperators overrides operators) kind operatorName = .ok (some rc') ∧
        ∀ ctx registry installationEnabled,
          renderDeployments Γ ctx (rc'.enabledIn installationEnabled) registry =
            renderDeployments Γ ctx (rc.enabledIn installationEnabled) registry := by
  refine ⟨fun ctx registry installationEnabled ds h d hd => ?_, fun overrides operators hcomponents hagree =>
    undeclared_no_effect hrc hcomponents hagree⟩
  have hresolved := resolveBoxComponent_ok hrc
  have hname : (rc.enabledIn installationEnabled).kind = .dataplane →
      (rc.enabledIn installationEnabled).name = ComponentKind.dataplane.text := by
    intro hk
    have hk : kind = .dataplane := hresolved.kind.symm.trans hk
    exact hresolved.name.trans (by rw [hk]; rfl)
  obtain ⟨hkind, built, b, numa, hbuild, hb, hinstance⟩ := renderDeployments_mem hname h hd
  have hkind : kind ≠ .sidecar := hresolved.kind ▸ hkind
  obtain ⟨composed, patched, overridden, networked, listening, hpasses⟩ := renderDeployment_passes hinstance.render
  obtain ⟨box', hbox', hwired⟩ := hresolved.box
  cases hbox.symm.trans hbox'
  obtain ⟨hoverrides, henabled, -⟩ := resolved_overrideImage hrc hkind
  have himages {name image : String} : (name, image) ∈ imageOverrides Γ rc ↔ Pinned Γ config yanet rc name image := by
    rw [imageOverrides, List.mem_append, Pinned, mem_containerImages hrc hkind, mem_sidecarImages hrc]
    intro key hkey override ho
    rw [hoverrides, hresolved.kind] at ho
    exact accepted_keys hkey hwired hvalid ho
  obtain ⟨hover, hhas, -⟩ := applyInstallationOverrides_ok hpasses.override
  obtain ⟨hfaces, hreplicas⟩ := hpasses.faces
  set restored := restoreWorkloadIdentity overridden (captureWorkloadIdentity composed) with hrestored
  -- a rendered container is a restored one, which is a patched one after the overrides or a captured one
  have hnames : (restored.pod.allContainers.map (·.name)).Nodup := by
    have hvalidNames := (validateComposedPod_ok hpasses.valid).containerNames
    have hfirst := congrArg (List.map Prod.fst) hfaces
    rw [List.map_map, List.map_map] at hfirst
    exact hfirst ▸ hvalidNames
  have hcontainers : overridden.pod.allContainers =
      patched.pod.allContainers.map (overriddenContainer Γ (rc.enabledIn installationEnabled) composed) := by
    rw [hover, allContainers_mapContainers]
    rfl
  have hface (c : Container) : (overriddenContainer Γ (rc.enabledIn installationEnabled) composed c).face =
      (c.name, (setImages (imageOverrides Γ rc) c).image) := overriddenContainer_face ..
  have hoverriddenHas {name : String} : overridden.Has name ↔ patched.Has name := by
    have hname (c : Container) : (overriddenContainer Γ (rc.enabledIn installationEnabled) composed c).name = c.name :=
      congrArg Prod.fst (hface c)
    simp only [Deployment.Has, hcontainers, List.mem_map, exists_exists_and_eq_and, hname]
  have horigin : ∀ c ∈ d.pod.allContainers,
      (∃ c0 ∈ patched.pod.allContainers, c.face = (c0.name, (setImages (imageOverrides Γ rc) c0).image)) ∨
        (¬patched.Has c.name ∧ ∃ c0 ∈ composed.pod.initContainers, c0.face = c.face) := by
    intro c hc
    have hmem : c.face ∈ restored.pod.allContainers.map Container.face := hfaces ▸ List.mem_map_of_mem hc
    obtain ⟨c', hc', heq⟩ := List.mem_map.1 hmem
    have hname : c'.name = c.name := congrArg Prod.fst heq
    rcases mem_restoreWorkloadIdentity hnames hc' with ⟨c0, hc0, hc0'⟩ | ⟨hnone, b, hb, hb'⟩
    · rw [hcontainers] at hc0
      obtain ⟨x, hx, rfl⟩ := List.mem_map.1 hc0
      exact .inl ⟨x, hx, by rw [← heq, ← hc0', hface]⟩
    · rw [hoverriddenHas, hname] at hnone
      exact .inr ⟨hnone, b, hb, hb'.trans heq⟩
  refine ⟨built, b, composed, patched, hbuild, hb, hpasses.compose, hpasses.patch, hinstance.render, fun name image hpinned => ⟨?_, ?_⟩,
    fun c hc hfree => ?_, fun c hc hfree => composed_image hrc hinstance.skeleton.initContainers hpasses.compose hc hfree, ?_⟩
  · -- the overrides found the container, and restoring the identity keeps its name
    obtain ⟨x, hx, rfl⟩ := hoverriddenHas.2 (hhas (name, image) (himages.2 hpinned))
    obtain ⟨expected, -, hinits⟩ := restoreWorkloadIdentity_inits overridden composed
    have hrestoredHas : ∃ c ∈ restored.pod.allContainers, c.name = x.name := by
      rcases List.mem_append.1 hx with hx | hx
      · exact ⟨x, List.mem_append_left _ hx, rfl⟩
      · obtain ⟨c, hc, hname⟩ := name_mem_restoreNativeSidecars hx
        exact ⟨c, List.mem_append_right _ (hinits ▸ hc), hname⟩
    obtain ⟨c, hc, hname⟩ := hrestoredHas
    have hmem : c.face ∈ d.pod.allContainers.map Container.face := hfaces ▸ List.mem_map_of_mem hc
    obtain ⟨c', hc', heq⟩ := List.mem_map.1 hmem
    exact ⟨c', hc', (congrArg Prod.fst heq).trans hname⟩
  · rintro c hc rfl
    rcases horigin c hc with ⟨c0, hc0, heq⟩ | ⟨hnone, -⟩
    · have hname : c.name = c0.name := congrArg Prod.fst heq
      rw [hname] at hpinned
      have himage : c.image = (setImages (imageOverrides Γ rc) c0).image := congrArg Prod.snd heq
      rw [himage]
      exact setImages_of_mem (himages.2 hpinned) fun image' hmem => (himages.1 hmem).unique hrc hpinned
    · exact absurd (hhas (c.name, image) (himages.2 hpinned)) hnone
  · rcases horigin c hc with ⟨c0, hc0, heq⟩ | ⟨hnone, c0, hc0, heq⟩
    · have hname : c.name = c0.name := congrArg Prod.fst heq
      have himage : c.image = (setImages (imageOverrides Γ rc) c0).image := congrArg Prod.snd heq
      refine .inl ⟨c0, hc0, hname.symm, ?_⟩
      rw [himage, setImages_of_not_mem]
      intro image hmem
      exact hfree image (hname ▸ himages.1 hmem)
    · exact .inr ⟨hnone, c0, hc0, congrArg Prod.fst heq, congrArg Prod.snd heq⟩
  · have hoverride : componentOverride yanet kind operatorName = rc.overrides := by
      rw [hoverrides, hresolved.kind, hresolved.name, componentOverride_roleName]
    rw [hreplicas, hover, hoverride]
    refine overriddenReplicas_eq (fun hfalse => ?_) _
    have hfalse : rc.overrides.bind (·.enabled) = some false := hfalse
    obtain ⟨o, ho, hfalse⟩ := Option.bind_eq_some_iff.1 hfalse
    have hdisabled : rc.enabled = false := by
      rw [henabled, ho, resolveEnabled, hfalse]
      rfl
    rw [ResolvedComponent.enabledIn, hdisabled]
    rfl

end

/-! ## An installation with a pinned operator -/

/-- A configuration with one operator. -/
def pinnedConfig : YanetConfigSpec :=
  { images := { registry := "registry.local", imagePrefix := "yanet" }
    components := { operators := [{ name := "route", containers :=
      [{ name := "main", image := { imagePrefix := some "", name := "route", tag := "v1" } }] }] }
    boxTypes := [{ name := "box", operators := StrMap.of [("route", {})] }] }

/-- An installation that pins a tag, and still names a container that is gone. -/
def pinnedSpec : YanetSpec :=
  { boxType := "box"
    components := some { operators := StrMap.of [("route",
      { containers := StrMap.of [("main", { tag := "v2" }), ("gone", { tag := "v0" })] })] } }

/-- Its resolved operator. -/
def pinnedRoute : ResolvedComponent :=
  { kind := .operator
    name := "route"
    enabled := true
    image := { registry := "registry.local", name := "route", tag := "v2" }
    containers := [{ name := "main", image := { registry := "registry.local", name := "route", tag := "v2" } }]
    overrides := some { containers := StrMap.of [("main", { tag := "v2" }), ("gone", { tag := "v0" })] } }

/-- The platform of the example. -/
def pinnedPlatform : Platform := Platform.tabulated [] fun _ d => .ok d

/-- The context of the example. -/
def pinnedContext : BuildContext :=
  { yanetName := "lab"
    ns := "lab"
    boxType := "box"
    nodeName := "node-a"
    ownerRef := { apiVersion := "yanet.yanet-platform.io/v1alpha1", kind := "Yanet", name := "lab", uid := 1 } }

/-- The operator renders, and its container has the pinned image. -/
theorem pinnedRoute_image :
    (∃ ds, renderDeployments pinnedPlatform pinnedContext (pinnedRoute.enabledIn true) ∅ = .ok ds ∧ ds ≠ []) ∧
      ∀ ds, renderDeployments pinnedPlatform pinnedContext (pinnedRoute.enabledIn true) ∅ = .ok ds → ∀ d ∈ ds,
        d.Has "main" ∧ ∀ c ∈ d.pod.allContainers, c.name = "main" → c.image = "registry.local/route:v2" := by
  have hbox : findBoxType pinnedConfig pinnedSpec.boxType =
      .ok { name := "box", operators := StrMap.of [("route", {})] } := by decide +kernel
  have hrc : resolveBoxComponent pinnedPlatform pinnedConfig pinnedSpec .operator "route" = .ok (some pinnedRoute) := by
    decide +kernel
  have hwin := (installationOverrides_win hbox (by decide +kernel) hrc).1 pinnedContext ∅ true
  refine ⟨?_, fun ds h d hd => ?_⟩
  · have hok : ((renderDeployments pinnedPlatform pinnedContext (pinnedRoute.enabledIn true) ∅).toOption.any
        fun ds => ds.length == 1) = true := by decide +kernel
    obtain ⟨ds, hds, hone⟩ := exists_of_any hok
    refine ⟨ds, hds, ?_⟩
    rintro rfl
    cases hone
  · obtain ⟨built, b, composed, patched, -, -, -, -, -, hpinned, -⟩ := hwin ds h d hd
    refine hpinned "main" "registry.local/route:v2" (.inl ⟨_, { tag := "v2" }, rfl, ?_, ?_, ?_⟩)
    · decide +kernel
    · exact fun hempty => absurd hempty.2 (by decide)
    · decide +kernel

end YanetOperator
