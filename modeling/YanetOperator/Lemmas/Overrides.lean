import YanetOperator.Lemmas.Ports

/-!
# What the overrides of an installation write

`applyInstallationOverrides` as one change of every container: the images that are overridden, and the hugepages of the dataplane
as they were before the patches.
-/

namespace YanetOperator

open Check

/-! ## Changing every container -/

/-- Change every container of a Deployment. -/
def Deployment.mapContainers (d : Deployment) (g : Container → Container) : Deployment := d.withPod (d.pod.mapContainers g)

theorem modifyContainer_eq (d : Deployment) (name : String) (f : Container → Container) :
    modifyContainer d name f = d.mapContainers fun c => if c.name = name then f c else c := rfl

theorem mapContainers_mapContainers (d : Deployment) (g g' : Container → Container) :
    (d.mapContainers g).mapContainers g' = d.mapContainers (g' ∘ g) := by
  simp [Deployment.mapContainers, Deployment.withPod, Deployment.pod, PodSpec.mapContainers]

theorem mapContainers_id (d : Deployment) : d.mapContainers id = d := by
  simp [Deployment.mapContainers, Deployment.withPod, Deployment.pod, PodSpec.mapContainers]

theorem allContainers_mapContainers (d : Deployment) (g : Container → Container) :
    (d.mapContainers g).pod.allContainers = d.pod.allContainers.map g := by
  simp [Deployment.mapContainers, Deployment.withPod, Deployment.pod, PodSpec.mapContainers, PodSpec.allContainers]

theorem mapContainers_congr {d : Deployment} {f g : Container → Container} (h : ∀ c ∈ d.pod.allContainers, f c = g c) :
    d.mapContainers f = d.mapContainers g := by
  have hinits : d.pod.initContainers.map f = d.pod.initContainers.map g :=
    List.map_congr_left fun c hc => h c (List.mem_append_right _ hc)
  have hcontainers : d.pod.containers.map f = d.pod.containers.map g :=
    List.map_congr_left fun c hc => h c (List.mem_append_left _ hc)
  unfold Deployment.mapContainers PodSpec.mapContainers
  rw [hinits, hcontainers]

/-- The container that is found is the only one of its name. -/
theorem findContainer_ok {d : Deployment} {name : String} {c : Container} (h : findContainer d name = .ok c) :
    c ∈ d.pod.allContainers ∧ c.name = name ∧ ∀ x ∈ d.pod.allContainers, x.name = name → x = c := by
  unfold findContainer at h
  split at h
  · cases h
  · next c' hf =>
    cases h
    have hmem : c ∈ d.pod.allContainers.filter (·.name == name) := by simp [hf]
    rw [List.mem_filter] at hmem
    refine ⟨hmem.1, by simpa using hmem.2, fun x hx hname => ?_⟩
    have hx' : x ∈ d.pod.allContainers.filter (·.name == name) := List.mem_filter.2 ⟨hx, by simpa using hname⟩
    rw [hf] at hx'
    exact List.mem_singleton.1 hx'
  · cases h

/-! ## Images -/

/-- Give a container the image of an entry under its name. -/
def setImage (c : Container) (e : String × String) : Container := if c.name = e.1 then { c with image := e.2 } else c

/-- Give a container the images of the entries under its name, one after the other. -/
def setImages (images : List (String × String)) (c : Container) : Container := images.foldl setImage c

theorem setImage_name (c : Container) (e : String × String) : (setImage c e).name = c.name := by
  unfold setImage
  split <;> rfl

/-- Only the image is set, to that of the last entry under the name. -/
theorem setImages_eq (images : List (String × String)) (c : Container) :
    setImages images c = { c with image := ((images.reverse.find? (·.1 == c.name)).map (·.2)).getD c.image } := by
  induction images generalizing c with
  | nil => rfl
  | cons e images ih =>
    have hstep : setImages (e :: images) c = setImages images (setImage c e) := rfl
    rw [hstep, ih, setImage_name, List.reverse_cons, List.find?_append]
    unfold setImage
    cases hf : images.reverse.find? (·.1 == c.name) with
    | some e' => split <;> rfl
    | none =>
      by_cases heq : c.name = e.1
      · simp [heq]
      · have hne : ¬e.1 = c.name := fun h => heq h.symm
        simp [heq, hne]

/-- The image of the only entry under the name is set. -/
theorem setImages_of_mem {images : List (String × String)} {c : Container} {image : String} (h : (c.name, image) ∈ images)
    (hunique : ∀ image', (c.name, image') ∈ images → image' = image) : (setImages images c).image = image := by
  rw [setImages_eq]
  cases hf : images.reverse.find? (·.1 == c.name) with
  | none => exact absurd (List.find?_eq_none.1 hf _ (List.mem_reverse.2 h)) (by simp)
  | some e =>
    have hname : e.1 = c.name := by simpa using List.find?_some hf
    refine hunique e.2 ?_
    rw [← hname]
    exact List.mem_reverse.1 (List.mem_of_find?_eq_some hf)

/-- A container without an entry keeps its image. -/
theorem setImages_of_not_mem {images : List (String × String)} {c : Container} (h : ∀ image, (c.name, image) ∉ images) :
    (setImages images c).image = c.image := by
  rw [setImages_eq]
  have hf : images.reverse.find? (·.1 == c.name) = none := by
    rw [List.find?_eq_none]
    intro e he heq
    have hname : e.1 = c.name := by simpa using heq
    refine h e.2 ?_
    rw [← hname]
    exact List.mem_reverse.1 he
  rw [hf]
  rfl

theorem setImages_self {images : List (String × String)} {c : Container} (h : ∀ e ∈ images, e.2 = c.image) :
    setImages images c = c := by
  rw [setImages_eq]
  cases hf : images.reverse.find? (·.1 == c.name) with
  | none => rfl
  | some e => rw [Option.map_some, Option.getD_some, h e (List.mem_reverse.1 (List.mem_of_find?_eq_some hf))]

theorem setImages_append (images images' : List (String × String)) (c : Container) :
    setImages (images ++ images') c = setImages images' (setImages images c) := List.foldl_append

/-- The entry of an explicit image override: one with a name or a tag. -/
def explicitImage (name : String) (image : ResolvedImage) (override : Option YanetContainerOverride) : List (String × String) :=
  match override with
  | none => []
  | some o => if o.name = "" ∧ o.tag = "" then [] else [(name, image.fullPath)]

/-- A Deployment has a container of a name. -/
def Deployment.Has (d : Deployment) (name : String) : Prop := ∃ c ∈ d.pod.allContainers, c.name = name

theorem has_setImages {d : Deployment} {images : List (String × String)} {name : String} :
    (d.mapContainers (setImages images)).Has name ↔ d.Has name := by
  have hname (c : Container) : (setImages images c).name = c.name := by rw [setImages_eq]
  simp only [Deployment.Has, allContainers_mapContainers, List.mem_map, exists_exists_and_eq_and, hname]

/-- What a call that sets images writes: the images, on containers that are there. -/
def SetsImages (images : List (String × String)) (d d' : Deployment) : Prop :=
  d' = d.mapContainers (setImages images) ∧ ∀ e ∈ images, d.Has e.1

theorem SetsImages.nil (d : Deployment) : SetsImages [] d d := ⟨(mapContainers_id d).symm, nofun⟩

theorem SetsImages.append {images images' : List (String × String)} {a b c : Deployment} (h : SetsImages images a b)
    (h' : SetsImages images' b c) : SetsImages (images ++ images') a c := by
  obtain ⟨rfl, hhas⟩ := h
  obtain ⟨rfl, hhas'⟩ := h'
  refine ⟨?_, ?_⟩
  · rw [mapContainers_mapContainers]
    congr 1
    funext c
    exact (setImages_append _ _ c).symm
  · rw [List.forall_mem_append]
    exact ⟨hhas, fun e he => has_setImages.1 (hhas' e he)⟩

theorem applyImageOverride_ok {d d' : Deployment} {name : String} {image : ResolvedImage}
    {override : Option YanetContainerOverride} (h : applyImageOverride d name image override = .ok d') :
    SetsImages (explicitImage name image override) d d' := by
  unfold applyImageOverride at h
  unfold explicitImage
  cases override with
  | none =>
    cases h
    exact SetsImages.nil _
  | some o =>
    dsimp only at h ⊢
    by_cases hempty : o.name = "" ∧ o.tag = ""
    · rw [if_pos hempty] at h
      cases h
      rw [if_pos hempty]
      exact SetsImages.nil _
    · rw [if_neg hempty] at h
      obtain ⟨c, hc, h⟩ := bind_eq_ok.1 h
      cases h
      rw [if_neg hempty]
      obtain ⟨hmem, hname, -⟩ := findContainer_ok hc
      refine ⟨rfl, fun e he => ?_⟩
      obtain rfl := List.mem_singleton.1 he
      exact ⟨c, hmem, hname⟩

/-- A loop of image overrides sets their images one after the other. -/
theorem foldlM_setImages {ι : Type} {f : Deployment → ι → Except String Deployment} {images : ι → List (String × String)}
    {xs : List ι} {d d' : Deployment} (hf : ∀ d x d', f d x = .ok d' → SetsImages (images x) d d')
    (h : xs.foldlM f d = .ok d') : SetsImages (xs.flatMap images) d d' := by
  induction xs generalizing d with
  | nil =>
    cases h
    exact SetsImages.nil _
  | cons x xs ih =>
    rw [List.foldlM_cons, bind_eq_ok] at h
    obtain ⟨e, he, h⟩ := h
    rw [List.flatMap_cons]
    exact (hf _ x e he).append (ih h)

/-! ## The overrides of a component -/

/-- The explicit image overrides of the containers of a component. -/
def containerImages (component : ResolvedRole) : List (String × String) :=
  match component.overrides with
  | none => []
  | some overrides => overrides.containers.toList.flatMap fun e =>
    match overrideImage component e.1 with
    | none => []
    | some image => explicitImage e.1 image (some e.2)

/-- The explicit image overrides of the enabled sidecars, under their scoped names. -/
def sidecarImages (Γ : Platform) (component : ResolvedComponent) : List (String × String) :=
  (component.sidecars.filter (·.enabled)).flatMap fun s =>
    explicitImage (scopedOperatorName Γ s.name s.name) s.image s.sidecarOverride

/-- The images an installation sets. -/
def imageOverrides (Γ : Platform) (component : ResolvedComponent) : List (String × String) :=
  containerImages component.toResolvedRole ++ sidecarImages Γ component

theorem applyContainerOverrides_ok {component : ResolvedRole} {d d' : Deployment}
    (h : applyContainerOverrides component d = .ok d') : SetsImages (containerImages component) d d' := by
  unfold applyContainerOverrides at h
  unfold containerImages
  cases ho : component.overrides with
  | none =>
    rw [ho] at h
    cases h
    exact SetsImages.nil _
  | some overrides =>
    rw [ho] at h
    refine foldlM_setImages (fun d e d' he => ?_) h
    dsimp only at he
    cases hi : overrideImage component e.1 with
    | none =>
      rw [hi] at he
      cases he
      exact SetsImages.nil _
    | some image =>
      rw [hi] at he
      exact applyImageOverride_ok he

/-! ## Hugepages and replicas -/

/-- The hugepages that a dataplane reserved before its patches, if it did: the resources of its first container. -/
def reservedHugepages (component : ResolvedRole) (unpatched : Deployment) : Option ResourceRequirements :=
  if component.kind ≠ .dataplane then none
  else (unpatched.pod.containers.head?.map (·.resources)).filter fun r => hasHugepages r.requests

/-- Give the primary container of a dataplane back its hugepages. -/
def restoreContainerHugepages (original : Option ResourceRequirements) (c : Container) : Container :=
  match original with
  | none => c
  | some original =>
    if c.name = dataplaneContainerName then
      { c with resources :=
          { requests := restoreHugepages c.resources.requests original.requests
            limits := restoreHugepages c.resources.limits original.limits } }
    else c

/-- Whether an installation decides the replicas of a component: it is disabled, or it is explicitly enabled. -/
def decidesReplicas (component : ResolvedRole) : Prop :=
  component.enabled = false ∨ (component.overrides.bind (·.enabled)).isSome = true

instance (component : ResolvedRole) : Decidable (decidesReplicas component) := inferInstanceAs (Decidable (_ ∨ _))

/-- The replicas after the overrides. -/
def overriddenReplicas (component : ResolvedRole) (patched : Option Int) : Option Int :=
  if decidesReplicas component then replicasFor component else patched

/-- A container after the overrides. -/
def overriddenContainer (Γ : Platform) (component : ResolvedComponent) (unpatched : Deployment) (c : Container) : Container :=
  restoreContainerHugepages (reservedHugepages component.toResolvedRole unpatched) (setImages (imageOverrides Γ component) c)

/-- A Deployment with other replicas. -/
def Deployment.withReplicas (d : Deployment) (replicas : Option Int) : Deployment :=
  { d with spec := { d.spec with replicas := replicas } }

/-- What the overrides of an installation make of a patched Deployment: its replicas and its containers change, and nothing else. Every
container that gets an image is there, and so is the primary one when hugepages are restored. -/
theorem applyInstallationOverrides_ok {Γ : Platform} {d unpatched d' : Deployment} {component : ResolvedComponent}
    (h : applyInstallationOverrides Γ d unpatched component = .ok d') :
    d' = (d.withReplicas (overriddenReplicas component.toResolvedRole d.spec.replicas)).mapContainers
        (overriddenContainer Γ component unpatched) ∧
      (∀ e ∈ imageOverrides Γ component, d.Has e.1) ∧
      ((reservedHugepages component.toResolvedRole unpatched).isSome = true → d.Has dataplaneContainerName) := by
  unfold applyInstallationOverrides at h
  have hstart : (if component.enabled = false ∨ (component.overrides.bind (·.enabled)).isSome = true then
      { d with spec := { d.spec with replicas := replicasFor component.toResolvedRole } } else d : Deployment) =
      d.withReplicas (overriddenReplicas component.toResolvedRole d.spec.replicas) := by
    by_cases hdecides : decidesReplicas component.toResolvedRole
    · rw [overriddenReplicas, if_pos hdecides]
      exact if_pos hdecides
    · rw [overriddenReplicas, if_neg hdecides]
      exact if_neg hdecides
  dsimp only at h
  rw [hstart] at h
  obtain ⟨d1, h1, h⟩ := bind_eq_ok.1 h
  obtain ⟨d2, h2, h⟩ := bind_eq_ok.1 h
  obtain ⟨hd2, himages⟩ : SetsImages (imageOverrides Γ component)
      (d.withReplicas (overriddenReplicas component.toResolvedRole d.spec.replicas)) d2 :=
    (applyContainerOverrides_ok h1).append (foldlM_setImages (fun d s d' hs => applyImageOverride_ok hs) h2)
  have hunreserved (hnone : reservedHugepages component.toResolvedRole unpatched = none) (hd : d' = d2) :
      d' = (d.withReplicas (overriddenReplicas component.toResolvedRole d.spec.replicas)).mapContainers
          (overriddenContainer Γ component unpatched) ∧
        (∀ e ∈ imageOverrides Γ component, d.Has e.1) ∧
        ((reservedHugepages component.toResolvedRole unpatched).isSome = true → d.Has dataplaneContainerName) := by
    have hover : overriddenContainer Γ component unpatched = setImages (imageOverrides Γ component) := by
      funext c
      rw [overriddenContainer, hnone, restoreContainerHugepages]
    rw [hd, hover, hnone]
    exact ⟨hd2, himages, nofun⟩
  by_cases hkind : component.kind = .dataplane
  · rw [if_neg (not_not_intro hkind)] at h
    cases hcs : unpatched.pod.containers with
    | nil =>
      rw [hcs] at h
      cases h
      exact hunreserved (by rw [reservedHugepages, if_neg (not_not_intro hkind), hcs]; rfl) rfl
    | cons original rest =>
      rw [hcs] at h
      dsimp only at h
      by_cases hhp : hasHugepages original.resources.requests = true
      · rw [if_pos hhp] at h
        obtain ⟨c, hc, h⟩ := bind_eq_ok.1 h
        cases h
        have hreserved : reservedHugepages component.toResolvedRole unpatched = some original.resources := by
          rw [reservedHugepages, if_neg (not_not_intro hkind), hcs]
          simp [hhp]
        refine ⟨?_, himages, fun _ => ?_⟩
        · rw [modifyContainer_eq, hd2, mapContainers_mapContainers]
          congr 1
          funext c
          rw [overriddenContainer, hreserved]
          rfl
        · obtain ⟨hmem, hname, -⟩ := findContainer_ok hc
          have hhas : d2.Has dataplaneContainerName := ⟨c, hmem, hname⟩
          rw [hd2, has_setImages] at hhas
          exact hhas
      · rw [if_neg hhp] at h
        cases h
        refine hunreserved ?_ rfl
        rw [reservedHugepages, if_neg (not_not_intro hkind), hcs]
        simp [hhp]
  · rw [if_pos hkind] at h
    cases h
    exact hunreserved (by rw [reservedHugepages, if_pos hkind]) rfl

end YanetOperator
