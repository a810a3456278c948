import YanetOperator.Lemmas.FreeComponents
import YanetOperator.Theorems.Admission
import YanetOperator.Theorems.DataplaneNetworks

/-!
# Rendering without patches never fails

What the builder makes of an admitted configuration passes every check the renderer makes of it afterwards. The two things that an
admitted configuration leaves open are the hugepages of a node and the networks of other namespaces.
-/

namespace YanetOperator

open Check

/-! ## Networks -/

/-- What is checked of one attachment alone. -/
structure NetworkAttachment.Valid (n : NetworkAttachment) : Prop where
  name : Text.isDNS1123Subdomain n.name = []
  ns : n.ns = "" ∨ Text.isDNS1123Label n.ns = []
  interface : ¬(n.interface.length > 15 ∨ networkInterfaceName n.interface = false ∨ n.interface ∈ [".", "..", "lo", "eth0"])
  resource : isExtendedResource n.resourceName = true

theorem validateNetworkAttachmentsFrom_valid {interfaces : List String} {nads : StrMap String} {i : Nat}
    {networks : List NetworkAttachment} (h : validateNetworkAttachmentsFrom interfaces nads i networks = .ok ()) :
    ∀ n ∈ networks, n.Valid := by
  induction networks generalizing interfaces nads i with
  | nil =>
    intro n hn
    cases hn
  | cons network networks ih =>
    simp only [validateNetworkAttachmentsFrom, seq_ok, refuse_ok] at h
    obtain ⟨hname, hns, hinterface, -, hresource, -, hrest⟩ := h
    refine List.forall_mem_cons.2 ⟨⟨not_not.1 hname, ?_, hinterface, by simpa using hresource⟩, ih hrest⟩
    by_cases hempty : network.ns = ""
    · exact Or.inl hempty
    · exact Or.inr (by_contra fun hne => hns ⟨hempty, hne⟩)

/-- A list is accepted when each attachment is valid, no interface repeats, and each definition has one resource. -/
theorem validateNetworkAttachmentsFrom_of {interfaces : List String} {nads : StrMap String} {i : Nat}
    {networks : List NetworkAttachment} (hvalid : ∀ n ∈ networks, n.Valid) (hnodup : (networks.map (·.interface)).Nodup)
    (hnew : ∀ n ∈ networks, n.interface ∉ interfaces) (hrecorded : ∀ n ∈ networks, ∀ r, nads[n.identity]? = some r → r = n.resourceName)
    (hsame : ∀ n ∈ networks, ∀ m ∈ networks, n.identity = m.identity → n.resourceName = m.resourceName) :
    validateNetworkAttachmentsFrom interfaces nads i networks = .ok () := by
  induction networks generalizing interfaces nads i with
  | nil => rfl
  | cons network networks ih =>
    obtain ⟨hfirst, hlater⟩ := List.forall_mem_cons.1 hvalid
    obtain ⟨hunused, hnodup⟩ := List.nodup_cons.1 hnodup
    have hdefined : ∀ r, nads[network.identity]? = some r → r = network.resourceName := hrecorded network (List.mem_cons_self ..)
    simp only [validateNetworkAttachmentsFrom, seq_ok, refuse_ok]
    refine ⟨not_not.2 hfirst.name, ?_, hfirst.interface, hnew network (List.mem_cons_self ..), by simp [hfirst.resource], ?_,
      ih hlater hnodup ?_ ?_ ?_⟩
    · rintro ⟨hne, hlabel⟩
      exact hfirst.ns.elim hne hlabel
    · rw [← NetworkAttachment.identity]
      cases hfound : nads[network.identity]? with
      | none => simp
      | some r => simp [hdefined r hfound]
    · intro n hn hmem
      rcases List.mem_cons.1 hmem with heq | hmem
      · exact hunused (List.mem_map.2 ⟨n, hn, heq⟩)
      · exact hnew n (List.mem_cons_of_mem _ hn) hmem
    · intro n hn r hr
      by_cases heq : network.identity = n.identity
      · rw [← hsame network (List.mem_cons_self ..) n (List.mem_cons_of_mem _ hn) heq]
        rw [← heq, ← NetworkAttachment.identity, Std.ExtTreeMap.getElem?_insert_self] at hr
        exact (Option.some.inj hr).symm
      · refine hrecorded n (List.mem_cons_of_mem _ hn) r ?_
        rw [← NetworkAttachment.identity, Std.ExtTreeMap.getElem?_insert, if_neg (by simpa using heq)] at hr
        exact hr
    · exact fun n hn m hm => hsame n (List.mem_cons_of_mem _ hn) m (List.mem_cons_of_mem _ hm)

/-- The attachments of a list in a namespace: those that name one definition agree on its resource. -/
def NetworksAgree (ns : String) (networks : List NetworkAttachment) : Prop :=
  ∀ n ∈ networks, ∀ m ∈ networks, (n.inNamespace ns).ns = (m.inNamespace ns).ns → n.name = m.name → n.resourceName = m.resourceName

theorem slash_not_mem_label {s : String} (h : Text.isDNS1123Label s = []) : '/' ∉ s.toList := by
  intro hmem
  exact absurd ((LabelEnd.of_label h).2 _ hmem) (by decide)

/-- A validated list stays valid where empty namespaces are replaced, if its attachments agree there. -/
theorem validateNetworkAttachments_inNamespace {ns : String} {networks : List NetworkAttachment} (hns : Text.isDNS1123Label ns = [])
    (h : validateNetworkAttachments networks = .ok ()) (hagree : NetworksAgree ns networks) :
    validateNetworkAttachments (networks.map (·.inNamespace ns)) = .ok () := by
  have hvalid := validateNetworkAttachmentsFrom_valid h
  have hlabel : ∀ n ∈ networks, Text.isDNS1123Label (n.inNamespace ns).ns = [] := by
    intro n hn
    show Text.isDNS1123Label (if n.ns = "" then ns else n.ns) = []
    split
    · exact hns
    · next hne => exact (hvalid n hn).ns.resolve_left hne
  refine validateNetworkAttachmentsFrom_of ?_ ?_ ?_ ?_ ?_
  · intro n hn
    obtain ⟨m, hm, rfl⟩ := List.mem_map.1 hn
    have hm' := hvalid m hm
    exact ⟨hm'.name, Or.inr (hlabel m hm), hm'.interface, hm'.resource⟩
  · rw [List.map_map]
    exact (validateNetworkAttachmentsFrom_ok h).1
  · intro n _ hmem
    cases hmem
  · intro n _ r hr
    simp at hr
  · intro n' hn' m' hm' hidentity
    obtain ⟨n, hn, rfl⟩ := List.mem_map.1 hn'
    obtain ⟨m, hm, rfl⟩ := List.mem_map.1 hm'
    obtain ⟨hns', hname⟩ := Text.slash_inj (slash_not_mem_label (hlabel n hn)) (slash_not_mem_label (hlabel m hm)) hidentity
    exact hagree n hn m hm hns' hname

theorem slash_mem_extended {s : String} (h : isExtendedResource s = true) : '/' ∈ s.toList := by
  unfold isExtendedResource resourcePrefix at h
  by_contra hne
  rw [if_neg hne] at h
  cases h

/-- The typed networks of a Deployment without the annotation and without devices. -/
theorem configureDataplaneNetworks_total {Γ : Platform} {d : Deployment} {component : ResolvedRole}
    (hannotations : d.spec.template.annotations = ∅) (hfree : SlashFree d.pod)
    (hresources : ∀ r ∈ component.networkResources, '/' ∈ r.toList) (hns : Text.isDNS1123Label d.metadata.ns = [])
    (hvalid : validateNetworkAttachments (component.networks.getD []) = .ok ())
    (hagree : NetworksAgree d.metadata.ns (component.networks.getD [])) :
    ∃ d', configureDataplaneNetworks Γ d component = .ok d' := by
  unfold configureDataplaneNetworks
  cases hnetworks : component.networks with
  | none => exact ⟨d, rfl⟩
  | some declared =>
    rw [hnetworks, Option.getD_some] at hvalid hagree
    have hlacks : ∀ c ∈ d.pod.allContainers, ∀ r ∈ component.networkResources,
        ¬((c.resources.requests[r]?).isSome = true ∨ (c.resources.limits[r]?).isSome = true) := by
      intro c hc r hr hsome
      exact hfree c hc r (hsome.imp Option.isSome_iff_ne_none.1 Option.isSome_iff_ne_none.1) (hresources r hr)
    have hok := validateNetworkAttachments_inNamespace hns hvalid hagree
    dsimp only
    have hfinish (networks : List NetworkAttachment) (d1 : Deployment) :
        ∃ d', (if networks = [] then pure d else pure d1 : Except String Deployment) = .ok d' := by
      split
      · exact ⟨d, rfl⟩
      · exact ⟨d1, rfl⟩
    obtain ⟨d', hd'⟩ := hfinish (declared.map (·.inNamespace d.metadata.ns)) _
    refine ⟨d', seq_ok.2 ⟨refuse_ok.2 ?_, seq_ok.2 ⟨forM_ok.2 fun c hc => forM_ok.2 fun r hr => refuse_ok.2 (hlacks c hc r hr),
      seq_ok.2 ⟨hok, hd'⟩⟩⟩⟩
    rw [hannotations]
    simp

/-! ## Overrides and networks -/

theorem checkSidecarOrder_of {cs : List Container} (h : ∀ c ∈ cs, c.restartPolicy = some restartAlways) :
    checkSidecarOrder (cs.map (·.name)) cs = .ok () := by
  induction cs with
  | nil => rfl
  | cons c cs ih =>
    obtain ⟨hc, hcs⟩ := List.forall_mem_cons.1 h
    rw [List.map_cons, checkSidecarOrder, hc]
    exact (if_neg (by simp)).trans (ih hcs)

/-- Hugepages are restored from names that were there. -/
theorem restoreHugepages_key {patched original : ResourceList} {k : String} (h : (restoreHugepages patched original)[k]? ≠ none) :
    patched[k]? ≠ none ∨ original[k]? ≠ none := by
  by_contra hnone
  rw [not_or, not_not, not_not] at hnone
  rw [restoreHugepages, StrMap.getElem?_override, StrMap.getElem?_eraseWhere, StrMap.getElem?_eraseWhere, hnone.1, hnone.2] at h
  simp at h

theorem SlashFree.overridden {Γ : Platform} {component : ResolvedComponent} {d : Deployment} {replicas : Option Int}
    (h : SlashFree d.pod) : SlashFree ((d.withReplicas replicas).mapContainers (overriddenContainer Γ component d)).pod := by
  intro c' hc' k hk
  rw [allContainers_mapContainers] at hc'
  obtain ⟨c, hc, rfl⟩ := List.mem_map.1 hc'
  have hc : c ∈ d.pod.allContainers := hc
  rw [overriddenContainer, setImages_eq] at hk
  unfold restoreContainerHugepages at hk
  split at hk
  · exact h c hc k hk
  · next original horiginal =>
    have hkept : ∃ c ∈ d.pod.allContainers, c.resources = original := by
      unfold reservedHugepages at horiginal
      split at horiginal
      · cases horiginal
      · obtain ⟨hhead, -⟩ := Option.filter_eq_some_iff.1 horiginal
        obtain ⟨primary, hprimary, heq⟩ := Option.map_eq_some_iff.1 hhead
        exact ⟨primary, List.mem_append_left _ (List.mem_of_mem_head? hprimary), heq⟩
    obtain ⟨primary, hprimary, heq⟩ := hkept
    subst heq
    split at hk
    · rcases hk with hk | hk
      · rcases restoreHugepages_key hk with hk | hk
        · exact h c hc k (Or.inl hk)
        · exact h primary hprimary k (Or.inl hk)
      · rcases restoreHugepages_key hk with hk | hk
        · exact h c hc k (Or.inr hk)
        · exact h primary hprimary k (Or.inr hk)
    · exact h c hc k hk

section

variable {Γ : Platform} {ctx : BuildContext} {component : ResolvedComponent} {registry : PatchRegistry} {hugepages : Option Hugepages}
  {b composed : Deployment}

theorem FreeComponent.ownNames_dataplane (hkind : component.kind = .dataplane) : ownNames component.toResolvedRole = ["dataplane"] := by
  unfold ownNames
  rw [hkind, if_neg (by decide), if_neg (by decide)]
  rfl

/-- The networks of a component in a namespace: they are valid, and agree there. -/
structure NetworksIn (ns : String) (component : ResolvedComponent) : Prop where
  valid : validateNetworkAttachments (component.networks.getD []) = .ok ()
  resources : ∀ r ∈ component.networkResources, '/' ∈ r.toList
  agree : NetworksAgree ns (component.networks.getD [])

/-- Without patches the overrides and the networks of a composed Deployment leave its frame. -/
theorem patchDeployment_total (h : FreeComponent Γ component) (hb : BasePod Γ ctx component hugepages b)
    (hcomposed : ComposedPod Γ ctx component b composed) (hns : Text.isDNS1123Label ctx.ns = [])
    (hnetworks : component.kind = .dataplane → NetworksIn ctx.ns component) :
    ∃ d, patchDeployment Γ component registry composed = .ok d ∧ SameFrame composed d := by
  obtain ⟨numa, -, hskeleton⟩ := hb.skeleton
  obtain ⟨hnatives, hnativesNodup, hmanaged⟩ := hcomposed.parts.natives h.plain hskeleton.initContainers
  have hown : ∀ n ∈ ownNames component.toResolvedRole, n ∈ composed.pod.allContainers.map (·.name) := fun n hn => by
    rw [hcomposed.names]
    exact List.mem_append_left _ hn
  obtain ⟨overridden, hoverridden⟩ := @applyInstallationOverrides_total Γ composed _ component composed hcomposed.wired.names rfl
    (fun o ho k c hc himage => hown k (h.overrides o ho k c hc himage))
    (fun s hs henabled => by
      rw [hcomposed.names]
      exact List.mem_append_right _ (List.mem_map.2 ⟨s, List.mem_filter.2 ⟨hs, henabled⟩, rfl⟩))
    (fun hkind => hown _ (by rw [FreeComponent.ownNames_dataplane hkind]; exact List.mem_singleton.2 rfl))
  have hframe := applyInstallationOverrides_sameFrame hoverridden
  have hrestored := restore_sameFrame hframe hnativesNodup hmanaged
  have hinits := restore_unpatched hframe hnativesNodup hmanaged
  obtain ⟨heq, -⟩ := applyInstallationOverrides_ok hoverridden
  have hcomposition : component.kind = .dataplane → validateSidecarComposition Γ overridden.pod component = .ok () := by
    intro hkind
    refine seq_ok.2 ⟨refuse_ok.2 (not_not.2 ?_), ?_⟩
    · rw [map_of_frame (fun _ => rfl) hframe.containers, hcomposed.parts.containers]
      have hnames := hb.names
      rw [PodSpec.allContainers, hskeleton.initContainers, List.append_nil, FreeComponent.ownNames_dataplane hkind] at hnames
      exact hnames
    · have hexpected : enabledSidecarNames Γ component = overridden.pod.initContainers.map (·.name) := by
        rw [map_of_frame (fun _ => rfl) hframe.initContainers, hnatives]
        rfl
      rw [hexpected]
      refine checkSidecarOrder_of fun c hc => ?_
      have hpolicies : overridden.pod.initContainers.map (·.restartPolicy) = composed.pod.initContainers.map (·.restartPolicy) :=
        map_of_frame (fun _ => rfl) hframe.initContainers
      have hmem : c.restartPolicy ∈ composed.pod.initContainers.map (·.restartPolicy) := hpolicies ▸ List.mem_map_of_mem hc
      obtain ⟨c0, hc0, hpolicy⟩ := List.mem_map.1 hmem
      rw [hcomposed.parts.initContainers, hskeleton.initContainers, List.nil_append] at hc0
      obtain ⟨s, -, rfl⟩ := List.mem_map.1 hc0
      exact hpolicy.symm
  have hfree : SlashFree (restoreWorkloadIdentity overridden (captureWorkloadIdentity composed)).pod := by
    have hsame : (restoreWorkloadIdentity overridden (captureWorkloadIdentity composed)).pod.allContainers = overridden.pod.allContainers := by
      rw [PodSpec.allContainers, hinits]
      rfl
    intro c hc
    rw [hsame, heq] at hc
    exact hcomposed.slashFree.overridden c hc
  have hannotations : (restoreWorkloadIdentity overridden (captureWorkloadIdentity composed)).spec.template.annotations = ∅ := by
    show overridden.spec.template.annotations = ∅
    rw [heq]
    exact hcomposed.parts.annotations.trans hb.annotations
  have hnamespace : (restoreWorkloadIdentity overridden (captureWorkloadIdentity composed)).metadata.ns = ctx.ns := by
    show composed.metadata.ns = ctx.ns
    rw [hcomposed.parts.metadata]
    exact hskeleton.ns
  have hpatches : applyPatches Γ composed component.patches registry = .ok composed := by
    rw [h.patches]
    rfl
  by_cases hkind : component.kind = .dataplane
  · have hin := hnetworks hkind
    obtain ⟨d, hd⟩ := @configureDataplaneNetworks_total Γ _ component.toResolvedRole hannotations hfree hin.resources
      (by rw [hnamespace]; exact hns) hin.valid (by rw [hnamespace]; exact hin.agree)
    refine ⟨d, bind_eq_ok.2 ⟨composed, hpatches, bind_eq_ok.2 ⟨overridden, hoverridden, seq_ok.2 ⟨onlyIf_ok.2 hcomposition, ?_⟩⟩⟩,
      hrestored.trans (configureDataplaneNetworks_sameFrame hd)⟩
    rw [if_pos hkind]
    exact hd
  · refine ⟨_, bind_eq_ok.2 ⟨composed, hpatches, bind_eq_ok.2 ⟨overridden, hoverridden, seq_ok.2 ⟨onlyIf_ok.2 hcomposition, ?_⟩⟩⟩,
      hrestored⟩
    rw [if_neg hkind]
    rfl

end

/-! ## Listeners and endpoints -/

section

variable {Γ : Platform} {ctx : BuildContext} {component : ResolvedComponent} {d : Deployment}

/-- A port of a sidecar: it is named after the sidecar, and its number is one of the pair. -/
theorem FreeSidecar.port {s : ResolvedRole} (h : FreeSidecar s) {p : ContainerPort} (hp : p ∈ rolePorts Γ s) :
    (∃ n, p.name = colocatedTargetPort Γ s.name n) ∧
      ∃ pair, runtimePortPair s = .ok pair ∧ (p.containerPort = pair.1 ∨ p.containerPort = pair.2) := by
  obtain ⟨g, t, hpair, -⟩ := h.listening.pair
  rw [rolePorts_eq h.listening.known hpair] at hp
  obtain ⟨n, -, rfl⟩ := List.mem_map.1 hp
  refine ⟨⟨n, if_pos h.colocated⟩, (g, t), hpair, ?_⟩
  show (if n = "http" then t else g) = g ∨ (if n = "http" then t else g) = t
  split
  · exact Or.inr rfl
  · exact Or.inl rfl

theorem FreeComponent.podRoles_mem (h : FreeComponent Γ component) (hsidecars : component.sidecars ≠ []) {r : ResolvedRole}
    (hr : r ∈ podRoles component) : r ∈ component.sidecars := by
  have hkind : component.kind = .dataplane := by
    by_contra hne
    exact hsidecars (h.noSidecars hne)
  rw [podRoles, if_neg (not_not.2 hkind), List.nil_append] at hr
  exact (List.mem_filter.1 hr).1

/-- No two roles of a Pod share their listener container. -/
theorem FreeComponent.owners (h : FreeComponent Γ component) {r r' : ResolvedRole} (hr : r ∈ podRoles component)
    (hr' : r' ∈ podRoles component) (howner : YanetOperator.listenerContainer Γ r' = YanetOperator.listenerContainer Γ r) :
    r' = r := by
  by_cases hkind : component.kind = .dataplane
  · rw [podRoles, if_neg (not_not.2 hkind), List.nil_append] at hr hr'
    have hr := (List.mem_filter.1 hr).1
    have hr' := (List.mem_filter.1 hr').1
    rw [(h.sidecars r hr).listenerContainer, (h.sidecars r' hr').listenerContainer] at howner
    by_contra hne
    exact (h.apart r' hr' r hr hne).names _ _ howner
  · have hroles : podRoles component = [component.toResolvedRole] := by
      rw [podRoles, if_pos hkind, h.noSidecars hkind]
      rfl
    rw [hroles] at hr hr'
    exact (List.mem_singleton.1 hr').trans (List.mem_singleton.1 hr).symm

theorem FreeComponent.roleListening (h : FreeComponent Γ component) {r : ResolvedRole} (hr : r ∈ podRoles component) : Listening r := by
  rcases List.mem_append.1 hr with hr | hr
  · split at hr
    · next hkind =>
      rw [List.mem_singleton.1 hr]
      exact h.listening hkind
    · cases hr
  · exact (h.sidecars r (List.mem_filter.1 hr).1).listening

/-- The port names of a sidecar are free for it, enabled or not. -/
theorem portNameOwner_free (h : FreeComponent Γ component) (hwired : WiredPod Γ (listenerContainer Γ) (podRoles component) d.pod)
    {s : ResolvedRole} (hs : s ∈ component.sidecars) (protocol : String) :
    validatePortNameOwner d (scopedOperatorName Γ s.name s.name) (colocatedTargetPort Γ s.name protocol) = .ok () := by
  refine forM_ok.2 fun c hc => ?_
  split
  · rfl
  · next hname =>
    refine forM_ok.2 fun p hp => refuse_ok.2 fun heq => ?_
    rcases hwired.ports c hc with hnone | ⟨r, hr, hcr, hports⟩
    · rw [hnone] at hp
      cases hp
    · have hr := h.podRoles_mem (List.ne_nil_of_mem hs) hr
      have hne : r ≠ s := by
        rintro rfl
        exact hname (hcr.trans (h.sidecars r hr).listenerContainer)
      obtain ⟨⟨n, hn⟩, -⟩ := (h.sidecars r hr).port (hports ▸ hp)
      exact (h.apart r hr s hs hne).targetPorts n protocol (hn.symm.trans heq)

theorem configureListeners_total (h : FreeComponent Γ component)
    (hwired : WiredPod Γ (listenerContainer Γ) (podRoles component) d.pod) :
    ∃ d', configureListeners Γ d component = .ok d' ∧ WiredPod Γ (listenerContainer Γ) (podRoles component) d'.pod := by
  have hrole {d : Deployment} (hwired : WiredPod Γ (listenerContainer Γ) (podRoles component) d.pod) {r : ResolvedRole}
      (hr : r ∈ podRoles component) {composed : Bool} (howner : listenerOwner Γ r composed = listenerContainer Γ r) :
      ∃ d', configureComponentListeners Γ d r composed = .ok d' ∧ WiredPod Γ (listenerContainer Γ) (podRoles component) d'.pod := by
    obtain ⟨g, t, hpair, -⟩ := (h.roleListening hr).pair
    exact configureComponentListeners_wired hwired h.portRoles hr (fun r' hr' => h.owners hr hr') howner ⟨g, t, hpair⟩
  have hfirst : ∃ d', configureComponentListeners Γ d component.toResolvedRole false = .ok d' ∧
      WiredPod Γ (listenerContainer Γ) (podRoles component) d'.pod := by
    by_cases hkind : component.kind = .dataplane
    · have hnone : listenerPorts Γ component.toResolvedRole = [] := by rw [listenerPorts, if_pos hkind]
      refine ⟨d, ?_, hwired⟩
      unfold configureComponentListeners
      rw [hnone]
      rfl
    · refine hrole hwired (List.mem_append_left _ ?_) h.listenerContainer.symm
      rw [if_pos hkind]
      exact List.mem_singleton.2 rfl
  obtain ⟨e, he, hwired'⟩ := hfirst
  obtain ⟨d', hd', hlast⟩ : ∃ d', component.sidecars.foldlM (configureSidecarListeners Γ) e = .ok d' ∧
      WiredPod Γ (listenerContainer Γ) (podRoles component) d'.pod := by
    refine foldlM_total (J := fun d : Deployment => WiredPod Γ (listenerContainer Γ) (podRoles component) d.pod) hwired'
      fun s hs d hd => ?_
    have hfree : forM ["grpc", "http"] (fun protocol => validatePortNameOwner d (scopedOperatorName Γ s.name s.name)
        (colocatedTargetPort Γ s.name protocol)) = .ok () := forM_ok.2 fun protocol _ => portNameOwner_free h hd hs protocol
    by_cases henabled : s.enabled = true
    · have hpodRole : s ∈ podRoles component := List.mem_append_right _ (List.mem_filter.2 ⟨hs, henabled⟩)
      have howner : listenerOwner Γ s true = listenerContainer Γ s := by
        rw [YanetOperator.listenerContainer, (h.sidecars s hs).colocated]
      obtain ⟨d', hd', hwired⟩ := hrole hd hpodRole howner
      refine ⟨d', seq_ok.2 ⟨hfree, ?_⟩, hwired⟩
      rw [if_pos henabled]
      exact hd'
    · refine ⟨d, seq_ok.2 ⟨hfree, ?_⟩, hd⟩
      rw [if_neg henabled]
      rfl
  exact ⟨d', bind_eq_ok.2 ⟨e, he, hd'⟩, hlast⟩

theorem FreeComponent.runtimeConfig (h : FreeComponent Γ component) {r : ResolvedRole} (hr : r ∈ podRoles component) :
    ∃ source, runtimeConfig r = .ok source := by
  have hcontainers : r.kind = .operator → r.containers ≠ [] := by
    intro hkind
    rcases List.mem_append.1 hr with hr | hr
    · split at hr
      · rw [List.mem_singleton.1 hr] at hkind ⊢
        have hown := h.buildable.containers
        rw [ownNames, if_pos hkind] at hown
        exact fun hnil => hown (by rw [hnil]; rfl)
      · cases hr
    · rw [(h.sidecars r (List.mem_filter.1 hr).1).kind] at hkind
      cases hkind
  unfold YanetOperator.runtimeConfig
  split
  · next hkind hnil => exact absurd hnil (hcontainers hkind)
  · exact ⟨_, rfl⟩
  · exact ⟨_, rfl⟩

theorem configureRuntimeNetwork_total (h : FreeComponent Γ component) (hplain : PlainPod d.pod)
    (hwired : WiredPod Γ (listenerContainer Γ) (podRoles component) d.pod) :
    ∃ d', configureRuntimeNetwork Γ d ctx component = .ok d' ∧ PlainPod d'.pod ∧
      WiredPod Γ (listenerContainer Γ) (podRoles component) d'.pod := by
  have hrole {d : Deployment} (hd : PlainPod d.pod ∧ WiredPod Γ (listenerContainer Γ) (podRoles component) d.pod) {r : ResolvedRole}
      (hr : r ∈ podRoles component) {composed : Bool} (howner : listenerOwner Γ r composed = listenerContainer Γ r) :
      ∃ d', configureRuntimeContainer Γ d ctx r composed = .ok d' ∧ PlainPod d'.pod ∧
        WiredPod Γ (listenerContainer Γ) (podRoles component) d'.pod := by
    obtain ⟨g, t, hpair, -⟩ := (h.roleListening hr).pair
    obtain ⟨d', hd', -⟩ := @configureRuntimeContainer_total Γ d _ ctx r composed hd.2.names rfl
      (howner ▸ hd.2.owners r hr) ⟨g, t, hpair⟩ (h.runtimeConfig hr)
    refine ⟨d', hd', configureRuntimeContainer_plain hd.1 hd', hd.2.of_ports ?_⟩
    exact (configureRuntimeContainer_rewrites hd').map_eq (by rintro c _ ⟨env, rfl⟩; rfl)
  have hfirst : ∃ d', (if component.kind ≠ .dataplane then configureRuntimeContainer Γ d ctx component.toResolvedRole false
      else .ok d) = .ok d' ∧ PlainPod d'.pod ∧ WiredPod Γ (listenerContainer Γ) (podRoles component) d'.pod := by
    split
    · next hkind =>
      refine hrole ⟨hplain, hwired⟩ (List.mem_append_left _ ?_) h.listenerContainer.symm
      rw [if_pos hkind]
      exact List.mem_singleton.2 rfl
    · exact ⟨d, rfl, hplain, hwired⟩
  obtain ⟨e, he, hpods⟩ := hfirst
  obtain ⟨d', hd', hlast⟩ := foldlM_total (f := fun d sidecar => configureRuntimeContainer Γ d ctx sidecar true)
    (J := fun d : Deployment => PlainPod d.pod ∧ WiredPod Γ (listenerContainer Γ) (podRoles component) d.pod) hpods
    fun s hs d hd => hrole hd (List.mem_append_right _ hs) (by
      rw [YanetOperator.listenerContainer, (h.sidecars s (List.mem_filter.1 hs).1).colocated])
  exact ⟨d', bind_eq_ok.2 ⟨e, he, hd'⟩, hlast⟩

/-! ## Reserved ports -/

/-- The reserved ports of sidecars: each is one of the pair of its owner. -/
theorem reservedPorts_total {sidecars : List ResolvedRole} {owners : List (Int × String)}
    (hpair : ∀ s ∈ sidecars, ∃ pair, runtimePortPair s = .ok pair) :
    ∃ reserved, reservedPorts Γ sidecars owners = .ok reserved ∧ ∀ e ∈ reserved, e ∈ owners ∨ ∃ s ∈ sidecars, ∃ pair,
      runtimePortPair s = .ok pair ∧ (e.1 = pair.1 ∨ e.1 = pair.2) ∧ e.2 = scopedOperatorName Γ s.name s.name := by
  induction sidecars generalizing owners with
  | nil => exact ⟨owners, rfl, fun e he => Or.inl he⟩
  | cons s sidecars ih =>
    obtain ⟨⟨pair, hp⟩, hrest⟩ := List.forall_mem_cons.1 hpair
    obtain ⟨reserved, hreserved, hentries⟩ := @ih ((pair.2, scopedOperatorName Γ s.name s.name) ::
      (pair.1, scopedOperatorName Γ s.name s.name) :: owners) hrest
    refine ⟨reserved, bind_eq_ok.2 ⟨pair, hp, hreserved⟩, fun e he => ?_⟩
    rcases hentries e he with he | ⟨s', hs', hentry⟩
    · rcases List.mem_cons.1 he with rfl | he
      · exact Or.inr ⟨s, List.mem_cons_self .., pair, hp, Or.inr rfl, rfl⟩
      · rcases List.mem_cons.1 he with rfl | he
        · exact Or.inr ⟨s, List.mem_cons_self .., pair, hp, Or.inl rfl, rfl⟩
        · exact Or.inl he
    · exact Or.inr ⟨s', List.mem_cons_of_mem _ hs', hentry⟩

theorem validateReservedColocatedPorts_of (h : FreeComponent Γ component) (hsidecars : component.sidecars ≠ [])
    (hwired : WiredPod Γ (listenerContainer Γ) (podRoles component) d.pod) :
    validateReservedColocatedPorts Γ d component = .ok () := by
  obtain ⟨reserved, hreserved, hentries⟩ := @reservedPorts_total Γ component.sidecars [] fun s hs => by
    obtain ⟨g, t, hpair, -⟩ := (h.sidecars s hs).listening.pair
    exact ⟨(g, t), hpair⟩
  refine bind_eq_ok.2 ⟨reserved, hreserved, forM_ok.2 fun c hc => forM_ok.2 fun p hp => ?_⟩
  rcases hwired.ports c hc with hnone | ⟨r, hr, hcr, hports⟩
  · rw [hnone] at hp
    cases hp
  have hr := h.podRoles_mem hsidecars hr
  obtain ⟨-, pair, hpair, hnumber⟩ := (h.sidecars r hr).port (hports ▸ hp)
  split
  · rfl
  · next number owner hfind =>
    have hsame : number = p.containerPort := by simpa using List.find?_some hfind
    rcases hentries _ (List.mem_of_find?_eq_some hfind) with hnil | ⟨s, hs, pair', hpair', hentry, howner⟩
    · cases hnil
    · have heq : s = r := by
        by_contra hne
        have hapart := (h.apart s hs r hr hne).ports pair' pair hpair' hpair
        dsimp only at hentry
        rw [hsame] at hentry
        rcases hentry with he | he <;> rcases hnumber with hn | hn <;> rw [hn] at he
        · exact hapart.1 he.symm
        · exact hapart.2.1 he.symm
        · exact hapart.2.2.1 he.symm
        · exact hapart.2.2.2 he.symm
      refine refuse_ok.2 fun hwrong => hwrong.1 ?_
      rw [hcr, (h.sidecars r hr).listenerContainer, ← heq]
      exact howner

end

/-! ## Rendered Deployments -/

section

variable {Γ : Platform} {ctx : BuildContext} {component : ResolvedComponent} {registry : PatchRegistry} {hugepages : Option Hugepages}
  {b composed : Deployment}

/-- The name and the role of a Deployment that has the frame of a composed one. -/
theorem ComposedPod.validateComposedPod {d d' : Deployment} (hyanet : YanetNameOk ctx.yanetName) (h : FreeComponent Γ component)
    (hb : BasePod Γ ctx component hugepages b) (hcomposed : ComposedPod Γ ctx component b composed) (hframe : SameFrame composed d)
    (hshape : SameShape d d') (hplain : PlainPod d'.pod)
    (hwired : WiredPod Γ (listenerContainer Γ) (podRoles component) d'.pod) : validateComposedPod d' = .ok () := by
  obtain ⟨numa, hnuma, hskeleton⟩ := hb.skeleton
  refine validateComposedPod_of hplain hwired h.portRoles ?_ fun hlabel c hc => ?_
  · rw [hshape.metadata, hframe.name, hcomposed.parts.metadata, hskeleton.name]
    exact instanceName_subdomain hyanet h.name hnuma
  · rw [hshape.labels, hframe.role, hcomposed.parts.role, hskeleton.podLabels, instanceLabels_component] at hlabel
    have hkind := h.dataplane.1 (Option.some.inj hlabel)
    -- the containers of a dataplane are its own one
    have hnames : d'.pod.containers.map (·.name) = ["dataplane"] := by
      have hown := hb.names
      rw [PodSpec.allContainers, hskeleton.initContainers, List.append_nil, FreeComponent.ownNames_dataplane hkind] at hown
      have hshapes := congrArg (List.map Prod.fst) hshape.containers
      rw [List.map_map, List.map_map] at hshapes
      exact hshapes.trans ((map_of_frame (fun _ => rfl) hframe.containers).trans (hcomposed.parts.containers ▸ hown))
    have hmem : c.name ∈ ["dataplane"] := hnames ▸ List.mem_map_of_mem hc
    rw [List.mem_singleton.1 hmem]
    decide

/-- A built Deployment of a component renders. -/
theorem renderDeployment_total (hyanet : YanetNameOk ctx.yanetName) (hns : Text.isDNS1123Label ctx.ns = [])
    (h : FreeComponent Γ component) (hnetworks : component.kind = .dataplane → NetworksIn ctx.ns component)
    (hb : BasePod Γ ctx component hugepages b) : ∃ d, renderDeployment Γ ctx component registry b = .ok d := by
  obtain ⟨composed, hcompose⟩ := @composeSidecars_total Γ ctx component registry hyanet h b
  have hcomposed := composedPod_of h hb hcompose
  obtain ⟨patched, hpatched, hframe⟩ := @patchDeployment_total Γ ctx component registry hugepages b composed h hb hcomposed hns hnetworks
  have hplain := hcomposed.plain.sameFrame hframe
  have hwired := hcomposed.wired.of_ports (map_of_frame (fun _ => rfl) hframe.allContainers)
  have hprivate := validatePrivatePodNetwork_of hplain hwired h.portRoles
  obtain ⟨listening, hlistening, hwired⟩ := configureListeners_total h hwired
  have hplain := hplain.ports (configureListeners_rewrites hlistening)
  obtain ⟨d, hd, hplain, hwired⟩ := @configureRuntimeNetwork_total Γ ctx component listening h hplain hwired
  have hshape := (configureListeners_sameShape hlistening).trans (configureRuntimeNetwork_sameShape hd)
  have hvalid := hcomposed.validateComposedPod hyanet h hb hframe hshape hplain hwired
  exact ⟨d, bind_eq_ok.2 ⟨composed, hcompose, bind_eq_ok.2 ⟨patched, hpatched, seq_ok.2 ⟨hprivate, bind_eq_ok.2 ⟨listening,
    hlistening, bind_eq_ok.2 ⟨d, hd, seq_ok.2 ⟨hvalid, seq_ok.2
      ⟨onlyIf_ok.2 fun hsidecars => validateReservedColocatedPorts_of h hsidecars hwired, rfl⟩⟩⟩⟩⟩⟩⟩⟩

theorem renderDeployments_total (hquantity : ∀ s q, Γ.parseQuantity s = .ok q → '/' ∉ s.toList)
    (hyanet : YanetNameOk ctx.yanetName) (hns : Text.isDNS1123Label ctx.ns = []) (h : FreeComponent Γ component)
    (hnetworks : component.kind = .dataplane → NetworksIn ctx.ns component) (hpages : HugepagesOn Γ ctx component hugepages) :
    ∃ ds, renderDeployments Γ ctx component registry = .ok ds := by
  have hcolocated : component.toResolvedRole.isColocated = false := by simp [ResolvedRole.isColocated, h.kind]
  obtain ⟨built, hbuilt, hbase⟩ := buildDeployments_total hquantity h hpages
  obtain ⟨ds, hds⟩ := mapM_total fun b hb => @renderDeployment_total Γ ctx component registry hugepages b hyanet hns h hnetworks (hbase b hb)
  refine ⟨ds, ?_⟩
  unfold renderDeployments
  rw [hcolocated]
  exact bind_eq_ok.2 ⟨built, hbuilt, hds⟩

end

/-! ## Admitted components -/

section

variable {Γ : Platform} {config : YanetConfigSpec} {yanet : YanetSpec} {component : ResolvedComponent}

/-- The protocols of a role are those of the palette, which admission checked. -/
theorem listening_of {role : ResolvedRole} (hconfig : validateYanetConfig Γ config = .ok ())
    (hcore : role.core = declaredRole config role.kind role.name)
    (hpair : ∃ grpcPort httpPort, runtimePortPair role = .ok (grpcPort, httpPort) ∧ (1 ≤ grpcPort ∧ grpcPort ≤ 65535) ∧
      1 ≤ httpPort ∧ httpPort ≤ 65535) : Listening role := by
  have hall : (roleProtocols role).Nodup ∧ ∀ n ∈ roleProtocols role, n = "grpc" ∨ n = "http" := by
    unfold roleProtocols
    split
    · simp
    · split
      · simp
      · exact protocols_of_core hconfig hcore
  exact ⟨hall.1, hall.2, hpair⟩

/-- The sidecars of a resolved palette. -/
theorem ResolvedPalette.free {slot : BoxDataplane} {box : BoxType} {rs : List ResolvedRole}
    (hconfig : validateYanetConfig Γ config = .ok ()) (h : ResolvedPalette Γ config yanet slot rs)
    (hfields : ∀ r ∈ rs, ResolvedFields config yanet box r) (hfree : box.PatchFree) : ∀ r ∈ rs, FreeSidecar r := by
  intro r hr
  have hadmitted := validateYanetConfig_ok hconfig
  have hkind : r.kind = .sidecar := (congrArg ResolvedRole.kind (h.core hr)).trans (declaredRole_kind ..)
  obtain ⟨s, hs, hname⟩ : ∃ s ∈ config.components.dataplane.sidecars, s.name = r.name := by
    have hmem : r.name ∈ config.components.dataplane.sidecars.map (·.name) := h.names ▸ List.mem_map_of_mem hr
    exact List.mem_map.1 hmem
  have hr' := hfields r hr
  refine ⟨⟨hkind, hr'.hugepages (by simp [hkind]), hr'.patches hfree⟩, hname ▸ hadmitted.sidecarLabel s hs, ?_,
    hr'.noContainers (by simp [hkind]), listening_of hconfig (hkind ▸ h.core hr) ?_⟩
  · intro hdataplane
    refine (hadmitted.sidecarFree s hs).2 ?_
    rw [hname, hdataplane]
    decide
  · obtain ⟨i, hi⟩ := List.mem_iff_getElem?.1 hr
    obtain ⟨hpair, hslot⟩ := h.portPair hi
    refine ⟨_, _, hpair, ?_⟩
    unfold runtimeGRPCPort runtimeHTTPPort
    unfold maxDataplaneSidecars at hslot
    omega

theorem ResolvedPalette.pairwise_apart {slot : BoxDataplane} {rs : List ResolvedRole} (h : ResolvedPalette Γ config yanet slot rs) :
    ∀ s ∈ rs, ∀ s' ∈ rs, s ≠ s' → SidecarsApart Γ s s' := by
  intro s hs s' hs' hne
  obtain ⟨i, hi⟩ := List.mem_iff_getElem?.1 hs
  obtain ⟨j, hj⟩ := List.mem_iff_getElem?.1 hs'
  refine h.apart hi hj ?_
  rintro rfl
  exact hne (Option.some.inj (hi.symm.trans hj))

/-- The override of a fixed workload names its one container. -/
theorem hardcodedContainerKeys_ok {fieldName containerName : String} {o : YanetComponentOverride}
    (h : validateHardcodedContainerKeys fieldName containerName (some o) = .ok ()) {k : String} {c : YanetContainerOverride}
    (hk : o.containers[k]? = some c) : k = containerName := by
  have hentry := forM_toList_ok (optional_ok.1 h o rfl) hk
  exact not_not.1 (refuse_ok.1 (seq_ok.1 hentry).1)

/-- The containers an override of an installation names are there: those of fixed workloads by the shape of the overrides, and those
of operators because the others select no image. -/
theorem Wired.overrides (hshape : validateYanetComponentOverrideShape Γ yanet.components = .ok ()) (h : Wired Γ config yanet component)
    (hoverrides : component.overrides = componentOverride yanet component.kind component.name) :
    ∀ o, component.overrides = some o → ∀ (k : String) c, o.containers[k]? = some c →
      overrideImage component.toResolvedRole k ≠ none → k ∈ ownNames component.toResolvedRole := by
  intro o ho k c hk himage
  rw [hoverrides] at ho
  unfold componentOverride at ho
  cases hcomponents : yanet.components with
  | none =>
    rw [hcomponents] at ho
    cases ho
  | some components =>
    rw [hcomponents] at ho hshape
    obtain ⟨hcontrolplane, hrest⟩ := seq_ok.1 (optional_ok.1 hshape components rfl)
    obtain ⟨hdataplane, hrest⟩ := seq_ok.1 hrest
    obtain ⟨hbirdAdapter, -⟩ := seq_ok.1 hrest
    dsimp only at ho
    cases hkind : component.kind with
    | sidecar => exact absurd hkind h.1
    | controlplane =>
      rw [hkind] at ho
      obtain ⟨cp, hcp, rfl⟩ := Option.map_eq_some_iff.1 ho
      rw [hardcodedContainerKeys_ok (seq_ok.1 (optional_ok.1 hcontrolplane cp hcp)).1 hk, ownNames, hkind, if_neg (by decide),
        if_neg (by decide)]
      decide
    | dataplane =>
      rw [hkind] at ho
      obtain ⟨dp, hdp, rfl⟩ := Option.map_eq_some_iff.1 ho
      rw [hardcodedContainerKeys_ok (seq_ok.1 (optional_ok.1 hdataplane dp hdp)).1 hk, ownNames, hkind, if_neg (by decide),
        if_neg (by decide)]
      decide
    | birdAdapter =>
      rw [hkind] at ho
      dsimp only at ho
      rw [ho] at hbirdAdapter
      rw [hardcodedContainerKeys_ok hbirdAdapter hk, ownNames, hkind, if_neg (by decide), if_neg (by decide)]
      decide
    | operator =>
      unfold overrideImage at himage
      rw [ownNames, if_pos hkind]
      split at himage
      · next container hfind =>
        have hname : container.name = k := by simpa using List.find?_some hfind
        exact hname ▸ List.mem_map_of_mem (List.mem_of_find?_eq_some hfind)
      · exact absurd hkind (by simpa using himage)

/-- A component of an admitted configuration in a box type without patches. -/
theorem Wired.free {box : BoxType} (hconfig : validateYanetConfig Γ config = .ok ())
    (hshape : validateYanetComponentOverrideShape Γ yanet.components = .ok ()) (hbox : findBoxType config yanet.boxType = .ok box)
    (hfree : box.PatchFree) (h : Wired Γ config yanet component) : FreeComponent Γ component := by
  have hadmitted := validateYanetConfig_ok hconfig
  have hpalette := validateYanetConfig_palette hconfig
  have has := resolveBoxComponent_ok h.resolve
  obtain ⟨box', hbox', hfields⟩ := resolveBoxComponent_fields h.resolve
  rw [hbox] at hbox'
  cases hbox'
  obtain ⟨hown, hsidecars⟩ := List.forall_mem_cons.1 hfields
  have hoperator : component.kind = .operator → ∃ op ∈ config.components.operators,
      ownNames component.toResolvedRole = op.containers.map (·.name) ∧ component.containers.length = op.containers.length := by
    intro hkind
    obtain ⟨op, hop, -, hnames⟩ := hown.containers hkind
    refine ⟨op, hop, ?_, ?_⟩
    · rw [ownNames, if_pos hkind, hnames]
    · have hlength := congrArg List.length hnames
      rwa [List.length_map, List.length_map] at hlength
  have hfixed : component.kind ≠ .operator → ownNames component.toResolvedRole = [toLowerKebab component.kind.text] := by
    intro hkind
    rw [ownNames, if_neg hkind, if_neg h.1]
  have hbuildable : Buildable component.toResolvedRole := by
    by_cases hkind : component.kind = .operator
    · obtain ⟨op, hop, hnames, -⟩ := hoperator hkind
      refine ⟨?_, ?_, ?_, hown.hugepages⟩ <;> rw [hnames]
      · simpa using (validateYanetConfig_wiring hconfig).operatorContainers op hop
      · exact hpalette.containerNames op hop
      · exact List.forall_mem_map.2 fun c hc => hpalette.containerLabels op hop c hc
    · refine ⟨?_, ?_, ?_, hown.hugepages⟩ <;> rw [hfixed hkind]
      · exact List.cons_ne_nil _ _
      · exact List.nodup_singleton _
      · refine List.forall_mem_singleton.2 ?_
        cases component.kind <;> decide
  have hname : RoleNameOk component.toResolvedRole := by
    refine ⟨(hadmitted.labelEnd_role has).2, ?_⟩
    rcases h.kebab hadmitted with ⟨hreserved, -, -⟩ | ⟨hself, -, hmem⟩
    · have hlength : ∀ n ∈ reservedNames, n.length ≤ 63 := by decide
      exact hlength _ hreserved
    · obtain ⟨op, hop, hopName⟩ := List.mem_map.1 hmem
      rw [hself, ← hopName]
      exact (Text.isDNS1123Label_eq_nil.1 (hadmitted.operatorLabel op hop)).1
  have hsingle : component.toResolvedRole.isColocated = false := by simp [ResolvedRole.isColocated, h.1]
  have hlistening : Listening component.toResolvedRole := by
    refine listening_of hconfig has.core ⟨runtimeGRPCPort, runtimeHTTPPort, ?_, by decide, by decide⟩
    rw [runtimePortPair, hsingle]
    rfl
  have hcount : component.containers.length ≤ 8 := by
    by_cases hkind : component.kind = .operator
    · obtain ⟨op, hop, -, hlength⟩ := hoperator hkind
      exact hlength ▸ hpalette.containerCount op hop
    · rw [hown.noContainers hkind]
      exact Nat.zero_le _
  have hnone : component.kind ≠ .dataplane → component.sidecars = [] := has.noSidecars
  refine ⟨h.1, hown.patches hfree, hname, hadmitted.dataplane_iff has h.1, hbuildable, hcount, fun hkind => ?_,
    fun _ => hlistening, h.overrides hshape hown.overrides, ?_, hnone, has.sidecar_keys, ?_⟩
  · have hresolve := h.resolve
    have hroleName := has.name
    rw [hkind] at hresolve hroleName
    rw [hroleName, resolveBoxComponent_roleName] at hresolve
    exact (effectiveNuma_admitted hconfig hresolve).2
  · by_cases hkind : component.kind = .dataplane
    · obtain ⟨slot, hslot⟩ := has.palette hkind
      exact hslot.free hconfig hsidecars hfree
    · rw [hnone hkind]
      intro s hs
      cases hs
  · by_cases hkind : component.kind = .dataplane
    · obtain ⟨slot, hslot⟩ := has.palette hkind
      exact hslot.pairwise_apart
    · rw [hnone hkind]
      intro s hs
      cases hs

end

/-! ## Hugepages and networks of an admitted dataplane -/

section

variable {Γ : Platform} {ctx : BuildContext} {config : YanetConfigSpec} {yanet : YanetSpec} {component : ResolvedComponent}

/-- What a dataplane takes from the palette and its installation: hugepages and networks. -/
theorem Wired.dataplane (h : Wired Γ config yanet component) (hkind : component.kind = .dataplane) :
    component.hugepages = ((yanet.components.bind (·.dataplane)).bind (·.hugepages)).or config.components.dataplane.hugepages ∧
      validateNetworkAttachments (component.networks.getD []) = .ok () ∧
      ∀ r ∈ component.networkResources, ∃ n ∈ (config.components.dataplane.networks.getD []) ++ component.networks.getD [],
        n.resourceName = r := by
  have hr := h.resolve
  rw [hkind] at hr
  unfold resolveBoxComponent at hr
  obtain ⟨box, -, hr⟩ := bind_eq_ok.1 hr
  dsimp only at hr
  split at hr
  · cases hr
  · obtain ⟨sidecars, -, hr⟩ := bind_eq_ok.1 hr
    obtain ⟨⟨networks, resources⟩, hn, hr⟩ := bind_eq_ok.1 hr
    cases hr
    unfold resolveDataplaneNetworks at hn
    obtain ⟨-, hn⟩ := seq_ok.1 hn
    obtain ⟨hvalid, hn⟩ := seq_ok.1 hn
    cases hn
    exact ⟨rfl, hvalid, fun r hr => List.mem_map.1 (mem_sortedDistinct.1 hr)⟩

/-- The networks of an admitted dataplane where its attachments agree. -/
theorem Wired.networksIn (hconfig : validateYanetConfig Γ config = .ok ()) (h : Wired Γ config yanet component)
    (hkind : component.kind = .dataplane) {ns : String} (hagree : NetworksAgree ns (component.networks.getD [])) :
    NetworksIn ns component := by
  obtain ⟨-, hvalid, hresources⟩ := h.dataplane hkind
  refine ⟨hvalid, fun r hr => ?_, hagree⟩
  obtain ⟨n, hn, rfl⟩ := hresources r hr
  rcases List.mem_append.1 hn with hn | hn
  · exact slash_mem_extended (validateNetworkAttachmentsFrom_valid (validateYanetConfig_checks hconfig).networks n hn).resource
  · exact slash_mem_extended (validateNetworkAttachmentsFrom_valid hvalid n hn).resource

/-- An explicit request of an admitted dataplane has a valid total. -/
theorem Wired.explicit (hconfig : validateYanetConfig Γ config = .ok ())
    (hshape : validateYanetComponentOverrideShape Γ yanet.components = .ok ()) (h : Wired Γ config yanet component)
    (hkind : component.kind = .dataplane) {hp : Hugepages} (hhp : component.hugepages = some hp) (hcount : hp.count ≠ 0) :
    ∃ total, hp.totalQuantity Γ = .ok total := by
  have hchecked {requested : Option Hugepages} (hvalid : validateHugepages Γ requested = .ok ()) (hrequested : requested = some hp) :
      ∃ total, hp.totalQuantity Γ = .ok total := by
    have htotal := optional_ok.1 hvalid hp hrequested
    rw [if_neg hcount] at htotal
    cases htotal' : hp.totalQuantity Γ with
    | ok total => exact ⟨total, rfl⟩
    | error e =>
      rw [htotal'] at htotal
      cases htotal
  rw [(h.dataplane hkind).1, Option.or_eq_some_iff] at hhp
  rcases hhp with hoverride | ⟨-, hdefault⟩
  · obtain ⟨dp, hdp, hhp⟩ := Option.bind_eq_some_iff.1 hoverride
    obtain ⟨components, hcomponents, hdp⟩ := Option.bind_eq_some_iff.1 hdp
    obtain ⟨-, hrest⟩ := seq_ok.1 (optional_ok.1 hshape components hcomponents)
    obtain ⟨hdataplane, -⟩ := seq_ok.1 hrest
    obtain ⟨-, hshape⟩ := seq_ok.1 (optional_ok.1 hdataplane dp hdp)
    obtain ⟨-, hshape⟩ := seq_ok.1 hshape
    exact hchecked (seq_ok.1 hshape).1 hhp
  · exact hchecked (validateYanetConfig_checks hconfig).hugepages hdefault

/-- Hugepages that were resolved on a node, from an explicit request or from its pool, have a valid total. -/
theorem resolveNodeHugepages_total {requested resolved : Option Hugepages}
    (hexplicit : ∀ hp, requested = some hp → hp.count ≠ 0 → ∃ total, hp.totalQuantity Γ = .ok total)
    (h : resolveNodeHugepages Γ ctx requested = .ok resolved) :
    ∀ hp, resolved = some hp → ∃ total, hp.totalQuantity Γ = .ok total := by
  have hpool {size : String} (hsize : (countNodeHugepages Γ ctx size).map some = .ok resolved) :
      ∀ hp, resolved = some hp → ∃ total, hp.totalQuantity Γ = .ok total := by
    obtain ⟨hp, hcount, rfl⟩ := map_some_ok.1 hsize
    obtain ⟨p, q, hwhole, rfl⟩ := countNodeHugepages_ok.1 hcount
    rintro _ ⟨⟩
    exact ⟨_, hwhole.total.2⟩
  unfold resolveNodeHugepages at h
  split at h
  · next hp =>
    split at h
    · next hcount =>
      cases h
      rintro _ ⟨⟩
      exact hexplicit hp rfl hcount
    · exact hpool h
  · split at h
    · cases h
      nofun
    · exact hpool h
    · cases h

/-- The hugepages of an admitted component: a dataplane that runs takes those of the node, one that does not run asks for none unless
its request is explicit. -/
theorem Wired.hugepagesOn (hconfig : validateYanetConfig Γ config = .ok ())
    (hshape : validateYanetComponentOverrideShape Γ yanet.components = .ok ()) (h : Wired Γ config yanet component)
    (hfree : FreeComponent Γ component)
    (hpool : component.kind = .dataplane → component.enabled = true →
      ∃ resolved, resolveNodeHugepages Γ ctx component.hugepages = .ok resolved) :
    ∃ hugepages, HugepagesOn Γ ctx component hugepages := by
  by_cases hkind : component.kind = .dataplane
  · have hexplicit (hp : Hugepages) (hhp : component.hugepages = some hp) (hcount : hp.count ≠ 0) :=
      h.explicit hconfig hshape hkind hhp hcount
    by_cases hidle : component.enabled = false ∧ (component.hugepages.all fun h => h.count == 0) = true
    · refine ⟨none, ?_, nofun⟩
      unfold resolveHugepagesForNode
      rw [if_neg (not_not.2 hkind), if_pos hidle]
    · have hresolves : ∃ resolved, resolveNodeHugepages Γ ctx component.hugepages = .ok resolved := by
        by_cases henabled : component.enabled = true
        · exact hpool hkind henabled
        · -- a dataplane that does not run has an explicit request here
          rw [Bool.not_eq_true] at henabled
          cases hhp : component.hugepages with
          | none => exact absurd ⟨henabled, by rw [hhp]; rfl⟩ hidle
          | some hp =>
            have hcount : hp.count ≠ 0 := fun hzero => hidle ⟨henabled, by rw [hhp]; simpa using hzero⟩
            refine ⟨some hp, ?_⟩
            unfold resolveNodeHugepages
            exact if_pos hcount
      obtain ⟨resolved, hresolved⟩ := hresolves
      refine ⟨resolved, ?_, resolveNodeHugepages_total hexplicit hresolved⟩
      unfold resolveHugepagesForNode
      rw [if_neg (not_not.2 hkind), if_neg hidle, hresolved]
      rfl
  · have hnone := hfree.buildable.hugepages hkind
    refine ⟨none, ?_, nofun⟩
    unfold resolveHugepagesForNode
    rw [if_pos hkind, ← hnone]

end

/-! ## The renderer -/

/-- Rendering without patches never fails: a component that an installation of an admitted configuration resolves in a box type
without patches renders on every node, if the hugepages of a dataplane that runs can be resolved there and its network attachments
agree on their resources in the namespace of the installation. -/
theorem patchFree_renders (Γ : Platform) (config : YanetConfigSpec) (yanet : YanetSpec) (box : BoxType) (ctx : BuildContext)
    (kind : ComponentKind) (operatorName : String) (component : ResolvedComponent) (registry : PatchRegistry)
    (hquantity : ∀ s q, Γ.parseQuantity s = .ok q → '/' ∉ s.toList) (hconfig : validateYanetConfig Γ config = .ok ())
    (hbox : findBoxType config yanet.boxType = .ok box) (hfree : box.PatchFree)
    (hshape : validateYanetComponentOverrideShape Γ yanet.components = .ok ())
    (hname : Text.isDNS1123Subdomain ctx.yanetName = [] ∧ ctx.yanetName.length ≤ 63) (hns : Text.isDNS1123Label ctx.ns = [])
    (hresolve : resolveBoxComponent Γ config yanet kind operatorName = .ok (some component))
    (hpool : component.kind = .dataplane → component.enabled = true →
      ∃ resolved, resolveNodeHugepages Γ ctx component.hugepages = .ok resolved)
    (hagree : NetworksAgree ctx.ns (component.networks.getD [])) :
    ∃ ds, renderDeployments Γ ctx component registry = .ok ds := by
  by_cases hkind : component.kind = .sidecar
  · refine ⟨[], ?_⟩
    unfold renderDeployments
    rw [if_pos (by simp [ResolvedRole.isColocated, hkind])]
  · have hwired : Wired Γ config yanet component := ⟨hkind, kind, operatorName, hresolve⟩
    have hcomponent := hwired.free hconfig hshape hbox hfree
    obtain ⟨hugepages, hpages⟩ := hwired.hugepagesOn hconfig hshape hcomponent hpool
    exact renderDeployments_total hquantity ⟨hname.1, hname.2⟩ hns hcomponent
      (fun hdataplane => hwired.networksIn hconfig hdataplane hagree) hpages

/-- The sample box without its patch, and with an attachment in the namespace of the installation. -/
def plainBox : BoxType :=
  { name := "edge"
    components := { controlplane := some {}, dataplane := some { sidecars := StrMap.of [("telemetry", {})] }, birdAdapter := some {} }
    operators := StrMap.of [("route", {})] }

def plainConfig : YanetConfigSpec :=
  { sampleConfig with
    components := { sampleConfig.components with dataplane := { sampleConfig.components.dataplane with
      networks := some [{ name := "uplink", interface := "net0", resourceName := "example.com/vf" }] } }
    boxTypes := [plainBox] }

/-- Its dataplane. -/
def plainDataplane : ResolvedComponent :=
  { sampleDataplane with
    patches := []
    networks := some [{ name := "uplink", interface := "net0", resourceName := "example.com/vf" }]
    networkResources := ["example.com/vf"] }

/-- A platform that knows pages of one size, and a node with four of them. -/
def pooledPlatform : Platform :=
  { samplePlatform with
    parseQuantity := fun s => if s = "1Gi" then .ok (2 ^ 30 : Int) else .error "quantities must match the regular expression" }

def pooledContext : BuildContext := { sampleContext with nodeAllocatable := StrMap.of [("hugepages-1Gi", (2 ^ 32 : Int))] }

/-- The dataplane renders there, with its sidecar, its pages and its device. -/
theorem plainDataplane_renders :
    resolveNodeHugepages pooledPlatform pooledContext plainDataplane.hugepages = .ok (some { size := "1Gi", count := 4 }) ∧
      ∃ ds, renderDeployments pooledPlatform pooledContext plainDataplane ∅ = .ok ds := by
  have hquantity : ∀ s q, pooledPlatform.parseQuantity s = .ok q → '/' ∉ s.toList := by
    intro s q hs
    change (if s = "1Gi" then _ else _) = _ at hs
    split at hs
    · next heq =>
      rw [heq]
      decide
    · cases hs
  have hbox : plainBox.PatchFree := by
    refine ⟨?_, ?_, ?_, ?_, ?_⟩
    · rintro slot ⟨⟩
      rfl
    · rintro slot ⟨⟩
      rfl
    · rintro slot ⟨⟩ name s hs
      cases List.mem_singleton.1 (StrMap.mem_of_getElem?_of hs)
      rfl
    · rintro slot ⟨⟩
      rfl
    · intro name slot hs
      cases List.mem_singleton.1 (StrMap.mem_of_getElem?_of hs)
      rfl
  have hpool : resolveNodeHugepages pooledPlatform pooledContext plainDataplane.hugepages = .ok (some { size := "1Gi", count := 4 }) := by
    decide +kernel
  refine ⟨hpool, patchFree_renders pooledPlatform plainConfig { boxType := "edge" } plainBox pooledContext .dataplane "" plainDataplane ∅
    hquantity (by decide +kernel) (by decide +kernel) hbox rfl (by decide +kernel) (by decide +kernel) (by decide +kernel)
    (fun _ _ => ⟨_, hpool⟩) ?_⟩
  intro n hn m hm _ _
  rw [List.mem_singleton.1 hn, List.mem_singleton.1 hm]

end YanetOperator
