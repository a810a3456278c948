import YanetOperator.Lemmas.Resolvable
import YanetOperator.Lemmas.Services
import YanetOperator.Theorems.Rendering

/-!
# Admission implies resolvability

A configuration that the webhook accepts and an installation with well-shaped overrides for one of its box types resolve, and the
Service plans of what they resolve to pass their check. The only other condition is on the palette: no two of its sidecars have
one key.
-/

namespace YanetOperator

open Check

/-! ## Names of Services -/

/-- The name of a Service before it is shortened. -/
def longServiceName (boxType component : String) (numa : Option Nat) : String :=
  "yanet-" ++ toLowerKebab boxType ++ "-" ++ toLowerKebab component ++ numaSuffix numa

theorem sharedServiceName_eq (Γ : Platform) (boxType component : String) (numa : Option Nat) :
    sharedServiceName Γ boxType component numa =
      let name := longServiceName boxType component numa
      if name.length ≤ 63 then name else Text.trimRightDash (Text.take name 54) ++ "-" ++ Γ.shortNodeKey name := by
  cases numa <;> rfl

theorem labelEnd_longServiceName {boxType component : String} (hbox : LabelEnd (toLowerKebab boxType))
    (hcomponent : LabelEnd (toLowerKebab component)) (numa : Option Nat) :
    ∃ rest, longServiceName boxType component numa = "yanet" ++ rest ∧ LabelEnd rest := by
  have hdash : ∀ c ∈ "-".toList, labelChar c = true := List.all_eq_true.1 (by decide)
  have hnuma : LabelEnd (toLowerKebab component ++ numaSuffix numa) := by
    cases numa with
    | none => rwa [numaSuffix, String.append_empty]
    | some i =>
      have hsuffix : ∀ c ∈ "-numa".toList, labelChar c = true := List.all_eq_true.1 (by decide)
      exact LabelEnd.append hcomponent.2 (LabelEnd.append hsuffix (LabelEnd.number i))
  refine ⟨"-" ++ (toLowerKebab boxType ++ ("-" ++ (toLowerKebab component ++ numaSuffix numa))), ?_,
    LabelEnd.append hdash (LabelEnd.append hbox.2 (LabelEnd.append hdash hnuma))⟩
  have hword : "yanet-" = "yanet" ++ "-" := by decide
  rw [longServiceName, hword]
  simp only [String.append_assoc]

/-- A text that starts with the word of the operator and goes on to the end of a label is a DNS-1035 label, if it is short. -/
theorem dns1035Label_yanet {s rest : String} (hs : "yanet".toList <+: s.toList) (hchars : ∀ c ∈ s.toList, labelChar c = true)
    (hrest : LabelEnd rest) (hlength : (s ++ rest).length ≤ 63) : Text.isDNS1035Label (s ++ rest) = [] := by
  refine Text.isDNS1035Label_eq_nil.2 ⟨hlength, ?_⟩
  rw [String.toList_append]
  obtain ⟨tail, htail⟩ := hs
  refine Text.isWord_append ⟨'y', ?_, by decide⟩ hchars hrest.1 hrest.2
  rw [← htail]
  rfl

/-- The name of a Service is a DNS-1035 label, shortened or not. -/
theorem sharedServiceName_label (Γ : Platform) {boxType component : String} (hbox : LabelEnd (toLowerKebab boxType))
    (hcomponent : LabelEnd (toLowerKebab component)) (numa : Option Nat) :
    Text.isDNS1035Label (sharedServiceName Γ boxType component numa) = [] := by
  obtain ⟨rest, hname, hrest⟩ := labelEnd_longServiceName hbox hcomponent numa
  have hword : ∀ c ∈ "yanet".toList, labelChar c = true := List.all_eq_true.1 (by decide)
  have hchars : ∀ c ∈ (longServiceName boxType component numa).toList, labelChar c = true := by
    rw [hname]
    exact (LabelEnd.append hword hrest).2
  rw [sharedServiceName_eq]
  dsimp only
  generalize longServiceName boxType component numa = name at hname hchars
  split
  · next hshort =>
    rw [hname] at hshort ⊢
    exact dns1035Label_yanet (List.prefix_refl _) hword hrest hshort
  · have hstart : "yanet".toList <+: (Text.trimRightDash (Text.take name 54)).toList := by
      refine Text.isPrefix_trimRightDash_take ?_ (by decide) (by simp)
      rw [hname, String.toList_append]
      exact List.prefix_append _ _
    have hdash : ∀ c ∈ "-".toList, labelChar c = true := List.all_eq_true.1 (by decide)
    have hlength := Text.length_trimRightDash_take_le name 54
    rw [String.append_assoc]
    refine dns1035Label_yanet hstart (fun c hc => hchars c (Text.mem_trimRightDash_take hc))
      (LabelEnd.append hdash (LabelEnd.key Γ name)) ?_
    rw [String.length_append, String.length_append, shortNodeKey_length]
    have hone : "-".length = 1 := by decide
    omega

/-! ## Plans -/

/-- The ports of a plan pass when they are named, in range and new in both name and number. -/
theorem validatePlanPorts_of {plan : String} {ports : List ServicePortPlan}
    (hports : ∀ p ∈ ports, p.name ≠ "" ∧ 0 < p.port ∧ p.port ≤ 65535 ∧ p.targetPort = 0)
    (hnames : (ports.map (·.name)).Nodup) (hnumbers : (ports.map (·.port)).Nodup) {i : Nat} {names : List String}
    {numbers : List Int} (hnew : ∀ p ∈ ports, p.name ∉ names ∧ p.port ∉ numbers) :
    validatePlanPorts plan i names numbers ports = .ok () := by
  induction ports generalizing i names numbers with
  | nil => rfl
  | cons p ports ih =>
    obtain ⟨hname, hpos, hmax, htarget⟩ := hports p List.mem_cons_self
    obtain ⟨hnewName, hnewNumber⟩ := hnew p List.mem_cons_self
    rw [List.map_cons, List.nodup_cons] at hnames hnumbers
    have hrest : ∀ q ∈ ports, q.name ∉ p.name :: names ∧ q.port ∉ p.port :: numbers := by
      intro q hq
      obtain ⟨hqName, hqNumber⟩ := hnew q (List.mem_cons_of_mem p hq)
      simp only [List.mem_cons, not_or]
      exact ⟨⟨fun he => hnames.1 (he ▸ List.mem_map_of_mem hq), hqName⟩,
        fun he => hnumbers.1 (he ▸ List.mem_map_of_mem hq), hqNumber⟩
    unfold validatePlanPorts
    simp only [seq_ok, refuse_ok]
    exact ⟨hname, hnewName, by omega, hnewNumber, by omega,
      ih (fun q hq => hports q (List.mem_cons_of_mem p hq)) hnames.2 hnumbers.2 hrest⟩

theorem nodup_resolveListeners {name : String} {listeners : Option (List String)} {names : List String}
    (hvalid : validateListeners name listeners = .ok ()) (h : resolveListeners listeners = some names) : names.Nodup := by
  obtain ⟨ls, rfl, rfl⟩ := Option.map_eq_some_iff.1 h
  obtain ⟨-, hnodup, -⟩ := distinct_ok hvalid
  rw [List.map_id] at hnodup
  simp only [List.flatMap_cons, List.flatMap_nil, List.append_nil]
  refine List.nodup_append.2 ⟨hnodup.filter _, hnodup.filter _, fun a ha b hb hab => ?_⟩
  have hgrpc : a = "grpc" := by simpa using (List.mem_filter.1 ha).2
  have hhttp : b = "http" := by simpa using (List.mem_filter.1 hb).2
  rw [hgrpc, hhttp] at hab
  exact absurd hab (by decide)

section
variable {Γ : Platform} {config : YanetConfigSpec} {yanet : YanetSpec} {kind : ComponentKind} {name : String}
  {rc : ResolvedComponent}

/-- The declared listeners of a role of an admitted configuration are distinct. -/
theorem AdmittedWiring.listeners_nodup (hadmitted : AdmittedConfig config) (hc : AdmittedWiring config) {names : List String}
    (h : (declaredRole config kind name).listenerNames = some names) : names.Nodup := by
  unfold declaredRole at h
  cases kind with
  | operator =>
    dsimp only at h
    split at h
    · cases h
    · next op hfind => exact nodup_resolveListeners (hadmitted.operatorListeners op (List.mem_of_find?_eq_some hfind)) h
  | sidecar =>
    dsimp only at h
    split at h
    · cases h
    · next p hfind =>
      have hmem : p.1 ∈ config.components.dataplane.sidecars := List.fst_mem_of_mem_zipIdx (List.mem_of_find?_eq_some hfind)
      exact nodup_resolveListeners (hc.sidecarListeners p.1 hmem) h
  | controlplane => cases h
  | dataplane => cases h
  | birdAdapter => cases h

/-- The protocols a role exposes: distinct, and each gRPC or HTTP on its own port. -/
theorem AdmittedWiring.listenerPorts (hadmitted : AdmittedConfig config) (hc : AdmittedWiring config)
    (h : ResolvedAs Γ config yanet kind name rc) :
    ((YanetOperator.listenerPorts Γ rc.toResolvedRole).map (·.name)).Nodup ∧
      ∀ l ∈ YanetOperator.listenerPorts Γ rc.toResolvedRole,
        (l.name = "grpc" ∧ l.servicePort = runtimeGRPCPort) ∨ (l.name = "http" ∧ l.servicePort = runtimeHTTPPort) := by
  rw [← listenerPorts_core, h.core]
  unfold YanetOperator.listenerPorts
  by_cases hdataplane : (declaredRole config kind name).kind = .dataplane
  · rw [if_pos hdataplane]
    exact ⟨List.nodup_nil, nofun⟩
  · rw [if_neg hdataplane]
    dsimp only
    set names := if (declaredRole config kind name).kind = .controlplane then ["grpc", "http"]
      else (declaredRole config kind name).listenerNames.getD ["grpc"] with hnames
    have hprotocol : names.Nodup ∧ ∀ n ∈ names, n = "grpc" ∨ n = "http" := by
      by_cases hcontrolplane : (declaredRole config kind name).kind = .controlplane
      · rw [hnames, if_pos hcontrolplane]
        decide
      · rw [hnames, if_neg hcontrolplane]
        cases hl : (declaredRole config kind name).listenerNames with
        | none => decide
        | some declared => exact ⟨hc.listeners_nodup hadmitted hl, fun n hn => declaredRole_listeners hl hn⟩
    refine ⟨?_, fun l hl => ?_⟩
    · simpa [Function.comp_def] using hprotocol.1
    · obtain ⟨n, hn, rfl⟩ := List.mem_map.1 hl
      rcases hprotocol.2 n hn with rfl | rfl
      · simp
      · simp

/-- The name of a role of an admitted configuration, in kebab case, is the end of a label. -/
theorem AdmittedConfig.labelEnd_role (hadmitted : AdmittedConfig config) (h : ResolvedAs Γ config yanet kind name rc) :
    rc.name ≠ "" ∧ LabelEnd (toLowerKebab rc.name) := by
  have hlabel {s : String} (hs : Text.isDNS1123Label s = []) : s ≠ "" ∧ LabelEnd (toLowerKebab s) := by
    refine ⟨?_, ?_⟩
    · rintro rfl
      revert hs
      decide
    · rw [toLowerKebab_label hs]
      exact LabelEnd.of_label hs
  rw [h.name]
  cases kind with
  | operator =>
    obtain ⟨op, hop, hname⟩ := h.operator rfl
    exact hlabel (hname ▸ hadmitted.operatorLabel op hop)
  | sidecar =>
    obtain ⟨s, hs, hname⟩ := h.sidecar rfl
    exact hlabel (hname ▸ hadmitted.sidecarLabel s hs)
  | controlplane => exact hlabel (s := "controlplane") (by decide)
  | dataplane => exact hlabel (s := "dataplane") (by decide)
  | birdAdapter =>
    have hbird : "birdAdapter" ≠ "" ∧ LabelEnd (toLowerKebab "birdAdapter") := ⟨by decide, LabelEnd.of_label (by decide)⟩
    exact hbird

/-- A port of a plan for each listener: the name of a protocol determines its number. -/
theorem planPorts_distinct {listeners : List ListenerPort} (hnodup : (listeners.map (·.name)).Nodup)
    (hprotocols : ∀ l ∈ listeners,
      (l.name = "grpc" ∧ l.servicePort = runtimeGRPCPort) ∨ (l.name = "http" ∧ l.servicePort = runtimeHTTPPort))
    {ports : List ServicePortPlan}
    (hports : ports = listeners.map fun l =>
      { name := l.name, port := l.servicePort, targetPortName := listenerTargetPortName l }) :
    (ports.map (·.name)).Nodup ∧ (ports.map (·.port)).Nodup ∧
      ∀ p ∈ ports, p.name ≠ "" ∧ 0 < p.port ∧ p.port ≤ 65535 ∧ p.targetPort = 0 := by
  subst hports
  refine ⟨?_, ?_, fun p hp => ?_⟩
  · rw [List.map_map]
    exact hnodup
  · rw [List.map_map]
    refine (List.Nodup.of_map _ hnodup).map_on fun l hl l' hl' hport => ?_
    refine List.inj_on_of_nodup_map hnodup hl hl' ?_
    have hport : l.servicePort = l'.servicePort := hport
    have hdistinct : runtimeGRPCPort ≠ runtimeHTTPPort := by decide
    rcases hprotocols l hl with ⟨hn, hp⟩ | ⟨hn, hp⟩ <;> rcases hprotocols l' hl' with ⟨hn', hp'⟩ | ⟨hn', hp'⟩
    · rw [hn, hn']
    · exact absurd (hp.symm.trans (hport.trans hp')) hdistinct
    · exact absurd (hp'.symm.trans (hport.symm.trans hp)) hdistinct
    · rw [hn, hn']
  · obtain ⟨l, hl, rfl⟩ := List.mem_map.1 hp
    rcases hprotocols l hl with ⟨hn, hport⟩ | ⟨hn, hport⟩ <;> simp [hn, hport, runtimeGRPCPort, runtimeHTTPPort]

theorem serviceSelector_nonempty (Γ : Platform) (boxType : String) (role : ResolvedRole) (numa : Option Nat) :
    ¬(serviceSelector Γ boxType role numa).isEmpty = true := by
  intro hempty
  have hentry : (serviceSelector Γ boxType role numa)[labelBoxType]? = some boxType := by
    rw [serviceSelector_eq, StrMap.getElem?_of_nodup (selectorEntries_nodup Γ boxType role numa)]
    simp [selectorEntries]
  rw [Std.ExtTreeMap.isEmpty_iff.1 hempty] at hentry
  simp at hentry

/-- The plans of a resolved role pass their check. -/
theorem AdmittedWiring.validate_plan (hadmitted : AdmittedConfig config) (hc : AdmittedWiring config)
    (h : ResolvedAs Γ config yanet kind name rc) {plan : ServicePlan}
    (hplan : plan ∈ buildServices Γ yanet.boxType rc.toResolvedRole) :
    plan.validate = .ok () ∧ Text.isDNS1035Label plan.name = [] ∧ (plan.ports.map (·.name)).Nodup ∧
      (plan.ports.map (·.port)).Nodup := by
  obtain ⟨hlisteners, numa, hplan, -⟩ := mem_buildServices hplan
  obtain ⟨hnodup, hprotocols⟩ := hc.listenerPorts hadmitted h
  obtain ⟨hcomponent, hrole⟩ := hadmitted.labelEnd_role h
  obtain ⟨box, hbox, -⟩ := h.box
  obtain ⟨hmem, hboxName⟩ := findBoxType_ok hbox
  have hboxLabel : Text.isDNS1123Label yanet.boxType = [] := hboxName ▸ hadmitted.boxLabel box hmem
  have hboxEnd : LabelEnd (toLowerKebab yanet.boxType) := by
    rw [toLowerKebab_label hboxLabel]
    exact LabelEnd.of_label hboxLabel
  have hname : plan.name = sharedServiceName Γ yanet.boxType rc.name numa := by rw [hplan, buildServicePlan]
  have hboxType : plan.boxType = yanet.boxType := by rw [hplan, buildServicePlan]
  have hplanComponent : plan.component = rc.name := by rw [hplan, buildServicePlan]
  have hselector : plan.selector = serviceSelector Γ yanet.boxType rc.toResolvedRole numa := by rw [hplan, buildServicePlan]
  have hplanPorts : plan.ports = (YanetOperator.listenerPorts Γ rc.toResolvedRole).map fun l =>
      { name := l.name, port := l.servicePort, targetPortName := listenerTargetPortName l } := by rw [hplan, buildServicePlan]
  have hlabel : Text.isDNS1035Label plan.name = [] := by
    rw [hname]
    exact sharedServiceName_label Γ hboxEnd hrole numa
  obtain ⟨hnames, hnumbers, hports⟩ := planPorts_distinct hnodup hprotocols hplanPorts
  refine ⟨?_, hlabel, hnames, hnumbers⟩
  unfold ServicePlan.validate
  simp only [seq_ok, refuse_ok]
  refine ⟨not_not.2 hlabel, hboxType ▸ hadmitted.boxType_ne h, hplanComponent ▸ hcomponent, ?_, ?_,
    validatePlanPorts_of hports hnames hnumbers (by simp)⟩
  · rw [hselector]
    exact serviceSelector_nonempty Γ yanet.boxType rc.toResolvedRole numa
  · intro hnil
    rw [hplanPorts] at hnil
    exact hlisteners (List.map_eq_nil_iff.1 hnil)

end

/-! ## Resolvability -/

/-- **Admission implies resolvability.** For an admitted configuration and an installation with well-shaped overrides for one of
its box types: the reconciler's check of the overrides passes; unless two sidecars of the palette have one key, the enumeration
succeeds, lists every wired role once, and every role it lists resolves, both for the installation and for the Services of its
box type; and every Service plan of a resolved role passes its check. -/
theorem admission_resolves (Γ : Platform) (config : YanetConfigSpec) (yanet : YanetSpec)
    (hconfig : validateYanetConfig Γ config = .ok ())
    (hshape : validateYanetComponentOverrideShape Γ yanet.components = .ok ())
    (hbox : yanet.boxType ∈ config.boxTypes.map BoxType.name) :
    ∃ box, findBoxType config yanet.boxType = .ok box ∧
      validateEffectiveYanetComponentOverrides Γ yanet.components config.components box = .ok () ∧
      (KeysApart Γ config → ∃ refs, enabledComponentsForBox Γ config yanet.boxType = .ok refs ∧ refs.Nodup ∧
        (∀ ref, ref ∈ refs ↔ box.wiresRef ref) ∧
        ∀ ref ∈ refs, (∃ rc, resolveBoxComponent Γ config yanet ref.kind ref.operatorName = .ok (some rc)) ∧
          ∃ rc, resolveBoxServiceComponent Γ config yanet.boxType ref.kind ref.operatorName = .ok (some rc)) ∧
      ∀ kind name rc, resolveBoxComponent Γ config yanet kind name = .ok (some rc) ∨
          resolveBoxServiceComponent Γ config yanet.boxType kind name = .ok (some rc) →
        ∀ plan ∈ buildServices Γ yanet.boxType rc.toResolvedRole,
          plan.validate = .ok () ∧ Text.isDNS1035Label plan.name = [] ∧ (plan.ports.map (·.name)).Nodup ∧
            (plan.ports.map (·.port)).Nodup := by
  have hadmitted := validateYanetConfig_ok hconfig
  have hwiring := validateYanetConfig_wiring hconfig
  obtain ⟨box, hfind⟩ := findBoxType_of_mem hbox
  refine ⟨box, hfind, hwiring.validateEffective hadmitted (findBoxType_ok hfind).1 hshape, fun hkeys => ?_, ?_⟩
  · obtain ⟨refs, hrefs, hnodup, hmem⟩ := hwiring.enabledComponentsForBox hadmitted hkeys hfind
    refine ⟨refs, hrefs, hnodup, hmem, fun ref href => ?_⟩
    have hwires := ((hmem ref).1 href).1
    have hplain : validateYanetComponentOverrideShape Γ ({ boxType := yanet.boxType } : YanetSpec).components = .ok () := rfl
    exact ⟨hwiring.resolveBoxComponent hadmitted hshape hfind hwires fun _ => hkeys,
      hwiring.resolveBoxComponent hadmitted hplain hfind hwires fun _ => hkeys⟩
  · rintro kind name rc (hrc | hrc) plan hplan
    · exact hwiring.validate_plan hadmitted (resolveBoxComponent_ok hrc) hplan
    · exact hwiring.validate_plan hadmitted (resolveBoxComponent_ok hrc) hplan

/-- Overrides of the sample box with one for an operator that is gone. -/
def staleOverrides : YanetSpec where
  boxType := "edge"
  components := some { operators := StrMap.of [("gone", { enabled := some false })] }

/-- The stale override does not stop the five roles of the sample box. -/
theorem staleOverrides_resolve :
    validateYanetConfig samplePlatform sampleConfig = .ok () ∧
      (∃ box, findBoxType sampleConfig "edge" = .ok box ∧
        validateEffectiveYanetComponentOverrides samplePlatform staleOverrides.components sampleConfig.components box = .ok ()) ∧
      ∃ refs, enabledComponentsForBox samplePlatform sampleConfig "edge" = .ok refs ∧ refs.Nodup ∧
        ∀ ref ∈ refs, ∃ rc,
          resolveBoxComponent samplePlatform sampleConfig staleOverrides ref.kind ref.operatorName = .ok (some rc) := by
  have hconfig : validateYanetConfig samplePlatform sampleConfig = .ok () := by decide +kernel
  obtain ⟨box, hbox, heffective, hresolve, -⟩ := admission_resolves samplePlatform sampleConfig staleOverrides hconfig
    (by decide +kernel) (by decide +kernel)
  obtain ⟨refs, hrefs, hnodup, -, hroles⟩ := hresolve (by unfold KeysApart; decide +kernel)
  exact ⟨hconfig, ⟨box, hbox, heffective⟩, refs, hrefs, hnodup, fun ref href => (hroles ref href).1⟩

end YanetOperator
