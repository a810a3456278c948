import YanetOperator.Lemmas.Passes
import YanetOperator.Lemmas.Roles
import YanetOperator.Theorems.Routing

/-!
# Injected endpoints

The variables that tell a runtime where to listen, where it is reached and where the gateways are. They are computed apart from
the Service plans and the ports of the containers, and agree with both.
-/

namespace YanetOperator

open Check

/-! ## Owned variables -/

/-- The environment of a container after the owned variables are asserted: the owned ones first, then the others. -/
def assertEnv (owned env : List EnvVar) : List EnvVar := owned ++ env.filter fun v => v.name ∉ owned.map (·.name)

/-- An owned variable occurs once, with its owned value. -/
theorem assertEnv_owned {owned env : List EnvVar} (hnames : (owned.map (·.name)).Nodup) {v : EnvVar} (hv : v ∈ owned) :
    (assertEnv owned env).filter (·.name == v.name) = [v] := by
  have hrest : (env.filter fun x => x.name ∉ owned.map (·.name)).filter (·.name == v.name) = [] := by
    rw [List.filter_eq_nil_iff]
    intro x hx hname
    have hfree : x.name ∉ owned.map (·.name) := by simpa using (List.mem_filter.1 hx).2
    exact hfree (beq_iff_eq.1 hname ▸ List.mem_map_of_mem hv)
  have hone : owned.filter (·.name == v.name) = [v] := by
    rw [← List.perm_singleton, List.perm_ext_iff_of_nodup ((hnames.of_map _).filter _) (List.nodup_singleton v)]
    intro x
    rw [List.mem_filter, beq_iff_eq, List.mem_singleton]
    constructor
    · rintro ⟨hx, hname⟩
      exact List.inj_on_of_nodup_map hnames hx hv hname
    · rintro rfl
      exact ⟨hv, rfl⟩
  rw [assertEnv, List.filter_append, hone, hrest, List.append_nil]

/-- The other variables keep their order and their values. -/
theorem assertEnv_other (owned env : List EnvVar) :
    (assertEnv owned env).filter (fun v => v.name ∉ owned.map (·.name)) = env.filter fun v => v.name ∉ owned.map (·.name) := by
  have hnone : owned.filter (fun v => v.name ∉ owned.map (·.name)) = [] := by
    rw [List.filter_eq_nil_iff]
    intro v hv hfree
    exact (by simpa using hfree : v.name ∉ owned.map (·.name)) (List.mem_map_of_mem hv)
  rw [assertEnv, List.filter_append, hnone, List.nil_append, List.filter_filter]
  simp only [Bool.and_self]

/-! ## The variables of a role -/

/-- The variables the operator owns on the listener container of a role. -/
def roleVariables (Γ : Platform) (ctx : BuildContext) (role : ResolvedRole) : List EnvVar :=
  match runtimePortPair role with
  | .ok (grpcPort, httpPort) => runtimeVariables Γ ctx role grpcPort httpPort
  | .error _ => []

/-- The role has a managed configuration, its volume is mounted by the container, and is a host path. -/
def HasHostConfig (Γ : Platform) (role : ResolvedRole) (volumes : List Volume) (c : Container) : Prop :=
  ConfigSource.isZero (roleConfig role) = false ∧ (∃ m ∈ c.volumeMounts, m.name = configVolume Γ role) ∧
    ∃ v ∈ volumes, v.name = configVolume Γ role ∧ v.hostPath.isSome = true

instance (Γ : Platform) (role : ResolvedRole) (volumes : List Volume) (c : Container) :
    Decidable (HasHostConfig Γ role volumes c) :=
  inferInstanceAs (Decidable (_ ∧ _ ∧ _))

/-- A container after the runtime endpoints of a role. -/
def injectRuntime (Γ : Platform) (ctx : BuildContext) (volumes : List Volume) (c : Container) (role : ResolvedRole) : Container :=
  if c.name = listenerContainer Γ role ∧ HasHostConfig Γ role volumes c then
    { c with env := assertEnv (roleVariables Γ ctx role) c.env }
  else c

section

variable {Γ : Platform} {ctx : BuildContext} {role : ResolvedRole} {volumes : List Volume}

theorem injectRuntime_name (c : Container) : (injectRuntime Γ ctx volumes c role).name = c.name := by
  unfold injectRuntime
  split <;> rfl

theorem runtimeConfig_ok {name : String} {source : Option ConfigSource} (h : runtimeConfig role = .ok (name, source)) :
    source = roleConfig role ∧ (if role.isColocated then scopedOperatorName Γ role.name name else name) = configVolume Γ role := by
  unfold runtimeConfig at h
  unfold roleConfig configVolume
  cases hkind : role.kind with
  | operator =>
    cases hcontainers : role.containers with
    | nil =>
      rw [hkind, hcontainers] at h
      cases h
    | cons primary rest =>
      rw [hkind, hcontainers] at h
      cases h
      exact ⟨rfl, rfl⟩
  | controlplane | dataplane | birdAdapter | sidecar =>
    rw [hkind] at h
    cases h
    exact ⟨rfl, rfl⟩

/-- With unique volumes the check of a managed host configuration says what it is for. -/
theorem managedHostConfig_iff {pod : PodSpec} (hvolumes : (pod.volumes.map (·.name)).Nodup) {c : Container} {name : String} :
    managedHostConfig pod c name = true ↔
      (∃ m ∈ c.volumeMounts, m.name = name) ∧ ∃ v ∈ pod.volumes, v.name = name ∧ v.hostPath.isSome = true := by
  unfold managedHostConfig
  rw [Bool.and_eq_true, List.any_eq_true]
  refine and_congr (by simp) ?_
  constructor
  · intro h
    split at h
    · next v hv => exact ⟨v, List.mem_of_find?_eq_some hv, by simpa using List.find?_some hv, h⟩
    · cases h
  · rintro ⟨v, hv, hname, hpath⟩
    have hfind : pod.volumes.find? (·.name == name) = some v := by
      cases hfound : pod.volumes.find? (·.name == name) with
      | none => exact absurd (List.find?_eq_none.1 hfound v hv) (by simp [hname])
      | some w =>
        have hw : w.name = name := by simpa using List.find?_some hfound
        rw [List.inj_on_of_nodup_map hvolumes (List.mem_of_find?_eq_some hfound) hv (hw.trans hname.symm)]
    rw [hfind]
    exact hpath

/-- What `configureRuntimeContainer` does to every container of the Pod. -/
theorem configureRuntimeContainer_inject {d d' : Deployment} (hvolumes : (d.pod.volumes.map (·.name)).Nodup)
    (h : configureRuntimeContainer Γ d ctx role role.isColocated = .ok d') :
    d' = d.mapContainers (injectRuntime Γ ctx d.pod.volumes · role) := by
  have hskip (hno : ∀ c ∈ d.pod.allContainers, c.name = listenerContainer Γ role → ¬HasHostConfig Γ role d.pod.volumes c) :
      d = d.mapContainers (injectRuntime Γ ctx d.pod.volumes · role) := by
    conv_lhs => rw [← mapContainers_id d]
    refine mapContainers_congr fun c hc => ?_
    rw [injectRuntime, if_neg fun hcond => hno c hc hcond.1 hcond.2]
    rfl
  unfold configureRuntimeContainer at h
  obtain ⟨⟨name, source⟩, hconfig, h⟩ := bind_eq_ok.1 h
  obtain ⟨hsource, hvolume⟩ := runtimeConfig_ok (Γ := Γ) hconfig
  dsimp only at h
  rw [hvolume] at h
  by_cases hzero : ConfigSource.isZero source = true
  · rw [if_pos hzero] at h
    cases h
    refine hskip fun c _ _ hhost => ?_
    rw [hsource, hhost.1] at hzero
    cases hzero
  · rw [if_neg hzero] at h
    obtain ⟨c, hc, h⟩ := bind_eq_ok.1 h
    obtain ⟨-, -, honly⟩ := findContainer_ok hc
    by_cases hmanaged : managedHostConfig d.pod c (configVolume Γ role) = false
    · rw [if_pos hmanaged] at h
      cases h
      refine hskip fun x hx hname hhost => ?_
      rw [honly x hx hname] at hhost
      rw [(managedHostConfig_iff hvolumes).2 hhost.2] at hmanaged
      cases hmanaged
    · rw [if_neg hmanaged] at h
      obtain ⟨⟨grpcPort, httpPort⟩, hpair, h⟩ := bind_eq_ok.1 h
      cases h
      have hhost : HasHostConfig Γ role d.pod.volumes c :=
        ⟨by rw [← hsource]; simpa using hzero, (managedHostConfig_iff hvolumes).1 (by simpa using hmanaged)⟩
      have hvars : roleVariables Γ ctx role = runtimeVariables Γ ctx role grpcPort httpPort := by rw [roleVariables, hpair]
      refine mapContainers_congr fun x hx => ?_
      by_cases hname : x.name = listenerOwner Γ role role.isColocated
      · have hcond : x.name = listenerContainer Γ role ∧ HasHostConfig Γ role d.pod.volumes x :=
          ⟨hname, honly x hx hname ▸ hhost⟩
        rw [if_pos hname, injectRuntime, if_pos hcond, hvars]
        rfl
      · rw [if_neg hname, injectRuntime, if_neg fun hcond => hname hcond.1]

/-- The endpoints of one role after another, on one container. -/
theorem foldlM_inject {roles : List ResolvedRole} (hroles : ∀ r ∈ roles, r.isColocated = true) {d d' : Deployment}
    (hvolumes : (d.pod.volumes.map (·.name)).Nodup)
    (h : roles.foldlM (fun d r => configureRuntimeContainer Γ d ctx r true) d = .ok d') :
    d' = d.mapContainers fun c => roles.foldl (injectRuntime Γ ctx d.pod.volumes) c := by
  induction roles generalizing d with
  | nil =>
    cases h
    exact (mapContainers_id _).symm
  | cons r rest ih =>
    rw [List.foldlM_cons] at h
    obtain ⟨e, he, h⟩ := bind_eq_ok.1 h
    rw [← hroles r (List.mem_cons_self ..)] at he
    have he := configureRuntimeContainer_inject hvolumes he
    have hsame : e.pod.volumes = d.pod.volumes := by rw [he]; rfl
    rw [ih (fun x hx => hroles x (List.mem_cons_of_mem _ hx)) (hsame ▸ hvolumes) h, he, mapContainers_mapContainers]
    rfl

/-- What `ConfigureRuntimeNetwork` does to every container: the endpoints of each role of the Pod in turn. -/
theorem configureRuntimeNetwork_inject {component : ResolvedComponent} (hkind : component.kind ≠ .sidecar)
    (hsidecars : ∀ s ∈ component.sidecars, s.isColocated = true) {d d' : Deployment}
    (hvolumes : (d.pod.volumes.map (·.name)).Nodup) (h : configureRuntimeNetwork Γ d ctx component = .ok d') :
    d' = d.mapContainers fun c => (podRoles component).foldl (injectRuntime Γ ctx d.pod.volumes) c := by
  unfold configureRuntimeNetwork at h
  obtain ⟨e, he, h⟩ := bind_eq_ok.1 h
  have hsidecars : ∀ s ∈ component.sidecars.filter (·.enabled), s.isColocated = true :=
    fun s hs => hsidecars s (List.mem_filter.1 hs).1
  have hown : component.toResolvedRole.isColocated = false := by simp [ResolvedRole.isColocated, hkind]
  unfold podRoles
  by_cases hdataplane : component.kind ≠ .dataplane
  · rw [if_pos hdataplane] at he ⊢
    rw [← hown] at he
    have he := configureRuntimeContainer_inject hvolumes he
    have hsame : e.pod.volumes = d.pod.volumes := by rw [he]; rfl
    rw [foldlM_inject hsidecars (hsame ▸ hvolumes) h, he, mapContainers_mapContainers]
    rfl
  · rw [if_neg hdataplane] at he ⊢
    cases he
    exact foldlM_inject hsidecars hvolumes h

theorem foldl_inject_keeps (roles : List ResolvedRole) (c : Container) :
    (roles.foldl (injectRuntime Γ ctx volumes) c).name = c.name ∧
      (roles.foldl (injectRuntime Γ ctx volumes) c).volumeMounts = c.volumeMounts := by
  induction roles generalizing c with
  | nil => exact ⟨rfl, rfl⟩
  | cons r rest ih =>
    have hmounts : (injectRuntime Γ ctx volumes c r).volumeMounts = c.volumeMounts := by
      unfold injectRuntime
      split <;> rfl
    obtain ⟨hname, hkept⟩ := ih (injectRuntime Γ ctx volumes c r)
    exact ⟨hname.trans (injectRuntime_name c), hkept.trans hmounts⟩

/-- Where the roles have listener containers of their own, a container gets the endpoints of its role and no others. -/
theorem foldl_inject (ctx : BuildContext) (volumes : List Volume) {roles : List ResolvedRole}
    (howners : (roles.map (listenerContainer Γ)).Nodup) (c : Container) :
    (∀ r ∈ roles, c.name = listenerContainer Γ r →
      roles.foldl (injectRuntime Γ ctx volumes) c = injectRuntime Γ ctx volumes c r) ∧
    ((∀ r ∈ roles, c.name ≠ listenerContainer Γ r) → roles.foldl (injectRuntime Γ ctx volumes) c = c) := by
  induction roles generalizing c with
  | nil =>
    refine ⟨fun r hr => ?_, fun _ => rfl⟩
    cases hr
  | cons r rest ih =>
    rw [List.map_cons, List.nodup_cons] at howners
    obtain ⟨hmine, hother⟩ := ih howners.2 (injectRuntime Γ ctx volumes c r)
    rw [injectRuntime_name] at hmine hother
    have hstill (hne : c.name ≠ listenerContainer Γ r) : injectRuntime Γ ctx volumes c r = c :=
      if_neg fun hcond => hne hcond.1
    refine ⟨fun r' hr' hname => ?_, fun hnone => ?_⟩
    · rcases List.mem_cons.1 hr' with rfl | hr'
      · refine hother fun x hx hx' => howners.1 ?_
        rw [← hname, hx']
        exact List.mem_map_of_mem hx
      · have hne : c.name ≠ listenerContainer Γ r := by
          intro heq
          exact howners.1 (heq ▸ hname ▸ List.mem_map_of_mem hr')
        rw [List.foldl_cons, hmine r' hr' hname, hstill hne]
    · rw [List.forall_mem_cons] at hnone
      rw [List.foldl_cons, hother hnone.2, hstill hnone.1]

end

/-! ## The variables of a server -/

/-- The variable of the gateway at a position. -/
def gatewayVariable (endpoint : String) (k : Nat) : EnvVar :=
  { name := "YANET_GATEWAYS_" ++ toString k ++ "_ENDPOINT", value := endpoint }

/-- The variable that says where a server is reached. -/
def advertiseVariable (Γ : Platform) (ctx : BuildContext) (role : ResolvedRole) : EnvVar :=
  { name := "YANET_SERVER_ADVERTISE_ENDPOINT"
    value := serviceEndpoint ctx (sharedServiceName Γ ctx.boxType role.name none) runtimeGRPCPort }

/-- The variable that says where a server listens. -/
def serverVariable (port : Int) : EnvVar := { name := "YANET_SERVER_ENDPOINT", value := "[::]:" ++ toString port }

section

variable {Γ : Platform} {ctx : BuildContext} {role : ResolvedRole} {grpcPort httpPort : Int}

/-- The owned variables of an operator or a sidecar. -/
theorem roleVariables_server (h : HasServer role) (hnodup : (protocols role).Nodup)
    (hpair : runtimePortPair role = .ok (grpcPort, httpPort)) :
    roleVariables Γ ctx role =
      [serverVariable (if role.listenerNames = some ["http"] then httpPort else grpcPort)] ++
        (if "grpc" ∈ protocols role then [advertiseVariable Γ ctx role] else []) ++
        ctx.gatewayEndpoints.zipIdx.map fun p => gatewayVariable p.1 p.2 := by
  have hadvertise : ((listenerPorts Γ role).filter (·.name == "grpc")).map (fun _ => advertiseVariable Γ ctx role) =
      if "grpc" ∈ protocols role then [advertiseVariable Γ ctx role] else [] := by
    rw [listenerPorts_server h, List.filter_map, List.map_map]
    show ((protocols role).filter (· == "grpc")).map (fun _ => advertiseVariable Γ ctx role) = _
    rw [List.filter_beq]
    split
    · next hmem =>
      rw [List.count_eq_one_of_mem hnodup hmem]
      rfl
    · next hmem =>
      rw [List.count_eq_zero_of_not_mem hmem]
      rfl
  rw [← hadvertise, roleVariables, hpair]
  unfold runtimeVariables
  rcases h with hkind | hkind
  · simp only [hkind]
    rfl
  · simp only [hkind]
    rfl

theorem gatewayVariable_hasPrefix (endpoint : String) (k : Nat) :
    Text.hasPrefix (gatewayVariable endpoint k).name "YANET_GATEWAYS_" = true := by
  rw [gatewayVariable, String.append_assoc]
  exact Text.hasPrefix_append _ _

theorem gatewayVariable_inj {e e' : String} {k k' : Nat} (h : (gatewayVariable e k).name = (gatewayVariable e' k').name) :
    k = k' := by
  have hlist := congrArg String.toList h
  simp only [gatewayVariable, String.toList_append, List.append_cancel_right_eq, List.append_cancel_left_eq] at hlist
  exact Text.toString_inj (String.toList_injective hlist)

theorem gatewayVariables_nodup (endpoints : List String) :
    ((endpoints.zipIdx.map fun p => gatewayVariable p.1 p.2).map (·.name)).Nodup := by
  rw [List.map_map]
  refine List.Nodup.map_on (fun a ha b hb heq => ?_) ?_
  · have hindex : a.2 = b.2 := gatewayVariable_inj heq
    rw [List.mem_zipIdx_iff_getElem?] at ha hb
    rw [hindex] at ha
    exact Prod.ext (Option.some.inj (ha.symm.trans hb)) hindex
  · refine List.Nodup.of_map Prod.snd ?_
    rw [List.zipIdx_map_snd]
    exact List.nodup_range'

/-- The owned variables of a server have names of their own, and those of the gateways are known by their prefix. -/
theorem serverVariables_names {endpoints : List String} {advertised : EnvVar} {advertise : List EnvVar} {port : Int}
    (hname : advertised.name = "YANET_SERVER_ADVERTISE_ENDPOINT") (hadvertise : advertise = [] ∨ advertise = [advertised]) :
    (([serverVariable port] ++ advertise ++ endpoints.zipIdx.map fun p => gatewayVariable p.1 p.2).map (·.name)).Nodup ∧
      ([serverVariable port] ++ advertise ++ endpoints.zipIdx.map fun p => gatewayVariable p.1 p.2).filter
        (fun v => Text.hasPrefix v.name "YANET_GATEWAYS_") = endpoints.zipIdx.map fun p => gatewayVariable p.1 p.2 := by
  have hserver : Text.hasPrefix (serverVariable port).name "YANET_GATEWAYS_" = false := by
    show Text.hasPrefix "YANET_SERVER_ENDPOINT" "YANET_GATEWAYS_" = false
    decide
  have hadvertised : Text.hasPrefix advertised.name "YANET_GATEWAYS_" = false := by
    rw [hname]
    decide
  have hne : (serverVariable port).name ≠ advertised.name := by
    rw [hname]
    show "YANET_SERVER_ENDPOINT" ≠ "YANET_SERVER_ADVERTISE_ENDPOINT"
    decide
  have hfixed : (([serverVariable port] ++ advertise).map (·.name)).Nodup ∧
      ∀ v ∈ [serverVariable port] ++ advertise, Text.hasPrefix v.name "YANET_GATEWAYS_" = false := by
    rcases hadvertise with rfl | rfl
    · simp [hserver]
    · simp [hserver, hadvertised, hne]
  have hgateways : ∀ v ∈ endpoints.zipIdx.map fun p => gatewayVariable p.1 p.2,
      Text.hasPrefix v.name "YANET_GATEWAYS_" = true := by
    intro v hv
    obtain ⟨p, -, rfl⟩ := List.mem_map.1 hv
    exact gatewayVariable_hasPrefix p.1 p.2
  constructor
  · rw [List.map_append, List.nodup_append]
    refine ⟨hfixed.1, gatewayVariables_nodup endpoints, fun a ha b hb heq => ?_⟩
    obtain ⟨v, hv, rfl⟩ := List.mem_map.1 ha
    obtain ⟨w, hw, rfl⟩ := List.mem_map.1 hb
    have hv := hfixed.2 v hv
    rw [heq, hgateways w hw] at hv
    cases hv
  · have hnone : ([serverVariable port] ++ advertise).filter (fun v => Text.hasPrefix v.name "YANET_GATEWAYS_") = [] := by
      rw [List.filter_eq_nil_iff]
      intro v hv
      rw [hfixed.2 v hv]
      exact Bool.false_ne_true
    rw [List.filter_append, hnone, List.nil_append, List.filter_eq_self]
    exact hgateways

/-- The owned variables of a role have names of their own. -/
theorem roleVariables_nodup (hkind : role.kind ≠ .dataplane) (hnodup : (protocols role).Nodup) :
    ((roleVariables Γ ctx role).map (·.name)).Nodup := by
  cases hpair : runtimePortPair role with
  | error e =>
    rw [roleVariables, hpair]
    exact List.nodup_nil
  | ok ports =>
    obtain ⟨grpcPort, httpPort⟩ := ports
    by_cases hserver : HasServer role
    · rw [roleVariables_server hserver hnodup hpair]
      refine (serverVariables_names (rfl : (advertiseVariable Γ ctx role).name = _) ?_).1
      split
      · exact .inr rfl
      · exact .inl rfl
    · rw [roleVariables, hpair]
      unfold runtimeVariables
      cases hk : role.kind with
      | controlplane => simp
      | birdAdapter => simp
      | dataplane => exact absurd hk hkind
      | operator => exact absurd (.inl hk) hserver
      | sidecar => exact absurd (.inr hk) hserver

/-- The owned variables of a server that name gateways. -/
theorem roleVariables_gateways (h : HasServer role) (hnodup : (protocols role).Nodup)
    (hpair : runtimePortPair role = .ok (grpcPort, httpPort)) :
    (roleVariables Γ ctx role).filter (fun v => Text.hasPrefix v.name "YANET_GATEWAYS_") =
      ctx.gatewayEndpoints.zipIdx.map fun p => gatewayVariable p.1 p.2 := by
  rw [roleVariables_server h hnodup hpair]
  refine (serverVariables_names (rfl : (advertiseVariable Γ ctx role).name = _) ?_).2
  split
  · exact .inr rfl
  · exact .inl rfl

end

/-! ## Agreement with the Services -/

/-- The address of a port of a planned Service. -/
def ServicePlan.address (plan : ServicePlan) (ns : String) (port : ServicePortPlan) : String :=
  plan.name ++ "." ++ ns ++ ".svc.cluster.local:" ++ toString port.port

section

variable {Γ : Platform} {config : YanetConfigSpec} {yanet : YanetSpec} {component : ResolvedComponent} {role : ResolvedRole}
  {ctx : BuildContext}

/-- The Services planned for a role of a Pod are those of the role. -/
theorem rolePlans_podRole (hconfig : validateYanetConfig Γ config = .ok ()) (h : Resolved Γ config yanet component)
    (hkind : component.kind ≠ .sidecar) (hrole : role ∈ podRoles component) :
    rolePlans Γ config yanet.boxType { kind := role.kind, operatorName := role.name } =
      buildServices Γ yanet.boxType role := by
  have hadmitted := validateYanetConfig_ok hconfig
  have hwiring := validateYanetConfig_wiring hconfig
  have hplain : validateYanetComponentOverrideShape Γ ({ boxType := yanet.boxType } : YanetSpec).components = .ok () := rfl
  have hresolve : ∃ rc, resolveBoxServiceComponent Γ config yanet.boxType role.kind role.name = .ok (some rc) := by
    rcases podRoles_cases h hrole with ⟨rfl, hdataplane, -⟩ | ⟨hdataplane, hmem, henabled, -⟩
    · obtain ⟨kind, operatorName, has⟩ := h.as
      obtain ⟨box, hbox, hwires⟩ := has.box
      rw [has.kind] at hkind hdataplane ⊢
      rw [has.name, resolveBoxServiceComponent, resolveBoxComponent_roleName]
      exact hwiring.resolveBoxComponent hadmitted hplain hbox hwires fun hk => hk.elim (absurd · hdataplane) (absurd · hkind)
    · obtain ⟨box, hbox, hwires, hkeys⟩ := sidecar_wired h hdataplane hmem henabled
      have hsidecar : role.kind = .sidecar := by simpa [ResolvedRole.isColocated] using sidecars_colocated h role hmem
      rw [hsidecar]
      exact hwiring.resolveBoxComponent hadmitted hplain hbox hwires fun _ => hkeys
  obtain ⟨rc, hrc⟩ := hresolve
  have hcore := (resolveBoxComponent_ok hrc).core
  rw [rolePlans, hrc]
  dsimp only
  rw [← buildServices_core, hcore, ← podRoles_core h hrole, buildServices_core]

/-- The Services of an operator or a sidecar: one with its protocols, none without protocols. -/
theorem buildServices_server {boxType : String} (h : HasServer role) :
    buildServices Γ boxType role =
      if protocols role = [] then [] else [buildServicePlan Γ boxType role none (listenerPorts Γ role)] := by
  have hkind : role.kind ≠ .controlplane := by
    rcases h with h | h <;> rw [h] <;> decide
  have hports : listenerPorts Γ role = [] ↔ protocols role = [] := by
    rw [listenerPorts_server h, List.map_eq_nil_iff]
  unfold buildServices
  dsimp only
  by_cases hnone : protocols role = []
  · rw [if_pos (hports.2 hnone), if_pos hnone]
  · rw [if_neg fun hp => hnone (hports.1 hp), if_neg hnone, if_pos hkind]

theorem mem_planPorts (Γ : Platform) (boxType : String) {port : ServicePortPlan} (h : HasServer role) :
    port ∈ (buildServicePlan Γ boxType role none (listenerPorts Γ role)).ports ↔ ∃ n ∈ protocols role, port =
      { name := n
        port := if n = "http" then runtimeHTTPPort else runtimeGRPCPort
        targetPortName := listenerTargetPortName
          { name := n
            servicePort := if n = "http" then runtimeHTTPPort else runtimeGRPCPort
            targetPortName := if role.isColocated then colocatedTargetPort Γ role.name n else "" } } := by
  rw [buildServicePlan, listenerPorts_server h]
  simp only [List.map_map, List.mem_map, Function.comp_apply, eq_comm]

/-- A server is told its address exactly when its Service has a gRPC port, and the address is that of the port. -/
theorem advertise_iff (h : HasServer role) (hctx : ctx.boxType = yanet.boxType) (hnodup : (protocols role).Nodup)
    {grpcPort httpPort : Int} (hpair : runtimePortPair role = .ok (grpcPort, httpPort)) {v : EnvVar} :
    v ∈ roleVariables Γ ctx role ∧ v.name = "YANET_SERVER_ADVERTISE_ENDPOINT" ↔
      ∃ plan ∈ buildServices Γ yanet.boxType role, ∃ port ∈ plan.ports, port.name = "grpc" ∧
        v = { name := "YANET_SERVER_ADVERTISE_ENDPOINT", value := plan.address ctx.ns port } := by
  have haddress : ∀ port ∈ (buildServicePlan Γ yanet.boxType role none (listenerPorts Γ role)).ports, port.name = "grpc" →
      ({ name := "YANET_SERVER_ADVERTISE_ENDPOINT"
         value := (buildServicePlan Γ yanet.boxType role none (listenerPorts Γ role)).address ctx.ns port } : EnvVar) =
        advertiseVariable Γ ctx role := by
    intro port hport hname
    obtain ⟨n, -, rfl⟩ := (mem_planPorts Γ yanet.boxType h).1 hport
    have hname : n = "grpc" := hname
    subst hname
    have hport : (if "grpc" = "http" then runtimeHTTPPort else runtimeGRPCPort) = runtimeGRPCPort := if_neg (by decide)
    simp only [advertiseVariable, serviceEndpoint, ServicePlan.address, buildServicePlan, hctx, hport]
  rw [roleVariables_server h hnodup hpair, buildServices_server h]
  constructor
  · rintro ⟨hv, hname⟩
    rcases List.mem_append.1 hv with hv | hv
    · rcases List.mem_append.1 hv with hv | hv
      · rw [List.mem_singleton.1 hv] at hname
        exact absurd hname (by show "YANET_SERVER_ENDPOINT" ≠ _; decide)
      · split at hv
        · next hgrpc =>
          rw [if_neg (List.ne_nil_of_mem hgrpc)]
          obtain hport := (mem_planPorts Γ yanet.boxType h).2 ⟨"grpc", hgrpc, rfl⟩
          exact ⟨_, List.mem_singleton.2 rfl, _, hport, rfl, (List.mem_singleton.1 hv).trans (haddress _ hport rfl).symm⟩
        · cases hv
    · obtain ⟨p, -, rfl⟩ := List.mem_map.1 hv
      have hgateway := gatewayVariable_hasPrefix p.1 p.2
      rw [hname] at hgateway
      exact absurd hgateway (by decide)
  · rintro ⟨plan, hplan, port, hport, hname, rfl⟩
    split at hplan
    · cases hplan
    · rw [List.mem_singleton.1 hplan] at hport ⊢
      refine ⟨?_, rfl⟩
      have hgrpc : "grpc" ∈ protocols role := by
        obtain ⟨n, hn, rfl⟩ := (mem_planPorts Γ yanet.boxType h).1 hport
        have hname : n = "grpc" := hname
        exact hname ▸ hn
      rw [haddress port hport hname, if_pos hgrpc]
      exact List.mem_append_left _ (List.mem_append_right _ (List.mem_singleton.2 rfl))

/-- The port a server binds is the one its Service targets: that of gRPC, or of HTTP where it is the only protocol. -/
theorem server_binds (h : HasServer role) (hprotocols : (protocols role).Nodup ∧ ∀ n ∈ protocols role, n = "grpc" ∨ n = "http")
    {d : Deployment} {plan : ServicePlan} (hplan : plan ∈ buildServices Γ yanet.boxType role)
    (hroutes : ∀ port ∈ plan.ports, RoutesTo Γ role d port) :
    ∃ port ∈ plan.ports, ((∃ q ∈ plan.ports, q.name = "grpc") → port.name = "grpc") ∧
      ∃ c ∈ d.pod.allContainers, c.name = listenerContainer Γ role ∧ ∃ p ∈ c.ports, p.name = port.targetPortName ∧
        (∀ c' ∈ d.pod.allContainers, ∀ p' ∈ c'.ports, p'.name = port.targetPortName → c' = c ∧ p' = p) ∧
        serverVariable p.containerPort ∈ roleVariables Γ ctx role := by
  rw [buildServices_server h] at hplan
  split at hplan
  · cases hplan
  · next hsome =>
    rw [List.mem_singleton.1 hplan] at hroutes ⊢
    -- the protocol that is bound
    obtain ⟨n, hn, hfirst, hbound⟩ : ∃ n ∈ protocols role, ("grpc" ∈ protocols role → n = "grpc") ∧
        (role.listenerNames = some ["http"] ↔ n = "http") := by
      by_cases hgrpc : "grpc" ∈ protocols role
      · refine ⟨"grpc", hgrpc, fun _ => rfl, fun honly => ?_, fun heq => absurd heq (by decide)⟩
        rw [protocols, honly] at hgrpc
        exact absurd hgrpc (by decide)
      · have hhttp : protocols role = ["http"] := by
          have hall : ∀ n ∈ protocols role, n = "http" :=
            fun n hn => (hprotocols.2 n hn).resolve_left fun heq => hgrpc (heq ▸ hn)
          cases hlist : protocols role with
          | nil => exact absurd hlist hsome
          | cons a rest =>
            rw [hlist] at hall hprotocols
            rw [List.forall_mem_cons] at hall
            have hrest : rest = [] := by
              rw [List.eq_nil_iff_forall_not_mem]
              intro b hb
              exact (List.nodup_cons.1 hprotocols.1).1 ((hall.2 b hb).trans hall.1.symm ▸ hb)
            rw [hall.1, hrest]
        refine ⟨"http", by rw [hhttp]; exact List.mem_singleton.2 rfl, fun hmem => absurd hmem hgrpc, fun _ => rfl, fun _ => ?_⟩
        unfold protocols at hhttp
        cases hnames : role.listenerNames with
        | none =>
          rw [hnames] at hhttp
          exact absurd hhttp (by decide)
        | some names =>
          rw [hnames] at hhttp
          exact congrArg some hhttp
    have hport := (mem_planPorts Γ yanet.boxType h).2 ⟨n, hn, rfl⟩
    refine ⟨_, hport, fun hgrpc => ?_, ?_⟩
    · obtain ⟨q, hq, hname⟩ := hgrpc
      obtain ⟨n', hn', rfl⟩ := (mem_planPorts Γ yanet.boxType h).1 hq
      have hname : n' = "grpc" := hname
      exact hfirst (hname ▸ hn')
    · obtain ⟨grpcPort, httpPort, hpair, c, hc, hcn, p, hp, hpn, hnumber, hunique⟩ := hroutes _ hport
      refine ⟨c, hc, hcn, p, hp, hpn, hunique, ?_⟩
      rw [roleVariables_server h hprotocols.1 hpair, hnumber]
      refine List.mem_append_left _ (List.mem_append_left _ (List.mem_singleton.2 ?_))
      congr 1
      exact if_congr hbound.symm rfl rfl

end

/-! ## Gateways -/

section

variable {Γ : Platform} {config : YanetConfigSpec} {yanet : YanetSpec} {cp : ResolvedComponent}

/-- The endpoint of an instance of the controlplane. -/
def controlplaneEndpoint (Γ : Platform) (ctx : BuildContext) (cp : ResolvedRole) (i : Nat) : String :=
  serviceEndpoint ctx (sharedServiceName Γ ctx.boxType cp.name (some i)) runtimeGRPCPort

/-- The context of a pass has the endpoints of the enabled instances. -/
theorem withRuntimeNetwork_ok {start ctx : BuildContext} (hconfig : validateYanetConfig Γ config = .ok ())
    (h : withRuntimeNetwork Γ start config yanet = .ok ctx) :
    ∃ cp, resolveBoxComponent Γ config yanet .controlplane "" = .ok (some cp) ∧
      ctx.boxType = start.boxType ∧
      ctx.gatewayEndpoints = (enabledNuma cp.toResolvedRole).map (controlplaneEndpoint Γ ctx cp.toResolvedRole) := by
  unfold withRuntimeNetwork at h
  obtain ⟨resolved, hresolved, h⟩ := bind_eq_ok.1 h
  cases resolved with
  | none =>
    obtain ⟨box, hbox, -⟩ := bind_eq_ok.1 hresolved
    have hwired := (validateYanetConfig_ok hconfig).boxControlplane box (findBoxType_ok hbox).1
    exact absurd hwired (resolveBoxComponent_none hbox hresolved)
  | some cp =>
    cases h
    exact ⟨cp, hresolved, rfl, rfl⟩

/-- The address is that of the gRPC port of the Service planned for an instance of the controlplane. -/
def PlannedGateway (Γ : Platform) (config : YanetConfigSpec) (boxType ns : String) (i : Nat) (address : String) : Prop :=
  ∃ plan ∈ rolePlans Γ config boxType { kind := .controlplane }, plan.selector[labelNuma]? = some (toString i) ∧
    ∃ port ∈ plan.ports, port.name = "grpc" ∧ address = plan.address ns port

theorem controlplaneEndpoint_planned {ctx : BuildContext} (hconfig : validateYanetConfig Γ config = .ok ())
    (hcp : resolveBoxComponent Γ config yanet .controlplane "" = .ok (some cp)) (hbox : ctx.boxType = yanet.boxType) {i : Nat}
    (hi : i ∈ enabledNuma cp.toResolvedRole) :
    PlannedGateway Γ config yanet.boxType ctx.ns i (controlplaneEndpoint Γ ctx cp.toResolvedRole i) := by
  have hplain : validateYanetComponentOverrideShape Γ ({ boxType := yanet.boxType } : YanetSpec).components = .ok () := rfl
  have has := resolveBoxComponent_ok hcp
  obtain ⟨box, hfind, hwires⟩ := has.box
  obtain ⟨service, hservice⟩ := (validateYanetConfig_wiring hconfig).resolveBoxComponent (validateYanetConfig_ok hconfig)
    hplain hfind hwires fun hk => by rcases hk with hk | hk <;> cases hk
  have hcore := (resolveBoxComponent_ok hservice).core
  have hplans : rolePlans Γ config yanet.boxType { kind := .controlplane } = buildServices Γ yanet.boxType cp.toResolvedRole := by
    have hservice : resolveBoxServiceComponent Γ config yanet.boxType .controlplane "" = .ok (some service) := hservice
    rw [rolePlans, hservice]
    dsimp only
    rw [← buildServices_core, hcore, ← has.core, buildServices_core]
  have hlisteners : listenerPorts Γ cp.toResolvedRole =
      [{ name := "grpc", servicePort := runtimeGRPCPort }, { name := "http", servicePort := runtimeHTTPPort }] := by
    simp [listenerPorts, has.kind, ResolvedRole.isColocated]
  let plan := buildServicePlan Γ yanet.boxType cp.toResolvedRole (some i) (listenerPorts Γ cp.toResolvedRole)
  have hmem : plan ∈ buildServices Γ yanet.boxType cp.toResolvedRole := by
    have hkind : ¬cp.kind ≠ .controlplane := not_not.2 has.kind
    unfold buildServices
    dsimp only
    rw [if_neg (by rw [hlisteners]; exact List.cons_ne_nil _ _), if_neg hkind, (effectiveNuma_admitted hconfig hcp).2]
    exact List.mem_map_of_mem (List.mem_filter.1 hi).1
  have hgrpc : { name := "grpc", port := runtimeGRPCPort, targetPortName := "grpc" } ∈ plan.ports := by
    show _ ∈ (listenerPorts Γ cp.toResolvedRole).map _
    rw [hlisteners]
    exact List.mem_cons_self ..
  refine ⟨plan, hplans ▸ hmem, ?_, _, hgrpc, rfl, ?_⟩
  · show (serviceSelector Γ yanet.boxType cp.toResolvedRole (some i))[labelNuma]? = _
    simp [serviceSelector]
  · simp only [controlplaneEndpoint, serviceEndpoint, ServicePlan.address, plan, buildServicePlan, hbox]

/-- The rendered controlplanes carry the enabled indices in ascending order. -/
theorem renderedControlplanes (hcp : resolveBoxComponent Γ config yanet .controlplane "" = .ok (some cp)) {ctx : BuildContext}
    {enabled : Bool} {registry : PatchRegistry} {ds : List Deployment}
    (h : renderDeployments Γ ctx { cp with enabled := enabled } registry = .ok ds) :
    ds.map (fun d => d.spec.template.labels[labelNuma]?) = (enabledNuma cp.toResolvedRole).map fun i => some (toString i) := by
  have hkind := (resolveBoxComponent_ok hcp).kind
  have hinstances : instances ({ cp with enabled := enabled } : ResolvedComponent).toResolvedRole =
      (enabledNuma cp.toResolvedRole).map some := if_pos hkind
  have hdataplane : ({ cp with enabled := enabled } : ResolvedComponent).kind = .dataplane →
      ({ cp with enabled := enabled } : ResolvedComponent).name = ComponentKind.dataplane.text := by
    intro hd
    exact absurd (hkind.symm.trans hd) (by decide)
  have hsidecar : ({ cp with enabled := enabled } : ResolvedComponent).kind ≠ .sidecar := by
    intro hs
    exact absurd (hkind.symm.trans hs) (by decide)
  obtain ⟨built, -, hbuilt, hlength, hall⟩ := renderDeployments_ok hsidecar hdataplane h
  rw [hinstances] at hlength hall
  rw [List.length_map] at hlength
  refine List.ext_getElem (by rw [List.length_map, List.length_map, hlength]) fun j hj hj' => ?_
  rw [List.length_map] at hj hj'
  rw [List.getElem_map, List.getElem_map]
  have hinstance := hall j (some (enabledNuma cp.toResolvedRole)[j]) built[j] ds[j] (by simp)
    (List.getElem?_eq_getElem _) (List.getElem?_eq_getElem hj)
  rw [hinstance.podLabel (by simp [workloadIdentityLabels])]
  exact (instanceLabels_numa ctx _ _).2 rfl

end

/-! ## The endpoints of a pass -/

/-- The environment of the listener container of a role: with a managed host configuration every owned variable occurs once, with
its owned value, and the others keep their order and values; without one nothing changes. -/
def Injects (Γ : Platform) (ctx : BuildContext) (role : ResolvedRole) (volumes : List Volume) (c c' : Container) : Prop :=
  (HasHostConfig Γ role volumes c →
    (∀ v ∈ roleVariables Γ ctx role, c'.env.filter (·.name == v.name) = [v]) ∧
      c'.env.filter (fun v => v.name ∉ (roleVariables Γ ctx role).map (·.name)) =
        c.env.filter fun v => v.name ∉ (roleVariables Γ ctx role).map (·.name)) ∧
  (¬HasHostConfig Γ role volumes c → c'.env = c.env)

theorem injectRuntime_injects {Γ : Platform} {ctx : BuildContext} {role : ResolvedRole} {volumes : List Volume} {c : Container}
    (hname : c.name = listenerContainer Γ role) (hnodup : ((roleVariables Γ ctx role).map (·.name)).Nodup) :
    Injects Γ ctx role volumes c (injectRuntime Γ ctx volumes c role) := by
  refine ⟨fun hhost => ?_, fun hhost => ?_⟩
  · rw [injectRuntime, if_pos ⟨hname, hhost⟩]
    exact ⟨fun v hv => assertEnv_owned hnodup hv, assertEnv_other _ _⟩
  · rw [injectRuntime, if_neg fun hcond => hhost hcond.2]

section

variable {Γ : Platform} {config : YanetConfigSpec} {yanet : YanetSpec} {component : ResolvedComponent} {ctx : BuildContext}
  {registry : PatchRegistry} {b composed patched overridden networked listening d : Deployment}

/-- What the runtime endpoints change in a rendered Pod. -/
theorem Passes.injects (hconfig : validateYanetConfig Γ config = .ok ()) (hcomponent : Resolved Γ config yanet component)
    (hkind : component.kind ≠ .sidecar)
    (h : Passes Γ ctx component registry b composed patched overridden networked listening d) :
    d.pod.volumes = networked.pod.volumes ∧
    ∀ c ∈ d.pod.allContainers, ∃ c0 ∈ networked.pod.allContainers, c0.name = c.name ∧ c0.volumeMounts = c.volumeMounts ∧
      (∀ role ∈ podRoles component, c.name = listenerContainer Γ role → Injects Γ ctx role networked.pod.volumes c0 c) ∧
      ((∀ role ∈ podRoles component, c.name ≠ listenerContainer Γ role) → c.env = c0.env) := by
  obtain ⟨g, hg, hlistening⟩ := configureListeners_rewrites h.listen
  have hvolumes : listening.pod.volumes = networked.pod.volumes := by rw [hlistening]; rfl
  have hunique : (listening.pod.volumes.map (·.name)).Nodup := by
    rw [← (configureRuntimeNetwork_rewrites h.runtime).volumes]
    exact (validateComposedPod_ok h.valid).volumeNames
  have hd := configureRuntimeNetwork_inject hkind (sidecars_colocated hcomponent) hunique h.runtime
  refine ⟨by rw [hd, ← hvolumes]; rfl, fun c hc => ?_⟩
  rw [hd, hlistening, mapContainers_mapContainers, allContainers_mapContainers] at hc
  obtain ⟨c0, hc0, rfl⟩ := List.mem_map.1 hc
  obtain ⟨ports, hports⟩ := hg c0
  rw [← hlistening, hvolumes, Function.comp_apply, hports]
  obtain ⟨hname0, hmounts⟩ := foldl_inject_keeps (Γ := Γ) (podRoles component) { c0 with ports := ports }
  obtain ⟨hmine, hother⟩ := foldl_inject ctx networked.pod.volumes (podRoles_owners hcomponent) { c0 with ports := ports }
  refine ⟨c0, hc0, hname0.symm, hmounts.symm, fun role hrole hname => ?_, fun hnone => ?_⟩
  · rw [hname0] at hname
    rw [hmine role hrole hname]
    exact injectRuntime_injects hname (roleVariables_nodup (podRoles_kind (sidecars_colocated hcomponent) hrole)
      (protocols_ok hconfig hcomponent hrole).1)
  · rw [hname0] at hnone
    rw [hother hnone]

/-- The Service of a role of a rendered Pod targets the listener container of the role. -/
theorem podRole_routes (hcomponent : Resolved Γ config yanet component) (hkind : component.kind ≠ .sidecar)
    (h : renderDeployment Γ ctx component registry b = .ok d) (hpod : PodWellFormed d.pod) {role : ResolvedRole}
    (hrole : role ∈ podRoles component) {boxType : String} {plan : ServicePlan} (hplan : plan ∈ buildServices Γ boxType role) :
    ∀ port ∈ plan.ports, RoutesTo Γ role d port := by
  obtain ⟨hlisteners, numa, rfl, -⟩ := mem_buildServices hplan
  have hdeclares : DeclaresListeners Γ d role role.isColocated := by
    rcases podRoles_cases hcomponent hrole with ⟨rfl, -, hsidecars⟩ | ⟨-, hmem, henabled, slot, hpalette⟩
    · have hown : component.toResolvedRole.isColocated = false := by simp [ResolvedRole.isColocated, hkind]
      rw [hown]
      exact renderDeployment_declares hsidecars hlisteners h
    · rw [sidecars_colocated hcomponent role hmem]
      exact renderDeployment_declares_sidecar hpalette.role_keys hmem henabled hlisteners h
  exact fun port hport => hdeclares.routesTo (podRoles_core hcomponent hrole) hpod hport

end

/-- The endpoints a pass injects agree with its Services and its Pods. The listener container of a role gets the owned variables
exactly when the role has a configuration whose volume is still mounted and still a host path; for an operator or a sidecar they
name the Services of the rendered controlplanes in the order of their domains, the Service of the role exactly when it has a gRPC
port, and the port of the container that the Service targets. -/
theorem runtimeEndpoints_agree (Γ : Platform) (config : YanetConfigSpec) (yanet : YanetSpec) (component : ResolvedComponent)
    (start ctx : BuildContext) (registry : PatchRegistry) (ds : List Deployment)
    (hconfig : validateYanetConfig Γ config = .ok ()) (hcomponent : Resolved Γ config yanet component)
    (hbox : start.boxType = yanet.boxType) (hctx : withRuntimeNetwork Γ start config yanet = .ok ctx)
    (hds : renderDeployments Γ ctx component registry = .ok ds) :
    ∃ cp, resolveBoxComponent Γ config yanet .controlplane "" = .ok (some cp) ∧
      (enabledNuma cp.toResolvedRole).Pairwise (· < ·) ∧
      ((yanet.components.bind (·.controlplane)).bind (·.disabledNuma) = none → enabledNuma cp.toResolvedRole ≠ []) ∧
      (∀ ctx' registry' enabled cds, renderDeployments Γ ctx' { cp with enabled := enabled } registry' = .ok cds →
        cds.map (fun d => d.spec.template.labels[labelNuma]?) =
          (enabledNuma cp.toResolvedRole).map fun i => some (toString i)) ∧
      ∀ d ∈ ds, ∃ built b composed patched, buildDeployments Γ ctx component.toResolvedRole = .ok built ∧ b ∈ built ∧
        component.sidecars.foldlM (composeSidecar Γ ctx registry) b = .ok composed ∧
        patchDeployment Γ component registry composed = .ok patched ∧ d.pod.volumes = patched.pod.volumes ∧
        (∀ c ∈ d.pod.allContainers, ∃ c0 ∈ patched.pod.allContainers, c0.name = c.name ∧ c0.volumeMounts = c.volumeMounts ∧
          (∀ role ∈ podRoles component, c.name = listenerContainer Γ role → Injects Γ ctx role patched.pod.volumes c0 c) ∧
          ((∀ role ∈ podRoles component, c.name ≠ listenerContainer Γ role) → c.env = c0.env)) ∧
        ∀ role ∈ podRoles component, HasServer role →
          (∃ addresses, List.Forall₂ (PlannedGateway Γ config yanet.boxType ctx.ns) (enabledNuma cp.toResolvedRole) addresses ∧
            (roleVariables Γ ctx role).filter (fun v => Text.hasPrefix v.name "YANET_GATEWAYS_") =
              addresses.zipIdx.map fun p => gatewayVariable p.1 p.2) ∧
          (∀ v, v ∈ roleVariables Γ ctx role ∧ v.name = "YANET_SERVER_ADVERTISE_ENDPOINT" ↔
            ∃ plan ∈ rolePlans Γ config yanet.boxType { kind := role.kind, operatorName := role.name },
              ∃ port ∈ plan.ports, port.name = "grpc" ∧
                v = { name := "YANET_SERVER_ADVERTISE_ENDPOINT", value := plan.address ctx.ns port }) ∧
          ∀ plan ∈ rolePlans Γ config yanet.boxType { kind := role.kind, operatorName := role.name },
            ∃ port ∈ plan.ports, ((∃ q ∈ plan.ports, q.name = "grpc") → port.name = "grpc") ∧
              ∃ c ∈ d.pod.allContainers, c.name = listenerContainer Γ role ∧ ∃ p ∈ c.ports, p.name = port.targetPortName ∧
                (∀ c' ∈ d.pod.allContainers, ∀ p' ∈ c'.ports, p'.name = port.targetPortName → c' = c ∧ p' = p) ∧
                serverVariable p.containerPort ∈ roleVariables Γ ctx role := by
  obtain ⟨cp, hcp, hboxType, hendpoints⟩ := withRuntimeNetwork_ok hconfig hctx
  have hbox := hboxType.trans hbox
  refine ⟨cp, hcp, List.Pairwise.filter _ List.pairwise_lt_range, enabledNuma_ne_nil hconfig hcp,
    fun _ _ _ _ hrender => renderedControlplanes hcp hrender, fun d hd => ?_⟩
  obtain ⟨hkind, built, b, numa, hbuilt, hb, hinstance⟩ := renderDeployments_mem hcomponent.dataplane_name hds hd
  obtain ⟨composed, patched, overridden, networked, listening, hpasses⟩ := renderDeployment_passes hinstance.render
  obtain ⟨hvolumes, hcontainers⟩ := hpasses.injects hconfig hcomponent hkind
  refine ⟨built, b, composed, networked, hbuilt, hb, hpasses.compose, hpasses.patchAll, hvolumes, hcontainers,
    fun role hrole hserver => ?_⟩
  obtain ⟨grpcPort, httpPort, hpair⟩ := podRoles_ports hcomponent hkind hrole
  have hprotocols := protocols_ok hconfig hcomponent hrole
  rw [rolePlans_podRole hconfig hcomponent hkind hrole]
  refine ⟨⟨ctx.gatewayEndpoints, ?_, roleVariables_gateways hserver hprotocols.1 hpair⟩,
    fun v => advertise_iff hserver hbox hprotocols.1 hpair, fun plan hplan => server_binds hserver hprotocols hplan
      (podRole_routes hcomponent hkind hinstance.render (validateComposedPod_ok hpasses.valid) hrole hplan)⟩
  rw [hendpoints, List.forall₂_map_right_iff, List.forall₂_same]
  exact fun i hi => controlplaneEndpoint_planned hconfig hcp hbox hi

/-! ## A sidecar with a host configuration -/

/-- The sample box, its sidecar with a configuration of the host. -/
def hostConfig : YanetConfigSpec :=
  { sampleConfig with components := { sampleConfig.components with dataplane :=
      { image := { name := "dataplane" }
        sidecars := [{ name := "telemetry", image := { name := "telemetry" }, config := some { hostPath := "/etc/telemetry" } }] } } }

/-- The sidecar of that box. -/
def hostTelemetry : ResolvedRole where
  kind := .sidecar
  name := "telemetry"
  enabled := true
  image := { registry := "registry.example", name := "telemetry", tag := "1.0" }
  config := some { hostPath := "/etc/telemetry" }

/-- The dataplane of that box. -/
def hostDataplane : ResolvedComponent := { sampleDataplane with sidecars := [hostTelemetry] }

/-- The container of the sidecar is told to bind the first slot. -/
theorem hostTelemetry_binds :
    ∃ ctx ds, withRuntimeNetwork samplePlatform sampleContext hostConfig { boxType := "edge" } = .ok ctx ∧
      renderDeployments samplePlatform ctx hostDataplane (newPatchRegistry hostConfig.patches) = .ok ds ∧
      ∃ d ∈ ds, ∃ c ∈ d.pod.allContainers, c.name = "op-16091175-telemetry" ∧
        c.env.filter (·.name == "YANET_SERVER_ENDPOINT") = [serverVariable 8080] := by
  have hok : ((withRuntimeNetwork samplePlatform sampleContext hostConfig { boxType := "edge" }).toOption.any fun ctx =>
      decide (serverVariable 8080 ∈ roleVariables samplePlatform ctx hostTelemetry) &&
        (renderDeployments samplePlatform ctx hostDataplane (newPatchRegistry hostConfig.patches)).toOption.any fun ds =>
          ds.any fun d => d.pod.allContainers.any fun c =>
            decide (c.name = "op-16091175-telemetry" ∧ HasHostConfig samplePlatform hostTelemetry d.pod.volumes c)) = true := by
    decide +kernel
  obtain ⟨ctx, hctx, hok⟩ := exists_of_any hok
  rw [Bool.and_eq_true] at hok
  obtain ⟨hvar, hok⟩ := hok
  obtain ⟨ds, hds, hok⟩ := exists_of_any hok
  obtain ⟨d, hd, hok⟩ := List.any_eq_true.1 hok
  obtain ⟨c, hc, hok⟩ := List.any_eq_true.1 hok
  obtain ⟨hname, hzero, hmounts, hpath⟩ := of_decide_eq_true hok
  obtain ⟨cp, -, -, -, -, hall⟩ := runtimeEndpoints_agree samplePlatform hostConfig { boxType := "edge" } hostDataplane
    sampleContext ctx _ ds (by decide +kernel) ⟨.dataplane, "", hostDataplane, true, by decide +kernel, rfl⟩ rfl hctx hds
  obtain ⟨-, -, -, patched, -, -, -, -, hvolumes, hcontainers, -⟩ := hall d hd
  obtain ⟨c0, -, -, hkept, hinjects, -⟩ := hcontainers c hc
  have hinjected := (hinjects hostTelemetry (by decide +kernel) (hname.trans (by decide +kernel))).1
    ⟨hzero, by rw [hkept]; exact hmounts, by rw [← hvolumes]; exact hpath⟩
  exact ⟨ctx, ds, hctx, hds, d, hd, c, hc, hname, hinjected.1 _ (of_decide_eq_true hvar)⟩

end YanetOperator
