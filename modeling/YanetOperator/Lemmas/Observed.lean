import YanetOperator.Lemmas.Tenancy
import YanetOperator.Lemmas.Exclusive

/-!
# What a pass knows of its fleet

What the listings of a pass say about the cluster at a later moment of the pass, whatever others did in between: only passes create
Deployments of installations, and this one only its own, so whatever another installation has now was listed. From that, every call of
a pass is in order (`PassCall.inOrder`).
-/

namespace YanetOperator

open Prog Relation

/-! ## What a pass has seen -/

/-- A fact about the latest listing since which nothing was written. -/
theorem SawFresh.of_cons {c : Op} {r : c.Answer} {e : Event Api} {tr : PassTrace} (h : SawFresh (e :: tr) c r) :
    e = ⟨c, r⟩ ∨ (Op.isRead e.1 = true ∧ SawFresh tr c r) := by
  obtain ⟨later, earlier, heq, hreads⟩ := h
  cases later with
  | nil => exact Or.inl (List.cons.inj heq).1
  | cons e' later =>
    obtain ⟨rfl, rfl⟩ := List.cons.inj heq
    exact Or.inr ⟨hreads _ List.mem_cons_self, later, earlier, rfl, fun e he => hreads e (List.mem_cons_of_mem _ he)⟩

/-- What the listings of a pass say about the cluster now. -/
structure Observed (y : Yanet) (w : World) (tr : PassTrace) : Prop where
  tenanted : Tenanted w
  remembers : Remembers w tr
  known : y ∈ w.past .yanet
  stands : Anchored y tr → Stands y.tenant w
  deployments : ∀ ds, Saw tr (.list .deployment none ∅) (.ok ds) → ∀ d ∈ w.store .deployment, ∀ t, t ≠ y.tenant →
    tenant d.metadata = some t → ∃ d' ∈ ds, tenant d'.metadata = some t ∧ nodeLabel d'.metadata = nodeLabel d.metadata
  installations : Anchored y tr → ∀ ys, Saw tr (.list .yanet none ∅) (.ok ys) → ∀ d ∈ w.store .deployment, ∀ t, t ≠ y.tenant →
    tenant d.metadata = some t → ∃ o ∈ ys, o.tenant = t ∧ keyOf .yanet o ≠ keyOf .yanet y
  apart : ∀ ds, Saw tr (.list .deployment none ∅) (.ok ds) → ∀ d ∈ ds, ∀ d' ∈ ds, ∀ t t', tenant d.metadata = some t →
    tenant d'.metadata = some t' → nodeLabel d.metadata = nodeLabel d'.metadata → t = t'
  mine : ∀ ds, SawFresh tr (listsDeployments y) (.ok ds) → ∀ d ∈ w.store .deployment, tenant d.metadata = some y.tenant →
    ∃ d' ∈ ds, tenant d'.metadata = some y.tenant
  dryRun : ∀ d d', Saw tr (.dryRun d) (.ok d') → SameBearings d.metadata d'.metadata

section

variable {y : Yanet} {w w' : World} {tr : PassTrace} {c : Op} {r : c.Answer}

/-- Before its first call. -/
theorem Observed.start (hw : Tenanted w) (hy : y ∈ w.store .yanet) : Observed y w [] where
  tenanted := hw
  remembers := ⟨fun _ _ _ hs => absurd hs List.not_mem_nil, fun _ _ _ _ hs => absurd hs List.not_mem_nil,
    fun _ _ hs => absurd hs List.not_mem_nil⟩
  known := w.stored .yanet y hy
  stands h := ⟨y, hy, rfl, h.1⟩
  deployments _ hs := absurd hs List.not_mem_nil
  installations _ _ hs := absurd hs List.not_mem_nil
  apart _ hs := absurd hs List.not_mem_nil
  mine ds hs := by
    obtain ⟨later, earlier, heq, -⟩ := hs
    simp at heq
  dryRun _ _ hs := absurd hs List.not_mem_nil

/-- What others do leaves it so. -/
theorem Observed.others (h : Observed y w tr) (hw : World.Tolerated w w') : Observed y w' tr := by
  obtain ⟨htenanted, hnew⟩ := hw.keeps h.tenanted
  refine ⟨htenanted, h.remembers.knows hw.knows, hw.knows _ _ h.known, fun ha => hw.stands h.tenanted (h.stands ha), ?_, ?_, h.apart, ?_,
    h.dryRun⟩
  · intro ds hs d hd t hne ht
    obtain ⟨d₀, hd₀, ht₀, hnode₀⟩ := hnew d hd t trivial ht
    obtain ⟨d', hd', ht', hnode'⟩ := h.deployments ds hs d₀ hd₀ t hne ht₀
    exact ⟨d', hd', ht', hnode'.trans hnode₀⟩
  · intro ha ys hs d hd t hne ht
    obtain ⟨d₀, hd₀, ht₀, -⟩ := hnew d hd t trivial ht
    exact h.installations ha ys hs d₀ hd₀ t hne ht₀
  · intro ds hs d hd ht
    obtain ⟨d₀, hd₀, ht₀, -⟩ := hnew d hd _ trivial ht
    exact h.mine ds hs d₀ hd₀ ht₀

theorem Observed.others_run (h : Observed y w tr) (hw : ReflTransGen World.Tolerated w w') : Observed y w' tr := by
  induction hw with
  | refl => exact h
  | tail _ hstep ih => exact ih.others hstep

theorem mem_select_all {k : Kind} {o : Obj k} (s : Store) (ho : o ∈ s k) : o ∈ s.select k none ∅ := by
  refine Store.mem_select.2 ⟨ho, fun n hn => ?_, rfl⟩
  cases hn

/-- The Deployments of an installation are in the listing of its namespace. -/
theorem mem_select_mine {d : Deployment} (s : Store) (hd : d ∈ s .deployment) (ht : tenant d.metadata = some y.tenant) :
    d ∈ s.select .deployment (some y.metadata.ns) ∅ := by
  refine Store.mem_select.2 ⟨hd, fun n hn => ?_, rfl⟩
  cases hn
  unfold tenant at ht
  obtain ⟨ref, -, href⟩ := Option.bind_eq_some_iff.1 ht
  split at href
  · exact (congrArg Tenant.ns (Option.some.inj href)).symm
  · cases href

/-- A call that is in order. -/
theorem Observed.call (h : Observed y w tr) (hc : InOrder y w c) (hs : World.Serves w c r w') : Observed y w' (⟨c, r⟩ :: tr) := by
  obtain ⟨htenanted, hnew⟩ := hc.keeps h.tenanted hs
  have hknows := hs.answers.knows
  refine ⟨htenanted, h.remembers.answers hs.answers, hknows _ _ h.known, fun ha => ?_, ?_, ?_, ?_, ?_, ?_⟩
  · exact hc.stands h.tenanted (ha.2 ⟨c, r⟩ List.mem_cons_self) (h.stands ha.of_cons) hs
  · intro ds hsaw d hd t hne ht
    rcases List.mem_cons.1 hsaw with heq | hsaw
    · cases heq
      cases hs
      exact ⟨d, mem_select_all w.store hd, ht, rfl⟩
    · obtain ⟨d₀, hd₀, ht₀, hnode₀⟩ := hnew d hd t hne ht
      obtain ⟨d', hd', ht', hnode'⟩ := h.deployments ds hsaw d₀ hd₀ t hne ht₀
      exact ⟨d', hd', ht', hnode'.trans hnode₀⟩
  · intro ha ys hsaw d hd t hne ht
    rcases List.mem_cons.1 hsaw with heq | hsaw
    · cases heq
      cases hs
      obtain ⟨o, ho, rfl, -⟩ := h.tenanted.standing d hd t ht
      refine ⟨o, mem_select_all w.store ho, rfl, fun hkey => hne ?_⟩
      -- the installation itself is still the one that the pass has read
      obtain ⟨o', ho', htenant, -⟩ := h.stands ha.of_cons
      rw [h.tenanted.unique o ho o' ho' (hkey.trans (Yanet.tenant_eq_iff.1 htenant).1.symm), htenant]
    · obtain ⟨d₀, hd₀, ht₀, -⟩ := hnew d hd t hne ht
      exact h.installations ha.of_cons ys hsaw d₀ hd₀ t hne ht₀
  · intro ds hsaw d hd d' hd' t t' ht ht' hnode
    rcases List.mem_cons.1 hsaw with heq | hsaw
    · cases heq
      cases hs
      exact h.tenanted.exclusive d (Store.mem_select.1 hd).1 d' (Store.mem_select.1 hd').1 t t' ht ht' hnode
    · exact h.apart ds hsaw d hd d' hd' t t' ht ht' hnode
  · intro ds hsaw d hd ht
    rcases hsaw.of_cons with heq | ⟨hread, hsaw⟩
    · cases heq
      cases hs
      exact ⟨d, mem_select_mine w.store hd ht, ht⟩
    · obtain rfl := hs.same_of_isRead hread
      exact h.mine ds hsaw d hd ht
  · intro d d' hsaw
    rcases List.mem_cons.1 hsaw with heq | hsaw
    · cases heq
      cases hs with
      | dryRun same _ => exact same
    · exact h.dryRun d d' hsaw

end

/-! ## What a pass sends -/

section

variable {Γ : Platform} {y : Yanet} {w : World} {tr : PassTrace} {plan : PassPlan} {nodes : List Node} {node : Node} {c : Op}

/-- On a node of an approved pass nobody else has a Deployment. -/
theorem Observed.node_free (h : Observed y w tr) (ha : Approved Γ y plan nodes tr) (hnode : node ∈ nodes) {d : Deployment} {t : Tenant}
    (hd : d ∈ w.store .deployment) (ht : tenant d.metadata = some t) (hlabel : nodeLabel d.metadata = node.metadata.name) :
    t = y.tenant := by
  by_contra hne
  rcases ha.exclusive with rfl | ⟨ys, ds, hys, hds, hverdict⟩
  · cases hnode
  -- the other installation and its Deployment were listed
  obtain ⟨o, ho, rfl, hkey⟩ := h.installations ha.anchored ys hys d hd t hne ht
  obtain ⟨d', hd', ht', hlabel'⟩ := h.deployments ds hds d hd _ hne ht
  have howner : o.metadata.uid ≠ 0 := (w.persisted .yanet o (h.remembers.list _ _ _ _ hys o ho)).1
  have huid : y.metadata.uid ≠ 0 := (w.persisted .yanet y h.known).1
  have hother : hasWorkload ds o node.metadata.name = true := by
    have hcontrolled := (controlledByYanet_iff_tenant howner).2 ht'
    refine List.any_eq_true.2 ⟨d', hd', ?_⟩
    simp [((controlledByYanet_iff howner).1 hcontrolled).1, hlabel', hlabel, hcontrolled]
  -- so the check let the pass through only because the installation has one there as well
  have hnone : nodeConflicts ds ys y nodes = [] := by
    by_contra hsome
    simp [exclusiveVerdict, hsome] at hverdict
  have hconflict : nodeConflict ds y o node = false := by
    by_contra hc
    have hmem := mem_nodeConflicts.2 ⟨ho, hkey, hnode, by simpa using hc⟩
    rw [hnone] at hmem
    cases hmem
  have hmine : hasWorkload ds y node.metadata.name = true := by
    by_contra hm
    have hloses := currentWins_without (y := y) (by simpa using hm) hother
    rw [nodeConflict_of_workload hother hloses] at hconflict
    cases hconflict
  obtain ⟨d'', hd'', hown⟩ := List.any_eq_true.1 hmine
  simp only [Bool.and_eq_true, beq_iff_eq] at hown
  have hown' := (controlledByYanet_iff_tenant huid).1 hown.2
  exact hne (h.apart ds hds d' hd' d'' hd'' _ _ ht' hown' (hlabel'.trans (hlabel.trans hown.1.2.symm)))

/-- The tenant of a Deployment with the references of a planned one. -/
theorem Planned.tenant_eq {ctx : BuildContext} {rc : ResolvedComponent} {desired : Deployment} {m : ObjectMeta}
    (hp : Planned Γ y plan nodes node ctx rc desired) (hy : Persisted .yanet y) (hplan : plan.owner = yanetOwner y)
    (hns : m.ns = y.metadata.ns) (href : m.ownerReferences = desired.metadata.ownerReferences) : tenant m = some y.tenant := by
  have howner : getControllerOf m = some (controllerRef y) :=
    getControllerOf_singleton (href.trans (hp.identity.ownerReferences.trans (by rw [hplan, yanetOwner_eq hy]))) rfl
  exact tenant_of_controls hns ⟨_, howner, rfl, rfl, rfl, rfl⟩

/-- The node of a merged Deployment: the node it is planned for, or the one it was on. -/
theorem nodeLabel_mergeManagedMeta (fresh desired : ObjectMeta) :
    nodeLabel (mergeManagedMeta fresh desired) = nodeLabel desired ∨ nodeLabel (mergeManagedMeta fresh desired) = nodeLabel fresh := by
  unfold nodeLabel
  rw [getElem?_mergeManagedMeta_labels]
  cases desired.labels[labelNode]? with
  | some v => exact Or.inl rfl
  | none =>
    split
    · exact Or.inl rfl
    · exact Or.inr rfl

/-- A pass writes its installation, ConfigMaps and Deployments. -/
theorem PassCall.writesTo (hc : PassCall Γ y tr c) {k : Kind} (hk : Op.writesTo c = some k) :
    k = .yanet ∨ k = .configMap ∨ k = .deployment := by
  have hread (h : Op.isRead c = true) : False := by
    cases c with
    | create _ _ | update _ _ | updateStatus _ | delete _ _ _ | event _ _ => cases h
    | _ => cases hk
  have hevent (h : EventCall tr c) : False := by
    cases h with
    | read h => exact hread h
    | event _ _ _ => cases hk
  cases hc with
  | event h => exact (hevent h).elim
  | status h =>
    cases h with
    | read h => exact (hread h).elim
    | write _ _ _ _ => exact Or.inl (Option.some.inj hk).symm
  | addFinalizer _ _ => exact Or.inl (Option.some.inj hk).symm
  | removeFinalizer _ _ _ _ => exact Or.inl (Option.some.inj hk).symm
  | release h =>
    cases h with
    | read h => exact (hread h).elim
    | _ => exact Or.inr (Or.inr (Option.some.inj hk).symm)
  | prune h _ =>
    cases h with
    | read h => exact (hread h).elim
    | deployment _ _ _ _ _ _ => exact Or.inr (Or.inr (Option.some.inj hk).symm)
    | configMap _ _ _ _ _ _ _ _ _ _ _ _ => exact Or.inr (Or.inl (Option.some.inj hk).symm)
  | apply plan nodes h _ =>
    cases h with
    | event h => exact (hevent h).elim
    | inline h =>
      cases h with
      | read h => exact (hread h).elim
      | _ => exact Or.inr (Or.inl (Option.some.inj hk).symm)
    | deployment node ctx rc desired h _ _ =>
      cases h with
      | read h => exact (hread h).elim
      | _ => exact Or.inr (Or.inr (Option.some.inj hk).symm)

theorem PassCall.inOrder (h : Observed y w tr) (hc : PassCall Γ y tr c) : InOrder y w c := by
  have hy := w.persisted .yanet y h.known
  have huid : y.metadata.uid ≠ 0 := hy.1
  have hevent (h : EventCall tr c) : InOrder y w c := by
    cases h with
    | read h => exact .read h
    | event reason note _ => exact .event reason note
  cases hc with
  | event h => exact hevent h
  | status h =>
    cases h with
    | read h => exact .read h
    | write fresh status _ _ => exact .status _
  | addFinalizer _ _ => exact .addFinalizer h.known
  | removeFinalizer ds _ saw gone =>
    refine .removeFinalizer h.known fun d hd ht => ?_
    obtain ⟨d', hd', ht'⟩ := h.mine ds saw d hd ht
    have := gone d' hd'
    rw [(controlledByYanet_iff_tenant huid).2 ht'] at this
    cases this
  | release h' =>
    cases h' with
    | read h => exact .read h
    | drain ds d _ saw mem owned =>
      exact .update (drained d) d (h.remembers.list _ _ _ _ saw d mem) rfl rfl ((controlledByYanet_iff_tenant huid).1 owned)
        (Or.inl (.refl _))
    | delete ds d _ _ _ _ => exact .delete d true
  | prune h =>
    cases h with
    | read h => exact .read h
    | deployment ds d _ _ _ _ => exact .delete d true
    | configMap ds cms pods cm _ _ _ _ _ _ _ _ => exact .configMap ⟨cm, Or.inr (Or.inr rfl)⟩
  | apply plan nodes h' approved =>
    cases h' with
    | event h => exact hevent h
    | inline h =>
      cases h with
      | read h => exact .read h
      | create cm _ => exact .configMap ⟨cm, Or.inl rfl⟩
      | update key existing cm _ _ _ _ => exact .configMap ⟨cm, Or.inr (Or.inl rfl)⟩
    | deployment node ctx rc desired h' planned _ =>
      obtain ⟨cfg, enabled, rfl, -, -⟩ := approved.configured
      have hid := planned.identity
      have hfree (m : ObjectMeta) (hm : nodeLabel m = nodeLabel desired.metadata) (d' : Deployment) (hd' : d' ∈ w.store .deployment)
          (t : Tenant) (ht : tenant d'.metadata = some t) (hlabel : nodeLabel d'.metadata = nodeLabel m) : t = y.tenant :=
        h.node_free approved planned.selected hd' ht (hlabel.trans (hm.trans hid.onNode))
      cases h' with
      | read h => exact .read h
      | create _ _ =>
        have hnode := nodeLabel_mergeManagedMeta desired.metadata desired.metadata
        exact .create (managedDeployment desired) (planned.tenant_eq hy rfl hid.ns rfl) (h.stands approved.anchored)
          (hfree _ (or_self_iff.1 hnode))
      | update fresh d _ _ saw owned normalized =>
        obtain ⟨hmem, hkey⟩ := h.remembers.get _ _ _ saw
        obtain ⟨hdryKey, hdryVersion⟩ := h.remembers.dryRun _ _ normalized
        have hsame := h.dryRun _ _ normalized
        have hns : fresh.metadata.ns = y.metadata.ns := (congrArg Key.ns hkey).trans hid.ns
        have howner : getControllerOf desired.metadata = some (controllerRef y) :=
          getControllerOf_singleton (hid.ownerReferences.trans (by rw [passPlan, yanetOwner_eq hy])) rfl
        refine .update d fresh hmem hdryKey.symm hdryVersion.symm
          (tenant_of_controls hns (controls_of_validateOwnership huid howner owned)) (Or.inr ⟨?_, ?_⟩)
        · exact hsame.tenant_eq.trans (planned.tenant_eq hy rfl hns rfl)
        · rcases nodeLabel_mergeManagedMeta { fresh.metadata with ownerReferences := desired.metadata.ownerReferences }
            desired.metadata with hnode | hnode
          · exact Or.inr (hfree _ (hsame.nodeLabel_eq.trans hnode))
          · exact Or.inl (hsame.nodeLabel_eq.trans hnode)

end

/-! ## Whole passes -/

section

variable {Γ : Platform} {w w' : World}

theorem Observed.served {y : Yanet} {tr : PassTrace} {c : Op} {r : c.Answer} (h : Observed y w tr) (hc : PassCall Γ y tr c)
    (hs : World.served w c r w') : Observed y w' (⟨c, r⟩ :: tr) := by
  obtain ⟨v, hothers, hanswer⟩ := hs
  have hv : Observed y v tr := h.others_run hothers
  exact hv.call (hc.inOrder hv) hanswer

/-- A pass of an installation that was stored when it began, up to any point. -/
theorem reconcileYanet_tenanted {y : Yanet} {rest : Pass Outcome} (hw : Tenanted w) (hy : y ∈ w.store .yanet)
    (h : Reaches World.served (reconcileYanet Γ y) w rest w') : Tenanted w' := by
  have hsafe : Safe tracing (PassCall Γ y) (fun _ _ => True) (reconcileYanet Γ y) [] :=
    safe_reconcileYanet fun e he => absurd he List.not_mem_nil
  obtain ⟨tr, hobserved, -⟩ := Safe.follow (Observed y) (fun _ _ _ _ _ ho hc hs => ho.served hc hs) h hsafe (.start hw hy)
  exact hobserved.tenanted

/-- The read of the installation. -/
theorem tenanted_of_get {key : Key} {r : Except ApiError Yanet} (hw : Tenanted w) (hs : World.served w (.get .yanet key) r w') :
    Tenanted w' ∧ ∀ y, r = .ok y → y ∈ w'.store .yanet := by
  obtain ⟨v, hothers, hanswer⟩ := hs
  have hv := (tolerated_keeps hw hothers).1
  cases hanswer with
  | get found =>
    refine ⟨hv, fun y hy => ?_⟩
    cases hy
    exact (Store.find_some found).1
  | getFails e =>
    refine ⟨hv, fun y hy => ?_⟩
    cases hy

/-- An execution of a reconcile: nothing was called, the installation was read, or its pass runs. -/
theorem reaches_reconcile {step : Step Api World} {key : Key} {rest : Pass Outcome}
    (h : Reaches step (YanetReconciler.reconcile Γ key) w rest w') : w' = w ∨ (∃ r, step w (.get .yanet key) r w') ∨
      ∃ y u, step w (.get .yanet key) (.ok y) u ∧ Reaches step (reconcileYanet Γ y) u rest w' := by
  unfold YanetReconciler.reconcile at h
  rcases h.bind_cases with ⟨p', hp', -⟩ | ⟨r, u, hr, hrest⟩
  · cases hp' with
    | refl => exact Or.inl rfl
    | call hs hr =>
      cases hr
      exact Or.inr (Or.inl ⟨_, hs⟩)
  · have hget := returns_perform.1 hr
    cases r with
    | error e =>
      dsimp only at hrest
      split at hrest <;> cases hrest <;> exact Or.inr (Or.inl ⟨_, hget⟩)
    | ok y => exact Or.inr (Or.inr ⟨y, u, hget, hrest⟩)

theorem FleetStep.tenanted (hw : Tenanted w) (h : FleetStep Γ w w') : Tenanted w' := by
  cases h with
  | others h => exact (h.keeps hw).1
  | pass key rest h =>
    rcases reaches_reconcile h with rfl | ⟨r, hget⟩ | ⟨y, u, hget, hpass⟩
    · exact hw
    · exact (tenanted_of_get hw hget).1
    · obtain ⟨hu, hy⟩ := tenanted_of_get hw hget
      exact reconcileYanet_tenanted hu (hy y rfl) hpass

end

end YanetOperator
