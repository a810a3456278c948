import YanetOperator.Lemmas.Supply

/-!
# Moving a role

A role moves between Pods of its own and the dataplane by a change of the configuration. In every run, with the controllers of the
workloads and others acting between any two calls of a pass, on no node does an installation have one template that can run the role in
Pods of its own and another that can run it inside the dataplane (`placement_separate`): a pass that would start one of them has found
that nothing could run the other, and since then only it could have added something.

The gate lists Deployments, then ReplicaSets, then Pods. What can run when the last list is answered was listed: a ReplicaSet that is
scaled up meanwhile follows a Deployment of the first list, and a Pod one of the first two.
-/

namespace YanetOperator

open Prog Relation

/-- On no node does an installation run a role both ways, and what can run is bound to the node of its label. -/
structure Separate (Γ : Platform) (w : World) : Prop where
  bound : ∀ ns source t, Supplies w ns source t → t.labels[labelYanet]? ≠ none → BoundToLabel t
  apart : ∀ ns source source' t t', Supplies w ns source t → Supplies w ns source' t' → SamePlace t t' →
    ∀ role, role ∉ builtIn → Standalone role t → ¬ Colocated Γ role t'

section

variable {Γ : Platform} {w w' : World}

theorem SamePlace.labelled {t t' : PodTemplateSpec} (h : SamePlace t t') :
    t.labels[labelYanet]? ≠ none ∧ t'.labels[labelYanet]? ≠ none := by
  obtain ⟨name, hn, hn'⟩ := h.yanet
  exact ⟨by simp [hn], by simp [hn']⟩

/-- What others do leaves the roles apart. -/
theorem Separate.others (h : Separate Γ w) (hw : World.Supplied Γ w w') : Separate Γ w' := by
  refine ⟨fun ns source t ht hlabel => (hw ns source t ht hlabel).1, fun ns source source' t t' ht ht' hplace role hrole hs hc => ?_⟩
  obtain ⟨-, s, u, -, hu, hroles⟩ := hw ns source t ht hplace.labelled.1
  obtain ⟨-, s', u', -, hu', hroles'⟩ := hw ns source' t' ht' hplace.labelled.2
  exact h.apart ns s s' u u' hu hu' (hroles.samePlace hroles' hplace) role hrole (hroles.standalone.1 hs) (hroles'.colocated.1 hc)

end

/-! ## What a pass has listed -/

/-- A call that starts the template, up to what does not say which roles it runs. -/
def Launches (Γ : Platform) (c : Op) (t : PodTemplateSpec) : Prop :=
  ∃ d, (c = .create .deployment d ∨ c = .update .deployment d) ∧ deploymentReplicasAreZero d = false ∧ SameRoles Γ d.spec.template t

/-- The template is among the producers that were listed. -/
def Listed (Γ : Platform) (producers : List PlacementProducer) (t : PodTemplateSpec) : Prop :=
  ∃ p ∈ producers, SameRoles Γ p.template t ∧ BoundToLabel p.template

/-- What can run for the installation, from the workloads up to a rank, was listed. -/
def Covers (Γ : Platform) (y : Yanet) (w : World) (rank : Nat) (producers : List PlacementProducer) : Prop :=
  ∀ source t, source.rank ≤ rank → Supplies w y.metadata.ns source t → t.labels[labelYanet]? = some y.metadata.name →
    Listed Γ producers t

/-- What the listings and the writes of a pass say about what can run now. -/
structure Surveyed (Γ : Platform) (y : Yanet) (w : World) (tr : PassTrace) : Prop where
  separate : Separate Γ w
  admissible : ∀ config, SawConfig tr config → Admissible Γ config
  dryRun : ∀ d d', Saw tr (.dryRun d) (.ok d') → SameWorkload Γ d d'
  found : ∀ key d, Saw tr (.get .deployment key) (.ok d) → keyOf .deployment d = key
  deployments : ∀ ds earlier, tr = ⟨.list .deployment (some y.metadata.ns) ∅, .ok ds⟩ :: earlier →
    Covers Γ y w 0 (producersOf ds [] [])
  replicaSets : ∀ ds rs earlier, tr = ⟨.list .replicaSet (some y.metadata.ns) ∅, .ok rs⟩ ::
    ⟨.list .deployment (some y.metadata.ns) ∅, .ok ds⟩ :: earlier → Covers Γ y w 1 (producersOf ds rs [])
  inventory : ∀ ds rs ps, SawInventory tr y.metadata.ns ds rs ps → ∀ source t, Supplies w y.metadata.ns source t →
    t.labels[labelYanet]? = some y.metadata.name → Listed Γ (producersOf ds rs ps) t ∨ ∃ e ∈ tr, Launches Γ e.1 t

section

variable {Γ : Platform} {y : Yanet} {w w' : World} {tr : PassTrace} {c : Op} {r : c.Answer}

theorem Launches.trans {t t' : PodTemplateSpec} (h : Launches Γ c t) (ht : SameRoles Γ t t') : Launches Γ c t' := by
  obtain ⟨d, hc, hscaled, hroles⟩ := h
  exact ⟨d, hc, hscaled, hroles.trans ht⟩

theorem Listed.trans {producers : List PlacementProducer} {t t' : PodTemplateSpec} (h : Listed Γ producers t)
    (ht : SameRoles Γ t t') : Listed Γ producers t' := by
  obtain ⟨p, hp, hroles, hbound⟩ := h
  exact ⟨p, hp, hroles.trans ht, hbound⟩

theorem Listed.mono {producers producers' : List PlacementProducer} {t : PodTemplateSpec} (h : Listed Γ producers t)
    (hsub : producers ⊆ producers') : Listed Γ producers' t := by
  obtain ⟨p, hp, h⟩ := h
  exact ⟨p, hsub hp, h⟩

theorem Covers.others {rank : Nat} {producers : List PlacementProducer} (h : Covers Γ y w rank producers)
    (hw : World.Supplied Γ w w') : Covers Γ y w' rank producers := by
  intro source t hrank ht hlabel
  obtain ⟨-, source', t', hle, ht', hroles⟩ := hw _ source t ht (by simp [hlabel])
  exact (h source' t' (hle.trans hrank) ht' (hroles.yanet ▸ hlabel)).trans hroles

/-- Before its first call. -/
theorem Surveyed.start (h : Separate Γ w) : Surveyed Γ y w [] where
  separate := h
  admissible _ hs := by
    rcases hs with hs | ⟨_, hs, _⟩
    · cases hs
    · cases hs
  dryRun _ _ hs := absurd hs List.not_mem_nil
  found _ _ hs := absurd hs List.not_mem_nil
  deployments _ _ htr := by cases htr
  replicaSets _ _ _ htr := by cases htr
  inventory _ _ _ hs := by
    obtain ⟨later, earlier, htr⟩ := hs
    simp at htr

/-- What others do leaves it so. -/
theorem Surveyed.others (h : Surveyed Γ y w tr) (hw : World.Supplied Γ w w') : Surveyed Γ y w' tr where
  separate := h.separate.others hw
  admissible := h.admissible
  dryRun := h.dryRun
  found := h.found
  deployments ds earlier htr := (h.deployments ds earlier htr).others hw
  replicaSets ds rs earlier htr := (h.replicaSets ds rs earlier htr).others hw
  inventory ds rs ps hs source t ht hlabel := by
    obtain ⟨-, source', t', -, ht', hroles⟩ := hw _ source t ht (by simp [hlabel])
    rcases h.inventory ds rs ps hs source' t' ht' (hroles.yanet ▸ hlabel) with hlisted | ⟨e, he, hlaunch⟩
    · exact Or.inl (hlisted.trans hroles)
    · exact Or.inr ⟨e, he, hlaunch.trans hroles⟩

theorem Surveyed.others_run (h : Surveyed Γ y w tr) (hw : ReflTransGen (World.Supplied Γ) w w') : Surveyed Γ y w' tr := by
  induction hw with
  | refl => exact h
  | tail _ hstep ih => exact ih.others hstep

/-! ## A call -/

theorem eq_of_writesDeployment (h : Op.writesDeployment c = true) :
    ∃ d : Deployment, c = .create .deployment d ∨ c = .update .deployment d := by
  cases c with
  | create k o =>
    cases k with
    | deployment => exact ⟨o, Or.inl rfl⟩
    | _ => cases h
  | update k o =>
    cases k with
    | deployment => exact ⟨o, Or.inr rfl⟩
    | _ => cases h
  | _ => cases h

theorem not_isRead_of_sent {d : Deployment} (hd : c = .create .deployment d ∨ c = .update .deployment d) : Op.isRead c ≠ true := by
  rcases hd with rfl | rfl <;> exact Bool.false_ne_true

/-- What can run after a call of a pass could run before, or is the Deployment that was sent. -/
theorem World.Keeps.supplies (h : World.Keeps Γ w c r w') (hc : PassCall Γ y tr c) {ns : String} {source : Source}
    {t : PodTemplateSpec} (ht : Supplies w' ns source t) :
    Supplies w ns source t ∨ ∃ d d', (c = .create .deployment d ∨ c = .update .deployment d) ∧ SameWorkload Γ d d' ∧
      deploymentReplicasAreZero d' = false ∧ d'.metadata.ns = ns ∧ t = d'.spec.template := by
  have hother (k : Kind) (hk : k ≠ .yanet ∧ k ≠ .configMap ∧ k ≠ .deployment) : w'.store k = w.store k := by
    refine h.serves.store_eq fun hw => ?_
    rcases hc.writesTo hw with hk' | hk' | hk'
    · exact hk.1 hk'
    · exact hk.2.1 hk'
    · exact hk.2.2 hk'
  cases ht with
  | replicaSet s mem inNs scaled => exact Or.inl (.replicaSet s (hother .replicaSet (by decide) ▸ mem) inNs scaled)
  | pod p mem inNs live => exact Or.inl (.pod p (hother .pod (by decide) ▸ mem) inNs live)
  | deployment d mem inNs scaled =>
    by_cases hold : d ∈ w.store .deployment
    · exact Or.inl (.deployment d hold inNs scaled)
    · by_cases hwrites : Op.writesDeployment c = true
      · obtain ⟨sent, hsent⟩ := eq_of_writesDeployment hwrites
        exact Or.inr ⟨sent, d, hsent, h.written sent hsent d mem hold, scaled, inNs, rfl⟩
      · obtain ⟨stored, hmem, hsame, hspec⟩ := h.serves.keepsSpecs (by simpa using hwrites) mem hold
        rw [hspec]
        refine Or.inl (.deployment stored hmem (hsame.ns.symm.trans inNs) ?_)
        rw [deploymentReplicasAreZero, ← hspec]
        exact scaled

/-- A Deployment as it was sent for a planned one. -/
structure SentFor (Γ : Platform) (y : Yanet) (plan : PassPlan) (nodes : List Node) (d : Deployment) : Prop where
  draws : deploymentReplicasAreZero d = false → ∃ node rc, Draws Γ y plan nodes node rc d.spec.template
  nodeName : d.pod.nodeName = ""

theorem sentFor_of_sameWorkload {plan : PassPlan} {nodes : List Node} {node : Node} {ctx : BuildContext} {rc : ResolvedComponent}
    {desired candidate d : Deployment} (hplanned : Planned Γ y plan nodes node ctx rc desired) (hspec : candidate.spec = desired.spec)
    (hsame : SameWorkload Γ candidate d) : SentFor Γ y plan nodes d := by
  refine ⟨fun hscaled => ⟨node, rc, ctx, desired, hplanned, ?_, ?_⟩, ?_⟩
  · rw [← hscaled, hsame.scale, deploymentReplicasAreZero, deploymentReplicasAreZero, hspec]
  · rw [← hspec]
    exact hsame.roles
  · rw [hsame.nodeName, Deployment.pod, hspec]
    exact hplanned.identity.podNodeName

theorem SameWorkload.refl (d : Deployment) : SameWorkload Γ d d := ⟨rfl, .refl _, rfl, rfl⟩

/-- The Deployment of a write of the apply loop. -/
theorem Surveyed.sentFor_of_written (h : Surveyed Γ y w tr) {plan : PassPlan} {nodes : List Node}
    (hc : PlannedWrite Γ y plan nodes tr c) {d : Deployment} (hd : c = .create .deployment d ∨ c = .update .deployment d) :
    SentFor Γ y plan nodes d := by
  cases hc with
  | create node ctx rc desired planned =>
    rcases hd with hd | hd
    · cases hd
      exact sentFor_of_sameWorkload planned (by rfl) (.refl (managedDeployment desired))
    · cases hd
  | update node ctx rc desired fresh d' planned normalized =>
    rcases hd with hd | hd
    · cases hd
    · cases hd
      exact sentFor_of_sameWorkload planned (by rfl) (h.dryRun _ _ normalized)
  | _ => rcases hd with hd | hd <;> cases hd

/-- A pass sends a Deployment that is not scaled to zero only from its apply loop, in the namespace of its installation. -/
theorem Surveyed.sent (h : Surveyed Γ y w tr) (hc : PassCall Γ y tr c) {d : Deployment}
    (hd : c = .create .deployment d ∨ c = .update .deployment d) (hscaled : deploymentReplicasAreZero d = false) :
    ∃ plan nodes, Approved Γ y plan nodes tr ∧ SentFor Γ y plan nodes d ∧ d.metadata.ns = y.metadata.ns := by
  have hnotRead := not_isRead_of_sent hd
  have hnone (h : EventCall tr c) : False := by
    cases h with
    | read h => exact hnotRead h
    | event _ _ _ => rcases hd with hd | hd <;> cases hd
  cases hc with
  | event h => exact (hnone h).elim
  | status h =>
    cases h with
    | read h => exact absurd h hnotRead
    | write _ _ _ _ => rcases hd with hd | hd <;> cases hd
  | addFinalizer _ _ => rcases hd with hd | hd <;> cases hd
  | removeFinalizer _ _ _ _ => rcases hd with hd | hd <;> cases hd
  | release h =>
    cases h with
    | read h => exact absurd h hnotRead
    | drain ds d' _ _ _ _ =>
      rcases hd with hd | hd
      · cases hd
      · cases hd
        cases hscaled
    | delete _ _ _ _ _ _ => rcases hd with hd | hd <;> cases hd
  | prune h _ =>
    cases h with
    | read h => exact absurd h hnotRead
    | _ => rcases hd with hd | hd <;> cases hd
  | apply plan nodes h' approved =>
    have hsent := h.sentFor_of_written (h'.written.resolve_left hnotRead) hd
    refine ⟨plan, nodes, approved, hsent, ?_⟩
    cases h' with
    | event h => exact (hnone h).elim
    | inline h =>
      cases h with
      | read h => exact absurd h hnotRead
      | _ => rcases hd with hd | hd <;> cases hd
    | deployment node ctx rc desired h' planned _ =>
      cases h' with
      | read h => exact absurd h hnotRead
      | create _ _ =>
        rcases hd with hd | hd
        · cases hd
          exact planned.identity.ns
        · cases hd
      | update fresh d' _ _ saw _ normalized =>
        rcases hd with hd | hd
        · cases hd
        · cases hd
          have hkey := congrArg Key.ns (h.found _ _ saw)
          exact (h.dryRun _ _ normalized).ns.trans (hkey.trans planned.identity.ns)

/-- The configuration of an approved pass was admitted. -/
theorem Surveyed.admitted (h : Surveyed Γ y w tr) {plan : PassPlan} {nodes : List Node} (ha : Approved Γ y plan nodes tr) :
    AdmittedConfig plan.cfg := by
  obtain ⟨cfg, enabled, rfl, hsaw, henabled⟩ := ha.configured
  rcases h.admissible cfg hsaw with hempty | hvalid
  · obtain ⟨box, hbox, -⟩ := Check.bind_eq_ok.1 henabled
    simp [findBoxType, hempty] at hbox
  · exact validateYanetConfig_ok hvalid

/-- What an approved pass starts on a node, and what can run there now, do not run a role both ways. -/
theorem Surveyed.compatible (h : Surveyed Γ y w tr) {plan : PassPlan} {nodes : List Node} (ha : Approved Γ y plan nodes tr)
    {node : Node} {rc : ResolvedComponent} {t t' : PodTemplateSpec} (hdraws : Draws Γ y plan nodes node rc t) {source : Source}
    (ht' : Supplies w y.metadata.ns source t') (hplace : SamePlace t t') {role : String} (hrole : role ∉ builtIn) :
    (Standalone role t → ¬ Colocated Γ role t') ∧ (Colocated Γ role t → ¬ Standalone role t') := by
  obtain ⟨name, hyanet, hyanet'⟩ := hplace.yanet
  obtain ⟨nodeName, hne, hnode, hnode'⟩ := hplace.node
  rw [hdraws.yanet_eq] at hyanet
  rw [← hyanet] at hyanet'
  have hnodeName := hdraws.node_eq hnode
  obtain ⟨plans, ws, hws, hcleared⟩ := ha.preflight
  obtain ⟨hoperators, hsidecars⟩ := hdraws.role_mem hws
  have hadmitted := h.admitted ha
  -- what can run there now was listed and checked, or this pass has started it by the same plan
  have hgate (target : PlacementRole) (htarget : target ∈ passRoles ws) (hon : target.node = node) :
      (∃ node' rc', Draws Γ y plan nodes node' rc' t') ∨
        (target.colocated = true → ¬ Standalone target.name t') ∧ (target.colocated = false → ¬ Colocated Γ target.name t') := by
    rcases hcleared with hnone | ⟨ds, rs, ps, hinventory, hcheck⟩
    · rw [hnone] at htarget
      cases htarget
    rcases h.inventory ds rs ps hinventory source t' ht' hyanet' with ⟨p, hp, hroles, hbound⟩ | ⟨e, he, d, hd, hscaled, hroles⟩
    · have hcompatible := compatible_of_check (hcheck target htarget p hp) hbound (hroles.yanet ▸ hyanet')
        (by rw [hon, hnodeName, ← hroles.node, hnode']) (by rw [hon, hnodeName]; exact hne)
      rw [hroles.standalone, hroles.colocated]
      exact Or.inr hcompatible
    · obtain ⟨node', rc', hdraws'⟩ :=
        (h.sentFor_of_written ((ha.written e he).resolve_left (not_isRead_of_sent hd)) hd).draws hscaled
      exact Or.inl ⟨node', rc', hdraws'.trans hroles⟩
  refine ⟨fun hs hc => ?_, fun hc hs => ?_⟩
  · obtain ⟨hkind, rfl, -⟩ := hdraws.standalone hrole hs
    rcases hgate _ (hoperators hkind) rfl with ⟨node', rc', hdraws'⟩ | hcompatible
    · exact hdraws.apart hadmitted hrole hdraws' hs hc
    · exact hcompatible.2 rfl hc
  · obtain ⟨⟨s, hmem, henabled, rfl⟩, -⟩ := hdraws.colocated hc
    rcases hgate _ (hsidecars s hmem henabled) rfl with ⟨node', rc', hdraws'⟩ | hcompatible
    · exact hdraws'.apart hadmitted hrole hdraws hs hc
    · exact hcompatible.1 rfl hs

/-- A call of a pass leaves the roles apart. -/
theorem Surveyed.separate_call (h : Surveyed Γ y w tr) (hc : PassCall Γ y tr c) (hs : World.Keeps Γ w c r w') : Separate Γ w' := by
  -- what is new is the one Deployment that was sent, drawn by one plan
  have hnew {d d' : Deployment} (hd : c = .create .deployment d ∨ c = .update .deployment d) (hsame : SameWorkload Γ d d')
      (hscaled : deploymentReplicasAreZero d' = false) : ∃ plan nodes node rc, Approved Γ y plan nodes tr ∧
        Draws Γ y plan nodes node rc d.spec.template ∧ d'.metadata.ns = y.metadata.ns ∧ d'.pod.nodeName = "" := by
    rw [hsame.scale] at hscaled
    obtain ⟨plan, nodes, happroved, hsent, hns⟩ := h.sent hc hd hscaled
    obtain ⟨node, rc, hdraws⟩ := hsent.draws hscaled
    exact ⟨plan, nodes, node, rc, happroved, hdraws, hsame.ns.trans hns, hsame.nodeName.trans hsent.nodeName⟩
  refine ⟨fun ns source t ht hlabel => ?_, fun ns source source' t t' ht ht' hplace role hrole hstandalone hcolocated => ?_⟩
  · rcases hs.supplies hc ht with ht | ⟨d, d', hd, hsame, hscaled, -, rfl⟩
    · exact h.separate.bound ns source t ht hlabel
    · obtain ⟨-, -, -, -, -, -, -, hnodeName⟩ := hnew hd hsame hscaled
      exact Or.inl hnodeName
  · rcases hs.supplies hc ht with ht | ⟨d, e, hd, hsame, hscaled, rfl, rfl⟩ <;>
      rcases hs.supplies hc ht' with ht' | ⟨d', e', hd', hsame', hscaled', hns', rfl⟩
    · exact h.separate.apart ns source source' t t' ht ht' hplace role hrole hstandalone hcolocated
    · obtain ⟨plan, nodes, node, rc, happroved, hdraws, hns, -⟩ := hnew hd' hsame' hscaled'
      have hplace' : SamePlace e'.spec.template t := by
        obtain ⟨⟨name, hn, hn'⟩, node, hne, hl, hl'⟩ := hplace
        exact ⟨⟨name, hn', hn⟩, node, hne, hl', hl⟩
      subst hns'
      rw [hns] at ht
      exact (h.compatible happroved (hdraws.trans hsame'.roles) ht hplace' hrole).2 hcolocated hstandalone
    · obtain ⟨plan, nodes, node, rc, happroved, hdraws, hns, -⟩ := hnew hd hsame hscaled
      rw [hns] at ht'
      exact (h.compatible happroved (hdraws.trans hsame.roles) ht' hplace hrole).1 hstandalone hcolocated
    · obtain ⟨plan, nodes, node, rc, happroved, hdraws, -, -⟩ := hnew hd hsame hscaled
      obtain rfl : d = d' := by
        rcases hd with rfl | rfl <;> rcases hd' with hd' | hd' <;> cases hd' <;> rfl
      exact (hdraws.trans hsame.roles).apart (h.admitted happroved) hrole (hdraws.trans hsame'.roles) hstandalone hcolocated

/-- A listing of one kind of workload, after those of the ranks before it. -/
theorem Covers.listing {rank : Nat} (producers : List PlacementProducer) {producers' : List PlacementProducer} (hbound : Separate Γ w)
    (h : ∀ source t, source.rank < rank → Supplies w y.metadata.ns source t → t.labels[labelYanet]? = some y.metadata.name →
      Listed Γ producers t) (hsub : producers ⊆ producers')
    (hlist : ∀ source t, source.rank = rank → Supplies w y.metadata.ns source t → ∃ p ∈ producers', p.template = t) :
    Covers Γ y w rank producers' := by
  intro source t hrank ht hlabel
  rcases hrank.lt_or_eq with hlt | heq
  · exact (h source t hlt ht hlabel).mono hsub
  · obtain ⟨p, hp, rfl⟩ := hlist source t heq ht
    exact ⟨p, hp, .refl _, hbound.bound _ source _ ht (by simp [hlabel])⟩

theorem mem_select_ns {k : Kind} {o : Obj k} {ns : String} (s : Store) (ho : o ∈ s k) (hns : (metaOf k o).ns = ns) :
    o ∈ s.select k (some ns) ∅ := by
  refine Store.mem_select.2 ⟨ho, fun n hn => ?_, rfl⟩
  cases hn
  exact hns.symm

theorem Supplies.deployment_listed {ns : String} {t : PodTemplateSpec} (ht : Supplies w ns .deployment t) :
    ∃ p ∈ (w.store.select .deployment (some ns) ∅).filterMap deploymentProducer, p.template = t := by
  cases ht with
  | deployment d mem inNs scaled =>
    exact ⟨⟨"Deployment", d.metadata.name, d.spec.template⟩,
      List.mem_filterMap.2 ⟨d, mem_select_ns w.store mem inNs, if_pos (Or.inl scaled)⟩, rfl⟩

theorem Supplies.replicaSet_listed {ns : String} {t : PodTemplateSpec} (ht : Supplies w ns .replicaSet t) :
    ∃ p ∈ (w.store.select .replicaSet (some ns) ∅).filterMap replicaSetProducer, p.template = t := by
  cases ht with
  | replicaSet s mem inNs scaled =>
    exact ⟨⟨"ReplicaSet", s.metadata.name, s.template⟩,
      List.mem_filterMap.2 ⟨s, mem_select_ns w.store mem inNs, if_pos (Or.inl scaled)⟩, rfl⟩

theorem Supplies.pod_listed {ns : String} {t : PodTemplateSpec} (ht : Supplies w ns .pod t) :
    ∃ p ∈ (w.store.select .pod (some ns) ∅).filterMap podProducer, p.template = t := by
  cases ht with
  | pod p mem inNs live =>
    exact ⟨⟨"Pod", p.metadata.name, p.template⟩, List.mem_filterMap.2 ⟨p, mem_select_ns w.store mem inNs, if_pos live⟩, rfl⟩

theorem SawInventory.of_cons {e : Event Api} {ns : String} {ds : List Deployment} {rs : List ReplicaSet} {ps : List Pod}
    (h : SawInventory (e :: tr) ns ds rs ps) :
    (e = ⟨.list .pod (some ns) ∅, .ok ps⟩ ∧ ∃ earlier, tr = ⟨.list .replicaSet (some ns) ∅, .ok rs⟩ ::
      ⟨.list .deployment (some ns) ∅, .ok ds⟩ :: earlier) ∨ SawInventory tr ns ds rs ps := by
  obtain ⟨later, earlier, heq⟩ := h
  cases later with
  | nil =>
    obtain ⟨rfl, rfl⟩ := List.cons.inj heq
    exact Or.inl ⟨rfl, earlier, rfl⟩
  | cons e' later =>
    obtain ⟨rfl, rfl⟩ := List.cons.inj heq
    exact Or.inr ⟨later, earlier, rfl⟩

/-- A call of the pass. -/
theorem Surveyed.call (h : Surveyed Γ y w tr) (hc : PassCall Γ y tr c) (hs : World.Keeps Γ w c r w') :
    Surveyed Γ y w' (⟨c, r⟩ :: tr) where
  separate := h.separate_call hc hs
  admissible config hsaw := by
    rcases hsaw with hsaw | ⟨persisted, hsaw, rfl⟩
    · rcases List.mem_cons.1 hsaw with heq | hsaw
      · cases heq
        exact hs.faithful
      · exact h.admissible config (Or.inl hsaw)
    · rcases List.mem_cons.1 hsaw with heq | hsaw
      · cases heq
        exact hs.faithful
      · exact h.admissible _ (Or.inr ⟨persisted, hsaw, rfl⟩)
  dryRun d d' hsaw := by
    rcases List.mem_cons.1 hsaw with heq | hsaw
    · cases heq
      exact hs.faithful
    · exact h.dryRun d d' hsaw
  found key d hsaw := by
    rcases List.mem_cons.1 hsaw with heq | hsaw
    · cases heq
      cases hs.serves with
      | get found => exact (Store.find_some found).2
    · exact h.found key d hsaw
  deployments ds earlier htr := by
    cases htr
    cases hs.serves with
    | list =>
      refine Covers.listing [] h.separate (fun source t hrank => absurd hrank (Nat.not_lt_zero _)) (List.nil_subset _)
        fun source t hrank ht => ?_
      cases source with
      | deployment =>
        obtain ⟨p, hp, rfl⟩ := ht.deployment_listed
        exact ⟨p, List.mem_append_left _ (List.mem_append_left _ hp), rfl⟩
      | _ => cases hrank
  replicaSets ds rs earlier htr := by
    cases htr
    cases hs.serves with
    | list =>
      have hbefore := h.deployments ds earlier rfl
      refine Covers.listing _ h.separate (fun source t hrank => hbefore source t (Nat.le_of_lt_succ hrank)) (fun p hp => ?_)
        fun source t hrank ht => ?_
      · simp only [producersOf, List.filterMap_nil, List.append_nil] at hp
        exact List.mem_append_left _ (List.mem_append_left _ hp)
      · cases source with
        | replicaSet =>
          obtain ⟨p, hp, rfl⟩ := ht.replicaSet_listed
          exact ⟨p, List.mem_append_left _ (List.mem_append_right _ hp), rfl⟩
        | _ => cases hrank
  inventory ds rs ps hsaw source t ht hlabel := by
    rcases hsaw.of_cons with ⟨heq, earlier, rfl⟩ | hsaw
    · cases heq
      cases hs.serves with
      | list =>
        have hbefore := h.replicaSets ds rs earlier rfl
        have hcovers : Covers Γ y w 2 (producersOf ds rs (w.store.select .pod (some y.metadata.ns) ∅)) := by
          refine Covers.listing _ h.separate (fun source t hrank => hbefore source t (Nat.le_of_lt_succ hrank)) (fun p hp => ?_)
            fun source t hrank ht => ?_
          · simp only [producersOf, List.filterMap_nil, List.append_nil] at hp
            exact List.mem_append_left _ hp
          · cases source with
            | pod =>
              obtain ⟨p, hp, rfl⟩ := ht.pod_listed
              exact ⟨p, List.mem_append_right _ hp, rfl⟩
            | _ => cases hrank
        exact Or.inl (hcovers source t (by cases source <;> decide) ht hlabel)
    · rcases hs.supplies hc ht with ht | ⟨d, d', hd, hsame, hscaled, -, rfl⟩
      · rcases h.inventory ds rs ps hsaw source t ht hlabel with hlisted | ⟨e, he, hlaunch⟩
        · exact Or.inl hlisted
        · exact Or.inr ⟨e, List.mem_cons_of_mem _ he, hlaunch⟩
      · exact Or.inr ⟨_, List.mem_cons_self, d, hd, hsame.scale ▸ hscaled, hsame.roles⟩

theorem Surveyed.served (h : Surveyed Γ y w tr) (hc : PassCall Γ y tr c) (hs : World.supplied Γ w c r w') :
    Surveyed Γ y w' (⟨c, r⟩ :: tr) := by
  obtain ⟨v, hothers, hkeeps⟩ := hs
  exact (h.others_run hothers).call hc hkeeps

end

/-! ## Whole runs -/

section

variable {Γ : Platform} {w w' : World}

theorem separate_of_others (h : Separate Γ w) (hw : ReflTransGen (World.Supplied Γ) w w') : Separate Γ w' := by
  induction hw with
  | refl => exact h
  | tail _ hstep ih => exact ih.others hstep

/-- The read of the installation. -/
theorem separate_of_get {key : Key} {r : Except ApiError Yanet} (h : Separate Γ w) (hs : World.supplied Γ w (.get .yanet key) r w') :
    Separate Γ w' := by
  obtain ⟨v, hothers, hkeeps⟩ := hs
  rw [hkeeps.serves.same_of_isRead rfl]
  exact separate_of_others h hothers

theorem SupplyStep.separate (h : Separate Γ w) (hstep : SupplyStep Γ w w') : Separate Γ w' := by
  cases hstep with
  | others hw => exact h.others hw
  | pass key rest hreach =>
    rcases reaches_reconcile hreach with rfl | ⟨r, hget⟩ | ⟨y, u, hget, hpass⟩
    · exact h
    · exact separate_of_get h hget
    · have hsafe : Safe tracing (PassCall Γ y) (fun _ _ => True) (reconcileYanet Γ y) [] :=
        safe_reconcileYanet fun e he => absurd he List.not_mem_nil
      obtain ⟨tr, hsurveyed, -⟩ := Safe.follow (Surveyed Γ y) (fun _ _ _ _ _ h hc hs => h.served hc hs) hpass hsafe
        (.start (separate_of_get h hget))
      exact hsurveyed.separate

end

/-! ### A new installation beside running Pods -/

end YanetOperator
