import YanetOperator.Cluster.Fleet
import YanetOperator.Lemmas.Rests

/-!
# Tenants

The invariant of a fleet: the installation that controls a Deployment is stored and has the finalizer of the operator, and the
Deployments of one node have one tenant. Others keep it; a call of a pass keeps it when what it sends is in order.
-/

namespace YanetOperator

theorem World.persist_store_other (w : World) (k k' : Kind) (o : Obj k) (h : Persisted k o) (hk : k' ≠ k) :
    (w.persist k o h).store k' = w.store k' :=
  Store.put_other hk

theorem World.drop_store_other (w : World) {k k' : Kind} (key : Key) (hk : k' ≠ k) : (w.drop k key).store k' = w.store k' :=
  Store.remove_other hk

/-! ## The tenant of an object -/

section

variable {m m' : ObjectMeta} {y : Yanet} {t : Tenant}

theorem SameBearings.tenant_eq (h : SameBearings m m') : tenant m' = tenant m := by
  simp [tenant, getControllerOf, h.ns, h.ownerReferences]

theorem SameBearings.nodeLabel_eq (h : SameBearings m m') : nodeLabel m' = nodeLabel m := by
  simp [nodeLabel, h.labels]

theorem SameBearings.keyOf_eq {k : Kind} {o o' : Obj k} (h : SameBearings (metaOf k o) (metaOf k o')) : keyOf k o' = keyOf k o := by
  simp [keyOf, h.ns, h.name]

theorem SameBearings.refl (m : ObjectMeta) : SameBearings m m := ⟨rfl, rfl, rfl, rfl⟩

theorem SameBearings.trans {m'' : ObjectMeta} (h : SameBearings m m') (h' : SameBearings m' m'') : SameBearings m m'' :=
  ⟨h'.ns.trans h.ns, h'.name.trans h.name, h'.labels.trans h.labels, h'.ownerReferences.trans h.ownerReferences⟩

/-- An installation with a UID controls an object exactly when it is its tenant. -/
theorem controlledByYanet_iff_tenant (huid : y.metadata.uid ≠ 0) : controlledByYanet m y = true ↔ tenant m = some y.tenant := by
  unfold controlledByYanet tenant Yanet.tenant
  cases hc : getControllerOf m with
  | none => simp
  | some ref =>
    simp only [huid, false_or, Bool.and_eq_true, decide_eq_true_eq, Option.bind_some]
    constructor
    · rintro ⟨hns, hversion, hkind, hname, hid⟩
      simp [hns, hversion, hkind, hname, hid]
    · intro h
      split at h
      · next htype =>
        simp only [Option.some.injEq, Tenant.mk.injEq] at h
        exact ⟨h.1, htype.1, htype.2, h.2.1, h.2.2⟩
      · cases h

/-- What an installation controls is its own. -/
theorem tenant_of_controls (hns : m.ns = y.metadata.ns) (h : Controls (controllerRef y) m) : tenant m = some y.tenant := by
  obtain ⟨ref, href, hversion, hkind, hname, huid⟩ := h
  simp [tenant, href, hversion, hkind, hname, huid, hns, controllerRef, Yanet.tenant]

theorem Yanet.tenant_eq_iff {o : Yanet} :
    o.tenant = y.tenant ↔ keyOf .yanet o = keyOf .yanet y ∧ o.metadata.uid = y.metadata.uid := by
  simp [Yanet.tenant, keyOf, metaOf, Tenant.mk.injEq, Key.mk.injEq, and_assoc]

end

/-! ## The server and the others -/

section

variable {w w' : World} {c : Op} {r : c.Answer}

theorem World.Serves.answers (h : World.Serves w c r w') : World.Answers w c r w' := by
  cases h with
  | get found => exact .get (w.stored _ _ (Store.find_some found).1) (Store.find_some found).2
  | getFails e => exact .getFails e
  | list => exact .list fun o ho => w.stored _ o (Store.mem_select.1 ho).1
  | listFails e => exact .listFails e
  | create free o' same h r => exact .create free o' same.keyOf_eq h r
  | createFails e => exact .createFails e
  | update found version o' same uid finalizers h r => exact .update found version o' same.keyOf_eq h r
  | updateFails e => exact .updateFails e
  | updateStatus found y' same h r => exact .updateStatus y' h r
  | updateStatusFails e => exact .updateStatusFails e
  | dryRun same version => exact .dryRun (SameBearings.keyOf_eq (k := .deployment) same) version
  | dryRunFails e => exact .dryRunFails e
  | deleteMarks found uid version o' same content h r =>
    exact .deleteMarks found uid version o' (same.keyOf_eq.trans (Store.find_some found).2) h r
  | deleteDrops found uid version r => exact .deleteDrops found uid version r
  | deleteFails e => exact .deleteFails e
  | event reason note => exact .event reason note
  | checkStop stop => exact .checkStop stop
  | snapshot cfg => exact .snapshot cfg
  | requeue window host wait => exact .requeue window host wait
  | now time => exact .now time

/-- The kind of the objects that a call writes. -/
def Op.writesTo : Op → Option Kind
  | .create k _ | .update k _ | .delete k _ _ => some k
  | .updateStatus _ => some .yanet
  | _ => none

/-- A call leaves the objects of other kinds. -/
theorem World.Serves.store_eq {k : Kind} (hk : Op.writesTo c ≠ some k) (h : World.Serves w c r w') : w'.store k = w.store k := by
  have hother {k' : Kind} (hk' : some k' ≠ some k) : k ≠ k' := fun heq => hk' (congrArg some heq.symm)
  cases h with
  | create _ o' _ h _ => exact w.persist_store_other _ k o' h (hother hk)
  | update _ _ o' _ _ _ h _ => exact w.persist_store_other _ k o' h (hother hk)
  | updateStatus _ y' _ h _ => exact w.persist_store_other .yanet k y' h (hother hk)
  | deleteMarks _ _ _ o' _ _ h _ => exact w.persist_store_other _ k o' h (hother hk)
  | deleteDrops _ _ _ _ => exact w.drop_store_other _ (hother hk)
  | _ => rfl

theorem World.Tolerated.knows (h : World.Tolerated w w') : w.Knows w' := by
  cases h with
  | install y _ h => exact World.knows_persist .yanet y h
  | edit y _ _ _ h => exact World.knows_persist .yanet y h
  | touch d _ _ h => exact World.knows_persist .deployment d h
  | foreign d _ _ h => exact World.knows_persist .deployment d h
  | write o _ _ h => exact World.knows_persist _ o h
  | _ => exact fun _ _ hx => hx

end

/-! ## The invariant -/

/-- The tenant is stored, with its finalizer. -/
def Stands (t : Tenant) (w : World) : Prop := ∃ o ∈ w.store .yanet, o.tenant = t ∧ yanetFinalizer ∈ o.metadata.finalizers

theorem Stands.congr {t : Tenant} {w w' : World} (h : Stands t w) (hy : w'.store .yanet = w.store .yanet) : Stands t w' := by
  obtain ⟨o, ho, hfin⟩ := h
  exact ⟨o, hy ▸ ho, hfin⟩

/-- The Deployments of a fleet are in order. -/
structure Tenanted (w : World) : Prop where
  unique : ∀ o ∈ w.store .yanet, ∀ o' ∈ w.store .yanet, keyOf .yanet o = keyOf .yanet o' → o = o'
  standing : ∀ d ∈ w.store .deployment, ∀ t, tenant d.metadata = some t → Stands t w
  exclusive : ∀ d ∈ w.store .deployment, ∀ d' ∈ w.store .deployment, ∀ t t', tenant d.metadata = some t →
    tenant d'.metadata = some t' → nodeLabel d.metadata = nodeLabel d'.metadata → t = t'

/-- Without Deployments of installations there is nothing to keep in order. -/
theorem Tenanted.start {w : World}
    (hkeys : ∀ o ∈ w.store .yanet, ∀ o' ∈ w.store .yanet, keyOf .yanet o = keyOf .yanet o' → o = o')
    (hempty : ∀ d ∈ w.store .deployment, tenant d.metadata = none) : Tenanted w := by
  have hnone {d : Deployment} {t : Tenant} (hd : d ∈ w.store .deployment) (ht : tenant d.metadata = some t) : False := by
    rw [hempty d hd] at ht
    cases ht
  exact ⟨hkeys, fun d hd t ht => (hnone hd ht).elim, fun d hd _ _ t _ ht => (hnone hd ht).elim⟩

/-- No Deployment of a tenant `P` has appeared, on a node where it had none. -/
def NoNew (P : Tenant → Prop) (w w' : World) : Prop :=
  ∀ d' ∈ w'.store .deployment, ∀ t, P t → tenant d'.metadata = some t →
    ∃ d ∈ w.store .deployment, tenant d.metadata = some t ∧ nodeLabel d.metadata = nodeLabel d'.metadata

section

variable {w w' : World} {P : Tenant → Prop}

theorem NoNew.refl (w : World) : NoNew P w w := fun d hd _ _ ht => ⟨d, hd, ht, rfl⟩

theorem NoNew.trans {w'' : World} (h : NoNew P w w') (h' : NoNew P w' w'') : NoNew P w w'' := by
  intro d hd t ht hdt
  obtain ⟨d', hd', hdt', hlabel'⟩ := h' d hd t ht hdt
  obtain ⟨d'', hd'', hdt'', hlabel''⟩ := h d' hd' t ht hdt'
  exact ⟨d'', hd'', hdt'', hlabel''.trans hlabel'⟩

/-- With the same Deployments nothing is new. -/
theorem NoNew.of_eq (h : w'.store .deployment = w.store .deployment) : NoNew P w w' := by
  intro d hd t _ ht
  rw [h] at hd
  exact ⟨d, hd, ht, rfl⟩

/-- A Deployment that goes is not new. -/
theorem noNew_drop (key : Key) : NoNew P w (w.drop .deployment key) :=
  fun d hd _ _ ht => ⟨d, (Store.mem_remove.1 hd).1, ht, rfl⟩

/-- A new version of a Deployment is not new when it keeps the tenant and the node, or its tenant does not matter. -/
theorem noNew_persist {d : Deployment} {h : Persisted .deployment d}
    (hd : ∀ t, P t → tenant d.metadata = some t →
      ∃ stored ∈ w.store .deployment, tenant stored.metadata = some t ∧ nodeLabel stored.metadata = nodeLabel d.metadata) :
    NoNew P w (w.persist .deployment d h) := by
  intro d' hd' t hP ht
  rcases Store.mem_put.1 hd' with rfl | ⟨hd', -⟩
  · exact hd t hP ht
  · exact ⟨d', hd', ht, rfl⟩

/-- Nothing but the Deployments and the installations matters. -/
theorem Tenanted.congr (hw : Tenanted w) (hy : w'.store .yanet = w.store .yanet) (hd : w'.store .deployment = w.store .deployment) :
    Tenanted w' := by
  obtain ⟨hunique, hstanding, hexclusive⟩ := hw
  exact ⟨by rwa [hy], fun d hd' t ht => (hstanding d (hd ▸ hd') t ht).congr hy, by rwa [hd]⟩

/-- With fewer Deployments, or new versions of the same ones, the Deployments stay in order. -/
theorem Tenanted.shrink (hw : Tenanted w) (hy : w'.store .yanet = w.store .yanet) (hnew : NoNew (fun _ => True) w w') :
    Tenanted w' := by
  refine ⟨by rw [hy]; exact hw.unique, fun d hd t ht => ?_, fun d hd d' hd' t t' ht ht' hnode => ?_⟩
  · obtain ⟨d₀, hd₀, ht₀, -⟩ := hnew d hd t trivial ht
    exact (hw.standing d₀ hd₀ t ht₀).congr hy
  · obtain ⟨d₀, hd₀, ht₀, hn₀⟩ := hnew d hd t trivial ht
    obtain ⟨d₁, hd₁, ht₁, hn₁⟩ := hnew d' hd' t' trivial ht'
    exact hw.exclusive d₀ hd₀ d₁ hd₁ t t' ht₀ ht₁ (hn₀.trans (hnode.trans hn₁.symm))

theorem Tenanted.drop_deployment (hw : Tenanted w) (key : Key) : Tenanted (w.drop .deployment key) :=
  hw.shrink (w.drop_store_other key (by decide)) (noNew_drop key)

/-- A Deployment is written whose installation stands, and whose node has no other tenant. -/
theorem Tenanted.persist_deployment {d : Deployment} {h : Persisted .deployment d} (hw : Tenanted w)
    (hstanding : ∀ t, tenant d.metadata = some t → Stands t w)
    (hnode : ∀ t, tenant d.metadata = some t → ∀ d' ∈ w.store .deployment, ∀ t', tenant d'.metadata = some t' →
      nodeLabel d'.metadata = nodeLabel d.metadata → t' = t) : Tenanted (w.persist .deployment d h) := by
  have hyanets : (w.persist .deployment d h).store .yanet = w.store .yanet := w.persist_store_other .deployment .yanet d h (by decide)
  refine ⟨by rw [hyanets]; exact hw.unique, fun x hx t ht => ?_, fun x hx x' hx' t t' ht ht' hlabels => ?_⟩
  · rcases Store.mem_put.1 hx with rfl | ⟨hx, -⟩
    · exact (hstanding t ht).congr hyanets
    · exact (hw.standing x hx t ht).congr hyanets
  · rcases Store.mem_put.1 hx with rfl | ⟨hx, -⟩ <;> rcases Store.mem_put.1 hx' with rfl | ⟨hx', -⟩
    · exact Option.some.inj (ht.symm.trans ht')
    · exact (hnode t ht x' hx' t' ht' hlabels.symm).symm
    · exact hnode t' ht' x hx t ht hlabels
    · exact hw.exclusive x hx x' hx' t t' ht ht' hlabels

/-- An installation is written; the Deployments of the one it replaces, if any, stay its own. -/
theorem Tenanted.persist_yanet {y : Yanet} {h : Persisted .yanet y} (hw : Tenanted w)
    (hkeep : ∀ o ∈ w.store .yanet, keyOf .yanet o = keyOf .yanet y → ∀ d ∈ w.store .deployment, tenant d.metadata = some o.tenant →
      y.metadata.uid = o.metadata.uid ∧ yanetFinalizer ∈ y.metadata.finalizers) : Tenanted (w.persist .yanet y h) := by
  have hdeployments : (w.persist .yanet y h).store .deployment = w.store .deployment := w.persist_store_other .yanet .deployment y h (by decide)
  refine ⟨fun o ho o' ho' hkey => ?_, fun d hd t ht => ?_, by rw [hdeployments]; exact hw.exclusive⟩
  · rcases Store.mem_put.1 ho with rfl | ⟨ho, hne⟩ <;> rcases Store.mem_put.1 ho' with rfl | ⟨ho', hne'⟩
    · rfl
    · exact absurd hkey.symm hne'
    · exact absurd hkey hne
    · exact hw.unique o ho o' ho' hkey
  · rw [hdeployments] at hd
    obtain ⟨o, ho, rfl, hfin⟩ := hw.standing d hd t ht
    by_cases hkey : keyOf .yanet o = keyOf .yanet y
    · obtain ⟨huid, hfin'⟩ := hkeep o ho hkey d hd ht
      exact ⟨w.stamp .yanet y, Store.mem_put.2 (Or.inl rfl), Yanet.tenant_eq_iff.2 ⟨hkey.symm, huid⟩, hfin'⟩
    · exact ⟨o, Store.mem_put.2 (Or.inr ⟨ho, hkey⟩), rfl, hfin⟩

/-- An installation without Deployments goes. -/
theorem Tenanted.drop_yanet {key : Key} (hw : Tenanted w)
    (hfree : ∀ o ∈ w.store .yanet, keyOf .yanet o = key → ∀ d ∈ w.store .deployment, tenant d.metadata ≠ some o.tenant) :
    Tenanted (w.drop .yanet key) := by
  have hdeployments : (w.drop .yanet key).store .deployment = w.store .deployment := w.drop_store_other key (by decide)
  refine ⟨fun o ho o' ho' => hw.unique o (Store.mem_remove.1 ho).1 o' (Store.mem_remove.1 ho').1, fun d hd t ht => ?_, by
    rw [hdeployments]; exact hw.exclusive⟩
  rw [hdeployments] at hd
  obtain ⟨o, ho, rfl, hfin⟩ := hw.standing d hd t ht
  exact ⟨o, Store.mem_remove.2 ⟨ho, fun hkey => hfree o ho hkey d hd ht⟩, rfl, hfin⟩

/-- A new version with the identity of a stored Deployment. -/
theorem Tenanted.rewrite {d stored : Deployment} {h : Persisted .deployment d} (hw : Tenanted w) (hmem : stored ∈ w.store .deployment)
    (same : SameBearings stored.metadata d.metadata) :
    Tenanted (w.persist .deployment d h) ∧ NoNew (fun _ => True) w (w.persist .deployment d h) := by
  have hnew : NoNew (fun _ => True) w (w.persist .deployment d h) :=
    noNew_persist fun t _ ht => ⟨stored, hmem, same.tenant_eq ▸ ht, same.nodeLabel_eq.symm⟩
  exact ⟨hw.shrink (w.persist_store_other .deployment .yanet d h (by decide)) hnew, hnew⟩

/-! ## Others -/

/-- The installation found under the key is the one that is stored. -/
theorem Tenanted.eq_of_found {o stored : Yanet} {key : Key} (hw : Tenanted w) (found : w.store.find .yanet key = some stored)
    (ho : o ∈ w.store .yanet) (hkey : keyOf .yanet o = key) : o = stored :=
  hw.unique o ho stored (Store.find_some found).1 (hkey.trans (Store.find_some found).2.symm)

/-- An installation with Deployments has the finalizer. -/
theorem Tenanted.finalizer {o : Yanet} {d : Deployment} (hw : Tenanted w) (ho : o ∈ w.store .yanet) (hd : d ∈ w.store .deployment)
    (ht : tenant d.metadata = some o.tenant) : yanetFinalizer ∈ o.metadata.finalizers := by
  obtain ⟨o', ho', htenant, hfin⟩ := hw.standing d hd _ ht
  obtain rfl := hw.unique o' ho' o ho (Yanet.tenant_eq_iff.1 htenant).1
  exact hfin

theorem World.Tolerated.keeps (hw : Tenanted w) (h : World.Tolerated w w') : Tenanted w' ∧ NoNew (fun _ => True) w w' := by
  cases h with
  | install y free h =>
    refine ⟨hw.persist_yanet fun o ho hkey => absurd hkey (Store.find_none.1 free o ho), .of_eq ?_⟩
    exact w.persist_store_other .yanet .deployment y h (by decide)
  | edit y found uid finalizer h =>
    refine ⟨hw.persist_yanet fun o ho hkey d hd ht => ?_, .of_eq (w.persist_store_other .yanet .deployment y h (by decide))⟩
    obtain rfl := hw.eq_of_found found ho hkey
    exact ⟨uid, finalizer (hw.finalizer ho hd ht)⟩
  | uninstall found released =>
    refine ⟨hw.drop_yanet fun o ho hkey d hd ht => ?_, .of_eq (w.drop_store_other _ (by decide))⟩
    obtain rfl := hw.eq_of_found found ho hkey
    exact released (hw.finalizer ho hd ht)
  | finish key => exact ⟨hw.drop_deployment key, noNew_drop key⟩
  | touch d found same h => exact hw.rewrite (Store.find_some found).1 same
  | foreign d own old h =>
    have hnone (t : Tenant) (ht : tenant d.metadata = some t) : False := by
      rw [own] at ht
      cases ht
    exact ⟨hw.persist_deployment (fun t ht => (hnone t ht).elim) fun t ht => (hnone t ht).elim,
      noNew_persist fun t _ ht => (hnone t ht).elim⟩
  | write o hy hd h =>
    have hdeployments := w.persist_store_other _ .deployment o h hd.symm
    exact ⟨hw.congr (w.persist_store_other _ .yanet o h hy.symm) hdeployments, .of_eq hdeployments⟩
  | remove key hy hd =>
    have hdeployments := w.drop_store_other key hd.symm
    exact ⟨hw.congr (w.drop_store_other key hy.symm) hdeployments, .of_eq hdeployments⟩

/-- Others leave an installation with the finalizer in place. -/
theorem World.Tolerated.stands {t : Tenant} (hw : Tenanted w) (hs : Stands t w) (h : World.Tolerated w w') : Stands t w' := by
  have hsame (hy : w'.store .yanet = w.store .yanet) : Stands t w' := hs.congr hy
  obtain ⟨o, ho, rfl, hfin⟩ := hs
  cases h with
  | install y free h => exact ⟨o, Store.mem_put.2 (Or.inr ⟨ho, Store.find_none.1 free o ho⟩), rfl, hfin⟩
  | edit y found uid finalizer h =>
    by_cases hkey : keyOf .yanet o = keyOf .yanet y
    · obtain rfl := hw.eq_of_found found ho hkey
      exact ⟨w.stamp .yanet y, Store.mem_put.2 (Or.inl rfl), Yanet.tenant_eq_iff.2 ⟨hkey.symm, uid⟩, finalizer hfin⟩
    · exact ⟨o, Store.mem_put.2 (Or.inr ⟨ho, hkey⟩), rfl, hfin⟩
  | uninstall found released =>
    refine ⟨o, Store.mem_remove.2 ⟨ho, fun hkey => released ?_⟩, rfl, hfin⟩
    obtain rfl := hw.eq_of_found found ho hkey
    exact hfin
  | finish key => exact hsame (w.drop_store_other key (by decide))
  | touch d _ _ h => exact hsame (w.persist_store_other .deployment .yanet d h (by decide))
  | foreign d _ _ h => exact hsame (w.persist_store_other .deployment .yanet d h (by decide))
  | write o hy _ h => exact hsame (w.persist_store_other _ .yanet o h hy.symm)
  | remove key hy _ => exact hsame (w.drop_store_other key hy.symm)

theorem tolerated_keeps (hw : Tenanted w) (h : Relation.ReflTransGen World.Tolerated w w') :
    Tenanted w' ∧ NoNew (fun _ => True) w w' := by
  induction h with
  | refl => exact ⟨hw, .refl w⟩
  | tail _ hstep ih =>
    have hlast := hstep.keeps ih.1
    exact ⟨hlast.1, ih.2.trans hlast.2⟩

end

/-! ## A pass -/

/-- What a pass of an installation may send, in the state that receives it. -/
inductive InOrder (y : Yanet) (w : World) : Op → Prop where
  | read {c : Op} (h : Op.isRead c = true) : InOrder y w c
  | event (reason note : String) : InOrder y w (.event reason note)
  | status (y' : Yanet) : InOrder y w (.updateStatus y')
  | configMap {c : Op} (h : ∃ cm : ConfigMap, c = .create .configMap cm ∨ c = .update .configMap cm ∨ c = .delete .configMap cm false) :
      InOrder y w c
  | create (d : Deployment) (own : tenant d.metadata = some y.tenant) (standing : Stands y.tenant w)
      (free : ∀ d' ∈ w.store .deployment, ∀ t, tenant d'.metadata = some t → nodeLabel d'.metadata = nodeLabel d.metadata →
        t = y.tenant) : InOrder y w (.create .deployment d)
  | update (d read : Deployment) (mem : read ∈ w.past .deployment) (key : keyOf .deployment read = keyOf .deployment d)
      (version : read.metadata.resourceVersion = d.metadata.resourceVersion) (old : tenant read.metadata = some y.tenant)
      (new : SameBearings read.metadata d.metadata ∨
        (tenant d.metadata = some y.tenant ∧
          (nodeLabel d.metadata = nodeLabel read.metadata ∨ ∀ d' ∈ w.store .deployment, ∀ t, tenant d'.metadata = some t →
            nodeLabel d'.metadata = nodeLabel d.metadata → t = y.tenant))) : InOrder y w (.update .deployment d)
  | delete (d : Deployment) (foreground : Bool) : InOrder y w (.delete .deployment d foreground)
  | addFinalizer (mem : y ∈ w.past .yanet) : InOrder y w (.update .yanet (addFinalizer y))
  | removeFinalizer (mem : y ∈ w.past .yanet) (free : ∀ d ∈ w.store .deployment, tenant d.metadata ≠ some y.tenant) :
      InOrder y w (.update .yanet (removeFinalizer y))

section

variable {w w' : World} {y : Yanet} {c : Op} {r : c.Answer}

/-- A call that writes nothing leaves the cluster. -/
theorem World.Serves.same_of_isRead (hread : Op.isRead c = true) (h : World.Serves w c r w') : w' = w := by
  cases h with
  | create _ _ _ _ _ => cases hread
  | update _ _ _ _ _ _ _ _ => cases hread
  | updateStatus _ _ _ _ _ => cases hread
  | deleteMarks _ _ _ _ _ _ _ _ => cases hread
  | deleteDrops _ _ _ _ => cases hread
  | _ => rfl

/-- The version that a pass has read, and that the server replaces. -/
theorem eq_of_served {k : Kind} {read o stored : Obj k} (hread : read ∈ w.past k) (found : w.store.find k (keyOf k o) = some stored)
    (hkey : keyOf k read = keyOf k o) (hversion : (metaOf k read).resourceVersion = (metaOf k o).resourceVersion)
    (version : (metaOf k o).resourceVersion = 0 ∨ (metaOf k o).resourceVersion = (metaOf k stored).resourceVersion) :
    read = stored := by
  have hpos := (w.numbered k read hread).1
  exact World.eq_of_version hread found hkey (hversion.trans (version.resolve_left (by omega)))

theorem InOrder.keeps (hw : Tenanted w) (hc : InOrder y w c) (h : World.Serves w c r w') :
    Tenanted w' ∧ NoNew (· ≠ y.tenant) w w' := by
  have hsame : Tenanted w ∧ NoNew (· ≠ y.tenant) w w := ⟨hw, .refl w⟩
  cases hc with
  | read hread =>
    obtain rfl := h.same_of_isRead hread
    exact hsame
  | event reason note =>
    cases h
    exact hsame
  | status y' =>
    cases h with
    | updateStatus found y'' same h =>
      refine ⟨hw.persist_yanet fun o ho hkey d hd ht => ?_, .of_eq (w.persist_store_other .yanet .deployment y'' h (by decide))⟩
      have hkey' : keyOf .yanet y'' = keyOf .yanet y' := (congrArg (fun m => Key.mk m.ns m.name) same).trans (Store.find_some found).2
      obtain rfl := hw.eq_of_found found ho (hkey.trans hkey')
      rw [same]
      exact ⟨rfl, hw.finalizer ho hd ht⟩
    | updateStatusFails e => exact hsame
  | configMap hcm =>
    have hkinds (k : Kind) (hk : k ≠ .configMap) : w'.store k = w.store k := by
      obtain ⟨cm, rfl | rfl | rfl⟩ := hcm
      · cases h with
        | create free o' _ h _ => exact w.persist_store_other .configMap k o' h hk
        | createFails e => rfl
      · cases h with
        | update _ _ o' _ _ _ h _ => exact w.persist_store_other .configMap k o' h hk
        | updateFails e => rfl
      · cases h with
        | deleteMarks _ _ _ o' _ _ h _ => exact w.persist_store_other .configMap k o' h hk
        | deleteDrops _ _ _ _ => exact w.drop_store_other _ hk
        | deleteFails e => rfl
    exact ⟨hw.congr (hkinds .yanet (by decide)) (hkinds .deployment (by decide)), .of_eq (hkinds .deployment (by decide))⟩
  | create d own standing free =>
    cases h with
    | create _ d' same h =>
      have hown (t : Tenant) (ht : tenant d'.metadata = some t) : t = y.tenant :=
        Option.some.inj (ht.symm.trans (same.tenant_eq.trans own))
      refine ⟨hw.persist_deployment (fun t ht => ?_) fun t ht x hx t' ht' hnode => ?_,
        noNew_persist fun t hne ht => absurd (hown t ht) hne⟩
      · obtain rfl := hown t ht
        exact standing
      · obtain rfl := hown t ht
        exact free x hx t' ht' (hnode.trans same.nodeLabel_eq)
    | createFails e => exact hsame
  | update d read mem key version old new =>
    cases h with
    | @update _ _ stored found hversion d' same uid finalizers h =>
      obtain rfl : read = stored := eq_of_served mem found key version hversion
      have hmem : read ∈ w.store .deployment := (Store.find_some found).1
      rcases new with hbearings | ⟨own, free⟩
      · have hkeep : Tenanted (w.persist .deployment d' h) ∧ NoNew (fun _ => True) w (w.persist .deployment d' h) :=
          hw.rewrite hmem (hbearings.trans same)
        exact ⟨hkeep.1, fun x hx t _ => hkeep.2 x hx t trivial⟩
      · have hown (t : Tenant) (ht : tenant d'.metadata = some t) : t = y.tenant :=
          Option.some.inj (ht.symm.trans (same.tenant_eq.trans own))
        refine ⟨hw.persist_deployment (fun t ht => ?_) fun t ht x hx t' ht' hnode => ?_,
          noNew_persist fun t hne ht => absurd (hown t ht) hne⟩
        · obtain rfl := hown t ht
          exact hw.standing read hmem _ old
        · obtain rfl := hown t ht
          rcases free with hlabel | hfree
          · exact hw.exclusive x hx read hmem t' _ ht' old (hnode.trans (same.nodeLabel_eq.trans hlabel))
          · exact hfree x hx t' ht' (hnode.trans same.nodeLabel_eq)
    | updateFails e => exact hsame
  | delete d foreground =>
    cases h with
    | deleteMarks found _ _ d' same _ h =>
      have hkeep : Tenanted (w.persist .deployment d' h) ∧ NoNew (fun _ => True) w (w.persist .deployment d' h) :=
        hw.rewrite (Store.find_some found).1 same
      exact ⟨hkeep.1, fun x hx t _ => hkeep.2 x hx t trivial⟩
    | deleteDrops _ _ _ _ => exact ⟨hw.drop_deployment _, noNew_drop _⟩
    | deleteFails e => exact hsame
  | addFinalizer mem =>
    cases h with
    | @update _ _ stored found version y' same uid finalizers h =>
      refine ⟨hw.persist_yanet fun o ho hkey d hd ht => ?_, .of_eq (w.persist_store_other .yanet .deployment y' h (by decide))⟩
      obtain rfl := hw.eq_of_found found ho (hkey.trans same.keyOf_eq)
      have hfin : y'.metadata.finalizers = y.metadata.finalizers ++ [yanetFinalizer] := finalizers
      exact ⟨uid, by simp [hfin]⟩
    | updateFails e => exact hsame
  | removeFinalizer mem free =>
    cases h with
    | @update _ _ stored found version y' same uid finalizers h =>
      refine ⟨hw.persist_yanet fun o ho hkey d hd ht => ?_, .of_eq (w.persist_store_other .yanet .deployment y' h (by decide))⟩
      obtain rfl := hw.eq_of_found found ho (hkey.trans same.keyOf_eq)
      obtain rfl : y = o := eq_of_served mem found rfl rfl version
      exact absurd ht (free d hd)
    | updateFails e => exact hsame

/-- A call of a pass that does not write the installation leaves it in place. -/
theorem InOrder.stands {y : Yanet} {t : Tenant} (hw : Tenanted w) (hc : InOrder y w c) (hno : ∀ o, c ≠ .update .yanet o)
    (hs : Stands t w) (h : World.Serves w c r w') : Stands t w' := by
  have hsame (hy : w'.store .yanet = w.store .yanet) : Stands t w' := hs.congr hy
  obtain ⟨o, ho, rfl, hfin⟩ := hs
  cases h with
  | create _ o' _ h =>
    refine hsame (w.persist_store_other _ .yanet o' h fun hk => ?_)
    subst hk
    cases hc with
    | read hread => cases hread
    | configMap hcm => rcases hcm with ⟨cm, hcm | hcm | hcm⟩ <;> cases hcm
  | update _ _ o' _ _ _ h =>
    refine hsame (w.persist_store_other _ .yanet o' h fun hk => ?_)
    subst hk
    exact hno _ rfl
  | @updateStatus y₀ stored found y' same h =>
    by_cases hkey : keyOf .yanet o = keyOf .yanet y'
    · have hkey' : keyOf .yanet y' = keyOf .yanet y₀ := (congrArg (fun m => Key.mk m.ns m.name) same).trans (Store.find_some found).2
      obtain rfl := hw.eq_of_found found ho (hkey.trans hkey')
      refine ⟨w.stamp .yanet y', Store.mem_put.2 (Or.inl rfl), Yanet.tenant_eq_iff.2 ⟨hkey.symm, congrArg (·.uid) same⟩, ?_⟩
      exact (congrArg (yanetFinalizer ∈ ObjectMeta.finalizers ·) same).mpr hfin
    · exact ⟨o, Store.mem_put.2 (Or.inr ⟨ho, hkey⟩), rfl, hfin⟩
  | @deleteMarks k _ _ _ _ _ _ o' _ _ h =>
    refine hsame (w.persist_store_other k .yanet o' h fun hk => ?_)
    subst hk
    cases hc with
    | read hread => cases hread
    | configMap hcm => rcases hcm with ⟨cm, hcm | hcm | hcm⟩ <;> cases hcm
  | @deleteDrops k _ _ _ _ _ _ =>
    refine hsame (w.drop_store_other _ fun hk => ?_)
    subst hk
    cases hc with
    | read hread => cases hread
    | configMap hcm => rcases hcm with ⟨cm, hcm | hcm | hcm⟩ <;> cases hcm
  | _ => exact hsame rfl

end

end YanetOperator
