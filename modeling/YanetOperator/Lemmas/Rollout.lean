import YanetOperator.Cluster.Rollout
import YanetOperator.Lemmas.Observed

/-!
# The templates in force

What a listing of Deployments says about the templates that may run at a later moment. The version that is stored is the newest of its
key. While no Deployment is written, every version that follows a listed one keeps its template; so a Deployment that was listed with
its rollout complete may run no other template (`InForce.eq_of_mayRun`).
-/

namespace YanetOperator

open Prog Relation

/-! ## One step of the server -/

namespace World

variable {w w' : World}

/-- What a step does to the store: at most one object is stored or dropped. -/
inductive Advances (w : World) : World → Prop where
  | same : Advances w w
  | persist (k : Kind) (o : Obj k) (h : Persisted k o) : Advances w (w.persist k o h)
  | drop (k : Kind) (key : Key) : Advances w (w.drop k key)

theorem Tolerated.advances (h : Tolerated w w') : Advances w w' := by
  cases h with
  | install y _ h => exact .persist .yanet y h
  | edit y _ _ _ h => exact .persist .yanet y h
  | uninstall _ _ => exact .drop .yanet _
  | finish key => exact .drop .deployment key
  | touch d _ _ h => exact .persist .deployment d h
  | foreign d _ _ h => exact .persist .deployment d h
  | write o _ _ h => exact .persist _ o h
  | remove key _ _ => exact .drop _ key

theorem Serves.advances {c : Op} {r : c.Answer} (h : Serves w c r w') : Advances w w' := by
  cases h with
  | create _ o' _ h _ => exact .persist _ o' h
  | update _ _ o' _ _ _ h _ => exact .persist _ o' h
  | updateStatus _ y' _ h _ => exact .persist .yanet y' h
  | deleteMarks _ _ _ o' _ _ h _ => exact .persist _ o' h
  | deleteDrops _ _ _ _ => exact .drop _ _
  | _ => exact .same

/-- A version that a step adds is stored. -/
theorem Advances.stored_of_new (h : Advances w w') {k : Kind} {v : Obj k} (hv : v ∈ w'.past k) : v ∈ w.past k ∨ v ∈ w'.store k := by
  cases h with
  | same => exact Or.inl hv
  | drop k key => exact Or.inl hv
  | persist k o h =>
    rcases mem_update_past.1 hv with hv | ⟨rfl, rfl⟩
    · exact Or.inl hv
    · exact Or.inr (Store.mem_put.2 (Or.inl rfl))

/-- The Deployments that are stored are the newest versions of their keys. -/
def Newest (w : World) : Prop :=
  ∀ d ∈ w.store .deployment, ∀ v ∈ w.past .deployment, keyOf .deployment v = keyOf .deployment d →
    v.metadata.resourceVersion ≤ d.metadata.resourceVersion

theorem Advances.newest (h : Advances w w') (hw : Newest w) : Newest w' := by
  cases h with
  | same => exact hw
  | drop k key =>
    intro d hd v hv hkey
    refine hw d ?_ v hv hkey
    by_cases hk : Kind.deployment = k
    · subst hk
      exact (Store.mem_remove.1 hd).1
    · rwa [drop_store_other w key hk] at hd
  | persist k o h =>
    intro d hd v hv hkey
    rcases mem_update_past.1 hv with hold | ⟨rfl, rfl⟩
    · by_cases hk : Kind.deployment = k
      · subst hk
        rcases Store.mem_put.1 hd with rfl | ⟨hd, -⟩
        · exact ((w.numbered _ v hold).2.trans (Nat.le_succ _)).trans (resourceVersion_stamp w .deployment o).ge
        · exact hw d hd v hold hkey
      · rw [persist_store_other w k .deployment o h hk] at hd
        exact hw d hd v hold hkey
    · rcases Store.mem_put.1 hd with rfl | ⟨-, hne⟩
      · exact le_rfl
      · exact absurd hkey.symm hne

theorem Newest.eq (hw : Newest w) {d d' : Deployment} (hd : d ∈ w.store .deployment) (hd' : d' ∈ w.store .deployment)
    (hkey : keyOf .deployment d = keyOf .deployment d') : d = d' := by
  have hmem := w.stored .deployment d hd
  have hmem' := w.stored .deployment d' hd'
  exact w.distinct .deployment d hmem d' hmem' hkey (le_antisymm (hw d' hd' d hmem hkey) (hw d hd d' hmem' hkey.symm))

/-- No Deployment of an installation has appeared, and none has another template. -/
def KeepsTemplates (w w' : World) : Prop :=
  ∀ d ∈ w'.store .deployment, tenant d.metadata ≠ none → d ∉ w.store .deployment →
    ∃ stored ∈ w.store .deployment, SameBearings stored.metadata d.metadata ∧ d.spec.template = stored.spec.template

/-- A call that writes no Deployment keeps the specifications: what is marked for deletion keeps its content. -/
theorem Serves.keepsSpecs {c : Op} {r : c.Answer} (hc : Op.writesDeployment c = false) (h : Serves w c r w') {d : Deployment}
    (hd : d ∈ w'.store .deployment) (hnew : d ∉ w.store .deployment) :
    ∃ stored ∈ w.store .deployment, SameBearings stored.metadata d.metadata ∧ d.spec = stored.spec := by
  by_cases hk : Op.writesTo c = some .deployment
  · cases h with
    | deleteMarks found uid version o' same content h r =>
      cases hk
      rcases (Store.mem_put (k := .deployment)).1 hd with rfl | ⟨hd, -⟩
      · refine ⟨_, (Store.find_some found).1, ⟨same.ns, same.name, same.labels, same.ownerReferences⟩, ?_⟩
        rw [content]
        rfl
      · exact absurd hd hnew
    | deleteDrops _ _ _ _ =>
      cases hk
      exact absurd (Store.mem_remove.1 hd).1 hnew
    | create _ _ _ _ _ =>
      cases hk
      cases hc
    | update _ _ _ _ _ _ _ _ =>
      cases hk
      cases hc
    | updateStatus _ _ _ _ _ => cases hk
    | _ => exact absurd hd hnew
  · rw [h.store_eq hk] at hd
    exact absurd hd hnew

theorem Serves.keepsTemplates {c : Op} {r : c.Answer} (hc : Op.writesDeployment c = false) (h : Serves w c r w') :
    KeepsTemplates w w' := by
  intro d hd _ hnew
  obtain ⟨stored, hmem, hsame, hspec⟩ := h.keepsSpecs hc hd hnew
  exact ⟨stored, hmem, hsame, congrArg DeploymentSpec.template hspec⟩

end World

/-! ## A version and those after it -/

/-- The version `l` of the Deployment is known, and its template is that of every version since. -/
structure InForce (w : World) (l d : Deployment) : Prop where
  key : keyOf .deployment l = keyOf .deployment d
  own : tenant l.metadata = tenant d.metadata
  known : l ∈ w.past .deployment
  kept : ∀ v ∈ w.past .deployment, keyOf .deployment v = keyOf .deployment d →
    l.metadata.resourceVersion ≤ v.metadata.resourceVersion → v.spec.template = l.spec.template

section

variable {w w' : World} {l d : Deployment}

/-- The version that is stored. -/
theorem InForce.stored (hw : w.Newest) (hd : d ∈ w.store .deployment) : InForce w d d := by
  refine ⟨rfl, rfl, w.stored .deployment d hd, fun v hv hkey hle => ?_⟩
  rw [w.distinct .deployment v hv d (w.stored .deployment d hd) hkey (le_antisymm (hw d hd v hv hkey) hle)]

theorem InForce.template_eq (h : InForce w l d) (hw : w.Newest) (hd : d ∈ w.store .deployment) : d.spec.template = l.spec.template :=
  h.kept d (w.stored .deployment d hd) rfl (hw d hd l h.known h.key)

/-- A Deployment whose rollout was complete may run the template of that version only. -/
theorem InForce.eq_of_mayRun (h : InForce w l d) (hcomplete : rolloutPending l = false) {template : PodTemplateSpec}
    (hrun : MayRun w d template) : template = l.spec.template := by
  obtain ⟨v, hv, hkey, rfl, hlater⟩ := hrun
  rcases le_total l.metadata.resourceVersion v.metadata.resourceVersion with hle | hle
  · exact h.kept v hv hkey hle
  · exact (hlater l h.known h.key hle hcomplete).symm

/-- One step that keeps the templates. -/
theorem InForce.step {ds : List Deployment} {t : Tenant} (hstep : w.Advances w') (hknows : w.Knows w') (hw : w.Newest)
    (htemplates : w.KeepsTemplates w')
    (h : ∀ d ∈ w.store .deployment, tenant d.metadata = some t → ∃ l ∈ ds, InForce w l d)
    (hd : d ∈ w'.store .deployment) (ht : tenant d.metadata = some t) : ∃ l ∈ ds, InForce w' l d := by
  have hw' := hstep.newest hw
  -- the version of the Deployment before the step, with its template
  have hbefore : ∃ s ∈ w.store .deployment, keyOf .deployment s = keyOf .deployment d ∧ tenant s.metadata = tenant d.metadata ∧
      d.spec.template = s.spec.template := by
    by_cases hold : d ∈ w.store .deployment
    · exact ⟨d, hold, rfl, rfl, rfl⟩
    · obtain ⟨s, hs, hsame, htemplate⟩ := htemplates d hd (by simp [ht]) hold
      exact ⟨s, hs, (SameBearings.keyOf_eq (k := .deployment) hsame).symm, hsame.tenant_eq.symm, htemplate⟩
  obtain ⟨s, hs, hkey, hown, htemplate⟩ := hbefore
  obtain ⟨l, hl, hforce⟩ := h s hs (hown.trans ht)
  refine ⟨l, hl, hforce.key.trans hkey, hforce.own.trans hown, hknows _ _ hforce.known, fun v hv hvkey hle => ?_⟩
  rcases hstep.stored_of_new hv with hv | hv
  · exact hforce.kept v hv (hvkey.trans hkey.symm) hle
  · rw [hw'.eq hv hd hvkey, htemplate, hforce.template_eq hw hs]

end

end YanetOperator
