import YanetOperator.Cluster.World
import YanetOperator.Lemmas.Ownership
import YanetOperator.Lemmas.Planned
import YanetOperator.Lemmas.SharedTrace

/-!
# What the writes of a pass rest on

Every update and deletion of a pass carries the version of an object that the pass has read and found to be its own. The answers in the
trace of a pass are versions that have been stored, so a write that the server accepts replaces that very version.
-/

namespace YanetOperator

open Prog Relation

/-- The kinds of the objects a pass writes on behalf of its resource. -/
def ownedKinds : List Kind := [.deployment, .configMap, .service]

/-! ## Writes -/

/-- An update or a deletion carries the key and the version of an object that was stored under the control of the owner. -/
def Rests (w : World) (owner : OwnerReference) (c : Op) : Prop :=
  ∀ k ∈ ownedKinds, ∀ o : Obj k, (c = .update k o ∨ ∃ foreground, c = .delete k o foreground) →
    ∃ read ∈ w.past k, keyOf k read = keyOf k o ∧ (metaOf k read).resourceVersion = (metaOf k o).resourceVersion ∧
      Controls owner (metaOf k read)

section

variable {w : World} {owner : OwnerReference} {c : Op} {k : Kind} {o : Obj k}

theorem rests_update (h : k ∈ ownedKinds → ∃ read ∈ w.past k, keyOf k read = keyOf k o ∧
    (metaOf k read).resourceVersion = (metaOf k o).resourceVersion ∧ Controls owner (metaOf k read)) : Rests w owner (.update k o) := by
  intro k' hk' o' ho
  rcases ho with heq | ⟨foreground, heq⟩
  · cases heq
    exact h hk'
  · cases heq

/-- A deletion of an object that was stored under the control of the owner. -/
theorem rests_delete {foreground : Bool} (hmem : o ∈ w.past k) (hcontrols : Controls owner (metaOf k o)) :
    Rests w owner (.delete k o foreground) := by
  intro k' hk' o' ho
  rcases ho with heq | ⟨foreground', heq⟩
  · cases heq
  · cases heq
    exact ⟨o, hmem, rfl, rfl, hcontrols⟩

theorem rests_read (h : Op.isRead c = true) : Rests w owner c := by
  intro k _ o ho
  rcases ho with rfl | ⟨foreground, rfl⟩ <;> cases h

theorem rests_create : Rests w owner (.create k o) := by
  intro k' _ o' ho
  rcases ho with heq | ⟨foreground, heq⟩ <;> cases heq

theorem rests_event (reason note : String) : Rests w owner (.event reason note) := by
  intro k _ o ho
  rcases ho with heq | ⟨foreground, heq⟩ <;> cases heq

theorem rests_updateStatus (y : Yanet) : Rests w owner (.updateStatus y) := by
  intro k _ o ho
  rcases ho with heq | ⟨foreground, heq⟩ <;> cases heq

end

namespace World

variable {w : World} {k : Kind} {o : Obj k}

/-- A version that is carried by a write and still stored under its key is the object that was read. -/
theorem eq_of_version {read stored : Obj k} (hread : read ∈ w.past k) (hfound : w.store.find k (keyOf k o) = some stored)
    (hkey : keyOf k read = keyOf k o) (hversion : (metaOf k read).resourceVersion = (metaOf k stored).resourceVersion) :
    read = stored := by
  obtain ⟨hmem, hkey'⟩ := Store.find_some hfound
  exact w.distinct k read hread stored (w.stored k stored hmem) (hkey.trans hkey'.symm) hversion

end World

/-! ## What a pass has read -/

/-- The answers in a trace are versions that have been stored, and a dry run kept the key and the version. -/
structure Remembers (w : World) (tr : PassTrace) : Prop where
  get : ∀ k key o, Saw tr (.get k key) (.ok o) → o ∈ w.past k ∧ keyOf k o = key
  list : ∀ k ns labels os, Saw tr (.list k ns labels) (.ok os) → ∀ o ∈ os, o ∈ w.past k
  dryRun : ∀ d d', Saw tr (.dryRun d) (.ok d') →
    keyOf .deployment d' = keyOf .deployment d ∧ d'.metadata.resourceVersion = d.metadata.resourceVersion

/-- What has been stored stays known. -/
def World.Knows (w w' : World) : Prop := ∀ k, ∀ o ∈ w.past k, o ∈ w'.past k

namespace World

variable {w w' : World} {tr : PassTrace}

theorem knows_persist (k : Kind) (o : Obj k) (h : Persisted k o) : w.Knows (w.persist k o h) :=
  fun _ _ hx => mem_update_past.2 (Or.inl hx)

theorem Interferes.knows (h : ReflTransGen Interferes w w') : w.Knows w' := by
  induction h with
  | refl => exact fun _ _ hx => hx
  | tail _ hstep ih =>
    cases hstep with
    | write k o h => exact fun k' x hx => knows_persist k o h k' x (ih k' x hx)
    | delete k key => exact ih

theorem Answers.knows {c : Op} {r : c.Answer} (h : Answers w c r w') : w.Knows w' := by
  cases h with
  | create _ o' _ h => exact knows_persist _ o' h
  | update _ _ o' _ h => exact knows_persist _ o' h
  | updateStatus y' h => exact knows_persist .yanet y' h
  | deleteMarks _ _ _ o' _ h => exact knows_persist _ o' h
  | _ => exact fun _ _ hx => hx

end World

theorem Remembers.knows {w w' : World} {tr : PassTrace} (h : Remembers w tr) (hw : w.Knows w') : Remembers w' tr :=
  ⟨fun k key o hs => ⟨hw k o (h.get k key o hs).1, (h.get k key o hs).2⟩, fun k ns labels os hs o ho => hw k o (h.list k ns labels os hs o ho),
    h.dryRun⟩

/-- One more call. -/
theorem Remembers.answers {w w' : World} {tr : PassTrace} {c : Op} {r : c.Answer} (h : Remembers w tr) (ha : World.Answers w c r w') :
    Remembers w' (⟨c, r⟩ :: tr) := by
  have hold := h.knows ha.knows
  refine ⟨fun k key o hs => ?_, fun k ns labels os hs => ?_, fun d d' hs => ?_⟩
  · rcases List.mem_cons.1 hs with heq | hs
    · cases heq
      cases ha with
      | get mem hkey => exact ⟨mem, hkey⟩
    · exact hold.get k key o hs
  · rcases List.mem_cons.1 hs with heq | hs
    · cases heq
      cases ha with
      | list mem => exact mem
    · exact hold.list k ns labels os hs
  · rcases List.mem_cons.1 hs with heq | hs
    · cases heq
      cases ha with
      | dryRun hkey version => exact ⟨hkey, version⟩
    · exact hold.dryRun d d' hs

/-- Along a pass with other writers, the answers stay remembered, and the next call is one that the pass permits. -/
theorem Remembers.follow {α : Type} {G : PassTrace → Op → Prop} {Q : α → PassTrace → Prop} {p : Pass α} {w w' : World} {c : Op}
    (hp : Safe tracing G Q p []) (h : Issues World.interleaved p w c w') : ∃ tr, Remembers w' tr ∧ w.Knows w' ∧ G tr c := by
  obtain ⟨k, h⟩ := h
  have hstart : Remembers w [] ∧ w.Knows w :=
    ⟨⟨fun _ _ _ hs => absurd hs List.not_mem_nil, fun _ _ _ _ hs => absurd hs List.not_mem_nil,
      fun _ _ hs => absurd hs List.not_mem_nil⟩, fun _ _ hx => hx⟩
  have hstep (u : World) (tr : PassTrace) (c : Op) (r : c.Answer) (u' : World) (hu : Remembers u tr ∧ w.Knows u) (_ : G tr c)
      (hstep : World.interleaved u c r u') : Remembers u' (⟨c, r⟩ :: tr) ∧ w.Knows u' := by
    obtain ⟨v, henv, hanswer⟩ := hstep
    have hv := World.Interferes.knows henv
    exact ⟨(hu.1.knows hv).answers hanswer, fun k x hx => hanswer.knows k x (hv k x (hu.2 k x hx))⟩
  obtain ⟨tr, htr, hcall⟩ := Safe.follow (fun u tr => Remembers u tr ∧ w.Knows u) hstep h hp hstart
  exact ⟨tr, htr.1, htr.2, hcall.1⟩

/-! ## The two controllers -/

section

variable {w : World} {tr : PassTrace} {c : Op}

/-- The reference to an installation that was stored names its served type. -/
theorem yanetOwner_eq {y : Yanet} (h : Persisted .yanet y) : yanetOwner y = controllerRef y := by
  unfold yanetOwner
  rcases h.2 with htype | ⟨htype, hkind⟩
  · simp [htype, controllerRef]
  · simp [htype, hkind, controllerRef, groupVersion]

theorem getControllerOf_singleton {m : ObjectMeta} {owner : OwnerReference} (h : m.ownerReferences = [owner])
    (hcontroller : owner.controller = some true) : getControllerOf m = some owner := by
  simp [getControllerOf, h, hcontroller]

/-- Every update and deletion of a pass of an installation rests on a version that the installation controls. -/
theorem PassCall.rests {Γ : Platform} {y : Yanet} (hy : y ∈ w.past .yanet) (htr : Remembers w tr) (h : PassCall Γ y tr c) :
    Rests w (controllerRef y) c := by
  have hpersisted := w.persisted .yanet y hy
  have huid : y.metadata.uid ≠ 0 := hpersisted.1
  have hcontrols {m : ObjectMeta} (hm : controlledByYanet m y = true) : Controls (controllerRef y) m :=
    ((controlledByYanet_iff huid).1 hm).2
  have hevent (h : EventCall tr c) : Rests w (controllerRef y) c := by
    cases h with
    | read h => exact rests_read h
    | event reason note _ => exact rests_event reason note
  cases h with
  | event h => exact hevent h
  | status h =>
    cases h with
    | read h => exact rests_read h
    | write fresh status _ _ => exact rests_updateStatus _
  | addFinalizer _ _ => exact rests_update fun hk => absurd hk (by decide)
  | removeFinalizer _ _ _ _ => exact rests_update fun hk => absurd hk (by decide)
  | release h =>
    cases h with
    | read h => exact rests_read h
    | drain ds d _ saw mem owned => exact rests_update fun _ => ⟨d, htr.list _ _ _ _ saw d mem, rfl, rfl, hcontrols owned⟩
    | delete ds d _ saw mem owned => exact rests_delete (htr.list _ _ _ _ saw d mem) (hcontrols owned)
  | prune h =>
    cases h with
    | read h => exact rests_read h
    | deployment ds d _ saw mem owned => exact rests_delete (htr.list _ _ _ _ saw d mem) (hcontrols owned)
    | configMap ds cms pods cm _ _ saw mem owned _ _ _ => exact rests_delete (htr.list _ _ _ _ saw cm mem) (hcontrols owned)
  | apply plan nodes h approved =>
    cases h with
    | event h => exact hevent h
    | inline h =>
      cases h with
      | read h => exact rests_read h
      | create cm _ => exact rests_create
      | update key existing cm _ saw owned same =>
        have hmem := (htr.get _ _ _ saw).1
        have hversion := (w.numbered .configMap existing hmem).1
        exact rests_update fun _ => ⟨existing, hmem, (keyOf_configMap_eq same).symm, same.resourceVersion.symm,
          hcontrols (owned (Nat.pos_iff_ne_zero.1 hversion))⟩
    | deployment node ctx rc desired h planned _ =>
      cases h with
      | read h => exact rests_read h
      | create _ _ => exact rests_create
      | update fresh d _ _ saw owned normalized =>
        obtain ⟨hmem, hkey⟩ := htr.get _ _ _ saw
        obtain ⟨hdryKey, hdryVersion⟩ := htr.dryRun _ _ normalized
        have hcandidate : keyOf .deployment (deploymentCandidate fresh desired) = keyOf .deployment fresh := rfl
        obtain ⟨cfg, enabled, rfl, -, -⟩ := approved.configured
        have howner : getControllerOf desired.metadata = some (controllerRef y) :=
          getControllerOf_singleton (planned.identity.ownerReferences.trans (by rw [passPlan, yanetOwner_eq hpersisted])) rfl
        exact rests_update fun _ => ⟨fresh, hmem, (hdryKey.trans hcandidate).symm, hdryVersion.symm,
          controls_of_validateOwnership huid howner owned⟩

/-- A planned Service that has a controller is controlled by the YanetConfig. -/
theorem getControllerOf_planned {Γ : Platform} {config : YanetConfig} {ys : List Yanet} {key : Key} {desired : Service}
    (h : (planSharedServices Γ config ys).desired[key]? = some desired) :
    getControllerOf desired.metadata = none ∨ getControllerOf desired.metadata = some (configOwner config) := by
  obtain ⟨hoffered, -, -⟩ := (planSharedServices_ok Γ config ys).registry.sound key desired h
  simp only [offeredServices, offeredBy, validServices, List.mem_flatMap, List.mem_map] at hoffered
  obtain ⟨scope, -, p, -, rfl⟩ := hoffered
  by_cases hname : (configOwner config).name = ""
  · left
    simp [ServicePlan.toService, getControllerOf, hname]
  · right
    exact getControllerOf_singleton (by simp [ServicePlan.toService, hname]) rfl

/-- Every update and deletion of a shared reconcile rests on a version that the YanetConfig controls. -/
theorem SharedCall.rests {Γ : Platform} {config : YanetConfig} (hconfig : config ∈ w.past .yanetConfig) (htr : Remembers w tr)
    (h : SharedCall Γ config tr c) : Rests w (configOwner config) c := by
  have huid : (configOwner config).uid ≠ 0 := (w.persisted .yanetConfig config hconfig).uid
  cases h with
  | read h => exact rests_read h
  | create _ _ _ _ _ => exact rests_create
  | update ys key desired fresh _ wanted saw owned =>
    obtain ⟨hmem, hkey⟩ := htr.get _ _ _ saw
    have howner : getControllerOf desired.metadata = some (configOwner config) := by
      refine (getControllerOf_planned wanted.planned).resolve_left fun hnone => ?_
      simp [validateServiceOwnership, validateOwnership, hnone] at owned
    exact rests_update fun _ => ⟨fresh, hmem, rfl, rfl, controls_of_validateOwnership huid howner owned⟩
  | delete services s _ saw mem owned => exact rests_delete (htr.list _ _ _ _ saw s mem) (controls_of_controlledBy huid owned)

end

end YanetOperator
