import YanetOperator.Lemmas.Rests

/-!
# Ownership under interference

Whatever others write between the calls of a pass, the pass changes and deletes only Deployments, ConfigMaps and Services that its
own resource controls in the version that is replaced. Every write of a pass carries the version of an object that the pass has read
and found to be its own, and the server refuses the write when the object has another version by then.
-/

namespace YanetOperator

open Prog Relation

/-- From one state to the next, only objects that the owner controls are changed or deleted. -/
def KeepsForeign (owner : OwnerReference) (w w' : World) : Prop :=
  ∀ k ∈ ownedKinds, ∀ (key : Key) (o : Obj k), w.store.find k key = some o →
    w'.store.find k key = some o ∨ Controls owner (metaOf k o)

namespace World

variable {w w' : World} {k : Kind} {o : Obj k} {key : Key}

/-- A new version of one object leaves the others alone. -/
theorem keepsForeign_persist {owner : OwnerReference} {h : Persisted k o}
    (hold : k ∈ ownedKinds → ∀ stored, w.store.find k (keyOf k o) = some stored → Controls owner (metaOf k stored)) :
    KeepsForeign owner w (w.persist k o h) := by
  intro k' hk' key x hx
  by_cases hk : k' = k
  · subst hk
    by_cases hkey : keyOf k' o = key
    · subst hkey
      exact Or.inr (hold hk' x hx)
    · exact Or.inl ((Store.find_put (by rwa [keyOf_stamp])).trans hx)
  · exact Or.inl ((congrFun (Store.find_put_kind hk) key).trans hx)

theorem keepsForeign_drop {owner : OwnerReference}
    (hold : k ∈ ownedKinds → ∀ stored, w.store.find k key = some stored → Controls owner (metaOf k stored)) :
    KeepsForeign owner w (w.drop k key) := by
  intro k' hk' key' x hx
  by_cases hk : k' = k
  · subst hk
    by_cases hkey : key = key'
    · subst hkey
      exact Or.inr (hold hk' x hx)
    · exact Or.inl ((Store.find_remove hkey).trans hx)
  · exact Or.inl ((congrFun (Store.find_remove_kind hk) key').trans hx)

/-- One call: what it changes or deletes is controlled by the owner, when the call rests on that. -/
theorem Answers.keepsForeign {owner : OwnerReference} {c : Op} {r : c.Answer} (hrests : Rests w owner c) (h : Answers w c r w') :
    KeepsForeign owner w w' := by
  have hsame : KeepsForeign owner w w := fun k _ key o ho => Or.inl ho
  cases h with
  | create free o' hkey h =>
    refine keepsForeign_persist fun _ stored hstored => ?_
    rw [hkey, free] at hstored
    cases hstored
  | @update k o stored found version o' hkey h =>
    refine keepsForeign_persist fun hk x hx => ?_
    rw [hkey, found] at hx
    cases hx
    obtain ⟨read, hread, hreadKey, hreadVersion, hcontrols⟩ := hrests k hk o (Or.inl rfl)
    rcases version with hzero | hversion
    · -- a version that was read is never empty
      have := (w.numbered k read hread).1
      omega
    · rw [← eq_of_version hread found hreadKey (hreadVersion.trans hversion)]
      exact hcontrols
  | updateStatus y' h => exact keepsForeign_persist fun hk => absurd hk (by decide)
  | @deleteMarks k o stored foreground found uid version o' hkey h =>
    refine keepsForeign_persist fun hk x hx => ?_
    rw [hkey, found] at hx
    cases hx
    obtain ⟨read, hread, hreadKey, hreadVersion, hcontrols⟩ := hrests k hk o (Or.inr ⟨foreground, rfl⟩)
    rw [← eq_of_version hread found hreadKey (hreadVersion.trans version.symm)]
    exact hcontrols
  | @deleteDrops k o stored foreground found uid version =>
    refine keepsForeign_drop fun hk x hx => ?_
    rw [found] at hx
    cases hx
    obtain ⟨read, hread, hreadKey, hreadVersion, hcontrols⟩ := hrests k hk o (Or.inr ⟨foreground, rfl⟩)
    rw [← eq_of_version hread found hreadKey (hreadVersion.trans version.symm)]
    exact hcontrols
  | _ => exact hsame

end World

/-- A pass of an installation that was stored changes and deletes only Deployments, ConfigMaps and Services that this installation
controls in the version replaced, whatever is written between its calls. -/
theorem reconcileYanet_keepsForeign (Γ : Platform) (y : Yanet) (start before here after : World) (c : Op)
    (r : c.Answer) (hy : y ∈ start.past .yanet) (hissued : Issues World.interleaved (reconcileYanet Γ y) start c before)
    (henv : ReflTransGen World.Interferes before here) (hcall : World.Answers here c r after) :
    KeepsForeign (controllerRef y) here after := by
  obtain ⟨tr, htr, hknows, hpermitted⟩ := Remembers.follow (safe_reconcileYanet fun e he => absurd he List.not_mem_nil) hissued
  have hstill := World.Interferes.knows henv
  exact hcall.keepsForeign (hpermitted.rests (hstill _ _ (hknows _ _ hy)) (htr.knows hstill))

/-! ### An installation that leaves -/

/-- Without other writers. -/
theorem World.Answers.undisturbed {c : Op} {r : c.Answer} {w w' : World} (h : World.Answers w c r w') : World.interleaved w c r w' :=
  ⟨w, .refl, h⟩

/-- An installation that is being deleted. -/
def leavingYanet : Yanet :=
  { metadata := { name := "edge", ns := "yanet", uid := 7, resourceVersion := 1, deletionTimestamp := some 5
                  finalizers := [yanetFinalizer] } }

/-- Its last Deployment. -/
def leftDeployment : Deployment :=
  { metadata := { name := "edge-dataplane", ns := "yanet", uid := 8, resourceVersion := 2
                  ownerReferences := [controllerRef leavingYanet] } }

def leavingWorld : World :=
  (World.empty.persist .yanet leavingYanet ⟨by decide, Or.inl rfl⟩).persist .deployment leftDeployment
    (show leftDeployment.metadata.uid ≠ 0 by decide)

/-- The Deployment once it is marked for deletion. -/
def leavingDeployment : Deployment := { leftDeployment with metadata := { leftDeployment.metadata with deletionTimestamp := some 6 } }

theorem leavingDeployment_persisted : Persisted .deployment leavingDeployment := show leftDeployment.metadata.uid ≠ 0 by decide

/-- The pass of the leaving installation deletes its Deployment. -/
theorem leavingYanet_deletes (Γ : Platform) :
    Issues World.interleaved (reconcileYanet Γ leavingYanet) leavingWorld (.delete .deployment leftDeployment true) leavingWorld := by
  have hlist : World.Answers leavingWorld (listsDeployments leavingYanet) (.ok [leftDeployment]) leavingWorld := .list (by decide)
  refine Issues.call (World.Answers.snapshot { boxTypes := [{ name := "edge" }] }).undisturbed ?_
  refine Issues.call (World.Answers.checkStop false).undisturbed ?_
  refine Issues.call (World.Answers.event _ _).undisturbed ?_
  refine Issues.call hlist.undisturbed ?_
  refine Issues.call (World.Answers.checkStop false).undisturbed ?_
  exact Issues.here

def markedWorld : World := leavingWorld.persist .deployment leavingDeployment leavingDeployment_persisted

/-- The deletion is carried out, and nothing but the installation's own Deployment changes. -/
theorem leavingWorld_keepsForeign :
    World.Answers leavingWorld (.delete .deployment leftDeployment true) (.ok ()) markedWorld ∧
      KeepsForeign (controllerRef leavingYanet) leavingWorld markedWorld := by
  have hanswer : World.Answers leavingWorld (.delete .deployment leftDeployment true) (.ok ()) markedWorld :=
    .deleteMarks (show leavingWorld.store.find .deployment _ = some leftDeployment by decide +kernel) rfl rfl leavingDeployment rfl
      leavingDeployment_persisted (.ok ())
  exact ⟨hanswer, reconcileYanet_keepsForeign (Platform.tabulated [] fun _ d => .ok d) leavingYanet leavingWorld leavingWorld
    leavingWorld markedWorld _ _ (by decide +kernel) (leavingYanet_deletes _) .refl hanswer⟩

/-- A shared reconcile of a YanetConfig that was stored changes and deletes only Deployments, ConfigMaps and Services that this
YanetConfig controls in the version replaced, whatever is written between its calls. -/
theorem reconcileSharedServices_keepsForeign (Γ : Platform) (config : YanetConfig) (start before here after : World) (c : Op)
    (r : c.Answer) (hconfig : config ∈ start.past .yanetConfig)
    (hissued : Issues World.interleaved (reconcileSharedServices Γ config) start c before)
    (henv : ReflTransGen World.Interferes before here) (hcall : World.Answers here c r after) :
    KeepsForeign (configOwner config) here after := by
  obtain ⟨tr, htr, hknows, hpermitted⟩ := Remembers.follow (safe_reconcileSharedServices Γ config []) hissued
  have hstill := World.Interferes.knows henv
  exact hcall.keepsForeign (hpermitted.rests (hstill _ _ (hknows _ _ hconfig)) (htr.knows hstill))

/-! ### A Service that is no longer wanted -/

def emptyConfig : YanetConfig := { metadata := { name := "yanetconfig", uid := 3, resourceVersion := 1 } }

/-- A Service of an earlier configuration. -/
def staleService : Service :=
  { metadata := { name := "edge-grpc", ns := "yanet", uid := 4, resourceVersion := 2
                  labels := StrMap.of [(labelSharedService, "true")], ownerReferences := [configOwner emptyConfig] } }

def staleWorld : World :=
  (World.empty.persist .yanetConfig emptyConfig (show emptyConfig.metadata.uid ≠ 0 by decide)).persist .service staleService
    (show staleService.metadata.uid ≠ 0 by decide)

/-- The shared reconcile deletes the Service. -/
theorem emptyConfig_deletes (Γ : Platform) :
    Issues World.interleaved (reconcileSharedServices Γ emptyConfig) staleWorld (.delete .service staleService false) staleWorld := by
  have hyanets : World.Answers staleWorld (.list .yanet none ∅) (.ok []) staleWorld := .list fun o ho => absurd ho List.not_mem_nil
  have hservices : World.Answers staleWorld (.list .service none (StrMap.of [(labelSharedService, "true")])) (.ok [staleService])
      staleWorld := .list (by decide +kernel)
  refine Issues.call hyanets.undisturbed ?_
  refine Issues.call hservices.undisturbed ?_
  refine Issues.call (World.Answers.checkStop false).undisturbed ?_
  exact Issues.here

/-- The Service is gone, and nothing else changed. -/
theorem staleWorld_keepsForeign :
    World.Answers staleWorld (.delete .service staleService false) (.ok ()) (staleWorld.drop .service (keyOf .service staleService)) ∧
      KeepsForeign (configOwner emptyConfig) staleWorld (staleWorld.drop .service (keyOf .service staleService)) := by
  have hanswer : World.Answers staleWorld (.delete .service staleService false) (.ok ())
      (staleWorld.drop .service (keyOf .service staleService)) :=
    .deleteDrops (show staleWorld.store.find .service _ = some staleService by decide +kernel) rfl rfl (.ok ())
  have hstored : emptyConfig ∈ staleWorld.past .yanetConfig := List.mem_cons_self
  exact ⟨hanswer, reconcileSharedServices_keepsForeign (Platform.tabulated [] fun _ d => .ok d) emptyConfig staleWorld staleWorld
    staleWorld _ _ _ hstored (emptyConfig_deletes _) .refl hanswer⟩

end YanetOperator
