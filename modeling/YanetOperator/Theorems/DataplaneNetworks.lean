import YanetOperator.Lemmas.Resolve
import YanetOperator.Manifests.Render

/-!
# Device-backed networks

What `configureDataplaneNetworks` writes into a patched Deployment: the attachments of the resolved list, and one device for each.
-/

namespace YanetOperator

open Check

/-! ## Valid attachments -/

/-- The name under which the resource of an attachment definition is recorded. -/
def NetworkAttachment.identity (n : NetworkAttachment) : String := n.ns ++ "/" ++ n.name

/-- What the loop of `ValidateNetworkAttachments` establishes: new and distinct interfaces, and one resource for each definition. -/
theorem validateNetworkAttachmentsFrom_ok {interfaces : List String} {nads : StrMap String} {i : Nat}
    {networks : List NetworkAttachment} (h : validateNetworkAttachmentsFrom interfaces nads i networks = .ok ()) :
    (networks.map (·.interface)).Nodup ∧ (∀ n ∈ networks, n.interface ∉ interfaces) ∧
      (∀ n ∈ networks, ∀ r, nads[n.identity]? = some r → r = n.resourceName) ∧
      ∀ n ∈ networks, ∀ m ∈ networks, n.identity = m.identity → n.resourceName = m.resourceName := by
  induction networks generalizing interfaces nads i with
  | nil => simp
  | cons network networks ih =>
    simp only [validateNetworkAttachmentsFrom, seq_ok, refuse_ok] at h
    obtain ⟨-, -, -, hinterface, -, hnad, hrest⟩ := h
    obtain ⟨hnodup, hnew, hrecorded, hsame⟩ := ih hrest
    have hfirst : ∀ r, nads[network.identity]? = some r → r = network.resourceName := by
      intro r hr
      rw [NetworkAttachment.identity] at hr
      simpa [hr] using hnad
    have hlater : ∀ n ∈ networks, n.identity = network.identity → n.resourceName = network.resourceName := by
      intro n hn heq
      refine (hrecorded n hn network.resourceName ?_).symm
      rw [heq]
      exact Std.ExtTreeMap.getElem?_insert_self
    refine ⟨?_, ?_, ?_, ?_⟩
    · rw [List.map_cons, List.nodup_cons]
      refine ⟨fun hmem => ?_, hnodup⟩
      obtain ⟨n, hn, heq⟩ := List.mem_map.1 hmem
      exact hnew n hn (by simp [heq])
    · rw [List.forall_mem_cons]
      exact ⟨hinterface, fun n hn hmem => hnew n hn (List.mem_cons_of_mem _ hmem)⟩
    · rw [List.forall_mem_cons]
      refine ⟨hfirst, fun n hn r hr => ?_⟩
      by_cases heq : n.identity = network.identity
      · rw [heq] at hr
        exact (hfirst r hr).trans (hlater n hn heq).symm
      · refine hrecorded n hn r ?_
        have hne : network.identity ≠ n.identity := fun h => heq h.symm
        refine (Std.ExtTreeMap.getElem?_insert).trans ((if_neg ?_).trans hr)
        intro heq'
        have heq' : network.ns ++ "/" ++ network.name = n.identity := by simpa using heq'
        exact hne heq'
    · intro n hn m hm heq
      rcases List.mem_cons.1 hn with rfl | hn' <;> rcases List.mem_cons.1 hm with rfl | hm'
      · rfl
      · exact (hlater m hm' heq.symm).symm
      · exact hlater n hn' heq
      · exact hsame n hn' m hm' heq

/-! ## Counting devices -/

/-- The number of attachments that name a resource. -/
def devices (networks : List NetworkAttachment) (resource : String) : Nat :=
  networks.countP fun n => n.resourceName == resource

theorem mem_sortedDistinct {xs : List String} {x : String} : x ∈ sortedDistinct xs ↔ x ∈ xs := by
  rw [sortedDistinct, Std.ExtTreeMap.mem_keys, Std.ExtTreeMap.mem_iff_isSome_getElem?, Option.isSome_iff_exists]
  constructor
  · rintro ⟨u, hu⟩
    obtain ⟨y, hy, heq⟩ := List.mem_map.1 (StrMap.mem_of_getElem?_of hu)
    cases heq
    exact hy
  · intro hx
    cases hf : (StrMap.of (xs.map fun x => (x, ())))[x]? with
    | some u => exact ⟨u, rfl⟩
    | none =>
      rw [StrMap.getElem?_of, Option.map_eq_none_iff, List.find?_eq_none] at hf
      exact absurd (hf (x, ()) (List.mem_reverse.2 (List.mem_map_of_mem hx))) (by simp)

/-- The network list of a resolved dataplane: the installation's when it has one, else the palette's; its resources are those of both. -/
theorem Resolved.networks {Γ : Platform} {config : YanetConfigSpec} {yanet : YanetSpec} {rc : ResolvedComponent}
    (h : Resolved Γ config yanet rc) (hkind : rc.kind = .dataplane) :
    rc.networks = ((yanet.components.bind (·.dataplane)).bind (·.networks)).or config.components.dataplane.networks ∧
      ∀ r, r ∈ rc.networkResources ↔
        r ∈ ((config.components.dataplane.networks.getD []) ++ rc.networks.getD []).map (·.resourceName) := by
  obtain ⟨kind, operatorName, rc0, enabled, hr, rfl⟩ := h
  have hk : kind = .dataplane := (resolveBoxComponent_ok hr).kind.symm.trans hkind
  subst hk
  unfold resolveBoxComponent at hr
  obtain ⟨box, -, hr⟩ := bind_eq_ok.1 hr
  dsimp only at hr
  split at hr
  · cases hr
  · obtain ⟨sidecars, -, hr⟩ := bind_eq_ok.1 hr
    obtain ⟨⟨networks, resources⟩, hn, hr⟩ := bind_eq_ok.1 hr
    cases hr
    unfold resolveDataplaneNetworks at hn
    obtain ⟨-, hn⟩ := seq_ok.1 hn
    obtain ⟨-, hn⟩ := seq_ok.1 hn
    cases hn
    exact ⟨rfl, fun r => mem_sortedDistinct⟩

/-! ## The Deployment -/

/-- An attachment with the namespace it is looked up in. -/
def NetworkAttachment.inNamespace (n : NetworkAttachment) (ns : String) : NetworkAttachment :=
  { n with ns := if n.ns = "" then ns else n.ns }

/-- The resources of the primary container: the devices of the attachments over what was there. -/
def withDevices (networks : List NetworkAttachment) (c : Container) : Container :=
  { c with resources :=
      { requests := c.resources.requests.override (networks.foldl addResource ∅)
        limits := c.resources.limits.override (networks.foldl addResource ∅) } }

end YanetOperator
