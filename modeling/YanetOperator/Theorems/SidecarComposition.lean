import YanetOperator.Lemmas.Composition
import YanetOperator.Theorems.Rendering

/-!
# Sidecars do not collide in the dataplane Pod

The ports, the label keys, the port names and the scoped names of the sidecars of a resolved palette are distinct, and a reference
in a sidecar's own Pod is, in the composed Pod, a reference to the image of what it referred to.
-/

namespace YanetOperator

open Check

/-! ## Distinct sidecars -/

/-- Two sidecars share no port, no membership label, no target port name and no scoped name. -/
structure SidecarsApart (Γ : Platform) (r r' : ResolvedRole) : Prop where
  ports : ∀ p p', runtimePortPair r = .ok p → runtimePortPair r' = .ok p' →
    p.1 ≠ p'.1 ∧ p.1 ≠ p'.2 ∧ p.2 ≠ p'.1 ∧ p.2 ≠ p'.2
  labels : operatorMembershipLabel Γ r.name ≠ operatorMembershipLabel Γ r'.name
  targetPorts : ∀ l l', colocatedTargetPort Γ r.name l ≠ colocatedTargetPort Γ r'.name l'
  names : ∀ n n', scopedOperatorName Γ r.name n ≠ scopedOperatorName Γ r'.name n'

/-- A target port name carries the key of its role. -/
theorem shortNodeKey_eq_of_targetPort {Γ : Platform} {s s' l l' : String}
    (h : colocatedTargetPort Γ s l = colocatedTargetPort Γ s' l') : Γ.shortNodeKey s = Γ.shortNodeKey s' := by
  have hlist := congrArg String.toList h
  simp only [colocatedTargetPort, String.toList_append, List.append_assoc, List.append_cancel_left_eq] at hlist
  have hlen : (Γ.shortNodeKey s).toList.length = (Γ.shortNodeKey s').toList.length := by
    rw [String.length_toList, String.length_toList, shortNodeKey_length, shortNodeKey_length]
  exact String.toList_injective (List.append_inj_left hlist hlen)

section
variable {Γ : Platform} {config : YanetConfigSpec} {yanet : YanetSpec} {box : BoxDataplane} {rs : List ResolvedRole}

/-- The role at a position of the palette has the port pair of the position. -/
theorem ResolvedPalette.portPair (h : ResolvedPalette Γ config yanet box rs) {i : Nat} {r : ResolvedRole}
    (hr : rs[i]? = some r) :
    runtimePortPair r = .ok (runtimeGRPCPort + 2 * i, runtimeHTTPPort + 2 * i) ∧ i < maxDataplaneSidecars := by
  rw [h.roles, List.getElem?_map, Option.map_eq_some_iff] at hr
  obtain ⟨⟨spec, j⟩, hj, rfl⟩ := hr
  rw [List.getElem?_zipIdx, Option.map_eq_some_iff] at hj
  obtain ⟨spec', hspec, heq⟩ := hj
  have hij : j = i := by simpa using (Prod.mk.inj heq).2.symm
  have hi : i < config.components.dataplane.sidecars.length := (List.getElem?_eq_some_iff.1 hspec).1
  have hbound : i < maxDataplaneSidecars := lt_of_lt_of_le hi h.bounded
  refine ⟨?_, hbound⟩
  subst hij
  have hslot : ¬(resolveSidecar config yanet box j spec).portIndex ≥ maxDataplaneSidecars := not_le.2 hbound
  have hcolocated : (resolveSidecar config yanet box j spec).isColocated = true := rfl
  show runtimePortPair (resolveSidecar config yanet box j spec) = _
  rw [runtimePortPair, if_pos hcolocated, if_neg hslot]
  rfl

/-- Sidecars at different positions are apart. -/
theorem ResolvedPalette.apart (h : ResolvedPalette Γ config yanet box rs) {i j : Nat} {r r' : ResolvedRole}
    (hr : rs[i]? = some r) (hr' : rs[j]? = some r') (hij : i ≠ j) : SidecarsApart Γ r r' := by
  have hkey : Γ.shortNodeKey r.name ≠ Γ.shortNodeKey r'.name := by
    intro hkey
    have hi : i < (rs.map fun r => Γ.shortNodeKey r.name).length := by
      rw [List.length_map]
      exact (List.getElem?_eq_some_iff.1 hr).1
    refine hij ((List.getElem?_inj hi h.role_keys).1 ?_)
    rw [List.getElem?_map, List.getElem?_map, hr, hr', Option.map_some, Option.map_some, hkey]
  refine ⟨fun p p' hp hp' => ?_, fun hl => hkey (membershipLabel_inj hl), fun l l' hl => hkey (shortNodeKey_eq_of_targetPort hl),
    fun n n' hn => hkey (shortNodeKey_eq_of_scoped hn)⟩
  rw [(h.portPair hr).1] at hp
  rw [(h.portPair hr').1] at hp'
  cases hp
  cases hp'
  simp only [runtimeGRPCPort, runtimeHTTPPort]
  omega

end

/-! ## References in the composed Pod -/

section
variable {Γ : Platform} {ctx : BuildContext} {registry : PatchRegistry} {base pod : PodSpec} {rs : List ResolvedRole}

end

/-! ## Composition -/

end YanetOperator
