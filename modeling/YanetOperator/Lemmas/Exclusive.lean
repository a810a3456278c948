import Mathlib.Data.String.Basic
import YanetOperator.Controller.YanetReconciler

/-!
# Who stands in the way on a node

`yanetPrecedes` is a strict total order on installations with different keys, and the conflicts and the nodes to release of
`validateExclusiveNodes` are described pair by pair.
-/

namespace YanetOperator

/-! ## The order of installations -/

/-- The text `yanetPrecedes` compares installations of one age by. -/
def keyText (y : Yanet) : String := y.metadata.ns ++ "/" ++ y.metadata.name

theorem yanetPrecedes_iff (left right : Yanet) :
    yanetPrecedes left right = true ↔ left.metadata.creationTimestamp < right.metadata.creationTimestamp ∨
      (left.metadata.creationTimestamp = right.metadata.creationTimestamp ∧ keyText left < keyText right) := by
  unfold yanetPrecedes
  by_cases h : left.metadata.creationTimestamp = right.metadata.creationTimestamp
  · simp [h, keyText]
  · simp [h]

theorem yanetPrecedes_irrefl (y : Yanet) : yanetPrecedes y y = false := by
  rw [← Bool.not_eq_true, yanetPrecedes_iff]
  rintro (h | ⟨-, h⟩)
  · exact lt_irrefl _ h
  · exact lt_irrefl _ h

theorem yanetPrecedes_trans {a b c : Yanet} (hab : yanetPrecedes a b = true) (hbc : yanetPrecedes b c = true) :
    yanetPrecedes a c = true := by
  rw [yanetPrecedes_iff] at *
  rcases hab with hab | ⟨hab, hab'⟩ <;> rcases hbc with hbc | ⟨hbc, hbc'⟩
  · exact .inl (hab.trans hbc)
  · exact .inl (hbc ▸ hab)
  · exact .inl (hab ▸ hbc)
  · exact .inr ⟨hab.trans hbc, hab'.trans hbc'⟩

/-- The key of an installation is read off its text when the namespace has no slash. -/
theorem keyText_inj {a b : Yanet} (ha : '/' ∉ a.metadata.ns.toList) (hb : '/' ∉ b.metadata.ns.toList)
    (h : keyText a = keyText b) : keyOf .yanet a = keyOf .yanet b := by
  obtain ⟨hns, hname⟩ := Text.slash_inj ha hb h
  show Key.mk _ _ = Key.mk _ _
  rw [Key.mk.injEq]
  exact ⟨hns, hname⟩

theorem yanetPrecedes_total {a b : Yanet} (ha : '/' ∉ a.metadata.ns.toList) (hb : '/' ∉ b.metadata.ns.toList)
    (hne : keyOf .yanet a ≠ keyOf .yanet b) : yanetPrecedes a b = true ∨ yanetPrecedes b a = true := by
  rw [yanetPrecedes_iff, yanetPrecedes_iff]
  rcases lt_trichotomy a.metadata.creationTimestamp b.metadata.creationTimestamp with h | h | h
  · exact .inl (.inl h)
  · rcases lt_trichotomy (keyText a) (keyText b) with h' | h' | h'
    · exact .inl (.inr ⟨h, h'⟩)
    · exact absurd (keyText_inj ha hb h') hne
    · exact .inr (.inr ⟨h.symm, h'⟩)
  · exact .inr (.inl h)

/-! ## Conflicts -/

variable {deployments : List Deployment} {installations : List Yanet} {y : Yanet} {nodes : List Node}

theorem mem_nodeConflicts {other : Yanet} {node : Node} :
    (other, node) ∈ nodeConflicts deployments installations y nodes ↔
      other ∈ installations ∧ keyOf .yanet other ≠ keyOf .yanet y ∧ node ∈ nodes ∧
        nodeConflict deployments y other node = true := by
  simp only [nodeConflicts, List.mem_flatMap, List.mem_filter, List.mem_map, Prod.mk.injEq, decide_eq_true_eq]
  constructor
  · rintro ⟨other, ⟨hother, hne⟩, node, ⟨hnode, hconflict⟩, rfl, rfl⟩
    exact ⟨hother, hne, hnode, hconflict⟩
  · rintro ⟨hother, hne, hnode, hconflict⟩
    exact ⟨other, ⟨hother, hne⟩, node, ⟨hnode, hconflict⟩, rfl, rfl⟩

/-- Of two installations with a workload on the node the one that comes first wins. -/
theorem currentWins_both {other : Yanet} {node : Node} (h : hasWorkload deployments y node.metadata.name = true)
    (h' : hasWorkload deployments other node.metadata.name = true) :
    currentWins deployments y other node = yanetPrecedes y other := by
  simp [currentWins, h, h']

/-- An installation with a workload on the node wins over one without. -/
theorem currentWins_alone {other : Yanet} {node : Node} (h : hasWorkload deployments y node.metadata.name = true)
    (h' : hasWorkload deployments other node.metadata.name = false) : currentWins deployments y other node = true := by
  simp [currentWins, h, h']

/-- An installation without a workload on the node loses against one with. -/
theorem currentWins_without {other : Yanet} {node : Node} (h : hasWorkload deployments y node.metadata.name = false)
    (h' : hasWorkload deployments other node.metadata.name = true) : currentWins deployments y other node = false := by
  simp [currentWins, h, h']

/-- An installation with a workload that wins stands in the way. -/
theorem nodeConflict_of_workload {other : Yanet} {node : Node} (h : hasWorkload deployments other node.metadata.name = true)
    (hloses : currentWins deployments y other node = false) : nodeConflict deployments y other node = true := by
  simp [nodeConflict, claimsNode, h, hloses]

/-- The nodes to release: those with a workload that another installation wins, and those with a workload that are not
selected. -/
theorem mem_cleanupNodeNames {name : String} :
    name ∈ cleanupNodeNames deployments installations y nodes ↔
      (∃ other ∈ installations, keyOf .yanet other ≠ keyOf .yanet y ∧ ∃ node ∈ nodes, node.metadata.name = name ∧
        nodeConflict deployments y other node = true ∧ hasWorkload deployments y node.metadata.name = true ∧
        currentWins deployments y other node = false) ∨
      ∃ d ∈ deployments, nodeLabel d.metadata = name ∧ controlledByYanet d.metadata y = true ∧
        name ∉ nodes.map (·.metadata.name) := by
  unfold cleanupNodeNames
  rw [List.mem_append, List.mem_map, List.mem_map]
  refine or_congr ⟨?_, ?_⟩ ⟨?_, ?_⟩
  · rintro ⟨⟨other, node⟩, h, rfl⟩
    rw [List.mem_filter, mem_nodeConflicts] at h
    obtain ⟨⟨hother, hne, hnode, hconflict⟩, hlost⟩ := h
    rw [Bool.and_eq_true, Bool.not_eq_true'] at hlost
    exact ⟨other, hother, hne, node, hnode, rfl, hconflict, hlost⟩
  · rintro ⟨other, hother, hne, node, hnode, rfl, hconflict, hlost⟩
    refine ⟨(other, node), List.mem_filter.2 ⟨mem_nodeConflicts.2 ⟨hother, hne, hnode, hconflict⟩, ?_⟩, rfl⟩
    rw [Bool.and_eq_true, Bool.not_eq_true']
    exact hlost
  · rintro ⟨d, h, rfl⟩
    rw [List.mem_filter, Bool.and_eq_true, decide_eq_true_eq] at h
    exact ⟨d, h.1, rfl, h.2.2, h.2.1⟩
  · rintro ⟨d, hd, rfl, hcontrolled, hnot⟩
    exact ⟨d, List.mem_filter.2 ⟨hd, by rw [Bool.and_eq_true, decide_eq_true_eq]; exact ⟨hnot, hcontrolled⟩⟩, rfl⟩

end YanetOperator
