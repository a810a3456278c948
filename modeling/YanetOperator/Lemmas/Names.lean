import YanetOperator.Manifests.Identity

/-!
# Names

What the names the operator builds have in common: the key of a role or a node is eight hexadecimal digits, and a scoped name
starts with the prefix of the operator's containers and the key of its role.
-/

namespace YanetOperator

theorem shortNodeKey_length (Γ : Platform) (s : String) : (Γ.shortNodeKey s).length = 8 := (Γ.shortNodeKey_hex s).1

theorem getLast_shortNodeKey (Γ : Platform) (s : String) : ∀ c ∈ (Γ.shortNodeKey s).toList.getLast?, c ≠ '-' := by
  intro c hc
  have h := List.all_eq_true.1 (Γ.shortNodeKey_hex s).2 c (List.mem_of_getLast? hc)
  rintro rfl
  revert h
  decide

theorem toLowerKebabFrom_eq {cs : List Char} (h : ∀ c ∈ cs, Text.isUpper c = false) (started : Bool) :
    toLowerKebabFrom started cs = cs := by
  induction cs generalizing started with
  | nil => rfl
  | cons c cs ih =>
    rw [toLowerKebabFrom, if_neg (by simp [h c (by simp)]), ih (fun x hx => h x (by simp [hx]))]

/-- A label is in kebab case already. -/
theorem toLowerKebab_label {s : String} (h : Text.isDNS1123Label s = []) : toLowerKebab s = s := by
  rw [toLowerKebab, toLowerKebabFrom_eq (Text.not_isUpper_of_label h), String.ofList_toList]

/-! ## Labels of names -/

/-- A character of a label. -/
def labelChar (c : Char) : Bool := Text.isLowerAlnum c || c == '-'

/-- The characters of a label, with a letter or a digit at the end. -/
def LabelEnd (s : String) : Prop := (∃ z ∈ s.toList.getLast?, Text.isLowerAlnum z = true) ∧ ∀ c ∈ s.toList, labelChar c = true

theorem LabelEnd.of_label {s : String} (h : Text.isDNS1123Label s = []) : LabelEnd s :=
  (Text.isWord_iff.1 (Text.isDNS1123Label_eq_nil.1 h).2).2

/-- A text over the characters of a label before the end of one. -/
theorem LabelEnd.append {s t : String} (hs : ∀ c ∈ s.toList, labelChar c = true) (ht : LabelEnd t) : LabelEnd (s ++ t) := by
  obtain ⟨⟨z, hz, hlast⟩, ht⟩ := ht
  rw [LabelEnd, String.toList_append]
  refine ⟨⟨z, ?_, hlast⟩, fun c hc => ?_⟩
  · rw [List.getLast?_append, Option.mem_def.1 hz]
    rfl
  · rcases List.mem_append.1 hc with hc | hc
    · exact hs c hc
    · exact ht c hc

/-- A nonempty text of letters and digits ends a label. -/
theorem LabelEnd.of_alnum {s : String} (hne : s.toList ≠ []) (h : ∀ c ∈ s.toList, Text.isLowerAlnum c = true) : LabelEnd s :=
  ⟨⟨s.toList.getLast hne, List.getLast?_eq_some_getLast hne, h _ (List.getLast_mem hne)⟩,
    fun c hc => by rw [labelChar, h c hc, Bool.true_or]⟩

theorem key_alnum (Γ : Platform) (s : String) : ∀ c ∈ (Γ.shortNodeKey s).toList, Text.isLowerAlnum c = true := by
  intro c hc
  have hdigit := List.all_eq_true.1 (Γ.shortNodeKey_hex s).2 c hc
  simp only [Bool.or_eq_true, Bool.and_eq_true, decide_eq_true_eq] at hdigit
  rcases hdigit with hdigit | ⟨ha, hf⟩
  · rw [Text.isLowerAlnum, hdigit, Bool.or_true]
  · have hz : c ≤ 'z' := hf.trans (by decide)
    simp [Text.isLowerAlnum, Text.isLower, ha, hz]

theorem LabelEnd.key (Γ : Platform) (s : String) : LabelEnd (Γ.shortNodeKey s) := by
  refine LabelEnd.of_alnum (fun hnil => ?_) (key_alnum Γ s)
  have hlength := shortNodeKey_length Γ s
  rw [← String.length_toList, hnil] at hlength
  cases hlength

theorem LabelEnd.number (i : Nat) : LabelEnd (toString i) := by
  have hdigits : (toString i).toList = Nat.toDigits 10 i := by rw [Nat.toString_eq_repr, Nat.toList_repr]
  refine LabelEnd.of_alnum (by rw [hdigits]; exact Nat.toDigits_ne_nil) fun c hc => ?_
  rw [hdigits] at hc
  have hdigit := Nat.isDigit_of_mem_toDigits (by decide) (by decide) hc
  have : Text.isDigit c = true := by
    simpa [Char.isDigit, Text.isDigit, Char.le_def, UInt32.le_iff_toNat_le] using hdigit
  rw [Text.isLowerAlnum, this, Bool.or_true]

/-- The end of the name of a Service of one NUMA domain. -/
def numaSuffix : Option Nat → String
  | some i => "-numa" ++ toString i
  | none => ""

/-! ## Scoped names -/

/-- A scoped name starts with the prefix of the operator's containers and the key of the role. -/
theorem scopedOperatorName_isPrefix (Γ : Platform) (operator name : String) :
    (operatorContainerPrefix ++ Γ.shortNodeKey operator).toList <+: (scopedOperatorName Γ operator name).toList := by
  have hlen : (operatorContainerPrefix ++ Γ.shortNodeKey operator).length ≤ 54 := by
    rw [String.length_append, shortNodeKey_length]
    decide
  have hlast : ∀ c ∈ (operatorContainerPrefix ++ Γ.shortNodeKey operator).toList.getLast?, c ≠ '-' := by
    intro c hc
    rw [String.toList_append, List.getLast?_append_of_ne_nil _ (by
      intro h
      have := shortNodeKey_length Γ operator
      rw [← String.length_toList, h] at this
      simp at this)] at hc
    exact getLast_shortNodeKey Γ operator c hc
  have hw : ∀ a b : String, (operatorContainerPrefix ++ Γ.shortNodeKey operator).toList <+:
      (operatorContainerPrefix ++ Γ.shortNodeKey operator ++ a ++ b).toList := by
    intro a b
    rw [String.toList_append (t := b), String.toList_append (t := a)]
    exact (List.prefix_append _ _).trans (List.prefix_append _ _)
  unfold scopedOperatorName
  generalize operatorContainerPrefix ++ Γ.shortNodeKey operator = w at hlen hlast hw
  dsimp only
  split
  · rw [String.toList_append, String.toList_append]
    exact (Text.isPrefix_trimRightDash_take (hw _ _) hlen hlast).trans
      ((List.prefix_append _ _).trans (List.prefix_append _ _))
  · exact hw _ _

/-- Two roles with different keys never share a scoped name. -/
theorem shortNodeKey_eq_of_scoped {Γ : Platform} {s s' n n' : String} (h : scopedOperatorName Γ s n = scopedOperatorName Γ s' n') :
    Γ.shortNodeKey s = Γ.shortNodeKey s' := by
  have h1 := scopedOperatorName_isPrefix Γ s n
  have h2 := scopedOperatorName_isPrefix Γ s' n'
  rw [← h] at h2
  have hlen : (operatorContainerPrefix ++ Γ.shortNodeKey s).toList.length =
      (operatorContainerPrefix ++ Γ.shortNodeKey s').toList.length := by
    rw [String.length_toList, String.length_toList, String.length_append, String.length_append, shortNodeKey_length,
      shortNodeKey_length]
  have heq := (List.prefix_of_prefix_length_le h1 h2 hlen.le).eq_of_length hlen
  rw [String.toList_append, String.toList_append, List.append_cancel_left_eq] at heq
  exact String.toList_injective heq

/-- Every scoped name carries the prefix of the operator's containers. -/
theorem isManagedNativeContainer_scoped (Γ : Platform) (operator name : String) :
    isManagedNativeContainer (scopedOperatorName Γ operator name) = true := by
  rw [isManagedNativeContainer, Text.hasPrefix_iff]
  refine List.IsPrefix.trans ?_ (scopedOperatorName_isPrefix Γ operator name)
  rw [String.toList_append]
  exact List.prefix_append _ _

/-- A text that starts with the word of the operator's containers and goes on to the end of a label is a label, if it is short. -/
theorem dns1123Label_op {s rest : String} (hs : "op".toList <+: s.toList) (hchars : ∀ c ∈ s.toList, labelChar c = true)
    (hrest : LabelEnd rest) (hlength : (s ++ rest).length ≤ 63) : Text.isDNS1123Label (s ++ rest) = [] := by
  refine Text.isDNS1123Label_eq_nil.2 ⟨hlength, ?_⟩
  rw [String.toList_append]
  obtain ⟨tail, htail⟩ := hs
  refine Text.isWord_append ⟨'o', ?_, by decide⟩ hchars hrest.1 hrest.2
  rw [← htail]
  rfl

/-- A scoped label is a label, shortened or not. -/
theorem scopedOperatorName_label (Γ : Platform) (operator : String) {name : String} (h : Text.isDNS1123Label name = []) :
    Text.isDNS1123Label (scopedOperatorName Γ operator name) = [] := by
  have hdash : ∀ c ∈ "-".toList, labelChar c = true := List.all_eq_true.1 (by decide)
  have hop : ∀ c ∈ "op".toList, labelChar c = true := List.all_eq_true.1 (by decide)
  have hrest : LabelEnd ("-" ++ (Γ.shortNodeKey operator ++ ("-" ++ name))) :=
    .append hdash (.append (LabelEnd.key Γ operator).2 (.append hdash (.of_label h)))
  have hlong : operatorContainerPrefix ++ Γ.shortNodeKey operator ++ "-" ++ name =
      "op" ++ ("-" ++ (Γ.shortNodeKey operator ++ ("-" ++ name))) := by
    have hword : operatorContainerPrefix = "op" ++ "-" := by decide
    rw [hword]
    simp only [String.append_assoc]
  unfold scopedOperatorName
  rw [hlong]
  dsimp only
  split
  · have hstart : "op".toList <+: ("op" ++ ("-" ++ (Γ.shortNodeKey operator ++ ("-" ++ name)))).toList := by
      rw [String.toList_append]
      exact List.prefix_append _ _
    have hchars := (LabelEnd.append hop hrest).2
    generalize "op" ++ ("-" ++ (Γ.shortNodeKey operator ++ ("-" ++ name))) = long at hstart hchars
    have hlength := Text.length_trimRightDash_take_le long 54
    rw [String.append_assoc]
    refine dns1123Label_op (Text.isPrefix_trimRightDash_take hstart (by decide) (by simp))
      (fun c hc => hchars c (Text.mem_trimRightDash_take hc)) (.append hdash (.key Γ long)) ?_
    rw [String.length_append, String.length_append, shortNodeKey_length]
    have hone : "-".length = 1 := by decide
    omega
  · next hshort => exact dns1123Label_op (List.prefix_refl _) hop hrest (Nat.le_of_not_gt hshort)

theorem colocatedTargetPort_toList (Γ : Platform) (operator : String) {listener : String} (h : listener = "grpc" ∨ listener = "http") :
    ∃ l : Char, Text.isLower l = true ∧
      (colocatedTargetPort Γ operator listener).toList = ['o', 'p'] ++ '-' :: ((Γ.shortNodeKey operator).toList ++ ['-', l]) := by
  have htext (l : Char) (htake : (Text.take listener 1).toList = [l]) : (colocatedTargetPort Γ operator listener).toList =
      ['o', 'p'] ++ '-' :: ((Γ.shortNodeKey operator).toList ++ ['-', l]) := by
    have hop : operatorContainerPrefix.toList = ['o', 'p', '-'] := by decide
    have hdash : "-".toList = ['-'] := by decide
    rw [colocatedTargetPort, String.toList_append, String.toList_append, String.toList_append, htake, hop, hdash]
    simp
  rcases h with rfl | rfl
  · exact ⟨'g', by decide, htext 'g' (by decide)⟩
  · exact ⟨'h', by decide, htext 'h' (by decide)⟩

/-- The target port of a composed listener is a port name. -/
theorem colocatedTargetPort_valid (Γ : Platform) (operator : String) {listener : String} (h : listener = "grpc" ∨ listener = "http") :
    Text.isValidPortName (colocatedTargetPort Γ operator listener) = [] := by
  obtain ⟨l, hl, hlist⟩ := colocatedTargetPort_toList Γ operator h
  have hlength := shortNodeKey_length Γ operator
  rw [← String.length_toList] at hlength
  have hkey := key_alnum Γ operator
  generalize (Γ.shortNodeKey operator).toList = key at hlist hlength hkey
  have hdash : ∀ c : Char, Text.isLowerAlnum c = true → c ≠ '-' := by
    rintro c hc rfl
    exact absurd hc (by decide)
  have hl' : Text.isLowerAlnum l = true := by rw [Text.isLowerAlnum, hl, Bool.true_or]
  have hdouble : Text.hasDoubleDash (['o', 'p'] ++ '-' :: (key ++ ['-', l])) = false := by
    rw [Text.hasDoubleDash_append (by simp)]
    cases key with
    | nil => cases hlength
    | cons k ks =>
      have hk : k ≠ '-' := hdash k (hkey k (by simp))
      have hrest := Text.hasDoubleDash_append (v := ['-', l]) fun c hc => hdash c (hkey c hc)
      rw [List.cons_append] at hrest
      simp [Text.hasDoubleDash, hk, hrest, hdash l hl']
  have hchars : ∀ c ∈ ['o', 'p'] ++ '-' :: (key ++ ['-', l]), (Text.isLowerAlnum c || c == '-') = true := by
    intro c hc
    simp only [List.mem_append, List.mem_cons, List.not_mem_nil, or_false] at hc
    rcases hc with (rfl | rfl) | rfl | hc | rfl | rfl
    · decide
    · decide
    · decide
    · rw [hkey c hc, Bool.true_or]
    · decide
    · rw [hl', Bool.true_or]
  have hcount : (['o', 'p'] ++ '-' :: (key ++ ['-', l])).length = 13 := by simp [hlength]
  have hend : (['o', 'p'] ++ '-' :: (key ++ ['-', l])).getLast? = some l := by
    have hsplit : ['o', 'p'] ++ '-' :: (key ++ ['-', l]) = (['o', 'p'] ++ '-' :: (key ++ ['-'])) ++ [l] := by simp
    rw [hsplit, List.getLast?_concat]
  unfold Text.isValidPortName
  rw [← String.length_toList, hlist, hcount, hdouble, hend, List.all_eq_true.2 hchars]
  simp [hdash l hl', show Text.isLower 'o' = true by decide]

/-! ## Labels -/

/-- No label of the identity is a membership label. -/
theorem not_hasPrefix_of_mem_identity {k : String} (h : k ∈ workloadIdentityLabels) :
    Text.hasPrefix k operatorMembershipPrefix = false := by
  simp only [workloadIdentityLabels, List.mem_cons, List.not_mem_nil, or_false] at h
  rcases h with rfl | rfl | rfl | rfl | rfl | rfl <;> decide

theorem membershipLabel_hasPrefix (Γ : Platform) (operator : String) :
    Text.hasPrefix (operatorMembershipLabel Γ operator) operatorMembershipPrefix = true :=
  Text.hasPrefix_append _ _

theorem membershipLabel_reserved (Γ : Platform) (operator : String) :
    isReservedLabel (operatorMembershipLabel Γ operator) = true := by
  rw [isReservedLabel, membershipLabel_hasPrefix, Bool.or_true]

theorem membershipLabel_inj {Γ : Platform} {a b : String} (h : operatorMembershipLabel Γ a = operatorMembershipLabel Γ b) :
    Γ.shortNodeKey a = Γ.shortNodeKey b := by
  unfold operatorMembershipLabel at h
  have h' := congrArg String.toList h
  rw [String.toList_append, String.toList_append, List.append_cancel_left_eq] at h'
  exact String.toList_injective h'

end YanetOperator
