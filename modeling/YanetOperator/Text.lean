import Mathlib.Data.List.DropRight
import Mathlib.Data.List.Basic
import Mathlib.Data.String.Basic

/-!
# Names

The string functions of Go's standard library and the name checks of the Kubernetes validation package that the operator
uses. A Go string is a sequence of bytes; a character of a string stands for one byte here, so a length counts bytes and a
slice cuts between bytes.
-/

namespace Text

/-! ## Strings -/

/-- `strings.HasPrefix`. -/
def hasPrefix (s p : String) : Bool := p.toList.isPrefixOf s.toList

/-- `strings.HasSuffix`. -/
def hasSuffix (s p : String) : Bool := p.toList.isSuffixOf s.toList

/-- `strings.TrimPrefix`. -/
def trimPrefix (s p : String) : String := if hasPrefix s p then String.ofList (s.toList.drop p.length) else s

/-- The slice `s[:n]`. -/
def take (s : String) (n : Nat) : String := String.ofList (s.toList.take n)

/-- `strings.TrimRight(s, "-")`. -/
def trimRightDash (s : String) : String := String.ofList (s.toList.rdropWhile (· == '-'))

/-- `strings.Join`. -/
def join (sep : String) (parts : List String) : String := sep.intercalate parts

/-- The loop of `strings.ReplaceAll` over the rest of the text, after the characters still to be skipped. -/
def replaceFrom (old new : List Char) : Nat → List Char → List Char
  | _, [] => []
  | 0, c :: cs => if old.isPrefixOf (c :: cs) then new ++ replaceFrom old new (old.length - 1) cs else c :: replaceFrom old new 0 cs
  | skip + 1, _ :: cs => replaceFrom old new skip cs

/-- `strings.ReplaceAll` for a nonempty text to replace. -/
def replaceAll (s old new : String) : String := String.ofList (replaceFrom old.toList new.toList 0 s.toList)

/-- The verb `%q` on a string without characters to escape. -/
def quote (s : String) : String := "\"" ++ s ++ "\""

/-- The verb `%v` on a list of strings. -/
def bracketed (parts : List String) : String := "[" ++ join " " parts ++ "]"

theorem hasPrefix_iff {s p : String} : hasPrefix s p = true ↔ p.toList <+: s.toList := by
  rw [hasPrefix, List.isPrefixOf_iff_prefix]

theorem hasPrefix_append (p s : String) : hasPrefix (p ++ s) p = true := by
  rw [hasPrefix_iff, String.toList_append]
  exact List.prefix_append _ _

theorem length_take (s : String) (n : Nat) : (take s n).length = min n s.length := by
  simp [take, ← String.length_toList]

/-- Trimming the end of a text that starts with a word keeps the word, when its last character is not trimmed. -/
theorem isPrefix_rdropWhile {p : Char → Bool} {w rest : List Char} (hlast : ∀ c ∈ w.getLast?, p c = false) :
    w <+: (w ++ rest).rdropWhile p := by
  rw [List.rdropWhile, List.reverse_append, List.dropWhile_append]
  split
  · have hw : w.reverse.dropWhile p = w.reverse := by
      rw [List.dropWhile_eq_self_iff]
      intro hl
      have := hlast (w.reverse[0]) (by simp [List.getLast?_eq_getElem?])
      simpa using this
    simp [hw]
  · rw [List.reverse_append, List.reverse_reverse]
    exact List.prefix_append _ _

/-- A shortened text `s[:n]` without its trailing dashes starts with a word that `s` starts with, when the word is short enough
and does not end in a dash. -/
theorem isPrefix_trimRightDash_take {w s : String} {n : Nat} (h : w.toList <+: s.toList) (hn : w.length ≤ n)
    (hlast : ∀ c ∈ w.toList.getLast?, c ≠ '-') : w.toList <+: (trimRightDash (take s n)).toList := by
  obtain ⟨rest, hrest⟩ := h
  rw [trimRightDash, take, String.toList_ofList, String.toList_ofList, ← hrest, List.take_append,
    List.take_of_length_le (by rwa [String.length_toList])]
  exact isPrefix_rdropWhile fun c hc => by simpa using hlast c hc

/-- Two texts in a row are read back when the length of the first is known. -/
theorem append_inj {a b a' b' : String} (h : a ++ b = a' ++ b') (hlength : a.length = a'.length) : a = a' ∧ b = b' := by
  have hlist : a.toList ++ b.toList = a'.toList ++ b'.toList := by rw [← String.toList_append, ← String.toList_append, h]
  obtain ⟨ha, hb⟩ := List.append_inj hlist (by rw [String.length_toList, String.length_toList, hlength])
  exact ⟨String.toList_injective ha, String.toList_injective hb⟩

/-- A number is read back from its text. -/
theorem toString_inj {i j : Nat} (h : toString i = toString j) : i = j := by
  have hd : Nat.toDigits 10 i = Nat.toDigits 10 j := by
    simpa only [Nat.toString_eq_repr, Nat.toList_repr] using congrArg String.toList h
  rw [← Nat.ofDigitChars_ten_toDigits (n := i), hd, Nat.ofDigitChars_ten_toDigits]

/-! ## Name checks -/

/-- A lower-case letter. -/
def isLower (c : Char) : Bool := decide ('a' ≤ c) && decide (c ≤ 'z')

/-- A digit. -/
def isDigit (c : Char) : Bool := decide ('0' ≤ c) && decide (c ≤ '9')

/-- An upper-case letter. -/
def isUpper (c : Char) : Bool := decide ('A' ≤ c) && decide (c ≤ 'Z')

/-- `[a-z0-9]`. -/
def isLowerAlnum (c : Char) : Bool := isLower c || isDigit c

/-- `[A-Za-z0-9]`. -/
def isAlnum (c : Char) : Bool := isLowerAlnum c || isUpper c

/-- A nonempty word over `inner` that starts with `first` and ends with `last`: `first(inner*last)?`, for classes with
`first` and `last` inside `inner`. -/
def isWord (first inner last : Char → Bool) (w : List Char) : Bool :=
  match w.head?, w.getLast? with
  | some a, some z => first a && last z && w.all inner
  | _, _ => false

/-- The expression `[a-z0-9]([-a-z0-9]*[a-z0-9])?`. -/
def dns1123Label (w : List Char) : Bool := isWord isLowerAlnum (fun c => isLowerAlnum c || c == '-') isLowerAlnum w

/-- The expression `[a-z]([-a-z0-9]*[a-z0-9])?`. -/
def dns1035Label (w : List Char) : Bool :=
  isWord isLower (fun c => isLowerAlnum c || c == '-') isLowerAlnum w

/-- A dot-separated sequence of words of `dns1123Label`. -/
def dns1123Subdomain (w : List Char) : Bool := (w.splitOn '.').all dns1123Label

/-- The expression `([A-Za-z0-9][-A-Za-z0-9_.]*)?[A-Za-z0-9]`. -/
def qualifiedPart (w : List Char) : Bool :=
  isWord isAlnum (fun c => isAlnum c || c == '-' || c == '_' || c == '.') isAlnum w

/-- `MaxLenError`. -/
def maxLenError (n : Nat) : String := "must be no more than " ++ toString n ++ " characters"

/-- `RegexError`. -/
def regexError (msg regex : String) (examples : List String) : String :=
  msg ++ " (e.g. " ++ join " or " (examples.map fun e => "'" ++ e ++ "', ") ++ "regex used for validation is '" ++ regex ++ "')"

/-- `validation.IsDNS1123Label`. -/
def isDNS1123Label (s : String) : List String :=
  (if s.length > 63 then [maxLenError 63] else []) ++
  (if dns1123Label s.toList then [] else
    if dns1123Subdomain s.toList then ["must not contain dots"] else
    [regexError ("a lowercase RFC 1123 label must consist of lower case alphanumeric characters or '-', " ++
      "and must start and end with an alphanumeric character") "[a-z0-9]([-a-z0-9]*[a-z0-9])?" ["my-name", "123-abc"]])

/-- `validation.IsDNS1123Subdomain`. -/
def isDNS1123Subdomain (s : String) : List String :=
  (if s.length > 253 then [maxLenError 253] else []) ++
  (if dns1123Subdomain s.toList then [] else
    [regexError ("a lowercase RFC 1123 subdomain must consist of lower case alphanumeric characters, '-' or '.', " ++
      "and must start and end with an alphanumeric character")
      "[a-z0-9]([-a-z0-9]*[a-z0-9])?(\\.[a-z0-9]([-a-z0-9]*[a-z0-9])?)*" ["example.com"]])

/-- `validation.IsDNS1035Label`. -/
def isDNS1035Label (s : String) : List String :=
  (if s.length > 63 then [maxLenError 63] else []) ++
  (if dns1035Label s.toList then [] else
    [regexError ("a DNS-1035 label must consist of lower case alphanumeric characters or '-', " ++
      "start with an alphabetic character, and end with an alphanumeric character")
      "[a-z]([-a-z0-9]*[a-z0-9])?" ["my-name", "abc-123"]])

/-- Two hyphens in a row. -/
def hasDoubleDash : List Char → Bool
  | a :: b :: w => (a == '-' && b == '-') || hasDoubleDash (b :: w)
  | _ => false

/-- `validation.IsValidPortName`. -/
def isValidPortName (s : String) : List String :=
  (if s.length > 15 then [maxLenError 15] else []) ++
  (if s.length > 0 && s.toList.all (fun c => isLowerAlnum c || c == '-') then [] else
    ["must contain only alpha-numeric characters (a-z, 0-9), and hyphens (-)"]) ++
  (if s.toList.any isLower then [] else ["must contain at least one letter (a-z)"]) ++
  (if hasDoubleDash s.toList then ["must not contain consecutive hyphens"] else []) ++
  (if s.length > 0 && (s.toList.head? == some '-' || s.toList.getLast? == some '-')
    then ["must not begin or end with a hyphen"] else [])

/-- `validation.IsQualifiedName`: an optional prefix, a DNS-1123 subdomain, and a name part. -/
def isQualifiedName (s : String) : List String :=
  let namePart (w : List Char) : List String :=
    if w.isEmpty then ["name part must be non-empty"] else
      (if w.length > 63 then ["name part " ++ maxLenError 63] else []) ++
      (if qualifiedPart w then [] else
        ["name part " ++ regexError ("must consist of alphanumeric characters, '-', '_' or '.', " ++
          "and must start and end with an alphanumeric character") "([A-Za-z0-9][-A-Za-z0-9_.]*)?[A-Za-z0-9]"
          ["MyName", "my.name", "123-abc"]])
  match s.toList.splitOn '/' with
  | [name] => namePart name
  | [pre, name] =>
    (if pre.isEmpty then ["prefix part must be non-empty"]
      else (isDNS1123Subdomain (String.ofList pre)).map ("prefix part " ++ ·)) ++ namePart name
  | _ => ["a qualified name must consist of alphanumeric characters, '-', '_' or '.'"]

/-- Two texts around a slash are read off their concatenation when the first has no slash. -/
theorem slash_inj {a b c d : String} (ha : '/' ∉ a.toList) (hc : '/' ∉ c.toList) (h : a ++ "/" ++ b = c ++ "/" ++ d) :
    a = c ∧ b = d := by
  have hlist : a.toList ++ '/' :: b.toList = c.toList ++ '/' :: d.toList := by
    have := congrArg String.toList h
    simpa using this
  have hfirst : a.toList = c.toList := by
    have hleft (l r : List Char) (hl : '/' ∉ l) : (l ++ '/' :: r).takeWhile (· != '/') = l := by
      rw [List.takeWhile_append_of_pos fun c hc => by simpa using fun hcs : c = '/' => hl (hcs ▸ hc)]
      simp
    rw [← hleft _ b.toList ha, hlist, hleft _ _ hc]
  rw [hfirst, List.append_cancel_left_eq, List.cons_inj_right] at hlist
  exact ⟨String.toList_injective hfirst, String.toList_injective hlist⟩

theorem isDNS1123Label_eq_nil {s : String} :
    isDNS1123Label s = [] ↔ s.length ≤ 63 ∧ dns1123Label s.toList = true := by
  unfold isDNS1123Label
  by_cases h : s.length > 63 <;> by_cases h' : dns1123Label s.toList = true <;>
    by_cases h'' : dns1123Subdomain s.toList = true <;> simp [h, h', h''] <;> omega

/-- The characters of a word. -/
theorem isWord_all {first inner last : Char → Bool} {w : List Char} (h : isWord first inner last w = true) :
    ∀ c ∈ w, inner c = true := by
  unfold isWord at h
  split at h
  · rw [Bool.and_eq_true, List.all_eq_true] at h
    exact h.2
  · cases h

theorem isWord_iff {first inner last : Char → Bool} {w : List Char} :
    isWord first inner last w = true ↔
      (∃ a ∈ w.head?, first a = true) ∧ (∃ z ∈ w.getLast?, last z = true) ∧ ∀ c ∈ w, inner c = true := by
  unfold isWord
  cases w with
  | nil => simp
  | cons a w => cases hz : (a :: w).getLast? <;> simp_all [and_assoc]

/-- A text that starts as a word followed by one that ends as a word is a word. -/
theorem isWord_append {first inner last : Char → Bool} {u v : List Char} (hfirst : ∃ a ∈ u.head?, first a = true)
    (hu : ∀ c ∈ u, inner c = true) (hlast : ∃ z ∈ v.getLast?, last z = true) (hv : ∀ c ∈ v, inner c = true) :
    isWord first inner last (u ++ v) = true := by
  obtain ⟨a, ha, hfirst⟩ := hfirst
  obtain ⟨z, hz, hlast⟩ := hlast
  refine isWord_iff.2 ⟨⟨a, ?_, hfirst⟩, ⟨z, ?_, hlast⟩, fun c hc => ?_⟩
  · rw [List.head?_append, Option.mem_def.1 ha]
    rfl
  · rw [List.getLast?_append, Option.mem_def.1 hz]
    rfl
  · rcases List.mem_append.1 hc with hc | hc
    · exact hu c hc
    · exact hv c hc

theorem isDNS1123Subdomain_eq_nil {s : String} :
    isDNS1123Subdomain s = [] ↔ s.length ≤ 253 ∧ dns1123Subdomain s.toList = true := by
  unfold isDNS1123Subdomain
  by_cases h : s.length > 253 <;> by_cases h' : dns1123Subdomain s.toList = true <;> simp [h, h'] <;> omega

/-- The last label of a subdomain may be continued. -/
theorem dns1123Subdomain_append {u v : List Char} (hu : dns1123Subdomain u = true)
    (hlast : ∃ z ∈ v.getLast?, isLowerAlnum z = true) (hv : ∀ c ∈ v, (isLowerAlnum c || c == '-') = true) :
    dns1123Subdomain (u ++ v) = true := by
  have hdot : ∀ w : List Char, (∀ c ∈ w, (isLowerAlnum c || c == '-') = true) → '.' ∉ w := by
    intro w hw hmem
    exact absurd (hw '.' hmem) (by decide)
  have hlabel {w : List Char} (hw : dns1123Label w = true) : dns1123Label (w ++ v) = true :=
    isWord_append (isWord_iff.1 hw).1 (isWord_iff.1 hw).2.2 hlast hv
  unfold dns1123Subdomain at hu ⊢
  by_cases hmem : '.' ∈ u
  · -- split at the last dot
    obtain ⟨after, before, hu', hafter⟩ := List.eq_append_cons_of_mem (List.mem_reverse.2 hmem)
    have hsplit : u = before.reverse ++ '.' :: after.reverse := by
      rw [← List.reverse_reverse u, hu']
      simp
    have hafter' : '.' ∉ after.reverse := fun h => hafter (List.mem_reverse.1 h)
    have hjoin (w : List Char) (hw : '.' ∉ w) : (before.reverse ++ '.' :: w).splitOn '.' = before.reverse.splitOn '.' ++ [w] := by
      rw [← List.splitOn_eq_singleton hw]
      exact List.splitOnP_append_cons _ _ (by decide)
    rw [hsplit, hjoin _ hafter', List.all_append, List.all_cons, List.all_nil, Bool.and_true, Bool.and_eq_true] at hu
    rw [hsplit, List.append_assoc, List.cons_append, hjoin _ (fun h => (List.mem_append.1 h).elim hafter' (hdot v hv)),
      List.all_append, List.all_cons, List.all_nil, Bool.and_true, Bool.and_eq_true]
    exact ⟨hu.1, hlabel hu.2⟩
  · rw [List.splitOn_eq_singleton hmem, List.all_cons, List.all_nil, Bool.and_true] at hu
    rw [List.splitOn_eq_singleton (fun h => (List.mem_append.1 h).elim hmem (hdot v hv)), List.all_cons, List.all_nil, Bool.and_true]
    exact hlabel hu

/-- A word without dashes before a text adds no double dash. -/
theorem hasDoubleDash_append {w v : List Char} (hw : ∀ c ∈ w, c ≠ '-') : hasDoubleDash (w ++ v) = hasDoubleDash v := by
  induction w with
  | nil => rfl
  | cons c w ih =>
    have hc : c ≠ '-' := hw c (by simp)
    rw [List.cons_append, ← ih fun x hx => hw x (by simp [hx])]
    cases w ++ v with
    | nil => rfl
    | cons x xs => simp [hasDoubleDash, hc]

/-- Trimming dashes from a slice keeps only characters of the text. -/
theorem mem_trimRightDash_take {s : String} {n : Nat} {c : Char} (h : c ∈ (trimRightDash (take s n)).toList) : c ∈ s.toList := by
  rw [trimRightDash, take, String.toList_ofList, String.toList_ofList] at h
  exact List.mem_of_mem_take ((List.rdropWhile_prefix _ _).subset h)

theorem length_trimRightDash_take_le (s : String) (n : Nat) : (trimRightDash (take s n)).length ≤ n := by
  rw [← String.length_toList, trimRightDash, String.toList_ofList]
  calc ((take s n).toList.rdropWhile (· == '-')).length
      ≤ (take s n).toList.length := (List.rdropWhile_prefix _ _).length_le
    _ ≤ n := by
      rw [String.length_toList, length_take]
      exact Nat.min_le_left _ _

/-- A label has no upper-case letter. -/
theorem not_isUpper_of_label {s : String} (h : isDNS1123Label s = []) : ∀ c ∈ s.toList, isUpper c = false := by
  intro c hc
  have hi := isWord_all (isDNS1123Label_eq_nil.1 h).2 c hc
  simp only [isLowerAlnum, isLower, isDigit, isUpper, Bool.or_eq_true, Bool.and_eq_true, decide_eq_true_eq, beq_iff_eq,
    Bool.and_eq_false_iff, decide_eq_false_iff_not, Char.le_def, UInt32.le_iff_toNat_le] at hi ⊢
  rcases hi with (⟨hi, -⟩ | ⟨-, hi⟩) | rfl
  · exact Or.inr (fun hz => absurd (hi.trans hz) (by decide))
  · exact Or.inl (fun ha => absurd (ha.trans hi) (by decide))
  · exact Or.inl (by decide)

theorem isDNS1035Label_eq_nil {s : String} :
    isDNS1035Label s = [] ↔ s.length ≤ 63 ∧ dns1035Label s.toList = true := by
  unfold isDNS1035Label
  by_cases h : s.length > 63 <;> by_cases h' : dns1035Label s.toList = true <;> simp [h, h'] <;> omega

end Text
