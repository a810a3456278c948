import Mathlib.Data.List.Basic
import Std.Data.ExtTreeMap

/-!
# Registration with conflict detection

Values are registered one after another under a key. A value whose specification differs from that of the value already under
its key makes the key blocked: the entry is dropped and no later value is accepted under it. What a registry holds depends only
on which values were offered, not on their order.
-/

/-- The accepted values, and the keys under which values disagreed. -/
structure Registry (κ β : Type) [Ord κ] where
  entries : Std.ExtTreeMap κ β := ∅
  blocked : List κ := []

namespace Registry

/-! ## Conflicts -/

section

variable {κ β γ : Type} {key : β → κ} {spec : β → γ} {xs ys : List β} {x : β} {k : κ}

/-- Two of the values disagree under the key. -/
def Conflicted (key : β → κ) (spec : β → γ) (xs : List β) (k : κ) : Prop :=
  ∃ a ∈ xs, ∃ b ∈ xs, key a = k ∧ key b = k ∧ spec a ≠ spec b

theorem Conflicted.mono (h : Conflicted key spec xs k) (hsub : xs ⊆ ys) : Conflicted key spec ys k := by
  obtain ⟨a, ha, b, hb, h⟩ := h
  exact ⟨a, hsub ha, b, hsub hb, h⟩

theorem conflicted_congr (h : ∀ x, x ∈ xs ↔ x ∈ ys) : Conflicted key spec xs k ↔ Conflicted key spec ys k :=
  ⟨fun c => c.mono fun x hx => (h x).1 hx, fun c => c.mono fun x hx => (h x).2 hx⟩

/-- The key of a value is conflicted exactly when another value disagrees with it. -/
theorem conflicted_iff_disagrees (hx : x ∈ xs) :
    Conflicted key spec xs (key x) ↔ ∃ a ∈ xs, key a = key x ∧ spec a ≠ spec x := by
  constructor
  · rintro ⟨a, ha, b, hb, hka, hkb, hne⟩
    by_cases h : spec a = spec x
    · exact ⟨b, hb, hkb, fun e => hne (h.trans e.symm)⟩
    · exact ⟨a, ha, hka, h⟩
  · rintro ⟨a, ha, hka, hne⟩
    exact ⟨a, ha, x, hx, hka, rfl, hne⟩

/-- One more value makes at most its own key conflicted. -/
theorem conflicted_append_singleton :
    Conflicted key spec (xs ++ [x]) k ↔
      Conflicted key spec xs k ∨ (k = key x ∧ ∃ a ∈ xs, key a = key x ∧ spec a ≠ spec x) := by
  constructor
  · rintro ⟨a, ha, b, hb, hka, hkb, hne⟩
    rw [List.mem_append, List.mem_singleton] at ha hb
    rcases ha with ha | rfl <;> rcases hb with hb | rfl
    · exact Or.inl ⟨a, ha, b, hb, hka, hkb, hne⟩
    · exact Or.inr ⟨hkb.symm, a, ha, hka.trans hkb.symm, hne⟩
    · exact Or.inr ⟨hka.symm, b, hb, hkb.trans hka.symm, fun e => hne e.symm⟩
    · exact absurd rfl hne
  · rintro (h | ⟨rfl, a, ha, hka, hne⟩)
    · exact h.mono (List.subset_append_left xs [x])
    · exact ⟨a, by simp [ha], x, by simp, hka, rfl, hne⟩

end

/-! ## Registries -/

variable {κ β γ : Type} [Ord κ] [Std.TransOrd κ]

/-- A registry that results from offering the values. -/
structure Describes (key : β → κ) (spec : β → γ) (r : Registry κ β) (xs : List β) : Prop where
  blocked : ∀ k, k ∈ r.blocked ↔ Conflicted key spec xs k
  sound : ∀ (k : κ) x, r.entries[k]? = some x → x ∈ xs ∧ key x = k ∧ k ∉ r.blocked
  complete : ∀ x ∈ xs, key x ∉ r.blocked → ∃ y, r.entries[key x]? = some y ∧ spec y = spec x

variable {key : β → κ} {spec : β → γ} {r r' : Registry κ β} {xs ys : List β}

theorem describes_empty : Describes key spec ({} : Registry κ β) [] := by
  refine ⟨?_, ?_, nofun⟩
  · intro k
    simp [Conflicted]
  · intro k x h
    simp at h

/-- When the key and the specification determine a value, the entries are the values whose key is not conflicted. -/
theorem Describes.entries_iff (h : Describes key spec r xs)
    (hinj : ∀ a ∈ xs, ∀ b ∈ xs, key a = key b → spec a = spec b → a = b) {k : κ} {x : β} :
    r.entries[k]? = some x ↔ x ∈ xs ∧ key x = k ∧ ¬Conflicted key spec xs k := by
  rw [← h.blocked k]
  constructor
  · exact h.sound k x
  · rintro ⟨hx, rfl, hb⟩
    obtain ⟨y, hy, hs⟩ := h.complete x hx hb
    obtain ⟨hm, hk, -⟩ := h.sound _ _ hy
    rw [hy, hinj y hm x hx hk hs]

/-- Registries of the same values have the same entries and block the same keys. -/
theorem Describes.congr [Std.LawfulEqOrd κ] (h : Describes key spec r xs) (h' : Describes key spec r' ys)
    (hmem : ∀ x, x ∈ xs ↔ x ∈ ys) (hinj : ∀ a ∈ xs, ∀ b ∈ xs, key a = key b → spec a = spec b → a = b) :
    r.entries = r'.entries ∧ ∀ k, k ∈ r.blocked ↔ k ∈ r'.blocked := by
  have hinj' : ∀ a ∈ ys, ∀ b ∈ ys, key a = key b → spec a = spec b → a = b :=
    fun a ha b hb => hinj a ((hmem a).2 ha) b ((hmem b).2 hb)
  refine ⟨Std.ExtTreeMap.ext_getElem? fun k => Option.ext fun x => ?_, fun k => ?_⟩
  · rw [h.entries_iff hinj, h'.entries_iff hinj', hmem, conflicted_congr hmem]
  · rw [h.blocked, h'.blocked, conflicted_congr hmem]

/-- A value under a blocked key changes nothing. -/
theorem Describes.refuse (h : Describes key spec r xs) {x : β} (hb : key x ∈ r.blocked) : Describes key spec r (xs ++ [x]) := by
  refine ⟨fun k => ?_, fun k y hy => ?_, fun y hy hyb => ?_⟩
  · rw [conflicted_append_singleton, ← h.blocked]
    exact ⟨Or.inl, fun hk => hk.elim id fun hk => hk.1 ▸ hb⟩
  · obtain ⟨hm, hrest⟩ := h.sound k y hy
    exact ⟨by simp [hm], hrest⟩
  · rcases List.mem_append.1 hy with hy | hy
    · exact h.complete y hy hyb
    · rw [List.mem_singleton.1 hy] at hyb
      exact absurd hb hyb

/-- A value that agrees with all values under its key is entered. -/
theorem Describes.insert [Std.LawfulEqOrd κ] (h : Describes key spec r xs) {x : β} (hb : key x ∉ r.blocked)
    (hno : ¬∃ a ∈ xs, key a = key x ∧ spec a ≠ spec x) :
    Describes key spec { r with entries := r.entries.insert (key x) x } (xs ++ [x]) := by
  refine ⟨fun k => ?_, fun k y hy => ?_, fun y hy hyb => ?_⟩
  · rw [conflicted_append_singleton, ← h.blocked]
    exact ⟨Or.inl, fun hk => hk.elim id fun hk => absurd hk.2 hno⟩
  · dsimp only at hy
    rw [Std.ExtTreeMap.getElem?_insert] at hy
    split at hy
    · next e =>
      obtain rfl : x = y := Option.some.inj hy
      have hk : key x = k := by simpa using e
      exact ⟨by simp, hk, hk ▸ hb⟩
    · obtain ⟨hm, hrest⟩ := h.sound k y hy
      exact ⟨by simp [hm], hrest⟩
  · dsimp only at hyb ⊢
    rw [Std.ExtTreeMap.getElem?_insert]
    rcases List.mem_append.1 hy with hy | hy
    · by_cases he : key x = key y
      · rw [if_pos (by simpa using he)]
        refine ⟨x, rfl, ?_⟩
        by_contra hne
        exact hno ⟨y, hy, he.symm, fun e => hne e.symm⟩
      · rw [if_neg (by simpa using he)]
        exact h.complete y hy hyb
    · rw [List.mem_singleton.1 hy, if_pos (by simp)]
      exact ⟨x, rfl, rfl⟩

/-- A value that disagrees with one under its key blocks the key. -/
theorem Describes.block [Std.LawfulEqOrd κ] (h : Describes key spec r xs) {x : β}
    (hex : ∃ a ∈ xs, key a = key x ∧ spec a ≠ spec x) :
    Describes key spec { entries := r.entries.erase (key x), blocked := key x :: r.blocked } (xs ++ [x]) := by
  refine ⟨fun k => ?_, fun k y hy => ?_, fun y hy hyb => ?_⟩
  · rw [conflicted_append_singleton, ← h.blocked, List.mem_cons]
    constructor
    · rintro (rfl | hk)
      · exact Or.inr ⟨rfl, hex⟩
      · exact Or.inl hk
    · rintro (hk | ⟨rfl, -⟩)
      · exact Or.inr hk
      · exact Or.inl rfl
  · dsimp only at hy
    rw [Std.ExtTreeMap.getElem?_erase] at hy
    split at hy
    · cases hy
    · next hk =>
      obtain ⟨hm, hky, hkb⟩ := h.sound k y hy
      refine ⟨by simp [hm], hky, ?_⟩
      rw [List.mem_cons, not_or]
      exact ⟨fun e => hk (by simp [e]), hkb⟩
  · dsimp only at hyb ⊢
    rw [List.mem_cons, not_or] at hyb
    rw [Std.ExtTreeMap.getElem?_erase, if_neg (by simpa using fun e => hyb.1 e.symm)]
    rcases List.mem_append.1 hy with hy | hy
    · exact h.complete y hy hyb.2
    · rw [List.mem_singleton.1 hy] at hyb
      exact absurd rfl hyb.1

variable [DecidableEq γ]

/-- The entry under a key that is not blocked tells whether some value disagrees with a new one. -/
theorem Describes.disagrees_iff (h : Describes key spec r xs) {x : β} (hb : key x ∉ r.blocked) :
    ((r.entries[key x]?).any fun previous => decide (spec previous ≠ spec x)) = true ↔
      ∃ a ∈ xs, key a = key x ∧ spec a ≠ spec x := by
  cases he : r.entries[key x]? with
  | none =>
    simp only [Option.any_none, Bool.false_eq_true, false_iff]
    rintro ⟨a, ha, hka, -⟩
    obtain ⟨y, hy, -⟩ := h.complete a ha (by rwa [hka])
    rw [hka, he] at hy
    cases hy
  | some p =>
    obtain ⟨hm, hk, -⟩ := h.sound _ _ he
    simp only [Option.any_some, decide_eq_true_eq]
    constructor
    · intro hne
      exact ⟨p, hm, hk, hne⟩
    · rintro ⟨a, ha, hka, hne⟩
      obtain ⟨y, hy, hs⟩ := h.complete a ha (by rwa [hka])
      rw [hka, he] at hy
      cases hy
      rwa [hs]

variable [DecidableEq κ]

/-- Offer a value. -/
def add (key : β → κ) (spec : β → γ) (r : Registry κ β) (x : β) : Registry κ β :=
  if key x ∈ r.blocked then r
  else
    match r.entries[key x]? with
    | none => { r with entries := r.entries.insert (key x) x }
    | some previous =>
      if spec previous ≠ spec x then { entries := r.entries.erase (key x), blocked := key x :: r.blocked }
      else { r with entries := r.entries.insert (key x) x }

/-- Whether a value is refused. -/
def clashes (key : β → κ) (spec : β → γ) (r : Registry κ β) (x : β) : Bool :=
  decide (key x ∈ r.blocked) || (r.entries[key x]?).any fun previous => decide (spec previous ≠ spec x)

/-- A value is refused exactly when its key is conflicted with it. -/
theorem Describes.clashes_iff (h : Describes key spec r xs) (x : β) :
    clashes key spec r x = true ↔ Conflicted key spec (xs ++ [x]) (key x) := by
  rw [conflicted_append_singleton, ← h.blocked, clashes, Bool.or_eq_true, decide_eq_true_eq]
  by_cases hb : key x ∈ r.blocked
  · simp [hb]
  · simp only [hb, false_or, true_and]
    exact h.disagrees_iff hb

/-- The step: one more value offered. -/
theorem Describes.add [Std.LawfulEqOrd κ] (h : Describes key spec r xs) (x : β) :
    Describes key spec (add key spec r x) (xs ++ [x]) := by
  unfold Registry.add
  by_cases hb : key x ∈ r.blocked
  · rw [if_pos hb]
    exact h.refuse hb
  · rw [if_neg hb]
    have hc := h.disagrees_iff hb
    cases he : r.entries[key x]? with
    | none =>
      rw [he] at hc
      exact h.insert hb fun hex => absurd (hc.2 hex) (by simp)
    | some p =>
      rw [he] at hc
      simp only [Option.any_some, decide_eq_true_eq] at hc
      dsimp only
      by_cases hne : spec p ≠ spec x
      · rw [if_pos hne]
        exact h.block (hc.1 hne)
      · rw [if_neg hne]
        exact h.insert hb fun hex => hne (hc.2 hex)

/-! ## Several values -/

/-- Offer a value, and note whether one was refused. -/
def offer (key : β → κ) (spec : β → γ) (acc : Registry κ β × Bool) (x : β) : Registry κ β × Bool :=
  (Registry.add key spec acc.1 x, acc.2 || clashes key spec acc.1 x)

theorem foldl_offer_fst (zs : List β) (acc : Registry κ β × Bool) :
    (zs.foldl (offer key spec) acc).1 = zs.foldl (Registry.add key spec) acc.1 := by
  induction zs generalizing acc with
  | nil => rfl
  | cons z zs ih => exact ih _

/-- A refusal stays noted. -/
theorem foldl_offer_snd (zs : List β) (r : Registry κ β) (b : Bool) :
    (zs.foldl (offer key spec) (r, b)).2 = (b || (zs.foldl (offer key spec) (r, false)).2) := by
  induction zs generalizing r b with
  | nil => simp
  | cons z zs ih =>
    rw [List.foldl_cons, List.foldl_cons, offer, offer, ih, ih _ (false || _)]
    simp [Bool.or_assoc]

/-- The run: the registry describes all values offered, and one of the new ones was refused exactly when the key of one of them
is conflicted. -/
theorem Describes.offerAll [Std.LawfulEqOrd κ] {acc : Registry κ β × Bool} (h : Describes key spec acc.1 xs) (zs : List β) :
    Describes key spec (zs.foldl (offer key spec) acc).1 (xs ++ zs) ∧
      ((zs.foldl (offer key spec) acc).2 = true ↔ acc.2 = true ∨ ∃ z ∈ zs, Conflicted key spec (xs ++ zs) (key z)) := by
  induction zs generalizing acc xs with
  | nil => simpa using h
  | cons z zs ih =>
    have hz : Describes key spec (offer key spec acc z).1 (xs ++ [z]) := h.add z
    obtain ⟨h1, h2⟩ := ih hz
    rw [List.append_assoc, List.singleton_append] at h1 h2
    refine ⟨h1, ?_⟩
    have hflag : (offer key spec acc z).2 = true ↔ acc.2 = true ∨ Conflicted key spec (xs ++ [z]) (key z) := by
      rw [offer, Bool.or_eq_true, h.clashes_iff]
    rw [List.foldl_cons, h2, hflag, or_assoc]
    refine or_congr_right ?_
    constructor
    · rintro (hc | ⟨w, hw, hc⟩)
      · exact ⟨z, by simp, hc.mono fun x hx => by
          rw [List.mem_append, List.mem_singleton] at hx
          rcases hx with hx | rfl <;> simp_all⟩
      · exact ⟨w, by simp [hw], hc⟩
    · rintro ⟨w, hw, hc⟩
      rcases List.mem_cons.1 hw with rfl | hw
      · -- whoever disagrees with the new value comes before it, or is refused later under the same key
        obtain ⟨a, ha, hka, hne⟩ := (conflicted_iff_disagrees (by simp)).1 hc
        rcases List.mem_append.1 ha with ha | ha
        · exact Or.inl ⟨a, by simp [ha], w, by simp, hka, rfl, hne⟩
        · rcases List.mem_cons.1 ha with rfl | ha
          · exact absurd rfl hne
          · exact Or.inr ⟨a, ha, hka ▸ hc⟩
      · exact Or.inr ⟨w, hw, hc⟩

end Registry
