import Mathlib.Data.Rat.Floor
import YanetOperator.Lemmas.Overrides
import YanetOperator.Lemmas.Composition

/-!
# Hugepages

The reservation of a dataplane: the pages an automatic request finds on its node, their total, and the quantities of the primary
container after the patches.
-/

namespace YanetOperator

open Check

variable {Γ : Platform}

/-! ## Totals -/

theorem value_intCast {p : Int} (hpos : 0 < p) (hfits : p ≤ maxInt64) : Quantity.value (p : Rat) = p := by
  have hceil : Rat.ceil (p : Rat) = p := Rat.ceil_intCast p
  unfold maxInt64 at hfits
  rw [Quantity.value, hceil]
  exact Int.bmod_eq_of_le_mul_two (by push_cast; omega) (by push_cast; omega)

theorem value_le (q : Quantity) : q.value ≤ maxInt64 := by
  have hlt : q.value < (2 ^ 64 + 1) / 2 := Int.bmod_lt (by omega)
  unfold maxInt64
  omega

/-- The total of a request: the size is a whole number of bytes, and the product fits. -/
theorem totalQuantity_ok {h : Hugepages} {total : Quantity} :
    h.totalQuantity Γ = .ok total ↔ ∃ p : Int, Γ.parseQuantity h.size = .ok (p : Rat) ∧ 0 < p ∧ p ≤ maxInt64 ∧ 0 < h.count ∧
      p * h.count ≤ maxInt64 ∧ total = ((p * h.count : Int) : Rat) := by
  unfold Hugepages.totalQuantity
  cases hparse : Γ.parseQuantity h.size with
  | error e =>
    refine ⟨fun hok => ?_, fun ⟨p, hp, _⟩ => ?_⟩
    · cases hok
    · cases hp
  | ok q =>
    have hdiv {p : Int} (hcount : 0 < h.count) : p ≤ maxInt64 / h.count ↔ p * h.count ≤ maxInt64 :=
      Int.le_ediv_iff_mul_le hcount
    constructor
    · intro hok
      obtain ⟨q', hq', hok⟩ := bind_eq_ok.1 hok
      cases hq'
      simp only [seq_ok, refuse_ok] at hok
      obtain ⟨-, hcount, hwhole, hfits, htotal⟩ := hok
      obtain ⟨hpos, heq⟩ := not_or.1 hwhole
      cases htotal
      have heq : (q.value : Rat) = q := not_not.1 heq
      have hcount : 0 < h.count := by omega
      exact ⟨q.value, by rw [heq], by omega, value_le q, hcount, (hdiv hcount).1 (by omega), rfl⟩
    · rintro ⟨p, hp, hpos, hfits, hcount, hproduct, rfl⟩
      cases hp
      have hrat : ¬((p : Rat) ≤ 0) := not_le.2 (by exact_mod_cast hpos)
      have hvalue := value_intCast hpos hfits
      refine bind_eq_ok.2 ⟨(p : Rat), rfl, ?_⟩
      simp only [seq_ok, refuse_ok, hvalue]
      have hle := (hdiv hcount).2 hproduct
      exact ⟨hrat, by omega, not_or.2 ⟨by omega, not_not.2 rfl⟩, by omega, rfl⟩

/-! ## Pools -/

/-- A pool of `q` bytes in whole pages of `p` bytes, no more of them than a count can hold. -/
structure WholePool (Γ : Platform) (allocatable : ResourceList) (size : String) (p q : Int) : Prop where
  page : Γ.parseQuantity size = .ok (p : Rat)
  page_pos : 0 < p
  page_fits : p ≤ maxInt64
  pool : allocatable[resourceHugePagesPrefix ++ size]? = some (q : Rat)
  pool_pos : 0 < q
  pool_fits : q ≤ maxInt64
  whole : p ∣ q
  count_fits : q / p ≤ maxInt32

theorem asInt64_eq_some {q : Quantity} {n : Int} :
    q.asInt64 = some n ↔ q = (n : Rat) ∧ -maxInt64 - 1 ≤ n ∧ n ≤ maxInt64 := by
  unfold Quantity.asInt64
  constructor
  · intro h
    split at h
    · next hexact =>
      cases h
      exact ⟨(Rat.den_eq_one_iff q).1 hexact.1 |>.symm, hexact.2⟩
    · cases h
  · rintro ⟨rfl, hfits⟩
    simp [hfits]

/-- An automatic request counts the pages of its pool. -/
theorem countNodeHugepages_ok {ctx : BuildContext} {size : String} {resolved : Hugepages} :
    countNodeHugepages Γ ctx size = .ok resolved ↔
      ∃ p q : Int, WholePool Γ ctx.nodeAllocatable size p q ∧ resolved = { size := size, count := q / p } := by
  unfold countNodeHugepages
  constructor
  · intro h
    obtain ⟨page, hpage, h⟩ := bind_eq_ok.1 h
    obtain ⟨p, hparse, hpos, hfits, -, -, rfl⟩ := totalQuantity_ok.1 hpage
    obtain ⟨hpool, h⟩ := seq_ok.1 h
    have hpool := refuse_ok.1 hpool
    rw [mul_one, value_intCast hpos hfits] at h
    cases hq : ((ctx.nodeAllocatable[resourceHugePagesPrefix ++ size]?).getD 0).asInt64 with
    | none =>
      rw [hq] at h
      cases h
    | some q =>
      rw [hq] at h
      obtain ⟨hwhole, h⟩ := seq_ok.1 h
      obtain ⟨hcount, h⟩ := seq_ok.1 h
      cases h
      obtain ⟨hqeq, -, hqfits⟩ := asInt64_eq_some.1 hq
      rw [hqeq] at hpool
      have hqpos : 0 < q := by
        have : (0 : Rat) < (q : Rat) := not_le.1 hpool
        exact_mod_cast this
      have hdiv : q.tdiv p = q / p := Int.tdiv_eq_ediv_of_nonneg (by omega)
      have hdvd : p ∣ q := Int.dvd_of_tmod_eq_zero (not_not.1 (refuse_ok.1 hwhole))
      have hcount := refuse_ok.1 hcount
      rw [hdiv] at hcount ⊢
      refine ⟨p, q, ⟨hparse, hpos, hfits, ?_, hqpos, hqfits, hdvd, by omega⟩, rfl⟩
      cases hget : ctx.nodeAllocatable[resourceHugePagesPrefix ++ size]? with
      | none =>
        rw [hget, Option.getD_none] at hqeq
        have : (0 : Int) = q := by exact_mod_cast hqeq
        omega
      | some x =>
        rw [hget] at hqeq
        exact congrArg some hqeq
  · rintro ⟨p, q, hpool, rfl⟩
    have hpos := hpool.page_pos
    have hqpos := hpool.pool_pos
    have hdiv : q.tdiv p = q / p := Int.tdiv_eq_ediv_of_nonneg (by omega)
    have hexact : Quantity.asInt64 (q : Rat) = some q :=
      asInt64_eq_some.2 ⟨rfl, by have := hpool.pool_fits; unfold maxInt64; omega, hpool.pool_fits⟩
    have hcount : 1 ≤ q / p := by
      obtain ⟨k, rfl⟩ := hpool.whole
      rw [Int.mul_ediv_cancel_left _ (by omega)]
      exact (pos_iff_pos_of_mul_pos hqpos).1 hpos
    refine bind_eq_ok.2 ⟨((p * 1 : Int) : Rat), ?_, ?_⟩
    · exact totalQuantity_ok.2 ⟨p, hpool.page, hpos, hpool.page_fits, Int.one_pos, by rw [mul_one]; exact hpool.page_fits, rfl⟩
    · dsimp only
      rw [hpool.pool, mul_one, value_intCast hpos hpool.page_fits]
      simp only [Option.getD_some, hexact, seq_ok, refuse_ok, hdiv]
      have hrat : ¬((q : Rat) ≤ 0) := not_le.2 (by exact_mod_cast hqpos)
      have hfits := hpool.count_fits
      exact ⟨hrat, not_not.2 (Int.tmod_eq_zero_of_dvd hpool.whole), by omega, rfl⟩

/-! ## Resolution -/

theorem map_some_ok {r : Except String Hugepages} {resolved : Option Hugepages} :
    r.map some = .ok resolved ↔ ∃ h, r = .ok h ∧ resolved = some h := by
  cases r with
  | error e => exact ⟨nofun, fun ⟨_, h, _⟩ => nomatch h⟩
  | ok h =>
    constructor
    · intro heq
      cases heq
      exact ⟨h, rfl, rfl⟩
    · rintro ⟨h', heq, rfl⟩
      cases heq
      rfl

/-- The count of a pool gives its bytes back, and their total is computed. -/
theorem WholePool.total {allocatable : ResourceList} {size : String} {p q : Int} (h : WholePool Γ allocatable size p q) :
    q / p * p = q ∧ Hugepages.totalQuantity Γ { size := size, count := q / p } = .ok (q : Rat) := by
  have hbytes : q / p * p = q := Int.ediv_mul_cancel h.whole
  have hproduct : p * (q / p) = q := by rw [mul_comm, hbytes]
  refine ⟨hbytes, totalQuantity_ok.2 ⟨p, h.page, h.page_pos, h.page_fits, ?_, ?_, ?_⟩⟩
  · exact (pos_iff_pos_of_mul_pos (by rw [hproduct]; exact h.pool_pos)).1 h.page_pos
  · show p * (q / p) ≤ maxInt64
    rw [hproduct]
    exact h.pool_fits
  · show (q : Rat) = ((p * (q / p) : Int) : Rat)
    rw [hproduct]

/-! ## Reservation -/

end YanetOperator
