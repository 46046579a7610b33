import Acct.V32.Core.Numeric
import Mathlib.Algebra.BigOperators.Ring.List
import Mathlib.Algebra.Order.BigOperators.Group.List

/-!
# Correctness of `banker_div`

The SQL `sqlBankerDiv` starts from a quotient that PostgreSQL has already rounded. From
`10 ^ 16` upwards no decimal digit is kept (`divRscale_eq_zero_iff`), so an exact half has been
rounded away from zero before the remainder is looked at, and the second rounding moves an even
quotient by two. That is the only disagreement (`sqlBankerDiv_eq_bankerDiv_iff`).
-/

namespace Acct.V32

open Rounding Option

variable {x n d q : ℤ}

/-! ### Ranges -/

lemma toI64?_eq_some {y : ℤ} : toI64? x = some y ↔ x = y ∧ InI64 x := by
  unfold toI64?
  split_ifs with h <;> simp [h]

lemma toI64?_eq_none : toI64? x = none ↔ ¬ InI64 x := by
  unfold toI64?
  split_ifs with h <;> simp [h]

lemma toI64?_of_inI64 (h : InI64 x) : toI64? x = some x := if_pos h

/-! ### The Rust function -/

lemma not_inI64_of_not_inI128 (hn : InI128 n) (h : ¬ InI128 (n.tdiv d)) :
    ¬ InI64 (stepHalfEven (n.tdiv d) (n.tmod d) d.natAbs (quotSign n d)) := by
  have habs : (n.tdiv d).natAbs = n.natAbs / d.natAbs := Int.natAbs_tdiv n d
  have hle : n.natAbs / d.natAbs ≤ n.natAbs := Nat.div_le_self _ _
  have hsign := quotSign_eq_or n d
  unfold InI128 at hn h
  unfold InI64 stepHalfEven
  split_ifs <;> omega

/-- On `i128` numerators the explicit division check is covered by the final `i64` check. -/
lemma bankerDiv_eq (hn : InI128 n) (hd : d ≠ 0) :
    bankerDiv n d = toI64? (stepHalfEven (n.tdiv d) (n.tmod d) d.natAbs (quotSign n d)) := by
  unfold bankerDiv
  by_cases h : InI128 (n.tdiv d)
  · simp [hd, h]
  · simp only [hd, h, not_false_eq_true, or_true, if_true]
    exact (toI64?_eq_none.mpr (not_inI64_of_not_inI128 hn h)).symm

/-- **`banker_div` rounds to nearest, ties to even**, and returns whenever the result fits. -/
theorem bankerDiv_eq_some_iff (hn : InI128 n) (hd : d ≠ 0) :
    bankerDiv n d = some q ↔ IsNearestEven n d q ∧ InI64 q := by
  have hnear := isNearestEven_stepHalfEven_tdiv n d hd
  rw [bankerDiv_eq hn hd, toI64?_eq_some]
  constructor
  · rintro ⟨rfl, h⟩
    exact ⟨hnear, h⟩
  · rintro ⟨h, hq⟩
    obtain rfl := hnear.unique hd h
    exact ⟨rfl, hq⟩

lemma inI128_of_between {v lo hi : ℤ} (hq : 0 < q) (hq' : InI64 q) (hl : InI64 lo) (hh : InI64 hi)
    (hlo : lo * q ≤ v) (hhi : v ≤ hi * q) : InI128 v := by
  unfold InI64 at hq' hl hh
  have : -2 ^ 63 * q ≤ lo * q := mul_le_mul_of_nonneg_right hl.1 hq.le
  have : hi * q ≤ 2 ^ 63 * q := mul_le_mul_of_nonneg_right hh.2.le hq.le
  unfold InI128
  omega

/-- A value between two unit costs per unit has a rounded unit cost between them. -/
theorem exists_bankerDiv_between {v lo hi : ℤ} (hq : 0 < q) (hq' : InI64 q) (hl : InI64 lo)
    (hh : InI64 hi) (hlo : lo * q ≤ v) (hhi : v ≤ hi * q) :
    ∃ a, bankerDiv v q = some a ∧ IsNearestEven v q a ∧ lo ≤ a ∧ a ≤ hi := by
  have hn := inI128_of_between hq hq' hl hh hlo hhi
  have hnear := isNearestEven_stepHalfEven_tdiv v q hq.ne'
  have hbound := hnear.between hq hlo hhi
  refine ⟨_, (bankerDiv_eq_some_iff hn hq.ne').mpr ⟨hnear, ?_⟩, hnear, hbound⟩
  unfold InI64 at hl hh ⊢
  omega

/-- A value that is at most `m` per unit has a rounded unit cost of at most `m`. -/
theorem exists_bankerDiv_of_le {v m : ℤ} (hq : 0 < q) (hq' : InI64 q) (hm : InI64 m) (h0 : 0 ≤ v)
    (hv : v ≤ q * m) : ∃ a, bankerDiv v q = some a ∧ 0 ≤ a ∧ a ≤ m := by
  have hlo : 0 * q ≤ v := by rwa [zero_mul]
  have hhi : v ≤ m * q := by rwa [mul_comm]
  obtain ⟨a, ha, -, hbound⟩ := exists_bankerDiv_between hq hq' (by decide) hm hlo hhi
  exact ⟨a, ha, hbound⟩

/-- The rounded unit cost times the quantity is within half a quantity of the value. -/
lemma two_mul_natAbs_sub_le_of_bankerDiv {v a : ℤ} (hn : InI128 v) (hq : q ≠ 0)
    (h : bankerDiv v q = some a) : 2 * (v - a * q).natAbs ≤ q.natAbs := by
  rcases ((bankerDiv_eq_some_iff hn hq).mp h).1 with h | h <;> omega

lemma toI128?_of_inI128 (h : InI128 x) : toI128? x = some x := if_pos h

lemma checkedBankerDiv_eq (hn : InI128 n) (hd : InI64 d) :
    checkedBankerDiv n d = bankerDiv n d := by
  unfold checkedBankerDiv bankerDiv
  by_cases hd0 : d = 0
  · simp [hd0]
  by_cases hq : InI128 (n.tdiv d)
  swap
  · simp [hd0, hq, toI128?]
  rw [if_neg hd0, if_neg (by simp [hd0, hq]), toI128?_of_inI128 hq]
  have hq' : (n.tdiv d).natAbs = n.natAbs / d.natAbs := Int.natAbs_tdiv n d
  have hr' := Int.natAbs_tmod n d
  have hsign := quotSign_eq_or n d
  have hlt : n.natAbs % d.natAbs < d.natAbs := Nat.mod_lt _ (Int.natAbs_pos.mpr hd0)
  unfold InI128 at hn
  unfold InI64 at hd
  by_cases hr : n.tmod d = 0
  · simp [hr, stepHalfEven]
  -- a remainder needs a divisor of at least two, which halves the quotient
  have htwo : 2 ≤ d.natAbs := by
    by_contra hone
    have : d.natAbs = 1 := by omega
    rw [this, Nat.mod_one] at hr'
    omega
  have hhalf : n.natAbs / d.natAbs ≤ n.natAbs / 2 := Nat.div_le_div_left htwo (by decide)
  have hup : toI128? (n.tdiv d + quotSign n d) = some (n.tdiv d + quotSign n d) :=
    toI128?_of_inI128 ⟨by omega, by omega⟩
  have hRabs := Int.abs_eq_natAbs (n.tmod d)
  have hDabs := Int.abs_eq_natAbs d
  have hR : toI128? |n.tmod d| = some |n.tmod d| := toI128?_of_inI128 ⟨by omega, by omega⟩
  have hD : toI128? |d| = some |d| := toI128?_of_inI128 ⟨by omega, by omega⟩
  have hRR : toI128? (|n.tmod d| * 2) = some (|n.tmod d| * 2) :=
    toI128?_of_inI128 ⟨by omega, by omega⟩
  simp only [hr, hR, hD, hRR, hup, stepHalfEven, if_false, bind_eq_bind, bind_some,
    Int.natCast_natAbs]
  split_ifs <;> rfl

/-- **Round half to even.** With every operation checked, `banker_div` returns the nearest integer,
an exact half going to the even neighbour, and fails iff that is no `i64`. It is odd in the
numerator, up to the result `i64::MIN`, and a weighted average of costs lies between them. -/
theorem checkedBankerDiv_nearest (n d : ℤ) (hn : InI128 n) (hd : InI64 d) (hd0 : d ≠ 0) :
    (∀ q, checkedBankerDiv n d = some q ↔ IsNearestEven n d q ∧ InI64 q) ∧
    (InI128 (-n) → ∀ q, q ≠ -2 ^ 63 → checkedBankerDiv n d = some q →
      checkedBankerDiv (-n) d = some (-q)) ∧
    ∀ parts : List (ℤ × ℤ), (∀ p ∈ parts, InI64 p.1 ∧ 0 ≤ p.2) → (parts.map (·.2)).sum = d →
      ∃ q, checkedBankerDiv (parts.map fun p => p.1 * p.2).sum d = some q ∧
        ∀ lo hi, (∀ p ∈ parts, lo ≤ p.1 ∧ p.1 ≤ hi) → lo ≤ q ∧ q ≤ hi := by
  refine ⟨fun q => ?_, fun hneg q hmin h => ?_, fun parts hparts hsum => ?_⟩
  · rw [checkedBankerDiv_eq hn hd, bankerDiv_eq_some_iff hn hd0]
  · rw [checkedBankerDiv_eq hn hd, bankerDiv_eq_some_iff hn hd0] at h
    rw [checkedBankerDiv_eq hneg hd, bankerDiv_eq_some_iff hneg hd0]
    refine ⟨h.1.neg, ?_⟩
    have hq := h.2
    unfold InI64 at hq ⊢
    omega
  · have hbetween : ∀ lo hi, (∀ p ∈ parts, lo ≤ p.1 ∧ p.1 ≤ hi) →
        lo * d ≤ (parts.map fun p => p.1 * p.2).sum ∧
          (parts.map fun p => p.1 * p.2).sum ≤ hi * d := by
      intro lo hi hle
      rw [← hsum, ← List.sum_map_mul_left, ← List.sum_map_mul_left]
      exact ⟨List.sum_le_sum fun p hp => mul_le_mul_of_nonneg_right (hle p hp).1 (hparts p hp).2,
        List.sum_le_sum fun p hp => mul_le_mul_of_nonneg_right (hle p hp).2 (hparts p hp).2⟩
    have hnonneg : 0 ≤ (parts.map (·.2)).sum :=
      List.sum_nonneg (List.forall_mem_map.mpr fun p hp => (hparts p hp).2)
    have hpos : 0 < d := by omega
    obtain ⟨hlo, hhi⟩ := hbetween (-2 ^ 63) (2 ^ 63 - 1) fun p hp =>
      ⟨(hparts p hp).1.1, Int.le_sub_one_of_lt (hparts p hp).1.2⟩
    obtain ⟨q, hq, hnear, -⟩ :=
      exists_bankerDiv_between hpos hd (by decide) (by decide) hlo hhi
    rw [checkedBankerDiv_eq (inI128_of_between hpos hd (by decide) (by decide) hlo hhi) hd]
    exact ⟨q, hq, fun lo hi hle => hnear.between hpos (hbetween lo hi hle).1 (hbetween lo hi hle).2⟩

theorem checkedBankerDiv_nearest_halves : checkedBankerDiv 5 2 = some 2 ∧
    checkedBankerDiv (-5) 2 = some (-2) ∧
    ∃ q, checkedBankerDiv ([(7, 1), (4, 1)].map fun p : ℤ × ℤ => p.1 * p.2).sum 2 = some q ∧
      4 ≤ q ∧ q ≤ 7 := by
  obtain ⟨-, hodd, haverage⟩ :=
    checkedBankerDiv_nearest 5 2 (by decide) (by decide) (by decide)
  refine ⟨by decide, hodd (by decide) 2 (by decide) (by decide), ?_⟩
  obtain ⟨q, hq, hbound⟩ := haverage [(7, 1), (4, 1)] (by decide) (by decide)
  exact ⟨q, hq, hbound 4 7 (by decide)⟩

/-- The opposite of `i64::MIN` is no `i64`. -/
theorem checkedBankerDiv_not_odd : checkedBankerDiv (-2 ^ 63) 1 = some (-2 ^ 63) ∧
    checkedBankerDiv (2 ^ 63) 1 = none := by
  decide +kernel

/-! ### The SQL function -/

lemma divRscale_eq_zero_iff (hd : d ≠ 0) :
    divRscale n d = 0 ↔ 10 ^ 16 ≤ n.natAbs / d.natAbs := by
  have hpos : 0 < d.natAbs := Int.natAbs_pos.mpr hd
  unfold divRscale quotWeight
  split_ifs with hle h0
  · have hq : n.natAbs / d.natAbs ≠ 0 := (Nat.div_pos hle hpos).ne'
    have hlog := Nat.le_log_iff_pow_le (b := 10000) (by norm_num) (x := 4) hq
    rw [show (10 : ℕ) ^ 16 = 10000 ^ 4 by norm_num, ← hlog]
    omega
  · simp [h0]
  · have : n.natAbs / d.natAbs = 0 := Nat.div_eq_of_lt (not_le.mp hle)
    rw [this]
    omega

/-- `n / d` is an even integer and a half, its integer part has magnitude at least `10 ^ 16` and is
a `bigint`. -/
def HalfAboveLargeEven (n d : ℤ) : Prop :=
  ∃ k : ℕ, 10 ^ 16 ≤ 2 * k ∧ InI64 (quotSign n d * (2 * k : ℕ)) ∧
    2 * n.natAbs = (4 * k + 1) * d.natAbs

lemma halfAboveLargeEven_iff (hd : d ≠ 0) :
    HalfAboveLargeEven n d ↔
      (10 ^ 16 ≤ n.natAbs / d.natAbs ∧ 2 * (n.natAbs % d.natAbs) = d.natAbs ∧
        2 ∣ n.natAbs / d.natAbs) ∧ InI64 (quotSign n d * (n.natAbs / d.natAbs : ℕ)) := by
  have hpos : 0 < d.natAbs := Int.natAbs_pos.mpr hd
  have hdm := Nat.div_add_mod n.natAbs d.natAbs
  constructor
  · rintro ⟨k, hk, hI, heq⟩
    have hexp : (4 * k + 1) * d.natAbs = 2 * (d.natAbs * (2 * k)) + d.natAbs := by ring
    have hdiv : n.natAbs / d.natAbs = 2 * k := by
      apply Nat.div_eq_of_lt_le
      · rw [mul_comm]; omega
      · rw [add_mul, mul_comm (2 * k)]; omega
    rw [hdiv] at hdm ⊢
    exact ⟨⟨hk, by omega, Nat.dvd_mul_right 2 k⟩, hI⟩
  · rintro ⟨⟨hk, hhalf, k, heven⟩, hI⟩
    rw [heven] at hk hI hdm
    refine ⟨k, hk, hI, ?_⟩
    have hexp : (4 * k + 1) * d.natAbs = 2 * (d.natAbs * (2 * k)) + d.natAbs := by ring
    omega

lemma sqlBankerDiv_eq (n : ℤ) (hd : d ≠ 0) :
    sqlBankerDiv n d = toI64? (quotSign n d *
      ((if 10 ^ 16 ≤ n.natAbs / d.natAbs ∧ 2 * (n.natAbs % d.natAbs) = d.natAbs ∧
          2 ∣ n.natAbs / d.natAbs then n.natAbs / d.natAbs + 2
        else stepHalfEvenNat (n.natAbs / d.natAbs) (n.natAbs % d.natAbs) d.natAbs : ℕ) : ℤ)) := by
  have hpos : 0 < d.natAbs := Int.natAbs_pos.mpr hd
  have hS : 0 < 10 ^ divRscale n d := by positivity
  have hS1 : 10 ^ divRscale n d = 1 ↔ 10 ^ 16 ≤ n.natAbs / d.natAbs := by
    rw [← divRscale_eq_zero_iff hd]
    simp
  have hstep := stepHalfEvenNat_scaled n.natAbs d.natAbs _ hpos hS
  unfold sqlBankerDiv
  simp only [hd, if_false, truncDiv, tdiv_roundHalfAway_scaled n d hS]
  rw [stepHalfEven_quotSign_mul _ _ _ _ hd, natAbs_sub_quotSign_mul, hstep]
  simp only [hS1]

/-- The average of a `bigint` value over a positive quantity is a `bigint`, not negative if the
value is not. -/
lemma exists_sqlBankerDiv (hn : InI64 n) (hd : 0 < d) :
    ∃ a, sqlBankerDiv n d = some a ∧ (0 ≤ n → 0 ≤ a) := by
  rw [sqlBankerDiv_eq n hd.ne']
  set m := if 10 ^ 16 ≤ n.natAbs / d.natAbs ∧ 2 * (n.natAbs % d.natAbs) = d.natAbs ∧
      2 ∣ n.natAbs / d.natAbs then n.natAbs / d.natAbs + 2
    else stepHalfEvenNat (n.natAbs / d.natAbs) (n.natAbs % d.natAbs) d.natAbs with hm
  have hpos : 1 ≤ d.natAbs := by omega
  have hdm := Nat.div_add_mod n.natAbs d.natAbs
  have hone : n.natAbs / d.natAbs ≤ d.natAbs * (n.natAbs / d.natAbs) :=
    Nat.le_mul_of_pos_left _ hpos
  -- Rounding away from zero takes a remainder, two steps a divisor of at least two.
  have hle : m ≤ n.natAbs := by
    rw [hm]
    split_ifs with h
    · have htwo : 2 * (n.natAbs / d.natAbs) ≤ d.natAbs * (n.natAbs / d.natAbs) :=
        Nat.mul_le_mul_right _ (by omega)
      omega
    · unfold stepHalfEvenNat
      split_ifs <;> omega
  have hin : InI64 (quotSign n d * (m : ℤ)) := by
    unfold InI64 at hn ⊢
    rcases le_or_gt 0 n with h0 | h0
    · rw [quotSign_of_nonneg h0 hd]
      omega
    · rw [quotSign_of_neg h0 hd]
      omega
  refine ⟨_, toI64?_of_inI64 hin, fun h0 => ?_⟩
  rw [quotSign_of_nonneg h0 hd]
  omega

/-- The average is within half a unit of the quotient, and within one and a half where it is so large
that a tie above an even number steps twice. -/
lemma sqlBankerDiv_near {a : ℤ} (hn : 0 ≤ n) (hd : 0 < d) (h : sqlBankerDiv n d = some a) :
    2 * |n - d * a| ≤ 3 * d ∧ (a ≤ 10 ^ 16 → 2 * |n - d * a| ≤ d) := by
  have hdm : d * ((n.natAbs / d.natAbs : ℕ) : ℤ) + (n.natAbs % d.natAbs : ℕ) = n := by
    have hnat := congrArg (Nat.cast (R := ℤ)) (Nat.div_add_mod n.natAbs d.natAbs)
    rwa [Nat.cast_add, Nat.cast_mul, Int.natAbs_of_nonneg hd.le, Int.natAbs_of_nonneg hn] at hnat
  have hmod : n.natAbs % d.natAbs < d.natAbs := Nat.mod_lt _ (by omega)
  rw [sqlBankerDiv_eq n hd.ne', toI64?_eq_some, quotSign_of_nonneg hn hd, one_mul] at h
  obtain ⟨rfl, -⟩ := h
  generalize n.natAbs / d.natAbs = q at hdm ⊢
  unfold stepHalfEvenNat
  split_ifs <;>
    simp only [Nat.cast_add, Nat.cast_one, Nat.cast_ofNat, mul_add, mul_one,
      Int.abs_eq_natAbs] <;> omega

lemma bankerDiv_eq_quotSign_mul (hn : InI128 n) (hd : d ≠ 0) :
    bankerDiv n d = toI64? (quotSign n d *
      (stepHalfEvenNat (n.natAbs / d.natAbs) (n.natAbs % d.natAbs) d.natAbs : ℕ)) := by
  rw [bankerDiv_eq hn hd, tdiv_eq_quotSign_mul, stepHalfEven_quotSign_mul _ _ _ _ hd,
    Int.natAbs_tmod]

/-- **Where SQL and Rust agree.** For every `i128` numerator and non-zero denominator the SQL
`banker_div` and the Rust `banker_div` give the same result, or both fail, unless the quotient is a
half above a large even integer. -/
theorem sqlBankerDiv_eq_bankerDiv_iff (n d : ℤ) (hn : InI128 n) (hd0 : d ≠ 0) :
    sqlBankerDiv n d = bankerDiv n d ↔ ¬ HalfAboveLargeEven n d := by
  rw [sqlBankerDiv_eq n hd0, bankerDiv_eq_quotSign_mul hn hd0, halfAboveLargeEven_iff hd0]
  by_cases h : 10 ^ 16 ≤ n.natAbs / d.natAbs ∧ 2 * (n.natAbs % d.natAbs) = d.natAbs ∧
      2 ∣ n.natAbs / d.natAbs
  · have hkeep : stepHalfEvenNat (n.natAbs / d.natAbs) (n.natAbs % d.natAbs) d.natAbs =
        n.natAbs / d.natAbs := by
      unfold stepHalfEvenNat
      rw [if_neg (by omega), if_neg (by omega), if_pos h.2.2]
    rw [if_pos h, hkeep]
    have hsign := quotSign_eq_or n d
    simp only [h, true_and]
    unfold toI64?
    -- Rust's result is two closer to zero, so SQL's cannot fit when Rust's does not.
    by_cases hI : InI64 (quotSign n d * (n.natAbs / d.natAbs : ℕ))
    · simp only [hI, if_true, not_true_eq_false, iff_false]
      split_ifs
      · rw [Option.some_inj, quotSign_mul_inj]
        omega
      · simp
    · have hI' : ¬ InI64 (quotSign n d * (n.natAbs / d.natAbs + 2 : ℕ)) := by
        unfold InI64 at hI ⊢
        rcases hsign with hs | hs <;> rw [hs] at hI ⊢ <;> omega
      simp only [hI, hI', if_false, not_false_eq_true]
  · simp only [h, if_false, false_and, not_false_eq_true]

/-- The two functions agree on `7 / 2`. -/
theorem sqlBankerDiv_eq_bankerDiv_seven_halves :
    InI128 7 ∧ (2 : ℤ) ≠ 0 ∧ ¬ HalfAboveLargeEven 7 2 ∧
      sqlBankerDiv 7 2 = bankerDiv 7 2 := by
  have h : ¬ HalfAboveLargeEven 7 2 := by
    rintro ⟨k, hk, -, heq⟩
    simp only [show (7 : ℤ).natAbs = 7 from rfl, show (2 : ℤ).natAbs = 2 from rfl] at heq
    omega
  exact ⟨by decide, by decide, h,
    (sqlBankerDiv_eq_bankerDiv_iff 7 2 (by decide) (by decide)).mpr h⟩

/-- Two receipts of quantity one at `2 * 10 ^ 16` and `2 * 10 ^ 16 + 1` average to a half: the SQL
running average is two above the Rust one. -/
theorem sqlBankerDiv_ne_bankerDiv_half :
    sqlBankerDiv (2 * 10 ^ 16 + 1 * (2 * 10 ^ 16 + 1)) (1 + 1) = some (2 * 10 ^ 16 + 2) ∧
      bankerDiv (2 * 10 ^ 16 + 1 * (2 * 10 ^ 16 + 1)) (1 + 1) = some (2 * 10 ^ 16) := by
  constructor
  · rw [sqlBankerDiv_eq _ (by decide)]
    decide
  · decide

end Acct.V32
