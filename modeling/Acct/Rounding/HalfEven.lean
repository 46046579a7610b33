import Mathlib.Tactic.Linarith
import Mathlib.Tactic.Ring

/-!
# Rounding an integer quotient half to even

`IsNearestEven n d q` says that `q` is the integer nearest to `n / d`, an exact half going to the
even neighbour. At most one `q` qualifies (`IsNearestEven.unique`).

A program that rounds starts from some candidate quotient, looks at the remainder and keeps the
candidate or moves it one away from zero: `stepHalfEven`. From the truncated quotient the result is
the nearest one (`isNearestEven_stepHalfEven_tdiv`). `roundHalfAway` is the other common rule, ties
away from zero.
-/

namespace Acct.Rounding

variable {n d : ℤ}

/-- The sign a non-zero quotient `n / d` has. -/
def quotSign (n d : ℤ) : ℤ :=
  if decide (n < 0) != decide (d < 0) then -1 else 1

/-- `q` is the integer nearest to `n / d`, and the even one of the two if `n / d` is a half. -/
def IsNearestEven (n d q : ℤ) : Prop :=
  2 * (n - q * d).natAbs < d.natAbs ∨ 2 * (n - q * d).natAbs = d.natAbs ∧ 2 ∣ q

/-- Round half to even from a candidate quotient `q` with remainder `r`: keep `q`, or move it by
`sgn`. -/
def stepHalfEven (q r absD sgn : ℤ) : ℤ :=
  if r = 0 then q
  else if (r.natAbs : ℤ) * 2 < absD then q
  else if (r.natAbs : ℤ) * 2 > absD then q + sgn
  else if q.tmod 2 = 0 then q
  else q + sgn

/-- `stepHalfEven` on magnitudes. -/
def stepHalfEvenNat (q r d : ℕ) : ℕ :=
  if r * 2 < d then q else if d < r * 2 then q + 1 else if 2 ∣ q then q else q + 1

/-- The integer nearest to `n / d`, an exact half going away from zero. -/
def roundHalfAway (n d : ℤ) : ℤ :=
  quotSign n d * ((2 * n.natAbs + d.natAbs) / (2 * d.natAbs) : ℕ)

/-! ### Signs -/

lemma quotSign_of_nonneg (hn : 0 ≤ n) (hd : 0 < d) : quotSign n d = 1 := by
  simp [quotSign, not_lt.mpr hn, not_lt.mpr hd.le]

lemma quotSign_of_neg (hn : n < 0) (hd : 0 < d) : quotSign n d = -1 := by
  simp [quotSign, hn, not_lt.mpr hd.le]

lemma quotSign_eq_or (n d : ℤ) : quotSign n d = 1 ∨ quotSign n d = -1 := by
  unfold quotSign
  split_ifs <;> simp

@[simp] lemma natAbs_quotSign_mul (n d m : ℤ) : (quotSign n d * m).natAbs = m.natAbs := by
  rcases quotSign_eq_or n d with h | h <;> simp [h]

lemma quotSign_mul_inj {a b : ℤ} : quotSign n d * a = quotSign n d * b ↔ a = b := by
  rcases quotSign_eq_or n d with h | h <;> simp [h]

lemma quotSign_mul_pos {c : ℤ} (hc : 0 < c) : quotSign (n * c) d = quotSign n d := by
  unfold quotSign
  have h : (n * c < 0) ↔ n < 0 := by
    constructor
    · intro h
      by_contra hn
      exact absurd (mul_nonneg (not_lt.mp hn) hc.le) (not_le.mpr h)
    · exact fun h => mul_neg_of_neg_of_pos h hc
  simp [h]

/-- Numerator and denominator are their magnitudes up to two signs, whose product is `quotSign`. -/
lemma exists_signs (n d : ℤ) : ∃ a b : ℤ, (a = 1 ∨ a = -1) ∧ (b = 1 ∨ b = -1) ∧
    n = a * n.natAbs ∧ d = b * d.natAbs ∧ quotSign n d = a * b := by
  refine ⟨if n < 0 then -1 else 1, if d < 0 then -1 else 1, ?_, ?_, ?_, ?_, ?_⟩
  · split_ifs <;> simp
  · split_ifs <;> simp
  · split_ifs <;> omega
  · split_ifs <;> omega
  · unfold quotSign
    by_cases hn : n < 0 <;> by_cases hd : d < 0 <;> simp [hn, hd]

lemma tdiv_eq_quotSign_mul (n d : ℤ) :
    n.tdiv d = quotSign n d * ((n.natAbs / d.natAbs : ℕ) : ℤ) := by
  obtain ⟨a, b, ha, hb, hn, hd, hs⟩ := exists_signs n d
  have key : (n.natAbs : ℤ).tdiv d.natAbs = ((n.natAbs / d.natAbs : ℕ) : ℤ) := by
    rw [Int.tdiv_eq_ediv_of_nonneg (Int.natCast_nonneg _), Int.natCast_ediv]
  rw [hs]
  nth_rewrite 1 [hn, hd]
  rcases ha with rfl | rfl <;> rcases hb with rfl | rfl <;>
    simp only [one_mul, neg_mul, mul_neg, neg_neg, Int.neg_tdiv, Int.tdiv_neg, key]

lemma natAbs_sub_quotSign_mul (n d : ℤ) (k : ℕ) :
    (n - quotSign n d * k * d).natAbs = ((n.natAbs : ℤ) - k * d.natAbs).natAbs := by
  obtain ⟨a, b, ha, hb, hn, hd, hs⟩ := exists_signs n d
  rw [hs]
  nth_rewrite 1 [hn, hd]
  rcases ha with rfl | rfl <;> rcases hb with rfl | rfl <;> ring_nf
  all_goals first | rfl | (rw [← Int.natAbs_neg]; congr 1; ring)

/-! ### Round half to even -/

theorem IsNearestEven.unique {q q' : ℤ} (hd : d ≠ 0) (h : IsNearestEven n d q)
    (h' : IsNearestEven n d q') : q = q' := by
  have hsub : (q' - q) * d = (n - q * d) - (n - q' * d) := by ring
  have htri : ((q' - q) * d).natAbs ≤ (n - q * d).natAbs + (n - q' * d).natAbs := by
    rw [hsub]
    exact Int.natAbs_sub_le _ _
  rw [Int.natAbs_mul] at htri
  have hpos : 0 < d.natAbs := Int.natAbs_pos.mpr hd
  -- Both remainders are at most half of `d`, so the quotients differ by at most one.
  have hle : (q' - q).natAbs ≤ 1 := by
    by_contra hgt
    have : 2 * d.natAbs ≤ (q' - q).natAbs * d.natAbs := Nat.mul_le_mul_right _ (by omega)
    rcases h with h | ⟨h, -⟩ <;> rcases h' with h' | ⟨h', -⟩ <;> omega
  rcases Nat.le_one_iff_eq_zero_or_eq_one.mp hle with h0 | h1
  · omega
  -- A difference of one needs two exact halves, and then both quotients are even.
  · rw [h1, one_mul] at htri
    rcases h with h | ⟨h, he⟩ <;> rcases h' with h' | ⟨h', he'⟩ <;> omega

lemma IsNearestEven.neg {q : ℤ} (h : IsNearestEven n d q) : IsNearestEven (-n) d (-q) := by
  have hrem : -n - -q * d = -(n - q * d) := by ring
  unfold IsNearestEven
  rwa [hrem, Int.natAbs_neg, Int.dvd_neg]

lemma IsNearestEven.between {q lo hi : ℤ} (h : IsNearestEven n d q) (hd : 0 < d)
    (hlo : lo * d ≤ n) (hhi : n ≤ hi * d) : lo ≤ q ∧ q ≤ hi := by
  have hrem : 2 * (n - q * d).natAbs ≤ d.natAbs := by
    rcases h with h | h <;> omega
  constructor
  · by_contra hlt
    have : q * d ≤ (lo - 1) * d := mul_le_mul_of_nonneg_right (by omega) hd.le
    have : (lo - 1) * d = lo * d - d := by ring
    omega
  · by_contra hgt
    have : (hi + 1) * d ≤ q * d := mul_le_mul_of_nonneg_right (by omega) hd.le
    have : (hi + 1) * d = hi * d + d := by ring
    omega

lemma stepHalfEven_quotSign_mul (n d r : ℤ) (q : ℕ) (hd : d ≠ 0) :
    stepHalfEven (quotSign n d * q) r d.natAbs (quotSign n d) =
      quotSign n d * (stepHalfEvenNat q r.natAbs d.natAbs : ℕ) := by
  have hpos : 0 < d.natAbs := Int.natAbs_pos.mpr hd
  have hpar : (quotSign n d * (q : ℤ)).tmod 2 = 0 ↔ 2 ∣ q := by
    rw [← Int.dvd_iff_tmod_eq_zero, ← Int.natAbs_dvd_natAbs, natAbs_quotSign_mul]
    rfl
  unfold stepHalfEven stepHalfEvenNat
  by_cases h0 : r = 0
  · simp [h0, hpos]
  · rw [if_neg h0]
    simp only [hpar]
    split_ifs <;> first | rfl | omega | (push_cast; ring)

lemma isNearestEven_quotSign_mul {k : ℕ} :
    IsNearestEven n d (quotSign n d * k) ↔ IsNearestEven n.natAbs d.natAbs k := by
  have hpar : (2 : ℤ) ∣ quotSign n d * k ↔ (2 : ℤ) ∣ k := by
    rw [← Int.natAbs_dvd_natAbs, natAbs_quotSign_mul, Int.natAbs_dvd_natAbs]
  unfold IsNearestEven
  rw [natAbs_sub_quotSign_mul, hpar, Int.natAbs_natCast]

lemma isNearestEven_stepHalfEvenNat (n d : ℕ) (hd : 0 < d) :
    IsNearestEven n d (stepHalfEvenNat (n / d) (n % d) d : ℕ) := by
  have hmod := Nat.mod_lt n hd
  have heq : (n : ℤ) = (n / d : ℕ) * (d : ℤ) + (n % d : ℕ) := by
    have := Nat.div_add_mod' n d
    exact_mod_cast this.symm
  have h0 : (n : ℤ) - (n / d : ℕ) * (d : ℤ) = (n % d : ℕ) := by linarith
  have h1 : (n : ℤ) - (n / d + 1 : ℕ) * (d : ℤ) = (n % d : ℕ) - d := by
    push_cast at heq ⊢
    linarith
  unfold IsNearestEven stepHalfEvenNat
  split_ifs with hlt hgt heven
  · rw [h0]; omega
  · rw [h1]; omega
  · rw [h0]; omega
  · rw [h1]; omega

theorem isNearestEven_stepHalfEven_tdiv (n d : ℤ) (hd : d ≠ 0) :
    IsNearestEven n d (stepHalfEven (n.tdiv d) (n.tmod d) d.natAbs (quotSign n d)) := by
  rw [tdiv_eq_quotSign_mul, stepHalfEven_quotSign_mul _ _ _ _ hd, Int.natAbs_tmod,
    isNearestEven_quotSign_mul]
  exact isNearestEven_stepHalfEvenNat _ _ (Int.natAbs_pos.mpr hd)

/-! ### Rounding half away from zero -/

lemma roundHalfAway_mul_self (m : ℤ) (hd : 0 < d) : roundHalfAway (m * d) d = m := by
  have hdpos : 0 < d.natAbs := Int.natAbs_pos.mpr hd.ne'
  have hquot : (2 * (m * d).natAbs + d.natAbs) / (2 * d.natAbs) = m.natAbs := by
    rw [Int.natAbs_mul]
    refine Nat.div_eq_of_lt_le ?_ ?_
    · ring_nf
      omega
    · ring_nf
      omega
  rw [roundHalfAway, hquot]
  rcases lt_or_ge m 0 with hm | hm
  · rw [quotSign_of_neg (mul_neg_of_neg_of_pos hm hd) hd]
    omega
  · rw [quotSign_of_nonneg (mul_nonneg hm hd.le) hd]
    omega

lemma roundHalfAway_nonneg (hn : 0 ≤ n) (hd : 0 < d) : 0 ≤ roundHalfAway n d := by
  rw [roundHalfAway, quotSign_of_nonneg hn hd, one_mul]
  exact Int.natCast_nonneg _

lemma roundHalfAway_le_self (hn : 0 ≤ n) (hd : 0 < d) : roundHalfAway n d ≤ n := by
  have hdpos : 0 < d.natAbs := Int.natAbs_pos.mpr hd.ne'
  have hquot : (2 * n.natAbs + d.natAbs) / (2 * d.natAbs) ≤ n.natAbs := by
    refine Nat.lt_succ_iff.mp (Nat.div_lt_of_lt_mul ?_)
    have hle : n.natAbs * 1 ≤ n.natAbs * d.natAbs := Nat.mul_le_mul_left _ hdpos
    have hexpand : 2 * d.natAbs * (n.natAbs + 1) = 2 * (n.natAbs * d.natAbs) + 2 * d.natAbs := by
      ring
    rw [Nat.succ_eq_add_one, hexpand]
    omega
  rw [roundHalfAway, quotSign_of_nonneg hn hd, one_mul]
  omega

/-! ### Truncating an already rounded quotient -/

lemma tdiv_roundHalfAway_scaled (n d : ℤ) {S : ℕ} (hS : 0 < S) :
    (roundHalfAway (n * S) d).tdiv S =
      quotSign n d * ((2 * (n.natAbs * S) + d.natAbs) / (2 * d.natAbs * S) : ℕ) := by
  have hS' : (0 : ℤ) < S := by exact_mod_cast hS
  have hsign : ∀ m : ℕ, (quotSign n d * (m : ℤ)).tdiv S = quotSign n d * (m / S : ℕ) := by
    intro m
    have hm : (m : ℤ).tdiv S = (m / S : ℕ) := by
      rw [Int.tdiv_eq_ediv_of_nonneg (Int.natCast_nonneg _), Int.natCast_ediv]
    rcases quotSign_eq_or n d with h | h <;> rw [h] <;> simp [Int.neg_tdiv, hm]
  unfold roundHalfAway
  rw [quotSign_mul_pos hS', hsign, Nat.div_div_eq_div_mul, Int.natAbs_mul, Int.natAbs_natCast]

/-- The truncated value is one too large exactly if the remainder is within `1 / (2 S)` of the
divisor. -/
lemma scaled_div_eq (n d S : ℕ) (hd : 0 < d) (hS : 0 < S) :
    (2 * (n * S) + d) / (2 * d * S) =
      if 2 * S * (d - n % d) ≤ d then n / d + 1 else n / d := by
  have hmod := Nat.mod_lt n hd
  obtain ⟨c, hc⟩ : ∃ c, d = n % d + c := ⟨d - n % d, by omega⟩
  have hn : n = d * (n / d) + n % d := (Nat.div_add_mod n d).symm
  generalize n % d = r at *
  generalize n / d = k at *
  subst hn hc
  have hpos : 0 < 2 * (r + c) * S := by positivity
  have hexp : 2 * (((r + c) * k + r) * S) + (r + c) + 2 * S * c =
      2 * (r + c) * S * (k + 1) + (r + c) := by ring
  rw [Nat.add_sub_cancel_left]
  split_ifs with h
  · apply Nat.div_eq_of_lt_le
    · rw [mul_comm]; omega
    · have : (k + 1 + 1) * (2 * (r + c) * S) = 2 * (r + c) * S * (k + 1) + 2 * (r + c) * S := by
        ring
      have : r + c ≤ 2 * (r + c) * S := by nlinarith
      have : 0 < 2 * S * c := by
        have : 0 < c := by omega
        positivity
      omega
  · apply Nat.div_eq_of_lt_le
    · have : 2 * (r + c) * S * (k + 1) = k * (2 * (r + c) * S) + 2 * (r + c) * S := by ring
      have : 2 * S * c ≤ 2 * (r + c) * S := by nlinarith
      omega
    · rw [mul_comm (k + 1)]; omega

/-- **Rounding half to even after rounding half away.** The step from the truncated rounded
quotient agrees with the step from the true quotient, except at resolution one on an exact half
above an even quotient, where it overshoots by two. -/
theorem stepHalfEvenNat_scaled (n d S : ℕ) (hd : 0 < d) (hS : 0 < S) :
    let T := (2 * (n * S) + d) / (2 * d * S)
    stepHalfEvenNat T ((n : ℤ) - T * d).natAbs d =
      if S = 1 ∧ 2 * (n % d) = d ∧ 2 ∣ n / d then n / d + 2
      else stepHalfEvenNat (n / d) (n % d) d := by
  intro T
  have hmod := Nat.mod_lt n hd
  have hn : (n : ℤ) = (n / d : ℕ) * (d : ℤ) + (n % d : ℕ) := by
    exact_mod_cast (Nat.div_add_mod' n d).symm
  have hT : T = if 2 * S * (d - n % d) ≤ d then n / d + 1 else n / d := scaled_div_eq n d S hd hS
  by_cases hup : 2 * S * (d - n % d) ≤ d
  · rw [if_pos hup] at hT
    have hrem : ((n : ℤ) - T * d).natAbs = d - n % d := by
      rw [hT]
      have : (n : ℤ) - (n / d + 1 : ℕ) * (d : ℤ) = (n % d : ℕ) - d := by
        push_cast at hn ⊢
        linarith
      rw [this]; omega
    rw [hrem, hT]
    clear hn hT hrem
    rcases Nat.lt_or_ge 1 S with hS1 | hS1
    -- At a finer resolution the remainder is far below half.
    · have : 4 * (d - n % d) ≤ d := le_trans (Nat.mul_le_mul_right _ (by omega)) hup
      rw [if_neg (fun h => by omega)]
      unfold stepHalfEvenNat
      split_ifs <;> omega
    · obtain rfl : S = 1 := by omega
      by_cases hhalf : 2 * (n % d) = d ∧ 2 ∣ n / d
      · rw [if_pos ⟨rfl, hhalf⟩]
        unfold stepHalfEvenNat
        split_ifs <;> omega
      · rw [if_neg (fun h => hhalf h.2)]
        unfold stepHalfEvenNat
        split_ifs <;> omega
  · rw [if_neg hup] at hT
    have hrem : ((n : ℤ) - T * d).natAbs = n % d := by
      rw [hT]; omega
    have hexc : ¬ (S = 1 ∧ 2 * (n % d) = d ∧ 2 ∣ n / d) := by
      rintro ⟨rfl, h, -⟩
      omega
    rw [if_neg hexc, hrem, hT]

end Acct.Rounding
