import Acct.Rounding.HalfEven
import Mathlib.Data.Rat.Floor

/-!
# Rounding a rational half to even

`roundHalfEven x` is the integer nearest to `x`, the even one at a half. For an integer quotient it
is the `q` of `IsNearestEven` (`isNearestEven_roundHalfEven`), and it does not leave an interval
with integer ends (`roundHalfEven_mem`).
-/

namespace Acct.Rounding

/-- The integer nearest to `x`, a half going to the even neighbour. -/
def roundHalfEven (x : ℚ) : ℤ :=
  if Int.fract x < 1 / 2 then ⌊x⌋
  else if 1 / 2 < Int.fract x then ⌊x⌋ + 1
  else if 2 ∣ ⌊x⌋ then ⌊x⌋
  else ⌊x⌋ + 1

/-- A rounded value is the floor, or its successor where something was cut off. -/
lemma roundHalfEven_eq_or (x : ℚ) :
    roundHalfEven x = ⌊x⌋ ∨ roundHalfEven x = ⌊x⌋ + 1 ∧ 0 < Int.fract x := by
  unfold roundHalfEven
  split_ifs with hlt hgt heven
  · exact .inl rfl
  · exact .inr ⟨rfl, by linarith⟩
  · exact .inl rfl
  · exact .inr ⟨rfl, by linarith⟩

lemma roundHalfEven_mem {x : ℚ} {lo hi : ℤ} (hlo : (lo : ℚ) ≤ x) (hhi : x ≤ hi) :
    lo ≤ roundHalfEven x ∧ roundHalfEven x ≤ hi := by
  have hfloor : lo ≤ ⌊x⌋ := Int.le_floor.mpr hlo
  have hcut : (⌊x⌋ : ℚ) + Int.fract x = x := Int.floor_add_fract x
  rcases roundHalfEven_eq_or x with h | ⟨h, hfract⟩
  · exact ⟨by omega, by rw [h]; exact Int.floor_le_iff.mpr (by linarith)⟩
  · have hlt : (⌊x⌋ : ℚ) < hi := by linarith
    have hlt' : ⌊x⌋ < hi := by exact_mod_cast hlt
    omega

theorem isNearestEven_roundHalfEven (n : ℤ) {d : ℤ} (hd : 0 < d) :
    IsNearestEven n d (roundHalfEven (n / d)) := by
  have hdQ : (0 : ℚ) < d := by exact_mod_cast hd
  set x : ℚ := n / d with hx
  obtain ⟨r, hr⟩ : ∃ r, r = n - ⌊x⌋ * d := ⟨_, rfl⟩
  -- The remainder of the floor is the fractional part, scaled by `d`.
  have hfract : Int.fract x * d = r := by
    have hn : (n : ℚ) = x * d := by rw [hx]; field_simp
    rw [hr, Int.fract]
    push_cast
    rw [hn]
    ring
  have hr0 : 0 ≤ r := by
    have : (0 : ℚ) ≤ r := hfract ▸ mul_nonneg (Int.fract_nonneg x) hdQ.le
    exact_mod_cast this
  have hrd : r < d := by
    have : (r : ℚ) < d := by
      rw [← hfract]
      exact mul_lt_of_lt_one_left hdQ (Int.fract_lt_one x)
    exact_mod_cast this
  have hlt : Int.fract x < 1 / 2 ↔ 2 * r < d := by
    rw [← mul_lt_mul_iff_left₀ hdQ, hfract]
    constructor
    · intro h
      have : (2 * r : ℚ) < d := by linarith
      exact_mod_cast this
    · intro h
      have : (2 * r : ℚ) < d := by exact_mod_cast h
      linarith
  have hgt : 1 / 2 < Int.fract x ↔ d < 2 * r := by
    rw [← mul_lt_mul_iff_left₀ hdQ, hfract]
    constructor
    · intro h
      have : (d : ℚ) < 2 * r := by linarith
      exact_mod_cast this
    · intro h
      have : (d : ℚ) < 2 * r := by exact_mod_cast h
      linarith
  have hup : n - (⌊x⌋ + 1) * d = r - d := by rw [hr]; ring
  unfold IsNearestEven roundHalfEven
  simp only [hlt, hgt]
  split_ifs with h1 h2 h3
  · rw [← hr]; omega
  · rw [hup]; omega
  · rw [← hr]; omega
  · rw [hup]; omega

end Acct.Rounding
