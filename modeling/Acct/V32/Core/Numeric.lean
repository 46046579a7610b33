import Acct.Rounding.HalfEven
import Mathlib.Data.Nat.Log

/-!
# `banker_div`, in Rust and in SQL

The ledger divides in one place only, to turn a pool's value into a unit cost: the engine in Rust
(`ledger-core/src/numeric.rs`), the hot path in SQL (`db/migrations/0010_banker_div.up.sql`). `none`
is a Rust panic or a raised SQL error. `InI64` and `InI128` are the machine ranges the code checks.
-/

namespace Acct.V32

open Rounding

variable (x numerator n denominator d : ℤ)

/-- The values of an `i64` (a SQL `bigint`). -/
def InI64 : Prop := -2 ^ 63 ≤ x ∧ x < 2 ^ 63
  deriving Decidable

/-- The values of an `i128`. -/
def InI128 : Prop := -2 ^ 127 ≤ x ∧ x < 2 ^ 127
  deriving Decidable

/-- `i64::try_from` on an `i128`, the `::bigint` cast on a `numeric`, and every checked `i64`
operation. -/
def toI64? : Option ℤ := if InI64 x then some x else none

/-- `ledger_core::numeric::banker_div`: banker's rounding of `numerator / denominator`. -/
def bankerDiv : Option ℤ :=
  -- The division itself panics on a zero divisor and on `i128::MIN / -1`.
  if denominator = 0 ∨ ¬ InI128 (numerator.tdiv denominator) then none
  else
    let q := numerator.tdiv denominator
    let r := numerator.tmod denominator
    let sign := quotSign numerator denominator
    toI64? (stepHalfEven q r denominator.natAbs sign)

/-- A checked `i128` operation. -/
def toI128? : Option ℤ := if InI128 x then some x else none

/-- `banker_div` with every `i128` operation checked. The remainder overflows with the quotient. -/
def checkedBankerDiv : Option ℤ :=
  if denominator = 0 then none
  else do
    let q ← toI128? (numerator.tdiv denominator)
    let r := numerator.tmod denominator
    let rounded ←
      if r = 0 then some q
      else do
        let absR ← toI128? |r|
        let absD ← toI128? |denominator|
        let sign := quotSign numerator denominator
        let twiceR ← toI128? (absR * 2)
        if twiceR < absD then some q
        else if twiceR > absD then toI128? (q + sign)
        else if q.tmod 2 = 0 then some q
        else toI128? (q + sign)
    toI64? rounded

/-! ### PostgreSQL `numeric` division -/

/-- The weight of a non-zero quotient `n / d` in base 10000: the `w` with
`10000 ^ w ≤ |n / d| < 10000 ^ (w + 1)`. A zero quotient has weight 0. `select_div_scale` estimates
it from the leading digits, and counts one less where these are equal; here it is taken to be
exact. -/
def quotWeight : ℤ :=
  if d.natAbs ≤ n.natAbs then Nat.log 10000 (n.natAbs / d.natAbs)
  else if n = 0 then 0
  else -(Nat.clog 10000 ((d.natAbs + n.natAbs - 1) / n.natAbs))

/-- `select_div_scale`: the number of decimal digits a quotient is rounded to. -/
def divRscale : ℕ := (16 - 4 * quotWeight n d).toNat

/-- `trunc(n / d)` on `numeric`: the quotient is first rounded, half away from zero, to
`divRscale n d` decimal digits. -/
def truncDiv : ℤ :=
  (roundHalfAway (n * (10 ^ divRscale n d : ℕ)) d).tdiv (10 ^ divRscale n d : ℕ)

/-- The SQL function `banker_div(numeric, bigint)`. -/
def sqlBankerDiv : Option ℤ :=
  if denominator = 0 then none
  else
    let q := truncDiv numerator denominator
    let r := numerator - truncDiv numerator denominator * denominator
    let sgn := quotSign numerator denominator
    toI64? (stepHalfEven q r denominator.natAbs sgn)

end Acct.V32
