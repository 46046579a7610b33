import Acct.V32.Core.Numeric

/-!
# The commutative hot-path statements

The four single-statement writes of `ledger-direct/src/cte.rs`, on the aggregate row of one pool.
`none` as a result is a raised error (a value out of the `bigint` range). The values of the row to
insert are computed on the conflict arm too, and can raise there.
-/

namespace Acct.V32

/-- The `pool_state` row of a pool with `layer_id = 0`. -/
structure Aggregate where
  qty : ℤ
  unitCost : ℤ
  valueSum : ℤ
  deriving DecidableEq

/-- `CASE WHEN qty = 0 THEN 0 ELSE value::bigint END`: an emptied pool drops whatever value is
left. -/
def valueOrZero (value qty : ℤ) : Option ℤ := if qty = 0 then some 0 else toI64? value

/-! ### The WAC statements

They are written over any division; in the code it is the SQL function `banker_div`. -/

section Division

variable (div : ℤ → ℤ → Option ℤ)

/-- The row a receipt of `q` units at cost `c` proposes to insert. -/
def receiptRowWith (q c : ℤ) : Option Aggregate := do
  let unitCost ← div (q * c) q
  let valueSum ← toI64? (q * c)
  return ⟨q, unitCost, valueSum⟩

/-- `CASE WHEN qty > 0 THEN div(value, qty) ELSE unit_cost END`: the average is kept while nothing
is on hand. -/
def averageOrWith (unitCost value qty : ℤ) : Option ℤ :=
  if qty > 0 then div value qty else some unitCost

/-- A receipt: the new row. The receipt posts `q * c`. -/
def wacReceiptWith (row : Option Aggregate) (q c : ℤ) : Option Aggregate := do
  let proposed ← receiptRowWith div q c
  match row with
  | none => return proposed
  | some a =>
    let qty ← toI64? (a.qty + q)
    let valueSum ← toI64? (a.valueSum + q * c)
    let unitCost ← div (a.valueSum + q * c) qty
    return ⟨qty, unitCost, valueSum⟩

/-- A depletion, gated on the quantity on hand: the new row, and the cost recorded on the line.
`some none` is the empty result of the gate, which the caller turns into an insufficient-inventory
error. -/
def wacDepleteWith (row : Option Aggregate) (q : ℤ) : Option (Option (Aggregate × ℤ)) :=
  match row with
  | none => some none
  | some a => do
    let qty ← toI64? (a.qty - q)
    if qty ≥ 0 then
      let valueSum ← valueOrZero (a.valueSum - q * a.unitCost) qty
      let unitCost ← averageOrWith div a.unitCost (a.valueSum - q * a.unitCost) qty
      return some (⟨qty, unitCost, valueSum⟩, a.unitCost)
    else return none

end Division

/-- The row `WAC_RECEIPT` and `FL_RECEIPT` propose to insert. -/
def receiptRow := receiptRowWith sqlBankerDiv

/-- The average the four statements write. -/
def averageOr := averageOrWith sqlBankerDiv

/-- `WAC_RECEIPT`. -/
def wacReceipt := wacReceiptWith sqlBankerDiv

/-- `WAC_DEPLETE`. -/
def wacDeplete := wacDepleteWith sqlBankerDiv

/-! ### The FIFO and LIFO statements -/

/-- `FL_RECEIPT`: a receipt of `q` units at cost `c`. -/
def flReceipt (row : Option Aggregate) (q c : ℤ) : Option Aggregate := do
  let proposed ← receiptRow q c
  match row with
  | none => return proposed
  | some a =>
    let qty ← toI64? (a.qty + q)
    let valueSum ← toI64? (a.valueSum + q * c)
    let unitCost ← averageOr a.unitCost (a.valueSum + q * c) qty
    return ⟨qty, unitCost, valueSum⟩

/-- `FL_DEPLETE`: a depletion of `q` units, with the observed cost on standard basis if there is
one. Returns the new row and the cost recorded on the line. -/
def flDeplete (row : Option Aggregate) (q : ℤ) (standard : Option ℤ) : Option (Aggregate × ℤ) := do
  let proposedValue ← toI64? (q * max (standard.getD 0) 0 * -1)
  match row with
  | none => return (⟨0 - q, 0, proposedValue⟩, max (standard.getD 0) 0)
  | some a =>
    let appliedUc := max (standard.getD a.unitCost) 0
    let qty ← toI64? (a.qty - q)
    let valueSum ← valueOrZero (a.valueSum - q * appliedUc) qty
    let unitCost ← averageOr a.unitCost (a.valueSum - q * appliedUc) qty
    return (⟨qty, unitCost, valueSum⟩, appliedUc)

end Acct.V32
