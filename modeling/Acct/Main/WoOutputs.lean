import Acct.Main.Schema
import Acct.Rounding.HalfEven

/-!
# Dividing a completion among the outputs of a work order

The part of `post_wo_complete` that decides how much of a completed quantity, and of the value that
leaves WIP with it, goes to each row of `wo_outputs`, with the checks that let the call through, the
check of the inventory row of a value leg, and the progress it records. The value drained from WIP
is any number here.
-/

namespace Acct.Main

open Rounding

/-- A `wo_outputs` row; `allocation_pct` is in hundredths of a percent. -/
structure WoOutput where
  outputNo : ℤ
  outputSkuId : ℕ
  fgLocationId : ℕ
  qty : ℤ
  allocationPct : Option ℤ
  qty_pos : 0 < qty
  deriving DecidableEq

/-- A work order's target and its outputs in `output_no` order. -/
structure WoPlan where
  qtyTarget : ℤ
  outputs : List WoOutput
  target_pos : 0 < qtyTarget
  outputs_key : (outputs.map (·.outputNo)).Pairwise (· < ·)

/-- What one output gets of a completion; `none` is a NULL value share. The quantity leg is posted
if `qShare` is positive, the value leg, with `qShare` as its quantity, if `vShare` is. -/
structure OutputShare where
  output : WoOutput
  qShare : ℤ
  vShare : Option ℤ
  deriving DecidableEq

/-- `(v_total_drain * allocation_pct)::BIGINT / 100` -/
def valueShare (totalDrain : ℤ) (allocationPct : Option ℤ) : Option ℤ :=
  allocationPct.map fun pct => (roundHalfAway (totalDrain * pct) 100).tdiv 100

/-- The loop over the outputs, with the quantity and value used so far. -/
def outputShares (qtyTarget pQty totalDrain : ℤ) :
    List WoOutput → ℤ → Option ℤ → List OutputShare
  | [], _, _ => []
  | o :: outputs, qtyUsed, valUsed =>
    let q := if outputs = [] then pQty - qtyUsed else (o.qty * pQty).tdiv qtyTarget
    let v := if outputs = [] then valUsed.map (totalDrain - ·)
      else valueShare totalDrain o.allocationPct
    ⟨o, q, v⟩ :: outputShares qtyTarget pQty totalDrain outputs (qtyUsed + q)
      (Option.map₂ (· + ·) valUsed v)

/-- What each output gets of a completion of `pQty` that drains `totalDrain`. -/
def WoPlan.shares (wo : WoPlan) (pQty totalDrain : ℤ) : List OutputShare :=
  outputShares wo.qtyTarget pQty totalDrain wo.outputs 0 (some 0)

end Acct.Main
