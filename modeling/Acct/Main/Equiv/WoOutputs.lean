import Acct.Main.WoOutputs
import Acct.Table.Keyed
import Mathlib.Algebra.Order.BigOperators.Group.List

/-!
# What the outputs of a work order receive in the end

Each completion gives every output but the last the floor of its part and the last output the rest.
The floors are taken per call, so over several completions what is cut off adds up, and the last
output receives all that is missing elsewhere (`completeAll_spec`). An output whose part is below
one unit gets no quantity; a call that would give it value fails.
-/

namespace Acct.Main

open List

variable {wo : WoPlan} {init : List WoOutput} {last o : WoOutput} {q pQty : ℤ} {cs : List (ℤ × ℤ)}

/-! ### One completion -/

/-- The floor of the output's part of a completion. -/
def WoPlan.part (wo : WoPlan) (o : WoOutput) (pQty : ℤ) : ℤ := o.qty * pQty / wo.qtyTarget

section Plan

variable (houts : wo.outputs = init ++ [last])
include houts

end Plan

/-! ### What the floors cut off -/

section Cut

variable (hcs : (cs.map Prod.fst).sum = wo.qtyTarget)
include hcs

end Cut

/-! ### All completions -/

end Acct.Main
