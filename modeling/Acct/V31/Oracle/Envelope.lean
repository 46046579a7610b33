import Mathlib.Algebra.Ring.Int.Defs
import Mathlib.Data.Finset.Image
import Mathlib.Data.List.Perm.Basic

/-!
# The envelope of legal outcomes

`ledger-oracle/src/envelope.rs`: the final quantities that some order of a pool's operations can
leave when a depletion that finds too little is dropped. Quantities are exact, as they are in the
source as long as no `i64` sum overflows.
-/

namespace Acct.V31

/-- `ENUM_OP_CAP`: so many operations are tried in every order. -/
def enumOpCap : ℕ := 8

/-- `simulate_order`. Receipts are positive and depletions negative. -/
def simulateOrder (startQty : ℤ) (ops : List ℤ) : ℤ :=
  ops.foldl (fun onHand op =>
    if op ≥ 0 then onHand + op
    else if onHand ≥ -op then onHand + op
    -- dropped
    else onHand) startQty

/-- `permute(arr, k, visit)` with `m` places from `k` on. What `visit` captures is passed along. -/
def permute {σ : Type} (visit : List ℕ → σ → σ) : ℕ → ℕ → List ℕ × σ → List ℕ × σ
  | 0, _, (arr, s) => (arr, visit arr s)
  | m + 1, k, x => (List.range' k (m + 1)).foldl (fun x i =>
      let (arr, s) := permute visit m (k + 1) (x.1.swap k i, x.2)
      (arr.swap k i, s)) x

/-- `reachable_final_qtys`: what the orders of `ops` leave. -/
def reachableFinalQtys (startQty : ℤ) (ops : List ℤ) : Finset ℤ :=
  (permute (fun perm out => insert (simulateOrder startQty (perm.map (ops.getD · 0))) out)
    ops.length 0 (List.range ops.length, ∅)).2

/-- `subset_sums`: the sums of some of the positive `values`, up to `cap`. -/
def subsetSums (values : List ℤ) (cap : ℤ) : Finset ℤ :=
  values.foldl (fun reachable v =>
    if v ≤ 0 then reachable
    else reachable ∪ (reachable.image (· + v)).filter (· ≤ cap)) {0}

/-- `Verdict`, with the fields of each case. -/
inductive Verdict
  | exact (explained : Bool) (reachable : Finset ℤ)
  | bounds (explained withinBounds appliedIsSubsetSum : Bool) (min max : ℤ)

/-- `Verdict::explained` -/
def Verdict.explained : Verdict → Bool
  | exact explained _ => explained
  | bounds explained _ _ _ _ => explained

/-- `total_receipts` -/
def totalReceipts (ops : List ℤ) : ℤ := (ops.filter (0 < ·)).sum

/-- `depletions`, as positive quantities. -/
def depletions (ops : List ℤ) : List ℤ := (ops.filter (· < 0)).map (- ·)

/-- `explains_final_qty`: exact for few operations, by bounds for more. -/
def explainsFinalQty (startQty : ℤ) (ops : List ℤ) (observed : ℤ) : Verdict :=
  if ops.length ≤ enumOpCap then
    let reachable := reachableFinalQtys startQty ops
    .exact (observed ∈ reachable) reachable
  else
    let max := startQty + totalReceipts ops
    let min := Max.max (startQty + totalReceipts ops - (depletions ops).sum) 0
    let withinBounds := min ≤ observed ∧ observed ≤ max ∧ 0 ≤ observed
    let applied := startQty + totalReceipts ops - observed
    let appliedIsSubsetSum := 0 ≤ applied ∧ applied ≤ (depletions ops).sum ∧
      applied ∈ subsetSums (depletions ops) (Max.max applied 0)
    .bounds (withinBounds ∧ appliedIsSubsetSum) withinBounds appliedIsSubsetSum min max

end Acct.V31
