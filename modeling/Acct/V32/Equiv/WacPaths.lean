import Acct.V32.Book
import Acct.V32.Core.Equiv.Numeric
import Acct.V32.Equiv.Outcome

/-!
# WAC lines by statement and by plan

A WAC line can go through one of the statements `WAC_RECEIPT` and `WAC_DEPLETE`, or through
`apply_wac` and the bulk write of its plan. The two do the same to every row with a non-negative
quantity (`wac_statement_eq_plan`), taking the SQL division to be the Rust one. The `CHECK` on
`trx_line.unit_cost` comes with the bulk write: the plan itself accepts a negative cost
(`applyWac_negative_average`).
-/

namespace Acct.V32

open Option

variable {accounts : PostingAccounts} {line : TrxLineRequest} {s : Snapshot}
  {row : Option Aggregate}

structure WacWrite where
  aggregate : Aggregate
  unitCost : ℤ
  amount : ℤ
  deriving DecidableEq

/-- `dispatch_cte_line` on a WAC line, before the checks of `trx_line`. -/
def wacStatement? (div : ℤ → ℤ → Option ℤ) (row : Option Aggregate) (line : TrxLineRequest) :
    Option WacWrite :=
  if line.qty > 0 then do
    let aggregate ← wacReceiptWith div row line.qty line.unitCost
    let amount ← toI64? (line.qty * line.unitCost)
    return ⟨aggregate, line.unitCost, amount⟩
  else do
    let absQty ← toI64? |line.qty|
    let (aggregate, cost) ← (wacDepleteWith div row absQty).join
    let amount ← toI64? (absQty * cost)
    return ⟨aggregate, cost, amount⟩

def PlanResult.wacWrite? : PlanResult → Option WacWrite
  | ⟨[line], [.upsertAggregate _ qty unitCost valueSum], [posting]⟩ =>
    some ⟨⟨qty, unitCost, valueSum⟩, line.unitCost, posting.amount⟩
  | _ => none

def Snapshot.withAggregate (s : Snapshot) (p : ℤ) (row : Option Aggregate) : Snapshot :=
  { s with
    pools := Function.update s.pools p
      (row.toList.map fun a => ⟨0, a.qty, a.unitCost, a.valueSum⟩) }

/-- `apply_wac` on a snapshot of the row, before the checks of `trx_line`. -/
def wacPlan? (s : Snapshot) (postedAt : ℤ) (row : Option Aggregate) (line : TrxLineRequest) :
    Option WacWrite :=
  (applyWac (s.withAggregate line.poolId row) line {} postedAt).toOption.bind (·.2.wacWrite?)

/-- The `CHECK` of `trx_line`. -/
def checkedCost (w : Option WacWrite) : Option WacWrite := w.filter (0 ≤ ·.unitCost)

/-- The writes of a sequence of lines; a rejected line leaves the row. -/
def wacWrites (write : Option Aggregate → TrxLineRequest → Option WacWrite) :
    Option Aggregate → List TrxLineRequest → List (Option WacWrite)
  | _, [] => []
  | row, line :: lines =>
    let w := write row line
    w :: wacWrites write (w.elim row (some ·.aggregate)) lines

/-! ### One line -/

/-- A quantity that the strict gate allows. -/
structure OnHand (a : Aggregate) : Prop where
  qty_nonneg : 0 ≤ a.qty
  qty_inI64 : InI64 a.qty

lemma bankerDiv_mul_self {q c : ℤ} (hq : 0 < q) (hqI : InI64 q) (hc : InI64 c) :
    bankerDiv (q * c) q = some c := by
  have hI128 : InI128 (q * c) := by
    unfold InI64 at hqI hc
    constructor <;> nlinarith
  refine (bankerDiv_eq_some_iff hI128 hq.ne').mpr ⟨.inl ?_, hc⟩
  rw [mul_comm q c, sub_self]
  simpa using hq.ne'

def Outcome.wacWrite (o : Outcome) : WacWrite :=
  ⟨o.aggregate, o.unitCost, (o.legs.map (·.amount)).sum⟩

lemma wacStatement?_receipt (accounts : PostingAccounts) (hrow : ∀ a ∈ row, OnHand a)
    (hline : line.InRange) (hqty : 0 < line.qty) :
    wacStatement? bankerDiv row line =
      (wacReceiptOutcome? accounts line (row.getD ⟨0, 0, 0⟩)).map (·.wacWrite) := by
  have hself := bankerDiv_mul_self hqty hline.1 hline.2
  unfold wacStatement? wacReceiptWith receiptRowWith wacReceiptOutcome? average?
  rw [if_pos hqty, hself]
  by_cases hvalue : InI64 (line.qty * line.unitCost)
  · cases row with
    | none =>
      simp [toI64?_of_inI64 hvalue, toI64?_of_inI64 hline.1, hqty, hself, Outcome.wacWrite,
        receiptLeg]
    | some a =>
      have ha : 0 < a.qty + line.qty := by
        have := (hrow a rfl).qty_nonneg
        omega
      simp only [toI64?_of_inI64 hvalue, bind_eq_bind, bind_some, getD_some]
      -- the checks come in the same order; only the average is guarded on one side
      by_cases hnewQty : InI64 (a.qty + line.qty)
      · by_cases hnewValue : InI64 (a.valueSum + line.qty * line.unitCost)
        · simp only [toI64?_of_inI64 hnewQty, toI64?_of_inI64 hnewValue, bind_some,
            gt_iff_lt, if_pos ha]
          cases bankerDiv (a.valueSum + line.qty * line.unitCost) (a.qty + line.qty) <;>
            simp [Outcome.wacWrite, receiptLeg]
        · simp [toI64?_of_inI64 hnewQty, toI64?_eq_none.mpr hnewValue]
      · simp [toI64?_eq_none.mpr hnewQty]
  · cases row with
    | none | some a => simp [toI64?_eq_none.mpr hvalue]

lemma wacStatement?_depletion (accounts : PostingAccounts) (hrow : ∀ a ∈ row, OnHand a)
    (hqty : line.qty < 0) :
    wacStatement? bankerDiv row line =
      (wacDepleteOutcome? accounts line (row.getD ⟨0, 0, 0⟩)).map (·.wacWrite) := by
  have hpos : 0 < |line.qty| := abs_pos.mpr hqty.ne
  unfold wacStatement? wacDepleteWith wacDepleteOutcome? averageOrWith average?
  rw [if_neg (not_lt.mpr hqty.le)]
  by_cases habs : InI64 |line.qty|
  swap
  · simp [toI64?_eq_none.mpr habs]
  cases row with
  | none => simp [toI64?_of_inI64 habs, hqty.ne]
  | some a =>
    have ha := hrow a rfl
    have hleft : InI64 (a.qty - |line.qty|) := by
      have h0 := ha.qty_nonneg
      have hI := ha.qty_inI64
      unfold InI64 at hI habs ⊢
      omega
    simp only [toI64?_of_inI64 habs, toI64?_of_inI64 hleft, bind_eq_bind, bind_some, getD_some]
    by_cases hgate : a.qty < |line.qty|
    · simp [hgate, not_le.mpr hgate]
    rw [if_pos (by omega), if_neg hgate]
    by_cases hamount : InI64 (|line.qty| * a.unitCost)
    swap
    · -- the statement fails at the posted amount at the latest
      generalize valueOrZero _ _ = valueSum
      generalize (if a.qty - |line.qty| > 0 then _ else some a.unitCost) = unitCost
      cases valueSum <;> cases unitCost <;> simp [toI64?_eq_none.mpr hamount]
    by_cases hempty : a.qty - |line.qty| = 0
    · simp [toI64?_of_inI64 hamount, hempty, valueOrZero, Outcome.wacWrite, depletionLeg]
    · have hsome : 0 < a.qty - |line.qty| := by omega
      by_cases hvalue : InI64 (a.valueSum - |line.qty| * a.unitCost)
      · simp only [toI64?_of_inI64 hamount, toI64?_of_inI64 hvalue, valueOrZero, if_neg hempty,
          gt_iff_lt, if_pos hsome, bind_some]
        cases bankerDiv (a.valueSum - |line.qty| * a.unitCost) (a.qty - |line.qty|) <;>
          simp [toI64?_of_inI64 hamount, Outcome.wacWrite, depletionLeg]
      · simp [toI64?_of_inI64 hamount, valueOrZero, hempty, toI64?_eq_none.mpr hvalue]

@[simp] lemma Snapshot.withAggregate_readAggregate (s : Snapshot) (p : ℤ) (row : Option Aggregate) :
    ((s.withAggregate p row).readAggregate p).amounts = row.getD ⟨0, 0, 0⟩ := by
  cases row <;> simp [Snapshot.readAggregate, Snapshot.aggregate, Snapshot.withAggregate,
    PoolStateRow.amounts]

lemma wacPlan?_eq {postedAt : ℤ} (hmethod : s.methodOf line.poolId = some .wac)
    (haccounts : s.postingAccountsOf line.poolId = some accounts) (hqty : line.qty ≠ 0) :
    wacPlan? s postedAt row line =
      (wacOutcome? accounts line (row.getD ⟨0, 0, 0⟩)).map (·.wacWrite) := by
  have hmethod' : (s.withAggregate line.poolId row).methodOf line.poolId = some .wac := hmethod
  have haccounts' : (s.withAggregate line.poolId row).postingAccountsOf line.poolId =
      some accounts := haccounts
  have hplan := plans_applyWac _ line {} postedAt hmethod' hqty
  unfold wacPlan?
  rw [hplan, haccounts', bind_some, Snapshot.withAggregate_readAggregate, bind_map]
  dsimp only
  cases ho : wacOutcome? accounts line (row.getD ⟨0, 0, 0⟩) with
  | none => rfl
  | some o =>
    obtain ⟨hlayers, leg, hlegs⟩ := wacOutcome?_shape ho
    simp [recorded, Outcome.push, PlanResult.push, Outcome.mutations, PlanResult.wacWrite?,
      Outcome.wacWrite, TrxLineRequest.output, Leg.request, hlayers, hlegs]

theorem wacStatement?_eq (postedAt : ℤ) (hmethod : s.methodOf line.poolId = some .wac)
    (haccounts : s.postingAccountsOf line.poolId = some accounts) (hrow : ∀ a ∈ row, OnHand a)
    (hline : line.InRange) (hqty : line.qty ≠ 0) :
    wacStatement? bankerDiv row line = wacPlan? s postedAt row line := by
  rw [wacPlan?_eq hmethod haccounts hqty, wacOutcome?]
  split_ifs with hpos
  · exact wacStatement?_receipt accounts hrow hline hpos
  · exact wacStatement?_depletion accounts hrow (by omega)

lemma wacOutcome?_onHand {old : Aggregate} {o : Outcome} (hold : OnHand old)
    (h : wacOutcome? accounts line old = some o) :
    OnHand o.aggregate := by
  unfold wacOutcome? wacReceiptOutcome? wacDepleteOutcome? at h
  split_ifs at h with hpos
  · simp only [bind_eq_bind, bind_eq_some_iff, toI64?_eq_some] at h
    obtain ⟨_, ⟨rfl, hqty⟩, _, -, _, -, _, -, h⟩ := h
    cases h
    have hqty0 := hold.qty_nonneg
    exact ⟨by dsimp only; omega, hqty⟩
  · simp only [bind_eq_bind, bind_eq_some_iff, toI64?_eq_some] at h
    obtain ⟨_, ⟨rfl, habs⟩, h⟩ := h
    split_ifs at h with hgate
    simp only [bind_eq_some_iff] at h
    obtain ⟨_, -, _, -, _, -, h⟩ := h
    cases h
    have hk : 0 ≤ |line.qty| := abs_nonneg _
    have hI := hold.qty_inI64
    unfold InI64 at hI
    exact ⟨by dsimp only; omega, by unfold InI64; dsimp only; omega⟩

/-! ### Runs -/

lemma wacWrites_eq {p postedAt : ℤ} (hmethod : s.methodOf p = some .wac)
    (haccounts : s.postingAccountsOf p = some accounts) (hrow : ∀ a ∈ row, OnHand a)
    {lines : List TrxLineRequest}
    (hlines : ∀ line ∈ lines, line.poolId = p ∧ line.InRange ∧ line.qty ≠ 0) :
    wacWrites (fun row line => checkedCost (wacStatement? bankerDiv row line)) row lines =
      wacWrites (fun row line => checkedCost (wacPlan? s postedAt row line)) row lines := by
  induction lines generalizing row with
  | nil => rfl
  | cons line lines ih =>
    obtain ⟨rfl, hline, hqty⟩ := hlines line List.mem_cons_self
    unfold wacWrites
    rw [wacStatement?_eq postedAt hmethod haccounts hrow hline hqty]
    refine congrArg _ (ih ?_ fun l hl => hlines l (List.mem_cons_of_mem _ hl))
    cases hw : checkedCost (wacPlan? s postedAt row line) with
    | none => exact hrow
    | some w =>
      rintro _ ⟨⟩
      unfold checkedCost at hw
      rw [filter_eq_some_iff, wacPlan?_eq hmethod haccounts hqty] at hw
      obtain ⟨o, ho, rfl⟩ := map_eq_some_iff.mp hw.1
      refine wacOutcome?_onHand ?_ ho
      cases row with
      | none => exact ⟨le_rfl, by decide⟩
      | some a => exact hrow a rfl

/-- **The two paths of a WAC line agree.** On every row with a non-negative quantity the statement
and `apply_wac` compute the same write or both fail; with the `CHECK` of `trx_line`, which the plan
meets when it is written, so do all lines of any sequence. -/
theorem wac_statement_eq_plan {s : Snapshot} {p postedAt : ℤ} {accounts : PostingAccounts}
    (hmethod : s.methodOf p = some .wac) (haccounts : s.postingAccountsOf p = some accounts)
    {row : Option Aggregate} (hrow : ∀ a ∈ row, OnHand a) :
    (∀ line : TrxLineRequest, line.poolId = p → line.InRange → line.qty ≠ 0 →
      wacStatement? bankerDiv row line = wacPlan? s postedAt row line) ∧
    ∀ lines : List TrxLineRequest,
      (∀ line ∈ lines, line.poolId = p ∧ line.InRange ∧ line.qty ≠ 0) →
      wacWrites (fun row line => checkedCost (wacStatement? bankerDiv row line)) row lines =
        wacWrites (fun row line => checkedCost (wacPlan? s postedAt row line)) row lines := by
  constructor
  · rintro line rfl hline hqty
    exact wacStatement?_eq postedAt hmethod haccounts hrow hline hqty
  · intro lines hlines
    exact wacWrites_eq hmethod haccounts hrow hlines

/-- Every pool is a WAC pool without rows. -/
def wacSnapshot : Snapshot where
  pools _ := []
  methodOf _ := some .wac
  skuLocationOf _ := none
  standardCostOf _ := none
  postingAccountsOf _ := some ⟨(1, 2), (1, 2), (1, 2), (1, 2), (1, 2), (1, 2), none⟩

/-- Issue units of pool 1. -/
def issueLine (qty : ℤ) : TrxLineRequest := ⟨1, .transferShipmentLine, none, -qty, 0⟩

/-- **A plan that the statement rejects.** At a negative average `apply_wac` plans the depletion,
and only writing its `trx_line` row fails. -/
theorem applyWac_negative_average :
    checkedCost (wacStatement? bankerDiv (some ⟨1, -3, -3⟩) (issueLine 1)) = none ∧
    wacPlan? wacSnapshot 0 (some ⟨1, -3, -3⟩) (issueLine 1) = some ⟨⟨0, -3, 0⟩, -3, -3⟩ := by
  decide +kernel

/-- Three units worth 7 go out one by one, and a fourth is not there. -/
theorem wac_statement_eq_plan_threeUnits :
    wacWrites (fun row line => checkedCost (wacPlan? wacSnapshot 0 row line)) (some ⟨3, 2, 7⟩)
        [issueLine 1, issueLine 1, issueLine 1, issueLine 1] =
      [some ⟨⟨2, 2, 5⟩, 2, 2⟩, some ⟨⟨1, 3, 3⟩, 2, 2⟩, some ⟨⟨0, 3, 0⟩, 3, 3⟩, none] := by
  have hmethod : wacSnapshot.methodOf 1 = some .wac := rfl
  have haccounts : wacSnapshot.postingAccountsOf 1 =
      some ⟨(1, 2), (1, 2), (1, 2), (1, 2), (1, 2), (1, 2), none⟩ := rfl
  have hrow : ∀ a ∈ some (⟨3, 2, 7⟩ : Aggregate), OnHand a := by
    rintro _ ⟨⟩
    exact ⟨by decide, by decide⟩
  rw [← (wac_statement_eq_plan hmethod haccounts hrow).2 _ (by decide)]
  decide +kernel

end Acct.V32
