import Acct.V32.Core.Numeric
import Mathlib.Data.Prod.Lex

/-!
# Ledger data types

The enumerations and row types that the hot path, the recalc engine and the feed share
(`ledger-core/src/plan.rs`, `method.rs`, `snapshot.rs` and the migrations). Timestamps are integers
(microseconds, UTC); accounts and ids are the integers the database assigns.
-/

namespace Acct.V32

/-- The hot-path part of the SQL `line_type` enum; `cost_adjustment_line`, the engine's own output,
is not among them. -/
inductive LineType
  | poReceiptLine
  | woOutput
  | woBackflush
  | woScrap
  | invAdjustmentLine
  | transferShipmentLine
  | transferReceiptLine
  | manualAdjustmentLine
  | revaluationLine
  deriving DecidableEq

inductive PoolMethod
  | fifo
  | lifo
  | wac
  | std
  | specific
  deriving DecidableEq

/-- One `posting_account_map` row. Each pair is (debit, credit) of a receipt: (inventory,
contra). -/
structure PostingAccounts where
  receipt : ℤ × ℤ
  transfer : ℤ × ℤ
  build : ℤ × ℤ
  scrap : ℤ × ℤ
  adjustment : ℤ × ℤ
  revaluation : ℤ × ℤ
  variance : Option ℤ
  deriving DecidableEq

/-- The account pair of a line type, in receipt direction. -/
def PostingAccounts.pairFor (a : PostingAccounts) : LineType → ℤ × ℤ
  | .poReceiptLine => a.receipt
  | .transferReceiptLine | .transferShipmentLine => a.transfer
  | .woOutput | .woBackflush => a.build
  | .woScrap => a.scrap
  | .invAdjustmentLine | .manualAdjustmentLine => a.adjustment
  | .revaluationLine => a.revaluation

/-- A position in business order: `(posted_at, id)`, compared lexicographically. -/
abbrev Pos := ℤ ×ₗ ℤ

/-- A physical `trx_line` row of one pool, with the table's checks. A depletion's quantity is the
negation of an `i64`, so no row holds `i64::MIN`. -/
structure TrxLine where
  id : ℤ
  postedAt : ℤ
  lineType : LineType
  /-- Positive for a receipt, negative for a depletion. -/
  qty : ℤ
  unitCost : ℤ
  qty_ne_zero : qty ≠ 0
  qty_gt : -2 ^ 63 < qty
  qty_lt : qty < 2 ^ 63
  unitCost_nonneg : 0 ≤ unitCost
  unitCost_inI64 : InI64 unitCost
  deriving DecidableEq

/-- The row's place in business order. -/
def TrxLine.pos (t : TrxLine) : Pos := toLex (t.postedAt, t.id)

/-- `INSERT INTO trx_line`: fails if a check does. -/
def TrxLine.insert? (id postedAt : ℤ) (lineType : LineType) (qty unitCost : ℤ) : Option TrxLine :=
  if h : qty ≠ 0 ∧ -2 ^ 63 < qty ∧ qty < 2 ^ 63 ∧ 0 ≤ unitCost ∧ InI64 unitCost then
    some ⟨id, postedAt, lineType, qty, unitCost, h.1, h.2.1, h.2.2.1, h.2.2.2.1, h.2.2.2.2⟩
  else none

end Acct.V32
