import Acct.V3.Core.PlanApply
import Acct.V3.Routed.BulkWrite
import Mathlib.Data.Finset.Insert

/-!
# The replay loop of the committer

`ledger-routed/src/committer.rs`: a commit group is planned on a snapshot of its pools and written
in one savepoint. A submission whose plan fails, or whose `(trx_type, source_id)` is taken, is
excluded and the group is planned again; an undecodable submission, or any other error of a write,
gives up the group. `chrono`'s `from_timestamp_micros` is a parameter.
-/

namespace Acct.V3

/-- `PocV3Submission`. -/
structure Submission where
  trxType : String
  sourceId : ℤ
  postedAtMicros : ℤ
  deriving DecidableEq

/-- `PocV3Line`. -/
structure Line where
  lineType : String
  sourceId : Option ℤ
  poolId : ℤ
  qty : ℤ
  unitCost : ℤ
  debitAccount : ℤ
  creditAccount : ℤ
  deriving DecidableEq

/-- `Decoded`, as far as the replay loop reads it. -/
structure Decoded where
  submission : Submission
  lines : List Line
  deriving DecidableEq

/-- `decode_line_type` -/
def decodeLineType : String → Option LineType
  | "po_receipt_line" => some .poReceiptLine
  | "wo_output" => some .woOutput
  | "wo_backflush" => some .woBackflush
  | "wo_scrap" => some .woScrap
  | "inv_adjustment_line" => some .invAdjustmentLine
  | "transfer_shipment_line" => some .transferShipmentLine
  | "transfer_receipt_line" => some .transferReceiptLine
  | "manual_adjustment_line" => some .manualAdjustmentLine
  | "revaluation_line" => some .revaluationLine
  | _ => none

def decodeLines : List Line → Except String (List TrxLineRequest)
  | [] => .ok []
  | l :: lines =>
    match decodeLineType l.lineType with
    | none => .error ("unknown line_type '" ++ l.lineType ++ "'")
    | some lineType =>
      (decodeLines lines).map
        (⟨l.poolId, lineType, l.sourceId, l.qty, l.unitCost, l.debitAccount, l.creditAccount⟩ :: ·)

variable (ofMicros : ℤ → Option ℤ)

/-- What one walk over the kept submissions comes to: a fatal error, the first failing index, or all
plans. -/
inductive PassOutcome
  | fatalDecode (e : String)
  | failed (i : ℕ)
  | clean (plans : List PlannedSubmission)
  deriving DecidableEq

def PassOutcome.cons (p : PlannedSubmission) : PassOutcome → PassOutcome
  | clean plans => clean (p :: plans)
  | o => o

/-- The body of the loop in `plan_all_with_inner_replay`: plan the submissions that are not
excluded, the first of them at index `i`. -/
def planPass (excluded : Finset ℕ) : ℕ → Snapshot → List Decoded → PassOutcome
  | _, _, [] => .clean []
  | i, snapshot, d :: kept =>
    if i ∈ excluded then planPass excluded (i + 1) snapshot kept
    else
      let micros := d.submission.postedAtMicros
      match ofMicros micros with
      | none => .fatalDecode s!"submission #{i} posted_at_micros {micros} out of range"
      | some postedAt =>
        match decodeLines d.lines with
        | .error e => .fatalDecode s!"submission #{i}: {e}"
        | .ok lineRequests =>
          match planApply snapshot lineRequests postedAt with
          | .error _ => .failed i
          | .ok (snapshot, plan) =>
            (planPass excluded (i + 1) snapshot kept).cons
              ⟨i, d.submission.trxType, d.submission.sourceId, postedAt, plan⟩

/-- `PlanOutcome`. -/
inductive PlanOutcome
  | clean (plans : List PlannedSubmission)
  | allExcluded
  | fatalDecode (e : String)
  deriving DecidableEq

/-- The loop of `plan_all_with_inner_replay`, with the passes it may still make. -/
def planAllLoop (pristine : Snapshot) (kept : List Decoded) :
    ℕ → Finset ℕ → PlanOutcome × Finset ℕ
  | 0, excluded => (.allExcluded, excluded)
  | cap + 1, excluded =>
    match planPass ofMicros excluded 0 pristine kept with
    | .fatalDecode e => (.fatalDecode e, excluded)
    | .failed i => planAllLoop pristine kept cap (insert i excluded)
    | .clean [] => (.allExcluded, excluded)
    | .clean (p :: plans) => (.clean (p :: plans), excluded)

/-- `plan_all_with_inner_replay`: the outcome and the set it leaves excluded. -/
def planAllWithInnerReplay (pristine : Snapshot) (kept : List Decoded) (excluded : Finset ℕ) :
    PlanOutcome × Finset ℕ :=
  planAllLoop ofMicros pristine kept (kept.length + 1) excluded

/-- How a group ends without a commit: with the `Err` of `run_pristine_replay_loop`, or with an error
of PostgreSQL that `write_plans_in_subtx` does not catch. -/
abbrev GroupError := String ⊕ SqlError

/-- `WriteOutcome`, with the tables a released savepoint leaves. -/
inductive WriteOutcome
  | committed (db : Db)
  | uniqueViolationAt (idx : ℕ)
  | raised (e : SqlError)

/-- `write_plans_in_subtx` -/
def writePlansInSubtx (db : Db) : List PlannedSubmission → WriteOutcome
  | [] => .committed db
  | p :: plans =>
    match db.applyPlanResult p with
    | .ok db => writePlansInSubtx db plans
    | .error .uniqueViolation => .uniqueViolationAt p.idxInKept
    | .error e => .raised e

/-- The loop of `run_pristine_replay_loop`, with the iterations it may still make. -/
def replayLoop (pristine : Snapshot) (db : Db) (kept : List Decoded) :
    ℕ → Finset ℕ → Except GroupError (List PlannedSubmission × Db)
  | 0, _ =>
    let maxIterations := kept.length + 1
    .error (.inl s!"pristine-replay exceeded {maxIterations} iterations without convergence")
  | n + 1, excluded =>
    match planAllWithInnerReplay ofMicros pristine kept excluded with
    | (.allExcluded, _) => .ok ([], db)
    | (.fatalDecode e, _) => .error (.inl e)
    | (.clean plans, excluded) =>
      match writePlansInSubtx db plans with
      | .committed db' => .ok (plans, db')
      | .uniqueViolationAt idx => replayLoop pristine db kept n (insert idx excluded)
      | .raised e => .error (.inr e)

/-- `run_pristine_replay_loop`: the submissions it commits, and the tables after. -/
def runPristineReplayLoop (pristine : Snapshot) (db : Db) (kept : List Decoded) :
    Except GroupError (List PlannedSubmission × Db) :=
  replayLoop ofMicros pristine db kept (kept.length + 1) ∅

/-- What a group leaves: an error rolls its transaction back. -/
def commitGroup (pristine : Snapshot) (db : Db) (kept : List Decoded) :
    List PlannedSubmission × Db :=
  match runPristineReplayLoop ofMicros pristine db kept with
  | .ok r => r
  | .error _ => ([], db)

end Acct.V3
