import Acct.V32.Direct.Apply

/-!
# The staging drain

`ledger_staging_drain` of `ledger-direct/src/drain.rs` on the tables: claim pending `ledger_inbox`
rows in id order, apply each in a subtransaction, record the outcomes, all in one transaction. A
subtransaction that fails, or a drain that crashes, does not give back identity values. `directAll`
is the same rows submitted with `ledger_submit_trx`.
-/

namespace Acct.V32

/-- A `timestamptz`: Unix time in microseconds, or an infinity. -/
inductive Timestamp
  | finite (us : ℤ)
  | infinite
  deriving DecidableEq

/-- `(extract(epoch FROM posted_at) * 1000000)::bigint`, which raises out of range. -/
def Timestamp.micros? : Timestamp → Option ℤ
  | finite us => toI64? us
  | infinite => none

/-- The times that `DateTime::from_timestamp_micros` accepts: years -262143 to 262142. -/
def InChronoRange (us : ℤ) : Prop := -8334601228800000000 ≤ us ∧ us < 8210266876800000000
  deriving Decidable

inductive InboxStatus
  | pending
  | done
  | failed
  deriving DecidableEq

/-- A row of the inbox. -/
structure InboxRow where
  id : ℤ
  trxType : TrxType
  sourceId : ℤ
  postedAt : Timestamp
  /-- `none` if the payload does not decode. -/
  lines : Option (List LineJson)
  status : InboxStatus

abbrev RowOutcome := ℤ × Bool

namespace InboxRow

variable (row : InboxRow)

def submission (us : ℤ) : Submission := ⟨row.trxType, row.sourceId, us, row.lines, []⟩

def record (outcomes : List RowOutcome) : InboxRow :=
  if (row.id, true) ∈ outcomes then { row with status := .done }
  else if (row.id, false) ∈ outcomes then { row with status := .failed }
  else row

end InboxRow

/-- Identity values drawn by what was rolled back. -/
def LedgerTables.burn (T : LedgerTables) (n : ℕ) : LedgerTables :=
  { T with trxLineSeq := T.trxLineSeq + n }

namespace Reference

variable (ref : Reference)

/-- `ledger_submit_trx` with what the row holds. Its `posted_at` is a text in RFC 3339, which has
four digits for the year. -/
def ledgerSubmitTrx (row : InboxRow) (T : LedgerTables) : Option LedgerTables :=
  match row.postedAt with
  | .finite us =>
    if InTextRange us then ref.apply applyPoolStateMutations (row.submission us) true T else none
  | .infinite => none

/-- A claimed row: decoded, then applied without the backpressure check. -/
def applyClaimed (row : InboxRow) (T : LedgerTables) : Option LedgerTables := do
  let us ← row.postedAt.micros?
  if InChronoRange us ∧ row.lines.isSome then
    ref.apply applyPoolStateMutations (row.submission us) false T
  else none

end Reference

section Settle

variable (submit : InboxRow → LedgerTables → Option LedgerTables) (burned : ℤ → ℕ)

/-- Rows one after the other, each kept or rolled back on its own; `burned` are the identity values
that the row with a given id drew in vain. -/
def settleAll : LedgerTables → List InboxRow → LedgerTables × List RowOutcome
  | T, [] => (T, [])
  | T, row :: rows =>
    match submit row T with
    | some T' => ((settleAll T' rows).1, (row.id, true) :: (settleAll T' rows).2)
    | none =>
      let T' := T.burn (burned row.id)
      ((settleAll T' rows).1, (row.id, false) :: (settleAll T' rows).2)

end Settle

structure Staging where
  tables : LedgerTables
  inbox : List InboxRow

def pendingRows (inbox : List InboxRow) : List InboxRow := inbox.filter (·.status = .pending)

namespace Reference

variable (ref : Reference)

/-- The rows submitted directly, one by one. -/
def directAll (burned : ℤ → ℕ) (T : LedgerTables) (rows : List InboxRow) :
    LedgerTables × List RowOutcome :=
  settleAll ref.ledgerSubmitTrx burned T rows

/-- `ledger_staging_drain`. The claim reads `posted_at` of every claimed row, and raises with it. -/
def ledgerStagingDrain (limit : ℤ) (burned : ℤ → ℕ) (s : Staging) : Option Staging :=
  let batch := (pendingRows s.inbox).take (max limit 1).toNat
  if ∀ row ∈ batch, row.postedAt.micros?.isSome then
    let settled := settleAll ref.applyClaimed burned s.tables batch
    some ⟨settled.1, s.inbox.map (·.record settled.2)⟩
  else none

end Reference

inductive DrainAction
  | drain (limit : ℤ) (burned : ℤ → ℕ)
  | crash (burned : ℕ)

def DrainAction.commits : DrainAction → Bool
  | drain _ _ => true
  | crash _ => false

/-- One committer: a drain, or a crash that leaves only the sequence advanced. -/
def Reference.drainExec? (ref : Reference) (s : Staging) : DrainAction → Option Staging
  | .drain limit burned => ref.ledgerStagingDrain limit burned s
  | .crash burned => some { s with tables := s.tables.burn burned }

def Reference.runDrains (ref : Reference) (T : LedgerTables) (inbox : List InboxRow)
    (actions : List DrainAction) : Staging :=
  Machine.run ref.drainExec? ⟨T, inbox⟩ actions

/-- Nothing is pending. -/
def Staging.Settled (s : Staging) : Prop := pendingRows s.inbox = []

end Acct.V32
