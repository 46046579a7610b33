import Acct.Machine.Exclusive
import Acct.Machine.Run
import Acct.V32.Db.Period

/-!
# The stamp fence

Concurrent transactions around a period close, statement by statement: physical inserts with the
trigger `period_guard_trx_line` (`db/migrations/0024`), `ledger_close_period`
(`ledger-direct/src/close.rs`), and updates and deletes of `accounting_period` that its transition
guard (`0023`) lets through. A statement that would have to wait is not enabled. What the close does
to the pools between the gate and the fence does not touch these tables; the gate's outcome is an
input of its step.
-/

namespace Acct.V32.Fence

open Machine

variable (s : State) (i : ℕ)

/-- A physical `trx_line`, with whether its pool is FIFO or LIFO. -/
structure PhysicalEvent where
  id : ℤ
  postedAt : ℤ
  strict : Bool
  deriving DecidableEq

/-- The FIFO/LIFO events before an instant: what `in_period_event_count` counts. -/
def strictBefore (events : List PhysicalEvent) (endAt : ℤ) : List PhysicalEvent :=
  events.filter fun e => e.strict ∧ e.postedAt < endAt

/-! ### Transactions -/

/-- Where an insert is in `period_guard_trx_line`. -/
inductive Guard
  /-- It holds the shared side of `(32022, 0)`. -/
  | sentinel (e : PhysicalEvent)
  /-- It has the covering periods still to check. -/
  | coverage (e : PhysicalEvent) (todo : List ℤ)
  /-- It holds the shared side of `(32022, id)` and is to read the state. -/
  | locked (e : PhysicalEvent) (id : ℤ) (todo : List ℤ)
  deriving DecidableEq

/-- A transaction that inserts physical events. -/
structure Inserter where
  /-- Inserted and not committed. -/
  pending : List PhysicalEvent := []
  /-- The periods whose key it holds the shared side of. -/
  keys : List ℤ := []
  guard : Option Guard := none
  deriving DecidableEq

/-- Where `ledger_close_period` is, with the period row it loaded and the events it counted. -/
inductive CloseStage
  | mutex
  | loaded (period : AccountingPeriod)
  | ordered (period : AccountingPeriod)
  | counted (period : AccountingPeriod) (gate : List PhysicalEvent)
  | gated (period : AccountingPeriod) (gate : List PhysicalEvent)
  /-- It holds the exclusive side of `(32022, 0)`. -/
  | sentinel (period : AccountingPeriod) (gate : List PhysicalEvent)
  /-- It also holds the exclusive side of `(32022, id)`. -/
  | fenced (period : AccountingPeriod) (gate : List PhysicalEvent)
  | recounted (period : AccountingPeriod) (gate : List PhysicalEvent)
  | stamped (period : AccountingPeriod) (gate : List PhysicalEvent) (row : AccountingPeriod)
  | marked (row : AccountingPeriod)
  deriving DecidableEq

/-- A row write: the id of the committed row, and its new version or its deletion. -/
abbrev RowWrite := ℤ × Option AccountingPeriod

/-- The transactions on the periods. -/
inductive Tx
  | inserter (t : Inserter)
  | closer (id : ℤ) (stage : CloseStage)
  | updater (writes : List RowWrite)
  | finished
  deriving DecidableEq

namespace Tx

/-- The events a commit makes visible. -/
def pending : Tx → List PhysicalEvent
  | inserter t => t.pending
  | _ => []

/-- The `accounting_period` rows a commit changes; it holds their row locks. -/
def writes : Tx → List RowWrite
  | closer id (.stamped _ _ row) => [(id, some row)]
  | closer id (.marked row) => [(id, some row)]
  | updater ws => ws
  | _ => []

/-- It holds the shared side of `(32022, 0)`. -/
def SharesSentinel : Tx → Prop
  | inserter t => t.pending ≠ [] ∨ t.guard.isSome
  | _ => False

/-- It holds the exclusive side of `(32022, 0)`. -/
def OwnsSentinel : Tx → Prop
  | closer _ (.sentinel ..) | closer _ (.fenced ..) | closer _ (.recounted ..)
  | closer _ (.stamped ..) => True
  | _ => False

/-- It holds the shared side of `(32022, id)`. -/
def SharesKey (id : ℤ) : Tx → Prop
  | inserter t => id ∈ t.keys
  | _ => False

/-- It holds the exclusive side of `(32022, id)`. -/
def OwnsKey (id : ℤ) : Tx → Prop
  | closer id' (.fenced ..) | closer id' (.recounted ..) | closer id' (.stamped ..) => id' = id
  | _ => False

/-- It holds the closer mutex `(32021, id)`. -/
def OwnsMutex (id : ℤ) : Tx → Prop
  | closer id' _ => id' = id
  | _ => False

/-- It holds the row lock of the committed row `id`. -/
def OwnsRow (id : ℤ) (tx : Tx) : Prop := id ∈ tx.writes.map (·.1)

def CanCommit : Tx → Prop
  | inserter t => t.guard = none
  | closer _ (.stamped ..) | closer _ (.marked _) | updater _ => True
  | _ => False

instance : DecidablePred SharesSentinel := fun tx => by
  unfold SharesSentinel; split <;> infer_instance
instance : DecidablePred OwnsSentinel := fun tx => by unfold OwnsSentinel; split <;> infer_instance
instance (id : ℤ) : DecidablePred (SharesKey id) := fun tx => by
  unfold SharesKey; split <;> infer_instance
instance (id : ℤ) : DecidablePred (OwnsKey id) := fun tx => by
  unfold OwnsKey; split <;> infer_instance
instance (id : ℤ) : DecidablePred (OwnsMutex id) := fun tx => by
  unfold OwnsMutex; split <;> infer_instance
instance (id : ℤ) : DecidablePred (OwnsRow id) := fun tx => by unfold OwnsRow; infer_instance
instance : DecidablePred CanCommit := fun tx => by unfold CanCommit; split <;> infer_instance

end Tx

/-- A committed close: the stamped row, what it counted at gate entry, and the same selection by the
stamped row's end at the stamp. -/
structure Close where
  row : AccountingPeriod
  atGate : List PhysicalEvent
  atStamp : List PhysicalEvent
  deriving DecidableEq

/-- The committed tables, the closes so far, and the transactions begun so far. -/
structure State where
  periods : PeriodTable
  events : List PhysicalEvent
  closes : List Close := []
  txs : List Tx := []
  deriving DecidableEq

namespace State

def setTx (tx : Tx) : State := { s with txs := s.txs.set i tx }

def row? (id : ℤ) : Option AccountingPeriod := s.periods.rows.find? (·.id = id)

/-! ### The insert trigger -/

/-- The first statement of the trigger: `pg_advisory_xact_lock_shared(32022, 0)`. -/
def startInsert (e : PhysicalEvent) (t : Inserter) : Option Tx :=
  if t.guard = none ∧ NoOther s.txs i Tx.OwnsSentinel then
    some (.inserter { t with guard := some (.sentinel e) })
  else none

/-- The next statement of the trigger. A raised `PeriodClosed` ends the transaction. -/
def guardStep (t : Inserter) : Option Tx :=
  match t.guard with
  | none => none
  | some (.sentinel e) =>
    let ids := (s.periods.rows.filter fun p => p.Covers e.postedAt).map (·.id)
    some (.inserter { t with guard := some (.coverage e ids) })
  | some (.coverage e (id :: todo)) =>
    if NoOther s.txs i (Tx.OwnsKey id) then
      some (.inserter { t with keys := t.keys ++ [id], guard := some (.locked e id todo) })
    else none
  | some (.locked e id todo) =>
    if ∃ p ∈ s.row? id, p.state = .isClosed then some .finished
    else some (.inserter { t with guard := some (.coverage e todo) })
  | some (.coverage e []) =>
    -- the frontier check
    if Frozen s.periods.rows e.postedAt then some .finished
    else some (.inserter { t with pending := t.pending ++ [e], guard := none })

/-! ### The close -/

/-- `mark_closing`: waits for the row lock, then re-reads the row. -/
def markClosing (id : ℤ) : Option Tx :=
  match s.row? id with
  | none => some .finished
  | some r =>
    if ¬ NoOther s.txs i (Tx.OwnsRow id) then none
    else if r.state = .isOpen then some (.closer id (.marked { r with state := .isClosing }))
    else some .finished

/-- `stamp_closed` -/
def stampClosed (id : ℤ) (period : AccountingPeriod) (gate : List PhysicalEvent) : Option Tx :=
  match s.row? id with
  | none => some .finished
  | some r =>
    if ¬ NoOther s.txs i (Tx.OwnsRow id) then none
    else if r.state = .isClosed then some .finished
    else some (.closer id (.stamped period gate { r with state := .isClosed }))

/-- The next statement of `ledger_close_period`; `passes` is the outcome of the gate. An error, and
the report on a closed period, end the transaction. -/
def closeStep (id : ℤ) (passes : Bool) : CloseStage → Option Tx
  | .mutex =>
    match s.row? id with
    | none => some .finished
    | some p => if p.state = .isClosed then some .finished else some (.closer id (.loaded p))
  | .loaded period =>
    if ∃ q ∈ s.periods.rows, q.state ≠ .isClosed ∧ ∃ r ∈ s.row? id, q.startDate < r.startDate then
      some .finished
    else some (.closer id (.ordered period))
  | .ordered period => some (.closer id (.counted period (strictBefore s.events period.endAt)))
  | .counted period gate =>
    if passes then some (.closer id (.gated period gate)) else s.markClosing i id
  | .gated period gate =>
    if NoOther s.txs i fun tx => tx.SharesSentinel ∨ tx.OwnsSentinel then
      some (.closer id (.sentinel period gate))
    else none
  | .sentinel period gate =>
    if NoOther s.txs i fun tx => tx.SharesKey id ∨ tx.OwnsKey id then
      some (.closer id (.fenced period gate))
    else none
  | .fenced period gate =>
    if (strictBefore s.events period.endAt).length = gate.length then
      some (.closer id (.recounted period gate))
    else some .finished
  | .recounted period gate => s.stampClosed i id period gate
  | .stamped .. => none
  | .marked _ => none

/-! ### Updates and deletes of periods -/

/-- `accounting_period_transition_guard`, on an update or a delete of a row. -/
def TransitionAllowed (old : AccountingPeriod) : Option AccountingPeriod → Prop
  | none => old.state ≠ .isClosed
  | some new => (old.state = .isOpen ∧ new.state = .isClosing) ∨
      (old.state = .isOpen ∧ new.state = .isClosed) ∨
      (old.state = .isClosing ∧ new.state = .isClosed)

instance (old : AccountingPeriod) (new : Option AccountingPeriod) :
    Decidable (TransitionAllowed old new) := by
  unfold TransitionAllowed; split <;> infer_instance

/-- The version of a row a transaction sees: its own write, else the committed one. -/
def visibleRow (writes : List RowWrite) (id : ℤ) : Option AccountingPeriod :=
  match writes.find? (·.1 = id) with
  | some w => w.2
  | none => s.row? id

/-- An `UPDATE` or `DELETE` of one row. -/
def updateRow (writes : List RowWrite) (id : ℤ) (new : Option AccountingPeriod) : Option Tx :=
  if NoOther s.txs i (Tx.OwnsRow id) ∧ ∃ old ∈ s.visibleRow writes id, TransitionAllowed old new then
    some (.updater ((id, new) :: writes.filter (·.1 ≠ id)))
  else none

end State

/-! ### Commits -/

def applyWrites (rows : List AccountingPeriod) (writes : List RowWrite) : List AccountingPeriod :=
  rows.filterMap fun r =>
    match writes.find? (·.1 = r.id) with
    | some w => w.2
    | none => some r

/-- The table with these rows, if its constraints hold. -/
def tableOf (rows : List AccountingPeriod) : Option PeriodTable :=
  if h : (rows.map (·.id)).Nodup ∧
      rows.Pairwise fun p q => p.endDate < q.startDate ∨ q.endDate < p.startDate then
    some ⟨rows, h.1, h.2⟩
  else none

def Tx.close (events : List PhysicalEvent) : Tx → List Close
  | .closer _ (.stamped _ gate row) => [⟨row, gate, strictBefore events row.endAt⟩]
  | _ => []

def State.commit (tx : Tx) : Option State :=
  if tx.CanCommit then
    (tableOf (applyWrites s.periods.rows tx.writes)).map fun periods =>
      { periods, events := s.events ++ tx.pending, closes := s.closes ++ tx.close s.events
        txs := s.txs.set i .finished }
  else none

/-! ### Runs -/

inductive Action
  | beginInsert
  /-- A call of `ledger_close_period`, up to its closer mutex. -/
  | beginClose (period : ℤ)
  | beginUpdate
  | insert (i : ℕ) (e : PhysicalEvent)
  | guard (i : ℕ)
  /-- The insert in progress is rolled back to a savepoint. -/
  | rollbackInsert (i : ℕ)
  | close (i : ℕ) (passes : Bool)
  | update (i : ℕ) (id : ℤ) (new : Option AccountingPeriod)
  | commit (i : ℕ)
  | abort (i : ℕ)

def State.exec? : Action → Option State
  | .beginInsert => some { s with txs := s.txs ++ [.inserter {}] }
  | .beginClose id =>
    if NoOther s.txs s.txs.length (Tx.OwnsMutex id) then
      some { s with txs := s.txs ++ [.closer id .mutex] }
    else none
  | .beginUpdate => some { s with txs := s.txs ++ [.updater []] }
  | .insert i e =>
    match s.txs[i]? with
    | some (.inserter t) => (s.startInsert i e t).map (s.setTx i)
    | _ => none
  | .guard i =>
    match s.txs[i]? with
    | some (.inserter t) => (s.guardStep i t).map (s.setTx i)
    | _ => none
  | .rollbackInsert i =>
    match s.txs[i]? with
    | some (.inserter t) => some (s.setTx i (.inserter { t with guard := none }))
    | _ => none
  | .close i passes =>
    match s.txs[i]? with
    | some (.closer id stage) => (s.closeStep i id passes stage).map (s.setTx i)
    | _ => none
  | .update i id new =>
    match s.txs[i]? with
    | some (.updater ws) => (s.updateRow i ws id new).map (s.setTx i)
    | _ => none
  | .commit i =>
    match s.txs[i]? with
    | some tx => s.commit i tx
    | none => none
  | .abort i =>
    match s.txs[i]? with
    | some _ => some (s.setTx i .finished)
    | none => none

/-- A run from committed tables, with no transaction in flight. -/
def run (periods : PeriodTable) (events : List PhysicalEvent) (actions : List Action) : State :=
  Machine.run State.exec? { periods, events } actions

end Acct.V32.Fence
