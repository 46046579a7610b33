import Acct.V32.Core.Types

/-!
# Accounting periods

The `accounting_period` table (`db/migrations/0002`, `0021`) and the date boundaries the guards of
`0024` pin to UTC: a period covers the instants from the start of its first day to the start of the
day after its last.
-/

namespace Acct.V32

/-- The `accounting_period.state` values `open`, `closing` and `closed`. -/
inductive PeriodState
  | isOpen
  | isClosing
  | isClosed
  deriving DecidableEq

/-- One `accounting_period` row; dates are day numbers. -/
structure AccountingPeriod where
  id : ℤ
  startDate : ℤ
  endDate : ℤ
  state : PeriodState
  start_le_end : startDate ≤ endDate
  deriving DecidableEq

/-- `date::timestamp AT TIME ZONE 'UTC'`, in microseconds. -/
def dayStart (d : ℤ) : ℤ := d * 86400000000

namespace AccountingPeriod

/-- The first instant after the period. -/
def endAt (p : AccountingPeriod) : ℤ := dayStart (p.endDate + 1)

def Covers (p : AccountingPeriod) (at' : ℤ) : Prop := dayStart p.startDate ≤ at' ∧ at' < p.endAt
  deriving Decidable

end AccountingPeriod

def closedPeriods (periods : List AccountingPeriod) : List AccountingPeriod :=
  periods.filter (·.state = .isClosed)

def closedFrontier (periods : List AccountingPeriod) : Option ℤ :=
  ((closedPeriods periods).map (·.endAt)).max?

/-- The instant is frozen: it lies below the closed frontier. -/
def Frozen (periods : List AccountingPeriod) (at' : ℤ) : Prop :=
  ∃ f ∈ closedFrontier periods, at' < f
  deriving Decidable

/-- What `period_guard_trx_line` checks of a new physical line's `posted_at`, and
`period_guard_cost_settlement` of a re-costed depletion's: no closed period covers it, and it is
not below the closed frontier. -/
def PeriodGuardAdmits (periods : List AccountingPeriod) (at' : ℤ) : Prop :=
  (∀ p ∈ periods, p.Covers at' → p.state ≠ .isClosed) ∧ ¬ Frozen periods at'
  deriving Decidable

/-- The `accounting_period` table with its primary key and its exclusion constraint. -/
structure PeriodTable where
  rows : List AccountingPeriod
  ids_nodup : (rows.map (·.id)).Nodup
  no_overlap : rows.Pairwise fun p q => p.endDate < q.startDate ∨ q.endDate < p.startDate
  deriving DecidableEq

def PeriodTable.empty : PeriodTable := ⟨[], List.nodup_nil, List.Pairwise.nil⟩

def PeriodTable.setState (periods : PeriodTable) (id : ℤ) (state : PeriodState) : PeriodTable where
  rows := periods.rows.map fun p => if p.id = id then { p with state } else p
  ids_nodup := by
    have hid : ((fun p : AccountingPeriod => p.id) ∘
        fun p => if p.id = id then { p with state } else p) = fun p => p.id := by
      funext p
      by_cases h : p.id = id <;> simp [h]
    rw [List.map_map, hid]
    exact periods.ids_nodup
  no_overlap := by
    rw [List.pairwise_map]
    refine periods.no_overlap.imp fun {p q} h => ?_
    by_cases hp : p.id = id <;> by_cases hq : q.id = id <;> simpa [hp, hq] using h

end Acct.V32
