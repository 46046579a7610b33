import Acct.Isolation.Program
import Acct.Machine.Exclusive
import Acct.Machine.Run

/-!
# Transactions at isolation level READ COMMITTED

Each statement sees the last committed database with the session's own writes on top
(`Session.view`). A statement whose row locks conflict with those of another session waits; one that
breaks a constraint, and a client at any time, aborts the transaction, which leaves nothing behind
but the sequence values it drew.
-/

namespace Acct.Isolation

open Machine

variable {D W R ε α κ : Type*}

/-- What has become of a transaction. -/
inductive Status (α : Type*)
  | running
  | committed (a : α)
  | aborted
  deriving DecidableEq

/-- A transaction: what is left to run, and what it wrote, locked and drew. -/
structure Session (D W R ε α κ : Type*) where
  call : κ
  opened : D
  prog : Prog D W R ε α
  status : Status α := .running
  log : List W := []
  locks : List (R × RowLock) := []
  drawn : List ℕ := []

/-- The committed database, the sequence and the sessions. -/
structure State (D W R ε α κ : Type*) where
  db : D
  seq : ℕ := 0
  sessions : List (Session D W R ε α κ) := []

/-- A call begins, or a session runs on or is given up. -/
inductive Move (κ : Type*)
  | start (c : κ)
  | step (i : ℕ)
  | abort (i : ℕ)
  deriving DecidableEq

namespace Session

/-- The committed database with the session's writes on top. -/
def view (S : Schema D W R ε) (u : Session D W R ε α κ) (db : D) : D := S.applyAll u.log db

/-- The session holds a lock that conflicts with one of these. -/
def Blocks (u : Session D W R ε α κ) (ls : List (R × RowLock)) : Prop :=
  ∃ h ∈ u.locks, ∃ l ∈ ls, h.1 = l.1 ∧ h.2.conflicts l.2 = true

instance [DecidableEq R] (ls : List (R × RowLock)) :
    DecidablePred fun u : Session D W R ε α κ => u.Blocks ls := fun u =>
  inferInstanceAs (Decidable (∃ h ∈ u.locks, ∃ l ∈ ls, h.1 = l.1 ∧ h.2.conflicts l.2 = true))

def finish (u : Session D W R ε α κ) (st : Status α) : Session D W R ε α κ :=
  { u with status := st, log := [], locks := [], drawn := [] }

end Session

namespace State

/-- The sessions after session `i` has moved. -/
def put (s : State D W R ε α κ) (i : ℕ) (u : Session D W R ε α κ) : State D W R ε α κ :=
  { s with sessions := s.sessions.set i u }

variable [DecidableEq R]

/-- Running session `i` runs on; `none` while it waits for a lock. -/
def advance (S : Schema D W R ε) (s : State D W R ε α κ) (i : ℕ) (u : Session D W R ε α κ) :
    Option (State D W R ε α κ) :=
  match u.prog with
  | .ret a => some { s.put i (u.finish (.committed a)) with db := u.view S s.db }
  | .raise _ => some (s.put i (u.finish .aborted))
  | .lock r m k =>
    if NoOther s.sessions i fun v => v.Blocks [(r, m)] then
      some (s.put i { u with prog := k, locks := (r, m) :: u.locks })
    else none
  | .draw k =>
    some { s.put i { u with prog := k s.seq, drawn := s.seq :: u.drawn } with seq := s.seq + 1 }
  | .stmt ws k =>
    let d := u.view S s.db
    if NoOther s.sessions i fun v => v.Blocks ((ws d).flatMap S.locks) then
      match S.perform (ws d) d with
      | .error _ => some (s.put i (u.finish .aborted))
      | .ok _ =>
        some (s.put i { u with
            prog := k d
            log := u.log ++ ws d
            locks := (ws d).flatMap S.locks ++ u.locks })
    else none

/-- One move; `none` if it is not possible now. -/
def exec? (S : Schema D W R ε) (program : κ → Prog D W R ε α) (s : State D W R ε α κ) :
    Move κ → Option (State D W R ε α κ)
  | .start c =>
    some { s with sessions := s.sessions ++ [{ call := c, opened := s.db, prog := program c }] }
  | .step i =>
    s.sessions[i]?.bind fun u =>
      match u.status with
      | .running => s.advance S i u
      | _ => none
  | .abort i =>
    s.sessions[i]?.bind fun u =>
      match u.status with
      | .running => some (s.put i (u.finish .aborted))
      | _ => none

end State

end Acct.Isolation
