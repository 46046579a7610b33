import Mathlib.Data.List.Basic

/-!
# Transactions as programs

The body of a transaction, as a tree of the statements it runs. A statement sees the database as it
is when it starts, with the transaction's own writes. Row locks are held to the end of the
transaction, and no value of the sequence is given out twice. `Prog.run` is the transaction on its
own.
-/

namespace Acct.Isolation

/-- Strengths of row locks: `keyShare` of a row that is referenced, `noKeyUpdate` of an `UPDATE`
that leaves the key alone, `update` of a `SELECT ... FOR UPDATE`. -/
inductive RowLock
  | keyShare
  | noKeyUpdate
  | update
  deriving DecidableEq

/-- Two sessions cannot hold both. -/
def RowLock.conflicts : RowLock → RowLock → Bool
  | .keyShare, .keyShare => false
  | .keyShare, .noKeyUpdate => false
  | .noKeyUpdate, .keyShare => false
  | .noKeyUpdate, .noKeyUpdate => true
  | .update, _ => true
  | _, .update => true

/-- What a schema says of its writes: their effect on the database, the constraints they must meet
there, and the rows they lock. -/
structure Schema (D W R ε : Type*) where
  apply : W → D → D
  check : W → D → Except ε Unit
  locks : W → List (R × RowLock)

/-- A transaction with result `α`, over databases `D`, writes `W`, rows `R` and errors `ε`. -/
inductive Prog (D W R ε α : Type*)
  | ret (a : α)
  | raise (e : ε)
  | lock (r : R) (m : RowLock) (k : Prog D W R ε α)
  | draw (k : ℕ → Prog D W R ε α)
  /-- A statement: what it writes and what follows it, from what it sees. -/
  | stmt (ws : D → List W) (k : D → Prog D W R ε α)

namespace Prog

variable {D W R ε α β : Type*}

protected def bind : Prog D W R ε α → (α → Prog D W R ε β) → Prog D W R ε β
  | .ret a, f => f a
  | .raise e, _ => .raise e
  | .lock r m k, f => .lock r m (k.bind f)
  | .draw k, f => .draw fun n => (k n).bind f
  | .stmt ws k, f => .stmt ws fun d => (k d).bind f

instance : Monad (Prog D W R ε) where
  pure := .ret
  bind := Prog.bind

/-! ### Statements -/

/-- A statement that reads. -/
def query (f : D → α) : Prog D W R ε α := .stmt (fun _ => []) fun d => .ret (f d)

/-- A read that may raise. -/
def fetch (f : D → Except ε α) : Prog D W R ε α :=
  .stmt (fun _ => []) fun d =>
    match f d with
    | .ok a => .ret a
    | .error e => .raise e

/-- A statement with one write. -/
def exec (w : W) : Prog D W R ε Unit := .stmt (fun _ => [w]) fun _ => .ret ()

def execAll (ws : List W) : Prog D W R ε Unit := .stmt (fun _ => ws) fun _ => .ret ()

def lockRow (r : R) (m : RowLock) : Prog D W R ε Unit := .lock r m (.ret ())

def lockRows (m : RowLock) : List R → Prog D W R ε Unit
  | [] => .ret ()
  | r :: rs => .lock r m (lockRows m rs)

/-- A value of the sequence. -/
def nextval : Prog D W R ε ℕ := .draw .ret

/-- Fails unless `p`. -/
def ensure (p : Prop) [Decidable p] (e : ε) : Prog D W R ε Unit := if p then .ret () else .raise e

end Prog

/-! ### A transaction on its own -/

namespace Schema

variable {D W R ε : Type*} (S : Schema D W R ε)

def applyAll (ws : List W) (d : D) : D := ws.foldl (fun d w => S.apply w d) d

/-- The writes in order, each checked where it is made. -/
def perform : List W → D → Except ε D
  | [], d => .ok d
  | w :: ws, d =>
    match S.check w d with
    | .error e => .error e
    | .ok () => perform ws (S.apply w d)

end Schema

/-- The transaction on its own, from the next sequence value and the database: its result, and what
it leaves. -/
def Prog.run {D W R ε α : Type*} (S : Schema D W R ε) :
    Prog D W R ε α → ℕ → D → Except ε (α × ℕ × D)
  | .ret a, n, d => .ok (a, n, d)
  | .raise e, _, _ => .error e
  | .lock _ _ k, n, d => k.run S n d
  | .draw k, n, d => (k n).run S (n + 1) d
  | .stmt ws k, n, d =>
    match S.perform (ws d) d with
    | .error e => .error e
    | .ok d' => (k d).run S n d'

end Acct.Isolation
