import Acct.Machine.Exclusive
import Acct.Machine.Run
import Mathlib.Order.Lattice

/-!
# Transactions that lock keys

A statement locks its keys one by one, then reads and writes them and no others; locks are exclusive
and held to the end of the transaction. A transaction runs a batch of units, each a list of
statements. An isolating transaction runs every unit under a savepoint: a unit that fails is rolled
back alone, with its locks, and recorded. Any other aborts with its first failure. A transaction on
a cycle of waits may be chosen as the victim: its statement fails.
-/

namespace Acct.Locking

variable {κ : Type*} [LinearOrder κ] {β : κ → Type*} [∀ k, Inhabited (β k)]

/-- A value under every key. -/
abbrev Store (β : κ → Type*) := (k : κ) → β k

/-- The values written so far. -/
abbrev Overlay (β : κ → Type*) := (k : κ) → Option (β k)

def Store.over (s : Store β) (o : Overlay β) : Store β := fun k => (o k).getD (s k)

/-! ### Statements -/

/-- Its keys, a check before it locks them, and what it does then. -/
structure Stmt (β : κ → Type*) where
  locks : List κ
  early : Store β → Bool
  /-- The new values of its keys; `none` if it fails. -/
  effect : Store β → Option (Store β)

def Store.restrict (s : Store β) (ks : List κ) : Store β := fun k => if k ∈ ks then s k else default

/-- The statement on its own. -/
def Stmt.run (st : Stmt β) (s : Store β) : Option (Store β) :=
  if st.early (s.restrict st.locks) then none
  else (st.effect (s.restrict st.locks)).map fun r k => if k ∈ st.locks then r k else s k

def runAll (unit : List (Stmt β)) (s : Store β) : Option (Store β) :=
  unit.foldlM (fun s st => st.run s) s

/-! ### Transactions -/

/-- Where in its unit a transaction is. -/
inductive Phase (β : κ → Type*)
  | idle
  | ready (rest : List (Stmt β))
  | locking (st : Stmt β) (todo : List κ) (rest : List (Stmt β))
  | waiting (st : Stmt β) (k : κ) (todo : List κ) (rest : List (Stmt β))
  | done

/-- A transaction, with what it held and wrote at the savepoint. -/
structure Tx (β : κ → Type*) where
  isolates : Bool
  batch : List (List (Stmt β))
  phase : Phase β := .idle
  held : List κ := []
  own : Overlay β := fun _ => none
  unit : List (Stmt β) := []
  ran : List (Stmt β) := []
  savedHeld : List κ := []
  saved : Overlay β := fun _ => none

def Tx.waitsOn? (tx : Tx β) : Option κ :=
  match tx.phase with
  | .waiting _ k _ _ => some k
  | _ => none

def Tx.asksFor? (tx : Tx β) : Option κ :=
  match tx.phase with
  | .locking _ (k :: _) _ => some k
  | _ => none

def Tx.finish (tx : Tx β) : Tx β := { isolates := tx.isolates, batch := [], phase := .done }

def Tx.acquire (tx : Tx β) (st : Stmt β) (k : κ) (todo : List κ) (rest : List (Stmt β)) : Tx β :=
  { tx with held := k :: tx.held, phase := .locking st todo rest }

/-- The transaction has run a statement that leaves `r`. -/
def Tx.record (tx : Tx β) (st : Stmt β) (r : Store β) (rest : List (Stmt β)) : Tx β :=
  { tx with
    own := fun k => if k ∈ st.locks then some (r k) else tx.own k
    ran := tx.ran ++ [st]
    phase := .ready rest }

/-- A unit that was rolled back alone, with what its transaction had when it began: the locks it
kept from earlier units, and what they wrote. -/
structure Failure (β : κ → Type*) where
  unit : List (Stmt β)
  kept : List κ
  saved : Overlay β
  /-- What was committed when the unit failed. -/
  committed : Store β

/-- What the transaction saw without the unit. -/
def Failure.seen (f : Failure β) : Store β := f.committed.over f.saved

structure State (β : κ → Type*) where
  committed : Store β
  txs : List (Tx β) := []
  failures : List (Failure β) := []

namespace State

/-- A transaction other than `i` holds the lock. -/
def HeldByOther (s : State β) (i : ℕ) (k : κ) : Prop :=
  ¬ Machine.NoOther s.txs i fun tx => k ∈ tx.held

instance (s : State β) (i : ℕ) (k : κ) : Decidable (s.HeldByOther i k) :=
  inferInstanceAs (Decidable (¬ Machine.NoOther s.txs i fun tx => k ∈ tx.held))

/-- The wait-for graph: `i` is blocked on a lock that `j` holds. -/
def WaitsFor (s : State β) (i j : ℕ) : Prop :=
  i ≠ j ∧ ∃ k ∈ (s.txs[i]?).bind Tx.waitsOn?, ∃ tx ∈ s.txs[j]?, k ∈ tx.held

instance (s : State β) (i j : ℕ) : Decidable (s.WaitsFor i j) :=
  inferInstanceAs (Decidable (i ≠ j ∧ ∃ k ∈ (s.txs[i]?).bind Tx.waitsOn?, ∃ tx ∈ s.txs[j]?,
    k ∈ tx.held))

/-- A cycle of waits through `i`. -/
def Cycle (s : State β) (i : ℕ) (path : List ℕ) : Prop :=
  List.IsChain s.WaitsFor (i :: path ++ [i])

instance (s : State β) (i : ℕ) (path : List ℕ) : Decidable (s.Cycle i path) :=
  inferInstanceAs (Decidable (List.IsChain s.WaitsFor (i :: path ++ [i])))

def setTx (s : State β) (i : ℕ) (tx : Tx β) : State β := { s with txs := s.txs.set i tx }

/-- The unit fails, alone or with its transaction. -/
def fail (s : State β) (i : ℕ) (tx : Tx β) : State β :=
  if tx.isolates then
    { s with
      txs := s.txs.set i { tx with phase := .idle, held := tx.savedHeld, own := tx.saved }
      failures := s.failures ++ [⟨tx.unit, tx.savedHeld, tx.saved, s.committed⟩] }
  else s.setTx i tx.finish

/-- The next step of transaction `i`; `none` if it is blocked or has nothing left to do. -/
def next (s : State β) (i : ℕ) (tx : Tx β) : Option (State β) :=
  match tx.phase with
  | .idle =>
    match tx.batch with
    | [] => none
    | unit :: batch =>
      some (s.setTx i { tx with
        batch, unit, ran := [], phase := .ready unit, savedHeld := tx.held, saved := tx.own })
  | .ready [] => some (s.setTx i { tx with phase := .idle })
  | .ready (st :: rest) =>
    if st.early ((s.committed.over tx.own).restrict st.locks) then some (s.fail i tx)
    else some (s.setTx i { tx with phase := .locking st st.locks rest })
  | .locking st (k :: todo) rest =>
    if s.HeldByOther i k then some (s.setTx i { tx with phase := .waiting st k todo rest })
    else some (s.setTx i (tx.acquire st k todo rest))
  | .locking st [] rest =>
    match st.run (s.committed.over tx.own) with
    | none => some (s.fail i tx)
    | some r => some (s.setTx i (tx.record st r rest))
  | .waiting st k todo rest =>
    if s.HeldByOther i k then none else some (s.setTx i (tx.acquire st k todo rest))
  | .done => none

/-- `COMMIT`, between two units. -/
def commit (s : State β) (i : ℕ) (tx : Tx β) : Option (State β) :=
  match tx.phase, tx.batch with
  | .idle, [] =>
    some { s with committed := s.committed.over tx.own, txs := s.txs.set i tx.finish }
  | _, _ => none

end State

/-! ### Runs -/

inductive Action (β : κ → Type*)
  | begin (isolates : Bool) (batch : List (List (Stmt β)))
  | step (i : ℕ)
  | commit (i : ℕ)
  | abort (i : ℕ)
  /-- `i` is the victim of a cycle of waits. -/
  | deadlock (i : ℕ) (path : List ℕ)

/-- One action; `none` if it is not possible now. -/
def State.exec? (s : State β) : Action β → Option (State β)
  | .begin isolates batch => some { s with txs := s.txs ++ [{ isolates, batch }] }
  | .step i => (s.txs[i]?).bind (s.next i)
  | .commit i => (s.txs[i]?).bind (s.commit i)
  | .abort i => (s.txs[i]?).map fun tx => s.setTx i tx.finish
  | .deadlock i path => if s.Cycle i path then (s.txs[i]?).map (s.fail i) else none

def run (s : Store β) (actions : List (Action β)) : State β :=
  Machine.run State.exec? { committed := s } actions

end Acct.Locking
