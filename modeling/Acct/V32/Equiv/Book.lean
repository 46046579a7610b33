import Acct.V32.Book
import Acct.V32.Core.Equiv.Numeric

/-!
# What one operation on a book can do

`Site.exec?_cases` inverts an operation; every invariant of a run of one pool is proved from it and
from what a line of the pool's method does. `netPosted` and `onHand` are the journal's and the
lines' side of an aggregate.
-/

namespace Acct.V32

variable {o : Outcome} {postedAt : ℤ} {line : TrxLineRequest} {op : BookOp}

section Outcome

variable {ref : Reference} {old layer : Option Aggregate}

lemma outcome?_eq_some : ref.outcome? postedAt line old layer = some o ↔
    ref.lineOutcome? line old layer = some o ∧ 0 ≤ o.unitCost ∧
      PeriodGuardAdmits ref.periods.rows postedAt := by
  unfold Reference.outcome?
  rw [Option.filter_eq_some_iff, decide_eq_true_eq]

end Outcome

/-! ### Posted amounts -/

def PostingEventType.inventoryAmount (amount : ℤ) : PostingEventType → ℤ
  | .inventoryReceipt => amount
  | .inventoryDepletion => -amount
  | _ => 0

def PostingLineRequest.inventoryAmount (r : PostingLineRequest) : ℤ :=
  r.eventType.inventoryAmount r.amount

/-- Receipts less depletions. -/
def netPosted (rows : List PostingLineRequest) : ℤ := (rows.map (·.inventoryAmount)).sum

@[simp] lemma netPosted_nil : netPosted [] = 0 := rfl

lemma netPosted_append (rows rows' : List PostingLineRequest) :
    netPosted (rows ++ rows') = netPosted rows + netPosted rows' := by
  simp [netPosted]

/-- Credits less debits of an account. -/
def netCredit (account : ℤ) (rows : List PostingLineRequest) : ℤ :=
  (rows.map fun r =>
    (if r.creditAccount = account then r.amount else 0) -
      (if r.debitAccount = account then r.amount else 0)).sum

lemma netCredit_cons (account : ℤ) (r : PostingLineRequest) (rows : List PostingLineRequest) :
    netCredit account (r :: rows) = (if r.creditAccount = account then r.amount else 0) -
      (if r.debitAccount = account then r.amount else 0) + netCredit account rows := by
  simp [netCredit]

def onHand (lines : List BookLine) : ℤ := (lines.map (·.qty)).sum

@[simp] lemma onHand_nil : onHand [] = 0 := rfl

@[simp] lemma onHand_append_singleton (lines : List BookLine) (l : BookLine) :
    onHand (lines ++ [l]) = onHand lines + l.qty := by
  simp [onHand]

/-! ### Rows by line -/

@[simp] lemma closeLowest_length (lines : List BookLine) :
    (closeLowest lines).length = lines.length := by
  induction lines with
  | nil => rfl
  | cons l ls ih => rw [closeLowest]; split_ifs <;> simp [ih]

namespace PoolBook

variable {b : PoolBook}

@[simp] lemma record_lines_length :
    (b.record line postedAt o).lines.length = b.lines.length + 1 := by
  unfold record
  split_ifs <;> simp

def Placed (b : PoolBook) : Prop := ∀ r ∈ b.postings, r.trxLineIdx < b.lines.length

lemma Placed.record (h : Placed b) : Placed (b.record line postedAt o) := by
  intro r hr
  rw [record_lines_length]
  rcases List.mem_append.mp hr with hr | hr
  · exact Nat.lt_succ_of_lt (h r hr)
  · obtain ⟨leg, -, rfl⟩ := List.mem_map.mp hr
    exact Nat.lt_succ_self _

/-- The journal rows of the line at place `i`. -/
def rowsOf (b : PoolBook) (i : ℕ) : List PostingLineRequest := b.postings.filter (·.trxLineIdx = i)

lemma Placed.rowsOf_record (h : Placed b) : (b.record line postedAt o).rowsOf b.lines.length =
    o.legs.map (·.request b.lines.length postedAt) := by
  have hold : b.postings.filter (·.trxLineIdx = b.lines.length) = [] := by
    rw [List.filter_eq_nil_iff]
    intro r hr
    simpa using (h r hr).ne
  have hnew : (o.legs.map (·.request b.lines.length postedAt)).filter
      (·.trxLineIdx = b.lines.length) = o.legs.map (·.request b.lines.length postedAt) := by
    rw [List.filter_eq_self]
    intro r hr
    obtain ⟨leg, -, rfl⟩ := List.mem_map.mp hr
    simp [Leg.request]
  rw [rowsOf, PoolBook.record, List.filter_append, hold, hnew, List.nil_append]

end PoolBook

namespace Reference

variable (ref : Reference) (p cost : ℤ)

@[simp] lemma pool_setStandard : (ref.setStandard p cost).pool = ref.pool := by
  unfold setStandard; split <;> rfl

@[simp] lemma postingAccountMap_setStandard :
    (ref.setStandard p cost).postingAccountMap = ref.postingAccountMap := by
  unfold setStandard; split <;> rfl

@[simp] lemma periods_setStandard : (ref.setStandard p cost).periods = ref.periods := by
  unfold setStandard; split <;> rfl

end Reference

namespace Site

variable {p : ℤ} {s s' : Site}

def Postable (p : ℤ) (line : TrxLineRequest) : Prop :=
  line.poolId = p ∧ line.qty ≠ 0 ∧ line.InRange

lemma exec?_post :
    exec? p s (.post postedAt line) = some s' ↔ Postable p line ∧
      ∃ o, s.ref.outcome? postedAt line s.book.aggregate s.book.lowest? = some o ∧
        s' = { s with book := s.book.record line postedAt o } := by
  simp only [exec?, PoolBook.post, Postable]
  split_ifs with h
  · simp only [Option.map_map, Option.map_eq_some_iff, Function.comp_apply]
    exact ⟨fun ⟨o, ho, heq⟩ => ⟨h, o, ho, heq.symm⟩, fun ⟨_, o, ho, heq⟩ => ⟨o, ho, heq.symm⟩⟩
  · simp [h]

lemma exec?_cases (h : exec? p s op = some s') :
    (∃ postedAt line o, op = .post postedAt line ∧ Postable p line ∧
      s.ref.outcome? postedAt line s.book.aggregate s.book.lowest? = some o ∧
      s' = { s with book := s.book.record line postedAt o }) ∨
    ∃ cost, op = .setStandard cost ∧ 0 ≤ cost ∧ InI64 cost ∧
      s' = { s with ref := s.ref.setStandard p cost } := by
  cases op with
  | post postedAt line =>
    obtain ⟨hpost, o, ho, rfl⟩ := exec?_post.mp h
    exact .inl ⟨postedAt, line, o, rfl, hpost, ho, rfl⟩
  | setStandard cost =>
    simp only [exec?] at h
    split_ifs at h with hcost
    cases h
    exact .inr ⟨cost, rfl, hcost.1, hcost.2, rfl⟩

structure SameConfig (ref : Reference) (s : Site) : Prop where
  pool : s.ref.pool = ref.pool
  accounts : s.ref.postingAccountMap = ref.postingAccountMap
  periods : s.ref.periods = ref.periods

lemma SameConfig.exec {ref : Reference} (hs : SameConfig ref s) (h : exec? p s op = some s') :
    SameConfig ref s' := by
  rcases exec?_cases h with ⟨_, _, _, -, -, -, rfl⟩ | ⟨cost, -, -, -, rfl⟩
  · exact ⟨hs.pool, hs.accounts, hs.periods⟩
  · exact ⟨by simp [hs.pool], by simp [hs.accounts], by simp [hs.periods]⟩

lemma run_sameConfig (p : ℤ) (ref : Reference) (ops : List BookOp) :
    SameConfig ref (run p ref ops) := by
  unfold run
  refine Machine.run_invariant (fun s op s' h hs => ?_) ⟨rfl, rfl, rfl⟩ ops
  exact SameConfig.exec hs h

lemma run_placed (p : ℤ) (ref : Reference) (ops : List BookOp) :
    (run p ref ops).book.Placed := by
  unfold run
  refine Machine.run_invariant (P := fun s : Site => s.book.Placed) (fun s op s' h hs => ?_) ?_ ops
  · rcases exec?_cases h with ⟨_, _, _, -, -, -, rfl⟩ | ⟨_, -, -, -, rfl⟩
    · exact PoolBook.Placed.record hs
    · exact hs
  · simp [PoolBook.Placed]

end Site

/-! ### A sample ledger -/

/-- Every pool is of the given method; all accounts are set and no period is. -/
def sampleRef (method : PoolMethod) : Reference where
  pool _ := some ⟨method, 1, 1⟩
  standardBasis _ := false
  standardCost _ := none
  postingAccountMap _ := some ⟨(1, 2), (1, 2), (1, 2), (1, 2), (1, 2), (1, 2), some 3⟩
  periods := .empty

/-- Receive into pool 1. -/
def received (qty unitCost : ℤ) : BookOp := .post 0 ⟨1, .poReceiptLine, none, qty, unitCost⟩

/-- Issue from pool 1. -/
def issued (qty : ℤ) : BookOp := .post 0 ⟨1, .transferShipmentLine, none, -qty, 0⟩

end Acct.V32
