import Acct.Locking.Equiv.Transaction
import Acct.V32.Direct.Submit

/-!
# Lock order of submissions and drains

A submission asks for its locks in ascending order: its key, then `pool` rows, then aggregate rows
(`submissionStmts_ascending`). A drain keeps the locks of all submissions of its batch, and a later
one may ask for a lower lock than an earlier one holds. As long as such a request finds the lock
free there is no cycle of waits (`run_no_wait_cycle`); otherwise a drain can deadlock
(`run_deadlocked_drain`).
-/

namespace Acct.V32

open Table Locking

variable {p p' : ℤ} {lines : List TrxLineRequest} {k : Lock}

/-! ### The order of one submission -/

lemma Lock.trxKey_le_pool (t : TrxType) (sourceId p : ℤ) : Lock.trxKey t sourceId ≤ .pool p :=
  Prod.Lex.le_iff.mpr (.inl Nat.zero_lt_one)

lemma Lock.trxKey_le_aggregate (t : TrxType) (sourceId p : ℤ) :
    Lock.trxKey t sourceId ≤ .aggregate p :=
  Prod.Lex.le_iff.mpr (.inl Nat.zero_lt_two)

lemma Lock.pool_le_aggregate (p p' : ℤ) : Lock.pool p ≤ .aggregate p' :=
  Prod.Lex.le_iff.mpr (.inl Nat.one_lt_two)

lemma Lock.pool_le_pool (h : p ≤ p') : Lock.pool p ≤ .pool p' :=
  Prod.Lex.le_iff.mpr (.inr ⟨rfl, Prod.Lex.le_iff.mpr (.inr ⟨rfl, h⟩)⟩)

lemma Lock.aggregate_le_aggregate (h : p ≤ p') : Lock.aggregate p ≤ .aggregate p' :=
  Prod.Lex.le_iff.mpr (.inr ⟨rfl, Prod.Lex.le_iff.mpr (.inr ⟨rfl, h⟩)⟩)

namespace Reference

variable (ref : Reference) (sub : Submission)

lemma mem_keys_coreStmts (h : k ∈ keys (ref.coreStmts sub lines)) : ∃ p, k = .pool p := by
  unfold coreStmts at h
  split_ifs at h
  · cases h
  · rw [keys, List.flatMap_singleton] at h
    obtain ⟨p, -, rfl⟩ := List.mem_map.mp h
    exact ⟨p, rfl⟩

lemma coreStmts_ascending (lines : List TrxLineRequest) : Ascending (ref.coreStmts sub lines) := by
  unfold coreStmts
  split_ifs
  · exact List.Pairwise.nil
  · rw [Ascending, keys, List.flatMap_singleton]
    refine List.pairwise_map.mpr ?_
    exact (pairwise_le_sortBy id _).imp fun h => Lock.pool_le_pool h

lemma keys_cteStmts (lines : List TrxLineRequest) :
    keys (ref.cteStmts sub lines) = (sortBy (·.poolId) lines).flatMap fun line =>
      if (ref.pool line.poolId).isSome then [.aggregate line.poolId] else [] := by
  unfold keys cteStmts
  rw [List.flatMap_map]
  refine List.flatMap_congr fun line _ => ?_
  rcases ref.pool line.poolId with _ | row <;> rfl

lemma mem_keys_cteStmts (h : k ∈ keys (ref.cteStmts sub lines)) : ∃ p, k = .aggregate p := by
  rw [keys_cteStmts] at h
  obtain ⟨line, -, hk⟩ := List.mem_flatMap.mp h
  split_ifs at hk
  · exact ⟨line.poolId, List.mem_singleton.mp hk⟩
  · cases hk

lemma cteStmts_ascending (lines : List TrxLineRequest) : Ascending (ref.cteStmts sub lines) := by
  rw [Ascending, keys_cteStmts, List.pairwise_flatMap]
  refine ⟨fun line _ => ?_, (pairwise_le_sortBy (·.poolId) lines).imp fun {l l'} hle => ?_⟩
  · split_ifs <;> simp
  · intro k hk k' hk'
    split_ifs at hk hk' <;> simp_all
    exact Lock.aggregate_le_aggregate hle

theorem submissionStmts_ascending : Ascending (ref.submissionStmts sub) := by
  unfold submissionStmts
  split
  · simp [Ascending, keys, raiseStmt]
  split_ifs
  · -- the three groups of locks follow each other in the order
    rename_i lines _ _
    show Ascending ([trxStmt sub] ++ (ref.coreStmts sub _ ++ ref.cteStmts sub _))
    unfold Ascending
    rw [keys_append, keys_append, List.pairwise_append, List.pairwise_append]
    refine ⟨List.pairwise_singleton _ _, ⟨ref.coreStmts_ascending sub _,
      ref.cteStmts_ascending sub _, fun k hk k' hk' => ?_⟩, fun k hk k' hk' => ?_⟩
    · obtain ⟨p, rfl⟩ := ref.mem_keys_coreStmts sub hk
      obtain ⟨p', rfl⟩ := ref.mem_keys_cteStmts sub hk'
      exact Lock.pool_le_aggregate p p'
    · obtain rfl : k = .trxKey sub.trxType sub.sourceId := List.mem_singleton.mp hk
      rcases List.mem_append.mp hk' with hk' | hk'
      · obtain ⟨p, rfl⟩ := ref.mem_keys_coreStmts sub hk'
        exact Lock.trxKey_le_pool ..
      · obtain ⟨p, rfl⟩ := ref.mem_keys_cteStmts sub hk'
        exact Lock.trxKey_le_aggregate ..
  · simp [Ascending, keys, raiseStmt]

end Reference

/-! ### Runs -/

variable {ref : Reference}

lemma begins_lower (a : SubmitAction) :
    Begins (fun stmts => ∃ sub, stmts = ref.submissionStmts sub) (a.lower ref) := by
  cases a with
  | submit sub => exact ⟨by simp, fun _ => rfl⟩
  | drain batch =>
    refine ⟨fun unit hunit => ?_, nofun⟩
    obtain ⟨sub, -, rfl⟩ := List.mem_map.mp hunit
    exact ⟨sub, rfl⟩
  | step | commit | abort | deadlock => trivial

/-- **No wait cycle among submissions and drains.** If a drain that has to wait asks for a lock
above those it keeps from earlier submissions of its batch, the wait-for graph never has a cycle. A
submission is marked as failed only if it fails alone on what the drain saw, and on what is then
committed if it shares no key and no pool with those of its batch accepted before it. -/
theorem run_no_wait_cycle (ref : Reference) (s : Store Cell) (actions : List SubmitAction)
    (h : Machine.Throughout State.exec? Ascends { committed := s } (actions.map (·.lower ref))) :
    (∀ i, ¬ Relation.TransGen (runSubmissions ref s actions).WaitsFor i i) ∧
      ∀ f ∈ (runSubmissions ref s actions).failures,
        ∃ sub, f.unit = ref.submissionStmts sub ∧ ref.applySubmission sub f.seen = none ∧
          (f.Apart → ref.applySubmission sub f.committed = none) := by
  have hbegins : ∀ a ∈ actions.map (·.lower ref),
      Begins (fun stmts => ∃ sub, stmts = ref.submissionStmts sub) a := by
    intro a ha
    obtain ⟨b, -, rfl⟩ := List.mem_map.mp ha
    exact begins_lower b
  have hascending : ∀ stmts, (∃ sub, stmts = ref.submissionStmts sub) → Ascending stmts := by
    rintro _ ⟨sub, rfl⟩
    exact ref.submissionStmts_ascending sub
  obtain ⟨hacyclic, hfailures⟩ := run_ascends hascending hbegins h
  refine ⟨hacyclic, fun f hf => ?_⟩
  obtain ⟨⟨sub, hsub⟩, hfails⟩ := hfailures f hf
  refine ⟨sub, hsub, ?_⟩
  rw [Reference.applySubmission, Reference.applySubmission, ← hsub]
  exact hfails

def twoWacPools : Reference where
  pool p := if p = 1 ∨ p = 2 then some ⟨.wac, p, 1⟩ else none
  standardBasis _ := false
  standardCost _ := none
  postingAccountMap _ := some ⟨(1, 2), (1, 2), (1, 2), (1, 2), (1, 2), (1, 2), none⟩
  periods := .empty

/-- A purchase receipt of one unit in each of the pools. -/
def receiptInto (sourceId : ℤ) (pools : List ℤ) : Submission where
  trxType := .poReceipt
  sourceId
  postedAt := 0
  lines := some (pools.map fun p => ⟨p, some .poReceiptLine, none, 1, 100⟩)
  ids := []

def depletionFrom (sourceId : ℤ) (pools : List ℤ) : Submission where
  trxType := .invAdjustment
  sourceId
  postedAt := 0
  lines := some (pools.map fun p => ⟨p, some .invAdjustmentLine, none, -5, 0⟩)
  ids := []

/-- No rows at all. -/
def emptyStore : Store Cell := fun _ => default

/-- The drain has applied its first submission, into pool 2, when a submission into both pools
locks pool 1. -/
def crossedDrain : List SubmitAction :=
  [.drain [receiptInto 1 [2], receiptInto 2 [1]], .submit (receiptInto 3 [1, 2])] ++
    List.replicate 8 (.step 0) ++ List.replicate 9 (.step 1) ++ List.replicate 6 (.step 0)

/-- **A drain deadlocks.** It holds pool 2 and asks for pool 1, the submission the other way round.
If the drain is the victim, a receipt is marked as failed that shares nothing with the accepted one
and succeeds on what the drain saw, and on what is committed. -/
theorem run_deadlocked_drain :
    Relation.TransGen (runSubmissions twoWacPools emptyStore crossedDrain).WaitsFor 0 0 ∧
      ∃ f ∈ (runSubmissions twoWacPools emptyStore (crossedDrain ++ [.deadlock 0 [1]])).failures,
        f.unit = twoWacPools.submissionStmts (receiptInto 2 [1]) ∧ f.Apart ∧
          (twoWacPools.applySubmission (receiptInto 2 [1]) f.seen).isSome ∧
          (twoWacPools.applySubmission (receiptInto 2 [1]) f.committed).isSome := by
  refine ⟨.tail (b := 1) (.single (by decide)) (by decide), ?_⟩
  exact ⟨_, List.mem_singleton_self _, rfl, by decide, by decide, by decide⟩

/-- The drain's second submission has nothing to deplete; its third waits for a submission into pool
2. -/
def orderlyDrain : List SubmitAction :=
  [.drain [receiptInto 1 [1], depletionFrom 2 [2], receiptInto 3 [2]],
    .submit (receiptInto 4 [2])] ++
    List.replicate 8 (.step 1) ++ List.replicate 19 (.step 0)

theorem run_orderlyDrain_no_wait_cycle :
    (runSubmissions twoWacPools emptyStore orderlyDrain).WaitsFor 0 1 ∧
      (runSubmissions twoWacPools emptyStore orderlyDrain).failures.length = 1 ∧
      (∀ f ∈ (runSubmissions twoWacPools emptyStore orderlyDrain).failures, f.Apart) ∧
      (∀ i, ¬ Relation.TransGen (runSubmissions twoWacPools emptyStore orderlyDrain).WaitsFor i i) ∧
      ∀ f ∈ (runSubmissions twoWacPools emptyStore orderlyDrain).failures,
        ∃ sub, f.unit = twoWacPools.submissionStmts sub ∧
          twoWacPools.applySubmission sub f.seen = none ∧
          (f.Apart → twoWacPools.applySubmission sub f.committed = none) :=
  ⟨by decide +kernel, by decide +kernel, by decide +kernel,
    run_no_wait_cycle twoWacPools emptyStore orderlyDrain (by decide +kernel)⟩

end Acct.V32
