import Acct.V32.Equiv.Range

/-!
# The schedule of a pool

Feed batches and passes come at any time and in any order, and at rest none of this is left to see
(`Pool.run_atRest_congr`). One batch with all lines and one pass reach it, unless the pass finds a
closed period contradicted (`Pool.run_comes_to_rest`).
-/

namespace Acct.V32

open List Machine Option Table

/-- **The schedule does not matter.** Two runs at rest with the same lines agree. -/
theorem Pool.run_atRest_congr (cfg : PoolCfg) (ops ops' : List PoolOp)
    (hrest : (Pool.run cfg ops).AtRest) (hrest' : (Pool.run cfg ops').AtRest)
    (hlines : ∀ t, t ∈ (Pool.run cfg ops).db.lines ↔ t ∈ (Pool.run cfg ops').db.lines) :
    (Pool.run cfg ops).db.layers = (Pool.run cfg ops').db.layers ∧
      (readClaim (Pool.run cfg ops).db.settlement).settled =
        (readClaim (Pool.run cfg ops').db.settlement).settled ∧
      ∀ t ∈ (Pool.run cfg ops).db.lines, t.qty < 0 →
        currentCost (Pool.run cfg ops).db.costSettlements t.id =
          currentCost (Pool.run cfg ops').db.costSettlements t.id := by
  have hinv : ∀ ops, (Pool.run cfg ops).Inv cfg fun _ _ => True := fun ops =>
    Pool.run_inv (preserved_trivial cfg) ops (throughout_of_forall (fun _ _ => trivial) _ _)
  obtain ⟨out, hck, -⟩ := hrest.checkpoint (hinv ops)
  obtain ⟨out', hck', -⟩ := hrest'.checkpoint (hinv ops')
  have hsort : sortLines (Pool.run cfg ops).db.lines = sortLines (Pool.run cfg ops').db.lines := by
    refine eq_of_mem_iff hck.sorted hck'.sorted fun t => ?_
    rw [sortLines, sortLines, mem_sortBy, mem_sortBy, hlines]
  obtain rfl : out = out' := by
    have hfold := hck.fold
    rw [hsort, hck'.fold] at hfold
    exact (some.inj hfold).symm
  refine ⟨hck.layers.trans hck'.layers.symm, ?_, fun t ht hneg => ?_⟩
  · rw [hck.settled, hck'.settled, hsort]
  · obtain ⟨c, hc, hid⟩ := exists_costing_of_mem_lines hck.fold (mem_sortBy.mpr ht) hneg
    rw [← hid, hck.costs c hc, hck'.costs c hc]

/-- The lines of `backdatedReceipt`, all delivered at the end. -/
def deliveredLate : List PoolOp :=
  [.submit ⟨1, 2, .poReceiptLine, 10, 100, none, true⟩,
    .submit ⟨2, 3, .woBackflush, -10, 0, none, true⟩,
    .submit ⟨3, 1, .poReceiptLine, 10, 100, none, true⟩,
    .feed [.physical 1 2, .physical 2 3, .physical 3 1], .pass []]

theorem Pool.run_atRest_congr_deliveredLate :
    (Pool.run (sampleCfg false) deliveredLate).AtRest ∧
      (Pool.run (sampleCfg false) backdatedReceipt).db.layers =
        (Pool.run (sampleCfg false) deliveredLate).db.layers := by
  have hrest : (Pool.run (sampleCfg false) deliveredLate).AtRest := by decide
  have hlines : (Pool.run (sampleCfg false) backdatedReceipt).db.lines =
      (Pool.run (sampleCfg false) deliveredLate).db.lines := by decide
  exact ⟨hrest, (Pool.run_atRest_congr _ _ _ backdatedReceipt_atRest hrest fun t => by
    rw [hlines]).1⟩

/-- A batch with every line. -/
def PoolDb.deliveries (db : PoolDb) : List TrxLineEvent :=
  db.lines.map fun t => .physical t.id t.postedAt

lemma PassFold.frontier_isSome {cfg : PoolCfg} {db : PoolDb} {pass : PassFold}
    (hne : db.lines ≠ []) (hpass : foldPass cfg (readClaim db.settlement) db = some pass) :
    (pass.frontier (readClaim db.settlement)).isSome := by
  unfold PassFold.frontier
  cases hs : (readClaim db.settlement).settled with
  | some f => simp
  | none =>
    obtain ⟨t, ht⟩ := exists_mem_of_ne_nil _ hne
    have hmem : t ∈ pass.scanned := by
      rw [(foldPass_eq_some hpass).1, mem_scanEvents, Claim.scanFrom, hs, ite_self]
      exact ⟨ht, after_none _⟩
    simpa using ne_nil_of_mem hmem

/-- **A pool can always come to rest.** In every run, if the pool has lines, is not halted and has
moved no more than a `bigint`, then a batch with all its lines and a pass bring it to rest, or the
pass records an escalation. -/
theorem Pool.run_comes_to_rest (cfg : PoolCfg) (ops : List PoolOp)
    (periods : List AccountingPeriod) (hne : (Pool.run cfg ops).db.lines ≠ [])
    (hrunning : (Pool.run cfg ops).db.escalation = none)
    (hbound : costBound (Pool.run cfg ops).db.lines ≤ 2 * (2 ^ 63 - 1)) :
    (Pool.run cfg (ops ++ [.feed (Pool.run cfg ops).db.deliveries, .pass periods])).AtRest ∨
      (Pool.run cfg (ops ++ [.feed (Pool.run cfg ops).db.deliveries,
        .pass periods])).db.escalation.isSome := by
  set s := Pool.run cfg ops with hs
  have hcom : ∀ e ∈ s.db.deliveries, Committed s.db e := by
    intro e he
    obtain ⟨t, ht, rfl⟩ := List.mem_map.mp he
    exact ⟨t, ht, rfl, rfl⟩
  let s₁ : Pool := ⟨feedApply cfg s.db.deliveries s.db,
    s.delivered ++ physicalIds s.db.deliveries⟩
  have hfeed : Pool.run cfg (ops ++ [.feed s.db.deliveries]) = s₁ := by
    rw [Pool.run, run_append, run_cons, run_nil]
    exact step_of_some (if_pos hcom)
  obtain ⟨F, out, hck, -, hb⟩ := Pool.run_inv (preserved_bounded cfg)
    (ops ++ [.feed s.db.deliveries]) (throughout_of_forall (fun _ _ => trivial) _ _)
  rw [hfeed] at hck hb
  obtain ⟨pass, hpass⟩ := hck.exists_foldPass
  have hqueued : s₁.db.queued = true := by
    show (s.db.queued || !s.db.deliveries.isEmpty) = true
    simp [PoolDb.deliveries, hne]
  have hsome := (hck.recalcStep_isSome_iff periods hb hqueued hrunning hpass).mpr
    (.inr (hck.inRange_of_costBound_le hb hpass hbound))
  obtain ⟨db', hdb'⟩ := isSome_iff_exists.mp hsome
  have hrun : Pool.run cfg (ops ++ [.feed s.db.deliveries, .pass periods]) =
      { s₁ with db := db' } := by
    rw [show ops ++ [.feed s.db.deliveries, .pass periods] =
      (ops ++ [.feed s.db.deliveries]) ++ [.pass periods] by simp, Pool.run, run_append,
      ← Pool.run, hfeed, run_cons, run_nil]
    exact step_of_some (by simp [Pool.exec?, hdb'])
  rw [hrun]
  obtain ⟨-, -, pass', hpass', ⟨e, -, rfl⟩ | ⟨-, hw⟩⟩ := recalcStep_cases hck.ids hdb'
  · exact .inr (by simp [recordEscalation])
  · refine .inl ⟨fun t ht => ?_, hw.not_queued, ?_⟩
    · rw [hw.lines] at ht
      exact mem_append_right _ (mem_physicalIds.mpr ⟨_, mem_map_of_mem ht⟩)
    · rw [hw.settlement]
      exact pass'.settlement_floor _ (PassFold.frontier_isSome hne hpass')

/-- Nothing of the run has been delivered. -/
theorem Pool.run_comes_to_rest_submitted :
    (Pool.run (sampleCfg false) (backdatedReceipt.take 2)).delivered = [] ∧
      ((Pool.run (sampleCfg false) (backdatedReceipt.take 2 ++
          [.feed (Pool.run (sampleCfg false) (backdatedReceipt.take 2)).db.deliveries,
            .pass []])).AtRest ∨
        (Pool.run (sampleCfg false) (backdatedReceipt.take 2 ++
          [.feed (Pool.run (sampleCfg false) (backdatedReceipt.take 2)).db.deliveries,
            .pass []])).db.escalation.isSome) :=
  ⟨by decide, Pool.run_comes_to_rest _ _ _ (by decide) (by decide) (by decide)⟩

end Acct.V32
