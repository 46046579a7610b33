import Acct.V32.Equiv.Book

/-!
# Specific pools

A specific pool holds one layer at a time, named after its receipt; a depletion deletes it. The gate
of a depletion asks only that the layer holds enough, so a partial depletion deletes the layer and
leaves the rest of the quantity in the aggregate, and nothing can be posted any more
(`run_partial_depletion`). While every depletion takes the whole layer, aggregate and layer are one
(`Site.run_specific_inStep`).
-/

namespace Acct.V32

variable {ref : Reference} {row : PoolRow} {accounts : PostingAccounts} {postedAt : ℤ}
  {line : TrxLineRequest} {o : Outcome}

/-! ### Layers of a book -/

def PoolBook.openLayers (b : PoolBook) : List Aggregate := b.lines.filterMap (·.layer)

lemma PoolBook.lowest?_eq_head? (b : PoolBook) : b.lowest? = b.openLayers.head? := by
  rw [lowest?, openLayers, List.head?_filterMap]

lemma filterMap_layer_closeLowest (lines : List BookLine) :
    (closeLowest lines).filterMap (·.layer) = (lines.filterMap (·.layer)).tail := by
  induction lines with
  | nil => rfl
  | cons l ls ih =>
    rw [closeLowest]
    cases hl : l.layer with
    | none => simpa [hl] using ih
    | some a => simp [hl]

/-! ### One line -/

inductive SpecificEffect (accounts : PostingAccounts) (line : TrxLineRequest)
    (old layer : Option Aggregate) : Outcome → Prop
  | receipt (hqty : 0 < line.qty) (hcost : 0 ≤ line.unitCost)
      (hempty : (old.getD ⟨0, 0, 0⟩).qty ≤ 0)
      (hvalue : InI64 (line.qty * line.unitCost)) :
    SpecificEffect accounts line old layer ⟨line.unitCost,
      ⟨(old.getD ⟨0, 0, 0⟩).qty + line.qty, line.unitCost,
        ((old.getD ⟨0, 0, 0⟩).qty + line.qty) * line.unitCost⟩,
      .opened line.qty line.unitCost (line.qty * line.unitCost),
      [receiptLeg (accounts.pairFor line.lineType) (line.qty * line.unitCost)]⟩
  | depletion {l : Aggregate} (hqty : line.qty < 0) (hlayer : layer = some l)
      (hle : |line.qty| ≤ l.qty) :
    SpecificEffect accounts line old layer ⟨l.unitCost,
      ⟨max (((old.getD ⟨0, 0, 0⟩).qty - |line.qty|).bmod (2 ^ 64)) 0, (old.getD ⟨0, 0, 0⟩).unitCost,
        max (((old.getD ⟨0, 0, 0⟩).qty - |line.qty|).bmod (2 ^ 64)) 0 *
          (old.getD ⟨0, 0, 0⟩).unitCost⟩,
      .consumed, [depletionLeg (accounts.pairFor line.lineType) (|line.qty| * l.unitCost)]⟩

section Line

variable {old layer : Option Aggregate} (hrow : ref.pool line.poolId = some row)
  (hspecific : row.method = .specific)
  (haccounts : ref.postingAccountMap (row.skuId, row.locationId) = some accounts)

include hrow hspecific haccounts

lemma lineOutcome?_specific :
    ref.lineOutcome? line old layer =
      specificOutcome? accounts line (old.getD ⟨0, 0, 0⟩) layer := by
  unfold Reference.lineOutcome?
  simp [hrow, haccounts, hspecific]

theorem specificEffect_of_outcome? (hqty : line.qty ≠ 0)
    (h : ref.outcome? postedAt line old layer = some o) :
    SpecificEffect accounts line old layer o := by
  obtain ⟨hline, hcost, -⟩ := outcome?_eq_some.mp h
  rw [lineOutcome?_specific hrow hspecific haccounts] at hline
  unfold specificOutcome? specificReceiptOutcome? specificDepleteOutcome? at hline
  split_ifs at hline with hpos hoccupied
  · simp only [Option.bind_eq_bind, Option.bind_eq_some_iff, toI64?_eq_some] at hline
    obtain ⟨_, ⟨rfl, -⟩, _, ⟨rfl, hvalue⟩, _, ⟨rfl, -⟩, _, ⟨rfl, -⟩, hline⟩ := hline
    cases hline
    exact .receipt hpos hcost (not_lt.mp hoccupied) hvalue
  · simp only [Option.bind_eq_bind, Option.bind_eq_some_iff, toI64?_eq_some] at hline
    obtain ⟨_, ⟨rfl, -⟩, l, hlayer, hline⟩ := hline
    split_ifs at hline with hle
    simp only [Option.bind_eq_some_iff, toI64?_eq_some] at hline
    obtain ⟨_, ⟨rfl, -⟩, _, ⟨rfl, -⟩, hline⟩ := hline
    cases hline
    exact .depletion (by omega) hlayer hle

lemma exists_outcome?_specific_receipt
    (hperiod : PeriodGuardAdmits ref.periods.rows postedAt) (hrange : line.InRange)
    (hempty : (old.getD ⟨0, 0, 0⟩).qty = 0) (hqty : 0 < line.qty) (hcost : 0 ≤ line.unitCost)
    (hvalue : InI64 (line.qty * line.unitCost)) :
    ∃ o, ref.outcome? postedAt line old layer = some o := by
  have hline : ref.lineOutcome? line old layer = some ⟨line.unitCost,
      ⟨line.qty, line.unitCost, line.qty * line.unitCost⟩,
      .opened line.qty line.unitCost (line.qty * line.unitCost),
      [receiptLeg (accounts.pairFor line.lineType) (line.qty * line.unitCost)]⟩ := by
    rw [lineOutcome?_specific hrow hspecific haccounts]
    unfold specificOutcome? specificReceiptOutcome?
    simp [hqty, hempty, toI64?_of_inI64 hvalue, toI64?_of_inI64 hrange.1]
  exact ⟨_, outcome?_eq_some.mpr ⟨hline, hcost, hperiod⟩⟩

lemma exists_outcome?_specific_depletion {a : Aggregate}
    (hperiod : PeriodGuardAdmits ref.periods.rows postedAt) (hold : old = some a)
    (hlayer : layer = some a) (ha : 0 < a.qty) (haI64 : InI64 a.qty) (hcost : 0 ≤ a.unitCost)
    (hvalue : InI64 (a.qty * a.unitCost)) (hqty : line.qty = -a.qty) :
    ∃ o, ref.outcome? postedAt line old layer = some o := by
  have habs : |line.qty| = a.qty := by rw [hqty, abs_neg, abs_of_pos ha]
  have hneg : ¬ line.qty > 0 := by omega
  have hline : ref.lineOutcome? line old layer = some ⟨a.unitCost, ⟨0, a.unitCost, 0⟩,
      .consumed, [depletionLeg (accounts.pairFor line.lineType) (a.qty * a.unitCost)]⟩ := by
    rw [lineOutcome?_specific hrow hspecific haccounts, hold, hlayer]
    unfold specificOutcome? specificDepleteOutcome?
    rw [if_neg hneg, habs]
    simp [toI64?_of_inI64 haI64, toI64?_of_inI64 hvalue, toI64?_of_inI64 (show InI64 0 by decide)]
  exact ⟨_, outcome?_eq_some.mpr ⟨hline, hcost, hperiod⟩⟩

end Line

/-! ### Aggregate and layer -/

def TakesWholeLayer (s : Site) : BookOp → Prop
  | .post _ line => line.qty < 0 → ∀ l ∈ s.book.lowest?, l.qty ≤ |line.qty|
  | .setStandard _ => True

instance (s : Site) : DecidablePred (TakesWholeLayer s)
  | .post _ line =>
    inferInstanceAs (Decidable (line.qty < 0 → ∀ l ∈ s.book.lowest?, l.qty ≤ |line.qty|))
  | .setStandard _ => isTrue trivial

inductive InStep (b : PoolBook) : Prop
  | empty (hlayers : b.openLayers = []) (hqty : (b.aggregate.getD ⟨0, 0, 0⟩).qty = 0)
      (hvalue : (b.aggregate.getD ⟨0, 0, 0⟩).valueSum = 0)
  | stocked (a : Aggregate) (hlayers : b.openLayers = [a]) (haggregate : b.aggregate = some a)
      (hqty : 0 < a.qty) (hqtyI64 : InI64 a.qty) (hcost : 0 ≤ a.unitCost)
      (hvalue : a.valueSum = a.qty * a.unitCost) (hvalueI64 : InI64 a.valueSum)

lemma InStep.record {b : PoolBook} (h : InStep b) (hrange : line.InRange)
    (he : SpecificEffect accounts line b.aggregate b.lowest? o)
    (hwhole : line.qty < 0 → ∀ l ∈ b.lowest?, l.qty ≤ |line.qty|) :
    InStep (b.record line postedAt o) := by
  cases he with
  | receipt hqty hcost hempty hvalue =>
    cases h with
    | empty hlayers hqty0 _ =>
      rw [hqty0, zero_add]
      refine .stocked ⟨line.qty, line.unitCost, line.qty * line.unitCost⟩ ?_ rfl hqty hrange.1 hcost
        rfl hvalue
      have : b.lines.filterMap (·.layer) = [] := hlayers
      simp [PoolBook.openLayers, PoolBook.record, PoolBook.row, this]
    | stocked a _ haggregate ha =>
      rw [haggregate] at hempty
      exact absurd ha (not_lt.mpr hempty)
  | @depletion l hqty hlayer hle =>
    cases h with
    | empty hlayers =>
      rw [PoolBook.lowest?_eq_head?, hlayers] at hlayer
      cases hlayer
    | stocked a hlayers haggregate ha =>
      obtain rfl : a = l := by
        rw [PoolBook.lowest?_eq_head?, hlayers] at hlayer
        exact Option.some.inj hlayer
      have hzero : a.qty - |line.qty| = 0 := by
        have := hwhole hqty a hlayer
        omega
      have : b.lines.filterMap (·.layer) = [a] := hlayers
      refine .empty ?_ ?_ ?_
      · simp [PoolBook.openLayers, PoolBook.record, PoolBook.row, filterMap_layer_closeLowest, this]
      · simp [PoolBook.record, haggregate, hzero]
      · simp [PoolBook.record, haggregate, hzero]

namespace Site

variable {p : ℤ}

lemma run_inStep (hrow : ref.pool p = some row) (hspecific : row.method = .specific)
    (haccounts : ref.postingAccountMap (row.skuId, row.locationId) = some accounts)
    (ops : List BookOp) (h : Machine.Throughout (exec? p) TakesWholeLayer { ref } ops) :
    InStep (run p ref ops).book := by
  have hinv : SameConfig ref (run p ref ops) ∧ InStep (run p ref ops).book := by
    refine Machine.run_invariant_of_throughout (P := fun s => SameConfig ref s ∧ InStep s.book)
      (fun s op s' hex hwhole hs => ⟨hs.1.exec hex, ?_⟩) ⟨⟨rfl, rfl, rfl⟩, .empty rfl rfl rfl⟩ ops h
    rcases exec?_cases hex with ⟨postedAt, line, o, rfl, ⟨rfl, hqty, hrange⟩, ho, rfl⟩ |
      ⟨_, -, -, -, rfl⟩
    · exact hs.2.record hrange (specificEffect_of_outcome? (hs.1.pool ▸ hrow) hspecific
        (hs.1.accounts ▸ haccounts) hqty ho) hwhole
    · exact hs.2
  exact hinv.2

/-- **Aggregate and layer stay in step**, in every run in which every depletion takes the whole
layer: there is at most one layer, the aggregate has its quantity and value, and the pool takes
every receipt when it is empty and the depletion of its layer when it is not. -/
theorem run_specific_inStep (hrow : ref.pool p = some row) (hspecific : row.method = .specific)
    (haccounts : ref.postingAccountMap (row.skuId, row.locationId) = some accounts)
    (ops : List BookOp) (h : Machine.Throughout (exec? p) TakesWholeLayer { ref } ops) :
    (run p ref ops).book.openLayers.length ≤ 1 ∧
    ((run p ref ops).book.aggregate.getD ⟨0, 0, 0⟩).qty =
      (((run p ref ops).book.openLayers.map (·.qty)).sum) ∧
    ((run p ref ops).book.aggregate.getD ⟨0, 0, 0⟩).valueSum =
      (((run p ref ops).book.openLayers.map (·.valueSum)).sum) ∧
    ∀ postedAt line, line.poolId = p → line.InRange → PeriodGuardAdmits ref.periods.rows postedAt →
      ((run p ref ops).book.openLayers = [] → 0 < line.qty → 0 ≤ line.unitCost →
        InI64 (line.qty * line.unitCost) →
        ∃ s', exec? p (run p ref ops) (.post postedAt line) = some s') ∧
      ∀ l ∈ (run p ref ops).book.openLayers, line.qty = -l.qty →
        ∃ s', exec? p (run p ref ops) (.post postedAt line) = some s' := by
  have hconfig := run_sameConfig p ref ops
  have hrow' := hconfig.pool ▸ hrow
  have haccounts' := hconfig.accounts ▸ haccounts
  cases run_inStep hrow hspecific haccounts ops h with
  | empty hlayers hqty hvalue =>
    refine ⟨by simp [hlayers], by simp [hlayers, hqty], by simp [hlayers, hvalue], ?_⟩
    rintro postedAt line rfl hrange hperiod
    refine ⟨fun _ hpos hcost hamount => ?_, by simp [hlayers]⟩
    obtain ⟨o, ho⟩ := exists_outcome?_specific_receipt hrow' hspecific haccounts'
      (hconfig.periods ▸ hperiod) hrange hqty hpos hcost hamount
    exact ⟨_, exec?_post.mpr ⟨⟨rfl, hpos.ne', hrange⟩, o, ho, rfl⟩⟩
  | stocked a hlayers haggregate ha haI64 hcost hvalue hvalueI64 =>
    refine ⟨by simp [hlayers], by simp [hlayers, haggregate], by simp [hlayers, haggregate], ?_⟩
    rintro postedAt line rfl hrange hperiod
    refine ⟨by simp [hlayers], fun l hl hqty => ?_⟩
    rw [hlayers, List.mem_singleton] at hl
    subst hl
    have hlowest : (run line.poolId ref ops).book.lowest? = some l := by
      rw [PoolBook.lowest?_eq_head?, hlayers]
      rfl
    obtain ⟨o, ho⟩ := exists_outcome?_specific_depletion hrow' hspecific haccounts'
      (hconfig.periods ▸ hperiod) haggregate hlowest ha haI64 hcost (hvalue ▸ hvalueI64) hqty
    exact ⟨_, exec?_post.mpr ⟨⟨rfl, by omega, hrange⟩, o, ho, rfl⟩⟩

end Site

/-! ### Examples -/

/-- **A stuck pool.** Two of five units are issued: the layer is gone, three units stay in the
aggregate, and neither a receipt nor a depletion of any of them is accepted. -/
theorem run_partial_depletion :
    (Site.run 1 (sampleRef .specific) [received 5 1, issued 2]).book.aggregate = some ⟨3, 1, 3⟩ ∧
    (Site.run 1 (sampleRef .specific) [received 5 1, issued 2]).book.openLayers = [] ∧
    ¬ (Site.exec? 1 (Site.run 1 (sampleRef .specific) [received 5 1, issued 2])
      (received 1 1)).isSome ∧
    ¬ (Site.exec? 1 (Site.run 1 (sampleRef .specific) [received 5 1, issued 2])
      (issued 3)).isSome := by
  decide +kernel

/-- A unit is replaced, and the new one can be issued. -/
theorem run_specific_inStep_replaced :
    ((Site.run 1 (sampleRef .specific) [received 1 4, issued 1, received 1 6]).book.aggregate.getD
      ⟨0, 0, 0⟩).valueSum = 6 ∧
    ∃ s', Site.exec? 1 (Site.run 1 (sampleRef .specific) [received 1 4, issued 1, received 1 6])
      (issued 1) = some s' := by
  have hrow : (sampleRef .specific).pool 1 = some ⟨.specific, 1, 1⟩ := rfl
  have haccounts : (sampleRef .specific).postingAccountMap (1, 1) =
      some ⟨(1, 2), (1, 2), (1, 2), (1, 2), (1, 2), (1, 2), some 3⟩ := rfl
  have hlayers : (Site.run 1 (sampleRef .specific)
      [received 1 4, issued 1, received 1 6]).book.openLayers = [⟨1, 6, 6⟩] := by
    decide +kernel
  have h := Site.run_specific_inStep hrow rfl haccounts [received 1 4, issued 1, received 1 6]
    (by decide +kernel)
  refine ⟨h.2.2.1.trans (by rw [hlayers]; rfl), ?_⟩
  exact (h.2.2.2 0 _ rfl (by decide) (by decide)).2 ⟨1, 6, 6⟩ (by simp [hlayers]) rfl

end Acct.V32
