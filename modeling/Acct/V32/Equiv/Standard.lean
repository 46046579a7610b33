import Acct.V32.Equiv.Book

/-!
# STD pools

Every line of an STD pool sets the aggregate to the whole quantity at the current standard cost, but
posts its own quantity only. A changed standard revalues the stock on hand without a posting
(`run_standard_raised`); while no line finds stock at another standard, the value is the net posted
amount (`Site.run_std_bookValue`).
-/

namespace Acct.V32

open Option

variable {line : TrxLineRequest} {old : Option Aggregate} {o : Outcome} {ref : Reference}
  {row : PoolRow} {legs : List Leg} {postedAt cStd : ℤ} {accounts : PostingAccounts}

/-! ### One line -/

inductive StdEffect (accounts : PostingAccounts) (cStd : ℤ) (line : TrxLineRequest)
    (old : Option Aggregate) : Outcome → Prop
  | receipt {variance : List Leg} (hqty : 0 < line.qty)
      (hvariance : varianceLegs? accounts line cStd = some variance) :
    StdEffect accounts cStd line old ⟨cStd,
      ⟨(old.getD ⟨0, 0, 0⟩).qty + line.qty, cStd, ((old.getD ⟨0, 0, 0⟩).qty + line.qty) * cStd⟩,
      .unchanged, receiptLeg (accounts.pairFor line.lineType) (line.qty * cStd) :: variance⟩
  | depletion (hqty : line.qty < 0) :
    StdEffect accounts cStd line old ⟨cStd,
      ⟨(old.getD ⟨0, 0, 0⟩).qty - |line.qty|, cStd, ((old.getD ⟨0, 0, 0⟩).qty - |line.qty|) * cStd⟩,
      .unchanged, [depletionLeg (accounts.pairFor line.lineType) (|line.qty| * cStd)]⟩

section Line

variable {layer : Option Aggregate}

lemma stdEffect_of_stdOutcome? (hqty : line.qty ≠ 0)
    (h : stdOutcome? accounts line cStd (old.getD ⟨0, 0, 0⟩).qty = some o) :
    StdEffect accounts cStd line old o := by
  unfold stdOutcome? stdReceiptOutcome? stdDepleteOutcome? at h
  split_ifs at h with hpos
  · simp only [bind_eq_bind, bind_eq_some_iff, toI64?_eq_some] at h
    obtain ⟨_, ⟨rfl, -⟩, _, ⟨rfl, -⟩, _, ⟨rfl, -⟩, variance, hvariance, h⟩ := h
    cases h
    exact .receipt hpos hvariance
  · simp only [bind_eq_bind, bind_eq_some_iff, toI64?_eq_some] at h
    obtain ⟨_, ⟨rfl, -⟩, h⟩ := h
    split_ifs at h
    simp only [bind_eq_some_iff, toI64?_eq_some] at h
    obtain ⟨_, ⟨rfl, -⟩, _, ⟨rfl, -⟩, h⟩ := h
    cases h
    exact .depletion (by omega)

theorem stdEffect_of_outcome? (hrow : ref.pool line.poolId = some row) (hstd : row.method = .std)
    (hqty : line.qty ≠ 0) (h : ref.outcome? postedAt line old layer = some o) :
    ∃ accounts cStd, ref.postingAccountMap (row.skuId, row.locationId) = some accounts ∧
      ref.standardCostOf row = some cStd ∧ StdEffect accounts cStd line old o := by
  obtain ⟨hline, -, -⟩ := outcome?_eq_some.mp h
  unfold Reference.lineOutcome? at hline
  simp only [hrow, hstd, bind_eq_bind, bind_some, bind_eq_some_iff] at hline
  obtain ⟨accounts, haccounts, cStd, hcStd, hline⟩ := hline
  exact ⟨accounts, cStd, haccounts, hcStd, stdEffect_of_stdOutcome? hqty hline⟩

end Line

/-! ### The contra account -/

/-- The contra account of a line is neither the inventory nor the variance account. -/
def ContraApart (accounts : PostingAccounts) (lineType : LineType) : Prop :=
  (accounts.pairFor lineType).2 ≠ (accounts.pairFor lineType).1 ∧
    accounts.variance ≠ some (accounts.pairFor lineType).2
  deriving Decidable

lemma netCredit_varianceLegs (happart : ContraApart accounts line.lineType)
    (h : varianceLegs? accounts line cStd = some legs) (idx : ℕ) (postedAt : ℤ) :
    netCredit (accounts.pairFor line.lineType).2 (legs.map (·.request idx postedAt)) =
      line.qty * (line.unitCost - cStd) := by
  unfold varianceLegs? at h
  by_cases hzero : line.unitCost - cStd = 0
  · rw [if_pos hzero] at h
    cases h
    simp [netCredit, hzero]
  · rw [if_neg hzero] at h
    simp only [bind_eq_some_iff, map_eq_some_iff, toI64?_eq_some] at h
    obtain ⟨account, haccount, _, ⟨rfl, -⟩, rfl⟩ := h
    have hne : account ≠ (accounts.pairFor line.lineType).2 := by
      rintro rfl
      exact happart.2 haccount
    split_ifs with hpos
    · simp [netCredit, Leg.request, hne, abs_of_pos hpos]
    · simp [netCredit, Leg.request, hne, abs_of_nonpos (not_lt.mp hpos)]

lemma StdEffect.netCredit_contra (h : StdEffect accounts cStd line old o) (hqty : 0 < line.qty)
    (happart : ContraApart accounts line.lineType) (idx : ℕ) (postedAt : ℤ) :
    netCredit (accounts.pairFor line.lineType).2 (o.legs.map (·.request idx postedAt)) =
      line.qty * line.unitCost := by
  cases h with
  | receipt _ hvariance =>
    rw [List.map_cons, netCredit_cons, netCredit_varianceLegs happart hvariance]
    have hne := happart.1.symm
    simp only [receiptLeg, Leg.request, if_true, hne, if_false]
    ring
  | depletion hneg => exact absurd hqty hneg.le.not_gt

/-! ### Value and journal -/

/-- A posted line finds no stock, or finds it at the current standard. -/
def StandardKept (p : ℤ) (s : Site) : BookOp → Prop
  | .post _ _ => ∀ a ∈ s.book.aggregate, a.qty ≠ 0 →
      (s.ref.pool p).bind s.ref.standardCostOf = some a.unitCost
  | .setStandard _ => True

instance (p : ℤ) (s : Site) : DecidablePred (StandardKept p s)
  | .post _ _ => inferInstanceAs (Decidable (∀ a ∈ s.book.aggregate, a.qty ≠ 0 →
      (s.ref.pool p).bind s.ref.standardCostOf = some a.unitCost))
  | .setStandard _ => isTrue trivial

structure StdBook (b : PoolBook) : Prop where
  empty : b.aggregate = none → b.postings = []
  valueSum : ∀ a ∈ b.aggregate, a.valueSum = a.qty * a.unitCost
  posted : ∀ a ∈ b.aggregate, a.valueSum = netPosted b.postings

lemma netPosted_varianceLegs (h : varianceLegs? accounts line cStd = some legs) (idx : ℕ)
    (postedAt : ℤ) : netPosted (legs.map (·.request idx postedAt)) = 0 := by
  unfold varianceLegs? at h
  by_cases hzero : line.unitCost - cStd = 0
  · rw [if_pos hzero] at h
    cases h
    rfl
  · rw [if_neg hzero] at h
    simp only [bind_eq_some_iff, map_eq_some_iff] at h
    obtain ⟨_, -, _, -, rfl⟩ := h
    split_ifs <;> rfl

lemma StdEffect.netPosted_legs (h : StdEffect accounts cStd line old o) (idx : ℕ) (postedAt : ℤ) :
    netPosted (o.legs.map (·.request idx postedAt)) = line.qty * cStd := by
  cases h with
  | receipt _ hvariance =>
    rw [List.map_cons, ← List.singleton_append, netPosted_append,
      netPosted_varianceLegs hvariance, add_zero]
    simp [netPosted, receiptLeg, Leg.request, PostingLineRequest.inventoryAmount,
      PostingEventType.inventoryAmount]
  | depletion hneg =>
    simp [netPosted, depletionLeg, Leg.request, PostingLineRequest.inventoryAmount,
      PostingEventType.inventoryAmount, abs_of_neg hneg]

lemma StdEffect.aggregate_eq (h : StdEffect accounts cStd line old o) :
    o.aggregate = ⟨(old.getD ⟨0, 0, 0⟩).qty + line.qty, cStd,
      ((old.getD ⟨0, 0, 0⟩).qty + line.qty) * cStd⟩ := by
  cases h with
  | receipt => rfl
  | depletion hneg => simp [abs_of_neg hneg, sub_neg_eq_add]

lemma StdBook.record {b : PoolBook} (h : StdBook b)
    (he : StdEffect accounts cStd line b.aggregate o)
    (hkept : ∀ a ∈ b.aggregate, a.qty ≠ 0 → cStd = a.unitCost) :
    StdBook (b.record line postedAt o) := by
  have hnet : netPosted (b.record line postedAt o).postings =
      netPosted b.postings + line.qty * cStd := by
    rw [PoolBook.record, netPosted_append, he.netPosted_legs]
  -- the stock on hand was posted at the standard of this line
  have hold : netPosted b.postings = (b.aggregate.getD ⟨0, 0, 0⟩).qty * cStd := by
    cases ha : b.aggregate with
    | none => simp [h.empty ha]
    | some a =>
      rw [← h.posted a ha, h.valueSum a ha, getD_some]
      by_cases hzero : a.qty = 0
      · simp [hzero]
      · rw [hkept a ha hzero]
  refine ⟨fun hnone => absurd hnone (some_ne_none _), ?_, ?_⟩
  · rintro _ ⟨⟩
    simp [he.aggregate_eq]
  · rintro _ ⟨⟩
    rw [hnet, hold, he.aggregate_eq, add_mul]

namespace Site

variable {p : ℤ}

lemma run_stdBook (hrow : ref.pool p = some row) (hstd : row.method = .std) (ops : List BookOp)
    (h : Machine.Throughout (exec? p) (StandardKept p) { ref } ops) :
    StdBook (run p ref ops).book := by
  have hinv : SameConfig ref (run p ref ops) ∧ StdBook (run p ref ops).book := by
    refine Machine.run_invariant_of_throughout (P := fun s => SameConfig ref s ∧ StdBook s.book)
      (fun s op s' hex hkept hs => ⟨hs.1.exec hex, ?_⟩)
      ⟨⟨rfl, rfl, rfl⟩, by constructor <;> simp⟩ ops h
    have hrow' : s.ref.pool p = some row := hs.1.pool ▸ hrow
    rcases exec?_cases hex with
      ⟨postedAt, line, o, rfl, ⟨rfl, hqty, -⟩, ho, rfl⟩ | ⟨_, -, -, -, rfl⟩
    · obtain ⟨accounts, cStd, -, hcStd, heffect⟩ := stdEffect_of_outcome? hrow' hstd hqty ho
      refine hs.2.record heffect fun a ha hne => ?_
      have := hkept a ha hne
      rw [hrow', bind_some, hcStd] at this
      exact some.inj this
    · exact hs.2
  exact hinv.2

/-- **The value of an STD pool** is its net posted value, in every run in which no line finds stock
on hand at another standard than the current one. The contra account's net credit for an accepted
receipt is its actual cost, if the account is apart from the inventory and the variance account. -/
theorem run_std_bookValue (hrow : ref.pool p = some row) (hstd : row.method = .std)
    (ops : List BookOp) (h : Machine.Throughout (exec? p) (StandardKept p) { ref } ops) :
    (∀ a ∈ (run p ref ops).book.aggregate, a.valueSum = netPosted (run p ref ops).book.postings) ∧
    ∀ postedAt line s', exec? p (run p ref ops) (.post postedAt line) = some s' → 0 < line.qty →
      ∃ accounts, ref.postingAccountMap (row.skuId, row.locationId) = some accounts ∧
        (ContraApart accounts line.lineType → netCredit (accounts.pairFor line.lineType).2
            (s'.book.rowsOf (run p ref ops).book.lines.length) = line.qty * line.unitCost) := by
  refine ⟨(run_stdBook hrow hstd ops h).posted, ?_⟩
  intro postedAt line s' hex hqty
  have hconfig := run_sameConfig p ref ops
  obtain ⟨⟨rfl, hne, -⟩, o, ho, rfl⟩ := exec?_post.mp hex
  obtain ⟨accounts, cStd, haccounts, -, heffect⟩ :=
    stdEffect_of_outcome? (hconfig.pool ▸ hrow) hstd hne ho
  refine ⟨accounts, hconfig.accounts ▸ haccounts, fun happart => ?_⟩
  rw [(run_placed _ ref ops).rowsOf_record]
  exact heffect.netCredit_contra hqty happart _ _

end Site

/-! ### Examples -/

/-- Ten units are received at a standard of 5; the standard is raised to 6 before one more. -/
def standardRaised : List BookOp :=
  [.setStandard 5, received 10 5, .setStandard 6, received 1 6]

/-- **Stock that is revalued without a posting.** The book says 66, the journal 56. -/
theorem run_standard_raised :
    (Site.run 1 (sampleRef .std) standardRaised).book.aggregate = some ⟨11, 6, 66⟩ ∧
    netPosted (Site.run 1 (sampleRef .std) standardRaised).book.postings = 56 := by
  decide +kernel

def standardChangedEmpty : List BookOp :=
  [.setStandard 5, received 10 5, issued 10, .setStandard 6, received 2 6]

/-- Value and journal agree after the change, and the contra account is credited with the actual
cost of a receipt above the standard. -/
theorem run_std_bookValue_changedEmpty :
    netPosted (Site.run 1 (sampleRef .std) standardChangedEmpty).book.postings = 12 ∧
    ∃ s', Site.exec? 1 (Site.run 1 (sampleRef .std) standardChangedEmpty) (received 2 7) = some s' ∧
      netCredit 2 (s'.book.rowsOf 3) = 14 := by
  have hrow : (sampleRef .std).pool 1 = some ⟨.std, 1, 1⟩ := rfl
  have h := Site.run_std_bookValue hrow rfl standardChangedEmpty (by decide +kernel)
  have ha :
      (Site.run 1 (sampleRef .std) standardChangedEmpty).book.aggregate = some ⟨2, 6, 12⟩ := by
    decide +kernel
  obtain ⟨s', hs'⟩ : ∃ s', Site.exec? 1 (Site.run 1 (sampleRef .std) standardChangedEmpty)
      (received 2 7) = some s' := isSome_iff_exists.mp (by decide +kernel)
  refine ⟨(h.1 _ ha).symm, s', hs', ?_⟩
  obtain ⟨_, ⟨⟩, hcredit⟩ := h.2 _ _ s' hs' (by decide)
  exact hcredit (by decide)

end Acct.V32
