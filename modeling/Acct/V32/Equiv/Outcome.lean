import Acct.V32.Outcome

/-!
# Planning a line is its outcome, recorded

`planLine` accepts a line with a quantity iff the line has an outcome on the snapshot, and then
pushes and records that outcome (`planLine_toOption`).
-/

namespace Acct.V32

open Option Function

section Except

variable {α β : Type}

@[simp] lemma toOption_bind (x : Except Failure α) (f : α → Except Failure β) :
    (x >>= f).toOption = x.toOption.bind fun a => (f a).toOption := by
  cases x <;> rfl

@[simp] lemma toOption_pure (a : α) : (pure a : Except Failure α).toOption = some a := rfl

@[simp] lemma toOption_ok (a : α) : (Except.ok a : Except Failure α).toOption = some a := rfl

@[simp] lemma toOption_error (e : Failure) : (Except.error e : Except Failure α).toOption = none :=
  rfl

@[simp] lemma toOption_map (x : Except Failure α) (f : α → β) :
    (x.map f).toOption = x.toOption.map f := by
  cases x <;> rfl

lemma toOption_eq_some {x : Except Failure α} {a : α} : x.toOption = some a ↔ x = .ok a := by
  cases x <;> simp

end Except

@[simp] lemma checked_toOption (x : ℤ) (detail : String) :
    (checked x detail).toOption = toI64? x := by
  unfold checked toI64?
  split_ifs <;> rfl

@[simp] lemma runningAverage_toOption (unitCost value qty : ℤ) :
    (runningAverage unitCost value qty).toOption = average? unitCost value qty := by
  unfold runningAverage average?
  split_ifs
  · cases bankerDiv value qty <;> rfl
  · rfl

@[simp] lemma depletedValueSum_toOption (p valueSum amount qty : ℤ) :
    (depletedValueSum p valueSum amount qty).toOption = valueOrZero (valueSum - amount) qty := by
  unfold depletedValueSum valueOrZero
  split_ifs
  · rfl
  · exact checked_toOption ..

namespace Snapshot

variable (s : Snapshot) (p : ℤ)

@[simp] lemma resolvePostingAccounts_toOption :
    (s.resolvePostingAccounts p).toOption = s.postingAccountsOf p := by
  unfold resolvePostingAccounts
  cases s.postingAccountsOf p <;> rfl

@[simp] lemma resolveStandardCost_toOption :
    (s.resolveStandardCost p).toOption = s.standardCostOf p := by
  unfold resolveStandardCost
  cases s.standardCostOf p <;> rfl

lemma expectMethod_of_eq {method : PoolMethod} (h : s.methodOf p = some method) :
    s.expectMethod p method = .ok () := by
  unfold expectMethod
  rw [h]
  simp

end Snapshot

/-! ### The methods -/

section Methods

variable (s : Snapshot) (line : TrxLineRequest) (result : PlanResult) (postedAt : ℤ)

/-- What a line with the outcome `o` makes of the snapshot and the plan. -/
def recorded (o : Outcome) : Snapshot × PlanResult :=
  (s.record line.poolId o, o.push result line postedAt (s.lowestLayerId line.poolId))

def Plans (p : Except Failure (Snapshot × PlanResult)) (o? : PostingAccounts → Option Outcome) :
    Prop :=
  p.toOption = (s.postingAccountsOf line.poolId).bind fun accounts =>
    (o? accounts).map (recorded s line result postedAt)

lemma plans_aggregateReceipt : Plans s line result postedAt
    (aggregateReceipt s line result postedAt)
    (wacReceiptOutcome? · line (s.readAggregate line.poolId).amounts) := by
  unfold Plans aggregateReceipt wacReceiptOutcome?
  simp only [toOption_bind, Snapshot.resolvePostingAccounts_toOption, checked_toOption,
    runningAverage_toOption, toOption_pure, bind_eq_bind, Option.map_bind, comp_def]
  rfl

lemma plans_aggregateDeplete : Plans s line result postedAt
    (aggregateDeplete s line result postedAt (s.readAggregate line.poolId).unitCost)
    (wacDepleteOutcome? · line (s.readAggregate line.poolId).amounts) := by
  unfold Plans aggregateDeplete wacDepleteOutcome?
  simp only [toOption_bind, Snapshot.resolvePostingAccounts_toOption, checked_toOption,
    runningAverage_toOption, depletedValueSum_toOption, apply_ite Except.toOption, toOption_error,
    toOption_pure, bind_eq_bind, Option.map_bind, comp_def, apply_ite (Option.map _), map_none]
  rfl

lemma plans_applyWac (hmethod : s.methodOf line.poolId = some .wac) (hqty : line.qty ≠ 0) :
    Plans s line result postedAt (applyWac s line result postedAt)
      (wacOutcome? · line (s.readAggregate line.poolId).amounts) := by
  unfold Plans applyWac wacOutcome?
  rw [s.expectMethod_of_eq _ hmethod, toOption_bind, toOption_ok, bind_some, if_neg hqty]
  split_ifs
  · exact plans_aggregateReceipt ..
  · exact plans_aggregateDeplete ..

lemma stdVariance_toOption (accounts : PostingAccounts) (idx : ℕ) (cStd : ℤ) :
    (stdVariance line postedAt accounts idx cStd).toOption =
      (varianceLegs? accounts line cStd).map fun legs => legs.map (·.request idx postedAt) := by
  unfold stdVariance varianceLegs?
  by_cases hzero : line.unitCost - cStd = 0
  · rw [if_pos hzero, if_pos hzero]
    rfl
  · rw [if_neg hzero, if_neg hzero]
    cases accounts.variance with
    | none => rfl
    | some varianceAccount =>
      simp only [toOption_map, checked_toOption, bind_some, Option.map_map]
      congr 1
      funext amount
      dsimp only [comp_apply]
      split_ifs <;> rfl

lemma plans_stdReceipt (cStd : ℤ) : Plans s line result postedAt
    (stdReceipt s line result postedAt cStd (s.readAggregate line.poolId).qty)
    (stdReceiptOutcome? · line cStd (s.readAggregate line.poolId).qty) := by
  unfold Plans stdReceipt stdReceiptOutcome?
  simp only [toOption_bind, Snapshot.resolvePostingAccounts_toOption, checked_toOption,
    stdVariance_toOption, toOption_pure, bind_eq_bind, Option.map_bind, comp_def, bind_map]
  rfl

lemma plans_stdDeplete (cStd : ℤ) : Plans s line result postedAt
    (stdDeplete s line result postedAt cStd (s.readAggregate line.poolId).qty)
    (stdDepleteOutcome? · line cStd (s.readAggregate line.poolId).qty) := by
  unfold Plans stdDeplete stdDepleteOutcome?
  simp only [toOption_bind, Snapshot.resolvePostingAccounts_toOption, checked_toOption,
    apply_ite Except.toOption, toOption_error, toOption_pure, bind_eq_bind, Option.map_bind,
    comp_def, apply_ite (Option.map _), map_none]
  rfl

lemma plans_specificReceipt : Plans s line result postedAt
    (specificReceipt s line result postedAt)
    (specificReceiptOutcome? · line (s.readAggregate line.poolId).amounts) := by
  unfold Plans specificReceipt specificReceiptOutcome?
  simp only [toOption_bind, Snapshot.resolvePostingAccounts_toOption, checked_toOption,
    apply_ite Except.toOption, toOption_error, toOption_pure, bind_eq_bind, Option.map_bind,
    comp_def, apply_ite (Option.map _), map_none]
  rfl

lemma plans_specificDeplete : Plans s line result postedAt
    (specificDeplete s line result postedAt)
    (specificDepleteOutcome? · line (s.readAggregate line.poolId).amounts
      ((lowestLayer (s.pools line.poolId)).map (·.amounts))) := by
  unfold Plans specificDeplete specificDepleteOutcome? recorded Snapshot.record
    Snapshot.lowestLayerId
  cases lowestLayer (s.pools line.poolId) with
  | none =>
    simp only [toOption_bind, Snapshot.resolvePostingAccounts_toOption, checked_toOption,
      toOption_error, bind_eq_bind, map_none, bind_none, Option.map_bind, comp_def]
  | some layer =>
    unfold consumeLayer
    simp only [toOption_bind, Snapshot.resolvePostingAccounts_toOption, checked_toOption,
      apply_ite Except.toOption, toOption_error, toOption_pure, bind_eq_bind, map_some,
      bind_some, Option.map_bind, comp_def, apply_ite (Option.map _), map_none]
    rfl

lemma plans_applySpecific (hmethod : s.methodOf line.poolId = some .specific)
    (hqty : line.qty ≠ 0) : Plans s line result postedAt (applySpecific s line result postedAt)
      (specificOutcome? · line (s.readAggregate line.poolId).amounts
        ((lowestLayer (s.pools line.poolId)).map (·.amounts))) := by
  unfold Plans applySpecific specificOutcome?
  rw [s.expectMethod_of_eq _ hmethod, toOption_bind, toOption_ok, bind_some, if_neg hqty]
  split_ifs
  · exact plans_specificReceipt ..
  · exact plans_specificDeplete ..

theorem planLine_toOption (hqty : line.qty ≠ 0) :
    (planLine s line result postedAt).toOption =
      (s.outcome? line).map (recorded s line result postedAt) := by
  unfold planLine Snapshot.outcome?
  cases hmethod : s.methodOf line.poolId with
  | none => rfl
  | some method =>
    simp only [bind_eq_bind, bind_some]
    cases method with
    | wac =>
      rw [Option.map_bind]
      exact plans_applyWac s line result postedAt hmethod hqty
    | std =>
      show (applyStd s line result postedAt).toOption = _
      unfold applyStd stdOutcome?
      rw [s.expectMethod_of_eq _ hmethod, toOption_bind, toOption_ok, bind_some, if_neg hqty,
        toOption_bind, Snapshot.resolveStandardCost_toOption, Option.map_bind]
      congr 1
      funext cStd
      rw [comp_apply, Option.map_bind]
      split_ifs
      · exact plans_stdReceipt ..
      · exact plans_stdDeplete ..
    | specific =>
      rw [Option.map_bind]
      exact plans_applySpecific s line result postedAt hmethod hqty
    | fifo | lifo => rfl

end Methods

/-! ### Layers of an outcome -/

section Shape

variable {accounts : PostingAccounts} {line : TrxLineRequest} {o : Outcome} {old : Aggregate}

lemma wacOutcome?_shape (h : wacOutcome? accounts line old = some o) :
    o.layers = .unchanged ∧ ∃ leg, o.legs = [leg] := by
  unfold wacOutcome? wacReceiptOutcome? wacDepleteOutcome? at h
  split_ifs at h
  · simp only [bind_eq_bind, bind_eq_some_iff] at h
    obtain ⟨_, -, _, -, _, -, _, -, h⟩ := h
    cases h
    exact ⟨rfl, _, rfl⟩
  · simp only [bind_eq_bind, bind_eq_some_iff] at h
    obtain ⟨_, -, h⟩ := h
    split_ifs at h
    simp only [bind_eq_some_iff] at h
    obtain ⟨_, -, _, -, _, -, h⟩ := h
    cases h
    exact ⟨rfl, _, rfl⟩

lemma stdOutcome?_shape {cStd oldQty : ℤ} (h : stdOutcome? accounts line cStd oldQty = some o) :
    o.layers = .unchanged ∧ o.unitCost = cStd ∧ o.aggregate.unitCost = cStd := by
  unfold stdOutcome? stdReceiptOutcome? stdDepleteOutcome? at h
  split_ifs at h
  · simp only [bind_eq_bind, bind_eq_some_iff] at h
    obtain ⟨_, -, _, -, _, -, _, -, h⟩ := h
    cases h
    exact ⟨rfl, rfl, rfl⟩
  · simp only [bind_eq_bind, bind_eq_some_iff] at h
    obtain ⟨_, -, h⟩ := h
    split_ifs at h
    simp only [bind_eq_some_iff] at h
    obtain ⟨_, -, _, -, h⟩ := h
    cases h
    exact ⟨rfl, rfl, rfl⟩

lemma specificReceiptOutcome?_shape (h : specificReceiptOutcome? accounts line old = some o) :
    (∃ valueSum, o.layers = .opened line.qty line.unitCost valueSum) ∧
      o.unitCost = line.unitCost ∧ o.aggregate.unitCost = line.unitCost := by
  unfold specificReceiptOutcome? at h
  split_ifs at h
  simp only [bind_eq_bind, bind_eq_some_iff] at h
  obtain ⟨_, -, _, -, _, -, _, -, h⟩ := h
  cases h
  exact ⟨⟨_, rfl⟩, rfl, rfl⟩

lemma specificDepleteOutcome?_shape {layer : Option Aggregate}
    (h : specificDepleteOutcome? accounts line old layer = some o) :
    o.layers = .consumed ∧ ∃ l, layer = some l ∧ o.unitCost = l.unitCost := by
  unfold specificDepleteOutcome? at h
  simp only [bind_eq_bind, bind_eq_some_iff] at h
  obtain ⟨_, -, l, rfl, h⟩ := h
  split_ifs at h
  simp only [bind_eq_some_iff] at h
  obtain ⟨_, -, _, -, h⟩ := h
  cases h
  exact ⟨rfl, l, rfl, rfl⟩

end Shape

lemma Snapshot.outcome?_consumed {s : Snapshot} {line : TrxLineRequest} {o : Outcome}
    (h : s.outcome? line = some o) :
    (o.layers = .consumed ↔ s.methodOf line.poolId = some .specific ∧ ¬ line.qty > 0) ∧
      (o.layers = .consumed → (lowestLayer (s.pools line.poolId)).isSome) := by
  unfold outcome? at h
  obtain ⟨method, hmethod, h⟩ := bind_eq_some_iff.mp h
  cases method with
  | wac =>
    obtain ⟨accounts, -, h⟩ := bind_eq_some_iff.mp h
    simp [hmethod, (wacOutcome?_shape h).1]
  | std =>
    obtain ⟨cStd, -, h⟩ := bind_eq_some_iff.mp h
    obtain ⟨accounts, -, h⟩ := bind_eq_some_iff.mp h
    simp [hmethod, (stdOutcome?_shape h).1]
  | specific =>
    obtain ⟨accounts, -, h⟩ := bind_eq_some_iff.mp h
    unfold specificOutcome? at h
    split_ifs at h with hpos
    · obtain ⟨⟨_, hlayers⟩, -⟩ := specificReceiptOutcome?_shape h
      simp [hpos, hlayers]
    · obtain ⟨hlayers, _, hlayer, -⟩ := specificDepleteOutcome?_shape h
      obtain ⟨row, hrow, -⟩ := map_eq_some_iff.mp hlayer
      simp [hmethod, hpos, hlayers, hrow]
  | fifo | lifo => cases h

end Acct.V32
