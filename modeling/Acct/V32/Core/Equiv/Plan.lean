import Acct.V32.Equiv.Outcome

/-!
# What a plan holds

An accepted line with a quantity pushes one `trx_line` row, one upsert of its pool's aggregate and,
on a specific pool, the insert or the delete of one layer (`LinePlan`). Planning changes nothing
else that a later line's plan depends on (`Snapshot.Within`), so the plan of a list of lines is
described on the snapshot it starts from (`planApply_planned`).
-/

namespace Acct.V32

variable {s s' : Snapshot} {line : TrxLineRequest} {result result' : PlanResult} {postedAt : ℤ}
  {lines : List TrxLineRequest}

section Except

variable {α β : Type}

lemma bind_eq_ok {x : Except Failure α} {f : α → Except Failure β} {b : β}
    (h : (x >>= f) = .ok b) : ∃ a, x = .ok a ∧ f a = .ok b := by
  cases x with
  | error e => cases h
  | ok a => exact ⟨a, rfl, h⟩

lemma pure_eq_ok {a b : α} (h : (pure a : Except Failure α) = .ok b) : a = b := by cases h; rfl

lemma map_eq_ok {x : Except Failure α} {f : α → β} {b : β} (h : x.map f = .ok b) :
    ∃ a, x = .ok a ∧ f a = b := by
  cases x with
  | error e => cases h
  | ok a => cases h; exact ⟨a, rfl, rfl⟩

end Except

/-! ### Snapshots along a plan -/

/-- The methods and standard costs are those of `s`, and every layer is one of `s`. -/
structure Snapshot.Within (s s' : Snapshot) : Prop where
  methodOf : s'.methodOf = s.methodOf
  standardCostOf : s'.standardCostOf = s.standardCostOf
  layers : ∀ p, ∀ r ∈ s'.pools p, 0 < r.layerId → r ∈ s.pools p

lemma Snapshot.Within.refl (s : Snapshot) : s.Within s := ⟨rfl, rfl, fun _ _ hr _ => hr⟩

lemma Snapshot.Within.trans {s'' : Snapshot} (h : s.Within s') (h' : s'.Within s'') :
    s.Within s'' :=
  ⟨h'.methodOf.trans h.methodOf, h'.standardCostOf.trans h.standardCostOf,
    fun p r hr hpos => h.layers p r (h'.layers p r hr hpos) hpos⟩

lemma mem_putRow {row r : PoolStateRow} {rows : List PoolStateRow} (h : r ∈ putRow row rows) :
    r = row ∨ r ∈ rows := by
  induction rows with
  | nil => exact .inl (List.mem_singleton.mp h)
  | cons x rows ih =>
    unfold putRow at h
    split_ifs at h
    · rcases List.mem_cons.mp h with h | h
      · exact .inl h
      · exact .inr (List.mem_cons_of_mem _ h)
    · rcases List.mem_cons.mp h with rfl | h
      · exact .inr List.mem_cons_self
      · exact (ih h).imp_right (List.mem_cons_of_mem _)

lemma Snapshot.within_putAggregate (s : Snapshot) (p qty unitCost valueSum : ℤ) :
    s.Within (s.putAggregate p qty unitCost valueSum) := by
  refine ⟨rfl, rfl, fun p' r hr hpos => ?_⟩
  by_cases hp : p' = p
  · subst hp
    simp only [putAggregate, Function.update_self] at hr
    rcases mem_putRow hr with rfl | hr
    · exact absurd hpos (lt_irrefl 0)
    · exact hr
  · simpa [putAggregate, hp] using hr

lemma Snapshot.within_dropLayer (s : Snapshot) (p layerId : ℤ) :
    s.Within (s.dropLayer p layerId) := by
  refine ⟨rfl, rfl, fun p' r hr _ => ?_⟩
  by_cases hp : p' = p
  · subst hp
    simp only [dropLayer, Function.update_self] at hr
    exact List.mem_of_mem_filter hr
  · simpa [dropLayer, hp] using hr

lemma Snapshot.within_record (s : Snapshot) (p : ℤ) (o : Outcome) : s.Within (s.record p o) := by
  unfold record
  cases o.source (s.lowestLayerId p) with
  | none => exact s.within_putAggregate ..
  | some id => exact (s.within_dropLayer ..).trans (Snapshot.within_putAggregate ..)

/-! ### One line -/

/-- What an accepted line of a given method pushes, on the snapshot `s`. -/
inductive LinePlan (s : Snapshot) (idx : ℕ) (line : TrxLineRequest) :
    TrxLineOutput → List PoolStateMutation → Prop
  | wac {recorded qty unitCost valueSum : ℤ} (hmethod : s.methodOf line.poolId = some .wac) :
    LinePlan s idx line (line.output recorded none)
      [.upsertAggregate line.poolId qty unitCost valueSum]
  | std {cStd qty valueSum : ℤ} (hmethod : s.methodOf line.poolId = some .std)
      (hcost : s.standardCostOf line.poolId = some cStd) :
    LinePlan s idx line (line.output cStd none) [.upsertAggregate line.poolId qty cStd valueSum]
  | specificReceipt {qty valueSum layerValueSum : ℤ}
      (hmethod : s.methodOf line.poolId = some .specific) (hqty : 0 < line.qty) :
    LinePlan s idx line (line.output line.unitCost none)
      [.insertLayer line.poolId idx line.qty line.unitCost layerValueSum,
        .upsertAggregate line.poolId qty line.unitCost valueSum]
  | specificDepletion {layer : PoolStateRow} {qty unitCost valueSum : ℤ}
      (hmethod : s.methodOf line.poolId = some .specific) (hqty : line.qty < 0)
      (hlayer : layer ∈ s.pools line.poolId) (hpos : 0 < layer.layerId) :
    LinePlan s idx line (line.output layer.unitCost (some layer.layerId))
      [.deleteLayer line.poolId layer.layerId, .upsertAggregate line.poolId qty unitCost valueSum]

lemma LinePlan.of_within {idx : ℕ} {out : TrxLineOutput} {mutations : List PoolStateMutation}
    (hs : s.Within s') (h : LinePlan s' idx line out mutations) :
    LinePlan s idx line out mutations := by
  cases h with
  | wac hmethod => exact .wac (hs.methodOf ▸ hmethod)
  | std hmethod hcost => exact .std (hs.methodOf ▸ hmethod) (hs.standardCostOf ▸ hcost)
  | specificReceipt hmethod hqty => exact .specificReceipt (hs.methodOf ▸ hmethod) hqty
  | specificDepletion hmethod hqty hlayer hpos =>
    exact .specificDepletion (hs.methodOf ▸ hmethod) hqty (hs.layers _ _ hlayer hpos) hpos

def Pushes (s : Snapshot) (line : TrxLineRequest) (result : PlanResult) (s' : Snapshot)
    (result' : PlanResult) : Prop :=
  ∃ out mutations postings, result' = result.push out mutations postings ∧
    LinePlan s result.trxLines.length line out mutations ∧
    (∀ p ∈ postings, p.trxLineIdx = result.trxLines.length) ∧ s.Within s'

lemma linePlan_of_outcome {o : Outcome} (idx : ℕ) (hqty : line.qty ≠ 0)
    (h : s.outcome? line = some o) :
    LinePlan s idx line (line.output o.unitCost (o.source (s.lowestLayerId line.poolId)))
      (o.mutations line.poolId idx (s.lowestLayerId line.poolId)) := by
  unfold Snapshot.outcome? at h
  unfold Outcome.source Outcome.mutations
  obtain ⟨method, hmethod, h⟩ := Option.bind_eq_some_iff.mp h
  cases method with
  | wac =>
    obtain ⟨accounts, -, h⟩ := Option.bind_eq_some_iff.mp h
    rw [(wacOutcome?_shape h).1]
    exact .wac hmethod
  | std =>
    obtain ⟨cStd, hcost, h⟩ := Option.bind_eq_some_iff.mp h
    obtain ⟨accounts, -, h⟩ := Option.bind_eq_some_iff.mp h
    obtain ⟨hlayers, hunit, hold⟩ := stdOutcome?_shape h
    rw [hlayers, hunit, hold]
    exact .std hmethod hcost
  | specific =>
    obtain ⟨accounts, -, h⟩ := Option.bind_eq_some_iff.mp h
    unfold specificOutcome? at h
    split_ifs at h with hpos
    · obtain ⟨⟨valueSum, hlayers⟩, hunit, hold⟩ := specificReceiptOutcome?_shape h
      rw [hlayers, hunit, hold]
      exact .specificReceipt hmethod hpos
    · obtain ⟨hlayers, _, hlayer, hunit⟩ := specificDepleteOutcome?_shape h
      obtain ⟨row, hrow, rfl⟩ := Option.map_eq_some_iff.mp hlayer
      have hmem := List.mem_filter.mp (Table.earliest_mem hrow)
      rw [hlayers, hunit, Snapshot.lowestLayerId, hrow]
      exact .specificDepletion hmethod (by omega) hmem.1 (of_decide_eq_true hmem.2)
  | fifo | lifo => cases h

lemma planLine_of_qty_eq_zero (hqty : line.qty = 0)
    (h : planLine s line result postedAt = .ok (s', result')) : s' = s ∧ result' = result := by
  unfold planLine applyWac applyStd applySpecific at h
  split at h
  all_goals
    first
    | cases h
    | obtain ⟨-, -, h⟩ := bind_eq_ok h
      rw [if_pos hqty] at h
      cases pure_eq_ok h
      exact ⟨rfl, rfl⟩

theorem planLine_eq_ok (h : planLine s line result postedAt = .ok (s', result')) :
    (line.qty = 0 ∧ s' = s ∧ result' = result) ∨
      (line.qty ≠ 0 ∧ Pushes s line result s' result') := by
  by_cases hqty : line.qty = 0
  · exact .inl ⟨hqty, planLine_of_qty_eq_zero hqty h⟩
  · have hplan := planLine_toOption s line result postedAt hqty
    rw [h, toOption_ok] at hplan
    obtain ⟨o, ho, heq⟩ := Option.map_eq_some_iff.mp hplan.symm
    cases heq
    refine .inr ⟨hqty, _, _, _, rfl, linePlan_of_outcome _ hqty ho, ?_, s.within_record _ _⟩
    simp [Leg.request]

/-! ### All lines -/

/-- The plan of a list of lines, numbered from `idx`, on the snapshot `s`. -/
inductive Planned (s : Snapshot) : ℕ → List TrxLineRequest → List TrxLineOutput →
    List PoolStateMutation → List PostingLineRequest → Prop
  | nil (idx : ℕ) : Planned s idx [] [] [] []
  | zero {idx : ℕ} {line lines outs ms ps} (hqty : line.qty = 0)
      (h : Planned s idx lines outs ms ps) :
    Planned s idx (line :: lines) outs ms ps
  | push {idx : ℕ} {line out m p lines outs ms ps} (hqty : line.qty ≠ 0)
      (hline : LinePlan s idx line out m) (hp : ∀ r ∈ p, r.trxLineIdx = idx)
      (h : Planned s (idx + 1) lines outs ms ps) :
    Planned s idx (line :: lines) (out :: outs) (m ++ ms) (p ++ ps)

lemma planLines_planned {s0 : Snapshot} (hs : s0.Within s)
    (h : planLines postedAt (s, result) lines = .ok (s', result')) :
    ∃ outs ms ps, Planned s0 result.trxLines.length lines outs ms ps ∧
      result' = ⟨result.trxLines ++ outs, result.poolStateMutations ++ ms,
        result.postingLines ++ ps⟩ := by
  induction lines generalizing s result with
  | nil =>
    cases pure_eq_ok h
    exact ⟨[], [], [], .nil _, by simp⟩
  | cons line lines ih =>
    rw [planLines, List.foldlM_cons] at h
    obtain ⟨⟨s1, result1⟩, hline, hrest⟩ := bind_eq_ok h
    rcases planLine_eq_ok hline with ⟨hqty, rfl, rfl⟩ | ⟨hqty, out, m, p, rfl, hplan, hp, hwithin⟩
    · obtain ⟨outs, ms, ps, hplanned, hresult⟩ := ih hs hrest
      exact ⟨outs, ms, ps, .zero hqty hplanned, hresult⟩
    · obtain ⟨outs, ms, ps, hplanned, rfl⟩ := ih (hs.trans hwithin) hrest
      have hlen : (result.push out m p).trxLines.length = result.trxLines.length + 1 := by
        simp [PlanResult.push]
      rw [hlen] at hplanned
      exact ⟨out :: outs, m ++ ms, p ++ ps, .push hqty (hplan.of_within hs) hp hplanned,
        by simp [PlanResult.push]⟩

theorem planApply_planned {plan : PlanResult} (h : planApply s lines postedAt = .ok plan) :
    Planned s 0 lines plan.trxLines plan.poolStateMutations plan.postingLines := by
  obtain ⟨⟨s', result⟩, hrun, rfl⟩ := map_eq_ok h
  obtain ⟨outs, ms, ps, hplanned, rfl⟩ := planLines_planned (Snapshot.Within.refl s) hrun
  simpa using hplanned

end Acct.V32
