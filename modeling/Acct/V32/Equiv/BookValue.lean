import Acct.V32.Direct.Close
import Acct.V32.Equiv.Replay

/-!
# Book value

`value_sum` is what was received less what was depleted, each depletion at its current cost
(`Book`): the hot path keeps this at the observed cost, a pass moves it by its net delta
(`Checkpoint.depletedValue_pass`). The one exception is a depletion that leaves exactly nothing on
hand, which drops the value (`KeepsStock`). What a close sweep finds at rest is the uncovered
depletions at their observed cost, up to the rounding of unit costs
(`DepletionCosting.Ok.rounded`).
-/

namespace Acct.V32

open Table List Option

variable {row : Option Aggregate} {a : Aggregate} {lines lines' F : List TrxLine} {q c : ℤ}
  {t : TrxLine} {db db' : PoolDb} {cfg : PoolCfg} {periods : List AccountingPeriod}
  {out : StrictFoldOutput}

/-- What was received, at the receipts' costs. -/
def receivedValue (lines : List TrxLine) : ℤ :=
  ((lines.filter (0 < ·.qty)).map fun t => t.qty * t.unitCost).sum

/-- The cost of a depletion in the books: its current settlement, the observed cost before the
first. -/
def bookCost (rows : List CostSettlement) (t : TrxLine) : ℤ :=
  (currentCost rows t.id).getD t.unitCost

def depletedValue (lines : List TrxLine) (rows : List CostSettlement) : ℤ :=
  ((lines.filter (·.qty < 0)).map fun t => -t.qty * bookCost rows t).sum

structure Book (db : PoolDb) : Prop where
  row : db.lines ≠ [] → db.aggregate.isSome
  value : ∀ a ∈ db.aggregate,
    a.valueSum = receivedValue db.lines - depletedValue db.lines db.costSettlements

/-- The operation is not a depletion that brings the aggregate quantity to exactly zero. -/
def KeepsStock (cfg : PoolCfg) (s : Pool) (op : PoolOp) : Prop :=
  ∀ t ∈ (s.step cfg op).db.lines, t ∉ s.db.lines → t.qty < 0 →
    ∀ a ∈ (s.step cfg op).db.aggregate, a.qty ≠ 0

/-! ### The hot path -/

lemma receivedValue_perm (h : lines.Perm lines') : receivedValue lines = receivedValue lines' :=
  ((h.filter _).map _).sum_eq

lemma depletedValue_perm (h : lines.Perm lines') {rows : List CostSettlement} :
    depletedValue lines rows = depletedValue lines' rows :=
  ((h.filter _).map _).sum_eq

lemma receivedValue_append (lines lines' : List TrxLine) :
    receivedValue (lines ++ lines') = receivedValue lines + receivedValue lines' := by
  simp [receivedValue]

lemma receivedValue_singleton (t : TrxLine) :
    receivedValue [t] = if 0 < t.qty then t.qty * t.unitCost else 0 := by
  unfold receivedValue
  by_cases h : 0 < t.qty <;> simp [h]

lemma depletedValue_append (lines lines' : List TrxLine) (rows : List CostSettlement) :
    depletedValue (lines ++ lines') rows =
      depletedValue lines rows + depletedValue lines' rows := by
  simp [depletedValue]

lemma depletedValue_singleton (t : TrxLine) (rows : List CostSettlement) :
    depletedValue [t] rows = if t.qty < 0 then -t.qty * bookCost rows t else 0 := by
  unfold depletedValue
  by_cases h : t.qty < 0 <;> simp [h]

lemma valueOrZero_eq_some {value qty v : ℤ} (h : valueOrZero value qty = some v) (hq : qty ≠ 0) :
    v = value := by
  rw [valueOrZero, if_neg hq, toI64?_eq_some] at h
  exact h.1.symm

lemma flReceipt_valueSum (h : flReceipt row q c = some a) :
    a.valueSum = (row.map (·.valueSum)).getD 0 + q * c := by
  unfold flReceipt receiptRow receiptRowWith at h
  cases row with
  | none =>
    simp only [bind_eq_bind, bind_eq_some_iff, Option.pure_def, some.injEq,
      toI64?_eq_some] at h
    obtain ⟨_, ⟨_, -, _, ⟨rfl, -⟩, rfl⟩, rfl⟩ := h
    exact (zero_add _).symm
  | some a0 =>
    simp only [bind_eq_bind, bind_eq_some_iff, Option.pure_def, some.injEq,
      toI64?_eq_some] at h
    obtain ⟨-, -, _, -, _, ⟨rfl, -⟩, _, -, rfl⟩ := h
    rfl

lemma flDeplete_valueSum {standard : Option ℤ} (h : flDeplete row q standard = some (a, c))
    (hstock : a.qty ≠ 0) : a.valueSum = (row.map (·.valueSum)).getD 0 - q * c := by
  unfold flDeplete at h
  cases row with
  | none =>
    simp only [bind_eq_bind, bind_eq_some_iff, Option.pure_def, some.injEq,
      toI64?_eq_some, Prod.mk.injEq] at h
    obtain ⟨_, ⟨rfl, -⟩, rfl, rfl⟩ := h
    show q * max (standard.getD 0) 0 * -1 = 0 - q * max (standard.getD 0) 0
    ring
  | some a0 =>
    simp only [bind_eq_bind, bind_eq_some_iff, Option.pure_def, some.injEq,
      Prod.mk.injEq] at h
    obtain ⟨-, -, qty, -, v, hv, _, -, rfl, rfl⟩ := h
    exact valueOrZero_eq_some hv hstock

/-! ### A pass -/

section Pass

variable {pass : PassFold}

section

variable (h : Checkpoint cfg db F out)
  (hpass : foldPass cfg (readClaim db.settlement) db = some pass) (hw : CostsWritten db pass db')
include h hpass hw

lemma Checkpoint.bookCost_pass (ht : t ∈ db.lines) :
    -t.qty * bookCost db'.costSettlements t = -t.qty * bookCost db.costSettlements t +
      ((pass.pending.filter (·.costing.depletionTrxLineId = t.id)).map (·.delta)).sum := by
  have hn := (h.pending_spec hpass).1
  unfold bookCost
  rcases hw.currentCost hn h.generations t.id with ⟨heq, hne⟩ | ⟨p, hp, hd, heq⟩
  · have hnil : pass.pending.filter (·.costing.depletionTrxLineId = t.id) = [] := by
      rw [filter_eq_nil_iff]
      exact fun p hp hd => hne p hp (of_decide_eq_true hd)
    rw [heq, hnil]
    exact (add_zero _).symm
  · have hone := filter_key_eq_singleton hn hp
    rw [hd] at hone
    obtain ⟨-, -, -, hprior, hdelta⟩ := h.line_of_pending hpass hp ht hd
    rw [hone, heq, ← hprior, map_singleton, sum_singleton, hdelta, getD_some]
    ring

theorem Checkpoint.depletedValue_pass :
    depletedValue db.lines db'.costSettlements =
      depletedValue db.lines db.costSettlements + pass.netDelta := by
  obtain ⟨hscan, hfold, -⟩ := foldPass_eq_some hpass
  have hids : ((db.lines.filter (·.qty < 0)).map (·.id)).Nodup :=
    h.ids.sublist (filter_sublist.map _)
  have hlines : ∀ p ∈ pass.pending, ∃ t ∈ db.lines.filter (·.qty < 0),
      t.id = p.costing.depletionTrxLineId := by
    intro p hp
    obtain ⟨t, ht, hid, hneg, -⟩ :=
      exists_line_of_mem_costings hfold ((h.pending_spec hpass).2.1 p hp).1
    exact ⟨t, mem_filter.mpr ⟨(mem_scanEvents.mp (hscan ▸ ht)).1, by simpa using hneg⟩, hid⟩
  unfold depletedValue PassFold.netDelta
  rw [← sum_filter_key hids hlines, ← sum_map_add]
  congr 1
  apply map_congr_left
  intro t ht
  exact h.bookCost_pass hpass hw (mem_of_mem_filter ht)

end

lemma PassFold.aggregate_eq_some {row' : Option Aggregate} (h : pass.aggregate row = some row') :
    row'.isSome = row.isSome ∧
      ∀ a' ∈ row', ∃ a ∈ row, a'.valueSum = a.valueSum - pass.netDelta := by
  unfold PassFold.aggregate at h
  split_ifs at h with hzero
  · cases h
    exact ⟨rfl, fun a ha => ⟨a, ha, by rw [hzero, sub_zero]⟩⟩
  · unfold reconcileAggregateValue at h
    cases row with
    | none =>
      simp only [bind_eq_bind, bind_eq_some_iff, Option.pure_def, some.injEq] at h
      obtain ⟨-, -, rfl⟩ := h
      exact ⟨rfl, by simp⟩
    | some a =>
      simp only [bind_eq_bind, bind_eq_some_iff, Option.pure_def, some.injEq,
        toI64?_eq_some] at h
      obtain ⟨_, ⟨rfl, -⟩, _, ⟨rfl, -⟩, _, -, rfl⟩ := h
      exact ⟨rfl, by simp⟩

end Pass

/-! ### The invariant -/

lemma lines_eq_nil_of_aggregate (h : db.lines ≠ [] → db.aggregate.isSome)
    (hrow : db.aggregate = none) : db.lines = [] := by
  by_contra hne
  have hsome := h hne
  rw [hrow] at hsome
  cases hsome

lemma Book.submit (h : Book db) (happ : Appends db t a)
    (hnew : currentCost db.costSettlements t.id = none) (hstock : t.qty < 0 → a.qty ≠ 0) :
    Book { db with aggregate := some a, lines := db.lines ++ [t] } := by
  refine ⟨fun _ => rfl, ?_⟩
  intro a' ha'
  obtain rfl : a = a' := some.inj ha'
  -- Before the first line there is neither a row nor any value.
  have hbefore : (db.aggregate.map (·.valueSum)).getD 0 =
      receivedValue db.lines - depletedValue db.lines db.costSettlements := by
    rcases hrow : db.aggregate with _ | a0
    · rw [lines_eq_nil_of_aggregate h.row hrow]
      rfl
    · exact h.value a0 hrow
  rw [receivedValue_append, receivedValue_singleton, depletedValue_append, depletedValue_singleton,
    bookCost, hnew, getD_none]
  rcases happ with ⟨hpos, hrec⟩ | ⟨hneg, standard, hdep⟩
  · rw [flReceipt_valueSum hrec, hbefore, if_pos hpos, if_neg (not_lt.mpr hpos.le)]
    ring
  · rw [flDeplete_valueSum hdep (hstock hneg), hbefore, if_pos hneg, if_neg (not_lt.mpr hneg.le)]
    ring

lemma Book.pass {pass : PassFold} (h : Book db) (hck : Checkpoint cfg db F out)
    (hpass : foldPass cfg (readClaim db.settlement) db = some pass)
    (hw : PassWritten cfg periods db pass db') : Book db' := by
  obtain ⟨hsome, hvalue⟩ := PassFold.aggregate_eq_some hw.aggregate
  constructor
  · intro hne
    rw [hsome]
    exact h.row (hw.lines ▸ hne)
  · intro a' ha'
    obtain ⟨a, ha, heq⟩ := hvalue a' ha'
    rw [heq, h.value a ha, hw.lines, hck.depletedValue_pass hpass hw.costSettlements]
    ring

lemma preserved_book (cfg : PoolCfg) : Preserved cfg (KeepsStock cfg) fun db _ => Book db where
  empty := ⟨by simp, by simp⟩
  submit := by
    intro s r t a F out hC hck hfresh happ hstep h
    have hmem : t ∉ s.db.lines := fun ht => hfresh t ht rfl
    unfold KeepsStock at hC
    rw [hstep] at hC
    exact h.submit happ (hck.currentCost_of_fresh hfresh) fun hneg =>
      hC t (by simp) hmem hneg a rfl
  feed _ h := ⟨h.row, h.value⟩
  escalate _ h := ⟨h.row, h.value⟩
  pass _ hck hpass _ hw h := h.pass hck hpass hw

/-! ### At rest -/

lemma layerValueSum_toRow (ls : List StrictLayer) :
    layerValueSum (ls.map (·.toRow)) = layerWeight (fun _ c => c) ls := by
  unfold layerValueSum layerWeight
  rw [List.map_map]
  rfl

lemma receiptWeight_cost (lines : List TrxLine) :
    receiptWeight (fun _ c => c) (lines.map (·.toEvent)) = receivedValue lines := by
  induction lines with
  | nil => rfl
  | cons t lines ih =>
    rw [map_cons, receiptWeight_cons, ih]
    unfold receivedValue
    by_cases h : 0 < t.qty <;> simp [TrxLine.toEvent, h]

lemma two_mul_abs_rounding_le {cs : List DepletionCosting} (h : ∀ c ∈ cs, c.Ok) :
    |2 * (cs.map fun c => depletionValue c - c.authoritativeUnitCost * c.qty).sum| ≤
      (cs.map (·.qty)).sum := by
  induction cs with
  | nil => simp
  | cons c cs ih =>
    have hc := h c mem_cons_self
    have ih := ih fun x hx => h x (mem_cons_of_mem _ hx)
    have hpos := hc.qty_pos
    have hround := hc.rounded
    simp only [map_cons, sum_cons]
    rw [abs_le] at ih ⊢
    omega

lemma sum_rounding (cs : List DepletionCosting) :
    (cs.map fun c => depletionValue c - c.authoritativeUnitCost * c.qty).sum =
      (cs.map fun c => drawValue c.draws).sum +
        (cs.map fun c => c.uncoveredQty * c.observedUnitCost).sum -
        (cs.map fun c => c.authoritativeUnitCost * c.qty).sum := by
  rw [eq_sub_iff_add_eq, ← sum_map_add, ← sum_map_add]
  simp only [sub_add_cancel, depletionValue]

lemma Checkpoint.depletedValue_eq (h : Checkpoint cfg db F out) :
    depletedValue F db.costSettlements =
      (out.costings.map fun c => c.authoritativeUnitCost * c.qty).sum := by
  have hmap := congrArg (List.map fun x : ℤ × ℤ × ℤ =>
    x.2.1 * (currentCost db.costSettlements x.1).getD x.2.2) (costings_eq_depletions h.fold)
  rw [List.map_map, List.map_map] at hmap
  refine (congrArg List.sum hmap.symm).trans (congrArg List.sum (map_congr_left ?_))
  intro c hc
  simp only [Function.comp_apply, h.costs c hc, getD_some]
  ring

lemma Checkpoint.layerValueSum_eq (h : Checkpoint cfg db (sortLines db.lines) out) :
    layerValueSum db.layers =
      receivedValue db.lines - (out.costings.map fun c => drawValue c.draws).sum := by
  have hweight := strictFold_weight (fun _ c => c) h.fold
  have hreceived : receivedValue (sortLines db.lines) = receivedValue db.lines :=
    receivedValue_perm (sortLines_perm db.lines)
  rw [receiptWeight_cost, layerWeight_nil, zero_add, hreceived] at hweight
  rw [h.layers, layerValueSum_toRow, ← hweight]
  exact (add_sub_cancel_right _ _).symm

lemma applyResidue_eq_some {layers : List LayerRow} {a' : Aggregate} {residue : ℤ}
    (h : applyResidue layers a = some (a', residue)) :
    a'.valueSum = layerValueSum layers ∧ residue = a.valueSum - layerValueSum layers := by
  unfold applyResidue at h
  simp only [bind_eq_bind, bind_eq_some_iff, toI64?_eq_some] at h
  obtain ⟨_, ⟨rfl, -⟩, h⟩ := h
  split_ifs at h with heq
  · cases h
    exact ⟨heq, by rw [heq, sub_self]⟩
  · simp only [bind_eq_some_iff, Option.pure_def, some.injEq, toI64?_eq_some,
      Prod.mk.injEq] at h
    obtain ⟨_, -, _, ⟨rfl, -⟩, rfl, rfl⟩ := h
    exact ⟨rfl, rfl⟩

/-- **The aggregate is the authoritative book value.** After any run that ends at rest, and in which
no depletion brought the aggregate quantity to exactly zero, `value_sum` is what was received less
what was depleted at the authoritative costs. The residue a close sweep posts is then the uncovered
depletions at their observed cost, with an error of at most half the depleted quantity. -/
theorem Pool.run_atRest_bookValue (cfg : PoolCfg) (ops : List PoolOp)
    (hstock : Pool.Throughout cfg (KeepsStock cfg) {} ops) (hrest : (Pool.run cfg ops).AtRest) :
    ∃ out, strictFold cfg.newestFirst []
        ((sortLines (Pool.run cfg ops).db.lines).map (·.toEvent)) = some out ∧
      (∀ t ∈ (Pool.run cfg ops).db.lines, t.qty < 0 → ∃ c ∈ out.costings,
        c.depletionTrxLineId = t.id ∧
        bookCost (Pool.run cfg ops).db.costSettlements t = c.authoritativeUnitCost) ∧
      ((Pool.run cfg ops).db.lines ≠ [] → (Pool.run cfg ops).db.aggregate.isSome) ∧
      ∀ a ∈ (Pool.run cfg ops).db.aggregate,
        a.valueSum = receivedValue (Pool.run cfg ops).db.lines -
          depletedValue (Pool.run cfg ops).db.lines (Pool.run cfg ops).db.costSettlements ∧
        (∀ a' residue, applyResidue (Pool.run cfg ops).db.layers a = some (a', residue) →
          residue = a.valueSum - layerValueSum (Pool.run cfg ops).db.layers) ∧
        |2 * (a.valueSum - layerValueSum (Pool.run cfg ops).db.layers -
            -(out.costings.map fun c => c.uncoveredQty * c.observedUnitCost).sum)| ≤
          (out.costings.map (·.qty)).sum := by
  obtain ⟨out, hck, hbook⟩ := hrest.checkpoint (Pool.run_inv (preserved_book cfg) ops hstock)
  refine ⟨out, hck.fold, fun t ht hneg => ?_, hbook.row,
    fun a ha => ⟨hbook.value a ha, fun a' residue hres => (applyResidue_eq_some hres).2, ?_⟩⟩
  · have hmem : t ∈ sortLines (Pool.run cfg ops).db.lines := mem_sortBy.mpr ht
    obtain ⟨c, hc, hid⟩ := exists_costing_of_mem_lines hck.fold hmem hneg
    refine ⟨c, hc, hid, ?_⟩
    rw [bookCost, ← hid, hck.costs c hc, getD_some]
  · refine le_of_eq_of_le ?_ (two_mul_abs_rounding_le hck.out_ok.1)
    rw [hbook.value a ha, ← depletedValue_perm (sortLines_perm _), hck.depletedValue_eq,
      hck.layerValueSum_eq, sum_rounding]
    congr 2
    ring

/-- Two receipts, the second backdated, and two depletions that leave the pool three units short;
fed and settled. -/
def shortPool : List PoolOp :=
  [.submit ⟨1, 2, .poReceiptLine, 10, 100, none, true⟩,
    .submit ⟨2, 3, .woBackflush, -3, 0, none, true⟩,
    .submit ⟨3, 1, .poReceiptLine, 2, 101, none, true⟩,
    .submit ⟨4, 4, .woBackflush, -12, 0, none, true⟩,
    .feed [.physical 1 2, .physical 2 3, .physical 3 1, .physical 4 4], .pass []]

/-- The short pool's aggregate carries its book value; the sweep would absorb `-301`, of which
`-300` is the uncovered depletion. -/
theorem Pool.run_shortPool_bookValue :
    (Pool.run (sampleCfg false) shortPool).AtRest ∧
    ∃ a ∈ (Pool.run (sampleCfg false) shortPool).db.aggregate, a.valueSum =
      receivedValue (Pool.run (sampleCfg false) shortPool).db.lines -
        depletedValue (Pool.run (sampleCfg false) shortPool).db.lines
          (Pool.run (sampleCfg false) shortPool).db.costSettlements := by
  have hrest : (Pool.run (sampleCfg false) shortPool).AtRest := by decide
  have hstock : Pool.Throughout (sampleCfg false) (KeepsStock (sampleCfg false)) {} shortPool := by
    unfold KeepsStock shortPool
    exact ⟨by decide, by decide, by decide, by decide, by decide, by decide, trivial⟩
  obtain ⟨out, -, -, hrow, hvalue⟩ :=
    Pool.run_atRest_bookValue (sampleCfg false) shortPool hstock hrest
  obtain ⟨a, ha⟩ := isSome_iff_exists.mp (hrow (by decide))
  exact ⟨hrest, a, ha, (hvalue a ha).1⟩

end Acct.V32
