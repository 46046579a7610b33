import Acct.V32.Db.Equiv.Period
import Acct.V32.Equiv.BookValue
import Mathlib.Algebra.Order.BigOperators.Group.List

/-!
# When a pass completes

What can leave the `bigint` range is what a pass forms from several lines: the adjustment of one
depletion, the net delta, and the aggregate value less the net delta. A pass that does not escalate
completes exactly if they are all in range (`Checkpoint.recalcStep_isSome_iff`). All three are
bounded by what moved through the pool (`two_mul_sum_costs_le`, `Bounded`).
-/

namespace Acct.V32

open Table List Option

variable {F lines : List TrxLine} {out : StrictFoldOutput} {cfg : PoolCfg} {row : Option Aggregate}
  {q c : ℤ} {db : PoolDb} {periods : List AccountingPeriod} {t : TrxLine} {a : Aggregate}

/-! ### The bound -/

def depletedQty (lines : List TrxLine) : ℤ := ((lines.filter (·.qty < 0)).map (-·.qty)).sum

/-- Twice the most the costs of the depletions can add up to: what was received, what was depleted
at the recorded costs, and half a unit for each unit depleted. -/
def costBound (lines : List TrxLine) : ℤ :=
  2 * (receivedValue lines + depletedValue lines []) + depletedQty lines

lemma receivedValue_nonneg (lines : List TrxLine) : 0 ≤ receivedValue lines := by
  refine sum_nonneg fun v hv => ?_
  obtain ⟨t, ht, rfl⟩ := List.mem_map.mp hv
  have hpos : 0 < t.qty := by simpa using (mem_filter.mp ht).2
  exact mul_nonneg hpos.le t.unitCost_nonneg

lemma depletedValue_nonneg (rows : List CostSettlement)
    (h : ∀ t ∈ lines, t.qty < 0 → 0 ≤ bookCost rows t) : 0 ≤ depletedValue lines rows := by
  refine sum_nonneg fun v hv => ?_
  obtain ⟨t, ht, rfl⟩ := List.mem_map.mp hv
  obtain ⟨hmem, hneg⟩ := mem_filter.mp ht
  have hneg : t.qty < 0 := by simpa using hneg
  exact mul_nonneg (by omega) (h t hmem hneg)

lemma depletedQty_nonneg (lines : List TrxLine) : 0 ≤ depletedQty lines := by
  refine sum_nonneg fun v hv => ?_
  obtain ⟨t, ht, rfl⟩ := List.mem_map.mp hv
  have hneg : t.qty < 0 := by simpa using (mem_filter.mp ht).2
  omega

lemma costBound_nonneg (lines : List TrxLine) : 0 ≤ costBound lines := by
  have hreceived := receivedValue_nonneg lines
  have hobserved := depletedValue_nonneg [] fun t (_ : t ∈ lines) _ => t.unitCost_nonneg
  have hqty := depletedQty_nonneg lines
  unfold costBound
  omega

lemma costBound_append (lines lines' : List TrxLine) :
    costBound (lines ++ lines') = costBound lines + costBound lines' := by
  have hqty : depletedQty (lines ++ lines') = depletedQty lines + depletedQty lines' := by
    simp [depletedQty]
  rw [costBound, receivedValue_append, depletedValue_append, hqty, costBound, costBound]
  ring

lemma costBound_perm {lines' : List TrxLine} (h : lines.Perm lines') :
    costBound lines = costBound lines' := by
  have hqty : depletedQty lines = depletedQty lines' := ((h.filter _).map _).sum_eq
  rw [costBound, costBound, receivedValue_perm h, depletedValue_perm h, hqty]

section

variable (hids : (lines.map (·.id)).Nodup) (hsorted : F.Pairwise (·.pos < ·.pos))
  (hsub : ∀ t ∈ F, t ∈ lines)
include hids hsorted hsub

lemma perm_append_rest :
    lines.Perm (F ++ lines.filter (· ∉ F)) := by
  have hF : (lines.filter (· ∈ F)).Perm F := by
    refine (perm_ext_iff_of_nodup (hids.of_map.filter _)
      (nodup_of_pairwise_lt hsorted)).mpr fun t => ?_
    simpa using hsub t
  have hsplit := filter_append_perm (fun t => decide (t ∈ F)) lines
  simp only [← decide_not] at hsplit
  exact hsplit.symm.trans (hF.append_right _)

lemma costBound_le :
    costBound F ≤ costBound lines := by
  rw [costBound_perm (perm_append_rest hids hsorted hsub), costBound_append]
  have := costBound_nonneg (lines.filter (· ∉ F))
  omega

end

/-! ### The costs of a replay -/

theorem two_mul_sum_costs_le {newestFirst : Bool}
    (h : strictFold newestFirst [] (F.map (·.toEvent)) = some out) :
    2 * (out.costings.map fun c => c.authoritativeUnitCost * c.qty).sum ≤ costBound F := by
  obtain ⟨out', hout', hok, hlayers⟩ := exists_strictFold_lines newestFirst F
  obtain rfl : out = out' := some.inj (h.symm.trans hout')
  -- what was drawn has been received
  have hdrawn : (out.costings.map fun c => drawValue c.draws).sum ≤ receivedValue F := by
    have hweight := strictFold_weight (fun _ c => c) h
    have hopen : 0 ≤ layerWeight (fun _ c => c) out.layers := by
      refine sum_nonneg fun v hv => ?_
      obtain ⟨l, hl, rfl⟩ := List.mem_map.mp hv
      exact mul_nonneg (hlayers l hl).qty_pos.le (hlayers l hl).cost_nonneg
    rw [receiptWeight_cost, layerWeight_nil, zero_add] at hweight
    simp only [drawValue_eq]
    omega
  -- what was not covered costs at most what was observed
  have huncovered : (out.costings.map fun c => c.uncoveredQty * c.observedUnitCost).sum ≤
      depletedValue F [] := by
    have hobserved :
        depletedValue F [] = (out.costings.map fun c => c.qty * c.observedUnitCost).sum := by
      have hmap := congrArg (List.map fun x : ℤ × ℤ × ℤ => x.2.1 * x.2.2) (costings_eq_depletions h)
      rw [List.map_map, List.map_map] at hmap
      exact (congrArg List.sum hmap).symm
    rw [hobserved]
    refine sum_le_sum fun c hc => ?_
    obtain ⟨t, -, -, -, -, hcost⟩ := exists_line_of_mem_costings h hc
    have hcovered := (hok c hc).covered
    have hdraws := drawValue_bounds (hok c hc).draws_ok
    exact mul_le_mul_of_nonneg_right (by omega) (hcost ▸ t.unitCost_nonneg)
  have hqty : (out.costings.map (·.qty)).sum = depletedQty F := by
    have hmap := congrArg (List.map fun x : ℤ × ℤ × ℤ => x.2.1) (costings_eq_depletions h)
    rw [List.map_map, List.map_map] at hmap
    exact congrArg List.sum hmap
  have hround := two_mul_abs_rounding_le hok
  rw [sum_rounding, hqty, abs_le] at hround
  unfold costBound
  omega

lemma Checkpoint.currentCost_eq_none (h : Checkpoint cfg db F out) (ht : t ∈ db.lines)
    (hF : t ∉ F) : currentCost db.costSettlements t.id = none := by
  have hnil : db.costSettlements.filter (·.depletionTrxLineId = t.id) = [] := by
    rw [filter_eq_nil_iff]
    intro r hr hid
    obtain ⟨u, hu, huid⟩ := h.rows r hr
    have heq :=
      inj_on_of_nodup_map h.ids (h.subset u hu) ht (huid.trans (of_decide_eq_true hid))
    exact hF (heq ▸ hu)
  simp [currentCost, currentSettlement, hnil]

lemma Checkpoint.bookCost_nonneg (h : Checkpoint cfg db F out) (ht : t ∈ db.lines)
    (hneg : t.qty < 0) : 0 ≤ bookCost db.costSettlements t := by
  unfold bookCost
  by_cases hF : t ∈ F
  · obtain ⟨c, hc, hid⟩ := exists_costing_of_mem_lines h.fold hF hneg
    rw [← hid, h.costs c hc]
    exact (h.out_ok.1 c hc).authoritative_nonneg
  · rw [h.currentCost_eq_none ht hF]
    exact t.unitCost_nonneg

theorem Checkpoint.two_mul_depletedValue_le (h : Checkpoint cfg db F out) :
    2 * depletedValue db.lines db.costSettlements ≤ costBound db.lines := by
  have hperm := perm_append_rest h.ids h.sorted h.subset
  set rest := db.lines.filter (· ∉ F) with hrest
  -- outside the checkpoint the observed costs are in the books
  have hobserved : depletedValue rest db.costSettlements = depletedValue rest [] := by
    refine congrArg List.sum (map_congr_left fun t ht => ?_)
    obtain ⟨hmem, hF⟩ := mem_filter.mp (mem_filter.mp ht).1
    rw [bookCost, h.currentCost_eq_none hmem (by simpa using hF)]
    rfl
  have hcovered := two_mul_sum_costs_le h.fold
  have hreceived := receivedValue_nonneg rest
  have hqty := depletedQty_nonneg rest
  have hbound :
      costBound rest = 2 * (receivedValue rest + depletedValue rest []) + depletedQty rest :=
    rfl
  rw [depletedValue_perm hperm, depletedValue_append, costBound_perm hperm, costBound_append,
    h.depletedValue_eq, hobserved]
  omega

/-! ### The aggregate value -/

structure Bounded (cfg : PoolCfg) (db : PoolDb) : Prop where
  row : db.lines ≠ [] → db.aggregate.isSome
  accounts : db.lines ≠ [] → cfg.accounts.isSome
  receipts : ∀ t ∈ db.lines, 0 < t.qty → InI64 (t.qty * t.unitCost)
  nonneg : ∀ a ∈ db.aggregate, 0 ≤ a.valueSum + depletedValue db.lines db.costSettlements
  le : ∀ a ∈ db.aggregate,
    2 * (a.valueSum + depletedValue db.lines db.costSettlements) ≤ costBound db.lines

lemma inI64_of_flReceipt (h : flReceipt row q c = some a) : InI64 (q * c) := by
  unfold flReceipt receiptRow receiptRowWith at h
  simp only [bind_eq_bind, bind_eq_some_iff] at h
  obtain ⟨_, ⟨_, -, _, hvalue, -⟩, -⟩ := h
  exact (toI64?_eq_some.mp hvalue).2

lemma flDeplete_emptied {standard : Option ℤ} (hq : 0 < q)
    (h : flDeplete row q standard = some (a, c)) (hempty : a.qty = 0) : a.valueSum = 0 := by
  unfold flDeplete at h
  cases row with
  | none =>
    simp only [bind_eq_bind, bind_eq_some_iff, Option.pure_def, some.injEq,
      Prod.mk.injEq] at h
    obtain ⟨_, -, rfl, -⟩ := h
    dsimp only at hempty
    omega
  | some a0 =>
    simp only [bind_eq_bind, bind_eq_some_iff, Option.pure_def, some.injEq,
      Prod.mk.injEq] at h
    obtain ⟨-, -, qty, -, v, hv, _, -, rfl, -⟩ := h
    rw [valueOrZero, if_pos hempty] at hv
    exact (some.inj hv).symm

lemma accounts_of_step {s : Pool} {r : SubmitLine} (h : (Pool.step cfg s (.submit r)).db ≠ s.db) :
    cfg.accounts.isSome := by
  rcases hexec : s.exec? cfg (.submit r) with _ | s'
  · rw [Pool.step, Machine.step_of_none hexec] at h
    exact absurd rfl h
  rw [Pool.step, Machine.step_of_some hexec] at h
  simp only [Pool.exec?] at hexec
  split_ifs at hexec
  obtain ⟨db, hdb, rfl⟩ := map_eq_some_iff.mp hexec
  unfold submitLine at hdb
  split_ifs at hdb with _ _ hnone
  · exact absurd (some.inj hdb).symm h
  all_goals simpa [isSome_iff_ne_none] using hnone

lemma costBound_singleton (t : TrxLine) :
    costBound [t] =
      if 0 < t.qty then 2 * (t.qty * t.unitCost) else -t.qty * (2 * t.unitCost + 1) := by
  have hne := t.qty_ne_zero
  unfold costBound depletedQty
  rw [receivedValue_singleton, depletedValue_singleton]
  by_cases hpos : 0 < t.qty
  · simp [hpos, not_lt.mpr hpos.le]
  · have hneg : t.qty < 0 := by omega
    simp only [hpos, hneg, if_true, if_false, bookCost, decide_true, filter_cons_of_pos,
      filter_nil, map_cons, map_nil, sum_cons, sum_nil]
    rw [show currentCost [] t.id = none from rfl, getD_none]
    ring

lemma Bounded.submit (h : Bounded cfg db) (hck : Checkpoint cfg db F out)
    (hfresh : ∀ u ∈ db.lines, u.id ≠ t.id) (happ : Appends db t a)
    (haccounts : cfg.accounts.isSome) :
    Bounded cfg { db with aggregate := some a, lines := db.lines ++ [t] } := by
  have hck' : Checkpoint cfg { db with aggregate := some a, lines := db.lines ++ [t] } F out :=
    hck.submit hfresh
  have hafter := hck'.two_mul_depletedValue_le
  have hafter0 := depletedValue_nonneg db.costSettlements fun u hu => hck'.bookCost_nonneg hu
  -- before the first line there is neither a row nor any value
  obtain ⟨hlow, hhigh⟩ : 0 ≤ (db.aggregate.map (·.valueSum)).getD 0 +
        depletedValue db.lines db.costSettlements ∧
      2 * ((db.aggregate.map (·.valueSum)).getD 0 + depletedValue db.lines db.costSettlements) ≤
        costBound db.lines := by
    cases hrow : db.aggregate with
    | none =>
      rw [lines_eq_nil_of_aggregate h.row hrow]
      exact ⟨le_rfl, le_rfl⟩
    | some a0 => exact ⟨h.nonneg a0 hrow, h.le a0 hrow⟩
  have hnew : bookCost db.costSettlements t = t.unitCost := by
    rw [bookCost, hck.currentCost_of_fresh hfresh, getD_none]
  have hvalue : depletedValue (db.lines ++ [t]) db.costSettlements =
      depletedValue db.lines db.costSettlements + if t.qty < 0 then -t.qty * t.unitCost else 0 := by
    rw [depletedValue_append, depletedValue_singleton, hnew]
  have hbound : costBound (db.lines ++ [t]) = costBound db.lines + costBound [t] :=
    costBound_append _ _
  have hbounds : 0 ≤ a.valueSum + depletedValue (db.lines ++ [t]) db.costSettlements ∧
      2 * (a.valueSum + depletedValue (db.lines ++ [t]) db.costSettlements) ≤
        costBound (db.lines ++ [t]) := by
    rcases happ with ⟨hpos, hreceipt⟩ | ⟨hneg, standard, hdeplete⟩
    · have hnonneg := mul_nonneg hpos.le t.unitCost_nonneg
      rw [hbound, costBound_singleton, if_pos hpos, hvalue, if_neg (by omega),
        flReceipt_valueSum hreceipt]
      omega
    · by_cases hempty : a.qty = 0
      -- the value is dropped, and the booked depletions are bounded on their own
      · rw [flDeplete_emptied (by omega) hdeplete hempty, zero_add]
        exact ⟨hafter0, hafter⟩
      · have hnonneg := costBound_nonneg [t]
        rw [hbound, hvalue, if_pos hneg, flDeplete_valueSum hdeplete hempty]
        omega
  refine ⟨fun _ => rfl, fun _ => haccounts, fun u hu hpos => ?_, ?_, ?_⟩
  · rcases mem_append.mp hu with hu | hu
    · exact h.receipts u hu hpos
    · rw [mem_singleton.mp hu] at hpos ⊢
      rcases happ with ⟨-, hreceipt⟩ | ⟨hneg, -⟩
      · exact inI64_of_flReceipt hreceipt
      · omega
  · rintro _ ⟨⟩
    exact hbounds.1
  · rintro _ ⟨⟩
    exact hbounds.2

lemma Bounded.pass {db' : PoolDb} {pass : PassFold} (h : Bounded cfg db)
    (hck : Checkpoint cfg db F out) (hpass : foldPass cfg (readClaim db.settlement) db = some pass)
    (hw : PassWritten cfg periods db pass db') : Bounded cfg db' := by
  obtain ⟨hsome, hvalue⟩ := PassFold.aggregate_eq_some hw.aggregate
  have hmoved := hck.depletedValue_pass hpass hw.costSettlements
  refine ⟨fun hne => ?_, fun hne => h.accounts (hw.lines ▸ hne), ?_, fun a' ha' => ?_,
    fun a' ha' => ?_⟩
  · rw [hsome]
    exact h.row (hw.lines ▸ hne)
  · rw [hw.lines]
    exact h.receipts
  · obtain ⟨a, ha, heq⟩ := hvalue a' ha'
    have hbefore := h.nonneg a ha
    rw [hw.lines, hmoved, heq]
    omega
  · obtain ⟨a, ha, heq⟩ := hvalue a' ha'
    have hbefore := h.le a ha
    rw [hw.lines, hmoved, heq]
    omega

lemma preserved_bounded (cfg : PoolCfg) :
    Preserved cfg (fun _ _ => True) fun db _ => Bounded cfg db where
  empty := ⟨by simp, by simp, by simp, by simp, by simp⟩
  submit := by
    intro s r t a F out _ hck hfresh happ hstep h
    refine h.submit hck hfresh happ (accounts_of_step (s := s) (r := r) ?_)
    rw [hstep]
    intro heq
    have hlines := congrArg (fun db : PoolDb => db.lines.length) heq
    simp at hlines
  feed _ h := ⟨h.row, h.accounts, h.receipts, h.nonneg, h.le⟩
  escalate _ h := ⟨h.row, h.accounts, h.receipts, h.nonneg, h.le⟩
  pass _ hck hpass _ hw h := h.pass hck hpass hw

/-! ### The steps of a pass -/

/-- What a pass forms from several lines is in the `bigint` range. -/
structure PassFold.InRange (pass : PassFold) (row : Option Aggregate) : Prop where
  amounts : ∀ p ∈ pass.pending, InI64 |p.delta|
  net : InI64 pass.netDelta
  value : pass.netDelta ≠ 0 → ∀ a ∈ row, InI64 (a.valueSum - pass.netDelta)

lemma isSome_toI64?_iff {x : ℤ} : (toI64? x).isSome ↔ InI64 x := by
  unfold toI64?
  split_ifs with h <;> simp [h]

lemma writeAdjusted_isSome_iff {accounts : PostingAccounts} {g n : ℤ} {ps : List Pending} :
    (writeAdjusted accounts g n ps).isSome ↔ ∀ p ∈ ps, InI64 |p.delta| := by
  induction ps generalizing n with
  | nil => simp [writeAdjusted]
  | cons p ps ih =>
    rw [forall_mem_cons, ← ih (n := n + 1), ← isSome_toI64?_iff]
    simp only [writeAdjusted, adjustmentOf]
    cases toI64? |p.delta| with
    | none => simp
    | some amount => cases writeAdjusted accounts g (n + 1) ps <;> simp

lemma PassFold.write_isSome_iff {pass : PassFold} (periods : List AccountingPeriod) (claim : Claim)
    (db : PoolDb) (haccounts : pass.pending ≠ [] → cfg.accounts.isSome) :
    (pass.write cfg periods claim db).isSome ↔ (∀ p ∈ pass.pending, InI64 |p.delta|) ∧
      ∀ p ∈ pass.pending, PeriodGuardAdmits periods p.postedAt := by
  unfold PassFold.write
  by_cases hempty : pass.pending = []
  · simp [hempty]
  rw [if_neg (by simpa using hempty)]
  obtain ⟨accounts, hacc⟩ := isSome_iff_exists.mp (haccounts hempty)
  have hadjusted : (writeAdjustments cfg (pass.generation claim) db.nextPostingLineId
      (pass.pending.filter (·.delta ≠ 0))).isSome ↔ ∀ p ∈ pass.pending, InI64 |p.delta| := by
    have hall : (∀ p ∈ pass.pending.filter (·.delta ≠ 0), InI64 |p.delta|) ↔
        ∀ p ∈ pass.pending, InI64 |p.delta| := by
      refine ⟨fun h p hp => ?_, fun h p hp => h p (mem_of_mem_filter hp)⟩
      by_cases hzero : p.delta = 0
      · rw [hzero]
        decide
      · exact h p (mem_filter.mpr ⟨hp, by simpa using hzero⟩)
    rw [← hall]
    unfold writeAdjustments
    split_ifs with hnil
    · rw [List.isEmpty_iff.mp hnil]
      exact iff_of_true rfl (forall_mem_nil _)
    · rw [hacc, bind_some]
      exact writeAdjusted_isSome_iff
  rw [← hadjusted, writeGeneration]
  generalize writeAdjustments cfg (pass.generation claim) db.nextPostingLineId
    (pass.pending.filter (·.delta ≠ 0)) = written?
  cases written? with
  | none => exact iff_of_false Bool.false_ne_true fun h => Bool.false_ne_true h.1
  | some written =>
    rw [bind_eq_bind, bind_some]
    by_cases hguard : ∀ p ∈ pass.pending, PeriodGuardAdmits periods p.postedAt
    · rw [if_pos hguard]
      exact iff_of_true rfl ⟨rfl, hguard⟩
    · rw [if_neg hguard]
      exact iff_of_false Bool.false_ne_true fun h => hguard h.2

lemma materializeLayers_isSome {ls : List StrictLayer} (h : ∀ l ∈ ls, InI64 (l.qty * l.unitCost)) :
    (materializeLayers ls).isSome := by
  induction ls with
  | nil => rfl
  | cons l ls ih =>
    obtain ⟨rows, hrows⟩ := isSome_iff_exists.mp
      (ih fun x hx => h x (mem_cons_of_mem _ hx))
    simp [materializeLayers, toI64?_of_inI64 (h l mem_cons_self), hrows]

lemma PassFold.aggregate_isSome_iff (pass : PassFold) (row : Option Aggregate) :
    (pass.aggregate row).isSome ↔ InI64 pass.netDelta ∧
      (pass.netDelta ≠ 0 → ∀ a ∈ row, InI64 (a.valueSum - pass.netDelta)) := by
  unfold PassFold.aggregate
  by_cases hzero : pass.netDelta = 0
  · have hrange : InI64 0 := by decide
    simp [hzero, hrange]
  rw [if_neg hzero]
  unfold reconcileAggregateValue
  by_cases hnet : InI64 pass.netDelta
  swap
  · simp [toI64?_eq_none.mpr hnet, hnet]
  rw [toI64?_of_inI64 hnet]
  cases row with
  | none => simp [hnet]
  | some a =>
    by_cases hvalue : InI64 (a.valueSum - pass.netDelta)
    swap
    · simp [toI64?_eq_none.mpr hvalue, hzero, hvalue]
    have haverage : (averageOr a.unitCost (a.valueSum - pass.netDelta) a.qty).isSome := by
      unfold averageOr averageOrWith
      split_ifs with hpos
      · obtain ⟨c, hc, -⟩ := exists_sqlBankerDiv hvalue hpos
        rw [hc]
        rfl
      · rfl
    obtain ⟨c, hc⟩ := isSome_iff_exists.mp haverage
    simp [toI64?_of_inI64 hvalue, hc, hnet, hvalue]

lemma pendingSet_isSome (rows : List CostSettlement) {scanned : List TrxLine}
    {costings : List DepletionCosting}
    (h : ∀ c ∈ costings, ∃ t ∈ scanned, t.id = c.depletionTrxLineId) :
    (pendingSet rows scanned costings).isSome := by
  induction costings with
  | nil => rfl
  | cons c costings ih =>
    obtain ⟨rest, hrest⟩ := isSome_iff_exists.mp
      (ih fun x hx => h x (mem_cons_of_mem _ hx))
    obtain ⟨t, ht, hid⟩ := h c mem_cons_self
    obtain ⟨line, hline⟩ : ∃ line, scanned.find? (·.id = c.depletionTrxLineId) = some line :=
      isSome_iff_exists.mp (List.find?_isSome.mpr ⟨t, ht, by simpa using hid⟩)
    unfold pendingSet
    dsimp only
    split_ifs
    · simp [hline, hrest]
    · rw [hrest]
      rfl

section Pass

variable {pass : PassFold}

section

variable (h : Checkpoint cfg db F out)
include h

theorem Checkpoint.exists_foldPass :
    ∃ pass, foldPass cfg (readClaim db.settlement) db = some pass := by
  obtain ⟨o, ho, -, hopening⟩ := h.opening
  obtain ⟨o', ho', -, hlayers⟩ :=
    exists_strictFold_lines cfg.newestFirst (resumedLines (readClaim db.settlement) F)
  obtain rfl : o = o' := some.inj (ho.symm.trans ho')
  set scanned := scanEvents db.lines (readClaim db.settlement).scanFrom with hscanned
  have hevents : ∀ e ∈ scanned.map (·.toEvent), e.Ok := by
    intro e he
    obtain ⟨t, -, rfl⟩ := List.mem_map.mp he
    exact t.toEvent_ok
  obtain ⟨fold, hfold, -⟩ := exists_strictFold cfg.newestFirst hlayers hevents
  have hfound : ∀ c ∈ fold.costings, ∃ t ∈ scanned, t.id = c.depletionTrxLineId := by
    intro c hc
    obtain ⟨t, ht, hid, -⟩ := exists_line_of_mem_costings hfold hc
    exact ⟨t, ht, hid⟩
  obtain ⟨pending, hpending⟩ :=
    isSome_iff_exists.mp (pendingSet_isSome db.costSettlements hfound)
  refine ⟨⟨scanned, fold, pending⟩, ?_⟩
  unfold foldPass
  rw [hopening, ← hscanned]
  simp [hfold, hpending]

/-- **The open layers can always be written**: none is worth more than its receipt. -/
theorem Checkpoint.layers_isSome (hb : Bounded cfg db)
    (hpass : foldPass cfg (readClaim db.settlement) db = some pass) :
    (pass.layers db.layers).isSome := by
  have hsub := h.extended_subset (foldPass_eq_some hpass).1
  have hopen : ∀ l ∈ pass.out.layers, 0 ≤ l.unitCost ∧ InI64 (l.qty * l.unitCost) := by
    have hfold := h.extended_fold hpass
    refine fun l hl => strictFold_layers_forall
      (P := fun l => 0 ≤ l.unitCost ∧ InI64 (l.qty * l.unitCost)) ?_ (forall_mem_nil _) ?_
      hfold l hl
    · rintro l q ⟨hcost, hvalue⟩ hpos hle
      have hlow := mul_nonneg hpos.le hcost
      have hhigh := mul_le_mul_of_nonneg_right hle hcost
      unfold InI64 at hvalue ⊢
      exact ⟨hcost, by dsimp only; omega⟩
    · intro e he hpos
      obtain ⟨t, ht, rfl⟩ := List.mem_map.mp he
      exact ⟨t.unitCost_nonneg, hb.receipts t (hsub t ht) hpos⟩
  unfold PassFold.layers
  split_ifs
  · rfl
  · exact materializeLayers_isSome fun l hl => (hopen l hl).2

lemma Checkpoint.lines_ne_nil
    (hpass : foldPass cfg (readClaim db.settlement) db = some pass) (hpending : pass.pending ≠ []) :
    db.lines ≠ [] := by
  obtain ⟨p, hp⟩ := exists_mem_of_ne_nil _ hpending
  obtain ⟨hscan, hfold, -⟩ := foldPass_eq_some hpass
  obtain ⟨t, ht, -⟩ := exists_line_of_mem_costings hfold ((h.pending_spec hpass).2.1 p hp).1
  exact ne_nil_of_mem (mem_scanEvents.mp (hscan ▸ ht)).1

/-- **A pass completes** if it escalates, or if what it forms from several lines is in range. -/
theorem Checkpoint.recalcStep_isSome_iff (periods : List AccountingPeriod) (hb : Bounded cfg db)
    (hqueued : db.queued = true) (hrunning : db.escalation = none)
    (hpass : foldPass cfg (readClaim db.settlement) db = some pass) :
    (recalcStep cfg periods db).isSome ↔
      (detectClosedPeriodDivergence periods pass.pending).isSome ∨ pass.InRange db.aggregate := by
  unfold recalcStep runClaimedPass
  rw [if_pos ⟨hqueued, hrunning⟩, hpass, bind_eq_bind, bind_some]
  cases hdetect : detectClosedPeriodDivergence periods pass.pending with
  | some e => exact iff_of_true rfl (.inl rfl)
  | none =>
    have hguard : ∀ p ∈ pass.pending, PeriodGuardAdmits periods p.postedAt := fun p hp =>
      periodGuardAdmits_iff.mpr (detectClosedPeriodDivergence_eq_none.mp hdetect p hp)
    have hwrite := PassFold.write_isSome_iff periods (readClaim db.settlement) db
      fun hne => hb.accounts (h.lines_ne_nil hpass hne)
    obtain ⟨layers, hlayers⟩ := isSome_iff_exists.mp (h.layers_isSome hb hpass)
    have haggregate := pass.aggregate_isSome_iff db.aggregate
    unfold writePass
    cases hdb : pass.write cfg periods (readClaim db.settlement) db with
    | none =>
      rw [hdb] at hwrite
      refine iff_of_false Bool.false_ne_true ?_
      rintro (hsome | hrange)
      · cases hsome
      · exact Bool.false_ne_true (hwrite.mpr ⟨hrange.amounts, hguard⟩)
    | some db1 =>
      obtain ⟨as, rows, n, rfl, -⟩ := PassFold.write_eq_some hdb
      rw [hdb] at hwrite
      obtain ⟨hamounts, -⟩ := hwrite.mp rfl
      simp only [bind_eq_bind, bind_some, hlayers]
      cases hagg : pass.aggregate db.aggregate with
      | none =>
        rw [hagg] at haggregate
        refine iff_of_false Bool.false_ne_true ?_
        rintro (hsome | hrange)
        · cases hsome
        · exact Bool.false_ne_true (haggregate.mpr ⟨hrange.net, hrange.value⟩)
      | some row =>
        rw [hagg] at haggregate
        obtain ⟨hnet, hvalue⟩ := haggregate.mp rfl
        exact iff_of_true rfl (.inr ⟨hamounts, hnet, hvalue⟩)

end

lemma cost_le_depletedValue {rows : List CostSettlement}
    (hnonneg : ∀ t ∈ lines, t.qty < 0 → 0 ≤ bookCost rows t) (ht : t ∈ lines) (hneg : t.qty < 0) :
    -t.qty * bookCost rows t ≤ depletedValue lines rows := by
  refine single_le_sum (fun v hv => ?_) _
    (List.mem_map_of_mem (mem_filter.mpr ⟨ht, by simpa using hneg⟩))
  obtain ⟨u, hu, rfl⟩ := List.mem_map.mp hv
  obtain ⟨hmem, hneg⟩ := mem_filter.mp hu
  have hneg : u.qty < 0 := by simpa using hneg
  exact mul_nonneg (by omega) (hnonneg u hmem hneg)

/-- The adjustment of one depletion moves between two costs that are both within the bound. -/
lemma Checkpoint.two_mul_abs_delta_le (h : Checkpoint cfg db F out)
    (hpass : foldPass cfg (readClaim db.settlement) db = some pass) {p : Pending}
    (hp : p ∈ pass.pending) : 2 * |p.delta| ≤ costBound db.lines := by
  obtain ⟨hscan, hfold, -⟩ := foldPass_eq_some hpass
  have hc := ((h.pending_spec hpass).2.1 p hp).1
  obtain ⟨t, ht, hid, hneg, hqty, -⟩ := exists_line_of_mem_costings hfold hc
  have hmem := (mem_scanEvents.mp (hscan ▸ ht)).1
  obtain ⟨-, -, -, hprior, hdelta⟩ := h.line_of_pending hpass hp hmem hid.symm
  have hbook : p.priorUnitCost = bookCost db.costSettlements t := hprior
  have hextended := h.extended_fold hpass
  -- the cost it had
  have hnonneg : ∀ u ∈ db.lines, u.qty < 0 → 0 ≤ bookCost db.costSettlements u :=
    fun u hu => h.bookCost_nonneg hu
  have hold := cost_le_depletedValue hnonneg hmem hneg
  have hbound := h.two_mul_depletedValue_le
  -- the cost it gets
  obtain ⟨_, hout, hok, -⟩ := exists_strictFold_lines cfg.newestFirst
    (resumedLines (readClaim db.settlement) F ++ pass.scanned)
  rw [hextended] at hout
  cases hout
  have hnew : p.costing.authoritativeUnitCost * p.costing.qty ≤
      ((resumedCostings (readClaim db.settlement) out ++ pass.out.costings).map
        fun c => c.authoritativeUnitCost * c.qty).sum := by
    refine single_le_sum (fun v hv => ?_) _
      (List.mem_map_of_mem (f := fun c : DepletionCosting => c.authoritativeUnitCost * c.qty)
        (mem_append_right _ hc))
    obtain ⟨c, hc, rfl⟩ := List.mem_map.mp hv
    exact mul_nonneg (hok c hc).authoritative_nonneg (hok c hc).qty_pos.le
  have hcosts := two_mul_sum_costs_le hextended
  have hle := costBound_le h.ids (h.extended_sorted hscan) (h.extended_subset hscan)
  have hnewNonneg := mul_nonneg (hok _ (mem_append_right _ hc)).authoritative_nonneg
    (hok _ (mem_append_right _ hc)).qty_pos.le
  have holdNonneg := mul_nonneg (neg_nonneg.mpr hneg.le) (hnonneg t hmem hneg)
  have hdiff : p.delta = p.costing.authoritativeUnitCost * p.costing.qty -
      -t.qty * bookCost db.costSettlements t := by
    rw [hdelta, hbook, hqty]
    ring
  rw [hdiff]
  dsimp only at hcosts
  rcases abs_cases (p.costing.authoritativeUnitCost * p.costing.qty -
    -t.qty * bookCost db.costSettlements t) with ⟨habs, -⟩ | ⟨habs, -⟩ <;> rw [habs] <;> omega

theorem Checkpoint.inRange_of_costBound_le (h : Checkpoint cfg db F out) (hb : Bounded cfg db)
    (hpass : foldPass cfg (readClaim db.settlement) db = some pass)
    (hbound : costBound db.lines ≤ 2 * (2 ^ 63 - 1)) : pass.InRange db.aggregate := by
  have hamounts : ∀ p ∈ pass.pending, InI64 |p.delta| := by
    intro p hp
    have hle := h.two_mul_abs_delta_le hpass hp
    have hnonneg := abs_nonneg p.delta
    unfold InI64
    omega
  -- the books after the pass, were it written with no period closed
  have hwrite := (PassFold.write_isSome_iff [] (readClaim db.settlement) db
    fun hne => hb.accounts (h.lines_ne_nil hpass hne)).mpr
    ⟨hamounts, fun p _ => periodGuardAdmits_iff.mpr fun hfrozen => by
      obtain ⟨f, hf, -⟩ := hfrozen
      cases hf⟩
  obtain ⟨db1, hdb1⟩ := isSome_iff_exists.mp hwrite
  obtain ⟨as, rows, n, rfl, -, hrows, -⟩ := PassFold.write_eq_some hdb1
  obtain ⟨layers, hlayers⟩ := isSome_iff_exists.mp (h.layers_isSome hb hpass)
  have hcosts : CostsWritten db pass { db with
      layers
      settlement := pass.settlement (readClaim db.settlement) db.settlement
      costSettlements := db.costSettlements ++ rows } := ⟨rows, rfl, hrows⟩
  have hafter := h.extend hpass (h.passCosted hpass hcosts rfl hlayers rfl)
  have hmoved := h.depletedValue_pass hpass hcosts
  have hold := depletedValue_nonneg db.costSettlements fun t ht => h.bookCost_nonneg ht
  have hold' := h.two_mul_depletedValue_le
  have hnew :=
    depletedValue_nonneg (db.costSettlements ++ rows) fun t ht => hafter.bookCost_nonneg ht
  have hnew' := hafter.two_mul_depletedValue_le
  dsimp only at hmoved hnew hnew'
  rw [hmoved] at hnew hnew'
  refine ⟨hamounts, ?_, fun _ a ha => ?_⟩
  · unfold InI64
    omega
  · have hlow := hb.nonneg a ha
    have hhigh := hb.le a ha
    unfold InI64
    omega

end Pass

/-- **When a pass over an admitted stream completes.** In every run, a pass that can claim the pool
folds its lines and can write its layers. It completes if it escalates to a closed period, and
otherwise exactly if the adjustments, the net delta and the new aggregate value are in the `bigint`
range; which they are as long as what was received, what was depleted at the recorded costs and half
the depleted quantity add up to a `bigint`. -/
theorem Pool.run_pass_completes (cfg : PoolCfg) (ops : List PoolOp)
    (periods : List AccountingPeriod)
    (hqueued : (Pool.run cfg ops).db.queued = true)
    (hrunning : (Pool.run cfg ops).db.escalation = none) :
    ∃ pass, foldPass cfg (readClaim (Pool.run cfg ops).db.settlement) (Pool.run cfg ops).db =
        some pass ∧
      (pass.layers (Pool.run cfg ops).db.layers).isSome ∧
      ((recalcStep cfg periods (Pool.run cfg ops).db).isSome ↔
        (detectClosedPeriodDivergence periods pass.pending).isSome ∨
          pass.InRange (Pool.run cfg ops).db.aggregate) ∧
      (costBound (Pool.run cfg ops).db.lines ≤ 2 * (2 ^ 63 - 1) →
        (recalcStep cfg periods (Pool.run cfg ops).db).isSome) := by
  obtain ⟨F, out, hck, -, hb⟩ := Pool.run_inv (preserved_bounded cfg) ops
    (Machine.throughout_of_forall (fun _ _ => trivial) _ _)
  obtain ⟨pass, hpass⟩ := hck.exists_foldPass
  have hiff := hck.recalcStep_isSome_iff periods hb hqueued hrunning hpass
  exact ⟨pass, hpass, hck.layers_isSome hb hpass, hiff,
    fun hbound => hiff.mpr (.inr (hck.inRange_of_costBound_le hb hpass hbound))⟩

/-- Two units received for nothing and depleted at a standard of `2 ^ 62`, which empties the
pool. -/
def emptiedAtStandard : List PoolOp :=
  [.submit ⟨1, 1, .poReceiptLine, 2, 0, none, true⟩,
    .submit ⟨2, 2, .woBackflush, -2, 0, some (2 ^ 62), true⟩,
    .feed [.physical 1 1, .physical 2 2]]

/-- Twice a unit received for the largest `bigint` and depleted at a standard of nothing, and then
two units depleted that were needed before the other depletions. -/
def emptiedTwice : List PoolOp :=
  [.submit ⟨1, 1, .poReceiptLine, 1, 2 ^ 63 - 1, none, true⟩,
    .submit ⟨2, 8, .woBackflush, -1, 0, some 0, true⟩,
    .submit ⟨3, 2, .poReceiptLine, 1, 2 ^ 63 - 1, none, true⟩,
    .submit ⟨4, 9, .woBackflush, -1, 0, some 0, true⟩,
    .submit ⟨5, 5, .woBackflush, -2, 0, some 0, true⟩,
    .feed [.physical 1 1, .physical 2 8, .physical 3 2, .physical 4 9, .physical 5 5]]

/-- Every line is admitted, and the pass raises an error: the adjustments are `2 ^ 63` and
`2 ^ 64 - 2`. -/
theorem Pool.run_emptied :
    ((Pool.run (sampleCfg false) emptiedAtStandard).db.lines.length = 2 ∧
      (Pool.run (sampleCfg false) emptiedAtStandard).db.queued = true ∧
      recalcStep (sampleCfg false) [] (Pool.run (sampleCfg false) emptiedAtStandard).db = none) ∧
    (Pool.run (sampleCfg false) emptiedTwice).db.lines.length = 5 ∧
    (Pool.run (sampleCfg false) emptiedTwice).db.queued = true ∧
    recalcStep (sampleCfg false) [] (Pool.run (sampleCfg false) emptiedTwice).db = none := by
  decide +kernel

/-- A unit received for nothing and depleted at a standard near the end of the `bigint` range. -/
def depletedAtStandard : List PoolOp :=
  [.submit ⟨1, 1, .poReceiptLine, 1, 0, none, true⟩,
    .submit ⟨2, 2, .woBackflush, -1, 0, some (2 ^ 63 - 2), true⟩,
    .feed [.physical 1 1, .physical 2 2]]

/-- What moved is just within the bound, and the pass completes. -/
theorem Pool.run_pass_completes_depletedAtStandard :
    costBound (Pool.run (sampleCfg false) depletedAtStandard).db.lines = 2 * (2 ^ 63 - 1) - 1 ∧
    (recalcStep (sampleCfg false) []
      (Pool.run (sampleCfg false) depletedAtStandard).db).isSome := by
  have hbound : costBound (Pool.run (sampleCfg false) depletedAtStandard).db.lines =
      2 * (2 ^ 63 - 1) - 1 := by decide +kernel
  obtain ⟨pass, -, -, -, hcompletes⟩ :=
    Pool.run_pass_completes (sampleCfg false) depletedAtStandard []
    (by decide +kernel) (by decide +kernel)
  exact ⟨hbound, hcompletes (by rw [hbound]; decide)⟩

end Acct.V32
