import Acct.V32.Core.Equiv.Plan
import Acct.V32.Spi.BulkWrite

/-!
# Bulk write against one write at a time

Every line with a quantity upserts the aggregate of its pool, so the upsert statement of
`apply_pool_state_mutations` proposes a key twice, and is rejected, as soon as two such lines name
one pool. If no two do, all mutations have distinct keys and the regrouping into three statements
does not matter (`Table.KeyedTable.exists_batches`).
-/

namespace Acct.V32

open Table List Option

variable {ids pools drawn : List ℤ} {s : Snapshot} {idx : ℕ} {line : TrxLineRequest}
  {lines : List TrxLineRequest} {outs : List TrxLineOutput} {ms m : List PoolStateMutation}
  {ps : List PostingLineRequest} {ws : List (Write (ℤ × PoolStateRow) (ℤ × ℤ))}
  {out : TrxLineOutput} {db : Tables}

/-- What the writers of these tables maintain: layers are named after `trx_line` rows and carry
their cost, which like a standard cost is not negative. -/
structure Tables.WellFormed (db : Tables) : Prop where
  ids_pos : ∀ id ∈ db.trxLineIds, 0 < id
  layer_ids : ∀ r ∈ db.poolState.rows, r.2.layerId = 0 ∨ r.2.layerId ∈ db.trxLineIds
  layer_costs : ∀ r ∈ db.poolState.rows, 0 < r.2.layerId → 0 ≤ r.2.unitCost
  standard_costs : ∀ k c, db.standardCost k = some c → 0 ≤ c

/-- `n` identity values of `trx_line`, in the order they are drawn. -/
structure Tables.Draws (db : Tables) (drawn : List ℤ) (n : ℕ) : Prop where
  length : drawn.length = n
  increasing : drawn.Pairwise (· < ·)
  pos : ∀ id ∈ drawn, 0 < id
  fresh : ∀ id ∈ drawn, id ∉ db.trxLineIds

/-- The pools of the lines that have a quantity. -/
def movedPools (lines : List TrxLineRequest) : List ℤ :=
  (lines.filter (·.qty ≠ 0)).map (·.poolId)

/-- `pool_state` as after the mutations one by one. -/
def BulkFaithful (db : Tables) (postedAt : ℤ) (plan : PlanResult) (drawn : List ℤ) : Prop :=
  ∃ written t, db.applyPlanResult postedAt plan drawn = some written ∧
    applyOneByOne db.poolState plan.poolStateMutations written.ids = some t ∧
    written.poolState.SameRows t

/-! ### The writes of a plan -/

/-- The writes for lines on the given pools, in order: each upserts the aggregate, and any other
touches a layer of one of the pools. -/
structure WritesFor (ids pools : List ℤ) (ws : List (Write (ℤ × PoolStateRow) (ℤ × ℤ))) : Prop where
  upserts : (ws.filterMap Write.upsertRow?).map (fun r => (r.1, r.2.layerId)) = pools.map (·, 0)
  targets : ∀ w ∈ ws, (w.target fun r => (r.1, r.2.layerId)).1 ∈ pools
  nodup : pools.Nodup → (ws.map (Write.target fun r => (r.1, r.2.layerId))).Nodup
  inserts : ∀ r, .insert r ∈ ws → r.2.layerId ∈ ids

lemma WritesFor.append {pools' : List ℤ} {ws' : List (Write (ℤ × PoolStateRow) (ℤ × ℤ))}
    (h : WritesFor ids pools ws) (h' : WritesFor ids pools' ws') :
    WritesFor ids (pools ++ pools') (ws ++ ws') := by
  constructor
  · rw [filterMap_append, map_append, map_append, h.upserts, h'.upserts]
  · intro w hw
    rcases mem_append.mp hw with hw | hw
    · exact mem_append_left _ (h.targets w hw)
    · exact mem_append_right _ (h'.targets w hw)
  · intro hnodup
    rw [nodup_append] at hnodup
    rw [map_append, nodup_append]
    refine ⟨h.nodup hnodup.1, h'.nodup hnodup.2.1, ?_⟩
    -- the pools differ, so the keys do
    rintro k hk k' hk' rfl
    obtain ⟨w, hw, rfl⟩ := List.mem_map.mp hk
    obtain ⟨w', hw', heq⟩ := List.mem_map.mp hk'
    exact hnodup.2.2 _ (h.targets w hw) _ (h'.targets w' hw') (congrArg Prod.fst heq.symm)
  · intro r hr
    rcases mem_append.mp hr with hr | hr
    · exact h.inserts r hr
    · exact h'.inserts r hr

lemma LinePlan.writesFor (h : LinePlan s idx line out m) {id : ℤ} (hid : ids[idx]? = some id)
    (hpos : 0 < id) : ∃ ws, m.mapM (·.write? ids) = some ws ∧ WritesFor ids [line.poolId] ws := by
  cases h with
  | wac _ | std _ _ =>
    refine ⟨_, rfl, ⟨rfl, ?_, ?_, ?_⟩⟩ <;> simp [Write.target]
  | @specificReceipt qty valueSum layerValueSum =>
    refine ⟨[.insert (line.poolId, ⟨id, line.qty, line.unitCost, layerValueSum⟩),
      .upsert (line.poolId, ⟨0, qty, line.unitCost, valueSum⟩)], ?_, ⟨rfl, ?_, ?_, ?_⟩⟩
    · simp [PoolStateMutation.write?, hid]
    · simp [Write.target]
    · simp [Write.target, hpos.ne']
    · simp [mem_of_getElem? hid]
  | specificDepletion _ _ _ hlayer_pos =>
    refine ⟨_, rfl, ⟨rfl, ?_, ?_, ?_⟩⟩
    · simp [Write.target]
    · simp [Write.target, hlayer_pos.ne']
    · simp

lemma movedPools_cons_zero (h : line.qty = 0) (lines : List TrxLineRequest) :
    movedPools (line :: lines) = movedPools lines := by
  simp [movedPools, h]

lemma movedPools_cons (h : line.qty ≠ 0) (lines : List TrxLineRequest) :
    movedPools (line :: lines) = line.poolId :: movedPools lines := by
  simp [movedPools, h]

lemma Planned.writesFor (h : Planned s idx lines outs ms ps) (hlen : idx + outs.length ≤ ids.length)
    (hpos : ∀ id ∈ ids, 0 < id) :
    ∃ ws, ms.mapM (·.write? ids) = some ws ∧ WritesFor ids (movedPools lines) ws := by
  induction h with
  | nil => exact ⟨[], rfl, ⟨rfl, by simp, by simp, by simp⟩⟩
  | zero hqty _ ih =>
    rw [movedPools_cons_zero hqty]
    exact ih hlen
  | @push idx line out m p lines outs ms ps hqty hline _ _ ih =>
    rw [length_cons] at hlen
    obtain ⟨id, hid⟩ : ∃ id, ids[idx]? = some id :=
      ⟨_, List.getElem?_eq_getElem (by omega)⟩
    obtain ⟨ws, hws, hfor⟩ := hline.writesFor hid (hpos id (mem_of_getElem? hid))
    obtain ⟨ws', hws', hfor'⟩ := ih (by omega)
    refine ⟨ws ++ ws', ?_, ?_⟩
    · rw [mapM_append, hws, hws']
      rfl
    · rw [movedPools_cons hqty]
      exact hfor.append hfor'

lemma Planned.postings (h : Planned s idx lines outs ms ps)
    (hlen : idx + outs.length ≤ ids.length) :
    ∃ rows, Tables.insertPostingLines ps ids = some rows := by
  have hmem : ∀ p ∈ ps, p.trxLineIdx < idx + outs.length := by
    clear hlen
    induction h with
    | nil => simp
    | zero _ _ ih => exact ih
    | @push idx line out m p lines outs ms ps _ _ hp _ ih =>
      intro r hr
      rw [length_cons]
      rcases mem_append.mp hr with hr | hr
      · rw [hp r hr]
        omega
      · have := ih r hr
        omega
  clear h
  induction ps with
  | nil => exact ⟨[], rfl⟩
  | cons p ps ih =>
    obtain ⟨rows, hrows⟩ := ih fun r hr => hmem r (mem_cons_of_mem _ hr)
    have hlt := hmem p mem_cons_self
    refine ⟨(ids.get ⟨p.trxLineIdx, by omega⟩, p) :: rows, ?_⟩
    unfold Tables.insertPostingLines at hrows ⊢
    rw [mapM_cons, hrows, List.getElem?_eq_getElem (by omega)]
    rfl

/-! ### The checks of `trx_line` -/

section Hydrated

variable {poolIds : List ℤ} {p : ℤ}

/-- The touched pools are STD or specific. -/
def Tables.CorePools (db : Tables) (poolIds : List ℤ) : Prop :=
  ∀ p ∈ poolIds, ∀ row, db.pool p = some row → row.method = .std ∨ row.method = .specific

lemma methodOf_hydrateSnapshot {method : PoolMethod}
    (h : (db.hydrateSnapshot poolIds).methodOf p = some method) :
    p ∈ poolIds ∧ ∃ row, db.pool p = some row ∧ row.method = method := by
  obtain ⟨row, hrow, hmethod⟩ := map_eq_some_iff.mp h
  unfold Tables.touched at hrow
  split_ifs at hrow with hmem
  exact ⟨hmem, row, hrow, hmethod⟩

lemma standardCostOf_hydrateSnapshot {c : ℤ}
    (h : (db.hydrateSnapshot poolIds).standardCostOf p = some c) :
    ∃ k, db.standardCost k = some c := by
  obtain ⟨row, -, hcost⟩ := bind_eq_some_iff.mp h
  split_ifs at hcost
  exact ⟨_, hcost⟩

lemma mem_pools_hydrateSnapshot {r : PoolStateRow} (h : r ∈ (db.hydrateSnapshot poolIds).pools p) :
    (p, r) ∈ db.poolState.rows := by
  have hselect : ∀ (q : ℤ × PoolStateRow → Prop) [DecidablePred q],
      r ∈ (db.poolState.rows.filter fun r => r.1 = p ∧ q r).map (·.2) →
      (p, r) ∈ db.poolState.rows := by
    intro q _ hr
    obtain ⟨⟨p', r'⟩, hr', rfl⟩ := List.mem_map.mp hr
    obtain ⟨hmem, hp⟩ := mem_filter.mp hr'
    rw [decide_eq_true_eq] at hp
    exact hp.1 ▸ hmem
  simp only [Tables.hydrateSnapshot] at h
  split_ifs at h
  · rcases mem_append.mp h with h | h
    · exact hselect _ h
    · exact hselect _ (mem_sortBy.mp h)
  · rw [append_nil] at h
    exact hselect _ h
  · cases h

/-- The line is not a receipt of a specific pool at a negative cost. -/
def Tables.CostAccepted (db : Tables) (line : TrxLineRequest) : Prop :=
  (db.pool line.poolId).map (·.method) = some .specific → 0 < line.qty → 0 ≤ line.unitCost

/-- The table takes the row of a planned line, unless it is a specific receipt at a negative
cost. -/
lemma LinePlan.accepted_iff (hdb : db.WellFormed) (hcore : db.CorePools poolIds)
    (h : LinePlan (db.hydrateSnapshot poolIds) idx line out m) (hqty : line.qty ≠ 0) :
    out.Accepted db.trxLineIds ↔ db.CostAccepted line := by
  cases h with
  | wac hmethod =>
    obtain ⟨hmem, row, hrow, hwac⟩ := methodOf_hydrateSnapshot hmethod
    rcases hcore _ hmem row hrow with hstd | hspecific
    · rw [hwac] at hstd
      cases hstd
    · rw [hwac] at hspecific
      cases hspecific
  | std hmethod hcost =>
    obtain ⟨-, row, hrow, hstd⟩ := methodOf_hydrateSnapshot hmethod
    obtain ⟨k, hk⟩ := standardCostOf_hydrateSnapshot hcost
    refine iff_of_true ⟨hqty, hdb.standard_costs k _ hk, by simp [TrxLineRequest.output]⟩ ?_
    intro hspecific
    simp [hrow, hstd] at hspecific
  | specificReceipt hmethod hpos =>
    obtain ⟨-, row, hrow, hspecific⟩ := methodOf_hydrateSnapshot hmethod
    constructor
    · intro hout _ _
      exact hout.2.1
    · intro hcost
      exact ⟨hqty, hcost (by simp [hrow, hspecific]) hpos, by simp [TrxLineRequest.output]⟩
  | specificDepletion hmethod hneg hlayer hpos =>
    have hmem := mem_pools_hydrateSnapshot hlayer
    refine iff_of_true ⟨hqty, hdb.layer_costs _ hmem hpos, fun id hid => ?_⟩ ?_
    · cases hid
      exact (hdb.layer_ids _ hmem).resolve_left hpos.ne'
    · intro _ hpos'
      omega

lemma Planned.accepted_iff (hdb : db.WellFormed) (hcore : db.CorePools poolIds)
    (h : Planned (db.hydrateSnapshot poolIds) idx lines outs ms ps) (admits : Prop) :
    (∀ o ∈ outs, o.Accepted db.trxLineIds ∧ admits) ↔
      ∀ line ∈ lines, line.qty ≠ 0 → db.CostAccepted line ∧ admits := by
  induction h with
  | nil => simp
  | zero hqty _ ih => simp [ih, hqty]
  | push hqty hline _ _ ih => simp [ih, hqty, hline.accepted_iff hdb hcore hqty]

end Hydrated

/-! ### Bulk write -/

lemma sortBy_eq_self {l : List ℤ} (h : l.Pairwise (· < ·)) : sortBy id l = l :=
  List.Pairwise.insertionSort_eq (h.imp fun hlt => hlt.le)

lemma WritesFor.inserts_free (hdb : db.WellFormed) {n : ℕ} (hdrawn : db.Draws drawn n)
    (hfor : WritesFor drawn pools ws) {r : ℤ × PoolStateRow} (hr : .insert r ∈ ws) :
    db.poolState.get? (r.1, r.2.layerId) = none := by
  have hmem := hfor.inserts r hr
  rw [KeyedTable.get?_eq_none_iff]
  intro hkey
  obtain ⟨r', hr', heq⟩ := List.mem_map.mp hkey
  have hlayer : r'.2.layerId = r.2.layerId := congrArg Prod.snd heq
  rcases hdb.layer_ids r' hr' with hzero | hold
  · have := hdrawn.pos _ hmem
    omega
  · exact hdrawn.fresh _ hmem (hlayer ▸ hold)

/-- What a successful bulk write has passed, the checks of the lines and a single upsert of each
aggregate, and where the rows it leaves come from. -/
lemma applyPlanResult_eq_some {postedAt : ℤ} {plan : PlanResult} {written : Written}
    (h : db.applyPlanResult postedAt plan drawn = some written) (hsorted : drawn.Pairwise (· < ·)) :
    ∃ ws, written.ids = drawn ∧ plan.poolStateMutations.mapM (·.write? drawn) = some ws ∧
      (∀ o ∈ plan.trxLines, o.Accepted db.trxLineIds ∧ PeriodGuardAdmits db.periods.rows postedAt) ∧
      ((ws.filterMap Write.upsertRow?).map fun r => (r.1, r.2.layerId)).Nodup ∧
      ∀ r ∈ written.poolState.rows, r ∈ db.poolState.rows ∨ .upsert r ∈ ws ∨ .insert r ∈ ws := by
  obtain ⟨ids, hids, h⟩ := bind_eq_some_iff.mp h
  unfold Tables.insertTrxLines at hids
  split_ifs at hids with haccepted
  rw [sortBy_eq_self hsorted] at hids
  obtain rfl := some.inj hids
  obtain ⟨poolState, hstate, h⟩ := bind_eq_some_iff.mp h
  obtain ⟨postings, -, h⟩ := bind_eq_some_iff.mp h
  obtain rfl := some.inj h
  obtain ⟨ws, hws, hstate⟩ := bind_eq_some_iff.mp hstate
  obtain ⟨t1, ht1, hstate⟩ := bind_eq_some_iff.mp hstate
  obtain ⟨t2, ht2, hstate⟩ := bind_eq_some_iff.mp hstate
  obtain rfl := some.inj hstate
  refine ⟨ws, rfl, hws, haccepted, ?_, fun r hr => ?_⟩
  · unfold KeyedTable.upsertBatch? at ht1
    split_ifs at ht1 with hnodup
    exact hnodup
  · have hmem := KeyedTable.mem_of_applyAll? (KeyedTable.applyAll?_batches ht1 ht2) hr
    rw [← (KeyedTable.batches_perm ws).mem_iff, ← (KeyedTable.batches_perm ws).mem_iff] at hmem
    exact hmem

/-- **Bulk write of a plan.** For a plan of STD and specific lines, `apply_plan_result` succeeds and
leaves `pool_state` as the mutations one by one do iff no two lines with a quantity name the same
pool, no line receives into a specific pool at a negative cost, and the period guard admits the
posting time. -/
theorem applyPlanResult_faithful_iff {db : Tables} (hdb : db.WellFormed) {poolIds : List ℤ}
    (hcore : db.CorePools poolIds) {lines : List TrxLineRequest} {postedAt : ℤ} {plan : PlanResult}
    (hplan : planApply (db.hydrateSnapshot poolIds) lines postedAt = .ok plan) {drawn : List ℤ}
    (hdrawn : db.Draws drawn plan.trxLines.length) :
    BulkFaithful db postedAt plan drawn ↔
      (movedPools lines).Nodup ∧ ∀ line ∈ lines, line.qty ≠ 0 →
        db.CostAccepted line ∧ PeriodGuardAdmits db.periods.rows postedAt := by
  have hplanned := planApply_planned hplan
  have hlen : 0 + plan.trxLines.length ≤ drawn.length := by rw [hdrawn.length]; omega
  obtain ⟨ws, hws, hfor⟩ := hplanned.writesFor hlen hdrawn.pos
  rw [← hplanned.accepted_iff hdb hcore]
  constructor
  · rintro ⟨written, t, hwritten, -, -⟩
    obtain ⟨ws', -, hws', haccepted, hnodup, -⟩ :=
      applyPlanResult_eq_some hwritten hdrawn.increasing
    obtain rfl := some.inj (hws.symm.trans hws')
    rw [hfor.upserts] at hnodup
    exact ⟨hnodup.of_map _, haccepted⟩
  · rintro ⟨hpools, haccepted⟩
    have hkeys := hfor.nodup hpools
    obtain ⟨t, ht⟩ := (KeyedTable.exists_applyAll?_iff hkeys).mpr fun r hr =>
      hfor.inserts_free hdb hdrawn hr
    obtain ⟨t1, t2, ht1, ht2, hsame⟩ := KeyedTable.exists_batches hkeys ht
    obtain ⟨postings, hpostings⟩ := hplanned.postings hlen
    have hinsert : db.insertTrxLines postedAt plan.trxLines drawn = some drawn := by
      rw [Tables.insertTrxLines, if_pos haccepted, sortBy_eq_self hdrawn.increasing]
    have hstate : applyPoolStateMutations db.poolState plan.poolStateMutations drawn =
        some (t2.deleteBatch (ws.filterMap Write.deleteKey?)) := by
      simp only [applyPoolStateMutations, hws, ht1, ht2, bind_eq_bind, bind_some]
      rfl
    refine ⟨⟨drawn, t2.deleteBatch (ws.filterMap Write.deleteKey?), postings⟩, t, ?_, ?_, hsame⟩
    · simp only [Tables.applyPlanResult, hinsert, hstate, hpostings, bind_eq_bind, bind_some]
      rfl
    · rw [applyOneByOne, hws]
      exact ht

/-! ### Two submissions -/

/-- Pool 1 is STD at a standard cost of 10; pools 2 and 3 are specific, and pool 2 holds a unit. -/
def storeRoom : Tables where
  pool p :=
    if p = 1 then some ⟨.std, 1, 1⟩
    else if p = 2 ∨ p = 3 then some ⟨.specific, 1, 1⟩
    else none
  poolState := ⟨[(2, ⟨0, 1, 30, 30⟩), (2, ⟨4, 1, 30, 30⟩)], by decide⟩
  standardCost k := if k = (1, 1) then some 10 else none
  postingAccountMap _ := some ⟨(1, 2), (1, 2), (1, 2), (1, 2), (1, 2), (1, 2), some 3⟩
  periods := .empty
  trxLineIds := [4]

lemma storeRoom_wellFormed : storeRoom.WellFormed where
  ids_pos := by decide
  layer_ids := by decide
  layer_costs := by decide
  standard_costs k c h := by
    simp only [storeRoom] at h
    split_ifs at h
    obtain rfl := some.inj h
    decide

lemma storeRoom_corePools : storeRoom.CorePools [1, 2, 3] := by
  intro p _ row h
  simp only [storeRoom] at h
  split_ifs at h
  · obtain rfl := some.inj h
    exact .inl rfl
  · obtain rfl := some.inj h
    exact .inr rfl

/-- A receipt above standard, the unit of pool 2 taken out and one put into pool 3. -/
def mixedLines : List TrxLineRequest :=
  [⟨1, .poReceiptLine, none, 5, 12⟩, ⟨2, .transferShipmentLine, none, -1, 0⟩,
    ⟨3, .transferReceiptLine, none, 1, 30⟩]

def mixedPlan : PlanResult where
  trxLines := [⟨1, 5, 10, none, .poReceiptLine, none⟩,
    ⟨2, -1, 30, some 4, .transferShipmentLine, none⟩,
    ⟨3, 1, 30, none, .transferReceiptLine, none⟩]
  poolStateMutations := [.upsertAggregate 1 5 10 50, .deleteLayer 2 4, .upsertAggregate 2 0 30 0,
    .insertLayer 3 2 1 30 30, .upsertAggregate 3 1 30 30]
  postingLines := [⟨0, .inventoryReceipt, 50, 1, 2, 9⟩, ⟨0, .variance, 10, 3, 2, 9⟩,
    ⟨1, .inventoryDepletion, 30, 2, 1, 9⟩, ⟨2, .inventoryReceipt, 30, 1, 2, 9⟩]

theorem mixedPlan_faithful :
    planApply (storeRoom.hydrateSnapshot [1, 2, 3]) mixedLines 9 = .ok mixedPlan ∧
    BulkFaithful storeRoom 9 mixedPlan [5, 6, 8] := by
  have hplan : planApply (storeRoom.hydrateSnapshot [1, 2, 3]) mixedLines 9 = .ok mixedPlan := by
    decide
  refine ⟨hplan, (applyPlanResult_faithful_iff storeRoom_wellFormed storeRoom_corePools hplan
    ⟨rfl, by decide, by decide, by decide⟩).mpr ⟨by decide, ?_⟩⟩
  simp [mixedLines, Tables.CostAccepted, storeRoom]
  decide

/-- Two receipts of one STD pool. -/
def twoReceipts : List TrxLineRequest :=
  [⟨1, .poReceiptLine, none, 5, 10⟩, ⟨1, .poReceiptLine, none, 3, 10⟩]

def twoReceiptsPlan : PlanResult where
  trxLines := [⟨1, 5, 10, none, .poReceiptLine, none⟩, ⟨1, 3, 10, none, .poReceiptLine, none⟩]
  poolStateMutations := [.upsertAggregate 1 5 10 50, .upsertAggregate 1 8 10 80]
  postingLines := [⟨0, .inventoryReceipt, 50, 1, 2, 9⟩, ⟨1, .inventoryReceipt, 30, 1, 2, 9⟩]

/-- Two lines on one pool: the plan is accepted, one by one its mutations leave 8 on hand, and the
bulk write is rejected. -/
theorem twoReceiptsPlan_rejected :
    planApply (storeRoom.hydrateSnapshot [1]) twoReceipts 9 = .ok twoReceiptsPlan ∧
    storeRoom.Draws [5, 6] twoReceiptsPlan.trxLines.length ∧
    (∃ t, applyOneByOne storeRoom.poolState twoReceiptsPlan.poolStateMutations [5, 6] = some t ∧
      t.get? (1, 0) = some (1, ⟨0, 8, 10, 80⟩)) ∧
    storeRoom.applyPlanResult 9 twoReceiptsPlan [5, 6] = none := by
  refine ⟨by decide, ⟨rfl, by decide, by decide, by decide⟩, ⟨_, rfl, by decide⟩, rfl⟩

end Acct.V32
