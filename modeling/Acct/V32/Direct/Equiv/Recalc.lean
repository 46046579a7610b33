import Acct.V32.Core.Equiv.Strict
import Acct.V32.Direct.Recalc

/-!
# What the parts of an engine pass compute

One lemma per function of the pass: the scan (`mem_scanEvents`, `pairwise_scanEvents`), the layers
it resumes from (`hydrateLayers_eq`), the pending set (`pendingSet_eq_some`), the rows a generation
writes (`writeGeneration_eq_some`) and the queue decision (`firstMissed_eq_none`,
`tailCount_eq_zero`).
-/

namespace Acct.V32

open Table List Option

variable {t : TrxLine} {lines F scanned : List TrxLine} {cfg : PoolCfg}
  {periods : List AccountingPeriod} {db db' : PoolDb} {claim : Claim} {pass : PassFold}
  {from' frontier : Option Pos} {costings : List DepletionCosting} {ps pending : List Pending}
  {g : ℤ} {f : Pos} {rows : List CostSettlement}

/-! ### Lines in business order -/

@[simp] lemma TrxLine.toEvent_ok (t : TrxLine) : t.toEvent.Ok :=
  ⟨t.qty_ne_zero, t.qty_gt, t.qty_lt, t.unitCost_nonneg, t.unitCost_inI64⟩

lemma TrxLine.id_eq_of_pos_eq {u : TrxLine} (h : t.pos = u.pos) : t.id = u.id :=
  congrArg (fun p : Pos => (ofLex p).2) h

lemma nodup_pos (h : (lines.map (·.id)).Nodup) :
    (lines.map (·.pos)).Nodup := by
  apply List.Nodup.of_map (fun p : Pos => (ofLex p).2)
  rwa [List.map_map]

lemma sortLines_perm (lines : List TrxLine) : (sortLines lines).Perm lines :=
  sortBy_perm TrxLine.pos lines

lemma mem_scanEvents : t ∈ scanEvents lines from' ↔ t ∈ lines ∧ After from' t.pos := by
  simp [scanEvents, sortLines]

lemma pairwise_scanEvents (h : (lines.map (·.id)).Nodup) (from' : Option Pos) :
    (scanEvents lines from').Pairwise (·.pos < ·.pos) :=
  pairwise_sortBy ((nodup_pos h).sublist (filter_sublist.map _))

lemma pairwise_sortLines (h : (lines.map (·.id)).Nodup) :
    (sortLines lines).Pairwise (·.pos < ·.pos) :=
  pairwise_sortBy (nodup_pos h)

lemma nodup_ids_of_pairwise (h : (lines.map (·.id)).Nodup) (hF : F.Pairwise (·.pos < ·.pos))
    (hsub : ∀ t ∈ F, t ∈ lines) : (F.map (·.id)).Nodup := by
  have hF' := sublist_of_subset hF (pairwise_sortLines h) fun t ht => mem_sortBy.mpr (hsub t ht)
  have hperm := ((sortLines_perm lines).map (·.id)).nodup_iff.mpr h
  exact hperm.sublist (hF'.map _)

lemma le_getLast (hF : F.Pairwise (·.pos < ·.pos)) {l : TrxLine} (ht : t ∈ F)
    (hl : F.getLast? = some l) : t.pos ≤ l.pos := by
  obtain ⟨G, rfl⟩ := List.getLast?_eq_some_iff.mp hl
  rcases mem_append.mp ht with ht | ht
  · exact ((pairwise_append.mp hF).2.2 t ht l (mem_singleton.mpr rfl)).le
  · rw [mem_singleton.mp ht]

/-! ### Layers -/

/-- The row `materialize_layers` writes for an open layer. -/
def StrictLayer.toRow (l : StrictLayer) : LayerRow :=
  ⟨l.layerId, l.qty, l.unitCost, l.qty * l.unitCost⟩

lemma materializeLayers_eq_some {ls : List StrictLayer} {rows : List LayerRow}
    (h : materializeLayers ls = some rows) : rows = ls.map (·.toRow) := by
  induction ls generalizing rows with
  | nil => simpa [materializeLayers] using h.symm
  | cons l ls ih =>
    simp only [materializeLayers, bind_eq_bind, bind_eq_some_iff, Option.pure_def,
      some.injEq, toI64?_eq_some] at h
    obtain ⟨v, ⟨rfl, -⟩, rest, hrest, rfl⟩ := h
    rw [ih hrest]
    rfl

/-- The layers that a fold over a sorted selection of the lines left open are read back in the
order the fold left them in. -/
lemma hydrateLayers_eq {newestFirst : Bool} {out : StrictFoldOutput} (hn : (lines.map (·.id)).Nodup)
    (hF : F.Pairwise (·.pos < ·.pos)) (hsub : ∀ t ∈ F, t ∈ lines)
    (hfold : strictFold newestFirst [] (F.map (·.toEvent)) = some out) :
    hydrateLayers lines (out.layers.map (·.toRow)) = out.layers := by
  have hF' := sublist_of_subset hF (pairwise_sortLines hn) fun t ht => mem_sortBy.mpr (hsub t ht)
  have hperm := ((sortLines_perm lines).map (·.id)).nodup_iff.mpr hn
  have hids : (out.layers.map (·.layerId)).Sublist ((sortLines lines).map (·.id)) := by
    have h := (strictFold_layers_sublist hfold).map Prod.fst
    simp only [map_nil, nil_append, List.map_map] at h
    have h2 : ((F.map (·.toEvent)).filter (·.qty > 0)).map (·.trxLineId) |>.Sublist
        (F.map (·.id)) := by
      have := (filter_sublist (p := fun e : StrictEvent => decide (e.qty > 0))
        (l := F.map (·.toEvent))).map (·.trxLineId)
      rwa [List.map_map] at this
    exact (h.trans h2).trans (hF'.map _)
  have hjoin := filterMap_find?_eq (f := fun l : StrictLayer => l.layerId) hids hperm
  refine Eq.trans (filterMap_congr fun t _ => ?_) hjoin
  rw [List.find?_map]
  show ((out.layers.find? (·.layerId = t.id)).map (·.toRow)).map _ = _
  cases out.layers.find? (·.layerId = t.id) <;> rfl

/-! ### The pending set -/

def pendingOf (rows : List CostSettlement) (scanned : List TrxLine) (c : DepletionCosting) :
    Option Pending :=
  let prior := (currentCost rows c.depletionTrxLineId).getD c.observedUnitCost
  if (currentCost rows c.depletionTrxLineId).isNone ∨ c.authoritativeUnitCost ≠ prior then
    (scanned.find? (·.id = c.depletionTrxLineId)).map fun line =>
      ⟨c, line.lineType, line.postedAt, prior, (c.authoritativeUnitCost - prior) * c.qty⟩
  else none

lemma pendingSet_eq_some (h : pendingSet rows scanned costings = some ps) :
    ps = costings.filterMap (pendingOf rows scanned) ∧
      ∀ c ∈ costings, pendingOf rows scanned c = none →
        currentCost rows c.depletionTrxLineId = some c.authoritativeUnitCost := by
  induction costings generalizing ps with
  | nil => simpa [pendingSet] using h.symm
  | cons c costings ih =>
    rw [pendingSet] at h
    by_cases hnew : (currentCost rows c.depletionTrxLineId).isNone ∨ c.authoritativeUnitCost ≠
        (currentCost rows c.depletionTrxLineId).getD c.observedUnitCost
    · simp only [hnew, if_true, bind_eq_bind, bind_eq_some_iff, Option.pure_def,
        some.injEq] at h
      obtain ⟨line, hline, rest, hrest, rfl⟩ := h
      obtain ⟨h1, h2⟩ := ih hrest
      have hsome : pendingOf rows scanned c = some ⟨c, line.lineType, line.postedAt,
          (currentCost rows c.depletionTrxLineId).getD c.observedUnitCost,
          (c.authoritativeUnitCost -
            (currentCost rows c.depletionTrxLineId).getD c.observedUnitCost) * c.qty⟩ := by
        unfold pendingOf
        simp only [hnew, if_true, hline]
        rfl
      refine ⟨by rw [filterMap_cons, hsome, h1], ?_⟩
      rintro x (_ | ⟨_, hx⟩) hnone
      · rw [hsome] at hnone
        cases hnone
      · exact h2 x hx hnone
    · simp only [hnew, if_false] at h
      obtain ⟨h1, h2⟩ := ih h
      have hnone : pendingOf rows scanned c = none := if_neg hnew
      refine ⟨by rw [filterMap_cons, hnone, h1], ?_⟩
      rintro x (_ | ⟨_, hx⟩) hx'
      · rw [not_or, not_not] at hnew
        rcases ha : currentCost rows c.depletionTrxLineId with _ | a
        · simp [ha] at hnew
        · rw [ha] at hnew
          rw [hnew.2]
          rfl
      · exact h2 x hx hx'

lemma pendingOf_eq_some {c : DepletionCosting} {p : Pending}
    (h : pendingOf rows scanned c = some p) :
    p.costing = c ∧
      p.priorUnitCost = (currentCost rows c.depletionTrxLineId).getD c.observedUnitCost ∧
      p.delta = (c.authoritativeUnitCost - p.priorUnitCost) * c.qty ∧
      ∃ line ∈ scanned, line.id = c.depletionTrxLineId ∧ p.lineType = line.lineType ∧
        p.postedAt = line.postedAt := by
  unfold pendingOf at h
  simp only at h
  split_ifs at h
  rw [map_eq_some_iff] at h
  obtain ⟨line, hline, rfl⟩ := h
  exact ⟨rfl, rfl, rfl, line, List.mem_of_find?_eq_some hline,
    by simpa using List.find?_some hline, rfl, rfl⟩

lemma nodup_pending (h : (costings.map (·.depletionTrxLineId)).Nodup) :
    ((costings.filterMap (pendingOf rows scanned)).map (·.costing.depletionTrxLineId)).Nodup := by
  have hsub : ((costings.filterMap (pendingOf rows scanned)).map
      (·.costing.depletionTrxLineId)).Sublist (costings.map (·.depletionTrxLineId)) := by
    clear h
    induction costings with
    | nil => simp
    | cons c costings ih =>
      rw [filterMap_cons]
      rcases hp : pendingOf rows scanned c with _ | p
      · exact ih.cons _
      · rw [map_cons, map_cons, (pendingOf_eq_some hp).1]
        exact ih.cons_cons _
  exact h.sublist hsub

/-! ### The rows of a generation -/

/-- `r` is the settlement row generation `g` writes for `p`. -/
structure SettlesAs (g : ℤ) (r : CostSettlement) (p : Pending) : Prop where
  depletion : r.depletionTrxLineId = p.costing.depletionTrxLineId
  generation : r.generation = g
  authoritative : r.authoritativeUnitCost = p.costing.authoritativeUnitCost
  prior : r.priorUnitCost = p.priorUnitCost
  posting : r.adjustmentPostingLineId.isSome ↔ p.delta ≠ 0

/-- `a` is the adjustment written for `p`, on the account pair of its line type. -/
structure AdjustsAs (cfg : PoolCfg) (a : CostAdjustment) (p : Pending) : Prop where
  source : a.sourceTrxLineId = p.costing.depletionTrxLineId
  amount : a.amount = |p.delta|
  accounts : ∃ accounts ∈ cfg.accounts, (a.debitAccount, a.creditAccount) =
    adjustmentAccounts (accounts.pairFor p.lineType) p.delta

def CostSettlement.posted (r : CostSettlement) : Option (ℤ × ℤ) :=
  r.adjustmentPostingLineId.map fun n => (r.depletionTrxLineId, n)

def CostAdjustment.posted (a : CostAdjustment) : ℤ × ℤ := (a.sourceTrxLineId, a.postingLineId)

def consumptionRows (g : ℤ) (pending : List Pending) : List LayerConsumption :=
  pending.flatMap fun p => p.costing.draws.map fun d =>
    ⟨p.costing.depletionTrxLineId, d.layerTrxLineId, g, d.qty, d.unitCost⟩

lemma writeAdjusted_eq_some {accounts : PostingAccounts} {n : ℤ}
    {ws : List (CostAdjustment × CostSettlement)} (hacc : cfg.accounts = some accounts)
    (hps : ∀ p ∈ ps, p.delta ≠ 0) (h : writeAdjusted accounts g n ps = some ws) :
    List.Forall₂ (AdjustsAs cfg) (ws.map (·.1)) ps ∧
      List.Forall₂ (SettlesAs g) (ws.map (·.2)) ps ∧
      (ws.map (·.2)).filterMap (·.posted) = (ws.map (·.1)).map (·.posted) := by
  induction ps generalizing n ws with
  | nil =>
    simp only [writeAdjusted, some.injEq] at h
    subst h
    exact ⟨.nil, .nil, rfl⟩
  | cons p ps ih =>
    simp only [writeAdjusted, adjustmentOf, bind_eq_bind, bind_eq_some_iff,
      Option.pure_def, some.injEq, toI64?_eq_some] at h
    obtain ⟨a, ⟨amount, ⟨rfl, -⟩, rfl⟩, rest, hrest, rfl⟩ := h
    obtain ⟨h1, h2, h3⟩ := ih (fun x hx => hps x (mem_cons_of_mem _ hx)) hrest
    have hp := hps p mem_cons_self
    refine ⟨.cons ⟨rfl, rfl, accounts, hacc, rfl⟩ h1,
      .cons ⟨rfl, rfl, rfl, rfl, by simp [hp]⟩ h2, ?_⟩
    simp [CostSettlement.posted, CostAdjustment.posted] at h3 ⊢
    exact h3

/-- **What `write_generation` writes.** One settlement row for every pending depletion, one
adjustment for every non-zero delta, and the linkage of all of them. -/
theorem writeGeneration_eq_some (h : writeGeneration cfg periods g pending db = some db') :
    ∃ adjustments rows,
      db' = { db with
        consumptions := db.consumptions ++ consumptionRows g pending
        adjustments := db.adjustments ++ adjustments
        costSettlements := db.costSettlements ++ rows
        nextPostingLineId := db.nextPostingLineId + (pending.filter (·.delta ≠ 0)).length } ∧
      List.Forall₂ (AdjustsAs cfg) adjustments (pending.filter (·.delta ≠ 0)) ∧
      List.Forall₂ (SettlesAs g) rows
        (pending.filter (·.delta ≠ 0) ++ pending.filter (·.delta = 0)) ∧
      rows.filterMap (·.posted) = adjustments.map (·.posted) ∧
      ∀ p ∈ pending, PeriodGuardAdmits periods p.postedAt := by
  have hzero : ∀ ps : List Pending, (∀ p ∈ ps, p.delta = 0) →
      List.Forall₂ (SettlesAs g) (ps.map fun p => (⟨p.costing.depletionTrxLineId, g,
        p.costing.authoritativeUnitCost, p.priorUnitCost, none⟩ : CostSettlement)) ps := by
    intro ps hps
    rw [forall₂_map_left_iff, forall₂_same]
    exact fun p hp => ⟨rfl, rfl, rfl, rfl, by simp [hps p hp]⟩
  have hz := hzero (pending.filter (·.delta = 0)) fun p hp => by
    simpa using (mem_filter.mp hp).2
  have hnz : ∀ p ∈ pending.filter (·.delta ≠ 0), p.delta ≠ 0 :=
    fun p hp => by simpa using (mem_filter.mp hp).2
  unfold writeGeneration at h
  simp only [bind_eq_bind, bind_eq_some_iff] at h
  obtain ⟨ws, hws, h⟩ := h
  split_ifs at h with hguard
  simp only [Option.pure_def, some.injEq] at h
  have hwritten : List.Forall₂ (AdjustsAs cfg) (ws.map (·.1)) (pending.filter (·.delta ≠ 0)) ∧
      List.Forall₂ (SettlesAs g) (ws.map (·.2)) (pending.filter (·.delta ≠ 0)) ∧
      (ws.map (·.2)).filterMap (·.posted) = (ws.map (·.1)).map (·.posted) := by
    unfold writeAdjustments at hws
    split_ifs at hws with hempty
    · cases hws
      rw [List.isEmpty_iff.mp hempty]
      exact ⟨.nil, .nil, rfl⟩
    · rw [bind_eq_some_iff] at hws
      obtain ⟨accounts, hacc, hws⟩ := hws
      exact writeAdjusted_eq_some hacc hnz hws
  refine ⟨ws.map (·.1), ws.map (·.2) ++ _, ?_, hwritten.1, rel_append hwritten.2.1 hz, ?_, hguard⟩
  · rw [← h, append_assoc]
    rfl
  · rw [filterMap_append, hwritten.2.2, filterMap_map]
    simp [Function.comp_def, CostSettlement.posted]

/-! ### The queue decision -/

@[simp] lemma after_none (p : Pos) : After none p := by simp [After]

@[simp] lemma after_some {p : Pos} : After (some f) p ↔ f < p := by simp [After]

lemma firstMissed_eq_none {ids : List ℤ} :
    firstMissed lines from' f ids = none ↔
      ∀ t ∈ lines, After from' t.pos → t.pos ≤ f → t.id ∈ ids := by
  unfold firstMissed
  rw [List.head?_eq_none_iff, eq_nil_iff_forall_not_mem]
  constructor
  · intro h t ht hafter hle
    by_contra hid
    exact h t (Table.mem_sortBy.mpr (mem_filter.mpr ⟨ht, decide_eq_true ⟨hafter, hle, hid⟩⟩))
  · intro h t ht
    obtain ⟨ht, hp⟩ := mem_filter.mp (Table.mem_sortBy.mp ht)
    obtain ⟨hafter, hle, hid⟩ := of_decide_eq_true hp
    exact hid (h t ht hafter hle)

lemma tailCount_nonneg (lines : List TrxLine) (frontier : Option Pos) :
    0 ≤ tailCount lines frontier := Int.natCast_nonneg _

lemma tailCount_eq_zero : tailCount lines frontier = 0 ↔ ∀ t ∈ lines, ¬ After frontier t.pos := by
  unfold tailCount
  rw [Int.natCast_eq_zero, length_eq_zero_iff, filter_eq_nil_iff]
  simp only [decide_eq_true_eq]

lemma tailCount_pos (ht : t ∈ lines) (h : After frontier t.pos) : 0 < tailCount lines frontier := by
  refine lt_of_le_of_ne (tailCount_nonneg lines frontier) fun hzero => ?_
  exact tailCount_eq_zero.mp hzero.symm t ht h

/-! ### A whole pass on a quiet pool -/

lemma detectClosedPeriodDivergence_eq_none :
    detectClosedPeriodDivergence periods pending = none ↔
      ∀ p ∈ pending, ¬ Frozen periods p.postedAt := by
  unfold detectClosedPeriodDivergence
  dsimp only
  set affected := sortBy
    (fun p : Pending => (toLex (p.postedAt, p.costing.depletionTrxLineId) : Pos))
    (pending.filter fun p => Frozen periods p.postedAt) with haffected
  have hmem : ∀ p, p ∈ affected ↔ p ∈ pending ∧ Frozen periods p.postedAt := by
    intro p
    rw [haffected, mem_sortBy, mem_filter, decide_eq_true_eq]
  cases hfirst : (affected.find? (·.delta ≠ 0)).or affected.head? with
  | none =>
    have hnil := List.head?_eq_none_iff.mp (or_eq_none_iff.mp hfirst).2
    refine iff_of_true rfl fun p hp hfrozen => ?_
    have := (hmem p).mpr ⟨hp, hfrozen⟩
    rw [hnil] at this
    cases this
  | some p =>
    have hp : p ∈ affected := by
      rcases or_eq_some_iff.mp hfirst with hfind | ⟨-, hhead⟩
      · exact List.mem_of_find?_eq_some hfind
      · exact mem_of_mem_head? hhead
    obtain ⟨hpending, hfrozen⟩ := (hmem p).mp hp
    exact iff_of_false (some_ne_none _) fun h => h p hpending hfrozen

lemma foldPass_eq_some (h : foldPass cfg claim db = some pass) :
    pass.scanned = scanEvents db.lines claim.scanFrom ∧
      strictFold cfg.newestFirst (if claim.fullReplay then [] else hydrateLayers db.lines db.layers)
        (pass.scanned.map (·.toEvent)) = some pass.out ∧
      pendingSet db.costSettlements pass.scanned pass.out.costings = some pass.pending := by
  simp only [foldPass, bind_eq_bind, bind_eq_some_iff, Option.pure_def, some.injEq] at h
  obtain ⟨out, hout, ps, hps, rfl⟩ := h
  exact ⟨rfl, hout, hps⟩

lemma not_after_frontier (hn : (lines.map (·.id)).Nodup)
    (hscan : pass.scanned = scanEvents lines claim.scanFrom) :
    ∀ t ∈ lines, ¬ After (pass.frontier claim) t.pos := by
  intro t ht hafter
  by_cases hfrom : After claim.scanFrom t.pos
  -- A scanned line is at most the last scanned one.
  · have hmem : t ∈ pass.scanned := hscan ▸ mem_scanEvents.mpr ⟨ht, hfrom⟩
    obtain ⟨l, hl⟩ : ∃ l, pass.scanned.getLast? = some l := by
      exact ⟨_, List.getLast?_eq_some_getLast (ne_nil_of_mem hmem)⟩
    have hle := le_getLast (hscan ▸ pairwise_scanEvents hn _) hmem hl
    simp only [PassFold.frontier, hl, map_some, some_or, after_some] at hafter
    exact absurd hafter (not_lt.mpr hle)
  -- Any other line is below the claimed frontier, hence below what was scanned.
  · have hsome : claim.scanFrom = claim.settled := by
      unfold Claim.scanFrom at hfrom ⊢
      split_ifs at hfrom ⊢ with hfull
      · exact absurd (after_none _) hfrom
      · rfl
    rcases hp : claim.settled with _ | p
    · rw [hsome, hp] at hfrom
      exact hfrom (after_none _)
    · rw [hsome, hp, after_some, not_lt] at hfrom
      unfold PassFold.frontier at hafter
      rcases hl : pass.scanned.getLast? with _ | l
      · rw [hl, hp] at hafter
        exact absurd (after_some.mp hafter) (not_lt.mpr hfrom)
      · rw [hl] at hafter
        have hlast : l ∈ pass.scanned := mem_of_getLast? hl
        rw [hscan, mem_scanEvents, hsome, hp, after_some] at hlast
        exact absurd (after_some.mp hafter) (not_lt.mpr (hfrom.trans hlast.2.le))

/-- The settlement rows refer to the postings of the adjustments, one each. -/
def PostingsMatch (db : PoolDb) : Prop :=
  db.costSettlements.filterMap (·.posted) = db.adjustments.map (·.posted)

def CostsWritten (db : PoolDb) (pass : PassFold) (db' : PoolDb) : Prop :=
  ∃ rows, db'.costSettlements = db.costSettlements ++ rows ∧
    List.Forall₂ (SettlesAs (pass.generation (readClaim db.settlement))) rows
      (pass.pending.filter (·.delta ≠ 0) ++ pass.pending.filter (·.delta = 0))

structure PassWritten (cfg : PoolCfg) (periods : List AccountingPeriod) (db : PoolDb)
    (pass : PassFold) (db' : PoolDb) : Prop where
  lines : db'.lines = db.lines
  layers : pass.layers db.layers = some db'.layers
  aggregate : pass.aggregate db.aggregate = some db'.aggregate
  settlement : db'.settlement = pass.settlement (readClaim db.settlement) db.settlement
  not_queued : db'.queued = false
  escalation : db'.escalation = db.escalation
  consumptions : db'.consumptions = db.consumptions ++
    consumptionRows (pass.generation (readClaim db.settlement)) pass.pending
  adjustments : ∃ as, db'.adjustments = db.adjustments ++ as ∧
    List.Forall₂ (AdjustsAs cfg) as (pass.pending.filter (·.delta ≠ 0))
  costSettlements : CostsWritten db pass db'
  postings : PostingsMatch db → PostingsMatch db'
  guarded : ∀ p ∈ pass.pending, PeriodGuardAdmits periods p.postedAt

lemma PassFold.settlement_floor (pass : PassFold) (row : Option PoolSettlement)
    (h : (pass.frontier (readClaim row)).isSome) :
    (pass.settlement (readClaim row) row).bind (·.recostFloor) = none := by
  obtain ⟨f, hf⟩ := isSome_iff_exists.mp h
  unfold PassFold.settlement
  rw [hf]
  cases row <;> simp [settle, readClaim]

lemma PassFold.write_eq_some (h : pass.write cfg periods claim db = some db') :
    ∃ as rows n,
      db' = { db with
        consumptions := db.consumptions ++ consumptionRows (pass.generation claim) pass.pending
        adjustments := db.adjustments ++ as
        costSettlements := db.costSettlements ++ rows
        nextPostingLineId := n } ∧
      List.Forall₂ (AdjustsAs cfg) as (pass.pending.filter (·.delta ≠ 0)) ∧
      List.Forall₂ (SettlesAs (pass.generation claim)) rows
        (pass.pending.filter (·.delta ≠ 0) ++ pass.pending.filter (·.delta = 0)) ∧
      rows.filterMap (·.posted) = as.map (·.posted) ∧
      ∀ p ∈ pass.pending, PeriodGuardAdmits periods p.postedAt := by
  unfold PassFold.write at h
  split_ifs at h with hempty
  · cases h
    rw [List.isEmpty_iff.mp hempty]
    exact ⟨[], [], db.nextPostingLineId, by simp [consumptionRows], .nil, .nil, rfl,
      by simp⟩
  · obtain ⟨as, rows, hdb, h1, h2, h3, h4⟩ := writeGeneration_eq_some h
    exact ⟨as, rows, _, hdb, h1, h2, h3, h4⟩

/-- **What one engine pass can do**, when no other transaction runs: record an escalation, or write
everything and leave the pool clean. -/
theorem recalcStep_cases (hn : (db.lines.map (·.id)).Nodup)
    (h : recalcStep cfg periods db = some db') :
    db.queued = true ∧ db.escalation = none ∧
      ∃ pass, foldPass cfg (readClaim db.settlement) db = some pass ∧
        ((∃ e, detectClosedPeriodDivergence periods pass.pending = some e ∧
            db' = recordEscalation db e) ∨
          (detectClosedPeriodDivergence periods pass.pending = none ∧
            PassWritten cfg periods db pass db')) := by
  unfold recalcStep at h
  split_ifs at h with hclaim
  refine ⟨hclaim.1, hclaim.2, ?_⟩
  simp only [runClaimedPass, bind_eq_bind, bind_eq_some_iff] at h
  obtain ⟨pass, hpass, h⟩ := h
  refine ⟨pass, hpass, ?_⟩
  rcases hdet : detectClosedPeriodDivergence periods pass.pending with _ | e
  · rw [hdet] at h
    refine .inr ⟨rfl, ?_⟩
    simp only [writePass, bind_eq_bind, bind_eq_some_iff, Option.pure_def, some.injEq] at h
    obtain ⟨db1, hwrite, layers, hlayers, agg, hagg, rfl⟩ := h
    obtain ⟨as, rows, n, rfl, has, hrows, hposted, hguard⟩ := PassFold.write_eq_some hwrite
    have hscan := (foldPass_eq_some hpass).1
    -- The pass scanned every line above its start, so it misses none and leaves no tail.
    have hmissed : ((pass.frontier (readClaim db.settlement)).bind fun f =>
        firstMissed db.lines (readClaim db.settlement).scanFrom f
          (pass.scanned.map (·.id))) = none := by
      rcases pass.frontier (readClaim db.settlement) with _ | f
      · rfl
      · refine firstMissed_eq_none.mpr fun t ht hafter _ => List.mem_map_of_mem ?_
        rw [hscan]
        exact mem_scanEvents.mpr ⟨ht, hafter⟩
    have htail : tailCount db.lines (pass.frontier (readClaim db.settlement)) = 0 :=
      tailCount_eq_zero.mpr (not_after_frontier hn hscan)
    have hfloor : ((pass.frontier (readClaim db.settlement)).isSome &&
        ((pass.settlement (readClaim db.settlement) db.settlement).bind
          (·.recostFloor)).isSome) = false := by
      by_cases hf : (pass.frontier (readClaim db.settlement)).isSome
      · rw [PassFold.settlement_floor pass db.settlement hf]
        simp
      · simp [hf]
    constructor
    case settlement =>
      simp only [decideQueue, hmissed]
    case not_queued =>
      simp only [decideQueue, hmissed, htail, hfloor]
      rfl
    case adjustments => exact ⟨as, rfl, has⟩
    case costSettlements => exact ⟨rows, rfl, hrows⟩
    case postings =>
      intro hmatch
      show (db.costSettlements ++ rows).filterMap _ = (db.adjustments ++ as).map _
      rw [filterMap_append, map_append, hmatch, hposted]
    case guarded => exact hguard
    all_goals first | rfl | assumption
  · rw [hdet] at h
    exact .inl ⟨e, rfl, (some.inj h).symm⟩

end Acct.V32
