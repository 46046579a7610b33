import Acct.V32.Equiv.Replay

/-!
# Settlement chains and adjustments

The settlements of a depletion form a chain: the first starts from the observed cost, each later one
from the cost before it. A settlement has an adjustment posting iff it moves the cost
(`SettlementChain`). A pass adds at most one link to a chain (`SettlementChain.pass`), and one over
lines that are all covered finds nothing pending (`Checkpoint.pending_eq_nil`).
-/

namespace Acct.V32

open Table List Machine

variable {cfg : PoolCfg} {rows : List CostSettlement} {periods : List AccountingPeriod}
  {db db' : PoolDb} {out : StrictFoldOutput} {s : Pool}

/-- Each prior cost is the authoritative cost of the row before, the first one is `prior`. -/
def ChainFrom : ℤ → List CostSettlement → Prop
  | _, [] => True
  | prior, r :: rows => r.priorUnitCost = prior ∧ ChainFrom r.authoritativeUnitCost rows

lemma chainFrom_append_singleton {prior : ℤ} {r : CostSettlement} :
    ChainFrom prior (rows ++ [r]) ↔ ChainFrom prior rows ∧
      r.priorUnitCost = (rows.getLast?.map (·.authoritativeUnitCost)).getD prior := by
  induction rows generalizing prior with
  | nil => simp [ChainFrom]
  | cons x rows ih =>
    rw [cons_append, ChainFrom, ih, ChainFrom, and_assoc]
    cases rows with
    | nil => rfl
    | cons y rows =>
      rw [List.getLast?_cons_cons, List.getLast?_eq_some_getLast (cons_ne_nil y rows)]
      rfl

def settlementsOf (db : PoolDb) (d : ℤ) : List CostSettlement :=
  db.costSettlements.filter (·.depletionTrxLineId = d)

def adjustmentsOf (db : PoolDb) (d : ℤ) : List CostAdjustment :=
  db.adjustments.filter (·.sourceTrxLineId = d)

/-- The signed amount of an adjustment on the account pair of a line type: debit contra, credit
inventory counts positive, the reverse negative. -/
def CountsAs (cfg : PoolCfg) (lineType : LineType) (a : CostAdjustment) (x : ℤ) : Prop :=
  ∃ accounts ∈ cfg.accounts,
    let inventory := (accounts.pairFor lineType).1
    let contra := (accounts.pairFor lineType).2
    (a.debitAccount = contra ∧ a.creditAccount = inventory ∧ x = a.amount) ∨
      (a.debitAccount = inventory ∧ a.creditAccount = contra ∧ x = -a.amount)

/-- The settlements and postings of the depletion `t`. -/
structure SettlementChain (cfg : PoolCfg) (db : PoolDb) (t : TrxLine) : Prop where
  ordered : (settlementsOf db t.id).Pairwise (·.generation < ·.generation)
  chain : ChainFrom t.unitCost (settlementsOf db t.id)
  posting : ∀ r ∈ settlementsOf db t.id,
    r.adjustmentPostingLineId.isSome ↔ r.authoritativeUnitCost ≠ r.priorUnitCost
  adjusted : ∃ xs, List.Forall₂ (CountsAs cfg t.lineType) (adjustmentsOf db t.id) xs ∧
    xs.sum = ((currentCost db.costSettlements t.id).getD t.unitCost - t.unitCost) * -t.qty

/-! ### One more link -/

lemma AdjustsAs.countsAs {a : CostAdjustment} {p : Pending} (h : AdjustsAs cfg a p) :
    CountsAs cfg p.lineType a p.delta := by
  obtain ⟨accounts, hacc, hpair⟩ := h.accounts
  refine ⟨accounts, hacc, ?_⟩
  unfold adjustmentAccounts at hpair
  rw [h.amount]
  split_ifs at hpair with hpos
  · exact .inl ⟨congrArg Prod.fst hpair, congrArg Prod.snd hpair, (abs_of_pos hpos).symm⟩
  · refine .inr ⟨congrArg Prod.fst hpair, congrArg Prod.snd hpair, ?_⟩
    rw [abs_of_nonpos (not_lt.mp hpos), neg_neg]

lemma currentCost_eq_getLast {d : ℤ}
    (h : (rows.filter (·.depletionTrxLineId = d)).Pairwise (·.generation < ·.generation)) :
    currentCost rows d =
      (rows.filter (·.depletionTrxLineId = d)).getLast?.map (·.authoritativeUnitCost) := by
  unfold currentCost currentSettlement
  congr 1
  rcases eq_nil_or_concat (rows.filter (·.depletionTrxLineId = d)) with hnil | ⟨l, r, hr⟩
  · rw [hnil]
    rfl
  · rw [concat_eq_append] at hr
    rw [hr] at h ⊢
    rw [latest_append_of_lt, List.getLast?_append, List.getLast?_singleton, Option.some_or]
    intro x hx
    exact (pairwise_append.mp h).2.2 x hx r (mem_singleton.mpr rfl)

lemma PassWritten.filter_adjustments {pass : PassFold} (hw : PassWritten cfg periods db pass db')
    (hn : (pass.pending.map (·.costing.depletionTrxLineId)).Nodup) (d : ℤ) :
    (adjustmentsOf db' d = adjustmentsOf db d ∧
      ∀ p ∈ pass.pending, p.costing.depletionTrxLineId = d → p.delta = 0) ∨
    ∃ a p, adjustmentsOf db' d = adjustmentsOf db d ++ [a] ∧ p ∈ pass.pending ∧
      p.costing.depletionTrxLineId = d ∧ AdjustsAs cfg a p := by
  obtain ⟨as, has, hall⟩ := hw.adjustments
  have hn' : ((pass.pending.filter (·.delta ≠ 0)).map (·.costing.depletionTrxLineId)).Nodup :=
    hn.sublist (filter_sublist.map _)
  unfold adjustmentsOf
  rw [has, filter_append]
  rcases forall₂_filter_key hall (fun a p h => h.source) hn' d with
    ⟨hnil, hne⟩ | ⟨a, p, ha, hp, hd, hs⟩
  · refine .inl ⟨by rw [hnil, append_nil], fun p hp hd => ?_⟩
    by_contra h0
    exact hne p (mem_filter.mpr ⟨hp, by simpa using h0⟩) hd
  · exact .inr ⟨a, p, by rw [ha], mem_of_mem_filter hp, hd, hs⟩

theorem SettlementChain.pass {F : List TrxLine} {pass : PassFold} {t : TrxLine}
    (h : SettlementChain cfg db t) (hck : Checkpoint cfg db F out) (ht : t ∈ db.lines)
    (hpass : foldPass cfg (readClaim db.settlement) db = some pass)
    (hw : PassWritten cfg periods db pass db') : SettlementChain cfg db' t := by
  have hn := (hck.pending_spec hpass).1
  obtain ⟨xs, hxs, hsum⟩ := h.adjusted
  rcases hw.costSettlements.filter_costSettlements hn t.id with
    ⟨hrows, hne⟩ | ⟨r, p, hrows, hp, hd, hs⟩
  -- Nothing pending: neither rows nor adjustments change.
  · have hadj : adjustmentsOf db' t.id = adjustmentsOf db t.id := by
      rcases hw.filter_adjustments hn t.id with ⟨heq, -⟩ | ⟨a, p, -, hp, hd, -⟩
      · exact heq
      · exact absurd hd (hne p hp)
    have hrows' : settlementsOf db' t.id = settlementsOf db t.id := hrows
    have hcur : currentCost db'.costSettlements t.id = currentCost db.costSettlements t.id := by
      unfold currentCost currentSettlement
      rw [hrows]
    refine ⟨hrows' ▸ h.ordered, hrows' ▸ h.chain, hrows' ▸ h.posting, xs, ?_, ?_⟩
    · rw [hadj]
      exact hxs
    · rw [hcur]
      exact hsum
  -- One row more, whose prior is the current cost.
  · obtain ⟨hlt, -, hqty, hprior, hdelta⟩ := hck.line_of_pending hpass hp ht hd
    have hok := (hck.extend hpass (hck.costed hpass hw)).out_ok.1 p.costing
      (mem_append_right _ ((hck.pending_spec hpass).2.1 p hp).1)
    have hqpos : 0 < -t.qty := hqty ▸ hok.qty_pos
    have hrows' : settlementsOf db' t.id = settlementsOf db t.id ++ [r] := hrows
    rw [pass.generation_of_pending hp] at hs
    have hordered : (settlementsOf db' t.id).Pairwise (·.generation < ·.generation) := by
      rw [hrows', pairwise_append]
      refine ⟨h.ordered, pairwise_singleton _ _, ?_⟩
      intro x hx y hy
      have := hck.generations x (mem_of_mem_filter hx)
      rw [mem_singleton.mp hy, hs.generation]
      omega
    have hcur : currentCost db'.costSettlements t.id =
        some p.costing.authoritativeUnitCost := by
      rw [currentCost_eq_getLast hordered, hrows, List.getLast?_append, List.getLast?_singleton,
        Option.some_or, Option.map_some, hs.authoritative]
    have hdelta0 : p.delta = 0 ↔ p.costing.authoritativeUnitCost = p.priorUnitCost := by
      rw [hdelta, mul_eq_zero, sub_eq_zero, or_iff_left hqpos.ne']
    refine ⟨hordered, ?_, ?_, ?_⟩
    · rw [hrows', chainFrom_append_singleton]
      refine ⟨h.chain, ?_⟩
      rw [hs.prior, hprior, currentCost_eq_getLast h.ordered]
      rfl
    · intro x hx
      rw [hrows', mem_append] at hx
      rcases hx with hx | hx
      · exact h.posting x hx
      · rw [mem_singleton.mp hx, hs.posting, hs.authoritative, hs.prior, ne_eq, ne_eq, hdelta0]
    · rw [hcur, Option.getD_some]
      rcases hw.filter_adjustments hn t.id with ⟨hadj, hzero⟩ | ⟨a, q, hadj, hq, hqd, ha⟩
      · refine ⟨xs, hadj ▸ hxs, ?_⟩
        rw [hsum, hdelta0.mp (hzero p hp hd), hprior]
      · have hqp : q = p := inj_on_of_nodup_map hn hq hp (hqd.trans hd.symm)
        subst hqp
        refine ⟨xs ++ [q.delta], ?_, ?_⟩
        · rw [hadj]
          exact rel_append hxs (.cons (hlt ▸ ha.countsAs) .nil)
        · rw [sum_append, sum_singleton, hsum, hdelta, hprior]
          ring

/-! ### The invariant -/

structure ChainInv (cfg : PoolCfg) (db : PoolDb) : Prop where
  chains : ∀ t ∈ db.lines, t.qty < 0 → SettlementChain cfg db t
  sources : ∀ a ∈ db.adjustments, ∃ t ∈ db.lines, t.id = a.sourceTrxLineId
  postings : PostingsMatch db

lemma preserved_chainInv (cfg : PoolCfg) :
    Preserved cfg (fun _ _ => True) fun db _ => ChainInv cfg db where
  empty := ⟨by simp, by simp, rfl⟩
  submit := by
    intro s r t a F out _ hck hfresh _ _ h
    -- Nothing has been written about a fresh line.
    have hrows := hck.filter_costSettlements_of_fresh hfresh
    have hadj : s.db.adjustments.filter (·.sourceTrxLineId = t.id) = [] := by
      rw [filter_eq_nil_iff]
      intro x hx hid
      obtain ⟨u, hu, huid⟩ := h.sources x hx
      exact hfresh u hu (huid.trans (of_decide_eq_true hid))
    refine ⟨?_, ?_, h.postings⟩
    · intro u hu hneg
      rcases mem_append.mp hu with hu | hu
      · have hchain := h.chains u hu hneg
        exact ⟨hchain.ordered, hchain.chain, hchain.posting, hchain.adjusted⟩
      · rw [mem_singleton.mp hu]
        constructor
        · rw [settlementsOf, hrows]
          exact List.Pairwise.nil
        · rw [settlementsOf, hrows]
          trivial
        · rw [settlementsOf, hrows]
          simp
        · refine ⟨[], ?_, ?_⟩
          · rw [adjustmentsOf, hadj]
            exact .nil
          · simp [currentCost, currentSettlement, hrows]
    · intro x hx
      obtain ⟨u, hu, huid⟩ := h.sources x hx
      exact ⟨u, mem_append_left _ hu, huid⟩
  feed _ h := ⟨fun t ht hneg =>
    let hchain := h.chains t ht hneg
    ⟨hchain.ordered, hchain.chain, hchain.posting, hchain.adjusted⟩, h.sources, h.postings⟩
  escalate _ h := ⟨fun t ht hneg =>
    let hchain := h.chains t ht hneg
    ⟨hchain.ordered, hchain.chain, hchain.posting, hchain.adjusted⟩, h.sources, h.postings⟩
  pass := by
    intro s periods db' F out pass _ hck hpass _ hw h
    refine ⟨?_, ?_, hw.postings h.postings⟩
    · intro t ht hneg
      rw [hw.lines] at ht
      exact (h.chains t ht hneg).pass hck ht hpass hw
    · obtain ⟨as, has, hall⟩ := hw.adjustments
      rw [has, hw.lines]
      intro a ha
      rcases mem_append.mp ha with ha | ha
      · exact h.sources a ha
      · obtain ⟨p, hp, hadj⟩ := exists_of_forall₂_of_mem hall ha
        have hc := ((hck.pending_spec hpass).2.1 p (mem_of_mem_filter hp)).1
        obtain ⟨hscan, hfold, -⟩ := foldPass_eq_some hpass
        obtain ⟨t, ht, hid, -⟩ := exists_line_of_mem_costings hfold hc
        exact ⟨t, (mem_scanEvents.mp (hscan ▸ ht)).1, by rw [hid, hadj.source]⟩

/-! ### Passes without new lines -/

section Rerun

variable {cfg : PoolCfg} {pass : PassFold}

section

variable (h : Checkpoint cfg db (sortLines db.lines) out)
include h

lemma Checkpoint.resumed_append_scanned
    (hscan : pass.scanned = scanEvents db.lines (readClaim db.settlement).scanFrom) :
    resumedLines (readClaim db.settlement) (sortLines db.lines) ++ pass.scanned =
      sortLines db.lines := by
  apply eq_of_mem_iff (h.extended_sorted hscan) (pairwise_sortLines h.ids)
  intro t
  have hmem : t ∈ sortLines db.lines ↔ t ∈ db.lines := mem_sortBy
  rw [mem_append, hscan, mem_scanEvents, hmem]
  unfold resumedLines Claim.scanFrom
  split_ifs
  · simp
  · rw [hmem]
    exact or_iff_left_of_imp And.left

lemma Checkpoint.refolded (hpass : foldPass cfg (readClaim db.settlement) db = some pass) :
    out = ⟨resumedCostings (readClaim db.settlement) out ++ pass.out.costings,
      pass.out.layers⟩ := by
  have hout := h.extended_fold hpass
  rw [h.resumed_append_scanned (foldPass_eq_some hpass).1, h.fold] at hout
  exact Option.some.inj hout

lemma Checkpoint.pending_eq_nil
    (hpass : foldPass cfg (readClaim db.settlement) db = some pass) : pass.pending = [] := by
  rw [eq_nil_iff_forall_not_mem]
  intro p hp
  obtain ⟨hc, hof⟩ := (h.pending_spec hpass).2.1 p hp
  -- The costing is one of the checkpoint, whose cost is current.
  have hcur := h.costs p.costing (by
    rw [h.refolded hpass]
    exact mem_append_right _ hc)
  unfold pendingOf at hof
  rw [hcur] at hof
  simp at hof

end

/-- The same generation, settlements, linkage and adjustments. -/
structure SameCosts (db db' : PoolDb) : Prop where
  generation : (readClaim db'.settlement).generation = (readClaim db.settlement).generation
  costSettlements : db'.costSettlements = db.costSettlements
  consumptions : db'.consumptions = db.consumptions
  adjustments : db'.adjustments = db.adjustments

lemma SameCosts.trans {db'' : PoolDb} (h : SameCosts db db') (h' : SameCosts db' db'') :
    SameCosts db db'' :=
  ⟨h'.1.trans h.1, h'.2.trans h.2, h'.3.trans h.3, h'.4.trans h.4⟩

lemma PassWritten.sameCosts (hw : PassWritten cfg periods db pass db') (hnil : pass.pending = []) :
    SameCosts db db' := by
  obtain ⟨as, has, hasall⟩ := hw.adjustments
  obtain ⟨rows, hrows, hrowsall⟩ := hw.costSettlements
  have hlink := hw.consumptions
  rw [hnil] at hasall hrowsall hlink
  cases hasall
  cases hrowsall
  refine ⟨?_, by simpa using hrows, by simpa [consumptionRows] using hlink, by simpa using has⟩
  rw [hw.settlement]
  unfold PassFold.settlement PassFold.generation
  rw [hnil]
  rcases pass.frontier (readClaim db.settlement) with _ | f
  · rfl
  · rcases db.settlement with _ | s
    · rfl
    · exact max_self _

/-- **Passes without new lines write nothing.** From a pool at rest, feed batches and passes change
neither the generation nor any settlement, linkage or adjustment. -/
theorem Pool.sameCosts_of_no_submit (hck : Checkpoint cfg s.db (sortLines s.db.lines) out)
    (more : List PoolOp) (hmore : ∀ op ∈ more, ∀ r, op ≠ .submit r) :
    SameCosts s.db (Machine.run (Pool.exec? cfg) s more).db := by
  suffices h : ∀ s', Checkpoint cfg s'.db (sortLines s'.db.lines) out → SameCosts s.db s'.db →
      SameCosts s.db (Machine.run (Pool.exec? cfg) s' more).db from h s hck ⟨rfl, rfl, rfl, rfl⟩
  clear hck
  induction more with
  | nil => exact fun _ _ h => h
  | cons op more ih =>
    intro s' hck hsame
    have ih := ih fun op hop => hmore op (mem_cons_of_mem _ hop)
    show SameCosts s.db (Machine.run (Pool.exec? cfg) (s'.step cfg op) more).db
    rcases s'.step_cases cfg op with heq | ⟨r, t, a, rfl, -⟩ | ⟨batch, -, -, heq⟩ |
      ⟨periods, db', -, hrec, heq⟩
    · rw [heq]
      exact ih s' hck hsame
    · exact absurd rfl (hmore _ mem_cons_self r)
    · rw [heq]
      have hgen := (readClaim_map_feedFloor batch s'.db.settlement).2
      exact ih _ (hck.feed batch) ⟨hgen.trans hsame.generation, hsame.costSettlements,
        hsame.consumptions, hsame.adjustments⟩
    · rw [heq]
      obtain ⟨-, -, pass, hpass, ⟨e, -, rfl⟩ | ⟨-, hw⟩⟩ := recalcStep_cases hck.ids hrec
      · exact ih _ (hck.escalate e) ⟨hsame.generation, hsame.costSettlements, hsame.consumptions,
          hsame.adjustments⟩
      · have hck' := hck.extend hpass (hck.costed hpass hw)
        rw [← hck.refolded hpass, hck.resumed_append_scanned (foldPass_eq_some hpass).1,
          ← hw.lines] at hck'
        exact ih _ hck' (hsame.trans (hw.sameCosts (hck.pending_eq_nil hpass)))

end Rerun

/-- Repeating a pass changes nothing: its queue row is gone, or it fails the same way again. -/
lemma Pool.step_pass_idem (hn : (s.db.lines.map (·.id)).Nodup) (periods : List AccountingPeriod) :
    (s.step cfg (.pass periods)).step cfg (.pass periods) = s.step cfg (.pass periods) := by
  rcases hrec : recalcStep cfg periods s.db with _ | db'
  · have hsame : s.step cfg (.pass periods) = s := 
      step_of_none (by simp [Pool.exec?, hrec])
    rw [hsame, hsame]
  · have hstep : s.step cfg (.pass periods) = { s with db := db' } := by
      exact step_of_some (by simp [Pool.exec?, hrec])
    have hidle : recalcStep cfg periods db' = none := by
      obtain ⟨-, -, pass, -, ⟨e, -, rfl⟩ | ⟨-, hw⟩⟩ := recalcStep_cases hn hrec
      · simp [recalcStep, recordEscalation]
      · simp [recalcStep, hw.not_queued]
    rw [hstep]
    exact step_of_none (by simp [Pool.exec?, hidle])

/-- **Settlement chains telescope and the ledger follows.** After every run, every depletion has its
chain of settlements with the postings that follow it. Repeating a pass changes nothing, and from
rest no sequence of feed batches and passes writes a row or moves the generation. -/
theorem Pool.run_settlementChain (cfg : PoolCfg) (ops : List PoolOp) :
    (∀ t ∈ (Pool.run cfg ops).db.lines, t.qty < 0 → SettlementChain cfg (Pool.run cfg ops).db t) ∧
    PostingsMatch (Pool.run cfg ops).db ∧
    (∀ periods, Pool.run cfg (ops ++ [.pass periods, .pass periods]) =
      Pool.run cfg (ops ++ [.pass periods])) ∧
    ((Pool.run cfg ops).AtRest → ∀ more, (∀ op ∈ more, ∀ r, op ≠ PoolOp.submit r) →
      SameCosts (Pool.run cfg ops).db (Pool.run cfg (ops ++ more)).db) := by
  have hinv := Pool.run_inv (preserved_chainInv cfg) ops
    (throughout_of_forall (fun _ _ => trivial) _ _)
  obtain ⟨F, out, hck, -, hchain⟩ := id hinv
  refine ⟨hchain.chains, hchain.postings, fun periods => ?_, fun hrest more hmore => ?_⟩
  · simp only [Pool.run, run_append, run_cons, run_nil]
    exact Pool.step_pass_idem hck.ids periods
  · obtain ⟨out, hck, -⟩ := hrest.checkpoint hinv
    rw [Pool.run, Pool.run, run_append]
    exact Pool.sameCosts_of_no_submit hck more hmore

/-- After the backdated receipt is settled, redelivering everything and passing again writes
nothing. -/
theorem Pool.run_backdatedReceipt_settlementChain :
    (Pool.run (sampleCfg false) backdatedReceipt).AtRest ∧
    SameCosts (Pool.run (sampleCfg false) backdatedReceipt).db
      (Pool.run (sampleCfg false)
        (backdatedReceipt ++ [.feed [.physical 3 1, .physical 1 2], .pass []])).db := by
  refine ⟨backdatedReceipt_atRest, ?_⟩
  apply (Pool.run_settlementChain (sampleCfg false) backdatedReceipt).2.2.2 backdatedReceipt_atRest
  simp

end Acct.V32
