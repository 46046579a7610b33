import Acct.V32.Equiv.Replay

/-!
# The consumption linkage

The current linkage of a depletion is its `cost_layer_consumption` rows of the generation of its
current settlement. A pass writes linkage only for depletions that are new or whose rounded cost
moved, but rewrites the layers whenever it scanned anything. So the linkage is the full replay's as
long as no pass moved a settled depletion to other layers at the same cost (`KeepsLinkage`); a
backdated receipt at an equal cost does just that (`backdatedReceipt_linkage`).
-/

namespace Acct.V32

open Table List Option

variable {g d : ℤ} {cfg : PoolCfg} {db db' : PoolDb} {out : StrictFoldOutput} {ps : List Pending}
  {c : DepletionCosting} {F : List TrxLine} {periods : List AccountingPeriod} {t : TrxLine}

def LayerConsumption.toDraw (r : LayerConsumption) : LayerDraw :=
  ⟨r.layerTrxLineId, r.qty, r.unitCost⟩

def linkageAt (rows : List LayerConsumption) (d g : ℤ) : List LayerDraw :=
  (rows.filter fun r => r.depletionTrxLineId = d ∧ r.generation = g).map (·.toDraw)

def currentLinkage (db : PoolDb) (d : ℤ) : List LayerDraw :=
  match currentSettlement db.costSettlements d with
  | none => []
  | some r => linkageAt db.consumptions d r.generation

/-- If the pass `op` re-folds the depletion `d` at its current cost, it draws from the layers that
are linked already. -/
def KeepsLinkage (cfg : PoolCfg) (d : ℤ) (s : Pool) : PoolOp → Prop
  | .pass periods => ∀ pass db', foldPass cfg (readClaim s.db.settlement) s.db = some pass →
      recalcStep cfg periods s.db = some db' → ∀ c ∈ pass.out.costings, c.depletionTrxLineId = d →
        currentCost s.db.costSettlements d = some c.authoritativeUnitCost →
          currentLinkage s.db d = c.draws
  | _ => True

/-- The draws `ds`, and the rest of the depletion at its observed cost, round to its authoritative
cost. -/
def Prices (ds : List LayerDraw) (c : DepletionCosting) : Prop :=
  bankerDiv (drawValue ds + (c.qty - drawWeight (fun _ _ => 1) ds) * c.observedUnitCost) c.qty =
    some c.authoritativeUnitCost

/-! ### Linkage rows of one generation -/

lemma linkageAt_append (rows rows' : List LayerConsumption) (d g : ℤ) :
    linkageAt (rows ++ rows') d g = linkageAt rows d g ++ linkageAt rows' d g := by
  simp [linkageAt]

lemma linkageAt_of_generation_lt {rows : List LayerConsumption} (h : ∀ r ∈ rows, r.generation < g) :
    linkageAt rows d g = [] := by
  have hnil : rows.filter (fun r => r.depletionTrxLineId = d ∧ r.generation = g) = [] := by
    rw [filter_eq_nil_iff]
    intro r hr hp
    have := h r hr
    have := (of_decide_eq_true hp).2
    omega
  rw [linkageAt, hnil]
  rfl

lemma linkageAt_draws (d : ℤ) (g g' : ℤ) (d' : ℤ) (ds : List LayerDraw) :
    linkageAt (ds.map fun x => ⟨d', x.layerTrxLineId, g, x.qty, x.unitCost⟩) d g' =
      if d' = d ∧ g = g' then ds else [] := by
  unfold linkageAt
  rw [List.filter_map, List.map_map]
  show (ds.filter fun _ => decide (d' = d ∧ g = g')).map id = _
  split_ifs with h
  · rw [filter_eq_self.mpr fun x _ => decide_eq_true h, List.map_id]
  · rw [filter_eq_nil_iff.mpr fun x _ hx => h (of_decide_eq_true hx)]
    rfl

lemma linkageAt_consumptionRows_of_ne {g' : ℤ} (h : ∀ p ∈ ps, p.costing.depletionTrxLineId ≠ d) :
    linkageAt (consumptionRows g ps) d g' = [] := by
  induction ps with
  | nil => rfl
  | cons p ps ih =>
    have hne : ¬ (p.costing.depletionTrxLineId = d ∧ g = g') :=
      fun hd => h p mem_cons_self hd.1
    rw [consumptionRows, flatMap_cons, linkageAt_append, linkageAt_draws, if_neg hne]
    exact ih fun q hq => h q (mem_cons_of_mem _ hq)

lemma linkageAt_consumptionRows {p : Pending} (hn : (ps.map (·.costing.depletionTrxLineId)).Nodup)
    (hp : p ∈ ps) :
    linkageAt (consumptionRows g ps) p.costing.depletionTrxLineId g = p.costing.draws := by
  induction ps with
  | nil => cases hp
  | cons q ps ih =>
    rw [map_cons, nodup_cons] at hn
    rw [consumptionRows, flatMap_cons, linkageAt_append, linkageAt_draws]
    rcases mem_cons.mp hp with rfl | hp
    · have hrest : linkageAt (consumptionRows g ps) p.costing.depletionTrxLineId g = [] :=
        linkageAt_consumptionRows_of_ne fun x hx heq => hn.1 (heq ▸ List.mem_map_of_mem hx)
      rw [if_pos ⟨rfl, rfl⟩]
      exact (congrArg (_ ++ ·) hrest).trans (append_nil _)
    · have hne : ¬ (q.costing.depletionTrxLineId = p.costing.depletionTrxLineId ∧ g = g) :=
        fun h => hn.1 (h.1 ▸ List.mem_map_of_mem hp)
      rw [if_neg hne]
      exact ih hn.2 hp

/-! ### What a pass does to the linkage -/

section Pass

variable {cfg : PoolCfg} {db : PoolDb} {pass : PassFold}

lemma PassWritten.currentLinkage (hw : PassWritten cfg periods db pass db')
    (hn : (pass.pending.map (·.costing.depletionTrxLineId)).Nodup)
    (hgen : ∀ r ∈ db.costSettlements, r.generation ≤ (readClaim db.settlement).generation)
    (hlink : ∀ r ∈ db.consumptions, r.generation ≤ (readClaim db.settlement).generation) (d : ℤ) :
    (currentLinkage db' d = currentLinkage db d ∧
      ∀ p ∈ pass.pending, p.costing.depletionTrxLineId ≠ d) ∨
    ∃ p ∈ pass.pending, p.costing.depletionTrxLineId = d ∧
      currentLinkage db' d = p.costing.draws := by
  unfold V32.currentLinkage
  rw [hw.consumptions]
  rcases hw.costSettlements.currentSettlement hn hgen d with ⟨heq, hne⟩ | ⟨r, p, heq, hp, hd, hs⟩
  · refine .inl ⟨?_, hne⟩
    rw [heq]
    split
    · rfl
    · rw [linkageAt_append, linkageAt_consumptionRows_of_ne hne, append_nil]
  · refine .inr ⟨p, hp, hd, ?_⟩
    have hlt : ∀ x ∈ db.consumptions, x.generation < r.generation := by
      intro x hx
      have := hlink x hx
      rw [hs.generation]
      omega
    rw [heq]
    simp only
    rw [linkageAt_append, linkageAt_of_generation_lt hlt, nil_append, hs.generation,
      pass.generation_of_pending hp, ← hd]
    exact linkageAt_consumptionRows hn hp

end Pass

/-! ### The invariants -/

/-- Linkage rows belong to committed generations, and the current ones price their depletions. -/
structure LinkageInv (db : PoolDb) (out : StrictFoldOutput) : Prop where
  generations : ∀ r ∈ db.consumptions, r.generation ≤ (readClaim db.settlement).generation
  priced : ∀ c ∈ out.costings, Prices (currentLinkage db c.depletionTrxLineId) c

lemma prices_draws (h : c.Ok) : Prices c.draws c := by
  have hcov : c.qty - drawWeight (fun _ _ => 1) c.draws = c.uncoveredQty := by
    rw [← h.covered]
    ring
  unfold Prices
  rw [hcov]
  exact h.authoritative_eq

lemma Checkpoint.exists_costing {pass : PassFold} (h : Checkpoint cfg db F out)
    (hpass : foldPass cfg (readClaim db.settlement) db = some pass) (hc : c ∈ pass.out.costings)
    (hcur : currentCost db.costSettlements c.depletionTrxLineId = some c.authoritativeUnitCost) :
    ∃ c0 ∈ out.costings, c0.depletionTrxLineId = c.depletionTrxLineId ∧ c0.qty = c.qty ∧
      c0.observedUnitCost = c.observedUnitCost ∧
      c0.authoritativeUnitCost = c.authoritativeUnitCost := by
  obtain ⟨hscan, hfold, -⟩ := foldPass_eq_some hpass
  obtain ⟨u, hu, huid, huneg, huqty, huobs⟩ := exists_line_of_mem_costings hfold hc
  have hrow : ∃ r ∈ db.costSettlements, r.depletionTrxLineId = c.depletionTrxLineId := by
    obtain ⟨r, hr, -⟩ := Option.map_eq_some_iff.mp hcur
    obtain ⟨hmem, hdep⟩ := mem_filter.mp (latest_mem hr)
    exact ⟨r, hmem, of_decide_eq_true hdep⟩
  obtain ⟨r, hr, hdep⟩ := hrow
  obtain ⟨t, ht, htid⟩ := h.rows r hr
  have htu : t = u := inj_on_of_nodup_map h.ids (h.subset t ht)
    (mem_scanEvents.mp (hscan ▸ hu)).1 (by rw [htid, hdep, huid])
  subst htu
  obtain ⟨c0, hc0, hid⟩ := exists_costing_of_mem_lines h.fold ht huneg
  obtain ⟨t', ht', htid', -, htqty, htobs⟩ := exists_line_of_mem_costings h.fold hc0
  have htt : t' = t := inj_on_of_nodup_map h.ids (h.subset t' ht') (h.subset t ht)
    (by rw [htid', hid])
  subst htt
  have hcost := h.costs c0 hc0
  rw [hid, huid, hcur] at hcost
  exact ⟨c0, hc0, hid.trans huid, by rw [htqty, huqty], by rw [htobs, huobs],
    (some.inj hcost).symm⟩

lemma Checkpoint.pass_linkage_generations {pass : PassFold} (h : Checkpoint cfg db F out)
    (hpass : foldPass cfg (readClaim db.settlement) db = some pass)
    (hw : PassWritten cfg periods db pass db')
    (hlink : ∀ r ∈ db.consumptions, r.generation ≤ (readClaim db.settlement).generation) :
    ∀ r ∈ db'.consumptions, r.generation ≤ (readClaim db'.settlement).generation := by
  obtain ⟨hgen, hgen'⟩ := h.pass_generation hpass hw.settlement
  intro r hr
  rw [hw.consumptions, mem_append] at hr
  rcases hr with hr | hr
  · exact (hlink r hr).trans hgen
  · obtain ⟨p, hp, hr⟩ := mem_flatMap.mp hr
    obtain ⟨d, -, rfl⟩ := List.mem_map.mp hr
    exact hgen' (ne_nil_of_mem hp)

lemma preserved_linkageInv (cfg : PoolCfg) : Preserved cfg (fun _ _ => True) LinkageInv where
  empty := ⟨by simp, by simp⟩
  submit _ _ _ _ _ h := ⟨h.generations, h.priced⟩
  feed batch h := by
    obtain ⟨-, hgen⟩ := readClaim_map_feedFloor batch ‹PoolDb›.settlement
    refine ⟨fun r hr => ?_, h.priced⟩
    rw [show (readClaim (feedApply cfg batch _).settlement).generation = _ from hgen]
    exact h.generations r hr
  escalate _ h := ⟨h.generations, h.priced⟩
  pass := by
    intro s periods db' F out pass _ hck hpass _ hw h
    have hn := (hck.pending_spec hpass).1
    refine ⟨hck.pass_linkage_generations hpass hw h.generations, fun c hc => ?_⟩
    have hok := (hck.extend hpass (hck.costed hpass hw)).out_ok.1 c hc
    rcases hw.currentLinkage hn hck.generations h.generations c.depletionTrxLineId with
      ⟨heq, hne⟩ | ⟨p, hp, hd, heq⟩
    · rw [heq]
      rcases hck.pass_cases hpass hc with ⟨hc, -⟩ | ⟨p, hp, rfl⟩ | ⟨hc, -, hcur⟩
      · exact h.priced c hc
      · exact absurd rfl (hne p hp)
      -- The linkage prices the earlier costing, which has the same cost.
      · obtain ⟨c0, hc0, hid, hqty, hobs, hauth⟩ := hck.exists_costing hpass hc hcur
        have hpriced := h.priced c0 hc0
        unfold Prices at hpriced ⊢
        rwa [hid, hqty, hobs, hauth] at hpriced
    · rcases hck.pass_cases hpass hc with ⟨-, hne⟩ | ⟨q, hq, rfl⟩ | ⟨-, hne, -⟩
      · exact absurd hd (hne p hp)
      · rw [heq, inj_on_of_nodup_map hn hp hq hd]
        exact prices_draws hok
      · exact absurd hd (hne p hp)

/-- The depletion `d` is linked to the draws of the fold. -/
def Linked (d : ℤ) (db : PoolDb) (out : StrictFoldOutput) : Prop :=
  LinkageInv db out ∧ ∀ c ∈ out.costings, c.depletionTrxLineId = d → currentLinkage db d = c.draws

lemma preserved_linked (cfg : PoolCfg) (d : ℤ) : Preserved cfg (KeepsLinkage cfg d) (Linked d) where
  empty := ⟨(preserved_linkageInv cfg).empty, by simp⟩
  submit _ hck hfresh happ heq h :=
    ⟨(preserved_linkageInv cfg).submit trivial hck hfresh happ heq h.1, h.2⟩
  feed batch h := ⟨(preserved_linkageInv cfg).feed batch h.1, h.2⟩
  escalate e h := ⟨(preserved_linkageInv cfg).escalate e h.1, h.2⟩
  pass := by
    intro s periods db' F out pass hkeep hck hpass hrec hw ⟨hinv, hlinked⟩
    have hn := (hck.pending_spec hpass).1
    refine ⟨(preserved_linkageInv cfg).pass trivial hck hpass hrec hw hinv, ?_⟩
    rintro c hc rfl
    rcases hw.currentLinkage hn hck.generations hinv.generations c.depletionTrxLineId with
      ⟨heq, hne⟩ | ⟨p, hp, hd, heq⟩
    · rw [heq]
      rcases hck.pass_cases hpass hc with ⟨hc, -⟩ | ⟨p, hp, rfl⟩ | ⟨hc, -, hcur⟩
      · exact hlinked c hc rfl
      · exact absurd rfl (hne p hp)
      · exact hkeep pass db' hpass hrec c hc rfl hcur
    · rcases hck.pass_cases hpass hc with ⟨-, hne⟩ | ⟨q, hq, rfl⟩ | ⟨-, hne, -⟩
      · exact absurd hd (hne p hp)
      · rw [heq, inj_on_of_nodup_map hn hp hq hd]
      · exact absurd hd (hne p hp)

/-! ### At rest -/

def unitsOf (receipt : ℤ) : ℤ → ℤ → ℤ := fun layer _ => if layer = receipt then 1 else 0

/-- The open quantity of a receipt's layer. -/
def openQty (db : PoolDb) (receipt : ℤ) : ℤ :=
  ((db.layers.filter (·.layerId = receipt)).map (·.qty)).sum

/-- What the current linkage of all depletions draws from a receipt. -/
def drawnQty (db : PoolDb) (receipt : ℤ) : ℤ :=
  ((db.lines.filter (·.qty < 0)).map fun t =>
    drawWeight (unitsOf receipt) (currentLinkage db t.id)).sum

lemma openQty_eq {ls : List StrictLayer} (h : db.layers = ls.map (·.toRow)) (id : ℤ) :
    openQty db id = layerWeight (unitsOf id) ls := by
  unfold openQty
  rw [h]
  clear h
  induction ls with
  | nil => rfl
  | cons l ls ih =>
    rw [layerWeight_cons, ← ih, map_cons, filter_cons]
    by_cases hid : l.layerId = id <;> simp [StrictLayer.toRow, unitsOf, hid]

lemma receiptWeight_unitsOf {lines : List TrxLine} (hn : (lines.map (·.id)).Nodup) (ht : t ∈ lines)
    (hpos : 0 < t.qty) : receiptWeight (unitsOf t.id) (lines.map (·.toEvent)) = t.qty := by
  rw [receiptWeight, List.map_map]
  refine Eq.trans ?_ (sum_ite_key hn ht t.qty)
  refine congrArg List.sum (map_congr_left fun u hu => ?_)
  by_cases hid : u.id = t.id
  · obtain rfl := inj_on_of_nodup_map hn hu ht hid
    simp [unitsOf, TrxLine.toEvent, hpos]
  · simp [unitsOf, TrxLine.toEvent, hid]

lemma Checkpoint.conserved (h : Checkpoint cfg db (sortLines db.lines) out)
    (hlinked : ∀ c ∈ out.costings, currentLinkage db c.depletionTrxLineId = c.draws)
    (ht : t ∈ db.lines) (hpos : 0 < t.qty) : openQty db t.id + drawnQty db t.id = t.qty := by
  have hweight := strictFold_weight (unitsOf t.id) h.fold
  have hperm : ((sortLines db.lines).filter (·.qty < 0)).Perm (db.lines.filter (·.qty < 0)) :=
    (sortLines_perm db.lines).filter _
  have hdrawn : drawnQty db t.id =
      (out.costings.map fun c => drawWeight (unitsOf t.id) c.draws).sum := by
    unfold drawnQty
    have hids := congrArg (List.map fun d => drawWeight (unitsOf t.id) (currentLinkage db d))
      (costings_depletions h.fold)
    rw [List.map_map, List.map_map] at hids
    rw [← (hperm.map _).sum_eq]
    refine (congrArg List.sum hids.symm).trans (congrArg List.sum (map_congr_left ?_))
    intro c hc
    simp only [Function.comp_apply, hlinked c hc]
  rw [openQty_eq h.layers, hdrawn, hweight, layerWeight_nil, zero_add]
  exact receiptWeight_unitsOf h.nodup_ids (mem_sortBy.mpr ht) hpos

/-- **Linkage at rest.** The current linkage of every depletion prices it at the cost of the full
replay. It is the full replay's own linkage if no pass moved the depletion to other layers at an
unchanged cost; and if that holds of all depletions, each receipt's quantity is its open layer and
the current draws from it. -/
theorem Pool.run_atRest_linkage (cfg : PoolCfg) (ops : List PoolOp)
    (hrest : (Pool.run cfg ops).AtRest) :
    ∃ out, strictFold cfg.newestFirst []
        ((sortLines (Pool.run cfg ops).db.lines).map (·.toEvent)) = some out ∧
      (∀ c ∈ out.costings, Prices (currentLinkage (Pool.run cfg ops).db c.depletionTrxLineId) c ∧
        (Pool.Throughout cfg (KeepsLinkage cfg c.depletionTrxLineId) {} ops →
          currentLinkage (Pool.run cfg ops).db c.depletionTrxLineId = c.draws)) ∧
      ((∀ d, Pool.Throughout cfg (KeepsLinkage cfg d) {} ops) →
        ∀ t ∈ (Pool.run cfg ops).db.lines, 0 < t.qty →
          openQty (Pool.run cfg ops).db t.id + drawnQty (Pool.run cfg ops).db t.id = t.qty) := by
  obtain ⟨out, hck, hinv⟩ := hrest.checkpoint (Pool.run_inv (preserved_linkageInv cfg) ops
    (Machine.throughout_of_forall (fun _ _ => trivial) _ _))
  have hlinked : ∀ c ∈ out.costings,
      Pool.Throughout cfg (KeepsLinkage cfg c.depletionTrxLineId) {} ops →
        currentLinkage (Pool.run cfg ops).db c.depletionTrxLineId = c.draws := by
    intro c hc hkeep
    obtain ⟨out', hck', hlink⟩ := hrest.checkpoint (Pool.run_inv (preserved_linked cfg _) ops hkeep)
    have hout : out = out' := by
      have := hck'.fold
      rw [hck.fold] at this
      exact some.inj this
    exact hlink.2 c (hout ▸ hc) rfl
  exact ⟨out, hck.fold, fun c hc => ⟨hinv.priced c hc, hlinked c hc⟩,
    fun hkeep t ht hpos => hck.conserved (fun c hc => hlinked c hc (hkeep _)) ht hpos⟩

def settledOnce : List PoolOp := backdatedReceipt.take 4

/-- A pool settled once is linked to its receipt. -/
theorem Pool.run_settledOnce_linkage :
    (Pool.run (sampleCfg false) settledOnce).AtRest ∧
      (∀ d, Pool.Throughout (sampleCfg false) (KeepsLinkage (sampleCfg false) d) {} settledOnce) ∧
      openQty (Pool.run (sampleCfg false) settledOnce).db 1 +
        drawnQty (Pool.run (sampleCfg false) settledOnce).db 1 = 10 := by
  have hrest : (Pool.run (sampleCfg false) settledOnce).AtRest := by decide
  -- The only pass finds nothing settled.
  have hnone : ∀ d, currentCost (Pool.run (sampleCfg false)
      (backdatedReceipt.take 3)).db.costSettlements d = none := by
    intro d
    have : (Pool.run (sampleCfg false) (backdatedReceipt.take 3)).db.costSettlements = [] := by
      decide
    rw [this]
    rfl
  have hkeep : ∀ d, Pool.Throughout (sampleCfg false) (KeepsLinkage (sampleCfg false) d) {}
      settledOnce := by
    intro d
    refine ⟨trivial, trivial, trivial, ?_, trivial⟩
    intro pass db' _ _ c _ _ hcur
    have := hnone d
    rw [show Pool.run (sampleCfg false) (backdatedReceipt.take 3) = _ from rfl] at this
    exact absurd (hcur.symm.trans this) (by simp)
  obtain ⟨out, -, -, hcons⟩ := Pool.run_atRest_linkage (sampleCfg false) settledOnce hrest
  refine ⟨hrest, hkeep, ?_⟩
  exact hcons hkeep ⟨1, 2, .poReceiptLine, 10, 100, by decide, by decide, by decide, by decide,
    by decide⟩ (by decide) (by decide)

/-- **Linkage and layers drift apart.** After the backdated receipt the full replay draws the
depletion from receipt 3, the linkage still from receipt 1, whose layer is open again: receipt 1
counts twenty units instead of ten, receipt 3 none. -/
theorem backdatedReceipt_linkage :
    (Pool.run (sampleCfg false) backdatedReceipt).AtRest ∧
      strictFold false [] ((sortLines (Pool.run (sampleCfg false)
        backdatedReceipt).db.lines).map (·.toEvent)) =
          some ⟨[⟨2, 10, 100, 100, 0, [⟨3, 10, 100⟩]⟩], [⟨1, 10, 100⟩]⟩ ∧
      currentLinkage (Pool.run (sampleCfg false) backdatedReceipt).db 2 = [⟨1, 10, 100⟩] ∧
      openQty (Pool.run (sampleCfg false) backdatedReceipt).db 1 +
        drawnQty (Pool.run (sampleCfg false) backdatedReceipt).db 1 = 20 ∧
      openQty (Pool.run (sampleCfg false) backdatedReceipt).db 3 +
        drawnQty (Pool.run (sampleCfg false) backdatedReceipt).db 3 = 0 :=
  ⟨backdatedReceipt_atRest, by decide, by decide, by decide, by decide⟩

end Acct.V32
