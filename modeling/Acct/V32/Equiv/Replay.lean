import Acct.V32.Direct.Equiv.Recalc
import Acct.V32.Equiv.Pool

/-!
# The engine replays the full stream

`Checkpoint cfg db F out` says that the pool's layers, current costs and frontier are those of the
strict fold of the lines `F` from an empty opening. A pass extends it by the lines it scanned, or to
all lines if it replays from the opening (`Checkpoint.extend`). `Covers s F` ties the lines outside
`F` to the feed. Both are invariants of any run (`Pool.run_inv`), and at rest they leave nothing
outside `F` (`Pool.run_atRest_eq_strictFold`).
-/

namespace Acct.V32

open Table List Option

variable {db db' : PoolDb} {cfg : PoolCfg} {ps : List Pending} {d id : ℤ}
  {row : Option PoolSettlement} {a : Aggregate} {periods : List AccountingPeriod}
  {C : Pool → PoolOp → Prop} {s : Pool} {F : List TrxLine} {out : StrictFoldOutput}
  {c : DepletionCosting} {t : TrxLine} {p : Pending} {batch : List TrxLineEvent}
  {Q : PoolDb → StrictFoldOutput → Prop}

/-! ### Costings of a fold over lines -/

section Costings

variable {newestFirst : Bool} {ls : List StrictLayer}
  (h : strictFold newestFirst ls (F.map (·.toEvent)) = some out)

include h

lemma costings_eq_depletions :
    out.costings.map (fun c => (c.depletionTrxLineId, c.qty, c.observedUnitCost)) =
      (F.filter (·.qty < 0)).map fun t => (t.id, -t.qty, t.unitCost) := by
  have hfilter : (F.map (·.toEvent)).filter (·.qty ≤ 0) =
      (F.filter (·.qty < 0)).map (·.toEvent) := by
    rw [List.filter_map]
    congr 1
    apply filter_congr
    intro t _
    have := t.qty_ne_zero
    show decide (t.qty ≤ 0) = decide (t.qty < 0)
    rw [decide_eq_decide]
    omega
  rw [strictFold_costings h, hfilter, List.map_map]
  apply map_congr_left
  intro t ht
  have hneg : t.qty < 0 := by simpa using (mem_filter.mp ht).2
  show (t.id, absAsI64 t.qty, t.unitCost) = _
  rw [absAsI64_of_gt t.qty_gt]
  congr 2
  omega

lemma costings_depletions :
    out.costings.map (·.depletionTrxLineId) = (F.filter (·.qty < 0)).map (·.id) := by
  have hmap := congrArg (List.map Prod.fst) (costings_eq_depletions h)
  rwa [List.map_map, List.map_map] at hmap

lemma exists_line_of_mem_costings (hc : c ∈ out.costings) :
    ∃ t ∈ F, t.id = c.depletionTrxLineId ∧ t.qty < 0 ∧ c.qty = -t.qty ∧
      c.observedUnitCost = t.unitCost := by
  have hmem := List.mem_map_of_mem (f := fun c : DepletionCosting =>
    (c.depletionTrxLineId, c.qty, c.observedUnitCost)) hc
  rw [costings_eq_depletions h] at hmem
  obtain ⟨t, ht, heq⟩ := List.mem_map.mp hmem
  obtain ⟨htF, hneg⟩ := mem_filter.mp ht
  simp only [Prod.mk.injEq] at heq
  exact ⟨t, htF, heq.1, by simpa using hneg, heq.2.1.symm, heq.2.2.symm⟩

lemma exists_costing_of_mem_lines (ht : t ∈ F) (hneg : t.qty < 0) :
    ∃ c ∈ out.costings, c.depletionTrxLineId = t.id := by
  have hmem : t.id ∈ out.costings.map (·.depletionTrxLineId) := by
    rw [costings_depletions h]
    exact List.mem_map_of_mem (mem_filter.mpr ⟨ht, by simpa using hneg⟩)
  exact List.mem_map.mp hmem

lemma nodup_costings
    (hn : (F.map (·.id)).Nodup) : (out.costings.map (·.depletionTrxLineId)).Nodup := by
  rw [costings_depletions h]
  exact hn.sublist (filter_sublist.map _)

omit h in
lemma exists_strictFold_lines (newestFirst : Bool) (F : List TrxLine) :
    ∃ out, strictFold newestFirst [] (F.map (·.toEvent)) = some out ∧
      (∀ c ∈ out.costings, c.Ok) ∧ ∀ l ∈ out.layers, l.Ok := by
  refine exists_strictFold newestFirst (forall_mem_nil _) fun e he => ?_
  obtain ⟨t, -, rfl⟩ := List.mem_map.mp he
  exact t.toEvent_ok

end Costings

/-! ### The rows a pass adds for one depletion -/

section Rows

variable {pass : PassFold}

lemma mem_pending_split : p ∈ ps.filter (·.delta ≠ 0) ++ ps.filter (·.delta = 0) ↔ p ∈ ps := by
  simp only [mem_append, mem_filter, decide_eq_true_eq, ne_eq]
  constructor
  · rintro (h | h) <;> exact h.1
  · intro h
    by_cases h0 : p.delta = 0
    · exact .inr ⟨h, h0⟩
    · exact .inl ⟨h, h0⟩

lemma nodup_pending_split (h : (ps.map (·.costing.depletionTrxLineId)).Nodup) :
    ((ps.filter (·.delta ≠ 0) ++ ps.filter (·.delta = 0)).map
      (·.costing.depletionTrxLineId)).Nodup := by
  have hperm := filter_append_perm (fun p : Pending => decide (p.delta ≠ 0)) ps
  have hneg : (ps.filter fun p => !decide (p.delta ≠ 0)) = ps.filter (·.delta = 0) := by
    apply filter_congr
    intro p _
    simp
  rw [hneg] at hperm
  exact (hperm.map _).nodup_iff.mpr h

lemma PassFold.generation_of_pending (pass : PassFold) {claim : Claim} (hp : p ∈ pass.pending) :
    pass.generation claim = claim.generation + 1 := by
  unfold PassFold.generation
  rw [if_neg]
  simp [ne_nil_of_mem hp]

lemma PassFold.le_generation (pass : PassFold) (claim : Claim) :
    claim.generation ≤ pass.generation claim := by
  unfold PassFold.generation
  split_ifs <;> omega

section

variable (hw : CostsWritten db pass db')
  (hn : (pass.pending.map (·.costing.depletionTrxLineId)).Nodup)
include hw hn

lemma CostsWritten.filter_costSettlements (d : ℤ) :
    (db'.costSettlements.filter (·.depletionTrxLineId = d) =
        db.costSettlements.filter (·.depletionTrxLineId = d) ∧
      ∀ p ∈ pass.pending, p.costing.depletionTrxLineId ≠ d) ∨
    ∃ r p, db'.costSettlements.filter (·.depletionTrxLineId = d) =
        db.costSettlements.filter (·.depletionTrxLineId = d) ++ [r] ∧ p ∈ pass.pending ∧
      p.costing.depletionTrxLineId = d ∧
      SettlesAs (pass.generation (readClaim db.settlement)) r p := by
  obtain ⟨rows, hrows, hall⟩ := hw
  rw [hrows, filter_append]
  rcases forall₂_filter_key hall (fun r p h => h.depletion) (nodup_pending_split hn) d with
    ⟨hnil, hne⟩ | ⟨r, p, hr, hp, hd, hs⟩
  · exact .inl ⟨by rw [hnil, append_nil], fun p hp => hne p (mem_pending_split.mpr hp)⟩
  · exact .inr ⟨r, p, by rw [hr], mem_pending_split.mp hp, hd, hs⟩

/-- The current settlement of a pending depletion is its new row, that of any other is unchanged. -/
lemma CostsWritten.currentSettlement
    (hgen : ∀ r ∈ db.costSettlements, r.generation ≤ (readClaim db.settlement).generation) (d : ℤ) :
    (currentSettlement db'.costSettlements d = currentSettlement db.costSettlements d ∧
      ∀ p ∈ pass.pending, p.costing.depletionTrxLineId ≠ d) ∨
    ∃ r p, currentSettlement db'.costSettlements d = some r ∧ p ∈ pass.pending ∧
      p.costing.depletionTrxLineId = d ∧
      SettlesAs ((readClaim db.settlement).generation + 1) r p := by
  unfold V32.currentSettlement
  rcases hw.filter_costSettlements hn d with ⟨heq, hne⟩ | ⟨r, p, heq, hp, hd, hs⟩
  · exact .inl ⟨by rw [heq], hne⟩
  · rw [pass.generation_of_pending hp] at hs
    refine .inr ⟨r, p, ?_, hp, hd, hs⟩
    rw [heq]
    apply latest_append_of_lt
    intro x hx
    have := hgen x (mem_of_mem_filter hx)
    rw [hs.generation]
    omega

lemma CostsWritten.currentCost
    (hgen : ∀ r ∈ db.costSettlements, r.generation ≤ (readClaim db.settlement).generation) (d : ℤ) :
    (currentCost db'.costSettlements d = currentCost db.costSettlements d ∧
      ∀ p ∈ pass.pending, p.costing.depletionTrxLineId ≠ d) ∨
    ∃ p ∈ pass.pending, p.costing.depletionTrxLineId = d ∧
      currentCost db'.costSettlements d = some p.costing.authoritativeUnitCost := by
  unfold V32.currentCost
  rcases hw.currentSettlement hn hgen d with ⟨heq, hne⟩ | ⟨r, p, heq, hp, hd, hs⟩
  · exact .inl ⟨by rw [heq], hne⟩
  · exact .inr ⟨p, hp, hd, by rw [heq, map_some, hs.authoritative]⟩

end

end Rows

/-! ### Checkpoints -/

/-- The pool's layers, current costs and frontier are those of the fold `out` of the lines `F`. -/
structure Checkpoint (cfg : PoolCfg) (db : PoolDb) (F : List TrxLine) (out : StrictFoldOutput) :
    Prop where
  ids : (db.lines.map (·.id)).Nodup
  sorted : F.Pairwise (·.pos < ·.pos)
  subset : ∀ t ∈ F, t ∈ db.lines
  fold : strictFold cfg.newestFirst [] (F.map (·.toEvent)) = some out
  layers : db.layers = out.layers.map (·.toRow)
  settled : (readClaim db.settlement).settled = F.getLast?.map (·.pos)
  costs : ∀ c ∈ out.costings,
    currentCost db.costSettlements c.depletionTrxLineId = some c.authoritativeUnitCost
  generations : ∀ r ∈ db.costSettlements, r.generation ≤ (readClaim db.settlement).generation
  rows : ∀ r ∈ db.costSettlements, ∃ t ∈ F, t.id = r.depletionTrxLineId

/-- What of a pass's writes matters for the checkpoint. Other transactions may have committed more
lines meanwhile. -/
structure PassCosted (db : PoolDb) (pass : PassFold) (db' : PoolDb) : Prop where
  ids : (db'.lines.map (·.id)).Nodup
  subset : ∀ t ∈ db.lines, t ∈ db'.lines
  layers : pass.layers db.layers = some db'.layers
  settled : (readClaim db'.settlement).settled = pass.frontier (readClaim db.settlement)
  generation : (readClaim db.settlement).generation ≤ (readClaim db'.settlement).generation
  generation_written : pass.pending ≠ [] →
    pass.generation (readClaim db.settlement) ≤ (readClaim db'.settlement).generation
  costs : CostsWritten db pass db'

def resumedLines (claim : Claim) (F : List TrxLine) : List TrxLine :=
  if claim.fullReplay then [] else F

def resumedCostings (claim : Claim) (out : StrictFoldOutput) : List DepletionCosting :=
  if claim.fullReplay then [] else out.costings

namespace Checkpoint

variable {pass : PassFold}

lemma empty (cfg : PoolCfg) : Checkpoint cfg {} [] ⟨[], []⟩ := by
  constructor <;> first | rfl | simp

variable (h : Checkpoint cfg db F out)

include h

lemma nodup_ids : (F.map (·.id)).Nodup :=
  nodup_ids_of_pairwise h.ids h.sorted h.subset

lemma out_ok :
    (∀ c ∈ out.costings, c.Ok) ∧ ∀ l ∈ out.layers, l.Ok := by
  obtain ⟨out', hfold, hok⟩ := exists_strictFold_lines cfg.newestFirst F
  rw [h.fold] at hfold
  rw [some.inj hfold]
  exact hok

lemma filter_costSettlements_of_fresh (hfresh : ∀ t ∈ db.lines, t.id ≠ d) :
    db.costSettlements.filter (·.depletionTrxLineId = d) = [] := by
  rw [filter_eq_nil_iff]
  intro r hr hid
  obtain ⟨t, ht, htid⟩ := h.rows r hr
  exact hfresh t (h.subset t ht) (htid.trans (of_decide_eq_true hid))

lemma currentCost_of_fresh (hfresh : ∀ t ∈ db.lines, t.id ≠ d) :
    currentCost db.costSettlements d = none := by
  rw [currentCost, currentSettlement, h.filter_costSettlements_of_fresh hfresh]
  rfl

lemma congr (hids : (db'.lines.map (·.id)).Nodup)
    (hsub : ∀ t ∈ db.lines, t ∈ db'.lines) (hlayers : db'.layers = db.layers)
    (hcs : db'.costSettlements = db.costSettlements)
    (hsettled : (readClaim db'.settlement).settled = (readClaim db.settlement).settled)
    (hgen : (readClaim db'.settlement).generation = (readClaim db.settlement).generation) :
    Checkpoint cfg db' F out where
  ids := hids
  sorted := h.sorted
  subset t ht := hsub t (h.subset t ht)
  fold := h.fold
  layers := hlayers.trans h.layers
  settled := hsettled.trans h.settled
  costs := hcs ▸ h.costs
  generations := by rw [hcs, hgen]; exact h.generations
  rows := hcs ▸ h.rows

lemma lt_scanned {u : TrxLine}
    (ht : t ∈ resumedLines (readClaim db.settlement) F)
    (hu : u ∈ scanEvents db.lines (readClaim db.settlement).scanFrom) : t.pos < u.pos := by
  unfold resumedLines at ht
  split_ifs at ht with hfull
  · cases ht
  · have hafter := (mem_scanEvents.mp hu).2
    obtain ⟨l, hl⟩ : ∃ l, F.getLast? = some l :=
      ⟨_, List.getLast?_eq_some_getLast (ne_nil_of_mem ht)⟩
    rw [Claim.scanFrom, if_neg hfull, h.settled, hl, map_some, after_some] at hafter
    exact lt_of_le_of_lt (le_getLast h.sorted ht hl) hafter

lemma nil_of_fullReplay (hfull : (readClaim db.settlement).fullReplay = true)
    (hnil : scanEvents db.lines (readClaim db.settlement).scanFrom = []) : F = [] := by
  rw [eq_nil_iff_forall_not_mem]
  intro t ht
  have : t ∈ scanEvents db.lines (readClaim db.settlement).scanFrom := by
    rw [mem_scanEvents, Claim.scanFrom, if_pos hfull]
    exact ⟨h.subset t ht, after_none _⟩
  rw [hnil] at this
  cases this

lemma opening : ∃ o,
    strictFold cfg.newestFirst [] ((resumedLines (readClaim db.settlement) F).map (·.toEvent)) =
      some o ∧ o.costings = resumedCostings (readClaim db.settlement) out ∧
    (if (readClaim db.settlement).fullReplay then [] else hydrateLayers db.lines db.layers) =
      o.layers := by
  unfold resumedLines resumedCostings
  split_ifs with hfull
  · exact ⟨⟨[], []⟩, rfl, rfl, rfl⟩
  · exact ⟨out, h.fold, rfl, by rw [h.layers, hydrateLayers_eq h.ids h.sorted h.subset h.fold]⟩

section Scan

variable (hscan : pass.scanned = scanEvents db.lines (readClaim db.settlement).scanFrom)

include hscan

lemma nodup_scanned :
    (pass.scanned.map (·.id)).Nodup := by
  rw [hscan]
  exact nodup_ids_of_pairwise h.ids (pairwise_scanEvents h.ids _)
    fun t ht => (mem_scanEvents.mp ht).1

lemma pass_settled :
    pass.frontier (readClaim db.settlement) =
      ((resumedLines (readClaim db.settlement) F ++ pass.scanned).getLast?).map (·.pos) := by
  rw [PassFold.frontier, List.getLast?_append]
  rcases hl : pass.scanned.getLast? with _ | l
  · simp only [map_none, none_or, h.settled]
    unfold resumedLines
    split_ifs with hfull
    · rw [h.nil_of_fullReplay hfull (hscan ▸ List.getLast?_eq_none_iff.mp hl)]
    · rfl
  · simp

lemma extended_sorted :
    (resumedLines (readClaim db.settlement) F ++ pass.scanned).Pairwise (·.pos < ·.pos) := by
  rw [pairwise_append]
  refine ⟨?_, hscan ▸ pairwise_scanEvents h.ids _, fun t ht u hu => h.lt_scanned ht (hscan ▸ hu)⟩
  unfold resumedLines
  split_ifs
  · exact List.Pairwise.nil
  · exact h.sorted

lemma extended_subset :
    ∀ t ∈ resumedLines (readClaim db.settlement) F ++ pass.scanned, t ∈ db.lines := by
  intro t ht
  rcases mem_append.mp ht with ht | ht
  · unfold resumedLines at ht
    split_ifs at ht
    · cases ht
    · exact h.subset t ht
  · exact (mem_scanEvents.mp (hscan ▸ ht)).1

end Scan

variable (hpass : foldPass cfg (readClaim db.settlement) db = some pass)

include hpass

lemma pending_spec :
    (pass.pending.map (·.costing.depletionTrxLineId)).Nodup ∧
      (∀ p ∈ pass.pending, p.costing ∈ pass.out.costings ∧
        pendingOf db.costSettlements pass.scanned p.costing = some p) ∧
      ∀ c ∈ pass.out.costings, pendingOf db.costSettlements pass.scanned c = none →
        V32.currentCost db.costSettlements c.depletionTrxLineId = some c.authoritativeUnitCost := by
  obtain ⟨hscan, hfold, hpend⟩ := foldPass_eq_some hpass
  obtain ⟨heq, hold⟩ := pendingSet_eq_some hpend
  have hnodup := nodup_costings hfold (h.nodup_scanned hscan)
  refine ⟨heq ▸ nodup_pending hnodup, fun p hp => ?_, hold⟩
  rw [heq, mem_filterMap] at hp
  obtain ⟨c, hc, hcp⟩ := hp
  rw [(pendingOf_eq_some hcp).1]
  exact ⟨hc, hcp⟩

lemma line_of_pending (hp : p ∈ pass.pending)
    (ht : t ∈ db.lines) (hd : p.costing.depletionTrxLineId = t.id) :
    p.lineType = t.lineType ∧ p.postedAt = t.postedAt ∧ p.costing.qty = -t.qty ∧
      p.priorUnitCost = (V32.currentCost db.costSettlements t.id).getD t.unitCost ∧
      p.delta = (p.costing.authoritativeUnitCost - p.priorUnitCost) * -t.qty := by
  obtain ⟨hscan, hfold, -⟩ := foldPass_eq_some hpass
  obtain ⟨hc, hof⟩ := (h.pending_spec hpass).2.1 p hp
  obtain ⟨-, hprior, hdelta, line, hline, hlid, hlt, hlat⟩ := pendingOf_eq_some hof
  obtain ⟨u, hu, huid, -, huqty, huobs⟩ := exists_line_of_mem_costings hfold hc
  have hmem : ∀ v ∈ pass.scanned, v.id = p.costing.depletionTrxLineId → v = t := fun v hv hvid =>
    inj_on_of_nodup_map h.ids (mem_scanEvents.mp (hscan ▸ hv)).1 ht (hvid.trans hd)
  obtain rfl := hmem line hline hlid
  obtain rfl := hmem u hu huid
  rw [hd, huobs] at hprior
  exact ⟨hlt, hlat, huqty, hprior, by rw [hdelta, huqty]⟩

/-- What a pass does about each costing of the extended fold: it keeps one of the checkpoint, writes
a pending one, or finds the current cost right already. -/
lemma pass_cases (hc : c ∈ resumedCostings (readClaim db.settlement) out ++ pass.out.costings) :
    (c ∈ out.costings ∧ ∀ p ∈ pass.pending, p.costing.depletionTrxLineId ≠ c.depletionTrxLineId) ∨
    (∃ p ∈ pass.pending, p.costing = c) ∨
    (c ∈ pass.out.costings ∧
      (∀ p ∈ pass.pending, p.costing.depletionTrxLineId ≠ c.depletionTrxLineId) ∧
      V32.currentCost db.costSettlements c.depletionTrxLineId = some c.authoritativeUnitCost) := by
  obtain ⟨hscan, hfold, hset⟩ := foldPass_eq_some hpass
  obtain ⟨-, hpend, hold⟩ := h.pending_spec hpass
  have hnodup := nodup_costings hfold (h.nodup_scanned hscan)
  rcases mem_append.mp hc with hc | hc
  -- A costing kept from the checkpoint is of a line below the scan, so it is not pending.
  · unfold resumedCostings at hc
    split_ifs at hc with hfull
    · cases hc
    · refine .inl ⟨hc, fun p hp hd => ?_⟩
      obtain ⟨t, ht, hid, -⟩ := exists_line_of_mem_costings h.fold hc
      obtain ⟨u, hu, huid, -⟩ := exists_line_of_mem_costings hfold (hpend p hp).1
      have hlt := h.lt_scanned (t := t) (u := u) (by rw [resumedLines, if_neg hfull]; exact ht)
        (hscan ▸ hu)
      have htu : t = u := inj_on_of_nodup_map h.ids (h.subset t ht)
        (mem_scanEvents.mp (hscan ▸ hu)).1 (by rw [hid, huid, hd])
      rw [htu] at hlt
      exact absurd hlt (lt_irrefl _)
  · right
    rcases hp : pendingOf db.costSettlements pass.scanned c with _ | p
    · refine .inr ⟨hc, fun p hp' hd => ?_, hold c hc hp⟩
      have hpc := inj_on_of_nodup_map hnodup (hpend p hp').1 hc hd
      rw [← hpc, (hpend p hp').2] at hp
      cases hp
    · refine .inl ⟨p, ?_, (pendingOf_eq_some hp).1⟩
      rw [(pendingSet_eq_some hset).1, mem_filterMap]
      exact ⟨c, hc, hp⟩

lemma pass_costs (hw : CostsWritten db pass db')
    (hc : c ∈ resumedCostings (readClaim db.settlement) out ++ pass.out.costings) :
    V32.currentCost db'.costSettlements c.depletionTrxLineId = some c.authoritativeUnitCost := by
  have hn := (h.pending_spec hpass).1
  rcases hw.currentCost hn h.generations c.depletionTrxLineId with ⟨heq, hne⟩ | ⟨p, hp, hd, heq⟩
  · rw [heq]
    rcases h.pass_cases hpass hc with ⟨hc, -⟩ | ⟨p, hp, rfl⟩ | ⟨-, -, hcur⟩
    · exact h.costs c hc
    · exact absurd rfl (hne p hp)
    · exact hcur
  · rcases h.pass_cases hpass hc with ⟨-, hne⟩ | ⟨q, hq, rfl⟩ | ⟨-, hne, -⟩
    · exact absurd hd (hne p hp)
    · rw [heq, inj_on_of_nodup_map hn hp hq hd]
    · exact absurd hd (hne p hp)

lemma frontier_of_pending (hne : pass.pending ≠ []) :
    (pass.frontier (readClaim db.settlement)).isSome := by
  obtain ⟨-, hfold, -⟩ := foldPass_eq_some hpass
  obtain ⟨p, hp⟩ := exists_mem_of_ne_nil _ hne
  obtain ⟨t, ht, -⟩ := exists_line_of_mem_costings hfold ((h.pending_spec hpass).2.1 p hp).1
  unfold PassFold.frontier
  rw [List.getLast?_eq_some_getLast (ne_nil_of_mem ht)]
  rfl

lemma pass_generation
    (hsettlement : db'.settlement = pass.settlement (readClaim db.settlement) db.settlement) :
    (readClaim db.settlement).generation ≤ (readClaim db'.settlement).generation ∧
      (pass.pending ≠ [] →
        pass.generation (readClaim db.settlement) ≤ (readClaim db'.settlement).generation) := by
  have hle := pass.le_generation (readClaim db.settlement)
  have hpending := h.frontier_of_pending hpass
  rw [hsettlement]
  unfold PassFold.settlement
  rcases hf : pass.frontier (readClaim db.settlement) with _ | f
  · refine ⟨le_refl _, fun hne => ?_⟩
    have hsome := hpending hne
    rw [hf] at hsome
    cases hsome
  · rcases hs : db.settlement with _ | s
    · rw [hs] at hle
      exact ⟨hle, fun _ => le_refl _⟩
    · exact ⟨le_max_left _ _, fun _ => le_max_right _ _⟩

lemma passCosted (hcosts : CostsWritten db pass db') (hlines : db'.lines = db.lines)
    (hlayers : pass.layers db.layers = some db'.layers)
    (hsettlement : db'.settlement = pass.settlement (readClaim db.settlement) db.settlement) :
    PassCosted db pass db' where
  ids := hlines ▸ h.ids
  subset t ht := hlines ▸ ht
  layers := hlayers
  settled := by
    rw [hsettlement]
    unfold PassFold.settlement
    rcases hf : pass.frontier (readClaim db.settlement) with _ | f
    · exact (or_eq_none_iff.mp hf).2
    · cases db.settlement <;> rfl
  generation := (h.pass_generation hpass hsettlement).1
  generation_written := (h.pass_generation hpass hsettlement).2
  costs := hcosts

lemma costed (hw : PassWritten cfg periods db pass db') : PassCosted db pass db' :=
  h.passCosted hpass hw.costSettlements hw.lines hw.layers hw.settlement

lemma extended_fold :
    strictFold cfg.newestFirst []
        ((resumedLines (readClaim db.settlement) F ++ pass.scanned).map (·.toEvent)) =
      some ⟨resumedCostings (readClaim db.settlement) out ++ pass.out.costings,
        pass.out.layers⟩ := by
  obtain ⟨-, hfold, -⟩ := foldPass_eq_some hpass
  obtain ⟨o, ho, hoc, hol⟩ := h.opening
  rw [map_append, ← hoc]
  exact strictFold_append_eq_some ho (hol ▸ hfold)

theorem extend (hw : PassCosted db pass db') :
    Checkpoint cfg db' (resumedLines (readClaim db.settlement) F ++ pass.scanned)
      ⟨resumedCostings (readClaim db.settlement) out ++ pass.out.costings, pass.out.layers⟩ := by
  obtain ⟨hscan, hfold, -⟩ := foldPass_eq_some hpass
  obtain ⟨o, ho, -, hol⟩ := h.opening
  rw [hol] at hfold
  constructor
  case ids => exact hw.ids
  case sorted => exact h.extended_sorted hscan
  case subset => exact fun t ht => hw.subset t (h.extended_subset hscan t ht)
  case fold => exact h.extended_fold hpass
  case layers =>
    have hlayers := hw.layers
    unfold PassFold.layers at hlayers
    split_ifs at hlayers with hempty
    -- Nothing scanned: the layers stay, and so does the fold.
    · have hnil := List.isEmpty_iff.mp hempty
      rw [hnil] at hfold
      have hout : pass.out = ⟨[], o.layers⟩ := (some.inj hfold).symm
      rw [← some.inj hlayers, h.layers, hout]
      have hsame : resumedLines (readClaim db.settlement) F = F := by
        unfold resumedLines
        split_ifs with hfull
        · exact (h.nil_of_fullReplay hfull (hscan ▸ hnil)).symm
        · rfl
      rw [hsame, h.fold] at ho
      rw [some.inj ho]
    · exact materializeLayers_eq_some hlayers
  case settled => exact hw.settled.trans (h.pass_settled hscan)
  case costs => exact fun c hc => h.pass_costs hpass hw.costs hc
  case generations =>
    obtain ⟨rows, hrows, hall⟩ := hw.costs
    intro r hr
    rw [hrows, mem_append] at hr
    rcases hr with hr | hr
    · exact (h.generations r hr).trans hw.generation
    · obtain ⟨p, hp, hs⟩ := exists_of_forall₂_of_mem hall hr
      rw [hs.generation]
      exact hw.generation_written (ne_nil_of_mem (mem_pending_split.mp hp))
  case rows =>
    obtain ⟨rows, hrows, hall⟩ := hw.costs
    intro r hr
    rw [hrows, mem_append] at hr
    rcases hr with hr | hr
    · obtain ⟨t, ht, hid⟩ := h.rows r hr
      refine ⟨t, mem_append.mpr ?_, hid⟩
      by_cases hfull : (readClaim db.settlement).fullReplay
      · right
        rw [hscan, mem_scanEvents, Claim.scanFrom, if_pos hfull]
        exact ⟨h.subset t ht, after_none _⟩
      · left
        rw [resumedLines, if_neg hfull]
        exact ht
    · obtain ⟨p, hp, hs⟩ := exists_of_forall₂_of_mem hall hr
      obtain ⟨t, ht, hid, -⟩ := exists_line_of_mem_costings (hol ▸ hfold)
        ((h.pending_spec hpass).2.1 p (mem_pending_split.mp hp)).1
      exact ⟨t, mem_append_right _ ht, by rw [hs.depletion, hid]⟩

end Checkpoint

/-! ### Coverage -/

/-- Every delivered line outside `F` has the pool queued, and is above the frontier or has a recost
floor set. -/
structure Covers (s : Pool) (F : List TrxLine) : Prop where
  delivered : ∀ id ∈ s.delivered, ∃ t ∈ s.db.lines, t.id = id
  uncovered : ∀ t ∈ s.db.lines, t ∉ F → t.id ∈ s.delivered → s.db.queued = true ∧
    ((readClaim s.db.settlement).floor.isSome ∨ After (readClaim s.db.settlement).settled t.pos)

lemma mem_physicalIds : id ∈ physicalIds batch ↔ ∃ at', TrxLineEvent.physical id at' ∈ batch := by
  unfold physicalIds
  rw [mem_filterMap]
  constructor
  · rintro ⟨e, he, hid⟩
    cases e with
    | physical i at' =>
      cases hid
      exact ⟨at', he⟩
    | costAdjustment => cases hid
  · rintro ⟨at', he⟩
    exact ⟨_, he, rfl⟩

@[simp] lemma readClaim_map_feedFloor (batch : List TrxLineEvent) (row : Option PoolSettlement) :
    (readClaim (row.map (feedFloor batch))).settled = (readClaim row).settled ∧
      (readClaim (row.map (feedFloor batch))).generation = (readClaim row).generation := by
  rcases row with _ | s
  · exact ⟨rfl, rfl⟩
  · simp only [map_some, feedFloor]
    rcases batchMin batch with _ | m
    · exact ⟨rfl, rfl⟩
    · simp only
      split_ifs <;> exact ⟨rfl, rfl⟩

lemma feedFloor_isSome (h : (readClaim row).floor.isSome) :
    (readClaim (row.map (feedFloor batch))).floor.isSome := by
  rcases row with _ | s
  · simp [readClaim] at h
  · simp only [map_some, feedFloor]
    rcases batchMin batch with _ | m
    · exact h
    · simp only
      split_ifs
      · rfl
      · exact h

lemma feedFloor_backdated {at' : ℤ} {f : Pos} (he : TrxLineEvent.physical id at' ∈ batch)
    (hf : (readClaim row).settled = some f) (hlt : (toLex (at', id) : Pos) < f) :
    (readClaim (row.map (feedFloor batch))).floor.isSome := by
  rcases row with _ | s
  · cases hf
  have hpos : (toLex (at', id) : Pos) ∈ batch.filterMap (·.pos?) :=
    mem_filterMap.mpr ⟨_, he, rfl⟩
  obtain ⟨m, hm⟩ : ∃ m, batchMin batch = some m := by
    rw [← isSome_iff_exists, batchMin, List.isSome_min?_iff]
    exact ne_nil_of_mem hpos
  have hle : m ≤ toLex (at', id) := (List.min?_eq_some_iff.mp hm).2 _ hpos
  simp only [map_some, feedFloor, hm]
  split_ifs with hguard
  · rfl
  · rcases hfl : s.recostFloor with _ | g
    · refine absurd ⟨⟨f, hf, lt_of_le_of_lt hle hlt⟩, ?_⟩ hguard
      rw [hfl]
      simp
    · show s.recostFloor.isSome
      rw [hfl]
      rfl

/-! ### Every operation keeps them -/

lemma Checkpoint.submit (h : Checkpoint cfg db F out) (hfresh : ∀ u ∈ db.lines, u.id ≠ t.id) :
    Checkpoint cfg { db with aggregate := some a, lines := db.lines ++ [t] } F out := by
  refine h.congr ?_ (fun u hu => mem_append_left _ hu) rfl rfl rfl rfl
  rw [map_append, nodup_append]
  refine ⟨h.ids, by simp, ?_⟩
  intro i hi j hj
  obtain ⟨u, hu, rfl⟩ := List.mem_map.mp hi
  rw [map_singleton, mem_singleton] at hj
  rw [hj]
  exact hfresh u hu

lemma Checkpoint.feed (h : Checkpoint cfg db F out) (batch : List TrxLineEvent) :
    Checkpoint cfg (feedApply cfg batch db) F out := by
  obtain ⟨hsettled, hgen⟩ := readClaim_map_feedFloor batch db.settlement
  exact h.congr h.ids (fun _ ht => ht) rfl rfl hsettled hgen

lemma Checkpoint.escalate (h : Checkpoint cfg db F out) (e : Escalation) :
    Checkpoint cfg (recordEscalation db e) F out :=
  h.congr h.ids (fun _ ht => ht) rfl rfl rfl rfl

lemma Covers.submit (h : Covers s F) (hfresh : ∀ u ∈ s.db.lines, u.id ≠ t.id) :
    Covers { s with db := { s.db with aggregate := some a, lines := s.db.lines ++ [t] } } F := by
  constructor
  · intro id hid
    obtain ⟨u, hu, huid⟩ := h.delivered id hid
    exact ⟨u, mem_append_left _ hu, huid⟩
  · intro u hu hF hdel
    rcases mem_append.mp hu with hu | hu
    · exact h.uncovered u hu hF hdel
    · rw [mem_singleton.mp hu] at hdel
      obtain ⟨v, hv, hvid⟩ := h.delivered _ hdel
      exact absurd hvid (hfresh v hv)

/-- A batch leaves none of its lines behind the frontier without a floor, unless it is covered. -/
lemma Checkpoint.feed_cases (h : Checkpoint cfg db F out)
    (hcom : ∀ id at', .physical id at' ∈ batch → Committed db (.physical id at'))
    (ht : t ∈ db.lines) (hid : t.id ∈ physicalIds batch) :
    t ∈ F ∨ (readClaim (db.settlement.map (feedFloor batch))).floor.isSome ∨
      After (readClaim db.settlement).settled t.pos := by
  obtain ⟨at', he⟩ := mem_physicalIds.mp hid
  have hat : at' = t.postedAt := by
    obtain ⟨u, hu, huid, huat⟩ := hcom _ _ he
    rw [← huat, inj_on_of_nodup_map h.ids hu ht huid]
  rcases hf : (readClaim db.settlement).settled with _ | f
  · exact .inr (.inr (after_none _))
  -- Behind the frontier the floor moves; at the frontier the line is the last one covered.
  rcases lt_trichotomy t.pos f with hlt | heq | hgt
  · exact .inr (.inl (feedFloor_backdated he hf (hat ▸ hlt)))
  · rw [h.settled, map_eq_some_iff] at hf
    obtain ⟨l, hl, hlpos⟩ := hf
    have hlF := mem_of_getLast? hl
    have hidl := TrxLine.id_eq_of_pos_eq (heq.trans hlpos.symm)
    exact .inl (inj_on_of_nodup_map h.ids ht (h.subset l hlF) hidl ▸ hlF)
  · exact .inr (.inr (after_some.mpr hgt))

lemma Covers.feed (h : Covers s F) (hck : Checkpoint cfg s.db F out)
    (hcom : ∀ id at', .physical id at' ∈ batch → Committed s.db (.physical id at')) :
    Covers { db := feedApply cfg batch s.db, delivered := s.delivered ++ physicalIds batch } F := by
  obtain ⟨hsettled, -⟩ := readClaim_map_feedFloor batch s.db.settlement
  constructor
  · intro id hid
    rcases mem_append.mp hid with hid | hid
    · exact h.delivered id hid
    · obtain ⟨at', he⟩ := mem_physicalIds.mp hid
      obtain ⟨t, ht, htid, -⟩ := hcom _ _ he
      exact ⟨t, ht, htid⟩
  · intro t ht hF hdel
    rw [show (readClaim (feedApply cfg batch s.db).settlement).settled = _ from hsettled]
    rcases mem_append.mp hdel with hdel | hdel
    · obtain ⟨hq, hpos⟩ := h.uncovered t ht hF hdel
      exact ⟨by simp [feedApply, hq], hpos.imp feedFloor_isSome id⟩
    · obtain ⟨at', he⟩ := mem_physicalIds.mp hdel
      exact ⟨by simp [feedApply, ne_nil_of_mem he], (hck.feed_cases hcom ht hdel).resolve_left hF⟩

lemma Covers.delivered_covered (h : Covers s F) (ht : t ∈ s.db.lines) (hdel : t.id ∈ s.delivered) :
    t ∈ resumedLines (readClaim s.db.settlement) F ++
      scanEvents s.db.lines (readClaim s.db.settlement).scanFrom := by
  rw [mem_append, mem_scanEvents]
  by_cases hfull : (readClaim s.db.settlement).fullReplay
  · right
    rw [Claim.scanFrom, if_pos hfull]
    exact ⟨ht, after_none _⟩
  · rw [resumedLines, if_neg hfull, Claim.scanFrom, if_neg hfull]
    by_cases hF : t ∈ F
    · exact .inl hF
    · right
      refine ⟨ht, (h.uncovered t ht hF hdel).2.resolve_left fun hfloor => hfull ?_⟩
      unfold Claim.fullReplay
      rw [hfloor, Bool.true_or]

lemma Covers.pass {pass : PassFold} (h : Covers s F)
    (hpass : foldPass cfg (readClaim s.db.settlement) s.db = some pass)
    (hw : PassWritten cfg periods s.db pass db') :
    Covers { s with db := db' } (resumedLines (readClaim s.db.settlement) F ++ pass.scanned) := by
  constructor
  · rw [hw.lines]
    exact h.delivered
  · intro t ht hF hdel
    rw [(foldPass_eq_some hpass).1] at hF
    exact absurd (h.delivered_covered (hw.lines ▸ ht) hdel) hF

/-- A property of the tables and the fold they hold that every operation keeps, as long as it meets
`C`. -/
structure Preserved (cfg : PoolCfg) (C : Pool → PoolOp → Prop)
    (Q : PoolDb → StrictFoldOutput → Prop) : Prop where
  empty : Q {} ⟨[], []⟩
  submit : ∀ {s r t a F out}, C s (.submit r) → Checkpoint cfg s.db F out →
    (∀ u ∈ s.db.lines, u.id ≠ t.id) → Appends s.db t a → Pool.step cfg s (.submit r) =
      { s with db := { s.db with aggregate := some a, lines := s.db.lines ++ [t] } } →
    Q s.db out → Q { s.db with aggregate := some a, lines := s.db.lines ++ [t] } out
  feed : ∀ {db out} batch, Q db out → Q (feedApply cfg batch db) out
  escalate : ∀ {db out} e, Q db out → Q (recordEscalation db e) out
  pass : ∀ {s periods db' F out pass}, C s (.pass periods) → Checkpoint cfg s.db F out →
    foldPass cfg (readClaim s.db.settlement) s.db = some pass →
    recalcStep cfg periods s.db = some db' → PassWritten cfg periods s.db pass db' → Q s.db out →
    Q db' ⟨resumedCostings (readClaim s.db.settlement) out ++ pass.out.costings, pass.out.layers⟩

def Pool.Inv (cfg : PoolCfg) (Q : PoolDb → StrictFoldOutput → Prop) (s : Pool) : Prop :=
  ∃ F out, Checkpoint cfg s.db F out ∧ Covers s F ∧ Q s.db out

/-- The checkpoint, its coverage and any preserved property survive every operation. -/
lemma Pool.Inv.step (hQ : Preserved cfg C Q) {op : PoolOp} (h : s.Inv cfg Q) (hC : C s op) :
    (s.step cfg op).Inv cfg Q := by
  obtain ⟨F, out, hck, hcov, hq⟩ := h
  rcases s.step_cases cfg op with heq | ⟨r, t, a, rfl, -, -, hfresh, happ, heq⟩ |
    ⟨batch, -, hcom, heq⟩ | ⟨periods, db', rfl, hrec, heq⟩
  · rw [heq]
    exact ⟨F, out, hck, hcov, hq⟩
  · have hq' := hQ.submit hC hck hfresh happ heq hq
    rw [heq]
    exact ⟨F, out, hck.submit hfresh, hcov.submit hfresh, hq'⟩
  · rw [heq]
    exact ⟨F, out, hck.feed batch, hcov.feed hck fun _ _ he => hcom _ he, hQ.feed batch hq⟩
  · rw [heq]
    obtain ⟨-, -, pass, hpass, ⟨e, -, rfl⟩ | ⟨-, hw⟩⟩ := recalcStep_cases hck.ids hrec
    · exact ⟨F, out, hck.escalate e, ⟨hcov.delivered, hcov.uncovered⟩, hQ.escalate e hq⟩
    · exact ⟨_, _, hck.extend hpass (hck.costed hpass hw), hcov.pass hpass hw,
        hQ.pass hC hck hpass hrec hw hq⟩

/-- **The invariant holds after every run** whose operations meet the condition. -/
theorem Pool.run_inv (hQ : Preserved cfg C Q) (ops : List PoolOp)
    (hC : Pool.Throughout cfg C {} ops) : (Pool.run cfg ops).Inv cfg Q :=
  Machine.run_induction (fun _ _ h hC => h.step hQ hC)
    ⟨[], _, Checkpoint.empty cfg, ⟨by simp, by simp⟩, hQ.empty⟩ ops hC

lemma Checkpoint.eq_sortLines (h : Checkpoint cfg db F out) (hall : ∀ t ∈ db.lines, t ∈ F) :
    F = sortLines db.lines := by
  refine eq_of_mem_iff h.sorted (pairwise_sortLines h.ids) fun t => ?_
  rw [sortLines, mem_sortBy]
  exact ⟨h.subset t, hall t⟩

lemma Pool.AtRest.checkpoint (hrest : s.AtRest) (h : s.Inv cfg Q) :
    ∃ out, Checkpoint cfg s.db (sortLines s.db.lines) out ∧ Q s.db out := by
  obtain ⟨F, out, hck, hcov, hq⟩ := h
  have hall : ∀ t ∈ s.db.lines, t ∈ F := by
    intro t ht
    by_contra hF
    have := (hcov.uncovered t ht hF (hrest.delivered t ht)).1
    rw [hrest.not_queued] at this
    cases this
  exact ⟨out, hck.eq_sortLines hall ▸ hck, hq⟩

lemma preserved_trivial (cfg : PoolCfg) : Preserved cfg (fun _ _ => True) fun _ _ => True := by
  constructor <;> intros <;> trivial

/-- **The engine equals the full-opening strict replay.** After any sequence of submissions, feed
batches and passes that ends at rest, the current costs, the open layers and the frontier are those
of the strict fold over all physical lines in business order, from an empty opening. -/
theorem Pool.run_atRest_eq_strictFold (cfg : PoolCfg) (ops : List PoolOp)
    (hrest : (Pool.run cfg ops).AtRest) :
    ∃ out, strictFold cfg.newestFirst []
        ((sortLines (Pool.run cfg ops).db.lines).map (·.toEvent)) = some out ∧
      (∀ t ∈ (Pool.run cfg ops).db.lines, t.qty < 0 → ∃ c ∈ out.costings,
        c.depletionTrxLineId = t.id ∧
        currentCost (Pool.run cfg ops).db.costSettlements t.id = some c.authoritativeUnitCost) ∧
      (Pool.run cfg ops).db.layers = out.layers.map (·.toRow) ∧
      (Pool.run cfg ops).db.settlement.bind (·.settledThrough) =
        (sortLines (Pool.run cfg ops).db.lines).getLast?.map (·.pos) := by
  obtain ⟨out, hck, -⟩ := hrest.checkpoint
    (Pool.run_inv (preserved_trivial cfg) ops
      (Machine.throughout_of_forall (fun _ _ => trivial) _ _))
  refine ⟨out, hck.fold, fun t ht hneg => ?_, hck.layers, ?_⟩
  · have hmem : t ∈ sortLines (Pool.run cfg ops).db.lines := mem_sortBy.mpr ht
    obtain ⟨c, hc, hid⟩ := exists_costing_of_mem_lines hck.fold hmem hneg
    exact ⟨c, hc, hid, hid ▸ hck.costs c hc⟩
  · rw [← hck.settled]
    cases (Pool.run cfg ops).db.settlement <;> rfl

/-! ### A run with a backdated receipt -/

/-- A pool whose operations all use the accounts 1 (inventory) and 2 (contra). -/
def sampleCfg (newestFirst : Bool) : PoolCfg where
  newestFirst := newestFirst
  accounts := some ⟨(1, 2), (1, 2), (1, 2), (1, 2), (1, 2), (1, 2), none⟩
  backpressure := .initial

/-- Ten units received and depleted, fed and settled; then ten units, at the same cost, received
with an earlier date, fed and settled. -/
def backdatedReceipt : List PoolOp :=
  [.submit ⟨1, 2, .poReceiptLine, 10, 100, none, true⟩,
    .submit ⟨2, 3, .woBackflush, -10, 0, none, true⟩,
    .feed [.physical 1 2, .physical 2 3], .pass [],
    .submit ⟨3, 1, .poReceiptLine, 10, 100, none, true⟩,
    .feed [.physical 3 1], .pass []]

lemma backdatedReceipt_atRest : (Pool.run (sampleCfg false) backdatedReceipt).AtRest := by
  decide

/-- The run with a backdated receipt ends at rest, its second pass a full replay. -/
theorem Pool.run_backdatedReceipt_eq_strictFold :
    (Pool.run (sampleCfg false) backdatedReceipt).AtRest ∧
    ∃ out, strictFold false [] ((sortLines
        (Pool.run (sampleCfg false) backdatedReceipt).db.lines).map (·.toEvent)) = some out ∧
      (Pool.run (sampleCfg false) backdatedReceipt).db.layers = out.layers.map (·.toRow) := by
  obtain ⟨out, hfold, -, hlayers, -⟩ :=
    Pool.run_atRest_eq_strictFold (sampleCfg false) backdatedReceipt backdatedReceipt_atRest
  exact ⟨backdatedReceipt_atRest, out, hfold, hlayers⟩

end Acct.V32
