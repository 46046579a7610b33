import Acct.V32.Db.Equiv.Period
import Acct.V32.Equiv.Replay
import Acct.V32.Ledger

/-!
# A sound close never halts the engine

Below the closed frontier nothing moves: the period guard keeps new lines out, and a close has
drained every pool with a line there, so its checkpoint covers all frozen lines (`SoundAt`). The
strict fold of a prefix does not depend on later lines, so any re-fold reproduces the costs of the
frozen depletions (`Checkpoint.refold_frozen`).
-/

namespace Acct.V32

open Table List Option

variable {c : DepletionCosting} {t : TrxLine} {F : List TrxLine} {out out' : StrictFoldOutput}
  {posting : Option ResiduePosting} {ids swept : List ℤ} {force : Bool}

/-! ### Re-folding below a boundary -/

/-- **Prefix stability.** If the checkpoint covers every line before an instant, a replay of all
lines costs the depletions before it as the checkpoint does. -/
theorem Checkpoint.refold_frozen {cfg : PoolCfg} {db : PoolDb} (h : Checkpoint cfg db F out) {f : ℤ}
    (hfrozen : ∀ t ∈ db.lines, t.postedAt < f → t ∈ F)
    (hfold : strictFold cfg.newestFirst [] ((sortLines db.lines).map (·.toEvent)) = some out')
    (hc : c ∈ out'.costings) (ht : t ∈ db.lines) (hid : t.id = c.depletionTrxLineId)
    (hlt : t.postedAt < f) : c ∈ out.costings := by
  have hdown : ∀ l : List TrxLine, l.Pairwise (·.pos < ·.pos) →
      l.Pairwise fun a b => b.postedAt < f → a.postedAt < f := by
    intro l hl
    refine hl.imp fun {a b} hab hb => lt_of_le_of_lt ?_ hb
    rcases Prod.Lex.lt_iff.mp hab with h1 | ⟨h1, -⟩
    · exact h1.le
    · exact h1.le
  have hsorted := pairwise_sortLines h.ids
  -- The two streams have the same lines before `f`, in the same order.
  have hprefix : (sortLines db.lines).filter (·.postedAt < f) = F.filter (·.postedAt < f) := by
    apply eq_of_mem_iff (hsorted.filter _) (h.sorted.filter _)
    intro u
    rw [mem_filter, mem_filter, sortLines, mem_sortBy]
    refine and_congr_left fun hu => ⟨fun hmem => hfrozen u hmem (of_decide_eq_true hu), h.subset u⟩
  have hF := h.fold
  rw [← filter_append_filter_not (hdown _ hsorted), map_append, hprefix] at hfold
  rw [← filter_append_filter_not (hdown _ h.sorted), map_append] at hF
  obtain ⟨o1, o2, ho1, ho2, rfl⟩ := exists_of_strictFold_append hfold
  obtain ⟨o3, o4, ho3, -, rfl⟩ := exists_of_strictFold_append hF
  rw [ho1] at ho3
  obtain rfl := some.inj ho3
  rcases mem_append.mp hc with hc | hc
  · exact mem_append_left _ hc
  -- A costing above the boundary is of a line above it.
  · obtain ⟨u, hu, huid, -⟩ := exists_line_of_mem_costings ho2 hc
    obtain ⟨hu, hnot⟩ := mem_filter.mp hu
    have heq := inj_on_of_nodup_map h.ids (mem_sortBy.mp hu) ht (huid.trans hid.symm)
    rw [heq] at hnot
    exact absurd hlt (of_decide_eq_true hnot)

/-! ### Pools that a close left sound -/

structure SoundAt (cfg : PoolCfg) (periods : List AccountingPeriod) (s : Pool) (F : List TrxLine)
    (out : StrictFoldOutput) : Prop where
  checkpoint : Checkpoint cfg s.db F out
  covers : Covers s F
  frozen : ∀ t ∈ s.db.lines, Frozen periods t.postedAt → t ∈ F
  running : s.db.escalation = none

namespace SoundAt

variable {cfg : PoolCfg} {periods : List AccountingPeriod} {s : Pool} {pass : PassFold}

section

variable (h : SoundAt cfg periods s F out)
include h

lemma refold_cost
    (hfold : strictFold cfg.newestFirst [] ((sortLines s.db.lines).map (·.toEvent)) = some out')
    (hc : c ∈ out'.costings) (ht : t ∈ s.db.lines) (hid : t.id = c.depletionTrxLineId)
    (hfrozen : Frozen periods t.postedAt) :
    currentCost s.db.costSettlements c.depletionTrxLineId = some c.authoritativeUnitCost := by
  obtain ⟨f, hf, hlt⟩ := hfrozen
  exact h.checkpoint.costs c
    (h.checkpoint.refold_frozen (fun u hu hlt => h.frozen u hu ⟨f, hf, hlt⟩) hfold hc ht hid hlt)

lemma pass_cost
    (hpass : foldPass cfg (readClaim s.db.settlement) s.db = some pass) (hc : c ∈ pass.out.costings)
    (ht : t ∈ s.db.lines) (hid : t.id = c.depletionTrxLineId)
    (hfrozen : Frozen periods t.postedAt) :
    currentCost s.db.costSettlements c.depletionTrxLineId = some c.authoritativeUnitCost := by
  obtain ⟨hscan, hfold, -⟩ := foldPass_eq_some hpass
  by_cases hfull : (readClaim s.db.settlement).fullReplay = true
  · have hall : pass.scanned = sortLines s.db.lines := by
      rw [hscan]
      apply eq_of_mem_iff (pairwise_scanEvents h.checkpoint.ids _)
        (pairwise_sortLines h.checkpoint.ids)
      intro u
      rw [mem_scanEvents, Claim.scanFrom, if_pos hfull, sortLines, mem_sortBy]
      exact and_iff_left (after_none _)
    rw [if_pos hfull, hall] at hfold
    exact h.refold_cost hfold hc ht hid hfrozen
  -- An incremental pass scans only above the checkpoint, where nothing is frozen.
  · obtain ⟨u, hu, huid, -⟩ := exists_line_of_mem_costings hfold hc
    have hmem := (mem_scanEvents.mp (hscan ▸ hu)).1
    obtain rfl := inj_on_of_nodup_map h.checkpoint.ids hmem ht (huid.trans hid.symm)
    have hres : u ∈ resumedLines (readClaim s.db.settlement) F := by
      rw [resumedLines, if_neg hfull]
      exact h.frozen u ht hfrozen
    exact absurd (h.checkpoint.lt_scanned hres (hscan ▸ hu)) (lt_irrefl _)

theorem not_frozen_of_pending
    (hpass : foldPass cfg (readClaim s.db.settlement) s.db = some pass) {p : Pending}
    (hp : p ∈ pass.pending) : ¬ Frozen periods p.postedAt := by
  intro hfrozen
  obtain ⟨hc, hof⟩ := (h.checkpoint.pending_spec hpass).2.1 p hp
  obtain ⟨-, -, -, t, ht, hid, -, hat⟩ := pendingOf_eq_some hof
  have hscan := (foldPass_eq_some hpass).1
  have hcost := h.pass_cost hpass hc (mem_scanEvents.mp (hscan ▸ ht)).1 hid (hat ▸ hfrozen)
  unfold pendingOf at hof
  rw [hcost] at hof
  simp at hof

lemma detect_eq_none (hpass : foldPass cfg (readClaim s.db.settlement) s.db = some pass) :
    detectClosedPeriodDivergence periods pass.pending = none :=
  detectClosedPeriodDivergence_eq_none.mpr fun _ hp => h.not_frozen_of_pending hpass hp

end

end SoundAt

def Pool.Sound (cfg : PoolCfg) (periods : List AccountingPeriod) (s : Pool) : Prop :=
  ∃ F out, SoundAt cfg periods s F out

namespace Pool.Sound

variable {cfg : PoolCfg} {periods : List AccountingPeriod} {s s' : Pool} {db' : PoolDb}

lemma empty (cfg : PoolCfg) (periods : List AccountingPeriod) :
    ({} : Pool).Sound cfg periods :=
  ⟨[], _, Checkpoint.empty cfg, ⟨by simp, by simp⟩, by simp, rfl⟩

section

variable (h : s.Sound cfg periods)
include h

lemma submit {r : SubmitLine}
    (hguard : r.qty = 0 ∨ PeriodGuardAdmits periods r.postedAt)
    (hex : s.exec? cfg (.submit r) = some s') : s'.Sound cfg periods := by
  obtain ⟨F, out, hs⟩ := h
  have hstep : s.step cfg (.submit r) = s' := Machine.step_of_some hex
  rcases s.step_cases cfg (.submit r) with heq | ⟨r', t, a, hr, -, hat, hfresh, -, heq⟩ |
    ⟨_, hop, -⟩ | ⟨_, _, hop, -⟩
  · rw [hstep] at heq
    exact heq ▸ ⟨F, out, hs⟩
  · obtain rfl : r = r' := PoolOp.submit.inj hr
    have hnew : ¬ Frozen periods t.postedAt := by
      rcases hguard with hzero | hguard
      -- A line of quantity zero would not have been written.
      · exfalso
        have hlines := congrArg (fun s => s.db.lines.length) (hstep.symm.trans heq)
        simp only [Pool.exec?, submitLine, hzero, if_true, map_some] at hex
        split_ifs at hex
        rw [← some.inj hex] at hlines
        simp at hlines
      · exact hat ▸ periodGuardAdmits_iff.mp hguard
    rw [← hstep, heq]
    refine ⟨F, out, hs.checkpoint.submit hfresh, hs.covers.submit hfresh, ?_, hs.running⟩
    intro u hu hfrozen
    rcases mem_append.mp hu with hu | hu
    · exact hs.frozen u hu hfrozen
    · exact absurd (mem_singleton.mp hu ▸ hfrozen) hnew
  · cases hop
  · cases hop

lemma feed {batch : List TrxLineEvent}
    (hcom : ∀ id at', .physical id at' ∈ batch → Committed s.db (.physical id at')) :
    Pool.Sound cfg periods
      { db := feedApply cfg batch s.db, delivered := s.delivered ++ physicalIds batch } := by
  obtain ⟨F, out, hs⟩ := h
  exact ⟨F, out, hs.checkpoint.feed batch, hs.covers.feed hs.checkpoint hcom, hs.frozen, hs.running⟩

lemma pass (hrec : recalcStep cfg periods s.db = some db') :
    Pool.Sound cfg periods { s with db := db' } ∧ db'.queued = false ∧ db'.lines = s.db.lines := by
  obtain ⟨F, out, hs⟩ := h
  obtain ⟨-, -, pass, hpass, ⟨e, hdet, -⟩ | ⟨-, hw⟩⟩ := recalcStep_cases hs.checkpoint.ids hrec
  · rw [hs.detect_eq_none hpass] at hdet
    cases hdet
  · refine ⟨⟨_, _, hs.checkpoint.extend hpass (hs.checkpoint.costed hpass hw),
      hs.covers.pass hpass hw, ?_,
      hw.escalation.trans hs.running⟩, hw.not_queued, hw.lines⟩
    -- What was covered stays covered, or everything was scanned again.
    intro t ht hfrozen
    rw [mem_append, (foldPass_eq_some hpass).1, mem_scanEvents]
    have hF := hs.frozen t (hw.lines ▸ ht) hfrozen
    unfold resumedLines Claim.scanFrom
    split_ifs
    · exact .inr ⟨hw.lines ▸ ht, after_none _⟩
    · exact .inl hF

lemma claimPool (hclaim : V32.claimPool s.db = some db') :
    Pool.Sound cfg periods { s with db := db' } ∧ db' = { s.db with queued := true } := by
  obtain ⟨F, out, hs⟩ := h
  have hdb : db' = { s.db with queued := true } := by
    unfold V32.claimPool at hclaim
    split_ifs at hclaim
    exact (some.inj hclaim).symm
  refine ⟨⟨F, out, ?_⟩, hdb⟩
  rw [hdb]
  exact ⟨hs.checkpoint.congr hs.checkpoint.ids (fun _ ht => ht) rfl rfl rfl rfl,
    ⟨hs.covers.delivered, fun t ht hF hdel => ⟨rfl, (hs.covers.uncovered t ht hF hdel).2⟩⟩,
    hs.frozen, hs.running⟩

lemma drain {passes : ℕ}
    (hdrain : drainPoolToHead cfg periods passes s.db = some db') :
    Pool.Sound cfg periods { s with db := db' } ∧ db'.queued = false ∧ db'.lines = s.db.lines := by
  cases passes with
  | zero => cases hdrain
  | succ passes =>
    simp only [drainPoolToHead, bind_eq_bind, bind_eq_some_iff] at hdrain
    obtain ⟨db1, hclaim, db2, hrun, hret⟩ := hdrain
    obtain ⟨hs1, rfl⟩ := h.claimPool hclaim
    have hrec : recalcStep cfg periods { s.db with queued := true } = some db2 := by
      obtain ⟨F, out, hs⟩ := h
      rw [recalcStep, if_pos ⟨rfl, hs.running⟩]
      exact hrun
    obtain ⟨hs2, hclean, hlines⟩ := hs1.pass hrec
    rw [hclean] at hret
    simp only [Bool.not_false, Bool.or_true, if_true] at hret
    obtain rfl := some.inj hret
    exact ⟨hs2, hclean, hlines⟩

lemma trueUp (htrue : V32.trueUp cfg s.db = some (db', posting)) :
    Pool.Sound cfg periods { s with db := db' } ∧ db'.queued = s.db.queued ∧
      db'.lines = s.db.lines := by
  obtain ⟨F, out, hs⟩ := h
  have hdb : ∃ agg n, db' = { s.db with aggregate := agg, nextPostingLineId := n } := by
    unfold V32.trueUp at htrue
    rcases hagg : s.db.aggregate with _ | a
    · rw [hagg] at htrue
      cases htrue
      exact ⟨none, s.db.nextPostingLineId, by rw [← hagg]⟩
    · simp only [hagg, bind_eq_bind, bind_eq_some_iff, Prod.exists] at htrue
      obtain ⟨agg, residue, -, htrue⟩ := htrue
      split_ifs at htrue
      · cases htrue
        exact ⟨_, _, rfl⟩
      · simp only [bind_eq_some_iff, Option.pure_def, some.injEq, Prod.mk.injEq] at htrue
        obtain ⟨_, -, rfl, -⟩ := htrue
        exact ⟨_, _, rfl⟩
  obtain ⟨agg, n, rfl⟩ := hdb
  exact ⟨⟨F, out, hs.checkpoint.congr hs.checkpoint.ids (fun _ ht => ht) rfl rfl rfl rfl,
    ⟨hs.covers.delivered, hs.covers.uncovered⟩, hs.frozen, hs.running⟩, rfl, rfl⟩

lemma sweep (hsweep : sweepPool cfg periods s.db = some (db', posting)) :
    Pool.Sound cfg periods { s with db := db' } ∧ db'.queued = false ∧ db'.lines = s.db.lines := by
  simp only [sweepPool, bind_eq_bind, bind_eq_some_iff] at hsweep
  obtain ⟨db1, hclaim, db2, hdrain, hret⟩ := hsweep
  obtain ⟨hs1, rfl⟩ := h.claimPool hclaim
  obtain ⟨hs2, hclean, hlines⟩ := hs1.drain hdrain
  split_ifs at hret
  obtain ⟨hs3, hqueue, hlines'⟩ := hs2.trueUp hret
  exact ⟨hs3, hqueue.trans hclean, hlines'.trans hlines⟩

/-- A clean pool whose lines have all been delivered is covered altogether, so it is sound whatever
else is frozen. -/
lemma refreeze {periods' : List AccountingPeriod}
    (hfrozen : ∀ t ∈ s.db.lines, Frozen periods' t.postedAt → Frozen periods t.postedAt ∨
      (s.db.queued = false ∧ t.id ∈ s.delivered)) : s.Sound cfg periods' := by
  obtain ⟨F, out, hs⟩ := h
  refine ⟨F, out, hs.checkpoint, hs.covers, fun t ht hf => ?_, hs.running⟩
  rcases hfrozen t ht hf with hf | ⟨hclean, hdel⟩
  · exact hs.frozen t ht hf
  · by_contra hF
    have hqueued := (hs.covers.uncovered t ht hF hdel).1
    rw [hclean] at hqueued
    cases hqueued

end

end Pool.Sound

/-! ### The ledger -/

namespace Ledger

variable {id endAt : ℤ} {gate : List GatePool} {period : AccountingPeriod}

structure Inv (cfg : LedgerCfg) (s : Ledger) : Prop where
  sound : ∀ id, (s.pools id).Sound (cfg.pool id) s.periods.rows
  outside : ∀ id, id ∉ cfg.poolIds → (s.pools id).db.lines = []

variable {cfg : LedgerCfg} {s s' : Ledger}

lemma Inv.setPool (h : s.Inv cfg) {pool : Pool} (hpool : pool.Sound (cfg.pool id) s.periods.rows)
    (hout : id ∉ cfg.poolIds → pool.db.lines = []) : (s.setPool id pool).Inv cfg := by
  have hpools : ∀ id', (s.setPool id pool).pools id' = if id' = id then pool else s.pools id' :=
    Function.update_apply s.pools id pool
  constructor
  · intro id'
    rw [hpools]
    split_ifs with hid
    · exact hid ▸ hpool
    · exact h.sound id'
  · intro id' hnot
    rw [hpools]
    split_ifs with hid
    · exact hout (hid ▸ hnot)
    · exact h.outside id' hnot

lemma Inv.submitLine (h : s.Inv cfg) {line : ℤ × SubmitLine}
    (hex : s.submitLine cfg line = some s') : s'.Inv cfg := by
  unfold Ledger.submitLine at hex
  split_ifs at hex with hguard
  obtain ⟨pool, hpool, rfl⟩ := map_eq_some_iff.mp hex
  exact h.setPool ((h.sound line.1).submit hguard.2 hpool) (absurd hguard.1)

lemma Inv.submit (h : s.Inv cfg) {lines : List (ℤ × SubmitLine)}
    (hex : s.submit cfg lines = some s') : s'.Inv cfg := by
  unfold Ledger.submit at hex
  induction lines generalizing s with
  | nil => exact some.inj hex ▸ h
  | cons line lines ih =>
    rw [foldlM_cons, bind_eq_bind, bind_eq_some_iff] at hex
    obtain ⟨s1, h1, hrest⟩ := hex
    exact ih (h.submitLine h1) hrest

lemma Inv.feed (h : s.Inv cfg) {batch : List (ℤ × TrxLineEvent)}
    (hex : s.feed cfg batch = some s') : s'.Inv cfg := by
  unfold Ledger.feed at hex
  split_ifs at hex with hcom
  rw [← some.inj hex]
  refine ⟨fun id => (h.sound id).feed fun e at' he => ?_, h.outside⟩
  obtain ⟨x, hx, hxe⟩ := List.mem_map.mp he
  obtain ⟨hx, hid⟩ := mem_filter.mp hx
  rw [decide_eq_true_eq] at hid
  rcases (hcom x hx).2 with hcommitted | ⟨hadj, -⟩
  · rw [hid, hxe] at hcommitted
    exact hcommitted
  · rw [hxe] at hadj
    cases hadj

lemma Inv.pass (h : s.Inv cfg) (hex : s.pass cfg id = some s') : s'.Inv cfg := by
  unfold Ledger.pass at hex
  split_ifs at hex with hid
  obtain ⟨pool, hpool, rfl⟩ := map_eq_some_iff.mp hex
  obtain ⟨db', hrec, rfl⟩ := map_eq_some_iff.mp hpool
  exact h.setPool ((h.sound id).pass hrec).1 (absurd hid)

/-! ### The sweeps of a close -/

/-- What sweeps leave: all pools sound, their lines and deliveries as they were, no pool that was
clean queued again. -/
structure Swept (cfg : LedgerCfg) (s s' : Ledger) : Prop where
  inv : s'.Inv cfg
  periods : s'.periods = s.periods
  lines : ∀ id, (s'.pools id).db.lines = (s.pools id).db.lines
  delivered : ∀ id, (s'.pools id).delivered = (s.pools id).delivered
  clean : ∀ id, (s.pools id).db.queued = false → (s'.pools id).db.queued = false

lemma Swept.refl (h : s.Inv cfg) : Swept cfg s s :=
  ⟨h, rfl, fun _ => rfl, fun _ => rfl, fun _ => id⟩

lemma Swept.trans {s'' : Ledger} (h : Swept cfg s s') (h' : Swept cfg s' s'') : Swept cfg s s'' :=
  ⟨h'.inv, h'.periods.trans h.periods, fun id => (h'.lines id).trans (h.lines id),
    fun id => (h'.delivered id).trans (h.delivered id), fun id => h'.clean id ∘ h.clean id⟩

lemma Inv.sweep (h : s.Inv cfg) (hex : s.sweep cfg id = some s') :
    Swept cfg s s' ∧ (s'.pools id).db.queued = false := by
  simp only [Ledger.sweep, bind_eq_bind, bind_eq_some_iff, Option.pure_def,
    some.injEq, Prod.exists] at hex
  obtain ⟨db', posting, hsweep, rfl⟩ := hex
  obtain ⟨hsound, hclean, hlines⟩ := (h.sound id).sweep hsweep
  have hinv := h.setPool hsound fun hid => hlines.trans (h.outside id hid)
  have hpools : ∀ id', ((s.setPool id { s.pools id with db := db' }).pools id') =
      if id' = id then { s.pools id with db := db' } else s.pools id' := fun id' =>
    Function.update_apply s.pools id _ id'
  refine ⟨⟨⟨hinv.sound, hinv.outside⟩, rfl, fun id' => ?_, fun id' => ?_, fun id' hq => ?_⟩, ?_⟩
  all_goals simp only [hpools]
  · split_ifs with hid
    · exact hid ▸ hlines
    · rfl
  · split_ifs with hid
    · rw [hid]
    · rfl
  · split_ifs with hid
    · exact hclean
    · exact hq
  · exact hclean

lemma Inv.sweepAll (h : s.Inv cfg) (hex : ids.foldlM (Ledger.sweep cfg) s = some s') :
    Swept cfg s s' ∧ ∀ id ∈ ids, (s'.pools id).db.queued = false := by
  induction ids generalizing s with
  | nil =>
    obtain rfl := some.inj hex
    exact ⟨.refl h, by simp⟩
  | cons id ids ih =>
    rw [foldlM_cons, bind_eq_bind, bind_eq_some_iff] at hex
    obtain ⟨s1, h1, hrest⟩ := hex
    obtain ⟨hswept, hclean⟩ := h.sweep h1
    obtain ⟨hswept', hclean'⟩ := ih hswept.inv hrest
    refine ⟨hswept.trans hswept', ?_⟩
    rintro id' (_ | ⟨_, hid'⟩)
    · exact hswept'.clean id hclean
    · exact hclean' id' hid'

lemma mem_gatePools (h : s.gatePools cfg endAt = some gate) (hid : id ∈ cfg.poolIds)
    (hlines : s.linesBefore id endAt ≠ []) :
    ∃ g ∈ gate, g.poolId = id := by
  have hmem : id ∈ cfg.poolIds.filter fun id => s.linesBefore id endAt ≠ [] :=
    mem_filter.mpr ⟨hid, by simpa using hlines⟩
  obtain ⟨g, hg, hgate⟩ := exists_of_forall₂_of_mem (forall₂_of_mapM_eq_some h) hmem
  refine ⟨g, hg, ?_⟩
  simp only [gatePool, bind_eq_bind, bind_eq_some_iff, Option.pure_def, some.injEq] at hgate
  obtain ⟨_, -, _, -, rfl⟩ := hgate
  rfl

lemma mem_swept (h : stragglers cfg endAt swept s = some ids) (hnil : ids = [])
    (hid : id ∈ cfg.poolIds) (hlines : s.linesBefore id endAt ≠ []) : id ∈ swept := by
  obtain ⟨gate, hgate, rfl⟩ := map_eq_some_iff.mp h
  obtain ⟨g, hg, rfl⟩ := mem_gatePools hgate hid hlines
  rw [map_eq_nil_iff, filter_eq_nil_iff] at hnil
  have := hnil g hg
  simp only [Bool.or_eq_true, decide_eq_true_eq, not_or, not_not] at this
  exact this.2

lemma Inv.recheck {rounds : ℕ} (h : s.Inv cfg)
    (hclean : ∀ id ∈ swept, (s.pools id).db.queued = false)
    (hex : Ledger.recheck cfg endAt rounds swept s = some s') :
    Swept cfg s s' ∧ ∀ id ∈ cfg.poolIds, s'.linesBefore id endAt ≠ [] →
      (s'.pools id).db.queued = false := by
  induction rounds generalizing swept s with
  | zero =>
    rw [Ledger.recheck, bind_eq_bind, bind_eq_some_iff] at hex
    obtain ⟨ids, hids, hex⟩ := hex
    split_ifs at hex with hnil
    obtain rfl := some.inj hex
    exact ⟨.refl h, fun id hid hlines =>
      hclean id (mem_swept hids (List.isEmpty_iff.mp hnil) hid hlines)⟩
  | succ rounds ih =>
    rw [Ledger.recheck, bind_eq_bind, bind_eq_some_iff] at hex
    obtain ⟨ids, hids, hex⟩ := hex
    split_ifs at hex with hnil
    · obtain rfl := some.inj hex
      exact ⟨.refl h, fun id hid hlines =>
        hclean id (mem_swept hids (List.isEmpty_iff.mp hnil) hid hlines)⟩
    · rw [bind_eq_bind, bind_eq_some_iff] at hex
      obtain ⟨s1, h1, hrest⟩ := hex
      obtain ⟨hswept, hclean1⟩ := h.sweepAll h1
      have hclean' : ∀ id ∈ swept ++ ids, (s1.pools id).db.queued = false := by
        intro id hid
        rcases mem_append.mp hid with hid | hid
        · exact hswept.clean id (hclean id hid)
        · exact hclean1 id hid
      obtain ⟨hswept', hdone⟩ := ih hswept.inv hclean' hrest
      exact ⟨hswept.trans hswept', hdone⟩

/-! ### The close -/

/-- **A close leaves every pool sound**: what it freezes has been delivered and folded. -/
theorem Inv.finalize (h : s.Inv cfg) (hfeed : s.FeedCurrent cfg) (hperiod : period ∈ s.periods.rows)
    (hex : s.finalize cfg period gate = some s') : s'.Inv cfg := by
  simp only [Ledger.finalize, bind_eq_bind, bind_eq_some_iff] at hex
  obtain ⟨s1, h1, s2, h2, hex⟩ := hex
  split_ifs at hex
  obtain rfl := some.inj hex
  obtain ⟨hswept1, hclean1⟩ := h.sweepAll h1
  obtain ⟨hswept2, hclean2⟩ := hswept1.inv.recheck hclean1 h2
  have hswept := hswept1.trans hswept2
  refine ⟨fun id => (hswept.inv.sound id).refreeze fun t ht hf => ?_, hswept.inv.outside⟩
  rcases frozen_setState_closed (hswept.periods ▸ hperiod) hf with hf | hlt
  · exact .inl hf
  -- A newly frozen line is of a pool the re-check found clean, and the feed had delivered it.
  · right
    have hline : t ∈ (s.pools id).db.lines := hswept.lines id ▸ ht
    have hid : id ∈ cfg.poolIds := by
      by_contra hid
      rw [h.outside id hid] at hline
      cases hline
    refine ⟨hclean2 id hid ?_, hswept.delivered id ▸ hfeed id hid t hline⟩
    exact ne_nil_of_mem (mem_filter.mpr ⟨ht, by simpa using hlt⟩)

lemma Inv.markClosing (h : s.Inv cfg) (hperiod : period ∈ s.periods.rows) :
    (s.markClosing period).Inv cfg := by
  unfold Ledger.markClosing
  split_ifs with hopen
  · refine ⟨fun id => (h.sound id).refreeze fun t _ hf => .inl ?_, h.outside⟩
    exact (frozen_setState_closing hperiod (by rw [hopen]; decide)).mp hf
  · exact h

lemma Inv.gated (h : s.Inv cfg) (hperiod : period ∈ s.periods.rows)
    (hex : s.gated cfg period gate force = some s') : s'.Inv cfg := by
  unfold Ledger.gated at hex
  split_ifs at hex with _ hfeed
  · exact some.inj hex ▸ h.markClosing hperiod
  · exact some.inj hex ▸ h.markClosing hperiod
  · exact h.finalize hfeed hperiod hex
  · exact some.inj hex ▸ h.markClosing hperiod

lemma Inv.closePeriod (h : s.Inv cfg) (hex : s.closePeriod cfg id force = some s') :
    s'.Inv cfg := by
  unfold Ledger.closePeriod at hex
  split_ifs at hex
  simp only [bind_eq_bind, bind_eq_some_iff] at hex
  obtain ⟨period, hfind, hex⟩ := hex
  have hperiod := List.mem_of_find?_eq_some hfind
  split_ifs at hex
  · exact some.inj hex ▸ h
  · obtain ⟨gate, -, hex⟩ := bind_eq_some_iff.mp hex
    exact h.gated hperiod hex

/-! ### Runs -/

lemma Inv.init (cfg : LedgerCfg) (periods : PeriodTable) : (Ledger.init periods).Inv cfg :=
  ⟨fun _ => Pool.Sound.empty _ _, fun _ _ => rfl⟩

lemma Inv.exec (h : s.Inv cfg) {op : Op} (hex : s.exec? cfg op = some s') : s'.Inv cfg := by
  cases op with
  | submit lines => exact h.submit hex
  | feed batch => exact h.feed hex
  | pass id => exact h.pass hex
  | abortedPass => cases hex
  | close period force => exact h.closePeriod hex

lemma run_inv (cfg : LedgerCfg) (periods : PeriodTable) (ops : List Op) :
    (run cfg periods ops).Inv cfg :=
  Machine.run_invariant (fun _ _ _ hex h => h.exec hex) (.init cfg periods) ops

/-- **A sound close never halts the engine.** After every run, no pool has an escalation. What a
pass or a replay of all lines computes for a depletion below the closed frontier is its current
authoritative cost; the divergence check finds nothing, the settlement guard admits all that is
written, and no drain, by a close or on demand, escalates. -/
theorem run_never_halts (cfg : LedgerCfg) (periods : PeriodTable) (ops : List Op) (id : ℤ) :
    ((run cfg periods ops).pools id).db.escalation = none ∧
    (∀ pass, foldPass (cfg.pool id) (readClaim ((run cfg periods ops).pools id).db.settlement)
        ((run cfg periods ops).pools id).db = some pass →
      (∀ c ∈ pass.out.costings, ∀ t ∈ ((run cfg periods ops).pools id).db.lines,
        t.id = c.depletionTrxLineId → Frozen (run cfg periods ops).periods.rows t.postedAt →
        currentCost ((run cfg periods ops).pools id).db.costSettlements t.id =
          some c.authoritativeUnitCost) ∧
      detectClosedPeriodDivergence (run cfg periods ops).periods.rows pass.pending = none ∧
      ∀ p ∈ pass.pending, PeriodGuardAdmits (run cfg periods ops).periods.rows p.postedAt) ∧
    (∃ out, strictFold (cfg.pool id).newestFirst []
        ((sortLines ((run cfg periods ops).pools id).db.lines).map (·.toEvent)) = some out ∧
      ∀ t ∈ ((run cfg periods ops).pools id).db.lines, t.qty < 0 →
        Frozen (run cfg periods ops).periods.rows t.postedAt →
        ∃ c ∈ out.costings, c.depletionTrxLineId = t.id ∧
          currentCost ((run cfg periods ops).pools id).db.costSettlements t.id =
            some c.authoritativeUnitCost) ∧
    ∀ passes db', drainPoolToHead (cfg.pool id) (run cfg periods ops).periods.rows passes
      ((run cfg periods ops).pools id).db = some db' → db'.escalation = none := by
  have hsound := (run_inv cfg periods ops).sound id
  have ⟨F, out, hs⟩ := hsound
  refine ⟨hs.running, fun pass hpass => ⟨?_, hs.detect_eq_none hpass, ?_⟩, ?_, ?_⟩
  · intro c hc t ht hid hf
    rw [hid]
    exact hs.pass_cost hpass hc ht hid hf
  · exact fun p hp => periodGuardAdmits_iff.mpr (hs.not_frozen_of_pending hpass hp)
  · obtain ⟨out', hfold, -⟩ := exists_strictFold_lines (cfg.pool id).newestFirst
      (sortLines ((run cfg periods ops).pools id).db.lines)
    refine ⟨out', hfold, fun t ht hneg hf => ?_⟩
    obtain ⟨c, hc, hid⟩ := exists_costing_of_mem_lines hfold (mem_sortBy.mpr ht) hneg
    exact ⟨c, hc, hid, hid ▸ hs.refold_cost hfold hc ht hid.symm hf⟩
  · intro passes db' hdrain
    obtain ⟨⟨_, _, hs'⟩, -⟩ := hsound.drain hdrain
    exact hs'.running

def oneFifoPool : LedgerCfg where
  poolIds := [1]
  pool _ := { sampleCfg false with
    accounts := some ⟨(1, 2), (1, 2), (1, 2), (1, 2), (1, 2), (1, 2), some 3⟩ }

/-- A receipt and a depletion are closed; a backdated receipt is refused, a depletion on the next
day is not, and the old receipt is redelivered. -/
def closedDayZero : List Op :=
  [.submit [(1, ⟨1, 2, .poReceiptLine, 10, 100, none, true⟩),
      (1, ⟨2, 3, .woBackflush, -4, 0, none, true⟩)],
    .feed [(1, .physical 1 2), (1, .physical 2 3)], .close 7 true,
    .submit [(1, ⟨3, 1, .poReceiptLine, 10, 90, none, true⟩)],
    .submit [(1, ⟨4, 86400000000, .woBackflush, -4, 0, none, true⟩)],
    .feed [(1, .physical 1 2), (1, .physical 4 86400000000)]]

/-- The pass after the close re-folds the closed day and contradicts nothing. -/
theorem run_closedDayZero_never_halts :
    (∃ t ∈ ((run oneFifoPool .dayZero closedDayZero).pools 1).db.lines, t.qty < 0 ∧
      Frozen (run oneFifoPool .dayZero closedDayZero).periods.rows t.postedAt) ∧
    ∃ pass, foldPass (oneFifoPool.pool 1)
        (readClaim ((run oneFifoPool .dayZero closedDayZero).pools 1).db.settlement)
        ((run oneFifoPool .dayZero closedDayZero).pools 1).db = some pass ∧
      detectClosedPeriodDivergence (run oneFifoPool .dayZero closedDayZero).periods.rows
        pass.pending = none := by
  have hsome : (foldPass (oneFifoPool.pool 1)
      (readClaim ((run oneFifoPool .dayZero closedDayZero).pools 1).db.settlement)
      ((run oneFifoPool .dayZero closedDayZero).pools 1).db).isSome := by decide
  obtain ⟨pass, hpass⟩ := isSome_iff_exists.mp hsome
  exact ⟨by decide, pass, hpass,
    ((run_never_halts oneFifoPool .dayZero closedDayZero 1).2.1 pass hpass).2.1⟩

end Ledger

end Acct.V32
