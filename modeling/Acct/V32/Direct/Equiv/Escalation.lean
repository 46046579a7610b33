import Acct.V32.Db.Equiv.Period
import Acct.V32.Direct.Equiv.Recalc

/-!
# Escalating a contradiction with frozen history

A pass that would re-cost a depletion below the closed frontier writes nothing but an escalation,
which names the earliest depletion whose value changes, with the number and sum of the changes. What
it says about an earlier settlement is read off the costs: a depletion that was never costed, and
re-folds to another cost than it observed, is reported as settled.
-/

namespace Acct.V32

open Table

variable {pass : PassFold} {p q : Pending} {periods : List AccountingPeriod} {cfg : PoolCfg}
  {db : PoolDb}

/-- The depletions of a pass below the closed frontier. -/
def PassFold.affected (pass : PassFold) (periods : List AccountingPeriod) : List Pending :=
  pass.pending.filter fun p => Frozen periods p.postedAt

/-- The place of the depletion in business order. -/
def Pending.pos (p : Pending) : Pos := toLex (p.postedAt, p.costing.depletionTrxLineId)

/-- The earliest depletion whose value changes; the earliest of all if none does. -/
structure IsExemplar (affected : List Pending) (p : Pending) : Prop where
  mem : p ∈ affected
  changes : (∃ q ∈ affected, q.delta ≠ 0) → p.delta ≠ 0
  first : ∀ q ∈ affected, (p.delta ≠ 0 → q.delta ≠ 0) → p.pos ≤ q.pos

/-- The depletion has a `cost_settlement` row. -/
def Settled (rows : List CostSettlement) (depletion : ℤ) : Prop :=
  ∃ s ∈ rows, s.depletionTrxLineId = depletion

structure Escalation.Truthful (e : Escalation) (rows : List CostSettlement)
    (affected : List Pending) : Prop where
  exemplar : ∃ p, IsExemplar affected p ∧ e.depletionTrxLineId = p.costing.depletionTrxLineId
  count : e.divergingDepletions = (affected.filter (·.delta ≠ 0)).length
  total : InI64 (affected.map (·.delta)).sum →
    e.totalValueDivergence = (affected.map (·.delta)).sum
  settled : e.hadSettlement = true ↔ Settled rows e.depletionTrxLineId

/-- A pass that contradicts frozen history writes nothing but a truthful row, and is found out
exactly if the guard would reject one of its settlements. -/
structure PassFold.EscalatesTruthfully (pass : PassFold) (cfg : PoolCfg)
    (periods : List AccountingPeriod) (claim : Claim) (db : PoolDb) : Prop where
  detected : (detectClosedPeriodDivergence periods pass.pending).isSome ↔
    ∃ p ∈ pass.pending, ¬ PeriodGuardAdmits periods p.postedAt
  atomic : (∃ p ∈ pass.pending, Frozen periods p.postedAt) →
    ∃ e, detectClosedPeriodDivergence periods pass.pending = some e ∧
      runClaimedPass cfg periods claim db =
        some { db with escalation := db.escalation.or (some e) }
  truthful : ∀ e, detectClosedPeriodDivergence periods pass.pending = some e →
    e.Truthful db.costSettlements (pass.affected periods)

/-! ### The depletion that is named -/

lemma mem_affected : p ∈ pass.affected periods ↔ p ∈ pass.pending ∧ Frozen periods p.postedAt := by
  simp [PassFold.affected]

/-- The first of the sorted depletions with a change, or else the first, is the one to name. -/
lemma isExemplar_of_sorted {affected : List Pending}
    (h : ((sortBy Pending.pos affected).find? (·.delta ≠ 0)).or
      (sortBy Pending.pos affected).head? = some p) : IsExemplar affected p := by
  have hsorted := pairwise_le_sortBy Pending.pos affected
  rcases Option.or_eq_some_iff.mp h with hfind | ⟨hnone, hhead⟩
  · obtain ⟨hne, before, behind, heq, hbefore⟩ := List.find?_eq_some_iff_append.mp hfind
    have hp : p.delta ≠ 0 := by simpa using hne
    refine ⟨mem_sortBy.mp (List.mem_of_find?_eq_some hfind), fun _ => hp, fun q hq hchange => ?_⟩
    rw [← (sortBy_perm Pending.pos affected).mem_iff, heq, List.mem_append, List.mem_cons] at hq
    rw [heq, List.pairwise_append, List.pairwise_cons] at hsorted
    rcases hq with hq | rfl | hq
    · simpa [hchange hp] using hbefore q hq
    · exact le_rfl
    · exact hsorted.2.1.1 q hq
  · obtain ⟨behind, heq⟩ := List.head?_eq_some_iff.mp hhead
    rw [List.find?_eq_none] at hnone
    have hzero : ∀ q ∈ affected, q.delta = 0 := fun q hq => by
      simpa using hnone q (mem_sortBy.mpr hq)
    refine ⟨mem_sortBy.mp (List.mem_of_mem_head? hhead), ?_, fun q hq _ => ?_⟩
    · rintro ⟨q, hq, hne⟩
      exact absurd (hzero q hq) hne
    · rw [← (sortBy_perm Pending.pos affected).mem_iff, heq, List.mem_cons] at hq
      rw [heq, List.pairwise_cons] at hsorted
      rcases hq with rfl | hq
      · exact le_rfl
      · exact hsorted.1 q hq

lemma IsExemplar.pos_le {affected : List Pending} (h : IsExemplar affected p)
    (h' : IsExemplar affected q) : p.pos ≤ q.pos :=
  h.first q h'.mem fun hp => h'.changes ⟨p, h.mem, hp⟩

lemma IsExemplar.id_eq {affected : List Pending} (h : IsExemplar affected p)
    (h' : IsExemplar affected q) : p.costing.depletionTrxLineId = q.costing.depletionTrxLineId := by
  have hpos : p.pos = q.pos := le_antisymm (h.pos_le h') (h'.pos_le h)
  exact congrArg (fun x : Pos => (ofLex x).2) hpos

lemma detectClosedPeriodDivergence_eq_some {e : Escalation}
    (h : detectClosedPeriodDivergence periods pass.pending = some e) :
    ∃ p, IsExemplar (pass.affected periods) p ∧
      e.depletionTrxLineId = p.costing.depletionTrxLineId ∧
      (e.hadSettlement = true ↔ p.delta ≠ 0 ∨ p.priorUnitCost ≠ p.costing.observedUnitCost) ∧
      e.divergingDepletions = ((pass.affected periods).filter (·.delta ≠ 0)).length ∧
      e.totalValueDivergence =
        (toI64? ((pass.affected periods).map (·.delta)).sum).getD (2 ^ 63 - 1) := by
  have hperm := sortBy_perm Pending.pos (pass.affected periods)
  unfold detectClosedPeriodDivergence at h
  dsimp only at h
  split at h
  · cases h
  · next p hp =>
    cases h
    refine ⟨p, isExemplar_of_sorted hp, rfl, decide_eq_true_iff, ?_, ?_⟩
    · exact (hperm.filter _).length_eq
    · show (toI64? ((sortBy Pending.pos (pass.affected periods)).map (·.delta)).sum).getD _ = _
      rw [(hperm.map _).sum_eq]

/-! ### What the costs tell about an earlier settlement -/

lemma currentCost_eq_none {rows : List CostSettlement} {depletion : ℤ} :
    currentCost rows depletion = none ↔ ¬ Settled rows depletion := by
  simp [currentCost, currentSettlement, Table.latest, List.argmax_eq_none, Settled]

/-- Each pending depletion is of a scanned line, with the cost it had or else the one observed. -/
lemma pending_spec {claim : Claim} (hpass : foldPass cfg claim db = some pass)
    (hp : p ∈ pass.pending) :
    p.costing.qty ≠ 0 ∧
      p.delta = (p.costing.authoritativeUnitCost - p.priorUnitCost) * p.costing.qty ∧
      (Settled db.costSettlements p.costing.depletionTrxLineId →
        p.costing.authoritativeUnitCost ≠ p.priorUnitCost) ∧
      (¬ Settled db.costSettlements p.costing.depletionTrxLineId →
        p.priorUnitCost = p.costing.observedUnitCost) := by
  obtain ⟨-, hout, hpending⟩ := foldPass_eq_some hpass
  rw [(pendingSet_eq_some hpending).1, List.mem_filterMap] at hp
  obtain ⟨c, hc, hpc⟩ := hp
  obtain ⟨rfl, hprior, hdelta, -⟩ := pendingOf_eq_some hpc
  refine ⟨?_, hdelta, fun hset => ?_, fun hset => ?_⟩
  · -- the quantity is that of a line, which is not zero
    have hmem : (p.costing.depletionTrxLineId, p.costing.qty, p.costing.observedUnitCost) ∈
        pass.out.costings.map fun c => (c.depletionTrxLineId, c.qty, c.observedUnitCost) :=
      List.mem_map_of_mem hc
    rw [strictFold_costings hout, List.mem_map] at hmem
    obtain ⟨ev, hev, heq⟩ := hmem
    obtain ⟨t, -, rfl⟩ := List.mem_map.mp (List.mem_filter.mp hev).1
    have hqty : absAsI64 t.qty = p.costing.qty := congrArg (fun x : ℤ × ℤ × ℤ => x.2.1) heq
    rw [← hqty, absAsI64_of_gt t.qty_gt]
    exact Int.natCast_ne_zero.mpr (Int.natAbs_ne_zero.mpr t.qty_ne_zero)
  · simp only [pendingOf] at hpc
    split_ifs at hpc with hnew
    rcases hnew with hnone | hne
    · exact absurd hset (currentCost_eq_none.mp (Option.isNone_iff_eq_none.mp hnone))
    · rwa [hprior]
  · rw [hprior, currentCost_eq_none.mpr hset, Option.getD_none]

/-- The costs tell the truth about a depletion, except for one that is costed for the first time,
and not as it was observed. -/
lemma reports_settled_iff {claim : Claim} (hpass : foldPass cfg claim db = some pass)
    (hp : p ∈ pass.pending) :
    ((p.delta ≠ 0 ∨ p.priorUnitCost ≠ p.costing.observedUnitCost) ↔
        Settled db.costSettlements p.costing.depletionTrxLineId) ↔
      (¬ Settled db.costSettlements p.costing.depletionTrxLineId → p.delta = 0) := by
  obtain ⟨hqty, hdelta, hmoved, hobserved⟩ := pending_spec hpass hp
  by_cases hset : Settled db.costSettlements p.costing.depletionTrxLineId
  · have hne : p.delta ≠ 0 := by
      rw [hdelta]
      exact mul_ne_zero (sub_ne_zero.mpr (hmoved hset)) hqty
    simp [hset, hne]
  · simp [hset, hobserved hset]

/-! ### The pass -/

/-- **A pass escalates truthfully** iff the depletion it names is not costed for the first time at
another cost than it observed. -/
theorem escalatesTruthfully_iff {cfg : PoolCfg} {periods : List AccountingPeriod} {claim : Claim}
    {db : PoolDb} {pass : PassFold} (hpass : foldPass cfg claim db = some pass) :
    pass.EscalatesTruthfully cfg periods claim db ↔
      ∀ p, IsExemplar (pass.affected periods) p →
        ¬ Settled db.costSettlements p.costing.depletionTrxLineId → p.delta = 0 := by
  have hdetected : (detectClosedPeriodDivergence periods pass.pending).isSome ↔
      ∃ p ∈ pass.pending, Frozen periods p.postedAt := by
    rw [Option.isSome_iff_ne_none, Ne, detectClosedPeriodDivergence_eq_none]
    simp
  constructor
  · intro h p hp hnew
    obtain ⟨e, he, -⟩ := h.atomic ⟨p, mem_affected.mp hp.mem⟩
    obtain ⟨q, hq, hid, hhad, -⟩ := detectClosedPeriodDivergence_eq_some he
    have hpq : p.costing.depletionTrxLineId = q.costing.depletionTrxLineId := hp.id_eq hq
    -- the row is about the depletion named, so it is `q` that is not settled and does not change
    have hreport := (h.truthful e he).settled
    rw [hhad, hid] at hreport
    have hzero : q.delta = 0 :=
      (reports_settled_iff hpass (mem_affected.mp hq.mem).1).mp hreport (hpq ▸ hnew)
    by_contra hne
    exact hq.changes ⟨p, hp.mem, hne⟩ hzero
  · intro h
    refine ⟨?_, fun hfrozen => ?_, fun e he => ?_⟩
    · simpa [periodGuardAdmits_iff] using hdetected
    · obtain ⟨e, he⟩ := Option.isSome_iff_exists.mp (hdetected.mpr hfrozen)
      refine ⟨e, he, ?_⟩
      simp [runClaimedPass, hpass, he, recordEscalation]
    · obtain ⟨p, hp, hid, hhad, hcount, htotal⟩ := detectClosedPeriodDivergence_eq_some he
      refine ⟨⟨p, hp, hid⟩, hcount, fun hin => ?_, ?_⟩
      · rw [htotal, toI64?_eq_some.mpr ⟨rfl, hin⟩, Option.getD_some]
      · rw [hhad, hid]
        exact (reports_settled_iff hpass (mem_affected.mp hp.mem).1).mpr (h p hp)

def fifoCfg : PoolCfg := ⟨false, none, .initial⟩

def closedDay : List AccountingPeriod := [.day 1 0 .isClosed]

/-- Ten pieces are bought at 10 and five used on a day that is now closed, observed at 12 or at 10.
No cost is settled yet. -/
def neverCosted (atTwelve : Bool) : PoolDb where
  lines := [⟨1, 0, .poReceiptLine, 10, 10, by decide, by decide, by decide, by decide, by decide⟩,
    ⟨2, 1, .woBackflush, -5, if atTwelve then 12 else 10, by decide, by decide, by decide,
      by cases atTwelve <;> decide, by cases atTwelve <;> decide⟩]
  queued := true

def firstCosting (atTwelve : Bool) : Pending :=
  ⟨⟨2, 5, if atTwelve then 12 else 10, 10, 0, [⟨1, 5, 10⟩]⟩, .woBackflush, 1,
    if atTwelve then 12 else 10, if atTwelve then -10 else 0⟩

lemma foldPass_neverCosted (atTwelve : Bool) :
    ∃ pass, foldPass fifoCfg (readClaim none) (neverCosted atTwelve) = some pass ∧
      pass.pending = [firstCosting atTwelve] := by
  cases atTwelve <;> exact ⟨_, rfl, by decide⟩

/-- A first costing as observed is reported as one. -/
theorem neverCosted_escalatesTruthfully :
    ∃ pass, foldPass fifoCfg (readClaim none) (neverCosted false) = some pass ∧
      pass.EscalatesTruthfully fifoCfg closedDay (readClaim none) (neverCosted false) := by
  obtain ⟨pass, hpass, hpending⟩ := foldPass_neverCosted false
  refine ⟨pass, hpass, (escalatesTruthfully_iff hpass).mpr fun p hp _ => ?_⟩
  have hmem := (mem_affected.mp hp.mem).1
  rw [hpending, List.mem_singleton] at hmem
  rw [hmem]
  rfl

/-- A first costing at another cost than observed is recorded as the change of a settled one,
although there is no settlement. -/
theorem neverCosted_reported_settled :
    (∃ e, recalcStep fifoCfg closedDay (neverCosted true) =
        some { neverCosted true with escalation := some e } ∧
      e.depletionTrxLineId = 2 ∧ e.hadSettlement = true) ∧
    ¬ Settled (neverCosted true).costSettlements 2 ∧
    ∃ pass, foldPass fifoCfg (readClaim none) (neverCosted true) = some pass ∧
      ¬ pass.EscalatesTruthfully fifoCfg closedDay (readClaim none) (neverCosted true) := by
  have hnone : ¬ Settled (neverCosted true).costSettlements 2 := by simp [Settled, neverCosted]
  obtain ⟨pass, hpass, hpending⟩ := foldPass_neverCosted true
  refine ⟨⟨_, rfl, rfl, rfl⟩, hnone, pass, hpass, fun h => ?_⟩
  have hreport := (h.truthful _ (by rw [hpending]; rfl)).settled
  exact hnone (hreport.mp rfl)

end Acct.V32
