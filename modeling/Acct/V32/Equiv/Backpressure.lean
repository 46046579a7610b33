import Acct.V32.Equiv.Handoff

/-!
# Backpressure in the hand-off

A throttled pool refuses submissions until the engine releases it, and the engine only runs on pools
with a queue row. A feed bumps the counter and lowers the floor before it marks the pool, and holds
both rows until it commits, so no pass can have decided to delete the queue row that the mark finds
(`Guarded`).

The pass counts its tail before it waits for the counter, and the queue row it has merely claimed
does not hold up the mark of a feed. A line that is committed after the count and whose mark comes
before the decision is neither counted nor queued (`run_lateMark`). If every mark is in time for the
passes in flight (`MarkInTime`), there is no such line (`run_backpressure`).
-/

namespace Acct.V32.Handoff

open Machine List Option

variable {tx : Tx} {f f' : Feed} {p : Pass} {periods : List AccountingPeriod}
  {stage stage' : PassStage} {j i : ℕ} {a : Action} {s s' : State} {txs : List Tx} {cfg : PoolCfg}
  {db db' : PoolDb} {t : TrxLine}

/-! ### The invariant -/

structure Feed.Guards (db : PoolDb) (f : Feed) : Prop where
  batch : BatchCommitted db f
  row : f.Ok db
  unqueued : f.mark = true → db.queued = false
  nonempty : f.counter.isSome ∨ f.settlement.isSome → f.batch ≠ []
  marked : f.stage = .marked → f.counter.isSome ∨ f.settlement.isSome →
    (db.queued || f.mark) = true

structure Pass.Guards (db : PoolDb) (point : Point) (p : Pass) : Prop where
  settled : p.claim.settled = (readClaim db.settlement).settled
  row : .settled ≤ point → ∀ f ∈ p.frontier, ∃ row ∈ p.own.settlement,
    row.settledThrough = some f ∧
      (row.recostFloor.isSome → p.floorPending = true ∨ p.missed = true)
  tail : .counted ≤ point → 0 ≤ p.tail
  counter : .reset ≤ point →
    p.own.backlog = some p.tail ∧ (p.own.backpressure.isSome → 0 < p.tail)

def PassStage.Guards (db : PoolDb) : PassStage → Prop
  | .claimed | .escalated _ => True
  | .read claim | .folded claim _ => claim.settled = (readClaim db.settlement).settled
  | .writing point p => p.Guards db point

def Tx.Guards (db : PoolDb) : Tx → Prop
  | .submitter _ | .finished => True
  | .feed f => f.Guards db
  | .pass stage => db.queued = true ∧ stage.Guards db

/-- **A pool that is throttled or has a floor is queued**, and the counter of one that is not is
zero. -/
structure Guarded (s : State) : Prop where
  ids : (s.db.lines.map (·.id)).Nodup
  delivered : ∀ id ∈ s.pool.delivered, ∃ t ∈ s.db.lines, t.id = id
  claims : Exclusive s.txs Tx.HoldsClaim
  settlements : Exclusive s.txs Tx.HoldsSettlement
  counters : Exclusive s.txs Tx.HoldsCounter
  marks : Exclusive s.txs Tx.WroteQueue
  frontier : ∀ row ∈ s.db.settlement, row.settledThrough.isSome
  throttled : s.db.backpressure.isSome → s.db.queued = true
  floored : (readClaim s.db.settlement).floor.isSome → s.db.queued = true
  drained : s.db.queued = false → ∀ n ∈ s.db.backlog, n = 0
  txs : ∀ tx ∈ s.txs, tx.Guards s.db

/-! ### Steps that commit nothing -/

/-- Transaction `i` takes the locks of `tx'` only if no other holds them. -/
structure Takes (s : State) (i : ℕ) (tx tx' : Tx) : Prop where
  claim : tx'.HoldsClaim → tx.HoldsClaim ∨ NoOther s.txs i Tx.HoldsClaim
  settlement : tx'.HoldsSettlement → tx.HoldsSettlement ∨ NoOther s.txs i Tx.HoldsSettlement
  counter : tx'.HoldsCounter → tx.HoldsCounter ∨ NoOther s.txs i Tx.HoldsCounter
  queue : tx'.WroteQueue → tx.WroteQueue ∨ NoOther s.txs i Tx.WroteQueue

lemma Guarded.set (h : Guarded s) {tx' : Tx} (hi : s.txs[i]? = some tx) (ht : Takes s i tx tx')
    (hg : tx'.Guards s.db) : Guarded (s.setTx i tx') where
  ids := h.ids
  delivered := h.delivered
  claims := h.claims.set hi ht.claim
  settlements := h.settlements.set hi ht.settlement
  counters := h.counters.set hi ht.counter
  marks := h.marks.set hi ht.queue
  frontier := h.frontier
  throttled := h.throttled
  floored := h.floored
  drained := h.drained
  txs u hu := (mem_or_eq_of_mem_set hu).elim (h.txs u) fun heq => heq ▸ hg

lemma Guarded.append (h : Guarded s) (hg : tx.Guards s.db)
    (hclaim : tx.HoldsClaim → NoOther s.txs s.txs.length Tx.HoldsClaim)
    (hsettlement : ¬ tx.HoldsSettlement) (hcounter : ¬ tx.HoldsCounter) (hqueue : ¬ tx.WroteQueue) :
    Guarded { s with txs := s.txs ++ [tx] } where
  ids := h.ids
  delivered := h.delivered
  claims := h.claims.append hclaim
  settlements := h.settlements.append fun hh => absurd hh hsettlement
  counters := h.counters.append fun hh => absurd hh hcounter
  marks := h.marks.append fun hh => absurd hh hqueue
  frontier := h.frontier
  throttled := h.throttled
  floored := h.floored
  drained := h.drained
  txs u hu := (mem_append.mp hu).elim (h.txs u) fun hmem => mem_singleton.mp hmem ▸ hg

lemma takes_finished (s : State) (i : ℕ) (tx : Tx) : Takes s i tx .finished :=
  ⟨False.elim, False.elim, False.elim, False.elim⟩

lemma Guarded.finish (h : Guarded s) (hi : s.txs[i]? = some tx) :
    Guarded (s.setTx i .finished) :=
  h.set hi (takes_finished s i tx) trivial

/-! ### The statements of a feed -/

lemma FeedMove.takes (h : FeedMove cfg s i f f') : Takes s i (.feed f) (.feed f') := by
  cases h with
  | floored _ _ hfree => exact ⟨.inl, fun _ => .inr hfree, .inl, .inl⟩
  | bumped _ _ hfree => exact ⟨.inl, .inl, fun _ => .inr hfree, .inl⟩
  | marked _ _ hfree => exact ⟨.inl, .inl, .inl, fun _ => .inr hfree⟩
  | _ => exact ⟨.inl, .inl, .inl, .inl⟩

lemma batch_ne_nil_of_matches {row : Option PoolSettlement} (h : FloorMatches f.batch row) :
    f.batch ≠ [] := by
  obtain ⟨-, -, m, hm, -⟩ := h
  intro hnil
  rw [hnil] at hm
  cases hm

lemma FeedMove.guards (h : FeedMove cfg s i f f') (hg : f.Guards s.db) : f'.Guards s.db := by
  cases h with
  | unfloored _ _ => exact ⟨hg.batch, hg.row, hg.unqueued, hg.nonempty, nofun⟩
  | floored _ hmatch _ =>
    obtain ⟨row, hrow, m, hguard, hmap⟩ := map_feedFloor_of_matches hmatch
    refine ⟨hg.batch, fun row' hrow' => ⟨row, hrow, m, hguard, ?_⟩, hg.unqueued,
      fun _ => batch_ne_nil_of_matches hmatch, nofun⟩
    exact some.inj (hrow'.symm.trans hmap)
  | unbumped _ _ => exact ⟨hg.batch, hg.row, hg.unqueued, hg.nonempty, nofun⟩
  | bumped _ hpos _ counter =>
    refine ⟨hg.batch, hg.row, hg.unqueued, fun _ hnil => ?_, nofun⟩
    rw [show f.batch = [] from hnil] at hpos
    exact hpos rfl
  | unmarked _ hempty =>
    exact ⟨hg.batch, hg.row, hg.unqueued, hg.nonempty, fun _ hw => absurd hempty (hg.nonempty hw)⟩
  | marked _ hne _ =>
    refine ⟨hg.batch, hg.row, fun hm => ?_, fun _ => hne, fun _ _ => ?_⟩
    · simpa using hm
    · exact Bool.or_not_self _

/-! ### The statements of a pass -/

lemma resetBackpressure_isSome {cfg : BackpressureConfig} {tail : ℤ} {row : Option ℤ}
    (h : (resetBackpressure cfg tail row).isSome) : 0 < tail := by
  unfold resetBackpressure at h
  by_cases hlow : tail ≤ cfg.lowWater
  · rw [if_pos hlow] at h
    cases h
  · have := cfg.low_nonneg
    omega

lemma PassMove.guards (h : PassMove cfg s i periods stage stage') (hg : stage.Guards s.db) :
    stage'.Guards s.db := by
  cases h with
  | reads => rfl
  | folds _ => exact hg
  | escalates _ => trivial
  | writes _ _ =>
    exact ⟨hg, fun hpoint => absurd hpoint (by decide), fun hpoint => absurd hpoint (by decide),
      fun hpoint => absurd hpoint (by decide)⟩
  | reconciles _ =>
    exact ⟨hg.settled, fun hpoint => absurd hpoint (by decide),
      fun hpoint => absurd hpoint (by decide), fun hpoint => absurd hpoint (by decide)⟩
  | unsettled hnone =>
    refine ⟨hg.settled, fun _ g hgf => ?_, fun hpoint => absurd hpoint (by decide),
      fun hpoint => absurd hpoint (by decide)⟩
    rw [hnone] at hgf
    cases hgf
  | @settles p f hfrontier _ =>
    refine ⟨hg.settled, fun _ g hgf => ?_, fun hpoint => absurd hpoint (by decide),
      fun hpoint => absurd hpoint (by decide)⟩
    obtain rfl : f = g := some.inj (hfrontier.symm.trans hgf)
    have hrow := Pass.settlement_of_frontier hfrontier s.db.settlement
    refine ⟨_, hrow, settle_settledThrough .., fun hfloor => .inl ?_⟩
    rw [hrow]
    exact hfloor
  | checks _ =>
    exact ⟨hg.settled, fun _ => hg.row (by decide), fun hpoint => absurd hpoint (by decide),
      fun hpoint => absurd hpoint (by decide)⟩
  | misses _ =>
    refine ⟨hg.settled, fun _ g hgf => ?_, fun hpoint => absurd hpoint (by decide),
      fun hpoint => absurd hpoint (by decide)⟩
    obtain ⟨row, hrow, hthrough, -⟩ := hg.row (by decide) g hgf
    exact ⟨_, Option.mem_map_of_mem _ hrow, (lowerFloor_settledThrough ..).trans hthrough,
      fun _ => .inr rfl⟩
  | counts =>
    exact ⟨hg.settled, fun _ => hg.row (by decide), fun _ => tailCount_nonneg _ _,
      fun hpoint => absurd hpoint (by decide)⟩
  | resets _ =>
    exact ⟨hg.settled, fun _ => hg.row (by decide), fun _ => hg.tail (by decide),
      fun _ => ⟨rfl, resetBackpressure_isSome⟩⟩
  | decides =>
    exact ⟨hg.settled, fun _ => hg.row (by decide), fun _ => hg.tail (by decide),
      fun _ => hg.counter (by decide)⟩

lemma PassMove.holds (h : PassMove cfg s i periods stage stage') :
    ((Tx.pass stage').HoldsSettlement →
      (Tx.pass stage).HoldsSettlement ∨ NoOther s.txs i Tx.HoldsSettlement) ∧
    ((Tx.pass stage').HoldsCounter →
      (Tx.pass stage).HoldsCounter ∨ NoOther s.txs i Tx.HoldsCounter) := by
  have hreset : ∀ {point p}, (Tx.pass (.writing point p)).HoldsCounter → .reset ≤ point := id
  cases h with
  | reads | folds | escalates => exact ⟨False.elim, False.elim⟩
  | writes | reconciles =>
    exact ⟨fun hh => absurd hh.1 (by decide), fun hh => absurd (hreset hh) (by decide)⟩
  | unsettled hnone =>
    refine ⟨fun hh => ?_, fun hh => absurd (hreset hh) (by decide)⟩
    rw [Tx.HoldsSettlement, hnone] at hh
    cases hh.2
  | settles _ hfree => exact ⟨fun _ => .inr hfree, fun hh => absurd (hreset hh) (by decide)⟩
  | checks | misses | counts =>
    exact ⟨fun hh => .inl ⟨by decide, hh.2⟩, fun hh => absurd (hreset hh) (by decide)⟩
  | resets hfree => exact ⟨fun hh => .inl ⟨by decide, hh.2⟩, fun _ => .inr hfree⟩
  | decides => exact ⟨fun hh => .inl ⟨by decide, hh.2⟩, fun _ => .inl (le_refl Point.reset)⟩

lemma Guarded.noOther_wroteQueue (h : Guarded s) (hi : s.txs[i]? = some (.pass stage)) :
    NoOther s.txs i Tx.WroteQueue := by
  refine noOther_iff.mpr fun j u hj hne hu => ?_
  cases u with
  | feed f =>
    have hqueued := (h.txs _ (mem_of_getElem? hi)).1
    rw [(h.txs _ (mem_of_getElem? hj)).unqueued hu] at hqueued
    cases hqueued
  | pass stage' => exact h.claims j i _ _ hne hj hi trivial trivial
  | submitter t | finished => cases hu

lemma Guarded.movePass (h : Guarded s) (hi : s.txs[i]? = some (.pass stage))
    (hmove : PassMove cfg s i periods stage stage') : Guarded (s.setTx i (.pass stage')) := by
  obtain ⟨hqueued, hg⟩ := h.txs _ (mem_of_getElem? hi)
  exact h.set hi ⟨fun _ => .inl trivial, hmove.holds.1, hmove.holds.2,
    fun _ => .inr (h.noOther_wroteQueue hi)⟩ ⟨hqueued, hmove.guards hg⟩

/-! ### Commits -/

section Commits

variable {g : Feed}

lemma Tx.Guards.congr (h : tx.Guards db) (hlines : ∀ t ∈ db.lines, t ∈ db'.lines)
    (hs : db'.settlement = db.settlement) (hq : db'.queued = db.queued) : tx.Guards db' := by
  cases tx with
  | submitter | finished => trivial
  | feed f =>
    refine ⟨fun id at' he => ?_, fun row' hrow' => ?_, fun hm => hq.trans (h.unqueued hm),
      h.nonempty, fun hstage hw => ?_⟩
    · obtain ⟨u, hu, hu'⟩ := h.batch id at' he
      exact ⟨u, hlines u hu, hu'⟩
    · rw [hs]
      exact h.row row' hrow'
    · rw [hq]
      exact h.marked hstage hw
  | pass stage =>
    refine ⟨hq.trans h.1, ?_⟩
    cases stage with
    | claimed | escalated => trivial
    | read | folded => exact h.2.trans (by rw [hs])
    | writing point p => exact ⟨h.2.settled.trans (by rw [hs]), h.2.row, h.2.tail, h.2.counter⟩

lemma Guarded.of_db (h : Guarded s) (hids : (db'.lines.map (·.id)).Nodup)
    (hlines : ∀ t ∈ s.db.lines, t ∈ db'.lines) (hs : db'.settlement = s.db.settlement)
    (hbacklog : db'.backlog = s.db.backlog) (hbackpressure : db'.backpressure = s.db.backpressure)
    (hq : db'.queued = s.db.queued) : Guarded { s with pool := { s.pool with db := db' } } where
  ids := hids
  delivered id hid := by
    obtain ⟨u, hu, huid⟩ := h.delivered id hid
    exact ⟨u, hlines u hu, huid⟩
  claims := h.claims
  settlements := h.settlements
  counters := h.counters
  marks := h.marks
  frontier row hrow := h.frontier row (hs ▸ hrow)
  throttled hsome := hq.trans (h.throttled (hbackpressure ▸ hsome))
  floored hsome := hq.trans (h.floored (hs ▸ hsome))
  drained hfalse n hn := h.drained (hq ▸ hfalse) n (hbacklog ▸ hn)
  txs u hu := (h.txs u hu).congr hlines hs hq

lemma settled_feedApply (h : f.Ok db) :
    (readClaim (f.apply db).settlement).settled = (readClaim db.settlement).settled := by
  rcases hrow' : f.settlement with _ | row'
  · rw [Feed.apply, hrow', none_or]
  · obtain ⟨row, hrow, m, -, rfl⟩ := h row' hrow'
    rw [Feed.apply, hrow', some_or, show db.settlement = some row from hrow]
    rfl

/-- What a feed commits leaves the other transactions in flight as they should be. -/
lemma Guarded.guards_feedApply (h : Guarded s) (hi : s.txs[i]? = some (.feed f)) (hji : j ≠ i)
    (hj : s.txs[j]? = some tx) : tx.Guards (f.apply s.db) := by
  have hf : f.Guards s.db := h.txs _ (mem_of_getElem? hi)
  have hg := h.txs _ (mem_of_getElem? hj)
  have hqueued : s.db.queued = true → (f.apply s.db).queued = true := fun hq => by
    show (s.db.queued || f.mark) = true
    rw [hq, Bool.true_or]
  cases tx with
  | submitter | finished => trivial
  | feed g =>
    refine ⟨hg.batch, fun row' hrow' => ?_, fun hm => ?_, hg.nonempty, fun hstage hw => ?_⟩
    · -- no other feed has written the settlement row
      have hnone : f.settlement = none := by
        by_contra hsome
        exact h.settlements i j _ _ hji.symm hi hj (ne_none_iff_isSome.mp hsome)
          (isSome_iff_exists.mpr ⟨row', hrow'⟩)
      rw [Feed.apply, hnone, none_or]
      exact hg.row row' hrow'
    · have hfm : f.mark = false := by
        by_contra hfm
        exact h.marks i j _ _ hji.symm hi hj (show f.mark = true by simpa using hfm) hm
      show (s.db.queued || f.mark) = false
      rw [hg.unqueued hm, hfm, Bool.or_false]
    · rcases Bool.or_eq_true_iff.mp (hg.marked hstage hw) with hq | hm
      · rw [hqueued hq, Bool.true_or]
      · rw [hm, Bool.or_true]
  | pass stage =>
    refine ⟨hqueued hg.1, ?_⟩
    have hsettled := settled_feedApply hf.row
    cases stage with
    | claimed | escalated => trivial
    | read | folded => exact hg.2.trans hsettled.symm
    | writing point p =>
      exact ⟨hg.2.settled.trans hsettled.symm, hg.2.row, hg.2.tail, hg.2.counter⟩

lemma guards_of_set (h : ∀ j tx, j ≠ i → s.txs[j]? = some tx → tx.Guards db)
    (htx : tx ∈ s.txs.set i .finished) : tx.Guards db := by
  obtain ⟨j, hj⟩ := List.getElem?_of_mem htx
  rcases getElem?_set_cases hj with ⟨-, rfl⟩ | ⟨hji, hj'⟩
  · trivial
  · exact h j tx hji hj'

section

variable (h : Guarded s)
include h

lemma Guarded.commit_feed (hi : s.txs[i]? = some (.feed f))
    (hstage : f.stage = .marked) : Guarded (s.afterFeed i f) := by
  have hmem : .feed f ∈ s.txs := mem_of_getElem? hi
  have hf : f.Guards s.db := h.txs _ hmem
  have h' := h.finish hi
  have hqueued : s.db.queued = true → (s.afterFeed i f).db.queued = true := fun hq => by
    show (s.db.queued || f.mark) = true
    rw [hq, Bool.true_or]
  refine ⟨h.ids, fun id hid => ?_, h'.claims, h'.settlements, h'.counters, h'.marks,
    fun row' hrow' => ?_, fun hsome => ?_, fun hsome => ?_, fun hfalse n hn => ?_,
    fun tx htx => guards_of_set (fun j tx hji hj => h.guards_feedApply hi hji hj) htx⟩
  · exact (mem_append.mp hid).elim (h.delivered id) hf.batch.exists_line
  · rcases or_eq_some_iff.mp hrow' with hown | ⟨-, hold⟩
    · obtain ⟨row, hrow, m, -, rfl⟩ := hf.row row' hown
      exact h.frontier row hrow
    · exact h.frontier row' hold
  · rcases hcounter : f.counter with _ | c
    · simp only [State.db, Feed.apply, hcounter, map_none, getD_none] at hsome
      exact hqueued (h.throttled hsome)
    · exact hf.marked hstage (.inl (by rw [hcounter]; rfl))
  · rcases hrow : f.settlement with _ | row
    · simp only [State.db, Feed.apply, hrow, none_or] at hsome
      exact hqueued (h.floored hsome)
    · exact hf.marked hstage (.inr (by rw [hrow]; rfl))
  · -- a feed that has bumped the counter leaves the pool queued
    rcases hcounter : f.counter with _ | c
    · have hdb : s.db.queued = false := by
        by_contra hq
        rw [hqueued (by simpa using hq)] at hfalse
        cases hfalse
      simp only [State.db, Feed.apply, hcounter, map_none, getD_none] at hn
      exact h.drained hdb n hn
    · have htrue := hf.marked hstage (.inl (by rw [hcounter]; rfl))
      rw [show (s.db.queued || f.mark) = false from hfalse] at htrue
      cases htrue

/-- The committed frontier is the one the pass claimed, so without one there is no settlement
row. -/
lemma Guarded.settlement_of_frontier {point : Point} (hp : p.Guards s.db point)
    (hnone : p.frontier = none) : s.db.settlement = none := by
  have hsettled : p.claim.settled = none := (or_eq_none_iff.mp hnone).2
  rcases hrow : s.db.settlement with _ | row
  · rfl
  · have hthrough := h.frontier row hrow
    rw [hp.settled, hrow] at hsettled
    rw [show row.settledThrough = none from hsettled] at hthrough
    cases hthrough

lemma Guarded.unwritten (hp : .pass (.writing .decided p) ∈ s.txs)
    (hg : .feed g ∈ s.txs) : ¬ (g.counter.isSome ∨ g.settlement.isSome) := by
  have hguards : p.Guards s.db .decided := (h.txs _ hp).2
  rintro (hcounter | hsettlement)
  · exact h.counters.of_mem hg hp (by simp) hcounter (show Point.reset ≤ .decided by decide)
  · have hfrontier : p.frontier.isSome := by
      by_contra hf
      have hnone := h.settlement_of_frontier hguards (by simpa using hf)
      obtain ⟨row', hrow'⟩ := isSome_iff_exists.mp hsettlement
      obtain ⟨row, hrow, -⟩ := (h.txs _ hg).row row' hrow'
      rw [hnone] at hrow
      cases hrow
    exact h.settlements.of_mem hg hp (by simp) hsettlement ⟨by decide, hfrontier⟩

lemma Guarded.guards_passApply (hi : s.txs[i]? = some (.pass (.writing .decided p))) (hji : j ≠ i)
    (hj : s.txs[j]? = some tx) : tx.Guards (p.apply s.db) := by
  have hp : .pass (.writing .decided p) ∈ s.txs := mem_of_getElem? hi
  have htx := mem_of_getElem? hj
  cases tx with
  | submitter | finished => trivial
  | feed g =>
    have hg : g.Guards s.db := h.txs _ htx
    have hno := h.unwritten hp htx
    refine ⟨hg.batch, fun row' hrow' => ?_, fun hm => ?_, hg.nonempty, fun _ hw => absurd hw hno⟩
    · exact absurd (.inr (isSome_iff_exists.mpr ⟨row', hrow'⟩)) hno
    · exact absurd hm (h.marks.of_mem hp htx (by simp) rfl)
  | pass stage => exact absurd trivial (h.claims j i _ _ hji hj hi trivial)

lemma Guarded.settlement_apply (hp : p.Guards s.db .decided) :
    (p.frontier = none ∧ (p.apply s.db).settlement = none) ∨
    ∃ f row, p.frontier = some f ∧ (p.apply s.db).settlement = some row ∧
      row.settledThrough = some f ∧ (row.recostFloor.isSome → p.keeps = true) := by
  rcases hf : p.frontier with _ | f
  · refine .inl ⟨rfl, ?_⟩
    simp only [Pass.apply, hf, isSome_none, Bool.false_eq_true, if_false]
    exact h.settlement_of_frontier hp hf
  · obtain ⟨row, hrow, hthrough, hfloor⟩ := hp.row (by decide) f hf
    refine .inr ⟨f, row, rfl, ?_, hthrough, fun hsome => ?_⟩
    · simp only [Pass.apply, hf, isSome_some, if_true]
      exact hrow
    · rcases hfloor hsome with hpending | hmissed
      · simp [Pass.keeps, hpending]
      · simp [Pass.keeps, hmissed]

lemma Guarded.commit_pass (hi : s.txs[i]? = some (.pass (.writing .decided p))) :
    Guarded (s.afterPass i p) := by
  have hp : p.Guards s.db .decided := (h.txs _ (mem_of_getElem? hi)).2
  obtain ⟨hbacklog, hbackpressure⟩ := hp.counter (by decide)
  have h' := h.finish hi
  refine ⟨h.ids, h.delivered, h'.claims, h'.settlements, h'.counters, h'.marks, fun row hrow => ?_,
    fun hsome => ?_, fun hsome => ?_, fun hfalse n hn => ?_,
    fun tx htx => guards_of_set (fun j tx hji hj => h.guards_passApply hi hji hj) htx⟩
  · rcases h.settlement_apply hp with ⟨-, hnone⟩ | ⟨f, row', -, hrow', hthrough, -⟩
    · cases hnone.symm.trans hrow
    · obtain rfl : row' = row := some.inj (hrow'.symm.trans hrow)
      rw [hthrough]
      rfl
  · have hpos := hbackpressure hsome
    show p.keeps = true
    simp [Pass.keeps, hpos]
  · rcases h.settlement_apply hp with ⟨-, hnone⟩ | ⟨f, row, -, hrow, -, hkeeps⟩
    · rw [show (s.afterPass i p).db.settlement = none from hnone] at hsome
      cases hsome
    · rw [show (s.afterPass i p).db.settlement = some row from hrow] at hsome
      exact hkeeps hsome
  · have hzero : ¬ 0 < p.tail := fun hpos => by
      rw [show (s.afterPass i p).db.queued = p.keeps from rfl] at hfalse
      simp [Pass.keeps, hpos] at hfalse
    have htail := hp.tail (by decide)
    obtain rfl : p.tail = n := some.inj (hbacklog.symm.trans hn)
    omega

end

end Commits

lemma Guarded.moves (h : Guarded s) (hm : Moves cfg s a s') : Guarded s' := by
  cases hm with
  | beginSubmit => exact h.append trivial False.elim id id id
  | insert hi => exact h.set hi ⟨False.elim, False.elim, False.elim, False.elim⟩ trivial
  | beginFeed hcom =>
    refine h.append ⟨fun id at' he => hcom _ he, fun row' hrow' => ?_, fun hm => ?_, fun hw => ?_,
      fun hstage => ?_⟩ False.elim (fun hh => ?_) (fun hh => ?_) fun hh => ?_
    · cases hrow'
    · cases hm
    · rcases hw with hw | hw <;> cases hw
    · cases hstage
    all_goals cases hh
  | feed hi hmove => exact h.set hi hmove.takes (hmove.guards (h.txs _ (mem_of_getElem? hi)))
  | claim hqueued hfree => exact h.append ⟨hqueued, trivial⟩ (fun _ => hfree) id id id
  | pass hi hmove => exact h.movePass hi hmove
  | commitSubmit hi hids =>
    exact (h.finish hi).of_db hids (fun t ht => mem_append_left _ ht) rfl rfl rfl rfl
  | commitFeed hi hstage => exact h.commit_feed hi hstage
  | commitEscalated hi => exact (h.finish hi).of_db h.ids (fun _ ht => ht) rfl rfl rfl rfl
  | commitPass hi => exact h.commit_pass hi
  | abort hi => exact h.finish hi

lemma guarded_empty : Guarded {} := by
  constructor
  case claims | settlements | counters | marks => exact .nil
  all_goals simp [readClaim]

/-! ### The tail -/

def Tx.Swallowed (id : ℤ) : Tx → Prop
  | .feed f => f.stage = .marked ∧ f.mark = false ∧ id ∈ physicalIds f.batch
  | _ => False

/-- A pass that has counted its tail keeps the queue row if `t` is above its frontier. -/
def Tx.KeepsTail (t : TrxLine) : Tx → Prop
  | .pass (.writing point p) => .counted ≤ point → p.keeps = true ∨ ¬ After p.frontier t.pos
  | _ => True

def State.Knows (s : State) (id : ℤ) : Prop :=
  id ∈ s.pool.delivered ∨ ∃ tx ∈ s.txs, tx.Swallowed id

def TailQueued (s : State) : Prop :=
  ∀ t ∈ s.db.lines, s.Knows t.id →
    (s.db.queued = true ∨ ¬ After (readClaim s.db.settlement).settled t.pos) ∧
      ∀ tx ∈ s.txs, tx.KeepsTail t

lemma TailQueued.of_mem (h : TailQueued s) (hmem : ∀ u ∈ txs, u ∈ s.txs ∨ u = tx)
    (hkeeps : ∀ t ∈ s.db.lines, s.Knows t.id → tx.KeepsTail t)
    (hswallowed : ∀ t ∈ s.db.lines, tx.Swallowed t.id →
      s.db.queued = true ∧ tx.KeepsTail t ∧ ∀ u ∈ s.txs, u.KeepsTail t) :
    TailQueued { s with txs } := by
  intro t ht
  refine known_of_mem hmem (h t ht) (hkeeps t ht) fun hsw => ?_
  obtain ⟨hq, hself, hothers⟩ := hswallowed t ht hsw
  exact ⟨.inl hq, hself, hothers⟩

lemma TailQueued.of_idle (h : TailQueued s) (hmem : ∀ u ∈ txs, u ∈ s.txs ∨ u = tx)
    (hkeeps : ∀ t, tx.KeepsTail t) (hswallowed : ∀ id, ¬ tx.Swallowed id) :
    TailQueued { s with txs } :=
  h.of_mem hmem (fun t _ _ => hkeeps t) fun t _ hsw => absurd hsw (hswallowed t.id)

lemma TailQueued.finish (h : TailQueued s) : TailQueued (s.setTx i .finished) :=
  h.of_idle (fun _ hu => mem_or_eq_of_mem_set hu) (fun _ => trivial) fun _ => id

lemma keepsTail_of_countsNone {lines : List TrxLine} (hmem : t ∈ lines)
    (hundecided : ¬ tx.WroteQueue) (hcounts : tx.CountsNone lines) : tx.KeepsTail t := by
  rcases tx with _ | _ | stage | _
  case pass =>
    cases stage with
    | writing point p =>
      exact fun hcounted => (hcounts hcounted hundecided).imp_right fun hzero =>
        tailCount_eq_zero.mp hzero t hmem
    | _ => trivial
  all_goals trivial

lemma TailQueued.feedMove (h : TailQueued s) (hi : s.txs[i]? = some (.feed f))
    (hmove : FeedMove cfg s i f f') (hmark : MarkInTime s (.feed i)) :
    TailQueued (s.setTx i (.feed f')) := by
  refine h.of_mem (fun _ hu => mem_or_eq_of_mem_set hu) (fun _ _ _ => trivial)
    fun t ht hsw => ?_
  cases hmove with
  | marked hstage _ hfree =>
    obtain ⟨-, hunmarked, hid⟩ := hsw
    simp only [MarkInTime, hi] at hmark
    refine ⟨by simpa using hunmarked, trivial, fun u hu => ?_⟩
    by_cases hu' : u = .feed f
    · rw [hu']
      trivial
    · exact keepsTail_of_countsNone (mem_batchLines ht hid) (hfree.of_mem hi hu hu')
        (hmark hstage u hu)
  | unmarked _ hempty =>
    have hid : t.id ∈ physicalIds f.batch := hsw.2.2
    rw [hempty] at hid
    cases hid
  | _ => cases hsw.1

lemma PassMove.keepsTail (h : PassMove cfg s i periods stage stage') (ht : t ∈ s.db.lines)
    (hk : (Tx.pass stage).KeepsTail t) : (Tx.pass stage').KeepsTail t := by
  cases h with
  | reads | folds | escalates => trivial
  | @counts p =>
    intro _
    by_cases hafter : After p.frontier t.pos
    · exact .inl (by simp [Pass.keeps, tailCount_pos ht hafter])
    · exact .inr hafter
  | resets | decides => exact fun _ => hk (by decide)
  | _ => exact fun hpoint => absurd hpoint (by decide)

lemma TailQueued.passMove (h : TailQueued s) (hi : s.txs[i]? = some (.pass stage))
    (hmove : PassMove cfg s i periods stage stage') : TailQueued (s.setTx i (.pass stage')) :=
  h.of_mem (fun _ hu => mem_or_eq_of_mem_set hu)
    (fun t ht hk => hmove.keepsTail ht ((h t ht hk).2 _ (mem_of_getElem? hi)))
    fun _ _ hsw => hsw.elim

lemma Guarded.exists_line (hg : Guarded s) {id : ℤ} (h : s.Knows id) :
    ∃ u ∈ s.db.lines, u.id = id := by
  rcases h with hdel | ⟨tx, htx, hsw⟩
  · exact hg.delivered id hdel
  · cases tx with
    | feed f => exact (hg.txs _ htx).batch.exists_line hsw.2.2
    | _ => cases hsw

lemma TailQueued.of_db (h : TailQueued s) (hg : Guarded s) (hids : (db'.lines.map (·.id)).Nodup)
    (hlines : ∀ t ∈ s.db.lines, t ∈ db'.lines) (hs : db'.settlement = s.db.settlement)
    (hq : db'.queued = s.db.queued) : TailQueued { s with pool := { s.pool with db := db' } } := by
  intro t ht hk
  obtain ⟨u, hu, huid⟩ := hg.exists_line hk
  obtain rfl : u = t := inj_on_of_nodup_map hids (hlines u hu) ht huid
  obtain ⟨hdue, hkeeps⟩ := h u hu hk
  refine ⟨?_, hkeeps⟩
  rwa [hq, hs]

lemma TailQueued.commit_feed (h : TailQueued s) (hg : Guarded s) (hi : s.txs[i]? = some (.feed f))
    (hstage : f.stage = .marked) : TailQueued (s.afterFeed i f) := by
  intro t ht hk
  have hmem : .feed f ∈ s.txs := mem_of_getElem? hi
  have hf : f.Guards s.db := hg.txs _ hmem
  show ((s.db.queued || f.mark) = true ∨
    ¬ After (readClaim (f.apply s.db).settlement).settled t.pos) ∧ _
  rw [settled_feedApply hf.row]
  rcases hmark : f.mark
  · -- the mark found the queue row
    have hknown : s.Knows t.id := (known_afterFeed (P := Tx.Swallowed t.id) id hk).elim id
      fun hid => .inr ⟨_, hmem, hstage, hmark, hid⟩
    rw [Bool.or_false]
    refine ⟨(h t ht hknown).1, fun u hu => ?_⟩
    rcases mem_or_eq_of_mem_set hu with hu | rfl
    · exact (h t ht hknown).2 u hu
    · trivial
  · -- it inserted the queue row, so no pass is in flight
    refine ⟨.inl (Bool.or_true _), fun u hu => ?_⟩
    rcases mem_or_eq_of_mem_set hu with hu | rfl
    · cases u with
      | pass stage =>
        have hqueued := (hg.txs _ hu).1
        rw [hf.unqueued hmark] at hqueued
        cases hqueued
      | _ => trivial
    · trivial

lemma TailQueued.commit_pass (h : TailQueued s) (hg : Guarded s)
    (hi : s.txs[i]? = some (.pass (.writing .decided p))) : TailQueued (s.afterPass i p) := by
  intro t ht hk
  have hp : p.Guards s.db .decided := (hg.txs _ (mem_of_getElem? hi)).2
  have hknown : s.Knows t.id := known_of_set (P := Tx.Swallowed t.id) id hk
  have htail := (h t ht hknown).2 _ (mem_of_getElem? hi) (by decide)
  refine ⟨htail.imp_right fun hafter => ?_, fun u hu => ?_⟩
  · rcases hg.settlement_apply hp with ⟨hnone, -⟩ | ⟨f, row, hfrontier, hrow, hthrough, -⟩
    · rw [hnone] at hafter
      exact absurd (after_none _) hafter
    · rw [show (s.afterPass i p).db.settlement = some row from hrow]
      show ¬ After row.settledThrough t.pos
      rwa [hthrough, ← hfrontier]
  · obtain ⟨j, hj⟩ := List.getElem?_of_mem hu
    rcases getElem?_set_cases hj with ⟨-, rfl⟩ | ⟨hji, hj'⟩
    · trivial
    · cases u with
      | pass stage => exact absurd trivial (hg.claims j i _ _ hji hj' hi trivial)
      | _ => trivial

lemma TailQueued.moves (h : TailQueued s) (hg : Guarded s) (hm : Moves cfg s a s')
    (hmark : MarkInTime s a) : TailQueued s' := by
  have hset : ∀ {i tx}, ∀ u ∈ s.txs.set i tx, u ∈ s.txs ∨ u = tx :=
    fun {i tx} u hu => mem_or_eq_of_mem_set hu
  have happend : ∀ {tx}, ∀ u ∈ s.txs ++ [tx], u ∈ s.txs ∨ u = tx :=
    fun {tx} u hu => (mem_append.mp hu).imp_right mem_singleton.mp
  cases hm with
  | beginSubmit => exact h.of_idle happend (fun _ => trivial) fun _ => id
  | insert _ => exact h.of_idle hset (fun _ => trivial) fun _ => id
  | beginFeed _ => exact h.of_idle happend (fun _ => trivial) fun _ hsw => by cases hsw.1
  | feed hi hmove => exact h.feedMove hi hmove hmark
  | claim _ _ => exact h.of_idle happend (fun _ => trivial) fun _ => id
  | pass hi hmove => exact h.passMove hi hmove
  | commitSubmit hi hids =>
    exact h.finish.of_db (hg.finish hi) hids (fun t ht => mem_append_left _ ht) rfl rfl
  | commitFeed hi hstage => exact h.commit_feed hg hi hstage
  | commitEscalated hi => exact h.finish.of_db (hg.finish hi) hg.ids (fun _ ht => ht) rfl rfl
  | commitPass hi => exact h.commit_pass hg hi
  | abort _ => exact h.finish

/-! ### Runs -/

lemma run_guarded (cfg : PoolCfg) (actions : List Action) : Guarded (run cfg actions) :=
  run_invariant (fun _ _ _ hex h => h.moves (exec?_moves hex)) guarded_empty actions

lemma run_tailQueued (cfg : PoolCfg) (actions : List Action)
    (h : Throughout (State.exec? cfg) MarkInTime {} actions) : TailQueued (run cfg actions) := by
  have hboth : Guarded (run cfg actions) ∧ TailQueued (run cfg actions) := by
    refine run_invariant_of_throughout (P := fun s => Guarded s ∧ TailQueued s)
      (fun s a s' hex hmark hs => ?_) ⟨guarded_empty, ?_⟩ actions h
    · exact ⟨hs.1.moves (exec?_moves hex), hs.2.moves hs.1 (exec?_moves hex) hmark⟩
    · simp [TailQueued]
  exact hboth.2

/-- **Backpressure does not strand the pool.** In every state of every run, a throttled pool is
queued and so is one with a recost floor. If moreover every mark is in time, then once everything is
delivered and the queue is empty, the counter is the number of committed lines above the frontier.
-/
theorem run_backpressure (cfg : PoolCfg) (actions : List Action) :
    (((run cfg actions).db.backpressure.isSome → (run cfg actions).db.queued = true) ∧
      (((run cfg actions).db.settlement.bind (·.recostFloor)).isSome →
        (run cfg actions).db.queued = true)) ∧
    ((run cfg actions).db.queued = false → (run cfg actions).db.backpressure = none) ∧
    (Throughout (State.exec? cfg) MarkInTime {} actions →
      (∀ t ∈ (run cfg actions).db.lines, t.id ∈ (run cfg actions).pool.delivered) →
      (run cfg actions).db.queued = false →
      ∀ n ∈ (run cfg actions).db.backlog, n = tailCount (run cfg actions).db.lines
        (readClaim (run cfg actions).db.settlement).settled) := by
  have hg := run_guarded cfg actions
  refine ⟨⟨hg.throttled, fun hfloor => hg.floored (by rwa [readClaim_floor])⟩, fun hfalse => ?_,
    fun hmarks hall hfalse n hn => ?_⟩
  · by_contra hsome
    rw [hg.throttled (ne_none_iff_isSome.mp hsome)] at hfalse
    cases hfalse
  · rw [hg.drained hfalse n hn, eq_comm, tailCount_eq_zero]
    intro t ht
    refine ((run_tailQueued cfg actions hmarks t ht (.inl (hall t ht))).1).resolve_left ?_
    rw [hfalse]
    exact Bool.false_ne_true

/-! ### A late mark and timely ones -/

/-- **A late mark is not counted.** The pool is at rest with a counter of zero and a line above the
frontier. -/
theorem run_lateMark :
    (run (sampleCfg false) lateMark).AtRest ∧
      (run (sampleCfg false) lateMark).db.backlog = some 0 ∧
      tailCount (run (sampleCfg false) lateMark).db.lines
        (readClaim (run (sampleCfg false) lateMark).db.settlement).settled = 1 := by
  decide +kernel

def throttledCfg : PoolCfg :=
  { sampleCfg false with backpressure := ⟨2, 1, by decide, Int.one_nonneg, by decide⟩ }

def throttledPool : List Action := claimedPass ++ passSteps 5 ++ secondReceipt 30

def releasedPool : List Action :=
  throttledPool ++ passSteps 4 ++ [.commit 2, .claim] ++ List.replicate 9 (.pass 5 []) ++
    [.commit 5]

def missedReceipt : List Action :=
  claimedPass ++ passSteps 5 ++ secondReceipt 10 ++ passSteps 4 ++ [.commit 2]

/-- The second receipt throttles the pool, and the passes release it again. -/
theorem run_backpressure_releasedPool :
    ((run throttledCfg throttledPool).db.backpressure = some 2 ∧
      (run throttledCfg throttledPool).db.queued = true) ∧
    ((run throttledCfg missedReceipt).db.settlement.bind (·.recostFloor) = some ⟨10, 2⟩ ∧
      (run throttledCfg missedReceipt).db.queued = true) ∧
    (run throttledCfg releasedPool).db.backpressure = none ∧
    (run throttledCfg releasedPool).db.backlog = some 0 ∧
      0 = tailCount (run throttledCfg releasedPool).db.lines
        (readClaim (run throttledCfg releasedPool).db.settlement).settled := by
  have hthrottled : (run throttledCfg throttledPool).db.backpressure = some 2 := by decide +kernel
  have hfloor : (run throttledCfg missedReceipt).db.settlement.bind (·.recostFloor) =
      some ⟨10, 2⟩ := by decide +kernel
  have hqueue : (run throttledCfg releasedPool).db.queued = false := by decide +kernel
  have hbacklog : (run throttledCfg releasedPool).db.backlog = some 0 := by decide +kernel
  refine ⟨⟨hthrottled, (run_backpressure throttledCfg throttledPool).1.1 ?_⟩,
    ⟨hfloor, (run_backpressure throttledCfg missedReceipt).1.2 ?_⟩,
    (run_backpressure throttledCfg releasedPool).2.1 hqueue, hbacklog,
    (run_backpressure throttledCfg releasedPool).2.2 ?_ ?_ hqueue 0 hbacklog⟩
  · rw [hthrottled]
    rfl
  · rw [hfloor]
    rfl
  all_goals decide +kernel

end Acct.V32.Handoff
