import Acct.V32.Handoff

/-!
# What one statement of the hand-off can do

The statements of a feed and of a pass (`FeedMove`, `PassMove`) and the actions of a run (`Moves`)
as relations, one constructor for each thing that can happen, with the guards under which it does.
An invariant of the hand-off is proved by cases on them.
-/

namespace Acct.V32.Handoff

open Machine Option

variable {cfg : PoolCfg} {s : State} {i : ℕ}

/-! ### Feeds -/

/-- A statement of `FeedConsumer::apply`. -/
inductive FeedMove (cfg : PoolCfg) (s : State) (i : ℕ) (f : Feed) : Feed → Prop
  /-- The floor `UPDATE` matches no committed row. -/
  | unfloored (hstage : f.stage = .begun) (hmatch : ¬ FloorMatches f.batch s.db.settlement) :
      FeedMove cfg s i f { f with stage := .floored }
  | floored (hstage : f.stage = .begun) (hmatch : FloorMatches f.batch s.db.settlement)
      (hfree : NoOther s.txs i Tx.HoldsSettlement) :
      FeedMove cfg s i f
        { f with stage := .floored, settlement := s.db.settlement.map (feedFloor f.batch) }
  | unbumped (hstage : f.stage = .floored) (hzero : (f.batch.filterMap (·.pos?)).length = 0) :
      FeedMove cfg s i f { f with stage := .bumped }
  | bumped (hstage : f.stage = .floored) (hpos : (f.batch.filterMap (·.pos?)).length ≠ 0)
      (hfree : NoOther s.txs i Tx.HoldsCounter) (counter : Option ℤ × Option ℤ) :
      FeedMove cfg s i f { f with stage := .bumped, counter := some counter }
  | unmarked (hstage : f.stage = .bumped) (hempty : f.batch = []) :
      FeedMove cfg s i f { f with stage := .marked }
  | marked (hstage : f.stage = .bumped) (hne : f.batch ≠ [])
      (hfree : NoOther s.txs i Tx.WroteQueue) :
      FeedMove cfg s i f { f with stage := .marked, mark := !s.db.queued }

lemma feedStep_move {f f' : Feed} (h : s.feedStep cfg i f = some f') : FeedMove cfg s i f f' := by
  rcases hstage : f.stage with _ | _ | _ | _
  · simp only [State.feedStep, hstage] at h
    by_cases hmatch : FloorMatches f.batch s.db.settlement
    · rw [if_neg (not_not.mpr hmatch)] at h
      split_ifs at h with hfree
      cases h
      exact .floored hstage hmatch hfree
    · rw [if_pos hmatch] at h
      cases h
      exact .unfloored hstage hmatch
  · simp only [State.feedStep, hstage] at h
    split_ifs at h with hzero hfree
    · cases h
      exact .unbumped hstage hzero
    · cases h
      exact .bumped hstage hzero hfree _
  · simp only [State.feedStep, hstage] at h
    split_ifs at h with hempty hfree
    · cases h
      exact .unmarked hstage hempty
    · cases h
      exact .marked hstage hempty hfree
  · simp only [State.feedStep, hstage] at h
    cases h

/-! ### Passes -/

/-- A statement of `run_claimed_pass`. -/
inductive PassMove (cfg : PoolCfg) (s : State) (i : ℕ) (periods : List AccountingPeriod) :
    PassStage → PassStage → Prop
  | reads : PassMove cfg s i periods .claimed (.read (readClaim s.db.settlement))
  | folds {claim : Claim} {fold : PassFold} (hfold : foldPass cfg claim s.db = some fold) :
      PassMove cfg s i periods (.read claim) (.folded claim fold)
  | escalates {claim : Claim} {fold : PassFold} (e : Escalation) :
      PassMove cfg s i periods (.folded claim fold) (.escalated e)
  | writes {claim : Claim} {fold : PassFold} {db : PoolDb} {layers : List LayerRow}
      (hwrite : fold.write cfg periods claim s.db = some db)
      (hlayers : fold.layers db.layers = some layers) :
      PassMove cfg s i periods (.folded claim fold)
        (.writing .written { claim, fold, own := { db with layers } })
  | reconciles {p : Pass} (aggregate : Option Aggregate) :
      PassMove cfg s i periods (.writing .written p)
        (.writing .reconciled { p with own := { p.own with aggregate } })
  | unsettled {p : Pass} (hnone : p.frontier = none) :
      PassMove cfg s i periods (.writing .reconciled p) (.writing .settled p)
  | settles {p : Pass} {f : Pos} (hfrontier : p.frontier = some f)
      (hfree : NoOther s.txs i Tx.HoldsSettlement) :
      PassMove cfg s i periods (.writing .reconciled p) (.writing .settled { p with
        own := { p.own with settlement := p.fold.settlement p.claim s.db.settlement }
        floorPending :=
          ((p.fold.settlement p.claim s.db.settlement).bind (·.recostFloor)).isSome })
  | checks {p : Pass} (hnone : p.firstMissed s.db.lines = none) :
      PassMove cfg s i periods (.writing .settled p) (.writing .checked p)
  | misses {p : Pass} {t : TrxLine} (hsome : p.firstMissed s.db.lines = some t) :
      PassMove cfg s i periods (.writing .settled p) (.writing .checked { p with
        own := { p.own with settlement := p.own.settlement.map (lowerFloor t.pos) }
        missed := true })
  | counts {p : Pass} :
      PassMove cfg s i periods (.writing .checked p)
        (.writing .counted { p with tail := tailCount s.db.lines p.frontier })
  | resets {p : Pass} (hfree : NoOther s.txs i Tx.HoldsCounter) :
      PassMove cfg s i periods (.writing .counted p) (.writing .reset { p with own := { p.own with
        backlog := some p.tail
        backpressure := resetBackpressure cfg.backpressure p.tail s.db.backpressure } })
  | decides {p : Pass} : PassMove cfg s i periods (.writing .reset p) (.writing .decided p)

lemma passStep_move {periods : List AccountingPeriod} {stage stage' : PassStage}
    (h : s.passStep cfg i periods stage = some stage') : PassMove cfg s i periods stage stage' := by
  rcases stage with _ | claim | ⟨claim, fold⟩ | e | ⟨point, p⟩
  case claimed =>
    cases h
    exact .reads
  case read =>
    obtain ⟨fold, hfold, rfl⟩ := map_eq_some_iff.mp h
    exact .folds hfold
  case folded =>
    simp only [State.passStep] at h
    rcases hdet : detectClosedPeriodDivergence periods fold.pending with _ | e
    · simp only [hdet, bind_eq_bind, bind_eq_some_iff, Option.pure_def, some.injEq] at h
      obtain ⟨db, hwrite, layers, hlayers, rfl⟩ := h
      exact .writes hwrite hlayers
    · rw [hdet] at h
      cases h
      exact .escalates e
  case escalated => cases h
  case writing =>
    cases point
    case written =>
      simp only [State.passStep] at h
      split_ifs at h with hzero hfree
      · cases h
        exact .reconciles p.own.aggregate
      · obtain ⟨aggregate, -, rfl⟩ := map_eq_some_iff.mp h
        exact .reconciles aggregate
    case reconciled =>
      simp only [State.passStep] at h
      split_ifs at h with hnone hfree
      · cases h
        exact .unsettled (isNone_iff_eq_none.mp hnone)
      · cases h
        rcases hf : p.frontier with _ | f
        · simp [hf] at hnone
        · exact .settles hf hfree
    case settled =>
      simp only [State.passStep] at h
      rcases hmissed : p.firstMissed s.db.lines with _ | t
      · rw [hmissed] at h
        cases h
        exact .checks hmissed
      · rw [hmissed] at h
        cases h
        exact .misses hmissed
    case checked =>
      cases h
      exact .counts
    case counted =>
      simp only [State.passStep] at h
      split_ifs at h with hfree
      cases h
      exact .resets hfree
    case reset =>
      cases h
      exact .decides
    case decided => cases h

/-! ### Actions -/

abbrev State.afterFeed (s : State) (i : ℕ) (f : Feed) : State :=
  { pool := { db := f.apply s.db, delivered := s.pool.delivered ++ physicalIds f.batch }
    txs := s.txs.set i .finished }

abbrev State.afterPass (s : State) (i : ℕ) (p : Pass) : State :=
  { pool := { s.pool with db := p.apply s.db }, txs := s.txs.set i .finished }

inductive Moves (cfg : PoolCfg) (s : State) : Action → State → Prop
  | beginSubmit : Moves cfg s .beginSubmit { s with txs := s.txs ++ [.submitter {}] }
  | insert {i : ℕ} {r : SubmitLine} {t t' : Submitter} (hi : s.txs[i]? = some (.submitter t)) :
      Moves cfg s (.insert i r) (s.setTx i (.submitter t'))
  | beginFeed {batch : List TrxLineEvent} (hcom : ∀ e ∈ batch, Committed s.db e) :
      Moves cfg s (.beginFeed batch) { s with txs := s.txs ++ [.feed { batch }] }
  | feed {i : ℕ} {f f' : Feed} (hi : s.txs[i]? = some (.feed f)) (hmove : FeedMove cfg s i f f') :
      Moves cfg s (.feed i) (s.setTx i (.feed f'))
  | claim (hqueued : s.db.queued = true) (hfree : NoOther s.txs s.txs.length Tx.HoldsClaim) :
      Moves cfg s .claim { s with txs := s.txs ++ [.pass .claimed] }
  | pass {i : ℕ} {periods : List AccountingPeriod} {stage stage' : PassStage}
      (hi : s.txs[i]? = some (.pass stage)) (hmove : PassMove cfg s i periods stage stage') :
      Moves cfg s (.pass i periods) (s.setTx i (.pass stage'))
  | commitSubmit {i : ℕ} {t : Submitter} (hi : s.txs[i]? = some (.submitter t))
      (hids : ((s.db.lines ++ t.lines).map (·.id)).Nodup) :
      Moves cfg s (.commit i)
        { pool := { s.pool with db := { s.db with
            lines := s.db.lines ++ t.lines
            aggregate := t.aggregate.or s.db.aggregate } }
          txs := s.txs.set i .finished }
  | commitFeed {i : ℕ} {f : Feed} (hi : s.txs[i]? = some (.feed f)) (hstage : f.stage = .marked) :
      Moves cfg s (.commit i) (s.afterFeed i f)
  | commitEscalated {i : ℕ} {e : Escalation} (hi : s.txs[i]? = some (.pass (.escalated e))) :
      Moves cfg s (.commit i)
        { pool := { s.pool with db := recordEscalation s.db e }, txs := s.txs.set i .finished }
  | commitPass {i : ℕ} {p : Pass} (hi : s.txs[i]? = some (.pass (.writing .decided p))) :
      Moves cfg s (.commit i) (s.afterPass i p)
  | abort {i : ℕ} {tx : Tx} (hi : s.txs[i]? = some tx) :
      Moves cfg s (.abort i) (s.setTx i .finished)

lemma commit_moves {tx : Tx} (hi : s.txs[i]? = some tx) {pool : Pool}
    (hc : tx.commit s.pool = some pool) :
    Moves cfg s (.commit i) { pool, txs := s.txs.set i .finished } := by
  cases tx with
  | submitter t =>
    simp only [Tx.commit] at hc
    split_ifs at hc with hids
    cases hc
    exact .commitSubmit hi hids
  | feed f =>
    simp only [Tx.commit] at hc
    split_ifs at hc with hstage
    cases hc
    exact .commitFeed hi hstage
  | pass stage =>
    rcases stage with _ | claim | ⟨claim, fold⟩ | e | ⟨point, p⟩
    case escalated =>
      cases hc
      exact .commitEscalated hi
    case writing =>
      cases point
      case decided =>
        cases hc
        exact .commitPass hi
      all_goals cases hc
    all_goals cases hc
  | finished => cases hc

lemma exec?_moves {a : Action} {s' : State} (h : s.exec? cfg a = some s') : Moves cfg s a s' := by
  cases a with
  | beginSubmit =>
    cases h
    exact .beginSubmit
  | insert i r =>
    simp only [State.exec?] at h
    split at h
    · rename_i t hi
      obtain ⟨t', -, rfl⟩ := map_eq_some_iff.mp h
      exact .insert hi
    · cases h
  | beginFeed batch =>
    simp only [State.exec?] at h
    split_ifs at h with hcom
    cases h
    exact .beginFeed hcom
  | feed i =>
    simp only [State.exec?] at h
    split at h
    · rename_i f hi
      obtain ⟨f', hstep, rfl⟩ := map_eq_some_iff.mp h
      exact .feed hi (feedStep_move hstep)
    · cases h
  | claim =>
    simp only [State.exec?] at h
    split_ifs at h with hclaim
    cases h
    exact .claim hclaim.1 hclaim.2.2
  | pass i periods =>
    simp only [State.exec?] at h
    split at h
    · rename_i stage hi
      obtain ⟨stage', hstep, rfl⟩ := map_eq_some_iff.mp h
      exact .pass hi (passStep_move hstep)
    · cases h
  | commit i =>
    simp only [State.exec?] at h
    split at h
    · rename_i tx hi
      obtain ⟨pool, hc, rfl⟩ := map_eq_some_iff.mp h
      exact commit_moves hi hc
    · cases h
  | abort i =>
    simp only [State.exec?] at h
    split at h
    · rename_i tx hi
      cases h
      exact .abort hi
    · cases h

end Acct.V32.Handoff
