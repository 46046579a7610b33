import Acct.V32.Equiv.Replay
import Acct.V32.Equiv.Statements

/-!
# No lost line in the hand-off

The committed layers, costs and frontier are those of a fold of some lines `F` at all times
(`Inv.checkpoint`). Once the floor `UPDATE` of a feed has found nothing to lower, each line of its
batch is in `F`, or a recost floor is set, or the line is above the frontier (`Kept`), and a pass in
flight will leave it so (`PassStage.Keeps`). Once the feed has marked the pool, a line outside `F`
has the pool queued or a floor set (`Due`), and a pass in flight will not take the queue row away
(`PassStage.Requeues`).

A pass looks for missed lines and counts the tail before it commits. A feed that slips in between
finds the old frontier and a queue row about to be deleted. As long as no feed does (`FloorInTime`,
`MarkInTime`) no line is lost, `run_no_lost_line`; otherwise one can be, `run_lateFeed`.
-/

namespace Acct.V32.Handoff

open Machine List Option

variable {lines F : List TrxLine} {t : TrxLine} {i : ℕ} {stage stage' : PassStage} {fold : PassFold}
  {f f' : Feed} {db db' : PoolDb} {row : Option PoolSettlement} {txs txs' : List Tx} {D P : Prop}
  {K : Tx → Prop} {p : Pass} {cfg : PoolCfg} {s : State} {out : StrictFoldOutput} {point : Point}
  {tx : Tx} {id : ℤ} {batch : List TrxLineEvent}

/-! ### What is due -/

def Lowered (claimed floor : Option Pos) : Prop := ∃ f ∈ floor, ∀ c ∈ claimed, f < c

/-- `t` is in the fold, or the next pass replays everything, or it scans `t`. -/
def Kept (F : List TrxLine) (db : PoolDb) (t : TrxLine) : Prop :=
  t ∈ F ∨ (readClaim db.settlement).floor.isSome ∨ After (readClaim db.settlement).settled t.pos

/-- `t` is in the fold, or there is something left to do. -/
def Due (F : List TrxLine) (db : PoolDb) (t : TrxLine) : Prop :=
  t ∈ F ∨ db.queued = true ∨ (readClaim db.settlement).floor.isSome

def extended (F : List TrxLine) (claim : Claim) (fold : PassFold) : List TrxLine :=
  resumedLines claim F ++ fold.scanned

/-- What a pass knows of `t`: it has it in its fold, leaves a floor, or will look at it again. -/
def PassStage.Keeps (F : List TrxLine) (db : PoolDb) (t : TrxLine) : PassStage → Prop
  | .folded claim fold => t ∈ extended F claim fold ∨
      Lowered claim.floor (readClaim db.settlement).floor ∨ After claim.scanFrom t.pos
  | .writing .written p | .writing .reconciled p => t ∈ extended F p.claim p.fold ∨
      Lowered p.claim.floor (readClaim db.settlement).floor ∨ After p.claim.scanFrom t.pos
  | .writing .settled p => t ∈ extended F p.claim p.fold ∨
      p.floorPending = true ∨ After p.claim.scanFrom t.pos
  | .writing _ p => t ∈ extended F p.claim p.fold ∨
      (p.floorPending = true ∨ p.missed = true) ∨ After p.frontier t.pos
  | _ => True

/-- A pass that has counted its tail keeps the queue row for `t`. -/
def PassStage.Requeues (F : List TrxLine) (t : TrxLine) : PassStage → Prop
  | .writing point p => .counted ≤ point → t ∈ extended F p.claim p.fold ∨ p.keeps = true
  | _ => True

/-! ### The invariant -/

structure Current (db : PoolDb) (claim : Claim) : Prop where
  settled : claim.settled = (readClaim db.settlement).settled
  generation : claim.generation = (readClaim db.settlement).generation
  floor : (readClaim db.settlement).floor = claim.floor ∨
    Lowered claim.floor (readClaim db.settlement).floor

def Folded (cfg : PoolCfg) (F : List TrxLine) (db : PoolDb) (claim : Claim) (fold : PassFold) :
    Prop :=
  ∃ lines, lines <+: db.lines ∧ (∀ t ∈ F, t ∈ lines) ∧
    foldPass cfg claim { db with lines } = some fold

structure Wrote (db : PoolDb) (p : Pass) : Prop where
  layers : p.fold.layers db.layers = some p.own.layers
  costs : ∃ rows, p.own.costSettlements = db.costSettlements ++ rows ∧
    List.Forall₂ (SettlesAs (p.fold.generation p.claim)) rows
      (p.fold.pending.filter (·.delta ≠ 0) ++ p.fold.pending.filter (·.delta = 0))

/-- The pass has written the settlement row, unless it has no frontier. -/
structure Settled (db : PoolDb) (p : Pass) : Prop where
  row : ∀ f ∈ p.frontier, ∃ row ∈ p.own.settlement, row.settledThrough = some f ∧
    p.fold.generation p.claim ≤ row.generation
  floor : p.floorPending = true ∨ p.missed = true →
    p.frontier.isSome ∧ (readClaim p.own.settlement).floor.isSome
  lowered : Lowered p.claim.floor (readClaim db.settlement).floor → p.frontier.isSome →
    p.floorPending = true

def PassStage.Ok (cfg : PoolCfg) (F : List TrxLine) (db : PoolDb) : PassStage → Prop
  | .claimed | .escalated _ => True
  | .read claim => Current db claim
  | .folded claim fold => Current db claim ∧ Folded cfg F db claim fold
  | .writing point p => Current db p.claim ∧ Folded cfg F db p.claim p.fold ∧ Wrote db p ∧
      if point < .settled then p.floorPending = false ∧ p.missed = false else Settled db p

def Feed.Ok (db : PoolDb) (f : Feed) : Prop :=
  ∀ row' ∈ f.settlement, ∃ row ∈ db.settlement, ∃ m, FloorGuard m row ∧
    row' = { row with recostFloor := some m }

/-- The line is in the batch of a feed whose floor `UPDATE` found nothing to lower. -/
def Tx.Floored (id : ℤ) : Tx → Prop
  | .feed f => f.stage ≠ .begun ∧ f.settlement = none ∧ id ∈ physicalIds f.batch
  | _ => False

def Tx.Marked (id : ℤ) : Tx → Prop
  | .feed f => f.stage = .marked ∧ f.settlement = none ∧ f.mark = false ∧ id ∈ physicalIds f.batch
  | _ => False

def BatchCommitted (db : PoolDb) (f : Feed) : Prop :=
  ∀ id at', .physical id at' ∈ f.batch → Committed db (.physical id at')

structure Inv (cfg : PoolCfg) (s : State) (F : List TrxLine) (out : StrictFoldOutput) : Prop where
  checkpoint : Checkpoint cfg s.db F out
  delivered : ∀ id ∈ s.pool.delivered, ∃ t ∈ s.db.lines, t.id = id
  batches : ∀ f, .feed f ∈ s.txs → BatchCommitted s.db f
  claims : Exclusive s.txs Tx.HoldsClaim
  settlements : Exclusive s.txs Tx.HoldsSettlement
  marks : Exclusive s.txs Tx.WroteQueue
  queued : ∀ stage, .pass stage ∈ s.txs → s.db.queued = true
  unqueued : ∀ f, .feed f ∈ s.txs → f.mark = true → s.db.queued = false
  feeds : ∀ f, .feed f ∈ s.txs → f.Ok s.db
  passes : ∀ stage, .pass stage ∈ s.txs → stage.Ok cfg F s.db
  kept : ∀ t ∈ s.db.lines, (t.id ∈ s.pool.delivered ∨ ∃ tx ∈ s.txs, tx.Floored t.id) →
    Kept F s.db t ∧ ∀ stage, .pass stage ∈ s.txs → stage.Keeps F s.db t
  due : ∀ t ∈ s.db.lines, (t.id ∈ s.pool.delivered ∨ ∃ tx ∈ s.txs, tx.Marked t.id) →
    Due F s.db t ∧ ∀ stage, .pass stage ∈ s.txs → stage.Requeues F t

/-! ### A pass and the lines it knows -/

lemma Claim.scanFrom_of_fullReplay {claim : Claim} (h : claim.fullReplay = true) :
    claim.scanFrom = none := if_pos h

lemma after_scanFrom {claim : Claim} {p : Pos} (h : After claim.settled p) :
    After claim.scanFrom p := by
  unfold Claim.scanFrom
  split_ifs
  · exact after_none p
  · exact h

lemma after_scanFrom_of_floor {claim : Claim} (h : claim.floor.isSome) (p : Pos) :
    After claim.scanFrom p := by
  rw [Claim.scanFrom_of_fullReplay (by simp [Claim.fullReplay, h])]
  exact after_none p

namespace Folded

variable {claim : Claim}

lemma mem_extended (h : Folded cfg F db claim fold) (ht : t ∈ F) : t ∈ extended F claim fold := by
  obtain ⟨lines, -, hF, hfold⟩ := h
  unfold extended resumedLines
  split_ifs with hfull
  · rw [nil_append, (foldPass_eq_some hfold).1, mem_scanEvents, Claim.scanFrom_of_fullReplay hfull]
    exact ⟨hF t ht, after_none _⟩
  · exact mem_append_left _ ht

lemma scanned_subset (h : Folded cfg F db claim fold) (ht : t ∈ fold.scanned) : t ∈ db.lines := by
  obtain ⟨lines, hpre, -, hfold⟩ := h
  rw [(foldPass_eq_some hfold).1, mem_scanEvents] at ht
  exact hpre.subset ht.1

lemma mono (h : Folded cfg F db claim fold) (hlines : db.lines <+: db'.lines)
    (hlayers : db'.layers = db.layers) (hcosts : db'.costSettlements = db.costSettlements) :
    Folded cfg F db' claim fold := by
  obtain ⟨lines, hpre, hF, hfold⟩ := h
  refine ⟨lines, hpre.trans hlines, hF, ?_⟩
  rw [← hfold]
  unfold foldPass
  rw [hlayers, hcosts]

end Folded

section Pass

variable {claim : Claim}

lemma after_scanFrom_of_frontier (h : p.frontier = none) (q : Pos) : After p.claim.scanFrom q := by
  have hsettled : p.claim.settled = none := (or_eq_none_iff.mp h).2
  rw [Claim.scanFrom_of_fullReplay (by simp [Claim.fullReplay, hsettled])]
  exact after_none q

lemma Kept.folded (hk : Kept F db t) (hcur : Current db claim) (hf : Folded cfg F db claim fold) :
    t ∈ extended F claim fold ∨ Lowered claim.floor (readClaim db.settlement).floor ∨
      After claim.scanFrom t.pos := by
  rcases hk with hF | hfloor | hafter
  · exact .inl (hf.mem_extended hF)
  · rcases hcur.floor with heq | hlow
    · exact .inr (.inr (after_scanFrom_of_floor (heq ▸ hfloor) _))
    · exact .inr (.inl hlow)
  · exact .inr (.inr (after_scanFrom (hcur.settled ▸ hafter)))

lemma Settled.keeps (hs : Settled db p) (h : t ∈ extended F p.claim p.fold ∨
      Lowered p.claim.floor (readClaim db.settlement).floor ∨ After p.claim.scanFrom t.pos) :
    t ∈ extended F p.claim p.fold ∨ p.floorPending = true ∨ After p.claim.scanFrom t.pos := by
  rcases h with hmem | hlow | hafter
  · exact .inl hmem
  · rcases hf : p.frontier with _ | f
    · exact .inr (.inr (after_scanFrom_of_frontier hf _))
    · exact .inr (.inl (hs.lowered hlow (by rw [hf]; rfl)))
  · exact .inr (.inr hafter)

lemma keeps_of_firstMissed (hids : (db.lines.map (·.id)).Nodup)
    (hf : Folded cfg F db p.claim p.fold) (ht : t ∈ db.lines) (hmem : t ∈ lines)
    (hnone : p.firstMissed lines = none)
    (h : t ∈ extended F p.claim p.fold ∨ p.floorPending = true ∨ After p.claim.scanFrom t.pos) :
    t ∈ extended F p.claim p.fold ∨ (p.floorPending = true ∨ p.missed = true) ∨
      After p.frontier t.pos := by
  rcases h with hext | hpending | hafter
  · exact .inl hext
  · exact .inr (.inl (.inl hpending))
  · rcases hfr : p.frontier with _ | f
    · exact .inr (.inr (after_none _))
    rw [Pass.firstMissed, hfr, bind_some, firstMissed_eq_none] at hnone
    by_cases hle : t.pos ≤ f
    · obtain ⟨u, hu, hid⟩ := List.mem_map.mp (hnone t hmem hafter hle)
      have hut : u = t := inj_on_of_nodup_map hids (hf.scanned_subset hu) ht hid
      exact .inl (mem_append_right _ (hut ▸ hu))
    · exact .inr (.inr (after_some.mpr (not_le.mp hle)))

def PassStage.PastCheck : PassStage → Prop
  | .writing point _ => .checked ≤ point
  | _ => False

lemma PassStage.keeps_iff (hcheck : .checked ≤ point) :
    (PassStage.writing point p).Keeps F db t ↔ t ∈ extended F p.claim p.fold ∨
      (p.floorPending = true ∨ p.missed = true) ∨ After p.frontier t.pos := by
  cases point
  case written | reconciled | settled => exact absurd hcheck (by decide)
  all_goals rfl

/-- A line that is kept is known to any pass that has not looked for missed lines yet. -/
lemma Kept.keeps (hk : Kept F db t) (hok : stage.Ok cfg F db) (hcheck : ¬ stage.PastCheck) :
    stage.Keeps F db t := by
  rcases stage with _ | claim | ⟨claim, fold⟩ | e | ⟨point, p⟩
  case folded => exact hk.folded hok.1 hok.2
  case writing =>
    obtain ⟨hcur, hf, -, hs⟩ := hok
    have hfolded := hk.folded hcur hf
    cases point
    case written | reconciled => exact hfolded
    case settled =>
      rw [if_neg (by decide)] at hs
      exact hs.keeps hfolded
    all_goals exact absurd (show Point.checked ≤ _ by decide) hcheck
  all_goals trivial

end Pass

/-! ### The statements of a pass -/

/-- A statement takes a pass from `stage` to `stage'`. -/
structure PassAdvances (cfg : PoolCfg) (s : State) (F : List TrxLine) (i : ℕ)
    (stage stage' : PassStage) : Prop where
  ok : stage'.Ok cfg F s.db
  keeps : ∀ t ∈ s.db.lines, Kept F s.db t → stage.Keeps F s.db t → stage'.Keeps F s.db t
  requeues : ∀ t ∈ s.db.lines, stage.Keeps F s.db t → stage.Requeues F t → stage'.Requeues F t
  settlement : (Tx.pass stage').HoldsSettlement →
    (Tx.pass stage).HoldsSettlement ∨ NoOther s.txs i Tx.HoldsSettlement

section PassSteps

variable {claim : Claim} {periods : List AccountingPeriod}

lemma advances_claimed : PassAdvances cfg s F i .claimed (.read (readClaim s.db.settlement)) where
  ok := ⟨rfl, rfl, .inl rfl⟩
  keeps _ _ _ _ := trivial
  requeues _ _ _ _ := trivial
  settlement := False.elim

lemma advances_read (hck : Checkpoint cfg s.db F out) (hcur : Current s.db claim)
    (h : foldPass cfg claim s.db = some fold) :
    PassAdvances cfg s F i (.read claim) (.folded claim fold) where
  ok := ⟨hcur, s.db.lines, prefix_refl _, hck.subset, h⟩
  keeps _ _ hk _ := hk.folded hcur ⟨s.db.lines, prefix_refl _, hck.subset, h⟩
  requeues _ _ _ _ := trivial
  settlement := False.elim

lemma advances_written (hok : (PassStage.folded claim fold).Ok cfg F s.db) {layers : List LayerRow}
    (hwrite : fold.write cfg periods claim s.db = some db)
    (hlayers : fold.layers db.layers = some layers) :
    PassAdvances cfg s F i (.folded claim fold)
      (.writing .written { claim, fold, own := { db with layers } }) where
  ok := by
    obtain ⟨as, rows, n, rfl, -, hrows, -, -⟩ := PassFold.write_eq_some hwrite
    exact ⟨hok.1, hok.2, ⟨hlayers, rows, rfl, hrows⟩, rfl, rfl⟩
  keeps _ _ _ hk := hk
  requeues _ _ _ _ := fun h => absurd h (by decide)
  settlement h := absurd h.1 (by decide)

lemma advances_reconciled (hok : (PassStage.writing .written p).Ok cfg F s.db)
    (aggregate : Option Aggregate) :
    PassAdvances cfg s F i (.writing .written p)
      (.writing .reconciled { p with own := { p.own with aggregate } }) where
  ok := ⟨hok.1, hok.2.1, ⟨hok.2.2.1.layers, hok.2.2.1.costs⟩, hok.2.2.2⟩
  keeps _ _ _ hk := hk
  requeues _ _ _ _ := fun h => absurd h (by decide)
  settlement h := absurd h.1 (by decide)

lemma advances_unsettled (hok : (PassStage.writing .reconciled p).Ok cfg F s.db)
    (hnone : p.frontier = none) :
    PassAdvances cfg s F i (.writing .reconciled p) (.writing .settled p) := by
  obtain ⟨hcur, hf, hw, hfresh⟩ := hok
  rw [if_pos (by decide)] at hfresh
  have hsettled : Settled s.db p := by
    constructor
    · rw [hnone]
      simp
    · simp [hfresh]
    · rw [hnone]
      simp
  refine ⟨⟨hcur, hf, hw, ?_⟩, fun _ _ _ hk => hsettled.keeps hk, fun _ _ _ _ h => ?_, fun h => ?_⟩
  · rwa [if_neg (by decide)]
  · exact absurd h (by decide)
  · rw [Tx.HoldsSettlement, hnone] at h
    exact absurd h.2 (by simp)

lemma readClaim_floor (row : Option PoolSettlement) :
    (readClaim row).floor = row.bind (·.recostFloor) := by cases row <;> rfl

lemma settle_floor_isSome {generation : ℤ} {f : Pos}
    (h : Lowered claim.floor (readClaim row).floor) :
    (settle claim generation f row).recostFloor.isSome := by
  obtain ⟨g, hg, hlt⟩ := h
  rcases row with _ | r
  · cases hg
  · have hfloor : r.recostFloor = some g := hg
    have hne : r.recostFloor ≠ claim.floor := by
      intro heq
      exact lt_irrefl g (hlt g (heq ▸ hg))
    rw [settle, if_neg hne, hfloor]
    rfl

lemma generation_le_settle (claim : Claim) (generation : ℤ) (f : Pos)
    (row : Option PoolSettlement) :
    generation ≤ (settle claim generation f row).generation := by
  cases row
  · exact le_refl _
  · exact le_max_right _ _

lemma settle_settledThrough (claim : Claim) (generation : ℤ) (f : Pos)
    (row : Option PoolSettlement) : (settle claim generation f row).settledThrough = some f := by
  cases row <;> rfl

lemma Pass.settlement_of_frontier {f : Pos} (h : p.frontier = some f)
    (row : Option PoolSettlement) :
    p.fold.settlement p.claim row = some (settle p.claim (p.fold.generation p.claim) f row) := by
  rw [PassFold.settlement, show p.fold.frontier p.claim = some f from h]

lemma advances_settled (hok : (PassStage.writing .reconciled p).Ok cfg F s.db) {f : Pos}
    (hfrontier : p.frontier = some f) (hfree : NoOther s.txs i Tx.HoldsSettlement) :
    PassAdvances cfg s F i (.writing .reconciled p) (.writing .settled { p with
      own := { p.own with settlement := p.fold.settlement p.claim s.db.settlement }
      floorPending :=
        ((p.fold.settlement p.claim s.db.settlement).bind (·.recostFloor)).isSome }) := by
  obtain ⟨hcur, hf, hw, hfresh⟩ := hok
  rw [if_pos (by decide)] at hfresh
  have hrow := Pass.settlement_of_frontier hfrontier s.db.settlement
  have hsettled : Settled s.db { p with
      own := { p.own with settlement := p.fold.settlement p.claim s.db.settlement }
      floorPending :=
        ((p.fold.settlement p.claim s.db.settlement).bind (·.recostFloor)).isSome } := by
    constructor
    · intro g hg
      obtain rfl : f = g := some.inj (hfrontier.symm.trans hg)
      exact ⟨_, hrow, settle_settledThrough .., generation_le_settle ..⟩
    · rintro (hpending | hmissed)
      · refine ⟨by rw [Pass.frontier, show p.fold.frontier p.claim = _ from hfrontier]; rfl, ?_⟩
        rw [readClaim_floor]
        exact hpending
      · exact absurd hmissed (by simp [hfresh.2])
    · intro hlow _
      rw [hrow]
      exact settle_floor_isSome hlow
  refine ⟨⟨hcur, hf, ⟨hw.layers, hw.costs⟩, ?_⟩, fun _ _ _ hk => hsettled.keeps hk,
    fun _ _ _ _ h => absurd h (by decide), fun _ => .inr hfree⟩
  rwa [if_neg (by decide)]

/-- After `settle` the row stays locked, so only the pass's own writes change. -/
lemma PassStage.Ok.settled (h : (PassStage.writing point p).Ok cfg F s.db)
    (hpoint : .settled ≤ point) : Settled s.db p := by
  have hs := h.2.2.2
  rwa [if_neg (not_lt.mpr hpoint)] at hs

lemma PassStage.Ok.of_settled (hcur : Current s.db p.claim) (hf : Folded cfg F s.db p.claim p.fold)
    (hw : Wrote s.db p) (hs : Settled s.db p) (hpoint : .settled ≤ point) :
    (PassStage.writing point p).Ok cfg F s.db := by
  refine ⟨hcur, hf, hw, ?_⟩
  rwa [if_neg (not_lt.mpr hpoint)]

lemma advances_checked (hids : (s.db.lines.map (·.id)).Nodup)
    (hok : (PassStage.writing .settled p).Ok cfg F s.db) (hnone : p.firstMissed s.db.lines = none) :
    PassAdvances cfg s F i (.writing .settled p) (.writing .checked p) where
  ok := .of_settled hok.1 hok.2.1 hok.2.2.1 (hok.settled (by decide)) (by decide)
  keeps t ht _ hk := keeps_of_firstMissed hids hok.2.1 ht ht hnone hk
  requeues _ _ _ _ := fun h => absurd h (by decide)
  settlement h := .inl ⟨by decide, h.2⟩

lemma lowerFloor_isSome (q : Pos) (row : PoolSettlement) :
    (lowerFloor q row).recostFloor.isSome := by
  unfold lowerFloor
  split_ifs with h
  · rfl
  · rcases hf : row.recostFloor with _ | f
    · exact absurd (by simp [hf]) h
    · rfl

lemma lowerFloor_settledThrough (q : Pos) (row : PoolSettlement) :
    (lowerFloor q row).settledThrough = row.settledThrough := by
  unfold lowerFloor
  split_ifs <;> rfl

lemma lowerFloor_generation (q : Pos) (row : PoolSettlement) :
    (lowerFloor q row).generation = row.generation := by
  unfold lowerFloor
  split_ifs <;> rfl

lemma advances_missed (hok : (PassStage.writing .settled p).Ok cfg F s.db)
    (hsome : p.firstMissed s.db.lines = some t) :
    PassAdvances cfg s F i (.writing .settled p) (.writing .checked { p with
      own := { p.own with settlement := p.own.settlement.map (lowerFloor t.pos) }
      missed := true }) := by
  have hs := hok.settled (by decide)
  obtain ⟨f, hfrontier, -⟩ := bind_eq_some_iff.mp hsome
  obtain ⟨row, hrow, hthrough, hgen⟩ := hs.row f hfrontier
  have hmap : p.own.settlement.map (lowerFloor t.pos) = some (lowerFloor t.pos row) := by
    rw [show p.own.settlement = some row from hrow]
    rfl
  refine ⟨.of_settled hok.1 hok.2.1 ⟨hok.2.2.1.layers, hok.2.2.1.costs⟩ ⟨?_, ?_, hs.lowered⟩
    (by decide), fun _ _ _ _ => .inr (.inl (.inr rfl)), fun _ _ _ _ h => absurd h (by decide),
    fun h => .inl ⟨by decide, h.2⟩⟩
  · intro g hg
    obtain rfl : f = g := some.inj (hfrontier.symm.trans hg)
    exact ⟨_, hmap, (lowerFloor_settledThrough ..).trans hthrough,
      hgen.trans_eq (lowerFloor_generation ..).symm⟩
  · intro _
    refine ⟨isSome_iff_exists.mpr ⟨f, hfrontier⟩, ?_⟩
    rw [hmap]
    exact lowerFloor_isSome _ _

lemma advances_counted (hok : (PassStage.writing .checked p).Ok cfg F s.db) :
    PassAdvances cfg s F i (.writing .checked p)
      (.writing .counted { p with tail := tailCount s.db.lines p.frontier }) := by
  have hs := hok.settled (by decide)
  refine ⟨.of_settled hok.1 hok.2.1 ⟨hok.2.2.1.layers, hok.2.2.1.costs⟩
    ⟨hs.row, hs.floor, hs.lowered⟩ (by decide), fun _ _ _ hk => hk, fun t ht hk _ _ => ?_,
    fun h => .inl ⟨by decide, h.2⟩⟩
  rcases hk with hext | (hpending | hmissed) | hafter
  · exact .inl hext
  · exact .inr (by simp [Pass.keeps, hpending])
  · exact .inr (by simp [Pass.keeps, hmissed])
  · exact .inr (by simp [Pass.keeps, tailCount_pos ht hafter])

lemma advances_reset (hok : (PassStage.writing .counted p).Ok cfg F s.db)
    (backlog backpressure : Option ℤ) :
    PassAdvances cfg s F i (.writing .counted p)
      (.writing .reset { p with own := { p.own with backlog, backpressure } }) := by
  have hs := hok.settled (by decide)
  exact ⟨.of_settled hok.1 hok.2.1 ⟨hok.2.2.1.layers, hok.2.2.1.costs⟩
    ⟨hs.row, hs.floor, hs.lowered⟩ (by decide), fun _ _ _ hk => hk,
    fun _ _ _ hr _ => hr (by decide), fun h => .inl ⟨by decide, h.2⟩⟩

lemma advances_decided (hok : (PassStage.writing .reset p).Ok cfg F s.db) :
    PassAdvances cfg s F i (.writing .reset p) (.writing .decided p) where
  ok := .of_settled hok.1 hok.2.1 hok.2.2.1 (hok.settled (by decide)) (by decide)
  keeps _ _ _ hk := hk
  requeues _ _ _ hr _ := hr (by decide)
  settlement h := .inl ⟨by decide, h.2⟩

lemma PassMove.advances (h : PassMove cfg s i periods stage stage')
    (hck : Checkpoint cfg s.db F out) (hok : stage.Ok cfg F s.db) :
    PassAdvances cfg s F i stage stage' := by
  cases h with
  | reads => exact advances_claimed
  | folds hfold => exact advances_read hck hok hfold
  | escalates e => exact ⟨trivial, fun _ _ _ _ => trivial, fun _ _ _ _ => trivial, False.elim⟩
  | writes hwrite hlayers => exact advances_written hok hwrite hlayers
  | reconciles aggregate => exact advances_reconciled hok aggregate
  | unsettled hnone => exact advances_unsettled hok hnone
  | settles hfrontier hfree => exact advances_settled hok hfrontier hfree
  | checks hnone => exact advances_checked hck.ids hok hnone
  | misses hsome => exact advances_missed hok hsome
  | counts => exact advances_counted hok
  | resets _ => exact advances_reset hok _ _
  | decides => exact advances_decided hok

end PassSteps

/-! ### Steps that commit nothing -/

structure Joins (cfg : PoolCfg) (s : State) (F : List TrxLine) (tx : Tx) : Prop where
  batch : ∀ f, tx = .feed f → BatchCommitted s.db f
  queued : ∀ stage, tx = .pass stage → s.db.queued = true
  unqueued : ∀ f, tx = .feed f → f.mark = true → s.db.queued = false
  feed : ∀ f, tx = .feed f → f.Ok s.db
  pass : ∀ stage, tx = .pass stage → stage.Ok cfg F s.db
  kept : ∀ t ∈ s.db.lines, tx.Floored t.id →
    Kept F s.db t ∧ ∀ stage, .pass stage ∈ s.txs → stage.Keeps F s.db t
  keeps : ∀ stage, tx = .pass stage → ∀ t ∈ s.db.lines,
    (t.id ∈ s.pool.delivered ∨ ∃ u ∈ s.txs, u.Floored t.id) → stage.Keeps F s.db t
  due : ∀ t ∈ s.db.lines, tx.Marked t.id →
    Due F s.db t ∧ ∀ stage, .pass stage ∈ s.txs → stage.Requeues F t
  requeues : ∀ stage, tx = .pass stage → ∀ t ∈ s.db.lines,
    (t.id ∈ s.pool.delivered ∨ ∃ u ∈ s.txs, u.Marked t.id) → stage.Requeues F t

/-- A transaction begins or moves. What holds once a line is known, to the feed or to a transaction
in flight, still does if the new transaction agrees. -/
lemma known_of_mem {Q : Tx → Prop} (hmem : ∀ u ∈ txs', u ∈ txs ∨ u = tx)
    (h : (D ∨ ∃ u ∈ txs, K u) → P ∧ ∀ u ∈ txs, Q u) (hQ : (D ∨ ∃ u ∈ txs, K u) → Q tx)
    (hK : K tx → P ∧ Q tx ∧ ∀ u ∈ txs, Q u) (hknown : D ∨ ∃ u ∈ txs', K u) :
    P ∧ ∀ u ∈ txs', Q u := by
  have hcases : (D ∨ ∃ u ∈ txs, K u) ∨ K tx := by
    rcases hknown with hD | ⟨u, hu, hk⟩
    · exact .inl (.inl hD)
    · rcases hmem u hu with hu | rfl
      · exact .inl (.inr ⟨u, hu, hk⟩)
      · exact .inr hk
  rcases hcases with hold | hnew
  · obtain ⟨hP, hothers⟩ := h hold
    exact ⟨hP, fun u hu => (hmem u hu).elim (hothers u) fun heq => heq ▸ hQ hold⟩
  · obtain ⟨hP, hself, hothers⟩ := hK hnew
    exact ⟨hP, fun u hu => (hmem u hu).elim (hothers u) fun heq => heq ▸ hself⟩

lemma known_of_mem_passes {Q : PassStage → Prop} (hmem : ∀ u ∈ txs', u ∈ txs ∨ u = tx)
    (h : (D ∨ ∃ u ∈ txs, K u) → P ∧ ∀ stage, .pass stage ∈ txs → Q stage)
    (hQ : ∀ stage, tx = .pass stage → (D ∨ ∃ u ∈ txs, K u) → Q stage)
    (hpass : ∀ stage, ¬ K (.pass stage)) (hK : K tx → P ∧ ∀ stage, .pass stage ∈ txs → Q stage)
    (hknown : D ∨ ∃ u ∈ txs', K u) : P ∧ ∀ stage, .pass stage ∈ txs' → Q stage := by
  have hall := known_of_mem (Q := fun u => ∀ stage, u = .pass stage → Q stage) hmem
    (fun hold => ⟨(h hold).1, fun u hu stage heq => (h hold).2 stage (heq ▸ hu)⟩)
    (fun hold stage heq => hQ stage heq hold)
    (fun hnew => ⟨(hK hnew).1, fun stage heq => absurd (heq ▸ hnew) (hpass stage),
      fun u hu stage heq => (hK hnew).2 stage (heq ▸ hu)⟩) hknown
  exact ⟨hall.1, fun stage hs => hall.2 _ hs stage rfl⟩

/-- The invariant is about what is committed and which transactions are in flight. -/
lemma Inv.of_mem (h : Inv cfg s F out) (hmem : ∀ u ∈ txs, u ∈ s.txs ∨ u = tx)
    (hj : Joins cfg s F tx) (hclaims : Exclusive txs Tx.HoldsClaim)
    (hsettlements : Exclusive txs Tx.HoldsSettlement) (hmarks : Exclusive txs Tx.WroteQueue) :
    Inv cfg { s with txs } F out where
  checkpoint := h.checkpoint
  delivered := h.delivered
  batches f hf := (hmem _ hf).elim (h.batches f) fun heq => hj.batch f heq.symm
  claims := hclaims
  settlements := hsettlements
  marks := hmarks
  queued stage hs := (hmem _ hs).elim (h.queued stage) fun heq => hj.queued stage heq.symm
  unqueued f hf := (hmem _ hf).elim (h.unqueued f) fun heq => hj.unqueued f heq.symm
  feeds f hf := (hmem _ hf).elim (h.feeds f) fun heq => hj.feed f heq.symm
  passes stage hs := (hmem _ hs).elim (h.passes stage) fun heq => hj.pass stage heq.symm
  kept t ht := known_of_mem_passes hmem (h.kept t ht) (fun stage heq => hj.keeps stage heq t ht)
    (fun _ => id) (hj.kept t ht)
  due t ht := known_of_mem_passes hmem (h.due t ht) (fun stage heq => hj.requeues stage heq t ht)
    (fun _ => id) (hj.due t ht)

lemma Inv.set (h : Inv cfg s F out) {tx' : Tx} (hi : s.txs[i]? = some tx) (hj : Joins cfg s F tx')
    (hclaim : tx'.HoldsClaim → tx.HoldsClaim ∨ NoOther s.txs i Tx.HoldsClaim)
    (hsettlement : tx'.HoldsSettlement → tx.HoldsSettlement ∨ NoOther s.txs i Tx.HoldsSettlement)
    (hqueue : tx'.WroteQueue → tx.WroteQueue ∨ NoOther s.txs i Tx.WroteQueue) :
    Inv cfg (s.setTx i tx') F out :=
  h.of_mem (fun _ hu => mem_or_eq_of_mem_set hu) hj (h.claims.set hi hclaim)
    (h.settlements.set hi hsettlement) (h.marks.set hi hqueue)

lemma Inv.append (h : Inv cfg s F out) (hj : Joins cfg s F tx)
    (hclaim : tx.HoldsClaim → NoOther s.txs s.txs.length Tx.HoldsClaim)
    (hsettlement : ¬ tx.HoldsSettlement) (hqueue : ¬ tx.WroteQueue) :
    Inv cfg { s with txs := s.txs ++ [tx] } F out :=
  h.of_mem (fun _ hu => (mem_append.mp hu).imp id mem_singleton.mp) hj
    (h.claims.append hclaim) (h.settlements.append fun hh => absurd hh hsettlement)
    (h.marks.append fun hh => absurd hh hqueue)

lemma Tx.Marked.floored (h : tx.Marked id) : tx.Floored id := by
  cases tx with
  | feed f => exact ⟨by rw [h.1]; decide, h.2.1, h.2.2.2⟩
  | _ => cases h

/-- A transaction of the hot path, and one that is over, have no part in the hand-off. -/
lemma joins_of_idle (hfeed : ∀ f, tx ≠ .feed f) (hpass : ∀ stage, tx ≠ .pass stage) :
    Joins cfg s F tx := by
  have hfloored : ∀ id, ¬ tx.Floored id := by
    intro id h
    cases tx with
    | feed f => exact hfeed f rfl
    | _ => cases h
  exact ⟨fun f h => absurd h (hfeed f), fun st h => absurd h (hpass st),
    fun f h => absurd h (hfeed f), fun f h => absurd h (hfeed f), fun st h => absurd h (hpass st),
    fun t _ h => absurd h (hfloored t.id), fun st h => absurd h (hpass st),
    fun t _ h => absurd h.floored (hfloored t.id), fun st h => absurd h (hpass st)⟩

lemma Inv.finish (h : Inv cfg s F out) (hi : s.txs[i]? = some tx) :
    Inv cfg (s.setTx i .finished) F out := by
  refine h.set hi (joins_of_idle (fun _ heq => by cases heq) fun _ heq => by cases heq)
    (fun hh => ?_) (fun hh => ?_) fun hh => ?_
  all_goals cases hh

lemma Inv.beginFeed (h : Inv cfg s F out) (hcom : ∀ e ∈ batch, Committed s.db e) :
    Inv cfg { s with txs := s.txs ++ [.feed { batch }] } F out := by
  have hj : Joins cfg s F (.feed { batch }) := by
    constructor
    case batch =>
      rintro _ ⟨⟩ id at' he
      exact hcom _ he
    case unqueued =>
      rintro _ ⟨⟩ hm
      cases hm
    case feed =>
      rintro _ ⟨⟩ row' hrow'
      cases hrow'
    case kept => exact fun t _ hfl => absurd rfl hfl.1
    case due => exact fun t _ hm => by cases hm.1
    all_goals exact fun _ heq => by cases heq
  exact h.append hj False.elim (fun hh => by cases hh) fun hh => by cases hh

lemma Inv.claim (h : Inv cfg s F out) (hq : s.db.queued = true)
    (hfree : NoOther s.txs s.txs.length Tx.HoldsClaim) :
    Inv cfg { s with txs := s.txs ++ [.pass .claimed] } F out := by
  have hj : Joins cfg s F (.pass .claimed) := by
    constructor
    case queued => exact fun _ _ => hq
    case pass | keeps | requeues =>
      rintro _ ⟨⟩
      intros
      trivial
    case kept | due => exact fun t _ hfl => by cases hfl
    all_goals exact fun _ heq => by cases heq
  exact h.append hj (fun _ => hfree) (fun hh => by cases hh) fun hh => by cases hh

lemma Inv.movePass (h : Inv cfg s F out) (hi : s.txs[i]? = some (.pass stage))
    (ha : PassAdvances cfg s F i stage stage') : Inv cfg (s.setTx i (.pass stage')) F out := by
  have hmem : .pass stage ∈ s.txs := mem_of_getElem? hi
  have hj : Joins cfg s F (.pass stage') := by
    constructor
    case queued => exact fun _ _ => h.queued stage hmem
    case pass =>
      rintro _ ⟨⟩
      exact ha.ok
    case keeps =>
      rintro _ ⟨⟩ t ht hfl
      obtain ⟨hk, hkeeps⟩ := h.kept t ht hfl
      exact ha.keeps t ht hk (hkeeps stage hmem)
    case requeues =>
      rintro _ ⟨⟩ t ht hm
      have hkeeps := (h.kept t ht (hm.imp id fun ⟨u, hu, hmu⟩ => ⟨u, hu, hmu.floored⟩)).2 stage hmem
      exact ha.requeues t ht hkeeps ((h.due t ht hm).2 stage hmem)
    case kept | due => exact fun t _ hfl => by cases hfl
    all_goals exact fun _ heq => by cases heq
  refine h.set hi hj (fun _ => .inl trivial) ha.settlement fun _ =>
    .inr (noOther_iff.mpr fun j u hj hne hu => ?_)
  -- a pass is in flight: the queue row is committed, and no other pass has it
  cases u with
  | feed f =>
    have hfalse := h.unqueued f (mem_of_getElem? hj) hu
    rw [h.queued stage hmem] at hfalse
    cases hfalse
  | pass stage'' => exact h.claims j i _ _ hne hj hi trivial trivial
  | submitter t | finished => cases hu

/-! ### In time for the pass -/

def batchLines (db : PoolDb) (batch : List TrxLineEvent) : List TrxLine :=
  db.lines.filter (·.id ∈ physicalIds batch)

/-- A pass that has looked for missed lines leaves a floor, or finds none among `lines` either. -/
def Tx.MissesNone (lines : List TrxLine) : Tx → Prop
  | .pass (.writing point p) => .checked ≤ point →
      p.floorPending = true ∨ p.missed = true ∨ p.firstMissed lines = none
  | _ => True

/-- A pass that has counted its tail and not yet decided keeps the queue row, or counts none of
`lines` either. -/
def Tx.CountsNone (lines : List TrxLine) : Tx → Prop
  | .pass (.writing point p) => .counted ≤ point → point ≠ .decided →
      p.keeps = true ∨ tailCount lines p.frontier = 0
  | _ => True

/-- A floor `UPDATE` with nothing to lower runs before the missed-line check of any pass in flight,
or the check would find none of the batch's lines. -/
def FloorInTime (s : State) : Action → Prop
  | .feed i =>
    match s.txs[i]? with
    | some (.feed f) => f.stage = .begun → ¬ FloorMatches f.batch s.db.settlement →
        ∀ tx ∈ s.txs, tx.MissesNone (batchLines s.db f.batch)
    | _ => True
  | _ => True

/-- A mark runs before the tail count of any pass in flight or after its decision, or the count
would find none of the batch's lines. -/
def MarkInTime (s : State) : Action → Prop
  | .feed i =>
    match s.txs[i]? with
    | some (.feed f) => f.stage = .bumped → ∀ tx ∈ s.txs, tx.CountsNone (batchLines s.db f.batch)
    | _ => True
  | _ => True

instance (lines : List TrxLine) : DecidablePred (Tx.MissesNone lines)
  | .pass (.writing point p) => inferInstanceAs (Decidable (.checked ≤ point →
      p.floorPending = true ∨ p.missed = true ∨ p.firstMissed lines = none))
  | .pass .claimed | .pass (.read _) | .pass (.folded ..) | .pass (.escalated _)
  | .submitter _ | .feed _ | .finished => isTrue trivial

instance (lines : List TrxLine) : DecidablePred (Tx.CountsNone lines)
  | .pass (.writing point p) => inferInstanceAs (Decidable (.counted ≤ point → point ≠ .decided →
      p.keeps = true ∨ tailCount lines p.frontier = 0))
  | .pass .claimed | .pass (.read _) | .pass (.folded ..) | .pass (.escalated _)
  | .submitter _ | .feed _ | .finished => isTrue trivial

instance (s : State) : DecidablePred (FloorInTime s) := fun a => by
  unfold FloorInTime
  split
  · split <;> infer_instance
  · infer_instance
instance (s : State) : DecidablePred (MarkInTime s) := fun a => by
  unfold MarkInTime
  split
  · split <;> infer_instance
  · infer_instance

/-! ### The statements of a feed -/

section FeedSteps

lemma map_feedFloor_of_not_matches (h : ¬ FloorMatches batch row) :
    row.map (feedFloor batch) = row := by
  rcases row with _ | r
  · rfl
  · rw [map_some, feedFloor]
    rcases hm : batchMin batch with _ | m
    · rfl
    · simp only
      rw [if_neg fun hguard => h ⟨r, rfl, m, hm, hguard⟩]

lemma kept_of_not_matches (hck : Checkpoint cfg s.db F out) (hb : BatchCommitted s.db f)
    (hno : ¬ FloorMatches f.batch s.db.settlement) (ht : t ∈ s.db.lines)
    (hid : t.id ∈ physicalIds f.batch) : Kept F s.db t := by
  have hcases := hck.feed_cases hb ht hid
  rwa [map_feedFloor_of_not_matches hno] at hcases

lemma keeps_of_missesNone (h : Inv cfg s F out) (ht : t ∈ s.db.lines) (hk : Kept F s.db t)
    (hmem : t ∈ lines) (hstage : .pass stage ∈ s.txs) (hsees : (Tx.pass stage).MissesNone lines) :
    stage.Keeps F s.db t := by
  have hok := h.passes stage hstage
  by_cases hcheck : stage.PastCheck
  · cases stage with
    | writing point p =>
      have hs := hok.settled (le_trans (by decide) hcheck)
      have hfolded := hs.keeps (hk.folded hok.1 hok.2.1)
      rw [PassStage.keeps_iff hcheck]
      rcases hsees hcheck with hpending | hmissed | hnone
      · exact .inr (.inl (.inl hpending))
      · exact .inr (.inl (.inr hmissed))
      · exact keeps_of_firstMissed h.checkpoint.ids hok.2.1 ht hmem hnone hfolded
    | _ => cases hcheck
  · exact hk.keeps hok hcheck

lemma mem_batchLines (ht : t ∈ s.db.lines) (hid : t.id ∈ physicalIds f.batch) :
    t ∈ batchLines s.db f.batch := mem_filter.mpr ⟨ht, decide_eq_true hid⟩

lemma map_feedFloor_of_matches {settlement : Option PoolSettlement}
    (h : FloorMatches batch settlement) : ∃ row ∈ settlement, ∃ m, FloorGuard m row ∧
      settlement.map (feedFloor batch) = some { row with recostFloor := some m } := by
  obtain ⟨row, hrow, m, hm, hguard⟩ := h
  refine ⟨row, hrow, m, hguard, ?_⟩
  rw [show settlement = some row from hrow, map_some, feedFloor,
    show batchMin batch = some m from hm]
  simp only
  rw [if_pos hguard]

lemma requeues_of_countsNone (hmem : t ∈ lines) (hkeeps : stage.Keeps F s.db t)
    (hundecided : ¬ (Tx.pass stage).WroteQueue) (hsees : (Tx.pass stage).CountsNone lines) :
    stage.Requeues F t := by
  cases stage with
  | writing point p =>
    intro hcounted
    rw [PassStage.keeps_iff (le_trans (by decide) hcounted)] at hkeeps
    rcases hsees hcounted hundecided with hkeep | hzero
    · exact .inr hkeep
    rcases hkeeps with hext | (hpending | hmissed) | hafter
    · exact .inl hext
    · exact .inr (by simp [Pass.keeps, hpending])
    · exact .inr (by simp [Pass.keeps, hmissed])
    · exact absurd hafter (tailCount_eq_zero.mp hzero t hmem)
  | _ => trivial

variable (h : Inv cfg s F out) (hi : s.txs[i]? = some (.feed f))

include h hi

lemma Inv.moveFeed (hbatch : f'.batch = f.batch) (hok : f'.Ok s.db)
    (hsettlement : f'.settlement.isSome → f.settlement.isSome ∨ NoOther s.txs i Tx.HoldsSettlement)
    (hmark : f'.mark = true → f.mark = true ∨ NoOther s.txs i Tx.WroteQueue ∧ s.db.queued = false)
    (hkept : ∀ t ∈ s.db.lines, (Tx.feed f').Floored t.id → (Tx.feed f).Floored t.id ∨
      Kept F s.db t ∧ ∀ stage, .pass stage ∈ s.txs → stage.Keeps F s.db t)
    (hdue : ∀ t ∈ s.db.lines, (Tx.feed f').Marked t.id →
      Due F s.db t ∧ ∀ stage, .pass stage ∈ s.txs → stage.Requeues F t) :
    Inv cfg (s.setTx i (.feed f')) F out := by
  have hmem : .feed f ∈ s.txs := mem_of_getElem? hi
  have hj : Joins cfg s F (.feed f') := by
    constructor
    case batch =>
      rintro _ ⟨⟩ id at' he
      exact h.batches f hmem id at' (hbatch ▸ he)
    case unqueued =>
      rintro _ ⟨⟩ hm
      exact (hmark hm).elim (h.unqueued f hmem) And.right
    case feed =>
      rintro _ ⟨⟩
      exact hok
    case kept =>
      intro t ht hfl
      exact (hkept t ht hfl).elim (fun hold => h.kept t ht (.inr ⟨_, hmem, hold⟩)) id
    case due => exact hdue
    all_goals exact fun _ heq => by cases heq
  exact h.set hi hj False.elim hsettlement fun hm => (hmark hm).imp id And.left

lemma Inv.feed_unfloored
    (hstage : f.stage = .begun) (hmatch : ¬ FloorMatches f.batch s.db.settlement)
    (htime : FloorInTime s (.feed i)) :
    Inv cfg (s.setTx i (.feed { f with stage := .floored })) F out := by
  have hmem : .feed f ∈ s.txs := mem_of_getElem? hi
  refine h.moveFeed hi rfl (h.feeds f hmem) .inl .inl (fun t ht hfl => .inr ?_)
    fun _ _ hm => by cases hm.1
  simp only [FloorInTime, hi] at htime
  have hk := kept_of_not_matches h.checkpoint (h.batches f hmem) hmatch ht hfl.2.2
  exact ⟨hk, fun stage hs => keeps_of_missesNone h ht hk (mem_batchLines ht hfl.2.2) hs
    (htime hstage hmatch _ hs)⟩

lemma Inv.feed_floored
    (hmatch : FloorMatches f.batch s.db.settlement) (hfree : NoOther s.txs i Tx.HoldsSettlement) :
    Inv cfg (s.setTx i (.feed { f with
      stage := .floored, settlement := s.db.settlement.map (feedFloor f.batch) })) F out := by
  obtain ⟨row, hrow, m, hguard, hmap⟩ := map_feedFloor_of_matches hmatch
  refine h.moveFeed hi rfl (fun row' hrow' => ⟨row, hrow, m, hguard, ?_⟩) (fun _ => .inr hfree)
    .inl (fun t _ hfl => ?_) fun _ _ hm => by cases hm.1
  · exact some.inj (hrow'.symm.trans hmap)
  · exact absurd (hmap.symm.trans hfl.2.1) (by simp)

lemma Inv.feed_bumped (hstage : f.stage = .floored) (counter : Option (Option ℤ × Option ℤ)) :
    Inv cfg (s.setTx i (.feed { f with stage := .bumped, counter })) F out := by
  have hbefore : f.stage ≠ .begun := by rw [hstage]; decide
  exact h.moveFeed hi rfl (h.feeds f (mem_of_getElem? hi)) .inl .inl
    (fun t _ hfl => .inl ⟨hbefore, hfl.2⟩) fun _ _ hm => by cases hm.1

lemma Inv.feed_unmarked (hstage : f.stage = .bumped) (hempty : f.batch = []) :
    Inv cfg (s.setTx i (.feed { f with stage := .marked })) F out := by
  have hbefore : f.stage ≠ .begun := by rw [hstage]; decide
  refine h.moveFeed hi rfl (h.feeds f (mem_of_getElem? hi)) .inl .inl
    (fun t _ hfl => .inl ⟨hbefore, hfl.2⟩) fun t _ hm => ?_
  have hid : t.id ∈ physicalIds f.batch := hm.2.2.2
  rw [hempty] at hid
  cases hid

lemma Inv.feed_marked (hstage : f.stage = .bumped) (hfree : NoOther s.txs i Tx.WroteQueue)
    (htime : MarkInTime s (.feed i)) :
    Inv cfg (s.setTx i (.feed { f with stage := .marked, mark := !s.db.queued })) F out := by
  have hmem : .feed f ∈ s.txs := mem_of_getElem? hi
  have hbefore : f.stage ≠ .begun := by rw [hstage]; decide
  refine h.moveFeed hi rfl (h.feeds f hmem) .inl (fun hm => .inr ⟨hfree, by simpa using hm⟩)
    (fun t _ hfl => .inl ⟨hbefore, hfl.2⟩) fun t ht hm => ?_
  obtain ⟨-, hnone, hunmarked, hid⟩ := hm
  simp only [MarkInTime, hi] at htime
  have hk := h.kept t ht (.inr ⟨_, hmem, hbefore, hnone, hid⟩)
  refine ⟨.inr (.inl (by simpa using hunmarked)), fun stage hs => ?_⟩
  exact requeues_of_countsNone (mem_batchLines ht hid) (hk.2 stage hs)
    (hfree.of_mem hi hs (by simp)) (htime hstage _ hs)

lemma Inv.feedMove (hmove : FeedMove cfg s i f f') (hfloor : FloorInTime s (.feed i))
    (hmark : MarkInTime s (.feed i)) : Inv cfg (s.setTx i (.feed f')) F out := by
  cases hmove with
  | unfloored hstage hmatch => exact h.feed_unfloored hi hstage hmatch hfloor
  | floored _ hmatch hfree => exact h.feed_floored hi hmatch hfree
  | unbumped hstage _ => exact h.feed_bumped hi hstage f.counter
  | bumped hstage _ _ counter => exact h.feed_bumped hi hstage (some counter)
  | unmarked hstage hempty => exact h.feed_unmarked hi hstage hempty
  | marked hstage _ hfree => exact h.feed_marked hi hstage hfree hmark

end FeedSteps

/-! ### Commits -/

lemma PassStage.keeps_congr (h : db'.settlement = db.settlement) :
    stage.Keeps F db' t ↔ stage.Keeps F db t := by
  unfold PassStage.Keeps
  rw [h]

lemma Current.congr {claim : Claim} (h : Current db claim) (hs : db'.settlement = db.settlement) :
    Current db' claim :=
  ⟨hs ▸ h.settled, hs ▸ h.generation, hs ▸ h.floor⟩

lemma PassStage.Ok.congr (h : stage.Ok cfg F db) (hlines : db.lines <+: db'.lines)
    (hlayers : db'.layers = db.layers) (hcosts : db'.costSettlements = db.costSettlements)
    (hs : db'.settlement = db.settlement) : stage.Ok cfg F db' := by
  cases stage with
  | claimed | escalated => trivial
  | read claim => exact Current.congr h hs
  | folded claim fold => exact ⟨h.1.congr hs, h.2.mono hlines hlayers hcosts⟩
  | writing point p =>
    obtain ⟨hcur, hf, hw, hsettled⟩ := h
    refine ⟨hcur.congr hs, hf.mono hlines hlayers hcosts,
      ⟨hlayers ▸ hw.layers, hcosts ▸ hw.costs⟩, ?_⟩
    split_ifs at hsettled ⊢
    · exact hsettled
    · exact ⟨hsettled.row, hsettled.floor, hs ▸ hsettled.lowered⟩

lemma BatchCommitted.exists_line (h : BatchCommitted db f) (hid : id ∈ physicalIds f.batch) :
    ∃ u ∈ db.lines, u.id = id := by
  obtain ⟨at', he⟩ := mem_physicalIds.mp hid
  obtain ⟨u, hu, huid, -⟩ := h id at' he
  exact ⟨u, hu, huid⟩

lemma Inv.exists_line (h : Inv cfg s F out)
    (hid : id ∈ s.pool.delivered ∨ ∃ tx ∈ s.txs, tx.Floored id) : ∃ u ∈ s.db.lines, u.id = id := by
  rcases hid with hid | ⟨tx, htx, hfl⟩
  · exact h.delivered id hid
  · cases tx with
    | feed f => exact (h.batches f htx).exists_line hfl.2.2
    | _ => cases hfl

lemma Inv.of_db (h : Inv cfg s F out) (hids : (db'.lines.map (·.id)).Nodup)
    (hlines : s.db.lines <+: db'.lines) (hlayers : db'.layers = s.db.layers)
    (hcosts : db'.costSettlements = s.db.costSettlements)
    (hs : db'.settlement = s.db.settlement) (hq : db'.queued = s.db.queued) :
    Inv cfg { s with pool := { s.pool with db := db' } } F out := by
  have hsub : ∀ t ∈ s.db.lines, t ∈ db'.lines := fun t ht => hlines.subset ht
  -- ids are never handed out twice, so a new line has not been delivered
  have hold : ∀ t ∈ db'.lines, (t.id ∈ s.pool.delivered ∨ ∃ tx ∈ s.txs, tx.Floored t.id) →
      t ∈ s.db.lines := by
    intro t ht hid
    obtain ⟨u, hu, huid⟩ := h.exists_line hid
    exact inj_on_of_nodup_map hids (hsub u hu) ht huid ▸ hu
  constructor
  case checkpoint => exact h.checkpoint.congr hids hsub hlayers hcosts (by rw [hs]) (by rw [hs])
  case delivered =>
    intro id hid
    obtain ⟨u, hu, huid⟩ := h.delivered id hid
    exact ⟨u, hsub u hu, huid⟩
  case batches =>
    intro f hf id at' he
    obtain ⟨u, hu, hu'⟩ := h.batches f hf id at' he
    exact ⟨u, hsub u hu, hu'⟩
  case claims => exact h.claims
  case settlements => exact h.settlements
  case marks => exact h.marks
  case queued => exact fun stage hstage => hq.trans (h.queued stage hstage)
  case unqueued => exact fun f hf hm => hq.trans (h.unqueued f hf hm)
  case feeds =>
    intro f hf row' hrow'
    rw [show ({ s with pool := { s.pool with db := db' } } : State).db.settlement = _ from hs]
    exact h.feeds f hf row' hrow'
  case passes => exact fun stage hstage => (h.passes stage hstage).congr hlines hlayers hcosts hs
  case kept =>
    intro t ht hid
    obtain ⟨hk, hkeeps⟩ := h.kept t (hold t ht hid) hid
    refine ⟨?_, fun stage hstage => (PassStage.keeps_congr hs).mpr (hkeeps stage hstage)⟩
    unfold Kept
    rwa [show ({ s with pool := { s.pool with db := db' } } : State).db.settlement = _ from hs]
  case due =>
    intro t ht hid
    have hmem := hold t ht (hid.imp id fun ⟨u, hu, hm⟩ => ⟨u, hu, hm.floored⟩)
    obtain ⟨hd, hrequeues⟩ := h.due t hmem hid
    refine ⟨?_, hrequeues⟩
    unfold Due
    rwa [show ({ s with pool := { s.pool with db := db' } } : State).db.settlement = _ from hs,
      show ({ s with pool := { s.pool with db := db' } } : State).db.queued = _ from hq]

lemma known_of_set {P : Tx → Prop} (hP : ¬ P .finished)
    (hid : id ∈ s.pool.delivered ∨ ∃ tx ∈ s.txs.set i .finished, P tx) :
    id ∈ s.pool.delivered ∨ ∃ tx ∈ s.txs, P tx := by
  refine hid.imp_right fun ⟨tx, htx, hp⟩ => ⟨tx, ?_, hp⟩
  rcases mem_or_eq_of_mem_set htx with htx | rfl
  · exact htx
  · exact absurd hp hP

lemma known_afterFeed {P : Tx → Prop} (hP : ¬ P .finished)
    (hid : id ∈ (s.afterFeed i f).pool.delivered ∨ ∃ tx ∈ (s.afterFeed i f).txs, P tx) :
    (id ∈ s.pool.delivered ∨ ∃ tx ∈ s.txs, P tx) ∨ id ∈ physicalIds f.batch := by
  rcases hid with hid | hid
  · exact (mem_append.mp hid).imp_left .inl
  · exact .inl (known_of_set hP (.inr hid))

lemma pass_of_mem_set (hstage : .pass stage ∈ s.txs.set i .finished) : .pass stage ∈ s.txs :=
  (mem_or_eq_of_mem_set hstage).resolve_right (by simp)

lemma feed_of_mem_set (hf : .feed f ∈ s.txs.set i .finished) : .feed f ∈ s.txs :=
  (mem_or_eq_of_mem_set hf).resolve_right (by simp)

section

variable (h : Inv cfg s F out)
include h

lemma Inv.delivered_afterFeed (hf : .feed f ∈ s.txs)
    (hid : id ∈ (s.afterFeed i f).pool.delivered) : ∃ u ∈ s.db.lines, u.id = id :=
  (mem_append.mp hid).elim (h.delivered id) (h.batches f hf).exists_line

lemma Inv.queued_afterFeed (hst : .pass stage ∈ s.txs.set i .finished) :
    (f.apply s.db).queued = true := by
  show (s.db.queued || f.mark) = true
  rw [h.queued stage (pass_of_mem_set hst), Bool.true_or]

lemma Inv.unqueued_afterFeed {g : Feed} (hi : s.txs[i]? = some (.feed f))
    (hg : .feed g ∈ s.txs.set i .finished) (hm : g.mark = true) :
    (f.apply s.db).queued = false := by
  obtain ⟨j, hji, hj⟩ := exists_of_mem_set hg (by simp)
  have hfm : f.mark = false := by
    by_contra hfm
    exact h.marks i j _ _ hji.symm hi hj (show f.mark = true by simpa using hfm) hm
  show (s.db.queued || f.mark) = false
  rw [h.unqueued g (mem_of_getElem? hj) hm, hfm, Bool.or_false]

lemma Inv.commit_feed_plain (hi : s.txs[i]? = some (.feed f))
    (hstage : f.stage = .marked) (hnone : f.settlement = none) :
    Inv cfg (s.afterFeed i f) F out := by
  have hmem : .feed f ∈ s.txs := mem_of_getElem? hi
  have hbefore : f.stage ≠ .begun := by rw [hstage]; decide
  have h' := h.finish hi
  have hs : (f.apply s.db).settlement = s.db.settlement := by rw [Feed.apply, hnone, none_or]
  constructor
  case checkpoint =>
    exact h.checkpoint.congr h.checkpoint.ids (fun _ ht => ht) rfl rfl (by rw [hs]) (by rw [hs])
  case delivered => exact fun id hid => h.delivered_afterFeed hmem hid
  case batches => exact h'.batches
  case claims => exact h'.claims
  case settlements => exact h'.settlements
  case marks => exact h'.marks
  case queued => exact fun stage hst => h.queued_afterFeed hst
  case unqueued => exact fun g hg hm => h.unqueued_afterFeed hi hg hm
  case feeds =>
    intro g hg row' hrow'
    rw [hs]
    exact h'.feeds g hg row' hrow'
  case passes =>
    exact fun stage hst => (h'.passes stage hst).congr (prefix_refl _) rfl rfl hs
  case kept =>
    intro t ht hid
    have hid' : t.id ∈ s.pool.delivered ∨ ∃ tx ∈ s.txs, tx.Floored t.id :=
      (known_afterFeed (fun hfl => hfl) hid).elim id fun hid =>
        .inr ⟨_, hmem, hbefore, hnone, hid⟩
    obtain ⟨hk, hkeeps⟩ := h.kept t ht hid'
    refine ⟨?_, fun stage hst =>
      (PassStage.keeps_congr hs).mpr (hkeeps stage (pass_of_mem_set hst))⟩
    unfold Kept
    rwa [show (s.afterFeed i f).db.settlement = _ from hs]
  case due =>
    intro t ht hid
    have hcase : (t.id ∈ s.pool.delivered ∨ ∃ tx ∈ s.txs, tx.Marked t.id) ∨ f.mark = true := by
      rcases known_afterFeed (fun hm => hm) hid with hid | hid
      · exact .inl hid
      · rcases hm : f.mark
        · exact .inl (.inr ⟨_, hmem, hstage, hnone, hm, hid⟩)
        · exact .inr rfl
    have hq : ∀ stage, .pass stage ∈ s.txs → f.mark = false := by
      intro stage hst
      by_contra hm
      have hfalse := h.unqueued f hmem (by simpa using hm)
      rw [h.queued stage hst] at hfalse
      cases hfalse
    rcases hcase with hid | hm
    · obtain ⟨hd, hrequeues⟩ := h.due t ht hid
      refine ⟨?_, fun stage hst => hrequeues stage (pass_of_mem_set hst)⟩
      rcases hd with hF | hqueued | hfloor
      · exact .inl hF
      · exact .inr (.inl (show (s.db.queued || f.mark) = true by rw [hqueued, Bool.true_or]))
      · exact .inr (.inr (show (readClaim (f.apply s.db).settlement).floor.isSome by rwa [hs]))
    · refine ⟨.inr (.inl (show (s.db.queued || f.mark) = true by rw [hm, Bool.or_true])),
        fun stage hst => ?_⟩
      rw [hq stage (pass_of_mem_set hst)] at hm
      cases hm

lemma Inv.unsettled (hf : .feed f ∈ s.txs) (hsome : f.settlement.isSome)
    (hp : .pass (.writing point p) ∈ s.txs) : point < .settled := by
  by_contra hpoint
  obtain ⟨row', hrow'⟩ := isSome_iff_exists.mp hsome
  obtain ⟨row, hrow, m, ⟨⟨g, hg, -⟩, -⟩, -⟩ := h.feeds f hf row' hrow'
  have hfrontier : p.frontier.isSome := by
    -- the row has a frontier, and so has the claim
    have hsettled : p.claim.settled = some g := by
      rw [(h.passes _ hp).1.settled, show s.db.settlement = some row from hrow]
      exact hg
    unfold Pass.frontier PassFold.frontier
    rw [hsettled]
    simp
  exact h.settlements.of_mem hf hp (by simp) hsome ⟨not_lt.mp hpoint, hfrontier⟩

lemma Inv.commit_feed_lowered (hi : s.txs[i]? = some (.feed f))
    {row' : PoolSettlement} (hrow' : f.settlement = some row') :
    Inv cfg (s.afterFeed i f) F out := by
  have hmem : .feed f ∈ s.txs := mem_of_getElem? hi
  have hsome : f.settlement.isSome := by rw [hrow']; rfl
  obtain ⟨row, hrow, m, hguard, rfl⟩ := h.feeds f hmem row' hrow'
  have h' := h.finish hi
  have hs : s.db.settlement = some row := hrow
  have hs' : (f.apply s.db).settlement = some { row with recostFloor := some m } := by
    rw [Feed.apply, hrow', some_or]
  have hfloor : (readClaim (f.apply s.db).settlement).floor = some m := by rw [hs']; rfl
  have hlowered : ∀ claim, Current s.db claim →
      Lowered claim.floor (readClaim (f.apply s.db).settlement).floor := by
    intro claim hcur
    rw [hfloor]
    refine ⟨m, rfl, fun c hc => ?_⟩
    rcases hcur.floor with heq | ⟨g, hg, hlt⟩
    · rw [hs] at heq
      exact hguard.2 c (show c ∈ (readClaim (some row)).floor by rw [heq]; exact hc)
    · rw [hs] at hg
      exact (hguard.2 g hg).trans (hlt c hc)
  have hbefore : ∀ {point p}, .pass (.writing point p) ∈ s.txs.set i .finished → point < .settled :=
    fun hst => h.unsettled hmem hsome (pass_of_mem_set hst)
  have hcur' : ∀ {claim}, Current s.db claim → Current (f.apply s.db) claim := fun {claim} hcur =>
    ⟨by rw [hcur.settled, hs, hs']; rfl, by rw [hcur.generation, hs, hs']; rfl,
      .inr (hlowered claim hcur)⟩
  constructor
  case checkpoint =>
    exact h.checkpoint.congr h.checkpoint.ids (fun _ ht => ht) rfl rfl
      (show (readClaim (f.apply s.db).settlement).settled = _ by rw [hs, hs']; rfl)
      (show (readClaim (f.apply s.db).settlement).generation = _ by rw [hs, hs']; rfl)
  case delivered => exact fun id hid => h.delivered_afterFeed hmem hid
  case batches => exact h'.batches
  case claims => exact h'.claims
  case settlements => exact h'.settlements
  case marks => exact h'.marks
  case queued => exact fun stage hst => h.queued_afterFeed hst
  case unqueued => exact fun g hg hm => h.unqueued_afterFeed hi hg hm
  case feeds =>
    intro g hg row'' hrow''
    obtain ⟨j, hji, hj⟩ := exists_of_mem_set hg (by simp)
    exact absurd (isSome_iff_exists.mpr ⟨row'', hrow''⟩)
      (h.settlements i j _ _ hji.symm hi hj hsome)
  case passes =>
    intro stage hst
    have hok := h.passes stage (pass_of_mem_set hst)
    cases stage with
    | claimed | escalated => trivial
    | read claim => exact hcur' hok
    | folded claim fold => exact ⟨hcur' hok.1, hok.2.mono (prefix_refl _) rfl rfl⟩
    | writing point p =>
      obtain ⟨hcur, hf, hw, hfresh⟩ := hok
      rw [if_pos (hbefore hst)] at hfresh
      refine ⟨hcur' hcur, hf.mono (prefix_refl _) rfl rfl, ⟨hw.layers, hw.costs⟩, ?_⟩
      rwa [if_pos (hbefore hst)]
  case kept =>
    intro t ht hid
    refine ⟨.inr (.inl (show (readClaim (f.apply s.db).settlement).floor.isSome by
      rw [hfloor]; rfl)), fun stage hst => ?_⟩
    have hok := h.passes stage (pass_of_mem_set hst)
    cases stage with
    | claimed | escalated | read => trivial
    | folded claim fold => exact .inr (.inl (hlowered claim hok.1))
    | writing point p =>
      have hlow := hlowered p.claim hok.1
      have hpoint := hbefore hst
      cases point
      case written | reconciled => exact .inr (.inl hlow)
      all_goals exact absurd hpoint (by decide)
  case due =>
    intro t ht hid
    refine ⟨.inr (.inr (show (readClaim (f.apply s.db).settlement).floor.isSome by
      rw [hfloor]; rfl)), fun stage hst => ?_⟩
    cases stage with
    | writing point p =>
      exact fun hcounted => absurd (lt_of_le_of_lt hcounted (hbefore hst)) (by decide)
    | _ => trivial

end

def Pass.scanDb (p : Pass) (db : PoolDb) (lines : List TrxLine) : PoolDb :=
  { db with lines, settlement := some ⟨p.claim.generation, p.claim.settled, p.claim.floor⟩ }

lemma Inv.checkpoint_scanDb (h : Inv cfg s F out) (hcur : Current s.db p.claim)
    (hpre : lines <+: s.db.lines) (hF : ∀ t ∈ F, t ∈ lines) :
    Checkpoint cfg (p.scanDb s.db lines) F out where
  ids := h.checkpoint.ids.sublist (hpre.sublist.map _)
  sorted := h.checkpoint.sorted
  subset := hF
  fold := h.checkpoint.fold
  layers := h.checkpoint.layers
  settled := hcur.settled.trans h.checkpoint.settled
  costs := h.checkpoint.costs
  generations r hr := (h.checkpoint.generations r hr).trans hcur.generation.ge
  rows := h.checkpoint.rows

lemma readClaim_apply (hcur : Current s.db p.claim) (hs : Settled s.db p) :
    (readClaim (p.apply s.db).settlement).settled = p.frontier ∧
      p.claim.generation ≤ (readClaim (p.apply s.db).settlement).generation ∧
      (p.frontier.isSome →
        p.fold.generation p.claim ≤ (readClaim (p.apply s.db).settlement).generation) := by
  have hle := p.fold.le_generation p.claim
  rcases hf : p.frontier with _ | f
  · have hsettled : p.claim.settled = none := (or_eq_none_iff.mp hf).2
    have hrow : (p.apply s.db).settlement = s.db.settlement := by
      simp only [Pass.apply, hf, isSome_none, Bool.false_eq_true, if_false]
    rw [hrow, ← hcur.settled, ← hcur.generation]
    exact ⟨hsettled, le_refl _, fun h => by cases h⟩
  · obtain ⟨row, hown, hthrough, hgen⟩ := hs.row f hf
    have hrow : (p.apply s.db).settlement = some row := by
      simp only [Pass.apply, hf, isSome_some, if_true]
      exact hown
    rw [hrow]
    exact ⟨hthrough, hle.trans hgen, fun _ => hgen⟩

lemma floor_apply (hs : Settled s.db p) (h : p.floorPending = true ∨ p.missed = true) :
    (readClaim (p.apply s.db).settlement).floor.isSome := by
  obtain ⟨hfrontier, hfloor⟩ := hs.floor h
  simp only [Pass.apply, hfrontier, if_true]
  exact hfloor

lemma passCosted_apply (hids : (s.db.lines.map (·.id)).Nodup) (hcur : Current s.db p.claim)
    (hw : Wrote s.db p) (hs : Settled s.db p) (hpre : lines <+: s.db.lines)
    (hfrontier : p.fold.pending ≠ [] → p.frontier.isSome) :
    PassCosted (p.scanDb s.db lines) p.fold (p.apply s.db) := by
  obtain ⟨hsettled, hgen, hwritten⟩ := readClaim_apply hcur hs
  exact ⟨hids, fun t ht => hpre.subset ht, hw.layers, hsettled, hgen,
    fun hne => hwritten (hfrontier hne), hw.costs⟩

lemma Inv.commit_pass (h : Inv cfg s F out) (hi : s.txs[i]? = some (.pass (.writing .decided p))) :
    ∃ out', Inv cfg (s.afterPass i p) (extended F p.claim p.fold) out' := by
  have hmem : .pass (.writing .decided p) ∈ s.txs := mem_of_getElem? hi
  have hok := h.passes _ hmem
  have hs := hok.settled (by decide)
  obtain ⟨hcur, ⟨lines, hpre, hF, hfold⟩, hw, -⟩ := hok
  have hck := h.checkpoint_scanDb hcur hpre hF
  have hcosted := passCosted_apply h.checkpoint.ids hcur hw hs hpre (hck.frontier_of_pending hfold)
  have h' := h.finish hi
  -- no other pass is in flight, and no feed has written the settlement row or the queue row
  have hno : ∀ stage, .pass stage ∉ s.txs.set i .finished := by
    intro stage hst
    obtain ⟨j, hji, hj⟩ := exists_of_mem_set hst (by simp)
    exact h.claims j i _ _ hji hj hi trivial trivial
  have hunmarked : ∀ g, .feed g ∈ s.txs.set i .finished → g.mark ≠ true := fun g hg hm =>
    h.marks.of_mem (feed_of_mem_set hg) hmem (by simp) hm rfl
  have hunlowered : ∀ g, .feed g ∈ s.txs.set i .finished → ¬ g.settlement.isSome :=
    fun g hg hsome => absurd (h.unsettled (feed_of_mem_set hg) hsome hmem) (by decide)
  refine ⟨_, hck.extend hfold hcosted, h.delivered, h'.batches, h'.claims, h'.settlements, h'.marks,
    fun stage hst => absurd hst (hno stage), fun g hg hm => absurd hm (hunmarked g hg),
    fun g hg row hrow => ?_, fun stage hst => absurd hst (hno stage), fun t ht hid => ?_,
    fun t ht hid => ?_⟩
  · exact absurd (isSome_iff_exists.mpr ⟨row, hrow⟩) (hunlowered g hg)
  · have hkeeps := (h.kept t ht (known_of_set (fun hfl => hfl) hid)).2 _ hmem
    rw [PassStage.keeps_iff (by decide)] at hkeeps
    refine ⟨?_, fun stage hst => absurd hst (hno stage)⟩
    rcases hkeeps with hext | hfloor | hafter
    · exact .inl hext
    · exact .inr (.inl (floor_apply hs hfloor))
    · exact .inr (.inr (hcosted.settled ▸ hafter))
  · have hrequeues := (h.due t ht (known_of_set (fun hm => hm) hid)).2 _ hmem
    refine ⟨?_, fun stage hst => absurd hst (hno stage)⟩
    exact (hrequeues (by decide)).imp id .inl

/-! ### Runs -/

lemma Inv.moves (h : Inv cfg s F out) {a : Action} {s' : State} (hm : Moves cfg s a s')
    (hfloor : FloorInTime s a) (hmark : MarkInTime s a) : ∃ F' out', Inv cfg s' F' out' := by
  have hidle : ∀ t, Joins cfg s F (.submitter t) := fun t =>
    joins_of_idle (fun _ heq => by cases heq) fun _ heq => by cases heq
  cases hm with
  | beginSubmit =>
    exact ⟨F, out, h.append (hidle {}) (fun hh => by cases hh) (fun hh => by cases hh)
      fun hh => by cases hh⟩
  | insert hi =>
    exact ⟨F, out, h.set hi (hidle _) (fun hh => by cases hh) (fun hh => by cases hh)
      fun hh => by cases hh⟩
  | beginFeed hcom => exact ⟨F, out, h.beginFeed hcom⟩
  | feed hi hmove => exact ⟨F, out, h.feedMove hi hmove hfloor hmark⟩
  | claim hqueued hfree => exact ⟨F, out, h.claim hqueued hfree⟩
  | pass hi hmove =>
    exact ⟨F, out, h.movePass hi (hmove.advances h.checkpoint (h.passes _ (mem_of_getElem? hi)))⟩
  | commitSubmit hi hids =>
    exact ⟨F, out, (h.finish hi).of_db hids (prefix_append _ _) rfl rfl rfl rfl⟩
  | @commitFeed i f hi hstage =>
    rcases hrow : f.settlement with _ | row'
    · exact ⟨F, out, h.commit_feed_plain hi hstage hrow⟩
    · exact ⟨F, out, h.commit_feed_lowered hi hrow⟩
  | commitEscalated hi =>
    exact ⟨F, out, (h.finish hi).of_db h.checkpoint.ids (prefix_refl _) rfl rfl rfl rfl⟩
  | commitPass hi =>
    obtain ⟨out', h'⟩ := h.commit_pass hi
    exact ⟨_, out', h'⟩
  | abort hi => exact ⟨F, out, h.finish hi⟩

/-- Some fold's layers, costs and frontier are committed, and every line is known to the
hand-off. -/
theorem run_inv (cfg : PoolCfg) (actions : List Action)
    (h : Machine.Throughout (State.exec? cfg) (fun s a => FloorInTime s a ∧ MarkInTime s a) {}
      actions) : ∃ F out, Inv cfg (run cfg actions) F out := by
  refine run_invariant_of_throughout (P := fun s => ∃ F out, Inv cfg s F out) ?_ ?_ actions h
  · rintro s a s' hex ⟨hfloor, hmark⟩ ⟨F, out, hinv⟩
    exact hinv.moves (exec?_moves hex) hfloor hmark
  · refine ⟨[], ⟨[], []⟩, Checkpoint.empty cfg, ?_, ?_, .nil, .nil, .nil, ?_, ?_, ?_, ?_, ?_, ?_⟩
    all_goals simp

/-- **No lost line.** In every run in which the feed is in time for the passes in flight, at rest
every committed line is in the fold that the frontier, the layers and the current costs come
from. -/
theorem run_no_lost_line (cfg : PoolCfg) (actions : List Action)
    (h : Machine.Throughout (State.exec? cfg) (fun s a => FloorInTime s a ∧ MarkInTime s a) {}
      actions) (hrest : (run cfg actions).AtRest) :
    ∃ F out, Checkpoint cfg (run cfg actions).db F out ∧
      ∀ t ∈ (run cfg actions).db.lines, t ∈ F := by
  obtain ⟨F, out, hinv⟩ := run_inv cfg actions h
  refine ⟨F, out, hinv.checkpoint, fun t ht => ?_⟩
  rcases (hinv.due t ht (.inl (hrest.pool.delivered t ht))).1 with hF | hqueued | hfloor
  · exact hF
  · rw [hrest.pool.not_queued] at hqueued
    cases hqueued
  · rw [readClaim_floor, hrest.pool.no_floor] at hfloor
    cases hfloor

/-! ### Two late feeds -/

lemma not_covered (h : (strictFold cfg.newestFirst [] ((sortLines db.lines).map (·.toEvent))).map
      (fun out => out.layers.map (·.toRow)) ≠ some db.layers) :
    ¬ ∃ F out, Checkpoint cfg db F out ∧ ∀ t ∈ db.lines, t ∈ F := by
  rintro ⟨F, out, hck, hall⟩
  apply h
  rw [← hck.eq_sortLines hall, hck.fold, hck.layers]
  rfl

def receipt (id postedAt unitCost : ℤ) : SubmitLine :=
  ⟨id, postedAt, .poReceiptLine, 10, unitCost, none, true⟩

def claimedPass : List Action :=
  [.beginSubmit, .insert 0 (receipt 1 20 100), .commit 0,
    .beginFeed [.physical 1 20], .feed 1, .feed 1, .feed 1, .commit 1, .claim]

/-- The first `n` statements of the pass after its claim. -/
def passSteps (n : ℕ) : List Action := List.replicate n (.pass 2 [])

def secondReceipt (postedAt : ℤ) : List Action :=
  [.beginSubmit, .insert 3 (receipt 2 postedAt 200), .commit 3,
    .beginFeed [.physical 2 postedAt], .feed 4, .feed 4, .feed 4, .commit 4]

/-- A receipt dated 10 comes after the missed-line check: its floor `UPDATE` finds no settlement
row. -/
def lateFloor : List Action :=
  claimedPass ++ passSteps 6 ++ secondReceipt 10 ++ passSteps 3 ++ [.commit 2]

/-- A receipt dated 30 comes after the tail count: its mark finds the queue row. -/
def lateMark : List Action :=
  claimedPass ++ passSteps 7 ++ secondReceipt 30 ++ passSteps 2 ++ [.commit 2]

/-- **A late feed loses a line.** The pool is at rest, and its layers are those of the first receipt
alone. -/
theorem run_lateFeed :
    ((run (sampleCfg false) lateFloor).AtRest ∧
      ¬ ∃ F out, Checkpoint (sampleCfg false) (run (sampleCfg false) lateFloor).db F out ∧
        ∀ t ∈ (run (sampleCfg false) lateFloor).db.lines, t ∈ F) ∧
    (run (sampleCfg false) lateMark).AtRest ∧
      ¬ ∃ F out, Checkpoint (sampleCfg false) (run (sampleCfg false) lateMark).db F out ∧
        ∀ t ∈ (run (sampleCfg false) lateMark).db.lines, t ∈ F := by
  refine ⟨⟨?_, not_covered ?_⟩, ?_, not_covered ?_⟩
  all_goals decide +kernel

/-- The receipt dated 10 comes after the scan: the missed-line check finds it, and a second pass
replays everything. -/
def timelyFeed : List Action :=
  claimedPass ++ passSteps 5 ++ secondReceipt 10 ++ passSteps 4 ++ [.commit 2, .claim] ++
    List.replicate 9 (.pass 5 []) ++ [.commit 5]

theorem run_timelyFeed_no_lost_line :
    (run (sampleCfg false) timelyFeed).db.lines.length = 2 ∧
      ∃ F out, Checkpoint (sampleCfg false) (run (sampleCfg false) timelyFeed).db F out ∧
        ∀ t ∈ (run (sampleCfg false) timelyFeed).db.lines, t ∈ F := by
  refine ⟨by decide +kernel, run_no_lost_line (sampleCfg false) timelyFeed ?_ ?_⟩
  all_goals decide +kernel

end Acct.V32.Handoff
