import Acct.Replay.Exclusion
import Acct.V3.Routed.Committer

/-!
# A commit group against its submissions one at a time

`oneByOne` is what a commit group is for: in list order, a submission commits if it decodes, its
plan succeeds on the state the committed ones before it left, and PostgreSQL takes the rows. When
the replay loop does the same is `commitGroup_eq_oneByOne_iff`.
-/

namespace Acct.V3

open Replay Option

variable (ofMicros : ℤ → Option ℤ)

/-! ### One submission -/

/-- A submission decodes: its timestamp exists and its lines have known types. -/
def Decoded.Decodes (d : Decoded) : Prop :=
  (ofMicros d.submission.postedAtMicros).isSome ∧ (decodeLines d.lines).isOk
  deriving Decidable

/-- Decode and plan the submission at index `i`. -/
def planOne (i : ℕ) (d : Decoded) (snapshot : Snapshot) :
    Verdict String PlannedSubmission Snapshot :=
  let micros := d.submission.postedAtMicros
  match ofMicros micros with
  | none => .fatal s!"submission #{i} posted_at_micros {micros} out of range"
  | some postedAt =>
    match decodeLines d.lines with
    | .error e => .fatal s!"submission #{i}: {e}"
    | .ok lineRequests =>
      match planApply snapshot lineRequests postedAt with
      | .error _ => .failed
      | .ok (snapshot, plan) =>
        .planned ⟨i, d.submission.trxType, d.submission.sourceId, postedAt, plan⟩ snapshot

/-- The submissions one at a time: those that commit, and the tables after. -/
def oneByOne : ℕ → Snapshot → Db → List Decoded → List PlannedSubmission × Db
  | _, _, db, [] => ([], db)
  | i, snapshot, db, d :: kept =>
    match planOne ofMicros i d snapshot with
    | .planned p snapshot' =>
      match db.applyPlanResult p with
      | .error _ => oneByOne (i + 1) snapshot db kept
      | .ok db' =>
        let rest := oneByOne (i + 1) snapshot' db' kept
        (p :: rest.1, rest.2)
    | _ => oneByOne (i + 1) snapshot db kept

/-- `apply_plan_result` as the savepoint sees it. -/
def writeOne (db : Db) (p : PlannedSubmission) : Write SqlError Db :=
  match db.applyPlanResult p with
  | .ok db => .done db
  | .error .uniqueViolation => .duplicate
  | .error e => .fatal e

/-- No write raises an error that is not caught, and no submission that commits one at a time is
struck out: those are the ones that fail to plan behind a recorded duplicate, as if it had taken
effect, in a walk that skips the failing ones and those struck out before. -/
def Undisturbed (pristine : Snapshot) (db : Db) (kept : List Decoded) : Prop :=
  Unharmed (planOne ofMicros) writeOne ∅ db 0 pristine kept

variable {ofMicros}

lemma idxInKept_of_planOne {i : ℕ} {d : Decoded} {snapshot snapshot' : Snapshot}
    {p : PlannedSubmission} (h : planOne ofMicros i d snapshot = .planned p snapshot') :
    p.idxInKept = i := by
  simp only [planOne] at h
  split at h
  · cases h
  · split at h
    · cases h
    · split at h
      · cases h
      · cases h
        rfl

lemma planOne_ne_fatal {d : Decoded} (h : d.Decodes ofMicros) (i : ℕ)
    (snapshot : Snapshot) (e : String) : planOne ofMicros i d snapshot ≠ .fatal e := by
  obtain ⟨htime, hlines⟩ := h
  obtain ⟨postedAt, htime⟩ := Option.isSome_iff_exists.mp htime
  intro hfatal
  simp only [planOne, htime] at hfatal
  cases hdec : decodeLines d.lines with
  | error e => simp [hdec, Except.isOk, Except.toBool] at hlines
  | ok lines =>
    simp only [hdec] at hfatal
    split at hfatal <;> cases hfatal

lemma exists_planOne_eq_fatal {d : Decoded} (h : ¬ d.Decodes ofMicros) (i : ℕ)
    (snapshot : Snapshot) : ∃ e, planOne ofMicros i d snapshot = .fatal e := by
  cases htime : ofMicros d.submission.postedAtMicros with
  | none => exact ⟨_, by simp only [planOne, htime]; rfl⟩
  | some postedAt =>
    cases hdec : decodeLines d.lines with
    | error e => exact ⟨_, by simp only [planOne, htime, hdec]; rfl⟩
    | ok lines => exact absurd ⟨by simp [htime], by simp [hdec, Except.isOk, Except.toBool]⟩ h

/-! ### The loops are those of the library -/

def PassOutcome.ofPass : Pass String PlannedSubmission → PassOutcome
  | .fatal e => .fatalDecode e
  | .failed i => .failed i
  | .clean rs => .clean (rs.map Prod.snd)

lemma PassOutcome.ofPass_cons (i : ℕ) (p : PlannedSubmission)
    (o : Pass String PlannedSubmission) : ofPass (o.cons (i, p)) = (ofPass o).cons p := by
  cases o <;> rfl

lemma planPass_cons (excluded : Finset ℕ) (i : ℕ) (snapshot : Snapshot) (d : Decoded)
    (kept : List Decoded) (hi : i ∉ excluded) :
    planPass ofMicros excluded i snapshot (d :: kept) =
      match planOne ofMicros i d snapshot with
      | .fatal e => .fatalDecode e
      | .failed => .failed i
      | .planned p snapshot' =>
        (planPass ofMicros excluded (i + 1) snapshot' kept).cons p := by
  rw [planPass, if_neg hi]
  cases htime : ofMicros d.submission.postedAtMicros with
  | none => simp only [planOne, htime]
  | some postedAt =>
    cases hdec : decodeLines d.lines with
    | error e => simp only [planOne, htime, hdec]
    | ok lines =>
      cases hplan : planApply snapshot lines postedAt with
      | error e | ok r => simp only [planOne, htime, hdec, hplan]

lemma planPass_eq (excluded : Finset ℕ) (i : ℕ) (snapshot : Snapshot) (kept : List Decoded) :
    planPass ofMicros excluded i snapshot kept =
      .ofPass (pass (planOne ofMicros) excluded i snapshot kept) := by
  induction kept generalizing i snapshot with
  | nil => rfl
  | cons d kept ih =>
    by_cases hi : i ∈ excluded
    · rw [planPass, if_pos hi, ih, pass_excluded hi]
    · rw [planPass_cons excluded i snapshot d kept hi]
      cases hp : planOne ofMicros i d snapshot with
      | fatal e => rw [pass_fatal hi hp]; rfl
      | failed => rw [pass_failed hi hp]; rfl
      | planned p snapshot' => rw [pass_planned hi hp, PassOutcome.ofPass_cons, ← ih]

def PlanOutcome.ofPlans : Except String (List (ℕ × PlannedSubmission)) → PlanOutcome
  | .error e => .fatalDecode e
  | .ok [] => .allExcluded
  | .ok (p :: rs) => .clean ((p :: rs).map Prod.snd)

lemma planAllLoop_eq {pristine : Snapshot} {kept : List Decoded} {cap : ℕ}
    {excluded excluded' : Finset ℕ} {o : Except String (List (ℕ × PlannedSubmission))}
    (h : replan (planOne ofMicros) 0 pristine kept cap excluded = some (o, excluded')) :
    planAllLoop ofMicros pristine kept cap excluded = (.ofPlans o, excluded') := by
  induction cap generalizing excluded with
  | zero => simp [replan] at h
  | succ cap ih =>
    rw [replan] at h
    rw [planAllLoop, planPass_eq]
    cases hp : pass (planOne ofMicros) excluded 0 pristine kept with
    | fatal e =>
      simp only [hp, some.injEq, Prod.mk.injEq] at h
      rw [← h.1, ← h.2]
      rfl
    | failed i =>
      simp only [hp] at h
      exact ih h
    | clean rs =>
      simp only [hp, some.injEq, Prod.mk.injEq] at h
      rw [← h.1, ← h.2]
      cases rs <;> rfl

lemma planAllWithInnerReplay_eq (pristine : Snapshot) (kept : List Decoded)
    (excluded : Finset ℕ) :
    planAllWithInnerReplay ofMicros pristine kept excluded =
      (.ofPlans (greedy (planOne ofMicros) excluded 0 pristine kept).1,
        excluded ∪ (greedy (planOne ofMicros) excluded 0 pristine kept).2) :=
  planAllLoop_eq (replan_eq (Nat.lt_succ_self _))

def Indexed (rs : List (ℕ × PlannedSubmission)) : Prop := ∀ p ∈ rs, p.2.idxInKept = p.1

lemma Indexed.eq_map {rs : List (ℕ × PlannedSubmission)} (h : Indexed rs) :
    (rs.map Prod.snd).map (fun p => (p.idxInKept, p)) = rs := by
  rw [List.map_map]
  conv_rhs => rw [← List.map_id rs]
  refine List.map_congr_left fun p hp => ?_
  simp [h p hp]

def WriteOutcome.ofWriteAll : WriteAll SqlError Db → WriteOutcome
  | .done db => .committed db
  | .duplicateAt idx => .uniqueViolationAt idx
  | .fatal e => .raised e

lemma writePlansInSubtx_eq {db : Db} {rs : List (ℕ × PlannedSubmission)} (h : Indexed rs) :
    writePlansInSubtx db (rs.map Prod.snd) = .ofWriteAll (writeAll writeOne db rs) := by
  induction rs generalizing db with
  | nil => rfl
  | cons q rs ih =>
    obtain ⟨i, p⟩ := q
    have hi : p.idxInKept = i := h (i, p) List.mem_cons_self
    have hrest : Indexed rs := fun q hq => h q (List.mem_cons_of_mem _ hq)
    rw [List.map_cons, writePlansInSubtx, writeAll, writeOne]
    cases db.applyPlanResult p with
    | ok db' => exact ih hrest
    | error e => cases e <;> simp [WriteOutcome.ofWriteAll, hi]

/-- The submissions a group commits, without their places. -/
def dropPlaces (q : List (ℕ × PlannedSubmission) × Db) : List PlannedSubmission × Db :=
  (q.1.map Prod.snd, q.2)

lemma replayLoop_eq {pristine : Snapshot} {db : Db} {kept : List Decoded} {n : ℕ}
    {excluded : Finset ℕ} {o : Except GroupError (List (ℕ × PlannedSubmission) × Db)}
    (h : settle (planOne ofMicros) writeOne db 0 pristine kept n excluded = some o) :
    replayLoop ofMicros pristine db kept n excluded = o.map dropPlaces := by
  induction n generalizing excluded with
  | zero => simp [settle] at h
  | succ n ih =>
    rw [settle] at h
    rw [replayLoop, planAllWithInnerReplay_eq]
    cases hg : (greedy (planOne ofMicros) excluded 0 pristine kept).1 with
    | error e =>
      simp only [hg, some.injEq] at h
      subst h
      rfl
    | ok rs =>
      have hidx : Indexed rs :=
        forall_of_greedy_eq_ok (P := fun i (p : PlannedSubmission) => p.idxInKept = i)
          (fun _ _ _ _ _ _ h => idxInKept_of_planOne h) hg
      simp only [hg] at h
      cases rs with
      | nil =>
        simp only [writeAll, some.injEq] at h
        subst h
        rfl
      | cons q rs =>
        simp only [PlanOutcome.ofPlans, writePlansInSubtx_eq hidx]
        cases hc : writeAll writeOne db (q :: rs) with
        | done db' | fatal e =>
          simp only [hc, some.injEq] at h
          subst h
          rfl
        | duplicateAt j =>
          simp only [hc] at h
          exact ih h

lemma oneByOne_eq (i : ℕ) (snapshot : Snapshot) (db : Db) (kept : List Decoded) :
    oneByOne ofMicros i snapshot db kept =
      dropPlaces (Replay.oneByOne (planOne ofMicros) writeOne db i snapshot kept) := by
  induction kept generalizing i snapshot db with
  | nil => rfl
  | cons d kept ih =>
    rw [oneByOne, Replay.oneByOne]
    cases planOne ofMicros i d snapshot with
    | fatal e | failed => exact ih _ _ _
    | planned p snapshot' =>
      cases hw : db.applyPlanResult p with
      | ok db' => simp only [writeOne, hw, ih, dropPlaces, keep, List.map_cons]
      | error e => cases e <;> simp only [writeOne, hw, ih]

/-! ### The result -/

section Result

variable {pristine : Snapshot} {db : Db} {kept : List Decoded}

lemma runPristineReplayLoop_of_decodes (h : ∀ d ∈ kept, d.Decodes ofMicros) :
    runPristineReplayLoop ofMicros pristine db kept =
      ((resolve (planOne ofMicros) writeOne ∅ db 0 pristine kept).mapError .inr).map dropPlaces :=
  replayLoop_eq (settle_eq_resolve (fun d hd i s e => planOne_ne_fatal (h d hd) i s e)
    (Nat.lt_succ_self _))

lemma runPristineReplayLoop_of_not_decodes (h : ∃ d ∈ kept, ¬ d.Decodes ofMicros) :
    ∃ e, runPristineReplayLoop ofMicros pristine db kept = .error (.inl e) := by
  obtain ⟨d, hmem, hd⟩ := h
  obtain ⟨pre, post, rfl⟩ := List.append_of_mem hmem
  have hfatal := fun i s => exists_planOne_eq_fatal hd i s
  obtain ⟨e, he⟩ : ∃ e, settle (planOne ofMicros) writeOne db 0 pristine (pre ++ d :: post)
      ((pre ++ d :: post).length + 1) ∅ = some (.error (.inl e)) :=
    settle_fatal hfatal (Finset.notMem_empty (0 + pre.length))
  exact ⟨e, replayLoop_eq he⟩

/-- `run_pristine_replay_loop` returns `Err` exactly if a submission of the group does not decode. -/
theorem runPristineReplayLoop_err_iff :
    (∃ e, runPristineReplayLoop ofMicros pristine db kept = .error (.inl e)) ↔
      ∃ d ∈ kept, ¬ d.Decodes ofMicros := by
  refine ⟨fun ⟨e, he⟩ => ?_, runPristineReplayLoop_of_not_decodes⟩
  by_contra hdec
  push Not at hdec
  rw [runPristineReplayLoop_of_decodes hdec] at he
  cases hq : resolve (planOne ofMicros) writeOne ∅ db 0 pristine kept with
  | ok q | error e' => simp [hq, Except.mapError, Except.map] at he

lemma commitGroup_of_not_decodes (h : ∃ d ∈ kept, ¬ d.Decodes ofMicros) :
    commitGroup ofMicros pristine db kept = ([], db) := by
  obtain ⟨e, he⟩ : ∃ e, runPristineReplayLoop ofMicros pristine db kept = .error (.inl e) :=
    runPristineReplayLoop_of_not_decodes h
  rw [commitGroup, he]

lemma oneByOne_of_nil (h : (oneByOne ofMicros 0 pristine db kept).1 = []) :
    oneByOne ofMicros 0 pristine db kept = ([], db) := by
  refine Prod.ext h ?_
  rw [oneByOne_eq] at h ⊢
  exact snd_oneByOne_of_eq_nil (List.map_eq_nil_iff.mp h)

/-- The places of the plans tell the lists of committed submissions apart. -/
lemma eq_of_dropPlaces {q q' : List (ℕ × PlannedSubmission) × Db} (h : Indexed q.1)
    (h' : Indexed q'.1) (heq : dropPlaces q = dropPlaces q') : q = q' := by
  obtain ⟨hplans, hdb⟩ := Prod.ext_iff.mp heq
  refine Prod.ext ?_ hdb
  rw [← h.eq_map, ← h'.eq_map]
  exact congrArg (List.map fun p => (p.idxInKept, p)) hplans

/-- The group agrees with its submissions one at a time exactly if the walk with side walks does. -/
lemma commitGroup_eq_iff_of_decodes (h : ∀ d ∈ kept, d.Decodes ofMicros) :
    commitGroup ofMicros pristine db kept = oneByOne ofMicros 0 pristine db kept ↔
      Undisturbed ofMicros pristine db kept ∨ (oneByOne ofMicros 0 pristine db kept).1 = [] := by
  rw [Undisturbed, ← resolve_eq_oneByOne_iff, commitGroup, runPristineReplayLoop_of_decodes h]
  cases hq : resolve (planOne ofMicros) writeOne ∅ db 0 pristine kept with
  | error e =>
    simp only [Except.mapError, Except.map, reduceCtorEq, false_or]
    exact ⟨fun heq => heq ▸ rfl, fun hnil => (oneByOne_of_nil hnil).symm⟩
  | ok q =>
    have hidx : Indexed q.1 :=
      forall_of_resolve (P := fun i (p : PlannedSubmission) => p.idxInKept = i)
        (fun _ _ _ _ _ _ h => idxInKept_of_planOne h) hq
    have hone : Indexed (Replay.oneByOne (planOne ofMicros) writeOne db 0 pristine kept).1 :=
      forall_of_oneByOne (P := fun i (p : PlannedSubmission) => p.idxInKept = i)
        (fun _ _ _ _ _ h => idxInKept_of_planOne h)
    simp only [Except.mapError, Except.map, Except.ok.injEq, oneByOne_eq]
    refine ⟨fun heq => .inl (eq_of_dropPlaces hidx hone heq), ?_⟩
    rintro (rfl | hnil)
    · rfl
    · rw [resolve_of_oneByOne_eq_nil (List.map_eq_nil_iff.mp hnil) hq]

end Result

/-- A commit group leaves what its submissions one at a time leave, exactly if all decode, no write
raises an error that is not caught and no recorded duplicate strikes out a submission that commits;
or if none commits at all. -/
theorem commitGroup_eq_oneByOne_iff (ofMicros : ℤ → Option ℤ) (pristine : Snapshot)
    (db : Db) (kept : List Decoded) :
    commitGroup ofMicros pristine db kept =
        oneByOne ofMicros 0 pristine db kept ↔
      (∀ d ∈ kept, d.Decodes ofMicros) ∧
          Undisturbed ofMicros pristine db kept ∨
        (oneByOne ofMicros 0 pristine db kept).1 = [] := by
  by_cases hdec : ∀ d ∈ kept, d.Decodes ofMicros
  · rw [commitGroup_eq_iff_of_decodes hdec]
    exact or_congr_left ⟨fun h => ⟨hdec, h⟩, And.right⟩
  · have hbad : ∃ d ∈ kept, ¬ d.Decodes ofMicros := by
      simpa only [not_forall, exists_prop] using hdec
    rw [commitGroup_of_not_decodes hbad]
    constructor
    · exact fun h => .inr (by rw [← h])
    · rintro (⟨h, -⟩ | h)
      · exact absurd h hdec
      · exact (oneByOne_of_nil h).symm

/-! ### A duplicate that takes another submission with it

Pool 1 is FIFO and holds 10 in one layer. Adjustment 1 is recorded already and comes again, issuing
all 10; adjustment 2 issues 5. -/

/-- The pool. -/
def tenOnHand : Snapshot where
  pools := fun pool => if pool = 1 then [⟨1, 10, 3, 7⟩] else []
  methodOf := fun pool => if pool = 1 then some .fifo else none
  maxTrxSeqOf := fun pool => if pool = 1 then 1 else 0

/-- An adjustment that issues `qty` from pool 1. -/
def issueOf (sourceId qty : ℤ) : Decoded where
  submission := ⟨"inv_adjustment", sourceId, 0⟩
  lines := [⟨"inv_adjustment_line", none, 1, -qty, 0, 100, 200⟩]

/-- Adjustment 1 with one line. -/
def adjustmentOf (line : Line) : Decoded := ⟨⟨"inv_adjustment", 1, 0⟩, [line]⟩

/-- A duplicate, planned ahead of it, makes adjustment 2 fail; an adjustment with an unknown line type
loses one that issues 5 beside it, and so does one with an unknown account. -/
theorem commitGroup_loses_submission :
    commitGroup some tenOnHand { accounts := [100, 200], trx := [((.invAdjustment, 1), 0)] }
        [issueOf 1 10, issueOf 2 5] ≠
      oneByOne some 0 tenOnHand { accounts := [100, 200], trx := [((.invAdjustment, 1), 0)] }
        [issueOf 1 10, issueOf 2 5] ∧
    commitGroup some tenOnHand { accounts := [100, 200] }
        [adjustmentOf ⟨"gift", none, 1, 1, 0, 100, 200⟩, issueOf 2 5] ≠
      oneByOne some 0 tenOnHand { accounts := [100, 200] }
        [adjustmentOf ⟨"gift", none, 1, 1, 0, 100, 200⟩, issueOf 2 5] ∧
    commitGroup some tenOnHand { accounts := [100, 200] }
        [adjustmentOf ⟨"inv_adjustment_line", none, 1, 1, 0, 100, 300⟩, issueOf 2 5] ≠
      oneByOne some 0 tenOnHand { accounts := [100, 200] }
        [adjustmentOf ⟨"inv_adjustment_line", none, 1, 1, 0, 100, 300⟩, issueOf 2 5] := by
  refine ⟨?_, ?_, ?_⟩
  all_goals
    refine fun h => absurd (congrArg (·.1.map PlannedSubmission.idxInKept) h) ?_
    decide +kernel

end Acct.V3
