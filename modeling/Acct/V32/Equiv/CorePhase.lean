import Acct.V32.Equiv.Apply

/-!
# One line on the tables, and the ledger-core phase

Applying a single line writes it with the outcome its book gives it (`applyLine_rel`). The
ledger-core phase plans all STD and specific lines on one snapshot: if no specific pool has more
depletions than layers it is those lines one after the other, otherwise it fails (`corePhase_eq`).
-/

namespace Acct.V32

open Table Machine List Option

variable {ref : Reference} {sub : Submission} {T : LedgerTables} {ids : List ℤ} {s : Snapshot}
  {es : List Effect} {lines : List TrxLineRequest} {line : TrxLineRequest}

/-! ### Identity values -/

lemma length_idsFrom (seq : ℤ) (n : ℕ) : (idsFrom seq n).length = n := by
  induction n generalizing seq with
  | zero => rfl
  | succ n ih => rw [idsFrom, length_cons, ih]

lemma lt_of_mem_idsFrom {seq id : ℤ} {n : ℕ} (h : id ∈ idsFrom seq n) : seq < id := by
  induction n generalizing seq with
  | zero => cases h
  | succ n ih =>
    rcases mem_cons.mp h with rfl | h
    · exact lt_add_one seq
    · exact (lt_add_one seq).trans (ih h)

lemma pairwise_idsFrom (seq : ℤ) (n : ℕ) : (idsFrom seq n).Pairwise (· < ·) := by
  induction n generalizing seq with
  | zero => exact .nil
  | succ n ih => exact .cons (fun id hid => lt_of_mem_idsFrom hid) (ih _)

/-! ### Plans -/

lemma mem_ascendingIds {p : ℤ} : p ∈ ascendingIds ids ↔ p ∈ ids := by
  rw [ascendingIds, mem_sortBy, mem_dedup]

lemma hydrateSnapshot_congr (db : Tables) {ids' : List ℤ} (h : ∀ p, p ∈ ids ↔ p ∈ ids') :
    db.hydrateSnapshot ids = db.hydrateSnapshot ids' := by
  unfold Tables.hydrateSnapshot Tables.touched
  simp only [h]

def planOf (postedAt : ℤ) (es : List Effect) : PlanResult :=
  es.foldl (fun r e => e.push r postedAt) {}

lemma planApply_toOption {postedAt : ℤ} (hqty : ∀ l ∈ lines, l.qty ≠ 0) :
    (planApply s lines postedAt).toOption = (effects s lines).map (planOf postedAt) := by
  rw [planApply, toOption_map]
  exact planLines_toOption postedAt s {} hqty

section Plan

variable (postedAt : ℤ)

lemma trxLines_planOf : (planOf postedAt es).trxLines = es.map (·.output) := by
  rw [planOf, foldl_push_trxLines]
  rfl

lemma mapM_write?_planOf (h : ids.length = es.length) :
    (planOf postedAt es).poolStateMutations.mapM (·.write? ids) =
      some ((es.zip ids).flatMap fun x => x.1.writes x.2) :=
  foldl_push_mutations postedAt h

lemma mapM_resolve_planOf (h : ids.length = es.length) :
    (planOf postedAt es).postingLines.mapM (·.resolve ids) =
      some ((es.zip ids).flatMap fun x => x.1.postings postedAt x.2) :=
  foldl_push_postings postedAt h

end Plan

namespace Reference

variable {writer : StateWriter} {o : Outcome}

@[simp] lemma trxLineIds_tables : (ref.tables T).trxLineIds = T.trxLines.map (·.id) := rfl

@[simp] lemma poolState_tables : (ref.tables T).poolState = T.poolState := rfl

@[simp] lemma periods_tables : (ref.tables T).periods = ref.periods := rfl

def writeEffects (sub : Submission) (T : LedgerTables) (es : List Effect) (t : PoolState) :
    LedgerTables :=
  T.write sub (es.map (·.output)) t
    ((es.zip (idsFrom T.trxLineSeq es.length)).flatMap fun x => x.1.postings sub.postedAt x.2)

theorem corePhase_eq_effects (hne : lines ≠ []) (hqty : ∀ l ∈ lines, l.qty ≠ 0) :
    ref.corePhase writer sub T lines =
      (effects ((ref.tables T).hydrateSnapshot (lines.map (·.poolId))) lines).bind fun es =>
        if ∀ e ∈ es, e.output.Accepted (T.trxLines.map (·.id)) ∧
            PeriodGuardAdmits ref.periods.rows sub.postedAt then
          (writer T.poolState (planOf sub.postedAt es).poolStateMutations
            (idsFrom T.trxLineSeq es.length)).map (writeEffects sub T es)
        else none := by
  rw [corePhase, if_neg hne]
  dsimp only
  rw [hydrateSnapshot_congr _ fun p => mem_ascendingIds, planApply_toOption hqty]
  cases effects ((ref.tables T).hydrateSnapshot (lines.map (·.poolId))) lines with
  | none => rfl
  | some es =>
    simp only [map_some, bind_eq_bind, bind_some, trxLines_planOf,
      length_map, Tables.insertTrxLines, List.forall_mem_map, trxLineIds_tables,
      periods_tables]
    rw [sortBy_eq_self (pairwise_idsFrom _ _)]
    by_cases haccepted : ∀ e ∈ es, e.output.Accepted (T.trxLines.map (·.id)) ∧
        PeriodGuardAdmits ref.periods.rows sub.postedAt
    · rw [if_pos haccepted, if_pos haccepted, bind_some, mapM_resolve_planOf _ (length_idsFrom _ _)]
      cases writer T.poolState (planOf sub.postedAt es).poolStateMutations
        (idsFrom T.trxLineSeq es.length) <;> rfl
    · rw [if_neg haccepted, if_neg haccepted]
      rfl

/-! ### One line -/

def Wrote (T : LedgerTables) (sub : Submission) (line : TrxLineRequest) (T' : LedgerTables)
    (o : Outcome) : Prop :=
  ∃ t, Recorded T.poolState t line.poolId (T.trxLineSeq + 1) o ∧ T' = T.append sub line o t

lemma cteOutcome?_layers {accounts : PostingAccounts} {row : PoolRow} {old : Option Aggregate}
    (h : ref.cteOutcome? accounts line row old = some o) :
    o.layers = .unchanged := by
  unfold cteOutcome? at h
  by_cases hearly : ref.cteEarly line row old
  · rw [if_pos hearly] at h
    cases h
  rw [if_neg hearly] at h
  obtain ⟨⟨a, cost⟩, -, h⟩ := bind_eq_some_iff.mp h
  dsimp only at h
  split at h
  · obtain ⟨amount, -, rfl⟩ := map_eq_some_iff.mp h
    rfl
  · obtain rfl := some.inj h
    rfl

lemma lineOutcome?_of_not_isCore (h : ref.isCore line.poolId = false)
    (old layer : Option Aggregate) :
    ref.lineOutcome? line old layer = (ref.pool line.poolId).bind fun row =>
      (ref.postingAccountMap (row.skuId, row.locationId)).bind fun accounts =>
        ref.cteOutcome? accounts line row old := by
  unfold lineOutcome?
  cases hrow : ref.pool line.poolId with
  | none => rfl
  | some row =>
    cases hmethod : row.method with
    | std | specific => simp [isCore, hrow, hmethod] at h
    | wac | fifo | lifo => simp only [bind_eq_bind, bind_some, hmethod]

lemma dispatchCteLine_rel (h : ref.isCore line.poolId = false) (layer : Option Aggregate) :
    Option.Rel (Wrote T sub line) (ref.dispatchCteLine sub T line)
      (ref.outcome? sub.postedAt line (T.bookOf line.poolId).aggregate layer) := by
  have haggregate : (T.bookOf line.poolId).aggregate =
      (aggregateOf T.poolState line.poolId).map (·.amounts) := rfl
  unfold dispatchCteLine outcome?
  rw [lineOutcome?_of_not_isCore h, haggregate]
  cases ref.pool line.poolId with
  | none => exact .none
  | some row =>
    simp only [bind_eq_bind, bind_some]
    cases ref.postingAccountMap (row.skuId, row.locationId) with
    | none => exact .none
    | some accounts =>
      simp only [bind_some]
      cases ho : ref.cteOutcome? accounts line row
        ((aggregateOf T.poolState line.poolId).map (·.amounts)) with
      | none => exact .none
      | some o =>
        have hlayers := cteOutcome?_layers ho
        simp only [bind_some, filter_some, decide_eq_true_eq]
        by_cases hok : 0 ≤ o.unitCost ∧ PeriodGuardAdmits ref.periods.rows sub.postedAt
        · rw [if_pos hok, if_pos hok]
          refine .some ⟨_, recorded_upsertAggregate ?_ (fun _ => rfl) fun _ _ => rfl, ?_⟩
          · rw [hlayers]
            rfl
          · rw [LedgerTables.append, Outcome.source, hlayers]
        · rw [if_neg hok, if_neg hok]
          exact .none

lemma outcome?_hydrateSnapshot_singleton (hT : T.WellFormed) (h : ref.isCore line.poolId = true) :
    ((ref.tables T).hydrateSnapshot [line.poolId]).outcome? line =
      ref.lineOutcome? line (T.bookOf line.poolId).aggregate (T.bookOf line.poolId).lowest? := by
  have hmem : line.poolId ∈ [line.poolId] := mem_singleton_self _
  have hmirrors := mirrors_hydrateSnapshot (ref.tables T) hmem
  have haggregate : (((ref.tables T).hydrateSnapshot [line.poolId]).readAggregate
      line.poolId).amounts = (T.bookOf line.poolId).aggregate.getD ⟨0, 0, 0⟩ := by
    rw [hmirrors.aggregate]
    exact (Option.getD_map _ _ _).symm
  cases hrow : ref.pool line.poolId with
  | none => simp [isCore, hrow] at h
  | some row =>
    have htouched : (ref.tables T).touched [line.poolId] line.poolId = some row :=
      (if_pos hmem).trans hrow
    have hmethod : ((ref.tables T).hydrateSnapshot [line.poolId]).methodOf line.poolId =
        some row.method := by
      simp [Tables.hydrateSnapshot, htouched]
    have haccounts : ((ref.tables T).hydrateSnapshot [line.poolId]).postingAccountsOf line.poolId =
        ref.postingAccountMap (row.skuId, row.locationId) := by
      simp only [Tables.hydrateSnapshot, htouched, bind_some]
      rfl
    unfold Snapshot.outcome? lineOutcome?
    rw [hmethod, haccounts, haggregate, hrow]
    cases hm : row.method with
    | std =>
      have hcost : ((ref.tables T).hydrateSnapshot [line.poolId]).standardCostOf line.poolId =
          ref.standardCostOf row := by
        simp only [Tables.hydrateSnapshot, htouched, bind_some, if_pos hm]
        rfl
      simp only [bind_eq_bind, bind_some, hm, hcost]
      cases ref.standardCostOf row <;>
        cases ref.postingAccountMap (row.skuId, row.locationId) <;> rfl
    | specific =>
      have hspecific := hm ▸ hmethod
      have hlowest : (lowestLayer (((ref.tables T).hydrateSnapshot [line.poolId]).pools
          line.poolId)).map (·.amounts) = (T.bookOf line.poolId).lowest? := by
        rw [Snapshot.lowestLayer_eq (hmirrors.pairwise_visible hspecific),
          LedgerTables.lowest?_bookOf hT]
        rw [methodOf_hydrateSnapshot_of_mem hmem] at hspecific
        rw [visible_hydrateSnapshot hmem hspecific]
        rfl
      simp only [bind_eq_bind, bind_some, hm, hlowest]
    | wac | fifo | lifo => simp [isCore, hrow, hm] at h

lemma writeEffects_singleton :
    writeEffects sub T
      [(line, o, o.source ((layersOf T.poolState line.poolId).head?.map (·.layerId)))] =
      T.append sub line o := by
  funext t
  simp [writeEffects, LedgerTables.append, idsFrom, Effect.output, Effect.postings]

lemma accepted_output_iff (hT : T.WellFormed) (hqty : line.qty ≠ 0) :
    TrxLineOutput.Accepted (T.trxLines.map (·.id)) (Effect.output (line, o,
      o.source ((layersOf T.poolState line.poolId).head?.map (·.layerId)))) ↔ 0 ≤ o.unitCost := by
  have hsource : ∀ id ∈ o.source ((layersOf T.poolState line.poolId).head?.map (·.layerId)),
      id ∈ T.trxLines.map (·.id) := by
    intro id hid
    unfold Outcome.source at hid
    cases hchange : o.layers with
    | consumed =>
      rw [hchange] at hid
      obtain ⟨l, hl, rfl⟩ := map_eq_some_iff.mp hid
      exact (hT.mem_idsOf (hT.layers _ l (mem_of_mem_head? hl))).2.2
    | unchanged | opened =>
      rw [hchange] at hid
      cases hid
  exact ⟨fun h => h.2.1, fun h => ⟨hqty, h, hsource⟩⟩

lemma corePhase_singleton (hT : T.WellFormed) (hqty : line.qty ≠ 0) :
    ref.corePhase applyOneByOne sub T [line] =
      (((ref.tables T).hydrateSnapshot [line.poolId]).outcome? line).bind fun o =>
        if 0 ≤ o.unitCost ∧ PeriodGuardAdmits ref.periods.rows sub.postedAt then
          (recordState? T.poolState line.poolId (T.trxLineSeq + 1) o).map (T.append sub line o)
        else none := by
  rw [corePhase_eq_effects (cons_ne_nil _ _) (by simpa using hqty)]
  simp only [effects, map_cons, map_nil]
  cases ho : ((ref.tables T).hydrateSnapshot [line.poolId]).outcome? line with
  | none => rfl
  | some o =>
    have hsource := source_eq_head ho
    have hwrites := writes_hydrateSnapshot ho (T.trxLineSeq + 1)
    rw [hsource] at hwrites
    rw [poolState_tables] at hsource hwrites
    simp only [bind_eq_bind, bind_some, Option.pure_def, forall_mem_singleton,
      hsource, accepted_output_iff hT hqty]
    rw [applyOneByOne, mapM_write?_planOf _ (length_idsFrom _ _), ← hwrites]
    simp only [length_singleton, idsFrom, zip_cons_cons, zip_nil_right,
      flatMap_singleton, bind_eq_bind, bind_some, writeEffects_singleton]

lemma corePhase_singleton_rel (hT : T.WellFormed) (h : ref.isCore line.poolId = true)
    (hqty : line.qty ≠ 0) :
    Option.Rel (Wrote T sub line) (ref.corePhase applyOneByOne sub T [line])
      (ref.outcome? sub.postedAt line (T.bookOf line.poolId).aggregate
        (T.bookOf line.poolId).lowest?) := by
  rw [corePhase_singleton hT hqty, outcome?, ← outcome?_hydrateSnapshot_singleton hT h]
  cases ((ref.tables T).hydrateSnapshot [line.poolId]).outcome? line with
  | none => exact .none
  | some o =>
    obtain ⟨t, ht, hrecorded⟩ := hT.exists_record line.poolId o
    simp only [bind_some, filter_some, decide_eq_true_eq, ht, map_some]
    split_ifs
    · exact .some ⟨t, hrecorded, rfl⟩
    · exact .none

/-! ### Many lines -/

def writesFrom (seq : ℤ) (es : List Effect) : List (Write (ℤ × PoolStateRow) (ℤ × ℤ)) :=
  (es.zip (idsFrom seq es.length)).flatMap fun x => x.1.writes x.2

lemma writesFrom_cons (seq : ℤ) (e : Effect) (es : List Effect) :
    writesFrom seq (e :: es) = e.writes (seq + 1) ++ writesFrom (seq + 1) es := rfl

lemma writeEffects_cons (es : List Effect) (t t' : PoolState) :
    writeEffects sub T
      ((line, o, o.source ((layersOf T.poolState line.poolId).head?.map (·.layerId))) :: es) t' =
      writeEffects sub (T.append sub line o t) es t' := by
  unfold writeEffects LedgerTables.append LedgerTables.write
  simp only [map_cons, length_cons, length_map, idsFrom, zipWith_cons_cons,
    zip_cons_cons, flatMap_cons, length_nil, zipWith_nil_right,
    append_assoc, singleton_append, LedgerTables.mk.injEq, true_and, and_true]
  push_cast
  exact ⟨rfl, by ring, rfl⟩

lemma writeEffects_nil : writeEffects sub T [] T.poolState = T := by
  simp [writeEffects, LedgerTables.write, idsFrom]

section

variable (hT : T.WellFormed) (hqty : ∀ l ∈ lines, l.qty ≠ 0)
include hT hqty

/-- The lines of a batch with layers enough, one after the other: the induction is on the lines,
with the snapshot of the batch beside the tables. -/
lemma foldlM_corePhase_eq (h : Beside (ref.tables T) s lines) :
    lines.foldlM (fun T l => ref.corePhase applyOneByOne sub T [l]) T =
      (effects s lines).bind fun es =>
        if ∀ e ∈ es, 0 ≤ e.2.1.unitCost ∧ PeriodGuardAdmits ref.periods.rows sub.postedAt then
          (T.poolState.applyAll? (writesFrom T.trxLineSeq es)).map (writeEffects sub T es)
        else none := by
  induction lines generalizing T s with
  | nil =>
    have hnil : T.poolState.applyAll? (writesFrom T.trxLineSeq []) = some T.poolState := rfl
    rw [effects, bind_some, if_pos (fun e he => absurd he not_mem_nil), hnil,
      map_some, writeEffects_nil, foldlM_nil, Option.pure_def]
  | cons line lines ih =>
    have hline := hqty line mem_cons_self
    rw [foldlM_cons, corePhase_singleton hT hline, h.outcome? hline, effects]
    cases ho : s.outcome? line with
    | none => rfl
    | some o =>
      obtain ⟨t, ht, hrecorded⟩ := hT.exists_record line.poolId o
      have hwrites := writes_hydrateSnapshot ((h.outcome? hline).trans ho) (T.trxLineSeq + 1)
      rw [source_eq_head ((h.outcome? hline).trans ho), poolState_tables, ht] at hwrites
      simp only [bind_eq_bind, bind_some, ht, map_some, h.source hline ho,
        poolState_tables, Option.pure_def]
      by_cases hok : 0 ≤ o.unitCost ∧ PeriodGuardAdmits ref.periods.rows sub.postedAt
      · have hbeside : Beside (ref.tables (T.append sub line o t)) (s.record line.poolId o) lines :=
          have hnext := h.record hline ho hrecorded
          ⟨hnext.config, hnext.mirrors, hnext.covered⟩
        rw [if_pos hok, bind_some, ih (hT.append hrecorded)
          (fun l hl => hqty l (mem_cons_of_mem _ hl)) hbeside]
        cases effects (s.record line.poolId o) lines with
        | none => rfl
        | some es =>
          simp only [bind_some, forall_mem_cons, hok, true_and, writesFrom_cons,
            KeyedTable.applyAll?_append, hwrites, funext (writeEffects_cons es t)]
          rfl
      · rw [if_neg hok]
        cases effects (s.record line.poolId o) lines with
        | none => rfl
        | some es => simp [hok]

lemma accepted_effects_iff
    (hes : effects ((ref.tables T).hydrateSnapshot (lines.map (·.poolId))) lines = some es)
    (admits : Prop) :
    (∀ e ∈ es, e.output.Accepted (T.trxLines.map (·.id)) ∧ admits) ↔
      ∀ e ∈ es, 0 ≤ e.2.1.unitCost ∧ admits := by
  have hmem := source_mem_of_effects (T.trxLines.map (·.id)) hqty (fun p hp => ?_) hes
  · refine forall₂_congr fun e he => and_congr_left fun _ => ?_
    exact ⟨fun h => h.2.1, fun h => ⟨(hmem e he).1, h, (hmem e he).2⟩⟩
  · obtain ⟨hin, hspecific⟩ := mem_of_specific hp
    rw [visible_hydrateSnapshot hin hspecific]
    exact ⟨pairwise_layersOf _ p, fun l hl => (hT.mem_idsOf (hT.layers p l hl)).2.2⟩

theorem corePhase_eq :
    ref.corePhase applyOneByOne sub T lines =
      if (ref.tables T).Covered lines then
        lines.foldlM (fun T l => ref.corePhase applyOneByOne sub T [l]) T
      else none := by
  by_cases hne : lines = []
  · subst hne
    have hcovered : (ref.tables T).Covered [] := by simp [Tables.Covered]
    rw [if_pos hcovered]
    rfl
  rw [corePhase_eq_effects hne hqty]
  by_cases hcovered : (ref.tables T).Covered lines
  · rw [if_pos hcovered, foldlM_corePhase_eq hT hqty (beside_hydrateSnapshot hcovered)]
    cases hes : effects ((ref.tables T).hydrateSnapshot (lines.map (·.poolId))) lines with
    | none => rfl
    | some es =>
      simp only [bind_some, accepted_effects_iff hT hqty hes, applyOneByOne,
        mapM_write?_planOf _ (length_idsFrom _ _), bind_eq_bind]
      rfl
  · rw [if_neg hcovered, effects_eq_none hqty hcovered, bind_none]

end

end Reference

/-! ### Tables and views -/

structure LedgerTables.Shows (T : LedgerTables) (trx : List TrxRow) (throttled : List ℤ)
    (B : ℤ → PoolView) : Prop where
  wellFormed : T.WellFormed
  trx : T.trx = trx
  throttled : T.throttled = throttled
  view : T.view = B

namespace Reference

variable {trx : List TrxRow} {throttled : List ℤ} {B : ℤ → PoolView}

lemma shows_of_wrote {layer : Option Aggregate} {x : Option LedgerTables}
    (hT : T.Shows trx throttled B) (hlayer : (B line.poolId).book.lowest? = layer)
    (hx : Option.Rel (Wrote T sub line) x
      (ref.outcome? sub.postedAt line (T.bookOf line.poolId).aggregate layer)) :
    Option.Rel (fun T' => T'.Shows trx throttled) x
      (keyedStep (·.poolId) (PoolView.post ref sub) B line) := by
  obtain ⟨hwf, htrx, hthrottled, rfl⟩ := hT
  unfold keyedStep PoolView.post PoolBook.post
  rw [hlayer, show (T.view line.poolId).book.aggregate = (T.bookOf line.poolId).aggregate from rfl]
  generalize ref.outcome? sub.postedAt line (T.bookOf line.poolId).aggregate layer = y at hx ⊢
  cases hx with
  | none => exact .none
  | @some T' o h =>
    obtain ⟨t, ht, rfl⟩ := h
    exact .some ⟨hwf.append ht, htrx, hthrottled, LedgerTables.view_append hwf ht⟩

theorem applyLine_rel (hqty : line.qty ≠ 0) (hT : T.Shows trx throttled B) :
    Option.Rel (fun T' => T'.Shows trx throttled) (ref.applyLine applyOneByOne sub T line)
      (keyedStep (·.poolId) (PoolView.post ref sub) B line) := by
  have hlowest : (B line.poolId).book.lowest? = (T.bookOf line.poolId).lowest? := by
    rw [← hT.view]
    rfl
  refine shows_of_wrote hT hlowest ?_
  unfold applyLine
  cases hcore : ref.isCore line.poolId with
  | true => exact corePhase_singleton_rel hT.wellFormed hcore hqty
  | false => exact dispatchCteLine_rel hcore _

end Reference

end Acct.V32
