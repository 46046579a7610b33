import Acct.V32.Equiv.Snapshot
import Acct.V32.Spi.Equiv.BulkWrite
import Acct.V32.Spi.Split

/-!
# Batch against split

The plan of a list of lines is the list of their `effects`, each the outcome of a line on the
snapshot the lines before it left; one at a time, a line has the outcome that the table gives it.
The two agree as long as the batch has not consumed all the layers it was hydrated with: the batch
succeeds iff the split does and no specific pool has more depletions than it had layers
(`batchEqSplit_iff`).
-/

namespace Acct.V32

open Table List Option

variable {s : Snapshot} {lines : List TrxLineRequest} {es : List Effect} {o : Outcome}
  {ids : List ℤ} {db : Tables} {line : TrxLineRequest} {idx : ℕ} {t : PoolState} {id postedAt p : ℤ}

abbrev Effect := TrxLineRequest × Outcome × Option ℤ

/-- The lines of `plan_apply` on a snapshot. -/
def effects : Snapshot → List TrxLineRequest → Option (List Effect)
  | _, [] => some []
  | s, line :: lines => do
    let o ← s.outcome? line
    let rest ← effects (s.record line.poolId o) lines
    return (line, o, o.source (s.lowestLayerId line.poolId)) :: rest

namespace Effect

variable (e : Effect)

def writes (id : ℤ) : List (Write (ℤ × PoolStateRow) (ℤ × ℤ)) := e.2.1.writes e.1.poolId id e.2.2

def output : TrxLineOutput := e.1.output e.2.1.unitCost e.2.2

def postings (postedAt id : ℤ) : List PostingLineRow := e.2.1.legs.map (⟨id, ·, postedAt⟩)

def push (result : PlanResult) (postedAt : ℤ) : PlanResult :=
  result.push e.output (e.2.1.mutations e.1.poolId result.trxLines.length e.2.2)
    (e.2.1.legs.map (·.request result.trxLines.length postedAt))

end Effect

section Source

variable (o : Outcome) (p : ℤ) (lowest : Option ℤ)

lemma mutations_source (idx : ℕ) :
    o.mutations p idx (o.source lowest) = o.mutations p idx lowest := by
  unfold Outcome.mutations Outcome.source
  cases o.layers <;> rfl

lemma writes_source (id : ℤ) : o.writes p id (o.source lowest) = o.writes p id lowest := by
  unfold Outcome.writes Outcome.source
  cases o.layers <;> rfl

lemma push_source (line : TrxLineRequest) (result : PlanResult) (postedAt : ℤ) :
    o.push result line postedAt lowest =
      Effect.push (line, o, o.source lowest) result postedAt := by
  rw [Effect.push, Outcome.push, mutations_source]
  rfl

end Source

def finish (postedAt : ℤ) (t : PoolState) (es : List Effect) (ids : List ℤ) : Option Submitted :=
  (t.applyAll? ((es.zip ids).flatMap fun x => x.1.writes x.2)).map fun t' =>
    ⟨t', es.map (·.output), (es.zip ids).flatMap fun x => x.1.postings postedAt x.2⟩

def Submitted.prepend (e : Effect) (postedAt id : ℤ) (sub : Submitted) : Submitted :=
  ⟨sub.poolState, e.output :: sub.trxLines, e.postings postedAt id ++ sub.postings⟩

lemma finish_cons (postedAt : ℤ) (t : PoolState) (e : Effect) (es : List Effect) (id : ℤ)
    (ids : List ℤ) :
    finish postedAt t (e :: es) (id :: ids) =
      (t.applyAll? (e.writes id)).bind fun t' =>
        (finish postedAt t' es ids).map (Submitted.prepend e postedAt id) := by
  unfold finish
  simp only [zip_cons_cons, flatMap_cons, KeyedTable.applyAll?_append, Option.map_bind]
  refine congrArg _ (funext fun t' => ?_)
  rw [Function.comp_apply, Option.map_map]
  rfl

lemma effects_length (h : effects s lines = some es) : es.length = lines.length := by
  induction lines generalizing s es with
  | nil => cases h; rfl
  | cons line lines ih =>
    simp only [effects, bind_eq_bind, bind_eq_some_iff] at h
    obtain ⟨o, -, rest, hrest, h⟩ := h
    cases h
    simp [ih hrest]

/-! ### The plan -/

lemma planLines_toOption (postedAt : ℤ) (s : Snapshot) (result : PlanResult)
    (hqty : ∀ l ∈ lines, l.qty ≠ 0) :
    (planLines postedAt (s, result) lines).toOption.map (·.2) =
      (effects s lines).map fun es => es.foldl (fun r e => e.push r postedAt) result := by
  induction lines generalizing s result with
  | nil => rfl
  | cons line lines ih =>
    rw [planLines, foldlM_cons, toOption_bind,
      planLine_toOption s line result postedAt (hqty line mem_cons_self), effects]
    cases ho : s.outcome? line with
    | none => rfl
    | some o =>
      have hrest := ih (s.record line.poolId o)
        (o.push result line postedAt (s.lowestLayerId line.poolId))
        fun l hl => hqty l (mem_cons_of_mem _ hl)
      simp only [map_some, bind_some, bind_eq_bind]
      refine hrest.trans ?_
      rw [push_source]
      cases effects (s.record line.poolId o) lines <;> rfl

lemma mutations_write? (hid : ids[idx]? = some id) (p : ℤ) (lowest : Option ℤ) :
    (o.mutations p idx lowest).mapM (·.write? ids) = some (o.writes p id lowest) := by
  unfold Outcome.mutations Outcome.writes
  cases o.layers with
  | unchanged => rfl
  | opened => simp [PoolStateMutation.write?, hid, Aggregate.row]
  | consumed => cases lowest <;> rfl

lemma legs_mapM (hid : ids[idx]? = some id) (postedAt : ℤ) (legs : List Leg) :
    (legs.map (·.request idx postedAt)).mapM (·.resolve ids) =
      some (legs.map (⟨id, ·, postedAt⟩)) := by
  induction legs with
  | nil => rfl
  | cons leg legs ih =>
    rw [map_cons, mapM_cons, ih]
    simp [Leg.request, PostingLineRequest.resolve, PostingLineRequest.leg, hid]

section Push

variable (postedAt : ℤ) {result : PlanResult}

lemma foldl_push_trxLines :
    (es.foldl (fun r e => e.push r postedAt) result).trxLines =
      result.trxLines ++ es.map (·.output) := by
  induction es generalizing result with
  | nil => simp
  | cons e es ih =>
    rw [foldl_cons, ih]
    simp [Effect.push, PlanResult.push]

lemma foldl_push_mapM {α β : Type} (field : PlanResult → List α) (read : List ℤ → α → Option β)
    (rows : Effect → ℤ → List β)
    (hpush : ∀ (e : Effect) (result : PlanResult) (ids : List ℤ) (id : ℤ),
      ids[result.trxLines.length]? = some id →
        (field (e.push result postedAt)).mapM (read ids) =
          ((field result).mapM (read ids)).map (· ++ rows e id))
    (result : PlanResult) (done : List ℤ) (hlen : result.trxLines.length = done.length)
    (hids : ids.length = es.length) :
    (field (es.foldl (fun r e => e.push r postedAt) result)).mapM (read (done ++ ids)) =
      ((field result).mapM (read (done ++ ids))).map
        (· ++ (es.zip ids).flatMap fun x => rows x.1 x.2) := by
  induction es generalizing result done ids with
  | nil => simp
  | cons e es ih =>
    obtain ⟨id, ids, rfl⟩ := exists_cons_of_length_eq_add_one hids
    have happend : done ++ id :: ids = (done ++ [id]) ++ ids := by simp
    have hid : (done ++ id :: ids)[result.trxLines.length]? = some id := by simp [hlen]
    have hlen' : (e.push result postedAt).trxLines.length = (done ++ [id]).length := by
      simp [Effect.push, PlanResult.push, hlen]
    have hids' : ids.length = es.length := by simpa using hids
    have hrest := ih (e.push result postedAt) (done ++ [id]) hlen' hids'
    rw [← happend, hpush e result _ id hid] at hrest
    rw [foldl_cons, hrest, Option.map_map]
    simp [Function.comp_def]

lemma foldl_push_mutations (hids : ids.length = es.length) :
    (es.foldl (fun (r : PlanResult) e => e.push r postedAt) {}).poolStateMutations.mapM
        (·.write? ids) =
      some ((es.zip ids).flatMap fun x => x.1.writes x.2) := by
  refine foldl_push_mapM postedAt (·.poolStateMutations) (fun ids m => m.write? ids)
    (fun e id => e.writes id)
    (fun e result ids id hid => ?_) {} [] rfl hids
  simp only [Effect.push, PlanResult.push, mapM_append, mutations_write? hid]
  cases result.poolStateMutations.mapM (·.write? ids) <;> rfl

lemma foldl_push_postings (hids : ids.length = es.length) :
    (es.foldl (fun (r : PlanResult) e => e.push r postedAt) {}).postingLines.mapM (·.resolve ids) =
      some ((es.zip ids).flatMap fun x => x.1.postings postedAt x.2) := by
  refine foldl_push_mapM postedAt (·.postingLines) (fun ids r => r.resolve ids)
    (fun e id => e.postings postedAt id) (fun e result ids id hid => ?_) {} [] rfl hids
  simp only [Effect.push, PlanResult.push, mapM_append, legs_mapM hid]
  cases result.postingLines.mapM (·.resolve ids) <;> rfl

end Push

theorem planAndApply_eq {drawn : List ℤ} (hqty : ∀ l ∈ lines, l.qty ≠ 0)
    (hlen : drawn.length = lines.length) :
    db.planAndApply postedAt lines drawn =
      (effects (db.hydrateSnapshot (lines.map (·.poolId))) lines).bind
        (finish postedAt db.poolState · drawn) := by
  have hplan := planLines_toOption postedAt (db.hydrateSnapshot (lines.map (·.poolId))) {} hqty
  unfold Tables.planAndApply planApply applyOneByOne
  rw [toOption_map, hplan]
  cases he : effects (db.hydrateSnapshot (lines.map (·.poolId))) lines with
  | none => rfl
  | some es =>
    have hes : drawn.length = es.length := hlen.trans (effects_length he).symm
    simp only [map_some, bind_eq_bind, bind_some,
      foldl_push_mutations postedAt hes, foldl_push_postings postedAt hes, foldl_push_trxLines,
      finish,
      Option.pure_def, nil_append]
    cases db.poolState.applyAll? ((es.zip drawn).flatMap fun x => x.1.writes x.2) <;> rfl

/-! ### One at a time -/

lemma oneAtATime_cons (hqty : line.qty ≠ 0) :
    db.oneAtATime postedAt (line :: lines) (id :: ids) =
      ((db.hydrateSnapshot [line.poolId]).outcome? line).bind fun o =>
        let e : Effect :=
          (line, o, o.source ((db.hydrateSnapshot [line.poolId]).lowestLayerId line.poolId))
        (db.poolState.applyAll? (e.writes id)).bind fun t =>
          ({ db with poolState := t }.oneAtATime postedAt lines ids).map
            (.prepend e postedAt id) := by
  rw [Tables.oneAtATime, take_succ_cons, take_zero, drop_succ_cons, drop_zero,
    planAndApply_eq (by simpa using hqty) rfl]
  simp only [effects, map_cons, map_nil]
  cases (db.hydrateSnapshot [line.poolId]).outcome? line with
  | none => rfl
  | some o =>
    simp only [bind_eq_bind, bind_some, Option.pure_def, finish_cons, bind_assoc]
    refine congrArg _ (funext fun t => ?_)
    have hnil : finish postedAt t [] [] = some ⟨t, [], []⟩ := rfl
    rw [hnil]
    simp only [map_some, bind_some, Submitted.prepend, append_nil]
    cases { db with poolState := t }.oneAtATime postedAt lines ids <;> rfl

lemma source_eq_head (ho : (db.hydrateSnapshot [line.poolId]).outcome? line = some o) :
    o.source ((db.hydrateSnapshot [line.poolId]).lowestLayerId line.poolId) =
      o.source ((layersOf db.poolState line.poolId).head?.map (·.layerId)) := by
  have hmem : line.poolId ∈ [line.poolId] := mem_singleton_self _
  by_cases hconsumed : o.layers = .consumed
  · have hspecific := ((Snapshot.outcome?_consumed ho).1.mp hconsumed).1
    have hmirrors := mirrors_hydrateSnapshot db hmem
    rw [Snapshot.lowestLayerId, Snapshot.lowestLayer_eq (hmirrors.pairwise_visible hspecific)]
    rw [methodOf_hydrateSnapshot_of_mem hmem] at hspecific
    rw [visible_hydrateSnapshot hmem hspecific]
  · unfold Outcome.source
    cases hl : o.layers with
    | consumed => exact absurd hl hconsumed
    | unchanged | opened => rfl

lemma writes_hydrateSnapshot (ho : (db.hydrateSnapshot [line.poolId]).outcome? line = some o)
    (id : ℤ) :
    db.poolState.applyAll? (Effect.writes (line, o,
        o.source ((db.hydrateSnapshot [line.poolId]).lowestLayerId line.poolId)) id) =
      recordState? db.poolState line.poolId id o := by
  rw [source_eq_head ho]
  exact congrArg _ (writes_source o line.poolId _ id)

/-! ### Layers left -/

def CoveredBy (s : Snapshot) (lines : List TrxLineRequest) : Prop :=
  ∀ p, s.methodOf p = some .specific → depletions p lines ≤ (s.visible p).length

lemma depletions_cons (p : ℤ) (line : TrxLineRequest) (lines : List TrxLineRequest) :
    depletions p (line :: lines) =
      (if line.poolId = p ∧ line.qty < 0 then 1 else 0) + depletions p lines := by
  unfold depletions
  rw [countP_cons, add_comm]
  simp

lemma length_visible_record (ho : s.outcome? line = some o) (hqty : line.qty ≠ 0)
    (hspecific : s.methodOf p = some .specific)
    (hsorted : (s.visible p).Pairwise (·.layerId < ·.layerId)) :
    (if line.poolId = p ∧ line.qty < 0 then 1 else 0) +
        ((s.record line.poolId o).visible p).length =
      (s.visible p).length := by
  by_cases hp : line.poolId = p
  · subst hp
    obtain ⟨hiff, hsome⟩ := Snapshot.outcome?_consumed ho
    rw [Snapshot.visible_record_self hsorted]
    by_cases hneg : line.qty < 0
    · have hconsumed := hiff.mpr ⟨hspecific, by omega⟩
      rw [if_pos ⟨rfl, hneg⟩, if_pos hconsumed]
      have hne := hsome hconsumed
      rw [Snapshot.lowestLayer_eq hsorted] at hne
      cases hvisible : s.visible line.poolId with
      | nil => simp [hvisible] at hne
      | cons r rest => simp [add_comm]
    · have hnot : o.layers ≠ .consumed := fun h => absurd (hiff.mp h).2 (by omega)
      rw [if_neg fun h => hneg h.2, if_neg hnot, zero_add]
  · rw [if_neg fun h => hp h.1, zero_add, Snapshot.visible_record_of_ne (Ne.symm hp)]

lemma coveredBy_cons (ho : s.outcome? line = some o) (hqty : line.qty ≠ 0)
    (hsorted : ∀ p, s.methodOf p = some .specific →
      (s.visible p).Pairwise (·.layerId < ·.layerId)) :
    CoveredBy s (line :: lines) ↔ CoveredBy (s.record line.poolId o) lines := by
  unfold CoveredBy
  rw [Snapshot.methodOf_record]
  refine forall_congr' fun p => forall_congr' fun hspecific => ?_
  have hlength := length_visible_record ho hqty hspecific (hsorted p hspecific)
  rw [depletions_cons]
  omega

lemma coveredBy_of_effects (hqty : ∀ l ∈ lines, l.qty ≠ 0)
    (hsorted : ∀ p, s.methodOf p = some .specific →
      (s.visible p).Pairwise (·.layerId < ·.layerId)) (h : effects s lines = some es) :
    CoveredBy s lines := by
  induction lines generalizing s es with
  | nil => exact fun p _ => Nat.zero_le _
  | cons line lines ih =>
    simp only [effects, bind_eq_bind, bind_eq_some_iff] at h
    obtain ⟨o, ho, rest, hrest, -⟩ := h
    refine (coveredBy_cons ho (hqty line mem_cons_self) hsorted).mpr
      (ih (fun l hl => hqty l (mem_cons_of_mem _ hl)) (fun p hspecific => ?_) hrest)
    rw [Snapshot.methodOf_record] at hspecific
    exact (hsorted p hspecific).sublist (Snapshot.visible_record_sublist (hsorted p hspecific))

lemma source_mem_of_effects (ids : List ℤ) (hqty : ∀ l ∈ lines, l.qty ≠ 0)
    (hvisible : ∀ p, s.methodOf p = some .specific →
      (s.visible p).Pairwise (·.layerId < ·.layerId) ∧ ∀ l ∈ s.visible p, l.layerId ∈ ids)
    (h : effects s lines = some es) : ∀ e ∈ es, e.1.qty ≠ 0 ∧ ∀ id ∈ e.2.2, id ∈ ids := by
  induction lines generalizing s es with
  | nil =>
    cases h
    exact fun e he => absurd he not_mem_nil
  | cons line lines ih =>
    simp only [effects, bind_eq_bind, bind_eq_some_iff] at h
    obtain ⟨o, ho, rest, hrest, h⟩ := h
    cases h
    rw [forall_mem_cons]
    refine ⟨⟨hqty line mem_cons_self, fun id hid => ?_⟩, ih (s := s.record line.poolId o)
      (fun l hl => hqty l (mem_cons_of_mem _ hl)) (fun p hspecific => ?_) hrest⟩
    · have hconsumed : o.layers = .consumed := by
        unfold Outcome.source at hid
        cases hl : o.layers with
        | consumed => rfl
        | unchanged | opened =>
          rw [hl] at hid
          cases hid
      obtain ⟨hsorted, hmem⟩ := hvisible _ ((Snapshot.outcome?_consumed ho).1.mp hconsumed).1
      rw [Outcome.source, hconsumed, Snapshot.lowestLayerId, Snapshot.lowestLayer_eq hsorted] at hid
      obtain ⟨l, hl, rfl⟩ := map_eq_some_iff.mp hid
      exact hmem l (mem_of_mem_head? hl)
    · rw [Snapshot.methodOf_record] at hspecific
      obtain ⟨hsorted, hmem⟩ := hvisible p hspecific
      have hsub := Snapshot.visible_record_sublist (p := line.poolId) (o := o) hsorted
      exact ⟨hsorted.sublist hsub, fun l hl => hmem l (hsub.subset hl)⟩

/-! ### Batch and split -/

def ConfiguredAs (db : Tables) (s : Snapshot) (p : ℤ) : Prop :=
  (db.hydrateSnapshot [p]).methodOf p = s.methodOf p ∧
    (db.hydrateSnapshot [p]).standardCostOf p = s.standardCostOf p ∧
    (db.hydrateSnapshot [p]).postingAccountsOf p = s.postingAccountsOf p

lemma lowestLayer_hydrateSnapshot (hconfig : ConfiguredAs db s line.poolId)
    (hmirrors : Mirrors s db.poolState line.poolId) (hcovered : CoveredBy s (line :: lines))
    (hspecific : s.methodOf line.poolId = some .specific) (hneg : line.qty < 0) :
    lowestLayer ((db.hydrateSnapshot [line.poolId]).pools line.poolId) =
      lowestLayer (s.pools line.poolId) := by
  have hmem : line.poolId ∈ [line.poolId] := mem_singleton_self _
  have hspecific' := hconfig.1.trans hspecific
  have hne : s.visible line.poolId ≠ [] := by
    have := hcovered _ hspecific
    rw [depletions_cons, if_pos ⟨rfl, hneg⟩] at this
    exact ne_nil_of_length_pos (by omega)
  rw [Snapshot.lowestLayer_eq ((mirrors_hydrateSnapshot _ hmem).pairwise_visible hspecific'),
    Snapshot.lowestLayer_eq (hmirrors.pairwise_visible hspecific),
    hmirrors.head?_visible hspecific hne]
  rw [methodOf_hydrateSnapshot_of_mem hmem] at hspecific'
  rw [visible_hydrateSnapshot hmem hspecific']

section

variable (hqty : line.qty ≠ 0) (hconfig : ConfiguredAs db s line.poolId)
  (hmirrors : Mirrors s db.poolState line.poolId) (hcovered : CoveredBy s (line :: lines))
include hqty hconfig hmirrors hcovered

/-- While the batch has layers enough, its next line has the outcome it has on its own. -/
lemma outcome?_hydrateSnapshot :
    (db.hydrateSnapshot [line.poolId]).outcome? line = s.outcome? line := by
  have hmem : line.poolId ∈ [line.poolId] := mem_singleton_self _
  have haggregate := (mirrors_hydrateSnapshot db hmem).aggregate
  refine Snapshot.outcome?_congr hconfig.1 hconfig.2.1 hconfig.2.2
    (haggregate.trans hmirrors.aggregate.symm) fun hspecific hpos => ?_
  exact lowestLayer_hydrateSnapshot hconfig hmirrors hcovered hspecific (by omega)

lemma source_hydrateSnapshot (ho : s.outcome? line = some o) :
    o.source ((db.hydrateSnapshot [line.poolId]).lowestLayerId line.poolId) =
      o.source (s.lowestLayerId line.poolId) := by
  by_cases hconsumed : o.layers = .consumed
  · obtain ⟨hspecific, hpos⟩ := (Snapshot.outcome?_consumed ho).1.mp hconsumed
    unfold Snapshot.lowestLayerId
    rw [lowestLayer_hydrateSnapshot hconfig hmirrors hcovered hspecific (by omega)]
  · unfold Outcome.source
    cases hl : o.layers with
    | consumed => exact absurd hl hconsumed
    | unchanged | opened => rfl

end

lemma Tables.DrawsAbove.record {n : ℕ} (h : db.DrawsAbove (id :: ids) (n + 1))
    (ht : Recorded db.poolState t p id o) : { db with poolState := t }.DrawsAbove ids n := by
  have hincreasing := pairwise_cons.mp h.increasing
  refine ⟨by simpa using h.length, hincreasing.2, fun i hi => h.pos i (mem_cons_of_mem _ hi),
    fun i hi q r hr => ?_⟩
  have habove := h.above i (mem_cons_of_mem _ hi) q
  by_cases hq : q = p
  · subst hq
    rw [ht.layers] at hr
    cases hchange : o.layers with
    | unchanged =>
      rw [hchange] at hr
      exact habove r hr
    | opened qty unitCost valueSum =>
      rw [hchange, LayerChange.layers, mem_append, mem_singleton] at hr
      rcases hr with hr | rfl
      · exact habove r hr
      · exact hincreasing.1 i hi
    | consumed =>
      rw [hchange] at hr
      exact habove r (mem_of_mem_tail hr)
  · rw [ht.layers_of_ne q hq] at hr
    exact habove r hr

structure Beside (db : Tables) (s : Snapshot) (lines : List TrxLineRequest) : Prop where
  config : ∀ l ∈ lines, ConfiguredAs db s l.poolId
  mirrors : ∀ p, s.methodOf p = some .specific ∨ p ∈ lines.map (·.poolId) →
    Mirrors s db.poolState p
  covered : CoveredBy s lines

namespace Beside

section

variable (h : Beside db s (line :: lines)) (hqty : line.qty ≠ 0)
include h hqty

lemma outcome? :
    (db.hydrateSnapshot [line.poolId]).outcome? line = s.outcome? line :=
  outcome?_hydrateSnapshot hqty (h.config line mem_cons_self)
    (h.mirrors _ (.inr mem_cons_self)) h.covered

lemma source (ho : s.outcome? line = some o) :
    o.source (s.lowestLayerId line.poolId) =
      o.source ((layersOf db.poolState line.poolId).head?.map (·.layerId)) := by
  rw [← source_eq_head ((h.outcome? hqty).trans ho)]
  exact (source_hydrateSnapshot hqty (h.config line mem_cons_self)
    (h.mirrors _ (.inr mem_cons_self)) h.covered ho).symm

lemma record (ho : s.outcome? line = some o) (ht : Recorded db.poolState t line.poolId id o) :
    Beside { db with poolState := t } (s.record line.poolId o) lines where
  config := by
    intro l hl
    unfold ConfiguredAs
    rw [Snapshot.methodOf_record, Snapshot.standardCostOf_record, Snapshot.postingAccountsOf_record]
    exact h.config l (mem_cons_of_mem _ hl)
  mirrors := by
    intro p hp
    rw [Snapshot.methodOf_record] at hp
    exact (h.mirrors p (hp.imp_right fun h => mem_cons_of_mem _ h)).record ht
  covered := (coveredBy_cons ho hqty fun p hspecific =>
    (h.mirrors p (.inl hspecific)).pairwise_visible hspecific).mp h.covered

end

end Beside

/-- The batch and the split: the induction is on the lines, with the snapshot of the batch and the
table of the split. -/
lemma finish_effects_eq (postedAt : ℤ) (hqty : ∀ l ∈ lines, l.qty ≠ 0)
    (hids : db.DrawsAbove ids lines.length) (h : Beside db s lines) :
    (effects s lines).bind (finish postedAt db.poolState · ids) =
        db.oneAtATime postedAt lines ids ∧
      ((effects s lines).isSome → (db.oneAtATime postedAt lines ids).isSome) := by
  induction lines generalizing db s ids with
  | nil => exact ⟨rfl, fun _ => rfl⟩
  | cons line lines ih =>
    obtain ⟨id, ids, rfl⟩ := exists_cons_of_length_eq_add_one hids.length
    have hline := hqty line mem_cons_self
    rw [oneAtATime_cons hline, h.outcome? hline, effects]
    cases ho : s.outcome? line with
    | none => exact ⟨rfl, nofun⟩
    | some o =>
      have ho' := (h.outcome? hline).trans ho
      obtain ⟨t, ht, hrecorded⟩ := exists_recordState? (t := db.poolState) (p := line.poolId) o
        (hids.pos id mem_cons_self) (hids.above id mem_cons_self line.poolId)
      rw [← writes_hydrateSnapshot ho', source_eq_head ho'] at ht
      obtain ⟨heq, hsome⟩ := ih (fun l hl => hqty l (mem_cons_of_mem _ hl))
        (hids.record hrecorded) (h.record hline ho hrecorded)
      simp only [bind_eq_bind, bind_some, Option.pure_def, bind_assoc]
      rw [source_eq_head ho', h.source hline ho, ht, bind_some, ← heq]
      simp only [finish_cons, ht, bind_some]
      cases he : effects (s.record line.poolId o) lines with
      | none => exact ⟨rfl, nofun⟩
      | some es =>
        rw [he, bind_some] at heq
        rw [he, ← heq] at hsome
        exact ⟨rfl, fun _ => by simpa using hsome rfl⟩

lemma mem_of_specific
    (h : (db.hydrateSnapshot (lines.map (·.poolId))).methodOf p = some .specific) :
    p ∈ lines.map (·.poolId) ∧ (db.pool p).map (·.method) = some .specific := by
  obtain ⟨hmem, row, hrow, hmethod⟩ := methodOf_hydrateSnapshot h
  exact ⟨hmem, by rw [hrow, map_some, hmethod]⟩

lemma coveredBy_hydrateSnapshot :
    CoveredBy (db.hydrateSnapshot (lines.map (·.poolId))) lines ↔ db.Covered lines := by
  constructor
  · intro h p hmem hspecific
    rw [← visible_hydrateSnapshot hmem hspecific]
    exact h p (methodOf_hydrateSnapshot_of_mem hmem ▸ hspecific)
  · intro h p hspecific
    obtain ⟨hmem, hspecific⟩ := mem_of_specific hspecific
    rw [visible_hydrateSnapshot hmem hspecific]
    exact h p hmem hspecific

lemma configuredAs_hydrateSnapshot {l : TrxLineRequest} (hl : l ∈ lines) :
    ConfiguredAs db (db.hydrateSnapshot (lines.map (·.poolId))) l.poolId := by
  have htouched : db.touched (lines.map (·.poolId)) l.poolId = db.pool l.poolId :=
    if_pos (List.mem_map_of_mem hl)
  have hown : db.touched [l.poolId] l.poolId = db.pool l.poolId :=
    if_pos (mem_singleton_self _)
  simp [ConfiguredAs, Tables.hydrateSnapshot, htouched, hown]

lemma beside_hydrateSnapshot (hcovered : db.Covered lines) :
    Beside db (db.hydrateSnapshot (lines.map (·.poolId))) lines where
  config _ hl := configuredAs_hydrateSnapshot hl
  mirrors _ hp := mirrors_hydrateSnapshot _ (hp.elim (fun h => (mem_of_specific h).1) id)
  covered := coveredBy_hydrateSnapshot.mpr hcovered

lemma effects_eq_none (hqty : ∀ l ∈ lines, l.qty ≠ 0) (hcovered : ¬ db.Covered lines) :
    effects (db.hydrateSnapshot (lines.map (·.poolId))) lines = none := by
  rw [eq_none_iff_forall_ne_some]
  intro es hes
  refine hcovered (coveredBy_hydrateSnapshot.mp (coveredBy_of_effects hqty (fun p hp => ?_) hes))
  exact (mirrors_hydrateSnapshot _ (mem_of_specific hp).1).pairwise_visible hp

lemma planApply_ok_iff (hqty : ∀ l ∈ lines, l.qty ≠ 0) :
    (∃ plan, planApply s lines postedAt = .ok plan) ↔ (effects s lines).isSome := by
  have hplan := congrArg isSome
    (planLines_toOption postedAt s {} hqty)
  rw [isSome_map, isSome_map] at hplan
  rw [← hplan, planApply]
  cases planLines postedAt (s, {}) lines <;> simp [Except.map, Except.toOption]

/-- **Batch equals split** iff no specific pool has more depletions than it has layers at the start,
or the lines are not even accepted one at a time. -/
theorem batchEqSplit_iff {db : Tables} {postedAt : ℤ} {lines : List TrxLineRequest} {drawn : List ℤ}
    (hqty : ∀ l ∈ lines, l.qty ≠ 0) (hdrawn : db.DrawsAbove drawn lines.length) :
    db.BatchEqSplit postedAt lines drawn ↔
      db.Covered lines ∨ db.oneAtATime postedAt lines drawn = none := by
  unfold Tables.BatchEqSplit
  rw [planApply_ok_iff hqty, planAndApply_eq hqty hdrawn.length, ← isSome_iff_exists]
  by_cases hcovered : db.Covered lines
  · obtain ⟨heq, hsome⟩ := finish_effects_eq postedAt hqty hdrawn (beside_hydrateSnapshot hcovered)
    refine iff_of_true ⟨⟨hsome, fun h => ?_⟩, fun split hsplit => heq.trans hsplit⟩
      (.inl hcovered)
    rw [← heq] at h
    exact isSome_of_isSome_bind h
  · simp only [hcovered, false_or, effects_eq_none hqty hcovered, isSome_none,
      Bool.false_eq_true, false_iff]
    rw [not_isSome_iff_eq_none]
    refine ⟨And.left, fun h => ⟨h, fun split hsplit => ?_⟩⟩
    rw [h] at hsplit
    cases hsplit

lemma storeRoom_drawsAbove : storeRoom.DrawsAbove [5, 6] 2 where
  length := rfl
  increasing := by decide
  pos := by decide
  above := by
    intro id hid p r hr
    have hrow : (p, r) ∈ storeRoom.poolState.rows :=
      KeyedTable.get?_self_iff.mp (mem_layersOf.mp hr).1
    have hbelow : ∀ x ∈ storeRoom.poolState.rows, x.2.layerId < 5 := by decide
    have hfive : ∀ i ∈ [(5 : ℤ), 6], 5 ≤ i := by decide
    exact (hbelow _ hrow).trans_le (hfive id hid)

/-- A unit put into a specific pool and taken out of it again. -/
def passThrough (p : ℤ) : List TrxLineRequest :=
  [⟨p, .transferReceiptLine, none, 1, 30⟩, ⟨p, .transferShipmentLine, none, -1, 0⟩]

/-- The receipt leaves no layer in the snapshot, so the plan finds nothing to deplete. -/
theorem planApply_passThrough :
    storeRoom.DrawsAbove [5, 6] 2 ∧
    planApply (storeRoom.hydrateSnapshot [3, 3]) (passThrough 3) 9 =
      .error (.raised (.insufficientInventory 3 1 0)) ∧
    (storeRoom.oneAtATime 9 (passThrough 3) [5, 6]).isSome ∧
    ¬ storeRoom.BatchEqSplit 9 (passThrough 3) [5, 6] := by
  have hplan : planApply (storeRoom.hydrateSnapshot [3, 3]) (passThrough 3) 9 =
      .error (.raised (.insufficientInventory 3 1 0)) := by decide
  have hsplit : (storeRoom.oneAtATime 9 (passThrough 3) [5, 6]).isSome := by decide
  refine ⟨storeRoom_drawsAbove, hplan, hsplit, fun h => ?_⟩
  obtain ⟨plan, hok⟩ := h.1.mpr (isSome_iff_exists.mp hsplit)
  exact absurd (hplan.symm.trans hok) nofun

/-- A unit taken out of pool 2 before another is put in. -/
theorem batchEqSplit_exchange :
    (storeRoom.oneAtATime 9 (passThrough 2).reverse [5, 6]).isSome ∧
    storeRoom.BatchEqSplit 9 (passThrough 2).reverse [5, 6] :=
  ⟨by decide, (batchEqSplit_iff (by decide) storeRoom_drawsAbove).mpr (.inl (by decide))⟩

end Acct.V32
