import Acct.V32.Feed.Consumer

/-!
# Ingestion does not depend on how the stream is cut

A crash between applying a batch and advancing the slot delivers its lines again, and where batches
are cut depends on timing. Neither matters for the recost floors and the dirty set
(`foldl_feedIngest`): one application lowers the floor to a minimum over the batch (`feedFloor_eq`),
and a minimum depends on the members of the list only (`min?_congr`).
-/

namespace Acct.V32

open List

variable {s : PoolSettlement} {lines : List TrxLineEvent}

/-! ### Minima of lists -/

section Minimum

variable {α : Type*} [LinearOrder α]

lemma min?_congr {l l' : List α} (h : ∀ a, a ∈ l ↔ a ∈ l') : l.min? = l'.min? := by
  ext a
  simp only [List.min?_eq_some_iff, h]

lemma min?_toList_min?_append (l l' : List α) : (l.min?.toList ++ l').min? = (l ++ l').min? := by
  cases hl : l.min? with
  | none =>
    rw [List.min?_eq_none_iff.mp hl]
    rfl
  | some m =>
    obtain ⟨hm, hle⟩ := List.min?_eq_some_iff.mp hl
    ext a
    simp only [List.min?_eq_some_iff, Option.toList_some, mem_append, mem_singleton]
    constructor
    · rintro ⟨ha, hmin⟩
      refine ⟨ha.imp_left fun (h : a = m) => h.symm ▸ hm, ?_⟩
      rintro b (hb | hb)
      · exact (hmin m (.inl rfl)).trans (hle b hb)
      · exact hmin b (.inr hb)
    · rintro ⟨ha, hmin⟩
      refine ⟨ha.imp_left fun h => le_antisymm (hmin m (.inl hm)) (hle a h), ?_⟩
      rintro b (rfl | hb)
      · exact hmin b (.inl hm)
      · exact hmin b (.inr hb)

end Minimum

/-! ### One batch -/

def behindFrontier (s : PoolSettlement) (lines : List TrxLineEvent) : List Pos :=
  (lines.filterMap (·.pos?)).filter fun m => decide (∃ f ∈ s.settledThrough, m < f)

/-- The least of the old floor and the lines behind the frontier, in `(posted_at, id)` order. -/
def earliestBehind (s : PoolSettlement) (lines : List TrxLineEvent) : Option Pos :=
  (s.recostFloor.toList ++ behindFrontier s lines).min?

/-- The row with its floor lowered to the lines behind the frontier. -/
def PoolSettlement.lowered (s : PoolSettlement) (lines : List TrxLineEvent) : PoolSettlement :=
  { s with recostFloor := earliestBehind s lines }

lemma mem_behindFrontier {m : Pos} :
    m ∈ behindFrontier s lines ↔
      m ∈ lines.filterMap (·.pos?) ∧ ∃ f ∈ s.settledThrough, m < f := by
  simp [behindFrontier]

lemma lowered_of_behindFrontier_eq_nil (h : behindFrontier s lines = []) : s.lowered lines = s := by
  have hfloor : s.recostFloor.toList.min? = s.recostFloor := by cases s.recostFloor <;> rfl
  rw [PoolSettlement.lowered, earliestBehind, h, append_nil, hfloor]

/-- **The guarded `UPDATE` takes the minimum.** The batch's least line is the only one it looks at:
if that one is not behind the frontier, no other is. -/
theorem feedFloor_eq (batch : List TrxLineEvent) (s : PoolSettlement) :
    feedFloor batch s = s.lowered batch := by
  unfold feedFloor
  cases hm : batchMin batch with
  | none =>
    have hnil : batch.filterMap (·.pos?) = [] := List.min?_eq_none_iff.mp hm
    exact (lowered_of_behindFrontier_eq_nil (by simp [behindFrontier, hnil])).symm
  | some m =>
    obtain ⟨hmem, hle⟩ := List.min?_eq_some_iff.mp hm
    show (if FloorGuard m s then _ else s) = _
    by_cases hbehind : ∃ f ∈ s.settledThrough, m < f
    · have hmin : (behindFrontier s batch).min? = some m :=
        List.min?_eq_some_iff.mpr ⟨mem_behindFrontier.mpr ⟨hmem, hbehind⟩, fun b hb =>
          hle b (mem_behindFrontier.mp hb).1⟩
      have hfloor : earliestBehind s batch = (s.recostFloor.toList ++ [m]).min? := by
        rw [earliestBehind, min?_congr (fun a => mem_append.trans or_comm |>.trans
          mem_append.symm), ← min?_toList_min?_append, hmin]
        exact min?_congr fun a => by simp [or_comm]
      rw [PoolSettlement.lowered, hfloor]
      cases hold : s.recostFloor with
      | none =>
        rw [if_pos ⟨hbehind, by simp [hold]⟩]
        rfl
      | some old =>
        have hpair : [old, m].min? = some (min old m) := rfl
        rw [Option.toList_some, singleton_append, hpair]
        by_cases hlt : m < old
        · rw [if_pos ⟨hbehind, by simpa [hold] using hlt⟩, min_eq_right hlt.le]
        · rw [if_neg fun hguard => hlt (hguard.2 old hold), min_eq_left (not_lt.mp hlt), ← hold]
    · have hnil : behindFrontier s batch = [] := by
        refine eq_nil_iff_forall_not_mem.mpr fun b hb => hbehind ?_
        obtain ⟨hb, f, hf, hlt⟩ := mem_behindFrontier.mp hb
        exact ⟨f, hf, (hle b hb).trans_lt hlt⟩
      rw [if_neg fun hguard => hbehind hguard.1, lowered_of_behindFrontier_eq_nil hnil]

lemma lowered_lowered (s : PoolSettlement) (lines lines' : List TrxLineEvent) :
    (s.lowered lines).lowered lines' = s.lowered (lines ++ lines') := by
  have hbehind : behindFrontier (s.lowered lines) lines' = behindFrontier s lines' := rfl
  have happend : behindFrontier s (lines ++ lines') =
      behindFrontier s lines ++ behindFrontier s lines' := by
    simp [behindFrontier]
  simp only [PoolSettlement.lowered, earliestBehind, PoolSettlement.mk.injEq, true_and]
  show (Option.toList (earliestBehind s lines) ++ behindFrontier s lines').min? = _
  rw [earliestBehind, min?_toList_min?_append, happend, append_assoc]

lemma lowered_congr (s : PoolSettlement) {lines' : List TrxLineEvent}
    (h : ∀ e, e ∈ lines ↔ e ∈ lines') : s.lowered lines = s.lowered lines' := by
  simp only [PoolSettlement.lowered, earliestBehind, PoolSettlement.mk.injEq, true_and]
  refine min?_congr fun a => ?_
  simp [mem_behindFrontier, h]

/-! ### A stream of batches -/

/-- The batches applied while the lines `lines` are delivered: each batch is the next part of the
stream, or brings back lines that have been delivered already. -/
inductive Deliveries : List DeliveredLine → List (List DeliveredLine) → Prop
  | nil : Deliveries [] []
  | next {lines batches} (batch) : Deliveries lines batches →
      Deliveries (lines ++ batch) (batches ++ [batch])
  | again {lines batches} (batch) : Deliveries lines batches → (∀ e ∈ batch, e ∈ lines) →
      Deliveries lines (batches ++ [batch])

lemma mem_linesOf {p : ℤ} {batch : List DeliveredLine} {e : TrxLineEvent} :
    e ∈ linesOf p batch ↔ ⟨p, e⟩ ∈ batch := by
  simp only [linesOf, List.mem_map, mem_filter, decide_eq_true_eq]
  constructor
  · rintro ⟨d, ⟨hd, rfl⟩, rfl⟩
    exact hd
  · exact fun h => ⟨_, ⟨h, rfl⟩, rfl⟩

lemma isEmpty_linesOf (p : ℤ) (batch : List DeliveredLine) :
    (!(linesOf p batch).isEmpty) = batch.any (·.poolId = p) := by
  rw [Bool.eq_iff_iff]
  simp [linesOf, filter_eq_nil_iff]

variable (cfg : BackpressureConfig) (layered : ℤ → Bool)

/-- **Ingestion is independent of batch boundaries and of redelivery.** Whatever batches deliver a
stream, a pool's floor is the least of its old floor and its physical lines strictly behind the
frontier, and the marked pools are those marked before and those the stream touches. -/
theorem foldl_feedIngest (db : FeedDb) {lines : List DeliveredLine}
    {batches : List (List DeliveredLine)} (h : Deliveries lines batches) (p : ℤ) :
    (batches.foldl (feedIngest cfg layered) db).settlement p =
        (db.settlement p).map (·.lowered (linesOf p lines)) ∧
      (batches.foldl (feedIngest cfg layered) db).queued p =
        (db.queued p || lines.any (·.poolId = p)) := by
  induction h with
  | nil =>
    constructor
    · cases hrow : db.settlement p with
      | none => simp [hrow]
      | some s =>
        have hsame : s.lowered [] = s := lowered_of_behindFrontier_eq_nil rfl
        simp [hrow, linesOf, hsame]
    · simp
  | @next lines batches batch _ ih =>
    rw [foldl_append]
    show ((_ : Option PoolSettlement).map _) = _ ∧ (_ || _) = _
    rw [ih.1, ih.2, isEmpty_linesOf, any_append, Bool.or_assoc, Option.map_map]
    refine ⟨?_, rfl⟩
    congr 1
    funext s
    show feedFloor _ (s.lowered _) = _
    rw [feedFloor_eq, lowered_lowered]
    simp [linesOf]
  | @again lines batches batch _ hmem ih =>
    rw [foldl_append]
    show ((_ : Option PoolSettlement).map _) = _ ∧ (_ || _) = _
    rw [ih.1, ih.2, isEmpty_linesOf, Bool.or_assoc, Option.map_map]
    constructor
    · congr 1
      funext s
      show feedFloor _ (s.lowered _) = _
      rw [feedFloor_eq, lowered_lowered]
      -- The lines brought back are among those delivered.
      refine lowered_congr s fun e => ?_
      rw [mem_append, mem_linesOf, mem_linesOf]
      exact or_iff_left_of_imp (hmem _)
    · congr 1
      rw [Bool.eq_iff_iff, Bool.or_eq_true]
      refine or_iff_left_of_imp fun hany => ?_
      obtain ⟨e, he, hp⟩ := List.any_eq_true.mp hany
      exact List.any_eq_true.mpr ⟨e, hmem e he, hp⟩

/-- A line behind the frontier delivered twice, then an adjustment line of another pool. -/
theorem foldl_feedIngest_redelivered :
    Deliveries [⟨1, .physical 5 10⟩, ⟨2, .costAdjustment⟩]
        [[⟨1, .physical 5 10⟩], [⟨1, .physical 5 10⟩], [⟨2, .costAdjustment⟩]] ∧
      ([[⟨1, .physical 5 10⟩], [⟨1, .physical 5 10⟩], [⟨2, .costAdjustment⟩]].foldl
          (feedIngest ⟨5, 1, by decide, by decide, by decide⟩ fun _ => true)
          ⟨fun _ => some ⟨0, some (toLex (20, 9)), none⟩, fun _ => none, fun _ => none,
            fun _ => false⟩).settlement 1 =
        some ⟨0, some (toLex (20, 9)), some (toLex (10, 5))⟩ := by
  have h : Deliveries [⟨1, .physical 5 10⟩, ⟨2, .costAdjustment⟩]
      [[⟨1, .physical 5 10⟩], [⟨1, .physical 5 10⟩], [⟨2, .costAdjustment⟩]] :=
    .next [⟨2, .costAdjustment⟩] (.again _ (.next [⟨1, .physical 5 10⟩] .nil) (by simp))
  exact ⟨h, (foldl_feedIngest _ _ _ h 1).1.trans (by decide)⟩

end Acct.V32
