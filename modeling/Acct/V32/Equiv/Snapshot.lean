import Acct.V32.Equiv.Outcome
import Acct.V32.Spi.Equiv.PoolState

/-!
# A snapshot beside the table

A hydrated snapshot reads off the table the aggregate of every touched pool and the layers of the
specific ones. While lines are planned, the snapshot keeps up with the aggregates but not with new
layers: it `Mirrors` the table up to the layers opened since (`Mirrors.record`).
-/

namespace Acct.V32

open Table List

variable {s : Snapshot} {p q : ℤ} {o : Outcome} {row r : PoolStateRow} {t : PoolState}

namespace Snapshot

variable (s : Snapshot) (p : ℤ)

def visible : List PoolStateRow := (s.pools p).filter (0 < ·.layerId)

variable {s p}

lemma lowestLayer_eq (h : (s.visible p).Pairwise (·.layerId < ·.layerId)) :
    lowestLayer (s.pools p) = (s.visible p).head? := by
  rw [lowestLayer, ← visible, earliest_eq_head? h]

end Snapshot

/-! ### Recording a line -/

lemma find?_putRow (h : row.layerId = 0) (rows : List PoolStateRow) :
    (putRow row rows).find? (·.layerId = 0) = some row := by
  induction rows with
  | nil => simp [putRow, h]
  | cons r rows ih =>
    rw [putRow]
    split_ifs with hr
    · simp [h]
    · rw [List.find?_cons_of_neg (by simpa using hr), ih]

lemma filter_putRow (h : row.layerId = 0) (rows : List PoolStateRow) :
    (putRow row rows).filter (0 < ·.layerId) = rows.filter (0 < ·.layerId) := by
  induction rows with
  | nil => simp [putRow, h]
  | cons r rows ih =>
    rw [putRow]
    split_ifs with hr
    · simp [h, hr]
    · rw [filter_cons, filter_cons, ih]

lemma filter_ne_head {rows : List PoolStateRow} (h : (r :: rows).Pairwise (·.layerId < ·.layerId)) :
    (r :: rows).filter (·.layerId ≠ r.layerId) = rows := by
  rw [pairwise_cons] at h
  rw [filter_cons_of_neg (by simp), filter_eq_self]
  intro r' hr'
  simpa using (h.1 r' hr').ne'

namespace Snapshot

@[simp] lemma methodOf_record : (s.record p o).methodOf = s.methodOf := by
  unfold record
  cases o.source (s.lowestLayerId p) <;> rfl

@[simp] lemma standardCostOf_record : (s.record p o).standardCostOf = s.standardCostOf := by
  unfold record
  cases o.source (s.lowestLayerId p) <;> rfl

@[simp] lemma postingAccountsOf_record :
    (s.record p o).postingAccountsOf = s.postingAccountsOf := by
  unfold record
  cases o.source (s.lowestLayerId p) <;> rfl

lemma pools_record_of_ne (hq : q ≠ p) : (s.record p o).pools q = s.pools q := by
  unfold record
  cases o.source (s.lowestLayerId p) <;> simp [putAggregate, dropLayer, hq]

lemma readAggregate_record_of_ne (hq : q ≠ p) :
    (s.record p o).readAggregate q = s.readAggregate q := by
  rw [readAggregate, aggregate, pools_record_of_ne hq, readAggregate, aggregate]

lemma visible_record_of_ne (hq : q ≠ p) : (s.record p o).visible q = s.visible q := by
  rw [visible, pools_record_of_ne hq, visible]

lemma readAggregate_record_self : (s.record p o).readAggregate p = o.aggregate.row 0 := by
  unfold record putAggregate readAggregate aggregate
  dsimp only
  rw [Function.update_self, find?_putRow rfl]
  rfl

lemma visible_record_self (h : (s.visible p).Pairwise (·.layerId < ·.layerId)) :
    (s.record p o).visible p =
      if o.layers = .consumed then (s.visible p).tail else s.visible p := by
  unfold record putAggregate
  rw [visible]
  dsimp only
  rw [Function.update_self, filter_putRow rfl]
  cases hchange : o.layers with
  | consumed =>
    rw [if_pos rfl, Outcome.source, hchange, lowestLayerId, lowestLayer_eq h]
    cases hvisible : s.visible p with
    | nil => exact hvisible
    | cons r rest =>
      dsimp only [List.head?_cons, Option.map_some, Option.elim_some, dropLayer]
      rw [Function.update_self, filter_comm, ← visible, hvisible, filter_ne_head (hvisible ▸ h)]
      rfl
  | unchanged | opened =>
    rw [if_neg nofun, Outcome.source, hchange]
    rfl

lemma visible_record_sublist (h : (s.visible q).Pairwise (·.layerId < ·.layerId)) :
    ((s.record p o).visible q).Sublist (s.visible q) := by
  by_cases hq : q = p
  · subst hq
    rw [visible_record_self h]
    split_ifs
    · exact tail_sublist _
    · exact List.Sublist.refl _
  · rw [visible_record_of_ne hq]

end Snapshot

/-! ### Outcomes -/

/-- The outcome of a line depends on the snapshot through the pool's configuration, its aggregate
and, for a depletion of a specific pool, the lowest layer. -/
lemma Snapshot.outcome?_congr {s s' : Snapshot} {line : TrxLineRequest}
    (hmethod : s'.methodOf line.poolId = s.methodOf line.poolId)
    (hcost : s'.standardCostOf line.poolId = s.standardCostOf line.poolId)
    (haccounts : s'.postingAccountsOf line.poolId = s.postingAccountsOf line.poolId)
    (haggregate : s'.readAggregate line.poolId = s.readAggregate line.poolId)
    (hlayer : s.methodOf line.poolId = some .specific → ¬ line.qty > 0 →
      lowestLayer (s'.pools line.poolId) = lowestLayer (s.pools line.poolId)) :
    s'.outcome? line = s.outcome? line := by
  unfold outcome?
  rw [hmethod, hcost, haccounts, haggregate]
  cases hm : s.methodOf line.poolId with
  | none => rfl
  | some method =>
    cases method with
    | specific =>
      simp only [Option.bind_eq_bind, Option.bind_some, specificOutcome?]
      congr 1
      funext accounts
      split_ifs with hpos
      · rfl
      · rw [hlayer hm hpos]
    | wac | std | fifo | lifo => rfl

/-! ### The table -/

structure Mirrors (s : Snapshot) (t : PoolState) (p : ℤ) : Prop where
  aggregate : s.readAggregate p = (aggregateOf t p).getD ⟨0, 0, 0, 0⟩
  layers : s.methodOf p = some .specific → s.visible p <+: layersOf t p

section Hydrated

variable {db : Tables} {poolIds : List ℤ}

lemma aggregateRows_eq (db : Tables) (p : ℤ) :
    db.aggregateRows p = (aggregateOf db.poolState p).toList := by
  unfold Tables.aggregateRows aggregateOf
  cases hget : db.poolState.get? (p, 0) with
  | none =>
    rw [KeyedTable.get?_eq_none_iff] at hget
    rw [filter_eq_nil_iff.mpr]
    · rfl
    · intro r hr hp
      rw [decide_eq_true_eq] at hp
      exact hget (List.mem_map.mpr ⟨r, hr, Prod.ext hp.1 hp.2⟩)
  | some r =>
    obtain ⟨hmem, hk⟩ := db.poolState.get?_eq_some_iff.mp hget
    have hfilter : db.poolState.rows.filter (fun r => r.1 = p ∧ r.2.layerId = 0) =
        db.poolState.rows.filter (fun r' => (r'.1, r'.2.layerId) = (r.1, r.2.layerId)) := by
      refine filter_congr fun r' hr' => ?_
      rw [hk]
      simp [Prod.mk.injEq]
    rw [hfilter, filter_key_eq_singleton db.poolState.keys_nodup hmem]
    rfl

lemma layerId_of_mem_aggregateOf (h : aggregateOf t p = some r) : r.layerId = 0 := by
  obtain ⟨⟨p', r'⟩, hget, rfl⟩ := Option.map_eq_some_iff.mp h
  exact congrArg Prod.snd (t.get?_eq_some_iff.mp hget).2

lemma pools_hydrateSnapshot (hp : p ∈ poolIds) : (db.hydrateSnapshot poolIds).pools p =
    (aggregateOf db.poolState p).toList ++
      if (db.pool p).map (·.method) = some .specific then layersOf db.poolState p else [] := by
  simp only [Tables.hydrateSnapshot, if_pos hp, aggregateRows_eq]
  rfl

lemma methodOf_hydrateSnapshot_of_mem (hp : p ∈ poolIds) :
    (db.hydrateSnapshot poolIds).methodOf p = (db.pool p).map (·.method) := by
  simp [Tables.hydrateSnapshot, Tables.touched, hp]

lemma readAggregate_hydrateSnapshot (hp : p ∈ poolIds) :
    (db.hydrateSnapshot poolIds).readAggregate p =
      (aggregateOf db.poolState p).getD ⟨0, 0, 0, 0⟩ := by
  unfold Snapshot.readAggregate Snapshot.aggregate
  rw [pools_hydrateSnapshot hp]
  cases ha : aggregateOf db.poolState p with
  | some r => simp [layerId_of_mem_aggregateOf ha]
  | none =>
    have hnone : ∀ rows : List PoolStateRow, (∀ r ∈ rows, 0 < r.layerId) →
        rows.find? (·.layerId = 0) = none := by
      intro rows hrows
      rw [List.find?_eq_none]
      intro r hr
      simpa using (hrows r hr).ne'
    rw [Option.toList_none, nil_append, hnone]
    split_ifs
    · exact fun r hr => (mem_layersOf.mp hr).2
    · simp

lemma visible_hydrateSnapshot (hp : p ∈ poolIds)
    (hspecific : (db.pool p).map (·.method) = some .specific) :
    (db.hydrateSnapshot poolIds).visible p = layersOf db.poolState p := by
  rw [Snapshot.visible, pools_hydrateSnapshot hp, if_pos hspecific, filter_append]
  have hlayers : (layersOf db.poolState p).filter (0 < ·.layerId) = layersOf db.poolState p := by
    rw [filter_eq_self]
    intro r hr
    simpa using (mem_layersOf.mp hr).2
  have haggregate : (aggregateOf db.poolState p).toList.filter (0 < ·.layerId) = [] := by
    rw [filter_eq_nil_iff]
    intro r hr
    simp [layerId_of_mem_aggregateOf (Option.mem_toList.mp hr)]
  rw [hlayers, haggregate, nil_append]

lemma mirrors_hydrateSnapshot (db : Tables) (hp : p ∈ poolIds) :
    Mirrors (db.hydrateSnapshot poolIds) db.poolState p where
  aggregate := readAggregate_hydrateSnapshot hp
  layers hspecific := by
    rw [methodOf_hydrateSnapshot_of_mem hp] at hspecific
    rewrite [visible_hydrateSnapshot hp hspecific]
    exact prefix_rfl

end Hydrated

namespace Mirrors

variable {t' : PoolState} {id : ℤ}

lemma pairwise_visible (h : Mirrors s t p) (hspecific : s.methodOf p = some .specific) :
    (s.visible p).Pairwise (·.layerId < ·.layerId) :=
  (pairwise_layersOf t p).sublist (h.layers hspecific).sublist

lemma head?_visible (h : Mirrors s t p) (hspecific : s.methodOf p = some .specific)
    (hne : s.visible p ≠ []) : (s.visible p).head? = (layersOf t p).head? := by
  obtain ⟨hidden, hlayers⟩ := h.layers hspecific
  rw [← hlayers, List.head?_append_of_ne_nil _ hne]

lemma record (h : Mirrors s t q) (ht : Recorded t t' p id o) : Mirrors (s.record p o) t' q := by
  by_cases hq : q = p
  · subst hq
    refine ⟨by rw [Snapshot.readAggregate_record_self, ht.aggregate]; rfl, fun hspecific => ?_⟩
    rw [Snapshot.methodOf_record] at hspecific
    rw [Snapshot.visible_record_self (h.pairwise_visible hspecific), ht.layers]
    obtain ⟨hidden, hlayers⟩ := h.layers hspecific
    rw [← hlayers]
    cases hchange : o.layers with
    | unchanged => exact prefix_append _ _
    | opened qty unitCost valueSum =>
      rw [if_neg nofun, LayerChange.layers, append_assoc]
      exact prefix_append _ _
    | consumed =>
      rw [if_pos rfl, LayerChange.layers]
      cases s.visible q with
      | nil => exact nil_prefix
      | cons r rest => exact prefix_append _ _
  · refine ⟨?_, fun hspecific => ?_⟩
    · rw [Snapshot.readAggregate_record_of_ne hq, ht.aggregate_of_ne q hq, h.aggregate]
    · rw [Snapshot.methodOf_record] at hspecific
      rw [Snapshot.visible_record_of_ne hq, ht.layers_of_ne q hq]
      exact h.layers hspecific

end Mirrors

end Acct.V32
