import Acct.V32.Spi.PoolState

/-!
# What a line does to the rows of its pool

`recordState?` succeeds if the line's id is above the ids of the pool's layers; it replaces the
aggregate, adds a layer at the end or takes the first away, and leaves the other pools alone
(`exists_recordState?`). A snapshot reads the aggregate and the layers off the table.
-/

namespace Acct.V32

open Table List

variable {t t' : PoolState} {p q : ℤ} {r : PoolStateRow}

/-! ### Layers -/

lemma mem_layersOf :
    r ∈ layersOf t p ↔ t.get? (p, r.layerId) = some (p, r) ∧ 0 < r.layerId := by
  rw [layersOf, mem_sortBy, List.mem_map, t.get?_eq_some_iff]
  constructor
  · rintro ⟨⟨p', r'⟩, hr, rfl⟩
    obtain ⟨hmem, hp⟩ := mem_filter.mp hr
    rw [decide_eq_true_eq] at hp
    obtain ⟨rfl, hpos⟩ := hp
    exact ⟨⟨hmem, rfl⟩, hpos⟩
  · rintro ⟨⟨hmem, -⟩, hpos⟩
    exact ⟨(p, r), mem_filter.mpr ⟨hmem, by simpa using hpos⟩, rfl⟩

lemma pairwise_layersOf (t : PoolState) (p : ℤ) :
    (layersOf t p).Pairwise (·.layerId < ·.layerId) := by
  apply pairwise_sortBy
  have hnodup := t.keys_nodup_filter fun r => r.1 = p ∧ r.2.layerId > 0
  rw [List.map_map]
  refine (nodup_map_iff_inj_on (List.Nodup.of_map _ hnodup)).mpr fun r hr r' hr' heq => ?_
  have hp := of_decide_eq_true (mem_filter.mp hr).2
  have hp' := of_decide_eq_true (mem_filter.mp hr').2
  exact inj_on_of_nodup_map hnodup hr hr' (Prod.ext (hp.1.trans hp'.1.symm) heq)

lemma layersOf_eq {l : List PoolStateRow} (hl : l.Pairwise (·.layerId < ·.layerId))
    (h : ∀ r, r ∈ l ↔ t.get? (p, r.layerId) = some (p, r) ∧ 0 < r.layerId) : layersOf t p = l :=
  eq_of_mem_iff (pairwise_layersOf t p) hl fun r => mem_layersOf.trans (h r).symm

lemma layersOf_congr (h : ∀ layerId, t'.get? (p, layerId) = t.get? (p, layerId)) :
    layersOf t' p = layersOf t p := by
  refine layersOf_eq (pairwise_layersOf t p) fun r => ?_
  rw [mem_layersOf, h]

lemma aggregateOf_congr (h : ∀ layerId, t'.get? (p, layerId) = t.get? (p, layerId)) :
    aggregateOf t' p = aggregateOf t p := by
  rw [aggregateOf, h, aggregateOf]

/-! ### One write -/

section Upsert

variable (t p) (a : Aggregate)

lemma get?_upsertAggregate (k : ℤ × ℤ) :
    (t.upsert (p, a.row 0)).get? k = if k = (p, 0) then some (p, a.row 0) else t.get? k :=
  KeyedTable.get?_applyOne? (w := .upsert (p, a.row 0)) rfl k

lemma aggregateOf_upsertAggregate_self :
    aggregateOf (t.upsert (p, a.row 0)) p = some (a.row 0) := by
  rw [aggregateOf, get?_upsertAggregate, if_pos rfl]
  rfl

variable {p} in
lemma aggregateOf_upsertAggregate_of_ne (hq : q ≠ p) :
    aggregateOf (t.upsert (p, a.row 0)) q = aggregateOf t q := by
  refine aggregateOf_congr fun layerId => ?_
  rw [get?_upsertAggregate, if_neg fun h => hq (congrArg Prod.fst h)]

lemma layersOf_upsertAggregate : layersOf (t.upsert (p, a.row 0)) q = layersOf t q := by
  refine layersOf_eq (pairwise_layersOf t q) fun r => ?_
  rw [mem_layersOf, get?_upsertAggregate]
  constructor
  · rintro ⟨hr, hpos⟩
    exact ⟨by rw [if_neg fun h => hpos.ne' (congrArg Prod.snd h)]; exact hr, hpos⟩
  · rintro ⟨hr, hpos⟩
    rw [if_neg fun h => hpos.ne' (congrArg Prod.snd h)] at hr
    exact ⟨hr, hpos⟩

end Upsert

lemma exists_insertLayer (hpos : 0 < r.layerId)
    (hfresh : ∀ r' ∈ layersOf t p, r'.layerId < r.layerId) :
    ∃ t', t.insert? (p, r) = some t' ∧ layersOf t' p = layersOf t p ++ [r] ∧
      (∀ q, aggregateOf t' q = aggregateOf t q) ∧ ∀ q, q ≠ p → layersOf t' q = layersOf t q := by
  have hfree : t.get? (p, r.layerId) = none := by
    rw [Option.eq_none_iff_forall_not_mem]
    rintro ⟨p', r'⟩ hr'
    obtain ⟨hp, hid⟩ := Prod.mk.inj (t.get?_eq_some_iff.mp hr').2
    dsimp only at hp hid
    subst hp
    rw [← hid] at hr' hpos
    exact absurd (hfresh r' (mem_layersOf.mpr ⟨hr', hpos⟩)) (by omega)
  obtain ⟨t', ht'⟩ := (KeyedTable.exists_applyOne?_iff (t := t) (w := .insert (p, r))).mpr
    fun _ h => by cases h; exact hfree
  have hget : ∀ k, t'.get? k = if k = (p, r.layerId) then some (p, r) else t.get? k :=
    KeyedTable.get?_applyOne? ht'
  have hother : ∀ q, q ≠ p → ∀ layerId, t'.get? (q, layerId) = t.get? (q, layerId) := by
    intro q hq layerId
    rw [hget, if_neg fun h => hq (congrArg Prod.fst h)]
  refine ⟨t', ht', ?_, fun q => ?_, fun q hq => layersOf_congr (hother q hq)⟩
  · refine layersOf_eq ?_ fun r' => ?_
    · rw [pairwise_append]
      refine ⟨pairwise_layersOf t p, pairwise_singleton _ _, fun r' hr' x hx => ?_⟩
      rw [mem_singleton.mp hx]
      exact hfresh r' hr'
    · rw [mem_append, mem_singleton, mem_layersOf, hget]
      by_cases hid : r'.layerId = r.layerId
      · rw [if_pos (show (p, r'.layerId) = (p, r.layerId) by rw [hid]), hid, hfree]
        constructor
        · rintro (⟨h, -⟩ | rfl)
          · cases h
          · exact ⟨rfl, hpos⟩
        · rintro ⟨h, -⟩
          cases h
          exact .inr rfl
      · rw [if_neg fun h => hid (congrArg Prod.snd h)]
        refine ⟨fun h => h.resolve_right ?_, .inl⟩
        rintro rfl
        exact hid rfl
  · rw [aggregateOf, hget, if_neg fun h => hpos.ne (congrArg Prod.snd h), aggregateOf]

lemma layersOf_delete_head {rest : List PoolStateRow} (h : layersOf t p = r :: rest) :
    layersOf (t.delete (p, r.layerId)) p = rest := by
  have hsorted := h ▸ pairwise_layersOf t p
  rw [pairwise_cons] at hsorted
  refine layersOf_eq hsorted.2 fun r' => ?_
  have hmem : r' ∈ r :: rest ↔ t.get? (p, r'.layerId) = some (p, r') ∧ 0 < r'.layerId := by
    rw [← h, mem_layersOf]
  rw [KeyedTable.get?_delete]
  constructor
  · intro hr'
    have hlt := hsorted.1 r' hr'
    rw [if_neg fun heq => hlt.ne' (congrArg Prod.snd heq)]
    exact hmem.mp (mem_cons_of_mem _ hr')
  · rintro ⟨hget, hpos⟩
    split_ifs at hget with heq
    rcases mem_cons.mp (hmem.mpr ⟨hget, hpos⟩) with rfl | hr'
    · exact absurd rfl heq
    · exact hr'

section Delete

variable {layerId : ℤ}

lemma layersOf_delete_of_ne (hq : q ≠ p) : layersOf (t.delete (p, layerId)) q = layersOf t q :=
  layersOf_congr fun id => by
    rw [KeyedTable.get?_delete, if_neg fun h => hq (congrArg Prod.fst h)]

lemma aggregateOf_delete (hpos : 0 < layerId) :
    aggregateOf (t.delete (p, layerId)) q = aggregateOf t q := by
  rw [aggregateOf, KeyedTable.get?_delete, if_neg fun h => hpos.ne (congrArg Prod.snd h),
    aggregateOf]

end Delete

/-! ### One line -/

/-- The aggregate and the layers of pool `p` after a line, and those of the other pools as
before. -/
structure Recorded (t t' : PoolState) (p id : ℤ) (o : Outcome) : Prop where
  aggregate : aggregateOf t' p = some (o.aggregate.row 0)
  layers : layersOf t' p = o.layers.layers id (layersOf t p)
  aggregate_of_ne : ∀ q, q ≠ p → aggregateOf t' q = aggregateOf t q
  layers_of_ne : ∀ q, q ≠ p → layersOf t' q = layersOf t q

/-- The aggregate is written last, on a table whose layers are already those after the line. -/
lemma recorded_upsertAggregate {id : ℤ} {o : Outcome}
    (hlayers : layersOf t' p = o.layers.layers id (layersOf t p))
    (haggregate : ∀ q, aggregateOf t' q = aggregateOf t q)
    (hother : ∀ q, q ≠ p → layersOf t' q = layersOf t q) :
    Recorded t (t'.upsert (p, o.aggregate.row 0)) p id o where
  aggregate := aggregateOf_upsertAggregate_self t' p o.aggregate
  layers := by rw [layersOf_upsertAggregate, hlayers]
  aggregate_of_ne q hq := by rw [aggregateOf_upsertAggregate_of_ne t' _ hq, haggregate]
  layers_of_ne q hq := by rw [layersOf_upsertAggregate, hother q hq]

theorem exists_recordState? {id : ℤ} (o : Outcome) (hid : 0 < id)
    (hfresh : ∀ r ∈ layersOf t p, r.layerId < id) :
    ∃ t', recordState? t p id o = some t' ∧ Recorded t t' p id o := by
  unfold recordState? Outcome.writes
  cases hchange : o.layers with
  | unchanged =>
    refine ⟨_, rfl, recorded_upsertAggregate ?_ (fun _ => rfl) fun _ _ => rfl⟩
    rw [hchange]
    rfl
  | opened qty unitCost valueSum =>
    obtain ⟨t', ht', hlayers, haggregate, hother⟩ :=
      exists_insertLayer (t := t) (p := p) (r := ⟨id, qty, unitCost, valueSum⟩) hid hfresh
    refine ⟨t'.upsert (p, o.aggregate.row 0), ?_, recorded_upsertAggregate ?_ haggregate hother⟩
    · dsimp only
      rw [KeyedTable.applyAll?_cons, KeyedTable.applyOne?, ht']
      rfl
    · rw [hlayers, hchange]
      rfl
  | consumed =>
    cases hl : layersOf t p with
    | nil =>
      refine ⟨_, rfl, recorded_upsertAggregate ?_ (fun _ => rfl) fun _ _ => rfl⟩
      rw [hchange, hl]
      rfl
    | cons r rest =>
      have hpos : 0 < r.layerId := (mem_layersOf.mp (hl ▸ mem_cons_self)).2
      refine ⟨_, rfl, recorded_upsertAggregate ?_ (fun q => aggregateOf_delete hpos)
        fun q hq => layersOf_delete_of_ne hq⟩
      rw [layersOf_delete_head hl, hchange, hl]
      rfl

end Acct.V32
