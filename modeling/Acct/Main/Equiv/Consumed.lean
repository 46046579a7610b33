import Acct.Main.Equiv.Posting
import Acct.Main.WorkOrder

/-!
# Posted cost and consumed layers

The amount of an issue comes from one walk over the layers, or lots, and the rows that record what
it consumed from a later one. The two agree when nothing between them touches the same place. Here:
what a walk sees (`Db.stockOf`), and that posting an event leaves other places as they were.
-/

namespace Acct.Main

open Isolation Prog List

variable {n lineId i idx : ℕ} {v v' v'' db db' : Db} {e : Event} {amount q qty : ℤ}
  {d c a : Account} {w : Write} {t : Tracking} {x : Place} {date : Date} {pin : Option ℕ}
  {ts : List Taken} {l : Lot}

/-! ### What walks see -/

abbrev Place := ℕ × ℕ

structure Stock where
  layers : List (CostLayer × ℤ)
  lots : List (Lot × ℤ)

def Db.stockOf (db : Db) (x : Place) : Stock where
  layers := (db.layers.filter fun l => l.productId == x.1 && l.locationId == x.2).map
    fun l => (l, db.layerResidual l)
  lots := (db.lots.filter fun l => l.productId == x.1 && l.locationId == x.2).map
    fun l => (l, db.lotResidual l)

lemma layerCandidates_congr (h : db'.stockOf x = db.stockOf x) :
    db'.layerCandidates x.1 x.2 = db.layerCandidates x.1 x.2 := by
  have hl := congrArg Stock.layers h
  have hmap : ∀ d : Db, ((d.layers.filter fun l => l.productId == x.1 && l.locationId == x.2).map
      fun l => (⟨l.id, l.receiptDate, l.unitCost, d.layerResidual l⟩ : Candidate)) =
      (d.stockOf x).layers.map fun y => ⟨y.1.id, y.1.receiptDate, y.1.unitCost, y.2⟩ := by
    intro d
    simp [Db.stockOf, Function.comp_def]
  rw [Db.layerCandidates, Db.layerCandidates, hmap, hmap, hl]

/-! ### Fresh ids -/

/-- Ids come from the sequence: they are below its next value, and no two layers or lots share
one. -/
structure Fresh (n : ℕ) (db : Db) : Prop where
  layers : (db.layers.map (·.id)).Nodup
  lots : (db.lots.map (·.id)).Nodup
  layer_lt : ∀ l ∈ db.layers, l.id < n
  lot_lt : ∀ l ∈ db.lots, l.id < n
  line_lt : ∀ l ∈ db.lines, l.id < n
  depletion_lt : ∀ d ∈ db.depletions, d.lineId < n
  lotEvent_lt : ∀ e ∈ db.lotEvents, e.lineId < n
  lotEvent_lot_lt : ∀ e ∈ db.lotEvents, e.lotId < n

lemma Fresh.succ (h : Fresh n db) : Fresh (n + 1) db where
  layers := h.layers
  lots := h.lots
  layer_lt l hl := Nat.lt_succ_of_lt (h.layer_lt l hl)
  lot_lt l hl := Nat.lt_succ_of_lt (h.lot_lt l hl)
  line_lt l hl := Nat.lt_succ_of_lt (h.line_lt l hl)
  depletion_lt d hd := Nat.lt_succ_of_lt (h.depletion_lt d hd)
  lotEvent_lt e he := Nat.lt_succ_of_lt (h.lotEvent_lt e he)
  lotEvent_lot_lt e he := Nat.lt_succ_of_lt (h.lotEvent_lot_lt e he)

/-! ### The walk, run alone -/

/-- A walk leaves everything as it is, and returns what the loop takes of what it sees. -/
lemma walk_ends {cs : Db → List Candidate} {row : ℕ → Row} {e : Err} {E : Prop}
    (hE : E ∨ 0 < q ∧ (walkLoop (cs v) q).2 ≤ 0 := by exact .inl trivial) :
    (walk cs row e q).Ends schema E n v fun ts n' v' =>
      n' = n ∧ v' = v ∧ 0 < q ∧ ts = (walkLoop (cs v) q).1 ∧ (walkLoop (cs v) q).2 ≤ 0 := by
  refine ends_bind (ends_ensure (fun hq => ends_bind (ends_query ?_)) (hE.imp_right (·.1)))
  refine ends_bind (ends_lockRows (ends_bind (ends_ensure (fun hw => ?_) (hE.imp_right (·.2)))))
  exact ends_pure ⟨rfl, rfl, hq, rfl, hw⟩

/-! ### Writes elsewhere -/

def CostLayer.place (l : CostLayer) : Place := (l.productId, l.locationId)

def Lot.place (l : Lot) : Place := (l.productId, l.locationId)

def Write.Away (db : Db) (x : Place) : Write → Prop
  | .layer l => l.place ≠ x
  | .depletion d => ∀ l ∈ db.layers, l.place = x → l.id ≠ d.layerId
  | .lot l => l.place ≠ x
  | .lotEvent e => ∀ l ∈ db.lots, l.place = x → l.id ≠ e.lotId
  | _ => True

lemma mem_layers_stockOf {l : CostLayer}
    (h : l ∈ db.layers.filter fun l => l.productId == x.1 && l.locationId == x.2) :
    l ∈ db.layers ∧ l.place = x := by
  simp only [mem_filter, Bool.and_eq_true, beq_iff_eq] at h
  exact ⟨h.1, Prod.ext h.2.1 h.2.2⟩

lemma mem_lots_stockOf (h : l ∈ db.lots.filter fun l => l.productId == x.1 && l.locationId == x.2) :
    l ∈ db.lots ∧ l.place = x := by
  simp only [mem_filter, Bool.and_eq_true, beq_iff_eq] at h
  exact ⟨h.1, Prod.ext h.2.1 h.2.2⟩

lemma place_ne {a b : ℕ} (h : (a, b) ≠ x) : (a == x.1 && b == x.2) = false := by
  rw [Bool.and_eq_false_iff, beq_eq_false_iff_ne, beq_eq_false_iff_ne]
  by_contra hc
  rw [not_or, not_ne_iff, not_ne_iff] at hc
  exact h (Prod.ext hc.1 hc.2)

lemma stockOf_congr (hlayers : db'.layers = db.layers) (hlots : db'.lots = db.lots)
    (hlayer : ∀ l ∈ db.layers, l.place = x → db'.layerResidual l = db.layerResidual l)
    (hlot : ∀ l ∈ db.lots, l.place = x → db'.lotResidual l = db.lotResidual l) :
    db'.stockOf x = db.stockOf x := by
  rw [Db.stockOf, hlayers, hlots]
  refine congrArg₂ Stock.mk (map_congr_left fun l hl => ?_) (map_congr_left fun l hl => ?_)
  · obtain ⟨hmem, hplace⟩ := mem_layers_stockOf hl
    rw [hlayer l hmem hplace]
  · obtain ⟨hmem, hplace⟩ := mem_lots_stockOf hl
    rw [hlot l hmem hplace]

theorem stockOf_apply (h : w.Away db x) : (w.apply db).stockOf x = db.stockOf x := by
  cases w with
  | layer l | lot l =>
    have hx := place_ne h
    simp [Db.stockOf, Write.apply, Db.layerResidual, Db.lotResidual, filter_append, hx]
  | depletion d =>
    refine stockOf_congr rfl rfl (fun l hmem hplace => ?_) fun _ _ _ => rfl
    have hne : (d.layerId == l.id) = false := by simpa using (h l hmem hplace).symm
    simp [Db.layerResidual, Write.apply, filter_append, hne]
  | lotEvent e =>
    refine stockOf_congr rfl rfl (fun _ _ _ => rfl) fun l hmem hplace => ?_
    have hne : (e.lotId == l.id) = false := by simpa using (h l hmem hplace).symm
    simp [Db.lotResidual, Write.apply, filter_append, hne]
  | _ => rfl

/-! ### What a line has consumed -/

def Db.layersConsumed (db : Db) (lineId : ℕ) : ℤ :=
  ((db.depletions.filter (·.lineId == lineId)).map (·.costAmount)).sum

def Db.lotCost (db : Db) (lotId : ℕ) : ℤ :=
  ((db.lots.find? (·.id == lotId)).map (·.unitCost)).getD 0

def Db.lotsConsumed (db : Db) (lineId : ℕ) : ℤ :=
  ((db.lotEvents.filter (·.lineId == lineId)).map
    fun e => roundCost (-e.quantityChange) (db.lotCost e.lotId)).sum

def depletionsOf (lineId : ℕ) (date : Date) (ts : List Taken) : List Depletion :=
  ts.map fun t => ⟨t.id, date, t.allocation, t.unitCost, t.costAmount, lineId⟩

def lotIssuesOf (lineId : ℕ) (date : Date) (ts : List Taken) : List LotEvent :=
  ts.map fun t => ⟨t.id, date, .issue, -t.allocation, lineId⟩

def Db.addDepletions (db : Db) (ds : List Depletion) : Db :=
  { db with depletions := db.depletions ++ ds }

def Db.addLotEvents (db : Db) (es : List LotEvent) : Db :=
  { db with lotEvents := db.lotEvents ++ es }

lemma applyAll_depletions (ds : List Depletion) (db : Db) :
    schema.applyAll (ds.map .depletion) db = db.addDepletions ds := by
  induction ds generalizing db with
  | nil => simp [Db.addDepletions]
  | cons d ds ih =>
    rw [map_cons, Schema.applyAll_cons, ih]
    simp [Write.apply, Db.addDepletions]

lemma applyAll_lotEvents (es : List LotEvent) (db : Db) :
    schema.applyAll (es.map .lotEvent) db = db.addLotEvents es := by
  induction es generalizing db with
  | nil => simp [Db.addLotEvents]
  | cons e es ih =>
    rw [map_cons, Schema.applyAll_cons, ih]
    simp [Write.apply, Db.addLotEvents]

lemma fifoWriteDepletions_ends {E : Prop}
    (hE : E ∨ (0 < q ∧ (walkLoop (v.layerCandidates x.1 x.2) q).2 ≤ 0) ∧
      ∃ v', schema.perform ((depletionsOf lineId date
        (walkLoop (v.layerCandidates x.1 x.2) q).1).map .depletion) v = .ok v' :=
      by exact .inl trivial) :
    (fifoWriteDepletions lineId x.1 x.2 q date).Ends schema E n v fun _ n' v' =>
      n' = n ∧ 0 < q ∧ v' = v.addDepletions
        (depletionsOf lineId date (walkLoop (v.layerCandidates x.1 x.2) q).1) := by
  refine (walk_ends (hE.imp_right (·.1))).bind ?_
  rintro ts n1 v1 ⟨rfl, rfl, hq, rfl, -⟩
  rw [depletionsOf, List.map_map] at hE
  refine ends_execAll (fun v' hv' => ⟨rfl, hq, ?_⟩) (hE.imp_right (·.2))
  rw [Schema.eq_applyAll_of_perform hv', ← applyAll_depletions, depletionsOf, List.map_map]
  rfl

lemma lotWriteIssues_post :
    (lotWriteIssues lineId x.1 x.2 q date pin).Post schema n v fun _ n' v' =>
      n' = n ∧ 0 < q ∧ v' = v.addLotEvents
        (lotIssuesOf lineId date (walkLoop (v.lotCandidates x.1 x.2 pin) q).1) := by
  refine Ends.bind walk_ends ?_
  rintro ts n1 v1 ⟨rfl, rfl, hq, rfl, -⟩
  refine ends_execAll fun v' hv' => ⟨rfl, hq, ?_⟩
  rw [Schema.eq_applyAll_of_perform hv', ← applyAll_lotEvents, lotIssuesOf, List.map_map]
  rfl

lemma layersConsumed_append (h : ∀ d ∈ db.depletions, d.lineId ≠ lineId) :
    (db.addDepletions (depletionsOf lineId date ts)).layersConsumed lineId = walkCost ts := by
  have hold : db.depletions.filter (·.lineId == lineId) = [] := by
    refine filter_eq_nil_iff.mpr fun d hd => ?_
    simpa using h d hd
  have hnew : (depletionsOf lineId date ts).filter (·.lineId == lineId) =
      depletionsOf lineId date ts := by
    simp [depletionsOf, filter_map, Function.comp_def]
  simp only [Db.layersConsumed, Db.addDepletions, filter_append, hold, hnew, nil_append]
  simp [depletionsOf, walkCost, Function.comp_def]

lemma layersConsumed_append_of_ne (h : i ≠ lineId) :
    (db.addDepletions (depletionsOf lineId date ts)).layersConsumed i = db.layersConsumed i := by
  have hnew : (depletionsOf lineId date ts).filter (·.lineId == i) = [] := by
    simp [depletionsOf, filter_map, Function.comp_def, h.symm]
  simp only [Db.layersConsumed, Db.addDepletions, filter_append, hnew, append_nil]

lemma lotCost_of_mem (hids : (db.lots.map (·.id)).Nodup) (hl : l ∈ db.lots) :
    db.lotCost l.id = l.unitCost := by
  obtain ⟨b, hb⟩ : ∃ b, db.lots.find? (·.id == l.id) = some b := by
    rw [← Option.isSome_iff_exists, List.find?_isSome]
    exact ⟨l, hl, by simp⟩
  have hid : b.id = l.id := by simpa using List.find?_some hb
  have heq : b = l := inj_on_of_nodup_map hids (List.mem_of_find?_eq_some hb) hl hid
  rw [Db.lotCost, hb, heq]
  rfl

lemma lot_of_walk {t : Taken} (ht : t ∈ (walkLoop (db.lotCandidates x.1 x.2 pin) q).1) :
    ∃ l ∈ db.lots, l.place = x ∧ t.id = l.id ∧
      t.costAmount = roundCost t.allocation l.unitCost := by
  obtain ⟨c, hc, hid, -, -, -, -, hcost⟩ := mem_walkLoop ht
  rw [Db.lotCandidates, List.mem_map] at hc
  obtain ⟨l, hl, rfl⟩ := hc
  rw [mem_insertionSort, mem_filter] at hl
  simp only [Bool.and_eq_true, beq_iff_eq] at hl
  exact ⟨l, hl.1, Prod.ext hl.2.1.1 hl.2.1.2, hid, hcost⟩

lemma layer_of_walk {t : Taken} (ht : t ∈ (walkLoop (db.layerCandidates x.1 x.2) q).1) :
    ∃ l ∈ db.layers, l.place = x ∧ t.id = l.id := by
  obtain ⟨c, hc, hid, -⟩ := mem_walkLoop ht
  rw [Db.layerCandidates, mem_insertionSort, List.mem_map] at hc
  obtain ⟨l, hl, rfl⟩ := hc
  obtain ⟨hmem, hplace⟩ := mem_layers_stockOf hl
  exact ⟨l, hmem, hplace, hid⟩

lemma lotsConsumed_append (hids : (db.lots.map (·.id)).Nodup)
    (h : ∀ e ∈ db.lotEvents, e.lineId ≠ lineId) :
    (db.addLotEvents (lotIssuesOf lineId date
      (walkLoop (db.lotCandidates x.1 x.2 pin) q).1)).lotsConsumed lineId =
        walkCost (walkLoop (db.lotCandidates x.1 x.2 pin) q).1 := by
  have hold : db.lotEvents.filter (·.lineId == lineId) = [] := by
    refine filter_eq_nil_iff.mpr fun e he => ?_
    simpa using h e he
  have hnew : ∀ ts, (lotIssuesOf lineId date ts).filter (·.lineId == lineId) =
      lotIssuesOf lineId date ts := by
    simp [lotIssuesOf, filter_map, Function.comp_def]
  simp only [Db.lotsConsumed, Db.addLotEvents, filter_append, hold, hnew, nil_append]
  rw [lotIssuesOf, List.map_map, walkCost]
  refine congrArg List.sum (map_congr_left fun t ht => ?_)
  obtain ⟨l, hl, -, hid, hcost⟩ := lot_of_walk ht
  have hlot : db.lotCost t.id = l.unitCost := by rw [hid, lotCost_of_mem hids hl]
  simp only [Function.comp_apply, neg_neg, hcost]
  exact congrArg (roundCost t.allocation) hlot

lemma lotsConsumed_append_of_ne (h : i ≠ lineId) :
    (db.addLotEvents (lotIssuesOf lineId date ts)).lotsConsumed i = db.lotsConsumed i := by
  have hnew : (lotIssuesOf lineId date ts).filter (·.lineId == i) = [] := by
    simp [lotIssuesOf, filter_map, Function.comp_def, h.symm]
  simp only [Db.lotsConsumed, Db.addLotEvents, filter_append, hnew, append_nil]
  rfl

/-! ### The chart -/

structure SameChart (v v' : Db) : Prop where
  skus : v'.skus = v.skus
  accounts : ∀ i, (v'.account? i).map (·.static) = (v.account? i).map (·.static)
  ids : v'.accounts.map (·.id) = v.accounts.map (·.id)

lemma SameChart.refl (v : Db) : SameChart v v := ⟨rfl, fun _ => rfl, rfl⟩

lemma SameChart.trans (h : SameChart v v') (h' : SameChart v' v'') : SameChart v v'' :=
  ⟨h'.skus.trans h.skus, fun i => (h'.accounts i).trans (h.accounts i), h'.ids.trans h.ids⟩

lemma skus_apply (w : Write) (db : Db) : (w.apply db).skus = db.skus := by cases w <;> rfl

lemma sameChart_apply (w : Write) (db : Db) : SameChart db (w.apply db) := by
  refine ⟨skus_apply w db, fun i => ?_, ?_⟩
  · rw [account?_apply, Option.map_map]
    rfl
  · rw [accounts_apply, List.map_map]
    rfl

lemma sameChart_applyAll (ws : List Write) (db : Db) : SameChart db (schema.applyAll ws db) := by
  induction ws generalizing db with
  | nil => exact .refl db
  | cons w ws ih => exact (sameChart_apply w db).trans (ih (w.apply db))

def Account.stockIn (skus : List Sku) (a : Account) : Option (Place × CostMethod) :=
  if a.ledger.isValue then
    (stocked? a).bind fun x => (skus.find? (·.id == x.1)).map fun s => (x, s.costMethod)
  else none

def Db.creditStock (db : Db) (i : ℕ) : Option (Place × CostMethod) :=
  (db.account? i).bind (·.stockIn db.skus)

lemma stockIn_static (skus : List Sku) (a : Account) : a.static.stockIn skus = a.stockIn skus := rfl

lemma SameChart.creditStock (h : SameChart v v') (i : ℕ) :
    v'.creditStock i = v.creditStock i := by
  have hbind : ∀ d : Db, d.creditStock i =
      ((d.account? i).map (·.static)).bind (·.stockIn d.skus) := by
    intro d
    rw [Db.creditStock, Option.bind_map]
    rfl
  rw [hbind, hbind, h.accounts i, h.skus]

/-! ### Lines and what they consumed -/

def Reason.isIssue : Reason → Bool
  | .opMove | .scrap | .woComplete | .soShip | .rmIssueToWo => true
  | _ => false

structure Matches (db : Db) (l : PostingLine) : Prop where
  layers : ∀ x, db.creditStock l.creditAccountId = some (x, .fifo) →
    l.amount = db.layersConsumed l.id
  lots : ∀ x, db.creditStock l.creditAccountId = some (x, .lotFifo) →
    l.amount = db.lotsConsumed l.id

/-- Every issue is posted at the cost of what it consumed. -/
def Consumed (db : Db) : Prop := ∀ l ∈ db.lines, l.reason.isIssue = true → Matches db l

structure Quote (v : Db) (e : Event) (amount : ℤ) : Prop where
  layers : ∀ x, v.creditStock e.creditAccountId = some (x, .fifo) →
    ∃ q, e.qty = some q ∧ amount = walkCost (walkLoop (v.layerCandidates x.1 x.2) |q|).1
  lots : ∀ x, v.creditStock e.creditAccountId = some (x, .lotFifo) →
    ∃ q, e.qty = some q ∧ amount = walkCost (walkLoop (v.lotCandidates x.1 x.2 e.lotId) |q|).1

lemma lotCandidates_congr (pin : Option ℕ) (hskus : db'.skus = db.skus)
    (h : db'.stockOf x = db.stockOf x) :
    db'.lotCandidates x.1 x.2 pin = db.lotCandidates x.1 x.2 pin := by
  -- The residual is a function of the lot on each side, and the two agree on the lots of the place.
  have hlots := congrArg Stock.lots h
  simp only [Db.stockOf] at hlots
  have hfst := congrArg (List.map Prod.fst) hlots
  simp only [List.map_map, Function.comp_def, List.map_id'] at hfst
  have hsku : db'.sku? x.1 = db.sku? x.1 := by rw [Db.sku?, Db.sku?, hskus]
  have horder : db'.lotOrder x.1 pin = db.lotOrder x.1 pin := by
    rw [Db.lotOrder, Db.lotOrder, hsku]
  have hres : ∀ l ∈ db.lots.filter fun l => l.productId == x.1 && l.locationId == x.2,
      db'.lotResidual l = db.lotResidual l := by
    rw [hfst] at hlots
    intro l hl
    exact (Prod.ext_iff.mp (map_inj_left.mp hlots l hl)).2
  have hsplit : ∀ d : Db, (d.lots.filter fun l => l.productId == x.1 && l.locationId == x.2 &&
      (pin.isNone || pin == some l.id)) =
      (d.lots.filter fun l => l.productId == x.1 && l.locationId == x.2).filter
        fun l => pin.isNone || pin == some l.id := by
    intro d
    rw [List.filter_filter]
    exact filter_congr fun l _ => Bool.and_comm _ _
  rw [Db.lotCandidates, Db.lotCandidates, hsplit, hsplit, hfst, horder]
  refine map_congr_left fun l hl => ?_
  rw [mem_insertionSort] at hl
  rw [hres l (mem_of_mem_filter hl)]

def Db.walked (db : Db) (e : Event) : Option Place :=
  match db.creditStock e.creditAccountId with
  | some (x, .fifo) | some (x, .lotFifo) => some x
  | _ => none

lemma Quote.of_same (h : Quote v e amount) (hchart : SameChart v v')
    (hstock : ∀ x ∈ v.walked e, v'.stockOf x = v.stockOf x) :
    Quote v' e amount where
  layers x hx := by
    rw [hchart.creditStock] at hx
    obtain ⟨q, hq, hamount⟩ := h.layers x hx
    have hsame := hstock x (by simp [Db.walked, hx])
    exact ⟨q, hq, by rw [layerCandidates_congr hsame, hamount]⟩
  lots x hx := by
    rw [hchart.creditStock] at hx
    obtain ⟨q, hq, hamount⟩ := h.lots x hx
    have hsame := hstock x (by simp [Db.walked, hx])
    exact ⟨q, hq, by rw [lotCandidates_congr e.lotId hchart.skus hsame, hamount]⟩

/-! ### What a block does -/

/-- From `v` to `v'` for line `lineId`: no line is added, only the stock of these places changes,
and only what this line consumed. -/
structure BlockDone (lineId : ℕ) (places : List Place) (n : ℕ) (v : Db) (n' : ℕ) (v' : Db) :
    Prop where
  chart : SameChart v v'
  lines : v'.lines = v.lines
  stock : ∀ x ∉ places, v'.stockOf x = v.stockOf x
  fresh : Fresh n' v'
  le : n ≤ n'
  layers : ∀ i ≠ lineId, v'.layersConsumed i = v.layersConsumed i
  lots : ∀ i ≠ lineId, v'.lotsConsumed i = v.lotsConsumed i

variable {n' n'' : ℕ} {places places' : List Place}

lemma BlockDone.refl (h : Fresh n v) : BlockDone lineId [] n v n v where
  chart := .refl v
  lines := rfl
  stock _ _ := rfl
  fresh := h
  le := le_rfl
  layers _ _ := rfl
  lots _ _ := rfl

lemma BlockDone.trans (h : BlockDone lineId places n v n' v')
    (h' : BlockDone lineId places' n' v' n'' v'') :
    BlockDone lineId (places ++ places') n v n'' v'' where
  chart := h.chart.trans h'.chart
  lines := h'.lines.trans h.lines
  stock x hx := by
    rw [mem_append, not_or] at hx
    exact (h'.stock x hx.2).trans (h.stock x hx.1)
  fresh := h'.fresh
  le := h.le.trans h'.le
  layers i hi := (h'.layers i hi).trans (h.layers i hi)
  lots i hi := (h'.lots i hi).trans (h.lots i hi)

lemma ids_append {α : Type} {id : α → ℕ} {ls : List α} {l : α} (h : (ls.map id).Nodup)
    (hlt : ∀ y ∈ ls, id y < n) (hid : id l = n) :
    ((ls ++ [l]).map id).Nodup ∧ ∀ y ∈ ls ++ [l], id y < n + 1 := by
  constructor
  · rw [map_append, nodup_append]
    refine ⟨h, by simp, ?_⟩
    rintro _ ha _ hb
    obtain ⟨y, hy, rfl⟩ := List.mem_map.mp ha
    have hold := hlt y hy
    simp only [map_cons, map_nil, mem_singleton] at hb
    omega
  · intro y hy
    rcases mem_append.mp hy with hy | hy
    · exact Nat.lt_succ_of_lt (hlt y hy)
    · rw [mem_singleton.mp hy, hid]
      exact Nat.lt_succ_self n

lemma BlockDone.layer {l : CostLayer} (h : Fresh n v) (hid : l.id = n) (hx : l.place = x) :
    BlockDone lineId [x] n v (n + 1) (Write.apply (.layer l) v) where
  chart := sameChart_apply _ v
  lines := rfl
  stock y hy := stockOf_apply (w := .layer l) fun hl => hy (by simp [← hx, hl])
  fresh := by
    obtain ⟨hnodup, hlt⟩ := ids_append h.layers h.layer_lt hid
    exact { h.succ with layers := hnodup, layer_lt := hlt }
  le := Nat.le_succ n
  layers _ _ := rfl
  lots _ _ := rfl

lemma lotCost_append (h : i ≠ l.id) :
    (Write.apply (.lot l) db).lotCost i = db.lotCost i := by
  have hl : (l.id == i) = false := by simpa using h.symm
  simp [Db.lotCost, Write.apply, List.find?_append, hl]

lemma BlockDone.lot (h : Fresh n v) (hid : l.id = n) (hx : l.place = x) :
    BlockDone lineId [x] n v (n + 1) (Write.apply (.lot l) v) where
  chart := sameChart_apply _ v
  lines := rfl
  stock y hy := stockOf_apply (w := .lot l) fun hl => hy (by simp [← hx, hl])
  fresh := by
    obtain ⟨hnodup, hlt⟩ := ids_append h.lots h.lot_lt hid
    exact { h.succ with lots := hnodup, lot_lt := hlt }
  le := Nat.le_succ n
  layers _ _ := rfl
  lots i _ := by
    -- The events are of older lots.
    refine congrArg List.sum (map_congr_left fun e he => ?_)
    have hlt := h.lotEvent_lot_lt e (mem_of_mem_filter he)
    rw [lotCost_append (by omega)]

lemma BlockDone.depletions (h : Fresh n v) (hline : lineId < n) :
    BlockDone lineId [x] n v n (v.addDepletions
      (depletionsOf lineId date (walkLoop (v.layerCandidates x.1 x.2) q).1)) where
  chart := ⟨rfl, fun _ => rfl, rfl⟩
  lines := rfl
  stock y hy := by
    refine stockOf_congr rfl rfl (fun l hl hly => ?_) fun _ _ _ => rfl
    -- A layer of another place is not one the walk took from.
    have hnone : (depletionsOf lineId date
        (walkLoop (v.layerCandidates x.1 x.2) q).1).filter (·.layerId == l.id) = [] := by
      refine filter_eq_nil_iff.mpr fun d hd hid => ?_
      obtain ⟨t, ht, rfl⟩ := List.mem_map.mp hd
      obtain ⟨l', hl', hplace, hid'⟩ := layer_of_walk ht
      have hsame := inj_on_of_nodup_map h.layers hl' hl (hid'.symm.trans (beq_iff_eq.mp hid))
      rw [hsame] at hplace
      exact hy (by simp [← hly, hplace])
    simp [Db.layerResidual, Db.addDepletions, filter_append, hnone]
  fresh := by
    refine { h with depletion_lt := fun d hd => ?_ }
    rcases mem_append.mp hd with hd | hd
    · exact h.depletion_lt d hd
    · obtain ⟨t, -, rfl⟩ := List.mem_map.mp hd
      exact hline
  le := le_rfl
  layers i hi := layersConsumed_append_of_ne hi
  lots _ _ := rfl

lemma BlockDone.lotEvents (h : Fresh n v) (hline : lineId < n) :
    BlockDone lineId [x] n v n (v.addLotEvents
      (lotIssuesOf lineId date (walkLoop (v.lotCandidates x.1 x.2 pin) q).1)) where
  chart := ⟨rfl, fun _ => rfl, rfl⟩
  lines := rfl
  stock y hy := by
    refine stockOf_congr rfl rfl (fun _ _ _ => rfl) fun l hl hly => ?_
    have hnone : (lotIssuesOf lineId date
        (walkLoop (v.lotCandidates x.1 x.2 pin) q).1).filter (·.lotId == l.id) = [] := by
      refine filter_eq_nil_iff.mpr fun d hd hid => ?_
      obtain ⟨t, ht, rfl⟩ := List.mem_map.mp hd
      obtain ⟨l', hl', hplace, hid', -⟩ := lot_of_walk ht
      have hsame := inj_on_of_nodup_map h.lots hl' hl (hid'.symm.trans (beq_iff_eq.mp hid))
      rw [hsame] at hplace
      exact hy (by simp [← hly, hplace])
    simp [Db.lotResidual, Db.addLotEvents, filter_append, hnone]
  fresh := by
    refine { h with lotEvent_lt := fun e he => ?_, lotEvent_lot_lt := fun e he => ?_ }
    · rcases mem_append.mp he with he | he
      · exact h.lotEvent_lt e he
      · obtain ⟨t, -, rfl⟩ := List.mem_map.mp he
        exact hline
    · rcases mem_append.mp he with he | he
      · exact h.lotEvent_lot_lt e he
      · obtain ⟨t, ht, rfl⟩ := List.mem_map.mp he
        obtain ⟨l, hl, -, hid, -⟩ := lot_of_walk ht
        rw [hid]
        exact h.lot_lt l hl
  le := le_rfl
  layers _ _ := rfl
  lots i hi := lotsConsumed_append_of_ne hi

/-! ### The blocks, run alone -/

def placesOf (d c : Account) : List Place := (stocked? d).toList ++ (stocked? c).toList

lemma receiptUnitCost_post :
    (receiptUnitCost amount qty d).Post schema n v fun _ n' v' => n' = n ∧ v' = v := by
  unfold receiptUnitCost
  split
  · exact ends_pure ⟨rfl, rfl⟩
  · exact ends_raise

lemma fifoReceive_post (h : Fresh n v) :
    (fifoReceive e lineId amount qty d).Post schema n v fun _ n' v' =>
      BlockDone lineId (stocked? d).toList n v n' v' ∧ v'.depletions = v.depletions := by
  unfold fifoReceive
  split
  next hd =>
    rw [hd]
    exact ends_pure ⟨.refl h, rfl⟩
  next p l hd =>
    rw [hd]
    refine receiptUnitCost_post.bind ?_
    rintro u _ _ ⟨rfl, rfl⟩
    exact ends_bind (ends_nextval (ends_exec fun _ => ⟨.layer h rfl rfl, rfl⟩))

/-- The FIFO block: what the line consumed is what a walk over the place costs, if the line does not
bring stock to that place as well. -/
lemma fifoBlock_post (h : Fresh n v) (hline : lineId < n)
    (hnew : ∀ x ∈ v.depletions, x.lineId ≠ lineId) :
    (fifoBlock e lineId amount qty d c).Post schema n v fun _ n' v' =>
      BlockDone lineId (placesOf d c) n v n' v' ∧
      ∀ x, stocked? c = some x → stocked? d ≠ some x →
        v'.layersConsumed lineId = walkCost (walkLoop (v.layerCandidates x.1 x.2) |qty|).1 := by
  refine (fifoReceive_post h).bind ?_
  rintro _ n1 v1 ⟨h1, hdep⟩
  unfold fifoIssue
  split
  next hc =>
    refine ends_pure ⟨?_, by simp [hc]⟩
    simpa [placesOf, hc] using h1
  next p l hc =>
    refine (fifoWriteDepletions_ends (x := (p, l))).mono ?_
    rintro _ _ _ ⟨rfl, -, rfl⟩
    refine ⟨?_, fun x hx hne => ?_⟩
    · rw [placesOf, hc]
      exact h1.trans (.depletions h1.fresh (hline.trans_le h1.le))
    · obtain rfl : (p, l) = x := Option.some.inj (hc.symm.trans hx)
      have hsame : v1.stockOf (p, l) = v.stockOf (p, l) :=
        h1.stock _ (by simpa [Option.mem_toList] using hne)
      rw [layersConsumed_append (by rwa [hdep]), layerCandidates_congr hsame]

lemma lotCreateFromEvent_post {p l : ℕ} {u : ℤ} (h : Fresh n v) :
    (lotCreateFromEvent e idx lineId p l q u).Post schema n v fun _ n' v' =>
      BlockDone lineId [(p, l)] n v n' v' ∧ v'.lotEvents = v.lotEvents := by
  unfold lotCreateFromEvent
  split
  · exact ends_raise
  · refine ends_bind (ends_ensure fun _ => ends_bind (ends_nextval ?_))
    exact ends_bind (ends_exec fun _ => ends_pure ⟨.lot h rfl rfl, rfl⟩)

lemma BlockDone.isUnit (h : Fresh n v) (hw : w.IsUnit) :
    BlockDone lineId [] n v n (w.apply v) ∧ (w.apply v).lotEvents = v.lotEvents := by
  cases w with
  | unit u | unitEvent e => exact ⟨⟨sameChart_apply _ v, rfl, fun _ _ => rfl,
      ⟨h.layers, h.lots, h.layer_lt, h.lot_lt, h.line_lt, h.depletion_lt, h.lotEvent_lt,
        h.lotEvent_lot_lt⟩, le_rfl, fun _ _ => rfl, fun _ _ => rfl⟩, rfl⟩
  | _ => cases hw

lemma units_post {α : Type} {p : Tx α} (hp : p.Only Write.IsUnit) (lineId : ℕ) (h : Fresh n v) :
    p.Post schema n v fun _ n' v' =>
      BlockDone lineId [] n v n' v' ∧ v'.lotEvents = v.lotEvents := by
  refine hp.post (H := fun m u => BlockDone lineId [] n v m u ∧ u.lotEvents = v.lotEvents)
    ?_ ?_ ⟨.refl h, rfl⟩
  · rintro w m u hw ⟨hu, hev⟩
    obtain ⟨hdone, hsame⟩ := BlockDone.isUnit hu.fresh hw
    exact ⟨hu.trans hdone, hsame.trans hev⟩
  · rintro m u ⟨hu, hev⟩
    exact ⟨{ hu with fresh := hu.fresh.succ, le := hu.le.trans (Nat.le_succ m) }, hev⟩

lemma lotReceive_post (h : Fresh n v) :
    (lotReceive e idx lineId amount qty t d).Post schema n v fun _ n' v' =>
      BlockDone lineId (stocked? d).toList n v n' v' ∧ v'.lotEvents = v.lotEvents := by
  unfold lotReceive
  split
  next hd =>
    rw [hd]
    exact ends_pure ⟨.refl h, rfl⟩
  next p l hd =>
    rw [hd]
    refine receiptUnitCost_post.bind ?_
    rintro u _ _ ⟨rfl, rfl⟩
    refine (lotCreateFromEvent_post h).bind ?_
    rintro _ n1 v1 ⟨h1, hev1⟩
    refine (units_post (receiveUnits_only _ _ _ _ _ _ _ _ _) lineId h1.fresh).mono ?_
    rintro _ n2 v2 ⟨h2, hev2⟩
    exact ⟨by simpa using h1.trans h2, hev2.trans hev1⟩

lemma lotBlock_post (h : Fresh n v) (hline : lineId < n)
    (hnew : ∀ x ∈ v.lotEvents, x.lineId ≠ lineId) :
    (lotBlock e idx lineId amount qty t d c).Post schema n v fun _ n' v' =>
      BlockDone lineId (placesOf d c) n v n' v' ∧
      ∀ x, stocked? c = some x → stocked? d ≠ some x →
        v'.lotsConsumed lineId =
          walkCost (walkLoop (v.lotCandidates x.1 x.2 e.lotId) |qty|).1 := by
  refine ends_bind (ends_ensure fun _ => ?_)
  refine (lotReceive_post h).bind ?_
  rintro _ n1 v1 ⟨h1, hev⟩
  unfold lotIssue
  split
  next hc =>
    refine ends_pure ⟨?_, by simp [hc]⟩
    simpa [placesOf, hc] using h1
  next p l hc =>
    refine (lotWriteIssues_post (x := (p, l))).mono ?_
    rintro _ _ _ ⟨rfl, -, rfl⟩
    refine ⟨?_, fun x hx hne => ?_⟩
    · rw [placesOf, hc]
      exact h1.trans (.lotEvents h1.fresh (hline.trans_le h1.le))
    · obtain rfl : (p, l) = x := Option.some.inj (hc.symm.trans hx)
      have hsame : v1.stockOf (p, l) = v.stockOf (p, l) :=
        h1.stock _ (by simpa [Option.mem_toList] using hne)
      rw [lotsConsumed_append h1.fresh.lots (by rwa [hev]),
        lotCandidates_congr e.lotId h1.chart.skus hsame]

lemma BlockDone.mono (h : BlockDone lineId places n v n' v') (hsub : places ⊆ places') :
    BlockDone lineId places' n v n' v' :=
  { h with stock := fun x hx => h.stock x fun hx' => hx (hsub hx') }

/-- The place of a stocked account is its product and location, and its product prices the event. -/
lemma stocked?_eq_some (h : stocked? a = some x) :
    a.skuId = some x.1 ∧ a.locationId = some x.2 := by
  unfold stocked? at h
  split at h
  · split at h
    next sku location hs hl =>
      cases h
      exact ⟨hs, hl⟩
    next => cases h
  · cases h

lemma stockIn_eq_some {skus : List Sku} {m : CostMethod} (h : a.stockIn skus = some (x, m)) :
    a.ledger.isValue = true ∧ stocked? a = some x ∧
      ∃ s, skus.find? (·.id == x.1) = some s ∧ s.costMethod = m := by
  unfold Account.stockIn at h
  split at h
  next hv =>
    obtain ⟨y, hy, hmap⟩ := Option.bind_eq_some_iff.mp h
    obtain ⟨s, hfind, heq⟩ := Option.map_eq_some_iff.mp hmap
    cases heq
    exact ⟨hv, hy, s, hfind, rfl⟩
  next => cases h

lemma costSku_of_stocked (h : stocked? c = some x) :
    costSku (some d) (some c) = some x.1 := by
  simp [costSku, (stocked?_eq_some h).1]

/-- What the blocks of a line leave: the line has consumed what a walk over its place costs, unless
it brought stock there itself. -/
structure BlocksDone (e : Event) (lineId : ℕ) (qty : Option ℤ) (d c : Account) (n : ℕ) (v : Db)
    (n' : ℕ) (v' : Db) : Prop where
  done : BlockDone lineId (placesOf d c) n v n' v'
  layers : ∀ x q, qty = some q → c.stockIn v.skus = some (x, .fifo) → stocked? d ≠ some x →
    v'.layersConsumed lineId = walkCost (walkLoop (v.layerCandidates x.1 x.2) |q|).1
  lots : ∀ x q, qty = some q → e.reason ≠ .lotTransfer → c.stockIn v.skus = some (x, .lotFifo) →
    stocked? d ≠ some x →
    v'.lotsConsumed lineId = walkCost (walkLoop (v.lotCandidates x.1 x.2 e.lotId) |q|).1

lemma stockBlocks_post {qty : Option ℤ} (h : Fresh n v) (hline : lineId < n)
    (hdep : ∀ x ∈ v.depletions, x.lineId ≠ lineId) (hev : ∀ x ∈ v.lotEvents, x.lineId ≠ lineId) :
    (stockBlocks e idx lineId amount qty d c).Post schema n v fun _ n' v' =>
      BlocksDone e lineId qty d c n v n' v' := by
  have hnone : BlockDone lineId (placesOf d c) n v n v := (BlockDone.refl h).mono (by simp)
  unfold stockBlocks
  split
  next q sku hsku =>
    refine ends_bind (inventoryRow_ends fun hqty => ends_bind (ends_query ?_))
    cases hrow : v.sku? sku with
    | none =>
      -- The credited product, if any, is the one looked up.
      refine ends_pure ⟨hnone, fun x q' _ hx _ => ?_, fun x q' _ _ hx _ => ?_⟩
      all_goals
        obtain ⟨-, hx, s, hs, -⟩ := stockIn_eq_some hx
        rw [costSku_of_stocked hx] at hsku
        rw [Db.sku?, ← Option.some.inj hsku, hs] at hrow
        cases hrow
    | some s =>
      have hsku' : ∀ x m, c.stockIn v.skus = some (x, m) →
          stocked? c = some x ∧ s.costMethod = m := by
        intro x m hx
        obtain ⟨-, hx, s', hs', hm⟩ := stockIn_eq_some hx
        rw [costSku_of_stocked hx] at hsku
        rw [Db.sku?, ← Option.some.inj hsku, hs'] at hrow
        exact ⟨hx, by rw [← Option.some.inj hrow, hm]⟩
      show (blocksFor e idx lineId amount q d c s).Post schema n v _
      unfold blocksFor
      split
      next hq => exact absurd hq hqty
      next =>
        split
        next hfifo =>
          refine (fifoBlock_post h hline hdep).mono ?_
          rintro _ n' v' ⟨hdone, hcost⟩
          refine ⟨hdone, fun x q' hq' hx hne => ?_, fun x q' _ _ hx _ => ?_⟩
          · obtain ⟨hx, -⟩ := hsku' x _ hx
            rw [← Option.some.inj hq']
            exact hcost x hx hne
          · have hm := (hsku' x _ hx).2
            rw [hfifo] at hm
            cases hm
        next hfifo =>
          split
          next hlot =>
            refine (lotBlock_post h hline hev).mono ?_
            rintro _ n' v' ⟨hdone, hcost⟩
            refine ⟨hdone, fun x q' _ hx => absurd (hsku' x _ hx).2 hfifo,
              fun x q' hq' _ hx hne => ?_⟩
            obtain ⟨hx, -⟩ := hsku' x _ hx
            rw [← Option.some.inj hq']
            exact hcost x hx hne
          next hlot =>
            exact ends_pure ⟨hnone, fun x q' _ hx => absurd (hsku' x _ hx).2 hfifo,
              fun x q' _ hr hx => absurd ⟨(hsku' x _ hx).2, hr⟩ hlot⟩
  next hno =>
    refine ends_pure ⟨hnone, fun x q hq hx _ => ?_, fun x q hq _ hx _ => ?_⟩
    · exact absurd (costSku_of_stocked (stockIn_eq_some hx).2.1) (hno q x.1 hq)
    · exact absurd (costSku_of_stocked (stockIn_eq_some hx).2.1) (hno q x.1 hq)

/-! ### Posting an event -/

lemma Fresh.mono (h : Fresh n v) (hle : n ≤ n') : Fresh n' v := by
  induction hle with
  | refl => exact h
  | step _ ih => exact ih.succ

/-- What posting keeps: the stock of other places, fresh ids, and that issues cost what they
consumed. -/
structure Stepped (places : List Place) (v : Db) (n' : ℕ) (v' : Db) : Prop where
  chart : SameChart v v'
  stock : ∀ x ∉ places, v'.stockOf x = v.stockOf x
  fresh : Fresh n' v'
  consumed : Consumed v'

structure Lined (e : Event) (amount : ℤ) (d c : Account) (n : ℕ) (v : Db) (n' : ℕ) (v' : Db) :
    Prop where
  chart : SameChart v v'
  layers : v'.layers = v.layers
  lots : v'.lots = v.lots
  depletions : v'.depletions = v.depletions
  lotEvents : v'.lotEvents = v.lotEvents
  lt : n < n'
  lines : ∃ periodId, v'.lines =
    v.lines ++ [e.toLine n amount (qtyForRow e amount d c) d c periodId]

namespace Lined

section

variable (h : Lined e amount d c n v n' v')
include h

lemma stockOf (x : Place) : v'.stockOf x = v.stockOf x := by
  simp only [Db.stockOf, Db.layerResidual, Db.lotResidual, h.layers, h.lots, h.depletions,
    h.lotEvents]

lemma layersConsumed (i : ℕ) :
    v'.layersConsumed i = v.layersConsumed i := by
  rw [Db.layersConsumed, h.depletions, Db.layersConsumed]

lemma lotsConsumed (i : ℕ) :
    v'.lotsConsumed i = v.lotsConsumed i := by
  simp only [Db.lotsConsumed, Db.lotCost, h.lotEvents, h.lots]

lemma fresh (hv : Fresh n v) : Fresh n' v' := by
  have hv' := hv.mono h.lt.le
  obtain ⟨periodId, hlines⟩ := h.lines
  refine ⟨?_, ?_, ?_, ?_, ?_, ?_, ?_, ?_⟩
  · rw [h.layers]
    exact hv'.layers
  · rw [h.lots]
    exact hv'.lots
  · rw [h.layers]
    exact hv'.layer_lt
  · rw [h.lots]
    exact hv'.lot_lt
  · intro l hl
    rw [hlines] at hl
    rcases mem_append.mp hl with hl | hl
    · exact hv'.line_lt l hl
    · rw [mem_singleton.mp hl]
      exact h.lt
  · rw [h.depletions]
    exact hv'.depletion_lt
  · rw [h.lotEvents]
    exact hv'.lotEvent_lt
  · rw [h.lotEvents]
    exact hv'.lotEvent_lot_lt

end

end Lined

lemma Stepped.of_blocks {n1 : ℕ} {v1 : Db} (hv : Fresh n v) (hcons : Consumed v)
    (hid : c.id = e.creditAccountId) (hacct : v.creditStock c.id = c.stockIn v.skus)
    (hne : e.reason.isIssue = true → ∀ x, stocked? c = some x → stocked? d ≠ some x)
    (hquote : e.reason.isIssue = true → Quote v e amount) (hl : Lined e amount d c n v n1 v1)
    (hb : BlocksDone e n (qtyForRow e amount d c) d c n1 v1 n' v') :
    Stepped (placesOf d c) v n' v' where
  chart := hl.chart.trans hb.done.chart
  stock x hx := (hb.done.stock x hx).trans (hl.stockOf x)
  fresh := hb.done.fresh
  consumed := by
    obtain ⟨periodId, hlines⟩ := hl.lines
    have hchart := hl.chart.trans hb.done.chart
    intro l hmem hissue
    rw [hb.done.lines, hlines] at hmem
    rcases mem_append.mp hmem with hmem | hmem
    · -- An older line: nothing it consumed has changed.
      have hne : l.id ≠ n := (hv.line_lt l hmem).ne
      have hold := hcons l hmem hissue
      refine ⟨fun x hx => ?_, fun x hx => ?_⟩
      · rw [hchart.creditStock] at hx
        rw [hb.done.layers l.id hne, hl.layersConsumed, hold.layers x hx]
      · rw [hchart.creditStock] at hx
        rw [hb.done.lots l.id hne, hl.lotsConsumed, hold.lots x hx]
    · -- The line just posted, at its quote.
      obtain rfl := mem_singleton.mp hmem
      have hq := hquote hissue
      have htransfer : e.reason ≠ .lotTransfer := by
        intro hr
        have hissue' : e.reason.isIssue = true := hissue
        rw [hr] at hissue'
        cases hissue'
      have hskus : v1.skus = v.skus := hl.chart.skus
      refine ⟨fun x hx => ?_, fun x hx => ?_⟩
      · have hx' : v.creditStock c.id = some (x, .fifo) := (hchart.creditStock c.id).symm.trans hx
        obtain ⟨q, hqty, hamount⟩ := hq.layers x (hid ▸ hx')
        have hrow : qtyForRow e amount d c = some q := by simp [qtyForRow, hqty]
        have hstock : c.stockIn v1.skus = some (x, .fifo) := by rw [hskus, ← hacct, hx']
        have hcost := hb.layers x q hrow hstock (hne hissue x (stockIn_eq_some hstock).2.1)
        rw [layerCandidates_congr (hl.stockOf x)] at hcost
        exact hamount.trans hcost.symm
      · have hx' : v.creditStock c.id = some (x, .lotFifo) :=
          (hchart.creditStock c.id).symm.trans hx
        obtain ⟨q, hqty, hamount⟩ := hq.lots x (hid ▸ hx')
        have hrow : qtyForRow e amount d c = some q := by simp [qtyForRow, hqty]
        have hstock : c.stockIn v1.skus = some (x, .lotFifo) := by rw [hskus, ← hacct, hx']
        have hcost := hb.lots x q hrow htransfer hstock
          (hne hissue x (stockIn_eq_some hstock).2.1)
        rw [lotCandidates_congr e.lotId hskus (hl.stockOf x)] at hcost
        exact hamount.trans hcost.symm

lemma quote_of_not_isValue (hid : c.id = e.creditAccountId)
    (hacct : v.creditStock c.id = c.stockIn v.skus) (hc : c.ledger.isValue = false) :
    Quote v e amount := by
  have hnone : v.creditStock e.creditAccountId = none := by
    rw [← hid, hacct, Account.stockIn, hc]
    rfl
  exact ⟨fun x hx => by simp [hnone] at hx, fun x hx => by simp [hnone] at hx⟩

lemma flags_post {p : Tx Unit} (hp : p.Only fun w => ∃ f, w = .flag f) :
    p.Post schema n v fun _ n' v' => n ≤ n' ∧ ∃ ps, v' = { v with provisional := ps } := by
  refine hp.post (H := fun m u => n ≤ m ∧ ∃ ps, u = { v with provisional := ps }) ?_ ?_
    ⟨le_rfl, v.provisional, rfl⟩
  · rintro w m u ⟨f, rfl⟩ ⟨hle, ps, hu⟩
    subst hu
    exact ⟨hle, ps ++ [f], rfl⟩
  · rintro m u ⟨hle, hu⟩
    exact ⟨hle.trans (Nat.le_succ m), hu⟩

/-- Posting an event at a good quote. An issue is between accounts of different places. -/
theorem applyChecked_stepped {m : Option CostMethod} {override : Bool} (hv : Fresh n v)
    (hcons : Consumed v) (hid : c.id = e.creditAccountId)
    (hacct : v.creditStock c.id = c.stockIn v.skus)
    (hne : e.reason.isIssue = true → ∀ x, stocked? c = some x → stocked? d ≠ some x)
    (hquote : e.reason.isIssue = true → d.ledger.isValue = true → Quote v e amount) :
    (applyChecked e idx amount d c m override).Post schema n v fun _ n' v' =>
      Stepped (placesOf d c) v n' v' := by
  refine ends_bind (ends_ensure fun hledger => ends_bind (ends_ensure fun _ => ?_))
  refine ends_bind (ends_bind (ends_fetch fun p _ => ends_bind (ends_ensure fun _ => ends_pure ?_)))
  refine ends_bind (ends_exec fun _ => ends_bind (ends_exec fun _ => ?_))
  refine ends_bind (ends_nextval (ends_bind (ends_exec fun _ => ?_)))
  refine (flags_post (flagProvisional_only (fun f => ⟨f, rfl⟩) _ _ _ _ _ _)).bind ?_
  rintro _ n1 v1 ⟨hle, ps, hv1⟩
  have hl : Lined e amount d c n v n1 v1 := by
    subst hv1
    have hchart := (sameChart_apply (.debit d.id amount) v).trans
      (sameChart_apply (.credit c.id amount) _)
    exact ⟨⟨hchart.skus, hchart.accounts, hchart.ids⟩, rfl, rfl, rfl, rfl, hle, p.id, rfl⟩
  refine ends_bind (ends_fetch fun _ _ => ?_)
  refine (stockBlocks_post (hl.fresh hv) hl.lt ?_ ?_).bind ?_
  · rw [hl.depletions]
    exact fun x hx => (hv.depletion_lt x hx).ne
  · rw [hl.lotEvents]
    exact fun x hx => (hv.lotEvent_lt x hx).ne
  · refine fun _ n2 v2 hb => ends_pure (.of_blocks hv hcons hid hacct hne (fun hissue => ?_) hl hb)
    cases hc : c.ledger.isValue with
    | true => exact hquote hissue (hledger.trans hc)
    | false => exact quote_of_not_isValue hid hacct hc

end Acct.Main
