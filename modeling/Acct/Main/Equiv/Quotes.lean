import Acct.Main.Equiv.Consumed
import Acct.Main.Equiv.Posting

/-!
# Quotes in batches

A batch of one pass prices each event when it posts it; a batch of two passes prices all of them
first, and the lines of a work-order issue are priced before their batch is even built. A price made
early is good if no event before it in the batch touches its place (`Ready`).
-/

namespace Acct.Main

open Isolation Prog List Option

variable {n n' n'' idx : ℕ} {v v' v'' : Db} {places places' : List Place} {m : CostMethod}
  {d : Option Account} {e : Event} {a : Option ℤ} {override : Bool} {x : Place} {es : List Event}

/-! ### Steps one after the other -/

lemma Stepped.refl (hv : Fresh n v) (hc : Consumed v) : Stepped [] v n v where
  chart := .refl v
  stock _ _ := rfl
  fresh := hv
  consumed := hc

lemma Stepped.trans (h : Stepped places v n' v') (h' : Stepped places' v' n'' v'') :
    Stepped (places ++ places') v n'' v'' where
  chart := h.chart.trans h'.chart
  stock x hx := by
    rw [mem_append, not_or] at hx
    exact (h'.stock x hx.2).trans (h.stock x hx.1)
  fresh := h'.fresh
  consumed := h'.consumed

lemma Stepped.mono (h : Stepped places v n' v') (hsub : places ⊆ places') :
    Stepped places' v n' v' :=
  { h with stock := fun x hx => h.stock x fun hx' => hx (hsub hx') }

/-! ### The places of an event -/

def Db.placeOf (db : Db) (i : ℕ) : Option Place := (db.account? i).bind stocked?

def Db.touched (db : Db) (e : Event) : List Place :=
  (db.placeOf e.debitAccountId).toList ++ (db.placeOf e.creditAccountId).toList

def Db.Apart (db : Db) (e : Event) : Prop :=
  ∀ x ∈ db.placeOf e.creditAccountId, db.placeOf e.debitAccountId ≠ some x
  deriving Decidable

def Db.Clear (db : Db) (e e' : Event) : Prop := ∀ x ∈ db.walked e', x ∉ db.touched e
  deriving Decidable

namespace SameChart

section

variable (h : SameChart v v')
include h

lemma placeOf (i : ℕ) : v'.placeOf i = v.placeOf i := by
  have hbind : ∀ d : Db, d.placeOf i = ((d.account? i).map (·.static)).bind stocked? := by
    intro d
    rw [Db.placeOf, Option.bind_map]
    rfl
  rw [hbind, hbind, h.accounts i]

lemma touched (e : Event) : v'.touched e = v.touched e := by
  rw [Db.touched, Db.touched, h.placeOf, h.placeOf]

lemma walked (e : Event) : v'.walked e = v.walked e := by
  rw [Db.walked, Db.walked, h.creditStock]

lemma apart_iff (e : Event) : v'.Apart e ↔ v.Apart e := by
  rw [Db.Apart, Db.Apart, h.placeOf, h.placeOf]

lemma clear_iff (e e' : Event) : v'.Clear e e' ↔ v.Clear e e' := by
  rw [Db.Clear, Db.Clear, h.walked, h.touched]

lemma isValue (i : ℕ) : isValue (v'.account? i) = isValue (v.account? i) := by
  have hany : ∀ d : Db, Main.isValue (d.account? i) =
      ((d.account? i).map (·.static)).any (·.ledger.isValue) := by
    intro d
    rw [Option.any_map]
    rfl
  rw [hany, hany, h.accounts i]

end

end SameChart

/-! ### One event -/

def Quoted (v : Db) (e : Event) (a : Option ℤ) : Prop :=
  isValue (v.account? e.debitAccountId) = true → ∀ amount, a = some amount → Quote v e amount

lemma applyEvent_stepped {m : Option CostMethod} (hv : Fresh n v) (hcons : Consumed v)
    (hapart : e.reason.isIssue = true → v.Apart e)
    (hquote : e.reason.isIssue = true → Quoted v e a) :
    (applyEvent e idx a (v.account? e.debitAccountId) (v.account? e.creditAccountId) m
      override).Post schema n v fun _ n' v' => Stepped (v.touched e) v n' v' := by
  refine ends_bind (ends_ensure fun _ => ?_)
  split
  next d c amount hd hc =>
    have hid : c.id = e.creditAccountId := by simpa using List.find?_some hc
    have hacct : v.creditStock c.id = c.stockIn v.skus := by
      rw [hid, Db.creditStock, hc]
      rfl
    have htouched : v.touched e = placesOf d c := by
      rw [Db.touched, Db.placeOf, Db.placeOf, hd, hc]
      rfl
    rw [htouched]
    refine applyChecked_stepped hv hcons hid hacct (fun hissue x hx => ?_) fun hissue hval => ?_
    · have happ := hapart hissue x
      rw [Db.placeOf, Db.placeOf, hd, hc] at happ
      exact happ hx
    · refine hquote hissue ?_ amount rfl
      rw [isValue, hd]
      exact hval
  next => exact ends_raise

/-! ### Pricing -/

lemma creditStock_eq_some {i : ℕ} (h : v.creditStock i = some (x, m)) :
    ∃ c, v.account? i = some c ∧ c.ledger.isValue = true ∧ c.skuId = some x.1 ∧
      c.locationId = some x.2 ∧ (v.sku? x.1).map (·.costMethod) = some m := by
  obtain ⟨c, hc, hstock⟩ := Option.bind_eq_some_iff.mp h
  obtain ⟨hval, hx, s, hs, hm⟩ := stockIn_eq_some hstock
  obtain ⟨hsku, hloc⟩ := stocked?_eq_some hx
  exact ⟨c, hc, hval, hsku, hloc, by rw [Db.sku?, hs, Option.map_some, hm]⟩

/-- The product and location that price a quoted event are those of the account it credits. -/
lemma cost_of_creditStock (d : Option Account) (h : v.creditStock e.creditAccountId = some (x, m)) :
    costSku d (v.account? e.creditAccountId) = some x.1 ∧
      costLocation d (v.account? e.creditAccountId) = some x.2 ∧
      (v.sku? x.1).map (·.costMethod) = some m := by
  obtain ⟨c, hc, -, hsku, hloc, hm⟩ := creditStock_eq_some h
  rw [hc]
  exact ⟨by simp [costSku, hsku], by simp [costLocation, hloc], hm⟩

lemma computeAmountWalkOutbound_post {w : ℕ → ℕ → ℤ → Tx (List Taken)} {cs : List Candidate}
    {c : Option Account} {q : ℤ}
    (hw : (w x.1 x.2 |q|).Post schema n v fun ts _ _ => ts = (walkLoop cs |q|).1)
    (hs : costSku d c = some x.1) (hl : costLocation d c = some x.2) :
    (computeAmountWalkOutbound w idx d c q).Post schema n v fun a _ _ =>
      a = walkCost (walkLoop cs |q|).1 := by
  refine ends_bind (ends_ensure fun _ => ?_)
  rw [hs, hl]
  refine hw.bind ?_
  rintro ts n' v' rfl
  exact ends_pure rfl

lemma computeAmount_quote {sku : ℕ} (hsku : costSku d (v.account? e.creditAccountId) = some sku) :
    (computeAmount e idx d (v.account? e.creditAccountId)
      ((v.sku? sku).map (·.costMethod))).Post schema n v fun a _ _ => Quote v e a := by
  unfold computeAmount
  rw [hsku]
  split
  next q _ hq hs =>
    cases hs
    by_cases hwalk : ∃ x m, (m = .fifo ∨ m = .lotFifo) ∧
        v.creditStock e.creditAccountId = some (x, m)
    · obtain ⟨x, m, hmethod, hx⟩ := hwalk
      obtain ⟨hs, hl, hm⟩ := cost_of_creditStock d hx
      obtain rfl : sku = x.1 := some.inj (hsku.symm.trans hs)
      rw [hm]
      rcases hmethod with rfl | rfl
      all_goals
        refine (computeAmountWalkOutbound_post (Ends.mono walk_ends fun _ _ _ h => h.2.2.2.1)
          hs hl).mono ?_
        rintro a _ _ rfl
        refine ⟨fun y hy => ?_, fun y hy => ?_⟩ <;> cases hx.symm.trans hy
        exact ⟨q, hq, rfl⟩
    · -- No walk prices the event, and there is nothing to quote.
      exact post_of_forall fun a _ _ => ⟨fun x hx => absurd ⟨x, _, .inl rfl, hx⟩ hwalk,
        fun x hx => absurd ⟨x, _, .inr rfl, hx⟩ hwalk⟩
  next => exact ends_raise

lemma priceEvent_quoted :
    (priceEvent e idx (v.account? e.debitAccountId) (v.account? e.creditAccountId)).Post schema
      n v fun p _ _ => Quoted v e p.1 := by
  unfold priceEvent
  split
  next hnone =>
    have hq : ∀ a, Quote v e a := by
      refine fun a => ⟨fun x hx => ?_, fun x hx => ?_⟩
      all_goals
        rw [(cost_of_creditStock _ hx).1] at hnone
        cases hnone
    split
    · exact ends_pure fun _ a _ => hq a
    · exact ends_raise
  next sku hsku =>
    refine ends_bind (ends_query ?_)
    split
    next =>
      refine (computeAmount_quote hsku).bind fun a _ _ ha => ends_pure fun _ amount h => ?_
      cases h
      exact ha
    next hval => exact ends_bind (ends_ensure fun _ => ends_pure fun h => absurd h hval)

/-! ### Passes -/

lemma Quoted.of_same (h : Quoted v e a) (hchart : SameChart v v')
    (hstock : ∀ x ∈ v.walked e, v'.stockOf x = v.stockOf x) : Quoted v' e a := by
  intro hval amount ha
  rw [hchart.isValue] at hval
  exact (h hval amount ha).of_same hchart hstock

/-- Events to post, some of them at amounts fixed before the pass: those of issues are quotes, and
stay so until their turn. -/
structure Ready (v : Db) (items : List (Event × Option (Option ℤ))) : Prop where
  apart : ∀ p ∈ items, p.1.reason.isIssue = true → v.Apart p.1
  quoted : ∀ p ∈ items, p.1.reason.isIssue = true → ∀ a ∈ p.2, Quoted v p.1 a
  order : items.Pairwise fun p p' =>
    p'.1.reason.isIssue = true → p'.2.isSome = true → v.Clear p.1 p'.1

lemma Ready.tail {p : Event × Option (Option ℤ)} {items : List (Event × Option (Option ℤ))}
    (h : Ready v (p :: items)) (hs : Stepped (v.touched p.1) v n' v') : Ready v' items where
  apart q hq hissue := (hs.chart.apart_iff q.1).mpr (h.apart q (mem_cons_of_mem p hq) hissue)
  quoted q hq hissue a ha := by
    refine (h.quoted q (mem_cons_of_mem p hq) hissue a ha).of_same hs.chart fun x hx => ?_
    have hclear := (pairwise_cons.mp h.order).1 q hq hissue (Option.isSome_of_mem ha)
    exact hs.stock x (hclear x hx)
  order := by
    refine (pairwise_cons.mp h.order).2.imp ?_
    intro q q' hclear hissue hsome
    exact (hs.chart.clear_iff q.1 q'.1).mpr (hclear hissue hsome)

lemma unlessPosted_stepped {p : Tx Posted} (hv : Fresh n v) (hc : Consumed v)
    (h : p.Post schema n v fun _ n' v' => Stepped places v n' v') :
    (unlessPosted e p).Post schema n v fun _ n' v' => Stepped places v n' v' := by
  refine ends_bind (ends_query ?_)
  split
  · exact ends_pure ((Stepped.refl hv hc).mono (nil_subset places))
  · exact h

lemma postNew_stepped (hv : Fresh n v) (hc : Consumed v)
    (hapart : e.reason.isIssue = true → v.Apart e)
    (hquote : e.reason.isIssue = true → e.reason.isCost = false → Quoted v e e.amount) :
    (postNew override e idx).Post schema n v fun _ n' v' => Stepped (v.touched e) v n' v' := by
  refine ends_bind (ends_bind (ends_query (ends_bind (ends_query (ends_pure ?_)))))
  have hamount : (amountFor e idx (v.account? e.debitAccountId)
      (v.account? e.creditAccountId)).Post schema n v fun p _ _ =>
        e.reason.isIssue = true → Quoted v e p.1 := by
    unfold amountFor
    split
    next => exact priceEvent_quoted.mono fun _ _ _ h _ => h
    next hcost => exact ends_pure fun hissue => hquote hissue (by simpa using hcost)
  refine ((reads_post (amountFor_only _ _ _ _)).and hamount).bind ?_
  rintro p n1 v1 ⟨⟨hle, rfl⟩, hq⟩
  exact (applyEvent_stepped (hv.mono hle) hc hapart hq).bind fun _ _ _ hs => ends_pure hs

lemma postPriced_stepped (hv : Fresh n v) (hc : Consumed v)
    (hapart : e.reason.isIssue = true → v.Apart e)
    (hquote : e.reason.isIssue = true → Quoted v e a) :
    (postPriced override e a idx).Post schema n v fun _ n' v' =>
      Stepped (v.touched e) v n' v' := by
  refine ends_bind (ends_bind (ends_query (ends_bind (ends_query (ends_pure ?_)))))
  refine (reads_post (methodFor_only _ _ _)).bind ?_
  rintro m n1 v1 ⟨hle, rfl⟩
  exact (applyEvent_stepped (hv.mono hle) hc hapart hquote).bind fun _ _ _ hs => ends_pure hs

def Event.static (e : Event) : Event × Option (Option ℤ) :=
  (e, if e.reason.isCost then none else some e.amount)

lemma singlePass_stepped (hv : Fresh n v) (hc : Consumed v) (h : Ready v (es.map (·.static))) :
    (singlePass override idx es).Post schema n v fun _ n' v' =>
      Stepped (es.flatMap v.touched) v n' v' := by
  induction es generalizing idx n v with
  | nil => exact ends_pure (.refl hv hc)
  | cons e es ih =>
    have hapart : e.reason.isIssue = true → v.Apart e := h.apart e.static mem_cons_self
    have hquote : e.reason.isIssue = true → e.reason.isCost = false → Quoted v e e.amount := by
      intro hissue hcost
      exact h.quoted e.static mem_cons_self hissue e.amount (by simp [Event.static, hcost])
    refine (unlessPosted_stepped hv hc (postNew_stepped hv hc hapart hquote)).bind ?_
    intro r n1 v1 h1
    refine (ih h1.fresh h1.consumed (h.tail h1)).bind fun rs n2 v2 h2 => ends_pure ?_
    rw [funext h1.chart.touched] at h2
    exact h1.trans h2

lemma applyPass_stepped {es : List (Event × Option ℤ)} (hv : Fresh n v) (hc : Consumed v)
    (h : Ready v (es.map fun p => (p.1, some p.2))) :
    (applyPass override idx es).Post schema n v fun _ n' v' =>
      Stepped (es.flatMap fun p => v.touched p.1) v n' v' := by
  induction es generalizing idx n v with
  | nil => exact ends_pure (.refl hv hc)
  | cons p es ih =>
    have hapart : p.1.reason.isIssue = true → v.Apart p.1 :=
      h.apart (p.1, some p.2) mem_cons_self
    have hquote : p.1.reason.isIssue = true → Quoted v p.1 p.2 := fun hissue =>
      h.quoted (p.1, some p.2) mem_cons_self hissue p.2 rfl
    refine (unlessPosted_stepped hv hc (postPriced_stepped hv hc hapart hquote)).bind ?_
    intro r n1 v1 h1
    refine (ih h1.fresh h1.consumed (h.tail h1)).bind fun rs n2 v2 h2 => ends_pure ?_
    rw [funext h1.chart.touched] at h2
    exact h1.trans h2

lemma priceUnposted_quoted :
    (priceUnposted e idx).Post schema n v fun a _ _ => Quoted v e a := by
  refine ends_bind (ends_query ?_)
  split
  · refine ends_pure fun _ amount h => ?_
    cases h
  · refine ends_bind (ends_bind (ends_query (ends_bind (ends_query (ends_pure ?_)))))
    exact priceEvent_quoted.bind fun _ _ _ h => ends_pure h

lemma priceEach_quoted
    (h : e.reason.isIssue = true → e.reason.isCost = false → Quoted v e e.amount) :
    (bif e.reason.isCost then priceUnposted e idx else pure e.amount : Tx (Option ℤ)).Post schema
      n v fun a n' v' => (n ≤ n' ∧ v' = v) ∧ (e.reason.isIssue = true → Quoted v e a) := by
  cases hcost : e.reason.isCost with
  | true =>
    exact (reads_post (priceUnposted_only e idx)).and (priceUnposted_quoted.mono fun _ _ _ h _ => h)
  | false => exact ends_pure ⟨⟨le_rfl, rfl⟩, fun hissue => h hissue hcost⟩

lemma pricePass_quoted
    (h : ∀ e ∈ es, e.reason.isIssue = true → e.reason.isCost = false → Quoted v e e.amount) :
    (pricePass idx es).Post schema n v fun as n' v' => (n ≤ n' ∧ v' = v) ∧
      as.length = es.length ∧ ∀ p ∈ es.zip as, p.1.reason.isIssue = true → Quoted v p.1 p.2 := by
  induction es generalizing idx n with
  | nil => exact ends_pure ⟨⟨le_rfl, rfl⟩, rfl, by simp⟩
  | cons e es ih =>
    refine (priceEach_quoted (h e mem_cons_self)).bind ?_
    rintro a n1 v1 ⟨⟨hle, rfl⟩, ha⟩
    refine (ih fun e' he' => h e' (mem_cons_of_mem e he')).bind ?_
    rintro as n2 v2 ⟨⟨hle', rfl⟩, hlen, has⟩
    refine ends_pure ⟨⟨hle.trans hle', rfl⟩, by simp [hlen], ?_⟩
    intro p hp
    rcases mem_cons.mp hp with rfl | hp
    · exact ha
    · exact has p hp

/-! ### Batches -/

/-- A batch whose amounts are good: an issue does not take stock from where it brings it, the
caller's amounts of issues are quotes, and no amount made early is of stock that an event before it
touches. -/
structure Orderly (v : Db) (es : List Event) : Prop where
  apart : ∀ e ∈ es, e.reason.isIssue = true → v.Apart e
  quoted : ∀ e ∈ es, e.reason.isIssue = true → e.reason.isCost = false → Quoted v e e.amount
  order : es.Pairwise fun e e' => e'.reason.isIssue = true →
    e'.reason.isCost = false ∨ v.twoPass es = true → v.Clear e e'

lemma Orderly.single (h : Orderly v es) : Ready v (es.map (·.static)) where
  apart := by
    rintro _ hp
    obtain ⟨e, he, rfl⟩ := List.mem_map.mp hp
    exact h.apart e he
  quoted := by
    rintro _ hp hissue a ha
    obtain ⟨e, he, rfl⟩ := List.mem_map.mp hp
    cases hcost : e.reason.isCost with
    | true => simp [Event.static, hcost] at ha
    | false =>
      have ha' : e.amount = a := by simpa [Event.static, hcost] using ha
      rw [← ha']
      exact h.quoted e he hissue hcost
  order := by
    refine pairwise_map.mpr (h.order.imp ?_)
    intro e e' hclear hissue hsome
    refine hclear hissue (.inl ?_)
    cases hcost : e'.reason.isCost with
    | true => simp [Event.static, hcost] at hsome
    | false => rfl

lemma Orderly.double {as : List (Option ℤ)} (h : Orderly v es) (hpass : v.twoPass es = true)
    (hlen : as.length = es.length)
    (has : ∀ p ∈ es.zip as, p.1.reason.isIssue = true → Quoted v p.1 p.2) :
    Ready v ((es.zip as).map fun p => (p.1, some p.2)) where
  apart := by
    rintro _ hmem
    obtain ⟨p, hp, rfl⟩ := List.mem_map.mp hmem
    exact h.apart p.1 (of_mem_zip hp).1
  quoted := by
    rintro _ hmem hissue a ha
    obtain ⟨p, hp, rfl⟩ := List.mem_map.mp hmem
    cases ha
    exact has p hp hissue
  order := by
    have hzip : ((es.zip as).map Prod.fst).Pairwise fun e e' => e'.reason.isIssue = true →
        e'.reason.isCost = false ∨ v.twoPass es = true → v.Clear e e' := by
      rw [map_fst_zip hlen.ge]
      exact h.order
    refine pairwise_map.mpr ((pairwise_map.mp hzip).imp ?_)
    intro p p' hclear hissue _
    exact hclear hissue (.inr hpass)

/-- `post_posting_lines` of an orderly batch. -/
theorem postPostingLines_stepped (hv : Fresh n v) (hc : Consumed v) (h : Orderly v es) :
    (postPostingLines es override).Post schema n v fun _ n' v' =>
      Stepped (es.flatMap v.touched) v n' v' := by
  refine postPostingLines_ends ?_
  unfold passes
  split
  next hpass =>
    refine (pricePass_quoted h.quoted).bind ?_
    rintro as n1 v1 ⟨⟨hle, rfl⟩, hlen, has⟩
    refine (applyPass_stepped (hv.mono hle) hc (h.double hpass hlen has)).mono ?_
    intro rs n2 v2 hs
    have hflat : ((es.zip as).flatMap fun p => v1.touched p.1) = es.flatMap v1.touched := by
      conv_rhs => rw [← map_fst_zip hlen.ge, flatMap_map]
    rwa [hflat] at hs
  next => exact singlePass_stepped hv hc h.single

end Acct.Main
