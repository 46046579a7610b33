import Acct.Main.Equiv.Quotes

/-!
# Issues cost what they consume

Work-order issues price their lines before the batch is posted (`emitLines_emitted`). An issue's
amount is the cost of what it consumed in every run in which no early price is overtaken by an event
at the same place (`posted_eq_consumed`), and not in general (`not_posted_eq_consumed`).
-/

namespace Acct.Main

open Isolation Prog Machine List Option

variable {n n' location : ℕ} {v v' : Db} {places : List Place} {key : Key} {x : Place} {per q : ℤ}
  {before es : List Event} {sku : Sku} {a : Option ℤ} {e : Event} {l : BomLine} {wip : Account}
  {ls : List BomLine} {i : Issue}

/-! ### What the lines of a bill emit -/

def BomLine.place : BomLine → Option Place
  | .item skuId locationId _ => some (skuId, locationId)
  | .absorb .. => none

def Db.bomPlace (db : Db) (l : BomLine) : Option Place :=
  l.place.filter fun x =>
    ((db.sku? x.1).map (·.costMethod)) == some .fifo ||
      ((db.sku? x.1).map (·.costMethod)) == some .lotFifo

lemma openAccount_post {p : Account → Bool} (hids : (v.accounts.map (·.id)).Nodup) :
    (openAccount p).Post schema n v fun a n' v' =>
      n' = n ∧ v' = v ∧ p a = true ∧ v.account? a.id = some a := by
  refine ends_fetch fun a ha => ?_
  split at ha
  next b hb =>
    cases ha
    have hp := List.find?_some hb
    rw [Bool.and_eq_true] at hp
    exact ⟨rfl, rfl, hp.1, account?_of_mem hids (List.mem_of_find?_eq_some hb)⟩
  next => cases ha

section Only

variable {P : Write → Prop}

lemma pickUnits_only (t : Tracking) (sku location : ℕ) (x : Taken) :
    (pickUnits t sku location x).Only P := by
  unfold pickUnits
  split
  · refine (only_query _).bind fun _ => (only_lockRows _ _).bind fun _ => ?_
    exact (only_ensure _ _).bind fun _ => only_pure _
  · exact only_pure _

lemma pickWalks_only (t : Tracking) (sku location : ℕ) (key : Key) (ts : List Taken) :
    (pickWalks t sku location key ts).Only P := by
  induction ts with
  | nil => exact only_pure _
  | cons x ts ih => exact (pickUnits_only _ _ _ _).bind fun _ => ih.bind fun _ => only_pure _

lemma componentAverage_only (accountId : ℕ) : (componentAverage accountId).Only P := by
  refine (only_query _).bind fun _ => (only_ensure _ _).bind fun _ => ?_
  exact (only_query _).bind fun _ => only_pure _

lemma componentValue_only (i : Issue) (sku : Sku) (location accountId : ℕ) (q : ℤ) (key : Key) :
    (componentValue i sku location accountId q key).Only P := by
  unfold componentValue
  split
  · exact (only_fetch _).bind fun _ => only_pure _
  · exact (componentAverage_only _).bind fun _ => only_pure _
  · exact (componentAverage_only _).bind fun _ => only_pure _
  · exact (componentAverage_only _).bind fun _ => only_pure _
  · exact (walk_only _ _ _ _).bind fun _ => only_pure _
  · refine (walk_only _ _ _ _).bind fun _ => ?_
    exact (pickWalks_only _ _ _ _ _).bind fun _ => only_pure _
  · trivial

end Only

lemma componentValue_walk {accountId : ℕ} :
    (componentValue i sku location accountId q key).Post schema n v fun r _ _ =>
      (sku.costMethod = .fifo → 0 < q ∧
        r.1 = walkCost (walkLoop (v.layerCandidates sku.id location) q).1) ∧
      (sku.costMethod = .lotFifo → 0 < q ∧
        r.1 = walkCost
          (walkLoop (v.lotCandidates sku.id location (i.pins.lookup sku.id)) q).1) := by
  unfold componentValue
  cases sku.costMethod with
  | fifo =>
    refine Ends.bind walk_ends ?_
    rintro ts _ _ ⟨-, -, hq, rfl, -⟩
    exact ends_pure ⟨fun _ => ⟨hq, rfl⟩, by simp⟩
  | lotFifo =>
    refine Ends.bind walk_ends ?_
    rintro ts _ _ ⟨-, -, hq, rfl, -⟩
    refine (reads_post (pickWalks_only _ _ _ _ _)).bind fun _ _ _ _ => ?_
    exact ends_pure ⟨by simp, fun _ => ⟨hq, rfl⟩⟩
  | _ => exact post_of_forall fun _ _ _ => ⟨by simp, by simp⟩

/-- What a line of the bill may emit: an event the dispatcher does not price, good at the price it
comes with, that touches the place of the line only. -/
structure EmittedBy (v : Db) (l : BomLine) (e : Event) : Prop where
  cost : e.reason.isCost = false
  apart : v.Apart e
  quoted : e.reason.isIssue = true → Quoted v e e.amount
  touched : ∀ x ∈ v.touched e, l.place = some x

lemma stocked?_of_kind {a : Account} (h : a.kind.isStocked = false) : stocked? a = none := by
  simp [stocked?, h]

lemma placeOf_eq {i : ℕ} {a : Account} (h : v.account? i = some a) :
    v.placeOf i = stocked? a := by
  rw [Db.placeOf, h]
  rfl

lemma placeOf_of_walked (h : x ∈ v.walked e) :
    v.placeOf e.creditAccountId = some x ∧
      ((v.sku? x.1).map (·.costMethod) = some .fifo ∨
        (v.sku? x.1).map (·.costMethod) = some .lotFifo) := by
  have hcase : ∃ m, v.creditStock e.creditAccountId = some (x, m) ∧ (m = .fifo ∨ m = .lotFifo) := by
    rw [Db.walked] at h
    split at h
    next y hy =>
      cases h
      exact ⟨_, hy, .inl rfl⟩
    next y hy =>
      cases h
      exact ⟨_, hy, .inr rfl⟩
    next => cases h
  obtain ⟨m, hstock, hm⟩ := hcase
  obtain ⟨c, hc, hin⟩ := bind_eq_some_iff.mp hstock
  obtain ⟨-, hplace, s, hs, hmethod⟩ := stockIn_eq_some hin
  refine ⟨(placeOf_eq hc).trans hplace, ?_⟩
  rw [Db.sku?, hs, map_some, hmethod, some_inj, some_inj]
  exact hm

lemma EmittedBy.bomPlace (h : EmittedBy v l e) (hx : x ∈ v.walked e) : v.bomPlace l = some x := by
  obtain ⟨hplace, hm⟩ := placeOf_of_walked hx
  have hl : l.place = some x := h.touched x (by simp [Db.touched, hplace])
  rw [Db.bomPlace, hl, filter_some]
  rcases hm with hm | hm <;> simp [hm]

lemma EmittedBy.of_unstocked (hcost : e.reason.isCost = false)
    (hd : v.placeOf e.debitAccountId = none) (hc : v.placeOf e.creditAccountId = none)
    (hquote : e.reason.isIssue = true → Quoted v e e.amount) : EmittedBy v l e where
  cost := hcost
  apart := by simp [Db.Apart, hc]
  quoted := hquote
  touched := by simp [Db.touched, hd, hc]

lemma quoted_of_qty {d : Account} (hd : v.account? e.debitAccountId = some d)
    (hqty : d.ledger = .qty) : Quoted v e a := by
  intro hval
  rw [isValue, hd, any_some, hqty] at hval
  cases hval

lemma valueLeg_emitted {account : Account} {value : ℤ} (hsku : v.sku? sku.id = some sku)
    (hwip : v.account? wip.id = some wip) (hkind : wip.kind = .invValueWip)
    (haccount : v.account? account.id = some account)
    (hplace : stocked? account = some (sku.id, location))
    (hvalue : (sku.costMethod = .fifo → 0 < q ∧
        value = walkCost (walkLoop (v.layerCandidates sku.id location) q).1) ∧
      (sku.costMethod = .lotFifo → 0 < q ∧
        value = walkCost (walkLoop (v.lotCandidates sku.id location (i.pins.lookup sku.id)) q).1))
    (he : e ∈ valueLeg i sku wip account q value key) :
    EmittedBy v (.item sku.id location per) e := by
  unfold valueLeg at he
  split at he
  next hpos =>
    obtain rfl := mem_singleton.mp he
    have hdebit : v.placeOf wip.id = none := by
      rw [placeOf_eq hwip, stocked?_of_kind (by rw [hkind]; rfl)]
    have hcredit : v.placeOf account.id = some (sku.id, location) :=
      (placeOf_eq haccount).trans hplace
    have hmethod : ∀ x m, v.creditStock account.id = some (x, m) →
        x = (sku.id, location) ∧ sku.costMethod = m := by
      intro x m hx
      rw [Db.creditStock, haccount, bind_some] at hx
      obtain ⟨-, hx', s, hs, hm⟩ := stockIn_eq_some hx
      obtain rfl : (sku.id, location) = x := some.inj (hplace.symm.trans hx')
      rw [Db.sku?, hs] at hsku
      exact ⟨rfl, by rw [← some.inj hsku, hm]⟩
    refine ⟨rfl, ?_, fun _ _ amount ha => ?_, ?_⟩
    · intro x _
      rw [hdebit]
      exact (some_ne_none x).symm
    · cases ha
      refine ⟨fun x hx => ?_, fun x hx => ?_⟩
      · obtain ⟨rfl, hm⟩ := hmethod x _ hx
        obtain ⟨hq, hcost⟩ := hvalue.1 hm
        exact ⟨q, rfl, by rw [abs_of_pos hq]; exact hcost⟩
      · obtain ⟨rfl, hm⟩ := hmethod x _ hx
        obtain ⟨hq, hcost⟩ := hvalue.2 hm
        refine ⟨q, rfl, ?_⟩
        rw [abs_of_pos hq, if_pos hm]
        exact hcost
    · intro x hx
      simpa [Db.touched, hdebit, hcredit, BomLine.place, eq_comm] using hx
  next => cases he

lemma sku?_of_fetch {i : ℕ} {s : Sku}
    (h : (match v.sku? i with
      | some s => .ok s
      | none => .error .accountMissing : Except Err Sku) = .ok s) :
    v.sku? s.id = some s ∧ s.id = i := by
  split at h
  next s' hs =>
    cases h
    have hid : s.id = i := by simpa using List.find?_some hs
    exact ⟨hid ▸ hs, hid⟩
  next => cases h

section

variable (hids : (v.accounts.map (·.id)).Nodup) (hwip : v.account? wip.id = some wip)
  (hkind : wip.kind = .invValueWip)
include hids hwip hkind

lemma emitItem_emitted {sku : ℕ} :
    (emitItem i wip sku location q).Post schema n v fun r n' v' => (n ≤ n' ∧ v' = v) ∧
      (∀ e ∈ r.1, EmittedBy v (.item sku location per) e) ∧ r.1.Pairwise v.Clear := by
  refine (openAccount_post hids).bind ?_
  rintro consumed _ _ ⟨rfl, rfl, hconsumed, hconsumed'⟩
  refine (openAccount_post hids).bind ?_
  rintro stock _ _ ⟨rfl, rfl, hstock, hstock'⟩
  refine (openAccount_post hids).bind ?_
  rintro account n1 v1 ⟨rfl, rfl, haccount, haccount'⟩
  refine ends_bind (ends_fetch fun s hfetch => ?_)
  obtain ⟨hs, rfl⟩ := sku?_of_fetch hfetch
  refine ends_bind (ends_nextval (ends_bind (ends_nextval ?_)))
  refine ((reads_post (componentValue_only _ _ _ _ _ _)).and componentValue_walk).bind ?_
  rintro r n2 v2 ⟨⟨hle, rfl⟩, hvalue⟩
  simp only [Bool.and_eq_true, beq_iff_eq] at hconsumed hstock haccount
  have hdebit : v2.placeOf consumed.id = none := by
    rw [placeOf_eq hconsumed', stocked?_of_kind (by rw [hconsumed.1.1]; rfl)]
  have hcredit : v2.placeOf stock.id = none := by
    rw [placeOf_eq hstock', stocked?_of_kind (by rw [hstock.1.1]; rfl)]
  have hplace : stocked? account = some (s.id, location) := by
    rw [stocked?, haccount.1.1.1, haccount.1.1.2, haccount.1.2]
    rfl
  refine ends_pure ⟨⟨(Nat.le_add_right n1 2).trans hle, rfl⟩, ?_, ?_⟩
  · intro e he
    rcases mem_cons.mp he with rfl | he
    · exact .of_unstocked rfl hdebit hcredit fun _ => quoted_of_qty hconsumed' hconsumed.2
    · exact valueLeg_emitted hs hwip hkind haccount' hplace hvalue he
  · refine pairwise_cons.mpr ⟨fun e _ x _ => ?_, ?_⟩
    · simp [Db.touched, hdebit, hcredit]
    · unfold valueLeg
      split
      · exact pairwise_singleton _ _
      · exact .nil

lemma emitAbsorb_emitted {perUnit : Bool} {amount std : ℤ} {applied : AccountKind} :
    (emitAbsorb i wip perUnit amount applied).Post schema n v fun r n' v' => (n ≤ n' ∧ v' = v) ∧
      (∀ e ∈ r.1, EmittedBy v (.absorb perUnit std applied) e) ∧ r.1.Pairwise v.Clear := by
  have hreason : (woApplyReasonFor applied perUnit).Post schema n v fun r n' v' =>
      n' = n ∧ v' = v ∧ r.isCost = false ∧ r.isIssue = false ∧ applied.isStocked = false := by
    unfold woApplyReasonFor
    split
    · exact ends_pure ⟨rfl, rfl, rfl, rfl, rfl⟩
    · exact ends_pure ⟨rfl, rfl, rfl, rfl, rfl⟩
    · refine ends_pure ⟨rfl, rfl, ?_, ?_, rfl⟩ <;> cases perUnit <;> rfl
    · exact ends_raise
  unfold emitAbsorb
  split
  · exact ends_pure ⟨⟨le_rfl, rfl⟩, by simp, .nil⟩
  · refine hreason.bind ?_
    rintro reason _ _ ⟨rfl, rfl, hcost, hissue, happlied⟩
    refine (openAccount_post hids).bind ?_
    rintro account n1 v1 ⟨rfl, rfl, haccount, haccount'⟩
    simp only [Bool.and_eq_true, beq_iff_eq] at haccount
    refine ends_bind (ends_nextval (ends_pure ⟨⟨Nat.le_succ n1, rfl⟩, ?_, ?_⟩))
    · intro e he
      obtain rfl := mem_singleton.mp he
      refine .of_unstocked hcost ?_ ?_ fun h => ?_
      · rw [placeOf_eq hwip, stocked?_of_kind (by rw [hkind]; rfl)]
      · rw [placeOf_eq haccount', stocked?_of_kind (by rw [haccount.1, happlied])]
      · rw [hissue] at h
        cases h
    · exact pairwise_singleton _ _

lemma emitLine_emitted :
    (emitLine i wip l).Post schema n v fun r n' v' => (n ≤ n' ∧ v' = v) ∧
      (∀ e ∈ r.1, EmittedBy v l e) ∧ r.1.Pairwise v.Clear := by
  cases l with
  | item sku location per => exact emitItem_emitted hids hwip hkind
  | absorb perUnit std applied => exact emitAbsorb_emitted hids hwip hkind

end

def Db.OncePerPlace (db : Db) (ls : List BomLine) : Prop :=
  ls.Pairwise fun l l' => ∀ x ∈ db.bomPlace l', l.place ≠ some x
  deriving Decidable

lemma emitLines_emitted (hids : (v.accounts.map (·.id)).Nodup) (hwip : v.account? wip.id = some wip)
    (hkind : wip.kind = .invValueWip) :
    (emitLines i wip ls).Post schema n v fun r n' v' => (n ≤ n' ∧ v' = v) ∧
      (∀ e ∈ r.1, ∃ l ∈ ls, EmittedBy v l e) ∧ (v.OncePerPlace ls → r.1.Pairwise v.Clear) := by
  induction ls generalizing n with
  | nil => exact ends_pure ⟨⟨le_rfl, rfl⟩, by simp, fun _ => .nil⟩
  | cons l ls ih =>
    refine (emitLine_emitted hids hwip hkind).bind ?_
    rintro r n1 v1 ⟨⟨hle, rfl⟩, hr, hclear⟩
    refine ih.bind ?_
    rintro rest n2 v2 ⟨⟨hle', rfl⟩, hrest, hclear'⟩
    refine ends_pure ⟨⟨hle.trans hle', rfl⟩, ?_, fun honce => ?_⟩
    · intro e he
      rcases mem_append.mp he with he | he
      · exact ⟨l, mem_cons_self, hr e he⟩
      · obtain ⟨l', hl', he'⟩ := hrest e he
        exact ⟨l', mem_cons_of_mem l hl', he'⟩
    · obtain ⟨hhead, htail⟩ := pairwise_cons.mp honce
      refine pairwise_append.mpr ⟨hclear, hclear' htail, ?_⟩
      -- An event of this line and one of a later line.
      intro e he e' he' x hx hx'
      obtain ⟨l', hl', hby⟩ := hrest e' he'
      exact hhead l' hl' x (hby.bomPlace hx) ((hr e he).touched x hx')

/-! ### Calls -/

/-- A batch, a work-order issue, or a draw from the sequences that comes to nothing (those of a call
that fails are not given back). -/
inductive Call
  | batch (es : List Event) (override : Bool)
  | issue (i : Issue) (before : List Event) (ls : List BomLine)
  | draw

/-- A call on the committed state. -/
def Call.exec? (s : ℕ × Db) : Call → Option (ℕ × Db)
  | .batch es override => commit? (postPostingLines es override) s
  | .issue i before ls => commit? (woIssue i before ls) s
  | .draw => some (s.1 + 1, s.2)

/-- A batch of the caller's own events. Its issues are priced by the dispatcher, take stock from
where they do not bring it and, in two passes, from where no event before them touches it. -/
structure BatchOk (db : Db) (es : List Event) : Prop where
  apart : ∀ e ∈ es, e.reason.isIssue = true → db.Apart e
  issued : ∀ e ∈ es, e.reason = .rmIssueToWo → db.walked e = none
  order : db.twoPass es = true →
    es.Pairwise fun e e' => e'.reason.isIssue = true → db.Clear e e'

/-- An issue names no layered or lot component twice, and the caller's own events leave its
components alone. -/
structure IssueOk (db : Db) (before : List Event) (ls : List BomLine) : Prop where
  batch : BatchOk db before
  once : db.OncePerPlace ls
  clear : ∀ e ∈ before, ∀ l ∈ ls, ∀ x ∈ db.bomPlace l, x ∉ db.touched e

/-- The condition on a call in the state it finds. -/
def CallOk (s : ℕ × Db) : Call → Prop
  | .batch es _ => BatchOk s.2 es
  | .issue _ before ls => IssueOk s.2 before ls
  | .draw => True

instance (db : Db) (es : List Event) : Decidable (BatchOk db es) :=
  decidable_of_iff ((∀ e ∈ es, e.reason.isIssue = true → db.Apart e) ∧
      (∀ e ∈ es, e.reason = .rmIssueToWo → db.walked e = none) ∧
      (db.twoPass es = true → es.Pairwise fun e e' => e'.reason.isIssue = true → db.Clear e e'))
    ⟨fun h => ⟨h.1, h.2.1, h.2.2⟩, fun h => ⟨h.apart, h.issued, h.order⟩⟩

instance (db : Db) (before : List Event) (ls : List BomLine) : Decidable (IssueOk db before ls) :=
  decidable_of_iff (BatchOk db before ∧ db.OncePerPlace ls ∧
      ∀ e ∈ before, ∀ l ∈ ls, ∀ x ∈ db.bomPlace l, x ∉ db.touched e)
    ⟨fun h => ⟨h.1, h.2.1, h.2.2⟩, fun h => ⟨h.batch, h.once, h.clear⟩⟩

instance (s : ℕ × Db) : (c : Call) → Decidable (CallOk s c)
  | .batch es _ => inferInstanceAs (Decidable (BatchOk s.2 es))
  | .issue _ before ls => inferInstanceAs (Decidable (IssueOk s.2 before ls))
  | .draw => inferInstanceAs (Decidable True)

lemma rmIssueToWo_of_isIssue {r : Reason} (h : r.isIssue = true) (hc : r.isCost = false) :
    r = .rmIssueToWo := by
  cases r <;> simp [Reason.isIssue, Reason.isCost] at h hc ⊢

lemma quoted_of_walked_none (h : v.walked e = none) : Quoted v e a := by
  refine fun _ amount _ => ⟨fun x hx => ?_, fun x hx => ?_⟩
  all_goals
    rw [Db.walked, hx] at h
    cases h

lemma BatchOk.orderly (h : BatchOk v es) : Orderly v es where
  apart := h.apart
  quoted e he hissue hcost :=
    quoted_of_walked_none (h.issued e he (rmIssueToWo_of_isIssue hissue hcost))
  order := by
    cases hpass : v.twoPass es with
    | true => exact (h.order hpass).imp fun hclear hissue _ => hclear hissue
    | false =>
      refine pairwise_iff_forall_sublist.mpr ?_
      intro e e' hsub hissue hcost x hx
      have he' : e' ∈ es := hsub.subset (by simp)
      have hreason := rmIssueToWo_of_isIssue hissue (hcost.resolve_right Bool.false_ne_true)
      rw [h.issued e' he' hreason] at hx
      cases hx

lemma twoPass_append {es' : List Event} (h : ∀ e ∈ es', e.reason.isCost = false) :
    v.twoPass (es ++ es') = v.twoPass es := by
  have hnone : v.twoPass es' = false := by
    refine List.any_eq_false.mpr fun e he => ?_
    simp [Db.probe, h e he]
  rw [Db.twoPass, any_append]
  exact (congrArg (v.twoPass es || ·) hnone).trans (Bool.or_false _)

lemma IssueOk.orderly (h : IssueOk v before ls) (hes : ∀ e ∈ es, ∃ l ∈ ls, EmittedBy v l e)
    (hclear : es.Pairwise v.Clear) : Orderly v (before ++ es) where
  apart e he hissue := by
    rcases mem_append.mp he with he | he
    · exact h.batch.apart e he hissue
    · obtain ⟨l, -, hby⟩ := hes e he
      exact hby.apart
  quoted e he hissue hcost := by
    rcases mem_append.mp he with he | he
    · exact h.batch.orderly.quoted e he hissue hcost
    · obtain ⟨l, -, hby⟩ := hes e he
      exact hby.quoted hissue
  order := by
    have hcost : ∀ e ∈ es, e.reason.isCost = false := by
      intro e he
      obtain ⟨l, -, hby⟩ := hes e he
      exact hby.cost
    rw [twoPass_append hcost]
    refine pairwise_append.mpr ⟨h.batch.orderly.order, ?_, ?_⟩
    · exact hclear.imp fun hclear _ _ => hclear
    · intro e he e' he' _ _ x hx
      obtain ⟨l, hl, hby⟩ := hes e' he'
      exact h.clear e he l hl x (hby.bomPlace hx)

/-! ### The write-back -/

/-- The writes of `_wo_write_lot_consumption`. -/
def Write.OnUnits : Write → Prop
  | .setUnit .. | .unitEvent _ | .woUnit _ => True
  | _ => False

lemma woWriteLotConsumption_only (i : Issue) (ws : List LotWalk) :
    (woWriteLotConsumption i ws).Only Write.OnUnits := by
  induction ws with
  | nil => exact only_pure _
  | cons w ws ih =>
    refine (only_fetch _).bind fun lineId => (only_execAll ?_).bind fun _ => ih
    intro x hx
    simp only [consumeUnits, mem_append, List.mem_map] at hx
    rcases hx with (⟨u, -, rfl⟩ | ⟨u, -, rfl⟩) | ⟨u, -, rfl⟩ <;> trivial

lemma Stepped.onUnits {w : Write} (hw : w.OnUnits) (h : Stepped places v n' v') :
    Stepped places v n' (w.apply v') := by
  have hf := h.fresh
  have hchart := h.chart.trans (sameChart_apply w v')
  have hsame : (w.apply v').layers = v'.layers ∧ (w.apply v').lots = v'.lots ∧
      (w.apply v').lines = v'.lines ∧ (w.apply v').depletions = v'.depletions ∧
      (w.apply v').lotEvents = v'.lotEvents := by
    cases w with
    | setUnit i s | unitEvent e | woUnit u => exact ⟨rfl, rfl, rfl, rfl, rfl⟩
    | _ => exact hw.elim
  obtain ⟨hlayers, hlots, hlines, hdep, hev⟩ := hsame
  refine ⟨hchart, fun x hx => ?_, ?_, fun l hl hissue => ?_⟩
  · rw [← h.stock x hx]
    simp only [Db.stockOf, Db.layerResidual, Db.lotResidual, hlayers, hlots, hdep, hev]
  · constructor <;> simp only [hlayers, hlots, hlines, hdep, hev]
    exacts [hf.layers, hf.lots, hf.layer_lt, hf.lot_lt, hf.line_lt, hf.depletion_lt,
      hf.lotEvent_lt, hf.lotEvent_lot_lt]
  · have hold := h.consumed l (hlines ▸ hl) hissue
    have hstock := (sameChart_apply w v').creditStock l.creditAccountId
    refine ⟨fun x hx => ?_, fun x hx => ?_⟩
    · rw [hold.layers x (hstock.symm.trans hx), Db.layersConsumed, Db.layersConsumed, hdep]
    · rw [hold.lots x (hstock.symm.trans hx)]
      simp only [Db.lotsConsumed, Db.lotCost, hlots, hev]

lemma onUnits_stepped {α : Type} {p : Tx α} (hp : p.Only Write.OnUnits)
    (h : Stepped places v n' v') :
    p.Post schema n' v' fun _ n'' v'' => Stepped places v n'' v'' := by
  refine hp.post (H := fun m u => Stepped places v m u) ?_ ?_ h
  · exact fun w m u hw hu => hu.onUnits hw
  · exact fun m u hu => { hu with fresh := hu.fresh.succ }

theorem woIssue_stepped (hids : (v.accounts.map (·.id)).Nodup) (hv : Fresh n v) (hc : Consumed v)
    (h : IssueOk v before ls) :
    (woIssue i before ls).Post schema n v fun _ n' v' =>
      ∃ places, Stepped places v n' v' := by
  refine ends_bind (ends_bind (ends_ensure fun _ => (openAccount_post hids).bind ?_))
  rintro wip _ _ ⟨rfl, rfl, hwip, hwip'⟩
  simp only [Bool.and_eq_true, beq_iff_eq] at hwip
  refine (emitLines_emitted hids hwip' hwip.1.1.1).mono ?_
  rintro r n1 v1 ⟨⟨hle, rfl⟩, hes, hclear⟩
  refine (postPostingLines_stepped (hv.mono hle) hc (h.orderly hes (hclear h.once))).bind ?_
  intro rs n2 v2 h2
  exact (onUnits_stepped (woWriteLotConsumption_only i r.2) h2).bind fun _ _ _ h3 =>
    ends_pure ⟨_, h3⟩

/-! ### Runs -/

/-- The state keeps its keys, and every issue is posted at the cost of what it consumed. -/
structure Priced (s : ℕ × Db) : Prop where
  ids : (s.2.accounts.map (·.id)).Nodup
  fresh : Fresh s.1 s.2
  consumed : Consumed s.2

lemma priced_of_opening {db : Db} (n : ℕ) (hids : (db.accounts.map (·.id)).Nodup)
    (hlines : db.lines = []) (hlayers : db.layers = []) (hlots : db.lots = [])
    (hdep : db.depletions = []) (hev : db.lotEvents = []) : Priced (n, db) where
  ids := hids
  fresh := by constructor <;> simp [hlines, hlayers, hlots, hdep, hev]
  consumed := by simp [Consumed, hlines]

lemma Priced.of_stepped (h : Priced (n, v)) (hs : Stepped places v n' v') : Priced (n', v') where
  ids := by
    rw [hs.chart.ids]
    exact h.ids
  fresh := hs.fresh
  consumed := hs.consumed

lemma Call.exec?_priced {s s' : ℕ × Db} {c : Call} (h : c.exec? s = some s') (hok : CallOk s c)
    (hs : Priced s) : Priced s' := by
  cases c with
  | batch es override =>
    exact post_of_commit? h ((postPostingLines_stepped hs.fresh hs.consumed hok.orderly).mono
      fun _ _ _ => hs.of_stepped)
  | issue i before ls =>
    refine post_of_commit? h ((woIssue_stepped hs.ids hs.fresh hs.consumed hok).mono ?_)
    rintro _ n' v' ⟨places, hstep⟩
    exact hs.of_stepped hstep
  | draw =>
    cases h
    exact ⟨hs.ids, hs.fresh.succ, hs.consumed⟩

/-- Posted cost is consumed cost, in every state reached by calls that meet the condition. -/
theorem posted_eq_consumed {s : ℕ × Db} (hs : Priced s) (calls : List Call)
    (hok : Throughout Call.exec? CallOk s calls) :
    Consumed (run Call.exec? s calls).2 :=
  (run_invariant_of_throughout (fun _ _ _ h hok hs => Call.exec?_priced h hok hs) hs calls
    hok).consumed

/-- A shop with a FIFO product (10), a lot product (11), a weighted-average product (20) and a
product that is made (30), all at location 5. -/
def workshop : Db where
  skus := [⟨10, .fifo, .none, .fifo⟩, ⟨11, .lotFifo, .none, .fifo⟩,
    ⟨20, .wacPerpetual, .none, .fifo⟩, ⟨30, .standard, .none, .fifo⟩]
  periods := [⟨1, 0, 30, false⟩]
  accounts := [
    { id := 1, kind := .invValueRaw, ledger := .value 0, skuId := some 10, locationId := some 5
      normalSide := .debit },
    { id := 2, kind := .invValueRaw, ledger := .value 0, skuId := some 11, locationId := some 5
      normalSide := .debit },
    { id := 3, kind := .invValueRaw, ledger := .value 0, skuId := some 20, locationId := some 5
      normalSide := .debit },
    { id := 4, kind := .invValueWip, ledger := .value 0, skuId := some 30, routingOp := some 1
      normalSide := .debit },
    { id := 5, kind := .apUnsettled, ledger := .value 0, normalSide := .credit },
    { id := 6, kind := .cogs, ledger := .value 0, normalSide := .debit },
    { id := 7, kind := .vendorPool, ledger := .qty },
    { id := 8, kind := .stockAvailable, ledger := .qty, skuId := some 10, locationId := some 5
      normalSide := .debit },
    { id := 9, kind := .stockConsumed, ledger := .qty, skuId := some 10, normalSide := .debit },
    { id := 10, kind := .stockAvailable, ledger := .qty, skuId := some 11, locationId := some 5
      normalSide := .debit },
    { id := 11, kind := .stockConsumed, ledger := .qty, skuId := some 11, normalSide := .debit }]

def receipt (key account : ℕ) (qty amount : ℤ) (lotCode : Option String := none) : Event where
  reason := .poReceipt
  debitAccountId := account
  creditAccountId := 5
  amount := some amount
  qty := some qty
  businessDate := 1
  key := .given key
  lotCode := lotCode

def stockReceipt (key account : ℕ) (qty : ℤ) : Event where
  reason := .poReceipt
  debitAccountId := account
  creditAccountId := 7
  amount := some qty
  qty := some qty
  businessDate := 1
  key := .given key

/-- A shipment, as of day 2. -/
def shipment (key account : ℕ) (qty : ℤ) : Event where
  reason := .soShip
  debitAccountId := 6
  creditAccountId := account
  qty := some qty
  businessDate := 2
  key := .given key

/-- Two layers, two lots and a weighted-average unit come in. -/
def stockUp : Call :=
  .batch [receipt 1 1 2 20, receipt 2 1 2 50, receipt 3 2 2 20 (some "A"),
    receipt 4 2 2 50 (some "B"), receipt 5 3 1 7, stockReceipt 6 8 4, stockReceipt 7 10 4] false

/-- One of product 30 is started. -/
def start : Issue where
  parentSkuId := 30
  currency := 0
  routingOp := 1
  qty := 1
  eventId := 77
  businessDate := 2

/-- The shop after some calls. -/
def workshopAfter (calls : List Call) : Db := (run Call.exec? (100, workshop) calls).2

/-- The layer of one receipt prices two issues: two shipments that share a batch with a
weighted-average one, and a component that is named twice. -/
theorem not_posted_eq_consumed :
    (∃ l ∈ (workshopAfter [stockUp,
        .batch [shipment 11 1 2, shipment 12 1 2, shipment 13 3 1] false]).lines,
      l.reason = .soShip ∧ l.creditAccountId = 1 ∧ l.amount = 20 ∧
        (workshopAfter [stockUp,
          .batch [shipment 11 1 2, shipment 12 1 2, shipment 13 3 1] false]).layersConsumed
            l.id = 50) ∧
    ∃ l ∈ (workshopAfter [stockUp, .issue start [] [.item 11 5 2, .item 11 5 2]]).lines,
      l.reason = .rmIssueToWo ∧ l.creditAccountId = 2 ∧ l.amount = 20 ∧
        (workshopAfter [stockUp, .issue start [] [.item 11 5 2, .item 11 5 2]]).lotsConsumed
          l.id = 50 := by
  decide +kernel

/-- Shipments with and without a second pass, and an issue of both products. -/
theorem posted_eq_consumed_workshop :
    Consumed (workshopAfter [stockUp, .batch [shipment 11 1 1, shipment 12 3 1] false, .draw,
      .batch [shipment 13 1 1, shipment 14 1 1] false,
      .issue start [] [.item 10 5 1, .item 11 5 3]]) :=
  posted_eq_consumed (priced_of_opening 100 (by decide) rfl rfl rfl rfl rfl) _ (by decide +kernel)

end Acct.Main
