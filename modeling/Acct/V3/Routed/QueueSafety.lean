import Acct.Machine.Exclusive
import Acct.Machine.Run
import Acct.V3.Routed.Queue

/-!
# The routed queue loses no submission

`Lossless` is what the queue owes its callers. It holds along every run in which (`Careful`) a group
is claimed only after the router has stamped it, the router packs a slot only after the last group
that listed it is finalised, and submissions decode (`lossless_of_careful`). The invariant says what
each slot of a group can be in, by the group's phase (`Entry.SlotOk`).

Without the first condition, a committer that is ahead of the router frees a submission whose caller
is running, or leaves a slot routed for good (`not_lossless`).
-/

namespace Acct.V3

open Machine List Function Option

variable (ofMicros : ℤ → Option ℤ) {g userTxXid l : ℕ} {status : ℕ → CallerTxStatus} {q : Request}
  {x : Slot} {d : Entry} {todo : List ℕ}

/-! ### What the queue owes -/

def Slot.Busy (x : Slot) : Prop := x.valid = .processing ∨ x.valid = .routed

def QueueState.Accounted (s : QueueState) (x : Freed) : Prop :=
  ∃ k e, x.commitGroupId = k + 1 ∧ s.entries[k]? = some e ∧ (x.slot, x.request) ∈ e.listed ∧
    (x.request ∈ e.planned ∨ x.request ∈ e.aborted)

structure Lossless (s : QueueState) : Prop where
  accounted : ∀ x ∈ s.freed, s.Accounted x
  settled : ∀ x ∈ s.freed, x.status ≠ .inProgress
  routed : ∀ i, (s.slots i).valid = .routed →
    ∃ e ∈ s.entries, e.phase ≠ .finalised ∧ i ∈ e.slots

def Careful (s : QueueState) : QueueMove → Prop
  | .enqueue _ _ payload => payload.Decodes ofMicros
  | .pack =>
    match s.router with
    | .packing (i :: _) _ => ∀ e ∈ s.entries, e.phase ≠ .finalised → i ∉ e.slots
    | _ => True
  | .claim k =>
    match s.router with
    | .stamping g _ _ => g ≠ k + 1
    | _ => True
  | _ => True

instance (s : QueueState) (m : QueueMove) : Decidable (Careful ofMicros s m) := by
  unfold Careful
  split
  · infer_instance
  · split <;> infer_instance
  · split <;> infer_instance
  · infer_instance

/-! ### The invariant -/

def Slot.Stamped (x : Slot) (g : ℕ) (q : Request) : Prop :=
  x.valid = .routed ∧ x.commitGroupId = g ∧ x.request = q

namespace Router

/-- The slots of group `g` that the router has still to stamp. -/
def unstamped : Router → ℕ → List ℕ
  | stamping g todo _, g' => if g = g' then todo else []
  | _, _ => []

def packed : Router → List ℕ
  | packing _ packed => packed
  | _ => []

end Router

namespace Entry

def Decided (e : Entry) (status : ℕ → CallerTxStatus) (q : Request) : Prop :=
  (q ∈ e.kept ∨ q ∈ e.aborted) ∧ status q.userTxXid ≠ .inProgress

def Done (e : Entry) (status : ℕ → CallerTxStatus) (q : Request) : Prop :=
  (q ∈ e.planned ∨ q ∈ e.aborted) ∧ status q.userTxXid ≠ .inProgress

end Entry

def ReleaseStage.Sees : ReleaseStage → Prop
  | .loadEject ours => ours = true
  | .swapProcessing => False
  | _ => True

/-- What a slot of a group can be in, by the group's phase: `i` is the slot, `q` the submission the
group listed in it, and `unstamped` what the router has still to stamp. -/
def Entry.SlotOk (e : Entry) (g : ℕ) (unstamped : List ℕ) (status : ℕ → CallerTxStatus) (i : ℕ)
    (q : Request) (x : Slot) : Prop :=
  match e.phase with
  | .published => if i ∈ unstamped then x.valid = .processing ∧ x.request = q else x.Stamped g q
  | .reading _ => x.Stamped g q
  | .classifying => x.Stamped g q
  | .ejecting todo _ =>
    if i ∈ todo then x.valid = .routed else x.Stamped g q ∧ e.Decided status q ∨ x.valid = .pending
  | .transacting => x.Stamped g q ∧ e.Decided status q ∨ x.valid = .pending
  | .cleaning todo stage =>
    if i ∈ todo then
      x.Stamped g q ∧ e.Done status q ∧ (todo.head? = some i → stage.Sees) ∨ x.valid = .pending
    else x.valid = .empty ∨ x.valid = .pending
  | .finalised => True

def Entry.Progress (e : Entry) : Prop :=
  match e.phase with
  | .published => e.read = []
  | .reading todo => ∃ rest, e.listed = e.read ++ rest ∧ todo = rest.map Prod.fst
  | .classifying => e.read = e.listed
  | .ejecting todo _ => todo.Sublist e.slots ∧ ∀ q ∈ e.kept, ∃ i, (i, q) ∈ e.listed
  | .transacting => ∀ q ∈ e.kept, ∃ i, (i, q) ∈ e.listed
  | .cleaning todo _ => todo.Sublist e.slots
  | _ => True

def Phase.Releasing : Phase → Prop
  | .cleaning _ _ => True
  | .finalised => True
  | _ => False

structure EntryOk (s : QueueState) (k : ℕ) (e : Entry) : Prop where
  nodup : e.slots.Nodup
  decodes : ∀ p ∈ e.listed, p.2.payload.Decodes ofMicros
  slot : ∀ p ∈ e.listed,
    e.SlotOk (k + 1) (s.router.unstamped (k + 1)) s.status p.1 p.2 (s.slots p.1)
  progress : e.Progress

def RouterOk (s : QueueState) : Prop :=
  match s.router with
  | .idle => True
  | .packing _ packed =>
    packed.Nodup ∧ ∀ i ∈ packed, (s.slots i).valid = .processing ∧
      ∀ e ∈ s.entries, e.phase ≠ .finalised → i ∉ e.slots
  | .stamping g todo stored =>
    todo.Nodup ∧ ∃ k e, g = k + 1 ∧ s.entries[k]? = some e ∧ e.phase = .published ∧
      todo ⊆ e.slots ∧ (stored = true → ∀ i ∈ todo.head?, (s.slots i).commitGroupId = g)

/-- The invariant of careful runs. -/
structure QueueInv (s : QueueState) : Prop where
  entries : ∀ (k : ℕ) (e : Entry), s.entries[k]? = some e → EntryOk ofMicros s k e
  disjoint : ∀ (k l : ℕ) (e e' : Entry), s.entries[k]? = some e → s.entries[l]? = some e' → k ≠ l →
    e.phase ≠ .finalised → e'.phase ≠ .finalised → ∀ i ∈ e.slots, i ∉ e'.slots
  router : RouterOk s
  busy : ∀ i, (s.slots i).Busy →
    i ∈ s.router.packed ∨ ∃ e ∈ s.entries, e.phase ≠ .finalised ∧ i ∈ e.slots
  content : ∀ i, (s.slots i).valid ≠ .empty →
    (s.slots i).request.payload.Decodes ofMicros
  freed : ∀ x ∈ s.freed, x.status ≠ .inProgress ∧ ∃ (k : ℕ) (e : Entry), x.commitGroupId = k + 1 ∧
    s.entries[k]? = some e ∧ e.phase.Releasing ∧ (x.slot, x.request) ∈ e.listed ∧
    (x.request ∈ e.planned ∨ x.request ∈ e.aborted)

variable {ofMicros} {s s' : QueueState} {k : ℕ} {e e' : Entry} {i : ℕ}

lemma mem_slots (h : (i, q) ∈ e.listed) : i ∈ e.slots :=
  List.mem_map_of_mem (f := Prod.fst) h

lemma exists_mem_listed (h : i ∈ e.slots) : ∃ q, (i, q) ∈ e.listed := by
  obtain ⟨p, hp, rfl⟩ := List.mem_map.mp h
  exact ⟨p.2, hp⟩

/-- A slot that an open group has not let go of is not empty, and a slot it has let go of can be
used. -/
lemma Entry.SlotOk.of_empty {unstamped : List ℕ} {x' : Slot} (h : e.SlotOk g unstamped status i q x)
    (hx : x.valid = .empty) (hx' : x'.valid = .pending) : e.SlotOk g unstamped status i q x' := by
  unfold Entry.SlotOk at h ⊢
  cases hp : e.phase with
  | published =>
    simp only [hp, Slot.Stamped, hx] at h
    split at h <;> simp at h
  | reading todo | classifying => simp [hp, Slot.Stamped, hx] at h
  | ejecting todo stage =>
    simp only [hp, Slot.Stamped, hx] at h
    split at h <;> simp at h
  | transacting => simp [hp, Slot.Stamped, hx] at h
  | cleaning todo stage =>
    simp only [hp, Slot.Stamped, hx] at h
    split at h
    · simp at h
    · rename_i hi
      simp [hi, hx']
  | finalised => trivial

lemma Entry.SlotOk.of_status {unstamped : List ℕ} {status' : ℕ → CallerTxStatus}
    (h : e.SlotOk g unstamped status i q x)
    (hst : ∀ t, status t ≠ .inProgress → status' t ≠ .inProgress) :
    e.SlotOk g unstamped status' i q x := by
  have hdec : e.Decided status q → e.Decided status' q := fun h => ⟨h.1, hst _ h.2⟩
  have hdone : e.Done status q → e.Done status' q := fun h => ⟨h.1, hst _ h.2⟩
  unfold Entry.SlotOk at h ⊢
  cases hp : e.phase with
  | published | reading todo | classifying => simpa only [hp] using h
  | ejecting todo stage =>
    simp only [hp] at h ⊢
    split at h
    · rename_i hi
      simpa only [hi, if_true] using h
    · rename_i hi
      simp only [hi, if_false]
      exact h.imp_left fun h => ⟨h.1, hdec h.2⟩
  | transacting =>
    simp only [hp] at h ⊢
    exact h.imp_left fun h => ⟨h.1, hdec h.2⟩
  | cleaning todo stage =>
    simp only [hp] at h ⊢
    split at h
    · rename_i hi
      simp only [hi, if_true]
      exact h.imp_left fun h => ⟨h.1, hdone h.2.1, h.2.2⟩
    · rename_i hi
      simpa only [hi, if_false] using h
  | finalised => trivial

lemma QueueInv.lossless (h : QueueInv ofMicros s) : Lossless s where
  accounted x hx := by
    obtain ⟨-, k, e, hg, he, -, hlisted, hdone⟩ := h.freed x hx
    exact ⟨k, e, hg, he, hlisted, hdone⟩
  settled x hx := (h.freed x hx).1
  routed i hi := by
    rcases h.busy i (.inr hi) with hpacked | hopen
    · -- what the router holds outside a group is processing
      have hrouter := h.router
      unfold RouterOk at hrouter
      cases hr : s.router with
      | idle | stamping g todo stored => simp [hr, Router.packed] at hpacked
      | packing todo packed =>
        simp only [hr] at hrouter
        simp only [hr, Router.packed] at hpacked
        exact absurd ((hrouter.2 i hpacked).1) (by simp [hi])
    · exact hopen

/-! ### A move on one group -/

/-- What a move on the entry at place `k` can touch: that entry, which keeps its list, and the slots
it lists. -/
structure OnGroup (s s' : QueueState) (k : ℕ) (e e' : Entry) : Prop where
  entry : s.entries[k]? = some e
  isOpen : e.phase ≠ .finalised
  listed : e'.listed = e.listed
  entries : s'.entries = s.entries.set k e'
  slots : ∀ i, i ∉ e.slots → s'.slots i = s.slots i
  status : s'.status = s.status

section

variable (h : OnGroup s s' k e e')
include h

lemma OnGroup.slots_eq : e'.slots = e.slots := by
  rw [Entry.slots, Entry.slots, h.listed]

lemma OnGroup.get_self : s'.entries[k]? = some e' := by
  have hlt : k < s.entries.length := (List.getElem?_eq_some_iff.mp h.entry).1
  simp [h.entries, hlt]

lemma OnGroup.get_other (hl : l ≠ k) :
    s'.entries[l]? = s.entries[l]? := by
  rw [h.entries, List.getElem?_set_ne hl.symm]

lemma OnGroup.cases (hd : s'.entries[l]? = some d) :
    l = k ∧ d = e' ∨ l ≠ k ∧ s.entries[l]? = some d := by
  by_cases hl : l = k
  · subst hl
    rw [h.get_self, some.injEq] at hd
    exact .inl ⟨rfl, hd.symm⟩
  · exact .inr ⟨hl, h.get_other hl ▸ hd⟩

lemma OnGroup.slots_other (hinv : QueueInv ofMicros s)
    (hl : l ≠ k) (hd : s.entries[l]? = some d) (hopen : d.phase ≠ .finalised) (hi : i ∈ d.slots) :
    s'.slots i = s.slots i :=
  h.slots i (hinv.disjoint l k d e hd h.entry hl hopen h.isOpen i hi)

lemma OnGroup.routerOk (hinv : QueueInv ofMicros s)
    (hrouter : s'.router = s.router) (hidle : ∀ todo b, s.router ≠ .stamping (k + 1) todo b) :
    RouterOk s' := by
  have hold := hinv.router
  unfold RouterOk at hold ⊢
  rw [hrouter]
  cases hr : s.router with
  | idle => trivial
  | packing todo packed =>
    simp only [hr] at hold
    refine ⟨hold.1, fun i hi => ?_⟩
    obtain ⟨hproc, hnot⟩ := hold.2 i hi
    have hmem : e ∈ s.entries := mem_of_getElem? h.entry
    rw [h.slots i (hnot e hmem h.isOpen)]
    refine ⟨hproc, fun d hd hopen => ?_⟩
    obtain ⟨l, hl⟩ := mem_iff_getElem?.mp hd
    rcases h.cases hl with ⟨-, rfl⟩ | ⟨-, hold'⟩
    · rw [h.slots_eq]
      exact hnot e hmem h.isOpen
    · exact hnot d (mem_of_getElem? hold') hopen
  | stamping g todo stored =>
    simp only [hr] at hold
    obtain ⟨hnd, l, d, rfl, hd, hpub, hsub, hcg⟩ := hold
    have hl : l ≠ k := by
      rintro rfl
      exact hidle todo stored hr
    refine ⟨hnd, l, d, rfl, (h.get_other hl).trans hd, hpub, hsub, fun hst i hi => ?_⟩
    have hmem : i ∈ d.slots := hsub (mem_of_mem_head? hi)
    rw [h.slots_other hinv hl hd (by simp [hpub]) hmem]
    exact hcg hst i hi

end

lemma QueueInv.onGroup (hinv : QueueInv ofMicros s) (h : OnGroup s s' k e e')
    (hpacked : s'.router.packed = s.router.packed)
    (hunst : ∀ l, l ≠ k → s'.router.unstamped (l + 1) = s.router.unstamped (l + 1))
    (hrouter : RouterOk s') (hok : EntryOk ofMicros s' k e')
    (hbusy : e'.phase = .finalised → ∀ i ∈ e.slots, ¬ (s'.slots i).Busy)
    (hcontent : ∀ i ∈ e.slots, (s'.slots i).valid ≠ .empty →
      (s'.slots i).request.payload.Decodes ofMicros)
    (hrel : e.phase.Releasing →
      e'.phase.Releasing ∧ e'.planned = e.planned ∧ e'.aborted = e.aborted)
    (hfreed : ∀ x ∈ s'.freed, x ∈ s.freed ∨ x.status ≠ .inProgress ∧ x.commitGroupId = k + 1 ∧
      e'.phase.Releasing ∧ (x.slot, x.request) ∈ e'.listed ∧
      (x.request ∈ e'.planned ∨ x.request ∈ e'.aborted)) :
    QueueInv ofMicros s' where
  entries l d hd := by
    rcases h.cases hd with ⟨rfl, rfl⟩ | ⟨hl, hold⟩
    · exact hok
    · have hd' := hinv.entries l d hold
      refine ⟨hd'.nodup, hd'.decodes, fun p hp => ?_, hd'.progress⟩
      have hslot := hd'.slot p hp
      by_cases hfin : d.phase = .finalised
      · unfold Entry.SlotOk
        rw [hfin]
        trivial
      · rw [hunst l hl, h.status, h.slots_other hinv hl hold hfin (mem_slots hp)]
        exact hslot
  disjoint l m d d' hd hd' hne hopen hopen' := by
    rcases h.cases hd with ⟨rfl, rfl⟩ | ⟨hl, hold⟩
    · rcases h.cases hd' with ⟨rfl, rfl⟩ | ⟨hm, hold'⟩
      · exact absurd rfl hne
      · rw [h.slots_eq]
        exact hinv.disjoint _ _ _ _ h.entry hold' hne h.isOpen hopen'
    · rcases h.cases hd' with ⟨rfl, rfl⟩ | ⟨hm, hold'⟩
      · rw [h.slots_eq]
        exact hinv.disjoint _ _ _ _ hold h.entry hne hopen h.isOpen
      · exact hinv.disjoint _ _ _ _ hold hold' hne hopen hopen'
  router := hrouter
  busy i hi := by
    rw [hpacked]
    by_cases hmem : i ∈ e.slots
    · refine .inr ⟨e', mem_of_getElem? h.get_self, fun hfin => ?_, h.slots_eq ▸ hmem⟩
      exact hbusy hfin i hmem hi
    · rw [h.slots i hmem] at hi
      refine (hinv.busy i hi).imp_right ?_
      rintro ⟨d, hd, hopen, hid⟩
      obtain ⟨l, hl⟩ := mem_iff_getElem?.mp hd
      have hlk : l ≠ k := by
        rintro rfl
        rw [h.entry, some.injEq] at hl
        exact hmem (hl ▸ hid)
      exact ⟨d, mem_of_getElem? ((h.get_other hlk).trans hl), hopen, hid⟩
  content i hi := by
    by_cases hmem : i ∈ e.slots
    · exact hcontent i hmem hi
    · rw [h.slots i hmem] at hi ⊢
      exact hinv.content i hi
  freed x hx := by
    rcases hfreed x hx with hold | ⟨hst, hg, hrest⟩
    · obtain ⟨hst, l, d, hg, hd, hdrel, hdlisted, hddone⟩ := hinv.freed x hold
      refine ⟨hst, ?_⟩
      by_cases hl : l = k
      · subst hl
        obtain rfl : e = d := some.inj (h.entry.symm.trans hd)
        obtain ⟨hrel', hplanned, haborted⟩ := hrel hdrel
        refine ⟨l, e', hg, h.get_self, hrel', h.listed ▸ hdlisted, ?_⟩
        rw [hplanned, haborted]
        exact hddone
      · exact ⟨l, d, hg, (h.get_other hl).trans hd, hdrel, hdlisted, hddone⟩
    · exact ⟨hst, k, e', hg, h.get_self, hrest⟩

lemma QueueInv.not_stamping (hinv : QueueInv ofMicros s) (he : s.entries[k]? = some e)
    (hpub : e.phase ≠ .published) (todo : List ℕ) (b : Bool) :
    s.router ≠ .stamping (k + 1) todo b := by
  intro hr
  have hrouter := hinv.router
  simp only [RouterOk, hr] at hrouter
  obtain ⟨-, l, d, hg, hd, hdpub, -⟩ := hrouter
  obtain rfl : k = l := Nat.succ.inj hg
  obtain rfl : e = d := some.inj (he.symm.trans hd)
  exact hpub hdpub

lemma EntryOk.update (h : EntryOk ofMicros s k e) (hl : e'.listed = e.listed)
    (hslot : ∀ p ∈ e.listed,
      e'.SlotOk (k + 1) (s'.router.unstamped (k + 1)) s'.status p.1 p.2 (s'.slots p.1))
    (hprog : e'.Progress) : EntryOk ofMicros s' k e' where
  nodup := by
    rw [Entry.slots, hl]
    exact h.nodup
  decodes := by
    rw [hl]
    exact h.decodes
  slot := by
    rw [hl]
    exact hslot
  progress := hprog

section

variable (he : s.entries[k]? = some e) (hopen : e.phase ≠ .finalised) (hl : e'.listed = e.listed)
include he hopen hl

lemma onGroup_setEntry : OnGroup s (s.setEntry k e') k e e' :=
  ⟨he, hopen, hl, rfl, fun _ _ => rfl, rfl⟩

lemma onGroup_setSlot (hi : i ∈ e.slots) :
    OnGroup s ((s.setSlot i x).setEntry k e') k e e' where
  entry := he
  isOpen := hopen
  listed := hl
  entries := rfl
  slots _ hj := update_of_ne (ne_of_mem_of_not_mem hi hj).symm _ _
  status := rfl

end

/-! ### The committer

A move of a committer that leaves the slots as they are, or changes one slot of its group. -/

section Committer

variable (hinv : QueueInv ofMicros s) (he : s.entries[k]? = some e) {stage : ReleaseStage}

include hinv he

section

variable (hopen : e.phase ≠ .finalised) (hpub : e.phase ≠ .published) (hl : e'.listed = e.listed)
include hopen hpub hl

lemma QueueInv.bookkeeping (hslot : ∀ p ∈ e.listed, ∀ unstamped,
      e'.SlotOk (k + 1) unstamped s.status p.1 p.2 (s.slots p.1))
    (hprog : e'.Progress)
    (hbusy : e'.phase = .finalised → ∀ i ∈ e.slots, ¬ (s.slots i).Busy)
    (hrel : e.phase.Releasing →
      e'.phase.Releasing ∧ e'.planned = e.planned ∧ e'.aborted = e.aborted) :
    QueueInv ofMicros (s.setEntry k e') := by
  have hon : OnGroup s (s.setEntry k e') k e e' := onGroup_setEntry he hopen hl
  exact hinv.onGroup hon rfl (fun _ _ => rfl) (hon.routerOk hinv rfl (hinv.not_stamping he hpub))
    ((hinv.entries k e he).update hl (fun p hp => hslot p hp _) hprog) hbusy
    (fun i _ => hinv.content i) hrel fun x hx => .inl hx

lemma QueueInv.onSlot (hi : i ∈ e.slots) (hreq : x.request = (s.slots i).request)
    (hold : (s.slots i).valid ≠ .empty)
    (hslot : ∀ p ∈ e.listed, ∀ unstamped, e'.SlotOk (k + 1) unstamped s.status p.1 p.2
      (Function.update s.slots i x p.1)) (hprog : e'.Progress) (hopen' : e'.phase ≠ .finalised)
    (hrel : ¬ e.phase.Releasing) :
    QueueInv ofMicros ((s.setSlot i x).setEntry k e') := by
  have hon : OnGroup s ((s.setSlot i x).setEntry k e') k e e' := onGroup_setSlot he hopen hl hi
  refine hinv.onGroup hon rfl (fun _ _ => rfl)
    (hon.routerOk hinv rfl (hinv.not_stamping he hpub))
    ((hinv.entries k e he).update hl (fun p hp => hslot p hp _) hprog)
    (fun hfin => absurd hfin hopen') (fun j hj hne => ?_) (fun h => absurd h hrel)
    fun x hx => .inl hx
  by_cases hji : j = i
  · subst hji
    show (Function.update s.slots j x j).request.payload.Decodes ofMicros
    rw [update_self, hreq]
    exact hinv.content j hold
  · have hsame : ((s.setSlot i x).setEntry k e').slots j = s.slots j :=
      update_of_ne hji _ _
    rw [hsame] at hne ⊢
    exact hinv.content j hne

end

lemma QueueInv.read_done (hp : e.phase = .reading []) :
    QueueInv ofMicros (s.setEntry k { e with phase := .classifying }) := by
  have hok := hinv.entries k e he
  refine hinv.bookkeeping he (by simp [hp]) (by simp [hp]) rfl (fun p hmem unstamped => ?_) ?_
    (by simp) (by simp [hp, Phase.Releasing])
  · have hslot := hok.slot p hmem
    simpa only [Entry.SlotOk, hp] using hslot
  · have hprog := hok.progress
    simp only [Entry.Progress, hp] at hprog
    obtain ⟨rest, hlisted, hnil⟩ := hprog
    obtain rfl : rest = [] := map_eq_nil_iff.mp hnil.symm
    simp [Entry.Progress, hlisted]

lemma QueueInv.read_slot (hp : e.phase = .reading (i :: todo)) :
    QueueInv ofMicros (s.setEntry k
      { e with phase := .reading todo, read := e.read ++ [(i, (s.slots i).request)] }) := by
  have hok := hinv.entries k e he
  have hstamped : ∀ p ∈ e.listed, (s.slots p.1).Stamped (k + 1) p.2 := by
    intro p hmem
    have hslot := hok.slot p hmem
    simpa only [Entry.SlotOk, hp] using hslot
  refine hinv.bookkeeping he (by simp [hp]) (by simp [hp]) rfl (fun p hmem unstamped => ?_) ?_
    (by simp) (by simp [hp, Phase.Releasing])
  · exact hstamped p hmem
  · have hprog := hok.progress
    simp only [Entry.Progress, hp] at hprog
    obtain ⟨rest, hlisted, hcons⟩ := hprog
    obtain ⟨q, rest', rfl, rfl, rfl⟩ := map_eq_cons_iff.mp hcons.symm
    -- the slot still holds what the group listed
    have hreq : (s.slots q.1).request = q.2 := (hstamped q (by simp [hlisted])).2.2
    refine ⟨rest', ?_, rfl⟩
    show e.listed = e.read ++ [(q.1, (s.slots q.1).request)] ++ rest'
    rw [hlisted, hreq, append_assoc, singleton_append]

lemma QueueInv.classify (hp : e.phase = .classifying) :
    QueueInv ofMicros (s.setEntry k (e.classify s.status)) := by
  have hok := hinv.entries k e he
  have hread : e.read = e.listed := by
    have hprog := hok.progress
    simpa only [Entry.Progress, hp] using hprog
  refine hinv.bookkeeping he (by simp [hp]) (by simp [hp]) rfl (fun p hmem unstamped => ?_) ?_
    (by simp [Entry.classify]) (by simp [hp, Phase.Releasing])
  · have hslot : (s.slots p.1).Stamped (k + 1) p.2 := by
      have hslot := hok.slot p hmem
      simpa only [Entry.SlotOk, hp] using hslot
    have hmem' : p ∈ e.read := hread ▸ hmem
    simp only [Entry.SlotOk, Entry.classify]
    split
    · exact hslot.1
    · rename_i hnot
      have hst : s.status p.2.userTxXid ≠ .inProgress := by
        intro hst
        exact hnot (List.mem_map.mpr ⟨p, mem_filter.mpr ⟨hmem', by simpa using hst⟩, rfl⟩)
      refine .inl ⟨hslot, ?_, hst⟩
      cases hstatus : s.status p.2.userTxXid with
      | inProgress => exact absurd hstatus hst
      | aborted =>
        exact .inr (List.mem_map.mpr ⟨p, mem_filter.mpr ⟨hmem', by simpa using hstatus⟩, rfl⟩)
      | committed | unknown =>
        exact .inl (List.mem_map.mpr ⟨p, mem_filter.mpr ⟨hmem', by simp [hstatus]⟩, rfl⟩)
  · simp only [Entry.Progress, Entry.classify]
    constructor
    · rw [Entry.slots, ← hread]
      exact filter_sublist.map _
    · intro q hq
      obtain ⟨p, hp', rfl⟩ := List.mem_map.mp hq
      exact ⟨p.1, hread ▸ (mem_filter.mp hp').1⟩

lemma QueueInv.eject_done {stage : EjectStage} (hp : e.phase = .ejecting [] stage) :
    QueueInv ofMicros (s.setEntry k { e with phase := .transacting }) := by
  have hok := hinv.entries k e he
  refine hinv.bookkeeping he (by simp [hp]) (by simp [hp]) rfl (fun p hmem unstamped => ?_) ?_
    (by simp) (by simp [hp, Phase.Releasing])
  · have hslot := hok.slot p hmem
    simpa [Entry.SlotOk, hp, Entry.Decided] using hslot
  · have hprog := hok.progress
    simp only [Entry.Progress, hp] at hprog
    exact hprog.2

lemma QueueInv.eject_head {stage : EjectStage} (hp : e.phase = .ejecting (i :: todo) stage) :
    ((i :: todo).Sublist e.slots ∧ ∀ q ∈ e.kept, ∃ j, (j, q) ∈ e.listed) ∧ i ∈ e.slots ∧
      (s.slots i).valid = .routed := by
  have hok := hinv.entries k e he
  have hprog := hok.progress
  simp only [Entry.Progress, hp] at hprog
  have hi : i ∈ e.slots := hprog.1.subset mem_cons_self
  obtain ⟨q, hq⟩ := exists_mem_listed hi
  have hslot := hok.slot _ hq
  exact ⟨hprog, hi, by simpa [Entry.SlotOk, hp] using hslot⟩

/-- The slot at the head of the list stays routed while it is counted and unstamped. -/
lemma QueueInv.eject_mark {stage stage' : EjectStage} (hp : e.phase = .ejecting (i :: todo) stage)
    (hvalid : x.valid = (s.slots i).valid) (hreq : x.request = (s.slots i).request) :
    QueueInv ofMicros ((s.setSlot i x).setEntry k
      { e with phase := .ejecting (i :: todo) stage' }) := by
  have hok := hinv.entries k e he
  obtain ⟨hprog, hi, hrouted⟩ := hinv.eject_head he hp
  refine hinv.onSlot he (by simp [hp]) (by simp [hp]) rfl hi hreq (by simp [hrouted])
    (fun p hmem unstamped => ?_) hprog (by simp) (by simp [hp, Phase.Releasing])
  by_cases hpi : p.1 = i
  · simp [Entry.SlotOk, hpi, hvalid, hrouted]
  · rw [update_of_ne hpi]
    have hslot := hok.slot p hmem
    simpa only [Entry.SlotOk, hp, Entry.Decided] using hslot

lemma QueueInv.eject_reopen {stage : EjectStage} (hp : e.phase = .ejecting (i :: todo) stage) :
    QueueInv ofMicros ((s.setSlot i
        (if (s.slots i).valid = .routed then { s.slots i with valid := .pending }
          else s.slots i)).setEntry k { e with phase := .ejecting todo .count }) := by
  have hok := hinv.entries k e he
  obtain ⟨hprog, hi, hrouted⟩ := hinv.eject_head he hp
  have hnot : i ∉ todo := (nodup_cons.mp (hprog.1.nodup hok.nodup)).1
  rw [if_pos hrouted]
  refine hinv.onSlot he (by simp [hp]) (by simp [hp]) rfl hi rfl (by simp [hrouted])
    (fun p hmem unstamped => ?_) ⟨(sublist_cons_self i todo).trans hprog.1, hprog.2⟩ (by simp)
    (by simp [hp, Phase.Releasing])
  by_cases hpi : p.1 = i
  · simp [Entry.SlotOk, hpi, hnot]
  · rw [update_of_ne hpi]
    have hslot := hok.slot p hmem
    simpa [Entry.SlotOk, hp, hpi, Entry.Decided] using hslot

lemma QueueInv.transact (hp : e.phase = .transacting) :
    QueueInv ofMicros (s.setEntry k (e.transact ofMicros)) := by
  have hok := hinv.entries k e he
  have hprog := hok.progress
  simp only [Entry.Progress, hp] at hprog
  have hdec : ∀ q ∈ e.kept, q.payload.Decodes ofMicros := by
    intro q hq
    obtain ⟨i, hi⟩ := hprog q hq
    exact hok.decodes _ hi
  refine hinv.bookkeeping he (by simp [hp]) (by simp [hp]) rfl (fun p hmem unstamped => ?_) ?_
    (by simp [Entry.transact]) (by simp [hp, Phase.Releasing])
  · have hslot := hok.slot p hmem
    simp only [Entry.SlotOk, hp] at hslot
    simp only [Entry.SlotOk, Entry.transact, mem_slots hmem, if_true]
    refine hslot.imp_left fun h => ⟨h.1, ?_, fun _ => trivial⟩
    show (p.2 ∈ (if _ then e.kept else []) ∨ p.2 ∈ e.aborted) ∧ _
    rw [if_pos hdec]
    exact h.2
  · exact List.Sublist.refl _

lemma QueueInv.finalise (hp : e.phase = .cleaning [] stage) :
    QueueInv ofMicros (s.setEntry k { e with phase := .finalised }) := by
  have hok := hinv.entries k e he
  refine hinv.bookkeeping he (by simp [hp]) (by simp [hp]) rfl (fun p hmem unstamped => ?_) ?_
    (fun _ i hi => ?_) fun _ => ⟨trivial, rfl, rfl⟩
  · trivial
  · trivial
  · obtain ⟨q, hq⟩ := exists_mem_listed hi
    have hslot := hok.slot _ hq
    simp only [Entry.SlotOk, hp, not_mem_nil, if_false] at hslot
    rintro (hbusy | hbusy) <;> simp [hbusy] at hslot

section

variable (hp : e.phase = .cleaning (i :: todo) stage)
include hp

lemma QueueInv.head_slot :
    ∃ q, (i, q) ∈ e.listed ∧ i ∉ todo ∧
      ((s.slots i).Stamped (k + 1) q ∧ e.Done s.status q ∧ stage.Sees ∨
        (s.slots i).valid = .pending) := by
  have hok := hinv.entries k e he
  have hprog := hok.progress
  simp only [Entry.Progress, hp] at hprog
  obtain ⟨q, hq⟩ := exists_mem_listed (hprog.subset mem_cons_self)
  refine ⟨q, hq, (nodup_cons.mp (hprog.nodup hok.nodup)).1, ?_⟩
  have hslot := hok.slot _ hq
  simpa [Entry.SlotOk, hp] using hslot

lemma QueueInv.release_load {stage' : ReleaseStage}
    (hsees : ∀ q, (s.slots i).Stamped (k + 1) q → stage.Sees → stage'.Sees) :
    QueueInv ofMicros (s.setEntry k { e with phase := .cleaning (i :: todo) stage' }) := by
  have hok := hinv.entries k e he
  refine hinv.bookkeeping he (by simp [hp]) (by simp [hp]) rfl (fun p hmem unstamped => ?_) ?_
    (by simp) fun _ => ⟨trivial, rfl, rfl⟩
  · have hslot := hok.slot p hmem
    simp only [Entry.SlotOk, hp] at hslot ⊢
    split
    · rename_i hin
      rw [if_pos hin] at hslot
      refine hslot.imp_left fun h => ⟨h.1, h.2.1, fun hhead => ?_⟩
      obtain rfl : i = p.1 := by simpa using hhead
      exact hsees p.2 h.1 (h.2.2 rfl)
    · rename_i hout
      rwa [if_neg hout] at hslot
  · have hprog := hok.progress
    simp only [Entry.Progress, hp] at hprog
    exact hprog

omit hinv he in
lemma Entry.SlotOk.next {j : ℕ} {us : List ℕ} (h : e.SlotOk g us status j q x) (hj : j ≠ i) :
    ({ e with phase := .cleaning todo .loadGroup }).SlotOk g us status j q x := by
  simp only [Entry.SlotOk, hp, mem_cons, hj, false_or] at h ⊢
  split
  · rename_i hin
    rw [if_pos hin] at h
    exact h.imp_left fun h => ⟨h.1, h.2.1, fun _ => trivial⟩
  · rename_i hout
    rwa [if_neg hout] at h

lemma QueueInv.release_next (hpending : (s.slots i).valid = .pending) :
    QueueInv ofMicros (s.setEntry k { e with phase := .cleaning todo .loadGroup }) := by
  have hok := hinv.entries k e he
  obtain ⟨-, -, hnot, -⟩ := hinv.head_slot he hp
  refine hinv.bookkeeping he (by simp [hp]) (by simp [hp]) rfl (fun p hmem unstamped => ?_) ?_
    (by simp) fun _ => ⟨trivial, rfl, rfl⟩
  · by_cases hpi : p.1 = i
    · simp [Entry.SlotOk, hpi, hnot, hpending]
    · exact (hok.slot p hmem).next hp hpi
  · have hprog := hok.progress
    simp only [Entry.Progress, hp] at hprog
    exact (sublist_cons_self i todo).trans hprog

lemma QueueInv.release_free (hrouted : (s.slots i).valid = .routed) :
    QueueInv ofMicros ((s.free k i).setEntry k { e with phase := .cleaning todo .loadGroup }) := by
  have hok := hinv.entries k e he
  have hprog := hok.progress
  simp only [Entry.Progress, hp] at hprog
  obtain ⟨q, hq, hnot, hhead⟩ := hinv.head_slot he hp
  have hi : i ∈ e.slots := mem_slots hq
  obtain ⟨hstamped, hdone, -⟩ := hhead.resolve_right (by simp [hrouted])
  have hon : OnGroup s ((s.free k i).setEntry k { e with phase := .cleaning todo .loadGroup }) k e
      { e with phase := .cleaning todo .loadGroup } :=
    ⟨he, by simp [hp], rfl, rfl,
      fun j hj => update_of_ne (ne_of_mem_of_not_mem hi hj).symm _ _, rfl⟩
  refine hinv.onGroup hon rfl (fun _ _ => rfl)
    (hon.routerOk hinv rfl (hinv.not_stamping he (by simp [hp])))
    (hok.update rfl (fun p hmem => ?_) ((sublist_cons_self i todo).trans hprog))
    (by simp) (fun j hj hne => ?_) (fun _ => ⟨trivial, rfl, rfl⟩) fun x hx => ?_
  · show Entry.SlotOk _ _ _ _ _ _ (Function.update s.slots i _ p.1)
    by_cases hpi : p.1 = i
    · simp [Entry.SlotOk, hpi, hnot]
    · rw [update_of_ne hpi]
      exact (hok.slot p hmem).next hp hpi
  · by_cases hji : j = i
    · subst hji
      have hempty : (Function.update s.slots j { s.slots j with valid := .empty } j).valid =
          .empty := by rw [update_self]
      exact absurd hempty hne
    · have hsame : ((s.free k i).setEntry k { e with phase := .cleaning todo .loadGroup }).slots j =
          s.slots j := update_of_ne hji _ _
      rw [hsame] at hne ⊢
      exact hinv.content j hne
  · rcases mem_cons.mp hx with rfl | hx
    · refine .inr ⟨?_, rfl, trivial, ?_, ?_⟩
      · show s.status (s.slots i).request.userTxXid ≠ .inProgress
        rw [hstamped.2.2]
        exact hdone.2
      · show (i, (s.slots i).request) ∈ e.listed
        rw [hstamped.2.2]
        exact hq
      · show (s.slots i).request ∈ e.planned ∨ (s.slots i).request ∈ e.aborted
        rw [hstamped.2.2]
        exact hdone.1
    · exact .inl hx

end

lemma QueueInv.work (h : work? ofMicros s k = some s') :
    QueueInv ofMicros s' := by
  simp only [work?, he] at h
  cases hp : e.phase with
  | published | finalised => simp [hp] at h
  | classifying =>
    simp only [hp, some.injEq] at h
    exact h ▸ hinv.classify he hp
  | transacting =>
    simp only [hp, some.injEq] at h
    exact h ▸ hinv.transact he hp
  | reading todo =>
    cases todo with
    | nil =>
      simp only [hp, some.injEq] at h
      exact h ▸ hinv.read_done he hp
    | cons i todo =>
      simp only [hp, some.injEq] at h
      exact h ▸ hinv.read_slot he hp
  | ejecting todo stage =>
    cases todo with
    | nil =>
      simp only [hp, some.injEq] at h
      exact h ▸ hinv.eject_done he hp
    | cons i todo =>
      simp only [hp, some.injEq] at h
      subst h
      cases stage with
      | count | unstamp => exact hinv.eject_mark he hp rfl rfl
      | reopen => exact hinv.eject_reopen he hp
  | cleaning todo stage =>
    cases todo with
    | nil =>
      simp only [hp, some.injEq] at h
      exact h ▸ hinv.finalise he hp
    | cons i todo =>
      simp only [hp, some.injEq] at h
      subst h
      obtain ⟨q, -, -, hhead⟩ := hinv.head_slot he hp
      cases stage with
      | loadGroup =>
        exact hinv.release_load he hp fun q hst _ => decide_eq_true hst.2.1
      | loadEject ours =>
        cases ours with
        | true => exact hinv.release_load he hp fun _ _ _ => trivial
        | false =>
          -- a slot that is still stamped would have shown the group's id
          have hpending := hhead.resolve_left fun h => Bool.false_ne_true h.2.2
          simp only [releaseStep, Bool.false_eq_true, if_false]
          split
          · exact hinv.release_load he hp fun q hst => absurd hst.1 (by simp [hpending])
          · exact hinv.release_next he hp hpending
      | swapRouted neverEjected =>
        simp only [releaseStep]
        split
        · rename_i hrouted
          exact hinv.release_free he hp hrouted
        · rename_i hrouted
          have hpending := hhead.resolve_left fun h => hrouted h.1.1
          split
          · exact hinv.release_load he hp fun q hst => absurd hst.1 hrouted
          · exact hinv.release_next he hp hpending
      | swapProcessing =>
        have hpending := hhead.resolve_left fun h => h.2.2
        simp only [releaseStep, hpending, reduceCtorEq, if_false]
        exact hinv.release_next he hp hpending

end Committer

/-! ### The router and the callers -/

section Router

variable (hinv : QueueInv ofMicros s)

include hinv

lemma QueueInv.claim (hidle : ∀ todo b, s.router ≠ .stamping (k + 1) todo b)
    (h : claim? s k = some s') : QueueInv ofMicros s' := by
  unfold claim? at h
  split at h
  · rename_i e he
    split at h
    · rename_i hp
      simp only [some.injEq] at h
      subst h
      have hok := hinv.entries k e he
      have hon : OnGroup s (s.setEntry k { e with phase := .reading e.slots }) k e
          { e with phase := .reading e.slots } := onGroup_setEntry he (by simp [hp]) rfl
      have hunst : s.router.unstamped (k + 1) = [] := by
        cases hr : s.router with
        | idle | packing todo packed => rfl
        | stamping g todo stored =>
          have hg : g ≠ k + 1 := fun hg => hidle todo stored (hg ▸ hr)
          simp [Router.unstamped, hg]
      have hread : e.read = [] := by
        have hprog := hok.progress
        simpa only [Entry.Progress, hp] using hprog
      refine hinv.onGroup hon rfl (fun _ _ => rfl) (hon.routerOk hinv rfl hidle)
        (hok.update rfl (fun p hmem => ?_) ?_) (by simp) (fun i _ => hinv.content i)
        (by simp [hp, Phase.Releasing]) fun x hx => .inl hx
      · have hslot := hok.slot p hmem
        simp only [Entry.SlotOk, hp, hunst, not_mem_nil, if_false] at hslot
        exact hslot
      · exact ⟨e.listed, by simp [hread], rfl⟩
    · simp at h
  · simp at h

lemma QueueInv.processing_of_unstamped (he : s.entries[k]? = some e)
    (hp : e.phase = .published) (hi : i ∈ e.slots) (hun : i ∈ s.router.unstamped (k + 1)) :
    (s.slots i).valid = .processing := by
  obtain ⟨q, hq⟩ := exists_mem_listed hi
  have hslot := (hinv.entries k e he).slot _ hq
  simp only [Entry.SlotOk, hp, hun, if_true] at hslot
  exact hslot.1

lemma QueueInv.enqueue {slot : ℕ} {payload : Decoded} (hdec : payload.Decodes ofMicros)
    (h : enqueue? s slot userTxXid payload = some s') : QueueInv ofMicros s' := by
  unfold enqueue? at h
  split at h
  · rename_i hcond
    simp only [some.injEq] at h
    have hempty := hcond.1
    have hself : s'.slots slot = ⟨.pending, 0, 0, ⟨s.nextRequestSeq, userTxXid, payload⟩⟩ := by
      rw [← h]
      exact update_self _ _ _
    have hother : ∀ j, j ≠ slot → s'.slots j = s.slots j := by
      intro j hj
      rw [← h]
      exact update_of_ne hj _ _
    have hentries : s'.entries = s.entries := by rw [← h]; rfl
    have hrouter : s'.router = s.router := by rw [← h]; rfl
    have hstatus : s'.status = s.status := by rw [← h]; rfl
    have hfreed : s'.freed = s.freed := by rw [← h]; rfl
    refine ⟨fun k e he => ?_, ?_, ?_, fun i hi => ?_, fun i hi => ?_, ?_⟩
    · rw [hentries] at he
      have hok := hinv.entries k e he
      refine hok.update rfl (fun p hmem => ?_) hok.progress
      rw [hrouter, hstatus]
      by_cases hps : p.1 = slot
      · have hslot := hok.slot p hmem
        rw [hps] at hslot ⊢
        exact hslot.of_empty hempty (by rw [hself])
      · rw [hother _ hps]
        exact hok.slot p hmem
    · rw [hentries]
      exact hinv.disjoint
    · have hold := hinv.router
      unfold RouterOk at hold ⊢
      rw [hrouter, hentries]
      cases hr : s.router with
      | idle => trivial
      | packing todo packed =>
        simp only [hr] at hold
        refine ⟨hold.1, fun i hi => ?_⟩
        obtain ⟨hproc, hnot⟩ := hold.2 i hi
        have hne : i ≠ slot := fun h => by simp [h, hempty] at hproc
        rw [hother i hne]
        exact ⟨hproc, hnot⟩
      | stamping g todo stored =>
        simp only [hr] at hold
        obtain ⟨hnd, l, d, rfl, hd, hpub, hsub, hcg⟩ := hold
        refine ⟨hnd, l, d, rfl, hd, hpub, hsub, fun hst i hi => ?_⟩
        have hmem : i ∈ todo := mem_of_mem_head? hi
        have hproc := hinv.processing_of_unstamped hd hpub (hsub hmem)
          (by simp [hr, Router.unstamped, hmem])
        have hne : i ≠ slot := fun h => by simp [h, hempty] at hproc
        rw [hother i hne]
        exact hcg hst i hi
    · have hne : i ≠ slot := by
        rintro rfl
        simp [Slot.Busy, hself] at hi
      rw [hother i hne] at hi
      rw [hrouter, hentries]
      exact hinv.busy i hi
    · by_cases his : i = slot
      · rw [his, hself]
        exact hdec
      · rw [hother i his] at hi ⊢
        exact hinv.content i hi
    · rw [hfreed, hentries]
      exact hinv.freed
  · simp at h

lemma QueueInv.settle {st : CallerTxStatus} (hst : st ≠ .inProgress) :
    QueueInv ofMicros
      { s with status := Function.update s.status userTxXid st } where
  entries k e he := by
    have hok := hinv.entries k e he
    refine hok.update rfl (fun p hmem => (hok.slot p hmem).of_status fun t ht => ?_) hok.progress
    show Function.update s.status userTxXid st t ≠ .inProgress
    by_cases htx : t = userTxXid
    · rw [htx, update_self]
      exact hst
    · rwa [update_of_ne htx]
  disjoint := hinv.disjoint
  router := hinv.router
  busy := hinv.busy
  content := hinv.content
  freed := hinv.freed

lemma QueueInv.reroute {r : Router} (hpacked : r.packed = s.router.packed)
    (hunst : ∀ g, r.unstamped g = s.router.unstamped g) (hok : RouterOk { s with router := r }) :
    QueueInv ofMicros { s with router := r } where
  entries k e he := by
    have hold := hinv.entries k e he
    refine hold.update rfl (fun p hmem => ?_) hold.progress
    show e.SlotOk (k + 1) (r.unstamped (k + 1)) s.status p.1 p.2 (s.slots p.1)
    rw [hunst]
    exact hold.slot p hmem
  disjoint := hinv.disjoint
  router := hok
  busy i hi := by
    show i ∈ r.packed ∨ _
    rw [hpacked]
    exact hinv.busy i hi
  content := hinv.content
  freed := hinv.freed

lemma QueueInv.pick {chunk : List ℕ} (hidle : s.router = .idle) :
    QueueInv ofMicros { s with router := .packing chunk [] } := by
  refine hinv.reroute ?_ (fun g => ?_) ⟨nodup_nil, fun i hi => absurd hi not_mem_nil⟩
  · rw [hidle]
    rfl
  · rw [hidle]
    rfl

lemma QueueInv.pack_pending {packed : List ℕ} (hr : s.router = .packing (i :: todo) packed)
    (hpending : (s.slots i).valid = .pending)
    (hfree : ∀ e ∈ s.entries, e.phase ≠ .finalised → i ∉ e.slots) :
    QueueInv ofMicros
      { s.setSlot i { s.slots i with valid := .processing } with
        router := .packing todo (packed ++ [i]) } := by
  have hrouter := hinv.router
  simp only [RouterOk, hr] at hrouter
  have hself : Function.update s.slots i { s.slots i with valid := .processing } i =
      { s.slots i with valid := .processing } := update_self _ _ _
  have hother : ∀ j, j ≠ i →
      Function.update s.slots i { s.slots i with valid := .processing } j = s.slots j :=
    fun j hj => update_of_ne hj _ _
  have hnot : i ∉ packed := fun hi => by simp [(hrouter.2 i hi).1] at hpending
  refine ⟨fun k e he => ?_, hinv.disjoint, ?_, fun j hj => ?_, fun j hj => ?_, hinv.freed⟩
  · have hold := hinv.entries k e he
    refine hold.update rfl (fun p hmem => ?_) hold.progress
    have hslot := hold.slot p hmem
    rw [hr] at hslot
    by_cases hfin : e.phase = .finalised
    · simp [Entry.SlotOk, hfin]
    · have hne : p.1 ≠ i := by
        rintro rfl
        exact hfree e (mem_of_getElem? he) hfin (mem_slots hmem)
      show e.SlotOk (k + 1) [] s.status p.1 p.2 (Function.update s.slots i _ p.1)
      rw [hother _ hne]
      exact hslot
  · refine ⟨nodup_append.mpr ⟨hrouter.1, nodup_singleton i, ?_⟩, fun j hj => ?_⟩
    · rintro a ha b hb rfl
      exact hnot (mem_singleton.mp hb ▸ ha)
    · show (Function.update s.slots i _ j).valid = .processing ∧ _
      rcases mem_append.mp hj with hj | hj
      · rw [hother j (fun h => hnot (h ▸ hj))]
        exact hrouter.2 j hj
      · obtain rfl := mem_singleton.mp hj
        rw [hself]
        exact ⟨rfl, hfree⟩
  · show j ∈ packed ++ [i] ∨ _
    by_cases hji : j = i
    · exact .inl (by simp [hji])
    · have hj' : (s.slots j).Busy := hother j hji ▸ hj
      refine (hinv.busy j hj').imp_left fun hmem => ?_
      rw [hr] at hmem
      exact mem_append_left _ hmem
  · by_cases hji : j = i
    · subst hji
      show (Function.update s.slots j _ j).request.payload.Decodes ofMicros
      rw [hself]
      exact hinv.content j (by simp [hpending])
    · have hsame := hother j hji
      show (Function.update s.slots i _ j).request.payload.Decodes ofMicros
      rw [hsame]
      exact hinv.content j (hsame ▸ hj)

lemma QueueInv.pack (hcareful : Careful ofMicros s .pack) (h : pack? s = some s') :
    QueueInv ofMicros s' := by
  unfold pack? at h
  cases hr : s.router with
  | idle | stamping g todo stored => simp [hr] at h
  | packing todo packed =>
    cases todo with
    | nil => simp [hr] at h
    | cons i todo =>
      simp only [hr] at h
      simp only [Careful, hr] at hcareful
      split at h
      · rename_i hpending
        simp only [some.injEq] at h
        exact h ▸ hinv.pack_pending hr hpending hcareful
      · simp only [some.injEq] at h
        have hrouter := hinv.router
        simp only [RouterOk, hr] at hrouter
        exact h ▸ hinv.reroute (by rw [hr]; rfl) (fun g => by rw [hr]; rfl) hrouter

lemma QueueInv.publish_group {packed : List ℕ} (hr : s.router = .packing [] packed) :
    QueueInv ofMicros { s with
      entries := s.entries ++
        [⟨packed.map fun i => (i, (s.slots i).request), .published, [], [], [], []⟩]
      router := .stamping (s.entries.length + 1) packed false } := by
  have hrouter := hinv.router
  simp only [RouterOk, hr] at hrouter
  have hslots : (⟨packed.map fun i => (i, (s.slots i).request), .published, [], [], [], []⟩ :
      Entry).slots = packed := by
    simp [Entry.slots, comp_def]
  refine ⟨fun k e he => ?_, fun k l e e' he he' hne hopen hopen' => ?_, ?_, fun i hi => ?_,
    hinv.content, fun x hx => ?_⟩
  · rcases (getElem?_append_singleton_cases he).symm with ⟨-, hold⟩ | ⟨rfl, rfl⟩
    · have hok := hinv.entries k e hold
      refine hok.update rfl (fun p hmem => ?_) hok.progress
      have hslot := hok.slot p hmem
      have hlt : k < s.entries.length := (List.getElem?_eq_some_iff.mp hold).1
      have hun : (Router.stamping (s.entries.length + 1) packed false).unstamped (k + 1) = [] := by
        simp [Router.unstamped, hlt.ne']
      rw [hr] at hslot
      show e.SlotOk (k + 1) (Router.unstamped (.stamping _ packed false) (k + 1)) s.status p.1 p.2
        (s.slots p.1)
      rw [hun]
      exact hslot
    · refine ⟨by rw [hslots]; exact hrouter.1, fun p hp => ?_, fun p hp => ?_, rfl⟩
      · obtain ⟨i, hi, rfl⟩ := List.mem_map.mp hp
        exact hinv.content i (by simp [(hrouter.2 i hi).1])
      · obtain ⟨i, hi, rfl⟩ := List.mem_map.mp hp
        have hun : i ∈ (Router.stamping (s.entries.length + 1) packed false).unstamped
            (s.entries.length + 1) := by simpa [Router.unstamped] using hi
        simp only [Entry.SlotOk]
        rw [if_pos hun]
        exact ⟨(hrouter.2 i hi).1, trivial⟩
  · rcases (getElem?_append_singleton_cases he).symm with ⟨-, hold⟩ | ⟨rfl, rfl⟩
    · rcases (getElem?_append_singleton_cases he').symm with ⟨-, hold'⟩ | ⟨rfl, rfl⟩
      · exact hinv.disjoint k l e e' hold hold' hne hopen hopen'
      · rw [hslots]
        exact fun i hi hmem => (hrouter.2 i hmem).2 e (mem_of_getElem? hold) hopen hi
    · rcases (getElem?_append_singleton_cases he').symm with ⟨-, hold'⟩ | ⟨rfl, rfl⟩
      · rw [hslots]
        exact fun i hi => (hrouter.2 i hi).2 e' (mem_of_getElem? hold') hopen'
      · exact absurd rfl hne
  · refine ⟨hrouter.1, s.entries.length, _, rfl, List.getElem?_concat_length, rfl, ?_, ?_⟩
    · rw [hslots]
      exact List.Subset.refl _
    · simp
  · rcases hinv.busy i hi with hpacked | ⟨e, he, hopen, hmem⟩
    · rw [hr] at hpacked
      exact .inr ⟨_, mem_append_right _ (mem_singleton_self _), by simp,
        by rw [hslots]; exact hpacked⟩
    · exact .inr ⟨e, mem_append_left _ he, hopen, hmem⟩
  · obtain ⟨hst, k, e, hg, he, hrest⟩ := hinv.freed x hx
    have hlt : k < s.entries.length := (List.getElem?_eq_some_iff.mp he).1
    exact ⟨hst, k, e, hg, (List.getElem?_append_left hlt).trans he, hrest⟩

lemma QueueInv.publish (h : publish? s = some s') : QueueInv ofMicros s' := by
  unfold publish? at h
  cases hr : s.router with
  | idle | stamping g todo stored => simp [hr] at h
  | packing todo packed =>
    cases todo with
    | cons i todo => simp [hr] at h
    | nil =>
      cases packed with
      | nil =>
        simp only [hr, some.injEq] at h
        exact h ▸ hinv.reroute (by rw [hr]; rfl) (fun g => by rw [hr]; rfl) trivial
      | cons i packed =>
        simp only [hr, some.injEq] at h
        exact h ▸ hinv.publish_group hr

lemma QueueInv.stamp_slot {todo' : List ℕ} {stored stored' : Bool}
    (hr : s.router = .stamping (k + 1) (i :: todo) stored) (he : s.entries[k]? = some e)
    (hp : e.phase = .published) (hi : i ∈ e.slots) (hreq : x.request = (s.slots i).request)
    (hx : if i ∈ todo' then x.valid = .processing
      else x.valid = .routed ∧ x.commitGroupId = k + 1)
    (htodo : ∀ j, j ≠ i → (j ∈ todo' ↔ j ∈ i :: todo))
    (hrouter : RouterOk { s.setSlot i x with router := .stamping (k + 1) todo' stored' }) :
    QueueInv ofMicros
      { s.setSlot i x with router := .stamping (k + 1) todo' stored' } := by
  have hok := hinv.entries k e he
  have hproc : (s.slots i).valid = .processing :=
    hinv.processing_of_unstamped he hp hi (by simp [hr, Router.unstamped])
  have hset : s.entries = s.entries.set k e := by
    obtain ⟨hlt, hget⟩ := List.getElem?_eq_some_iff.mp he
    rw [← hget, set_getElem_self]
  have hon : OnGroup s { s.setSlot i x with router := .stamping (k + 1) todo' stored' } k e e :=
    ⟨he, by simp [hp], rfl, hset,
      fun j hj => update_of_ne (ne_of_mem_of_not_mem hi hj).symm _ _, rfl⟩
  refine hinv.onGroup hon (by rw [hr]; rfl) (fun l hl => ?_) hrouter
    (hok.update rfl (fun p hmem => ?_) hok.progress) (by simp [hp]) (fun j hj hne => ?_)
    (by simp [hp, Phase.Releasing]) fun x hx => .inl hx
  · rw [hr]
    simp [Router.unstamped, hl.symm]
  · have hslot := hok.slot p hmem
    simp only [Entry.SlotOk, hp, hr, Router.unstamped, if_true] at hslot ⊢
    show if p.1 ∈ todo' then (Function.update s.slots i x p.1).valid = .processing ∧
      (Function.update s.slots i x p.1).request = p.2
      else (Function.update s.slots i x p.1).Stamped (k + 1) p.2
    by_cases hpi : p.1 = i
    · simp only [hpi, mem_cons_self, if_true] at hslot
      rw [hpi, update_self, hreq]
      split
      · rename_i hin
        rw [if_pos hin] at hx
        exact ⟨hx, hslot.2⟩
      · rename_i hout
        rw [if_neg hout] at hx
        exact ⟨hx.1, hx.2, hreq.trans hslot.2⟩
    · simp only [htodo p.1 hpi, update_of_ne hpi]
      exact hslot
  · by_cases hji : j = i
    · subst hji
      show (Function.update s.slots j x j).request.payload.Decodes ofMicros
      rw [update_self, hreq]
      exact hinv.content j (by simp [hproc])
    · have hsame : Function.update s.slots i x j = s.slots j := update_of_ne hji _ _
      show (Function.update s.slots i x j).request.payload.Decodes ofMicros
      rw [hsame]
      exact hinv.content j (hsame ▸ hne)

lemma QueueInv.stamp (h : stamp? s = some s') : QueueInv ofMicros s' := by
  unfold stamp? at h
  cases hr : s.router with
  | idle | packing todo packed => simp [hr] at h
  | stamping g todo stored =>
    cases todo with
    | nil =>
      simp only [hr, some.injEq] at h
      exact h ▸ hinv.reroute (by rw [hr]; rfl)
        (fun g' => by rw [hr]; simp [Router.unstamped]) trivial
    | cons i todo =>
      have hrouter := hinv.router
      simp only [RouterOk, hr] at hrouter
      obtain ⟨hnd, k, e, rfl, he, hp, hsub, hcg⟩ := hrouter
      have hi : i ∈ e.slots := hsub mem_cons_self
      have hproc : (s.slots i).valid = .processing :=
        hinv.processing_of_unstamped he hp hi (by simp [hr, Router.unstamped])
      cases stored with
      | false =>
        simp only [hr, some.injEq] at h
        subst h
        refine hinv.stamp_slot hr he hp hi rfl (by simp [hproc]) (fun j _ => Iff.rfl) ?_
        refine ⟨hnd, k, e, rfl, he, hp, hsub, fun _ j hj => ?_⟩
        obtain rfl : i = j := by simpa using hj
        show (Function.update s.slots i _ i).commitGroupId = k + 1
        rw [update_self]
      | true =>
        simp only [hr, some.injEq, hproc, if_true] at h
        subst h
        have hnot : i ∉ todo := (nodup_cons.mp hnd).1
        refine hinv.stamp_slot hr he hp hi rfl ?_ (fun j hj => by simp [hj]) ?_
        · rw [if_neg hnot]
          exact ⟨rfl, hcg rfl i rfl⟩
        · exact ⟨(nodup_cons.mp hnd).2, k, e, rfl, he, hp,
            fun j hj => hsub (mem_cons_of_mem i hj), by simp⟩

end Router

/-! ### Runs -/

lemma QueueInv.exec? {m : QueueMove} (hinv : QueueInv ofMicros s)
    (hcareful : Careful ofMicros s m) (h : s.exec? ofMicros m = some s') :
    QueueInv ofMicros s' := by
  cases m with
  | enqueue slot userTxXid payload => exact hinv.enqueue hcareful h
  | settle userTxXid status =>
    simp only [QueueState.exec?] at h
    split at h
    · rename_i hcond
      simp only [some.injEq] at h
      exact h ▸ hinv.settle hcond.2
    · simp at h
  | pick chunk =>
    simp only [QueueState.exec?] at h
    split at h
    · rename_i hcond
      simp only [some.injEq] at h
      exact h ▸ hinv.pick hcond.1
    · simp at h
  | pack => exact hinv.pack hcareful h
  | publish => exact hinv.publish h
  | stamp => exact hinv.stamp h
  | claim k =>
    refine hinv.claim (fun todo b hr => ?_) h
    simp [Careful, hr] at hcareful
  | work k =>
    simp only [QueueState.exec?] at h
    cases he : s.entries[k]? with
    | none => simp [work?, he] at h
    | some e => exact hinv.work he h

lemma queueInv_init : QueueInv ofMicros {} where
  entries k e he := by simp at he
  disjoint k l e e' he := by simp at he
  router := trivial
  busy i hi := by simp [Slot.Busy] at hi
  content i hi := by simp at hi
  freed x hx := by simp at hx

/-- From the empty queue, in every run whose moves are all careful, no submission is lost in any
state reached. -/
theorem lossless_of_careful (ofMicros : ℤ → Option ℤ) (moves : List QueueMove)
    (h : Machine.Throughout (QueueState.exec? ofMicros) (Careful ofMicros) {} moves) :
    Lossless (Machine.run (QueueState.exec? ofMicros) {} moves) :=
  (Machine.run_invariant_of_throughout (P := QueueInv ofMicros)
    (fun _ _ _ hex hC hinv => hinv.exec? hC hex) queueInv_init moves h).lossless

/-- One submission through the queue: its caller commits, the router stamps its group, and the
committer writes and releases it. -/
def smoothRun : List QueueMove :=
  [.enqueue 0 1 (issueOf 1 5), .settle 1 .committed, .pick [0], .pack, .publish, .stamp, .stamp,
    .stamp, .claim 0, .work 0, .work 0, .work 0, .work 0, .work 0, .work 0, .work 0, .work 0,
    .work 0]

theorem lossless_smoothRun :
    Machine.Throughout (QueueState.exec? some) (Careful some) {} smoothRun ∧
      Lossless (Machine.run (QueueState.exec? some) {} smoothRun) :=
  ⟨by decide +kernel, lossless_of_careful some smoothRun (by decide +kernel)⟩

/-! ### Careless runs -/

lemma Lossless.all_settled (h : Lossless s) :
    (s.freed.all fun x => x.status ≠ .inProgress) = true := by
  simpa using h.settled

/-- The committer is ahead of the router: its eject finds the slot processing and does not reopen
it, the router stamps it, and the release takes it for the group's own. -/
def ejectedTooEarly : List QueueMove :=
  [.enqueue 0 1 (issueOf 1 5), .pick [0], .pack, .publish, .claim 0, .work 0, .work 0, .work 0,
    .work 0, .work 0, .work 0, .stamp, .stamp, .work 0, .work 0, .work 0, .work 0, .work 0]

/-- The release loads the group id before the router stores it, and swaps after the router did. -/
def releasedTooEarly : List QueueMove :=
  [.enqueue 0 1 (issueOf 1 5), .settle 1 .committed, .pick [0], .pack, .publish, .claim 0, .work 0,
    .work 0, .work 0, .work 0, .work 0, .work 0, .stamp, .stamp, .work 0, .work 0, .work 0]

/-- Group 1 ejects a slot; group 2 commits it and releases the slot; a new submission is packed
there when group 1 comes to release its slots. -/
def recycledSlot : List QueueMove :=
  [.enqueue 0 1 (issueOf 1 5), .pick [0], .pack, .publish, .stamp, .stamp, .stamp, .claim 0,
    .work 0,
    .work 0, .work 0, .work 0, .work 0, .work 0, .settle 1 .committed, .pick [0], .pack, .publish,
    .stamp, .stamp, .stamp, .claim 1, .work 1, .work 1, .work 1, .work 1, .work 1, .work 1, .work 1,
    .work 1, .work 1, .enqueue 0 2 (issueOf 2 5), .pick [0], .pack, .work 0, .work 0, .work 0,
    .work 0, .work 0]

/-- Two of the runs release a submission whose caller is running; one leaves a slot routed, with no
group at work on it. -/
theorem not_lossless :
    ¬ Lossless (Machine.run (QueueState.exec? some) {} ejectedTooEarly) ∧
      ¬ Lossless (Machine.run (QueueState.exec? some) {} releasedTooEarly) ∧
      ¬ Lossless (Machine.run (QueueState.exec? some) {} recycledSlot) := by
  refine ⟨fun h => ?_, fun h => ?_, fun h => ?_⟩
  · exact absurd h.all_settled (by decide +kernel)
  · exact absurd (h.routed 0 (by decide +kernel)) (by decide +kernel)
  · exact absurd h.all_settled (by decide +kernel)

end Acct.V3
