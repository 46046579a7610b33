import Acct.Machine.Tickets
import Acct.V3.Routed.QueueSafety

/-!
# Where a submission of the routed queue is

A submission leaves its slot when a committer swaps the state word to 0. So no interleaving loses a
submission from its slot, puts it in two slots or releases it twice (`submissions_conserved`), even
where it is released too early (`not_lossless`). Who may work on the slot is another matter: with
the conditions of `lossless_of_careful`, the router or one open group (`ownedOnce_of_careful`).
-/

namespace Acct.V3

open Machine List Function

variable {ofMicros : ℤ → Option ℤ} {s s' : QueueState} {k i : ℕ} {e : Entry} {x : Slot}
  {todo : List ℕ}

/-! ### Submissions -/

namespace QueueState

/-- The number of the submission in a slot. -/
def held (s : QueueState) (i : ℕ) : Option ℕ :=
  if (s.slots i).valid = .empty then none else some (s.slots i).request.requestSeq

def returned (s : QueueState) : List ℕ := s.freed.map (·.request.requestSeq)

/-- What a move can do to the submissions. -/
inductive Passes (s s' : QueueState) : Prop
  | keep (hheld : s'.held = s.held) (hfreed : s'.freed = s.freed)
      (hnext : s'.nextRequestSeq = s.nextRequestSeq)
  | takeIn (i : ℕ) (hi : s.held i = none)
      (hheld : s'.held = update s.held i (some s.nextRequestSeq)) (hfreed : s'.freed = s.freed)
      (hnext : s'.nextRequestSeq = s.nextRequestSeq + 1)
  | giveBack (i n : ℕ) (hi : s.held i = some n) (hheld : s'.held = update s.held i none)
      (hreturned : s'.returned = n :: s.returned) (hnext : s'.nextRequestSeq = s.nextRequestSeq)

lemma held_setSlot (s : QueueState) (i : ℕ) (x : Slot) : (s.setSlot i x).held =
    update s.held i (if x.valid = .empty then none else some x.request.requestSeq) := by
  funext j
  by_cases hj : j = i <;> simp [held, setSlot, hj]

lemma held_setSlot_same (hv : x.valid = .empty ↔ (s.slots i).valid = .empty)
    (hr : x.request = (s.slots i).request) : (s.setSlot i x).held = s.held := by
  rw [held_setSlot, update_eq_self_iff, hr]
  simp [held, hv]

/-- A compare-and-swap between states in use. -/
lemma held_swap {a b : Valid} (ha : a ≠ .empty) (hb : b ≠ .empty) : (s.setSlot i
    (if (s.slots i).valid = a then { s.slots i with valid := b } else s.slots i)).held =
      s.held := by
  refine held_setSlot_same ?_ ?_ <;> split_ifs with hv <;> simp [hv, ha, hb]

lemma passes_free (e : Entry) (hi : (s.slots i).valid ≠ .empty) :
    Passes s ((s.free k i).setEntry k e) :=
  .giveBack i _ (if_neg hi) ((held_setSlot s i _).trans (by simp)) rfl rfl

lemma passes_pack (h : pack? s = some s') : Passes s s' := by
  unfold pack? at h
  split at h
  next i todo packed hr =>
    dsimp only at h
    split_ifs at h with hv <;> cases h
    · exact .keep (held_setSlot_same (by simp [hv]) rfl) rfl rfl
    · exact .keep rfl rfl rfl
  next => cases h

lemma passes_publish (h : publish? s = some s') : Passes s s' := by
  unfold publish? at h
  split at h <;> cases h <;> exact .keep rfl rfl rfl

lemma passes_stamp (h : stamp? s = some s') : Passes s s' := by
  unfold stamp? at h
  split at h <;> cases h
  · exact .keep rfl rfl rfl
  · exact .keep (held_setSlot_same .rfl rfl) rfl rfl
  · exact .keep (held_swap nofun nofun) rfl rfl

lemma passes_ejectStep (stage : EjectStage) : Passes s (ejectStep s k e i todo stage) := by
  cases stage with
  | count | unstamp => exact .keep (held_setSlot_same .rfl rfl) rfl rfl
  | reopen => exact .keep (held_swap nofun nofun) rfl rfl

lemma passes_releaseStep (stage : ReleaseStage) : Passes s (releaseStep s k e i todo stage) := by
  cases stage with
  | loadGroup => exact .keep rfl rfl rfl
  | loadEject ours =>
    simp only [releaseStep]
    split_ifs <;> exact .keep rfl rfl rfl
  | swapRouted neverEjected =>
    simp only [releaseStep]
    split_ifs with hv
    · exact passes_free _ (by simp [hv])
    all_goals exact .keep rfl rfl rfl
  | swapProcessing =>
    simp only [releaseStep]
    split_ifs with hv
    · exact passes_free _ (by simp [hv])
    · exact .keep rfl rfl rfl

lemma passes_work (h : work? ofMicros s k = some s') : Passes s s' := by
  unfold work? at h
  split at h
  next => cases h
  next e he =>
    split at h <;> cases h
    case h_6 => exact passes_ejectStep _
    case h_9 => exact passes_releaseStep _
    all_goals exact .keep rfl rfl rfl

lemma passes_exec? {m : QueueMove} (h : s.exec? ofMicros m = some s') : Passes s s' := by
  cases m with
  | enqueue slot xid payload =>
    simp only [exec?, enqueue?] at h
    split_ifs at h with hfree
    cases h
    exact .takeIn slot (if_pos hfree.1) (held_setSlot s slot _) rfl rfl
  | settle xid status | pick chunk =>
    simp only [exec?] at h
    split_ifs at h
    cases h
    exact .keep rfl rfl rfl
  | pack => exact passes_pack h
  | publish => exact passes_publish h
  | stamp => exact passes_stamp h
  | claim k =>
    simp only [exec?, claim?] at h
    split at h
    · split at h <;> cases h
      exact .keep rfl rfl rfl
    · cases h
  | work k => exact passes_work h

end QueueState

/-- **Submissions are conserved.** In every run from the empty queue, careful or not, a submission
that was put in is in one slot or was released once, and not both. -/
theorem submissions_conserved (ofMicros : ℤ → Option ℤ) (moves : List QueueMove) :
    Conserved (run (QueueState.exec? ofMicros) {} moves).held
      (run (QueueState.exec? ofMicros) {} moves).returned
      (run (QueueState.exec? ofMicros) {} moves).nextRequestSeq := by
  refine run_invariant (P := fun s : QueueState => Conserved s.held s.returned s.nextRequestSeq)
    ?_ .init moves
  intro s m s' hex h
  cases QueueState.passes_exec? hex with
  | keep hheld hfreed hnext =>
    rw [hheld, hnext, QueueState.returned, hfreed]
    exact h
  | takeIn i hi hheld hfreed hnext =>
    rw [hheld, hnext, QueueState.returned, hfreed]
    exact h.takeIn hi
  | giveBack i n hi hheld hreturned hnext =>
    rw [hheld, hreturned, hnext]
    exact h.giveBack hi

/-! ### Slots -/

/-- The router holds the slot outside all open groups, or one open group lists it and no other. -/
def QueueState.OwnedOnce (s : QueueState) (i : ℕ) : Prop :=
  (i ∈ s.router.packed ∧ ∀ e ∈ s.entries, e.phase ≠ .finalised → i ∉ e.slots) ∨
    i ∉ s.router.packed ∧ ∃ (k : ℕ) (e : Entry), s.entries[k]? = some e ∧ e.phase ≠ .finalised ∧
      i ∈ e.slots ∧ ∀ (l : ℕ) (d : Entry), s.entries[l]? = some d → d.phase ≠ .finalised →
        i ∈ d.slots → l = k

lemma QueueInv.ownedOnce (h : QueueInv ofMicros s) (hi : (s.slots i).Busy) : s.OwnedOnce i := by
  by_cases hpacked : i ∈ s.router.packed
  · refine .inl ⟨hpacked, ?_⟩
    have hrouter := h.router
    unfold RouterOk at hrouter
    cases hr : s.router with
    | packing todo packed =>
      simp only [hr] at hrouter hpacked
      exact (hrouter.2 i hpacked).2
    | _ => simp [hr, Router.packed] at hpacked
  · obtain ⟨e, hmem, hopen, hslot⟩ := (h.busy i hi).resolve_left hpacked
    obtain ⟨k, he⟩ := mem_iff_getElem?.mp hmem
    refine .inr ⟨hpacked, k, e, he, hopen, hslot, fun l d hd hopen' hslot' => ?_⟩
    by_contra hne
    exact h.disjoint l k d e hd he hne hopen' hopen i hslot' hslot

/-- **A slot at work has one owner.** In every run whose moves are all careful, a slot that is being
processed or routed is in the router's hands or in one open group, never in two. -/
theorem ownedOnce_of_careful (ofMicros : ℤ → Option ℤ) (moves : List QueueMove)
    (h : Throughout (QueueState.exec? ofMicros) (Careful ofMicros) {} moves) (i : ℕ)
    (hi : ((run (QueueState.exec? ofMicros) {} moves).slots i).Busy) :
    (run (QueueState.exec? ofMicros) {} moves).OwnedOnce i :=
  (run_invariant_of_throughout (fun _ _ _ hex hC (hinv : QueueInv ofMicros _) =>
    hinv.exec? hC hex) queueInv_init moves h).ownedOnce hi

theorem ownedOnce_packed :
    Throughout (QueueState.exec? some) (Careful some) {} (smoothRun.take 4) ∧
      (run (QueueState.exec? some) {} (smoothRun.take 4)).OwnedOnce 0 :=
  ⟨by decide +kernel, ownedOnce_of_careful some _ (by decide +kernel) 0 (.inl (by decide +kernel))⟩

end Acct.V3
