import Acct.V21.CallerCheck
import Mathlib.Data.List.Induction
import Mathlib.Order.Nat

/-!
# Who is ejected

The check ejects the entry at the event's position. It does what it is for (`EjectsRight`) exactly
if the events of running callers stand where their entries do, up to entries beyond the limits
(`Aligned`, `ejectsRight_iff`). A completion has several events and a payload that does not parse
has none, so the two drift apart.
-/

namespace Acct.V21

open List

variable (lim : Limits) (status : ℕ → CallerStatus)

/-- The entry's caller is still in progress, whatever the payload. -/
def StagingEntry.Running (s : StagingEntry) : Prop :=
  status s.userTxXid = .inProgress

def RunningAt (events : List Event) (i : ℕ) : Prop :=
  ∃ e ∈ events[i]?, status e.userTxXid = .inProgress

/-- The check does not panic. The entries set back to pending are those of the running callers
within the limits, each with one eject more, and the events kept are those of the committed
callers. -/
def EjectsRight (batch : List StagingEntry) : Prop :=
  ∃ x, callerCheck lim status batch = some x ∧
    x.kept = (batch.filter (status ·.userTxXid = .committed)).flatMap (·.events) ∧
    (∀ i, i ∈ x.requeue ↔ ∃ s ∈ batch[i]?, s.Running status ∧ s.Within lim) ∧
    ∀ i ∈ x.requeue, ∀ s ∈ batch[i]?,
      x.slots[i]? = some { s with ejectCount := s.ejectCount + 1 }

/-- No event of a running caller stands beyond the batch, and one stands at the place of an entry
within the limits iff the entry's own caller is running. -/
def Aligned (batch : List StagingEntry) : Prop :=
  ∀ i, (RunningAt status (batch.flatMap (·.events)) i → i < batch.length) ∧
    ∀ s ∈ batch[i]?, s.Within lim →
      (RunningAt status (batch.flatMap (·.events)) i ↔ s.Running status)

variable {lim status}

/-- What the loop has done after `events`. -/
structure Checked (lim : Limits) (status : ℕ → CallerStatus) (batch : List StagingEntry)
    (events : List Event) (x : CallerCheck) : Prop where
  bounds : ∀ i, RunningAt status events i → i < batch.length
  kept : x.kept = events.filter (status ·.userTxXid = .committed)
  requeue : ∀ i, i ∈ x.requeue ↔ RunningAt status events i ∧ ∃ s ∈ batch[i]?, s.Within lim
  ejected : ∀ i, RunningAt status events i →
    x.slots[i]? = batch[i]?.map fun s => { s with ejectCount := s.ejectCount + 1 }
  other : ∀ i, ¬ RunningAt status events i → x.slots[i]? = batch[i]?

variable {batch : List StagingEntry} {events : List Event} {x : CallerCheck} {e : Event} {i : ℕ}

lemma runningAt_append : RunningAt status (events ++ [e]) i ↔
    RunningAt status events i ∨ i = events.length ∧ status e.userTxXid = .inProgress := by
  unfold RunningAt
  rcases lt_trichotomy i events.length with hlt | rfl | hgt
  · simp [getElem?_append_left hlt, hlt.ne]
  · simp
  · simp [getElem?_append_right hgt.le, getElem?_eq_none hgt.le, hgt.ne',
      Nat.sub_ne_zero_of_lt hgt]

lemma not_runningAt_length : ¬ RunningAt status events events.length := by simp [RunningAt]

lemma Checked.skip (h : Checked lim status batch events x) (he : status e.userTxXid ≠ .inProgress)
    {x' : CallerCheck} (hslots : x'.slots = x.slots) (hrequeue : x'.requeue = x.requeue)
    (hkept : x'.kept = x.kept ++ [e].filter (status ·.userTxXid = .committed)) :
    Checked lim status batch (events ++ [e]) x' := by
  have hsame : ∀ i, RunningAt status (events ++ [e]) i ↔ RunningAt status events i := by
    intro i
    simp [runningAt_append, he]
  refine ⟨?_, ?_, ?_, ?_, ?_⟩
  · simpa only [hsame] using h.bounds
  · rw [hkept, h.kept, filter_append]
  · simpa only [hsame, hrequeue] using h.requeue
  · simpa only [hsame, hslots] using h.ejected
  · simpa only [hsame, hslots] using h.other

lemma Checked.eject (h : Checked lim status batch events x) (he : status e.userTxXid = .inProgress)
    {s : StagingEntry} (hs : batch[events.length]? = some s) {x' : CallerCheck}
    (hslots : x'.slots = x.slots.set events.length { s with ejectCount := s.ejectCount + 1 })
    (hrequeue : ∀ i, i ∈ x'.requeue ↔ i ∈ x.requeue ∨ i = events.length ∧ s.Within lim)
    (hkept : x'.kept = x.kept) : Checked lim status batch (events ++ [e]) x' where
  bounds i hi := by
    rcases runningAt_append.mp hi with hi | ⟨rfl, -⟩
    · exact h.bounds i hi
    · exact (List.getElem?_eq_some_iff.mp hs).1
  kept := by simp [hkept, h.kept, he]
  requeue i := by
    rw [hrequeue, h.requeue, runningAt_append, or_and_right]
    refine or_congr_right ⟨?_, ?_⟩
    · rintro ⟨rfl, hwithin⟩
      exact ⟨⟨rfl, he⟩, s, hs, hwithin⟩
    · rintro ⟨⟨rfl, -⟩, s', hs', hwithin⟩
      obtain rfl := Option.some.inj (hs.symm.trans hs')
      exact ⟨rfl, hwithin⟩
  ejected i hi := by
    rw [hslots]
    rcases runningAt_append.mp hi with hi | ⟨rfl, -⟩
    · have hne : events.length ≠ i := fun heq => not_runningAt_length (heq ▸ hi)
      rw [getElem?_set_ne hne, h.ejected i hi]
    · have hold := h.other _ not_runningAt_length
      rw [hs] at hold ⊢
      rw [getElem?_set_self (List.getElem?_eq_some_iff.mp hold).1]
      rfl
  other i hi := by
    rw [runningAt_append, not_or, not_and] at hi
    have hne : events.length ≠ i := fun heq => hi.2 heq.symm he
    rw [hslots, getElem?_set_ne hne, h.other i hi.1]

lemma Checked.check (h : Checked lim status batch events x) (e : Event) :
    (x.check lim status events.length e).elim
      (∃ i, RunningAt status (events ++ [e]) i ∧ batch.length ≤ i)
      (Checked lim status batch (events ++ [e])) := by
  unfold CallerCheck.check
  cases he : status e.userTxXid with
  | aborted | committed => exact h.skip (by simp [he]) rfl rfl (by simp [he])
  | inProgress =>
    rw [h.other _ not_runningAt_length]
    cases hs : batch[events.length]? with
    | none =>
      exact ⟨events.length, runningAt_append.mpr (.inr ⟨rfl, he⟩), getElem?_eq_none_iff.mp hs⟩
    | some s =>
      show Checked lim status batch (events ++ [e]) _
      split_ifs with hwithin
      · exact h.eject he hs rfl (by simp [hwithin]) rfl
      · exact h.eject he hs rfl (by simp [hwithin]) rfl

lemma checkEvents_append : checkEvents lim status batch (events ++ [e]) =
    (checkEvents lim status batch events).bind fun x => x.check lim status events.length e := by
  simp [checkEvents, zipIdx_append, foldlM_append]

lemma checkEvents_spec (events : List Event) : (checkEvents lim status batch events).elim
    (∃ i, RunningAt status events i ∧ batch.length ≤ i) (Checked lim status batch events) := by
  induction events using reverseRecOn with
  | nil =>
    have hnone : ∀ i, ¬ RunningAt status [] i := by simp [RunningAt]
    exact ⟨fun i hi => absurd hi (hnone i), rfl, by simp [hnone], fun i hi => absurd hi (hnone i),
      fun _ _ => rfl⟩
  | append_singleton events e ih =>
    rw [checkEvents_append]
    cases hx : checkEvents lim status batch events with
    | none =>
      rw [hx] at ih
      obtain ⟨i, hi, hle⟩ := ih
      exact ⟨i, runningAt_append.mpr (.inl hi), hle⟩
    | some x =>
      rw [hx] at ih
      exact Checked.check ih e

lemma filter_flatMap_events (batch : List StagingEntry) :
    (batch.flatMap (·.events)).filter (status ·.userTxXid = .committed) =
      (batch.filter (status ·.userTxXid = .committed)).flatMap (·.events) := by
  have hxid : ∀ s : StagingEntry, ∀ e ∈ s.events, e.userTxXid = s.userTxXid := by
    intro s e he
    unfold StagingEntry.events at he
    split at he
    · obtain ⟨m, -, rfl⟩ := mem_map.mp he
      rfl
    · cases he
  induction batch with
  | nil => rfl
  | cons s batch ih =>
    rw [flatMap_cons, filter_append, ih]
    by_cases hs : status s.userTxXid = .committed
    · rw [filter_eq_self.mpr fun e he => by simp [hxid s e he, hs]]
      simp [hs]
    · rw [filter_eq_nil_iff.mpr fun e he => by simp [hxid s e he, hs]]
      simp [hs]

/-- **The check ejects the right envelopes** iff events and entries are aligned. -/
theorem ejectsRight_iff (lim : Limits) (status : ℕ → CallerStatus) (batch : List StagingEntry) :
    EjectsRight lim status batch ↔ Aligned lim status batch := by
  have hspec := @checkEvents_spec lim status batch (batch.flatMap (·.events))
  constructor
  · rintro ⟨x, hx, -, hrequeue, -⟩ i
    rw [callerCheck] at hx
    rw [hx] at hspec
    refine ⟨hspec.bounds i, fun s hs hwithin => ?_⟩
    have hiff := (hspec.requeue i).symm.trans (hrequeue i)
    constructor
    · intro hrun
      obtain ⟨s', hs', hrunning, -⟩ := hiff.mp ⟨hrun, s, hs, hwithin⟩
      rwa [Option.mem_unique hs hs']
    · exact fun hrunning => (hiff.mpr ⟨s, hs, hrunning, hwithin⟩).1
  · intro h
    cases hx : checkEvents lim status batch (batch.flatMap (·.events)) with
    | none =>
      rw [hx] at hspec
      obtain ⟨i, hi, hle⟩ := hspec
      exact absurd ((h i).1 hi) (by omega)
    | some x =>
      rw [hx] at hspec
      refine ⟨x, hx, hspec.kept.trans (filter_flatMap_events batch), fun i => ?_,
        fun i hi s hs => ?_⟩
      · rw [hspec.requeue]
        constructor
        · rintro ⟨hrun, s, hs, hwithin⟩
          exact ⟨s, hs, ((h i).2 s hs hwithin).mp hrun, hwithin⟩
        · rintro ⟨s, hs, hrunning, hwithin⟩
          exact ⟨((h i).2 s hs hwithin).mpr hrunning, s, hs, hwithin⟩
      · rw [hspec.ejected i ((hspec.requeue i).mp hi).1, hs]
        rfl

def runningCompletion : StagingEntry where
  correlationId := 1
  userTxXid := 7
  payload := .woComplete [⟨1, 1, 2, 0⟩] ⟨2, 1, 1, 0⟩

/-- The second event of a completion is looked up beyond the batch. -/
theorem not_ejectsRight_runningCompletion :
    callerCheck ⟨3, 1000, 0⟩ (fun _ => .inProgress) [runningCompletion] = none ∧
      ¬ EjectsRight ⟨3, 1000, 0⟩ (fun _ => .inProgress) [runningCompletion] := by
  have hpanic : callerCheck ⟨3, 1000, 0⟩ (fun _ => .inProgress) [runningCompletion] = none := by
    decide
  refine ⟨hpanic, ?_⟩
  rintro ⟨x, hx, -⟩
  cases hpanic.symm.trans hx

end Acct.V21
