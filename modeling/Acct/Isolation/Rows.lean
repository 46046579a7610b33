import Acct.Isolation.Logic

/-!
# Constraints on single rows

A constraint that speaks of one row at a time, and that every write checks for the rows it locks
against others, holds in every session's view and so in every committed database: while a session
holds such a lock nobody else changes the row.
-/

namespace Acct.Isolation

variable {D W R ε : Type*} {S : Schema D W R ε} {Same : R → D → D → Prop} {Ok : R → D → Prop}
  {ws ws' w : List W} {L L' : List (R × RowLock)} {r : R} {d d' db : D}

lemma RowLock.conflicts_of_self {m m' : RowLock} (h : m.conflicts m = true)
    (h' : m'.conflicts m' = true) : m.conflicts m' = true := by
  cases m <;> cases m' <;> simp_all [RowLock.conflicts]

def Held (r : R) (L : List (R × RowLock)) : Prop := ∃ m, (r, m) ∈ L ∧ m.conflicts m = true

lemma Held.mono (h : Held r L) (hsub : ∀ l ∈ L, l ∈ L') : Held r L' := by
  obtain ⟨m, hm, hc⟩ := h
  exact ⟨m, hsub _ hm, hc⟩

lemma Held.not_held (h : Held r L) (hcomp : Compatible L L') : ¬ Held r L' := by
  rintro ⟨m', hm', hc'⟩
  obtain ⟨m, hm, hc⟩ := h
  exact hcomp.not_mem hm (RowLock.conflicts_of_self hc hc') hm'

/-- `Same r` relates databases with the same row `r`, and `Ok r` is the constraint on it. -/
structure RowWise (S : Schema D W R ε) (Same : R → D → D → Prop) (Ok : R → D → Prop) : Prop where
  refl : ∀ r d, Same r d d
  trans : ∀ r d d' d'', Same r d d' → Same r d' d'' → Same r d d''
  ok : ∀ r d d', Same r d d' → Ok r d → Ok r d'
  apply : ∀ w r d d', Same r d d' → Same r (S.apply w d) (S.apply w d')
  frame : ∀ w r d, ¬ Held r (S.locks w) → Same r d (S.apply w d)
  check : ∀ w r d, Ok r d → S.check w d = .ok () → Ok r (S.apply w d)

namespace RowWise

lemma applyAll (hR : RowWise S Same Ok) (h : Same r d d') :
    Same r (S.applyAll ws d) (S.applyAll ws d') := by
  induction ws generalizing d d' with
  | nil => exact h
  | cons w ws ih => exact ih (hR.apply w r d d' h)

lemma same_applyAll (hR : RowWise S Same Ok) (h : ¬ Held r (ws.flatMap S.locks)) :
    Same r d (S.applyAll ws d) := by
  induction ws generalizing d with
  | nil => exact hR.refl r d
  | cons w ws ih =>
    have hw : ¬ Held r (S.locks w) := fun hr => h (hr.mono (by simp +contextual))
    have hws : ¬ Held r (ws.flatMap S.locks) := fun hr => h (hr.mono (by simp +contextual))
    exact hR.trans r _ _ _ (hR.frame w r d hw) (ih hws)

lemma ok_of_perform (hR : RowWise S Same Ok) (h : Ok r d) (hp : S.perform ws d = .ok d') :
    Ok r d' := by
  induction ws generalizing d with
  | nil =>
    cases hp
    exact h
  | cons w ws ih =>
    rw [Schema.perform] at hp
    split at hp
    next => cases hp
    next hw => exact ih (hR.check w r d h hw) hp

end RowWise

structure Guarded (S : Schema D W R ε) (Ok : R → D → Prop) (ws : List W) (L : List (R × RowLock))
    (db : D) : Prop where
  covered : ∀ l ∈ ws.flatMap S.locks, l ∈ L
  ok : ∀ r, Ok r (S.applyAll ws db)

namespace Guarded

lemma nil (h : ∀ r, Ok r db) : Guarded S Ok [] [] db where
  covered := by simp
  ok := h

lemma cons (l : R × RowLock) (h : Guarded S Ok ws L db) : Guarded S Ok ws (l :: L) db where
  covered l' hl' := List.mem_cons_of_mem l (h.covered l' hl')
  ok := h.ok

lemma perform (hR : RowWise S Same Ok) (h : Guarded S Ok ws L db)
    (hp : S.perform w (S.applyAll ws db) = .ok d) :
    Guarded S Ok (ws ++ w) (w.flatMap S.locks ++ L) db where
  covered l hl := by
    rw [List.flatMap_append, List.mem_append] at hl
    exact List.mem_append.mpr (hl.symm.imp_right (h.covered l))
  ok r := by
    rw [Schema.applyAll_append, ← Schema.eq_applyAll_of_perform hp]
    exact hR.ok_of_perform (h.ok r) hp

lemma same_of_compatible (hR : RowWise S Same Ok) (h' : Guarded S Ok ws' L' db)
    (hcomp : Compatible L L') (hr : Held r L) :
    Same r (S.applyAll ws db) (S.applyAll ws (S.applyAll ws' db)) :=
  hR.applyAll (hR.same_applyAll fun hr' => hr.not_held hcomp (hr'.mono h'.covered))

lemma commit (hR : RowWise S Same Ok) (h : Guarded S Ok ws L db) (h' : Guarded S Ok ws' L' db)
    (hcomp : Compatible L L') : Guarded S Ok ws L (S.applyAll ws' db) where
  covered := h.covered
  ok r := by
    by_cases hr : Held r L
    · exact hR.ok r _ _ (h'.same_of_compatible hR hcomp hr) (h.ok r)
    · -- The session has not written the row: it sees the one just committed.
      have hfree : ¬ Held r (ws.flatMap S.locks) := fun hr' => hr (hr'.mono h.covered)
      exact hR.ok r _ _ (hR.same_applyAll hfree) (h'.ok r)

end Guarded

end Acct.Isolation
