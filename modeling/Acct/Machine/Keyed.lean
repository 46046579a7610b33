import Mathlib.Data.List.Basic

/-!
# Machines made of independent components

An action works on the component it names. A list of actions runs through iff at every key the
actions of that key do (`keyedRun_eq_some_iff`), so only the order of the actions of one key matters
(`keyedRun_congr`).
-/

namespace Acct.Machine

variable {α β κ : Type*} [DecidableEq κ] (key : α → κ) (act : β → α → Option β)

def keyedStep (B : κ → β) (a : α) : Option (κ → β) :=
  (act (B (key a)) a).map (Function.update B (key a))

def keyedRun (B : κ → β) (as : List α) : Option (κ → β) := as.foldlM (keyedStep key act) B

variable {key act}

lemma keyedRun_cons {B B' : κ → β} {a : α} {as : List α} :
    keyedRun key act B (a :: as) = some B' ↔
      ∃ b, act (B (key a)) a = some b ∧
        keyedRun key act (Function.update B (key a) b) as = some B' := by
  unfold keyedRun keyedStep
  rw [List.foldlM_cons]
  simp [Option.bind_eq_some_iff]

theorem keyedRun_eq_some_iff {B B' : κ → β} {as : List α} :
    keyedRun key act B as = some B' ↔
      ∀ k, (as.filter (key · = k)).foldlM act (B k) = some (B' k) := by
  induction as generalizing B with
  | nil =>
    have hnil : keyedRun key act B [] = some B' ↔ B = B' := by simp [keyedRun]
    rw [hnil, funext_iff]
    simp
  | cons a as ih =>
    -- the head acts at its own key only
    have hself : (a :: as).filter (key · = key a) = a :: as.filter (key · = key a) :=
      List.filter_cons_of_pos (by simp)
    have hother : ∀ k, k ≠ key a → (a :: as).filter (key · = k) = as.filter (key · = k) :=
      fun k hk => List.filter_cons_of_neg (by simpa using hk.symm)
    rw [keyedRun_cons]
    constructor
    · rintro ⟨b, hb, hrun⟩ k
      have hk := ih.mp hrun k
      by_cases h : k = key a
      · subst h
        rw [Function.update_self] at hk
        rw [hself, List.foldlM_cons, hb]
        exact hk
      · rw [Function.update_of_ne h] at hk
        rw [hother k h]
        exact hk
    · intro h
      have hhead := h (key a)
      rw [hself, List.foldlM_cons] at hhead
      obtain ⟨b, hb, hrest⟩ := Option.bind_eq_some_iff.mp hhead
      refine ⟨b, hb, ih.mpr fun k => ?_⟩
      by_cases hk : k = key a
      · subst hk
        rw [Function.update_self]
        exact hrest
      · rw [Function.update_of_ne hk, ← hother k hk]
        exact h k

theorem keyedRun_congr {B : κ → β} {as as' : List α}
    (h : ∀ k, as.filter (key · = k) = as'.filter (key · = k)) :
    keyedRun key act B as = keyedRun key act B as' := by
  refine Option.ext fun B' => ?_
  rw [keyedRun_eq_some_iff, keyedRun_eq_some_iff]
  exact forall_congr' fun k => by rw [h k]

end Acct.Machine
