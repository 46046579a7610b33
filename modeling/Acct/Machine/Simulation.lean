import Mathlib.Data.Option.Basic
import Mathlib.Order.Basic

/-!
# Simulations of machines that can fail

Two results are related if both failed, or both succeeded with related states (`Option.Rel`). A
relation that every step keeps is kept by a whole loop (`foldlM_rel`).
-/

namespace Acct.Machine

variable {α σ σ' τ τ' : Type*} {R : σ → τ → Prop} {S : σ' → τ' → Prop}

lemma rel_bind {x : Option σ} {y : Option τ} {f : σ → Option σ'} {g : τ → Option τ'}
    (h : Option.Rel R x y) (hnext : ∀ s t, R s t → Option.Rel S (f s) (g t)) :
    Option.Rel S (x.bind f) (y.bind g) := by
  cases h with
  | none => exact .none
  | some h => exact hnext _ _ h

lemma rel_map {x : Option σ} {y : Option τ} {f : σ → σ'} {g : τ → τ'} (h : Option.Rel R x y)
    (hnext : ∀ s t, R s t → S (f s) (g t)) : Option.Rel S (x.map f) (y.map g) := by
  cases h with
  | none => exact .none
  | some h => exact .some (hnext _ _ h)

lemma rel_map_right {x : Option σ} {y : Option τ} {g : τ → τ'} {S : σ → τ' → Prop}
    (h : Option.Rel R x y) (hnext : ∀ s t, R s t → S s (g t)) : Option.Rel S x (y.map g) := by
  cases h with
  | none => exact .none
  | some h => exact .some (hnext _ _ h)

lemma rel_trans {υ : Type*} {Q : τ → υ → Prop} {P : σ → υ → Prop} {x : Option σ} {y : Option τ}
    {z : Option υ} (h : Option.Rel R x y) (h' : Option.Rel Q y z)
    (hnext : ∀ s t u, R s t → Q t u → P s u) : Option.Rel P x z := by
  cases h with
  | none =>
    cases h'
    exact .none
  | some h =>
    cases h' with
    | some h' => exact .some (hnext _ _ _ h h')

theorem foldlM_rel {f : σ → α → Option σ} {g : τ → α → Option τ} {as : List α} {s : σ} {t : τ}
    (h : R s t) (hstep : ∀ a ∈ as, ∀ s t, R s t → Option.Rel R (f s a) (g t a)) :
    Option.Rel R (as.foldlM f s) (as.foldlM g t) := by
  induction as generalizing s t with
  | nil => exact .some h
  | cons a as ih =>
    rw [List.foldlM_cons, List.foldlM_cons]
    refine rel_bind (hstep a List.mem_cons_self s t h) fun s' t' h' => ?_
    exact ih h' fun b hb => hstep b (List.mem_cons_of_mem _ hb)

lemma foldlM_congr {f g : σ → α → Option σ} {as : List α} {s : σ}
    (h : ∀ s, ∀ a ∈ as, f s a = g s a) : as.foldlM f s = as.foldlM g s := by
  induction as generalizing s with
  | nil => rfl
  | cons a as ih =>
    rw [List.foldlM_cons, List.foldlM_cons, h s a List.mem_cons_self]
    exact congrArg _ (funext fun s' => ih fun s b hb => h s b (List.mem_cons_of_mem _ hb))

lemma isSome_eq_of_rel {x : Option σ} {y : Option τ} (h : Option.Rel R x y) :
    x.isSome = y.isSome := by
  cases h <;> rfl

lemma eq_none_of_rel {x : Option σ} (h : Option.Rel R x none) : x = none := by
  cases h
  rfl

lemma exists_of_rel {x : Option σ} {y : Option τ} (h : Option.Rel R x y) {s : σ}
    (hx : x = some s) : ∃ t, y = some t ∧ R s t := by
  subst hx
  cases h with
  | some h => exact ⟨_, rfl, h⟩

lemma exists_of_rel_right {x : Option σ} {t : τ} (h : Option.Rel R x (some t)) :
    ∃ s, x = some s ∧ R s t := by
  cases h with
  | some h => exact ⟨_, rfl, h⟩

end Acct.Machine
