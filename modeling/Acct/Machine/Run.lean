import Mathlib.Data.List.Basic

/-!
# Runs of a partial machine

`exec s a` is what action `a` makes of state `s`, `none` if it fails or is not enabled. A failed
action changes nothing (`step`). Invariants come from one lemma about a step (`run_induction`);
`Throughout exec C s as` says that every action of a run meets `C` in the state it finds.
-/

namespace Acct.Machine

variable {σ α : Type*} {exec : σ → α → Option σ} {C : σ → α → Prop} {P : σ → Prop} {s : σ}

def step (exec : σ → α → Option σ) (s : σ) (a : α) : σ := (exec s a).getD s

/-- A sequence of actions. -/
def run (exec : σ → α → Option σ) (s : σ) (as : List α) : σ := as.foldl (step exec) s

/-- Every action meets `C` in the state it runs in. -/
def Throughout (exec : σ → α → Option σ) (C : σ → α → Prop) : σ → List α → Prop
  | _, [] => True
  | s, a :: as => C s a ∧ Throughout exec C (step exec s a) as

instance [∀ s a, Decidable (C s a)] : (s : σ) → (as : List α) → Decidable (Throughout exec C s as)
  | _, [] => inferInstanceAs (Decidable True)
  | s, a :: as =>
    have := instDecidableThroughout (step exec s a) as
    inferInstanceAs (Decidable (C s a ∧ Throughout exec C (step exec s a) as))

lemma step_of_none {a : α} (h : exec s a = none) : step exec s a = s := by rw [step, h]; rfl

lemma step_of_some {s' : σ} {a : α} (h : exec s a = some s') : step exec s a = s' := by
  rw [step, h]; rfl

@[simp] lemma run_nil (exec : σ → α → Option σ) (s : σ) : run exec s [] = s := rfl

@[simp] lemma run_cons (exec : σ → α → Option σ) (s : σ) (a : α) (as : List α) :
    run exec s (a :: as) = run exec (step exec s a) as := rfl

lemma run_append (exec : σ → α → Option σ) (s : σ) (as bs : List α) :
    run exec s (as ++ bs) = run exec (run exec s as) bs := List.foldl_append

/-- What holds at the start and is kept by every action that meets `C` holds after every run that
does. -/
theorem run_induction (hstep : ∀ s a, P s → C s a → P (step exec s a)) (h0 : P s) (as : List α)
    (hC : Throughout exec C s as) : P (run exec s as) := by
  induction as generalizing s with
  | nil => exact h0
  | cons a as ih => exact ih (hstep s a h0 hC.1) hC.2

lemma throughout_of_forall (h : ∀ s a, C s a) (s : σ) (as : List α) : Throughout exec C s as := by
  induction as generalizing s with
  | nil => trivial
  | cons a as ih => exact ⟨h s a, ih _⟩

/-- A condition on the actions themselves, beside one on the states they find. -/
lemma throughout_and_of_forall {B : α → Prop} {as : List α} (hB : ∀ a ∈ as, B a)
    (hC : Throughout exec C s as) : Throughout exec (fun s a => B a ∧ C s a) s as := by
  induction as generalizing s with
  | nil => trivial
  | cons a as ih =>
    exact ⟨⟨hB a List.mem_cons_self, hC.1⟩, ih (fun b hb => hB b (List.mem_cons_of_mem _ hb)) hC.2⟩

/-- What every successful action that meets `C` keeps holds after every run that does. -/
theorem run_invariant_of_throughout
    (hstep : ∀ s a s', exec s a = some s' → C s a → P s → P s') (h0 : P s) (as : List α)
    (hC : Throughout exec C s as) : P (run exec s as) := by
  refine run_induction (fun s a h hC => ?_) h0 as hC
  rcases hex : exec s a with _ | s'
  · rwa [step_of_none hex]
  · rw [step_of_some hex]
    exact hstep s a s' hex hC h

theorem run_invariant (hstep : ∀ s a s', exec s a = some s' → P s → P s') (h0 : P s)
    (as : List α) : P (run exec s as) :=
  run_invariant_of_throughout (C := fun _ _ => True) (fun s a s' hex _ => hstep s a s' hex) h0 as
    (throughout_of_forall (fun _ _ => trivial) s as)

end Acct.Machine
