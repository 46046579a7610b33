import Acct.Isolation.Logic

/-!
# Reasoning about a transaction on its own

`p.Ends S E n v Q`: run alone from sequence value `n` and database `v`, the program comes to its end
with `Q`, or it raises and `E` holds. With `False` for `E` it is sure to end; with `True` nothing is
said about errors (`p.Post S n v Q`). The rules follow the program's structure; the rule of a
statement that can raise asks for `E`, or for what the statement checks.
-/

namespace Acct.Isolation.Prog

universe u

variable {D W R ε : Type*} {α β : Type u} {S : Schema D W R ε} {p : Prog D W R ε α}
  {f : α → Prog D W R ε β} {n : ℕ} {v : D} {Q Q' : α → ℕ → D → Prop} {E : Prop}

/-- The program ends with `Q`, or raises and `E` holds. -/
def Ends (S : Schema D W R ε) (E : Prop) (p : Prog D W R ε α) (n : ℕ) (v : D)
    (Q : α → ℕ → D → Prop) : Prop :=
  match p.run S n v with
  | .ok (a, n', v') => Q a n' v'
  | .error _ => E

/-- If the program ends, `Q` holds. -/
abbrev Post (S : Schema D W R ε) (p : Prog D W R ε α) (n : ℕ) (v : D) (Q : α → ℕ → D → Prop) :
    Prop :=
  p.Ends S True n v Q

lemma Ends.mono (h : p.Ends S E n v Q) (hQ : ∀ a n' v', Q a n' v' → Q' a n' v') :
    p.Ends S E n v Q' := by
  unfold Ends at h ⊢
  split at h
  · exact hQ _ _ _ h
  · exact h

lemma Ends.and (h : p.Ends S E n v Q) (h' : p.Ends S E n v Q') :
    p.Ends S E n v fun a n' v' => Q a n' v' ∧ Q' a n' v' := by
  unfold Ends at h h' ⊢
  split at h
  next hrun => exact ⟨h, by rwa [hrun] at h'⟩
  · exact h

lemma post_of_forall (h : ∀ a n' v', Q a n' v') : p.Post S n v Q := by
  unfold Post Ends
  split
  · exact h _ _ _
  · trivial

lemma Ends.of_run {p' : Prog D W R ε α} (h : p'.Ends S E n v Q)
    (hrun : p.run S n v = p'.run S n v) : p.Ends S E n v Q := by
  unfold Ends at h ⊢
  rwa [hrun]

lemma ends_bind {Q : β → ℕ → D → Prop}
    (h : p.Ends S E n v fun a n' v' => (f a).Ends S E n' v' Q) : (p >>= f).Ends S E n v Q := by
  change (p.bind f).Ends S E n v Q
  induction p generalizing n v with
  | ret a => exact h
  | raise e => exact h
  | lock r m k ih => exact ih h
  | draw k ih => exact ih n h
  | stmt ws k ih =>
    simp only [Ends, Prog.bind, run] at h ih ⊢
    cases hv : S.perform (ws v) v with
    | error e => simpa only [hv] using h
    | ok v1 =>
      simp only [hv] at h ⊢
      exact ih v h

lemma Ends.bind {Q' : β → ℕ → D → Prop} (h : p.Ends S E n v Q)
    (hf : ∀ a n' v', Q a n' v' → (f a).Ends S E n' v' Q') : (p >>= f).Ends S E n v Q' :=
  ends_bind (h.mono hf)

lemma run_bind_of_ok {a : α} {n1 : ℕ} {v1 : D} (h : p.run S n v = .ok (a, n1, v1)) :
    (p >>= f).run S n v = (f a).run S n1 v1 := by
  change (p.bind f).run S n v = _
  induction p generalizing n v with
  | ret b =>
    cases h
    rfl
  | raise e => cases h
  | lock r m k ih => exact ih h
  | draw k ih => exact ih n h
  | stmt ws k ih =>
    simp only [run] at h
    split at h
    next => cases h
    next v2 hv2 =>
      simp only [Prog.bind, run, hv2]
      exact ih v h

lemma ends_pure {a : α} (h : Q a n v) : (pure a : Prog D W R ε α).Ends S E n v Q := h

lemma ends_raise {e : ε} (hE : E := by trivial) : (.raise e : Prog D W R ε α).Ends S E n v Q := hE

lemma ends_query {g : D → α} (h : Q (g v) n v) : (query g : Prog D W R ε α).Ends S E n v Q := h

lemma ends_fetch {g : D → Except ε α} (h : ∀ a, g v = .ok a → Q a n v)
    (hE : E ∨ ∃ a, g v = .ok a := by exact .inl trivial) :
    (fetch g : Prog D W R ε α).Ends S E n v Q := by
  simp only [Ends, fetch, run, Schema.perform]
  cases hg : g v with
  | ok a => exact h a hg
  | error e =>
    refine hE.resolve_right ?_
    rintro ⟨a, ha⟩
    cases hg.symm.trans ha

lemma ends_ensure {q : Prop} [Decidable q] {e : ε} {Q : Unit → ℕ → D → Prop} (h : q → Q () n v)
    (hE : E ∨ q := by exact .inl trivial) : (ensure q e : Prog D W R ε Unit).Ends S E n v Q := by
  unfold ensure
  split
  next hq => exact ends_pure (h hq)
  next hq => exact ends_raise (hE.resolve_right hq)

lemma ends_nextval {Q : ℕ → ℕ → D → Prop} (h : Q n (n + 1) v) :
    (nextval : Prog D W R ε ℕ).Ends S E n v Q := h

lemma ends_lockRows {m : RowLock} {rs : List R} {Q : Unit → ℕ → D → Prop} (h : Q () n v) :
    (lockRows m rs : Prog D W R ε Unit).Ends S E n v Q := by
  induction rs with
  | nil => exact h
  | cons r rs ih => exact ih

lemma ends_execAll {ws : List W} {Q : Unit → ℕ → D → Prop}
    (h : ∀ v', S.perform ws v = .ok v' → Q () n v')
    (hE : E ∨ ∃ v', S.perform ws v = .ok v' := by exact .inl trivial) :
    (execAll ws : Prog D W R ε Unit).Ends S E n v Q := by
  simp only [Ends, execAll, run]
  cases hv : S.perform ws v with
  | ok v' => exact h v' hv
  | error e =>
    refine hE.resolve_right ?_
    rintro ⟨v', hv'⟩
    cases hv.symm.trans hv'

lemma ends_exec {w : W} {Q : Unit → ℕ → D → Prop} (h : S.check w v = .ok () → Q () n (S.apply w v))
    (hE : E ∨ S.check w v = .ok () := by exact .inl trivial) :
    (exec w : Prog D W R ε Unit).Ends S E n v Q := by
  have hperform : ∀ v', S.perform [w] v = .ok v' ↔ S.check w v = .ok () ∧ S.apply w v = v' := by
    intro v'
    simp only [Schema.perform]
    cases S.check w v <;> simp
  refine ends_execAll (fun v' hv' => ?_) (hE.imp_right fun hw => ⟨_, (hperform _).mpr ⟨hw, rfl⟩⟩)
  obtain ⟨hw, rfl⟩ := (hperform v').mp hv'
  exact h hw

lemma Only.post {P : W → Prop} {H : ℕ → D → Prop} (hp : p.Only P)
    (hP : ∀ w n v, P w → H n v → H n (S.apply w v))
    (hn : ∀ n v, H n v → H (n + 1) v) (hv : H n v) : p.Post S n v fun _ n' v' => H n' v' := by
  induction p generalizing n v with
  | ret a => exact hv
  | raise e => trivial
  | lock r m k ih => exact ih hp hv
  | draw k ih => exact ih n (hp n) (hn n v hv)
  | stmt ws k ih =>
    simp only [Ends, run] at ih ⊢
    cases hv1 : S.perform (ws v) v with
    | error e => trivial
    | ok v1 =>
      refine ih v (hp v).2 ?_
      rw [Schema.eq_applyAll_of_perform hv1]
      exact Schema.applyAll_induction (fun w hw u => hP w n u ((hp v).1 w hw)) hv

-- Only the rules are for use: unfolded, the predicate runs the program.
attribute [irreducible] Ends

end Acct.Isolation.Prog
