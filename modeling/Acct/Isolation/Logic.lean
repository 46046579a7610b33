import Acct.Isolation.System

/-!
# Reasoning about one transaction among others

`Prog.Safe E G U p ws H v Q` is a triple of a rely-guarantee logic. The transaction has written
`ws`, holds the locks and has drawn the numbers `H`, and last saw `v`. Others change what it sees
only as `E ws H` allows, and the numbers it draws are in no use (`U`). Then its statements write as
`G` allows, and at its end `Q` holds.

A `Discipline` makes the triples of all programs fit together: an invariant of each session's
writes, locks and numbers that its own statements keep, and the commits of others too. `T` says
which calls run at the same time. What the triples say then holds in every run
(`Discipline.run_sound`).
-/

namespace Acct.Isolation

open Machine List

universe u

structure Holds (R : Type*) where
  locks : List (R × RowLock) := []
  drawn : List ℕ := []

namespace Holds

variable {R : Type*}

def lock (H : Holds R) (ls : List (R × RowLock)) : Holds R := { H with locks := ls ++ H.locks }

def draw (H : Holds R) (n : ℕ) : Holds R := { H with drawn := n :: H.drawn }

@[simp] lemma lock_locks (H : Holds R) (ls : List (R × RowLock)) :
    (H.lock ls).locks = ls ++ H.locks := rfl

@[simp] lemma lock_drawn (H : Holds R) (ls : List (R × RowLock)) : (H.lock ls).drawn = H.drawn :=
  rfl

@[simp] lemma lock_nil (H : Holds R) : H.lock [] = H := rfl

@[simp] lemma draw_locks (H : Holds R) (n : ℕ) : (H.draw n).locks = H.locks := rfl

@[simp] lemma draw_drawn (H : Holds R) (n : ℕ) : (H.draw n).drawn = n :: H.drawn := rfl

end Holds

variable {D W R ε κ : Type*} {α β : Type u} {S : Schema D W R ε}
  {E : List W → Holds R → D → D → Prop} {G : List W → Holds R → D → List W → Prop}
  {U : D → ℕ → Prop} {ws : List W} {H : Holds R} {L : List (R × RowLock)} {v : D}

/-! ### Writes -/

namespace Schema

@[simp] lemma applyAll_nil (d : D) : S.applyAll [] d = d := rfl

@[simp] lemma applyAll_cons (w : W) (ws : List W) (d : D) :
    S.applyAll (w :: ws) d = S.applyAll ws (S.apply w d) := rfl

lemma applyAll_append (ws ws' : List W) (d : D) :
    S.applyAll (ws ++ ws') d = S.applyAll ws' (S.applyAll ws d) := foldl_append

lemma applyAll_induction {H : D → Prop} {d : D} (hw : ∀ w ∈ ws, ∀ d, H d → H (S.apply w d))
    (hd : H d) : H (S.applyAll ws d) := by
  induction ws generalizing d with
  | nil => exact hd
  | cons w ws ih =>
    exact ih (fun x hx => hw x (mem_cons_of_mem w hx)) (hw w mem_cons_self d hd)

lemma eq_applyAll_of_perform {d d' : D} (h : S.perform ws d = .ok d') : d' = S.applyAll ws d := by
  induction ws generalizing d with
  | nil => exact (Except.ok.inj h).symm
  | cons w ws ih =>
    rw [perform] at h
    split at h
    · cases h
    · exact ih h

end Schema

/-! ### Triples -/

namespace Prog

variable {p : Prog D W R ε α} {f : α → Prog D W R ε β}
  {Q Q' : α → List W → Holds R → D → Prop}

def Safe (S : Schema D W R ε) (E : List W → Holds R → D → D → Prop)
    (G : List W → Holds R → D → List W → Prop) (U : D → ℕ → Prop) :
    Prog D W R ε α → List W → Holds R → D → (α → List W → Holds R → D → Prop) → Prop
  | .ret a, ws, H, v, Q => Q a ws H v
  | .raise _, _, _, _, _ => True
  | .lock r m k, ws, H, v, Q => ∀ v', E ws H v v' → k.Safe S E G U ws (H.lock [(r, m)]) v' Q
  | .draw k, ws, H, v, Q =>
    ∀ v', E ws H v v' → ∀ n, n ∉ H.drawn → ¬ U v' n → (k n).Safe S E G U ws (H.draw n) v' Q
  | .stmt w k, ws, H, v, Q =>
    ∀ v', E ws H v v' → G ws H v' (w v') ∧
      ∀ v'', S.perform (w v') v' = .ok v'' →
        (k v').Safe S E G U (ws ++ w v') (H.lock ((w v').flatMap S.locks)) v'' Q

lemma safe_bind {Q : β → List W → Holds R → D → Prop} :
    (p >>= f).Safe S E G U ws H v Q ↔
      p.Safe S E G U ws H v fun a ws H v => (f a).Safe S E G U ws H v Q := by
  show (p.bind f).Safe S E G U ws H v Q ↔ _
  induction p generalizing ws H v with
  | ret a | raise e => exact Iff.rfl
  | lock r m k ih => exact forall_congr' fun v' => imp_congr_right fun _ => ih
  | draw k ih => exact forall_congr' fun v' => imp_congr_right fun _ => forall_congr' fun n =>
    forall_congr' fun _ => forall_congr' fun _ => ih n
  | stmt w k ih =>
    refine forall_congr' fun v' => imp_congr_right fun _ => and_congr_right fun _ => ?_
    exact forall_congr' fun v'' => imp_congr_right fun _ => ih v'

lemma safe_pure {a : α} : (pure a : Prog D W R ε α).Safe S E G U ws H v Q ↔ Q a ws H v := Iff.rfl

lemma Safe.mono (h : p.Safe S E G U ws H v Q) (hQ : ∀ a ws H v, Q a ws H v → Q' a ws H v) :
    p.Safe S E G U ws H v Q' := by
  induction p generalizing ws H v with
  | ret a => exact hQ _ _ _ _ h
  | raise e => trivial
  | lock r m k ih => exact fun v' hv => ih (h v' hv)
  | draw k ih => exact fun v' hv n hn hU => ih n (h v' hv n hn hU)
  | stmt w k ih => exact fun v' hv => ⟨(h v' hv).1, fun v'' hp => ih v' ((h v' hv).2 v'' hp)⟩

lemma Safe.bind (h : p.Safe S E G U ws H v Q)
    {Q' : β → List W → Holds R → D → Prop}
    (hf : ∀ a ws H v, Q a ws H v → (f a).Safe S E G U ws H v Q') :
    (p >>= f).Safe S E G U ws H v Q' :=
  safe_bind.mpr (h.mono hf)

/-! ### Rules for single statements -/

lemma safe_ensure {q : Prop} [Decidable q] {e : ε} {Q : Unit → List W → Holds R → D → Prop}
    (h : q → Q () ws H v) : (ensure q e : Prog D W R ε Unit).Safe S E G U ws H v Q := by
  unfold ensure
  split
  next hq => exact h hq
  next => trivial

lemma safe_query {g : D → α} (hG : ∀ v', G ws H v' [])
    (h : ∀ v', E ws H v v' → Q (g v') ws H v') :
    (query g : Prog D W R ε α).Safe S E G U ws H v Q := by
  intro v' hv'
  refine ⟨hG v', fun v'' hperf => ?_⟩
  cases hperf
  simpa [Safe] using h v' hv'

lemma safe_fetch {g : D → Except ε α} (hG : ∀ v', G ws H v' [])
    (h : ∀ v' a, E ws H v v' → g v' = .ok a → Q a ws H v') :
    (fetch g : Prog D W R ε α).Safe S E G U ws H v Q := by
  intro v' hv'
  refine ⟨hG v', fun v'' hperf => ?_⟩
  cases hperf
  dsimp only
  split
  next a ha => simpa [Safe] using h v' a hv' ha
  next => trivial

lemma safe_exec {w : W} {Q : Unit → List W → Holds R → D → Prop}
    (hG : ∀ v', G ws H v' [w])
    (h : ∀ v', E ws H v v' → S.check w v' = .ok () →
      Q () (ws ++ [w]) (H.lock (S.locks w)) (S.apply w v')) :
    (exec w : Prog D W R ε Unit).Safe S E G U ws H v Q := by
  intro v' hv'
  refine ⟨hG v', fun v'' hperf => ?_⟩
  rw [Schema.perform] at hperf
  split at hperf
  next => cases hperf
  next hw =>
    cases hperf
    simpa [Safe] using h v' hv' hw

lemma safe_nextval {Q : ℕ → List W → Holds R → D → Prop}
    (h : ∀ v', E ws H v v' → ∀ n, n ∉ H.drawn → ¬ U v' n → Q n ws (H.draw n) v') :
    (nextval : Prog D W R ε ℕ).Safe S E G U ws H v Q := h

/-! ### Programs that write only some rows -/

/-- Every statement of the program writes only what `P` allows. -/
def Only (P : W → Prop) : Prog D W R ε α → Prop
  | .ret _ => True
  | .raise _ => True
  | .lock _ _ k => k.Only P
  | .draw k => ∀ n, (k n).Only P
  | .stmt ws k => ∀ d, (∀ w ∈ ws d, P w) ∧ (k d).Only P

section Only

variable {P : W → Prop}

lemma Only.bind (hp : p.Only P) (hf : ∀ a, (f a).Only P) : (p >>= f).Only P := by
  show (p.bind f).Only P
  induction p with
  | ret a => exact hf a
  | raise e => trivial
  | lock r m k ih => exact ih hp
  | draw k ih => exact fun n => ih n (hp n)
  | stmt ws k ih => exact fun d => ⟨(hp d).1, ih d (hp d).2⟩

lemma Only.mono {P' : W → Prop} (hp : p.Only P) (h : ∀ w, P w → P' w) : p.Only P' := by
  induction p with
  | ret a | raise e => trivial
  | lock r m k ih => exact ih hp
  | draw k ih => exact fun n => ih n (hp n)
  | stmt ws k ih => exact fun d => ⟨fun w hw => h w ((hp d).1 w hw), ih d (hp d).2⟩

def Returns (A : α → Prop) : Prog D W R ε α → Prop
  | .ret a => A a
  | .raise _ => True
  | .lock _ _ k => k.Returns A
  | .draw k => ∀ n, (k n).Returns A
  | .stmt _ k => ∀ d, (k d).Returns A

lemma Returns.bind {A : β → Prop} (hf : ∀ a, (f a).Returns A) : (p >>= f).Returns A := by
  show (p.bind f).Returns A
  induction p with
  | ret a => exact hf a
  | raise e => trivial
  | lock r m k ih => exact ih
  | draw k ih => exact fun n => ih n
  | stmt ws k ih => exact fun d => ih d

lemma Returns.bind_of_returns {A : α → Prop} {B : β → Prop} (hp : p.Returns A)
    (hf : ∀ a, A a → (f a).Returns B) : (p >>= f).Returns B := by
  show (p.bind f).Returns B
  induction p with
  | ret a => exact hf a hp
  | raise e => trivial
  | lock r m k ih => exact ih hp
  | draw k ih => exact fun n => ih n (hp n)
  | stmt ws k ih => exact fun d => ih d (hp d)

/-- One program after the other, where the second needs to know what the first returns. -/
lemma Only.bind_of_returns {A : α → Prop} (hp : p.Only P) (hA : p.Returns A)
    (hf : ∀ a, A a → (f a).Only P) : (p >>= f).Only P := by
  show (p.bind f).Only P
  induction p with
  | ret a => exact hf a hA
  | raise e => trivial
  | lock r m k ih => exact ih hp hA
  | draw k ih => exact fun n => ih n (hp n) (hA n)
  | stmt ws k ih => exact fun d => ⟨(hp d).1, ih d (hp d).2 (hA d)⟩

lemma only_pure (a : α) : (pure a : Prog D W R ε α).Only P := trivial

lemma only_query (g : D → α) : (query g : Prog D W R ε α).Only P := fun _ => ⟨by simp, trivial⟩

lemma only_fetch (g : D → Except ε α) : (fetch g : Prog D W R ε α).Only P := by
  intro d
  refine ⟨by simp, ?_⟩
  dsimp only
  split
  · trivial
  · trivial

lemma only_ensure (q : Prop) [Decidable q] (e : ε) : (ensure q e : Prog D W R ε Unit).Only P := by
  unfold ensure
  split
  · trivial
  · trivial

lemma only_lockRow (r : R) (m : RowLock) : (lockRow r m : Prog D W R ε Unit).Only P := trivial

lemma only_lockRows (m : RowLock) (rs : List R) : (lockRows m rs : Prog D W R ε Unit).Only P := by
  induction rs with
  | nil => trivial
  | cons r rs ih => exact ih

lemma only_nextval : (nextval : Prog D W R ε ℕ).Only P := fun _ => trivial

lemma only_exec {w : W} (hw : P w) : (exec w : Prog D W R ε Unit).Only P :=
  fun _ => ⟨by simpa using hw, trivial⟩

lemma only_execAll {ws : List W} (hws : ∀ w ∈ ws, P w) : (execAll ws : Prog D W R ε Unit).Only P :=
  fun _ => ⟨hws, trivial⟩

/-- `Only`, as instance search finds it along the program. -/
class Confined (P : W → Prop) (p : Prog D W R ε α) : Prop where
  only : p.Only P

instance (a : α) : Confined P (pure a : Prog D W R ε α) := ⟨only_pure a⟩

instance (e : ε) : Confined P (.raise e : Prog D W R ε α) := ⟨trivial⟩

instance [Confined P p] [∀ a, Confined P (f a)] : Confined P (p >>= f) :=
  ⟨Only.bind Confined.only fun _ => Confined.only⟩

instance (g : D → α) : Confined P (query g : Prog D W R ε α) := ⟨only_query g⟩

instance (g : D → Except ε α) : Confined P (fetch g : Prog D W R ε α) := ⟨only_fetch g⟩

instance (q : Prop) {_ : Decidable q} (e : ε) : Confined P (ensure q e : Prog D W R ε Unit) :=
  ⟨only_ensure q e⟩

instance (r : R) (m : RowLock) : Confined P (lockRow r m : Prog D W R ε Unit) :=
  ⟨only_lockRow r m⟩

instance (m : RowLock) (rs : List R) : Confined P (lockRows m rs : Prog D W R ε Unit) :=
  ⟨only_lockRows m rs⟩

instance : Confined P (nextval : Prog D W R ε ℕ) := ⟨only_nextval⟩

/-- Such a program adds only such writes, and keeps what they and the others keep. -/
lemma Only.safe {K : Holds R → D → Prop} (hp : p.Only P)
    (hG : ∀ ws H v w, K H v → (∀ x ∈ w, P x) → G ws H v w)
    (hE : ∀ ws H v v', E ws H v v' → K H v → K H v')
    (hlock : ∀ ls H v, K H v → K (H.lock ls) v) (hdraw : ∀ n H v, K H v → K (H.draw n) v)
    (hP : ∀ H w v v', (∀ x ∈ w, P x) → S.perform w v = .ok v' → K H v → K H v') (hv : K H v) :
    p.Safe S E G U ws H v fun _ ws' H' v' => (∃ w, ws' = ws ++ w ∧ ∀ x ∈ w, P x) ∧ K H' v' := by
  induction p generalizing ws H v with
  | ret a => exact ⟨⟨[], by simp⟩, hv⟩
  | raise e => trivial
  | lock r m k ih => exact fun v' hvv' => ih hp (hlock _ _ _ (hE _ _ _ _ hvv' hv))
  | draw k ih => exact fun v' hvv' n _ _ => ih n (hp n) (hdraw _ _ _ (hE _ _ _ _ hvv' hv))
  | stmt w k ih =>
    intro v' hvv'
    have hv' := hE _ _ _ _ hvv' hv
    refine ⟨hG _ _ _ _ hv' (hp v').1, fun v'' hperf => ?_⟩
    have hv'' := hlock ((w v').flatMap S.locks) _ _ (hP _ _ _ _ (hp v').1 hperf hv')
    refine (ih v' (hp v').2 hv'').mono ?_
    rintro a ws' H' v1 ⟨⟨x, rfl, hx⟩, hv1⟩
    refine ⟨⟨w v' ++ x, by simp, fun y hy => ?_⟩, hv1⟩
    exact (mem_append.mp hy).elim ((hp v').1 y) (hx y)

end Only

end Prog

/-! ### Locks and numbers -/

def Compatible (L L' : List (R × RowLock)) : Prop :=
  ∀ l ∈ L, ∀ l' ∈ L', l.1 = l'.1 → l.2.conflicts l'.2 = false

lemma RowLock.conflicts_comm (m m' : RowLock) : m.conflicts m' = m'.conflicts m := by
  cases m <;> cases m' <;> rfl

namespace Compatible

variable {L' L₁ L₂ : List (R × RowLock)}

lemma nil_left : Compatible [] L := by
  intro l hl
  cases hl

lemma symm (h : Compatible L L') : Compatible L' L := by
  intro l hl l' hl' heq
  rw [RowLock.conflicts_comm]
  exact h l' hl' l hl heq.symm

lemma append_left (h1 : Compatible L₁ L) (h2 : Compatible L₂ L) : Compatible (L₁ ++ L₂) L := by
  intro l hl
  rcases mem_append.mp hl with hl | hl
  · exact h1 l hl
  · exact h2 l hl

lemma not_mem (h : Compatible L L') {r : R} {m m' : RowLock} (hm : (r, m) ∈ L)
    (hc : m.conflicts m' = true) : (r, m') ∉ L' := by
  intro hm'
  have := h _ hm _ hm' rfl
  rw [hc] at this
  cases this

end Compatible

structure Holds.Apart (H H' : Holds R) : Prop where
  locks : Compatible H.locks H'.locks
  drawn : ∀ n ∈ H.drawn, n ∉ H'.drawn

lemma Holds.Apart.symm {H' : Holds R} (h : H.Apart H') : H'.Apart H :=
  ⟨h.locks.symm, fun n hn hn' => h.drawn n hn' hn⟩

lemma Holds.apart_nil (H' : Holds R) : Holds.Apart {} H' :=
  ⟨Compatible.nil_left, nofun⟩

def Session.holds (u : Session D W R ε α κ) : Holds R := ⟨u.locks, u.drawn⟩

lemma Session.compatible_of_not_blocks {u : Session D W R ε α κ} (h : ¬ u.Blocks L) :
    Compatible L u.locks := by
  intro l hl l' hl' heq
  rw [RowLock.conflicts_comm]
  by_contra hc
  exact h ⟨l', hl', l, hl, heq.symm, by simpa using hc⟩

/-! ### What a move can do -/

section Moves

variable [DecidableEq R] {program : κ → Prog D W R ε α} {s s' : State D W R ε α κ} {m : Move κ}

inductive Happens (S : Schema D W R ε) (program : κ → Prog D W R ε α) (s : State D W R ε α κ) :
    Move κ → State D W R ε α κ → Prop
  | start (c : κ) : Happens S program s (.start c)
      { s with sessions := s.sessions ++ [{ call := c, opened := s.db, prog := program c }] }
  | commit (i : ℕ) (u : Session D W R ε α κ) (a : α) (hi : s.sessions[i]? = some u)
      (hu : u.status = .running) (hp : u.prog = .ret a) :
      Happens S program s (.step i)
        { s.put i (u.finish (.committed a)) with db := u.view S s.db }
  | quit (m : Move κ) (i : ℕ) (u : Session D W R ε α κ) (hi : s.sessions[i]? = some u)
      (hu : u.status = .running) (hm : m = .step i ∨ m = .abort i) :
      Happens S program s m (s.put i (u.finish .aborted))
  | lock (i : ℕ) (u : Session D W R ε α κ) (r : R) (l : RowLock) (k : Prog D W R ε α)
      (hi : s.sessions[i]? = some u) (hu : u.status = .running) (hp : u.prog = .lock r l k)
      (hfree : NoOther s.sessions i fun v => v.Blocks [(r, l)]) :
      Happens S program s (.step i) (s.put i { u with prog := k, locks := (r, l) :: u.locks })
  | draw (i : ℕ) (u : Session D W R ε α κ) (k : ℕ → Prog D W R ε α)
      (hi : s.sessions[i]? = some u) (hu : u.status = .running) (hp : u.prog = .draw k) :
      Happens S program s (.step i)
        { s.put i { u with prog := k s.seq, drawn := s.seq :: u.drawn } with seq := s.seq + 1 }
  | stmt (i : ℕ) (u : Session D W R ε α κ) (ws : D → List W) (k : D → Prog D W R ε α) (d : D)
      (hi : s.sessions[i]? = some u) (hu : u.status = .running) (hp : u.prog = .stmt ws k)
      (hfree : NoOther s.sessions i fun v => v.Blocks ((ws (u.view S s.db)).flatMap S.locks))
      (hd : S.perform (ws (u.view S s.db)) (u.view S s.db) = .ok d) :
      Happens S program s (.step i) (s.put i { u with
          prog := k (u.view S s.db)
          log := u.log ++ ws (u.view S s.db)
          locks := (ws (u.view S s.db)).flatMap S.locks ++ u.locks })

lemma happens_of_advance {i : ℕ} {u : Session D W R ε α κ} (hi : s.sessions[i]? = some u)
    (hu : u.status = .running) (h : s.advance S i u = some s') :
    Happens S program s (.step i) s' := by
  unfold State.advance at h
  split at h
  next a hp =>
    cases h
    exact .commit i u a hi hu hp
  next e hp =>
    cases h
    exact .quit _ i u hi hu (.inl rfl)
  next r l k hp =>
    split_ifs at h with hfree
    cases h
    exact .lock i u r l k hi hu hp hfree
  next k hp =>
    cases h
    exact .draw i u k hi hu hp
  next ws k hp =>
    dsimp only at h
    split_ifs at h with hfree
    split at h
    next e hd =>
      cases h
      exact .quit _ i u hi hu (.inl rfl)
    next d hd =>
      cases h
      exact .stmt i u ws k d hi hu hp hfree hd

lemma happens_of_exec? (h : s.exec? S program m = some s') : Happens S program s m s' := by
  cases m with
  | start c =>
    cases h
    exact .start c
  | step i =>
    obtain ⟨u, hi, h⟩ := Option.bind_eq_some_iff.mp h
    split at h
    next hu => exact happens_of_advance hi hu h
    next => cases h
  | abort i =>
    obtain ⟨u, hi, h⟩ := Option.bind_eq_some_iff.mp h
    split at h
    next hu =>
      cases h
      exact .quit _ i u hi hu (.inr rfl)
    next => cases h

end Moves

/-! ### Disciplines -/

structure Discipline (S : Schema D W R ε) (Inv : D → Prop) (T : κ → κ → Prop)
    (I : κ → List W → Holds R → D → Prop) (E : κ → List W → Holds R → D → D → Prop)
    (G : κ → List W → Holds R → D → List W → Prop) (U : D → ℕ → Prop) : Prop where
  refl : ∀ c ws H v, E c ws H v v
  trans : ∀ c ws H v v' v'', E c ws H v v' → E c ws H v' v'' → E c ws H v v''
  start : ∀ c db, Inv db → I c [] {} db
  lock : ∀ c l ws H db, I c ws H db → I c ws (H.lock [l]) db
  draw : ∀ c n ws H db, I c ws H db → I c ws (H.draw n) db
  own : ∀ c n ws H db, I c ws H db → U (S.applyAll ws db) n → U db n ∨ n ∈ H.drawn
  stmt : ∀ c w ws H db d, Inv db → I c ws H db → G c ws H (S.applyAll ws db) w →
    S.perform w (S.applyAll ws db) = .ok d → I c (ws ++ w) (H.lock (w.flatMap S.locks)) db
  commit : ∀ c c' ws H ws' H' db, T c c' → Inv db → Inv (S.applyAll ws' db) → H.Apart H' →
    I c ws H db → I c' ws' H' db →
    I c ws H (S.applyAll ws' db) ∧
      E c ws H (S.applyAll ws db) (S.applyAll ws (S.applyAll ws' db))

/-- A session in the middle of its work: its invariant holds, and what is left of its program is
safe from what it sees. -/
def Session.Sound (S : Schema D W R ε) (I : κ → List W → Holds R → D → Prop)
    (E : κ → List W → Holds R → D → D → Prop) (G : κ → List W → Holds R → D → List W → Prop)
    (U : D → ℕ → Prop) (Q : κ → D → α → List W → Holds R → D → Prop)
    (u : Session D W R ε α κ) (db : D) : Prop :=
  I u.call u.log u.holds db ∧
    ∃ v, u.prog.Safe S (E u.call) (G u.call) U u.log u.holds v (Q u.call u.opened) ∧
      E u.call u.log u.holds v (u.view S db)

structure Sound (S : Schema D W R ε) (Inv : D → Prop) (T : κ → κ → Prop)
    (I : κ → List W → Holds R → D → Prop) (E : κ → List W → Holds R → D → D → Prop)
    (G : κ → List W → Holds R → D → List W → Prop) (U : D → ℕ → Prop)
    (Q : κ → D → α → List W → Holds R → D → Prop) (s : State D W R ε α κ) : Prop where
  inv : Inv s.db
  fresh : ∀ n, s.seq ≤ n → ¬ U s.db n
  below : ∀ u ∈ s.sessions, ∀ n ∈ u.drawn, n < s.seq
  apart : ∀ (i j : ℕ) u v, i ≠ j → s.sessions[i]? = some u → s.sessions[j]? = some v →
    u.holds.Apart v.holds
  together : ∀ (i j : ℕ) u v, i ≠ j → s.sessions[i]? = some u → s.sessions[j]? = some v →
    u.status = .running → v.status = .running → T u.call v.call
  sessions : ∀ u ∈ s.sessions, u.status = .running → u.Sound S I E G U Q s.db

section Soundness

variable {Inv : D → Prop} {T : κ → κ → Prop} {I : κ → List W → Holds R → D → Prop}
  {E : κ → List W → Holds R → D → D → Prop} {G : κ → List W → Holds R → D → List W → Prop}
  {Q : κ → D → α → List W → Holds R → D → Prop}
  {program : κ → Prog D W R ε α} {C : State D W R ε α κ → Move κ → Prop}
  {s s' : State D W R ε α κ} {m : Move κ} {i : ℕ} {u u' : Session D W R ε α κ}

namespace Sound

lemma init (db : D) (seq : ℕ) (h : Inv db) (hfresh : ∀ n, seq ≤ n → ¬ U db n) :
    Sound S Inv T I E G U Q ({ db, seq } : State D W R ε α κ) where
  inv := h
  fresh := hfresh
  below := by simp
  apart := by
    intro i j u v _ hi
    simp at hi
  together := by
    intro i j u v _ hi
    simp at hi
  sessions := by simp

section

variable (h : Sound S Inv T I E G U Q s) (hi : s.sessions[i]? = some u)
include h hi

lemma put (hcall : u'.call = u.call) (hrun : u'.status = .running → u.status = .running)
    (hbelow : ∀ n ∈ u'.drawn, n < s.seq)
    (hapart : ∀ j v, j ≠ i → s.sessions[j]? = some v → u'.holds.Apart v.holds)
    (hu : u'.status = .running → u'.Sound S I E G U Q s.db) :
    Sound S Inv T I E G U Q (s.put i u') where
  inv := h.inv
  fresh := h.fresh
  below := by
    intro v hv
    rcases mem_or_eq_of_mem_set hv with hv | rfl
    · exact h.below v hv
    · exact hbelow
  apart := by
    intro j k v w hjk hj hk
    rcases getElem?_set_cases hj with ⟨hji, rfl⟩ | ⟨hji, hj'⟩
    · rcases getElem?_set_cases hk with ⟨hki, -⟩ | ⟨hki, hk'⟩
      · exact absurd (hji.trans hki.symm) hjk
      · exact hapart k w hki hk'
    · rcases getElem?_set_cases hk with ⟨-, rfl⟩ | ⟨-, hk'⟩
      · exact (hapart j v hji hj').symm
      · exact h.apart j k v w hjk hj' hk'
  together := by
    intro j k v w hjk hj hk hv hw
    rcases getElem?_set_cases hj with ⟨hji, rfl⟩ | ⟨hji, hj'⟩
    · rcases getElem?_set_cases hk with ⟨hki, -⟩ | ⟨hki, hk'⟩
      · exact absurd (hji.trans hki.symm) hjk
      · rw [hcall]
        exact h.together i k u w (Ne.symm hki) hi hk' (hrun hv) hw
    · rcases getElem?_set_cases hk with ⟨-, rfl⟩ | ⟨-, hk'⟩
      · rw [hcall]
        exact h.together j i v u hji hj' hi hv (hrun hw)
      · exact h.together j k v w hjk hj' hk' hv hw
  sessions := by
    intro v hv hstill
    rcases mem_or_eq_of_mem_set hv with hv | rfl
    · exact h.sessions v hv hstill
    · exact hu hstill

lemma finish (st : Status α)
    (hst : st ≠ .running) : Sound S Inv T I E G U Q (s.put i (u.finish st)) := by
  refine h.put hi rfl (fun hrun => absurd hrun hst) nofun ?_
    fun hrun => absurd hrun hst
  exact fun j v _ _ => Holds.apart_nil _

lemma locks_of_free (hfree : NoOther s.sessions i fun v => v.Blocks L) :
    ∀ j v, j ≠ i → s.sessions[j]? = some v → (u.holds.lock L).Apart v.holds := by
  intro j v hne hj
  have hnew := Session.compatible_of_not_blocks (noOther_iff.mp hfree j v hj hne)
  have hold := h.apart i j u v hne.symm hi hj
  exact ⟨hnew.append_left hold.locks, hold.drawn⟩

lemma draw (hu : u.status = .running) {p : Prog D W R ε α}
    (hsound : Session.Sound S I E G U Q { u with prog := p, drawn := s.seq :: u.drawn } s.db) :
    Sound S Inv T I E G U Q
      { s.put i { u with prog := p, drawn := s.seq :: u.drawn } with seq := s.seq + 1 } := by
  let s1 : State D W R ε α κ := { s with seq := s.seq + 1 }
  have h1 : Sound S Inv T I E G U Q s1 :=
    ⟨h.inv, fun n hn => h.fresh n (Nat.le_of_succ_le hn),
      fun v hv n hn => Nat.lt_succ_of_lt (h.below v hv n hn), h.apart, h.together, h.sessions⟩
  show Sound S Inv T I E G U Q (s1.put i { u with prog := p, drawn := s.seq :: u.drawn })
  refine h1.put hi rfl (fun _ => hu) ?_ ?_ fun _ => hsound
  · intro n hn
    rcases mem_cons.mp hn with rfl | hn
    · exact Nat.lt_succ_self _
    · exact Nat.lt_succ_of_lt (h.below u (mem_of_getElem? hi) n hn)
  · intro j w hne hj
    have hold := h.apart i j u w hne.symm hi hj
    refine ⟨hold.locks, fun n hn => ?_⟩
    rcases mem_cons.mp hn with rfl | hn
    · exact fun hw => Nat.lt_irrefl _ (h.below w (mem_of_getElem? hj) _ hw)
    · exact hold.drawn n hn

end

lemma start (h : Sound S Inv T I E G U Q s) {c : κ} {p : Prog D W R ε α}
    (hsound : Session.Sound S I E G U Q { call := c, opened := s.db, prog := p } s.db)
    (htogether : ∀ u ∈ s.sessions, u.status = .running → T u.call c ∧ T c u.call) :
    Sound S Inv T I E G U Q
      { s with sessions := s.sessions ++ [{ call := c, opened := s.db, prog := p }] } where
  inv := h.inv
  fresh := h.fresh
  below := by
    intro v hv
    rcases mem_append.mp hv with hv | hv
    · exact h.below v hv
    · cases mem_singleton.mp hv
      exact nofun
  apart := by
    intro j k v w hjk hj hk
    rcases getElem?_append_singleton_cases hj with ⟨-, rfl⟩ | ⟨-, hj'⟩
    · exact Holds.apart_nil _
    · rcases getElem?_append_singleton_cases hk with ⟨-, rfl⟩ | ⟨-, hk'⟩
      · exact (Holds.apart_nil _).symm
      · exact h.apart j k v w hjk hj' hk'
  together := by
    intro j k v w hjk hj hk hv hw
    rcases getElem?_append_singleton_cases hj with ⟨hjl, rfl⟩ | ⟨-, hj'⟩
    · rcases getElem?_append_singleton_cases hk with ⟨hkl, -⟩ | ⟨-, hk'⟩
      · exact absurd (hjl.trans hkl.symm) hjk
      · exact (htogether w (mem_of_getElem? hk') hw).2
    · rcases getElem?_append_singleton_cases hk with ⟨-, rfl⟩ | ⟨-, hk'⟩
      · exact (htogether v (mem_of_getElem? hj') hv).1
      · exact h.together j k v w hjk hj' hk' hv hw
  sessions := by
    intro v hv hrun
    rcases mem_append.mp hv with hv | hv
    · exact h.sessions v hv hrun
    · cases mem_singleton.mp hv
      exact hsound

end Sound

namespace Discipline

lemma sound_commit (hD : Discipline S Inv T I E G U) (h : Sound S Inv T I E G U Q s)
    (hi : s.sessions[i]? = some u) (hu : u.status = .running) {a : α}
    (hinv : Inv (u.view S s.db)) :
    Sound S Inv T I E G U Q { s.put i (u.finish (.committed a)) with db := u.view S s.db } := by
  have hmem := mem_of_getElem? hi
  have hput : Sound S Inv T I E G U Q (s.put i (u.finish (.committed a))) :=
    h.finish hi (.committed a) nofun
  refine ⟨hinv, fun n hn hused => ?_, hput.below, hput.apart, hput.together, ?_⟩
  · -- the numbers it leaves are old ones or its own
    rcases hD.own _ n _ _ _ (h.sessions u hmem hu).1 hused with hold | hown
    · exact h.fresh n hn hold
    · exact Nat.lt_irrefl _ (Nat.lt_of_lt_of_le (h.below u hmem n hown) hn)
  · intro v hv hrun
    by_cases hvu : v = u.finish (.committed a)
    · rw [hvu] at hrun
      cases hrun
    · obtain ⟨j, hji, hj⟩ := exists_of_mem_set hv hvu
      obtain ⟨hI, w, hsafe, hE⟩ := h.sessions v (mem_of_getElem? hj) hrun
      have hmine := (h.sessions u hmem hu).1
      obtain ⟨hI', hE'⟩ := hD.commit v.call u.call v.log v.holds u.log u.holds s.db
        (h.together j i v u hji hj hi hrun hu) h.inv hinv (h.apart j i v u hji hj hi) hI hmine
      exact ⟨hI', w, hsafe, hD.trans _ _ _ _ _ _ hE hE'⟩

variable [DecidableEq R]

section

variable (hD : Discipline S Inv T I E G U)
  (hstart : ∀ s c, C s (.start c) → Sound S Inv T I E G U Q s →
    (program c).Safe S (E c) (G c) U [] {} s.db (Q c s.db) ∧
      ∀ u ∈ s.sessions, u.status = .running → T u.call c ∧ T c u.call)
  (hcommit : ∀ c d a ws H v db, Inv db → I c ws H db → Q c d a ws H v →
    E c ws H v (S.applyAll ws db) → Inv (S.applyAll ws db))
include hD hstart hcommit

theorem sound_of_exec?
    (hC : C s m) (h : Sound S Inv T I E G U Q s) (hex : s.exec? S program m = some s') :
    Sound S Inv T I E G U Q s' := by
  cases happens_of_exec? hex with
  | start c =>
    obtain ⟨hsafe, htogether⟩ := hstart s c hC h
    exact h.start ⟨hD.start _ _ h.inv, s.db, hsafe, hD.refl _ _ _ _⟩ htogether
  | commit i u a hi hu hp =>
    obtain ⟨hI, v, hsafe, hE⟩ := h.sessions u (mem_of_getElem? hi) hu
    rw [hp] at hsafe
    exact hD.sound_commit h hi hu (hcommit _ _ a _ _ v _ h.inv hI hsafe hE)
  | quit m i u hi hu hm => exact h.finish hi .aborted nofun
  | lock i u r l k hi hu hp hfree =>
    obtain ⟨hI, v, hsafe, hE⟩ := h.sessions u (mem_of_getElem? hi) hu
    rw [hp] at hsafe
    refine h.put hi rfl (fun _ => hu) (h.below u (mem_of_getElem? hi))
      (h.locks_of_free hi hfree) fun _ => ?_
    exact ⟨hD.lock _ _ _ _ _ hI, _, hsafe _ hE, hD.refl _ _ _ _⟩
  | draw i u k hi hu hp =>
    have hmem := mem_of_getElem? hi
    obtain ⟨hI, v, hsafe, hE⟩ := h.sessions u hmem hu
    rw [hp] at hsafe
    -- the next value is in nobody's hands
    have hfresh : ¬ U (u.view S s.db) s.seq := by
      intro hused
      rcases hD.own _ _ _ _ _ hI hused with hold | hown
      · exact h.fresh _ (Nat.le_refl _) hold
      · exact Nat.lt_irrefl _ (h.below u hmem _ hown)
    have hnot : s.seq ∉ u.drawn := fun hn => Nat.lt_irrefl _ (h.below u hmem _ hn)
    exact h.draw hi hu ⟨hD.draw _ _ _ _ _ hI, _, hsafe _ hE _ hnot hfresh, hD.refl _ _ _ _⟩
  | stmt i u ws k d hi hu hp hfree hd =>
    obtain ⟨hI, v, hsafe, hE⟩ := h.sessions u (mem_of_getElem? hi) hu
    rw [hp] at hsafe
    obtain ⟨hG, hnext⟩ := hsafe _ hE
    refine h.put hi rfl (fun _ => hu) (h.below u (mem_of_getElem? hi))
      (h.locks_of_free hi hfree) fun _ => ⟨?_, d, hnext d hd, ?_⟩
    · exact hD.stmt _ _ _ _ _ d h.inv hI hG hd
    · have hview : Session.view S { u with
          prog := k (u.view S s.db)
          log := u.log ++ ws (u.view S s.db)
          locks := (ws (u.view S s.db)).flatMap S.locks ++ u.locks } s.db = d := by
        rw [Session.view, Schema.applyAll_append]
        exact (Schema.eq_applyAll_of_perform hd).symm
      rw [hview]
      exact hD.refl _ _ _ _

theorem run_sound (h : Sound S Inv T I E G U Q s) (ms : List (Move κ))
    (hC : Throughout (State.exec? S program) C s ms) :
    Sound S Inv T I E G U Q (run (State.exec? S program) s ms) :=
  run_invariant_of_throughout
    (fun _ _ _ hex hC h => hD.sound_of_exec? hstart hcommit hC h hex) h ms hC

/-- What holds of a result when it is committed, and every write keeps, holds of every committed
result. -/
theorem run_committed {P : κ → α → D → Prop}
    (hQ : ∀ c d a ws H v v', Q c d a ws H v → E c ws H v v' → P c a v')
    (hP : ∀ c a w d, P c a d → P c a (S.apply w d)) {db : D} {seq : ℕ}
    (h : Sound S Inv T I E G U Q ({ db, seq } : State D W R ε α κ)) (ms : List (Move κ))
    (hC : Throughout (State.exec? S program) C { db, seq } ms) :
    Sound S Inv T I E G U Q (run (State.exec? S program) { db, seq } ms) ∧
    ∀ u ∈ (run (State.exec? S program) { db, seq } ms).sessions, ∀ a, u.status = .committed a →
      P u.call a (run (State.exec? S program) { db, seq } ms).db := by
  refine run_invariant_of_throughout (P := fun s => Sound S Inv T I E G U Q s ∧
    ∀ u ∈ s.sessions, ∀ a, u.status = .committed a → P u.call a s.db) ?_ ⟨h, nofun⟩ ms hC
  rintro s m s' hex hC ⟨hs, hold⟩
  refine ⟨hD.sound_of_exec? hstart hcommit hC hs hex, ?_⟩
  have hput : ∀ i u', (∀ a, u'.status ≠ .committed a) → ∀ u ∈ (s.put i u').sessions, ∀ a,
      u.status = .committed a → P u.call a s.db := by
    intro i u' hu' u hu a ha
    rcases mem_or_eq_of_mem_set hu with hu | rfl
    · exact hold u hu a ha
    · exact absurd ha (hu' a)
  cases happens_of_exec? hex with
  | start c =>
    intro u hu a ha
    rcases mem_append.mp hu with hu | hu
    · exact hold u hu a ha
    · cases mem_singleton.mp hu
      cases ha
  | commit i u a hi hu hp =>
    intro v hv b hb
    rcases mem_or_eq_of_mem_set hv with hv | rfl
    · exact Schema.applyAll_induction (fun w _ d => hP _ _ w d) (hold v hv b hb)
    · cases hb
      obtain ⟨-, v, hsafe, hE⟩ := hs.sessions u (mem_of_getElem? hi) hu
      rw [hp] at hsafe
      exact hQ _ _ _ _ _ _ _ hsafe hE
  | quit m i u hi hu hm => exact hput i _ nofun
  | lock i u r l k hi hu hp hfree | draw i u k hi hu hp | stmt i u ws k d hi hu hp hfree hd =>
    exact hput i _ fun a ha => by cases hu.symm.trans ha

end

end Discipline

end Soundness

end Acct.Isolation
