import Acct.Isolation.Logic

/-!
# Constraints guarded by ownership

A session may endanger the constraint `ok r` only while it owns `r`: by a lock it holds, a number it
drew, or because no other call that could is running. `same r` says how others may still change what
`r` is about. A session that checks the constraints it touches keeps all of them, whatever the
others commit in between (`Owned.discipline`), so they hold in every committed database
(`Owned.run_ok`).

A call may also rely on what the calls that run with it leave in place (`stays` and `writes`), on
the constraints themselves, and on drawn numbers not being in use.
-/

namespace Acct.Isolation

open Machine List

universe u

variable {D W R ε κ ρ : Type*} {α β : Type u}

/-- Constraints, who owns them, and how others may change what they are about. -/
structure Owned (S : Schema D W R ε) (κ ρ : Type*) where
  same : ρ → D → D → Prop
  ok : ρ → D → Prop
  touch : W → ρ → Prop
  owns : κ → Holds R → ρ → Prop
  together : κ → κ → Prop
  writes : κ → W → Prop
  stays : κ → D → D → Prop
  used : D → ℕ → Prop
  refl : ∀ r d, same r d d
  trans : ∀ r d d' d'', same r d d' → same r d' d'' → same r d d''
  ok_of_same : ∀ r d d', same r d d' → ok r d → ok r d'
  /-- What an owner's write does to `r` depends on what `r` is about. -/
  apply : ∀ c H w r d d', writes c w → owns c H r → same r d d' →
    same r (S.apply w d) (S.apply w d')
  frame : ∀ w r d, ¬ touch w r → same r d (S.apply w d)
  owns_lock : ∀ c H ls r, owns c H r → owns c (H.lock ls) r
  owns_draw : ∀ c H n r, owns c H r → owns c (H.draw n) r
  exclusive : ∀ c c' H H' r, together c c' → H.Apart H' → owns c H r → ¬ owns c' H' r
  stays_refl : ∀ c d, stays c d d
  stays_trans : ∀ c d d' d'', stays c d d' → stays c d' d'' → stays c d d''
  stays_apply : ∀ c w d d', writes c w → stays c d d' → stays c (S.apply w d) (S.apply w d')
  stays_write : ∀ c c' w d, c' = c ∨ together c c' → writes c' w → stays c d (S.apply w d)
  used_apply : ∀ w n d, used (S.apply w d) n →
    used d n ∨ ∃ r, touch w r ∧ ∀ c H, owns c H r → n ∈ H.drawn

namespace Owned

variable {S : Schema D W R ε} (O : Owned S κ ρ) {ws ws' w : List W} {H H' : Holds R} {d d' db v : D}
  {r : ρ} {c : κ}

/-- Some of the writes endanger `r`. -/
def Touched (ws : List W) (r : ρ) : Prop := ∃ w ∈ ws, O.touch w r

/-- The log touches only what is owned, and leaves it in order. -/
structure Kept (c : κ) (ws : List W) (H : Holds R) (db : D) : Prop where
  writes : ∀ w ∈ ws, O.writes c w
  owns : ∀ r, O.Touched ws r → O.owns c H r
  ok : ∀ r, O.Touched ws r → O.ok r (S.applyAll ws db)

/-- What other sessions may do to the view. -/
structure Rely (c : κ) (_ : List W) (H : Holds R) (v v' : D) : Prop where
  same : ∀ r, O.owns c H r → O.same r v v'
  stays : O.stays c v v'
  ok : ∀ r, O.ok r v → O.ok r v'

/-- What a statement touches must be owned, and left in order if the statement meets its
constraints. -/
structure Guarantee (c : κ) (_ : List W) (H : Holds R) (v : D) (w : List W) : Prop where
  writes : ∀ x ∈ w, O.writes c x
  owns : ∀ r, O.Touched w r → O.owns c H r
  ok : ∀ r, O.Touched w r → ∀ v', S.perform w v = .ok v' → O.ok r (S.applyAll w v)

variable {O}

lemma Touched.of_append {r : ρ} (h : O.Touched (ws ++ w) r) (hw : ¬ O.Touched w r) :
    O.Touched ws r := by
  obtain ⟨x, hx, hxr⟩ := h
  exact ⟨x, (mem_append.mp hx).resolve_right fun hx => hw ⟨x, hx, hxr⟩, hxr⟩

lemma same_applyAll (hws : ∀ w ∈ ws, O.writes c w) (hown : O.owns c H r) (h : O.same r d d') :
    O.same r (S.applyAll ws d) (S.applyAll ws d') := by
  induction ws generalizing d d' with
  | nil => exact h
  | cons w ws ih =>
    exact ih (fun x hx => hws x (mem_cons_of_mem w hx))
      (O.apply c H w r d d' (hws w mem_cons_self) hown h)

lemma same_of_untouched (h : ¬ O.Touched ws r) : O.same r d (S.applyAll ws d) := by
  induction ws generalizing d with
  | nil => exact O.refl r d
  | cons w ws ih =>
    have hw : ¬ O.touch w r := fun ht => h ⟨w, mem_cons_self, ht⟩
    have hws : ¬ O.Touched ws r := by
      rintro ⟨x, hx, ht⟩
      exact h ⟨x, mem_cons_of_mem w hx, ht⟩
    exact O.trans r _ _ _ (O.frame w r d hw) (ih hws)

lemma stays_applyAll {c' : κ} (hc : c' = c ∨ O.together c c') (hws : ∀ w ∈ ws, O.writes c' w)
    (d : D) : O.stays c d (S.applyAll ws d) := by
  induction ws generalizing d with
  | nil => exact O.stays_refl c d
  | cons w ws ih =>
    exact O.stays_trans c _ _ _ (O.stays_write c c' w d hc (hws w mem_cons_self))
      (ih (fun x hx => hws x (mem_cons_of_mem w hx)) _)

lemma stays_under (hws : ∀ w ∈ ws, O.writes c w) (h : O.stays c d d') :
    O.stays c (S.applyAll ws d) (S.applyAll ws d') := by
  induction ws generalizing d d' with
  | nil => exact h
  | cons w ws ih =>
    exact ih (fun x hx => hws x (mem_cons_of_mem w hx))
      (O.stays_apply c w d d' (hws w mem_cons_self) h)

lemma used_applyAll {n : ℕ} (h : O.used (S.applyAll ws d) n) :
    O.used d n ∨ ∃ r, O.Touched ws r ∧ ∀ c H, O.owns c H r → n ∈ H.drawn := by
  induction ws generalizing d with
  | nil => exact .inl h
  | cons w ws ih =>
    rcases ih h with h | ⟨r, ⟨x, hx, hr⟩, hn⟩
    · rcases O.used_apply w n d h with h | ⟨r, hr, hn⟩
      · exact .inl h
      · exact .inr ⟨r, ⟨w, mem_cons_self, hr⟩, hn⟩
    · exact .inr ⟨r, ⟨x, mem_cons_of_mem w hx, hr⟩, hn⟩

namespace Kept

lemma untouched {c' : κ} (h' : O.Kept c' ws' H' db) (ht : O.together c c')
    (hapart : H.Apart H') (hown : O.owns c H r) : ¬ O.Touched ws' r :=
  fun htouch => O.exclusive c c' H H' r ht hapart hown (h'.owns r htouch)

lemma stmt (h : O.Kept c ws H db) (hG : O.Guarantee c ws H (S.applyAll ws db) w)
    (hw : S.perform w (S.applyAll ws db) = .ok d) (ls : List (R × RowLock)) :
    O.Kept c (ws ++ w) (H.lock ls) db where
  writes x hx := (mem_append.mp hx).elim (h.writes x) (hG.writes x)
  owns r hr := by
    by_cases ht : O.Touched w r
    · exact O.owns_lock c H ls r (hG.owns r ht)
    · exact O.owns_lock c H ls r (h.owns r (hr.of_append ht))
  ok r hr := by
    rw [Schema.applyAll_append]
    by_cases ht : O.Touched w r
    · exact hG.ok r ht d hw
    · exact O.ok_of_same r _ _ (same_of_untouched ht) (h.ok r (hr.of_append ht))

lemma commit {c' : κ} (h : O.Kept c ws H db) (h' : O.Kept c' ws' H' db)
    (ht : O.together c c') (hapart : H.Apart H') : O.Kept c ws H (S.applyAll ws' db) where
  writes := h.writes
  owns := h.owns
  ok r hr := by
    have hsame : O.same r db (S.applyAll ws' db) :=
      same_of_untouched (h'.untouched ht hapart (h.owns r hr))
    exact O.ok_of_same r _ _ (same_applyAll h.writes (h.owns r hr) hsame) (h.ok r hr)

/-- What the session sees to be in order stays so when another session commits. -/
lemma ok_of_commit {c' : κ} (h : O.Kept c ws H db) (h' : O.Kept c' ws' H' db)
    (ht : O.together c c') (hapart : H.Apart H') (hdb : O.ok r (S.applyAll ws' db))
    (hv : O.ok r (S.applyAll ws db)) : O.ok r (S.applyAll ws (S.applyAll ws' db)) := by
  by_cases hr : O.Touched ws r
  · have hsame := same_of_untouched (d := db) (h'.untouched ht hapart (h.owns r hr))
    exact O.ok_of_same r _ _ (same_applyAll h.writes (h.owns r hr) hsame) hv
  · exact O.ok_of_same r _ _ (same_of_untouched hr) hdb

end Kept

variable (O)

theorem discipline :
    Discipline S (fun db => ∀ r, O.ok r db) O.together O.Kept O.Rely O.Guarantee O.used where
  refl c _ _ v := ⟨fun r _ => O.refl r v, O.stays_refl c v, fun _ h => h⟩
  trans c _ _ _ _ _ h h' :=
    ⟨fun r hr => O.trans r _ _ _ (h.same r hr) (h'.same r hr),
      O.stays_trans c _ _ _ h.stays h'.stays, fun r hr => h'.ok r (h.ok r hr)⟩
  start _ _ _ := by
    have hnone : ∀ r, ¬ O.Touched [] r := by
      rintro r ⟨x, hx, -⟩
      cases hx
    exact ⟨fun x hx => (by cases hx), fun r hr => absurd hr (hnone r),
      fun r hr => absurd hr (hnone r)⟩
  lock c l _ H _ h := ⟨h.writes, fun r hr => O.owns_lock c H [l] r (h.owns r hr), h.ok⟩
  draw c n _ H _ h := ⟨h.writes, fun r hr => O.owns_draw c H n r (h.owns r hr), h.ok⟩
  own c n _ H _ h hused := by
    rcases used_applyAll hused with hold | ⟨r, hr, hn⟩
    · exact .inl hold
    · exact .inr (hn c H (h.owns r hr))
  stmt _ _ _ _ _ _ _ h hG hw := h.stmt hG hw _
  commit _ _ _ _ _ _ _ ht _ hdb hapart h h' :=
    ⟨h.commit h' ht hapart,
      fun _ hr => same_applyAll h.writes hr (same_of_untouched (h'.untouched ht hapart hr)),
      stays_under h.writes (stays_applyAll (.inr ht) h'.writes _),
      fun r hv => h.ok_of_commit h' ht hapart (hdb r) hv⟩

def Safe (c : κ) (p : Prog D W R ε α) (ws : List W) (H : Holds R) (v : D)
    (Q : α → List W → Holds R → D → Prop) : Prop :=
  p.Safe S (O.Rely c) (O.Guarantee c) O.used ws H v Q

variable {O}

/-- If every call is safe from where it starts, with the constraints in order, and only calls that
may run together do, the constraints hold in every committed database. -/
theorem run_ok [DecidableEq R] {program : κ → Prog D W R ε α}
    {C : State D W R ε α κ → Move κ → Prop}
    (hsafe : ∀ s c, C s (.start c) → (∀ r, O.ok r s.db) →
      O.Safe c (program c) [] {} s.db fun _ _ _ _ => True)
    (hC : ∀ s c, C s (.start c) → ∀ u ∈ s.sessions, u.status = .running →
      O.together u.call c ∧ O.together c u.call)
    (h : ∀ r, O.ok r db) {seq : ℕ} (hfresh : ∀ n, seq ≤ n → ¬ O.used db n) (ms : List (Move κ))
    (hms : Throughout (State.exec? S program) C { db, seq } ms) :
    ∀ r, O.ok r (run (State.exec? S program) { db, seq } ms).db := by
  have hsound := O.discipline.run_sound (Q := fun _ _ _ _ _ _ => True) ?_ ?_
    (.init db seq h hfresh) ms hms
  · exact hsound.inv
  · exact fun s c hc hs => ⟨hsafe s c hc hs.inv, hC s c hc⟩
  · intro c opened a ws H v db hinv hkept _ _ r
    by_cases hr : O.Touched ws r
    · exact hkept.ok r hr
    · exact O.ok_of_same r _ _ (same_of_untouched hr) (hinv r)

/-! ### Rules -/

section Rules

variable (O) (c) in
structure Stable (K : Holds R → D → Prop) : Prop where
  rely : ∀ H v v', (∀ r, O.owns c H r → O.same r v v') → O.stays c v v' →
    (∀ r, O.ok r v → O.ok r v') → K H v → K H v'
  lock : ∀ H ls v, K H v → K (H.lock ls) v
  draw : ∀ H n v, K H v → K (H.draw n) v

def Harmless (O : Owned S κ ρ) (c : κ) (w : W) : Prop := O.writes c w ∧ ∀ r, ¬ O.touch w r

variable {K : Holds R → D → Prop} {p : Prog D W R ε α}

namespace Stable

lemma and {K' : Holds R → D → Prop} (h : O.Stable c K) (h' : O.Stable c K') :
    O.Stable c fun H v => K H v ∧ K' H v where
  rely H v v' hE hs hok hv := ⟨h.rely H v v' hE hs hok hv.1, h'.rely H v v' hE hs hok hv.2⟩
  lock H ls v hv := ⟨h.lock H ls v hv.1, h'.lock H ls v hv.2⟩
  draw H n v hv := ⟨h.draw H n v hv.1, h'.draw H n v hv.2⟩

lemma of_rely (h : O.Stable c K) (hE : O.Rely c ws H v d) (hv : K H v) : K H d :=
  h.rely H v d hE.same hE.stays hE.ok hv

lemma applyAll (h : O.Stable c K) (hc : ∀ x ∈ w, O.writes c x) (hw : ∀ r, ¬ O.Touched w r)
    (hv : K H v) : K H (S.applyAll w v) :=
  h.rely H v _ (fun r _ => same_of_untouched (hw r)) (stays_applyAll (.inl rfl) hc v)
    (fun r => O.ok_of_same r _ _ (same_of_untouched (hw r))) hv

end Stable

lemma stable_true : O.Stable c fun _ _ => True :=
  ⟨fun _ _ _ _ _ _ h => h, fun _ _ _ h => h, fun _ _ _ h => h⟩

lemma stable_ok : O.Stable c fun _ v => ∀ r, O.ok r v :=
  ⟨fun _ _ _ _ _ hok h r => hok r (h r), fun _ _ _ h => h, fun _ _ _ h => h⟩

lemma not_touched_of_harmless (h : ∀ x ∈ w, O.Harmless c x) (r : ρ) : ¬ O.Touched w r := by
  rintro ⟨x, hx, ht⟩
  exact (h x hx).2 r ht

lemma guarantee_of_harmless (h : ∀ x ∈ w, O.Harmless c x) : O.Guarantee c ws H v w where
  writes x hx := (h x hx).1
  owns r hr := absurd hr (not_touched_of_harmless h r)
  ok r hr := absurd hr (not_touched_of_harmless h r)

lemma Guarantee.ok_applyAll {v' : D} (h : O.Guarantee c ws H v w) (hw : S.perform w v = .ok v')
    (hv : O.ok r v) : O.ok r (S.applyAll w v) := by
  by_cases ht : O.Touched w r
  · exact h.ok r ht v' hw
  · exact O.ok_of_same r _ _ (same_of_untouched ht) hv

lemma perform_single {x : W} {v' : D} (h : S.perform [x] v = .ok v') : S.check x v = .ok () := by
  rw [Schema.perform] at h
  split at h
  next => cases h
  next hx => exact hx

lemma guarantee_single {x : W} (hx : O.writes c x)
    (h : ∀ r, O.touch x r → O.owns c H r ∧ (S.check x v = .ok () → O.ok r (S.apply x v))) :
    O.Guarantee c ws H v [x] := by
  have htouch : ∀ r, O.Touched [x] r → O.touch x r := by
    rintro r ⟨y, hy, ht⟩
    obtain rfl := mem_singleton.mp hy
    exact ht
  refine ⟨fun y hy => ?_, fun r hr => (h r (htouch r hr)).1, fun r hr v' hperf =>
    (h r (htouch r hr)).2 (perform_single hperf)⟩
  obtain rfl := mem_singleton.mp hy
  exact hx

lemma safe_harmless (hp : p.Only (O.Harmless c)) (hK : O.Stable c K) (hv : K H v) :
    O.Safe c p ws H v fun _ _ H' v' => K H' v' := by
  refine Prog.Safe.mono (hp.safe (K := K) ?_ ?_ ?_ ?_ ?_ hv) fun _ _ _ _ h => h.2
  · exact fun ws H v w _ hw => guarantee_of_harmless hw
  · exact fun _ H v v' hE h => hK.of_rely hE h
  · exact fun ls H v h => hK.lock H ls v h
  · exact fun n H v h => hK.draw H n v h
  · intro H w v v' hw hperf h
    rw [Schema.eq_applyAll_of_perform hperf]
    exact hK.applyAll (fun x hx => (hw x hx).1) (not_touched_of_harmless hw) h

lemma safe_query {g : D → α} {Q : α → List W → Holds R → D → Prop} (hK : O.Stable c K) (hv : K H v)
    (h : ∀ v', K H v' → Q (g v') ws H v') :
    O.Safe c (Prog.query g) ws H v Q :=
  Prog.safe_query (fun _ => guarantee_of_harmless nofun)
    fun v' hE => h v' (hK.of_rely hE hv)

lemma safe_fetch {g : D → Except ε α} {Q : α → List W → Holds R → D → Prop} (hK : O.Stable c K)
    (hv : K H v) (h : ∀ v' a, K H v' → g v' = .ok a → Q a ws H v') :
    O.Safe c (Prog.fetch g) ws H v Q :=
  Prog.safe_fetch (fun _ => guarantee_of_harmless nofun)
    fun v' a hE ha => h v' a (hK.of_rely hE hv) ha

lemma safe_lock {r : R} {m : RowLock} {Q : Unit → List W → Holds R → D → Prop}
    (hK : O.Stable c K) (hv : K H v) (h : ∀ v', K H v' → Q () ws (H.lock [(r, m)]) v') :
    O.Safe c (Prog.lockRow r m) ws H v Q :=
  fun v' hE => h v' (hK.of_rely hE hv)

lemma stable_locked (l : R × RowLock) : O.Stable c fun H _ => l ∈ H.locks :=
  ⟨fun _ _ _ _ _ _ h => h, fun _ ls _ h => mem_append_right ls h, fun _ _ _ h => h⟩

lemma stable_owns (r : ρ) : O.Stable c fun H _ => O.owns c H r :=
  ⟨fun _ _ _ _ _ _ h => h, fun H ls _ h => O.owns_lock c H ls r h,
    fun H n _ h => O.owns_draw c H n r h⟩

lemma safe_lockRows {m : RowLock} {rs : List R} (hK : O.Stable c K) (hv : K H v) :
    O.Safe c (Prog.lockRows m rs) ws H v fun _ _ H' v' =>
      K H' v' ∧ ∀ r ∈ rs, (r, m) ∈ H'.locks := by
  induction rs generalizing K H v with
  | nil =>
    refine ⟨hv, fun r hr => ?_⟩
    cases hr
  | cons r rs ih =>
    intro v' hE
    have hv' : K (H.lock [(r, m)]) v' ∧ (r, m) ∈ (H.lock [(r, m)]).locks :=
      ⟨hK.lock _ _ _ (hK.of_rely hE hv), mem_cons_self⟩
    refine (ih (hK.and (stable_locked (r, m))) hv').mono fun _ _ H1 v1 h =>
      ⟨h.1.1, fun r' hr' => ?_⟩
    rcases mem_cons.mp hr' with rfl | hmem
    · exact h.1.2
    · exact h.2 r' hmem

lemma safe_nextval {Q : ℕ → List W → Holds R → D → Prop} (hK : O.Stable c K) (hv : K H v)
    (h : ∀ v' n, K H v' → n ∉ H.drawn → ¬ O.used v' n → Q n ws (H.draw n) v') :
    O.Safe c (Prog.nextval : Prog D W R ε ℕ) ws H v Q :=
  Prog.safe_nextval fun v' hE n hdrawn hn => h v' n (hK.of_rely hE hv) hdrawn hn

lemma safe_exec {x : W} {Q : Unit → List W → Holds R → D → Prop} (hK : O.Stable c K) (hv : K H v)
    (hG : ∀ v', K H v' → O.Guarantee c ws H v' [x])
    (h : ∀ v', K H v' → S.check x v' = .ok () →
      Q () (ws ++ [x]) (H.lock (S.locks x)) (S.apply x v')) :
    O.Safe c (Prog.exec x) ws H v Q := by
  intro v' hE
  have hv' := hK.of_rely hE hv
  refine ⟨hG v' hv', fun v'' hperf => ?_⟩
  rw [Schema.perform] at hperf
  split at hperf
  next => cases hperf
  next hx =>
    cases hperf
    simpa [Prog.Safe] using h v' hv' hx

lemma safe_ensure {q : Prop} [Decidable q] {e : ε} {Q : Unit → List W → Holds R → D → Prop}
    (h : q → Q () ws H v) : O.Safe c (Prog.ensure q e) ws H v Q := Prog.safe_ensure h

lemma Safe.bind {f : α → Prog D W R ε β} {Q : α → List W → Holds R → D → Prop}
    {Q' : β → List W → Holds R → D → Prop} (h : O.Safe c p ws H v Q)
    (hf : ∀ a ws H v, Q a ws H v → O.Safe c (f a) ws H v Q') : O.Safe c (p >>= f) ws H v Q' :=
  Prog.Safe.bind h hf

lemma safe_bind {f : α → Prog D W R ε β} {Q : β → List W → Holds R → D → Prop}
    (h : O.Safe c p ws H v fun a ws H v => O.Safe c (f a) ws H v Q) :
    O.Safe c (p >>= f) ws H v Q := Prog.safe_bind.mpr h

lemma Safe.mono {Q Q' : α → List W → Holds R → D → Prop} (h : O.Safe c p ws H v Q)
    (hQ : ∀ a ws H v, Q a ws H v → Q' a ws H v) : O.Safe c p ws H v Q' := Prog.Safe.mono h hQ

lemma safe_pure {a : α} {Q : α → List W → Holds R → D → Prop} (h : Q a ws H v) :
    O.Safe c (pure a) ws H v Q := h

lemma safe_raise {e : ε} {Q : α → List W → Holds R → D → Prop} :
    O.Safe c (.raise e) ws H v Q := trivial

end Rules

end Owned

end Acct.Isolation
