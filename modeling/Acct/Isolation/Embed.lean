import Acct.Isolation.Sequential

/-!
# Programs over part of a database

`part` reads off a part of the database with a schema of its own. A program over the part is a
program over the whole (`Prog.embed`) that sees only the part and writes only there.
-/

namespace Acct.Isolation

universe u

variable {D D' W W' R R' ε ε' : Type*} {α β : Type u}

structure Part (D W R ε D' W' R' ε' : Type*) where
  part : D' → D
  write : W → W'
  row : R → R'
  error : ε → ε'

namespace Prog

def embed (P : Part D W R ε D' W' R' ε') : Prog D W R ε α → Prog D' W' R' ε' α
  | .ret a => .ret a
  | .raise e => .raise (P.error e)
  | .lock r m k => .lock (P.row r) m (k.embed P)
  | .draw k => .draw fun n => (k n).embed P
  | .stmt ws k => .stmt (fun d => (ws (P.part d)).map P.write) fun d => (k (P.part d)).embed P

variable {P : Part D W R ε D' W' R' ε'} {p : Prog D W R ε α}

/-! ### Statements -/

@[simp] lemma embed_pure (a : α) : (pure a : Prog D W R ε α).embed P = pure a := rfl

@[simp] lemma embed_bind (p : Prog D W R ε α) (f : α → Prog D W R ε β) :
    (p >>= f).embed P = p.embed P >>= fun a => (f a).embed P := by
  show (p.bind f).embed P = (p.embed P).bind fun a => (f a).embed P
  induction p with
  | ret a | raise e => rfl
  | lock r m k ih | draw k ih | stmt ws k ih => simp only [Prog.bind, embed, ih]

@[simp] lemma embed_query (g : D → α) :
    (query g : Prog D W R ε α).embed P = query fun d => g (P.part d) := rfl

@[simp] lemma embed_exec (w : W) : (exec w : Prog D W R ε Unit).embed P = exec (P.write w) := rfl

@[simp] lemma embed_nextval : (nextval : Prog D W R ε ℕ).embed P = nextval := rfl

@[simp] lemma embed_ensure (q : Prop) [Decidable q] (e : ε) :
    (ensure q e : Prog D W R ε Unit).embed P = ensure q (P.error e) := by
  unfold ensure
  split <;> rfl

@[simp] lemma embed_fetch (g : D → Except ε α) :
    (fetch g : Prog D W R ε α).embed P = fetch fun d => (g (P.part d)).mapError P.error := by
  simp only [fetch, embed, List.map_nil]
  congr 1
  funext d
  cases g (P.part d) <;> rfl

@[simp] lemma embed_lockRows (m : RowLock) (rs : List R) :
    (lockRows m rs : Prog D W R ε Unit).embed P = lockRows m (rs.map P.row) := by
  induction rs with
  | nil => rfl
  | cons r rs ih => simp only [lockRows, embed, List.map_cons, ih]

lemma only_embed {B : W' → Prop} (hB : ∀ w, B (P.write w)) : (p.embed P).Only B := by
  induction p with
  | ret a | raise e => trivial
  | lock r m k ih => exact ih
  | draw k ih => exact fun n => ih n
  | stmt ws k ih =>
    refine fun d => ⟨fun w hw => ?_, ih _⟩
    obtain ⟨x, -, rfl⟩ := List.mem_map.mp hw
    exact hB x

lemma Only.embed {A : W → Prop} {B : W' → Prop} (hp : p.Only A) (hAB : ∀ w, A w → B (P.write w)) :
    (p.embed P).Only B := by
  induction p with
  | ret a | raise e => trivial
  | lock r m k ih => exact ih hp
  | draw k ih => exact fun n => ih n (hp n)
  | stmt ws k ih =>
    refine fun d => ⟨fun w hw => ?_, ih _ (hp _).2⟩
    obtain ⟨x, hx, rfl⟩ := List.mem_map.mp hw
    exact hAB x ((hp _).1 x hx)

end Prog

end Acct.Isolation
