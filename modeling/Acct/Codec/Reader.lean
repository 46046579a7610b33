import Mathlib.Data.List.Basic
import Mathlib.Tactic.Ring

/-!
# Readers of byte buffers

`Reads p bytes a` says that `p` takes exactly `bytes` for `a`, whatever follows, and fails on every
strict prefix of `bytes`. This passes along sequences and loops, so the format of a message is
proved field by field.
-/

namespace Acct.Codec

open List

structure Cursor where
  pos : ℕ
  rest : List UInt8
  deriving DecidableEq

abbrev Reader (ε α : Type) := StateT Cursor (Except ε) α

variable {ε α β ι : Type}

/-- `p` reads exactly `bytes`, as `a`; a buffer that ends within them is an error. -/
structure Reads (p : Reader ε α) (bytes : List UInt8) (a : α) : Prop where
  full : ∀ pos rest, p ⟨pos, bytes ++ rest⟩ = .ok (a, ⟨pos + bytes.length, rest⟩)
  cut : ∀ pos q, q <+: bytes → q ≠ bytes → ∃ e, p ⟨pos, q⟩ = .error e

lemma reads_pure (a : α) : Reads (pure a : Reader ε α) [] a where
  full _ _ := rfl
  cut _ _ hq hne := absurd (prefix_nil.mp hq) hne

lemma Reads.bind {p : Reader ε α} {f : α → Reader ε β} {bytes bytes' : List UInt8} {a : α} {b : β}
    (hp : Reads p bytes a) (hf : Reads (f a) bytes' b) : Reads (p >>= f) (bytes ++ bytes') b where
  full pos rest := by
    show (p ⟨pos, bytes ++ bytes' ++ rest⟩).bind _ = _
    rw [append_assoc, hp.full]
    show f a _ = _
    rw [hf.full, length_append, add_assoc]
  cut pos q hq hne := by
    show ∃ e, (p ⟨pos, q⟩).bind _ = _
    -- the buffer ends within the first part, or behind it and within the second
    rcases lt_or_ge q.length bytes.length with hlt | hge
    · have hq' : q <+: bytes :=
        prefix_of_prefix_length_le hq (prefix_append _ _) hlt.le
      obtain ⟨e, he⟩ := hp.cut pos q hq' fun h => hlt.ne (congrArg _ h)
      exact ⟨e, by rw [he]; rfl⟩
    · obtain ⟨q, rfl⟩ := prefix_of_prefix_length_le (prefix_append _ _) hq hge
      rw [prefix_append_right_inj] at hq
      obtain ⟨e, he⟩ := hf.cut (pos + bytes.length) q hq fun h => hne (by rw [h])
      refine ⟨e, ?_⟩
      rw [hp.full]
      exact he

/-- The next `n` bytes. -/
def take (truncated : ℕ → Cursor → ε) (n : ℕ) : Reader ε (List UInt8) := fun c =>
  if n ≤ c.rest.length then .ok (c.rest.take n, ⟨c.pos + n, c.rest.drop n⟩)
  else .error (truncated n c)

lemma reads_take (truncated : ℕ → Cursor → ε) (bytes : List UInt8) :
    Reads (take truncated bytes.length) bytes bytes where
  full pos rest := by simp [take]
  cut pos q hq hne := by
    have hlt : q.length < bytes.length :=
      lt_of_le_of_ne hq.length_le fun h => hne (hq.eq_of_length h)
    exact ⟨_, if_neg (not_le.mpr hlt)⟩

def untilZero (unterminated : ε) : Reader ε (List UInt8) := fun c =>
  match c.rest.findIdx? (· = 0) with
  | none => .error unterminated
  | some n => .ok (c.rest.take n, ⟨c.pos + n + 1, c.rest.drop (n + 1)⟩)

lemma reads_untilZero (unterminated : ε) {bytes : List UInt8} (h : 0 ∉ bytes) :
    Reads (untilZero unterminated) (bytes ++ [0]) bytes where
  full pos rest := by
    have hnone : bytes.findIdx? (· = 0) = none := by
      rw [List.findIdx?_eq_none_iff]
      intro b hb
      simpa using ne_of_mem_of_not_mem hb h
    have hidx : (bytes ++ [0] ++ rest).findIdx? (· = 0) = some bytes.length := by
      simp [List.findIdx?_append, hnone, List.findIdx?_cons]
    simp only [untilZero, hidx]
    simp [drop_append, add_assoc]
  cut pos q hq hne := by
    have hq' : q <+: bytes := by
      rcases prefix_concat_iff.mp hq with rfl | hq'
      · exact absurd rfl hne
      · exact hq'
    have hnone : q.findIdx? (· = 0) = none := by
      rw [List.findIdx?_eq_none_iff]
      intro b hb
      simpa using ne_of_mem_of_not_mem (hq'.mem hb) h
    exact ⟨unterminated, by simp [untilZero, hnone]⟩

/-! ### Loops -/

/-- `n` times the same. -/
def times (p : Reader ε α) : ℕ → Reader ε (List α)
  | 0 => pure []
  | n + 1 => do
    let a ← p
    let as ← times p n
    return a :: as

lemma Reads.times {p : Reader ε α} {bytes : ι → List UInt8} {val : ι → α} {items : List ι}
    (h : ∀ i ∈ items, Reads p (bytes i) (val i)) :
    Reads (Codec.times p items.length) (items.flatMap bytes) (items.map val) := by
  induction items with
  | nil => exact reads_pure []
  | cons i items ih =>
    have hrest : Reads (Codec.times p items.length >>= fun as => pure (val i :: as))
        (items.flatMap bytes ++ []) (val i :: items.map val) :=
      (ih fun j hj => h j (mem_cons_of_mem i hj)).bind (reads_pure _)
    rw [append_nil] at hrest
    exact (h i mem_cons_self).bind hrest

/-! ### Numbers -/

def ofBe (bytes : List UInt8) : ℕ := bytes.foldl (fun n b => n * 256 + b.toNat) 0

/-- A number as `k` bytes. -/
def toBe : ℕ → ℕ → List UInt8
  | 0, _ => []
  | k + 1, n => toBe k (n / 256) ++ [UInt8.ofNat (n % 256)]

@[simp] lemma length_toBe (k n : ℕ) : (toBe k n).length = k := by
  induction k generalizing n with
  | zero => rfl
  | succ k ih => simp [toBe, ih]

lemma ofBe_toBe {k n : ℕ} (h : n < 256 ^ k) : ofBe (toBe k n) = n := by
  induction k generalizing n with
  | zero => simp_all [ofBe, toBe]
  | succ k ih =>
    have hdiv : n / 256 < 256 ^ k := by
      rw [Nat.div_lt_iff_lt_mul (by norm_num)]
      simpa [pow_succ] using h
    have hlow : (UInt8.ofNat (n % 256)).toNat = n % 256 := by
      simp
    have hstep : ofBe (toBe (k + 1) n) = ofBe (toBe k (n / 256)) * 256 + n % 256 := by
      simp [ofBe, toBe]
    rw [hstep, ih hdiv]
    omega

end Acct.Codec
