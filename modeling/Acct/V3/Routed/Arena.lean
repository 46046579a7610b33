import Acct.Linked.Chain
import Mathlib.Algebra.Group.Nat.Defs
import Mathlib.Data.List.Nodup
import Mathlib.Data.List.Perm.Subperm
import Mathlib.Data.List.Range

/-!
# The spillover arena

`SpilloverArena` of `ledger-routed/src/arena.rs` cuts a byte array into blocks of an 8-byte header
and a payload. The freed blocks are a list through their own headers. The counters of calls are left
out. `none` is a panic, or a walk over more blocks than the array has bytes; no run ends in it
(`spillover_sound`).
-/

namespace Acct.V3

open List

/-! ### The code -/

def arenaBytes : ℕ := 128 * 1024 * 1024

structure BlockHeader where
  size : ℕ
  nextFree : ℕ

/-- `SpilloverArena` -/
structure SpilloverArena where
  freelistHeadOffset : ℕ := 0
  bumpOffset : ℕ := 0
  bytes : ℕ → ℕ := fun _ => 0

/-- `u32::from_le_bytes` -/
def readU32 (bytes : ℕ → ℕ) (off : ℕ) : ℕ :=
  bytes off + 256 * bytes (off + 1) + 256 ^ 2 * bytes (off + 2) + 256 ^ 3 * bytes (off + 3)

/-- `u32::to_le_bytes` -/
def writeU32 (bytes : ℕ → ℕ) (off v n : ℕ) : ℕ :=
  if off ≤ n ∧ n < off + 4 then v / 256 ^ (n - off) % 256 else bytes n

/-- `(value + alignment - 1) & !(alignment - 1)`, for a power of two -/
def alignUp (value alignment : ℕ) : ℕ := (value + alignment - 1) / alignment * alignment

namespace SpilloverArena

variable (a : SpilloverArena)

def header (off : ℕ) : BlockHeader := ⟨readU32 a.bytes off, readU32 a.bytes (off + 4)⟩

def setHeader (off : ℕ) (hdr : BlockHeader) : SpilloverArena :=
  { a with bytes := writeU32 (writeU32 a.bytes off hdr.size) (off + 4) hdr.nextFree }

def readHeader (off : ℕ) : Option BlockHeader :=
  if off + 8 ≤ arenaBytes then some (a.header off) else none

def writeHeader (off : ℕ) (hdr : BlockHeader) : Option SpilloverArena :=
  if off + 8 ≤ arenaBytes then some (a.setHeader off hdr) else none

/-- The block `cur` is taken from the list, in which `prev` is before it. -/
def take (prev cur : ℕ) (hdr : BlockHeader) : Option (Option ℕ × SpilloverArena) := do
  let a ← if prev = 0 then some { a with freelistHeadOffset := hdr.nextFree }
    else do
      let p ← a.readHeader prev
      a.writeHeader prev { p with nextFree := hdr.nextFree }
  let a ← a.writeHeader cur ⟨hdr.size, 0⟩
  return (some (cur + 8), a)

def bump (size : ℕ) : Option (Option ℕ × SpilloverArena) :=
  let headerOffset := a.bumpOffset
  let newBump := headerOffset + (8 + size)
  if 2 ^ 32 ≤ newBump then some (none, a)
  else if newBump > arenaBytes then some (none, a)
  else do
    let a ← { a with bumpOffset := newBump }.writeHeader headerOffset ⟨size, 0⟩
    return (some (headerOffset + 8), a)

/-- First fit along the free list, else the bump pointer. -/
def walk (size : ℕ) : ℕ → ℕ → ℕ → Option (Option ℕ × SpilloverArena)
  | 0, _, _ => none
  | fuel + 1, prev, cur =>
    if cur = 0 then a.bump size
    else do
      let hdr ← a.readHeader cur
      if hdr.size ≥ size then a.take prev cur hdr
      else walk size fuel cur hdr.nextFree

/-- Offset 0 ends the list, so no block starts there. -/
def lazyInit : SpilloverArena := if a.bumpOffset = 0 then { a with bumpOffset := 8 } else a

/-- `alloc` -/
def alloc (size : ℕ) : Option (Option ℕ × SpilloverArena) :=
  if size = 0 then some (none, a)
  else a.lazyInit.walk (alignUp size 8) (arenaBytes + 1) 0 a.lazyInit.freelistHeadOffset

/-- `free` -/
def free (payloadOffset : ℕ) : Option SpilloverArena :=
  if payloadOffset < 8 then none
  else do
    let headerOffset := payloadOffset - 8
    let hdr ← a.readHeader headerOffset
    let a' ← a.writeHeader headerOffset { hdr with nextFree := a.freelistHeadOffset }
    return { a' with freelistHeadOffset := headerOffset }

/-- A run on a zeroed arena, with the payloads that are allocated: offset and requested size. -/
inductive Reachable : SpilloverArena → List (ℕ × ℕ) → Prop
  | zeroed : Reachable {} []
  | alloc {a live n r a'} : Reachable a live → 1 ≤ n → n ≤ 2 ^ 31 → a.alloc n = some (r, a') →
    Reachable a' (r.toList.map (·, n) ++ live)
  | free {a live p a'} : Reachable a live → p ∈ live → a.free p.1 = some a' →
    Reachable a' (live.erase p)

/-! ### Headers -/

section Header

variable {bytes : ℕ → ℕ} {a : SpilloverArena} {off off' v : ℕ} {hdr : BlockHeader}

lemma readU32_writeU32_self (hv : v < 2 ^ 32) : readU32 (writeU32 bytes off v) off = v := by
  simp [readU32, writeU32]
  omega

lemma readU32_writeU32_ne (h : off + 4 ≤ off' ∨ off' + 4 ≤ off) :
    readU32 (writeU32 bytes off v) off' = readU32 bytes off' := by
  unfold readU32 writeU32
  repeat rw [if_neg (by omega)]

lemma header_setHeader_self (hs : hdr.size < 2 ^ 32) (hn : hdr.nextFree < 2 ^ 32) :
    (a.setHeader off hdr).header off = hdr := by
  unfold setHeader header
  rw [readU32_writeU32_ne (by omega), readU32_writeU32_self hs, readU32_writeU32_self hn]

lemma header_setHeader_ne (h : off + 8 ≤ off' ∨ off' + 8 ≤ off) :
    (a.setHeader off hdr).header off' = a.header off' := by
  unfold setHeader header
  repeat rw [readU32_writeU32_ne (by omega)]

end Header

/-! ### The layout -/

/-- The blocks, by header offset and payload size, partition `[8, bump)`. -/
structure Tiling (bump : ℕ) (blocks : List (ℕ × ℕ)) : Prop where
  le : bump ≤ arenaBytes
  dvd : 8 ∣ bump
  aligned : ∀ b ∈ blocks, 8 ∣ b.1 ∧ 8 ∣ b.2
  cover : ∀ n, (∃ b ∈ blocks, b.1 ≤ n ∧ n < b.1 + 8 + b.2) ↔ 8 ≤ n ∧ n < bump
  apart : blocks.Pairwise fun b c => b.1 + 8 + b.2 ≤ c.1 ∨ c.1 + 8 + c.2 ≤ b.1

def next (a : SpilloverArena) (off : ℕ) : ℕ := (a.header off).nextFree

def headerOf (payload : ℕ × ℕ) : ℕ := payload.1 - 8

/-- Each block is live or on the list, once. A live payload is in its block. -/
structure Layout (a : SpilloverArena) (live blocks : List (ℕ × ℕ)) (free : List ℕ) : Prop where
  tiling : Tiling a.bumpOffset blocks
  sizes : ∀ b ∈ blocks, (a.header b.1).size = b.2
  chain : Chain a.next a.freelistHeadOffset free
  split : (free ++ live.map headerOf).Perm (blocks.map (·.1))
  fits : ∀ p ∈ live, ∃ b ∈ blocks, p.1 = b.1 + 8 ∧ p.2 ≤ b.2

namespace Tiling

variable {bump : ℕ} {blocks : List (ℕ × ℕ)} {b c : ℕ × ℕ}

lemma bounds (ht : Tiling bump blocks) (hb : b ∈ blocks) : 8 ≤ b.1 ∧ b.1 + 8 + b.2 ≤ bump := by
  have hfirst := (ht.cover b.1).mp ⟨b, hb, by omega, by omega⟩
  have hlast := (ht.cover (b.1 + 7 + b.2)).mp ⟨b, hb, by omega, by omega⟩
  omega

lemma eq_or_apart (ht : Tiling bump blocks) (hb : b ∈ blocks) (hc : c ∈ blocks) :
    b = c ∨ b.1 + 8 + b.2 ≤ c.1 ∨ c.1 + 8 + c.2 ≤ b.1 := by
  have hsymm : Std.Symm fun b c : ℕ × ℕ => b.1 + 8 + b.2 ≤ c.1 ∨ c.1 + 8 + c.2 ≤ b.1 :=
    ⟨fun _ _ => Or.symm⟩
  by_cases heq : b = c
  · exact .inl heq
  · exact .inr (ht.apart.forall hb hc heq)

lemma nodup (ht : Tiling bump blocks) : (blocks.map (·.1)).Nodup := by
  refine pairwise_map.mpr (ht.apart.imp ?_)
  intro b c h
  omega

/-- A successor written in a block changes nothing else. -/
lemma setHeader_spec {a : SpilloverArena} (ht : Tiling bump blocks)
    (hs : ∀ c ∈ blocks, (a.header c.1).size = c.2) (hb : b ∈ blocks) {nx : ℕ}
    (hnx : nx < arenaBytes) :
    (∀ c ∈ blocks, ((a.setHeader b.1 ⟨b.2, nx⟩).header c.1).size = c.2) ∧
      (a.setHeader b.1 ⟨b.2, nx⟩).next b.1 = nx ∧
      ∀ x ∈ blocks.map (·.1), x ≠ b.1 → (a.setHeader b.1 ⟨b.2, nx⟩).next x = a.next x := by
  have hle := ht.le
  have hbounds := ht.bounds hb
  unfold arenaBytes at hle hnx
  have hself : (a.setHeader b.1 ⟨b.2, nx⟩).header b.1 = ⟨b.2, nx⟩ :=
    header_setHeader_self (show b.2 < 2 ^ 32 by omega) (show nx < 2 ^ 32 by omega)
  have hother : ∀ c ∈ blocks, b ≠ c →
      (a.setHeader b.1 ⟨b.2, nx⟩).header c.1 = a.header c.1 := by
    intro c hc hne
    have hapart := (ht.eq_or_apart hb hc).resolve_left hne
    exact header_setHeader_ne (by omega)
  refine ⟨fun c hc => ?_, by rw [next, hself], fun x hx hne => ?_⟩
  · by_cases heq : b = c
    · rw [← heq, hself]
    · rw [hother c hc heq, hs c hc]
  · obtain ⟨c, hc, rfl⟩ := mem_map.mp hx
    rw [next, hother c hc fun heq => hne (heq ▸ rfl), next]

lemma concat (ht : Tiling bump blocks) (h8 : 8 ≤ bump) {size : ℕ} (hsize : 8 ∣ size)
    (hle : bump + (8 + size) ≤ arenaBytes) :
    Tiling (bump + (8 + size)) (blocks ++ [(bump, size)]) where
  le := hle
  dvd := by
    have := ht.dvd
    omega
  aligned := by
    simpa [or_imp, forall_and, ht.dvd, hsize] using ht.aligned
  cover n := by
    have hold := ht.cover n
    simp only [mem_append, mem_singleton, or_and_right, exists_or, hold, exists_eq_left]
    omega
  apart := by
    refine pairwise_append.mpr ⟨ht.apart, pairwise_singleton _ _, fun b hb c hc => ?_⟩
    rw [mem_singleton.mp hc]
    exact .inl (ht.bounds hb).2

end Tiling

namespace Layout

variable {a u : SpilloverArena} {live blocks : List (ℕ × ℕ)} {free pre post : List ℕ} {n x : ℕ}

lemma zeroed : Layout {} [] [] [] where
  tiling := ⟨Nat.zero_le _, by simp, by simp, by simp, .nil⟩
  sizes := by simp
  chain := rfl
  split := .nil
  fits := by simp

section

variable (L : Layout a live blocks free)
include L

lemma mem_offsets (hx : x ∈ free) : x ∈ blocks.map (·.1) :=
  L.split.subset (mem_append_left _ hx)

lemma nodup : (free ++ live.map headerOf).Nodup := L.split.nodup_iff.mpr L.tiling.nodup

lemma header_le (hx : x ∈ free) : x + 8 ≤ arenaBytes := by
  obtain ⟨b, hb, rfl⟩ := mem_map.mp (L.mem_offsets hx)
  have hbounds := L.tiling.bounds hb
  have hle := L.tiling.le
  omega

lemma length_free : free.length < arenaBytes + 1 := by
  have hsub : free ⊆ range arenaBytes := by
    intro x hx
    have hle := L.header_le hx
    rw [mem_range]
    omega
  have hlen := ((nodup_append.mp L.nodup).1.subperm hsub).length_le
  rw [length_range] at hlen
  omega

lemma free_spec {p : ℕ × ℕ} (hp : p ∈ live) :
    ∃ a', a.free p.1 = some a' ∧ Layout a' (live.erase p) blocks (headerOf p :: free) := by
  obtain ⟨b, hb, hpb, -⟩ := L.fits p hp
  have hbounds := L.tiling.bounds hb
  have hin := hbounds.2.trans L.tiling.le
  have hx : headerOf p = b.1 := by
    unfold headerOf
    omega
  have hhead : a.freelistHeadOffset < arenaBytes :=
    L.chain.lt (fun x hx => by have := L.header_le hx; omega) (by decide)
  obtain ⟨hsizes, hself, hother⟩ := L.tiling.setHeader_spec L.sizes hb hhead
  refine ⟨{ a.setHeader b.1 ⟨b.2, a.freelistHeadOffset⟩ with freelistHeadOffset := b.1 }, ?_,
    L.tiling, hsizes, ?_, ?_, fun q hq => L.fits q (mem_of_mem_erase hq)⟩
  · simp [SpilloverArena.free, readHeader, writeHeader, hpb, L.sizes b hb,
      show b.1 + 8 ≤ arenaBytes by omega]
  · refine ⟨hx.symm, by omega, ?_⟩
    rw [hx]
    refine hself.symm ▸ L.chain.congr fun y hy => hother y (L.mem_offsets hy) ?_
    -- a free block is not live
    rw [← hx]
    exact (nodup_append.mp L.nodup).2.2 y hy _ (mem_map_of_mem hp)
  · have hperm := (perm_cons_erase hp).map headerOf
    exact perm_middle.symm.trans ((hperm.symm.append_left free).trans L.split)

end

lemma taken (L : Layout a live blocks (pre ++ x :: post)) {b : ℕ × ℕ} (hb : b ∈ blocks)
    (hbx : b.1 = x) (hn : n ≤ b.2) (hbump : u.bumpOffset = a.bumpOffset)
    (hs : ∀ c ∈ blocks, (u.header c.1).size = c.2)
    (hc : Chain u.next u.freelistHeadOffset (pre ++ post)) :
    Layout (u.setHeader x ⟨b.2, 0⟩) ((x + 8, n) :: live) blocks (pre ++ post) := by
  subst hbx
  obtain ⟨hsizes, -, hother⟩ := L.tiling.setHeader_spec hs hb (show 0 < arenaBytes by decide)
  have hnd := nodup_cons.mp (perm_middle.nodup_iff.mp (nodup_append.mp L.nodup).1)
  refine ⟨hbump ▸ L.tiling, hsizes, hc.congr fun y hy => hother y ?_ ?_, ?_, ?_⟩
  · exact L.mem_offsets (perm_middle.mem_iff.mpr (mem_cons_of_mem _ hy))
  · exact fun heq => hnd.1 (heq ▸ hy)
  · refine .trans ?_ L.split
    rw [map_cons, headerOf, Nat.add_sub_cancel, append_assoc pre, append_assoc pre]
    exact perm_middle.append_left pre
  · exact forall_mem_cons.mpr ⟨⟨b, hb, rfl, hn⟩, L.fits⟩

lemma take_spec (L : Layout a live blocks (pre ++ x :: post)) (hn : n ≤ (a.header x).size) :
    ∃ a', a.take (pre.getLastD 0) x (a.header x) = some (some (x + 8), a') ∧
      Layout a' ((x + 8, n) :: live) blocks (pre ++ post) := by
  have hx : x ∈ pre ++ x :: post := by simp
  have hin := L.header_le hx
  obtain ⟨b, hb, hbx⟩ := mem_map.mp (L.mem_offsets hx)
  have hsize : (a.header x).size = b.2 := hbx ▸ L.sizes b hb
  rcases eq_nil_or_concat' pre with rfl | ⟨l, q, rfl⟩
  · refine ⟨_, ?_, L.taken hb hbx (hsize ▸ hn)
      (u := { a with freelistHeadOffset := a.next x }) rfl L.sizes L.chain.2.2⟩
    simp [take, writeHeader, hin, hsize, next]
  -- the block before it gets its successor
  have hq : q ∈ (l ++ [q]) ++ x :: post := by simp
  have hqin := L.header_le hq
  obtain ⟨d, hd, rfl⟩ := mem_map.mp (L.mem_offsets hq)
  have hd0 : d.1 ≠ 0 := by
    have hbounds := L.tiling.bounds hd
    omega
  have hnx : a.next x < arenaBytes := by
    obtain ⟨m, hm⟩ := L.chain.append
    refine hm.2.2.lt (fun y hy => ?_) (by decide)
    have hle := L.header_le (mem_append_right _ (mem_cons_of_mem x hy))
    omega
  obtain ⟨hsizes, hself, hother⟩ := L.tiling.setHeader_spec L.sizes hd hnx
  refine ⟨_, ?_, L.taken hb hbx (hsize ▸ hn) (u := a.setHeader d.1 ⟨d.2, a.next x⟩) rfl hsizes ?_⟩
  · simp [take, writeHeader, readHeader, hin, hqin, hd0, hsize, L.sizes d hd, next]
  · have hchain := L.chain
    have hnd := (nodup_append.mp L.nodup).1
    rw [append_assoc, singleton_append] at hchain hnd ⊢
    have hnot := (nodup_cons.mp (perm_middle.nodup_iff.mp hnd)).1
    refine hchain.unlink hself fun y hy => hother y (L.mem_offsets ?_) ?_
    · rcases mem_append.mp hy with hy | hy <;> simp [hy]
    · rintro rfl
      rcases mem_append.mp hy with hy | hy <;> simp [hy] at hnot

/-- The walk stops at the first block of the list that is large enough, or bumps. -/
lemma walk_spec (size prev : ℕ) {fuel cur : ℕ} {rest : List ℕ} (hc : Chain a.next cur rest)
    (hin : ∀ x ∈ rest, x + 8 ≤ arenaBytes) (hf : rest.length < fuel) :
    (a.walk size fuel prev cur = a.bump size ∧ ∀ x ∈ rest, (a.header x).size < size) ∨
      ∃ pre x post, rest = pre ++ x :: post ∧ size ≤ (a.header x).size ∧
        a.walk size fuel prev cur = a.take (pre.getLastD prev) x (a.header x) := by
  induction rest generalizing fuel prev cur with
  | nil =>
    obtain ⟨fuel, rfl⟩ := Nat.exists_eq_succ_of_ne_zero (Nat.ne_zero_of_lt hf)
    exact .inl ⟨if_pos hc, by simp⟩
  | cons y rest ih =>
    obtain ⟨fuel, rfl⟩ := Nat.exists_eq_succ_of_ne_zero (Nat.ne_zero_of_lt hf)
    obtain ⟨rfl, h0, hc⟩ := hc
    rw [forall_mem_cons] at hin
    have hstep : a.walk size (fuel + 1) prev cur = if size ≤ (a.header cur).size
        then a.take prev cur (a.header cur) else a.walk size fuel cur (a.next cur) := by
      simp [walk, h0, readHeader, hin.1, next]
    by_cases hsize : size ≤ (a.header cur).size
    · exact .inr ⟨[], cur, rest, rfl, hsize, hstep.trans (if_pos hsize)⟩
    rw [if_neg hsize] at hstep
    rcases ih cur hc hin.2 (Nat.lt_of_succ_lt_succ hf) with
      ⟨hwalk, hall⟩ | ⟨pre, x, post, rfl, hx, hwalk⟩
    · exact .inl ⟨hstep.trans hwalk, forall_mem_cons.mpr ⟨not_le.mp hsize, hall⟩⟩
    · refine .inr ⟨cur :: pre, x, post, rfl, hx, ?_⟩
      rw [hstep, hwalk, getLastD_cons]

lemma bump_spec (L : Layout a live blocks free) (h8 : 8 ≤ a.bumpOffset) {size : ℕ}
    (hsize : 8 ∣ size) (hn : n ≤ size) :
    (a.bump size = some (none, a) ∧ arenaBytes < a.bumpOffset + (8 + size)) ∨
      ∃ a' blocks', a.bump size = some (some (a.bumpOffset + 8), a') ∧
        Layout a' ((a.bumpOffset + 8, n) :: live) blocks' free := by
  by_cases hroom : a.bumpOffset + (8 + size) ≤ arenaBytes
  swap
  · exact .inl ⟨by simp [bump, hroom], not_le.mp hroom⟩
  have hsmall := hroom
  unfold arenaBytes at hsmall
  set u : SpilloverArena := { a with bumpOffset := a.bumpOffset + (8 + size) } with hu
  have hold : ∀ b ∈ blocks, (u.setHeader a.bumpOffset ⟨size, 0⟩).header b.1 = a.header b.1 := by
    intro b hb
    have hbounds := L.tiling.bounds hb
    exact header_setHeader_ne (.inr (by omega))
  refine .inr ⟨u.setHeader a.bumpOffset ⟨size, 0⟩, blocks ++ [(a.bumpOffset, size)], ?_,
    L.tiling.concat h8 hsize hroom, fun b hb => ?_, L.chain.congr fun x hx => ?_, ?_, ?_⟩
  · have hin : a.bumpOffset + 8 ≤ arenaBytes := by omega
    simp only [bump]
    rw [if_neg (by omega), if_neg (not_lt.mpr hroom), writeHeader, if_pos hin]
    rfl
  · rcases mem_append.mp hb with hb | hb
    · rw [hold b hb, L.sizes b hb]
    · rw [mem_singleton.mp hb, header_setHeader_self (show size < 2 ^ 32 by omega) (by simp)]
  · obtain ⟨b, hb, rfl⟩ := mem_map.mp (L.mem_offsets hx)
    rw [next, hold b hb, next]
  · rw [map_cons, map_append, headerOf, Nat.add_sub_cancel]
    exact perm_middle.trans ((L.split.cons _).trans (perm_append_singleton _ _).symm)
  · refine forall_mem_cons.mpr ⟨⟨(a.bumpOffset, size), by simp, rfl, hn⟩, fun p hp => ?_⟩
    obtain ⟨b, hb, hfit⟩ := L.fits p hp
    exact ⟨b, mem_append_left _ hb, hfit⟩

section

variable (L : Layout a live blocks free)
include L

lemma lazyInit : Layout a.lazyInit live blocks free ∧
    a.lazyInit.bumpOffset = max 8 a.bumpOffset ∧ a.lazyInit.bytes = a.bytes := by
  have hdvd := L.tiling.dvd
  unfold SpilloverArena.lazyInit
  split_ifs with h0
  · have ht : Tiling 8 blocks := ⟨by decide, by decide, L.tiling.aligned,
      fun n => (L.tiling.cover n).trans (by omega), L.tiling.apart⟩
    exact ⟨⟨ht, L.sizes, L.chain, L.split, L.fits⟩, by simp [h0], rfl⟩
  · exact ⟨L, by omega, rfl⟩

lemma alloc_spec (hn : 1 ≤ n) : ∃ r a', a.alloc n = some (r, a') ∧
    (∃ blocks' free', Layout a' (r.toList.map (·, n) ++ live) blocks' free') ∧
    (r = none → (∀ x ∈ free, (a.header x).size < alignUp n 8) ∧
      arenaBytes < max 8 a.bumpOffset + (8 + alignUp n 8)) := by
  obtain ⟨L', hbump, hbytes⟩ := L.lazyInit
  have hle : n ≤ alignUp n 8 := by
    unfold alignUp
    omega
  have hdvd : 8 ∣ alignUp n 8 := Nat.dvd_mul_left _ _
  unfold alloc
  rw [if_neg (by omega)]
  rcases walk_spec (alignUp n 8) 0 L'.chain (fun x => L'.header_le) L'.length_free with
    ⟨hwalk, hsmall⟩ | ⟨pre, x, post, rfl, hx, hwalk⟩ <;> rw [hwalk]
  · rcases L'.bump_spec (by omega) hdvd hle with ⟨hb, hroom⟩ | ⟨a', blocks', hb, L''⟩
    · refine ⟨none, a.lazyInit, hb, ⟨blocks, free, L'⟩, fun _ => ⟨?_, by rwa [← hbump]⟩⟩
      simpa only [header, hbytes] using hsmall
    · exact ⟨_, a', hb, ⟨blocks', free, L''⟩, by simp⟩
  · obtain ⟨a', htake, L''⟩ := L'.take_spec (hle.trans hx)
    exact ⟨_, a', htake, ⟨blocks, _, L''⟩, by simp⟩

/-- Live payloads are apart from each other and from every header. -/
lemma payloads : live.Pairwise (fun p q => p.1 + p.2 ≤ q.1 ∨ q.1 + q.2 ≤ p.1) ∧
    ∀ p ∈ live, 8 ∣ p.1 ∧ p.1 + p.2 ≤ arenaBytes ∧
      ∀ b ∈ blocks, p.1 + p.2 ≤ b.1 ∨ b.1 + 8 ≤ p.1 := by
  constructor
  · refine (pairwise_map.mp (nodup_append.mp L.nodup).2.1).imp_of_mem fun {p q} hp hq hne => ?_
    obtain ⟨b, hb, hpb, hpsize⟩ := L.fits p hp
    obtain ⟨c, hc, hqc, hqsize⟩ := L.fits q hq
    unfold headerOf at hne
    rcases L.tiling.eq_or_apart hb hc with rfl | hapart | hapart <;> omega
  · intro p hp
    obtain ⟨b, hb, hpb, hpsize⟩ := L.fits p hp
    have hbounds := L.tiling.bounds hb
    have hle := L.tiling.le
    have hdvd := L.tiling.aligned b hb
    refine ⟨by omega, by omega, fun c hc => ?_⟩
    rcases L.tiling.eq_or_apart hb hc with rfl | hapart | hapart <;> omega

end

end Layout

lemma Reachable.exists_layout {a : SpilloverArena} {live : List (ℕ × ℕ)} (h : Reachable a live) :
    ∃ blocks free, Layout a live blocks free := by
  induction h with
  | zeroed => exact ⟨[], [], .zeroed⟩
  | alloc _ hn _ hcall ih =>
    obtain ⟨blocks, free, L⟩ := ih
    obtain ⟨r, a', hcall', L', -⟩ := L.alloc_spec hn
    cases hcall.symm.trans hcall'
    exact L'
  | free _ hp hcall ih =>
    obtain ⟨blocks, free, L⟩ := ih
    obtain ⟨a', hcall', L'⟩ := L.free_spec hp
    cases hcall.symm.trans hcall'
    exact ⟨blocks, _, L'⟩

/-- **The spillover allocator is sound.** In every state of a run live and free blocks partition
`[8, bump_offset)`, the list has each free block once, and live payloads overlap nothing. Every
call returns, and `alloc` refuses only if no free block is large enough and no room is left. -/
theorem spillover_sound (a : SpilloverArena) (live : List (ℕ × ℕ)) (h : Reachable a live) :
    ∃ blocks free, Layout a live blocks free ∧ free.Nodup ∧
      live.Pairwise (fun p q => p.1 + p.2 ≤ q.1 ∨ q.1 + q.2 ≤ p.1) ∧
      (∀ p ∈ live, 8 ∣ p.1 ∧ p.1 + p.2 ≤ arenaBytes ∧
        ∀ b ∈ blocks, p.1 + p.2 ≤ b.1 ∨ b.1 + 8 ≤ p.1) ∧
      (∀ n, 1 ≤ n → n ≤ 2 ^ 31 → ∃ r a', a.alloc n = some (r, a') ∧
        (r = none → (∀ x ∈ free, (a.header x).size < alignUp n 8) ∧
          arenaBytes < max 8 a.bumpOffset + (8 + alignUp n 8))) ∧
      ∀ p ∈ live, ∃ a', a.free p.1 = some a' := by
  obtain ⟨blocks, free, L⟩ := h.exists_layout
  obtain ⟨hapart, hinside⟩ := L.payloads
  refine ⟨blocks, free, L, (nodup_append.mp L.nodup).1, hapart, hinside, fun n hn _ => ?_,
    fun p hp => ?_⟩
  · obtain ⟨r, a', hcall, -, hnone⟩ := L.alloc_spec hn
    exact ⟨r, a', hcall, hnone⟩
  · obtain ⟨a', hcall, -⟩ := L.free_spec hp
    exact ⟨a', hcall⟩

/-- A block is reused for a smaller request. -/
theorem spillover_sound_reused : ∃ a, Reachable a [(16, 3), (40, 20)] ∧
    ∃ blocks free, Layout a [(16, 3), (40, 20)] blocks free := by
  have h1 := Reachable.zeroed.alloc (n := 9) (r := some 16) (by decide) (by decide) rfl
  have h2 := h1.alloc (n := 20) (r := some 40) (by decide) (by decide) rfl
  have h3 := h2.free (p := (16, 9)) (by decide) rfl
  have h4 := h3.alloc (n := 3) (r := some 16) (by decide) (by decide) rfl
  obtain ⟨blocks, free, L, -⟩ := spillover_sound _ _ h4
  exact ⟨_, h4, blocks, free, L⟩

end SpilloverArena

end Acct.V3
