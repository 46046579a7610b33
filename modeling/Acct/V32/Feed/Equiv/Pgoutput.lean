import Acct.V32.Core.Equiv.Numeric
import Acct.V32.Feed.Pgoutput

/-!
# Decoding undoes the encoding

What the server sends, in the bytes of protocol version 1. Each message is parsed to what it says, a
message that is cut off is refused, and a Relation message for `trx_line` followed by an Insert
gives the event of the line, wherever the relation has its columns.
-/

namespace Acct.V32.Pgoutput

open Codec List

variable {rel : Relation} {row : List (String × Option String)} {bytes : List UInt8} {name : String}

/-! ### The messages as they are sent -/

def bytesOf (s : String) : List UInt8 := s.toUTF8.data.toList

structure CName where
  text : String
  no_nul : 0 ∉ bytesOf text

def CName.encode (n : CName) : List UInt8 := bytesOf n.text ++ [0]

structure WireColumn where
  flags : UInt8
  name : CName
  typeOid : UInt32
  typeMod : UInt32

def WireColumn.encode (c : WireColumn) : List UInt8 :=
  [c.flags] ++ (c.name.encode ++ (toBe 4 c.typeOid.toNat ++ toBe 4 c.typeMod.toNat))

structure RelationMessage where
  id : UInt32
  nspname : CName
  name : CName
  replicaIdentity : UInt8
  columns : List WireColumn
  columns_lt : columns.length < 2 ^ 16

namespace RelationMessage

def encode (m : RelationMessage) : List UInt8 :=
  ['R'.toUInt8] ++ (toBe 4 m.id.toNat ++ (m.nspname.encode ++ (m.name.encode ++
    ([m.replicaIdentity] ++ (toBe 2 m.columns.length ++ m.columns.flatMap (·.encode))))))

/-- What it says. -/
def relation (m : RelationMessage) : Relation :=
  ⟨m.id, m.nspname.text, m.name.text, m.columns.map (·.name.text)⟩

end RelationMessage

structure InsertMessage where
  relId : UInt32
  columns : List (Option String)
  columns_lt : columns.length < 2 ^ 16
  texts_lt : ∀ s, some s ∈ columns → (bytesOf s).length < 2 ^ 31

def encodeColumn : Option String → List UInt8
  | none => ['n'.toUInt8]
  | some s => ['t'.toUInt8] ++ (toBe 4 (bytesOf s).length ++ bytesOf s)

def InsertMessage.encode (m : InsertMessage) : List UInt8 :=
  ['I'.toUInt8] ++ (toBe 4 m.relId.toNat ++ (['N'.toUInt8] ++
    (toBe 2 m.columns.length ++ m.columns.flatMap encodeColumn)))

/-! ### Fields -/

section Fields

variable {α β : Type} {p : Reader ParseError α} {a : α}

lemma reads_return {b : β} {f : α → β} (h : Reads p bytes a) (hb : f a = b) :
    Reads (do let x ← p; return f x) bytes b := by
  have hbind : Reads (p >>= fun x => pure (f x)) (bytes ++ []) b := h.bind (hb ▸ reads_pure _)
  rwa [append_nil] at hbind

lemma reads_unsigned {k n : ℕ} (h : n < 256 ^ k) : Reads (unsigned k) (toBe k n) n := by
  have htake : Reads (take k) (toBe k n) (toBe k n) := by
    have := reads_take (fun n c => ParseError.truncated n c.pos c.rest.length) (toBe k n)
    rwa [length_toBe] at this
  exact reads_return htake (ofBe_toBe h)

lemma reads_u8 (b : UInt8) : Reads u8 [b] b := by
  have hbytes : toBe 1 b.toNat = [b] := by
    simp [toBe, Nat.mod_eq_of_lt b.toNat_lt]
  have hnum : Reads (unsigned 1) [b] b.toNat := hbytes ▸ reads_unsigned (by simpa using b.toNat_lt)
  exact reads_return hnum (by simp)

lemma reads_u32 (n : UInt32) : Reads u32 (toBe 4 n.toNat) n :=
  reads_return (reads_unsigned (by simpa using n.toNat_lt)) (by simp)

lemma reads_i32 (n : ℕ) (h : n < 2 ^ 32) :
    Reads i32 (toBe 4 n) (if n < 2 ^ 31 then n else n - 2 ^ 32) :=
  reads_return (reads_unsigned (by simpa using h)) rfl

lemma fromUTF8?_bytesOf (s : String) : String.fromUTF8? ⟨(bytesOf s).toArray⟩ = some s := by
  have harray : (⟨(bytesOf s).toArray⟩ : ByteArray) = s.toByteArray := rfl
  rw [harray, String.fromUTF8?, dif_pos s.isValidUTF8]
  rfl

lemma reads_fromUtf8 (e : ParseError) (s : String) : Reads (fromUtf8 e (bytesOf s)) [] s := by
  unfold fromUtf8
  rw [fromUTF8?_bytesOf]
  exact reads_pure s

lemma reads_cstr (n : CName) : Reads cstr n.encode n.text := by
  have h := (reads_untilZero ParseError.unterminatedCstring n.no_nul).bind
    (f := fromUtf8 .nonUtf8Cstring) (reads_fromUtf8 _ n.text)
  rwa [append_nil] at h

end Fields

/-! ### Messages -/

lemma reads_columnName (c : WireColumn) : Reads columnName c.encode c.name.text :=
  (reads_u8 c.flags).bind ((reads_cstr c.name).bind ((reads_u32 c.typeOid).bind
    (reads_return (reads_i32 c.typeMod.toNat c.typeMod.toNat_lt) rfl)))

lemma reads_relation (m : RelationMessage) : Reads readMessage m.encode (.relation m.relation) :=
  (reads_u8 'R'.toUInt8).bind (f := readBody) ((reads_u32 m.id).bind ((reads_cstr m.nspname).bind
    ((reads_cstr m.name).bind ((reads_u8 m.replicaIdentity).bind
      ((reads_unsigned (by simpa using m.columns_lt)).bind
        (reads_return (Reads.times fun c _ => reads_columnName c) rfl))))))

lemma reads_columnText {s : String} : Reads (columnText (bytesOf s).length) (bytesOf s) s := by
  have htake : Reads (take (bytesOf s).length) (bytesOf s) (bytesOf s) := reads_take _ _
  have h := htake.bind (f := fromUtf8 .nonUtf8ColumnValue) (reads_fromUtf8 _ s)
  rw [append_nil] at h
  exact h

lemma reads_columnValue {v : Option String} (h : ∀ s, v = some s → (bytesOf s).length < 2 ^ 31) :
    Reads columnValue (encodeColumn v) v := by
  cases v with
  | none =>
    exact (reads_u8 'n'.toUInt8).bind (f := fun k => columnOfKind (.ofUInt8 k)) (reads_pure none)
  | some s =>
    have hlt := h s rfl
    have hlen := reads_i32 (bytesOf s).length (by omega)
    rw [if_pos hlt] at hlen
    exact (reads_u8 't'.toUInt8).bind (f := fun k => columnOfKind (.ofUInt8 k))
      (hlen.bind (reads_return reads_columnText rfl))

lemma reads_insert (m : InsertMessage) :
    Reads readMessage m.encode (.insert m.relId m.columns) := by
  have hcolumns : Reads (times columnValue m.columns.length) (m.columns.flatMap encodeColumn)
      (m.columns.map id) :=
    Reads.times fun v hv => reads_columnValue fun s hs => m.texts_lt s (hs ▸ hv)
  rw [map_id] at hcolumns
  exact (reads_u8 'I'.toUInt8).bind (f := readBody) ((reads_u32 m.relId).bind
    ((reads_u8 'N'.toUInt8).bind ((reads_pure ()).bind
      ((reads_unsigned (by simpa using m.columns_lt)).bind (reads_return hcolumns rfl)))))

/-- A message is parsed to what it says, and refused if it is cut off. -/
def ParsedAs (bytes : List UInt8) (m : Message) : Prop :=
  parse bytes = .ok m ∧ ∀ p, p <+: bytes → p ≠ bytes → ∃ e, parse p = .error e

lemma parsedAs_of_reads {m : Message} (h : Reads readMessage bytes m) : ParsedAs bytes m := by
  refine ⟨?_, fun p hp hne => ?_⟩
  · have hfull := h.full 0 []
    rw [append_nil] at hfull
    rw [parse, hfull]
    rfl
  · obtain ⟨e, he⟩ := h.cut 0 p hp hne
    exact ⟨e, by rw [parse, he]; rfl⟩

/-! ### Lines -/

lemma parseDigits_repr (n : ℕ) : parseDigits n.repr.toList = some n := by
  have hdigits : ∀ c ∈ Nat.toDigits 10 n, c.isDigit := fun c hc =>
    Nat.isDigit_of_mem_toDigits (by decide) le_rfl hc
  have hok : (!(Nat.toDigits 10 n).isEmpty && (Nat.toDigits 10 n).all (·.isDigit)) = true := by
    rw [Bool.and_eq_true, all_eq_true]
    exact ⟨by simp [Nat.toDigits_ne_nil], hdigits⟩
  rw [Nat.toList_repr, parseDigits, if_pos hok, Nat.ofDigitChars_ten_toDigits]

lemma parseI64_repr {n : ℤ} (h : InI64 n) : parseI64 n.repr = some n := by
  rw [Int.repr_eq_if]
  split_ifs with hneg
  · have hdigits := parseDigits_repr n.toNat
    unfold parseI64
    -- a digit is no sign
    split
    next cs heq => simp [heq, parseDigits] at hdigits
    next cs heq => simp [heq, parseDigits] at hdigits
    next =>
      rw [hdigits, Option.bind_some, toI64?_eq_some, Int.toNat_of_nonneg hneg]
      exact ⟨rfl, h⟩
  · have habs : -((-n).toNat : ℤ) = n := by omega
    have hminus : ("-" ++ (-n).toNat.repr).toList = '-' :: (-n).toNat.repr.toList := by simp
    unfold parseI64
    rw [hminus]
    show (parseDigits _).bind (fun m : ℕ => toI64? (-m)) = _
    rw [parseDigits_repr, Option.bind_some, toI64?_eq_some, habs]
    exact ⟨rfl, h⟩

lemma columnOf_row (hnames : rel.columnNames = row.map Prod.fst) (hnodup : (row.map Prod.fst).Nodup)
    {value : String} (h : (name, some value) ∈ row) :
    columnOf rel (row.map Prod.snd) name = .ok value := by
  obtain ⟨i, hi, hrow⟩ := getElem_of_mem h
  have hidx : (row.map Prod.fst).idxOf? name = some i := by
    have hlen : i < (row.map Prod.fst).length := by simpa using hi
    refine idxOf?_eq_some_iff.mpr ⟨hlen, by simp [hrow], fun j hj => ?_⟩
    have hne := pairwise_iff_getElem.mp hnodup j i (hj.trans hlen) hlen hj
    simpa [hrow] using hne
  have hval : (row.map Prod.snd)[i]? = some (some value) := by
    simp [hi, hrow]
  simp [columnOf, hnames, hidx, hval]

lemma intOf_row (hnames : rel.columnNames = row.map Prod.fst) (hnodup : (row.map Prod.fst).Nodup)
    {n : ℤ} (hn : InI64 n) (h : (name, some n.repr) ∈ row) :
    intOf rel (row.map Prod.snd) name = .ok n := by
  simp only [intOf, columnOf_row hnames hnodup h, bind, Except.bind, parseI64_repr hn]

/-- The columns of a line, in any order and among any others. -/
structure IsLineRow (row : List (String × Option String)) (e : TrxLineEvent) : Prop where
  names_nodup : (row.map Prod.fst).Nodup
  id : ("id", some e.trxLineId.repr) ∈ row
  poolId : ("pool_id", some e.poolId.repr) ∈ row
  postedAt : ("posted_at", some e.postedAt) ∈ row
  lineType : ("line_type", some e.lineType) ∈ row
  id_inI64 : InI64 e.trxLineId
  poolId_inI64 : InI64 e.poolId

lemma IsLineRow.decodeTrxLine {e : TrxLineEvent} (h : IsLineRow row e)
    (hnames : rel.columnNames = row.map Prod.fst) :
    decodeTrxLine rel (row.map Prod.snd) = .ok e := by
  simp only [Pgoutput.decodeTrxLine, intOf_row hnames h.names_nodup h.id_inI64 h.id,
    intOf_row hnames h.names_nodup h.poolId_inI64 h.poolId,
    columnOf_row hnames h.names_nodup h.postedAt, columnOf_row hnames h.names_nodup h.lineType]
  rfl

/-- **Decoding undoes the encoding**: of every Relation and every Insert message, none of which can
be cut off unnoticed; and a Relation for `trx_line` and an Insert into it give the line's event. -/
theorem parse_encode :
    (∀ m : RelationMessage, ParsedAs m.encode (.relation m.relation)) ∧
    (∀ m : InsertMessage, ParsedAs m.encode (.insert m.relId m.columns)) ∧
    ∀ (r : RelationMessage) (m : InsertMessage) (row : List (String × Option String))
      (e : TrxLineEvent), r.name.text = "trx_line" → m.relId = r.id →
      r.relation.columnNames = row.map Prod.fst → m.columns = row.map Prod.snd →
      IsLineRow row e → peek [r.encode, m.encode] = .ok [e] := by
  refine ⟨fun m => parsedAs_of_reads (reads_relation m),
    fun m => parsedAs_of_reads (reads_insert m), fun r m row e hname hid hnames hcolumns he => ?_⟩
  have hr := (parsedAs_of_reads (reads_relation r)).1
  have hm := (parsedAs_of_reads (reads_insert m)).1
  have hrel : Function.update (fun _ => none) r.relation.id (some r.relation) m.relId =
      some r.relation := by
    rw [hid]
    exact Function.update_self ..
  simp only [peek, peekLoop, hr, hm, hrel]
  rw [if_pos (show r.relation.name = _ from hname), hcolumns, he.decodeTrxLine hnames]
  rfl

def sampleColumn (name : CName) : WireColumn := ⟨0, name, 20, 0⟩

def sampleRelation : RelationMessage where
  id := 100
  nspname := ⟨"public", by decide⟩
  name := ⟨"trx_line", by decide⟩
  replicaIdentity := 'd'.toUInt8
  columns := [⟨"qty", by decide⟩, ⟨"line_type", by decide⟩, ⟨"id", by decide⟩,
    ⟨"posted_at", by decide⟩, ⟨"pool_id", by decide⟩].map sampleColumn
  columns_lt := by simp

def sampleInsert : InsertMessage where
  relId := 100
  columns := [none, some "wo_output", some "7", some "2024-01-01", some "-3"]
  columns_lt := by decide
  texts_lt s hs := by
    simp only [mem_cons, Option.some.injEq, reduceCtorEq, not_mem_nil, or_false,
      false_or] at hs
    rcases hs with rfl | rfl | rfl | rfl <;> decide

theorem parse_encode_sample :
    peek [sampleRelation.encode, sampleInsert.encode] = .ok [⟨7, -3, "2024-01-01", "wo_output"⟩] :=
  parse_encode.2.2 sampleRelation sampleInsert
    (sampleRelation.relation.columnNames.zip sampleInsert.columns)
      ⟨7, -3, "2024-01-01", "wo_output"⟩
    rfl rfl rfl rfl ⟨by decide, by decide, by decide, by decide, by decide, by decide, by decide⟩

end Acct.V32.Pgoutput
