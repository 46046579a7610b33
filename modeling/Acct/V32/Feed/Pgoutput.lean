import Acct.Codec.Reader
import Acct.V32.Core.Types

/-!
# The messages of the feed's slot

`ledger-feed/src/pgoutput.rs`, the parser of logical replication messages, and the loop of
`FeedConsumer::peek` that decodes the inserts into `trx_line`.
-/

namespace Acct.V32.Pgoutput

open Codec

variable (rel : Relation) (columns : List (Option String))

/-- `ParseError`, with what its text names. -/
inductive ParseError
  | truncated (need offset available : ℕ)
  | unterminatedCstring
  | nonUtf8Cstring
  | insertTupleKind (kind : Char)
  | negativeColumnLength (len : ℤ)
  | nonUtf8ColumnValue
  | unsupportedColumnKind (kind : Char)
  | unknownMessageTag (tag : Char)
  deriving DecidableEq

structure Relation where
  id : UInt32
  nspname : String
  name : String
  columnNames : List String
  deriving DecidableEq

inductive Message
  | begin
  | commit
  | relation (r : Relation)
  /-- Column values in relation order; `none` is NULL. -/
  | insert (relId : UInt32) (columns : List (Option String))
  | other (tag : UInt8)
  deriving DecidableEq

/-! ### Fields -/

/-- `Reader::take` -/
def take (n : ℕ) : Reader ParseError (List UInt8) :=
  Codec.take (fun n c => .truncated n c.pos c.rest.length) n

/-- `from_be_bytes` of the next `k` bytes. -/
def unsigned (k : ℕ) : Reader ParseError ℕ := do
  let bytes ← take k
  return ofBe bytes

def u8 : Reader ParseError UInt8 := do
  let n ← unsigned 1
  return .ofNat n

def u16 : Reader ParseError ℕ := unsigned 2

def u32 : Reader ParseError UInt32 := do
  let n ← unsigned 4
  return .ofNat n

/-- `i32::from_be_bytes`: two's complement. -/
def i32 : Reader ParseError ℤ := do
  let n ← unsigned 4
  return if n < 2 ^ 31 then n else n - 2 ^ 32

/-- `String::from_utf8` -/
def fromUtf8 (e : ParseError) (bytes : List UInt8) : Reader ParseError String :=
  match String.fromUTF8? ⟨bytes.toArray⟩ with
  | some s => pure s
  | none => throw e

/-- `Reader::cstr` -/
def cstr : Reader ParseError String := do
  let bytes ← untilZero .unterminatedCstring
  fromUtf8 .nonUtf8Cstring bytes

/-! ### Messages -/

/-- A column of a Relation message; its flags, type and modifier are skipped. -/
def columnName : Reader ParseError String := do
  let _flags ← u8
  let name ← cstr
  let _typeOid ← u32
  let _typeMod ← i32
  return name

def readRelation : Reader ParseError Message := do
  let id ← u32
  let nspname ← cstr
  let name ← cstr
  let _replicaIdentity ← u8
  let ncols ← u16
  let columnNames ← times columnName ncols
  return .relation { id, nspname, name, columnNames }

def columnText (len : ℤ) : Reader ParseError String :=
  if len < 0 then throw (.negativeColumnLength len)
  else do
    let bytes ← take len.toNat
    fromUtf8 .nonUtf8ColumnValue bytes

def columnOfKind (kind : Char) : Reader ParseError (Option String) :=
  match kind with
  | 'n' | 'u' => pure none
  | 't' => do
    let len ← i32
    let s ← columnText len
    return some s
  | other => throw (.unsupportedColumnKind other)

def columnValue : Reader ParseError (Option String) := do
  let kind ← u8
  columnOfKind (.ofUInt8 kind)

def checkTupleKind (kind : Char) : Reader ParseError Unit :=
  if kind ≠ 'N' then throw (.insertTupleKind kind) else pure ()

def readInsert : Reader ParseError Message := do
  let relId ← u32
  let tupleKind ← u8
  checkTupleKind (.ofUInt8 tupleKind)
  let ncols ← u16
  let columns ← times columnValue ncols
  return .insert relId columns

def readBody (tag : UInt8) : Reader ParseError Message :=
  match Char.ofUInt8 tag with
  | 'B' => pure .begin
  | 'C' => pure .commit
  | 'R' => readRelation
  | 'I' => readInsert
  | 'Y' | 'O' | 'M' | 'T' => pure (.other tag)
  | other => throw (.unknownMessageTag other)

def readMessage : Reader ParseError Message := do
  let tag ← u8
  readBody tag

/-- `parse` -/
def parse (data : List UInt8) : Except ParseError Message := (readMessage ⟨0, data⟩).map (·.1)

/-! ### The lines inserted -/

/-- The `FeedError`s of decoding. -/
inductive FeedError
  | parse (e : ParseError)
  | unknownRelation (relId : UInt32)
  | noColumn (name : String)
  | isNull (name : String)
  | notAnInt (name : String)
  deriving DecidableEq

structure TrxLineEvent where
  trxLineId : ℤ
  poolId : ℤ
  postedAt : String
  lineType : String
  deriving DecidableEq

def parseDigits (cs : List Char) : Option ℕ :=
  if !cs.isEmpty && cs.all (·.isDigit) then some (Nat.ofDigitChars 10 cs 0) else none

/-- `str::parse::<i64>` -/
def parseI64 (s : String) : Option ℤ :=
  match s.toList with
  | '-' :: cs => (parseDigits cs).bind fun n => toI64? (-n)
  | '+' :: cs => (parseDigits cs).bind fun n => toI64? n
  | cs => (parseDigits cs).bind fun n => toI64? n

/-- The value of a column, which is looked up by its name in the relation. -/
def columnOf (name : String) : Except FeedError String :=
  match rel.columnNames.idxOf? name with
  | none => .error (.noColumn name)
  | some idx =>
    match columns[idx]?.join with
    | none => .error (.isNull name)
    | some s => .ok s

def intOf (name : String) : Except FeedError ℤ := do
  let s ← columnOf rel columns name
  match parseI64 s with
  | none => .error (.notAnInt name)
  | some n => .ok n

/-- `decode_trx_line` -/
def decodeTrxLine : Except FeedError TrxLineEvent := do
  let trxLineId ← intOf rel columns "id"
  let poolId ← intOf rel columns "pool_id"
  let postedAt ← columnOf rel columns "posted_at"
  let lineType ← columnOf rel columns "line_type"
  return { trxLineId, poolId, postedAt, lineType }

/-- The loop of `FeedConsumer::peek` over the messages, with the relations seen so far. -/
def peekLoop (relations : UInt32 → Option Relation) :
    List (List UInt8) → Except FeedError (List TrxLineEvent)
  | [] => .ok []
  | data :: rows =>
    match parse data with
    | .error e => .error (.parse e)
    | .ok (.relation rel) => peekLoop (Function.update relations rel.id (some rel)) rows
    | .ok (.insert relId columns) =>
      match relations relId with
      | none => .error (.unknownRelation relId)
      | some rel =>
        if rel.name = "trx_line" then do
          let event ← decodeTrxLine rel columns
          let events ← peekLoop relations rows
          return event :: events
        else peekLoop relations rows
    | .ok _ => peekLoop relations rows

/-- The events of one batch. -/
def peek (rows : List (List UInt8)) : Except FeedError (List TrxLineEvent) :=
  peekLoop (fun _ => none) rows

end Acct.V32.Pgoutput
