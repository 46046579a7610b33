import Acct.V3.Routed.Replay

/-!
# The routed queue of ledger-v3

`ledger-routed`: backends put submissions into staging slots (`enqueue.rs`), one router packs
pending slots into commit groups and publishes them (`router.rs`), and committers claim a group,
eject the submissions whose caller is still running, write the rest and release the slots
(`committer.rs`, `cleanup.rs`).

Every atomic operation, and every block under an exclusive lock, is one move of `exec?`. The
committer of a group is kept with its entry, a slot's payload with the slot. The queues have room,
and nothing crashes, times out or reaches the eject limit, so recovery and the terminal branches are
not here.
-/

namespace Acct.V3

/-! ### State -/

/-- The state word of a staging slot: 0, 1, 2, 3. -/
inductive Valid
  | empty
  | pending
  | processing
  | routed
  deriving DecidableEq

/-- `CallerTxStatus`: what `pg_xact_status` says of the submitting transaction. -/
inductive CallerTxStatus
  | inProgress
  | committed
  | aborted
  | unknown
  deriving DecidableEq

/-- A submission as a slot holds it. -/
structure Request where
  requestSeq : ℕ := 0
  userTxXid : ℕ := 0
  payload : Decoded := ⟨⟨"po_receipt", 0, 0⟩, []⟩
  deriving DecidableEq

/-- `StagingEntry`. A freed slot keeps its content until it is used again. -/
structure Slot where
  valid : Valid := .empty
  commitGroupId : ℕ := 0
  ejectCount : ℕ := 0
  request : Request := {}
  deriving DecidableEq

inductive EjectStage
  | count
  | unstamp
  | reopen
  deriving DecidableEq

/-- The atomic operations of `try_release_staging_slot`: load the group id, load the eject counter,
swap 3 for 0 if the id was the group's, and else, or if that fails, swap 2 for 0 if the counter was
0. -/
inductive ReleaseStage
  | loadGroup
  | loadEject (ours : Bool)
  | swapRouted (neverEjected : Bool)
  | swapProcessing
  deriving DecidableEq

/-- Where the committer of a group is. The lists are the slots still to be done. -/
inductive Phase
  | published
  | reading (todo : List ℕ)
  | classifying
  | ejecting (todo : List ℕ) (stage : EjectStage)
  | transacting
  | cleaning (todo : List ℕ) (stage : ReleaseStage)
  | finalised
  deriving DecidableEq

/-- `CommitterQueueEntry` and the work of its committer. The entry holds the staging indices; what
was in those slots when it was published is kept beside them. -/
structure Entry where
  listed : List (ℕ × Request)
  phase : Phase := .published
  /-- What the committer decoded from the slots. -/
  read : List (ℕ × Request) := []
  /-- The submissions it keeps, after asking for their callers. -/
  kept : List Request := []
  aborted : List Request := []
  planned : List Request := []
  deriving DecidableEq

/-- `staging_indices`. -/
def Entry.slots (e : Entry) : List ℕ := e.listed.map Prod.fst

inductive Router
  | idle
  | packing (todo packed : List ℕ)
  | stamping (commitGroupId : ℕ) (todo : List ℕ) (stored : Bool)
  deriving DecidableEq

/-- A slot released: by which group, with what in it, and how its caller stood. -/
structure Freed where
  commitGroupId : ℕ
  slot : ℕ
  request : Request
  status : CallerTxStatus
  deriving DecidableEq

/-- The entry at place `k` has commit group id `k + 1`. -/
structure QueueState where
  slots : ℕ → Slot := fun _ => {}
  entries : List Entry := []
  router : Router := .idle
  nextRequestSeq : ℕ := 0
  status : ℕ → CallerTxStatus := fun _ => .inProgress
  freed : List Freed := []

namespace QueueState

def setSlot (s : QueueState) (i : ℕ) (x : Slot) : QueueState :=
  { s with slots := Function.update s.slots i x }

def setEntry (s : QueueState) (k : ℕ) (e : Entry) : QueueState :=
  { s with entries := s.entries.set k e }

/-- A slot's state word goes to 0. -/
def free (s : QueueState) (k i : ℕ) : QueueState :=
  let x := s.slots i
  { s.setSlot i { x with valid := .empty } with
    freed := ⟨k + 1, i, x.request, s.status x.request.userTxXid⟩ :: s.freed }

end QueueState

/-! ### Moves -/

inductive QueueMove
  /-- `push_entry_into_queue` finds a free slot. -/
  | enqueue (slot userTxXid : ℕ) (payload : Decoded)
  | settle (userTxXid : ℕ) (status : CallerTxStatus)
  | pick (chunk : List ℕ)
  | pack
  | publish
  | stamp
  | claim (k : ℕ)
  /-- The committer of the entry at a place goes on. -/
  | work (k : ℕ)
  deriving DecidableEq

/-- `push_entry_into_queue`. -/
def enqueue? (s : QueueState) (slot userTxXid : ℕ) (payload : Decoded) : Option QueueState :=
  if (s.slots slot).valid = .empty ∧ s.status userTxXid = .inProgress then
    some { s.setSlot slot ⟨.pending, 0, 0, ⟨s.nextRequestSeq, userTxXid, payload⟩⟩ with
      nextRequestSeq := s.nextRequestSeq + 1 }
  else none

/-- The first loop of `emit_commit_group`: swap 1 for 2, and keep the slot if that went well. -/
def pack? (s : QueueState) : Option QueueState :=
  match s.router with
  | .packing (i :: todo) packed =>
    let x := s.slots i
    if x.valid = .pending then
      some { s.setSlot i { x with valid := .processing } with
        router := .packing todo (packed ++ [i]) }
    else some { s with router := .packing todo packed }
  | _ => none

/-- The exclusive block of `emit_commit_group`: the group becomes claimable. -/
def publish? (s : QueueState) : Option QueueState :=
  match s.router with
  | .packing [] [] => some { s with router := .idle }
  | .packing [] (i :: packed) =>
    let listed := (i :: packed).map fun i => (i, (s.slots i).request)
    some { s with
      entries := s.entries ++ [⟨listed, .published, [], [], [], []⟩]
      router := .stamping (s.entries.length + 1) (i :: packed) false }
  | _ => none

/-- The last loop of `emit_commit_group`: store the group id, then swap 2 for 3. -/
def stamp? (s : QueueState) : Option QueueState :=
  match s.router with
  | .stamping _ [] _ => some { s with router := .idle }
  | .stamping g (i :: todo) false =>
    some { s.setSlot i { s.slots i with commitGroupId := g } with
      router := .stamping g (i :: todo) true }
  | .stamping g (i :: todo) true =>
    let x := s.slots i
    let x' := if x.valid = .processing then { x with valid := .routed } else x
    some { s.setSlot i x' with router := .stamping g todo false }
  | _ => none

/-- `claim_next_committer_entry`, for the entry at place `k`. -/
def claim? (s : QueueState) (k : ℕ) : Option QueueState :=
  match s.entries[k]? with
  | some e =>
    match e.phase with
    | .published => some (s.setEntry k { e with phase := .reading e.slots })
    | _ => none
  | none => none

/-- `classify_and_eject`, its decisions: committed and unknown callers are kept, running ones
ejected. -/
def Entry.classify (e : Entry) (status : ℕ → CallerTxStatus) : Entry :=
  let withStatus := fun st => e.read.filter fun p => status p.2.userTxXid = st
  { e with
    kept := (e.read.filter fun p =>
      status p.2.userTxXid = .committed ∨ status p.2.userTxXid = .unknown).map Prod.snd
    aborted := (withStatus .aborted).map Prod.snd
    phase := .ejecting ((withStatus .inProgress).map Prod.fst) .count }

/-- One atomic operation of an eject, on the slot `i` at the head of what is to be ejected. -/
def ejectStep (s : QueueState) (k : ℕ) (e : Entry) (i : ℕ) (todo : List ℕ) :
    EjectStage → QueueState
  | .count =>
    (s.setSlot i { s.slots i with ejectCount := (s.slots i).ejectCount + 1 }).setEntry k
      { e with phase := .ejecting (i :: todo) .unstamp }
  | .unstamp =>
    (s.setSlot i { s.slots i with commitGroupId := 0 }).setEntry k
      { e with phase := .ejecting (i :: todo) .reopen }
  | .reopen =>
    let x := s.slots i
    let x' := if x.valid = .routed then { x with valid := .pending } else x
    (s.setSlot i x').setEntry k { e with phase := .ejecting todo .count }

/-- One atomic operation of `try_release_staging_slot`, on the slot `i` at the head of the list. -/
def releaseStep (s : QueueState) (k : ℕ) (e : Entry) (i : ℕ) (todo : List ℕ) :
    ReleaseStage → QueueState
  | .loadGroup =>
    let ours := decide ((s.slots i).commitGroupId = k + 1)
    s.setEntry k { e with phase := .cleaning (i :: todo) (.loadEject ours) }
  | .loadEject ours =>
    let neverEjected := decide ((s.slots i).ejectCount = 0)
    if ours then
      s.setEntry k { e with phase := .cleaning (i :: todo) (.swapRouted neverEjected) }
    else if neverEjected then
      s.setEntry k { e with phase := .cleaning (i :: todo) .swapProcessing }
    else s.setEntry k { e with phase := .cleaning todo .loadGroup }
  | .swapRouted neverEjected =>
    if (s.slots i).valid = .routed then
      (s.free k i).setEntry k { e with phase := .cleaning todo .loadGroup }
    else if neverEjected then
      s.setEntry k { e with phase := .cleaning (i :: todo) .swapProcessing }
    else s.setEntry k { e with phase := .cleaning todo .loadGroup }
  | .swapProcessing =>
    if (s.slots i).valid = .processing then
      (s.free k i).setEntry k { e with phase := .cleaning todo .loadGroup }
    else s.setEntry k { e with phase := .cleaning todo .loadGroup }

variable (ofMicros : ℤ → Option ℤ)

/-- The transaction of a group: `run_pristine_replay_loop` returns `Err` exactly if a kept submission
does not decode (`runPristineReplayLoop_err_iff`), and then none was planned. -/
def Entry.transact (e : Entry) : Entry :=
  { e with
    planned := if ∀ q ∈ e.kept, q.payload.Decodes ofMicros then e.kept else []
    phase := .cleaning e.slots .loadGroup }

/-- The next operation of the committer of the entry at place `k`: decode the slots one by one, ask
for all callers, eject, write, release, and give the entry back. -/
def work? (s : QueueState) (k : ℕ) : Option QueueState :=
  match s.entries[k]? with
  | none => none
  | some e =>
    match e.phase with
    | .published => none
    | .reading [] => some (s.setEntry k { e with phase := .classifying })
    | .reading (i :: todo) =>
      some (s.setEntry k
        { e with phase := .reading todo, read := e.read ++ [(i, (s.slots i).request)] })
    | .classifying => some (s.setEntry k (e.classify s.status))
    | .ejecting [] _ => some (s.setEntry k { e with phase := .transacting })
    | .ejecting (i :: todo) stage => some (ejectStep s k e i todo stage)
    | .transacting => some (s.setEntry k (e.transact ofMicros))
    | .cleaning [] _ => some (s.setEntry k { e with phase := .finalised })
    | .cleaning (i :: todo) stage => some (releaseStep s k e i todo stage)
    | .finalised => none

/-- One move; `none` if it is not enabled. -/
def QueueState.exec? (s : QueueState) : QueueMove → Option QueueState
  | .enqueue slot userTxXid payload => enqueue? s slot userTxXid payload
  | .settle userTxXid status =>
    if s.status userTxXid = .inProgress ∧ status ≠ .inProgress then
      some { s with status := Function.update s.status userTxXid status }
    else none
  | .pick chunk =>
    if s.router = .idle ∧ chunk.Nodup then some { s with router := .packing chunk [] } else none
  | .pack => pack? s
  | .publish => publish? s
  | .stamp => stamp? s
  | .claim k => claim? s k
  | .work k => work? ofMicros s k

end Acct.V3
