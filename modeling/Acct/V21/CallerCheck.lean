import Mathlib.Data.Int.Notation
import Mathlib.Data.Nat.Notation

/-!
# The caller check of the v2.1 committer

`queue-extension-v21/src/committer.rs`: `process_superbatch` expands the staging entries of a
SuperBatch into events, and Step 2.45 of `run_pipeline_inside_subtx` ejects the events whose caller
is running. The check takes the event's position for the position of its staging entry.
-/

namespace Acct.V21

structure Movement where
  skuId : ℤ
  locationId : ℤ
  qty : ℤ
  subPriority : ℤ := 0
  deriving DecidableEq

/-- What a payload decodes to. `malformed` has the text of a failure to read the JSON. -/
inductive Payload
  | malformed (detail : String)
  | single (movement : Movement)
  | woComplete (components : List Movement) (output : Movement)
  deriving DecidableEq

def outputSubPriority : ℤ := 1000000

/-- `read_event_from_staging`, with `expand_wo_complete_payload` for a completion. -/
def Payload.expand : Payload → Except String (List Movement)
  | malformed detail => .error detail
  | single movement => .ok [movement]
  | woComplete components output =>
    let qty := output.qty
    if components.isEmpty then .error "wo_complete components array must be non-empty"
    else if qty ≤ 0 then .error s!"wo_complete output qty must be positive: {qty}"
    else match (components.map (·.qty)).find? (· ≤ 0) with
      | some cq => .error s!"component qty must be positive: {cq}"
      | none => .ok (components.mapIdx (fun i c => { c with qty := -c.qty, subPriority := i }) ++
          [{ output with subPriority := outputSubPriority }])

/-- `PocV21Event` -/
structure Event where
  correlationId : ℕ
  userTxXid : ℕ
  movement : Movement
  deriving DecidableEq

/-- A `StagingEntry` of the SuperBatch; `valid` is 3. -/
structure StagingEntry where
  correlationId : ℕ
  userTxXid : ℕ
  payload : Payload
  enqueuedAtMicros : ℕ := 0
  ejectCount : ℕ := 0
  deriving DecidableEq

/-- The events of an entry. A payload that does not parse has none; it is reported as failed. -/
def StagingEntry.events (s : StagingEntry) : List Event :=
  match s.payload.expand with
  | .ok movements => movements.map (⟨s.correlationId, s.userTxXid, ·⟩)
  | .error _ => []

/-- What the check makes of `pg_xact_status`: unknown transactions count as committed. -/
inductive CallerStatus
  | committed
  | aborted
  | inProgress
  deriving DecidableEq

/-- `max_eject_count`, `caller_tx_timeout_ms` in microseconds and the time of the check. -/
structure Limits where
  maxEjectCount : ℕ
  callerTimeoutUs : ℕ
  nowUs : ℕ

/-- The entry is ejected once more, and neither limit is exceeded. -/
def StagingEntry.Within (lim : Limits) (s : StagingEntry) : Prop :=
  s.ejectCount + 1 ≤ lim.maxEjectCount ∧ lim.nowUs - s.enqueuedAtMicros ≤ lim.callerTimeoutUs
  deriving Decidable

/-- What the loop has done. The entries of `requeue` are set back to pending after it. -/
structure CallerCheck where
  slots : List StagingEntry
  kept : List Event := []
  abortedFailed : List ℕ := []
  requeue : List ℕ := []
  deriving DecidableEq

variable (lim : Limits) (status : ℕ → CallerStatus)

/-- One event; `none` is the panic of `staging_indices[i]`. -/
def CallerCheck.check (x : CallerCheck) (i : ℕ) (event : Event) : Option CallerCheck :=
  match status event.userTxXid with
  | .aborted => some { x with abortedFailed := x.abortedFailed ++ [event.correlationId] }
  | .inProgress => do
    let slot ← x.slots[i]?
    let x := { x with slots := x.slots.set i { slot with ejectCount := slot.ejectCount + 1 } }
    -- an entry beyond the limits is dropped
    some (if slot.Within lim then { x with requeue := x.requeue ++ [i] } else x)
  | .committed => some { x with kept := x.kept ++ [event] }

/-- The loop over the events, each with its position. -/
def checkEvents (batch : List StagingEntry) (events : List Event) : Option CallerCheck :=
  events.zipIdx.foldlM (fun x (event, i) => x.check lim status i event) { slots := batch }

def callerCheck (batch : List StagingEntry) : Option CallerCheck :=
  checkEvents lim status batch (batch.flatMap (·.events))

end Acct.V21
