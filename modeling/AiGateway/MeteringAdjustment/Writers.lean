import AiGateway.Ledger.Later
import AiGateway.MeteringAdjustment.Writer

/-! Writers over one ledger (`PostgresWriter.Apply`): each statement reads what is committed when it
runs, and other programs come in between any two of them. -/
namespace MeteringAdjustment
open Machine Adapter Ledger

variable {ι H : Type}

/-- Where a writer stands in `Apply`: the name says what it has done last. -/
inductive Phase where
  | idle
  | begun (command : Command) (createdAt : Time)
  | missed (command : Command) (createdAt : Time)
  | locked (command : Command) (createdAt : Time) (target : TargetFact)
  | rechecked (command : Command) (createdAt : Time) (target : TargetFact)
  | derived (command : Command) (createdAt : Time) (target : TargetFact)
      (quantityDelta amountDelta : ℤ)
  | inserted (command : Command) (createdAt : Time) (target : TargetFact)
      (quantityDelta amountDelta : ℤ)
  | found (command : Command) (result : Result)

def Phase.command : Phase → Option Command
  | .idle => none
  | .begun command _ | .missed command _ | .locked command _ _ | .rechecked command _ _
  | .derived command _ _ _ _ | .inserted command _ _ _ _ | .found command _ => some command

/-- The target whose row the transaction has locked. -/
def Phase.lock : Phase → Option String
  | .locked command _ _ | .rechecked command _ _ | .derived command _ _ _ _
  | .inserted command _ _ _ _ => some command.targetEventID
  | _ => none

/-- The row locks, the rows that are inserted and not committed, the writers, and the calls of
`Apply` that have returned. -/
structure Writers (ι : Type) where
  locks : List (String × ι)
  pending : List (LedgerEntry × ι)
  sessions : ι → Phase
  log : List (Command × Except AdjustmentError Result)

structure System (ι H : Type) extends Writers ι where
  tables : Tables H

/-- A call, one statement of it, or what other programs do. -/
inductive Action (ι H : Type) where
  | apply (i : ι) (command : Command) (now : Time)
  | find (i : ι)
  | lock (i : ι)
  | recheck (i : ι)
  | derive (i : ι)
  | insert (i : ι)
  | commit (i : ι) (reply : Reply)
  | fail (i : ι)
  | record (entry : LedgerEntry)
  | change (tables : Tables H)

def Action.writer : Action ι H → Option ι
  | .apply i _ _ | .find i | .lock i | .recheck i | .derive i | .insert i | .commit i _
  | .fail i => some i
  | .record _ | .change _ => none

/-- The key under which a correction is stored. -/
def correctionKey (entry : LedgerEntry) : Option (String × String) :=
  entry.adjustment.map fun a => (entry.tenantID,a.idempotencyKey)

/-- The rows cannot both be in the ledger. -/
def clashes (entry other : LedgerEntry) : Bool :=
  other.eventID = entry.eventID ||
    ((correctionKey entry).isSome && correctionKey other = correctionKey entry)

namespace System
variable [DecidableEq ι] (stamp : Time → Time) (s : System ι H)

def enter (i : ι) (phase : Phase) : System ι H :=
  { s with sessions := Function.update s.sessions i phase }

/-- The transaction ends and the call returns. -/
def finish (i : ι) (command : Command) (outcome : Except AdjustmentError Result) : System ι H :=
  { s.enter i .idle with
    locks := s.locks.filter fun lock => lock.2 ≠ i
    pending := s.pending.filter fun row => row.2 ≠ i
    log := s.log ++ [(command,outcome)] }

def apply (i : ι) (command : Command) (now : Time) : System ι H :=
  match s.sessions i with
  | .idle =>
      if command.validate = false then s.finish i command (.error .invalid)
      else if now = zeroTime then s.finish i command (.error .storeUnavailable)
      else s.enter i (.begun command now)
  | _ => s

/-- `loadExisting`, before the lock and after it. -/
def existing (i : ι) (command : Command) (next : Phase) : System ι H :=
  match loadExisting s.tables command with
  | .error e => s.finish i command (.error e)
  | .ok (some result) => s.enter i (.found command result)
  | .ok none => s.enter i next

def find (i : ι) : System ι H :=
  match s.sessions i with
  | .begun command createdAt => s.existing i command (.missed command createdAt)
  | _ => s

/-- `lockTarget`; it waits for a transaction that has locked the row. -/
def lock (i : ι) : System ι H :=
  match s.sessions i with
  | .missed command createdAt =>
      match targetRow s.tables command with
      | none => s.finish i command (.error .notFound)
      | some (entry,currency) =>
          if command.targetEventID ∈ s.locks.map Prod.fst then s
          else if (targetFact entry currency).valid = false then
            s.finish i command (.error .invalidTarget)
          else { s.enter i (.locked command createdAt (targetFact entry currency)) with
            locks := (command.targetEventID,i) :: s.locks }
  | _ => s

def recheck (i : ι) : System ι H :=
  match s.sessions i with
  | .locked command createdAt target => s.existing i command (.rechecked command createdAt target)
  | _ => s

def derive (i : ι) : System ι H :=
  match s.sessions i with
  | .rechecked command createdAt target =>
      match loadCurrentResult s.tables command.targetEventID target with
      | .error e => s.finish i command (.error e)
      | .ok (quantity,amount) =>
          if quantity = command.correctedQuantity ∧ amount = command.correctedAmountMicros then
            s.finish i command (.error .noChange)
          else s.enter i (.derived command createdAt target (command.correctedQuantity - quantity)
            (command.correctedAmountMicros - amount))
  | _ => s

/-- The insert; it waits for a transaction that has inserted a row with the same key. -/
def insert (i : ι) : System ι H :=
  match s.sessions i with
  | .derived command createdAt target quantityDelta amountDelta =>
      let entry := adjustmentEntry stamp command target quantityDelta amountDelta createdAt
      match s.tables.insertEntry entry with
      | .error e => s.finish i command (.error (mapDatabaseError e))
      | .ok _ =>
          if s.pending.any fun row => clashes entry row.1 then s
          else { s.enter i (.inserted command createdAt target quantityDelta amountDelta) with
            pending := (entry,i) :: s.pending }
  | _ => s

def append (entry : LedgerEntry) : System ι H :=
  { s with tables := { s.tables with entries := s.tables.entries ++ [entry] } }

def commit (i : ι) (reply : Reply) : System ι H :=
  match s.sessions i with
  | .inserted command createdAt target quantityDelta amountDelta =>
      let entry := adjustmentEntry stamp command target quantityDelta amountDelta createdAt
      match reply with
      | .failed => s.finish i command (.error .storeUnavailable)
      | .unanswered => (s.finish i command (.error .storeUnavailable)).append entry
      | .answered => (s.finish i command (.ok (resultFrom command target quantityDelta amountDelta
          createdAt true false))).append entry
  | .found command result =>
      match reply with
      | .answered => s.finish i command (.ok result)
      | _ => s.finish i command (.error .storeUnavailable)
  | _ => s

/-- A statement fails for another reason, or the process stops. -/
def fail (i : ι) : System ι H :=
  match (s.sessions i).command with
  | none => s
  | some command => s.finish i command (.error .storeUnavailable)

/-- The consumer commits a row, with a time as it is stored; it waits as well. -/
def record (entry : LedgerEntry) : System ι H :=
  if entry.original ∧ entry.attemptID ≠ some "" ∧
      stamp entry.observedAt = entry.observedAt ∧
        s.pending.all (fun row => !clashes entry row.1) then
    match s.tables.insertEntry entry with
    | .ok _ => s.append entry
    | .error _ => s
  else s

/-- Other programs change the other tables. -/
def change (tables : Tables H) : System ι H :=
  if s.tables.Later { tables with entries := s.tables.entries } ∧ tables.Keyed then
    { s with tables := { tables with entries := s.tables.entries } }
  else s

def step : Action ι H → System ι H
  | .apply i command now => s.apply i command now
  | .find i => s.find i
  | .lock i => s.lock i
  | .recheck i => s.recheck i
  | .derive i => s.derive i
  | .insert i => s.insert stamp i
  | .commit i reply => s.commit stamp i reply
  | .fail i => s.fail i
  | .record entry => s.record stamp entry
  | .change tables => s.change tables

/-- An empty ledger, and nobody at work. -/
def start (tables : Tables H) : System ι H where
  locks := []
  pending := []
  sessions := fun _ => .idle
  log := []
  tables := { tables with entries := [] }

def Leads : System ι H → System ι H → Prop :=
  Relation.ReflTransGen fun s s' => ∃ action, s' = s.step stamp action

end System
end MeteringAdjustment
