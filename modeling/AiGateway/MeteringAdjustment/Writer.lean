import AiGateway.Ledger.Schema

/-! Corrections of the ledger (`internal/meteringadjustment`): commands, and the statements of
`PostgresWriter.Apply`. -/
namespace MeteringAdjustment
open Text Machine Adapter Metering Ledger

variable {H : Type}

inductive AdjustmentError where
  | invalid
  | notFound
  | invalidTarget
  | noChange
  | conflict
  | storeUnavailable

structure Scope where
  (tenantID projectID : String)

def Scope.validate (scope : Scope) : Bool := isUUID scope.tenantID && isUUID scope.projectID

structure Command where
  scope : Scope
  (eventID idempotencyKey targetEventID : String)
  (correctedQuantity correctedAmountMicros : ℤ)
  origin : Origin
  (reason reference actor : String)

/-- Every refusal is `ErrInvalid`. -/
def Command.validate (command : Command) : Bool :=
  command.scope.validate && isUUID command.eventID && isUUID command.targetEventID &&
    command.eventID ≠ command.targetEventID && idempotencyPattern command.idempotencyKey &&
    command.origin.valid && labelPattern command.reason && auditPattern command.reference &&
    auditPattern command.actor && 0 ≤ command.correctedQuantity &&
    command.correctedQuantity ≤ maximumExactInteger &&
    0 ≤ command.correctedAmountMicros &&
    command.correctedAmountMicros ≤ maximumExactInteger

structure Result where
  (eventID targetEventID tenantID requestID attemptID : String)
  tokenType : TokenType
  (priceVersionID currency : String)
  (quantityDelta amountMicrosDelta correctedQuantity correctedAmountMicros : ℤ)
  origin : Origin
  (reason reference actor : String)
  createdAt : Time
  (inserted replayed : Bool)

structure TargetFact where
  (tenantID requestID attemptID : String)
  tokenType : TokenType
  (priceVersionID currency : String)
  source : UsageSource
  (quantity amountMicros : ℤ)

def nullableString (value : String) : Option String := if value = "" then none else some value

/-- The joins with the request of the project and with the price version, which gives
the currency. -/
def joined (db : Tables H) (projectID : String) (entry : LedgerEntry) : Option String :=
  if ∃ r ∈ db.requests, r.tenantID = entry.tenantID ∧ r.id = entry.requestID ∧
      r.projectID = projectID then
    (db.prices.version? entry.priceVersionID).map (·.currency)
  else none

/-- The row of the target in the scope. -/
def targetRow (db : Tables H) (command : Command) : Option (LedgerEntry × String) := do
  let entry ← db.entry? command.targetEventID
  if entry.tenantID = command.scope.tenantID then
    let currency ← joined db command.scope.projectID entry
    return (entry,currency)
  else none

def targetFact (entry : LedgerEntry) (currency : String) : TargetFact where
  tenantID := entry.tenantID
  requestID := entry.requestID
  attemptID := entry.attemptID.getD ""
  tokenType := entry.tokenType
  priceVersionID := entry.priceVersionID
  currency := currency
  source := entry.source
  quantity := entry.quantity
  amountMicros := entry.amountMicros

/-- The checks of `lockTarget` on the row it has locked. -/
def TargetFact.valid (target : TargetFact) : Bool :=
  target.source ≠ .adjustment && target.tokenType.valid && 1 ≤ target.quantity &&
    target.quantity ≤ maximumExactInteger && 0 ≤ target.amountMicros &&
    target.amountMicros ≤ maximumExactInteger

def exactNonnegative (value : ℤ) : Bool :=
  0 ≤ value && value ≤ maximumExactInteger

def loadCurrentResult (db : Tables H) (targetEventID : String) (target : TargetFact) :
    Except AdjustmentError (ℤ × ℤ) :=
  let quantity := target.quantity + (db.corrections targetEventID).1
  let amount := target.amountMicros + (db.corrections targetEventID).2
  if exactNonnegative quantity && exactNonnegative amount then .ok (quantity,amount)
  else .error .invalidTarget

/-- A stored correction as a result. -/
def storedResult (entry : LedgerEntry) (a : Adjustment) (currency : String) : Result where
  eventID := entry.eventID
  targetEventID := a.adjustsEventID
  tenantID := entry.tenantID
  requestID := entry.requestID
  attemptID := entry.attemptID.getD ""
  tokenType := entry.tokenType
  priceVersionID := entry.priceVersionID
  currency := currency
  quantityDelta := entry.quantity
  amountMicrosDelta := entry.amountMicros
  correctedQuantity := a.resultQuantity
  correctedAmountMicros := a.resultAmountMicros
  origin := a.origin
  reason := a.reason
  reference := a.reference
  actor := a.actor
  createdAt := entry.createdAt
  inserted := false
  replayed := true

/-- The stored correction has the content of the command. -/
def Command.matches (command : Command) (entry : LedgerEntry) (a : Adjustment) : Bool :=
  entry.eventID = command.eventID && a.adjustsEventID = command.targetEventID &&
    a.idempotencyKey = command.idempotencyKey &&
    a.resultQuantity = command.correctedQuantity &&
    a.resultAmountMicros = command.correctedAmountMicros &&
    a.origin = command.origin && a.reason = command.reason &&
    a.reference = command.reference && a.actor = command.actor

/-- The entry holds the key of the command in its tenant. -/
def Command.keyed (command : Command) (entry : LedgerEntry) : Bool :=
  entry.tenantID = command.scope.tenantID &&
    (entry.adjustment.map fun a => decide (a.idempotencyKey = command.idempotencyKey)).getD false

def loadExisting (db : Tables H) (command : Command) : Except AdjustmentError (Option Result) :=
  match db.entries.find? fun e =>
      command.keyed e && (joined db command.scope.projectID e).isSome with
  | none => .ok none
  | some entry =>
      match entry.adjustment, joined db command.scope.projectID entry with
      | some a, some currency =>
          if command.matches entry a then .ok (some (storedResult entry a currency))
          else .error .conflict
      | _, _ => .ok none

/-- The columns that a command fills. -/
def Command.adjustment (command : Command) : Adjustment where
  adjustsEventID := command.targetEventID
  idempotencyKey := command.idempotencyKey
  origin := command.origin
  reason := command.reason
  reference := command.reference
  actor := command.actor
  resultQuantity := command.correctedQuantity
  resultAmountMicros := command.correctedAmountMicros

/-- The row that `Apply` inserts. -/
def adjustmentEntry (stamp : Time → Time) (command : Command) (target : TargetFact)
    (quantityDelta amountDelta : ℤ) (createdAt : Time) : LedgerEntry where
  eventID := command.eventID
  tenantID := target.tenantID
  requestID := target.requestID
  attemptID := nullableString target.attemptID
  tokenType := target.tokenType
  quantity := quantityDelta
  source := .adjustment
  observedAt := stamp createdAt
  createdAt := stamp createdAt
  createdBy := command.actor
  priceVersionID := target.priceVersionID
  amountMicros := amountDelta
  eventSchemaVersion := none
  estimate := none
  adjustment := some command.adjustment

def resultFrom (command : Command) (target : TargetFact) (quantityDelta amountDelta : ℤ)
    (createdAt : Time) (inserted replayed : Bool) : Result where
  eventID := command.eventID
  targetEventID := command.targetEventID
  tenantID := target.tenantID
  requestID := target.requestID
  attemptID := target.attemptID
  tokenType := target.tokenType
  priceVersionID := target.priceVersionID
  currency := target.currency
  quantityDelta := quantityDelta
  amountMicrosDelta := amountDelta
  correctedQuantity := command.correctedQuantity
  correctedAmountMicros := command.correctedAmountMicros
  origin := command.origin
  reason := command.reason
  reference := command.reference
  actor := command.actor
  createdAt := createdAt
  inserted := inserted
  replayed := replayed

def mapDatabaseError : SqlState → AdjustmentError
  | .uniqueViolation => .conflict
  | .foreignKeyViolation | .checkViolation => .invalidTarget
  | .unavailable => .storeUnavailable

end MeteringAdjustment
