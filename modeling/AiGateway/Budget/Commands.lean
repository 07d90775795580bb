import AiGateway.Budget.Model
import AiGateway.Machine.Arithmetic

/-! The inputs and results of the three budget commands (`reservation.go`, `settlement.go`,
`reaper.go`). Unsigned arithmetic goes through the checked operations: where the source would
wrap, the model fails with `overflow`. -/
namespace Budget
open Text Machine

/-- The errors callers see. `overflow` is not an error of the source: it marks a 64-bit operation
that left its range. -/
inductive Failure where
  | invalid
  | budgetExceeded (notice : LimitNotice)
  | accountNotFound
  | accountInactive
  | idempotencyConflict
  | retryExhausted
  | conflict
  | unavailable
  | reservationNotFound
  | settlementConflict
  | overflow
  deriving DecidableEq

def checked {β : Type} : Option β → Except Failure β
  | some b => .ok b
  | none => .error .overflow

def signedExactAmount (value : ℕ) : Option ℤ :=
  if value > maximumAmount then none else some value

def signedStoredAmount (value : ℕ) : ℤ := (signedExactAmount value).getD 0

def unsignedStoredAmount (value : ℤ) : Option ℕ :=
  if value < 0 ∨ value > maximumAmount then none else some value.toNat

/-! Reservation commands. -/

structure ReserveInput where
  (tenantID accountID requestID idempotencyKey : String)
  amountMicros : ℕ
  expiresAt : Time
  actor : String
  degradationHint : DegradationHint
  deriving DecidableEq

@[mk_iff] structure ReserveInput.Validate (i : ReserveInput) : Prop where
  tenantID : isUUID i.tenantID
  accountID : isUUID i.accountID
  requestID : budgetRefPattern i.requestID
  idempotencyKey : budgetRefPattern i.idempotencyKey
  amount : validAmount i.amountMicros
  expiresAt : i.expiresAt ≠ 0
  actor : validActor i.actor
  hint : validDegradationHint i.degradationHint

instance (i : ReserveInput) : Decidable i.Validate :=
  decidable_of_iff' _ (ReserveInput.validate_iff i)

def defaultReserveMaxAttempts : ℤ := 128

/-- Durations are in nanoseconds. -/
def defaultReserveRetryDelay : ℤ := 250000

def maximumReserveAttempts : ℕ := 256

/-- The options a process runs with; the retry delay has no effect on the stored rows. -/
structure ReserveOptions where
  maxAttempts : ℕ
  positive : 1 ≤ maxAttempts
  bounded : maxAttempts ≤ maximumReserveAttempts
  deriving DecidableEq

def ReserveOptions.normalized (maxAttempts retryDelay : ℤ) : Except Failure ReserveOptions :=
  let maxAttempts := if maxAttempts = 0 then defaultReserveMaxAttempts else maxAttempts
  let retryDelay := if retryDelay = 0 then defaultReserveRetryDelay else retryDelay
  if h : maxAttempts < 1 ∨ maxAttempts > maximumReserveAttempts ∨ retryDelay < 0 ∨
      retryDelay > 1000000000 then .error .invalid
  else .ok ⟨maxAttempts.toNat,by omega,by omega⟩

structure ReserveResult where
  reservation : Reservation
  ledgerEntry : LedgerEntry
  accountVersion : ℤ
  (resultCommittedMicros resultReservedMicros remainingHardMicros : ℕ)
  softLimitExceeded : Bool
  limitNotice : Option LimitNotice
  idempotent : Bool
  attempts : ℕ

def remainingHard (account : Account) (spent : ℕ) : Option ℕ :=
  if spent < account.hardLimitMicros then subU64 account.hardLimitMicros spent else some 0

def newBudgetLimitNotice (level : LimitLevel) (account : Account) (spent : ℕ)
    (hint : DegradationHint) : Option LimitNotice := do
  let remaining ← remainingHard account spent
  return ⟨level,remaining,account.periodEnd,hint⟩

def newBudgetExceededError (account : Account) (hint : DegradationHint) : Failure :=
  match (addU64 account.committedMicros account.reservedMicros).bind
      (newBudgetLimitNotice .hard account · hint) with
  | some notice => .budgetExceeded notice
  | none => .overflow

/-- The row shapes `buildReserveResult` insists on. -/
def ReserveFacts (account : Account) (reservation : Reservation) (entry : LedgerEntry)
    (hint : DegradationHint) (attempts : ℕ) : Prop :=
  account.Validate ∧ reservation.Validate ∧ entry.Validate ∧
    reservation.tenantID = account.scope.tenantID ∧ reservation.accountID = account.id ∧
    entry.tenantID = account.scope.tenantID ∧ entry.accountID = account.id ∧
    entry.reservationID = reservation.id ∧ entry.kind = .reserve ∧
    validDegradationHint hint ∧ entry.idempotencyKey = reservation.idempotencyKey ∧
    1 ≤ attempts

instance (account : Account) (reservation : Reservation) (entry : LedgerEntry)
    (hint : DegradationHint) (attempts : ℕ) :
    Decidable (ReserveFacts account reservation entry hint attempts) := by
  unfold ReserveFacts
  infer_instance

/-- The advisory notice of an admission above the soft limit. -/
def softLimitNotice (account : Account) (spent : ℕ) (hint : DegradationHint) :
    Except Failure (Option LimitNotice) :=
  if spent > account.softLimitMicros then do
    let value ← checked (newBudgetLimitNotice .soft account spent hint)
    if value.validate then return some value else throw .unavailable
  else .ok none

def buildReserveResult (account : Account) (reservation : Reservation) (entry : LedgerEntry)
    (hint : DegradationHint) (idempotent : Bool) (attempts : ℕ) :
    Except Failure ReserveResult := do
  if ¬ReserveFacts account reservation entry hint attempts then throw .unavailable
  let spent ← checked (addU64 entry.resultCommittedMicros entry.resultReservedMicros)
  let remaining ← checked (remainingHard account spent)
  let limitNotice ← softLimitNotice account spent hint
  return {
    reservation, ledgerEntry := entry, accountVersion := account.version
    resultCommittedMicros := entry.resultCommittedMicros
    resultReservedMicros := entry.resultReservedMicros
    remainingHardMicros := remaining
    softLimitExceeded := decide (spent > account.softLimitMicros), limitNotice
    idempotent, attempts }

/-! Settlement commands. -/

/-- Here `other` is a text outside the finite list. -/
inductive SettlementOutcome where
  | succeeded | failed | cancelled | cacheHit | other (text : String)
  deriving DecidableEq

inductive ChargeKind where
  | attempt | cache | other (text : String)
  deriving DecidableEq

def ChargeKind.text : ChargeKind → String
  | .attempt => "attempt"
  | .cache => "cache"
  | .other t => t

structure SettlementCharge where
  kind : ChargeKind
  referenceID : String
  amountMicros : ℕ
  deriving DecidableEq

structure SettlementInput where
  (tenantID accountID reservationID requestID : String)
  outcome : SettlementOutcome
  charges : List SettlementCharge
  actor : String
  deriving DecidableEq

def SettlementCharge.wellFormed (c : SettlementCharge) : Bool :=
  c.amountMicros ≤ maximumAmount &&
    match c.kind with
    | .attempt => isUUID c.referenceID
    | .cache => budgetRefPattern c.referenceID
    | .other _ => false

/-- The loop over the charges: `seen` holds the identities met so far and `actual` their sum. -/
def validCharges (seen : List String) (actual : ℕ) : List SettlementCharge → Bool
  | [] => true
  | c :: cs =>
      let identity := c.kind.text ++ ":" ++ c.referenceID
      c.wellFormed && !(seen.contains identity || actual > maximumAmount - c.amountMicros) &&
        validCharges (identity :: seen) (actual + c.amountMicros) cs

def allChargesAre (charges : List SettlementCharge) (kind : ChargeKind) : Bool :=
  charges.all fun c => c.kind = kind

def SettlementInput.validate (i : SettlementInput) : Bool :=
  isUUID i.tenantID && isUUID i.accountID && isUUID i.reservationID &&
    budgetRefPattern i.requestID && validActor i.actor && validCharges [] 0 i.charges &&
    match i.outcome with
    | .succeeded => !i.charges.isEmpty && allChargesAre i.charges .attempt
    | .failed | .cancelled => allChargesAre i.charges .attempt
    | .cacheHit => match i.charges with
        | [c] => c.kind = .cache
        | _ => false
    | .other _ => false

/-- The sum of all priced components. -/
def SettlementInput.actualMicros (i : SettlementInput) : Except Failure ℕ :=
  if i.validate then
    checked (i.charges.foldlM (fun actual c => addU64 actual c.amountMicros) 0)
  else .error .invalid

structure SettlementResult where
  reservation : Reservation
  ledgerEntry : LedgerEntry
  outcome : SettlementOutcome
  accountVersion : ℤ
  (actualMicros releasedMicros overageMicros resultCommittedMicros resultReservedMicros : ℕ)
  remainingHardMicros : ℕ
  (softLimitExceeded idempotent : Bool)
  attempts : ℕ

def settlementReservationStatus (outcome : SettlementOutcome) : ReservationStatus :=
  if outcome = .cancelled then .cancelled else .settled

def settlementEntryKind (outcome : SettlementOutcome) (actual : ℕ) : EntryKind :=
  if outcome = .cancelled ∧ actual = 0 then .release else .settle

def settlementLedgerKey (kind : EntryKind) (reservationID : String) : String :=
  kind.text ++ ":" ++ reservationID

def SettlementFacts (account : Account) (reservation : Reservation) (entry : LedgerEntry)
    (attempts : ℕ) : Prop :=
  account.Validate ∧ reservation.Validate ∧ entry.Validate ∧ 1 ≤ attempts ∧
    reservation.tenantID = account.scope.tenantID ∧ reservation.accountID = account.id ∧
    entry.tenantID = account.scope.tenantID ∧ entry.accountID = account.id ∧
    entry.reservationID = reservation.id

instance (account : Account) (reservation : Reservation) (entry : LedgerEntry) (attempts : ℕ) :
    Decidable (SettlementFacts account reservation entry attempts) := by
  unfold SettlementFacts
  infer_instance

def buildSettlementResult (account : Account) (reservation : Reservation) (entry : LedgerEntry)
    (outcome : SettlementOutcome) (idempotent : Bool) (attempts : ℕ) :
    Except Failure SettlementResult := do
  if ¬SettlementFacts account reservation entry attempts then throw .unavailable
  match reservation.actualMicros, reservation.releasedMicros, reservation.overageMicros with
  | some actual, some released, some overage =>
      let expectedKind := settlementEntryKind outcome actual
      match signedExactAmount actual with
      | none => throw .unavailable
      | some committedDelta =>
          if reservation.status ≠ settlementReservationStatus outcome ∨ entry.kind ≠ expectedKind ∨
              entry.idempotencyKey ≠ settlementLedgerKey expectedKind reservation.id ∨
              entry.committedDeltaMicros ≠ committedDelta ∨
              entry.reservedDeltaMicros ≠ -signedStoredAmount reservation.reservedMicros then
            throw .unavailable
          let spent ← checked (addU64 entry.resultCommittedMicros entry.resultReservedMicros)
          let remaining ← checked (remainingHard account spent)
          return {
            reservation, ledgerEntry := entry, outcome, accountVersion := account.version
            actualMicros := actual, releasedMicros := released, overageMicros := overage
            resultCommittedMicros := entry.resultCommittedMicros
            resultReservedMicros := entry.resultReservedMicros
            remainingHardMicros := remaining
            softLimitExceeded := decide (spent > account.softLimitMicros), idempotent, attempts }
  | _, _, _ => throw .unavailable

/-! Expiration. -/

def defaultReaperBatchSize : ℤ := 100

def maximumReaperBatchSize : ℕ := 1000

structure ReaperOptions where
  batchSize : ℕ
  positive : 1 ≤ batchSize
  bounded : batchSize ≤ maximumReaperBatchSize
  retries : ReserveOptions
  deriving DecidableEq

def ReaperOptions.normalized (batchSize maxAttempts retryDelay : ℤ) :
    Except Failure ReaperOptions :=
  let batchSize := if batchSize = 0 then defaultReaperBatchSize else batchSize
  if h : batchSize < 1 ∨ batchSize > maximumReaperBatchSize then .error .invalid
  else (ReserveOptions.normalized maxAttempts retryDelay).map fun retries =>
    ⟨batchSize.toNat,by omega,by omega,retries⟩

structure ExpirationEvent where
  eventID : String
  reservation : Reservation
  ledgerEntry : LedgerEntry
  accountVersion : ℤ
  (releasedMicros resultCommittedMicros resultReservedMicros : ℕ)
  occurredAt : Time
  attempts : ℕ

structure ReapResult where
  events : List ExpirationEvent
  atCapacity : Bool

def expirationLedgerKey (reservationID : String) : String :=
  EntryKind.expire.text ++ ":" ++ reservationID

/-- The row shapes `buildExpirationEvent` insists on. -/
def ExpirationFacts (account : Account) (reservation : Reservation) (entry : LedgerEntry)
    (attempts : ℕ) : Prop :=
  account.Validate ∧ reservation.Validate ∧ entry.Validate ∧ 1 ≤ attempts ∧
    reservation.status = .expired ∧ reservation.actualMicros = some 0 ∧
    reservation.releasedMicros = some reservation.reservedMicros ∧
    reservation.overageMicros = some 0 ∧ reservation.tenantID = account.scope.tenantID ∧
    reservation.accountID = account.id ∧ entry.tenantID = reservation.tenantID ∧
    entry.accountID = reservation.accountID ∧ entry.reservationID = reservation.id ∧
    entry.kind = .expire ∧ entry.idempotencyKey = expirationLedgerKey reservation.id ∧
    entry.committedDeltaMicros = 0 ∧
    entry.reservedDeltaMicros = -signedStoredAmount reservation.reservedMicros ∧
    entry.resultCommittedMicros = account.committedMicros ∧
    entry.resultReservedMicros = account.reservedMicros ∧
    reservation.terminalAt = some entry.occurredAt ∧ reservation.expiresAt ≤ entry.occurredAt

instance (account : Account) (reservation : Reservation) (entry : LedgerEntry) (attempts : ℕ) :
    Decidable (ExpirationFacts account reservation entry attempts) := by
  unfold ExpirationFacts
  infer_instance

def buildExpirationEvent (account : Account) (reservation : Reservation) (entry : LedgerEntry)
    (attempts : ℕ) : Except Failure ExpirationEvent :=
  if ExpirationFacts account reservation entry attempts then
    .ok {
      eventID := expirationLedgerKey reservation.id, reservation, ledgerEntry := entry
      accountVersion := account.version, releasedMicros := reservation.reservedMicros
      resultCommittedMicros := entry.resultCommittedMicros
      resultReservedMicros := entry.resultReservedMicros
      occurredAt := entry.occurredAt, attempts }
  else .error .unavailable

end Budget
