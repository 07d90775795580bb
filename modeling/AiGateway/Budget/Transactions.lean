import AiGateway.Budget.Schema
import AiGateway.Interleaving.Program

/-! The transactions of `postgres_reserver.go`, `postgres_settler.go` and `postgres_reaper.go`.
Every `SELECT` is a step of its own, at the state committed by then. The `UPDATE` of the account
row locks it until the commit, so it forms one atomic step with the statements after it. -/
namespace Budget
open Text Machine Interleaving

/-- A database error that no row of the model explains. -/
inductive Fault where
  | retryable | constraint | failure

/-- What one step gets from outside: `now` is the process clock, `clock` and `stamp` are the
readings of `clock_timestamp()` in a `WHERE` and in a `SET` clause, and `lostAck` is a commit
that happened but was reported as failed. -/
structure Oracle where
  (now clock stamp : Time)
  stamp_pos : 0 < stamp
  random : Option (Fin 16 → UInt8)
  fault : Option Fault
  (lostAck cancelled : Bool)
  gap : ℕ

/-- How an attempt ends without a result: the caller tries again, or returns the failure. -/
inductive Abort where
  | retry
  | fail (failure : Failure)

def Fault.sqlError : Fault → SqlError
  | .retryable => .retryable
  | .constraint => .constraint
  | .failure => .failure

def mapReserveDatabaseError : SqlError → Failure
  | .idempotencyUnique | .constraint => .conflict
  | .overflow => .overflow
  | .noRows | .retryable | .failure => .unavailable

/-- After an `UPDATE`, no row means that the version moved. -/
def updateAbort : SqlError → Abort
  | .noRows | .retryable => .retry
  | e => .fail (mapReserveDatabaseError e)

def insertReservationAbort : SqlError → Abort
  | .idempotencyUnique | .retryable => .retry
  | e => .fail (mapReserveDatabaseError e)

def insertLedgerAbort : SqlError → Abort
  | .retryable => .retry
  | e => .fail (mapReserveDatabaseError e)

/-- A query fails when the database does, whatever is stored. -/
def Oracle.query {β : Type} (e : Oracle) (result : Except SqlError β) : Except SqlError β :=
  match e.fault with
  | some f => .error f.sqlError
  | none => result

/-- The statements from the account `UPDATE` to the commit. -/
def transact {β : Type} (body : Oracle → Database → Except Abort (Database × β)) (e : Oracle)
    (s : Database) : Database × Except Abort β :=
  match e.fault with
  | some f => (s,.error (updateAbort f.sqlError))
  | none => match body e s with
      | .ok (s',b) => (s',if e.lostAck then .error (.fail .unavailable) else .ok b)
      | .error a => (s,.error a)

def postgresTime (value : Time) : Time := value - value % 1000

/-! Queries. -/

def Database.loadBudgetAccount (s : Database) (tenantID accountID : String) :
    Except SqlError Account :=
  if s.account.scope.tenantID = tenantID ∧ s.account.id = accountID then
    scanBudgetAccount s.account
  else .error .noRows

def scanFirst {row β : Type} (scan : row → Except SqlError β) : Option row → Except SqlError β
  | some r => scan r
  | none => .error .noRows

def Database.reservationByKey (s : Database) (tenantID accountID key : String) :
    Option ReservationRow :=
  s.reservations.find? fun r =>
    r.tenantID = tenantID ∧ r.accountID = accountID ∧ r.idempotencyKey = key

def Database.reservationByID (s : Database) (tenantID accountID id : String) :
    Option ReservationRow :=
  s.reservations.find? fun r => r.tenantID = tenantID ∧ r.accountID = accountID ∧ r.id = id

def Database.ledgerEntry (s : Database) (tenantID accountID reservationID : String)
    (kind : EntryKind) (key : String) : Option LedgerRow :=
  s.ledger.find? fun x => x.tenantID = tenantID ∧ x.accountID = accountID ∧
    x.reservationID = reservationID ∧ x.kind = kind ∧ x.idempotencyKey = key

def Database.loadBudgetRequestStatus (s : Database) (tenantID requestID : String) :
    Except SqlError RequestStatus :=
  match s.requests tenantID requestID with
  | some status => .ok status
  | none => .error .noRows

/-- The order `ORDER BY expires_at, id`. -/
def expiresBefore (a b : ReservationRow) : Bool :=
  a.expiresAt < b.expiresAt || (a.expiresAt = b.expiresAt && a.id < b.id)

/-- The claim query of the reaper: `FOR UPDATE SKIP LOCKED LIMIT 1`. -/
def Database.nextExpired (s : Database) (clock : Time) : Option ReservationRow :=
  Relational.first expiresBefore (s.reservations.filter fun r =>
    r.status = .pending && r.expiresAt ≤ clock && !s.locks.contains r.id)

def Database.lock (s : Database) (id : String) : Database := { s with locks := id :: s.locks }

def Database.unlock (s : Database) (id : String) : Database :=
  { s with locks := s.locks.erase id }

/-- A row read `FOR UPDATE` stays locked once it is decoded; otherwise the transaction ends. -/
def Database.claim (s : Database) (e : Oracle) (row : Option ReservationRow) :
    Database × Except SqlError Reservation :=
  match e.query (scanFirst scanBudgetReservation row) with
  | .ok reservation => (s.lock reservation.id,.ok reservation)
  | .error err => (s,.error err)

/-- The end of a transaction that holds the lock of reservation `id`. -/
def release {α : Type} (id : String) (out : α) : Prog Database Oracle α :=
  .write (fun _ s => (s.unlock id,())) fun _ => .ret out

/-! Reserve. -/

def loadExistingReserve (input : ReserveInput) (attempt : ℕ) :
    Prog Database Oracle (Except Failure (Option ReserveResult)) :=
  .read (fun e s => e.query (scanFirst scanBudgetReservation
      (s.reservationByKey input.tenantID input.accountID input.idempotencyKey))) fun
  | .error .noRows => .ret (.ok none)
  | .error _ => .ret (.error .unavailable)
  | .ok reservation =>
      if reservation.requestID ≠ input.requestID ∨ reservation.reservedMicros ≠ input.amountMicros ∨
          reservation.expiresAt ≠ input.expiresAt then .ret (.error .idempotencyConflict)
      else .read (fun e s => e.query (s.loadBudgetAccount input.tenantID input.accountID)) fun
      | .error _ => .ret (.error .unavailable)
      | .ok account =>
          .read (fun e s => e.query (scanFirst scanBudgetLedger (s.ledgerEntry input.tenantID
              input.accountID reservation.id .reserve input.idempotencyKey))) fun
          | .error _ => .ret (.error .unavailable)
          | .ok entry => .ret ((buildReserveResult account reservation entry
              input.degradationHint true attempt).map some)

/-- The checks of `reserveOnce` on the account it read; the result is the signed amount. -/
def admitReserve (input : ReserveInput) (now : Time) (account : Account) : Except Failure ℤ := do
  if account.status ≠ .opened ∨ now < account.periodStart ∨ ¬now < account.periodEnd then
    throw .accountInactive
  let spent ← checked (addU64 account.committedMicros account.reservedMicros)
  if input.amountMicros > account.hardLimitMicros then
    throw (newBudgetExceededError account input.degradationHint)
  let room ← checked (subU64 account.hardLimitMicros input.amountMicros)
  if spent > room then throw (newBudgetExceededError account input.degradationHint)
  match signedExactAmount input.amountMicros with
  | some amount => return amount
  | none => throw .invalid

def reserveWhere (amount version : ℤ) (e : Oracle) (a : AccountRow) : Option Bool := do
  let spent ← int64 (a.committedMicros + a.reservedMicros)
  let room ← int64 (a.hardLimitMicros - amount)
  return a.version = version && a.status = .opened && a.periodStart ≤ e.clock &&
    e.clock < a.periodEnd && spent ≤ room

def reserveSet (amount : ℤ) (actor : String) (e : Oracle) (a : AccountRow) :
    Option AccountRow := do
  let reservedMicros ← int64 (a.reservedMicros + amount)
  return { a with
    reservedMicros, version := a.version + 1, updatedAt := max a.updatedAt e.stamp
    updatedBy := actor }

def reserveRow (input : ReserveInput) (id : String) (amount : ℤ) (eventTime : Time) :
    ReservationRow where
  id := id
  tenantID := input.tenantID
  accountID := input.accountID
  requestID := input.requestID
  idempotencyKey := input.idempotencyKey
  status := .pending
  reservedMicros := amount
  actualMicros := none
  releasedMicros := none
  overageMicros := none
  expiresAt := input.expiresAt
  version := 1
  createdAt := eventTime
  createdBy := input.actor
  updatedAt := eventTime
  updatedBy := input.actor
  terminalAt := none

/-- The ledger row of a change to `updated`; its identity is assigned on insertion. -/
def ledgerRow (tenantID accountID reservationID : String) (kind : EntryKind) (key : String)
    (committedDelta reservedDelta : ℤ) (updated : Account) (actor : String) : LedgerRow where
  id := 0
  tenantID := tenantID
  accountID := accountID
  reservationID := reservationID
  kind := kind
  idempotencyKey := key
  committedDeltaMicros := committedDelta
  reservedDeltaMicros := reservedDelta
  resultCommittedMicros := signedStoredAmount updated.committedMicros
  resultReservedMicros := signedStoredAmount updated.reservedMicros
  occurredAt := updated.updatedAt
  createdBy := actor

/-- The rows of one committed change. -/
structure Commit where
  account : Account
  reservation : Reservation
  entry : LedgerEntry

def reserveBody (input : ReserveInput) (id : String) (amount version : ℤ) (e : Oracle)
    (s : Database) : Except Abort (Database × Commit) := do
  let (s,row) ← (s.updateAccount input.tenantID input.accountID (reserveWhere amount version e)
    (reserveSet amount input.actor e)).mapError updateAbort
  let updated ← (scanBudgetAccount row).mapError updateAbort
  if ¬updated.updatedAt < input.expiresAt then throw (.fail .invalid)
  let (s,row) ← (s.insertReservation (reserveRow input id amount updated.updatedAt)).mapError
    insertReservationAbort
  let reservation ← (scanBudgetReservation row).mapError insertReservationAbort
  let (s,row) ← (s.insertLedger e.gap (ledgerRow input.tenantID input.accountID id .reserve
    input.idempotencyKey 0 amount updated input.actor)).mapError insertLedgerAbort
  let entry ← (scanBudgetLedger row).mapError insertLedgerAbort
  return (s,⟨updated,reservation,entry⟩)

/-- The identifier drawn by an earlier attempt is kept. -/
def drawReservationID (reservationID : String) (random : Option (Fin 16 → UInt8)) : Option String :=
  if reservationID = "" then random.map uuidOfBytes else some reservationID

def finishReserve (input : ReserveInput) (attempt : ℕ) :
    Except Abort Commit → Except Abort ReserveResult
  | .error a => .error a
  | .ok c => (buildReserveResult c.account c.reservation c.entry input.degradationHint false
      attempt).mapError .fail

/-- One attempt, with the reservation identifier for the next one. -/
def reserveOnce (input : ReserveInput) (now : Time) (reservationID : String) (attempt : ℕ) :
    Prog Database Oracle (Except Abort ReserveResult × String) :=
  (loadExistingReserve input attempt).bind fun
  | .error f => .ret (.error (.fail f),reservationID)
  | .ok (some result) => .ret (.ok result,reservationID)
  | .ok none =>
      .read (fun e s => (e.query (s.loadBudgetAccount input.tenantID input.accountID),
        e.random)) fun
      | (.error .noRows,_) => .ret (.error (.fail .accountNotFound),reservationID)
      | (.error _,_) => .ret (.error (.fail .unavailable),reservationID)
      | (.ok account,random) => match admitReserve input now account with
          | .error f => .ret (.error (.fail f),reservationID)
          | .ok amount => match drawReservationID reservationID random with
              | none => .ret (.error (.fail .unavailable),reservationID)
              | some id =>
                  .write (transact (reserveBody input id amount account.version)) fun out =>
                    .ret (finishReserve input attempt out,id)

/-- The attempts of one command, `remaining` of them from number `attempt` on. -/
def reserveLoop (input : ReserveInput) : ℕ → ℕ → String →
    Prog Database Oracle (Except Failure ReserveResult)
  | 0, _, _ => .ret (.error .retryExhausted)
  | remaining + 1, attempt, reservationID =>
      .read (fun e _ => postgresTime e.now) fun now =>
        if now = 0 ∨ ¬now < input.expiresAt then .ret (.error .invalid)
        else (reserveOnce input now reservationID attempt).bind fun
        | (.ok result,_) => .ret (.ok result)
        | (.error (.fail f),_) => .ret (.error f)
        | (.error .retry,id) =>
            if remaining = 0 then .ret (.error .retryExhausted)
            else .read (fun e _ => e.cancelled) fun
            | true => .ret (.error .unavailable)
            | false => reserveLoop input remaining (attempt + 1) id

/-- The command at the precision of the stored columns. -/
def ReserveInput.stored (input : ReserveInput) : ReserveInput :=
  { input with expiresAt := postgresTime input.expiresAt }

def reserve (options : ReserveOptions) (input : ReserveInput) :
    Prog Database Oracle (Except Failure ReserveResult) :=
  if input.Validate then
    if input.stored.expiresAt = 0 then .ret (.error .invalid)
    else reserveLoop input.stored options.maxAttempts 1 ""
  else .ret (.error .invalid)

/-! Settle. -/

def requestStatusMatchesOutcome (status : RequestStatus) : SettlementOutcome → Bool
  | .succeeded | .cacheHit => status = .succeeded
  | .failed => status = .failed || status = .partialFailed
  | .cancelled => status = .cancelled
  | .other _ => false

def loadTerminalSettlement (input : SettlementInput) (reservation : Reservation) (actual : ℕ)
    (attempt : ℕ) : Prog Database Oracle (Except Abort SettlementResult) :=
  if reservation.status ≠ settlementReservationStatus input.outcome ∨
      reservation.actualMicros ≠ some actual then .ret (.error (.fail .settlementConflict))
  else .read (fun e s => e.query (s.loadBudgetAccount input.tenantID input.accountID)) fun
  | .error _ => .ret (.error (.fail .unavailable))
  | .ok account =>
      let entryKind := settlementEntryKind input.outcome actual
      .read (fun e s => e.query (scanFirst scanBudgetLedger (s.ledgerEntry input.tenantID
          input.accountID input.reservationID entryKind
          (settlementLedgerKey entryKind input.reservationID)))) fun
      | .error _ => .ret (.error (.fail .unavailable))
      | .ok entry => .ret ((buildSettlementResult account reservation entry input.outcome true
          attempt).mapError .fail)

def orOverflow {β : Type} : Option β → Except Abort β
  | some b => .ok b
  | none => .error (.fail .overflow)

/-- The checks of `settleOnce` on the account it read; the result is the signed actual amount. -/
def planSettlement (account : Account) (reservation : Reservation) (actual : ℕ) :
    Except Abort ℤ := do
  if account.reservedMicros < reservation.reservedMicros then throw .retry
  let room ← orOverflow (subU64 maximumAmount account.committedMicros)
  if actual > room then throw (.fail .conflict)
  let remainingReserved ← orOverflow (subU64 account.reservedMicros reservation.reservedMicros)
  let resultCommitted ← orOverflow (addU64 account.committedMicros actual)
  let limit ← orOverflow (subU64 maximumAmount remainingReserved)
  if resultCommitted > limit then throw (.fail .conflict)
  match signedExactAmount actual with
  | some actualSigned => return actualSigned
  | none => throw (.fail .invalid)

def settleWhere (actual reserved version : ℤ) (a : AccountRow) : Option Bool := do
  let maximum := signedStoredAmount maximumAmount
  let room ← int64 (maximum - actual)
  let committed ← int64 (a.committedMicros + actual)
  let remaining ← int64 (a.reservedMicros - reserved)
  let limit ← int64 (maximum - remaining)
  return a.version = version && reserved ≤ a.reservedMicros && a.committedMicros ≤ room &&
    committed ≤ limit

def settleSet (actual reserved : ℤ) (actor : String) (e : Oracle) (a : AccountRow) :
    Option AccountRow := do
  let committedMicros ← int64 (a.committedMicros + actual)
  let reservedMicros ← int64 (a.reservedMicros - reserved)
  return { a with
    committedMicros, reservedMicros, version := a.version + 1
    updatedAt := max a.updatedAt e.stamp, updatedBy := actor }

/-- The terminal columns of a reservation. -/
def terminalSet (status : ReservationStatus) (actual released overage : ℤ) (eventTime : Time)
    (actor : String) (r : ReservationRow) : ReservationRow :=
  { r with
    status, actualMicros := some actual, releasedMicros := some released
    overageMicros := some overage, terminalAt := some eventTime, version := r.version + 1
    updatedAt := eventTime, updatedBy := actor }

def settleBody (input : SettlementInput) (reservation : Reservation) (actual : ℕ)
    (actualSigned version : ℤ) (e : Oracle) (s : Database) :
    Except Abort (Database × Commit) := do
  let reservedSigned := signedStoredAmount reservation.reservedMicros
  let (s,row) ← (s.updateAccount input.tenantID input.accountID
    (settleWhere actualSigned reservedSigned version)
    (settleSet actualSigned reservedSigned input.actor e)).mapError updateAbort
  let updated ← (scanBudgetAccount row).mapError updateAbort
  let (released,overage) := reservationDifference reservation.reservedMicros actual
  let (s,row) ← (s.updateReservation input.tenantID input.accountID input.reservationID
    (fun r => r.status = .pending && r.version = reservation.version)
    (terminalSet (settlementReservationStatus input.outcome) actualSigned
      (signedStoredAmount released) (signedStoredAmount overage) updated.updatedAt
      input.actor)).mapError updateAbort
  let terminal ← (scanBudgetReservation row).mapError updateAbort
  let entryKind := settlementEntryKind input.outcome actual
  let (s,row) ← (s.insertLedger e.gap (ledgerRow input.tenantID input.accountID
    input.reservationID entryKind (settlementLedgerKey entryKind input.reservationID)
    actualSigned (-reservedSigned) updated input.actor)).mapError insertLedgerAbort
  let entry ← (scanBudgetLedger row).mapError insertLedgerAbort
  return (s,⟨updated,terminal,entry⟩)

def finishSettle (input : SettlementInput) (attempt : ℕ) :
    Except Abort Commit → Except Abort SettlementResult
  | .error a => .error a
  | .ok c => (buildSettlementResult c.account c.reservation c.entry input.outcome false
      attempt).mapError .fail

/-- What `settleOnce` does once it holds the reservation row. -/
def settleLocked (input : SettlementInput) (actual attempt : ℕ) (reservation : Reservation) :
    Prog Database Oracle (Except Abort SettlementResult) :=
  if reservation.requestID ≠ input.requestID then .ret (.error (.fail .settlementConflict))
  else .read (fun e s => e.query (s.loadBudgetRequestStatus input.tenantID input.requestID)) fun
  | .error _ => .ret (.error (.fail .unavailable))
  | .ok requestStatus =>
      if ¬requestStatusMatchesOutcome requestStatus input.outcome then
        .ret (.error (.fail .settlementConflict))
      else if reservation.status ≠ .pending then
        loadTerminalSettlement input reservation actual attempt
      else .read (fun e s => e.query (s.loadBudgetAccount input.tenantID input.accountID)) fun
      | .error _ => .ret (.error (.fail .unavailable))
      | .ok account => match planSettlement account reservation actual with
          | .error a => .ret (.error a)
          | .ok actualSigned =>
              .write (transact (settleBody input reservation actual actualSigned
                account.version)) fun out => .ret (finishSettle input attempt out)

/-- A row read `FOR UPDATE` waits while another transaction holds the row. -/
def settleReady (input : SettlementInput) (s : Database) : Bool :=
  match s.reservationByID input.tenantID input.accountID input.reservationID with
  | some r => !s.locks.contains r.id
  | none => true

def settleOnce (input : SettlementInput) (actual attempt : ℕ) :
    Prog Database Oracle (Except Abort SettlementResult) :=
  .await (settleReady input) (fun e s => s.claim e
    (s.reservationByID input.tenantID input.accountID input.reservationID)) fun
  | .error .noRows => .ret (.error (.fail .reservationNotFound))
  | .error _ => .ret (.error (.fail .unavailable))
  | .ok reservation => (settleLocked input actual attempt reservation).bind
      (release reservation.id)

/-- The bounded attempts shared by `Settle` and `reapNext`. -/
def attempts {α : Type} (once : ℕ → Prog Database Oracle (Except Abort α)) : ℕ → ℕ →
    Prog Database Oracle (Except Failure α)
  | 0, _ => .ret (.error .retryExhausted)
  | remaining + 1, attempt => (once attempt).bind fun
      | .ok result => .ret (.ok result)
      | .error (.fail f) => .ret (.error f)
      | .error .retry =>
          if remaining = 0 then .ret (.error .retryExhausted)
          else .read (fun e _ => e.cancelled) fun
          | true => .ret (.error .unavailable)
          | false => attempts once remaining (attempt + 1)

def settle (options : ReserveOptions) (input : SettlementInput) :
    Prog Database Oracle (Except Failure SettlementResult) :=
  match input.actualMicros with
  | .error f => .ret (.error f)
  | .ok actual => attempts (settleOnce input actual) options.maxAttempts 1

/-! Reap. -/

def reapWhere (reserved version : ℤ) (a : AccountRow) : Option Bool :=
  some (a.version = version && reserved ≤ a.reservedMicros)

def reapSet (reserved : ℤ) (actor : String) (e : Oracle) (a : AccountRow) :
    Option AccountRow := do
  let reservedMicros ← int64 (a.reservedMicros - reserved)
  return { a with
    reservedMicros, version := a.version + 1, updatedAt := max a.updatedAt e.stamp
    updatedBy := actor }

def reapBody (actor : String) (reservation : Reservation) (version : ℤ) (attempt : ℕ)
    (e : Oracle) (s : Database) : Except Abort (Database × ExpirationEvent) := do
  let reservedSigned := signedStoredAmount reservation.reservedMicros
  let (s,row) ← (s.updateAccount reservation.tenantID reservation.accountID
    (reapWhere reservedSigned version) (reapSet reservedSigned actor e)).mapError updateAbort
  let updated ← (scanBudgetAccount row).mapError updateAbort
  let (s,row) ← (s.updateReservation reservation.tenantID reservation.accountID reservation.id
    (fun r => r.status = .pending && r.version = reservation.version &&
      r.expiresAt ≤ updated.updatedAt)
    (terminalSet .expired 0 reservedSigned 0 updated.updatedAt actor)).mapError updateAbort
  let terminal ← (scanBudgetReservation row).mapError updateAbort
  let (s,row) ← (s.insertLedger e.gap (ledgerRow reservation.tenantID reservation.accountID
    reservation.id .expire (expirationLedgerKey reservation.id) 0 (-reservedSigned) updated
    actor)).mapError insertLedgerAbort
  let entry ← (scanBudgetLedger row).mapError insertLedgerAbort
  let event ← (buildExpirationEvent updated terminal entry attempt).mapError .fail
  return (s,event)

/-- What `reapOnce` does once it holds the reservation row. -/
def reapLocked (actor : String) (attempt : ℕ) (reservation : Reservation) :
    Prog Database Oracle (Except Abort (Option ExpirationEvent)) :=
  .read (fun e s => e.query (s.loadBudgetAccount reservation.tenantID
      reservation.accountID)) fun
  | .error _ => .ret (.error (.fail .unavailable))
  | .ok account =>
      if account.reservedMicros < reservation.reservedMicros then
        .ret (.error (.fail .conflict))
      else .write (transact (reapBody actor reservation account.version attempt)) fun out =>
        .ret (out.map some)

/-- Here `none` is the source's `found = false`. -/
def reapOnce (actor : String) (attempt : ℕ) :
    Prog Database Oracle (Except Abort (Option ExpirationEvent)) :=
  .write (fun e s => s.claim e (s.nextExpired e.clock)) fun
  | .error .noRows => .ret (.ok none)
  | .error _ => .ret (.error (.fail .unavailable))
  | .ok reservation => (reapLocked actor attempt reservation).bind (release reservation.id)

def reapNext (options : ReaperOptions) (actor : String) :
    Prog Database Oracle (Except Failure (Option ExpirationEvent)) :=
  attempts (reapOnce actor) options.retries.maxAttempts 1

/-- A failure comes with the events committed before it. -/
structure ReapReply where
  result : ReapResult
  failure : Option Failure

/-- The sweep, with `room` places left in the batch. -/
def reapLoop (options : ReaperOptions) (actor : String) : ℕ → List ExpirationEvent →
    Prog Database Oracle ReapReply
  | 0, events => .ret ⟨⟨events,true⟩,none⟩
  | room + 1, events => (reapNext options actor).bind fun
      | .error f => .ret ⟨⟨events,false⟩,some f⟩
      | .ok none => .ret ⟨⟨events,false⟩,none⟩
      | .ok (some event) => reapLoop options actor room (events ++ [event])

def reap (options : ReaperOptions) (actor : String) : Prog Database Oracle ReapReply :=
  if validActor actor then reapLoop options actor options.batchSize []
  else .ret ⟨⟨[],false⟩,some .invalid⟩

/-! The system: any number of calls, the life of the gateway requests, and the closing of the
account. -/

inductive Call where
  | reserve (options : ReserveOptions) (input : ReserveInput)
  | settle (options : ReserveOptions) (input : SettlementInput)
  | reap (options : ReaperOptions) (actor : String)
  deriving DecidableEq

inductive Reply where
  | reserve (result : Except Failure ReserveResult)
  | settle (result : Except Failure SettlementResult)
  | reap (reply : ReapReply)

def start : Call → Prog Database Oracle Reply
  | .reserve options input => (reserve options input).bind fun r => .ret (.reserve r)
  | .settle options input => (settle options input).bind fun r => .ret (.settle r)
  | .reap options actor => (reap options actor).bind fun r => .ret (.reap r)

def Database.setRequest (s : Database) (tenantID requestID : String) (status : RequestStatus) :
    Database :=
  { s with requests := fun t r =>
      if t = tenantID ∧ r = requestID then some status else s.requests t r }

def Database.close (s : Database) (t : Time) (actor : String) : Database :=
  { s with account := { s.account with
      status := .closed, closedAt := some t, version := s.account.version + 1
      updatedAt := max s.account.updatedAt t, updatedBy := actor } }

inductive Environment (s : Database) : Database → Prop
  | insertRequest (tenantID requestID : String) (status : RequestStatus)
      (h : s.requests tenantID requestID = none) :
      Environment s (s.setRequest tenantID requestID status)
  | moveRequest (tenantID requestID : String) (old new : RequestStatus)
      (h : s.requests tenantID requestID = some old) (ht : requestTransition old new) :
      Environment s (s.setRequest tenantID requestID new)
  | close (t : Time) (actor : String) (ho : s.account.status = .opened)
      (ht : s.account.createdAt ≤ t) (ha : validActor actor) :
      Environment s (s.close t actor)

/-- A valid account with zero balances, no reservations and an empty ledger. -/
structure Initial (s : Database) : Prop where
  account : ∃ a, scanBudgetAccount s.account = .ok a
  committed : s.account.committedMicros = 0
  reserved : s.account.reservedMicros = 0
  reservations : s.reservations = []
  ledger : s.ledger = []
  ledgerSeq : 0 ≤ s.ledgerSeq
  locks : s.locks = []

/-- The calls that `allowed` admits, in any number and order, and the outside events it admits
for the steps of each. -/
def systemOf (allowed : Call → Oracle → Prop) : System Database Oracle Call Reply where
  init := Initial
  start := start
  env := Environment
  guard c e _ := allowed c e

/-- Every Reserve, Settle and Reap call. -/
def system : System Database Oracle Call Reply := systemOf fun _ _ => True

end Budget
