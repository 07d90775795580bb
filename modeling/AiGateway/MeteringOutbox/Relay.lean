import AiGateway.Metering.Outbox
import Mathlib.Data.List.Sort

/-! The relay of the usage outbox (`internal/meteringoutbox/relay.go`): any number of relays claim
rows, publish their events and record the result, each step on its own. -/
namespace MeteringOutbox
open Machine Metering

/-- Durations are nanoseconds. -/
structure Options where
  batchSize : ℕ
  (pollInterval leaseDuration publishTimeout minimumRetry maximumRetry : ℤ)

def maximumBatchSize : ℕ := 1000

def defaultOptions : Options where
  batchSize := 100
  pollInterval := 250000000
  leaseDuration := 10000000000
  publishTimeout := 2000000000
  minimumRetry := 1000000000
  maximumRetry := 60000000000

namespace Options
variable (options : Options)

/-- The bounds that `New` asks for. -/
def valid : Bool :=
  1 ≤ options.batchSize && options.batchSize ≤ maximumBatchSize &&
    0 < options.pollInterval && options.publishTimeout < options.leaseDuration &&
    0 < options.publishTimeout && 0 < options.minimumRetry &&
    options.minimumRetry ≤ options.maximumRetry

/-- The loop of `retryDelay`, with the attempts that are left to count. -/
def doubled (delay : ℤ) : ℕ → ℤ
  | 0 => if delay > options.maximumRetry then options.maximumRetry else delay
  | attempts + 1 =>
      if delay < options.maximumRetry then
        if delay > options.maximumRetry / 2 then options.maximumRetry
        else doubled (delay * 2) attempts
      else if delay > options.maximumRetry then options.maximumRetry else delay

def retryDelay (publishAttempts : ℕ) : ℤ := options.doubled options.minimumRetry publishAttempts

theorem doubled_pos {delay : ℤ} (hdelay : 0 < delay) (hmax : 0 < options.maximumRetry)
    (attempts : ℕ) : 0 < options.doubled delay attempts := by
  induction attempts generalizing delay with
  | zero =>
    unfold doubled
    split_ifs <;> assumption
  | succ attempts ih =>
    unfold doubled
    split_ifs
    · exact hmax
    · exact ih (by omega)
    · exact hmax
    · exact hdelay

theorem retryDelay_pos (h : options.valid) (attempts : ℕ) : 0 < options.retryDelay attempts := by
  simp only [valid,Bool.and_eq_true,decide_eq_true_eq] at h
  apply doubled_pos
  · exact h.1.2
  · omega

end Options

/-! Statements. A statement that touches a row which the trigger or a constraint refuses fails as a
whole. -/

namespace Row
variable (row : OutboxRow)

/-- The row waits again, with one more attempt counted. -/
def returned (now availableAt : Time) (code : String) : OutboxRow :=
  { row with
    status := .pending, publishAttempts := row.publishAttempts + 1, availableAt := availableAt
    leaseID := none, leaseExpiresAt := none, lastErrorCode := some code, updatedAt := now }

def reclaimed (now : Time) : OutboxRow := returned row now now "LEASE_EXPIRED"

def retried (now availableAt : Time) : OutboxRow :=
  returned row now availableAt "EVENT_BUS_UNAVAILABLE"

def claimed (leaseID : String) (now expiresAt : Time) : OutboxRow :=
  { row with
    status := .publishing, leaseID := some leaseID, leaseExpiresAt := some expiresAt
    updatedAt := now }

def published (now : Time) : OutboxRow :=
  { row with
    status := .published, leaseID := none, leaseExpiresAt := none, publishedAt := some now
    lastErrorCode := none, updatedAt := now }

end Row

/-- `UPDATE … SET … WHERE` -/
def updateWhere (chosen : OutboxRow → Bool) (set : OutboxRow → OutboxRow)
    (rows : List OutboxRow) : Option (List OutboxRow) :=
  if ∀ row ∈ rows, chosen row → (updateRow (set row) row).isSome then
    some (rows.map fun row => if chosen row then set row else row)
  else none

/-- The rows of a common table expression, by their primary key. -/
def among (selected : List OutboxRow) (row : OutboxRow) : Bool :=
  (selected.map (·.event.eventID)).contains row.event.eventID

/-- `ORDER BY lease_expires_at, event_id` -/
def leaseOrder (a b : OutboxRow) : Prop :=
  a.leaseExpiresAt.getD 0 < b.leaseExpiresAt.getD 0 ∨
    a.leaseExpiresAt.getD 0 = b.leaseExpiresAt.getD 0 ∧ a.event.eventID ≤ b.event.eventID

instance : DecidableRel leaseOrder := fun a b => by
  unfold leaseOrder
  infer_instance

/-- `ORDER BY available_at, created_at, event_id` -/
def availableOrder (a b : OutboxRow) : Prop :=
  a.availableAt < b.availableAt ∨ a.availableAt = b.availableAt ∧
    (a.createdAt < b.createdAt ∨ a.createdAt = b.createdAt ∧ a.event.eventID ≤ b.event.eventID)

instance : DecidableRel availableOrder := fun a b => by
  unfold availableOrder
  infer_instance

def leaseExpired (now : Time) (row : OutboxRow) : Bool :=
  row.status = .publishing && (row.leaseExpiresAt.map fun t => decide (t ≤ now)).getD false

/-- `FOR UPDATE SKIP LOCKED`: the rows that others hold locked are passed over. -/
def expired (options : Options) (now : Time) (locked : List String) (rows : List OutboxRow) :
    List OutboxRow :=
  ((rows.filter fun row => leaseExpired now row && !locked.contains row.event.eventID).insertionSort
    leaseOrder).take options.batchSize

def available (now : Time) (row : OutboxRow) : Bool :=
  row.status = .pending && row.availableAt ≤ now

def candidates (options : Options) (now : Time) (locked : List String) (rows : List OutboxRow) :
    List OutboxRow :=
  ((rows.filter fun row => available now row && !locked.contains row.event.eventID).insertionSort
    availableOrder).take options.batchSize

structure ClaimedEvent where
  event : UsageEvent
  publishAttempts : ℕ
  deriving DecidableEq

/-- The event as it is read back; the estimate columns count only where the schema has them. -/
def scan (row : OutboxRow) : ClaimedEvent where
  event := { row.event with
    estimate := if row.event.schemaVersion = usageEventSchemaVersion ∧ row.event.source = .estimated
      then row.event.estimate else none }
  publishAttempts := row.publishAttempts

def reclaim (options : Options) (now : Time) (locked : List String) (rows : List OutboxRow) :
    Option (List OutboxRow) :=
  updateWhere (among (expired options now locked rows)) (Row.reclaimed · now) rows

def claimAvailable (options : Options) (leaseID : String) (now expiresAt : Time)
    (locked : List String) (rows : List OutboxRow) :
    Option (List OutboxRow × List ClaimedEvent) := do
  let chosen := candidates options now locked rows
  let rows ← updateWhere (among chosen) (Row.claimed · leaseID now expiresAt) rows
  return (rows,chosen.map scan)

/-- The transaction of `claim`; other transactions lock different rows before its two statements. -/
def claim (options : Options) (leaseID : String) (now expiresAt : Time)
    (locked locked' : List String) (rows : List OutboxRow) :
    Option (List OutboxRow × List ClaimedEvent) := do
  let rows ← reclaim options now locked rows
  claimAvailable options leaseID now expiresAt locked' rows

/-- `WHERE event_id = $1 AND status = 'publishing' AND lease_id = $2` -/
def leased (eventID leaseID : String) (row : OutboxRow) : Bool :=
  row.event.eventID = eventID && row.status = .publishing &&
    row.leaseID = some leaseID

/-- The rows after the statement, and how many it updated. -/
def markPublished (eventID leaseID : String) (now : Time) (rows : List OutboxRow) :
    Option (List OutboxRow × ℕ) := do
  let updated ← updateWhere (leased eventID leaseID) (Row.published · now) rows
  return (updated,rows.countP (leased eventID leaseID))

def markRetry (eventID leaseID : String) (now availableAt : Time) (rows : List OutboxRow) :
    Option (List OutboxRow × ℕ) := do
  let updated ← updateWhere (leased eventID leaseID) (Row.retried · now availableAt) rows
  return (updated,rows.countP (leased eventID leaseID))

end MeteringOutbox
