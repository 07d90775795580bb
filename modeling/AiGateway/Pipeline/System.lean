import AiGateway.Execution.Persistence
import AiGateway.Metering.Wire
import AiGateway.MeteringAdjustment.Runs
import AiGateway.MeteringConsumer.ExactlyOnce
import AiGateway.MeteringOutbox.Publications

/-! The way of usage events from the recorder over the outbox, the relays and the consumers to the
ledger, with the writers of corrections: all of them over one database. -/
namespace Pipeline
open Machine Adapter Metering Execution Ledger

variable {ι κ ω P H : Type}

/-- What lies outside: the texts that `time.Time` has in JSON, for a relay in the zone of its
database session and in UTC, the distance of that zone, the JSON decoder and SHA-256. -/
structure Wire (ι H : Type) where
  shown : ι → Time → Option String
  utc : Time → Option String
  zone : ι → Time → ℤ
  decode : String → Option UsageEvent
  sha256 : String → H

/-- The first of January of the year 10000. -/
def yearsEnd : Time := 253402300800000000000

namespace Wire
variable (w : Wire ι H)

/-- `json.Marshal` at a relay. -/
def encode (i : ι) (event : UsageEvent) : Option String :=
  (w.shown i event.observedAt).map (marshal event)

/-- The consumer's side. -/
def codec : MeteringConsumer.Codec String H where
  size := String.utf8ByteSize
  decode := w.decode
  fingerprint := fun event => (w.utc event.observedAt).map fun text => w.sha256 (marshal event text)

/-- Between the years 1 and 9999, in UTC and for every relay. -/
def InYears (t : Time) : Prop := zeroTime < t ∧ t < yearsEnd ∧ ∀ i, t + w.zone i t < yearsEnd

/-- These times have texts. -/
structure Shows : Prop where
  shown : ∀ i t, w.InYears t → ∃ text, w.shown i t = some text ∧ text.toList.length ≤ 64
  utc : ∀ t, w.InYears t → ∃ text, w.utc t = some text

/-- Whatever relay has encoded the event, the decoder gives it back. -/
def Decodes (event : UsageEvent) : Prop :=
  ∀ i text, w.shown i event.observedAt = some text → w.decode (marshal event text) = some event

end Wire

/-- The recorder's tables, the relays with the outbox, the consumers with the ledger, the writers,
and the events of the completions that were committed. -/
structure State (ι κ ω P H : Type) where
  records : Database
  relays : MeteringOutbox.System ι String
  consumers : MeteringConsumer.System κ P String H
  writers : MeteringAdjustment.Writers ω
  originals : List UsageEvent

inductive Action (ι κ ω P H : Type) where
  | call (c : Call) (broken : Bool)
  | relay (action : MeteringOutbox.Action ι)
  | consume (action : MeteringConsumer.Action κ P String H)
  | adjust (action : MeteringAdjustment.Action ω H)
  | price (deployments : List PricedDeployment) (prices : Prices)

namespace State
variable [DecidableEq ι] [DecidableEq κ] [DecidableEq ω] [DecidableEq P] [DecidableEq H]
  (stamp : Time → Time) (w : Wire ι H) (options : ι → MeteringOutbox.Options) (group : String)
  (s : State ι κ ω P H)

def tables : Tables H := s.consumers.tables

/-- The database as the recorder sees it. -/
def database : Database := { s.records with outbox := s.relays.rows }

/-- The database as the writers see it. -/
def ledger : MeteringAdjustment.System ω H := { s.writers with tables := s.tables }

def withTables (tables : Tables H) : State ι κ ω P H :=
  { s with consumers := { s.consumers with tables := tables } }

def call (c : Call) (broken : Bool) : State ι κ ω P H :=
  if broken then s
  else match s.database.commit stamp c with
    | .error _ => s
    | .ok db =>
        { s.withTables { s.tables with requests := db.requests, attempts := db.attempts } with
          records := db
          relays := { s.relays with rows := db.outbox }
          originals := s.originals ++ c.events }

/-- The relays insert no rows of their own. -/
def relay (action : MeteringOutbox.Action ι) : State ι κ ω P H :=
  if action.relay.isSome then
    { s with relays := s.relays.step stamp w.encode options action }
  else s

/-- A relay has published the payload under the key. -/
def published (key payload : String) : Bool :=
  s.relays.log.any fun p => p.eventID = key && p.payload = payload

/-- The event of a consumer's next insert. -/
def charging (i : κ) : Option String :=
  match (s.consumers.sessions i).phase with
  | .priced _ event _ _ _ _ => some event.eventID
  | _ => none

/-- Records carry what relays have published, any number of times and in any order; the insert of a
ledger entry waits for an uncommitted correction with the same event ID. -/
def allows : MeteringConsumer.Action κ P String H → Bool
  | .change _ _ => false
  | .produce _ record => s.published record.key record.value
  | .deliver _ key payload _ => s.published key payload
  | .charge i _ =>
      !s.writers.pending.any fun row => decide (s.charging i = some row.1.eventID)
  | _ => true

def consume (action : MeteringConsumer.Action κ P String H) : State ι κ ω P H :=
  if s.allows action then
    { s with consumers := s.consumers.step stamp w.codec group action }
  else s

def adjust (action : MeteringAdjustment.Action ω H) : State ι κ ω P H :=
  if action.writer.isSome then
    { s.withTables (s.ledger.step stamp action).tables with
      writers := (s.ledger.step stamp action).toWriters }
  else s

/-- Prices change, but for what is published. -/
def price (deployments : List PricedDeployment) (prices : Prices) : State ι κ ω P H :=
  if s.tables.prices.Later prices ∧ prices.Keyed then
    s.withTables { s.tables with deployments := deployments, prices := prices }
  else s

def step : Action ι κ ω P H → State ι κ ω P H
  | .call c broken => s.call stamp c broken
  | .relay action => s.relay stamp w options action
  | .consume action => s.consume stamp w group action
  | .adjust action => s.adjust stamp action
  | .price deployments prices => s.price deployments prices

/-- The ledger has an entry of the consumer for the row. -/
def settled (row : OutboxRow) : Bool :=
  s.tables.entries.any fun entry => entry.original && entry.eventID = row.event.eventID &&
    entry.tenantID = row.event.tenantID &&
    entry.requestID = row.event.requestID &&
    entry.attemptID = some row.event.attemptID

/-- A published row is deleted after it was priced. -/
def purge (eventID : String) : State ι κ ω P H :=
  { s with relays := { s.relays with
    rows := s.relays.rows.filter fun row => !(row.event.eventID = eventID &&
      row.status = .published && s.settled row) } }

def start (clock : ι → Time) (deployments : List PricedDeployment) (prices : Prices) :
    State ι κ ω P H where
  records := ⟨[],[],[],[],[],[]⟩
  relays := ⟨[],fun i => ⟨clock i,.idle⟩,[],[]⟩
  consumers := MeteringConsumer.System.start ⟨[],[],deployments,prices,[],[]⟩
  writers := ⟨[],[],fun _ => .idle,[]⟩
  originals := []

end State

/-- The clock of a completion, as it is stored, is between the years 1 and 9999, the version of a
deployment is an `int64`, and the JSON codec is faithful to the stored event. -/
def Action.Timely (stamp : Time → Time) (w : Wire ι H) : Action ι κ ω P H → Prop
  | .call c _ => ∀ e ∈ c.events, w.InYears (stamp e.observedAt) ∧
      (∀ metadata ∈ e.estimate, metadata.deploymentVersion < 2 ^ 63) ∧
      w.Decodes (MeteringOutbox.stored stamp e)
  | _ => True

variable [DecidableEq ι] [DecidableEq κ] [DecidableEq ω] [DecidableEq P] [DecidableEq H]
variable (stamp : Time → Time) (w : Wire ι H) (options : ι → MeteringOutbox.Options)
  (group : String) (deletes : Prop) in
/-- The states that actions lead to, where rows of the outbox may be deleted or not. -/
inductive Reaches : State ι κ ω P H → Prop
  | start (clock : ι → Time) (deployments : List PricedDeployment) {prices : Prices}
      (hprices : prices.Keyed) :
      Reaches (.start clock deployments prices)
  | step {s : State ι κ ω P H} (h : Reaches s)
      (action : Action ι κ ω P H) (htimely : action.Timely stamp w) :
      Reaches (s.step stamp w options group action)
  | purge {s : State ι κ ω P H} (h : Reaches s) (hdeletes : deletes)
      (eventID : String) : Reaches (s.purge eventID)

end Pipeline
