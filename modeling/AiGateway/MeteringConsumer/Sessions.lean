import AiGateway.MeteringConsumer.Processor

/-! Consumers over one database and one topic (`internal/meteringconsumer/kafka.go`). Each of them
calls `Process`, from a `kafkaSession` loop or directly, and may stop between any two steps. -/
namespace MeteringConsumer
open Machine Adapter Metering Execution Ledger Function

variable {ι P π H : Type}

structure Record (π : Type) where
  (topic key : String)
  value : π

def usageEventTopic : String := "ai-gateway.usage.v1"

def maximumPollRecords : ℕ := 100

/-- Who waits for the result of a call of `Process`. -/
inductive Delivery (P : Type) where
  | direct
  | record (p : P) (offset : ℕ)

/-- Where a consumer stands: in a call of `Process`, or before `CommitRecords`. -/
inductive Phase (P H : Type) where
  | idle
  | received (delivery : Delivery P) (event : UsageEvent) (fingerprint : H) (consumedAt : Time)
  | replaying (delivery : Delivery P) (event : UsageEvent) (fingerprint : H)
  | holding (delivery : Delivery P) (event : UsageEvent) (fingerprint : H) (consumedAt : Time)
  | priced (delivery : Delivery P) (event : UsageEvent) (fingerprint : H) (consumedAt : Time)
      (priceVersionID : String) (amountMicros : ℤ)
  | acknowledging (p : P) (offset : ℕ)

/-- The event whose receipt the open transaction has inserted. -/
def Phase.lock : Phase P H → Option String
  | .holding _ event _ _ => some event.eventID
  | .priced _ event _ _ _ _ => some event.eventID
  | _ => none

/-- A session of the client: the offsets it fetches next, and the fetched records it
has not begun. -/
structure Loop (P : Type) where
  position : P → ℕ
  batch : List (P × ℕ)

structure Session (P H : Type) where
  phase : Phase P H
  loop : Option (Loop P)

/-- The database with the receipts of open transactions, the consumers, the records of the topic,
the offsets of the group, and the calls of `Process` that have returned. -/
structure System (ι P π H : Type) where
  tables : Tables H
  locks : List (String × ι)
  sessions : ι → Session P H
  topic : P → List (Record π)
  committed : P → ℕ
  log : List (UsageEvent × Except ConsumerError Result)

inductive Action (ι P π H : Type) where
  | change (tables : Tables H) (adjustments : List LedgerEntry)
  | produce (p : P) (record : Record π)
  | deliver (i : ι) (key : String) (payload : π) (now : Time)
  | connect (i : ι)
  | assign (i : ι) (p : P)
  | poll (i : ι) (partitions : List P)
  | next (i : ι) (now : Time)
  | receipt (i : ι)
  | replay (i : ι) (reply : Reply)
  | select (i : ι)
  | charge (i : ι) (reply : Reply)
  | commit (i : ι) (reply : Reply)
  | fail (i : ι)

/-- The records that are fetched next, in the given order of partitions. -/
def Loop.fetch [DecidableEq P] (topic : P → List (Record π)) : List P → Loop P → Loop P
  | [], loop => loop
  | p :: partitions, loop =>
      if loop.position p < (topic p).length then
        Loop.fetch topic partitions
          ⟨update loop.position p (loop.position p + 1),loop.batch ++ [(p,loop.position p)]⟩
      else Loop.fetch topic partitions loop

namespace System
variable [DecidableEq ι] [DecidableEq P] [DecidableEq H] (stamp : Time → Time) (codec : Codec π H)
  (group : String) (s : System ι P π H)

def enter (i : ι) (session : Session P H) : System ι P π H :=
  { s with sessions := update s.sessions i session }

def phase (i : ι) (phase : Phase P H) : System ι P π H :=
  s.enter i ⟨phase,(s.sessions i).loop⟩

/-- The transaction is rolled back and the loop ends: the process stops, or `Run`
returns an error. -/
def stop (i : ι) : System ι P π H :=
  { s.enter i ⟨.idle,none⟩ with locks := s.locks.filter fun lock => lock.2 ≠ i }

/-- `Process` returns; an error ends the loop. -/
def finish (i : ι) (delivery : Delivery P) (event : UsageEvent)
    (outcome : Except ConsumerError Result) : System ι P π H :=
  match outcome, delivery with
  | .error _, _ => { s.stop i with log := s.log ++ [(event,outcome)] }
  | .ok _, .direct => { s.phase i .idle with
      locks := s.locks.filter fun lock => lock.2 ≠ i
      log := s.log ++ [(event,outcome)] }
  | .ok _, .record p offset => { s.phase i (.acknowledging p offset) with
      locks := s.locks.filter fun lock => lock.2 ≠ i
      log := s.log ++ [(event,outcome)] }

/-- The beginning of `Process`. -/
def receive (i : ι) (loop : Option (Loop P)) (delivery : Delivery P) (key : String) (payload : π)
    (now : Time) : System ι P π H :=
  match canonicalUsageEvent codec key payload with
  | .error _ => s.stop i
  | .ok (event,fingerprint) =>
      if now = zeroTime then s.stop i
      else s.enter i ⟨.received delivery event fingerprint now,loop⟩

/-- A call from outside a loop. -/
def deliver (i : ι) (key : String) (payload : π) (now : Time) : System ι P π H :=
  match s.sessions i with
  | ⟨.idle,none⟩ => s.receive codec i none .direct key payload now
  | _ => s

def connect (i : ι) : System ι P π H :=
  match s.sessions i with
  | ⟨.idle,none⟩ => s.enter i ⟨.idle,some ⟨s.committed,[]⟩⟩
  | _ => s

/-- The partition is given to the session again, from the offset of the group. -/
def assign (i : ι) (p : P) : System ι P π H :=
  match s.sessions i with
  | ⟨phase,some loop⟩ =>
      s.enter i ⟨phase,some ⟨update loop.position p (s.committed p),loop.batch⟩⟩
  | _ => s

def poll (i : ι) (partitions : List P) : System ι P π H :=
  match s.sessions i with
  | ⟨.idle,some ⟨position,[]⟩⟩ =>
      s.enter i ⟨.idle,some (Loop.fetch s.topic (partitions.take maximumPollRecords)
        ⟨position,[]⟩)⟩
  | _ => s

/-- The loop turns to the next fetched record. -/
def next (i : ι) (now : Time) : System ι P π H :=
  match s.sessions i with
  | ⟨.idle,some ⟨position,(p,offset) :: batch⟩⟩ =>
      match (s.topic p)[offset]? with
      | none => s
      | some record =>
          if record.topic ≠ usageEventTopic then s.stop i
          else s.receive codec i (some ⟨position,batch⟩) (.record p offset) record.key record.value
            now
  | _ => s

/-- `insertReceipt`: it waits for a transaction that has inserted the same event. -/
def receipt (i : ι) : System ι P π H :=
  match (s.sessions i).phase with
  | .received delivery event fingerprint consumedAt =>
      if !(receiptOf stamp group event fingerprint consumedAt).checks then
        s.finish i delivery event (.error .storeUnavailable)
      else if event.eventID ∈ s.locks.map Prod.fst then s
      else if event.eventID ∈ s.tables.receipts.map (·.eventID) then
        s.phase i (.replaying delivery event fingerprint)
      else { s.phase i (.holding delivery event fingerprint consumedAt) with
        locks := (event.eventID,i) :: s.locks }
  | _ => s

def replay (i : ι) (reply : Reply) : System ι P π H :=
  match (s.sessions i).phase with
  | .replaying delivery event fingerprint =>
      match loadReplay s.tables event.eventID fingerprint with
      | .error e => s.finish i delivery event (.error e)
      | .ok result =>
          if reply = .answered then s.finish i delivery event (.ok result)
          else s.finish i delivery event (.error .storeUnavailable)
  | _ => s

def select (i : ι) : System ι P π H :=
  match (s.sessions i).phase with
  | .holding delivery event fingerprint consumedAt =>
      match selectEffectiveRate stamp s.tables event with
      | .error e => s.finish i delivery event (.error e)
      | .ok (priceVersionID,rate) =>
          match calculateAmountMicros event.quantity rate with
          | .error _ => s.finish i delivery event (.error .priceUnavailable)
          | .ok amountMicros =>
              s.phase i (.priced delivery event fingerprint consumedAt priceVersionID amountMicros)
  | _ => s

/-- The insert into the ledger and the commit, which makes the receipt visible too. -/
def charge (i : ι) (reply : Reply) : System ι P π H :=
  match (s.sessions i).phase with
  | .priced delivery event fingerprint consumedAt priceVersionID amountMicros =>
      match s.tables.insertEntry (entryOf stamp event consumedAt priceVersionID amountMicros) with
      | .error .uniqueViolation => s.finish i delivery event (.error .eventConflict)
      | .error _ => s.finish i delivery event (.error .storeUnavailable)
      | .ok tables =>
          let written : System ι P π H := { s with
            tables := { tables with
              receipts := tables.receipts ++
                [receiptOf stamp group event fingerprint consumedAt] } }
          match reply with
          | .failed => s.finish i delivery event (.error .storeUnavailable)
          | .unanswered => written.finish i delivery event (.error .storeUnavailable)
          | .answered => written.finish i delivery event
              (.ok ⟨event.eventID,priceVersionID,amountMicros,true,false⟩)
  | _ => s

/-- `CommitRecords` -/
def commit (i : ι) (reply : Reply) : System ι P π H :=
  match (s.sessions i).phase with
  | .acknowledging p offset =>
      match reply with
      | .failed => s.stop i
      | .unanswered => { s.stop i with committed := update s.committed p (offset + 1) }
      | .answered => { s.phase i .idle with
          committed := update s.committed p (offset + 1) }
  | _ => s

/-- Other programs change the rest of the database and append adjustments to the ledger. -/
def change (tables : Tables H) (adjustments : List LedgerEntry) : System ι P π H :=
  if (∀ entry ∈ adjustments, entry.source = .adjustment) ∧
      ((s.tables.entries ++ adjustments).map (·.eventID)).Nodup then
    { s with
      tables := { tables with
        receipts := s.tables.receipts, entries := s.tables.entries ++ adjustments } }
  else s

def step : Action ι P π H → System ι P π H
  | .change tables adjustments => s.change tables adjustments
  | .produce p record => { s with topic := update s.topic p (s.topic p ++ [record]) }
  | .deliver i key payload now => s.deliver codec i key payload now
  | .connect i => s.connect i
  | .assign i p => s.assign i p
  | .poll i partitions => s.poll i partitions
  | .next i now => s.next codec i now
  | .receipt i => s.receipt stamp group i
  | .replay i reply => s.replay i reply
  | .select i => s.select stamp i
  | .charge i reply => s.charge stamp group i reply
  | .commit i reply => s.commit i reply
  | .fail i => s.stop i

/-- Nothing is written, fetched or under way. -/
def start (tables : Tables H) : System ι P π H where
  tables := { tables with receipts := [], entries := [] }
  locks := []
  sessions := fun _ => ⟨.idle,none⟩
  topic := fun _ => []
  committed := fun _ => 0
  log := []

/-- Steps lead from the first system to the second. -/
def Leads : System ι P π H → System ι P π H → Prop :=
  Relation.ReflTransGen fun s s' => ∃ action, s' = s.step stamp codec group action

end System
end MeteringConsumer
