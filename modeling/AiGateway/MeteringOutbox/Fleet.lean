import AiGateway.MeteringOutbox.Relay

/-! Relays over one table. Each of them runs `RelayOnce` again and again, reads its own clock, and
may stop between any two steps; the recorder inserts rows meanwhile. -/
namespace MeteringOutbox
open Machine Metering

variable {ι π : Type}

/-- Where a relay stands in `RelayOnce`. -/
inductive Phase where
  | idle
  | claiming (leaseID : String) (now : Time)
  | working (leaseID : String) (todo : List ClaimedEvent)
  | marking (leaseID : String) (event : ClaimedEvent) (acknowledged : Bool) (transitionAt : Time)
      (todo : List ClaimedEvent)
  deriving DecidableEq

def Phase.leaseID : Phase → Option String
  | .idle => none
  | .claiming leaseID _ => some leaseID
  | .working leaseID _ => some leaseID
  | .marking leaseID _ _ _ _ => some leaseID

structure Session where
  clock : Time
  phase : Phase

/-- A call of `Sink.Publish`; one that never returned was not acknowledged. -/
structure Publication (π : Type) where
  eventID : String
  payload : π
  acknowledged : Bool

/-- The table, the relays, the lease IDs drawn so far and the calls of the sink. -/
structure System (ι π : Type) where
  rows : List OutboxRow
  sessions : ι → Session
  leases : List String
  log : List (Publication π)

inductive Action (ι : Type) where
  | insert (event : UsageEvent) (storedAt : Time)
  | wake (i : ι) (now : Time) (leaseID : String)
  | claim (i : ι) (locked locked' : List String) (reply : Reply)
  | publish (i : ι) (acknowledged cancelled : Bool) (now : Time)
  | mark (i : ι) (reply : Reply)
  | crash (i : ι)

namespace System
variable [DecidableEq ι] (stamp : Time → Time) (encode : ι → UsageEvent → Option π)
  (options : ι → Options) (s : System ι π)

def enter (i : ι) (phase : Phase) : System ι π :=
  { s with sessions := Function.update s.sessions i ⟨(s.sessions i).clock,phase⟩ }

def wake (i : ι) (now : Time) (leaseID : String) : System ι π :=
  match (s.sessions i).phase with
  | .idle =>
      if (s.sessions i).clock ≤ now ∧ leaseID ∉ s.leases then
        { s with
          sessions := Function.update s.sessions i ⟨now,.claiming leaseID now⟩
          leases := leaseID :: s.leases }
      else s
  | _ => s

def claim (i : ι) (locked locked' : List String) (reply : Reply) : System ι π :=
  match (s.sessions i).phase with
  | .claiming leaseID now =>
      if reply = .failed then s.enter i .idle
      else match MeteringOutbox.claim (options i) leaseID (stamp now)
          (stamp (now + (options i).leaseDuration)) locked locked' s.rows with
        | none => s.enter i .idle
        | some (rows,events) =>
            { s.enter i (if reply = .answered then .working leaseID events else .idle) with
              rows := rows }
  | _ => s

/-- One turn of the loop up to the reading of `transitionAt`. Each relay encodes times in the zone
of its own database session. -/
def publish (i : ι) (acknowledged cancelled : Bool) (now : Time) : System ι π :=
  match (s.sessions i).phase with
  | .working _ [] => s.enter i .idle
  | .working leaseID (event :: todo) =>
      match encode i event.event with
      | none => s.enter i .idle
      | some payload =>
          if !event.event.validate then s.enter i .idle
          else if (s.sessions i).clock ≤ now then
            { s with
              sessions := Function.update s.sessions i ⟨now,if cancelled then .idle
                else .marking leaseID event acknowledged now todo⟩
              log := s.log ++ [⟨event.event.eventID,payload,acknowledged⟩] }
          else s
  | _ => s

/-- The statement that records the result of `Publish`. -/
def transition (options : Options) (leaseID : String) (event : ClaimedEvent) (acknowledged : Bool)
    (transitionAt : Time) (rows : List OutboxRow) : Option (List OutboxRow × ℕ) :=
  if acknowledged then markPublished event.event.eventID leaseID (stamp transitionAt) rows
  else markRetry event.event.eventID leaseID (stamp transitionAt)
    (stamp (transitionAt + options.retryDelay event.publishAttempts)) rows

def mark (i : ι) (reply : Reply) : System ι π :=
  match (s.sessions i).phase with
  | .marking leaseID event acknowledged transitionAt todo =>
      if reply = .failed then s.enter i .idle
      else match transition stamp (options i) leaseID event acknowledged transitionAt s.rows with
        | none => s.enter i .idle
        | some (rows,updated) =>
            { s.enter i (if reply = .answered ∧ updated = 1 then .working leaseID todo else .idle)
              with rows := rows }
  | _ => s

/-- A commit of the recorder: a valid event that no row has yet. -/
def insert (event : UsageEvent) (storedAt : Time) : System ι π :=
  if event.validate ∧ (∀ row ∈ s.rows, row.event.eventID ≠ event.eventID) ∧
      (OutboxRow.inserted event storedAt).checks then
    { s with rows := s.rows ++ [OutboxRow.inserted event storedAt] }
  else s

def step : Action ι → System ι π
  | .insert event storedAt => s.insert event storedAt
  | .wake i now leaseID => s.wake i now leaseID
  | .claim i locked locked' reply => s.claim stamp options i locked locked' reply
  | .publish i acknowledged cancelled now => s.publish encode i acknowledged cancelled now
  | .mark i reply => s.mark stamp options i reply
  | .crash i => s.enter i .idle

def run (actions : List (Action ι)) : System ι π :=
  actions.foldl (fun s action => s.step stamp encode options action) s

end System

variable [DecidableEq ι] (stamp : Time → Time) (encode : ι → UsageEvent → Option π)
  (options : ι → Options) in
/-- The systems that actions lead to from an empty table, with the clocks at any time. -/
inductive Reaches : System ι π → Prop
  | start (clock : ι → Time) : Reaches ⟨[],fun i => ⟨clock i,.idle⟩,[],[]⟩
  | step {s : System ι π} (h : Reaches s) (action : Action ι) :
      Reaches (s.step stamp encode options action)

end MeteringOutbox
