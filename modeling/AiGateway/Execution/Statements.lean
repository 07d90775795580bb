import AiGateway.Execution.Postgres
import AiGateway.Relational.Journal

/-! What each statement of the recorder does, and that the two status journals follow it. -/
namespace Execution
open Text Machine Metering Catalog Relational List

def requestColumns : Columns GatewayRequest String RequestStatus where
  key := (·.id)
  status := (·.status)
  version := (·.version)

def attemptColumns : Columns RouteAttempt String AttemptStatus where
  key := (·.id)
  status := (·.status)
  version := (·.version)

def StatusEvent.move {α : Type} (e : StatusEvent α) : Move String α :=
  ⟨e.id,e.version,e.fromStatus,e.toStatus⟩

/-- The documented moves of an attempt. The trigger also lets a new attempt end at once and a stream
end as `failed`, which the recorder never does. -/
def AttemptStatus.documented : AttemptStatus → AttemptStatus → Bool
  | .created, new => decide (new = .connecting)
  | .connecting, new => [.headersReceived,.retryableFailed,.failed,.cancelled].contains new
  | .headersReceived, new =>
      [.streaming,.succeeded,.retryableFailed,.failed,.cancelled].contains new
  | .streaming, new => [.succeeded,.partialFailed,.cancelled].contains new
  | _, _ => false

variable {s t : AttemptStatus}

theorem AttemptStatus.leadsTo_of_documented (h : s.documented t) : s.leadsTo t := by
  revert h
  cases s <;> cases t <;> decide

theorem AttemptStatus.terminal_of_documented (h : s.documented t) : s.terminal = false := by
  revert h
  cases s <;> cases t <;> decide

namespace Database
variable {db db' : Database}

/-! Results of the statements. -/

variable {result : Database × GatewayRequest}

theorem insertRequest_eq_ok {row : GatewayRequest} {references : Bool} :
    db.insertRequest row references = .ok result ↔
      (references ∧ (∀ r ∈ db.requests, r.id ≠ row.id) ∧ row.Check) ∧
        result = ({ db with
          requests := db.requests ++ [row]
          requestEvents := db.requestEvents ++ [row.event none] },row) := by
  exact ite_eq_ok

theorem updateRequest_eq_ok {id : String} {cond : GatewayRequest → Bool}
    {set : GatewayRequest → GatewayRequest} : db.updateRequest id cond set = .ok result ↔
      ∃ row, db.requests.find? (fun r => r.id = id) = some row ∧
        (cond row ∧ RequestTransition row (set row) ∧ (set row).Check) ∧
        result = ({ db with
          requests := update (·.id) id set db.requests
          requestEvents := db.requestEvents ++ [(set row).event (some row.status)] },set row) := by
  unfold updateRequest
  cases db.requests.find? fun r => r.id = id with
  | none => simp
  | some row =>
    simp only [Option.some.injEq,exists_eq_left']
    exact ite_eq_ok

theorem insertAttempt_eq_ok {row : RouteAttempt} : db.insertAttempt row = .ok db' ↔
      ((∀ a ∈ db.attempts, a.id ≠ row.id) ∧
        (∀ a ∈ db.attempts, a.requestID = row.requestID → a.attemptNo ≠ row.attemptNo) ∧
        (∃ r ∈ db.requests, r.id = row.requestID) ∧
        (∃ d ∈ db.deployments, d.id = row.deploymentID) ∧ row.Check) ∧
      db' = { db with
        attempts := db.attempts ++ [row]
        attemptEvents := db.attemptEvents ++ [row.event none] } := by
  exact ite_eq_ok

theorem updateAttempt_eq_ok {id : String} {cond : RouteAttempt → Bool}
    {set : RouteAttempt → RouteAttempt} {result : Database × RouteAttempt} :
    db.updateAttempt id cond set = .ok result ↔
      ∃ row, db.attempts.find? (fun a => a.id = id) = some row ∧
        (cond row ∧ AttemptTransition row (set row) ∧ (set row).Check) ∧
        result = ({ db with
          attempts := update (·.id) id set db.attempts
          attemptEvents := db.attemptEvents ++ [(set row).event (some row.status)] },set row) := by
  unfold updateAttempt
  cases db.attempts.find? fun a => a.id = id with
  | none => simp
  | some row =>
    simp only [Option.some.injEq,exists_eq_left']
    exact ite_eq_ok

theorem insertOutbox_eq_ok {rows : List OutboxRow} : db.insertOutbox rows = .ok db' ↔
      (db.outboxKeys rows ∧ ∀ row ∈ rows, row.checks) ∧
        db' = { db with outbox := db.outbox ++ rows } := by
  exact ite_eq_ok

/-! The two tables with their journals. -/

/-- What every statement keeps: the journals, the constraints, the references to deployments and the
precision of the times. -/
structure Tables (stamp : Time → Time) (db : Database) : Prop where
  requests : Journaled .authorized RequestStatus.leadsTo requestColumns db.requests
    (db.requestEvents.map StatusEvent.move)
  attempts : Journaled .created AttemptStatus.documented attemptColumns db.attempts
    (db.attemptEvents.map StatusEvent.move)
  requestChecks : ∀ r ∈ db.requests, r.Check ∧ isUUID r.tenantID ∧ ∃ t, r.updatedAt = stamp t
  attemptChecks : ∀ a ∈ db.attempts, a.Check ∧ (∃ d ∈ db.deployments, d.id = a.deploymentID) ∧
    ∃ t, a.updatedAt = stamp t
  deployments : (db.deployments.map (·.id)).Nodup

variable {stamp : Time → Time}

section
variable (h : db.Tables stamp)
include h

theorem Tables.insertRequest {row row' : GatewayRequest} {references : Bool}
    (hins : db.insertRequest row references = .ok (db',row'))
    (hstat : row.status = .authorized) (hver : row.version = 1)
    (htenant : isUUID row.tenantID) (htime : ∃ t, row.updatedAt = stamp t) : db'.Tables stamp := by
  obtain ⟨⟨-,hfresh,hcheck⟩,hres⟩ := insertRequest_eq_ok.mp hins
  cases hres
  refine ⟨?_,h.attempts,?_,h.attemptChecks,h.deployments⟩
  · rw [map_append]
    exact h.requests.insert hfresh hstat hver
  · exact forall_mem_append.mpr ⟨h.requestChecks,forall_mem_singleton.mpr ⟨hcheck,htenant,htime⟩⟩

theorem Tables.updateRequest {id : String} {cond : GatewayRequest → Bool}
    {set : GatewayRequest → GatewayRequest} {new : GatewayRequest}
    (hupd : db.updateRequest id cond set = .ok (db',new))
    (htime : ∀ r, ∃ t, (set r).updatedAt = stamp t) : db'.Tables stamp := by
  obtain ⟨row,hfind,⟨-,htrans,hcheck⟩,hres⟩ := updateRequest_eq_ok.mp hupd
  cases hres
  obtain ⟨hrow,rfl⟩ := (find?_eq_some h.requests.keys).mp hfind
  refine ⟨?_,h.attempts,?_,h.attemptChecks,h.deployments⟩
  · rw [map_append]
    exact h.requests.update hrow htrans.id htrans.version htrans.status
  · intro r hr
    rcases mem_update.mp hr with ⟨hr,-⟩ | ⟨x,hx,hk,rfl⟩
    · exact h.requestChecks r hr
    · rw [inj_on_of_nodup_map h.requests.keys hx hrow hk,htrans.tenantID]
      exact ⟨hcheck,(h.requestChecks row hrow).2.1,htime row⟩

theorem Tables.insertAttempt {row : RouteAttempt}
    (hins : db.insertAttempt row = .ok db') (hstat : row.status = .created)
    (hver : row.version = 1) (htime : ∃ t, row.updatedAt = stamp t) : db'.Tables stamp := by
  obtain ⟨⟨hfresh,-,-,hplaced,hcheck⟩,rfl⟩ := insertAttempt_eq_ok.mp hins
  refine ⟨h.requests,?_,h.requestChecks,?_,h.deployments⟩
  · rw [map_append]
    exact h.attempts.insert hfresh hstat hver
  · exact forall_mem_append.mpr ⟨h.attemptChecks,forall_mem_singleton.mpr ⟨hcheck,hplaced,htime⟩⟩

theorem Tables.updateAttempt {id : String} {cond : RouteAttempt → Bool}
    {set : RouteAttempt → RouteAttempt} {new : RouteAttempt}
    (hupd : db.updateAttempt id cond set = .ok (db',new))
    (hmove : ∀ row, cond row → row.status.documented (set row).status)
    (htime : ∀ a, ∃ t, (set a).updatedAt = stamp t) : db'.Tables stamp := by
  obtain ⟨row,hfind,⟨hcond,htrans,hcheck⟩,hres⟩ := updateAttempt_eq_ok.mp hupd
  cases hres
  obtain ⟨hrow,rfl⟩ := (find?_eq_some h.attempts.keys).mp hfind
  refine ⟨h.requests,?_,h.requestChecks,?_,h.deployments⟩
  · rw [map_append]
    exact h.attempts.update hrow htrans.id htrans.version (hmove row hcond)
  · intro a ha
    rcases mem_update.mp ha with ⟨ha,-⟩ | ⟨x,hx,hk,rfl⟩
    · exact h.attemptChecks a ha
    · rw [inj_on_of_nodup_map h.attempts.keys hx hrow hk,htrans.deploymentID]
      exact ⟨hcheck,(h.attemptChecks row hrow).2.1,htime row⟩

theorem Tables.outbox (outbox : List OutboxRow) :
    ({ db with outbox := outbox } : Database).Tables stamp :=
  ⟨h.requests,h.attempts,h.requestChecks,h.attemptChecks,h.deployments⟩

theorem Tables.catalog {deployments : List Deployment} (hkeys : (deployments.map (·.id)).Nodup)
    (hkept : ∀ id ∈ db.deployments.map (·.id), id ∈ deployments.map (·.id)) :
    ({ db with deployments := deployments } : Database).Tables stamp := by
  refine ⟨h.requests,h.attempts,h.requestChecks,?_,hkeys⟩
  intro a ha
  obtain ⟨hcheck,⟨d,hd,hid⟩,htime⟩ := h.attemptChecks a ha
  exact ⟨hcheck,mem_map.mp (hid ▸ hkept d.id (mem_map_of_mem hd)),htime⟩

end
end Database
end Execution
