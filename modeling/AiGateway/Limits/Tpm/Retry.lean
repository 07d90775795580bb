import AiGateway.Limits.Tpm.Conservation
import Mathlib.Algebra.BigOperators.Ring.Finset

/-! Retrying a reservation. The record and the key it is looked up under both depend on the server's
minute: a retry in the minute of the original finds it and changes nothing, a retry in a later
minute reserves again. -/
namespace Limits.Tpm
open Redis Interleaving

variable (sha : String → String)

instance (keyPrefix id : String) (n : ℕ) (hy : Hierarchy) (s : Server) (window : ℤ) :
    Decidable (Pending sha keyPrefix id n hy s window) :=
  inferInstanceAs (Decidable (_ = _))

/-- The tokens that one reservation holds in the given windows together. -/
def heldTokens (keyPrefix id : String) (n : ℕ) (hy : Hierarchy) (s : Server)
    (windows : Finset ℤ) : ℕ :=
  ∑ window ∈ windows, if Pending sha keyPrefix id n hy s window then n else 0

/-- No reservation is pending in two windows. -/
def PendingOnce (s : Server) : Prop :=
  ∀ keyPrefix id n hy window window', Pending sha keyPrefix id n hy s window →
    Pending sha keyPrefix id n hy s window' → window = window'

/-- Where the call's reservation is pending, it is pending in the server's current minute. -/
def Timely (call : Call) (s : Server) : Prop :=
  ∀ keyPrefix id n hy, Reserves call keyPrefix id n hy →
    ∀ window, Pending sha keyPrefix id n hy s window → window = serverWindow s

variable {sha}

theorem heldTokens_le {s : Server} (h : PendingOnce sha s) (keyPrefix id : String) (n : ℕ)
    (hy : Hierarchy) (windows : Finset ℤ) : heldTokens sha keyPrefix id n hy s windows ≤ n := by
  unfold heldTokens
  by_cases hex : ∃ window, Pending sha keyPrefix id n hy s window
  · obtain ⟨window,hp⟩ := hex
    have hiff (w : ℤ) : Pending sha keyPrefix id n hy s w ↔ w = window := by
      constructor
      · intro hw
        exact h keyPrefix id n hy w window hw hp
      · rintro rfl
        exact hp
    simp only [hiff,Finset.sum_ite_eq']
    split_ifs <;> omega
  · have hnone (w : ℤ) : ¬Pending sha keyPrefix id n hy s w := fun hw => hex ⟨w,hw⟩
    simp [hnone]

theorem pendingOnce_fresh {s : Server} (h : fresh s) : PendingOnce sha s := by
  obtain ⟨now,-,rfl⟩ := h
  rintro _ _ _ _ _ _ ⟨⟩

theorem pending_of_passes {s t : Server} (h : passes s t) {keyPrefix id : String} {n : ℕ}
    {hy : Hierarchy} {window : ℤ} (hp : Pending sha keyPrefix id n hy t window) :
    Pending sha keyPrefix id n hy s window := by
  obtain ⟨now,-,-,rfl⟩ := h
  unfold Pending at hp ⊢
  rcases s.tick_hash now (windowKey keyPrefix window) with heq | heq
  · rwa [heq] at hp
  · rw [heq] at hp
    cases hp

theorem pendingOnce_moves {call : Call} {s t : Server} {reply : Option Reply}
    (hs : PendingOnce sha s) (htimely : Timely sha call s)
    (hmoves : Moves sha call s t reply) : PendingOnce sha t := by
  intro keyPrefix id n hy window window' hp hp'
  rcases hmoves.pending keyPrefix id n hy window hp with hold | ⟨hreserves,hnew⟩
  · rcases hmoves.pending keyPrefix id n hy window' hp' with hold' | ⟨hreserves,hnew'⟩
    · exact hs keyPrefix id n hy window window' hold hold'
    · rw [hnew']
      exact htimely keyPrefix id n hy hreserves window hold
  · rcases hmoves.pending keyPrefix id n hy window' hp' with hold' | ⟨-,hnew'⟩
    · rw [hnew]
      exact (htimely keyPrefix id n hy hreserves window' hold').symm
    · rw [hnew,hnew']

theorem timely_recorded (hsha : CollisionFree sha) : (systemOf sha (Timely sha)).Recorded
      (fun s _ => Balanced sha s ∧ PendingOnce sha s) (Moves sha) :=
  (system_recorded hsha (Timely sha)).and (J := fun s _ => PendingOnce sha s)
    (fun _ h => pendingOnce_fresh h)
    (fun _ _ _ _ hs h keyPrefix id n hy w w' hp hp' =>
      hs keyPrefix id n hy w w' (pending_of_passes h hp) (pending_of_passes h hp'))
    (fun _ _ _ hs => hs) fun _ _ _ _ _ _ _ hs htimely hmoves => pendingOnce_moves hs htimely hmoves

/-! One retry with nobody else acting. -/

/-- The request passes validation, with these scopes and policies. -/
structure Accepted (request : ReserveRequest) (hy : Hierarchy) (policies : List Effective) :
    Prop where
  id : validTPMReservationID request.reservationID
  plan : request.plan.validate
  bindings : normalizeRPMBindings request.bindings = some (hy.scopes,policies)

theorem Accepted.admissible {request : ReserveRequest} {hy : Hierarchy}
    {policies : List Effective} (h : Accepted request hy policies) :
    Admissible request policies := by
  obtain ⟨-,-,hadm⟩ := admissible_of_valid h.plan h.bindings
  exact hadm

/-- The call gives back the reservation of `window` and leaves the server as it is. -/
def GivesBack (program : Prog Server Oracle Reply) (oracle : ℕ → Oracle) (i : ℕ) (s : Server)
    (window : ℤ) : Prop :=
  ∃ r j, program.alone oracle i s = some (.reserved (.ok r),j,s) ∧ r.idempotent ∧
    r.handle.window = window

section
variable {limiter : RedisTPMLimiter} {request : ReserveRequest} {hy : Hierarchy}
  {policies : List Effective} {s : Server} {oracle : ℕ → Oracle} {window : ℤ}

theorem alone_round (hfault : ∀ i, (oracle i).fault = none) (retries i : ℕ) (x : ℤ) :
    (reserveLoop sha limiter request hy.scopes policies (retries + 1) x).alone oracle i s =
      match reserveStep limiter request hy.scopes policies x
        (reserveScript sha limiter request hy.scopes policies x s).2 with
      | .retry x' => (reserveLoop sha limiter request hy.scopes policies retries x').alone
          oracle (i + 1) (reserveScript sha limiter request hy.scopes policies x s).1
      | .done result => some (.reserved result,i + 1,
          (reserveScript sha limiter request hy.scopes policies x s).1) := by
  rw [reserveLoop,Prog.alone_write,evaluate_of_none (hfault i)]
  cases reserveStep limiter request hy.scopes policies x
    (reserveScript sha limiter request hy.scopes policies x s).2 <;> rfl

theorem alone_mismatch (hfault : ∀ i, (oracle i).fault = none) (retries i : ℕ) {x : ℤ}
    (hx : (serverWindow s : ℤ) ≠ x) :
    (reserveLoop sha limiter request hy.scopes policies (retries + 1) x).alone oracle i s =
      (reserveLoop sha limiter request hy.scopes policies retries (serverWindow s)).alone
        oracle (i + 1) s := by
  rw [alone_round hfault,reserveScript_mismatch hx]
  simp only [reserveStep_mismatch]

section
variable (hsha : CollisionFree sha) (hs : Balanced sha s)
  (hadm : Admissible request policies) (hfault : ∀ i, (oracle i).fault = none)
include hsha hs hadm hfault

/-- A round for the server's minute, where the reservation is pending, gives it back. -/
theorem alone_replay
    (hp : Pending sha limiter.keyPrefix request.reservationID request.plan.reservedTokens hy
      s (serverWindow s)) (retries i : ℕ) :
    GivesBack (reserveLoop sha limiter request hy.scopes policies (retries + 1)
      (serverWindow s)) oracle i s (serverWindow s) := by
  obtain ⟨L,henc⟩ := hs.ledgers (limiter.key (serverWindow s))
  have hrecord : (L.find request.reservationID).map (Hold.text sha) =
      some ((requestedHold request hy).text sha) := by
    rw [← henc.records]
    exact hp
  obtain ⟨hold,hfind,htext⟩ := Option.map_eq_some_iff.mp hrecord
  rw [Hold.eq_of_text hsha (Ledger.find_eq_some.mp hfind).2 htext] at hfind
  obtain ⟨r,hr,hdesc⟩ := replay_step limiter hadm hs.clock hfind
  refine ⟨r,i + 1,?_,hdesc.idempotent,?_⟩
  · rw [alone_round hfault,reserveScript_live hadm henc,hrecord]
    simp only [ne_eq,not_true_eq_false,if_false,hr]
  · rw [hdesc.handle]

/-- A round for the server's minute gives back no reservation of another one. -/
theorem alone_other (hw : (serverWindow s : ℤ) ≠ window) (retries i : ℕ) :
    ¬GivesBack (reserveLoop sha limiter request hy.scopes policies (retries + 1)
      (serverWindow s)) oracle i s window := by
  rintro ⟨r,j,halone,hi,hwindow⟩
  obtain ⟨L,henc⟩ := hs.ledgers (limiter.key (serverWindow s))
  have hout := reserveScript_outcome hy hsha hadm hs.clock henc
  rw [alone_round hfault] at halone
  cases hnext : reserveStep limiter request hy.scopes policies (serverWindow s)
      (reserveScript sha limiter request hy.scopes policies (serverWindow s) s).2 with
  | retry x =>
    rw [hnext] at hout
    generalize (reserveScript sha limiter request hy.scopes policies (serverWindow s) s).1 =
      t at hout
    cases hout with
    | mismatch hne => exact hne rfl
    | admitted _ _ _ _ hdone => simp at hdone
  | done result =>
    rw [hnext] at hout halone
    simp only [Option.some.injEq,Prod.mk.injEq,Reply.reserved.injEq] at halone
    rw [halone.1] at hout
    exact hw ((hout.window_eq hi).symm.trans hwindow)

/-- When the loop gives back the pending reservation: in its minute, and with a round to spare if
the local clock named another one. -/
theorem reserveLoop_givesBack
    (hp : Pending sha limiter.keyPrefix request.reservationID request.plan.reservedTokens hy
      s window) {retries : ℕ} (hpos : 0 < retries) (i : ℕ) (x : ℤ) :
    GivesBack (reserveLoop sha limiter request hy.scopes policies retries x) oracle i s window ↔
      (serverWindow s : ℤ) = window ∧ (x = window ∨ 2 ≤ retries) := by
  obtain ⟨retries,rfl⟩ := Nat.exists_eq_succ_of_ne_zero hpos.ne'
  by_cases hw : (serverWindow s : ℤ) = window
  · subst hw
    by_cases hx : (serverWindow s : ℤ) = x
    · subst hx
      simp [alone_replay hsha hs hadm hfault hp]
    · unfold GivesBack
      rw [alone_mismatch hfault retries i hx]
      cases retries with
      | zero => simp [reserveLoop,Ne.symm hx]
      | succ retries =>
        have hback := alone_replay hsha hs hadm hfault hp retries (i + 1)
        exact ⟨fun _ => ⟨rfl,.inr (by omega)⟩,fun _ => hback⟩
  · refine ⟨fun hback => ?_,fun h => absurd h.1 hw⟩
    by_cases hx : (serverWindow s : ℤ) = x
    · subst hx
      exact absurd hback (alone_other hsha hs hadm hfault hw retries i)
    · unfold GivesBack at hback
      rw [alone_mismatch hfault retries i hx] at hback
      cases retries with
      | zero => simp [reserveLoop] at hback
      | succ retries =>
        exact absurd hback (alone_other hsha hs hadm hfault hw retries (i + 1))

end

theorem reserveTPM_givesBack (hsha : CollisionFree sha) (hs : Balanced sha s)
    (hacc : Accepted request hy policies) (hfault : ∀ i, (oracle i).fault = none)
    (hp : Pending sha limiter.keyPrefix request.reservationID request.plan.reservedTokens hy
      s window) :
    GivesBack (reserveTPM sha limiter request) oracle 0 s window ↔ (serverWindow s : ℤ) = window ∧
        (localWindow (oracle 0) = window ∨ 2 ≤ limiter.clockRetries) := by
  have hread : (reserveTPM sha limiter request).alone oracle 0 s =
      (reserveLoop sha limiter request hy.scopes policies limiter.clockRetries
        (localWindow (oracle 0))).alone oracle 1 s := by
    simp [reserveTPM,hacc.id,hacc.plan,hacc.bindings]
  unfold GivesBack
  rw [hread]
  exact reserveLoop_givesBack hsha hs hacc.admissible hfault hp limiter.retries_pos 1 _

end

/-- A retry in the minute of a pending reservation changes nothing and gets the reservation back, or
no answer for that minute; undisturbed it does get it back, if the local clock agrees or a second
round is allowed, and in no other minute. In every run whose calls retry a pending reservation in
its minute only, a reservation never holds more than its tokens over all windows together. -/
theorem retry_inMinute_neverChargesTwice {sha : String → String} (hsha : CollisionFree sha) :
    (∀ p, (system sha).Reachable p → (∀ call t reply, (system sha).Acts p call t reply →
        ∀ keyPrefix id n hy, Reserves call keyPrefix id n hy →
          Pending sha keyPrefix id n hy p.shared (serverWindow p.shared) →
          t = p.shared ∧ ∀ a, reply = some a → Recalls id n hy (serverWindow p.shared) a) ∧
      ∀ limiter request hy policies window oracle, Accepted request hy policies →
        (∀ i, (oracle i).fault = none) →
        Pending sha limiter.keyPrefix request.reservationID request.plan.reservedTokens hy
          p.shared window →
        (GivesBack (reserveTPM sha limiter request) oracle 0 p.shared window ↔
          (serverWindow p.shared : ℤ) = window ∧
            (localWindow (oracle 0) = window ∨ 2 ≤ limiter.clockRetries))) ∧
    ∀ p, (systemOf sha (Timely sha)).Reachable p → ∀ keyPrefix id n hy windows,
        heldTokens sha keyPrefix id n hy p.shared windows ≤ n := by
  constructor
  · intro p hp
    have hrec := system_recorded hsha fun _ _ => True
    constructor
    · intro call t reply hacts
      exact (hrec.acts hp hacts).retry
    · intro limiter request hy policies window oracle hacc hfault hpend
      exact reserveTPM_givesBack hsha (hrec.inv hp) hacc hfault hpend
  · intro p hp
    have honce := ((timely_recorded hsha).inv hp).2
    exact heldTokens_le honce

def sampleHeld : Pool Server Oracle Call Reply :=
  (system sampleDigest).exec [
    .spawn (.reserve sampleLimiter sampleRequest),.run 0 9 fun _ => sampleOracle 60]
    ⟨.start 60000000,[]⟩

theorem sampleHeld_reachable : (system sampleDigest).Reachable sampleHeld :=
  sampleStart_reachable.reaches (System.exec_reaches (by simp) fun _ _ _ _ => trivial)

theorem sampleHeld_pending : Pending sampleDigest sampleLimiter.keyPrefix "res-1" 30 sampleHierarchy
    sampleHeld.shared 1 := by
  decide +kernel

theorem sampleRequest_accepted : ∃ policies, Accepted sampleRequest sampleHierarchy policies :=
  ⟨(sampleBindings 80 100).map Binding.policy,by decide +kernel,by decide +kernel,by decide +kernel⟩

theorem sampleHeld_givesBack : CollisionFree sampleDigest ∧
    (system sampleDigest).Reachable sampleHeld ∧
    GivesBack (reserveTPM sampleDigest sampleLimiter sampleRequest) (fun _ => sampleOracle 60) 0
      sampleHeld.shared 1 := by
  refine ⟨sampleDigest_collisionFree,sampleHeld_reachable,?_⟩
  obtain ⟨policies,hacc⟩ := sampleRequest_accepted
  have hback := ((retry_inMinute_neverChargesTwice sampleDigest_collisionFree).1 sampleHeld
    sampleHeld_reachable).2 sampleLimiter sampleRequest sampleHierarchy policies 1
  exact (hback _ hacc (fun _ => rfl) sampleHeld_pending).mpr
    ⟨by decide +kernel,.inl (by decide +kernel)⟩

def sampleRetried : Pool Server Oracle Call Reply :=
  (system sampleDigest).exec [
    .spawn (.reserve sampleLimiter sampleRequest),.run 1 9 fun _ => sampleOracle 120]
    ⟨sampleHeld.shared.tick 120000000,sampleHeld.threads⟩

theorem sampleRetried_reachable : (system sampleDigest).Reachable sampleRetried := by
  have hpasses : passes sampleHeld.shared (sampleHeld.shared.tick 120000000) :=
    ⟨120000000,by decide +kernel,by decide +kernel,rfl⟩
  exact (sampleHeld_reachable.step (.env sampleHeld _ hpasses)).reaches
    (System.exec_reaches (fun _ _ _ _ => trivial) fun _ _ _ _ => trivial)

/-- The reply's reservation. -/
def Reply.reservation : Reply → Option Reservation
  | .reserved (.ok r) => some r
  | _ => none

/-- The retry in the next minute is a reservation of its own: the first one is still pending, and
the two windows hold the tokens twice. -/
theorem sampleRetried_chargesTwice : (system sampleDigest).Reachable sampleRetried ∧
    Pending sampleDigest sampleLimiter.keyPrefix "res-1" 30 sampleHierarchy sampleRetried.shared 1 ∧
    (sampleRetried.threads.map fun thread => thread.2.result.bind fun reply =>
      reply.reservation.map fun r => (r.allowed,r.idempotent,r.handle.window)) =
      [some (true,false,1),some (true,false,2)] ∧
    sampleRetried.shared.hash (sampleLimiter.key 1) "platform" = some "30" ∧
    sampleRetried.shared.hash (sampleLimiter.key 2) "platform" = some "30" ∧
    heldTokens sampleDigest sampleLimiter.keyPrefix "res-1" 30 sampleHierarchy
      sampleRetried.shared {1, 2} = 60 :=
  ⟨sampleRetried_reachable,by decide +kernel,by decide +kernel,by decide +kernel,
    by decide +kernel,by decide +kernel⟩

end Limits.Tpm
