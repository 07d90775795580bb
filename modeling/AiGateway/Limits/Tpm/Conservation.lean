import AiGateway.Limits.Tpm.Effects

/-! In every run each window's hash encodes a ledger: its counters are the sums of the recorded
holds, records only move forward, and replays change nothing. Replies that the calls reject occur
only where a settlement would take a sum out of the exact range. -/
namespace Limits.Tpm
open Redis Interleaving Server Ledger

variable (sha : String → String) {reply : Option Reply} {keyPrefix : String} {hy' : Hierarchy}
  {f : Failure} {w : ℤ} {n : ℕ}

/-- The invariant of the server. -/
structure Balanced (s : Server) : Prop where
  clock : s.clock ≤ lastClock
  ledgers : ∀ key, ∃ L : Ledger, Encodes sha L (s.hash key)

/-- How the record of one reservation may change in one step: it is written once as pending and
once more as settled, with the same tokens and scopes. -/
inductive Advances : Option String → Option String → Prop
  | same (record : Option String) : Advances record record
  | reserved (n : ℕ) (hy : Hierarchy) :
      Advances none (some (redisTPMPendingValue n (redisScopeFingerprint sha hy.scopes)))
  | settled (n actual : ℕ) (hy : Hierarchy) :
      Advances (some (redisTPMPendingValue n (redisScopeFingerprint sha hy.scopes)))
        (some (redisTPMSettledValue n actual (redisScopeFingerprint sha hy.scopes)))

/-- The call is a settlement of a pending hold that would take a scope's sum above the maximum. -/
def WouldExceed (call : Call) (s : Server) : Prop :=
  match call with
  | .reserve _ _ => False
  | .settle limiter handle actual => ∃ (hy : Hierarchy) (L : Ledger),
      Encodes sha L (s.hash (limiter.key handle.window)) ∧
      L.find handle.reservationID = some (handledHold handle hy) ∧
      L.Overflows hy handle.reservedTokens actual.tokens

def Reply.idempotent : Reply → Bool
  | .reserved (.ok r) => r.idempotent
  | .settled (.ok r) => r.idempotent
  | _ => false

/-- In `s` the hash of `window` has the record of a pending reservation. -/
def Pending (keyPrefix id : String) (n : ℕ) (hy : Hierarchy) (s : Server) (window : ℤ) : Prop :=
  s.hash (windowKey keyPrefix window) (redisTPMReservationField id) =
    some (redisTPMPendingValue n (redisScopeFingerprint sha hy.scopes))

/-- The call reserves `n` tokens on the scopes of `hy` under this ID and namespace. -/
def Reserves (call : Call) (keyPrefix id : String) (n : ℕ) (hy : Hierarchy) : Prop :=
  ∃ limiter request policies, call = .reserve limiter request ∧ limiter.keyPrefix = keyPrefix ∧
    request.reservationID = id ∧ request.plan.reservedTokens = n ∧
    normalizeRPMBindings request.bindings = some (hy.scopes,policies)

/-- The reply is the reservation of `window` again, or the call got no answer for its minute. -/
def Recalls (id : String) (n : ℕ) (hy : Hierarchy) (window : ℤ) (a : Reply) : Prop :=
  (∃ r, a = .reserved (.ok r) ∧ r.idempotent ∧ r.handle = ⟨id,window,hy.scopes,n⟩) ∨
    a = .reserved (.error (.evaluation "reserve")) ∨ a = .reserved (.error .clockBoundary)

/-- What one step of a call may do. -/
structure Moves (call : Call) (s t : Server) (reply : Option Reply) : Prop where
  records : ∀ key id, Advances sha (s.hash key (redisTPMReservationField id))
    (t.hash key (redisTPMReservationField id))
  replay : ∀ a, reply = some a → a.idempotent → t = s
  protocol : ∀ a f, reply = some a → a.failure = some f → f.isProtocol →
    WouldExceed sha call s
  pending : ∀ keyPrefix id n hy window, Pending sha keyPrefix id n hy t window →
    Pending sha keyPrefix id n hy s window ∨
      Reserves call keyPrefix id n hy ∧ window = serverWindow s
  retry : ∀ keyPrefix id n hy, Reserves call keyPrefix id n hy →
    Pending sha keyPrefix id n hy s (serverWindow s) →
    t = s ∧ ∀ a, reply = some a → Recalls id n hy (serverWindow s) a

variable {sha} {s : Server} {call : Call}

theorem balanced_fresh (h : fresh s) : Balanced sha s := by
  obtain ⟨now,hle,rfl⟩ := h
  exact ⟨hle,fun key => ⟨.empty,encodes_empty⟩⟩

theorem balanced_passes {t : Server} (hs : Balanced sha s) (h : passes s t) : Balanced sha t := by
  obtain ⟨now,-,hle,rfl⟩ := h
  refine ⟨hle,fun key => ?_⟩
  rcases (s.tick_hash now key) with heq | heq
  · rw [heq]
    exact hs.ledgers key
  · rw [heq]
    exact ⟨.empty,encodes_empty⟩

theorem balanced_storeHash (hs : Balanced sha s) {key : String} {e : Entry Hash}
    {L : Ledger} (henc : Encodes sha L e.value) : Balanced sha (s.storeHash key e) := by
  refine ⟨hs.clock,fun key' => ?_⟩
  by_cases hkey : key' = key
  · subst hkey
    rw [hash_storeHash]
    exact ⟨L,henc⟩
  · rw [hash_storeHash_of_ne hkey]
    exact hs.ledgers key'

theorem moves_refl
    (hproto : ∀ a f, reply = some a → a.failure = some f → f.isProtocol →
      WouldExceed sha call s)
    (hretry : ∀ keyPrefix id n hy, Reserves call keyPrefix id n hy →
      Pending sha keyPrefix id n hy s (serverWindow s) → ∀ a, reply = some a →
      Recalls id n hy (serverWindow s) a) : Moves sha call s s reply where
  records _ _ := .same _
  replay _ _ _ := rfl
  protocol := hproto
  pending _ _ _ _ _ h := .inl h
  retry keyPrefix id n hy hr hp := ⟨rfl,hretry keyPrefix id n hy hr hp⟩

variable {id : String}

theorem advances_rewritten {key text : String} {hy : Hierarchy} {delta : ℤ} {ttl : Option ℕ}
    (h : Advances sha (s.hash key (redisTPMReservationField id)) (some text)) (key' id' : String) :
    Advances sha (s.hash key' (redisTPMReservationField id'))
      ((s.storeHash key ⟨rewritten (s.hash key) hy.fields delta (redisTPMReservationField id) text,
        ttl⟩).hash key' (redisTPMReservationField id')) := by
  by_cases hkey : key' = key
  · subst hkey
    simp only [hash_storeHash,rewritten_record]
    split_ifs with hid
    · rw [← hid]
      exact h
    · exact .same _
  · rw [hash_storeHash_of_ne hkey]
    exact .same _

section
variable {limiter : RedisTPMLimiter} {request : ReserveRequest} {hy : Hierarchy}
  {policies : List Effective} {window : ℤ} {L : Ledger} {t : Server}
variable {next : ReserveStep}

theorem ReserveOutcome.balanced (hs : Balanced sha s) (hpos : 1 ≤ request.plan.reservedTokens)
    (henc : Encodes sha L (s.hash (limiter.key window)))
    (h : ReserveOutcome sha limiter request hy policies window s L t next) : Balanced sha t := by
  cases h with
  | admitted _ _ hfind hfits _ =>
    exact balanced_storeHash hs (henc.rewrite (requestedHold request hy)
      (L.add (requestedHold request hy) hfind hpos hfits) find_add
      (fun _ => usage_add) fun _ => covers_add)
  | _ => exact hs

theorem ReserveOutcome.records (henc : Encodes sha L (s.hash (limiter.key window)))
    (h : ReserveOutcome sha limiter request hy policies window s L t next) (key id : String) :
    Advances sha (s.hash key (redisTPMReservationField id))
      (t.hash key (redisTPMReservationField id)) := by
  cases h with
  | admitted _ hw hfind hfits hnext =>
    apply advances_rewritten
    rw [henc.records,hfind]
    exact .reserved _ _
  | _ => exact .same _

theorem ReserveOutcome.pending (hsha : CollisionFree sha)
    (h : ReserveOutcome sha limiter request hy policies window s L t next)
    (hp : Pending sha keyPrefix id n hy' t w) : Pending sha keyPrefix id n hy' s w ∨
      (limiter.keyPrefix = keyPrefix ∧ request.reservationID = id ∧
        request.plan.reservedTokens = n ∧ hy' = hy) ∧ w = serverWindow s := by
  cases h with
  | admitted _ hw hfind hfits hnext =>
    unfold Pending at hp
    by_cases hkey : windowKey keyPrefix w = limiter.key window
    · obtain ⟨rfl,rfl⟩ := windowKey_inj.mp hkey
      rw [hkey,hash_storeHash] at hp
      simp only [rewritten_record] at hp
      split_ifs at hp with hid
      · obtain ⟨hn,hfp⟩ := redisTPMPendingValue_inj.mp (Option.some.inj hp)
        exact .inr ⟨⟨rfl,hid,hn,(redisScopeFingerprint_inj hsha hfp).symm⟩,hw.symm⟩
      · exact .inl hp
    · rw [hash_storeHash_of_ne hkey] at hp
      exact .inl hp
  | _ => exact .inl hp

theorem ReserveOutcome.recalls (henc : Encodes sha L (s.hash (limiter.key window)))
    (h : ReserveOutcome sha limiter request hy policies window s L t next)
    (hp : Pending sha limiter.keyPrefix request.reservationID request.plan.reservedTokens hy
      s (serverWindow s)) :
    t = s ∧ ∀ r, next = .done r → Recalls request.reservationID request.plan.reservedTokens hy
      (serverWindow s) (.reserved r) := by
  have hrecord (hw : (serverWindow s : ℤ) = window) :
      (L.find request.reservationID).map (Hold.text sha) =
        some ((requestedHold request hy).text sha) := by
    rw [← henc.records,← hw]
    exact hp
  cases h with
  | failed => exact ⟨rfl,fun r hr => by cases hr; exact .inr (.inl rfl)⟩
  | mismatch hw => exact ⟨rfl,fun r hr => by cases hr⟩
  | conflict hold hw hfind hne =>
    have htext := hrecord hw
    rw [hfind] at htext
    exact absurd (Option.some.inj htext) hne
  | replay r hw hfind hr =>
    refine ⟨rfl,fun r' hr' => ?_⟩
    cases hr'
    refine .inl ⟨r,rfl,hr.idempotent,?_⟩
    rw [hr.handle,hw]
  | denied r hw hfind hi hr =>
    have htext := hrecord hw
    rw [hfind] at htext
    cases htext
  | admitted _ hw hfind hfits hnext =>
    have htext := hrecord hw
    rw [hfind] at htext
    cases htext

variable {r : Except Failure Reservation}

section
variable (h : ReserveOutcome sha limiter request hy policies window s L t (.done r))
include h

theorem ReserveOutcome.failure (hf : (Reply.reserved r).failure = some f) :
    f.isProtocol = false := by
  cases h with
  | admitted _ hw hfind hfits hnext =>
    rcases hnext with hnext | ⟨r',hnext,-⟩
    · cases hnext
      cases hf
      rfl
    · cases hnext
      cases hf
  | _ =>
    cases hf
    try rfl

theorem ReserveOutcome.replay_eq (hi : (Reply.reserved r).idempotent) : t = s := by
  cases h with
  | admitted _ hw hfind hfits hnext =>
    rcases hnext with hnext | ⟨r',hnext,hr⟩
    · cases hnext
      cases hi
    · cases hnext
      rw [Reply.idempotent,hr.idempotent] at hi
      cases hi
  | _ => rfl

end

theorem ReserveOutcome.window_eq {r : Reservation}
    (h : ReserveOutcome sha limiter request hy policies window s L t (.done (.ok r)))
    (hi : r.idempotent) : r.handle.window = window := by
  cases h with
  | replay _ hw hfind hr => rw [hr.handle]
  | denied _ hw hfind hfalse hr =>
    rw [hfalse] at hi
    cases hi
  | admitted _ hw hfind hfits hnext =>
    rcases hnext with hnext | ⟨r',hnext,hr⟩
    · cases hnext
    · cases hnext
      rw [hr.handle]

theorem ReserveOutcome.moves (hsha : CollisionFree sha)
    (hbinds : normalizeRPMBindings request.bindings = some (hy.scopes,policies))
    (henc : Encodes sha L (s.hash (limiter.key window)))
    (h : ReserveOutcome sha limiter request hy policies window s L t next)
    (hreply : (∃ r, next = .done r ∧ reply = some (.reserved r)) ∨ reply = none ∨
      reply = some (.reserved (.error .clockBoundary))) :
    Moves sha (.reserve limiter request) s t reply where
  records := h.records henc
  replay a ha hi := by
    subst ha
    rcases hreply with ⟨r,rfl,hr⟩ | hr | hr
    · cases hr
      exact h.replay_eq hi
    · cases hr
    · cases hr
      cases hi
  protocol a f ha hf hproto := by
    subst ha
    rcases hreply with ⟨r,rfl,hr⟩ | hr | hr
    · cases hr
      rw [h.failure hf] at hproto
      cases hproto
    · cases hr
    · cases hr
      cases hf
      cases hproto
  pending keyPrefix id n hy' w hp := by
    rcases h.pending hsha hp with hp | ⟨⟨h₁,h₂,h₃,rfl⟩,hw⟩
    · exact .inl hp
    · exact .inr ⟨⟨limiter,request,policies,rfl,h₁,h₂,h₃,hbinds⟩,hw⟩
  retry keyPrefix id n hy' hr hp := by
    obtain ⟨limiter',request',policies',hcall,rfl,rfl,rfl,hbinds'⟩ := hr
    cases hcall
    have hhy : hy' = hy := by
      rw [hbinds] at hbinds'
      exact (Hierarchy.scopes_inj (Prod.mk.inj (Option.some.inj hbinds')).1).symm
    subst hhy
    obtain ⟨hts,hdone⟩ := h.recalls henc hp
    refine ⟨hts,fun a ha => ?_⟩
    subst ha
    rcases hreply with ⟨r,rfl,hr⟩ | hr | hr
    · cases hr
      exact hdone r rfl
    · cases hr
    · cases hr
      exact .inr (.inr rfl)

end

section
variable {limiter : RedisTPMLimiter} {handle : Handle} {actual : TPMActual} {hy : Hierarchy}
  {L : Ledger} {t : Server} {result : Except Failure Settlement}

theorem SettleOutcome.balanced (hs : Balanced sha s)
    (henc : Encodes sha L (s.hash (limiter.key handle.window)))
    (h : SettleOutcome sha limiter handle actual hy s L t result) : Balanced sha t := by
  cases h with
  | settled _ hfind hfits _ =>
    have hmem := (find_eq_some.mp hfind).1
    have hroom : ∀ scope ∈ hy.scopes, L.usage scope - (handledHold handle hy).tokens +
        actual.tokens ≤ maximumValue := by
      intro scope hscope
      by_contra hgt
      exact hfits ⟨scope,hscope,not_le.mp hgt⟩
    refine balanced_storeHash hs (henc.rewrite ((handledHold handle hy).settle actual.tokens)
      (L.settle (handledHold handle hy) actual.tokens hmem hroom) find_settle
      (fun _ => usage_settle) fun scope => ?_)
    exact covers_settle.trans ⟨.inr,fun h => h.elim (fun hs => ⟨_,hmem,hs⟩) id⟩
  | _ => exact hs

theorem SettleOutcome.records (henc : Encodes sha L (s.hash (limiter.key handle.window)))
    (h : SettleOutcome sha limiter handle actual hy s L t result) (key id : String) :
    Advances sha (s.hash key (redisTPMReservationField id))
      (t.hash key (redisTPMReservationField id)) := by
  cases h with
  | settled _ hfind hfits hres =>
    apply advances_rewritten
    rw [henc.records,hfind]
    exact .settled _ _ _
  | _ => exact .same _

section
variable (h : SettleOutcome sha limiter handle actual hy s L t result)
include h

theorem SettleOutcome.pending (hp : Pending sha keyPrefix id n hy' t w) :
    Pending sha keyPrefix id n hy' s w := by
  cases h with
  | settled _ hfind hfits hres =>
    unfold Pending at hp
    by_cases hkey : windowKey keyPrefix w = limiter.key handle.window
    · rw [hkey,hash_storeHash] at hp
      simp only [rewritten_record] at hp
      split_ifs at hp with hid
      · exact absurd (Option.some.inj hp).symm redisTPMPendingValue_ne_settled
      · rwa [← hkey] at hp
    · rw [hash_storeHash_of_ne hkey] at hp
      exact hp
  | _ => exact hp

theorem SettleOutcome.replay_eq (hi : (Reply.settled result).idempotent) : t = s := by
  cases h with
  | settled _ hfind hfits hres =>
    rcases hres with rfl | ⟨r,rfl,hr⟩
    · cases hi
    · rw [Reply.idempotent,hr] at hi
      cases hi
  | _ => rfl

end

section
variable (henc : Encodes sha L (s.hash (limiter.key handle.window)))
  (h : SettleOutcome sha limiter handle actual hy s L t result)
include henc h

theorem SettleOutcome.protocol (hf : (Reply.settled result).failure = some f)
    (hproto : f.isProtocol) : WouldExceed sha (.settle limiter handle actual) s := by
  cases h with
  | overflow e hfind hover => exact ⟨hy,L,henc,hfind,hover⟩
  | settled _ hfind hfits hres =>
    rcases hres with rfl | ⟨r,rfl,hr⟩
    · cases hf
      cases hproto
    · cases hf
  | _ =>
    cases hf
    try cases hproto

theorem SettleOutcome.moves :
    Moves sha (.settle limiter handle actual) s t (some (.settled result)) where
  records := h.records henc
  replay a ha hi := by
    cases ha
    exact h.replay_eq hi
  protocol a f ha hf hproto := by
    cases ha
    exact h.protocol henc hf hproto
  pending _ _ _ _ _ hp := .inl (h.pending hp)
  retry _ _ _ _ hr := by
    obtain ⟨_,_,_,hcall,-⟩ := hr
    cases hcall

end
end

/-! Programs and runs. -/

variable {guard : Oracle → Server → Prop}

section
variable (hsha : CollisionFree sha)
include hsha

theorem reserveLoop_keeps {limiter : RedisTPMLimiter} {request : ReserveRequest} {hy : Hierarchy}
    {policies : List Effective} (hadm : Admissible request policies)
    (hbinds : normalizeRPMBindings request.bindings = some (hy.scopes,policies)) (retries : ℕ)
    (window : ℤ) : (reserveLoop sha limiter request hy.scopes policies retries window).Keeps
      (fun s _ => Balanced sha s) guard (Moves sha (.reserve limiter request))
      (Call.reserve limiter request) := by
  induction retries generalizing window with
  | zero => trivial
  | succ retries ih =>
    apply Prog.keeps_write
    intro e s D hs _
    obtain ⟨L,henc⟩ := hs.ledgers (limiter.key window)
    have hout := reserve_outcome hy hsha hadm hs.clock henc e
    refine ⟨hout.balanced hs hadm.positive henc,hout.moves hsha hbinds henc ?_,?_⟩
    · split
      · cases retries with
        | zero => exact .inr (.inr rfl)
        | succ retries => exact .inr (.inl rfl)
      · rename_i r hr
        exact .inl ⟨r,hr,rfl⟩
    · split
      · exact ih _
      · trivial

theorem program_keeps (call : Call) :
    (call.program sha).Keeps (fun s _ => Balanced sha s) guard (Moves sha call) call := by
  cases call with
  | reserve limiter request =>
    simp only [Call.program,reserveTPM]
    split
    · trivial
    · rename_i hvalid
      split
      · trivial
      · rename_i scopes policies hbinds
        obtain ⟨hy,rfl,hadm⟩ := admissible_of_valid (by simpa using (not_or.mp hvalid).2) hbinds
        apply Prog.keeps_read
        intro e s D hs _
        -- at least one round follows, so reading the clock returns nothing
        obtain ⟨retries,hretries⟩ := Nat.exists_eq_succ_of_ne_zero
          (Nat.pos_iff_ne_zero.mp limiter.retries_pos)
        refine ⟨hs,?_,reserveLoop_keeps hsha hadm hbinds _ _⟩
        rw [hretries]
        exact moves_refl (by rintro _ _ ⟨⟩) (by rintro _ _ _ _ _ _ _ ⟨⟩)
  | settle limiter handle actual =>
    simp only [Call.program,settleTPM]
    split
    · trivial
    · rename_i hvalid
      split
      · trivial
      · rename_i scopes hhandle
        obtain ⟨hy,rfl,hok⟩ := settleable_of_valid (by simpa using hvalid) hhandle
        apply Prog.keeps_write
        intro e s D hs _
        obtain ⟨L,henc⟩ := hs.ledgers (limiter.key handle.window)
        have hout := settle_outcome hy hsha hok henc e
        exact ⟨hout.balanced hs henc,hout.moves henc,trivial⟩

theorem system_recorded (allowed : Call → Server → Prop) :
    (systemOf sha allowed).Recorded (fun s _ => Balanced sha s) (Moves sha) where
  init _ h := balanced_fresh h
  env _ _ _ hs h := balanced_passes hs h
  spawn _ _ _ hs := hs
  start call := program_keeps hsha call

end

theorem program_ret {a : Reply} (h : call.program sha = .ret a) : a.failure = some .invalid := by
  cases call with
  | reserve limiter request =>
    simp only [Call.program,reserveTPM] at h
    split at h
    · cases h
      rfl
    · split at h
      · cases h
        rfl
      · cases h
  | settle limiter handle actual =>
    simp only [Call.program,settleTPM] at h
    split at h
    · cases h
      rfl
    · split at h
      · cases h
        rfl
      · cases h

/-- No finished call reported a reply it could not use. -/
def Clean (D : Multiset (Call × Reply)) : Prop :=
  ∀ call a f, (call,a) ∈ D → a.failure = some f → f.isProtocol = false

/-- In every run each hash encodes a ledger: every scope counter is the sum, over the recorded
reservations on that scope, of the reserved tokens while pending and of the actual tokens once
settled. A record is written as pending and then at most once as settled, and a replay changes
nothing. As long as no settlement would take a sum above the maximum, no call takes a corrupt branch
or rejects a reply. -/
theorem reachable_tokensConserved {sha : String → String} (hsha : CollisionFree sha) :
    (∀ p, (system sha).Reachable p →
      (∀ key, ∃ L : Ledger, Encodes sha L (p.shared.hash key)) ∧
      ∀ call t reply, (system sha).Acts p call t reply →
        (∀ key id, Advances sha (p.shared.hash key (redisTPMReservationField id))
          (t.hash key (redisTPMReservationField id))) ∧
        ∀ a, reply = some a → a.idempotent → t = p.shared) ∧
    ∀ p, (systemOf sha fun call s => ¬WouldExceed sha call s).Reachable p → Clean p.finished := by
  constructor
  · intro p hp
    have hrec := system_recorded hsha fun _ _ => True
    refine ⟨(hrec.inv hp).ledgers,fun call t reply hacts => ?_⟩
    have hmoves := hrec.acts hp hacts
    exact ⟨hmoves.records,hmoves.replay⟩
  · intro p hp
    have hrec := system_recorded hsha fun call s => ¬WouldExceed sha call s
    intro call a f hmem
    refine hrec.outcomes (fun _ a => ∀ f, a.failure = some f → f.isProtocol = false) ?_ ?_ hp
      call a hmem f
    · intro call reply hreply f hf
      rw [program_ret (Prog.result_eq_some.mp hreply)] at hf
      cases hf
      rfl
    · intro call e s t D reply _ hallow hmoves f hf
      rw [Bool.eq_false_iff]
      exact fun hproto => hallow (hmoves.protocol reply f rfl hf hproto)

/-- A reservation of 30 tokens in the first minute, settled at 25. -/
def sampleRun : Pool Server Oracle Call Reply :=
  (system sampleDigest).exec [
    .spawn (.reserve sampleLimiter sampleRequest),.run 0 9 fun _ => sampleOracle 60,
    .spawn (.settle sampleLimiter (sampleHandle 1) sampleActual),.run 1 9 fun _ => sampleOracle 60]
    ⟨.start 60000000,[]⟩

theorem sampleStart_reachable : (system sampleDigest).Reachable ⟨start 60000000,[]⟩ :=
  .init _ ⟨60000000,by decide,rfl⟩

theorem sampleRun_reachable : (system sampleDigest).Reachable sampleRun :=
  sampleStart_reachable.reaches (System.exec_reaches (by simp) fun _ _ _ _ => trivial)

theorem sampleRun_tokensConserved : CollisionFree sampleDigest ∧
    (system sampleDigest).Reachable sampleRun ∧
    sampleRun.shared.hash (sampleLimiter.key 1) "platform" = some "25" ∧
    ∃ L : Ledger, Encodes sampleDigest L (sampleRun.shared.hash (sampleLimiter.key 1)) :=
  ⟨sampleDigest_collisionFree,sampleRun_reachable,by decide +kernel,
    ((reachable_tokensConserved sampleDigest_collisionFree).1 _ sampleRun_reachable).1 _⟩

end Limits.Tpm
