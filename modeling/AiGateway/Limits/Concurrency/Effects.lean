import AiGateway.Limits.Concurrency.Passes

/-! What one evaluation of a concurrency script does to the table of leases, and what the call makes
of the reply. -/
namespace Limits.Concurrency
open Redis Server List Function LeaseState

variable {sha : String → String} {limiter : RedisConcurrencyLimiter} {hy : Hierarchy}
  {T : Table} {s t : Server} {id : String} {l : Lease} {policy : Effective} {expires : ℕ}

/-! The three ways in which a script changes the server. -/

variable (limiter hy s t) in
/-- Expired members are dropped from the four sets. -/
structure Purges : Prop where
  sets : s.ZsetsChange t (limiter.keys hy.scopes) (fun z => z.removeUpTo s.clock) (fun e => e)
  hashes : t.hashes = s.hashes

variable (sha limiter id l) in
/-- A lease ends: it leaves its four sets, and its hash says why. -/
structure Closes (state : LeaseState) (s t : Server) : Prop where
  sets : ∃ f : ZSet → ZSet, s.ZsetsChange t (limiter.keys l.hierarchy.scopes) f (fun e => e) ∧
    (∀ z, (f z).card ≤ z.card) ∧
    ∀ z m e, s.clock < e → ((f z).score m = some e ↔ m ≠ id ∧ z.score m = some e)
  hashes : t.hashes = update s.hashes (leaseKey limiter.keyPrefix id)
    (some ⟨{ l with state := state }.fields sha,some l.limit⟩)

variable (sha limiter id l) in
/-- A lease begins or is extended. -/
structure Writes (s t : Server) : Prop where
  sets : s.ZsetsChange t (limiter.keys l.hierarchy.scopes)
    (fun z => (z.removeUpTo s.clock).add id l.expiry) fun _ => some l.limit
  hashes : t.hashes = update s.hashes (leaseKey limiter.keyPrefix id)
    (some ⟨l.fields sha,some l.limit⟩)

section
variable (h : Represents sha limiter.keyPrefix T s)
include h

theorem Represents.purges (hp : Purges limiter hy s t) : Represents sha limiter.keyPrefix T t :=
  h.purged hp.sets hp.hashes

theorem Represents.closes (hl : T id = some l) {state : LeaseState} (hstate : state ≠ .active)
    (hc : Closes sha limiter id l state s t) : Represents sha limiter.keyPrefix
      (Function.update T id (some { l with state := state })) t := by
  obtain ⟨⟨f,hsets,hcard,hscore⟩,hhashes⟩ := hc
  apply h.update (l := { l with state := state }) _ hsets _ _ _ hhashes
  · intro l' hl'
    rw [hl] at hl'
    cases hl'
    rfl
  · intro z m e hlt
    rw [hscore z m e hlt]
    by_cases hm : m = id
    · simp [hm,hstate]
    · simp [hm]
  · intro scope hscope m e hlt hs
    exact h.kept scope (l.hierarchy.scopes_valid scope hscope) m e hlt ((hscore _ m e hlt).mp hs).2
  · intro scope hscope
    exact (hcard _).trans (h.card scope (l.hierarchy.scopes_valid scope hscope))

theorem Represents.writes (hprev : ∀ l', T id = some l' → l'.hierarchy = l.hierarchy)
    (hstate : l.state = .active)
    (hlimit : ∀ m l', T m = some l' → l'.Live s.clock → l'.expiry < l.limit)
    (hcard : ∀ scope ∈ l.hierarchy.scopes,
      (((s.zset (scopeKey limiter.keyPrefix scope)).removeUpTo s.clock).add id l.expiry).card ≤
        maximumValue)
    (hw : Writes sha limiter id l s t) :
    Represents sha limiter.keyPrefix (Function.update T id (some l)) t := by
  have hscore (z : ZSet) (m : String) (e : ℕ) (hlt : s.clock < e) :
      ((z.removeUpTo s.clock).add id l.expiry).score m = some e ↔
        if m = id then l.state = .active ∧ l.expiry = e else z.score m = some e := by
    by_cases hm : m = id
    · simp [hm,hstate]
    · simp [hm,Option.filter_eq_some_iff,hlt]
  apply h.update hprev hw.sets hscore _ hcard hw.hashes
  intro scope hscope m e hlt hs
  refine ⟨l.limit,rfl,?_⟩
  rw [hscore _ m e hlt] at hs
  by_cases hm : m = id
  · rw [if_pos hm] at hs
    have := l.expiry_lt
    omega
  · rw [if_neg hm] at hs
    obtain ⟨l',hl',hactive,rfl,-⟩ :=
      (h.members scope (l.hierarchy.scopes_valid scope hscope) m e hlt).mp hs
    exact hlimit m l' hl' ⟨hactive,hlt⟩

end

variable (limiter hy) in
/-- The lease that a script writes now. -/
def newLease (now : ℕ) (hnow : now ≤ lastClock) : Lease where
  state := .active
  hierarchy := hy
  expiry := now + limiter.leaseMS
  limit := now + limiter.leaseMS + limiter.retainMS
  expiry_lt := by
    have := limiter.retain_pos
    omega
  expiry_le := by
    have := limiter.lease_le
    simp only [lastClock,maximumRedisConcurrencyLeaseMS,maximumValue] at *
    omega

/-! What the call makes of a reply. -/

theorem assignAllowed_ints {now : ℕ} {idempotent : Bool} {counts : List ℕ} (h : now < expires)
    (hlen : counts.length = requiredScopeCount)
    (hcounts : ∀ count ∈ counts, 1 ≤ count ∧ count ≤ maximumValue) :
    parseRedisConcurrencyAcquire (.ints ([1,(now : ℤ),expires,if idempotent then 1 else 0] ++
        counts.map fun count : ℕ => (count : ℤ))) =
      some {
        code := 1, nowMS := now, expiresMS := expires, idempotent := idempotent
        counts := counts } := by
  have hok : ¬((now : ℤ) < 0 ∨ (expires : ℤ) ≤ now ∨ (if idempotent then (1 : ℤ) else 0) ≠ 0 ∧
      (if idempotent then (1 : ℤ) else 0) ≠ 1) := by
    have := flag_range idempotent
    omega
  change assignRedisConcurrencyAllowed _ { code := 1 } = _
  unfold assignRedisConcurrencyAllowed
  rw [if_neg (by simp [hlen,requiredScopeCount])]
  simp only [List.append,List.map_cons,redisRPMInt64_int,Option.bind_eq_bind,Option.bind_some,
    hok,if_false,parseCounts_ints hcounts,flag_beq]
  rfl

/-- An admission as the call reports it. -/
structure Admitted (request : AcquireRequest) (hy : Hierarchy) (idempotent : Bool)
    (a : Admission) : Prop where
  handle : a.handle = ⟨request.leaseID,hy.scopes⟩
  idempotent : a.idempotent = idempotent
  rejection : a.rejection = none

variable {request : AcquireRequest} {policies : List Effective}
variable (request hy) in
theorem acquireResult_allowed {now : ℕ} (idempotent : Bool) {counts : List ℕ} (h : now < expires)
    (hlen : counts.length = requiredScopeCount) (hpols : policies.length = requiredScopeCount)
    (hcounts : ∀ count ∈ counts, 1 ≤ count ∧ count ≤ maximumValue)
    (hhard : idempotent = false → ∀ pair ∈ counts.zip policies, pair.1 ≤ pair.2.concurrency.hard) :
    ∃ a, acquireResult request hy.scopes policies (some (.ints ([1,(now : ℤ),expires,
        if idempotent then 1 else 0] ++ counts.map fun count : ℕ => (count : ℤ)))) = .ok a ∧
      Admitted request hy idempotent a := by
  have hchecked : (!idempotent) → ∀ pair ∈ counts.zip policies,
      pair.1 ≤ pair.2.concurrency.hard := fun h => hhard (by simpa using h)
  obtain ⟨result,hres,-⟩ := allowedCounts_eq_some (hy.scopes_length.trans hlen.symm)
    (hpols.trans hlen.symm) hchecked
  simp only [acquireResult,assignAllowed_ints h hlen hcounts,one_ne_zero,if_false,if_true,
    allowedRedisConcurrencyAdmission,hres]
  exact ⟨_,rfl,rfl,rfl,rfl⟩

variable (request hy) in
theorem acquireResult_denied {k count hard earliest now : ℕ}
    (hpols : policies.length = requiredScopeCount) (hpol : policies[k]? = some policy)
    (hhard : hard = policy.concurrency.hard) (hbounds : 1 ≤ hard ∧ hard ≤ maximumValue)
    (hfull : hard ≤ count) (hlt : now < earliest) :
    ∃ a, acquireResult request hy.scopes policies (some (.ints [0,(1 + k : ℕ),count,hard,
        earliest,now])) = .ok a ∧ a.idempotent = false ∧ a.rejection.isSome := by
  subst hhard
  have hk : k < requiredScopeCount := by
    have := (List.getElem?_eq_some_iff.mp hpol).1
    rwa [hpols] at this
  have hindex : ((1 + k : ℕ) : ℤ) - 1 = k := by
    push_cast
    omega
  obtain ⟨scope,hscope⟩ : ∃ scope, hy.scopes[k]? = some scope :=
    ⟨_,getElem?_eq_getElem (by rwa [hy.scopes_length])⟩
  have hok : ¬(((1 + k : ℕ) : ℤ) < 1 ∨ ((1 + k : ℕ) : ℤ) > requiredScopeCount ∨
    policy.concurrency.hard = 0 ∨
      policy.concurrency.hard > maximumValue ∨ count < policy.concurrency.hard ∨ (now : ℤ) < 0 ∨
        (earliest : ℤ) ≤ now) := by
    push_cast
    omega
  have hassign : assignRedisConcurrencyDenied [.int 0,.int (1 + k : ℕ),.int count,
      .int policy.concurrency.hard,.int earliest,.int now] { code := 0 } = some {
        code := 0, scopeIndex := k, count := count, hard := policy.concurrency.hard
        earliestMS := earliest, nowMS := now } := by
    simp only [assignRedisConcurrencyDenied,redisRPMInt64_int,redisRPMUint64_int,
      Option.bind_eq_bind,Option.bind_some,hok,if_false,hindex]
    rfl
  have hparse : parseRedisConcurrencyAcquire (.ints [0,(1 + k : ℕ),count,
      policy.concurrency.hard,earliest,now]) =
      some {
        code := 0, scopeIndex := k, count := count, hard := policy.concurrency.hard
        earliestMS := earliest, nowMS := now } := by
    simpa [parseRedisConcurrencyAcquire,Value.ints] using hassign
  simp only [acquireResult,hparse,if_true,deniedRedisConcurrencyAdmission,Int.toNat_natCast,
    hscope,hpol,ne_eq,not_true_eq_false,if_false]
  exact ⟨_,rfl,rfl,rfl⟩

theorem acquireResult_conflict :
    acquireResult request hy.scopes policies (some (.ints [2])) = .error .conflict := by
  simp [acquireResult,parseRedisConcurrencyAcquire,Value.ints]

theorem acquireResult_expired :
    acquireResult request hy.scopes policies (some (.ints [4])) = .error .expired := by
  simp [acquireResult,parseRedisConcurrencyAcquire,Value.ints]

/-! Acquiring. -/

theorem concurrency_hard (h : Bound policies) (hmem : policy ∈ policies) :
    1 ≤ policy.concurrency.hard ∧ policy.concurrency.hard ≤ maximumValue := by
  have := threshold_bounds (h.valid policy hmem)
    (show policy.concurrency ∈ [policy.rpm,policy.tpm,policy.concurrency] by simp)
  omega

variable (sha : String → String) (limiter : RedisConcurrencyLimiter)
  (request : AcquireRequest) (hy : Hierarchy) (policies : List Effective) (T : Table)
  (s : Server) in
/-- Everything the acquire script can do, in terms of the table. -/
inductive AcquireOutcome : Server → Table → Except Failure Admission → Prop
  | conflict (l : Lease) (hl : T request.leaseID = some l) :
      AcquireOutcome s T (.error .conflict)
  | expired (t : Server) (l : Lease) (hl : T request.leaseID = some l)
      (hlate : l.expiry ≤ s.clock) (hc : Closes sha limiter request.leaseID l .expired s t) :
      AcquireOutcome t
        (update T request.leaseID (some { l with state := .expired })) (.error .expired)
  | replay (t : Server) (a : Admission) (hp : Purges limiter hy s t)
      (ha : Admitted request hy true a) :
      AcquireOutcome t T (.ok a)
  | denied (t : Server) (a : Admission) (hp : Purges limiter hy s t)
      (hi : a.idempotent = false) (hr : a.rejection.isSome) :
      AcquireOutcome t T (.ok a)
  | admitted (t : Server) (a : Admission) (hnow : s.clock ≤ lastClock)
      (hl : T request.leaseID = none)
      (hroom : ∀ pair ∈ hy.scopes.zip policies,
        (T.occupants s.clock pair.1).encard + 1 ≤ pair.2.concurrency.hard)
      (hw : Writes sha limiter request.leaseID (newLease limiter hy s.clock hnow) s t)
      (ha : Admitted request hy false a) :
      AcquireOutcome t
        (update T request.leaseID (some (newLease limiter hy s.clock hnow))) (.ok a)

variable (limiter hy s) in
theorem purges_purge : Purges limiter hy s (purge s.clock (limiter.keys hy.scopes) s) where
  sets := by
    rw [purge_eq]
    exact zsetsChange_eachZset s (keys_nodup limiter hy) (fun z => z.removeUpTo s.clock) id
  hashes := purge_hashes

theorem zip_keys (limiter : RedisConcurrencyLimiter) (scopes : List Scope)
    (policies : List Effective) :
    (limiter.keys scopes).zip (policies.map fun policy => policy.concurrency.hard) =
      (scopes.zip policies).map fun pair =>
        (scopeKey limiter.keyPrefix pair.1,pair.2.concurrency.hard) := by
  rw [RedisConcurrencyLimiter.keys,zip_map]
  rfl

theorem map_fst_zip_keys (hb : Bound policies) (limiter : RedisConcurrencyLimiter)
    (hy : Hierarchy) :
    ((limiter.keys hy.scopes).zip (policies.map fun policy => policy.concurrency.hard)).map
      Prod.fst = limiter.keys hy.scopes := by
  apply map_fst_zip
  simp [RedisConcurrencyLimiter.keys,hy.scopes_length,hb.length]

section
variable (h : Represents sha limiter.keyPrefix T s)
include h

theorem Represents.score_none (hl : ∀ l, T id = some l → l.state ≠ .active) {scope : Scope}
    (hv : scope.validate) :
    ((s.zset (scopeKey limiter.keyPrefix scope)).removeUpTo s.clock).score id = none := by
  rw [ZSet.score_removeUpTo,Option.filter_eq_none_iff]
  intro e hscore
  simp only [decide_eq_true_eq]
  intro hlt
  obtain ⟨l,hT,hstate,-⟩ := (h.members scope hv id e hlt).mp hscore
  exact hl l hT hstate

theorem Represents.score_some (hl : T id = some l) (hlive : l.Live s.clock) :
    ∀ key ∈ limiter.keys l.hierarchy.scopes,
    (s.zset key).score id = some l.expiry := by
  intro key hkey
  obtain ⟨scope,hscope,rfl⟩ := mem_map.mp hkey
  exact (h.members scope (l.hierarchy.scopes_valid scope hscope) id _ hlive.2).mpr
    ⟨l,hl,hlive.1,rfl,hscope⟩

theorem Represents.purged_card_le :
    ∀ key ∈ limiter.keys hy.scopes, ((s.zset key).removeUpTo s.clock).card ≤ maximumValue := by
  intro key hkey
  obtain ⟨scope,hscope,rfl⟩ := mem_map.mp hkey
  exact (ZSet.card_removeUpTo_le _).trans (h.card scope (hy.scopes_valid scope hscope))

theorem Represents.hash_none (hl : T id = none) :
    s.hash (leaseKey limiter.keyPrefix id) = fun _ => none := by
  rw [h.records,hl]
  rfl

theorem examine_fresh (hb : Bound policies) (hl : T id = none) (hy : Hierarchy) :
    examine id s.clock 1 ((limiter.keys hy.scopes).zip
        (policies.map fun policy => policy.concurrency.hard)) s =
      (purge s.clock (limiter.keys hy.scopes) s,.ok ((hy.scopes.zip policies).map fun pair =>
        occupancy s.clock s (scopeKey limiter.keyPrefix pair.1,pair.2.concurrency.hard))) := by
  have hfst := map_fst_zip_keys hb limiter hy
  rw [examine_eq (by rw [hfst]; exact keys_nodup limiter hy),hfst,zip_keys,map_map]
  · rfl
  · intro entry hentry
    rw [zip_keys] at hentry
    obtain ⟨pair,hpair,rfl⟩ := mem_map.mp hentry
    exact concurrency_hard hb (of_mem_zip hpair).2
  · intro entry hentry
    rw [zip_keys] at hentry
    obtain ⟨pair,hpair,rfl⟩ := mem_map.mp hentry
    exact h.score_none (by simp [hl]) (hy.scopes_valid pair.1 (of_mem_zip hpair).1)

end

variable (sha) in
theorem hsetAll_fields {key : String} {limit : ℕ} (hempty : s.hash key = fun _ => none)
    (hlimit : s.clock < limit) (hstate : l.state = .active) :
    (hsetAll key [("state","active"),("fingerprint",redisScopeFingerprint sha l.hierarchy.scopes),
        ("expiry_ms",l.expiry.repr)] s).pexpireatHash key limit =
      s.storeHash key ⟨l.fields sha,some limit⟩ := by
  have hfields : update (update (update (s.hash key) "state" (some "active")) "fingerprint"
      (some (redisScopeFingerprint sha l.hierarchy.scopes))) "expiry_ms"
      (some l.expiry.repr) = l.fields sha := by
    funext field
    rw [hempty,Lease.fields,hstate]
    simp only [update_apply]
    split_ifs <;> simp_all [text]
  simp only [hsetAll,foldl_cons,foldl_nil,hset,hash_storeHash,hashExpiry_storeHash,
    storeHash_storeHash,hfields,pexpireatHash_storeHash hlimit]

variable (limiter hy s) in
/-- The counts of an admission. -/
def countsAfter : List ℕ :=
  hy.scopes.map fun scope =>
    ((s.zset (scopeKey limiter.keyPrefix scope)).removeUpTo s.clock).card + 1

variable (limiter hy s policies) in
/-- Every scope has room for one more lease. -/
def HasRoom : Prop := ∀ pair ∈ hy.scopes.zip policies,
  (occupancy s.clock s (scopeKey limiter.keyPrefix pair.1,pair.2.concurrency.hard)).count <
    pair.2.concurrency.hard

theorem admitted_counts (h : Represents sha limiter.keyPrefix T s)
    (hroom : HasRoom limiter hy s policies) : ∀ pair ∈ hy.scopes.zip policies,
      (T.occupants s.clock pair.1).encard + 1 ≤ pair.2.concurrency.hard := by
  intro pair hpair
  have hlt := hroom pair hpair
  rw [← h.card_occupants (hy.scopes_valid pair.1 (of_mem_zip hpair).1)]
  exact_mod_cast hlt

theorem countsAfter_bounds (hb : Bound policies) (hroom : HasRoom limiter hy s policies) :
    (∀ count ∈ countsAfter limiter hy s, 1 ≤ count ∧ count ≤ maximumValue) ∧
      ∀ pair ∈ (countsAfter limiter hy s).zip policies, pair.1 ≤ pair.2.concurrency.hard := by
  have hle : ∀ pair ∈ (countsAfter limiter hy s).zip policies,
      pair.1 ≤ pair.2.concurrency.hard := by
    intro pair hpair
    rw [countsAfter,zip_map_left] at hpair
    obtain ⟨pair,hmem,rfl⟩ := mem_map.mp hpair
    exact hroom pair hmem
  refine ⟨fun count hcount => ⟨?_,?_⟩,hle⟩
  · obtain ⟨scope,-,rfl⟩ := mem_map.mp hcount
    omega
  · obtain ⟨k,hk,rfl⟩ := getElem_of_mem hcount
    have hk' : k < policies.length := by
      rw [hb.length,← hy.scopes_length]
      simpa [countsAfter] using hk
    have hmem : ((countsAfter limiter hy s)[k],policies[k]) ∈
        (countsAfter limiter hy s).zip policies := by
      rw [← getElem_zip (h := by simp [hk,hk'])]
      exact getElem_mem _
    exact (hle _ hmem).trans (concurrency_hard hb (getElem_mem hk')).2

theorem countsAfter_cast (hb : Bound policies) (limiter : RedisConcurrencyLimiter)
    (hy : Hierarchy) (s : Server) :
    (((hy.scopes.zip policies).map fun pair => occupancy s.clock s
        (scopeKey limiter.keyPrefix pair.1,pair.2.concurrency.hard)).map
        fun o => (o.count + 1 : ℤ)) =
      (countsAfter limiter hy s).map fun count : ℕ => (count : ℤ) := by
  have hfst : (hy.scopes.zip policies).map Prod.fst = hy.scopes :=
    map_fst_zip (by rw [hy.scopes_length,hb.length])
  rw [countsAfter,map_map,map_map]
  conv_rhs => rw [← hfst,map_map]
  rfl

variable (sha limiter hy T s request policies) in
/-- The script has one of the outcomes, with the result that is read from its reply. -/
def Acquires : Prop :=
  ∃ T', AcquireOutcome sha limiter request hy policies T s
    (acquireScript sha limiter request hy.scopes policies s).1 T'
    (acquireResult request hy.scopes policies
      (acquireScript sha limiter request hy.scopes policies s).2)

section
variable (h : Represents sha limiter.keyPrefix T s)
include h

theorem acquireScript_admits (hb : Bound policies) (hl : T request.leaseID = none) (hy : Hierarchy)
    (hroom : HasRoom limiter hy s policies) :
    Writes sha limiter request.leaseID (newLease limiter hy s.clock h.clock) s
      (acquireScript sha limiter request hy.scopes policies s).1 ∧
    ∃ a, acquireResult request hy.scopes policies
      (acquireScript sha limiter request hy.scopes policies s).2 = .ok a ∧
      Admitted request hy false a := by
  have hempty := h.hash_none hl
  have hfull : firstFull 1 ((hy.scopes.zip policies).map fun pair =>
      occupancy s.clock s (scopeKey limiter.keyPrefix pair.1,pair.2.concurrency.hard)) = none := by
    rw [firstFull_eq_none]
    intro o ho
    obtain ⟨pair,hpair,rfl⟩ := mem_map.mp ho
    exact hroom pair hpair
  have hlt : s.clock < s.clock + limiter.leaseMS := by
    have := limiter.lease_ge
    simp only [minimumRedisConcurrencyLeaseMS] at this
    omega
  have hlimit : s.clock < s.clock + limiter.leaseMS + limiter.retainMS := by omega
  obtain ⟨a,ha,hadm⟩ := acquireResult_allowed hy request false hlt
    (by simp [countsAfter,hy.scopes_length]) hb.length (countsAfter_bounds hb hroom).1
    fun _ => (countsAfter_bounds hb hroom).2
  unfold acquireScript redisConcurrencyAcquireScript
  simp only [hempty,time_clock,examine_fresh h hb hl hy,hfull]
  rw [addMember_eq (by simpa using hlimit)]
  generalize hadded : (purge s.clock (limiter.keys hy.scopes) s).eachZset (limiter.keys hy.scopes)
    (fun z => z.add request.leaseID (s.clock + limiter.leaseMS))
    (fun _ => some (s.clock + limiter.leaseMS + limiter.retainMS)) = u
  have hclock : u.clock = s.clock := by simp [← hadded]
  have hhashes : u.hashes = s.hashes := by simp [← hadded]
  have hchg : s.ZsetsChange u (limiter.keys hy.scopes)
      (fun z => (z.removeUpTo s.clock).add request.leaseID (s.clock + limiter.leaseMS))
      (fun _ => some (s.clock + limiter.leaseMS + limiter.retainMS)) := by
    rw [← hadded]
    exact (purges_purge limiter hy s).sets.trans
      (zsetsChange_eachZset _ (keys_nodup limiter hy) _ _) (.inr ⟨_,rfl⟩)
  have hwrite := hsetAll_fields sha (s := u) (l := newLease limiter hy s.clock h.clock)
    (by rw [hash_congr hhashes,hempty]) (by rwa [hclock]) rfl
  simp only [newLease] at hwrite
  rw [hwrite,countsAfter_cast hb]
  simp only [Bool.false_eq_true,if_false] at ha
  exact ⟨⟨hchg.storeHash _ _,by rw [storeHash,hhashes]; rfl⟩,a,ha,hadm⟩

theorem acquireScript_denies (hb : Bound policies) (hl : T request.leaseID = none) (hy : Hierarchy)
    {index : ℕ} {full : Occupancy}
    (hfull : firstFull 1 ((hy.scopes.zip policies).map fun pair => occupancy s.clock s
      (scopeKey limiter.keyPrefix pair.1,pair.2.concurrency.hard)) = some (index,full)) :
    Purges limiter hy s (acquireScript sha limiter request hy.scopes policies s).1 ∧
    ∃ a, acquireResult request hy.scopes policies
      (acquireScript sha limiter request hy.scopes policies s).2 = .ok a ∧
      a.idempotent = false ∧ a.rejection.isSome := by
  have hempty := h.hash_none hl
  unfold acquireScript redisConcurrencyAcquireScript
  simp only [hempty,time_clock,examine_fresh h hb hl hy,hfull]
  obtain ⟨k,rfl,hget,hcount⟩ := firstFull_eq_some hfull
  rw [getElem?_map,Option.map_eq_some_iff] at hget
  obtain ⟨⟨scope,policy⟩,hzip,rfl⟩ := hget
  obtain ⟨-,hpol⟩ := getElem?_zip_eq_some.mp hzip
  have hhard := concurrency_hard hb (mem_of_getElem? hpol)
  obtain ⟨x,hx,hlt⟩ := first_removeUpTo (show 0 < ((s.zset (scopeKey limiter.keyPrefix
    scope)).removeUpTo s.clock).card from lt_of_lt_of_le hhard.1 hcount)
  have hearliest : (occupancy s.clock s (scopeKey limiter.keyPrefix scope,
      policy.concurrency.hard)).earliest.getD 0 = x.2 := by
    simp only [occupancy] at hcount ⊢
    rw [if_pos hcount,hx]
    rfl
  have hdenied := acquireResult_denied hy request hb.length hpol rfl hhard hcount hlt
  rw [hearliest,show (occupancy s.clock s (scopeKey limiter.keyPrefix scope,
    policy.concurrency.hard)).hard = policy.concurrency.hard from rfl]
  exact ⟨purges_purge limiter hy s,hdenied⟩

theorem acquireScript_fresh (hb : Bound policies) (hl : T request.leaseID = none) (hy : Hierarchy) :
    Acquires sha limiter hy T s request policies := by
  unfold Acquires
  cases hfull : firstFull 1 ((hy.scopes.zip policies).map fun pair =>
      occupancy s.clock s (scopeKey limiter.keyPrefix pair.1,pair.2.concurrency.hard)) with
  | some found =>
    obtain ⟨hpurges,a,ha,hi,hr⟩ := acquireScript_denies h hb hl hy hfull
    rw [ha]
    exact ⟨T,.denied _ a hpurges hi hr⟩
  | none =>
    have hroom : ∀ pair ∈ hy.scopes.zip policies, (occupancy s.clock s
        (scopeKey limiter.keyPrefix pair.1,pair.2.concurrency.hard)).count <
        pair.2.concurrency.hard := fun pair hpair =>
      firstFull_eq_none.mp hfull _ (mem_map_of_mem hpair)
    obtain ⟨hwrites,a,ha,hadm⟩ := acquireScript_admits h hb hl hy hroom
    rw [ha]
    exact ⟨_,.admitted _ a h.clock hl (admitted_counts h hroom) hwrites hadm⟩

theorem closes_hset (hl : T id = some l) {u : Server} {f : ZSet → ZSet}
    (hsets : s.ZsetsChange u (limiter.keys l.hierarchy.scopes) f fun e => e)
    (hhashes : u.hashes = s.hashes) (hcard : ∀ z, (f z).card ≤ z.card)
    (hscore : ∀ z m e, s.clock < e → ((f z).score m = some e ↔ m ≠ id ∧ z.score m = some e))
    (state : LeaseState) : Closes sha limiter id l state s
      (u.hset (leaseKey limiter.keyPrefix id) "state" state.text) where
  sets := ⟨f,hsets.storeHash _ _,hcard,hscore⟩
  hashes := by
    have hhash : u.hash (leaseKey limiter.keyPrefix id) = l.fields sha := by
      rw [hash_congr hhashes,h.records,hl]
      rfl
    have hexp : u.hashExpiry (leaseKey limiter.keyPrefix id) = some l.limit := by
      rw [hashExpiry,hhashes,← hashExpiry,h.limits id l hl]
    rw [hset,hhash,hexp,Lease.fields_close,storeHash,hhashes]

theorem closes_remove (hl : T id = some l) : Closes sha limiter id l .expired s
      ((removeMember id (limiter.keys l.hierarchy.scopes) s).hset (leaseKey limiter.keyPrefix id)
        "state" "expired") := by
  apply closes_hset h hl (f := fun z => z.remove id) _ _ _ _ .expired
  · rw [removeMember_eq]
    exact zsetsChange_eachZset s (keys_nodup limiter l.hierarchy) (fun z => z.remove id) _
  · rw [removeMember_eq,eachZset_hashes]
  · exact fun z => ZSet.card_remove_le
  · intro z m e _
    by_cases hm : m = id <;> simp [hm]

theorem Represents.hash_eq (hl : T id = some l) :
    s.hash (leaseKey limiter.keyPrefix id) = l.fields sha := by
  rw [h.records,hl]
  rfl

end

theorem Lease.fields_state (l : Lease) : l.fields sha "state" = some l.state.text := rfl

theorem acquireScript_known (hsha : CollisionFree sha)
    (h : Represents sha limiter.keyPrefix T s) (hb : Bound policies)
    (hl : T request.leaseID = some l) : Acquires sha limiter hy T s request policies := by
  unfold Acquires acquireScript redisConcurrencyAcquireScript
  simp only [h.hash_eq hl,Lease.fields_state,readLease_fields,time_clock]
  split
  · rw [acquireResult_conflict]
    exact ⟨T,.conflict l hl⟩
  · rename_i hprint
    have hhy : l.hierarchy = hy := redisScopeFingerprint_inj hsha (not_not.mp hprint)
    subst hhy
    cases hstate : l.state with
    | released =>
      refine ⟨T,?_⟩
      simp only [text,ne_eq,String.reduceEq,not_false_eq_true,if_true,true_or,
        acquireResult_conflict]
      exact .conflict l hl
    | expired =>
      refine ⟨T,?_⟩
      simp only [text,ne_eq,String.reduceEq,not_false_eq_true,if_true,or_true,
        acquireResult_conflict]
      exact .conflict l hl
    | active =>
      simp only [text,ne_eq,not_true_eq_false,if_false]
      split
      · rename_i hlate
        rw [acquireResult_expired]
        exact ⟨_,.expired _ l hl hlate (closes_remove h hl)⟩
      · rename_i hlive
        have hscores := h.score_some hl ⟨hstate,not_le.mp hlive⟩
        have hcounts : ∀ count ∈ (limiter.keys l.hierarchy.scopes).map fun key =>
            ((s.zset key).removeUpTo s.clock).card, 1 ≤ count ∧ count ≤ maximumValue := by
          intro count hcount
          obtain ⟨key,hkey,rfl⟩ := mem_map.mp hcount
          refine ⟨?_,h.purged_card_le key hkey⟩
          -- the lease itself is one of the members
          apply ZSet.card_pos (m := request.leaseID) (e := l.expiry)
          simp [hscores key hkey,Option.filter,not_le.mp hlive]
        obtain ⟨a,ha,hadm⟩ := acquireResult_allowed l.hierarchy request true
          (not_le.mp hlive) (by simp [RedisConcurrencyLimiter.keys,l.hierarchy.scopes_length])
          hb.length hcounts (by simp)
        rw [checkMembers_eq (keys_nodup limiter l.hierarchy) (not_le.mp hlive) hscores]
        simp only [if_true] at ha
        simp only [ha]
        exact ⟨T,.replay _ a (purges_purge limiter l.hierarchy s) hadm⟩

variable (request) in
theorem acquireScript_outcome (hsha : CollisionFree sha)
    (h : Represents sha limiter.keyPrefix T s) (hb : Bound policies) (hy : Hierarchy) :
    Acquires sha limiter hy T s request policies := by
  cases hl : T request.leaseID with
  | none => exact acquireScript_fresh h hb hl hy
  | some l => exact acquireScript_known hsha h hb hl

end Limits.Concurrency
