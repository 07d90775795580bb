import AiGateway.Limits.Tpm.Ledger
import AiGateway.Limits.Tpm.Limiter

/-! What one evaluation of a TPM script does to the ledger of its window, and what the call makes of
the reply. -/
namespace Limits.Tpm
open Redis Relational Ledger Server Option List Hierarchy

/-- What validation establishes about a reserve request. -/
structure Admissible (request : ReserveRequest) (policies : List Effective) : Prop where
  positive : 1 ≤ request.plan.reservedTokens
  bounded : request.plan.reservedTokens ≤ maximumValue
  length : policies.length = requiredScopeCount
  valid : ∀ policy ∈ policies, policy.validate

variable {scopes : List Scope} {hard expires k : ℕ} {t : Server}

theorem admissible_of_valid {request : ReserveRequest}
    {policies : List Effective} (hplan : request.plan.validate)
    (hbinds : normalizeRPMBindings request.bindings = some (scopes,policies)) :
    ∃ hy : Hierarchy, scopes = hy.scopes ∧ Admissible request policies := by
  obtain ⟨⟨hy,rfl⟩,hlen,hvalid⟩ := normalizeRPMBindings_eq_some hbinds
  simp only [TPMReservationPlan.validate,Bool.and_eq_true,decide_eq_true_eq] at hplan
  exact ⟨hy,rfl,by omega,by omega,hlen,hvalid⟩

theorem tpm_bounds {policy : Effective} (h : policy.validate) :
    1 ≤ policy.tpm.soft ∧ policy.tpm.soft ≤ policy.tpm.hard ∧ policy.tpm.hard ≤ maximumValue :=
  threshold_bounds h (by simp)

section
variable {sha : String → String} {L : Ledger} {hash : Hash}

/-- The counters the scripts read, in the order of the scopes. -/
def Ledger.counts (L : Ledger) (scopes : List Scope) : List ℕ :=
  scopes.map fun scope => (L.usage scope).toNat

variable {scopes : List Scope}

theorem readCounts_eq (henc : Encodes sha L hash) {policies : List Effective}
    (hlen : policies.length = scopes.length) (hscopes : ∀ scope ∈ scopes, scope.validate)
    (hvalid : ∀ policy ∈ policies, policy.validate) (index : ℕ) :
    readCounts hash index (reserveArguments scopes policies) = .ok (L.counts scopes) := by
  induction scopes generalizing policies index with
  | nil => rfl
  | cons scope scopes ih =>
    cases policies with
    | nil => simp at hlen
    | cons policy policies =>
      have hb := tpm_bounds (hvalid policy mem_cons_self)
      have hrest := ih (show policies.length = scopes.length by simpa using hlen)
        (fun s hs => hscopes s (mem_cons_of_mem scope hs))
        (fun p hp => hvalid p (mem_cons_of_mem policy hp)) (index + 1)
      have hlimits : ¬(policy.tpm.hard < 1 ∨ policy.tpm.hard > maximumValue ∨
          policy.tpm.soft < 1 ∨ policy.tpm.soft > policy.tpm.hard) := by omega
      simp only [reserveArguments] at hrest
      simp only [reserveArguments,zip_cons_cons,map_cons,readCounts,hlimits,
        if_false,henc.readCount (hscopes scope mem_cons_self),hrest]
      rfl

theorem readPresentCounts_eq (henc : Encodes sha L hash)
    (hscopes : ∀ scope ∈ scopes, scope.validate ∧ L.Covers scope) (index : ℕ) :
    readPresentCounts hash index (scopes.map redisRPMField) = .ok (L.counts scopes) := by
  induction scopes generalizing index with
  | nil => rfl
  | cons scope scopes ih =>
    obtain ⟨hv,hc⟩ := hscopes scope mem_cons_self
    have hread := henc.readCount hv
    have hrest := ih (fun s hs => hscopes s (mem_cons_of_mem scope hs)) (index + 1)
    rw [henc.counters scope hv hc] at hread
    simp only [map_cons,readPresentCounts,henc.counters scope hv hc,hread,hrest]
    rfl

theorem reserveArguments_fields {policies : List Effective}
    (hlen : policies.length = scopes.length) :
    (reserveArguments scopes policies).map ScopeArgument.field = scopes.map redisRPMField := by
  rw [reserveArguments,List.map_map]
  have hfst : (scopes.zip policies).map Prod.fst = scopes := List.map_fst_zip (by omega)
  conv_rhs => rw [← hfst]
  rw [List.map_map]
  rfl

variable {requested index : ℕ}

theorem firstDenied_eq_some {scopes : List ScopeArgument} {counts : List ℕ} {i count : ℕ}
    (h : firstDenied requested index (scopes.zip counts) = some (i,count,hard)) :
    ∃ k scope, i = index + k ∧ scopes[k]? = some scope ∧ scope.hard = hard ∧
      exceeds count requested hard := by
  induction scopes generalizing counts index with
  | nil => simp [firstDenied] at h
  | cons scope scopes ih =>
    cases counts with
    | nil => simp [firstDenied] at h
    | cons c counts =>
      simp only [zip_cons_cons,firstDenied] at h
      split at h
      · rename_i hexceeds
        cases h
        exact ⟨0,scope,rfl,rfl,rfl,hexceeds⟩
      · obtain ⟨k,found,rfl,hfound,hrest⟩ := ih h
        exact ⟨k + 1,found,by omega,by simpa using hfound,hrest⟩

theorem firstDenied_eq_none {policies : List Effective}
    (h : firstDenied requested index ((reserveArguments scopes policies).zip (L.counts scopes)) =
      none) : ∀ pair ∈ scopes.zip policies, L.usage pair.1 + requested ≤ pair.2.tpm.hard := by
  induction scopes generalizing policies index with
  | nil => simp
  | cons scope scopes ih =>
    cases policies with
    | nil => simp
    | cons policy policies =>
      simp only [reserveArguments,counts,zip_cons_cons,map_cons,firstDenied] at h
      split at h
      · cases h
      · rename_i hexceeds
        have hfits := exceeds_eq_false.mp (by simpa using hexceeds)
        have hnn := L.usage_nonneg scope
        intro pair hpair
        rcases mem_cons.mp (by simpa using hpair) with rfl | hmem
        · simp only
          omega
        · exact ih h pair hmem

end

/-! Parsing what the scripts reply. -/

section
variable {response : ParsedReserve} {window now reset : ℕ}

section
variable (h : now < reset)
include h

theorem assignReserveTime_none :
    assignReserveTime (.int window) (.int now) (.int reset) none response =
      some { response with window := window, nowMS := now, resetMS := reset } := by
  have hok : ¬((window : ℤ) < 0 ∨ (now : ℤ) < 0 ∨ (reset : ℤ) ≤ now) := by omega
  simp only [assignReserveTime,redisRPMInt64_int,bind_eq_bind,bind_some,hok,if_false]
  rfl

theorem assignReserveTime_some (he : reset < expires) :
    assignReserveTime (.int window) (.int now) (.int reset) (some (.int expires)) response =
      some { response with
        window := window, nowMS := now, resetMS := reset, expiresMS := expires } := by
  have hok : ¬((window : ℤ) < 0 ∨ (now : ℤ) < 0 ∨ (reset : ℤ) ≤ now) := by omega
  have hlater : ¬(expires : ℤ) ≤ reset := by omega
  simp only [assignReserveTime,redisRPMInt64_int,bind_eq_bind,bind_some,hok,if_false,hlater]
  rfl

theorem parse_denied {requested count : ℕ} (hk : k < requiredScopeCount) (hpos : 1 ≤ hard)
    (hmax : hard ≤ maximumValue) (hexceeds : exceeds count requested hard) :
    parseRedisTPMReserveResponse (.ints [0,(1 + k : ℕ),count,hard,window,now,reset])
      requested = some {
        code := 0, scopeIndex := k, count := count, hard := hard
        window := window, nowMS := now, resetMS := reset } := by
  have hok : ¬(((1 + k : ℕ) : ℤ) < 1 ∨ ((1 + k : ℕ) : ℤ) > requiredScopeCount ∨ hard = 0 ∨
      hard > maximumValue ∨ exceeds count requested hard = false) := by
    simp only [hexceeds,Bool.true_eq_false,or_false]
    omega
  have hindex : ((1 + k : ℕ) : ℤ) - 1 = k := by omega
  simp only [parseRedisTPMReserveResponse,Value.ints,map_cons,map_nil,
    redisRPMInt64_int,bind_eq_bind,bind_some,assignDenial,redisRPMUint64_int,
    hok,if_false,hindex,assignReserveTime_none h]
  rfl

theorem parse_allowed {requested : ℕ} {idempotent : Bool} {counts : List ℕ} (he : reset < expires)
    (hlen : counts.length = requiredScopeCount)
    (hcounts : ∀ count ∈ counts, 1 ≤ count ∧ count ≤ maximumValue) :
    parseRedisTPMReserveResponse (.ints ([1,(window : ℤ),now,reset,expires,
        if idempotent then 1 else 0] ++ counts.map fun count : ℕ => (count : ℤ))) requested =
      some {
        code := 1, window := window, nowMS := now, resetMS := reset, expiresMS := expires
        idempotent := idempotent, counts := counts } := by
  change assignAllowed _ { code := 1 } = _
  unfold assignAllowed
  rw [if_neg (by simp [hlen,requiredScopeCount])]
  simp only [List.append,List.map_cons,assignReserveTime_some h he,bind_eq_bind,
    bind_some,redisRPMInt64_int,flag_range,if_false,parseCounts_ints hcounts,flag_beq]
  rfl

end
end

/-! Reserving. -/

section
variable {sha : String → String} {limiter : RedisTPMLimiter} {request : ReserveRequest}
  {hy : Hierarchy} {policies : List Effective} {window : ℤ} {s : Server} {L : Ledger}
variable (request hy) in
/-- The hold this request asks for. -/
def requestedHold : Hold :=
  ⟨request.reservationID,hy,request.plan.reservedTokens,none⟩

/-- The hash key of one round. -/
def RedisTPMLimiter.key (limiter : RedisTPMLimiter) (window : ℤ) : String :=
  windowKey limiter.keyPrefix window

theorem reserveScript_mismatch (h : (serverWindow s : ℤ) ≠ window) :
    reserveScript sha limiter request hy.scopes policies window s =
      (s,some (.ints [2,serverWindow s,s.clock,resetMS s])) := by
  rw [reserveScript,redisTPMReserveScript,if_pos h,← time_clock]

theorem hincrbyAll_scopes {key : String} {delta : ℤ} (henc : Encodes sha L (s.hash key))
    (h₀ : ∀ scope ∈ hy.scopes, 0 ≤ L.usage scope + delta)
    (h₁ : ∀ scope ∈ hy.scopes, L.usage scope + delta ≤ maximumValue) :
    s.hincrbyAll key hy.fields delta = (s.storeHash key ⟨fun f => if f ∈ hy.fields then
        some (fieldValue (s.hash key) f + delta).toNat.repr else s.hash key f,s.hashExpiry key⟩,
        some (hy.scopes.map fun scope => L.usage scope + delta)) := by
  have hmax : (maximumValue : ℤ) < 2 ^ 63 := by decide
  -- every field of the loop is the name of a scope, whose value is the ledger's usage
  have hfield (P : ℤ → Prop) (hP : ∀ scope ∈ hy.scopes, P (L.usage scope)) :
      ∀ f ∈ hy.fields, P (fieldValue (s.hash key) f) := by
    intro f hf
    obtain ⟨scope,hscope,rfl⟩ := mem_map.mp hf
    rw [henc.fieldValue_eq (hy.scopes_valid scope hscope)]
    exact hP scope hscope
  have hcounts : ∀ f ∈ hy.fields, Counts (s.hash key) f (fieldValue (s.hash key) f) := by
    intro f hf
    obtain ⟨scope,hscope,rfl⟩ := mem_map.mp hf
    have hv := hy.scopes_valid scope hscope
    rw [fieldValue,henc.readCount hv]
    exact henc.counts hv
  have hlt := hfield (fun n => n < 2 ^ 63) fun scope _ => lt_of_le_of_lt (L.usage_le scope) hmax
  have hnn := hfield (fun n => 0 ≤ n + delta) h₀
  have hbound := hfield (fun n => n + delta < 2 ^ 63) fun scope hs =>
    lt_of_le_of_lt (h₁ scope hs) hmax
  have hne : hy.fields ≠ [] := by simp [fields,scopes]
  rw [hincrbyAll_eq hne hy.fields_nodup hcounts hlt hnn hbound]
  congr 2
  rw [fields,List.map_map]
  apply List.map_congr_left
  intro scope hscope
  simp [henc.fieldValue_eq (hy.scopes_valid scope hscope)]

section
variable (hadm : Admissible request policies)
include hadm

/-- In the server's own minute the script looks the reservation up among the records. -/
theorem reserveScript_live (henc : Encodes sha L (s.hash (limiter.key (serverWindow s)))) :
    reserveScript sha limiter request hy.scopes policies (serverWindow s) s =
      match (L.find request.reservationID).map (Hold.text sha) with
      | some existing =>
          if existing ≠ (requestedHold request hy).text sha then (s,some (.ints [4]))
          else (s,some (.ints ([1,(serverWindow s : ℤ),s.clock,resetMS s,
            (resetMS s + limiter.retentionMS : ℕ),1] ++
            (L.counts hy.scopes).map fun count : ℕ => (count : ℤ))))
      | none => reserveTokens (limiter.key (serverWindow s)) limiter.retentionMS
          (redisTPMReservationField request.reservationID)
          ((requestedHold request hy).text sha) request.plan.reservedTokens
          (reserveArguments hy.scopes policies) (L.counts hy.scopes) s := by
  have hrange : ¬(request.plan.reservedTokens < 1 ∨
    request.plan.reservedTokens > maximumValue) := by
    have := hadm.positive
    have := hadm.bounded
    omega
  have hcounts := readCounts_eq henc (hadm.length.trans hy.scopes_length.symm) hy.scopes_valid
    hadm.valid 1
  unfold RedisTPMLimiter.key at henc hcounts ⊢
  rw [reserveScript,redisTPMReserveScript,if_neg (by simp),if_neg hrange,hcounts]
  simp only [henc.records,time_clock]
  rfl

theorem fits_of_firstDenied (hfits : firstDenied request.plan.reservedTokens 1
      ((reserveArguments hy.scopes policies).zip (L.counts hy.scopes)) = none) :
    ∀ scope ∈ hy.scopes, L.usage scope + request.plan.reservedTokens ≤ maximumValue := by
  intro scope hscope
  have hlen := hadm.length.trans hy.scopes_length.symm
  obtain ⟨i,hi,rfl⟩ := mem_iff_getElem.mp hscope
  have hmem : (hy.scopes[i],policies[i]) ∈ hy.scopes.zip policies := by
    rw [← getElem_zip (h := by simp [hlen,hi])]
    exact getElem_mem _
  have hfit := firstDenied_eq_none hfits _ hmem
  have hpol := tpm_bounds (hadm.valid _ (of_mem_zip hmem).2)
  simp only at hfit
  omega

theorem reserveTokens_admitted (henc : Encodes sha L (s.hash (limiter.key (serverWindow s))))
    (hfits : firstDenied request.plan.reservedTokens 1
      ((reserveArguments hy.scopes policies).zip (L.counts hy.scopes)) = none)
    (field text : String) :
    reserveTokens (limiter.key (serverWindow s)) limiter.retentionMS field text
      request.plan.reservedTokens (reserveArguments hy.scopes policies) (L.counts hy.scopes) s =
      (s.storeHash (limiter.key (serverWindow s))
        ⟨rewritten (s.hash (limiter.key (serverWindow s))) hy.fields request.plan.reservedTokens
          field text,some (resetMS s + limiter.retentionMS)⟩,
        some (.ints ([1,(serverWindow s : ℤ),s.clock,resetMS s,
          (resetMS s + limiter.retentionMS : ℕ),0] ++
          hy.scopes.map fun scope => L.usage scope + request.plan.reservedTokens))) := by
  have hlen := hadm.length.trans hy.scopes_length.symm
  have hnn : ∀ scope ∈ hy.scopes, 0 ≤ L.usage scope + request.plan.reservedTokens := by
    intro scope _
    have := L.usage_nonneg scope
    omega
  have hbump := hincrbyAll_scopes henc hnn (fits_of_firstDenied hadm hfits)
  have hclock : s.clock < resetMS s + limiter.retentionMS := by
    have := clock_lt_resetMS s
    omega
  rw [reserveTokens,hfits,reserveArguments_fields hlen]
  rw [fields] at hbump
  simp only [hbump,time_clock,hset,hash_storeHash,
    hashExpiry_storeHash,storeHash_storeHash,pexpireatHash_storeHash hclock]
  rfl

end

/-! What the call makes of a reply to the reserve script. -/

theorem reserveStep_mismatch : reserveStep limiter request hy.scopes policies window
      (some (.ints [2,serverWindow s,s.clock,resetMS s])) = .retry (serverWindow s) := by
  simp [reserveStep,parseRedisTPMReserveResponse,Value.ints,
    assignReserveTime_none (clock_lt_resetMS s)]

theorem reserveStep_conflict :
    reserveStep limiter request hy.scopes policies window (some (.ints [4])) =
      .done (.error .conflict) := by
  simp [reserveStep,parseRedisTPMReserveResponse,Value.ints]

variable (limiter request hy window) in
/-- What a reservation of this request says, whichever counters it reports. -/
structure Describes (idempotent : Bool) (r : Reservation) : Prop where
  handle : r.handle = ⟨request.reservationID,window,hy.scopes,request.plan.reservedTokens⟩
  windowKey : r.windowKey = limiter.key window
  idempotent : r.idempotent = idempotent
  rejection : r.rejection = none

theorem reserveStep_allowed (hadm : Admissible request policies) (hclock : s.clock ≤ lastClock)
    (idempotent : Bool) {counts : List ℕ} (hlen : counts.length = requiredScopeCount)
    (hcounts : ∀ count ∈ counts, 1 ≤ count ∧ count ≤ maximumValue)
    (hhard : idempotent = false → ∀ pair ∈ counts.zip policies, pair.1 ≤ pair.2.tpm.hard) :
    ∃ r, reserveStep limiter request hy.scopes policies (serverWindow s)
      (some (.ints ([1,(serverWindow s : ℤ),s.clock,resetMS s,
        (resetMS s + limiter.retentionMS : ℕ),if idempotent then 1 else 0] ++
        counts.map fun count : ℕ => (count : ℤ)))) = .done (.ok r) ∧
      Describes limiter request hy (serverWindow s) idempotent r := by
  have hpos := limiter.retention_pos
  have hmax := limiter.retention_le
  have hreset := resetMS_le s
  have hlast : lastClock = 9007199000000000 := rfl
  have hchecked : (!idempotent) → ∀ pair ∈ counts.zip policies,
      pair.1 ≤ pair.2.tpm.hard := fun h => hhard (by simpa using h)
  obtain ⟨result,hres,-⟩ := allowedCounts_eq_some (hy.scopes_length.trans hlen.symm)
    (hadm.length.trans hlen.symm) hchecked
  have hok : ¬((serverWindow s : ℤ) ≠ serverWindow s ∨
      (resetMS s : ℤ) > 2 ^ 63 - 1 - limiter.retentionMS ∨
      ((resetMS s + limiter.retentionMS : ℕ) : ℤ) ≠ resetMS s + limiter.retentionMS) := by
    push_cast
    omega
  simp only [reserveStep,parse_allowed (clock_lt_resetMS s) (show resetMS s <
    resetMS s + limiter.retentionMS by omega) hlen hcounts,hok,if_false,
    allowedRedisTPMReservation,hres]
  exact ⟨_,rfl,rfl,rfl,rfl,rfl⟩

theorem reserveArguments_getElem? {scopes : List Scope} {argument : ScopeArgument}
    (h : (reserveArguments scopes policies)[k]? = some argument) :
    ∃ scope policy, scopes[k]? = some scope ∧ policies[k]? = some policy ∧
      argument.hard = policy.tpm.hard := by
  rw [reserveArguments,getElem?_map,map_eq_some_iff] at h
  obtain ⟨⟨scope,policy⟩,hzip,rfl⟩ := h
  obtain ⟨hscope,hpol⟩ := getElem?_zip_eq_some.mp hzip
  exact ⟨scope,policy,hscope,hpol,rfl⟩

variable (limiter s) in
theorem reserveStep_denied (hadm : Admissible request policies) {index count : ℕ}
    (h : firstDenied request.plan.reservedTokens 1
      ((reserveArguments hy.scopes policies).zip (L.counts hy.scopes)) = some (index,count,hard)) :
    ∃ r, reserveStep limiter request hy.scopes policies (serverWindow s)
      (some (.ints [0,index,count,hard,serverWindow s,s.clock,resetMS s])) = .done (.ok r) ∧
      r.idempotent = false ∧ r.rejection.isSome := by
  obtain ⟨k,argument,rfl,hargument,rfl,hexceeds⟩ := firstDenied_eq_some h
  obtain ⟨scope,policy,hscope,hpol,hhard⟩ := reserveArguments_getElem? hargument
  have hk : k < requiredScopeCount := by
    have := (List.getElem?_eq_some_iff.mp hpol).1
    rwa [hadm.length] at this
  have hbounds := tpm_bounds (hadm.valid policy (List.mem_of_getElem? hpol))
  rw [hhard] at hexceeds ⊢
  simp only [reserveStep,parse_denied (clock_lt_resetMS s) hk (by omega) (by omega) hexceeds,
    deniedRedisTPMReservation,Int.toNat_natCast,hscope,hpol,ne_eq,not_true_eq_false,
    if_false]
  exact ⟨_,rfl,rfl,rfl⟩

variable (sha limiter request hy) in
/-- Everything one evaluation of the reserve script can do, in terms of the ledger `L` that the
window's hash encodes: the state it leaves and how the call goes on. -/
inductive ReserveOutcome (policies : List Effective) (window : ℤ) (s : Server) (L : Ledger) :
    Server → ReserveStep → Prop
  | failed : ReserveOutcome policies window s L s (.done (.error (.evaluation "reserve")))
  | mismatch (hw : (serverWindow s : ℤ) ≠ window) :
      ReserveOutcome policies window s L s (.retry (serverWindow s))
  | conflict (hold : Hold) (hw : (serverWindow s : ℤ) = window)
      (hfind : L.find request.reservationID = some hold)
      (hne : hold.text sha ≠ (requestedHold request hy).text sha) :
      ReserveOutcome policies window s L s (.done (.error .conflict))
  | replay (r : Reservation) (hw : (serverWindow s : ℤ) = window)
      (hfind : L.find request.reservationID = some (requestedHold request hy))
      (hr : Describes limiter request hy window true r) :
      ReserveOutcome policies window s L s (.done (.ok r))
  | denied (r : Reservation) (hw : (serverWindow s : ℤ) = window)
      (hfind : L.find request.reservationID = none) (hi : r.idempotent = false)
      (hr : r.rejection.isSome) :
      ReserveOutcome policies window s L s (.done (.ok r))
  | admitted (next : ReserveStep) (hw : (serverWindow s : ℤ) = window)
      (hfind : L.find request.reservationID = none)
      (hfits : ∀ scope ∈ hy.scopes, L.usage scope + request.plan.reservedTokens ≤ maximumValue)
      (hnext : next = .done (.error (.evaluation "reserve")) ∨
        ∃ r, next = .done (.ok r) ∧ Describes limiter request hy window false r) :
      ReserveOutcome policies window s L
        (s.storeHash (limiter.key window) ⟨rewritten (s.hash (limiter.key window)) hy.fields
          request.plan.reservedTokens (redisTPMReservationField request.reservationID)
          ((requestedHold request hy).text sha),some (resetMS s + limiter.retentionMS)⟩) next

theorem ReserveOutcome.lost {next : ReserveStep}
    (h : ReserveOutcome sha limiter request hy policies window s L t next) :
    ReserveOutcome sha limiter request hy policies window s L t
      (.done (.error (.evaluation "reserve"))) := by
  cases h with
  | admitted _ hw hfind hfits _ => exact .admitted _ hw hfind hfits (.inl rfl)
  | _ => exact .failed

theorem counts_bounds {scope : Scope} (hpos : 1 ≤ L.usage scope) :
    1 ≤ (L.usage scope).toNat ∧ (L.usage scope).toNat ≤ maximumValue := by
  have := L.usage_le scope
  omega

variable (limiter) in
theorem replay_step (hadm : Admissible request policies) (hclock : s.clock ≤ lastClock)
    (hfind : L.find request.reservationID = some (requestedHold request hy)) :
    ∃ r, reserveStep limiter request hy.scopes policies (serverWindow s)
      (some (.ints ([1,(serverWindow s : ℤ),s.clock,resetMS s,
        (resetMS s + limiter.retentionMS : ℕ),1] ++
        (L.counts hy.scopes).map fun count : ℕ => (count : ℤ)))) = .done (.ok r) ∧
      Describes limiter request hy (serverWindow s) true r := by
  have hmem := (find_eq_some.mp hfind).1
  have hcounts : ∀ count ∈ L.counts hy.scopes, 1 ≤ count ∧ count ≤ maximumValue := by
    intro count hcount
    obtain ⟨scope,hscope,rfl⟩ := mem_map.mp hcount
    -- the reservation itself is part of the counter
    have hle := tokens_le_usage hmem hscope
    have hpos := hadm.positive
    simp only [requestedHold,Hold.tokens,getD_none] at hle
    exact counts_bounds (by omega)
  exact reserveStep_allowed hadm hclock true (by simp [counts,hy.scopes_length]) hcounts (by simp)

variable (limiter) in
theorem admitted_step (hadm : Admissible request policies) (hclock : s.clock ≤ lastClock)
    (hfits : firstDenied request.plan.reservedTokens 1
      ((reserveArguments hy.scopes policies).zip (L.counts hy.scopes)) = none) :
    ∃ r, reserveStep limiter request hy.scopes policies (serverWindow s)
      (some (.ints ([1,(serverWindow s : ℤ),s.clock,resetMS s,
        (resetMS s + limiter.retentionMS : ℕ),0] ++
        hy.scopes.map fun scope => L.usage scope + request.plan.reservedTokens))) =
        .done (.ok r) ∧ Describes limiter request hy (serverWindow s) false r := by
  have hpos := hadm.positive
  rw [map_toNat fun scope _ => by have := L.usage_nonneg scope; omega]
  apply reserveStep_allowed hadm hclock false (by simp [hy.scopes_length])
  · intro count hcount
    obtain ⟨scope,hscope,rfl⟩ := mem_map.mp hcount
    have := L.usage_nonneg scope
    have := fits_of_firstDenied hadm hfits scope hscope
    omega
  · intro _ pair hpair
    rw [zip_map_left] at hpair
    obtain ⟨⟨scope,policy⟩,hzip,rfl⟩ := mem_map.mp hpair
    have := firstDenied_eq_none hfits _ hzip
    have := L.usage_nonneg scope
    simp only [Prod.map_apply,id_eq] at *
    omega

variable (hy) in
theorem reserveScript_outcome (hsha : CollisionFree sha) (hadm : Admissible request policies)
    (hclock : s.clock ≤ lastClock) (henc : Encodes sha L (s.hash (limiter.key window))) :
    ReserveOutcome sha limiter request hy policies window s L
      (reserveScript sha limiter request hy.scopes policies window s).1
      (reserveStep limiter request hy.scopes policies window
        (reserveScript sha limiter request hy.scopes policies window s).2) := by
  by_cases hw : (serverWindow s : ℤ) = window
  · subst hw
    rw [reserveScript_live hadm henc]
    cases hfind : L.find request.reservationID with
    | some hold =>
      have hid := (find_eq_some.mp hfind).2
      simp only [map_some]
      split
      · rename_i hne
        rw [reserveStep_conflict]
        exact .conflict hold rfl hfind hne
      · rename_i heq
        rw [Hold.eq_of_text hsha hid (not_not.mp heq)] at hfind
        obtain ⟨r,hr,hdesc⟩ := replay_step limiter hadm hclock hfind
        rw [hr]
        exact .replay r rfl hfind hdesc
    | none =>
      simp only [map_none]
      cases hdenied : firstDenied request.plan.reservedTokens 1
          ((reserveArguments hy.scopes policies).zip (L.counts hy.scopes)) with
      | some denial =>
        obtain ⟨index,count,hard⟩ := denial
        obtain ⟨r,hr,hi,hrej⟩ := reserveStep_denied limiter s hadm hdenied
        simp only [reserveTokens,hdenied,time_clock]
        rw [hr]
        exact .denied r rfl hfind hi hrej
      | none =>
        obtain ⟨r,hr,hdesc⟩ := admitted_step limiter hadm hclock hdenied
        rw [reserveTokens_admitted hadm henc hdenied,hr]
        exact .admitted _ rfl hfind (fits_of_firstDenied hadm hdenied) (.inr ⟨r,rfl,hdesc⟩)
  · rw [reserveScript_mismatch hw,reserveStep_mismatch]
    exact .mismatch hw

variable (hy) in
/-- The same with the faults of `Eval`. -/
theorem reserve_outcome (hsha : CollisionFree sha) (hadm : Admissible request policies)
    (hclock : s.clock ≤ lastClock) (henc : Encodes sha L (s.hash (limiter.key window)))
    (e : Oracle) : ReserveOutcome sha limiter request hy policies window s L
      (evaluate (reserveScript sha limiter request hy.scopes policies window) e s).1
      (reserveStep limiter request hy.scopes policies window
        (evaluate (reserveScript sha limiter request hy.scopes policies window) e s).2) := by
  have hscript := reserveScript_outcome hy hsha hadm hclock henc
  rcases evaluate_cases (reserveScript sha limiter request hy.scopes policies window) e s
    with heval | heval | heval
  · rw [heval]
    exact .failed
  · rw [heval]
    exact hscript.lost
  · rw [heval]
    exact hscript

end

/-! Settling. -/

/-- What validation establishes about a settlement. -/
structure Settleable (handle : Handle) (actual : TPMActual) : Prop where
  positive : 1 ≤ handle.reservedTokens
  bounded : handle.reservedTokens ≤ maximumValue
  actual_le : actual.tokens ≤ maximumValue

theorem settleable_of_valid {handle : Handle} {actual : TPMActual}
    (hactual : actual.validate) (hhandle : validateRedisTPMHandle handle = some scopes) :
    ∃ hy : Hierarchy, scopes = hy.scopes ∧ Settleable handle actual := by
  simp only [TPMActual.validate,Bool.and_eq_true,decide_eq_true_eq,beq_iff_eq] at hactual
  unfold validateRedisTPMHandle at hhandle
  split at hhandle
  · cases hhandle
  · rename_i hrange
    obtain ⟨⟨hy,rfl⟩,-⟩ := normalizeScopes_eq_some hhandle
    simp only [not_or] at hrange
    exact ⟨hy,rfl,by omega,by omega,by omega⟩

section
variable {sha : String → String} {limiter : RedisTPMLimiter} {handle : Handle}
  {actual : TPMActual} {hy : Hierarchy} {s : Server} {L : Ledger}

/-- The pending hold a handle stands for. -/
def handledHold (handle : Handle) (hy : Hierarchy) : Hold :=
  ⟨handle.reservationID,hy,handle.reservedTokens,none⟩

/-- The tokens of a settlement in a scope would leave the exact range. -/
def Ledger.Overflows (L : Ledger) (hy : Hierarchy) (reserved actual : ℕ) : Prop :=
  ∃ scope ∈ hy.scopes, maximumValue < L.usage scope - reserved + actual

variable (sha limiter handle actual hy s L) in
/-- Everything one evaluation of the settle script can do. -/
inductive SettleOutcome : Server → Except Failure Settlement → Prop
  | failed : SettleOutcome s
      (.error (.evaluation "settle"))
  | missing (hfind : L.find handle.reservationID = none) :
      SettleOutcome s (.error .expired)
  | conflict (hold : Hold) (hfind : L.find handle.reservationID = some hold)
      (hne : hold ≠ handledHold handle hy) :
      SettleOutcome s (.error .conflict)
  | replay (r : Settlement) (hi : r.idempotent)
      (hfind : L.find handle.reservationID = some ((handledHold handle hy).settle actual.tokens)) :
      SettleOutcome s (.ok r)
  | overflow (e : Failure) (hfind : L.find handle.reservationID = some (handledHold handle hy))
      (hover : L.Overflows hy handle.reservedTokens actual.tokens) :
      SettleOutcome s (.error e)
  | settled (result : Except Failure Settlement)
      (hfind : L.find handle.reservationID = some (handledHold handle hy))
      (hfits : ¬L.Overflows hy handle.reservedTokens actual.tokens)
      (hres : result = .error (.evaluation "settle") ∨
        ∃ r, result = .ok r ∧ r.idempotent = false) :
      SettleOutcome
        (s.storeHash (limiter.key handle.window) ⟨rewritten (s.hash (limiter.key handle.window))
          hy.fields (actual.tokens - handle.reservedTokens)
          (redisTPMReservationField handle.reservationID)
          (((handledHold handle hy).settle actual.tokens).text sha),
          s.hashExpiry (limiter.key handle.window)⟩) result

theorem SettleOutcome.lost {result : Except Failure Settlement}
    (h : SettleOutcome sha limiter handle actual hy s L t result) :
    SettleOutcome sha limiter handle actual hy s L t (.error (.evaluation "settle")) := by
  cases h with
  | settled _ hfind hfits _ => exact .settled _ hfind hfits (.inl rfl)
  | _ => exact .failed

theorem parse_settlement {now : ℕ} {idempotent : Bool} {counts : List ℕ}
    (hok : Settleable handle actual) (hlen : counts.length = requiredScopeCount)
    (hcounts : ∀ count ∈ counts, count ≤ maximumValue) :
    parseRedisTPMSettleResponse (.ints ([0,(now : ℤ),handle.reservedTokens,actual.tokens,
        (actual.tokens : ℤ) - handle.reservedTokens,if idempotent then 1 else 0] ++
        counts.map fun count : ℕ => (count : ℤ))) handle actual =
      some {
        code := 0, nowMS := now, delta := (actual.tokens : ℤ) - handle.reservedTokens
        idempotent := idempotent, counts := counts } := by
  have hparse := parseCounts_ints fun count hc =>
    (⟨Nat.zero_le count,hcounts count hc⟩ : 0 ≤ count ∧ count ≤ maximumValue)
  have hdelta : redisTPMDelta handle.reservedTokens actual.tokens =
      some ((actual.tokens : ℤ) - handle.reservedTokens) := by
    have h₁ := hok.bounded
    have h₂ := hok.actual_le
    unfold redisTPMDelta
    split_ifs <;> first | omega | (congr 1; omega)
  have hnow : ¬((now : ℤ) < 0) := by omega
  change assignSettlement _ handle actual { code := 0 } = _
  unfold assignSettlement
  rw [if_neg (by simp [hlen,requiredScopeCount])]
  simp only [List.append,List.map_cons,redisRPMInt64_int,redisRPMUint64_int,
    bind_eq_bind,bind_some,hdelta,hnow,ne_eq,not_true_eq_false,false_or,
    flag_range,if_false,hparse,flag_beq]
  rfl

theorem firstOutOfRange_eq_none_iff {delta : ℤ} {scopes : List Scope} (index : ℕ) :
    firstOutOfRange delta index (L.counts scopes) = none ↔
      ∀ scope ∈ scopes, 0 ≤ L.usage scope + delta ∧ L.usage scope + delta ≤ maximumValue := by
  induction scopes generalizing index with
  | nil => simp [counts,firstOutOfRange]
  | cons scope scopes ih =>
    have hnn := L.usage_nonneg scope
    have hle := L.usage_le scope
    have hcast : (((L.usage scope).toNat : ℕ) : ℤ) = L.usage scope := Int.toNat_of_nonneg hnn
    have hrest := ih (index + 1)
    simp only [counts] at hrest
    simp only [counts,map_cons,firstOutOfRange,hcast,forall_mem_cons]
    split_ifs with hlow hhigh
    · simp only [false_iff,not_and]
      intro h
      omega
    · simp only [false_iff,not_and]
      intro h
      omega
    · rw [hrest,and_iff_right]
      omega

variable (limiter hy) in
theorem settleResult_ok (hok : Settleable handle actual) (now : ℕ) (idempotent : Bool)
    {counts : List ℕ} (hlen : counts.length = requiredScopeCount)
    (hcounts : ∀ count ∈ counts, count ≤ maximumValue) :
    ∃ r, settleResult limiter handle hy.scopes actual (some (.ints ([0,(now : ℤ),
        handle.reservedTokens,actual.tokens,(actual.tokens : ℤ) - handle.reservedTokens,
        if idempotent then 1 else 0] ++ counts.map fun count : ℕ => (count : ℤ)))) = .ok r ∧
      r.idempotent = idempotent := by
  simp only [settleResult,parse_settlement hok hlen hcounts,if_true]
  exact ⟨_,rfl,rfl⟩

variable (limiter handle actual hy) in
theorem settleResult_corrupt (index : ℕ) :
    ∃ e, settleResult limiter handle hy.scopes actual (some (.ints [3,index])) = .error e := by
  unfold settleResult
  simp only
  split
  · exact ⟨_,rfl⟩
  · rename_i response hparse
    simp only [parseRedisTPMSettleResponse,Value.ints,map_cons,map_nil,
      redisRPMInt64_int,bind_eq_bind,bind_some] at hparse
    obtain ⟨i,-,rfl⟩ := map_eq_some_iff.mp (by simpa using hparse)
    exact ⟨redisTPMCorruptError i,by simp⟩

theorem settleTokens_outcome (hok : Settleable handle actual)
    (henc : Encodes sha L (s.hash (limiter.key handle.window)))
    (hfind : L.find handle.reservationID = some (handledHold handle hy)) :
    let script := settleTokens (limiter.key handle.window)
      (redisTPMReservationField handle.reservationID)
      (((handledHold handle hy).settle actual.tokens).text sha) handle.reservedTokens
      actual.tokens hy.fields (L.counts hy.scopes)
    SettleOutcome sha limiter handle actual hy s L (script s).1
      (settleResult limiter handle hy.scopes actual (script s).2) := by
  have hmem := (find_eq_some.mp hfind).1
  have hcovered : ∀ scope ∈ hy.scopes, (handle.reservedTokens : ℤ) ≤ L.usage scope :=
    fun scope hscope => tokens_le_usage hmem hscope
  simp only [settleTokens]
  by_cases hover : L.Overflows hy handle.reservedTokens actual.tokens
  · cases hrange : firstOutOfRange ((actual.tokens : ℤ) - handle.reservedTokens) 1
        (L.counts hy.scopes) with
    | none =>
      obtain ⟨scope,hscope,hgt⟩ := hover
      have := ((firstOutOfRange_eq_none_iff 1).mp hrange scope hscope).2
      omega
    | some index =>
      obtain ⟨e,he⟩ := settleResult_corrupt limiter handle actual hy index
      rw [he]
      exact .overflow e hfind hover
  · have hfits : ∀ scope ∈ hy.scopes,
        0 ≤ L.usage scope + ((actual.tokens : ℤ) - handle.reservedTokens) ∧
        L.usage scope + ((actual.tokens : ℤ) - handle.reservedTokens) ≤ maximumValue := by
      intro scope hscope
      have hle := hcovered scope hscope
      have hroom : ¬(maximumValue < L.usage scope - handle.reservedTokens + actual.tokens) :=
        fun h => hover ⟨scope,hscope,h⟩
      omega
    have hbump := hincrbyAll_scopes henc (fun scope hs => (hfits scope hs).1)
      fun scope hs => (hfits scope hs).2
    have hmap := map_toNat fun scope hs => (hfits scope hs).1
    have hbound : ∀ count ∈ hy.scopes.map fun scope =>
        (L.usage scope + ((actual.tokens : ℤ) - handle.reservedTokens)).toNat,
        count ≤ maximumValue := by
      intro count hcount
      obtain ⟨scope,hs,rfl⟩ := mem_map.mp hcount
      have := hfits scope hs
      omega
    obtain ⟨r,hr,hi⟩ := settleResult_ok limiter hy hok s.clock false
      (by simp [hy.scopes_length]) hbound
    simp only [(firstOutOfRange_eq_none_iff 1).mpr hfits,hbump,hmap,time_clock,hset,
      hash_storeHash,hashExpiry_storeHash,storeHash_storeHash]
    simp only [Bool.false_eq_true,if_false] at hr
    rw [hr]
    exact .settled _ hfind hover (.inr ⟨r,rfl,hi⟩)

variable (hy) in
theorem settleScript_outcome (hsha : CollisionFree sha) (hok : Settleable handle actual)
    (henc : Encodes sha L (s.hash (limiter.key handle.window))) :
    SettleOutcome sha limiter handle actual hy s L
      (settleScript sha limiter handle hy.scopes actual s).1
      (settleResult limiter handle hy.scopes actual
        (settleScript sha limiter handle hy.scopes actual s).2) := by
  have hrec := henc.records handle.reservationID
  have hrange : ¬(handle.reservedTokens < 1 ∨ handle.reservedTokens > maximumValue ∨
      actual.tokens > maximumValue) := by
    have h₁ := hok.positive
    have h₂ := hok.bounded
    have h₃ := hok.actual_le
    omega
  unfold RedisTPMLimiter.key at hrec
  rw [settleScript,redisTPMSettleScript,hrec]
  cases hfind : L.find handle.reservationID with
  | none => exact .missing hfind
  | some hold =>
    obtain ⟨hmem,hid⟩ := find_eq_some.mp hfind
    simp only [map_some]
    split
    · rename_i hne
      refine .conflict hold hfind ?_
      rintro rfl
      exact hne.1 rfl
    · rename_i hmatch
      -- the record has the handle's fingerprint, so the hold is on the handle's scopes
      have hhold : hold = handledHold handle hy ∨
          hold = (handledHold handle hy).settle actual.tokens := by
        rcases not_and_or.mp hmatch with h | h
        · exact .inl (Hold.eq_of_text hsha hid (not_not.mp h))
        · exact .inr (Hold.eq_of_text hsha hid (not_not.mp h))
      have hcovers : ∀ scope ∈ hy.scopes, scope.validate ∧ L.Covers scope := by
        intro scope hscope
        refine ⟨hy.scopes_valid scope hscope,hold,hmem,?_⟩
        rcases hhold with rfl | rfl <;> exact hscope
      have hcounts := readPresentCounts_eq henc hcovers 1
      unfold RedisTPMLimiter.key at hcounts
      rw [hcounts]
      simp only
      split
      · rename_i hsettled
        have hhold' : hold = (handledHold handle hy).settle actual.tokens :=
          Hold.eq_of_text hsha hid hsettled
        have hbound : ∀ count ∈ L.counts hy.scopes, count ≤ maximumValue := by
          intro count hcount
          obtain ⟨scope,-,rfl⟩ := mem_map.mp hcount
          have := L.usage_le scope
          omega
        obtain ⟨r,hr,hi⟩ := settleResult_ok limiter hy hok s.clock true
          (by simp [counts,hy.scopes_length]) hbound
        simp only [if_true] at hr
        rw [time_clock,hr]
        exact .replay r hi (hhold' ▸ hfind)
      · rename_i hpend
        rcases hhold with rfl | rfl
        · exact settleTokens_outcome hok henc hfind
        · exact absurd rfl hpend

variable (hy) in
theorem settle_outcome (hsha : CollisionFree sha) (hok : Settleable handle actual)
    (henc : Encodes sha L (s.hash (limiter.key handle.window))) (e : Oracle) :
    SettleOutcome sha limiter handle actual hy s L
      (evaluate (settleScript sha limiter handle hy.scopes actual) e s).1
      (settleResult limiter handle hy.scopes actual
        (evaluate (settleScript sha limiter handle hy.scopes actual) e s).2) := by
  have hscript := settleScript_outcome hy hsha hok henc
  rcases evaluate_cases (settleScript sha limiter handle hy.scopes actual) e s
    with heval | heval | heval
  · rw [heval]
    exact .failed
  · rw [heval]
    exact hscript.lost
  · rw [heval]
    exact hscript

end
end Limits.Tpm
