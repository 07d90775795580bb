import AiGateway.Limits.Rpm.Limiter

/-! What one evaluation of the RPM script does to the counters of its minute, and what the call
makes of the reply. -/
namespace Limits.Rpm
open Redis Server List Hierarchy

/-- The invariant of the server: every field of every hash counts, and the hash of a minute
outlives the minute. -/
structure Tallied (s : Server) : Prop where
  clock : s.clock ≤ lastClock
  counts : ∀ key field, ∃ n, Counts (s.hash key) field n ∧ n ≤ maximumValue
  kept : ∀ keyPrefix window, s.hash (windowKey keyPrefix window) ≠ (fun _ => none) →
    ∃ limit, s.hashExpiry (windowKey keyPrefix window) = some limit ∧ (window + 1) * 60000 < limit

theorem rpm_hard {policies : List Effective} (h : Bound policies) {policy : Effective}
    (hmem : policy ∈ policies) : 1 ≤ policy.rpm.hard ∧ policy.rpm.hard ≤ maximumValue := by
  have := threshold_bounds (h.valid policy hmem)
    (show policy.rpm ∈ [policy.rpm,policy.tpm,policy.concurrency] by simp)
  omega

variable {hash : Hash} {index count hard : ℕ}

section
variable {s : Server} {key : String}

theorem Tallied.readCount (h : Tallied s) (key field : String) :
    Limits.readCount (s.hash key field) = some (fieldValue (s.hash key) field) := by
  obtain ⟨n,hn,hle⟩ := h.counts key field
  rw [readCount_of_counts hn hle,fieldValue_of_counts hn hle]

theorem Tallied.fieldValue_counts (h : Tallied s) (key field : String) :
    Counts (s.hash key) field (fieldValue (s.hash key) field) := by
  obtain ⟨n,hn,hle⟩ := h.counts key field
  rwa [fieldValue_of_counts hn hle]

theorem Tallied.fieldValue_le (h : Tallied s) (key field : String) :
    fieldValue (s.hash key) field ≤ maximumValue := by
  obtain ⟨n,hn,hle⟩ := h.counts key field
  rwa [fieldValue_of_counts hn hle]

/-- The counters the script reads, in the order of the scopes. -/
def counters (hash : Hash) (scopes : List Scope) : List ℕ :=
  scopes.map fun scope => fieldValue hash (redisRPMField scope)

variable {scopes : List Scope}

theorem readCounts_eq (h : Tallied s) {policies : List Effective}
    (hlen : policies.length = scopes.length) (index : ℕ) :
    readCounts (s.hash key) index (redisRPMArguments scopes policies) =
      .ok (counters (s.hash key) scopes) := by
  induction scopes generalizing policies index with
  | nil => rfl
  | cons scope scopes ih =>
    cases policies with
    | nil => simp at hlen
    | cons policy policies =>
      have hrest := ih (show policies.length = scopes.length by simpa using hlen) (index + 1)
      simp only [redisRPMArguments] at hrest
      simp only [redisRPMArguments,zip_cons_cons,map_cons,readCounts,h.readCount,hrest]
      rfl

theorem redisRPMArguments_fields {hy : Hierarchy} {policies : List Effective}
    (hlen : policies.length = hy.scopes.length) :
    (redisRPMArguments hy.scopes policies).map ScopeArgument.field = hy.fields := by
  have hfst : (hy.scopes.zip policies).map Prod.fst = hy.scopes := map_fst_zip (by omega)
  rw [fields,← hfst,redisRPMArguments,map_map,map_map,hfst]
  rfl

theorem firstDenied_eq_some {i : ℕ} {policies : List Effective}
    (h : firstDenied index ((redisRPMArguments scopes policies).zip (counters hash scopes)) =
      some (i,count,hard)) :
    ∃ k scope policy, i = index + k ∧ scopes[k]? = some scope ∧ policies[k]? = some policy ∧
      policy.rpm.hard = hard ∧ hard ≤ count := by
  induction scopes generalizing policies index with
  | nil => simp [redisRPMArguments,firstDenied] at h
  | cons scope scopes ih =>
    cases policies with
    | nil => simp [redisRPMArguments,firstDenied] at h
    | cons policy policies =>
      simp only [redisRPMArguments,counters,zip_cons_cons,map_cons,firstDenied] at h
      split at h
      · rename_i hfull
        cases h
        exact ⟨0,scope,policy,rfl,rfl,rfl,rfl,by omega⟩
      · obtain ⟨k,found,limits,rfl,hfound,hlimits,hrest⟩ := ih h
        exact ⟨k + 1,found,limits,by omega,by simpa using hfound,by simpa using hlimits,hrest⟩

theorem firstDenied_eq_none {policies : List Effective}
    (h : firstDenied index ((redisRPMArguments scopes policies).zip (counters hash scopes)) =
      none) :
    ∀ pair ∈ scopes.zip policies, fieldValue hash (redisRPMField pair.1) + 1 ≤ pair.2.rpm.hard := by
  induction scopes generalizing policies index with
  | nil => simp
  | cons scope scopes ih =>
    cases policies with
    | nil => simp
    | cons policy policies =>
      simp only [redisRPMArguments,counters,zip_cons_cons,map_cons,firstDenied] at h
      split at h
      · cases h
      · rename_i hroom
        intro pair hpair
        rcases mem_cons.mp (by simpa using hpair) with rfl | hmem
        · simp only
          omega
        · exact ih h pair hmem

end

/-! Parsing what the script replies. -/

section
variable {response : ParsedResponse} {window now reset : ℕ}

section
variable (h : now < reset)
include h

theorem assignRedisRPMTimeFields_ints :
    assignRedisRPMTimeFields (.int window) (.int now) (.int reset) response =
      some { response with window := window, nowMS := now, resetMS := reset } := by
  have hok : ¬((window : ℤ) < 0 ∨ (now : ℤ) < 0 ∨ (reset : ℤ) ≤ now) := by omega
  simp only [assignRedisRPMTimeFields,redisRPMInt64_int,Option.bind_eq_bind,Option.bind_some,
    hok,if_false]
  rfl

theorem redisRPMResponse_mismatch : redisRPMResponse (.ints [2,window,now,reset]) =
      some { code := 2, window := window, nowMS := now, resetMS := reset } := by
  simp [redisRPMResponse,Value.ints,assignRedisRPMTimeFields_ints h]

theorem redisRPMResponse_denied {k : ℕ} (hk : k < requiredScopeCount) (hpos : 1 ≤ hard)
    (hmax : hard ≤ maximumValue) (hfull : hard ≤ count) :
    redisRPMResponse (.ints [0,(1 + k : ℕ),count,hard,window,now,reset]) = some {
      code := 0, scopeIndex := k, count := count, hard := hard
      window := window, nowMS := now, resetMS := reset } := by
  have hok : ¬(((1 + k : ℕ) : ℤ) < 1 ∨ ((1 + k : ℕ) : ℤ) > requiredScopeCount ∨ hard = 0 ∨
      hard > maximumValue ∨ count < hard) := by omega
  have hindex : ((1 + k : ℕ) : ℤ) - 1 = k := by omega
  simp only [redisRPMResponse,Value.ints,map_cons,map_nil,redisRPMInt64_int,
    Option.bind_eq_bind,Option.bind_some,assignRedisRPMDenial,redisRPMUint64_int,hok,
    if_false,hindex,assignRedisRPMTimeFields_ints h]
  rfl

theorem redisRPMResponse_allowed {counts : List ℕ} (hlen : counts.length = requiredScopeCount)
    (hcounts : ∀ count ∈ counts, 1 ≤ count ∧ count ≤ maximumValue) :
    redisRPMResponse (.ints ([1,(window : ℤ),now,reset] ++
        counts.map fun count : ℕ => (count : ℤ))) =
      some {
        code := 1, window := window, nowMS := now, resetMS := reset, counts := counts } := by
  change assignAllowed _ { code := 1 } = _
  unfold assignAllowed
  rw [if_neg (by simp [hlen,requiredScopeCount])]
  simp only [List.append,List.map_cons,assignRedisRPMTimeFields_ints h,Option.bind_eq_bind,
    Option.bind_some,parseCounts_ints hcounts]
  rfl

end
end

/-! Admission. -/

section
variable {limiter : RedisRPMLimiter} {hy : Hierarchy} {policies : List Effective} {window : ℤ}
  {s t : Server}

/-- The hash key of one round. -/
def RedisRPMLimiter.key (limiter : RedisRPMLimiter) (window : ℤ) : String :=
  windowKey limiter.keyPrefix window

/-- The four counters go up by one. -/
def charged (hash : Hash) (fields : List String) : Hash := fun f =>
  if f ∈ fields then some (fieldValue hash f + 1).repr else hash f

variable (limiter hy policies window s) in
/-- Each scope has room below its own hard limit. -/
def Fits : Prop :=
  ∀ pair ∈ hy.scopes.zip policies,
    fieldValue (s.hash (limiter.key window)) (redisRPMField pair.1) + 1 ≤ pair.2.rpm.hard

variable (limiter hy window) in
/-- What an admission says, whichever counters it reports. -/
structure Describes (a : Admission) : Prop where
  windowKey : a.windowKey = limiter.key window
  window : a.window = window
  scopes : a.counts.map Count.scope = hy.scopes
  rejection : a.rejection = none

theorem Describes.allowed {a : Admission} (h : Describes limiter hy window a) : a.allowed := by
  have hlen : a.counts.length = requiredScopeCount := by
    rw [← length_map (f := Count.scope),h.scopes,hy.scopes_length]
  simp [Admission.allowed,h.rejection,hlen]

variable (limiter hy policies window s) in
/-- Everything one evaluation of the script can do: the state it leaves and how the call goes
on. -/
inductive AcquireOutcome : Server → AcquireStep → Prop
  | failed : AcquireOutcome s (.done (.error .evaluation))
  | mismatch (hw : (serverWindow s : ℤ) ≠ window) :
      AcquireOutcome s (.retry (serverWindow s))
  | denied (a : Admission) (hr : a.rejection.isSome) :
      AcquireOutcome s (.done (.ok a))
  | admitted (next : AcquireStep) (hw : (serverWindow s : ℤ) = window)
      (hfits : Fits limiter hy policies window s)
      (hnext : next = .done (.error .evaluation) ∨
        ∃ a, next = .done (.ok a) ∧ Describes limiter hy window a) :
      AcquireOutcome
        (s.storeHash (limiter.key window) ⟨charged (s.hash (limiter.key window)) hy.fields,
          some (resetMS s + limiter.retentionMS)⟩) next

theorem AcquireOutcome.lost {next : AcquireStep}
    (h : AcquireOutcome limiter hy policies window s t next) :
    AcquireOutcome limiter hy policies window s t (.done (.error .evaluation)) := by
  cases h with
  | admitted _ hw hfits _ => exact .admitted _ hw hfits (.inl rfl)
  | _ => exact .failed

theorem Fits.room (hb : Bound policies) (hfits : Fits limiter hy policies window s) :
    ∀ scope ∈ hy.scopes,
      fieldValue (s.hash (limiter.key window)) (redisRPMField scope) + 1 ≤ maximumValue := by
  intro scope hscope
  obtain ⟨policy,hmem⟩ := hb.exists_policy hscope
  exact (hfits _ hmem).trans (rpm_hard hb (of_mem_zip hmem).2).2

variable (limiter hy window) in
theorem hincrbyAll_charged (hs : Tallied s) : s.hincrbyAll (limiter.key window) hy.fields 1 =
      (s.storeHash (limiter.key window) ⟨charged (s.hash (limiter.key window)) hy.fields,
        s.hashExpiry (limiter.key window)⟩,
        some ((counters (s.hash (limiter.key window)) hy.scopes).map
          fun count : ℕ => ((count + 1 : ℕ) : ℤ))) := by
  have hmax : (maximumValue : ℤ) + 1 < 2 ^ 63 := by decide
  have hle (f : String) : (fieldValue (s.hash (limiter.key window)) f : ℤ) ≤ maximumValue := by
    exact_mod_cast hs.fieldValue_le (limiter.key window) f
  have hne : hy.fields ≠ [] := by simp [fields,scopes]
  rw [hincrbyAll_eq hne hy.fields_nodup (fun f _ => hs.fieldValue_counts _ f)
    (fun f _ => by have := hle f; omega) (fun f _ => by omega)
    (fun f _ => by have := hle f; omega)]
  simp only [counters,fields,map_map]
  rfl

theorem acquireStep_denied (hb : Bound policies)
    (h : firstDenied 1 ((redisRPMArguments hy.scopes policies).zip (counters hash hy.scopes)) =
      some (index,count,hard)) :
    ∃ a, acquireStep limiter hy.scopes policies window
      (some (.ints [0,index,count,hard,serverWindow s,s.clock,resetMS s])) = .done (.ok a) ∧
      a.rejection.isSome := by
  obtain ⟨k,scope,policy,rfl,hscope,hpol,rfl,hfull⟩ := firstDenied_eq_some h
  have hk : k < requiredScopeCount := by
    have := (List.getElem?_eq_some_iff.mp hpol).1
    rwa [hb.length] at this
  have hbounds := rpm_hard hb (List.mem_of_getElem? hpol)
  simp only [acquireStep,redisRPMResponse_denied (clock_lt_resetMS s) hk hbounds.1 hbounds.2 hfull,
    deniedRedisRPMAdmission,Int.toNat_natCast,hscope,hpol,ne_eq,not_true_eq_false,if_false]
  exact ⟨_,rfl,rfl⟩

theorem acquireStep_allowed (hb : Bound policies) (hw : (serverWindow s : ℤ) = window)
    (hfits : Fits limiter hy policies window s) : ∃ a, acquireStep limiter hy.scopes policies window
      (some (.ints ([1,(serverWindow s : ℤ),s.clock,resetMS s] ++
        (counters (s.hash (limiter.key window)) hy.scopes).map
          fun count : ℕ => ((count + 1 : ℕ) : ℤ)))) = .done (.ok a) ∧
      Describes limiter hy window a := by
  obtain ⟨counts,hcounts⟩ : ∃ counts, counts =
      (counters (s.hash (limiter.key window)) hy.scopes).map (· + 1) := ⟨_,rfl⟩
  have hlen : counts.length = requiredScopeCount := by
    simp [hcounts,counters,hy.scopes_length]
  have hints : ((counters (s.hash (limiter.key window)) hy.scopes).map
      fun count : ℕ => ((count + 1 : ℕ) : ℤ)) = counts.map fun count : ℕ => (count : ℤ) := by
    rw [hcounts,map_map]
    rfl
  have hrange : ∀ count ∈ counts, 1 ≤ count ∧ count ≤ maximumValue := by
    intro count hcount
    rw [hcounts,counters,map_map] at hcount
    obtain ⟨scope,hscope,rfl⟩ := mem_map.mp hcount
    have := hfits.room hb scope hscope
    simp only [Function.comp_apply]
    omega
  have hhard : true → ∀ pair ∈ counts.zip policies, pair.1 ≤ pair.2.rpm.hard := by
    intro _ pair hpair
    rw [hcounts,counters,map_map,zip_map_left] at hpair
    obtain ⟨⟨scope,policy⟩,hzip,rfl⟩ := mem_map.mp hpair
    exact hfits _ hzip
  have hscopes := hy.scopes_length.trans hlen.symm
  have hpols := hb.length.trans hlen.symm
  obtain ⟨result,hres,-⟩ := allowedCounts_eq_some hscopes hpols hhard
  rw [hints]
  simp only [acquireStep,redisRPMResponse_allowed (clock_lt_resetMS s) hlen hrange,
    allowedRedisRPMAdmission,hres]
  exact ⟨_,rfl,rfl,hw,allowedCounts_scopes hscopes hpols hres,rfl⟩

variable (limiter hy window) in
theorem admissionScript_outcome (hs : Tallied s) (hb : Bound policies) :
    AcquireOutcome limiter hy policies window s
      (admissionScript limiter hy.scopes policies window s).1
      (acquireStep limiter hy.scopes policies window
        (admissionScript limiter hy.scopes policies window s).2) := by
  have hlen := hb.length.trans hy.scopes_length.symm
  have hcounts : readCounts (s.hash (limiter.key window)) 1 (redisRPMArguments hy.scopes policies) =
      .ok _ := readCounts_eq hs hlen 1
  have hincr := hincrbyAll_charged limiter hy window hs
  have hexp : s.clock < resetMS s + limiter.retentionMS := by
    have := clock_lt_resetMS s
    omega
  rw [admissionScript,← RedisRPMLimiter.key,redisRPMAdmissionScript]
  by_cases hw : (serverWindow s : ℤ) = window
  · rw [if_neg (not_not.mpr hw),hcounts]
    simp only [time_clock]
    cases hdenied : firstDenied 1 ((redisRPMArguments hy.scopes policies).zip
        (counters (s.hash (limiter.key window)) hy.scopes)) with
    | some denial =>
      obtain ⟨index,count,hard⟩ := denial
      obtain ⟨a,ha,hrej⟩ := acquireStep_denied hb hdenied
      simp only
      rw [ha]
      exact .denied a hrej
    | none =>
      have hfits : Fits limiter hy policies window s := firstDenied_eq_none hdenied
      obtain ⟨a,ha,hdesc⟩ := acquireStep_allowed hb hw hfits
      simp only [redisRPMArguments_fields hlen,hincr,pexpireatHash_storeHash hexp]
      rw [ha]
      exact .admitted _ hw hfits (.inr ⟨a,rfl,hdesc⟩)
  · rw [if_pos hw]
    simp only [acquireStep,time_clock,redisRPMResponse_mismatch (clock_lt_resetMS s),if_true]
    exact .mismatch hw

variable (limiter hy window) in
/-- The same with the faults of `Eval`. -/
theorem acquire_outcome (hs : Tallied s) (hb : Bound policies) (e : Oracle) :
    AcquireOutcome limiter hy policies window s
      (evaluate (admissionScript limiter hy.scopes policies window) e s).1
      (acquireStep limiter hy.scopes policies window
        (evaluate (admissionScript limiter hy.scopes policies window) e s).2) := by
  have hscript := admissionScript_outcome limiter hy window hs hb
  rcases evaluate_cases (admissionScript limiter hy.scopes policies window) e s
    with heval | heval | heval
  · rw [heval]
    exact .failed
  · rw [heval]
    exact hscript.lost
  · rw [heval]
    exact hscript

end
end Limits.Rpm
