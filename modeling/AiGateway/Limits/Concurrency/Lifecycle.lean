import AiGateway.Limits.Concurrency.Effects

/-! What one evaluation of the renew and release scripts does to the table of leases. -/
namespace Limits.Concurrency
open Redis Server LeaseState List

variable {sha : String → String} {limiter : RedisConcurrencyLimiter} {hy : Hierarchy}
  {T : Table} {s : Server} {id : String} {l : Lease} {handle : Handle}

theorem renewResult_missing :
    renewResult handle hy.scopes (some (.ints [1])) = .error .expired := by
  simp [renewResult,lifecycleResult,parseRedisConcurrencyRenew,parseRedisConcurrencyLifecycle,
    Value.ints]

theorem renewResult_conflict :
    renewResult handle hy.scopes (some (.ints [2])) = .error .conflict := by
  simp [renewResult,lifecycleResult,parseRedisConcurrencyRenew,parseRedisConcurrencyLifecycle,
    Value.ints]

theorem releaseResult_missing :
    releaseResult handle hy.scopes (some (.ints [1])) = .error .expired := by
  simp [releaseResult,lifecycleResult,parseRedisConcurrencyRelease,
    parseRedisConcurrencyLifecycle,Value.ints]

theorem releaseResult_conflict :
    releaseResult handle hy.scopes (some (.ints [2])) = .error .conflict := by
  simp [releaseResult,lifecycleResult,parseRedisConcurrencyRelease,
    parseRedisConcurrencyLifecycle,Value.ints]

variable (handle hy) in
theorem renewResult_ok {now expires : ℕ} {counts : List ℕ} (h : now < expires)
    (hlen : counts.length = requiredScopeCount) (hcounts : ∀ count ∈ counts, count ≤ maximumValue) :
    ∃ r, renewResult handle hy.scopes (some (.ints ([0,(now : ℤ),expires] ++
      counts.map fun count : ℕ => (count : ℤ)))) = .ok r := by
  have hparse := parseCounts_ints fun count hc =>
    (⟨Nat.zero_le count,hcounts count hc⟩ : 0 ≤ count ∧ count ≤ maximumValue)
  have hpos : ¬((now : ℤ) < 0 ∨ (expires : ℤ) < 0) := by omega
  have hlater : ¬((expires : ℤ) ≤ now) := by omega
  have hall : parseRedisConcurrencyRenew (.ints ([0,(now : ℤ),expires] ++
      counts.map fun count : ℕ => (count : ℤ))) =
      some { code := 0, nowMS := now, expiresMS := expires, counts := counts } := by
    change assignRedisConcurrencyLifecycleSuccess _ 7 false { code := 0 } = _
    unfold assignRedisConcurrencyLifecycleSuccess
    rw [if_neg (by simp [hlen,requiredScopeCount])]
    simp only [List.append,map_cons,redisRPMInt64_int,Option.bind_eq_bind,
      Option.bind_some,hpos,hlater,if_false,Bool.false_eq_true,hparse]
    rfl
  simp only [renewResult,lifecycleResult,hall,if_true]
  exact ⟨_,rfl⟩

variable (handle hy) in
theorem releaseResult_ok (now expires : ℕ) (idempotent expired : Bool) {counts : List ℕ}
    (hlen : counts.length = requiredScopeCount) (hcounts : ∀ count ∈ counts, count ≤ maximumValue) :
    ∃ r, releaseResult handle hy.scopes (some (.ints ([0,(now : ℤ),expires,
      if idempotent then 1 else 0,if expired then 1 else 0] ++
      counts.map fun count : ℕ => (count : ℤ)))) = .ok r := by
  have hparse := parseCounts_ints fun count hc =>
    (⟨Nat.zero_le count,hcounts count hc⟩ : 0 ≤ count ∧ count ≤ maximumValue)
  have hpos : ¬((now : ℤ) < 0 ∨ (expires : ℤ) < 0) := by omega
  have hall : ∃ response, parseRedisConcurrencyRelease (.ints ([0,(now : ℤ),expires,
      if idempotent then 1 else 0,if expired then 1 else 0] ++
      counts.map fun count : ℕ => (count : ℤ))) = some response ∧ response.code = 0 := by
    change ∃ response, assignRedisConcurrencyLifecycleSuccess _ 9 true { code := 0 } = _ ∧ _
    unfold assignRedisConcurrencyLifecycleSuccess
    rw [if_neg (by simp [hlen,requiredScopeCount])]
    simp only [List.append,map_cons,redisRPMInt64_int,Option.bind_eq_bind,
      Option.bind_some,hpos,if_false,if_true,flag_range,or_self,hparse]
    exact ⟨_,rfl,rfl⟩
  obtain ⟨response,hresp,hcode⟩ := hall
  simp only [releaseResult,lifecycleResult,hresp,hcode,if_true]
  exact ⟨_,rfl⟩

/-! Renewing. -/

variable (sha : String → String) (limiter : RedisConcurrencyLimiter) (handle : Handle)
  (hy : Hierarchy) (T : Table) (s : Server) in
inductive RenewOutcome : Server → Table → Except Failure Renewal → Prop
  | refused (f : Failure) (hf : f = .expired ∨ f = .conflict) :
      RenewOutcome s T (.error f)
  | expired (t : Server) (l : Lease) (hl : T handle.leaseID = some l)
      (hlate : l.expiry ≤ s.clock) (hc : Closes sha limiter handle.leaseID l .expired s t) :
      RenewOutcome t
        (Function.update T handle.leaseID (some { l with state := .expired })) (.error .expired)
  | renewed (t : Server) (l : Lease) (r : Renewal) (hnow : s.clock ≤ lastClock)
      (hl : T handle.leaseID = some l) (hhy : l.hierarchy = hy) (hlive : l.Live s.clock)
      (hw : Writes sha limiter handle.leaseID (newLease limiter hy s.clock hnow) s t) :
      RenewOutcome t
        (Function.update T handle.leaseID (some (newLease limiter hy s.clock hnow))) (.ok r)

theorem writes_renewed (h : Represents sha limiter.keyPrefix T s) (hl : T id = some l)
    (hlive : l.Live s.clock) :
    Writes sha limiter id (newLease limiter l.hierarchy s.clock h.clock) s
      (((moveMember id (s.clock + limiter.leaseMS)
        (s.clock + limiter.leaseMS + limiter.retainMS) (limiter.keys l.hierarchy.scopes)
        (purge s.clock (limiter.keys l.hierarchy.scopes) s)).hset (leaseKey limiter.keyPrefix id)
        "expiry_ms" (s.clock + limiter.leaseMS).repr).pexpireatHash (leaseKey limiter.keyPrefix id)
        (s.clock + limiter.leaseMS + limiter.retainMS)) := by
  have hlimit : s.clock < s.clock + limiter.leaseMS + limiter.retainMS := by
    have := limiter.retain_pos
    omega
  have hscores : ∀ key ∈ limiter.keys l.hierarchy.scopes,
      ((purge s.clock (limiter.keys l.hierarchy.scopes) s).zset key).score id = some l.expiry := by
    intro key hkey
    rw [zset_purge (keys_nodup limiter l.hierarchy) hkey]
    simp [h.score_some hl hlive key hkey,Option.filter,hlive.2]
  rw [moveMember_eq (keys_nodup limiter l.hierarchy) (by simpa using hlimit) hscores]
  generalize hmoved : (purge s.clock (limiter.keys l.hierarchy.scopes) s).eachZset
    (limiter.keys l.hierarchy.scopes) (fun z => z.add id (s.clock + limiter.leaseMS))
    (fun _ => some (s.clock + limiter.leaseMS + limiter.retainMS)) = u
  have hclock : u.clock = s.clock := by simp [← hmoved]
  have hhashes : u.hashes = s.hashes := by simp [← hmoved]
  have hfields : (newLease limiter l.hierarchy s.clock h.clock).fields sha =
      Function.update (l.fields sha) "expiry_ms" (some (s.clock + limiter.leaseMS).repr) := by
    funext field
    by_cases hf : field = "expiry_ms" <;> simp [hf,Lease.fields,newLease,hlive.1]
  rw [hset,pexpireatHash_storeHash (by rwa [hclock]),hash_congr hhashes,h.hash_eq hl,← hfields]
  constructor
  · apply ZsetsChange.storeHash
    rw [← hmoved]
    exact (purges_purge limiter l.hierarchy s).sets.trans
      (zsetsChange_eachZset _ (keys_nodup limiter l.hierarchy) _ _) (.inr ⟨_,rfl⟩)
  · rw [storeHash,hhashes]
    rfl

theorem renewScript_outcome (hsha : CollisionFree sha)
    (h : Represents sha limiter.keyPrefix T s) (handle : Handle) (hy : Hierarchy) :
    ∃ T', RenewOutcome sha limiter handle hy T s (renewScript sha limiter handle hy.scopes s).1 T'
      (renewResult handle hy.scopes (renewScript sha limiter handle hy.scopes s).2) := by
  unfold renewScript redisConcurrencyRenewScript
  cases hl : T handle.leaseID with
  | none =>
    simp only [h.hash_none hl,renewResult_missing]
    exact ⟨T,.refused _ (.inl rfl)⟩
  | some l =>
    simp only [h.hash_eq hl,Lease.fields_state,readLease_fields,time_clock]
    split
    · rw [renewResult_conflict]
      exact ⟨T,.refused _ (.inr rfl)⟩
    · rename_i hprint
      have hhy : l.hierarchy = hy := redisScopeFingerprint_inj hsha (not_not.mp hprint)
      subst hhy
      cases hstate : l.state with
      | released =>
        refine ⟨T,?_⟩
        simp only [text,ne_eq,String.reduceEq,not_false_eq_true,if_true,renewResult_conflict]
        exact .refused _ (.inr rfl)
      | expired =>
        refine ⟨T,?_⟩
        simp only [text,ne_eq,String.reduceEq,not_false_eq_true,if_true,if_false,
          renewResult_missing]
        exact .refused _ (.inl rfl)
      | active =>
        simp only [text,ne_eq,not_true_eq_false,if_false]
        split
        · rename_i hlate
          rw [renewResult_missing]
          exact ⟨_,.expired _ l hl hlate (closes_remove h hl)⟩
        · rename_i hlate
          have hlive : l.Live s.clock := ⟨hstate,not_le.mp hlate⟩
          rw [checkMembers_eq (keys_nodup limiter l.hierarchy) hlive.2 (h.score_some hl hlive)]
          have hcounts : ∀ count ∈ (limiter.keys l.hierarchy.scopes).map fun key =>
              ((s.zset key).removeUpTo s.clock).card, count ≤ maximumValue := by
            intro count hcount
            obtain ⟨key,hkey,rfl⟩ := mem_map.mp hcount
            exact h.purged_card_le key hkey
          obtain ⟨r,hr⟩ := renewResult_ok l.hierarchy handle
            (show s.clock < s.clock + limiter.leaseMS by
              have := limiter.lease_ge
              simp only [minimumRedisConcurrencyLeaseMS] at this
              omega) (by simp [RedisConcurrencyLimiter.keys,l.hierarchy.scopes_length]) hcounts
          simp only [hr]
          exact ⟨_,.renewed _ l r h.clock hl rfl hlive (writes_renewed h hl hlive)⟩

/-! Releasing. -/

variable (sha : String → String) (limiter : RedisConcurrencyLimiter) (handle : Handle)
  (hy : Hierarchy) (T : Table) (s : Server) in
inductive ReleaseOutcome : Server → Table → Except Failure Release → Prop
  | refused (f : Failure) (hf : f = .expired ∨ f = .conflict) :
      ReleaseOutcome s T (.error f)
  | replay (t : Server) (r : Release) (hp : Purges limiter hy s t) :
      ReleaseOutcome t T (.ok r)
  | closed (t : Server) (l : Lease) (r : Release) (state : LeaseState)
      (hl : T handle.leaseID = some l) (hstate : state ≠ .active)
      (hc : Closes sha limiter handle.leaseID l state s t) :
      ReleaseOutcome t
        (Function.update T handle.leaseID (some { l with state := state })) (.ok r)

theorem closes_purged (h : Represents sha limiter.keyPrefix T s) (hl : T id = some l)
    (state : LeaseState) :
    Closes sha limiter id l state s ((removeMember id (limiter.keys l.hierarchy.scopes)
        (purge s.clock (limiter.keys l.hierarchy.scopes) s)).hset (leaseKey limiter.keyPrefix id)
        "state" state.text) := by
  apply closes_hset h hl (f := fun z => (z.removeUpTo s.clock).remove id) _ _ _ _ state
  · rw [removeMember_eq]
    refine (purges_purge limiter l.hierarchy s).sets.trans (zsetsChange_eachZset _
      (keys_nodup limiter l.hierarchy) (fun z => z.remove id) fun e => e) (.inl fun z hz => ?_)
    exact lt_of_lt_of_le hz ZSet.card_remove_le
  · rw [removeMember_eq,eachZset_hashes,purge_hashes]
  · exact fun z => ZSet.card_remove_le.trans (ZSet.card_removeUpTo_le _)
  · intro z m e hlt
    by_cases hm : m = id <;> simp [hm,Option.filter_eq_some_iff,hlt]

theorem releaseScript_outcome (hsha : CollisionFree sha)
    (h : Represents sha limiter.keyPrefix T s) (handle : Handle) (hy : Hierarchy) :
    ∃ T', ReleaseOutcome sha limiter handle hy T s
      (releaseScript sha limiter handle hy.scopes s).1 T'
      (releaseResult handle hy.scopes (releaseScript sha limiter handle hy.scopes s).2) := by
  unfold releaseScript redisConcurrencyReleaseScript
  cases hl : T handle.leaseID with
  | none =>
    simp only [h.hash_none hl,releaseResult_missing]
    exact ⟨T,.refused _ (.inl rfl)⟩
  | some l =>
    simp only [h.hash_eq hl,Lease.fields_state,readLease_fields,time_clock]
    split
    · rw [releaseResult_conflict]
      exact ⟨T,.refused _ (.inr rfl)⟩
    · rename_i hprint
      have hhy : l.hierarchy = hy := redisScopeFingerprint_inj hsha (not_not.mp hprint)
      subst hhy
      have hnodup := keys_nodup limiter l.hierarchy
      have hlen {g : String → ℕ} :
          ((limiter.keys l.hierarchy.scopes).map g).length = requiredScopeCount := by
        simp [RedisConcurrencyLimiter.keys,l.hierarchy.scopes_length]
      have hzset {key : String} (hkey : key ∈ limiter.keys l.hierarchy.scopes) :
          (purge s.clock (limiter.keys l.hierarchy.scopes) s).zset key =
            (s.zset key).removeUpTo s.clock := zset_purge hnodup hkey
      have hcounts : ∀ count ∈ (limiter.keys l.hierarchy.scopes).map fun key =>
          ((purge s.clock (limiter.keys l.hierarchy.scopes) s).zset key).card,
          count ≤ maximumValue := by
        intro count hcount
        obtain ⟨key,hkey,rfl⟩ := mem_map.mp hcount
        rw [hzset hkey]
        exact h.purged_card_le key hkey
      have hremoved : ∀ count ∈ (limiter.keys l.hierarchy.scopes).map fun key =>
          (((purge s.clock (limiter.keys l.hierarchy.scopes) s).zset key).remove
            handle.leaseID).card, count ≤ maximumValue := by
        intro count hcount
        obtain ⟨key,hkey,rfl⟩ := mem_map.mp hcount
        exact ZSet.card_remove_le.trans (hcounts _ (mem_map_of_mem hkey))
      have habsent (hstate : l.state ≠ .active) : ∀ key ∈ limiter.keys l.hierarchy.scopes,
          ((purge s.clock (limiter.keys l.hierarchy.scopes) s).zset key).score handle.leaseID =
            none := by
        intro key hkey
        rw [hzset hkey]
        obtain ⟨scope,hscope,rfl⟩ := mem_map.mp hkey
        apply h.score_none _ (l.hierarchy.scopes_valid scope hscope)
        intro l' hl'
        rw [hl] at hl'
        cases hl'
        exact hstate
      cases hstate : l.state with
      | released =>
        obtain ⟨r,hr⟩ := releaseResult_ok l.hierarchy handle s.clock l.expiry true false hlen
          hcounts
        refine ⟨T,?_⟩
        simp only [Bool.false_eq_true,if_true,if_false] at hr
        simp only [text,String.reduceEq,true_or,if_true,if_false,
          countWithout_eq (habsent (by simp [hstate])),hr]
        exact .replay _ r (purges_purge limiter l.hierarchy s)
      | expired =>
        obtain ⟨r,hr⟩ := releaseResult_ok l.hierarchy handle s.clock l.expiry true true hlen
          hcounts
        refine ⟨T,?_⟩
        simp only [if_true] at hr
        simp only [text,or_true,if_true,countWithout_eq (habsent (by simp [hstate])),hr]
        exact .replay _ r (purges_purge limiter l.hierarchy s)
      | active =>
        simp only [text,String.reduceEq,or_self,if_false,ne_eq,not_true_eq_false,
          removeCounting_eq hnodup]
        split
        · obtain ⟨r,hr⟩ := releaseResult_ok l.hierarchy handle s.clock l.expiry false true hlen
            hremoved
          simp only [Bool.false_eq_true,if_true,if_false] at hr
          simp only [hr]
          exact ⟨_,.closed _ l r .expired hl (by decide) (closes_purged h hl .expired)⟩
        · rename_i hlate
          have hscores : ∀ key ∈ limiter.keys l.hierarchy.scopes,
              ((purge s.clock (limiter.keys l.hierarchy.scopes) s).zset key).score
                handle.leaseID = some l.expiry := by
            intro key hkey
            rw [hzset hkey]
            simp [h.score_some hl ⟨hstate,not_le.mp hlate⟩ key hkey,Option.filter,not_le.mp hlate]
          obtain ⟨r,hr⟩ := releaseResult_ok l.hierarchy handle s.clock l.expiry false false hlen
            hremoved
          simp only [Bool.false_eq_true,if_false] at hr
          simp only [firstMismatch_eq_none hscores,hr]
          exact ⟨_,.closed _ l r .released hl (by decide) (closes_purged h hl .released)⟩

end Limits.Concurrency
