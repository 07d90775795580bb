import AiGateway.Limits.Concurrency.Limiter

/-! What the concurrency limiter is for: a table of leases, each on the four scopes of a hierarchy
until its expiry time. `Represents` says how a server keeps such a table, split over the lease
hashes and the sorted sets of the scopes, and is kept by every change that the scripts make. -/
namespace Limits.Concurrency
open Redis Function Server

inductive LeaseState where
  | active
  | released
  | expired
  deriving DecidableEq

def LeaseState.text : LeaseState → String
  | .active => "active"
  | .released => "released"
  | .expired => "expired"

/-- A lease; its hash is kept until `limit`. -/
structure Lease where
  state : LeaseState
  hierarchy : Hierarchy
  (expiry limit : ℕ)
  expiry_lt : expiry < limit
  expiry_le : expiry ≤ maximumValue

/-- The lease holds capacity. -/
def Lease.Live (now : ℕ) (l : Lease) : Prop := l.state = .active ∧ now < l.expiry

/-- The leases by ID. -/
abbrev Table := String → Option Lease

/-- The leases that hold capacity of a scope. -/
def Table.occupants (T : Table) (now : ℕ) (scope : Scope) : Set String :=
  {id | ∃ l, T id = some l ∧ l.Live now ∧ scope ∈ l.hierarchy.scopes}

/-- The table once the leases whose time is over are forgotten. -/
def Table.expire (T : Table) (now : ℕ) : Table := fun id =>
  (T id).filter fun l => now < l.limit

theorem Table.expire_eq_some {T : Table} {now : ℕ} {id : String} {l : Lease} :
    T.expire now id = some l ↔ T id = some l ∧ now < l.limit := by
  simp [expire,Option.filter_eq_some_iff]

variable (sha : String → String)

/-- The hash of a lease. -/
def Lease.fields (l : Lease) : Hash := fun field =>
  if field = "state" then some l.state.text
  else if field = "fingerprint" then some (redisScopeFingerprint sha l.hierarchy.scopes)
  else if field = "expiry_ms" then some l.expiry.repr
  else none

def encode : Option Lease → Hash
  | none => fun _ => none
  | some l => l.fields sha

/-- The server keeps the table. Members that have expired may linger in the sets, so the scores are
compared while they are in the future; a set outlives every such member. -/
structure Represents (keyPrefix : String) (T : Table) (s : Server) : Prop where
  clock : s.clock ≤ lastClock
  records : ∀ id, s.hash (leaseKey keyPrefix id) = encode sha (T id)
  limits : ∀ id l, T id = some l → s.hashExpiry (leaseKey keyPrefix id) = some l.limit
  members : ∀ scope, scope.validate → ∀ id e, s.clock < e →
    ((s.zset (scopeKey keyPrefix scope)).score id = some e ↔
      ∃ l, T id = some l ∧ l.state = .active ∧ l.expiry = e ∧ scope ∈ l.hierarchy.scopes)
  kept : ∀ scope, scope.validate → ∀ id e, s.clock < e →
    (s.zset (scopeKey keyPrefix scope)).score id = some e →
    ∃ limit, s.zsetExpiry (scopeKey keyPrefix scope) = some limit ∧ e < limit
  card : ∀ scope, scope.validate → (s.zset (scopeKey keyPrefix scope)).card ≤ maximumValue

variable {sha} {keyPrefix : String} {T : Table} {s t : Server}

theorem Lease.fields_close (l : Lease) (state : LeaseState) :
    update (l.fields sha) "state" (some state.text) =
      { l with state := state }.fields sha := by
  funext field
  by_cases h : field = "state" <;> simp [h,fields]

theorem readLease_fields (l : Lease) : readLease (l.fields sha) =
      some (redisScopeFingerprint sha l.hierarchy.scopes,l.expiry) := by
  have hread := readCount_of_counts (.inl rfl : Counts (fun _ => some l.expiry.repr) "" _)
    l.expiry_le
  simp [readLease,Lease.fields,hread]

theorem keys_nodup (limiter : RedisConcurrencyLimiter) (hy : Hierarchy) :
    (limiter.keys hy.scopes).Nodup :=
  List.Nodup.map_on (fun a ha b hb h => (scopeKey_inj (hy.scopes_valid a ha)
    (hy.scopes_valid b hb)).mp h) hy.scopes_nodup

theorem scopeKey_mem {limiter : RedisConcurrencyLimiter} {hy : Hierarchy} {scope : Scope}
    (hv : scope.validate) :
    scopeKey limiter.keyPrefix scope ∈ limiter.keys hy.scopes ↔ scope ∈ hy.scopes := by
  constructor
  · intro hmem
    obtain ⟨other,hother,heq⟩ := List.mem_map.mp hmem
    exact (scopeKey_inj (hy.scopes_valid other hother) hv).mp heq ▸ hother
  · exact List.mem_map_of_mem

/-! The table behind a server. -/

theorem represents_fresh (h : fresh s) : Represents sha keyPrefix (fun _ => none) s := by
  obtain ⟨now,hle,rfl⟩ := h
  exact ⟨hle,fun _ => rfl,by simp,by simp [zset,start],
    by simp [zset,start],by simp [zset,start,ZSet.card,ZSet.empty]⟩

theorem Represents.card_occupants (h : Represents sha keyPrefix T s) {scope : Scope}
    (hv : scope.validate) : (((s.zset (scopeKey keyPrefix scope)).removeUpTo s.clock).card : ℕ∞) =
      (T.occupants s.clock scope).encard := by
  rw [ZSet.card_removeUpTo]
  congr 1
  ext id
  simp only [Set.mem_ofPred_eq,Table.occupants,Lease.Live]
  constructor
  · rintro ⟨e,hscore,hlt⟩
    obtain ⟨l,hl,hstate,rfl,hscope⟩ := (h.members scope hv id e hlt).mp hscore
    exact ⟨l,hl,⟨hstate,hlt⟩,hscope⟩
  · rintro ⟨l,hl,⟨hstate,hlt⟩,hscope⟩
    exact ⟨l.expiry,(h.members scope hv id _ hlt).mpr ⟨l,hl,hstate,rfl,hscope⟩,hlt⟩

/-- Time passes: hashes and sets go at their expiry times, and no live lease with them. -/
theorem Represents.passes (h : Represents sha keyPrefix T s) (hpasses : Limits.passes s t) :
    Represents sha keyPrefix (T.expire t.clock) t := by
  obtain ⟨now,hnow,hle,rfl⟩ := hpasses
  have hclock : s.clock ≤ now / 1000 := Nat.div_le_div_right hnow
  simp only [tick_clock]
  constructor
  case clock => exact hle
  case records =>
    intro id
    cases hT : T id with
    | none =>
      have hrec := h.records id
      have hexpired : T.expire (now / 1000) id = none := by simp [Table.expire,hT]
      rw [hT] at hrec
      rw [hexpired]
      rcases s.tick_hash now (leaseKey keyPrefix id) with heq | heq
      · rw [heq,hrec]
      · exact heq
    | some l =>
      rcases tick_hash_of_expiry (h.limits id l hT) now with ⟨hlt,heq,-⟩ | ⟨hge,heq⟩
      · rw [heq,h.records,hT,Table.expire_eq_some.mpr ⟨hT,hlt⟩]
      · have hexpired : T.expire (now / 1000) id = none := by simp [Table.expire,hT,hge]
        rw [heq,hexpired]
        rfl
  case limits =>
    intro id l hl
    obtain ⟨hT,hlt⟩ := Table.expire_eq_some.mp hl
    rcases tick_hash_of_expiry (h.limits id l hT) now with ⟨-,-,heq⟩ | ⟨hge,-⟩
    · exact heq
    · omega
  case members =>
    intro scope hv id e hlt
    rw [tick_clock] at hlt
    have hold := h.members scope hv id e (by omega)
    have hscore : ((s.tick now).zset (scopeKey keyPrefix scope)).score id = some e ↔
        (s.zset (scopeKey keyPrefix scope)).score id = some e := by
      rcases s.tick_zset now (scopeKey keyPrefix scope) with ⟨heq,-⟩ | ⟨heq,limit,hlimit,hge⟩
      · rw [heq]
      · -- a set that has expired had no live member
        rw [heq,ZSet.score_empty]
        refine ⟨by rintro ⟨⟩,fun hs => ?_⟩
        obtain ⟨limit',hlimit',hlt'⟩ := h.kept scope hv id e (by omega) hs
        rw [hlimit] at hlimit'
        cases hlimit'
        omega
    rw [hscore,hold]
    constructor
    · rintro ⟨l,hT,hstate,rfl,hscope⟩
      have := l.expiry_lt
      exact ⟨l,Table.expire_eq_some.mpr ⟨hT,by omega⟩,hstate,rfl,hscope⟩
    · rintro ⟨l,hl,hrest⟩
      exact ⟨l,(Table.expire_eq_some.mp hl).1,hrest⟩
  case kept =>
    intro scope hv id e hlt hscore
    rw [tick_clock] at hlt
    rcases s.tick_zset now (scopeKey keyPrefix scope) with ⟨heq,hexp⟩ | ⟨heq,-⟩
    · rw [heq] at hscore
      rw [hexp]
      exact h.kept scope hv id e (by omega) hscore
    · rw [heq] at hscore
      cases hscore
  case card =>
    intro scope hv
    rcases s.tick_zset now (scopeKey keyPrefix scope) with ⟨heq,-⟩ | ⟨heq,-⟩
    · rw [heq]
      exact h.card scope hv
    · rw [heq]
      exact Nat.zero_le _

section
variable {limiter : RedisConcurrencyLimiter} {hy : Hierarchy} {f : ZSet → ZSet}
  {limit : Option ℕ → Option ℕ}

section
variable (h : Represents sha limiter.keyPrefix T s)
include h

theorem Represents.purged
    (hchg : s.ZsetsChange t (limiter.keys hy.scopes) (fun z => z.removeUpTo s.clock) id)
    (hhashes : t.hashes = s.hashes) : Represents sha limiter.keyPrefix T t := by
  have hscore (key id : String) (e : ℕ) (hlt : s.clock < e) :
      (t.zset key).score id = some e ↔ (s.zset key).score id = some e := by
    rw [hchg.zset]
    split
    · simp [Option.filter_eq_some_iff,hlt]
    · rfl
  have hhash (key : String) : t.hash key = s.hash key := by
    funext field
    rw [Server.hash,Server.hash,hhashes]
  constructor
  case clock =>
    rw [hchg.clock]
    exact h.clock
  case records =>
    intro id
    rw [hhash]
    exact h.records id
  case limits =>
    intro id l hl
    rw [hashExpiry,hhashes]
    exact h.limits id l hl
  case members =>
    intro scope hv id e hlt
    rw [hchg.clock] at hlt
    rw [hscore _ _ _ hlt]
    exact h.members scope hv id e hlt
  case kept =>
    intro scope hv id e hlt hs
    rw [hchg.clock] at hlt
    rw [hchg.expiry _ (ZSet.card_pos hs)]
    rw [hscore _ _ _ hlt] at hs
    simpa using h.kept scope hv id e hlt hs
  case card =>
    intro scope hv
    rw [hchg.zset]
    split
    · exact (ZSet.card_removeUpTo_le _).trans (h.card scope hv)
    · exact h.card scope hv

/-- Writing one lease: its hash, and its four sets, in which the other live members stay and the
lease itself has its expiry time as long as it is active. -/
theorem Represents.update {id : String}
    {l : Lease} (hprev : ∀ l', T id = some l' → l'.hierarchy = l.hierarchy)
    (hchg : s.ZsetsChange t (limiter.keys l.hierarchy.scopes) f limit)
    (hf : ∀ z m e, s.clock < e → ((f z).score m = some e ↔
      if m = id then l.state = .active ∧ l.expiry = e else z.score m = some e))
    (hkept : ∀ scope ∈ l.hierarchy.scopes, ∀ m e, s.clock < e →
      (f (s.zset (scopeKey limiter.keyPrefix scope))).score m = some e →
      ∃ b, limit (s.zsetExpiry (scopeKey limiter.keyPrefix scope)) = some b ∧ e < b)
    (hcard : ∀ scope ∈ l.hierarchy.scopes,
      (f (s.zset (scopeKey limiter.keyPrefix scope))).card ≤ maximumValue)
    (hhashes : t.hashes = update s.hashes (leaseKey limiter.keyPrefix id)
      (some ⟨l.fields sha,some l.limit⟩)) :
    Represents sha limiter.keyPrefix (update T id (some l)) t := by
  have hentry (other : String) : t.hashes (leaseKey limiter.keyPrefix other) =
      if other = id then some ⟨l.fields sha,some l.limit⟩
        else s.hashes (leaseKey limiter.keyPrefix other) := by
    rw [hhashes,update_apply]
    simp only [leaseKey_inj]
  have hzset {scope : Scope} (hv : scope.validate) :
      t.zset (scopeKey limiter.keyPrefix scope) = if scope ∈ l.hierarchy.scopes then
        f (s.zset (scopeKey limiter.keyPrefix scope))
        else s.zset (scopeKey limiter.keyPrefix scope) := by
    rw [hchg.zset]
    simp only [scopeKey_mem hv]
  constructor
  case clock =>
    rw [hchg.clock]
    exact h.clock
  case records =>
    intro other
    have hrec := h.records other
    funext field
    rw [Server.hash,hentry]
    by_cases hid : other = id
    · subst hid
      simp [encode]
    · rw [if_neg hid,update_of_ne hid,← hrec,Server.hash]
  case limits =>
    intro other l' hl'
    rw [Server.hashExpiry,hentry]
    by_cases hid : other = id
    · subst hid
      rw [update_self] at hl'
      cases hl'
      simp
    · rw [update_of_ne hid] at hl'
      rw [if_neg hid]
      exact h.limits other l' hl'
  case members =>
    intro scope hv m e hlt
    rw [hchg.clock] at hlt
    have hold := h.members scope hv m e hlt
    rw [hzset hv]
    by_cases hm : m = id
    · subst hm
      rw [update_self]
      split
      · rename_i hscope
        rw [hf _ _ _ hlt,if_pos rfl]
        constructor
        · rintro ⟨hstate,hexp⟩
          exact ⟨l,rfl,hstate,hexp,hscope⟩
        · rintro ⟨l',hl',hstate,hexp,-⟩
          cases hl'
          exact ⟨hstate,hexp⟩
      · rename_i hscope
        -- no lease under this ID has ever been in the set of another hierarchy
        rw [hold]
        constructor
        · rintro ⟨l',hl',-,-,hmem⟩
          rw [hprev l' hl'] at hmem
          exact absurd hmem hscope
        · rintro ⟨l',hl',-,-,hmem⟩
          cases hl'
          exact absurd hmem hscope
    · rw [update_of_ne hm,← hold]
      split
      · rw [hf _ _ _ hlt,if_neg hm]
      · rfl
  case kept =>
    intro scope hv m e hlt hs
    rw [hchg.clock] at hlt
    have hexp := hchg.expiry _ (ZSet.card_pos hs)
    simp only [scopeKey_mem hv] at hexp
    rw [hexp]
    rw [hzset hv] at hs
    split
    · rename_i hscope
      rw [if_pos hscope] at hs
      exact hkept scope hscope m e hlt hs
    · rename_i hscope
      rw [if_neg hscope] at hs
      exact h.kept scope hv m e hlt hs
  case card =>
    intro scope hv
    rw [hzset hv]
    split
    · rename_i hscope
      exact hcard scope hscope
    · exact h.card scope hv

end
end
end Limits.Concurrency
