import AiGateway.Limits.Concurrency.Agreement

/-! Instances of different configurations on one namespace, as during a rolling change of options.
Every admission and renewal overwrites the expiry time of four shared sets, so a set can expire
under the live lease of an instance whose leases last longer. -/
namespace Limits.Concurrency
open Redis Interleaving System List

/-- Every set outlives its live members. -/
def Outlives (keyPrefix : String) (s : Server) : Prop :=
  ∀ scope, scope.validate → ∀ id e, s.clock < e →
    (s.zset (scopeKey keyPrefix scope)).score id = some e →
    ∃ limit, s.zsetExpiry (scopeKey keyPrefix scope) = some limit ∧ e < limit

/-- `L` is at least every hard limit that a finished call has passed for the scope. -/
def LargestHard (D : Multiset (Call × Reply)) (scope : Scope) (L : ℕ) : Prop :=
  ∀ call a hard, (call,a) ∈ D → Bounds call scope hard → hard ≤ L

variable {sha : String → String} {keyPrefix : String} {s t : Server} {call : Call}
  {inUse : RedisConcurrencyLimiter → Prop}

theorem liveLeases_passes (hsha : CollisionFree sha)
    (hs : Coherent sha inUse keyPrefix s) (h : passes s t) (scope : Scope) :
    liveLeases sha keyPrefix t scope ⊆ liveLeases sha keyPrefix s scope := by
  obtain ⟨T,hT,-⟩ := hs
  rw [hT.liveLeases_eq hsha,(hT.passes h).liveLeases_eq hsha]
  rintro id ⟨l,hl,⟨hstate,hlt⟩,hscope⟩
  obtain ⟨now,hnow,-,rfl⟩ := h
  have hclock : s.clock ≤ now / 1000 := Nat.div_le_div_right hnow
  rw [Server.tick_clock] at hlt
  exact ⟨l,(Table.expire_eq_some.mp hl).1,⟨hstate,by omega⟩,hscope⟩

variable (sha keyPrefix s) in
/-- The live leases of a scope are at most as many as the largest limit passed for it. -/
def Limited (D : Multiset (Call × Reply)) : Prop :=
  ∀ scope, scope.validate → ∀ L, LargestHard D scope L →
    (liveLeases sha keyPrefix s scope).encard ≤ L

theorem limited_moves {D : Multiset (Call × Reply)} {a : Option Reply}
    (h : Limited sha keyPrefix s D) (hmoves : Moves sha keyPrefix call s t a) :
    Limited sha keyPrefix t (D + entry call a) := by
  intro scope hv L hL
  rcases hmoves.growth scope hv with hsub | ⟨hard,hbound,hle⟩
  · have hold := h scope hv L fun call' a' hard hmem => hL call' a' hard
      (Multiset.mem_add.mpr (.inl hmem))
    exact (Set.encard_le_encard hsub).trans hold
  · obtain ⟨reply,rfl⟩ := Option.isSome_iff_exists.mp hmoves.returns
    have hhard := hL call reply hard (Multiset.mem_add.mpr (.inr (by simp))) hbound
    exact hle.trans (by exact_mod_cast hhard)

theorem reachable_limited (hsha : CollisionFree sha) (hcompat : Compatible inUse keyPrefix)
    {p : Pool Server Oracle Call Reply} (hp : (system sha inUse).Reachable p) :
    Limited sha keyPrefix p.shared p.finished := by
  have hrec := system_recorded hsha hcompat
  refine ((hrec.and (J := Limited sha keyPrefix) ?_ ?_ ?_ ?_).inv hp).2
  · intro s hs scope _ L _
    have hempty : liveLeases sha keyPrefix s scope = ∅ := by
      rw [(represents_fresh hs).liveLeases_eq hsha]
      simp [Table.occupants]
    simp [hempty]
  · intro s t D hs h hpasses scope hv L hL
    exact (Set.encard_le_encard (liveLeases_passes hsha hs hpasses scope)).trans (h scope hv L hL)
  · intro call s D h scope hv L hL
    exact h scope hv L fun call' a' hard hmem => hL call' a' hard
      (Multiset.mem_add.mpr (.inl hmem))
  · intro call e s t D a _ h _ hmoves
    exact limited_moves h hmoves

/-! Two instances whose configurations do not fit. -/

theorem sampleBindings_normalized : normalizeRPMBindings (sampleBindings 1 2) =
      some (sampleHierarchy.scopes,(sampleBindings 1 2).map Binding.policy) := by
  decide +kernel

theorem samplePolicies_bound : Bound ((sampleBindings 1 2).map Binding.policy) :=
  ⟨rfl,by decide +kernel⟩

theorem samplePolicies_hard {pair : Scope × Effective}
    (h : pair ∈ sampleHierarchy.scopes.zip ((sampleBindings 1 2).map Binding.policy)) :
    pair.2.concurrency.hard = 2 := by
  have hall : ∀ policy ∈ (sampleBindings 1 2).map Binding.policy,
      policy.concurrency.hard = 2 := by decide +kernel
  exact hall pair.2 (of_mem_zip h).2

def sampleScript (sha : String → String) (i : RedisConcurrencyLimiter) (id : String)
    (s : Server) : Server :=
  (acquireScript sha i (sampleRequest id) sampleHierarchy.scopes
    ((sampleBindings 1 2).map Binding.policy) s).1

/-- One instance has acquired a lease, and another one a second lease for the same scopes. -/
def sampleShared (sha : String → String) (inUse : RedisConcurrencyLimiter → Prop)
    (i j : RedisConcurrencyLimiter) : Pool Server Oracle Call Reply :=
  (system sha inUse).exec [
    .spawn (.acquire i (sampleRequest "a")),.run 0 1 fun _ => sampleOracle,
    .spawn (.acquire j (sampleRequest "b")),.run 1 1 fun _ => sampleOracle] ⟨.start 0,[]⟩

theorem sampleShared_shared (i j : RedisConcurrencyLimiter) : (sampleShared sha inUse i j).shared =
      sampleScript sha j "b" (sampleScript sha i "a" (.start 0)) := by
  have ha : validRedisConcurrencyLeaseID "a" := by decide +kernel
  have hb : validRedisConcurrencyLeaseID "b" := by decide +kernel
  simp [sampleShared,exec,turn,system,Call.program,acquire,sampleRequest,ha,
    hb,sampleBindings_normalized,Prog.advance,Prog.write,evaluate,sampleOracle,sampleScript]

variable {i j : RedisConcurrencyLimiter}

theorem sampleShared_reachable (hi : inUse i) (hj : inUse j) :
    (system sha inUse).Reachable (sampleShared sha inUse i j) := by
  have hinit : (system sha inUse).Reachable ⟨Server.start 0,[]⟩ :=
    .init _ ⟨0,by decide,rfl⟩
  apply hinit.reaches (exec_reaches (by simp) _)
  intro call hcall _ _
  simp only [mem_cons,not_mem_nil,or_false,false_or,Turn.spawn.injEq,reduceCtorEq] at hcall
  rcases hcall with rfl | rfl
  · exact hi
  · exact hj

theorem sampleScript_writes {T : Table} {i : RedisConcurrencyLimiter} (id other : String)
    (h : Represents sha i.keyPrefix T s) (hid : T id = none)
    (hother : ∀ m, m ≠ other → T m = none) :
    Writes sha i id (newLease i sampleHierarchy s.clock h.clock) s (sampleScript sha i id s) := by
  show Writes sha i (sampleRequest id).leaseID _ s (acquireScript sha i
    (sampleRequest id) sampleHierarchy.scopes ((sampleBindings 1 2).map Binding.policy) s).1
  refine (acquireScript_admits h samplePolicies_bound hid sampleHierarchy fun pair hpair => ?_).1
  have hvalid := sampleHierarchy.scopes_valid pair.1 (of_mem_zip hpair).1
  have hsub : T.occupants s.clock pair.1 ⊆ {other} := by
    rintro m ⟨l,hl,-⟩
    by_contra hm
    rw [hother m hm] at hl
    cases hl
  have hle := (h.card_occupants hvalid).le.trans
    ((Set.encard_le_encard hsub).trans (Set.encard_singleton other).le)
  rw [samplePolicies_hard hpair]
  show ((s.zset (scopeKey i.keyPrefix pair.1)).removeUpTo s.clock).card < 2
  have : ((s.zset (scopeKey i.keyPrefix pair.1)).removeUpTo s.clock).card ≤ 1 := by
    exact_mod_cast hle
  omega

/-- A set that outlives the lease of the first instance was kept for long enough by the second. -/
theorem covers_of_outlives (hkey : j.keyPrefix = i.keyPrefix)
    (h : Outlives i.keyPrefix (sampleScript sha j "b"
      (sampleScript sha i "a" (.start 0)))) : i.leaseMS < j.leaseMS + j.retainMS := by
  have hlease := i.lease_ge
  simp only [minimumRedisConcurrencyLeaseMS] at hlease
  have hs : Represents sha i.keyPrefix (fun _ => none) (.start 0) :=
    represents_fresh ⟨0,by decide,rfl⟩
  have hfirst := sampleScript_writes "a" "a" hs rfl fun _ _ => rfl
  generalize sampleScript sha i "a" (.start 0) = t at h hfirst
  have hclock : t.clock = 0 := hfirst.sets.clock
  have ht : Represents sha j.keyPrefix
      (Function.update (fun _ => none) "a" (some (newLease i sampleHierarchy _ hs.clock))) t := by
    rw [hkey]
    apply hs.writes _ rfl _ _ hfirst
    · intro l' hl'
      cases hl'
    · intro m l' hl'
      cases hl'
    · intro scope _
      show 1 ≤ maximumValue
      decide
  have hsecond := sampleScript_writes "b" "a" ht rfl fun m hm => by simp [hm]
  generalize sampleScript sha j "b" t = u at h hsecond
  -- The set of the key scope, after both scripts.
  obtain ⟨scope,hscope⟩ := exists_mem_of_ne_nil sampleHierarchy.scopes (by decide)
  have hvalid := sampleHierarchy.scopes_valid scope hscope
  have hmem : scopeKey i.keyPrefix scope ∈
      j.keys (newLease j sampleHierarchy t.clock ht.clock).hierarchy.scopes := by
    show scopeKey i.keyPrefix scope ∈ j.keys sampleHierarchy.scopes
    rw [← hkey]
    exact mem_map_of_mem hscope
  have hzset : u.zset (scopeKey i.keyPrefix scope) =
      ((t.zset (scopeKey i.keyPrefix scope)).removeUpTo t.clock).add "b" (t.clock + j.leaseMS) := by
    rw [hsecond.sets.zset,if_pos hmem]
    rfl
  have hold : (t.zset (scopeKey i.keyPrefix scope)).score "a" = some i.leaseMS := by
    have := (ht.members scope hvalid "a" i.leaseMS (by omega)).mpr
      ⟨newLease i sampleHierarchy _ hs.clock,by simp,rfl,Nat.zero_add _,hscope⟩
    rwa [hkey] at this
  have hscore : (u.zset (scopeKey i.keyPrefix scope)).score "a" = some i.leaseMS := by
    rw [hzset]
    simp [hold,hclock]
    omega
  have hnow : u.clock = 0 := hsecond.sets.clock.trans hclock
  obtain ⟨limit,hlimit,hlt⟩ := h scope hvalid "a" i.leaseMS (by omega) hscore
  rw [hsecond.sets.expiry _ (ZSet.card_pos hscore),if_pos hmem] at hlimit
  simp only [newLease,Option.some.injEq] at hlimit
  omega

variable (sha keyPrefix) in
/-- What sharing a namespace is to keep, at every state of every run. -/
structure Safe (p : Pool Server Oracle Call Reply) : Prop where
  outlives : Outlives keyPrefix p.shared
  counted : ∀ id hy e, Active sha keyPrefix p.shared id hy e → p.shared.clock < e →
    ∀ scope ∈ hy.scopes, (p.shared.zset (scopeKey keyPrefix scope)).score id = some e
  limited : Limited sha keyPrefix p.shared p.finished

/-- The instances on one namespace never lose a live lease, whatever they do, exactly where each of
them keeps a set for longer than any lease of another one lasts. -/
theorem sharedPrefix_safe_iff {sha : String → String} (hsha : CollisionFree sha)
    {inUse : RedisConcurrencyLimiter → Prop} {keyPrefix : String}
    (hkey : ∀ i, inUse i → i.keyPrefix = keyPrefix) :
    (∀ p, (system sha inUse).Reachable p → Safe sha keyPrefix p) ↔
      ∀ i j, inUse i → inUse j → i.leaseMS < j.leaseMS + j.retainMS := by
  constructor
  · intro h i j hi hj
    have hout := (h _ (sampleShared_reachable hi hj)).outlives
    rw [sampleShared_shared,← hkey i hi] at hout
    exact covers_of_outlives ((hkey j hj).trans (hkey i hi).symm) hout
  · intro hcovers p hp
    have hcompat : Compatible inUse keyPrefix := ⟨hkey,hcovers⟩
    obtain ⟨T,hT,-⟩ := (system_recorded hsha hcompat).inv hp
    exact ⟨hT.kept,fun id hy e hactive hlt => ((hT.agree hsha id hy e).mp ⟨hactive,hlt⟩).1,
      reachable_limited hsha hcompat hp⟩

theorem sampleRun_safe : CollisionFree sampleDigest ∧
    Safe sampleDigest sampleLimiter.keyPrefix sampleRun :=
  ⟨sampleDigest_collisionFree,(sharedPrefix_safe_iff sampleDigest_collisionFree
    (compatible_single sampleLimiter).shared).mpr (compatible_single sampleLimiter).covers _
      sampleRun_reachable⟩

/-- A rolling change from leases of thirty seconds to leases of a tenth of a second. -/
def sampleFleet (i : RedisConcurrencyLimiter) : Prop := i = sampleLimiter ∨ i = briefLimiter

/-- An old instance has acquired a lease for thirty seconds and a new one a brief lease. -/
def sampleMixed : Pool Server Oracle Call Reply :=
  sampleShared sampleDigest sampleFleet sampleLimiter briefLimiter

/-- Fifty milliseconds after the sets have expired, two more leases are acquired. -/
def sampleRollout : Pool Server Oracle Call Reply :=
  (system sampleDigest sampleFleet).exec [
    .spawn (.acquire sampleLimiter (sampleRequest "c")),.run 2 1 fun _ => sampleOracle,
    .spawn (.acquire sampleLimiter (sampleRequest "d")),.run 3 1 fun _ => sampleOracle]
    ⟨sampleMixed.shared.tick 151000,sampleMixed.threads⟩

theorem sampleMixed_calls : sampleMixed.threads.map Prod.fst =
    [.acquire sampleLimiter (sampleRequest "a"),.acquire briefLimiter (sampleRequest "b")] := by
  decide +kernel

theorem sampleRollout_calls : sampleRollout.threads.map Prod.fst =
    [.acquire sampleLimiter (sampleRequest "a"),.acquire briefLimiter (sampleRequest "b"),
      .acquire sampleLimiter (sampleRequest "c"),.acquire sampleLimiter (sampleRequest "d")] := by
  decide +kernel

theorem sampleRollout_reachable : (system sampleDigest sampleFleet).Reachable sampleRollout := by
  have hmixed : (system sampleDigest sampleFleet).Reachable sampleMixed :=
    sampleShared_reachable (.inl rfl) (.inr rfl)
  have hpasses : passes sampleMixed.shared (sampleMixed.shared.tick 151000) :=
    ⟨151000,by decide +kernel,by decide +kernel,rfl⟩
  apply (hmixed.step (.env sampleMixed _ hpasses)).reaches (exec_reaches _ _)
  · intro thread hthread _ _
    have hcall : thread.1 ∈ sampleMixed.threads.map Prod.fst := mem_map_of_mem hthread
    simp only [sampleMixed_calls,mem_cons,not_mem_nil,or_false] at hcall
    rcases hcall with hcall | hcall
    · exact .inl (by rw [hcall]; rfl)
    · exact .inr (by rw [hcall]; rfl)
  · intro call hcall _ _
    simp only [mem_cons,not_mem_nil,or_false,false_or,Turn.spawn.injEq,reduceCtorEq] at hcall
    rcases hcall with rfl | rfl
    · exact .inl rfl
    · exact .inl rfl

theorem sampleRequest_hard {i : RedisConcurrencyLimiter} {id : String} {scope : Scope} {hard : ℕ}
    (h : Bounds (.acquire i (sampleRequest id)) scope hard) : hard = 2 := by
  obtain ⟨_,_,scopes,policies,policy,hcall,hbinds,hmem,rfl⟩ := h
  cases hcall
  rw [show (sampleRequest id).bindings = sampleBindings 1 2 from rfl,
    sampleBindings_normalized] at hbinds
  cases hbinds
  exact samplePolicies_hard hmem

theorem sampleRollout_largestHard (scope : Scope) : LargestHard sampleRollout.finished scope 2 := by
  intro call a hard hmem hbounds
  have hcall : call ∈ sampleRollout.threads.map Prod.fst :=
    mem_map_of_mem (Pool.mem_finished.mp hmem)
  simp only [sampleRollout_calls,mem_cons,not_mem_nil,or_false] at hcall
  rcases hcall with rfl | rfl | rfl | rfl <;> exact (sampleRequest_hard hbounds).le

theorem sampleRollout_live : ∀ lease ∈ [("a",30000),("c",30151),("d",30151)],
    sampleRollout.shared.clock < lease.2 ∧
    [some "active",some (redisScopeFingerprint sampleDigest sampleHierarchy.scopes),
      some (Nat.repr lease.2)] = ["state","fingerprint","expiry_ms"].map
        (sampleRollout.shared.hash (leaseKey sampleLimiter.keyPrefix lease.1)) := by
  decide +kernel

/-- The set of the platform expires with the brief lease, while the first lease is live; two more
are then admitted, and three are live under a hard limit of two. -/
theorem sampleRollout_overcommits : (system sampleDigest sampleFleet).Reachable sampleRollout ∧
    (sampleMixed.shared.zset (scopeKey sampleLimiter.keyPrefix platformScope)).score "a" =
    some 30000 ∧
    sampleMixed.shared.zsetExpiry (scopeKey sampleLimiter.keyPrefix platformScope) = some 101 ∧
    (sampleRollout.shared.zset (scopeKey sampleLimiter.keyPrefix platformScope)).score "a" = none ∧
    LargestHard sampleRollout.finished platformScope 2 ∧
    3 ≤ (liveLeases sampleDigest sampleLimiter.keyPrefix sampleRollout.shared
    platformScope).encard := by
  refine ⟨sampleRollout_reachable,by decide +kernel,by decide +kernel,by decide +kernel,
    sampleRollout_largestHard _,?_⟩
  have hlive : ({"a", "c", "d"} : Set String) ⊆
      liveLeases sampleDigest sampleLimiter.keyPrefix sampleRollout.shared platformScope := by
    intro id hid
    obtain ⟨e,hmem⟩ : ∃ e, (id,e) ∈ [("a",30000),("c",30151),("d",30151)] := by
      rcases hid with rfl | rfl | rfl <;> simp
    obtain ⟨hlt,hfields⟩ := sampleRollout_live _ hmem
    simp only [map_cons,cons.injEq] at hfields
    exact ⟨sampleHierarchy,e,⟨hfields.1.symm,hfields.2.1.symm,hfields.2.2.1.symm⟩,hlt,by decide⟩
  have hthree : ({"a", "c", "d"} : Set String).encard = 3 := by
    rw [Set.encard_insert_of_notMem (by simp),Set.encard_pair (by simp)]
    rfl
  exact hthree.symm.le.trans (Set.encard_le_encard hlive)

end Limits.Concurrency
