import AiGateway.Limits.Concurrency.Lifecycle

/-! In every run of the concurrency limiter the lease hashes and the sorted sets agree, as long as
no instance in use writes an expiry time to a set that another instance's leases outlive. -/
namespace Limits.Concurrency
open Redis Interleaving Function Table

variable (sha : String → String)

/-- The hash of the lease says that it is active on these scopes until `e`. -/
def Active (keyPrefix : String) (s : Server) (id : String) (hy : Hierarchy) (e : ℕ) : Prop :=
  s.hash (leaseKey keyPrefix id) "state" = some "active" ∧
    s.hash (leaseKey keyPrefix id) "fingerprint" =
      some (redisScopeFingerprint sha hy.scopes) ∧
    s.hash (leaseKey keyPrefix id) "expiry_ms" = some e.repr

/-- The leases whose hash says that they hold capacity of the scope. -/
def liveLeases (keyPrefix : String) (s : Server) (scope : Scope) : Set String :=
  {id | ∃ hy e, Active sha keyPrefix s id hy e ∧ s.clock < e ∧ scope ∈ hy.scopes}

/-- The instances in use share a namespace, and each keeps a set for longer than any lease of
another one lasts. -/
structure Compatible (inUse : RedisConcurrencyLimiter → Prop) (keyPrefix : String) : Prop where
  shared : ∀ i, inUse i → i.keyPrefix = keyPrefix
  covers : ∀ i j, inUse i → inUse j → i.leaseMS < j.leaseMS + j.retainMS

/-- The invariant of the server. -/
def Coherent (inUse : RedisConcurrencyLimiter → Prop) (keyPrefix : String) (s : Server) : Prop :=
  ∃ T, Represents sha keyPrefix T s ∧
    ∀ id l, T id = some l → ∃ i, inUse i ∧ l.expiry ≤ s.clock + i.leaseMS

/-- The call is an admission to the scope under this hard limit. -/
def Bounds (call : Call) (scope : Scope) (hard : ℕ) : Prop :=
  ∃ limiter request scopes policies policy, call = .acquire limiter request ∧
    normalizeRPMBindings request.bindings = some (scopes,policies) ∧
    (scope,policy) ∈ scopes.zip policies ∧ hard = policy.concurrency.hard

/-- A new lease was admitted. -/
def Reply.fresh : Reply → Bool
  | .acquired (.ok a) => a.allowed && !a.idempotent
  | _ => false

/-- The call was denied, or met a conflict or an expired lease. -/
def Reply.refused : Reply → Bool
  | .acquired (.ok a) => a.rejection.isSome
  | .acquired (.error f) => f == .conflict || f == .expired
  | .renewed (.error f) => f == .conflict || f == .expired
  | .released (.error f) => f == .conflict || f == .expired
  | _ => false

/-- What the one step of a call may do. -/
structure Moves (keyPrefix : String) (call : Call) (s t : Server) (reply : Option Reply) :
    Prop where
  returns : reply.isSome
  protocol : ∀ a f, reply = some a → a.failure = some f → f.isProtocol = false
  fresh : ∀ a, reply = some a → a.fresh → ∀ scope hard, Bounds call scope hard →
    (liveLeases sha keyPrefix t scope).encard ≤ hard
  refused : ∀ a, reply = some a → a.refused → t.clock = s.clock ∧ ∀ id hy e, s.clock < e →
      (Active sha keyPrefix t id hy e ↔ Active sha keyPrefix s id hy e)
  growth : ∀ scope, scope.validate →
    liveLeases sha keyPrefix t scope ⊆ liveLeases sha keyPrefix s scope ∨
      ∃ hard, Bounds call scope hard ∧ (liveLeases sha keyPrefix t scope).encard ≤ hard

variable {sha} {keyPrefix : String} {T : Table} {s t : Server} {call : Call}

theorem validateRedisConcurrencyHandle_eq_some {handle : Handle} {scopes : List Scope}
    (h : validateRedisConcurrencyHandle handle = some scopes) :
    ∃ hy : Hierarchy, scopes = hy.scopes := by
  unfold validateRedisConcurrencyHandle at h
  split at h
  · cases h
  · exact (normalizeScopes_eq_some h).1

/-! The table, read from the server. -/

variable {id : String}

section
variable (hsha : CollisionFree sha) (h : Represents sha keyPrefix T s)
include hsha h

theorem Represents.active_iff {hy : Hierarchy} {e : ℕ} : Active sha keyPrefix s id hy e ↔
      ∃ l, T id = some l ∧ l.state = .active ∧ l.hierarchy = hy ∧ l.expiry = e := by
  unfold Active
  rw [h.records]
  constructor
  · rintro ⟨hstate,hprint,hexp⟩
    cases hl : T id with
    | none =>
      rw [hl] at hstate
      cases hstate
    | some l =>
      rw [hl] at hstate hprint hexp
      simp only [encode,Lease.fields,String.reduceEq,if_true,if_false,Option.some.injEq]
        at hstate hprint hexp
      refine ⟨l,rfl,?_,redisScopeFingerprint_inj hsha hprint,Text.repr_injective hexp⟩
      cases hst : l.state <;> simp [hst,LeaseState.text] at hstate ⊢
  · rintro ⟨l,hl,hstate,rfl,rfl⟩
    rw [hl]
    simp [encode,Lease.fields,hstate,LeaseState.text]

theorem Represents.liveLeases_eq (scope : Scope) :
    liveLeases sha keyPrefix s scope = T.occupants s.clock scope := by
  ext id
  simp only [liveLeases,occupants,Set.mem_ofPred_eq,h.active_iff hsha]
  constructor
  · rintro ⟨hy,e,⟨l,hl,hstate,rfl,rfl⟩,hlt,hscope⟩
    exact ⟨l,hl,⟨hstate,hlt⟩,hscope⟩
  · rintro ⟨l,hl,⟨hstate,hlt⟩,hscope⟩
    exact ⟨l.hierarchy,l.expiry,⟨l,hl,hstate,rfl,rfl⟩,hlt,hscope⟩

end

theorem hierarchy_eq_of_key {hy hy' : Hierarchy}
    (h : (⟨.key,hy.tenantID,hy.projectID,hy.keyID⟩ : Scope) ∈ hy'.scopes) : hy' = hy := by
  cases hy
  cases hy'
  simp_all [Hierarchy.scopes]

theorem Represents.agree (hsha : CollisionFree sha) (h : Represents sha keyPrefix T s)
    (id : String) (hy : Hierarchy) (e : ℕ) : Active sha keyPrefix s id hy e ∧ s.clock < e ↔
      (∀ scope ∈ hy.scopes, (s.zset (scopeKey keyPrefix scope)).score id = some e) ∧
        s.clock < e := by
  constructor
  · rintro ⟨hactive,hlt⟩
    obtain ⟨l,hl,hstate,rfl,rfl⟩ := (h.active_iff hsha).mp hactive
    exact ⟨fun scope hscope => (h.members scope (l.hierarchy.scopes_valid scope hscope) id _
      hlt).mpr ⟨l,hl,hstate,rfl,hscope⟩,hlt⟩
  · rintro ⟨hscores,hlt⟩
    have hkey : (⟨.key,hy.tenantID,hy.projectID,hy.keyID⟩ : Scope) ∈ hy.scopes := by
      simp [Hierarchy.scopes]
    obtain ⟨l,hl,hstate,rfl,hmem⟩ :=
      (h.members _ (hy.scopes_valid _ hkey) id e hlt).mp (hscores _ hkey)
    exact ⟨(h.active_iff hsha).mpr ⟨l,hl,hstate,hierarchy_eq_of_key hmem,rfl⟩,hlt⟩

/-! Steps. -/

variable {l : Lease} {now : ℕ}

theorem mem_occupants_update {m : String} {scope : Scope} :
    m ∈ occupants (update T id (some l)) now scope ↔
      if m = id then l.Live now ∧ scope ∈ l.hierarchy.scopes else m ∈ T.occupants now scope := by
  by_cases hm : m = id
  · subst hm
    simp [occupants]
  · simp [occupants,hm]

/-- A step, in terms of the tables before and after it. -/
structure TableMoves (call : Call) (now : ℕ) (T T' : Table) (a : Reply) : Prop where
  protocol : ∀ f, a.failure = some f → f.isProtocol = false
  fresh : a.fresh → ∀ scope hard, Bounds call scope hard →
    (T'.occupants now scope).encard ≤ hard
  refused : a.refused → ∀ id l, l.Live now → (T' id = some l ↔ T id = some l)
  growth : ∀ scope, T'.occupants now scope ⊆ T.occupants now scope ∨
    ∃ hard, Bounds call scope hard ∧ (T'.occupants now scope).encard ≤ hard

variable {a : Reply}

theorem TableMoves.moves {T' : Table} (hsha : CollisionFree sha)
    (h : Represents sha keyPrefix T s) (h' : Represents sha keyPrefix T' t)
    (hclock : t.clock = s.clock) (hmoves : TableMoves call s.clock T T' a) :
    Moves sha keyPrefix call s t (some a) where
  returns := rfl
  protocol b f hb hf := by
    cases hb
    exact hmoves.protocol f hf
  fresh b hb hfresh scope hard hbound := by
    cases hb
    rw [h'.liveLeases_eq hsha,hclock]
    exact hmoves.fresh hfresh scope hard hbound
  refused b hb hrefused := by
    cases hb
    refine ⟨hclock,fun id hy e hlt => ?_⟩
    rw [h.active_iff hsha,h'.active_iff hsha]
    constructor
    · rintro ⟨l,hl,hstate,hhy,rfl⟩
      exact ⟨l,(hmoves.refused hrefused id l ⟨hstate,hlt⟩).mp hl,hstate,hhy,rfl⟩
    · rintro ⟨l,hl,hstate,hhy,rfl⟩
      exact ⟨l,(hmoves.refused hrefused id l ⟨hstate,hlt⟩).mpr hl,hstate,hhy,rfl⟩
  growth scope _ := by
    rw [h.liveLeases_eq hsha,h'.liveLeases_eq hsha,hclock]
    exact hmoves.growth scope

theorem moves_of_fault {script : String} (ha : a.failure = some (.evaluation script))
    (hgrowth : ∀ scope, scope.validate →
      liveLeases sha keyPrefix t scope ⊆ liveLeases sha keyPrefix s scope ∨
        ∃ hard, Bounds call scope hard ∧ (liveLeases sha keyPrefix t scope).encard ≤ hard) :
    Moves sha keyPrefix call s t (some a) where
  returns := rfl
  protocol b f hb hf := by
    cases hb
    rw [ha] at hf
    cases hf
    rfl
  fresh b hb hfresh := by
    cases hb
    unfold Reply.fresh at hfresh
    split at hfresh
    · cases ha
    · cases hfresh
  refused b hb hrefused := by
    cases hb
    unfold Reply.failure at ha
    split at ha <;> cases ha <;> simp [Reply.refused] at hrefused
  growth := hgrowth

/-- What holds of a script with its reply holds of its evaluation, with or without the reply. -/
theorem evaluate_moves {I : Server → Prop} {script : Script} (reply : Option Value → Reply)
    {name : String} (hname : (reply none).failure = some (.evaluation name)) (hs : I s)
    (hscript : I (script s).1 ∧
      Moves sha keyPrefix call s (script s).1 (some (reply (script s).2))) (e : Oracle) :
    I (evaluate script e s).1 ∧ Moves sha keyPrefix call s (evaluate script e s).1
        (some (reply (evaluate script e s).2)) := by
  rcases evaluate_cases script e s with heval | heval | heval
  · rw [heval]
    exact ⟨hs,moves_of_fault hname fun _ _ => .inl fun _ h => h⟩
  · rw [heval]
    exact ⟨hscript.1,moves_of_fault hname hscript.2.growth⟩
  · rw [heval]
    exact hscript

section
variable {inUse : RedisConcurrencyLimiter → Prop} {limiter : RedisConcurrencyLimiter}
  {hy : Hierarchy} {T' : Table}
variable (inUse) in
/-- No lease outlasts what an instance in use gives to one. -/
def WithinLease (T : Table) (s : Server) : Prop :=
  ∀ id l, T id = some l → ∃ i, inUse i ∧ l.expiry ≤ s.clock + i.leaseMS

theorem Coherent.writes (hcompat : Compatible inUse limiter.keyPrefix) (hin : inUse limiter)
    (h : Represents sha limiter.keyPrefix T s) (hreach : WithinLease inUse T s)
    (hnow : s.clock ≤ lastClock) (hprev : ∀ l', T id = some l' → l'.hierarchy = hy)
    (hcard : ∀ scope ∈ hy.scopes, (((s.zset (scopeKey limiter.keyPrefix scope)).removeUpTo
      s.clock).add id (s.clock + limiter.leaseMS)).card ≤ maximumValue)
    (hw : Writes sha limiter id (newLease limiter hy s.clock hnow) s t) :
    Represents sha limiter.keyPrefix (update T id (some (newLease limiter hy s.clock hnow))) t ∧
      WithinLease inUse (update T id (some (newLease limiter hy s.clock hnow))) t := by
  constructor
  · apply h.writes hprev rfl _ hcard hw
    intro m l' hl' _
    obtain ⟨i,hi,hle⟩ := hreach m l' hl'
    have := hcompat.covers i limiter hi hin
    simp only [newLease]
    omega
  · intro m l hl
    rw [hw.sets.clock]
    by_cases hm : m = id
    · rw [hm,update_self] at hl
      cases hl
      exact ⟨limiter,hin,le_rfl⟩
    · rw [update_of_ne hm] at hl
      exact hreach m l hl

variable {state : LeaseState}

theorem Coherent.closes (h : Represents sha limiter.keyPrefix T s) (hreach : WithinLease inUse T s)
    (hl : T id = some l) (hstate : state ≠ .active) (hc : Closes sha limiter id l state s t) :
    Represents sha limiter.keyPrefix (update T id (some { l with state := state })) t ∧
      WithinLease inUse (update T id (some { l with state := state })) t := by
  refine ⟨h.closes hl hstate hc,fun m l' hl' => ?_⟩
  obtain ⟨⟨f,hsets,-⟩,-⟩ := hc
  rw [hsets.clock]
  by_cases hm : m = id
  · rw [hm,update_self] at hl'
    cases hl'
    exact hreach id l hl
  · rw [update_of_ne hm] at hl'
    exact hreach m l' hl'

theorem occupants_close (hstate : state ≠ .active) (now : ℕ) (scope : Scope) :
    occupants (update T id (some { l with state := state })) now scope ⊆ T.occupants now scope := by
  intro m hm
  rw [mem_occupants_update] at hm
  split at hm
  · exact absurd hm.1.1 hstate
  · exact hm

theorem live_close {m : String} {l' : Lease} (hl : T id = some l) (hlate : l.expiry ≤ now)
    (hstate : state ≠ .active) (hlive : l'.Live now) :
    update T id (some { l with state := state }) m = some l' ↔ T m = some l' := by
  by_cases hm : m = id
  · subst hm
    rw [update_self,hl]
    constructor
    · intro h
      cases h
      exact absurd hlive.1 hstate
    · intro h
      cases h
      have := hlive.2
      omega
  · rw [update_of_ne hm]

variable {request : AcquireRequest} {policies : List Effective}

theorem card_admitted (h : Represents sha limiter.keyPrefix T s) (hb : Bound policies)
    (hl : T id = none)
    (hroom : ∀ pair ∈ hy.scopes.zip policies,
      (T.occupants s.clock pair.1).encard + 1 ≤ pair.2.concurrency.hard) (e : ℕ) :
    ∀ scope ∈ hy.scopes, (((s.zset (scopeKey limiter.keyPrefix scope)).removeUpTo
      s.clock).add id e).card ≤ maximumValue := by
  intro scope hscope
  have hv := hy.scopes_valid scope hscope
  obtain ⟨policy,hmem⟩ := hb.exists_policy hscope
  have hle := hroom _ hmem
  have hmax := (concurrency_hard hb (List.of_mem_zip hmem).2).2
  rw [ZSet.card_add (h.score_none (by simp [hl]) hv)]
  rw [← h.card_occupants hv] at hle
  have hcard : ((s.zset (scopeKey limiter.keyPrefix scope)).removeUpTo s.clock).card + 1 ≤
      policy.concurrency.hard := by exact_mod_cast hle
  omega

theorem tableMoves_admitted (hbinds : normalizeRPMBindings request.bindings =
      some (hy.scopes,policies)) (hb : Bound policies) (hnow : s.clock ≤ lastClock)
    (hroom : ∀ pair ∈ hy.scopes.zip policies,
      (T.occupants s.clock pair.1).encard + 1 ≤ pair.2.concurrency.hard) {a : Admission}
    (ha : Admitted request hy false a) :
    TableMoves (.acquire limiter request) s.clock T (update T request.leaseID
      (some (newLease limiter hy s.clock hnow))) (.acquired (.ok a)) := by
  have hcount : ∀ pair ∈ hy.scopes.zip policies, (occupants (update T
      request.leaseID (some (newLease limiter hy s.clock hnow))) s.clock pair.1).encard ≤
      pair.2.concurrency.hard := by
    intro pair hpair
    have hsub : occupants (update T request.leaseID
        (some (newLease limiter hy s.clock hnow))) s.clock pair.1 ⊆
        insert request.leaseID (T.occupants s.clock pair.1) := by
      intro m hm
      rw [mem_occupants_update] at hm
      split at hm
      · rename_i heq
        exact .inl heq
      · exact .inr hm
    calc
      _ ≤ (insert request.leaseID (T.occupants s.clock pair.1)).encard :=
        Set.encard_le_encard hsub
      _ ≤ (T.occupants s.clock pair.1).encard + 1 := Set.encard_insert_le _ _
      _ ≤ _ := hroom pair hpair
  constructor
  case protocol =>
    rintro f ⟨⟩
  case fresh =>
    rintro _ scope hard ⟨limiter',request',scopes',policies',policy,hcall,hbind,hmem,rfl⟩
    cases hcall
    rw [hbinds] at hbind
    cases hbind
    exact hcount _ hmem
  case refused =>
    intro hrefused
    simp [Reply.refused,ha.rejection] at hrefused
  case growth =>
    intro scope
    by_cases hscope : scope ∈ hy.scopes
    · obtain ⟨policy,hmem⟩ := hb.exists_policy hscope
      exact .inr ⟨_,⟨limiter,request,_,_,policy,rfl,hbinds,hmem,rfl⟩,hcount _ hmem⟩
    · left
      intro m hm
      rw [mem_occupants_update] at hm
      split at hm
      · exact absurd hm.2 hscope
      · exact hm

theorem tableMoves_refl (hproto : ∀ f, a.failure = some f → f.isProtocol = false)
    (hfresh : a.fresh = false) : TableMoves call now T T a where
  protocol := hproto
  fresh h := by
    rw [hfresh] at h
    cases h
  refused _ _ _ _ := Iff.rfl
  growth _ := .inl fun _ h => h

theorem tableMoves_close (hl : T id = some l) (hstate : state ≠ .active)
    (hproto : ∀ f, a.failure = some f → f.isProtocol = false) (hfresh : a.fresh = false)
    (hrefused : a.refused → l.expiry ≤ now) :
    TableMoves call now T (update T id (some { l with state := state })) a where
  protocol := hproto
  fresh h := by
    rw [hfresh] at h
    cases h
  refused h _ _ hlive := live_close hl (hrefused h) hstate hlive
  growth scope := .inl (occupants_close hstate now scope)

theorem AcquireOutcome.step {result : Except Failure Admission} (hsha : CollisionFree sha)
    (hcompat : Compatible inUse limiter.keyPrefix) (hin : inUse limiter)
    (h : Represents sha limiter.keyPrefix T s) (hreach : WithinLease inUse T s)
    (hbinds : normalizeRPMBindings request.bindings = some (hy.scopes,policies))
    (hb : Bound policies) (hout : AcquireOutcome sha limiter request hy policies T s t T' result) :
    Coherent sha inUse limiter.keyPrefix t ∧
      Moves sha limiter.keyPrefix (.acquire limiter request) s t (some (.acquired result)) := by
  cases hout with
  | conflict l hl =>
    refine ⟨⟨T,h,hreach⟩,(tableMoves_refl ?_ rfl).moves hsha h h rfl⟩
    rintro f ⟨⟩
    rfl
  | expired _ l hl hlate hc =>
    have hclosed := Coherent.closes h hreach hl (by decide) hc
    obtain ⟨⟨f,hsets,-⟩,-⟩ := hc
    refine ⟨⟨_,hclosed⟩,(tableMoves_close hl (by decide) ?_ rfl fun _ => hlate).moves hsha h
      hclosed.1 hsets.clock⟩
    rintro f ⟨⟩
    rfl
  | replay _ a hp ha =>
    refine ⟨⟨T,h.purges hp,?_⟩,(tableMoves_refl ?_ ?_).moves hsha h (h.purges hp) hp.sets.clock⟩
    · rwa [hp.sets.clock]
    · rintro f ⟨⟩
    · simp [Reply.fresh,ha.idempotent]
  | denied _ a hp hi hr =>
    refine ⟨⟨T,h.purges hp,?_⟩,(tableMoves_refl ?_ ?_).moves hsha h (h.purges hp) hp.sets.clock⟩
    · rwa [hp.sets.clock]
    · rintro f ⟨⟩
    · obtain ⟨rejection,hrej⟩ := Option.isSome_iff_exists.mp hr
      simp [Reply.fresh,Admission.allowed,hrej]
  | admitted _ a hnow hl hroom hw ha =>
    have hwritten := Coherent.writes hcompat hin h hreach hnow (by simp [hl])
      (card_admitted h hb hl hroom _) hw
    exact ⟨⟨_,hwritten⟩,(tableMoves_admitted hbinds hb hnow hroom ha).moves hsha h
      hwritten.1 hw.sets.clock⟩

variable {handle : Handle}

theorem RenewOutcome.step {result : Except Failure Renewal} (hsha : CollisionFree sha)
    (hcompat : Compatible inUse limiter.keyPrefix) (hin : inUse limiter)
    (h : Represents sha limiter.keyPrefix T s) (hreach : WithinLease inUse T s)
    (hout : RenewOutcome sha limiter handle hy T s t T' result) :
    Coherent sha inUse limiter.keyPrefix t ∧
      Moves sha limiter.keyPrefix (.renew limiter handle) s t (some (.renewed result)) := by
  cases hout with
  | refused f hf =>
    refine ⟨⟨T,h,hreach⟩,(tableMoves_refl ?_ rfl).moves hsha h h rfl⟩
    rintro f' ⟨⟩
    rcases hf with rfl | rfl <;> rfl
  | expired _ l hl hlate hc =>
    have hclosed := Coherent.closes h hreach hl (by decide) hc
    obtain ⟨⟨f,hsets,-⟩,-⟩ := hc
    refine ⟨⟨_,hclosed⟩,(tableMoves_close hl (by decide) ?_ rfl fun _ => hlate).moves hsha h
      hclosed.1 hsets.clock⟩
    rintro f ⟨⟩
    rfl
  | renewed _ l r hnow hl hhy hlive hw =>
    subst hhy
    have hprev : ∀ l', T handle.leaseID = some l' → l'.hierarchy = l.hierarchy := by
      intro l' hl'
      rw [hl] at hl'
      cases hl'
      rfl
    have hcard : ∀ scope ∈ l.hierarchy.scopes, (((s.zset (scopeKey limiter.keyPrefix
        scope)).removeUpTo s.clock).add handle.leaseID (s.clock + limiter.leaseMS)).card ≤
        maximumValue := by
      intro scope hscope
      have hkey : scopeKey limiter.keyPrefix scope ∈ limiter.keys l.hierarchy.scopes :=
        List.mem_map_of_mem hscope
      have hscore : ((s.zset (scopeKey limiter.keyPrefix scope)).removeUpTo s.clock).score
          handle.leaseID = some l.expiry := by
        simp [h.score_some hl hlive _ hkey,Option.filter,hlive.2]
      rw [ZSet.card_add_of_some hscore]
      exact h.purged_card_le _ hkey
    have hwritten := Coherent.writes hcompat hin h hreach hnow hprev hcard hw
    refine ⟨⟨_,hwritten⟩,TableMoves.moves hsha h hwritten.1 hw.sets.clock ⟨?_,?_,?_,?_⟩⟩
    · rintro f ⟨⟩
    · rintro ⟨⟩
    · rintro ⟨⟩
    · intro scope
      left
      intro m hm
      rw [mem_occupants_update] at hm
      split at hm
      · -- the lease was an occupant of its scopes already
        rename_i heq
        subst heq
        exact ⟨l,hl,hlive,hm.2⟩
      · exact hm

theorem ReleaseOutcome.step {result : Except Failure Release} (hsha : CollisionFree sha)
    (h : Represents sha limiter.keyPrefix T s) (hreach : WithinLease inUse T s)
    (hout : ReleaseOutcome sha limiter handle hy T s t T' result) :
    Coherent sha inUse limiter.keyPrefix t ∧
      Moves sha limiter.keyPrefix (.release limiter handle) s t (some (.released result)) := by
  cases hout with
  | refused f hf =>
    refine ⟨⟨T,h,hreach⟩,(tableMoves_refl ?_ rfl).moves hsha h h rfl⟩
    rintro f' ⟨⟩
    rcases hf with rfl | rfl <;> rfl
  | replay _ r hp =>
    refine ⟨⟨T,h.purges hp,?_⟩,(tableMoves_refl ?_ rfl).moves hsha h (h.purges hp) hp.sets.clock⟩
    · rwa [hp.sets.clock]
    · rintro f ⟨⟩
  | closed _ l r state hl hstate hc =>
    have hclosed := Coherent.closes h hreach hl hstate hc
    obtain ⟨⟨f,hsets,-⟩,-⟩ := hc
    refine ⟨⟨_,hclosed⟩,(tableMoves_close hl hstate ?_ rfl ?_).moves hsha h hclosed.1 hsets.clock⟩
    · rintro f ⟨⟩
    · rintro ⟨⟩

end

/-! Runs. -/

variable {inUse : RedisConcurrencyLimiter → Prop}

theorem coherent_fresh (h : fresh s) : Coherent sha inUse keyPrefix s :=
  ⟨_,represents_fresh h,by simp⟩

theorem coherent_passes (hs : Coherent sha inUse keyPrefix s) (h : passes s t) :
    Coherent sha inUse keyPrefix t := by
  obtain ⟨T,hT,hreach⟩ := hs
  refine ⟨_,hT.passes h,fun id l hl => ?_⟩
  obtain ⟨i,hi,hle⟩ := hreach id l (expire_eq_some.mp hl).1
  obtain ⟨now,hnow,-,rfl⟩ := h
  have hclock : s.clock ≤ now / 1000 := Nat.div_le_div_right hnow
  exact ⟨i,hi,by rw [Server.tick_clock]; omega⟩

section
variable (hsha : CollisionFree sha) (hcompat : Compatible inUse keyPrefix)
include hsha hcompat

theorem program_keeps (call : Call) :
    (call.program sha).Keeps (fun s _ => Coherent sha inUse keyPrefix s)
      (fun _ _ => inUse call.limiter) (Moves sha keyPrefix call) call := by
  cases call with
  | acquire limiter request =>
    simp only [Call.program,acquire]
    split
    · trivial
    · split
      · trivial
      · rename_i scopes policies hbinds
        obtain ⟨hy,rfl,hb⟩ := bound_of_normalized hbinds
        apply Prog.keeps_write
        intro e s D hs hin
        obtain rfl := hcompat.shared limiter hin
        obtain ⟨T,hT,hreach⟩ := hs
        obtain ⟨T',hout⟩ := acquireScript_outcome request hsha hT hb hy
        have hstep := evaluate_moves (I := Coherent sha inUse limiter.keyPrefix)
          (fun raw => .acquired (acquireResult request hy.scopes policies raw)) rfl
          ⟨T,hT,hreach⟩ (hout.step hsha hcompat hin hT hreach hbinds hb) e
        exact ⟨hstep.1,hstep.2,trivial⟩
  | renew limiter handle =>
    simp only [Call.program,renew]
    split
    · trivial
    · rename_i scopes hhandle
      obtain ⟨hy,rfl⟩ := validateRedisConcurrencyHandle_eq_some hhandle
      apply Prog.keeps_write
      intro e s D hs hin
      obtain rfl := hcompat.shared limiter hin
      obtain ⟨T,hT,hreach⟩ := hs
      obtain ⟨T',hout⟩ := renewScript_outcome hsha hT handle hy
      have hstep := evaluate_moves (I := Coherent sha inUse limiter.keyPrefix)
        (fun raw => .renewed (renewResult handle hy.scopes raw)) rfl
        ⟨T,hT,hreach⟩ (hout.step hsha hcompat hin hT hreach) e
      exact ⟨hstep.1,hstep.2,trivial⟩
  | release limiter handle =>
    simp only [Call.program,release]
    split
    · trivial
    · rename_i scopes hhandle
      obtain ⟨hy,rfl⟩ := validateRedisConcurrencyHandle_eq_some hhandle
      apply Prog.keeps_write
      intro e s D hs hin
      obtain rfl := hcompat.shared limiter hin
      obtain ⟨T,hT,hreach⟩ := hs
      obtain ⟨T',hout⟩ := releaseScript_outcome hsha hT handle hy
      have hstep := evaluate_moves (I := Coherent sha inUse limiter.keyPrefix)
        (fun raw => .released (releaseResult handle hy.scopes raw)) rfl
        ⟨T,hT,hreach⟩ (hout.step hsha hT hreach) e
      exact ⟨hstep.1,hstep.2,trivial⟩

theorem system_recorded : (system sha inUse).Recorded (fun s _ => Coherent sha inUse keyPrefix s)
      (Moves sha keyPrefix) where
  init _ h := coherent_fresh h
  env _ _ _ hs h := coherent_passes hs h
  spawn _ _ _ hs := hs
  start call := program_keeps hsha hcompat call

end

theorem program_ret (h : call.program sha = .ret a) : a.failure = some .invalid := by
  cases call with
  | acquire limiter request =>
    simp only [Call.program,acquire] at h
    split at h
    · cases h
      rfl
    · split at h
      · cases h
        rfl
      · cases h
  | renew limiter handle =>
    simp only [Call.program,renew] at h
    split at h
    · cases h
      rfl
    · cases h
  | release limiter handle =>
    simp only [Call.program,release] at h
    split at h
    · cases h
      rfl
    · cases h

/-- No finished call reported corrupt state or a reply it could not use. -/
def Clean (D : Multiset (Call × Reply)) : Prop :=
  ∀ call a f, (call,a) ∈ D → a.failure = some f → f.isProtocol = false

theorem reachable_clean (hsha : CollisionFree sha) (hcompat : Compatible inUse keyPrefix)
    {p : Pool Server Oracle Call Reply} (hp : (system sha inUse).Reachable p) :
    Clean p.finished := by
  intro call a f hmem
  refine (system_recorded hsha hcompat).outcomes
    (fun _ a => ∀ f, a.failure = some f → f.isProtocol = false) ?_ ?_ hp call a hmem f
  · intro call reply hreply f hf
    rw [program_ret (Prog.result_eq_some.mp hreply)] at hf
    cases hf
    rfl
  · exact fun call e s t D reply _ _ hmoves f => hmoves.protocol reply f rfl

theorem compatible_single (limiter : RedisConcurrencyLimiter) :
    Compatible (fun i => i = limiter) limiter.keyPrefix where
  shared := by
    rintro i rfl
    rfl
  covers := by
    rintro i j rfl rfl
    have := j.retain_pos
    omega

/-- Among instances of one configuration, in every run: the hash of a lease says that it is active
until a time to come exactly where the lease is in all four sets of its scopes with that time. No
call finds corrupt state or rejects a reply, a fresh admission leaves each scope within the hard
limit it was given, and a denied, conflicting or expired call changes no live lease. -/
theorem reachable_leasesAgree {sha : String → String} (hsha : CollisionFree sha)
    (limiter : RedisConcurrencyLimiter) {p : Pool Server Oracle Call Reply}
    (hp : (system sha fun i => i = limiter).Reachable p) :
    (∀ id hy e, Active sha limiter.keyPrefix p.shared id hy e ∧ p.shared.clock < e ↔
      (∀ scope ∈ hy.scopes, (p.shared.zset (scopeKey limiter.keyPrefix scope)).score id = some e) ∧
        p.shared.clock < e) ∧
    (∀ call a f, (call,a) ∈ p.finished → a.failure = some f → f.isProtocol = false) ∧
    ∀ call t a, (system sha fun i => i = limiter).Acts p call t (some a) →
      (a.fresh → ∀ scope hard, Bounds call scope hard →
        (liveLeases sha limiter.keyPrefix t scope).encard ≤ hard) ∧
      (a.refused → t.clock = p.shared.clock ∧ ∀ id hy e, p.shared.clock < e →
        (Active sha limiter.keyPrefix t id hy e ↔
          Active sha limiter.keyPrefix p.shared id hy e)) := by
  have hcompat := compatible_single limiter
  have hrec := system_recorded hsha hcompat
  obtain ⟨T,hT,-⟩ := hrec.inv hp
  refine ⟨hT.agree hsha,reachable_clean hsha hcompat hp,fun call t a hacts => ?_⟩
  have hmoves := hrec.acts hp hacts
  exact ⟨hmoves.fresh a rfl,hmoves.refused a rfl⟩

def sampleRun : Pool Server Oracle Call Reply :=
  (system sampleDigest fun i => i = sampleLimiter).exec [
    .spawn (.acquire sampleLimiter (sampleRequest "lease-1")),.run 0 9 fun _ => sampleOracle]
    ⟨.start 60000000,[]⟩

theorem sampleRun_reachable :
    (system sampleDigest fun i => i = sampleLimiter).Reachable sampleRun := by
  have hinit : (system sampleDigest fun i => i = sampleLimiter).Reachable
      ⟨Server.start 60000000,[]⟩ := .init _ ⟨60000000,by decide,rfl⟩
  apply hinit.reaches (System.exec_reaches (by simp) _)
  intro call hcall _ _
  simp only [List.mem_cons,List.not_mem_nil,or_false,System.Turn.spawn.injEq,reduceCtorEq] at hcall
  rw [hcall]
  rfl

theorem sampleRun_leasesAgree : CollisionFree sampleDigest ∧
    Active sampleDigest sampleLimiter.keyPrefix sampleRun.shared "lease-1" sampleHierarchy 90000 ∧
    ∀ scope ∈ sampleHierarchy.scopes,
      (sampleRun.shared.zset (scopeKey sampleLimiter.keyPrefix scope)).score "lease-1" =
        some 90000 := by
  have hactive : Active sampleDigest sampleLimiter.keyPrefix sampleRun.shared "lease-1"
      sampleHierarchy 90000 := ⟨by decide +kernel,by decide +kernel,by decide +kernel⟩
  have hagree := (reachable_leasesAgree sampleDigest_collisionFree sampleLimiter
    sampleRun_reachable).1 "lease-1" sampleHierarchy 90000
  exact ⟨sampleDigest_collisionFree,hactive,(hagree.mp ⟨hactive,by decide +kernel⟩).1⟩

end Limits.Concurrency
