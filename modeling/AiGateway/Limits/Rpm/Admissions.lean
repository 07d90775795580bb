import AiGateway.Limits.Rpm.Window

/-! In every run of the RPM limiter the counters of a minute are the admissions given out for it. -/
namespace Limits.Rpm
open Redis Interleaving Server Multiset

/-- The call returned an admission of the scope for this minute of the namespace. -/
def admits (keyPrefix : String) (window : ℤ) (scope : Scope) (outcome : Call × Reply) : Bool :=
  outcome.1.limiter.keyPrefix == keyPrefix && match outcome.2 with
    | .ok a => a.allowed && a.window == window && (a.counts.map Count.scope).contains scope
    | .error _ => false

/-- The number of such calls. -/
def admitted (keyPrefix : String) (window : ℤ) (scope : Scope) (D : Multiset (Call × Reply)) : ℕ :=
  D.countP fun outcome => admits keyPrefix window scope outcome = true

/-- The evaluation of the script failed, so the call cannot tell whether it was admitted. -/
def unanswered : Reply → Bool
  | .error .evaluation => true
  | _ => false

/-- The number of such calls. -/
def unansweredCalls (D : Multiset (Call × Reply)) : ℕ :=
  D.countP fun outcome => unanswered outcome.2 = true

/-- The call passes this hard limit for the scope. -/
def Passes (call : Call) (scope : Scope) (hard : ℕ) : Prop :=
  ∃ scopes policies policy, normalizeRPMBindings call.bindings = some (scopes,policies) ∧
    (scope,policy) ∈ scopes.zip policies ∧ hard = policy.rpm.hard

/-- What one step of a call may do: nothing to the server, or one charge on its four scopes. -/
inductive Moves (call : Call) (s : Server) : Server → Option Reply → Prop
  | quiet (reply : Option Reply) (hok : ∀ a, reply = some (.ok a) → a.allowed = false)
      (hfail : ∀ f, reply = some (.error f) → f.isProtocol = false) : Moves call s s reply
  | charges (hy : Hierarchy) (policies : List Effective) (window : ℤ) (reply : Reply)
      (hbinds : normalizeRPMBindings call.bindings = some (hy.scopes,policies))
      (hb : Bound policies) (hw : (serverWindow s : ℤ) = window)
      (hfits : Fits call.limiter hy policies window s)
      (hreply : reply = .error .evaluation ∨
        ∃ a, reply = .ok a ∧ Describes call.limiter hy window a) :
      Moves call s (s.storeHash (call.limiter.key window)
        ⟨charged (s.hash (call.limiter.key window)) hy.fields,
          some (resetMS s + call.limiter.retentionMS)⟩) (some reply)

variable {s t : Server} {call : Call}

theorem tallied_fresh (h : fresh s) : Tallied s := by
  obtain ⟨now,hle,rfl⟩ := h
  exact ⟨hle,fun key field => ⟨0,.inr ⟨rfl,rfl⟩,by decide⟩,fun _ _ hne => absurd rfl hne⟩

theorem Tallied.passes (hs : Tallied s) (h : Limits.passes s t) : Tallied t := by
  obtain ⟨now,-,hle,rfl⟩ := h
  refine ⟨hle,fun key field => ?_,fun keyPrefix window hne => ?_⟩
  · rcases s.tick_hash now key with heq | heq
    · rw [heq]
      exact hs.counts key field
    · rw [heq]
      exact ⟨0,.inr ⟨rfl,rfl⟩,by decide⟩
  · have hold : s.hash (windowKey keyPrefix window) ≠ fun _ => none := by
      intro hempty
      rcases s.tick_hash now (windowKey keyPrefix window) with heq | heq
      · exact hne (heq.trans hempty)
      · exact hne heq
    obtain ⟨limit,hlimit,hlt⟩ := hs.kept keyPrefix window hold
    rcases tick_hash_of_expiry hlimit now with ⟨-,-,hkept⟩ | ⟨-,hgone⟩
    · exact ⟨limit,hkept,hlt⟩
    · exact absurd hgone hne

theorem charged_counts (hs : Tallied s) {key : String} {fields : List String} {field : String}
    {n : ℕ} (hn : Counts (s.hash key) field n) :
    Counts (charged (s.hash key) fields) field (if field ∈ fields then n + 1 else n) := by
  have hvalue : fieldValue (s.hash key) field = n :=
    (hs.fieldValue_counts key field).unique hn
  by_cases hmem : field ∈ fields
  · rw [if_pos hmem]
    exact .inl (by simp [charged,hmem,hvalue])
  · rw [if_neg hmem]
    simpa [Counts,charged,hmem] using hn

variable {hy : Hierarchy} {policies : List Effective}

theorem Tallied.charge (hs : Tallied s) {limiter : RedisRPMLimiter} {window : ℤ}
    (hb : Bound policies) (hw : (serverWindow s : ℤ) = window)
    (hfits : Fits limiter hy policies window s) :
    Tallied (s.storeHash (limiter.key window) ⟨charged (s.hash (limiter.key window)) hy.fields,
      some (resetMS s + limiter.retentionMS)⟩) := by
  refine ⟨hs.clock,fun key field => ?_,fun keyPrefix window' hne => ?_⟩
  · by_cases hkey : key = limiter.key window
    · subst hkey
      rw [hash_storeHash]
      refine ⟨_,charged_counts hs (hs.fieldValue_counts _ field),?_⟩
      split_ifs with hmem
      · obtain ⟨scope,hscope,rfl⟩ := List.mem_map.mp hmem
        exact hfits.room hb scope hscope
      · exact hs.fieldValue_le _ field
    · rw [hash_storeHash_of_ne hkey]
      exact hs.counts key field
  · by_cases hkey : windowKey keyPrefix window' = limiter.key window
    · obtain ⟨rfl,rfl⟩ := windowKey_inj.mp hkey
      rw [hkey,hashExpiry_storeHash]
      refine ⟨_,rfl,?_⟩
      have := limiter.retention_pos
      rw [← hw]
      simp only [resetMS]
      push_cast
      omega
    · rw [hash_storeHash_of_ne hkey] at hne
      rw [hashExpiry_storeHash_of_ne hkey]
      exact hs.kept keyPrefix window' hne

variable {reply : Option Reply}

theorem Moves.tallied (hs : Tallied s) (h : Moves call s t reply) : Tallied t := by
  cases h with
  | quiet => exact hs
  | charges hy policies window reply hbinds hb hw hfits hreply => exact hs.charge hb hw hfits

section
variable (hbinds : normalizeRPMBindings call.bindings = some (hy.scopes,policies))
include hbinds

theorem AcquireOutcome.moves {window : ℤ} {next : AcquireStep} (hb : Bound policies)
    (h : AcquireOutcome call.limiter hy policies window s t next)
    (hreply : (∃ r, next = .done r ∧ reply = some r) ∨
      (∃ w, next = .retry w) ∧ (reply = none ∨ reply = some (.error .clockBoundary))) :
    Moves call s t reply := by
  cases h with
  | failed =>
    rcases hreply with ⟨r,hr,rfl⟩ | ⟨⟨w,hr⟩,-⟩
    · cases hr
      exact .quiet _ (by rintro a ⟨⟩) (by rintro f ⟨⟩; rfl)
    · cases hr
  | mismatch hw =>
    rcases hreply with ⟨r,hr,-⟩ | ⟨-,rfl | rfl⟩
    · cases hr
    · exact .quiet _ (by rintro a ⟨⟩) (by rintro f ⟨⟩)
    · exact .quiet _ (by rintro a ⟨⟩) (by rintro f ⟨⟩; rfl)
  | denied a hrej =>
    rcases hreply with ⟨r,hr,rfl⟩ | ⟨⟨w,hr⟩,-⟩
    · cases hr
      refine .quiet _ ?_ (by rintro f ⟨⟩)
      rintro a' ⟨⟩
      simp [Admission.allowed,Option.isNone_eq_false_iff.mpr hrej]
    · cases hr
  | admitted _ hw hfits hnext =>
    rcases hreply with ⟨r,rfl,rfl⟩ | ⟨⟨w,rfl⟩,-⟩
    · refine .charges hy policies window r hbinds hb hw hfits ?_
      rcases hnext with hnext | ⟨a,hnext,ha⟩
      · cases hnext
        exact .inl rfl
      · cases hnext
        exact .inr ⟨a,rfl,ha⟩
    · rcases hnext with hnext | ⟨a,hnext,-⟩ <;> cases hnext

theorem acquireLoop_keeps (hb : Bound policies) (retries : ℕ) (window : ℤ) :
    (acquireLoop call.limiter hy.scopes policies retries window).Keeps (fun s _ => Tallied s)
      (fun _ _ => True) (Moves call) call := by
  induction retries generalizing window with
  | zero => trivial
  | succ retries ih =>
    rw [acquireLoop]
    apply Prog.keeps_write
    intro e s D hs _
    have hout := acquire_outcome call.limiter hy window hs hb e
    revert hout
    cases acquireStep call.limiter hy.scopes policies window
        (evaluate (admissionScript call.limiter hy.scopes policies window) e s).2 with
    | retry w =>
      intro hout
      -- the next round may be one too many
      have hmoves : Moves call s _ (acquireLoop call.limiter hy.scopes policies retries w).result :=
        hout.moves hbinds hb (.inr ⟨⟨w,rfl⟩,by
          cases retries <;> simp [acquireLoop,Prog.write,Prog.result]⟩)
      exact ⟨hmoves.tallied hs,hmoves,ih w⟩
    | done r =>
      intro hout
      have hmoves := hout.moves hbinds hb (.inl ⟨r,rfl,rfl⟩)
      exact ⟨hmoves.tallied hs,hmoves,trivial⟩

end

theorem program_keeps (call : Call) :
    (acquireRPM call.limiter call.bindings).Keeps (fun s _ => Tallied s) (fun _ _ => True)
      (Moves call) call := by
  rw [acquireRPM]
  split
  · trivial
  · rename_i scopes policies hbinds
    obtain ⟨hy,rfl,hb⟩ := bound_of_normalized hbinds
    apply Prog.keeps_read
    intro e s D hs _
    obtain ⟨retries,hretries⟩ := Nat.exists_eq_succ_of_ne_zero
      (Nat.pos_iff_ne_zero.mp call.limiter.retries_pos)
    refine ⟨hs,?_,acquireLoop_keeps hbinds hb _ _⟩
    rw [hretries]
    exact .quiet _ (by rintro a ⟨⟩) (by rintro f ⟨⟩)

theorem system_recorded : system.Recorded (fun s _ => Tallied s) Moves where
  init _ h := tallied_fresh h
  env _ _ _ hs h := hs.passes h
  spawn _ _ _ hs := hs
  start call := program_keeps call

theorem program_returned {a : Reply} (h : (system.start call).result = some a) :
    a = .error .invalid := by
  simp only [system,acquireRPM] at h
  split at h <;> cases h
  rfl

/-! Counters and history. -/

variable {D : Multiset (Call × Reply)} {keyPrefix : String} {window : ℤ} {scope : Scope}

theorem admitted_add (outcome : Option Reply) :
    admitted keyPrefix window scope (D + entry call outcome) =
      admitted keyPrefix window scope D + if outcome.any (fun reply =>
        admits keyPrefix window scope (call,reply)) then 1 else 0 := by
  cases outcome with
  | none => simp [admitted]
  | some reply => simp [admitted,← cons_zero,countP_cons]

theorem unansweredCalls_add (outcome : Option Reply) : unansweredCalls (D + entry call outcome) =
      unansweredCalls D + if outcome.any unanswered then 1 else 0 := by
  cases outcome with
  | none => simp [unansweredCalls]
  | some reply =>
    simp [unansweredCalls,← cons_zero,countP_cons]

variable (s D) in
/-- The counter of the scope is the number of admissions, and of unanswered calls at most; the hash
of a past minute may be gone. -/
def Matches : Prop :=
  ∀ keyPrefix window scope, scope.validate →
    (s.hash (windowKey keyPrefix window) = fun _ => none) ∧ window < serverWindow s ∨
    ∃ n, Counts (s.hash (windowKey keyPrefix window)) (redisRPMField scope) n ∧
      admitted keyPrefix window scope D ≤ n ∧
      n ≤ admitted keyPrefix window scope D + unansweredCalls D

theorem not_admits (hok : ∀ a, reply = some (.ok a) → a.allowed = false) :
    reply.any (fun r => admits keyPrefix window scope (call,r)) = false := by
  cases reply with
  | none => rfl
  | some r =>
    cases r with
    | error f => simp [admits]
    | ok a => simp [admits,hok a rfl]

theorem Matches.quiet (h : Matches s D) (hok : ∀ a, reply = some (.ok a) → a.allowed = false) :
    Matches s (D + entry call reply) := by
  intro keyPrefix window scope hv
  rcases h keyPrefix window scope hv with hgone | ⟨n,hn,hle,hge⟩
  · exact .inl hgone
  · refine .inr ⟨n,hn,?_⟩
    rw [admitted_add,unansweredCalls_add,not_admits hok]
    simp only [Bool.false_eq_true,if_false,add_zero]
    omega

theorem serverWindow_mono {now : ℕ} (h : s.now ≤ now) :
    serverWindow s ≤ serverWindow (s.tick now) := by
  simp only [serverWindow,time,tick_now]
  omega

theorem Matches.passes (hs : Tallied s) (h : Matches s D) (hp : Limits.passes s t) :
    Matches t D := by
  intro keyPrefix window scope hv
  obtain ⟨now,hnow,-,rfl⟩ := hp
  have hmono := serverWindow_mono hnow
  rcases h keyPrefix window scope hv with ⟨hgone,hlt⟩ | ⟨n,hn,hle,hge⟩
  · refine .inl ⟨?_,by omega⟩
    rcases s.tick_hash now (windowKey keyPrefix window) with heq | heq
    · rw [heq,hgone]
    · exact heq
  · by_cases hempty : s.hash (windowKey keyPrefix window) = fun _ => none
    · refine .inr ⟨n,?_,hle,hge⟩
      rcases s.tick_hash now (windowKey keyPrefix window) with heq | heq
      · rwa [heq]
      · rwa [heq,← hempty]
    · obtain ⟨limit,hlimit,hlt⟩ := hs.kept keyPrefix window hempty
      rcases tick_hash_of_expiry hlimit now with ⟨-,hkept,-⟩ | ⟨hpast,hgone⟩
      · exact .inr ⟨n,by rwa [hkept],hle,hge⟩
      · refine .inl ⟨hgone,?_⟩
        simp only [serverWindow,time,tick_now]
        omega

variable (keyPrefix window scope) in
/-- A charge is one more admission of each of its scopes in its own minute, or one more unanswered
call. -/
theorem charge_counted {window' : ℤ} {reply : Reply}
    (hreply : reply = .error .evaluation ∨
      ∃ a, reply = .ok a ∧ Describes call.limiter hy window' a) :
    (admits keyPrefix window scope (call,reply) →
      call.limiter.keyPrefix = keyPrefix ∧ window' = window ∧ scope ∈ hy.scopes) ∧
    (call.limiter.keyPrefix = keyPrefix → window' = window → scope ∈ hy.scopes →
      unanswered reply ∨ admits keyPrefix window scope (call,reply)) := by
  rcases hreply with rfl | ⟨a,rfl,ha⟩
  · exact ⟨by simp [admits],fun _ _ _ => .inl rfl⟩
  · simp only [admits,ha.allowed,ha.window,ha.scopes,Bool.true_and,Bool.and_eq_true,
      beq_iff_eq,List.contains_iff_mem]
    exact ⟨fun h => ⟨h.1,h.2.1,h.2.2⟩,fun h₁ h₂ h₃ => .inr ⟨h₁,h₂,h₃⟩⟩

theorem Matches.charge (hs : Tallied s) (h : Matches s D) {window' : ℤ}
    {reply : Reply} {ttl : Option ℕ} (hw : (serverWindow s : ℤ) = window')
    (hreply : reply = .error .evaluation ∨
      ∃ a, reply = .ok a ∧ Describes call.limiter hy window' a) :
    Matches (s.storeHash (call.limiter.key window')
      ⟨charged (s.hash (call.limiter.key window')) hy.fields,ttl⟩)
      (D + entry call (some reply)) := by
  intro keyPrefix window scope hv
  obtain ⟨honly,hcovers⟩ := charge_counted keyPrefix window scope hreply
  rw [admitted_add,unansweredCalls_add]
  simp only [Option.any_some]
  by_cases hkey : windowKey keyPrefix window = call.limiter.key window'
  · obtain ⟨rfl,rfl⟩ := windowKey_inj.mp hkey
    rcases h call.limiter.keyPrefix window scope hv with ⟨-,hlt⟩ | ⟨n,hn,hle,hge⟩
    · omega
    · refine .inr ⟨_,by rw [hkey,hash_storeHash]; exact charged_counts hs hn,?_⟩
      simp only [Hierarchy.field_mem hv]
      by_cases hscope : scope ∈ hy.scopes
      · rcases hcovers rfl rfl hscope with hlost | hadm
        · simp only [hscope,hlost,if_true]
          split_ifs <;> omega
        · simp only [hscope,hadm,if_true]
          split_ifs <;> omega
      · have hno : ¬admits call.limiter.keyPrefix window scope (call,reply) :=
          fun hadm => hscope (honly hadm).2.2
        simp only [hscope,hno,Bool.false_eq_true,if_false]
        split_ifs <;> omega
  · have hno : ¬admits keyPrefix window scope (call,reply) := by
      intro hadm
      obtain ⟨rfl,rfl,-⟩ := honly hadm
      exact hkey rfl
    rw [hash_storeHash_of_ne hkey,if_neg hno]
    rcases h keyPrefix window scope hv with hgone | ⟨n,hn,hle,hge⟩
    · exact .inl hgone
    · exact .inr ⟨n,hn,by omega,by omega⟩

theorem Matches.moves (hs : Tallied s) (h : Matches s D) (hmoves : Moves call s t reply) :
    Matches t (D + entry call reply) := by
  cases hmoves with
  | quiet _ hok => exact h.quiet hok
  | charges hy policies window reply hbinds hb hw hfits hreply => exact h.charge hs hw hreply

/-- No scope has more admissions in a minute than the largest hard limit passed with one. -/
def Limited (D : Multiset (Call × Reply)) : Prop :=
  ∀ keyPrefix window scope hard, scope.validate →
    (∀ call reply limit, (call,reply) ∈ D → admits keyPrefix window scope (call,reply) →
      Passes call scope limit → limit ≤ hard) →
    admitted keyPrefix window scope D ≤ hard

theorem Limited.quiet (h : Limited D) (hok : ∀ a, reply = some (.ok a) → a.allowed = false) :
    Limited (D + entry call reply) := by
  intro keyPrefix window scope hard hv hall
  rw [admitted_add,not_admits hok]
  exact h keyPrefix window scope hard hv fun call' reply' limit hmem =>
    hall call' reply' limit (mem_add.mpr (.inl hmem))

theorem Limited.moves (hs : Tallied s) (hmatches : Matches s D) (h : Limited D)
    (hmoves : Moves call s t reply) : Limited (D + entry call reply) := by
  cases hmoves with
  | quiet _ hok => exact h.quiet hok
  | charges hy policies window' reply hbinds hb hw hfits hreply =>
    intro keyPrefix window scope hard hv hall
    have hrest := h keyPrefix window scope hard hv fun call' reply' limit hmem =>
      hall call' reply' limit (mem_add.mpr (.inl hmem))
    rw [admitted_add]
    simp only [Option.any_some]
    split_ifs with hadm
    · obtain ⟨rfl,rfl,hscope⟩ := (charge_counted _ _ _ hreply).1 hadm
      obtain ⟨policy,hmem⟩ := hb.exists_policy hscope
      have hlimit := hall call reply _ (mem_add.mpr (.inr (by simp))) hadm
        ⟨_,_,policy,hbinds,hmem,rfl⟩
      -- the counter has room for one more, and it has counted every admission so far
      have hroom := hfits _ hmem
      rcases hmatches call.limiter.keyPrefix window' scope hv with ⟨-,hlt⟩ | ⟨n,hn,hle,-⟩
      · omega
      · have hvalue := (hs.fieldValue_counts _ _).unique hn
        rw [RedisRPMLimiter.key,hvalue] at hroom
        simp only at hroom
        omega
    · exact hrest

theorem invalid_not_admitted {a : Admission} (h : (system.start call).result = some (.ok a)) :
    a.allowed = false := by
  cases program_returned h

theorem matches_recorded : system.Recorded (fun s D => Tallied s ∧ Matches s D) Moves := by
  apply system_recorded.and
  · intro s hs keyPrefix window scope _
    obtain ⟨now,-,rfl⟩ := hs
    exact .inr ⟨0,.inr ⟨rfl,rfl⟩,by simp [admitted],by simp⟩
  · exact fun s t D hs h hp => h.passes hs hp
  · exact fun call s D h => h.quiet fun a ha => invalid_not_admitted ha
  · exact fun call e s t D a hs h _ hmoves => h.moves hs hmoves

theorem limited_recorded :
    system.Recorded (fun s D => (Tallied s ∧ Matches s D) ∧ Limited D) Moves := by
  apply matches_recorded.and
  · intro s hs keyPrefix window scope hard _ _
    simp [admitted]
  · exact fun _ _ _ _ h _ => h
  · exact fun call s D h => h.quiet fun a ha => invalid_not_admitted ha
  · exact fun call e s t D a hs h _ hmoves => h.moves hs.1 hs.2 hmoves

theorem Moves.failure {f : Failure} (h : Moves call s t (some (.error f))) :
    f.isProtocol = false := by
  generalize hreply : some (Except.error f) = reply at h
  cases h with
  | quiet _ _ hfail => exact hfail f hreply.symm
  | charges hy policies window _ hbinds hb hw hfits hdesc =>
    cases hreply
    rcases hdesc with hf | ⟨a,ha,-⟩
    · cases hf
      rfl
    · cases ha

theorem reachable_clean {p : Pool Server Oracle Call Reply} (hp : system.Reachable p) :
    ∀ call reply, (call,reply) ∈ p.finished → ∀ f, reply = .error f → f.isProtocol = false := by
  apply system_recorded.outcomes (fun _ reply => ∀ f, reply = .error f → f.isProtocol = false) _ _
    hp
  · rintro call reply hreply f rfl
    cases program_returned hreply
    rfl
  · rintro call e s t D reply _ _ hmoves f rfl
    exact hmoves.failure

/-- A step that neither admits nor fails in evaluation leaves the server alone. -/
theorem Moves.unchanged (h : Moves call s t reply)
    (hok : ∀ a, reply = some (.ok a) → a.allowed = false)
    (hanswered : reply ≠ some (.error .evaluation)) : t = s := by
  cases h with
  | quiet => rfl
  | charges hy policies window reply hbinds hb hw hfits hdesc =>
    rcases hdesc with rfl | ⟨a,rfl,ha⟩
    · exact absurd rfl hanswered
    · have hallow := hok a rfl
      rw [ha.allowed] at hallow
      cases hallow

theorem Moves.counter_le {a : Admission} (hs : Tallied s) (h : Moves call s t (some (.ok a)))
    (ha : a.allowed) {hard : ℕ} (hpasses : Passes call scope hard) :
    ∃ n, Counts (t.hash a.windowKey) (redisRPMField scope) n ∧ n ≤ hard := by
  generalize hreply : some (Except.ok a) = reply at h
  cases h with
  | quiet _ hok =>
    rw [hok a hreply.symm] at ha
    cases ha
  | charges hy policies window _ hbinds hb hw hfits hdesc =>
    cases hreply
    obtain ⟨a',ha',hdesc⟩ := hdesc.resolve_left (by simp)
    cases ha'
    obtain ⟨scopes,policies',policy,hbinds',hmem,rfl⟩ := hpasses
    rw [hbinds] at hbinds'
    cases hbinds'
    rw [hdesc.windowKey,hash_storeHash]
    refine ⟨_,charged_counts hs (hs.fieldValue_counts _ _),?_⟩
    have hfield : redisRPMField scope ∈ hy.fields := List.mem_map_of_mem (List.of_mem_zip hmem).1
    rw [if_pos hfield]
    exact hfits _ hmem

/-- In every run: the counter of a scope in the hash of a minute is the number of calls that
returned an admission of the scope for that minute, up to the calls whose evaluation failed; it goes
only once the minute is over. No more calls are admitted than the largest hard limit passed with an
admission, and no call rejects a reply. An admission leaves its counters within the limits it
passed, and a step that neither admits nor fails in evaluation changes nothing. -/
theorem reachable_windowBound {p : Pool Server Oracle Call Reply} (hp : system.Reachable p) :
    Matches p.shared p.finished ∧ Limited p.finished ∧
    (∀ call f, (call,.error f) ∈ p.finished → f.isProtocol = false) ∧
    ∀ call t reply, system.Acts p call t reply → (∀ a, reply = some (.ok a) → a.allowed →
        ∀ scope hard, Passes call scope hard →
          ∃ n, Counts (t.hash a.windowKey) (redisRPMField scope) n ∧ n ≤ hard) ∧
      ((∀ a, reply = some (.ok a) → a.allowed = false) → reply ≠ some (.error .evaluation) →
        t = p.shared) := by
  obtain ⟨⟨hs,hmatches⟩,hlimited⟩ := limited_recorded.inv hp
  refine ⟨hmatches,hlimited,fun call f hmem => reachable_clean hp call _ hmem f rfl,?_⟩
  intro call t reply hacts
  have hmoves := system_recorded.acts hp hacts
  constructor
  · rintro a rfl ha scope hard hpasses
    exact hmoves.counter_le hs ha hpasses
  · exact hmoves.unchanged

def sampleRun : Pool Server Oracle Call Reply :=
  system.exec [.spawn sampleCall,.run 0 9 fun _ => ⟨60,none⟩,
    .spawn sampleCall,.run 1 9 fun _ => ⟨150,none⟩,
    .spawn sampleCall,.run 2 9 fun _ => ⟨60,none⟩] ⟨.start 60000000,[]⟩

theorem sampleRun_reachable : system.Reachable sampleRun := by
  have hinit : system.Reachable ⟨start 60000000,[]⟩ := .init _ ⟨60000000,by decide,rfl⟩
  exact hinit.reaches (System.exec_reaches (by simp) fun _ _ _ _ => trivial)

theorem sampleRun_windowBound : system.Reachable sampleRun ∧
    sampleRun.shared.hash (sampleLimiter.key 1) "platform" = some "2" ∧
    Matches sampleRun.shared sampleRun.finished :=
  ⟨sampleRun_reachable,by decide +kernel,(reachable_windowBound sampleRun_reachable).1⟩

end Limits.Rpm
