import AiGateway.Text.Decimal
import AiGateway.Text.Pattern
import Mathlib.Data.List.Nodup

/-! Scopes, effective policies and their bindings (`limitpolicy/model.go`, `local.go` and the
helpers of `redis_rpm.go` that all limiters share). An admission names four scopes; once accepted
they are the scopes of one `Hierarchy`. -/
namespace Limits
open Text List

/-- The largest integer a Lua number represents exactly. -/
def maximumValue : ℕ := 9007199254740991

def requiredScopeCount : ℕ := 4

inductive Source where
  | platform
  | tenant
  | project
  | key
  | other (text : String)
  deriving DecidableEq

structure EffectiveThreshold where
  (soft hard : ℕ)
  softSource : Source
  hardSource : Source
  deriving DecidableEq

structure Effective where
  rpm : EffectiveThreshold
  tpm : EffectiveThreshold
  concurrency : EffectiveThreshold
  deriving DecidableEq

/-- The zero value of a policy. -/
def Effective.zero : Effective :=
  let threshold := ⟨0,0,.other "",.other ""⟩
  ⟨threshold,threshold,threshold⟩

def validValue (value : ℕ) : Bool := 0 < value && value ≤ maximumValue

def validSource : Source → Bool
  | .other _ => false
  | _ => true

def validThreshold (t : EffectiveThreshold) : Bool :=
  validValue t.soft && validValue t.hard && t.soft ≤ t.hard && validSource t.softSource &&
    validSource t.hardSource

def Effective.validate (policy : Effective) : Bool :=
  [policy.rpm,policy.tpm,policy.concurrency].all validThreshold

variable {policy : Effective}

theorem threshold_bounds (h : policy.validate) {t : EffectiveThreshold}
    (ht : t ∈ [policy.rpm,policy.tpm,policy.concurrency]) :
    1 ≤ t.soft ∧ t.soft ≤ t.hard ∧ t.hard ≤ maximumValue := by
  have hvalid := all_eq_true.mp h t ht
  simp only [validThreshold,validValue,Bool.and_eq_true,decide_eq_true_eq] at hvalid
  omega

/-- `exceeds` never wraps: the subtraction is reached only when it cannot. -/
def exceeds (current requested hard : ℕ) : Bool :=
  requested > hard || current > hard - requested

theorem exceeds_eq_false {current requested hard : ℕ} :
    exceeds current requested hard = false ↔ current + requested ≤ hard := by
  simp only [exceeds,Bool.or_eq_false_iff,decide_eq_false_iff_not]
  omega

/-! Scopes. -/

inductive ScopeKind where
  | platform
  | tenant
  | project
  | key
  | other (text : String)
  deriving DecidableEq

structure Scope where
  kind : ScopeKind
  (tenantID projectID keyID : String)
  deriving DecidableEq

structure Binding where
  scope : Scope
  policy : Effective
  deriving DecidableEq

def Scope.validate (scope : Scope) : Bool :=
  match scope.kind with
  | .platform => scope.tenantID == "" && scope.projectID == "" && scope.keyID == ""
  | .tenant => isUUID scope.tenantID && scope.projectID == "" && scope.keyID == ""
  | .project => isUUID scope.tenantID && isUUID scope.projectID && scope.keyID == ""
  | .key => isUUID scope.tenantID && isUUID scope.projectID && isUUID scope.keyID
  | .other _ => false

def scopeRank : ScopeKind → ℕ
  | .platform => 0
  | .tenant => 1
  | .project => 2
  | .key => 3
  | .other _ => requiredScopeCount

/-- Put each scope in the place of its rank; a place is taken once. -/
def placeScopes : List (Option Scope) → List Scope → Option (List (Option Scope))
  | places, [] => some places
  | places, scope :: rest =>
      if scope.validate = false then none
      else match places[scopeRank scope.kind]? with
        | some none => placeScopes (places.set (scopeRank scope.kind) (some scope)) rest
        | _ => none

def normalizeScopes (input : List Scope) : Option (List Scope) :=
  if input.length ≠ requiredScopeCount then none
  else match placeScopes [none,none,none,none] input with
    | some [some platform,some tenant,some project,some key] =>
        if platform.kind ≠ .platform ∨ tenant.kind ≠ .tenant ∨ project.kind ≠ .project ∨
            key.kind ≠ .key ∨ tenant.tenantID ≠ project.tenantID ∨
            tenant.tenantID ≠ key.tenantID ∨ project.projectID ≠ key.projectID then none
        else some [platform,tenant,project,key]
    | _ => none

/-- The identifiers behind four scopes that belong together. -/
structure Hierarchy where
  (tenantID projectID keyID : String)
  tenant_valid : isUUID tenantID
  project_valid : isUUID projectID
  key_valid : isUUID keyID

def Hierarchy.scopes (h : Hierarchy) : List Scope :=
  [⟨.platform,"","",""⟩,⟨.tenant,h.tenantID,"",""⟩,
    ⟨.project,h.tenantID,h.projectID,""⟩,⟨.key,h.tenantID,h.projectID,h.keyID⟩]

theorem Hierarchy.scopes_length (h : Hierarchy) : h.scopes.length = requiredScopeCount := rfl

theorem Hierarchy.scopes_nodup (h : Hierarchy) : h.scopes.Nodup := by
  simp [scopes]

variable {h h' : Hierarchy}

theorem Hierarchy.scopes_inj (heq : h.scopes = h'.scopes) : h = h' := by
  cases h
  cases h'
  simp_all [scopes]

variable {input : List Scope}

theorem placeScopes_forall {P : Scope → Prop} {places placed : List (Option Scope)}
    (h : placeScopes places input = some placed) (hplaces : ∀ scope, some scope ∈ places → P scope)
    (hinput : ∀ scope ∈ input, scope.validate → P scope) :
    ∀ scope, some scope ∈ placed → P scope := by
  induction input generalizing places with
  | nil =>
    cases h
    exact hplaces
  | cons scope rest ih =>
    simp only [placeScopes] at h
    split at h
    · cases h
    · rename_i hvalid
      split at h
      · apply ih h
        · intro other hother
          rcases mem_or_eq_of_mem_set hother with hmem | heq
          · exact hplaces other hmem
          · cases heq
            exact hinput scope mem_cons_self (by simpa using hvalid)
        · exact fun other hother => hinput other (mem_cons_of_mem scope hother)
      · cases h

variable {scopes : List Scope}

theorem normalizeScopes_eq_some (h : normalizeScopes input = some scopes) :
    (∃ hy : Hierarchy, scopes = hy.scopes) ∧ ∀ scope ∈ scopes, scope ∈ input := by
  unfold normalizeScopes at h
  split at h
  · cases h
  · split at h
    · rename_i platform tenant project key hplaced
      split at h
      · cases h
      · rename_i hagree
        cases h
        have hvalid := placeScopes_forall hplaced (by simp) fun _ _ h => h
        have hmem := placeScopes_forall hplaced (by simp) fun _ h _ => h
        obtain ⟨pk,pt,pp,pkey⟩ := platform
        obtain ⟨tk,tt,tp,tkey⟩ := tenant
        obtain ⟨rk,rt,rp,rkey⟩ := project
        obtain ⟨kk,kt,kp,kkey⟩ := key
        simp only [not_or,not_not,ne_eq] at hagree
        obtain ⟨rfl,rfl,rfl,rfl,rfl,rfl,rfl⟩ := hagree
        have h₀ := hvalid _ (mem_cons_self)
        have h₁ := hvalid ⟨.tenant,tt,tp,tkey⟩ (by simp)
        have h₂ := hvalid ⟨.project,tt,rp,rkey⟩ (by simp)
        have h₃ := hvalid ⟨.key,tt,rp,kkey⟩ (by simp)
        simp only [Scope.validate,Bool.and_eq_true,beq_iff_eq] at h₀ h₁ h₂ h₃
        refine ⟨⟨⟨tt,rp,kkey,h₁.1.1,h₂.1.2,h₃.2⟩,by simp [Hierarchy.scopes,h₀,h₁,h₂]⟩,
          fun scope hscope => hmem scope ?_⟩
        simpa using hscope
    · cases h

/-! Bindings. -/

/-- The policies by scope, as the map is filled; a scope may be bound once. -/
def collectPolicies : List (Scope × Effective) → List Binding → Option (List (Scope × Effective))
  | policyByScope, [] => some policyByScope
  | policyByScope, binding :: rest =>
      if binding.scope.validate = false ∨ binding.policy.validate = false then none
      else if policyByScope.any (fun entry => entry.1 = binding.scope) then none
      else collectPolicies (policyByScope ++ [(binding.scope,binding.policy)]) rest

def normalizeRPMBindings (bindings : List Binding) : Option (List Scope × List Effective) :=
  if bindings.length ≠ requiredScopeCount then none
  else do
    let policyByScope ← collectPolicies [] bindings
    let scopes ← normalizeScopes (bindings.map Binding.scope)
    pure (scopes,scopes.map fun scope =>
      (policyByScope.lookup scope).getD Effective.zero)

variable {bindings : List Binding}

theorem collectPolicies_valid {acc policies : List (Scope × Effective)}
    (h : collectPolicies acc bindings = some policies) (hacc : ∀ entry ∈ acc, entry.2.validate) :
    (∀ entry ∈ policies, entry.2.validate) ∧ (∀ entry ∈ acc, entry ∈ policies) ∧
      ∀ binding ∈ bindings, (binding.scope,binding.policy) ∈ policies := by
  induction bindings generalizing acc with
  | nil =>
    cases h
    exact ⟨hacc,fun _ h => h,by simp⟩
  | cons binding rest ih =>
    simp only [collectPolicies] at h
    split at h
    · cases h
    · rename_i hvalid
      split at h
      · cases h
      · obtain ⟨h₁,h₂,h₃⟩ := ih h (by
          intro entry hentry
          rcases mem_append.mp hentry with hmem | hmem
          · exact hacc entry hmem
          · rw [mem_singleton.mp hmem]
            simp only [not_or,Bool.not_eq_false] at hvalid
            exact hvalid.2)
        refine ⟨h₁,fun entry hentry => h₂ entry (mem_append_left _ hentry),?_⟩
        intro other hother
        rcases mem_cons.mp hother with rfl | hmem
        · exact h₂ _ (mem_append_right _ (by simp))
        · exact h₃ other hmem

variable {scope : Scope}

theorem lookup_of_mem {policies : List (Scope × Effective)} (h : (scope,policy) ∈ policies) :
    ∃ found, policies.lookup scope = some found ∧ (scope,found) ∈ policies := by
  induction policies with
  | nil => simp at h
  | cons entry rest ih =>
    obtain ⟨scope',policy'⟩ := entry
    by_cases heq : scope = scope'
    · subst heq
      exact ⟨policy',by simp,mem_cons_self⟩
    · have hne : (scope == scope') = false := by simpa using heq
      rcases mem_cons.mp h with hhead | htail
      · cases hhead
        exact absurd rfl heq
      · obtain ⟨found,hfound,hmem⟩ := ih htail
        exact ⟨found,by rw [lookup_cons,hne]; exact hfound,mem_cons_of_mem _ hmem⟩

variable {policies : List Effective}

/-- Accepted bindings give the four scopes of a hierarchy and a valid policy for each. -/
theorem normalizeRPMBindings_eq_some (h : normalizeRPMBindings bindings = some (scopes,policies)) :
    (∃ hy : Hierarchy, scopes = hy.scopes) ∧ policies.length = scopes.length ∧
      ∀ policy ∈ policies, policy.validate := by
  unfold normalizeRPMBindings at h
  split at h
  · cases h
  · simp only [Option.bind_eq_bind,Option.bind_eq_some_iff,Option.pure_def,Option.some.injEq,
      Prod.mk.injEq] at h
    obtain ⟨policyByScope,hcollect,scopes',hscopes,rfl,rfl⟩ := h
    obtain ⟨hvalid,-,hbound⟩ := collectPolicies_valid hcollect (by simp)
    obtain ⟨hhy,hmem⟩ := normalizeScopes_eq_some hscopes
    refine ⟨hhy,by simp,?_⟩
    intro policy hpol
    obtain ⟨scope,hscope,rfl⟩ := mem_map.mp hpol
    obtain ⟨binding,hbind,rfl⟩ := mem_map.mp (hmem scope hscope)
    obtain ⟨found,hfound,hin⟩ := lookup_of_mem (hbound binding hbind)
    rw [hfound,Option.getD_some]
    exact hvalid (binding.scope,found) hin

/-! Names of scopes in Redis. -/

def redisRPMField (scope : Scope) : String :=
  match scope.kind with
  | .platform => "platform"
  | .tenant => "tenant:" ++ scope.tenantID
  | .project => "project:" ++ scope.tenantID ++ ":" ++ scope.projectID
  | .key => "key:" ++ scope.tenantID ++ ":" ++ scope.projectID ++ ":" ++ scope.keyID
  | .other _ => ""

def Hierarchy.fields (h : Hierarchy) : List String := h.scopes.map redisRPMField

theorem Hierarchy.scopes_valid (h : Hierarchy) : ∀ scope ∈ h.scopes, scope.validate := by
  simp [scopes,Scope.validate,h.tenant_valid,h.project_valid,h.key_valid]

theorem colon_notMem_uuid {id : String} (h : isUUID id) : ':' ∉ id.toList := by
  intro hmem
  rcases isUUID_chars h ':' hmem with hx | hx
  · exact absurd hx (by decide)
  · exact absurd hx (by decide)

theorem append_colon_uuid_inj {t t' p p' : String} (ht : isUUID t) (ht' : isUUID t')
    (h : t ++ ":" ++ p = t' ++ ":" ++ p') : t = t' ∧ p = p' :=
  (append_colon_inj (colon_notMem_uuid ht) (colon_notMem_uuid ht')).mp h

theorem redisRPMField_inj {a b : Scope} (ha : a.validate) (hb : b.validate)
    (h : redisRPMField a = redisRPMField b) : a = b := by
  have hlist := congrArg String.toList h
  obtain ⟨ak,at',ap,akey⟩ := a
  obtain ⟨bk,bt,bp,bkey⟩ := b
  -- scopes of two kinds differ in the first two characters
  cases ak <;> cases bk <;>
    simp only [Scope.validate,Bool.and_eq_true,beq_iff_eq,Bool.false_eq_true] at ha hb <;>
    simp [redisRPMField] at hlist
  case platform.platform => simp [ha,hb]
  case tenant.tenant => simp [ha,hb,String.toList_inj.mp hlist]
  case project.project =>
    have htext : at' ++ ":" ++ ap = bt ++ ":" ++ bp := by
      rw [← String.toList_inj]
      simpa using hlist
    obtain ⟨rfl,rfl⟩ := append_colon_uuid_inj ha.1.1 hb.1.1 htext
    simp [ha,hb]
  case key.key =>
    have htext : at' ++ ":" ++ (ap ++ ":" ++ akey) = bt ++ ":" ++ (bp ++ ":" ++ bkey) := by
      rw [← String.toList_inj]
      simpa using hlist
    obtain ⟨rfl,hrest⟩ := append_colon_uuid_inj ha.1.1 hb.1.1 htext
    obtain ⟨rfl,rfl⟩ := append_colon_uuid_inj ha.1.2 hb.1.2 hrest
    rfl

theorem Hierarchy.fields_nodup (h : Hierarchy) : h.fields.Nodup :=
  Nodup.map_on (l := h.scopes) (fun a ha b hb =>
    redisRPMField_inj (h.scopes_valid a ha) (h.scopes_valid b hb)) h.scopes_nodup

theorem Hierarchy.field_mem (hv : scope.validate) :
    redisRPMField scope ∈ h.fields ↔ scope ∈ h.scopes := by
  constructor
  · intro hmem
    obtain ⟨other,hother,heq⟩ := mem_map.mp hmem
    exact redisRPMField_inj (h.scopes_valid other hother) hv heq ▸ hother
  · exact mem_map_of_mem

/-- The text whose digest identifies four scopes. -/
def joinFields (scopes : List Scope) : String := "\x00".intercalate (scopes.map redisRPMField)

/-- SHA-256 in hexadecimal is a parameter. -/
def redisScopeFingerprint (sha : String → String) (scopes : List Scope) : String :=
  sha (joinFields scopes)

/-- No two scope tuples have the same digest. -/
def CollisionFree (sha : String → String) : Prop :=
  ∀ h h' : Hierarchy, sha (joinFields h.scopes) = sha (joinFields h'.scopes) →
    joinFields h.scopes = joinFields h'.scopes

/-- The text determines the identifiers, since they all have the same length. -/
theorem joinFields_inj (heq : joinFields h.scopes = joinFields h'.scopes) : h = h' := by
  have hlist := congrArg String.toList heq
  simp only [joinFields,Hierarchy.scopes,redisRPMField,map_cons,map_nil,
    String.toList_intercalate] at hlist
  have hlen {id id' : String} (hid : isUUID id) (hid' : isUUID id') :
      id.toList.length = id'.toList.length := by rw [isUUID_length hid,isUUID_length hid']
  simp only [String.toList_append,String.reduceToList,intercalate_cons_cons,
    intercalate_singleton,cons_append,nil_append,append_assoc,cons.injEq,true_and] at hlist
  obtain ⟨ht,hlist⟩ := append_inj hlist (hlen h.tenant_valid h'.tenant_valid)
  simp only [cons.injEq,true_and,ht,append_cancel_left_eq] at hlist
  obtain ⟨hp,hlist⟩ := append_inj hlist (hlen h.project_valid h'.project_valid)
  simp only [cons.injEq,true_and,hp,append_cancel_left_eq] at hlist
  cases h
  cases h'
  simp_all [String.toList_inj]

theorem redisScopeFingerprint_inj {sha : String → String} (hsha : CollisionFree sha)
    (heq : redisScopeFingerprint sha h.scopes = redisScopeFingerprint sha h'.scopes) : h = h' :=
  joinFields_inj (hsha h h' heq)

/-- What validation establishes about the policies of a request. -/
structure Bound (policies : List Effective) : Prop where
  length : policies.length = requiredScopeCount
  valid : ∀ policy ∈ policies, policy.validate

theorem Bound.exists_policy (h : Bound policies) {hy : Hierarchy} (hscope : scope ∈ hy.scopes) :
    ∃ policy, (scope,policy) ∈ hy.scopes.zip policies := by
  have hfst : (hy.scopes.zip policies).map Prod.fst = hy.scopes :=
    map_fst_zip (by rw [hy.scopes_length,h.length])
  rw [← hfst] at hscope
  obtain ⟨⟨scope',policy⟩,hmem,rfl⟩ := mem_map.mp hscope
  exact ⟨policy,hmem⟩

theorem bound_of_normalized (h : normalizeRPMBindings bindings = some (scopes,policies)) :
    ∃ hy : Hierarchy, scopes = hy.scopes ∧ Bound policies := by
  obtain ⟨⟨hy,rfl⟩,hlength,hvalid⟩ := normalizeRPMBindings_eq_some h
  exact ⟨hy,rfl,hlength.trans hy.scopes_length,hvalid⟩

/-! A hierarchy to evaluate the limiters on. -/

def sampleHierarchy : Hierarchy where
  tenantID := "00000000-0000-4000-8000-000000000001"
  projectID := "00000000-0000-4000-8000-000000000002"
  keyID := "00000000-0000-4000-8000-000000000003"
  tenant_valid := by decide +kernel
  project_valid := by decide +kernel
  key_valid := by decide +kernel

def platformScope : Scope := ⟨.platform,"","",""⟩

def sampleBindings (soft hard : ℕ) : List Binding :=
  let threshold := ⟨soft,hard,.platform,.platform⟩
  sampleHierarchy.scopes.map fun scope => ⟨scope,⟨threshold,threshold,threshold⟩⟩

/-- SHA-256 on the sample's text; other texts are their own digest. -/
def sampleDigest (text : String) : String :=
  if text = joinFields sampleHierarchy.scopes then
    "6223cb2c3ad11c2d5210ad50c22dd02af825141f0dda836e0e0f975d3ec3420f"
  else text

theorem sampleDigest_collisionFree : CollisionFree sampleDigest := by
  have hhead (h : Hierarchy) : (joinFields h.scopes).toList.head? = some 'p' := by
    simp [joinFields,Hierarchy.scopes,redisRPMField]
  have hdigest (h : Hierarchy) : joinFields h.scopes ≠
      "6223cb2c3ad11c2d5210ad50c22dd02af825141f0dda836e0e0f975d3ec3420f" := by
    intro heq
    have hp := hhead h
    rw [heq] at hp
    exact absurd hp (by decide +kernel)
  intro h h' heq
  unfold sampleDigest at heq
  split_ifs at heq with h₁ h₂ h₂
  · rw [h₁,h₂]
  · exact absurd heq.symm (hdigest h')
  · exact absurd heq (hdigest h)
  · exact heq

end Limits
