import AiGateway.Limits.Scope
import AiGateway.Redis.Server

/-! Decoding of script replies that the Redis limiters share: integers, the list of counts, the
index of a corrupt entry, and the counts of an admission. -/
namespace Limits
open Redis

def redisRPMInt64 : Value → Option ℤ
  | .int n => some n
  | _ => none

def redisRPMUint64 (value : Value) : Option ℕ := do
  let integer ← redisRPMInt64 value
  if integer < 0 then none else pure integer.toNat

@[simp] theorem redisRPMInt64_int (n : ℤ) : redisRPMInt64 (.int n) = some n := rfl

@[simp] theorem redisRPMUint64_int (n : ℕ) : redisRPMUint64 (.int n) = some n := by
  simp [redisRPMUint64]

/-- The counts at the end of a reply, each between `smallest` and the maximum. -/
def parseCounts (smallest : ℕ) : List Value → Option (List ℕ)
  | [] => some []
  | value :: values => do
      let count ← redisRPMUint64 value
      if count < smallest ∨ count > maximumValue then none
      else do
        let counts ← parseCounts smallest values
        pure (count :: counts)

variable {counts : List ℕ}

theorem parseCounts_ints {smallest : ℕ}
    (h : ∀ count ∈ counts, smallest ≤ count ∧ count ≤ maximumValue) :
    parseCounts smallest (.map .int (counts.map fun count : ℕ => (count : ℤ))) = some counts := by
  induction counts with
  | nil => rfl
  | cons count counts ih =>
    have hcount := h count List.mem_cons_self
    have hrest := ih fun c hc => h c (List.mem_cons_of_mem count hc)
    have hbounds : ¬(count < smallest ∨ count > maximumValue) := by omega
    simp [-List.map_map,parseCounts,hbounds,hrest]

theorem map_toNat {α : Type} {l : List α} {f : α → ℤ} (h : ∀ x ∈ l, 0 ≤ f x) :
    l.map f = (l.map fun x => (f x).toNat).map fun count : ℕ => (count : ℤ) := by
  rw [List.map_map]
  exact List.map_congr_left fun x hx => (Int.toNat_of_nonneg (h x hx)).symm

/-- A flag of a reply is zero or one. -/
theorem flag_range (b : Bool) : ¬((if b then (1 : ℤ) else 0) ≠ 0 ∧
    (if b then (1 : ℤ) else 0) ≠ 1) := by
  cases b <;> simp

theorem flag_beq (b : Bool) : ((if b then (1 : ℤ) else 0) == 1) = b := by
  cases b <;> rfl

def ScopeKind.text : ScopeKind → String
  | .platform => "platform"
  | .tenant => "tenant"
  | .project => "project"
  | .key => "key"
  | .other text => text

def scopeIndexName (scopeIndex : ℤ) : ScopeKind :=
  if scopeIndex = 0 then .platform
  else if scopeIndex = 1 then .tenant
  else if scopeIndex = 2 then .project
  else if scopeIndex = 3 then .key
  else .other "unknown"

/-- The index of a corrupt entry, counted from zero. The scripts count from one; where `smallest` is
zero, index zero stands for the record and becomes -1. -/
def assignCorrupt (smallest : ℤ) (values : List Value) : Option ℤ :=
  match values with
  | [_,indexValue] => do
      let index ← redisRPMInt64 indexValue
      if index < smallest ∨ index > requiredScopeCount then none else pure (index - 1)
  | _ => none

/-- The count of one scope, as an admission reports it. -/
structure Count where
  scope : Scope
  (count soft : ℕ)
  softExceeded : Bool

/-- The counts with their scopes; where they are `checked`, none may be above its hard limit. -/
def allowedCounts (threshold : Effective → EffectiveThreshold) (checked : Bool) :
    List ℕ → List Scope → List Effective → Option (List Count)
  | count :: counts, scope :: scopes, policy :: policies =>
      if checked ∧ count > (threshold policy).hard then none
      else (allowedCounts threshold checked counts scopes policies).map
        (⟨scope,count,(threshold policy).soft,count > (threshold policy).soft⟩ :: ·)
  | _, _, _ => some []

variable {threshold : Effective → EffectiveThreshold} {scopes : List Scope}
  {policies : List Effective}

theorem allowedCounts_eq_some {checked : Bool}
    (hl : scopes.length = counts.length) (hl' : policies.length = counts.length)
    (h : checked → ∀ pair ∈ counts.zip policies, pair.1 ≤ (threshold pair.2).hard) :
    ∃ result, allowedCounts threshold checked counts scopes policies = some result ∧
      result.length = counts.length := by
  induction counts generalizing scopes policies with
  | nil => exact ⟨[],by simp [allowedCounts],rfl⟩
  | cons count counts ih =>
    cases scopes with
    | nil => simp at hl
    | cons scope scopes =>
      cases policies with
      | nil => simp at hl'
      | cons policy policies =>
        obtain ⟨result,hres,hlen⟩ := ih (show scopes.length = counts.length by simpa using hl)
          (show policies.length = counts.length by simpa using hl')
          (fun hi pair hpair => h hi pair (by simp [hpair]))
        have hok : ¬(checked ∧ count > (threshold policy).hard) := by
          rintro ⟨hi,hgt⟩
          have := h hi (count,policy) (by simp)
          simp only at this
          omega
        simp only [allowedCounts,hok,if_false,hres,Option.map_some]
        exact ⟨_,rfl,by simp [hlen]⟩

theorem allowedCounts_scopes {checked : Bool} {result : List Count}
    (hl : scopes.length = counts.length) (hl' : policies.length = counts.length)
    (h : allowedCounts threshold checked counts scopes policies = some result) :
    result.map Count.scope = scopes := by
  induction counts generalizing scopes policies result with
  | nil =>
    cases List.eq_nil_of_length_eq_zero hl
    simp only [allowedCounts,Option.some.injEq] at h
    simp [← h]
  | cons count counts ih =>
    cases scopes with
    | nil => simp at hl
    | cons scope scopes =>
      cases policies with
      | nil => simp at hl'
      | cons policy policies =>
        simp only [allowedCounts] at h
        split at h
        · cases h
        · obtain ⟨rest,hrest,rfl⟩ := Option.map_eq_some_iff.mp h
          simp [ih (by simpa using hl) (by simpa using hl') hrest]

end Limits
