import AiGateway.Limits.Tpm.Script

/-! What a window's hash is for: a ledger of holds, each by one reservation on the four scopes of a
hierarchy. `Encodes` says how the hash stores a ledger, and the two changes the scripts make to the
hash are reserving and settling in the ledger. -/
namespace Limits.Tpm
open Redis Relational

/-- The tokens one reservation holds, and what they became when it was settled. -/
structure Hold where
  id : String
  hierarchy : Hierarchy
  reserved : ℕ
  settled : Option ℕ

def Hold.tokens (h : Hold) : ℕ := h.settled.getD h.reserved

/-- What a hold counts for in a scope. -/
def Hold.charge (scope : Scope) (h : Hold) : ℤ :=
  if scope ∈ h.hierarchy.scopes then h.tokens else 0

def Hold.settle (actual : ℕ) (h : Hold) : Hold := { h with settled := some actual }

def usageOf (holds : List Hold) (scope : Scope) : ℤ := total (Hold.charge scope) holds

/-- Reservations are recorded once, hold at least one token, and no scope's total is above the
largest exact number. -/
structure Ledger where
  holds : List Hold
  unique : (holds.map Hold.id).Nodup
  positive : ∀ h ∈ holds, 1 ≤ h.reserved
  bounded : ∀ scope, usageOf holds scope ≤ maximumValue

namespace Ledger

def empty : Ledger := ⟨[],List.nodup_nil,by simp,fun _ => by simp [usageOf]⟩

/-- The tokens held in a scope: reserved ones while pending, actual ones once settled. -/
def usage (L : Ledger) (scope : Scope) : ℤ := usageOf L.holds scope

def find (L : Ledger) (id : String) : Option Hold := L.holds.find? fun h => h.id = id

def Covers (L : Ledger) (scope : Scope) : Prop := ∃ h ∈ L.holds, scope ∈ h.hierarchy.scopes

variable {L : Ledger} {scope : Scope} {id : String} {hold : Hold}

theorem charge_nonneg (scope : Scope) (h : Hold) : 0 ≤ h.charge scope := by
  unfold Hold.charge
  split_ifs <;> omega

theorem charge_settle (actual : ℕ) (scope : Scope) (h : Hold) :
    (h.settle actual).charge scope = if scope ∈ h.hierarchy.scopes then (actual : ℤ) else 0 := rfl

theorem usage_nonneg (L : Ledger) (scope : Scope) : 0 ≤ L.usage scope :=
  total_nonneg fun h _ => charge_nonneg scope h

theorem usage_le (L : Ledger) (scope : Scope) : L.usage scope ≤ maximumValue := L.bounded scope

theorem usage_of_not_covers (h : ¬L.Covers scope) : L.usage scope = 0 := by
  have hzero : ∀ x ∈ L.holds, x.charge scope = (fun _ => 0 : Hold → ℤ) x := by
    intro x hx
    exact if_neg fun hmem => h ⟨x,hx,hmem⟩
  rw [usage,usageOf,total_congr hzero]
  simp [total]

theorem find_eq_some : L.find id = some hold ↔ hold ∈ L.holds ∧ hold.id = id :=
  find?_eq_some L.unique

theorem find_eq_none : L.find id = none ↔ ∀ h ∈ L.holds, h.id ≠ id := by
  simp [find]

theorem tokens_le_usage (hmem : hold ∈ L.holds) (hs : scope ∈ hold.hierarchy.scopes) :
    (hold.tokens : ℤ) ≤ L.usage scope := by
  have h := le_total (fun x (_ : x ∈ L.holds) => charge_nonneg scope x) hmem
  rwa [Hold.charge,if_pos hs] at h

/-! Reserving. -/

/-- Record a new hold that fits. -/
def add (L : Ledger) (hold : Hold) (hfresh : L.find hold.id = none) (hpos : 1 ≤ hold.reserved)
    (hfits : ∀ scope ∈ hold.hierarchy.scopes, L.usage scope + hold.tokens ≤ maximumValue) :
    Ledger where
  holds := hold :: L.holds
  unique := by
    simp only [List.map_cons,List.nodup_cons,List.mem_map,not_exists,not_and]
    exact ⟨find_eq_none.mp hfresh,L.unique⟩
  positive := by
    simp only [List.mem_cons,forall_eq_or_imp]
    exact ⟨hpos,L.positive⟩
  bounded scope := by
    rw [usageOf,total_cons,Hold.charge]
    split_ifs with hs
    · have hle := hfits scope hs
      rw [usage,usageOf] at hle
      omega
    · simpa [usageOf] using L.bounded scope

section
variable {hfresh : L.find hold.id = none} {hpos : 1 ≤ hold.reserved}
  {hfits : ∀ scope ∈ hold.hierarchy.scopes, L.usage scope + hold.tokens ≤ maximumValue}

theorem usage_add : (L.add hold hfresh hpos hfits).usage scope =
    L.usage scope + if scope ∈ hold.hierarchy.scopes then (hold.tokens : ℤ) else 0 := by
  show total _ (hold :: L.holds) = _
  rw [total_cons,usage,usageOf,add_comm]
  rfl

theorem find_add (id : String) : (L.add hold hfresh hpos hfits).find id =
    if hold.id = id then some hold else L.find id := by
  show (hold :: L.holds).find? _ = _
  by_cases h : hold.id = id
  · simp [h]
  · simp [h,find]

theorem covers_add : (L.add hold hfresh hpos hfits).Covers scope ↔
    scope ∈ hold.hierarchy.scopes ∨ L.Covers scope := by
  simp [Covers,add]

end

/-! Settling. -/

/-- Replace a pending hold's tokens by the actual ones, which fit. -/
def settle (L : Ledger) (hold : Hold) (actual : ℕ) (hmem : hold ∈ L.holds)
    (hfits : ∀ scope ∈ hold.hierarchy.scopes,
      L.usage scope - hold.tokens + actual ≤ maximumValue) : Ledger where
  holds := update Hold.id hold.id (Hold.settle actual) L.holds
  unique := by
    rw [map_update (g := Hold.id) (f := Hold.settle actual) fun _ => rfl]
    exact L.unique
  positive := by
    intro h hh
    rcases mem_update.mp hh with ⟨hold',-⟩ | ⟨x,hx,-,rfl⟩
    · exact L.positive h hold'
    · exact L.positive x hx
  bounded scope := by
    rw [usageOf,total_update _ L.unique hmem rfl,charge_settle,Hold.charge]
    by_cases hs : scope ∈ hold.hierarchy.scopes
    · rw [if_pos hs,if_pos hs]
      exact hfits scope hs
    · rw [if_neg hs,if_neg hs,sub_zero,add_zero]
      exact L.bounded scope

section
variable {actual : ℕ} {hmem : hold ∈ L.holds}
  {hfits : ∀ scope ∈ hold.hierarchy.scopes, L.usage scope - hold.tokens + actual ≤ maximumValue}

theorem usage_settle : (L.settle hold actual hmem hfits).usage scope = L.usage scope +
    if scope ∈ hold.hierarchy.scopes then (actual : ℤ) - hold.tokens else 0 := by
  show total _ (update Hold.id hold.id (Hold.settle actual) L.holds) = _
  rw [total_update _ L.unique hmem rfl,charge_settle,Hold.charge,usage,usageOf]
  by_cases hs : scope ∈ hold.hierarchy.scopes
  · rw [if_pos hs,if_pos hs,if_pos hs]
    omega
  · rw [if_neg hs,if_neg hs,if_neg hs]
    omega

theorem find_settle (id : String) : (L.settle hold actual hmem hfits).find id =
    if hold.id = id then some (hold.settle actual) else L.find id := by
  split_ifs with h
  · exact find_eq_some.mpr ⟨mem_update.mpr (.inr ⟨hold,hmem,rfl,rfl⟩),h⟩
  · apply Option.ext
    intro other
    rw [find_eq_some,find_eq_some]
    constructor
    · rintro ⟨hother,rfl⟩
      rcases mem_update.mp hother with ⟨hold',-⟩ | ⟨x,-,hx,rfl⟩
      · exact ⟨hold',rfl⟩
      · exact absurd hx.symm h
    · rintro ⟨hother,rfl⟩
      exact ⟨mem_update.mpr (.inl ⟨hother,Ne.symm h⟩),rfl⟩

theorem covers_settle : (L.settle hold actual hmem hfits).Covers scope ↔ L.Covers scope := by
  show (∃ h ∈ update Hold.id hold.id (Hold.settle actual) L.holds, _) ↔ _
  constructor
  · rintro ⟨h,hh,hs⟩
    rcases mem_update.mp hh with ⟨hold',-⟩ | ⟨x,hx,-,rfl⟩
    · exact ⟨h,hold',hs⟩
    · exact ⟨x,hx,hs⟩
  · rintro ⟨h,hh,hs⟩
    by_cases hid : h.id = hold.id
    · exact ⟨h.settle actual,mem_update.mpr (.inr ⟨h,hh,hid,rfl⟩),hs⟩
    · exact ⟨h,mem_update.mpr (.inl ⟨hh,hid⟩),hs⟩

end
end Ledger

/-! The stored form. -/

variable (sha : String → String)

/-- The record of a hold. -/
def Hold.text (h : Hold) : String :=
  let fingerprint := redisScopeFingerprint sha h.hierarchy.scopes
  match h.settled with
  | none => redisTPMPendingValue h.reserved fingerprint
  | some actual => redisTPMSettledValue h.reserved actual fingerprint

theorem Hold.eq_of_text {sha : String → String} (hsha : CollisionFree sha)
    {h h' : Hold} (hid : h.id = h'.id) (htext : h.text sha = h'.text sha) : h = h' := by
  obtain ⟨id,hierarchy,reserved,settled⟩ := h
  obtain ⟨id',hierarchy',reserved',settled'⟩ := h'
  cases settled with
  | none =>
    cases settled' with
    | none =>
      obtain ⟨rfl,hfp⟩ := redisTPMPendingValue_inj.mp htext
      have hhy : hierarchy = hierarchy' := redisScopeFingerprint_inj hsha hfp
      simp only at hid
      subst hid hhy
      rfl
    | some actual => exact absurd htext redisTPMPendingValue_ne_settled
  | some actual =>
    cases settled' with
    | none => exact absurd htext.symm redisTPMPendingValue_ne_settled
    | some actual' =>
      obtain ⟨rfl,rfl,hfp⟩ := redisTPMSettledValue_inj.mp htext
      have hhy : hierarchy = hierarchy' := redisScopeFingerprint_inj hsha hfp
      simp only at hid
      subst hid hhy
      rfl

/-- The hash has one record for each hold, and a counter with the scope's usage for each scope
that some hold covers. -/
structure Encodes (L : Ledger) (hash : Hash) : Prop where
  records : ∀ id, hash (redisTPMReservationField id) = (L.find id).map (Hold.text sha)
  counters : ∀ scope, scope.validate → L.Covers scope →
    hash (redisRPMField scope) = some (L.usage scope).toNat.repr
  missing : ∀ scope, scope.validate → ¬L.Covers scope → hash (redisRPMField scope) = none

variable {sha} {L : Ledger} {hash : Hash}

theorem encodes_empty : Encodes sha .empty fun _ => none where
  records _ := rfl
  counters := by simp [Ledger.Covers,Ledger.empty]
  missing := by simp

section
variable (h : Encodes sha L hash)
include h

theorem Encodes.counts {scope : Scope} (hv : scope.validate) :
    Server.Counts hash (redisRPMField scope) (L.usage scope).toNat := by
  by_cases hc : L.Covers scope
  · exact .inl (h.counters scope hv hc)
  · exact .inr ⟨h.missing scope hv hc,by rw [Ledger.usage_of_not_covers hc]; rfl⟩

theorem Encodes.readCount {scope : Scope} (hv : scope.validate) :
    readCount (hash (redisRPMField scope)) = some (L.usage scope).toNat :=
  readCount_of_counts (h.counts hv) (by have := L.usage_le scope; omega)

theorem Encodes.fieldValue_eq {scope : Scope} (hv : scope.validate) :
    (fieldValue hash (redisRPMField scope) : ℤ) = L.usage scope := by
  rw [fieldValue,h.readCount hv,Option.getD_some,Int.toNat_of_nonneg (L.usage_nonneg scope)]

end

/-- The hash after a script has added `delta` to the counters in `fields` and written a record. -/
def rewritten (hash : Hash) (fields : List String) (delta : ℤ) (field text : String) : Hash :=
  Function.update (fun f => if f ∈ fields then some (fieldValue hash f + delta).toNat.repr
    else hash f) field (some text)

theorem rewritten_record (hy : Hierarchy) (delta : ℤ) (id text id' : String) :
    rewritten hash hy.fields delta (redisTPMReservationField id) text
      (redisTPMReservationField id') =
      if id = id' then some text else hash (redisTPMReservationField id') := by
  rw [rewritten]
  by_cases hid : id = id'
  · rw [if_pos hid,hid,Function.update_self]
  · have hne : redisTPMReservationField id' ≠ redisTPMReservationField id :=
      fun heq => hid (redisTPMReservationField_inj.mp heq).symm
    rw [if_neg hid,Function.update_of_ne hne,if_neg (reservationField_notMem hy id')]

/-- Any ledger with the new record and the moved usages is encoded by the rewritten hash. -/
theorem Encodes.rewrite (h : Encodes sha L hash) (hold : Hold) (L' : Ledger) {delta : ℤ}
    (hfind : ∀ id, L'.find id = if hold.id = id then some hold else L.find id)
    (husage : ∀ scope, L'.usage scope =
      L.usage scope + if scope ∈ hold.hierarchy.scopes then delta else 0)
    (hcovers : ∀ scope, L'.Covers scope ↔ scope ∈ hold.hierarchy.scopes ∨ L.Covers scope) :
    Encodes sha L' (rewritten hash hold.hierarchy.fields delta
      (redisTPMReservationField hold.id) (hold.text sha)) := by
  have hfield {scope : Scope} (hv : scope.validate) :
      rewritten hash hold.hierarchy.fields delta (redisTPMReservationField hold.id)
        (hold.text sha) (redisRPMField scope) =
      if scope ∈ hold.hierarchy.scopes then some (L.usage scope + delta).toNat.repr
        else hash (redisRPMField scope) := by
    rw [rewritten,Function.update_of_ne (redisRPMField_ne_reservation hv _)]
    simp only [Hierarchy.field_mem hv,h.fieldValue_eq hv]
  constructor
  · intro id
    rw [hfind,rewritten_record]
    split_ifs
    · rfl
    · exact h.records id
  · intro scope hv hc
    rw [hfield hv,husage]
    split_ifs with hs
    · rfl
    · rw [add_zero]
      exact h.counters scope hv (((hcovers scope).mp hc).resolve_left hs)
  · intro scope hv hc
    rw [hcovers,not_or] at hc
    rw [hfield hv,if_neg hc.1]
    exact h.missing scope hv hc.2

end Limits.Tpm
