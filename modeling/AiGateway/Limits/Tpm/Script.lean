import AiGateway.Limits.Evaluator

/-! The two TPM scripts (`redisTPMReserveScript`, `redisTPMSettleScript`) and the texts they store.
Numeric arguments arrive parsed: they are integers, so of the checks `not x`, `x % 1 ~= 0` and the
range checks only the last remain. -/
namespace Limits.Tpm
open Text Redis

def redisTPMReservationField (reservationID : String) : String := "reservation:" ++ reservationID

def redisTPMPendingValue (reserved : ℕ) (fingerprint : String) : String :=
  "r:" ++ reserved.repr ++ ":" ++ fingerprint

def redisTPMSettledValue (reserved actual : ℕ) (fingerprint : String) : String :=
  "s:" ++ reserved.repr ++ ":" ++ actual.repr ++ ":" ++ fingerprint

theorem redisTPMReservationField_inj {id id' : String} :
    redisTPMReservationField id = redisTPMReservationField id' ↔ id = id' := by
  constructor
  · intro h
    have hl := congrArg String.toList h
    simp only [redisTPMReservationField,String.toList_append,List.append_cancel_left_eq] at hl
    exact String.toList_inj.mp hl
  · rintro rfl
    rfl

variable {fp fp' : String} {n' n a : ℕ}

theorem redisTPMPendingValue_inj :
    redisTPMPendingValue n fp = redisTPMPendingValue n' fp' ↔ n = n' ∧ fp = fp' := by
  constructor
  · intro h
    have htext : n.repr ++ ":" ++ fp = n'.repr ++ ":" ++ fp' := by
      have hl := congrArg String.toList h
      rw [← String.toList_inj]
      simpa [redisTPMPendingValue] using hl
    simpa using (append_colon_inj (colon_notMem_repr n) (colon_notMem_repr n')).mp htext
  · rintro ⟨rfl,rfl⟩
    rfl

theorem redisTPMSettledValue_inj {a' : ℕ} :
    redisTPMSettledValue n a fp = redisTPMSettledValue n' a' fp' ↔ n = n' ∧ a = a' ∧ fp = fp' := by
  constructor
  · intro h
    have htext : n.repr ++ ":" ++ (a.repr ++ ":" ++ fp) =
        n'.repr ++ ":" ++ (a'.repr ++ ":" ++ fp') := by
      have hl := congrArg String.toList h
      rw [← String.toList_inj]
      simpa [redisTPMSettledValue] using hl
    obtain ⟨hn,hrest⟩ := (append_colon_inj (colon_notMem_repr n) (colon_notMem_repr n')).mp htext
    obtain ⟨ha,hfp⟩ := (append_colon_inj (colon_notMem_repr a) (colon_notMem_repr a')).mp hrest
    exact ⟨repr_injective hn,repr_injective ha,hfp⟩
  · rintro ⟨rfl,rfl,rfl⟩
    rfl

theorem redisTPMPendingValue_ne_settled :
    redisTPMPendingValue n fp ≠ redisTPMSettledValue n' a fp' := by
  intro h
  have hl := congrArg String.toList h
  simp [redisTPMPendingValue,redisTPMSettledValue] at hl

theorem redisRPMField_ne_reservation {scope : Scope} (hv : scope.validate) (id : String) :
    redisRPMField scope ≠ redisTPMReservationField id := by
  intro h
  have hl := congrArg String.toList h
  cases hk : scope.kind <;> simp [Scope.validate,hk] at hv <;>
    simp [redisRPMField,redisTPMReservationField,hk] at hl

theorem reservationField_notMem (h : Hierarchy) (id : String) :
    redisTPMReservationField id ∉ h.fields := by
  intro hmem
  obtain ⟨scope,hscope,heq⟩ := List.mem_map.mp hmem
  exact redisRPMField_ne_reservation (h.scopes_valid scope hscope) id heq

/-- The three arguments of one scope. -/
structure ScopeArgument where
  field : String
  (hard soft : ℕ)

/-- Check the limits of each scope and read its counter, or fail with the scope's index. -/
def readCounts (hash : Hash) : ℕ → List ScopeArgument → Except ℕ (List ℕ)
  | _, [] => .ok []
  | index, scope :: scopes =>
      if scope.hard < 1 ∨ scope.hard > maximumValue ∨ scope.soft < 1 ∨ scope.soft > scope.hard then
        .error index
      else match readCount (hash scope.field) with
        | none => .error index
        | some count => (readCounts hash (index + 1) scopes).map (count :: ·)

/-- The first scope whose hard limit the request would exceed: index, count and limit. -/
def firstDenied (requested : ℕ) : ℕ → List (ScopeArgument × ℕ) → Option (ℕ × ℕ × ℕ)
  | _, [] => none
  | index, (scope,count) :: rest =>
      if exceeds count requested scope.hard then some (index,count,scope.hard)
      else firstDenied requested (index + 1) rest

/-- The end of the reserve script, once no record was found: check the hard limits, then write. -/
def reserveTokens (key : String) (retentionMS : ℕ) (reservationField reservationValue : String)
    (requested : ℕ) (scopes : List ScopeArgument) (counts : List ℕ) : Script := fun s =>
  let nowMS := s.time.1 * 1000 + s.time.2 / 1000
  let expiresMS := resetMS s + retentionMS
  match firstDenied requested 1 (scopes.zip counts) with
  | some (index,count,hard) =>
      (s,some (.ints [0,index,count,hard,serverWindow s,nowMS,resetMS s]))
  | none =>
    match s.hincrbyAll key (scopes.map ScopeArgument.field) requested with
    | (s',none) => (s',none)
    | (s',some counts) =>
        let s' := s'.hset key reservationField reservationValue
        let s' := s'.pexpireatHash key expiresMS
        (s',some (.ints ([1,(serverWindow s : ℤ),nowMS,resetMS s,expiresMS,0] ++ counts)))

def redisTPMReserveScript (key : String) (expectedWindow : ℤ) (retentionMS : ℕ)
    (reservationField reservationValue : String) (requested : ℕ) (scopes : List ScopeArgument) :
    Script := fun s =>
  let nowMS := s.time.1 * 1000 + s.time.2 / 1000
  let expiresMS := resetMS s + retentionMS
  if (serverWindow s : ℤ) ≠ expectedWindow then
    (s,some (.ints [2,serverWindow s,nowMS,resetMS s]))
  else if requested < 1 ∨ requested > maximumValue then (s,some (.ints [3,0]))
  else match readCounts (s.hash key) 1 scopes with
    | .error index => (s,some (.ints [3,index]))
    | .ok counts =>
      match s.hash key reservationField with
      | some existing =>
          if existing ≠ reservationValue then (s,some (.ints [4]))
          else (s,some (.ints ([1,(serverWindow s : ℤ),nowMS,resetMS s,expiresMS,1] ++
            counts.map fun count : ℕ => (count : ℤ))))
      | none =>
          reserveTokens key retentionMS reservationField reservationValue requested scopes counts s

/-- Read the counter of each scope, which must be there. -/
def readPresentCounts (hash : Hash) : ℕ → List String → Except ℕ (List ℕ)
  | _, [] => .ok []
  | index, field :: fields =>
      match hash field with
      | none => .error index
      | some raw => match readCount (some raw) with
          | none => .error index
          | some count => (readPresentCounts hash (index + 1) fields).map (count :: ·)

/-- The first counter that the correction would take below zero or above the maximum. -/
def firstOutOfRange (delta : ℤ) : ℕ → List ℕ → Option ℕ
  | _, [] => none
  | index, count :: counts =>
      if delta < 0 ∧ (count : ℤ) < -delta then some index
      else if delta > 0 ∧ (count : ℤ) > maximumValue - delta then some index
      else firstOutOfRange delta (index + 1) counts

/-- The end of the settle script for a pending record: move the counters, then write. -/
def settleTokens (key reservationField settledValue : String) (reserved actual : ℕ)
    (fields : List String) (counts : List ℕ) : Script := fun s =>
  let delta : ℤ := actual - reserved
  let nowMS := s.time.1 * 1000 + s.time.2 / 1000
  match firstOutOfRange delta 1 counts with
  | some index => (s,some (.ints [3,index]))
  | none =>
    match s.hincrbyAll key fields delta with
    | (s',none) => (s',none)
    | (s',some counts) =>
        (s'.hset key reservationField settledValue,
          some (.ints ([0,(nowMS : ℤ),reserved,actual,delta,0] ++ counts)))

def redisTPMSettleScript (key reservationField pendingValue settledValue : String)
    (reserved actual : ℕ) (fields : List String) : Script := fun s =>
  match s.hash key reservationField with
  | none => (s,some (.ints [1]))
  | some existing =>
    if existing ≠ pendingValue ∧ existing ≠ settledValue then (s,some (.ints [2]))
    else if reserved < 1 ∨ reserved > maximumValue ∨ actual > maximumValue then
      (s,some (.ints [3,0]))
    else match readPresentCounts (s.hash key) 1 fields with
      | .error index => (s,some (.ints [3,index]))
      | .ok counts =>
        let delta : ℤ := actual - reserved
        let nowMS := s.time.1 * 1000 + s.time.2 / 1000
        if existing = settledValue then
          (s,some (.ints ([0,(nowMS : ℤ),reserved,actual,delta,1] ++
            counts.map fun count : ℕ => (count : ℤ))))
        else settleTokens key reservationField settledValue reserved actual fields counts s

end Limits.Tpm
