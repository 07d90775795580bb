import AiGateway.Ledger.Schema
import Mathlib.Data.List.Sort

/-! The cost of a request, rebuilt from the ledger (`internal/meteringcost/model.go`). -/
namespace MeteringCost
open Text Machine Adapter Metering Execution Ledger

inductive CostError where
  | invalid
  | notFound
  | notTerminal
  | pending
  | unavailable

/-- `^[A-Z]{3}$` -/
def currencyPattern (s : String) : Bool := isWord isUpper isUpper 2 2 s

structure Scope where
  (tenantID projectID : String)

def Scope.validate (scope : Scope) : Bool := isUUID scope.tenantID && isUUID scope.projectID

structure CurrencyTotal where
  currency : String
  amountMicros : ℤ
  deriving DecidableEq

structure LedgerAdjustment where
  targetEventID : String
  origin : Origin
  (reason reference actor : String)
  (correctedQuantity correctedAmountMicros : ℤ)

/-- A row of the ledger with its price. -/
structure LedgerFact where
  (eventID attemptID : String)
  tokenType : TokenType
  quantity : ℤ
  source : UsageSource
  (observedAt createdAt : Time)
  (priceVersionID currency : String)
  billingUnit : BillingUnit
  (unitQuantity unitPriceMicros amountMicros : ℤ)
  adjustment : Option LedgerAdjustment

/-- An entry of the result has the fields of the fact. -/
abbrev LedgerEntry := LedgerFact

structure CostBucket where
  ledgerEntryCount : ℕ
  entries : List LedgerEntry
  totals : List CurrencyTotal

structure AttemptFact where
  id : String
  number : ℕ
  deploymentID : String
  status : AttemptStatus

structure AttemptCost extends AttemptFact, CostBucket

structure RequestCost where
  (tenantID projectID requestID : String)
  status : RequestStatus
  (attemptCount ledgerEntryCount : ℕ)
  attempts : List AttemptCost
  requestLevel : CostBucket
  totals : List CurrencyTotal

/-- All entries of the result. -/
def RequestCost.entries (cost : RequestCost) : List LedgerEntry :=
  cost.requestLevel.entries ++ cost.attempts.flatMap (·.entries)

/-! Facts. -/

def LedgerAdjustment.valid (adjustment : LedgerAdjustment) : Bool :=
  isUUID adjustment.targetEventID && adjustment.origin.valid && labelPattern adjustment.reason &&
    auditPattern adjustment.reference && auditPattern adjustment.actor &&
    0 ≤ adjustment.correctedQuantity &&
    adjustment.correctedQuantity ≤ maximumExactInteger &&
    0 ≤ adjustment.correctedAmountMicros &&
    adjustment.correctedAmountMicros ≤ maximumExactInteger

def validAdjustment : Option LedgerAdjustment → Bool
  | none => false
  | some adjustment => adjustment.valid

namespace LedgerFact
variable (fact : LedgerFact)

def rate : PriceRate :=
  ⟨fact.tokenType,fact.billingUnit,fact.unitQuantity,fact.unitPriceMicros⟩

def identified : Bool :=
  isUUID fact.eventID && (fact.attemptID = "" || isUUID fact.attemptID) &&
    isUUID fact.priceVersionID && currencyPattern fact.currency &&
    fact.observedAt ≠ zeroTime && fact.createdAt ≠ zeroTime &&
    fact.rate.validate && fact.source.valid

def inRange : Bool :=
  if fact.source = .adjustment then
    -maximumExactInteger ≤ fact.quantity && fact.quantity ≤ maximumExactInteger &&
      -maximumExactInteger ≤ fact.amountMicros &&
      fact.amountMicros ≤ maximumExactInteger &&
      (fact.quantity ≠ 0 || fact.amountMicros ≠ 0) &&
      validAdjustment fact.adjustment
  else
    1 ≤ fact.quantity && fact.quantity ≤ maximumExactInteger &&
      0 ≤ fact.amountMicros && fact.amountMicros ≤ maximumExactInteger &&
      fact.adjustment.isNone

def entry : Except CostError LedgerEntry :=
  if fact.identified && fact.inRange then .ok fact else .error .unavailable

end LedgerFact

/-! Totals by currency. -/

/-- A map from currencies to amounts. -/
abbrev CurrencyAccumulator := List (String × ℤ)

namespace CurrencyAccumulator

def add (totals : CurrencyAccumulator) (currency : String) (amount : ℤ) : CurrencyAccumulator :=
  if currency ∈ totals.map Prod.fst then
    Relational.update Prod.fst currency (fun total => (total.1,total.2 + amount)) totals
  else totals ++ [(currency,amount)]

def ordered (totals : CurrencyAccumulator) : Except CostError (List CurrencyTotal) :=
  if totals.all fun total => 0 ≤ total.2 && total.2 ≤ maximumExactInteger then
    .ok ((totals.insertionSort fun a b => a.1 ≤ b.1).map fun total => ⟨total.1,total.2⟩)
  else .error .unavailable

/-- What the additions of these facts amount to. -/
def accumulate (facts : List LedgerFact) : CurrencyAccumulator :=
  facts.foldl (fun totals fact => totals.add fact.currency fact.amountMicros) []

end CurrencyAccumulator

/-! The projection. -/

/-- An attempt without entries. -/
def AttemptFact.unused (fact : AttemptFact) : AttemptCost :=
  { fact with ledgerEntryCount := 0, entries := [], totals := [] }

/-- The first loop; `seen` are the IDs of the attempts before. -/
def attemptCosts (index : ℕ) (seen : List String) :
    List AttemptFact → Except CostError (List AttemptCost)
  | [] => .ok []
  | fact :: facts =>
      if isUUID fact.id && fact.number = index + 1 && isUUID fact.deploymentID &&
          fact.status.terminal && !seen.contains fact.id then
        (attemptCosts (index + 1) (fact.id :: seen) facts).map (fact.unused :: ·)
      else .error .unavailable

/-- The state of the second loop. -/
structure Progress where
  attempts : List (AttemptCost × CurrencyAccumulator)
  requestLevelEntryCount : ℕ
  requestLevelEntries : List LedgerEntry
  requestLevelTotals : CurrencyAccumulator
  requestTotals : CurrencyAccumulator
  seenEvents : List String

def Progress.start (attempts : List AttemptCost) : Progress where
  attempts := attempts.map (·,[])
  requestLevelEntryCount := 0
  requestLevelEntries := []
  requestLevelTotals := []
  requestTotals := []
  seenEvents := []

/-- One more entry of an attempt. -/
def charge (entry : LedgerEntry) (attempt : AttemptCost × CurrencyAccumulator) :
    AttemptCost × CurrencyAccumulator :=
  ({ attempt.1 with
      ledgerEntryCount := attempt.1.ledgerEntryCount + 1
      entries := attempt.1.entries ++ [entry] },
    attempt.2.add entry.currency entry.amountMicros)

def Progress.add (p : Progress) (fact : LedgerFact) : Except CostError Progress :=
  match fact.entry with
  | .error _ => .error .unavailable
  | .ok entry =>
      if fact.eventID ∈ p.seenEvents then .error .unavailable
      else if fact.attemptID = "" then
        .ok { p with
          seenEvents := p.seenEvents ++ [fact.eventID]
          requestTotals := p.requestTotals.add fact.currency fact.amountMicros
          requestLevelEntryCount := p.requestLevelEntryCount + 1
          requestLevelEntries := p.requestLevelEntries ++ [entry]
          requestLevelTotals := p.requestLevelTotals.add fact.currency fact.amountMicros }
      else if fact.attemptID ∈ p.attempts.map (·.1.id) then
        .ok { p with
          seenEvents := p.seenEvents ++ [fact.eventID]
          requestTotals := p.requestTotals.add fact.currency fact.amountMicros
          attempts := Relational.update (·.1.id) fact.attemptID (charge entry) p.attempts }
      else .error .unavailable

def Progress.addAll (p : Progress) : List LedgerFact → Except CostError Progress
  | [] => .ok p
  | fact :: facts => p.add fact >>= fun p => p.addAll facts

/-- The totals of an attempt are put in order. -/
def closeAttempt (attempt : AttemptCost × CurrencyAccumulator) : Except CostError AttemptCost :=
  attempt.2.ordered.map fun totals => { attempt.1 with totals := totals }

def buildRequestCost (scope : Scope) (requestID : String) (status : RequestStatus)
    (declaredAttemptCount : ℕ) (attemptFacts : List AttemptFact) (ledgerFacts : List LedgerFact) :
    Except CostError RequestCost :=
  if scope.validate && requestIDPattern requestID && status.terminal &&
      declaredAttemptCount = attemptFacts.length then do
    let attempts ← attemptCosts 0 [] (attemptFacts.insertionSort fun a b => a.number ≤ b.number)
    let p ← (Progress.start attempts).addAll ledgerFacts
    let attempts ← p.attempts.mapM closeAttempt
    let requestLevelOrdered ← p.requestLevelTotals.ordered
    let requestOrdered ← p.requestTotals.ordered
    return {
      tenantID := scope.tenantID
      projectID := scope.projectID
      requestID := requestID
      status := status
      attemptCount := declaredAttemptCount
      ledgerEntryCount := ledgerFacts.length
      attempts := attempts
      requestLevel := ⟨p.requestLevelEntryCount,p.requestLevelEntries,requestLevelOrdered⟩
      totals := requestOrdered }
  else .error .unavailable

end MeteringCost
