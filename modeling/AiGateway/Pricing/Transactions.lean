import AiGateway.Ledger.Later

/-! Transactions on prices under `READ COMMITTED`, with the constraints and triggers of migration
15. A statement sees what is committed and what its own transaction has written; rows of versions
are locked. The insert of a rate has two parts: its trigger, and the insert proper with the check of
the foreign key, between which others may come in. -/
namespace Pricing
open Text Machine Metering Ledger

variable {τ : Type}

/-! Constraints. -/

/-- `price_versions_lifecycle_valid` -/
def lifecycleValid (v : PriceVersion) : Bool :=
  match v.status with
  | .draft => v.version = 1 && v.publishedAt.isNone
  | .published => v.version = 2 && (v.publishedAt.map fun t =>
      v.createdAt ≤ t && t ≤ v.updatedAt).getD false

def versionChecks (v : PriceVersion) : Bool :=
  isWord isUpper isUpper 2 2 v.currency && lifecycleValid v && actorFormat v.createdBy &&
    actorFormat v.updatedBy && v.createdAt ≤ v.updatedAt

def rateChecks (r : VersionRate) : Bool :=
  r.rate.tokenType.valid && validBillingUnit r.rate.tokenType r.rate.billingUnit &&
    1 ≤ r.rate.unitQuantity && r.rate.unitQuantity ≤ 9007199254740991 &&
    0 ≤ r.rate.unitPriceMicros && r.rate.unitPriceMicros ≤ 9007199254740991 &&
    actorFormat r.createdBy

/-- `enforce_price_version_insert` -/
def enforcePriceVersionInsert (v : PriceVersion) : Bool :=
  v.status = .draft && v.version = 1 && v.publishedAt.isNone

/-- `enforce_price_version_publish`; `rated` says whether the version has a rate. -/
def enforcePriceVersionPublish (rated : Bool) (old new : PriceVersion) : Bool :=
  new.id = old.id && new.deploymentID = old.deploymentID &&
    new.region = old.region && new.currency = old.currency &&
    new.effectiveAt = old.effectiveAt && new.createdAt = old.createdAt &&
    new.createdBy = old.createdBy && old.status = .draft &&
    new.status = .published && new.version = old.version + 1 &&
    old.updatedAt ≤ new.updatedAt && rated

/-- `price_versions_deployment_effective_unique` -/
def effectiveKey (v : PriceVersion) : String × String × Time :=
  (v.deploymentID,v.region,v.effectiveAt)

/-- The rows cannot both be in the table. -/
def clashes (v other : PriceVersion) : Bool :=
  other.id = v.id || effectiveKey other = effectiveKey v

/-! Transactions. -/

/-- The locked versions, the rows that are written and not committed, and the inserts of rates whose
trigger has passed, all with their transactions. -/
structure Writers (τ : Type) where
  locks : List (String × τ)
  images : List (PriceVersion × τ)
  rates : List (VersionRate × τ)
  inserting : τ → Option VersionRate

inductive Statement (τ : Type) where
  | insertVersion (t : τ) (row : PriceVersion)
  | updateVersion (t : τ) (id : String) (set : PriceVersion → PriceVersion)
  | deleteVersion (t : τ) (id : String)
  | beginRate (t : τ) (rate : VersionRate)
  | finishRate (t : τ)
  | mutateRate (t : τ) (id : String) (tokenType : TokenType)
  | commit (t : τ)
  | rollback (t : τ)

structure System (τ : Type) extends Writers τ where
  prices : Prices

namespace System
variable [DecidableEq τ] (s : System τ) (t : τ)

/-- The version as the transaction sees it. -/
def seen (id : String) : Option PriceVersion :=
  match s.images.find? fun image => image.1.id = id ∧ image.2 = t with
  | some image => some image.1
  | none => s.prices.version? id

def ownRates : List VersionRate := (s.rates.filter fun r => r.2 = t).map Prod.fst

def rated (id : String) : Bool :=
  (s.prices.rates ++ s.ownRates t).any fun r => decide (r.priceVersionID = id)

/-- Another transaction has locked the version. -/
def lockedByOther (id : String) : Bool :=
  s.locks.any fun lock => lock.1 = id && lock.2 ≠ t

def lock (id : String) : System τ :=
  { s with locks := (id,t) :: s.locks.filter fun lock => lock ≠ (id,t) }

/-- The transaction is gone with all that it has written: it was rolled back, or a
statement failed. -/
def rollback : System τ where
  locks := s.locks.filter fun lock => lock.2 ≠ t
  images := s.images.filter fun image => image.2 ≠ t
  rates := s.rates.filter fun r => r.2 ≠ t
  inserting := Function.update s.inserting t none
  prices := s.prices

/-- `references` says whether the deployment has that region; the insert waits for another one of
the same key. -/
def insertVersion (references : Bool) (row : PriceVersion) : System τ :=
  if (s.inserting t).isSome then s
  else if !(enforcePriceVersionInsert row && versionChecks row && references) then s.rollback t
  else if s.prices.versions.any (clashes row) ||
      s.images.any fun image => clashes row image.1 && image.2 = t then s.rollback t
  else if s.images.any fun image => clashes row image.1 then s
  else { s.lock t row.id with images := s.images ++ [(row,t)] }

def updateVersion (id : String) (set : PriceVersion → PriceVersion) : System τ :=
  if (s.inserting t).isSome then s
  else match s.seen t id with
    | none => s
    | some old =>
        if s.lockedByOther t id then s
        else if enforcePriceVersionPublish (s.rated t id) old (set old) &&
          versionChecks (set old) then
          { s.lock t id with
            images := s.images.filter (fun image => ¬(image.1.id = id ∧ image.2 = t)) ++
              [(set old,t)] }
        else s.rollback t

/-- `reject_price_version_delete` -/
def deleteVersion (id : String) : System τ :=
  if (s.inserting t).isSome then s
  else match s.seen t id with
    | none => s
    | some _ => if s.lockedByOther t id then s else s.rollback t

/-- `enforce_price_version_rate_insert`: `SELECT … FOR UPDATE`, which waits for other transactions
and then reads again. -/
def beginRate (rate : VersionRate) : System τ :=
  if (s.inserting t).isSome then s
  else match s.seen t rate.priceVersionID with
    | none => { s with inserting := Function.update s.inserting t (some rate) }
    | some version =>
        if s.lockedByOther t rate.priceVersionID then s
        else if version.status ≠ .draft then s.rollback t
        else { s.lock t rate.priceVersionID with
          inserting := Function.update s.inserting t (some rate) }

/-- The constraints, the primary key, and then the foreign key. -/
def finishRate : System τ :=
  match s.inserting t with
  | none => s
  | some rate =>
      if !rateChecks rate then s.rollback t
      else if rateKey rate ∈ (s.prices.rates ++ s.ownRates t).map rateKey then s.rollback t
      else if rateKey rate ∈ s.rates.map fun r => rateKey r.1 then s
      else match s.seen t rate.priceVersionID with
        | none => s.rollback t
        | some _ =>
            { s with
              rates := s.rates ++ [(rate,t)]
              inserting := Function.update s.inserting t none }

/-- `reject_price_version_rate_mutation`, for an update or a deletion. -/
def mutateRate (id : String) (tokenType : TokenType) : System τ :=
  if (s.inserting t).isSome then s
  else if (id,tokenType) ∈ (s.prices.rates ++ s.ownRates t).map rateKey then s.rollback t
  else s

/-- The rows that a commit makes visible. -/
def written : Prices where
  versions := s.prices.versions.map (fun v => (s.seen t v.id).getD v) ++
    ((s.images.filter fun image => image.2 = t ∧ image.1.id ∉ s.prices.versions.map (·.id)).map
      Prod.fst)
  rates := s.prices.rates ++ s.ownRates t

def commit : System τ :=
  if (s.inserting t).isSome then s else { s.rollback t with prices := s.written t }

end System

variable [DecidableEq τ]

def System.step (references : PriceVersion → Bool) (s : System τ) : Statement τ → System τ
  | .insertVersion t row => s.insertVersion t (references row) row
  | .updateVersion t id set => s.updateVersion t id set
  | .deleteVersion t id => s.deleteVersion t id
  | .beginRate t rate => s.beginRate t rate
  | .finishRate t => s.finishRate t
  | .mutateRate t id tokenType => s.mutateRate t id tokenType
  | .commit t => s.commit t
  | .rollback t => s.rollback t

/-- The trigger of a rate finds the version of the rate. -/
def Statement.Finds (s : System τ) : Statement τ → Prop
  | .beginRate t rate => (s.seen t rate.priceVersionID).isSome
  | _ => True

end Pricing
