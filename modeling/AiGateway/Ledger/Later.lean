import AiGateway.Ledger.Schema

/-! What the programs around the ledger leave as it is: requests and attempts are kept, published
prices are frozen, and the ledger is append-only. -/
namespace Ledger
open Adapter Metering Relational List

variable {H : Type}

def rateKey (rate : VersionRate) : String × TokenType := (rate.priceVersionID,rate.rate.tokenType)

/-- The primary keys of prices, and the reference of a rate to its version. -/
@[mk_iff] structure Prices.Keyed (prices : Prices) : Prop where
  versions : (prices.versions.map (·.id)).Nodup
  rates : (prices.rates.map rateKey).Nodup
  references : ∀ r ∈ prices.rates, ∃ v ∈ prices.versions, v.id = r.priceVersionID

instance (prices : Prices) : Decidable prices.Keyed := decidable_of_iff' _ (Prices.keyed_iff prices)

theorem Prices.Keyed.version?_eq_some {prices : Prices} (h : prices.Keyed) {id : String}
    {v : PriceVersion} : prices.version? id = some v ↔ v ∈ prices.versions ∧ v.id = id :=
  find?_eq_some h.versions

theorem Prices.Keyed.rate?_eq_some {prices : Prices} (h : prices.Keyed) {id : String}
    {tokenType : TokenType} {r : VersionRate} : prices.rate? id tokenType = some r ↔
      r ∈ prices.rates ∧ r.priceVersionID = id ∧ r.rate.tokenType = tokenType := by
  have hkey : (fun r : VersionRate => decide (r.priceVersionID = id ∧
    r.rate.tokenType = tokenType)) =
      fun r => decide (rateKey r = (id,tokenType)) := by
    funext r
    simp [rateKey]
  rw [Prices.rate?,hkey,find?_eq_some h.rates,rateKey,Prod.mk.injEq]

/-- A published version with its rates is there later too. -/
@[mk_iff] structure Prices.Later (prices later : Prices) : Prop where
  versions : ∀ v ∈ prices.versions, v.status = .published → v ∈ later.versions
  rates : ∀ r ∈ prices.rates, (∃ v ∈ prices.versions, v.id = r.priceVersionID ∧
    v.status = .published) → r ∈ later.rates

instance (prices later : Prices) : Decidable (prices.Later later) :=
  decidable_of_iff' _ (Prices.later_iff prices later)

theorem Prices.Later.refl (prices : Prices) : prices.Later prices :=
  ⟨fun _ hv _ => hv,fun _ hr _ => hr⟩

theorem Prices.Later.trans {prices mid later : Prices} (h : prices.Later mid)
    (h' : mid.Later later) : prices.Later later := by
  constructor
  · intro v hv hstat
    exact h'.versions v (h.versions v hv hstat) hstat
  · intro r hr hver
    apply h'.rates r (h.rates r hr hver)
    obtain ⟨v,hv,hid,hstat⟩ := hver
    exact ⟨v,h.versions v hv hstat,hid,hstat⟩

namespace Tables

@[mk_iff] structure Keyed (db : Tables H) : Prop where
  attempts : (db.attempts.map (·.id)).Nodup
  prices : db.prices.Keyed

instance (db : Tables H) : Decidable db.Keyed := decidable_of_iff' _ (keyed_iff db)

@[mk_iff] structure Later (db later : Tables H) : Prop where
  requests : ∀ r ∈ db.requests, ∃ r' ∈ later.requests, r'.id = r.id ∧ r'.tenantID = r.tenantID ∧
    r'.projectID = r.projectID
  attempts : ∀ a ∈ db.attempts, ∃ a' ∈ later.attempts, a'.id = a.id ∧ a'.requestID = a.requestID ∧
    a'.deploymentID = a.deploymentID
  prices : db.prices.Later later.prices
  entries : db.entries <+: later.entries

instance (db later : Tables H) : Decidable (db.Later later) :=
  decidable_of_iff' _ (later_iff db later)

theorem Later.refl (db : Tables H) : db.Later db :=
  ⟨fun r hr => ⟨r,hr,rfl,rfl,rfl⟩,fun a ha => ⟨a,ha,rfl,rfl,rfl⟩,.refl _,prefix_refl _⟩

theorem Later.trans {db mid later : Tables H} (h : db.Later mid) (h' : mid.Later later) :
    db.Later later := by
  refine ⟨?_,?_,h.prices.trans h'.prices,h.entries.trans h'.entries⟩
  · intro r hr
    obtain ⟨m,hm,hid,htenant,hproj⟩ := h.requests r hr
    obtain ⟨r',hr',hid',htenant',hproj'⟩ := h'.requests m hm
    exact ⟨r',hr',hid'.trans hid,htenant'.trans htenant,hproj'.trans hproj⟩
  · intro a ha
    obtain ⟨m,hm,hid,hreq,hdep⟩ := h.attempts a ha
    obtain ⟨a',ha',hid',hreq',hdep'⟩ := h'.attempts m hm
    exact ⟨a',ha',hid'.trans hid,hreq'.trans hreq,hdep'.trans hdep⟩

/-- The entry has a published price that was in effect, for the deployment of its attempt. -/
def Priced (db : Tables H) (entry : LedgerEntry) : Prop :=
  ∃ v ∈ db.prices.versions, v.id = entry.priceVersionID ∧ v.status = .published ∧
    v.effectiveAt ≤ entry.observedAt ∧ ∀ id ∈ entry.attemptID, ∃ a ∈ db.attempts,
      a.requestID = entry.requestID ∧ a.id = id ∧ a.deploymentID = v.deploymentID

/-- The request of the entry and the rate of its price are in their tables. -/
structure Referenced (db : Tables H) (entry : LedgerEntry) : Prop where
  request : ∃ r ∈ db.requests, r.tenantID = entry.tenantID ∧ r.id = entry.requestID
  rate : ∃ r ∈ db.prices.rates, r.priceVersionID = entry.priceVersionID ∧
    r.rate.tokenType = entry.tokenType

variable {db db' : Tables H} {entry : LedgerEntry}

theorem Priced.later (h : db.Priced entry) (hlater : db.Later db') : db'.Priced entry := by
  obtain ⟨v,hv,hid,hstat,heff,hatt⟩ := h
  refine ⟨v,hlater.prices.versions v hv hstat,hid,hstat,heff,?_⟩
  intro id hattemptID
  obtain ⟨a,ha,hreq,hattemptID',hdep⟩ := hatt id hattemptID
  obtain ⟨a',ha',hid',hreq',hdep'⟩ := hlater.attempts a ha
  exact ⟨a',ha',hreq'.trans hreq,hid'.trans hattemptID',hdep'.trans hdep⟩

theorem Referenced.later (h : db.Referenced entry) (hpriced : db.Priced entry)
    (hlater : db.Later db') : db'.Referenced entry := by
  obtain ⟨⟨r,hr,htenant,hid⟩,rate,hrate,hver,htype⟩ := h
  obtain ⟨r',hr',hid',htenant',-⟩ := hlater.requests r hr
  obtain ⟨v,hv,hvid,hstat,-⟩ := hpriced
  exact ⟨⟨r',hr',htenant'.trans htenant,hid'.trans hid⟩,rate,
    hlater.prices.rates rate hrate ⟨v,hv,hvid.trans hver.symm,hstat⟩,hver,htype⟩

theorem Priced.priceLock (h : db.Priced entry) (hkeyed : db.Keyed) : db.priceLock entry := by
  obtain ⟨v,hv,hid,hstat,heff,hatt⟩ := h
  have hver : db.prices.version? entry.priceVersionID = some v :=
    (find?_eq_some hkeyed.prices.versions).mpr ⟨hv,hid⟩
  unfold Tables.priceLock
  rw [hver]
  simp only [hstat,heff,decide_true,Bool.true_and]
  cases hentry : entry.attemptID with
  | none => rfl
  | some attemptID =>
    obtain ⟨a,ha,hreq,hattemptID,hdep⟩ := hatt attemptID hentry
    dsimp only
    split
    · rfl
    · rename_i found hfound
      have hfacts := find?_some hfound
      simp only [decide_eq_true_eq] at hfacts
      have hsame : found = a := inj_on_of_nodup_map hkeyed.attempts
        (mem_of_find?_eq_some hfound) ha (hfacts.2.trans hattemptID.symm)
      simpa [hsame] using hdep

theorem priced_of_insert (hkeyed : db.Keyed) (hlock : db.priceLock entry)
    (hrefs : db.entryReferences entry) : db.Priced entry := by
  obtain ⟨-,hatt,⟨rate,hrate,hver,-⟩,-⟩ := hrefs
  obtain ⟨v,hv,hid⟩ := hkeyed.prices.references rate hrate
  have hvid := hid.trans hver
  have hfound : db.prices.version? entry.priceVersionID = some v :=
    (find?_eq_some hkeyed.prices.versions).mpr ⟨hv,hvid⟩
  unfold Tables.priceLock at hlock
  rw [hfound] at hlock
  simp only [Bool.and_eq_true,decide_eq_true_eq] at hlock
  refine ⟨v,hv,hvid,hlock.1.1,hlock.1.2,?_⟩
  intro attemptID hattemptID
  obtain ⟨a,ha,hreq,haid⟩ := hatt attemptID hattemptID
  refine ⟨a,ha,hreq,haid,?_⟩
  have hdep := hlock.2
  rw [Option.mem_def.mp hattemptID] at hdep
  dsimp only at hdep
  split at hdep
  · rename_i hnone
    have := find?_eq_none.mp hnone a ha
    simp [hreq,haid] at this
  · rename_i found hfound'
    have hfacts := find?_some hfound'
    simp only [decide_eq_true_eq] at hfacts
    have hsame : found = a := inj_on_of_nodup_map hkeyed.attempts
      (mem_of_find?_eq_some hfound') ha (hfacts.2.trans haid.symm)
    simpa [hsame] using hdep

end Tables
end Ledger
