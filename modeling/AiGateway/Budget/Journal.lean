import AiGateway.Budget.Conservation
import AiGateway.Relational.Chain
import Mathlib.Algebra.Group.Prod

/-! The ledger is a journal of the account: it only grows, and replaying its entries gives the
balances after each of them. -/
namespace Budget
open Interleaving Relational List

def LedgerEntryOf.delta (e : LedgerRow) : ℤ × ℤ := (e.committedDeltaMicros,e.reservedDeltaMicros)
def LedgerEntryOf.result (e : LedgerRow) : ℤ × ℤ := (e.resultCommittedMicros,e.resultReservedMicros)
def AccountOf.balances (a : AccountRow) : ℤ × ℤ := (a.committedMicros,a.reservedMicros)

structure Journal (s : Database) : Prop where
  telescopes : Telescopes LedgerEntryOf.delta LedgerEntryOf.result 0 s.ledger
  final : final LedgerEntryOf.result 0 s.ledger = s.account.balances

variable {s t : Database} {c : Commit}

theorem Journal.commit (hs : Journal s) (hc : c.Valid) {tenantID accountID id key actor : String}
    {kind : EntryKind} {committed reserved : ℤ}
    (hentry : c.entry.row = { ledgerRow tenantID accountID id kind key committed reserved c.account
      actor with id := c.entry.id })
    (haccount : c.account.row.balances = s.account.balances + (committed,reserved))
    (ht : t.ledger = s.ledger ++ [c.entry.row]) (hbalances : t.account = c.account.row) :
    Journal t := by
  have hres : c.entry.row.result = c.account.row.balances := by
    rw [hentry,LedgerEntryOf.result,ledgerRow,signedStoredAmount_eq hc.account.committed,
      signedStoredAmount_eq hc.account.reserved]
    rfl
  constructor
  · rw [ht,telescopes_append,hs.final]
    refine ⟨hs.telescopes,?_,trivial⟩
    rw [hres,haccount,add_sub_cancel_left,hentry]
    rfl
  · rw [ht,Relational.final,getLast?_concat,hbalances]
    exact hres

theorem Acts.journal {call : Call} (h : Acts call s t) (hs : Journal s) : Journal t := by
  cases h with
  | idle _ _ locks => exact ⟨hs.telescopes,hs.final⟩
  | opens options input _ c h =>
    refine hs.commit h.valid h.entry ?_ rfl rfl
    rw [h.account]
    simp [AccountOf.balances]
  | settles options input _ old c actual ha hid h =>
    refine hs.commit h.valid h.entry ?_ rfl rfl
    rw [h.account]
    simp [AccountOf.balances,sub_eq_add_neg]
  | expires options actor _ old c h =>
    refine hs.commit h.valid h.entry ?_ rfl rfl
    rw [h.account]
    simp [AccountOf.balances,sub_eq_add_neg]

variable {allowed : Call → Oracle → Prop} {p : Pool Database Oracle Call Reply}

theorem reachable_journal (hp : (systemOf allowed).Reachable p) : Journal p.shared := by
  have hinit : ∀ s, Initial s → Journal s := by
    intro s hs
    refine ⟨by rw [hs.ledger]; trivial,?_⟩
    rw [hs.ledger,AccountOf.balances,hs.committed,hs.reserved]
    rfl
  have hsound := (systemOf_sound allowed).and hinit
    (fun s t _ hs henv => by cases henv <;> exact ⟨hs.telescopes,hs.final⟩)
    (fun call e s t _ hs _ hacts => hacts.journal hs)
  exact (hsound.holds hp).inv.2

/-- In every reachable state the balances are the sum of the ledger, each entry carries the sum up
to it, and no later state rewrites an entry. -/
theorem reachable_replays (hp : (systemOf allowed).Reachable p) :
    p.shared.account.balances = (p.shared.ledger.map (·.delta)).sum ∧
    (∀ rows e rest, p.shared.ledger = rows ++ e :: rest →
      e.result = ((rows ++ [e]).map (·.delta)).sum) ∧
    ∀ q, (systemOf allowed).Reaches p q → p.shared.ledger <+: q.shared.ledger := by
  have hj := reachable_journal hp
  refine ⟨?_,fun rows e rest hledger => ?_,fun q hq => ((systemOf_sound _).reaches hp hq).ledger⟩
  · rw [← hj.final,← hj.telescopes.sum,zero_add]
  · have htele := hj.telescopes
    rw [hledger,append_cons,telescopes_append] at htele
    rw [← zero_add (sum _),htele.1.sum,Relational.final,getLast?_concat]
    rfl

theorem sampleSettled_replays :
    sampleSettled.shared.account.balances = ([(0,40),(45,-40)] : List (ℤ × ℤ)).sum :=
  (reachable_replays (sampleRun_reachable _)).1.trans (congrArg sum (by decide +kernel))

end Budget
