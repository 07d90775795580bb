import AiGateway.Ledger.Later
import AiGateway.MeteringConsumer.ExactlyOnce

/-! The rows that the consumers write: the table refuses none whose price was selected. -/
namespace MeteringConsumer
open Machine Adapter Metering Execution Ledger MeteringConsumer.System OutboxRow

variable {ι P π H : Type} {stamp : Time → Time} {event : UsageEvent} {consumedAt : Time}
  {priceVersionID : String} {amountMicros : ℤ}

theorem entryOf_estimate (h : event.validate) :
    (entryOf stamp event consumedAt priceVersionID amountMicros).estimateMetadataValid := by
  have horig : (entryOf stamp event consumedAt priceVersionID amountMicros).source ≠
      .adjustment := of_decide_eq_true (original_of_validate h)
  have hfacts : (inserted event 0).factsValid := factsValid_of_validate h
  simp only [factsValid,Bool.and_eq_true,Bool.or_eq_true,decide_eq_true_eq] at hfacts
  have hest : (inserted event 0).estimateMetadataValid := hfacts.2
  have hver : event.schemaVersion = 1 ∨ event.schemaVersion = 2 := hfacts.1.1.1.1.1.1.1.1.1
  unfold LedgerEntry.estimateMetadataValid
  unfold estimateMetadataValid at hest
  rw [if_neg horig]
  -- the table of the ledger asks for what the table of the outbox asks for
  rcases hver with hver | hver
  · rw [if_neg (by simp [inserted,hver])] at hest
    rw [if_pos (by simp [entryOf,hver])]
    exact hest
  · rw [if_neg (by simp [entryOf,hver]),if_pos (by simp [entryOf,hver])]
    by_cases hsrc : event.source = .estimated
    · rw [if_pos ⟨hver,hsrc⟩] at hest
      rw [if_pos (show (entryOf stamp event consumedAt priceVersionID amountMicros).source =
        .estimated from hsrc)]
      exact hest
    · rw [if_neg fun h => hsrc h.2] at hest
      rw [if_neg (show (entryOf stamp event consumedAt priceVersionID amountMicros).source ≠
        .estimated from hsrc)]
      exact hest

/-- The constraints of the ledger hold of the row of a valid event with an amount in range. -/
theorem entryOf_check (h : event.validate)
    (hamt : 0 ≤ amountMicros ∧ amountMicros ≤ maximumExactInteger) :
    (entryOf stamp event consumedAt priceVersionID amountMicros).Check := by
  have horig : (entryOf stamp event consumedAt priceVersionID amountMicros).source ≠
      .adjustment := of_decide_eq_true (original_of_validate h)
  have hest : (entryOf stamp event consumedAt priceVersionID
    amountMicros).estimateMetadataValid =
      true := entryOf_estimate h
  simp only [UsageEvent.validate,Bool.and_eq_true,decide_eq_true_eq] at h
  obtain ⟨⟨⟨⟨⟨⟨-,htype⟩,-⟩,hleast⟩,hmost⟩,hkind⟩,-⟩ := h
  refine ⟨htype,?_,?_,?_,show actorFormat ledgerWriter by decide,?_,hest⟩
  · show event.source.valid
    cases hsrc : event.source <;> simp_all [gatewayUsageKind,UsageSource.valid]
  · rw [LedgerEntry.quantityValid,if_neg horig]
    simp only [Bool.and_eq_true,decide_eq_true_eq]
    exact ⟨hleast,hmost⟩
  · rw [LedgerEntry.amountValid,if_neg horig]
    simp only [Bool.and_eq_true,decide_eq_true_eq]
    exact hamt
  · show decide (event.source ≠ .adjustment)
    exact decide_eq_true horig

variable {seen : Set (Tables H)}

theorem Selected.amount_range (h : Selected stamp seen event priceVersionID amountMicros) :
    0 ≤ amountMicros ∧ amountMicros ≤ maximumExactInteger := by
  obtain ⟨tables,-,rate,-,hamt⟩ := h
  exact (calculateAmountMicros_eq_ok hamt).2

theorem Selected.priced {db : Tables H} (hseen : ∀ t ∈ seen, t.Later db)
    (h : Selected stamp seen event priceVersionID amountMicros) :
    db.Priced (entryOf stamp event consumedAt priceVersionID amountMicros) := by
  obtain ⟨tables,hmem,rate,hrate,-⟩ := h
  obtain ⟨⟨-,a,ha,hreq,hid,hdep⟩,-,price,hprice,heff,hver,-⟩ :=
    selectEffectiveRate_spec stamp tables hrate
  obtain ⟨hfor,-,hstat,htime⟩ := heff
  apply Tables.Priced.later _ (hseen tables hmem)
  refine ⟨price,hprice,hver,hstat,htime,?_⟩
  intro id hatt
  cases hatt
  exact ⟨a,ha,hreq,hid,hdep.trans hfor.symm⟩

/-! The tables change only where a consumer commits a charge. -/

section Tables
variable [DecidableEq ι] {s : System ι P π H} {i : ι}

theorem System.finish_tables (delivery : Delivery P) (event : UsageEvent)
    (outcome : Except ConsumerError Result) :
    (s.finish i delivery event outcome).tables = s.tables := by
  rw [finish_eq]
  rfl

/-- The row and the receipt that a charge adds. -/
structure System.Charged (stamp : Time → Time) (group : String) (s s' : System ι P π H) (i : ι)
    (delivery : Delivery P) (event : UsageEvent) (fingerprint : H) (consumedAt : Time)
    (priceVersionID : String) (amountMicros : ℤ) : Prop where
  phase : (s.sessions i).phase =
    .priced delivery event fingerprint consumedAt priceVersionID amountMicros
  insert : s.tables.insertEntry (entryOf stamp event consumedAt priceVersionID amountMicros) =
    .ok { s.tables with entries := s.tables.entries ++
      [entryOf stamp event consumedAt priceVersionID amountMicros] }
  tables : s'.tables = { s.tables with
    entries := s.tables.entries ++ [entryOf stamp event consumedAt priceVersionID amountMicros]
    receipts := s.tables.receipts ++ [receiptOf stamp group event fingerprint consumedAt] }

theorem System.charge_tables (stamp : Time → Time) (group : String) (s : System ι P π H) (i : ι)
    (reply : Reply) : (s.charge stamp group i reply).tables = s.tables ∨
      ∃ delivery event fingerprint consumedAt priceVersionID amountMicros,
        s.Charged stamp group (s.charge stamp group i reply) i delivery event fingerprint consumedAt
          priceVersionID amountMicros := by
  cases hphase : (s.sessions i).phase with
  | priced delivery event fingerprint consumedAt priceVersionID amountMicros =>
    cases hins : s.tables.insertEntry
        (entryOf stamp event consumedAt priceVersionID amountMicros) with
    | error e =>
      left
      unfold charge
      rw [hphase]
      dsimp only
      rw [hins]
      cases e <;> exact finish_tables _ _ _
    | ok tables =>
      obtain ⟨-,-,-,htables⟩ := s.tables.insertEntry_eq_ok.mp hins
      cases reply with
      | failed =>
        left
        unfold charge
        rw [hphase]
        dsimp only
        rw [hins]
        exact finish_tables _ _ _
      | unanswered | answered =>
        right
        refine ⟨delivery,event,fingerprint,consumedAt,priceVersionID,amountMicros,hphase,
          htables ▸ hins,?_⟩
        unfold charge
        rw [hphase]
        dsimp only
        rw [hins]
        dsimp only
        rw [finish_tables,htables]
  | _ =>
    left
    unfold charge
    rw [hphase]

theorem System.receive_tables (codec : Codec π H) (loop : Option (Loop P)) (delivery : Delivery P)
    (key : String) (payload : π) (now : Time) :
    (s.receive codec i loop delivery key payload now).tables = s.tables := by
  unfold receive
  split
  · rfl
  · split_ifs <;> rfl

variable [DecidableEq P] [DecidableEq H]

theorem System.step_tables (stamp : Time → Time) (codec : Codec π H) (group : String)
    (s : System ι P π H) {action : Action ι P π H}
    (hchange : ∀ tables adjustments, action ≠ .change tables adjustments) :
    (s.step stamp codec group action).tables = s.tables ∨
      ∃ i reply delivery event fingerprint consumedAt priceVersionID amountMicros,
        action = .charge i reply ∧
          s.Charged stamp group (s.step stamp codec group action) i delivery event fingerprint
            consumedAt priceVersionID amountMicros := by
  cases action with
  | change tables adjustments => exact absurd rfl (hchange tables adjustments)
  | charge i reply =>
    rcases s.charge_tables stamp group i reply with hsame | hchg
    · exact .inl hsame
    · obtain ⟨delivery,event,fingerprint,consumedAt,priceVersionID,amountMicros,h⟩ := hchg
      exact .inr ⟨i,reply,delivery,event,fingerprint,consumedAt,priceVersionID,amountMicros,rfl,h⟩
  | produce p record => exact .inl rfl
  | deliver i key payload now =>
    left
    show (s.deliver codec i key payload now).tables = s.tables
    unfold deliver
    split
    · exact receive_tables _ _ _ _ _ _
    · rfl
  | connect i =>
    left
    show (s.connect i).tables = s.tables
    unfold connect
    split <;> rfl
  | assign i p =>
    left
    show (s.assign i p).tables = s.tables
    unfold assign
    split <;> rfl
  | poll i partitions =>
    left
    show (s.poll i partitions).tables = s.tables
    unfold poll
    split <;> rfl
  | next i now =>
    left
    show (s.next codec i now).tables = s.tables
    unfold next
    split
    · split
      · rfl
      · split_ifs
        · rfl
        · exact receive_tables _ _ _ _ _ _
    · rfl
  | receipt i =>
    left
    show (s.receipt stamp group i).tables = s.tables
    unfold receipt
    split
    · split_ifs
      · exact finish_tables _ _ _
      · rfl
      · rfl
      · rfl
    · rfl
  | replay i reply =>
    left
    show (s.replay i reply).tables = s.tables
    unfold replay
    split
    · split
      · exact finish_tables _ _ _
      · split_ifs <;> exact finish_tables _ _ _
    · rfl
  | select i =>
    left
    show (s.select stamp i).tables = s.tables
    unfold select
    split
    · split
      · exact finish_tables _ _ _
      · split
        · exact finish_tables _ _ _
        · rfl
    · rfl
  | commit i reply =>
    left
    show (s.commit i reply).tables = s.tables
    unfold commit
    split
    · cases reply <;> rfl
    · rfl
  | fail i => exact .inl rfl

end Tables
end MeteringConsumer
