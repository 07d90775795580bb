import AiGateway.MeteringOutbox.Relay

/-! What the statements of a relay do to single rows, and that the trigger and the constraints
accept them. -/
namespace MeteringOutbox
open Text Machine Metering List OutboxRow Row Bool

/-- The constraints hold, and a waiting row was not touched after the time it waits for. -/
structure RowSound (row : OutboxRow) : Prop where
  checks : row.checks
  waiting : row.status = .pending → row.updatedAt ≤ row.availableAt

theorem updateRow_isSome {old new : OutboxRow} :
    (updateRow new old).isSome ↔ outboxTransition old new ∧ new.checks := by
  unfold updateRow
  split_ifs with h
  · simpa using h
  · simpa using h

/-- What a step under a lease does to a row: it keeps the facts, leaves a published row alone, and
leaves a changed row without a lease or under that one. -/
structure RowStep (lease : Option String) (row new : OutboxRow) : Prop where
  sound : RowSound row → RowSound new
  event : new.event = row.event
  created : new.createdAt = row.createdAt ∧ new.createdBy = row.createdBy
  final : row.status = .published → new = row
  lease : new = row ∨ new.leaseID = none ∨ new.leaseID = lease

theorem RowStep.refl (lease : Option String) (row : OutboxRow) : RowStep lease row row :=
  ⟨id,rfl,⟨rfl,rfl⟩,fun _ => rfl,.inl rfl⟩

theorem RowStep.trans {lease : Option String} {row mid new : OutboxRow} (h : RowStep lease row mid)
    (h' : RowStep lease mid new) : RowStep lease row new := by
  refine ⟨fun hrow => h'.sound (h.sound hrow),h'.event.trans h.event,
    ⟨h'.created.1.trans h.created.1,h'.created.2.trans h.created.2⟩,?_,?_⟩
  · intro hstat
    have hmid := h.final hstat
    rw [h'.final (hmid ▸ hstat),hmid]
  · rcases h'.lease with hnew | hnew
    · rw [hnew]
      exact h.lease
    · exact .inr hnew

theorem RowStep.update (lease : Option String) {row new : OutboxRow}
    (h : (updateRow new row).isSome) (hlease : new.leaseID = none ∨ new.leaseID = lease) :
    RowStep lease row new := by
  obtain ⟨htrans,hchecks⟩ := updateRow_isSome.mp h
  simp only [outboxTransition,and_eq_true,decide_eq_true_eq] at htrans
  obtain ⟨⟨⟨⟨hevent,hcreated⟩,hcreator⟩,-⟩,hmove⟩ := htrans
  refine ⟨fun _ => ⟨hchecks,?_⟩,hevent,⟨hcreated,hcreator⟩,?_,.inr hlease⟩
  · intro hpend
    rw [hpend] at hmove
    split at hmove <;> simp_all
  · intro hpub
    rw [hpub] at hmove
    simp at hmove

variable {chosen : OutboxRow → Bool} {set : OutboxRow → OutboxRow}

theorem updateWhere_eq_some {rows rows' : List OutboxRow} :
    updateWhere chosen set rows = some rows' ↔
      (∀ row ∈ rows, chosen row → (updateRow (set row) row).isSome) ∧
        rows' = rows.map fun row => if chosen row then set row else row := by
  unfold updateWhere
  split_ifs with h
  · rw [Option.some.injEq,eq_comm]
    exact (and_iff_right h).symm
  · simp [h]

theorem updateWhere_isSome {rows : List OutboxRow}
    (h : ∀ row ∈ rows, chosen row → (updateRow (set row) row).isSome) :
    ∃ rows', updateWhere chosen set rows = some rows' :=
  ⟨_,updateWhere_eq_some.mpr ⟨h,rfl⟩⟩

/-! The four updates are accepted. -/

section Accepted
variable {row : OutboxRow} {now : Time}

section
variable (h : RowSound row)
include h

theorem RowSound.relay : row.factsValid ∧
    row.publishAttempts ≤ maximumPublishAttempts ∧ row.errorCodeValid ∧
    row.timeValid ∧ row.lifecycleValid := by
  have hchecks := h.checks
  simp only [OutboxRow.checks,OutboxRow.relayValid,and_eq_true,decide_eq_true_eq] at hchecks
  exact ⟨hchecks.1,hchecks.2.1.1.1,hchecks.2.1.1.2,hchecks.2.1.2,hchecks.2.2⟩

theorem RowSound.created_le : row.createdAt ≤ row.updatedAt := by
  have htime := h.relay.2.2.2.1
  simp only [timeValid,and_eq_true,decide_eq_true_eq] at htime
  exact htime.1.1.2

theorem RowSound.updated_le (hexp : leaseExpired now row) : row.updatedAt ≤ now := by
  have htime := h.relay.2.2.2.1
  simp only [timeValid,and_eq_true] at htime
  simp only [leaseExpired,and_eq_true] at hexp
  cases hlease : row.leaseExpiresAt with
  | none => simp [hlease] at hexp
  | some t =>
    simp only [hlease,Option.map_some,Option.getD_some,decide_eq_true_eq] at htime hexp
    exact (htime.1.2.trans_le hexp.2).le

theorem RowSound.publishedAt_none (hstat : row.status ≠ .published) : row.publishedAt = none := by
  have hlife := h.relay.2.2.2.2
  cases hrow : row.status <;> simp_all [lifecycleValid]

end

variable {availableAt : Time}

section
variable (h : RowSound row)
include h

theorem returned_accepted {code : String} (hstat : row.status = .publishing)
    (hupd : row.updatedAt ≤ now) (havail : now ≤ availableAt)
    (hcap : row.publishAttempts < maximumPublishAttempts)
    (hcode : isWord isUpper (fun c => isUpper c || isDigit c || c == '_') 2 127 code) :
    (updateRow (returned row now availableAt code) row).isSome := by
  have hcreated := h.created_le.trans hupd
  have hfacts : (returned row now availableAt code).factsValid := h.relay.1
  have hpub : row.publishedAt = none := h.publishedAt_none (by simp [hstat])
  have hatts : row.publishAttempts + 1 ≤ maximumPublishAttempts := hcap
  rw [updateRow_isSome]
  constructor
  · simp [outboxTransition,returned,hstat,hupd,havail,hpub]
  · rw [checks,hfacts]
    simp [relayValid,errorCodeValid,timeValid,lifecycleValid,returned,hcode,hcreated,
      hpub,hatts,hcreated.trans havail]

theorem reclaimed_accepted (hexp : leaseExpired now row)
    (hcap : row.publishAttempts < maximumPublishAttempts) :
    (updateRow (reclaimed row now) row).isSome := by
  have hstat : row.status = .publishing := by
    simp only [leaseExpired,and_eq_true,decide_eq_true_eq] at hexp
    exact hexp.1
  exact returned_accepted h hstat (h.updated_le hexp) le_rfl hcap (by decide)

theorem claimed_accepted {leaseID : String} {expiresAt : Time}
    (havail : available now row) (hlease : now < expiresAt) :
    (updateRow (claimed row leaseID now expiresAt) row).isSome := by
  simp only [available,and_eq_true,decide_eq_true_eq] at havail
  obtain ⟨hstat,havail⟩ := havail
  have hupd := (h.waiting hstat).trans havail
  have hcreated := h.created_le.trans hupd
  have hwaited : row.createdAt ≤ row.availableAt := h.created_le.trans (h.waiting hstat)
  have hpub : row.publishedAt = none := h.publishedAt_none (by simp [hstat])
  obtain ⟨hfacts,hatts,hcode,-,-⟩ := h.relay
  have hfacts' : (claimed row leaseID now expiresAt).factsValid := hfacts
  have hcode' : (claimed row leaseID now expiresAt).errorCodeValid := hcode
  rw [updateRow_isSome]
  constructor
  · simp [outboxTransition,claimed,hstat,hupd,hpub]
  · simp only [checks,hfacts',relayValid,hcode']
    simp [claimed,timeValid,lifecycleValid,hatts,hcreated,hwaited,hlease,hpub]

theorem published_accepted (hstat : row.status = .publishing) (hupd : row.updatedAt ≤ now) :
    (updateRow (published row now) row).isSome := by
  have hcreated := h.created_le.trans hupd
  obtain ⟨hfacts,hatts,-,htime,-⟩ := h.relay
  have hfacts' : (published row now).factsValid := hfacts
  simp only [timeValid,and_eq_true,decide_eq_true_eq] at htime
  rw [updateRow_isSome]
  constructor
  · simp [outboxTransition,published,hstat,hupd]
  · rw [checks,hfacts']
    simp [relayValid,errorCodeValid,timeValid,lifecycleValid,published,hatts,hcreated,htime.1.1.1]

end
end Accepted

/-! The statements over the whole table. -/

section Table
variable {options : Options} {now expiresAt : Time}
  {leaseID : String} {locked locked' : List String}
  {rows rows' : List OutboxRow} {events : List ClaimedEvent}

theorem expired_sub {row : OutboxRow} (h : row ∈ expired options now locked rows) :
    row ∈ rows ∧ leaseExpired now row := by
  have hmem := mem_of_mem_take h
  rw [mem_insertionSort,mem_filter,and_eq_true] at hmem
  exact ⟨hmem.1,hmem.2.1⟩

theorem candidates_sub {row : OutboxRow} (h : row ∈ candidates options now locked rows) :
    row ∈ rows ∧ available now row := by
  have hmem := mem_of_mem_take h
  rw [mem_insertionSort,mem_filter,and_eq_true] at hmem
  exact ⟨hmem.1,hmem.2.1⟩

theorem mem_of_among (hkeys : (rows.map (·.event.eventID)).Nodup) {selected : List OutboxRow}
    (hsub : ∀ x ∈ selected, x ∈ rows) {row : OutboxRow} (hrow : row ∈ rows)
    (h : among selected row) : row ∈ selected := by
  rw [among,contains_iff_mem] at h
  obtain ⟨x,hx,hid⟩ := mem_map.mp h
  rwa [inj_on_of_nodup_map hkeys (hsub x hx) hrow hid] at hx

theorem map_eventID {g : OutboxRow → OutboxRow} (hg : ∀ row ∈ rows, (g row).event = row.event) :
    (rows.map g).map (·.event.eventID) = rows.map (·.event.eventID) := by
  rw [map_map]
  apply map_congr_left
  intro row hrow
  rw [Function.comp_apply,hg row hrow]

theorem reclaim_effect (lease : Option String) (h : reclaim options now locked rows = some rows') :
    ∃ g : OutboxRow → OutboxRow, rows' = rows.map g ∧ ∀ row ∈ rows, RowStep lease row (g row) ∧
      (g row = row ∨ (g row).leaseID = none ∧ (g row).status = .pending) := by
  obtain ⟨hacc,rfl⟩ := updateWhere_eq_some.mp h
  refine ⟨_,rfl,?_⟩
  intro row hrow
  split_ifs with hchosen
  · exact ⟨RowStep.update lease (hacc row hrow hchosen) (.inl rfl),.inr ⟨rfl,rfl⟩⟩
  · exact ⟨RowStep.refl _ row,.inl rfl⟩

theorem claim_effect
    (h : claim options leaseID now expiresAt locked locked' rows = some (rows',events)) :
    (∃ g : OutboxRow → OutboxRow, rows' = rows.map g ∧
      ∀ row ∈ rows, RowStep (some leaseID) row (g row) ∧
        (g row = row ∨ ((g row).leaseID = none ∧ (g row).status = .pending) ∨
          (g row).leaseID = some leaseID ∧ (g row).status = .publishing ∧
            (g row).updatedAt = now)) ∧
    ∀ e ∈ events, ∃ row ∈ rows, e.event = (scan row).event := by
  simp only [claim,claimAvailable,Option.bind_eq_bind,Option.bind_eq_some_iff] at h
  obtain ⟨middle,hreclaim,updated,hclaim,hres⟩ := h
  cases hres
  obtain ⟨g,rfl,hg⟩ := reclaim_effect (some leaseID) hreclaim
  obtain ⟨hacc,rfl⟩ := updateWhere_eq_some.mp hclaim
  constructor
  · refine ⟨_,map_map,?_⟩
    intro row hrow
    simp only [Function.comp_apply]
    split_ifs with hchosen
    · have hstep := RowStep.update (some leaseID)
        (hacc (g row) (mem_map_of_mem hrow) hchosen) (.inr rfl)
      exact ⟨(hg row hrow).1.trans hstep,.inr (.inr ⟨rfl,rfl,rfl⟩)⟩
    · exact ⟨(hg row hrow).1,(hg row hrow).2.imp_right .inl⟩
  · intro e he
    obtain ⟨x,hx,rfl⟩ := mem_map.mp he
    obtain ⟨row,hrow,rfl⟩ := mem_map.mp (candidates_sub hx).1
    refine ⟨row,hrow,?_⟩
    rw [scan,scan,(hg row hrow).1.event]

variable (options now locked) in
theorem reclaim_accepted (hrows : ∀ row ∈ rows, RowSound row)
    (hkeys : (rows.map (·.event.eventID)).Nodup)
    (hcap : ∀ row ∈ rows, row.publishAttempts < maximumPublishAttempts) :
    ∃ rows', reclaim options now locked rows = some rows' := by
  apply updateWhere_isSome
  intro row hrow hchosen
  have hsel := mem_of_among hkeys (fun x hx => (expired_sub hx).1) hrow hchosen
  exact reclaimed_accepted (hrows row hrow) (expired_sub hsel).2 (hcap row hrow)

variable (options leaseID locked locked') in
theorem claim_accepted (hrows : ∀ row ∈ rows, RowSound row)
    (hkeys : (rows.map (·.event.eventID)).Nodup)
    (hcap : ∀ row ∈ rows, row.publishAttempts < maximumPublishAttempts) (hlease : now < expiresAt) :
    ∃ result, claim options leaseID now expiresAt locked locked' rows = some result := by
  obtain ⟨middle,hreclaim⟩ := reclaim_accepted options now locked hrows hkeys hcap
  obtain ⟨g,rfl,hg⟩ := reclaim_effect none hreclaim
  have hkeys' : ((rows.map g).map (·.event.eventID)).Nodup := by
    rw [map_eventID fun row hrow => (hg row hrow).1.event]
    exact hkeys
  have hclaim : ∃ updated, updateWhere (among (candidates options now locked' (rows.map g)))
      (claimed · leaseID now expiresAt) (rows.map g) = some updated := by
    apply updateWhere_isSome
    intro row hrow hchosen
    have hsel := mem_of_among hkeys' (fun x hx => (candidates_sub hx).1) hrow hchosen
    obtain ⟨old,hold,rfl⟩ := mem_map.mp hrow
    exact claimed_accepted ((hg old hold).1.sound (hrows old hold)) (candidates_sub hsel).2
      hlease
  obtain ⟨updated,hclaim⟩ := hclaim
  refine ⟨(updated,(candidates options now locked' (rows.map g)).map scan),?_⟩
  simp only [claim,hreclaim,claimAvailable,hclaim,Option.bind_eq_bind,Option.bind_some]
  rfl

end Table
end MeteringOutbox
