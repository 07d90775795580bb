import AiGateway.Limits.Concurrency.Leases

/-! The loops of the scripts over the four sets, each as one change of all of them. -/
namespace Limits.Concurrency
open Redis Server List

variable {s : Server} {keys : List String} {member : String} {expiry nowMS : ℕ} {key' : String}
  {limit index : ℕ}

theorem purge_eq (nowMS : ℕ) (keys : List String) (s : Server) :
    purge nowMS keys s = s.eachZset keys (fun z => z.removeUpTo nowMS) id := rfl

theorem removeMember_eq (member : String) (keys : List String) (s : Server) :
    removeMember member keys s = s.eachZset keys (fun z => z.remove member) id := rfl

@[simp] theorem purge_clock : (purge nowMS keys s).clock = s.clock := by
  rw [purge_eq,eachZset_clock]

@[simp] theorem purge_hashes : (purge nowMS keys s).hashes = s.hashes := by
  rw [purge_eq,eachZset_hashes]

theorem purge_cons (key : String) :
    purge nowMS (key :: keys) s = purge nowMS keys (s.zremrangebyscore key nowMS) := rfl

theorem zset_purge (hnodup : keys.Nodup) {key : String} (h : key ∈ keys) :
    (purge nowMS keys s).zset key = (s.zset key).removeUpTo nowMS := by
  rw [purge_eq,zset_eachZset s hnodup,if_pos h]

@[simp] theorem zset_zremrangebyscore (key : String) :
    (s.zremrangebyscore key nowMS).zset key = (s.zset key).removeUpTo nowMS :=
  zset_storeZset

theorem zset_zremrangebyscore_of_ne {key : String} (h : key' ≠ key) :
    (s.zremrangebyscore key nowMS).zset key' = s.zset key' :=
  zset_storeZset_of_ne h

theorem ne_of_nodup_cons {key : String} (hnodup : (key :: keys).Nodup) (h : key' ∈ keys) :
    key' ≠ key := fun heq => (nodup_cons.mp hnodup).1 (heq ▸ h)

theorem checkMembers_eq (hnodup : keys.Nodup) (hlt : nowMS < expiry)
    (h : ∀ key ∈ keys, (s.zset key).score member = some expiry) (index : ℕ) :
    checkMembers member expiry nowMS index keys s =
      (purge nowMS keys s,.ok (keys.map fun key => ((s.zset key).removeUpTo nowMS).card)) := by
  induction keys generalizing s index with
  | nil => rfl
  | cons key keys ih =>
    have hscore : ((s.zset key).removeUpTo nowMS).score member = some expiry := by
      simp [h key mem_cons_self,Option.filter,hlt]
    have hother (key' : String) (hmem : key' ∈ keys) :
        (s.zremrangebyscore key nowMS).zset key' = s.zset key' :=
      zset_zremrangebyscore_of_ne (ne_of_nodup_cons hnodup hmem)
    have hrest := ih (s := s.zremrangebyscore key nowMS) (nodup_cons.mp hnodup).2
      (fun key' hmem => by rw [hother key' hmem]; exact h key' (mem_cons_of_mem key hmem))
      (index + 1)
    have hcounts : (keys.map fun key' =>
        (((s.zremrangebyscore key nowMS).zset key').removeUpTo nowMS).card) =
        keys.map fun key' => ((s.zset key').removeUpTo nowMS).card :=
      map_congr_left fun key' hmem => by rw [hother key' hmem]
    rw [hcounts] at hrest
    simp only [checkMembers,zset_zremrangebyscore,hscore,ne_eq,not_true_eq_false,if_false,
      hrest,purge_cons]
    rfl

theorem countWithout_eq (h : ∀ key ∈ keys, (s.zset key).score member = none) (index : ℕ) :
    countWithout member index keys s = .ok (keys.map fun key => (s.zset key).card) := by
  induction keys generalizing index with
  | nil => rfl
  | cons key keys ih =>
    have hrest := ih (fun key' hmem => h key' (mem_cons_of_mem key hmem)) (index + 1)
    simp only [countWithout,h key mem_cons_self,Option.isSome_none,Bool.false_eq_true,
      if_false,hrest]
    rfl

theorem firstMismatch_eq_none (h : ∀ key ∈ keys, (s.zset key).score member = some expiry)
    (index : ℕ) : firstMismatch member expiry index keys s = none := by
  induction keys generalizing index with
  | nil => rfl
  | cons key keys ih =>
    have hrest := ih (fun key' hmem => h key' (mem_cons_of_mem key hmem)) (index + 1)
    simp only [firstMismatch,h key mem_cons_self,ne_eq,not_true_eq_false,if_false,hrest]

theorem removeCounting_eq (hnodup : keys.Nodup) : removeCounting member keys s =
      (removeMember member keys s,keys.map fun key => ((s.zset key).remove member).card) := by
  induction keys generalizing s with
  | nil => rfl
  | cons key keys ih =>
    have hzset : (s.zrem key member).zset key = (s.zset key).remove member := zset_storeZset
    have hcounts : (keys.map fun key' => (((s.zrem key member).zset key').remove member).card) =
        keys.map fun key' => ((s.zset key').remove member).card :=
      map_congr_left fun key' hmem => by
        rw [show (s.zrem key member).zset key' = s.zset key' from
          zset_storeZset_of_ne (ne_of_nodup_cons hnodup hmem)]
    simp only [removeCounting,ih (nodup_cons.mp hnodup).2,hcounts,hzset,map_cons]
    rfl

/-! Adding and moving the member. -/

theorem addMember_eq (hlimit : s.clock < limit) : addMember member expiry limit keys s =
      s.eachZset keys (fun z => z.add member expiry) fun _ => some limit := by
  induction keys generalizing s with
  | nil => rfl
  | cons key keys ih =>
    have hcard : 0 < ((s.zset key).add member expiry).card := by simp [ZSet.card,ZSet.add]
    have hstep : (s.zadd key expiry member).pexpireatZset key limit =
        s.storeZset key ⟨(s.zset key).add member expiry,some limit⟩ :=
      pexpireatZset_storeZset hlimit hcard
    rw [eachZset_cons,← ih (by simpa using hlimit),addMember,foldl_cons,hstep]
    rfl

theorem moveMember_eq {old : ℕ} (hnodup : keys.Nodup) (hlimit : s.clock < limit)
    (h : ∀ key ∈ keys, (s.zset key).score member = some old) :
    moveMember member expiry limit keys s =
      s.eachZset keys (fun z => z.add member expiry) fun _ => some limit := by
  induction keys generalizing s with
  | nil => rfl
  | cons key keys ih =>
    have hcard : 0 < ((s.zset key).add member expiry).card := by simp [ZSet.card,ZSet.add]
    have hstep : (s.zaddExisting key expiry member).pexpireatZset key limit =
        s.storeZset key ⟨(s.zset key).add member expiry,some limit⟩ := by
      rw [zaddExisting,onZset,ZSet.addExisting_eq (h key mem_cons_self)]
      exact pexpireatZset_storeZset hlimit hcard
    have hrest : ∀ key' ∈ keys, ((s.storeZset key ⟨(s.zset key).add member expiry,
        some limit⟩).zset key').score member = some old := by
      intro key' hmem
      rw [zset_storeZset_of_ne (ne_of_nodup_cons hnodup hmem)]
      exact h key' (mem_cons_of_mem key hmem)
    rw [eachZset_cons,← ih (nodup_cons.mp hnodup).2 (by simpa using hlimit) hrest,
      moveMember,foldl_cons,hstep]
    rfl

/-! Examining the sets before an admission. -/

/-- What is noted about a set. -/
def occupancy (nowMS : ℕ) (s : Server) (entry : String × ℕ) : Occupancy :=
  let z := (s.zset entry.1).removeUpTo nowMS
  ⟨z.card,entry.2,if z.card ≥ entry.2 then z.first.map Prod.snd else none⟩

theorem first_removeUpTo {z : ZSet} (h : 0 < (z.removeUpTo nowMS).card) :
    ∃ x, (z.removeUpTo nowMS).first = some x ∧ nowMS < x.2 := by
  obtain ⟨x,hx,hscore⟩ := ZSet.first_of_card_pos h
  simp only [ZSet.score_removeUpTo,Option.filter_eq_some_iff,decide_eq_true_eq] at hscore
  exact ⟨x,hx,hscore.2⟩

theorem fullUntil_eq (z : ZSet) {hard : ℕ} (hpos : 1 ≤ hard) :
    fullUntil (z.removeUpTo nowMS) hard nowMS = some (if (z.removeUpTo nowMS).card ≥ hard then
        (z.removeUpTo nowMS).first.map Prod.snd else none) := by
  unfold fullUntil
  split
  · rename_i hfull
    obtain ⟨x,hx,hlt⟩ := first_removeUpTo (show 0 < (z.removeUpTo nowMS).card by omega)
    simp [hx,Nat.not_le.mpr hlt]
  · rfl

theorem examine_eq {entries : List (String × ℕ)} (hnodup : (entries.map Prod.fst).Nodup)
    (hhard : ∀ entry ∈ entries, 1 ≤ entry.2 ∧ entry.2 ≤ maximumValue)
    (h : ∀ entry ∈ entries, ((s.zset entry.1).removeUpTo nowMS).score member = none) (index : ℕ) :
    examine member nowMS index entries s =
      (purge nowMS (entries.map Prod.fst) s,.ok (entries.map (occupancy nowMS s))) := by
  induction entries generalizing s index with
  | nil => rfl
  | cons entry entries ih =>
    obtain ⟨key,hard⟩ := entry
    have hbounds := hhard _ mem_cons_self
    have hrange : ¬(hard < 1 ∨ hard > maximumValue) := by
      simp only at hbounds
      omega
    have hscore : ((s.zset key).removeUpTo nowMS).score member = none :=
      h (key,hard) mem_cons_self
    have hother (entry : String × ℕ) (hmem : entry ∈ entries) :
        (s.zremrangebyscore key nowMS).zset entry.1 = s.zset entry.1 :=
      zset_zremrangebyscore_of_ne (ne_of_nodup_cons hnodup (mem_map_of_mem hmem))
    have hrest := ih (s := s.zremrangebyscore key nowMS) (nodup_cons.mp hnodup).2
      (fun entry hmem => hhard entry (mem_cons_of_mem _ hmem))
      (fun entry hmem => by rw [hother entry hmem]; exact h entry (mem_cons_of_mem _ hmem))
      (index + 1)
    have hnoted : entries.map (occupancy nowMS (s.zremrangebyscore key nowMS)) =
        entries.map (occupancy nowMS s) :=
      map_congr_left fun entry hmem => by rw [occupancy,occupancy,hother entry hmem]
    rw [hnoted] at hrest
    simp only [examine,hrange,if_false,zset_zremrangebyscore,hscore,Option.isSome_none,
      Bool.false_eq_true,fullUntil_eq (s.zset key) hbounds.1,hrest,map_cons,purge_cons]
    rfl

variable {occupancies : List Occupancy}

theorem firstFull_eq_none :
    firstFull index occupancies = none ↔ ∀ o ∈ occupancies, o.count < o.hard := by
  induction occupancies generalizing index with
  | nil => simp [firstFull]
  | cons o occupancies ih =>
    simp only [firstFull,forall_mem_cons]
    split
    · rename_i hfull
      constructor
      · rintro ⟨⟩
      · intro hlt
        omega
    · rename_i hlt
      rw [ih,and_iff_right (by omega)]

theorem firstFull_eq_some {i : ℕ} {full : Occupancy}
    (h : firstFull index occupancies = some (i,full)) :
    ∃ k, i = index + k ∧ occupancies[k]? = some full ∧ full.hard ≤ full.count := by
  induction occupancies generalizing index with
  | nil => cases h
  | cons o occupancies ih =>
    simp only [firstFull] at h
    split at h
    · rename_i hfull
      cases h
      exact ⟨0,rfl,rfl,hfull⟩
    · obtain ⟨k,hk,hget,hfull⟩ := ih h
      exact ⟨k + 1,by omega,hget,hfull⟩

end Limits.Concurrency
