import AiGateway.Machine.Arithmetic
import AiGateway.Redis.SortedSet
import AiGateway.Text.Decimal

/-! The part of a Redis server that scripts see: the clock, hashes and sorted sets with their
expiry times, and the commands on them. A key holds one kind of value, so the two kinds are kept
in separate maps and users keep their keys apart. -/
namespace Redis
open Text Machine Function List Option

/-- Replies as a client decodes them. -/
inductive Value where
  | nil
  | int (n : ℤ)
  | bulk (text : String)
  | array (values : List Value)

/-- The reply of a script that returns a table of numbers. -/
def Value.ints (ns : List ℤ) : Value := .array (ns.map .int)

/-- The fields of a hash. -/
abbrev Hash := String → Option String

/-- A value and the millisecond at which it expires, if it does. -/
structure Entry (β : Type) where
  value : β
  expireAt : Option ℕ

open Entry

/-- The clock counts microseconds. -/
structure Server where
  now : ℕ
  hashes : String → Option (Entry Hash)
  zsets : String → Option (Entry ZSet)

def Entry.live {β : Type} (clock : ℕ) (e : Entry β) : Bool :=
  match e.expireAt with
  | some limit => clock < limit
  | none => true

namespace Server

def start (now : ℕ) : Server := ⟨now,fun _ => none,fun _ => none⟩

/-- The clock in milliseconds. -/
def clock (s : Server) : ℕ := s.now / 1000

/-- `TIME`: seconds, and microseconds of the second. -/
def time (s : Server) : ℕ × ℕ := (s.now / 1000000,s.now % 1000000)

/-- Time passes, and what has expired is dropped. -/
def tick (s : Server) (now : ℕ) : Server where
  now := now
  hashes k := (s.hashes k).filter (live (now / 1000))
  zsets k := (s.zsets k).filter (live (now / 1000))

theorem time_clock (s : Server) : s.time.1 * 1000 + s.time.2 / 1000 = s.clock := by
  simp only [time,clock]
  omega

/-! Hashes. -/

def hash (s : Server) (key : String) : Hash := fun field =>
  (s.hashes key).bind fun e => e.value field

def hashExpiry (s : Server) (key : String) : Option ℕ := (s.hashes key).bind expireAt

def storeHash (s : Server) (key : String) (e : Entry Hash) : Server :=
  { s with hashes := update s.hashes key (some e) }

/-- `HSET` keeps the key's expiry time. -/
def hset (s : Server) (key field text : String) : Server :=
  s.storeHash key ⟨update (s.hash key) field (some text),s.hashExpiry key⟩

/-- `HINCRBY` fails on a field that is not a 64-bit integer and on a result that is none. -/
def hincrby (s : Server) (key field : String) (delta : ℤ) : Option (ℤ × Server) := do
  let current ← match s.hash key field with
    | none => some 0
    | some text => (integer text).bind int64
  let total ← int64 (current + delta)
  pure (total,s.hset key field total.repr)

/-- One `HINCRBY` after the other; what was written before a failure stays. -/
def hincrbyAll (s : Server) (key : String) : List String → ℤ → Server × Option (List ℤ)
  | [], _ => (s,some [])
  | field :: fields, delta => match s.hincrby key field delta with
      | none => (s,none)
      | some (total,s) =>
          let (s,totals) := s.hincrbyAll key fields delta
          (s,totals.map (total :: ·))

/-- `PEXPIREAT` on a hash: a time that has passed deletes it. -/
def pexpireatHash (s : Server) (key : String) (limit : ℕ) : Server :=
  match s.hashes key with
  | none => s
  | some e =>
      if limit ≤ s.clock then { s with hashes := update s.hashes key none }
      else s.storeHash key { e with expireAt := some limit }

/-! Sorted sets. -/

def zset (s : Server) (key : String) : ZSet := ((s.zsets key).map value).getD .empty

def zsetExpiry (s : Server) (key : String) : Option ℕ := (s.zsets key).bind expireAt

/-- A sorted set without members is no key. -/
def storeZset (s : Server) (key : String) (e : Entry ZSet) : Server :=
  { s with zsets := update s.zsets key (if e.value.card = 0 then none else some e) }

/-- A command that changes the members of a sorted set keeps the key's expiry time. -/
def onZset (s : Server) (key : String) (f : ZSet → ZSet) : Server :=
  s.storeZset key ⟨f (s.zset key),s.zsetExpiry key⟩

def zrem (s : Server) (key m : String) : Server := s.onZset key fun z => z.remove m

/-- The range from `-inf`. -/
def zremrangebyscore (s : Server) (key : String) (max : ℕ) : Server :=
  s.onZset key fun z => z.removeUpTo max

def zadd (s : Server) (key : String) (score : ℕ) (m : String) : Server :=
  s.onZset key fun z => z.add m score

/-- The variant `XX`. -/
def zaddExisting (s : Server) (key : String) (score : ℕ) (m : String) : Server :=
  s.onZset key fun z => z.addExisting m score

/-- `PEXPIREAT` on a sorted set. -/
def pexpireatZset (s : Server) (key : String) (limit : ℕ) : Server :=
  match s.zsets key with
  | none => s
  | some e =>
      if limit ≤ s.clock then { s with zsets := update s.zsets key none }
      else s.storeZset key { e with expireAt := some limit }

/-- Change the members and the expiry time of several sorted sets, one after the other. -/
def eachZset (s : Server) (keys : List String) (f : ZSet → ZSet) (limit : Option ℕ → Option ℕ) :
    Server :=
  keys.foldl (fun s key => s.storeZset key ⟨f (s.zset key),limit (s.zsetExpiry key)⟩) s

variable {key' : String}

section
variable {s : Server} {key : String} {e : Entry ZSet}

@[simp] theorem storeZset_now : (s.storeZset key e).now = s.now := rfl

@[simp] theorem storeZset_clock : (s.storeZset key e).clock = s.clock := rfl

@[simp] theorem storeZset_hashes : (s.storeZset key e).hashes = s.hashes := rfl

theorem storeZset_of_ne (h : key' ≠ key) : (s.storeZset key e).zsets key' = s.zsets key' := by
  simp [storeZset,h]

@[simp] theorem zset_storeZset : (s.storeZset key e).zset key = e.value := by
  simp only [zset,storeZset,update_self]
  split
  · rename_i h
    exact (ZSet.eq_empty h).symm
  · rfl

theorem zset_storeZset_of_ne (h : key' ≠ key) : (s.storeZset key e).zset key' = s.zset key' := by
  rw [zset,storeZset_of_ne h,zset]

theorem zsetExpiry_storeZset (h : 0 < e.value.card) :
    (s.storeZset key e).zsetExpiry key = e.expireAt := by
  simp [zsetExpiry,storeZset,h.ne']

theorem zsetExpiry_storeZset_of_ne (h : key' ≠ key) :
    (s.storeZset key e).zsetExpiry key' = s.zsetExpiry key' := by
  rw [zsetExpiry,storeZset_of_ne h,zsetExpiry]

theorem storeZset_storeZset (e' : Entry ZSet) :
    (s.storeZset key e).storeZset key e' = s.storeZset key e' := by
  simp [storeZset]

theorem pexpireatZset_storeZset {limit : ℕ} (h : s.clock < limit) (hcard : 0 < e.value.card) :
    (s.storeZset key e).pexpireatZset key limit =
      s.storeZset key { e with expireAt := some limit } := by
  have hzset : (s.storeZset key e).zsets key = some e := by simp [storeZset,hcard.ne']
  rw [pexpireatZset,hzset]
  simp [Nat.not_le.mpr h,storeZset_storeZset]

end

section
variable {keys : List String} {f : ZSet → ZSet} {limit : Option ℕ → Option ℕ}

section
variable (s : Server)
include s

@[simp] theorem eachZset_nil : s.eachZset [] f limit = s := rfl

theorem eachZset_cons (key : String) : s.eachZset (key :: keys) f limit =
      (s.storeZset key ⟨f (s.zset key),limit (s.zsetExpiry key)⟩).eachZset keys f limit := rfl

@[simp] theorem eachZset_now : (s.eachZset keys f limit).now = s.now := by
  induction keys generalizing s with
  | nil => rfl
  | cons key keys ih => rw [eachZset_cons,ih,storeZset_now]

@[simp] theorem eachZset_clock : (s.eachZset keys f limit).clock = s.clock := by
  rw [clock,eachZset_now,clock]

@[simp] theorem eachZset_hashes : (s.eachZset keys f limit).hashes = s.hashes := by
  induction keys generalizing s with
  | nil => rfl
  | cons key keys ih => rw [eachZset_cons,ih,storeZset_hashes]

theorem eachZset_of_notMem {key : String} (h : key ∉ keys) :
    (s.eachZset keys f limit).zsets key = s.zsets key := by
  induction keys generalizing s with
  | nil => rfl
  | cons key' keys ih =>
    simp only [mem_cons,not_or] at h
    obtain ⟨hne,hrest⟩ := h
    rw [eachZset_cons,ih _ hrest,storeZset_of_ne hne]

theorem eachZset_of_mem {key : String} (hnodup : keys.Nodup) (h : key ∈ keys) :
    (s.eachZset keys f limit).zsets key =
      (s.storeZset key ⟨f (s.zset key),limit (s.zsetExpiry key)⟩).zsets key := by
  induction keys generalizing s with
  | nil => simp at h
  | cons key' keys ih =>
    obtain ⟨hnotMem,hnodup⟩ := nodup_cons.mp hnodup
    rw [eachZset_cons]
    rcases mem_cons.mp h with rfl | hmem
    · rw [eachZset_of_notMem _ hnotMem]
    · have hne : key ≠ key' := fun heq => hnotMem (heq ▸ hmem)
      rw [ih _ hnodup hmem,zset_storeZset_of_ne hne,zsetExpiry_storeZset_of_ne hne]
      simp [storeZset]

theorem zset_eachZset (hnodup : keys.Nodup) (key : String) :
    (s.eachZset keys f limit).zset key = if key ∈ keys then f (s.zset key) else s.zset key := by
  split
  · rename_i h
    rw [zset,eachZset_of_mem s hnodup h,← zset,zset_storeZset]
  · rename_i h
    rw [zset,eachZset_of_notMem s h,zset]

theorem zsetExpiry_eachZset {key : String} (hnodup : keys.Nodup) (h : key ∈ keys)
    (hcard : 0 < (f (s.zset key)).card) :
    (s.eachZset keys f limit).zsetExpiry key = limit (s.zsetExpiry key) := by
  rw [zsetExpiry,eachZset_of_mem s hnodup h,← zsetExpiry,zsetExpiry_storeZset hcard]

theorem zsetExpiry_eachZset_of_notMem {key : String} (h : key ∉ keys) :
    (s.eachZset keys f limit).zsetExpiry key = s.zsetExpiry key := by
  rw [zsetExpiry,eachZset_of_notMem s h,zsetExpiry]

end
end

/-- How `t` differs from `s` in its sorted sets: those with the given keys have new members, and
where some are left a new expiry time. -/
structure ZsetsChange (s t : Server) (keys : List String) (f : ZSet → ZSet)
    (limit : Option ℕ → Option ℕ) : Prop where
  now : t.now = s.now
  zset : ∀ key, t.zset key = if key ∈ keys then f (s.zset key) else s.zset key
  expiry : ∀ key, 0 < (t.zset key).card →
    t.zsetExpiry key = if key ∈ keys then limit (s.zsetExpiry key) else s.zsetExpiry key

variable {t : Server}

theorem ZsetsChange.clock {s : Server} {keys : List String} {f : ZSet → ZSet}
    {limit : Option ℕ → Option ℕ} (h : ZsetsChange s t keys f limit) : t.clock = s.clock := by
  rw [Server.clock,h.now,Server.clock]

theorem zsetsChange_eachZset (s : Server) {keys : List String} (hnodup : keys.Nodup)
    (f : ZSet → ZSet) (limit : Option ℕ → Option ℕ) :
    ZsetsChange s (s.eachZset keys f limit) keys f limit where
  now := eachZset_now s
  zset := zset_eachZset s hnodup
  expiry key hcard := by
    rw [zset_eachZset s hnodup] at hcard
    split at hcard
    · rename_i h
      rw [if_pos h,zsetExpiry_eachZset s hnodup h hcard]
    · rename_i h
      rw [if_neg h,zsetExpiry_eachZset_of_notMem s h]

/-- A second change of the same sets, which starts from the old expiry times or sets them anew. -/
theorem ZsetsChange.trans {s u : Server} {keys : List String} {f g : ZSet → ZSet}
    {limit : Option ℕ → Option ℕ} (h₁ : ZsetsChange s t keys f id)
    (h₂ : ZsetsChange t u keys g limit)
    (hlimit : (∀ z, 0 < (g z).card → 0 < z.card) ∨ ∃ l, limit = fun _ => l) :
    ZsetsChange s u keys (g ∘ f) limit where
  now := h₂.now.trans h₁.now
  zset key := by
    rw [h₂.zset,h₁.zset]
    split <;> rfl
  expiry key hpos := by
    rw [h₂.expiry key hpos]
    rw [h₂.zset] at hpos
    split at hpos
    · rename_i hmem
      rw [if_pos hmem,if_pos hmem]
      rcases hlimit with hshrinks | ⟨l,rfl⟩
      · rw [h₁.expiry key (hshrinks _ hpos),if_pos hmem,id]
      · rfl
    · rename_i hmem
      rw [if_neg hmem,if_neg hmem,h₁.expiry key hpos,if_neg hmem]

theorem ZsetsChange.storeHash {s : Server} {keys : List String} {f : ZSet → ZSet}
    {limit : Option ℕ → Option ℕ} (h : ZsetsChange s t keys f limit) (key : String)
    (e : Entry Hash) : ZsetsChange s (t.storeHash key e) keys f limit :=
  ⟨h.now,h.zset,h.expiry⟩

theorem tick_zset (s : Server) (now : ℕ) (key : String) :
    ((s.tick now).zset key = s.zset key ∧ (s.tick now).zsetExpiry key = s.zsetExpiry key) ∨
      (s.tick now).zset key = .empty ∧ ∃ limit, s.zsetExpiry key = some limit ∧
      limit ≤ now / 1000 := by
  simp only [zset,zsetExpiry,tick]
  cases s.zsets key with
  | none => exact .inl ⟨rfl,rfl⟩
  | some e =>
    cases hlive : e.live (now / 1000) with
    | true => exact .inl (by simp [Option.filter,hlive])
    | false =>
      refine .inr ⟨by simp [Option.filter,hlive],?_⟩
      unfold live at hlive
      split at hlive
      · rename_i limit hlimit
        exact ⟨limit,by simp [hlimit],by simpa using hlive⟩
      · cases hlive

/-! Lemmas on hashes. -/

variable {s : Server} {key field : String} {e : Entry Hash}

@[simp] theorem storeHash_now : (s.storeHash key e).now = s.now := rfl

@[simp] theorem storeHash_clock : (s.storeHash key e).clock = s.clock := rfl

@[simp] theorem storeHash_zsets : (s.storeHash key e).zsets = s.zsets := rfl

@[simp] theorem storeHash_same : (s.storeHash key e).hashes key = some e := by
  simp [storeHash]

theorem storeHash_of_ne (h : key' ≠ key) : (s.storeHash key e).hashes key' = s.hashes key' := by
  simp [storeHash,h]

@[simp] theorem hash_storeHash : (s.storeHash key e).hash key = e.value := by
  funext field
  simp [hash]

theorem hash_storeHash_of_ne (h : key' ≠ key) : (s.storeHash key e).hash key' = s.hash key' := by
  funext field
  simp [hash,storeHash_of_ne h]

@[simp] theorem hashExpiry_storeHash : (s.storeHash key e).hashExpiry key = e.expireAt := by
  simp [hashExpiry]

theorem hashExpiry_storeHash_of_ne (h : key' ≠ key) :
    (s.storeHash key e).hashExpiry key' = s.hashExpiry key' := by
  simp [hashExpiry,storeHash_of_ne h]

@[simp] theorem storeHash_storeHash (e' : Entry Hash) :
    (s.storeHash key e).storeHash key e' = s.storeHash key e' := by
  simp [storeHash]

@[simp] theorem tick_now (now : ℕ) : (s.tick now).now = now := rfl

@[simp] theorem tick_clock (now : ℕ) : (s.tick now).clock = now / 1000 := rfl

theorem tick_hash (s : Server) (now : ℕ) (key : String) :
    (s.tick now).hash key = s.hash key ∨ (s.tick now).hash key = fun _ => none := by
  have htick : (s.tick now).hashes key = s.hashes key ∨ (s.tick now).hashes key = none := by
    simp only [tick]
    cases s.hashes key with
    | none => exact .inl rfl
    | some e => cases hlive : e.live (now / 1000) <;> simp [hlive]
  rcases htick with h | h
  · exact .inl (by funext field; rw [hash,hash,h])
  · exact .inr (by funext field; rw [hash,h]; rfl)

theorem tick_hash_of_expiry {limit : ℕ} (h : s.hashExpiry key = some limit) (now : ℕ) :
    (now / 1000 < limit ∧ (s.tick now).hash key = s.hash key ∧
      (s.tick now).hashExpiry key = some limit) ∨
    limit ≤ now / 1000 ∧ (s.tick now).hash key = fun _ => none := by
  obtain ⟨e,he,hlimit⟩ := bind_eq_some_iff.mp h
  have hlive : e.live (now / 1000) = decide (now / 1000 < limit) := by simp [live,hlimit]
  by_cases hlt : now / 1000 < limit
  · have htick : (s.tick now).hashes key = s.hashes key := by
      simp [tick,he,hlive,hlt]
    refine .inl ⟨hlt,?_,?_⟩
    · funext field
      rw [hash,hash,htick]
    · rw [hashExpiry,htick]
      exact h
  · have htick : (s.tick now).hashes key = none := by
      simp [tick,he,hlive,hlt]
    refine .inr ⟨by omega,?_⟩
    funext field
    rw [hash,htick]
    rfl

theorem hash_congr (h : t.hashes = s.hashes) (key : String) : t.hash key = s.hash key := by
  funext field
  rw [hash,hash,h]

@[simp] theorem pexpireatHash_storeHash {limit : ℕ} (h : s.clock < limit) :
    (s.storeHash key e).pexpireatHash key limit =
      s.storeHash key { e with expireAt := some limit } := by
  simp [pexpireatHash,Nat.not_le.mpr h]

/-- A field that counts: its decimal value, or zero where it is missing. -/
def Counts (h : Hash) (field : String) (n : ℕ) : Prop :=
  h field = some n.repr ∨ h field = none ∧ n = 0

theorem Counts.unique {h : Hash} {m n : ℕ} (hm : Counts h field m) (hn : Counts h field n) :
    m = n := by
  rcases hm with hm | ⟨hm,rfl⟩
  · rcases hn with hn | ⟨hn,rfl⟩
    · rw [hm] at hn
      simpa using hn
    · rw [hm] at hn
      cases hn
  · rcases hn with hn | ⟨hn,rfl⟩
    · rw [hm] at hn
      cases hn
    · rfl

theorem hincrby_eq {n : ℕ} {delta : ℤ} (hn : Counts (s.hash key) field n) (hlt : (n : ℤ) < 2 ^ 63)
    (h₀ : 0 ≤ n + delta) (h₁ : n + delta < 2 ^ 63) :
    s.hincrby key field delta = some (n + delta,s.hset key field (n + delta).toNat.repr) := by
  have hrepr : (n + delta : ℤ).repr = (n + delta).toNat.repr := by
    conv_lhs => rw [← Int.toNat_of_nonneg h₀]
    rfl
  have htotal : int64 (n + delta) = some (n + delta) := int64_eq (by omega) h₁
  rcases hn with hn | ⟨hn,rfl⟩
  · have hcur : (integer n.repr).bind int64 = some (n : ℤ) := by
      rw [integer_repr,bind_some,int64_eq (by omega) hlt]
    simp only [hincrby,hn,hcur,bind_eq_bind,bind_some,htotal,hrepr]
    rfl
  · simp only [Nat.cast_zero] at htotal hrepr ⊢
    simp only [hincrby,hn,bind_eq_bind,bind_some,htotal,hrepr]
    rfl

/-- A loop of increments over distinct fields adds `delta` to each of them. -/
theorem hincrbyAll_eq {fields : List String} {delta : ℤ} {value : String → ℕ} (hne : fields ≠ [])
    (hnodup : fields.Nodup) (hcounts : ∀ f ∈ fields, Counts (s.hash key) f (value f))
    (hlt : ∀ f ∈ fields, (value f : ℤ) < 2 ^ 63) (h₀ : ∀ f ∈ fields, 0 ≤ value f + delta)
    (h₁ : ∀ f ∈ fields, value f + delta < 2 ^ 63) : s.hincrbyAll key fields delta =
      (s.storeHash key ⟨fun f => if f ∈ fields then some (value f + delta).toNat.repr
        else s.hash key f,s.hashExpiry key⟩,some (fields.map fun f => value f + delta)) := by
  induction fields generalizing s with
  | nil => exact absurd rfl hne
  | cons f fields ih =>
    obtain ⟨hf,hnodup⟩ := nodup_cons.mp hnodup
    have hmem := mem_cons_self (a := f) (l := fields)
    have hhead := hincrby_eq (hcounts f hmem) (hlt f hmem) (h₀ f hmem) (h₁ f hmem)
    simp only [hincrbyAll,hhead]
    cases fields with
    | nil =>
      have hfun : update (s.hash key) f (some (value f + delta).toNat.repr) =
          fun g => if g = f then some (value g + delta).toNat.repr else s.hash key g := by
        funext g
        by_cases hg : g = f
        · subst hg
          simp
        · simp [hg]
      simp [hincrbyAll,hset,hfun]
    | cons f' fields =>
      rw [ih (by simp) hnodup]
      · simp only [hset,hash_storeHash,hashExpiry_storeHash,storeHash_storeHash,map_some,map_cons]
        congr 3
        funext g
        by_cases hg : g = f
        · subst hg
          simp [hf]
        · simp [hg]
      · intro g hg
        have hgf : g ≠ f := fun h => hf (h ▸ hg)
        simpa [hset,Counts,hgf] using hcounts g (mem_cons_of_mem f hg)
      · exact fun g hg => hlt g (mem_cons_of_mem f hg)
      · exact fun g hg => h₀ g (mem_cons_of_mem f hg)
      · exact fun g hg => h₁ g (mem_cons_of_mem f hg)

end Server
end Redis
