import AiGateway.Relational.Table
import Mathlib.Data.List.Range

/-! A table whose rows have a status and a version, with a journal of every change: each row's
entries are a path of allowed moves from its initial status to its present one. -/
namespace Relational
open List

variable {ρ κ α : Type}

/-- One change of a row; a new row has no source. -/
structure Move (κ α : Type) where
  key : κ
  version : ℕ
  source : Option α
  target : α

/-- The columns that the journal speaks of. -/
structure Columns (ρ κ α : Type) where
  key : ρ → κ
  status : ρ → α
  version : ρ → ℕ

variable (initial : α) (leads : α → α → Bool)

/-- The journal of a row with this status and version. -/
inductive Path : List (Move κ α) → α → ℕ → Prop
  | opened (k : κ) : Path [⟨k,1,none,initial⟩] initial 1
  | moved {moves : List (Move κ α)} {status target : α} {version : ℕ} (k : κ)
      (h : Path moves status version) (hleads : leads status target) :
      Path (moves ++ [⟨k,version + 1,some status,target⟩]) target (version + 1)

section Path
variable {initial leads} {moves : List (Move κ α)} {status : α} {version : ℕ}

theorem Path.versions (h : Path initial leads moves status version) :
    moves.map (·.version) = range' 1 version := by
  induction h with
  | opened k => rfl
  | moved k h hleads ih =>
    rw [map_append,ih,range'_concat]
    simp [Nat.add_comm]

theorem Path.allowed (h : Path initial leads moves status version) :
    ∀ e ∈ moves, ∀ s, e.source = some s → leads s e.target := by
  induction h with
  | opened k => simp
  | moved k h hleads ih =>
    intro e he s hs
    rcases mem_append.mp he with he | he
    · exact ih e he s hs
    · rw [mem_singleton.mp he] at hs ⊢
      cases hs
      exact hleads

theorem Path.countP_final {final : α → Bool} (hinitial : final initial = false)
    (hfinal : ∀ s t, leads s t → final s = false) (h : Path initial leads moves status version) :
    moves.countP (fun e => final e.target) = if final status then 1 else 0 := by
  induction h with
  | opened k => simp [hinitial]
  | moved k h hleads ih =>
    rw [countP_append,ih,hfinal _ _ hleads]
    simp

end Path

variable [DecidableEq κ] (columns : Columns ρ κ α)

/-- The entries of one row. -/
def movesOf (journal : List (Move κ α)) (k : κ) : List (Move κ α) :=
  journal.filter fun e => e.key = k

structure Journaled (rows : List ρ) (journal : List (Move κ α)) : Prop where
  keys : (rows.map columns.key).Nodup
  paths : ∀ r ∈ rows, Path initial leads (movesOf journal (columns.key r)) (columns.status r)
    (columns.version r)
  known : ∀ e ∈ journal, ∃ r ∈ rows, columns.key r = e.key

variable {initial leads columns} {rows : List ρ} {journal : List (Move κ α)}

theorem movesOf_append_self {k : κ} {e : Move κ α} (he : e.key = k) :
    movesOf (journal ++ [e]) k = movesOf journal k ++ [e] := by
  simp [movesOf,filter_append,he]

theorem movesOf_append_other {k : κ} {e : Move κ α} (he : e.key ≠ k) :
    movesOf (journal ++ [e]) k = movesOf journal k := by
  simp [movesOf,filter_append,he]

section
variable (h : Journaled initial leads columns rows journal)
include h

theorem Journaled.insert {r : ρ} (hfresh : ∀ x ∈ rows, columns.key x ≠ columns.key r)
    (hstat : columns.status r = initial) (hver : columns.version r = 1) :
    Journaled initial leads columns (rows ++ [r])
      (journal ++ [⟨columns.key r,columns.version r,none,columns.status r⟩]) := by
  have hnone : movesOf journal (columns.key r) = [] := by
    rw [movesOf,filter_eq_nil_iff]
    intro e he
    obtain ⟨x,hx,hkey⟩ := h.known e he
    simpa [← hkey] using hfresh x hx
  refine ⟨?_,?_,?_⟩
  · rw [map_append,nodup_append]
    refine ⟨h.keys,nodup_singleton _,?_⟩
    intro k hk k' hk'
    obtain ⟨x,hx,rfl⟩ := mem_map.mp hk
    rw [map_singleton,mem_singleton] at hk'
    rw [hk']
    exact hfresh x hx
  · intro x hx
    rcases mem_append.mp hx with hx | hx
    · rw [movesOf_append_other (Ne.symm (hfresh x hx))]
      exact h.paths x hx
    · rw [mem_singleton.mp hx,movesOf_append_self rfl,hnone,hstat,hver]
      exact .opened _
  · intro e he
    rcases mem_append.mp he with he | he
    · obtain ⟨x,hx,hkey⟩ := h.known e he
      exact ⟨x,mem_append_left _ hx,hkey⟩
    · rw [mem_singleton.mp he]
      exact ⟨r,mem_append_right _ mem_cons_self,rfl⟩

/-- A rewrite of one row that keeps the key, raises the version by one and makes an allowed move. -/
theorem Journaled.update {r : ρ} (hr : r ∈ rows)
    {f : ρ → ρ} (hkey : columns.key (f r) = columns.key r)
    (hver : columns.version (f r) = columns.version r + 1)
    (hleads : leads (columns.status r) (columns.status (f r))) :
    Journaled initial leads columns (Relational.update columns.key (columns.key r) f rows)
      (journal ++ [⟨columns.key (f r),columns.version (f r),some (columns.status r),
        columns.status (f r)⟩]) := by
  -- with unique keys the rewritten row is `r`
  have hone : ∀ x ∈ rows, columns.key x = columns.key r → x = r :=
    fun x hx hk => inj_on_of_nodup_map h.keys hx hr hk
  have hcolumn : (Relational.update columns.key (columns.key r) f rows).map columns.key =
      rows.map columns.key := by
    rw [Relational.update,map_map]
    apply map_congr_left
    intro x hx
    simp only [Function.comp_apply]
    split_ifs with hk
    · rw [hone x hx hk,hkey]
    · rfl
  refine ⟨hcolumn ▸ h.keys,?_,?_⟩
  · intro x hx
    rcases mem_update.mp hx with ⟨hx,hk⟩ | ⟨y,hy,hk,rfl⟩
    · rw [movesOf_append_other (by simpa [hkey] using Ne.symm hk)]
      exact h.paths x hx
    · rw [hone y hy hk,movesOf_append_self rfl,hkey,hver]
      exact .moved _ (h.paths r hr) hleads
  · intro e he
    have hknown : columns.key r ∈ (Relational.update columns.key (columns.key r) f rows).map
        columns.key := hcolumn ▸ mem_map_of_mem hr
    rcases mem_append.mp he with he | he
    · obtain ⟨x,hx,hk⟩ := h.known e he
      have hmem : columns.key x ∈ (Relational.update columns.key (columns.key r) f rows).map
          columns.key := hcolumn ▸ mem_map_of_mem hx
      obtain ⟨y,hy,hyk⟩ := mem_map.mp hmem
      exact ⟨y,hy,hyk.trans hk⟩
    · obtain ⟨y,hy,hyk⟩ := mem_map.mp hknown
      rw [mem_singleton.mp he]
      exact ⟨y,hy,hyk.trans hkey.symm⟩

end
end Relational
