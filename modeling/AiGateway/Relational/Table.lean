import Mathlib.Algebra.BigOperators.Group.List.Basic
import Mathlib.Algebra.Order.Group.Int
import Mathlib.Algebra.Ring.Int.Defs
import Mathlib.Data.List.Nodup
import Mathlib.Data.List.Sort
/-! Tables as lists of rows with a key column: rewriting the row of one key, and what that does
to membership, to the key column and to column sums. -/
namespace Relational
open List

variable {ρ κ : Type} [DecidableEq κ] {w : ρ → ℤ}

/-- Rewrite the rows whose key is `k`. -/
def update (key : ρ → κ) (k : κ) (f : ρ → ρ) (rows : List ρ) : List ρ :=
  rows.map fun r => if key r = k then f r else r

/-- The first row in the order `before`, as `ORDER BY … LIMIT 1` picks it. -/
def first (before : ρ → ρ → Bool) : List ρ → Option ρ
  | [] => none
  | r :: rows => match first before rows with
      | some x => if before x r then some x else some r
      | none => some r

/-- The row keeps its columns `key`, and does not change any more once it is final. -/
structure Kept {κ : Type} (key : ρ → κ) (final : ρ → Bool) (r r' : ρ) : Prop where
  key : key r' = key r
  final : final r → r' = r

section
variable {κ : Type} {key : ρ → κ} {final : ρ → Bool}

theorem Kept.refl (r : ρ) : Kept key final r r := ⟨rfl,fun _ => rfl⟩

theorem Kept.trans {r m r' : ρ} (h : Kept key final r m) (h' : Kept key final m r') :
    Kept key final r r' := by
  refine ⟨h'.key.trans h.key,?_⟩
  intro hfinal
  have hm := h.final hfinal
  rw [h'.final (hm ▸ hfinal),hm]

end

section Order
variable {β : Type} [LinearOrder β] (key : ρ → β) [DecidableRel fun a b : ρ => key a ≤ key b]

theorem pairwise_insertionSort_key (rows : List ρ) :
    (rows.insertionSort fun a b => key a ≤ key b).Pairwise fun a b => key a ≤ key b := by
  have : Std.Total fun a b : ρ => key a ≤ key b := ⟨fun _ _ => le_total _ _⟩
  have : IsTrans ρ fun a b => key a ≤ key b := ⟨fun _ _ _ => le_trans⟩
  exact pairwise_insertionSort _ rows

/-- Rows with a unique key have one order by it. -/
theorem insertionSort_perm {rows rows' : List ρ} (h : rows.Perm rows')
    (hkey : (rows.map key).Nodup) : rows.insertionSort (fun a b => key a ≤ key b) =
      rows'.insertionSort fun a b => key a ≤ key b := by
  have hsort (l : List ρ) := perm_insertionSort (fun a b => key a ≤ key b) l
  refine Perm.eq_of_pairwise ?_ (pairwise_insertionSort_key key rows)
    (pairwise_insertionSort_key key rows') ((hsort rows).trans (h.trans (hsort rows').symm))
  intro a b ha hb hab hba
  exact inj_on_of_nodup_map hkey ((hsort rows).mem_iff.mp ha)
    (h.mem_iff.mpr ((hsort rows').mem_iff.mp hb)) (le_antisymm hab hba)

end Order

/-- The total of an integer column. -/
def total (w : ρ → ℤ) (rows : List ρ) : ℤ := (rows.map w).sum

variable {key : ρ → κ} {k : κ} {f : ρ → ρ} {rows : List ρ}

@[simp] theorem total_nil (w : ρ → ℤ) : total w ([] : List ρ) = 0 := rfl

@[simp] theorem total_append (w : ρ → ℤ) (rows rows' : List ρ) :
    total w (rows ++ rows') = total w rows + total w rows' := by simp [total]

@[simp] theorem total_cons (w : ρ → ℤ) (r : ρ) (rows : List ρ) :
    total w (r :: rows) = w r + total w rows := by simp [total]

theorem total_nonneg (h : ∀ r ∈ rows, 0 ≤ w r) : 0 ≤ total w rows := by
  induction rows with
  | nil => simp
  | cons r rows ih =>
    have hr := h r mem_cons_self
    have ht := ih fun x hx => h x (mem_cons_of_mem r hx)
    rw [total_cons]
    omega

variable {r : ρ}

/-- One term of a column of non-negative values is at most the column's total. -/
theorem le_total (h : ∀ r ∈ rows, 0 ≤ w r) (hr : r ∈ rows) : w r ≤ total w rows := by
  induction rows with
  | nil => simp at hr
  | cons x rows ih =>
    have hx := h x mem_cons_self
    have ht : ∀ y ∈ rows, 0 ≤ w y := fun y hy => h y (mem_cons_of_mem x hy)
    have hsum := total_nonneg ht
    rw [total_cons]
    rcases mem_cons.mp hr with rfl | hr
    · omega
    · have := ih ht hr
      omega

/-- A column of positive values shows by its total whether rows are missing. -/
theorem total_subset {rows' : List ρ} (hrows : rows.Nodup) (h : rows ⊆ rows')
    (hw : ∀ r ∈ rows', 0 < w r) :
    total w rows ≤ total w rows' ∧ (total w rows = total w rows' → rows' ⊆ rows) := by
  obtain ⟨part,hpart,hsub⟩ := subperm_of_subset hrows h
  obtain ⟨rest,hrest⟩ := hsub.exists_perm_append
  have hperm : rows' ~ rows ++ rest := hrest.trans (hpart.append_right rest)
  have hsum : total w rows' = total w rows + total w rest := by
    rw [← total_append]
    exact (hperm.map w).sum_eq
  have hpos : ∀ r ∈ rest, 0 < w r :=
    fun r hr => hw r (hperm.mem_iff.mpr (mem_append_right rows hr))
  have hle := total_nonneg fun r hr => (hpos r hr).le
  refine ⟨by omega,fun heq r hr => ?_⟩
  rcases mem_append.mp (hperm.mem_iff.mp hr) with hr | hr
  · exact hr
  · have := le_total (fun r hr => (hpos r hr).le) hr
    have := hpos r hr
    omega

theorem total_congr {w' : ρ → ℤ} (h : ∀ r ∈ rows, w r = w' r) : total w rows = total w' rows := by
  unfold total
  rw [map_congr_left h]

/-- The total over the rows that `p` selects. -/
theorem total_filter (w : ρ → ℤ) (p : ρ → Bool) (rows : List ρ) :
    total w (rows.filter p) = total (fun r => if p r then w r else 0) rows := by
  induction rows with
  | nil => rfl
  | cons r rows ih => by_cases h : p r <;> simp [h,ih]

theorem countP_key (p : ρ → Bool) :
    rows.countP (fun r => key r = k && p r) = ((rows.filter p).map key).count k := by
  rw [← countP_filter,count,countP_map]
  apply countP_congr
  intro r _
  simp

theorem mem_update :
    r ∈ update key k f rows ↔ (r ∈ rows ∧ key r ≠ k) ∨ ∃ x ∈ rows, key x = k ∧ f x = r := by
  simp only [update,mem_map]
  constructor
  · rintro ⟨x,hx,rfl⟩
    split_ifs with hk
    · exact .inr ⟨x,hx,hk,rfl⟩
    · exact .inl ⟨hx,hk⟩
  · rintro (⟨hr,hk⟩ | ⟨x,hx,hk,rfl⟩)
    · exact ⟨r,hr,by simp [hk]⟩
    · exact ⟨x,hx,by simp [hk]⟩

variable {γ : Type}

theorem map_update {g : ρ → γ} (hg : ∀ r, g (f r) = g r) :
    (update key k f rows).map g = rows.map g := by
  simp only [update,map_map]
  apply map_congr_left
  intro r _
  simp only [Function.comp_apply]
  split_ifs
  · exact hg r
  · rfl

theorem map_filter_update {p : ρ → Bool} {g : ρ → γ} (hp : ∀ r, p (f r) = p r)
    (hg : ∀ r, g (f r) = g r) : ((update key k f rows).filter p).map g = (rows.filter p).map g := by
  induction rows with
  | nil => rfl
  | cons r rows ih =>
    have hhead : update key k f (r :: rows) =
      (if key r = k then f r else r) :: update key k f rows :=
      rfl
    rw [hhead,filter_cons,filter_cons]
    split_ifs with hk <;> simp_all

/-- A rewrite of a row as it shows in the columns that `h` reads. -/
theorem map_update_comm {key' : γ → κ} {h : ρ → γ} {g : γ → γ}
    (hkey : ∀ r, key' (h r) = key r) (hg : ∀ r, h (f r) = g (h r)) :
    (update key k f rows).map h = update key' k g (rows.map h) := by
  simp only [update,map_map]
  apply map_congr_left
  intro r _
  simp only [Function.comp_apply,hkey]
  split_ifs
  · exact hg r
  · rfl

theorem update_of_notMem (h : ∀ r ∈ rows, key r ≠ k) : update key k f rows = rows := by
  unfold update
  rw [map_congr_left (g := id) fun r hr => by simp [h r hr],map_id]

/-- With unique keys, the rewrite changes a column's total by the change in the one row. -/
theorem total_update (w : ρ → ℤ) (hn : (rows.map key).Nodup) (hr : r ∈ rows) (hk : key r = k) :
    total w (update key k f rows) = total w rows - w r + w (f r) := by
  induction rows with
  | nil => simp at hr
  | cons x rows ih =>
    obtain ⟨hx,hn⟩ := nodup_cons.mp hn
    rcases mem_cons.mp hr with rfl | hr
    · have hrest : update key k f rows = rows := by
        apply update_of_notMem
        intro y hy hyk
        exact hx (mem_map.mpr ⟨y,hy,hyk.trans hk.symm⟩)
      have hhead : update key k f (r :: rows) = f r :: update key k f rows := by
        simp [update,hk]
      rw [hhead,hrest,total_cons,total_cons]
      omega
    · have hxk : key x ≠ k := by
        intro hxk
        exact hx (mem_map.mpr ⟨r,hr,hk.trans hxk.symm⟩)
      have hhead : update key k f (x :: rows) = x :: update key k f rows := by
        simp [update,hxk]
      rw [hhead,total_cons,total_cons,ih hn hr]
      omega

theorem find?_eq_some (hn : (rows.map key).Nodup) :
    rows.find? (fun x => key x = k) = some r ↔ r ∈ rows ∧ key r = k := by
  constructor
  · intro h
    exact ⟨mem_of_find?_eq_some h,by simpa using find?_some h⟩
  · rintro ⟨hr,hk⟩
    cases h : rows.find? fun x => key x = k with
    | none => simpa [hk] using find?_eq_none.mp h r hr
    | some x =>
      have hx : key x = k := by simpa using find?_some h
      rw [inj_on_of_nodup_map hn (mem_of_find?_eq_some h) hr (hx.trans hk.symm)]

variable {before : ρ → ρ → Bool}

theorem first_eq_none {rows : List ρ} : first before rows = none ↔ rows = [] := by
  cases rows with
  | nil => simp [first]
  | cons r rows =>
    simp only [first,reduceCtorEq,iff_false]
    split
    · split <;> simp
    · simp

theorem first_mem {rows : List ρ} (h : first before rows = some r) : r ∈ rows := by
  induction rows generalizing r with
  | nil => simp [first] at h
  | cons x rows ih =>
    simp only [first] at h
    split at h
    · rename_i y hy
      split at h
      · cases h
        exact mem_cons_of_mem x (ih hy)
      · cases h
        exact mem_cons_self
    · cases h
      exact mem_cons_self

theorem first_least {β : Type} [LinearOrder β] (rank : ρ → β)
    (hrank : ∀ a b, before a b ↔ rank a < rank b) {rows : List ρ}
    (h : first before rows = some r) : ∀ x ∈ rows, rank r ≤ rank x := by
  induction rows generalizing r with
  | nil => exact forall_mem_nil _
  | cons y rows ih =>
    rw [forall_mem_cons]
    simp only [first] at h
    split at h
    · rename_i z hz
      split at h
      · rename_i hbefore
        cases h
        exact ⟨((hrank _ _).mp hbefore).le,ih hz⟩
      · rename_i hbefore
        cases h
        rw [hrank,not_lt] at hbefore
        exact ⟨le_rfl,fun x hx => hbefore.trans (ih hz x hx)⟩
    · rename_i hnone
      cases h
      rw [first_eq_none.mp hnone]
      exact ⟨le_rfl,forall_mem_nil _⟩

theorem first_eq_some {rows : List ρ} (hr : r ∈ rows)
    (hle : ∀ x ∈ rows, x ≠ r → before r x ∧ before x r = false) : first before rows = some r := by
  induction rows with
  | nil => simp at hr
  | cons x rows ih =>
    have hrest : ∀ y ∈ rows, y ≠ r → before r y ∧ before y r = false :=
      fun y hy => hle y (mem_cons_of_mem x hy)
    by_cases hxr : x = r
    · subst hxr
      simp only [first]
      cases h : first before rows with
      | none => rfl
      | some y =>
        by_cases hyx : y = x
        · simp [hyx]
        · simp [(hrest y (first_mem h) hyx).2]
    · have hmem : r ∈ rows := (mem_cons.mp hr).resolve_left fun h => hxr h.symm
      simp [first,ih hmem hrest,(hle x mem_cons_self hxr).1]

end Relational
