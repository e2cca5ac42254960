import PowerManage.Relational.Locality
import PowerManage.Relational.Table

/-!
# The rows of every share

Often a share has one row in a table of its own, under the stream's identifier,
and a statement writes that row after it has checked the row's old value and a
unique index.  The index is what the statement demands of the other shares.
Where the rows of a table name the share they belong to, a share has any number
of them, and the keys are the index.

Main results:

- `RowShare.Respects.write_local`: a checked write of the row is local.
- `OwnedShare.insert_local`: so is a checked insertion of an owned row.
-/

namespace PowerManage.Relational

/-! ## Writes of a single row -/

section onlyAt

variable {κ ρ : Type} [DecidableEq κ]

/-- The write changes at most one row. -/
def RowWrite.OnlyAt (w : RowWrite κ ρ) (k : κ) : Prop :=
  ∀ k' old, k' ≠ k → w.leaves k' old = old

theorem RowWrite.onlyAt_insert (k : κ) (row : ρ) : (RowWrite.insert k row).OnlyAt k := by
  intro k' old hk
  simp [RowWrite.leaves, hk]

theorem RowWrite.onlyAt_update (k : κ) (f : ρ → ρ) : (RowWrite.update {k} f).OnlyAt k := by
  intro k' old hk
  simp [hk]

theorem RowWrite.onlyAt_delete (k : κ) : (RowWrite.delete {k} : RowWrite κ ρ).OnlyAt k := by
  intro k' old hk
  simp [hk]

/-- A write of one row leaves every other row alone. -/
theorem RowWrite.OnlyAt.find_of_ne {w : RowWrite κ ρ} {k k' : κ} (hw : w.OnlyAt k) (hk : k' ≠ k)
    (t : Table κ ρ) : (w.apply t).find k' = t.find k' := by
  rw [RowWrite.find_apply, hw k' _ hk]

end onlyAt

/-! ## The row of a share -/

/-- Where the row of a share is kept, and what writing it does. -/
structure RowShare {S C L K D : Type} (M : Shares S C L K D) (W κ ρ : Type) [Applies W D]
    [DecidableEq κ] where
  table : D → Table κ ρ
  write : RowWrite κ ρ → W
  stream : κ → S
  get : L → Option ρ
  put : Option ρ → L → L
  get_view : ∀ d k, get (M.view d (stream k)) = (table d).find k
  view_write : ∀ d w k, w.OnlyAt k → M.view (Applies.apply (write w) d) (stream k) =
    put (w.leaves k ((table d).find k)) (M.view d (stream k))
  confined : ∀ d w k, w.OnlyAt k → M.Confined (stream k) d (Applies.apply (write w) d)

namespace RowShare

variable {S C L K D W Q ε α κ ρ : Type} [Applies W D] [DecidableEq κ]
variable {M : Shares S C L K D} (T : RowShare M W κ ρ)
variable {pre post : L → L → Prop} {q : Demand C K} {k : κ} {w : RowWrite κ ρ}

/-- Related shares have the same row, and a write of it keeps them related. -/
structure Respects (pre post : L → L → Prop) (k : κ) (w : RowWrite κ ρ) : Prop where
  onlyAt : w.OnlyAt k
  get : ∀ l l', pre l l' → T.get l = T.get l'
  put : ∀ l l', pre l l' →
    post (T.put (w.leaves k (T.get l)) l) (T.put (w.leaves k (T.get l')) l')

variable {T}

theorem respects_eq (hw : w.OnlyAt k) : T.Respects Eq Eq k w where
  onlyAt := hw
  get := by
    rintro l _ rfl
    rfl
  put := by
    rintro l _ rfl
    rfl

/-- Related shares show the same row in the table. -/
theorem Respects.find_eq (h : T.Respects pre post k w) {d d₀ : D}
    (hpre : pre (M.view d (T.stream k)) (M.view d₀ (T.stream k))) :
    (T.table d).find k = (T.table d₀).find k := by
  rw [← T.get_view, ← T.get_view]
  exact h.get _ _ hpre

/-- Writing the row of related shares keeps them related. -/
theorem Respects.write (h : T.Respects pre post k w) {d d₀ : D}
    (hpre : pre (M.view d (T.stream k)) (M.view d₀ (T.stream k))) :
    post (M.view (applyAll [T.write w] d) (T.stream k))
      (M.view (applyAll [T.write w] d₀) (T.stream k)) := by
  simp only [applyAll_cons, applyAll_nil]
  rw [T.view_write d w k h.onlyAt, T.view_write d₀ w k h.onlyAt, ← T.get_view, ← T.get_view]
  exact h.put _ _ hpre

/-- A write of the row, after a check of its old value and of a unique index. -/
theorem Respects.write_local (h : T.Respects pre post k w) {locks : D → List Q}
    {check : D → Except ε Unit} (allows : Option ρ → Prop)
    (hcheck : ∀ d, check d = .ok () ↔ allows ((T.table d).find k) ∧ M.Meets (T.stream k) q d) :
    M.Local (T.stream k) pre post q (Prog.write locks check fun _ => [T.write w]) := by
  apply Shares.Local.write
  · intro d _
    exact T.confined d w k h.onlyAt
  · intro d hd
    exact ((hcheck d).mp hd).2
  · intro d d₀ hpre hmeets hd
    have hallows := ((hcheck d).mp hd).1
    rw [h.find_eq hpre] at hallows
    exact ⟨(hcheck d₀).mpr ⟨hallows, hmeets⟩, h.write hpre⟩

/-- A write of the row that a condition selects, after a check of a unique index. -/
theorem Respects.affectOne_local (h : T.Respects pre post k w) {locks : D → List Q}
    {selects : ρ → Bool} {change : D → ρ → Except ε (List W)} {context : ε → ε} {none : ε}
    (allows : ρ → Prop) (hchange : ∀ d row ws, selects row = true → (change d row = .ok ws ↔
      allows row ∧ M.Meets (T.stream k) q d ∧ ws = [T.write w])) :
    M.Local (T.stream k) pre post q (Prog.affectOne locks
      (fun d => ((T.table d).find k).filter selects) change context none) := by
  apply Shares.Local.affectOne
  · intro d row ws hrow hd
    obtain ⟨-, -, rfl⟩ := (hchange d row ws (Option.filter_eq_some_iff.mp hrow).2).mp hd
    exact T.confined d w k h.onlyAt
  · intro d row ws hrow hd
    exact ((hchange d row ws (Option.filter_eq_some_iff.mp hrow).2).mp hd).2.1
  · intro d d₀ row ws hpre hmeets hrow hd
    have hselects := (Option.filter_eq_some_iff.mp hrow).2
    obtain ⟨hallows, -, rfl⟩ := (hchange d row ws hselects).mp hd
    rw [h.find_eq hpre] at hrow
    exact ⟨row, _, hrow, (hchange d₀ row _ hselects).mpr ⟨hallows, hmeets, rfl⟩, h.write hpre⟩

end RowShare

/-! ## The rows that a share owns -/

/-- Where the rows that shares own are kept, and what writing them does. -/
structure OwnedShare {S C L K D : Type} (M : Shares S C L K D) (W κ ρ : Type) [Applies W D]
    [DecidableEq κ] [DecidableEq S] where
  table : D → Table κ ρ
  write : RowWrite κ ρ → W
  owner : ρ → S
  get : L → Table κ ρ
  put : Table κ ρ → L → L
  get_view : ∀ d s, get (M.view d s) = (table d).ownedBy owner s
  put_get : ∀ l, put (get l) l = l
  view_write : ∀ d w s, M.view (Applies.apply (write w) d) s =
    put ((w.apply (table d)).ownedBy owner s) (M.view d s)
  ctx_write : ∀ d w, M.ctx (Applies.apply (write w) d) = M.ctx d

namespace OwnedShare

variable {S C L K D W Q ε κ ρ : Type} [Applies W D] [DecidableEq κ] [DecidableEq S]
variable {M : Shares S C L K D} (T : OwnedShare M W κ ρ)
variable {s : S} {d d₀ : D} {k : κ} {w : RowWrite κ ρ} {locks : D → List Q}

/-- A write that leaves the rows of the others alone is confined. -/
theorem confined (h : ∀ s', s' ≠ s →
    (w.apply (T.table d)).ownedBy T.owner s' = (T.table d).ownedBy T.owner s') :
    M.Confined s d (applyAll [T.write w] d) := by
  refine ⟨T.ctx_write d w, fun s' hs' => ?_⟩
  simp only [applyAll_cons, applyAll_nil]
  rw [T.view_write, h s' hs', ← T.get_view, T.put_get]

/-- Equal shares have the same rows. -/
theorem owned_eq (h : M.view d s = M.view d₀ s) :
    (T.table d).ownedBy T.owner s = (T.table d₀).ownedBy T.owner s := by
  rw [← T.get_view, ← T.get_view, h]

/-- Writes that leave equal shares the same rows leave them equal. -/
theorem view_eq {w₀ : RowWrite κ ρ} (h : M.view d s = M.view d₀ s)
    (hw : (w.apply (T.table d)).ownedBy T.owner s = (w₀.apply (T.table d₀)).ownedBy T.owner s) :
    M.view (applyAll [T.write w] d) s = M.view (applyAll [T.write w₀] d₀) s := by
  simp only [applyAll_cons, applyAll_nil]
  rw [T.view_write, T.view_write, h, hw]

/-- An insertion demands of the others that they do not hold the key. -/
theorem insert_local {row : ρ} {key : K} {check : D → Except ε Unit} (allows : L → Prop)
    (hholds : ∀ l, M.holds l key ↔ (T.get l).find k ≠ none) (hcheck : ∀ d, check d = .ok () ↔
      (T.table d).find k = none ∧ allows (M.view d (T.owner row))) :
    M.Local (T.owner row) Eq Eq (.key key)
      (Prog.write locks check fun _ => [T.write (.insert k row)]) := by
  have hmeets : ∀ d, M.Meets (T.owner row) (.key key) d ↔
      ∀ s', s' ≠ T.owner row → ((T.table d).ownedBy T.owner s').find k = none := by
    simp [Shares.meets_key, hholds, T.get_view]
  apply Shares.Local.write
  · intro d hd
    refine T.confined fun s' hs' => ?_
    simp [Table.ownedBy_insert ((hcheck d).mp hd).1, Ne.symm hs']
  · intro d hd
    exact (hmeets d).mpr fun s' _ =>
      (Table.find_eq_none_iff_ownedBy _).mp ((hcheck d).mp hd).1 s'
  · intro d d₀ hview hothers hd
    obtain ⟨hnew, hallows⟩ := (hcheck d).mp hd
    have hrows := T.owned_eq hview
    have hnew₀ := Table.find_eq_none_of_ownedBy hrows hnew ((hmeets d₀).mp hothers)
    refine ⟨(hcheck d₀).mpr ⟨hnew₀, hview ▸ hallows⟩, T.view_eq hview ?_⟩
    rw [Table.ownedBy_insert hnew, Table.ownedBy_insert hnew₀, hrows]

/-- A deletion that a condition confines to one owner's rows. -/
theorem delete_local {selects : ρ → Bool} {context : ε → ε} {none : ε}
    (howner : ∀ r, selects r = true → T.owner r = s) :
    M.Local s Eq Eq .none (Prog.affectOne locks
      (fun d => ((T.table d).find k).filter selects)
      (fun _ _ => .ok [T.write (.delete {k})]) context none) := by
  apply Shares.Local.affectOne
  · intro d row ws hrow hchange
    cases hchange
    obtain ⟨hfind, hrow⟩ := Option.filter_eq_some_iff.mp hrow
    refine T.confined fun s' hs' => Table.ownedBy_delete_of_ne hfind ?_
    rw [howner row hrow]
    exact Ne.symm hs'
  · intro d row ws _ _
    exact Shares.meets_none d
  · intro d d₀ row ws hview _ hrow hchange
    cases hchange
    have hrows := T.owned_eq hview
    rw [Table.filter_find_owned howner, hrows, ← Table.filter_find_owned howner] at hrow
    refine ⟨row, _, hrow, rfl, T.view_eq hview ?_⟩
    rw [Table.ownedBy_delete, Table.ownedBy_delete, hrows]

/-- An update of all rows of one owner. -/
theorem update_local {f : ρ → ρ} (hf : ∀ r, T.owner (f r) = T.owner r) :
    M.Local s Eq Eq .none (Prog.write (ε := ε) locks (fun _ => .ok ()) fun d =>
      [T.write (.update ((T.table d).keysWhere fun _ r => T.owner r == s) f)]) := by
  apply Shares.Local.write
  · intro d _
    exact T.confined fun s' hs' => by rw [Table.ownedBy_updateOwned hf, if_neg hs']
  · intro d _
    exact Shares.meets_none d
  · intro d d₀ hview _ _
    refine ⟨rfl, T.view_eq hview ?_⟩
    rw [Table.ownedBy_updateOwned hf, Table.ownedBy_updateOwned hf, T.owned_eq hview]

end OwnedShare
end PowerManage.Relational
