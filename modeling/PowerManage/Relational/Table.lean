import Mathlib.Data.Finmap

/-!
# Keyed tables and row-level writes

A relational table is a finite map from its primary key to its row.  Reads are
lookups and decidable searches; a write is a `RowWrite`, which names the
rows it touches by key, so that a write computed against one snapshot can be
applied to a later one.

Main results:

- `find_filter`, `find_mapRows` and `anyRow_iff`:
  every bulk operation is determined by what it does to one lookup.
- `RowWrite.find_apply`: the row a write leaves under a key.
- `ext_find`: two tables with the same lookups are equal.
-/

namespace PowerManage.Relational

/-- A table: finitely many rows, each under its own primary key. -/
abbrev Table (κ ρ : Type) : Type := Finmap fun _ : κ => ρ

namespace Table

variable {κ ρ : Type} [DecidableEq κ]

/-- The row stored under a key. -/
def find (t : Table κ ρ) (k : κ) : Option ρ :=
  Finmap.lookup k t

/-- Equality of tables is decided by their lookups. -/
theorem ext_find {t t' : Table κ ρ} (h : ∀ k, t.find k = t'.find k) : t = t' :=
  Finmap.ext_lookup h

@[simp]
theorem find_empty (k : κ) : (∅ : Table κ ρ).find k = none :=
  Finmap.lookup_empty k

variable {t : Table κ ρ}

theorem find_eq_some_iff {k : κ} {r : ρ} : t.find k = some r ↔ (⟨k, r⟩ : Σ _ : κ, ρ) ∈ t.entries :=
  Finmap.lookup_eq_some_iff

theorem ne_of_find {k k' : κ} {r : ρ} (hnone : t.find k = none) (hsome : t.find k' = some r) :
    k' ≠ k := by
  rintro rfl
  simp [hnone] at hsome

/-! ## Bulk reads -/

/-- The rows that satisfy a predicate. -/
def filter (t : Table κ ρ) (p : κ → ρ → Bool) : Table κ ρ where
  entries := t.entries.filter fun x => p x.1 x.2
  nodupKeys := by
    rw [← Multiset.nodup_keys]
    exact Multiset.nodup_of_le
      (Multiset.map_le_map (Multiset.filter_le _ _))
      (Multiset.nodup_keys.mpr t.nodupKeys)

theorem find_filter (t : Table κ ρ) (p : κ → ρ → Bool) (k : κ) :
    (t.filter p).find k = (t.find k).filter (p k) := by
  apply Option.ext
  intro r
  rw [find_eq_some_iff, Option.filter_eq_some_iff, find_eq_some_iff]
  simp [filter]

/-- The number of rows that satisfy a predicate. -/
def count (t : Table κ ρ) (p : κ → ρ → Bool) : Nat :=
  t.entries.countP fun x => p x.1 x.2

theorem count_pos_iff (t : Table κ ρ) (p : κ → ρ → Bool) :
    0 < t.count p ↔ ∃ k r, t.find k = some r ∧ p k r = true := by
  rw [count, Multiset.countP_pos]
  constructor
  · rintro ⟨⟨k, r⟩, hmem, hp⟩
    exact ⟨k, r, find_eq_some_iff.mpr hmem, hp⟩
  · rintro ⟨k, r, hfind, hp⟩
    exact ⟨⟨k, r⟩, find_eq_some_iff.mp hfind, hp⟩

omit [DecidableEq κ] in
/-- A count is decided by the rows it counts. -/
theorem count_eq_card_filter (t : Table κ ρ) (p : κ → ρ → Bool) :
    t.count p = (t.filter p).entries.card :=
  Multiset.countP_eq_card_filter _ _

/-- Some row satisfies a predicate. -/
def anyRow (t : Table κ ρ) (p : κ → ρ → Bool) : Bool :=
  decide (0 < t.count p)

theorem anyRow_iff (t : Table κ ρ) (p : κ → ρ → Bool) :
    t.anyRow p = true ↔ ∃ k r, t.find k = some r ∧ p k r = true := by
  rw [anyRow, decide_eq_true_eq, count_pos_iff]

/-- A search within some rows looks at those rows only. -/
theorem anyRow_filter (t : Table κ ρ) (p q : κ → ρ → Bool) :
    (t.filter p).anyRow q = t.anyRow fun k r => p k r && q k r := by
  rw [Bool.eq_iff_iff, anyRow_iff, anyRow_iff]
  simp [find_filter, Option.filter_eq_some_iff, and_assoc]

/-- The keys of the rows that satisfy a predicate. -/
def keysWhere (t : Table κ ρ) (p : κ → ρ → Bool) : Finset κ :=
  (t.filter p).keys

theorem mem_keysWhere {p : κ → ρ → Bool} {k : κ} :
    k ∈ t.keysWhere p ↔ ∃ r, t.find k = some r ∧ p k r = true := by
  rw [keysWhere, Finmap.mem_keys, Finmap.mem_iff]
  change (∃ r, (t.filter p).find k = some r) ↔ _
  simp only [find_filter, Option.filter_eq_some_iff]

/-! ## Bulk writes -/

/-- Rewrite every row without touching its key. -/
def mapRows (t : Table κ ρ) (f : κ → ρ → ρ) : Table κ ρ where
  entries := t.entries.map fun x => ⟨x.1, f x.1 x.2⟩
  nodupKeys := by
    rw [← Multiset.nodup_keys]
    have hkeys : (t.entries.map fun x => (⟨x.1, f x.1 x.2⟩ : Σ _ : κ, ρ)).keys
        = t.entries.keys := by
      simp [Multiset.keys, Multiset.map_map]
    rw [hkeys]
    exact Multiset.nodup_keys.mpr t.nodupKeys

theorem find_mapRows (t : Table κ ρ) (f : κ → ρ → ρ) (k : κ) :
    (t.mapRows f).find k = (t.find k).map (f k) := by
  apply Option.ext
  intro r
  rw [find_eq_some_iff, Option.map_eq_some_iff]
  simp only [mapRows, Multiset.mem_map]
  constructor
  · rintro ⟨⟨k', r'⟩, hmem, heq⟩
    cases heq
    exact ⟨r', find_eq_some_iff.mpr hmem, rfl⟩
  · rintro ⟨r', hfind, rfl⟩
    exact ⟨⟨k, r'⟩, find_eq_some_iff.mp hfind, rfl⟩

end Table

/-! ## Row-level writes -/

/-- One statement's effect on one table, addressed by key.  An insert does
nothing to a row that already exists: the statement that computed it has
checked the key, and the lock it holds keeps the key free until commit. -/
inductive RowWrite (κ ρ : Type) : Type where
  | insert (key : κ) (row : ρ)
  | update (keys : Finset κ) (change : ρ → ρ)
  | delete (keys : Finset κ)

namespace RowWrite

variable {κ ρ : Type} [DecidableEq κ]

/-- Apply a write to a table. -/
def apply : RowWrite κ ρ → Table κ ρ → Table κ ρ
  | insert k r, t => if (t.find k).isSome then t else Finmap.insert k r t
  | update ks f, t => t.mapRows fun k r => if k ∈ ks then f r else r
  | delete ks, t => t.filter fun k _ => decide (k ∉ ks)

/-- The row that a write leaves under a key. -/
def leaves : RowWrite κ ρ → κ → Option ρ → Option ρ
  | insert k r, k', old => if k' = k then some (old.getD r) else old
  | update ks f, k', old => if k' ∈ ks then old.map f else old
  | delete ks, k', old => if k' ∈ ks then none else old

/-- A write acts on every lookup independently. -/
@[simp]
theorem find_apply (w : RowWrite κ ρ) (t : Table κ ρ) (k : κ) :
    (w.apply t).find k = w.leaves k (t.find k) := by
  cases w with
  | insert k' r =>
    cases hfind : t.find k' with
    | none =>
      simp only [apply, hfind, Option.isSome_none, Bool.false_eq_true, if_false, leaves]
      by_cases hk : k = k'
      · subst hk
        simp only [hfind, if_true, Option.getD_none]
        exact Finmap.lookup_insert _
      · simp only [hk, if_false]
        exact Finmap.lookup_insert_of_ne _ hk
    | some r' =>
      simp only [apply, hfind, Option.isSome_some, if_true, leaves]
      by_cases hk : k = k'
      · subst hk
        simp [hfind]
      · simp [hk]
  | update ks f =>
    simp only [apply, Table.find_mapRows, leaves]
    split <;> simp
  | delete ks =>
    simp only [apply, Table.find_filter, leaves]
    by_cases hk : k ∈ ks
    · simp [hk]
    · cases t.find k <;> simp [hk]

@[simp]
theorem leaves_delete_singleton (k k' : κ) (old : Option ρ) :
    (delete {k} : RowWrite κ ρ).leaves k' old = if k' = k then none else old := by
  simp [leaves]

@[simp]
theorem leaves_update_singleton (k k' : κ) (f : ρ → ρ) (old : Option ρ) :
    (update {k} f).leaves k' old = if k' = k then old.map f else old := by
  simp [leaves]

/-- A deletion by condition keeps the rows that do not meet it. -/
@[simp]
theorem leaves_deleteWhere (t : Table κ ρ) (p : κ → ρ → Bool) (k : κ) :
    (delete (t.keysWhere p)).leaves k (t.find k) = (t.find k).filter fun r => !p k r := by
  simp only [leaves, Table.mem_keysWhere]
  cases t.find k with
  | none => simp
  | some r => cases hp : p k r <;> simp [hp, Option.filter]

/-- An update by condition changes the rows that meet it. -/
@[simp]
theorem leaves_updateWhere (t : Table κ ρ) (p : κ → ρ → Bool) (f : ρ → ρ) (k : κ) :
    (update (t.keysWhere p) f).leaves k (t.find k) =
      (t.find k).map fun r => if p k r then f r else r := by
  simp only [leaves, Table.mem_keysWhere]
  cases t.find k with
  | none => simp
  | some r => cases hp : p k r <;> simp [hp]

end RowWrite

/-! ## Properties of every row -/

section allRows

variable {κ ρ : Type} [DecidableEq κ] {P : κ → ρ → Prop}

/-- Every row has a property of its key and contents. -/
def Table.AllRows (P : κ → ρ → Prop) (t : Table κ ρ) : Prop :=
  ∀ k r, t.find k = some r → P k r

/-- The write stores only rows with a property in a table of such rows. -/
def RowWrite.Respects (P : κ → ρ → Prop) : RowWrite κ ρ → Prop
  | insert k r => P k r
  | update ks f => ∀ k ∈ ks, ∀ r, P k r → P k (f r)
  | delete _ => True

theorem Table.AllRows.empty : (∅ : Table κ ρ).AllRows P := by
  intro k r h
  cases h

theorem Table.AllRows.apply {w : RowWrite κ ρ} {t : Table κ ρ} (ht : t.AllRows P)
    (hw : w.Respects P) : (w.apply t).AllRows P := by
  intro k r h
  rw [RowWrite.find_apply] at h
  cases w with
  | insert k' r' =>
    simp only [RowWrite.leaves] at h
    split at h
    next hk =>
      subst hk
      cases hfind : t.find k with
      | none => rw [hfind] at h; cases h; exact hw
      | some r'' => rw [hfind] at h; cases h; exact ht k _ hfind
    next => exact ht k r h
  | update ks f =>
    simp only [RowWrite.leaves] at h
    split at h
    next hk =>
      obtain ⟨r', hfind, rfl⟩ := Option.map_eq_some_iff.mp h
      exact hw k hk r' (ht k r' hfind)
    next => exact ht k r h
  | delete ks =>
    simp only [RowWrite.leaves] at h
    split at h
    next => cases h
    next => exact ht k r h

end allRows

/-! ## Tables of one row -/

section ofRow

variable {κ ρ : Type} [DecidableEq κ]

/-- The table that holds at most one row. -/
def Table.ofRow (k : κ) (row : Option ρ) : Table κ ρ :=
  row.elim ∅ fun r => (RowWrite.insert k r).apply ∅

@[simp]
theorem Table.find_ofRow (k k' : κ) (row : Option ρ) :
    (Table.ofRow k row).find k' = if k' = k then row else none := by
  cases row with
  | none => simp [ofRow]
  | some r => simp [ofRow, RowWrite.leaves]

end ofRow

/-! ## Replacing one row -/

namespace Table

variable {κ ρ : Type} [DecidableEq κ] {t : Table κ ρ} {k : κ}

/-- The table with what is stored under one key replaced. -/
def put (t : Table κ ρ) (k : κ) (row : Option ρ) : Table κ ρ :=
  row.elim (Finmap.erase k t) fun r => Finmap.insert k r t

@[simp]
theorem find_put (t : Table κ ρ) (k k' : κ) (row : Option ρ) :
    (t.put k row).find k' = if k' = k then row else t.find k' := by
  by_cases h : k' = k
  · subst h
    cases row <;> simp [put, find]
  · cases row <;> simp [put, find, h]

/-- A row with the property may replace any other. -/
theorem AllRows.put {P : κ → ρ → Prop} (h : t.AllRows P) {row : ρ} (hrow : P k row) :
    (t.put k (some row)).AllRows P := by
  intro k' r hfind
  rw [find_put] at hfind
  split at hfind
  · rename_i hsame
    cases hfind
    exact hsame ▸ hrow
  · exact h k' r hfind

theorem put_find (t : Table κ ρ) (k : κ) : t.put k (t.find k) = t := by
  apply ext_find
  intro k'
  rw [find_put]
  split
  · rename_i h
    rw [h]
  · rfl

theorem insert_eq_put (h : t.find k = none) (row : ρ) :
    (RowWrite.insert k row).apply t = t.put k (some row) := by
  apply ext_find
  intro k'
  by_cases hk : k' = k
  · subst hk
    simp [RowWrite.leaves, h]
  · simp [RowWrite.leaves, hk]

theorem update_eq_put {row : ρ} (h : t.find k = some row) (f : ρ → ρ) :
    (RowWrite.update {k} f).apply t = t.put k (some (f row)) := by
  apply ext_find
  intro k'
  by_cases hk : k' = k
  · subst hk
    simp [h]
  · simp [hk]

theorem delete_eq_put (t : Table κ ρ) (k : κ) :
    (RowWrite.delete {k} : RowWrite κ ρ).apply t = t.put k none := by
  apply ext_find
  intro k'
  simp

/-- The rows under the keys that satisfy a predicate. -/
def onKeys (t : Table κ ρ) (p : κ → Bool) : Table κ ρ :=
  t.filter fun k _ => p k

@[simp]
theorem find_onKeys (t : Table κ ρ) (p : κ → Bool) (k : κ) :
    (t.onKeys p).find k = if p k then t.find k else none := by
  rw [onKeys, find_filter]
  cases t.find k <;> cases p k <;> simp

theorem onKeys_put_self {p : κ → Bool} (h : p k = true) (row : Option ρ) :
    (t.put k row).onKeys p = (t.onKeys p).put k row := by
  apply ext_find
  intro k'
  by_cases hk : k' = k
  · subst hk
    simp [h]
  · simp [hk]

theorem onKeys_put_other {p : κ → Bool} (h : p k = false) (row : Option ρ) :
    (t.put k row).onKeys p = t.onKeys p := by
  apply ext_find
  intro k'
  by_cases hk : k' = k
  · subst hk
    simp [h]
  · simp [hk]

end Table

/-! ## Rows by owner -/

namespace Table

variable {κ ρ ω : Type} [DecidableEq κ] [DecidableEq ω]

/-- The rows of one owner. -/
def ownedBy (owner : ρ → ω) (t : Table κ ρ) (u : ω) : Table κ ρ :=
  t.filter fun _ r => owner r == u

variable {owner : ρ → ω} {t : Table κ ρ} {u v : ω} {k : κ}

@[simp]
theorem find_ownedBy : (ownedBy owner t u).find k = (t.find k).filter fun r => owner r == u :=
  find_filter ..

@[simp]
theorem ownedBy_empty : ownedBy owner (∅ : Table κ ρ) u = ∅ := by
  apply ext_find
  simp

@[simp]
theorem ownedBy_ownedBy : ownedBy owner (ownedBy owner t u) u = ownedBy owner t u := by
  apply ext_find
  simp [Option.filter_filter]

/-- A table is made of what its owners have. -/
theorem ext_ownedBy (owner : ρ → ω) {t t' : Table κ ρ}
    (h : ∀ u, ownedBy owner t u = ownedBy owner t' u) : t = t' := by
  have hsub : ∀ {a b : Table κ ρ}, (∀ u, ownedBy owner a u = ownedBy owner b u) →
      ∀ k r, a.find k = some r → b.find k = some r := by
    intro a b hab k r hr
    have hown : (ownedBy owner a (owner r)).find k = some r := by simp [hr]
    rw [hab, find_ownedBy] at hown
    exact (Option.filter_eq_some_iff.mp hown).1
  apply ext_find
  intro k
  refine Option.ext fun r => ?_
  exact ⟨hsub h k r, hsub (fun u => (h u).symm) k r⟩

theorem ownedBy_ownedBy_of_ne (h : u ≠ v) : ownedBy owner (ownedBy owner t u) v = ∅ := by
  apply ext_find
  intro k
  cases hfind : t.find k with
  | none => simp [hfind]
  | some r => by_cases hr : owner r = u <;> simp [hfind, hr, h, Option.filter]

theorem anyRow_owned (q : κ → ρ → Bool) :
    (t.anyRow fun k r => owner r == u && q k r) = (ownedBy owner t u).anyRow q :=
  (anyRow_filter t _ q).symm

omit [DecidableEq κ] in
theorem count_owned : (t.count fun _ r => owner r == u) = (ownedBy owner t u).entries.card :=
  count_eq_card_filter t _

/-- A key is free when no owner has a row under it. -/
theorem find_eq_none_iff_ownedBy (owner : ρ → ω) :
    t.find k = none ↔ ∀ u, (ownedBy owner t u).find k = none := by
  cases hfind : t.find k with
  | none => simp [hfind]
  | some r => simp [hfind, Option.filter]

/-- A key that no other owner has, and the same owner neither, is free. -/
theorem find_eq_none_of_ownedBy {t' : Table κ ρ}
    (hown : ownedBy owner t u = ownedBy owner t' u) (hnew : t.find k = none)
    (hothers : ∀ u', u' ≠ u → (ownedBy owner t' u').find k = none) : t'.find k = none := by
  rw [find_eq_none_iff_ownedBy owner]
  intro u'
  by_cases hu' : u' = u
  · rw [hu', ← hown]
    exact (find_eq_none_iff_ownedBy owner).mp hnew u
  · exact hothers u' hu'

/-- A condition that only one owner's rows meet selects among them. -/
theorem filter_find_owned {p : ρ → Bool} (hp : ∀ r, p r = true → owner r = u) :
    (t.find k).filter p = ((ownedBy owner t u).find k).filter p := by
  rw [find_ownedBy, Option.filter_filter]
  congr 1
  funext r
  cases hr : p r with
  | false => simp
  | true => simp [hp r hr]

theorem ownedBy_insert {row : ρ} (hnew : t.find k = none) :
    ownedBy owner ((RowWrite.insert k row).apply t) u =
      if owner row = u then (RowWrite.insert k row).apply (ownedBy owner t u)
      else ownedBy owner t u := by
  apply ext_find
  intro k'
  by_cases hk : k' = k
  · subst hk
    by_cases hu : owner row = u <;> simp [hu, hnew, RowWrite.leaves, Option.filter]
  · by_cases hu : owner row = u <;> simp [hu, hk, RowWrite.leaves]

/-- A deletion takes its keys from every owner. -/
theorem ownedBy_delete (ks : Finset κ) :
    ownedBy owner ((RowWrite.delete ks).apply t) u =
      (RowWrite.delete ks).apply (ownedBy owner t u) := by
  apply ext_find
  intro k'
  by_cases hk : k' ∈ ks <;> simp [RowWrite.leaves, hk]

/-- Deleting a row of one owner leaves the others alone. -/
theorem ownedBy_delete_of_ne {r : ρ} (hfind : t.find k = some r) (h : owner r ≠ u) :
    ownedBy owner ((RowWrite.delete {k}).apply t) u = ownedBy owner t u := by
  apply ext_find
  intro k'
  by_cases hk : k' = k
  · subst hk
    simp [hfind, Option.filter, h]
  · simp [hk]

/-- Deleting all rows of one owner leaves the others alone. -/
theorem ownedBy_deleteOwned :
    ownedBy owner ((RowWrite.delete (t.keysWhere fun _ r => owner r == v)).apply t) u =
      if u = v then ∅ else ownedBy owner t u := by
  apply ext_find
  intro k'
  by_cases hu : u = v
  · subst hu
    simp [Option.filter_filter]
  · simp only [find_ownedBy, RowWrite.find_apply, RowWrite.leaves_deleteWhere, hu, if_false]
    cases t.find k' with
    | none => rfl
    | some r => by_cases hv : owner r = v <;> simp [hv, Option.filter, Ne.symm hu]

/-- Updating all rows of one owner leaves the others alone. -/
theorem ownedBy_updateOwned {f : ρ → ρ} (hf : ∀ r, owner (f r) = owner r) :
    ownedBy owner ((RowWrite.update (t.keysWhere fun _ r => owner r == v) f).apply t) u =
      if u = v then (ownedBy owner t u).mapRows fun _ r => f r else ownedBy owner t u := by
  apply ext_find
  intro k'
  by_cases hu : u = v
  · simp only [hu, if_true, find_mapRows, find_ownedBy, RowWrite.find_apply,
      RowWrite.leaves_updateWhere]
    cases t.find k' with
    | none => rfl
    | some r => by_cases hv : owner r = v <;> simp [hv, hf, Option.filter]
  · simp only [hu, if_false, find_ownedBy, RowWrite.find_apply, RowWrite.leaves_updateWhere]
    cases t.find k' with
    | none => rfl
    | some r => by_cases hv : owner r = v <;> simp [hv, hf, Option.filter, Ne.symm hu]

end Table

end PowerManage.Relational
