import Mathlib.Data.List.Nodup

/-!
# Newest-wins mailboxes

Versioned values, one current value per key, on their way to a consumer that
may be slower than their producers.  What was not taken yet is replaced by a
newer value of its key; a taken value is held by the carrier, then buffered,
then delivered, and can be put back before it is delivered.

The values that were taken, in the order of delivery, form one list.  Handing a
value from the carrier to the buffer and from there to the consumer leaves that
list as it is, which is why the order of delivery needs no argument of its own.

Main results:

- `Mailbox.Ordered.merge`: a value that is newer than those of its key
  that were taken keeps the mailbox in order.
- `Mailbox.Ordered.last_delivered`: the last delivery of a key is its
  newest.
-/

namespace PowerManage.Concurrent

open List

variable {K V : Type} [DecidableEq K] {key : V → K}

/-! ## One value per key -/

/-- Values with distinct keys. -/
structure Keyed (key : V → K) where
  entries : List V
  distinct : entries.Pairwise fun x y => key x ≠ key y

namespace Keyed

/-- No value. -/
def empty : Keyed key := ⟨[], List.Pairwise.nil⟩

/-- The value of a key. -/
def find (m : Keyed key) (k : K) : Option V :=
  m.entries.find? fun x => key x == k

/-- Drop the value of a key. -/
def erase (m : Keyed key) (k : K) : Keyed key where
  entries := m.entries.filter fun x => key x != k
  distinct := m.distinct.filter _

/-- Set the value of a key. -/
def insert (m : Keyed key) (v : V) : Keyed key where
  entries := v :: (m.erase (key v)).entries
  distinct := by
    refine pairwise_cons.mpr ⟨?_, (m.erase (key v)).distinct⟩
    intro x hx
    have hne : key x ≠ key v := by simpa [erase] using (mem_filter.mp hx).2
    exact fun h => hne h.symm

variable {m : Keyed key}

theorem mem_erase {k : K} {x : V} : x ∈ (m.erase k).entries ↔ x ∈ m.entries ∧ key x ≠ k := by
  simp [erase]

theorem mem_insert {v x : V} :
    x ∈ (m.insert v).entries ↔ x = v ∨ x ∈ m.entries ∧ key x ≠ key v := by
  rw [insert, mem_cons, mem_erase]

omit [DecidableEq K] in
theorem eq_of_mem {x y : V} (hx : x ∈ m.entries) (hy : y ∈ m.entries) (h : key x = key y) :
    x = y := by
  have hnodup : (m.entries.map key).Nodup := pairwise_map.mpr m.distinct
  exact inj_on_of_nodup_map hnodup hx hy h

theorem find_eq_some {k : K} {x : V} : m.find k = some x ↔ x ∈ m.entries ∧ key x = k := by
  constructor
  · intro h
    exact ⟨mem_of_find?_eq_some h, by simpa using find?_some h⟩
  · rintro ⟨hx, rfl⟩
    cases hfind : m.find (key x) with
    | none =>
      have hnone := find?_eq_none.mp hfind x hx
      simp at hnone
    | some y =>
      have hy : key y = key x := by simpa using find?_some hfind
      rw [eq_of_mem hx (mem_of_find?_eq_some hfind) hy.symm]

theorem find_eq_none {k : K} : m.find k = none ↔ ∀ x ∈ m.entries, key x ≠ k := by
  simp [find]

end Keyed

/-! ## Mailboxes -/

/-- What one consumer has been and will be given. -/
structure Mailbox (key : V → K) where
  pending : Keyed key
  held : Option V
  buffer : Option V
  delivered : List V

namespace Mailbox

variable {version : V → Int} {m m' : Mailbox key} {v x : V}

/-- Nothing yet. -/
def empty : Mailbox key := ⟨Keyed.empty, none, none, []⟩

/-- The values that left the pending ones, in the order of delivery. -/
def taken (m : Mailbox key) : List V :=
  m.delivered ++ m.buffer.toList ++ m.held.toList

/-- Everything that the mailbox was given and did not replace. -/
def Has (m : Mailbox key) (x : V) : Prop :=
  x ∈ m.taken ∨ x ∈ m.pending.entries

/-- Add a value unless one of its key that is pending is as new. -/
def merge (version : V → Int) (v : V) (m : Mailbox key) : Mailbox key :=
  match m.pending.find (key v) with
  | none => { m with pending := m.pending.insert v }
  | some current =>
    if version current < version v then { m with pending := m.pending.insert v } else m

/-- The carrier takes a pending value. -/
def take (v : V) (m : Mailbox key) : Mailbox key :=
  { m with pending := m.pending.erase (key v), held := some v }

/-- The carrier puts its value into the buffer. -/
def send (v : V) (m : Mailbox key) : Mailbox key :=
  { m with held := none, buffer := some v }

/-- The consumer is given the buffered value. -/
def receive (v : V) (m : Mailbox key) : Mailbox key :=
  { m with buffer := none, delivered := m.delivered ++ [v] }

/-- The carrier takes the buffered value back. -/
def reclaim (v : V) (m : Mailbox key) : Mailbox key :=
  { m with buffer := none, held := some v }

/-- The carrier makes its value pending again. -/
def requeue (version : V → Int) (v : V) (m : Mailbox key) : Mailbox key :=
  merge version v { m with held := none }

variable (version) in
/-- Values of one key are taken in the order of their versions, and those that are
pending are newer. -/
structure Ordered (m : Mailbox key) : Prop where
  taken : m.taken.Pairwise fun x y => key x = key y → version x < version y
  pending : ∀ x ∈ m.taken, ∀ y ∈ m.pending.entries, key x = key y → version x < version y

variable (version) in
/-- A value is added when those of its key that are pending are older. -/
theorem merge_cases (v : V) (m : Mailbox key) :
    (m.merge version v = { m with pending := m.pending.insert v } ∧
      ∀ y ∈ m.pending.entries, key y = key v → version y < version v) ∨
    m.merge version v = m ∧ ∃ y ∈ m.pending.entries, key y = key v ∧ version v ≤ version y := by
  unfold merge
  split
  · rename_i hnone
    exact .inl ⟨rfl, fun y hy hkey => absurd hkey (Keyed.find_eq_none.mp hnone y hy)⟩
  · rename_i current hsome
    obtain ⟨hcurrent, hkey⟩ := Keyed.find_eq_some.mp hsome
    split
    · rename_i hnewer
      refine .inl ⟨rfl, fun y hy hkey' => ?_⟩
      rwa [Keyed.eq_of_mem hy hcurrent (hkey'.trans hkey.symm)]
    · rename_i hnewer
      exact .inr ⟨rfl, current, hcurrent, hkey, Int.not_lt.mp hnewer⟩

@[simp]
theorem merge_taken (v : V) (m : Mailbox key) : (m.merge version v).taken = m.taken := by
  rcases merge_cases version v m with ⟨h, -⟩ | ⟨h, -⟩ <;> simp [h, taken]

omit [DecidableEq K] in
theorem send_taken (hheld : m.held = some v) (hbuffer : m.buffer = none) :
    (m.send v).taken = m.taken := by
  simp [send, taken, hheld, hbuffer]

omit [DecidableEq K] in
theorem receive_taken (hbuffer : m.buffer = some v) : (m.receive v).taken = m.taken := by
  simp [receive, taken, hbuffer]

omit [DecidableEq K] in
theorem reclaim_taken (hbuffer : m.buffer = some v) (hheld : m.held = none) :
    (m.reclaim v).taken = m.taken := by
  simp [reclaim, taken, hbuffer, hheld]

theorem merge_held (v : V) (m : Mailbox key) : (m.merge version v).held = m.held := by
  rcases merge_cases version v m with ⟨h, -⟩ | ⟨h, -⟩ <;> simp [h]

/-- What is pending after a value was added: it, or what was pending. -/
theorem mem_merge (hx : x ∈ (m.merge version v).pending.entries) :
    x ∈ m.pending.entries ∨ x = v ∧ ∀ y ∈ m.pending.entries, key y = key v →
      version y < version v := by
  rcases merge_cases version v m with ⟨h, hnewer⟩ | ⟨h, -⟩ <;> rw [h] at hx
  · rcases Keyed.mem_insert.mp hx with rfl | hold
    · exact .inr ⟨rfl, hnewer⟩
    · exact .inl hold.1
  · exact .inl hx

variable (version) in
/-- After a value was added, one of its key that is as new is pending. -/
theorem merge_newest (v : V) (m : Mailbox key) :
    ∃ y ∈ (m.merge version v).pending.entries, key y = key v ∧ version v ≤ version y := by
  rcases merge_cases version v m with ⟨h, -⟩ | ⟨h, hnewest⟩ <;> rw [h]
  · exact ⟨v, Keyed.mem_insert.mpr (.inl rfl), rfl, Int.le_refl _⟩
  · exact hnewest

variable (version) (v) in
/-- What was pending is still, or was replaced by a newer value of its key. -/
theorem merge_keeps (hx : x ∈ m.pending.entries) :
    ∃ y ∈ (m.merge version v).pending.entries, key y = key x ∧ version x ≤ version y := by
  rcases merge_cases version v m with ⟨h, hnewer⟩ | ⟨h, -⟩ <;> rw [h]
  · by_cases hkey : key x = key v
    · exact ⟨v, Keyed.mem_insert.mpr (.inl rfl), hkey.symm, Int.le_of_lt (hnewer x hx hkey)⟩
    · exact ⟨x, Keyed.mem_insert.mpr (.inr ⟨hx, hkey⟩), rfl, Int.le_refl _⟩
  · exact ⟨x, hx, rfl, Int.le_refl _⟩

/-! ### Nothing is lost -/

variable (version) in
/-- Whatever the one mailbox has, the other has as new a value of its key. -/
def Keeps (m m' : Mailbox key) : Prop :=
  ∀ x, m.Has x → ∃ y, m'.Has y ∧ key y = key x ∧ version x ≤ version y

omit [DecidableEq K] in
theorem Keeps.of_has (h : ∀ x, m.Has x → m'.Has x) : m.Keeps version m' :=
  fun x hx => ⟨x, h x hx, rfl, Int.le_refl _⟩

variable (version) in
theorem keeps_merge (v : V) (m : Mailbox key) : m.Keeps version (m.merge version v) := by
  intro x hx
  rcases hx with hx | hx
  · exact ⟨x, .inl (by rwa [merge_taken]), rfl, Int.le_refl _⟩
  · obtain ⟨y, hy, hkey, hle⟩ := merge_keeps version v hx
    exact ⟨y, .inr hy, hkey, hle⟩

theorem keeps_take (hv : v ∈ m.pending.entries) (hheld : m.held = none) :
    m.Keeps version (m.take v) := by
  refine Keeps.of_has fun x hx => ?_
  rcases hx with hx | hx
  · refine .inl ?_
    simp only [taken, take, hheld, mem_append] at hx ⊢
    simpa using Or.inl hx
  · by_cases hkey : key x = key v
    · refine .inl ?_
      simp [taken, take, Keyed.eq_of_mem hx hv hkey]
    · exact .inr (Keyed.mem_erase.mpr ⟨hx, hkey⟩)

omit [DecidableEq K] in
theorem Keeps.of_taken (htaken : m'.taken = m.taken) (hpending : m'.pending = m.pending) :
    m.Keeps version m' :=
  Keeps.of_has fun x hx => by rwa [Has, htaken, hpending]

theorem keeps_requeue (hheld : m.held = some v) : m.Keeps version (m.requeue version v) := by
  intro x hx
  have htaken : m.taken = ({ m with held := none } : Mailbox key).taken ++ [v] := by
    simp [taken, hheld]
  have hmerge := keeps_merge version v { m with held := none } x
  rcases hx with hx | hx
  · rw [htaken, mem_append, mem_singleton] at hx
    rcases hx with hx | rfl
    · exact hmerge (.inl hx)
    · obtain ⟨y, hy, hkey, hle⟩ := merge_newest version x { m with held := none }
      exact ⟨y, .inr hy, hkey, hle⟩
  · exact hmerge (.inr hx)

/-! ### The order of delivery -/

namespace Ordered

/-- Adding a value keeps the order when those of its key that were taken are older,
or one of its key is still pending. -/
theorem merge (h : m.Ordered version) (hv : (∃ y ∈ m.pending.entries, key y = key v) ∨
    ∀ y ∈ m.taken, key y = key v → version y < version v) :
    (m.merge version v).Ordered version := by
  refine ⟨by rw [merge_taken]; exact h.taken, ?_⟩
  rw [merge_taken]
  intro x hx y hy hkey
  rcases mem_merge hy with hold | ⟨rfl, hnewer⟩
  · exact h.pending x hx y hold hkey
  · rcases hv with ⟨z, hz, hzkey⟩ | hnew
    · exact Int.lt_trans (h.pending x hx z hz (hkey.trans hzkey.symm)) (hnewer z hz hzkey)
    · exact hnew x hx hkey

/-- The carrier takes a value only while it holds none. -/
theorem take (h : m.Ordered version) (hv : v ∈ m.pending.entries) (hheld : m.held = none) :
    (m.take v).Ordered version := by
  have htaken : (m.take v).taken = m.taken ++ [v] := by
    simp [Mailbox.take, Mailbox.taken, hheld]
  refine ⟨?_, ?_⟩
  · rw [htaken, pairwise_append]
    refine ⟨h.taken, pairwise_singleton _ _, ?_⟩
    intro x hx y hy hkey
    rw [mem_singleton] at hy
    subst hy
    exact h.pending x hx y hv hkey
  · intro x hx y hy hkey
    obtain ⟨hy, hne⟩ := Keyed.mem_erase.mp hy
    rw [htaken, mem_append, mem_singleton] at hx
    rcases hx with hx | rfl
    · exact h.pending x hx y hy hkey
    · exact absurd hkey.symm hne

omit [DecidableEq K] in
theorem of_taken (h : m.Ordered version) (htaken : m'.taken = m.taken)
    (hpending : m'.pending = m.pending) : m'.Ordered version :=
  ⟨htaken ▸ h.taken, by rw [htaken, hpending]; exact h.pending⟩

/-- The value put back is newer than the others of its key that were taken. -/
theorem requeue (h : m.Ordered version) (hheld : m.held = some v) :
    (m.requeue version v).Ordered version := by
  have htaken : m.taken = ({ m with held := none } : Mailbox key).taken ++ [v] := by
    simp [Mailbox.taken, hheld]
  have hordered := h.taken
  rw [htaken, pairwise_append] at hordered
  obtain ⟨hothers, -, hlast⟩ := hordered
  have hrest : ({ m with held := none } : Mailbox key).Ordered version := by
    refine ⟨hothers, fun x hx y hy hkey => h.pending x ?_ y hy hkey⟩
    rw [htaken]
    exact mem_append_left _ hx
  refine hrest.merge (.inr fun y hy hkey => ?_)
  exact hlast y hy v mem_cons_self hkey

/-- The last delivery of a key is its newest. -/
theorem last_delivered (h : m.Ordered version) (hx : x ∈ m.delivered) :
    ∃ y, (m.delivered.filter fun y => key y = key x).getLast? = some y ∧
      version x ≤ version y := by
  have hmem : x ∈ m.delivered.filter fun y => key y = key x :=
    mem_filter.mpr ⟨hx, by simp⟩
  have hordered : (m.delivered.filter fun y => key y = key x).Pairwise
      fun x y => key x = key y → version x < version y := by
    have htaken := h.taken
    rw [Mailbox.taken, append_assoc, pairwise_append] at htaken
    exact htaken.1.filter _
  have hne : (m.delivered.filter fun y => key y = key x) ≠ [] := ne_nil_of_mem hmem
  refine ⟨_, getLast?_eq_some_getLast hne, ?_⟩
  rw [← dropLast_append_getLast hne, pairwise_append] at hordered
  rw [← dropLast_append_getLast hne, mem_append, mem_singleton] at hmem
  rcases hmem with hmem | hmem
  · have hlast := hordered.2.2 x hmem _ mem_cons_self
    have hkey := (mem_filter.mp (getLast_mem hne)).2
    exact Int.le_of_lt (hlast (of_decide_eq_true hkey).symm)
  · exact hmem ▸ Int.le_refl _

end Ordered

end Mailbox

end PowerManage.Concurrent
