import Mathlib.Data.List.Basic

/-!
# Transaction bodies as statement programs

The body of a database transaction is a finite tree of statements.  A statement
sees the transaction's current view of the database, either fails or produces a
list of writes, takes locks, and hands the rest of the body what it read.  The
same program has a serial meaning (`run`) and, in the modules above this
one, an interleaved meaning in which other transactions commit between two of
its statements.

Main results:

- `run_bind`: the serial meaning of a sequence.
- `Writes.bind`: the writes of a sequence are the writes of its parts.
- `run_eq_applyAll`: a successful serial run is the application of
  writes that all satisfy the program's write predicate.
-/

namespace PowerManage.Relational

/-- Writes of type `W` act on databases of type `D`. -/
class Applies (W D : Type) where
  apply : W → D → D

/-- Apply a list of writes, first write first. -/
def applyAll {W D : Type} [Applies W D] (ws : List W) (d : D) : D :=
  ws.foldl (fun d w => Applies.apply w d) d

section applyAll

variable {W D : Type} [Applies W D]

@[simp]
theorem applyAll_nil (d : D) : applyAll ([] : List W) d = d :=
  rfl

@[simp]
theorem applyAll_cons (w : W) (ws : List W) (d : D) :
    applyAll (w :: ws) d = applyAll ws (Applies.apply w d) :=
  rfl

/-- Lists of writes apply one after the other. -/
@[simp]
theorem applyAll_append (ws ws' : List W) (d : D) :
    applyAll (ws ++ ws') d = applyAll ws' (applyAll ws d) := by
  simp [applyAll]

/-- A property of databases that every write of a list preserves survives the
whole list. -/
theorem applyAll_induction {P : D → Prop} {ws : List W}
    (hstep : ∀ w ∈ ws, ∀ d, P d → P (Applies.apply w d)) {d : D} (hd : P d) :
    P (applyAll ws d) := by
  induction ws generalizing d with
  | nil => exact hd
  | cons w ws ih =>
    apply ih
    · intro w' hw'
      exact hstep w' (List.mem_cons_of_mem _ hw')
    · exact hstep w List.mem_cons_self d hd

end applyAll

/-! ## Success of fallible computations -/

section success

variable {ε α β : Type}

variable {x : Except ε α}

/-- A sequence succeeds when both parts do. -/
theorem bind_eq_ok {f : α → Except ε β} {b : β} :
    x >>= f = .ok b ↔ ∃ a, x = .ok a ∧ f a = .ok b := by
  cases x <;> simp [bind, Except.bind]

/-- A check that answers nothing, before the rest. -/
theorem check_bind_eq_ok {ε β : Type} {x : Except ε Unit} {f : Unit → Except ε β} {b : β} :
    (x >>= f) = .ok b ↔ x = .ok () ∧ f () = .ok b := by
  rw [bind_eq_ok]
  exact ⟨fun ⟨_, h⟩ => h, fun h => ⟨(), h⟩⟩

@[simp]
theorem mapError_eq_ok {ε' : Type} {f : ε → ε'} {a : α} : x.mapError f = .ok a ↔ x = .ok a := by
  cases x <;> simp [Except.mapError]

@[simp]
theorem map_eq_ok {f : α → β} {b : β} : x.map f = .ok b ↔ ∃ a, x = .ok a ∧ f a = b := by
  cases x <;> simp [Except.map]

/-- A guard that passes leaves the rest. -/
@[simp]
theorem ite_error_eq_ok {p : Prop} [Decidable p] {e : ε} {a : α} :
    (if p then .error e else x) = .ok a ↔ ¬ p ∧ x = .ok a := by
  by_cases hp : p <;> simp [hp]

theorem ite_ok_eq_ok {p : Prop} [Decidable p] {e : ε} {a b : α} :
    (if p then .ok a else .error e : Except ε α) = .ok b ↔ p ∧ a = b := by
  by_cases hp : p <;> simp [hp]

end success

/-- A transaction body over views `D`, writes `W`, lock keys `K`
and errors `ε`. -/
inductive Prog (D W K ε α : Type) : Type where
  | ret (a : α)
  | fail (e : ε)
  | stmt (locks : D → List K) (exec : D → Except ε (List W))
      (next : D → Prog D W K ε α)

namespace Prog

variable {D W K ε α β : Type}

/-- Sequence two program parts. -/
def bind : Prog D W K ε α → (α → Prog D W K ε β) → Prog D W K ε β
  | ret a, f => f a
  | fail e, _ => fail e
  | stmt locks exec next, f => stmt locks exec fun d => (next d).bind f

instance : Monad (Prog D W K ε) where
  pure := ret
  bind := bind

/-- Add context to every error a program can fail with. -/
def mapError (f : ε → ε) : Prog D W K ε α → Prog D W K ε α
  | ret a => ret a
  | fail e => fail (f e)
  | stmt locks exec next =>
    stmt locks (fun d => (exec d).mapError f) fun d => (next d).mapError f

/-- One statement that locks, writes and answers. -/
def statement (locks : D → List K) (exec : D → Except ε (List W × α)) : Prog D W K ε α :=
  stmt locks (fun d => (exec d).map Prod.fst) fun d =>
    match exec d with
    | .ok (_, a) => ret a
    | .error e => fail e

/-- One statement that only reads. -/
def query (read : D → Except ε α) : Prog D W K ε α :=
  statement (fun _ => []) fun d => (read d).map ([], ·)

/-- Fail unless a check on data already at hand passes. -/
def require (ok : Bool) (e : ε) : Prog D W K ε Unit :=
  if ok then ret () else fail e

/-- Continue with a value already at hand, or fail with its error. -/
def ofExcept : Except ε α → Prog D W K ε α
  | .ok a => ret a
  | .error e => fail e

/-- One statement that checks and then writes. -/
def write (locks : D → List K) (check : D → Except ε Unit) (ws : D → List W) : Prog D W K ε Unit :=
  statement locks fun d => (check d).map fun _ => (ws d, ())

/-- One statement that changes at most one row: the one its condition selects. -/
def affect {ρ : Type} (locks : D → List K) (row : D → Option ρ)
    (change : D → ρ → Except ε (List W)) : Prog D W K ε Nat :=
  statement locks fun d =>
    match row d with
    | none => .ok ([], 0)
    | some r => (change d r).map (·, 1)

/-- One statement that must change exactly one row; the first error adds context
to a failing statement, the second reports that no row was selected. -/
def affectOne {ρ : Type} (locks : D → List K) (row : D → Option ρ)
    (change : D → ρ → Except ε (List W)) (context : ε → ε) (none : ε) : Prog D W K ε Unit :=
  ((affect locks row change).mapError context).bind fun affected =>
    require (affected == 1) none

/-- Run a part for every element of a list, in order. -/
def forEach (body : β → Prog D W K ε Unit) : List β → Prog D W K ε Unit
  | [] => ret ()
  | x :: xs => (body x).bind fun _ => forEach body xs

/-- The same program over a larger set of writes and lock keys. -/
def embed {W' K' : Type} (fw : W → W') (fk : K → K') :
    Prog D W K ε α → Prog D W' K' ε α
  | ret a => ret a
  | fail e => fail e
  | stmt locks exec next =>
    stmt (fun d => (locks d).map fk) (fun d => (exec d).map (List.map fw)) fun d =>
      (next d).embed fw fk

@[simp]
theorem pure_eq (a : α) : (pure a : Prog D W K ε α) = ret a :=
  rfl

@[simp]
theorem bind_eq (p : Prog D W K ε α) (f : α → Prog D W K ε β) : p >>= f = p.bind f :=
  rfl

@[simp]
theorem ret_bind (a : α) (f : α → Prog D W K ε β) : (ret a : Prog D W K ε α).bind f = f a :=
  rfl

@[simp]
theorem fail_bind (e : ε) (f : α → Prog D W K ε β) : (fail e : Prog D W K ε α).bind f = fail e :=
  rfl

/-! ## Serial meaning -/

section run

variable [Applies W D]

/-- Execute a program with no other transaction in between. -/
def run : Prog D W K ε α → D → Except ε (α × D)
  | ret a, d => .ok (a, d)
  | fail e, _ => .error e
  | stmt _ exec next, d =>
    match exec d with
    | .ok ws => (next d).run (applyAll ws d)
    | .error e => .error e

@[simp]
theorem run_ret (a : α) (d : D) : (ret a : Prog D W K ε α).run d = .ok (a, d) :=
  rfl

@[simp]
theorem run_fail (e : ε) (d : D) : (fail e : Prog D W K ε α).run d = .error e :=
  rfl

/-- A sequence runs its first part, then the second on the resulting view. -/
theorem run_bind (p : Prog D W K ε α) (f : α → Prog D W K ε β) (d : D) :
    (p.bind f).run d =
      match p.run d with
      | .ok (a, d') => (f a).run d'
      | .error e => .error e := by
  induction p generalizing d with
  | ret a => rfl
  | fail e => rfl
  | stmt locks exec next ih =>
    simp only [bind, run]
    cases exec d with
    | error e => rfl
    | ok ws => exact ih d _

variable {p : Prog D W K ε α} {d d' : D} {locks : D → List K}

/-- A run in two parts. -/
theorem run_bind_ok {f : α → Prog D W K ε β} {d'' : D} {b : β} :
    (p.bind f).run d = .ok (b, d'') ↔
      ∃ a d', p.run d = .ok (a, d') ∧ (f a).run d' = .ok (b, d'') := by
  rw [run_bind]
  cases p.run d with
  | error e => simp
  | ok r =>
    constructor
    · intro h
      exact ⟨r.1, r.2, rfl, h⟩
    · rintro ⟨a, d', hr, h⟩
      cases hr
      exact h

@[simp]
theorem run_statement (locks : D → List K) (exec : D → Except ε (List W × α)) (d : D) :
    (statement locks exec).run d =
      (exec d).map fun r => (r.2, applyAll r.1 d) := by
  cases h : exec d with
  | error e => simp [statement, run, h, Except.map]
  | ok r => simp [statement, run, h, Except.map]

@[simp]
theorem run_query (read : D → Except ε α) (d : D) :
    (query read : Prog D W K ε α).run d = (read d).map (·, d) := by
  cases h : read d <;> simp [query, h, Except.map]

@[simp]
theorem run_require (ok : Bool) (e : ε) (d : D) :
    (require ok e : Prog D W K ε Unit).run d = if ok then .ok ((), d) else .error e := by
  cases ok <;> rfl

@[simp]
theorem run_ofExcept (x : Except ε α) (d : D) :
    (ofExcept x : Prog D W K ε α).run d = x.map (·, d) := by
  cases x <;> rfl

/-- Error context changes no successful run. -/
theorem run_mapError (f : ε → ε) (p : Prog D W K ε α) (d : D) :
    (p.mapError f).run d = (p.run d).mapError f := by
  induction p generalizing d with
  | ret a => rfl
  | fail e => rfl
  | stmt locks exec next ih =>
    simp only [mapError, run]
    cases exec d with
    | error e => rfl
    | ok ws => exact ih d _

/-! ### Successful runs -/

theorem run_ret_ok {a b : α} : (ret a : Prog D W K ε α).run d = .ok (b, d') ↔ b = a ∧ d' = d := by
  simp [eq_comm]

variable {a : α}

theorem run_query_ok {read : D → Except ε α} :
    (query read : Prog D W K ε α).run d = .ok (a, d') ↔ read d = .ok a ∧ d' = d := by
  cases h : read d <;> simp [h, Except.map, eq_comm]

variable {e : ε} {u : Unit}

theorem run_require_ok {ok : Bool} :
    (require ok e : Prog D W K ε Unit).run d = .ok (u, d') ↔ ok = true ∧ d' = d := by
  cases ok <;> simp [eq_comm]

theorem run_ofExcept_ok {x : Except ε α} :
    (ofExcept x : Prog D W K ε α).run d = .ok (a, d') ↔ x = .ok a ∧ d' = d := by
  cases x <;> simp [Except.map, eq_comm]

theorem run_mapError_ok {f : ε → ε} {r : α × D} :
    (p.mapError f).run d = .ok r ↔ p.run d = .ok r := by
  rw [run_mapError, mapError_eq_ok]

/-- The first or the second part fails. -/
theorem run_bind_error {f : α → Prog D W K ε β} (h : (p.bind f).run d = .error e) :
    p.run d = .error e ∨ ∃ a d', p.run d = .ok (a, d') ∧ (f a).run d' = .error e := by
  rw [run_bind] at h
  cases hp : p.run d with
  | error e' =>
    simp only [hp] at h
    exact .inl (by rw [Except.error.inj h])
  | ok r =>
    simp only [hp] at h
    exact .inr ⟨r.1, r.2, rfl, h⟩

theorem run_mapError_error {f : ε → ε} (h : (p.mapError f).run d = .error e) : ∃ e', f e' = e := by
  rw [run_mapError] at h
  cases hp : p.run d with
  | error e' =>
    rw [hp] at h
    exact ⟨e', Except.error.inj h⟩
  | ok r =>
    rw [hp] at h
    cases h

theorem run_require_error {ok : Bool} {e e' : ε}
    (h : (require ok e : Prog D W K ε Unit).run d = .error e') : ok = false ∧ e = e' := by
  cases ok with
  | true => simp at h
  | false => exact ⟨rfl, by simpa using h⟩

/-- Writes apply once their check passes. -/
theorem run_write_ok {check : D → Except ε Unit} {ws : D → List W} :
    (write locks check ws).run d = .ok (u, d') ↔
      check d = .ok () ∧ d' = applyAll (ws d) d := by
  cases h : check d <;> simp [write, h, Except.map, eq_comm]

/-- A statement applies its writes. -/
theorem run_statement_ok {exec : D → Except ε (List W × α)} :
    (statement locks exec).run d = .ok (a, d') ↔
      ∃ ws, exec d = .ok (ws, a) ∧ d' = applyAll ws d := by
  rw [run_statement, map_eq_ok]
  constructor
  · rintro ⟨⟨ws, b⟩, hexec, hpair⟩
    cases hpair
    exact ⟨ws, hexec, rfl⟩
  · rintro ⟨ws, hexec, rfl⟩
    exact ⟨(ws, a), hexec, rfl⟩

/-- No row or one is affected. -/
theorem run_affect_ok {ρ : Type} {row : D → Option ρ} {change : D → ρ → Except ε (List W)}
    {n : Nat} :
    (affect locks row change).run d = .ok (n, d') ↔
      (row d = none ∧ n = 0 ∧ d' = d) ∨
        ∃ r ws, row d = some r ∧ change d r = .ok ws ∧ n = 1 ∧ d' = applyAll ws d := by
  rw [affect, run_statement_ok]
  cases hrow : row d with
  | none =>
    simp only [Except.ok.injEq, Prod.mk.injEq, true_and, reduceCtorEq, false_and, exists_false,
      or_false]
    constructor
    · rintro ⟨ws, ⟨rfl, rfl⟩, rfl⟩
      exact ⟨rfl, rfl⟩
    · rintro ⟨rfl, rfl⟩
      exact ⟨[], ⟨rfl, rfl⟩, rfl⟩
  | some r =>
    simp only [map_eq_ok, Prod.mk.injEq, reduceCtorEq, false_and, false_or, Option.some.injEq]
    constructor
    · rintro ⟨ws, ⟨ws', hchange, rfl, rfl⟩, rfl⟩
      exact ⟨r, ws', rfl, hchange, rfl, rfl⟩
    · rintro ⟨_, ws, rfl, hchange, rfl, rfl⟩
      exact ⟨ws, ⟨ws, hchange, rfl, rfl⟩, rfl⟩

/-- One row is affected. -/
theorem run_affectOne_ok {ρ : Type} {row : D → Option ρ} {change : D → ρ → Except ε (List W)}
    {context : ε → ε} {none : ε} :
    (affectOne locks row change context none).run d = .ok (u, d') ↔
      ∃ r ws, row d = some r ∧ change d r = .ok ws ∧ d' = applyAll ws d := by
  simp only [affectOne, affect, run_bind_ok, run_mapError_ok, run_statement, run_require_ok]
  cases hrow : row d with
  | none => simp [Except.map]
  | some r =>
    cases hchange : change d r with
    | error e => simp [hchange, Except.map]
    | ok ws =>
      simp only [hchange, Except.map, Except.ok.injEq, Prod.mk.injEq, Option.some.injEq]
      constructor
      · rintro ⟨_, _, ⟨-, rfl⟩, -, rfl⟩
        exact ⟨r, ws, rfl, hchange, rfl⟩
      · rintro ⟨_, _, rfl, hws, rfl⟩
        rw [hchange] at hws
        cases hws
        exact ⟨1, _, ⟨rfl, rfl⟩, rfl, rfl⟩

/-- Embedding keeps the serial meaning when the larger writes act alike. -/
theorem run_embed {W' K' : Type} [Applies W' D] {fw : W → W'} {fk : K → K'}
    (hfw : ∀ w (d : D), Applies.apply (fw w) d = Applies.apply w d)
    (p : Prog D W K ε α) (d : D) : (p.embed fw fk).run d = p.run d := by
  induction p generalizing d with
  | ret a => rfl
  | fail e => rfl
  | stmt locks exec next ih =>
    simp only [embed, run]
    cases exec d with
    | error e => rfl
    | ok ws =>
      have hws : applyAll (ws.map fw) d = applyAll ws d := by
        simp [applyAll, List.foldl_map, hfw]
      simp only [Except.map, hws]
      exact ih d _

end run

/-! ## The writes of a program -/

/-- Every write of every execution of the program satisfies `P`. -/
def Writes (P : W → Prop) : Prog D W K ε α → Prop
  | ret _ => True
  | fail _ => True
  | stmt _ exec next =>
    (∀ d ws, exec d = .ok ws → ∀ w ∈ ws, P w) ∧ ∀ d, (next d).Writes P

namespace Writes

variable {P Q : W → Prop}

@[simp]
theorem ret (a : α) : (Prog.ret a : Prog D W K ε α).Writes P :=
  trivial

@[simp]
theorem fail (e : ε) : (Prog.fail e : Prog D W K ε α).Writes P :=
  trivial

variable {p : Prog D W K ε α} {locks : D → List K}

/-- Both parts write within bounds. -/
theorem bind {f : α → Prog D W K ε β} (hp : p.Writes P) (hf : ∀ a, (f a).Writes P) :
    (p.bind f).Writes P := by
  induction p with
  | ret a => exact hf a
  | fail e => trivial
  | stmt locks exec next ih => exact ⟨hp.1, fun d => ih d (hp.2 d)⟩

theorem mapError {f : ε → ε} (hp : p.Writes P) : (p.mapError f).Writes P := by
  induction p with
  | ret a => trivial
  | fail e => trivial
  | stmt locks exec next ih =>
    refine ⟨?_, fun d => ih d (hp.2 d)⟩
    intro d ws hws
    cases hexec : exec d with
    | error e => simp [hexec, Except.mapError] at hws
    | ok ws' =>
      simp [hexec, Except.mapError] at hws
      subst hws
      exact hp.1 d _ hexec

/-- A statement writes what it returns. -/
theorem statement {exec : D → Except ε (List W × α)}
    (h : ∀ d ws a, exec d = .ok (ws, a) → ∀ w ∈ ws, P w) :
    (Prog.statement locks exec).Writes P := by
  refine ⟨?_, ?_⟩
  · intro d ws hws
    cases hexec : exec d with
    | error e => simp [hexec, Except.map] at hws
    | ok r =>
      simp [hexec, Except.map] at hws
      subst hws
      exact h d r.1 r.2 hexec
  · intro d
    simp only
    split <;> trivial

/-- Reads write nothing. -/
theorem query {read : D → Except ε α} : (Prog.query read : Prog D W K ε α).Writes P := by
  apply statement
  intro d ws a h
  cases hread : read d with
  | error e => simp [hread, Except.map] at h
  | ok b =>
    simp only [hread, Except.map, Except.ok.injEq, Prod.mk.injEq] at h
    simp [← h.1]

theorem require {ok : Bool} {e : ε} : (Prog.require ok e : Prog D W K ε Unit).Writes P := by
  cases ok <;> trivial

theorem write {check : D → Except ε Unit} {ws : D → List W} (h : ∀ d, ∀ w ∈ ws d, P w) :
    (Prog.write locks check ws).Writes P := by
  apply statement
  intro d ws' a hexec
  rw [map_eq_ok] at hexec
  obtain ⟨_, -, hr⟩ := hexec
  rw [← (Prod.mk.inj hr).1]
  exact h d

theorem affectOne {ρ : Type} {row : D → Option ρ} {change : D → ρ → Except ε (List W)}
    {context : ε → ε} {none : ε}
    (h : ∀ d r ws, row d = some r → change d r = .ok ws → ∀ w ∈ ws, P w) :
    (Prog.affectOne locks row change context none).Writes P := by
  apply bind
  · apply mapError
    apply statement
    intro d ws' a hexec
    cases hrow : row d with
    | none =>
      simp only [hrow, Except.ok.injEq, Prod.mk.injEq] at hexec
      simp [← hexec.1]
    | some r =>
      simp only [hrow, map_eq_ok, Prod.mk.injEq] at hexec
      obtain ⟨ws, hchange, rfl, -⟩ := hexec
      exact h d r ws hrow hchange
  · intro affected
    exact require

theorem ofExcept {x : Except ε α} : (Prog.ofExcept x : Prog D W K ε α).Writes P := by
  cases x <;> trivial

/-- What follows a check may rely on its outcome. -/
theorem ofExcept_bind {x : Except ε α} {f : α → Prog D W K ε β}
    (hf : ∀ a, x = .ok a → (f a).Writes P) : ((Prog.ofExcept x).bind f).Writes P := by
  cases x with
  | error e => exact trivial
  | ok a => exact hf a rfl

/-- A loop writes what its body does. -/
theorem forEach {body : β → Prog D W K ε Unit} (h : ∀ x, (body x).Writes P) (xs : List β) :
    (Prog.forEach body xs).Writes P := by
  induction xs with
  | nil => trivial
  | cons x xs ih => exact bind (h x) fun _ => ih

/-- Writes in a larger program. -/
theorem embed {W' K' : Type} {fw : W → W'} {fk : K → K'} {P' : W' → Prop} (hp : p.Writes P)
    (hfw : ∀ w, P w → P' (fw w)) : (p.embed fw fk).Writes P' := by
  induction p with
  | ret a => trivial
  | fail e => trivial
  | stmt locks exec next ih =>
    refine ⟨?_, fun d => ih d (hp.2 d)⟩
    intro d ws hws w hw
    cases hexec : exec d with
    | error e => simp [hexec, Except.map] at hws
    | ok ws' =>
      simp [hexec, Except.map] at hws
      subst hws
      obtain ⟨w', hw', rfl⟩ := List.mem_map.mp hw
      exact hfw w' (hp.1 d ws' hexec w' hw')

theorem top (p : Prog D W K ε α) : p.Writes fun _ => True := by
  induction p with
  | ret a => trivial
  | fail e => trivial
  | stmt locks exec next ih => exact ⟨fun _ _ _ _ _ => trivial, ih⟩

/-- Bounds may be relaxed. -/
theorem mono (hp : p.Writes P) (hPQ : ∀ w, P w → Q w) : p.Writes Q := by
  induction p with
  | ret a => trivial
  | fail e => trivial
  | stmt locks exec next ih =>
    exact ⟨fun d ws h w hw => hPQ w (hp.1 d ws h w hw), fun d => ih d (hp.2 d)⟩

end Writes

/-- A successful serial run applies some list of the program's writes. -/
theorem run_eq_applyAll [Applies W D] {P : W → Prop} {p : Prog D W K ε α}
    (hp : p.Writes P) {d d' : D} {a : α} (hrun : p.run d = .ok (a, d')) :
    ∃ ws : List W, (∀ w ∈ ws, P w) ∧ d' = applyAll ws d := by
  induction p generalizing d with
  | ret b =>
    simp at hrun
    exact ⟨[], by simp, hrun.2.symm⟩
  | fail e => simp at hrun
  | stmt locks exec next ih =>
    simp only [run] at hrun
    cases hexec : exec d with
    | error e => simp [hexec] at hrun
    | ok ws =>
      simp only [hexec] at hrun
      obtain ⟨ws', hws', rfl⟩ := ih d (hp.2 d) hrun
      refine ⟨ws ++ ws', ?_, by simp⟩
      intro w hw
      rcases List.mem_append.mp hw with hw | hw
      · exact hp.1 d ws hexec w hw
      · exact hws' w hw

end Prog

end PowerManage.Relational
