import PowerManage.Relational.ReadCommitted

/-!
# Rely-guarantee reasoning for READ COMMITTED transactions

Between two statements of a transaction other transactions may commit.  The
relation `rely h c c'` bounds what they can do to the committed state while
this transaction holds the lock keys `h`; the predicate transformer
`Prog.wp` closes every statement under it.  A `Protocol` collects what
must be checked once per API: each body meets its postcondition under the rely,
and each commit that meets its postcondition stays within the rely of everybody
else.

Main results:

- `Prog.wp_bind`: the rule of sequence.
- `Prog.wp_stable`: preconditions survive interference.
- `Protocol.sound`: in every run the invariant holds of the
  committed state, and every applied commit met its postcondition.
-/

namespace PowerManage.Relational

variable {D W K ε α β : Type} [Applies W D]

namespace Prog

/-- From committed state `c`, with pending writes `ws` and held keys
`h`, every interleaved execution that returns does so in `post`. -/
def wp (rely : List K → D → D → Prop) (post : α → List K → List W → D → Prop) :
    Prog D W K ε α → List K → List W → D → Prop
  | ret a, h, ws, c => post a h ws c
  | fail _, _, _, _ => True
  | stmt locks exec next, h, ws, c =>
    ∀ c', rely h c c' → ∀ ws', exec (applyAll ws c') = .ok ws' →
      wp rely post (next (applyAll ws c')) (h ++ locks (applyAll ws c')) (ws ++ ws') c'

variable {rely : List K → D → D → Prop} {post post' : α → List K → List W → D → Prop}

variable {h : List K} {ws : List W} {c : D} {p : Prog D W K ε α}

@[simp]
theorem wp_ret {a : α} : (ret a : Prog D W K ε α).wp rely post h ws c ↔ post a h ws c :=
  Iff.rfl

@[simp]
theorem wp_fail {e : ε} : (fail e : Prog D W K ε α).wp rely post h ws c :=
  trivial

theorem wp_mono (hpost : ∀ a h ws c, post a h ws c → post' a h ws c) (hp : p.wp rely post h ws c) :
    p.wp rely post' h ws c := by
  induction p generalizing h ws c with
  | ret a => exact hpost a h ws c hp
  | fail e => trivial
  | stmt locks exec next ih =>
    intro c' hrely ws' hexec
    exact ih _ (hp c' hrely ws' hexec)

/-- A sequence meets what its second part meets from the first part's results. -/
theorem wp_bind {f : α → Prog D W K ε β} {post : β → List K → List W → D → Prop}
    (hp : p.wp rely (fun a h ws c => (f a).wp rely post h ws c) h ws c) :
    (p.bind f).wp rely post h ws c := by
  induction p generalizing h ws c with
  | ret a => exact hp
  | fail e => trivial
  | stmt locks exec next ih =>
    intro c' hrely ws' hexec
    exact ih _ (hp c' hrely ws' hexec)

/-- Error context changes no successful execution. -/
theorem wp_mapError {f : ε → ε} (hp : p.wp rely post h ws c) :
    (p.mapError f).wp rely post h ws c := by
  induction p generalizing h ws c with
  | ret a => exact hp
  | fail e => trivial
  | stmt locks exec next ih =>
    intro c' hrely ws' hexec
    cases hres : exec (applyAll ws c') with
    | error e => simp [hres, Except.mapError] at hexec
    | ok ws'' =>
      simp [hres, Except.mapError] at hexec
      subst hexec
      exact ih _ (hp c' hrely _ hres)

/-- One statement, from what it does in any state the rely allows. -/
theorem wp_statement {locks : D → List K} {exec : D → Except ε (List W × α)}
    (hp : ∀ c', rely h c c' → ∀ ws' a, exec (applyAll ws c') = .ok (ws', a) →
      post a (h ++ locks (applyAll ws c')) (ws ++ ws') c') :
    (statement locks exec).wp rely post h ws c := by
  intro c' hrely ws' hexec
  cases hres : exec (applyAll ws c') with
  | error e => simp [hres, Except.map] at hexec
  | ok r =>
    simp [hres, Except.map] at hexec
    subst hexec
    simp only [hres]
    exact hp c' hrely r.1 r.2 hres

/-- One read: nothing is written and nothing is locked. -/
theorem wp_query {read : D → Except ε α}
    (hp : ∀ c', rely h c c' → ∀ a, read (applyAll ws c') = .ok a → post a h ws c') :
    (query read : Prog D W K ε α).wp rely post h ws c := by
  apply wp_statement
  intro c' hrely ws' a hexec
  cases hres : read (applyAll ws c') with
  | error e => simp [hres, Except.map] at hexec
  | ok b =>
    simp [hres, Except.map] at hexec
    obtain ⟨rfl, rfl⟩ := hexec
    simpa using hp c' hrely b hres

theorem wp_require {ok : Bool} {e : ε} {post : Unit → List K → List W → D → Prop}
    (hp : ok = true → post () h ws c) : (require ok e : Prog D W K ε Unit).wp rely post h ws c := by
  cases ok with
  | false => trivial
  | true => exact hp rfl

theorem wp_ofExcept {x : Except ε α} (hp : ∀ a, x = .ok a → post a h ws c) :
    (ofExcept x : Prog D W K ε α).wp rely post h ws c := by
  cases x with
  | error e => trivial
  | ok a => exact hp a rfl

/-- A precondition survives whatever the rely allows others to do. -/
theorem wp_stable (htrans : ∀ h c c' c'', rely h c c' → rely h c' c'' → rely h c c'')
    (hpost : ∀ a h ws c c', rely h c c' → post a h ws c → post a h ws c') {c' : D}
    (hrely : rely h c c') (hp : p.wp rely post h ws c) : p.wp rely post h ws c' := by
  cases p with
  | ret a => exact hpost a h ws c c' hrely hp
  | fail e => trivial
  | stmt locks exec next =>
    intro c'' hrely' ws' hexec
    exact hp c'' (htrans h c c' c'' hrely hrely') ws' hexec

/-- A program that takes no locks and whose writes all preserve an assertion
preserves it under any interference that does. -/
theorem wp_of_writes {P : W → Prop} (hp : p.Writes P) {I : List K → List W → D → Prop}
    (hrely : ∀ h ws c c', rely h c c' → I h ws c → I h ws c')
    (hlocks : ∀ h h' ws c, I h ws c → I (h ++ h') ws c)
    (hwrites : ∀ h ws ws' c, (∀ w ∈ ws', P w) → I h ws c → I h (ws ++ ws') c) (hI : I h ws c) :
    p.wp rely (fun _ h ws c => I h ws c) h ws c := by
  induction p generalizing h ws c with
  | ret a => exact hI
  | fail e => trivial
  | stmt locks exec next ih =>
    intro c' hr ws' hexec
    apply ih _ (hp.2 _)
    apply hlocks
    exact hwrites h ws ws' c' (hp.1 _ _ hexec) (hrely h ws c c' hr hI)

end Prog

open ReadCommitted

/-- The proof obligations of an API whose transactions interleave. -/
structure Protocol (C : Client D W K ε α) where
  inv : D → Prop
  rely : List K → D → D → Prop
  /-- What a run must satisfy of a commit that others observe. -/
  allowed : List K → D → D → Prop
  post : C.Call → α → List K → List W → D → Prop
  rely_refl : ∀ h c, inv c → rely h c c
  rely_trans : ∀ h c c' c'', rely h c c' → rely h c' c'' → rely h c c''
  post_stable : ∀ call a h ws c c', rely h c c' → post call a h ws c → post call a h ws c'
  body : ∀ call c, inv c → (C.body call).wp rely (post call) [] [] c
  commit_inv : ∀ call a h ws c, inv c → post call a h ws c → inv (applyAll ws c)
  commit_rely : ∀ call a h h' ws c, inv c → post call a h ws c → (∀ k ∈ h, k ∉ h') →
    allowed h' c (applyAll ws c) → rely h' c (applyAll ws c)

namespace Protocol

variable {C : Client D W K ε α} (P : Protocol C)

/-- What holds in every reachable state. -/
structure Holds (s : Sys C) : Prop where
  locks : LockInv s
  inv : P.inv s.committed
  active : ∀ i call rest ws, s.sessions i = .active call rest ws →
    rest.wp P.rely (P.post call) (s.heldBy i) ws s.committed
  logged : ∀ e ∈ s.log, P.inv e.base ∧ ∃ h, P.post e.call e.answer h e.writes e.base

variable {P}

variable {s : Sys C}

omit [Applies W D] in
theorem heldBy_eq_nil (h : LockInv s) {i : Nat} (hquiet : (s.sessions i).Quiet) :
    s.heldBy i = [] := by
  rw [List.eq_nil_iff_forall_not_mem]
  intro k hk
  exact h.quiet i hquiet k (mem_heldBy.mp hk)

omit [Applies W D] in
theorem heldBy_release {i j : Nat} (hj : j ≠ i) (next : Session C) :
    (s.release i next).heldBy j = s.heldBy j := by
  simp only [Sys.heldBy, Sys.release, List.filter_filter]
  congr 1
  apply List.filter_congr
  intro h _
  by_cases hh : h.2 = j
  · simp [hh, hj]
  · simp [hh]

/-- Sessions other than the one that moves keep their preconditions when neither
the committed state nor their locks change. -/
theorem Holds.update {s' : Sys C} (h : P.Holds s) {i : Nat} {next : Session C}
    (hlocks : LockInv s') (hcommitted : s'.committed = s.committed) (hlog : s'.log = s.log)
    (hsessions : s'.sessions = Function.update s.sessions i next)
    (hheld : ∀ j, j ≠ i → s'.heldBy j = s.heldBy j)
    (hnext : ∀ call rest ws, next = .active call rest ws →
      rest.wp P.rely (P.post call) (s'.heldBy i) ws s.committed) : P.Holds s' where
  locks := hlocks
  inv := hcommitted ▸ h.inv
  active := by
    intro j call rest ws hj
    rw [hsessions] at hj
    rw [hcommitted]
    by_cases hji : j = i
    · subst hji
      rw [Function.update_self] at hj
      exact hnext call rest ws hj
    · rw [Function.update_of_ne hji] at hj
      rw [hheld j hji]
      exact h.active j call rest ws hj
  logged := by
    intro e he
    rw [hlog] at he
    exact h.logged e he

variable [DecidableEq K]

theorem Holds.step {s' : Sys C} {a : Action C} (h : P.Holds s)
    (hstep : ReadCommitted.step s a = some s')
    (hallowed : ∀ j, j ≠ a.session → P.allowed (s.heldBy j) s.committed s'.committed) :
    P.Holds s' := by
  have hlocks' := h.locks.step hstep
  cases step_cases hstep with
  | @invoke i call hidle =>
    exact h.update hlocks' rfl rfl rfl (fun _ _ => rfl) (by simp)
  | @begin i call hwait =>
    refine h.update hlocks' rfl rfl rfl (fun _ _ => rfl) ?_
    intro call' rest ws hnext
    cases hnext
    have hnil : s.heldBy i = [] := heldBy_eq_nil h.locks (by simp [hwait, Session.Quiet])
    change (C.body call).wp P.rely (P.post call) (s.heldBy i) [] s.committed
    rw [hnil]
    exact P.body call s.committed h.inv
  | @exec i call locks exec next ws ws' hactive hgrant hexec =>
    refine h.update hlocks' rfl rfl rfl ?_ ?_
    · intro j hj
      have hnone : ((locks (s.view ws)).map fun k => (k, i)).filter
          (fun x : K × Nat => x.2 = j) = [] := by
        simp [List.filter_eq_nil_iff, hj.symm]
      simp only [Sys.heldBy, List.filter_append, hnone, List.append_nil]
    · intro call' rest ws'' hnext
      cases hnext
      have hheld : ((locks (s.view ws)).map fun k => (k, i)).filter
          (fun x : K × Nat => x.2 = i) = (locks (s.view ws)).map fun k => (k, i) := by
        simp [List.filter_eq_self]
      have hwp := h.active i call _ ws hactive s.committed
        (P.rely_refl _ _ h.inv) ws' hexec
      change (next (s.view ws)).wp P.rely (P.post call)
        (s.heldBy i ++ locks (s.view ws)) (ws ++ ws') s.committed at hwp
      simpa [Sys.heldBy, List.filter_append, hheld, Function.comp_def] using hwp
  | @release _ call next hlive hnext =>
    refine h.update hlocks' rfl rfl rfl (fun j hj => heldBy_release hj next) ?_
    intro call' rest ws hactive
    rcases hnext with rfl | ⟨e, rfl⟩ | rfl <;> cases hactive
  | @install _ call answer ws outcome hactive hdeferred houtcome hcommits =>
    have hpost : P.post call answer (s.heldBy a.session) ws s.committed :=
      h.active a.session call _ ws hactive
    refine ⟨hlocks', P.commit_inv call answer _ ws s.committed h.inv hpost, ?_, ?_⟩
    · intro j call' rest ws' hj
      by_cases hji : j = a.session
      · subst hji
        simp [Sys.install, Sys.release] at hj
      · simp only [Sys.install, Sys.release, Function.update_of_ne hji] at hj
        have hdisjoint : ∀ k ∈ s.heldBy a.session, k ∉ s.heldBy j := by
          intro k hk hk'
          exact hji (h.locks.exclusive k j a.session (mem_heldBy.mp hk') (mem_heldBy.mp hk))
        have hrely := P.commit_rely call answer _ _ ws s.committed h.inv hpost hdisjoint
          (hallowed j hji)
        have hheld : (s.install a.session call answer ws outcome).heldBy j = s.heldBy j :=
          heldBy_release hji (.done call outcome)
        rw [hheld]
        exact Prog.wp_stable P.rely_trans (P.post_stable call') hrely
          (h.active j call' rest ws' hj)
    · intro e he
      simp only [Sys.install, List.mem_append, List.mem_singleton] at he
      rcases he with he | rfl
      · exact h.logged e he
      · exact ⟨h.inv, _, hpost⟩

/-- In every run whose commits are allowed, the invariant holds of the committed
state and every applied commit met its postcondition when it was applied. -/
theorem sound {cond : Sys C → Action C → Prop} {d : D} {as : List (Action C)}
    (hrun : Exec cond (Sys.init C d) as s) (hd : P.inv d)
    (hcond : ∀ s a s', cond s a → ReadCommitted.step s a = some s' →
      ∀ j, j ≠ a.session → P.allowed (s.heldBy j) s.committed s'.committed) : P.Holds s :=
  hrun.induction
    (fun s a s' h hc hstep => h.step hstep (hcond s a s' hc hstep))
    ⟨⟨by simp [Sys.init], by simp [Sys.init]⟩, hd, by simp [Sys.init], by simp [Sys.init]⟩

/-- Transactions whose writes all have a property, whatever they read. -/
def ofWrites (C : Client D W K ε α) {Q : W → Prop} (hbody : ∀ call, (C.body call).Writes Q) :
    Protocol C where
  inv _ := True
  rely _ _ _ := True
  allowed _ _ _ := True
  post _ _ _ ws _ := ∀ w ∈ ws, Q w
  rely_refl _ _ _ := trivial
  rely_trans _ _ _ _ _ _ := trivial
  post_stable _ _ _ _ _ _ _ h := h
  body call c _ := by
    refine Prog.wp_of_writes (hbody call) (I := fun _ ws _ => ∀ w ∈ ws, Q w)
      (fun _ _ _ _ _ h => h) (fun _ _ _ _ h => h) ?_ (by simp)
    intro _ ws ws' _ hnew hold w hw
    rcases List.mem_append.mp hw with hw | hw
    · exact hold w hw
    · exact hnew w hw
  commit_inv _ _ _ _ _ _ _ := trivial
  commit_rely _ _ _ _ _ _ _ _ _ _ := trivial

end Protocol

/-- What every write of every call preserves holds in every committed state. -/
theorem Exec.writes_invariant {C : Client D W K ε α} [DecidableEq K] {Q : W → Prop}
    (hbody : ∀ call, (C.body call).Writes Q) {I : D → Prop}
    (hwrite : ∀ w d, Q w → I d → I (Applies.apply w d))
    {cond : Sys C → Action C → Prop} {d : D} {s : Sys C} {as : List (Action C)}
    (hrun : Exec cond (Sys.init C d) as s) (hd : I d) : I s.committed := by
  have hholds : (Protocol.ofWrites C hbody).Holds s :=
    Protocol.sound hrun trivial fun _ _ _ _ _ _ _ => trivial
  rw [hrun.chain.committed_eq]
  refine applyAll_induction ?_ hd
  intro w hw d' hd'
  obtain ⟨entry, hentry, hmem⟩ := List.mem_flatMap.mp hw
  obtain ⟨-, _, hpost⟩ := hholds.logged entry hentry
  exact hwrite w d' (hpost w hmem) hd'

-- Proofs about bodies go through the rules above and never compute the transformer.
attribute [irreducible] Prog.wp

end PowerManage.Relational
