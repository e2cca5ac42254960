import PowerManage.Pki.Lifecycle

/-!
# What lifecycle events make of a leaf

A leaf's share of the database is its row and the revocations of its own
certificates.  An event acts on it as a partial function, `Plan.step`, and
carrying a plan out does to the database what the function does to the share.

Main results:

- `run_prog_ok`: when a plan can be carried out, and what it does.
- `run_prog_skipWork`: a live run differs from a replay in work items only.
-/

namespace PowerManage.Pki

open Relational Store
open Prog (bind_eq run_bind_ok run_mapError_ok run_ret_ok)

variable {O X V : Type}

/-! ## The function of an event -/

/-- The stored row stands for the revocation that is to be entered. -/
def RevocationRow.keeps (existing row : RevocationRow) : Bool :=
  existing.agrees row && (!existing.sameSource row || existing.reasonCode == row.reasonCode)

/-- What a table holds of a certificate once it is revoked. -/
def entered (t : Table RevocationKey RevocationRow) (key : RevocationKey) (row : RevocationRow) :
    Option RevocationRow :=
  match t.find key with
  | some existing => if existing.keeps row then some existing else none
  | none =>
    if (t.anyRow fun k other => k.1 == key.1 && other.sameIssuerSerial row) ||
        t.anyRow fun _ other => other.sameSource row then none
    else some row

/-- Enter a revocation in a table. -/
def enter [Sha256] (x : LeafX509) (e : Ev O) (cls : CertificateClass) (r : Revocation)
    (t : Table RevocationKey RevocationRow) : Option (Table RevocationKey RevocationRow) :=
  match revokedCertificate x r.certificateDER with
  | .error _ => none
  | .ok c =>
    let row := revocationRow e c r.certificateDER r.reasonCode
    if (checkRevocation row).isOk then
      (entered t (cls, sha256 r.certificateDER) row).map fun stored =>
        t.put (cls, sha256 r.certificateDER) (some stored)
    else none

/-- Enter the revocation that an event brings with it, if any. -/
def enterDue [Sha256] (x : LeafX509) (e : Ev O) (cls : CertificateClass)
    (due : Option Revocation) (t : Table RevocationKey RevocationRow) :
    Option (Table RevocationKey RevocationRow) :=
  match due with
  | none => some t
  | some r => enter x e cls r t

/-- What an action makes of a leaf's row, and the revocation it brings with it. -/
def Action.rowStep {cls : CertificateClass} (id : String) :
    Action cls → Option (LeafRow cls) → Option (Option (LeafRow cls) × Option Revocation)
  | .enroll row _, none => if (checkLeaf cls id row).isOk then some (some row, none) else none
  | .enroll row repeats, some old =>
    if (checkLeaf cls id row).isOk && repeats old then some (some old, none) else none
  | .update .., none => none
  | .update selects change repeats revokes, some old =>
    if selects old then
      if (checkLeaf cls id (change old)).isOk then some (some (change old), revokes) else none
    else if repeats old then some (some old, revokes)
    else none
  | .delete .., none => none
  | .delete version der, some old =>
    if old.projectionVersion == version && old.certificateDER == der then
      some (none, deletionRevokes old der)
    else none

/-- A leaf's row and the revocations of its certificates. -/
structure LeafShare (cls : CertificateClass) where
  row : Option (LeafRow cls)
  revocations : Table RevocationKey RevocationRow

/-- What an event makes of its leaf's share. -/
def Plan.step [Sha256] {cls : CertificateClass} (x : LeafX509) (e : Ev O) (plan : Plan cls)
    (l : LeafShare cls) : Option (LeafShare cls) :=
  (plan.action.rowStep plan.id l.row).bind fun (row, due) =>
    (enterDue x e cls due l.revocations).map (LeafShare.mk row)

theorem isOk_iff {ε : Type} {r : Except ε Unit} : r.isOk = true ↔ r = .ok () := by
  cases r <;> simp [Except.isOk, Except.toBool]

section rowStep

variable {cls : CertificateClass} {id : String} {old row : Option (LeafRow cls)}
variable {due : Option Revocation} {repeats : LeafRow cls → Bool}

theorem rowStep_enroll {new : LeafRow cls} :
    (Action.enroll new repeats).rowStep id old = some (row, due) ↔
      checkLeaf cls id new = .ok () ∧ due = none ∧
        (old = none ∧ row = some new ∨ ∃ r, old = some r ∧ repeats r = true ∧ row = some r) := by
  cases old <;> grind [Action.rowStep, isOk_iff]

theorem rowStep_update {selects : LeafRow cls → Bool} {change : LeafRow cls → LeafRow cls}
    {revokes : Option Revocation} :
    (Action.update selects change repeats revokes).rowStep id old = some (row, due) ↔
      due = revokes ∧ ∃ r, old = some r ∧
        (selects r = true ∧ checkLeaf cls id (change r) = .ok () ∧ row = some (change r) ∨
          selects r = false ∧ repeats r = true ∧ row = some r) := by
  cases old <;> grind [Action.rowStep, isOk_iff]

theorem rowStep_delete {version : Nat} {der : Bytes} :
    (Action.delete version der).rowStep id old = some (row, due) ↔
      ∃ r, old = some r ∧ (r.projectionVersion == version && r.certificateDER == der) = true ∧
        row = none ∧ due = deletionRevokes r der := by
  cases old <;> grind [Action.rowStep]

end rowStep

/-! ## Statements -/

/-- The database with one leaf's row replaced. -/
def putLeaf (d : Db O X) (cls : CertificateClass) (id : String) (row : Option (LeafRow cls)) :
    Db O X :=
  { d with tables :=
    { d.tables with
      leaves := Function.update d.tables.leaves cls ((d.tables.leaves cls).put id row) } }

/-- The database with its revocations replaced. -/
def putRevocations (d : Db O X) (t : Table RevocationKey RevocationRow) : Db O X :=
  { d with tables := { d.tables with certificateRevocations := t } }

/-- The database with its work items replaced. -/
def withWork (d : Db O X) (w : Table WorkKey WorkItem) : Db O X :=
  { d with tables := { d.tables with workItems := w } }

section statements

variable [Applies V X] {cls : CertificateClass} {id : String} {d d' : Db O X}

theorem apply_leaf (w : RowWrite String (LeafRow cls)) {row : Option (LeafRow cls)}
    (h : w.apply (d.tables.leaves cls) = (d.tables.leaves cls).put id row) :
    applyAll [(.leaf cls w : Write V)] d = putLeaf d cls id row := by
  simp only [applyAll_cons, applyAll_nil, apply_tables, apply_eq, Write.apply, putLeaf, h]

theorem run_getLeaf_ok {row : LeafRow cls} :
    (getLeaf cls id : ProjProg O X V _).run d = .ok (row, d') ↔
      (d.tables.leaves cls).find id = some row ∧ d' = d := by
  rw [getLeaf, Prog.run_query_ok]
  cases (d.tables.leaves cls).find id <;> simp

variable {n : Nat}

theorem run_upsertEnrollment_ok {row : LeafRow cls} :
    (upsertEnrollment cls id row : ProjProg O X V _).run d = .ok (n, d') ↔
      checkLeaf cls id row = .ok () ∧
        ((∃ old, (d.tables.leaves cls).find id = some old ∧ n = 0 ∧ d' = d) ∨
          (d.tables.leaves cls).find id = none ∧ n = 1 ∧ d' = putLeaf d cls id (some row)) := by
  rw [upsertEnrollment, Prog.run_statement_ok]
  simp only [check_bind_eq_ok]
  cases hfind : (d.tables.leaves cls).find id with
  | none =>
    have hput := apply_leaf (V := V) (d := d) (.insert id row) (Table.insert_eq_put hfind row)
    simp [← hput, and_assoc, eq_comm]
  | some old => simp [and_assoc, eq_comm]

variable {selects : LeafRow cls → Bool}

theorem run_updateLeaf_ok {change : LeafRow cls → LeafRow cls} :
    (updateLeaf cls id selects change : ProjProg O X V _).run d = .ok (n, d') ↔
      (((d.tables.leaves cls).find id).filter selects = none ∧ n = 0 ∧ d' = d) ∨
        ∃ old, (d.tables.leaves cls).find id = some old ∧ selects old = true ∧
          checkLeaf cls id (change old) = .ok () ∧ n = 1 ∧
          d' = putLeaf d cls id (some (change old)) := by
  rw [updateLeaf, Prog.run_affect_ok]
  refine or_congr_right ?_
  simp only [Option.filter_eq_some_iff, check_bind_eq_ok, Except.ok.injEq]
  constructor
  · rintro ⟨old, ws, ⟨hold, hselects⟩, ⟨hcheck, rfl⟩, rfl, rfl⟩
    exact ⟨old, hold, hselects, hcheck, rfl, apply_leaf _ (Table.update_eq_put hold change)⟩
  · rintro ⟨old, hold, hselects, hcheck, rfl, rfl⟩
    exact ⟨old, _, ⟨hold, hselects⟩, ⟨hcheck, rfl⟩, rfl,
      (apply_leaf _ (Table.update_eq_put hold change)).symm⟩

theorem run_deleteLeaf_ok :
    (deleteLeaf cls id selects : ProjProg O X V _).run d = .ok (n, d') ↔
      (((d.tables.leaves cls).find id).filter selects = none ∧ n = 0 ∧ d' = d) ∨
        ∃ old, (d.tables.leaves cls).find id = some old ∧ selects old = true ∧ n = 1 ∧
          d' = putLeaf d cls id none := by
  rw [deleteLeaf, Prog.run_affect_ok]
  refine or_congr_right ?_
  have hput := apply_leaf (V := V) (d := d) (.delete {id})
    (Table.delete_eq_put (d.tables.leaves cls) id)
  simp only [Option.filter_eq_some_iff, Except.ok.injEq]
  constructor
  · rintro ⟨old, ws, ⟨hold, hselects⟩, rfl, rfl, rfl⟩
    exact ⟨old, hold, hselects, rfl, hput⟩
  · rintro ⟨old, hold, hselects, rfl, rfl⟩
    exact ⟨old, _, ⟨hold, hselects⟩, rfl, rfl, hput.symm⟩

theorem run_settle_ok {reports : Reports} {repeats : LeafRow cls → Bool} {u : Unit} :
    (settle id reports repeats n : ProjProg O X V Unit).run d = .ok (u, d') ↔
      d' = d ∧ (n = 1 ∨ n = 0 ∧ ∃ row, (d.tables.leaves cls).find id = some row ∧
        repeats row = true) := by
  rcases n with _ | _ | n
  · simp only [settle, bind_eq, run_bind_ok, run_mapError_ok, run_getLeaf_ok, Prog.run_require_ok]
    constructor
    · rintro ⟨row, _, ⟨hrow, rfl⟩, hrepeats, rfl⟩
      exact ⟨rfl, .inr ⟨trivial, row, hrow, hrepeats⟩⟩
    · rintro ⟨rfl, h | ⟨-, row, hrow, hrepeats⟩⟩
      · cases h
      · exact ⟨row, d', ⟨hrow, rfl⟩, hrepeats, rfl⟩
  · simp only [settle, run_ret_ok, true_and, true_or, and_true, Nat.zero_add]
  · simp [settle]

end statements

/-! ## Revocations -/

section revocations

variable [Applies V X] {x : LeafX509} {e : Ev O} {cls : CertificateClass} {d d' : Db O X}

variable {row : RevocationRow}

theorem revocationKeys_ok :
    revocationKeys d e cls row = .ok () ↔
      ((d.tables.certificateRevocations.anyRow fun k other =>
          k.1 == cls && other.sameIssuerSerial row) ||
        d.tables.certificateRevocations.anyRow fun _ other => other.sameSource row) = false ∧
      d.events.any (sameVersion e) = true := by
  simp only [revocationKeys, ite_error_eq_ok, and_true, Bool.or_eq_false_iff, Bool.not_eq_true,
    Bool.not_eq_false, and_assoc]

theorem run_getCertificateRevocation_ok {key : RevocationKey} :
    (getCertificateRevocation key : ProjProg O X V _).run d = .ok (row, d') ↔
      d.tables.certificateRevocations.find key = some row ∧ d' = d := by
  rw [getCertificateRevocation, Prog.run_query_ok]
  cases d.tables.certificateRevocations.find key <;> simp

/-- Enqueued work changes the work items only, and without work nothing changes. -/
theorem run_enqueueWork_ok {skipWork : Bool} {work : Work}
    (h : (enqueueWork skipWork e work : ProjProg O X V Unit).run d = .ok ((), d')) :
    (∃ w, d' = withWork d w) ∧ (skipWork = true → d' = d) := by
  cases skipWork with
  | true =>
    simp only [enqueueWork, if_true, run_ret_ok, true_and] at h
    exact ⟨⟨d.tables.workItems, h⟩, fun _ => h⟩
  | false =>
    simp only [enqueueWork, Bool.false_eq_true, if_false, bind_eq, run_bind_ok,
      Prog.run_ofExcept_ok, run_mapError_ok] at h
    obtain ⟨_, _, ⟨-, rfl⟩, hinsert⟩ := h
    obtain ⟨-, rfl⟩ := Prog.run_write_ok.mp hinsert
    exact ⟨⟨_, rfl⟩, by simp⟩

variable [Sha256] {n : Nat}

theorem run_insertCertificateRevocation_ok :
    (insertCertificateRevocation e cls row : ProjProg O X V _).run d = .ok (n, d') ↔
      checkRevocation row = .ok () ∧
        ((∃ old, d.tables.certificateRevocations.find (cls, sha256 row.certificateDER) =
            some old ∧ n = 0 ∧ d' = d) ∨
          d.tables.certificateRevocations.find (cls, sha256 row.certificateDER) = none ∧
            revocationKeys d e cls row = .ok () ∧ n = 1 ∧
            d' = putRevocations d (d.tables.certificateRevocations.put
              (cls, sha256 row.certificateDER) (some row))) := by
  rw [insertCertificateRevocation, Prog.run_statement_ok]
  simp only [check_bind_eq_ok]
  cases hfind : d.tables.certificateRevocations.find (cls, sha256 row.certificateDER) with
  | none =>
    simp only [Option.isSome_none, Bool.false_eq_true, if_false, check_bind_eq_ok,
      Except.ok.injEq, Prod.mk.injEq, reduceCtorEq, false_and, exists_false, false_or, true_and]
    rw [putRevocations, ← Table.insert_eq_put hfind row]
    constructor
    · rintro ⟨ws, ⟨hcheck, hkeys, rfl, rfl⟩, rfl⟩
      exact ⟨hcheck, hkeys, rfl, rfl⟩
    · rintro ⟨hcheck, hkeys, rfl, rfl⟩
      exact ⟨_, ⟨hcheck, hkeys, rfl, rfl⟩, rfl⟩
  | some old => simp [and_assoc, eq_comm]

/-- After its insert a revocation only compares and enqueues. -/
theorem run_settleRevocation_ok {skipWork : Bool}
    (h : (settleRevocation skipWork e cls row n : ProjProg O X V Unit).run d = .ok ((), d')) :
    ((∃ w, d' = withWork d w) ∧ (skipWork = true → d' = d)) ∧
      (n = 1 ∨ n = 0 ∧ ∃ old, d.tables.certificateRevocations.find
        (cls, sha256 row.certificateDER) = some old ∧ old.keeps row = true) := by
  rcases n with _ | _ | n
  · simp only [settleRevocation, bind_eq, run_bind_ok, run_mapError_ok,
      run_getCertificateRevocation_ok, Prog.run_require_ok] at h
    obtain ⟨old, _, ⟨hold, rfl⟩, _, _, ⟨hagrees, rfl⟩, hrest⟩ := h
    split at hrest
    · rename_i hsource
      obtain ⟨hreason, rfl⟩ := Prog.run_require_ok.mp hrest
      exact ⟨⟨⟨d'.tables.workItems, rfl⟩, fun _ => rfl⟩,
        .inr ⟨rfl, old, hold, by simp [RevocationRow.keeps, hagrees, hreason]⟩⟩
    · rename_i hsource
      exact ⟨run_enqueueWork_ok hrest,
        .inr ⟨rfl, old, hold, by simp [RevocationRow.keeps, hagrees, hsource]⟩⟩
  · exact ⟨run_enqueueWork_ok h, .inl rfl⟩
  · simp [settleRevocation] at h

theorem run_settleRevocation_true :
    (settleRevocation true e cls row n : ProjProg O X V Unit).run d = .ok ((), d') ↔
      d' = d ∧ (n = 1 ∨ n = 0 ∧ ∃ old, d.tables.certificateRevocations.find
        (cls, sha256 row.certificateDER) = some old ∧ old.keeps row = true) := by
  constructor
  · intro h
    obtain ⟨⟨-, hsame⟩, hkeeps⟩ := run_settleRevocation_ok h
    exact ⟨hsame rfl, hkeeps⟩
  · rintro ⟨rfl, rfl | ⟨rfl, old, hold, hkeeps⟩⟩
    · simp [settleRevocation, enqueueWork]
    · simp only [RevocationRow.keeps, Bool.and_eq_true, Bool.or_eq_true, Bool.not_eq_true']
        at hkeeps
      simp only [settleRevocation, bind_eq, run_bind_ok, run_mapError_ok,
        run_getCertificateRevocation_ok, Prog.run_require_ok]
      refine ⟨old, d', ⟨hold, rfl⟩, (), d', ⟨hkeeps.1, rfl⟩, ?_⟩
      split
      · rename_i hsource
        rcases hkeeps.2 with hne | hreason
        · exact absurd hsource (by simp [hne])
        · exact Prog.run_require_ok.mpr ⟨hreason, rfl⟩
      · simp [enqueueWork]

/-- The insert of a revocation and what follows it, in a replay. -/
theorem run_entered {f : StoreError → StoreError} :
    (((insertCertificateRevocation e cls row).mapError f).bind
        (settleRevocation true e cls row) : ProjProg O X V Unit).run d = .ok ((), d') ↔
      checkRevocation row = .ok () ∧
      (d.tables.certificateRevocations.find (cls, sha256 row.certificateDER) = none →
        d.events.any (sameVersion e) = true) ∧
      ∃ stored, entered d.tables.certificateRevocations (cls, sha256 row.certificateDER) row =
          some stored ∧
        d' = putRevocations d (d.tables.certificateRevocations.put
          (cls, sha256 row.certificateDER) (some stored)) := by
  simp only [run_bind_ok, run_mapError_ok, run_insertCertificateRevocation_ok,
    run_settleRevocation_true, revocationKeys_ok]
  cases hfind : d.tables.certificateRevocations.find (cls, sha256 row.certificateDER) with
  | none =>
    simp only [entered, hfind]
    constructor
    · rintro ⟨n, d₁, ⟨hcheck, ⟨_, hold, -⟩ | ⟨-, ⟨hkeys, hevent⟩, -, rfl⟩⟩, rfl, -⟩
      · cases hold
      · exact ⟨hcheck, fun _ => hevent, row, by simp [hkeys], rfl⟩
    · rintro ⟨hcheck, hevent, stored, hstored, rfl⟩
      split at hstored
      · cases hstored
      · rename_i hkeys
        cases hstored
        exact ⟨1, _, ⟨hcheck, .inr ⟨trivial, ⟨by simpa using hkeys, hevent trivial⟩, rfl, rfl⟩⟩,
          rfl, .inl rfl⟩
  | some old =>
    have hsame : putRevocations d (d.tables.certificateRevocations.put
        (cls, sha256 row.certificateDER) (some old)) = d := by
      rw [← hfind, Table.put_find, putRevocations]
    simp only [entered, hfind]
    constructor
    · rintro ⟨n, d₁, ⟨hcheck, ⟨_, -, rfl, rfl⟩ | ⟨hnone, -⟩⟩, rfl, hn | ⟨-, old', hold, hkeeps⟩⟩
      · cases hn
      · rw [hfind] at hold
        cases hold
        exact ⟨hcheck, by simp, old, by simp [hkeeps], hsame.symm⟩
      · cases hnone
      · cases hnone
    · rintro ⟨hcheck, -, stored, hstored, rfl⟩
      split at hstored
      · rename_i hkeeps
        cases hstored
        rw [hsame]
        exact ⟨0, d, ⟨hcheck, .inl ⟨old, rfl, rfl, rfl⟩⟩, rfl, .inr ⟨rfl, old, hfind, hkeeps⟩⟩
      · cases hstored

theorem run_revocation_true {der : Bytes} {reasonCode : Nat} :
    (projectCertificateRevocation x true e cls der reasonCode : ProjProg O X V Unit).run d =
        .ok ((), d') ↔
      (d.tables.certificateRevocations.find (cls, sha256 der) = none →
        d.events.any (sameVersion e) = true) ∧
      ∃ t, enter x e cls ⟨der, reasonCode⟩ d.tables.certificateRevocations = some t ∧
        d' = putRevocations d t := by
  rw [projectCertificateRevocation, bind_eq]
  cases hcert : revokedCertificate x der with
  | error err => simp [enter, hcert, Prog.ofExcept]
  | ok c =>
    rw [Prog.ofExcept, Prog.ret_bind, bind_eq, run_entered]
    simp only [enter, hcert]
    cases hcheck : checkRevocation (revocationRow e c der reasonCode) with
    | error err => simp [Except.isOk, Except.toBool]
    | ok u =>
      simp only [Except.isOk, Except.toBool, if_true, Option.map_eq_some_iff, true_and]
      refine and_congr_right fun _ => ?_
      constructor
      · rintro ⟨stored, hstored, rfl⟩
        exact ⟨_, ⟨stored, hstored, rfl⟩, rfl⟩
      · rintro ⟨_, ⟨stored, hstored, rfl⟩, rfl⟩
        exact ⟨stored, hstored, rfl⟩

theorem run_revocation_skipWork {der : Bytes} {reasonCode : Nat}
    (h : (projectCertificateRevocation x false e cls der reasonCode : ProjProg O X V Unit).run d =
      .ok ((), d')) :
    ∃ d₁ w, d' = withWork d₁ w ∧
      (projectCertificateRevocation x true e cls der reasonCode : ProjProg O X V Unit).run d =
        .ok ((), d₁) := by
  simp only [projectCertificateRevocation, bind_eq, run_bind_ok] at h ⊢
  obtain ⟨c, d₀, hcert, n, d₁, hinsert, hsettle⟩ := h
  obtain ⟨⟨⟨w, rfl⟩, -⟩, hkeeps⟩ := run_settleRevocation_ok hsettle
  exact ⟨d₁, w, rfl, c, d₀, hcert, n, d₁, hinsert, run_settleRevocation_true.mpr ⟨rfl, hkeeps⟩⟩

/-- What a replayed event does to the revocations. -/
theorem run_projectRevocation_true {due : Option Revocation} {u : Unit} :
    (projectRevocation x true e cls due : ProjProg O X V Unit).run d = .ok (u, d') ↔
      (∀ r ∈ due, d.tables.certificateRevocations.find (cls, sha256 r.certificateDER) = none →
        d.events.any (sameVersion e) = true) ∧
      ∃ t, enterDue x e cls due d.tables.certificateRevocations = some t ∧
        d' = putRevocations d t := by
  cases due with
  | none =>
    simp only [projectRevocation, run_ret_ok, true_and, enterDue, Option.some.injEq,
      Option.not_mem_none, false_imp_iff, implies_true]
    constructor
    · rintro rfl
      exact ⟨_, rfl, rfl⟩
    · rintro ⟨_, rfl, rfl⟩
      rfl
  | some r =>
    rw [projectRevocation, run_revocation_true]
    simp only [enterDue, Option.mem_some_iff, forall_eq']

theorem run_projectRevocation_skipWork {due : Option Revocation}
    (h : (projectRevocation x false e cls due : ProjProg O X V Unit).run d = .ok ((), d')) :
    ∃ d₁ w, d' = withWork d₁ w ∧
      (projectRevocation x true e cls due : ProjProg O X V Unit).run d = .ok ((), d₁) := by
  cases due with
  | none => exact ⟨d', d'.tables.workItems, rfl, h⟩
  | some r => exact run_revocation_skipWork h

end revocations

/-! ## Plans -/

section plans

variable [Sha256] [Applies V X] {x : LeafX509} {e : Ev O} {cls : CertificateClass}
variable {plan : Plan cls} {d d' : Db O X}

/-- Live projection does what a replay does, and enqueues work. -/
theorem run_prog_skipWork (h : (plan.prog x false e : ProjProg O X V Unit).run d = .ok ((), d')) :
    ∃ d₁ w, d' = withWork d₁ w ∧
      (plan.prog x true e : ProjProg O X V Unit).run d = .ok ((), d₁) := by
  unfold Plan.prog at h ⊢
  cases haction : plan.action with
  | enroll row repeats =>
    simp only [haction] at h ⊢
    exact ⟨d', d'.tables.workItems, rfl, h⟩
  | update selects change repeats revokes =>
    simp only [haction, bind_eq, run_bind_ok] at h ⊢
    obtain ⟨n, d₁, hupdate, _, d₂, hsettle, hrevoke⟩ := h
    obtain ⟨d₃, w, rfl, hreplay⟩ := run_projectRevocation_skipWork hrevoke
    exact ⟨d₃, w, rfl, n, d₁, hupdate, (), d₂, hsettle, hreplay⟩
  | delete version der =>
    simp only [haction, bind_eq, run_bind_ok, run_mapError_ok] at h ⊢
    obtain ⟨row, d₁, hrow, _, d₂, hmatch, _, d₃, hrevoke, n, d₄, hdelete, hn⟩ := h
    obtain ⟨d₅, w, rfl, hreplay⟩ := run_projectRevocation_skipWork hrevoke
    obtain ⟨hone, rfl⟩ := Prog.run_require_ok.mp hn
    rcases run_deleteLeaf_ok.mp hdelete with ⟨-, rfl, -⟩ | ⟨old, hold, hselects, rfl, rfl⟩
    · cases hone
    · refine ⟨putLeaf d₅ cls plan.id none, w, rfl, row, d₁, hrow, (), d₂, hmatch, (), d₅, hreplay,
        1, _, run_deleteLeaf_ok.mpr (.inr ⟨old, hold, hselects, rfl, rfl⟩), ?_⟩
      exact Prog.run_require_ok.mpr ⟨hone, rfl⟩

/-- The database after a plan, with the leaf's row and the revocations it leaves. -/
def afterPlan (d : Db O X) (plan : Plan cls) (row : Option (LeafRow cls))
    (t : Table RevocationKey RevocationRow) : Db O X :=
  putRevocations (putLeaf d cls plan.id row) t

/-- What a replay does for a plan: the row's step, and the revocation it brings. -/
theorem run_prog_ok :
    (plan.prog x true e : ProjProg O X V Unit).run d = .ok ((), d') ↔
      ∃ row due t,
        plan.action.rowStep plan.id ((d.tables.leaves cls).find plan.id) = some (row, due) ∧
        (∀ r ∈ due, d.tables.certificateRevocations.find (cls, sha256 r.certificateDER) = none →
          d.events.any (sameVersion e) = true) ∧
        enterDue x e cls due d.tables.certificateRevocations = some t ∧
        d' = afterPlan d plan row t := by
  -- A row that is kept leaves the table as it was.
  have hkept : ∀ {old t}, (d.tables.leaves cls).find plan.id = some old →
      putRevocations d t = afterPlan d plan (some old) t := by
    intro old t hold
    simp only [afterPlan, ← hold, putLeaf, Table.put_find, Function.update_eq_self]
  unfold Plan.prog
  cases haction : plan.action with
  | enroll new repeats =>
    simp only [bind_eq, run_bind_ok, run_mapError_ok, run_upsertEnrollment_ok,
      run_settle_ok, rowStep_enroll]
    constructor
    · rintro ⟨n, _, ⟨hcheck, ⟨old, hold, rfl, rfl⟩ | ⟨hnone, rfl, rfl⟩⟩, rfl, hn⟩
      · rcases hn with hn | ⟨-, old', hold', hrepeats⟩
        · cases hn
        · exact ⟨some old', none, _, ⟨hcheck, rfl, .inr ⟨old', hold', hrepeats, rfl⟩⟩, by simp,
            rfl, hkept hold'⟩
      · exact ⟨some new, none, _, ⟨hcheck, rfl, .inl ⟨hnone, rfl⟩⟩, by simp, rfl, rfl⟩
    · rintro ⟨_, _, t, ⟨hcheck, rfl, ⟨hnone, rfl⟩ | ⟨old, hold, hrepeats, rfl⟩⟩, -, hdue, rfl⟩
      · cases hdue
        exact ⟨1, _, ⟨hcheck, .inr ⟨hnone, rfl, rfl⟩⟩, rfl, .inl rfl⟩
      · cases hdue
        exact ⟨0, d, ⟨hcheck, .inl ⟨old, hold, rfl, rfl⟩⟩, (hkept hold).symm,
          .inr ⟨rfl, old, hold, hrepeats⟩⟩
  | update selects change repeats revokes =>
    simp only [bind_eq, run_bind_ok, run_mapError_ok, run_updateLeaf_ok,
      run_settle_ok, run_projectRevocation_true, rowStep_update]
    constructor
    · rintro ⟨n, _, ⟨hnone, rfl, rfl⟩ | ⟨old, hold, hselects, hcheck, rfl, rfl⟩, _, _, ⟨rfl, hn⟩,
        hevent, t, hdue, rfl⟩
      · rcases hn with hn | ⟨-, old, hold, hrepeats⟩
        · cases hn
        · have hother : selects old = false := by
            rw [hold] at hnone
            simpa using hnone
          exact ⟨some old, revokes, t, ⟨rfl, old, hold, .inr ⟨hother, hrepeats, rfl⟩⟩, hevent,
            hdue, hkept hold⟩
      · exact ⟨some (change old), revokes, t, ⟨rfl, old, hold, .inl ⟨hselects, hcheck, rfl⟩⟩,
          hevent, hdue, rfl⟩
    · rintro ⟨_, _, t, ⟨rfl, old, hold, ⟨hselects, hcheck, rfl⟩ | ⟨hother, hrepeats, rfl⟩⟩,
        hevent, hdue, rfl⟩
      · exact ⟨1, _, .inr ⟨old, hold, hselects, hcheck, rfl, rfl⟩, (), _, ⟨rfl, .inl rfl⟩, hevent,
          t, hdue, rfl⟩
      · exact ⟨0, d, .inl ⟨by simp [hold, hother], rfl, rfl⟩, (), d,
          ⟨rfl, .inr ⟨rfl, old, hold, hrepeats⟩⟩, hevent, t, hdue, (hkept hold).symm⟩
  | delete version der =>
    simp only [bind_eq, run_bind_ok, run_mapError_ok, run_getLeaf_ok,
      Prog.run_require_ok, run_projectRevocation_true, run_deleteLeaf_ok, rowStep_delete]
    constructor
    · rintro ⟨old, _, ⟨hold, rfl⟩, _, _, ⟨hmatch, rfl⟩, _, _, ⟨hevent, t, hdue, rfl⟩, n, _,
        hdelete, hone, rfl⟩
      rcases hdelete with ⟨-, rfl, -⟩ | ⟨-, -, -, rfl, rfl⟩
      · cases hone
      · exact ⟨none, _, t, ⟨old, hold, hmatch, rfl, rfl⟩, hevent, hdue, rfl⟩
    · rintro ⟨_, _, t, ⟨old, hold, hmatch, rfl, rfl⟩, hevent, hdue, rfl⟩
      have hversion : (old.projectionVersion == version) = true :=
        (Bool.and_eq_true_iff.mp hmatch).1
      exact ⟨old, d, ⟨hold, rfl⟩, (), d, ⟨hmatch, rfl⟩, (), _, ⟨hevent, t, hdue, rfl⟩, 1, _,
        .inr ⟨old, hold, hversion, rfl, rfl⟩, rfl, rfl⟩

end plans

end PowerManage.Pki
