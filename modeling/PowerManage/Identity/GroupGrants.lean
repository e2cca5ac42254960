import PowerManage.Identity.EffectiveAccess
import PowerManage.Store.Rebuild

/-!
# Grants to user groups

A grant names its user group by ID, and managed groups and SCIM groups share these
IDs.  The creation of a group looks at its own stream and at the table of its own
kind only, and the deletion of a group leaves the grants to it.  What keeps a grant
with the group it was made to is therefore the log: a stream creates its group in
its first event and never again.

Main results:

- `groupLog`: every group, and every group with members, was created
  and not deleted; every grant to a group was stored while there was a group.
- `grants_reach_own_group`: where no ID names groups of both kinds, a
  grant reaches the members of the group that it was made to.
- `grant_reaches_later_group`: otherwise it may reach those of another.
-/

namespace PowerManage.Identity

open Relational Store

variable {O X V : Type}

/-! ## Groups in tables and logs -/

/-- The kinds of user groups. -/
inductive GroupKind where
  | managed
  | scim
  deriving DecidableEq

/-- The streams that a kind's events stand on. -/
def GroupKind.streamType : GroupKind → String
  | managed => "managed-user-group"
  | scim => "scim-group"

/-- There is a group of a kind. -/
def GroupKind.has (t : Tables X) (groupID : String) : GroupKind → Bool
  | managed => (t.managedUserGroups.find groupID).isSome
  | scim => (t.scimGroups.find groupID).isSome

/-- There is a membership row in a group of a kind. -/
def GroupKind.member (t : Tables X) (groupID userID : String) : GroupKind → Bool
  | managed => (t.managedUserGroupMembers.find (groupID, userID)).isSome
  | scim => (t.scimGroupMembers.find (groupID, userID)).isSome

/-- A group of a kind, or a member of one, is stored. -/
def GroupKind.Occurs (t : Tables X) (groupID : String) (kind : GroupKind) : Prop :=
  kind.has t groupID = true ∨ ∃ userID, kind.member t groupID userID = true

/-- The kind of group that an event creates. -/
def Body.createsGroup : Body O → Option GroupKind
  | .userGroup (.created _) => some .managed
  | .scimGroup (.created _) => some .scim
  | _ => none

/-- The kind of group that an event deletes. -/
def Body.deletesGroup : Body O → Option GroupKind
  | .userGroup (.deleted _) => some .managed
  | .scimGroup (.deleted _) => some .scim
  | _ => none

/-- The kind of group that an event stores rows or members for. -/
def Body.fillsGroup : Body O → Option GroupKind
  | .userGroup (.created _) | .userGroup (.updated _) => some .managed
  | .scimGroup (.created _) | .scimGroup (.membershipsReplaced _) => some .scim
  | _ => none

/-- The grant that an event stores under its stream's ID. -/
def grantStored (e : Ev O) : Option GrantRow :=
  match e.body with
  | .authorization (.grantCreated payload) => (validateGrantCreation e payload).toOption
  | .authorization (.grantUpdated payload) => (validateGrantUpdate e payload).toOption
  | _ => none

/-- A group of a kind was created and has not been deleted. -/
structure Live (events : List (Ev O)) (kind : GroupKind) (groupID : String) : Prop where
  created : ∃ e ∈ events, e.body.createsGroup = some kind ∧ e.streamID = groupID
  kept : ∀ e ∈ events, e.body.deletesGroup = some kind → e.streamID ≠ groupID

/-- If a grant is one to a user group, it was stored while there was such a group. -/
def Made (events : List (Ev O)) (grantID : String) (row : GrantRow) : Prop :=
  row.principalType = .userGroup → ∃ before e after, events = before ++ e :: after ∧
    e.streamID = grantID ∧ grantStored e = some row ∧ ∃ kind, Live before kind row.principalID

/-- Grants to user groups reach only the group that was there when they were made. -/
structure GrantsReachOwnGroup (d : Db O X) : Prop where
  /-- No ID is that of a managed group and of a SCIM group. -/
  apart : ∀ groupID, ¬ (GroupKind.managed.has d.tables groupID = true ∧
    GroupKind.scim.has d.tables groupID = true)
  /-- Whoever inherits a grant does so as a member of a group that was created before
  the event that stored the grant, and that has not been deleted since. -/
  inherited : ∀ userID, ∀ grant ∈ listResolvedAuthorizationGrants d.tables userID,
    grant.principalType = .userGroup →
      ∀ kind, kind.member d.tables grant.principalID userID = true →
        ∃ row before e after, d.tables.authorizationGrants.find grant.grantID = some row ∧
          d.events = before ++ e :: after ∧ e.streamID = grant.grantID ∧
          grantStored e = some row ∧ Live before kind grant.principalID ∧
          Live d.events kind grant.principalID

/-! ## What projectors store -/

open GroupKind (has member)

section rows

variable {Q Q' : GroupKind → String → Prop} {G G' : String → GrantRow → Prop} {t : Tables X}

/-- The groups, their members and the grants have a property. -/
structure GroupRows (Q : GroupKind → String → Prop) (G : String → GrantRow → Prop)
    (t : Tables X) : Prop where
  managed : t.managedUserGroups.AllRows fun id _ => Q .managed id
  managedMembers : t.managedUserGroupMembers.AllRows fun key _ => Q .managed key.1
  scim : t.scimGroups.AllRows fun id _ => Q .scim id
  scimMembers : t.scimGroupMembers.AllRows fun key _ => Q .scim key.1
  grants : t.authorizationGrants.AllRows G

/-- The write stores only groups, members and grants with a property. -/
def Write.KeepsGroups (Q : GroupKind → String → Prop) (G : String → GrantRow → Prop) :
    Write V → Prop
  | .managedUserGroups w => w.Respects fun id _ => Q .managed id
  | .managedUserGroupMembers w => w.Respects fun key _ => Q .managed key.1
  | .scimGroups w => w.Respects fun id _ => Q .scim id
  | .scimGroupMembers w => w.Respects fun key _ => Q .scim key.1
  | .authorizationGrants w => w.Respects G
  | _ => True

theorem GroupRows.apply [Applies V X] (h : GroupRows Q G t) {w : Write V}
    (hw : w.KeepsGroups Q G) : GroupRows Q G (w.apply t) := by
  obtain ⟨h1, h2, h3, h4, h5⟩ := h
  cases w with
  | managedUserGroups w => exact ⟨h1.apply hw, h2, h3, h4, h5⟩
  | managedUserGroupMembers w => exact ⟨h1, h2.apply hw, h3, h4, h5⟩
  | scimGroups w => exact ⟨h1, h2, h3.apply hw, h4, h5⟩
  | scimGroupMembers w => exact ⟨h1, h2, h3, h4.apply hw, h5⟩
  | authorizationGrants w => exact ⟨h1, h2, h3, h4, h5.apply hw⟩
  | _ => exact ⟨h1, h2, h3, h4, h5⟩

/-- The properties may be exchanged for others that they imply of what is stored. -/
theorem GroupRows.imp (h : GroupRows Q G t)
    (hQ : ∀ kind id, kind.Occurs t id → Q kind id → Q' kind id)
    (hG : ∀ id row, G id row → G' id row) : GroupRows Q' G' t where
  managed id row hrow :=
    hQ .managed id (.inl (by simp [has, hrow])) (h.managed id row hrow)
  managedMembers key row hrow := hQ .managed key.1
    (.inr ⟨key.2, by simp [member, hrow]⟩) (h.managedMembers key row hrow)
  scim id row hrow := hQ .scim id (.inl (by simp [has, hrow])) (h.scim id row hrow)
  scimMembers key row hrow := hQ .scim key.1
    (.inr ⟨key.2, by simp [member, hrow]⟩) (h.scimMembers key row hrow)
  grants id row hrow := hG id row (h.grants id row hrow)

theorem GroupRows.occurs (h : GroupRows Q G t) {kind : GroupKind} {groupID : String}
    (hoccurs : kind.Occurs t groupID) : Q kind groupID := by
  obtain ⟨h1, h2, h3, h4, -⟩ := h
  cases kind <;> grind [GroupKind.Occurs, has, member, Table.AllRows, Option.isSome_iff_exists]

/-- The effect stores a group, a member or a grant. -/
def Effect.addsGroup : Effect → Bool
  | .insert .managedUserGroups | .insert .managedUserGroupMembers | .insert .scimGroups
  | .insert .scimGroupMembers | .insert .authorizationGrants | .update .authorizationGrants => true
  | _ => false

theorem keepsGroups_of_within {effects : List Effect}
    (hnone : effects.any Effect.addsGroup = false) {w : Write V} (h : w.Within effects) :
    w.KeepsGroups Q G := by
  obtain ⟨eff, heff, hdoes⟩ := h
  cases w <;> grind [cases RowWrite, Write.KeepsGroups, Write.Does, rowEffect, RowWrite.Respects,
    Effect.addsGroup]

open Prog.Writes

attribute [local grind =] Write.KeepsGroups RowWrite.Respects bind_eq_ok grantStored

theorem decodeUserGroupEvent_id {e : Ev O} {eventType : String} {payload : Payload UserGroupPayload}
    {group : UserGroup} (hfold : toUpper e.streamID = e.streamID)
    (h : decodeUserGroupEvent e eventType payload = .ok group) : group.id = e.streamID := by
  simp [decodeUserGroupEvent, normalizeUserGroup, bind_eq_ok, canonicalUserGroupID,
    canonicalULID] at h
  grind

/-- An event stores groups and members under its stream's ID only. -/
theorem project_keepsGroups {x : Externals} {others : OtherDomains O X V} {e : Ev O}
    (hfold : e.body.fillsGroup = some .managed → toUpper e.streamID = e.streamID)
    (hfills : ∀ kind, e.body.fillsGroup = some kind → Q kind e.streamID)
    (hgrant : ∀ row, grantStored e = some row → G e.streamID row) :
    (project x others false e).Writes (Write.KeepsGroups Q G) := by
  have hother : e.body.effects.any Effect.addsGroup = false →
      (project x others false e).Writes (Write.KeepsGroups Q G) := fun hnone =>
    (project_writes x e others false).mono fun _ hw => keepsGroups_of_within hnone hw.1
  have hmanaged : e.body.fillsGroup = some .managed → ∀ {eventType payload group},
      decodeUserGroupEvent e eventType payload = .ok group → Q .managed group.id := by
    intro hbody eventType payload group hgroup
    rw [decodeUserGroupEvent_id (hfold hbody) hgroup]
    exact hfills .managed hbody
  cases hbody : e.body with
  | user body => cases body <;> exact hother (by rw [hbody]; rfl)
  | userGroup body =>
    cases body with
    | created payload =>
      rw [project, hbody]
      refine ofExcept_bind fun group hgroup => ?_
      have hQ := hmanaged (by rw [hbody]; rfl) (check_bind_eq_ok.mp hgroup).2
      exact bind (mapError (write (by grind))) fun _ => forEach (fun _ => affectOne (by grind)) _
    | updated payload =>
      rw [project, hbody]
      refine ofExcept_bind fun group hgroup => ?_
      have hQ := hmanaged (by rw [hbody]; rfl) (check_bind_eq_ok.mp hgroup).2
      exact bind (affectOne (by grind)) fun _ => bind (mapError (write (by grind))) fun _ =>
        forEach (fun _ => affectOne (by grind)) _
    | _ => exact hother (by rw [hbody]; rfl)
  | scimGroup body =>
    cases body with
    | created payload =>
      rw [project, hbody]
      have hQ := hfills .scim (by rw [hbody]; rfl)
      exact bind ofExcept fun _ => mapError (write (by grind))
    | membershipsReplaced payload =>
      rw [project, hbody]
      have hQ := hfills .scim (by rw [hbody]; rfl)
      have hmember : ∀ userID, (insertSCIMGroupMember e.streamID userID e.streamVersion :
          ProjProg O X V Nat).Writes (Write.KeepsGroups Q G) := fun _ =>
        statement (by grind [map_eq_ok])
      exact bind ofExcept fun _ => bind (mapError (write (by grind))) fun _ =>
        bind (forEach (fun _ => bind require fun _ => bind (mapError (hmember _)) fun _ => require)
          _) fun _ => affectOne (by grind)
    | _ => exact hother (by rw [hbody]; rfl)
  | authorization body =>
    cases body with
    | grantCreated payload =>
      rw [project, hbody]
      refine ofExcept_bind fun row hrow => ?_
      have hG := hgrant row (by simp [grantStored, hbody, hrow, Except.toOption])
      exact bind (mapError query) fun _ => bind query fun _ => bind require fun _ =>
        mapError (write (by grind))
    | grantUpdated payload =>
      rw [project, hbody]
      refine ofExcept_bind fun row hrow => ?_
      have hG := hgrant row (by simp [grantStored, hbody, hrow, Except.toOption])
      exact bind (mapError query) fun _ => bind (bind query fun _ => require) fun _ =>
        affectOne (by grind)
    | _ => exact hother (by rw [hbody]; rfl)
  | bootstrapLogin body => cases body <;> exact hother (by rw [hbody]; rfl)
  | other body => exact hother (by rw [hbody]; rfl)

end rows

/-! ## What accepted events say about the groups -/

section accepted

variable [Applies V X] {x : Externals} {others : OtherDomains O X V} {e : Ev O}
variable {kind : GroupKind} {d d' : Db O X}

attribute [local simp] Prog.bind_eq Prog.run_bind_ok Prog.run_ofExcept_ok Prog.run_mapError_ok
  Prog.run_write_ok Prog.run_affectOne_ok Prog.run_require_ok Prog.run_query_ok bind_eq_ok
  requireElse_eq_ok requireThat_eq_ok Option.filter_eq_some_iff

/-- An event that stores members creates their group or finds it. -/
theorem has_of_fillsGroup
    (hfold : e.body.fillsGroup = some .managed → toUpper e.streamID = e.streamID)
    (hfills : e.body.fillsGroup = some kind)
    (hrun : (project x others false e).run d = .ok ((), d')) :
    e.body.createsGroup = some kind ∧ e.streamVersion = 1 ∨
      kind.has d.tables e.streamID = true := by
  rw [project] at hrun
  cases hbody : e.body with
  | userGroup body =>
    simp only [hbody] at hrun hfills ⊢
    cases body with
    | created payload =>
      simp [projectUserGroup, projectUserGroupCreated, validateUserGroupCreation] at hrun
      cases hfills
      exact .inl ⟨rfl, by grind⟩
    | updated payload =>
      simp [projectUserGroup, projectUserGroupUpdated, validateUserGroupUpdate,
        replaceUserGroup] at hrun
      cases hfills
      obtain ⟨group, ⟨-, hgroup⟩, ⟨row, ⟨hrow, -⟩, -⟩, -⟩ := hrun
      rw [decodeUserGroupEvent_id (hfold (by rw [hbody]; rfl)) hgroup] at hrow
      exact .inr (by simp [has, hrow])
    | _ => cases hfills
  | scimGroup body =>
    simp only [hbody] at hrun hfills ⊢
    cases body with
    | created payload =>
      simp [projectSCIMGroup, projectSCIMGroupCreated, validateSCIMGroupCreation] at hrun
      cases hfills
      exact .inl ⟨rfl, by grind⟩
    | membershipsReplaced payload =>
      simp [projectSCIMGroup, projectSCIMGroupMembershipsReplaced, deleteSCIMGroupMembers,
        advanceSCIMGroup] at hrun
      cases hfills
      obtain ⟨p, -, _, d₁, hloop, row, ⟨hrow, -⟩, -⟩ := hrun
      have hgroups := run_frame (f := fun t => t.scimGroups)
        (Prog.Writes.forEach
          (fun _ => replaceSCIMGroupMember_writes x e (List.mem_singleton_self _)) _)
        (fun w t (hw : w.table ∉ [.scimGroups]) => by
          cases w <;> simp_all [Write.table, Write.apply])
        (by simp [Effect.table]) hloop
      change d₁.tables.scimGroups = d.tables.scimGroups at hgroups
      exact .inr (by simp [has, ← hgroups, hrow])
    | _ => cases hfills
  | _ => simp [hbody, Body.fillsGroup] at hfills

/-- An event that deletes a group leaves neither it nor its members. -/
theorem not_occurs_of_deletesGroup (hdeletes : e.body.deletesGroup = some kind)
    (hrun : (project x others false e).run d = .ok ((), d')) :
    ¬ kind.Occurs d'.tables e.streamID := by
  rw [project] at hrun
  cases hbody : e.body with
  | userGroup body =>
    simp only [hbody] at hrun hdeletes
    cases body with
    | deleted payload =>
      simp [projectUserGroup, projectUserGroupDeleted, deleteUserGroup] at hrun
      cases hdeletes
      obtain ⟨-, -, rfl⟩ := hrun
      simp [GroupKind.Occurs, has, member, membersOf, Write.apply]
    | _ => cases hdeletes
  | scimGroup body =>
    simp only [hbody] at hrun hdeletes
    cases body with
    | deleted payload =>
      simp [projectSCIMGroup, projectSCIMGroupDeleted, deleteSCIMGroup] at hrun
      cases hdeletes
      obtain ⟨_, -, -, rfl⟩ := hrun
      simp [GroupKind.Occurs, has, member, membersOf, Write.apply]
    | _ => cases hdeletes
  | _ => simp [hbody, Body.deletesGroup] at hdeletes

/-- A grant is stored only to a principal that is there. -/
theorem has_of_grantStored {row : GrantRow} (hstored : grantStored e = some row)
    (htype : row.principalType = .userGroup)
    (hrun : (project x others false e).run d = .ok ((), d')) :
    GroupKind.managed.has d.tables row.principalID = true ∨
      GroupKind.scim.has d.tables row.principalID = true := by
  rw [project] at hrun
  cases hbody : e.body with
  | authorization body =>
    simp only [hbody, grantStored] at hrun hstored
    cases body with
    | grantCreated payload =>
      simp [projectAuthorization, projectAuthorizationGrantCreated, requireRole,
        authorizationPrincipalExists, getAuthorizationRole] at hrun
      grind [has, Except.toOption]
    | grantUpdated payload =>
      simp [projectAuthorization, projectAuthorizationGrantUpdated, requireRole, requirePrincipal,
        authorizationPrincipalExists, getAuthorizationRole] at hrun
      grind [has, Except.toOption]
    | _ => cases hstored
  | _ => simp [hbody, grantStored] at hstored

/-- What an accepted log says about the groups and grants that are stored. -/
structure GroupLog (d : Db O X) : Prop where
  streams : ∀ e ∈ d.events, e.body.OnStream e.streamType
  rows : GroupRows (Live d.events) (Made d.events) d.tables

theorem Made.append {events : List (Ev O)} {grantID : String} {row : GrantRow}
    (h : Made events grantID row) (e : Ev O) : Made (events ++ [e]) grantID row := by
  intro htype
  obtain ⟨before, e', after, rfl, hrest⟩ := h htype
  exact ⟨before, e', after ++ [e], by simp, hrest⟩

/-- The events of a group stand on streams of its kind. -/
theorem streamType_of_group {body : Body O} {streamType : String} (h : body.OnStream streamType)
    (hbody : body.createsGroup = some kind ∨ body.deletesGroup = some kind ∨
      body.fillsGroup = some kind) : streamType = kind.streamType := by
  cases body with
  | userGroup body =>
    cases body <;> grind [Body.createsGroup, Body.deletesGroup, Body.fillsGroup, Body.OnStream,
      GroupKind.streamType]
  | scimGroup body =>
    cases body <;> grind [Body.createsGroup, Body.deletesGroup, Body.fillsGroup, Body.OnStream,
      GroupKind.streamType]
  | _ => simp [Body.createsGroup, Body.deletesGroup, Body.fillsGroup] at hbody

variable {built : Event (Body O) → Prop}

theorem GroupLog.accept (h : GroupLog d) (hadm : Admissible (registry x others) built d e)
    (haccept : acceptEvent (registry x others) d e = .ok d') : GroupLog d' := by
  have hrun := projectEvent_ok.mp haccept
  have hstream := onStream_of_admissible hadm
  have hfold : e.body.fillsGroup = some .managed → toUpper e.streamID = e.streamID := by
    intro hfills
    refine hadm.folded ?_
    rw [streamType_of_group hstream (.inr (.inr hfills))]
    decide
  -- Groups that an event stores for are there already, or start with it.
  let Q kind id := Live d.events kind id ∨
    e.body.createsGroup = some kind ∧ e.streamVersion = 1 ∧ id = e.streamID
  have hwrites : (project x others false e).Writes
      (Write.KeepsGroups Q (Made (d.events ++ [e]))) := by
    refine project_keepsGroups hfold ?_ ?_
    · intro kind hfills
      rcases has_of_fillsGroup hfold hfills hrun with ⟨hcreates, hversion⟩ | hhas
      · exact .inr ⟨hcreates, hversion, rfl⟩
      · exact .inl (h.rows.occurs (.inl hhas))
    · intro row hstored htype
      refine ⟨d.events, e, [], rfl, rfl, hstored, ?_⟩
      rcases has_of_grantStored hstored htype hrun with hhas | hhas
      · exact ⟨_, h.rows.occurs (.inl hhas)⟩
      · exact ⟨_, h.rows.occurs (.inl hhas)⟩
  obtain ⟨hevents, ws, hws, htables⟩ := projectEvent_writes hwrites haccept
  have hrows : GroupRows Q (Made (d.events ++ [e])) d'.tables := by
    rw [htables]
    refine applyAll_induction (fun w hw t ht => ht.apply (hws w hw)) ?_
    exact h.rows.imp (fun _ _ _ => .inl) fun _ _ hmade => hmade.append e
  rw [← show d'.events = d.events ++ [e] from hevents] at hrows
  refine ⟨?_, hrows.imp ?_ fun _ _ => id⟩
  · grind [h.streams]
  intro kind id hoccurs hQ
  have hkept : e.body.deletesGroup = some kind → e.streamID ≠ id := by
    rintro hdeletes rfl
    exact not_occurs_of_deletesGroup hdeletes hrun hoccurs
  rcases hQ with hlive | ⟨hcreates, hversion, rfl⟩
  · obtain ⟨e', he', hcreated⟩ := hlive.created
    exact ⟨⟨e', by simp [hevents, he'], hcreated⟩, by grind [hlive.kept]⟩
  · refine ⟨⟨e, by simp [hevents], hcreates, rfl⟩, ?_⟩
    intro e' he' hdeletes hid
    rw [hevents, List.mem_append, List.mem_singleton] at he'
    rcases he' with he' | rfl
    · -- A stream's first event has none before it.
      have htype := streamType_of_group (h.streams e' he') (.inr (.inl hdeletes))
      rw [← streamType_of_group hstream (.inl hcreates)] at htype
      have hmem : e'.streamVersion ∈ versionsOf d.events e.stream :=
        mem_versionsOf.mpr ⟨e', he', by simp [Event.stream, htype, hid], rfl⟩
      have hnext := hadm.next
      have hpos := List.length_pos_of_mem hmem
      rw [streamLength] at hnext
      omega
    · exact hkept hdeletes rfl

/-- Groups that are stored, or have members, were created and not deleted; grants to
groups were stored while there was one. -/
theorem groupLog {rest : X} (hacc : Accepted (registry x others) built (Tables.init rest) d) :
    GroupLog d := by
  refine hacc.extends.induction (P := GroupLog) (fun _ _ _ h hadm => h.accept hadm) ?_
  exact ⟨by simp, .empty, .empty, .empty, .empty, .empty⟩

/-- In every accepted log that creates no managed group and SCIM group under one ID, a
grant to a user group reaches the members of the group that it was made to. -/
theorem grants_reach_own_group (x : Externals) (others : OtherDomains O X V)
    (built : Event (Body O) → Prop) (rest : X) (d : Db O X)
    (hacc : Accepted (registry x others) built (Tables.init rest) d)
    (hunshared : ∀ e ∈ d.events, ∀ e' ∈ d.events, e.body.createsGroup = some .managed →
      e'.body.createsGroup = some .scim → e.streamID ≠ e'.streamID) : GrantsReachOwnGroup d := by
  have hrows := (groupLog hacc).rows
  have hsame : ∀ {before kind kind' id}, before ⊆ d.events → Live before kind id →
      Live d.events kind' id → kind = kind' := by
    intro before kind kind' id hbefore hlive hlive'
    obtain ⟨e, he, hcreates, hid⟩ := hlive.created
    obtain ⟨e', he', hcreates', hid'⟩ := hlive'.created
    cases kind <;> cases kind' <;> grind
  refine ⟨?_, ?_⟩
  · rintro groupID ⟨hmanaged, hscim⟩
    cases hsame (List.Subset.refl _) (hrows.occurs (.inl hmanaged)) (hrows.occurs (.inl hscim))
  · intro userID grant hgrant htype kind hmember
    obtain ⟨grantID, row, hrow, -, hresolved⟩ := mem_listResolvedAuthorizationGrants.mp hgrant
    obtain ⟨row', role, hrow', -, rfl⟩ := resolveGrant_eq_some.mp hresolved
    cases hrow.symm.trans hrow'
    obtain ⟨before, e, after, hevents, hid, hstored, kind', hmade⟩ := hrows.grants _ row hrow htype
    have hlive := hrows.occurs (.inr ⟨userID, hmember⟩)
    have hbefore : before ⊆ d.events := by simp [hevents]
    cases hsame hbefore hmade hlive
    exact ⟨row, before, e, after, hrow, hevents, hid, hstored, hmade, hlive⟩

end accepted

/-- A user, a role and a managed group to which the role is granted. -/
def groupGranted (members : List String) : List (Event (Body Empty)) :=
  [userCreated (sampleID '1') "ada@example.com", roleCreated (sampleID '2') "administrator",
    userGroupCreated (sampleID '3') "operators" members,
    eventOn "authorization-grant" (sampleID '4') (.authorization (.grantCreated
      (.decoded ⟨"user-group", sampleID '3', sampleID '2', "global", []⟩)))]

/-- A SCIM group that is created later, under the ID of the managed group. -/
def laterGroup : List (Event (Body Empty)) :=
  [eventOn "scim-group" (sampleID '3') (.scimGroup (.created (.decoded ⟨"okta", "x", "x"⟩))),
    eventOn "scim-group" (sampleID '3')
      (.scimGroup (.membershipsReplaced (.decoded ⟨[sampleID '1']⟩)))]

/-- The only member of the later group inherits the grant to the earlier one. -/
theorem grant_reaches_later_group :
    ∃ d, Accepted (registry asciiExternals noOthers) (fun _ => True) (Tables.init ()) d ∧
      GroupKind.managed.member d.tables (sampleID '3') (sampleID '1') = false ∧
      (listResolvedAuthorizationGrants d.tables (sampleID '1')).map (·.grantID) = [sampleID '4'] ∧
      ¬ GrantsReachOwnGroup d := by
  have hrun : (appendInOrder (groupGranted [] ++ laterGroup)).any (fun d =>
      GroupKind.managed.has d.tables (sampleID '3') && GroupKind.scim.has d.tables (sampleID '3') &&
      !GroupKind.managed.member d.tables (sampleID '3') (sampleID '1') &&
      (listResolvedAuthorizationGrants d.tables (sampleID '1')).map (·.grantID) ==
        [sampleID '4']) = true := by
    decide +kernel
  obtain ⟨d, hd, hstate⟩ := (Option.any_eq_true _ _).mp hrun
  simp only [Bool.and_eq_true, beq_iff_eq, Bool.not_eq_true'] at hstate
  exact ⟨d, appendInOrder_accepted (fun _ _ => trivial) hd, hstate.1.2, hstate.2,
    fun h => h.apart _ hstate.1.1⟩

/-- Without it, the member of the managed group inherits the grant. -/
theorem grant_reaches_only_group :
    ∃ d, Accepted (registry asciiExternals noOthers) (fun _ => True) (Tables.init ()) d ∧
      (listResolvedAuthorizationGrants d.tables (sampleID '1')).map (·.grantID) = [sampleID '4'] ∧
      GrantsReachOwnGroup d := by
  have hrun : (appendInOrder (groupGranted [sampleID '1'])).any (fun d =>
      (d.events.all fun e => decide (e.body.createsGroup ≠ some .scim)) &&
      (listResolvedAuthorizationGrants d.tables (sampleID '1')).map (·.grantID) ==
        [sampleID '4']) = true := by
    decide +kernel
  obtain ⟨d, hd, hstate⟩ := (Option.any_eq_true _ _).mp hrun
  simp only [Bool.and_eq_true, beq_iff_eq, List.all_eq_true, decide_eq_true_eq] at hstate
  have hacc : Accepted (registry asciiExternals noOthers) (fun _ => True) (Tables.init ()) d :=
    appendInOrder_accepted (fun _ _ => trivial) hd
  exact ⟨d, hacc, hstate.2, grants_reach_own_group _ _ _ _ d hacc fun _ _ e' he' _ h =>
    absurd h (hstate.1 e' he')⟩

end PowerManage.Identity
