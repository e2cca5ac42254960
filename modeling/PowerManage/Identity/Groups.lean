import PowerManage.Identity.Users

/-!
# Projectors of the managed and the SCIM group targets

Both targets keep a group row and its membership rows, and both insert a member
by selecting the user's row, so a member that is no user inserts nothing.  They
differ in what a rebuild makes of that: the SCIM projector skips the member, the
managed projector fails.
-/

namespace PowerManage.Identity

open Relational Store

variable {O X V : Type}

/-! ## Managed groups -/

def userGroupPayloadVersion : Int := 1

def errUserGroupExists : StoreError := .message "store: user group already exists"

/-- `UserGroup`, without the version that the event carries. -/
structure UserGroup where
  id : String
  name : String
  memberUserIDs : List String
  deriving DecidableEq, Repr

def canonicalUserGroupID (id : String) : Except StoreError String :=
  (canonicalULID id).mapError fun reason =>
    .wrapped "store: user-group ID is invalid" (.message reason)

/-- Canonical forms of the member IDs, in order. -/
def canonicalMembers (invalid : StoreError) : List String → Except StoreError (List String)
  | [] => .ok []
  | member :: members => do
      let member ← (canonicalUserID member).mapError fun _ => invalid
      let members ← canonicalMembers invalid members
      .ok (member :: members)

def normalizeUserGroup (id name : String) (memberUserIDs : List String) (version : Nat) :
    Except StoreError UserGroup := do
  let id ← canonicalUserGroupID id
  requireThat (1 ≤ byteLen name && byteLen name ≤ 512) "store: user-group name is invalid"
  requireThat (memberUserIDs.length ≤ 1000) "store: user-group membership is too large"
  let members ← canonicalMembers (.message "store: user-group member is invalid") memberUserIDs
  let members := sortText members
  requireThat (noDuplicates members) "store: user-group membership contains duplicates"
  requireThat (1 ≤ version) "store: user-group projection version is invalid"
  .ok { id, name, memberUserIDs := members }

/-- The check constraints of `managed_user_groups`. -/
def checkUserGroup (groupID : String) (row : UserGroupRow) : Except StoreError Unit :=
  if ¬ ulidCheck groupID then
    .error (checkViolation "managed_user_groups_group_id_ulid_check")
  else if ¬ octetsBetween 1 512 row.name then
    .error (checkViolation "managed_user_groups_name_len_check")
  else if row.projectionVersion = 0 then
    .error (checkViolation "managed_user_groups_projection_version_check")
  else .ok ()

/-- The unique name of `managed_user_groups`. -/
def uniqueGroupName (t : Tables X) (groupID name : String) : Except StoreError Unit :=
  if t.managedUserGroups.anyRow fun id row => id ≠ groupID && row.name == name then
    .error (uniqueViolation "managed_user_groups_name_key")
  else .ok ()

/-- `InsertManagedUserGroup`. -/
def insertUserGroup (groupID : String) (row : UserGroupRow) : ProjProg O X V Unit :=
  .write (fun _ => [.userGroup groupID, .userGroupName row.name])
    (fun d => do
      checkUserGroup groupID row
      if (d.tables.managedUserGroups.find groupID).isSome then
        .error (uniqueViolation "managed_user_groups_pkey")
      else uniqueGroupName d.tables groupID row.name)
    fun _ => [.managedUserGroups (.insert groupID row)]

/-- A group row after it is replaced. -/
def replacedUserGroup (e : Ev O) (name : String) (row : UserGroupRow) : UserGroupRow :=
  { row with name, projectionVersion := e.streamVersion, updatedAt := e.createdAt }

/-- `ReplaceManagedUserGroup`. -/
def replaceUserGroup (e : Ev O) (groupID name : String)
    (context : StoreError → StoreError) (none : StoreError) : ProjProg O X V Unit :=
  .affectOne (fun _ => [.userGroup groupID, .userGroupName name])
    (fun d => (d.tables.managedUserGroups.find groupID).filter fun row =>
      row.projectionVersion == e.streamVersion - 1)
    (fun d row => do
      checkUserGroup groupID (replacedUserGroup e name row)
      uniqueGroupName d.tables groupID name
      .ok [.managedUserGroups (.update {groupID} (replacedUserGroup e name))])
    context none

/-- The membership rows of one group. -/
def membersOf (t : Table (String × String) MemberRow) (groupID : String) :
    Finset (String × String) :=
  t.keysWhere fun key _ => key.1 == groupID

/-- `DeleteManagedUserGroup`; its members cascade. -/
def deleteUserGroup (groupID : String) (version : Nat)
    (context : StoreError → StoreError) (none : StoreError) : ProjProg O X V Unit :=
  .affectOne (fun _ => [.userGroup groupID])
    (fun d => (d.tables.managedUserGroups.find groupID).filter fun row =>
      row.projectionVersion == version)
    (fun d _ => .ok
      [.managedUserGroups (.delete {groupID}),
        .managedUserGroupMembers (.delete (membersOf d.tables.managedUserGroupMembers groupID))])
    context none

/-- `DeleteManagedUserGroupMembers`. -/
def deleteUserGroupMembers (groupID : String) : ProjProg O X V Unit :=
  .write (fun _ => []) (fun _ => .ok ()) fun d =>
    [.managedUserGroupMembers (.delete (membersOf d.tables.managedUserGroupMembers groupID))]

/-- `InsertManagedUserGroupMember`: one row if the user exists, none otherwise. -/
def insertUserGroupMember (groupID userID : String) (version : Nat)
    (context : StoreError → StoreError) (none : StoreError) : ProjProg O X V Unit :=
  .affectOne (fun _ => [.userGroupMember groupID userID])
    (fun d => d.tables.users.find userID)
    (fun d _ =>
      if version = 0 then
        .error (checkViolation "managed_user_group_members_projection_version_check")
      else if (d.tables.managedUserGroupMembers.find (groupID, userID)).isSome then
        .error (uniqueViolation "managed_user_group_members_pkey")
      else if (d.tables.managedUserGroups.find groupID).isNone then
        .error (foreignKeyViolation "managed_user_group_members_group_id_fkey")
      else .ok [.managedUserGroupMembers (.insert (groupID, userID) ⟨version⟩)])
    context none

section userGroups

variable (e : Ev O)

def decodeUserGroupEvent (eventType : String) (payload : Payload UserGroupPayload) :
    Except StoreError UserGroup := do
  let payload ← decodePayload eventType e userGroupPayloadVersion payload
  normalizeUserGroup e.streamID payload.name payload.memberUserIDs e.streamVersion

def replaceUserGroupMembers (group : UserGroup) : ProjProg O X V Unit :=
  Prog.forEach (fun userID =>
    insertUserGroupMember group.id userID e.streamVersion
      (.wrapped "store: project user-group member")
      (.message "store: user-group member does not exist")) group.memberUserIDs

/-- The checks of `projectUserGroupCreated`. -/
def validateUserGroupCreation (payload : Payload UserGroupPayload) :
    Except StoreError UserGroup := do
  requireElse (e.streamVersion == 1) errUserGroupExists
  decodeUserGroupEvent e "ManagedUserGroupCreated" payload

/-- The row of a new group. -/
def newUserGroup (name : String) : UserGroupRow where
  name := name
  projectionVersion := e.streamVersion
  updatedAt := e.createdAt

def projectUserGroupCreated (payload : Payload UserGroupPayload) : ProjProg O X V Unit := do
  let group ← Prog.ofExcept (validateUserGroupCreation e payload)
  (insertUserGroup group.id (newUserGroup e group.name)).mapError
    (.wrapped "store: project user-group creation")
  replaceUserGroupMembers e group

/-- The checks of `projectUserGroupUpdated`. -/
def validateUserGroupUpdate (payload : Payload UserGroupPayload) : Except StoreError UserGroup := do
  requireThat (2 ≤ e.streamVersion) "store: user-group update version is invalid"
  decodeUserGroupEvent e "ManagedUserGroupUpdated" payload

def projectUserGroupUpdated (payload : Payload UserGroupPayload) : ProjProg O X V Unit := do
  let group ← Prog.ofExcept (validateUserGroupUpdate e payload)
  replaceUserGroup e group.id group.name (.wrapped "store: project user-group update")
    (.message "store: user-group update projection version mismatch")
  (deleteUserGroupMembers group.id).mapError (.wrapped "store: clear user-group members")
  replaceUserGroupMembers e group

/-- The checks of `projectUserGroupMetadataUpdated`. -/
def validateUserGroupMetadataUpdate (payload : Payload UserGroupPayload) :
    Except StoreError UserGroup := do
  requireThat (2 ≤ e.streamVersion) "store: user-group metadata update version is invalid"
  let payload ←
    decodePayload "ManagedUserGroupMetadataUpdated" e userGroupPayloadVersion payload
  requireThat payload.memberUserIDs.isEmpty "store: user-group metadata update carries members"
  normalizeUserGroup e.streamID payload.name [] e.streamVersion

def projectUserGroupMetadataUpdated (payload : Payload UserGroupPayload) : ProjProg O X V Unit := do
  let group ← Prog.ofExcept (validateUserGroupMetadataUpdate e payload)
  replaceUserGroup e group.id group.name (.wrapped "store: project user-group metadata update")
    (.message "store: user-group metadata update projection version mismatch")

/-- The checks of `projectUserGroupDeleted`. -/
def validateUserGroupDeletion (payload : Payload Unit) : Except StoreError Unit := do
  requireThat (2 ≤ e.streamVersion) "store: user-group deletion version is invalid"
  decodePayload "ManagedUserGroupDeleted" e userGroupPayloadVersion payload

def projectUserGroupDeleted (payload : Payload Unit) : ProjProg O X V Unit := do
  Prog.ofExcept (validateUserGroupDeletion e payload)
  deleteUserGroup e.streamID (e.streamVersion - 1)
    (.wrapped "store: project user-group deletion")
    (.message "store: user-group deletion projection version mismatch")

/-- The projector of a managed group event. -/
def projectUserGroup : UserGroupBody → ProjProg O X V Unit
  | .created payload => projectUserGroupCreated e payload
  | .updated payload => projectUserGroupUpdated e payload
  | .metadataUpdated payload => projectUserGroupMetadataUpdated e payload
  | .deleted payload => projectUserGroupDeleted e payload

end userGroups

def resetUserGroups (t : Tables X) : Tables X :=
  { t with managedUserGroups := ∅, managedUserGroupMembers := ∅ }

/-! ## SCIM groups -/

def errSCIMInvalid : StoreError := .message "store: invalid SCIM transition"

/-- The check constraints of `scim_groups`. -/
def checkSCIMGroup (groupID : String) (row : SCIMGroupRow) : Except StoreError Unit :=
  if ¬ ulidCheck groupID then .error (checkViolation "scim_groups_group_id_ulid_check")
  else if ¬ validProviderSlug row.providerSlug then
    .error (checkViolation "scim_groups_slug_check")
  else if ¬ octetsBetween 1 1024 row.externalID then
    .error (checkViolation "scim_groups_external_id_len_check")
  else if ¬ octetsBetween 1 512 row.displayName then
    .error (checkViolation "scim_groups_display_name_len_check")
  else if row.projectionVersion = 0 then
    .error (checkViolation "scim_groups_projection_version_check")
  else .ok ()

/-- The unique provider and external ID of `scim_groups`. -/
def uniqueSCIMGroup (t : Tables X) (groupID : String) (row : SCIMGroupRow) :
    Except StoreError Unit :=
  if t.scimGroups.anyRow fun id other =>
      id ≠ groupID && other.providerSlug == row.providerSlug &&
        other.externalID == row.externalID then
    .error (uniqueViolation "scim_groups_provider_external_key")
  else .ok ()

def insertSCIMGroup (groupID : String) (row : SCIMGroupRow) : ProjProg O X V Unit :=
  .write (fun _ => [.scimGroup groupID, .scimGroupExternal row.providerSlug row.externalID])
    (fun d => do
      checkSCIMGroup groupID row
      if (d.tables.scimGroups.find groupID).isSome then
        .error (uniqueViolation "scim_groups_pkey")
      else uniqueSCIMGroup d.tables groupID row)
    fun _ => [.scimGroups (.insert groupID row)]

/-- A SCIM group row after an update. -/
def updatedSCIMGroup (e : Ev O) (payload : SCIMGroupPayload) (row : SCIMGroupRow) : SCIMGroupRow :=
  { row with
    externalID := payload.externalID, displayName := payload.displayName,
    projectionVersion := e.streamVersion, updatedAt := e.createdAt }

def updateSCIMGroup (e : Ev O) (payload : SCIMGroupPayload)
    (context : StoreError → StoreError) (none : StoreError) : ProjProg O X V Unit :=
  .affectOne
    (fun _ => [.scimGroup e.streamID, .scimGroupExternal payload.providerSlug payload.externalID])
    (fun d => (d.tables.scimGroups.find e.streamID).filter fun row =>
      row.providerSlug == payload.providerSlug && row.projectionVersion == e.streamVersion - 1)
    (fun d row => do
      checkSCIMGroup e.streamID (updatedSCIMGroup e payload row)
      uniqueSCIMGroup d.tables e.streamID (updatedSCIMGroup e payload row)
      .ok [.scimGroups (.update {e.streamID} (updatedSCIMGroup e payload))])
    context none

/-- A SCIM group row after its memberships changed. -/
def advancedSCIMGroup (e : Ev O) (row : SCIMGroupRow) : SCIMGroupRow :=
  { row with projectionVersion := e.streamVersion, updatedAt := e.createdAt }

/-- `AdvanceSCIMGroupProjectionVersion`. -/
def advanceSCIMGroup (e : Ev O) (context : StoreError → StoreError) (none : StoreError) :
    ProjProg O X V Unit :=
  .affectOne (fun _ => [.scimGroup e.streamID])
    (fun d => (d.tables.scimGroups.find e.streamID).filter fun row =>
      row.projectionVersion == e.streamVersion - 1)
    (fun _ row => do
      checkSCIMGroup e.streamID (advancedSCIMGroup e row)
      .ok [.scimGroups (.update {e.streamID} (advancedSCIMGroup e))])
    context none

/-- `DeleteSCIMGroup`; its members cascade. -/
def deleteSCIMGroup (groupID : String) (selects : SCIMGroupRow → Bool)
    (context : StoreError → StoreError) (none : StoreError) : ProjProg O X V Unit :=
  .affectOne (fun _ => [.scimGroup groupID])
    (fun d => (d.tables.scimGroups.find groupID).filter selects)
    (fun d _ => .ok
      [.scimGroups (.delete {groupID}),
        .scimGroupMembers (.delete (membersOf d.tables.scimGroupMembers groupID))])
    context none

def deleteSCIMGroupMembers (groupID : String) : ProjProg O X V Unit :=
  .write (fun _ => []) (fun _ => .ok ()) fun d =>
    [.scimGroupMembers (.delete (membersOf d.tables.scimGroupMembers groupID))]

/-- `InsertSCIMGroupMember`: one row if the user exists, none otherwise. -/
def insertSCIMGroupMember (groupID userID : String) (version : Nat) : ProjProg O X V Nat :=
  .affect (fun _ => [.scimGroupMember groupID userID])
    (fun d => d.tables.users.find userID)
    (fun d _ =>
      if ¬ ulidCheck userID then
        .error (checkViolation "scim_group_members_user_id_ulid_check")
      else if version = 0 then
        .error (checkViolation "scim_group_members_projection_version_check")
      else if (d.tables.scimGroupMembers.find (groupID, userID)).isSome then
        .error (uniqueViolation "scim_group_members_pkey")
      else if (d.tables.scimGroups.find groupID).isNone then
        .error (foreignKeyViolation "scim_group_members_group_id_fkey")
      else .ok [.scimGroupMembers (.insert (groupID, userID) ⟨version⟩)])

section scimGroups

variable (e : Ev O)

def validateSCIMGroupPayload (groupID : String) (payload : SCIMGroupPayload) :
    Except StoreError Unit :=
  requireThat (isCanonicalID groupID && validProviderSlug payload.providerSlug &&
    validBoundedText payload.externalID 1024 && validBoundedText payload.displayName 512)
    "store: SCIM group payload is invalid"

/-- The checks of `projectSCIMGroupCreated`. -/
def validateSCIMGroupCreation (payload : Payload SCIMGroupPayload) :
    Except StoreError SCIMGroupPayload := do
  requireThat (e.streamVersion == 1) "store: SCIM group creation must be stream version one"
  let payload ← decodePayload "SCIMGroupCreated" e scimPayloadVersion payload
  validateSCIMGroupPayload e.streamID payload
  .ok payload

/-- The row of a new SCIM group. -/
def newSCIMGroup (payload : SCIMGroupPayload) : SCIMGroupRow where
  providerSlug := payload.providerSlug
  externalID := payload.externalID
  displayName := payload.displayName
  projectionVersion := e.streamVersion
  updatedAt := e.createdAt

def projectSCIMGroupCreated (payload : Payload SCIMGroupPayload) : ProjProg O X V Unit := do
  let payload ← Prog.ofExcept (validateSCIMGroupCreation e payload)
  (insertSCIMGroup e.streamID (newSCIMGroup e payload)).mapError
    (.wrapped "store: project SCIM group creation")

/-- The checks of `projectSCIMGroupUpdated`. -/
def validateSCIMGroupUpdate (payload : Payload SCIMGroupPayload) :
    Except StoreError SCIMGroupPayload := do
  requireThat (1 < e.streamVersion) "store: SCIM group update requires a prior group"
  let payload ← decodePayload "SCIMGroupUpdated" e scimPayloadVersion payload
  validateSCIMGroupPayload e.streamID payload
  .ok payload

def projectSCIMGroupUpdated (payload : Payload SCIMGroupPayload) : ProjProg O X V Unit := do
  let payload ← Prog.ofExcept (validateSCIMGroupUpdate e payload)
  updateSCIMGroup e payload (.wrapped "store: project SCIM group update")
    (.message "store: SCIM group update affected 0 rows; want one")

/-- The checks of `projectSCIMGroupMembershipsReplaced` before its first statement. -/
def validateSCIMGroupMemberships (payload : Payload SCIMGroupMembershipsPayload) :
    Except StoreError SCIMGroupMembershipsPayload := do
  requireThat (1 < e.streamVersion) "store: SCIM group membership requires a prior group"
  let payload ← decodePayload "SCIMGroupMembershipsReplaced" e scimPayloadVersion payload
  requireThat (payload.userIDs.length ≤ 1000 && isSortedText payload.userIDs &&
    noDuplicates payload.userIDs) "store: SCIM group membership payload is invalid"
  .ok payload

/-- The body of the member loop. -/
def replaceSCIMGroupMember (skipWork : Bool) (userID : String) : ProjProg O X V Unit := do
  Prog.require (isCanonicalID userID) (.message "store: SCIM group member ID is invalid")
  let affected ← (insertSCIMGroupMember e.streamID userID e.streamVersion).mapError
    (.wrapped "store: insert SCIM group member")
  -- A rebuild skips members that are no longer users; a live append rejects them.
  Prog.require (affected == 1 || skipWork)
    (.annotated errSCIMInvalid "group membership requires existing users")

def projectSCIMGroupMembershipsReplaced (skipWork : Bool)
    (payload : Payload SCIMGroupMembershipsPayload) : ProjProg O X V Unit := do
  let payload ← Prog.ofExcept (validateSCIMGroupMemberships e payload)
  (deleteSCIMGroupMembers e.streamID).mapError (.wrapped "store: clear SCIM group members")
  Prog.forEach (replaceSCIMGroupMember e skipWork) payload.userIDs
  advanceSCIMGroup e (.wrapped "store: advance SCIM group membership projection")
    (.message "store: SCIM group membership affected 0 groups; want one")

/-- The checks of `projectSCIMGroupDeleted`. -/
def validateSCIMGroupDeletion (payload : Payload SCIMGroupDeletedPayload) :
    Except StoreError SCIMGroupDeletedPayload := do
  requireThat (1 < e.streamVersion) "store: SCIM group deletion requires a prior group"
  let payload ← decodePayload "SCIMGroupDeleted" e scimPayloadVersion payload
  requireThat (validProviderSlug payload.providerSlug)
    "store: SCIM group deletion provider is invalid"
  .ok payload

def projectSCIMGroupDeleted (payload : Payload SCIMGroupDeletedPayload) : ProjProg O X V Unit := do
  let payload ← Prog.ofExcept (validateSCIMGroupDeletion e payload)
  deleteSCIMGroup e.streamID
    (fun row => row.providerSlug == payload.providerSlug &&
      row.projectionVersion == e.streamVersion - 1)
    (.wrapped "store: project SCIM group deletion")
    (.message "store: SCIM group deletion affected 0 rows; want one")

/-- The projector of a SCIM group event. -/
def projectSCIMGroup (skipWork : Bool) : SCIMGroupBody → ProjProg O X V Unit
  | .created payload => projectSCIMGroupCreated e payload
  | .updated payload => projectSCIMGroupUpdated e payload
  | .membershipsReplaced payload => projectSCIMGroupMembershipsReplaced e skipWork payload
  | .deleted payload => projectSCIMGroupDeleted e payload

end scimGroups

def resetSCIMGroups (t : Tables X) : Tables X :=
  { t with scimGroups := ∅, scimGroupMembers := ∅ }

end PowerManage.Identity
