import Kaede.Guild
import Kaede.Versions

/-!
# Profiles of remote users

`upsert_remote_user` of `backend/app/federation/replication.py` on the user
table of one server, with the admission of a new identity
(`backend/app/federation/identity_storage.py`) and the opaque rows that
`resolve_delegated_profile` keeps for users whose home has not been heard
yet. A call that raises is rolled back by its caller.

A row is opaque until a profile of its home resolves it. From then on its
handle and account type are fixed, its mutable profile follows the version
and its device generation only grows.
-/

namespace Kaede

namespace Replication

/-- `MAX_DATABASE_SNOWFLAKE`. -/
def maxDatabaseSnowflake : Nat := 9223372036854775807

/-- `UNRESOLVED_REMOTE_USERNAME_ATTEMPTS`. -/
def unresolvedRemoteUsernameAttempts : Nat := 8

/-- The account types of the column; a profile has one of the first two. -/
inductive UserKind where
  | account (type : AccountType)
  | system
deriving DecidableEq, Repr

/-- What a home may change about its user. -/
structure MutableProfile where
  displayName : Option String := none
  avatarHash : Option String := none
  bannerHash : Option String := none
  bio : Option String := none
  customStatus : Option String := none
deriving DecidableEq, Repr

structure RemoteUserProfile where
  ref : UserRef
  accountType : AccountType := .human
  username : String
  profile : MutableProfile := {}
  profileVersion : Nat := 1
  e2eeDeviceGeneration : Nat := 0
deriving DecidableEq, Repr

structure UserRow where
  ref : UserRef
  isLocal : Bool
  username : String
  accountType : UserKind := .account .human
  profile : MutableProfile := {}
  profileVersion : Nat := 1
  e2eeDeviceGeneration : Nat := 0
  profileResolved : Bool := true
  federationIntroducedByDomain : Option String
deriving DecidableEq, Repr

/-- The user table. -/
structure Users where
  localDomain : String
  remoteUsersPerIntroducer : Nat
  rows : List UserRow := []
deriving DecidableEq, Repr

inductive ProfileError where
  | userNotFound
  | value (message : String)
  | identityQuotaExceeded
  | notConverged
deriving DecidableEq, Repr

namespace Users

def user? (s : Users) (ref : UserRef) : Option UserRow := lookupBy UserRow.ref ref s.rows

def setUser (s : Users) (row : UserRow) : Users :=
  { s with rows := updateBy UserRow.ref row.ref (fun _ => row) s.rows }

/-- `lower` of a handle, which is ASCII. -/
def lower (username : String) : List Char := username.toList.map Char.toLower

/-- The unique index on the lowered handle of a home. -/
def UsernameFree (s : Users) (ref : UserRef) (username : String) : Prop :=
  ∀ u ∈ s.rows, u.ref.domain = ref.domain → lower u.username = lower username → u.ref = ref

instance (s : Users) (ref : UserRef) (username : String) :
    Decidable (s.UsernameFree ref username) :=
  inferInstanceAs (Decidable (∀ u ∈ s.rows, _))

/-- `INSERT ... ON CONFLICT DO NOTHING`. -/
def insertUser (s : Users) (row : UserRow) : Users :=
  if (s.user? row.ref).isNone ∧ s.UsernameFree row.ref row.username then
    { s with rows := s.rows ++ [row] }
  else s

/-! ## Admission -/

/-- A domain may introduce one more user. -/
def WithinAllowance (s : Users) (introducer : String) : Prop :=
  (s.rows.filter fun u => !u.isLocal &&
    u.federationIntroducedByDomain = some introducer).length < s.remoteUsersPerIntroducer

instance (s : Users) (introducer : String) : Decidable (s.WithinAllowance introducer) :=
  inferInstanceAs (Decidable (_ < _))

/-- `admit_remote_user_identity`: the row if there is one, and the domain
it is charged to. -/
def admitRemoteUserIdentity (s : Users) (ref : UserRef) (introducedByDomain : String) :
    Except ProfileError (Users × Option UserRow × String) := do
  ensure (ref.domain ≠ s.localDomain) (.value "a local identity cannot be introduced as remote")
  match s.user? ref with
  | some existing =>
      ensure (existing.isLocal = false) (.value "remote user identity conflicts with a local user")
      match existing.federationIntroducedByDomain with
      | some introducer => .ok (s, some existing, introducer)
      | none =>
          let charged := { existing with federationIntroducedByDomain := some introducedByDomain }
          .ok (s.setUser charged, some charged, introducedByDomain)
  | none =>
      ensure (s.WithinAllowance introducedByDomain) .identityQuotaExceeded
      .ok (s, none, introducedByDomain)

def opaqueRow (ref : UserRef) (username introducedByDomain : String) : UserRow :=
  { ref
    isLocal := false
    username
    profileResolved := false
    federationIntroducedByDomain := some introducedByDomain }

/-- `insert_unresolved_remote_user`; `aliases` are the random handles it
draws. -/
def insertUnresolvedRemoteUser (s : Users) (ref : UserRef) (introducedByDomain : String)
    (aliases : List String) : Except ProfileError (Users × UserRow) :=
  match s.user? ref with
  | some existing => .ok (s, existing)
  | none =>
      match (aliases.take unresolvedRemoteUsernameAttempts).find? (s.UsernameFree ref) with
      | some username =>
          let row := opaqueRow ref username introducedByDomain
          .ok ({ s with rows := s.rows ++ [row] }, row)
      | none => .error .notConverged

/-! ## Profiles -/

/-- The row a profile makes. -/
def resolvedRow (row : UserRow) (p : RemoteUserProfile) : UserRow :=
  { row with
    username := p.username
    accountType := .account p.accountType
    profileResolved := true
    profileVersion := p.profileVersion
    e2eeDeviceGeneration := p.e2eeDeviceGeneration
    profile := p.profile }

/-- `_resolve_unresolved_remote_profile`. -/
def resolveUnresolvedRemoteProfile (s : Users) (user : UserRow) (p : RemoteUserProfile) : Users :=
  if s.UsernameFree user.ref p.username then s.setUser (resolvedRow user p) else s

/-- A profile arrives for a row that is resolved. -/
def updateResolved (user : UserRow) (p : RemoteUserProfile) : Except ProfileError UserRow := do
  ensure (user.username = p.username)
    (.value "remote user profile changed an immutable identity")
  ensure (user.accountType = .account p.accountType)
    (.value "remote user profile changed an immutable account type")
  let user := { user with
    e2eeDeviceGeneration := max user.e2eeDeviceGeneration p.e2eeDeviceGeneration }
  if p.profileVersion < user.profileVersion then .ok user
  else do
    ensure (¬ (p.profileVersion = user.profileVersion ∧ p.profile ≠ user.profile))
      (.value "remote user profile equivocated at an existing version")
    .ok { user with profile := p.profile, profileVersion := p.profileVersion }

/-- A profile of this server's own user names it and changes nothing. -/
def checkLocalProfile (s : Users) (p : RemoteUserProfile) : Except ProfileError Unit := do
  let user ← found ((s.user? p.ref).filter fun u => u.isLocal && u.accountType ≠ .system)
    .userNotFound
  ensure (user.username = p.username)
    (.value "local user profile does not match the stored immutable handle")

/-- The row a profile is about, made if it is missing. -/
def rowFor (s : Users) (aliases : List String) (p : RemoteUserProfile) :
    Except ProfileError (Users × UserRow) := do
  let (s, existing, introducer) ← s.admitRemoteUserIdentity p.ref p.ref.domain
  match existing with
  | some user => .ok (s, user)
  | none =>
      let s := s.insertUser (resolvedRow (opaqueRow p.ref p.username introducer) p)
      match s.user? p.ref with
      | some user => .ok (s, user)
      -- another row of the home has the handle
      | none => s.insertUnresolvedRemoteUser p.ref introducer aliases

/-- `upsert_remote_user`. -/
def upsertRemoteUser (s : Users) (aliases : List String) (p : RemoteUserProfile) :
    Except ProfileError Users := do
  ensure (p.ref.id ≤ maxDatabaseSnowflake) (.value "user id is outside the database range")
  if p.ref.domain = s.localDomain then do
    s.checkLocalProfile p
    .ok s
  else do
    let (s, user) ← s.rowFor aliases p
    ensure (user.isLocal = false) (.value "remote user profile changed an immutable identity")
    if user.profileResolved then do
      let user ← updateResolved user p
      .ok (s.setUser user)
    else .ok (s.resolveUnresolvedRemoteProfile user p)

/-- The row of a user that another server than its home names. -/
def opaqueRowFor (s : Users) (aliases : List String) (p : RemoteUserProfile) (authority : String) :
    Except ProfileError (Users × UserRow) :=
  match s.user? p.ref with
  | some user => .ok (s, user)
  | none => do
      let (s, existing, introducer) ← s.admitRemoteUserIdentity p.ref authority
      match existing with
      | some user => .ok (s, user)
      | none => s.insertUnresolvedRemoteUser p.ref introducer aliases

/-- `resolve_delegated_profile`: a guild authority names a user of a third
server. -/
def resolveDelegatedProfile (s : Users) (aliases : List String) (p : RemoteUserProfile)
    (authorityOrigin : String) : Except ProfileError Users :=
  if p.ref.domain = authorityOrigin ∨ p.ref.domain = s.localDomain then
    s.upsertRemoteUser aliases p
  else do
    ensure (p.ref.id ≤ maxDatabaseSnowflake) (.value "user id is outside the database range")
    let (s, user) ← s.opaqueRowFor aliases p authorityOrigin
    ensure (user.isLocal = false)
      (.value "third-party profile does not match its authoritative identity")
    ensure (¬ (user.profileResolved ∧ user.username ≠ p.username))
      (.value "third-party profile does not match its authoritative identity")
    .ok s

/-! ## Arrivals -/

/-- A profile is handed to `upsert_remote_user`, or carried by the authority
of a guild. -/
inductive Arrival where
  | profile (aliases : List String) (p : RemoteUserProfile)
  | delegated (aliases : List String) (p : RemoteUserProfile) (authorityOrigin : String)
deriving DecidableEq, Repr

/-- The profile, if its home has sent it. -/
def Arrival.sent : Arrival → Option RemoteUserProfile
  | .profile _ p => some p
  | .delegated _ p authorityOrigin => if p.ref.domain = authorityOrigin then some p else none

def Arrival.handle (s : Users) : Arrival → Except ProfileError Users
  | .profile aliases p => s.upsertRemoteUser aliases p
  | .delegated aliases p authorityOrigin => s.resolveDelegatedProfile aliases p authorityOrigin

/-- What is committed: a call that raises leaves the table as it was. -/
def receive (s : Users) (i : Arrival) : Users := (i.handle s).toOption.getD s

def run (s : Users) (is : List Arrival) : Users := is.foldl receive s

/-- Whether a profile is taken: a new identity is within its home's
allowance and its handle is free, an opaque row's handle is free, and a
resolved row has the handle and the account type. -/
def Fits (s : Users) (p : RemoteUserProfile) : Option UserRow → Prop
  | none => s.WithinAllowance p.ref.domain ∧ s.UsernameFree p.ref p.username
  | some user =>
      if user.profileResolved then
        user.username = p.username ∧ user.accountType = .account p.accountType
      else s.UsernameFree p.ref p.username

instance (s : Users) (p : RemoteUserProfile) : (row : Option UserRow) → Decidable (s.Fits p row)
  | none => inferInstanceAs (Decidable
      (s.WithinAllowance p.ref.domain ∧ s.UsernameFree p.ref p.username))
  | some user => inferInstanceAs (Decidable (if user.profileResolved then
      user.username = p.username ∧ user.accountType = .account p.accountType
    else s.UsernameFree p.ref p.username))

def Takes (s : Users) (p : RemoteUserProfile) : Prop :=
  p.ref.id ≤ maxDatabaseSnowflake ∧ s.Fits p (s.user? p.ref)

instance (s : Users) (p : RemoteUserProfile) : Decidable (s.Takes p) :=
  inferInstanceAs (Decidable (_ ∧ s.Fits p (s.user? p.ref)))

/-- The profiles that a home has sent for an identity. -/
def seen (k : UserRef) (is : List Arrival) : List RemoteUserProfile :=
  (is.filterMap Arrival.sent).filter fun p => p.ref = k

def takenAt (s : Users) (k : UserRef) (i : Arrival) : List RemoteUserProfile :=
  (i.sent.filter fun p => p.ref = k ∧ s.Takes p).toList

/-- Those that were taken when they arrived. -/
def taken (k : UserRef) : Users → List Arrival → List RemoteUserProfile
  | _, [] => []
  | s, i :: is => s.takenAt k i ++ taken k (s.receive i) is

end Users

end Replication

end Kaede
