import Mathlib.Logic.Function.Basic
import Kaede.Expiring
import Kaede.Runs
import Kaede.Shared

/-!
# Login sessions

A login session is a row of `sessions` in PostgreSQL and a set of access
tokens in Redis. `auth/service.py` and `auth/tokens.py` keep the two in
step by several commands on each side: a rotation of the refresh token
locks the row, drops the access tokens of the session, issues a new one
and only then commits; a revocation commits first and drops the tokens
afterwards.

`Server.step` runs any number of such requests at once, one command a
step. A row lock is taken by `SELECT ... FOR UPDATE`, by `UPDATE` and by
an `INSERT` that is not committed, and it ends with the transaction. A
process may stop anywhere, which rolls its transaction back, and a commit
that raises may or may not have been applied. All clocks are one clock.

Tokens are kept by their digests only (`token_hash`, and `token_key`,
which is the same digest in hexadecimal); `digest` is a parameter.
-/

namespace Kaede

namespace Auth

def day : Nat := 86400 * second

structure Settings where
  accessTokenTtlSeconds : Nat
  refreshSlidingDays : Nat
  refreshAbsoluteDays : Nat
  refreshReuseGraceSeconds : Nat
deriving DecidableEq, Repr

structure AccessGrant where
  user : UserRef
  sessionId : String
deriving DecidableEq, Repr

structure Session (δ : Type) where
  id : String
  user : UserRef
  refreshTokenHash : δ
  previousTokenHash : Option δ
  lastUsedAt : Nat
  expiresAt : Nat
  absoluteExpiresAt : Nat
  revokedAt : Option Nat
deriving DecidableEq, Repr

/-- What a rotation leaves behind once it is committed. -/
structure Rotated (δ : Type) where
  sessionId : String
  presented : δ
  issued : δ
  date : Nat
deriving DecidableEq, Repr

/-- How far `AccessTokenStore.revoke_session` has come. -/
inductive Cleanup (δ : Type)
  | start
  | listed (digests : List δ)
  | deleted
deriving DecidableEq, Repr

/-- What a request still has to do. A revocation has selected the sessions
`ids`, still has to lock the rows of `todo` and has locked those of `held`. -/
inductive Job (δ : Type)
  | creating (record : Session δ)
  | created (record : Session δ) (access : δ)
  | rotating (record : Session δ) (presented : δ) (date : Nat) (stage : Cleanup δ)
  | issuing (record : Session δ) (presented : δ) (date : Nat)
  | issued (record : Session δ) (presented : δ) (date : Nat) (access : δ)
  | revoking (date : Nat) (ids todo held : List String)
  | cleaning (ids : List String) (stage : Cleanup δ)
  | undoing (access : δ)
deriving DecidableEq, Repr

/-- The database, Redis and the requests under way. The last three fields
are read by no request: they record every session that was committed,
every refresh token with its session, and every committed rotation, the
newest first; `recorded` is what adds to the first and the last. -/
structure Server (δ : Type) where
  now : Nat
  sessions : List (Session δ)
  locks : List (String × Nat)
  access : List (Expiring δ AccessGrant)
  sessionAccess : List (Expiring String (List δ))
  jobs : Nat → Option (Job δ)
  known : List String
  minted : List (δ × String)
  rotations : List (Rotated δ)

inductive AuthEvent
  | elapse (d : Nat)
  | removeRows (ids : List String)
  | createSession (p : Nat) (sessionId random : String) (user : UserRef) (isLocal : Bool)
  | rotateRefreshToken (p : Nat) (refreshToken random : String)
  | logout (p : Nat) (grant : AccessGrant)
  | deleteSession (p : Nat) (sessionId : String) (user : UserRef)
  | revokeUserSessions (p : Nat) (user : UserRef) (keepSessionId : Option String)
  | lockRow (p : Nat)
  | listTokens (p : Nat)
  | deleteTokens (p : Nat)
  | deleteList (p : Nat)
  | issue (p : Nat) (random : String)
  | commit (p : Nat)
  | failCommit (p : Nat) (applied : Bool)
  | revokeToken (p : Nat)
  | stop (p : Nat)
deriving DecidableEq, Repr

variable {δ : Type} [DecidableEq δ]

/-! ## What a request decides -/

def newSession (settings : Settings) (sessionId : String) (user : UserRef) (refresh : δ)
    (now : Nat) : Session δ where
  id := sessionId
  user := user
  refreshTokenHash := refresh
  previousTokenHash := none
  lastUsedAt := now
  expiresAt := now + settings.refreshSlidingDays * day
  absoluteExpiresAt := now + settings.refreshAbsoluteDays * day
  revokedAt := none

/-- The outcome of `rotate_refresh_token` under the row lock. -/
inductive Decision (δ : Type)
  | invalid
  | reusedLate (record : Session δ)
  | rotated (record : Session δ)
deriving DecidableEq, Repr

/-- The row as it will be committed. A token that was superseded already
stays the previous one, and `last_used_at` stays what it is. -/
def rotatedRow (settings : Settings) (record : Session δ) (presented new : δ) (now : Nat) :
    Session δ :=
  let kept :=
    if record.previousTokenHash = some presented then { record with refreshTokenHash := new }
    else { record with
      previousTokenHash := some record.refreshTokenHash
      refreshTokenHash := new
      lastUsedAt := now }
  { kept with
    expiresAt := min (now + settings.refreshSlidingDays * day) record.absoluteExpiresAt }

def decideRotation (settings : Settings) (record : Option (Session δ)) (presented new : δ)
    (now : Nat) : Decision δ :=
  match record with
  | none => .invalid
  | some record =>
      if record.revokedAt.isSome ∨ record.expiresAt ≤ now ∨ record.absoluteExpiresAt ≤ now then
        .invalid
      else if record.previousTokenHash = some presented ∧
          settings.refreshReuseGraceSeconds * second < now - record.lastUsedAt then
        .reusedLate record
      else .rotated (rotatedRow settings record presented new now)

namespace Server

/-! ## The database -/

def row (s : Server δ) (id : String) : Option (Session δ) := s.sessions.find? fun r => r.id = id

/-- The row that a refresh token names. -/
def rowOfToken (s : Server δ) (hash : δ) : Option (Session δ) :=
  s.sessions.find? fun r => r.refreshTokenHash = hash ∨ r.previousTokenHash = some hash

def Unlocked (s : Server δ) (id : String) : Prop := ∀ l ∈ s.locks, l.1 ≠ id

instance (s : Server δ) (id : String) : Decidable (s.Unlocked id) :=
  inferInstanceAs (Decidable (∀ l ∈ s.locks, l.1 ≠ id))

/-- The session was committed, and its row is revoked or gone. -/
def Revoked (s : Server δ) (id : String) : Prop :=
  id ∈ s.known ∧ ∀ r, s.row id = some r → r.revokedAt ≠ none

def setJob (s : Server δ) (p : Nat) (job : Option (Job δ)) : Server δ :=
  { s with jobs := Function.update s.jobs p job }

def lock (s : Server δ) (p : Nat) (id : String) : Server δ :=
  { s with locks := (id, p) :: s.locks }

/-- The transaction of `p` ends. -/
def release (s : Server δ) (p : Nat) : Server δ :=
  { s with locks := s.locks.filter fun l => l.2 ≠ p }

def mint (s : Server δ) (hash : δ) (id : String) : Server δ :=
  { s with minted := (hash, id) :: s.minted }

def write (s : Server δ) (record : Session δ) : Server δ :=
  { s with sessions := s.sessions.map fun r => if r.id = record.id then record else r }

def revokeRows (s : Server δ) (ids : List String) (date : Nat) : Server δ :=
  { s with
    sessions := s.sessions.map fun r =>
      if r.id ∈ ids then { r with revokedAt := some date } else r }

/-- `retention_prune` removes sessions that are expired or were revoked a
week ago, and the end of an account removes its sessions. -/
def removeRows (s : Server δ) (ids : List String) : Server δ :=
  { s with sessions := s.sessions.filter fun r => r.id ∉ ids }

/-- What the commit of a job writes. -/
def applied (s : Server δ) : Job δ → Server δ
  | .created record _ => { s with sessions := record :: s.sessions }
  | .issued record _ _ _ => s.write record
  | .revoking date _ [] held => s.revokeRows held date
  | _ => s

/-! ## Redis -/

def members (s : Server δ) (id : String) : List δ :=
  (Expiring.get s.sessionAccess id s.now).getD []

def dropTokens (s : Server δ) (digests : List δ) : Server δ :=
  { s with access := Expiring.deleteMany s.access digests }

def dropList (s : Server δ) (id : String) : Server δ :=
  { s with sessionAccess := Expiring.delete s.sessionAccess id }

/-- `ISSUE_ACCESS_SCRIPT`. -/
def issueAccess (settings : Settings) (s : Server δ) (record : Session δ) (access : δ) :
    Server δ :=
  let expiresAt := s.now + settings.accessTokenTtlSeconds * second
  { s with
    access := Expiring.set s.access access ⟨record.user, record.id⟩ expiresAt
    sessionAccess :=
      Expiring.set s.sessionAccess record.id ((s.members record.id).insert access) expiresAt }

/-! ## One command -/

variable (digest : String → δ) (settings : Settings)

def newRefreshToken (random : String) : String := "kc1_rt_" ++ random

def newAccessToken (random : String) : String := "kc1_at_" ++ random

/-- A session row is locked by its insertion until the commit. -/
def createSession (s : Server δ) (p : Nat) (sessionId random : String) (user : UserRef)
    (isLocal : Bool) : Option (Server δ) :=
  if isLocal = false then some s
  else if s.Unlocked sessionId ∧ s.row sessionId = none then
    let refresh := digest (newRefreshToken random)
    some (((s.lock p sessionId).mint refresh sessionId).setJob p
      (some (.creating (newSession settings sessionId user refresh s.now))))
  else none

/-- The row is read when its lock is obtained, the clock right after. -/
def rotateRefreshToken (s : Server δ) (p : Nat) (refreshToken random : String) :
    Option (Server δ) :=
  if "kc1_rt_".toList.isPrefixOf refreshToken.toList = false then some s
  else
    let presented := digest refreshToken
    let new := digest (newRefreshToken random)
    match s.rowOfToken presented with
    | none => some s
    | some record =>
        if s.Unlocked record.id then
          match decideRotation settings (some record) presented new s.now with
          | .invalid => some s
          | .reusedLate record =>
              some ((s.lock p record.id).setJob p
                (some (.revoking s.now [record.id] [] [record.id])))
          | .rotated record =>
              some (((s.lock p record.id).mint new record.id).setJob p
                (some (.rotating record presented s.now .start)))
        else none

/-- What `require_user` asks of the row of the session. -/
def signedIn (s : Server δ) (grant : AccessGrant) : Bool :=
  (s.row grant.sessionId).any fun record =>
    record.user = grant.user ∧ record.revokedAt = none ∧ s.now < record.expiresAt ∧
      s.now < record.absoluteExpiresAt

/-- The grant was read from Redis before. The `UPDATE` takes the row
whatever has become of it since. -/
def logout (s : Server δ) (p : Nat) (grant : AccessGrant) : Server δ :=
  if s.signedIn grant then
    s.setJob p (some (.revoking s.now [grant.sessionId] [grant.sessionId] []))
  else s

def deleteSession (s : Server δ) (p : Nat) (sessionId : String) (user : UserRef) :
    Option (Server δ) :=
  match s.row sessionId with
  | none => some s
  | some record =>
      if record.user = user ∧ record.revokedAt = none then
        if s.Unlocked sessionId then
          some ((s.lock p sessionId).setJob p
            (some (.revoking s.now [sessionId] [] [sessionId])))
        else none
      else some s

def revokeUserSessions (s : Server δ) (p : Nat) (user : UserRef) (keepSessionId : Option String) :
    Server δ :=
  let sessionIds := (s.sessions.filter fun r =>
    r.user = user ∧ r.revokedAt = none ∧ keepSessionId ≠ some r.id).map Session.id
  s.setJob p (some (.revoking s.now sessionIds sessionIds []))

/-- What is left of `revoke_session` after one of its sessions. -/
def cleaned (ids : List String) : Option (Job δ) :=
  if ids = [] then none else some (.cleaning ids .start)

/-- One command of a request that is under way. -/
def advance (s : Server δ) (p : Nat) : AuthEvent → Job δ → Option (Server δ)
  | .lockRow _, .revoking date ids (id :: todo) held =>
      if (s.row id).isNone then some (s.setJob p (some (.revoking date ids todo held)))
      else if s.Unlocked id then
        some ((s.lock p id).setJob p (some (.revoking date ids todo (id :: held))))
      else none
  | .listTokens _, .rotating record presented date .start =>
      some (s.setJob p (some (.rotating record presented date (.listed (s.members record.id)))))
  | .listTokens _, .cleaning (id :: ids) .start =>
      some (s.setJob p (some (.cleaning (id :: ids) (.listed (s.members id)))))
  | .deleteTokens _, .rotating record presented date (.listed digests) =>
      some ((s.dropTokens digests).setJob p (some (.rotating record presented date .deleted)))
  | .deleteTokens _, .cleaning (id :: ids) (.listed digests) =>
      some ((s.dropTokens digests).setJob p (some (.cleaning (id :: ids) .deleted)))
  | .deleteList _, .rotating record presented date .deleted =>
      some ((s.dropList record.id).setJob p (some (.issuing record presented date)))
  | .deleteList _, .cleaning (id :: ids) .deleted =>
      some ((s.dropList id).setJob p (cleaned ids))
  | .issue _ random, .creating record =>
      let access := digest (newAccessToken random)
      some ((issueAccess settings s record access).setJob p (some (.created record access)))
  | .issue _ random, .issuing record presented date =>
      let access := digest (newAccessToken random)
      some ((issueAccess settings s record access).setJob p
        (some (.issued record presented date access)))
  | .commit _, .created record access =>
      some (((s.applied (.created record access)).release p).setJob p none)
  | .commit _, .issued record presented date access =>
      some (((s.applied (.issued record presented date access)).release p).setJob p none)
  | .commit _, .revoking date ids [] held =>
      some (((s.applied (.revoking date ids [] held)).release p).setJob p (cleaned ids))
  | .failCommit _ applied, .created record access =>
      let s' := if applied then s.applied (.created record access) else s
      some ((s'.release p).setJob p (some (.undoing access)))
  | .failCommit _ applied, .issued record presented date access =>
      let s' := if applied then s.applied (.issued record presented date access) else s
      some ((s'.release p).setJob p (some (.undoing access)))
  | .failCommit _ applied, .revoking date ids [] held =>
      let s' := if applied then s.applied (.revoking date ids [] held) else s
      some ((s'.release p).setJob p none)
  | .revokeToken _, .undoing access =>
      some ((s.dropTokens [access]).setJob p none)
  | .stop _, _ => some ((s.release p).setJob p none)
  | _, _ => none

/-- What the job that an event has committed adds to the records. -/
def recorded (s : Server δ) : AuthEvent → Job δ → Server δ
  | .commit _, .created record _ | .failCommit _ true, .created record _ =>
      { s with known := record.id :: s.known }
  | .commit _, .issued record presented date _
  | .failCommit _ true, .issued record presented date _ =>
      { s with
        rotations := ⟨record.id, presented, record.refreshTokenHash, date⟩ :: s.rotations }
  | _, _ => s

/-- The process that an event is about. -/
def actor : AuthEvent → Nat
  | .elapse _ | .removeRows _ => 0
  | .createSession p .. | .rotateRefreshToken p .. | .logout p _ | .deleteSession p ..
  | .revokeUserSessions p .. | .lockRow p | .listTokens p | .deleteTokens p | .deleteList p
  | .issue p _ | .commit p | .failCommit p _ | .revokeToken p | .stop p => p

/-- `none` when the event is not enabled: the process is busy with
something else, or it waits for a lock. -/
def step (s : Server δ) (e : AuthEvent) : Option (Server δ) :=
  match e, s.jobs (actor e) with
  | .elapse d, _ => some { s with now := s.now + d }
  | .removeRows ids, _ => if ∀ id ∈ ids, s.Unlocked id then some (s.removeRows ids) else none
  | e, some job =>
      (advance digest settings s (actor e) e job).map fun s' => s'.recorded e job
  | .createSession p sessionId random user isLocal, none =>
      createSession digest settings s p sessionId random user isLocal
  | .rotateRefreshToken p refreshToken random, none =>
      rotateRefreshToken digest settings s p refreshToken random
  | .logout p grant, none => some (s.logout p grant)
  | .deleteSession p sessionId user, none => s.deleteSession p sessionId user
  | .revokeUserSessions p user keepSessionId, none =>
      some (s.revokeUserSessions p user keepSessionId)
  | _, none => none

/-- No session yet. -/
def init (now : Nat) : Server δ where
  now := now
  sessions := []
  locks := []
  access := []
  sessionAccess := []
  jobs := fun _ => none
  known := []
  minted := []
  rotations := []

/-! ## Who may come in -/

/-- `AccessTokenStore.get`. -/
def grantOf (s : Server δ) (token : String) : Option AccessGrant :=
  if "kc1_at_".toList.isPrefixOf token.toList then Expiring.get s.access (digest token) s.now
  else none

/-- What `require_user` accepts. `active` stands for the account row: it is
there, it is no system account and it is not banned. -/
def requireUser (active : UserRef → Bool) (s : Server δ) (token : String) : Option AccessGrant :=
  (s.grantOf digest token).filter fun grant => active grant.user ∧ s.signedIn grant

end Server

end Auth

end Kaede
