import Mathlib.Data.Finset.Image
import Mathlib.Data.Finset.Option
import Mathlib.Data.Finset.Range
import Kaede.TrackerSnapshot

/-!
# Taking a snapshot of a tracker

The replica's half of `backend/app/federation/tracker.py`: it fetches the
pages of a snapshot, checks what they add up to and puts it into its own
tables. The three parts read the payload each with a list of fields of its
own, as the source does.

Pages travel as bytes. The authority's web framework writes the JSON of a
page, and the replica reads it with `strict_json_loads`.
-/

namespace Kaede

namespace TrackerSync

open Replication (RemoteUserProfile UserRow Users ReplicaError databaseSnowflake normalizeDomain
  strip)
open TrackerFields (fieldDefinitions validateValues nulFree)

variable {F : Type}

/-! ## Reading values -/

def lift {α : Type} : Except ReplicaError α → Except SnapshotError α
  | .ok a => .ok a
  | .error e => .error (.shared e)

/-- A value, as far as `database_snowflake` tells values apart. -/
def wire : Json F → WireValue
  | .null => .null
  | .bool b => .bool b
  | .int n => .int n
  | .str s => .str s
  | _ => .other

def snowflake (value : Json F) (label : String) : Except SnapshotError Nat :=
  lift (databaseSnowflake (wire value) label)

section

variable (lib : Library F)

/-- `str(value)`, as far as it can be a domain: only strings and floats have
a dot in their text and no bracket. -/
def domainText : Json F → String
  | .str s => s
  | .float x => lib.fields.floatRepr x
  | _ => ""

def domainOf (value : Json F) : Except SnapshotError String :=
  lift (normalizeDomain (domainText lib value))

/-- The reference under two keys of an object. -/
def refAt (raw : Json F) (idKey domainKey label : String) : Except SnapshotError Ref := do
  let id ← snowflake (raw.get idKey) label
  let domain ← domainOf lib (raw.get domainKey)
  .ok ⟨id, domain⟩

/-- `_tracker_ref`. -/
def trackerRef (raw : Json F) (label : String) : Except SnapshotError Ref := do
  ensure (raw.isObj = true) (.value ("tracker " ++ label ++ " is invalid"))
  refAt lib raw "id" "origin_domain" ("tracker " ++ label ++ " id")

/-- `_aware_datetime`. -/
def awareDatetime (raw : Json F) (label : String) : Except SnapshotError CivilTime :=
  match raw with
  | .str s =>
      match CivilTime.fromisoformat lib.otherTimes s with
      | none => .error (.value (label ++ " is invalid"))
      | some none => .error (.value (label ++ " lacks a timezone"))
      | some (some t) => .ok t
  | _ => .error (.value (label ++ " is invalid"))

/-- `_aware_datetime` with `optional`. -/
def optionalDatetime (raw : Json F) (label : String) :
    Except SnapshotError (Option CivilTime) :=
  match raw with
  | .null => .ok none
  | _ => do
      let t ← awareDatetime lib raw label
      .ok (some t)

end

def objectOf (raw : Json F) (e : SnapshotError) : Except SnapshotError Unit :=
  ensure (raw.isObj = true) e

def listOf (raw : Json F) (e : SnapshotError) : Except SnapshotError (List (Json F)) :=
  match raw with
  | .arr items => .ok items
  | _ => .error e

/-- An integer in a range; `bool` is not one. -/
def intBelow (raw : Json F) (bound : Nat) (e : SnapshotError) : Except SnapshotError Nat :=
  match raw with
  | .int n => do
      ensure (0 ≤ n ∧ n < bound) e
      .ok n.toNat
  | _ => .error e

/-! ## Profiles -/

def maxLength (key : String) (bound : Nat) (raw : Json F) :
    Except SnapshotError (Option String) :=
  match raw.get key with
  | .null => .ok none
  | .str s => do
      ensure (s.length ≤ bound) (.value (key ++ " is too long"))
      .ok (some s)
  | _ => .error (.value (key ++ " must be a string"))

/-- An integer field with a default; a null is no integer. -/
def integerField (key : String) (default low high : Nat) (raw : Json F) :
    Except SnapshotError Nat :=
  match raw.get? key with
  | none => .ok default
  | some (.int n) => do
      ensure (low ≤ n ∧ n ≤ high) (.value (key ++ " is out of range"))
      .ok n.toNat
  | some _ => .error (.value (key ++ " must be an integer"))

def usernameLetter (c : Char) : Bool := ('a' ≤ c && c ≤ 'z') || c.isDigit || c = '_' || c = '.'

def usernamePattern (username : String) : Bool :=
  2 ≤ username.length && username.length ≤ 32 && username.toList.all usernameLetter

def accountTypeField (raw : Json F) : Except SnapshotError AccountType :=
  match raw.get? "account_type" with
  | none => .ok .human
  | some value => found (value.str?.bind fun s => accountTypes.lookup s)
      (.value "account_type is unknown")

/-- `RemoteUserProfile.model_validate`. The texts of its errors are those of
a library, and here name the field. -/
def validateProfile (raw : Json F) : Except SnapshotError RemoteUserProfile := do
  objectOf raw (.value "profile must be an object")
  ensure (nulFree raw = true) (.value "must not contain NUL characters")
  let id ← snowflake (raw.get "id") "id"
  let domain ← found (raw.get "origin_domain").str? (.value "domain must be a string")
  let domain ← lift (normalizeDomain domain)
  let accountType ← accountTypeField raw
  let username ← found (raw.get "username").str? (.value "username must be a string")
  ensure (usernamePattern username = true) (.value "username has the wrong form")
  let displayName ← maxLength "display_name" 100 raw
  let avatarHash ← maxLength "avatar_hash" 128 raw
  let bannerHash ← maxLength "banner_hash" 128 raw
  let bio ← maxLength "bio" 500 raw
  let customStatus ← maxLength "custom_status" 128 raw
  let profileVersion ← integerField "profile_version" 1 1 2147483647 raw
  let e2eeDeviceGeneration ← integerField "e2ee_device_generation" 0 0
    Replication.maxDatabaseSnowflake raw
  .ok { ref := ⟨id, domain⟩, accountType, username, profileVersion, e2eeDeviceGeneration
        profile := ⟨displayName, avatarHash, bannerHash, bio, customStatus⟩ }

/-- `model_dump`. -/
def dumpProfile (p : RemoteUserProfile) : Json F :=
  .obj [("id", idText p.ref.id),
    ("origin_domain", .str p.ref.domain),
    ("account_type", .str (accountTypeText p.accountType)),
    ("username", .str p.username),
    ("display_name", optionalText p.profile.displayName),
    ("avatar_hash", optionalText p.profile.avatarHash),
    ("banner_hash", optionalText p.profile.bannerHash),
    ("bio", optionalText p.profile.bio),
    ("custom_status", optionalText p.profile.customStatus),
    ("profile_version", .int p.profileVersion),
    ("e2ee_device_generation", .int p.e2eeDeviceGeneration)]

/-! ## The checks on a snapshot -/

/-- `MAX_TRACKER_USERS`. -/
def maxTrackerUsers : Nat := 10000

/-- `MAX_TRACKER_SNAPSHOT_PAGES`. -/
def maxTrackerSnapshotPages : Nat := 100

/-- `MAX_TRACKER_SNAPSHOT_BYTES`. -/
def maxTrackerSnapshotBytes : Nat := 256 * 1024 * 1024

/-- `MAX_TRACKER_PAGE_RESPONSE_BYTES`. -/
def maxTrackerPageResponseBytes : Nat := 8 * 1024 * 1024

/-- `MAX_TRACKER_PAGE_TASK_CANDIDATES`. -/
def maxTrackerPageTaskCandidates : Nat := 256

def isUpper (c : Char) : Bool := 'A' ≤ c && c ≤ 'Z'

/-- ASCII letters in upper case and digits, a letter first. -/
def keyPrefixPattern (s : String) : Bool :=
  2 ≤ s.length && s.length ≤ 10 && s.toList.all (fun c => isUpper c || c.isDigit) &&
    s.toList.head?.all isUpper

/-- What the checks of the board find out. -/
structure BoardSeen where
  channel : Ref
  guild : Ref
  customFields : List TrackerField
  nextTaskNumber : Nat

section

variable (lib : Library F)

def validateBoard (raw : Json F) (expectedGuild expectedChannel : Ref) (taskTotal : Nat) :
    Except SnapshotError BoardSeen := do
  let channel ← refAt lib raw "channel_id" "channel_domain" "tracker board channel id"
  let guild ← refAt lib raw "guild_id" "guild_domain" "tracker board guild id"
  ensure (channel = expectedChannel ∧ guild = expectedGuild)
    (.value "tracker snapshot identifies another board")
  ensure (channel.domain = guild.domain) (.value "tracker snapshot board origin is invalid")
  ensure ((raw.get "key_prefix").str?.any keyPrefixPattern = true)
    (.value "tracker snapshot key prefix is invalid")
  let customFields ← (fieldDefinitions lib.fields
    ((raw.get? "custom_fields").getD (.arr []))).mapError SnapshotError.value
  let nextTaskNumber ← snowflake (raw.get "next_task_number") "tracker next task number"
  ensure (1 ≤ nextTaskNumber) (.value "tracker snapshot next task number is invalid")
  let taskCount ← snowflake (raw.get "task_count") "tracker task count"
  ensure (taskCount = taskTotal ∧ taskCount ≤ maxTrackerTasks)
    (.value "tracker snapshot task count is invalid")
  let createdAt ← awareDatetime lib (raw.get "created_at") "tracker board creation"
  let updatedAt ← awareDatetime lib (raw.get "updated_at") "tracker board update"
  ensure (createdAt.instant ≤ updatedAt.instant)
    (.value "tracker snapshot board timestamps are invalid")
  -- the update was read, so it is a string
  ensure ((raw.get "version").str? = (raw.get "updated_at").str?)
    (.value "tracker snapshot board version is invalid")
  .ok ⟨channel, guild, customFields, nextTaskNumber⟩

/-- The lanes so far. -/
structure LanesSeen where
  refs : Finset Ref := ∅
  positions : Finset Nat := ∅

def validateLane (board : BoardSeen) (seen : LanesSeen) (raw : Json F) :
    Except SnapshotError LanesSeen := do
  let lane ← trackerRef lib raw "lane"
  ensure (lane.domain = board.channel.domain ∧ lane ∉ seen.refs)
    (.value "tracker snapshot lane identity is invalid")
  let channel ← refAt lib raw "channel_id" "channel_domain" "tracker lane channel id"
  let guild ← refAt lib raw "guild_id" "guild_domain" "tracker lane guild id"
  ensure (channel = board.channel ∧ guild = board.guild)
    (.value "tracker snapshot lane references another board")
  ensure ((raw.get "name").str?.any (fun name =>
      1 ≤ (strip name).length && (strip name).length ≤ 100) = true)
    (.value "tracker snapshot lane name is invalid")
  let _color ← intBelow (raw.get "color") 16777216
    (.value "tracker snapshot lane color is invalid")
  ensure ((raw.get "kind").str?.any (fun kind => (laneKinds.lookup kind).isSome) = true ∧
      (raw.get "completed").isBool = true)
    (.value "tracker snapshot lane state is invalid")
  let position ← intBelow (raw.get "position") maxTrackerLanes
    (.value "tracker snapshot lane position is invalid")
  ensure (position ∉ seen.positions) (.value "tracker snapshot lane position is invalid")
  let createdAt ← awareDatetime lib (raw.get "created_at") "tracker lane creation"
  let updatedAt ← awareDatetime lib (raw.get "updated_at") "tracker lane update"
  ensure (createdAt.instant ≤ updatedAt.instant)
    (.value "tracker snapshot lane timestamps are invalid")
  .ok ⟨insert lane seen.refs, insert position seen.positions⟩

def validateLanes (board : BoardSeen) (lanes : List (Json F)) :
    Except SnapshotError (Finset Ref) := do
  let seen ← lanes.foldlM (validateLane lib board) {}
  ensure (seen.refs ≠ ∅ ∧ seen.positions = Finset.range seen.refs.card)
    (.value "tracker snapshot lane ordering is invalid")
  .ok seen.refs

def validateUser (seen : Finset Ref) (raw : Json F) : Except SnapshotError (Finset Ref) := do
  let profile ← validateProfile raw
  ensure (profile.ref ∉ seen) (.value "tracker snapshot contains a duplicate user profile")
  .ok (insert profile.ref seen)

def validateAssignee (seen : Finset Ref) (raw : Json F) : Except SnapshotError (Finset Ref) := do
  let ref ← trackerRef lib raw "assignee member"
  ensure (ref ∉ seen) (.value "tracker snapshot contains a duplicate assignee member")
  .ok (insert ref seen)

/-- The tasks so far; a position stands with its lane. -/
structure TasksSeen where
  refs : Finset Ref := ∅
  numbers : Finset Nat := ∅
  positions : Finset (Ref × Nat) := ∅
  users : Finset Ref := ∅
  assignees : Finset Ref := ∅
  maximum : Nat := 0

/-- The assignee of a task, with both parts or neither. -/
def assigneeAt (raw : Json F) : Except SnapshotError (Option Ref) := do
  ensure ((raw.get "assignee_id").isNull = (raw.get "assignee_domain").isNull)
    (.value "tracker snapshot assignee identity is incomplete")
  if (raw.get "assignee_id").isNull then .ok none
  else do
    let ref ← refAt lib raw "assignee_id" "assignee_domain" "tracker assignee id"
    .ok (some ref)

def validateTask (board : BoardSeen) (lanes : Finset Ref) (seen : TasksSeen) (raw : Json F) :
    Except SnapshotError TasksSeen := do
  let task ← trackerRef lib raw "task"
  ensure (task.domain = board.channel.domain ∧ task ∉ seen.refs)
    (.value "tracker snapshot task identity is invalid")
  let channel ← refAt lib raw "channel_id" "channel_domain" "tracker task channel id"
  let guild ← refAt lib raw "guild_id" "guild_domain" "tracker task guild id"
  ensure (channel = board.channel ∧ guild = board.guild)
    (.value "tracker snapshot task references another board")
  let lane ← refAt lib raw "lane_id" "lane_domain" "tracker task lane id"
  ensure (lane ∈ lanes) (.value "tracker snapshot task references an unknown lane")
  let _values ← (validateValues lib.fields board.customFields
    ((raw.get? "custom_values").getD (.obj []))).mapError SnapshotError.value
  let number ← snowflake (raw.get "number") "tracker task number"
  ensure (1 ≤ number ∧ number ∉ seen.numbers) (.value "tracker snapshot task number is invalid")
  ensure ((raw.get "title").str?.any (fun title =>
      1 ≤ (strip title).length && (strip title).length ≤ 200) = true)
    (.value "tracker snapshot task title is invalid")
  ensure ((raw.get "description").isNull = true ∨
      (raw.get "description").str?.any (·.length ≤ 10000) = true)
    (.value "tracker snapshot task description is invalid")
  ensure ((raw.get "priority").str?.any (fun priority =>
      (priorities.lookup priority).isSome) = true)
    (.value "tracker snapshot task priority is invalid")
  let position ← intBelow (raw.get "position") maxTrackerTasks
    (.value "tracker snapshot task position is invalid")
  ensure ((lane, position) ∉ seen.positions) (.value "tracker snapshot task position is invalid")
  let _dueAt ← optionalDatetime lib (raw.get "due_at") "tracker task due time"
  let _completedAt ← optionalDatetime lib (raw.get "completed_at") "tracker task completion"
  let createdAt ← awareDatetime lib (raw.get "created_at") "tracker task creation"
  let updatedAt ← awareDatetime lib (raw.get "updated_at") "tracker task update"
  ensure (createdAt.instant ≤ updatedAt.instant)
    (.value "tracker snapshot task timestamps are invalid")
  let creator ← refAt lib raw "creator_id" "creator_domain" "tracker creator id"
  let assignee ← assigneeAt lib raw
  .ok { refs := insert task seen.refs
        numbers := insert number seen.numbers
        positions := insert (lane, position) seen.positions
        users := insert creator (assignee.toFinset ∪ seen.users)
        assignees := assignee.toFinset ∪ seen.assignees
        maximum := max seen.maximum number }

/-- The positions of the tasks of a lane. -/
def lanePositions (positions : Finset (Ref × Nat)) (lane : Ref) : Finset Nat :=
  (positions.filter fun p => p.1 = lane).image Prod.snd

def validateTrackerSnapshot (snapshot : Json F) (expectedGuild expectedChannel : Ref) :
    Except SnapshotError Unit := do
  let invalid := SnapshotError.value "tracker snapshot collections are invalid"
  objectOf (snapshot.get "board") invalid
  let lanes ← listOf (snapshot.get "lanes") invalid
  let tasks ← listOf (snapshot.get "tasks") invalid
  let users ← listOf (snapshot.get "users") invalid
  let assigneeMembers ← listOf (snapshot.get "assignee_member_refs") invalid
  ensure (lanes.length ≤ maxTrackerLanes ∧ tasks.length ≤ maxTrackerTasks ∧
      users.length ≤ maxTrackerUsers ∧ assigneeMembers.length ≤ maxTrackerTasks)
    (.value "tracker snapshot exceeds its protocol bound")
  let board ← validateBoard lib (snapshot.get "board") expectedGuild expectedChannel tasks.length
  let laneRefs ← validateLanes lib board lanes
  let userRefs ← users.foldlM validateUser ∅
  let assigneeRefs ← assigneeMembers.foldlM (validateAssignee lib) ∅
  let seen ← tasks.foldlM (validateTask lib board laneRefs) {}
  ensure (seen.maximum < board.nextTaskNumber)
    (.value "tracker snapshot next task number does not advance task keys")
  ensure (∀ lane ∈ laneRefs, lanePositions seen.positions lane =
      Finset.range (lanePositions seen.positions lane).card)
    (.value "tracker snapshot task ordering is invalid")
  ensure (userRefs = seen.users)
    (.value "tracker snapshot user profiles do not match task references")
  ensure (assigneeRefs = seen.assignees)
    (.value "tracker snapshot assignee memberships do not match tasks")

/-! ## Fetching -/

structure Response where
  status : Nat
  content : List UInt8

/-- `decode_federation_response_json`; the limit of its own is above those
of the caller. -/
def decodeFederationResponseJson (content : List UInt8) : Except SnapshotError (Json F) :=
  (Json.strictJsonLoads lib.floats lib.wide Json.federationJsonLimits ⟨false, lib.isFinite⟩
    "federation peer response" content).mapError
    fun _ => .shared (.networkError "peer returned invalid federation JSON")

/-- The pages so far. `combined` has the board and the lanes of the first
page; a profile stands for its `model_dump`. -/
structure Fetched (F : Type) where
  combined : Option (Json F × List (Json F)) := none
  tasks : List (Json F) := []
  totalBytes : Nat := 0
  lastTaskId : Int := -1
  profiles : List RemoteUserProfile := []
  assignees : List Ref := []

/-- A page, after the checks of its collections. -/
structure Page (F : Type) where
  board : Json F
  lanes : List (Json F)
  tasks : List (Json F)
  users : List (Json F)
  assignees : List (Json F)
  nextCursor : Json F
  nextAfterTaskId : Json F

def readPage (payload : Json F) : Except SnapshotError (Page F) := do
  objectOf payload (.runtime "tracker snapshot page is invalid")
  let invalid := SnapshotError.runtime "tracker snapshot page collections are invalid"
  objectOf (payload.get "board") invalid
  let lanes ← listOf (payload.get "lanes") invalid
  let tasks ← listOf (payload.get "tasks") invalid
  let users ← listOf (payload.get "users") invalid
  let assignees ← listOf (payload.get "assignee_member_refs") invalid
  ensure (tasks.length ≤ maxTrackerPageTaskCandidates) invalid
  .ok ⟨payload.get "board", lanes, tasks, users, assignees, payload.get "next_cursor",
    payload.get "next_cursor_after_task_id"⟩

/-- The first page sets the board and the lanes, and the others repeat them. -/
def combine [DecidableEq F] (combined : Option (Json F × List (Json F))) (page : Page F) :
    Except SnapshotError (Json F × List (Json F)) :=
  match combined with
  | none => .ok (page.board, page.lanes)
  | some (board, lanes) => do
      ensure (page.board.equal board = true ∧ Json.equalItems page.lanes lanes = true) .changed
      .ok (board, lanes)

/-- One task of a page; the result is its id. -/
def takeTask (channel : Ref) (lastTaskId : Int) (raw : Json F) : Except SnapshotError Int := do
  let task ← trackerRef lib raw "page task"
  ensure (task.domain = channel.domain ∧ lastTaskId < task.id)
    (.runtime "tracker snapshot task cursor did not advance")
  .ok task.id

def takeProfile (profiles : List RemoteUserProfile) (raw : Json F) :
    Except SnapshotError (List RemoteUserProfile) := do
  let profile ← validateProfile raw
  match lookupBy RemoteUserProfile.ref profile.ref profiles with
  | none => .ok (profiles ++ [profile])
  | some previous => do
      ensure (previous = profile) .changed
      .ok profiles

def takeAssignee (assignees : List Ref) (raw : Json F) : Except SnapshotError (List Ref) := do
  let ref ← trackerRef lib raw "page assignee member"
  .ok (assignees ++ [ref])

def addPage [DecidableEq F] (channel : Ref) (s : Fetched F) (page : Page F) :
    Except SnapshotError (Fetched F) := do
  let combined ← combine s.combined page
  let lastTaskId ← page.tasks.foldlM (takeTask lib channel) s.lastTaskId
  let profiles ← page.users.foldlM takeProfile s.profiles
  let assignees ← page.assignees.foldlM (takeAssignee lib) s.assignees
  .ok { s with combined := some combined, tasks := s.tasks ++ page.tasks
               lastTaskId, profiles, assignees }

def ProfileLe (p q : RemoteUserProfile) : Prop := RefLe p.ref q.ref

instance : DecidableRel ProfileLe := fun p q => inferInstanceAs (Decidable (RefLe p.ref q.ref))

/-- The snapshot that the pages add up to. -/
def Fetched.snapshot (s : Fetched F) (board : Json F) (lanes : List (Json F)) : Json F :=
  .obj [("board", board), ("lanes", .arr lanes), ("tasks", .arr s.tasks),
    ("users", .arr ((s.profiles.insertionSort ProfileLe).map dumpProfile)),
    ("assignee_member_refs", .arr ((sortRefs s.assignees).map refPayload))]

/-- What follows the last page. -/
def finish (guild channel : Ref) (s : Fetched F) (page : Page F) :
    Except SnapshotError (Json F) := do
  ensure (page.nextAfterTaskId.isNull = true) (.runtime "tracker snapshot final cursor is invalid")
  let expectedCount ← snowflake (page.board.get "task_count") "tracker snapshot task count"
  ensure (expectedCount = s.tasks.length)
    (.runtime "tracker snapshot ended before its declared task count")
  let (board, lanes) := s.combined.getD (page.board, page.lanes)
  validateTrackerSnapshot lib (s.snapshot board lanes) guild channel
  .ok (s.snapshot board lanes)

/-- What is asked of a cursor. -/
def checkCursor (s : Fetched F) (page : Page F) : Except SnapshotError Unit := do
  let invalid := SnapshotError.runtime "tracker snapshot returned an invalid cursor"
  ensure (page.nextCursor.str?.any (·.length ≤ 1024) = true ∧ page.tasks ≠ []) invalid
  let after ← snowflake page.nextAfterTaskId "tracker snapshot cursor task id"
  ensure ((after : Int) = s.lastTaskId) invalid

/-- The response to a request for a page, up to its bytes. -/
def receive (totalBytes : Nat) (response : Response) : Except SnapshotError (List UInt8) := do
  ensure (response.content.length ≤
      min maxTrackerPageResponseBytes (maxTrackerSnapshotBytes - totalBytes))
    (.shared (.networkError "peer response exceeded the size limit"))
  ensure (response.status ≠ 409) .changed
  ensure (response.status ≠ 403) (.http 403 "MISSING_PERMISSIONS")
  ensure (response.status ≠ 404) (.http 404 "TRACKER_NOT_FOUND")
  ensure (response.status = 200) (.runtime "tracker snapshot fetch failed")
  .ok response.content

/-- The loop over pages. The responses that come before the deadline are the
list, and the requests that are left are the number. -/
def fetchPages [DecidableEq F] (guild channel : Ref) :
    Nat → Fetched F → List Response → Except SnapshotError (Json F)
  | 0, _, _ => .error (.runtime "tracker snapshot exceeded its page limit")
  | _ + 1, _, [] => .error (.runtime "tracker snapshot exceeded its duration limit")
  | requests + 1, s, response :: responses => do
      ensure (s.totalBytes < maxTrackerSnapshotBytes)
        (.runtime "tracker snapshot exceeded its aggregate byte limit")
      let content ← receive s.totalBytes response
      let payload ← decodeFederationResponseJson lib content
      let page ← readPage payload
      let s ← addPage lib channel { s with totalBytes := s.totalBytes + content.length } page
      if page.nextCursor.isNull then finish lib guild channel s page
      else do
        checkCursor s page
        fetchPages guild channel requests s responses

/-- `_fetch_tracker_snapshot_once`. -/
def fetchTrackerSnapshotOnce [DecidableEq F] (guild channel : Ref) (responses : List Response) :
    Except SnapshotError (Json F) :=
  fetchPages lib guild channel maxTrackerSnapshotPages {} responses

/-! ## Applying -/

/-- The rows of a replica under one channel. The schema ties a board to its
channel and to the channel's guild. -/
structure Replica (F : Type) (channel guild : Ref) where
  board : Option (BoardRow F)
  lanes : List LaneRow
  tasks : List (TaskRow F)
  board_ref : ∀ b ∈ board, b.channel = channel ∧ b.guild = guild

/-- What `apply_tracker_snapshot` reads besides the tracker's rows: the users
of the replica and the handles drawn for opaque ones, the members of the
guild it knows, whether the storage of the guild has room for what was
written, and the time at which its transaction began. -/
structure Surroundings where
  users : Users
  aliases : Ref → List String
  members : List Ref
  admitted : Except SnapshotError Unit
  now : CivilTime

/-- A column of text. -/
def textAt (raw : Json F) (key : String) : Except SnapshotError String :=
  found (raw.get key).str? (.value (key ++ " is no text"))

def dateAt (raw : Json F) (key : String) : Except SnapshotError CivilTime :=
  awareDatetime lib (raw.get key) key

/-- A reference that is stored as it stands in the payload. -/
def storedRef (raw : Json F) (idKey domainKey : String) : Except SnapshotError Ref := do
  let id ← snowflake (raw.get idKey) idKey
  let domain ← textAt raw domainKey
  .ok ⟨id, domain⟩

/-- A board row keeps its references, and a new one has those of the call. -/
theorem Replica.refs_eq {channel guild : Ref} (replica : Replica F channel guild) :
    (replica.board.map BoardRow.channel).getD channel = channel ∧
      (replica.board.map BoardRow.guild).getD guild = guild := by
  cases h : replica.board with
  | none => exact ⟨rfl, rfl⟩
  | some b => exact replica.board_ref b h

section

variable [DecidableEq F]

/-- Another column than `updated_at` is set to a new value, and that one is
not. The columns of `jsonb` are compared as values, not as texts. -/
def Restamps (stored row : BoardRow F) : Prop :=
  stored.updatedAt = row.updatedAt ∧
    ¬ (row.customFields.equal stored.customFields = true ∧ row.keyPrefix = stored.keyPrefix ∧
      row.nextTaskNumber = stored.nextTaskNumber ∧ row.createdAt = stored.createdAt)

instance (stored row : BoardRow F) : Decidable (Restamps stored row) :=
  inferInstanceAs (Decidable (_ ∧ ¬ _))

/-- The row that is written. An update names the columns that have a new
value, and the `onupdate` of `TimestampMixin` fills `updated_at` with the
time of the transaction when it is not among them. -/
def flushed (now : CivilTime) (stored : Option (BoardRow F)) (row : BoardRow F) : BoardRow F :=
  match stored with
  | none => row
  | some b => if Restamps b row then { row with updatedAt := now } else row

theorem flushed_channel (now : CivilTime) (stored : Option (BoardRow F)) (row : BoardRow F) :
    (flushed now stored row).channel = row.channel := by
  unfold flushed
  split
  · rfl
  · split <;> rfl

theorem flushed_guild (now : CivilTime) (stored : Option (BoardRow F)) (row : BoardRow F) :
    (flushed now stored row).guild = row.guild := by
  unfold flushed
  split
  · rfl
  · split <;> rfl

theorem flushed_of_not_restamps {now : CivilTime} {stored : Option (BoardRow F)} {row : BoardRow F}
    (h : ∀ b ∈ stored, ¬ Restamps b row) : flushed now stored row = row := by
  cases stored with
  | none => rfl
  | some b => exact if_neg (h b rfl)

theorem flushed_of_restamps {now : CivilTime} {b row : BoardRow F} (h : Restamps b row) :
    flushed now (some b) row = { row with updatedAt := now } := if_pos h

/-- The board row: that of the replica with the columns of the payload. -/
def boardRow {channel guild : Ref} (now : CivilTime) (replica : Replica F channel guild)
    (raw : Json F) :
    Except SnapshotError { b : BoardRow F // b.channel = channel ∧ b.guild = guild } := do
  let keyPrefix ← textAt raw "key_prefix"
  let nextTaskNumber ← snowflake (raw.get "next_task_number") "next_task_number"
  let createdAt ← dateAt lib raw "created_at"
  let updatedAt ← dateAt lib raw "updated_at"
  let row : BoardRow F :=
    { channel := (replica.board.map BoardRow.channel).getD channel
      guild := (replica.board.map BoardRow.guild).getD guild
      customFields := (raw.get? "custom_fields").getD (.arr [])
      keyPrefix, nextTaskNumber, createdAt, updatedAt }
  .ok ⟨flushed now replica.board row, (flushed_channel _ _ row).trans replica.refs_eq.1,
    (flushed_guild _ _ row).trans replica.refs_eq.2⟩

end

def laneRow (channel guild : Ref) (raw : Json F) : Except SnapshotError LaneRow := do
  let ref ← storedRef raw "id" "origin_domain"
  let name ← textAt raw "name"
  let color ← intBelow (raw.get "color") 16777216 (.value "color")
  let kind ← textAt raw "kind"
  let kind ← found (laneKinds.lookup kind) (.value "kind")
  let position ← intBelow (raw.get "position") maxTrackerLanes (.value "position")
  let createdAt ← dateAt lib raw "created_at"
  let updatedAt ← dateAt lib raw "updated_at"
  .ok { ref, channel, guild, name, color, kind
        completed := (raw.get "completed").isTrue
        position, createdAt, updatedAt }

/-- A task row. The assignee is kept if it is one of the applicable ones, and
the columns of the request that made the task are empty. -/
def taskRow (channel guild : Ref) (profiles applicable : List Ref) (raw : Json F) :
    Except SnapshotError (TaskRow F) := do
  let creator ← storedRef raw "creator_id" "creator_domain"
  ensure (creator ∈ profiles) (.runtime "validated tracker creator profile disappeared")
  let assignee ← (if (raw.get "assignee_id").isNull then .ok none
    else some <$> storedRef raw "assignee_id" "assignee_domain")
  let ref ← storedRef raw "id" "origin_domain"
  let lane ← storedRef raw "lane_id" "lane_domain"
  let number ← snowflake (raw.get "number") "number"
  let title ← textAt raw "title"
  let priority ← textAt raw "priority"
  let priority ← found (priorities.lookup priority) (.value "priority")
  let position ← intBelow (raw.get "position") maxTrackerTasks (.value "position")
  let dueAt ← optionalDatetime lib (raw.get "due_at") "due_at"
  let completedAt ← optionalDatetime lib (raw.get "completed_at") "completed_at"
  let createdAt ← dateAt lib raw "created_at"
  let updatedAt ← dateAt lib raw "updated_at"
  .ok { ref, channel, guild, lane, number, title, priority, position, dueAt, completedAt, creator
        customValues := (raw.get? "custom_values").getD (.obj [])
        description := (raw.get "description").str?
        assignee := assignee.filter (· ∈ applicable)
        clientNonce := none
        clientRequestHash := none
        createdAt, updatedAt }

/-- `resolve_delegated_profile` for every profile in turn. -/
def resolveProfiles (authority : String) (aliases : Ref → List String) :
    Users → List RemoteUserProfile → Except SnapshotError Users
  | users, [] => .ok users
  | users, profile :: rest => do
      let users ← lift ((users.resolveDelegatedProfile (aliases profile.ref) profile
        authority).mapError ReplicaError.profile)
      resolveProfiles authority aliases users rest

/-- `apply_tracker_snapshot`. -/
def applyTrackerSnapshot [DecidableEq F] {channel guild : Ref} (around : Surroundings)
    (replica : Replica F channel guild) (snapshot : Json F) :
    Except SnapshotError (Users × Replica F channel guild) := do
  validateTrackerSnapshot lib snapshot guild channel
  let invalid := SnapshotError.value "tracker snapshot collections are invalid"
  let lanes ← listOf (snapshot.get "lanes") invalid
  let tasks ← listOf (snapshot.get "tasks") invalid
  let users ← listOf (snapshot.get "users") invalid
  let assigneeMembers ← listOf (snapshot.get "assignee_member_refs") invalid
  let profiles ← users.mapM validateProfile
  let users ← resolveProfiles guild.domain around.aliases around.users profiles
  let assignees ← assigneeMembers.mapM fun raw => trackerRef lib raw "assignee member"
  let applicable := assignees.filter (· ∈ around.members)
  let board ← boardRow lib around.now replica (snapshot.get "board")
  let lanes ← lanes.mapM (laneRow lib channel guild)
  let tasks ← tasks.mapM (taskRow lib channel guild (profiles.map RemoteUserProfile.ref) applicable)
  around.admitted
  .ok (users, ⟨some board.val, lanes, tasks, fun _ hb => Option.some.inj hb ▸ board.property⟩)

end

end TrackerSync

end Kaede
