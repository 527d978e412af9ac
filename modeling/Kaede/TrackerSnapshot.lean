import Kaede.IsoTime
import Kaede.JsonLimits
import Kaede.TrackerFields

/-!
# Snapshots of a tracker

The rows of a tracker board and the pages that the authority of its guild
makes of them (`backend/app/federation/tracker.py`). A page has the board,
its lanes, some of its tasks and the users these name; all pages but the
last have a cursor for the next one.

What the code uses of Python's libraries is a parameter.
-/

namespace Kaede

namespace TrackerSync

open Replication (UserRow ReplicaError)
open TrackerFields (FieldLibrary)

/-- An id and the domain it belongs to: of a user, a channel, a guild, a
lane or a task. -/
abbrev Ref := UserRef

/-- What the module uses of Python's libraries: those of the custom fields,
the texts of floats, the forms of times that `isoformat` does not write,
the decoders of encodings other than UTF-8, and `hmac` with SHA-256 under
the key of the server. -/
structure Library (F : Type) where
  fields : FieldLibrary F
  floats : Json.FloatText F
  isFinite : F → Bool
  otherTimes : String → Option (Option CivilTime)
  wide : Json.Encoding → List UInt8 → Option (List Char)
  hmac : List UInt8 → { digest : List UInt8 // digest.length = 32 }

inductive SnapshotError where
  /-- What the parsers that are shared with the rest of the federation raise. -/
  | shared (error : ReplicaError)
  | value (message : String)
  | runtime (message : String)
  /-- `TrackerSnapshotChanged`. -/
  | changed
  | http (status : Nat) (code : String)
deriving DecidableEq, Repr

variable {F : Type}

/-! ## Rows -/

structure BoardRow (F : Type) where
  channel : Ref
  guild : Ref
  customFields : Json F
  keyPrefix : String
  nextTaskNumber : Nat
  createdAt : CivilTime
  updatedAt : CivilTime

structure LaneRow where
  ref : Ref
  channel : Ref
  guild : Ref
  name : String
  color : Nat
  kind : TrackerLaneKind
  completed : Bool
  position : Nat
  createdAt : CivilTime
  updatedAt : CivilTime
deriving DecidableEq, Repr

structure TaskRow (F : Type) where
  ref : Ref
  channel : Ref
  guild : Ref
  lane : Ref
  number : Nat
  customValues : Json F
  title : String
  description : Option String
  priority : TrackerPriority
  position : Nat
  dueAt : Option CivilTime
  completedAt : Option CivilTime
  creator : Ref
  assignee : Option Ref
  clientNonce : Option String
  clientRequestHash : Option String
  createdAt : CivilTime
  updatedAt : CivilTime

def laneKinds : List (String × TrackerLaneKind) :=
  [("backlog", .backlog), ("planned", .planned), ("in_progress", .inProgress),
   ("completed", .completed), ("custom", .custom)]

def laneKindText : TrackerLaneKind → String
  | .backlog => "backlog"
  | .planned => "planned"
  | .inProgress => "in_progress"
  | .completed => "completed"
  | .custom => "custom"

def priorities : List (String × TrackerPriority) :=
  [("none", .none), ("low", .low), ("medium", .medium), ("high", .high), ("urgent", .urgent)]

def priorityText : TrackerPriority → String
  | .none => "none"
  | .low => "low"
  | .medium => "medium"
  | .high => "high"
  | .urgent => "urgent"

/-! ## Payloads -/

def optionalText : Option String → Json F
  | some s => .str s
  | none => .null

def timeText (t : CivilTime) : Json F := .str t.isoformat

def optionalTime : Option CivilTime → Json F
  | some t => timeText t
  | none => .null

def idText (n : Nat) : Json F := .str (toString n)

/-- `value or default`, for a column that is a list or a dict. -/
def orDefault (value default : Json F) : Json F :=
  match value with
  | .null | .arr [] | .obj [] => default
  | _ => value

def trackerBoardSnapshotPayload (board : BoardRow F) (taskCount : Nat) : Json F :=
  .obj [("channel_id", idText board.channel.id),
    ("channel_domain", .str board.channel.domain),
    ("guild_id", idText board.guild.id),
    ("guild_domain", .str board.guild.domain),
    ("custom_fields", orDefault board.customFields (.arr [])),
    ("key_prefix", .str board.keyPrefix),
    ("next_task_number", idText board.nextTaskNumber),
    ("task_count", idText taskCount),
    ("created_at", timeText board.createdAt),
    ("updated_at", timeText board.updatedAt),
    ("version", timeText board.updatedAt)]

def trackerLaneSnapshotPayload (lane : LaneRow) : Json F :=
  .obj [("id", idText lane.ref.id),
    ("origin_domain", .str lane.ref.domain),
    ("channel_id", idText lane.channel.id),
    ("channel_domain", .str lane.channel.domain),
    ("guild_id", idText lane.guild.id),
    ("guild_domain", .str lane.guild.domain),
    ("name", .str lane.name),
    ("color", .int lane.color),
    ("kind", .str (laneKindText lane.kind)),
    ("completed", .bool lane.completed),
    ("position", .int lane.position),
    ("created_at", timeText lane.createdAt),
    ("updated_at", timeText lane.updatedAt)]

def trackerTaskSnapshotPayload (task : TaskRow F) : Json F :=
  .obj [("id", idText task.ref.id),
    ("origin_domain", .str task.ref.domain),
    ("channel_id", idText task.channel.id),
    ("channel_domain", .str task.channel.domain),
    ("guild_id", idText task.guild.id),
    ("guild_domain", .str task.guild.domain),
    ("lane_id", idText task.lane.id),
    ("lane_domain", .str task.lane.domain),
    ("number", idText task.number),
    ("custom_values", orDefault task.customValues (.obj [])),
    ("title", .str task.title),
    ("description", optionalText task.description),
    ("priority", .str (priorityText task.priority)),
    ("position", .int task.position),
    ("due_at", optionalTime task.dueAt),
    ("completed_at", optionalTime task.completedAt),
    ("creator_id", idText task.creator.id),
    ("creator_domain", .str task.creator.domain),
    ("assignee_id", optionalText (task.assignee.map fun ref => toString ref.id)),
    ("assignee_domain", optionalText (task.assignee.map UserRef.domain)),
    ("created_at", timeText task.createdAt),
    ("updated_at", timeText task.updatedAt)]

def accountTypes : List (String × AccountType) := [("human", .human), ("bot", .bot)]

def accountTypeText : AccountType → String
  | .human => "human"
  | .bot => "bot"

/-- `profile_from_user`. -/
def profileFromUser (user : UserRow) : Except SnapshotError (Json F) :=
  match user.accountType with
  | .system => .error (.value "system accounts cannot participate in federation")
  | .account type => .ok (.obj [("id", idText user.ref.id),
      ("origin_domain", .str user.ref.domain),
      ("account_type", .str (accountTypeText type)),
      ("username", .str user.username),
      ("display_name", optionalText user.profile.displayName),
      ("avatar_hash", optionalText user.profile.avatarHash),
      ("banner_hash", optionalText user.profile.bannerHash),
      ("bio", optionalText user.profile.bio),
      ("custom_status", optionalText user.profile.customStatus),
      ("profile_version", .int user.profileVersion),
      ("e2ee_device_generation", .int user.e2eeDeviceGeneration)])

/-! ## Cursors -/

/-- The letters of URL-safe base64. -/
def base64Letter (n : Nat) : Char :=
  if n < 26 then Char.ofNat (n + 65)
  else if n < 52 then Char.ofNat (n - 26 + 97)
  else if n < 62 then Char.ofNat (n - 52 + 48)
  else if n = 62 then '-'
  else '_'

/-- `encode_base64url`: three bytes are four letters, and there is no
padding. -/
def encodeBase64url : List UInt8 → List Char
  | a :: b :: c :: rest =>
      base64Letter (a.toNat / 4) :: base64Letter (a.toNat % 4 * 16 + b.toNat / 16) ::
        base64Letter (b.toNat % 16 * 4 + c.toNat / 64) :: base64Letter (c.toNat % 64) ::
        encodeBase64url rest
  | [a, b] =>
      [base64Letter (a.toNat / 4), base64Letter (a.toNat % 4 * 16 + b.toNat / 16),
        base64Letter (b.toNat % 16 * 4)]
  | [a] => [base64Letter (a.toNat / 4), base64Letter (a.toNat % 4 * 16)]
  | [] => []

/-- What a cursor carries, in the order of `sort_keys`. Its strings are
ASCII. -/
def cursorPayload (board : BoardRow F) (afterTaskId : Nat) : Json F :=
  .obj [("after_task_id", idText afterTaskId),
    ("channel_domain", .str board.channel.domain),
    ("channel_id", idText board.channel.id),
    ("guild_domain", .str board.guild.domain),
    ("guild_id", idText board.guild.id),
    ("version", timeText board.updatedAt)]

def trackerSnapshotCursor (lib : Library F) (board : BoardRow F) (afterTaskId : Nat) : String :=
  let payload := Utf8.encode (Json.dumps lib.floats (cursorPayload board afterTaskId))
  String.ofList (encodeBase64url (payload ++ (lib.hmac payload).val))

/-! ## Pages -/

/-- By domain and then by id. -/
def RefLe (a b : Ref) : Prop := a.domain < b.domain ∨ (a.domain = b.domain ∧ a.id ≤ b.id)

instance : DecidableRel RefLe := fun _ _ => inferInstanceAs (Decidable (_ ∨ _ ∧ _))

/-- A set of references, sorted. -/
def sortRefs (refs : List Ref) : List Ref := refs.dedup.insertionSort RefLe

def refPayload (ref : Ref) : Json F :=
  .obj [("id", idText ref.id), ("origin_domain", .str ref.domain)]

def assignees (tasks : List (TaskRow F)) : List Ref := tasks.filterMap TaskRow.assignee

def trackerSnapshotPagePayload (lib : Library F) (board : BoardRow F) (lanes : List LaneRow)
    (tasks : List (TaskRow F)) (users : List UserRow) (taskCount : Nat) (hasMore : Bool) :
    Except SnapshotError (Json F) := do
  ensure (¬ (hasMore ∧ tasks = [])) (.value "tracker snapshot cannot advance an empty page")
  let users ← users.mapM profileFromUser
  let after := if hasMore then tasks.getLast?.map fun task => task.ref.id else none
  .ok (.obj [("board", trackerBoardSnapshotPayload board taskCount),
    ("lanes", .arr (lanes.map trackerLaneSnapshotPayload)),
    ("tasks", .arr (tasks.map trackerTaskSnapshotPayload)),
    ("users", .arr users),
    ("assignee_member_refs", .arr ((sortRefs (assignees tasks)).map refPayload)),
    ("next_cursor", optionalText (after.map (trackerSnapshotCursor lib board))),
    ("next_cursor_after_task_id", optionalText (after.map toString))])

/-- The board an authority serves, with the rows of the users it names. -/
structure Authority (F : Type) where
  board : BoardRow F
  lanes : List LaneRow
  tasks : List (TaskRow F)
  users : List UserRow

namespace Authority

/-- The users that tasks refer to. -/
def taskUsers (tasks : List (TaskRow F)) : List Ref := tasks.map TaskRow.creator ++ assignees tasks

/-- The page for some of the tasks. -/
def page (lib : Library F) (a : Authority F) (tasks : List (TaskRow F)) (hasMore : Bool) :
    Except SnapshotError (Json F) :=
  trackerSnapshotPagePayload lib a.board a.lanes tasks
    ((sortRefs (taskUsers tasks)).filterMap fun ref => lookupBy UserRow.ref ref a.users)
    a.tasks.length hasMore

/-- The pages for a division of the tasks; all but the last have a cursor. -/
def pages (lib : Library F) (a : Authority F) :
    List (List (TaskRow F)) → Except SnapshotError (List (Json F))
  | [] => .ok []
  | tasks :: rest => do
      let page ← a.page lib tasks (!rest.isEmpty)
      let pages ← a.pages lib rest
      .ok (page :: pages)

end Authority

end TrackerSync

end Kaede
