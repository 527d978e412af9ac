import Mathlib.Data.List.Sort
import Kaede.Runs
import Kaede.Requests
import Kaede.RankedRows
import Kaede.Shared

/-!
# Tracker boards

The operations of `backend/app/tracker/service.py` on one board, each a
transaction under the board's row lock: the board row, its lanes and its
tasks go in, and either all rows come out changed or an error leaves
them as they were. Requests arrive after `tracker_context`: the actor's
permissions are no part of the rows.

Times are microseconds. Every operation takes the clock readings it makes
as arguments. All of them read the clock once and stamp every row they
write with that version, `update_board` excepted: it gives each task
whose values it rewrites a reading of its own, and the board row the
last one.
-/

namespace Kaede

/-- `TrackerLaneKind`. -/
inductive TrackerLaneKind where
  | backlog
  | planned
  | inProgress
  | completed
  | custom
deriving DecidableEq, Repr

/-- `TrackerPriority`. -/
inductive TrackerPriority where
  | none
  | low
  | medium
  | high
  | urgent
deriving DecidableEq, Repr

/-- `FieldKind`. -/
inductive FieldKind where
  | text
  | textarea
  | select
  | multiselect
  | number
  | date
  | checkbox
  | url
  | users
  | channels
  | attachments
deriving DecidableEq, Repr

structure TrackerField where
  id : String
  name : String
  type : FieldKind
  options : List String
deriving DecidableEq, Repr

/-- A JSON object: its keys, each with the text of its value, in the order
the column keeps them. -/
abbrev CustomValues := List (String × String)

structure TrackerBoard where
  keyPrefix : String
  customFields : List TrackerField
  nextTaskNumber : Nat
  updatedAt : Int
deriving DecidableEq, Repr

structure TrackerLane where
  id : Nat
  name : String
  color : Nat
  kind : TrackerLaneKind
  completed : Bool
  position : Nat
  updatedAt : Int
deriving DecidableEq, Repr

structure TrackerTask where
  id : Nat
  laneId : Nat
  number : Nat
  title : String
  description : Option String
  priority : TrackerPriority
  position : Nat
  dueAt : Option Int
  completedAt : Option Int
  creator : UserRef
  assignee : Option UserRef
  customValues : CustomValues
  clientNonce : Option String
  clientRequestHash : Option String
  updatedAt : Int
deriving DecidableEq, Repr

/-- The rows of one board. `minted` are the ids it took from the
generator, which hands none out twice. -/
structure Tracker where
  board : TrackerBoard
  lanes : List TrackerLane
  tasks : List TrackerTask
  minted : List Nat
deriving DecidableEq, Repr

inductive TrackerError where
  | versionRequired (current : Int)
  | versionConflict (current : Int)
  | fieldTypeImmutable
  | fieldInUse
  | fieldInvalid
  | laneLimitReached
  | positionInvalid
  | laneNotFound
  | lastLane
  | laneNotEmpty
  | taskNotFound
  | taskLimitReached
  | clientNonceConflict
  | idTaken
deriving DecidableEq, Repr

def maxTrackerLanes : Nat := 50

def maxTrackerTasks : Nat := 5000

/-! ## Requests -/

/-- The `If-Match` header: absent, the text of a version, or other text. -/
inductive IfMatch where
  | missing
  | version (v : Int)
  | other (text : String)
deriving DecidableEq, Repr

/-- `TrackerBoardUpdate`; a field that is not set is `none`. -/
structure TrackerBoardUpdate where
  keyPrefix : Option String
  customFields : Option (List TrackerField)
deriving DecidableEq, Repr

structure TrackerLaneCreate where
  name : String
  color : Nat
  kind : TrackerLaneKind
  completed : Bool
  position : Option Nat
deriving DecidableEq, Repr

structure TrackerLaneUpdate where
  name : Option String
  color : Option Nat
  kind : Option TrackerLaneKind
  completed : Option Bool
deriving DecidableEq, Repr

structure TrackerTaskCreate where
  laneId : Nat
  title : String
  description : Option String
  priority : TrackerPriority
  position : Option Nat
  dueAt : Option Int
  assignee : Option UserRef
  customValues : CustomValues
  clientNonce : Option String
deriving DecidableEq, Repr

/-- `TrackerTaskUpdate`: three of the fields can also be set to null. -/
structure TrackerTaskUpdate where
  title : Option String
  description : Option (Option String)
  priority : Option TrackerPriority
  dueAt : Option (Option Int)
  assignee : Option (Option UserRef)
  customValues : Option CustomValues
deriving DecidableEq, Repr

structure TrackerTaskMove where
  laneId : Nat
  position : Nat
deriving DecidableEq, Repr

/-- Functions the operations call and no result here depends on:
`validate_values` (`none` where it raises) and
`task_request_fingerprint`. -/
structure TrackerFunctions where
  validateValues : List TrackerField → CustomValues → Option CustomValues
  taskRequestFingerprint : TrackerTaskCreate → String

/-! ## Versions and positions -/

/-- `next_tracker_version`, with the clock's reading. -/
def nextTrackerVersion (current now : Int) : Int := max now (current + 1)

theorem lt_nextTrackerVersion (current now : Int) : current < nextTrackerVersion current now := by
  unfold nextTrackerVersion
  omega

def requireTrackerVersion (updatedAt : Int) : IfMatch → Except TrackerError Unit
  | .missing => .error (.versionRequired updatedAt)
  | .version v => ensure (v = updatedAt) (.versionConflict updatedAt)
  | .other _ => .error (.versionConflict updatedAt)

theorem requireTrackerVersion_eq_ok {updatedAt : Int} {ifMatch : IfMatch} {u : Unit} :
    requireTrackerVersion updatedAt ifMatch = .ok u ↔ ifMatch = .version updatedAt := by
  cases ifMatch with
  | missing => simp [requireTrackerVersion]
  | version v => simp [requireTrackerVersion, ensure_eq_ok]
  | other text => simp [requireTrackerVersion]

instance : Ranked TrackerLane where
  rank := TrackerLane.position
  stamp := TrackerLane.updatedAt
  place l n v := { l with position := n, updatedAt := v }
  rank_place _ _ _ := rfl
  stamp_place _ _ _ := rfl

instance : Ranked TrackerTask where
  rank := TrackerTask.position
  stamp := TrackerTask.updatedAt
  place t n v := { t with position := n, updatedAt := v }
  rank_place _ _ _ := rfl
  stamp_place _ _ _ := rfl

/-- `apply_positions`, over the rows in list order. -/
def applyPositions {α : Type} [Ranked α] (items : List α) (updatedAt : Int) : List α :=
  renumber updatedAt items

def TrackerLane.orderedBefore (a b : TrackerLane) : Prop :=
  a.position < b.position ∨ a.position = b.position ∧ a.id ≤ b.id

instance : DecidableRel TrackerLane.orderedBefore := fun _ _ =>
  inferInstanceAs (Decidable (_ ∨ _))

def TrackerTask.orderedBefore (a b : TrackerTask) : Prop :=
  a.position < b.position ∨ a.position = b.position ∧ a.id ≤ b.id

instance : DecidableRel TrackerTask.orderedBefore := fun _ _ =>
  inferInstanceAs (Decidable (_ ∨ _))

namespace Tracker

/-- `ordered_lanes`. -/
def orderedLanes (s : Tracker) : List TrackerLane :=
  s.lanes.insertionSort TrackerLane.orderedBefore

/-- `ordered_tasks` of one lane. -/
def orderedTasks (s : Tracker) (lane : Nat) : List TrackerTask :=
  (group TrackerTask.laneId lane s.tasks).insertionSort TrackerTask.orderedBefore

/-- `lane_by_ref`. A reference of another home names no lane here. -/
def laneByRef (s : Tracker) (ref : Nat) : Option TrackerLane := lookupBy TrackerLane.id ref s.lanes

/-- `task_by_ref`. -/
def taskByRef (s : Tracker) (ref : Nat) : Option TrackerTask := lookupBy TrackerTask.id ref s.tasks

/-- The rows of one lane become `rows`. -/
def writeLaneTasks (s : Tracker) (lane : Nat) (rows : List TrackerTask) : Tracker :=
  { s with tasks := replaceGroup TrackerTask.laneId lane rows s.tasks }

/-- The board row's version moves. -/
def touch (s : Tracker) (version : Int) : Tracker :=
  { s with board := { s.board with updatedAt := version } }

/-- The version a mutation gives to the rows it writes. -/
def mutationVersion (s : Tracker) (now : Int) : Int := nextTrackerVersion s.board.updatedAt now

end Tracker

/-! ## The board -/

/-- `DEFAULT_TRACKER_LANES`. -/
def defaultTrackerLanes : List (String × Nat × TrackerLaneKind × Bool) :=
  [("Backlog", 0x3B82F6, .backlog, false),
   ("Planned", 0xF59E0B, .planned, false),
   ("In progress", 0xA3E635, .inProgress, false),
   ("Done", 0x22C55E, .completed, true)]

/-- `create_tracker_state`, with the ids it mints. The rows take the time of
the transaction from the database. -/
def createTrackerState (keyPrefix : String) (ids : List Nat) (now : Int) :
    Except TrackerError Tracker := do
  ensure (ids.length = defaultTrackerLanes.length ∧ ids.Nodup) .idTaken
  .ok
    { board := ⟨keyPrefix, [], 1, now⟩
      lanes := (defaultTrackerLanes.zip ids).mapIdx
        fun position ((name, color, kind, completed), id) =>
          ⟨id, name, color, kind, completed, position, now⟩
      tasks := []
      minted := ids }

/-- The values a task keeps under the new fields. -/
def TrackerTask.retainedValues (t : TrackerTask) (fields : List TrackerField) : CustomValues :=
  t.customValues.filter fun entry => entry.1 ∈ fields.map TrackerField.id

/-- The loop body of `update_board`: a task that loses values gets the
successor of its own version. -/
def TrackerTask.retainFields (fields : List TrackerField) (clock : Nat → Int) (t : TrackerTask) :
    TrackerTask :=
  if t.retainedValues fields ≠ t.customValues then
    { t with
      customValues := t.retainedValues fields
      updatedAt := nextTrackerVersion t.updatedAt (clock t.id) }
  else t

/-- The board row with the settings of the request. -/
def TrackerBoard.withUpdate (b : TrackerBoard) (payload : TrackerBoardUpdate) : TrackerBoard :=
  { b with
    keyPrefix := payload.keyPrefix.getD b.keyPrefix
    customFields := payload.customFields.getD b.customFields }

/-- The lane with the fields of the request. -/
def TrackerLane.withUpdate (l : TrackerLane) (payload : TrackerLaneUpdate) : TrackerLane :=
  { l with
    name := payload.name.getD l.name
    color := payload.color.getD l.color
    kind := payload.kind.getD l.kind
    completed := payload.completed.getD l.completed }

/-- The task with the fields of the request; `values` are the validated ones. -/
def TrackerTask.withUpdate (t : TrackerTask) (payload : TrackerTaskUpdate) (values : CustomValues) :
    TrackerTask :=
  { t with
    title := payload.title.getD t.title
    description := payload.description.getD t.description
    priority := payload.priority.getD t.priority
    dueAt := payload.dueAt.getD t.dueAt
    assignee := payload.assignee.getD t.assignee
    customValues := values }

/-- What `completed_at` becomes in a lane that is completed or not. -/
def completionTime (completed : Bool) (version : Int) : Option Int :=
  if completed then some version else none

/-- The task as it enters a lane: completed or reopened where that differs. -/
def TrackerTask.movedTo (t : TrackerTask) (target : TrackerLane) (version : Int) : TrackerTask :=
  { t with
    laneId := target.id
    completedAt :=
      if target.completed ≠ t.completedAt.isSome then completionTime target.completed version
      else t.completedAt
    updatedAt := version }

theorem TrackerTask.isSome_movedTo (t : TrackerTask) (target : TrackerLane) (version : Int) :
    (t.movedTo target version).completedAt.isSome = target.completed := by
  unfold movedTo completionTime
  cases target.completed with
  | true => cases t.completedAt <;> rfl
  | false => cases t.completedAt <;> rfl

namespace Tracker

variable (fns : TrackerFunctions)

def checkCustomFields (s : Tracker) (fields : List TrackerField) : Except TrackerError Unit := do
  forEach fields fun field =>
    ensure (∀ old ∈ lookupBy TrackerField.id field.id s.board.customFields, old.type = field.type)
      .fieldTypeImmutable
  forEach s.tasks fun t =>
    ensure ((fns.validateValues fields (t.retainedValues fields)).isSome = true) .fieldInUse

/-- `update_board`. `clock` is the reading made for each task, `now` the
one made for the board row. -/
def updateBoard (s : Tracker) (payload : TrackerBoardUpdate) (ifMatch : IfMatch)
    (clock : Nat → Int) (now : Int) : Except TrackerError Tracker := do
  requireTrackerVersion s.board.updatedAt ifMatch
  let tasks ← (match payload.customFields with
    | none => .ok s.tasks
    | some fields => do
        checkCustomFields fns s fields
        .ok (s.tasks.map (TrackerTask.retainFields fields clock)))
  let board := s.board.withUpdate payload
  -- Nothing is committed when the board row keeps its values.
  (if board ≠ s.board then
    .ok { s with
      board := { board with updatedAt := s.mutationVersion now }
      tasks := tasks }
  else .ok s)

/-! ## Lanes -/

/-- `create_lane`, with the id it mints. -/
def createLane (s : Tracker) (id : Nat) (payload : TrackerLaneCreate) (now : Int) :
    Except TrackerError Tracker := do
  let lanes := s.orderedLanes
  ensure (lanes.length < maxTrackerLanes) .laneLimitReached
  let position := payload.position.getD lanes.length
  ensure (position ≤ lanes.length) .positionInvalid
  ensure (id ∉ s.minted) .idTaken
  let version := s.mutationVersion now
  let lane : TrackerLane :=
    ⟨id, payload.name, payload.color, payload.kind, payload.completed, position, version⟩
  .ok { (s.touch version) with
    lanes := applyPositions (lanes.insertIdx position lane) version
    minted := id :: s.minted }

/-- `update_lane`. The tasks of a lane whose completion is toggled are
completed or reopened with it. -/
def updateLane (s : Tracker) (ref : Nat) (payload : TrackerLaneUpdate) (ifMatch : IfMatch)
    (now : Int) : Except TrackerError Tracker := do
  let lane ← found (s.laneByRef ref) .laneNotFound
  requireTrackerVersion lane.updatedAt ifMatch
  let updated := lane.withUpdate payload
  let version := s.mutationVersion now
  (if updated ≠ lane then
    .ok { (s.touch version) with
      lanes := updateBy TrackerLane.id lane.id
        (fun _ => { updated with updatedAt := version }) s.lanes
      tasks :=
        if updated.completed ≠ lane.completed then
          updateBy TrackerTask.laneId lane.id
            (fun t => { t with
              completedAt := completionTime updated.completed version
              updatedAt := version }) s.tasks
        else s.tasks }
  else .ok s)

/-- `move_lane`. -/
def moveLane (s : Tracker) (ref position : Nat) (ifMatch : IfMatch) (now : Int) :
    Except TrackerError Tracker := do
  let lanes := s.orderedLanes
  let lane ← found (s.laneByRef ref) .laneNotFound
  requireTrackerVersion lane.updatedAt ifMatch
  ensure (position < lanes.length) .positionInvalid
  let version := s.mutationVersion now
  let rest := lanes.filter fun l => l.id ≠ lane.id
  (if lane.position ≠ position then
    .ok { (s.touch version) with
      lanes := applyPositions (rest.insertIdx position lane) version }
  else .ok s)

/-- `delete_lane`: never the last lane, and only one without tasks. -/
def deleteLane (s : Tracker) (ref : Nat) (ifMatch : IfMatch) (now : Int) :
    Except TrackerError Tracker := do
  let lanes := s.orderedLanes
  let lane ← found (s.laneByRef ref) .laneNotFound
  requireTrackerVersion lane.updatedAt ifMatch
  ensure (lanes.length ≠ 1) .lastLane
  ensure (∀ t ∈ s.tasks, t.laneId ≠ lane.id) .laneNotEmpty
  let version := s.mutationVersion now
  let rest := lanes.filter fun l => l.id ≠ lane.id
  .ok { (s.touch version) with lanes := applyPositions rest version }

/-! ## Tasks -/

/-- The task an earlier request with this nonce made. -/
def nonceTask (s : Tracker) (actor : UserRef) (payload : TrackerTaskCreate) :
    Option TrackerTask :=
  s.tasks.find? fun t =>
    t.creator = actor ∧ payload.clientNonce ≠ none ∧ t.clientNonce = payload.clientNonce

/-- The rest of `create_task`, for a request that is not a replay. -/
def insertTask (s : Tracker) (id : Nat) (actor : UserRef) (payload : TrackerTaskCreate)
    (now : Int) : Except TrackerError Tracker := do
  ensure (s.tasks.length < maxTrackerTasks) .taskLimitReached
  let lane ← found (s.laneByRef payload.laneId) .laneNotFound
  let laneTasks := s.orderedTasks lane.id
  let position := payload.position.getD laneTasks.length
  ensure (position ≤ laneTasks.length) .positionInvalid
  let values ← found (fns.validateValues s.board.customFields payload.customValues) .fieldInvalid
  ensure (id ∉ s.minted) .idTaken
  let version := s.mutationVersion now
  let task : TrackerTask :=
    { id := id
      laneId := lane.id
      number := s.board.nextTaskNumber
      title := payload.title
      description := payload.description
      priority := payload.priority
      position := position
      dueAt := payload.dueAt
      completedAt := completionTime lane.completed version
      creator := actor
      assignee := payload.assignee
      customValues := values
      clientNonce := payload.clientNonce
      clientRequestHash := payload.clientNonce.map fun _ => fns.taskRequestFingerprint payload
      updatedAt := version }
  let s' := s.writeLaneTasks lane.id (applyPositions (laneTasks.insertIdx position task) version)
  .ok { s' with
    board := { s.board with nextTaskNumber := s.board.nextTaskNumber + 1, updatedAt := version }
    minted := id :: s.minted }

/-- `create_task`, with the id it mints. -/
def createTask (s : Tracker) (id : Nat) (actor : UserRef) (payload : TrackerTaskCreate)
    (now : Int) : Except TrackerError Tracker :=
  match s.nonceTask actor payload with
  | some existing => do
      ensure (existing.clientRequestHash = some (fns.taskRequestFingerprint payload))
        .clientNonceConflict
      .ok s
  | none => insertTask fns s id actor payload now

/-- `update_task`. -/
def updateTask (s : Tracker) (ref : Nat) (payload : TrackerTaskUpdate) (ifMatch : IfMatch)
    (now : Int) : Except TrackerError Tracker := do
  let task ← found (s.taskByRef ref) .taskNotFound
  requireTrackerVersion task.updatedAt ifMatch
  let values ← (match payload.customValues with
    | none => .ok task.customValues
    | some values => found (fns.validateValues s.board.customFields values) .fieldInvalid)
  let updated := task.withUpdate payload values
  let version := s.mutationVersion now
  (if updated ≠ task then
    .ok { (s.touch version) with
      tasks := updateBy TrackerTask.id task.id
        (fun _ => { updated with updatedAt := version }) s.tasks }
  else .ok s)

/-- `move_task`. The lane the task leaves is renumbered without it, the one
it enters with it; inside one lane both are the same list. -/
def moveTask (s : Tracker) (ref : Nat) (payload : TrackerTaskMove) (ifMatch : IfMatch)
    (now : Int) : Except TrackerError Tracker := do
  let task ← found (s.taskByRef ref) .taskNotFound
  requireTrackerVersion task.updatedAt ifMatch
  let target ← found (s.laneByRef payload.laneId) .laneNotFound
  let sourceTasks := (s.orderedTasks task.laneId).filter fun t => t.id ≠ task.id
  let targetTasks := if task.laneId = target.id then sourceTasks else s.orderedTasks target.id
  ensure (payload.position ≤ targetTasks.length) .positionInvalid
  let positionChanged := task.laneId ≠ target.id ∨ task.position ≠ payload.position
  let completionChanged := target.completed ≠ task.completedAt.isSome
  let version := s.mutationVersion now
  let moved := task.movedTo target version
  (if positionChanged then
    let s' :=
      if task.laneId = target.id then s
      else s.writeLaneTasks task.laneId (applyPositions sourceTasks version)
    let rows := applyPositions (targetTasks.insertIdx payload.position moved) version
    .ok ((s'.writeLaneTasks target.id rows).touch version)
  else if completionChanged then
    .ok { (s.touch version) with
      tasks := updateBy TrackerTask.id task.id (fun _ => moved) s.tasks }
  else .ok s)

/-- `delete_task` and `commit_task_deletion`. -/
def deleteTask (s : Tracker) (ref : Nat) (ifMatch : IfMatch) (now : Int) :
    Except TrackerError Tracker := do
  let task ← found (s.taskByRef ref) .taskNotFound
  requireTrackerVersion task.updatedAt ifMatch
  let laneTasks := (s.orderedTasks task.laneId).filter fun t => t.id ≠ task.id
  let version := s.mutationVersion now
  .ok ((s.writeLaneTasks task.laneId (applyPositions laneTasks version)).touch version)

end Tracker

/-! ## One mutation after another -/

/-- A mutation as it reaches the board lock, with the ids it mints and its
clock readings. -/
inductive TrackerMutation where
  | updateBoard (payload : TrackerBoardUpdate) (ifMatch : IfMatch) (clock : Nat → Int) (now : Int)
  | createLane (id : Nat) (payload : TrackerLaneCreate) (now : Int)
  | updateLane (ref : Nat) (payload : TrackerLaneUpdate) (ifMatch : IfMatch) (now : Int)
  | moveLane (ref position : Nat) (ifMatch : IfMatch) (now : Int)
  | deleteLane (ref : Nat) (ifMatch : IfMatch) (now : Int)
  | createTask (id : Nat) (actor : UserRef) (payload : TrackerTaskCreate) (now : Int)
  | updateTask (ref : Nat) (payload : TrackerTaskUpdate) (ifMatch : IfMatch) (now : Int)
  | moveTask (ref : Nat) (payload : TrackerTaskMove) (ifMatch : IfMatch) (now : Int)
  | deleteTask (ref : Nat) (ifMatch : IfMatch) (now : Int)

namespace Tracker

variable (fns : TrackerFunctions)

def mutate (s : Tracker) : TrackerMutation → Except TrackerError Tracker
  | .updateBoard payload ifMatch clock now => updateBoard fns s payload ifMatch clock now
  | .createLane id payload now => createLane s id payload now
  | .updateLane ref payload ifMatch now => updateLane s ref payload ifMatch now
  | .moveLane ref position ifMatch now => moveLane s ref position ifMatch now
  | .deleteLane ref ifMatch now => deleteLane s ref ifMatch now
  | .createTask id actor payload now => createTask fns s id actor payload now
  | .updateTask ref payload ifMatch now => updateTask fns s ref payload ifMatch now
  | .moveTask ref payload ifMatch now => moveTask s ref payload ifMatch now
  | .deleteTask ref ifMatch now => deleteTask s ref ifMatch now

/-- One mutation and its transaction. -/
def step (s : Tracker) (m : TrackerMutation) : Option Tracker :=
  match mutate fns s m with
  | .ok s' => some s'
  | .error _ => some s

end Tracker

end Kaede
