import Kaede.TrackerEndpoint

/-!
# Invalidations and hydrations of a tracker

The authority queues an invalidation with every change of a board, and the
replica drops the lanes and tasks of a board that is older
(`apply_tracker_invalidation`). A board without lanes is stale, and reading it
fetches a snapshot (`hydrate_replicated_tracker`).
-/

namespace Kaede

namespace TrackerSync

open Replication (RemoteUserProfile UserRow Users maxDatabaseSnowflake)
open TrackerFields

variable {F : Type}

/-! ## Invalidations -/

/-- `TRACKER_INVALIDATION_REASONS`. -/
def trackerInvalidationReasons : List String :=
  ["settings_updated", "lane_created", "lane_updated", "lane_completion_updated",
   "lane_order_updated", "lane_deleted", "task_created", "task_updated", "task_order_updated",
   "task_deleted", "assignee_membership_removed"]

/-- The content that `queue_tracker_federation_invalidation` queues. -/
def invalidationContent (board : BoardRow F) (reason : String) : Json F :=
  .obj [("tracker", .obj [
      ("channel_id", idText board.channel.id),
      ("channel_domain", .str board.channel.domain),
      ("key_prefix", .str board.keyPrefix),
      ("next_task_number", idText board.nextTaskNumber),
      ("version", timeText board.updatedAt)]),
    ("reason", .str reason)]

/-- The channel in the context of an event. -/
def invalidationContext (board : BoardRow F) : Json F :=
  .obj [("channel_id", idText board.channel.id), ("channel_domain", .str board.channel.domain)]

/-- What an invalidation says. -/
structure Invalidation where
  channel : Ref
  keyPrefix : String
  nextTaskNumber : Nat
  version : CivilTime
  reason : String

/-- The checks of `apply_tracker_invalidation`. `isTracker` tells the channels
of the guild that are trackers. -/
def readInvalidation (lib : Library F) (isTracker : Ref → Bool) (guild : Ref)
    (content context : Json F) : Except SnapshotError Invalidation := do
  let raw := content.get "tracker"
  objectOf raw (.value "tracker invalidation payload is invalid")
  let channel ← refAt lib raw "channel_id" "channel_domain" "tracker channel id"
  let named ← refAt lib context "channel_id" "channel_domain" "tracker context channel id"
  ensure (channel = named ∧ channel.domain = guild.domain)
    (.value "tracker invalidation references another channel")
  ensure (isTracker channel = true)
    (.value "tracker invalidation references an invalid channel")
  let keyPrefix ← found ((raw.get "key_prefix").str?.filter keyPrefixPattern)
    (.value "tracker invalidation key prefix is invalid")
  let nextTaskNumber ← snowflake (raw.get "next_task_number") "tracker next task number"
  ensure (1 ≤ nextTaskNumber) (.value "tracker invalidation next task number is invalid")
  let version ← awareDatetime lib (raw.get "version") "tracker invalidation version"
  let reason ← found ((content.get "reason").str?.filter (· ∈ trackerInvalidationReasons))
    (.value "tracker invalidation reason is invalid")
  .ok ⟨channel, keyPrefix, nextTaskNumber, version, reason⟩

/-- The event for the clients. -/
def boardUpdate (board : BoardRow F) (reason : String) : Json F :=
  .obj [("channel_id", idText board.channel.id),
    ("channel_domain", .str board.channel.domain),
    ("key_prefix", .str board.keyPrefix),
    ("next_task_number", idText board.nextTaskNumber),
    ("version", timeText board.updatedAt),
    ("full_refresh", .bool true),
    ("reason", .str reason)]

section

variable {channel guild : Ref}

/-- The board after an invalidation; it keeps the version of a board that is
as new. -/
def invalidatedBoard (replica : Replica F channel guild) (i : Invalidation) :
    { b : BoardRow F // b.channel = channel ∧ b.guild = guild } :=
  match h : replica.board with
  | none => ⟨{ channel, guild, customFields := .arr [], keyPrefix := i.keyPrefix
               nextTaskNumber := i.nextTaskNumber, createdAt := i.version
               updatedAt := i.version }, rfl, rfl⟩
  | some board =>
      if i.version.instant ≤ board.updatedAt.instant then ⟨board, replica.board_ref board h⟩
      else ⟨{ board with keyPrefix := i.keyPrefix, nextTaskNumber := i.nextTaskNumber
                         updatedAt := i.version }, replica.board_ref board h⟩

/-- `cache_is_current`. -/
def cacheIsCurrent (replica : Replica F channel guild) (i : Invalidation) : Bool :=
  replica.board.any fun board => i.version.instant ≤ board.updatedAt.instant

/-- The rows after an invalidation. -/
def Replica.invalidate (replica : Replica F channel guild) (i : Invalidation) :
    Replica F channel guild where
  board := some (invalidatedBoard replica i).val
  lanes := if cacheIsCurrent replica i then replica.lanes else []
  tasks := if cacheIsCurrent replica i then replica.tasks else []
  board_ref := fun _ hb => Option.some.inj hb ▸ (invalidatedBoard replica i).property

/-- `apply_tracker_invalidation` for one channel. The event for the clients
takes the place of those that are still queued. -/
def applyTrackerInvalidation (lib : Library F) (isTracker : Bool)
    (replica : Replica F channel guild) (content context : Json F) :
    Except SnapshotError (Invalidation × Replica F channel guild × Json F) := do
  let i ← readInvalidation lib (fun ref => ref = channel ∧ isTracker) guild content context
  .ok (i, replica.invalidate i, boardUpdate (invalidatedBoard replica i).val i.reason)

/-! ## Hydration -/

/-- `replicated_tracker_is_stale`. -/
def Replica.isStale (replica : Replica F channel guild) : Bool :=
  replica.board.isNone || replica.lanes.isEmpty

/-- The attempts that start before the deadline, three at most. -/
def fetchAttempts [DecidableEq F] (lib : Library F) (guild channel : Ref) :
    List (List Response) → Except SnapshotError (Json F)
  | [] => .error (.http 503 "FEDERATION_UNAVAILABLE")
  | responses :: attempts =>
      match fetchTrackerSnapshotOnce lib guild channel responses with
      | .error .changed => fetchAttempts lib guild channel attempts
      | result => result

/-- `fetch_tracker_snapshot`. -/
def fetchTrackerSnapshot [DecidableEq F] (lib : Library F) (guild channel : Ref)
    (attempts : List (List Response)) : Except SnapshotError (Json F) :=
  fetchAttempts lib guild channel (attempts.take 3)

/-- What hydration makes of an error. -/
def unavailable {α : Type} : Except SnapshotError α → Except SnapshotError α
  | .ok a => .ok a
  | .error (.http status code) => .error (.http status code)
  | .error _ => .error (.http 503 "FEDERATION_UNAVAILABLE")

/-- `hydrate_replicated_tracker`; the rows are left as they are when it fails. -/
def hydrateReplicatedTracker [DecidableEq F] (lib : Library F) (domain : String) (isTracker : Bool)
    (around : Surroundings) (replica : Replica F channel guild) (attempts : List (List Response)) :
    Except SnapshotError (Users × Replica F channel guild) := do
  ensure (guild.domain ≠ domain ∧ channel.domain = guild.domain)
    (.value "tracker hydration requires a remote authoritative channel")
  ensure (isTracker = true) (.http 404 "TRACKER_NOT_FOUND")
  if replica.isStale then
    unavailable (do
      let snapshot ← fetchTrackerSnapshot lib guild channel attempts
      applyTrackerSnapshot lib around replica snapshot)
  else .ok (around.users, replica)

end

section

variable {channel guild : Ref}

/-- The rows are those of a state of the authority, as a replica has them. -/
structure Mirrors (replica : Replica F channel guild) (a : Authority F) (members : List Ref) :
    Prop where
  board : replica.board = some a.board
  lanes : replica.lanes = a.lanes
  tasks : replica.tasks = a.tasks.map (mirrorTask members)

/-! ## What an invalidation does -/

variable {lib : Library F} {replica : Replica F channel guild} {i : Invalidation}

/-- The board gets the version of the invalidation, or it keeps a version that
is no older. -/
theorem invalidatedBoard_version (replica : Replica F channel guild) (i : Invalidation) :
    (∀ b ∈ replica.board,
        b.updatedAt.instant ≤ (invalidatedBoard replica i).val.updatedAt.instant) ∧
      i.version.instant ≤ (invalidatedBoard replica i).val.updatedAt.instant ∧
      ((invalidatedBoard replica i).val.updatedAt = i.version ∨
        ∃ b ∈ replica.board, (invalidatedBoard replica i).val.updatedAt = b.updatedAt) := by
  unfold invalidatedBoard
  split
  · rename_i hnone
    refine ⟨fun b hb => ?_, le_rfl, .inl rfl⟩
    rw [hnone] at hb
    cases hb
  · rename_i board hsome
    split
    · rename_i hcurrent
      refine ⟨fun b hb => ?_, hcurrent, .inr ⟨board, hsome, rfl⟩⟩
      rw [hsome] at hb
      exact Option.some.inj hb ▸ le_rfl
    · rename_i holder
      refine ⟨fun b hb => ?_, le_rfl, .inl rfl⟩
      rw [hsome] at hb
      exact Option.some.inj hb ▸ (not_le.mp holder).le

theorem invalidatedBoard_current (h : cacheIsCurrent replica i = true) :
    replica.board = some (invalidatedBoard replica i).val := by
  unfold cacheIsCurrent at h
  unfold invalidatedBoard
  split
  · rename_i hnone
    rw [hnone] at h
    cases h
  · rename_i board hsome
    rw [hsome, Option.any_some, decide_eq_true_eq] at h
    rw [if_pos h]
    exact hsome

/-- A board that is not stale afterwards is as it was. -/
theorem invalidate_fresh (h : (replica.invalidate i).isStale = false) :
    replica.isStale = false ∧ replica.board = (replica.invalidate i).board ∧
      replica.lanes = (replica.invalidate i).lanes ∧
      replica.tasks = (replica.invalidate i).tasks := by
  have hcurrent : cacheIsCurrent replica i = true := by
    by_contra hold
    have hstale : (replica.invalidate i).lanes = [] := if_neg hold
    rw [Replica.isStale, hstale] at h
    simp at h
  have hboard : replica.board = (replica.invalidate i).board := invalidatedBoard_current hcurrent
  have hlanes : replica.lanes = (replica.invalidate i).lanes := (if_pos hcurrent).symm
  have htasks : replica.tasks = (replica.invalidate i).tasks := (if_pos hcurrent).symm
  refine ⟨?_, hboard, hlanes, htasks⟩
  rw [Replica.isStale, hboard, hlanes]
  exact h

/-- An invalidation carries the version of the board that queued it. -/
theorem applyTrackerInvalidation_ok {isTracker : Bool} {board : BoardRow F} {reason : String}
    {replica' : Replica F channel guild} {dispatch : Json F}
    (h : applyTrackerInvalidation lib isTracker replica (invalidationContent board reason)
      (invalidationContext board) = .ok (i, replica', dispatch)) :
    i.version = board.updatedAt ∧ replica' = replica.invalidate i := by
  obtain ⟨j, hread, h⟩ := bind_eq_ok.mp h
  obtain ⟨rfl, hrest⟩ := Prod.mk.inj (Except.ok.inj h)
  refine ⟨?_, (Prod.mk.inj hrest).1.symm⟩
  obtain ⟨-, hread⟩ := check_bind_eq_ok.mp hread
  obtain ⟨ref, -, hread⟩ := bind_eq_ok.mp hread
  obtain ⟨named, -, hread⟩ := bind_eq_ok.mp hread
  obtain ⟨-, hread⟩ := check_bind_eq_ok.mp hread
  obtain ⟨-, hread⟩ := check_bind_eq_ok.mp hread
  obtain ⟨keyPrefix, -, hread⟩ := bind_eq_ok.mp hread
  obtain ⟨next, -, hread⟩ := bind_eq_ok.mp hread
  obtain ⟨-, hread⟩ := check_bind_eq_ok.mp hread
  obtain ⟨version, hversion, hread⟩ := bind_eq_ok.mp hread
  obtain ⟨reason, -, hread⟩ := bind_eq_ok.mp hread
  obtain rfl := Except.ok.inj hread
  exact Except.ok.inj (hversion.symm.trans (awareDatetime_timeText board.updatedAt _))

/-- What the authority announces of its board. -/
def BoardRow.invalidation (board : BoardRow F) (reason : String) : Invalidation :=
  ⟨board.channel, board.keyPrefix, board.nextTaskNumber, board.updatedAt, reason⟩

/-- What the authority queues is read as it was written. -/
theorem Sound.applyTrackerInvalidation_eq {fields : List TrackerField} {a : Authority F}
    (h : Sound lib fields a) (hchannel : a.board.channel = channel) (hguild : a.board.guild = guild)
    {reason : String} (hreason : reason ∈ trackerInvalidationReasons)
    (replica : Replica F channel guild) :
    ∃ dispatch, applyTrackerInvalidation lib true replica (invalidationContent a.board reason)
      (invalidationContext a.board) = .ok (a.board.invalidation reason,
        replica.invalidate (a.board.invalidation reason), dispatch) := by
  have hread : readInvalidation lib (fun ref => ref = channel ∧ true) guild
      (invalidationContent a.board reason) (invalidationContext a.board) =
        .ok (a.board.invalidation reason) := by
    refine Eq.trans (ensure_bind rfl) ?_
    refine Eq.trans (bind_of_eq_ok (refAt_ok h.channel rfl rfl)) ?_
    refine Eq.trans (bind_of_eq_ok (refAt_ok h.channel rfl rfl)) ?_
    refine Eq.trans (ensure_bind ⟨rfl, hguild ▸ h.origin⟩) ?_
    refine Eq.trans (ensure_bind (by simp [hchannel])) ?_
    have hprefix : (Option.some a.board.keyPrefix).filter keyPrefixPattern =
        some a.board.keyPrefix := by
      rw [Option.filter_some, if_pos h.keyPrefix]
    refine Eq.trans (found_bind hprefix) ?_
    refine Eq.trans (bind_of_eq_ok (snowflake_idText h.nextTaskNumber.2 _)) ?_
    refine Eq.trans (ensure_bind h.nextTaskNumber.1) ?_
    refine Eq.trans (bind_of_eq_ok (awareDatetime_timeText a.board.updatedAt _)) ?_
    have htext : (Option.some reason).filter (· ∈ trackerInvalidationReasons) = some reason := by
      rw [Option.filter_some, if_pos (decide_eq_true hreason)]
    exact found_bind htext
  exact ⟨_, bind_of_eq_ok hread⟩

/-! ## What a hydration does -/

theorem fetchAttempts_ok [DecidableEq F] {attempts : List (List Response)} {snapshot : Json F}
    (h : fetchAttempts lib guild channel attempts = .ok snapshot) :
    ∃ responses ∈ attempts,
      fetchTrackerSnapshotOnce lib guild channel responses = .ok snapshot := by
  induction attempts with
  | nil => cases h
  | cons responses attempts ih =>
    rw [fetchAttempts] at h
    split at h
    · obtain ⟨found, hfound, hok⟩ := ih h
      exact ⟨found, List.mem_cons_of_mem _ hfound, hok⟩
    · exact ⟨responses, List.mem_cons_self, h⟩

theorem fetchTrackerSnapshot_first [DecidableEq F] {responses : List Response} {snapshot : Json F}
    (h : fetchTrackerSnapshotOnce lib guild channel responses = .ok snapshot) :
    fetchTrackerSnapshot lib guild channel [responses] = .ok snapshot := by
  rw [fetchTrackerSnapshot, List.take_of_length_le (by simp), fetchAttempts, h]

theorem unavailable_ok {α : Type} {x : Except SnapshotError α} {y : α} (h : unavailable x = .ok y) :
    x = .ok y := by
  cases x with
  | ok a => exact h
  | error e => cases e <;> cases h

/-- Applying the snapshot of a state makes the rows of that state, over a
board that gets no other version by it. -/
theorem mirrors_of_apply [DecidableEq F] {fields : List TrackerField} {a : Authority F}
    (h : Sound lib fields a)
    {profiles : List RemoteUserProfile} {refs : List Ref} (hnames : Names a profiles refs)
    (hchannel : a.board.channel = channel) (hguild : a.board.guild = guild)
    (hkept : ∀ b ∈ replica.board, ¬ Restamps b a.board) {around : Surroundings}
    {users : Users} {replica' : Replica F channel guild}
    (happly : applyTrackerSnapshot lib around replica (snapshotTree a profiles refs) =
      .ok (users, replica')) : Mirrors replica' a around.members := by
  subst hchannel hguild
  rw [h.apply_eq hnames, mirrorOver_eq hkept] at happly
  obtain ⟨resolved, -, happly⟩ := bind_eq_ok.mp happly
  obtain ⟨-, happly⟩ := check_bind_eq_ok.mp happly
  obtain rfl := (Prod.mk.inj (Except.ok.inj happly)).2
  exact ⟨rfl, rfl, rfl⟩

/-- A hydration of a stale board makes the rows those of a state that served
a page, when none of these gives the board another version. -/
theorem hydrate_ok [DecidableEq F]
    (hfloats : ∀ x, lib.fields.small x = true → lib.floats.Reads x) {states : List (Authority F)}
    (hstates : History lib channel guild states) {attempts : List (List Response)}
    (hserved : ∀ responses ∈ attempts, ∀ response ∈ responses, Served lib states response)
    (hkept : ∀ a ∈ states, ∀ b ∈ replica.board, ¬ Restamps b a.board)
    (hstale : replica.isStale = true) {domain : String} {isTracker : Bool} {around : Surroundings}
    {users : Users} {replica' : Replica F channel guild}
    (h : hydrateReplicatedTracker lib domain isTracker around replica attempts =
      .ok (users, replica')) : ∃ a ∈ states, Mirrors replica' a around.members := by
  obtain ⟨-, h⟩ := check_bind_eq_ok.mp h
  obtain ⟨-, h⟩ := check_bind_eq_ok.mp h
  rw [if_pos hstale] at h
  obtain ⟨snapshot, hfetch, happly⟩ := bind_eq_ok.mp (unavailable_ok h)
  obtain ⟨responses, hmem, honce⟩ := fetchAttempts_ok hfetch
  obtain ⟨a, ha, profiles, refs, hnames, -, rfl⟩ := fetchTrackerSnapshotOnce_sound hfloats hstates
    (hserved responses (List.mem_of_mem_take hmem)) honce
  obtain ⟨fields, hsound⟩ := hstates.sound a ha
  exact ⟨a, ha, mirrors_of_apply hsound hnames (hstates.channel a ha) (hstates.guild a ha)
    (hkept a ha) happly⟩

end

end TrackerSync

end Kaede
