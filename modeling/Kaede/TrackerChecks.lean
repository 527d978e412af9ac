import Kaede.TrackerReaders

/-!
# The checks on a snapshot of a sound board

What an authority says of a sound board passes `validate_tracker_snapshot`.
Each check of a list is a fold; the state it has after some of the rows is
named here (`lanesSeen`, `tasksSeen`), and a step of it is one lemma.
-/

namespace Kaede

namespace TrackerSync

open Replication (RemoteUserProfile UserRow maxDatabaseSnowflake strip)
open TrackerFields

variable {F : Type} {lib : Library F}

/-! ## Folds -/

/-- A fold that has a named state after every part of a list. -/
theorem foldlM_prefix {ε σ α β : Type} {f : σ → β → Except ε σ} {enc : α → β}
    (seen : List α → σ) {l : List α}
    (h : ∀ l₁ x l₂, l = l₁ ++ x :: l₂ → f (seen l₁) (enc x) = .ok (seen (l₁ ++ [x]))) :
    (l.map enc).foldlM f (seen []) = .ok (seen l) := by
  suffices hrest : ∀ rest done, l = done ++ rest →
      (rest.map enc).foldlM f (seen done) = .ok (seen l) from hrest l [] rfl
  intro rest
  induction rest with
  | nil =>
    intro done hl
    rw [List.append_nil] at hl
    rw [hl]
    rfl
  | cons x rest ih =>
    intro done hl
    rw [List.map_cons, List.foldlM_cons, bind_of_eq_ok (h done x rest hl)]
    exact ih (done ++ [x]) (by rw [hl, List.append_assoc]; rfl)

/-- A key that comes later in a list of distinct ones. -/
theorem notMem_of_nodup_map {α β : Type} {f : α → β} {l l₁ l₂ : List α} {x : α}
    (hnodup : (l.map f).Nodup) (hl : l = l₁ ++ x :: l₂) : f x ∉ l₁.map f := by
  rw [hl, List.map_append, List.map_cons] at hnodup
  have hdisjoint := (List.nodup_append'.mp hnodup).2.2
  exact fun hmem => hdisjoint hmem List.mem_cons_self

theorem toFinset_append_singleton {α β : Type} [DecidableEq β] (f : α → β) (l : List α) (x : α) :
    ((l ++ [x]).map f).toFinset = insert (f x) (l.map f).toFinset := by
  ext b
  simp

theorem range_toFinset (n : Nat) : (List.range n).toFinset = Finset.range n := by
  ext i
  rw [List.mem_toFinset, List.mem_range, Finset.mem_range]

theorem length_strip_text (s : String) : (strip s).length ≤ s.length := by
  rw [strip, String.length_ofList, List.length_reverse, ← String.length_toList]
  refine (List.dropWhile_sublist _).length_le.trans ?_
  rw [List.length_reverse]
  exact (List.dropWhile_sublist _).length_le

/-- A text of a payload passes a test. -/
theorem text_passes {raw : Json F} {key s : String} {p : String → Bool}
    (h : raw.get key = .str s) (hp : p s = true) : (raw.get key).str?.any p = true := by
  rw [h]
  exact hp

theorem laneKinds_lookup (kind : TrackerLaneKind) :
    laneKinds.lookup (laneKindText kind) = some kind := by
  cases kind <;> rfl

theorem priorities_lookup (priority : TrackerPriority) :
    priorities.lookup (priorityText priority) = some priority := by
  cases priority <;> rfl

section

variable {fields : List TrackerField} {a : Authority F}

/-! ## The board -/

/-- What the checks find out about the board. -/
def boardSeen (a : Authority F) (fields : List TrackerField) : BoardSeen :=
  ⟨a.board.channel, a.board.guild, fields, a.board.nextTaskNumber⟩

theorem Sound.board_fields (h : Sound lib fields a) :
    (fieldDefinitions lib.fields (orDefault a.board.customFields (.arr []))).mapError
      SnapshotError.value = .ok fields := by
  have hdefault : orDefault a.board.customFields (.arr []) = a.board.customFields := by
    rw [h.customFields, orDefault_arr]
  rw [hdefault, h.fields_ok]
  rfl

theorem Sound.validateBoard (h : Sound lib fields a) :
    validateBoard lib (trackerBoardSnapshotPayload a.board a.tasks.length) a.board.guild
      a.board.channel a.tasks.length = .ok (boardSeen a fields) := by
  have hcount : a.tasks.length ≤ maxDatabaseSnowflake := h.tasks_count.trans (by decide)
  refine (bind_of_eq_ok (refAt_ok h.channel rfl rfl)).trans ?_
  refine (bind_of_eq_ok (refAt_ok h.guild rfl rfl)).trans ?_
  refine (ensure_bind ⟨rfl, rfl⟩).trans ((ensure_bind h.origin).trans ?_)
  refine Eq.trans (ensure_bind (text_passes rfl h.keyPrefix)) ?_
  refine (bind_of_eq_ok h.board_fields).trans ?_
  refine (bind_of_eq_ok (snowflake_idText h.nextTaskNumber.2 _)).trans ?_
  refine (ensure_bind h.nextTaskNumber.1).trans ?_
  refine (bind_of_eq_ok (snowflake_idText hcount _)).trans ?_
  refine (ensure_bind ⟨rfl, h.tasks_count⟩).trans ?_
  refine (bind_of_eq_ok (awareDatetime_timeText a.board.createdAt _)).trans ?_
  refine (bind_of_eq_ok (awareDatetime_timeText a.board.updatedAt _)).trans ?_
  exact (ensure_bind h.updated).trans (ensure_bind rfl)

/-! ## Lanes -/

def lanesSeen (lanes : List LaneRow) : LanesSeen :=
  ⟨(lanes.map LaneRow.ref).toFinset, (lanes.map LaneRow.position).toFinset⟩

theorem Sound.validateLane (h : Sound lib fields a) {l₁ l₂ : List LaneRow} {lane : LaneRow}
    (hlanes : a.lanes = l₁ ++ lane :: l₂) :
    validateLane lib (boardSeen a fields) (lanesSeen l₁) (trackerLaneSnapshotPayload lane) =
      .ok (lanesSeen (l₁ ++ [lane])) := by
  have hmem : lane ∈ a.lanes := hlanes ▸ List.mem_append_right _ List.mem_cons_self
  have hok := h.lanes lane hmem
  have hposition : lane.position < maxTrackerLanes :=
    (h.lane_position_lt hmem).trans_le h.lanes_count.2
  have hname : (1 ≤ (strip lane.name).length && (strip lane.name).length ≤ 100) = true := by
    rw [Bool.and_eq_true, decide_eq_true_eq, decide_eq_true_eq]
    exact ⟨hok.named, (length_strip_text _).trans hok.name.1⟩
  have hkind : (laneKinds.lookup (laneKindText lane.kind)).isSome = true := by
    rw [laneKinds_lookup]
    rfl
  have hnew : lane.ref ∉ (l₁.map LaneRow.ref).toFinset := by
    rw [List.mem_toFinset]
    exact notMem_of_nodup_map h.lanes_nodup hlanes
  have hfree : lane.position ∉ (l₁.map LaneRow.position).toFinset := by
    rw [List.mem_toFinset]
    exact notMem_of_nodup_map (h.lane_positions.nodup_iff.mpr List.nodup_range) hlanes
  have hchannel : RefOk lane.channel := hok.channel ▸ h.channel
  have hguild : RefOk lane.guild := hok.guild ▸ h.guild
  refine (bind_of_eq_ok (trackerRef_ok hok.ref rfl rfl rfl)).trans ?_
  refine (ensure_bind ⟨hok.origin, hnew⟩).trans ?_
  refine (bind_of_eq_ok (refAt_ok hchannel rfl rfl)).trans ?_
  refine (bind_of_eq_ok (refAt_ok hguild rfl rfl)).trans ?_
  refine (ensure_bind ⟨hok.channel, hok.guild⟩).trans ?_
  refine Eq.trans (ensure_bind (text_passes rfl hname)) ?_
  refine (bind_of_eq_ok (intBelow_nat hok.color _)).trans ?_
  refine Eq.trans (ensure_bind ⟨text_passes rfl hkind, rfl⟩) ?_
  refine (bind_of_eq_ok (intBelow_nat hposition _)).trans ((ensure_bind hfree).trans ?_)
  refine (bind_of_eq_ok (awareDatetime_timeText lane.createdAt _)).trans ?_
  refine (bind_of_eq_ok (awareDatetime_timeText lane.updatedAt _)).trans ?_
  refine (ensure_bind hok.updated).trans ?_
  rw [lanesSeen, lanesSeen, toFinset_append_singleton, toFinset_append_singleton]

theorem Sound.validateLanes (h : Sound lib fields a) :
    validateLanes lib (boardSeen a fields) (a.lanes.map trackerLaneSnapshotPayload) =
      .ok (a.lanes.map LaneRow.ref).toFinset := by
  have hrun : (a.lanes.map trackerLaneSnapshotPayload).foldlM
      (TrackerSync.validateLane lib (boardSeen a fields)) {} = .ok (lanesSeen a.lanes) :=
    foldlM_prefix lanesSeen fun _ _ _ hlanes => h.validateLane hlanes
  have hcard : (a.lanes.map LaneRow.ref).toFinset.card = a.lanes.length := by
    rw [List.toFinset_card_of_nodup h.lanes_nodup, List.length_map]
  refine (bind_of_eq_ok hrun).trans (ensure_bind ⟨?_, ?_⟩)
  · obtain ⟨lane, hlane⟩ := List.exists_mem_of_ne_nil _ h.lanes_count.1
    exact Finset.ne_empty_of_mem (List.mem_toFinset.mpr (List.mem_map_of_mem hlane))
  · change (a.lanes.map LaneRow.position).toFinset =
      Finset.range (a.lanes.map LaneRow.ref).toFinset.card
    rw [hcard, List.toFinset_eq_of_perm _ _ h.lane_positions]
    exact range_toFinset _

end

/-! ## Users and assignees -/

theorem validateUsers {profiles : List RemoteUserProfile} (hok : ∀ p ∈ profiles, ProfileOk p)
    (hnodup : (profiles.map RemoteUserProfile.ref).Nodup) :
    (profiles.map (dumpProfile (F := F))).foldlM validateUser ∅ =
      .ok (profiles.map RemoteUserProfile.ref).toFinset := by
  refine foldlM_prefix (fun l : List RemoteUserProfile =>
    (l.map RemoteUserProfile.ref).toFinset) fun l₁ profile l₂ hl => ?_
  have hmem : profile ∈ profiles := hl ▸ List.mem_append_right _ List.mem_cons_self
  have hnew : profile.ref ∉ (l₁.map RemoteUserProfile.ref).toFinset := by
    rw [List.mem_toFinset]
    exact notMem_of_nodup_map hnodup hl
  refine (bind_of_eq_ok (hok profile hmem).validate).trans ((ensure_bind hnew).trans ?_)
  rw [toFinset_append_singleton]

theorem trackerRef_refPayload {ref : Ref} (h : RefOk ref) (label : String) :
    trackerRef lib (refPayload ref : Json F) label = .ok ref := trackerRef_ok h rfl rfl rfl

theorem validateAssignees {refs : List Ref} (hok : ∀ ref ∈ refs, RefOk ref) (hnodup : refs.Nodup) :
    (refs.map (refPayload (F := F))).foldlM (validateAssignee lib) ∅ = .ok refs.toFinset := by
  refine foldlM_prefix List.toFinset fun l₁ ref l₂ hl => ?_
  have hmem : ref ∈ refs := hl ▸ List.mem_append_right _ List.mem_cons_self
  have hnew : ref ∉ l₁.toFinset := by
    rw [List.mem_toFinset]
    intro hin
    rw [hl, List.nodup_append'] at hnodup
    exact hnodup.2.2 hin List.mem_cons_self
  refine (bind_of_eq_ok (trackerRef_refPayload (hok ref hmem) _)).trans
    ((ensure_bind hnew).trans ?_)
  congr 1
  ext r
  simp

section

variable {fields : List TrackerField} {a : Authority F}

/-! ## Tasks -/

/-- Where a task stands. -/
def place (task : TaskRow F) : Ref × Nat := (task.lane, task.position)

def tasksSeen (tasks : List (TaskRow F)) : TasksSeen where
  refs := (tasks.map TaskRow.ref).toFinset
  numbers := (tasks.map TaskRow.number).toFinset
  positions := (tasks.map place).toFinset
  users := (Authority.taskUsers tasks).toFinset
  assignees := (assignees tasks).toFinset
  maximum := (tasks.map TaskRow.number).foldl max 0

theorem assignees_append_singleton (tasks : List (TaskRow F)) (task : TaskRow F) :
    (assignees (tasks ++ [task])).toFinset =
      task.assignee.toFinset ∪ (assignees tasks).toFinset := by
  ext ref
  simp [assignees, List.filterMap_append, or_comm]

theorem taskUsers_append_singleton (tasks : List (TaskRow F)) (task : TaskRow F) :
    (Authority.taskUsers (tasks ++ [task])).toFinset =
      insert task.creator (task.assignee.toFinset ∪ (Authority.taskUsers tasks).toFinset) := by
  ext ref
  simp only [Authority.taskUsers, assignees, List.map_append, List.map_cons, List.map_nil,
    List.filterMap_append, List.mem_toFinset, List.mem_append, Finset.mem_insert, Finset.mem_union,
    List.mem_singleton]
  cases hassignee : task.assignee with
  | none =>
    simp only [hassignee, List.filterMap_cons_none, List.filterMap_nil, Option.toFinset_none]
    simp only [List.not_mem_nil, Finset.notMem_empty]
    tauto
  | some assignee =>
    simp only [List.filterMap_cons_some hassignee, List.filterMap_nil, Option.toFinset_some]
    simp only [List.mem_singleton, Finset.mem_singleton]
    tauto

theorem tasksSeen_append_singleton (tasks : List (TaskRow F)) (task : TaskRow F) :
    tasksSeen (tasks ++ [task]) =
      { refs := insert task.ref (tasksSeen tasks).refs
        numbers := insert task.number (tasksSeen tasks).numbers
        positions := insert (place task) (tasksSeen tasks).positions
        users := insert task.creator (task.assignee.toFinset ∪ (tasksSeen tasks).users)
        assignees := task.assignee.toFinset ∪ (tasksSeen tasks).assignees
        maximum := max (tasksSeen tasks).maximum task.number } := by
  rw [tasksSeen, toFinset_append_singleton, toFinset_append_singleton, toFinset_append_singleton,
    assignees_append_singleton, taskUsers_append_singleton, List.map_append, List.foldl_append]
  rfl

theorem Sound.tasks_nodup (h : Sound lib fields a) : (a.tasks.map TaskRow.ref).Nodup := by
  refine List.Pairwise.map TaskRow.ref (fun t u hlt => ?_) h.tasks_order
  intro heq
  rw [heq] at hlt
  exact Nat.lt_irrefl _ hlt

/-- No two tasks stand in the same place. -/
theorem Sound.places_nodup (h : Sound lib fields a) : (a.tasks.map place).Nodup := by
  refine List.Nodup.map_on ?_ (List.Nodup.of_map TaskRow.ref h.tasks_nodup)
  intro t ht u hu heq
  obtain ⟨hlane, hposition⟩ := Prod.mk.inj heq
  have hnodup := (h.task_positions t.lane).nodup_iff.mpr List.nodup_range
  refine List.inj_on_of_nodup_map hnodup ?_ ?_ hposition
  · exact List.mem_filter.mpr ⟨ht, decide_eq_true rfl⟩
  · exact List.mem_filter.mpr ⟨hu, decide_eq_true hlane.symm⟩

theorem TaskOk.assigneeAt_ok {task : TaskRow F} (h : TaskOk lib fields a task) :
    assigneeAt lib (trackerTaskSnapshotPayload task) = .ok task.assignee := by
  cases hassignee : task.assignee with
  | none =>
    simp only [assigneeAt, trackerTaskSnapshotPayload, hassignee]
    rfl
  | some ref =>
    have hid : (trackerTaskSnapshotPayload task).get "assignee_id" = idText ref.id := by
      rw [trackerTaskSnapshotPayload, hassignee]
      rfl
    have hdomain : (trackerTaskSnapshotPayload task).get "assignee_domain" = .str ref.domain := by
      rw [trackerTaskSnapshotPayload, hassignee]
      rfl
    have hread : refAt lib (trackerTaskSnapshotPayload task) "assignee_id" "assignee_domain"
        "tracker assignee id" = .ok ref := refAt_ok (h.assignee_ref hassignee) hid hdomain
    rw [assigneeAt, hid, hdomain]
    refine Eq.trans (ensure_bind rfl) ?_
    exact (if_neg Bool.false_ne_true).trans (bind_of_eq_ok hread)

theorem TaskOk.values_ok {task : TaskRow F} (h : TaskOk lib fields a task) :
    ∃ kept, (validateValues lib.fields fields (orDefault task.customValues (.obj []))).mapError
      SnapshotError.value = .ok kept := by
  obtain ⟨kept, hkept⟩ := h.customValues
  obtain ⟨members, hmembers, -⟩ := values_spec h.customValues_distinct hkept
  refine ⟨kept, ?_⟩
  rw [hmembers, orDefault_obj, ← hmembers, hkept]
  rfl

theorem optionalText_passes {s : Option String} {bound : Nat} (h : ∀ t ∈ s, TextWithin bound t) :
    (optionalText s : Json F).isNull = true ∨
      ((optionalText s : Json F).str?.any (·.length ≤ bound)) = true := by
  cases s with
  | none => exact .inl rfl
  | some t => exact .inr (decide_eq_true (h t rfl).1)

theorem Sound.validateTask (h : Sound lib fields a) {l₁ l₂ : List (TaskRow F)} {task : TaskRow F}
    (htasks : a.tasks = l₁ ++ task :: l₂) :
    validateTask lib (boardSeen a fields) (a.lanes.map LaneRow.ref).toFinset (tasksSeen l₁)
      (trackerTaskSnapshotPayload task) = .ok (tasksSeen (l₁ ++ [task])) := by
  have hmem : task ∈ a.tasks := htasks ▸ List.mem_append_right _ List.mem_cons_self
  have hok := h.tasks task hmem
  have hnumber : task.number ≤ maxDatabaseSnowflake := hok.number.2.le.trans h.nextTaskNumber.2
  have htitle : (1 ≤ (strip task.title).length && (strip task.title).length ≤ 200) = true := by
    rw [Bool.and_eq_true, decide_eq_true_eq, decide_eq_true_eq]
    exact ⟨hok.titled, (length_strip_text _).trans hok.title.1⟩
  have hpriority : (priorities.lookup (priorityText task.priority)).isSome = true := by
    rw [priorities_lookup]
    rfl
  have hnew : task.ref ∉ (l₁.map TaskRow.ref).toFinset := by
    rw [List.mem_toFinset]
    exact notMem_of_nodup_map h.tasks_nodup htasks
  have hunused : task.number ∉ (l₁.map TaskRow.number).toFinset := by
    rw [List.mem_toFinset]
    exact notMem_of_nodup_map h.numbers_nodup htasks
  have hfree : (task.lane, task.position) ∉ (l₁.map place).toFinset := by
    rw [List.mem_toFinset]
    exact notMem_of_nodup_map h.places_nodup htasks
  have hchannel : RefOk task.channel := hok.channel ▸ h.channel
  have hguild : RefOk task.guild := hok.guild ▸ h.guild
  have hlane : task.lane ∈ (a.lanes.map LaneRow.ref).toFinset := List.mem_toFinset.mpr hok.lane
  obtain ⟨kept, hvalues⟩ := hok.values_ok
  refine Eq.trans (bind_of_eq_ok (trackerRef_ok hok.ref rfl rfl rfl)) ?_
  refine Eq.trans (ensure_bind ⟨hok.origin, hnew⟩) ?_
  refine Eq.trans (bind_of_eq_ok (refAt_ok hchannel rfl rfl)) ?_
  refine Eq.trans (bind_of_eq_ok (refAt_ok hguild rfl rfl)) ?_
  refine Eq.trans (ensure_bind ⟨hok.channel, hok.guild⟩) ?_
  refine Eq.trans (bind_of_eq_ok (refAt_ok (h.lane_ref hok.lane) rfl rfl)) ?_
  refine Eq.trans (ensure_bind hlane) ?_
  refine Eq.trans (bind_of_eq_ok hvalues) ?_
  refine Eq.trans (bind_of_eq_ok (snowflake_idText hnumber _)) ?_
  refine Eq.trans (ensure_bind ⟨hok.number.1, hunused⟩) ?_
  refine Eq.trans (ensure_bind (text_passes rfl htitle)) ?_
  refine Eq.trans (ensure_bind (optionalText_passes hok.description)) ?_
  refine Eq.trans (ensure_bind (text_passes rfl hpriority)) ?_
  refine Eq.trans (bind_of_eq_ok (intBelow_nat (h.task_position_lt hmem) _)) ?_
  refine Eq.trans (ensure_bind hfree) ?_
  refine Eq.trans (bind_of_eq_ok (optionalDatetime_optionalTime task.dueAt _)) ?_
  refine Eq.trans (bind_of_eq_ok (optionalDatetime_optionalTime task.completedAt _)) ?_
  refine Eq.trans (bind_of_eq_ok (awareDatetime_timeText task.createdAt _)) ?_
  refine Eq.trans (bind_of_eq_ok (awareDatetime_timeText task.updatedAt _)) ?_
  refine Eq.trans (ensure_bind hok.updated) ?_
  refine Eq.trans (bind_of_eq_ok (refAt_ok hok.creator_ref rfl rfl)) ?_
  refine Eq.trans (bind_of_eq_ok hok.assigneeAt_ok) ?_
  exact congrArg Except.ok (tasksSeen_append_singleton l₁ task).symm

/-! ## The snapshot -/

/-- A snapshot of a board with the profiles and the assignees as listed. -/
def snapshotTree (a : Authority F) (profiles : List RemoteUserProfile) (refs : List Ref) : Json F :=
  .obj [("board", trackerBoardSnapshotPayload a.board a.tasks.length),
    ("lanes", .arr (a.lanes.map trackerLaneSnapshotPayload)),
    ("tasks", .arr (a.tasks.map trackerTaskSnapshotPayload)),
    ("users", .arr (profiles.map dumpProfile)),
    ("assignee_member_refs", .arr (refs.map refPayload))]

/-- The profiles and the assignees are those that the tasks name. -/
structure Names (a : Authority F) (profiles : List RemoteUserProfile) (refs : List Ref) : Prop where
  profiles_ok : ∀ p ∈ profiles, ProfileOk p
  profiles_nodup : (profiles.map RemoteUserProfile.ref).Nodup
  mem_profiles : ∀ ref, ref ∈ profiles.map RemoteUserProfile.ref ↔
    ref ∈ Authority.taskUsers a.tasks
  refs_nodup : refs.Nodup
  mem_refs : ∀ ref, ref ∈ refs ↔ ref ∈ assignees a.tasks

variable {profiles : List RemoteUserProfile} {refs : List Ref}

theorem length_le_of_subset {α : Type} {l m : List α} (hnodup : l.Nodup) (hsub : ∀ x ∈ l, x ∈ m) :
    l.length ≤ m.length := (List.subperm_of_subset hnodup hsub).length_le

theorem Sound.snapshot_bounds (h : Sound lib fields a) (hnames : Names a profiles refs) :
    (a.lanes.map (trackerLaneSnapshotPayload (F := F))).length ≤ maxTrackerLanes ∧
      (a.tasks.map trackerTaskSnapshotPayload).length ≤ maxTrackerTasks ∧
      (profiles.map (dumpProfile (F := F))).length ≤ maxTrackerUsers ∧
      (refs.map (refPayload (F := F))).length ≤ maxTrackerTasks := by
  have htasks : a.tasks.length ≤ 5000 := h.tasks_count
  have hassigned : (assignees a.tasks).length ≤ a.tasks.length := List.length_filterMap_le _ _
  have husers := length_le_of_subset hnames.profiles_nodup fun ref => (hnames.mem_profiles ref).mp
  have hrefs := length_le_of_subset hnames.refs_nodup fun ref => (hnames.mem_refs ref).mp
  rw [List.length_map, Authority.taskUsers, List.length_append, List.length_map] at husers
  simp only [List.length_map]
  refine ⟨h.lanes_count.2, htasks, ?_, ?_⟩
  · rw [maxTrackerUsers]
    omega
  · rw [maxTrackerTasks]
    omega

theorem foldl_max_lt {n : Nat} {l : List Nat} {m : Nat} (hm : m < n) (h : ∀ x ∈ l, x < n) :
    l.foldl max m < n := by
  induction l generalizing m with
  | nil => exact hm
  | cons x l ih =>
    obtain ⟨hx, hl⟩ := List.forall_mem_cons.mp h
    exact ih (max_lt hm hx) hl

/-- The positions in a lane have no gaps. -/
theorem Sound.lanePositions_eq (h : Sound lib fields a) (lane : Ref) :
    lanePositions (tasksSeen a.tasks).positions lane =
      Finset.range (lanePositions (tasksSeen a.tasks).positions lane).card := by
  have hpositions : lanePositions (tasksSeen a.tasks).positions lane =
      (((a.tasks.filter fun t => t.lane = lane).map TaskRow.position)).toFinset := by
    ext n
    simp only [lanePositions, tasksSeen, Finset.mem_image, Finset.mem_filter, List.mem_toFinset,
      List.mem_map, List.mem_filter, decide_eq_true_eq, place]
    constructor
    · rintro ⟨-, ⟨⟨t, ht, rfl⟩, hlane⟩, rfl⟩
      exact ⟨t, ⟨ht, hlane⟩, rfl⟩
    · rintro ⟨t, ⟨ht, rfl⟩, rfl⟩
      exact ⟨_, ⟨⟨t, ht, rfl⟩, rfl⟩, rfl⟩
  rw [hpositions, List.toFinset_eq_of_perm _ _ (h.task_positions lane), range_toFinset,
    Finset.card_range]

theorem Sound.validateTrackerSnapshot (h : Sound lib fields a) (hnames : Names a profiles refs) :
    validateTrackerSnapshot lib (snapshotTree a profiles refs) a.board.guild a.board.channel =
      .ok () := by
  have hboard : TrackerSync.validateBoard lib (trackerBoardSnapshotPayload a.board a.tasks.length)
      a.board.guild a.board.channel (a.tasks.map trackerTaskSnapshotPayload).length =
        .ok (boardSeen a fields) := by
    rw [List.length_map]
    exact h.validateBoard
  have hrefOk : ∀ ref ∈ refs, RefOk ref := fun ref href =>
    h.assignee_refOk (List.Subset.refl _) ((hnames.mem_refs ref).mp href)
  have htasks : (a.tasks.map trackerTaskSnapshotPayload).foldlM (TrackerSync.validateTask lib
      (boardSeen a fields) (a.lanes.map LaneRow.ref).toFinset) {} = .ok (tasksSeen a.tasks) :=
    foldlM_prefix tasksSeen fun _ _ _ htasks => h.validateTask htasks
  have hmaximum : (tasksSeen a.tasks).maximum < a.board.nextTaskNumber := by
    refine foldl_max_lt h.nextTaskNumber.1 ?_
    rw [List.forall_mem_map]
    exact fun task htask => (h.tasks task htask).number.2
  have husers : (profiles.map RemoteUserProfile.ref).toFinset = (tasksSeen a.tasks).users := by
    ext ref
    rw [List.mem_toFinset, hnames.mem_profiles, tasksSeen, List.mem_toFinset]
  have hassignees : refs.toFinset = (tasksSeen a.tasks).assignees := by
    ext ref
    rw [List.mem_toFinset, hnames.mem_refs, tasksSeen, List.mem_toFinset]
  refine Eq.trans (ensure_bind rfl) ?_
  refine Eq.trans (ensure_bind (h.snapshot_bounds hnames)) ?_
  refine Eq.trans (bind_of_eq_ok hboard) ?_
  refine Eq.trans (bind_of_eq_ok h.validateLanes) ?_
  refine Eq.trans (bind_of_eq_ok (validateUsers hnames.profiles_ok hnames.profiles_nodup)) ?_
  refine Eq.trans (bind_of_eq_ok (validateAssignees hrefOk hnames.refs_nodup)) ?_
  refine Eq.trans (bind_of_eq_ok htasks) ?_
  refine Eq.trans (ensure_bind hmaximum) ?_
  refine Eq.trans (ensure_bind fun lane _ => h.lanePositions_eq lane) ?_
  refine Eq.trans (ensure_bind husers) ?_
  exact ensure_eq_ok.mpr hassignees

end

end TrackerSync

end Kaede
