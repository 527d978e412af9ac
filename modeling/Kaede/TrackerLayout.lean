import Kaede.TrackerBoard

/-!
# The layout of a tracker board

A mutation renumbers the lists it edits, so the positions of the lanes
and of the tasks of each lane stay the indices of a list; it completes
and reopens tasks with their lane, and numbers tasks from a counter. None
of this depends on what the clock reads.

The first section says once what each successful mutation does; the rest
of this file, and the versions, only use that.
-/

namespace Kaede

namespace Tracker

variable {fns : TrackerFunctions} {s s' : Tracker}

open scoped List

/-! ## What a successful mutation does -/

theorem orderedLanes_perm (s : Tracker) : s.orderedLanes ~ s.lanes := List.perm_insertionSort _ _

theorem orderedTasks_perm (s : Tracker) (lane : Nat) :
    s.orderedTasks lane ~ group TrackerTask.laneId lane s.tasks := List.perm_insertionSort _ _

theorem updateBoard_eq_ok {payload : TrackerBoardUpdate} {ifMatch : IfMatch} {clock : Nat → Int}
    {now : Int} (h : updateBoard fns s payload ifMatch clock now = .ok s') :
    ifMatch = .version s.board.updatedAt ∧
    (s' = s ∨
      s' = { s with
        board := { s.board.withUpdate payload with updatedAt := s.mutationVersion now }
        tasks := match payload.customFields with
          | none => s.tasks
          | some fields => s.tasks.map (TrackerTask.retainFields fields clock) }) := by
  obtain ⟨hmatch, h⟩ := check_bind_eq_ok.mp h
  obtain ⟨tasks, htasks, h⟩ := bind_eq_ok.mp h
  refine ⟨requireTrackerVersion_eq_ok.mp hmatch, ?_⟩
  dsimp only at h
  split at h
  · right
    obtain rfl := Except.ok.inj h
    cases hfields : payload.customFields with
    | none =>
        simp only [hfields] at htasks
        obtain rfl := Except.ok.inj htasks
        rfl
    | some fields =>
        simp only [hfields, check_bind_eq_ok] at htasks
        obtain rfl := Except.ok.inj htasks.2
        rfl
  · exact .inl (Except.ok.inj h).symm

theorem createLane_eq_ok {id : Nat} {payload : TrackerLaneCreate} {now : Int}
    (h : createLane s id payload now = .ok s') :
    id ∉ s.minted ∧ ∃ position lane, position ≤ s.orderedLanes.length ∧ lane.id = id ∧
      lane.updatedAt = s.mutationVersion now ∧
      s' = { (s.touch (s.mutationVersion now)) with
        lanes := applyPositions (s.orderedLanes.insertIdx position lane) (s.mutationVersion now)
        minted := id :: s.minted } := by
  simp only [createLane, check_bind_eq_ok, ensure_eq_ok] at h
  obtain ⟨-, hposition, hid, h⟩ := h
  exact ⟨hid, _, _, hposition, rfl, rfl, (Except.ok.inj h).symm⟩

theorem updateLane_eq_ok {ref : Nat} {payload : TrackerLaneUpdate} {ifMatch : IfMatch} {now : Int}
    (h : updateLane s ref payload ifMatch now = .ok s') :
    ∃ lane, s.laneByRef ref = some lane ∧ ifMatch = .version lane.updatedAt ∧
    (s' = s ∨
      s' = { (s.touch (s.mutationVersion now)) with
        lanes := updateBy TrackerLane.id lane.id
          (fun _ => { lane.withUpdate payload with updatedAt := s.mutationVersion now }) s.lanes
        tasks :=
          if (lane.withUpdate payload).completed ≠ lane.completed then
            updateBy TrackerTask.laneId lane.id
              (fun t => { t with
                completedAt :=
                  completionTime (lane.withUpdate payload).completed (s.mutationVersion now)
                updatedAt := s.mutationVersion now }) s.tasks
          else s.tasks }) := by
  simp only [updateLane, found_bind_eq_ok, check_bind_eq_ok, requireTrackerVersion_eq_ok] at h
  obtain ⟨lane, hlane, hmatch, h⟩ := h
  refine ⟨lane, hlane, hmatch, ?_⟩
  split at h
  · exact .inr (Except.ok.inj h).symm
  · exact .inl (Except.ok.inj h).symm

theorem moveLane_eq_ok {ref position : Nat} {ifMatch : IfMatch} {now : Int}
    (h : moveLane s ref position ifMatch now = .ok s') :
    ∃ lane, s.laneByRef ref = some lane ∧ ifMatch = .version lane.updatedAt ∧
    (s' = s ∨ position < s.orderedLanes.length ∧
      s' = { (s.touch (s.mutationVersion now)) with
        lanes := applyPositions
          ((s.orderedLanes.filter fun l => l.id ≠ lane.id).insertIdx position lane)
          (s.mutationVersion now) }) := by
  simp only [moveLane, found_bind_eq_ok, check_bind_eq_ok, requireTrackerVersion_eq_ok,
    ensure_eq_ok] at h
  obtain ⟨lane, hlane, hmatch, hposition, h⟩ := h
  refine ⟨lane, hlane, hmatch, ?_⟩
  split at h
  · exact .inr ⟨hposition, (Except.ok.inj h).symm⟩
  · exact .inl (Except.ok.inj h).symm

theorem deleteLane_eq_ok {ref : Nat} {ifMatch : IfMatch} {now : Int}
    (h : deleteLane s ref ifMatch now = .ok s') :
    ∃ lane, s.laneByRef ref = some lane ∧ ifMatch = .version lane.updatedAt ∧
      (∀ t ∈ s.tasks, t.laneId ≠ lane.id) ∧
      s' = { (s.touch (s.mutationVersion now)) with
        lanes := applyPositions (s.orderedLanes.filter fun l => l.id ≠ lane.id)
          (s.mutationVersion now) } := by
  simp only [deleteLane, found_bind_eq_ok, check_bind_eq_ok, requireTrackerVersion_eq_ok,
    ensure_eq_ok] at h
  obtain ⟨lane, hlane, hmatch, -, hempty, h⟩ := h
  exact ⟨lane, hlane, hmatch, hempty, (Except.ok.inj h).symm⟩

theorem createTask_eq_ok {id : Nat} {actor : UserRef} {payload : TrackerTaskCreate} {now : Int}
    (h : createTask fns s id actor payload now = .ok s') :
    s' = s ∨ id ∉ s.minted ∧ ∃ lane position task, s.laneByRef payload.laneId = some lane ∧
      position ≤ (s.orderedTasks lane.id).length ∧ task.id = id ∧ task.laneId = lane.id ∧
      task.number = s.board.nextTaskNumber ∧
      task.completedAt = completionTime lane.completed (s.mutationVersion now) ∧
      task.updatedAt = s.mutationVersion now ∧
      s' = { (s.writeLaneTasks lane.id (applyPositions
          ((s.orderedTasks lane.id).insertIdx position task) (s.mutationVersion now))) with
        board := { s.board with
          nextTaskNumber := s.board.nextTaskNumber + 1
          updatedAt := s.mutationVersion now }
        minted := id :: s.minted } := by
  unfold createTask at h
  split at h
  · rw [check_bind_eq_ok] at h
    exact .inl (Except.ok.inj h.2).symm
  · simp only [insertTask, found_bind_eq_ok, check_bind_eq_ok, ensure_eq_ok] at h
    obtain ⟨-, lane, hlane, hposition, values, -, hid, h⟩ := h
    exact .inr ⟨hid, lane, _, _, hlane, hposition, rfl, rfl, rfl, rfl, rfl,
      (Except.ok.inj h).symm⟩

theorem updateTask_eq_ok {ref : Nat} {payload : TrackerTaskUpdate} {ifMatch : IfMatch} {now : Int}
    (h : updateTask fns s ref payload ifMatch now = .ok s') :
    ∃ task, s.taskByRef ref = some task ∧ ifMatch = .version task.updatedAt ∧
    (s' = s ∨ ∃ values,
      s' = { (s.touch (s.mutationVersion now)) with
        tasks := updateBy TrackerTask.id task.id
          (fun _ => { task.withUpdate payload values with
            updatedAt := s.mutationVersion now }) s.tasks }) := by
  obtain ⟨task, htask, h⟩ := found_bind_eq_ok.mp h
  obtain ⟨hmatch, h⟩ := check_bind_eq_ok.mp h
  obtain ⟨values, -, h⟩ := bind_eq_ok.mp h
  refine ⟨task, htask, requireTrackerVersion_eq_ok.mp hmatch, ?_⟩
  dsimp only at h
  split at h
  · exact .inr ⟨values, (Except.ok.inj h).symm⟩
  · exact .inl (Except.ok.inj h).symm

theorem moveTask_eq_ok {ref : Nat} {payload : TrackerTaskMove} {ifMatch : IfMatch} {now : Int}
    (h : moveTask s ref payload ifMatch now = .ok s') :
    ∃ task target, s.taskByRef ref = some task ∧ ifMatch = .version task.updatedAt ∧
      s.laneByRef payload.laneId = some target ∧
    (s' = s ∨
      (task.laneId = target.id ∧
        s' = { (s.touch (s.mutationVersion now)) with
          tasks := updateBy TrackerTask.id task.id
            (fun _ => task.movedTo target (s.mutationVersion now)) s.tasks }) ∨
      (task.laneId = target.id ∧
        payload.position ≤
          ((s.orderedTasks task.laneId).filter fun t => t.id ≠ task.id).length ∧
        s' = (s.writeLaneTasks target.id (applyPositions
            (((s.orderedTasks task.laneId).filter fun t => t.id ≠ task.id).insertIdx
              payload.position (task.movedTo target (s.mutationVersion now)))
            (s.mutationVersion now))).touch (s.mutationVersion now)) ∨
      (task.laneId ≠ target.id ∧ payload.position ≤ (s.orderedTasks target.id).length ∧
        s' = ((s.writeLaneTasks task.laneId (applyPositions
            ((s.orderedTasks task.laneId).filter fun t => t.id ≠ task.id)
            (s.mutationVersion now))).writeLaneTasks target.id (applyPositions
            ((s.orderedTasks target.id).insertIdx payload.position
              (task.movedTo target (s.mutationVersion now)))
            (s.mutationVersion now))).touch (s.mutationVersion now))) := by
  simp only [moveTask, found_bind_eq_ok, check_bind_eq_ok, requireTrackerVersion_eq_ok,
    ensure_eq_ok] at h
  obtain ⟨task, htask, hmatch, target, htarget, hposition, h⟩ := h
  refine ⟨task, target, htask, hmatch, htarget, ?_⟩
  by_cases hlane : task.laneId = target.id
  · simp only [if_pos hlane] at hposition h
    split at h
    · exact .inr (.inr (.inl ⟨hlane, hposition, (Except.ok.inj h).symm⟩))
    · split at h
      · exact .inr (.inl ⟨hlane, (Except.ok.inj h).symm⟩)
      · exact .inl (Except.ok.inj h).symm
  · simp only [if_neg hlane] at hposition h
    rw [if_pos (.inl hlane)] at h
    exact .inr (.inr (.inr ⟨hlane, hposition, (Except.ok.inj h).symm⟩))

theorem deleteTask_eq_ok {ref : Nat} {ifMatch : IfMatch} {now : Int}
    (h : deleteTask s ref ifMatch now = .ok s') :
    ∃ task, s.taskByRef ref = some task ∧ ifMatch = .version task.updatedAt ∧
      s' = (s.writeLaneTasks task.laneId (applyPositions
          ((s.orderedTasks task.laneId).filter fun t => t.id ≠ task.id)
          (s.mutationVersion now))).touch (s.mutationVersion now) := by
  simp only [deleteTask, found_bind_eq_ok, check_bind_eq_ok, requireTrackerVersion_eq_ok] at h
  obtain ⟨task, htask, hmatch, h⟩ := h
  exact ⟨task, htask, hmatch, (Except.ok.inj h).symm⟩

/-! ## The layout -/

/-- A task of the board: its number was drawn from the counter, its lane
exists and agrees with it on completion. -/
structure TaskOK (s : Tracker) (t : TrackerTask) : Prop where
  number : t.number < s.board.nextTaskNumber
  lane : ∃ l ∈ s.lanes, l.id = t.laneId ∧ l.completed = t.completedAt.isSome
  minted : t.id ∈ s.minted

/-- What no mutation breaks, whatever the clock reads. -/
structure Layout (s : Tracker) : Prop where
  lanePositions : InRanks s.lanes
  taskPositions : ∀ lane, InRanks (group TrackerTask.laneId lane s.tasks)
  laneIds : (s.lanes.map TrackerLane.id).Nodup
  taskIds : (s.tasks.map TrackerTask.id).Nodup
  numbers : (s.tasks.map TrackerTask.number).Nodup
  laneMinted : ∀ l ∈ s.lanes, l.id ∈ s.minted
  tasks : ∀ t ∈ s.tasks, s.TaskOK t

/-! ### Lists of lanes -/

/-- The lanes are rearranged: those with tasks are all still there. -/
theorem Layout.withLanes {items : List TrackerLane} {minted : List Nat} (hs : s.Layout)
    (version : Int) (hids : (items.map TrackerLane.id).Nodup)
    (hkeep : ∀ l ∈ s.lanes, l ∈ items ∨ ∀ t ∈ s.tasks, t.laneId ≠ l.id)
    (hminted : ∀ l ∈ items, l.id ∈ minted) (hgrow : s.minted ⊆ minted) :
    Layout { (s.touch version) with
      lanes := applyPositions items version
      minted := minted } where
  lanePositions := inRanks_renumber
  taskPositions := hs.taskPositions
  laneIds := by
    show ((renumber version items).map TrackerLane.id).Nodup
    rw [map_renumber fun _ _ _ => rfl]
    exact hids
  taskIds := hs.taskIds
  numbers := hs.numbers
  laneMinted := forall_mem_renumber hminted fun l hl _ => hminted l hl
  tasks := by
    intro t ht
    obtain ⟨hnumber, ⟨l, hl, hlane, hcompleted⟩, hid⟩ := hs.tasks t ht
    refine ⟨hnumber, ?_, hgrow hid⟩
    have hmem : l ∈ items := (hkeep l hl).resolve_right fun h => h t ht hlane.symm
    -- Renumbering keeps a lane's id and whether it is completed.
    have hpair : (l.id, l.completed) ∈
        (applyPositions items version).map fun l => (l.id, l.completed) := by
      rw [applyPositions, map_renumber fun _ _ _ => rfl]
      exact List.mem_map_of_mem hmem
    obtain ⟨l', hl', heq⟩ := List.mem_map.mp hpair
    obtain ⟨hid', hcompleted'⟩ := Prod.mk.inj heq
    exact ⟨l', hl', hid'.trans hlane, hcompleted'.trans hcompleted⟩

theorem Layout.createLane {id : Nat} {payload : TrackerLaneCreate} {now : Int} (hs : s.Layout)
    (h : createLane s id payload now = .ok s') : s'.Layout := by
  obtain ⟨hid, position, lane, hposition, rfl, -, rfl⟩ := createLane_eq_ok h
  have hperm : s.orderedLanes.insertIdx position lane ~ lane :: s.lanes :=
    (List.perm_insertIdx lane _ hposition).trans ((orderedLanes_perm s).cons lane)
  refine hs.withLanes _ ?_ (fun l hl => .inl (hperm.mem_iff.mpr (List.mem_cons_of_mem lane hl)))
    ?_ (List.subset_cons_self _ _)
  · rw [(hperm.map TrackerLane.id).nodup_iff, List.map_cons, List.nodup_cons]
    refine ⟨fun hmem => ?_, hs.laneIds⟩
    obtain ⟨l, hl, heq⟩ := List.mem_map.mp hmem
    exact hid (heq ▸ hs.laneMinted l hl)
  · intro l hl
    rcases List.mem_cons.mp (hperm.mem_iff.mp hl) with rfl | hl
    · exact List.mem_cons_self
    · exact List.mem_cons_of_mem _ (hs.laneMinted l hl)

/-- One lane taken out of the ordered list. -/
theorem Layout.cons_otherLanes (hs : s.Layout) {lane : TrackerLane} (hlane : lane ∈ s.lanes) :
    (lane :: s.orderedLanes.filter fun l => l.id ≠ lane.id) ~ s.lanes := by
  have hperm := orderedLanes_perm s
  refine (cons_filter_key_ne ?_ (hperm.mem_iff.mpr hlane)).trans hperm
  rw [(hperm.map TrackerLane.id).nodup_iff]
  exact hs.laneIds

theorem Layout.moveLane {ref position : Nat} {ifMatch : IfMatch} {now : Int} (hs : s.Layout)
    (h : moveLane s ref position ifMatch now = .ok s') : s'.Layout := by
  obtain ⟨lane, hlane, -, rfl | ⟨hposition, rfl⟩⟩ := moveLane_eq_ok h
  · exact hs
  · have hrest := hs.cons_otherLanes (mem_of_lookupBy hlane)
    have hlength : position ≤ (s.orderedLanes.filter fun l => l.id ≠ lane.id).length := by
      have := hrest.length_eq
      rw [List.length_cons, ← (orderedLanes_perm s).length_eq] at this
      omega
    have hperm := (List.perm_insertIdx lane _ hlength).trans hrest
    refine hs.withLanes _ ?_ (fun l hl => .inl (hperm.mem_iff.mpr hl))
      (fun l hl => hs.laneMinted l (hperm.mem_iff.mp hl)) (List.Subset.refl _)
    rw [(hperm.map TrackerLane.id).nodup_iff]
    exact hs.laneIds

theorem Layout.deleteLane {ref : Nat} {ifMatch : IfMatch} {now : Int} (hs : s.Layout)
    (h : deleteLane s ref ifMatch now = .ok s') : s'.Layout := by
  obtain ⟨lane, hlane, -, hempty, rfl⟩ := deleteLane_eq_ok h
  have hrest := hs.cons_otherLanes (mem_of_lookupBy hlane)
  refine hs.withLanes _ ?_ ?_ ?_ (List.Subset.refl _)
  · have hnodup := (hrest.map TrackerLane.id).nodup_iff.mpr hs.laneIds
    rw [List.map_cons, List.nodup_cons] at hnodup
    exact hnodup.2
  · intro l hl
    rcases List.mem_cons.mp (hrest.mem_iff.mpr hl) with rfl | hl
    · exact .inr hempty
    · exact .inl hl
  · intro l hl
    exact hs.laneMinted l (hrest.mem_iff.mp (List.mem_cons_of_mem lane hl))

/-! ### Rows rewritten in place -/

/-- Two states of a task that stands where it stood. -/
structure SamePlace (t t' : TrackerTask) : Prop where
  id : t'.id = t.id
  laneId : t'.laneId = t.laneId
  number : t'.number = t.number
  position : t'.position = t.position

/-- Tasks are rewritten where they stand. -/
theorem Layout.withTasks {f : TrackerTask → TrackerTask} {board : TrackerBoard}
    {lanes : List TrackerLane} (hs : s.Layout) (hlanes : InRanks lanes)
    (hids : lanes.map TrackerLane.id = s.lanes.map TrackerLane.id)
    (hplace : ∀ t ∈ s.tasks, SamePlace t (f t))
    (hnext : board.nextTaskNumber = s.board.nextTaskNumber)
    (hcompleted : ∀ t ∈ s.tasks,
      ∃ l ∈ lanes, l.id = t.laneId ∧ l.completed = (f t).completedAt.isSome) :
    Layout { s with board := board, lanes := lanes, tasks := s.tasks.map f } where
  lanePositions := hlanes
  taskPositions := by
    intro lane
    rw [group_map fun t ht => (hplace t ht).laneId]
    exact (hs.taskPositions lane).map fun t ht => (hplace t (mem_group.mp ht).1).position
  laneIds := hids ▸ hs.laneIds
  taskIds := by
    rw [map_map_column fun t ht => (hplace t ht).id]
    exact hs.taskIds
  numbers := by
    rw [map_map_column fun t ht => (hplace t ht).number]
    exact hs.numbers
  laneMinted := by
    intro l hl
    have hmem : l.id ∈ s.lanes.map TrackerLane.id := hids ▸ List.mem_map_of_mem hl
    obtain ⟨l₀, hl₀, heq⟩ := List.mem_map.mp hmem
    exact heq ▸ hs.laneMinted l₀ hl₀
  tasks := by
    intro t' ht'
    obtain ⟨t, ht, rfl⟩ := List.mem_map.mp ht'
    obtain ⟨hnumber, -, hminted⟩ := hs.tasks t ht
    have hp := hplace t ht
    refine ⟨?_, ?_, ?_⟩
    · rw [hp.number, hnext]
      exact hnumber
    · rw [hp.laneId]
      exact hcompleted t ht
    · rw [hp.id]
      exact hminted

theorem samePlace_retainFields (fields : List TrackerField) (clock : Nat → Int) (t : TrackerTask) :
    SamePlace t (t.retainFields fields clock) := by
  unfold TrackerTask.retainFields
  split
  · exact ⟨rfl, rfl, rfl, rfl⟩
  · exact ⟨rfl, rfl, rfl, rfl⟩

theorem completedAt_retainFields (fields : List TrackerField) (clock : Nat → Int)
    (t : TrackerTask) : (t.retainFields fields clock).completedAt = t.completedAt := by
  unfold TrackerTask.retainFields
  split <;> rfl

theorem Layout.updateBoard {payload : TrackerBoardUpdate} {ifMatch : IfMatch} {clock : Nat → Int}
    {now : Int} (hs : s.Layout) (h : updateBoard fns s payload ifMatch clock now = .ok s') :
    s'.Layout := by
  obtain ⟨-, rfl | rfl⟩ := updateBoard_eq_ok h
  · exact hs
  · cases payload.customFields with
    | none => exact ⟨hs.lanePositions, hs.taskPositions, hs.laneIds, hs.taskIds, hs.numbers,
        hs.laneMinted, fun t ht => ⟨(hs.tasks t ht).number, (hs.tasks t ht).lane,
          (hs.tasks t ht).minted⟩⟩
    | some fields =>
        refine hs.withTasks hs.lanePositions rfl (fun t _ => samePlace_retainFields fields clock t)
          rfl fun t ht => ?_
        rw [completedAt_retainFields]
        exact (hs.tasks t ht).lane

theorem mem_updateBy_self {α : Type} {key : α → Nat} {row new : α} {rows : List α}
    (hrow : row ∈ rows) : new ∈ updateBy key (key row) (fun _ => new) rows :=
  List.mem_map.mpr ⟨row, hrow, if_pos rfl⟩

/-- One task is rewritten where it stands. -/
theorem Layout.setTask {task new : TrackerTask} (hs : s.Layout) (version : Int)
    (htask : task ∈ s.tasks) (hplace : SamePlace task new)
    (hcompleted : ∃ l ∈ s.lanes, l.id = task.laneId ∧ l.completed = new.completedAt.isSome) :
    Layout { (s.touch version) with
      tasks := updateBy TrackerTask.id task.id (fun _ => new) s.tasks } := by
  have hsame {t : TrackerTask} (ht : t ∈ s.tasks) (hid : t.id = task.id) : t = task :=
    List.inj_on_of_nodup_map hs.taskIds ht htask hid
  refine hs.withTasks hs.lanePositions rfl (fun t ht => ?_) rfl fun t ht => ?_
  · by_cases hid : t.id = task.id
    · rw [if_pos hid, hsame ht hid]
      exact hplace
    · rw [if_neg hid]
      exact ⟨rfl, rfl, rfl, rfl⟩
  · by_cases hid : t.id = task.id
    · rw [if_pos hid, hsame ht hid]
      exact hcompleted
    · rw [if_neg hid]
      exact (hs.tasks t ht).lane

theorem Layout.updateTask {ref : Nat} {payload : TrackerTaskUpdate} {ifMatch : IfMatch}
    {now : Int} (hs : s.Layout) (h : updateTask fns s ref payload ifMatch now = .ok s') :
    s'.Layout := by
  obtain ⟨task, htask, -, rfl | ⟨values, rfl⟩⟩ := updateTask_eq_ok h
  · exact hs
  · have hmem : task ∈ s.tasks := mem_of_lookupBy htask
    exact hs.setTask _ hmem ⟨rfl, rfl, rfl, rfl⟩ (hs.tasks task hmem).lane

theorem Layout.updateLane {ref : Nat} {payload : TrackerLaneUpdate} {ifMatch : IfMatch} {now : Int}
    (hs : s.Layout) (h : updateLane s ref payload ifMatch now = .ok s') : s'.Layout := by
  obtain ⟨lane, hlane, -, rfl | rfl⟩ := updateLane_eq_ok h
  · exact hs
  have hmem : lane ∈ s.lanes := mem_of_lookupBy hlane
  have hsame {l : TrackerLane} (hl : l ∈ s.lanes) (hid : l.id = lane.id) : l = lane :=
    List.inj_on_of_nodup_map hs.laneIds hl hmem hid
  generalize hnew : { lane.withUpdate payload with updatedAt := s.mutationVersion now } = new
  have hid : new.id = lane.id := by rw [← hnew]; rfl
  have hcompletedNew : new.completed = (lane.withUpdate payload).completed := by rw [← hnew]
  have hranks : InRanks (updateBy TrackerLane.id lane.id (fun _ => new) s.lanes) := by
    refine hs.lanePositions.map fun l hl => ?_
    by_cases hl' : l.id = lane.id
    · rw [if_pos hl', ← hnew, hsame hl hl']
      rfl
    · rw [if_neg hl']
  have hids : (updateBy TrackerLane.id lane.id (fun _ => new) s.lanes).map TrackerLane.id
      = s.lanes.map TrackerLane.id := map_key_updateBy fun _ _ => hid
  -- A task of another lane keeps its lane, one of this lane follows it.
  have hother {t : TrackerTask} (ht : t ∈ s.tasks) (hne : t.laneId ≠ lane.id) :
      ∃ l ∈ updateBy TrackerLane.id lane.id (fun _ => new) s.lanes,
        l.id = t.laneId ∧ l.completed = t.completedAt.isSome := by
    obtain ⟨l, hl, hlt, hc⟩ := (hs.tasks t ht).lane
    exact ⟨l, mem_updateBy_of_ne hl (hlt ▸ hne), hlt, hc⟩
  split
  · refine hs.withTasks hranks hids (fun t _ => ?_) rfl fun t ht => ?_
    · split <;> exact ⟨rfl, rfl, rfl, rfl⟩
    · by_cases ht' : t.laneId = lane.id
      · rw [if_pos ht']
        refine ⟨new, mem_updateBy_self hmem, hid.trans ht'.symm, ?_⟩
        rw [hcompletedNew, completionTime]
        split <;> simp_all
      · rw [if_neg ht']
        exact hother ht ht'
  · rename_i hkeep
    have hmap : s.tasks.map (fun t => t) = s.tasks := List.map_id' s.tasks
    rw [← hmap]
    refine hs.withTasks hranks hids (fun t _ => ⟨rfl, rfl, rfl, rfl⟩) rfl fun t ht => ?_
    by_cases ht' : t.laneId = lane.id
    · refine ⟨new, mem_updateBy_self hmem, hid.trans ht'.symm, ?_⟩
      obtain ⟨l, hl, hlt, hc⟩ := (hs.tasks t ht).lane
      rw [hcompletedNew, not_not.mp hkeep, ← hc, hsame hl (hlt.trans ht')]
    · exact hother ht ht'

/-! ### Lists of tasks -/

section

variable {lane : Nat} {items : List TrackerTask} {version : Int}

theorem laneId_applyPositions (hitems : ∀ t ∈ items, t.laneId = lane) :
    ∀ t ∈ applyPositions items version, t.laneId = lane :=
  forall_mem_renumber hitems fun t ht _ => hitems t ht

theorem taskPositions_writeLaneTasks
    (hs : ∀ k, InRanks (group TrackerTask.laneId k s.tasks))
    (hitems : ∀ t ∈ items, t.laneId = lane) (k : Nat) :
    InRanks (group TrackerTask.laneId k
      (s.writeLaneTasks lane (applyPositions items version)).tasks) := by
  have hrows : ∀ t ∈ applyPositions items version, t.laneId = lane :=
    laneId_applyPositions hitems
  by_cases hk : k = lane
  · subst hk
    rw [writeLaneTasks, group_replaceGroup_self hrows]
    exact inRanks_renumber
  · rw [writeLaneTasks, group_replaceGroup_ne hrows hk]
    exact hs k

/-- A column of the tasks after a lane was rewritten. -/
theorem map_writeLaneTasks_perm {β : Type} {f : TrackerTask → β} {gone come : List β}
    (hf : ∀ (t : TrackerTask) n v, f (Ranked.place t n v) = f t)
    (h : (gone ++ items.map f) ~ (come ++ (group TrackerTask.laneId lane s.tasks).map f)) :
    (gone ++ (s.writeLaneTasks lane (applyPositions items version)).tasks.map f) ~
      (come ++ s.tasks.map f) := by
  refine map_replaceGroup_perm ?_
  rw [applyPositions, map_renumber hf]
  exact h

theorem forall_mem_writeLaneTasks {P : TrackerTask → Prop} (hs : ∀ t ∈ s.tasks, P t)
    (hitems : ∀ t ∈ items, P t) (hplace : ∀ t n v, P t → P (Ranked.place t n v)) :
    ∀ t ∈ (s.writeLaneTasks lane (applyPositions items version)).tasks, P t := by
  intro t ht
  rcases mem_replaceGroup.mp ht with ⟨ht, -⟩ | ht
  · exact hs t ht
  · exact forall_mem_renumber hitems (fun x hx n => hplace x n version (hitems x hx)) t ht

end

theorem TaskOK.place {t : TrackerTask} (n : Nat) (v : Int) (h : s.TaskOK t) :
    s.TaskOK (Ranked.place t n v) := ⟨h.number, h.lane, h.minted⟩

theorem TaskOK.mono {t : TrackerTask} (h : s.TaskOK t)
    (hnext : s.board.nextTaskNumber ≤ s'.board.nextTaskNumber) (hlanes : s'.lanes = s.lanes)
    (hminted : s.minted ⊆ s'.minted) : s'.TaskOK t :=
  ⟨Nat.lt_of_lt_of_le h.number hnext, hlanes ▸ h.lane, hminted h.minted⟩

theorem mem_orderedTasks {lane : Nat} {t : TrackerTask} :
    t ∈ s.orderedTasks lane ↔ t ∈ s.tasks ∧ t.laneId = lane := by
  rw [(orderedTasks_perm s lane).mem_iff, mem_group]

/-- One task taken out of its lane's ordered list. -/
theorem Layout.cons_otherTasks (hs : s.Layout) {task : TrackerTask} (htask : task ∈ s.tasks) :
    (task :: (s.orderedTasks task.laneId).filter fun t => t.id ≠ task.id) ~
      group TrackerTask.laneId task.laneId s.tasks := by
  have hperm := orderedTasks_perm s task.laneId
  refine (cons_filter_key_ne ?_ (mem_orderedTasks.mpr ⟨htask, rfl⟩)).trans hperm
  rw [(hperm.map TrackerTask.id).nodup_iff]
  exact hs.taskIds.sublist (List.filter_sublist.map _)

theorem mem_otherTasks {task t : TrackerTask}
    (ht : t ∈ (s.orderedTasks task.laneId).filter fun t => t.id ≠ task.id) :
    t ∈ s.tasks ∧ t.laneId = task.laneId := mem_orderedTasks.mp (List.mem_of_mem_filter ht)

section

variable {task : TrackerTask} {lane : Nat} {items : List TrackerTask} {version : Int}

/-- One lane is rewritten. -/
theorem Layout.writeLane (hs : s.Layout) (hlane : ∀ t ∈ items, t.laneId = lane)
    (hok : ∀ t ∈ items, s.TaskOK t)
    (hids : ((s.writeLaneTasks lane (applyPositions items version)).tasks.map
      TrackerTask.id).Nodup)
    (hnumbers : ((s.writeLaneTasks lane (applyPositions items version)).tasks.map
      TrackerTask.number).Nodup) :
    (s.writeLaneTasks lane (applyPositions items version)).Layout where
  lanePositions := hs.lanePositions
  taskPositions := taskPositions_writeLaneTasks hs.taskPositions hlane
  laneIds := hs.laneIds
  taskIds := hids
  numbers := hnumbers
  laneMinted := hs.laneMinted
  tasks := fun t ht =>
    (forall_mem_writeLaneTasks hs.tasks hok (fun _ n v h => h.place n v) t ht).mono le_rfl rfl
      (List.Subset.refl _)

/-- A new task enters a lane. -/
theorem Layout.enterLane (hs : s.Layout) (version : Int)
    (hitems : items ~ task :: group TrackerTask.laneId lane s.tasks) (hlane : task.laneId = lane)
    (hok : s.TaskOK task) (hid : task.id ∉ s.tasks.map TrackerTask.id)
    (hnumber : task.number ∉ s.tasks.map TrackerTask.number) :
    (s.writeLaneTasks lane (applyPositions items version)).Layout := by
  have hcolumn {f : TrackerTask → Nat}
      (hf : ∀ (t : TrackerTask) n v, f (Ranked.place t n v) = f t) :
      (s.writeLaneTasks lane (applyPositions items version)).tasks.map f ~
        f task :: s.tasks.map f := by
    have h : ([] ++ items.map f) ~ ([f task] ++ (group TrackerTask.laneId lane s.tasks).map f) :=
      hitems.map f
    exact map_writeLaneTasks_perm hf h
  have hmem {t : TrackerTask} (ht : t ∈ items) :
      t = task ∨ t ∈ s.tasks ∧ t.laneId = lane := by
    rcases List.mem_cons.mp (hitems.mem_iff.mp ht) with rfl | ht
    · exact .inl rfl
    · exact .inr (mem_group.mp ht)
  refine hs.writeLane (fun t ht => ?_) (fun t ht => ?_) ?_ ?_
  · rcases hmem ht with rfl | ⟨-, ht⟩
    · exact hlane
    · exact ht
  · rcases hmem ht with rfl | ⟨ht, -⟩
    · exact hok
    · exact hs.tasks t ht
  · exact (hcolumn fun _ _ _ => rfl).nodup_iff.mpr (List.nodup_cons.mpr ⟨hid, hs.taskIds⟩)
  · exact (hcolumn fun _ _ _ => rfl).nodup_iff.mpr (List.nodup_cons.mpr ⟨hnumber, hs.numbers⟩)

/-- A task leaves its lane, and its id and number with it. -/
theorem Layout.leaveLane (hs : s.Layout) (version : Int) (htask : task ∈ s.tasks) :
    (s.writeLaneTasks task.laneId (applyPositions
      ((s.orderedTasks task.laneId).filter fun t => t.id ≠ task.id) version)).Layout ∧
    task.id ∉ (s.writeLaneTasks task.laneId (applyPositions
      ((s.orderedTasks task.laneId).filter fun t => t.id ≠ task.id) version)).tasks.map
        TrackerTask.id ∧
    task.number ∉ (s.writeLaneTasks task.laneId (applyPositions
      ((s.orderedTasks task.laneId).filter fun t => t.id ≠ task.id) version)).tasks.map
        TrackerTask.number := by
  generalize hothers : ((s.orderedTasks task.laneId).filter fun t => t.id ≠ task.id) = others
  have hperm : (task :: others) ~ group TrackerTask.laneId task.laneId s.tasks :=
    hothers ▸ hs.cons_otherTasks htask
  have hcolumn {f : TrackerTask → Nat}
      (hf : ∀ (t : TrackerTask) n v, f (Ranked.place t n v) = f t) :
      (f task :: (s.writeLaneTasks task.laneId (applyPositions others version)).tasks.map f) ~
        s.tasks.map f := by
    have h : ([f task] ++ others.map f) ~
        ([] ++ (group TrackerTask.laneId task.laneId s.tasks).map f) := hperm.map f
    exact map_writeLaneTasks_perm hf h
  have hids := List.nodup_cons.mp
    ((hcolumn fun _ _ _ => rfl).nodup_iff.mpr hs.taskIds)
  have hnumbers := List.nodup_cons.mp
    ((hcolumn fun _ _ _ => rfl).nodup_iff.mpr hs.numbers)
  have hmem {t : TrackerTask} (ht : t ∈ others) : t ∈ s.tasks ∧ t.laneId = task.laneId :=
    mem_group.mp (hperm.mem_iff.mp (List.mem_cons_of_mem task ht))
  exact ⟨hs.writeLane (fun t ht => (hmem ht).2) (fun t ht => hs.tasks t (hmem ht).1) hids.2
    hnumbers.2, hids.1, hnumbers.1⟩

/-- A task moves inside its lane. -/
theorem Layout.reorderLane (hs : s.Layout) (version : Int) (htask : task ∈ s.tasks)
    {moved : TrackerTask} (hok : s.TaskOK moved) (hid : moved.id = task.id)
    (hlane : moved.laneId = task.laneId) (hnumber : moved.number = task.number)
    (hitems : items ~ moved :: (s.orderedTasks task.laneId).filter fun t => t.id ≠ task.id) :
    (s.writeLaneTasks task.laneId (applyPositions items version)).Layout := by
  have hperm := hs.cons_otherTasks htask
  have hcolumn {f : TrackerTask → Nat} (hf : ∀ (t : TrackerTask) n v, f (Ranked.place t n v) = f t)
      (hmoved : f moved = f task) :
      (s.writeLaneTasks task.laneId (applyPositions items version)).tasks.map f ~
        s.tasks.map f := by
    have hrows : (items.map f) ~ ((group TrackerTask.laneId task.laneId s.tasks).map f) := by
      refine (hitems.map f).trans ?_
      rw [List.map_cons, hmoved, ← List.map_cons]
      exact hperm.map f
    have h : ([] ++ items.map f) ~
        ([] ++ (group TrackerTask.laneId task.laneId s.tasks).map f) := hrows
    exact map_writeLaneTasks_perm hf h
  have hmem {t : TrackerTask} (ht : t ∈ items) :
      t = moved ∨ t ∈ s.tasks ∧ t.laneId = task.laneId := by
    rcases List.mem_cons.mp (hitems.mem_iff.mp ht) with rfl | ht
    · exact .inl rfl
    · exact .inr (mem_orderedTasks.mp (List.mem_of_mem_filter ht))
  refine hs.writeLane (fun t ht => ?_) (fun t ht => ?_) ?_ ?_
  · rcases hmem ht with rfl | ⟨-, ht⟩
    · exact hlane
    · exact ht
  · rcases hmem ht with rfl | ⟨ht, -⟩
    · exact hok
    · exact hs.tasks t ht
  · exact (hcolumn (fun _ _ _ => rfl) hid).nodup_iff.mpr hs.taskIds
  · exact (hcolumn (fun _ _ _ => rfl) hnumber).nodup_iff.mpr hs.numbers

end

theorem Layout.touch (hs : s.Layout) (version : Int) : (s.touch version).Layout :=
  ⟨hs.lanePositions, hs.taskPositions, hs.laneIds, hs.taskIds, hs.numbers, hs.laneMinted,
    fun t ht => (hs.tasks t ht).mono le_rfl rfl (List.Subset.refl _)⟩

theorem Layout.createTask {id : Nat} {actor : UserRef} {payload : TrackerTaskCreate} {now : Int}
    (hs : s.Layout) (h : createTask fns s id actor payload now = .ok s') : s'.Layout := by
  obtain rfl | ⟨hid, lane, position, task, hlane, hposition, rfl, htl, hnumber, hcompleted, -, rfl⟩
    := createTask_eq_ok h
  · exact hs
  -- The counter and the generator move first; then the task enters its lane.
  generalize hboard : ({ s.board with
    nextTaskNumber := s.board.nextTaskNumber + 1
    updatedAt := s.mutationVersion now } : TrackerBoard) = board
  have hnext : board.nextTaskNumber = s.board.nextTaskNumber + 1 := by rw [← hboard]
  have hgrown : Layout { s with board := board, minted := task.id :: s.minted } :=
    ⟨hs.lanePositions, hs.taskPositions, hs.laneIds, hs.taskIds, hs.numbers,
      fun l hl => List.mem_cons_of_mem _ (hs.laneMinted l hl),
      fun t ht => (hs.tasks t ht).mono (hnext ▸ Nat.le_succ _) rfl (List.subset_cons_self _ _)⟩
  have hitems := (List.perm_insertIdx task _ hposition).trans
    ((orderedTasks_perm s lane.id).cons task)
  refine hgrown.enterLane _ hitems htl ⟨?_, ?_, List.mem_cons_self⟩ ?_ ?_
  · show task.number < board.nextTaskNumber
    omega
  · refine ⟨lane, mem_of_lookupBy hlane, htl.symm, ?_⟩
    rw [hcompleted, completionTime]
    cases lane.completed <;> rfl
  · intro hmem
    obtain ⟨t, ht, heq⟩ := List.mem_map.mp hmem
    exact hid (heq ▸ (hs.tasks t ht).minted)
  · intro hmem
    obtain ⟨t, ht, heq⟩ := List.mem_map.mp hmem
    have := (hs.tasks t ht).number
    omega

theorem Layout.deleteTask {ref : Nat} {ifMatch : IfMatch} {now : Int} (hs : s.Layout)
    (h : deleteTask s ref ifMatch now = .ok s') : s'.Layout := by
  obtain ⟨task, htask, -, rfl⟩ := deleteTask_eq_ok h
  exact (hs.leaveLane _ (mem_of_lookupBy htask)).1.touch _

theorem Layout.moveTask {ref : Nat} {payload : TrackerTaskMove} {ifMatch : IfMatch} {now : Int}
    (hs : s.Layout) (h : moveTask s ref payload ifMatch now = .ok s') : s'.Layout := by
  obtain ⟨task, target, htask, -, htarget, hcases⟩ := moveTask_eq_ok h
  have hmem : task ∈ s.tasks := mem_of_lookupBy htask
  have hlaneOK : ∃ l ∈ s.lanes, l.id = target.id ∧
      l.completed = (task.movedTo target (s.mutationVersion now)).completedAt.isSome :=
    ⟨target, mem_of_lookupBy htarget, rfl, (task.isSome_movedTo target _).symm⟩
  have hok : s.TaskOK (task.movedTo target (s.mutationVersion now)) :=
    ⟨(hs.tasks task hmem).number, hlaneOK, (hs.tasks task hmem).minted⟩
  obtain rfl | ⟨hlane, rfl⟩ | ⟨hlane, hposition, rfl⟩ | ⟨hlane, hposition, rfl⟩ := hcases
  · exact hs
  · exact hs.setTask _ hmem ⟨rfl, hlane.symm, rfl, rfl⟩ (hlane ▸ hlaneOK)
  · rw [← hlane]
    exact (hs.reorderLane _ hmem hok rfl hlane.symm rfl
      (List.perm_insertIdx _ _ hposition)).touch _
  · obtain ⟨hleft, hid, hnumber⟩ := hs.leaveLane (s.mutationVersion now) hmem
    have hgroup : group TrackerTask.laneId target.id (s.writeLaneTasks task.laneId (applyPositions
        ((s.orderedTasks task.laneId).filter fun t => t.id ≠ task.id)
        (s.mutationVersion now))).tasks = group TrackerTask.laneId target.id s.tasks :=
      group_replaceGroup_ne
        (laneId_applyPositions fun t ht => (mem_otherTasks ht).2) (Ne.symm hlane)
    have hitems := (List.perm_insertIdx (task.movedTo target (s.mutationVersion now)) _
      hposition).trans ((orderedTasks_perm s target.id).cons _)
    rw [← hgroup] at hitems
    exact (hleft.enterLane _ hitems rfl (hok.mono le_rfl rfl (List.Subset.refl _)) hid
      hnumber).touch _

theorem Layout.mutate {m : TrackerMutation} (hs : s.Layout) (h : mutate fns s m = .ok s') :
    s'.Layout := by
  cases m with
  | updateBoard payload ifMatch clock now => exact hs.updateBoard h
  | createLane id payload now => exact hs.createLane h
  | updateLane ref payload ifMatch now => exact hs.updateLane h
  | moveLane ref position ifMatch now => exact hs.moveLane h
  | deleteLane ref ifMatch now => exact hs.deleteLane h
  | createTask id actor payload now => exact hs.createTask h
  | updateTask ref payload ifMatch now => exact hs.updateTask h
  | moveTask ref payload ifMatch now => exact hs.moveTask h
  | deleteTask ref ifMatch now => exact hs.deleteTask h

end Tracker

end Kaede
