import Kaede.TrackerLayout

/-!
# Versions of tracker rows

`updated_at` is the version a client sends back in `If-Match`. A mutation
stamps what it writes with a version above the board's and the board with
the same one, so no row is newer than its board (`Stamped`), and a row
that is written again gets a larger version (`Advance`). Ids are never
reused, so a version names one state of a row.

A board update that drops values from tasks is the exception: it stamps
each task with a reading of its own and the board with the next reading,
which a clock that steps back can make smaller. `ReadingsInOrder` says
that it does not.
-/

namespace Kaede

/-! ## Rows of a table and their stamps -/

section

variable {α : Type} {id : α → Nat} {stamp : α → Int} {minted minted' : List Nat} {v w : Int}
  {old mid : List α} {x x' : α}

/-- A row after a write: it was there, or it is no newer than `bound` and
newer than the row of that id, or its id was never used. -/
def Touched (id : α → Nat) (stamp : α → Int) (minted : List Nat) (bound : Int) (old : List α)
    (x : α) : Prop :=
  x ∈ old ∨ stamp x ≤ bound ∧ ((∃ y ∈ old, id y = id x ∧ stamp y < stamp x) ∨ id x ∉ minted)

/-- A row written once more in the same transaction. -/
theorem Touched.restamp (h : Touched id stamp minted v old x) (hold : ∀ y ∈ old, stamp y < v)
    (hid : id x' = id x) (hstamp : stamp x' = v) : Touched id stamp minted v old x' := by
  refine .inr ⟨hstamp.le, ?_⟩
  rw [hid, hstamp]
  rcases h with hx | ⟨-, ⟨y, hy, hyx, -⟩ | hfresh⟩
  · exact .inl ⟨x, hx, rfl, hold x hx⟩
  · exact .inl ⟨y, hy, hyx, hold y hy⟩
  · exact .inr hfresh

theorem Touched.trans (h : Touched id stamp minted' w mid x)
    (hmid : ∀ y ∈ mid, Touched id stamp minted v old y) (hvw : v ≤ w) (hminted : minted ⊆ minted') :
    Touched id stamp minted w old x := by
  rcases h with hx | ⟨hle, ⟨y, hy, hyx, hlt⟩ | hfresh⟩
  · exact (hmid x hx).imp_right fun h => ⟨h.1.trans hvw, h.2⟩
  · refine .inr ⟨hle, ?_⟩
    rcases hmid y hy with hy | ⟨-, ⟨z, hz, hzy, hlt'⟩ | hfresh⟩
    · exact .inl ⟨y, hy, hyx, hlt⟩
    · exact .inl ⟨z, hz, hzy.trans hyx, hlt'.trans hlt⟩
    · exact .inr (hyx ▸ hfresh)
  · exact .inr ⟨hle, .inr fun h => hfresh (hminted h)⟩

/-- Read back: the row of a known id is unchanged or newer. -/
theorem Touched.same_or_newer (h : Touched id stamp minted v old x)
    (hnodup : (old.map id).Nodup) {y : α} (hy : y ∈ old) (hminted : id y ∈ minted)
    (hid : id x = id y) : x = y ∨ stamp y < stamp x := by
  rcases h with hx | ⟨-, ⟨z, hz, hzx, hlt⟩ | hfresh⟩
  · exact .inl (List.inj_on_of_nodup_map hnodup hx hy hid)
  · obtain rfl : z = y := List.inj_on_of_nodup_map hnodup hz hy (hzx.trans hid)
    exact .inr hlt
  · exact absurd (hid ▸ hminted) hfresh

theorem touched_applyPositions [Ranked α] {items : List α}
    (hitems : ∀ x ∈ items, Touched id stamp minted v old x) (hold : ∀ y ∈ old, stamp y < v)
    (hid : ∀ x n v, id (Ranked.place x n v) = id x)
    (hstamp : ∀ x n v, stamp (Ranked.place x n v) = v) :
    ∀ x ∈ applyPositions items v, Touched id stamp minted v old x :=
  forall_mem_renumber hitems fun x hx n => (hitems x hx).restamp hold (hid x n v) (hstamp x n v)

theorem touched_updateBy {key : α → Nat} {k : Nat} {f : α → α} (hold : ∀ y ∈ old, stamp y < v)
    (hf : ∀ y ∈ old, key y = k → id (f y) = id y ∧ stamp (f y) = v) :
    ∀ x ∈ updateBy key k f old, Touched id stamp minted v old x := by
  intro x hx
  obtain ⟨y, hy, rfl⟩ := List.mem_map.mp hx
  by_cases hk : key y = k
  · rw [if_pos hk]
    exact Touched.restamp (.inl hy) hold (hf y hy hk).1 (hf y hy hk).2
  · rw [if_neg hk]
    exact .inl hy

end

namespace Tracker

variable {fns : TrackerFunctions} {s s' s'' : Tracker}

/-- Every version is at most the board's. -/
structure Stamped (s : Tracker) : Prop where
  lanes : ∀ l ∈ s.lanes, l.updatedAt ≤ s.board.updatedAt
  tasks : ∀ t ∈ s.tasks, t.updatedAt ≤ s.board.updatedAt

/-- What a mutation may do to the versions. -/
structure Advance (s s' : Tracker) : Prop where
  board : s'.board = s.board ∨ s.board.updatedAt < s'.board.updatedAt
  lanes : ∀ l ∈ s'.lanes,
    Touched TrackerLane.id TrackerLane.updatedAt s.minted s'.board.updatedAt s.lanes l
  tasks : ∀ t ∈ s'.tasks,
    Touched TrackerTask.id TrackerTask.updatedAt s.minted s'.board.updatedAt s.tasks t
  minted : s.minted ⊆ s'.minted

theorem Advance.refl (s : Tracker) : s.Advance s :=
  ⟨.inl rfl, fun _ hl => .inl hl, fun _ ht => .inl ht, List.Subset.refl _⟩

theorem Advance.board_le (h : s.Advance s') : s.board.updatedAt ≤ s'.board.updatedAt := by
  rcases h.board with heq | hlt
  · rw [heq]
  · exact hlt.le

theorem Advance.trans (h : s.Advance s') (h' : s'.Advance s'') : s.Advance s'' where
  board := by
    rcases h'.board with heq | hlt
    · rw [heq]
      exact h.board
    · exact .inr (h.board_le.trans_lt hlt)
  lanes := fun l hl => (h'.lanes l hl).trans h.lanes h'.board_le h.minted
  tasks := fun t ht => (h'.tasks t ht).trans h.tasks h'.board_le h.minted
  minted := List.Subset.trans h.minted h'.minted

theorem Advance.stamped (h : s.Advance s') (hs : s.Stamped) : s'.Stamped where
  lanes := by
    intro l hl
    rcases h.lanes l hl with hl | ⟨hle, -⟩
    · exact (hs.lanes l hl).trans h.board_le
    · exact hle
  tasks := by
    intro t ht
    rcases h.tasks t ht with ht | ⟨hle, -⟩
    · exact (hs.tasks t ht).trans h.board_le
    · exact hle

/-! ## Every mutation advances the versions -/

theorem lt_mutationVersion (s : Tracker) (now : Int) :
    s.board.updatedAt < s.mutationVersion now := lt_nextTrackerVersion _ _

theorem Stamped.lanes_lt (hs : s.Stamped) (now : Int) :
    ∀ l ∈ s.lanes, l.updatedAt < s.mutationVersion now :=
  fun l hl => (hs.lanes l hl).trans_lt (s.lt_mutationVersion now)

theorem Stamped.tasks_lt (hs : s.Stamped) (now : Int) :
    ∀ t ∈ s.tasks, t.updatedAt < s.mutationVersion now :=
  fun t ht => (hs.tasks t ht).trans_lt (s.lt_mutationVersion now)

/-- The readings made for the tasks a board update rewrites do not exceed
the version it gives the board. -/
def ReadingsInOrder (s : Tracker) : TrackerMutation → Prop
  | .updateBoard payload _ clock now =>
      ∀ fields ∈ payload.customFields, ∀ t ∈ s.tasks,
        t.retainedValues fields ≠ t.customValues → clock t.id ≤ max now (s.board.updatedAt + 1)
  | _ => True

theorem Stamped.retainFields {fields : List TrackerField} {clock : Nat → Int} {now : Int}
    {t : TrackerTask} (hs : s.Stamped) (ht : t ∈ s.tasks)
    (hclock : t.retainedValues fields ≠ t.customValues →
      clock t.id ≤ max now (s.board.updatedAt + 1)) :
    Touched TrackerTask.id TrackerTask.updatedAt s.minted (s.mutationVersion now) s.tasks
      (t.retainFields fields clock) := by
  unfold TrackerTask.retainFields
  split
  · rename_i hlost
    have hreading := hclock hlost
    have hold := hs.tasks t ht
    refine .inr ⟨?_, .inl ⟨t, ht, rfl, lt_nextTrackerVersion _ _⟩⟩
    show max (clock t.id) (t.updatedAt + 1) ≤ max now (s.board.updatedAt + 1)
    omega
  · exact .inl ht

theorem Stamped.updateBoard {payload : TrackerBoardUpdate} {ifMatch : IfMatch} {clock : Nat → Int}
    {now : Int} (hs : s.Stamped)
    (hreadings : s.ReadingsInOrder (.updateBoard payload ifMatch clock now))
    (h : updateBoard fns s payload ifMatch clock now = .ok s') : s.Advance s' := by
  obtain ⟨-, rfl | rfl⟩ := updateBoard_eq_ok h
  · exact .refl _
  refine ⟨.inr (s.lt_mutationVersion now), fun l hl => .inl hl, ?_, List.Subset.refl _⟩
  cases hfields : payload.customFields with
  | none => exact fun t ht => .inl ht
  | some fields =>
      intro t' ht'
      obtain ⟨t, ht, rfl⟩ := List.mem_map.mp ht'
      exact hs.retainFields ht (hreadings fields hfields t ht)

theorem Stamped.createLane {id : Nat} {payload : TrackerLaneCreate} {now : Int} (hs : s.Stamped)
    (h : createLane s id payload now = .ok s') : s.Advance s' := by
  obtain ⟨hid, position, lane, hposition, rfl, hversion, rfl⟩ := createLane_eq_ok h
  refine ⟨.inr (s.lt_mutationVersion now), ?_, fun t ht => .inl ht, List.subset_cons_self _ _⟩
  refine touched_applyPositions (fun l hl => ?_) (hs.lanes_lt now) (fun _ _ _ => rfl)
    fun _ _ _ => rfl
  have hperm := (List.perm_insertIdx lane _ hposition).trans ((orderedLanes_perm s).cons lane)
  rcases List.mem_cons.mp (hperm.mem_iff.mp hl) with rfl | hl
  · exact .inr ⟨hversion.le, .inr hid⟩
  · exact .inl hl

theorem Stamped.updateLane {ref : Nat} {payload : TrackerLaneUpdate} {ifMatch : IfMatch} {now : Int}
    (hs : s.Stamped) (h : updateLane s ref payload ifMatch now = .ok s') :
    s.Advance s' := by
  obtain ⟨lane, hlane, -, rfl | rfl⟩ := updateLane_eq_ok h
  · exact .refl _
  refine ⟨.inr (s.lt_mutationVersion now), ?_, ?_, List.Subset.refl _⟩
  · exact touched_updateBy (hs.lanes_lt now) fun l _ hid => ⟨hid.symm, rfl⟩
  · dsimp only
    split
    · exact touched_updateBy (hs.tasks_lt now) fun t _ _ => ⟨rfl, rfl⟩
    · exact fun t ht => .inl ht

theorem Stamped.moveLane {ref position : Nat} {ifMatch : IfMatch} {now : Int}
    (hs : s.Stamped) (h : moveLane s ref position ifMatch now = .ok s') : s.Advance s' := by
  obtain ⟨lane, hlane, -, rfl | ⟨-, rfl⟩⟩ := moveLane_eq_ok h
  · exact .refl _
  refine ⟨.inr (s.lt_mutationVersion now), ?_, fun t ht => .inl ht, List.Subset.refl _⟩
  refine touched_applyPositions (fun l hl => .inl ?_) (hs.lanes_lt now) (fun _ _ _ => rfl)
    fun _ _ _ => rfl
  rcases List.eq_or_mem_of_mem_insertIdx hl with rfl | hl
  · exact mem_of_lookupBy hlane
  · exact (orderedLanes_perm s).mem_iff.mp (List.mem_of_mem_filter hl)

theorem Stamped.deleteLane {ref : Nat} {ifMatch : IfMatch} {now : Int} (hs : s.Stamped)
    (h : deleteLane s ref ifMatch now = .ok s') : s.Advance s' := by
  obtain ⟨lane, -, -, -, rfl⟩ := deleteLane_eq_ok h
  refine ⟨.inr (s.lt_mutationVersion now), ?_, fun t ht => .inl ht, List.Subset.refl _⟩
  refine touched_applyPositions (fun l hl => .inl ?_) (hs.lanes_lt now) (fun _ _ _ => rfl)
    fun _ _ _ => rfl
  exact (orderedLanes_perm s).mem_iff.mp (List.mem_of_mem_filter hl)

/-- The tasks after a lane was rewritten. -/
theorem touched_writeLaneTasks {lane : Nat} {items : List TrackerTask} {now : Int}
    {old : List TrackerTask} {minted : List Nat}
    (hs : ∀ t ∈ s.tasks, Touched TrackerTask.id TrackerTask.updatedAt minted now old t)
    (hitems : ∀ t ∈ items, Touched TrackerTask.id TrackerTask.updatedAt minted now old t)
    (hold : ∀ t ∈ old, t.updatedAt < now) :
    ∀ t ∈ (s.writeLaneTasks lane (applyPositions items now)).tasks,
      Touched TrackerTask.id TrackerTask.updatedAt minted now old t := by
  intro t ht
  rcases mem_replaceGroup.mp ht with ⟨ht, -⟩ | ht
  · exact hs t ht
  · exact touched_applyPositions hitems hold (fun _ _ _ => rfl) (fun _ _ _ => rfl) t ht

theorem Stamped.createTask {id : Nat} {actor : UserRef} {payload : TrackerTaskCreate} {now : Int}
    (hs : s.Stamped) (h : createTask fns s id actor payload now = .ok s') : s.Advance s' := by
  obtain rfl | ⟨hid, lane, position, task, -, hposition, rfl, -, -, -, hversion, rfl⟩ :=
    createTask_eq_ok h
  · exact .refl _
  refine ⟨.inr (s.lt_mutationVersion now), fun l hl => .inl hl, ?_, List.subset_cons_self _ _⟩
  refine touched_writeLaneTasks (fun t ht => .inl ht) (fun t ht => ?_) (hs.tasks_lt now)
  rcases List.eq_or_mem_of_mem_insertIdx ht with rfl | ht
  · exact .inr ⟨hversion.le, .inr hid⟩
  · exact .inl (mem_orderedTasks.mp ht).1

theorem Stamped.updateTask {ref : Nat} {payload : TrackerTaskUpdate} {ifMatch : IfMatch}
    {now : Int} (hs : s.Stamped) (h : updateTask fns s ref payload ifMatch now = .ok s') :
    s.Advance s' := by
  obtain ⟨task, -, -, rfl | ⟨values, rfl⟩⟩ := updateTask_eq_ok h
  · exact .refl _
  refine ⟨.inr (s.lt_mutationVersion now), fun l hl => .inl hl, ?_, List.Subset.refl _⟩
  exact touched_updateBy (hs.tasks_lt now) fun t _ hid => ⟨hid.symm, rfl⟩

theorem Stamped.moveTask {ref : Nat} {payload : TrackerTaskMove} {ifMatch : IfMatch} {now : Int}
    (hs : s.Stamped) (h : moveTask s ref payload ifMatch now = .ok s') : s.Advance s' := by
  obtain ⟨task, target, htask, -, -, hcases⟩ := moveTask_eq_ok h
  have hold := hs.tasks_lt now
  have hmoved : Touched TrackerTask.id TrackerTask.updatedAt s.minted (s.mutationVersion now)
      s.tasks (task.movedTo target (s.mutationVersion now)) :=
    Touched.restamp (.inl (mem_of_lookupBy htask)) hold rfl rfl
  obtain rfl | ⟨-, rfl⟩ | ⟨-, -, rfl⟩ | ⟨-, -, rfl⟩ := hcases
  · exact .refl _
  · refine ⟨.inr (s.lt_mutationVersion now), fun l hl => .inl hl, ?_, List.Subset.refl _⟩
    exact touched_updateBy hold fun t _ hid => ⟨hid.symm, rfl⟩
  · refine ⟨.inr (s.lt_mutationVersion now), fun l hl => .inl hl, ?_, List.Subset.refl _⟩
    refine touched_writeLaneTasks (fun t ht => .inl ht) (fun t ht => ?_) hold
    rcases List.eq_or_mem_of_mem_insertIdx ht with rfl | ht
    · exact hmoved
    · exact .inl (mem_otherTasks ht).1
  · refine ⟨.inr (s.lt_mutationVersion now), fun l hl => .inl hl, ?_, List.Subset.refl _⟩
    refine touched_writeLaneTasks (touched_writeLaneTasks (fun t ht => .inl ht)
      (fun t ht => .inl (mem_otherTasks ht).1) hold) (fun t ht => ?_) hold
    rcases List.eq_or_mem_of_mem_insertIdx ht with rfl | ht
    · exact hmoved
    · exact .inl (mem_orderedTasks.mp ht).1

theorem Stamped.deleteTask {ref : Nat} {ifMatch : IfMatch} {now : Int} (hs : s.Stamped)
    (h : deleteTask s ref ifMatch now = .ok s') : s.Advance s' := by
  obtain ⟨task, -, -, rfl⟩ := deleteTask_eq_ok h
  refine ⟨.inr (s.lt_mutationVersion now), fun l hl => .inl hl, ?_, List.Subset.refl _⟩
  exact touched_writeLaneTasks (fun t ht => .inl ht) (fun t ht => .inl (mem_otherTasks ht).1)
    (hs.tasks_lt now)

theorem Stamped.mutate {m : TrackerMutation} (hs : s.Stamped) (hreadings : s.ReadingsInOrder m)
    (h : mutate fns s m = .ok s') : s.Advance s' := by
  cases m with
  | updateBoard payload ifMatch clock now => exact hs.updateBoard hreadings h
  | createLane id payload now => exact hs.createLane h
  | updateLane ref payload ifMatch now => exact hs.updateLane h
  | moveLane ref position ifMatch now => exact hs.moveLane h
  | deleteLane ref ifMatch now => exact hs.deleteLane h
  | createTask id actor payload now => exact hs.createTask h
  | updateTask ref payload ifMatch now => exact hs.updateTask h
  | moveTask ref payload ifMatch now => exact hs.moveTask h
  | deleteTask ref ifMatch now => exact hs.deleteTask h

/-! ## Runs -/

theorem layout_createTrackerState {keyPrefix : String} {ids : List Nat} {now : Int}
    (h : createTrackerState keyPrefix ids now = .ok s) : s.Layout ∧ s.Stamped := by
  simp only [createTrackerState, check_bind_eq_ok, ensure_eq_ok] at h
  obtain ⟨⟨hlength, hnodup⟩, h⟩ := h
  obtain rfl := Except.ok.inj h
  obtain _ | ⟨a, _ | ⟨b, _ | ⟨c, _ | ⟨d, _ | ⟨e, rest⟩⟩⟩⟩⟩ := ids
  case cons.cons.cons.cons.nil =>
    refine ⟨⟨List.Perm.refl [0, 1, 2, 3], fun _ => List.Perm.nil, hnodup, List.nodup_nil,
      List.nodup_nil, ?_, ?_⟩, ?_, ?_⟩
    all_goals simp [defaultTrackerLanes]
  -- there is an identifier for each of the four lanes
  all_goals simp [defaultTrackerLanes] at hlength

theorem layout_step {m : TrackerMutation} (hs : s.Layout) (h : step fns s m = some s') :
    s'.Layout := by
  unfold step at h
  split at h
  · rename_i hok
    exact Option.some.inj h ▸ hs.mutate hok
  · exact Option.some.inj h ▸ hs

theorem advance_step {m : TrackerMutation} (hs : s.Stamped) (hreadings : s.ReadingsInOrder m)
    (h : step fns s m = some s') : s.Advance s' := by
  unfold step at h
  split at h
  · rename_i hok
    exact Option.some.inj h ▸ hs.mutate hreadings hok
  · exact Option.some.inj h ▸ .refl s

theorem layout_run {ms : List TrackerMutation} {C : Tracker → TrackerMutation → Prop}
    (hrun : Exec (step fns) C s ms s') (hs : s.Layout) : s'.Layout :=
  hrun.invariant (fun _ _ _ hs _ h => layout_step hs h) hs

theorem advance_run {ms : List TrackerMutation} (hrun : Exec (step fns) ReadingsInOrder s ms s')
    (hs : s.Stamped) : s.Advance s' :=
  hrun.invariant (fun _ _ _ hs' hm h => hs'.trans (advance_step (hs'.stamped hs) hm h)) (.refl s)

/-- The five linked properties of a board. -/
structure BoardInvariant (s : Tracker) : Prop where
  lanePositions : (s.lanes.map TrackerLane.position).Perm (List.range s.lanes.length)
  taskPositions : ∀ l ∈ s.lanes,
    ((s.tasks.filter fun t => t.laneId = l.id).map TrackerTask.position).Perm
      (List.range (s.tasks.filter fun t => t.laneId = l.id).length)
  completion : ∀ t ∈ s.tasks, (∃ l ∈ s.lanes, l.id = t.laneId) ∧
    ∀ l ∈ s.lanes, l.id = t.laneId → (t.completedAt.isSome ↔ l.completed = true)
  numbers : (s.tasks.map TrackerTask.number).Nodup ∧
    ∀ t ∈ s.tasks, t.number < s.board.nextTaskNumber
  versions : (∀ l ∈ s.lanes, l.updatedAt ≤ s.board.updatedAt) ∧
    ∀ t ∈ s.tasks, t.updatedAt ≤ s.board.updatedAt

theorem Layout.boardInvariant (hs : s.Layout) (hv : s.Stamped) : s.BoardInvariant where
  lanePositions := hs.lanePositions
  taskPositions := fun l _ => hs.taskPositions l.id
  completion := by
    intro t ht
    obtain ⟨l, hl, hlt, hc⟩ := (hs.tasks t ht).lane
    refine ⟨⟨l, hl, hlt⟩, fun l' hl' hlt' => ?_⟩
    obtain rfl : l' = l := List.inj_on_of_nodup_map hs.laneIds hl' hl (hlt'.trans hlt.symm)
    rw [hc]
  numbers := ⟨hs.numbers, fun t ht => (hs.tasks t ht).number⟩
  versions := ⟨hv.lanes, hv.tasks⟩

theorem board_invariant_run {keyPrefix : String} {ids : List Nat} {now : Int}
    {ms : List TrackerMutation} (hcreate : createTrackerState keyPrefix ids now = .ok s)
    (hrun : Exec (step fns) ReadingsInOrder s ms s') : s'.BoardInvariant := by
  obtain ⟨hlayout, hstamped⟩ := layout_createTrackerState hcreate
  exact (layout_run hrun hlayout).boardInvariant ((advance_run hrun hstamped).stamped hstamped)

/-! ### A clock that steps back -/

/-- `validate_values` on short text values, which it returns as they are. -/
def textFunctions : TrackerFunctions where
  validateValues fields values :=
    if ∀ entry ∈ values, entry.1 ∈ fields.map TrackerField.id then some values else none
  taskRequestFingerprint _ := ""

def newBoard : Tracker where
  board := ⟨"KT", [], 1, 0⟩
  lanes :=
    [⟨1, "Backlog", 0x3B82F6, .backlog, false, 0, 0⟩,
     ⟨2, "Planned", 0xF59E0B, .planned, false, 1, 0⟩,
     ⟨3, "In progress", 0xA3E635, .inProgress, false, 2, 0⟩,
     ⟨4, "Done", 0x22C55E, .completed, true, 3, 0⟩]
  tasks := []
  minted := [1, 2, 3, 4]

/-- A field is added, a task is made with a value for it, and the field is
dropped again: the task's reading is `taskReading`, the board's is `50`. -/
def dropField (taskReading : Int) : List TrackerMutation :=
  [.updateBoard ⟨none, some [⟨"f", "Field", .text, []⟩]⟩ (.version 0) (fun _ => 0) 1,
   .createTask 5 ⟨9, "home"⟩ ⟨1, "Task", none, .none, none, none, none, [("f", "x")], none⟩ 2,
   .updateBoard ⟨none, some []⟩ (.version 2) (fun _ => taskReading) 50]

/-- The board after `dropField`. -/
def droppedField (taskReading : Int) : Tracker :=
  { newBoard with
    board := ⟨"KT", [], 2, 50⟩
    tasks :=
      [⟨5, 1, 1, "Task", none, .none, 0, none, none, ⟨9, "home"⟩, none, [], none, none,
        taskReading⟩]
    minted := [5, 1, 2, 3, 4] }

theorem create_newBoard : createTrackerState "KT" [1, 2, 3, 4] 0 = .ok newBoard := by decide

instance (s : Tracker) (m : TrackerMutation) : Decidable (s.ReadingsInOrder m) :=
  match m with
  | .updateBoard payload _ clock now => inferInstanceAs (Decidable
      (∀ fields ∈ payload.customFields, ∀ t ∈ s.tasks,
        t.retainedValues fields ≠ t.customValues → clock t.id ≤ max now (s.board.updatedAt + 1)))
  | .createLane .. | .updateLane .. | .moveLane .. | .deleteLane .. | .createTask ..
  | .updateTask .. | .moveTask .. | .deleteTask .. => .isTrue trivial

theorem run_dropField_back :
    Exec (step textFunctions) Always newBoard (dropField 100) (droppedField 100) :=
  Exec.of_runFrom (by decide)

theorem run_dropField :
    Exec (step textFunctions) ReadingsInOrder newBoard (dropField 50) (droppedField 50) :=
  Exec.of_runFrom (by decide)

theorem board_invariant_run_dropField :
    createTrackerState "KT" [1, 2, 3, 4] 0 = .ok newBoard ∧
    Exec (step textFunctions) ReadingsInOrder newBoard (dropField 50) (droppedField 50) ∧
    (droppedField 50).BoardInvariant :=
  ⟨create_newBoard, run_dropField, board_invariant_run create_newBoard run_dropField⟩

/-- With the readings `100` for the task and `50` for the board, the task is
newer than its board. -/
theorem board_invariant_fails :
    ¬ ∀ (fns : TrackerFunctions) (keyPrefix : String) (ids : List Nat) (now : Int)
      (ms : List TrackerMutation) (s s' : Tracker),
      createTrackerState keyPrefix ids now = .ok s → Exec (step fns) Always s ms s' →
        s'.BoardInvariant := by
  intro h
  have hinv := h textFunctions "KT" [1, 2, 3, 4] 0 _ _ _ create_newBoard run_dropField_back
  have hle := hinv.versions.2 _ List.mem_cons_self
  exact absurd hle (by decide)

end Tracker

/-! ## What a version names -/

/-- What an `If-Match` header can be about. -/
inductive TrackerEntity where
  | board
  | lane (id : Nat)
  | task (id : Nat)
deriving DecidableEq, Repr

inductive TrackerRow where
  | board (row : TrackerBoard)
  | lane (row : TrackerLane)
  | task (row : TrackerTask)
deriving DecidableEq, Repr

def TrackerRow.updatedAt : TrackerRow → Int
  | .board row => row.updatedAt
  | .lane row => row.updatedAt
  | .task row => row.updatedAt

/-- The row a mutation is fenced against, and its header. -/
def TrackerMutation.fence : TrackerMutation → Option (TrackerEntity × IfMatch)
  | .updateBoard _ ifMatch _ _ => some (.board, ifMatch)
  | .createLane .. => none
  | .updateLane ref _ ifMatch _ => some (.lane ref, ifMatch)
  | .moveLane ref _ ifMatch _ => some (.lane ref, ifMatch)
  | .deleteLane ref ifMatch _ => some (.lane ref, ifMatch)
  | .createTask .. => none
  | .updateTask ref _ ifMatch _ => some (.task ref, ifMatch)
  | .moveTask ref _ ifMatch _ => some (.task ref, ifMatch)
  | .deleteTask ref ifMatch _ => some (.task ref, ifMatch)

namespace Tracker

variable {fns : TrackerFunctions} {s s' s₁ s₂ : Tracker}

/-- The row of an entity, as a client observes it. -/
def row (s : Tracker) : TrackerEntity → Option TrackerRow
  | .board => some (.board s.board)
  | .lane id => (s.laneByRef id).map .lane
  | .task id => (s.taskByRef id).map .task

/-- A mutation goes through only at the version its row has. -/
theorem fence_of_ok {m : TrackerMutation} {e : TrackerEntity} {ifMatch : IfMatch}
    (h : mutate fns s m = .ok s') (hfence : m.fence = some (e, ifMatch)) :
    ∃ r, s.row e = some r ∧ ifMatch = .version r.updatedAt := by
  cases m with
  | createLane id payload now => cases hfence
  | createTask id actor payload now => cases hfence
  | updateBoard payload ifMatch clock now =>
      obtain ⟨rfl, rfl⟩ := Prod.mk.inj (Option.some.inj hfence)
      exact ⟨_, rfl, (updateBoard_eq_ok h).1⟩
  | updateLane ref payload ifMatch now =>
      obtain ⟨rfl, rfl⟩ := Prod.mk.inj (Option.some.inj hfence)
      obtain ⟨lane, hlane, hmatch, -⟩ := updateLane_eq_ok h
      exact ⟨.lane lane, by rw [row, hlane]; rfl, hmatch⟩
  | moveLane ref position ifMatch now =>
      obtain ⟨rfl, rfl⟩ := Prod.mk.inj (Option.some.inj hfence)
      obtain ⟨lane, hlane, hmatch, -⟩ := moveLane_eq_ok h
      exact ⟨.lane lane, by rw [row, hlane]; rfl, hmatch⟩
  | deleteLane ref ifMatch now =>
      obtain ⟨rfl, rfl⟩ := Prod.mk.inj (Option.some.inj hfence)
      obtain ⟨lane, hlane, hmatch, -⟩ := deleteLane_eq_ok h
      exact ⟨.lane lane, by rw [row, hlane]; rfl, hmatch⟩
  | updateTask ref payload ifMatch now =>
      obtain ⟨rfl, rfl⟩ := Prod.mk.inj (Option.some.inj hfence)
      obtain ⟨task, htask, hmatch, -⟩ := updateTask_eq_ok h
      exact ⟨.task task, by rw [row, htask]; rfl, hmatch⟩
  | moveTask ref payload ifMatch now =>
      obtain ⟨rfl, rfl⟩ := Prod.mk.inj (Option.some.inj hfence)
      obtain ⟨task, -, htask, hmatch, -⟩ := moveTask_eq_ok h
      exact ⟨.task task, by rw [row, htask]; rfl, hmatch⟩
  | deleteTask ref ifMatch now =>
      obtain ⟨rfl, rfl⟩ := Prod.mk.inj (Option.some.inj hfence)
      obtain ⟨task, htask, hmatch, -⟩ := deleteTask_eq_ok h
      exact ⟨.task task, by rw [row, htask]; rfl, hmatch⟩

theorem Advance.row_newer (h : s₁.Advance s₂) (hs : s₁.Layout) {e : TrackerEntity}
    {r₁ r₂ : TrackerRow} (h₁ : s₁.row e = some r₁) (h₂ : s₂.row e = some r₂) :
    r₂ = r₁ ∨ r₁.updatedAt < r₂.updatedAt := by
  cases e with
  | board =>
      obtain rfl := Option.some.inj h₁
      obtain rfl := Option.some.inj h₂
      exact h.board.imp_left (congrArg TrackerRow.board)
  | lane id =>
      obtain ⟨l₁, hl₁, rfl⟩ := Option.map_eq_some_iff.mp h₁
      obtain ⟨l₂, hl₂, rfl⟩ := Option.map_eq_some_iff.mp h₂
      have hid : l₂.id = l₁.id := (key_of_lookupBy hl₂).trans (key_of_lookupBy hl₁).symm
      have hmem : l₁ ∈ s₁.lanes := mem_of_lookupBy hl₁
      exact (h.lanes l₂ (mem_of_lookupBy hl₂)).same_or_newer hs.laneIds hmem
        (hs.laneMinted l₁ hmem) hid |>.imp_left (congrArg TrackerRow.lane)
  | task id =>
      obtain ⟨t₁, ht₁, rfl⟩ := Option.map_eq_some_iff.mp h₁
      obtain ⟨t₂, ht₂, rfl⟩ := Option.map_eq_some_iff.mp h₂
      have hid : t₂.id = t₁.id := (key_of_lookupBy ht₂).trans (key_of_lookupBy ht₁).symm
      have hmem : t₁ ∈ s₁.tasks := mem_of_lookupBy ht₁
      exact (h.tasks t₂ (mem_of_lookupBy ht₂)).same_or_newer hs.taskIds hmem
        (hs.tasks t₁ hmem).minted hid |>.imp_left (congrArg TrackerRow.task)

/-- Between two states of a run a row is unchanged or strictly newer, and a
write that goes through was computed against the row it replaces: every
row observed at the version in its header is that row. -/
theorem version_names_row {keyPrefix : String} {ids : List Nat} {now : Int}
    {ms₁ ms₂ : List TrackerMutation} (hcreate : createTrackerState keyPrefix ids now = .ok s)
    (hrun₁ : Exec (step fns) ReadingsInOrder s ms₁ s₁)
    (hrun₂ : Exec (step fns) ReadingsInOrder s₁ ms₂ s₂) :
    (∀ e r₁ r₂, s₁.row e = some r₁ → s₂.row e = some r₂ →
      r₂ = r₁ ∨ r₁.updatedAt < r₂.updatedAt) ∧
    ∀ m s₃ e ifMatch, mutate fns s₂ m = .ok s₃ → m.fence = some (e, ifMatch) →
      ∃ r, s₂.row e = some r ∧ ifMatch = .version r.updatedAt ∧
        ∀ r₁, s₁.row e = some r₁ → r₁.updatedAt = r.updatedAt → r₁ = r := by
  obtain ⟨hlayout, hstamped⟩ := layout_createTrackerState hcreate
  have hlayout₁ := layout_run hrun₁ hlayout
  have hadvance := advance_run hrun₂ ((advance_run hrun₁ hstamped).stamped hstamped)
  refine ⟨fun e r₁ r₂ h₁ h₂ => hadvance.row_newer hlayout₁ h₁ h₂, ?_⟩
  intro m s₃ e ifMatch hok hfence
  obtain ⟨r, hr, hmatch⟩ := fence_of_ok hok hfence
  refine ⟨r, hr, hmatch, fun r₁ h₁ hversion => ?_⟩
  rcases hadvance.row_newer hlayout₁ h₁ hr with heq | hlt
  · exact heq.symm
  · omega

theorem version_names_row_dropField :
    createTrackerState "KT" [1, 2, 3, 4] 0 = .ok newBoard ∧
    Exec (step textFunctions) ReadingsInOrder newBoard (dropField 50) (droppedField 50) ∧
    (TrackerRow.board (droppedField 50).board = .board newBoard.board ∨
      newBoard.board.updatedAt < (droppedField 50).board.updatedAt) :=
  ⟨create_newBoard, run_dropField,
    (version_names_row create_newBoard (.nil newBoard) run_dropField).1 .board _ _ rfl rfl⟩

/-- The title changes at the reading `100`, which the task already has. -/
def renameTask : TrackerMutation :=
  .updateTask 5 ⟨some "Other", none, none, none, none, none⟩ (.version 100) 100

/-- After the readings `100` and `50`, a mutation gives the task it changes
the version it had: two states of the task, one version. -/
theorem version_names_row_fails :
    ¬ ∀ (fns : TrackerFunctions) (keyPrefix : String) (ids : List Nat) (now : Int)
      (ms : List TrackerMutation) (m : TrackerMutation) (s s₁ s₂ : Tracker),
      createTrackerState keyPrefix ids now = .ok s → Exec (step fns) Always s ms s₁ →
      mutate fns s₁ m = .ok s₂ → ∀ e r₁ r₂, s₁.row e = some r₁ → s₂.row e = some r₂ →
        r₂ = r₁ ∨ r₁.updatedAt < r₂.updatedAt := by
  intro h
  have hrename : ∃ s₂, mutate textFunctions (droppedField 100) renameTask = .ok s₂ ∧
      ∃ r₁ r₂, (droppedField 100).row (.task 5) = some r₁ ∧ s₂.row (.task 5) = some r₂ ∧
        r₂ ≠ r₁ ∧ r₂.updatedAt = r₁.updatedAt :=
    ⟨_, rfl, _, _, rfl, rfl, by decide, by decide⟩
  obtain ⟨s₂, hok, r₁, r₂, h₁, h₂, hne, hversion⟩ := hrename
  rcases h textFunctions "KT" [1, 2, 3, 4] 0 _ _ _ _ s₂ create_newBoard run_dropField_back hok
    (.task 5) r₁ r₂ h₁ h₂ with heq | hlt
  · exact hne heq
  · omega

end Tracker

end Kaede
