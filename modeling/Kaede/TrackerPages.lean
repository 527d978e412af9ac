import Kaede.TrackerTexts

/-!
# The trees of snapshot pages

A page is read back from its bytes as the tree it was made of, if it passes
the limits on JSON of the federation. `Sound.page_accepted_iff` says when it
does: the pages of a sound board stay within every limit but two. Their values are
not counted when tasks are divided among pages, and the values of number
fields may be floats.
-/

namespace Kaede

namespace TrackerSync

open Replication (RemoteUserProfile UserRow maxDatabaseSnowflake strip)
open TrackerFields

variable {F : Type}

/-! ## Sound boards -/

/-- A text column with a bound. -/
def TextWithin (bound : Nat) (s : String) : Prop := s.length ≤ bound ∧ '\x00' ∉ s.toList

structure UserOk (user : UserRow) : Prop where
  ref : RefOk user.ref
  person : user.accountType ≠ .system
  username : usernamePattern user.username = true
  displayName : ∀ s ∈ user.profile.displayName, TextWithin 100 s
  avatarHash : ∀ s ∈ user.profile.avatarHash, TextWithin 128 s
  bannerHash : ∀ s ∈ user.profile.bannerHash, TextWithin 128 s
  bio : ∀ s ∈ user.profile.bio, TextWithin 500 s
  customStatus : ∀ s ∈ user.profile.customStatus, TextWithin 128 s
  profileVersion : 1 ≤ user.profileVersion ∧ user.profileVersion ≤ 2147483647
  e2eeDeviceGeneration : user.e2eeDeviceGeneration ≤ maxDatabaseSnowflake

structure LaneOk (board : BoardRow F) (lane : LaneRow) : Prop where
  ref : RefOk lane.ref
  origin : lane.ref.domain = board.channel.domain
  channel : lane.channel = board.channel
  guild : lane.guild = board.guild
  name : TextWithin 100 lane.name
  named : 1 ≤ (strip lane.name).length
  color : lane.color < 16777216
  updated : lane.createdAt.instant ≤ lane.updatedAt.instant

structure TaskOk (lib : Library F) (fields : List TrackerField) (a : Authority F)
    (task : TaskRow F) : Prop where
  ref : RefOk task.ref
  origin : task.ref.domain = a.board.channel.domain
  channel : task.channel = a.board.channel
  guild : task.guild = a.board.guild
  lane : task.lane ∈ a.lanes.map LaneRow.ref
  number : 1 ≤ task.number ∧ task.number < a.board.nextTaskNumber
  title : TextWithin 200 task.title
  titled : 1 ≤ (strip task.title).length
  description : ∀ s ∈ task.description, TextWithin 10000 s
  customValues : ∃ kept, validateValues lib.fields fields task.customValues = .ok kept
  customValues_distinct : task.customValues.Distinct
  customValues_nul : nulFree task.customValues = true
  users : ∀ ref ∈ Authority.taskUsers [task], ∃ user,
    lookupBy UserRow.ref ref a.users = some user ∧ UserOk user
  updated : task.createdAt.instant ≤ task.updatedAt.instant

/-- The invariant of a board and its limits. The operations of the tracker
keep positions without gaps and number tasks in turn. -/
structure Sound (lib : Library F) (fields : List TrackerField) (a : Authority F) : Prop where
  channel : RefOk a.board.channel
  guild : RefOk a.board.guild
  origin : a.board.channel.domain = a.board.guild.domain
  keyPrefix : keyPrefixPattern a.board.keyPrefix = true
  customFields : a.board.customFields = .arr (fields.map dumpField)
  fields_ok : fieldDefinitions lib.fields a.board.customFields = .ok fields
  nextTaskNumber : 1 ≤ a.board.nextTaskNumber ∧ a.board.nextTaskNumber ≤ maxDatabaseSnowflake
  updated : a.board.createdAt.instant ≤ a.board.updatedAt.instant
  lanes_count : a.lanes ≠ [] ∧ a.lanes.length ≤ maxTrackerLanes
  lanes_nodup : (a.lanes.map LaneRow.ref).Nodup
  lane_positions : (a.lanes.map LaneRow.position).Perm (List.range a.lanes.length)
  lanes : ∀ lane ∈ a.lanes, LaneOk a.board lane
  tasks_count : a.tasks.length ≤ maxTrackerTasks
  tasks_order : a.tasks.Pairwise fun t u => t.ref.id < u.ref.id
  numbers_nodup : (a.tasks.map TaskRow.number).Nodup
  task_positions : ∀ lane, ((a.tasks.filter fun t => t.lane = lane).map TaskRow.position).Perm
    (List.range (a.tasks.filter fun t => t.lane = lane).length)
  tasks : ∀ task ∈ a.tasks, TaskOk lib fields a task

/-! ## Trees that pass -/

section

variable (lib : Library F)

/-- A tree that the reader always accepts. -/
structure Light (depth : Nat) (v : Json F) : Prop where
  distinct : v.Distinct
  floatFree : v.FloatFree
  fits : FitsAt lib depth v

/-- A tree that is written faithfully, and that the reader accepts exactly
under a condition. -/
structure Carried (depth : Nat) (p : Prop) (v : Json F) : Prop where
  distinct : v.Distinct
  floats : v.EveryFloat fun x => lib.fields.small x = true
  fits_iff : FitsAt lib depth v ↔ p

variable {lib} {depth : Nat}

theorem Light.carried {v : Json F} (h : Light lib depth v) : Carried lib depth True v :=
  ⟨h.distinct, h.floatFree.everyFloat, iff_true_intro h.fits⟩

theorem light_null (hdepth : depth ≤ 24) : Light lib depth .null :=
  ⟨trivial, trivial, fitsAt_null hdepth⟩

theorem light_bool (hdepth : depth ≤ 24) (b : Bool) : Light lib depth (.bool b) :=
  ⟨trivial, trivial, fitsAt_bool hdepth b⟩

theorem light_nat (hdepth : depth ≤ 24) {n : Nat} (h : n ≤ 9007199254740991) :
    Light lib depth (.int n) := by
  refine ⟨trivial, trivial, (fitsAt_int_iff hdepth).mpr ?_⟩
  rw [Json.maxSafeJsonInteger]
  omega

theorem light_str (hdepth : depth ≤ 24) {s : String} (h : TextOk s) : Light lib depth (.str s) :=
  ⟨trivial, trivial, fitsAt_str hdepth h⟩

theorem light_text (hdepth : depth ≤ 24) {s : String} {n : Nat} (h : TextWithin n s)
    (hn : n ≤ 262144) : Light lib depth (.str s) :=
  light_str hdepth (textOk_of_length h.2 h.1 hn)

theorem light_optionalText (hdepth : depth ≤ 24) {s : Option String} {n : Nat}
    (h : ∀ t ∈ s, TextWithin n t) (hn : n ≤ 262144) : Light lib depth (optionalText s) := by
  cases s with
  | none => exact light_null hdepth
  | some t => exact light_text hdepth (h t rfl) hn

theorem light_id (hdepth : depth ≤ 24) {n : Nat} (h : n ≤ maxDatabaseSnowflake) :
    Light lib depth (idText n) := light_str hdepth (textOk_toString h)

theorem light_time (hdepth : depth ≤ 24) (t : CivilTime) : Light lib depth (timeText t) :=
  light_str hdepth (textOk_isoformat t)

theorem light_optionalTime (hdepth : depth ≤ 24) (t : Option CivilTime) :
    Light lib depth (optionalTime t) := by
  cases t with
  | none => exact light_null hdepth
  | some t => exact light_time hdepth t

theorem light_arr (hdepth : depth ≤ 24) {items : List (Json F)} (hlength : items.length ≤ 4096)
    (h : ∀ v ∈ items, Light lib (depth + 1) v) : Light lib depth (.arr items) := by
  refine ⟨?_, ?_, fitsAt_arr hdepth hlength fun v hv => (h v hv).fits⟩
  · rw [Json.Distinct, Json.distinctItems_iff]
    exact fun v hv => (h v hv).distinct
  · rw [Json.FloatFree, Json.floatFreeItems_iff]
    exact fun v hv => (h v hv).floatFree

theorem light_obj (hdepth : depth ≤ 24) {members : List (String × Json F)}
    (hlength : members.length ≤ 1024) (hnodup : (members.map Prod.fst).Nodup)
    (hkeys : ∀ key ∈ members.map Prod.fst, KeyOk key)
    (h : ∀ m ∈ members, Light lib (depth + 1) m.2) : Light lib depth (.obj members) := by
  refine ⟨?_, ?_, fitsAt_obj hdepth hlength hkeys fun m hm => (h m hm).fits⟩
  · rw [Json.Distinct, Json.distinctMembers_iff]
    exact ⟨hnodup, fun m hm => (h m hm).distinct⟩
  · rw [Json.FloatFree, Json.floatFreeMembers_iff]
    exact fun m hm => (h m hm).floatFree

/-- The items of a list each have their own condition. -/
theorem carried_arr (hdepth : depth ≤ 24) {α : Type} {p : α → Prop} {f : α → Json F}
    {items : List α} (hlength : items.length ≤ 4096)
    (h : ∀ a ∈ items, Carried lib (depth + 1) (p a) (f a)) :
    Carried lib depth (∀ a ∈ items, p a) (.arr (items.map f)) := by
  refine ⟨?_, ?_, ?_⟩
  · rw [Json.Distinct, Json.distinctItems_iff, List.forall_mem_map]
    exact fun a ha => (h a ha).distinct
  · rw [Json.EveryFloat, Json.everyFloatItems_iff, List.forall_mem_map]
    exact fun a ha => (h a ha).floats
  · constructor
    · exact fun hfits a ha => (h a ha).fits_iff.mp (hfits.item (List.mem_map_of_mem ha))
    · intro hp
      refine fitsAt_arr hdepth (by rwa [List.length_map]) ?_
      rw [List.forall_mem_map]
      exact fun a ha => (h a ha).fits_iff.mpr (hp a ha)

/-- All members of an object pass but one, which has a condition. -/
theorem carried_obj (hdepth : depth ≤ 24) {members : List (String × Json F)}
    (hlength : members.length ≤ 1024) (hnodup : (members.map Prod.fst).Nodup)
    (hkeys : ∀ key ∈ members.map Prod.fst, KeyOk key) {p : Prop} {v : Json F}
    (hv : Carried lib (depth + 1) p v) (hmem : v ∈ members.map Prod.snd)
    (h : ∀ m ∈ members, Light lib (depth + 1) m.2 ∨ m.2 = v) :
    Carried lib depth p (.obj members) := by
  have heach : ∀ m ∈ members, m.2.Distinct ∧
      m.2.EveryFloat (fun x => lib.fields.small x = true) ∧ (p → FitsAt lib (depth + 1) m.2) := by
    intro m hm
    rcases h m hm with hlight | hspecial
    · exact ⟨hlight.distinct, hlight.floatFree.everyFloat, fun _ => hlight.fits⟩
    · rw [hspecial]
      exact ⟨hv.distinct, hv.floats, hv.fits_iff.mpr⟩
  refine ⟨?_, ?_, ?_⟩
  · rw [Json.Distinct, Json.distinctMembers_iff]
    exact ⟨hnodup, fun m hm => (heach m hm).1⟩
  · rw [Json.EveryFloat, Json.everyFloatMembers_iff]
    exact fun m hm => (heach m hm).2.1
  · constructor
    · intro hfits
      obtain ⟨m, hm, rfl⟩ := List.mem_map.mp hmem
      exact hv.fits_iff.mp (hfits.member hm)
    · exact fun hp => fitsAt_obj hdepth hlength hkeys fun m hm => (heach m hm).2.2 hp

/-! ## Payloads -/

theorem orDefault_arr (items : List (Json F)) : orDefault (.arr items) (.arr []) = .arr items := by
  cases items <;> rfl

theorem orDefault_obj (members : List (String × Json F)) :
    orDefault (.obj members) (.obj []) = .obj members := by
  cases members <;> rfl

section

variable {fields : List TrackerField} {a : Authority F}

theorem Sound.fields_spec (h : Sound lib fields a) :
    fields.length ≤ 50 ∧ ∀ field ∈ fields, FieldOk field := by
  have hfields := h.fields_ok
  rw [h.customFields, fieldDefinitions] at hfields
  rw [ok_bind, bind_eq_ok] at hfields
  obtain ⟨checked, hchecked, hfields⟩ := hfields
  rw [check_bind_eq_ok, ensure_eq_ok, check_bind_eq_ok, check_bind_eq_ok] at hfields
  obtain ⟨hcount, -, -, hfields⟩ := hfields
  obtain rfl : checked = fields := Except.ok.inj hfields
  rw [mapM_eq_ok, List.forall₂_map_left_iff, List.forall₂_same] at hchecked
  exact ⟨hcount.1, fun field hfield => fieldOk_of_trackerField (hchecked field hfield)⟩

theorem keyPrefix_textOk {s : String} (h : keyPrefixPattern s = true) : TextOk s := by
  simp only [keyPrefixPattern, Bool.and_eq_true, decide_eq_true_eq, List.all_eq_true] at h
  refine textOk_of_length (fun hnul => ?_) h.1.1.2 (by decide)
  exact absurd (h.1.2 _ hnul) (by decide)

theorem Sound.light_board (h : Sound lib fields a) (hdepth : depth ≤ 10) {count : Nat}
    (hcount : count ≤ maxTrackerTasks) :
    Light lib depth (trackerBoardSnapshotPayload a.board count) := by
  have hsnowflake : count ≤ maxDatabaseSnowflake := hcount.trans (by decide)
  have hfields : Light lib (depth + 1) (orDefault a.board.customFields (.arr [])) := by
    rw [h.customFields, orDefault_arr]
    obtain ⟨hlength, hfieldOk⟩ := h.fields_spec
    refine light_arr (by omega) (by rw [List.length_map]; omega) fun v hv => ?_
    obtain ⟨field, hfield, rfl⟩ := List.mem_map.mp hv
    obtain ⟨hdistinct, hfree⟩ := dumpField_plain (F := F) field
    exact ⟨hdistinct, hfree, (hfieldOk field hfield).fits (by omega)⟩
  have hdepth' : depth + 1 ≤ 24 := by omega
  refine light_obj (by omega) (Nat.le_of_ble_eq_true rfl) ?_ ?_ ?_
  · simp only [List.map_cons, List.map_nil]
    decide
  · simp only [List.map_cons, List.map_nil]
    decide
  · simp only [List.forall_mem_cons]
    exact ⟨light_id hdepth' h.channel.id_le, light_str hdepth' h.channel.textOk_domain,
      light_id hdepth' h.guild.id_le, light_str hdepth' h.guild.textOk_domain, hfields,
      light_str hdepth' (keyPrefix_textOk h.keyPrefix), light_id hdepth' h.nextTaskNumber.2,
      light_id hdepth' hsnowflake, light_time hdepth' _, light_time hdepth' _,
      light_time hdepth' _, fun _ hm => absurd hm List.not_mem_nil⟩

theorem laneKind_textOk (kind : TrackerLaneKind) : TextOk (laneKindText kind) := by
  cases kind <;> decide

theorem priority_textOk (priority : TrackerPriority) : TextOk (priorityText priority) := by
  cases priority <;> decide

theorem accountType_textOk (type : AccountType) : TextOk (accountTypeText type) := by
  cases type <;> decide

theorem Sound.lane_position_lt (h : Sound lib fields a) {lane : LaneRow} (hlane : lane ∈ a.lanes) :
    lane.position < a.lanes.length :=
  List.mem_range.mp (h.lane_positions.mem_iff.mp (List.mem_map_of_mem hlane))

theorem Sound.light_lane (h : Sound lib fields a) (hdepth : depth ≤ 10) {lane : LaneRow}
    (hlane : lane ∈ a.lanes) : Light lib depth (trackerLaneSnapshotPayload lane) := by
  have hok := h.lanes lane hlane
  have hcolor := hok.color
  have hposition := h.lane_position_lt hlane
  have hcount : a.lanes.length ≤ 50 := h.lanes_count.2
  have hchannel : RefOk lane.channel := hok.channel ▸ h.channel
  have hguild : RefOk lane.guild := hok.guild ▸ h.guild
  have hdepth' : depth + 1 ≤ 24 := by omega
  refine light_obj (by omega) (Nat.le_of_ble_eq_true rfl) ?_ ?_ ?_
  · simp only [List.map_cons, List.map_nil]
    decide
  · simp only [List.map_cons, List.map_nil]
    decide
  · simp only [List.forall_mem_cons]
    exact ⟨light_id hdepth' hok.ref.id_le, light_str hdepth' hok.ref.textOk_domain,
      light_id hdepth' hchannel.id_le, light_str hdepth' hchannel.textOk_domain,
      light_id hdepth' hguild.id_le, light_str hdepth' hguild.textOk_domain,
      light_text hdepth' hok.name (by decide), light_nat hdepth' (by omega),
      light_str hdepth' (laneKind_textOk _), light_bool hdepth' _, light_nat hdepth' (by omega),
      light_time hdepth' _, light_time hdepth' _, fun _ hm => absurd hm List.not_mem_nil⟩

theorem Sound.lane_ref (h : Sound lib fields a) {ref : Ref} (href : ref ∈ a.lanes.map LaneRow.ref) :
    RefOk ref := by
  obtain ⟨lane, hlane, rfl⟩ := List.mem_map.mp href
  exact (h.lanes lane hlane).ref

/-- A task's position is one of those of its lane. -/
theorem Sound.task_position_lt (h : Sound lib fields a) {task : TaskRow F}
    (htask : task ∈ a.tasks) :
    task.position < maxTrackerTasks := by
  have hmem : task ∈ a.tasks.filter fun t => t.lane = task.lane :=
    List.mem_filter.mpr ⟨htask, by simp⟩
  have hlt := List.mem_range.mp ((h.task_positions task.lane).mem_iff.mp (List.mem_map_of_mem hmem))
  have hcount := h.tasks_count
  have hfilter := List.length_filter_le (fun t => decide (t.lane = task.lane)) a.tasks
  omega

theorem TaskOk.user_ref {task : TaskRow F} (h : TaskOk lib fields a task) {ref : Ref}
    (href : ref ∈ Authority.taskUsers [task]) : RefOk ref := by
  obtain ⟨user, huser, hok⟩ := h.users ref href
  exact key_of_lookupBy huser ▸ hok.ref

theorem TaskOk.creator_ref {task : TaskRow F} (h : TaskOk lib fields a task) :
    RefOk task.creator := h.user_ref (by simp [Authority.taskUsers])

theorem TaskOk.assignee_ref {task : TaskRow F} (h : TaskOk lib fields a task) {ref : Ref}
    (href : task.assignee = some ref) : RefOk ref :=
  h.user_ref (by simp [Authority.taskUsers, assignees, href])

/-- The values of a task pass unless there is a float among them. -/
theorem Sound.carried_values (h : Sound lib fields a) (hdepth : depth ≤ 10) {task : TaskRow F}
    (htask : task ∈ a.tasks) :
    Carried lib depth task.customValues.FloatFree (orDefault task.customValues (.obj [])) := by
  have hok := h.tasks task htask
  obtain ⟨kept, hkept⟩ := hok.customValues
  obtain ⟨members, hvalues, hcount, hmembers⟩ := values_spec hok.customValues_distinct hkept
  have hnul := hok.customValues_nul
  have hdistinct := hok.customValues_distinct
  rw [hvalues, nulFree, nulFreeMembers_iff] at hnul
  rw [hvalues] at hdistinct
  rw [hvalues, orDefault_obj]
  refine ⟨hdistinct, ?_, ?_⟩
  · rw [Json.EveryFloat, Json.everyFloatMembers_iff]
    exact fun m hm => (hmembers m hm).2.1.everyFloat
  · constructor
    · exact fun hfits => hfits.floatFree rfl
    · intro hfree
      rw [Json.FloatFree, Json.floatFreeMembers_iff] at hfree
      refine fitsAt_obj (by omega) (by omega) ?_ fun m hm => ?_
      · intro key hkey
        obtain ⟨m, hm, rfl⟩ := List.mem_map.mp hkey
        obtain ⟨field, hfield, hid⟩ := List.mem_map.mp (hmembers m hm).1
        exact hid ▸ (h.fields_spec.2 field hfield).keyOk
      · obtain ⟨-, hshape, hlength⟩ := hmembers m hm
        exact hshape.fits (by omega) hlength (hnul m hm).2 (hfree m hm)

theorem Sound.carried_task (h : Sound lib fields a) (hdepth : depth ≤ 9) {task : TaskRow F}
    (htask : task ∈ a.tasks) :
    Carried lib depth task.customValues.FloatFree (trackerTaskSnapshotPayload task) := by
  have hok := h.tasks task htask
  have hposition : task.position < 5000 := h.task_position_lt htask
  have hchannel : RefOk task.channel := hok.channel ▸ h.channel
  have hguild : RefOk task.guild := hok.guild ▸ h.guild
  have hlane := h.lane_ref hok.lane
  have hcreator := hok.creator_ref
  have hnumber : task.number ≤ maxDatabaseSnowflake :=
    hok.number.2.le.trans h.nextTaskNumber.2
  have hdepth' : depth + 1 ≤ 24 := by omega
  have hassigneeId : Light lib (depth + 1)
      (optionalText (task.assignee.map fun ref => toString ref.id)) := by
    cases hassignee : task.assignee with
    | none => exact light_null hdepth'
    | some ref => exact light_id hdepth' (hok.assignee_ref hassignee).id_le
  have hassigneeDomain : Light lib (depth + 1)
      (optionalText (task.assignee.map UserRef.domain)) := by
    cases hassignee : task.assignee with
    | none => exact light_null hdepth'
    | some ref => exact light_str hdepth' (hok.assignee_ref hassignee).textOk_domain
  refine carried_obj (by omega) (Nat.le_of_ble_eq_true rfl) ?_ ?_
    (h.carried_values (by omega) htask) ?_ ?_
  · simp only [List.map_cons, List.map_nil]
    decide
  · simp only [List.map_cons, List.map_nil]
    decide
  · simp only [List.map_cons, List.mem_cons, true_or, or_true]
  · simp only [List.forall_mem_cons]
    exact ⟨.inl (light_id hdepth' hok.ref.id_le), .inl (light_str hdepth' hok.ref.textOk_domain),
      .inl (light_id hdepth' hchannel.id_le), .inl (light_str hdepth' hchannel.textOk_domain),
      .inl (light_id hdepth' hguild.id_le), .inl (light_str hdepth' hguild.textOk_domain),
      .inl (light_id hdepth' hlane.id_le), .inl (light_str hdepth' hlane.textOk_domain),
      .inl (light_id hdepth' hnumber), .inr trivial,
      .inl (light_text hdepth' hok.title (by decide)),
      .inl (light_optionalText hdepth' hok.description (by decide)),
      .inl (light_str hdepth' (priority_textOk _)), .inl (light_nat hdepth' (by omega)),
      .inl (light_optionalTime hdepth' _), .inl (light_optionalTime hdepth' _),
      .inl (light_id hdepth' hcreator.id_le), .inl (light_str hdepth' hcreator.textOk_domain),
      .inl hassigneeId, .inl hassigneeDomain, .inl (light_time hdepth' _),
      .inl (light_time hdepth' _), fun _ hm => absurd hm List.not_mem_nil⟩

/-! ## Profiles -/

/-- A profile as the tables have it. -/
structure ProfileOk (p : RemoteUserProfile) : Prop where
  ref : RefOk p.ref
  username : usernamePattern p.username = true
  displayName : ∀ s ∈ p.profile.displayName, TextWithin 100 s
  avatarHash : ∀ s ∈ p.profile.avatarHash, TextWithin 128 s
  bannerHash : ∀ s ∈ p.profile.bannerHash, TextWithin 128 s
  bio : ∀ s ∈ p.profile.bio, TextWithin 500 s
  customStatus : ∀ s ∈ p.profile.customStatus, TextWithin 128 s
  profileVersion : 1 ≤ p.profileVersion ∧ p.profileVersion ≤ 2147483647
  e2eeDeviceGeneration : p.e2eeDeviceGeneration ≤ maxDatabaseSnowflake

/-- What a page says of a user. -/
def profileOf (user : UserRow) : RemoteUserProfile where
  ref := user.ref
  accountType :=
    match user.accountType with
    | .account type => type
    | .system => .human
  username := user.username
  profile := user.profile
  profileVersion := user.profileVersion
  e2eeDeviceGeneration := user.e2eeDeviceGeneration

theorem UserOk.profileOk {user : UserRow} (h : UserOk user) : ProfileOk (profileOf user) where
  ref := h.ref
  username := h.username
  displayName := h.displayName
  avatarHash := h.avatarHash
  bannerHash := h.bannerHash
  bio := h.bio
  customStatus := h.customStatus
  profileVersion := h.profileVersion
  e2eeDeviceGeneration := h.e2eeDeviceGeneration

theorem UserOk.profileFromUser_eq {user : UserRow} (h : UserOk user) :
    (profileFromUser user : Except SnapshotError (Json F)) =
      .ok (dumpProfile (profileOf user)) := by
  have hperson := h.person
  unfold profileFromUser dumpProfile profileOf
  cases hkind : user.accountType with
  | system => exact absurd hkind hperson
  | account type => rfl

theorem usernamePattern_textOk {s : String} (h : usernamePattern s = true) : TextOk s := by
  simp only [usernamePattern, Bool.and_eq_true, decide_eq_true_eq, List.all_eq_true] at h
  refine textOk_of_length (fun hnul => ?_) h.1.2 (by decide)
  exact absurd (h.2 _ hnul) (by decide)

/-- A profile passes unless its generation is no safe integer. -/
theorem ProfileOk.carried {p : RemoteUserProfile} (h : ProfileOk p) (hdepth : depth ≤ 10) :
    Carried lib depth (p.e2eeDeviceGeneration ≤ 9007199254740991) (dumpProfile p) := by
  have hdepth' : depth + 1 ≤ 24 := by omega
  have hversion := h.profileVersion
  have hgeneration : Carried lib (depth + 1) (p.e2eeDeviceGeneration ≤ 9007199254740991)
      (.int p.e2eeDeviceGeneration) := by
    refine ⟨trivial, trivial, (fitsAt_int_iff hdepth').trans ?_⟩
    rw [Json.maxSafeJsonInteger]
    omega
  refine carried_obj (by omega) (Nat.le_of_ble_eq_true rfl) ?_ ?_ hgeneration ?_ ?_
  · simp only [List.map_cons, List.map_nil]
    decide
  · simp only [List.map_cons, List.map_nil]
    decide
  · simp only [List.map_cons, List.mem_cons, true_or, or_true]
  · simp only [List.forall_mem_cons]
    exact ⟨.inl (light_id hdepth' h.ref.id_le), .inl (light_str hdepth' h.ref.textOk_domain),
      .inl (light_str hdepth' (accountType_textOk _)),
      .inl (light_str hdepth' (usernamePattern_textOk h.username)),
      .inl (light_optionalText hdepth' h.displayName (by decide)),
      .inl (light_optionalText hdepth' h.avatarHash (by decide)),
      .inl (light_optionalText hdepth' h.bannerHash (by decide)),
      .inl (light_optionalText hdepth' h.bio (by decide)),
      .inl (light_optionalText hdepth' h.customStatus (by decide)),
      .inl (light_nat hdepth' (by omega)), .inr trivial, fun _ hm => absurd hm List.not_mem_nil⟩

/-! ## Pages -/

theorem mem_sortRefs {refs : List Ref} {ref : Ref} : ref ∈ sortRefs refs ↔ ref ∈ refs := by
  rw [sortRefs, List.mem_insertionSort, List.mem_dedup]

theorem nodup_sortRefs (refs : List Ref) : (sortRefs refs).Nodup :=
  (List.perm_insertionSort _ _).nodup_iff.mpr (List.nodup_dedup refs)

theorem length_sortRefs_le (refs : List Ref) : (sortRefs refs).length ≤ refs.length := by
  rw [sortRefs, List.length_insertionSort]
  exact (List.dedup_sublist refs).length_le

section

variable {fields : List TrackerField} {a : Authority F} {tasks : List (TaskRow F)}

/-- The rows of the users that a page names. -/
def pageUsers (a : Authority F) (tasks : List (TaskRow F)) : List UserRow :=
  (sortRefs (Authority.taskUsers tasks)).filterMap fun ref => lookupBy UserRow.ref ref a.users

theorem mem_taskUsers {ref : Ref} :
    ref ∈ Authority.taskUsers tasks ↔ ∃ task ∈ tasks, ref ∈ Authority.taskUsers [task] := by
  simp only [Authority.taskUsers, assignees, List.mem_append, List.mem_map, List.mem_filterMap,
    List.mem_singleton, exists_eq_left, exists_or, and_or_left]

/-- Every user that tasks name has a row. -/
theorem Sound.user_of_task (h : Sound lib fields a) (htasks : tasks ⊆ a.tasks) {ref : Ref}
    (href : ref ∈ Authority.taskUsers tasks) :
    ∃ user, lookupBy UserRow.ref ref a.users = some user ∧ UserOk user := by
  obtain ⟨task, htask, hmem⟩ := mem_taskUsers.mp href
  exact (h.tasks task (htasks htask)).users ref hmem

theorem mem_pageUsers {user : UserRow} :
    user ∈ pageUsers a tasks ↔ user.ref ∈ Authority.taskUsers tasks ∧
      lookupBy UserRow.ref user.ref a.users = some user := by
  rw [pageUsers, List.mem_filterMap]
  constructor
  · rintro ⟨ref, href, huser⟩
    obtain rfl := key_of_lookupBy huser
    exact ⟨mem_sortRefs.mp href, huser⟩
  · rintro ⟨href, huser⟩
    exact ⟨user.ref, mem_sortRefs.mpr href, huser⟩

theorem Sound.pageUser_ok (h : Sound lib fields a) (htasks : tasks ⊆ a.tasks) {user : UserRow}
    (huser : user ∈ pageUsers a tasks) : UserOk user := by
  obtain ⟨href, hlookup⟩ := mem_pageUsers.mp huser
  obtain ⟨other, hother, hok⟩ := h.user_of_task htasks href
  obtain rfl : user = other := Option.some.inj (hlookup.symm.trans hother)
  exact hok

/-- The id that the cursor of a page carries. -/
def cursorId (tasks : List (TaskRow F)) (hasMore : Bool) : Option Nat :=
  if hasMore then tasks.getLast?.map fun task => task.ref.id else none

/-- The tree of a page. -/
def pageTree (lib : Library F) (a : Authority F) (tasks : List (TaskRow F)) (hasMore : Bool) :
    Json F :=
  .obj [("board", trackerBoardSnapshotPayload a.board a.tasks.length),
    ("lanes", .arr (a.lanes.map trackerLaneSnapshotPayload)),
    ("tasks", .arr (tasks.map trackerTaskSnapshotPayload)),
    ("users", .arr ((pageUsers a tasks).map fun user => dumpProfile (profileOf user))),
    ("assignee_member_refs", .arr ((sortRefs (assignees tasks)).map refPayload)),
    ("next_cursor", optionalText ((cursorId tasks hasMore).map
      (trackerSnapshotCursor lib a.board))),
    ("next_cursor_after_task_id", optionalText ((cursorId tasks hasMore).map toString))]

/-- The authority can make the page. -/
theorem Sound.page_eq (h : Sound lib fields a) (htasks : tasks ⊆ a.tasks) {hasMore : Bool}
    (hadvance : hasMore = true → tasks ≠ []) :
    a.page lib tasks hasMore = .ok (pageTree lib a tasks hasMore) := by
  have husers : (pageUsers a tasks).mapM (profileFromUser (F := F)) =
      .ok ((pageUsers a tasks).map fun user => dumpProfile (profileOf user)) := by
    rw [mapM_eq_ok, List.forall₂_map_right_iff, List.forall₂_same]
    exact fun user huser => (h.pageUser_ok htasks huser).profileFromUser_eq
  have hguard : ensure (¬ (hasMore = true ∧ tasks = []))
      (SnapshotError.value "tracker snapshot cannot advance an empty page") = .ok () :=
    ensure_eq_ok.mpr fun hempty => hadvance hempty.1 hempty.2
  rw [Authority.page, trackerSnapshotPagePayload, hguard, ok_bind, ← pageUsers, husers, ok_bind]
  rfl

theorem length_pageUsers_le (a : Authority F) (tasks : List (TaskRow F)) :
    (pageUsers a tasks).length ≤ 2 * tasks.length := by
  refine (List.length_filterMap_le _ _).trans ((length_sortRefs_le _).trans ?_)
  rw [Authority.taskUsers, List.length_append, List.length_map, assignees]
  have hassignees := List.length_filterMap_le TaskRow.assignee tasks
  omega

theorem Sound.assignee_refOk (h : Sound lib fields a) (htasks : tasks ⊆ a.tasks) {ref : Ref}
    (href : ref ∈ assignees tasks) : RefOk ref := by
  obtain ⟨task, htask, hassignee⟩ := List.mem_filterMap.mp href
  exact (h.tasks task (htasks htask)).assignee_ref hassignee

theorem light_ref (hdepth : depth ≤ 20) {ref : Ref} (h : RefOk ref) :
    Light lib depth (refPayload ref) := by
  refine light_obj (by omega) (Nat.le_of_ble_eq_true rfl) ?_ ?_ ?_
  · simp only [List.map_cons, List.map_nil]
    decide
  · simp only [List.map_cons, List.map_nil]
    decide
  · simp only [List.forall_mem_cons]
    exact ⟨light_id (by omega) h.id_le, light_str (by omega) h.textOk_domain,
      fun _ hm => absurd hm List.not_mem_nil⟩

/-- What the reader asks of the values that a page carries. -/
structure Clean (a : Authority F) (tasks : List (TaskRow F)) : Prop where
  values : ∀ task ∈ tasks, task.customValues.FloatFree
  generations : ∀ user ∈ pageUsers a tasks, user.e2eeDeviceGeneration ≤ 9007199254740991

theorem Sound.cursorId_le (h : Sound lib fields a) (htasks : tasks ⊆ a.tasks) {hasMore : Bool}
    {n : Nat} (hn : cursorId tasks hasMore = some n) : n ≤ maxDatabaseSnowflake := by
  unfold cursorId at hn
  split at hn
  · obtain ⟨task, htask, rfl⟩ := Option.map_eq_some_iff.mp hn
    exact (h.tasks task (htasks (List.mem_of_getLast? htask))).ref.id_le
  · cases hn

/-- The members of a page, the two with conditions of their own apart. -/
theorem Sound.page_members (h : Sound lib fields a) (htasks : tasks ⊆ a.tasks)
    (hcount : tasks.length ≤ 256) (hasMore : Bool) :
    Carried lib 1 (∀ task ∈ tasks, task.customValues.FloatFree)
        (.arr (tasks.map trackerTaskSnapshotPayload)) ∧
      Carried lib 1 (∀ user ∈ pageUsers a tasks, user.e2eeDeviceGeneration ≤ 9007199254740991)
        (.arr ((pageUsers a tasks).map fun user => dumpProfile (profileOf user))) ∧
      Light lib 1 (trackerBoardSnapshotPayload a.board a.tasks.length) ∧
      Light lib 1 (.arr (a.lanes.map trackerLaneSnapshotPayload)) ∧
      Light lib 1 (.arr ((sortRefs (assignees tasks)).map refPayload)) ∧
      Light lib 1 (optionalText ((cursorId tasks hasMore).map
        (trackerSnapshotCursor lib a.board))) ∧
      Light lib 1 (optionalText ((cursorId tasks hasMore).map toString)) := by
  have husers := length_pageUsers_le a tasks
  have hlanes : a.lanes.length ≤ 50 := h.lanes_count.2
  have hassignees : (sortRefs (assignees tasks)).length ≤ 256 :=
    (length_sortRefs_le _).trans ((List.length_filterMap_le _ _).trans hcount)
  refine ⟨?_, ?_, h.light_board (by omega) h.tasks_count, ?_, ?_, ?_, ?_⟩
  · exact carried_arr (by omega) (by omega) fun task htask =>
      h.carried_task (by omega) (htasks htask)
  · exact carried_arr (by omega) (by omega) fun user huser =>
      (h.pageUser_ok htasks huser).profileOk.carried (by omega)
  · refine light_arr (by omega) (by rw [List.length_map]; omega) ?_
    rw [List.forall_mem_map]
    exact fun lane hlane => h.light_lane (by omega) hlane
  · refine light_arr (by omega) (by rw [List.length_map]; omega) ?_
    rw [List.forall_mem_map]
    exact fun ref href => light_ref (by omega) (h.assignee_refOk htasks (mem_sortRefs.mp href))
  · cases hid : cursorId tasks hasMore with
    | none => exact light_null (by omega)
    | some n =>
      refine light_str (by omega) (textOk_of_plain (trackerSnapshotCursor_plain lib a.board n)
        (length_trackerSnapshotCursor_le lib h.channel h.guild (h.cursorId_le htasks hid))
        (by decide))
  · cases hid : cursorId tasks hasMore with
    | none => exact light_null (by omega)
    | some n => exact light_id (by omega) (h.cursorId_le htasks hid)

/-- A page is written faithfully, and the reader accepts it exactly if its
values are clean and there are not too many of them. -/
theorem Sound.page_carried (h : Sound lib fields a) (htasks : tasks ⊆ a.tasks)
    (hcount : tasks.length ≤ 256) (hasMore : Bool) :
    Carried lib 0 (Clean a tasks) (pageTree lib a tasks hasMore) := by
  obtain ⟨hvalues, husers, hboard, hlanes, hrefs, hcursor, hafter⟩ :=
    h.page_members htasks hcount hasMore
  refine ⟨?_, ?_, ?_⟩
  · rw [pageTree, Json.Distinct, Json.distinctMembers_iff]
    refine ⟨by simp only [List.map_cons, List.map_nil]; decide, ?_⟩
    simp only [List.forall_mem_cons]
    exact ⟨hboard.distinct, hlanes.distinct, hvalues.distinct, husers.distinct, hrefs.distinct,
      hcursor.distinct, hafter.distinct, fun _ hm => absurd hm List.not_mem_nil⟩
  · rw [pageTree, Json.EveryFloat, Json.everyFloatMembers_iff]
    simp only [List.forall_mem_cons]
    exact ⟨hboard.floatFree.everyFloat, hlanes.floatFree.everyFloat, hvalues.floats,
      husers.floats, hrefs.floatFree.everyFloat, hcursor.floatFree.everyFloat,
      hafter.floatFree.everyFloat, fun _ hm => absurd hm List.not_mem_nil⟩
  · constructor
    · intro hfits
      refine ⟨hvalues.fits_iff.mp ?_, husers.fits_iff.mp ?_⟩
      · exact hfits.member (m := ("tasks", _)) (by simp only [List.mem_cons, true_or, or_true])
      · exact hfits.member (m := ("users", _)) (by simp only [List.mem_cons, true_or, or_true])
    · intro hclean
      refine fitsAt_obj (by omega) (Nat.le_of_ble_eq_true rfl) ?_ ?_
      · simp only [List.map_cons, List.map_nil]
        decide
      · simp only [List.forall_mem_cons]
        exact ⟨hboard.fits, hlanes.fits, hvalues.fits_iff.mpr hclean.values,
          husers.fits_iff.mpr hclean.generations, hrefs.fits, hcursor.fits, hafter.fits,
          fun _ hm => absurd hm List.not_mem_nil⟩

theorem Sound.page_accepted_iff (h : Sound lib fields a) (htasks : tasks ⊆ a.tasks)
    (hcount : tasks.length ≤ 256) (hasMore : Bool) :
    Accepted lib (pageTree lib a tasks hasMore) ↔
      (pageTree lib a tasks hasMore).nodes ≤ 16384 ∧ Clean a tasks := by
  rw [accepted_iff, (h.page_carried htasks hcount hasMore).fits_iff]

end

end

end

end TrackerSync

end Kaede
