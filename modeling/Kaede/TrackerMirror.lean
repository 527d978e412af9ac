import Mathlib.Algebra.Group.Action.Defs
import Mathlib.Algebra.Order.BigOperators.Group.List
import Kaede.ProfileConvergence
import Kaede.TrackerFidelity

/-!
# The replica's rows mirror the authority's

Applying the snapshot of a sound board gives the rows of the authority, less
the assignees that are no members here and the nonces of clients
(`Sound.apply_eq`). Two things stand in the way, and `mirrored_iff` says when
they do. The reader of pages refuses a float among the values of a task, a
user whose device generation is no safe integer, and a page with more values
than it takes. And a replica that has the version of the board already, but
another column of it, writes the time of its own clock for the version.
-/

namespace Kaede

namespace TrackerSync

open Replication (RemoteUserProfile UserRow Users maxDatabaseSnowflake normalizeDomain strip)
open TrackerFields

variable {F : Type} {lib : Library F} {fields : List TrackerField} {a : Authority F}

/-! ## Profiles that are known -/

section

open Replication.Users (opaqueRow opaqueRowFor resolvedRow rowFor_of_some sameExcept_delegated
  updateResolved updateResolved_fresh upsert_eq)

/-- The row of a user whose profile has been taken. -/
def knownRow (p : RemoteUserProfile) : UserRow :=
  resolvedRow (opaqueRow p.ref p.username p.ref.domain) p

theorem knownRow_remote (p : RemoteUserProfile) : (knownRow p).Remote where
  notLocal := rfl
  charged := ⟨_, rfl⟩
  opaqueDevices := by
    intro hopen
    cases hopen

/-- A profile that has been taken is resolved again. -/
theorem resolveDelegatedProfile_known {s : Users} {p : RemoteUserProfile}
    (hid : p.ref.id ≤ maxDatabaseSnowflake) (hremote : p.ref.domain ≠ s.localDomain)
    (hrow : s.user? p.ref = some (knownRow p)) (aliases : List String) (authority : String) :
    ∃ s', s.resolveDelegatedProfile aliases p authority = .ok s' := by
  by_cases hhome : p.ref.domain = authority ∨ p.ref.domain = s.localDomain
  · have hfound : s.rowFor aliases p = .ok (s, knownRow p) :=
      rowFor_of_some hremote hrow (knownRow_remote p)
    have hupdated : updateResolved (knownRow p) p = .ok (knownRow p) := updateResolved_fresh _ p
    refine ⟨s.setUser (knownRow p), (if_pos hhome).trans ?_⟩
    rw [upsert_eq hid hremote hfound rfl, hupdated]
    rfl
  · refine ⟨s, (if_neg hhome).trans ?_⟩
    have hfound : s.opaqueRowFor aliases p authority = .ok (s, knownRow p) := by
      rw [opaqueRowFor, hrow]
    refine (ensure_bind hid).trans ((bind_of_eq_ok hfound).trans ?_)
    exact (ensure_bind rfl).trans (ensure_bind fun hchanged => hchanged.2 rfl)

/-- Each profile leaves the rows of the others as they are. -/
theorem resolveProfiles_known {profiles : List RemoteUserProfile} {s : Users}
    (hnodup : (profiles.map RemoteUserProfile.ref).Nodup)
    (hrefs : ∀ p ∈ profiles, p.ref.id ≤ maxDatabaseSnowflake ∧ p.ref.domain ≠ s.localDomain)
    (hrows : ∀ p ∈ profiles, s.user? p.ref = some (knownRow p)) (authority : String)
    (aliases : Ref → List String) :
    ∃ s', resolveProfiles authority aliases s profiles = .ok s' := by
  induction profiles generalizing s with
  | nil => exact ⟨s, rfl⟩
  | cons p profiles ih =>
    obtain ⟨hnew, hnodup⟩ := List.nodup_cons.mp hnodup
    obtain ⟨⟨hid, hremote⟩, hrefs⟩ := List.forall_mem_cons.mp hrefs
    obtain ⟨hrow, hrows⟩ := List.forall_mem_cons.mp hrows
    obtain ⟨s', hs'⟩ := resolveDelegatedProfile_known hid hremote hrow (aliases p.ref) authority
    have hsame := sameExcept_delegated hs'
    obtain ⟨s'', hs''⟩ := @ih s' hnodup
      (fun q hq => by
        rw [hsame.localDomain]
        exact hrefs q hq)
      (fun q hq => by
        rw [hsame.others q.ref fun heq => hnew (heq ▸ List.mem_map_of_mem hq)]
        exact hrows q hq)
    refine ⟨s'', ?_⟩
    rw [resolveProfiles, hs']
    exact hs''

/-- A server that has taken the profiles. -/
def knownUsers (profiles : List RemoteUserProfile) : Users where
  localDomain := ""
  remoteUsersPerIntroducer := 0
  rows := profiles.map knownRow

theorem RefOk.domain_ne {ref : Ref} (h : RefOk ref) : ref.domain ≠ "" := by
  intro hempty
  have hrefused : normalizeDomain "" ≠ .ok "" := by decide
  have hdomain := h.domain_eq
  rw [hempty] at hdomain
  exact hrefused hdomain

theorem resolveProfiles_knownUsers {profiles : List RemoteUserProfile}
    (hok : ∀ p ∈ profiles, ProfileOk p) (hnodup : (profiles.map RemoteUserProfile.ref).Nodup)
    (authority : String) (aliases : Ref → List String) :
    ∃ s', resolveProfiles authority aliases (knownUsers profiles) profiles = .ok s' := by
  refine resolveProfiles_known hnodup (fun p hp => ⟨(hok p hp).ref.id_le, (hok p hp).ref.domain_ne⟩)
    (fun p hp => ?_) authority aliases
  have hkeys : ((profiles.map knownRow).map UserRow.ref).Nodup := by
    rw [List.map_map]
    exact hnodup
  exact lookupBy_of_mem hkeys (List.mem_map_of_mem hp)

end

/-! ## Applying -/

/-- A task as a replica has it. -/
def mirrorTask (members : List Ref) (task : TaskRow F) : TaskRow F :=
  { task with
    assignee := task.assignee.filter (· ∈ members)
    clientNonce := none
    clientRequestHash := none }

/-- The rows of the authority as a replica has them. -/
def mirror (a : Authority F) (members : List Ref) : Replica F a.board.channel a.board.guild where
  board := some a.board
  lanes := a.lanes
  tasks := a.tasks.map (mirrorTask members)
  board_ref := fun _ hb => Option.some.inj hb ▸ ⟨rfl, rfl⟩

theorem mapM_map_ok {α β γ ε : Type} {f : β → Except ε γ} {enc : α → β} {g : α → γ} {l : List α}
    (h : ∀ x ∈ l, f (enc x) = .ok (g x)) : (l.map enc).mapM f = .ok (l.map g) := by
  rw [mapM_eq_ok, List.forall₂_map_left_iff, List.forall₂_map_right_iff, List.forall₂_same]
  exact h

/-- Reading what was written. -/
theorem mapM_map_self {α β ε : Type} {f : β → Except ε α} {enc : α → β} {l : List α}
    (h : ∀ x ∈ l, f (enc x) = .ok x) : (l.map enc).mapM f = .ok l := by
  have hread : (l.map enc).mapM f = .ok (l.map fun x => x) := mapM_map_ok h
  rwa [List.map_id'] at hread

theorem listOf_arr (items : List (Json F)) (e : SnapshotError) :
    listOf (.arr items) e = .ok items := rfl

/-- The rows that are made of a snapshot over those of a replica. -/
def mirrorOver [DecidableEq F] (now : CivilTime) {a : Authority F}
    (replica : Replica F a.board.channel a.board.guild) (members : List Ref) :
    Replica F a.board.channel a.board.guild :=
  { mirror a members with
    board := some (flushed now replica.board a.board)
    board_ref := fun _ hb =>
      Option.some.inj hb ▸ ⟨flushed_channel now replica.board a.board, flushed_guild _ _ _⟩ }

theorem mirrorOver_eq [DecidableEq F] {now : CivilTime}
    {replica : Replica F a.board.channel a.board.guild} {members : List Ref}
    (h : ∀ b ∈ replica.board, ¬ Restamps b a.board) :
    mirrorOver now replica members = mirror a members := by
  unfold mirrorOver
  simp only [flushed_of_not_restamps h]
  rfl

theorem Sound.boardRow_eq [DecidableEq F] (h : Sound lib fields a) (now : CivilTime)
    (replica : Replica F a.board.channel a.board.guild) :
    boardRow lib now replica (trackerBoardSnapshotPayload a.board a.tasks.length) =
      .ok ⟨flushed now replica.board a.board, flushed_channel _ _ _, flushed_guild _ _ _⟩ := by
  have hfields : orDefault a.board.customFields (.arr []) = a.board.customFields := by
    rw [h.customFields, orDefault_arr]
  obtain ⟨hchannel, hguild⟩ := replica.refs_eq
  refine Eq.trans (bind_of_eq_ok (textAt_ok rfl)) ?_
  refine Eq.trans (bind_of_eq_ok (snowflake_idText h.nextTaskNumber.2 _)) ?_
  refine Eq.trans (bind_of_eq_ok (dateAt_ok rfl)) ?_
  refine Eq.trans (bind_of_eq_ok (dateAt_ok rfl)) ?_
  refine congrArg Except.ok (Subtype.ext (congrArg (flushed now replica.board) ?_))
  change ({ channel := _, guild := _, customFields := orDefault a.board.customFields (.arr [])
            keyPrefix := a.board.keyPrefix, nextTaskNumber := a.board.nextTaskNumber
            createdAt := a.board.createdAt, updatedAt := a.board.updatedAt } : BoardRow F) = a.board
  rw [hchannel, hguild, hfields]

theorem Sound.laneRow_eq (h : Sound lib fields a) {lane : LaneRow} (hlane : lane ∈ a.lanes) :
    laneRow lib a.board.channel a.board.guild (trackerLaneSnapshotPayload lane) = .ok lane := by
  have hok := h.lanes lane hlane
  have hposition : lane.position < maxTrackerLanes :=
    (h.lane_position_lt hlane).trans_le h.lanes_count.2
  refine Eq.trans (bind_of_eq_ok (storedRef_ok hok.ref rfl rfl)) ?_
  refine Eq.trans (bind_of_eq_ok (textAt_ok rfl)) ?_
  refine Eq.trans (bind_of_eq_ok (intBelow_nat hok.color _)) ?_
  refine Eq.trans (bind_of_eq_ok (textAt_ok rfl)) ?_
  refine Eq.trans (found_bind (laneKinds_lookup lane.kind)) ?_
  refine Eq.trans (bind_of_eq_ok (intBelow_nat hposition _)) ?_
  refine Eq.trans (bind_of_eq_ok (dateAt_ok rfl)) ?_
  refine Eq.trans (bind_of_eq_ok (dateAt_ok rfl)) ?_
  rw [← hok.channel, ← hok.guild]
  rfl

theorem TaskOk.storedAssignee {task : TaskRow F} (h : TaskOk lib fields a task) :
    (if ((trackerTaskSnapshotPayload task).get "assignee_id").isNull then .ok none
      else some <$> storedRef (trackerTaskSnapshotPayload task) "assignee_id" "assignee_domain") =
      (.ok task.assignee : Except SnapshotError (Option Ref)) := by
  cases hassignee : task.assignee with
  | none =>
    have hid : (trackerTaskSnapshotPayload task).get "assignee_id" = .null := by
      rw [trackerTaskSnapshotPayload, hassignee]
      rfl
    rw [hid]
    rfl
  | some ref =>
    have hid : (trackerTaskSnapshotPayload task).get "assignee_id" = idText ref.id := by
      rw [trackerTaskSnapshotPayload, hassignee]
      rfl
    have hdomain : (trackerTaskSnapshotPayload task).get "assignee_domain" = .str ref.domain := by
      rw [trackerTaskSnapshotPayload, hassignee]
      rfl
    rw [storedRef_ok (h.assignee_ref hassignee) hid hdomain, hid]
    rfl

theorem TaskOk.values_kept {task : TaskRow F} (h : TaskOk lib fields a task) :
    orDefault task.customValues (.obj []) = task.customValues := by
  obtain ⟨kept, hkept⟩ := h.customValues
  obtain ⟨members, hmembers, -⟩ := values_spec h.customValues_distinct hkept
  rw [hmembers, orDefault_obj]

theorem str?_optionalText (s : Option String) : (optionalText s : Json F).str? = s := by
  cases s <;> rfl

theorem Sound.taskRow_eq (h : Sound lib fields a) {task : TaskRow F} (htask : task ∈ a.tasks)
    {profiles applicable members : List Ref} (hcreator : task.creator ∈ profiles)
    (happlicable : ∀ ref, task.assignee = some ref → (ref ∈ applicable ↔ ref ∈ members)) :
    taskRow lib a.board.channel a.board.guild profiles applicable
      (trackerTaskSnapshotPayload task) = .ok (mirrorTask members task) := by
  have hok := h.tasks task htask
  have hnumber : task.number ≤ maxDatabaseSnowflake := hok.number.2.le.trans h.nextTaskNumber.2
  have hassignee : task.assignee.filter (· ∈ applicable) = task.assignee.filter (· ∈ members) := by
    cases hsome : task.assignee with
    | none => rfl
    | some ref =>
      rw [Option.filter_some, Option.filter_some]
      simp only [happlicable ref hsome]
  refine Eq.trans (bind_of_eq_ok (storedRef_ok hok.creator_ref rfl rfl)) ?_
  refine Eq.trans (ensure_bind hcreator) ?_
  refine Eq.trans (bind_of_eq_ok hok.storedAssignee) ?_
  refine Eq.trans (bind_of_eq_ok (storedRef_ok hok.ref rfl rfl)) ?_
  refine Eq.trans (bind_of_eq_ok (storedRef_ok (h.lane_ref hok.lane) rfl rfl)) ?_
  refine Eq.trans (bind_of_eq_ok (snowflake_idText hnumber _)) ?_
  refine Eq.trans (bind_of_eq_ok (textAt_ok rfl)) ?_
  refine Eq.trans (bind_of_eq_ok (textAt_ok rfl)) ?_
  refine Eq.trans (found_bind (priorities_lookup task.priority)) ?_
  refine Eq.trans (bind_of_eq_ok (intBelow_nat (h.task_position_lt htask) _)) ?_
  refine Eq.trans (bind_of_eq_ok (optionalDatetime_optionalTime task.dueAt _)) ?_
  refine Eq.trans (bind_of_eq_ok (optionalDatetime_optionalTime task.completedAt _)) ?_
  refine Eq.trans (bind_of_eq_ok (dateAt_ok rfl)) ?_
  refine Eq.trans (bind_of_eq_ok (dateAt_ok rfl)) ?_
  refine congrArg Except.ok ?_
  rw [hassignee, mirrorTask, ← hok.channel, ← hok.guild]
  congr 1
  · exact hok.values_kept
  · exact str?_optionalText task.description

/-- What applying a snapshot of a sound board does: it can fail for a
profile that cannot be resolved, or for the storage of the guild. -/
theorem Sound.apply_eq [DecidableEq F] (h : Sound lib fields a) {profiles : List RemoteUserProfile}
    {refs : List Ref} (hnames : Names a profiles refs) (around : Surroundings)
    (replica : Replica F a.board.channel a.board.guild) :
    applyTrackerSnapshot lib around replica (snapshotTree a profiles refs) = (do
      let users ← resolveProfiles a.board.guild.domain around.aliases around.users profiles
      around.admitted
      .ok (users, mirrorOver around.now replica around.members)) := by
  have hprofiles : (profiles.map (dumpProfile (F := F))).mapM validateProfile = .ok profiles :=
    mapM_map_self fun p hp => (hnames.profiles_ok p hp).validate
  have hrefs : (refs.map (refPayload (F := F))).mapM (fun raw =>
      trackerRef lib raw "assignee member") = .ok refs :=
    mapM_map_self fun ref href => trackerRef_refPayload
      (h.assignee_refOk (List.Subset.refl _) ((hnames.mem_refs ref).mp href)) _
  have hlanes : (a.lanes.map trackerLaneSnapshotPayload).mapM
      (laneRow lib a.board.channel a.board.guild) = .ok a.lanes :=
    mapM_map_self fun lane hlane => h.laneRow_eq hlane
  have htasks : (a.tasks.map trackerTaskSnapshotPayload).mapM
      (taskRow lib a.board.channel a.board.guild (profiles.map RemoteUserProfile.ref)
        (refs.filter (· ∈ around.members))) = .ok (a.tasks.map (mirrorTask around.members)) := by
    refine mapM_map_ok fun task htask => h.taskRow_eq htask ?_ fun ref hassignee => ?_
    · rw [hnames.mem_profiles, mem_taskUsers]
      exact ⟨task, htask, List.mem_append_left _ List.mem_cons_self⟩
    · have hmem : ref ∈ refs :=
        (hnames.mem_refs ref).mpr (List.mem_filterMap.mpr ⟨task, htask, hassignee⟩)
      rw [List.mem_filter, decide_eq_true_eq, and_iff_right hmem]
  refine Eq.trans (bind_of_eq_ok (h.validateTrackerSnapshot hnames)) ?_
  refine Eq.trans (bind_of_eq_ok (listOf_arr _ _)) ?_
  refine Eq.trans (bind_of_eq_ok (listOf_arr _ _)) ?_
  refine Eq.trans (bind_of_eq_ok (listOf_arr _ _)) ?_
  refine Eq.trans (bind_of_eq_ok (listOf_arr _ _)) ?_
  refine Eq.trans (bind_of_eq_ok hprofiles) ?_
  refine bind_congr fun users => ?_
  refine Eq.trans (bind_of_eq_ok hrefs) ?_
  refine Eq.trans (bind_of_eq_ok (h.boardRow_eq around.now replica)) ?_
  exact Eq.trans (bind_of_eq_ok hlanes) (bind_of_eq_ok htasks)

/-! ## Fidelity -/

/-- The pages are fetched without an error, the snapshot they add up to is
valid, and applying it to the replica makes the mirror of the authority,
unless a profile or the storage of the guild stands in the way. -/
def Mirrored [DecidableEq F] (lib : Library F) (a : Authority F) (responses : List Response)
    (replica : Replica F a.board.channel a.board.guild) : Prop :=
  ∃ snapshot profiles, Profiled a profiles ∧
    fetchTrackerSnapshotOnce lib a.board.guild a.board.channel responses = .ok snapshot ∧
    validateTrackerSnapshot lib snapshot a.board.guild a.board.channel = .ok () ∧
    ∀ around : Surroundings, applyTrackerSnapshot lib around replica snapshot = (do
      let users ← resolveProfiles a.board.guild.domain around.aliases around.users profiles
      around.admitted
      .ok (users, mirror a around.members))

theorem boardYear_ok : 1 ≤ 2024 ∧ 2024 ≤ 9999 := by decide

theorem boardMonth_ok : 1 ≤ 1 ∧ 1 ≤ 12 := by decide

theorem boardDay_ok : 1 ≤ 1 ∧ 1 ≤ daysInMonth 2024 1 := by decide

theorem boardMicrosecond_ok (n : Nat) : n % 1000 < microsecondsPerDay :=
  (Nat.mod_lt n (by decide)).trans (by decide)

/-- A thousand times, a microsecond apart. -/
def boardTime (n : Nat) : CivilTime :=
  ⟨2024, 1, 1, n % 1000, boardYear_ok, boardMonth_ok, boardDay_ok, boardMicrosecond_ok n⟩

theorem boardTime_le (v : Nat) : (boardTime 0).instant ≤ (boardTime v).instant :=
  Nat.add_le_add_left (Nat.zero_le _) _

theorem boardTime_lt {v w : Nat} (h : v % 1000 < w % 1000) :
    (boardTime v).instant < (boardTime w).instant :=
  Nat.add_lt_add_left h _

theorem exists_time_ne (t : CivilTime) : ∃ now, now ≠ t := by
  by_cases h : boardTime 0 = t
  · exact ⟨boardTime 1, h ▸ by decide⟩
  · exact ⟨boardTime 0, h⟩

/-- A replica with the version of the board and another column of it gets
another version. -/
theorem Sound.apply_restamps [DecidableEq F] (h : Sound lib fields a)
    {replica : Replica F a.board.channel a.board.guild} {b : BoardRow F} (hb : b ∈ replica.board)
    (hrestamps : Restamps b a.board) {profiles : List RemoteUserProfile} {refs : List Ref}
    (hnames : Names a profiles refs) :
    ∃ around users replica', applyTrackerSnapshot lib around replica
      (snapshotTree a profiles refs) = .ok (users, replica') ∧ replica'.board ≠ some a.board := by
  obtain ⟨now, hnow⟩ := exists_time_ne a.board.updatedAt
  obtain ⟨users, husers⟩ := resolveProfiles_knownUsers hnames.profiles_ok hnames.profiles_nodup
    a.board.guild.domain fun _ => []
  let around : Surroundings := ⟨knownUsers profiles, fun _ => [], [], .ok (), now⟩
  refine ⟨around, users, mirrorOver now replica [], ?_, fun hsame => hnow ?_⟩
  · rw [h.apply_eq hnames around replica, bind_of_eq_ok husers]
    rfl
  · have hboard : flushed now (some b) a.board = a.board := by
      rw [← Option.mem_def.mp hb]
      exact Option.some.inj hsame
    rw [flushed_of_restamps hrestamps] at hboard
    exact congrArg BoardRow.updatedAt hboard

theorem length_pageTrees (lib : Library F) (a : Authority F) (parts : List (List (TaskRow F))) :
    (pageTrees lib a parts).length = parts.length := by
  induction parts with
  | nil => rfl
  | cons tasks rest ih => rw [pageTrees, List.length_cons, List.length_cons, ih]

theorem mem_pageTrees {parts : List (List (TaskRow F))} {page : Json F}
    (h : page ∈ pageTrees lib a parts) :
    ∃ tasks ∈ parts, ∃ hasMore, page = pageTree lib a tasks hasMore := by
  induction parts with
  | nil => cases h
  | cons tasks rest ih =>
    rw [pageTrees] at h
    rcases List.mem_cons.mp h with rfl | h
    · exact ⟨tasks, List.mem_cons_self, _, rfl⟩
    · obtain ⟨tasks', htasks', hpage⟩ := ih h
      exact ⟨tasks', List.mem_cons_of_mem _ htasks', hpage⟩

theorem nodes_arr_le (items : List (Json F)) {n : Nat} (h : ∀ v ∈ items, v.nodes ≤ n) :
    (Json.arr items).nodes ≤ items.length * n + 1 := by
  have hsum := List.sum_le_card_nsmul (items.map Json.nodes) n (List.forall_mem_map.mpr h)
  rw [List.length_map, smul_eq_mul] at hsum
  rw [Json.nodes_eq]
  exact Nat.succ_le_succ hsum

theorem pageTrees_clean_iff {parts : List (List (TaskRow F))} (h : Sound lib fields a)
    (hsub : ∀ tasks ∈ parts, tasks ⊆ a.tasks)
    (hcount : ∀ tasks ∈ parts, tasks.length ≤ maxTrackerPageTaskCandidates) :
    (∀ page ∈ pageTrees lib a parts, Accepted lib page) ↔
      (∀ page ∈ pageTrees lib a parts, page.nodes ≤ 16384) ∧ ∀ tasks ∈ parts, Clean a tasks := by
  induction parts with
  | nil => simp [pageTrees]
  | cons tasks rest ih =>
    obtain ⟨htasks, hrest⟩ := List.forall_mem_cons.mp hsub
    obtain ⟨hlength, hlengths⟩ := List.forall_mem_cons.mp hcount
    rw [pageTrees, List.forall_mem_cons, List.forall_mem_cons, List.forall_mem_cons,
      ih hrest hlengths, h.page_accepted_iff htasks hlength]
    tauto

theorem clean_flatten_iff {parts : List (List (TaskRow F))} (hjoin : parts.flatten = a.tasks) :
    (∀ tasks ∈ parts, Clean a tasks) ↔ Clean a a.tasks := by
  have hsub : ∀ tasks ∈ parts, tasks ⊆ a.tasks := fun tasks htasks _ htask =>
    hjoin ▸ List.mem_flatten.mpr ⟨tasks, htasks, htask⟩
  constructor
  · intro hclean
    refine ⟨fun task htask => ?_, fun user huser => ?_⟩
    · obtain ⟨tasks, htasks, hmem⟩ := List.mem_flatten.mp (hjoin ▸ htask)
      exact (hclean tasks htasks).values task hmem
    · obtain ⟨href, hrow⟩ := mem_pageUsers.mp huser
      obtain ⟨task, htask, hnamed⟩ := mem_taskUsers.mp href
      obtain ⟨tasks, htasks, hmem⟩ := List.mem_flatten.mp (hjoin ▸ htask)
      refine (hclean tasks htasks).generations user (mem_pageUsers.mpr ⟨?_, hrow⟩)
      exact mem_taskUsers.mpr ⟨task, hmem, hnamed⟩
  · intro hclean tasks htasks
    refine ⟨fun task htask => hclean.values task (hsub tasks htasks htask), fun user huser => ?_⟩
    obtain ⟨href, hrow⟩ := mem_pageUsers.mp huser
    obtain ⟨task, htask, hnamed⟩ := mem_taskUsers.mp href
    refine hclean.generations user (mem_pageUsers.mpr ⟨?_, hrow⟩)
    exact mem_taskUsers.mpr ⟨task, hsub tasks htasks htask, hnamed⟩

theorem Division.subset {parts : List (List (TaskRow F))} (h : Division a parts) :
    ∀ tasks ∈ parts, tasks ⊆ a.tasks := fun tasks htasks _ htask =>
  h.join ▸ List.mem_flatten.mpr ⟨tasks, htasks, htask⟩

/-- What the reader of pages asks of a board. -/
theorem Sound.accepted_iff (h : Sound lib fields a) {parts : List (List (TaskRow F))}
    (hdivision : Division a parts) :
    (∀ page ∈ pageTrees lib a parts, Accepted lib page) ↔
      (∀ task ∈ a.tasks, task.customValues.FloatFree) ∧
        (∀ user ∈ pageUsers a a.tasks, user.e2eeDeviceGeneration ≤ 9007199254740991) ∧
        ∀ page ∈ pageTrees lib a parts, page.nodes ≤ 16384 := by
  rw [pageTrees_clean_iff h hdivision.subset hdivision.candidates, clean_flatten_iff hdivision.join]
  exact ⟨fun ⟨hnodes, hclean⟩ => ⟨hclean.values, hclean.generations, hnodes⟩,
    fun ⟨hvalues, hgenerations, hnodes⟩ => ⟨hnodes, hvalues, hgenerations⟩⟩

/-- All pages are read, or the fetch fails. -/
theorem Sound.fetch_spec [DecidableEq F] (h : Sound lib fields a)
    (hfloats : ∀ x, lib.fields.small x = true → lib.floats.Reads x)
    {parts : List (List (TaskRow F))} (hdivision : Division a parts)
    (hbytes : WithinBytes lib (pageTrees lib a parts)) :
    ((∀ page ∈ pageTrees lib a parts, Accepted lib page) ∧
        ∃ profiles refs, Names a profiles refs ∧ Profiled a profiles ∧
          fetchTrackerSnapshotOnce lib a.board.guild a.board.channel
            ((pageTrees lib a parts).map (pageResponse lib)) =
              .ok (snapshotTree a profiles refs)) ∨
      ((∃ page ∈ pageTrees lib a parts, ¬ Accepted lib page) ∧
        ∃ e, fetchTrackerSnapshotOnce lib a.board.guild a.board.channel
          ((pageTrees lib a parts).map (pageResponse lib)) = .error e) :=
  h.fetchPages_spec hfloats (progress_start a)
    { join := hdivision.join.symm
      nonempty := hdivision.nonempty
      count := hdivision.count
      candidates := hdivision.candidates
      advance := hdivision.advance
      each := hbytes.each
      total := (Nat.zero_add _).trans_le hbytes.total }

/-- When a replica mirrors a sound board, however its tasks are divided and
whatever the replica has before. -/
theorem mirrored_iff [DecidableEq F] {parts : List (List (TaskRow F))} {pages : List (Json F)}
    {replica : Replica F a.board.channel a.board.guild}
    (hfloats : ∀ x, lib.fields.small x = true → lib.floats.Reads x) (h : Sound lib fields a)
    (hdivision : Division a parts) (hpages : a.pages lib parts = .ok pages)
    (hbytes : WithinBytes lib pages) :
    Mirrored lib a (pages.map (pageResponse lib)) replica ↔
      ((∀ task ∈ a.tasks, task.customValues.FloatFree) ∧
        (∀ user ∈ pageUsers a a.tasks, user.e2eeDeviceGeneration ≤ 9007199254740991) ∧
        ∀ page ∈ pages, page.nodes ≤ 16384) ∧
      ∀ b ∈ replica.board, ¬ Restamps b a.board := by
  obtain rfl : pages = pageTrees lib a parts :=
    Except.ok.inj (hpages.symm.trans (h.pages_eq hdivision.subset hdivision.advance))
  rw [← h.accepted_iff hdivision]
  rcases h.fetch_spec hfloats hdivision hbytes with
    ⟨hall, profiles, refs, hnames, hprofiled, hfetch⟩ | ⟨⟨page, hpage, hrefused⟩, e, hfetch⟩
  · rw [and_iff_right hall]
    constructor
    · rintro ⟨snapshot, named, -, hok, -, hmirror⟩ b hb hrestamps
      obtain rfl : snapshotTree a profiles refs = snapshot :=
        Except.ok.inj (hfetch.symm.trans hok)
      obtain ⟨around, users, replica', happly, hboard⟩ := h.apply_restamps hb hrestamps hnames
      rw [hmirror, bind_eq_ok] at happly
      obtain ⟨users', -, happly⟩ := happly
      obtain ⟨-, happly⟩ := check_bind_eq_ok.mp happly
      obtain ⟨-, rfl⟩ := Prod.mk.inj (Except.ok.inj happly)
      exact hboard rfl
    · intro hkept
      refine ⟨_, profiles, hprofiled, hfetch, h.validateTrackerSnapshot hnames, fun around => ?_⟩
      rw [h.apply_eq hnames around replica, mirrorOver_eq hkept]
  · refine iff_of_false ?_ fun hread => hrefused (hread.1 page hpage)
    rintro ⟨snapshot, named, -, hok, -⟩
    rw [hfetch] at hok
    cases hok

/-! A board with tasks that have a value in a number field and an assignee. -/

theorem digest_length : (List.replicate 32 (0 : UInt8)).length = 32 := rfl

/-- A library with one float, which is 1.5. -/
def oneFloat : Library Unit where
  fields :=
    { casefold := id
      urlsplit := fun _ => none
      isDate := fun _ => false
      floatRepr := fun _ => "1.5"
      small := fun _ => true }
  floats := { repr := fun _ => ['1', '.', '5'], parse := fun _ => () }
  isFinite _ := true
  otherTimes _ := none
  wide _ _ := none
  hmac _ := ⟨List.replicate 32 0, digest_length⟩

theorem oneFloat_reads (x : Unit) : oneFloat.floats.Reads x where
  starts := ⟨'1', ['.', '5'], rfl, .inr rfl⟩
  letters := by
    change ∀ c ∈ ['1', '.', '5'], _
    simp only [List.forall_mem_cons]
    exact ⟨.inl rfl, .inr (by simp), .inl rfl, fun _ hc => absurd hc List.not_mem_nil⟩
  scanned rest h := by
    have hdigits : ∀ c ∈ ['5'], c.isDigit = true := List.forall_mem_singleton.mpr rfl
    obtain ⟨htake, hdrop⟩ := Json.takeWhile_isDigit hdigits h
    rw [List.singleton_append] at htake hdrop
    have hfraction : Json.scanFraction ('.' :: '5' :: rest) = (['.', '5'], rest) := by
      simp only [Json.scanFraction, htake, hdrop]
    have hinteger : Json.scanInteger ('1' :: '.' :: '5' :: rest) =
        some (['1'], '.' :: '5' :: rest) := rfl
    have hsign : Json.scanSign ('1' :: '.' :: '5' :: rest) = ([], '1' :: '.' :: '5' :: rest) := rfl
    change Json.scanNumber oneFloat.floats ('1' :: '.' :: '5' :: rest) = _
    simp only [Json.scanNumber, hsign, hinteger, hfraction, Json.scanExponent_end h]
    rfl

def pointsField : TrackerField := ⟨"points", "points", .number, []⟩

def pointsUser : UserRow where
  ref := ⟨40, "a.example"⟩
  isLocal := true
  username := "ann"
  federationIntroducedByDomain := none

/-- A task of the board, which its creator is assigned to. -/
def pointsTask (points : Json Unit) (title : String) (updatedAt : CivilTime) (i : Nat) :
    TaskRow Unit where
  ref := ⟨100 + i, "a.example"⟩
  channel := ⟨10, "a.example"⟩
  guild := ⟨1, "a.example"⟩
  lane := ⟨20, "a.example"⟩
  number := i + 1
  customValues := .obj [("points", points)]
  title
  description := none
  priority := .none
  position := i
  dueAt := none
  completedAt := none
  creator := ⟨40, "a.example"⟩
  assignee := some ⟨40, "a.example"⟩
  clientNonce := none
  clientRequestHash := none
  createdAt := boardTime 0
  updatedAt

/-- A board with so many tasks, all of them changed at its version. -/
def pointsBoard (points : Json Unit) (title : String) (updatedAt : CivilTime) (count : Nat) :
    Authority Unit where
  board :=
    { channel := ⟨10, "a.example"⟩, guild := ⟨1, "a.example"⟩
      customFields := .arr [dumpField pointsField], keyPrefix := "TR", nextTaskNumber := count + 1
      createdAt := boardTime 0, updatedAt }
  lanes := [
    { ref := ⟨20, "a.example"⟩, channel := ⟨10, "a.example"⟩, guild := ⟨1, "a.example"⟩
      name := "To do", color := 0, kind := .backlog, completed := false, position := 0
      createdAt := boardTime 0, updatedAt := boardTime 0 }]
  tasks := (List.range count).map (pointsTask points title updatedAt)
  users := [pointsUser]

theorem refOk_example {n : Nat} (h : n ≤ maxDatabaseSnowflake) : RefOk ⟨n, "a.example"⟩ where
  id_le := h
  domain_eq := by
    change Replication.normalizeDomain "a.example" = .ok "a.example"
    decide

theorem pointsUser_ok : UserOk pointsUser where
  ref := refOk_example (by decide)
  person := by decide
  username := by decide
  displayName := by intro s hs; cases hs
  avatarHash := by intro s hs; cases hs
  bannerHash := by intro s hs; cases hs
  bio := by intro s hs; cases hs
  customStatus := by intro s hs; cases hs
  profileVersion := by decide
  e2eeDeviceGeneration := by decide

/-- A short title of plain letters. -/
structure Titled (title : String) : Prop where
  plain : ∀ c ∈ title.toList, PlainLetter c
  short : title.length ≤ 32
  named : 1 ≤ (strip title).length

theorem plain_of_all {title : String}
    (h : (title.toList.all fun c => decide (PlainLetter c)) = true) :
    ∀ c ∈ title.toList, PlainLetter c :=
  fun c hc => of_decide_eq_true (List.all_eq_true.mp h c hc)

theorem Titled.within {title : String} (h : Titled title) : TextWithin 200 title :=
  ⟨h.short.trans (by decide), fun hnul => (h.plain _ hnul).ne_nul rfl⟩

section

variable {points : Json Unit} {title : String} {updatedAt : CivilTime} {count : Nat}

theorem pointsTask_ok {kept : List (String × Json Unit)}
    (hkept : validateValues oneFloat.fields [pointsField] (.obj [("points", points)]) = .ok kept)
    (hdistinct : points.Distinct) (hnul : nulFree points = true) (htitle : Titled title)
    (hupdated : (boardTime 0).instant ≤ updatedAt.instant) (hcount : count ≤ 5000) {i : Nat}
    (hi : i < count) :
    TaskOk oneFloat [pointsField] (pointsBoard points title updatedAt count)
      (pointsTask points title updatedAt i) where
  ref := refOk_example ((by omega : 100 + i ≤ 5100).trans (by decide))
  origin := rfl
  channel := rfl
  guild := rfl
  lane := List.mem_singleton.mpr rfl
  number := ⟨Nat.succ_pos i, Nat.succ_lt_succ hi⟩
  title := htitle.within
  titled := htitle.named
  description := by intro s hs; cases hs
  customValues := ⟨kept, hkept⟩
  customValues_distinct := ⟨List.nodup_singleton _, hdistinct, trivial⟩
  customValues_nul := by
    change nulFree (.obj [("points", points)]) = true
    rw [nulFree, nulFreeMembers_iff]
    exact List.forall_mem_singleton.mpr ⟨by change '\x00' ∉ "points".toList; decide, hnul⟩
  users := by
    intro ref href
    have hrefs : Authority.taskUsers [pointsTask points title updatedAt i] =
      [⟨40, "a.example"⟩, ⟨40, "a.example"⟩] := rfl
    rw [hrefs] at href
    obtain rfl : ref = ⟨40, "a.example"⟩ := by simpa using href
    exact ⟨pointsUser, rfl, pointsUser_ok⟩
  updated := hupdated

/-- All tasks of the board are in its lane, in order. -/
theorem pointsBoard_positions (lane : Ref) :
    (((pointsBoard points title updatedAt count).tasks.filter fun t => t.lane = lane).map
      TaskRow.position).Perm (List.range ((pointsBoard points title updatedAt count).tasks.filter
        fun t => t.lane = lane).length) := by
  by_cases hlane : lane = ⟨20, "a.example"⟩
  · have hall : (pointsBoard points title updatedAt count).tasks.filter (fun t => t.lane = lane) =
        (List.range count).map (pointsTask points title updatedAt) := by
      refine List.filter_eq_self.mpr fun task htask => decide_eq_true ?_
      obtain ⟨i, -, rfl⟩ := List.mem_map.mp htask
      exact hlane.symm
    rw [hall, List.map_map, List.length_map, List.length_range]
    exact List.Perm.of_eq (List.map_id _)
  · have hnone : (pointsBoard points title updatedAt count).tasks.filter
        (fun t => t.lane = lane) = [] := by
      refine List.filter_eq_nil_iff.mpr fun task htask hin => hlane ?_
      obtain ⟨i, -, rfl⟩ := List.mem_map.mp htask
      exact (of_decide_eq_true hin).symm
    rw [hnone]
    exact List.Perm.refl _

/-- The board is sound for every number that may be its tasks' points. -/
theorem pointsBoard_sound {kept : List (String × Json Unit)}
    (hkept : validateValues oneFloat.fields [pointsField] (.obj [("points", points)]) = .ok kept)
    (hdistinct : points.Distinct) (hnul : nulFree points = true) (htitle : Titled title)
    (hupdated : (boardTime 0).instant ≤ updatedAt.instant) (hcount : count ≤ 5000) :
    Sound oneFloat [pointsField] (pointsBoard points title updatedAt count) where
  channel := refOk_example (by decide)
  guild := refOk_example (by decide)
  origin := rfl
  keyPrefix := by
    change keyPrefixPattern "TR" = true
    decide
  customFields := rfl
  fields_ok := by
    change fieldDefinitions oneFloat.fields (.arr [dumpField pointsField]) = .ok [pointsField]
    decide
  nextTaskNumber := ⟨Nat.succ_pos _, (Nat.succ_le_succ hcount).trans (by decide)⟩
  updated := hupdated
  lanes_count := ⟨List.cons_ne_nil _ _, by change 1 ≤ maxTrackerLanes; decide⟩
  lanes_nodup := List.nodup_singleton _
  lane_positions := List.Perm.refl _
  lanes := by
    refine List.forall_mem_singleton.mpr ⟨refOk_example (by decide), rfl, rfl, rfl, ?_, ?_, ?_,
      Nat.le_refl _⟩
    · change TextWithin 100 "To do"
      exact ⟨by decide, by decide⟩
    · change 1 ≤ (strip "To do").length
      decide
    · change 0 < 16777216
      decide
  tasks_count := by
    rw [pointsBoard, List.length_map, List.length_range]
    exact hcount
  tasks_order := by
    rw [pointsBoard, List.pairwise_map]
    exact List.pairwise_lt_range.imp fun hlt => Nat.add_lt_add_left hlt 100
  numbers_nodup := by
    rw [pointsBoard, List.map_map]
    exact List.nodup_range.map (Nat.succ_injective)
  task_positions := pointsBoard_positions
  tasks := by
    intro task htask
    obtain ⟨i, hi, rfl⟩ := List.mem_map.mp htask
    exact pointsTask_ok hkept hdistinct hnul htitle hupdated hcount (List.mem_range.mp hi)

end

/-! The pages of the board are far below the limits. -/

theorem bytes_str_le {s : String} {n : Nat} (hplain : ∀ c ∈ s.toList, PlainLetter c)
    (hlength : s.length ≤ n) :
    (Utf8.encode (Json.dumps oneFloat.floats (.str s))).length ≤ n + 2 := by
  rw [Json.dumps, length_encode_writeString hplain]
  exact Nat.add_le_add_right hlength 2

theorem bytes_idText_le {n : Nat} (h : n ≤ maxDatabaseSnowflake) :
    (Utf8.encode (Json.dumps oneFloat.floats (idText n))).length ≤ 34 :=
  (bytes_str_le (toString_plain n) (length_toString_le h)).trans (by decide)

theorem bytes_timeText_le (t : CivilTime) :
    (Utf8.encode (Json.dumps oneFloat.floats (timeText t))).length ≤ 34 :=
  bytes_str_le (isoformat_plain t) (length_isoformat_le t)

theorem bytes_int_le {n : Nat} (h : n ≤ maxDatabaseSnowflake) :
    (Utf8.encode (Json.dumps oneFloat.floats (.int n))).length ≤ 34 := by
  have htext : Nat.toDigits 10 n = (toString n).toList := by
    rw [Nat.toString_eq_repr, Nat.toList_repr]
  change (Utf8.encode (Nat.toDigits 10 n)).length ≤ 34
  rw [htext, length_encode_ascii fun c hc => (toString_plain n c hc).2.1, String.length_toList]
  exact (length_toString_le h).trans (by decide)

/-- The values of a task are short. -/
def ShortPoints (points : Json Unit) : Prop :=
  (Utf8.encode (Json.dumps oneFloat.floats (.obj [("points", points)]))).length ≤ 34

/-- The names of an object's members. -/
def keysOf : Json Unit → List String
  | .obj members => members.map Prod.fst
  | _ => []

/-- The names that a page writes do not depend on its rows. -/
theorem payload_keys :
    (∀ key ∈ keysOf (trackerTaskSnapshotPayload (pointsTask .null "" (boardTime 0) 0)),
        (Utf8.encode (Json.writeString key)).length ≤ 22) ∧
      (∀ key ∈ keysOf (trackerBoardSnapshotPayload (pointsBoard .null "" (boardTime 0) 0).board 0),
        (Utf8.encode (Json.writeString key)).length ≤ 22) ∧
      (∀ key ∈ keysOf (pageTree oneFloat (pointsBoard .null "" (boardTime 0) 0) [] false),
        (Utf8.encode (Json.writeString key)).length ≤ 27) ∧
      ∀ key ∈ ["tasks", "users"], (Utf8.encode (Json.writeString key)).length ≤ 7 := by
  decide +kernel

/-- The texts of a page that its tasks do not touch. -/
theorem fixed_bytes :
    (Utf8.encode (Json.dumps oneFloat.floats (.str "a.example"))).length ≤ 34 ∧
      (Utf8.encode (Json.dumps oneFloat.floats (.str "none"))).length ≤ 34 ∧
      (Utf8.encode (Json.dumps oneFloat.floats (.str "TR"))).length ≤ 34 ∧
      (Utf8.encode (Json.dumps oneFloat.floats (refPayload ⟨40, "a.example"⟩))).length ≤ 100 ∧
      (Utf8.encode (Json.dumps oneFloat.floats (.arr [dumpField pointsField]))).length ≤ 100 ∧
      (Utf8.encode (Json.dumps oneFloat.floats (dumpProfile (profileOf pointsUser)))).length ≤
        400 ∧
      (Utf8.encode (Json.dumps oneFloat.floats (.arr ((pointsBoard .null "" (boardTime 0)
        0).lanes.map trackerLaneSnapshotPayload)))).length ≤ 1000 := by
  decide +kernel

theorem pointsTask_bytes {points : Json Unit} (hpoints : ShortPoints points) {title : String}
    (htitle : Titled title) (updatedAt : CivilTime) {i : Nat} (hi : i < 5000) :
    (Utf8.encode (Json.dumps oneFloat.floats (trackerTaskSnapshotPayload
      (pointsTask points title updatedAt i)))).length ≤ 1278 := by
  have hnull : (Utf8.encode (Json.dumps oneFloat.floats .null)).length ≤ 34 := by decide
  obtain ⟨hdomain, hpriority, -⟩ := fixed_bytes
  have hid : ∀ n ≤ 6000, (Utf8.encode (Json.dumps oneFloat.floats (idText n))).length ≤ 34 :=
    fun n hn => bytes_idText_le (hn.trans (by decide))
  have hposition : i ≤ maxDatabaseSnowflake := hi.le.trans (by decide)
  rw [trackerTaskSnapshotPayload]
  refine (length_encode_obj_le (k := 22) (n := 34) ?_ ?_).trans ?_
  · simpa only [trackerTaskSnapshotPayload, keysOf, List.map_cons, List.map_nil] using
      payload_keys.1
  · simp only [List.forall_mem_cons, List.not_mem_nil, false_implies, implies_true, and_true]
    exact ⟨hid (100 + i) (by omega), hdomain, hid 10 (by decide), hdomain, hid 1 (by decide),
      hdomain, hid 20 (by decide), hdomain, hid (i + 1) (by omega), hpoints,
      bytes_str_le htitle.plain htitle.short, hnull, hpriority, bytes_int_le hposition, hnull,
      hnull, hid 40 (by decide), hdomain, hid 40 (by decide), hdomain, bytes_timeText_le _,
      bytes_timeText_le _⟩
  · simp only [List.length_cons, List.length_nil]
    decide

section

variable {points : Json Unit} {title : String} {updatedAt : CivilTime} {count : Nat}
  {tasks : List (TaskRow Unit)}

theorem pointsBoard_bytes (updatedAt : CivilTime) (hcount : count ≤ 5000) :
    (Utf8.encode (Json.dumps oneFloat.floats (trackerBoardSnapshotPayload
      (pointsBoard points title updatedAt count).board count))).length ≤ 1400 := by
  obtain ⟨hdomain, -, hprefix, -, hfields, -⟩ := fixed_bytes
  have hdomain := hdomain.trans (by decide : 34 ≤ 100)
  have hid : ∀ n ≤ 6000, (Utf8.encode (Json.dumps oneFloat.floats (idText n))).length ≤ 100 :=
    fun n hn => (bytes_idText_le (hn.trans (by decide))).trans (by decide)
  have htime : ∀ t, (Utf8.encode (Json.dumps oneFloat.floats (timeText t))).length ≤ 100 :=
    fun t => (bytes_timeText_le t).trans (by decide)
  rw [trackerBoardSnapshotPayload]
  refine (length_encode_obj_le (k := 22) (n := 100) ?_ ?_).trans ?_
  · simpa only [trackerBoardSnapshotPayload, keysOf, List.map_cons, List.map_nil] using
      payload_keys.2.1
  · simp only [List.forall_mem_cons, List.not_mem_nil, false_implies, implies_true, and_true]
    exact ⟨hid 10 (by decide), hdomain, hid 1 (by decide), hdomain, hfields,
      hprefix.trans (by decide), hid (count + 1) (by omega), hid count (by omega), htime _,
      htime _, htime _⟩
  · simp only [List.length_cons, List.length_nil]
    decide

theorem pointsBoard_task (h : tasks ⊆ (pointsBoard points title updatedAt count).tasks)
    {task : TaskRow Unit} (htask : task ∈ tasks) :
    ∃ i < count, task = pointsTask points title updatedAt i := by
  obtain ⟨i, hi, rfl⟩ := List.mem_map.mp (h htask)
  exact ⟨i, List.mem_range.mp hi, rfl⟩

theorem pointsBoard_user {user : UserRow}
    (h : user ∈ pageUsers (pointsBoard points title updatedAt count) tasks) : user = pointsUser :=
  List.mem_singleton.mp (mem_of_lookupBy (mem_pageUsers.mp h).2)

theorem pointsBoard_assignee (h : tasks ⊆ (pointsBoard points title updatedAt count).tasks)
    {ref : Ref} (href : ref ∈ sortRefs (assignees tasks)) : ref = ⟨40, "a.example"⟩ := by
  obtain ⟨task, htask, hassignee⟩ := List.mem_filterMap.mp (mem_sortRefs.mp href)
  obtain ⟨i, -, rfl⟩ := pointsBoard_task h htask
  exact (Option.some.inj hassignee).symm

theorem length_pointsBoard : (pointsBoard points title updatedAt count).tasks.length = count := by
  rw [pointsBoard, List.length_map, List.length_range]

theorem pointsPage_bytes (hpoints : ShortPoints points) (htitle : Titled title)
    (hcount : count ≤ 5000) (h : tasks ⊆ (pointsBoard points title updatedAt count).tasks)
    (hpage : tasks.length ≤ maxTrackerPageTaskCandidates) (hasMore : Bool) :
    (pageBytes oneFloat (pageTree oneFloat (pointsBoard points title updatedAt count) tasks
      hasMore)).length ≤ 2500000 := by
  change tasks.length ≤ 256 at hpage
  obtain ⟨-, -, -, hrefBytes, -, huserBytes, hlanes⟩ := fixed_bytes
  have htasks := length_encode_arr_le oneFloat.floats (n := 1278)
    (tasks.map trackerTaskSnapshotPayload) (by
      intro v hv
      obtain ⟨task, htask, rfl⟩ := List.mem_map.mp hv
      obtain ⟨i, hi, rfl⟩ := pointsBoard_task h htask
      exact pointsTask_bytes hpoints htitle updatedAt (hi.trans_le hcount))
  have husers := length_encode_arr_le oneFloat.floats (n := 400)
    ((pageUsers (pointsBoard points title updatedAt count) tasks).map
      fun user => dumpProfile (profileOf user)) (by
      intro v hv
      obtain ⟨user, huser, rfl⟩ := List.mem_map.mp hv
      rw [pointsBoard_user huser]
      exact huserBytes)
  have hrefs := length_encode_arr_le oneFloat.floats (n := 100)
    ((sortRefs (assignees tasks)).map refPayload) (by
      intro v hv
      obtain ⟨ref, href, rfl⟩ := List.mem_map.mp hv
      rw [pointsBoard_assignee h href]
      exact hrefBytes)
  have husersLength := length_pageUsers_le (pointsBoard points title updatedAt count) tasks
  have hrefsLength := (length_sortRefs_le (assignees tasks)).trans
    (List.length_filterMap_le TaskRow.assignee tasks)
  rw [List.length_map] at htasks husers hrefs
  have hboard := @pointsBoard_bytes points title count updatedAt hcount
  have hnull : (Utf8.encode (Json.dumps oneFloat.floats .null)).length ≤ 330000 := by decide
  rw [pageBytes, pageTree, length_pointsBoard]
  refine (length_encode_obj_le (k := 27) (n := 330000) ?_ ?_).trans ?_
  · simpa only [pageTree, keysOf, List.map_cons, List.map_nil] using payload_keys.2.2.1
  · simp only [List.forall_mem_cons, List.not_mem_nil, false_implies, implies_true, and_true]
    refine ⟨by omega, hlanes.trans (by decide), by omega, by omega, by omega, ?_⟩
    cases hcursor : cursorId tasks hasMore with
    | none => exact ⟨hnull, hnull⟩
    | some id =>
      have hid : id ≤ maxDatabaseSnowflake := by
        unfold cursorId at hcursor
        split at hcursor
        · obtain ⟨task, htask, rfl⟩ := Option.map_eq_some_iff.mp hcursor
          obtain ⟨i, hi, rfl⟩ := pointsBoard_task h (List.mem_of_getLast? htask)
          exact (show 100 + i ≤ 5100 by omega).trans (by decide)
        · cases hcursor
      constructor
      · have hlength : (trackerSnapshotCursor oneFloat
            (pointsBoard points title updatedAt count).board id).length ≤ _ :=
          length_trackerSnapshotCursor_le oneFloat (refOk_example (by decide))
            (refOk_example (by decide)) hid
        exact (bytes_str_le (trackerSnapshotCursor_plain _ _ _) hlength).trans (by decide)
      · exact (bytes_idText_le hid).trans (by decide)
  · simp only [List.length_cons, List.length_nil]
    decide

theorem pointsTask_nodes (i : Nat) :
    (trackerTaskSnapshotPayload (pointsTask (.int 1) title updatedAt i)).nodes = 24 := by
  simp [trackerTaskSnapshotPayload, pointsTask, idText, timeText, optionalText, optionalTime,
    orDefault, Json.nodes, Json.nodesMembers]

theorem pointsUser_nodes : (dumpProfile (profileOf pointsUser) : Json Unit).nodes = 12 := by
  decide

theorem pointsPage_nodes (h : tasks ⊆ (pointsBoard (.int 1) title updatedAt count).tasks)
    (hpage : tasks.length ≤ maxTrackerPageTaskCandidates) (hasMore : Bool) :
    (pageTree oneFloat (pointsBoard (.int 1) title updatedAt count) tasks hasMore).nodes ≤
      16384 := by
  change tasks.length ≤ 256 at hpage
  have htasks := nodes_arr_le (n := 24) (tasks.map trackerTaskSnapshotPayload) (by
    intro v hv
    obtain ⟨task, htask, rfl⟩ := List.mem_map.mp hv
    obtain ⟨i, -, rfl⟩ := pointsBoard_task h htask
    rw [pointsTask_nodes])
  have husers := nodes_arr_le (n := 12)
    ((pageUsers (pointsBoard (.int 1) title updatedAt count) tasks).map
      fun user => dumpProfile (profileOf user)) (by
    intro v hv
    obtain ⟨user, huser, rfl⟩ := List.mem_map.mp hv
    rw [pointsBoard_user huser, pointsUser_nodes])
  have hrefs := nodes_arr_le (F := Unit) (n := 3)
    ((sortRefs (assignees tasks)).map refPayload) (by
    intro v hv
    obtain ⟨ref, -, rfl⟩ := List.mem_map.mp hv
    simp [refPayload, idText, Json.nodes, Json.nodesMembers])
  have husersLength := length_pageUsers_le (pointsBoard (.int 1) title updatedAt count) tasks
  have hrefsLength := (length_sortRefs_le (assignees tasks)).trans
    (List.length_filterMap_le TaskRow.assignee tasks)
  rw [List.length_map] at htasks husers hrefs
  have hboard : (trackerBoardSnapshotPayload (pointsBoard (.int 1) title updatedAt count).board
      count : Json Unit).nodes = 17 := by
    simp [trackerBoardSnapshotPayload, pointsBoard, idText, timeText, orDefault, dumpField,
      pointsField, Json.nodes, Json.nodesMembers, Json.nodesItems]
  have hlanes : (Json.arr ((pointsBoard (.int 1) title updatedAt count).lanes.map
      (trackerLaneSnapshotPayload (F := Unit)))).nodes = 15 := by
    simp [trackerLaneSnapshotPayload, pointsBoard, idText, timeText, Json.nodes,
      Json.nodesMembers, Json.nodesItems]
  have htext : ∀ s : Option String, (optionalText s : Json Unit).nodes = 1 := by
    intro s
    cases s <;> simp [optionalText, Json.nodes]
  rw [pageTree, length_pointsBoard, Json.nodes]
  simp only [Json.nodesMembers, hboard, hlanes, htext]
  omega

end

section

variable {points : Json Unit} {title : String} {updatedAt : CivilTime} {count : Nat}
  {parts : List (List (TaskRow Unit))}

theorem pointsBoard_withinBytes (hpoints : ShortPoints points) (htitle : Titled title)
    (hcount : count ≤ 5000)
    (hdivision : Division (pointsBoard points title updatedAt count) parts) :
    WithinBytes oneFloat (pageTrees oneFloat (pointsBoard points title updatedAt count) parts) := by
  have hpage : ∀ page ∈ pageTrees oneFloat (pointsBoard points title updatedAt count) parts,
      (pageBytes oneFloat page).length ≤ 2500000 := by
    intro page hpage
    obtain ⟨tasks, htasks, hasMore, rfl⟩ := mem_pageTrees hpage
    exact pointsPage_bytes hpoints htitle hcount (hdivision.subset tasks htasks)
      (hdivision.candidates tasks htasks) hasMore
  refine ⟨fun page hmem => (hpage page hmem).trans (by decide), ?_⟩
  have hsum := List.sum_le_card_nsmul ((pageTrees oneFloat (pointsBoard points title updatedAt
    count) parts).map fun page => (pageBytes oneFloat page).length) 2500000 (by
      intro n hn
      obtain ⟨page, hmem, rfl⟩ := List.mem_map.mp hn
      exact hpage page hmem)
  have hlength : (pageTrees oneFloat (pointsBoard points title updatedAt count) parts).length ≤
      100 := by
    rw [length_pageTrees]
    exact hdivision.count
  rw [List.length_map, smul_eq_mul] at hsum
  exact hsum.trans ((Nat.mul_le_mul_right _ hlength).trans (by decide))

theorem pointsBoard_read (hdivision : Division (pointsBoard (.int 1) title updatedAt count) parts) :
    (∀ task ∈ (pointsBoard (.int 1) title updatedAt count).tasks, task.customValues.FloatFree) ∧
      (∀ user ∈ pageUsers (pointsBoard (.int 1) title updatedAt count)
        (pointsBoard (.int 1) title updatedAt count).tasks,
          user.e2eeDeviceGeneration ≤ 9007199254740991) ∧
      ∀ page ∈ pageTrees oneFloat (pointsBoard (.int 1) title updatedAt count) parts,
        page.nodes ≤ 16384 := by
  refine ⟨fun task htask => ?_, fun user huser => ?_, fun page hpage => ?_⟩
  · obtain ⟨i, -, rfl⟩ := pointsBoard_task (List.Subset.refl _) htask
    exact ⟨trivial, trivial⟩
  · rw [pointsBoard_user huser]
    decide
  · obtain ⟨tasks, htasks, hasMore, rfl⟩ := mem_pageTrees hpage
    exact pointsPage_nodes (hdivision.subset tasks htasks) (hdivision.candidates tasks htasks)
      hasMore

end

/-- Each task on a page of its own. -/
def singly (a : Authority Unit) : List (List (TaskRow Unit)) := a.tasks.map fun task => [task]

theorem singly_division {a : Authority Unit} (hne : a.tasks ≠ [])
    (hcount : a.tasks.length ≤ maxTrackerSnapshotPages) : Division a (singly a) where
  join := by
    rw [singly, ← List.flatMap_def]
    exact List.flatMap_singleton' a.tasks
  nonempty := fun hempty => hne (List.map_eq_nil_iff.mp hempty)
  count := by
    rw [singly, List.length_map]
    exact hcount
  candidates := by
    intro tasks htasks
    obtain ⟨task, -, rfl⟩ := List.mem_map.mp htasks
    change 1 ≤ maxTrackerPageTaskCandidates
    decide
  advance := by
    intro tasks htasks
    obtain ⟨task, -, rfl⟩ := List.mem_map.mp (List.mem_of_mem_dropLast htasks)
    exact List.cons_ne_nil _ _

theorem wholePoints_sound {title : String} (htitle : Titled title) {updatedAt : CivilTime}
    (hupdated : (boardTime 0).instant ≤ updatedAt.instant) {count : Nat} (hcount : count ≤ 5000) :
    Sound oneFloat [pointsField] (pointsBoard (.int 1) title updatedAt count) :=
  @pointsBoard_sound (.int 1) _ _ _ [("points", .int 1)] rfl trivial rfl htitle hupdated hcount

theorem write_titled : Titled "Write" :=
  ⟨plain_of_all (by decide), by decide, by decide⟩

theorem review_titled : Titled "Review" :=
  ⟨plain_of_all (by decide), by decide, by decide⟩

theorem one_short : ShortPoints (.int 1) := by
  unfold ShortPoints
  decide

/-- Two tasks, on two pages. -/
def twoTasks : Authority Unit := pointsBoard (.int 1) "Write" (boardTime 5) 2

/-- A replica that has a board and no tasks. -/
def replicaWith (createdAt updatedAt : CivilTime) :
    Replica Unit twoTasks.board.channel twoTasks.board.guild where
  board := some { twoTasks.board with createdAt, updatedAt }
  lanes := []
  tasks := []
  board_ref := by
    intro b hb
    obtain rfl := Option.some.inj hb
    exact ⟨rfl, rfl⟩

/-- A board with whole points is mirrored over an older version, and not over
one that an invalidation has made. -/
theorem mirrored_whole_points :
    Mirrored oneFloat twoTasks
        ((pageTrees oneFloat twoTasks (singly twoTasks)).map (pageResponse oneFloat))
        (replicaWith (boardTime 0) (boardTime 3)) ∧
      ¬ Mirrored oneFloat twoTasks
        ((pageTrees oneFloat twoTasks (singly twoTasks)).map (pageResponse oneFloat))
        (replicaWith (boardTime 5) (boardTime 5)) := by
  have hsound : Sound oneFloat [pointsField] twoTasks :=
    wholePoints_sound write_titled (boardTime_le 5) (by decide)
  have hdivision : Division twoTasks (singly twoTasks) :=
    singly_division (List.cons_ne_nil _ _) (by decide)
  have hpages : twoTasks.pages oneFloat (singly twoTasks) =
      .ok (pageTrees oneFloat twoTasks (singly twoTasks)) :=
    hsound.pages_eq hdivision.subset hdivision.advance
  have hbytes : WithinBytes oneFloat (pageTrees oneFloat twoTasks (singly twoTasks)) :=
    pointsBoard_withinBytes one_short write_titled (by decide) hdivision
  refine ⟨?_, fun hmirrored => ?_⟩
  · refine (mirrored_iff (fun x _ => oneFloat_reads x) hsound hdivision hpages hbytes).mpr
      ⟨pointsBoard_read hdivision, fun b hb => ?_⟩
    obtain rfl := Option.some.inj hb
    decide
  · have hkept := ((mirrored_iff (fun x _ => oneFloat_reads x) hsound hdivision hpages
      hbytes).mp hmirrored).2 _ rfl
    exact hkept (by decide)

/-- A board with one point and a half is not. -/
theorem half_points_not_mirrored :
    ¬ ∀ (lib : Library Unit) (fields : List TrackerField) (a : Authority Unit)
        (parts : List (List (TaskRow Unit))) (pages : List (Json Unit))
        (replica : Replica Unit a.board.channel a.board.guild),
      (∀ x, lib.fields.small x = true → lib.floats.Reads x) → Sound lib fields a →
        Division a parts → a.pages lib parts = .ok pages → WithinBytes lib pages →
          Mirrored lib a (pages.map (pageResponse lib)) replica := by
  intro h
  let half := pointsBoard (.float ()) "Write" (boardTime 5) 1
  have hsound : Sound oneFloat [pointsField] half :=
    @pointsBoard_sound (.float ()) _ _ _ [("points", .float ())] rfl trivial rfl write_titled
      (boardTime_le 5) (by decide)
  have hdivision : Division half (singly half) :=
    singly_division (List.cons_ne_nil _ _) (by decide)
  have hshort : ShortPoints (.float ()) := by
    unfold ShortPoints
    decide
  have hbytes : WithinBytes oneFloat (pageTrees oneFloat half (singly half)) :=
    pointsBoard_withinBytes hshort write_titled (by decide) hdivision
  obtain ⟨snapshot, profiles, -, hfetch, -⟩ := h oneFloat [pointsField] half _ _
    ⟨none, [], [], fun _ hb => nomatch hb⟩ (fun x _ => oneFloat_reads x) hsound hdivision
    (hsound.pages_eq hdivision.subset hdivision.advance) hbytes
  rcases hsound.fetch_spec (fun x _ => oneFloat_reads x) hdivision hbytes with
    ⟨hall, -⟩ | ⟨-, e, hfailed⟩
  · have hfree := ((hsound.accepted_iff hdivision).mp hall).1 _ List.mem_cons_self
    exact hfree.1
  · rw [hfailed] at hfetch
    cases hfetch

end TrackerSync

end Kaede
