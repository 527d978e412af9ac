import Kaede.TrackerChecks

/-!
# The pages of a board add up to its snapshot

The pages of a sound board, fetched one by one, add up to a snapshot of it
that passes the checks, unless the reader refuses one of them
(`Sound.fetchPages_spec`). What the loop has after the pages of some of the
tasks is `Progress`, and `Sound.addPage` is one step of it.
-/

namespace Kaede

namespace TrackerSync

open Replication (RemoteUserProfile UserRow Users maxDatabaseSnowflake)
open TrackerFields

variable {F : Type} {lib : Library F}

/-! ## Divisions -/

/-- A division of the tasks of a board into pages. -/
structure Division (a : Authority F) (parts : List (List (TaskRow F))) : Prop where
  join : parts.flatten = a.tasks
  nonempty : parts ≠ []
  count : parts.length ≤ maxTrackerSnapshotPages
  candidates : ∀ tasks ∈ parts, tasks.length ≤ maxTrackerPageTaskCandidates
  advance : ∀ tasks ∈ parts.dropLast, tasks ≠ []

def pageTrees (lib : Library F) (a : Authority F) : List (List (TaskRow F)) → List (Json F)
  | [] => []
  | tasks :: rest => pageTree lib a tasks (!rest.isEmpty) :: pageTrees lib a rest

/-- The bytes that the authority answers with. -/
def pageBytes (lib : Library F) (page : Json F) : List UInt8 :=
  Utf8.encode (Json.dumps lib.floats page)

def pageResponse (lib : Library F) (page : Json F) : Response := ⟨200, pageBytes lib page⟩

/-- The pages are within the limits on bytes. -/
structure WithinBytes (lib : Library F) (pages : List (Json F)) : Prop where
  each : ∀ page ∈ pages, (pageBytes lib page).length ≤ maxTrackerPageResponseBytes
  total : (pages.map fun page => (pageBytes lib page).length).sum ≤ maxTrackerSnapshotBytes

section

variable {fields : List TrackerField} {a : Authority F} {tasks : List (TaskRow F)}

theorem Sound.pages_eq (h : Sound lib fields a) {parts : List (List (TaskRow F))}
    (hsub : ∀ tasks ∈ parts, tasks ⊆ a.tasks) (hadvance : ∀ tasks ∈ parts.dropLast, tasks ≠ []) :
    a.pages lib parts = .ok (pageTrees lib a parts) := by
  induction parts with
  | nil => rfl
  | cons tasks rest ih =>
    obtain ⟨htasks, hrest⟩ := List.forall_mem_cons.mp hsub
    have hpage : a.page lib tasks (!rest.isEmpty) = .ok (pageTree lib a tasks (!rest.isEmpty)) := by
      refine h.page_eq htasks fun hmore => hadvance tasks ?_
      cases rest with
      | nil => cases hmore
      | cons => exact List.mem_cons_self
    have hpages : a.pages lib rest = .ok (pageTrees lib a rest) := by
      refine ih hrest fun tasks' hmem => hadvance tasks' ?_
      cases rest with
      | nil => cases hmem
      | cons => exact List.mem_cons_of_mem _ hmem
    rw [Authority.pages, bind_of_eq_ok hpage, bind_of_eq_ok hpages, pageTrees]

/-! ## One page -/

/-- The page, after the checks of its collections. -/
def pageRead (lib : Library F) (a : Authority F) (tasks : List (TaskRow F)) (hasMore : Bool) :
    Page F where
  board := trackerBoardSnapshotPayload a.board a.tasks.length
  lanes := a.lanes.map trackerLaneSnapshotPayload
  tasks := tasks.map trackerTaskSnapshotPayload
  users := (pageUsers a tasks).map fun user => dumpProfile (profileOf user)
  assignees := (sortRefs (assignees tasks)).map refPayload
  nextCursor := optionalText ((cursorId tasks hasMore).map (trackerSnapshotCursor lib a.board))
  nextAfterTaskId := optionalText ((cursorId tasks hasMore).map toString)

theorem readPage_pageTree (hcount : tasks.length ≤ maxTrackerPageTaskCandidates) (hasMore : Bool) :
    readPage (pageTree lib a tasks hasMore) = .ok (pageRead lib a tasks hasMore) := by
  have hlength : (tasks.map trackerTaskSnapshotPayload).length ≤ maxTrackerPageTaskCandidates := by
    rwa [List.length_map]
  refine Eq.trans (ensure_bind rfl) ?_
  refine Eq.trans (ensure_bind rfl) ?_
  exact ensure_bind hlength

/-- The reader of pages. -/
theorem decode_pageBytes (hfloats : ∀ x, lib.fields.small x = true → lib.floats.Reads x)
    {p : Prop} {page : Json F} (hcarried : Carried lib 0 p page) :
    (decodeFederationResponseJson lib (pageBytes lib page) = .ok page ∧ Accepted lib page) ∨
      ((∃ e, decodeFederationResponseJson lib (pageBytes lib page) = .error e) ∧
        ¬ Accepted lib page) := by
  have hloads := @Json.strictJsonLoads_dumps _ lib.floats lib.wide Json.federationJsonLimits
    ⟨false, lib.isFinite⟩ "federation peer response" page hcarried.distinct
    (hcarried.floats.mono hfloats)
  rw [decodeFederationResponseJson, pageBytes, hloads, Accepted]
  cases Json.validateJsonTree Json.federationJsonLimits ⟨false, lib.isFinite⟩
      "federation peer response" page with
  | ok u => exact .inl ⟨rfl, rfl⟩
  | error e => exact .inr ⟨⟨_, rfl⟩, fun h => nomatch h⟩

/-! ## The pages so far -/

/-- The id of the last task. -/
def lastId (done : List (TaskRow F)) : Int :=
  (done.getLast?.map fun task => (task.ref.id : Int)).getD (-1)

/-- The profiles are those of rows, each once. -/
structure Profiled (a : Authority F) (profiles : List RemoteUserProfile) : Prop where
  rows : ∀ p ∈ profiles, ∃ user, UserOk user ∧
    lookupBy UserRow.ref p.ref a.users = some user ∧ p = profileOf user
  nodup : (profiles.map RemoteUserProfile.ref).Nodup

/-- What the loop has after the pages of some of the tasks. -/
structure Progress (a : Authority F) (done : List (TaskRow F)) (s : Fetched F) : Prop where
  combined : s.combined = none ∨ s.combined =
    some (trackerBoardSnapshotPayload a.board a.tasks.length,
      a.lanes.map trackerLaneSnapshotPayload)
  tasks : s.tasks = done.map trackerTaskSnapshotPayload
  last : s.lastTaskId = lastId done
  profiled : Profiled a s.profiles
  mem_profiles : ∀ ref, ref ∈ s.profiles.map RemoteUserProfile.ref ↔ ref ∈ Authority.taskUsers done
  mem_assignees : ∀ ref, ref ∈ s.assignees ↔ ref ∈ assignees done

theorem progress_start (a : Authority F) : Progress a [] {} where
  combined := .inl rfl
  tasks := rfl
  last := rfl
  profiled := ⟨fun _ hp => absurd hp List.not_mem_nil, List.nodup_nil⟩
  mem_profiles _ := Iff.rfl
  mem_assignees _ := Iff.rfl

theorem lastId_append_singleton (done : List (TaskRow F)) (task : TaskRow F) :
    lastId (done ++ [task]) = task.ref.id := by
  rw [lastId, List.getLast?_append]
  rfl

/-- The ids go up from page to page. -/
theorem Sound.lastId_lt (h : Sound lib fields a) {done rest : List (TaskRow F)} {task : TaskRow F}
    (htasks : a.tasks = done ++ task :: rest) : lastId done < task.ref.id := by
  have horder := h.tasks_order
  rw [htasks, List.pairwise_append] at horder
  unfold lastId
  cases hlast : done.getLast? with
  | none =>
    change (-1 : Int) < task.ref.id
    omega
  | some last =>
    have hlt := horder.2.2 last (List.mem_of_getLast? hlast) task List.mem_cons_self
    exact Int.ofNat_lt.mpr hlt

theorem Sound.takeTasks (h : Sound lib fields a) {done rest : List (TaskRow F)}
    (htasks : a.tasks = done ++ (tasks ++ rest)) :
    (tasks.map trackerTaskSnapshotPayload).foldlM (takeTask lib a.board.channel) (lastId done) =
      .ok (lastId (done ++ tasks)) := by
  have hstart : lastId done = (fun l => lastId (done ++ l)) [] := by
    dsimp only
    rw [List.append_nil]
  rw [hstart]
  refine foldlM_prefix (fun l => lastId (done ++ l)) fun l₁ task l₂ hl => ?_
  have hsplit : a.tasks = (done ++ l₁) ++ task :: (l₂ ++ rest) := by
    rw [htasks, hl, List.append_assoc, List.append_assoc, List.cons_append]
  have hmem : task ∈ a.tasks := hsplit ▸ List.mem_append_right _ List.mem_cons_self
  have hok := h.tasks task hmem
  refine Eq.trans (bind_of_eq_ok (trackerRef_ok hok.ref rfl rfl rfl)) ?_
  refine Eq.trans (ensure_bind ⟨hok.origin, h.lastId_lt hsplit⟩) ?_
  rw [← List.append_assoc, lastId_append_singleton]

theorem takeProfiles {users : List UserRow} {profiles : List RemoteUserProfile}
    (husers : ∀ user ∈ users, UserOk user ∧ lookupBy UserRow.ref user.ref a.users = some user)
    (hprofiled : Profiled a profiles) :
    ∃ profiles', (users.map fun user => (dumpProfile (profileOf user) : Json F)).foldlM takeProfile
        profiles = .ok profiles' ∧ Profiled a profiles' ∧
      ∀ ref, ref ∈ profiles'.map RemoteUserProfile.ref ↔
        ref ∈ profiles.map RemoteUserProfile.ref ∨ ref ∈ users.map UserRow.ref := by
  induction users generalizing profiles with
  | nil => exact ⟨profiles, rfl, hprofiled, fun ref => by simp⟩
  | cons user users ih =>
    obtain ⟨⟨hok, hrow⟩, husers⟩ := List.forall_mem_cons.mp husers
    rw [List.map_cons, List.foldlM_cons, takeProfile, bind_of_eq_ok hok.profileOk.validate]
    cases hfound : lookupBy RemoteUserProfile.ref (profileOf user).ref profiles with
    | none =>
      have hnew : user.ref ∉ profiles.map RemoteUserProfile.ref := by
        rw [List.mem_map]
        rintro ⟨p, hp, hpref⟩
        exact absurd (decide_eq_true hpref) (List.find?_eq_none.mp hfound p hp)
      have hnext : Profiled a (profiles ++ [profileOf user]) := by
        refine ⟨?_, ?_⟩
        · intro p hp
          rcases List.mem_append.mp hp with hp | hp
          · exact hprofiled.rows p hp
          · obtain rfl := List.mem_singleton.mp hp
            exact ⟨user, hok, hrow, rfl⟩
        · rw [List.map_append, List.nodup_append']
          refine ⟨hprofiled.nodup, List.nodup_singleton _, fun ref href hin => ?_⟩
          obtain rfl : ref = user.ref := List.mem_singleton.mp hin
          exact hnew href
      obtain ⟨profiles', hrun, hprofiled', hmem⟩ := ih husers hnext
      refine ⟨profiles', hrun, hprofiled', fun ref => ?_⟩
      rw [hmem, List.map_append, List.mem_append, List.map_cons, List.map_nil, List.mem_singleton,
        List.map_cons, List.mem_cons, or_assoc]
      rfl
    | some previous =>
      have hsame : previous = profileOf user := by
        obtain ⟨row, -, hprevious, hp⟩ := hprofiled.rows previous (mem_of_lookupBy hfound)
        have hkey : previous.ref = user.ref := key_of_lookupBy hfound
        rw [hkey, hrow] at hprevious
        rw [hp, Option.some.inj hprevious]
      obtain ⟨profiles', hrun, hprofiled', hmem⟩ := ih husers hprofiled
      refine ⟨profiles', ?_, hprofiled', fun ref => ?_⟩
      · exact Eq.trans (bind_of_eq_ok (ensure_bind hsame)) hrun
      · have hold : user.ref ∈ profiles.map RemoteUserProfile.ref :=
          List.mem_map.mpr ⟨previous, mem_of_lookupBy hfound, key_of_lookupBy hfound⟩
        rw [hmem, List.map_cons, List.mem_cons]
        constructor
        · rintro (hin | hin)
          · exact .inl hin
          · exact .inr (.inr hin)
        · rintro (hin | rfl | hin)
          · exact .inl hin
          · exact .inl hold
          · exact .inr hin

theorem takeAssignees {refs known : List Ref} (hok : ∀ ref ∈ refs, RefOk ref) :
    (refs.map (refPayload (F := F))).foldlM (takeAssignee lib) known = .ok (known ++ refs) := by
  have hstart : known = (fun l => known ++ l) [] := (List.append_nil known).symm
  conv_lhs => rw [hstart]
  refine foldlM_prefix (fun l => known ++ l) fun l₁ ref l₂ hl => ?_
  have hmem : ref ∈ refs := hl ▸ List.mem_append_right _ List.mem_cons_self
  refine Eq.trans (bind_of_eq_ok (trackerRef_refPayload (hok ref hmem) _)) ?_
  rw [← List.append_assoc]

theorem mem_pageUsers_ref (h : Sound lib fields a) (htasks : tasks ⊆ a.tasks) {ref : Ref} :
    ref ∈ (pageUsers a tasks).map UserRow.ref ↔ ref ∈ Authority.taskUsers tasks := by
  rw [List.mem_map]
  constructor
  · rintro ⟨user, huser, rfl⟩
    exact (mem_pageUsers.mp huser).1
  · intro href
    obtain ⟨user, huser, -⟩ := h.user_of_task htasks href
    obtain rfl := key_of_lookupBy huser
    exact ⟨user, mem_pageUsers.mpr ⟨href, huser⟩, rfl⟩

/-- The board and the lanes are the same on every page. -/
theorem Sound.combine_eq [DecidableEq F] (h : Sound lib fields a) (hasMore : Bool)
    {combined : Option (Json F × List (Json F))}
    (hcombined : combined = none ∨ combined = some (trackerBoardSnapshotPayload a.board
      a.tasks.length, a.lanes.map trackerLaneSnapshotPayload)) :
    combine combined (pageRead lib a tasks hasMore) = .ok (trackerBoardSnapshotPayload a.board
      a.tasks.length, a.lanes.map trackerLaneSnapshotPayload) := by
  rcases hcombined with rfl | rfl
  · rfl
  · have hboard : (trackerBoardSnapshotPayload a.board a.tasks.length : Json F).Distinct :=
      (h.light_board (Nat.zero_le 10) h.tasks_count).distinct
    have hlanes : Json.equalItems (a.lanes.map (trackerLaneSnapshotPayload (F := F)))
        (a.lanes.map trackerLaneSnapshotPayload) = true := by
      refine Json.equalItems_self ?_
      rw [List.forall_mem_map]
      exact fun lane hlane => Json.equal_self (h.light_lane (Nat.zero_le 10) hlane).distinct
    exact ensure_bind ⟨Json.equal_self hboard, hlanes⟩

/-- One page more. -/
theorem Sound.addPage [DecidableEq F] (h : Sound lib fields a) {done rest : List (TaskRow F)}
    (htasks : a.tasks = done ++ (tasks ++ rest)) (hasMore : Bool) {s : Fetched F}
    (hs : Progress a done s) :
    ∃ s', addPage lib a.board.channel s (pageRead lib a tasks hasMore) = .ok s' ∧
      Progress a (done ++ tasks) s' ∧ s'.totalBytes = s.totalBytes ∧
      s'.combined = some (trackerBoardSnapshotPayload a.board a.tasks.length,
        a.lanes.map trackerLaneSnapshotPayload) := by
  have hsub : tasks ⊆ a.tasks := fun task htask =>
    htasks ▸ List.mem_append_right _ (List.mem_append_left _ htask)
  have hlast : (tasks.map trackerTaskSnapshotPayload).foldlM (takeTask lib a.board.channel)
      s.lastTaskId = .ok (lastId (done ++ tasks)) := by
    rw [hs.last]
    exact h.takeTasks htasks
  have husers : ∀ user ∈ pageUsers a tasks,
      UserOk user ∧ lookupBy UserRow.ref user.ref a.users = some user := fun user huser =>
    ⟨h.pageUser_ok hsub huser, (mem_pageUsers.mp huser).2⟩
  obtain ⟨profiles, hprofiles, hprofiled, hmem⟩ := @takeProfiles F a _ _ husers hs.profiled
  have hassignees : ((sortRefs (assignees tasks)).map refPayload).foldlM (takeAssignee lib)
      s.assignees = .ok (s.assignees ++ sortRefs (assignees tasks)) :=
    takeAssignees fun ref href => h.assignee_refOk hsub (mem_sortRefs.mp href)
  refine ⟨{ s with
      combined := some (trackerBoardSnapshotPayload a.board a.tasks.length,
        a.lanes.map trackerLaneSnapshotPayload)
      tasks := s.tasks ++ tasks.map trackerTaskSnapshotPayload
      lastTaskId := lastId (done ++ tasks)
      profiles
      assignees := s.assignees ++ sortRefs (assignees tasks) }, ?_, ?_, rfl, rfl⟩
  · refine Eq.trans (bind_of_eq_ok (h.combine_eq hasMore hs.combined)) ?_
    refine Eq.trans (bind_of_eq_ok hlast) ?_
    exact Eq.trans (bind_of_eq_ok hprofiles) (bind_of_eq_ok hassignees)
  · refine ⟨.inr rfl, ?_, rfl, hprofiled, fun ref => ?_, fun ref => ?_⟩
    · change s.tasks ++ tasks.map trackerTaskSnapshotPayload = _
      rw [hs.tasks, List.map_append]
    · rw [hmem, hs.mem_profiles, mem_pageUsers_ref h hsub, Authority.taskUsers,
        Authority.taskUsers, Authority.taskUsers, List.map_append, assignees, assignees, assignees,
        List.filterMap_append]
      simp only [List.mem_append]
      tauto
    · change ref ∈ s.assignees ++ sortRefs (assignees tasks) ↔ _
      rw [List.mem_append, hs.mem_assignees, mem_sortRefs, assignees, assignees, assignees,
        List.filterMap_append, List.mem_append]

/-! ## All pages -/

theorem Sound.finish_eq (h : Sound lib fields a) {s : Fetched F} (hs : Progress a a.tasks s)
    (hcombined : s.combined = some (trackerBoardSnapshotPayload a.board a.tasks.length,
      a.lanes.map trackerLaneSnapshotPayload)) :
    ∃ profiles refs, Names a profiles refs ∧ Profiled a profiles ∧
      finish lib a.board.guild a.board.channel s (pageRead lib a tasks false) =
        .ok (snapshotTree a profiles refs) := by
  have hcount : a.tasks.length ≤ maxDatabaseSnowflake := h.tasks_count.trans (by decide)
  have hlength : a.tasks.length = s.tasks.length := by rw [hs.tasks, List.length_map]
  have hperm : (s.profiles.insertionSort ProfileLe).Perm s.profiles :=
    List.perm_insertionSort _ _
  have hnames : Names a (s.profiles.insertionSort ProfileLe) (sortRefs s.assignees) := by
    refine ⟨fun p hp => ?_, ?_, fun ref => ?_, nodup_sortRefs _, fun ref => ?_⟩
    · obtain ⟨user, hok, -, rfl⟩ := hs.profiled.rows p (hperm.mem_iff.mp hp)
      exact hok.profileOk
    · exact (hperm.map _).nodup_iff.mpr hs.profiled.nodup
    · rw [(hperm.map _).mem_iff, hs.mem_profiles]
    · rw [mem_sortRefs, hs.mem_assignees]
  have hsnapshot : s.snapshot (trackerBoardSnapshotPayload a.board a.tasks.length)
      (a.lanes.map trackerLaneSnapshotPayload) =
        snapshotTree a (s.profiles.insertionSort ProfileLe) (sortRefs s.assignees) := by
    rw [Fetched.snapshot, snapshotTree, hs.tasks]
  have hprofiled : Profiled a (s.profiles.insertionSort ProfileLe) :=
    ⟨fun p hp => hs.profiled.rows p (hperm.mem_iff.mp hp), hnames.profiles_nodup⟩
  refine ⟨_, _, hnames, hprofiled, ?_⟩
  refine Eq.trans (ensure_bind rfl) ?_
  refine Eq.trans (bind_of_eq_ok (snowflake_idText hcount _)) ?_
  refine Eq.trans (ensure_bind hlength) ?_
  rw [hcombined]
  dsimp only [Option.getD_some]
  rw [hsnapshot]
  exact bind_of_eq_ok (h.validateTrackerSnapshot hnames)

theorem Sound.checkCursor_eq (h : Sound lib fields a) {done : List (TaskRow F)} {s : Fetched F}
    (htasks : tasks ⊆ a.tasks) (hadvance : tasks ≠ []) (hs : Progress a (done ++ tasks) s) :
    checkCursor s (pageRead lib a tasks true) = .ok () := by
  obtain ⟨last, hlast⟩ := List.getLast?_isSome.mpr hadvance |> Option.isSome_iff_exists.mp
  have hid : cursorId tasks true = some last.ref.id := by
    rw [cursorId, if_pos rfl, hlast]
    rfl
  have hle := h.cursorId_le htasks hid
  have hcursor : (trackerSnapshotCursor lib a.board last.ref.id).length ≤ 1024 :=
    length_trackerSnapshotCursor_le lib h.channel h.guild hle
  have hnonempty : tasks.map trackerTaskSnapshotPayload ≠ [] := fun hnil =>
    hadvance (List.map_eq_nil_iff.mp hnil)
  have hafter : ((last.ref.id : Nat) : Int) = s.lastTaskId := by
    rw [hs.last, lastId, List.getLast?_append, hlast]
    rfl
  simp only [checkCursor, pageRead, hid, Option.map_some, optionalText, Json.str?, Option.any_some]
  refine Eq.trans (ensure_bind ⟨decide_eq_true hcursor, hnonempty⟩) ?_
  refine Eq.trans (bind_of_eq_ok (snowflake_idText hle _)) ?_
  exact ensure_eq_ok.mpr hafter

theorem receive_page {page : Json F} {totalBytes : Nat}
    (heach : (pageBytes lib page).length ≤ maxTrackerPageResponseBytes)
    (htotal : totalBytes + (pageBytes lib page).length ≤ maxTrackerSnapshotBytes) :
    receive totalBytes (pageResponse lib page) = .ok (pageBytes lib page) := by
  refine Eq.trans (ensure_bind (Nat.le_min.mpr ⟨heach, ?_⟩)) ?_
  · change (pageBytes lib page).length ≤ _
    omega
  · refine Eq.trans (ensure_bind (show (200 : Nat) ≠ 409 by decide)) ?_
    refine Eq.trans (ensure_bind (show (200 : Nat) ≠ 403 by decide)) ?_
    exact Eq.trans (ensure_bind (show (200 : Nat) ≠ 404 by decide)) (ensure_bind rfl)

theorem pageBytes_pos (lib : Library F) (a : Authority F) (tasks : List (TaskRow F))
    (hasMore : Bool) : 0 < (pageBytes lib (pageTree lib a tasks hasMore)).length := by
  have hbrace : (String.utf8EncodeChar '\x7b').length = 1 := by decide
  rw [pageBytes, pageTree, Json.dumps, Utf8.encode_cons, List.length_append, hbrace]
  omega

/-- The loop reads a page and goes on, or it fails there. -/
theorem Sound.fetchPages_cons [DecidableEq F] (h : Sound lib fields a)
    (hfloats : ∀ x, lib.fields.small x = true → lib.floats.Reads x)
    {done rest : List (TaskRow F)} (htasks : a.tasks = done ++ (tasks ++ rest)) (hasMore : Bool)
    (hcount : tasks.length ≤ maxTrackerPageTaskCandidates) {s : Fetched F} (hs : Progress a done s)
    (heach : (pageBytes lib (pageTree lib a tasks hasMore)).length ≤ maxTrackerPageResponseBytes)
    (htotal : s.totalBytes + (pageBytes lib (pageTree lib a tasks hasMore)).length ≤
      maxTrackerSnapshotBytes) (requests : Nat) (responses : List Response) :
    (Accepted lib (pageTree lib a tasks hasMore) ∧ ∃ s', Progress a (done ++ tasks) s' ∧
      s'.totalBytes = s.totalBytes + (pageBytes lib (pageTree lib a tasks hasMore)).length ∧
      s'.combined = some (trackerBoardSnapshotPayload a.board a.tasks.length,
        a.lanes.map trackerLaneSnapshotPayload) ∧
      fetchPages lib a.board.guild a.board.channel (requests + 1) s
          (pageResponse lib (pageTree lib a tasks hasMore) :: responses) =
        if (pageRead lib a tasks hasMore).nextCursor.isNull then
          finish lib a.board.guild a.board.channel s' (pageRead lib a tasks hasMore)
        else do
          checkCursor s' (pageRead lib a tasks hasMore)
          fetchPages lib a.board.guild a.board.channel requests s' responses) ∨
      (¬ Accepted lib (pageTree lib a tasks hasMore) ∧ ∃ e,
        fetchPages lib a.board.guild a.board.channel (requests + 1) s
          (pageResponse lib (pageTree lib a tasks hasMore) :: responses) = .error e) := by
  have hsub : tasks ⊆ a.tasks := fun task htask =>
    htasks ▸ List.mem_append_right _ (List.mem_append_left _ htask)
  have hpos := pageBytes_pos lib a tasks hasMore
  have hroom : s.totalBytes < maxTrackerSnapshotBytes := by omega
  have hstart : ∀ f : List UInt8 → Except SnapshotError (Json F),
      (ensure (s.totalBytes < maxTrackerSnapshotBytes)
        (.runtime "tracker snapshot exceeded its aggregate byte limit") >>= fun _ =>
          receive s.totalBytes (pageResponse lib (pageTree lib a tasks hasMore)) >>= f) =
        f (pageBytes lib (pageTree lib a tasks hasMore)) := fun f =>
    (ensure_bind hroom).trans (bind_of_eq_ok (receive_page heach htotal))
  rcases decode_pageBytes hfloats (h.page_carried hsub hcount hasMore) with
    ⟨hdecode, haccepted⟩ | ⟨⟨e, hdecode⟩, hrefused⟩
  · obtain ⟨s', hadd, hprogress, hbytes, hcombined⟩ := h.addPage htasks hasMore
      (s := { s with totalBytes := s.totalBytes +
        (pageBytes lib (pageTree lib a tasks hasMore)).length }) { hs with }
    refine .inl ⟨haccepted, s', hprogress, hbytes, hcombined, ?_⟩
    rw [fetchPages]
    refine Eq.trans (hstart _) ?_
    refine Eq.trans (bind_of_eq_ok hdecode) ?_
    refine Eq.trans (bind_of_eq_ok (readPage_pageTree hcount hasMore)) ?_
    exact bind_of_eq_ok hadd
  · refine .inr ⟨hrefused, e, ?_⟩
    rw [fetchPages]
    refine Eq.trans (hstart _) ?_
    rw [hdecode]
    rfl

/-- The pages that are left, and what is left of the limits for them. -/
structure Ahead (lib : Library F) (a : Authority F) (done : List (TaskRow F)) (s : Fetched F)
    (requests : Nat) (parts : List (List (TaskRow F))) : Prop where
  join : a.tasks = done ++ parts.flatten
  nonempty : parts ≠ []
  count : parts.length ≤ requests
  candidates : ∀ tasks ∈ parts, tasks.length ≤ maxTrackerPageTaskCandidates
  advance : ∀ tasks ∈ parts.dropLast, tasks ≠ []
  each : ∀ page ∈ pageTrees lib a parts, (pageBytes lib page).length ≤ maxTrackerPageResponseBytes
  total : s.totalBytes +
      ((pageTrees lib a parts).map fun page => (pageBytes lib page).length).sum ≤
    maxTrackerSnapshotBytes

/-- The loop reads all pages, or fails at the first that the reader does not
accept. -/
theorem Sound.fetchPages_spec [DecidableEq F] (h : Sound lib fields a)
    (hfloats : ∀ x, lib.fields.small x = true → lib.floats.Reads x)
    {parts : List (List (TaskRow F))} {done : List (TaskRow F)} {s : Fetched F} {requests : Nat}
    (hs : Progress a done s) (hahead : Ahead lib a done s requests parts) :
    ((∀ page ∈ pageTrees lib a parts, Accepted lib page) ∧
        ∃ profiles refs, Names a profiles refs ∧ Profiled a profiles ∧
          fetchPages lib a.board.guild a.board.channel requests s
            ((pageTrees lib a parts).map (pageResponse lib)) =
              .ok (snapshotTree a profiles refs)) ∨
      ((∃ page ∈ pageTrees lib a parts, ¬ Accepted lib page) ∧
        ∃ e, fetchPages lib a.board.guild a.board.channel requests s
          ((pageTrees lib a parts).map (pageResponse lib)) = .error e) := by
  induction parts generalizing done s requests with
  | nil => exact absurd rfl hahead.nonempty
  | cons tasks rest ih =>
    obtain ⟨requests, rfl⟩ : ∃ n, requests = n + 1 :=
      ⟨requests - 1, by have := hahead.count; rw [List.length_cons] at this; omega⟩
    obtain ⟨hcount, hcandidates⟩ := List.forall_mem_cons.mp hahead.candidates
    have hjoin : a.tasks = done ++ (tasks ++ rest.flatten) := hahead.join
    have heach := hahead.each
    have htotal := hahead.total
    rw [pageTrees] at heach htotal ⊢
    rw [List.map_cons, List.sum_cons] at htotal
    obtain ⟨hsize, heach⟩ := List.forall_mem_cons.mp heach
    rw [List.map_cons]
    rcases h.fetchPages_cons hfloats hjoin (!rest.isEmpty) hcount hs hsize (by omega) requests
        ((pageTrees lib a rest).map (pageResponse lib)) with
      ⟨haccepted, s', hprogress, hbytes, hcombined, hrun⟩ | ⟨hrefused, e, hrun⟩
    · rw [hrun]
      cases rest with
      | nil =>
        have hdone : done ++ tasks = a.tasks := by
          rw [hjoin, List.flatten_nil, List.append_nil]
        rw [hdone] at hprogress
        obtain ⟨profiles, refs, hnames, hprofiled, hfinish⟩ :=
          @Sound.finish_eq F lib fields a tasks h _
          hprogress hcombined
        refine .inl ⟨?_, profiles, refs, hnames, hprofiled, (if_pos rfl).trans hfinish⟩
        exact List.forall_mem_cons.mpr ⟨haccepted, fun _ hp => absurd hp List.not_mem_nil⟩
      | cons next rest =>
        have hsub : tasks ⊆ a.tasks := fun task htask =>
          hjoin ▸ List.mem_append_right _ (List.mem_append_left _ htask)
        have hadvance : tasks ≠ [] := hahead.advance tasks List.mem_cons_self
        have hnext : Ahead lib a (done ++ tasks) s' requests (next :: rest) := by
          refine ⟨?_, List.cons_ne_nil _ _, ?_, hcandidates, fun tasks' hmem => ?_, heach, ?_⟩
          · rw [hjoin, List.append_assoc]
          · have hlength := hahead.count
            rw [List.length_cons] at hlength
            omega
          · exact hahead.advance tasks' (List.mem_cons_of_mem _ hmem)
          · omega
        have hmore :
            (pageRead lib a tasks (!(next :: rest).isEmpty)).nextCursor.isNull = false := by
          obtain ⟨last, hlast⟩ := Option.isSome_iff_exists.mp (List.getLast?_isSome.mpr hadvance)
          simp [pageRead, cursorId, hlast, optionalText, Json.isNull]
        have hgo : (if (pageRead lib a tasks (!(next :: rest).isEmpty)).nextCursor.isNull then
            finish lib a.board.guild a.board.channel s'
              (pageRead lib a tasks (!(next :: rest).isEmpty))
          else do
            checkCursor s' (pageRead lib a tasks (!(next :: rest).isEmpty))
            fetchPages lib a.board.guild a.board.channel requests s'
              ((pageTrees lib a (next :: rest)).map (pageResponse lib))) =
            fetchPages lib a.board.guild a.board.channel requests s'
              ((pageTrees lib a (next :: rest)).map (pageResponse lib)) := by
          rw [hmore, if_neg Bool.false_ne_true]
          exact bind_of_eq_ok (h.checkCursor_eq hsub hadvance hprogress)
        rw [hgo]
        rcases ih hprogress hnext with ⟨hall, hresult⟩ | ⟨⟨page, hpage, hrefused⟩, hfailed⟩
        · exact .inl ⟨List.forall_mem_cons.mpr ⟨haccepted, hall⟩, hresult⟩
        · exact .inr ⟨⟨page, List.mem_cons_of_mem _ hpage, hrefused⟩, hfailed⟩
    · exact .inr ⟨⟨_, List.mem_cons_self, hrefused⟩, e, hrun⟩

end

end TrackerSync

end Kaede
