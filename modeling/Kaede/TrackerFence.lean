import Kaede.TrackerMirror

/-!
# A fetched snapshot is of one version

The authority may change the board between two pages. The pages of a fetch
that succeeds all have the board of the first, so they are of one version,
and as their tasks go up by id and are as many as the board has, they are
all the tasks of that version (`fetchTrackerSnapshotOnce_sound`). The rows of
users have no version: each profile is that of a row in one of the states
that served a page, and two of them may be of different states. Nothing is
asked of the cursors: the authority may choose the tasks of a page as it
likes.
-/

namespace Kaede

namespace TrackerSync

open Replication (RemoteUserProfile UserRow maxDatabaseSnowflake)
open TrackerFields

variable {F : Type} {lib : Library F} {a b : Authority F}

/-! ## States of the authority -/

/-- The board, its lanes and its tasks; the rows of users have no version. -/
structure SameRows (a b : Authority F) : Prop where
  board : a.board = b.board
  lanes : a.lanes = b.lanes
  tasks : a.tasks = b.tasks

theorem SameRows.refl (a : Authority F) : SameRows a a := ⟨rfl, rfl, rfl⟩

theorem SameRows.symm (h : SameRows a b) : SameRows b a :=
  ⟨h.board.symm, h.lanes.symm, h.tasks.symm⟩

/-- The states that an authority has had: sound boards of one channel, in
which the version tells the rows apart. -/
structure History (lib : Library F) (channel guild : Ref) (states : List (Authority F)) : Prop where
  sound : ∀ a ∈ states, ∃ fields, Sound lib fields a
  channel : ∀ a ∈ states, a.board.channel = channel
  guild : ∀ a ∈ states, a.board.guild = guild
  version : ∀ a ∈ states, ∀ b ∈ states, a.board.updatedAt = b.board.updatedAt → SameRows a b

theorem History.mono {channel guild : Ref} {states states' : List (Authority F)}
    (h : states ⊆ states') (hstates : History lib channel guild states') :
    History lib channel guild states where
  sound a ha := hstates.sound a (h ha)
  channel a ha := hstates.channel a (h ha)
  guild a ha := hstates.guild a (h ha)
  version a ha b hb := hstates.version a (h ha) b (h hb)

/-- An answer of the authority: a page in one of its states, or a refusal. -/
def Served (lib : Library F) (states : List (Authority F)) (response : Response) : Prop :=
  response.status ≠ 200 ∨ ∃ a ∈ states, ∃ tasks hasMore, tasks ⊆ a.tasks ∧
    tasks.length ≤ maxTrackerPageTaskCandidates ∧
    response = pageResponse lib (pageTree lib a tasks hasMore)

/-- The board and the lanes, as all pages of a state have them. -/
def frame (a : Authority F) : Json F × List (Json F) :=
  (trackerBoardSnapshotPayload a.board a.tasks.length, a.lanes.map trackerLaneSnapshotPayload)

theorem equalMembers_lookup [DecidableEq F] {as bs : List (String × Json F)} {key : String}
    {v w : Json F} (h : Json.equalMembers as bs = true) (hv : as.lookup key = some v)
    (hw : bs.lookup key = some w) : v.equal w = true := by
  induction as with
  | nil => cases hv
  | cons m ms ih =>
    obtain ⟨name, u⟩ := m
    rw [Json.equalMembers, Bool.and_eq_true] at h
    by_cases hname : key = name
    · subst hname
      rw [List.lookup_cons_self] at hv
      obtain rfl : u = v := Option.some.inj hv
      have hhead := h.1
      rw [hw] at hhead
      exact hhead
    · rw [List.lookup_cons, beq_false_of_ne hname] at hv
      exact ih h.2 hv

/-- Boards that are equal on the wire have one version. -/
theorem updatedAt_of_equal [DecidableEq F] {n m : Nat}
    (h : (trackerBoardSnapshotPayload a.board n : Json F).equal
      (trackerBoardSnapshotPayload b.board m) = true) : a.board.updatedAt = b.board.updatedAt := by
  have hmembers := (Bool.and_eq_true_iff.mp h).2
  have htexts : (timeText a.board.updatedAt : Json F).equal (timeText b.board.updatedAt) = true :=
    @equalMembers_lookup F _ _ _ "updated_at" _ _ hmembers rfl rfl
  exact CivilTime.isoformat_injective (of_decide_eq_true htexts)

/-! ## The pages so far -/

/-- Each profile is that of a row of its user, in one of the states. -/
def Met (states : List (Authority F)) (profiles : List RemoteUserProfile) : Prop :=
  ∀ p ∈ profiles, ∃ a ∈ states, ∃ user, UserOk user ∧
    lookupBy UserRow.ref p.ref a.users = some user ∧ p = profileOf user

/-- What the pages so far have told, whatever their states. -/
structure Gathered (states : List (Authority F)) (done : List (TaskRow F)) (s : Fetched F) :
    Prop where
  tasks : s.tasks = done.map trackerTaskSnapshotPayload
  last : s.lastTaskId = lastId done
  increasing : done.Pairwise fun t u => t.ref.id < u.ref.id
  met : Met states s.profiles
  profiles_nodup : (s.profiles.map RemoteUserProfile.ref).Nodup
  mem_profiles : ∀ ref, ref ∈ s.profiles.map RemoteUserProfile.ref ↔ ref ∈ Authority.taskUsers done
  mem_assignees : ∀ ref, ref ∈ s.assignees ↔ ref ∈ assignees done

theorem Met.ok {states : List (Authority F)} {profiles : List RemoteUserProfile}
    (h : Met states profiles) : ∀ p ∈ profiles, ProfileOk p := by
  intro p hp
  obtain ⟨a, -, user, huser, -, rfl⟩ := h p hp
  exact huser.profileOk

theorem gathered_start (states : List (Authority F)) : Gathered states [] {} where
  tasks := rfl
  last := rfl
  increasing := List.Pairwise.nil
  met _ hp := absurd hp List.not_mem_nil
  profiles_nodup := List.nodup_nil
  mem_profiles _ := Iff.rfl
  mem_assignees _ := Iff.rfl

theorem le_lastId {done : List (TaskRow F)} (h : done.Pairwise fun t u => t.ref.id < u.ref.id)
    {task : TaskRow F} (htask : task ∈ done) : (task.ref.id : Int) ≤ lastId done := by
  induction done using List.reverseRecOn with
  | nil => cases htask
  | append_singleton done last ih =>
    rw [lastId_append_singleton]
    rw [List.pairwise_append] at h
    rcases List.mem_append.mp htask with hmem | hmem
    · exact Int.ofNat_le.mpr (h.2.2 task hmem last List.mem_cons_self).le
    · rw [List.mem_singleton.mp hmem]

/-- The ids of the tasks that a page adds go up. -/
theorem takeTasks_sound {channel : Ref} {tasks done : List (TaskRow F)} {n : Int}
    (hrefs : ∀ task ∈ tasks, RefOk task.ref)
    (hdone : done.Pairwise fun t u => t.ref.id < u.ref.id)
    (h : (tasks.map trackerTaskSnapshotPayload).foldlM (takeTask lib channel) (lastId done) =
      .ok n) :
    n = lastId (done ++ tasks) ∧ (done ++ tasks).Pairwise fun t u => t.ref.id < u.ref.id := by
  induction tasks generalizing done with
  | nil =>
    rw [List.append_nil]
    exact ⟨(Except.ok.inj h).symm, hdone⟩
  | cons task tasks ih =>
    obtain ⟨href, hrefs⟩ := List.forall_mem_cons.mp hrefs
    have hread : trackerRef lib (trackerTaskSnapshotPayload task) "page task" = .ok task.ref :=
      trackerRef_ok href rfl rfl rfl
    rw [List.map_cons, List.foldlM_cons, takeTask, bind_of_eq_ok hread, bind_eq_ok] at h
    obtain ⟨last, hlast, h⟩ := h
    rw [check_bind_eq_ok, ensure_eq_ok] at hlast
    obtain ⟨⟨-, hlt⟩, hlast⟩ := hlast
    have hnext : (done ++ [task]).Pairwise fun t u => t.ref.id < u.ref.id := by
      rw [List.pairwise_append]
      refine ⟨hdone, List.pairwise_singleton _ _, fun t ht u hu => ?_⟩
      obtain rfl := List.mem_singleton.mp hu
      exact Int.ofNat_lt.mp ((le_lastId hdone ht).trans_lt hlt)
    rw [← Except.ok.inj hlast, ← lastId_append_singleton done task] at h
    have hresult := ih hrefs hnext h
    rwa [List.append_assoc] at hresult

/-- One profile of a page, which has not changed since an earlier one. -/
theorem takeProfile_sound {states : List (Authority F)} (ha : a ∈ states) {user : UserRow}
    (huser : UserOk user) (hrow : lookupBy UserRow.ref user.ref a.users = some user)
    {profiles profiles' : List RemoteUserProfile} (hmet : Met states profiles)
    (hnodup : (profiles.map RemoteUserProfile.ref).Nodup)
    (h : takeProfile profiles (dumpProfile (profileOf user) : Json F) = .ok profiles') :
    Met states profiles' ∧ (profiles'.map RemoteUserProfile.ref).Nodup ∧
      ∀ ref, ref ∈ profiles'.map RemoteUserProfile.ref ↔
        ref ∈ profiles.map RemoteUserProfile.ref ∨ ref = user.ref := by
  rw [takeProfile, bind_of_eq_ok huser.profileOk.validate] at h
  cases hfound : lookupBy RemoteUserProfile.ref (profileOf user).ref profiles with
  | none =>
    rw [hfound] at h
    obtain rfl := Except.ok.inj h
    have hnew : user.ref ∉ profiles.map RemoteUserProfile.ref := by
      rw [List.mem_map]
      rintro ⟨p, hp, hpref⟩
      exact absurd (decide_eq_true hpref) (List.find?_eq_none.mp hfound p hp)
    have hrefs : (profiles ++ [profileOf user]).map RemoteUserProfile.ref =
        profiles.map RemoteUserProfile.ref ++ [user.ref] := List.map_append
    rw [hrefs]
    refine ⟨fun p hp => ?_, hnodup.append (List.nodup_singleton _) ?_, fun ref => ?_⟩
    · rcases List.mem_append.mp hp with hp | hp
      · exact hmet p hp
      · obtain rfl := List.mem_singleton.mp hp
        exact ⟨a, ha, user, huser, hrow, rfl⟩
    · exact List.disjoint_singleton.mpr hnew
    · rw [List.mem_append, List.mem_singleton]
  | some previous =>
    rw [hfound] at h
    obtain rfl := Except.ok.inj (check_bind_eq_ok.mp h).2
    have hold : user.ref ∈ profiles.map RemoteUserProfile.ref :=
      List.mem_map.mpr ⟨previous, mem_of_lookupBy hfound, key_of_lookupBy hfound⟩
    refine ⟨hmet, hnodup, fun ref => ⟨.inl, ?_⟩⟩
    rintro (hin | rfl)
    · exact hin
    · exact hold

/-- The profiles of a page, when none of them has changed. -/
theorem takeProfiles_sound {states : List (Authority F)} (ha : a ∈ states) {users : List UserRow}
    {profiles profiles' : List RemoteUserProfile}
    (husers : ∀ user ∈ users, UserOk user ∧ lookupBy UserRow.ref user.ref a.users = some user)
    (hmet : Met states profiles) (hnodup : (profiles.map RemoteUserProfile.ref).Nodup)
    (h : (users.map fun user => (dumpProfile (profileOf user) : Json F)).foldlM takeProfile
      profiles = .ok profiles') :
    Met states profiles' ∧ (profiles'.map RemoteUserProfile.ref).Nodup ∧
      ∀ ref, ref ∈ profiles'.map RemoteUserProfile.ref ↔
        ref ∈ profiles.map RemoteUserProfile.ref ∨ ref ∈ users.map UserRow.ref := by
  induction users generalizing profiles with
  | nil =>
    obtain rfl := Except.ok.inj h
    exact ⟨hmet, hnodup, fun ref => by simp⟩
  | cons user users ih =>
    obtain ⟨⟨huser, hrow⟩, husers⟩ := List.forall_mem_cons.mp husers
    rw [List.map_cons, List.foldlM_cons] at h
    obtain ⟨next, hnext, h⟩ := bind_eq_ok.mp h
    obtain ⟨hmet₁, hnodup₁, hmem₁⟩ := takeProfile_sound ha huser hrow hmet hnodup hnext
    obtain ⟨hmet₂, hnodup₂, hmem₂⟩ := ih husers hmet₁ hnodup₁ h
    refine ⟨hmet₂, hnodup₂, fun ref => ?_⟩
    rw [hmem₂, hmem₁, List.map_cons, List.mem_cons, or_assoc]

section

variable {fields : List TrackerField} {tasks : List (TaskRow F)}

/-- A later page has the frame of the first, and is of its version. -/
theorem combine_sound [DecidableEq F] {hasMore : Bool} {c : Json F × List (Json F)}
    (h : combine (some (frame b)) (pageRead lib a tasks hasMore) = .ok c) :
    c = frame b ∧ a.board.updatedAt = b.board.updatedAt := by
  obtain ⟨hequal, hc⟩ := check_bind_eq_ok.mp h
  rw [ensure_eq_ok] at hequal
  exact ⟨(Except.ok.inj hc).symm, updatedAt_of_equal hequal.1⟩

/-- A page that was added. -/
theorem addPage_sound [DecidableEq F] (ha : Sound lib fields a) {states : List (Authority F)}
    (hmem : a ∈ states) (htasks : tasks ⊆ a.tasks) {channel : Ref} {hasMore : Bool}
    {done : List (TaskRow F)} {s s' : Fetched F} (hs : Gathered states done s)
    (h : addPage lib channel s (pageRead lib a tasks hasMore) = .ok s') :
    Gathered states (done ++ tasks) s' ∧
      ∃ c, combine s.combined (pageRead lib a tasks hasMore) = .ok c ∧ s'.combined = some c := by
  rw [addPage] at h
  obtain ⟨c, hc, h⟩ := bind_eq_ok.mp h
  obtain ⟨last, hlast, h⟩ := bind_eq_ok.mp h
  obtain ⟨profiles, hprofiles, h⟩ := bind_eq_ok.mp h
  obtain ⟨known, hknown, h⟩ := bind_eq_ok.mp h
  obtain rfl := Except.ok.inj h
  have htaskRefs : ∀ task ∈ tasks, RefOk task.ref :=
    fun task htask => (ha.tasks task (htasks htask)).ref
  have husers : ∀ user ∈ pageUsers a tasks,
      UserOk user ∧ lookupBy UserRow.ref user.ref a.users = some user :=
    fun user huser => ⟨ha.pageUser_ok htasks huser, (mem_pageUsers.mp huser).2⟩
  rw [hs.last] at hlast
  obtain ⟨hlast, hincreasing⟩ := takeTasks_sound htaskRefs hs.increasing hlast
  obtain ⟨hmet, hnodup, hrefs⟩ :=
    takeProfiles_sound hmem husers hs.met hs.profiles_nodup hprofiles
  have htaken : ((sortRefs (assignees tasks)).map refPayload).foldlM (takeAssignee lib)
      s.assignees = .ok (s.assignees ++ sortRefs (assignees tasks)) :=
    takeAssignees fun ref href => ha.assignee_refOk htasks (mem_sortRefs.mp href)
  have hassignees : known = s.assignees ++ sortRefs (assignees tasks) :=
    Except.ok.inj (hknown.symm.trans htaken)
  refine ⟨⟨?_, hlast, hincreasing, hmet, hnodup, fun ref => ?_, fun ref => ?_⟩, c, hc, rfl⟩
  · change s.tasks ++ tasks.map trackerTaskSnapshotPayload = _
    rw [hs.tasks, List.map_append]
  · change ref ∈ profiles.map RemoteUserProfile.ref ↔ _
    rw [hrefs, hs.mem_profiles, mem_pageUsers_ref ha htasks, Authority.taskUsers,
      Authority.taskUsers, Authority.taskUsers, List.map_append, assignees, assignees, assignees,
      List.filterMap_append]
    simp only [List.mem_append]
    tauto
  · change ref ∈ known ↔ _
    rw [hassignees, List.mem_append, hs.mem_assignees, mem_sortRefs, assignees, assignees,
      assignees, List.filterMap_append, List.mem_append]

/-- Tasks with ids that go up, as many as the board has, are all of them. -/
theorem Sound.eq_tasks (ha : Sound lib fields a) {done : List (TaskRow F)} (hsub : done ⊆ a.tasks)
    (hincreasing : done.Pairwise fun t u => t.ref.id < u.ref.id)
    (hlength : done.length = a.tasks.length) : done = a.tasks := by
  have hnodup : done.Nodup := by
    refine List.Pairwise.imp (fun {t u} hlt => ?_) hincreasing
    rintro rfl
    exact Nat.lt_irrefl _ hlt
  have hperm : done.Perm a.tasks :=
    (List.subperm_of_subset hnodup hsub).perm_of_length_le hlength.ge
  refine List.Perm.eq_of_pairwise (fun t u _ _ hlt hgt => ?_) hincreasing ha.tasks_order hperm
  exact absurd (hlt.trans hgt) (Nat.lt_irrefl _)

/-- What the last page leads to. -/
theorem finish_sound (hb : Sound lib fields b) {guild channel : Ref} {hasMore : Bool}
    {states : List (Authority F)} {done : List (TaskRow F)} {s : Fetched F}
    (hs : Gathered states done s) (hsub : done ⊆ b.tasks)
    (hcombined : s.combined = some (frame b)) (hcount : a.tasks.length = b.tasks.length)
    {snapshot : Json F}
    (h : finish lib guild channel s (pageRead lib a tasks hasMore) = .ok snapshot) :
    ∃ profiles refs, Names b profiles refs ∧ Met states profiles ∧
      snapshot = snapshotTree b profiles refs := by
  rw [finish] at h
  obtain ⟨-, hcounted⟩ := check_bind_eq_ok.mp h
  obtain ⟨expected, hexpected, hchecked⟩ := bind_eq_ok.mp hcounted
  have hread : snowflake ((pageRead lib a tasks hasMore).board.get "task_count")
      "tracker snapshot task count" = .ok a.tasks.length := by
    refine snowflake_idText ?_ _
    rw [hcount]
    exact hb.tasks_count.trans (by decide)
  obtain rfl : a.tasks.length = expected := Except.ok.inj (hread.symm.trans hexpected)
  obtain ⟨hlength, hvalidated⟩ := check_bind_eq_ok.mp hchecked
  rw [ensure_eq_ok, hs.tasks, List.length_map, hcount] at hlength
  obtain rfl : done = b.tasks := hb.eq_tasks hsub hs.increasing hlength.symm
  rw [hcombined, Option.getD_some] at hvalidated
  dsimp only [frame] at hvalidated
  obtain ⟨-, hsnapshot⟩ := check_bind_eq_ok.mp hvalidated
  have hperm : (s.profiles.insertionSort ProfileLe).Perm s.profiles := List.perm_insertionSort _ _
  refine ⟨s.profiles.insertionSort ProfileLe, sortRefs s.assignees,
    ⟨fun p hp => hs.met.ok p (hperm.mem_iff.mp hp),
      (hperm.map _).nodup_iff.mpr hs.profiles_nodup, fun ref => ?_, nodup_sortRefs _,
      fun ref => ?_⟩, fun p hp => hs.met p (hperm.mem_iff.mp hp), ?_⟩
  · rw [(hperm.map _).mem_iff, hs.mem_profiles]
  · rw [mem_sortRefs, hs.mem_assignees]
  · rw [← Except.ok.inj hsnapshot, Fetched.snapshot, hs.tasks, snapshotTree]

/-- What has been fetched is of one of the states, if of any. -/
def OfOne (states : List (Authority F)) (done : List (TaskRow F)) (s : Fetched F) : Prop :=
  (s.combined = none ∧ done = []) ∨ ∃ b ∈ states, s.combined = some (frame b) ∧ done ⊆ b.tasks

/-- One more page leaves what has been fetched of one state. -/
theorem ofOne_step [DecidableEq F] {channel guild : Ref} {states : List (Authority F)}
    (hstates : History lib channel guild states) (hmem : a ∈ states) (htasks : tasks ⊆ a.tasks)
    {hasMore : Bool} {done : List (TaskRow F)} {s s' : Fetched F} {c : Json F × List (Json F)}
    (hone : OfOne states done s)
    (hc : combine s.combined (pageRead lib a tasks hasMore) = .ok c)
    (hcombined : s'.combined = some c) :
    ∃ b ∈ states, s'.combined = some (frame b) ∧ done ++ tasks ⊆ b.tasks ∧
      a.tasks.length = b.tasks.length := by
  rcases hone with ⟨hnone, rfl⟩ | ⟨b, hb, hsome, hsub⟩
  · rw [hnone] at hc
    rw [← Except.ok.inj hc] at hcombined
    exact ⟨a, hmem, hcombined, htasks, rfl⟩
  · rw [hsome] at hc
    obtain ⟨rfl, hversion⟩ := combine_sound hc
    have hrows := hstates.version a hmem b hb hversion
    refine ⟨b, hb, hcombined, List.append_subset.mpr ⟨hsub, hrows.tasks ▸ htasks⟩, ?_⟩
    rw [hrows.tasks]

end

/-! ## Fetching -/

theorem receive_ok {totalBytes : Nat} {response : Response} {content : List UInt8}
    (h : receive totalBytes response = .ok content) :
    response.status = 200 ∧ content = response.content := by
  obtain ⟨-, h⟩ := check_bind_eq_ok.mp h
  obtain ⟨-, h⟩ := check_bind_eq_ok.mp h
  obtain ⟨-, h⟩ := check_bind_eq_ok.mp h
  obtain ⟨-, h⟩ := check_bind_eq_ok.mp h
  obtain ⟨hstatus, h⟩ := check_bind_eq_ok.mp h
  exact ⟨ensure_eq_ok.mp hstatus, (Except.ok.inj h).symm⟩

section

variable {channel guild : Ref} {states : List (Authority F)}

/-- A page that was read is one of a state. -/
theorem Served.read (hfloats : ∀ x, lib.fields.small x = true → lib.floats.Reads x)
    (hstates : History lib channel guild states) {response : Response}
    (hserved : Served lib states response) (hstatus : response.status = 200) {payload : Json F}
    (hdecode : decodeFederationResponseJson lib response.content = .ok payload) {page : Page F}
    (hpage : readPage payload = .ok page) :
    ∃ a ∈ states, ∃ tasks hasMore, tasks ⊆ a.tasks ∧ page = pageRead lib a tasks hasMore := by
  rcases hserved with hrefused | ⟨a, ha, tasks, hasMore, htasks, hcount, rfl⟩
  · exact absurd hstatus hrefused
  · obtain ⟨fields, hsound⟩ := hstates.sound a ha
    refine ⟨a, ha, tasks, hasMore, htasks, ?_⟩
    rcases decode_pageBytes hfloats (hsound.page_carried htasks hcount hasMore) with
      ⟨hok, -⟩ | ⟨⟨e, herror⟩, -⟩
    · obtain rfl : pageTree lib a tasks hasMore = payload :=
        Except.ok.inj (hok.symm.trans hdecode)
      exact Except.ok.inj (hpage.symm.trans (readPage_pageTree hcount hasMore))
    · exact absurd (herror.symm.trans hdecode) (fun heq => nomatch heq)

theorem fetchPages_sound [DecidableEq F]
    (hfloats : ∀ x, lib.fields.small x = true → lib.floats.Reads x)
    (hstates : History lib channel guild states) {requests : Nat} {responses : List Response}
    (hserved : ∀ response ∈ responses, Served lib states response) {done : List (TaskRow F)}
    {s : Fetched F} (hs : Gathered states done s) (hone : OfOne states done s)
    {snapshot : Json F} (h : fetchPages lib guild channel requests s responses = .ok snapshot) :
    ∃ a ∈ states, ∃ profiles refs, Names a profiles refs ∧ Met states profiles ∧
      snapshot = snapshotTree a profiles refs := by
  induction requests generalizing responses done s with
  | zero => cases h
  | succ requests ih =>
    cases responses with
    | nil => cases h
    | cons response responses =>
      obtain ⟨hfirst, hrest⟩ := List.forall_mem_cons.mp hserved
      rw [fetchPages] at h
      obtain ⟨-, h⟩ := check_bind_eq_ok.mp h
      obtain ⟨content, hreceived, h⟩ := bind_eq_ok.mp h
      obtain ⟨hstatus, rfl⟩ := receive_ok hreceived
      obtain ⟨payload, hdecode, h⟩ := bind_eq_ok.mp h
      obtain ⟨page, hpage, h⟩ := bind_eq_ok.mp h
      obtain ⟨s', hadd, h⟩ := bind_eq_ok.mp h
      obtain ⟨a, ha, tasks, hasMore, htasks, rfl⟩ :=
        hfirst.read hfloats hstates hstatus hdecode hpage
      obtain ⟨fields, hsound⟩ := hstates.sound a ha
      obtain ⟨hgathered, c, hc, hcombined⟩ := addPage_sound hsound ha htasks
        (s := { s with totalBytes := s.totalBytes + response.content.length }) { hs with } hadd
      obtain ⟨b, hb, hframe, hsub, hlength⟩ := ofOne_step hstates ha htasks hone hc hcombined
      split at h
      · obtain ⟨fields, hsoundb⟩ := hstates.sound b hb
        exact ⟨b, hb, finish_sound hsoundb hgathered hsub hframe hlength h⟩
      · obtain ⟨-, h⟩ := check_bind_eq_ok.mp h
        exact ih hrest hgathered (.inr ⟨b, hb, hframe, hsub⟩) h

/-- What is fetched while the board changes is the snapshot of one of its
states, but for the profiles, each of which is one that a state has. -/
theorem fetchTrackerSnapshotOnce_sound [DecidableEq F]
    (hfloats : ∀ x, lib.fields.small x = true → lib.floats.Reads x)
    (hstates : History lib channel guild states) {responses : List Response}
    (hserved : ∀ response ∈ responses, Served lib states response) {snapshot : Json F}
    (h : fetchTrackerSnapshotOnce lib guild channel responses = .ok snapshot) :
    ∃ a ∈ states, ∃ profiles refs, Names a profiles refs ∧ Met states profiles ∧
      snapshot = snapshotTree a profiles refs :=
  fetchPages_sound hfloats hstates hserved (gathered_start states) (.inl ⟨rfl, rfl⟩) h

end

end TrackerSync

end Kaede
