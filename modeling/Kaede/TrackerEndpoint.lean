import Kaede.Base64url
import Kaede.TrackerFence

/-!
# The endpoint of tracker snapshots

`federation_tracker_snapshot` of `backend/app/api/federation.py`, with the
cursor it reads. A cursor is a signed text: the authority reads back the task
id that it wrote (`trackerSnapshotCursorTaskId_cursor`), and refuses a cursor
that it wrote for another version of the board.

To a cursor after some of the tasks it answers with a page of those that
follow (`Sound.serve_eq`).
-/

namespace Kaede

namespace TrackerSync

open Replication (RemoteUserProfile UserRow maxDatabaseSnowflake)
open TrackerFields

variable {F : Type}

/-! ## Cursors -/

section

variable (lib : Library F) (otherTexts : List Char → Option (Json F))

/-- `json.loads`. It takes more than the strict reader: `otherTexts` are the
texts with a key twice, or with a number that is not finite. -/
def jsonLoads (bytes : List UInt8) : Option (Json F) := do
  let text ← Json.decodeBytes lib.wide bytes
  match Json.loads lib.floats text with
  | .ok v => some v
  | .error _ => otherTexts text

def trackerSnapshotCursorTaskId (board : BoardRow F) (cursor : String) :
    Except SnapshotError Nat := do
  let invalid := SnapshotError.value "tracker snapshot cursor is invalid"
  ensure (1 ≤ cursor.length ∧ cursor.length ≤ 1024 ∧
    cursor.toList.all (fun c => c.toNat < 128) = true) invalid
  let decoded ← (decodeBase64url cursor.toList none none).mapError fun _ => invalid
  let payload := decoded.take (decoded.length - 32)
  let signature := decoded.drop (decoded.length - 32)
  let raw ← found (jsonLoads lib otherTexts payload) invalid
  ensure (signature = (lib.hmac payload).val)
    (.value "tracker snapshot cursor signature is invalid")
  ensure (raw.isObj = true) invalid
  let guild ← refAt lib raw "guild_id" "guild_domain" "tracker cursor guild id"
  let channel ← refAt lib raw "channel_id" "channel_domain" "tracker cursor channel id"
  ensure (guild = board.guild ∧ channel = board.channel ∧
    (raw.get "version").str? = some board.updatedAt.isoformat) .changed
  snowflake (raw.get "after_task_id") "tracker cursor task id"

/-- The task after which the page starts. -/
def afterTaskId (board : BoardRow F) : Option String → Except SnapshotError Int
  | none => .ok (-1)
  | some cursor =>
      match trackerSnapshotCursorTaskId lib otherTexts board cursor with
      | .ok id => .ok id
      | .error .changed => .error (.http 409 "KAED_FED_TRACKER_SNAPSHOT_CHANGED")
      | .error (.value _) | .error (.shared (.value _)) =>
          .error (.http 400 "KAED_FED_INVALID_TRACKER_CURSOR")
      | .error _ => .error (.http 500 "INTERNAL_SERVER_ERROR")

/-! ## Pages -/

/-- `TARGET_TRACKER_PAGE_BYTES`. -/
def targetTrackerPageBytes : Nat := 6 * 1024 * 1024

/-- The users of tasks, each once. -/
def usersOf (a : Authority F) (tasks : List (TaskRow F)) : List UserRow :=
  (sortRefs (Authority.taskUsers tasks)).filterMap fun ref => lookupBy UserRow.ref ref a.users

/-- `tracker_snapshot_page_size`. -/
def trackerSnapshotPageSize (a : Authority F) (tasks : List (TaskRow F)) :
    Except SnapshotError Nat := do
  let users ← (usersOf a tasks).mapM profileFromUser
  .ok (Utf8.encode (Json.dumps lib.floats (.obj [
    ("tasks", .arr (tasks.map trackerTaskSnapshotPayload)), ("users", .arr users)]))).length

/-- The loop that fills a page: the first task goes in whatever its size. -/
def selectTasks (a : Authority F) : Bool → Nat → List (TaskRow F) →
    Except SnapshotError (List (TaskRow F))
  | _, _, [] => .ok []
  | selected, estimatedBytes, task :: rest => do
      let taskSize ← trackerSnapshotPageSize lib a [task]
      if selected = true ∧ targetTrackerPageBytes < estimatedBytes + taskSize then .ok []
      else do
        let tasks ← selectTasks a true (estimatedBytes + taskSize) rest
        .ok (task :: tasks)

/-- An error response. -/
structure Refusal where
  status : Nat
  code : String
  isError : 400 ≤ status

/-- What the route reads besides the board and the cursor: what the checks
that come before them answer (the rate of the peer, the guild, a member of the
peer and a channel that it may see), the members of the guild, and the body of
an error. -/
structure Visit where
  refusal : Option Refusal
  members : List Ref
  errorBody : List UInt8

def Visit.check (visit : Visit) : Except SnapshotError Unit :=
  match visit.refusal with
  | some refusal => .error (.http refusal.status refusal.code)
  | none => .ok ()

/-- `federation_tracker_snapshot`. The rows of the authority stand in the
order of its queries, tasks by id. -/
def federationTrackerSnapshot (a : Authority F) (visit : Visit) (cursor : Option String) :
    Except SnapshotError (Json F) := do
  ensure (∀ s ∈ cursor, s.length ≤ 1024) (.http 422 "VALIDATION_ERROR")
  visit.check
  let after ← afterTaskId lib otherTexts a.board cursor
  ensure (a.lanes ≠ [] ∧ a.lanes.length ≤ maxTrackerLanes ∧ a.tasks.length ≤ maxTrackerTasks)
    (.http 409 "TRACKER_CAPACITY_INVALID")
  let candidates := (a.tasks.filter fun task => after < (task.ref.id : Int)).take
    (maxTrackerPageTaskCandidates + 1)
  ensure (∀ ref ∈ Authority.taskUsers candidates, (lookupBy UserRow.ref ref a.users).isSome = true)
    (.http 409 "TRACKER_STATE_INVALID")
  let selected ← selectTasks lib a false 0 (candidates.take maxTrackerPageTaskCandidates)
  ensure (∀ ref ∈ assignees selected, ref ∈ visit.members) (.http 409 "TRACKER_STATE_INVALID")
  a.page lib selected (decide (selected.length < candidates.length))

/-- The response of the server. -/
def respond (errorBody : List UInt8) : Except SnapshotError (Json F) → Response
  | .ok page => pageResponse lib page
  | .error (.http status _) => ⟨status, errorBody⟩
  | .error _ => ⟨500, errorBody⟩

def serve (a : Authority F) (visit : Visit) (cursor : Option String) : Response :=
  respond lib visit.errorBody (federationTrackerSnapshot lib otherTexts a visit cursor)

end

/-! ## Cursors are read back -/

section

variable {lib : Library F} {otherTexts : List Char → Option (Json F)} {board board' : BoardRow F}

theorem cursorPayload_distinct (board : BoardRow F) (n : Nat) :
    (cursorPayload board n).Distinct := by
  rw [cursorPayload, Json.Distinct, Json.distinctMembers_iff]
  refine ⟨by simp only [List.map_cons, List.map_nil]; decide, ?_⟩
  simp only [List.forall_mem_cons]
  exact ⟨trivial, trivial, trivial, trivial, trivial, trivial,
    fun _ hm => absurd hm List.not_mem_nil⟩

theorem cursorPayload_floatFree (board : BoardRow F) (n : Nat) :
    (cursorPayload board n).FloatFree := by
  rw [cursorPayload, Json.FloatFree, Json.floatFreeMembers_iff]
  simp only [List.forall_mem_cons]
  exact ⟨trivial, trivial, trivial, trivial, trivial, trivial,
    fun _ hm => absurd hm List.not_mem_nil⟩

theorem jsonLoads_dumps {v : Json F} (hdistinct : v.Distinct) (hfloats : v.FloatFree) :
    jsonLoads lib otherTexts (Utf8.encode (Json.dumps lib.floats v)) = some v := by
  have hreads : v.EveryFloat lib.floats.Reads := hfloats.everyFloat
  have hdecode : Json.decodeBytes lib.wide (Utf8.encode (Json.dumps lib.floats v)) =
      some (Json.dumps lib.floats v) := by
    obtain ⟨c, text, htext, hc, htail⟩ := Json.dumps_plain lib.floats v hreads
    rw [htext, Json.decodeBytes, Json.detectEncoding_encode hc.1 hc.2 htail]
    exact Utf8.decode?_encode _
  rw [jsonLoads, hdecode, Option.bind_eq_bind, Option.bind_some,
    Json.loads_dumps v hdistinct hreads]

/-- What the authority reads of a cursor that it wrote, whatever the version
of the board is by then. -/
theorem trackerSnapshotCursorTaskId_eq (hchannel : RefOk board.channel) (hguild : RefOk board.guild)
    {n : Nat} (hn : n ≤ maxDatabaseSnowflake) :
    trackerSnapshotCursorTaskId lib otherTexts board' (trackerSnapshotCursor lib board n) =
      if board.guild = board'.guild ∧ board.channel = board'.channel ∧
        board.updatedAt = board'.updatedAt then .ok n else .error .changed := by
  have hplain := trackerSnapshotCursor_plain lib board n
  have hle := length_trackerSnapshotCursor_le lib hchannel hguild hn
  have hascii : (trackerSnapshotCursor lib board n).toList.all (fun c => c.toNat < 128) = true :=
    List.all_eq_true.mpr fun c hc => decide_eq_true (hplain c hc).2.1
  have hdecoded : decodeBase64url (trackerSnapshotCursor lib board n).toList none none =
      .ok (Utf8.encode (Json.dumps lib.floats (cursorPayload board n)) ++
        (lib.hmac (Utf8.encode (Json.dumps lib.floats (cursorPayload board n)))).val) := by
    rw [decodeBase64url_eq_ok, trackerSnapshotCursor, String.toList_ofList]
    refine ⟨rfl, ?_, ?_⟩ <;> intro _ hbound <;> cases hbound
  generalize hpayload : Utf8.encode (Json.dumps lib.floats (cursorPayload board n)) = payload
    at hdecoded
  have hpos : 1 ≤ (trackerSnapshotCursor lib board n).length := by
    rw [Nat.one_le_iff_ne_zero, ← String.length_toList]
    intro hzero
    rw [List.length_eq_zero_iff.mp hzero, decodeBase64url_eq_ok] at hdecoded
    have hbytes : payload ++ (lib.hmac payload).val = [] := encodeBase64url_injective hdecoded.1
    have hdigest := (lib.hmac payload).property
    rw [(List.append_eq_nil_iff.mp hbytes).2] at hdigest
    cases hdigest
  have hsplit : (payload ++ (lib.hmac payload).val).length - 32 = payload.length := by
    rw [List.length_append, (lib.hmac payload).property, Nat.add_sub_cancel]
  have hraw : jsonLoads lib otherTexts payload = some (cursorPayload board n) :=
    hpayload ▸ jsonLoads_dumps (cursorPayload_distinct board n) (cursorPayload_floatFree board n)
  refine Eq.trans (ensure_bind ⟨hpos, hle, hascii⟩) ?_
  rw [hdecoded]
  refine Eq.trans (bind_of_eq_ok rfl) ?_
  dsimp only
  rw [hsplit, List.take_left, List.drop_left]
  refine Eq.trans (found_bind hraw) ?_
  refine Eq.trans (ensure_bind rfl) ?_
  refine Eq.trans (ensure_bind rfl) ?_
  refine Eq.trans (bind_of_eq_ok (refAt_ok hguild rfl rfl)) ?_
  refine Eq.trans (bind_of_eq_ok (refAt_ok hchannel rfl rfl)) ?_
  have hversion : ((cursorPayload board n).get "version").str? = some board'.updatedAt.isoformat ↔
      board.updatedAt = board'.updatedAt := by
    change some board.updatedAt.isoformat = some board'.updatedAt.isoformat ↔ _
    rw [Option.some.injEq]
    exact ⟨fun h => CivilTime.isoformat_injective h, fun h => h ▸ rfl⟩
  split
  · rename_i hsame
    refine Eq.trans (ensure_bind ⟨hsame.1, hsame.2.1, hversion.mpr hsame.2.2⟩) ?_
    exact snowflake_idText hn _
  · rename_i hother
    have hfails : ¬ (board.guild = board'.guild ∧ board.channel = board'.channel ∧
        ((cursorPayload board n).get "version").str? = some board'.updatedAt.isoformat) := by
      rwa [hversion]
    rw [ensure, if_neg hfails]
    rfl

/-- A cursor of another version is refused. -/
theorem afterTaskId_stale (hchannel : RefOk board.channel) (hguild : RefOk board.guild) {n : Nat}
    (hn : n ≤ maxDatabaseSnowflake) (hversion : board.updatedAt ≠ board'.updatedAt) :
    afterTaskId lib otherTexts board' (some (trackerSnapshotCursor lib board n)) =
      .error (.http 409 "KAED_FED_TRACKER_SNAPSHOT_CHANGED") := by
  rw [afterTaskId, trackerSnapshotCursorTaskId_eq hchannel hguild hn,
    if_neg fun hsame => hversion hsame.2.2]

theorem afterTaskId_cursor (hchannel : RefOk board.channel) (hguild : RefOk board.guild) {n : Nat}
    (hn : n ≤ maxDatabaseSnowflake) :
    afterTaskId lib otherTexts board (some (trackerSnapshotCursor lib board n)) = .ok n := by
  rw [afterTaskId, trackerSnapshotCursorTaskId_eq hchannel hguild hn, if_pos ⟨rfl, rfl, rfl⟩]

end

/-! ## One page -/

section

variable {lib : Library F} {otherTexts : List Char → Option (Json F)} {fields : List TrackerField}
  {a : Authority F} {tasks : List (TaskRow F)}

/-- What the size of tasks on a page is: that of the tasks and their users. -/
theorem Sound.pageSize_eq (h : Sound lib fields a) (htasks : tasks ⊆ a.tasks) :
    trackerSnapshotPageSize lib a tasks = .ok (Utf8.encode (Json.dumps lib.floats (.obj [
      ("tasks", .arr (tasks.map trackerTaskSnapshotPayload)),
      ("users", .arr ((pageUsers a tasks).map fun user =>
        dumpProfile (profileOf user)))]))).length := by
  have husers : (usersOf a tasks).mapM (profileFromUser (F := F)) =
      .ok ((pageUsers a tasks).map fun user => dumpProfile (profileOf user)) := by
    rw [mapM_eq_ok, List.forall₂_map_right_iff]
    exact List.forall₂_same.mpr fun user huser => (h.pageUser_ok htasks huser).profileFromUser_eq
  exact bind_of_eq_ok husers

/-- A page takes a prefix of the candidates, with the first of them. -/
theorem Sound.selectTasks_spec (h : Sound lib fields a) (htasks : tasks ⊆ a.tasks)
    (selected : Bool) (estimatedBytes : Nat) :
    ∃ taken, selectTasks lib a selected estimatedBytes tasks = .ok taken ∧ taken <+: tasks ∧
      (selected = false → tasks ≠ [] → taken ≠ []) := by
  induction tasks generalizing selected estimatedBytes with
  | nil => exact ⟨[], rfl, List.prefix_rfl, fun _ hne => absurd rfl hne⟩
  | cons task rest ih =>
    obtain ⟨htask, hrest⟩ := List.cons_subset.mp htasks
    have hsize := h.pageSize_eq (List.cons_subset.mpr ⟨htask, List.nil_subset _⟩)
    rw [selectTasks, bind_of_eq_ok hsize]
    split
    · rename_i hfull
      refine ⟨[], rfl, List.nil_prefix, fun hfirst => ?_⟩
      rw [hfirst] at hfull
      exact absurd hfull.1 Bool.false_ne_true
    · obtain ⟨taken, htaken, hfront, -⟩ := ih hrest true (estimatedBytes + _)
      refine ⟨task :: taken, ?_, List.cons_prefix_cons.mpr ⟨rfl, hfront⟩,
        fun _ _ => List.cons_ne_nil _ _⟩
      rw [bind_of_eq_ok htaken]

/-- A page takes all candidates that fit together. -/
theorem selectTasks_all {n : Nat}
    (hsize : ∀ task ∈ tasks, ∃ size ≤ n, trackerSnapshotPageSize lib a [task] = .ok size)
    (selected : Bool) {estimatedBytes : Nat}
    (hroom : estimatedBytes + tasks.length * n ≤ targetTrackerPageBytes) :
    selectTasks lib a selected estimatedBytes tasks = .ok tasks := by
  induction tasks generalizing selected estimatedBytes with
  | nil => rfl
  | cons task rest ih =>
    obtain ⟨⟨size, hle, hfirst⟩, hrest⟩ := List.forall_mem_cons.mp hsize
    rw [List.length_cons, Nat.succ_mul] at hroom
    rw [selectTasks, bind_of_eq_ok hfirst, if_neg (fun hfull => by omega)]
    rw [bind_of_eq_ok (ih hrest true (by omega))]

/-- The tasks after the last of a prefix. -/
theorem Sound.filter_after (h : Sound lib fields a) {done rest : List (TaskRow F)}
    (htasks : a.tasks = done ++ rest) :
    (a.tasks.filter fun task => lastId done < (task.ref.id : Int)) = rest := by
  have hdone : ∀ task ∈ done, ¬ lastId done < (task.ref.id : Int) := by
    intro task htask
    have hincreasing : done.Pairwise fun t u => t.ref.id < u.ref.id :=
      (List.pairwise_append.mp (htasks ▸ h.tasks_order)).1
    exact not_lt.mpr (le_lastId hincreasing htask)
  have hrest : ∀ task ∈ rest, lastId done < (task.ref.id : Int) := by
    intro task htask
    have horder := (List.pairwise_append.mp (htasks ▸ h.tasks_order)).2.2
    unfold lastId
    cases hlast : done.getLast? with
    | none =>
      change (-1 : Int) < task.ref.id
      omega
    | some last => exact Int.ofNat_lt.mpr (horder last (List.mem_of_getLast? hlast) task htask)
  rw [htasks, List.filter_append, List.filter_eq_nil_iff.mpr ?_, List.filter_eq_self.mpr ?_,
    List.nil_append]
  · exact fun task htask => decide_eq_true (hrest task htask)
  · exact fun task htask hlt => hdone task htask (of_decide_eq_true hlt)

theorem selectTasks_sublist {selected : Bool} {estimatedBytes : Nat} {taken : List (TaskRow F)}
    (h : selectTasks lib a selected estimatedBytes tasks = .ok taken) : taken <+: tasks := by
  induction tasks generalizing selected estimatedBytes taken with
  | nil =>
    rw [← Except.ok.inj h]
  | cons task rest ih =>
    obtain ⟨size, -, h⟩ := bind_eq_ok.mp h
    split at h
    · rw [← Except.ok.inj h]
      exact List.nil_prefix
    · obtain ⟨tail, htail, h⟩ := bind_eq_ok.mp h
      rw [← Except.ok.inj h]
      exact List.cons_prefix_cons.mpr ⟨rfl, ih htail⟩

theorem Sound.eq_pageTree (h : Sound lib fields a) (htasks : tasks ⊆ a.tasks) {hasMore : Bool}
    {page : Json F} (hpage : a.page lib tasks hasMore = .ok page) :
    page = pageTree lib a tasks hasMore := by
  have hadvance : hasMore = true → tasks ≠ [] := by
    obtain ⟨hguard, -⟩ := check_bind_eq_ok.mp hpage
    intro hmore hempty
    exact ensure_eq_ok.mp hguard ⟨hmore, hempty⟩
  exact Except.ok.inj (hpage.symm.trans (h.page_eq htasks hadvance))

/-- What an error is answered with. -/
def IsError : SnapshotError → Prop
  | .http status _ => status ≠ 200
  | _ => True

theorem respond_error {e : SnapshotError} (he : IsError e) (errorBody : List UInt8) :
    (respond lib errorBody (.error e)).status ≠ 200 := by
  cases e with
  | http status code => exact he
  | shared | value | runtime | changed => exact fun hok : 500 = 200 => absurd hok (by decide)

theorem Visit.check_error {visit : Visit} {e : SnapshotError} (h : visit.check = .error e) :
    IsError e := by
  rw [Visit.check] at h
  split at h
  · rename_i refusal _
    rw [← Except.error.inj h]
    have hstatus := refusal.isError
    exact fun hok => absurd hok (by omega)
  · cases h

theorem afterTaskId_error {board : BoardRow F} {cursor : Option String} {e : SnapshotError}
    (h : afterTaskId lib otherTexts board cursor = .error e) : IsError e := by
  cases cursor with
  | none => cases h
  | some cursor =>
    rw [afterTaskId] at h
    split at h
    · cases h
    all_goals
      rw [← Except.error.inj h]
      exact fun hok => absurd hok (by decide)

theorem ensure_error {p : Prop} [Decidable p] {status : Nat} {code : String} {e : SnapshotError}
    (h : ensure p (.http status code) = .error e) (hstatus : status ≠ 200) : IsError e := by
  rw [ensure] at h
  split at h
  · cases h
  · rw [← Except.error.inj h]
    exact hstatus

/-- An error of a step, or of what comes after it. -/
theorem bind_eq_error {α β : Type} {x : Except SnapshotError α} {f : α → Except SnapshotError β}
    {e : SnapshotError} (h : (x >>= f) = .error e) :
    x = .error e ∨ ∃ y, x = .ok y ∧ f y = .error e := by
  cases x with
  | error e' => exact .inl (congrArg Except.error (Except.error.inj h))
  | ok y => exact .inr ⟨y, rfl, h⟩

theorem Sound.page_error (h : Sound lib fields a) (htasks : tasks ⊆ a.tasks) {hasMore : Bool}
    {e : SnapshotError} (herror : a.page lib tasks hasMore = .error e) : IsError e := by
  by_cases hadvance : hasMore = true → tasks ≠ []
  · rw [h.page_eq htasks hadvance] at herror
    cases herror
  · have hguard : ¬ ¬ (hasMore = true ∧ tasks = []) := fun hne =>
      hadvance fun hmore hempty => hne ⟨hmore, hempty⟩
    rw [Authority.page, trackerSnapshotPagePayload, ensure, if_neg hguard] at herror
    rw [← Except.error.inj herror]
    trivial

theorem Sound.snapshot_error (h : Sound lib fields a) {visit : Visit} {cursor : Option String}
    {e : SnapshotError}
    (herror : federationTrackerSnapshot lib otherTexts a visit cursor = .error e) :
    IsError e := by
  rcases bind_eq_error herror with herror | ⟨-, -, herror⟩
  · exact ensure_error herror (by decide)
  rcases bind_eq_error herror with herror | ⟨-, -, herror⟩
  · exact Visit.check_error herror
  rcases bind_eq_error herror with herror | ⟨after, -, herror⟩
  · exact afterTaskId_error herror
  rcases bind_eq_error herror with herror | ⟨-, -, herror⟩
  · exact ensure_error herror (by decide)
  rcases bind_eq_error herror with herror | ⟨-, -, herror⟩
  · exact ensure_error herror (by decide)
  have hcandidates : ((a.tasks.filter fun task => after < (task.ref.id : Int)).take
      (maxTrackerPageTaskCandidates + 1)).take maxTrackerPageTaskCandidates ⊆ a.tasks :=
    fun task htask => List.mem_of_mem_filter (List.mem_of_mem_take (List.mem_of_mem_take htask))
  obtain ⟨taken, htaken, hfront, -⟩ := h.selectTasks_spec hcandidates false 0
  rw [bind_of_eq_ok htaken] at herror
  rcases bind_eq_error herror with herror | ⟨-, -, herror⟩
  · exact ensure_error herror (by decide)
  have htasks : taken ⊆ a.tasks := List.Subset.trans hfront.subset hcandidates
  exact h.page_error htasks herror

/-- Whatever cursor is sent, the authority answers with a page of its board
or refuses. -/
theorem Sound.serve_served (h : Sound lib fields a) (visit : Visit) (cursor : Option String)
    {states : List (Authority F)} (ha : a ∈ states) :
    Served lib states (serve lib otherTexts a visit cursor) := by
  rw [serve]
  cases hresult : federationTrackerSnapshot lib otherTexts a visit cursor with
  | error e => exact .inl (respond_error (h.snapshot_error hresult) _)
  | ok page =>
    obtain ⟨-, hresult⟩ := check_bind_eq_ok.mp hresult
    obtain ⟨-, hresult⟩ := check_bind_eq_ok.mp hresult
    obtain ⟨after, -, hresult⟩ := bind_eq_ok.mp hresult
    obtain ⟨-, hresult⟩ := check_bind_eq_ok.mp hresult
    obtain ⟨-, hresult⟩ := check_bind_eq_ok.mp hresult
    obtain ⟨taken, htaken, hresult⟩ := bind_eq_ok.mp hresult
    obtain ⟨-, hpage⟩ := check_bind_eq_ok.mp hresult
    have hfront := selectTasks_sublist htaken
    have htasks : taken ⊆ a.tasks := fun task htask => List.mem_of_mem_filter
      (List.mem_of_mem_take (List.mem_of_mem_take (hfront.subset htask)))
    have hlength : taken.length ≤ maxTrackerPageTaskCandidates :=
      hfront.length_le.trans (List.length_take_le _ _)
    rw [h.eq_pageTree htasks hpage]
    exact .inr ⟨a, ha, taken, _, htasks, hlength, rfl⟩

/-- The cursor that a replica with these tasks sends. -/
def cursorAfter (lib : Library F) (a : Authority F) (done : List (TaskRow F)) : Option String :=
  done.getLast?.map fun task => trackerSnapshotCursor lib a.board task.ref.id

theorem Sound.afterTaskId_cursorAfter (h : Sound lib fields a) {done : List (TaskRow F)}
    (hdone : done ⊆ a.tasks) :
    afterTaskId lib otherTexts a.board (cursorAfter lib a done) = .ok (lastId done) := by
  unfold cursorAfter lastId
  cases hlast : done.getLast? with
  | none => rfl
  | some task =>
    have hid := (h.tasks task (hdone (List.mem_of_getLast? hlast))).ref.id_le
    exact afterTaskId_cursor h.channel h.guild hid

/-- The route lets the peer in, and the assignees are members of the guild. -/
structure Visit.Passes (visit : Visit) (a : Authority F) : Prop where
  refusal : visit.refusal = none
  members : ∀ ref ∈ assignees a.tasks, ref ∈ visit.members

/-- The page after a prefix of the tasks. -/
theorem Sound.serve_eq (h : Sound lib fields a) {done rest : List (TaskRow F)}
    (htasks : a.tasks = done ++ rest) {visit : Visit} (hvisit : visit.Passes a) :
    ∃ taken left, selectTasks lib a false 0 (rest.take maxTrackerPageTaskCandidates) = .ok taken ∧
      rest = taken ++ left ∧ taken.length ≤ maxTrackerPageTaskCandidates ∧
      (rest ≠ [] → taken ≠ []) ∧
      serve lib otherTexts a visit (cursorAfter lib a done) =
        pageResponse lib (pageTree lib a taken (!left.isEmpty)) := by
  have hdone : done ⊆ a.tasks := htasks ▸ List.subset_append_left _ _
  have hrest : rest ⊆ a.tasks := htasks ▸ List.subset_append_right _ _
  have hcandidates : rest.take maxTrackerPageTaskCandidates ⊆ a.tasks :=
    List.Subset.trans (List.take_subset _ _) hrest
  obtain ⟨taken, htaken, hfront, hfirst⟩ := h.selectTasks_spec hcandidates false 0
  obtain ⟨left, hleft⟩ := hfront.trans (List.take_prefix _ _)
  have hlength : taken.length ≤ maxTrackerPageTaskCandidates :=
    hfront.length_le.trans (List.length_take_le _ _)
  have hsub : taken ⊆ a.tasks := List.Subset.trans hfront.subset hcandidates
  have hadvance : rest ≠ [] → taken ≠ [] := fun hne => by
    refine hfirst rfl fun hempty => hne ?_
    exact (List.take_eq_nil_iff.mp hempty).resolve_left (by decide)
  refine ⟨taken, left, htaken, hleft.symm, hlength, hadvance, ?_⟩
  have hcursor : ∀ s ∈ cursorAfter lib a done, s.length ≤ 1024 := by
    intro s hs
    obtain ⟨task, htask, rfl⟩ := Option.mem_map.mp hs
    exact length_trackerSnapshotCursor_le lib h.channel h.guild
      (h.tasks task (hdone (List.mem_of_getLast? htask))).ref.id_le
  have hcheck : visit.check = .ok () := by rw [Visit.check, hvisit.refusal]
  have hfilter := h.filter_after htasks
  have husers : ∀ ref ∈ Authority.taskUsers (rest.take (maxTrackerPageTaskCandidates + 1)),
      (lookupBy UserRow.ref ref a.users).isSome = true := by
    intro ref href
    have hin : rest.take (maxTrackerPageTaskCandidates + 1) ⊆ a.tasks :=
      List.Subset.trans (List.take_subset _ _) hrest
    obtain ⟨user, huser, -⟩ := h.user_of_task hin href
    exact Option.isSome_iff_exists.mpr ⟨user, huser⟩
  have hmembers : ∀ ref ∈ assignees taken, ref ∈ visit.members := by
    intro ref href
    obtain ⟨task, htask, hassignee⟩ := List.mem_filterMap.mp href
    exact hvisit.members ref (List.mem_filterMap.mpr ⟨task, hsub htask, hassignee⟩)
  have hmore : decide (taken.length < (rest.take (maxTrackerPageTaskCandidates + 1)).length) =
      !left.isEmpty := by
    rw [List.length_take, ← hleft, List.length_append, Bool.eq_iff_iff, decide_eq_true_eq,
      Bool.not_eq_true', List.isEmpty_eq_false_iff, ← List.length_pos_iff]
    omega
  have hpage : a.page lib taken (!left.isEmpty) = .ok (pageTree lib a taken (!left.isEmpty)) := by
    refine h.page_eq hsub fun hmore => hadvance fun hempty => ?_
    rw [(List.append_eq_nil_iff.mp (hleft.trans hempty)).2] at hmore
    cases hmore
  have hresult : federationTrackerSnapshot lib otherTexts a visit (cursorAfter lib a done) =
      .ok (pageTree lib a taken (!left.isEmpty)) := by
    refine Eq.trans (ensure_bind hcursor) ?_
    refine Eq.trans (bind_of_eq_ok hcheck) ?_
    refine Eq.trans (bind_of_eq_ok (h.afterTaskId_cursorAfter hdone)) ?_
    refine Eq.trans (ensure_bind ⟨h.lanes_count.1, h.lanes_count.2, h.tasks_count⟩) ?_
    dsimp only
    rw [hfilter, List.take_take]
    refine Eq.trans (ensure_bind husers) ?_
    refine Eq.trans (bind_of_eq_ok htaken) ?_
    refine Eq.trans (ensure_bind hmembers) ?_
    rw [hmore]
    exact hpage
  rw [serve, hresult]
  rfl

end

/-! A request that is let in. -/

def guildVisit : Visit := ⟨none, [⟨40, "a.example"⟩], []⟩

theorem guildVisit_passes (title : String) (updatedAt : CivilTime) (count : Nat) :
    guildVisit.Passes (pointsBoard (.int 1) title updatedAt count) where
  refusal := rfl
  members := by
    intro ref href
    obtain ⟨task, htask, hassignee⟩ := List.mem_filterMap.mp href
    obtain ⟨i, -, rfl⟩ := pointsBoard_task (List.Subset.refl _) htask
    obtain rfl := Option.some.inj hassignee
    exact List.mem_singleton.mpr rfl

end TrackerSync

end Kaede
