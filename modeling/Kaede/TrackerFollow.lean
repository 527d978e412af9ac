import Kaede.TrackerEndpoint
import Kaede.TrackerInvalidation

/-!
# Fetching from the endpoint while the board changes

The replica sends the cursor of each page for the next, and the endpoint
answers in the state that it is in by then. One attempt is `answers`, and
`fetch_tracker_snapshot` makes up to three of them.

- What an attempt gets has the board, the lanes and the tasks of one state that
  it met. Users have no version, so a profile may be of another state that it
  met.
- An attempt that meets one state all along gets its snapshot, from the
  pages into which the endpoint divides the tasks (`servedParts`).
- An attempt that is overtaken by a change gets a 409 for its cursor, and is
  made again: it never ends in another error, and never in a mixture.
-/

namespace Kaede

namespace TrackerSync

open Replication (RemoteUserProfile)
open TrackerFields

variable {F : Type}

/-! ## Requests and answers -/

/-- What a request meets. -/
structure Moment (F : Type) where
  state : Authority F
  visit : Visit

section

variable (lib : Library F) (otherTexts : List Char → Option (Json F))

/-- `next_cursor` of a page; a response that is no page ends the attempt. -/
def nextCursor (response : Response) : Option String :=
  match decodeFederationResponseJson lib response.content with
  | .ok payload => (payload.get "next_cursor").str?
  | .error _ => none

/-- The responses to the requests of one attempt. -/
def answers : Option String → List (Moment F) → List Response
  | _, [] => []
  | cursor, m :: ms =>
      serve lib otherTexts m.state m.visit cursor ::
        answers (nextCursor lib (serve lib otherTexts m.state m.visit cursor)) ms

variable [DecidableEq F]

/-- The attempts, each against what its requests meet. -/
def follow (guild channel : Ref) (attempts : List (List (Moment F))) :
    Except SnapshotError (Json F) :=
  fetchTrackerSnapshot lib guild channel (attempts.map (answers lib otherTexts none))

end

/-! ## The pages of a state -/

section

variable (lib : Library F) (a : Authority F)

/-- The tasks of the pages that are left, for a bound on their number. -/
def divide : Nat → List (TaskRow F) → List (List (TaskRow F))
  | 0, _ => []
  | n + 1, rest =>
      match selectTasks lib a false 0 (rest.take maxTrackerPageTaskCandidates) with
      | .error _ => []
      | .ok taken =>
          taken :: if (rest.drop taken.length).isEmpty then [] else
            divide n (rest.drop taken.length)

/-- The tasks of each page. -/
def servedParts : List (List (TaskRow F)) := divide lib a (a.tasks.length + 1) a.tasks

def totalOf (parts : List (List (TaskRow F))) : Nat :=
  ((pageTrees lib a parts).map fun page => (pageBytes lib page).length).sum

/-- The pages of the state are within the limits of the replica. -/
structure Fetchable : Prop where
  count : (servedParts lib a).length ≤ maxTrackerSnapshotPages
  bytes : WithinBytes lib (pageTrees lib a (servedParts lib a))
  accepted : ∀ page ∈ pageTrees lib a (servedParts lib a), Accepted lib page

/-- The request meets the state, and is let in. -/
def Meets (m : Moment F) : Prop := m.state = a ∧ m.visit.Passes a

/-- All requests for the pages meet the state. -/
structure Calm (moments : List (Moment F)) : Prop where
  fetchable : Fetchable lib a
  meets : ∀ m ∈ moments.take (servedParts lib a).length, Meets a m
  enough : (servedParts lib a).length ≤ moments.length

end

/-- The request meets a board of another version, and is let in; there is
room for the body of the 409. -/
structure Overtakes (lib : Library F) (a : Authority F) (m : Moment F) : Prop where
  version : m.state.board.updatedAt ≠ a.board.updatedAt
  refusal : m.visit.refusal = none
  each : m.visit.errorBody.length ≤ maxTrackerPageResponseBytes
  total : totalOf lib a (servedParts lib a) + m.visit.errorBody.length ≤ maxTrackerSnapshotBytes

/-- The first requests meet one state, and the next a change, before the
last page. -/
structure Overtaken (lib : Library F) (a : Authority F) (before : List (Moment F))
    (m : Moment F) : Prop where
  fetchable : Fetchable lib a
  meets : ∀ m ∈ before, Meets a m
  first : before ≠ []
  early : before.length < (servedParts lib a).length
  overtakes : Overtakes lib a m

section

variable {lib : Library F} {fields : List TrackerField} {a : Authority F}
  {done rest : List (TaskRow F)} (otherTexts : List Char → Option (Json F))

/-- What the endpoint answers after some of the tasks is the next part. -/
theorem Sound.divide_succ (h : Sound lib fields a) (htasks : a.tasks = done ++ rest) (n : Nat) :
    ∃ taken left, rest = taken ++ left ∧ taken.length ≤ maxTrackerPageTaskCandidates ∧
      (rest ≠ [] → taken ≠ []) ∧
      divide lib a (n + 1) rest = taken :: (if left.isEmpty then [] else divide lib a n left) ∧
      ∀ m, Meets a m → serve lib otherTexts m.state m.visit (cursorAfter lib a done) =
        pageResponse lib (pageTree lib a taken (!left.isEmpty)) := by
  have hcandidates : rest.take maxTrackerPageTaskCandidates ⊆ a.tasks :=
    List.Subset.trans (List.take_subset _ _) (htasks ▸ List.subset_append_right _ _)
  obtain ⟨taken, htaken, hfront, hfirst⟩ := h.selectTasks_spec hcandidates false 0
  obtain ⟨left, hleft⟩ := hfront.trans (List.take_prefix _ _)
  have hdrop : rest.drop taken.length = left := by rw [← hleft, List.drop_left]
  refine ⟨taken, left, hleft.symm, hfront.length_le.trans (List.length_take_le _ _), ?_, ?_, ?_⟩
  · intro hne
    exact hfirst rfl fun hempty => hne ((List.take_eq_nil_iff.mp hempty).resolve_left (by decide))
  · rw [divide, htaken]
    dsimp only
    rw [hdrop]
  · rintro m ⟨hstate, hpasses⟩
    obtain ⟨taken', left', htaken', hleft', -, -, hserve⟩ := @Sound.serve_eq F lib
      otherTexts fields a h done rest htasks m.visit hpasses
    obtain rfl : taken = taken' := Except.ok.inj (htaken.symm.trans htaken')
    obtain rfl : left = left' := List.append_cancel_left (hleft.trans hleft')
    rw [hstate, hserve]

/-- The cursor of a page that was read. -/
theorem Sound.nextCursor_page (h : Sound lib fields a) (done : List (TaskRow F))
    (hfloats : ∀ x, lib.fields.small x = true → lib.floats.Reads x) {taken : List (TaskRow F)}
    (hsub : taken ⊆ a.tasks) (hcount : taken.length ≤ maxTrackerPageTaskCandidates)
    (hne : taken ≠ []) (haccepted : Accepted lib (pageTree lib a taken true)) :
    nextCursor lib (pageResponse lib (pageTree lib a taken true)) =
      cursorAfter lib a (done ++ taken) := by
  rcases decode_pageBytes hfloats (h.page_carried hsub hcount true) with
    ⟨hdecode, -⟩ | ⟨-, hrefused⟩
  · obtain ⟨last, hlast⟩ := Option.isSome_iff_exists.mp (List.getLast?_isSome.mpr hne)
    have hid : cursorId taken true = some last.ref.id := by
      rw [cursorId, if_pos rfl, hlast]
      rfl
    rw [nextCursor, pageResponse, hdecode, cursorAfter, List.getLast?_append, hlast]
    change (optionalText ((cursorId taken true).map (trackerSnapshotCursor lib a.board))).str? = _
    rw [hid]
    rfl
  · exact absurd haccepted hrefused

/-! ## One attempt -/

/-- What is left of the pages and of the limits. -/
structure Left (lib : Library F) (a : Authority F) (s : Fetched F) (requests : Nat)
    (parts : List (List (TaskRow F))) : Prop where
  count : parts.length ≤ requests
  each : ∀ page ∈ pageTrees lib a parts, (pageBytes lib page).length ≤ maxTrackerPageResponseBytes
  total : s.totalBytes + totalOf lib a parts ≤ maxTrackerSnapshotBytes
  accepted : ∀ page ∈ pageTrees lib a parts, Accepted lib page

/-- Where an attempt is that has met one state so far. -/
structure Position (lib : Library F) (a : Authority F) where
  done : List (TaskRow F)
  rest : List (TaskRow F)
  fuel : Nat
  fetched : Fetched F
  requests : Nat
  tasks : a.tasks = done ++ rest
  fuel_lt : rest.length < fuel
  progress : Progress a done fetched
  left : Left lib a fetched requests (divide lib a fuel rest)

theorem totalOf_pos (lib : Library F) (a : Authority F) {parts : List (List (TaskRow F))}
    (hne : parts ≠ []) : 0 < totalOf lib a parts := by
  cases parts with
  | nil => exact absurd rfl hne
  | cons tasks rest =>
    rw [totalOf, pageTrees, List.map_cons, List.sum_cons]
    exact Nat.add_pos_left (pageBytes_pos lib a tasks _) _

namespace Position

def start (h : Fetchable lib a) : Position lib a where
  done := []
  rest := a.tasks
  fuel := a.tasks.length + 1
  fetched := {}
  requests := maxTrackerSnapshotPages
  tasks := rfl
  fuel_lt := Nat.lt_succ_self _
  progress := progress_start a
  left := ⟨h.count, h.bytes.each, (Nat.zero_add _).trans_le h.bytes.total, h.accepted⟩

def parts (p : Position lib a) : List (List (TaskRow F)) := divide lib a p.fuel p.rest

/-- The bytes of the pages, those that were read and those that are left. -/
def bytes (p : Position lib a) : Nat := p.fetched.totalBytes + totalOf lib a p.parts

variable [DecidableEq F]

/-- The rest of the attempt. -/
def run (otherTexts : List Char → Option (Json F)) (p : Position lib a)
    (moments : List (Moment F)) : Except SnapshotError (Json F) :=
  fetchPages lib a.board.guild a.board.channel p.requests p.fetched
    (answers lib otherTexts (cursorAfter lib a p.done) moments)

/-- A request that meets the state gets the next page. -/
theorem run_cons (p : Position lib a) (h : Sound lib fields a) {m : Moment F} (hm : Meets a m)
    (ms : List (Moment F)) :
    ∃ taken left requests, p.requests = requests + 1 ∧ p.rest = taken ++ left ∧
      taken.length ≤ maxTrackerPageTaskCandidates ∧ (p.rest ≠ [] → taken ≠ []) ∧
      p.parts = taken :: (if left.isEmpty then [] else divide lib a (p.fuel - 1) left) ∧
      p.run otherTexts (m :: ms) =
        fetchPages lib a.board.guild a.board.channel (requests + 1) p.fetched
          (pageResponse lib (pageTree lib a taken (!left.isEmpty)) :: answers lib otherTexts
            (nextCursor lib (pageResponse lib (pageTree lib a taken (!left.isEmpty)))) ms) := by
  obtain ⟨fuel, hfuel⟩ : ∃ n, p.fuel = n + 1 := ⟨p.fuel - 1, by have := p.fuel_lt; omega⟩
  obtain ⟨taken, left, hrest, hcount, hne, hdivide, hserve⟩ :=
    h.divide_succ otherTexts p.tasks fuel
  have hparts : p.parts = taken :: (if left.isEmpty then [] else divide lib a fuel left) := by
    rw [parts, hfuel, hdivide]
  obtain ⟨requests, hrequests⟩ : ∃ n, p.requests = n + 1 := by
    have hle : p.parts.length ≤ p.requests := p.left.count
    rw [hparts, List.length_cons] at hle
    exact ⟨p.requests - 1, by omega⟩
  refine ⟨taken, left, requests, hrequests, hrest, hcount, hne, ?_, ?_⟩
  · rw [hparts, hfuel, Nat.add_sub_cancel]
  · rw [run, answers, hserve m hm, hrequests]

/-- A page that is not the last. -/
theorem step (h : Sound lib fields a)
    (hfloats : ∀ x, lib.fields.small x = true → lib.floats.Reads x) (p : Position lib a)
    (hmore : 1 < p.parts.length) {m : Moment F} (hm : Meets a m) (ms : List (Moment F)) :
    ∃ p' : Position lib a, p'.parts = p.parts.tail ∧ p'.done ≠ [] ∧ p'.bytes = p.bytes ∧
      p.run otherTexts (m :: ms) = p'.run otherTexts ms := by
  obtain ⟨taken, left, requests, hrequests, hrest, hcount, hne, hparts, hrun⟩ :=
    p.run_cons otherTexts h hm ms
  have hleft : left.isEmpty = false := by
    rw [Bool.eq_false_iff]
    intro hempty
    rw [hparts, if_pos hempty] at hmore
    exact absurd hmore (by simp)
  have hlength : 0 < left.length :=
    List.length_pos_iff.mpr (List.isEmpty_eq_false_iff.mp hleft)
  have htaken : taken ≠ [] := hne fun hempty => by
    rw [hrest, List.append_eq_nil_iff] at hempty
    rw [hempty.2] at hlength
    exact Nat.lt_irrefl 0 hlength
  rw [hleft, if_neg Bool.false_ne_true] at hparts
  rw [hleft, Bool.not_false] at hrun
  have htasks : a.tasks = p.done ++ (taken ++ left) := hrest ▸ p.tasks
  have hsub : taken ⊆ a.tasks := fun task htask =>
    htasks ▸ List.mem_append_right _ (List.mem_append_left _ htask)
  have hfuel := p.fuel_lt
  rw [hrest, List.length_append] at hfuel
  have hpositive := List.length_pos_iff.mpr htaken
  have hlater : (divide lib a (p.fuel - 1) left).isEmpty = false := by
    obtain ⟨next, left', -, -, -, hnext, -⟩ := h.divide_succ otherTexts
      (htasks.trans (List.append_assoc p.done taken left).symm) (p.fuel - 2)
    rw [show p.fuel - 1 = p.fuel - 2 + 1 by omega, hnext]
    rfl
  have hpages : pageTrees lib a p.parts = pageTree lib a taken true ::
      pageTrees lib a (divide lib a (p.fuel - 1) left) := by
    rw [hparts, pageTrees, hlater]
    rfl
  obtain ⟨hcounts, heach, htotal, haccepted⟩ := p.left
  change p.parts.length ≤ _ at hcounts
  change ∀ page ∈ pageTrees lib a p.parts, _ at heach haccepted
  change _ + ((pageTrees lib a p.parts).map _).sum ≤ _ at htotal
  rw [hpages] at heach haccepted
  rw [hpages, List.map_cons, List.sum_cons] at htotal
  obtain ⟨hsize, heach⟩ := List.forall_mem_cons.mp heach
  obtain ⟨hpage, haccepted⟩ := List.forall_mem_cons.mp haccepted
  rcases h.fetchPages_cons hfloats htasks true hcount p.progress hsize (by omega) requests
      (answers lib otherTexts
        (nextCursor lib (pageResponse lib (pageTree lib a taken true))) ms) with
    ⟨-, s', hprogress, hbytes, -, hstep⟩ | ⟨hrefused, -⟩
  · obtain ⟨last, hlast⟩ := Option.isSome_iff_exists.mp (List.getLast?_isSome.mpr htaken)
    have hcursor : (pageRead lib a taken true).nextCursor.isNull = false := by
      simp [pageRead, cursorId, hlast, optionalText, Json.isNull]
    rw [hcursor, if_neg Bool.false_ne_true] at hstep
    refine ⟨⟨p.done ++ taken, left, p.fuel - 1, s', requests, ?_, by omega, hprogress,
      ⟨?_, heach, ?_, haccepted⟩⟩, ?_, ?_, ?_, ?_⟩
    · rw [htasks, List.append_assoc]
    · rw [hparts, List.length_cons] at hcounts
      omega
    · rw [hbytes, totalOf]
      omega
    · exact (congrArg List.tail hparts).symm
    · exact fun hempty => htaken (List.append_eq_nil_iff.mp hempty).2
    · have hpaid : totalOf lib a p.parts = (pageBytes lib (pageTree lib a taken true)).length +
          totalOf lib a (divide lib a (p.fuel - 1) left) := by
        rw [totalOf, hpages, List.map_cons, List.sum_cons, totalOf]
      change s'.totalBytes + totalOf lib a (divide lib a (p.fuel - 1) left) = _
      rw [bytes, hpaid, hbytes, Nat.add_assoc]
    · rw [hrun, hstep, h.nextCursor_page p.done hfloats hsub hcount htaken hpage]
      exact bind_of_eq_ok (h.checkCursor_eq hsub htaken hprogress)
  · exact absurd hpage hrefused

/-- The last page. -/
theorem finish (h : Sound lib fields a)
    (hfloats : ∀ x, lib.fields.small x = true → lib.floats.Reads x) (p : Position lib a)
    (hlast : p.parts.length = 1) {m : Moment F} (hm : Meets a m) (ms : List (Moment F)) :
    ∃ profiles refs, Names a profiles refs ∧ Profiled a profiles ∧
      p.run otherTexts (m :: ms) = .ok (snapshotTree a profiles refs) := by
  obtain ⟨taken, left, requests, hrequests, hrest, hcount, hne, hparts, hrun⟩ :=
    p.run_cons otherTexts h hm ms
  have htasks : a.tasks = p.done ++ (taken ++ left) := hrest ▸ p.tasks
  have hleft : left = [] := by
    by_contra hother
    obtain ⟨next, left', -, -, -, hnext, -⟩ := h.divide_succ otherTexts
      (htasks.trans (List.append_assoc p.done taken left).symm) (p.fuel - 2)
    have hpositive : 0 < taken.length := List.length_pos_iff.mpr (hne fun hempty =>
      hother (List.append_eq_nil_iff.mp (hrest.symm.trans hempty)).2)
    have hleft := List.length_pos_iff.mpr hother
    have hfuel := p.fuel_lt
    rw [hrest, List.length_append] at hfuel
    rw [hparts, if_neg (by simpa using hother), show p.fuel - 1 = p.fuel - 2 + 1 by omega, hnext,
      List.length_cons, List.length_cons] at hlast
    omega
  subst hleft
  have hpages : pageTrees lib a p.parts = [pageTree lib a taken false] := by
    rw [hparts]
    rfl
  obtain ⟨-, heach, htotal, haccepted⟩ := p.left
  change ∀ page ∈ pageTrees lib a p.parts, _ at heach haccepted
  change _ + ((pageTrees lib a p.parts).map _).sum ≤ _ at htotal
  rw [hpages] at heach haccepted
  rw [hpages, List.map_singleton, List.sum_singleton] at htotal
  rcases h.fetchPages_cons hfloats htasks false hcount p.progress
      (heach _ List.mem_cons_self) htotal requests
      (answers lib otherTexts
        (nextCursor lib (pageResponse lib (pageTree lib a taken false))) ms) with
    ⟨-, s', hprogress, hbytes, hcombined, hstep⟩ | ⟨hrefused, -⟩
  · have hdone : p.done ++ taken = a.tasks := by rw [htasks, List.append_nil]
    rw [hdone] at hprogress
    obtain ⟨profiles, refs, hnames, hprofiled, hfinish⟩ :=
      @Sound.finish_eq F lib fields a taken h _ hprogress hcombined
    refine ⟨profiles, refs, hnames, hprofiled, ?_⟩
    exact hrun.trans (hstep.trans ((if_pos rfl).trans hfinish))
  · exact absurd (haccepted _ List.mem_cons_self) hrefused

/-- The requests that meet the state, up to one before the last page. -/
theorem advance (h : Sound lib fields a)
    (hfloats : ∀ x, lib.fields.small x = true → lib.floats.Reads x) (p : Position lib a)
    {before : List (Moment F)} (hbefore : ∀ m ∈ before, Meets a m)
    (hlength : before.length < p.parts.length) (after : List (Moment F)) :
    ∃ p' : Position lib a, p'.parts.length = p.parts.length - before.length ∧
      (p.done ≠ [] ∨ before ≠ [] → p'.done ≠ []) ∧ p'.bytes = p.bytes ∧
      p.run otherTexts (before ++ after) = p'.run otherTexts after := by
  induction before generalizing p with
  | nil => exact ⟨p, rfl, fun hdone => hdone.resolve_right fun hne => hne rfl, rfl, rfl⟩
  | cons m before ih =>
    obtain ⟨hm, hbefore⟩ := List.forall_mem_cons.mp hbefore
    rw [List.length_cons] at hlength
    obtain ⟨p₁, hparts, hdone, hbytes, hrun⟩ :=
      p.step otherTexts h hfloats (by omega) hm (before ++ after)
    have htail : p₁.parts.length = p.parts.length - 1 := by rw [hparts, List.length_tail]
    obtain ⟨p₂, hparts₂, hdone₂, hbytes₂, hrun₂⟩ := ih p₁ hbefore (by omega)
    refine ⟨p₂, ?_, fun _ => hdone₂ (.inl hdone), hbytes₂.trans hbytes, hrun.trans hrun₂⟩
    rw [hparts₂, htail, List.length_cons]
    omega

/-- A stale cursor ends the attempt, and is told apart from other errors. -/
theorem stale (h : Sound lib fields a) (p : Position lib a) (hdone : p.done ≠ [])
    (hparts : 0 < p.parts.length) {m : Moment F}
    (hversion : m.state.board.updatedAt ≠ a.board.updatedAt) (hrefusal : m.visit.refusal = none)
    (hbody : m.visit.errorBody.length ≤ maxTrackerPageResponseBytes)
    (hroom : p.bytes + m.visit.errorBody.length ≤ maxTrackerSnapshotBytes)
    (ms : List (Moment F)) : p.run otherTexts (m :: ms) = .error .changed := by
  have hsub : p.done ⊆ a.tasks := p.tasks ▸ List.subset_append_left _ _
  obtain ⟨last, hlast⟩ := Option.isSome_iff_exists.mp (List.getLast?_isSome.mpr hdone)
  have hid := (h.tasks last (hsub (List.mem_of_getLast? hlast))).ref.id_le
  have hcursor : cursorAfter lib a p.done =
      some (trackerSnapshotCursor lib a.board last.ref.id) := by
    rw [cursorAfter, hlast]
    rfl
  have hserve : serve lib otherTexts m.state m.visit (cursorAfter lib a p.done) =
      ⟨409, m.visit.errorBody⟩ := by
    have hresult : federationTrackerSnapshot lib otherTexts m.state m.visit
        (cursorAfter lib a p.done) = .error (.http 409 "KAED_FED_TRACKER_SNAPSHOT_CHANGED") := by
      rw [hcursor]
      refine Eq.trans (ensure_bind ?_) ?_
      · intro s hs
        obtain rfl := Option.mem_some_iff.mp hs
        exact length_trackerSnapshotCursor_le lib h.channel h.guild hid
      · refine Eq.trans (bind_of_eq_ok (show m.visit.check = .ok () by
          rw [Visit.check, hrefusal])) ?_
        rw [afterTaskId_stale h.channel h.guild hid hversion.symm]
        rfl
    rw [serve, hresult]
    rfl
  have hpositive := totalOf_pos lib a (List.length_pos_iff.mp hparts)
  have htotal : p.fetched.totalBytes + totalOf lib a p.parts ≤ maxTrackerSnapshotBytes :=
    p.left.total
  obtain ⟨requests, hrequests⟩ : ∃ n, p.requests = n + 1 := by
    have hle : p.parts.length ≤ p.requests := p.left.count
    exact ⟨p.requests - 1, by omega⟩
  rw [bytes] at hroom
  rw [run, answers, hserve, hrequests, fetchPages]
  refine Eq.trans (ensure_bind (show p.fetched.totalBytes < maxTrackerSnapshotBytes by omega)) ?_
  have hreceive : receive p.fetched.totalBytes ⟨409, m.visit.errorBody⟩ = .error .changed := by
    refine Eq.trans (ensure_bind (Nat.le_min.mpr ⟨hbody, ?_⟩)) rfl
    change m.visit.errorBody.length ≤ _
    omega
  rw [hreceive]
  rfl

end Position

/-! ## All attempts -/

/-- Whatever the cursors, the answers are pages of the states, or refusals. -/
theorem answers_served {channel guild : Ref} {states : List (Authority F)}
    (hstates : History lib channel guild states) {moments : List (Moment F)}
    (hmoments : ∀ m ∈ moments, m.state ∈ states)
    (cursor : Option String) :
    ∀ response ∈ answers lib otherTexts cursor moments, Served lib states response := by
  induction moments generalizing cursor with
  | nil => exact fun _ hresponse => absurd hresponse List.not_mem_nil
  | cons m ms ih =>
    obtain ⟨hm, hms⟩ := List.forall_mem_cons.mp hmoments
    obtain ⟨fields, hsound⟩ := hstates.sound m.state hm
    exact List.forall_mem_cons.mpr ⟨hsound.serve_served m.visit cursor hm, ih hms _⟩

variable [DecidableEq F] {moments : List (Moment F)}

theorem Calm.fetched (h : Sound lib fields a)
    (hfloats : ∀ x, lib.fields.small x = true → lib.floats.Reads x) (hcalm : Calm lib a moments) :
    ∃ profiles refs, Names a profiles refs ∧ Profiled a profiles ∧
      fetchTrackerSnapshotOnce lib a.board.guild a.board.channel
        (answers lib otherTexts none moments) = .ok (snapshotTree a profiles refs) := by
  let p := Position.start hcalm.fetchable
  have hparts : 0 < p.parts.length := by
    obtain ⟨taken, left, -, -, -, hdivide, -⟩ := @Sound.divide_succ F lib fields a [] a.tasks
      otherTexts h rfl a.tasks.length
    change 0 < (divide lib a (a.tasks.length + 1) a.tasks).length
    rw [hdivide]
    exact Nat.succ_pos _
  have henough : p.parts.length ≤ moments.length := hcalm.enough
  -- the requests for the pages: all but the last, and the last
  obtain ⟨m, ms, hlast⟩ : ∃ m ms, moments.drop (p.parts.length - 1) = m :: ms := by
    refine List.exists_cons_of_length_pos ?_
    rw [List.length_drop]
    omega
  have hsplit : moments = moments.take (p.parts.length - 1) ++ m :: ms := by
    rw [← hlast, List.take_append_drop]
  have hlength : (moments.take (p.parts.length - 1)).length = p.parts.length - 1 :=
    List.length_take_of_le (by omega)
  have hmeets : ∀ m' ∈ moments.take (p.parts.length - 1) ++ [m], Meets a m' := by
    intro m' hm'
    refine hcalm.meets m' ?_
    change m' ∈ moments.take p.parts.length
    rw [show p.parts.length = (p.parts.length - 1) + 1 by omega, List.take_add, hlast]
    simpa using hm'
  obtain ⟨p', hparts', -, -, hrun⟩ := p.advance otherTexts h hfloats
    (fun m' hm' => hmeets m' (List.mem_append_left _ hm')) (by omega) (m :: ms)
  have hm := hmeets m (List.mem_append_right _ List.mem_cons_self)
  obtain ⟨profiles, refs, hnames, hprofiled, hfinish⟩ :=
    p'.finish otherTexts h hfloats (by omega) hm ms
  refine ⟨profiles, refs, hnames, hprofiled, ?_⟩
  rw [← hsplit] at hrun
  exact hrun.trans hfinish

theorem Overtaken.changed (h : Sound lib fields a)
    (hfloats : ∀ x, lib.fields.small x = true → lib.floats.Reads x) {before : List (Moment F)}
    {m : Moment F} (hovertaken : Overtaken lib a before m) (after : List (Moment F)) :
    fetchTrackerSnapshotOnce lib a.board.guild a.board.channel
      (answers lib otherTexts none (before ++ m :: after)) = .error .changed := by
  let p := Position.start hovertaken.fetchable
  have hearly : before.length < p.parts.length := hovertaken.early
  obtain ⟨p', hparts', hdone, hbytes, hrun⟩ := p.advance otherTexts h hfloats hovertaken.meets
    hearly (m :: after)
  refine hrun.trans (p'.stale otherTexts h (hdone (.inr hovertaken.first)) (by omega)
    hovertaken.overtakes.version hovertaken.overtakes.refusal hovertaken.overtakes.each ?_ after)
  have hstart : p.bytes = totalOf lib a (servedParts lib a) := Nat.zero_add _
  rw [hbytes, hstart]
  exact hovertaken.overtakes.total

theorem fetchAttempts_append {channel guild : Ref} {overtaken : List (List Response)}
    (h : ∀ responses ∈ overtaken,
      fetchTrackerSnapshotOnce lib guild channel responses = .error .changed)
    (rest : List (List Response)) :
    fetchAttempts lib guild channel (overtaken ++ rest) = fetchAttempts lib guild channel rest := by
  induction overtaken with
  | nil => rfl
  | cons responses overtaken ih =>
    obtain ⟨hfirst, hothers⟩ := List.forall_mem_cons.mp h
    rw [List.cons_append, fetchAttempts, hfirst]
    exact ih hothers

/-- What a replica fetches from an authority whose board changes as it likes
between any two requests. What it gets is the snapshot of one state that one
of its requests met, with profiles that its requests met. Attempts that are
overtaken by a change are made again, up to three in all, and the first that
is not gets the snapshot of the state it meets. -/
theorem fetch_follows (hfloats : ∀ x, lib.fields.small x = true → lib.floats.Reads x)
    {channel guild : Ref} {states : List (Authority F)}
    (hstates : History lib channel guild states) {attempts : List (List (Moment F))}
    (hmoments : ∀ moments ∈ attempts, ∀ m ∈ moments, m.state ∈ states) :
    (∀ snapshot, follow lib otherTexts guild channel attempts = .ok snapshot →
      ∃ moments ∈ attempts, ∃ m ∈ moments, ∃ profiles refs, Names m.state profiles refs ∧
        Met (moments.map Moment.state) profiles ∧
        snapshot = snapshotTree m.state profiles refs) ∧
    ∀ overtaken rest, attempts = overtaken ++ rest →
      (∀ moments ∈ overtaken, ∃ a ∈ states, ∃ before m after, moments = before ++ m :: after ∧
        Overtaken lib a before m) →
      (3 ≤ overtaken.length ∨ rest = [] →
        follow lib otherTexts guild channel attempts =
          .error (.http 503 "FEDERATION_UNAVAILABLE")) ∧
      ∀ a ∈ states, ∀ calm others, rest = calm :: others → overtaken.length < 3 →
        Calm lib a calm → ∃ profiles refs, Names a profiles refs ∧ Profiled a profiles ∧
          follow lib otherTexts guild channel attempts = .ok (snapshotTree a profiles refs) := by
  refine ⟨fun snapshot hok => ?_, fun overtaken rest hattempts hovertaken => ?_⟩
  · obtain ⟨responses, hmem, hok⟩ := fetchAttempts_ok hok
    obtain ⟨moments, hattempt, rfl⟩ := List.mem_map.mp (List.mem_of_mem_take hmem)
    have hmet : History lib channel guild (moments.map Moment.state) :=
      hstates.mono fun a ha => by
        obtain ⟨m, hm, rfl⟩ := List.mem_map.mp ha
        exact hmoments moments hattempt m hm
    obtain ⟨a, ha, profiles, refs, hnames, hprofiles, hsnapshot⟩ := fetchTrackerSnapshotOnce_sound
      hfloats hmet (answers_served otherTexts hmet (fun m hm => List.mem_map_of_mem hm) none) hok
    obtain ⟨m, hm, rfl⟩ := List.mem_map.mp ha
    exact ⟨moments, hattempt, m, hm, profiles, refs, hnames, hprofiles, hsnapshot⟩
  · have hchanged : ∀ responses ∈ overtaken.map (answers lib otherTexts none),
        fetchTrackerSnapshotOnce lib guild channel responses = .error .changed := by
      rintro _ hresponses
      obtain ⟨moments, hmem, rfl⟩ := List.mem_map.mp hresponses
      obtain ⟨a, ha, before, m, after, rfl, hchange⟩ := hovertaken moments hmem
      obtain ⟨fields, hsound⟩ := hstates.sound a ha
      rw [← hstates.guild a ha, ← hstates.channel a ha]
      exact hchange.changed otherTexts hsound hfloats after
    rw [hattempts, follow, fetchTrackerSnapshot, List.map_append, List.take_append, List.length_map]
    refine ⟨fun hnone => ?_, fun a ha calm others hrest hearly hcalm => ?_⟩
    · have hlate : (rest.map (answers lib otherTexts none)).take (3 - overtaken.length) = [] := by
        rcases hnone with hthree | rfl
        · rw [Nat.sub_eq_zero_of_le hthree, List.take_zero]
        · exact List.take_nil
      rw [hlate, fetchAttempts_append fun responses hr =>
        hchanged responses (List.mem_of_mem_take hr)]
      rfl
    · obtain ⟨fields, hsound⟩ := hstates.sound a ha
      obtain ⟨profiles, refs, hnames, hprofiled, hresult⟩ :=
        hcalm.fetched otherTexts hsound hfloats
      refine ⟨profiles, refs, hnames, hprofiled, ?_⟩
      obtain ⟨n, hn⟩ : ∃ n, 3 - overtaken.length = n + 1 := ⟨2 - overtaken.length, by omega⟩
      rw [hstates.guild a ha, hstates.channel a ha] at hresult
      rw [fetchAttempts_append fun responses hr => hchanged responses (List.mem_of_mem_take hr),
        hrest, hn, List.map_cons, List.take_succ_cons, fetchAttempts, hresult]

end

/-! A board with 257 tasks is fetched in two requests. -/

def manyTasks (title : String) (v : Nat) : Authority Unit :=
  pointsBoard (.int 1) title (boardTime v) 257

section

variable {title : String}

theorem manyTasks_sound (htitle : Titled title) (v : Nat) :
    Sound oneFloat [pointsField] (manyTasks title v) :=
  wholePoints_sound htitle (boardTime_le v) (by decide)

theorem manyTasks_size (htitle : Titled title) (v : Nat) {task : TaskRow Unit}
    (htask : task ∈ (manyTasks title v).tasks) :
    ∃ size ≤ 2620, trackerSnapshotPageSize oneFloat (manyTasks title v) [task] = .ok size := by
  have hsub : [task] ⊆ (manyTasks title v).tasks := List.cons_subset.mpr ⟨htask, List.nil_subset _⟩
  refine ⟨_, ?_, (manyTasks_sound htitle v).pageSize_eq hsub⟩
  have hfirst := length_encode_arr_le oneFloat.floats (n := 1278)
    ([task].map trackerTaskSnapshotPayload) (by
      obtain ⟨i, hi, rfl⟩ := pointsBoard_task (List.Subset.refl _) htask
      exact List.forall_mem_singleton.mpr
        (pointsTask_bytes one_short htitle _ (hi.trans (by decide))))
  have husers := length_encode_arr_le oneFloat.floats (n := 400)
    ((pageUsers (manyTasks title v) [task]).map
      fun user => dumpProfile (profileOf user)) (by
      intro w hw
      obtain ⟨user, huser, rfl⟩ := List.mem_map.mp hw
      rw [pointsBoard_user huser]
      exact fixed_bytes.2.2.2.2.2.1)
  have hcount := length_pageUsers_le (manyTasks title v) [task]
  rw [List.length_map] at hfirst husers
  rw [List.length_singleton] at hfirst hcount
  refine (length_encode_obj_le (k := 7) (n := 1300) ?_ ?_).trans ?_
  · simpa only [List.map_cons, List.map_nil] using payload_keys.2.2.2
  · simp only [List.forall_mem_cons, List.not_mem_nil, false_implies, implies_true, and_true]
    exact ⟨by omega, by omega⟩
  · simp only [List.length_cons, List.length_nil]
    decide

theorem servedParts_manyTasks (htitle : Titled title) (v : Nat) :
    servedParts oneFloat (manyTasks title v) =
      [(manyTasks title v).tasks.take 256, (manyTasks title v).tasks.drop 256] := by
  have hlength : (manyTasks title v).tasks.length = 257 := length_pointsBoard
  have hall : ∀ tasks ⊆ (manyTasks title v).tasks, tasks.length ≤ 256 →
      selectTasks oneFloat (manyTasks title v) false 0 tasks = .ok tasks := by
    intro tasks hsub hcount
    refine selectTasks_all (n := 2620) (fun task htask => manyTasks_size htitle v (hsub htask)) _ ?_
    rw [targetTrackerPageBytes]
    omega
  have hfirst := hall ((manyTasks title v).tasks.take 256) (List.take_subset _ _)
    (List.length_take_le _ _)
  have hdrop : ((manyTasks title v).tasks.drop 256).length = 1 := by
    rw [List.length_drop, hlength]
  have hsecond := hall ((manyTasks title v).tasks.drop 256) (List.drop_subset _ _)
    (hdrop.trans_le (by decide))
  have htake : ((manyTasks title v).tasks.take 256).length = 256 :=
    List.length_take_of_le (by rw [hlength]; decide)
  have hmore : ((manyTasks title v).tasks.drop 256).isEmpty = false := by
    rw [List.isEmpty_eq_false_iff, ← List.length_pos_iff, hdrop]
    decide
  have hwhole : ((manyTasks title v).tasks.drop 256).take 256 =
      (manyTasks title v).tasks.drop 256 :=
    List.take_of_length_le (hdrop.trans_le (by decide))
  rw [servedParts, hlength, divide]
  simp only [maxTrackerPageTaskCandidates, hfirst, htake, hmore]
  rw [if_neg Bool.false_ne_true, divide]
  simp only [maxTrackerPageTaskCandidates, hwhole, hsecond, List.drop_length, List.isEmpty_nil,
    if_true]

theorem manyTasks_division (htitle : Titled title) (v : Nat) :
    Division (manyTasks title v) (servedParts oneFloat (manyTasks title v)) := by
  have hlength : (manyTasks title v).tasks.length = 257 := length_pointsBoard
  rw [servedParts_manyTasks htitle v]
  refine ⟨?_, List.cons_ne_nil _ _, by change 2 ≤ 100; decide, ?_, ?_⟩
  · rw [List.flatten_cons, List.flatten_singleton, List.take_append_drop]
  · refine List.forall_mem_cons.mpr ⟨List.length_take_le _ _, List.forall_mem_singleton.mpr ?_⟩
    rw [List.length_drop, hlength]
    decide
  · refine List.forall_mem_singleton.mpr (List.ne_nil_of_length_pos ?_)
    rw [List.length_take, hlength]
    decide

theorem manyTasks_fetchable (htitle : Titled title) (v : Nat) :
    Fetchable oneFloat (manyTasks title v) := by
  have hdivision := manyTasks_division htitle v
  exact
    { count := hdivision.count
      bytes := pointsBoard_withinBytes one_short htitle (by decide) hdivision
      accepted := ((manyTasks_sound htitle v).accepted_iff hdivision).mpr
        (pointsBoard_read hdivision) }

/-- A request that meets the board. -/
def moment (title : String) (v : Nat) : Moment Unit := ⟨manyTasks title v, guildVisit⟩

theorem moment_meets (title : String) (v : Nat) :
    Meets (manyTasks title v) (moment title v) :=
  ⟨rfl, guildVisit_passes title (boardTime v) 257⟩

theorem manyTasks_changed :
    (manyTasks "Write" 5).board.updatedAt ≠ (manyTasks "Review" 7).board.updatedAt := by
  decide

theorem manyTasks_history : History oneFloat ⟨10, "a.example"⟩ ⟨1, "a.example"⟩
    [manyTasks "Write" 5, manyTasks "Review" 7] where
  sound := List.forall_mem_cons.mpr ⟨⟨_, manyTasks_sound write_titled 5⟩,
    List.forall_mem_singleton.mpr ⟨_, manyTasks_sound review_titled 7⟩⟩
  channel := List.forall_mem_cons.mpr ⟨rfl, List.forall_mem_singleton.mpr rfl⟩
  guild := List.forall_mem_cons.mpr ⟨rfl, List.forall_mem_singleton.mpr rfl⟩
  version := by
    refine List.forall_mem_cons.mpr ⟨List.forall_mem_cons.mpr ⟨fun _ => .refl _,
      List.forall_mem_singleton.mpr fun heq => absurd heq manyTasks_changed⟩, ?_⟩
    exact List.forall_mem_singleton.mpr (List.forall_mem_cons.mpr
      ⟨fun heq => absurd heq.symm manyTasks_changed, List.forall_mem_singleton.mpr fun _ =>
        .refl _⟩)

/-- The board changes before the second page. -/
theorem manyTasks_overtaken :
    Overtaken oneFloat (manyTasks "Write" 5) [moment "Write" 5] (moment "Review" 7) where
  fetchable := manyTasks_fetchable write_titled 5
  meets := List.forall_mem_singleton.mpr (moment_meets _ _)
  first := List.cons_ne_nil _ _
  early := by
    rw [servedParts_manyTasks write_titled 5]
    decide
  overtakes :=
    { version := manyTasks_changed.symm
      refusal := rfl
      each := Nat.zero_le _
      total := by
        have hempty : (moment "Review" 7).visit.errorBody.length = 0 := rfl
        rw [hempty, Nat.add_zero]
        exact (manyTasks_fetchable write_titled 5).bytes.total }

/-- Both pages are asked for while the board does not change. -/
theorem manyTasks_calm (htitle : Titled title) (v : Nat) :
    Calm oneFloat (manyTasks title v) [moment title v, moment title v] where
  fetchable := manyTasks_fetchable htitle v
  meets := by
    rw [servedParts_manyTasks htitle v]
    exact List.forall_mem_cons.mpr ⟨moment_meets _ _,
      List.forall_mem_singleton.mpr (moment_meets _ _)⟩
  enough := by
    rw [servedParts_manyTasks htitle v]
    exact Nat.le_refl 2

end

/-- The second page of the first attempt meets a change, and the second
attempt gets both pages of what is there by then. -/
theorem fetch_follows_change :
    ∃ profiles refs, Names (manyTasks "Review" 7) profiles refs ∧
      Profiled (manyTasks "Review" 7) profiles ∧
      follow oneFloat (fun _ => none) ⟨1, "a.example"⟩ ⟨10, "a.example"⟩
        [[moment "Write" 5, moment "Review" 7], [moment "Review" 7, moment "Review" 7]] =
          .ok (snapshotTree (manyTasks "Review" 7) profiles refs) := by
  have hmoments : ∀ moments ∈ [[moment "Write" 5, moment "Review" 7],
      [moment "Review" 7, moment "Review" 7]], ∀ m ∈ moments,
        m.state ∈ [manyTasks "Write" 5, manyTasks "Review" 7] := by
    have hfirst : (moment "Write" 5).state ∈ [manyTasks "Write" 5, manyTasks "Review" 7] :=
      List.mem_cons_self
    have hsecond : (moment "Review" 7).state ∈ [manyTasks "Write" 5, manyTasks "Review" 7] :=
      List.mem_cons_of_mem _ List.mem_cons_self
    exact List.forall_mem_cons.mpr ⟨List.forall_mem_cons.mpr ⟨hfirst,
      List.forall_mem_singleton.mpr hsecond⟩, List.forall_mem_singleton.mpr
        (List.forall_mem_cons.mpr ⟨hsecond, List.forall_mem_singleton.mpr hsecond⟩)⟩
  exact ((fetch_follows (fun _ => none) (fun x _ => oneFloat_reads x) manyTasks_history
    hmoments).2 [[moment "Write" 5, moment "Review" 7]] _ rfl
    (List.forall_mem_singleton.mpr ⟨_, List.mem_cons_self, [moment "Write" 5],
      moment "Review" 7, [], rfl, manyTasks_overtaken⟩)).2 _
      (List.mem_cons_of_mem _ List.mem_cons_self) _ [] rfl (by decide)
      (manyTasks_calm review_titled 7)

end TrackerSync

end Kaede
