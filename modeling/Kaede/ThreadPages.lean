import Kaede.DmCache
import Kaede.Paging

/-!
# The pages of a thread

`list_messages` (`backend/app/api/channels.py`) in a thread that was created
from a message. That message stays in the parent channel and is projected
into the pages of the thread, where it comes below the messages of the
thread.

The newest page has the starter only if there is room for it. A page before a
cursor has it whenever it is below the cursor, on top of a full page and with
messages between them left out; the client goes on below the starter and
never sees these. So reading back from the newest page works only as long as
the second page has room (`readsBack_iff`).

Of a message only its reference is modelled: what is put into the payload
changes neither which messages are on a page nor their order.
-/

namespace Kaede

namespace ThreadPages

open DmCache (Ref)

/-- A thread with its starter in the parent channel. -/
structure Thread where
  /-- Thread and starter have one reference. -/
  starter : Ref
  createdFloorId : Nat
  /-- The rows of the thread. -/
  rows : Finset Ref
  /-- The starter is a row of the parent. -/
  parent : starter ∉ rows

/-- At most one of `before`, `after` and `around`. -/
inductive Cursor where
  | latest
  | before (ref : Ref)
  | after (ref : Ref)
  | around (ref : Ref)
deriving DecidableEq

namespace Thread

variable (t : Thread)

/-- The messages of the thread that can be read. -/
def messages : Finset Ref := t.rows.filter fun r => t.createdFloorId ≤ (ofLex r).1

/-- References, the largest first. -/
def sortDescending (refs : List Ref) : List Ref := Paging.sortedBy OrderDual.toDual refs

/-- The smallest of some references, in ascending order. -/
def firstOf (refs : Finset Ref) (limit : Nat) : List Ref := (refs.sort (· ≤ ·)).take limit

/-- The largest of some references, in descending order. -/
def lastOf (refs : Finset Ref) (limit : Nat) : List Ref := (Paging.descending refs).take limit

/-- The rows of the query. -/
def queried (cursor : Cursor) (limit : Nat) : List Ref :=
  match cursor with
  | .latest => lastOf t.messages limit
  | .before r => lastOf (t.messages.filter (· < r)) limit
  | .after r => (firstOf (t.messages.filter (r < ·)) limit).reverse
  | .around r =>
      let newerLimit := (limit + 1) / 2
      let newer := firstOf (t.messages.filter (r ≤ ·)) newerLimit
      let older := lastOf (t.messages.filter (· < r)) (limit - newerLimit)
      sortDescending (older ++ newer)

/-- `include_parent_starter` -/
def includeParentStarter (cursor : Cursor) (limit : Nat) (messages : List Ref) : Bool :=
  match cursor with
  | .latest => messages.length < limit
  | .before r => t.starter < r
  | .after r => r < t.starter
  | .around r =>
      let newerLimit := (limit + 1) / 2
      if r ≤ t.starter then (messages.filter (r ≤ ·)).length < newerLimit
      else (messages.filter (· < r)).length < limit - newerLimit

/-- `list_messages` -/
def listMessages (cursor : Cursor) (limit : Nat) : List Ref :=
  let messages := t.queried cursor limit
  if t.includeParentStarter cursor limit messages then sortDescending (messages ++ [t.starter])
  else messages

/-- The pages of a client that goes on before the oldest item until a page is
empty. -/
inductive Walk (limit : Nat) : Cursor → List (List Ref) → Prop
  | done {cursor : Cursor} (h : t.listMessages cursor limit = []) : Walk limit cursor []
  | page {cursor : Cursor} {oldest : Ref} {pages : List (List Ref)}
      (h : (t.listMessages cursor limit).getLast? = some oldest)
      (rest : Walk limit (.before oldest) pages) :
      Walk limit cursor (t.listMessages cursor limit :: pages)

/-- A client that reads back from the newest page gets every message of the
thread and the starter once, and no page is longer than the limit. -/
def ReadsBack (limit : Nat) : Prop :=
  ∃ pages, t.Walk limit .latest pages ∧
    pages.flatten.Perm (t.starter :: Paging.descending t.messages) ∧
    ∀ page ∈ pages, page.length ≤ limit

/-! ## Pages -/

section

variable {t : Thread} {limit : Nat} {cursor : Cursor} {oldest r : Ref}

theorem perm_sortDescending (refs : List Ref) : (sortDescending refs).Perm refs :=
  Paging.perm_sortedBy

theorem starter_notMem_messages : t.starter ∉ t.messages :=
  fun h => t.parent (Finset.mem_of_mem_filter _ h)

theorem exists_getLast {refs : List Ref} (h : refs ≠ []) : ∃ oldest, refs.getLast? = some oldest :=
  Option.ne_none_iff_exists'.mp (mt List.getLast?_eq_none_iff.mp h)

/-- Nothing is below the last of a list in descending order. -/
theorem last_le_of_pairwise {refs : List Ref} (hsorted : refs.Pairwise (· ≥ ·))
    (hlast : refs.getLast? = some oldest) (hr : r ∈ refs) : oldest ≤ r := by
  obtain ⟨front, rfl⟩ := List.getLast?_eq_some_iff.mp hlast
  rcases List.mem_append.mp hr with hr | hr
  · exact (List.pairwise_append.mp hsorted).2.2 r hr oldest (List.mem_singleton.mpr rfl)
  · rw [List.mem_singleton.mp hr]

theorem last_le_of_sortDescending {refs : List Ref}
    (hlast : (sortDescending refs).getLast? = some oldest) (hr : r ∈ refs) : oldest ≤ r := by
  have hsorted : (sortDescending refs).Pairwise (OrderDual.toDual · ≤ OrderDual.toDual ·) :=
    Paging.pairwise_le_sortedBy
  exact last_le_of_pairwise hsorted hlast ((perm_sortDescending refs).mem_iff.mpr hr)

/-- A page before a cursor has what is below it only. -/
theorem lt_of_mem_before (hr : r ∈ t.listMessages (.before oldest) limit) : r < oldest := by
  have hqueried : ∀ q ∈ t.queried (.before oldest) limit, q < oldest := by
    intro q hq
    have hq := Paging.mem_descending.mp (List.mem_of_mem_take hq)
    exact (Finset.mem_filter.mp hq).2
  simp only [listMessages] at hr
  split at hr
  · next hstarter =>
    rcases List.mem_append.mp ((perm_sortDescending _).mem_iff.mp hr) with hr | hr
    · exact hqueried r hr
    · rw [List.mem_singleton.mp hr]
      exact of_decide_eq_true hstarter
  · exact hqueried r hr

/-- A client that goes on before a reference sees what is below it only. -/
theorem Walk.lt_of_mem {pages : List (List Ref)} (h : t.Walk limit (.before oldest) pages)
    (hr : r ∈ pages.flatten) : r < oldest := by
  generalize hcursor : Cursor.before oldest = cursor at h
  induction h generalizing oldest with
  | done _ => cases hr
  | page hlast _ ih =>
    subst hcursor
    rw [List.flatten_cons] at hr
    rcases List.mem_append.mp hr with hr | hr
    · exact lt_of_mem_before hr
    · exact (ih hr rfl).trans (lt_of_mem_before (List.mem_of_getLast? hlast))

/-- Below everything there is nothing more. -/
theorem listMessages_below (hmessages : ∀ q ∈ t.messages, oldest ≤ q)
    (hstarter : oldest ≤ t.starter) : t.listMessages (.before oldest) limit = [] := by
  refine List.eq_nil_iff_forall_not_mem.mpr fun r hr => ?_
  have hlt := lt_of_mem_before hr
  simp only [listMessages] at hr
  split at hr
  · next hincluded => exact absurd (of_decide_eq_true hincluded) (not_lt.mpr hstarter)
  · have hr := Paging.mem_descending.mp (List.mem_of_mem_take hr)
    exact absurd hlt (not_lt.mpr (hmessages r (Finset.mem_of_mem_filter _ hr)))

/-- A page that has the starter and goes below all the messages is the last
one. -/
theorem Walk.last {rest : List Ref}
    (hpage : t.listMessages cursor limit = sortDescending (rest ++ [t.starter]))
    (hbelow : ∀ q ∈ t.messages, ∃ p ∈ rest ++ [t.starter], p ≤ q) :
    t.Walk limit cursor [sortDescending (rest ++ [t.starter])] := by
  have hne : sortDescending (rest ++ [t.starter]) ≠ [] := fun hnil => by
    have hlength := (perm_sortDescending (rest ++ [t.starter])).length_eq
    rw [hnil, List.length_append] at hlength
    cases hlength
  obtain ⟨oldest, hlast⟩ := exists_getLast hne
  rw [← hpage] at hlast ⊢
  refine .page hlast (.done (listMessages_below (fun q hq => ?_) ?_))
  · obtain ⟨p, hp, hle⟩ := hbelow q hq
    exact (last_le_of_sortDescending (hpage ▸ hlast) hp).trans hle
  · exact last_le_of_sortDescending (hpage ▸ hlast) (by simp)

/-! ## The first two pages -/

theorem length_descending (refs : Finset Ref) : (Paging.descending refs).length = refs.card :=
  Finset.length_sort _

/-- A first page with room has everything. -/
theorem listMessages_latest_of_lt (h : t.messages.card < limit) :
    t.listMessages .latest limit =
      sortDescending (Paging.descending t.messages ++ [t.starter]) := by
  have hqueried : t.queried .latest limit = Paging.descending t.messages := by
    rw [queried, lastOf, List.take_of_length_le]
    rw [length_descending]
    exact h.le
  rw [listMessages, hqueried, includeParentStarter, length_descending, if_pos (decide_eq_true h)]

/-- A full one has no starter. -/
theorem listMessages_latest_of_le (h : limit ≤ t.messages.card) :
    t.listMessages .latest limit = (Paging.descending t.messages).take limit := by
  have hlength : (t.queried .latest limit).length = limit := by
    rw [queried, lastOf, List.length_take, length_descending]
    exact min_eq_left h
  have hfull : t.includeParentStarter .latest limit (t.queried .latest limit) = false := by
    rw [includeParentStarter, hlength]
    exact decide_eq_false (lt_irrefl _)
  rw [listMessages, hfull]
  rfl

section

variable (hlast : ((Paging.descending t.messages).take limit).getLast? = some oldest)
include hlast

theorem last_le_of_mem_take (hr : r ∈ (Paging.descending t.messages).take limit) : oldest ≤ r := by
  have hsorted : ((Paging.descending t.messages).take limit).Pairwise (· ≥ ·) :=
    (Paging.pairwise_descending.sublist (List.take_sublist _ _)).imp le_of_lt
  exact last_le_of_pairwise hsorted hlast hr

/-- The second page goes on behind the first. -/
theorem listMessages_second : t.listMessages (.before oldest) limit =
    if t.starter < oldest then
      sortDescending (((Paging.descending t.messages).drop limit).take limit ++ [t.starter])
    else ((Paging.descending t.messages).drop limit).take limit := by
  have hqueried : t.queried (.before oldest) limit =
      ((Paging.descending t.messages).drop limit).take limit := by
    rw [queried, lastOf, Paging.descending_below (List.take_append_drop limit _).symm hlast]
  simp only [listMessages, hqueried, includeParentStarter, decide_eq_true_iff]

/-- The starter is below a full page that the messages after it fill. -/
theorem starter_lt_iff (hfull : limit ≤ t.messages.card) :
    t.starter < oldest ↔ limit ≤ (t.messages.filter (t.starter < ·)).card := by
  have hsorted : (Paging.descending t.messages).Pairwise (· > ·) := Paging.pairwise_descending
  obtain ⟨front, hfront⟩ := List.getLast?_eq_some_iff.mp hlast
  have hlength : front.length + 1 = limit := by
    have := congrArg List.length hfront
    rw [List.length_take, length_descending, min_eq_left hfull, List.length_append] at this
    exact this.symm
  rw [← List.take_append_drop limit (Paging.descending t.messages), hfront] at hsorted
  obtain ⟨hpage, -, hrest⟩ := List.pairwise_append.mp hsorted
  have habove : ∀ q ∈ front, oldest < q := fun q hq =>
    (List.pairwise_append.mp hpage).2.2 q hq oldest (List.mem_singleton.mpr rfl)
  have hmem : ∀ q, q ∈ t.messages ↔ q ∈ front ++ [oldest] ∨
      q ∈ (Paging.descending t.messages).drop limit := by
    intro q
    rw [← Paging.mem_descending, ← hfront, ← List.mem_append, List.take_append_drop]
  constructor
  · intro hlt
    have hsubset : (front ++ [oldest]).toFinset ⊆ t.messages.filter (t.starter < ·) := by
      intro q hq
      have hq := List.mem_toFinset.mp hq
      refine Finset.mem_filter.mpr ⟨(hmem q).mpr (.inl hq), ?_⟩
      rcases List.mem_append.mp hq with hq | hq
      · exact hlt.trans (habove q hq)
      · rwa [List.mem_singleton.mp hq]
    have hcard := Finset.card_le_card hsubset
    rw [List.toFinset_card_of_nodup (hpage.imp ne_of_gt), List.length_append] at hcard
    exact hlength ▸ hcard
  · intro hle
    by_contra hstarter
    have hsubset : t.messages.filter (t.starter < ·) ⊆ front.toFinset := by
      intro q hq
      obtain ⟨hq, hlt⟩ := Finset.mem_filter.mp hq
      have holdest : oldest < q := lt_of_le_of_lt (not_lt.mp hstarter) hlt
      rcases (hmem q).mp hq with hq | hq
      · rcases List.mem_append.mp hq with hq | hq
        · exact List.mem_toFinset.mpr hq
        · exact absurd (List.mem_singleton.mp hq) holdest.ne'
      · exact absurd (hrest oldest (by simp) q hq) holdest.not_gt
    have hcard := (Finset.card_le_card hsubset).trans (List.toFinset_card_le front)
    omega

end

/-- A client that gets a page goes on before its oldest item. -/
theorem Walk.next {pages : List (List Ref)} (h : t.Walk limit cursor pages)
    (hlast : (t.listMessages cursor limit).getLast? = some oldest) :
    ∃ rest, pages = t.listMessages cursor limit :: rest ∧ t.Walk limit (.before oldest) rest := by
  cases h with
  | done hnil =>
    rw [hnil] at hlast
    cases hlast
  | page hlast' rest =>
    rw [hlast] at hlast'
    cases hlast'
    exact ⟨_, rfl, rest⟩

/-! ## Reading back -/

/-- Everything is on the first page. -/
theorem readsBack_of_lt (h : t.messages.card < limit) : t.ReadsBack limit := by
  refine ⟨_, .last (listMessages_latest_of_lt h) fun q hq => ⟨q, ?_, le_rfl⟩, ?_, ?_⟩
  · exact List.mem_append_left _ (Paging.mem_descending.mpr hq)
  · rw [List.flatten_singleton]
    exact (perm_sortDescending _).trans (List.perm_append_singleton _ _)
  · intro page hpage
    rw [List.mem_singleton.mp hpage, (perm_sortDescending _).length_eq, List.length_append,
      length_descending]
    exact h

/-- There is room for the starter on the first page, or, when it is below a
full one, on the second. -/
def HasRoom (t : Thread) (limit : Nat) : Prop :=
  t.messages.card < limit ∨
    limit ≤ (t.messages.filter (t.starter < ·)).card ∧ t.messages.card < 2 * limit

section

variable (hlimit : 1 ≤ limit) (hfull : limit ≤ t.messages.card)
include hfull

theorem length_first : ((Paging.descending t.messages).take limit).length = limit := by
  rw [List.length_take, length_descending]
  exact min_eq_left hfull

include hlimit

theorem exists_oldest_first : ∃ oldest,
    ((Paging.descending t.messages).take limit).getLast? = some oldest := by
  refine exists_getLast (List.ne_nil_of_length_pos ?_)
  rw [length_first hfull]
  exact hlimit

/-- Behind a full page the client has to find the starter, and on a page that
is not too long. -/
theorem ReadsBack.second_room (h : t.ReadsBack limit) :
    limit ≤ (t.messages.filter (t.starter < ·)).card ∧ t.messages.card < 2 * limit := by
  obtain ⟨pages, hwalk, hperm, hlimits⟩ := h
  obtain ⟨oldest, hlast⟩ := exists_oldest_first hlimit hfull
  have hfirst := listMessages_latest_of_le hfull
  have hsecond := listMessages_second hlast
  obtain ⟨rest, rfl, hrest⟩ := hwalk.next (hfirst ▸ hlast)
  have hstarter : t.starter < oldest := by
    -- the starter is on a later page, and these are below the first
    have hmem := hperm.mem_iff.mpr List.mem_cons_self
    rw [List.flatten_cons, hfirst] at hmem
    rcases List.mem_append.mp hmem with hmem | hmem
    · exact absurd (Paging.mem_descending.mp (List.mem_of_mem_take hmem)) starter_notMem_messages
    · exact hrest.lt_of_mem hmem
  rw [if_pos hstarter] at hsecond
  have hmem : t.starter ∈ t.listMessages (.before oldest) limit := by
    rw [hsecond, (perm_sortDescending _).mem_iff]
    exact List.mem_append_right _ (List.mem_singleton.mpr rfl)
  have hpage : t.listMessages (.before oldest) limit ∈ rest := by
    obtain ⟨last, hnext⟩ := exists_getLast (List.ne_nil_of_mem hmem)
    obtain ⟨rest, rfl, -⟩ := hrest.next hnext
    exact List.mem_cons_self
  have hlimits := hlimits _ (List.mem_cons_of_mem _ hpage)
  rw [hsecond, (perm_sortDescending _).length_eq, List.length_append, List.length_take,
    List.length_drop, length_descending, List.length_singleton] at hlimits
  exact ⟨(starter_lt_iff hlast hfull).mp hstarter, by omega⟩

/-- A second page with room has everything that the first left out. -/
theorem readsBack_of_second_room (habove : limit ≤ (t.messages.filter (t.starter < ·)).card)
    (hsmall : t.messages.card < 2 * limit) : t.ReadsBack limit := by
  obtain ⟨oldest, hlast⟩ := exists_oldest_first hlimit hfull
  have hfirst := listMessages_latest_of_le hfull
  have hstarter := (starter_lt_iff hlast hfull).mpr habove
  have hsecond := listMessages_second hlast
  have hrest : ((Paging.descending t.messages).drop limit).take limit =
      (Paging.descending t.messages).drop limit := by
    rw [List.take_of_length_le]
    rw [List.length_drop, length_descending]
    omega
  rw [if_pos hstarter, hrest] at hsecond
  refine ⟨_, .page (hfirst ▸ hlast) (.last hsecond fun q hq => ?_), ?_, ?_⟩
  · rw [← Paging.mem_descending, ← List.take_append_drop limit (Paging.descending t.messages),
      List.mem_append] at hq
    rcases hq with hq | hq
    · exact ⟨t.starter, by simp, hstarter.le.trans (last_le_of_mem_take hlast hq)⟩
    · exact ⟨q, List.mem_append_left _ hq, le_rfl⟩
  · rw [List.flatten_cons, List.flatten_singleton, hfirst]
    refine ((perm_sortDescending _).append_left _).trans ?_
    rw [← List.append_assoc, List.take_append_drop]
    exact List.perm_append_singleton _ _
  · intro page hpage
    rcases List.mem_cons.mp hpage with rfl | hpage
    · rw [hfirst, length_first hfull]
    · rw [List.mem_singleton.mp hpage, (perm_sortDescending _).length_eq, List.length_append,
        List.length_drop, length_descending, List.length_singleton]
      omega

end

/-- A client reads back exactly if there is room for the starter. -/
theorem readsBack_iff (hlimit : 1 ≤ limit) : t.ReadsBack limit ↔ t.HasRoom limit := by
  by_cases hroom : t.messages.card < limit
  · exact iff_of_true (readsBack_of_lt hroom) (.inl hroom)
  · have hfull := not_lt.mp hroom
    refine ⟨fun h => .inr (h.second_room hlimit hfull), fun h => ?_⟩
    obtain ⟨habove, hsmall⟩ := h.resolve_left hroom
    exact readsBack_of_second_room hlimit hfull habove hsmall

end

/-- A thread whose messages come after its starter. -/
def sampleThread (ids : List Nat) (hids : 1 ∉ ids) : Thread where
  starter := toLex (1, "kaede.example")
  createdFloorId := 1
  rows := (ids.map fun id => (toLex (id, "kaede.example") : Ref)).toFinset
  parent := by simpa using hids

/-- Three messages with two on a page: the starter is on the second. -/
theorem readsBack_three : (sampleThread [2, 3, 4] (by decide)).ReadsBack 2 :=
  (readsBack_iff (by decide)).mpr (.inr (by decide +kernel))

/-- With one message on a page the second page has two, and one message is
never seen. -/
theorem second_page_too_long : ¬(sampleThread [2, 3, 4] (by decide)).ReadsBack 1 := by
  intro h
  have hroom := h.second_room (by decide) (by decide +kernel)
  exact absurd hroom.2 (by decide +kernel)

end Thread

end ThreadPages

end Kaede
