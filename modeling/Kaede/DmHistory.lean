import Kaede.DmCache
import Kaede.Paging
import Mathlib.Order.OrderDual

/-!
# Reading the history of a direct conversation

An instance that has dropped old messages of a direct conversation has the
authority serve them when a client reads that far. `list_messages`
(`backend/app/api/channels.py`) takes the newest stored messages before the
cursor. Once they reach the start of the cache it also asks the authority,
for at most four pages of what was written elsewhere
(`federation_dm_history_page` in `backend/app/api/federation.py`), and merges
the two (`backend/app/federation/dm_history.py`). The client goes on before
the oldest message it got.

A page of the authority ends at the limit or where one more message would not
fit the response. Which lists of messages fit is an input of every call. The
checks of the fields of a message are left out, and so are the safety updates
of the stored messages, which change no reference.
-/

namespace Kaede

namespace DmHistory

open DmCache (Ref Conversation)
open DmCache.Ref (domain)

/-! ## Messages -/

inductive SafetyState where
  | pendingReview
  | removed
deriving DecidableEq, Repr

/-- `REASONS`. -/
def SafetyState.reason : SafetyState → String
  | .pendingReview => "This content is temporarily unavailable pending a child-safety review."
  | .removed => "This content was removed following a child-safety review."

structure Item where
  ref : Ref
  /-- The domain of the author. -/
  author : String
  content : String := ""
  safety : Option SafetyState := none
  safetyAt : Option Nat := none
deriving DecidableEq

/-- Newer messages come first. -/
def Item.key (i : Item) : Refᵒᵈ := OrderDual.toDual i.ref

def safetyProjection (i : Item) : Item :=
  match i.safety with
  | none => i
  | some s => { i with content := s.reason }

structure HomeRow where
  item : Item
  /-- It has an `E2EEControlRecord`. -/
  control : Bool := false
deriving DecidableEq

/-- A conversation as an instance and its authority hold it. The stored rows
are those from `created_floor_id` on. -/
structure History where
  domain : String
  conversation : Conversation
  /-- The authority has the capability of serving pages. -/
  available : Bool
  rows : List Item
  home : List HomeRow
  rows_nodup : (rows.map Item.ref).Nodup
  home_nodup : (home.map fun m => m.item.ref).Nodup
  author_eq : ∀ m ∈ rows, ∀ n ∈ home, m.ref = n.item.ref → m.author = n.item.author

/-! ## At the authority -/

/-- The loop that renders the messages of a page. A first message that does
not fit is an error. -/
def render (fits : List Item → Bool) : List Item → List Item → Option (List Item)
  | rendered, [] => some rendered
  | rendered, m :: ms =>
      if fits (rendered ++ [m]) then render fits (rendered ++ [m]) ms
      else if rendered = [] then none
      else some rendered

structure AuthorityPage where
  messages : List Item
  nextBefore : Option Ref
  complete : Bool
deriving DecidableEq

namespace History

variable (x : History)

/-- What the authority serves to the instance. -/
def served : List Item :=
  (x.home.filter fun m => !m.control && m.item.ref.domain ≠ x.domain).map HomeRow.item

/-- The rows of the query, one more than a page has. -/
def servedRows (limit : Nat) (before : Option Ref) : List Item :=
  (Paging.after Item.key x.served (before.map OrderDual.toDual)).take (limit + 1)

/-- `federation_dm_history_page`. -/
def federationDmHistoryPage (fits : List Item → Bool) (limit : Nat) (before : Option Ref) :
    Option AuthorityPage :=
  match render fits [] ((x.servedRows limit before).take limit) with
  | none => none
  | some rendered => some {
      messages := rendered
      nextBefore :=
        if rendered.length < (x.servedRows limit before).length then
          rendered.getLast?.map Item.ref
        else none
      complete := (x.servedRows limit before).length ≤ rendered.length }

end History

/-! ## A page as it is checked -/

/-- A row of the authority. Of a message written here only the safety marker
is taken. -/
def accept (here : String) (m : Item) : Option Item :=
  if m.author = here then
    if m.safety ≠ none ∨ m.safetyAt ≠ none then some (safetyProjection { m with content := "" })
    else none
  else some (safetyProjection m)

/-- The references go down from the cursor. -/
def descends : Option Ref → List Item → Bool
  | _, [] => true
  | previous, m :: ms => (∀ p ∈ previous, m.ref < p) && descends (some m.ref) ms

structure ValidatedPage where
  messages : List Item
  complete : Bool
  nextBefore : Option Ref
  ignoredLocalRefs : List Ref
deriving DecidableEq

/-- `validate_dm_history_page`. -/
def validateDmHistoryPage (here : String) (before : Option Ref) (limit : Nat)
    (body : AuthorityPage) : Option ValidatedPage :=
  if body.messages.length ≤ limit ∧ descends before body.messages ∧
      body.nextBefore =
        (if body.complete then none else body.messages.getLast?.map Item.ref) ∧
      (body.messages = [] → body.complete) then
    some {
      messages := body.messages.filterMap (accept here)
      complete := body.complete
      nextBefore := body.nextBefore
      ignoredLocalRefs := (body.messages.filter fun m => m.author = here).map Item.ref }
  else
    none

/-! ## Merging -/

/-- A marker that waits for a review does not replace a later one. -/
def stalePending (item held : Item) : Bool :=
  item.safety = some .pendingReview &&
    held.safetyAt.any fun t => item.safetyAt.all fun u => u ≤ t

def mark (merged : Table Ref Item) (item : Item) : Table Ref Item :=
  match item.safety with
  | none => merged
  | some s =>
      merged.modify item.ref fun held =>
        if held.safety ≠ some .removed ∧ !stalePending item held then
          safetyProjection { held with safety := some s, safetyAt := item.safetyAt }
        else held

/-- `merge_dm_history_messages`. The stored copy of a message wins. -/
def mergeDmHistoryMessages (remote stored : List Item) (limit : Nat) : List Item :=
  (Paging.sortedBy Item.key
    (remote.foldl mark ((∅ : Table Ref Item).insertAll Item.ref (remote ++ stored))).values).take
      limit

/-- `dm_history_page_is_complete`. -/
def dmHistoryPageIsComplete (remoteComplete : Bool) (merged remote : List Item)
    (localHasMore : Bool) : Bool :=
  match merged.getLast? with
  | none => false
  | some oldest => remoteComplete && !localHasMore && !remote.any fun m => m.ref < oldest.ref

/-! ## The call -/

structure ClientPage where
  items : List Item
  /-- `history_page_complete` of the oldest item. -/
  complete : Bool := false
  /-- `history_page_error_code` of the oldest item. -/
  errorCode : Option String := none
deriving DecidableEq

/-- Where the client goes on. -/
def ClientPage.next (page : ClientPage) : Option Ref :=
  if page.complete then none else page.items.getLast?.map Item.ref

namespace History

variable (x : History)

/-- The newest stored messages before the cursor. -/
def payloads (limit : Nat) (before : Option Ref) : List Item :=
  (Paging.after Item.key x.rows (before.map OrderDual.toDual)).take limit

/-- `should_fetch_remote`. -/
def asksAuthority (payloads : List Item) (before : Option Ref) : Bool :=
  x.conversation.authority ≠ x.domain && x.conversation.truncated && x.available &&
    match x.conversation.cacheStart with
    | none => false
    | some start =>
        match payloads.getLast? with
        | some oldest => oldest.ref ≤ start
        | none => ∀ b ∈ before, b ≤ start

/-- The rows written here that a page names are stored. -/
def retains (refs : List Ref) : Bool :=
  refs.all fun ref => x.rows.any fun m => m.ref = ref && m.author = x.domain

/-- The loop over the pages of the authority. -/
def fetchHistory (fits : List Item → Bool) (limit : Nat) (payloads : List Item) :
    Nat → List Item → Bool → Option Ref → Option (List Item × Bool)
  | 0, remote, complete, _ => some (remote, complete)
  | fuel + 1, remote, _, cursor =>
      match x.federationDmHistoryPage fits limit cursor with
      | none => none
      | some body =>
          match validateDmHistoryPage x.domain cursor limit body with
          | none => none
          | some page =>
              if x.retains page.ignoredLocalRefs then
                if page.complete ∨ page.nextBefore = none then
                  some (remote ++ page.messages, page.complete)
                else if limit ≤
                    ((payloads ++ (remote ++ page.messages)).map Item.ref).toFinset.card then
                  some (remote ++ page.messages, page.complete)
                else
                  fetchHistory fits limit payloads fuel (remote ++ page.messages) page.complete
                    page.nextBefore
              else
                none

def maxHistoryPages : Nat := 4

def localHasMore (merged : List Item) : Bool :=
  match merged.getLast? with
  | none => false
  | some oldest => x.rows.any fun m => m.ref < oldest.ref

def mergedPage (payloads remote : List Item) (remoteComplete : Bool) (limit : Nat) :
    ClientPage where
  items := mergeDmHistoryMessages remote payloads limit
  complete := dmHistoryPageIsComplete remoteComplete (mergeDmHistoryMessages remote payloads limit)
    remote (x.localHasMore (mergeDmHistoryMessages remote payloads limit))

/-- `list_messages` with a `before`, or from the newest message on. An
authority that cannot be asked leaves what is stored, and without a stored
message the call fails. -/
def listMessages (fits : List Item → Bool) (limit : Nat) (before : Option Ref) :
    Option ClientPage :=
  if x.asksAuthority (x.payloads limit before) before then
    match x.fetchHistory fits limit (x.payloads limit before) maxHistoryPages [] false before with
    | some (remote, complete) =>
        some (x.mergedPage (x.payloads limit before) remote complete limit)
    | none =>
        if x.payloads limit before = [] then none
        else some {
          items := x.payloads limit before
          errorCode := some "FEDERATED_DM_HISTORY_UNAVAILABLE" }
  else
    some { items := x.payloads limit before }

/-- A client that reads on until a page is empty or the last. The messages
that fit depend on the call, and with them on its cursor. -/
def readAll (fits : Option Ref → List Item → Bool) (limit : Nat) :
    Nat → Option Ref → Option (List ClientPage)
  | 0, _ => none
  | fuel + 1, before =>
      match x.listMessages (fits before) limit before with
      | none => none
      | some page =>
          if page.errorCode.isSome then none
          else
            match page.next with
            | none => some [page]
            | some oldest => (readAll fits limit fuel (some oldest)).map (page :: ·)

variable {x} in
theorem readAll_succ {fits : Option Ref → List Item → Bool} {limit fuel : Nat}
    {before : Option Ref} {page : ClientPage}
    (hpage : x.listMessages (fits before) limit before = some page)
    (hok : page.errorCode = none) :
    x.readAll fits limit (fuel + 1) before =
      match page.next with
      | none => some [page]
      | some oldest => (x.readAll fits limit fuel (some oldest)).map (page :: ·) := by
  rw [readAll, hpage]
  dsimp only
  rw [if_neg (by simp [hok])]

end History

/-! ## The references of a list of messages -/

/-- The references before a cursor. -/
def below (refs : Finset Ref) (before : Option Ref) : Finset Ref :=
  refs.filter fun r => ∀ b ∈ before, r < b

theorem mem_below {refs : Finset Ref} {before : Option Ref} {r : Ref} :
    r ∈ below refs before ↔ r ∈ refs ∧ ∀ b ∈ before, r < b := Finset.mem_filter

def refsOf (rows : List Item) : Finset Ref := (rows.map Item.ref).toFinset

theorem mem_refsOf {rows : List Item} {r : Ref} : r ∈ refsOf rows ↔ ∃ m ∈ rows, m.ref = r := by
  rw [refsOf, List.mem_toFinset, List.mem_map]

theorem refsOf_append {rows rows' : List Item} :
    refsOf (rows ++ rows') = refsOf rows ∪ refsOf rows' := by
  rw [refsOf, List.map_append, List.toFinset_append]
  rfl

theorem keys_nodup {rows : List Item} (h : (rows.map Item.ref).Nodup) :
    (rows.map Item.key).Nodup := by
  have := h.map OrderDual.toDual.injective
  rwa [List.map_map] at this

theorem pairwise_ref {l : List Item} (h : l.Pairwise (Item.key · < Item.key ·)) :
    (l.map Item.ref).Pairwise (· > ·) := by
  refine List.pairwise_map.mpr (h.imp ?_)
  intro m n hmn
  exact OrderDual.toDual_lt_toDual.mp hmn

theorem mem_after {rows : List Item} {before : Option Ref} {m : Item} :
    m ∈ Paging.after Item.key rows (before.map OrderDual.toDual) ↔
      m ∈ rows ∧ ∀ b ∈ before, m.ref < b := by
  rw [Paging.mem_after]
  refine and_congr_right fun _ => ?_
  cases before with
  | none => simp
  | some b =>
      constructor
      · intro hm c hc
        obtain rfl : b = c := Option.some.inj hc
        exact OrderDual.toDual_lt_toDual.mp (hm _ rfl)
      · intro hm c hc
        obtain rfl : OrderDual.toDual b = c := Option.some.inj hc
        exact OrderDual.toDual_lt_toDual.mpr (hm _ rfl)

theorem map_ref_after {rows : List Item} (h : (rows.map Item.ref).Nodup) (before : Option Ref) :
    (Paging.after Item.key rows (before.map OrderDual.toDual)).map Item.ref =
      Paging.descending (below (refsOf rows) before) := by
  refine (Paging.descending_eq (pairwise_ref (Paging.pairwise_after (keys_nodup h) _)) ?_).symm
  intro r
  rw [List.mem_map, mem_below, mem_refsOf]
  constructor
  · rintro ⟨m, hm, rfl⟩
    exact ⟨⟨m, (mem_after.mp hm).1, rfl⟩, (mem_after.mp hm).2⟩
  · rintro ⟨⟨m, hm, rfl⟩, hb⟩
    exact ⟨m, mem_after.mpr ⟨hm, hb⟩, rfl⟩

/-! ## Merging keeps the references -/

/-- A message is under its own reference. -/
def Keyed (t : Table Ref Item) : Prop := ∀ r m, t.lookup r = some m → m.ref = r

theorem safetyProjection_ref (i : Item) : (safetyProjection i).ref = i.ref := by
  unfold safetyProjection
  split <;> rfl

theorem map_ref_values {t : Table Ref Item} (h : Keyed t) : t.values.map Item.ref = t.keys := by
  rw [Table.values, List.map_map]
  refine List.map_congr_left fun e he => ?_
  exact h e.1 e.2 (AList.mem_lookup_iff.mpr he)

theorem lookup_mark (t : Table Ref Item) (item : Item) (r : Ref) :
    ∃ f : Item → Item, (∀ m, (f m).ref = m.ref) ∧ (mark t item).lookup r = (t.lookup r).map f := by
  unfold mark
  split
  · exact ⟨id, fun _ => rfl, Option.map_id'.symm⟩
  · rw [Table.lookup_modify]
    split
    · refine ⟨_, fun m => ?_, rfl⟩
      split
      · exact safetyProjection_ref _
      · rfl
    · exact ⟨id, fun _ => rfl, Option.map_id'.symm⟩

theorem lookup_marks (items : List Item) (t : Table Ref Item) (r : Ref) :
    ∃ f : Item → Item, (∀ m, (f m).ref = m.ref) ∧
      (items.foldl mark t).lookup r = (t.lookup r).map f := by
  induction items generalizing t with
  | nil => exact ⟨id, fun _ => rfl, Option.map_id'.symm⟩
  | cons i items ih =>
      obtain ⟨f, hf, hlookup⟩ := lookup_mark t i r
      obtain ⟨g, hg, hlookups⟩ := ih (mark t i)
      refine ⟨g ∘ f, fun m => (hg _).trans (hf m), ?_⟩
      rw [List.foldl_cons, hlookups, hlookup, Option.map_map]

/-- The table that `merge_dm_history_messages` sorts. -/
theorem keyed_marks (items rows : List Item) :
    Keyed (items.foldl mark ((∅ : Table Ref Item).insertAll Item.ref rows)) := by
  intro r m hm
  obtain ⟨f, hf, hlookup⟩ := lookup_marks items ((∅ : Table Ref Item).insertAll Item.ref rows) r
  rw [hlookup] at hm
  obtain ⟨i, hi, rfl⟩ := Option.map_eq_some_iff.mp hm
  rw [hf]
  rcases Table.lookup_insertAll Item.ref rows (∅ : Table Ref Item) r with h | h
  · rw [h.1] at hi
    exact absurd hi (by simp)
  · obtain ⟨a, -, ha, hlookup⟩ := h
    rw [hlookup] at hi
    rw [← Option.some.inj hi, ha]

theorem mem_keys_marks (items rows : List Item) (r : Ref) :
    r ∈ (items.foldl mark ((∅ : Table Ref Item).insertAll Item.ref rows)).keys ↔
      r ∈ refsOf rows := by
  obtain ⟨f, -, hlookup⟩ := lookup_marks items ((∅ : Table Ref Item).insertAll Item.ref rows) r
  rw [← AList.mem_keys, ← AList.lookup_isSome, hlookup, Option.isSome_map, refsOf,
    List.mem_toFinset]
  rcases Table.lookup_insertAll Item.ref rows (∅ : Table Ref Item) r with h | h
  · simp [h.1, h.2]
  · obtain ⟨a, ha, rfl, hlookup⟩ := h
    simp [hlookup, List.mem_map_of_mem ha]

theorem map_ref_merge (remote stored : List Item) (limit : Nat) :
    (mergeDmHistoryMessages remote stored limit).map Item.ref =
      (Paging.descending (refsOf (remote ++ stored))).take limit := by
  have hkeyed := keyed_marks remote (remote ++ stored)
  have hnodup := AList.keys_nodup
    (remote.foldl mark ((∅ : Table Ref Item).insertAll Item.ref (remote ++ stored)))
  rw [← map_ref_values hkeyed] at hnodup
  have hsorted := pairwise_ref (Paging.pairwise_sortedBy (keys_nodup hnodup))
  rw [mergeDmHistoryMessages, List.map_take]
  congr 1
  refine (Paging.descending_eq hsorted fun r => ?_).symm
  rw [(Paging.perm_sortedBy.map Item.ref).mem_iff, map_ref_values hkeyed, mem_keys_marks]

/-! ## Pages of the authority -/

/-- A page has at least one message, unless none is left, and ends where one
more does not fit. -/
theorem render_cases {fits : List Item → Bool} {pre ms out : List Item}
    (h : render fits pre ms = some out) :
    ∃ k ≤ ms.length, out = pre ++ ms.take k ∧ (pre = [] → ms ≠ [] → 0 < k) ∧
      (k < ms.length → fits (pre ++ ms.take (k + 1)) = false) := by
  induction ms generalizing pre with
  | nil =>
      exact ⟨0, le_rfl, by simpa [render] using h.symm, fun _ hms => absurd rfl hms,
        fun hk => absurd hk (lt_irrefl 0)⟩
  | cons m ms ih =>
      rw [render] at h
      split at h
      · obtain ⟨k, hk, hout, -, hcut⟩ := ih h
        refine ⟨k + 1, Nat.succ_le_succ hk, ?_, fun _ _ => Nat.succ_pos k, fun hlt => ?_⟩
        · rw [hout, List.take_succ_cons, List.append_assoc]
          rfl
        · have hfits := hcut (Nat.lt_of_succ_lt_succ hlt)
          rwa [List.append_assoc] at hfits
      · rename_i hfits
        split at h
        · exact absurd h (by simp)
        · rename_i hpre
          exact ⟨0, Nat.zero_le _, by simpa using h.symm, fun hnil => absurd hnil hpre,
            fun _ => Bool.eq_false_of_not_eq_true hfits⟩

theorem render_isSome {fits : List Item → Bool} (hone : ∀ i, fits [i] = true)
    (pre ms : List Item) : (render fits pre ms).isSome := by
  induction ms generalizing pre with
  | nil => rfl
  | cons m ms ih =>
      rw [render]
      split
      · exact ih _
      · split
        · rename_i hfits hpre
          subst hpre
          exact absurd (hone m) hfits
        · rfl

namespace History

variable {x : History} {fits : List Item → Bool} {limit : Nat} {before : Option Ref}

theorem served_nodup : (x.served.map Item.ref).Nodup := by
  rw [served, List.map_map]
  exact x.home_nodup.sublist (List.filter_sublist.map _)

/-- What the authority has left before a cursor. -/
def remaining (x : History) (before : Option Ref) : List Item :=
  Paging.after Item.key x.served (before.map OrderDual.toDual)

theorem remaining_pairwise :
    (x.remaining before).Pairwise (Item.key · < Item.key ·) :=
  Paging.pairwise_after (keys_nodup served_nodup) _

theorem map_ref_remaining :
    (x.remaining before).map Item.ref = Paging.descending (below (refsOf x.served) before) :=
  map_ref_after served_nodup before

theorem refsOf_remaining : refsOf (x.remaining before) = below (refsOf x.served) before := by
  ext r
  rw [refsOf, map_ref_remaining, List.mem_toFinset, Paging.mem_descending]

/-- The page of the first `k` messages that are left. -/
def pageOf (x : History) (before : Option Ref) (k : Nat) : AuthorityPage where
  messages := (x.remaining before).take k
  nextBefore :=
    if k < (x.remaining before).length then
      ((x.remaining before).take k).getLast?.map Item.ref
    else none
  complete := (x.remaining before).length ≤ k

theorem federationDmHistoryPage_cases {body : AuthorityPage}
    (h : x.federationDmHistoryPage fits limit before = some body) :
    ∃ k ≤ limit, k ≤ (x.remaining before).length ∧ (0 < limit → x.remaining before ≠ [] → 0 < k) ∧
      (k < limit → k < (x.remaining before).length →
        fits ((x.remaining before).take (k + 1)) = false) ∧
      body = x.pageOf before k := by
  have htake : (x.servedRows limit before).take limit = (x.remaining before).take limit := by
    rw [servedRows, List.take_take, Nat.min_eq_left (Nat.le_succ _)]
    rfl
  have hlength : (x.servedRows limit before).length =
      min (limit + 1) (x.remaining before).length := by
    rw [servedRows, List.length_take]
    rfl
  rw [federationDmHistoryPage, htake] at h
  split at h
  · exact absurd h (by simp)
  · rename_i rendered hrender
    obtain ⟨k, hk, hout, hpos, hcut⟩ := render_cases hrender
    rw [List.length_take] at hk hcut
    have hklimit : k ≤ limit := hk.trans (Nat.min_le_left _ _)
    have hkrows : k ≤ (x.remaining before).length := hk.trans (Nat.min_le_right _ _)
    have hrendered : rendered = (x.remaining before).take k := by
      rw [hout, List.nil_append, List.take_take, Nat.min_eq_left hklimit]
    have hrlength : rendered.length = k := by
      rw [hrendered, List.length_take, Nat.min_eq_left hkrows]
    have hlt : k < min (limit + 1) (x.remaining before).length ↔
        k < (x.remaining before).length := by
      omega
    have hle : min (limit + 1) (x.remaining before).length ≤ k ↔
        (x.remaining before).length ≤ k := by
      omega
    refine ⟨k, hklimit, hkrows, fun hlimit hrows => hpos rfl ?_, fun hlt hmore => ?_, ?_⟩
    · intro hnil
      rcases List.take_eq_nil_iff.mp hnil with h0 | h0
      · exact absurd h0 hlimit.ne'
      · exact hrows h0
    · have hfits := hcut (lt_min hlt hmore)
      rwa [List.nil_append, List.take_take, Nat.min_eq_left hlt] at hfits
    · obtain rfl := Option.some.inj h
      simp only [pageOf, hrlength, hlength, hlt, hle, ← hrendered]

theorem federationDmHistoryPage_isSome (hone : ∀ i, fits [i] = true) (limit : Nat)
    (before : Option Ref) : (x.federationDmHistoryPage fits limit before).isSome := by
  rw [federationDmHistoryPage]
  split
  · rename_i hnone
    have := render_isSome hone [] ((x.servedRows limit before).take limit)
    rw [hnone] at this
    exact absurd this (by simp)
  · rfl

theorem descends_of_pairwise {l : List Item} (h : l.Pairwise (Item.key · < Item.key ·))
    (hb : ∀ m ∈ l, ∀ b ∈ before, m.ref < b) : descends before l = true := by
  induction l generalizing before with
  | nil => rfl
  | cons m l ih =>
      obtain ⟨hm, hl⟩ := List.pairwise_cons.mp h
      rw [descends, Bool.and_eq_true, decide_eq_true_iff]
      refine ⟨hb m List.mem_cons_self, ih hl fun n hn b hb' => ?_⟩
      obtain rfl : m.ref = b := Option.some.inj hb'
      exact OrderDual.toDual_lt_toDual.mp (hm n hn)

/-- A page that the authority sends passes the checks. -/
theorem validate_pageOf {k : Nat} (hk : k ≤ limit) (hpos : x.remaining before ≠ [] → 0 < k) :
    validateDmHistoryPage x.domain before limit (x.pageOf before k) = some {
      messages := ((x.remaining before).take k).filterMap (accept x.domain)
      complete := (x.remaining before).length ≤ k
      nextBefore := (x.pageOf before k).nextBefore
      ignoredLocalRefs :=
        (((x.remaining before).take k).filter fun m => m.author = x.domain).map Item.ref } := by
  have hdescends : descends before ((x.remaining before).take k) = true :=
    descends_of_pairwise (remaining_pairwise.sublist (List.take_sublist _ _)) fun m hm b hb =>
      (mem_after.mp (List.take_subset _ _ hm)).2 b hb
  have hlength : ((x.remaining before).take k).length ≤ limit :=
    (List.length_take_le _ _).trans hk
  have hempty : (x.remaining before).take k = [] → (x.remaining before).length ≤ k := by
    intro hnil
    rcases List.take_eq_nil_iff.mp hnil with h0 | h0
    · by_contra hlt
      have hne : x.remaining before ≠ [] := by
        intro hrows
        rw [hrows] at hlt
        exact hlt (Nat.zero_le _)
      exact (hpos hne).ne' h0
    · rw [h0]
      exact Nat.zero_le _
  rw [validateDmHistoryPage, if_pos]
  · rfl
  · refine ⟨hlength, hdescends, ?_, fun hnil => decide_eq_true (hempty hnil)⟩
    simp only [pageOf]
    by_cases hlt : k < (x.remaining before).length
    · simp [hlt]
    · simp [hlt, not_lt.mp hlt]

/-- The next page begins where the page ends. -/
theorem remaining_next {k : Nat} (hk : k < (x.remaining before).length) (hpos : 0 < k) :
    ∃ next, (x.pageOf before k).nextBefore = some next ∧
      x.remaining (some next) = (x.remaining before).drop k := by
  have hne : (x.remaining before).take k ≠ [] := by
    intro hnil
    rcases List.take_eq_nil_iff.mp hnil with h0 | h0
    · exact hpos.ne' h0
    · rw [h0] at hk
      exact absurd hk (Nat.not_lt_zero _)
  obtain ⟨m, hm⟩ : ∃ m, ((x.remaining before).take k).getLast? = some m :=
    ⟨_, List.getLast?_eq_some_getLast hne⟩
  refine ⟨m.ref, ?_, ?_⟩
  · rw [pageOf, if_pos hk, hm]
    rfl
  · exact Paging.after_getLast_after (keys_nodup served_nodup)
      (List.take_append_drop k (x.remaining before)).symm hm

end History

/-! ## The pages of one call -/

namespace History

/-- The messages of the first pages before a cursor. -/
def pagesSent (x : History) (fits : List Item → Bool) (limit : Nat) : Nat → Option Ref → List Item
  | 0, _ => []
  | n + 1, before =>
      match x.federationDmHistoryPage fits limit before with
      | none => []
      | some body =>
          match body.nextBefore with
          | none => body.messages
          | some next => body.messages ++ x.pagesSent fits limit n (some next)

/-- What the instance takes from them. -/
def received (x : History) (fits : List Item → Bool) (limit n : Nat) (before : Option Ref) :
    List Item :=
  (x.pagesSent fits limit n before).filterMap (accept x.domain)

/-- A message written here is stored. -/
def Retains (x : History) (m : Item) : Prop :=
  m.author = x.domain → ∃ n ∈ x.rows, n.ref = m.ref ∧ n.author = x.domain

variable {x : History} {fits : List Item → Bool} {limit : Nat} {before : Option Ref}

/-- The first page, and what the pages after it are. -/
structure Page (x : History) (fits : List Item → Bool) (limit : Nat) (before : Option Ref)
    (k : Nat) : Prop where
  sent : x.federationDmHistoryPage fits limit before = some (x.pageOf before k)
  le_limit : k ≤ limit
  le_length : k ≤ (x.remaining before).length
  pos : x.remaining before ≠ [] → 0 < k
  cut : k < limit → k < (x.remaining before).length →
    fits ((x.remaining before).take (k + 1)) = false

theorem exists_page (hlimit : 0 < limit) {body : AuthorityPage}
    (h : x.federationDmHistoryPage fits limit before = some body) :
    ∃ k, x.Page fits limit before k ∧ body = x.pageOf before k := by
  obtain ⟨k, hk, hlength, hpos, hcut, hbody⟩ := federationDmHistoryPage_cases h
  exact ⟨k, ⟨hbody ▸ h, hk, hlength, hpos hlimit, hcut⟩, hbody⟩

/-- The authority has no more, or goes on with what is left. -/
theorem Page.cases {k : Nat} (p : x.Page fits limit before k) :
    ((x.remaining before).length ≤ k ∧ (x.pageOf before k).nextBefore = none ∧
        (x.remaining before).take k = x.remaining before ∧
        ∀ n, x.pagesSent fits limit (n + 1) before = x.remaining before) ∨
      (k < (x.remaining before).length ∧ ∃ next, (x.pageOf before k).nextBefore = some next ∧
        x.remaining (some next) = (x.remaining before).drop k ∧
        ∀ n, x.pagesSent fits limit (n + 1) before =
          (x.remaining before).take k ++ x.pagesSent fits limit n (some next)) := by
  rcases le_or_gt (x.remaining before).length k with hle | hlt
  · have hnone : (x.pageOf before k).nextBefore = none := if_neg (not_lt.mpr hle)
    have htake : (x.remaining before).take k = x.remaining before := List.take_of_length_le hle
    refine .inl ⟨hle, hnone, htake, fun n => ?_⟩
    rw [pagesSent, p.sent]
    simp only [hnone]
    exact htake
  · have hpos : 0 < k := p.pos fun hnil => absurd hlt (by simp [hnil])
    obtain ⟨next, hnext, hrest⟩ := remaining_next hlt hpos
    refine .inr ⟨hlt, next, hnext, hrest, fun n => ?_⟩
    rw [pagesSent, p.sent]
    simp only [hnext]
    rfl

theorem Page.pagesSent_ne_nil {k : Nat} (p : x.Page fits limit before k)
    (h : x.remaining before ≠ []) (n : Nat) : x.pagesSent fits limit (n + 1) before ≠ [] := by
  rcases p.cases with ⟨-, -, -, hsent⟩ | ⟨-, next, -, -, hsent⟩
  · rwa [hsent n]
  · rw [hsent n]
    intro hnil
    rcases List.take_eq_nil_iff.mp (List.append_eq_nil_iff.mp hnil).1 with h0 | h0
    · exact (p.pos h).ne' h0
    · exact h h0

theorem pagesSent_initial (hlimit : 0 < limit) (n : Nat) (before : Option Ref) :
    x.pagesSent fits limit n before <+: x.remaining before := by
  induction n generalizing before with
  | zero => exact List.nil_prefix
  | succ n ih =>
      cases hpage : x.federationDmHistoryPage fits limit before with
      | none =>
          rw [pagesSent, hpage]
          exact List.nil_prefix
      | some body =>
          obtain ⟨k, p, -⟩ := exists_page hlimit hpage
          rcases p.cases with ⟨-, -, -, hsent⟩ | ⟨-, next, -, hrest, hsent⟩
          · rw [hsent n]
          · rw [hsent n]
            have := ih (some next)
            rw [hrest] at this
            have happend := (List.prefix_append_right_inj ((x.remaining before).take k)).mpr this
            rwa [List.take_append_drop] at happend

theorem pagesSent_mono (hlimit : 0 < limit) {m n : Nat} (hmn : m ≤ n) (before : Option Ref) :
    x.pagesSent fits limit m before <+: x.pagesSent fits limit n before := by
  induction m generalizing n before with
  | zero => exact List.nil_prefix
  | succ m ih =>
      obtain ⟨n, rfl⟩ : ∃ n', n = n' + 1 := ⟨n - 1, by omega⟩
      cases hpage : x.federationDmHistoryPage fits limit before with
      | none =>
          rw [pagesSent, hpage]
          exact List.nil_prefix
      | some body =>
          obtain ⟨k, p, -⟩ := exists_page hlimit hpage
          rcases p.cases with ⟨-, -, -, hsent⟩ | ⟨-, next, -, -, hsent⟩
          · rw [hsent m, hsent n]
          · rw [hsent m, hsent n]
            exact (List.prefix_append_right_inj _).mpr
              (ih (Nat.le_of_succ_le_succ hmn) (some next))

theorem received_mono (hlimit : 0 < limit) {m n : Nat} (hmn : m ≤ n) (before : Option Ref) :
    refsOf (x.received fits limit m before) ⊆ refsOf (x.received fits limit n before) := by
  intro r hr
  obtain ⟨i, hi, rfl⟩ := mem_refsOf.mp hr
  exact mem_refsOf.mpr
    ⟨i, ((pagesSent_mono hlimit hmn before).filterMap _).subset hi, rfl⟩

/-! ## The loop -/

/-- How the loop may end after `n` more pages. -/
structure Fetched (x : History) (fits : List Item → Bool) (limit : Nat) (payloads : List Item)
    (fuel : Nat) (remote : List Item) (before : Option Ref) (n : Nat) (complete : Bool) : Prop where
  page : ∃ k, x.Page fits limit before k
  pos : 1 ≤ n
  le : n ≤ fuel
  complete_iff : complete = true ↔ x.pagesSent fits limit n before = x.remaining before
  ended : complete = true ∨ n = fuel ∨
    limit ≤ (refsOf (payloads ++ (remote ++ x.received fits limit n before))).card
  first : ∀ m, 1 ≤ m → m < n →
    (refsOf (payloads ++ (remote ++ x.received fits limit m before))).card < limit
  retains : ∀ m ∈ x.pagesSent fits limit n before, x.Retains m

theorem retains_iff {l : List Item} :
    x.retains ((l.filter fun m => m.author = x.domain).map Item.ref) = true ↔
      ∀ m ∈ l, x.Retains m := by
  simp only [History.retains, List.all_eq_true, List.mem_map, List.mem_filter, decide_eq_true_eq,
    List.any_eq_true, Bool.and_eq_true]
  constructor
  · intro h m hm hauthor
    exact h m.ref ⟨m, ⟨hm, hauthor⟩, rfl⟩
  · rintro h r ⟨m, ⟨hm, hauthor⟩, rfl⟩
    exact h m hm hauthor

/-- One turn: the page is the last, or the messages are enough, or the loop
goes on. -/
theorem fetchHistory_succ_cases (hlimit : 0 < limit) {payloads remote : List Item} {fuel : Nat}
    {complete : Bool} {out : List Item × Bool}
    (h : x.fetchHistory fits limit payloads (fuel + 1) remote complete before = some out) :
    ∃ k, x.Page fits limit before k ∧ (∀ m ∈ (x.remaining before).take k, x.Retains m) ∧
      ((x.remaining before).length ≤ k ∧
          out = (remote ++ ((x.remaining before).take k).filterMap (accept x.domain), true) ∨
        k < (x.remaining before).length ∧
          limit ≤ (refsOf (payloads ++
            (remote ++ ((x.remaining before).take k).filterMap (accept x.domain)))).card ∧
          out = (remote ++ ((x.remaining before).take k).filterMap (accept x.domain), false) ∨
        k < (x.remaining before).length ∧
          (refsOf (payloads ++
            (remote ++ ((x.remaining before).take k).filterMap (accept x.domain)))).card < limit ∧
          x.fetchHistory fits limit payloads fuel
            (remote ++ ((x.remaining before).take k).filterMap (accept x.domain)) false
            (x.pageOf before k).nextBefore = some out) := by
  rw [fetchHistory] at h
  split at h
  · exact absurd h (by simp)
  rename_i body hbody
  obtain ⟨k, p, rfl⟩ := exists_page hlimit hbody
  rw [validate_pageOf p.le_limit p.pos] at h
  dsimp only at h
  split at h
  swap
  · exact absurd h (by simp)
  rename_i hretains
  refine ⟨k, p, retains_iff.mp hretains, ?_⟩
  rcases p.cases with ⟨hle, -, -, -⟩ | ⟨hlt, next, hnext, -, -⟩
  · have hdone : decide ((x.remaining before).length ≤ k) = true := decide_eq_true hle
    rw [if_pos (.inl hdone)] at h
    refine .inl ⟨hle, ?_⟩
    rw [← Option.some.inj h, hdone]
  · have hmore : decide ((x.remaining before).length ≤ k) = false :=
      decide_eq_false (not_le.mpr hlt)
    rw [if_neg (by simp [hlt, hnext]), hmore] at h
    split at h
    · rename_i hcard
      exact .inr (.inl ⟨hlt, hcard, (Option.some.inj h).symm⟩)
    · rename_i hcard
      exact .inr (.inr ⟨hlt, not_le.mp hcard, h⟩)

section

variable {k fuel n : Nat} {payloads remote : List Item} {next : Ref} {complete : Bool}

theorem received_succ (h : ∀ n, x.pagesSent fits limit (n + 1) before =
      (x.remaining before).take k ++ x.pagesSent fits limit n (some next)) (n : Nat) :
    x.received fits limit (n + 1) before =
      ((x.remaining before).take k).filterMap (accept x.domain) ++
        x.received fits limit n (some next) := by
  rw [received, h n, List.filterMap_append]
  rfl

/-- The page is the last one. -/
theorem Page.fetched_last (p : x.Page fits limit before k)
    (hle : (x.remaining before).length ≤ k)
    (hretains : ∀ m ∈ (x.remaining before).take k, x.Retains m) :
    ((x.remaining before).take k).filterMap (accept x.domain) = x.received fits limit 1 before ∧
      x.Fetched fits limit payloads (fuel + 1) remote before 1 true := by
  rcases p.cases with ⟨-, -, htake, hsent⟩ | ⟨hlt, -⟩
  · rw [htake] at hretains ⊢
    refine ⟨by rw [received, hsent 0], ?_⟩
    exact {
      page := ⟨k, p⟩
      pos := le_rfl
      le := Nat.succ_le_succ (Nat.zero_le _)
      complete_iff := iff_of_true rfl (hsent 0)
      ended := .inl rfl
      first := fun m h1 h2 => absurd h1 (not_le.mpr h2)
      retains := by rwa [hsent 0] }
  · exact absurd hlt (not_lt.mpr hle)

/-- The loop ends with the page though the authority has more. -/
theorem Page.fetched_stop (p : x.Page fits limit before k) (hlt : k < (x.remaining before).length)
    (hretains : ∀ m ∈ (x.remaining before).take k, x.Retains m)
    (hend : fuel = 0 ∨ limit ≤ (refsOf (payloads ++
      (remote ++ ((x.remaining before).take k).filterMap (accept x.domain)))).card) :
    ((x.remaining before).take k).filterMap (accept x.domain) = x.received fits limit 1 before ∧
      x.Fetched fits limit payloads (fuel + 1) remote before 1 false := by
  rcases p.cases with ⟨hle, -⟩ | ⟨-, next, -, -, hsent⟩
  · exact absurd hlt (not_lt.mpr hle)
  · have hone : x.pagesSent fits limit 1 before = (x.remaining before).take k := by
      rw [hsent 0, pagesSent, List.append_nil]
    have hne : (x.remaining before).take k ≠ x.remaining before := by
      intro heq
      have := congrArg List.length heq
      rw [List.length_take] at this
      omega
    have hreceived : ((x.remaining before).take k).filterMap (accept x.domain) =
        x.received fits limit 1 before := by
      rw [received, hone]
    refine ⟨hreceived, ?_⟩
    exact {
      page := ⟨k, p⟩
      pos := le_rfl
      le := Nat.succ_le_succ (Nat.zero_le _)
      complete_iff := iff_of_false Bool.false_ne_true (hone ▸ hne)
      ended := .inr (hend.imp (by rintro rfl; rfl) fun hcard => by rwa [hreceived] at hcard)
      first := fun m h1 h2 => absurd h1 (not_le.mpr h2)
      retains := by rwa [hone] }

/-- One more page in front. -/
theorem Fetched.cons (h : x.Fetched fits limit payloads fuel
      (remote ++ ((x.remaining before).take k).filterMap (accept x.domain)) (some next) n complete)
    (p : x.Page fits limit before k)
    (hrest : x.remaining (some next) = (x.remaining before).drop k)
    (hsent : ∀ n, x.pagesSent fits limit (n + 1) before =
      (x.remaining before).take k ++ x.pagesSent fits limit n (some next))
    (hretains : ∀ m ∈ (x.remaining before).take k, x.Retains m)
    (hcard : (refsOf (payloads ++
      (remote ++ ((x.remaining before).take k).filterMap (accept x.domain)))).card < limit) :
    x.Fetched fits limit payloads (fuel + 1) remote before (n + 1) complete := by
  have hreceived (m : Nat) : remote ++ x.received fits limit (m + 1) before =
      remote ++ ((x.remaining before).take k).filterMap (accept x.domain) ++
        x.received fits limit m (some next) := by
    rw [received_succ hsent, List.append_assoc]
  exact {
    page := ⟨k, p⟩
    pos := Nat.succ_le_succ (Nat.zero_le _)
    le := Nat.succ_le_succ h.le
    complete_iff := by
      have hsplit := List.take_append_drop k (x.remaining before)
      rw [h.complete_iff, hrest, hsent n]
      constructor
      · intro heq
        rw [heq, hsplit]
      · intro heq
        exact List.append_cancel_left (heq.trans hsplit.symm)
    ended := by
      rw [hreceived]
      exact h.ended.imp_right (Or.imp_left (congrArg Nat.succ))
    first := by
      intro m h1 hm
      obtain ⟨m, rfl⟩ : ∃ m', m = m' + 1 := ⟨m - 1, by omega⟩
      rw [hreceived]
      rcases Nat.eq_zero_or_pos m with rfl | hpos
      · rwa [received, pagesSent, List.filterMap_nil, List.append_nil]
      · exact h.first m hpos (Nat.lt_of_succ_lt_succ hm)
    retains := by
      rw [hsent n]
      exact List.forall_mem_append.mpr ⟨hretains, h.retains⟩ }

/-- What the loop gives. -/
theorem fetchHistory_cases (hlimit : 0 < limit) {out : List Item × Bool}
    (h : x.fetchHistory fits limit payloads (fuel + 1) remote complete before = some out) :
    ∃ n, out.1 = remote ++ x.received fits limit n before ∧
      x.Fetched fits limit payloads (fuel + 1) remote before n out.2 := by
  induction fuel generalizing remote complete before with
  | zero =>
      obtain ⟨k, p, hretains, ⟨hle, rfl⟩ | ⟨hlt, hcard, rfl⟩ | ⟨hlt, hcard, hrec⟩⟩ :=
        fetchHistory_succ_cases hlimit h
      · obtain ⟨heq, hfetched⟩ := p.fetched_last hle hretains
        exact ⟨1, congrArg _ heq, hfetched⟩
      · obtain ⟨heq, hfetched⟩ := p.fetched_stop hlt hretains (.inr hcard)
        exact ⟨1, congrArg _ heq, hfetched⟩
      · obtain rfl := Option.some.inj hrec
        obtain ⟨heq, hfetched⟩ := p.fetched_stop hlt hretains (.inl (rfl : (0 : Nat) = 0))
        exact ⟨1, congrArg _ heq, hfetched⟩
  | succ fuel ih =>
      obtain ⟨k, p, hretains, ⟨hle, rfl⟩ | ⟨hlt, hcard, rfl⟩ | ⟨hlt, hcard, hrec⟩⟩ :=
        fetchHistory_succ_cases hlimit h
      · obtain ⟨heq, hfetched⟩ := p.fetched_last hle hretains
        exact ⟨1, congrArg _ heq, hfetched⟩
      · obtain ⟨heq, hfetched⟩ := p.fetched_stop hlt hretains (.inr hcard)
        exact ⟨1, congrArg _ heq, hfetched⟩
      · rcases p.cases with ⟨hle, -⟩ | ⟨-, next, hnext, hrest, hsent⟩
        · exact absurd hlt (not_lt.mpr hle)
        rw [hnext] at hrec
        obtain ⟨n, hout, hfetched⟩ := ih hrec
        refine ⟨n + 1, ?_, hfetched.cons p hrest hsent hretains hcard⟩
        rw [hout, received_succ hsent, List.append_assoc]

/-- The pages of an authority whose messages fit are not refused, if it names
no message of this instance that is not stored. -/
theorem fetchHistory_isSome (hlimit : 0 < limit) (hone : ∀ i, fits [i] = true)
    (hretains : ∀ m ∈ x.served, x.Retains m) :
    (x.fetchHistory fits limit payloads fuel remote complete before).isSome := by
  induction fuel generalizing remote complete before with
  | zero => rfl
  | succ fuel ih =>
      obtain ⟨body, hbody⟩ := Option.isSome_iff_exists.mp
        (federationDmHistoryPage_isSome hone limit before)
      obtain ⟨k, p, rfl⟩ := exists_page hlimit hbody
      have hpage : x.retains ((((x.remaining before).take k).filter
          fun m => m.author = x.domain).map Item.ref) = true :=
        retains_iff.mpr fun m hm => hretains m (mem_after.mp (List.take_subset _ _ hm)).1
      rw [fetchHistory, hbody]
      simp only [validate_pageOf p.le_limit p.pos, if_pos hpage]
      split
      · rfl
      · split
        · rfl
        · exact ih

end

end History

end DmHistory

end Kaede
