import Kaede.DmHistory
import Mathlib.Logic.Relation

/-!
# Reading a direct conversation to its end

A client reads on before the oldest message of each page until a page is empty
or marked as the last. The messages it should get are those stored here and
those that the authority serves, every one once.

The loop of a call counts the stored messages of the page wherever they lie.
Sparse old ones, such as those written here, make up the number while the
authority, whose page was cut by its size, has not been read down to them; the
messages between are then passed over for good. A page is right exactly if it
begins what is left, and `Unbroken` says of one call when that is so. `Uncut`
says of the messages and their sizes what keeps every call right: the
authority's pages are cut by their number of messages alone, as far down as
something was dropped above a stored message.
-/

namespace Kaede

namespace DmHistory

open DmCache (Ref)

/-! ## One call -/

namespace History

/-- Every message of the conversation, wherever it is held. -/
def visible (x : History) : Finset Ref := refsOf x.rows ∪ refsOf x.served

/-- Of the messages that `n` pages leave with the authority, one that is not
stored has a stored message of the page below it, and the messages above it do
not fill the page. -/
def Skipped (x : History) (fits : List Item → Bool) (limit : Nat) (before : Option Ref) (n : Nat)
    (r : Ref) : Prop :=
  r ∈ refsOf (x.remaining before) ∧ r ∉ refsOf x.rows ∧
    r ∉ refsOf (x.received fits limit n before) ∧
    (∃ l ∈ refsOf (x.payloads limit before), l < r) ∧
    ((refsOf (x.payloads limit before ++ x.received fits limit n before)).filter (r < ·)).card <
      limit

/-- A call that asks the authority may stop after four pages, or with as many
different messages as a page has; wherever it may stop, no message is skipped.
A call that does not ask skips none, and is empty only if the authority has
none left. -/
def Unbroken (x : History) (fits : List Item → Bool) (limit : Nat) (before : Option Ref) : Prop :=
  if x.asksAuthority (x.payloads limit before) before then
    ∀ n, 1 ≤ n → n ≤ maxHistoryPages →
      n = maxHistoryPages ∨
        limit ≤ (refsOf (x.payloads limit before ++ x.received fits limit n before)).card →
      ∀ r, ¬x.Skipped fits limit before n r
  else
    (∀ r, ¬x.Skipped fits limit before 0 r) ∧
      (x.payloads limit before = [] → x.remaining before = [])

variable {x : History} {fits : List Item → Bool} {limit n : Nat} {before : Option Ref}

theorem accept_ref {here : String} {m i : Item} (h : accept here m = some i) : i.ref = m.ref := by
  unfold accept at h
  split at h
  · split at h
    · rw [← Option.some.inj h, safetyProjection_ref]
    · exact absurd h (by simp)
  · rw [← Option.some.inj h, safetyProjection_ref]

theorem exists_of_received {r : Ref} (h : r ∈ refsOf (x.received fits limit n before)) :
    ∃ m ∈ x.pagesSent fits limit n before, m.ref = r := by
  obtain ⟨i, hi, rfl⟩ := mem_refsOf.mp h
  obtain ⟨m, hm, haccept⟩ := List.mem_filterMap.mp hi
  exact ⟨m, hm, (accept_ref haccept).symm⟩

/-- A message that was sent is received, or it was written here and is stored. -/
theorem received_or_stored {m : Item} (hm : m ∈ x.pagesSent fits limit n before)
    (hretains : x.Retains m) :
    m.ref ∈ refsOf (x.received fits limit n before) ∨ m.ref ∈ refsOf x.rows := by
  cases haccept : accept x.domain m with
  | some i =>
      exact .inl (mem_refsOf.mpr ⟨i, List.mem_filterMap.mpr ⟨m, hm, haccept⟩, accept_ref haccept⟩)
  | none =>
      have hauthor : m.author = x.domain := by
        by_contra hne
        rw [accept, if_neg hne] at haccept
        exact absurd haccept (by simp)
      obtain ⟨s, hs, href, -⟩ := hretains hauthor
      exact .inr (mem_refsOf.mpr ⟨s, hs, href⟩)

theorem map_ref_payloads : (x.payloads limit before).map Item.ref =
    (Paging.descending (below (refsOf x.rows) before)).take limit := by
  rw [payloads, List.map_take, map_ref_after x.rows_nodup]

theorem mem_refsOf_payloads {r : Ref} : r ∈ refsOf (x.payloads limit before) ↔
    r ∈ (Paging.descending (below (refsOf x.rows) before)).take limit := by
  rw [refsOf, List.mem_toFinset, map_ref_payloads]

theorem payloads_subset : refsOf (x.payloads limit before) ⊆ below (refsOf x.rows) before := by
  intro r hr
  exact Paging.mem_descending.mp (List.take_subset _ _ (mem_refsOf_payloads.mp hr))

theorem received_subset (hlimit : 0 < limit) :
    refsOf (x.received fits limit n before) ⊆ refsOf (x.remaining before) := by
  intro r hr
  obtain ⟨m, hm, rfl⟩ := exists_of_received hr
  exact mem_refsOf.mpr ⟨m, (pagesSent_initial hlimit n before).subset hm, rfl⟩

theorem below_visible : below x.visible before =
    below (refsOf x.rows) before ∪ refsOf (x.remaining before) := by
  rw [refsOf_remaining, visible, below, Finset.filter_union]
  rfl

/-- A stored message that the page leaves out is older than a full page. -/
theorem stored_left_out {r : Ref} (hr : r ∈ below (refsOf x.rows) before)
    (hout : r ∉ refsOf (x.payloads limit before)) (n : Nat) :
    limit ≤ ((refsOf (x.payloads limit before ++ x.received fits limit n before)).filter
      (r < ·)).card := by
  obtain ⟨hlength, habove⟩ :=
    Paging.lt_of_notMem_take hr fun hmem => hout (mem_refsOf_payloads.mpr hmem)
  have hnodup : ((Paging.descending (below (refsOf x.rows) before)).take limit).Nodup :=
    (Paging.pairwise_descending.imp ne_of_gt).sublist (List.take_sublist _ _)
  calc limit = (refsOf (x.payloads limit before)).card := by
        rw [refsOf, map_ref_payloads, List.toFinset_card_of_nodup hnodup]
        exact hlength
    _ ≤ _ := by
        refine Finset.card_le_card fun y hy => Finset.mem_filter.mpr ⟨?_, ?_⟩
        · rw [refsOf_append]
          exact Finset.mem_union_left _ hy
        · exact habove y (mem_refsOf_payloads.mp hy)

theorem below_rows_of_payloads_nil (hlimit : 0 < limit) (hnil : x.payloads limit before = []) :
    below (refsOf x.rows) before = ∅ := by
  refine Finset.eq_empty_of_forall_notMem fun r hr => ?_
  have hout : r ∉ (Paging.descending (below (refsOf x.rows) before)).take limit := by
    rw [← map_ref_payloads, hnil]
    exact List.not_mem_nil
  have hlength := (Paging.lt_of_notMem_take hr hout).1
  rw [← map_ref_payloads, hnil] at hlength
  exact hlimit.ne' hlength

/-- What the pages leave is older than what they bring. -/
theorem lt_received (hlimit : 0 < limit) {r : Ref} (hr : r ∈ refsOf (x.remaining before))
    (hstored : r ∉ refsOf x.rows) (hreceived : r ∉ refsOf (x.received fits limit n before))
    (hretains : ∀ m ∈ x.pagesSent fits limit n before, x.Retains m) :
    ∀ y ∈ refsOf (x.received fits limit n before), r < y := by
  intro y hy
  obtain ⟨m, hm, rfl⟩ := mem_refsOf.mp hr
  obtain ⟨i, hi, rfl⟩ := exists_of_received hy
  have hsorted : (x.remaining before).Pairwise (Item.key · < Item.key ·) := remaining_pairwise
  have hinitial : x.pagesSent fits limit n before <+: x.remaining before :=
    pagesSent_initial hlimit n before
  obtain ⟨rest, hrest⟩ := hinitial
  rw [← hrest] at hm hsorted
  rcases List.mem_append.mp hm with hm | hm
  · rcases received_or_stored hm (hretains m hm) with h | h
    · exact absurd h hreceived
    · exact absurd h hstored
  · exact OrderDual.toDual_lt_toDual.mp ((List.pairwise_append.mp hsorted).2.2 i hi m hm)

/-- The page of the stored messages and of `n` pages begins what is left if
nothing is skipped. -/
theorem prefix_iff (hlimit : 0 < limit)
    (hretains : ∀ m ∈ x.pagesSent fits limit n before, x.Retains m) :
    (Paging.descending (refsOf (x.payloads limit before ++ x.received fits limit n before))).take
        limit <+: Paging.descending (below x.visible before) ↔
      ∀ r, ¬x.Skipped fits limit before n r := by
  have hsubset : refsOf (x.payloads limit before ++ x.received fits limit n before) ⊆
      below x.visible before := by
    rw [refsOf_append, below_visible]
    exact Finset.union_subset_union payloads_subset (received_subset hlimit)
  rw [Paging.take_descending_prefix_iff hsubset]
  constructor
  · rintro h r ⟨hleft, hstored, hreceived, ⟨l, hl, hlr⟩, hcard⟩
    have hpayloads : r ∉ refsOf (x.payloads limit before) := fun hmem =>
      hstored (mem_below.mp (payloads_subset hmem)).1
    have hr : r ∈ below x.visible before := by
      rw [below_visible]
      exact Finset.mem_union_right _ hleft
    have hout : r ∉ refsOf (x.payloads limit before ++ x.received fits limit n before) := by
      rw [refsOf_append, Finset.mem_union, not_or]
      exact ⟨hpayloads, hreceived⟩
    rcases h r hr hout with hfull | habove
    · exact absurd hcard (not_lt.mpr hfull)
    · refine hlr.asymm (habove l ?_)
      rw [refsOf_append]
      exact Finset.mem_union_left _ hl
  · intro h r hr hout
    rw [refsOf_append, Finset.mem_union, not_or] at hout
    by_cases hstored : r ∈ below (refsOf x.rows) before
    · exact .inl (stored_left_out hstored hout.1 n)
    · rw [below_visible] at hr
      have hleft := (Finset.mem_union.mp hr).resolve_left hstored
      have hrows : r ∉ refsOf x.rows := by
        intro hmem
        refine hstored (mem_below.mpr ⟨hmem, ?_⟩)
        rw [refsOf_remaining] at hleft
        exact (mem_below.mp hleft).2
      by_cases hcard : limit ≤ ((refsOf (x.payloads limit before ++
          x.received fits limit n before)).filter (r < ·)).card
      · exact .inl hcard
      refine .inr fun y hy => ?_
      rw [refsOf_append] at hy
      rcases Finset.mem_union.mp hy with hy | hy
      · by_contra hle
        refine h r ⟨hleft, hrows, hout.2, ⟨y, hy, ?_⟩, not_le.mp hcard⟩
        refine lt_of_le_of_ne (not_lt.mp hle) ?_
        rintro rfl
        exact hout.1 hy
      · exact lt_received hlimit hleft hrows hout.2 hretains y hy

end History

namespace History

section

variable {x : History} {fits : List Item → Bool} {limit n : Nat} {before : Option Ref}
  {page : ClientPage} {complete : Bool}

/-- A call without an error shows stored messages and `n` pages. -/
structure Answered (x : History) (fits : List Item → Bool) (limit : Nat) (before : Option Ref)
    (page : ClientPage) (n : Nat) : Prop where
  refs : page.items.map Item.ref = (Paging.descending
    (refsOf (x.payloads limit before ++ x.received fits limit n before))).take limit
  retains : ∀ m ∈ x.pagesSent fits limit n before, x.Retains m
  source : (x.asksAuthority (x.payloads limit before) before = true ∧ ∃ complete,
        x.Fetched fits limit (x.payloads limit before) maxHistoryPages [] before n complete ∧
        page.complete = (x.mergedPage (x.payloads limit before) (x.received fits limit n before)
          complete limit).complete ∧
        page.items = mergeDmHistoryMessages (x.received fits limit n before)
          (x.payloads limit before) limit) ∨
      (x.asksAuthority (x.payloads limit before) before = false ∧ n = 0 ∧
        page.items = x.payloads limit before ∧ page.complete = false)

theorem listMessages_cases (hlimit : 0 < limit)
    (h : x.listMessages fits limit before = some page) (hok : page.errorCode = none) :
    ∃ n, x.Answered fits limit before page n := by
  rw [listMessages] at h
  split at h
  · rename_i hasks
    split at h
    · rename_i remote complete hfetch
      obtain ⟨n, hout, hfetched⟩ := fetchHistory_cases hlimit hfetch
      rw [List.nil_append] at hout
      obtain rfl := Option.some.inj h
      obtain rfl := hout
      refine ⟨n, ?_, hfetched.retains, .inl ⟨hasks, complete, hfetched, rfl, rfl⟩⟩
      rw [mergedPage, map_ref_merge, refsOf_append, Finset.union_comm, ← refsOf_append]
    · split at h
      · exact absurd h (by simp)
      · rw [← Option.some.inj h] at hok
        exact absurd hok (by simp)
  · rename_i hasks
    obtain rfl := Option.some.inj h
    refine ⟨0, ?_, by simp [pagesSent], .inr ⟨by simpa using hasks, rfl, rfl, rfl⟩⟩
    have hnil : x.received fits limit 0 before = [] := rfl
    have hsorted : ((x.payloads limit before).map Item.ref).Pairwise (· > ·) := by
      rw [map_ref_payloads]
      exact Paging.pairwise_descending.sublist (List.take_sublist _ _)
    rw [hnil, List.append_nil, refsOf, Paging.descending_toFinset hsorted, List.take_of_length_le]
    rw [List.length_map, payloads, List.length_take]
    exact Nat.min_le_left _ _

/-- A page with an error is not marked as the last. -/
theorem errorCode_of_complete (h : x.listMessages fits limit before = some page)
    (hcomplete : page.complete = true) : page.errorCode = none := by
  rw [listMessages] at h
  split at h
  · split at h
    · rw [← Option.some.inj h]
      rfl
    · split at h
      · exact absurd h (by simp)
      · rw [← Option.some.inj h] at hcomplete
        exact absurd hcomplete (by simp)
  · rw [← Option.some.inj h]

theorem listMessages_isSome (hlimit : 0 < limit) (hone : ∀ i, fits [i] = true)
    (hretains : ∀ m ∈ x.served, x.Retains m) (before : Option Ref) :
    ∃ page, x.listMessages fits limit before = some page ∧ page.errorCode = none := by
  rw [listMessages]
  split
  · obtain ⟨⟨remote, complete⟩, hfetch⟩ := Option.isSome_iff_exists.mp
      (fetchHistory_isSome hlimit hone hretains : (x.fetchHistory fits limit
        (x.payloads limit before) maxHistoryPages [] false before).isSome)
    rw [hfetch]
    exact ⟨_, rfl, rfl⟩
  · exact ⟨_, rfl, rfl⟩

namespace Answered

variable (a : x.Answered fits limit before page n)
include a

theorem prefix_iff (hlimit : 0 < limit) :
    page.items.map Item.ref <+: Paging.descending (below x.visible before) ↔
      ∀ r, ¬x.Skipped fits limit before n r := by
  rw [a.refs]
  exact History.prefix_iff hlimit a.retains

theorem mem {m : Item} (hm : m ∈ page.items) :
    m.ref ∈ refsOf (x.payloads limit before ++ x.received fits limit n before) := by
  have hmem : m.ref ∈ page.items.map Item.ref := List.mem_map_of_mem hm
  rw [a.refs] at hmem
  exact Paging.mem_descending.mp (List.take_subset _ _ hmem)

theorem mem_left (hlimit : 0 < limit) {m : Item} (hm : m ∈ page.items) :
    m.ref ∈ below x.visible before := by
  have hmem := a.mem hm
  rw [refsOf_append] at hmem
  rw [below_visible]
  exact Finset.union_subset_union payloads_subset (received_subset hlimit) hmem

/-- A page that came back empty is the end, if the authority was asked or has
none left. -/
theorem empty (hlimit : 0 < limit) (hnil : page.items = [])
    (hasked : (∃ complete, x.Fetched fits limit (x.payloads limit before) maxHistoryPages [] before
      n complete) ∨ x.remaining before = []) : below x.visible before = ∅ := by
  have hrefs := a.refs
  rw [hnil, List.map_nil] at hrefs
  have hnone : refsOf (x.payloads limit before ++ x.received fits limit n before) = ∅ := by
    rcases List.take_eq_nil_iff.mp hrefs.symm with h0 | h0
    · exact absurd h0 hlimit.ne'
    · refine Finset.eq_empty_of_forall_notMem fun r hr => ?_
      rw [← Paging.mem_descending, h0] at hr
      exact absurd hr (by simp)
  rw [refsOf_append, Finset.union_eq_empty] at hnone
  have hpayloads : x.payloads limit before = [] := by
    refine List.eq_nil_iff_forall_not_mem.mpr fun m hm => ?_
    have hmem := mem_refsOf.mpr ⟨m, hm, rfl⟩
    rw [hnone.1] at hmem
    exact absurd hmem (by simp)
  have hstored := below_rows_of_payloads_nil hlimit hpayloads
  have hremaining : x.remaining before = [] := by
    refine hasked.elim ?_ id
    rintro ⟨complete, hfetched⟩
    by_contra hne
    obtain ⟨k, p⟩ := hfetched.page
    obtain ⟨n, rfl⟩ : ∃ n', n = n' + 1 := ⟨n - 1, by have := hfetched.pos; omega⟩
    obtain ⟨m, hm⟩ := List.exists_mem_of_ne_nil _ (p.pagesSent_ne_nil hne n)
    rcases received_or_stored hm (a.retains m hm) with h | h
    · rw [hnone.2] at h
      exact absurd h (by simp)
    · have hleft := (pagesSent_initial hlimit (n + 1) before).subset hm
      have hbelow : m.ref ∈ below (refsOf x.rows) before :=
        mem_below.mpr ⟨h, (mem_after.mp hleft).2⟩
      rw [hstored] at hbelow
      exact absurd hbelow (by simp)
  rw [below_visible, hstored, hremaining]
  rfl

/-- The call meets the condition if its page begins what is left and is not
empty before the end. -/
theorem unbroken_iff (hlimit : 0 < limit) :
    x.Unbroken fits limit before ↔
      page.items.map Item.ref <+: Paging.descending (below x.visible before) ∧
        (page.items = [] → below x.visible before = ∅) := by
  rw [a.prefix_iff hlimit, Unbroken]
  rcases a.source with ⟨hasks, complete, hfetched, -, -⟩ | ⟨hasks, rfl, hitems, -⟩
  · rw [if_pos hasks]
    constructor
    · intro h
      refine ⟨fun r hskipped => ?_, fun hnil => a.empty hlimit hnil (.inl ⟨complete, hfetched⟩)⟩
      rcases hfetched.ended with hcomplete | hended
      · obtain ⟨m, hm, rfl⟩ := mem_refsOf.mp hskipped.1
        rw [← hfetched.complete_iff.mp hcomplete] at hm
        rcases received_or_stored hm (a.retains m hm) with hmem | hmem
        · exact hskipped.2.2.1 hmem
        · exact hskipped.2.1 hmem
      · exact h n hfetched.pos hfetched.le hended r hskipped
    · rintro ⟨h, -⟩ m hpos hle hended r ⟨hleft, hstored, hreceived, hbelow, hcard⟩
      have hnm : n ≤ m := by
        by_contra hlt
        have hlt' := hfetched.first m hpos (not_le.mp hlt)
        rcases hended with rfl | hended
        · exact hlt hfetched.le
        · exact absurd hlt' (not_lt.mpr hended)
      have hmono : refsOf (x.received fits limit n before) ⊆
          refsOf (x.received fits limit m before) := received_mono hlimit hnm before
      refine h r ⟨hleft, hstored, fun hmem => hreceived (hmono hmem), hbelow, ?_⟩
      refine lt_of_le_of_lt (Finset.card_le_card (Finset.filter_subset_filter _ ?_)) hcard
      rw [refsOf_append, refsOf_append]
      exact Finset.union_subset_union_right hmono
  · rw [if_neg (by simp [hasks])]
    refine and_congr_right fun _ => ?_
    rw [hitems]
    constructor
    · intro h hnil
      exact a.empty hlimit (hitems.trans hnil) (.inr (h hnil))
    · intro h hnil
      have hempty := h hnil
      rw [below_visible, Finset.union_eq_empty] at hempty
      refine List.eq_nil_iff_forall_not_mem.mpr fun m hm => ?_
      have hmem := mem_refsOf.mpr ⟨m, hm, rfl⟩
      rw [hempty.2] at hmem
      exact absurd hmem (by simp)

/-- Nothing is older than a page marked as the last. -/
theorem complete_spec (hlimit : 0 < limit) (hcomplete : page.complete = true) {o : Item}
    (ho : page.items.getLast? = some o) {r : Ref} (hr : r ∈ x.visible) : ¬r < o.ref := by
  intro hlt
  rcases a.source with ⟨-, complete, hfetched, hflag, hitems⟩ | ⟨-, -, -, hflag⟩
  swap
  · exact absurd (hflag.symm.trans hcomplete) (by simp)
  rw [hflag, mergedPage, dmHistoryPageIsComplete, ← hitems, ho] at hcomplete
  simp only [Bool.and_eq_true, Bool.not_eq_true', localHasMore, ho] at hcomplete
  obtain ⟨⟨hremote, hlocal⟩, hreceived⟩ := hcomplete
  have hrows : r ∉ refsOf x.rows := by
    intro hmem
    obtain ⟨m, hm, rfl⟩ := mem_refsOf.mp hmem
    exact List.any_eq_false.mp hlocal m hm (decide_eq_true hlt)
  obtain ⟨m, hm, rfl⟩ := mem_refsOf.mp ((Finset.mem_union.mp hr).resolve_left hrows)
  have holdest := mem_below.mp (a.mem_left hlimit (List.mem_of_getLast? ho))
  have hleft : m ∈ x.remaining before :=
    mem_after.mpr ⟨hm, fun b hb => hlt.trans (holdest.2 b hb)⟩
  rw [← hfetched.complete_iff.mp hremote] at hleft
  rcases received_or_stored hleft (a.retains m hleft) with hmem | hmem
  · obtain ⟨i, hi, href⟩ := mem_refsOf.mp hmem
    exact List.any_eq_false.mp hreceived i hi (decide_eq_true (href ▸ hlt))
  · exact hrows hmem

end Answered

end

end History

/-! ## Reading on -/

namespace History

/-- The cursor of the next call. -/
def Next (x : History) (fits : Option Ref → List Item → Bool) (limit : Nat)
    (before next : Option Ref) : Prop :=
  ∃ page, x.listMessages (fits before) limit before = some page ∧ next.isSome ∧ page.next = next

/-- From a cursor on, the client gets every message once, the newest first. -/
def ReadsFrom (x : History) (fits : Option Ref → List Item → Bool) (limit fuel : Nat)
    (before : Option Ref) : Prop :=
  ∃ pages, x.readAll fits limit fuel before = some pages ∧
    (pages.flatMap ClientPage.items).map Item.ref = Paging.descending (below x.visible before)

/-- The client gets every message once, the newest first. -/
def ReadsWhole (x : History) (fits : Option Ref → List Item → Bool) (limit : Nat) : Prop :=
  ∃ pages, x.readAll fits limit (x.visible.card + 1) none = some pages ∧
    (pages.flatMap ClientPage.items).map Item.ref = Paging.descending x.visible

section

variable {x : History} {fits : Option Ref → List Item → Bool} {limit fuel n : Nat}
  {before : Option Ref} {page : ClientPage}

theorem readAll_answered (hlimit : 0 < limit) {pages : List ClientPage}
    (h : x.readAll fits limit fuel before = some pages) (hpage : page ∈ pages) :
    ∃ c n, x.Answered (fits c) limit c page n := by
  induction fuel generalizing before pages with
  | zero => exact absurd h (by simp [readAll])
  | succ fuel ih =>
      rw [readAll] at h
      split at h
      · exact absurd h (by simp)
      rename_i first hfirst
      split at h
      · exact absurd h (by simp)
      rename_i hok
      have hnone : first.errorCode = none := by simpa using hok
      split at h
      · obtain rfl := Option.some.inj h
        obtain rfl := List.mem_singleton.mp hpage
        exact ⟨before, listMessages_cases hlimit hfirst hnone⟩
      · obtain ⟨rest, hrest, rfl⟩ := Option.map_eq_some_iff.mp h
        rcases List.mem_cons.mp hpage with rfl | hpage
        · exact ⟨before, listMessages_cases hlimit hfirst hnone⟩
        · exact ih hrest hpage

theorem served_eq_of_ref {m i : Item} (hm : m ∈ x.served) (hi : i ∈ x.served)
    (h : m.ref = i.ref) : m = i :=
  List.inj_on_of_nodup_map served_nodup hm hi h

theorem author_eq_of_ref {m i : Item} (hm : m ∈ x.rows) (hi : i ∈ x.served)
    (h : m.ref = i.ref) : m.author = i.author := by
  obtain ⟨row, hrow, rfl⟩ := List.mem_map.mp hi
  exact x.author_eq m hm row (List.mem_of_mem_filter hrow) h

theorem shown_of_readsWhole (hlimit : 0 < limit) (h : x.ReadsWhole fits limit) {r : Ref}
    (hr : r ∈ x.visible) : ∃ page c n,
      r ∈ refsOf (x.payloads limit c ++ x.received (fits c) limit n c) ∧
        x.Answered (fits c) limit c page n := by
  obtain ⟨pages, hread, hrefs⟩ := h
  have hmem : r ∈ Paging.descending x.visible := Paging.mem_descending.mpr hr
  rw [← hrefs] at hmem
  obtain ⟨i, hi, rfl⟩ := List.mem_map.mp hmem
  obtain ⟨page, hpage, hi⟩ := List.mem_flatMap.mp hi
  obtain ⟨c, n, a⟩ := readAll_answered hlimit hread hpage
  exact ⟨page, c, n, a.mem hi, a⟩

/-- A message written here that is not stored is never shown. -/
theorem retains_of_readsWhole (hlimit : 0 < limit) (h : x.ReadsWhole fits limit) :
    ∀ m ∈ x.served, x.Retains m := by
  intro m hm
  obtain ⟨page, c, n, hshown, a⟩ :=
    shown_of_readsWhole hlimit h (Finset.mem_union_right _ (mem_refsOf.mpr ⟨m, hm, rfl⟩))
  rw [refsOf_append] at hshown
  rcases Finset.mem_union.mp hshown with hstored | hreceived
  · obtain ⟨s, hs, hsref⟩ := mem_refsOf.mp (mem_below.mp (payloads_subset hstored)).1
    exact fun hauthor => ⟨s, hs, hsref, (author_eq_of_ref hs hm hsref).trans hauthor⟩
  · obtain ⟨j, hj, hjref⟩ := exists_of_received hreceived
    have hserved : j ∈ x.served :=
      (mem_after.mp ((pagesSent_initial hlimit n c).subset hj)).1
    exact served_eq_of_ref hserved hm hjref ▸ a.retains j hj

theorem below_next {o : Ref} (ho : o ∈ below x.visible before) :
    below x.visible (some o) = (below x.visible before).filter (· < o) := by
  ext r
  rw [mem_below, Finset.mem_filter, mem_below, and_assoc]
  refine and_congr_right fun _ => ?_
  constructor
  · intro h
    exact ⟨fun b hb => (h o rfl).trans ((mem_below.mp ho).2 b hb), h o rfl⟩
  · rintro ⟨-, h⟩ b hb
    obtain rfl : o = b := Option.some.inj hb
    exact h

theorem card_below_next {o : Ref} (ho : o ∈ below x.visible before) :
    (below x.visible (some o)).card < (below x.visible before).card := by
  rw [below_next ho]
  refine Finset.card_lt_card ⟨Finset.filter_subset _ _, fun h => ?_⟩
  exact lt_irrefl o (Finset.mem_filter.mp (h ho)).2

/-- A page without a successor is all that was left, if it begins that. -/
theorem Answered.eq_of_next_none (a : x.Answered (fits before) limit before page n)
    (hlimit : 0 < limit) (hnext : page.next = none)
    (hunbroken : x.Unbroken (fits before) limit before) :
    page.items.map Item.ref = Paging.descending (below x.visible before) := by
  obtain ⟨⟨rest, hrest⟩, hempty⟩ := (a.unbroken_iff hlimit).mp hunbroken
  cases hlast : page.items.getLast? with
  | none =>
      have hnil := List.getLast?_eq_none_iff.mp hlast
      rw [hempty hnil, hnil]
      exact (Paging.descending_toFinset (κ := Ref) .nil).symm
  | some o =>
      have hcomplete : page.complete = true := by
        by_contra hne
        rw [ClientPage.next, if_neg hne, hlast] at hnext
        exact absurd hnext (by simp)
      have hnone : rest = [] := by
        refine List.eq_nil_iff_forall_not_mem.mpr fun r hr => ?_
        have hsorted := (Paging.pairwise_descending : (Paging.descending
          (below x.visible before)).Pairwise (· > ·))
        have hmem : r ∈ Paging.descending (below x.visible before) :=
          hrest ▸ List.mem_append_right _ hr
        rw [← hrest] at hsorted
        refine a.complete_spec hlimit hcomplete hlast
          (mem_below.mp (Paging.mem_descending.mp hmem)).1 ?_
        exact (List.pairwise_append.mp hsorted).2.2 o.ref
          (List.mem_map_of_mem (List.mem_of_getLast? hlast)) r hr
      rw [← hrest, hnone, List.append_nil]

/-- What follows a page that begins what was left. -/
theorem Answered.rest_eq (a : x.Answered (fits before) limit before page n)
    (hlimit : 0 < limit) {o : Item} (ho : page.items.getLast? = some o) {rest : List Ref}
    (hrest : page.items.map Item.ref ++ rest = Paging.descending (below x.visible before)) :
    rest = Paging.descending (below x.visible (some o.ref)) := by
  rw [below_next (a.mem_left hlimit (List.mem_of_getLast? ho))]
  refine (Paging.descending_below hrest.symm ?_).symm
  rw [List.getLast?_map, ho]
  rfl

/-- The last call of a reader. -/
theorem readsFrom_last (hlimit : 0 < limit) (a : x.Answered (fits before) limit before page n)
    (hpage : x.listMessages (fits before) limit before = some page)
    (hok : page.errorCode = none) (hnext : page.next = none) :
    x.ReadsFrom fits limit (fuel + 1) before ↔ x.Unbroken (fits before) limit before := by
  rw [ReadsFrom, readAll_succ hpage hok, hnext]
  constructor
  · rintro ⟨pages, hpages, hrefs⟩
    obtain rfl := Option.some.inj hpages
    rw [List.flatMap_singleton] at hrefs
    refine (a.unbroken_iff hlimit).mpr ⟨hrefs ▸ List.prefix_rfl, fun hnil => ?_⟩
    rw [hnil, List.map_nil] at hrefs
    refine Finset.eq_empty_of_forall_notMem fun r hr => ?_
    rw [← Paging.mem_descending, ← hrefs] at hr
    exact absurd hr (by simp)
  · intro h
    refine ⟨_, rfl, ?_⟩
    rw [List.flatMap_singleton]
    exact a.eq_of_next_none hlimit hnext h

/-- A call that another one follows. -/
theorem readsFrom_more (hlimit : 0 < limit) (a : x.Answered (fits before) limit before page n)
    (hpage : x.listMessages (fits before) limit before = some page)
    (hok : page.errorCode = none) {o : Item} (hnext : page.next = some o.ref)
    (ho : page.items.getLast? = some o) :
    x.ReadsFrom fits limit (fuel + 1) before ↔
      x.Unbroken (fits before) limit before ∧ x.ReadsFrom fits limit fuel (some o.ref) := by
  rw [ReadsFrom, readAll_succ hpage hok, hnext]
  dsimp only
  constructor
  · rintro ⟨pages, hpages, hrefs⟩
    obtain ⟨rest, hread, rfl⟩ := Option.map_eq_some_iff.mp hpages
    rw [List.flatMap_cons, List.map_append] at hrefs
    refine ⟨(a.unbroken_iff hlimit).mpr ⟨⟨_, hrefs⟩, fun hnil => ?_⟩, rest, hread,
      a.rest_eq hlimit ho hrefs⟩
    rw [hnil] at ho
    exact absurd ho (by simp)
  · rintro ⟨h, rest, hread, hrefs⟩
    obtain ⟨⟨suffix, hsuffix⟩, -⟩ := (a.unbroken_iff hlimit).mp h
    refine ⟨page :: rest, by rw [hread]; rfl, ?_⟩
    rw [List.flatMap_cons, List.map_append, hrefs, ← a.rest_eq hlimit ho hsuffix, hsuffix]

theorem next_iff (hpage : x.listMessages (fits before) limit before = some page) {c : Option Ref} :
    x.Next fits limit before c ↔ c.isSome ∧ page.next = c := by
  constructor
  · rintro ⟨page', hpage', hc, hnext⟩
    obtain rfl := Option.some.inj (hpage.symm.trans hpage')
    exact ⟨hc, hnext⟩
  · rintro ⟨hc, hnext⟩
    exact ⟨page, hpage, hc, hnext⟩

/-- From every cursor, what is left is read whole if every call from there on
meets the condition. -/
theorem readsFrom_iff (hlimit : 0 < limit) (hone : ∀ c i, fits c [i] = true)
    (hretains : ∀ m ∈ x.served, x.Retains m) (hfuel : (below x.visible before).card < fuel) :
    x.ReadsFrom fits limit fuel before ↔
      ∀ c, Relation.ReflTransGen (x.Next fits limit) before c → x.Unbroken (fits c) limit c := by
  induction fuel generalizing before with
  | zero => exact absurd hfuel (Nat.not_lt_zero _)
  | succ fuel ih =>
      obtain ⟨page, hpage, hok⟩ := listMessages_isSome hlimit (hone before) hretains before
      obtain ⟨n, a⟩ := listMessages_cases hlimit hpage hok
      cases hnext : page.next with
      | none =>
          rw [readsFrom_last hlimit a hpage hok hnext]
          refine ⟨fun h c hc => ?_, fun h => h before .refl⟩
          rcases hc.cases_head with rfl | ⟨d, hd, -⟩
          · exact h
          · obtain ⟨hsome, hdnext⟩ := (next_iff hpage).mp hd
            rw [← hdnext, hnext] at hsome
            exact absurd hsome (by simp)
      | some oldest =>
          obtain ⟨o, ho, rfl⟩ : ∃ o, page.items.getLast? = some o ∧ o.ref = oldest := by
            rw [ClientPage.next] at hnext
            split at hnext
            · exact absurd hnext (by simp)
            · exact Option.map_eq_some_iff.mp hnext
          have hcard := (card_below_next (a.mem_left hlimit (List.mem_of_getLast? ho))).trans_le
            (Nat.le_of_lt_succ hfuel)
          rw [readsFrom_more hlimit a hpage hok hnext ho, ih hcard]
          constructor
          · rintro ⟨h, hrest⟩ c hc
            rcases hc.cases_head with rfl | ⟨d, hd, hdc⟩
            · exact h
            · obtain ⟨-, hdnext⟩ := (next_iff hpage).mp hd
              rw [hnext] at hdnext
              exact hrest c (hdnext ▸ hdc)
          · intro h
            refine ⟨h before .refl, fun c hc => h c (.head ?_ hc)⟩
            exact (next_iff hpage).mpr ⟨rfl, hnext⟩

theorem below_none {s : Finset Ref} : below s none = s := by
  refine Finset.filter_true_of_mem fun r _ b hb => ?_
  exact absurd hb (by simp)

theorem readsWhole_iff (hlimit : 0 < limit) (hone : ∀ c i, fits c [i] = true) :
    x.ReadsWhole fits limit ↔ (∀ m ∈ x.served, x.Retains m) ∧
      ∀ c, Relation.ReflTransGen (x.Next fits limit) none c → x.Unbroken (fits c) limit c := by
  have hiff (hretains : ∀ m ∈ x.served, x.Retains m) : x.ReadsWhole fits limit ↔
      ∀ c, Relation.ReflTransGen (x.Next fits limit) none c →
        x.Unbroken (fits c) limit c := by
    have hfrom : x.ReadsFrom fits limit ((below x.visible none).card + 1) none ↔
        ∀ c, Relation.ReflTransGen (x.Next fits limit) none c → x.Unbroken (fits c) limit c :=
      readsFrom_iff hlimit hone hretains (Nat.lt_succ_self _)
    rwa [ReadsFrom, below_none] at hfrom
  constructor
  · intro h
    have hretains := retains_of_readsWhole hlimit h
    exact ⟨hretains, (hiff hretains).mp h⟩
  · rintro ⟨hretains, h⟩
    exact (hiff hretains).mpr h

end

end History

/-! ## Pages that are not cut short -/

namespace History

/-- The authority serves it and it is not stored. -/
def dropped (x : History) : Finset Ref := refsOf x.served \ refsOf x.rows

/-- The authority is another instance that serves what was dropped. -/
def CanAsk (x : History) : Prop :=
  x.conversation.authority ≠ x.domain ∧ x.conversation.truncated ∧ x.available

instance (x : History) : Decidable x.CanAsk := inferInstanceAs (Decidable (_ ∧ _))

/-- What was dropped can be asked for, and lies before a stored message, where
the cache starts. -/
def Cached (x : History) : Prop :=
  ∀ r ∈ x.dropped,
    x.CanAsk ∧ ∃ start ∈ x.conversation.cacheStart, start ∈ refsOf x.rows ∧ r < start

/-- Among the newest `limit` stored messages before a cursor is one that is
older. -/
def Exposed (x : History) (limit : Nat) (before : Option Ref) (r : Ref) : Prop :=
  ∃ l ∈ below (refsOf x.rows) before, l < r ∧
    ((below (refsOf x.rows) before).filter (l < ·)).card < limit

/-- Before any cursor the messages of the authority fit, as many as a page
has, down to those that were dropped above a stored message. -/
def Uncut (x : History) (fits : Option Ref → List Item → Bool) (limit : Nat) : Prop :=
  ∀ before, ∀ r ∈ x.dropped, x.Exposed limit before r →
    ∀ page, page <+: x.remaining before → page.length ≤ limit → (∀ m ∈ page, r ≤ m.ref) →
      fits before page = true

variable {x : History} {fits : List Item → Bool} {limit n : Nat} {before : Option Ref}

theorem mem_dropped {r : Ref} : r ∈ x.dropped ↔ r ∈ refsOf x.served ∧ r ∉ refsOf x.rows :=
  Finset.mem_sdiff

theorem canAsk_of_asks {payloads : List Item} (h : x.asksAuthority payloads before = true) :
    x.CanAsk ∧ x.conversation.cacheStart.isSome := by
  unfold asksAuthority at h
  simp only [Bool.and_eq_true, decide_eq_true_eq] at h
  obtain ⟨⟨⟨hauthority, htruncated⟩, havailable⟩, hstart⟩ := h
  refine ⟨⟨hauthority, htruncated, havailable⟩, ?_⟩
  cases hcache : x.conversation.cacheStart with
  | none => simp [hcache] at hstart
  | some => rfl

/-- A message that was dropped is not shown without the authority. -/
theorem canAsk_of_readsWhole {fits : Option Ref → List Item → Bool} (hlimit : 0 < limit)
    (h : x.ReadsWhole fits limit) :
    ∀ r ∈ x.dropped, x.CanAsk ∧ x.conversation.cacheStart.isSome := by
  intro r hr
  obtain ⟨hserved, hstored⟩ := mem_dropped.mp hr
  obtain ⟨page, c, n, hread, a⟩ := shown_of_readsWhole hlimit h (Finset.mem_union_right _ hserved)
  rw [refsOf_append] at hread
  rcases a.source with ⟨hasks, -⟩ | ⟨-, rfl, -⟩
  · exact canAsk_of_asks hasks
  · rcases Finset.mem_union.mp hread with hmem | hmem
    · exact absurd (mem_below.mp (payloads_subset hmem)).1 hstored
    · exact absurd hmem (by simp [received, pagesSent, refsOf])

theorem Page.take_initial {k : Nat} (p : x.Page fits limit before k) (n : Nat) :
    (x.remaining before).take k <+: x.pagesSent fits limit (n + 1) before := by
  rcases p.cases with ⟨-, -, htake, hsent⟩ | ⟨-, next, -, -, hsent⟩
  · rw [hsent n, htake]
  · rw [hsent n]
    exact List.prefix_append _ _

/-- Down to what was dropped above a stored message, a page of the authority
ends only where it is full. -/
theorem Page.full {k : Nat} (p : x.Page fits limit before k) {m : Item}
    (hm : m ∈ (x.remaining before).drop k)
    (hfits : ∀ page, page <+: x.remaining before → page.length ≤ limit →
      (∀ i ∈ page, m.ref ≤ i.ref) → fits page = true) : k = limit := by
  by_contra hne
  have hk : k < limit := lt_of_le_of_ne p.le_limit hne
  have hmore : k < (x.remaining before).length := by
    have hpos := List.length_pos_of_mem hm
    rw [List.length_drop] at hpos
    omega
  have hsorted : ((x.remaining before).take (k + 1) ++
      (x.remaining before).drop (k + 1)).Pairwise (Item.key · < Item.key ·) := by
    rw [List.take_append_drop]
    exact remaining_pairwise
  obtain ⟨htake, -, hacross⟩ := List.pairwise_append.mp hsorted
  -- the message that did not fit is not older than the one that was left out
  have hdown : ∀ i ∈ (x.remaining before).take (k + 1), m.ref ≤ i.ref := by
    intro i hi
    rw [List.drop_eq_getElem_cons hmore] at hm
    rcases List.mem_cons.mp hm with rfl | hm
    · rw [List.take_succ_eq_append_getElem hmore] at hi htake
      rcases List.mem_append.mp hi with hi | hi
      · exact (OrderDual.toDual_lt_toDual.mp
          ((List.pairwise_append.mp htake).2.2 i hi _ (List.mem_singleton_self _))).le
      · exact (congrArg Item.ref (List.mem_singleton.mp hi)).ge
    · exact (OrderDual.toDual_lt_toDual.mp (hacross i hi m hm)).le
  have hcut := p.cut hk hmore
  rw [hfits _ (List.take_prefix _ _) ((List.length_take_le _ _).trans hk) hdown] at hcut
  cases hcut

/-- The messages of a full page that was sent are with the client or newer
than all of its stored ones. -/
theorem limit_le_of_full {r l : Ref} (hlr : l < r)
    (hl : l ∈ refsOf (x.payloads limit before))
    (habove : ∀ m ∈ (x.remaining before).take limit, r < m.ref)
    (hlength : limit ≤ (x.remaining before).length)
    (hsent : (x.remaining before).take limit ⊆ x.pagesSent fits limit n before)
    (hretains : ∀ m ∈ x.served, x.Retains m) :
    limit ≤ ((refsOf (x.payloads limit before ++ x.received fits limit n before)).filter
      (r < ·)).card := by
  have hnodup : (((x.remaining before).take limit).map Item.ref).Nodup := by
    rw [List.map_take, map_ref_remaining]
    exact (Paging.pairwise_descending.imp ne_of_gt).sublist (List.take_sublist _ _)
  calc limit = (refsOf ((x.remaining before).take limit)).card := by
        rw [refsOf, List.toFinset_card_of_nodup hnodup, List.length_map, List.length_take,
          Nat.min_eq_left hlength]
    _ ≤ _ := by
        refine Finset.card_le_card fun y hy => ?_
        obtain ⟨m, hm, rfl⟩ := mem_refsOf.mp hy
        refine Finset.mem_filter.mpr ⟨?_, habove m hm⟩
        rw [refsOf_append]
        have hserved := mem_after.mp (List.take_subset _ _ hm)
        rcases received_or_stored (hsent hm) (hretains m hserved.1) with h | h
        · exact Finset.mem_union_right _ h
        · refine Finset.mem_union_left _ ?_
          by_contra hnot
          have hbelow : m.ref ∈ below (refsOf x.rows) before := mem_below.mpr ⟨h, hserved.2⟩
          have hlm := (Paging.lt_of_notMem_take hbelow fun hmem =>
            hnot (mem_refsOf_payloads.mpr hmem)).2 l (mem_refsOf_payloads.mp hl)
          exact (hlr.trans (habove m hm)).asymm hlm

/-- Nothing is skipped where the authority's pages are not cut short. -/
theorem not_skipped_of_uncut {fits : Option Ref → List Item → Bool} (hlimit : 0 < limit)
    (hone : ∀ i, fits before [i] = true) (huncut : x.Uncut fits limit)
    (hretains : ∀ m ∈ x.served, x.Retains m) (n : Nat) (r : Ref) :
    ¬x.Skipped (fits before) limit before (n + 1) r := by
  rintro ⟨hleft, hstored, hreceived, ⟨l, hl, hlr⟩, hcard⟩
  obtain ⟨body, hbody⟩ := Option.isSome_iff_exists.mp
    (federationDmHistoryPage_isSome (x := x) hone limit before)
  obtain ⟨k, p, -⟩ := exists_page hlimit hbody
  have htaken := (p.take_initial n).subset
  obtain ⟨m, hm, rfl⟩ := mem_refsOf.mp hleft
  have hserved := (mem_after.mp hm).1
  have hdrop : m ∈ (x.remaining before).drop k := by
    rw [← List.take_append_drop k (x.remaining before)] at hm
    refine (List.mem_append.mp hm).resolve_left fun hmem => ?_
    exact (received_or_stored (htaken hmem) (hretains m hserved)).elim hreceived hstored
  have hexposed : x.Exposed limit before m.ref :=
    ⟨l, payloads_subset hl, hlr, Paging.card_lt_of_mem_take (mem_refsOf_payloads.mp hl)⟩
  obtain rfl := p.full hdrop (huncut before m.ref
    (mem_dropped.mpr ⟨mem_refsOf.mpr ⟨m, hserved, rfl⟩, hstored⟩) hexposed)
  have hsorted : ((x.remaining before).take k ++ (x.remaining before).drop k).Pairwise
      (Item.key · < Item.key ·) := by
    rw [List.take_append_drop]
    exact remaining_pairwise
  have habove : ∀ i ∈ (x.remaining before).take k, m.ref < i.ref := fun i hi =>
    OrderDual.toDual_lt_toDual.mp ((List.pairwise_append.mp hsorted).2.2 i hi m hdrop)
  exact absurd hcard
    (not_lt.mpr (limit_le_of_full hlr hl habove p.le_length htaken hretains))

/-- The stored messages of a page are in order. -/
theorem le_of_getLast_payloads {o : Item} (ho : (x.payloads limit before).getLast? = some o)
    {l : Ref} (hl : l ∈ refsOf (x.payloads limit before)) : o.ref ≤ l := by
  have hsorted : ((x.payloads limit before).map Item.ref).Pairwise (· > ·) := by
    rw [map_ref_payloads]
    exact Paging.pairwise_descending.sublist (List.take_sublist _ _)
  obtain ⟨init, hinit⟩ := List.getLast?_eq_some_iff.mp ho
  rw [refsOf, List.mem_toFinset, hinit, List.map_append] at hl
  rw [hinit, List.map_append] at hsorted
  rcases List.mem_append.mp hl with hl | hl
  · exact ((List.pairwise_append.mp hsorted).2.2 l hl o.ref (by simp)).le
  · exact (List.mem_singleton.mp hl).ge

/-- A call that does not ask the authority has no need to. -/
theorem unbroken_of_cached (hlimit : 0 < limit) (hcached : x.Cached)
    (hasks : x.asksAuthority (x.payloads limit before) before = false) :
    x.Unbroken fits limit before := by
  -- where the authority is not asked, the cursor or the page is past the start
  have hpast {r : Ref} (hr : r ∈ refsOf (x.remaining before)) (hstored : r ∉ refsOf x.rows) :
      ∃ start, start ∈ refsOf x.rows ∧ r < start ∧
        (∀ oldest, (x.payloads limit before).getLast? = some oldest → start < oldest.ref) ∧
        ((x.payloads limit before).getLast? = none → ∃ b ∈ before, start < b) := by
    rw [refsOf_remaining] at hr
    obtain ⟨⟨hauthority, htruncated, havailable⟩, start, hstart, hrows, hlt⟩ :=
      hcached r (mem_dropped.mpr ⟨(mem_below.mp hr).1, hstored⟩)
    refine ⟨start, hrows, hlt, ?_⟩
    rw [asksAuthority, hstart] at hasks
    simp only [hauthority, htruncated, havailable, ne_eq, not_false_eq_true, decide_true,
      Bool.and_self, Bool.true_and] at hasks
    cases hlast : (x.payloads limit before).getLast? with
    | some oldest =>
        rw [hlast] at hasks
        refine ⟨fun o ho => ?_, fun hnone => by cases hnone⟩
        obtain rfl := Option.some.inj ho
        exact not_le.mp (of_decide_eq_false hasks)
    | none =>
        rw [hlast] at hasks
        exact ⟨fun _ ho => absurd ho (Option.some_ne_none _).symm, fun _ => by simpa using hasks⟩
  rw [Unbroken, if_neg (by simp [hasks])]
  constructor
  · rintro r ⟨hleft, hstored, -, ⟨l, hl, hlr⟩, -⟩
    obtain ⟨start, -, hlt, hlast, -⟩ := hpast hleft hstored
    cases holdest : (x.payloads limit before).getLast? with
    | some oldest =>
        have hbefore := hlt.trans (hlast oldest holdest)
        exact hbefore.asymm ((le_of_getLast_payloads holdest hl).trans_lt hlr)
    | none =>
        rw [List.getLast?_eq_none_iff.mp holdest] at hl
        exact absurd hl (by simp [refsOf])
  · intro hnil
    have hempty := below_rows_of_payloads_nil hlimit hnil
    have hnone {r : Ref} (hr : r ∈ refsOf x.rows) (hb : ∀ b ∈ before, r < b) : False := by
      have hbelow := mem_below.mpr ⟨hr, hb⟩
      rw [hempty] at hbelow
      exact absurd hbelow (by simp)
    refine List.eq_nil_iff_forall_not_mem.mpr fun m hm => ?_
    have hbefore := (mem_after.mp hm).2
    by_cases hstored : m.ref ∈ refsOf x.rows
    · exact hnone hstored hbefore
    · obtain ⟨start, hrows, -, -, hlast⟩ := hpast (mem_refsOf.mpr ⟨m, hm, rfl⟩) hstored
      obtain ⟨b, hb, hlt⟩ := hlast (List.getLast?_eq_none_iff.mpr hnil)
      refine hnone hrows fun b' hb' => ?_
      obtain rfl := Option.some.inj (hb.symm.trans hb')
      exact hlt

/-- No call passes a message over, if the cache is kept and the authority's
pages are not cut short. -/
theorem unbroken_of_uncut {fits : Option Ref → List Item → Bool} (hlimit : 0 < limit)
    (hone : ∀ c i, fits c [i] = true) (hcached : x.Cached) (huncut : x.Uncut fits limit)
    (hretains : ∀ m ∈ x.served, x.Retains m) (before : Option Ref) :
    x.Unbroken (fits before) limit before := by
  cases hasks : x.asksAuthority (x.payloads limit before) before with
  | false => exact unbroken_of_cached hlimit hcached hasks
  | true =>
      rw [Unbroken, if_pos hasks]
      intro n hpos _ _ r
      obtain ⟨n, rfl⟩ : ∃ n', n = n' + 1 := ⟨n - 1, by omega⟩
      exact not_skipped_of_uncut hlimit (hone before) huncut hretains n r

end History

/-! ## The whole history -/

/-- A page is marked as the last only if nothing is older. The client gets
every message once and in order if what was written here is stored, the cache
is kept, and the authority's pages are not cut short of what was dropped above
a stored message. The first of the three is always needed, and so is an
authority that can be asked. -/
theorem history_read_whole (x : History) {fits : Option Ref → List Item → Bool} {limit : Nat}
    (hlimit : 0 < limit) (hone : ∀ c i, fits c [i] = true) :
    (∀ c page, x.listMessages (fits c) limit c = some page → page.complete = true →
        ∀ o ∈ page.items.getLast?, ∀ r ∈ x.visible, ¬r < o.ref) ∧
      (x.ReadsWhole fits limit → (∀ m ∈ x.served, x.Retains m) ∧
        ∀ r ∈ x.dropped, x.CanAsk ∧ x.conversation.cacheStart.isSome) ∧
      ((∀ m ∈ x.served, x.Retains m) → x.Cached → x.Uncut fits limit →
        x.ReadsWhole fits limit) := by
  refine ⟨fun c page hpage hcomplete o ho r hr => ?_, fun h =>
    ⟨History.retains_of_readsWhole hlimit h, History.canAsk_of_readsWhole hlimit h⟩,
    fun hretains hcached huncut => ?_⟩
  · obtain ⟨n, a⟩ := History.listMessages_cases hlimit hpage
      (History.errorCode_of_complete hpage hcomplete)
    exact a.complete_spec hlimit hcomplete ho hr
  · exact (History.readsWhole_iff hlimit hone).mpr
      ⟨hretains, fun c _ => History.unbroken_of_uncut hlimit hone hcached huncut hretains c⟩

def written (id : Nat) (domain : String) : Item := { ref := toLex (id, domain), author := domain }

/-- Three old messages written here, the start of the cache, and three messages
that were dropped: two between, and one that is older than all. -/
def sparse : History where
  domain := "a.example"
  conversation := {
    authority := "b.example"
    truncated := true
    truncatedBefore := some (toLex (10, "b.example"))
    cacheStart := some (toLex (11, "b.example")) }
  available := true
  rows := [written 11 "b.example", written 3 "a.example", written 2 "a.example",
    written 1 "a.example"]
  home := [⟨written 11 "b.example", false⟩, ⟨written 10 "b.example", false⟩,
    ⟨written 9 "b.example", false⟩, ⟨written 0 "b.example", false⟩]
  rows_nodup := by decide
  home_nodup := by decide
  author_eq := by decide

/-- Pages of four messages, of which three fit. -/
theorem sparse_uncut : sparse.Uncut (fun _ l => l.length ≤ 3) 4 := by
  rintro before r hdropped ⟨l, hl, hlr, -⟩ page hpage - hdown
  have hr : toLex (9, "b.example") ≤ r := by
    have hall : ∀ r ∈ sparse.dropped, ∀ l ∈ refsOf sparse.rows, l < r →
        toLex (9, "b.example") ≤ r := by decide
    exact hall r hdropped l (mem_below.mp hl).1 hlr
  have hnodup : (page.map Item.ref).Nodup :=
    (pairwise_ref History.remaining_pairwise).imp ne_of_gt |>.sublist (hpage.sublist.map _)
  have hsubset : refsOf page ⊆ (refsOf sparse.served).filter (toLex (9, "b.example") ≤ ·) := by
    intro y hy
    obtain ⟨m, hm, rfl⟩ := mem_refsOf.mp hy
    exact Finset.mem_filter.mpr
      ⟨mem_refsOf.mpr ⟨m, (mem_after.mp (hpage.subset hm)).1, rfl⟩, hr.trans (hdown m hm)⟩
  refine decide_eq_true ?_
  calc page.length = (refsOf page).card := by
        rw [refsOf, List.toFinset_card_of_nodup hnodup, List.length_map]
    _ ≤ _ := Finset.card_le_card hsubset
    _ = 3 := by decide

theorem sparse_retains : ∀ m ∈ sparse.served, sparse.Retains m := by
  unfold History.Retains
  decide

theorem sparse_cached : sparse.Cached := by
  unfold History.Cached
  decide

theorem sparse_read_whole : sparse.ReadsWhole (fun _ l => l.length ≤ 3) 4 :=
  (history_read_whole sparse (by decide) fun _ _ => rfl).2.2 sparse_retains sparse_cached
    sparse_uncut

theorem sparse_payloads : sparse.payloads 4 none = sparse.rows := by
  have hsorted : Paging.sortedBy Item.key sparse.rows = sparse.rows :=
    Paging.eq_of_pairwise Paging.perm_sortedBy
      (Paging.pairwise_sortedBy (keys_nodup sparse.rows_nodup)) (by decide)
  rw [History.payloads, Option.map_none, Paging.after_none, hsorted]
  rfl

theorem sparse_remaining : sparse.remaining none = sparse.served := by
  rw [History.remaining, Option.map_none, Paging.after_none]
  exact Paging.eq_of_pairwise Paging.perm_sortedBy
    (Paging.pairwise_sortedBy (keys_nodup History.served_nodup)) (by decide)

theorem sparse_received :
    sparse.received (fun l => l.length ≤ 1) 4 1 none = [written 11 "b.example"] := by
  have hrows : sparse.servedRows 4 none = sparse.served := by
    rw [History.servedRows, ← History.remaining, sparse_remaining]
    rfl
  rw [History.received, History.pagesSent, History.federationDmHistoryPage, hrows]
  decide

/-- Pages that are cut to one message. -/
theorem dropped_messages_skipped : ¬sparse.ReadsWhole (fun _ l => l.length ≤ 1) 4 := by
  intro h
  have hunbroken := ((History.readsWhole_iff (by decide) fun _ _ => rfl).mp h).2 none .refl
  rw [History.Unbroken, sparse_payloads, if_pos (by decide)] at hunbroken
  refine hunbroken 1 (by decide) (by decide) ?_ (toLex (10, "b.example")) ?_
  · rw [sparse_received]
    decide
  · rw [History.Skipped, sparse_payloads, sparse_received, sparse_remaining]
    decide

end DmHistory

end Kaede
