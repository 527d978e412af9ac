import Kaede.GuildMirror
import Kaede.Paging
import Mathlib.Data.Prod.Lex
import Mathlib.Data.String.Basic

/-!
# Fetching a guild page by page

A snapshot is served by `federation_guild_snapshot`
(`backend/app/api/federation.py`) in pages of a thousand members. Roles,
channels and overwrites are on every page. The role assignments and the thread
memberships of a page are those of its members. `fetch_guild_snapshot` puts
the pages together: it goes on from the first page and appends the members and
the role assignments of the others. The thread memberships stay those of the
first page.

The guild does not change while it is fetched, so the watermark of the
membership leaves no row out.
-/

namespace Kaede

namespace GuildMirror

open Replication (normalizeDomain)

/-! ## At the authority -/

/-- Members are served by domain, then by id. -/
abbrev MemberKey := String ×ₗ Nat

def memberKey (u : UserRef) : MemberKey := toLex (u.domain, u.id)

structure HomeMember where
  user : UserRef
  row : Member := {}
deriving DecidableEq, Repr

def HomeMember.key (m : HomeMember) : MemberKey := memberKey m.user

/-- The guild at its authority. The channels are those the asking instance may
see. -/
structure Home where
  nextEventSeq : Nat
  snapshotGeneration : Nat := 1
  owner : UserRef
  roles : List Nat
  channels : List (Nat × Channel)
  members : List HomeMember
  memberRoles : List (UserRef × Nat)
  overwrites : List (Nat × Target)
  threadMembers : Table (Nat × UserRef) ThreadMember
  members_nodup : (members.map HomeMember.user).Nodup
  members_parsed : ∀ m ∈ members, (normalizeDomain m.user.domain).toOption = some m.user.domain
  memberRoles_linked : ∀ r ∈ memberRoles, r.1 ∈ members.map HomeMember.user
  threadMembers_linked : ∀ k ∈ threadMembers.keys, k.2 ∈ members.map HomeMember.user

structure Page where
  snapshot : Snapshot
  snapshotGeneration : Nat
  nextMemberCursor : Option MemberKey

def wireUser (u : UserRef) : WireUser := ⟨u.id, u.domain⟩

def HomeMember.wire (m : HomeMember) : SnapshotMember := { user := wireUser m.user, row := m.row }

namespace Home

def visible (h : Home) (thread : Nat) : Bool := thread ∈ h.channels.map Prod.fst

/-- The role assignments of some members. -/
def memberRolesOf (h : Home) (members : List HomeMember) : List (UserRef × Nat) :=
  h.memberRoles.filter fun r => r.1 ∈ members.map HomeMember.user

/-- The memberships of some members in the threads that are served. -/
def threadMembersOf (h : Home) (members : List HomeMember) : List SnapshotThreadMember :=
  (h.threadMembers.entries.filter fun e =>
      h.visible e.1.1 && e.1.2 ∈ members.map HomeMember.user).map
    fun e => { thread := e.1.1, user := wireUser e.1.2, row := e.2 }

def visibleOverwrites (h : Home) : List (Nat × Target) := h.overwrites.filter fun o => h.visible o.1

/-- The members in the order in which they are served. -/
def served (h : Home) : List HomeMember := Paging.sortedBy HomeMember.key h.members

/-- The rows of the query, one more than a page has. -/
def memberRows (h : Home) (cursor : Option MemberKey) : List HomeMember :=
  (Paging.after HomeMember.key h.members cursor).take 1001

/-- `guild_snapshot_payload`. -/
def payload (h : Home) (members : List HomeMember) : Snapshot where
  snapshotSeq := h.nextEventSeq - 1
  owner := h.owner
  roles := h.roles
  channels := h.channels
  members := members.map HomeMember.wire
  memberRoles := h.memberRolesOf members
  overwrites := h.visibleOverwrites
  threadMembers := h.threadMembersOf members

/-- The limits of one page. -/
def Serves (h : Home) (members : List HomeMember) : Prop :=
  h.roles.length ≤ 10000 ∧ (h.memberRolesOf members).length ≤ 100000 ∧
    h.visibleOverwrites.length ≤ 100000 ∧ (h.threadMembersOf members).length ≤ 100000

instance (h : Home) (members : List HomeMember) : Decidable (h.Serves members) :=
  inferInstanceAs (Decidable (_ ∧ _ ∧ _ ∧ _))

end Home

/-- `federation_guild_snapshot`, for a cursor of the guild as it is. -/
def federationGuildSnapshot (h : Home) (cursor : Option MemberKey) : Option Page :=
  if h.Serves ((h.memberRows cursor).take 1000) then
    some {
      snapshot := h.payload ((h.memberRows cursor).take 1000)
      snapshotGeneration := h.snapshotGeneration
      nextMemberCursor :=
        if 1000 < (h.memberRows cursor).length then
          ((h.memberRows cursor).take 1000).getLast?.map HomeMember.key
        else none }
  else
    none

/-! ## At the replica -/

def maxSnapshotPages : Nat := 100

/-- The first page, or the pages so far with the members and the role
assignments of one more. -/
def combine (combined : Option (Snapshot × Nat)) (page : Page) : Option (Snapshot × Nat) :=
  match combined with
  | none => some (page.snapshot, page.snapshotGeneration)
  | some (c, generation) =>
      if page.snapshot.snapshotSeq = c.snapshotSeq ∧ page.snapshotGeneration = generation ∧
          page.snapshot.owner = c.owner ∧ page.snapshot.roles = c.roles ∧
          page.snapshot.channels = c.channels ∧ page.snapshot.overwrites = c.overwrites then
        some ({ c with
          members := c.members ++ page.snapshot.members
          memberRoles := c.memberRoles ++ page.snapshot.memberRoles }, generation)
      else
        none

/-- The reference of the last member of a page, as it is parsed. -/
def Page.lastKey (page : Page) : Option MemberKey :=
  (page.snapshot.members.getLast?.bind fun m => m.user.ref).map memberKey

/-- The limits of what is put together. -/
def Combines (c : Snapshot) : Prop :=
  c.members.length ≤ maxSnapshotMembers ∧ c.memberRoles.length ≤ maxSnapshotMemberRoles

instance (c : Snapshot) : Decidable (Combines c) := inferInstanceAs (Decidable (_ ∧ _))

/-- The loop of `fetch_guild_snapshot`. The deadline and the bytes of the
responses are left out. -/
def fetchPages (h : Home) : Nat → Option (Snapshot × Nat) → Option MemberKey → Option Snapshot
  | 0, _, _ => none
  | fuel + 1, combined, cursor =>
      match federationGuildSnapshot h cursor with
      | none => none
      | some page =>
          if page.snapshot.members.length ≤ 1000 ∧ page.snapshot.memberRoles.length ≤ 100000 then
            match combine combined page with
            | none => none
            | some (c, generation) =>
                if Combines c then
                  match page.nextMemberCursor with
                  | none => some c
                  | some next =>
                      if page.lastKey = some next ∧ ∀ k ∈ cursor, k < next then
                        fetchPages h fuel (some (c, generation)) (some next)
                      else
                        none
                else
                  none
          else
            none

/-- `fetch_guild_snapshot`. -/
def fetchGuildSnapshot (h : Home) : Option Snapshot := fetchPages h maxSnapshotPages none none

/-! ## The rows of a page -/

theorem memberKey_injective : Function.Injective memberKey := by
  rintro ⟨i, d⟩ ⟨j, e⟩ h
  obtain ⟨rfl, rfl⟩ := Prod.mk.inj (toLex.injective h)
  rfl

namespace Home

variable {h : Home}

theorem wireUser_ref {m : HomeMember} (hm : m ∈ h.members) :
    (wireUser m.user).ref = some m.user := by
  rw [WireUser.ref, wireUser, h.members_parsed m hm]
  rfl

theorem keys_nodup : (h.members.map HomeMember.key).Nodup := by
  have := h.members_nodup.map memberKey_injective
  rwa [List.map_map] at this

theorem mem_served {m : HomeMember} : m ∈ h.served ↔ m ∈ h.members := Paging.mem_sortedBy

theorem length_served : h.served.length = h.members.length := by
  have hperm : h.served.Perm h.members := Paging.perm_sortedBy
  exact hperm.length_eq

theorem served_pairwise : h.served.Pairwise (HomeMember.key · < HomeMember.key ·) :=
  Paging.pairwise_sortedBy keys_nodup

theorem users_served_nodup : (h.served.map HomeMember.user).Nodup :=
  (Paging.perm_sortedBy.map _).nodup_iff.mpr h.members_nodup

/-- The cursor stands behind the members that were read. -/
def Behind (cursor : Option MemberKey) (pre : List HomeMember) : Prop :=
  cursor = pre.getLast?.map HomeMember.key

theorem memberRows_eq {cursor : Option MemberKey} {pre rest : List HomeMember}
    (hserved : h.served = pre ++ rest) (hcursor : Behind cursor pre) :
    h.memberRows cursor = rest.take 1001 := by
  rw [memberRows, hcursor]
  cases hx : pre.getLast? with
  | none =>
      obtain rfl := List.getLast?_eq_none_iff.mp hx
      rw [Option.map_none, Paging.after_none, ← served, hserved, List.nil_append]
  | some x => rw [Option.map_some, Paging.after_getLast keys_nodup hserved hx]

theorem pageMembers_eq {cursor : Option MemberKey} {pre rest : List HomeMember}
    (hserved : h.served = pre ++ rest) (hcursor : Behind cursor pre) :
    (h.memberRows cursor).take 1000 = rest.take 1000 := by
  rw [memberRows_eq hserved hcursor, List.take_take]
  rfl

theorem lt_length_memberRows {cursor : Option MemberKey} {pre rest : List HomeMember}
    (hserved : h.served = pre ++ rest) (hcursor : Behind cursor pre) :
    1000 < (h.memberRows cursor).length ↔ 1000 < rest.length := by
  rw [memberRows_eq hserved hcursor, List.length_take]
  omega

end Home

/-- The page that follows the members that were read. -/
def pageAfter (h : Home) (rest : List HomeMember) : Page where
  snapshot := h.payload (rest.take 1000)
  snapshotGeneration := h.snapshotGeneration
  nextMemberCursor :=
    if 1000 < rest.length then (rest.take 1000).getLast?.map HomeMember.key else none

theorem federationGuildSnapshot_eq {h : Home} {cursor : Option MemberKey}
    {pre rest : List HomeMember} (hserved : h.served = pre ++ rest)
    (hcursor : Home.Behind cursor pre) :
    federationGuildSnapshot h cursor =
      if h.Serves (rest.take 1000) then some (pageAfter h rest) else none := by
  simp only [federationGuildSnapshot, Home.pageMembers_eq hserved hcursor,
    Home.lt_length_memberRows hserved hcursor, pageAfter]

/-! ## The loop -/

/-- What the pages so far have given: everything about the members in `pre` but
their thread memberships, which are those of the first page. -/
structure Collected (h : Home) (pre : List HomeMember) (c : Snapshot) : Prop where
  seq : c.snapshotSeq = h.nextEventSeq - 1
  owner : c.owner = h.owner
  roles : c.roles = h.roles
  channels : c.channels = h.channels
  overwrites : c.overwrites = h.visibleOverwrites
  members : c.members = pre.map HomeMember.wire
  memberRoles : c.memberRoles.Perm (h.memberRolesOf pre)
  threadMembers : c.threadMembers = h.threadMembersOf (h.served.take 1000)

variable {h : Home} {pre rest : List HomeMember} {c d : Snapshot}

theorem memberRolesOf_append (hserved : h.served = pre ++ rest) (n : Nat) :
    (h.memberRolesOf pre ++ h.memberRolesOf (rest.take n)).Perm
      (h.memberRolesOf (pre ++ rest.take n)) := by
  have hnodup := h.users_served_nodup
  rw [hserved, List.map_append] at hnodup
  have hdisj := List.disjoint_of_nodup_append hnodup
  have hperm := Paging.filter_or_perm
    (p := fun r : UserRef × Nat => decide (r.1 ∈ pre.map HomeMember.user))
    (q := fun r => decide (r.1 ∈ (rest.take n).map HomeMember.user)) (fun r hr => ?_) h.memberRoles
  · simpa [Home.memberRolesOf, Bool.decide_or] using hperm
  · refine decide_eq_false fun hr' => hdisj (of_decide_eq_true hr) ?_
    exact List.map_subset _ (List.take_subset n rest) hr'

theorem collected_first : Collected h (h.served.take 1000) (h.payload (h.served.take 1000)) where
  seq := rfl
  owner := rfl
  roles := rfl
  channels := rfl
  overwrites := rfl
  members := rfl
  memberRoles := .refl _
  threadMembers := rfl

/-- One more page. -/
theorem combine_eq (hserved : h.served = pre ++ rest) (hc : Collected h pre c) :
    ∃ c', combine (some (c, h.snapshotGeneration)) (pageAfter h rest) =
        some (c', h.snapshotGeneration) ∧
      Collected h (pre ++ rest.take 1000) c' := by
  have hsame : (pageAfter h rest).snapshot.snapshotSeq = c.snapshotSeq ∧
      (pageAfter h rest).snapshotGeneration = h.snapshotGeneration ∧
      (pageAfter h rest).snapshot.owner = c.owner ∧ (pageAfter h rest).snapshot.roles = c.roles ∧
      (pageAfter h rest).snapshot.channels = c.channels ∧
      (pageAfter h rest).snapshot.overwrites = c.overwrites :=
    ⟨hc.seq.symm, rfl, hc.owner.symm, hc.roles.symm, hc.channels.symm, hc.overwrites.symm⟩
  refine ⟨_, by rw [combine, if_pos hsame], ?_⟩
  exact {
    seq := hc.seq
    owner := hc.owner
    roles := hc.roles
    channels := hc.channels
    overwrites := hc.overwrites
    members := by
      rw [hc.members, List.map_append]
      rfl
    memberRoles := (hc.memberRoles.append_right _).trans (memberRolesOf_append hserved 1000)
    threadMembers := hc.threadMembers }

/-- The cursor that a page names stands behind its members. -/
theorem behind_next (hnext : 1000 < rest.length) :
    Home.Behind ((rest.take 1000).getLast?.map HomeMember.key) (pre ++ rest.take 1000) := by
  have hne : rest.take 1000 ≠ [] := by
    intro h0
    have := congrArg List.length h0
    rw [List.length_take, List.length_nil] at this
    omega
  rw [Home.Behind, List.getLast?_append_of_ne_nil _ hne]

theorem served_next (hserved : h.served = pre ++ rest) :
    h.served = (pre ++ rest.take 1000) ++ rest.drop 1000 := by
  rw [List.append_assoc, List.take_append_drop, hserved]

/-- The loop has read the members in `pre`. -/
def Read (h : Home) (combined : Option (Snapshot × Nat)) (pre : List HomeMember) : Prop :=
  match combined with
  | none => pre = []
  | some (c, generation) => generation = h.snapshotGeneration ∧ Collected h pre c

theorem combine_of_read {combined : Option (Snapshot × Nat)} (hserved : h.served = pre ++ rest)
    (hread : Read h combined pre) :
    ∃ c', combine combined (pageAfter h rest) = some (c', h.snapshotGeneration) ∧
      Collected h (pre ++ rest.take 1000) c' := by
  match combined with
  | none =>
      obtain rfl : pre = [] := hread
      rw [List.nil_append] at hserved ⊢
      exact ⟨_, rfl, hserved ▸ collected_first⟩
  | some (c, generation) =>
      obtain ⟨rfl, hc⟩ := hread
      exact combine_eq hserved hc

/-- The checks of the cursor pass. -/
theorem cursor_checks {cursor : Option MemberKey} {next : MemberKey}
    (hserved : h.served = pre ++ rest) (hcursor : Home.Behind cursor pre)
    (hnext : (pageAfter h rest).nextMemberCursor = some next) :
    (pageAfter h rest).lastKey = some next ∧ ∀ k ∈ cursor, k < next := by
  simp only [pageAfter] at hnext
  split at hnext
  · obtain ⟨y, hy, rfl⟩ := Option.map_eq_some_iff.mp hnext
    have hy' : y ∈ rest := List.mem_of_mem_take (List.mem_of_getLast? hy)
    have hmem : y ∈ h.members := Home.mem_served.mp (hserved ▸ List.mem_append_right _ hy')
    refine ⟨?_, fun k hk => ?_⟩
    · have hlast : (pageAfter h rest).snapshot.members.getLast? = some y.wire := by
        simp only [pageAfter, Home.payload, List.getLast?_map, hy, Option.map_some]
      rw [Page.lastKey, hlast, Option.bind_some]
      exact congrArg (Option.map memberKey) (Home.wireUser_ref hmem)
    · rw [hcursor] at hk
      obtain ⟨x, hx, rfl⟩ := Option.map_eq_some_iff.mp hk
      have hsorted := h.served_pairwise
      rw [hserved] at hsorted
      exact (List.pairwise_append.mp hsorted).2.2 x (List.mem_of_getLast? hx) y hy'
  · exact absurd hnext (by simp)

/-- One round of the loop. -/
theorem fetchPages_succ (fuel : Nat) {combined : Option (Snapshot × Nat)}
    {cursor : Option MemberKey} (hserved : h.served = pre ++ rest)
    (hcursor : Home.Behind cursor pre) (hread : Read h combined pre) :
    ∃ c', Collected h (pre ++ rest.take 1000) c' ∧
      fetchPages h (fuel + 1) combined cursor =
        if h.Serves (rest.take 1000) ∧ Combines c' then
          if 1000 < rest.length then
            fetchPages h fuel (some (c', h.snapshotGeneration))
              ((rest.take 1000).getLast?.map HomeMember.key)
          else some c'
        else none := by
  obtain ⟨c', hcombine, hc'⟩ := combine_of_read hserved hread
  refine ⟨c', hc', ?_⟩
  rw [fetchPages, federationGuildSnapshot_eq hserved hcursor]
  by_cases hserves : h.Serves (rest.take 1000)
  · have hpage : (pageAfter h rest).snapshot.members.length ≤ 1000 ∧
        (pageAfter h rest).snapshot.memberRoles.length ≤ 100000 := by
      refine ⟨?_, hserves.2.1⟩
      simp only [pageAfter, Home.payload, List.length_map, List.length_take]
      omega
    rw [if_pos hserves]
    simp only [if_pos hpage, hcombine]
    by_cases hlimits : Combines c'
    · rw [if_pos hlimits, if_pos ⟨hserves, hlimits⟩]
      by_cases hmore : 1000 < rest.length
      · have hcur : (pageAfter h rest).nextMemberCursor =
            (rest.take 1000).getLast?.map HomeMember.key := if_pos hmore
        rw [if_pos hmore]
        cases hnext : (rest.take 1000).getLast?.map HomeMember.key with
        | none =>
            rw [Option.map_eq_none_iff, List.getLast?_eq_none_iff, List.take_eq_nil_iff] at hnext
            rcases hnext with h0 | h0
            · exact absurd h0 (by decide)
            · simp [h0] at hmore
        | some next =>
            rw [hnext] at hcur
            simp only [hcur, if_pos (cursor_checks hserved hcursor hcur)]
      · have hcur : (pageAfter h rest).nextMemberCursor = none := if_neg hmore
        simp only [hcur, if_neg hmore]
    · rw [if_neg hlimits, if_neg fun hs => hlimits hs.2]
  · rw [if_neg hserves, if_neg fun hs => hserves hs.1]

/-- What the loop returns is collected from all members. -/
theorem collected_of_fetchPages {fuel : Nat} {combined : Option (Snapshot × Nat)}
    {cursor : Option MemberKey} (hserved : h.served = pre ++ rest)
    (hcursor : Home.Behind cursor pre) (hread : Read h combined pre)
    (hd : fetchPages h fuel combined cursor = some d) : Collected h h.served d := by
  induction fuel generalizing pre rest combined cursor with
  | zero => exact absurd hd (by simp [fetchPages])
  | succ fuel ih =>
      obtain ⟨c', hc', hround⟩ := fetchPages_succ fuel hserved hcursor hread
      rw [hround] at hd
      split at hd
      · split at hd
        · rename_i hmore
          have hread' : Read h (some (c', h.snapshotGeneration)) (pre ++ rest.take 1000) :=
            ⟨rfl, hc'⟩
          exact ih (served_next hserved) (behind_next hmore) hread' hd
        · rename_i hlast
          obtain rfl := Option.some.inj hd
          rwa [List.take_of_length_le (by omega), ← hserved] at hc'
      · exact absurd hd (by simp)

/-- The guild and each of its pages are within the limits. -/
structure Home.Within (h : Home) : Prop where
  pages : ∀ k, h.Serves ((h.served.drop (1000 * k)).take 1000)
  members : h.members.length ≤ maxSnapshotMembers
  memberRoles : h.memberRoles.length ≤ maxSnapshotMemberRoles

theorem combines_of_collected (hw : h.Within) (hpre : pre.Sublist h.served)
    (hc : Collected h pre c) : Combines c := by
  refine ⟨?_, ?_⟩
  · rw [hc.members, List.length_map]
    exact hpre.length_le.trans (Home.length_served ▸ hw.members)
  · rw [hc.memberRoles.length_eq]
    exact (List.length_filter_le _ _).trans hw.memberRoles

theorem exists_fetchPages {fuel k : Nat} {combined : Option (Snapshot × Nat)}
    {cursor : Option MemberKey} (hw : h.Within) (hserved : h.served = pre ++ rest)
    (hcursor : Home.Behind cursor pre) (hread : Read h combined pre)
    (hpre : pre.length = 1000 * k) (hrest : rest.length ≤ 1000 * (fuel + 1)) :
    ∃ d, fetchPages h (fuel + 1) combined cursor = some d := by
  induction fuel generalizing pre rest combined cursor k with
  | zero =>
      obtain ⟨c', hc', hround⟩ := fetchPages_succ 0 hserved hcursor hread
      have hpage := hw.pages k
      rw [hserved, List.drop_left' hpre] at hpage
      have hsub : (pre ++ rest.take 1000).Sublist h.served :=
        hserved ▸ (List.Sublist.refl pre).append (List.take_sublist _ _)
      rw [hround, if_pos ⟨hpage, combines_of_collected hw hsub hc'⟩, if_neg (by omega)]
      exact ⟨c', rfl⟩
  | succ fuel ih =>
      obtain ⟨c', hc', hround⟩ := fetchPages_succ (fuel + 1) hserved hcursor hread
      have hpage := hw.pages k
      rw [hserved, List.drop_left' hpre] at hpage
      have hsub : (pre ++ rest.take 1000).Sublist h.served :=
        hserved ▸ (List.Sublist.refl pre).append (List.take_sublist _ _)
      rw [hround, if_pos ⟨hpage, combines_of_collected hw hsub hc'⟩]
      split
      · rename_i hmore
        have hread' : Read h (some (c', h.snapshotGeneration)) (pre ++ rest.take 1000) :=
          ⟨rfl, hc'⟩
        refine ih (served_next hserved) (behind_next hmore) hread' (k := k + 1) ?_ ?_
        · rw [List.length_append, List.length_take, hpre]
          omega
        · rw [List.length_drop]
          omega
      · exact ⟨c', rfl⟩

theorem exists_fetchGuildSnapshot (hw : h.Within) : ∃ d, fetchGuildSnapshot h = some d := by
  have hlen : h.served.length ≤ 1000 * (99 + 1) := Home.length_served ▸ hw.members
  have hread : Read h none [] := rfl
  exact exists_fetchPages hw (List.nil_append _).symm rfl hread (k := 0) rfl hlen

theorem collected_of_fetch (hd : fetchGuildSnapshot h = some d) : Collected h h.served d := by
  have hread : Read h none [] := rfl
  exact collected_of_fetchPages (List.nil_append _).symm rfl hread hd

/-! ## Applying what was fetched -/

theorem lookup_writeRows {rows : List SnapshotThreadMember}
    {base : Table (Nat × UserRef) ThreadMember} {k : Nat × UserRef} :
    (rows.foldl (fun t row => t.insert row.key row.row) base).lookup k =
      ((rows.reverse.find? fun row => row.key = k).map (·.row)).or (base.lookup k) := by
  induction rows using List.reverseRecOn generalizing base with
  | nil => simp
  | append_singleton rows row ih =>
      rw [List.foldl_concat, Table.lookup_insert_ite, List.reverse_concat, List.find?_cons]
      by_cases hk : row.key = k
      · simp [hk]
      · rw [if_neg (Ne.symm hk), ih]
        simp [hk]

variable {domain : String} {s t : Replica} {required : Option UserRef}

/-- The members after a snapshot are those it lets in, where it writes them as
they are parsed. -/
theorem mem_raw_of_isMember {p : Snapshot} {a : Admitted} {u : UserRef}
    (hraw : ∀ m ∈ a.members, m.user.ref = some m.user.raw)
    (hu : ((installMembers (purgeOmitted (dropOmitted domain s a) p).members a).lookup u).isSome) :
    u ∈ a.members.map fun m => m.user.raw := by
  rcases isMember_installMembers.mp hu with h | h
  · exact mem_raw_of_kept h
  · obtain ⟨m, hm, href⟩ := List.mem_map.mp h
    rw [hraw m hm] at href
    exact List.mem_map.mpr ⟨m, hm, Option.some.inj href⟩

/-- The thread memberships of a member after a snapshot are those that the
snapshot lists. -/
theorem lookup_threadMembers_apply {p : Snapshot} {thread : Nat} {u : UserRef}
    (hraw : ∀ m ∈ p.members, m.user.ref = some m.user.raw)
    (h : applyGuildSnapshot domain s p required = some t) (hu : t.isMember u) :
    t.threadMembers.lookup (thread, u) =
      (p.threadMembers.reverse.find? fun row => row.key = (thread, u)).map (·.row) := by
  unfold applyGuildSnapshot at h
  split at h
  · obtain rfl := Option.some.inj h
    have hmem := mem_raw_of_isMember (fun m hm => hraw m (List.mem_filter.mp hm).1) hu
    have hfind : ∀ rows : List SnapshotThreadMember,
        (rows.filter fun r => r.user.raw ∈
          (filterRemoteSnapshotMemberships domain s p).members.map fun m => m.user.raw).find?
            (fun row => row.key = (thread, u)) = rows.find? fun row => row.key = (thread, u) := by
      intro rows
      rw [List.find?_filter]
      congr 1
      funext row
      by_cases hkey : row.key = (thread, u)
      · have hrow : row.user.raw = u := congrArg Prod.snd hkey
        simp [hkey, hrow, hmem]
      · simp [hkey]
    show (installThreadMembers _ _ _).lookup (thread, u) = _
    rw [installThreadMembers, lookup_writeRows, admittedThreadMembers, ← List.filter_reverse, hfind]
    cases hrow : p.threadMembers.reverse.find? fun row => row.key = (thread, u) with
    | some row => rfl
    | none =>
        -- a row of a listed member that is not listed itself goes
        rw [Option.map_none, Option.none_or, Table.lookup_keep, if_neg]
        rw [Bool.or_eq_true, not_or, decide_eq_true_eq, decide_eq_true_eq, not_not]
        refine ⟨hmem, fun hkey => ?_⟩
        obtain ⟨row, hmem', hkey⟩ := List.mem_map.mp hkey
        have hnone := List.find?_eq_none.mp hrow row
          (List.mem_reverse.mpr (List.mem_filter.mp hmem').1)
        exact hnone (decide_eq_true hkey)
  · exact absurd h (by simp)

/-! ## The whole guild -/

namespace Home

/-- A membership of a thread that is served. -/
def threadRow (h : Home) (thread : Nat) (u : UserRef) : Option ThreadMember :=
  if h.visible thread then h.threadMembers.lookup (thread, u) else none

/-- The members of the threads that are served are on the first page. -/
def OnFirstPage (h : Home) : Prop :=
  ∀ k ∈ h.threadMembers.keys, h.visible k.1 → k.2 ∈ (h.served.take 1000).map HomeMember.user

end Home

theorem mem_threadMembersOf {members : List HomeMember} {r : SnapshotThreadMember} :
    r ∈ h.threadMembersOf members ↔
      (h.visible r.thread ∧ r.user.raw ∈ members.map HomeMember.user) ∧
        h.threadMembers.lookup r.key = some r.row := by
  obtain ⟨thread, user, row⟩ := r
  simp only [Home.threadMembersOf, List.mem_map, List.mem_filter, Bool.and_eq_true,
    decide_eq_true_eq, SnapshotThreadMember.key]
  constructor
  · rintro ⟨⟨⟨i, v⟩, m⟩, ⟨hmem, hvis, hu⟩, heq⟩
    simp only [SnapshotThreadMember.mk.injEq] at heq
    obtain ⟨rfl, rfl, rfl⟩ := heq
    exact ⟨⟨hvis, hu⟩, AList.mem_lookup_iff.mpr hmem⟩
  · rintro ⟨⟨hvis, hu⟩, hlook⟩
    exact ⟨⟨(thread, user.raw), row⟩, ⟨AList.mem_lookup_iff.mp hlook, hvis, hu⟩, rfl⟩

theorem find_threadMembersOf {members : List HomeMember} {thread : Nat} {u : UserRef} :
    ((h.threadMembersOf members).reverse.find? fun row => row.key = (thread, u)).map (·.row) =
      if h.visible thread ∧ u ∈ members.map HomeMember.user then
        h.threadMembers.lookup (thread, u)
      else none := by
  cases hfind : (h.threadMembersOf members).reverse.find? fun row => row.key = (thread, u) with
  | some r =>
      obtain ⟨hin, hlook⟩ :=
        mem_threadMembersOf.mp (List.mem_reverse.mp (List.mem_of_find?_eq_some hfind))
      have hkey : r.key = (thread, u) := by simpa using List.find?_some hfind
      obtain ⟨rfl, rfl⟩ := Prod.mk.inj hkey
      rw [if_pos hin]
      exact hlook.symm
  | none =>
      split
      · rename_i hin
        cases hlook : h.threadMembers.lookup (thread, u) with
        | none => rfl
        | some row =>
            have hmem : (⟨thread, wireUser u, row⟩ : SnapshotThreadMember) ∈
                h.threadMembersOf members := mem_threadMembersOf.mpr ⟨hin, hlook⟩
            have := List.find?_eq_none.mp hfind _ (List.mem_reverse.mpr hmem)
            exact absurd (decide_eq_true (rfl : (thread, u) = (thread, u))) this
      · rfl

/-- The snapshot lists the guild as a whole, and a replica that applies it has
the authority's thread memberships for the members it lets in; none that is
right is lost. -/
structure Whole (h : Home) (c : Snapshot) : Prop where
  members : c.members.Perm (h.members.map HomeMember.wire)
  memberRoles : c.memberRoles.Perm h.memberRoles
  threadMembers : ∀ r, r ∈ c.threadMembers ↔ r ∈ h.threadMembersOf h.members
  applied : ∀ (domain : String) (s t : Replica) (required : Option UserRef),
    applyGuildSnapshot domain s c required = some t →
      ∀ thread u, t.isMember u → t.threadMembers.lookup (thread, u) = h.threadRow thread u
  kept : ∀ (domain : String) (s t : Replica) (required : Option UserRef),
    applyGuildSnapshot domain s c required = some t →
      ∀ thread u, t.isMember u → (s.threadMembers.lookup (thread, u)).isSome →
        (h.threadRow thread u).isSome → (t.threadMembers.lookup (thread, u)).isSome

theorem memberRolesOf_served : h.memberRolesOf h.served = h.memberRoles := by
  refine List.filter_eq_self.mpr fun r hr => decide_eq_true ?_
  obtain ⟨m, hm, hu⟩ := List.mem_map.mp (h.memberRoles_linked r hr)
  exact List.mem_map.mpr ⟨m, Home.mem_served.mpr hm, hu⟩

theorem mem_first_iff (hfirst : h.OnFirstPage) {r : SnapshotThreadMember} :
    r ∈ h.threadMembersOf (h.served.take 1000) ↔ r ∈ h.threadMembersOf h.members := by
  rw [mem_threadMembersOf, mem_threadMembersOf]
  refine and_congr_left fun hlook => and_congr_right fun hvis => ?_
  have hkey : r.key ∈ h.threadMembers.keys :=
    AList.mem_keys.mp (AList.lookup_isSome.mp (by rw [hlook]; rfl))
  exact ⟨fun _ => h.threadMembers_linked _ hkey, fun _ => hfirst _ hkey hvis⟩

/-- The thread memberships of the first page, on a replica. -/
theorem lookup_applied (hc : Collected h h.served c)
    (happly : applyGuildSnapshot domain s c required = some t) {thread : Nat} {u : UserRef}
    (hu : t.isMember u) :
    t.threadMembers.lookup (thread, u) =
      if h.visible thread ∧ u ∈ (h.served.take 1000).map HomeMember.user then
        h.threadMembers.lookup (thread, u)
      else none := by
  have hraw : ∀ m ∈ c.members, m.user.ref = some m.user.raw := by
    intro m hm
    rw [hc.members] at hm
    obtain ⟨m', hm', rfl⟩ := List.mem_map.mp hm
    exact Home.wireUser_ref (Home.mem_served.mp hm')
  rw [lookup_threadMembers_apply hraw happly hu, hc.threadMembers, find_threadMembersOf]

theorem lookup_applied_of_first (hfirst : h.OnFirstPage) (hc : Collected h h.served c)
    (happly : applyGuildSnapshot domain s c required = some t) {thread : Nat} {u : UserRef}
    (hu : t.isMember u) : t.threadMembers.lookup (thread, u) = h.threadRow thread u := by
  rw [lookup_applied hc happly hu, Home.threadRow]
  by_cases hvis : h.visible thread = true
  · rw [if_pos hvis]
    cases hlook : h.threadMembers.lookup (thread, u) with
    | none => simp
    | some row =>
        have hkey : (thread, u) ∈ h.threadMembers.keys :=
          AList.mem_keys.mp (AList.lookup_isSome.mp (by rw [hlook]; rfl))
        rw [if_pos ⟨hvis, hfirst _ hkey hvis⟩]
  · rw [if_neg hvis, if_neg fun hin => hvis hin.1]

theorem onFirstPage_of_whole (hfetch : fetchGuildSnapshot h = some c) (hwhole : Whole h c) :
    h.OnFirstPage := by
  intro k hk hvis
  obtain ⟨row, hrow⟩ :=
    Option.isSome_iff_exists.mp (AList.lookup_isSome.mpr (AList.mem_keys.mpr hk))
  have hall : (⟨k.1, wireUser k.2, row⟩ : SnapshotThreadMember) ∈ h.threadMembersOf h.members :=
    mem_threadMembersOf.mpr ⟨⟨hvis, h.threadMembers_linked k hk⟩, hrow⟩
  have hlisted := (hwhole.threadMembers _).mpr hall
  rw [(collected_of_fetch hfetch).threadMembers] at hlisted
  exact (mem_threadMembersOf.mp hlisted).1.2

theorem whole_of_onFirstPage (hfetch : fetchGuildSnapshot h = some c) (hfirst : h.OnFirstPage) :
    Whole h c := by
  have hc := collected_of_fetch hfetch
  refine ⟨?_, ?_, fun r => ?_, fun domain s t required happly thread u hu => ?_,
    fun domain s t required happly thread u hu _ hright => ?_⟩
  · rw [hc.members]
    exact Paging.perm_sortedBy.map _
  · exact memberRolesOf_served ▸ hc.memberRoles
  · rw [hc.threadMembers, mem_first_iff hfirst]
  · exact lookup_applied_of_first hfirst hc happly hu
  · rw [lookup_applied_of_first hfirst hc happly hu]
    exact hright

/-- A guild within the limits is fetched, and what is fetched is the whole
guild exactly if the members of its threads are on the first page. -/
theorem fetched_whole_iff (h : Home) :
    (h.Within → ∃ c, fetchGuildSnapshot h = some c) ∧
      ∀ c, fetchGuildSnapshot h = some c → (Whole h c ↔ h.OnFirstPage) :=
  ⟨exists_fetchGuildSnapshot,
    fun _ hfetch => ⟨onFirstPage_of_whole hfetch, whole_of_onFirstPage hfetch⟩⟩

/-! ## Two guilds -/

/-- A guild that is small altogether is within the limits of each page. -/
theorem within_of_small (hroles : h.roles.length ≤ 10000)
    (hmemberRoles : h.memberRoles.length ≤ 100000) (hover : h.overwrites.length ≤ 100000)
    (hthreads : h.threadMembers.entries.length ≤ 100000)
    (hmembers : h.members.length ≤ maxSnapshotMembers) : h.Within := by
  refine ⟨fun k => ⟨hroles, ?_, ?_, ?_⟩, hmembers, hmemberRoles.trans (by decide)⟩
  · exact (List.length_filter_le _ _).trans hmemberRoles
  · exact (List.length_filter_le _ _).trans hover
  · rw [Home.threadMembersOf, List.length_map]
    exact (List.length_filter_le _ _).trans hthreads

/-- The owner and one more member, who is in the thread. -/
def smallHome : Home where
  nextEventSeq := 5
  owner := ⟨1, "remote.example"⟩
  roles := [9]
  channels := [(30, { thread := true })]
  members := [{ user := ⟨1, "remote.example"⟩ }, { user := ⟨7, "local.example"⟩ }]
  memberRoles := []
  overwrites := []
  threadMembers := (∅ : Table (Nat × UserRef) ThreadMember).insert (30, ⟨7, "local.example"⟩) {}
  members_nodup := by decide
  members_parsed := by decide +kernel
  memberRoles_linked := by decide
  threadMembers_linked := by decide

theorem small_guild_fetched_whole : ∃ c, fetchGuildSnapshot smallHome = some c ∧
    Whole smallHome c := by
  have hwithin : smallHome.Within :=
    within_of_small (by decide) (by decide) (by decide) (by decide) (by decide)
  have hfirst : smallHome.OnFirstPage := by
    intro k hk _
    obtain ⟨m, hm, hu⟩ := List.mem_map.mp (smallHome.threadMembers_linked k hk)
    rw [List.take_of_length_le (by rw [Home.length_served]; decide)]
    exact List.mem_map.mpr ⟨m, Home.mem_served.mpr hm, hu⟩
  obtain ⟨c, hc⟩ := (fetched_whole_iff smallHome).1 hwithin
  exact ⟨c, hc, ((fetched_whole_iff smallHome).2 c hc).mpr hfirst⟩

def largeMember (id : Nat) : HomeMember := { user := ⟨id, "remote.example"⟩ }

theorem largeMembers_sorted (n : Nat) :
    ((List.range n).map largeMember).Pairwise (HomeMember.key · < HomeMember.key ·) := by
  refine List.pairwise_map.mpr (List.pairwise_lt_range.imp ?_)
  intro i j hij
  exact Prod.Lex.toLex_lt_toLex.mpr (.inr ⟨rfl, hij⟩)

theorem largeMembers_nodup (n : Nat) :
    (((List.range n).map largeMember).map HomeMember.user).Nodup := by
  rw [List.map_map]
  exact List.nodup_range.map fun i j hij => congrArg UserRef.id hij

/-- The members `0` to `n`, the last of them in the thread. -/
def largeHome (n : Nat) : Home where
  nextEventSeq := 5
  owner := ⟨0, "remote.example"⟩
  roles := [9]
  channels := [(30, { thread := true })]
  members := (List.range (n + 1)).map largeMember
  memberRoles := []
  overwrites := []
  threadMembers :=
    (∅ : Table (Nat × UserRef) ThreadMember).insert (30, ⟨n, "remote.example"⟩) {}
  members_nodup := largeMembers_nodup (n + 1)
  members_parsed := by
    intro m hm
    obtain ⟨i, -, rfl⟩ := List.mem_map.mp hm
    show (normalizeDomain "remote.example").toOption = some "remote.example"
    decide +kernel
  memberRoles_linked := by
    intro r hr
    exact absurd hr List.not_mem_nil
  threadMembers_linked := by
    intro k hk
    obtain rfl : k = (30, ⟨n, "remote.example"⟩) := by simpa using hk
    exact List.mem_map.mpr ⟨largeMember n, List.mem_map.mpr ⟨n, by simp, rfl⟩, rfl⟩

theorem largeHome_served (n : Nat) :
    (largeHome n).served = (List.range (n + 1)).map largeMember :=
  Paging.eq_of_pairwise Paging.perm_sortedBy Home.served_pairwise (largeMembers_sorted (n + 1))

theorem largeHome_within {n : Nat} (hn : n < maxSnapshotMembers) : (largeHome n).Within := by
  refine within_of_small (by simp [largeHome]) (by simp [largeHome]) (by simp [largeHome])
    (by simp [largeHome]) ?_
  rw [← Home.length_served, largeHome_served, List.length_map, List.length_range]
  exact hn

theorem largeHome_late {n : Nat} (hn : 1000 ≤ n) : (⟨n, "remote.example"⟩ : UserRef) ∉
    ((largeHome n).served.take 1000).map HomeMember.user := by
  rw [largeHome_served, ← List.map_take, List.take_range, List.map_map]
  intro hmem
  obtain ⟨i, hi, hu⟩ := List.mem_map.mp hmem
  have hid : i = n := congrArg UserRef.id hu
  rw [List.mem_range, hid] at hi
  omega

/-- With a member more than a page has: the last one is not in the thread of the
fetched guild, and a replica that applies it and lets the member in has no row
for them. -/
theorem late_thread_member_lost :
    ∃ c, fetchGuildSnapshot (largeHome 1000) = some c ∧ ¬ Whole (largeHome 1000) c ∧
      (largeHome 1000).threadRow 30 ⟨1000, "remote.example"⟩ = some {} ∧
      ∀ (domain : String) (s t : Replica) (required : Option UserRef),
        applyGuildSnapshot domain s c required = some t → t.isMember ⟨1000, "remote.example"⟩ →
          t.threadMembers.lookup (30, ⟨1000, "remote.example"⟩) = none := by
  obtain ⟨c, hc⟩ := exists_fetchGuildSnapshot (largeHome_within (n := 1000) (by decide))
  refine ⟨c, hc, fun hwhole => ?_, by decide, fun domain s t required happly hu => ?_⟩
  · exact largeHome_late le_rfl (onFirstPage_of_whole hc hwhole (30, ⟨1000, "remote.example"⟩)
      (by decide) (by decide))
  · rw [lookup_applied (collected_of_fetch hc) happly hu,
      if_neg fun hin => largeHome_late le_rfl hin.2]

end GuildMirror

end Kaede
