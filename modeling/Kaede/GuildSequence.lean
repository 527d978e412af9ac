import Kaede.GuildMirror

/-!
# The sequence of a guild's events on its replica

The authority numbers its events. A replica applies the next one, and leaves
one that is not newer than its last alone. A snapshot carries the number of
the last event it includes.

How often an event is in the replica's state is counted beside it: an event
that changes the state counts once more, and a snapshot stands for every event
up to its number. What is looked at is the part of the state that authority
events add to: counters, memberships and roles.

Two operations do not keep to the sequence. A message event that is not newer
than the last is still stored where its row is missing, and a thread then
counts it again; a snapshot is applied whatever its number. `InSequence`
leaves these out. A snapshot with the number of the last event is in sequence
where it lists what the replica holds.
-/

namespace Kaede

namespace GuildMirror

/-! ## What is counted -/

structure Counters where
  messageCount : Nat
  totalMessageSent : Nat
  memberCount : Nat
deriving DecidableEq, Repr

def Channel.counters (c : Channel) : Counters :=
  ⟨c.messageCount, c.totalMessageSent, c.memberCount⟩

/-- The replicated state of the guild and its threads, as what is found in its
tables. -/
structure Tracked where
  counters : Nat → Option Counters
  members : UserRef → Option Member
  roles : Set Nat
  memberRoles : Set (UserRef × Nat)
  threadMembers : Nat × UserRef → Option ThreadMember

def Replica.tracked (s : Replica) : Tracked where
  counters id := (s.channels.lookup id).map Channel.counters
  members u := s.members.lookup u
  roles := {id | id ∈ s.roles}
  memberRoles := {r | r ∈ s.memberRoles}
  threadMembers k := s.threadMembers.lookup k

structure Counted where
  replica : Replica
  /-- How often the event with a number is in the state. -/
  counts : Nat → Nat := fun _ => 0

open Classical in
/-- An event that changes what is tracked counts once more. -/
noncomputable def countEvent (w : Counted) (seq : Nat) (t : Replica) : Nat → Nat :=
  if t.tracked = w.replica.tracked then w.counts
  else Function.update w.counts seq (w.counts seq + 1)

noncomputable def countInput (w : Counted) (i : Input) (t : Replica) : Nat → Nat :=
  match i with
  | .event e => countEvent w e.seq t
  | .snapshot p _ => fun n => if n ≤ p.snapshotSeq then 1 else 0
  | _ => w.counts

variable (domain : String)

/-- An operation that raises leaves everything as it was. -/
noncomputable def deliverCounted (w : Counted) (i : Input) : Counted :=
  match apply domain w.replica i with
  | some t => ⟨t, countInput w i t⟩
  | none => w

noncomputable def countStep (w : Counted) (i : Input) : Option Counted :=
  some (deliverCounted domain w i)

/-- The number an input carries. -/
def Input.seq : Input → Option Nat
  | .event e => some e.seq
  | .snapshot p _ => some p.snapshotSeq
  | _ => none

/-- Storing the message changes no counter: its channel is no thread, or it
starts the thread and its author is counted already. -/
def MessageEvent.Uncounted (e : MessageEvent) (s : Replica) : Prop :=
  ∀ c ∈ s.channels.lookup e.channel, c.thread = true →
    e.threadStarter = true ∧
      ((s.threadMembers.lookup (e.channel, e.author)).isSome ∨ ¬ c.memberCount < 1000)

instance (e : MessageEvent) (s : Replica) : Decidable (e.Uncounted s) :=
  inferInstanceAs (Decidable (∀ c ∈ s.channels.lookup e.channel, _ → _))

/-- A message event that is not newer than the last has its row, or the row was
made to go, or nothing counts it. -/
def MessageEvent.InSequence (e : MessageEvent) (s : Replica) : Prop :=
  e.stale s → (s.messages.lookup e.id).isSome ∨ e.id ≤ s.evictedThrough ∨ e.Uncounted s

/-- The rows that are let in are those of the replica: the counters of the
listed channels, the members with their roles, and the members of threads. -/
structure Snapshot.Restates (p : Snapshot) (s : Replica) (a : Admitted) : Prop where
  channels : ∀ c ∈ p.channels,
    (s.channels.lookup c.1).map Channel.counters = some c.2.counters
  roles : (∀ id ∈ p.roles, id ∈ s.roles) ∧ ∀ id ∈ s.roles, id ∈ p.roles
  members : ∀ m ∈ a.members, ∀ u ∈ m.user.ref, s.members.lookup u =
    some { m.row with temporary := m.row.temporary && u ∉ a.memberRoles.map Prod.fst }
  listed : ∀ u ∈ s.members.keys, u ∈ a.members.map fun m => m.user.raw
  memberRoles : (∀ r ∈ a.memberRoles, r ∈ s.memberRoles) ∧ ∀ r ∈ s.memberRoles, r ∈ a.memberRoles
  threadMembers : ∀ row ∈ admittedThreadMembers p a, s.threadMembers.lookup row.key = some row.row
  listedThreads : ∀ k ∈ s.threadMembers.keys, k ∈ (admittedThreadMembers p a).map
    SnapshotThreadMember.key

/-- A snapshot is newer than the last event, or has its number and lists what
the replica holds. -/
def Snapshot.InSequence (p : Snapshot) (s : Replica) : Prop :=
  s.lastEventSeq < p.snapshotSeq ∨ (s.lastEventSeq = p.snapshotSeq ∧
    p.Restates s (filterRemoteSnapshotMemberships domain s p))

/-- Whatever is applied is in sequence. -/
def InSequence (w : Counted) (i : Input) : Prop :=
  (apply domain w.replica i).isSome → match i with
    | .event (.message e) => e.InSequence w.replica
    | .snapshot p _ => p.InSequence domain w.replica
    | _ => True

/-! ## Message events -/

section

variable {s t : Replica} {e : MessageEvent} {c : Channel}

theorem lastEventSeq_joinThread (h : joinThread s e c = some t) :
    t.lastEventSeq = s.lastEventSeq := by
  unfold joinThread at h
  split at h
  · obtain rfl := Option.some.inj h
    rfl
  · split at h
    · obtain rfl := Option.some.inj h
      rfl
    · exact absurd h (by simp)

theorem lastEventSeq_countMessage (h : countMessage s e c = some t) :
    t.lastEventSeq = s.lastEventSeq := by
  unfold countMessage at h
  split at h
  · split at h
    · split at h
      · exact lastEventSeq_joinThread h
      · exact absurd h (by simp)
    · exact lastEventSeq_joinThread h
  · obtain rfl := Option.some.inj h
    rfl

theorem lastEventSeq_storeMessage (h : storeMessage s e c = some t) :
    t.lastEventSeq = (e.advanced s).lastEventSeq := by
  unfold storeMessage at h
  split at h
  · split at h
    · obtain rfl := Option.some.inj h
      rfl
    · exact absurd h (by simp)
  · split at h
    · rename_i hold
      obtain rfl := Option.some.inj h
      rw [MessageEvent.advanced, if_pos hold.1]
    · rw [lastEventSeq_countMessage h]

theorem messageEvent_seq (h : applyGuildMessageEvent s e = some t) :
    (e.seq ≤ s.lastEventSeq ∧ t.lastEventSeq = s.lastEventSeq) ∨
      (e.seq = s.lastEventSeq + 1 ∧ t.lastEventSeq = e.seq) := by
  unfold applyGuildMessageEvent at h
  split at h
  · rename_i hseq
    split at h
    · split at h
      · have hlast := lastEventSeq_storeMessage h
        rw [MessageEvent.advanced] at hlast
        split at hlast
        · rename_i hstale
          exact .inl ⟨hstale, hlast⟩
        · rename_i hstale
          exact .inr ⟨hseq.resolve_left hstale, hlast⟩
      · exact absurd h (by simp)
    · exact absurd h (by simp)
  · exact absurd h (by simp)

/-- A channel that is written back with its counters is tracked as before. -/
theorem tracked_insert_channel {id : Nat} {c' : Channel} (hc : s.channels.lookup id = some c)
    (hcount : c'.counters = c.counters) :
    ({ s with channels := s.channels.insert id c' } : Replica).tracked = s.tracked := by
  simp only [Replica.tracked, Tracked.mk.injEq, and_true]
  funext j
  rw [Table.lookup_insert_ite]
  split
  · rename_i hj
    rw [hj, hc, Option.map_some, Option.map_some, hcount]
  · rfl

/-- An author who is counted already is not counted again. -/
theorem tracked_joinThread {c' : Channel} (hc : s.channels.lookup e.channel = some c)
    (hcount : c'.counters = c.counters)
    (hin : (s.threadMembers.lookup (e.channel, e.author)).isSome ∨ ¬ c'.memberCount < 1000)
    (h : joinThread s e c' = some t) : t.tracked = s.tracked := by
  rw [joinThread, if_pos hin] at h
  obtain rfl := Option.some.inj h
  exact tracked_insert_channel hc hcount

theorem tracked_countMessage (hc : s.channels.lookup e.channel = some c)
    (hun : e.Uncounted s) (h : countMessage s e c = some t) : t.tracked = s.tracked := by
  unfold countMessage at h
  split at h
  · rename_i hthread
    obtain ⟨hstart, hin⟩ := hun c hc hthread
    rw [if_pos hstart] at h
    split at h
    · refine tracked_joinThread hc ?_ ?_ h
      · rfl
      · exact hin
    · exact absurd h (by simp)
  · obtain rfl := Option.some.inj h
    rfl

theorem tracked_storeMessage (hc : s.channels.lookup e.channel = some c) (hstale : e.stale s)
    (hseq : e.InSequence s) (h : storeMessage s e c = some t) : t.tracked = s.tracked := by
  have hadv : e.advanced s = s := if_pos hstale
  unfold storeMessage at h
  rw [hadv] at h
  split at h
  · split at h
    · obtain rfl := Option.some.inj h
      rfl
    · exact absurd h (by simp)
  · rename_i hnone
    split at h
    · obtain rfl := Option.some.inj h
      rfl
    · rename_i hold
      rcases hseq hstale with hrow | hgone | hun
      · rw [hnone] at hrow
        exact absurd hrow (by simp)
      · exact absurd ⟨hstale, hgone⟩ hold
      · -- the row that is written is not tracked
        rw [tracked_countMessage (s := { s with messages := s.messages.insert e.id e.row }) hc
          hun h]
        rfl

theorem tracked_messageEvent (hstale : e.stale s) (hseq : e.InSequence s)
    (h : applyGuildMessageEvent s e = some t) : t.tracked = s.tracked := by
  unfold applyGuildMessageEvent at h
  split at h
  · split at h
    · rename_i hc
      split at h
      · exact tracked_storeMessage hc hstale hseq h
      · exact absurd h (by simp)
    · exact absurd h (by simp)
  · exact absurd h (by simp)

end

/-! ## One input -/

section

variable {domain : String} {s t : Replica}

theorem memberEvent_seq {e : MemberEvent} (h : applyGuildMemberEvent domain s e = some t) :
    (e.seq ≤ s.lastEventSeq ∧ t = s) ∨ (e.seq = s.lastEventSeq + 1 ∧ t.lastEventSeq = e.seq) := by
  unfold applyGuildMemberEvent at h
  split at h
  · rename_i hold
    exact .inl ⟨hold, (Option.some.inj h).symm⟩
  · split at h
    · rename_i hnext
      refine .inr ⟨hnext, ?_⟩
      split at h
      · split at h
        · split at h
          · obtain rfl := Option.some.inj h
            rfl
          · split at h
            · obtain rfl := Option.some.inj h
              rfl
            · exact absurd h (by simp)
        · exact absurd h (by simp)
      · exact absurd h (by simp)
    · exact absurd h (by simp)

theorem redactionEvent_seq {seq : Nat} {valid : Bool}
    (h : applyGuildRedactionEvent s seq valid = some t) :
    (seq ≤ s.lastEventSeq ∧ t = s) ∨ (seq = s.lastEventSeq + 1 ∧ t.lastEventSeq = seq) := by
  unfold applyGuildRedactionEvent at h
  split at h
  · rename_i hold
    exact .inl ⟨hold, (Option.some.inj h).symm⟩
  · split at h
    · rename_i hnext
      obtain rfl := Option.some.inj h
      exact .inr ⟨hnext.1, rfl⟩
    · exact absurd h (by simp)

theorem mutationEvent_seq {e : MutationEvent} (h : applyGuildMutationEvent domain s e = some t) :
    (e.seq ≤ s.lastEventSeq ∧ t = s) ∨ (e.seq = s.lastEventSeq + 1 ∧ t.lastEventSeq = e.seq) := by
  unfold applyGuildMutationEvent at h
  split at h
  · rename_i hold
    exact .inl ⟨hold, (Option.some.inj h).symm⟩
  · split at h
    · rename_i hnext
      obtain ⟨t', -, rfl⟩ := Option.map_eq_some_iff.mp h
      exact .inr ⟨hnext.1, rfl⟩
    · exact absurd h (by simp)

/-- An event that is applied is the next, or is not newer than the last and
leaves the number and what is tracked. -/
theorem event_seq {e : Event} {counts : Nat → Nat}
    (hin : InSequence domain ⟨s, counts⟩ (.event e)) (h : applyEvent domain s e = some t) :
    (e.seq ≤ s.lastEventSeq ∧ t.lastEventSeq = s.lastEventSeq ∧ t.tracked = s.tracked) ∨
      (e.seq = s.lastEventSeq + 1 ∧ t.lastEventSeq = e.seq) := by
  cases e with
  | message e =>
      rcases messageEvent_seq h with ⟨hold, hlast⟩ | hnext
      · refine .inl ⟨hold, hlast, tracked_messageEvent hold (hin ?_) h⟩
        exact Option.isSome_of_eq_some h
      · exact .inr hnext
  | member e =>
      rcases memberEvent_seq h with ⟨hold, rfl⟩ | hnext
      · exact .inl ⟨hold, rfl, rfl⟩
      · exact .inr hnext
  | redaction seq requiresSnapshot valid =>
      simp only [applyEvent] at h
      split at h
      · exact absurd h (by simp)
      · rcases redactionEvent_seq h with ⟨hold, rfl⟩ | hnext
        · exact .inl ⟨hold, rfl, rfl⟩
        · exact .inr hnext
  | mutation e =>
      simp only [applyEvent] at h
      split at h
      · exact absurd h (by simp)
      · rcases mutationEvent_seq h with ⟨hold, rfl⟩ | hnext
        · exact .inl ⟨hold, rfl, rfl⟩
        · exact .inr hnext

theorem lastEventSeq_purgeAll : s.purgeAll.lastEventSeq = s.lastEventSeq :=
  foldl_frame Replica.purgeChannel Replica.lastEventSeq (fun _ _ => rfl) _ _

theorem lastEventSeq_accessRevocation {u : UserRef}
    (h : applyGuildAccessRevocation domain s u = some t) :
    t.lastEventSeq = s.lastEventSeq := by
  unfold applyGuildAccessRevocation at h
  split at h
  · obtain rfl := Option.some.inj h
    split
    · rw [lastEventSeq_purgeAll]
      rfl
    · rfl
  · exact absurd h (by simp)

/-- An operation of this instance has no number and leaves the last. -/
theorem lastEventSeq_own {i : Input} (hi : i.seq = none) (h : apply domain s i = some t) :
    t.lastEventSeq = s.lastEventSeq := by
  cases i with
  | event e => exact absurd hi (by simp [Input.seq])
  | snapshot p required => exact absurd hi (by simp [Input.seq])
  | beginJoin u limit =>
      simp only [apply, beginRemoteGuildJoin] at h
      split at h
      · exact absurd h (by simp)
      · split at h
        · obtain rfl := Option.some.inj h
          rfl
        · split at h
          · exact absurd h (by simp)
          · obtain rfl := Option.some.inj h
            rfl
  | leave u =>
      simp only [apply, leaveGuild] at h
      split at h
      · have hlast := lastEventSeq_accessRevocation h
        exact hlast
      · exact absurd h (by simp)
  | revokeAccess u => exact lastEventSeq_accessRevocation h
  | revokeInstance =>
      obtain rfl := Option.some.inj h
      exact lastEventSeq_purgeAll
  | purgeIntents stale =>
      obtain rfl := Option.some.inj h
      rfl
  | evict ids =>
      obtain rfl := Option.some.inj h
      rfl

theorem lastEventSeq_snapshot {p : Snapshot} {required : Option UserRef}
    (h : applyGuildSnapshot domain s p required = some t) : t.lastEventSeq = p.snapshotSeq := by
  unfold applyGuildSnapshot at h
  split at h
  · obtain rfl := Option.some.inj h
    rfl
  · exact absurd h (by simp)

end

/-! ## A snapshot that lists what is held -/

section

variable {domain : String} {s t : Replica} {p : Snapshot} {a : Admitted}

/-- Steps that leave what is read of the start leave it together. -/
theorem foldl_fixed {τ β γ : Type*} {f : τ → β → τ} {g : τ → γ} {x : γ} {l : List β}
    (hf : ∀ b ∈ l, ∀ t, g t = x → g (f t b) = x) {t : τ} (ht : g t = x) :
    g (l.foldl f t) = x := by
  induction l generalizing t with
  | nil => exact ht
  | cons b l ih =>
      refine ih (fun b' hb' => hf b' (List.mem_cons_of_mem b hb')) ?_
      exact hf b List.mem_cons_self t ht

/-- A value that is there already is written back. -/
theorem lookup_insert_self {κ α : Type*} [DecidableEq κ] {t t₀ : Table κ α} {k : κ} {v : α}
    (ht : t.lookup = t₀.lookup) (hv : t₀.lookup k = some v) :
    (t.insert k v).lookup = t₀.lookup := by
  funext j
  rw [Table.lookup_insert_ite]
  split
  · rename_i hj
    rw [hj, hv]
  · exact congrFun ht j

/-- What is read of the channels. -/
def channelCounters (channels : Table Nat Channel) (id : Nat) : Option Counters :=
  (channels.lookup id).map Channel.counters

theorem channelCounters_purgeChannel (s : Replica) (id : Nat) :
    channelCounters (s.purgeChannel id).channels = channelCounters s.channels := by
  funext j
  show ((s.channels.modify id _).lookup j).map Channel.counters = _
  rw [Table.lookup_modify, channelCounters]
  split
  · rw [Option.map_map]
    rfl
  · rfl

theorem channelCounters_kept :
    channelCounters (purgeOmitted (dropOmitted domain s a) p).channels =
      channelCounters s.channels := by
  have hpurge := foldl_frame Replica.purgeChannel (fun s => channelCounters s.channels)
    channelCounters_purgeChannel
  have hdrop : (dropOmitted domain s a).channels = s.channels :=
    foldl_frame Replica.markDeparted Replica.channels (fun _ _ => rfl) _ _
  rw [purgeOmitted, hpurge, hdrop]

theorem Snapshot.Restates.omittedMembers_eq (h : p.Restates s a) : omittedMembers s a = [] := by
  refine List.filter_eq_nil_iff.mpr fun u hu hnot => ?_
  exact of_decide_eq_true hnot (h.listed u hu)

/-- Nothing goes before the rows are written. -/
theorem Snapshot.Restates.kept (domain : String) (h : p.Restates s a) :
    (purgeOmitted (dropOmitted domain s a) p).members.lookup = s.members.lookup ∧
      (purgeOmitted (dropOmitted domain s a) p).threadMembers.lookup =
        s.threadMembers.lookup := by
  constructor
  · funext u
    rw [members_purgeOmitted, members_dropOmitted, Table.lookup_keep, h.omittedMembers_eq]
    exact if_pos (decide_eq_true List.not_mem_nil)
  · funext k
    rw [threadMembers_purgeOmitted, threadMembers_dropOmitted, Table.lookup_keep,
      h.omittedMembers_eq]
    exact if_pos (decide_eq_true List.not_mem_nil)

theorem Snapshot.Restates.counters (h : p.Restates s a) {channels : Table Nat Channel}
    (hkept : channelCounters channels = channelCounters s.channels) :
    channelCounters (installChannels channels p) = channelCounters s.channels := by
  refine foldl_fixed (g := channelCounters) (fun c hc t ht => ?_) hkept
  funext j
  rw [channelCounters, Table.lookup_insert_ite]
  split
  · rename_i hj
    rw [hj, channelCounters, h.channels c hc]
    rfl
  · exact congrFun ht j

theorem Snapshot.Restates.membersKept (h : p.Restates s a) {members : Table UserRef Member}
    (hkept : members.lookup = s.members.lookup) :
    (installMembers members a).lookup = s.members.lookup := by
  refine foldl_fixed (g := fun t : Table UserRef Member => t.lookup) (fun m hm t ht => ?_) hkept
  unfold installMember
  split
  · rename_i u hu
    exact lookup_insert_self ht (h.members m hm u hu)
  · exact ht

theorem Snapshot.Restates.threadMembersKept (h : p.Restates s a)
    {threadMembers : Table (Nat × UserRef) ThreadMember}
    (hkept : threadMembers.lookup = s.threadMembers.lookup) :
    (installThreadMembers threadMembers (admittedThreadMembers p a) a).lookup =
      s.threadMembers.lookup := by
  refine foldl_fixed (g := fun t : Table (Nat × UserRef) ThreadMember => t.lookup)
    (fun row hrow t ht => lookup_insert_self ht (h.threadMembers row hrow)) ?_
  funext k
  rw [Table.lookup_keep]
  split
  · exact congrFun hkept k
  · rename_i hgone
    cases hk : s.threadMembers.lookup k with
    | none => rfl
    | some row =>
        refine absurd ?_ hgone
        have hkey := AList.lookup_isSome.mp (Option.isSome_of_eq_some hk)
        exact Bool.or_eq_true_iff.mpr (.inr (decide_eq_true (h.listedThreads k hkey)))

theorem tracked_snapshot {required : Option UserRef}
    (hr : p.Restates s (filterRemoteSnapshotMemberships domain s p))
    (h : applyGuildSnapshot domain s p required = some t) : t.tracked = s.tracked := by
  unfold applyGuildSnapshot at h
  split at h
  · obtain rfl := Option.some.inj h
    rw [Replica.tracked, Replica.tracked, Tracked.mk.injEq]
    obtain ⟨hmembers, hthreads⟩ := hr.kept domain
    exact ⟨hr.counters channelCounters_kept, hr.membersKept hmembers,
      Set.ext fun id => ⟨hr.roles.1 id, hr.roles.2 id⟩,
      Set.ext fun r => ⟨hr.memberRoles.1 r, hr.memberRoles.2 r⟩, hr.threadMembersKept hthreads⟩
  · exact absurd h (by simp)

end

/-! ## Runs -/

/-- No event counts twice, and none that is still to come counts. -/
structure Ordered (w : Counted) : Prop where
  once : ∀ n, w.counts n ≤ 1
  future : ∀ n, w.replica.lastEventSeq < n → w.counts n = 0

/-- What an input does to the sequence. -/
structure Sequenced (w : Counted) (i : Input) (w' : Counted) : Prop where
  mono : w.replica.lastEventSeq ≤ w'.replica.lastEventSeq
  /-- The number stays, is that of the next event, or that of a snapshot. -/
  advance : w'.replica.lastEventSeq = w.replica.lastEventSeq ∨
    (∃ e, i = .event e ∧ e.seq = w.replica.lastEventSeq + 1 ∧ w'.replica.lastEventSeq = e.seq) ∨
    ∃ p required, i = .snapshot p required ∧ w'.replica.lastEventSeq = p.snapshotSeq
  /-- What is not newer than the last event changes nothing that is tracked. -/
  stale : ∀ n ∈ i.seq, n ≤ w.replica.lastEventSeq → w'.replica.tracked = w.replica.tracked

variable {domain : String}

theorem sequenced_deliver {w : Counted} {i : Input} (hi : InSequence domain w i) :
    Sequenced w i (deliverCounted domain w i) := by
  unfold deliverCounted
  split
  · rename_i t ht
    cases i with
    | event e =>
        rcases event_seq hi ht with ⟨_, hlast, htracked⟩ | ⟨hnext, hlast⟩
        · exact ⟨hlast.ge, .inl hlast, fun _ _ _ => htracked⟩
        · refine ⟨?_, .inr (.inl ⟨e, rfl, hnext, hlast⟩), fun n hn hle => ?_⟩
          · show w.replica.lastEventSeq ≤ t.lastEventSeq
            omega
          · obtain rfl : e.seq = n := Option.some.inj hn
            omega
    | snapshot p required =>
        have hlast := lastEventSeq_snapshot ht
        have hseq : p.InSequence domain w.replica := hi (Option.isSome_of_eq_some ht)
        refine ⟨?_, .inr (.inr ⟨p, required, rfl, hlast⟩), fun n hn hle => ?_⟩
        · show w.replica.lastEventSeq ≤ t.lastEventSeq
          rcases hseq with hnew | ⟨hsame, -⟩ <;> omega
        · obtain rfl : p.snapshotSeq = n := Option.some.inj hn
          rcases hseq with hnew | ⟨-, hheld⟩
          · omega
          · exact tracked_snapshot hheld ht
    | _ =>
        have hlast := lastEventSeq_own rfl ht
        exact ⟨hlast.ge, .inl hlast, fun n hn => absurd hn (by simp [Input.seq])⟩
  · exact ⟨le_rfl, .inl rfl, fun _ _ _ => rfl⟩

theorem countEvent_le {w : Counted} {seq : Nat} {t : Replica} (hw : Ordered w)
    (hseq : w.counts seq = 0 ∨ t.tracked = w.replica.tracked) (n : Nat) :
    countEvent w seq t n ≤ 1 := by
  unfold countEvent
  split
  · exact hw.once n
  · rename_i hne
    rcases hseq with hseq | hseq
    · by_cases hn : n = seq
      · rw [hn, Function.update_self, hseq]
      · rw [Function.update_of_ne hn]
        exact hw.once n
    · exact absurd hseq hne

theorem countEvent_of_ne {w : Counted} {seq n : Nat} {t : Replica} (hn : n ≠ seq) :
    countEvent w seq t n = w.counts n := by
  unfold countEvent
  split
  · rfl
  · exact Function.update_of_ne hn _ _

theorem ordered_deliver {w : Counted} {i : Input} (hw : Ordered w) (hi : InSequence domain w i) :
    Ordered (deliverCounted domain w i) := by
  unfold deliverCounted
  split
  · rename_i t ht
    cases i with
    | event e =>
        rcases event_seq hi ht with ⟨hold, hlast, htracked⟩ | ⟨hnext, hlast⟩
        · refine ⟨countEvent_le hw (.inr htracked), fun n hn => ?_⟩
          have hn' : w.replica.lastEventSeq < n := by
            rw [← hlast]
            exact hn
          show countEvent w e.seq t n = 0
          rw [countEvent_of_ne (by omega)]
          exact hw.future n hn'
        · refine ⟨countEvent_le hw (.inl (hw.future _ (by omega))), fun n hn => ?_⟩
          have hn' : e.seq < n := by
            rw [← hlast]
            exact hn
          show countEvent w e.seq t n = 0
          rw [countEvent_of_ne (by omega)]
          exact hw.future n (by omega)
    | snapshot p required =>
        refine ⟨fun n => ?_, fun n hn => ?_⟩
        · show (if n ≤ p.snapshotSeq then 1 else 0) ≤ 1
          split
          · exact le_rfl
          · exact Nat.zero_le 1
        · have hn' : p.snapshotSeq < n := by
            rw [← lastEventSeq_snapshot ht]
            exact hn
          exact if_neg (by omega)
    | _ =>
        have hlast := lastEventSeq_own rfl ht
        exact ⟨hw.once, fun n hn => hw.future n (hlast ▸ hn)⟩
  · exact hw

/-- In every state of a run in sequence, no event counts twice. A further input
in sequence does not take the number of the last event back, moves it to the
next event or to a snapshot, and changes nothing that is tracked if it is not
newer. -/
theorem guild_sequence_kept (domain : String) {id : Nat} {owner : UserRef} {is : List Input}
    {w : Counted}
    (hrun : Exec (countStep domain) (InSequence domain)
      { replica := { id := id, owner := owner } } is w) :
    (∀ n, w.counts n ≤ 1) ∧
      ∀ i, InSequence domain w i → Sequenced w i (deliverCounted domain w i) := by
  have hw : Ordered w := by
    refine Exec.invariant (fun w i w' hw hi hstep => ?_) hrun
      ⟨fun _ => Nat.zero_le 1, fun _ _ => rfl⟩
    obtain rfl := Option.some.inj hstep
    exact ordered_deliver hw hi
  exact ⟨hw.once, fun i hi => sequenced_deliver hi⟩

/-! ## A thread of a guild of `remote.example` -/

def threadOwner : UserRef := ⟨1, "remote.example"⟩

/-- The owner has written one message in the thread. -/
def threadSnapshot (seq : Nat) : Snapshot where
  snapshotSeq := seq
  owner := threadOwner
  roles := [9]
  channels := [(30, { thread := true, messageCount := 1, totalMessageSent := 1, memberCount := 1 })]
  members := [{ user := ⟨1, "remote.example"⟩ }]
  memberRoles := []
  overwrites := []
  threadMembers := [{ thread := 30, user := ⟨1, "remote.example"⟩ }]

/-- The event of a message in the thread. -/
def threadMessage (seq id : Nat) : Input :=
  .event (.message { seq := seq, id := id, channel := 30, author := threadOwner })

def threadStart : Counted := { replica := { id := 9, owner := threadOwner } }

/-- The snapshot comes twice and changes nothing the second time. The next
message is counted once, and its event changes nothing when it comes again. -/
theorem next_message_counted_once :
    ∃ w, Exec (countStep "local.example") (InSequence "local.example") threadStart
        [.snapshot (threadSnapshot 5) none, .snapshot (threadSnapshot 5) none,
          threadMessage 6 101] w ∧
      (w.replica.channels.lookup 30).map Channel.messageCount = some 2 ∧ w.counts 6 ≤ 1 ∧
      (deliverCounted "local.example" w (threadMessage 6 101)).replica.tracked =
        w.replica.tracked := by
  have hrun : Exec (countStep "local.example") (InSequence "local.example") threadStart
      [.snapshot (threadSnapshot 5) none, .snapshot (threadSnapshot 5) none, threadMessage 6 101]
      (deliverCounted "local.example"
        (deliverCounted "local.example"
          (deliverCounted "local.example" threadStart (.snapshot (threadSnapshot 5) none))
          (.snapshot (threadSnapshot 5) none))
        (threadMessage 6 101)) := by
    refine .cons (fun _ => .inl ?_) rfl (.cons (fun _ => .inr ⟨?_, ?_⟩) rfl
      (.cons (fun _ hstale => absurd hstale ?_) rfl (.nil _)))
    · show 0 < 5
      decide
    · decide +kernel
    · constructor
      all_goals decide +kernel
    · decide +kernel
  obtain ⟨honce, hnext⟩ := guild_sequence_kept "local.example" hrun
  refine ⟨_, hrun, by decide +kernel, honce 6, (hnext (threadMessage 6 101) ?_).stale 6 rfl ?_⟩
  · intro _ _
    exact .inl (by decide +kernel)
  · decide +kernel

/-- The snapshot with number 5 includes the message of event 5. The event comes
after it, the row of the message is missing, and the thread counts it again. A
snapshot with number 3 then takes the number back. -/
theorem stale_message_counted_twice :
    ∃ w, Exec (countStep "local.example") Always threadStart
        [.snapshot (threadSnapshot 5) none, threadMessage 5 100] w ∧
      w.counts 5 = 2 ∧ (w.replica.channels.lookup 30).map Channel.messageCount = some 2 ∧
      w.replica.lastEventSeq = 5 ∧
      (deliverCounted "local.example" w (.snapshot (threadSnapshot 3) none)).replica.lastEventSeq =
        3 := by
  refine ⟨_, .cons trivial rfl (.cons trivial rfl (.nil _)), ?_, by decide +kernel,
    by decide +kernel, by decide +kernel⟩
  show countEvent _ 5 _ 5 = 2
  rw [countEvent, if_neg, Function.update_self]
  · rfl
  · intro heq
    exact absurd (congrArg (fun k => k.counters 30) heq) (by decide +kernel)

end GuildMirror

end Kaede
