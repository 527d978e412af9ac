import Kaede.PermissionCache

/-!
# Calculations from rows of several states

`calculate_permissions` reads one row after another, each from the state
that is committed by then. In terms of seats the reads of two states that
are `SameReads` apart can be exchanged one by one, so a calculation whose
rows come from such states gives the mask of any of them (`step_held`).
-/

namespace Kaede

open Permission

/-! ## Calculations in terms of seats -/

namespace Seat

/-- The parent of a thread. -/
def threadParent (seats : Nat → Option Seat) (s : Seat) : Except GuildError Seat :=
  found ((s.parentId.bind seats).filter fun p => p.type.isThreadParent) .channelParentInvalid

/-- The channel itself, or the category it follows. -/
def source (seats : Nat → Option Seat) (s : Seat) : Except GuildError Seat :=
  match s.parentId with
  | none => .ok s
  | some p =>
      if s.permissionsSynced then
        found ((seats p).filter fun c => c.type = .category) .channelParentInvalid
      else .ok s

def base (seats : Nat → Option Seat) (s : Seat) : Except GuildError Seat :=
  if s.type.isThread then s.threadParent seats else .ok s

end Seat

theorem map_found {ε α β : Type} (f : α → β) (o : Option α) (e : ε) :
    f <$> found o e = found (o.map f) e := by
  cases o <;> rfl

theorem map_filter_comp {α β : Type} (f : α → β) (p : β → Bool) (o : Option α) :
    (o.filter fun a => p (f a)).map f = (o.map f).filter p := by
  cases o with
  | none => rfl
  | some a =>
      cases hp : p (f a) <;> simp [Option.filter, hp]

namespace Channel

variable {c : Channel}

theorem seat_parentId (hcat : c.type ≠ .category) : c.seat.parentId = c.parentId := if_neg hcat

theorem seat_permissionsSynced (hok : c.SyncOk) :
    c.seat.permissionsSynced = c.permissionsSynced := by
  cases hs : c.permissionsSynced with
  | false => simp [seat, hs]
  | true => simp [seat, hs, (hok hs).2]

/-- A synced seat has a parent. -/
theorem seat_parent (hok : c.SyncOk) (h : c.seat.permissionsSynced = true) :
    c.seat.parentId ≠ none := by
  rw [seat_permissionsSynced hok] at h
  rw [seat_parentId (hok h).2]
  exact (hok h).1

theorem seat_category (h : c.seat.type = .category) : c.seat.permissionsSynced = false := by
  have hcat : c.type = .category := h
  simp [seat, hcat]

end Channel

namespace Guild

variable {g g' : Guild} {c : Channel}

def seats (g : Guild) (id : Nat) : Option Seat := (g.channel? id).map Channel.seat

theorem seats_eq_some {id : Nat} {s : Seat} (h : g.seats id = some s) :
    ∃ c, g.channel? id = some c ∧ c.seat = s ∧ s.id = id := by
  obtain ⟨c, hc, rfl⟩ := Option.map_eq_some_iff.mp h
  have hid : c.id = id := key_of_lookupBy hc
  exact ⟨c, hc, rfl, hid⟩

theorem map_seat_threadParent (hthread : c.type.isThread = true) :
    Channel.seat <$> g.threadParent c = c.seat.threadParent g.seats := by
  have hcat : c.type ≠ .category := by
    intro hcat
    rw [hcat] at hthread
    cases hthread
  rw [threadParent, map_found, Seat.threadParent, Channel.seat_parentId hcat]
  congr 1
  cases c.parentId with
  | none => rfl
  | some p => exact map_filter_comp Channel.seat (fun s => s.type.isThreadParent) (g.channel? p)

theorem map_seat_overwriteSourceChannel (hok : c.SyncOk) :
    Channel.seat <$> g.overwriteSourceChannel c = c.seat.source g.seats := by
  by_cases hcat : c.type = .category
  · have hs : c.permissionsSynced = false := by
      rw [Bool.eq_false_iff]
      exact fun hs => (hok hs).2 hcat
    have hnone : c.seat.parentId = none := if_pos hcat
    rw [overwriteSourceChannel, Seat.source, hnone]
    cases c.parentId with
    | none => rfl
    | some p =>
        simp only [hs, Bool.false_eq_true, if_false]
        rfl
  · rw [overwriteSourceChannel, Seat.source, Channel.seat_parentId hcat,
      Channel.seat_permissionsSynced hok]
    cases c.parentId with
    | none => rfl
    | some p =>
        cases c.permissionsSynced with
        | false => rfl
        | true =>
            simp only [if_true, map_found]
            congr 1
            exact map_filter_comp Channel.seat (fun s => s.type = .category) (g.channel? p)

/-- `overwritesOf`, from the seat alone. -/
def seatOverwrites (g : Guild) (s : Seat) : Except GuildError (List PermissionOverwrite) :=
  (fun source => g.ownOverwrites source.id) <$> (s.base g.seats >>= Seat.source g.seats)

theorem threadParent_row {p : Channel} (h : g.threadParent c = .ok p) :
    ∃ id, g.channel? id = some p := by
  rw [threadParent, found_eq_ok, Option.filter_eq_some_iff, Option.bind_eq_some_iff] at h
  obtain ⟨⟨id, -, hp⟩, -⟩ := h
  exact ⟨id, hp⟩

theorem map_seat_overwriteChannel (hg : g.ChannelSchema) (hok : c.SyncOk) :
    Channel.seat <$> g.overwriteChannel c = c.seat.base g.seats >>= Seat.source g.seats := by
  cases hthread : c.type.isThread with
  | false =>
      have hbase : c.seat.base g.seats = .ok c.seat := if_neg (Bool.eq_false_iff.mp hthread)
      rw [overwriteChannel, hthread, hbase]
      exact map_seat_overwriteSourceChannel hok
  | true =>
      have hbase : c.seat.base g.seats = c.seat.threadParent g.seats := if_pos hthread
      rw [overwriteChannel, if_pos hthread, hbase, ← map_seat_threadParent hthread]
      cases hparent : g.threadParent c with
      | error e => rfl
      | ok p =>
          obtain ⟨id, hp⟩ := threadParent_row hparent
          exact map_seat_overwriteSourceChannel (hg.syncOk hp)

theorem overwritesOf_eq_seatOverwrites (hg : g.ChannelSchema) (hok : c.SyncOk) :
    g.overwritesOf c = g.seatOverwrites c.seat := by
  rw [seatOverwrites, ← map_seat_overwriteChannel hg hok, overwritesOf]
  cases g.overwriteChannel c <;> rfl

theorem base_stored {s b : Seat} (hs : g.seats s.id = some s) (h : s.base g.seats = .ok b) :
    g.seats b.id = some b := by
  rw [Seat.base] at h
  split at h
  · rw [Seat.threadParent, found_eq_ok, Option.filter_eq_some_iff, Option.bind_eq_some_iff] at h
    obtain ⟨⟨p, -, hp⟩, -⟩ := h
    obtain ⟨-, -, -, hid⟩ := seats_eq_some hp
    rwa [hid]
  · obtain rfl := Except.ok.inj h
    exact hs

/-- The overwrites that count belong to a channel that is not synced. -/
theorem source_stored (hg : g.ChannelSchema) {b source : Seat} (hb : g.seats b.id = some b)
    (h : b.source g.seats = .ok source) :
    g.seats source.id = some source ∧ source.permissionsSynced = false := by
  obtain ⟨c, hc, rfl, -⟩ := seats_eq_some hb
  have hown : c.seat.permissionsSynced = true → c.seat.parentId ≠ none :=
    Channel.seat_parent (hg.syncOk hc)
  rw [Seat.source] at h
  split at h
  · next hnone =>
      obtain rfl := Except.ok.inj h
      exact ⟨hb, Bool.eq_false_iff.mpr fun hs => hown hs hnone⟩
  · split at h
    · rw [found_eq_ok, Option.filter_eq_some_iff, decide_eq_true_eq] at h
      obtain ⟨hp, hcat⟩ := h
      obtain ⟨d, -, rfl, hid⟩ := seats_eq_some hp
      exact ⟨by rwa [hid], Channel.seat_category hcat⟩
    · next hs =>
        obtain rfl := Except.ok.inj h
        exact ⟨hb, Bool.eq_false_iff.mpr hs⟩

namespace SameReads

variable {viewer : UserRef}

theorem seats_eq (h : SameReads g g' viewer) : g'.seats = g.seats := funext h.seats

theorem seatOverwrites_eq (h : SameReads g g' viewer) (hg : g.ChannelSchema) {s : Seat}
    (hs : g.seats s.id = some s) : g'.seatOverwrites s = g.seatOverwrites s := by
  rw [seatOverwrites, h.seats_eq, seatOverwrites]
  cases hsource : s.base g.seats >>= Seat.source g.seats with
  | error e => rfl
  | ok source =>
      obtain ⟨b, hbase, hb⟩ := bind_eq_ok.mp hsource
      obtain ⟨hstored, hsynced⟩ := source_stored hg (base_stored hs hbase) hb
      obtain ⟨c, hc, hseat, -⟩ := seats_eq_some hstored
      have hown := h.own source.id c hc (by rw [hseat, hsynced])
      simp only [Except.map_ok, hown]

theorem toGuildRow_eq (h : SameReads g g' viewer)
    (hgeneration : g'.permissionGeneration = g.permissionGeneration) :
    g'.toGuildRow = g.toGuildRow := by
  have hid := h.guildId
  have hdomain := h.domain
  have howner := h.owner
  have honboarding := h.onboarding
  cases hrow : g.toGuildRow
  cases hrow' : g'.toGuildRow
  simp_all

end SameReads

/-- The mask of a human member in a state. -/
def permissionsAt (g : Guild) (actor : UserRef) (scope : Option Nat) (now : Nat) :
    Except GuildError Nat :=
  match scope with
  | none => g.calculatePermissions (human actor) none now
  | some id => do
      let channel ← found (g.channel? id) .channelNotFound
      g.calculatePermissions (human actor) (some channel) now

theorem permissionsAt_channel (g : Guild) (actor : UserRef) (id now : Nat) :
    g.permissionsAt actor (some id) now = (found (g.channel? id) .channelNotFound >>= fun c =>
      g.calculatePermissions (human actor) (some c) now) := rfl

end Guild

/-! ## Rows in hand -/

/-- What the rows of a request say about a state. -/
structure RowsHeld (g : Guild) (actor : UserRef) (scope : Option Nat) (rows : Loaded) : Prop where
  guild : rows.guild = g.toGuildRow
  member : g.member? actor = some rows.member
  scope : rows.channel.map Channel.id = scope
  channel : ∀ c, rows.channel = some c → g.seats c.id = some c.seat ∧ c.SyncOk

/-- These are the overwrites a calculation in this state applies. -/
def OverwritesHeld (g : Guild) (rows : Loaded) (overwrites : List PermissionOverwrite) : Prop :=
  match rows.channel with
  | none => overwrites = []
  | some c => g.seatOverwrites c.seat = .ok overwrites

/-- What has been read so far is what this state has. -/
def ReadingHeld (g : Guild) (actor : UserRef) (rows : Loaded) (evaluatedAt : Option Nat) :
    PermissionReading → Prop
  | .roles => True
  | .threadParent roles thread =>
      roles = g.rolesOf actor ∧ rows.channel = some thread ∧ thread.type.isThread = true
  | .category roles channel =>
      roles = g.rolesOf actor ∧ channel.SyncOk ∧
        ∃ c, rows.channel = some c ∧ c.seat.base g.seats = .ok channel.seat
  | .overwrites roles channel =>
      roles = g.rolesOf actor ∧ ∃ c, rows.channel = some c ∧
        (c.seat.base g.seats >>= Seat.source g.seats) = .ok channel.seat
  | .threadMember roles overwrites thread current =>
      roles = g.rolesOf actor ∧ rows.channel = some thread ∧ OverwritesHeld g rows overwrites ∧
        ∀ t ∈ evaluatedAt, current = t

namespace PermissionRows

/-- `resolve_permissions`, on the rows. -/
def granted (rows : PermissionRows) (actor : User) (now : Nat) : Nat :=
  resolvePermissions (rows.guild.owner = actor.ref)
    (actor.ref.id, actor.ref.domain) (rows.guild.id, rows.guild.domain)
    (rows.roles.map fun r => (r.id, rows.guild.domain))
    (rows.roles.foldl (fun mask r => mask ||| r.permissions) 0)
    rows.overwrites (rows.channel.map Channel.type) (rows.member.timedOut now)

theorem resolve_eq (rows : PermissionRows) (actor : User) (now : Nat) :
    rows.resolve actor now = if rows.channel.any (fun c => c.type = .privateThread) ∧
      rows.granted actor now &&& manageThreads = 0 ∧ ¬ rows.threadMember then 0
      else rows.granted actor now := rfl

end PermissionRows

namespace Loaded

/-- The mask, once everything is read. -/
def mask (rows : Loaded) (actor : UserRef) (roles : List Role)
    (overwrites : List PermissionOverwrite) (threadMember : Bool) (now : Nat) : Nat :=
  let read := rows.permissionRows roles overwrites threadMember
  read.restrict (human actor) (read.resolve (human actor) now)

end Loaded

section

variable {g g' : Guild} {actor : UserRef} {scope evaluatedAt : Option Nat} {rows : Loaded}
  {overwrites : List PermissionOverwrite} {now : Nat}

theorem decision_human (member : GuildMember) (channel : Option Channel) :
    g.decision (human actor) channel now member overwrites
      = Loaded.mask ⟨channel, g.toGuildRow, member⟩ actor (g.rolesOf actor) overwrites
          (channel.any fun c => (c.id, actor) ∈ g.threadMembers) now := rfl

/-- The rows may be older than the state, as long as they sit in the same
place. -/
theorem mask_congr {c c' : Channel} (htype : c'.type = c.type) (guild : GuildRow)
    (member : GuildMember) (roles : List Role) (threadMember : Bool) :
    Loaded.mask ⟨some c', guild, member⟩ actor roles overwrites threadMember now
      = Loaded.mask ⟨some c, guild, member⟩ actor roles overwrites threadMember now := by
  cases c
  cases c'
  cases htype
  rfl

theorem RowsHeld.permissionsAt (hg : g.ChannelSchema) (h : RowsHeld g actor scope rows)
    (hoverwrites : OverwritesHeld g rows overwrites) :
    g.permissionsAt actor scope now = .ok (rows.mask actor (g.rolesOf actor) overwrites
      (rows.channel.any fun c => (c.id, actor) ∈ g.threadMembers) now) := by
  obtain ⟨channel, guild, member⟩ := rows
  obtain rfl : guild = g.toGuildRow := h.guild
  have hmember : g.member? (human actor).ref = some member := h.member
  cases channel with
  | none =>
      obtain rfl : none = scope := h.scope
      obtain rfl : overwrites = [] := hoverwrites
      rw [Guild.permissionsAt, Guild.calculatePermissions_guild, hmember]
      exact congrArg Except.ok (decision_human member none)
  | some c =>
      obtain rfl : some c.id = scope := h.scope
      obtain ⟨hseat, -⟩ := h.channel c rfl
      obtain ⟨c', hc', hseat', -⟩ := Guild.seats_eq_some hseat
      have hid : c'.id = c.id := congrArg Seat.id hseat'
      have htype : c'.type = c.type := congrArg Seat.type hseat'
      have happlied : g.overwritesOf c' = .ok overwrites := by
        rw [Guild.overwritesOf_eq_seatOverwrites hg (hg.syncOk hc'), hseat']
        exact hoverwrites
      rw [Guild.permissionsAt, hc']
      show g.calculatePermissions (human actor) (some c') now = _
      rw [Guild.calculatePermissions_eq, hmember, happlied]
      refine congrArg Except.ok ((decision_human member (some c')).trans ?_)
      rw [mask_congr htype, Option.any_some, Option.any_some, hid]

theorem resolve_true {roles : List Role} (threadMember : Bool) :
    (rows.permissionRows roles overwrites true).resolve (human actor) now
      = (rows.permissionRows roles overwrites threadMember).granted (human actor) now := by
  rw [PermissionRows.resolve_eq, if_neg]
  · rfl
  · exact fun h => h.2.2 rfl

/-- A calculation that does not have to know who has joined the thread. -/
theorem mask_of_not_read {roles : List Role} (threadMember : Bool)
    (h : ¬ ((rows.channel.any fun c => c.type = .privateThread) ∧
      (rows.permissionRows roles overwrites true).resolve (human actor) now
        &&& manageThreads = 0)) :
    rows.mask actor roles overwrites threadMember now
      = rows.mask actor roles overwrites true now := by
  rw [resolve_true threadMember] at h
  have hresolve : (rows.permissionRows roles overwrites threadMember).resolve (human actor) now
      = (rows.permissionRows roles overwrites true).resolve (human actor) now := by
    rw [resolve_true threadMember, PermissionRows.resolve_eq, if_neg]
    exact fun hnone => h ⟨hnone.1, hnone.2.1⟩
  show PermissionRows.restrict _ _ ((rows.permissionRows roles overwrites threadMember).resolve
    (human actor) now) = _
  rw [hresolve]
  rfl

/-- What a read has led to: the next read, or the mask for the time of
evaluation. -/
def ResultHeld (g : Guild) (actor : UserRef) (scope : Option Nat) (rows : Loaded)
    (evaluatedAt : Option Nat) : PermissionReading ⊕ Nat → Prop
  | .inl next => ReadingHeld g actor rows evaluatedAt next
  | .inr permissions => ∀ t ∈ evaluatedAt, g.permissionsAt actor scope t = .ok permissions

theorem conclude_held {current : Nat} (hg : g.ChannelSchema) (h : RowsHeld g actor scope rows)
    (hoverwrites : OverwritesHeld g rows overwrites) (hcurrent : ∀ t ∈ evaluatedAt, current = t) :
    ResultHeld g actor scope rows evaluatedAt
      (PermissionReading.conclude rows (human actor) (g.rolesOf actor) overwrites current) := by
  have hmask : ∀ t ∈ evaluatedAt, ¬ ((rows.channel.any fun c => c.type = .privateThread) ∧
      (rows.permissionRows (g.rolesOf actor) overwrites true).resolve (human actor) current
        &&& manageThreads = 0) →
      g.permissionsAt actor scope t
        = .ok (rows.mask actor (g.rolesOf actor) overwrites true current) := by
    intro t ht hpublic
    rw [← hcurrent t ht, h.permissionsAt hg hoverwrites, mask_of_not_read _ hpublic]
  unfold PermissionReading.conclude
  cases hchannel : rows.channel with
  | none =>
      intro t ht
      refine hmask t ht ?_
      rw [hchannel]
      simp
  | some c =>
      simp only
      split
      · exact ⟨rfl, hchannel, hoverwrites, hcurrent⟩
      · next hpublic =>
          intro t ht
          refine hmask t ht ?_
          rw [hchannel, Option.any_some, decide_eq_true_eq]
          exact hpublic

/-- The channel whose overwrites count is at hand, or one read away. -/
theorem ofOverwriteChannel_held {c b : Channel} (hok : b.SyncOk) (hchannel : rows.channel = some c)
    (hbase : c.seat.base g.seats = .ok b.seat) :
    ReadingHeld g actor rows evaluatedAt
      (PermissionReading.ofOverwriteChannel (g.rolesOf actor) b) := by
  unfold PermissionReading.ofOverwriteChannel
  split
  · exact ⟨rfl, hok, c, hchannel, hbase⟩
  · next hown =>
      refine ⟨rfl, c, hchannel, ?_⟩
      rw [hbase]
      show b.seat.source g.seats = _
      rw [← Guild.map_seat_overwriteSourceChannel hok, Guild.overwriteSourceChannel]
      cases hparent : b.parentId with
      | none => rfl
      | some p =>
          have hs : ¬ b.permissionsSynced = true := by
            intro hs
            exact hown ⟨by rw [hparent]; exact Option.some_ne_none p, hs⟩
          simp only [hs]
          rfl

theorem step_held {reading : PermissionReading} {result : PermissionReading ⊕ Nat}
    (hg : g.ChannelSchema) (h : RowsHeld g actor scope rows)
    (hread : ReadingHeld g actor rows evaluatedAt reading)
    (hstep : reading.step g (human actor) rows evaluatedAt now = .ok result) :
    ResultHeld g actor scope rows evaluatedAt result := by
  have hcurrent : ∀ t ∈ evaluatedAt, evaluatedAt.getD now = t := by
    intro t ht
    rw [Option.mem_def.mp ht]
    rfl
  cases reading with
  | roles =>
      unfold PermissionReading.step at hstep
      cases hchannel : rows.channel with
      | none =>
          rw [hchannel] at hstep
          obtain rfl := Except.ok.inj hstep
          refine conclude_held hg h ?_ hcurrent
          rw [OverwritesHeld, hchannel]
      | some c =>
          rw [hchannel] at hstep
          obtain rfl := Except.ok.inj hstep
          split
          · next hthread => exact ⟨rfl, hchannel, hthread⟩
          · next hthread =>
              refine ofOverwriteChannel_held (h.channel c hchannel).2 hchannel ?_
              exact if_neg hthread
  | threadParent roles thread =>
      obtain ⟨rfl, hchannel, hthread⟩ := hread
      obtain ⟨parent, hparent, hstep⟩ := bind_eq_ok.mp hstep
      obtain rfl := Except.ok.inj hstep
      obtain ⟨id, hp⟩ := Guild.threadParent_row hparent
      refine ofOverwriteChannel_held (hg.syncOk hp) hchannel ?_
      have hbase : thread.seat.base g.seats = thread.seat.threadParent g.seats := if_pos hthread
      rw [hbase, ← Guild.map_seat_threadParent hthread, hparent]
      rfl
  | category roles channel =>
      obtain ⟨rfl, hok, c, hchannel, hbase⟩ := hread
      obtain ⟨category, hcategory, hstep⟩ := bind_eq_ok.mp hstep
      obtain rfl := Except.ok.inj hstep
      refine ⟨rfl, c, hchannel, ?_⟩
      rw [hbase]
      show channel.seat.source g.seats = _
      rw [← Guild.map_seat_overwriteSourceChannel hok, hcategory]
      rfl
  | overwrites roles channel =>
      obtain ⟨rfl, c, hchannel, hsource⟩ := hread
      obtain rfl := Except.ok.inj hstep
      refine conclude_held hg h ?_ hcurrent
      rw [OverwritesHeld, hchannel]
      show g.seatOverwrites c.seat = _
      rw [Guild.seatOverwrites, hsource]
      rfl
  | threadMember roles overwrites thread current =>
      obtain ⟨rfl, hchannel, hoverwrites, hevaluated⟩ := hread
      obtain rfl := Except.ok.inj hstep
      intro t ht
      rw [← hevaluated t ht, h.permissionsAt hg hoverwrites, hchannel]
      rfl

/-! ### From one state to another -/

theorem RowsHeld.moved (h : RowsHeld g actor scope rows) (hsame : Guild.SameReads g g' actor)
    (hgeneration : g'.permissionGeneration = g.permissionGeneration) :
    RowsHeld g' actor scope rows := by
  refine ⟨?_, hsame.member.trans h.member, h.scope, ?_⟩
  · rw [h.guild, hsame.toGuildRow_eq hgeneration]
  · rw [hsame.seats_eq]
    exact h.channel

theorem OverwritesHeld.moved (h : OverwritesHeld g rows overwrites) (hg : g.ChannelSchema)
    (hrows : RowsHeld g actor scope rows) (hsame : Guild.SameReads g g' actor) :
    OverwritesHeld g' rows overwrites := by
  unfold OverwritesHeld at h ⊢
  cases hchannel : rows.channel with
  | none =>
      rw [hchannel] at h
      exact h
  | some c =>
      rw [hchannel] at h
      exact (hsame.seatOverwrites_eq hg (hrows.channel c hchannel).1).trans h

theorem ReadingHeld.moved {reading : PermissionReading}
    (h : ReadingHeld g actor rows evaluatedAt reading)
    (hg : g.ChannelSchema) (hrows : RowsHeld g actor scope rows)
    (hsame : Guild.SameReads g g' actor) : ReadingHeld g' actor rows evaluatedAt reading := by
  cases reading with
  | roles => trivial
  | threadParent roles thread => exact ⟨h.1.trans hsame.roles.symm, h.2⟩
  | category roles channel =>
      obtain ⟨hroles, hok, hbase⟩ := h
      rw [← hsame.seats_eq] at hbase
      exact ⟨hroles.trans hsame.roles.symm, hok, hbase⟩
  | overwrites roles channel =>
      obtain ⟨hroles, hsource⟩ := h
      rw [← hsame.seats_eq] at hsource
      exact ⟨hroles.trans hsame.roles.symm, hsource⟩
  | threadMember roles overwrites thread current =>
      obtain ⟨hroles, hchannel, hoverwrites, hcurrent⟩ := h
      exact ⟨hroles.trans hsame.roles.symm, hchannel, hoverwrites.moved hg hrows hsame, hcurrent⟩

theorem permissionsAt_moved (hg : g.ChannelSchema) (hg' : g'.ChannelSchema)
    (hsame : Guild.SameReads g g' actor) :
    g'.permissionsAt actor scope now = g.permissionsAt actor scope now := by
  have hmember : Guild.SameMember g g' (human actor).ref := hsame.toSameMember
  cases scope with
  | none => exact hmember.calculatePermissions now
  | some id =>
      rw [Guild.permissionsAt_channel, Guild.permissionsAt_channel]
      cases hc : g.channel? id with
      | none =>
          have hseat := hsame.seats id
          rw [hc, Option.map_none, Option.map_eq_none_iff] at hseat
          rw [hseat]
          rfl
      | some c =>
          obtain ⟨c', hc', hseat⟩ := hsame.seat hc
          rw [hc']
          have hid : c'.id = c.id := congrArg Seat.id hseat
          have hstored : g.seats c.seat.id = some c.seat := by
            show (g.channel? c.id).map Channel.seat = _
            rw [key_of_lookupBy hc, hc]
            rfl
          have hinputs : Guild.SameInputs g g' (human actor) c c' := by
            refine ⟨hmember, hid, congrArg Seat.type hseat, ?_, ?_, ?_⟩
            · rw [Guild.overwritesOf_eq_seatOverwrites hg' (hg'.syncOk hc'), hseat,
                hsame.seatOverwrites_eq hg hstored,
                Guild.overwritesOf_eq_seatOverwrites hg (hg.syncOk hc)]
            · rw [key_of_lookupBy hc]
              exact hsame.threads id c hc
            · rintro ⟨⟩
          exact hinputs.calculatePermissions now

/-- Time counts only through the timeout. -/
theorem permissionsAt_time {t t' : Nat}
    (h : ∀ m, g.member? actor = some m → m.timedOut t = m.timedOut t') :
    g.permissionsAt actor scope t = g.permissionsAt actor scope t' := by
  have hdecision : ∀ channel overwrites m, g.member? actor = some m →
      g.decision (human actor) channel t m overwrites
        = g.decision (human actor) channel t' m overwrites := by
    intro channel overwrites m hm
    simp only [Guild.decision, PermissionRows.resolve, h m hm]
  have hcalculate : ∀ channel, g.calculatePermissions (human actor) channel t
      = g.calculatePermissions (human actor) channel t' := by
    intro channel
    cases channel with
    | none =>
        rw [Guild.calculatePermissions_guild, Guild.calculatePermissions_guild]
        cases hm : g.member? (human actor).ref with
        | none => rfl
        | some m => exact congrArg Except.ok (hdecision none [] m hm)
    | some c =>
        rw [Guild.calculatePermissions_eq, Guild.calculatePermissions_eq]
        cases hm : g.member? (human actor).ref with
        | none => rfl
        | some m =>
            show (g.overwritesOf c >>= _) = (g.overwritesOf c >>= _)
            congr 1
            funext applied
            exact congrArg Except.ok (hdecision (some c) applied m hm)
  cases scope with
  | none => exact hcalculate none
  | some id =>
      rw [Guild.permissionsAt_channel, Guild.permissionsAt_channel]
      congr 1
      funext c
      exact hcalculate (some c)

end

end Kaede
