import Kaede.ChannelEffects
import Kaede.RoleHierarchy

/-!
# What the permission cache is keyed by

`get_permissions` stores a mask under the guild's `permission_generation`
and the member's `member_version`, so a transaction that changes the mask of
a human member has to raise one of the two. `SameReads` says that
everything a calculation reads is the same, read by read: its rows may come
from two states at once and still fit together. `Revised` is what every
transaction does for every viewer: neither counter goes back, and if both
stay, so does everything that is read.
-/

namespace Kaede

/-- A channel's place, less what no calculation reads: the parent of a
category. -/
structure Seat where
  id : Nat
  type : ChannelType
  parentId : Option Nat
  permissionsSynced : Bool
deriving DecidableEq, Repr

def Channel.seat (c : Channel) : Seat :=
  { id := c.id, type := c.type
    parentId := if c.type = .category then none else c.parentId
    permissionsSynced := c.type ≠ .category && c.permissionsSynced }

theorem Channel.seat_of_place {c c' : Channel} (h : c'.place = c.place) : c'.seat = c.seat := by
  simp only [Channel.place, Place.mk.injEq] at h
  simp only [Channel.seat, h]

namespace Guild

variable {g g' g'' : Guild} {viewer : UserRef}

/-! ## Reads -/

structure SameReads (g g' : Guild) (viewer : UserRef) : Prop extends SameMember g g' viewer where
  seats : ∀ id, (g'.channel? id).map Channel.seat = (g.channel? id).map Channel.seat
  own : ∀ id c, g.channel? id = some c → c.seat.permissionsSynced = false →
    g'.ownOverwrites id = g.ownOverwrites id
  threads : ∀ id c, g.channel? id = some c → c.type = .privateThread →
    ((id, viewer) ∈ g'.threadMembers ↔ (id, viewer) ∈ g.threadMembers)

theorem SameReads.seat (h : SameReads g g' viewer) {id : Nat} {c : Channel}
    (hc : g.channel? id = some c) : ∃ c', g'.channel? id = some c' ∧ c'.seat = c.seat :=
  exists_of_map_eq (h.seats id) hc

theorem SameReads.refl (g : Guild) (viewer : UserRef) : SameReads g g viewer :=
  ⟨⟨rfl, rfl, rfl, rfl, rfl, rfl, rfl⟩, fun _ => rfl, fun _ _ _ _ => rfl, fun _ _ _ _ => Iff.rfl⟩

theorem SameReads.trans (h : SameReads g g' viewer) (h' : SameReads g' g'' viewer) :
    SameReads g g'' viewer := by
  refine ⟨⟨h'.guildId.trans h.guildId, h'.domain.trans h.domain, h'.owner.trans h.owner,
    h'.onboarding.trans h.onboarding, h'.installations.trans h.installations,
    h'.member.trans h.member, h'.roles.trans h.roles⟩,
    fun id => (h'.seats id).trans (h.seats id), ?_, ?_⟩
  · intro id c hc hsynced
    obtain ⟨c', hc', hseat⟩ := h.seat hc
    rw [h'.own id c' hc' (by rw [hseat, hsynced]), h.own id c hc hsynced]
  · intro id c hc hprivate
    obtain ⟨c', hc', hseat⟩ := h.seat hc
    have htype : c'.type = c.type := congrArg Seat.type hseat
    rw [h'.threads id c' hc' (htype.trans hprivate), h.threads id c hc hprivate]

theorem SameReads.symm (h : SameReads g g' viewer) : SameReads g' g viewer := by
  refine ⟨⟨h.guildId.symm, h.domain.symm, h.owner.symm, h.onboarding.symm, h.installations.symm,
    h.member.symm, h.roles.symm⟩, fun id => (h.seats id).symm, ?_, ?_⟩
  · intro id c' hc' hsynced
    obtain ⟨c, hc, hseat⟩ := exists_of_map_eq (h.seats id).symm hc'
    exact (h.own id c hc (by rw [hseat, hsynced])).symm
  · intro id c' hc' hprivate
    obtain ⟨c, hc, hseat⟩ := exists_of_map_eq (h.seats id).symm hc'
    have htype : c.type = c'.type := congrArg Seat.type hseat
    exact (h.threads id c hc (htype.trans hprivate)).symm

/-- Rows that are paused, stamped or counted, and nothing else. -/
theorem sameReads_of_places (hmember : SameMember g g' viewer)
    (hplaces : ∀ id, (g'.channel? id).map Channel.place = (g.channel? id).map Channel.place)
    (hoverwrites : g'.overwrites = g.overwrites)
    (hthreads : ∀ id c, g.channel? id = some c → c.type = .privateThread →
      ((id, viewer) ∈ g'.threadMembers ↔ (id, viewer) ∈ g.threadMembers)) :
    SameReads g g' viewer := by
  refine ⟨hmember, ?_, ?_, hthreads⟩
  · intro id
    cases hc : g.channel? id with
    | none =>
        have hplace := hplaces id
        rw [hc, Option.map_none, Option.map_eq_none_iff] at hplace
        rw [hplace]
    | some c =>
        obtain ⟨c', hc', hplace⟩ := exists_of_map_eq (hplaces id) hc
        rw [hc', Option.map_some, Option.map_some, Channel.seat_of_place hplace]
  · intro id _ _ _
    rw [ownOverwrites, hoverwrites, ownOverwrites]

theorem Stamped.sameReads (h : Stamped g g') (viewer : UserRef) : SameReads g g' viewer := by
  refine sameReads_of_places (h.toSameElsewhere.sameMember viewer) ?_ h.overwrites ?_
  · intro id
    have hrow := congrArg (Option.map Prod.fst) (h.rows id)
    rwa [Option.map_map, Option.map_map] at hrow
  · intro id c _ _
    rw [h.threadMembers]

/-- A write that does not change permissions. Only a category can have
moved, and its parent is not read. -/
theorem ChannelWrite.sameReads {x : Nat} {sync : Bool} (h : ChannelWrite g g' x false sync)
    (viewer : UserRef) : SameReads g g' viewer := by
  have hseat : ∀ c c', g.channel? x = some c → g'.channel? x = some c' → c'.seat = c.seat := by
    intro c c' hc hc'
    by_cases hcat : c.type = .category
    · have hkind := h.kinds x
      rw [hc, hc', Option.map_some, Option.map_some, Option.some.injEq] at hkind
      simp only [Channel.kind, Prod.mk.injEq] at hkind
      simp [Channel.seat, hkind, hcat]
    · exact Channel.seat_of_place (h.place rfl c c' hc hc' hcat)
  refine ⟨h.toSameElsewhere.sameMember viewer, ?_, ?_, ?_⟩
  · intro id
    by_cases hid : id = x
    · subst hid
      cases hc : g.channel? id with
      | none =>
          have hkind := h.kinds id
          rw [hc, Option.map_none, Option.map_eq_none_iff] at hkind
          rw [hkind]
      | some c =>
          obtain ⟨c', hc', -⟩ := exists_of_map_eq (h.kinds id) hc
          rw [hc', Option.map_some, Option.map_some, hseat c c' hc hc']
    · rw [h.rows id hid]
  · intro id c hc hsynced
    by_cases hid : id = x
    · subst hid
      by_cases hcat : c.type = .category
      · exact h.category c hc hcat
      · -- its overwrites are its own before and after, and they count
        obtain ⟨c', hc', -⟩ := exists_of_map_eq (h.kinds id) hc
        have hplace := h.place rfl c c' hc hc' hcat
        simp only [Channel.place, Place.mk.injEq] at hplace
        have hown : c.permissionsSynced = false := by simpa [Channel.seat, hcat] using hsynced
        have hsource := h.source (.inl rfl) c c' hc hc'
        rw [sourceOverwrites_of_not_synced hown,
          sourceOverwrites_of_not_synced (hplace.2.2.2.2.trans hown), Except.ok.injEq,
          key_of_lookupBy hc, key_of_lookupBy hc'] at hsource
        exact hsource
    · exact h.own id hid
  · intro id c _ _
    rw [h.threadMembers]

/-! ## Counters -/

/-- `member_version`; members have a positive one. -/
def memberVersion (g : Guild) (viewer : UserRef) : Nat :=
  ((g.member? viewer).map GuildMember.memberVersion).getD 0

/-- The counters of the cache key. -/
def counters (g : Guild) (viewer : UserRef) : Nat × Nat :=
  (g.permissionGeneration, g.memberVersion viewer)

structure Revised (g g' : Guild) (viewer : UserRef) : Prop where
  generation : g.permissionGeneration ≤ g'.permissionGeneration
  version : g.memberVersion viewer ≤ g'.memberVersion viewer
  reads : g'.counters viewer = g.counters viewer → SameReads g g' viewer

theorem Revised.refl (g : Guild) (viewer : UserRef) : Revised g g viewer :=
  ⟨le_rfl, le_rfl, fun _ => SameReads.refl g viewer⟩

/-- Counters that come back have not moved in between. -/
theorem Revised.squeeze (h : Revised g g' viewer) (h' : Revised g' g'' viewer)
    (hkey : g''.counters viewer = g.counters viewer) :
    g'.counters viewer = g.counters viewer ∧ g''.counters viewer = g'.counters viewer := by
  simp only [counters, Prod.mk.injEq] at hkey ⊢
  have hgeneration := h.generation
  have hgeneration' := h'.generation
  have hversion := h.version
  have hversion' := h'.version
  omega

theorem Revised.trans (h : Revised g g' viewer) (h' : Revised g' g'' viewer) :
    Revised g g'' viewer := by
  refine ⟨h.generation.trans h'.generation, h.version.trans h'.version, ?_⟩
  intro hkey
  obtain ⟨hfirst, hsecond⟩ := h.squeeze h' hkey
  exact (h.reads hfirst).trans (h'.reads hsecond)

theorem memberVersion_congr (h : g'.members = g.members) :
    g'.memberVersion viewer = g.memberVersion viewer := by
  rw [memberVersion, member?, h, memberVersion, member?]

theorem Revised.of_sameReads (hgeneration : g'.permissionGeneration = g.permissionGeneration)
    (h : SameReads g g' viewer) : Revised g g' viewer := by
  refine ⟨hgeneration.ge, ?_, fun _ => h⟩
  rw [memberVersion, memberVersion, h.member]

theorem Revised.of_bump (hgeneration : g'.permissionGeneration = g.permissionGeneration + 1)
    (hmembers : g'.members = g.members) : Revised g g' viewer := by
  refine ⟨by omega, (memberVersion_congr hmembers).ge, ?_⟩
  intro hkey
  have hsame : g'.permissionGeneration = g.permissionGeneration := congrArg Prod.fst hkey
  omega

section

variable {target : UserRef} {f : GuildMember → GuildMember}

theorem member?_updateBy (hmembers : g'.members = updateBy GuildMember.user target f g.members)
    (hf : ∀ m, (f m).user = m.user) (user : UserRef) :
    g'.member? user = if user = target then (g.member? target).map f else g.member? user := by
  rw [member?, hmembers]
  exact lookupBy_updateBy fun m h => (hf m).trans h

/-- One member's version is raised, and what the others hold is left
alone. -/
theorem Revised.of_member (hmember : g.member? target ≠ none)
    (hmembers : g'.members = updateBy GuildMember.user target f g.members)
    (huser : ∀ m, (f m).user = m.user) (hversion : ∀ m, (f m).memberVersion = m.memberVersion + 1)
    (hgeneration : g'.permissionGeneration = g.permissionGeneration)
    (hothers : viewer ≠ target → SameReads g { g' with members := g.members } viewer) :
    Revised g g' viewer := by
  have hlookup := member?_updateBy hmembers huser viewer
  by_cases hviewer : viewer = target
  · subst hviewer
    obtain ⟨m, hm⟩ := Option.ne_none_iff_exists'.mp hmember
    have hraised : g'.memberVersion viewer = g.memberVersion viewer + 1 := by
      rw [memberVersion, hlookup, if_pos rfl, memberVersion, hm]
      exact hversion m
    refine ⟨hgeneration.ge, by omega, ?_⟩
    intro hkey
    have hsame : g'.memberVersion viewer = g.memberVersion viewer := congrArg Prod.snd hkey
    omega
  · rw [if_neg hviewer] at hlookup
    have h := hothers hviewer
    exact Revised.of_sameReads hgeneration ⟨⟨h.guildId, h.domain, h.owner, h.onboarding,
      h.installations, hlookup, h.roles⟩, h.seats, h.own, h.threads⟩

end

/-! ## Transactions -/

theorem queueGuildMutation_places (g : Guild) (event : GuildEvent) (pauseE2ee : Bool) (id : Nat) :
    ((g.queueGuildMutation event pauseE2ee).channel? id).map Channel.place
      = (g.channel? id).map Channel.place := by
  unfold queueGuildMutation
  split
  · have hid : ∀ c : Channel, c.pause.id = c.id :=
      fun c => congrArg Place.id (Channel.place_pause c)
    rw [pauseGuildE2ee, channel?, lookupBy_map hid, Option.map_map, channel?]
    congr 1
    funext c
    exact Channel.place_pause c
  · rfl

theorem foldl_queueGuildMutation_places (events : List GuildEvent) (g : Guild) (id : Nat) :
    ((events.foldl (fun state event => state.queueGuildMutation event true) g).channel? id).map
      Channel.place = (g.channel? id).map Channel.place := by
  induction events generalizing g with
  | nil => rfl
  | cons event rest ih =>
      rw [List.foldl_cons, ih, queueGuildMutation_places]

/-- Assignments of one member change, and the guild is told. -/
theorem revised_of_holders {target : UserRef} {f : GuildMember → GuildMember}
    {held : List (UserRef × Nat)} (events : List GuildEvent) (hmember : g.member? target ≠ none)
    (huser : ∀ m, (f m).user = m.user) (hversion : ∀ m, (f m).memberVersion = m.memberVersion + 1)
    (hheld : ∀ u r, u ≠ target → ((u, r) ∈ held ↔ (u, r) ∈ g.memberRoles)) :
    Revised g (events.foldl (fun state event => state.queueGuildMutation event true)
      ({ g with memberRoles := held }.updateMember target f)) viewer := by
  have hplaces := foldl_queueGuildMutation_places events
    ({ g with memberRoles := held }.updateMember target f)
  obtain ⟨channels, heq⟩ := foldl_queueGuildMutation events
    ({ g with memberRoles := held }.updateMember target f)
  rw [heq] at hplaces ⊢
  refine Revised.of_member hmember rfl huser hversion rfl ?_
  intro hviewer
  refine sameReads_of_places ⟨rfl, rfl, rfl, rfl, rfl, rfl, ?_⟩ hplaces rfl fun _ _ _ _ => Iff.rfl
  exact rolesOf_congr rfl rfl fun r => hheld viewer r hviewer

section

variable {actor target : UserRef} {mask roleId now : Nat}

theorem requireCanAssignMemberRole_member (h : g.requireCanAssignMemberRole actor target = .ok ()) :
    g.member? target ≠ none := by
  rw [requireCanAssignMemberRole, found_bind_eq_ok] at h
  obtain ⟨m, hm, -⟩ := h
  rw [hm]
  exact Option.some_ne_none m

theorem createRole_revised {payload : RoleCreate}
    (h : g.createRole mask payload roleId now = .ok g') : Revised g g' viewer := by
  simp only [createRole, check_bind_eq_ok, queueGuildMutation_eq] at h
  obtain ⟨-, -, -, h⟩ := h
  obtain rfl := Except.ok.inj h
  exact Revised.of_bump rfl rfl

theorem updateRole_revised {payload : RoleUpdate} {version : Option Nat}
    (h : g.updateRole actor mask roleId payload version now = .ok g') : Revised g g' viewer := by
  simp only [updateRole, check_bind_eq_ok, found_bind_eq_ok, queueGuildMutation_eq] at h
  obtain ⟨-, role, -, -, -, -, -, h⟩ := h
  split at h
  · obtain rfl := Except.ok.inj h
    exact Revised.refl g viewer
  · obtain rfl := Except.ok.inj h
    exact Revised.of_bump rfl rfl

theorem deleteRole_revised (h : g.deleteRole actor mask roleId = .ok g') : Revised g g' viewer := by
  simp only [deleteRole, check_bind_eq_ok, found_bind_eq_ok, queueGuildMutation_eq] at h
  obtain ⟨-, role, -, -, -, -, h⟩ := h
  obtain rfl := Except.ok.inj h
  exact Revised.of_bump rfl rfl

theorem reorderRoles_revised {payload : RolePositionBatch}
    (h : g.reorderRoles actor mask payload now = .ok g') : Revised g g' viewer := by
  obtain ⟨-, -, ceiling, roles, changed, -, -, rfl⟩ := reorderRoles_ok h
  cases changed with
  | false => exact Revised.refl g viewer
  | true =>
      rw [if_pos rfl, queueGuildMutation_eq]
      exact Revised.of_bump rfl rfl

theorem assignRole_revised (h : g.assignRole actor target mask roleId = .ok g') :
    Revised g g' viewer := by
  simp only [assignRole, check_bind_eq_ok, found_bind_eq_ok] at h
  obtain ⟨-, hassign, role, -, -, -, -, h⟩ := h
  split at h
  · obtain rfl := Except.ok.inj h
    exact Revised.refl g viewer
  · obtain rfl := Except.ok.inj h
    refine revised_of_holders [.memberRoleAdd] (requireCanAssignMemberRole_member hassign)
      (fun _ => rfl) (fun _ => rfl) ?_
    intro u r hu
    simp [hu]

theorem replaceMemberRoles_revised {roleIds : List Nat}
    (h : g.replaceMemberRoles actor target mask roleIds = .ok g') : Revised g g' viewer := by
  simp only [replaceMemberRoles, check_bind_eq_ok] at h
  obtain ⟨-, hassign, -, h⟩ := h
  split at h
  · obtain rfl := Except.ok.inj h
    exact Revised.refl g viewer
  · simp only [check_bind_eq_ok] at h
    obtain ⟨-, -, h⟩ := h
    obtain rfl := Except.ok.inj h
    refine revised_of_holders _ (requireCanAssignMemberRole_member hassign) (fun _ => rfl)
      (fun _ => rfl) ?_
    intro u r hu
    simp [hu, Ne.symm hu]

theorem removeRole_revised (h : g.removeRole actor target mask roleId = .ok g') :
    Revised g g' viewer := by
  simp only [removeRole, check_bind_eq_ok, found_bind_eq_ok] at h
  obtain ⟨-, hassign, role, -, -, -, h⟩ := h
  split at h
  · obtain rfl := Except.ok.inj h
    refine revised_of_holders [.memberRoleRemove] (requireCanAssignMemberRole_member hassign)
      (fun _ => rfl) (fun _ => rfl) ?_
    intro u r hu
    simp [hu]
  · obtain rfl := Except.ok.inj h
    exact Revised.refl g viewer

theorem handleRole_revised {call : RoleCall} (h : g.handleRole actor call = .ok g') :
    Revised g g' viewer := by
  unfold handleRole at h
  split at h
  · exact createRole_revised h
  · exact updateRole_revised h
  · exact deleteRole_revised h
  · exact reorderRoles_revised h
  · exact assignRole_revised h
  · exact replaceMemberRoles_revised h
  · exact removeRole_revised h

end

theorem unsync_frame {c : Channel} {g₁ : Guild} (h : g.unsync c = .ok g₁) :
    g₁.permissionGeneration = g.permissionGeneration ∧ g₁.members = g.members := by
  rw [unsync, bind_eq_ok] at h
  obtain ⟨source, -, h⟩ := h
  split at h
  · obtain rfl := Except.ok.inj h
    exact ⟨rfl, rfl⟩
  · obtain rfl := Except.ok.inj h
    exact ⟨rfl, rfl⟩

section

variable {x mask now : Nat}

theorem putOverwrite_revised {actor : UserRef} {target : OverwriteTarget} {allow deny : Nat}
    (h : g.putOverwrite actor mask x target allow deny now = .ok g') : Revised g g' viewer := by
  simp only [putOverwrite, bind_eq_ok, queueGuildMutation_eq] at h
  obtain ⟨channel, -, _, -, _, -, _, -, g₁, hunsync, _, -, h⟩ := h
  obtain rfl := Except.ok.inj h
  obtain ⟨hgeneration, hmembers⟩ := unsync_frame hunsync
  refine Revised.of_bump ?_ ?_
  · rw [← hgeneration]
    split <;> rfl
  · rw [← hmembers]
    split <;> rfl

theorem deleteOverwrite_revised {actor : UserRef} {target : OverwriteTarget}
    (h : g.deleteOverwrite actor mask x target now = .ok g') : Revised g g' viewer := by
  simp only [deleteOverwrite, bind_eq_ok, queueGuildMutation_eq] at h
  obtain ⟨channel, -, _, -, _, -, g₁, hunsync, _, -, h⟩ := h
  obtain rfl := Except.ok.inj h
  obtain ⟨hgeneration, hmembers⟩ := unsync_frame hunsync
  exact Revised.of_bump (congrArg (· + 1) hgeneration) hmembers

theorem syncChannelPermissions_revised {actor : User}
    (h : g.syncChannelPermissions actor mask x now = .ok g') : Revised g g' viewer := by
  simp only [syncChannelPermissions, bind_eq_ok, queueGuildMutation_eq] at h
  obtain ⟨_, -, _, -, _, -, _, -, _, -, _, -, h⟩ := h
  obtain rfl := Except.ok.inj h
  exact Revised.of_bump rfl rfl

theorem updateChannel_revised {actor : User} {payload : ChannelUpdate} {version : Option Nat}
    {ctx : ChannelUpdateContext} (hg : g.ChannelSchema)
    (h : g.updateChannel actor x payload version ctx now = .ok g') : Revised g g' viewer := by
  obtain ⟨changes, hwrite, hgeneration⟩ := updateChannel_write hg h
  cases changes with
  | false => exact Revised.of_sameReads hgeneration (hwrite.sameReads viewer)
  | true => exact Revised.of_bump hgeneration hwrite.members

/-- A batch in which no move changes permissions is one in which each
leaves alone what is read. -/
theorem applyMoves_sameReads {moves : List PlannedMove} {g₁ : Guild}
    (hplans : ∀ m ∈ moves, ∃ c, g.Planned m c ∧ c.type.isThread = false)
    (hnodup : (moves.map fun m => m.item.id).Nodup) (hmoves : applyMoves moves g = .ok g₁)
    (hkeep : moves.any (PlannedMove.changesPermissions g) = false) : SameReads g g₁ viewer := by
  refine (applyMoves_writes (R := fun g₀ g₁ => SameReads g₀ g₁ viewer)
    (P := fun m c => moveChanges m c = false) (fun g₀ => SameReads.refl g₀ viewer)
    (fun _ _ _ => SameReads.trans) ?_ ?_ hnodup hmoves).1
  · intro m _ c hstays g₀ g₁ _ hwrite
    rw [hstays] at hwrite
    exact hwrite.sameReads viewer
  · intro m hm
    obtain ⟨c, hplan, -⟩ := hplans m hm
    have hstays := List.any_eq_false.mp hkeep m hm
    rw [PlannedMove.changesPermissions, hplan.row, Option.any_some] at hstays
    exact ⟨c, hplan, Bool.eq_false_iff.mpr hstays⟩

theorem reorderChannels_revised {actor : User} {masks : Nat → Nat} {payload : ChannelPositionBatch}
    (hg : g.ChannelSchema) (h : g.reorderChannels actor mask masks payload now = .ok g') :
    Revised g g' viewer := by
  rcases reorderChannels_ok hg h with rfl | ⟨moves, g₁, hitems, hplans, hmoves, hstamped, hgen⟩
  · exact Revised.refl g' viewer
  have hnodup : (moves.map fun m => m.item.id).Nodup := by
    have hunique := payload.uniqueIds
    rwa [← hitems, List.map_map] at hunique
  obtain ⟨hmembers, hgeneration⟩ := applyMoves_writes (R := fun g₀ g₁ => g₁.members = g₀.members)
    (P := fun _ c => c.type.isThread = false) (fun _ => rfl) (fun _ _ _ h h' => h'.trans h)
    (fun _ _ _ _ _ _ _ hwrite => hwrite.members) hplans hnodup hmoves
  rw [hgeneration] at hgen
  cases hchanges : moves.any (PlannedMove.changesPermissions g) with
  | true =>
      rw [hchanges] at hgen
      exact Revised.of_bump hgen (hstamped.members.trans hmembers)
  | false =>
      rw [hchanges] at hgen
      exact Revised.of_sameReads hgen
        ((applyMoves_sameReads hplans hnodup hmoves hchanges).trans (hstamped.sameReads viewer))

/-- Who has joined a public thread is not read. -/
theorem changeThreadMembers_revised {thread : Channel} {f : Channel → Channel}
    {members : List (Nat × UserRef)} (hthread : g.channel? x = some thread)
    (hf : ∀ c : Channel, (f c).place = c.place)
    (hmembers : ∀ i u, i ≠ x → ((i, u) ∈ members ↔ (i, u) ∈ g.threadMembers)) :
    Revised g (g.changeThreadMembers thread f members) viewer := by
  by_cases hprivate : thread.type = .privateThread
  · refine Revised.of_bump ?_ rfl
    show g.permissionGeneration + (if thread.type = .privateThread then 1 else 0) = _
    rw [if_pos hprivate]
  · have hplace : ∀ c, (threadRow thread f c).place = c.place := by
      intro c
      rw [threadRow, if_neg hprivate, hf c]
    refine Revised.of_sameReads ?_
      (sameReads_of_places ⟨rfl, rfl, rfl, rfl, rfl, rfl, rfl⟩ ?_ rfl ?_)
    · show g.permissionGeneration + (if thread.type = .privateThread then 1 else 0) = _
      rw [if_neg hprivate, Nat.add_zero]
    · intro id
      have hrow : (g.changeThreadMembers thread f members).channel? id
          = if id = thread.id then (g.channel? thread.id).map (threadRow thread f)
            else g.channel? id :=
        lookupBy_updateBy fun c h => (congrArg Place.id (hplace c)).trans h
      rw [hrow]
      split
      · next h =>
          rw [h, Option.map_map]
          congr 1
          funext c
          exact hplace c
      · rfl
    · intro id c hc hprivate'
      refine hmembers id viewer ?_
      rintro rfl
      rw [hthread] at hc
      exact hprivate (Option.some.inj hc ▸ hprivate')

end

theorem putThreadMember_revised {actor target : UserRef} {x : Nat} {ctx : ThreadMemberContext}
    (h : g.putThreadMember actor target x ctx = .ok g') : Revised g g' viewer := by
  rcases putThreadMember_ok h with rfl | ⟨thread, f, members, hthread, hf, hmembers, rfl⟩
  · exact Revised.refl g' viewer
  · exact changeThreadMembers_revised hthread (fun c => (hf c).1) hmembers

theorem deleteThreadMember_revised {actor target : UserRef} {x : Nat} {ctx : ThreadMemberContext}
    (h : g.deleteThreadMember actor target x ctx = .ok g') : Revised g g' viewer := by
  rcases deleteThreadMember_ok h with rfl | ⟨thread, f, members, hthread, hf, hmembers, rfl⟩
  · exact Revised.refl g' viewer
  · exact changeThreadMembers_revised hthread (fun c => (hf c).1) hmembers

theorem updateOnboarding_revised {actor : UserRef} {mask : Nat} {masks : Nat → Nat}
    {payload : OnboardingConfig} (h : g.updateOnboarding actor mask masks payload = .ok g') :
    Revised g g' viewer := by
  simp only [updateOnboarding, found_bind_eq_ok, check_bind_eq_ok, queueGuildMutation_eq] at h
  obtain ⟨_, -, -, -, -, -, h⟩ := h
  obtain rfl := Except.ok.inj h
  exact Revised.of_bump rfl rfl

theorem completeOnboarding_revised {actor : UserRef} {masks : Nat → Nat}
    {payload : OnboardingAnswers} (h : g.completeOnboarding actor masks payload = .ok g') :
    Revised g g' viewer := by
  simp only [completeOnboarding, found_bind_eq_ok, check_bind_eq_ok] at h
  obtain ⟨member, hmember, -, h⟩ := h
  obtain ⟨wanted, -, h⟩ := bind_eq_ok.mp h
  simp only [check_bind_eq_ok] at h
  obtain ⟨-, -, -, h⟩ := h
  obtain rfl := Except.ok.inj h
  refine revised_of_holders _ (by rw [hmember]; exact Option.some_ne_none _) (fun _ => rfl)
    (fun _ => rfl) ?_
  intro u r hu
  simp [hu, Ne.symm hu]

instance (g : Guild) : Decidable g.ChannelSchema :=
  decidable_of_iff ((g.channels.map Channel.id).Nodup ∧
      ∀ c ∈ g.channels, c.constraintsHold = true)
    ⟨fun h => ⟨h.1, h.2⟩, fun h => ⟨h.ids, h.rows⟩⟩

end Guild

/-- The transactions a member's mask depends on, with the masks they were
served themselves. -/
inductive PermissionMutation where
  | role (actor : UserRef) (call : RoleCall)
  | putOverwrite (actor : UserRef) (mask channelId : Nat) (target : OverwriteTarget)
      (allow deny : Nat)
  | deleteOverwrite (actor : UserRef) (mask channelId : Nat) (target : OverwriteTarget)
  | syncChannelPermissions (actor : User) (mask channelId : Nat)
  | updateChannel (actor : User) (channelId : Nat) (payload : ChannelUpdate)
      (version : Option Nat) (ctx : ChannelUpdateContext)
  | reorderChannels (actor : User) (mask : Nat) (masks : Nat → Nat)
      (payload : ChannelPositionBatch)
  | putThreadMember (actor target : UserRef) (threadId : Nat) (ctx : ThreadMemberContext)
  | deleteThreadMember (actor target : UserRef) (threadId : Nat) (ctx : ThreadMemberContext)
  | updateOnboarding (actor : UserRef) (mask : Nat) (masks : Nat → Nat)
      (payload : OnboardingConfig)
  | completeOnboarding (actor : UserRef) (masks : Nat → Nat) (payload : OnboardingAnswers)

namespace PermissionMutation

def apply (mutation : PermissionMutation) (g : Guild) (now : Nat) : Except GuildError Guild :=
  match mutation with
  | role actor call => g.handleRole actor call
  | putOverwrite actor mask channelId target allow deny =>
      g.putOverwrite actor mask channelId target allow deny now
  | deleteOverwrite actor mask channelId target =>
      g.deleteOverwrite actor mask channelId target now
  | syncChannelPermissions actor mask channelId =>
      g.syncChannelPermissions actor mask channelId now
  | updateChannel actor channelId payload version ctx =>
      g.updateChannel actor channelId payload version ctx now
  | reorderChannels actor mask masks payload => g.reorderChannels actor mask masks payload now
  | putThreadMember actor target threadId ctx => g.putThreadMember actor target threadId ctx
  | deleteThreadMember actor target threadId ctx =>
      g.deleteThreadMember actor target threadId ctx
  | updateOnboarding actor mask masks payload => g.updateOnboarding actor mask masks payload
  | completeOnboarding actor masks payload => g.completeOnboarding actor masks payload

/-- The database refuses rows that violate the schema. -/
def commit (mutation : PermissionMutation) (g : Guild) (now : Nat) : Except GuildError Guild := do
  let g' ← mutation.apply g now
  ensure g'.ChannelSchema .integrityError
  .ok g'

/-- Every transaction raises a counter for everyone whose reads it
changes. -/
theorem commit_revised {mutation : PermissionMutation} {g g' : Guild} {now : Nat}
    (hg : g.ChannelSchema) (h : mutation.commit g now = .ok g') :
    g'.ChannelSchema ∧ ∀ viewer, Guild.Revised g g' viewer := by
  rw [commit, bind_eq_ok] at h
  obtain ⟨g₁, happly, h⟩ := h
  rw [check_bind_eq_ok, ensure_eq_ok] at h
  obtain ⟨hschema, h⟩ := h
  obtain rfl := Except.ok.inj h
  refine ⟨hschema, fun viewer => ?_⟩
  cases mutation with
  | role actor call => exact Guild.handleRole_revised happly
  | putOverwrite actor mask channelId target allow deny =>
      exact Guild.putOverwrite_revised happly
  | deleteOverwrite actor mask channelId target => exact Guild.deleteOverwrite_revised happly
  | syncChannelPermissions actor mask channelId =>
      exact Guild.syncChannelPermissions_revised happly
  | updateChannel actor channelId payload version ctx =>
      exact Guild.updateChannel_revised hg happly
  | reorderChannels actor mask masks payload => exact Guild.reorderChannels_revised hg happly
  | putThreadMember actor target threadId ctx => exact Guild.putThreadMember_revised happly
  | deleteThreadMember actor target threadId ctx => exact Guild.deleteThreadMember_revised happly
  | updateOnboarding actor mask masks payload => exact Guild.updateOnboarding_revised happly
  | completeOnboarding actor masks payload => exact Guild.completeOnboarding_revised happly

end PermissionMutation

end Kaede
