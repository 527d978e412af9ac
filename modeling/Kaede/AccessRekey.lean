import Kaede.ChannelEffects
import Kaede.RoleHierarchy

/-!
# Pausing encrypted channels when access changes

A mutation that changes who can see an encrypted channel has to take it out
of `active`, so that nobody sends under keys that a former member holds or a
new one lacks. Most event types pause the whole guild; moves and private
thread memberships pause the one channel. `KeysKept` is what each endpoint
has to achieve for a channel: if its keys are still in use afterwards, the
decision on it is the one from before.
-/

namespace Kaede

open Permission

/-- The accounts behind the references. -/
structure Directory where
  accountType : UserRef → AccountType
  disabled : UserRef → Bool

def Directory.user (dir : Directory) (ref : UserRef) : User :=
  { ref := ref, accountType := dir.accountType ref, disabled := dir.disabled ref }

namespace Guild

/-- `calculatePermissions` grants VIEW_CHANNEL. -/
def sees (g : Guild) (viewer : User) (c : Channel) (now : Nat) : Bool :=
  match g.calculatePermissions viewer (some c) now with
  | .ok mask => mask &&& viewChannel ≠ 0
  | .error _ => false

variable {g g' g'' : Guild} {c c' : Channel} {viewer : User} {now id x : Nat}

def KeysKept (g g' : Guild) (viewer : User) (now id : Nat) : Prop :=
  ∀ c', g'.channel? id = some c' → c'.type ≠ .category → c'.e2eeActive = true →
    ∃ c, g.channel? id = some c ∧ c.e2eeActive = true ∧ c'.kind = c.kind ∧
      g'.calculatePermissions viewer (some c') now = g.calculatePermissions viewer (some c) now

theorem KeysKept.refl (g : Guild) : KeysKept g g viewer now id :=
  fun c' hc' _ hactive => ⟨c', hc', hactive, rfl, rfl⟩

theorem KeysKept.trans (h : KeysKept g g' viewer now id) (h' : KeysKept g' g'' viewer now id) :
    KeysKept g g'' viewer now id := by
  intro c'' hc'' hcat hactive
  obtain ⟨c', hc', hactive', hkind', heq'⟩ := h' c'' hc'' hcat hactive
  have hcat' : c'.type ≠ .category := by
    have htype : c''.type = c'.type := congrArg (fun k => k.2.1) hkind'
    rwa [← htype]
  obtain ⟨c, hc, hactive₀, hkind, heq⟩ := h c' hc' hcat' hactive'
  exact ⟨c, hc, hactive₀, hkind'.trans hkind, heq'.trans heq⟩

/-! ## Whole guild -/

/-- No channel's keys are in use. -/
def Paused (g : Guild) : Prop := ∀ c ∈ g.channels, c.e2eeActive = false

theorem Paused.keysKept (h : Paused g') : KeysKept g g' viewer now id := by
  intro c' hc' _ hactive
  rw [h c' (mem_of_lookupBy hc')] at hactive
  cases hactive

theorem pauseGuildE2ee_paused (g : Guild) : Paused g.pauseGuildE2ee := by
  intro c hc
  obtain ⟨d, -, rfl⟩ := List.mem_map.mp hc
  exact Channel.pause_not_active d

theorem queueGuildMutation_paused {event : GuildEvent}
    (hevent : event ∈ guildE2eeAccessMutationEvents) :
    Paused (g.queueGuildMutation event true) := by
  rw [queueGuildMutation, if_pos ⟨rfl, hevent⟩]
  exact pauseGuildE2ee_paused g

theorem Paused.queueGuildMutation {event : GuildEvent} {pauseE2ee : Bool} (h : Paused g) :
    Paused (g.queueGuildMutation event pauseE2ee) := by
  unfold Guild.queueGuildMutation
  split
  · exact pauseGuildE2ee_paused g
  · exact h

theorem Paused.foldl_queueGuildMutation {events : List GuildEvent} (h : Paused g) :
    Paused (events.foldl (fun state event => state.queueGuildMutation event true) g) := by
  induction events generalizing g with
  | nil => exact h
  | cons event rest ih => exact ih h.queueGuildMutation

theorem foldl_queueGuildMutation_paused {events : List GuildEvent} (hne : events ≠ [])
    (hall : ∀ e ∈ events, e ∈ guildE2eeAccessMutationEvents) :
    Paused (events.foldl (fun state event => state.queueGuildMutation event true) g) := by
  cases events with
  | nil => exact absurd rfl hne
  | cons event rest =>
      exact (queueGuildMutation_paused (hall event List.mem_cons_self)).foldl_queueGuildMutation

theorem touchChannel_paused (h : Paused g) : Paused (g.touchChannel x now) := by
  intro c hc
  obtain ⟨d, hd, rfl⟩ := List.mem_map.mp hc
  split
  · exact h d hd
  · exact h d hd

/-! ### Roles -/

section

variable {actor target : UserRef} {mask roleId : Nat}

theorem updateRole_paused {payload : RoleUpdate} {version : Option Nat}
    (h : g.updateRole actor mask roleId payload version now = .ok g') : g' = g ∨ Paused g' := by
  simp only [updateRole, check_bind_eq_ok, found_bind_eq_ok] at h
  obtain ⟨-, role, -, -, -, -, -, h⟩ := h
  split at h
  · exact .inl (Except.ok.inj h).symm
  · obtain rfl := Except.ok.inj h
    exact .inr (queueGuildMutation_paused (by decide))

theorem deleteRole_paused (h : g.deleteRole actor mask roleId = .ok g') : Paused g' := by
  simp only [deleteRole, check_bind_eq_ok, found_bind_eq_ok] at h
  obtain ⟨-, role, -, -, -, -, h⟩ := h
  obtain rfl := Except.ok.inj h
  exact queueGuildMutation_paused (g := g.bumpPermissionGeneration) (by decide)

theorem assignRole_paused (h : g.assignRole actor target mask roleId = .ok g') :
    g' = g ∨ Paused g' := by
  simp only [assignRole, check_bind_eq_ok, found_bind_eq_ok] at h
  obtain ⟨-, -, role, -, -, -, -, h⟩ := h
  split at h
  · exact .inl (Except.ok.inj h).symm
  · obtain rfl := Except.ok.inj h
    exact .inr (queueGuildMutation_paused (by decide))

theorem removeRole_paused (h : g.removeRole actor target mask roleId = .ok g') :
    g' = g ∨ Paused g' := by
  simp only [removeRole, check_bind_eq_ok, found_bind_eq_ok] at h
  obtain ⟨-, -, role, -, -, -, h⟩ := h
  split at h
  · obtain rfl := Except.ok.inj h
    exact .inr (queueGuildMutation_paused (by decide))
  · exact .inl (Except.ok.inj h).symm

theorem replaceMemberRoles_paused {roleIds : List Nat}
    (h : g.replaceMemberRoles actor target mask roleIds = .ok g') : g' = g ∨ Paused g' := by
  simp only [replaceMemberRoles, check_bind_eq_ok] at h
  obtain ⟨-, -, -, h⟩ := h
  split at h
  · exact .inl (Except.ok.inj h).symm
  · next hchanged =>
      simp only [check_bind_eq_ok] at h
      obtain ⟨-, -, h⟩ := h
      obtain rfl := Except.ok.inj h
      refine .inr (foldl_queueGuildMutation_paused ?_ ?_)
      · intro hnone
        rw [List.append_eq_nil_iff, List.map_eq_nil_iff, List.map_eq_nil_iff] at hnone
        exact hchanged ⟨hnone.2, hnone.1⟩
      · intro e he
        rw [List.mem_append, List.mem_map, List.mem_map] at he
        rcases he with ⟨_, -, rfl⟩ | ⟨_, -, rfl⟩ <;> decide

end

/-! ### Overwrites -/

theorem putOverwrite_paused {actor : UserRef} {mask allow deny : Nat} {target : OverwriteTarget}
    (h : g.putOverwrite actor mask x target allow deny now = .ok g') : Paused g' := by
  simp only [putOverwrite, bind_eq_ok] at h
  obtain ⟨channel, -, _, -, _, -, _, -, g₁, -, _, -, h⟩ := h
  obtain rfl := Except.ok.inj h
  apply touchChannel_paused
  apply queueGuildMutation_paused
  split <;> decide

theorem deleteOverwrite_paused {actor : UserRef} {mask : Nat} {target : OverwriteTarget}
    (h : g.deleteOverwrite actor mask x target now = .ok g') : Paused g' := by
  simp only [deleteOverwrite, bind_eq_ok] at h
  obtain ⟨channel, -, _, -, _, -, g₁, -, _, -, h⟩ := h
  obtain rfl := Except.ok.inj h
  exact touchChannel_paused (queueGuildMutation_paused (by decide))

/-! ## One channel -/

/-- The channel written pauses when its permissions change. A thread under
it does not, so its decision must not depend on what is written. -/
theorem ChannelWrite.keysKept {changes sync : Bool} (h : ChannelWrite g g' x changes sync)
    (hthread : ∀ c, g.channel? id = some c → c.type.isThread = true → c.parentId = some x →
      sync = false ∧ viewer.accountType ≠ .bot) : KeysKept g g' viewer now id := by
  intro c' hc' hcat hactive
  by_cases hid : id = x
  · subst hid
    have hchanges : changes = false := by
      rw [Bool.eq_false_iff]
      intro hyes
      rw [h.paused hyes c' hc'] at hactive
      cases hactive
    obtain ⟨c, hc, hkind⟩ := exists_of_map_eq (h.kinds id).symm hc'
    have htype : c.type = c'.type := congrArg (fun k => k.2.1) hkind
    have hplace := h.place hchanges c c' hc hc' (by rwa [htype])
    refine ⟨c, hc, h.keys c c' hc hc' hactive, hkind.symm, ?_⟩
    apply SameInputs.calculatePermissions
    have hid : c'.id = c.id := congrArg Place.id hplace
    refine ⟨h.toSameElsewhere.sameMember viewer.ref, hid, htype.symm, ?_, ?_, ?_⟩
    · exact overwritesOf_congr hplace h.kinds (fun _ => h.sources hchanges id c c' hc hc')
        fun _ p _ => h.sources hchanges p
    · intro _
      rw [h.threadMembers]
    · intro _
      refine channelRestrictionsAllow_congr hplace h.kinds ?_
      intro _ p _
      by_cases hp : p = id
      · rw [hp, hc, hc', Option.map_some, Option.map_some, hplace]
      · rw [h.rows p hp]
  · rw [h.rows id hid] at hc'
    refine ⟨c', hc', hactive, rfl, ?_⟩
    have hne : c'.id ≠ x := by rwa [key_of_lookupBy hc']
    apply SameInputs.calculatePermissions
    refine h.toTouches.sameInputs viewer hne ?_
    intro ht hp
    obtain ⟨hsync, hhuman⟩ := hthread c' hc' ht hp
    exact ⟨h.source (.inr hsync), hhuman⟩

theorem Stamped.keysKept (h : Stamped g g') : KeysKept g g' viewer now id := by
  intro c' hc' hcat hactive
  obtain ⟨c, hc, heq⟩ := exists_of_map_eq (h.rows id).symm hc'
  rw [Prod.mk.injEq] at heq
  refine ⟨c, hc, heq.2.trans hactive, (Channel.kind_of_place heq.1).symm, ?_⟩
  apply SameInputs.calculatePermissions
  refine sameInputs_of_places (h.toSameElsewhere.sameMember viewer.ref) ?_ h.overwrites
    heq.1.symm ?_
  · intro k
    have hrow := congrArg (Option.map Prod.fst) (h.rows k)
    rwa [Option.map_map, Option.map_map] at hrow
  · intro _
    rw [h.threadMembers]

theorem updateChannel_keysKept {actor : User} {payload : ChannelUpdate} {version : Option Nat}
    {ctx : ChannelUpdateContext} {at' : Nat} (hg : g.ChannelSchema)
    (h : g.updateChannel actor x payload version ctx at' = .ok g')
    (hthread : ∀ c, g.channel? id = some c → c.type.isThread = true → c.parentId = some x →
      payload.syncPermissions = false ∧ viewer.accountType ≠ .bot) :
    KeysKept g g' viewer now id := by
  obtain ⟨changes, hwrite, -⟩ := updateChannel_write hg h
  exact hwrite.keysKept hthread

/-- The threads that a batch leaves in `active` on purpose or by omission. -/
def OutsideBatch (g : Guild) (viewer : User) (id : Nat) (items : List ChannelPosition) : Prop :=
  ∀ c, g.channel? id = some c → c.type.isThread = true → ∀ i ∈ items, c.parentId = some i.id →
    i.lockPermissions ≠ some true ∧ viewer.accountType ≠ .bot

theorem ChannelWrite.outsideBatch {changes sync : Bool} {items : List ChannelPosition}
    (h : ChannelWrite g g' x changes sync) (hrow : g.channel? x = some c)
    (hnot : c.type.isThread = false) (hout : OutsideBatch g viewer id items) :
    OutsideBatch g' viewer id items := by
  intro c' hc' hthread
  by_cases hid : id = x
  · subst hid
    obtain ⟨d, hd, hkind⟩ := exists_of_map_eq (h.kinds id).symm hc'
    rw [hrow] at hd
    obtain rfl := Option.some.inj hd
    have htype : c.type = c'.type := congrArg (fun k => k.2.1) hkind
    rw [htype, hthread] at hnot
    cases hnot
  · rw [h.rows id hid] at hc'
    exact hout c' hc' hthread

theorem reorderChannels_keysKept {actor : User} {mask at' : Nat} {masks : Nat → Nat}
    {payload : ChannelPositionBatch} (hg : g.ChannelSchema)
    (h : g.reorderChannels actor mask masks payload at' = .ok g')
    (hout : OutsideBatch g viewer id payload.channels) : KeysKept g g' viewer now id := by
  rcases reorderChannels_ok hg h with rfl | ⟨moves, g₁, hitems, hplans, hmoves, hstamped, -⟩
  · exact KeysKept.refl g'
  have hnodup : (moves.map fun m => m.item.id).Nodup := by
    have hunique := payload.uniqueIds
    rwa [← hitems, List.map_map] at hunique
  -- the threads outside the batch stay outside while it is carried out
  have hkept : OutsideBatch g viewer id payload.channels →
      OutsideBatch g₁ viewer id payload.channels ∧ KeysKept g g₁ viewer now id := by
    refine (applyMoves_writes (R := fun g₀ g₁ => OutsideBatch g₀ viewer id payload.channels →
      OutsideBatch g₁ viewer id payload.channels ∧ KeysKept g₀ g₁ viewer now id)
      (P := fun _ c => c.type.isThread = false) ?_ ?_ ?_ hplans hnodup hmoves).1
    · exact fun g₀ hout₀ => ⟨hout₀, KeysKept.refl g₀⟩
    · intro g₀ g₁ g₂ h₀₁ h₁₂ hout₀
      obtain ⟨hout₁, hkept₁⟩ := h₀₁ hout₀
      obtain ⟨hout₂, hkept₂⟩ := h₁₂ hout₁
      exact ⟨hout₂, hkept₁.trans hkept₂⟩
    · intro m hm c hnot g₀ g₁ hrow hwrite hout₀
      refine ⟨hwrite.outsideBatch hrow hnot hout₀, hwrite.keysKept ?_⟩
      intro d hd hthread hparent
      have hitem : m.item ∈ payload.channels := hitems ▸ List.mem_map_of_mem hm
      obtain ⟨hlock, hhuman⟩ := hout₀ d hd hthread m.item hitem hparent
      exact ⟨decide_eq_false hlock, hhuman⟩
  exact (hkept hout).2.trans hstamped.keysKept

/-- The sync endpoint pauses nothing, so the channel itself and its threads
are left out. -/
theorem syncChannelPermissions_keysKept {actor : User} {mask at' : Nat}
    (h : g.syncChannelPermissions actor mask x at' = .ok g') (hid : id ≠ x)
    (hthread : ∀ c, g.channel? id = some c → c.type.isThread = true → c.parentId ≠ some x) :
    KeysKept g g' viewer now id := by
  simp only [syncChannelPermissions, bind_eq_ok, guildChannel_eq_ok, found_eq_ok,
    Option.filter_eq_some_iff, decide_eq_true_eq] at h
  obtain ⟨c, ⟨hc, -⟩, _, -, p, ⟨-, hcat⟩, parent, -, _, -, _, -, h⟩ := h
  obtain rfl := Except.ok.inj h
  have hnot : ∀ d, g.channel? x = some d → d.type ≠ .category := by
    intro d hd
    rw [hc] at hd
    rwa [← Option.some.inj hd]
  have hsynced := syncChannel_touches hnot
  have hqueued : Touches g ((g.syncChannel x).bumpPermissionGeneration.queueGuildMutation
      .channelUpdate true) x :=
    hsynced.congr ⟨rfl, rfl, rfl, rfl, rfl, rfl, rfl, rfl, rfl⟩ rfl rfl
  have htouched := hqueued.trans
    (updateChannelRow_touches (F := fun c => { c with updatedAt := at' }) (fun _ h => h)
      fun _ _ => rfl)
  intro c' hc' _ hactive
  have hc'' := hc'
  rw [touchChannel, htouched.rows id hid] at hc''
  refine ⟨c', hc'', hactive, rfl, ?_⟩
  apply SameInputs.calculatePermissions
  refine htouched.sameInputs viewer (by rwa [key_of_lookupBy hc'']) ?_
  intro ht hp
  exact absurd hp (hthread c' hc'' ht)

/-! ## Thread members -/

theorem changeThreadMembers_keysKept {thread : Channel} {f : Channel → Channel}
    {members : List (Nat × UserRef)} (hthread : g.channel? x = some thread)
    (hf : ∀ c : Channel, (f c).place = c.place ∧ (f c).e2eeActive = c.e2eeActive)
    (hmembers : ∀ i u, i ≠ x → ((i, u) ∈ members ↔ (i, u) ∈ g.threadMembers)) :
    KeysKept g (g.changeThreadMembers thread f members) viewer now id := by
  obtain rfl : thread.id = x := key_of_lookupBy hthread
  have hplace : ∀ c, (threadRow thread f c).place = c.place := by
    intro c
    unfold threadRow
    split
    · rw [Channel.place_pause, (hf c).1]
    · exact (hf c).1
  have hrows : ∀ k, (g.changeThreadMembers thread f members).channel? k
      = if k = thread.id then (g.channel? thread.id).map (threadRow thread f)
        else g.channel? k :=
    fun k => lookupBy_updateBy fun c h => (congrArg Place.id (hplace c)).trans h
  have hplaces : ∀ k, ((g.changeThreadMembers thread f members).channel? k).map Channel.place
      = (g.channel? k).map Channel.place := by
    intro k
    rw [hrows k]
    split
    · next h =>
        rw [h, Option.map_map]
        congr 1
        funext c
        exact hplace c
    · rfl
  intro c' hc' _ hactive
  have hmember : SameMember g (g.changeThreadMembers thread f members) viewer.ref :=
    ⟨rfl, rfl, rfl, rfl, rfl, rfl, rfl⟩
  by_cases hid : id = thread.id
  · subst hid
    rw [hrows, if_pos rfl, hthread, Option.map_some] at hc'
    obtain rfl := Option.some.inj hc'
    -- a private thread is paused; who has joined a public one is not read
    have hpublic : thread.type ≠ .privateThread := by
      intro hprivate
      rw [threadRow, if_pos hprivate, Channel.pause_not_active] at hactive
      cases hactive
    refine ⟨thread, hthread, ?_, Channel.kind_of_place (hplace thread), ?_⟩
    · rw [threadRow, if_neg hpublic] at hactive
      exact (hf thread).2 ▸ hactive
    · apply SameInputs.calculatePermissions
      exact sameInputs_of_places hmember hplaces rfl (hplace thread) fun h => absurd h hpublic
  · rw [hrows, if_neg hid] at hc'
    refine ⟨c', hc', hactive, rfl, ?_⟩
    apply SameInputs.calculatePermissions
    refine sameInputs_of_places hmember hplaces rfl rfl fun _ => ?_
    exact hmembers c'.id viewer.ref (by rwa [key_of_lookupBy hc'])

/-! ## Joining and leaving -/

theorem addMember_keysKept {dir : Directory} {user v : UserRef} {roleIds : List Nat}
    {temporary : Bool} (h : g.addMember (dir.user user) roleIds temporary = .ok g')
    (hbots : dir.accountType v = .bot → v ≠ user) : KeysKept g g' (dir.user v) now id := by
  simp only [addMember, check_bind_eq_ok, ensure_eq_ok] at h
  obtain ⟨-, h⟩ := h
  obtain rfl := Except.ok.inj h
  by_cases hbot : dir.accountType user = .bot
  · have hno : decide ((dir.user user).accountType ≠ .bot) = false :=
      decide_eq_false fun h => h hbot
    rw [hno, queueGuildMutation, if_neg fun h => Bool.false_ne_true h.1]
    have hne : user ≠ v := by
      rintro rfl
      exact hbots hbot rfl
    intro c hc _ hactive
    refine ⟨c, hc, hactive, rfl, ?_⟩
    apply SameInputs.calculatePermissions
    refine sameInputs_of_places ⟨rfl, rfl, rfl, rfl, rfl, ?_, ?_⟩ (fun _ => rfl) rfl rfl
      fun _ => Iff.rfl
    · exact lookupBy_append_of_ne hne
    · refine rolesOf_congr rfl rfl fun r => ?_
      simp [Directory.user, hne]
  · have hyes : decide ((dir.user user).accountType ≠ .bot) = true := decide_eq_true hbot
    rw [hyes]
    exact (queueGuildMutation_paused (by decide)).keysKept

/-- The members who stay see what they saw. -/
theorem dropMembers_keysKept {leaving : UserRef → Bool}
    (hstays : leaving viewer.ref = false ∨ g.member? viewer.ref = none) :
    KeysKept g (g.dropMembers leaving) viewer now id := by
  set F : Channel → Channel := fun c =>
    if g.joinedThread leaving c then
      let row := { c with memberCount := c.memberCount -
        (g.threadMembers.filter fun t => t.1 = c.id && leaving t.2).length }
      if c.type = .privateThread then row.pause else row
    else c with hF
  have hplace : ∀ c, (F c).place = c.place := by
    intro c
    simp only [hF]
    split
    · split
      · exact Channel.place_pause _
      · rfl
    · rfl
  have hkeys : ∀ c, (F c).e2eeActive = true → c.e2eeActive = true := by
    intro c hc
    simp only [hF] at hc
    split at hc
    · split at hc
      · rw [Channel.pause_not_active] at hc
        cases hc
      · exact hc
    · exact hc
  have hrows : ∀ k, (g.dropMembers leaving).channel? k = (g.channel? k).map F :=
    fun k => lookupBy_map fun c => congrArg Place.id (hplace c)
  intro c' hc' _ hactive
  rw [hrows] at hc'
  obtain ⟨c, hc, rfl⟩ := Option.map_eq_some_iff.mp hc'
  refine ⟨c, hc, hkeys c hactive, Channel.kind_of_place (hplace c), ?_⟩
  rcases hstays with hstays | hnone
  · apply SameInputs.calculatePermissions
    refine sameInputs_of_places ⟨rfl, rfl, rfl, rfl, rfl, ?_, ?_⟩ ?_ rfl (hplace c) fun _ => ?_
    · apply lookupBy_filter
      intro m hm
      rw [hm, hstays]
      rfl
    · refine rolesOf_congr rfl rfl fun r => ?_
      simp [dropMembers, hstays]
    · intro k
      rw [hrows, Option.map_map]
      congr 1
      funext d
      exact hplace d
    · simp [dropMembers, cleanupMemberThreads, hstays]
  · have hgone : (g.dropMembers leaving).member? viewer.ref = none := lookupBy_filter_none hnone
    rw [calculatePermissions_of_not_member hgone, calculatePermissions_of_not_member hnone]

theorem removeMember_keysKept {dir : Directory} {user v : UserRef}
    (h : g.removeMember (dir.user user) = .ok g')
    (hbots : dir.accountType v = .bot → v ≠ user) :
    KeysKept g g' (dir.user v) now id := by
  simp only [removeMember, found_bind_eq_ok] at h
  obtain ⟨-, -, h⟩ := h
  obtain rfl := Except.ok.inj h
  by_cases hbot : dir.accountType user = .bot
  · have hno : decide ((dir.user user).accountType ≠ .bot) = false :=
      decide_eq_false fun h => h hbot
    rw [hno, queueGuildMutation, if_neg fun h => Bool.false_ne_true h.1]
    apply dropMembers_keysKept
    left
    apply decide_eq_false
    rintro rfl
    exact hbots hbot rfl
  · have hyes : decide ((dir.user user).accountType ≠ .bot) = true := decide_eq_true hbot
    rw [hyes]
    exact (queueGuildMutation_paused (by decide)).keysKept

theorem removeOriginMembers_keysKept {dir : Directory} {domain : String} {v : UserRef}
    (h : g.removeOriginMembers domain dir.accountType = .ok g')
    (hbots : dir.accountType v = .bot → v.domain ≠ domain) : KeysKept g g' (dir.user v) now id := by
  obtain rfl := Except.ok.inj h
  by_cases hremoved : (g.members.any fun m =>
      m.user.domain = domain && dir.accountType m.user ≠ .bot) = true
  · rw [hremoved]
    exact (queueGuildMutation_paused (by decide)).keysKept
  · rw [Bool.eq_false_iff.mpr hremoved, queueGuildMutation, if_neg fun h => Bool.false_ne_true h.1]
    apply dropMembers_keysKept
    -- a human of that domain who was a member would have been counted
    cases hmember : g.member? (dir.user v).ref with
    | none => exact .inr rfl
    | some m =>
        left
        apply decide_eq_false
        intro hdomain
        have hhuman : dir.accountType v ≠ .bot := fun hbot => hbots hbot hdomain
        apply hremoved
        rw [List.any_eq_true]
        refine ⟨m, mem_of_lookupBy hmember, ?_⟩
        have huser : m.user = v := key_of_lookupBy hmember
        rw [huser, Bool.and_eq_true, decide_eq_true_eq, decide_eq_true_eq]
        exact ⟨hdomain, hhuman⟩

end Guild

/-! ## The authoritative operations -/

inductive AccessCall where
  | addMember (user : UserRef) (roleIds : List Nat) (temporary : Bool)
  | removeMember (user : UserRef)
  | removeOriginMembers (domain : String)
  | updateRole (actor : UserRef) (mask roleId : Nat) (payload : RoleUpdate)
      (version : Option Nat)
  | deleteRole (actor : UserRef) (mask roleId : Nat)
  | assignRole (actor target : UserRef) (mask roleId : Nat)
  | replaceMemberRoles (actor target : UserRef) (mask : Nat) (roleIds : List Nat)
  | removeRole (actor target : UserRef) (mask roleId : Nat)
  | putOverwrite (actor : UserRef) (mask channelId : Nat) (target : OverwriteTarget)
      (allow deny : Nat)
  | deleteOverwrite (actor : UserRef) (mask channelId : Nat) (target : OverwriteTarget)
  | syncChannelPermissions (actor : User) (mask channelId : Nat)
  | updateChannel (actor : User) (channelId : Nat) (payload : ChannelUpdate)
      (version : Option Nat) (ctx : ChannelUpdateContext)
  | reorderChannels (actor : User) (mask : Nat) (masks : Nat → Nat)
      (payload : ChannelPositionBatch)
  | putThreadMember (actor target : UserRef) (threadId : Nat) (ctx : ThreadMemberContext)
  | deleteThreadMember (actor target : UserRef) (threadId : Nat) (ctx : ThreadMemberContext)

namespace AccessCall

def run (call : AccessCall) (dir : Directory) (g : Guild) (now : Nat) :
    Except GuildError Guild :=
  match call with
  | addMember user roleIds temporary => g.addMember (dir.user user) roleIds temporary
  | removeMember user => g.removeMember (dir.user user)
  | removeOriginMembers domain => g.removeOriginMembers domain dir.accountType
  | updateRole actor mask roleId payload version =>
      g.updateRole actor mask roleId payload version now
  | deleteRole actor mask roleId => g.deleteRole actor mask roleId
  | assignRole actor target mask roleId => g.assignRole actor target mask roleId
  | replaceMemberRoles actor target mask roleIds =>
      g.replaceMemberRoles actor target mask roleIds
  | removeRole actor target mask roleId => g.removeRole actor target mask roleId
  | putOverwrite actor mask channelId target allow deny =>
      g.putOverwrite actor mask channelId target allow deny now
  | deleteOverwrite actor mask channelId target =>
      g.deleteOverwrite actor mask channelId target now
  | syncChannelPermissions actor mask channelId =>
      g.syncChannelPermissions actor mask channelId now
  | updateChannel actor channelId payload version ctx =>
      g.updateChannel actor channelId payload version ctx now
  | reorderChannels actor mask masks payload => g.reorderChannels actor mask masks payload now
  | putThreadMember actor target threadId ctx => g.putThreadMember actor target threadId ctx
  | deleteThreadMember actor target threadId ctx =>
      g.deleteThreadMember actor target threadId ctx

/-- What the operation does not pause: nothing, for most of them. A bot that
joins or leaves is not worth a rekey; the sync endpoint does not look at
encryption; and a move or sync does not look at the threads below. -/
def LeavesOut (call : AccessCall) (viewer : User) (c : Channel) : Prop :=
  match call with
  | addMember user _ _ => viewer.accountType = .bot ∧ viewer.ref = user
  | removeMember user => viewer.accountType = .bot ∧ viewer.ref = user
  | removeOriginMembers domain => viewer.accountType = .bot ∧ viewer.ref.domain = domain
  | syncChannelPermissions _ _ channelId =>
      c.id = channelId ∨ c.type.isThread = true ∧ c.parentId = some channelId
  | updateChannel _ channelId payload _ _ =>
      c.type.isThread = true ∧ c.parentId = some channelId ∧
        (payload.syncPermissions = true ∨ viewer.accountType = .bot)
  | reorderChannels _ _ _ payload =>
      c.type.isThread = true ∧ ∃ i ∈ payload.channels, c.parentId = some i.id ∧
        (i.lockPermissions = some true ∨ viewer.accountType = .bot)
  | _ => False

end AccessCall

section

variable {dir : Directory} {g g' : Guild} {call : AccessCall} {viewer : UserRef}
  {c c' : Channel} {now id : Nat}

theorem keysKept_of_same_or_paused (h : g' = g ∨ g'.Paused) :
    g.KeysKept g' (dir.user viewer) now id := by
  rcases h with rfl | h
  · exact Guild.KeysKept.refl g'
  · exact h.keysKept

theorem AccessCall.run_keysKept {at' : Nat} (hg : g.ChannelSchema)
    (hrun : call.run dir g at' = .ok g') (hc : g.channel? id = some c)
    (hcovered : ¬ call.LeavesOut (dir.user viewer) c) :
    g.KeysKept g' (dir.user viewer) now id := by
  have hrow : ∀ d, g.channel? id = some d → d = c := by
    intro d hd
    rw [hc] at hd
    exact (Option.some.inj hd).symm
  cases call with
  | addMember user roleIds temporary =>
      exact Guild.addMember_keysKept hrun fun hbot heq => hcovered ⟨hbot, heq⟩
  | removeMember user =>
      exact Guild.removeMember_keysKept hrun fun hbot heq => hcovered ⟨hbot, heq⟩
  | removeOriginMembers domain =>
      exact Guild.removeOriginMembers_keysKept hrun fun hbot heq => hcovered ⟨hbot, heq⟩
  | updateRole actor mask roleId payload version =>
      exact keysKept_of_same_or_paused (Guild.updateRole_paused hrun)
  | deleteRole actor mask roleId => exact (Guild.deleteRole_paused hrun).keysKept
  | assignRole actor target mask roleId =>
      exact keysKept_of_same_or_paused (Guild.assignRole_paused hrun)
  | replaceMemberRoles actor target mask roleIds =>
      exact keysKept_of_same_or_paused (Guild.replaceMemberRoles_paused hrun)
  | removeRole actor target mask roleId =>
      exact keysKept_of_same_or_paused (Guild.removeRole_paused hrun)
  | putOverwrite actor mask channelId target allow deny =>
      exact (Guild.putOverwrite_paused hrun).keysKept
  | deleteOverwrite actor mask channelId target =>
      exact (Guild.deleteOverwrite_paused hrun).keysKept
  | syncChannelPermissions actor mask channelId =>
      refine Guild.syncChannelPermissions_keysKept hrun ?_ ?_
      · intro heq
        exact hcovered (.inl ((key_of_lookupBy hc).trans heq))
      · intro d hd hthread hparent
        obtain rfl := hrow d hd
        exact hcovered (.inr ⟨hthread, hparent⟩)
  | updateChannel actor channelId payload version ctx =>
      refine Guild.updateChannel_keysKept hg hrun ?_
      intro d hd hthread hparent
      obtain rfl := hrow d hd
      refine ⟨?_, fun hbot => hcovered ⟨hthread, hparent, .inr hbot⟩⟩
      rw [Bool.eq_false_iff]
      exact fun hsync => hcovered ⟨hthread, hparent, .inl hsync⟩
  | reorderChannels actor mask masks payload =>
      refine Guild.reorderChannels_keysKept hg hrun ?_
      intro d hd hthread i hi hparent
      obtain rfl := hrow d hd
      exact ⟨fun hlock => hcovered ⟨hthread, i, hi, hparent, .inl hlock⟩,
        fun hbot => hcovered ⟨hthread, i, hi, hparent, .inr hbot⟩⟩
  | putThreadMember actor target threadId ctx =>
      rcases Guild.putThreadMember_ok hrun with
        rfl | ⟨thread, f, members, hthread, hf, hmembers, rfl⟩
      · exact Guild.KeysKept.refl g'
      · exact Guild.changeThreadMembers_keysKept hthread hf hmembers
  | deleteThreadMember actor target threadId ctx =>
      rcases Guild.deleteThreadMember_ok hrun with
        rfl | ⟨thread, f, members, hthread, hf, hmembers, rfl⟩
      · exact Guild.KeysKept.refl g'
      · exact Guild.changeThreadMembers_keysKept hthread hf hmembers

/-- An operation that changes whether someone sees an encrypted channel
leaves the channel paused. Categories are not encrypted. -/
theorem access_change_pauses {at' : Nat} (hg : g.ChannelSchema)
    (hrun : call.run dir g at' = .ok g') (hc : g.channel? id = some c)
    (hc' : g'.channel? id = some c') (hcat : c'.type ≠ .category)
    (hcovered : ¬ call.LeavesOut (dir.user viewer) c)
    (hchanged : g.sees (dir.user viewer) c now ≠ g'.sees (dir.user viewer) c' now) :
    c'.e2eeActive = false := by
  by_contra hactive
  rw [Bool.not_eq_false] at hactive
  have hkept : g.KeysKept g' (dir.user viewer) now id :=
    AccessCall.run_keysKept hg hrun hc hcovered
  obtain ⟨d, hd, -, -, heq⟩ := hkept c' hc' hcat hactive
  rw [hc] at hd
  obtain rfl := Option.some.inj hd
  apply hchanged
  rw [Guild.sees, Guild.sees, heq]

end

/-- A category that hides its channels, and in it an encrypted channel that
is not synced with it, with an encrypted thread. Account 50 is a bot. -/
def sampleRekey : Guild :=
  { id := 5, domain := "home", owner := sampleOwner, permissionGeneration := 1
    onboarding := noOnboarding
    roles := [sampleRole 5 0 viewChannel]
    members := [sampleMember sampleOwner, sampleMember sampleModerator]
    memberRoles := []
    channels :=
      [{ id := 9, type := .category },
        { id := 11, type := .text, parentId := some 9, encryptionMode := .e2ee
          encryptionState := .active },
        { id := 12, type := .publicThread, parentId := some 11, encryptionMode := .e2ee
          encryptionState := .active }]
    overwrites :=
      [{ channelId := 9
         overwrite :=
          { targetId := 5, targetDomain := "home", targetType := .role, allow := 0
            deny := viewChannel } }]
    threadMembers := []
    installations :=
      [{ id := 70, bot := { id := 50, domain := "home" }, channelRestrictions := [] }] }

def sampleDirectory : Directory where
  accountType ref := if ref.id = 50 then .bot else .human
  disabled _ := false

def sampleSync : AccessCall :=
  .updateChannel (sampleDirectory.user sampleOwner) 11 { syncPermissions := true } (some 0)
    { channelMask := allPermissions, parentMask := allPermissions, syncMask := allPermissions
      e2eeActivationEnabled := true, valuesAccepted := true }

theorem sampleRekey_schema : sampleRekey.ChannelSchema := ⟨by decide, by decide⟩

theorem access_change_pauses_sample :
    ∃ g' c', sampleSync.run sampleDirectory sampleRekey 1 = .ok g' ∧
    g'.channel? 11 = some c' ∧ g'.sees (sampleDirectory.user sampleModerator) c' 0 = false ∧
    c'.e2eeActive = false := by
  set viewer := sampleDirectory.user sampleModerator with hviewer
  have hafter : (sampleSync.run sampleDirectory sampleRekey 1).toOption.bind (fun g' =>
      (g'.channel? 11).map fun c' => (decide (c'.type = .text), g'.sees viewer c' 0))
      = some (true, false) := by decide +kernel
  obtain ⟨g', hok, hrow⟩ := Option.bind_eq_some_iff.mp hafter
  obtain ⟨c', hc', heq⟩ := Option.map_eq_some_iff.mp hrow
  rw [Prod.mk.injEq, decide_eq_true_eq] at heq
  have hrun := toOption_eq_some.mp hok
  obtain ⟨c, hc, hsaw⟩ : ∃ c, sampleRekey.channel? 11 = some c ∧
      sampleRekey.sees viewer c 0 = true ∧ ¬ sampleSync.LeavesOut viewer c := by
    refine ⟨_, rfl, by decide +kernel, ?_⟩
    rintro ⟨hthread, -⟩
    cases hthread
  have hchanged : sampleRekey.sees viewer c 0 ≠ g'.sees viewer c' 0 := by
    rw [hsaw.1, heq.2]
    decide
  have hcat : c'.type ≠ .category := by
    rw [heq.1]
    decide
  exact ⟨g', c', hrun, hc', heq.2,
    access_change_pauses sampleRekey_schema hrun hc hc' hcat hsaw.2 hchanged⟩

/-- `viewer` stops or starts seeing channel `id`, whose keys stay in use. -/
def Guild.unpausedChange (g : Guild) (viewer : User) (id : Nat)
    (result : Except GuildError Guild) : Bool :=
  match result with
  | .error _ => false
  | .ok g' =>
      match g.channel? id, g'.channel? id with
      | some c, some c' =>
          c.e2eeActive && c'.e2eeActive && g.sees viewer c 0 != g'.sees viewer c' 0
      | _, _ => false

/-- A bot joins; a channel is synced through the endpoint of its own; a
channel is synced that has a thread. -/
theorem access_changes_without_rekey :
    sampleRekey.unpausedChange (sampleDirectory.user ⟨50, "home"⟩) 11
        ((AccessCall.addMember ⟨50, "home"⟩ [] false).run sampleDirectory sampleRekey 1) = true ∧
      sampleRekey.unpausedChange (sampleDirectory.user sampleModerator) 11
        ((AccessCall.syncChannelPermissions (sampleDirectory.user sampleOwner) allPermissions
          11).run sampleDirectory sampleRekey 1) = true ∧
      sampleRekey.unpausedChange (sampleDirectory.user sampleModerator) 12
        (sampleSync.run sampleDirectory sampleRekey 1) = true := by
  decide +kernel

end Kaede
