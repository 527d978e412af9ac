import Kaede.CategoryMoves

/-!
# What an access decision reads

`calculatePermissions` looks at a few columns of the guild, the member, the
member's roles, and, for a channel, at its place in the tree and the
overwrites that count there. A mutation that leaves these alone leaves the
decision alone (`SameInputs.calculatePermissions`).
-/

namespace Kaede

/-- The columns of a channel row that a decision can read. -/
structure Place where
  id : Nat
  type : ChannelType
  unavailable : Bool
  parentId : Option Nat
  permissionsSynced : Bool
deriving DecidableEq, Repr

namespace Channel

def place (c : Channel) : Place :=
  { id := c.id, type := c.type, unavailable := c.unavailable, parentId := c.parentId
    permissionsSynced := c.permissionsSynced }

/-- The part of its place that no mutation changes. -/
def kind (c : Channel) : Nat × ChannelType × Bool := (c.id, c.type, c.unavailable)

theorem kind_of_place {c c' : Channel} (h : c'.place = c.place) : c'.kind = c.kind := by
  simp only [place, Place.mk.injEq] at h
  simp only [kind, h]

theorem place_pause (c : Channel) : c.pause.place = c.place := by
  unfold pause
  split <;> rfl

theorem pause_not_active (c : Channel) : c.pause.e2eeActive = false := by
  unfold pause
  split
  · simp [e2eeActive]
  · next h => exact Bool.eq_false_iff.mpr h

end Channel

namespace Guild

variable {g g' : Guild} {c c' : Channel}

/-! ## Overwrites -/

/-- The overwrites of a channel that is not a thread: its own, or its
category's. -/
def sourceOverwrites (g : Guild) (c : Channel) : Except GuildError (List PermissionOverwrite) :=
  (fun source => g.ownOverwrites source.id) <$> g.overwriteSourceChannel c

/-- The overwrites `calculatePermissions` applies. -/
def overwritesOf (g : Guild) (c : Channel) : Except GuildError (List PermissionOverwrite) :=
  (fun source => g.ownOverwrites source.id) <$> g.overwriteChannel c

theorem overwritesOf_thread (hthread : c.type.isThread = true) :
    g.overwritesOf c = g.threadParent c >>= g.sourceOverwrites := by
  unfold overwritesOf sourceOverwrites overwriteChannel
  rw [if_pos hthread]
  cases g.threadParent c <;> rfl

theorem overwritesOf_of_not_thread (hthread : c.type.isThread = false) :
    g.overwritesOf c = g.sourceOverwrites c := by
  unfold overwritesOf sourceOverwrites overwriteChannel
  rw [hthread]
  rfl

/-! ## The decision -/

/-- The guild, the member and the member's roles, as a decision reads them. -/
structure SameMember (g g' : Guild) (viewer : UserRef) : Prop where
  guildId : g'.id = g.id
  domain : g'.domain = g.domain
  owner : g'.owner = g.owner
  onboarding : g'.onboarding = g.onboarding
  installations : g'.installations = g.installations
  member : g'.member? viewer = g.member? viewer
  roles : g'.rolesOf viewer = g.rolesOf viewer

theorem rolesOf_congr {viewer : UserRef} (hid : g'.id = g.id) (hroles : g'.roles = g.roles)
    (hheld : ∀ r, (viewer, r) ∈ g'.memberRoles ↔ (viewer, r) ∈ g.memberRoles) :
    g'.rolesOf viewer = g.rolesOf viewer := by
  unfold rolesOf
  rw [hroles, hid]
  apply List.filter_congr
  intro r _
  simp only [hheld]

/-- Everything a decision on a channel reads; `c` and `c'` are its rows in
`g` and `g'`. -/
structure SameInputs (g g' : Guild) (viewer : User) (c c' : Channel) : Prop
    extends SameMember g g' viewer.ref where
  channelId : c'.id = c.id
  type : c'.type = c.type
  overwrites : g'.overwritesOf c' = g.overwritesOf c
  thread : c.type = .privateThread →
    ((c.id, viewer.ref) ∈ g'.threadMembers ↔ (c.id, viewer.ref) ∈ g.threadMembers)
  restrictions : viewer.accountType = .bot → ∀ ids,
    g'.channelRestrictionsAllow ids c' = g.channelRestrictionsAllow ids c

/-- The mask once the member and the overwrites are read. -/
def decision (g : Guild) (viewer : User) (channel : Option Channel) (now : Nat)
    (member : GuildMember) (overwrites : List PermissionOverwrite) : Nat :=
  let rows : PermissionRows :=
    { guild := g.toGuildRow, member := member, roles := g.rolesOf viewer.ref, channel := channel
      overwrites := overwrites
      threadMember := channel.any fun c => (c.id, viewer.ref) ∈ g.threadMembers }
  rows.restrict viewer
    (match g.botGuildPermissionGrant viewer with
      | none => rows.resolve viewer now
      | some grant => g.applyGrant grant (rows.resolve viewer now) channel)

theorem calculatePermissions_eq (g : Guild) (viewer : User) (c : Channel) (now : Nat) :
    g.calculatePermissions viewer (some c) now = (do
      let member ← found (g.member? viewer.ref) .guildNotFound
      let overwrites ← g.overwritesOf c
      .ok (g.decision viewer (some c) now member overwrites)) := by
  unfold calculatePermissions permissionRows overwritesOf
  cases g.member? viewer.ref with
  | none => rfl
  | some member =>
      dsimp only
      cases g.overwriteChannel c <;> rfl

theorem calculatePermissions_of_not_member {viewer : User} (h : g.member? viewer.ref = none)
    (c : Channel) (now : Nat) :
    g.calculatePermissions viewer (some c) now = .error .guildNotFound := by
  rw [calculatePermissions_eq, h]
  rfl

theorem SameMember.grant {viewer : User} (h : SameMember g g' viewer.ref) :
    g'.botGuildPermissionGrant viewer = g.botGuildPermissionGrant viewer := by
  unfold botGuildPermissionGrant
  rw [h.installations]

theorem calculatePermissions_guild (g : Guild) (viewer : User) (now : Nat) :
    g.calculatePermissions viewer none now = (do
      let member ← found (g.member? viewer.ref) .guildNotFound
      .ok (g.decision viewer none now member [])) := by
  unfold calculatePermissions permissionRows
  cases g.member? viewer.ref <;> rfl

theorem SameMember.calculatePermissions {viewer : User} (h : SameMember g g' viewer.ref)
    (now : Nat) :
    g'.calculatePermissions viewer none now = g.calculatePermissions viewer none now := by
  rw [calculatePermissions_guild, calculatePermissions_guild, h.member]
  simp only [decision, PermissionRows.restrict, PermissionRows.resolve, applyGrant, h.grant,
    h.roles, h.guildId, h.domain, h.owner, h.onboarding, Option.any_none]

theorem bot_of_grant {viewer : User} {grant : BotGuildPermissionGrant}
    (h : g.botGuildPermissionGrant viewer = some grant) : viewer.accountType = .bot := by
  by_contra hbot
  rw [botGuildPermissionGrant, if_pos hbot] at h
  cases h

theorem SameInputs.decision {viewer : User} (h : SameInputs g g' viewer c c') (now : Nat)
    (member : GuildMember) (overwrites : List PermissionOverwrite) :
    g'.decision viewer (some c') now member overwrites
      = g.decision viewer (some c) now member overwrites := by
  have hthread : ∀ mask : Nat,
      (if (c.type = .privateThread ∧ mask &&& Permission.manageThreads = 0 ∧
        ¬ (c.id, viewer.ref) ∈ g'.threadMembers) then 0 else mask) =
      if (c.type = .privateThread ∧ mask &&& Permission.manageThreads = 0 ∧
        ¬ (c.id, viewer.ref) ∈ g.threadMembers) then 0 else mask := by
    intro mask
    by_cases hprivate : c.type = .privateThread
    · simp only [h.thread hprivate]
    · simp only [hprivate, false_and]
  unfold Guild.decision PermissionRows.restrict
  rw [h.grant]
  cases hgrant : g.botGuildPermissionGrant viewer with
  | none =>
      simp only [PermissionRows.resolve, h.roles, h.guildId, h.domain, h.owner, h.onboarding,
        Option.map_some, Option.any_some, decide_eq_true_eq, h.type, h.channelId, hthread]
  | some grant =>
      have hallow := h.restrictions (bot_of_grant hgrant)
      simp only [PermissionRows.resolve, applyGrant, h.roles, h.guildId, h.domain, h.owner,
        h.onboarding, Option.map_some, Option.any_some, decide_eq_true_eq, h.type, h.channelId,
        hthread, hallow]

theorem SameInputs.calculatePermissions {viewer : User} (h : SameInputs g g' viewer c c')
    (now : Nat) :
    g'.calculatePermissions viewer (some c') now = g.calculatePermissions viewer (some c) now := by
  rw [calculatePermissions_eq, calculatePermissions_eq, h.member, h.overwrites]
  simp only [h.decision]

/-! ## Mutations of one channel -/

/-- Nothing but channel rows, overwrites and counters differs. -/
structure SameElsewhere (g g' : Guild) : Prop where
  guildId : g'.id = g.id
  domain : g'.domain = g.domain
  owner : g'.owner = g.owner
  onboarding : g'.onboarding = g.onboarding
  installations : g'.installations = g.installations
  members : g'.members = g.members
  roles : g'.roles = g.roles
  memberRoles : g'.memberRoles = g.memberRoles
  threadMembers : g'.threadMembers = g.threadMembers

theorem SameElsewhere.refl (g : Guild) : SameElsewhere g g :=
  ⟨rfl, rfl, rfl, rfl, rfl, rfl, rfl, rfl, rfl⟩

theorem SameElsewhere.trans {g'' : Guild} (h : SameElsewhere g g') (h' : SameElsewhere g' g'') :
    SameElsewhere g g'' :=
  ⟨h'.guildId.trans h.guildId, h'.domain.trans h.domain, h'.owner.trans h.owner,
    h'.onboarding.trans h.onboarding, h'.installations.trans h.installations,
    h'.members.trans h.members, h'.roles.trans h.roles, h'.memberRoles.trans h.memberRoles,
    h'.threadMembers.trans h.threadMembers⟩

theorem SameElsewhere.sameMember (h : SameElsewhere g g') (viewer : UserRef) :
    SameMember g g' viewer := by
  refine ⟨h.guildId, h.domain, h.owner, h.onboarding, h.installations, ?_, ?_⟩
  · rw [member?, h.members, member?]
  · rw [rolesOf, h.roles, h.memberRoles, h.guildId, rolesOf]

/-- The mutation rewrites the row and the overwrites of channel `x`. A
category keeps its overwrites: other channels may be synced with it. -/
structure Touches (g g' : Guild) (x : Nat) : Prop extends SameElsewhere g g' where
  kinds : ∀ id, (g'.channel? id).map Channel.kind = (g.channel? id).map Channel.kind
  rows : ∀ id, id ≠ x → g'.channel? id = g.channel? id
  own : ∀ id, id ≠ x → g'.ownOverwrites id = g.ownOverwrites id
  category : ∀ c, g.channel? x = some c → c.type = .category →
    g'.ownOverwrites x = g.ownOverwrites x

/-- The row of `x` still takes its overwrites from where it took them. -/
def SameSource (g g' : Guild) (x : Nat) : Prop :=
  ∀ r r', g.channel? x = some r → g'.channel? x = some r' →
    g'.sourceOverwrites r' = g.sourceOverwrites r

variable {g'' : Guild} {x : Nat}

theorem exists_of_map_eq {α β : Type} {f : α → β} {o o' : Option α} {a : α}
    (h : o'.map f = o.map f) (ha : o = some a) : ∃ a', o' = some a' ∧ f a' = f a := by
  rw [ha] at h
  exact Option.map_eq_some_iff.mp h

theorem Touches.refl (g : Guild) (x : Nat) : Touches g g x :=
  ⟨SameElsewhere.refl g, fun _ => rfl, fun _ _ => rfl, fun _ _ => rfl, fun _ _ _ => rfl⟩

theorem Touches.trans (h : Touches g g' x) (h' : Touches g' g'' x) : Touches g g'' x := by
  refine ⟨h.toSameElsewhere.trans h'.toSameElsewhere, fun id => (h'.kinds id).trans (h.kinds id),
    fun id hid => (h'.rows id hid).trans (h.rows id hid),
    fun id hid => (h'.own id hid).trans (h.own id hid), ?_⟩
  intro c hc hcat
  obtain ⟨c₁, hc₁, hkind⟩ := exists_of_map_eq (h.kinds x) hc
  have hcat₁ : c₁.type = .category := by
    simp only [Channel.kind, Prod.mk.injEq] at hkind
    rw [hkind.2.1, hcat]
  rw [h'.category c₁ hc₁ hcat₁, h.category c hc hcat]

/-- Overwrites come from the channel itself or from a category. -/
theorem sourceOverwrites_congr (hid : c'.id = c.id) (hparent : c'.parentId = c.parentId)
    (hsynced : c'.permissionsSynced = c.permissionsSynced)
    (hkinds : ∀ id, (g'.channel? id).map Channel.kind = (g.channel? id).map Channel.kind)
    (hown : c.permissionsSynced = false ∨ c.parentId = none →
      g'.ownOverwrites c.id = g.ownOverwrites c.id)
    (hcategory : ∀ p parent, g.channel? p = some parent → parent.type = .category →
      g'.ownOverwrites p = g.ownOverwrites p) :
    g'.sourceOverwrites c' = g.sourceOverwrites c := by
  unfold Guild.sourceOverwrites overwriteSourceChannel
  rw [hparent, hsynced]
  cases hpid : c.parentId with
  | none => simp only [Except.map_ok, hid, hown (.inr hpid)]
  | some p =>
      cases hs : c.permissionsSynced with
      | false => simp only [Bool.false_eq_true, if_false, Except.map_ok, hid, hown (.inl hs)]
      | true =>
          simp only [if_true, found_filter, decide_eq_true_eq]
          cases hp : g.channel? p with
          | none =>
              have hkind := hkinds p
              rw [hp, Option.map_none, Option.map_eq_none_iff] at hkind
              rw [hkind]
              rfl
          | some parent =>
              obtain ⟨parent', hp', hkind⟩ := exists_of_map_eq (hkinds p) hp
              simp only [Channel.kind, Prod.mk.injEq] at hkind
              rw [hp']
              by_cases hcat : parent.type = .category
              · have hown := hcategory p parent hp hcat
                simp only [hkind, hcat, if_true, Except.map_ok, key_of_lookupBy hp, hown]
              · simp only [hkind, hcat, if_false]
                rfl

/-- A thread reads its parent's source instead of its own. -/
theorem overwritesOf_congr (hplace : c'.place = c.place)
    (hkinds : ∀ id, (g'.channel? id).map Channel.kind = (g.channel? id).map Channel.kind)
    (hself : c.type.isThread = false → g'.sourceOverwrites c' = g.sourceOverwrites c)
    (hparent : c.type.isThread = true → ∀ p, c.parentId = some p → SameSource g g' p) :
    g'.overwritesOf c' = g.overwritesOf c := by
  simp only [Channel.place, Place.mk.injEq] at hplace
  obtain ⟨-, htype, -, hpid, -⟩ := hplace
  cases hthread : c.type.isThread with
  | false =>
      rw [overwritesOf_of_not_thread hthread, overwritesOf_of_not_thread (htype ▸ hthread)]
      exact hself hthread
  | true =>
      rw [overwritesOf_thread hthread, overwritesOf_thread (htype ▸ hthread)]
      unfold threadParent
      simp only [found_filter, hpid]
      cases hp : c.parentId with
      | none => rfl
      | some p =>
          simp only [Option.bind_some]
          cases hrow : g.channel? p with
          | none =>
              have hkind := hkinds p
              rw [hrow, Option.map_none, Option.map_eq_none_iff] at hkind
              rw [hkind]
              rfl
          | some r =>
              obtain ⟨r', hrow', hkind⟩ := exists_of_map_eq (hkinds p) hrow
              simp only [Channel.kind, Prod.mk.injEq] at hkind
              have hsource := hparent hthread p hp r r' hrow hrow'
              rw [hrow']
              simp only [hkind]
              split
              · exact hsource
              · rfl

theorem channelRestrictionsAllow_congr (hplace : c'.place = c.place)
    (hkinds : ∀ id, (g'.channel? id).map Channel.kind = (g.channel? id).map Channel.kind)
    (hparent : c.type.isThread = true → ∀ p, c.parentId = some p →
      (g'.channel? p).map Channel.place = (g.channel? p).map Channel.place) (ids : List Nat) :
    g'.channelRestrictionsAllow ids c' = g.channelRestrictionsAllow ids c := by
  simp only [Channel.place, Place.mk.injEq] at hplace
  obtain ⟨hid, htype, -, hpid, -⟩ := hplace
  unfold channelRestrictionsAllow
  rw [hid, htype, hpid]
  split
  · rfl
  cases hp : c.parentId with
  | none => rfl
  | some p =>
      simp only [Option.bind_some]
      cases hrow : g.channel? p with
      | none =>
          have hkind := hkinds p
          rw [hrow, Option.map_none, Option.map_eq_none_iff] at hkind
          rw [hkind]
      | some r =>
          obtain ⟨r', hrow', hkind⟩ := exists_of_map_eq (hkinds p) hrow
          simp only [Channel.kind, Prod.mk.injEq] at hkind
          rw [hrow']
          simp only [hkind]
          cases hthread : c.type.isThread with
          | false => simp
          | true =>
              -- the parent has the same category, and that row is of the same kind
              have hcategory : r'.parentId = r.parentId := by
                have hplaces := hparent hthread p hp
                rw [hrow', hrow, Option.map_some, Option.map_some, Option.some.injEq] at hplaces
                simp only [Channel.place, Place.mk.injEq] at hplaces
                exact hplaces.2.2.2.1
              rw [hcategory]
              cases hq : r.parentId with
              | none => rfl
              | some q =>
                  simp only [Option.bind_some]
                  cases hcat : g.channel? q with
                  | none =>
                      have hkind := hkinds q
                      rw [hcat, Option.map_none, Option.map_eq_none_iff] at hkind
                      rw [hkind]
                  | some k =>
                      obtain ⟨k', hcat', hkind⟩ := exists_of_map_eq (hkinds q) hcat
                      simp only [Channel.kind, Prod.mk.injEq] at hkind
                      rw [hcat']
                      simp only [hkind]

/-- Rows may be stamped, counted or paused, as long as no channel is
anywhere else. -/
theorem sameInputs_of_places {viewer : User} (hmember : SameMember g g' viewer.ref)
    (hplaces : ∀ id, (g'.channel? id).map Channel.place = (g.channel? id).map Channel.place)
    (hoverwrites : g'.overwrites = g.overwrites) (hplace : c'.place = c.place)
    (hthread : c.type = .privateThread →
      ((c.id, viewer.ref) ∈ g'.threadMembers ↔ (c.id, viewer.ref) ∈ g.threadMembers)) :
    SameInputs g g' viewer c c' := by
  have hown : ∀ id, g'.ownOverwrites id = g.ownOverwrites id := by
    intro id
    rw [ownOverwrites, hoverwrites, ownOverwrites]
  have hkinds : ∀ id, (g'.channel? id).map Channel.kind = (g.channel? id).map Channel.kind := by
    intro id
    have h := congrArg (Option.map fun p : Place => (p.id, p.type, p.unavailable)) (hplaces id)
    rwa [Option.map_map, Option.map_map] at h
  have hsource : ∀ r r' : Channel, r'.place = r.place →
      g'.sourceOverwrites r' = g.sourceOverwrites r := by
    intro r r' h
    simp only [Channel.place, Place.mk.injEq] at h
    exact sourceOverwrites_congr h.1 h.2.2.2.1 h.2.2.2.2 hkinds (fun _ => hown r.id)
      fun p _ _ _ => hown p
  have hplace' := hplace
  simp only [Channel.place, Place.mk.injEq] at hplace'
  refine ⟨hmember, hplace'.1, hplace'.2.1, ?_, hthread, ?_⟩
  · refine overwritesOf_congr hplace hkinds (fun _ => hsource c c' hplace) ?_
    intro _ p _ r r' hr hr'
    have h := hplaces p
    rw [hr, hr', Option.map_some, Option.map_some, Option.some.injEq] at h
    exact hsource r r' h
  · intro _
    exact channelRestrictionsAllow_congr hplace hkinds fun _ p _ => hplaces p

theorem sourceOverwrites_of_not_synced (h : c.permissionsSynced = false) :
    g.sourceOverwrites c = .ok (g.ownOverwrites c.id) := by
  unfold sourceOverwrites overwriteSourceChannel
  cases c.parentId with
  | none => rfl
  | some p =>
      rw [h]
      rfl

theorem Touches.own_category (h : Touches g g' x) {p : Nat} {parent : Channel}
    (hp : g.channel? p = some parent) (hcat : parent.type = .category) :
    g'.ownOverwrites p = g.ownOverwrites p := by
  by_cases hpx : p = x
  · subst hpx
    exact h.category parent hp hcat
  · exact h.own p hpx

theorem Touches.sourceOverwrites (h : Touches g g' x) (hx : c.id ≠ x) :
    g'.sourceOverwrites c = g.sourceOverwrites c :=
  sourceOverwrites_congr rfl rfl rfl h.kinds (fun _ => h.own c.id hx) fun _ _ => h.own_category

/-- The decision on another channel can be affected only through a thread's
parent. -/
theorem Touches.sameInputs (h : Touches g g' x) (viewer : User) (hx : c.id ≠ x)
    (hparent : c.type.isThread = true → c.parentId = some x →
      SameSource g g' x ∧ viewer.accountType ≠ .bot) : SameInputs g g' viewer c c := by
  refine ⟨h.toSameElsewhere.sameMember viewer.ref, rfl, rfl, ?_, ?_, ?_⟩
  · refine overwritesOf_congr rfl h.kinds (fun _ => h.sourceOverwrites hx) ?_
    intro hthread p hp
    by_cases hpx : p = x
    · subst hpx
      exact (hparent hthread hp).1
    · intro r r' hr hr'
      rw [h.rows p hpx, hr] at hr'
      obtain rfl := Option.some.inj hr'
      exact h.sourceOverwrites (by rwa [key_of_lookupBy hr])
  · intro _
    rw [h.threadMembers]
  · intro hbot
    refine channelRestrictionsAllow_congr rfl h.kinds ?_
    intro hthread p hp
    have hpx : p ≠ x := by
      rintro rfl
      exact (hparent hthread hp).2 hbot
    rw [h.rows p hpx]

end Guild

end Kaede
