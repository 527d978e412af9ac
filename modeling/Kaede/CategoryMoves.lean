import Kaede.GuildChannels

/-!
# Moving channels between categories

A synced channel takes its overwrites from its category. `updateChannel`
and `reorderChannels` copy them into the channel before they move it, so a
move by itself changes nobody's access (`KeepsAccess`). `deleteChannel`
does not: deleting a category sets the parent of its synced children to
null, their rows then violate `permission_sync_requires_parent`, and the
request fails.
-/

namespace Kaede

namespace Guild

/-- The overwrites that count for a channel: its own, or its category's
when it is synced. -/
def effectiveOverwrites (g : Guild) (c : Channel) : List PermissionOverwrite :=
  if c.permissionsSynced then c.parentId.elim [] g.ownOverwrites else g.ownOverwrites c.id

def InCategory (g : Guild) (c : Channel) : Prop :=
  ∃ parent ∈ g.channels, c.parentId = some parent.id ∧ parent.type = .category

/-- The schema's constraints on the channel rows: the primary key, the
checks on each row, and the foreign key to the parent. -/
structure ValidTree (g : Guild) : Prop where
  ids : (g.channels.map Channel.id).Nodup
  rows : ∀ c ∈ g.channels, c.constraintsHold = true
  parents : ∀ c ∈ g.channels, ∀ p ∈ c.parentId, p ∈ g.channels.map Channel.id
  synced : ∀ c ∈ g.channels, c.permissionsSynced = true → g.InCategory c

/-- Every channel that is left has the effective overwrites it had. -/
structure KeepsAccess (g g' : Guild) : Prop where
  valid : g'.ValidTree
  access : ∀ c' ∈ g'.channels, ∃ c ∈ g.channels, c.id = c'.id ∧
    g'.effectiveOverwrites c' = g.effectiveOverwrites c

/-- How one row can be rewritten without a change of its effective
overwrites: it stays where it is, or it leaves its category with a copy of
the category's overwrites. -/
inductive Rewrite (g g' : Guild) (c row : Channel) : Prop where
  | stays (hsynced : row.permissionsSynced = c.permissionsSynced)
      (hparent : c.permissionsSynced = true → row.parentId = c.parentId)
      (hown : g'.ownOverwrites c.id = g.ownOverwrites c.id)
  | leaves (hsynced : c.permissionsSynced = true) (hrow : row.permissionsSynced = false)
      (hown : g'.ownOverwrites c.id = g.effectiveOverwrites c)

variable {g g' g'' : Guild} {c row : Channel}

theorem KeepsAccess.refl (hg : g.ValidTree) : g.KeepsAccess g :=
  ⟨hg, fun c hc => ⟨c, hc, rfl, rfl⟩⟩

theorem KeepsAccess.trans (h : g.KeepsAccess g') (h' : g'.KeepsAccess g'') :
    g.KeepsAccess g'' := by
  refine ⟨h'.valid, ?_⟩
  intro c'' hc''
  obtain ⟨c', hc', hid', heq'⟩ := h'.access c'' hc''
  obtain ⟨c, hc, hid, heq⟩ := h.access c' hc'
  exact ⟨c, hc, hid.trans hid', heq'.trans heq⟩

end Guild

theorem Channel.constraintsHold_iff {c : Channel} :
    c.constraintsHold = true ↔ c.parentId ≠ some c.id ∧
      (c.permissionsSynced = true → c.parentId ≠ none ∧ c.type ≠ .category) ∧
      (c.type.isThread = true → c.unavailable = true ∨
        (c.parentId ≠ none ∧ c.permissionsSynced = false)) := by
  unfold Channel.constraintsHold
  exact decide_eq_true_iff

namespace Guild

variable {g g' : Guild} {c row : Channel}

theorem ValidTree.not_category (hg : g.ValidTree) (hc : c ∈ g.channels)
    (hsynced : c.permissionsSynced = true) : c.type ≠ .category :=
  ((Channel.constraintsHold_iff.mp (hg.rows c hc)).2.1 hsynced).2

theorem ValidTree.parent_ok (hg : g.ValidTree) (hc : c ∈ g.channels) :
    ∀ p ∈ c.parentId, p ≠ c.id ∧ p ∈ g.channels.map Channel.id := by
  intro p hp
  refine ⟨?_, hg.parents c hc p hp⟩
  rintro rfl
  exact (Channel.constraintsHold_iff.mp (hg.rows c hc)).1 (Option.mem_def.mp hp)

theorem ValidTree.channel? (hg : g.ValidTree) (hc : c ∈ g.channels) :
    g.channel? c.id = some c :=
  lookupBy_of_mem hg.ids hc

/-- Rows rewritten one by one. The synced rows refer to categories, which
are not synced themselves and so keep their overwrites. -/
theorem KeepsAccess.of_map {f : Channel → Channel} (hg : g.ValidTree)
    (hchannels : g'.channels = g.channels.map f) (hid : ∀ c, (f c).id = c.id)
    (htype : ∀ c ∈ g.channels, (f c).type = c.type)
    (hrows : ∀ c ∈ g.channels, (f c).constraintsHold = true)
    (hparents : ∀ c ∈ g.channels, ∀ p ∈ (f c).parentId, p ∈ g.channels.map Channel.id)
    (hrewrite : ∀ c ∈ g.channels, g.Rewrite g' c (f c)) : g.KeepsAccess g' := by
  have hids : g'.channels.map Channel.id = g.channels.map Channel.id := by
    rw [hchannels, List.map_map]
    exact List.map_congr_left fun c _ => hid c
  have hmem : ∀ c' ∈ g'.channels, ∃ c ∈ g.channels, f c = c' := by
    intro c' hc'
    rw [hchannels] at hc'
    exact List.mem_map.mp hc'
  refine ⟨⟨?_, ?_, ?_, ?_⟩, ?_⟩
  · rw [hids]
    exact hg.ids
  · intro c' hc'
    obtain ⟨c, hc, rfl⟩ := hmem c' hc'
    exact hrows c hc
  · intro c' hc'
    obtain ⟨c, hc, rfl⟩ := hmem c' hc'
    rw [hids]
    exact hparents c hc
  · intro c' hc' hsynced'
    obtain ⟨c, hc, rfl⟩ := hmem c' hc'
    cases hrewrite c hc with
    | stays hsynced hparent hown =>
        have hcs : c.permissionsSynced = true := hsynced ▸ hsynced'
        obtain ⟨parent, hp, heq, hcat⟩ := hg.synced c hc hcs
        refine ⟨f parent, ?_, ?_, ?_⟩
        · rw [hchannels]
          exact List.mem_map_of_mem hp
        · rw [hparent hcs, hid parent]
          exact heq
        · rw [htype parent hp]
          exact hcat
    | leaves hsynced hrow hown => rw [hrow] at hsynced'; cases hsynced'
  · intro c' hc'
    obtain ⟨c, hc, rfl⟩ := hmem c' hc'
    refine ⟨c, hc, (hid c).symm, ?_⟩
    cases hrewrite c hc with
    | stays hsynced hparent hown =>
        by_cases hcs : c.permissionsSynced = true
        · obtain ⟨parent, hp, heq, hcat⟩ := hg.synced c hc hcs
          have hparentOwn : g'.ownOverwrites parent.id = g.ownOverwrites parent.id := by
            cases hrewrite parent hp with
            | stays _ _ hown => exact hown
            | leaves hps _ _ => exact absurd hcat (hg.not_category hp hps)
          simp only [effectiveOverwrites, hsynced, hcs, if_true, hparent hcs, heq,
            Option.elim_some]
          exact hparentOwn
        · simp only [effectiveOverwrites, hsynced, hcs, hid]
          exact hown
    | leaves hsynced hrow hown =>
        have heff : g'.effectiveOverwrites (f c) = g'.ownOverwrites c.id := by
          simp only [effectiveOverwrites, hrow, hid]
          rfl
        rw [heff, hown]

/-- One row rewritten, with nothing but that channel's overwrites. -/
theorem KeepsAccess.of_row (hg : g.ValidTree) (hc : c ∈ g.channels)
    (hchannels : g'.channels = updateBy Channel.id c.id (fun _ => row) g.channels)
    (hown : ∀ k, k ≠ c.id → g'.ownOverwrites k = g.ownOverwrites k)
    (hid : row.id = c.id) (htype : row.type = c.type) (hthread : c.type.isThread = false)
    (hparent : ∀ p ∈ row.parentId, p ≠ c.id ∧ p ∈ g.channels.map Channel.id)
    (hrewrite : g.Rewrite g' c row) : g.KeepsAccess g' := by
  have hself : ∀ d ∈ g.channels, d.id = c.id → d = c :=
    fun d hd h => List.inj_on_of_nodup_map hg.ids hd hc h
  have hrow : row.constraintsHold = true := by
    obtain ⟨_, hsync, _⟩ := Channel.constraintsHold_iff.mp (hg.rows c hc)
    rw [Channel.constraintsHold_iff]
    refine ⟨?_, ?_, ?_⟩
    · intro hself
      exact (hparent row.id hself).1 hid
    · intro hs
      cases hrewrite with
      | stays hsynced hstays _ =>
          have hcs : c.permissionsSynced = true := hsynced ▸ hs
          rw [hstays hcs, htype]
          exact hsync hcs
      | leaves _ hleft _ => rw [hleft] at hs; cases hs
    · intro ht
      rw [htype, hthread] at ht
      cases ht
  refine of_map hg hchannels ?_ ?_ ?_ ?_ ?_
  · intro d
    by_cases hd : d.id = c.id
    · rw [if_pos hd, hid, hd]
    · rw [if_neg hd]
  · intro d hd
    by_cases hdc : d.id = c.id
    · rw [if_pos hdc, htype, hself d hd hdc]
    · rw [if_neg hdc]
  · intro d hd
    by_cases hdc : d.id = c.id
    · rw [if_pos hdc]
      exact hrow
    · rw [if_neg hdc]
      exact hg.rows d hd
  · intro d hd
    by_cases hdc : d.id = c.id
    · rw [if_pos hdc]
      exact fun p hp => (hparent p hp).2
    · rw [if_neg hdc]
      exact hg.parents d hd
  · intro d hd
    by_cases hdc : d.id = c.id
    · rw [if_pos hdc, hself d hd hdc]
      exact hrewrite
    · rw [if_neg hdc]
      exact .stays rfl (fun _ => rfl) (hown d.id hdc)

/-! ## Leaving a category -/

theorem ownOverwrites_deleteOverwrites_ne {k destination : Nat} (hk : k ≠ destination) :
    (g.deleteOverwrites destination).ownOverwrites k = g.ownOverwrites k := by
  unfold ownOverwrites deleteOverwrites
  rw [List.filter_filter]
  congr 2
  funext o
  by_cases ho : o.channelId = k
  · simp [ho, hk]
  · simp [ho]

theorem ownOverwrites_copyOverwrites_ne {k source destination : Nat} (hk : k ≠ destination) :
    (g.copyOverwrites source destination).ownOverwrites k = g.ownOverwrites k := by
  have hdeleted := ownOverwrites_deleteOverwrites_ne (g := g) hk
  unfold ownOverwrites at hdeleted ⊢
  simp only [copyOverwrites, List.filter_append, List.map_append, hdeleted]
  simp [Ne.symm hk]

theorem ownOverwrites_copyOverwrites {source destination : Nat} (hne : source ≠ destination) :
    (g.copyOverwrites source destination).ownOverwrites destination = g.ownOverwrites source := by
  have hsource := ownOverwrites_deleteOverwrites_ne (g := g) hne
  have hgone : (g.deleteOverwrites destination).overwrites.filter
      (fun o => o.channelId = destination) = [] := by
    simp [deleteOverwrites]
  have hdest : (g.copyOverwrites source destination).ownOverwrites destination
      = (g.deleteOverwrites destination).ownOverwrites source := by
    rw [ownOverwrites, copyOverwrites, List.filter_append, hgone]
    simp [List.filter_map, Function.comp_def]
  rw [hdest, hsource]

/-- A synced channel leaves its category with the overwrites it had there. -/
theorem unsync_ok (hg : g.ValidTree) (hc : c ∈ g.channels) (hs : c.permissionsSynced = true) :
    ∃ g₁, g.unsync c = .ok g₁ ∧
      g₁.channels = updateBy Channel.id c.id (fun d => { d with permissionsSynced := false })
        g.channels ∧
      g₁.ownOverwrites c.id = g.effectiveOverwrites c ∧
      ∀ k, k ≠ c.id → g₁.ownOverwrites k = g.ownOverwrites k := by
  obtain ⟨parent, hp, heq, hcat⟩ := hg.synced c hc hs
  have hne : parent.id ≠ c.id := (hg.parent_ok hc parent.id heq).1
  have hsource : g.overwriteSourceChannel c = .ok parent := by
    simp [overwriteSourceChannel, heq, hs, hg.channel? hp, hcat, found, Option.filter_some]
  refine ⟨_, by rw [unsync, hsource]; exact if_neg hne, rfl, ?_, ?_⟩
  · have heff : g.effectiveOverwrites c = g.ownOverwrites parent.id := by
      simp [effectiveOverwrites, hs, heq]
    rw [heff]
    exact ownOverwrites_copyOverwrites hne
  · intro k hk
    exact ownOverwrites_copyOverwrites_ne hk

end Guild

/-- The row of a channel that leaves its category when it moves. -/
def Channel.leave (c : Channel) (moved : Bool) : Channel :=
  { c with permissionsSynced := c.permissionsSynced && !moved }

theorem Channel.leave_of_not {c : Channel} {moved : Bool}
    (h : ¬ (moved = true ∧ c.permissionsSynced = true)) : c.leave moved = c := by
  have hsynced : (c.permissionsSynced && !moved) = c.permissionsSynced := by
    cases moved <;> cases hs : c.permissionsSynced <;> simp_all
  rw [Channel.leave, hsynced]

namespace Guild

variable {g g' : Guild} {c row : Channel}

/-- The state in which the row of `c` is rewritten: as it was, or with `c`
unsynced when it is synced and moves. -/
structure Left (g g₁ : Guild) (c : Channel) (moved : Bool) : Prop where
  rows : g₁.channels = updateBy Channel.id c.id (fun _ => c.leave moved) g.channels
  others : ∀ k, k ≠ c.id → g₁.ownOverwrites k = g.ownOverwrites k
  own : g₁.ownOverwrites c.id =
    if moved ∧ c.permissionsSynced then g.effectiveOverwrites c else g.ownOverwrites c.id

theorem leave_ok (moved : Bool) (hg : g.ValidTree) (hc : c ∈ g.channels) :
    ∃ g₁, (if moved ∧ c.permissionsSynced then g.unsync c else .ok g) = .ok g₁ ∧
      g.Left g₁ c moved := by
  by_cases hmoved : moved = true ∧ c.permissionsSynced = true
  · obtain ⟨g₁, hok, hrows, hown, hothers⟩ := unsync_ok hg hc hmoved.2
    refine ⟨g₁, by rw [if_pos hmoved, hok], ?_, hothers, ?_⟩
    · rw [hrows, updateBy_const hg.ids hc]
      simp [Channel.leave, hmoved]
    · rw [if_pos hmoved, hown]
  · refine ⟨g, by rw [if_neg hmoved], ?_, fun _ _ => rfl, by rw [if_neg hmoved]⟩
    rw [Channel.leave_of_not hmoved, ← updateBy_const hg.ids hc (f := fun d => d)]
    simp [updateBy]

theorem Left.rows_write {g₁ : Guild} {moved : Bool} {F : Channel → Channel}
    (hleft : g.Left g₁ c moved) : updateBy Channel.id c.id F g₁.channels
      = updateBy Channel.id c.id (fun _ => F (c.leave moved)) g.channels := by
  have hid : ∀ d : Channel, d.id = c.id → (c.leave moved).id = c.id := fun _ _ => rfl
  rw [hleft.rows, updateBy_updateBy hid]

/-- The row is then written with its new parent. -/
theorem Left.keepsAccess {g₁ : Guild} {moved : Bool} {F : Channel → Channel}
    (hleft : g.Left g₁ c moved) (hg : g.ValidTree) (hc : c ∈ g.channels)
    (hchannels : g'.channels = updateBy Channel.id c.id F g₁.channels)
    (hoverwrites : g'.overwrites = g₁.overwrites)
    (hrow : F (c.leave moved) = row)
    (hid : row.id = c.id) (htype : row.type = c.type)
    (hsynced : row.permissionsSynced = (c.permissionsSynced && !moved))
    (hthread : c.type.isThread = false) (hstays : moved = false → row.parentId = c.parentId)
    (hparent : ∀ p ∈ row.parentId, p ≠ c.id ∧ p ∈ g.channels.map Channel.id) :
    g.KeepsAccess g' := by
  have hown : g'.ownOverwrites = g₁.ownOverwrites := by
    funext k
    rw [ownOverwrites, hoverwrites, ownOverwrites]
  have hrows : g'.channels = updateBy Channel.id c.id (fun _ => row) g.channels := by
    rw [hchannels, hleft.rows_write, hrow]
  refine KeepsAccess.of_row hg hc hrows ?_ hid htype hthread hparent ?_
  · intro k hk
    rw [hown, hleft.others k hk]
  · have hself := hleft.own
    rw [← hown] at hself
    by_cases hmoved : moved = true ∧ c.permissionsSynced = true
    · refine .leaves hmoved.2 (by rw [hsynced, hmoved.1, Bool.not_true, Bool.and_false]) ?_
      rw [hself, if_pos hmoved]
    · rw [if_neg hmoved] at hself
      have hstill : c.permissionsSynced = true → moved = false := by
        intro hs
        rw [Bool.eq_false_iff]
        exact fun hm => hmoved ⟨hm, hs⟩
      refine .stays ?_ (fun hs => hstays (hstill hs)) hself
      cases hs : c.permissionsSynced with
      | false => rw [hsynced, hs, Bool.false_and]
      | true => rw [hsynced, hs, hstill hs, Bool.not_false, Bool.and_self]

end Guild

/-- The refusals that a channel's sync flag can cause. -/
def GuildError.forSync : GuildError → Bool
  | .channelParentInvalid => true
  | .integrityError => true
  | _ => false

/-- Pausing a channel leaves it where it is. -/
theorem Channel.pause_place {p : Prop} [Decidable p] {c row : Channel}
    (h : (if p then c.pause else c) = row) :
    row.id = c.id ∧ row.type = c.type ∧ row.parentId = c.parentId ∧
      row.permissionsSynced = c.permissionsSynced := by
  subst h
  unfold Channel.pause
  repeat' split
  all_goals exact ⟨rfl, rfl, rfl, rfl⟩

namespace Guild

variable {g g' : Guild} {c row : Channel}

/-! ## Updates -/

theorem guildChannel_outcome {id : Nat} :
    Outcome (g.guildChannel id) (fun c => c ∈ g.channels ∧ c.id = id) (·.forSync = false) := by
  refine outcome_found (fun _ => rfl) ?_
  intro c hc
  obtain ⟨hlookup, -⟩ := Option.filter_eq_some_iff.mp hc
  exact ⟨mem_of_lookupBy hlookup, key_of_lookupBy hlookup⟩

theorem requirePermissions_outcome {mask needed : Nat} :
    Outcome (requirePermissions mask needed) (fun _ => True) (·.forSync = false) :=
  outcome_ensure (fun _ => rfl) fun _ => trivial

theorem requireBotChannelGrant_outcome {actor : User} {channels : List Channel} :
    Outcome (g.requireBotChannelGrant actor channels) (fun _ => True) (·.forSync = false) := by
  unfold requireBotChannelGrant
  split
  · trivial
  · refine Outcome.bind (outcome_ensure (fun _ => rfl) fun _ => ?_)
    exact outcome_forEach fun c _ => outcome_ensure (fun _ => rfl) fun _ => trivial

theorem requireCurrentVersion_outcome {updatedAt : Nat} {version : Option Nat} :
    Outcome (requireCurrentVersion updatedAt version) (fun _ => True) (·.forSync = false) := by
  cases version with
  | none => rfl
  | some v => exact outcome_ensure (fun _ => rfl) fun _ => trivial

theorem checkChannelFields_outcome {payload : ChannelUpdate} {ctx : ChannelUpdateContext} :
    Outcome (checkChannelFields c payload ctx) (fun _ => True) (·.forSync = false) := by
  unfold checkChannelFields
  iterate 6 refine Outcome.bind (outcome_ensure (fun _ => rfl) fun _ => ?_)
  exact outcome_ensure (fun _ => rfl) fun _ => trivial

theorem checkParent_outcome {actor : User} {parent : Option Nat} {parentMask : Nat} :
    Outcome (g.checkParent actor c parent parentMask)
      (fun _ => ∀ p ∈ parent, p ≠ c.id ∧ p ∈ g.channels.map Channel.id) (·.forSync = false) := by
  refine Outcome.bind (outcome_ensure (fun _ => rfl) fun hself => ?_)
  cases parent with
  | none => simp [Outcome]
  | some parentId =>
      refine Outcome.bind (outcome_ensure (fun _ => rfl) fun _ => ?_)
      refine Outcome.bind (guildChannel_outcome.imp fun row hrow => ?_)
      refine Outcome.bind (outcome_ensure (fun _ => rfl) fun _ => ?_)
      refine Outcome.bind (requireBotChannelGrant_outcome.imp fun _ _ => ?_)
      have hparent : ∀ p ∈ some parentId, p ≠ c.id ∧ p ∈ g.channels.map Channel.id := by
        rintro p ⟨⟩
        refine ⟨fun h => hself (by rw [h]), ?_⟩
        rw [← hrow.2]
        exact List.mem_map_of_mem hrow.1
      split
      · exact hparent
      · exact requirePermissions_outcome.imp fun _ _ => hparent

theorem commitChannels_outcome (h : g.KeepsAccess g') :
    Outcome (commitChannels g') g.KeepsAccess (·.forSync = false) := by
  have hrows : g'.channels.all Channel.constraintsHold = true :=
    List.all_eq_true.mpr h.valid.rows
  rw [commitChannels, if_pos hrows]
  exact h

/-- The rows and overwrites are all that counts. -/
theorem KeepsAccess.congr {g'' : Guild} (h : g.KeepsAccess g')
    (hchannels : g''.channels = g'.channels) (hoverwrites : g''.overwrites = g'.overwrites) :
    g.KeepsAccess g'' := by
  obtain ⟨⟨hids, hrows, hparents, hsynced⟩, haccess⟩ := h
  have heff : ∀ d, g''.effectiveOverwrites d = g'.effectiveOverwrites d := by
    intro d
    have hown : g''.ownOverwrites = g'.ownOverwrites := by
      funext k
      rw [ownOverwrites, hoverwrites, ownOverwrites]
    rw [effectiveOverwrites, hown, effectiveOverwrites]
  refine ⟨⟨?_, ?_, ?_, ?_⟩, ?_⟩
  · rwa [hchannels]
  · rwa [hchannels]
  · rwa [hchannels]
  · unfold InCategory at hsynced ⊢
    rwa [hchannels]
  · simp only [heff]
    rwa [hchannels]

theorem storeUpdate_outcome {g₁ : Guild} {payload : ChannelUpdate} {now : Nat}
    (hleft : g.Left g₁ c (payload.parentChanged c)) (hg : g.ValidTree) (hc : c ∈ g.channels)
    (hsync : payload.syncPermissions = false) (hthread : c.type.isThread = false)
    (hparent : ∀ p ∈ payload.target c, p ≠ c.id ∧ p ∈ g.channels.map Channel.id) :
    Outcome (g₁.storeUpdate c payload now) g.KeepsAccess (·.forSync = false) := by
  apply commitChannels_outcome
  set written := { payload.updated c with updatedAt := now } with hwritten
  set row := if payload.changesPermissions c then written.pause else written with hrow
  obtain ⟨hid, htype, hpar, hsyn⟩ := Channel.pause_place hrow.symm
  have hsyn' : row.permissionsSynced = (c.permissionsSynced && !payload.parentChanged c) := by
    rw [hsyn, hwritten]
    simp [ChannelUpdate.updated, hsync]
  replace hpar : row.parentId = payload.target c := hpar
  have hstored : g.KeepsAccess (g₁.updateChannelRow c.id fun _ => row) := by
    refine hleft.keepsAccess hg hc rfl rfl rfl hid htype hsyn' hthread ?_ ?_
    · intro hstays
      rw [hpar]
      simpa [ChannelUpdate.parentChanged] using hstays
    · rwa [hpar]
  apply hstored.congr
  · split <;> rfl
  · split <;> rfl

theorem updateChannel_outcome {actor : User} {channelId now : Nat} {payload : ChannelUpdate}
    {version : Option Nat} {ctx : ChannelUpdateContext} (hg : g.ValidTree)
    (hsync : payload.syncPermissions = false) :
    Outcome (g.updateChannel actor channelId payload version ctx now) g.KeepsAccess
      (·.forSync = false) := by
  unfold updateChannel
  refine Outcome.bind (guildChannel_outcome.imp fun c hc => ?_)
  obtain ⟨hc, rfl⟩ := hc
  refine Outcome.bind (outcome_ensure (fun _ => rfl) fun hthread => ?_)
  refine Outcome.bind (requireCurrentVersion_outcome.imp fun _ _ => ?_)
  refine Outcome.bind (requirePermissions_outcome.imp fun _ _ => ?_)
  refine Outcome.bind (checkChannelFields_outcome.imp fun _ _ => ?_)
  -- the new parent is another existing channel, or the one it has
  have hparent : Outcome (if payload.parentId.isSome then
      g.checkParent actor c (payload.target c) ctx.parentMask else .ok ())
      (fun _ => ∀ p ∈ payload.target c, p ≠ c.id ∧ p ∈ g.channels.map Channel.id)
      (·.forSync = false) := by
    split
    · exact checkParent_outcome
    · next hsome =>
        have hkeep : payload.target c = c.parentId := by
          rw [ChannelUpdate.target, Option.not_isSome_iff_eq_none.mp hsome]
          rfl
        rw [hkeep]
        exact hg.parent_ok hc
  refine Outcome.bind (hparent.imp fun _ hparent => ?_)
  obtain ⟨g₁, hok, hleft⟩ := leave_ok (payload.parentChanged c) hg hc
  rw [hok, hsync]
  show Outcome (if payload.updated c = c then .ok g else g₁.storeUpdate c payload now) _ _
  split
  · exact KeepsAccess.refl hg
  · exact storeUpdate_outcome hleft hg hc hsync hthread hparent

/-! ## Reordering -/

/-- What the first loop has established about a move. -/
structure Fits (g : Guild) (move : PlannedMove) : Prop where
  supplied : move.parentChanged = true → move.item.parentId.isSome = true
  row : ∃ c ∈ g.channels, c.id = move.item.id ∧ c.type.isThread = false ∧
    (move.parentChanged = false → move.item.parentId.isSome = true →
      move.nextParentId = c.parentId)
  parent : ∀ p ∈ move.nextParentId, p ≠ move.item.id ∧ p ∈ g.channels.map Channel.id

/-- A move that asks for no lock goes through and changes only its row. -/
theorem applyMove_ok {move : PlannedMove} (hg : g.ValidTree) (hfits : g.Fits move)
    (hlock : move.item.lockPermissions ≠ some true) :
    ∃ g', g.applyMove move = .ok g' ∧ g.KeepsAccess g' ∧
      g'.channels.map Channel.id = g.channels.map Channel.id ∧
      ∀ d ∈ g.channels, d.id ≠ move.item.id → d ∈ g'.channels := by
  obtain ⟨c, hc, hid, hthread, hsame⟩ := hfits.row
  have hlookup : g.channel? move.item.id = some c := hid ▸ hg.channel? hc
  obtain ⟨g₁, hok, hleft⟩ := leave_ok move.parentChanged hg hc
  -- categories are not synced, so the condition on the type adds nothing
  have hcond : ((c.type ≠ .category ∧ move.parentChanged = true) ∧ move.parentChanged = true ∧
      c.permissionsSynced = true) ↔ (move.parentChanged = true ∧ c.permissionsSynced = true) :=
    ⟨fun h => h.2, fun h => ⟨⟨hg.not_category hc h.2, h.1⟩, h⟩⟩
  unfold applyMove
  simp only [hlookup, hlock, found, false_and, and_false, or_false, if_false, not_false_eq_true,
    true_and, ok_bind, hcond, hok]
  by_cases hskip : ¬ move.parentChanged = true ∧
      ¬ (move.item.flags.any fun f => decide (f ≠ c.flags)) = true
  · exact ⟨g, if_pos hskip, KeepsAccess.refl hg, rfl, fun d hd _ => hd⟩
  obtain ⟨hrid, hrtype, hrpar, hrsyn⟩ := Channel.pause_place
    (p := c.type ≠ .category ∧ move.parentChanged = true)
    (c := move.write (c.leave move.parentChanged)) rfl
  have hpar : (move.write (c.leave move.parentChanged)).parentId
      = if move.item.parentId.isSome then move.nextParentId else c.parentId := rfl
  rw [hpar] at hrpar
  refine ⟨_, if_neg hskip, ?_, ?_, ?_⟩
  · refine hleft.keepsAccess hg hc rfl rfl rfl hrid hrtype hrsyn hthread ?_ ?_
    · intro hstays
      rw [hrpar]
      split
      · next hsome => exact hsame hstays hsome
      · rfl
    · rw [hrpar, hid]
      split
      · exact hfits.parent
      · exact hid ▸ hg.parent_ok hc
  · rw [updateChannelRow, hleft.rows_write, map_key_updateBy]
    exact fun _ _ => hrid
  · intro d hd hne
    rw [updateChannelRow, hleft.rows_write]
    exact mem_updateBy_of_ne hd (hid ▸ hne)

/-- The moves of a batch are about different channels, so each one finds
its row as the first loop read it. -/
theorem applyMoves_ok {moves : List PlannedMove} (hg : g.ValidTree)
    (hfits : ∀ m ∈ moves, g.Fits m) (hnodup : (moves.map fun m => m.item.id).Nodup)
    (hlock : ∀ m ∈ moves, m.item.lockPermissions ≠ some true) :
    ∃ g', applyMoves moves g = .ok g' ∧ g.KeepsAccess g' := by
  induction moves generalizing g with
  | nil => exact ⟨g, rfl, KeepsAccess.refl hg⟩
  | cons move rest ih =>
      rw [List.map_cons, List.nodup_cons] at hnodup
      obtain ⟨g₁, hmove, hkeeps, hids, hothers⟩ := applyMove_ok hg
        (hfits move List.mem_cons_self) (hlock move List.mem_cons_self)
      have hfits₁ : ∀ m ∈ rest, g₁.Fits m := by
        intro m hm
        obtain ⟨hsupplied, ⟨c, hc, hid, hrow⟩, hparent⟩ := hfits m (List.mem_cons_of_mem move hm)
        have hne : c.id ≠ move.item.id := by
          rw [hid]
          intro heq
          exact hnodup.1 (heq ▸ List.mem_map_of_mem hm)
        exact ⟨hsupplied, ⟨c, hothers c hc hne, hid, hrow⟩, by rwa [hids]⟩
      obtain ⟨g', hrest, hkeeps'⟩ := ih hkeeps.valid hfits₁ hnodup.2
        fun m hm => hlock m (List.mem_cons_of_mem move hm)
      refine ⟨g', ?_, hkeeps.trans hkeeps'⟩
      rw [applyMoves, hmove]
      exact hrest

theorem mem_orderedChannels {c : Channel} :
    c ∈ g.orderedChannels ↔ c ∈ g.channels ∧ c.unavailable = false ∧ c.type.isThread = false := by
  simp [orderedChannels, List.mem_mergeSort]

theorem checkNextParent_outcome {item : ChannelPosition} {next : Option Nat}
    (hid : c.id = item.id) :
    Outcome (checkNextParent g.orderedChannels item c next)
      (fun _ => ∀ p ∈ next, p ≠ item.id ∧ p ∈ g.channels.map Channel.id) (·.forSync = false) := by
  cases next with
  | none => exact outcome_ensure (fun _ => rfl) fun _ => by simp
  | some p =>
      refine Outcome.bind (outcome_found (fun _ => rfl) fun parent hp => ?_)
      refine outcome_ensure (fun _ => rfl) fun hne => ?_
      obtain ⟨hlookup, -⟩ := Option.filter_eq_some_iff.mp hp
      rw [key_of_lookupBy hlookup, hid] at hne
      rintro q ⟨⟩
      refine ⟨hne, ?_⟩
      rw [← key_of_lookupBy hlookup]
      exact List.mem_map_of_mem (mem_orderedChannels.mp (mem_of_lookupBy hlookup)).1

theorem planMoves_outcome {items : List ChannelPosition} {checks : List (Nat × Nat)} :
    Outcome (planMoves g.orderedChannels items checks)
      (fun plan => (plan.1.map PlannedMove.item = items) ∧ ∀ m ∈ plan.1, g.Fits m)
      (·.forSync = false) := by
  induction items generalizing checks with
  | nil => exact ⟨rfl, by simp⟩
  | cons item rest ih =>
      refine Outcome.bind (outcome_found (fun _ => rfl) fun c hc => ?_)
      have hmem := mem_orderedChannels.mp (mem_of_lookupBy hc)
      refine Outcome.bind (outcome_ensure (fun _ => rfl) fun _ => ?_)
      have hid := key_of_lookupBy hc
      refine Outcome.bind ((checkNextParent_outcome hid).imp fun _ hparent => ?_)
      refine Outcome.bind (outcome_ensure (fun _ => rfl) fun _ => ?_)
      refine Outcome.bind (ih.imp fun plan hplan => ?_)
      refine ⟨by rw [List.map_cons, hplan.1], ?_⟩
      intro m hm
      rcases List.mem_cons.mp hm with rfl | hm
      · refine ⟨?_, ⟨c, hmem.1, hid, hmem.2.2, ?_⟩, hparent⟩
        · intro hchanged
          exact (Bool.and_eq_true_iff.mp hchanged).1
        · intro hsame hsome
          simpa [hsome] using hsame
      · exact hplan.2 m hm

theorem KeepsAccess.of_stamp {f : Channel → Channel} (hg : g.ValidTree)
    (hchannels : g'.channels = g.channels.map f) (hoverwrites : g'.overwrites = g.overwrites)
    (hf : ∀ c, (f c).id = c.id ∧ (f c).type = c.type ∧ (f c).parentId = c.parentId ∧
      (f c).permissionsSynced = c.permissionsSynced ∧ (f c).unavailable = c.unavailable) :
    g.KeepsAccess g' := by
  have hown : g'.ownOverwrites = g.ownOverwrites := by
    funext k
    rw [ownOverwrites, hoverwrites, ownOverwrites]
  refine of_map hg hchannels (fun c => (hf c).1) (fun c _ => (hf c).2.1) ?_ ?_ ?_
  · intro c hc
    obtain ⟨hid, htype, hparent, hsynced, hunavailable⟩ := hf c
    rw [Channel.constraintsHold_iff, hid, htype, hparent, hsynced, hunavailable]
    exact Channel.constraintsHold_iff.mp (hg.rows c hc)
  · intro c hc
    rw [(hf c).2.2.1]
    exact hg.parents c hc
  · intro c _
    exact .stays (hf c).2.2.2.1 (fun _ => (hf c).2.2.1) (by rw [hown])

theorem setPositions_keepsAccess (hg : g.ValidTree) (order : List Nat) :
    g.KeepsAccess (g.setPositions order) := by
  refine .of_stamp hg rfl rfl ?_
  intro c
  split <;> exact ⟨rfl, rfl, rfl, rfl, rfl⟩

theorem touchChanged_keepsAccess (hg : g.ValidTree) (before : Guild) (now : Nat) :
    g.KeepsAccess (g.touchChanged before now) := by
  refine .of_stamp hg rfl rfl ?_
  intro c
  split <;> exact ⟨rfl, rfl, rfl, rfl, rfl⟩

theorem reorderChannels_outcome {actor : User} {actorPermissions now : Nat} {masks : Nat → Nat}
    {payload : ChannelPositionBatch} (hg : g.ValidTree)
    (hlock : ∀ i ∈ payload.channels, i.lockPermissions ≠ some true) :
    Outcome (g.reorderChannels actor actorPermissions masks payload now) g.KeepsAccess
      (·.forSync = false) := by
  unfold reorderChannels
  refine Outcome.bind (requirePermissions_outcome.imp fun _ _ => ?_)
  refine Outcome.bind (outcome_ensure (fun _ => rfl) fun _ => ?_)
  refine Outcome.bind (outcome_ensure (fun _ => rfl) fun _ => ?_)
  refine Outcome.bind (planMoves_outcome.imp fun plan hplan => ?_)
  obtain ⟨moves, checks⟩ := plan
  obtain ⟨hitems, hfits⟩ := hplan
  refine Outcome.bind (outcome_ensure (fun _ => rfl) fun _ => ?_)
  refine Outcome.bind (requireBotChannelGrant_outcome.imp fun _ _ => ?_)
  refine Outcome.bind ((outcome_forEach fun _ _ => requirePermissions_outcome).imp fun _ _ => ?_)
  have hnodup : (moves.map fun m => m.item.id).Nodup := by
    have hunique := payload.uniqueIds
    rwa [← hitems, List.map_map] at hunique
  have hlocks : ∀ m ∈ moves, m.item.lockPermissions ≠ some true := by
    intro m hm
    exact hlock m.item (hitems ▸ List.mem_map_of_mem hm)
  obtain ⟨g₁, hmoves, hkeeps⟩ := applyMoves_ok hg hfits hnodup hlocks
  rw [hmoves, ok_bind]
  show Outcome (if Guild.channels _ = g.channels then .ok g else storeOrder _ _) _ _
  split
  · exact KeepsAccess.refl hg
  · have hpositions := setPositions_keepsAccess hkeeps.valid
      (finalOrder g.orderedChannels payload.channels)
    have htouched := touchChanged_keepsAccess hpositions.valid g now
    apply commitChannels_outcome
    apply (hkeeps.trans (hpositions.trans htouched)).congr
    · split <;> rfl
    · split <;> rfl

/-! ## Deleting -/

/-- The request gets past every check of `deleteChannel`. -/
structure PassesChecks (g : Guild) (channelId : Nat) (ctx : DeleteContext) : Prop where
  channel : ∃ c, g.guildChannel channelId = .ok c ∧ c.type.isThread = false
  mask : ctx.mask &&& Permission.manageChannels = Permission.manageChannels
  messages : ctx.messageExists = false
  threads : ∀ c ∈ g.channels, ¬ (c.parentId = some channelId ∧ c.type.isThread ∧ ¬ c.unavailable)
  announcements : ctx.announcementDependencies = false
  deletable : ctx.deletable = true

def HasSyncedChild (g : Guild) (channelId : Nat) : Prop :=
  ∃ c ∈ g.channels, c.parentId = some channelId ∧ c.permissionsSynced = true

/-- The rest of the request, or one of the refusals before it. -/
theorem deleteChannel_cases (g : Guild) (channelId : Nat) (ctx : DeleteContext) :
    g.PassesChecks channelId ctx ∧
        g.deleteChannel channelId ctx = commitChannels (g.dropChannel channelId) ∨
      ¬ g.PassesChecks channelId ctx ∧
        Outcome (g.deleteChannel channelId ctx) (fun _ => False) (·.forSync = false) := by
  by_cases hpasses : g.PassesChecks channelId ctx
  · left
    refine ⟨hpasses, ?_⟩
    obtain ⟨⟨c, hc, hthread⟩, hmask, hmessages, hthreads, hannouncements, hdeletable⟩ := hpasses
    simp only [deleteChannel, requirePermissions, ensure, hc, ok_bind, hthread, hmask, hmessages,
      hannouncements, hdeletable, if_true, if_pos hthreads]
    rfl
  · right
    refine ⟨hpasses, ?_⟩
    unfold deleteChannel
    cases hc : g.guildChannel channelId with
    | error e =>
        have hout : Outcome (g.guildChannel channelId)
            (fun c => c ∈ g.channels ∧ c.id = channelId) (·.forSync = false) :=
          guildChannel_outcome
        rw [hc] at hout
        exact hout
    | ok c =>
        rw [ok_bind]
        refine Outcome.bind (outcome_ensure (fun _ => rfl) fun hthread => ?_)
        refine Outcome.bind (outcome_ensure (fun _ => rfl) fun hmask => ?_)
        refine Outcome.bind (outcome_ensure (fun _ => rfl) fun hmessages => ?_)
        refine Outcome.bind (outcome_ensure (fun _ => rfl) fun hthreads => ?_)
        refine Outcome.bind (outcome_ensure (fun _ => rfl) fun hannouncements => ?_)
        refine Outcome.bind (outcome_ensure (fun _ => rfl) fun hdeletable => ?_)
        exact absurd ⟨⟨c, hc, hthread⟩, hmask, hmessages, hthreads, hannouncements, hdeletable⟩
          hpasses

theorem ownOverwrites_dropChannel {k channelId : Nat} (hk : k ≠ channelId) :
    (g.dropChannel channelId).ownOverwrites k = g.ownOverwrites k :=
  ownOverwrites_deleteOverwrites_ne hk

theorem mem_dropChannel {channelId : Nat} {c' : Channel} :
    c' ∈ (g.dropChannel channelId).channels ↔ ∃ c ∈ g.channels, c.id ≠ channelId ∧
      (if c.parentId = some channelId then { c with parentId := none } else c) = c' := by
  simp [dropChannel, and_assoc]

/-- Without synced children nothing depended on the channel. -/
theorem dropChannel_keepsAccess {channelId : Nat} (hg : g.ValidTree)
    (hthreads : ∀ c ∈ g.channels,
      ¬ (c.parentId = some channelId ∧ c.type.isThread ∧ ¬ c.unavailable))
    (hsynced : ¬ g.HasSyncedChild channelId) : g.KeepsAccess (g.dropChannel channelId) := by
  have hids : (g.dropChannel channelId).channels.map Channel.id
      = (g.channels.map Channel.id).filter fun id => id ≠ channelId := by
    rw [dropChannel, List.map_map, List.filter_map]
    apply List.map_congr_left
    intro c _
    show Channel.id (if _ then _ else _) = c.id
    split <;> rfl
  have hkept : ∀ c ∈ g.channels, c.permissionsSynced = true → c.parentId ≠ some channelId :=
    fun c hc hs hp => hsynced ⟨c, hc, hp, hs⟩
  refine ⟨⟨?_, ?_, ?_, ?_⟩, ?_⟩
  · rw [hids]
    exact hg.ids.filter _
  · intro c' hc'
    obtain ⟨c, hc, hne, rfl⟩ := mem_dropChannel.mp hc'
    split
    · next hp =>
        rw [Channel.constraintsHold_iff]
        refine ⟨by simp, fun hs => absurd hp (hkept c hc hs), fun ht => .inl ?_⟩
        by_contra havailable
        exact hthreads c hc ⟨hp, ht, havailable⟩
    · exact hg.rows c hc
  · intro c' hc' p hp
    obtain ⟨c, hc, hne, rfl⟩ := mem_dropChannel.mp hc'
    rw [hids]
    split at hp
    · cases hp
    · next hother =>
        refine List.mem_filter.mpr ⟨hg.parents c hc p hp, ?_⟩
        rw [decide_eq_true_eq]
        rintro rfl
        exact hother hp
  · intro c' hc' hs
    obtain ⟨c, hc, hne, rfl⟩ := mem_dropChannel.mp hc'
    have hcs : c.permissionsSynced = true := by
      split at hs <;> exact hs
    obtain ⟨parent, hp, heq, hcat⟩ := hg.synced c hc hcs
    have hpne : parent.id ≠ channelId := fun h => hkept c hc hcs (h ▸ heq)
    rw [if_neg (hkept c hc hcs)]
    refine ⟨_, mem_dropChannel.mpr ⟨parent, hp, hpne, rfl⟩, ?_, ?_⟩
    · split <;> exact heq
    · split <;> exact hcat
  · intro c' hc'
    obtain ⟨c, hc, hne, rfl⟩ := mem_dropChannel.mp hc'
    refine ⟨c, hc, by split <;> rfl, ?_⟩
    by_cases hcs : c.permissionsSynced = true
    · obtain ⟨parent, hp, heq, hcat⟩ := hg.synced c hc hcs
      have hpne : parent.id ≠ channelId := fun h => hkept c hc hcs (h ▸ heq)
      rw [if_neg (hkept c hc hcs)]
      simp only [effectiveOverwrites, hcs, if_true, heq, Option.elim_some]
      exact ownOverwrites_dropChannel hpne
    · split
      all_goals simp only [effectiveOverwrites, hcs]
      all_goals exact ownOverwrites_dropChannel hne

/-- A synced child violates `permission_sync_requires_parent` once its
parent is gone. -/
theorem dropChannel_refused {channelId : Nat} (hg : g.ValidTree)
    (hsynced : g.HasSyncedChild channelId) :
    commitChannels (g.dropChannel channelId) = .error .integrityError := by
  obtain ⟨c, hc, hp, hs⟩ := hsynced
  have hne : c.id ≠ channelId := fun h => (hg.parent_ok hc channelId hp).1 h.symm
  have hmem : { c with parentId := none } ∈ (g.dropChannel channelId).channels :=
    mem_dropChannel.mpr ⟨c, hc, hne, if_pos hp⟩
  have hviolated : ({ c with parentId := none } : Channel).constraintsHold = false := by
    rw [Bool.eq_false_iff]
    intro hholds
    exact ((Channel.constraintsHold_iff.mp hholds).2.1 hs).1 rfl
  rw [commitChannels, if_neg]
  intro hall
  rw [List.all_eq_true.mp hall _ hmem] at hviolated
  cases hviolated

end Guild

/-! ## The calls that change categories -/

inductive CategoryCall where
  | update (actor : User) (channelId : Nat) (payload : ChannelUpdate) (version : Option Nat)
      (ctx : ChannelUpdateContext)
  | reorder (actor : User) (actorPermissions : Nat) (masks : Nat → Nat)
      (payload : ChannelPositionBatch)
  | delete (channelId : Nat) (ctx : DeleteContext)

namespace CategoryCall

def run (call : CategoryCall) (g : Guild) (now : Nat) : Except GuildError Guild :=
  match call with
  | update actor channelId payload version ctx =>
      g.updateChannel actor channelId payload version ctx now
  | reorder actor actorPermissions masks payload =>
      g.reorderChannels actor actorPermissions masks payload now
  | delete channelId ctx => g.deleteChannel channelId ctx

/-- The request asks for a channel to be synced. -/
def AsksForSync : CategoryCall → Prop
  | update _ _ payload _ _ => payload.syncPermissions = true
  | reorder _ _ _ payload => ∃ i ∈ payload.channels, i.lockPermissions = some true
  | delete _ _ => False

/-- The request deletes a category that channels are synced with. -/
def DeletesSyncedCategory (call : CategoryCall) (g : Guild) : Prop :=
  match call with
  | update .. => False
  | reorder .. => False
  | delete channelId ctx => g.PassesChecks channelId ctx ∧ g.HasSyncedChild channelId

end CategoryCall

/-- No refusal over a sync flag, no synced channel without a category, and
the same effective overwrites for every channel that is left. -/
def AccessPreserved (g : Guild) (result : Except GuildError Guild) : Prop :=
  Outcome result
    (fun g' => (∀ c ∈ g'.channels, c.permissionsSynced = true → g'.InCategory c) ∧
      ∀ c' ∈ g'.channels, ∃ c ∈ g.channels, c.id = c'.id ∧
        g'.effectiveOverwrites c' = g.effectiveOverwrites c)
    (fun e => e.forSync = false)

theorem AccessPreserved.of_keepsAccess {g : Guild} {result : Except GuildError Guild}
    (h : Outcome result g.KeepsAccess (·.forSync = false)) : AccessPreserved g result :=
  h.imp fun _ hkeeps => ⟨hkeeps.valid.synced, hkeeps.access⟩

theorem category_change_preserves_access_iff {g : Guild} {call : CategoryCall} (now : Nat)
    (hg : g.ValidTree) (hsync : ¬ call.AsksForSync) :
    AccessPreserved g (call.run g now) ↔ ¬ call.DeletesSyncedCategory g := by
  cases call with
  | update actor channelId payload version ctx =>
      refine iff_of_true ?_ id
      exact .of_keepsAccess (Guild.updateChannel_outcome hg (Bool.eq_false_iff.mpr hsync))
  | reorder actor actorPermissions masks payload =>
      refine iff_of_true ?_ id
      exact .of_keepsAccess (Guild.reorderChannels_outcome hg fun i hi hl => hsync ⟨i, hi, hl⟩)
  | delete channelId ctx =>
      show AccessPreserved g (g.deleteChannel channelId ctx) ↔
        ¬ (g.PassesChecks channelId ctx ∧ g.HasSyncedChild channelId)
      rcases g.deleteChannel_cases channelId ctx with ⟨hpasses, heq⟩ | ⟨hrefused, hout⟩
      · rw [heq]
        by_cases hchild : g.HasSyncedChild channelId
        · refine iff_of_false ?_ fun h => h ⟨hpasses, hchild⟩
          rw [Guild.dropChannel_refused hg hchild]
          intro h
          cases h
        · refine iff_of_true ?_ fun h => hchild h.2
          exact .of_keepsAccess (Guild.commitChannels_outcome
            (Guild.dropChannel_keepsAccess hg hpasses.threads hchild))
      · refine iff_of_true ?_ fun h => hrefused h.1
        exact hout.imp fun _ h => h.elim

/-- A category with an overwrite for @everyone and a channel synced with it. -/
def sampleTree : Guild where
  id := 1
  domain := "kaede.example"
  owner := { id := 7, domain := "kaede.example" }
  permissionGeneration := 1
  onboarding :=
    { enabled := false, revision := 0, rulesRevision := 0, rules := [], defaultChannelIds := []
      questions := [], guide := [] }
  roles := []
  members := []
  memberRoles := []
  channels :=
    [{ id := 10, type := .category },
      { id := 11, type := .text, parentId := some 10, permissionsSynced := true }]
  overwrites :=
    [{ channelId := 10
       overwrite :=
        { targetId := 1, targetDomain := "kaede.example", targetType := .role, allow := 0
          deny := Permission.viewChannel } }]
  threadMembers := []
  installations := []

theorem sampleTree_valid : sampleTree.ValidTree := by
  refine ⟨by decide, by decide, by decide, ?_⟩
  unfold Guild.InCategory
  decide

/-- The owner takes the channel out of the category. -/
def sampleDetach : CategoryCall :=
  .update { ref := sampleTree.owner, accountType := .human, disabled := false } 11
    { parentId := some none } (some 0)
    { channelMask := allPermissions, parentMask := 0, syncMask := 0
      e2eeActivationEnabled := true, valuesAccepted := true }

theorem category_change_preserves_access_iff_sample :
    AccessPreserved sampleTree (sampleDetach.run sampleTree 5) ∧
      (sampleDetach.run sampleTree 5).toOption.map (·.ownOverwrites 11)
        = some (sampleTree.ownOverwrites 10) := by
  have hsync : ¬ sampleDetach.AsksForSync := Bool.false_ne_true
  have hdelete : ¬ sampleDetach.DeletesSyncedCategory sampleTree := id
  exact ⟨(category_change_preserves_access_iff 5 sampleTree_valid hsync).mpr hdelete, by decide⟩

/-- The owner deletes the category, which no message, thread or announcement
depends on. -/
def sampleDelete : CategoryCall :=
  .delete 10
    { mask := allPermissions, messageExists := false, announcementDependencies := false
      deletable := true }

theorem synced_child_blocks_category_deletion :
    sampleTree.ValidTree ∧ ¬ sampleDelete.AsksForSync ∧
      sampleDelete.run sampleTree 5 = .error .integrityError ∧
      ¬ AccessPreserved sampleTree (sampleDelete.run sampleTree 5) := by
  have hrun : sampleDelete.run sampleTree 5 = .error .integrityError := by decide
  refine ⟨sampleTree_valid, id, hrun, ?_⟩
  rw [hrun]
  intro h
  cases h

end Kaede
