import Kaede.AccessInputs

/-!
# What the channel endpoints change

Each of the endpoints that move or sync a channel writes one channel at a
time (`ChannelWrite`): its row, and its overwrites when it is synced or
leaves its category. `updateChannel` is one such write, `reorderChannels`
one for each entry followed by new positions.
-/

namespace Kaede

/-- `permission_sync_requires_parent` -/
def Channel.SyncOk (c : Channel) : Prop :=
  c.permissionsSynced = true → c.parentId ≠ none ∧ c.type ≠ .category

namespace Guild

/-- The constraints of the schema on the channel table. -/
structure ChannelSchema (g : Guild) : Prop where
  ids : (g.channels.map Channel.id).Nodup
  rows : ∀ c ∈ g.channels, c.constraintsHold = true

variable {g g' g₁ : Guild} {c : Channel} {x : Nat}

theorem ChannelSchema.syncOk (hg : g.ChannelSchema) (hc : g.channel? x = some c) : c.SyncOk :=
  (Channel.constraintsHold_iff.mp (hg.rows c (mem_of_lookupBy hc))).2.1

/-- A write of channel `x`. `changes` says that it changes permissions, in
which case the keys of an encrypted channel are paused; `sync` that the
channel follows its category afterwards. -/
structure ChannelWrite (g g' : Guild) (x : Nat) (changes sync : Bool) : Prop
    extends Touches g g' x where
  paused : changes = true → ∀ r, g'.channel? x = some r → r.e2eeActive = false
  source : changes = false ∨ sync = false → SameSource g g' x
  place : changes = false → ∀ r r', g.channel? x = some r → g'.channel? x = some r' →
    r.type ≠ .category → r'.place = r.place
  keys : ∀ r r', g.channel? x = some r → g'.channel? x = some r' → r'.e2eeActive = true →
    r.e2eeActive = true

theorem channel?_updateChannelRow {F : Channel → Channel} (hid : ∀ d, d.id = x → (F d).id = x)
    (id : Nat) : (g.updateChannelRow x F).channel? id
      = if id = x then (g.channel? x).map F else g.channel? id :=
  lookupBy_updateBy hid

theorem ownOverwrites_updateChannelRow {F : Channel → Channel} (k : Nat) :
    (g.updateChannelRow x F).ownOverwrites k = g.ownOverwrites k := rfl

theorem updateChannelRow_touches {F : Channel → Channel} (hid : ∀ d, d.id = x → (F d).id = x)
    (hkind : ∀ d, g.channel? x = some d → (F d).kind = d.kind) :
    Touches g (g.updateChannelRow x F) x := by
  refine ⟨⟨rfl, rfl, rfl, rfl, rfl, rfl, rfl, rfl, rfl⟩, ?_, ?_, fun _ _ => rfl, fun _ _ _ => rfl⟩
  · intro id
    rw [channel?_updateChannelRow hid]
    split
    · next h =>
        subst h
        cases hd : g.channel? id with
        | none => rfl
        | some d => rw [Option.map_some, Option.map_some, Option.map_some, hkind d hd]
    · rfl
  · intro id hne
    rw [channel?_updateChannelRow hid, if_neg hne]

theorem deleteOverwrites_touches (hcat : ∀ c, g.channel? x = some c → c.type ≠ .category) :
    Touches g (g.deleteOverwrites x) x :=
  ⟨⟨rfl, rfl, rfl, rfl, rfl, rfl, rfl, rfl, rfl⟩, fun _ => rfl, fun _ _ => rfl,
    fun _ hne => ownOverwrites_deleteOverwrites_ne hne, fun c hc h => absurd h (hcat c hc)⟩

theorem copyOverwrites_touches {source : Nat}
    (hcat : ∀ c, g.channel? x = some c → c.type ≠ .category) :
    Touches g (g.copyOverwrites source x) x :=
  ⟨⟨rfl, rfl, rfl, rfl, rfl, rfl, rfl, rfl, rfl⟩, fun _ => rfl, fun _ _ => rfl,
    fun _ hne => ownOverwrites_copyOverwrites_ne hne, fun c hc h => absurd h (hcat c hc)⟩

theorem syncChannel_touches (hcat : ∀ c, g.channel? x = some c → c.type ≠ .category) :
    Touches g (g.syncChannel x) x :=
  (deleteOverwrites_touches hcat).trans (updateChannelRow_touches (fun _ h => h) fun _ _ => rfl)

/-- A synced channel that leaves its category keeps its overwrites. -/
theorem unsync_touches (hok : c.SyncOk) (hc : g.channel? c.id = some c)
    (hs : c.permissionsSynced = true) (h : g.unsync c = .ok g₁) :
    Touches g g₁ c.id ∧ g.sourceOverwrites c = .ok (g₁.ownOverwrites c.id) ∧
      g₁.channel? c.id = some { c with permissionsSynced := false } := by
  obtain ⟨hparent, hcat⟩ := hok hs
  have hnot : ∀ d, g.channel? c.id = some d → d.type ≠ .category := by
    intro d hd
    rw [hc] at hd
    rwa [← Option.some.inj hd]
  rw [unsync, bind_eq_ok] at h
  obtain ⟨source, hsource, h⟩ := h
  have hsource' := hsource
  obtain ⟨p, hp⟩ := Option.ne_none_iff_exists'.mp hparent
  rw [overwriteSourceChannel, hp] at hsource
  simp only [hs, if_true, found_eq_ok, Option.filter_eq_some_iff, decide_eq_true_eq] at hsource
  obtain ⟨hrow, htype⟩ := hsource
  have hne : source.id ≠ c.id := by
    intro heq
    rw [key_of_lookupBy hrow] at heq
    subst heq
    rw [hc] at hrow
    exact hcat (Option.some.inj hrow ▸ htype)
  rw [if_neg hne] at h
  obtain rfl := Except.ok.inj h
  refine ⟨(copyOverwrites_touches hnot).trans
    (updateChannelRow_touches (fun _ h => h) fun _ _ => rfl), ?_, ?_⟩
  · rw [sourceOverwrites, hsource', ownOverwrites_updateChannelRow,
      ownOverwrites_copyOverwrites hne]
    rfl
  · rw [channel?_updateChannelRow, if_pos rfl]
    · show (g.channel? c.id).map _ = _
      rw [hc]
      rfl
    · exact fun _ h => h

/-- The state in which the row of a channel that may leave its category is
written. -/
theorem leave_touches {moved : Bool} (hok : c.SyncOk) (hc : g.channel? c.id = some c)
    (h : (if moved ∧ c.permissionsSynced then g.unsync c else .ok g) = .ok g₁) :
    Touches g g₁ c.id ∧ g₁.channel? c.id = some (c.leave moved) ∧
      ((c.permissionsSynced && !moved) = false →
        g.sourceOverwrites c = .ok (g₁.ownOverwrites c.id)) ∧
      (moved = false → g₁ = g) := by
  by_cases hmoved : moved = true ∧ c.permissionsSynced = true
  · rw [if_pos hmoved] at h
    obtain ⟨htouches, hsource, hrow⟩ := unsync_touches hok hc hmoved.2 h
    have hleave : c.leave moved = { c with permissionsSynced := false } := by
      rw [Channel.leave, hmoved.1, Bool.not_true, Bool.and_false]
    refine ⟨htouches, by rw [hrow, hleave], fun _ => hsource, ?_⟩
    intro hnot
    rw [hnot] at hmoved
    exact absurd hmoved.1 Bool.false_ne_true
  · rw [if_neg hmoved] at h
    obtain rfl := Except.ok.inj h
    refine ⟨Touches.refl g c.id, by rw [Channel.leave_of_not hmoved, hc], ?_, fun _ => rfl⟩
    intro hs
    have hsynced : (c.leave moved).permissionsSynced = false := hs
    rw [Channel.leave_of_not hmoved] at hsynced
    exact sourceOverwrites_of_not_synced hsynced

theorem leave_generation {moved : Bool}
    (h : (if moved ∧ c.permissionsSynced then g.unsync c else .ok g) = .ok g₁) :
    g₁.permissionGeneration = g.permissionGeneration := by
  split at h
  · rw [unsync, bind_eq_ok] at h
    obtain ⟨source, -, h⟩ := h
    split at h <;> rw [← Except.ok.inj h]
    rfl
  · rw [← Except.ok.inj h]

/-- A channel that is not synced by the write takes its overwrites from
where it took them. -/
theorem source_of_leave {moved : Bool} {r : Channel} (hok : c.SyncOk)
    (hc : g.channel? c.id = some c)
    (h : (if moved ∧ c.permissionsSynced then g.unsync c else .ok g) = .ok g₁)
    (htouches : Touches g g' c.id) (hown : g'.ownOverwrites c.id = g₁.ownOverwrites c.id)
    (hid : r.id = c.id) (hsynced : r.permissionsSynced = (c.permissionsSynced && !moved))
    (hstays : moved = false → r.parentId = c.parentId) :
    g'.sourceOverwrites r = g.sourceOverwrites c := by
  obtain ⟨-, -, hsource, hsame⟩ := leave_touches hok hc h
  cases hs : (c.permissionsSynced && !moved) with
  | false =>
      rw [hsource hs, sourceOverwrites_of_not_synced (hsynced.trans hs), hid, hown]
  | true =>
      obtain ⟨hcs, hnot⟩ := Bool.and_eq_true_iff.mp hs
      have hmoved : moved = false := by simpa using hnot
      refine sourceOverwrites_congr hid (hstays hmoved) (by rw [hsynced, hs, hcs])
        htouches.kinds ?_ ?_
      · intro _
        rw [hown, hsame hmoved]
      · intro p parent hp hcat
        exact htouches.own_category hp hcat

theorem ChannelWrite.of_row {r : Channel} {changes sync : Bool} (htouches : Touches g g' x)
    (hc : g.channel? x = some c) (hr : g'.channel? x = some r)
    (hpaused : changes = true → r.e2eeActive = false)
    (hsource : changes = false ∨ sync = false → g'.sourceOverwrites r = g.sourceOverwrites c)
    (hplace : changes = false → c.type ≠ .category → r.place = c.place)
    (hkeys : r.e2eeActive = true → c.e2eeActive = true) : ChannelWrite g g' x changes sync := by
  refine ⟨htouches, ?_, ?_, ?_, ?_⟩
  · intro hchanges d hd
    rw [hr] at hd
    exact Option.some.inj hd ▸ hpaused hchanges
  · intro h d d' hd hd'
    rw [hc] at hd
    rw [hr] at hd'
    obtain rfl := Option.some.inj hd
    obtain rfl := Option.some.inj hd'
    exact hsource h
  · intro hchanges d d' hd hd'
    rw [hc] at hd
    rw [hr] at hd'
    obtain rfl := Option.some.inj hd
    obtain rfl := Option.some.inj hd'
    exact hplace hchanges
  · intro d d' hd hd'
    rw [hc] at hd
    rw [hr] at hd'
    obtain rfl := Option.some.inj hd
    obtain rfl := Option.some.inj hd'
    exact hkeys

theorem guildChannel_eq_ok {id : Nat} :
    g.guildChannel id = .ok c ↔ g.channel? id = some c ∧ c.unavailable = false := by
  simp [guildChannel, found_eq_ok, Option.filter_eq_some_iff]

theorem commitChannels_ok (h : commitChannels g = .ok g') : g' = g := by
  unfold commitChannels at h
  split at h
  · exact (Except.ok.inj h).symm
  · cases h

/-- The row `storeUpdate` writes. -/
def updatedRow (c : Channel) (payload : ChannelUpdate) (now : Nat) : Channel :=
  if payload.changesPermissions c then { payload.updated c with updatedAt := now }.pause
  else { payload.updated c with updatedAt := now }

theorem storeUpdate_ok {payload : ChannelUpdate} {now : Nat}
    (h : g.storeUpdate c payload now = .ok g') :
    g' = { g.updateChannelRow c.id (fun _ => updatedRow c payload now) with
      permissionGeneration :=
        g.permissionGeneration + if payload.changesPermissions c then 1 else 0 } := by
  have hg' := commitChannels_ok h
  rw [hg']
  unfold updatedRow
  cases payload.changesPermissions c <;> rfl

/-- What a successful update has written. -/
theorem updateChannel_ok {actor : User} {payload : ChannelUpdate} {version : Option Nat}
    {ctx : ChannelUpdateContext} {now : Nat}
    (h : g.updateChannel actor x payload version ctx now = .ok g') :
    g' = g ∨ ∃ c g₁, g.channel? x = some c ∧ c.type.isThread = false ∧
      (if payload.parentChanged c ∧ c.permissionsSynced then g.unsync c else .ok g) = .ok g₁ ∧
      (payload.syncPermissions = true → c.type ≠ .category) ∧
      (if payload.syncPermissions then g₁.syncChannel x else g₁).storeUpdate c payload now
        = .ok g' := by
  simp only [updateChannel, bind_eq_ok, guildChannel_eq_ok, ensure_eq_ok] at h
  obtain ⟨c, ⟨hc, -⟩, _, hthread, _, -, _, -, _, -, _, -, g₁, hleave, _, hcheck, h⟩ := h
  split at h
  · exact .inl (Except.ok.inj h).symm
  · refine .inr ⟨c, g₁, hc, hthread, hleave, ?_, h⟩
    intro hsync
    simp only [hsync, if_true, checkSync, found_bind_eq_ok, Option.filter_eq_some_iff,
      decide_eq_true_eq] at hcheck
    obtain ⟨-, ⟨-, hcat⟩, -⟩ := hcheck
    exact hcat

theorem Touches.congr {g'' : Guild} (h : Touches g g' x) (hrest : SameElsewhere g' g'')
    (hchannels : g''.channels = g'.channels) (hoverwrites : g''.overwrites = g'.overwrites) :
    Touches g g'' x := by
  refine h.trans ⟨hrest, ?_, ?_, ?_, ?_⟩
  · intro id
    rw [channel?, hchannels, channel?]
  · intro id _
    rw [channel?, hchannels, channel?]
  · intro id _
    rw [ownOverwrites, hoverwrites, ownOverwrites]
  · intro c _ _
    rw [ownOverwrites, hoverwrites, ownOverwrites]

theorem Touches.not_category (h : Touches g g' x) (hc : g.channel? x = some c)
    (hcat : c.type ≠ .category) : ∀ d, g'.channel? x = some d → d.type ≠ .category := by
  intro d hd
  have hkind := h.kinds x
  rw [hc, hd, Option.map_some, Option.map_some, Option.some.injEq] at hkind
  simp only [Channel.kind, Prod.mk.injEq] at hkind
  rwa [hkind.2.1]

theorem updatedRow_place (c : Channel) (payload : ChannelUpdate) (now : Nat) :
    (updatedRow c payload now).place = (payload.updated c).place := by
  unfold updatedRow
  split
  · exact Channel.place_pause _
  · rfl

theorem updatedRow_keys {payload : ChannelUpdate} {now : Nat}
    (h : (updatedRow c payload now).e2eeActive = true) :
    payload.changesPermissions c = false ∧ c.e2eeActive = true := by
  unfold updatedRow at h
  split at h
  · rw [Channel.pause_not_active] at h
    cases h
  · next hchanges => exact ⟨Bool.eq_false_iff.mpr hchanges, h⟩

theorem ChannelWrite.refl (g : Guild) (x : Nat) (sync : Bool) : ChannelWrite g g x false sync := by
  refine ⟨Touches.refl g x, ?_, ?_, ?_, ?_⟩
  · rintro ⟨⟩
  · intro _ r r' hr hr'
    rw [hr] at hr'
    rw [Option.some.inj hr']
  · intro _ r r' hr hr' _
    rw [hr] at hr'
    rw [Option.some.inj hr']
  · intro r r' hr hr' h
    rw [hr] at hr'
    rwa [Option.some.inj hr']

theorem changesPermissions_eq_false {payload : ChannelUpdate}
    (h : payload.changesPermissions c = false) :
    payload.parentChanged c = false ∧
      (payload.syncPermissions = true → c.permissionsSynced = true) := by
  simpa [ChannelUpdate.changesPermissions] using h

theorem target_of_stays {payload : ChannelUpdate} (h : payload.parentChanged c = false) :
    payload.target c = c.parentId := by
  simpa [ChannelUpdate.parentChanged] using h

/-- The row of `c` is written in a state that only `c` has been touched in. -/
theorem Touches.write {g₂ : Guild} {F : Channel → Channel} {d r : Channel}
    (h : Touches g g₂ c.id) (hc : g.channel? c.id = some c) (hd : g₂.channel? c.id = some d)
    (hid : ∀ e, e.id = c.id → (F e).id = c.id) (hr : F d = r) (hkind : r.kind = c.kind)
    (hrest : SameElsewhere (g₂.updateChannelRow c.id F) g')
    (hchannels : g'.channels = (g₂.updateChannelRow c.id F).channels)
    (hoverwrites : g'.overwrites = g₂.overwrites) :
    Touches g g' c.id ∧ g'.channel? c.id = some r := by
  have hrow : Touches g₂ (g₂.updateChannelRow c.id F) c.id := by
    refine updateChannelRow_touches hid ?_
    intro e he
    have hkind₂ := h.kinds c.id
    rw [he, hc, Option.map_some, Option.map_some, Option.some.injEq] at hkind₂
    rw [hd] at he
    obtain rfl := Option.some.inj he
    rw [hkind₂, hr, hkind]
  refine ⟨(h.trans hrow).congr hrest hchannels hoverwrites, ?_⟩
  have hlookup := channel?_updateChannelRow (g := g₂) hid c.id
  rw [if_pos rfl, hd, Option.map_some, hr] at hlookup
  rw [channel?, hchannels]
  exact hlookup

/-- A successful update either changes nothing or is a write of its
channel. -/
theorem updateChannel_write {actor : User} {payload : ChannelUpdate} {version : Option Nat}
    {ctx : ChannelUpdateContext} {now : Nat} (hg : g.ChannelSchema)
    (h : g.updateChannel actor x payload version ctx now = .ok g') :
    ∃ changes, ChannelWrite g g' x changes payload.syncPermissions ∧
      g'.permissionGeneration = g.permissionGeneration + if changes then 1 else 0 := by
  rcases updateChannel_ok h with rfl | ⟨c, g₁, hc, hthread, hleave, hsyncable, hstored⟩
  · exact ⟨false, ChannelWrite.refl g' x _, rfl⟩
  obtain rfl : c.id = x := key_of_lookupBy hc
  have hok := hg.syncOk hc
  obtain ⟨htouches₁, -, -, -⟩ := leave_touches hok hc hleave
  set g₂ := if payload.syncPermissions then g₁.syncChannel c.id else g₁ with hg₂
  have htouches₂ : Touches g₁ g₂ c.id := by
    rw [hg₂]
    split
    · next hsync => exact syncChannel_touches (htouches₁.not_category hc (hsyncable hsync))
    · exact Touches.refl g₁ c.id
  set r := updatedRow c payload now with hr
  have hplace : r.place = (payload.updated c).place := updatedRow_place c payload now
  have hkind : r.kind = (payload.updated c).kind := Channel.kind_of_place hplace
  simp only [Channel.place, Place.mk.injEq] at hplace
  obtain ⟨hid, htype, hunavailable, hparent, hsynced⟩ := hplace
  have hg' := storeUpdate_ok hstored
  have hrest : SameElsewhere (g₂.updateChannelRow c.id fun _ => r) g' := by
    rw [hg']
    exact ⟨rfl, rfl, rfl, rfl, rfl, rfl, rfl, rfl, rfl⟩
  have hoverwrites : g'.overwrites = g₂.overwrites := by
    rw [hg']
    rfl
  obtain ⟨d, hd, -⟩ := exists_of_map_eq ((htouches₁.trans htouches₂).kinds c.id) hc
  obtain ⟨htouches, hrow⟩ := (htouches₁.trans htouches₂).write hc hd (F := fun _ => r)
    (fun _ _ => hid) rfl hkind hrest (by rw [hg']) hoverwrites
  refine ⟨payload.changesPermissions c, ChannelWrite.of_row htouches hc hrow ?_ ?_ ?_ ?_, ?_⟩
  · intro hchanges
    by_contra hactive
    rw [Bool.not_eq_false] at hactive
    rw [(updatedRow_keys hactive).1] at hchanges
    cases hchanges
  · intro hcase
    cases hsync : payload.syncPermissions with
    | false =>
        have hown : g'.ownOverwrites c.id = g₁.ownOverwrites c.id := by
          rw [ownOverwrites, hoverwrites, hg₂, hsync]
          rfl
        refine source_of_leave hok hc hleave htouches hown hid ?_ ?_
        · rw [hsynced, ChannelUpdate.updated, hsync, Bool.false_or]
        · intro hstays
          rw [hparent]
          exact target_of_stays hstays
    | true =>
        -- already synced, so what was deleted did not count
        obtain ⟨hstays, hwas⟩ := changesPermissions_eq_false
          (hcase.resolve_right (by rw [hsync]; exact Bool.noConfusion))
        have hcs := hwas hsync
        refine sourceOverwrites_congr hid ?_ ?_ htouches.kinds ?_ fun _ _ => htouches.own_category
        · rw [hparent]
          exact target_of_stays hstays
        · rw [hsynced, ChannelUpdate.updated, hsync, hcs, Bool.true_or]
        · rintro (hnot | hnone)
          · rw [hcs] at hnot
            cases hnot
          · exact absurd hnone (hok hcs).1
  · intro hchanges _
    obtain ⟨hstays, hwas⟩ := changesPermissions_eq_false hchanges
    simp only [Channel.place, Place.mk.injEq]
    refine ⟨hid, htype, hunavailable, ?_, ?_⟩
    · rw [hparent]
      exact target_of_stays hstays
    · rw [hsynced, ChannelUpdate.updated, hstays, Bool.not_false, Bool.and_true]
      cases hsync : payload.syncPermissions with
      | false => exact Bool.false_or _
      | true => rw [hwas hsync, Bool.true_or]
  · exact fun hactive => (updatedRow_keys hactive).2
  · have hgeneration : g₂.permissionGeneration = g.permissionGeneration := by
      rw [← leave_generation hleave, hg₂]
      split <;> rfl
    rw [hg', ← hgeneration]

theorem ChannelWrite.sources {changes sync : Bool} (h : ChannelWrite g g' x changes sync)
    (hchanges : changes = false) (id : Nat) : SameSource g g' id := by
  by_cases hid : id = x
  · subst hid
    exact h.source (.inl hchanges)
  · intro r r' hr hr'
    rw [h.rows id hid, hr] at hr'
    obtain rfl := Option.some.inj hr'
    exact h.toTouches.sourceOverwrites (by rwa [key_of_lookupBy hr])

/-! ## Moves -/

/-- A move that reaches the row it was planned for. -/
structure Planned (g : Guild) (move : PlannedMove) (c : Channel) : Prop where
  row : g.channel? move.item.id = some c
  syncOk : c.SyncOk
  supplied : move.parentChanged = true → move.item.parentId.isSome = true
  stays : move.parentChanged = false → move.item.parentId.isSome = true →
    move.nextParentId = c.parentId

/-- `channel_permission_changed` -/
def moveChanges (move : PlannedMove) (c : Channel) : Bool :=
  c.type ≠ .category &&
    (move.parentChanged || (move.item.lockPermissions = some true && !c.permissionsSynced))

theorem moveChanges_iff {move : PlannedMove} : moveChanges move c = true ↔
    c.type ≠ .category ∧ (move.parentChanged = true ∨
      (move.item.lockPermissions = some true ∧ c.permissionsSynced = false)) := by
  simp [moveChanges]

/-- The row a move writes over `d`. -/
def movedRow (move : PlannedMove) (changes : Bool) (d : Channel) : Channel :=
  if changes then (move.write d).pause else move.write d

theorem movedRow_place (move : PlannedMove) (changes : Bool) (d : Channel) :
    (movedRow move changes d).place = (move.write d).place := by
  unfold movedRow
  split
  · exact Channel.place_pause _
  · rfl

theorem movedRow_keys {move : PlannedMove} {changes : Bool} {d : Channel}
    (h : (movedRow move changes d).e2eeActive = true) : changes = false ∧ d.e2eeActive = true := by
  unfold movedRow at h
  split at h
  · rw [Channel.pause_not_active] at h
    cases h
  · next hchanges => exact ⟨Bool.eq_false_iff.mpr hchanges, h⟩

theorem movedRow_paused {move : PlannedMove} {changes : Bool} {d : Channel}
    (h : changes = true) : (movedRow move changes d).e2eeActive = false := by
  by_contra hactive
  rw [Bool.not_eq_false] at hactive
  rw [(movedRow_keys hactive).1] at h
  cases h

/-- What a move does, by whether it locks the channel, moves it, or only
sets flags. -/
theorem applyMove_cases {move : PlannedMove} (hplan : g.Planned move c)
    (h : g.applyMove move = .ok g') :
    (g' = g ∧ moveChanges move c = false) ∨
      ∃ g₁, g' = g₁.updateChannelRow c.id (movedRow move (moveChanges move c)) ∧
        ((g₁ = g.syncChannel c.id ∧ moveChanges move c = true ∧
            move.item.lockPermissions = some true) ∨
          ((if move.parentChanged ∧ c.permissionsSynced then g.unsync c else .ok g) = .ok g₁ ∧
            moveChanges move c = true ∧ move.parentChanged = true) ∨
          (g₁ = g ∧ moveChanges move c = false)) := by
  unfold applyMove at h
  simp only [hplan.row, found, ok_bind, ← moveChanges_iff] at h
  split at h
  · next hskip =>
      refine .inl ⟨(Except.ok.inj h).symm, ?_⟩
      rw [Bool.eq_false_iff, Ne, moveChanges_iff]
      rintro ⟨-, hpc | hlock⟩
      · exact hskip.1 hpc
      · exact hskip.2.1 hlock
  · rw [bind_eq_ok] at h
    obtain ⟨g₁, hg₁, h⟩ := h
    refine .inr ⟨g₁, (Except.ok.inj h).symm, ?_⟩
    by_cases hchanges : moveChanges move c = true
    · by_cases hlock : move.item.lockPermissions = some true
      · rw [if_pos ⟨hchanges, hlock⟩] at hg₁
        exact .inl ⟨(Except.ok.inj hg₁).symm, hchanges, hlock⟩
      · have hpc : move.parentChanged = true :=
          (moveChanges_iff.mp hchanges).2.resolve_right fun hl => hlock hl.1
        rw [if_neg fun hl => hlock hl.2] at hg₁
        simp only [hchanges, true_and] at hg₁
        exact .inr (.inl ⟨hg₁, hchanges, hpc⟩)
    · rw [if_neg fun hl => hchanges hl.1, if_neg fun hl => hchanges hl.1] at hg₁
      exact .inr (.inr ⟨(Except.ok.inj hg₁).symm, Bool.eq_false_iff.mpr hchanges⟩)

theorem movedRow_touches {move : PlannedMove} {changes : Bool} {d : Channel}
    (h : Touches g g₁ c.id) (hc : g.channel? c.id = some c) (hd : g₁.channel? c.id = some d) :
    Touches g (g₁.updateChannelRow c.id (movedRow move changes)) c.id ∧
      (g₁.updateChannelRow c.id (movedRow move changes)).channel? c.id
        = some (movedRow move changes d) := by
  have hkind : ∀ e : Channel, (movedRow move changes e).kind = (move.write e).kind :=
    fun e => Channel.kind_of_place (movedRow_place move changes e)
  have hid : ∀ e : Channel, e.id = c.id → (movedRow move changes e).id = c.id := by
    intro e he
    rw [← he]
    exact congrArg Prod.fst (hkind e)
  have hdc : d.kind = c.kind := by
    have hkinds := h.kinds c.id
    rwa [hd, hc, Option.map_some, Option.map_some, Option.some.injEq] at hkinds
  exact h.write hc hd hid rfl ((hkind d).trans hdc) (SameElsewhere.refl _) rfl rfl

theorem applyMove_write {move : PlannedMove} (hplan : g.Planned move c)
    (h : g.applyMove move = .ok g') :
    ChannelWrite g g' move.item.id (moveChanges move c)
        (move.item.lockPermissions = some true) ∧
      g'.permissionGeneration = g.permissionGeneration := by
  have hid : c.id = move.item.id := key_of_lookupBy hplan.row
  have hc : g.channel? c.id = some c := hid ▸ hplan.row
  rw [← hid]
  rcases applyMove_cases hplan h with ⟨rfl, hchanges⟩ | ⟨g₁, rfl, hcase⟩
  · rw [hchanges]
    exact ⟨ChannelWrite.refl g' c.id _, rfl⟩
  rcases hcase with ⟨rfl, hchanges, hlock⟩ | ⟨hleave, hchanges, hpc⟩ | ⟨rfl, hchanges⟩
  · -- the channel is synced
    have hcat := (moveChanges_iff.mp hchanges).1
    have htouches := syncChannel_touches (Touches.refl g c.id |>.not_category hc hcat)
    obtain ⟨d, hd, -⟩ := exists_of_map_eq (htouches.kinds c.id) hc
    obtain ⟨hwritten, hrow⟩ := movedRow_touches htouches hc hd
    refine ⟨ChannelWrite.of_row hwritten hc hrow ?_ ?_ ?_ ?_, rfl⟩
    · exact fun _ => movedRow_paused hchanges
    · rintro (hnot | hnot)
      · rw [hchanges] at hnot
        cases hnot
      · exact absurd hlock (of_decide_eq_false hnot)
    · intro hnot
      rw [hchanges] at hnot
      cases hnot
    · intro hactive
      rw [movedRow_paused hchanges] at hactive
      cases hactive
  · -- the channel is moved
    obtain ⟨htouches, hd, -, -⟩ := leave_touches hplan.syncOk hc hleave
    obtain ⟨hwritten, hrow⟩ := movedRow_touches htouches hc hd
    have hplace := movedRow_place move (moveChanges move c) (c.leave move.parentChanged)
    simp only [Channel.place, Place.mk.injEq] at hplace
    obtain ⟨hrid, -, -, -, hsynced⟩ := hplace
    have hgeneration := leave_generation hleave
    refine ⟨ChannelWrite.of_row hwritten hc hrow ?_ ?_ ?_ ?_, hgeneration⟩
    · exact fun _ => movedRow_paused hchanges
    · intro _
      refine source_of_leave hplan.syncOk hc hleave hwritten rfl hrid hsynced ?_
      intro hstays
      rw [hpc] at hstays
      cases hstays
    · intro hnot
      rw [hchanges] at hnot
      cases hnot
    · intro hactive
      rw [movedRow_paused hchanges] at hactive
      cases hactive
  · -- only flags, or the parent of a category
    obtain ⟨hwritten, hrow⟩ := movedRow_touches (Touches.refl g₁ c.id) hc hc
    have hplace := movedRow_place move (moveChanges move c) c
    simp only [Channel.place, Place.mk.injEq] at hplace
    obtain ⟨hrid, htype, hunavailable, hparent, hsynced⟩ := hplace
    have hstays : c.type ≠ .category →
        (movedRow move (moveChanges move c) c).parentId = c.parentId := by
      intro hcat
      have hpc : move.parentChanged = false := by
        rw [Bool.eq_false_iff]
        intro hpc
        rw [moveChanges_iff.mpr ⟨hcat, .inl hpc⟩] at hchanges
        cases hchanges
      rw [hparent, PlannedMove.write]
      split
      · next hsome => exact hplan.stays hpc hsome
      · rfl
    refine ⟨ChannelWrite.of_row hwritten hc hrow ?_ ?_ ?_ ?_, rfl⟩
    · intro hyes
      rw [hchanges] at hyes
      cases hyes
    · intro _
      by_cases hcat : c.type = .category
      · have hnot : c.permissionsSynced = false := by
          rw [Bool.eq_false_iff]
          exact fun hs => (hplan.syncOk hs).2 hcat
        rw [sourceOverwrites_of_not_synced hnot,
          sourceOverwrites_of_not_synced (hsynced.trans hnot), hrid]
        rfl
      · exact sourceOverwrites_congr hrid (hstays hcat) hsynced hwritten.kinds (fun _ => rfl)
          fun _ _ _ _ => rfl
    · intro _ hcat
      simp only [Channel.place, Place.mk.injEq]
      exact ⟨hrid, htype, hunavailable, hstays hcat, hsynced⟩
    · exact fun hactive => (movedRow_keys hactive).2

/-- Each move of a batch is a write of its own channel, so what the writes
preserve the batch preserves. -/
theorem applyMoves_writes {R : Guild → Guild → Prop} {P : PlannedMove → Channel → Prop}
    {moves : List PlannedMove} (hrefl : ∀ g, R g g)
    (htrans : ∀ g₀ g₁ g₂, R g₀ g₁ → R g₁ g₂ → R g₀ g₂)
    (hwrite : ∀ m ∈ moves, ∀ c, P m c → ∀ g₀ g₁, g₀.channel? m.item.id = some c →
      ChannelWrite g₀ g₁ m.item.id (moveChanges m c) (m.item.lockPermissions = some true) →
      R g₀ g₁)
    (hplans : ∀ m ∈ moves, ∃ c, g.Planned m c ∧ P m c)
    (hnodup : (moves.map fun m => m.item.id).Nodup) (h : applyMoves moves g = .ok g') :
    R g g' ∧ g'.permissionGeneration = g.permissionGeneration := by
  induction moves generalizing g with
  | nil =>
      obtain rfl := Except.ok.inj h
      exact ⟨hrefl g, rfl⟩
  | cons m rest ih =>
      rw [applyMoves, bind_eq_ok] at h
      obtain ⟨g₁, hmove, hrest⟩ := h
      rw [List.map_cons, List.nodup_cons] at hnodup
      obtain ⟨c, hplan, hP⟩ := hplans m List.mem_cons_self
      obtain ⟨hwritten, hgeneration⟩ := applyMove_write hplan hmove
      have hplans₁ : ∀ m' ∈ rest, ∃ c, g₁.Planned m' c ∧ P m' c := by
        intro m' hm'
        obtain ⟨c', ⟨hrow, hok, hsupplied, hstays⟩, hP'⟩ := hplans m' (List.mem_cons_of_mem m hm')
        have hne : m'.item.id ≠ m.item.id := by
          intro heq
          exact hnodup.1 (heq ▸ List.mem_map_of_mem hm')
        exact ⟨c', ⟨(hwritten.rows _ hne).trans hrow, hok, hsupplied, hstays⟩, hP'⟩
      obtain ⟨hR, hgeneration'⟩ := ih
        (fun m' hm' => hwrite m' (List.mem_cons_of_mem m hm')) hplans₁ hnodup.2 hrest
      refine ⟨htrans _ _ _ (hwrite m List.mem_cons_self c hP g g₁ hplan.row hwritten) hR, ?_⟩
      rw [hgeneration', hgeneration]

theorem planMoves_planned {items : List ChannelPosition} {checks checks' : List (Nat × Nat)}
    {moves : List PlannedMove} (hg : g.ChannelSchema)
    (h : planMoves g.orderedChannels items checks = .ok (moves, checks')) :
    moves.map PlannedMove.item = items ∧
      ∀ m ∈ moves, ∃ c, g.Planned m c ∧ c.type.isThread = false := by
  induction items generalizing checks moves checks' with
  | nil =>
      simp only [planMoves, Except.ok.injEq, Prod.mk.injEq] at h
      obtain ⟨rfl, -⟩ := h
      exact ⟨rfl, by simp⟩
  | cons item rest ih =>
      simp only [planMoves, bind_eq_ok, found_eq_ok, ensure_eq_ok] at h
      obtain ⟨c, hc, _, -, _, -, _, -, ⟨moves', checks''⟩, hrest, h⟩ := h
      simp only [Except.ok.injEq, Prod.mk.injEq] at h
      obtain ⟨rfl, -⟩ := h
      obtain ⟨hitems, hplans⟩ := ih hrest
      refine ⟨by rw [List.map_cons, hitems], ?_⟩
      intro m hm
      rcases List.mem_cons.mp hm with rfl | hm
      · have hmem := mem_orderedChannels.mp (mem_of_lookupBy hc)
        have hrow : g.channel? item.id = some c := by
          rw [← key_of_lookupBy hc]
          exact lookupBy_of_mem hg.ids hmem.1
        refine ⟨c, ⟨hrow, hg.syncOk hrow, ?_, ?_⟩, hmem.2.2⟩
        · exact fun hpc => (Bool.and_eq_true_iff.mp hpc).1
        · intro hpc hsome
          simpa [hsome] using hpc
      · exact hplans m hm

/-- Only positions, timestamps and counters differ. -/
structure Stamped (g g' : Guild) : Prop extends SameElsewhere g g' where
  rows : ∀ id, (g'.channel? id).map (fun c => (c.place, c.e2eeActive))
    = (g.channel? id).map fun c => (c.place, c.e2eeActive)
  overwrites : g'.overwrites = g.overwrites

theorem Stamped.trans {g'' : Guild} (h : Stamped g g') (h' : Stamped g' g'') : Stamped g g'' :=
  ⟨h.toSameElsewhere.trans h'.toSameElsewhere, fun id => (h'.rows id).trans (h.rows id),
    h'.overwrites.trans h.overwrites⟩

theorem stamped_of_map {f : Channel → Channel} (hrest : SameElsewhere g g')
    (hchannels : g'.channels = g.channels.map f) (hoverwrites : g'.overwrites = g.overwrites)
    (hplace : ∀ c, (f c).place = c.place) (hkeys : ∀ c, (f c).e2eeActive = c.e2eeActive) :
    Stamped g g' := by
  refine ⟨hrest, ?_, hoverwrites⟩
  intro id
  have hid : ∀ c, (f c).id = c.id := fun c => congrArg Place.id (hplace c)
  rw [channel?, hchannels, lookupBy_map hid, Option.map_map, channel?]
  congr 1
  funext c
  rw [Function.comp_apply, hplace, hkeys]

theorem setPositions_stamped (g : Guild) (order : List Nat) :
    Stamped g (g.setPositions order) := by
  refine stamped_of_map ⟨rfl, rfl, rfl, rfl, rfl, rfl, rfl, rfl, rfl⟩ rfl rfl ?_ ?_
  all_goals
    intro c
    split <;> rfl

theorem touchChanged_stamped (g before : Guild) (now : Nat) :
    Stamped g (g.touchChanged before now) := by
  refine stamped_of_map ⟨rfl, rfl, rfl, rfl, rfl, rfl, rfl, rfl, rfl⟩ rfl rfl ?_ ?_
  all_goals
    intro c
    split <;> rfl

theorem reorderChannels_ok {actor : User} {actorPermissions now : Nat} {masks : Nat → Nat}
    {payload : ChannelPositionBatch} (hg : g.ChannelSchema)
    (h : g.reorderChannels actor actorPermissions masks payload now = .ok g') :
    g' = g ∨ ∃ moves g₁, moves.map PlannedMove.item = payload.channels ∧
      (∀ m ∈ moves, ∃ c, g.Planned m c ∧ c.type.isThread = false) ∧
      applyMoves moves g = .ok g₁ ∧ Stamped g₁ g' ∧
      g'.permissionGeneration = g₁.permissionGeneration +
        if moves.any (PlannedMove.changesPermissions g) then 1 else 0 := by
  simp only [reorderChannels, bind_eq_ok] at h
  obtain ⟨_, -, _, -, _, -, ⟨moves, checks⟩, hplan, _, -, _, -, _, -, g₁, hmoves, h⟩ := h
  obtain ⟨hitems, hplans⟩ := planMoves_planned hg hplan
  split at h
  · exact .inl (Except.ok.inj h).symm
  · have hg' := commitChannels_ok h
    refine .inr ⟨moves, g₁, hitems, hplans, hmoves, ?_, ?_⟩
    · have hstored : ∀ (b : Bool) (s : Guild), Stamped s
          ((if b then s.bumpPermissionGeneration else s).queueGuildMutation .channelUpdate
            true) := by
        intro b s
        cases b <;> exact ⟨⟨rfl, rfl, rfl, rfl, rfl, rfl, rfl, rfl, rfl⟩, fun _ => rfl, rfl⟩
      rw [hg']
      exact ((setPositions_stamped g₁ _).trans (touchChanged_stamped _ g now)).trans (hstored _ _)
    · rw [hg']
      cases moves.any (PlannedMove.changesPermissions g) <;> rfl

/-! ## Thread members -/

/-- The row of a thread whose members change. -/
def threadRow (thread : Channel) (f : Channel → Channel) (c : Channel) : Channel :=
  if thread.type = .privateThread then (f c).pause else f c

/-- A thread's members change: its row is counted, and a private thread is
paused with a new permission generation. -/
def changeThreadMembers (g : Guild) (thread : Channel) (f : Channel → Channel)
    (members : List (Nat × UserRef)) : Guild :=
  { g with
    threadMembers := members
    channels := updateBy Channel.id thread.id (threadRow thread f) g.channels
    permissionGeneration :=
      g.permissionGeneration + if thread.type = .privateThread then 1 else 0 }

theorem changeThreadMembers_eq {thread : Channel} {f : Channel → Channel}
    {members : List (Nat × UserRef)} (event : GuildEvent) (hf : ∀ c, (f c).id = c.id)
    (hevent : event ∉ guildE2eeAccessMutationEvents) :
    ((({ g with threadMembers := members }.updateChannelRow thread.id f).privateAccessChanged
      thread).queueGuildMutation event true) = g.changeThreadMembers thread f members := by
  rw [queueGuildMutation, if_neg fun h => hevent h.2]
  unfold privateAccessChanged changeThreadMembers threadRow
  split
  · next hprivate =>
      have hid : ∀ c : Channel, c.id = thread.id → (f c).id = thread.id :=
        fun c h => (hf c).trans h
      simp only [bumpPermissionGeneration, updateChannelRow, updateBy_updateBy hid]
  · rfl

theorem threadAccess_ok {actor : UserRef} {threadId mask needed : Nat} {thread : Channel}
    (h : g.threadAccess actor threadId mask needed = .ok thread) :
    g.channel? threadId = some thread ∧ thread.type.isThread = true := by
  simp only [threadAccess, found_bind_eq_ok, check_bind_eq_ok, Option.filter_eq_some_iff] at h
  obtain ⟨-, -, t, ⟨hlookup, hthread⟩, -, h⟩ := h
  obtain rfl := Except.ok.inj h
  exact ⟨hlookup, (Bool.and_eq_true_iff.mp hthread).2⟩

theorem putThreadMember_ok {actor target : UserRef} {threadId : Nat} {ctx : ThreadMemberContext}
    (h : g.putThreadMember actor target threadId ctx = .ok g') :
    g' = g ∨ ∃ thread f members, g.channel? threadId = some thread ∧
      (∀ c : Channel, (f c).place = c.place ∧ (f c).e2eeActive = c.e2eeActive) ∧
      (∀ i u, i ≠ threadId → ((i, u) ∈ members ↔ (i, u) ∈ g.threadMembers)) ∧
      g' = g.changeThreadMembers thread f members := by
  simp only [putThreadMember, bind_eq_ok] at h
  obtain ⟨thread, haccess, _, -, _, -, _, -, _, -, _, -, _, -, _, -, h⟩ := h
  obtain ⟨hthread, -⟩ := threadAccess_ok haccess
  split at h
  · exact .inl (Except.ok.inj h).symm
  · simp only [bind_eq_ok] at h
    obtain ⟨_, -, _, -, h⟩ := h
    obtain rfl := Except.ok.inj h
    obtain rfl : thread.id = threadId := key_of_lookupBy hthread
    refine .inr ⟨thread, fun c => { c with memberCount := c.memberCount + 1 },
      g.threadMembers ++ [(thread.id, target)], hthread, fun c => ⟨rfl, rfl⟩, ?_,
      changeThreadMembers_eq .threadMemberUpsert (fun _ => rfl) (by decide)⟩
    intro i u hi
    simp [hi]

theorem deleteThreadMember_ok {actor target : UserRef} {threadId : Nat}
    {ctx : ThreadMemberContext} (h : g.deleteThreadMember actor target threadId ctx = .ok g') :
    g' = g ∨ ∃ thread f members, g.channel? threadId = some thread ∧
      (∀ c : Channel, (f c).place = c.place ∧ (f c).e2eeActive = c.e2eeActive) ∧
      (∀ i u, i ≠ threadId → ((i, u) ∈ members ↔ (i, u) ∈ g.threadMembers)) ∧
      g' = g.changeThreadMembers thread f members := by
  simp only [deleteThreadMember, bind_eq_ok] at h
  obtain ⟨thread, haccess, _, -, _, -, h⟩ := h
  obtain ⟨hthread, -⟩ := threadAccess_ok haccess
  split at h
  · obtain rfl := Except.ok.inj h
    obtain rfl : thread.id = threadId := key_of_lookupBy hthread
    refine .inr ⟨thread, fun c => { c with memberCount := c.memberCount - 1 },
      g.threadMembers.filter fun t => t ≠ (thread.id, target), hthread, fun c => ⟨rfl, rfl⟩, ?_,
      changeThreadMembers_eq .threadMemberDelete (fun _ => rfl) (by decide)⟩
    intro i u hi
    simp [hi]
  · exact .inl (Except.ok.inj h).symm

end Guild

end Kaede
