import Kaede.VoiceConnection

/-!
# Fencing of voice grants

A grant is the connection id, room and generation a token was minted
with. Over any interleaving of the scripts, a record is written either
with a generation the room's counter has never shown before, or by moving
it from the identity's key to a guild's. So a grant that no key holds any
more never comes back.

A key holds one record, so at most one grant matches per key. Human
identities and direct calls have one key, and a bot has one more for each
guild it is connected in: two of its grants may match side by side.
-/

namespace Kaede

/-- Everything a step can do to the connection records. -/
inductive VoiceEffect (s s' : VoiceKeys) : Prop
  | kept (hgeneration : ∀ room, s.generation room ≤ s'.generation room)
      (hconnection : ∀ key c, s'.connection key = some c → s.connection key = some c)
  | granted (key : ConnectionKey) (c : VoiceConnection)
      (hgeneration : ∀ room, s.generation room ≤ s'.generation room)
      (hplace : ∀ guildId, key = .guild guildId → ∃ channelId, c.room = .guild guildId channelId)
      (hfresh : s.generation c.room < c.generation)
      (hcount : s'.generation c.room = c.generation)
      (hconnection : s'.connection = Function.update s.connection key (some c))
  | moved (guildId channelId : Nat) (c : VoiceConnection)
      (hgeneration : s'.generation = s.generation)
      (hc : s.connection .identity = some c) (hroom : c.room = .guild guildId channelId)
      (hconnection : s'.connection = Function.update
        (Function.update s.connection (.guild guildId) (some c)) .identity none)

section

variable {s s' : VoiceKeys}

@[simp] theorem VoiceKeys.retainIndex_connection (s : VoiceKeys) (room : VoiceRoom)
    (kind : ClientKind) : (s.retainIndex room kind).connection = s.connection := by
  unfold VoiceKeys.retainIndex
  split <;> rfl

@[simp] theorem VoiceKeys.retainIndex_generation (s : VoiceKeys) (room : VoiceRoom)
    (kind : ClientKind) : (s.retainIndex room kind).generation = s.generation := by
  unfold VoiceKeys.retainIndex
  split <;> rfl

theorem le_update_of_le {α : Type*} [DecidableEq α] {f : α → Nat} {a : α} {n : Nat}
    (h : f a ≤ n) (b : α) : f b ≤ Function.update f a n b := by
  by_cases hb : b = a
  · subst hb
    rw [Function.update_self]
    exact h
  · rw [Function.update_of_ne hb]

theorem VoiceKeys.le_bumpGeneration (s : VoiceKeys) (room r : VoiceRoom) :
    s.generation r ≤ (s.bumpGeneration room).generation r :=
  le_update_of_le (Nat.le_succ _) r

/-- A guild's key is the key of rooms in that guild only. -/
theorem voiceConnectionKey_guild {room : VoiceRoom} {kind : Option ClientKind} {guildId : Nat}
    (h : voiceConnectionKey (some room) kind = .guild guildId) :
    ∃ channelId, room = .guild guildId channelId := by
  cases room with
  | dm channelId callId => cases h
  | guild g channelId =>
    match kind, h with
    | some .bot, h => exact ⟨channelId, by rw [ConnectionKey.guild.inj h]⟩

theorem grantConnection_effect (s₀ s : VoiceKeys) (a : VoiceClaim)
    (previous : Option VoiceConnection) (hconnection : s.connection = s₀.connection)
    (hgeneration : ∀ r, s₀.generation r ≤ s.generation r) :
    VoiceEffect s₀ (grantConnection s a previous).2 := by
  refine .granted (voiceConnectionKey (some a.room) (some a.clientKind))
    (a.record (s.generation a.room + 1)) ?_ ?_ ?_ ?_ ?_
  · intro r
    simp only [grantConnection, VoiceKeys.retainIndex_generation, VoiceKeys.setConnection]
    exact (hgeneration r).trans (s.le_bumpGeneration a.room r)
  · intro guildId hkey
    exact voiceConnectionKey_guild hkey
  · exact Nat.lt_succ_of_le (hgeneration a.room)
  · simp [grantConnection, VoiceKeys.setConnection, VoiceKeys.bumpGeneration, VoiceClaim.record]
  · simp [grantConnection, VoiceKeys.setConnection, VoiceKeys.bumpGeneration, hconnection]

theorem claimConnection_effect (s : VoiceKeys) (a : VoiceClaim) :
    VoiceEffect s (claimConnection s a).2 := by
  have hindex : VoiceEffect s (s.retainIndex a.room a.clientKind) :=
    .kept (by simp) (by simp)
  unfold claimConnection
  split
  · exact grantConnection_effect s s a none rfl fun _ => le_refl _
  · rename_i current hcurrent
    dsimp only
    split
    · split
      · exact hindex
      · exact hindex
    · split
      · exact hindex
      · refine grantConnection_effect s _ a _ ?_ fun r => ?_
        · split <;> simp [VoiceKeys.bumpGeneration]
        · split
          · refine le_trans ?_ (VoiceKeys.le_bumpGeneration _ _ r)
            simp
          · simp

theorem rotateOccupantGrant_effect (s : VoiceKeys) (expected : Nat) (o : VoiceOccupant) :
    VoiceEffect s (rotateOccupantGrant s expected o).2 := by
  have hsame : VoiceEffect s s := .kept (fun _ => le_refl _) fun _ _ => id
  unfold rotateOccupantGrant
  dsimp only
  split
  · exact hsame
  · rename_i hexpected
    rw [not_not] at hexpected
    split
    · rename_i connection occupant hconnection _
      split
      · exact hsame
      · rename_i hchecks
        simp only [not_or, not_not] at hchecks
        obtain ⟨-, hroom, -⟩ := hchecks
        refine .granted (voiceConnectionKey (some o.room) (some o.clientKind))
          { connection with generation := expected + 1 } ?_ ?_ ?_ ?_ rfl
        · exact le_update_of_le (by omega)
        · intro guildId hkey
          rw [hroom]
          exact voiceConnectionKey_guild hkey
        · dsimp only
          rw [hroom, hexpected]
          exact Nat.lt_succ_self _
        · dsimp only
          rw [hroom, Function.update_self]
    · exact hsame

/-- A step that takes one record away. -/
theorem VoiceEffect.of_delete (key : ConnectionKey) (hgeneration : s'.generation = s.generation)
    (hconnection : s'.connection = Function.update s.connection key none) : VoiceEffect s s' := by
  refine .kept (fun _ => by rw [hgeneration]) fun k c hc => ?_
  rw [hconnection] at hc
  by_cases hk : k = key
  · rw [hk, Function.update_self] at hc
    cases hc
  · rwa [Function.update_of_ne hk] at hc

theorem migrateBotGuildConnection_effect (s : VoiceKeys) (guildId : Nat) :
    VoiceEffect s (migrateBotGuildConnection s guildId).2 := by
  have hsame : VoiceEffect s s := .kept (fun _ => le_refl _) fun _ _ => id
  unfold migrateBotGuildConnection
  dsimp only
  split
  · exact .kept (fun _ => le_refl _) fun _ _ => id
  · exact hsame
  · rename_i current hnone hcurrent
    split
    · exact hsame
    · split
      · exact hsame
      · rename_i g channelId hroom
        split
        · exact hsame
        · rename_i hg
          rw [not_not] at hg
          subst hg
          exact .moved g channelId current rfl hcurrent hroom rfl

theorem VoiceKeys.step_effect {i : VoiceScript} (h : s.step i = some s') : VoiceEffect s s' := by
  have hsame : VoiceEffect s s := .kept (fun _ => le_refl _) fun _ _ => id
  cases i with
  | claim a =>
    obtain rfl := Option.some.inj h
    exact claimConnection_effect s a
  | rotate expected o =>
    obtain rfl := Option.some.inj h
    exact rotateOccupantGrant_effect s expected o
  | bump room =>
    obtain rfl := Option.some.inj h
    exact .kept (s.le_bumpGeneration room) fun _ _ => id
  | release connectionId room generation kind =>
    obtain rfl := Option.some.inj h
    unfold releaseConnection
    dsimp only
    split
    · exact hsame
    · split
      · exact hsame
      · split
        · exact hsame
        · split
          · exact hsame
          · exact .of_delete (voiceConnectionKey room kind) rfl rfl
  | refresh connectionId room kind =>
    obtain rfl := Option.some.inj h
    unfold refreshConnection
    split
    · exact hsame
    · split
      · exact hsame
      · exact .kept (by simp) (by simp)
  | migrate guildId =>
    obtain rfl := Option.some.inj h
    exact migrateBotGuildConnection_effect s guildId
  | expire key =>
    obtain rfl := Option.some.inj h
    exact .of_delete key rfl rfl
  | occupy room o =>
    obtain rfl := Option.some.inj h
    exact .kept (fun _ => le_refl _) fun _ _ => id

/-! ## The invariant -/

/-- No record is ahead of its room's counter, and a guild's key holds
rooms of that guild. -/
structure VoiceInv (s : VoiceKeys) : Prop where
  bound : ∀ key c, s.connection key = some c → c.generation ≤ s.generation c.room
  place : ∀ guildId c, s.connection (.guild guildId) = some c →
    ∃ channelId, c.room = .guild guildId channelId

theorem VoiceInv.of_start (h : s.Start) : VoiceInv s := by
  refine ⟨fun key c hc => ?_, fun guildId c hc => ?_⟩
  · cases key with
    | identity => exact h.2 c hc
    | guild guildId =>
      rw [h.1 guildId] at hc
      cases hc
  · rw [h.1 guildId] at hc
    cases hc

theorem VoiceEffect.generation_le (h : VoiceEffect s s') (room : VoiceRoom) :
    s.generation room ≤ s'.generation room := by
  cases h with
  | kept hgeneration => exact hgeneration room
  | granted _ _ hgeneration => exact hgeneration room
  | moved _ _ _ hgeneration => rw [hgeneration]

/-- Where a record of the next state comes from: it was there already,
perhaps under the identity's key, or its generation is new. -/
theorem VoiceEffect.origin (h : VoiceEffect s s') {key : ConnectionKey} {c : VoiceConnection}
    (hc : s'.connection key = some c) :
    (∃ old, s.connection old = some c) ∨
      (s.generation c.room < c.generation ∧ s'.generation c.room = c.generation) := by
  cases h with
  | kept _ hconnection => exact .inl ⟨key, hconnection key c hc⟩
  | granted key' c' _ _ hfresh hcount hconnection =>
    rw [hconnection] at hc
    by_cases hkey : key = key'
    · rw [hkey, Function.update_self] at hc
      obtain rfl := Option.some.inj hc
      exact .inr ⟨hfresh, hcount⟩
    · rw [Function.update_of_ne hkey] at hc
      exact .inl ⟨key, hc⟩
  | moved guildId _ c' _ hc' _ hconnection =>
    rw [hconnection] at hc
    by_cases hkey : key = .identity
    · rw [hkey, Function.update_self] at hc
      cases hc
    · rw [Function.update_of_ne hkey] at hc
      by_cases hguild : key = .guild guildId
      · rw [hguild, Function.update_self] at hc
        exact .inl ⟨.identity, hc'.trans hc⟩
      · rw [Function.update_of_ne hguild] at hc
        exact .inl ⟨key, hc⟩

theorem VoiceInv.effect (hs : VoiceInv s) (h : VoiceEffect s s') : VoiceInv s' := by
  refine ⟨fun key c hc => ?_, fun guildId c hc => ?_⟩
  · rcases h.origin hc with ⟨old, hold⟩ | ⟨-, hcount⟩
    · exact (hs.bound old c hold).trans (h.generation_le c.room)
    · exact hcount.ge
  · cases h with
    | kept _ hconnection => exact hs.place guildId c (hconnection _ c hc)
    | granted key c' _ hplace _ _ hconnection =>
      rw [hconnection] at hc
      by_cases hkey : .guild guildId = key
      · rw [hkey, Function.update_self] at hc
        obtain rfl := Option.some.inj hc
        exact hplace guildId hkey.symm
      · rw [Function.update_of_ne hkey] at hc
        exact hs.place guildId c hc
    | moved guildId' channelId c' _ _ hroom hconnection =>
      have hne : ConnectionKey.guild guildId ≠ .identity := nofun
      rw [hconnection, Function.update_of_ne hne] at hc
      by_cases hguild : ConnectionKey.guild guildId = .guild guildId'
      · rw [hguild, Function.update_self] at hc
        obtain rfl := Option.some.inj hc
        injection hguild with hguild
        exact ⟨channelId, hguild ▸ hroom⟩
      · rw [Function.update_of_ne hguild] at hc
        exact hs.place guildId c hc

/-! ## Grants that match -/

/-- Some key holds the grant. -/
def Held (s : VoiceKeys) (g : VoiceGrant) : Prop := ∃ key c, s.connection key = some c ∧ c.grant = g

/-- The grant is matched for some client kind. -/
def Matches (s : VoiceKeys) (g : VoiceGrant) : Prop :=
  ∃ kind, voiceConnectionMatches s g kind = true

theorem voiceConnectionMatches_eq_true {g : VoiceGrant} {kind : Option ClientKind} :
    voiceConnectionMatches s g kind = true ↔
      ∃ c, (s.migratedFor g.room kind).connection (voiceConnectionKey (some g.room) kind) =
        some c ∧ c.grant = g := by
  unfold voiceConnectionMatches
  split
  · rename_i hnone
    rw [hnone]
    simp
  · rename_i c hc
    rw [hc]
    simp

/-- The migration moves a record; it does not write a new one. -/
theorem migratedFor_origin {room : VoiceRoom} {kind : Option ClientKind} {key : ConnectionKey}
    {c : VoiceConnection} (h : (s.migratedFor room kind).connection key = some c) :
    ∃ old, s.connection old = some c := by
  unfold VoiceKeys.migratedFor at h
  split at h
  · exact ⟨key, h⟩
  · rename_i guildId _
    have hsame : (migrateBotGuildConnection s guildId).2.generation = s.generation := by
      unfold migrateBotGuildConnection
      dsimp only
      repeat' split
      all_goals rfl
    rcases (migrateBotGuildConnection_effect s guildId).origin h with hold | ⟨hlt, hcount⟩
    · exact hold
    · rw [hsame] at hcount
      exact absurd hcount hlt.ne

theorem Held.of_matches {g : VoiceGrant} {kind : Option ClientKind}
    (h : voiceConnectionMatches s g kind = true) : Held s g := by
  obtain ⟨c, hc, hg⟩ := voiceConnectionMatches_eq_true.mp h
  obtain ⟨old, hold⟩ := migratedFor_origin hc
  exact ⟨old, c, hold, hg⟩

/-- A held grant is matched: under the identity's key without a client
kind, under a guild's key for a bot. -/
theorem VoiceInv.matches_of_held (hs : VoiceInv s) {g : VoiceGrant} (h : Held s g) :
    Matches s g := by
  obtain ⟨key, c, hc, rfl⟩ := h
  cases key with
  | identity =>
    refine ⟨none, voiceConnectionMatches_eq_true.mpr ⟨c, ?_, rfl⟩⟩
    have hnone : botGuildId (some c.grant.room) none = none := by
      unfold botGuildId
      split
      · rename_i h
        cases h
      · rfl
    simpa only [VoiceKeys.migratedFor, voiceConnectionKey, hnone] using hc
  | guild guildId =>
    obtain ⟨channelId, hroom⟩ := hs.place guildId c hc
    refine ⟨some .bot, voiceConnectionMatches_eq_true.mpr ⟨c, ?_, rfl⟩⟩
    have hguild : botGuildId (some c.grant.room) (some .bot) = some guildId := by
      simp only [VoiceConnection.grant, hroom, botGuildId]
    simp only [VoiceKeys.migratedFor, voiceConnectionKey, hguild, migrateBotGuildConnection, hc]

theorem matches_iff_held (hs : VoiceInv s) {g : VoiceGrant} : Matches s g ↔ Held s g :=
  ⟨fun ⟨_, h⟩ => .of_matches h, hs.matches_of_held⟩

/-- A grant of the past: its room's counter has shown its generation and
no key holds it. -/
structure Retired (g : VoiceGrant) (s : VoiceKeys) : Prop where
  bound : g.generation ≤ s.generation g.room
  gone : ¬ Held s g

theorem Retired.effect {g : VoiceGrant} (hs : Retired g s) (h : VoiceEffect s s') :
    Retired g s' := by
  refine ⟨hs.bound.trans (h.generation_le g.room), ?_⟩
  rintro ⟨key, c, hc, rfl⟩
  rcases h.origin hc with ⟨old, hold⟩ | ⟨hfresh, -⟩
  · exact hs.gone ⟨old, c, hold, rfl⟩
  · exact absurd hs.bound (not_le.mpr hfresh)

end

theorem voiceInv_run {s₀ s : VoiceKeys} {is : List VoiceScript} (h₀ : VoiceInv s₀)
    (hrun : Exec VoiceKeys.step Always s₀ is s) : VoiceInv s :=
  hrun.invariant (fun _ _ _ hs _ hstep => hs.effect (VoiceKeys.step_effect hstep)) h₀

theorem retired_run {g : VoiceGrant} {s s' : VoiceKeys} {is : List VoiceScript}
    (hs : Retired g s) (hrun : Exec VoiceKeys.step Always s is s') : Retired g s' :=
  hrun.invariant (fun _ _ _ hs _ hstep => hs.effect (VoiceKeys.step_effect hstep)) hs

theorem generation_run {s s' : VoiceKeys} {is : List VoiceScript}
    (hrun : Exec VoiceKeys.step Always s is s') (room : VoiceRoom) :
    s.generation room ≤ s'.generation room :=
  hrun.invariant (I := fun t => s.generation room ≤ t.generation room)
    (fun _ _ _ ht _ hstep => ht.trans ((VoiceKeys.step_effect hstep).generation_le room))
    (le_refl _)

/-! ## The fence -/

/-- Two grants matched under one key are the same. -/
theorem matches_unique {s : VoiceKeys} {g g' : VoiceGrant} {kind kind' : Option ClientKind}
    (h : voiceConnectionMatches s g kind = true) (h' : voiceConnectionMatches s g' kind' = true)
    (hkey : voiceConnectionKey (some g.room) kind = voiceConnectionKey (some g'.room) kind') :
    g = g' := by
  have hguild : botGuildId (some g.room) kind = botGuildId (some g'.room) kind' := by
    unfold voiceConnectionKey at hkey
    generalize botGuildId (some g.room) kind = a at hkey ⊢
    generalize botGuildId (some g'.room) kind' = b at hkey ⊢
    cases a <;> cases b <;> simp_all
  obtain ⟨c, hc, rfl⟩ := voiceConnectionMatches_eq_true.mp h
  obtain ⟨c', hc', rfl⟩ := voiceConnectionMatches_eq_true.mp h'
  have hmigrated : s.migratedFor c.grant.room kind = s.migratedFor c'.grant.room kind' := by
    simp only [VoiceKeys.migratedFor, hguild]
  rw [hmigrated, hkey, hc'] at hc
  rw [Option.some.inj hc]

theorem voiceConnectionKey_of_ne_bot {room : VoiceRoom} {kind : Option ClientKind}
    (h : kind ≠ some .bot) : voiceConnectionKey (some room) kind = .identity := by
  unfold voiceConnectionKey botGuildId
  split
  · rfl
  · rename_i hguild
    split at hguild
    · exact (h rfl).elim
    · cases hguild

/-- A granted claim repeats the record it finds or draws a new generation. -/
theorem claimConnection_granted {s : VoiceKeys} {a : VoiceClaim}
    (h : (claimConnection s a).1.granted = true) :
    (∃ c, s.connection (voiceConnectionKey (some a.room) (some a.clientKind)) = some c ∧
      c.grant = ⟨a.connectionId, a.room, (claimConnection s a).1.generation⟩) ∨
    (s.generation a.room < (claimConnection s a).1.generation ∧
      (claimConnection s a).2.generation a.room = (claimConnection s a).1.generation) := by
  have hgrant (t : VoiceKeys) (previous : Option VoiceConnection)
      (ht : s.generation a.room ≤ t.generation a.room) :
      s.generation a.room < (grantConnection t a previous).1.generation ∧
        (grantConnection t a previous).2.generation a.room =
          (grantConnection t a previous).1.generation := by
    simp only [grantConnection, VoiceKeys.retainIndex_generation, VoiceKeys.setConnection,
      VoiceKeys.bumpGeneration, Function.update_self, and_true]
    exact Nat.lt_succ_of_le ht
  unfold claimConnection at h ⊢
  split
  · exact .inr (hgrant s none (le_refl _))
  · rename_i current hcurrent
    simp only [hcurrent] at h
    dsimp only at h ⊢
    split
    · rename_i hsame
      rw [if_pos hsame] at h
      split
      · rename_i hlineage
        rw [if_pos hlineage] at h
        cases h
      · exact .inl ⟨current, hcurrent, by rw [VoiceConnection.grant, hsame.1, hsame.2]⟩
    · rename_i hother
      rw [if_neg hother] at h
      split
      · rename_i htakeover
        rw [if_pos htakeover] at h
        cases h
      · refine .inr (hgrant _ _ ?_)
        split
        · refine le_trans ?_ (VoiceKeys.le_bumpGeneration _ _ _)
          simp
        · simp

theorem rotateOccupantGrant_granted {s : VoiceKeys} {expected n : Nat} {o : VoiceOccupant}
    (h : (rotateOccupantGrant s expected o).1 = some n) :
    s.generation o.room < n ∧ (rotateOccupantGrant s expected o).2.generation o.room = n := by
  unfold rotateOccupantGrant at h ⊢
  dsimp only at h ⊢
  split at h
  · cases h
  · rename_i hexpected
    rw [if_neg hexpected]
    rw [not_not] at hexpected
    split at h
    · split at h
      · cases h
      · rename_i hchecks
        obtain rfl := Option.some.inj h
        simp only [hchecks, if_false, Function.update_self, and_true]
        omega
    · cases h

/-- In every run of an identity's scripts: at most one grant matches per
key, and so at most one for clients other than bots; a claim is a
repetition or draws a generation above all the room has had, as a
rotation does; and a grant that matched and then matches no more never
matches again. -/
theorem voice_grants_fenced {s₀ s : VoiceKeys} {is : List VoiceScript} (h₀ : s₀.Start)
    (hrun : Exec VoiceKeys.step Always s₀ is s) :
    (∀ g g' kind kind', voiceConnectionMatches s g kind = true →
      voiceConnectionMatches s g' kind' = true →
      voiceConnectionKey (some g.room) kind = voiceConnectionKey (some g'.room) kind' ∨
        (kind ≠ some .bot ∧ kind' ≠ some .bot) → g = g') ∧
    (∀ room, s₀.generation room ≤ s.generation room) ∧
    (∀ a, (claimConnection s a).1.granted = true →
      (∃ c, s.connection (voiceConnectionKey (some a.room) (some a.clientKind)) = some c ∧
        c.grant = ⟨a.connectionId, a.room, (claimConnection s a).1.generation⟩) ∨
      (s.generation a.room < (claimConnection s a).1.generation ∧
        (claimConnection s a).2.generation a.room = (claimConnection s a).1.generation)) ∧
    (∀ expected o n, (rotateOccupantGrant s expected o).1 = some n →
      s.generation o.room < n ∧ (rotateOccupantGrant s expected o).2.generation o.room = n) ∧
    ∀ js s₁, Exec VoiceKeys.step Always s js s₁ → ∀ g, Matches s g → ¬ Matches s₁ g →
      ∀ ks s₂, Exec VoiceKeys.step Always s₁ ks s₂ → ¬ Matches s₂ g := by
  have hs := voiceInv_run (.of_start h₀) hrun
  refine ⟨fun g g' kind kind' h h' hkey => ?_, generation_run hrun,
    fun a => claimConnection_granted, fun expected o n => rotateOccupantGrant_granted,
    fun js s₁ hjs g hg hgone ks s₂ hks => ?_⟩
  · rcases hkey with hkey | ⟨hk, hk'⟩
    · exact matches_unique h h' hkey
    · refine matches_unique h h' ?_
      rw [voiceConnectionKey_of_ne_bot hk, voiceConnectionKey_of_ne_bot hk']
  · have hs₁ := voiceInv_run hs hjs
    have hs₂ := voiceInv_run hs₁ hks
    obtain ⟨key, c, hc, rfl⟩ := (matches_iff_held hs).mp hg
    have hretired : Retired c.grant s₁ :=
      ⟨(hs.bound key c hc).trans (generation_run hjs c.room),
        fun h => hgone ((matches_iff_held hs₁).mpr h)⟩
    exact fun h => (retired_run hretired hks).gone ((matches_iff_held hs₂).mp h)

/-- An identity that has never connected. -/
def freshVoiceKeys : VoiceKeys where
  connection := fun _ => none
  generation := fun _ => 0
  occupant := fun _ => none
  index := ∅

def sampleClaim (connectionId : String) (room : VoiceRoom) (kind : ClientKind) : VoiceClaim where
  connectionId := connectionId
  room := room
  clientKind := kind
  now := 0
  takeover := true
  botLineage := none

/-- One device claims a room, a second takes over and the first comes back:
its first grant does not match again. -/
theorem voice_grants_fenced_sample :
    let room : VoiceRoom := .guild 1 2
    let s := (claimConnection freshVoiceKeys (sampleClaim "one" room .web)).2
    let s₁ := (claimConnection s (sampleClaim "two" room .desktop)).2
    let s₂ := (claimConnection s₁ (sampleClaim "one" room .web)).2
    Matches s ⟨"one", room, 1⟩ ∧ ¬ Matches s₁ ⟨"one", room, 1⟩ ∧ ¬ Matches s₂ ⟨"one", room, 1⟩ ∧
      Matches s₂ ⟨"one", room, 3⟩ := by
  intro room s s₁ s₂
  have hfirst : Matches s ⟨"one", room, 1⟩ := ⟨some .web, by decide⟩
  have hgone : ¬ Matches s₁ ⟨"one", room, 1⟩ := by
    rintro ⟨kind, h⟩
    rcases kind with _ | _ | _ | _ | _ <;> exact absurd h (by decide)
  have hstart : freshVoiceKeys.Start := ⟨fun _ => rfl, fun _ h => nomatch h⟩
  have hrun : Exec VoiceKeys.step Always freshVoiceKeys [.claim (sampleClaim "one" room .web)] s :=
    .cons trivial rfl (.nil _)
  have htakeover : Exec VoiceKeys.step Always s [.claim (sampleClaim "two" room .desktop)] s₁ :=
    .cons trivial rfl (.nil _)
  have hback : Exec VoiceKeys.step Always s₁ [.claim (sampleClaim "one" room .web)] s₂ :=
    .cons trivial rfl (.nil _)
  have h := (voice_grants_fenced hstart hrun).2.2.2.2 _ s₁ htakeover _ hfirst hgone _ s₂ hback
  exact ⟨hfirst, hgone, h, some .web, by decide⟩

/-- A bot that is connected in two guilds: both its grants match. -/
theorem bot_matches_in_two_guilds :
    let s := (claimConnection freshVoiceKeys (sampleClaim "one" (.guild 1 2) .bot)).2
    let s' := (claimConnection s (sampleClaim "two" (.guild 3 4) .bot)).2
    Exec VoiceKeys.step Always freshVoiceKeys
      [.claim (sampleClaim "one" (.guild 1 2) .bot), .claim (sampleClaim "two" (.guild 3 4) .bot)]
      s' ∧
    voiceConnectionMatches s' ⟨"one", .guild 1 2, 1⟩ (some .bot) = true ∧
    voiceConnectionMatches s' ⟨"two", .guild 3 4, 1⟩ (some .bot) = true := by
  intro s s'
  exact ⟨.cons trivial rfl (.cons trivial rfl (.nil _)), by decide, by decide⟩

end Kaede
