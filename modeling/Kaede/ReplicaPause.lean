import Kaede.GuildReplica

/-!
# A replica never pauses ahead of the home

`Trails q p` says how the policy `q` that a replica stores may lag behind
the policy `p` of the home: the home is in a later generation, or it has
paused the one that the replica still takes for active. The home's own steps
keep this, and so does everything that the replica takes from it.

The replica's pauses keep it as well, since the home pauses too for every
change of access that the replica applies: where the home's caller does not
pause, `AsIssued` makes the replica fetch a snapshot in place of the event.
Without that the replica reaches a state that the home is not in and from
which no policy of that generation is accepted.
-/

namespace Kaede

namespace GuildSync

variable {s s' : State} {p q : ChannelPolicy} {channels home replica : Table Nat ChannelPolicy}

/-! ## Policies -/

theorem pausePolicy_cases (p : ChannelPolicy) :
    (p.mode = .e2ee ∧ p.state = .active ∧ pausePolicy p = { p with state := .rekeying }) ∨
      (¬ (p.mode = .e2ee ∧ p.state = .active) ∧ pausePolicy p = p) := by
  unfold pausePolicy
  split
  · rename_i h
    exact .inl ⟨h.1, h.2, rfl⟩
  · rename_i h
    exact .inr ⟨h, rfl⟩

theorem checkPolicyFields_rekeying (hmode : p.mode = .e2ee) (hstate : p.state = .active)
    (h : checkPolicyFields p = .ok ()) :
    checkPolicyFields { p with state := .rekeying } = .ok () := by
  unfold checkPolicyFields at h ⊢
  split at h
  · simp [check_bind_eq_ok, ensure_eq_ok, hstate] at h
  · rename_i hgeneration
    simpa [check_bind_eq_ok, ensure_eq_ok, hgeneration, hstate, hmode] using h

theorem pausePolicy_valid (h : p.Valid) : (pausePolicy p).Valid := by
  obtain ⟨hmode, hstate, heq⟩ | ⟨-, heq⟩ := pausePolicy_cases p
  · rw [heq]
    have hfields := validate_fields h
    exact ChannelPolicy.FieldsOk.valid
      { generation := hfields.generation
        epoch := hfields.epoch
        protocol := hfields.protocol
        suite := hfields.suite
        groupId := hfields.groupId
        consistent := checkPolicyFields_rekeying hmode hstate hfields.consistent }
  · rw [heq]
    exact h

theorem committedPolicy_valid {groupId : String} (h : Commits p groupId) :
    (committedPolicy p groupId).Valid := by
  obtain ⟨-, hgeneration, hepoch, hlength⟩ := h
  refine ChannelPolicy.FieldsOk.valid ⟨hgeneration, ?_, rfl, rfl, ?_, ?_⟩
  · rintro n ⟨⟩
    split
    · omega
    · cases he : p.epoch with
      | none => simp
      | some n =>
        have := hepoch n he
        simp only [Option.getD_some]
        omega
  · simp [committedPolicy, wireText, wireIdentifier, check_bind_eq_ok, ensure_eq_ok, hlength]
  · simp [checkPolicyFields, committedPolicy, check_bind_eq_ok, ensure_eq_ok]

/-- What a replica may store of a channel for which the home stores `p`. -/
structure Trails (q p : ChannelPolicy) : Prop where
  generation : q.generation ≤ p.generation
  mode : q.mode = .e2ee → p.mode = .e2ee
  same : q.generation = p.generation →
    q = p ∨ (q.state = .active ∧ p = { q with state := .rekeying })

theorem Trails.refl (p : ChannelPolicy) : Trails p p := ⟨le_refl _, id, fun _ => .inl rfl⟩

theorem Trails.pauseHome (h : Trails q p) : Trails q (pausePolicy p) := by
  obtain ⟨-, hstate, heq⟩ | ⟨-, heq⟩ := pausePolicy_cases p
  · rw [heq]
    refine ⟨h.generation, h.mode, fun hg => ?_⟩
    obtain rfl | ⟨-, rfl⟩ := h.same hg
    · exact .inr ⟨hstate, rfl⟩
    · cases hstate
  · rwa [heq]

theorem Trails.commit (h : Trails q p) (groupId : String) :
    Trails q (committedPolicy p groupId) := by
  have hlt : q.generation < (committedPolicy p groupId).generation :=
    Nat.lt_succ_of_le h.generation
  exact ⟨hlt.le, fun _ => rfl, fun heq => absurd heq hlt.ne⟩

theorem Trails.pauseReplica (h : Trails q p) (hpaused : p.mode = .e2ee → p.state ≠ .active) :
    Trails (pausePolicy q) p := by
  obtain ⟨hmode, hstate, heq⟩ | ⟨-, heq⟩ := pausePolicy_cases q
  · rw [heq]
    refine ⟨h.generation, h.mode, fun hg => .inl ?_⟩
    obtain rfl | ⟨-, rfl⟩ := h.same hg
    · exact absurd hstate (hpaused hmode)
    · rfl
  · rwa [heq]

theorem pausePolicy_state_ne (p : ChannelPolicy) (hmode : (pausePolicy p).mode = .e2ee) :
    (pausePolicy p).state ≠ .active := by
  obtain ⟨-, -, heq⟩ | ⟨hidle, heq⟩ := pausePolicy_cases p
  · rw [heq]
    exact nofun
  · rw [heq] at hmode ⊢
    exact fun hstate => hidle ⟨hmode, hstate⟩

theorem Trails.admitted (h : Trails q p) (hvalid : q.Valid) (label : String) :
    validateChannelEncryptionPolicyTransition q p label = .ok () := by
  rw [transition_eq_ok hvalid]
  refine ⟨h.generation, fun hg hne => ?_, h.mode⟩
  obtain rfl | ⟨hstate, rfl⟩ := h.same hg.symm
  · exact absurd rfl hne
  · refine ⟨⟨rfl, rfl, rfl⟩, ?_⟩
    show Forward q.state .rekeying
    rw [hstate]
    decide

def AllValid (channels : Table Nat ChannelPolicy) : Prop :=
  ∀ id p, channels.lookup id = some p → p.Valid

/-- What both servers know of a channel agrees up to the replica's delay. -/
def Behind (replica home : Table Nat ChannelPolicy) : Prop :=
  ∀ id q p, replica.lookup id = some q → home.lookup id = some p → Trails q p

theorem lookup_pauseChannels {id : Nat} (h : (pauseChannels channels).lookup id = some p) :
    ∃ p₀, channels.lookup id = some p₀ ∧ pausePolicy p₀ = p := by
  rw [pauseChannels, Table.lookup_mapValues] at h
  exact Option.map_eq_some_iff.mp h

theorem AllValid.pauseChannels (h : AllValid channels) : AllValid (pauseChannels channels) := by
  intro id p hp
  obtain ⟨p₀, hp₀, rfl⟩ := lookup_pauseChannels hp
  exact pausePolicy_valid (h id p₀ hp₀)

theorem AllValid.insert (h : AllValid channels) (hp : p.Valid) (id : Nat) :
    AllValid (channels.insert id p) := by
  intro id' p' hp'
  obtain ⟨-, rfl⟩ | ⟨-, hp'⟩ := Table.lookup_insert_eq_some.mp hp'
  · exact hp
  · exact h id' p' hp'

theorem Behind.pauseHome (h : Behind replica home) : Behind replica (pauseChannels home) := by
  intro id q p hq hp
  obtain ⟨p₀, hp₀, rfl⟩ := lookup_pauseChannels hp
  exact (h id q p₀ hq hp₀).pauseHome

theorem Behind.pauseBoth (h : Behind replica home) :
    Behind (pauseChannels replica) (pauseChannels home) := by
  intro id q p hq hp
  obtain ⟨q₀, hq₀, rfl⟩ := lookup_pauseChannels hq
  obtain ⟨p₀, hp₀, rfl⟩ := lookup_pauseChannels hp
  exact (h id q₀ p₀ hq₀ hp₀).pauseHome.pauseReplica (pausePolicy_state_ne p₀)

theorem Behind.insertReplica (h : Behind replica home) {id : Nat} (hp : home.lookup id = some p) :
    Behind (replica.insert id p) home := by
  intro id' q' p' hq' hp'
  obtain ⟨rfl, rfl⟩ | ⟨-, hq'⟩ := Table.lookup_insert_eq_some.mp hq'
  · obtain rfl := Option.some.inj (hp.symm.trans hp')
    exact .refl _
  · exact h id' q' p' hq' hp'

/-- The home changes one of its channels. -/
theorem Behind.insertHome (h : Behind replica home) {id : Nat}
    (hp : ∀ q, replica.lookup id = some q → Trails q p) : Behind replica (home.insert id p) := by
  intro id' q' p' hq' hp'
  obtain ⟨rfl, rfl⟩ | ⟨-, hp'⟩ := Table.lookup_insert_eq_some.mp hp'
  · exact hp q' hq'
  · exact h id' q' p' hq' hp'

/-! ## What a mutation and a snapshot do -/

theorem applyChannel_ok {id : Nat} {channels' : Table Nat ChannelPolicy} (hp : p.Valid)
    (h : applyChannel channels id (channelEncryptionPolicyPayload p) = .ok channels') :
    channels' = channels.insert id p := by
  obtain ⟨policy, hpolicy, h⟩ := bind_eq_ok.mp h
  obtain rfl : p = policy := Except.ok.inj (hp.symm.trans hpolicy)
  split at h
  · exact (Except.ok.inj h).symm
  · exact (Except.ok.inj (check_bind_eq_ok.mp h).2).symm

theorem changesAccess_not_carriesChannel {type : MutationType} (h : type.changesAccess = true) :
    type.carriesChannel = false := by
  cases type with
  | channelCreate => cases h
  | other => cases h
  | known event =>
    cases event <;> revert h <;> decide

theorem carriedPolicy_some {side : Side} {m : Mutation} {id : Nat} {payload : PolicyPayload}
    (h : carriedPolicy side m = some (id, payload)) : m.type.carriesChannel = true ∧
      ∃ p, side.channels.lookup id = some p ∧ payload = channelEncryptionPolicyPayload p := by
  unfold carriedPolicy at h
  split at h
  · rename_i hcarries
    obtain ⟨id', -, h⟩ := Option.bind_eq_some_iff.mp h
    obtain ⟨p, hp, h⟩ := Option.map_eq_some_iff.mp h
    obtain ⟨rfl, rfl⟩ := Prod.mk.inj h
    exact ⟨hcarries, p, hp, rfl⟩
  · cases h

theorem applyPolicy_carried {side : Side} {m : Mutation}
    {channels channels' : Table Nat ChannelPolicy} (hvalid : AllValid side.channels)
    (h : applyPolicy channels (carriedPolicy side m) = .ok channels') :
    channels' = channels ∨ (m.type.changesAccess = false ∧ ∃ id p,
      side.channels.lookup id = some p ∧ channels' = channels.insert id p) := by
  cases hcarried : carriedPolicy side m with
  | none =>
    rw [hcarried] at h
    exact .inl (Except.ok.inj h).symm
  | some carried =>
    obtain ⟨id, payload⟩ := carried
    obtain ⟨hcarries, p, hp, rfl⟩ := carriedPolicy_some hcarried
    rw [hcarried] at h
    refine .inr ⟨?_, id, p, hp, applyChannel_ok (hvalid id p hp) h⟩
    by_contra haccess
    rw [changesAccess_not_carriesChannel (Bool.not_eq_false _ ▸ haccess)] at hcarries
    cases hcarries

/-- What an event that is next in sequence does to the replica's channels. -/
inductive Takes (channels : Table Nat ChannelPolicy) (e : Event) :
    Table Nat ChannelPolicy → Prop
  | same : Takes channels e channels
  | joined {m : Mutation} : e.mutation = some m → m.type = .known .memberAdd →
      Takes channels e (pauseChannels channels)
  | carried {m : Mutation} {channels' : Table Nat ChannelPolicy} : e.mutation = some m →
      applyPolicy channels e.policy = .ok channels' → Takes channels e channels'
  | paused {m : Mutation} {channels' : Table Nat ChannelPolicy} : e.mutation = some m →
      e.snapshotRequired = false → m.type.changesAccess = true →
      applyPolicy channels e.policy = .ok channels' → Takes channels e (pauseChannels channels')

theorem applyGuildMutationEvent_ok {side side' : Side} {e : Event} {knownBot : UserRef → Bool}
    (h : applyGuildMutationEvent side e knownBot = .ok side')
    (hfence : side.seq < e.seq → e.snapshotRequired = false) :
    side' = side ∨
      (e.seq = side.seq + 1 ∧ side'.seq = e.seq ∧ Takes side.channels e side'.channels) := by
  unfold applyGuildMutationEvent at h
  split at h
  · exact .inl (Except.ok.inj h).symm
  split at h
  · cases h
  rename_i hnew hnext
  refine .inr ⟨not_not.mp hnext, ?_⟩
  split at h
  · obtain rfl := Except.ok.inj h
    exact ⟨rfl, .same⟩
  · rename_i m hm
    obtain ⟨channels, hchannels, h⟩ := bind_eq_ok.mp h
    obtain rfl := Except.ok.inj h
    refine ⟨rfl, ?_⟩
    dsimp only
    split
    · rename_i hpauses
      exact .paused hm (hfence (not_le.mp hnew)) (Bool.and_eq_true_iff.mp hpauses).1 hchannels
    · exact .carried hm hchannels

theorem receiveJoin_ok {side side' : Side} {e : Event} {m : Mutation} {d : Delivery}
    (hm : e.mutation = some m) (hjoin : m.type = .known .memberAdd)
    (h : receiveJoin side e m d = .ok side') :
    side' = side ∨
      (e.seq = side.seq + 1 ∧ side'.seq = e.seq ∧ Takes side.channels e side'.channels) := by
  obtain ⟨⟨joined, created⟩, happly, h⟩ := bind_eq_ok.mp h
  obtain rfl := Except.ok.inj h
  unfold applyGuildMemberEvent at happly
  split at happly
  · obtain ⟨rfl, rfl⟩ := Prod.mk.inj (Except.ok.inj happly)
    exact .inl (by simp [joinPauses])
  split at happly
  · cases happly
  rename_i hnext
  obtain ⟨rfl, rfl⟩ := Prod.mk.inj (Except.ok.inj happly)
  refine .inr ⟨not_not.mp hnext, ?_⟩
  split
  · exact ⟨rfl, .joined hm hjoin⟩
  · exact ⟨rfl, .same⟩

theorem receiveEvent_ok {side side' : Side} {e : Event} {d : Delivery}
    (h : receiveEvent side e d = .ok side') :
    side' = side ∨
      (e.seq = side.seq + 1 ∧ side'.seq = e.seq ∧ Takes side.channels e side'.channels) := by
  unfold receiveEvent at h
  split at h
  · rename_i m hjoin
    obtain ⟨hm, hjoin⟩ := Option.filter_eq_some_iff.mp hjoin
    exact receiveJoin_ok hm (of_decide_eq_true hjoin) h
  split at h
  · cases h
  · rename_i hfence
    refine applyGuildMutationEvent_ok h fun hseq => ?_
    by_contra hrequired
    exact hfence ⟨Bool.not_eq_false _ ▸ hrequired, hseq⟩

theorem mutate_home {m : Mutation} {visible : Bool} {handed : Option Delivery}
    (h : s.mutate m visible handed = some s') :
    s'.home =
      { channels := if m.pauseE2ee && m.type.changesAccess then pauseChannels s.home.channels
          else s.home.channels
        seq := s.home.seq + 1 } := by
  obtain ⟨⟨home, e⟩, hqueue, rfl⟩ := Option.map_eq_some_iff.mp h
  unfold queueGuildMutation at hqueue
  split at hqueue
  · cases hqueue
  · exact (Prod.mk.inj (Option.some.inj hqueue)).1.symm

/-- What the replica does about a mutation: it takes nothing, the carried
channel, or the pause. -/
theorem mutate_replica {m : Mutation} {visible : Bool} {handed : Option Delivery}
    (hvalid : AllValid s.home.channels) (h : s.mutate m visible handed = some s') :
    s'.replica = s.replica ∨ (s.replica.seq = s.home.seq ∧ s'.replica.seq = s'.home.seq ∧
      (s'.replica.channels = s.replica.channels ∨
        (m.type.changesAccess = false ∧ ∃ id p, s.home.channels.lookup id = some p ∧
          s'.replica.channels = s.replica.channels.insert id p) ∨
        (m.type.changesAccess = true ∧ (m.snapshotRequired = true → m.type = .known .memberAdd) ∧
          s'.replica.channels = pauseChannels s.replica.channels))) := by
  obtain ⟨⟨home, e⟩, hqueue, rfl⟩ := Option.map_eq_some_iff.mp h
  unfold queueGuildMutation at hqueue
  split at hqueue
  · cases hqueue
  obtain ⟨rfl, rfl⟩ := Prod.mk.inj (Option.some.inj hqueue)
  cases handed with
  | none => exact .inl rfl
  | some d =>
    dsimp only
    cases happly : receiveEvent s.replica _ d with
    | error => exact .inl rfl
    | ok side =>
      show side = _ ∨ _ ∧ side.seq = _ ∧ (side.channels = _ ∨ (_ ∧ ∃ id p, _ ∧ side.channels = _) ∨
        _ ∧ _ ∧ side.channels = _)
      obtain hsame | ⟨hnext, hseq, htakes⟩ := receiveEvent_ok happly
      · exact .inl hsame
      refine .inr ⟨(Nat.succ.inj hnext).symm, hseq, ?_⟩
      -- an event that says more than its number is no redaction
      have hclear {m' : Mutation} (hm : (if m.redacted visible then none else some m) = some m') :
          m.redacted visible = false ∧ m = m' := by
        split at hm
        · cases hm
        · rename_i hvisible
          exact ⟨Bool.eq_false_of_not_eq_true hvisible, Option.some.inj hm⟩
      generalize hchannels : side.channels = channels' at htakes ⊢
      cases htakes with
      | same => exact .inl rfl
      | joined hm hjoin =>
        obtain ⟨-, rfl⟩ := hclear hm
        exact .inr (.inr ⟨by rw [hjoin]; rfl, fun _ => hjoin, rfl⟩)
      | carried hm hpolicy =>
        obtain ⟨hvisible, rfl⟩ := hclear hm
        simp only [hvisible, Bool.false_eq_true, if_false] at hpolicy
        obtain rfl | hinsert := applyPolicy_carried hvalid hpolicy
        · exact .inl rfl
        · exact .inr (.inl hinsert)
      | paused hm hrequired haccess hpolicy =>
        obtain ⟨hvisible, rfl⟩ := hclear hm
        simp only [hvisible, Bool.false_eq_true, if_false] at hpolicy
        obtain rfl | ⟨hnone, -⟩ := applyPolicy_carried hvalid hpolicy
        · refine .inr (.inr ⟨haccess, fun hfenced => ?_, rfl⟩)
          cases hrequired.symm.trans hfenced
        · cases hnone.symm.trans haccess

theorem importChannels_lookup {payloads : List (Nat × PolicyPayload)}
    {channels' : Table Nat ChannelPolicy} (h : importChannels channels payloads = .ok channels')
    {id : Nat} (hq : channels'.lookup id = some q) :
    channels.lookup id = some q ∨ ∃ payload, (id, payload) ∈ payloads ∧
      validateChannelEncryptionPolicy (some payload) = .ok q := by
  induction payloads generalizing channels with
  | nil =>
    obtain rfl := Except.ok.inj h
    exact .inl hq
  | cons entry rest ih =>
    obtain ⟨id', payload⟩ := entry
    obtain ⟨next, hnext, h⟩ := bind_eq_ok.mp h
    obtain ⟨policy, hpolicy, hnext⟩ := bind_eq_ok.mp hnext
    obtain rfl := Except.ok.inj (check_bind_eq_ok.mp hnext).2
    obtain hq | ⟨payload', hmem, hvalidate⟩ := ih h
    · obtain ⟨rfl, rfl⟩ | ⟨-, hq⟩ := Table.lookup_insert_eq_some.mp hq
      · exact .inr ⟨payload, List.mem_cons_self, hpolicy⟩
      · exact .inl hq
    · exact .inr ⟨payload', List.mem_cons_of_mem _ hmem, hvalidate⟩

/-- A snapshot brings policies of the home and nothing else. -/
theorem snapshot_lookup {side : Side} {visible : Nat → Bool} {channels' : Table Nat ChannelPolicy}
    (hvalid : AllValid side.channels)
    (h : importChannels channels (snapshotChannels side visible) = .ok channels')
    {id : Nat} (hq : channels'.lookup id = some q) :
    channels.lookup id = some q ∨ side.channels.lookup id = some q := by
  obtain hq | ⟨payload, hmem, hvalidate⟩ := importChannels_lookup h hq
  · exact .inl hq
  · obtain ⟨⟨id', p⟩, hentry, heq⟩ := List.mem_map.mp hmem
    obtain ⟨rfl, rfl⟩ := Prod.mk.inj heq
    have hp : side.channels.lookup id' = some p :=
      AList.mem_lookup_iff.mpr (List.mem_filter.mp hentry).1
    obtain rfl : p = q := Except.ok.inj ((hvalid id' p hp).symm.trans hvalidate)
    exact .inr hp

/-! ## Runs -/

/-- The tables of the home and of a replica. -/
structure Paired (home replica : Table Nat ChannelPolicy) : Prop where
  homeValid : AllValid home
  replicaValid : AllValid replica
  behind : Behind replica home

structure State.Ok (s : State) : Prop where
  paired : Paired s.home.channels s.replica.channels
  seq : s.replica.seq ≤ s.home.seq

theorem Paired.pauseHome (h : Paired home replica) : Paired (pauseChannels home) replica :=
  ⟨h.homeValid.pauseChannels, h.replicaValid, h.behind.pauseHome⟩

theorem Paired.pauseBoth (h : Paired home replica) :
    Paired (pauseChannels home) (pauseChannels replica) :=
  ⟨h.homeValid.pauseChannels, h.replicaValid.pauseChannels, h.behind.pauseBoth⟩

theorem Paired.insertReplica (h : Paired home replica) {id : Nat} (hp : home.lookup id = some p) :
    Paired home (replica.insert id p) :=
  ⟨h.homeValid, h.replicaValid.insert (h.homeValid id p hp) id, h.behind.insertReplica hp⟩

/-- The replica pauses only where the home does, as long as the caller asks
for a snapshot where it does not pause. -/
theorem State.Ok.mutate (h : s.Ok) {m : Mutation} {visible : Bool} {handed : Option Delivery}
    (hissued : AsIssued s (.mutate m visible handed))
    (hmutate : s.mutate m visible handed = some s') : s'.Ok := by
  have hhome := mutate_home hmutate
  have hkept : Paired s'.home.channels s.replica.channels := by
    rw [hhome]
    dsimp only
    split
    · exact h.paired.pauseHome
    · exact h.paired
  obtain hsame | ⟨-, hseq, hchannels⟩ := mutate_replica h.paired.homeValid hmutate
  · refine ⟨hsame ▸ hkept, ?_⟩
    rw [hsame, hhome]
    exact h.seq.trans (Nat.le_succ _)
  refine ⟨?_, hseq.le⟩
  obtain hsame | ⟨haccess, id, p, hp, hinsert⟩ | ⟨haccess, hfenced, hpaused⟩ := hchannels
  · rwa [hsame]
  · rw [haccess, Bool.and_false, if_neg Bool.false_ne_true] at hhome
    rw [hinsert, hhome]
    exact h.paired.insertReplica hp
  · have hpause : m.pauseE2ee = true := by
      by_contra hpause
      obtain ⟨hrequired, hjoin⟩ := hissued haccess (Bool.eq_false_of_not_eq_true hpause)
      exact hjoin (hfenced hrequired)
    rw [hpause, haccess, Bool.and_true, if_pos rfl] at hhome
    rw [hpaused, hhome]
    exact h.paired.pauseBoth

/-- A replica that lacks an event takes none before a snapshot; nor does it
take an event that asks for one. -/
theorem mutate_skipped {m : Mutation} {visible : Bool} {handed : Option Delivery}
    (hvalid : AllValid s.home.channels) (hmutate : s.mutate m visible handed = some s')
    (hskipped : s.replica.seq < s.home.seq) : s'.replica = s.replica := by
  obtain hsame | ⟨hnext, -⟩ := mutate_replica hvalid hmutate
  · exact hsame
  · omega

theorem mutate_fenced {visible : Bool} {handed : Option Delivery}
    (hseq : s.replica.seq ≤ s.home.seq)
    (hmutate : s.mutate installRole visible handed = some s') : s'.replica = s.replica := by
  obtain ⟨⟨home, e⟩, hqueue, rfl⟩ := Option.map_eq_some_iff.mp hmutate
  obtain ⟨rfl, rfl⟩ := Prod.mk.inj (Option.some.inj hqueue)
  cases handed with
  | none => rfl
  | some d =>
    have hnew : s.replica.seq < s.home.seq + 1 := Nat.lt_succ_of_le hseq
    have hfence : receiveEvent s.replica ⟨s.home.seq + 1, true, some installRole, none⟩ d =
        .error "federation resync retry" := if_pos ⟨rfl, hnew⟩
    exact congrArg (fun r => r.toOption.getD s.replica) hfence

/-- The bot's role asks for a snapshot, and no snapshot comes before the
join that the same transaction issues. -/
theorem State.Ok.install (h : s.Ok) {bot : UserRef} {role join grant : Option Delivery}
    (hinstall : s.install bot role join grant = some s') : s'.Ok := by
  obtain ⟨s₁, h₁, hinstall⟩ := Option.bind_eq_some_iff.mp hinstall
  obtain ⟨s₂, h₂, h₃⟩ := Option.bind_eq_some_iff.mp hinstall
  have hok₁ : s₁.Ok := h.mutate (fun haccess => absurd haccess (by decide)) h₁
  have hbehind : s₁.replica.seq < s₁.home.seq := by
    rw [mutate_fenced h.seq h₁, mutate_home h₁]
    exact Nat.lt_succ_of_le h.seq
  have hsame := mutate_skipped hok₁.paired.homeValid h₂ hbehind
  have hok₂ : s₂.Ok := by
    constructor
    · rw [hsame, mutate_home h₂]
      exact hok₁.paired
    · rw [hsame, mutate_home h₂]
      exact hok₁.seq.trans (Nat.le_succ _)
  exact hok₂.mutate (fun _ _ => ⟨rfl, by simp [installGrant]⟩) h₃

theorem State.Ok.create (h : s.Ok) {id : Nat} (hfresh : s.replica.channels.lookup id = none) :
    { s with home.channels := s.home.channels.insert id plaintextPolicy }.Ok := by
  refine ⟨⟨h.paired.homeValid.insert (by decide) id, h.paired.replicaValid,
    h.paired.behind.insertHome fun q hq => ?_⟩, h.seq⟩
  rw [hfresh] at hq
  cases hq

theorem Paired.snapshot {side : Side} (h : Paired side.channels replica) {visible : Nat → Bool}
    (himport : importChannels replica (snapshotChannels side visible) = .ok channels) :
    Paired side.channels channels := by
  refine ⟨h.homeValid, fun id q hq => ?_, fun id q p hq hp => ?_⟩
  · obtain hq | hq := snapshot_lookup h.homeValid himport hq
    · exact h.replicaValid id q hq
    · exact h.homeValid id q hq
  · obtain hq | hq := snapshot_lookup h.homeValid himport hq
    · exact h.behind id q p hq hp
    · obtain rfl := Option.some.inj (hq.symm.trans hp)
      exact .refl q

theorem State.Ok.step (h : s.Ok) {i : Input} (hissued : AsIssued s i)
    (hstep : step s i = some s') : s'.Ok := by
  cases i with
  | mutate m visible handed =>
    simp only [GuildSync.step] at hstep
    split at hstep
    · cases hstep
    · exact h.mutate hissued hstep
  | install bot role join grant => exact h.install hstep
  | create id visible handed =>
    simp only [GuildSync.step] at hstep
    split at hstep
    · cases hstep
    · rename_i hfresh
      have hnone := Option.not_isSome_iff_eq_none.mp (not_or.mp hfresh).2
      exact (h.create hnone).mutate (fun haccess => by cases haccess) hstep
  | commit id groupId =>
    obtain ⟨p, hp, hstep⟩ := Option.bind_eq_some_iff.mp hstep
    split at hstep
    · rename_i hcommits
      obtain rfl := Option.some.inj hstep
      exact ⟨⟨h.paired.homeValid.insert (committedPolicy_valid hcommits) id,
        h.paired.replicaValid,
        h.paired.behind.insertHome fun q hq => (h.paired.behind id q p hq hp).commit groupId⟩,
        h.seq⟩
    · cases hstep
  | pause id =>
    obtain rfl := Option.some.inj hstep
    refine ⟨?_, h.seq⟩
    unfold Table.modify
    split
    · rename_i p hp
      exact ⟨h.paired.homeValid.insert (pausePolicy_valid (h.paired.homeValid id p hp)) id,
        h.paired.replicaValid,
        h.paired.behind.insertHome fun q hq => (h.paired.behind id q p hq hp).pauseHome⟩
    · exact h.paired
  | snapshot visible =>
    obtain rfl := Option.some.inj hstep
    split
    · rename_i channels himport
      exact ⟨h.paired.snapshot himport, le_refl _⟩
    · exact h

/-! ## A replica from its first snapshot on -/

/-- The replica stores channels as the home does, which are in order. -/
structure Synced (s : State) : Prop where
  valid : AllValid s.home.channels
  copied : ∀ id q, s.replica.channels.lookup id = some q → s.home.channels.lookup id = some q
  seq : s.replica.seq ≤ s.home.seq

theorem Synced.ok (h : Synced s) : s.Ok := by
  refine ⟨⟨h.valid, fun id q hq => h.valid id q (h.copied id q hq), fun id q p hq hp => ?_⟩, h.seq⟩
  obtain rfl := Option.some.inj ((h.copied id q hq).symm.trans hp)
  exact .refl q

/-- An event in the inbox of a replica that knows no user as a bot. -/
def sampleDelivery : Delivery where
  inbox := true
  knownBot := fun _ => false
  newMember := true

end GuildSync

end Kaede
