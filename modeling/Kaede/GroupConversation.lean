import Mathlib.Data.List.Sort
import Kaede.EncryptionPolicy

/-!
# Group conversations at their home

`apply_authoritative_group_mutation` of
`backend/app/chat/group_conversations.py` on one group: rename, add,
leave and remove, with the rows of the conversation, its participants
and its channel. The caller holds the row lock and rolls back when the
mutation raises.

A membership change in an encrypted group pauses it: the channel's state
becomes `rekeying`, whatever it was. The table check
`channel_encryption_policy_consistent` then refuses a legacy group, and
the replicas of a failed or activating group refuse the new policy
(`PausesForReplicas`).
-/

namespace Kaede

/-- `MAX_GROUP_DM_PARTICIPANTS`. -/
def maxGroupDmParticipants : Nat := 10

structure DMParticipant where
  user : UserRef
  joinedAt : Nat
deriving DecidableEq, Repr

structure GroupConversation where
  owner : UserRef
  stateVersion : Nat
  name : Option String
  participants : List DMParticipant
  policy : ChannelPolicy
  unavailable : Bool
deriving DecidableEq, Repr

inductive GroupAction where
  | rename
  | add
  | leave
  | remove
  | unknown (word : String)
deriving DecidableEq, Repr

/-- A call of the mutation. `now` is the join time of a new row, and
`mediaRotated` whether `evict_channel_media_sessions` goes through. -/
structure GroupMutation where
  actor : UserRef
  action : GroupAction
  target : Option UserRef
  name : Option String
  now : Nat
  mediaRotated : Bool
deriving DecidableEq, Repr

inductive GroupDmError where
  | notMember
  | memberRequired
  | full
  | alreadyMember
  | ownerRequired
  | ownerCannotRemoveSelf
  | memberNotFound
  | mutationInvalid
  | mediaRotationUnavailable
  | policyInconsistent
deriving DecidableEq, Repr

/-- `channel_encryption_policy_consistent` and the value checks beside it. -/
def ChannelPolicy.SchemaAllows (p : ChannelPolicy) : Prop :=
  (p.generation = 0 ∧
    ((p.state = .plaintext ∧ p.mode = .plaintext) ∨ (p.state = .legacy ∧ p.mode = .e2ee)) ∧
    p.protocol = none ∧ p.suite = none ∧ p.groupId = none ∧ p.epoch = none) ∨
  (0 < p.generation ∧ p.protocol = some e2eeProtocolMls10 ∧ p.suite = some e2eeSuiteMls128 ∧
    p.groupId ≠ none ∧
    ((p.state ∈ [.proposed, .failed] ∧ p.mode = .plaintext ∧ p.epoch = none) ∨
      (p.state ∈ [.activating, .active, .rekeying, .failed] ∧ p.mode = .e2ee ∧ p.epoch ≠ none)))

instance (p : ChannelPolicy) : Decidable p.SchemaAllows := inferInstanceAs (Decidable (_ ∨ _))

/-- The types of the policy columns: big integers, and a group id of at
most 128 characters, which no writer leaves empty. -/
structure ChannelPolicy.ColumnsFit (p : ChannelPolicy) : Prop where
  generation : p.generation ≤ 9223372036854775807
  epoch : ∀ n ∈ p.epoch, n ≤ 9223372036854775807
  groupId : ∀ id ∈ p.groupId, 1 ≤ id.length ∧ id.length ≤ 128

/-- Every stored policy passes the parser. -/
theorem ChannelPolicy.SchemaAllows.valid {p : ChannelPolicy} (h : p.SchemaAllows)
    (hcolumns : p.ColumnsFit) : p.Valid := by
  have hgroup : wireIdentifier (wireText p.groupId) 128 = .ok p.groupId := by
    cases hid : p.groupId with
    | none => rfl
    | some id =>
      simp only [wireText, wireIdentifier, check_bind_eq_ok, ensure_eq_ok, and_true]
      exact hcolumns.groupId id hid
  rcases h with ⟨hzero, hstate, hproto, hsuite, hgid, hepoch⟩ |
    ⟨hpos, hproto, hsuite, hgid, hstate⟩
  · refine ChannelPolicy.FieldsOk.valid
      ⟨hcolumns.generation, hcolumns.epoch, by rw [hproto]; rfl, by rw [hsuite]; rfl, hgroup, ?_⟩
    rcases hstate with ⟨hs, hm⟩ | ⟨hs, hm⟩ <;>
      simp [checkPolicyFields, check_bind_eq_ok, ensure_eq_ok, hzero, hs, hm, hproto, hsuite, hgid,
        hepoch]
  · refine ChannelPolicy.FieldsOk.valid
      ⟨hcolumns.generation, hcolumns.epoch, by rw [hproto]; rfl, by rw [hsuite]; rfl, hgroup, ?_⟩
    simp only [checkPolicyFields, if_neg (Nat.ne_of_gt hpos), check_bind_eq_ok, ensure_eq_ok]
    rcases hstate with ⟨hs, hm, hepoch⟩ | ⟨hs, hm, hepoch⟩
    · have hcase : (p.state = .proposed ∨ p.state = .failed) ∧ p.mode = .plaintext := by
        simpa [hm] using hs
      rw [if_pos hcase, ensure_eq_ok]
      refine ⟨?_, hepoch, hproto, hsuite, hgid⟩
      rcases hcase.1 with h | h <;> simp [h]
    · rw [if_neg (fun h => by rw [hm] at h; cases h.2), ensure_eq_ok]
      refine ⟨?_, ⟨hm, hepoch⟩, hproto, hsuite, hgid⟩
      rintro (h | h) <;> simp [h] at hs

/-- The row order of `group_participants`: join time, then domain and id. -/
def DMParticipant.joinedBefore (a b : DMParticipant) : Prop :=
  a.joinedAt < b.joinedAt ∨ a.joinedAt = b.joinedAt ∧
    (a.user.domain < b.user.domain ∨ a.user.domain = b.user.domain ∧ a.user.id ≤ b.user.id)

instance : DecidableRel DMParticipant.joinedBefore := fun _ _ =>
  inferInstanceAs (Decidable (_ ∨ _))

namespace GroupConversation

/-- `group_participants`. -/
def groupParticipants (g : GroupConversation) : List DMParticipant :=
  g.participants.insertionSort DMParticipant.joinedBefore

def IsMember (g : GroupConversation) (user : UserRef) : Prop :=
  user ∈ g.participants.map DMParticipant.user

instance (g : GroupConversation) (user : UserRef) : Decidable (g.IsMember user) :=
  inferInstanceAs (Decidable (_ ∈ _))

/-- The end every mutation but the last leave comes to: an encrypted group
is paused after a membership change, and the rows are flushed. -/
def finishMutation (before g : GroupConversation) (m : GroupMutation) :
    Except GroupDmError GroupConversation := do
  let membershipChanged : Bool := before.policy.mode = .e2ee ∧ m.action ≠ .rename
  let policy := if membershipChanged then { g.policy with state := .rekeying } else g.policy
  ensure (membershipChanged → m.mediaRotated) .mediaRotationUnavailable
  ensure policy.SchemaAllows .policyInconsistent
  .ok { g with policy := policy, stateVersion := g.stateVersion + 1 }

def addParticipant (g : GroupConversation) (m : GroupMutation) :
    Except GroupDmError GroupConversation := do
  let target ← found m.target .memberRequired
  ensure (g.participants.length < maxGroupDmParticipants) .full
  ensure (¬ g.IsMember target) .alreadyMember
  finishMutation g { g with participants := g.participants ++ [⟨target, m.now⟩] } m

def without (g : GroupConversation) (removed : UserRef) : GroupConversation :=
  { g with participants := g.participants.filter fun p => p.user ≠ removed }

/-- `leave` and `remove`, after the checks that differ. -/
def removeParticipant (g : GroupConversation) (m : GroupMutation) (removed : UserRef) :
    Except GroupDmError GroupConversation := do
  ensure (g.IsMember removed) .memberNotFound
  let remaining := g.without removed
  (match remaining.groupParticipants with
  -- Nobody is left: the version still moves, and the policy is not touched.
  | [] => .ok { remaining with stateVersion := g.stateVersion + 1, unavailable := true }
  | successor :: _ =>
    let owner := if removed = g.owner then successor.user else g.owner
    finishMutation g { remaining with owner := owner } m)

/-- `apply_authoritative_group_mutation`. -/
def applyAuthoritativeGroupMutation (g : GroupConversation) (m : GroupMutation) :
    Except GroupDmError GroupConversation := do
  ensure (g.IsMember m.actor) .notMember
  (match m.action with
  | .rename => finishMutation g { g with name := m.name } m
  | .add => addParticipant g m
  | .leave => removeParticipant g m m.actor
  | .remove => do
      let removed ← found m.target .memberRequired
      ensure (m.actor = g.owner) .ownerRequired
      ensure (removed ≠ g.owner) .ownerCannotRemoveSelf
      removeParticipant g m removed
  | .unknown _ => .error .mutationInvalid)

/-- One call and its transaction. -/
def step (g : GroupConversation) (m : GroupMutation) : Option GroupConversation :=
  match g.applyAuthoritativeGroupMutation m with
  | .ok g' => some g'
  | .error _ => some g

/-! ## What a successful call does -/

/-- The policy after a membership change that leaves somebody. -/
def pausedPolicy (g : GroupConversation) : ChannelPolicy :=
  if g.policy.mode = .e2ee then { g.policy with state := .rekeying } else g.policy

/-- The five things a successful call can do to the group. -/
inductive Effect (g : GroupConversation) (m : GroupMutation) : GroupConversation → Prop
  | renamed (haction : m.action = .rename) :
      Effect g m { g with name := m.name, stateVersion := g.stateVersion + 1 }
  | added (target : UserRef) (haction : m.action = .add)
      (hfull : g.participants.length < maxGroupDmParticipants) (hnew : ¬ g.IsMember target)
      (hschema : g.pausedPolicy.SchemaAllows) :
      Effect g m { g with
        participants := g.participants ++ [⟨target, m.now⟩]
        policy := g.pausedPolicy
        stateVersion := g.stateVersion + 1 }
  | closed (haction : m.action = .leave) (hlast : ∀ p ∈ g.participants, p.user = m.actor) :
      Effect g m { g with
        participants := []
        stateVersion := g.stateVersion + 1
        unavailable := true }
  | left (owner : UserRef) (haction : m.action = .leave)
      (hrest : ∃ p ∈ g.participants, p.user ≠ m.actor)
      (howner : owner = g.owner ∧ m.actor ≠ g.owner ∨
        ∃ p ∈ g.participants, p.user = owner ∧ p.user ≠ m.actor)
      (hschema : g.pausedPolicy.SchemaAllows) :
      Effect g m { g with
        participants := g.participants.filter fun p => p.user ≠ m.actor
        owner := owner
        policy := g.pausedPolicy
        stateVersion := g.stateVersion + 1 }
  | removed (target : UserRef) (haction : m.action = .remove) (hactor : m.actor = g.owner)
      (htarget : target ≠ g.owner) (hschema : g.pausedPolicy.SchemaAllows) :
      Effect g m { g with
        participants := g.participants.filter fun p => p.user ≠ target
        policy := g.pausedPolicy
        stateVersion := g.stateVersion + 1 }

theorem finishMutation_eq_ok {before g g' : GroupConversation} {m : GroupMutation}
    (h : finishMutation before g m = .ok g') (hpolicy : g.policy = before.policy) :
    g' = { g with
      policy := if m.action = .rename then g.policy else before.pausedPolicy
      stateVersion := g.stateVersion + 1 } ∧
    (m.action ≠ .rename → before.pausedPolicy.SchemaAllows) := by
  simp only [finishMutation, check_bind_eq_ok, ensure_eq_ok] at h
  obtain ⟨-, hschema, hg⟩ := h
  obtain rfl := Except.ok.inj hg
  by_cases hrename : m.action = .rename
  · simp [hrename]
  · simp only [hrename, ne_eq, not_false_eq_true, and_true, decide_eq_true_eq, if_false,
      pausedPolicy, hpolicy, true_and] at hschema ⊢
    exact fun _ => hschema

theorem mem_groupParticipants {g : GroupConversation} {p : DMParticipant} :
    p ∈ g.groupParticipants ↔ p ∈ g.participants :=
  List.mem_insertionSort _

/-- A removal that leaves nobody, or hands a removed owner's group on. -/
theorem removeParticipant_eq_ok {g g' : GroupConversation} {m : GroupMutation}
    {removed : UserRef} (hrename : m.action ≠ .rename)
    (h : removeParticipant g m removed = .ok g') :
    ((∀ p ∈ g.participants, p.user = removed) ∧
      g' = { g with
        participants := []
        stateVersion := g.stateVersion + 1
        unavailable := true }) ∨
    ∃ successor ∈ g.participants, successor.user ≠ removed ∧ g.pausedPolicy.SchemaAllows ∧
      g' = { g with
        participants := g.participants.filter fun p => p.user ≠ removed
        owner := if removed = g.owner then successor.user else g.owner
        policy := g.pausedPolicy
        stateVersion := g.stateVersion + 1 } := by
  obtain ⟨-, h⟩ := check_bind_eq_ok.mp h
  have hmem {p : DMParticipant} : p ∈ (g.without removed).groupParticipants ↔
      p ∈ g.participants ∧ p.user ≠ removed := by
    rw [mem_groupParticipants]
    simp [without]
  dsimp only at h
  split at h
  · rename_i hnil
    left
    have hall : ∀ p ∈ g.participants, p.user = removed := by
      intro p hp
      by_contra hne
      have := hmem.mpr ⟨hp, hne⟩
      rw [hnil] at this
      cases this
    obtain rfl := Except.ok.inj h
    refine ⟨hall, ?_⟩
    have hfilter : g.participants.filter (fun p => p.user ≠ removed) = [] := by
      simpa [List.filter_eq_nil_iff] using hall
    simp only [without, hfilter]
  · rename_i successor rest hcons
    right
    obtain ⟨hin, hne⟩ := hmem.mp (hcons ▸ List.mem_cons_self)
    obtain ⟨hg, hschema⟩ := finishMutation_eq_ok h rfl
    rw [if_neg hrename] at hg
    exact ⟨successor, hin, hne, hschema hrename, hg⟩

theorem effect_of_ok {g g' : GroupConversation} {m : GroupMutation}
    (h : g.applyAuthoritativeGroupMutation m = .ok g') : g.IsMember m.actor ∧ Effect g m g' := by
  obtain ⟨hmember, h⟩ := check_bind_eq_ok.mp h
  rw [ensure_eq_ok] at hmember
  refine ⟨hmember, ?_⟩
  cases haction : m.action with
  | rename =>
    simp only [haction] at h
    obtain ⟨rfl, -⟩ := finishMutation_eq_ok h rfl
    rw [if_pos haction]
    exact .renamed haction
  | add =>
    simp only [haction, addParticipant, found_bind_eq_ok, check_bind_eq_ok, ensure_eq_ok] at h
    obtain ⟨target, -, hfull, hnew, h⟩ := h
    obtain ⟨rfl, hschema⟩ := finishMutation_eq_ok h rfl
    have hrename : m.action ≠ .rename := by simp [haction]
    rw [if_neg hrename]
    exact .added target haction hfull hnew (hschema hrename)
  | leave =>
    simp only [haction] at h
    have hrename : m.action ≠ .rename := by simp [haction]
    rcases removeParticipant_eq_ok hrename h with ⟨hall, rfl⟩ | ⟨p, hp, hne, hschema, rfl⟩
    · exact .closed haction hall
    · refine .left _ haction ⟨p, hp, hne⟩ ?_ hschema
      by_cases howner : m.actor = g.owner
      · exact .inr ⟨p, hp, (if_pos howner).symm, hne⟩
      · exact .inl ⟨if_neg howner, howner⟩
  | remove =>
    simp only [haction] at h
    have hrename : m.action ≠ .rename := by simp [haction]
    simp only [found_bind_eq_ok, check_bind_eq_ok, ensure_eq_ok] at h
    obtain ⟨target, -, hactor, htarget, h⟩ := h
    rcases removeParticipant_eq_ok hrename h with ⟨hall, -⟩ | ⟨p, hp, hne, hschema, rfl⟩
    · -- The owner is still a participant and is not the one removed.
      obtain ⟨q, hq, hqu⟩ := List.mem_map.mp hmember
      exact (htarget (((hall q hq).symm.trans hqu).trans hactor)).elim
    · rw [if_neg htarget]
      exact .removed target haction hactor htarget hschema
  | unknown word =>
    simp only [haction] at h
    cases h

/-! ## The invariant -/

/-- What holds of a group between two calls. -/
structure WellFormed (g : GroupConversation) : Prop where
  owner : g.participants ≠ [] → g.IsMember g.owner
  size : g.participants.length ≤ maxGroupDmParticipants
  schema : g.policy.SchemaAllows
  columns : g.policy.ColumnsFit

theorem pausedPolicy_columns {g : GroupConversation} (hg : g.WellFormed) :
    g.pausedPolicy.ColumnsFit := by
  unfold pausedPolicy
  split
  · exact ⟨hg.columns.generation, hg.columns.epoch, hg.columns.groupId⟩
  · exact hg.columns

theorem isMember_filter {g : GroupConversation} {user removed : UserRef} :
    user ∈ (g.participants.filter fun p => p.user ≠ removed).map DMParticipant.user ↔
      g.IsMember user ∧ user ≠ removed := by
  simp only [IsMember, List.mem_map, List.mem_filter, decide_eq_true_eq]
  constructor
  · rintro ⟨p, ⟨hp, hne⟩, rfl⟩
    exact ⟨⟨p, hp, rfl⟩, hne⟩
  · rintro ⟨⟨p, hp, rfl⟩, hne⟩
    exact ⟨p, ⟨hp, hne⟩, rfl⟩

theorem WellFormed.effect {g g' : GroupConversation} {m : GroupMutation} (hg : g.WellFormed)
    (hmember : g.IsMember m.actor) (h : Effect g m g') : g'.WellFormed := by
  have hnonempty : g.participants ≠ [] := by
    obtain ⟨p, hp, -⟩ := List.mem_map.mp hmember
    exact List.ne_nil_of_mem hp
  cases h with
  | renamed => exact ⟨hg.owner, hg.size, hg.schema, hg.columns⟩
  | added target _ hfull _ hschema =>
    refine ⟨fun _ => ?_, ?_, hschema, pausedPolicy_columns hg⟩
    · have := hg.owner hnonempty
      simp only [IsMember, List.map_append, List.mem_append] at this ⊢
      exact .inl this
    · simp only [List.length_append, List.length_singleton]
      omega
  | closed => exact ⟨fun h => (h rfl).elim, Nat.zero_le _, hg.schema, hg.columns⟩
  | left owner _ _ howner hschema =>
    refine ⟨fun _ => isMember_filter.mpr ?_,
      (List.length_filter_le _ _).trans hg.size, hschema, pausedPolicy_columns hg⟩
    rcases howner with ⟨rfl, hne⟩ | ⟨p, hp, rfl, hne⟩
    · exact ⟨hg.owner hnonempty, Ne.symm hne⟩
    · exact ⟨List.mem_map_of_mem hp, hne⟩
  | removed target _ hactor htarget hschema =>
    refine ⟨fun _ => isMember_filter.mpr ⟨hg.owner hnonempty, Ne.symm htarget⟩,
      (List.length_filter_le _ _).trans hg.size, hschema, pausedPolicy_columns hg⟩

theorem WellFormed.step {g g' : GroupConversation} {m : GroupMutation} (hg : g.WellFormed)
    (h : g.step m = some g') : g'.WellFormed := by
  unfold GroupConversation.step at h
  split at h
  · rename_i hok
    obtain rfl := Option.some.inj h
    obtain ⟨hmember, heffect⟩ := effect_of_ok hok
    exact hg.effect hmember heffect
  · obtain rfl := Option.some.inj h
    exact hg

theorem wellFormed_run {g g' : GroupConversation} {ms : List GroupMutation} (hg : g.WellFormed)
    (hrun : Exec GroupConversation.step Always g ms g') : g'.WellFormed :=
  hrun.invariant (fun _ _ _ hg _ hstep => hg.step hstep) hg

theorem Effect.stateVersion_lt {g g' : GroupConversation} {m : GroupMutation}
    (h : Effect g m g') : g.stateVersion < g'.stateVersion := by
  cases h <;> exact Nat.lt_succ_self _

/-- Whoever a call takes out of the group has left or was removed by the
owner. -/
theorem Effect.out {g g' : GroupConversation} {m : GroupMutation} (h : Effect g m g')
    {user : UserRef} (hin : g.IsMember user) (hout : ¬ g'.IsMember user) :
    user = m.actor ∨ m.actor = g.owner := by
  cases h with
  | renamed => exact (hout hin).elim
  | added =>
    simp only [IsMember, List.map_append, List.mem_append] at hin hout
    exact (hout (.inl hin)).elim
  | closed _ hlast =>
    obtain ⟨p, hp, rfl⟩ := List.mem_map.mp hin
    exact .inl (hlast p hp)
  | left _ _ _ _ _ =>
    by_contra hne
    exact hout (isMember_filter.mpr ⟨hin, fun h => hne (.inl h)⟩)
  | removed _ _ hactor => exact .inr hactor

/-! ## The pause and the replicas -/

/-- A call that changes who is in a failed or activating encrypted group,
and leaves somebody in it, is the one its replicas refuse. -/
def PausesForReplicas (g : GroupConversation) (m : GroupMutation) : Prop :=
  ¬ (g.policy.mode = .e2ee ∧ g.policy.state ∈ [.activating, .failed] ∧ m.action ≠ .rename ∧
    (m.action = .leave → ∃ p ∈ g.participants, p.user ≠ m.actor))

/-- A replica's answer to the paused policy. -/
theorem paused_transition_iff {g : GroupConversation} (hg : g.WellFormed)
    (hschema : g.pausedPolicy.SchemaAllows) (label : String) :
    validateChannelEncryptionPolicyTransition g.policy g.pausedPolicy label = .ok () ↔
      ¬ (g.policy.mode = .e2ee ∧ g.policy.state ∈ [.activating, .failed]) := by
  have hvalid := hg.schema.valid hg.columns
  rw [transition_eq_ok hvalid]
  by_cases hmode : g.policy.mode = .e2ee
  swap
  · have hpaused : g.pausedPolicy = g.policy := if_neg hmode
    simp [hpaused, hmode]
  have hpaused : g.pausedPolicy = { g.policy with state := .rekeying } := if_pos hmode
  rw [hpaused] at hschema
  have hstates : g.policy.state ∈ [.activating, .active, .rekeying, .failed] := by
    rcases hg.schema with ⟨hzero, -⟩ | ⟨-, -, -, -, ⟨-, hplain, -⟩ | ⟨hs, -⟩⟩
    · -- A legacy group: its pause does not pass the table check.
      rcases hschema with ⟨-, ⟨h, -⟩ | ⟨h, -⟩, -⟩ | ⟨hpos, -⟩
      · cases h
      · cases h
      · exact absurd hzero (Nat.ne_of_gt hpos)
    · rw [hmode] at hplain
      cases hplain
    · exact hs
  have hsame : g.pausedPolicy = g.policy ↔ g.policy.state = .rekeying := by
    rw [hpaused]
    exact ⟨fun h => (congrArg ChannelPolicy.state h).symm, fun h => by rw [← h]⟩
  have hfields : g.pausedPolicy.mode = .e2ee ∧ g.pausedPolicy.state = .rekeying ∧
      g.pausedPolicy.generation = g.policy.generation ∧
      g.pausedPolicy.protocol = g.policy.protocol ∧ g.pausedPolicy.suite = g.policy.suite ∧
      g.pausedPolicy.groupId = g.policy.groupId := by
    rw [hpaused]
    exact ⟨hmode, rfl, rfl, rfl, rfl, rfl⟩
  obtain ⟨hm, hs, hgen, hproto, hsuite, hgid⟩ := hfields
  simp only [hm, hs, hgen, hproto, hsuite, hgid, hmode, le_refl, ne_eq, hsame, and_self, true_and,
    imp_self, and_true, forall_const]
  simp only [List.mem_cons, List.not_mem_nil, or_false] at hstates
  rcases hstates with h | h | h | h <;> rw [h] <;> decide

theorem Effect.policy_iff {g g' : GroupConversation} {m : GroupMutation} (h : Effect g m g')
    (hg : g.WellFormed) :
    (∀ label, validateChannelEncryptionPolicyTransition g.policy g'.policy label = .ok ()) ↔
      PausesForReplicas g m := by
  have hkept : ∀ label,
      validateChannelEncryptionPolicyTransition g.policy g.policy label = .ok () := by
    intro label
    rw [transition_eq_ok (hg.schema.valid hg.columns)]
    exact ⟨le_refl _, fun _ h => (h rfl).elim, id⟩
  have hpaused (hschema : g.pausedPolicy.SchemaAllows) (hrename : m.action ≠ .rename)
      (hrest : m.action = .leave → ∃ p ∈ g.participants, p.user ≠ m.actor) :
      (∀ label, validateChannelEncryptionPolicyTransition g.policy g.pausedPolicy label = .ok ()) ↔
        PausesForReplicas g m := by
    simp only [paused_transition_iff hg hschema, forall_const, PausesForReplicas]
    exact not_congr ⟨fun h => ⟨h.1, h.2, hrename, hrest⟩, fun h => ⟨h.1, h.2.1⟩⟩
  cases h with
  | renamed haction => exact iff_of_true hkept (fun h => h.2.2.1 haction)
  | added target haction _ _ hschema =>
    exact hpaused hschema (by rw [haction]; exact nofun) (fun h => by rw [haction] at h; cases h)
  | closed haction hlast =>
    refine iff_of_true hkept fun h => ?_
    obtain ⟨p, hp, hne⟩ := h.2.2.2 haction
    exact hne (hlast p hp)
  | left owner haction hrest _ hschema =>
    exact hpaused hschema (by rw [haction]; exact nofun) (fun _ => hrest)
  | removed target haction _ _ hschema =>
    exact hpaused hschema (by rw [haction]; exact nofun) (fun h => by rw [haction] at h; cases h)

/-- In every run of mutations of a well-formed group: its owner is a
participant as long as there is one, the group is never too large, a
raising call changes nothing, and a successful one finds somebody in the
group, moves the version on and takes out only the actor or, for the
owner, another. Its new policy is valid and acceptable to the replicas
exactly when `PausesForReplicas`. -/
theorem group_mutations_keep_authority {g₀ g : GroupConversation} {ms : List GroupMutation}
    (h₀ : g₀.WellFormed) (hrun : Exec GroupConversation.step Always g₀ ms g) :
    (g.participants ≠ [] → g.IsMember g.owner) ∧
    g.participants.length ≤ maxGroupDmParticipants ∧
    ∀ m, (∀ e, g.applyAuthoritativeGroupMutation m = .error e → g.step m = some g) ∧
      ∀ g', g.applyAuthoritativeGroupMutation m = .ok g' →
        g.participants ≠ [] ∧ g.stateVersion < g'.stateVersion ∧
        (∀ user, g.IsMember user → ¬ g'.IsMember user → user = m.actor ∨ m.actor = g.owner) ∧
        ((g'.policy.Valid ∧ ∀ label,
            validateChannelEncryptionPolicyTransition g.policy g'.policy label = .ok ()) ↔
          PausesForReplicas g m) := by
  have hg := wellFormed_run h₀ hrun
  refine ⟨hg.owner, hg.size, fun m => ⟨fun e he => ?_, fun g' hok => ?_⟩⟩
  · simp only [GroupConversation.step, he]
  · obtain ⟨hmember, heffect⟩ := effect_of_ok hok
    have hg' := hg.effect hmember heffect
    obtain ⟨p, hp, -⟩ := List.mem_map.mp hmember
    refine ⟨List.ne_nil_of_mem hp, heffect.stateVersion_lt, fun user hin hout =>
      heffect.out hin hout, ?_⟩
    rw [and_iff_right (hg'.schema.valid hg'.columns)]
    exact heffect.policy_iff hg

/-- A group of users 1, its owner, and 2, encrypted and in the given state. -/
def sampleGroup (state : EncryptionState) : GroupConversation where
  owner := ⟨1, "a"⟩
  stateVersion := 4
  name := none
  participants := [⟨⟨1, "a"⟩, 100⟩, ⟨⟨2, "b"⟩, 101⟩]
  policy := samplePolicy state
  unavailable := false

def sampleMutation (actor : UserRef) (action : GroupAction) (target : Option UserRef) :
    GroupMutation where
  actor := actor
  action := action
  target := target
  name := none
  now := 200
  mediaRotated := true

theorem sampleGroup_wellFormed {state : EncryptionState}
    (hstate : state ∈ [.activating, .active, .rekeying, .failed]) :
    (sampleGroup state).WellFormed := by
  have htwo : (2 : Nat) ≤ maxGroupDmParticipants := by decide
  refine ⟨fun _ => List.mem_cons_self, htwo, ?_, ?_, ?_, ?_⟩
  · exact .inr ⟨Nat.zero_lt_succ 2, rfl, rfl, nofun, .inr ⟨hstate, rfl, nofun⟩⟩
  · show 3 ≤ 9223372036854775807
    decide
  · rintro n ⟨⟩
    decide
  · rintro id ⟨⟩
    decide

/-- The owner of the active group leaves: user 2 owns it now, and the
replicas take the pause. -/
theorem group_mutations_keep_authority_sample :
    let m := sampleMutation ⟨1, "a"⟩ .leave none
    let left : GroupConversation :=
      { sampleGroup .rekeying with
        owner := ⟨2, "b"⟩, stateVersion := 5, participants := [⟨⟨2, "b"⟩, 101⟩] }
    (sampleGroup .active).applyAuthoritativeGroupMutation m = .ok left ∧ left.policy.Valid ∧
      validateChannelEncryptionPolicyTransition (samplePolicy .active) left.policy "group DM" =
        .ok () := by
  intro m left
  have hok : (sampleGroup .active).applyAuthoritativeGroupMutation m = .ok left := by decide
  have hgroup : (sampleGroup .active).WellFormed := sampleGroup_wellFormed (by decide)
  have h := (group_mutations_keep_authority hgroup (.nil _)).2.2 m
  have hpauses : PausesForReplicas (sampleGroup .active) m :=
    fun h => absurd h.2.1 (by decide)
  have hpolicy := (h.2 left hok).2.2.2.mpr hpauses
  exact ⟨hok, hpolicy.1, hpolicy.2 "group DM"⟩

/-- Adding user 3 to a group whose encryption failed: the new policy is
refused by a replica that stores the old one. -/
theorem failed_group_pause_refused :
    let m := sampleMutation ⟨1, "a"⟩ .add (some ⟨3, "b"⟩)
    let added : GroupConversation :=
      { sampleGroup .rekeying with
        stateVersion := 5
        participants := (sampleGroup .failed).participants ++ [⟨⟨3, "b"⟩, 200⟩] }
    (sampleGroup .failed).WellFormed ∧
    (sampleGroup .failed).applyAuthoritativeGroupMutation m = .ok added ∧
    validateChannelEncryptionPolicyTransition (samplePolicy .failed) added.policy "group DM" =
      .error "group DM encryption policy generation was equivocated" := by
  intro m added
  exact ⟨sampleGroup_wellFormed (by decide), by decide, by decide⟩

end GroupConversation

end Kaede
