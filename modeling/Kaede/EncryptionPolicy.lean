import Mathlib.Data.List.Chain
import Mathlib.Logic.Relation
import Mathlib.Tactic.IntervalCases
import Kaede.Requests
import Kaede.RoomOperation

/-!
# Room encryption policies on the wire

`validate_channel_encryption_policy` parses the policy a room authority
sends with its events, `validate_channel_encryption_policy_transition`
compares it with the stored one, and
`classify_channel_encryption_policy_update` does so for durable
projections, which may arrive late or twice (`backend/app/chat/e2ee.py`).
Every handler stores an accepted policy column by column.

`PolicyProgress` says how far apart two stored policies of one replica
may be. It is a preorder, so what one update keeps, any sequence of
updates keeps.
-/

namespace Kaede

def e2eeProtocolMls10 : String := "mls10"

def e2eeSuiteMls128 : String := "MLS_128_DHKEMX25519_AES128GCM_SHA256_Ed25519"

def EncryptionMode.name : EncryptionMode → String
  | .plaintext => "plaintext"
  | .e2ee => "e2ee"

def EncryptionState.name : EncryptionState → String
  | .plaintext => "plaintext"
  | .legacy => "legacy"
  | .proposed => "proposed"
  | .activating => "activating"
  | .active => "active"
  | .rekeying => "rekeying"
  | .failed => "failed"

/-- `E2EE_ROOM_STATES`. -/
def e2eeRoomStates : List EncryptionState :=
  [.plaintext, .legacy, .proposed, .activating, .active, .rekeying, .failed]

/-- A decoded JSON value, as far as the policy parser tells values apart. -/
inductive WireValue where
  | null
  | bool (b : Bool)
  | int (n : Int)
  | str (s : String)
  | other
deriving DecidableEq, Repr

/-- The keys of a policy object; an absent key is `none`. -/
structure PolicyPayload where
  mode : Option WireValue
  state : Option WireValue
  generation : Option WireValue
  protocol : Option WireValue
  suite : Option WireValue
  groupId : Option WireValue
  epoch : Option WireValue
deriving DecidableEq, Repr

/-- A validated policy, and the encryption columns of a channel. -/
structure ChannelPolicy where
  mode : EncryptionMode
  state : EncryptionState
  generation : Nat
  protocol : Option String
  suite : Option String
  groupId : Option String
  epoch : Option Nat
deriving DecidableEq, Repr

/-! ## The parser -/

def decimalDigits (s : String) : Prop :=
  s.toList ≠ [] ∧ (∀ c ∈ s.toList, c.isDigit) ∧ (s.toList.length = 1 ∨ s.toList.head? ≠ some '0')

-- `Char` is a finite type, and a search through all of it is an instance too
instance (s : String) : Decidable (decimalDigits s) :=
  letI : Decidable (∀ c ∈ s.toList, c.isDigit) := List.decidableBAll _ _
  inferInstanceAs (Decidable (_ ∧ _ ∧ _))

def databaseRange (parsed : Int) (label : String) : Except String Nat := do
  ensure (0 ≤ parsed ∧ parsed ≤ 9223372036854775807) (label ++ " is outside the database range")
  .ok parsed.toNat

/-- `_nonnegative_wire_integer`. -/
def nonnegativeWireInteger (value : WireValue) (label : String) : Except String Nat :=
  match value with
  | .int n => databaseRange n label
  | .str s => do
      ensure (decimalDigits s) (label ++ " must be a non-negative decimal integer")
      databaseRange (Nat.ofDigitChars 10 s.toList 0) label
  | _ => .error (label ++ " must be a non-negative decimal integer")

def wireMode (value : WireValue) : Option EncryptionMode :=
  [EncryptionMode.plaintext, .e2ee].find? fun mode => value = .str mode.name

def wireState (value : WireValue) : Option EncryptionState :=
  e2eeRoomStates.find? fun state => value = .str state.name

def wireIdentifier (value : WireValue) (maximum : Nat) : Except String (Option String) :=
  match value with
  | .null => .ok none
  | .str s => do
      ensure (1 ≤ s.length ∧ s.length ≤ maximum) "channel encryption policy identifier is invalid"
      .ok (some s)
  | _ => .error "channel encryption policy identifier is invalid"

def wireEpoch (value : WireValue) : Except String (Option Nat) :=
  match value with
  | .null => .ok none
  | value => do
      let epoch ← nonnegativeWireInteger value "encryption epoch"
      .ok (some epoch)

/-- The field comparisons at the end of the validation. -/
def checkPolicyFields (p : ChannelPolicy) : Except String Unit :=
  if p.generation = 0 then do
    ensure (p.state = .plaintext ∨ p.state = .legacy)
      "an activated encryption policy requires a positive generation"
    ensure (p.mode = (if p.state = .legacy then .e2ee else .plaintext) ∧ p.protocol = none ∧
      p.suite = none ∧ p.groupId = none ∧ p.epoch = none)
      "legacy channel encryption policy is inconsistent"
  else do
    ensure (¬ (p.state = .plaintext ∨ p.state = .legacy))
      "a generated encryption policy has an invalid state"
    (if (p.state = .proposed ∨ p.state = .failed) ∧ p.mode = .plaintext then
      ensure (p.epoch = none) "proposed channel encryption policy is inconsistent"
    else
      ensure (p.mode = .e2ee ∧ p.epoch ≠ none) "active channel encryption policy is inconsistent")
    ensure (p.protocol = some e2eeProtocolMls10 ∧ p.suite = some e2eeSuiteMls128 ∧
      p.groupId ≠ none) "channel encryption protocol is unsupported"

/-- `validate_channel_encryption_policy`; no payload stands for a value
that is not an object. -/
def validateChannelEncryptionPolicy (value : Option PolicyPayload) :
    Except String ChannelPolicy := do
  let value ← found value "channel encryption policy must be an object"
  let mode ← found (wireMode (value.mode.getD (.str "plaintext")))
    "channel encryption policy mode or state is invalid"
  let state ← found (wireState (value.state.getD (.str "plaintext")))
    "channel encryption policy mode or state is invalid"
  let generation ← nonnegativeWireInteger (value.generation.getD (.str "0")) "policy generation"
  let epoch ← wireEpoch (value.epoch.getD .null)
  let protocol ← wireIdentifier (value.protocol.getD .null) 32
  let suite ← wireIdentifier (value.suite.getD .null) 96
  let groupId ← wireIdentifier (value.groupId.getD .null) 128
  let policy : ChannelPolicy := { mode, state, generation, protocol, suite, groupId, epoch }
  checkPolicyFields policy
  .ok policy

def wireText : Option String → WireValue
  | none => .null
  | some s => .str s

/-- `channel_encryption_policy_payload` of the stored columns. -/
def channelEncryptionPolicyPayload (channel : ChannelPolicy) : PolicyPayload where
  mode := some (.str channel.mode.name)
  state := some (.str channel.state.name)
  generation := some (.str (toString channel.generation))
  protocol := some (wireText channel.protocol)
  suite := some (wireText channel.suite)
  groupId := some (wireText channel.groupId)
  epoch := some (wireText (channel.epoch.map toString))

/-! ## The transition check -/

/-- `allowed_same_generation`. -/
def allowedSameGeneration : List (EncryptionState × EncryptionState) :=
  [(.proposed, .activating), (.proposed, .active), (.proposed, .failed),
    (.activating, .active), (.activating, .failed), (.active, .rekeying)]

/-- `validate_channel_encryption_policy_transition`. -/
def validateChannelEncryptionPolicyTransition (channel incoming : ChannelPolicy)
    (label : String) : Except String Unit := do
  let current ← validateChannelEncryptionPolicy (some (channelEncryptionPolicyPayload channel))
  ensure (¬ incoming.generation < current.generation)
    (label ++ " encryption policy generation regressed")
  (if incoming.generation = current.generation ∧ incoming ≠ current then do
    ensure (incoming.protocol = current.protocol ∧ incoming.suite = current.suite ∧
      incoming.groupId = current.groupId) (label ++ " encryption policy generation was equivocated")
    ensure ((current.state, incoming.state) ∈ allowedSameGeneration)
      (label ++ " encryption policy generation was equivocated")
  else .ok ())
  ensure (¬ (current.mode = .e2ee ∧ incoming.mode ≠ .e2ee))
    (label ++ " encryption policy attempted a downgrade")

inductive PolicyUpdateState where
  | stale
  | current
  | apply
deriving DecidableEq, Repr

/-- `classify_channel_encryption_policy_update`. -/
def classifyChannelEncryptionPolicyUpdate (channel incoming : ChannelPolicy) (label : String) :
    Except String PolicyUpdateState := do
  let current ← validateChannelEncryptionPolicy (some (channelEncryptionPolicyPayload channel))
  (if incoming.generation < current.generation then .ok .stale
  else if incoming.generation = current.generation ∧ incoming = current then .ok .current
  else do
    validateChannelEncryptionPolicyTransition channel incoming label
    .ok .apply)

/-! ## Rendering and parsing -/

theorem head?_toDigits_ne_zero {n : Nat} (hn : 0 < n) : (Nat.toDigits 10 n).head? ≠ some '0' := by
  induction n using Nat.strong_induction_on with
  | _ n ih =>
    by_cases hlt : n < 10
    · rw [Nat.toDigits_of_lt_base hlt]
      interval_cases n <;> decide
    · have hle : 10 ≤ n := Nat.le_of_not_lt hlt
      rw [Nat.toDigits_of_base_le (by omega) hle, List.head?_append_of_ne_nil _ Nat.toDigits_ne_nil]
      exact ih (n / 10) (by omega) (by omega)

theorem decimalDigits_toString (n : Nat) : decimalDigits (toString n) := by
  simp only [decimalDigits, Nat.toString_eq_repr, Nat.toList_repr]
  refine ⟨Nat.toDigits_ne_nil, fun c hc => ?_, ?_⟩
  · exact Nat.isDigit_of_mem_toDigits (by omega) (by omega) hc
  · rcases Nat.eq_zero_or_pos n with rfl | hn
    · exact .inl rfl
    · exact .inr (head?_toDigits_ne_zero hn)

theorem databaseRange_eq_ok {parsed : Int} {label : String} {n : Nat} :
    databaseRange parsed label = .ok n ↔ parsed = n ∧ n ≤ 9223372036854775807 := by
  simp only [databaseRange, check_bind_eq_ok, ensure_eq_ok, Except.ok.injEq]
  omega

theorem nonnegativeWireInteger_le {value : WireValue} {label : String} {n : Nat}
    (h : nonnegativeWireInteger value label = .ok n) : n ≤ 9223372036854775807 := by
  unfold nonnegativeWireInteger at h
  split at h
  · exact (databaseRange_eq_ok.mp h).2
  · rw [check_bind_eq_ok] at h
    exact (databaseRange_eq_ok.mp h.2).2
  · cases h

theorem nonnegativeWireInteger_toString {n : Nat} (hn : n ≤ 9223372036854775807) (label : String) :
    nonnegativeWireInteger (.str (toString n)) label = .ok n := by
  simp only [nonnegativeWireInteger, check_bind_eq_ok, ensure_eq_ok]
  refine ⟨decimalDigits_toString n, databaseRange_eq_ok.mpr ⟨?_, hn⟩⟩
  rw [Nat.toString_eq_repr, Nat.toList_repr, Nat.ofDigitChars_ten_toDigits]

theorem wireIdentifier_eq_ok {value : WireValue} {maximum : Nat} {field : Option String}
    (h : wireIdentifier value maximum = .ok field) : value = wireText field ∧
      ∀ s ∈ field, 1 ≤ s.length ∧ s.length ≤ maximum := by
  unfold wireIdentifier at h
  split at h
  · obtain rfl := Except.ok.inj h
    exact ⟨rfl, by simp⟩
  · rw [check_bind_eq_ok, ensure_eq_ok] at h
    obtain ⟨hlength, hfield⟩ := h
    obtain rfl := Except.ok.inj hfield
    exact ⟨rfl, by simpa using hlength⟩
  · cases h

theorem wireEpoch_le {value : WireValue} {epoch : Option Nat} (h : wireEpoch value = .ok epoch) :
    ∀ n ∈ epoch, n ≤ 9223372036854775807 := by
  unfold wireEpoch at h
  split at h
  · obtain rfl := Except.ok.inj h
    simp
  · obtain ⟨n, hn, hepoch⟩ := bind_eq_ok.mp h
    obtain rfl := Except.ok.inj hepoch
    rintro m ⟨⟩
    exact nonnegativeWireInteger_le hn

theorem wireEpoch_wireText {epoch : Option Nat} (h : ∀ n ∈ epoch, n ≤ 9223372036854775807) :
    wireEpoch (wireText (epoch.map toString)) = .ok epoch := by
  cases epoch with
  | none => rfl
  | some n =>
    show (nonnegativeWireInteger (.str (toString n)) "encryption epoch" >>= _) = _
    rw [nonnegativeWireInteger_toString (h n rfl)]
    rfl

/-- A policy that the parser returns for what the room sends out. -/
def ChannelPolicy.Valid (p : ChannelPolicy) : Prop :=
  validateChannelEncryptionPolicy (some (channelEncryptionPolicyPayload p)) = .ok p

instance (p : ChannelPolicy) : Decidable p.Valid := inferInstanceAs (Decidable (_ = _))

/-- What a successful parse found in each field. -/
structure ChannelPolicy.FieldsOk (p : ChannelPolicy) : Prop where
  generation : p.generation ≤ 9223372036854775807
  epoch : ∀ n ∈ p.epoch, n ≤ 9223372036854775807
  protocol : wireIdentifier (wireText p.protocol) 32 = .ok p.protocol
  suite : wireIdentifier (wireText p.suite) 96 = .ok p.suite
  groupId : wireIdentifier (wireText p.groupId) 128 = .ok p.groupId
  consistent : checkPolicyFields p = .ok ()

theorem validate_fields {value : Option PolicyPayload} {p : ChannelPolicy}
    (h : validateChannelEncryptionPolicy value = .ok p) : p.FieldsOk := by
  simp only [validateChannelEncryptionPolicy, found_bind_eq_ok] at h
  obtain ⟨value, -, mode, -, state, -, h⟩ := h
  obtain ⟨generation, hgeneration, h⟩ := bind_eq_ok.mp h
  obtain ⟨epoch, hepoch, h⟩ := bind_eq_ok.mp h
  obtain ⟨protocol, hprotocol, h⟩ := bind_eq_ok.mp h
  obtain ⟨suite, hsuite, h⟩ := bind_eq_ok.mp h
  obtain ⟨groupId, hgroupId, h⟩ := bind_eq_ok.mp h
  obtain ⟨hcheck, hp⟩ := check_bind_eq_ok.mp h
  obtain rfl := Except.ok.inj hp
  refine ⟨nonnegativeWireInteger_le hgeneration, wireEpoch_le hepoch, ?_, ?_, ?_, hcheck⟩
  · rw [← (wireIdentifier_eq_ok hprotocol).1]
    exact hprotocol
  · rw [← (wireIdentifier_eq_ok hsuite).1]
    exact hsuite
  · rw [← (wireIdentifier_eq_ok hgroupId).1]
    exact hgroupId

theorem wireMode_name (mode : EncryptionMode) : wireMode (.str mode.name) = some mode := by
  cases mode <;> rfl

theorem wireState_name (state : EncryptionState) : wireState (.str state.name) = some state := by
  cases state <;> rfl

theorem ChannelPolicy.FieldsOk.valid {p : ChannelPolicy} (h : p.FieldsOk) : p.Valid := by
  simp only [ChannelPolicy.Valid, validateChannelEncryptionPolicy, found_bind_eq_ok]
  refine ⟨_, rfl, p.mode, wireMode_name p.mode, p.state, wireState_name p.state, ?_⟩
  simp only [channelEncryptionPolicyPayload, Option.getD_some,
    nonnegativeWireInteger_toString h.generation, wireEpoch_wireText h.epoch, h.protocol, h.suite,
    h.groupId, ok_bind, h.consistent]

/-- The round trip: what the parser accepts is what it reads back from the
stored columns. -/
theorem valid_of_validate {value : Option PolicyPayload} {p : ChannelPolicy}
    (h : validateChannelEncryptionPolicy value = .ok p) : p.Valid :=
  (validate_fields h).valid

/-! ## Moving forward -/

/-- The state changes a generation allows. -/
def Forward (s t : EncryptionState) : Prop := (s, t) ∈ allowedSameGeneration

instance (s t : EncryptionState) : Decidable (Forward s t) :=
  inferInstanceAs (Decidable (_ ∈ _))

/-- How far a generation has come. -/
def EncryptionState.rank : EncryptionState → Nat
  | .activating => 1
  | .active => 2
  | .failed => 2
  | .rekeying => 3
  | _ => 0

theorem Forward.rank_lt {s t : EncryptionState} (h : Forward s t) : s.rank < t.rank := by
  revert h
  cases s <;> cases t <;> decide

theorem forward_acyclic (s : EncryptionState) : ¬ Relation.TransGen Forward s s := by
  intro h
  have hlt : Relation.TransGen (· < ·) s.rank s.rank :=
    h.lift EncryptionState.rank fun _ _ => Forward.rank_lt
  rw [Relation.transGen_eq_self] at hlt
  exact lt_irrefl _ hlt

theorem transition_eq_ok {channel incoming : ChannelPolicy} {label : String}
    (hvalid : channel.Valid) :
    validateChannelEncryptionPolicyTransition channel incoming label = .ok () ↔
      channel.generation ≤ incoming.generation ∧
      (incoming.generation = channel.generation → incoming ≠ channel →
        (incoming.protocol = channel.protocol ∧ incoming.suite = channel.suite ∧
          incoming.groupId = channel.groupId) ∧ Forward channel.state incoming.state) ∧
      (channel.mode = .e2ee → incoming.mode = .e2ee) := by
  have hcurrent : validateChannelEncryptionPolicy
      (some (channelEncryptionPolicyPayload channel)) = .ok channel := hvalid
  simp only [validateChannelEncryptionPolicyTransition, hcurrent, ok_bind, check_bind_eq_ok,
    ensure_eq_ok, not_lt, not_and_or, not_not]
  refine and_congr_right fun _ => and_congr ?_ ?_
  · by_cases hsame : incoming.generation = channel.generation ∧ incoming ≠ channel
    · rw [if_pos hsame, check_bind_eq_ok, ensure_eq_ok, ensure_eq_ok]
      exact ⟨fun h _ _ => h, fun h => h hsame.1 hsame.2⟩
    · rw [if_neg hsame]
      exact ⟨fun _ h₁ h₂ => (hsame ⟨h₁, h₂⟩).elim, fun _ => rfl⟩
  · cases channel.mode <;> simp

/-- How a stored policy may differ from an earlier one. -/
structure PolicyProgress (p q : ChannelPolicy) : Prop where
  generation : p.generation ≤ q.generation
  mode : p.mode = .e2ee → q.mode = .e2ee
  fixed : p.generation = q.generation →
    q.protocol = p.protocol ∧ q.suite = p.suite ∧ q.groupId = p.groupId
  state : p.generation = q.generation → Relation.ReflTransGen Forward p.state q.state

theorem PolicyProgress.refl (p : ChannelPolicy) : PolicyProgress p p :=
  ⟨le_refl _, id, fun _ => ⟨rfl, rfl, rfl⟩, fun _ => .refl⟩

theorem PolicyProgress.trans {p q r : ChannelPolicy} (h₁ : PolicyProgress p q)
    (h₂ : PolicyProgress q r) : PolicyProgress p r := by
  -- A generation left behind in the middle cannot come back at the end.
  have hmiddle (h : p.generation = r.generation) :
      p.generation = q.generation ∧ q.generation = r.generation := by
    have := h₁.generation
    have := h₂.generation
    omega
  refine ⟨h₁.generation.trans h₂.generation, fun h => h₂.mode (h₁.mode h), fun h => ?_, fun h => ?_⟩
  · obtain ⟨hpq, hqr⟩ := hmiddle h
    obtain ⟨a, b, c⟩ := h₁.fixed hpq
    obtain ⟨a', b', c'⟩ := h₂.fixed hqr
    exact ⟨a'.trans a, b'.trans b, c'.trans c⟩
  · obtain ⟨hpq, hqr⟩ := hmiddle h
    exact (h₁.state hpq).trans (h₂.state hqr)

theorem policyProgress_of_transition {channel incoming : ChannelPolicy} {label : String}
    (hvalid : channel.Valid)
    (h : validateChannelEncryptionPolicyTransition channel incoming label = .ok ()) :
    PolicyProgress channel incoming := by
  obtain ⟨hgeneration, hsame, hmode⟩ := (transition_eq_ok hvalid).mp h
  by_cases heq : incoming = channel
  · rw [heq]
    exact .refl channel
  · refine ⟨hgeneration, hmode, fun hg => (hsame hg.symm heq).1, fun hg => ?_⟩
    exact .single (hsame hg.symm heq).2

/-! ## A replica and what it receives -/

/-- A received policy and the check its handler makes: durable policy
events are classified, all other handlers ask for a transition. -/
structure PolicyUpdate where
  value : Option PolicyPayload
  label : String
  durable : Bool

/-- The check before the columns are written: the policy to store, if any. -/
def admitPolicy (channel : ChannelPolicy) (u : PolicyUpdate) :
    Except String (Option ChannelPolicy) := do
  let incoming ← validateChannelEncryptionPolicy u.value
  (if u.durable then do
    let verdict ← classifyChannelEncryptionPolicyUpdate channel incoming u.label
    .ok (if verdict = .apply then some incoming else none)
  else do
    validateChannelEncryptionPolicyTransition channel incoming u.label
    .ok (some incoming))

/-- A handler that raises leaves the stored columns alone. -/
def receivePolicy (channel : ChannelPolicy) (u : PolicyUpdate) : Option ChannelPolicy :=
  match admitPolicy channel u with
  | .ok (some incoming) => some incoming
  | _ => some channel

theorem admitPolicy_some {channel incoming : ChannelPolicy} {u : PolicyUpdate}
    (h : admitPolicy channel u = .ok (some incoming)) : incoming.Valid ∧
      validateChannelEncryptionPolicyTransition channel incoming u.label = .ok () := by
  obtain ⟨policy, hpolicy, h⟩ := bind_eq_ok.mp h
  by_cases hdurable : u.durable = true
  · rw [if_pos hdurable] at h
    obtain ⟨verdict, hverdict, h⟩ := bind_eq_ok.mp h
    have hincoming := Except.ok.inj h
    split at hincoming
    · rename_i happly
      subst happly
      obtain rfl := Option.some.inj hincoming
      refine ⟨valid_of_validate hpolicy, ?_⟩
      obtain ⟨current, -, h⟩ := bind_eq_ok.mp hverdict
      split at h
      · cases h
      · split at h
        · cases h
        · exact (check_bind_eq_ok.mp h).1
    · cases hincoming
  · rw [if_neg hdurable] at h
    obtain ⟨htransition, h⟩ := check_bind_eq_ok.mp h
    obtain rfl := Option.some.inj (Except.ok.inj h)
    exact ⟨valid_of_validate hpolicy, htransition⟩

theorem receivePolicy_step {channel stored : ChannelPolicy} {u : PolicyUpdate}
    (hvalid : channel.Valid) (h : receivePolicy channel u = some stored) :
    stored.Valid ∧ PolicyProgress channel stored := by
  unfold receivePolicy at h
  split at h
  · rename_i incoming hadmit
    obtain rfl := Option.some.inj h
    obtain ⟨hincoming, htransition⟩ := admitPolicy_some hadmit
    exact ⟨hincoming, policyProgress_of_transition hvalid htransition⟩
  · obtain rfl := Option.some.inj h
    exact ⟨hvalid, .refl _⟩

/-- Whatever policies arrive, in whatever order, the stored policy stays
valid and only makes progress, and no chain of state changes inside a
generation returns to its start. -/
theorem stored_policy_only_progresses {s s' : ChannelPolicy} {us : List PolicyUpdate}
    (hvalid : s.Valid) (hrun : Exec receivePolicy Always s us s') :
    s'.Valid ∧ PolicyProgress s s' ∧ ∀ state, ¬ Relation.TransGen Forward state state := by
  have h : s'.Valid ∧ PolicyProgress s s' := by
    refine hrun.invariant (I := fun t => t.Valid ∧ PolicyProgress s t) ?_ ⟨hvalid, .refl s⟩
    rintro t u t' ⟨ht, hprogress⟩ - hstep
    obtain ⟨ht', hstep⟩ := receivePolicy_step ht hstep
    exact ⟨ht', hprogress.trans hstep⟩
  exact ⟨h.1, h.2, forward_acyclic⟩

/-- A room that has never been encrypted. -/
def plaintextPolicy : ChannelPolicy where
  mode := .plaintext
  state := .plaintext
  generation := 0
  protocol := none
  suite := none
  groupId := none
  epoch := none

/-- The policy of an encrypted room in the given state. -/
def samplePolicy (state : EncryptionState) : ChannelPolicy where
  mode := .e2ee
  state := state
  generation := 3
  protocol := some e2eeProtocolMls10
  suite := some e2eeSuiteMls128
  groupId := some "group-opaque-id"
  epoch := some 9

/-- A room is activated, the event arrives a second time and then an old
plaintext policy: the last two change nothing. -/
theorem stored_policy_only_progresses_sample :
    let update (p : ChannelPolicy) : PolicyUpdate :=
      { value := some (channelEncryptionPolicyPayload p), label := "E2EE room", durable := true }
    Exec receivePolicy Always plaintextPolicy
      [update (samplePolicy .active), update (samplePolicy .active), update plaintextPolicy]
      (samplePolicy .active) ∧
    PolicyProgress plaintextPolicy (samplePolicy .active) := by
  have hrun : Exec receivePolicy Always plaintextPolicy
      ([samplePolicy .active, samplePolicy .active, plaintextPolicy].map fun p =>
        { value := some (channelEncryptionPolicyPayload p), label := "E2EE room", durable := true })
      (samplePolicy .active) := Exec.of_runFrom (by decide)
  exact ⟨hrun, (stored_policy_only_progresses (by decide) hrun).2.1⟩

/-! ## A delayed event of the authority -/

/-- The policies a room's authority stored one after the other. -/
structure PolicyHistory where
  policies : List ChannelPolicy
  valid : ∀ p ∈ policies, p.Valid
  admitted : policies.IsChain fun p q =>
    ∃ label, validateChannelEncryptionPolicyTransition p q label = .ok ()

/-- A history moves on by generation, and inside a generation by state. -/
def ChannelPolicy.Before (p q : ChannelPolicy) : Prop :=
  p = q ∨ p.generation < q.generation ∨
    p.generation = q.generation ∧ p.state.rank < q.state.rank

theorem ChannelPolicy.Before.trans {p q r : ChannelPolicy} (h₁ : p.Before q) (h₂ : q.Before r) :
    p.Before r := by
  rcases h₁ with rfl | h₁
  · exact h₂
  · rcases h₂ with rfl | h₂
    · exact .inr h₁
    · refine .inr ?_
      omega

instance : IsTrans ChannelPolicy ChannelPolicy.Before := ⟨fun _ _ _ => .trans⟩

theorem before_of_transition {p q : ChannelPolicy} {label : String} (hvalid : p.Valid)
    (h : validateChannelEncryptionPolicyTransition p q label = .ok ()) : p.Before q := by
  obtain ⟨hgeneration, hsame, -⟩ := (transition_eq_ok hvalid).mp h
  by_cases heq : q = p
  · exact .inl heq.symm
  · rcases hgeneration.lt_or_eq with hlt | hg
    · exact .inr (.inl hlt)
    · exact .inr (.inr ⟨hg, (hsame hg.symm heq).2.rank_lt⟩)

theorem PolicyHistory.before (history : PolicyHistory) {i j : Nat} (hij : i ≤ j)
    {p q : ChannelPolicy} (hp : history.policies[i]? = some p)
    (hq : history.policies[j]? = some q) : p.Before q := by
  have hchain : history.policies.IsChain ChannelPolicy.Before := by
    refine history.admitted.imp_of_mem_imp fun p q hp _ hpq => ?_
    obtain ⟨label, hpq⟩ := hpq
    exact before_of_transition (history.valid p hp) hpq
  obtain ⟨hi, rfl⟩ := List.getElem?_eq_some_iff.mp hp
  obtain ⟨hj, rfl⟩ := List.getElem?_eq_some_iff.mp hq
  rcases hij.lt_or_eq with hlt | rfl
  · exact List.pairwise_iff_getElem.mp hchain.pairwise i j hi hj hlt
  · exact .inl rfl

theorem classify_eq_ok {channel incoming : ChannelPolicy} {label : String}
    {verdict : PolicyUpdateState} (hvalid : channel.Valid) :
    classifyChannelEncryptionPolicyUpdate channel incoming label = .ok verdict ↔
      incoming.generation < channel.generation ∧ verdict = .stale ∨
      incoming = channel ∧ verdict = .current ∨
      ¬ incoming.generation < channel.generation ∧ incoming ≠ channel ∧
        validateChannelEncryptionPolicyTransition channel incoming label = .ok () ∧
        verdict = .apply := by
  have hcurrent : validateChannelEncryptionPolicy
      (some (channelEncryptionPolicyPayload channel)) = .ok channel := hvalid
  simp only [classifyChannelEncryptionPolicyUpdate, hcurrent, ok_bind]
  by_cases hlt : incoming.generation < channel.generation
  · have hne : incoming ≠ channel := by
      rintro rfl
      exact lt_irrefl _ hlt
    simp [hlt, hne, eq_comm]
  · by_cases heq : incoming = channel
    · subst heq
      simp [eq_comm]
    · rw [if_neg hlt, if_neg fun h => heq h.2, check_bind_eq_ok, Except.ok.injEq]
      simp [hlt, heq, eq_comm]

/-- A replica that stores a later policy of a history takes an earlier one
as old exactly when that one is of an older generation or the same policy;
it refuses every other earlier state of the stored generation. -/
theorem delayed_policy_classified (history : PolicyHistory) {i j : Nat} (hij : i ≤ j)
    {earlier stored : ChannelPolicy} (hearlier : history.policies[i]? = some earlier)
    (hstored : history.policies[j]? = some stored) (label : String) :
    ((classifyChannelEncryptionPolicyUpdate stored earlier label = .ok .stale ∨
      classifyChannelEncryptionPolicyUpdate stored earlier label = .ok .current) ↔
      earlier.generation < stored.generation ∨ earlier = stored) ∧
    (¬ (earlier.generation < stored.generation ∨ earlier = stored) →
      ∃ message, classifyChannelEncryptionPolicyUpdate stored earlier label = .error message) := by
  have hvalid : stored.Valid := history.valid stored (List.mem_of_getElem? hstored)
  refine ⟨?_, fun hsame => ?_⟩
  · rw [classify_eq_ok hvalid, classify_eq_ok hvalid]
    simp
  · obtain ⟨hlt, hne⟩ := not_or.mp hsame
    cases hverdict : classifyChannelEncryptionPolicyUpdate stored earlier label with
    | error message => exact ⟨message, rfl⟩
    | ok verdict =>
      obtain ⟨h, -⟩ | ⟨h, -⟩ | ⟨-, -, htransition, -⟩ := (classify_eq_ok hvalid).mp hverdict
      · exact absurd h hlt
      · exact absurd h hne
      -- the history went from the earlier to the stored state, so no check goes back
      · have hback := before_of_transition hvalid htransition
        have hforth := history.before hij hearlier hstored
        unfold ChannelPolicy.Before at hback hforth
        rcases hforth with heq | hforth
        · exact absurd heq hne
        · rcases hback with heq | hback
          · exact absurd heq.symm hne
          · omega

/-- The policy a room proposes before its first epoch. -/
def proposedPolicy : ChannelPolicy :=
  { samplePolicy .proposed with mode := .plaintext, epoch := none }

/-- A room that is proposed, activated and paused. -/
def sampleHistory : PolicyHistory where
  policies := [plaintextPolicy, proposedPolicy, samplePolicy .active, samplePolicy .rekeying]
  valid := by decide
  admitted := by
    refine .cons_cons ⟨"E2EE room", by decide⟩ (.cons_cons ⟨"E2EE room", by decide⟩
      (.cons_cons ⟨"E2EE room", by decide⟩ (.singleton _)))

theorem delayed_policy_classified_sample :
    ((classifyChannelEncryptionPolicyUpdate (samplePolicy .active) plaintextPolicy "E2EE room" =
        .ok .stale ∨
      classifyChannelEncryptionPolicyUpdate (samplePolicy .active) plaintextPolicy "E2EE room" =
        .ok .current) ↔
      plaintextPolicy.generation < (samplePolicy .active).generation ∨
        plaintextPolicy = samplePolicy .active) ∧
    ∃ message, classifyChannelEncryptionPolicyUpdate (samplePolicy .active) proposedPolicy
      "E2EE room" = .error message :=
  ⟨(delayed_policy_classified sampleHistory (i := 0) (j := 2) (by decide) rfl rfl "E2EE room").1,
    (delayed_policy_classified sampleHistory (i := 1) (j := 2) (by decide) rfl rfl
      "E2EE room").2 (by decide)⟩

/-- The proposal of an active room, delivered again, is refused. -/
theorem delayed_proposal_refused :
    ¬ ∀ (history : PolicyHistory) (i j : Nat) (earlier stored : ChannelPolicy) (label : String),
      i ≤ j → history.policies[i]? = some earlier → history.policies[j]? = some stored →
      classifyChannelEncryptionPolicyUpdate stored earlier label = .ok .stale ∨
        classifyChannelEncryptionPolicyUpdate stored earlier label = .ok .current := by
  intro h
  have hclassified := h sampleHistory 1 2 _ _ "E2EE room" (by decide) rfl rfl
  revert hclassified
  decide

end Kaede
