import Kaede.Requests
import Kaede.Runs
import Kaede.Tables
import Mathlib.Data.Finset.Max
import Mathlib.Data.Prod.Lex
import Mathlib.Data.String.Basic

/-!
# The rolling cache of a DM replica

An instance that is not the authority of a direct conversation may drop old
messages and have the authority serve them (`dm_storage.py` in
`backend/app/federation`). A message is dropped when the room it takes
is wanted: for a new message, or by the sweep that follows a smaller quota.
Some messages are never dropped, so the ones that are do not form a prefix;
the conversation remembers the largest reference that was dropped, and a
reference that is missing is excused only up to there.

The rows of the storage ledger, the rows other transactions have locked and
the charges of the candidates are read from the database in each round of
the loop, and a list of rounds is an input of the prune.
-/

namespace Kaede

namespace DmCache

/-- Messages and conversations are named by an id and an origin, and ordered
by them. -/
abbrev Ref := Nat ×ₗ String

abbrev Ref.domain (r : Ref) : String := (ofLex r).2

/-! ## Rows -/

structure Message where
  ref : Ref
  channel : Ref
  pinned : Bool := false
  /-- No projection of the message is waiting. -/
  projected : Bool := false
  /-- It has an attachment uploaded here. -/
  localAttachment : Bool := false
deriving DecidableEq

structure Conversation where
  authority : String
  truncated : Bool := false
  truncatedBefore : Option Ref := none
  cacheStart : Option Ref := none
  /-- `last_message` of the channel. -/
  last : Option Ref := none
deriving DecidableEq

structure Replica where
  conversations : Table Ref Conversation := ∅
  messages : List Message := []

structure Settings where
  domain : String
  cacheMessages : Nat
  cacheBytes : Nat
  conversationMessages : Nat
  conversationBytes : Nat
  authorityMessages : Nat
  authorityBytes : Nat
  originMessages : Nat
  originBytes : Nat
deriving DecidableEq, Repr

/-- What the ledger holds for a conversation, its authority and its remote
origin, and the share of the conversation that can be replaced. -/
structure Usage where
  remoteOrigin : String
  conversationMessages : Nat
  conversationBytes : Nat
  authorityMessages : Nat
  authorityBytes : Nat
  originMessages : Nat
  originBytes : Nat
  replaceableMessages : Nat
  replaceableBytes : Nat
deriving DecidableEq, Repr

structure Delta where
  messages : Nat
  bytes : Nat
deriving DecidableEq, Repr

structure Round where
  usage : Option Usage
  locked : List Ref := []
  charges : List (Ref × Nat) := []
deriving DecidableEq

inductive Fault where
  | quotaExceeded (scope resource : String) (used limit : Nat)
  /-- `rolling DM eviction selected authoritative history`. -/
  | authoritative
  | unknownConversation
deriving DecidableEq, Repr

/-! ## Choosing and dropping -/

section

variable (cfg : Settings)

/-- The conditions of `_eligible_replica_messages`. -/
def eligible (s : Replica) (channel : Option Ref) (authority : String)
    (excluded : List Ref) (m : Message) : Prop :=
  (∃ c ∈ s.conversations.lookup m.channel, c.authority = authority ∧ c.authority ≠ cfg.domain ∧
      c.last ≠ some m.ref) ∧
    m.ref.domain ≠ cfg.domain ∧ m.pinned = false ∧
    (∃ n ∈ s.messages, n.channel = m.channel ∧ m.ref < n.ref) ∧
    m.projected = true ∧ m.localAttachment = false ∧
    (∀ c ∈ channel, m.channel = c) ∧ m.ref ∉ excluded

instance (s : Replica) (channel : Option Ref) (authority : String) (excluded : List Ref)
    (m : Message) : Decidable (eligible cfg s channel authority excluded m) :=
  inferInstanceAs (Decidable (_ ∧ _ ∧ _ ∧ _ ∧ _ ∧ _ ∧ _ ∧ _))

/-- `_eligible_replica_messages`. Rows that are locked are passed over. -/
def eligibleReplicaMessages (s : Replica) (channel : Option Ref) (authority : String)
    (limit : Nat) (guarded locked : List Ref) : List Message :=
  ((s.messages.filter (eligible cfg s channel authority (guarded ++ locked))).mergeSort
    fun m n => m.ref ≤ n.ref).take limit

def MESSAGE_MINIMUM_CHARGE : Nat := 4096

def charge (charges : List (Ref × Nat)) (m : Message) : Nat :=
  (charges.lookup m.ref).getD MESSAGE_MINIMUM_CHARGE

/-- `_minimal_eviction_prefix`, after some messages and bytes. -/
def minimalEvictionPrefix (charges : List (Ref × Nat)) (messageDeficit byteDeficit : Nat) :
    Nat → Nat → List Message → List Message
  | _, _, [] => []
  | count, bytes, m :: ms =>
      if messageDeficit ≤ count + 1 ∧ byteDeficit ≤ bytes + charge charges m then [m]
      else m :: minimalEvictionPrefix charges messageDeficit byteDeficit (count + 1)
        (bytes + charge charges m) ms

/-- `_larger_ref`. -/
def largerRef (current : Option Ref) (candidate : Ref) : Ref :=
  match current with
  | none => candidate
  | some current => if current < candidate then candidate else current

/-- One turn of the loop of `_evict_replica_messages`. -/
def evict (s : Replica) (m : Message) : Except Fault Replica := do
  let c ← found (s.conversations.lookup m.channel) .authoritative
  ensure (c.authority ≠ cfg.domain) .authoritative
  .ok {
    conversations := s.conversations.insert m.channel { c with
      truncated := true
      truncatedBefore := some (largerRef c.truncatedBefore m.ref) }
    messages := s.messages.filter fun n => n.ref ≠ m.ref }

def evictAll (s : Replica) : List Message → Except Fault Replica
  | [] => .ok s
  | m :: ms => do
      let s ← evict cfg s m
      evictAll s ms

/-- One conversation in `_refresh_replica_cache_boundaries`. The incoming
message stands in even if it belongs to another conversation. -/
def refresh (incoming : Ref) (s : Replica) (channel : Ref) : Replica :=
  match s.conversations.lookup channel with
  | none => s
  | some c =>
      if c.truncated then
        let above := s.messages.filter fun m =>
          m.channel = channel ∧ ∀ b ∈ c.truncatedBefore, b < m.ref
        let oldest := (above.map (·.ref)).min?
        let c := { c with cacheStart := some (oldest.getD incoming) }
        { s with conversations := s.conversations.insert channel c }
      else s

/-- `_projected_quota_deficit`. -/
def projectedQuotaDeficit (retained incoming limit : Nat) : Nat := retained + incoming - limit

structure Deficits where
  softMessages : Nat
  softBytes : Nat
  authorityMessages : Nat
  authorityBytes : Nat
  originMessages : Nat
  originBytes : Nat
deriving DecidableEq, Repr

def deficits (u : Usage) (incoming : Ref) (delta : Delta) : Deficits :=
  let soft := if incoming.domain ≠ cfg.domain then delta else ⟨0, 0⟩
  { softMessages := projectedQuotaDeficit u.replaceableMessages soft.messages cfg.cacheMessages
    softBytes := projectedQuotaDeficit u.replaceableBytes soft.bytes cfg.cacheBytes
    authorityMessages :=
      projectedQuotaDeficit u.authorityMessages delta.messages cfg.authorityMessages
    authorityBytes := projectedQuotaDeficit u.authorityBytes delta.bytes cfg.authorityBytes
    originMessages := projectedQuotaDeficit u.originMessages delta.messages cfg.originMessages
    originBytes := projectedQuotaDeficit u.originBytes delta.bytes cfg.originBytes }

def Deficits.conversationOver (d : Deficits) : Bool := d.softMessages > 0 || d.softBytes > 0

def Deficits.aggregateOver (d : Deficits) : Bool :=
  d.authorityMessages > 0 || d.authorityBytes > 0 || d.originMessages > 0 || d.originBytes > 0

def Deficits.over (d : Deficits) : Bool := d.conversationOver || d.aggregateOver

/-- The messages one round drops. -/
def selectRound (s : Replica) (channel : Ref) (authority : String) (d : Deficits) (limit : Nat)
    (guarded : List Ref) (r : Round) : List Message :=
  minimalEvictionPrefix r.charges
    (max (max d.softMessages d.authorityMessages) d.originMessages)
    (max (max d.softBytes d.authorityBytes) d.originBytes) 0 0
    (eligibleReplicaMessages cfg s (if d.conversationOver then some channel else none) authority
      limit guarded r.locked)

/-- The loop of `prune_federated_dm_replica`, with what may still be dropped
and the conversations that changed. Without a row in the ledger it returns
at once. -/
def pruneLoop (channel : Ref) (authority : String) (incoming : Ref) (delta : Delta)
    (guarded : List Ref) : List Round → Replica → Nat → List Ref → Except Fault Replica
  | [], s, _, _ => .ok s
  | r :: rounds, s, budget, affected =>
      if budget = 0 then .ok (affected.foldl (refresh incoming) s)
      else match r.usage with
        | none => .ok s
        | some usage =>
            if ¬ (deficits cfg usage incoming delta).over then
              .ok (affected.foldl (refresh incoming) s)
            else
              match selectRound cfg s channel authority (deficits cfg usage incoming delta)
                (min 500 budget) guarded r with
              | [] => .ok (affected.foldl (refresh incoming) s)
              | selected => do
                  let s ← evictAll cfg s selected
                  pruneLoop channel authority incoming delta guarded rounds s
                    (budget - selected.length) (affected ++ selected.map (·.channel))

/-- `prune_federated_dm_replica`. `available`: the authority serves pages of
its history. -/
def pruneFederatedDmReplica (s : Replica) (channel : Ref) (c : Conversation) (available : Bool)
    (incoming : Ref) (delta : Delta) (guarded : List Ref) (maxEvictions : Nat)
    (rounds : List Round) : Except Fault Replica :=
  if c.authority = cfg.domain then .ok s
  else if ¬ available then .ok s
  else pruneLoop cfg channel c.authority incoming delta guarded rounds s maxEvictions []

/-- A message to be stored, and what its admission reads: whether the
conversation has a row in the ledger, and that row after the prune. -/
structure Admission where
  channel : Ref
  ref : Ref
  localAttachment : Bool := false
  delta : Delta
  guarded : List Ref := []
  available : Bool
  tracked : Bool
  rounds : List Round
  usage : Usage

def MAX_EVICTIONS_PER_ADMISSION : Nat := 5000

/-- The ceilings of `admit_federated_dm_message`. -/
def limits (u : Usage) (delta : Delta) : List (String × String × Nat × Nat) :=
  [("conversation", "messages", u.conversationMessages + delta.messages, cfg.conversationMessages),
    ("conversation", "bytes", u.conversationBytes + delta.bytes, cfg.conversationBytes),
    ("authority", "messages", u.authorityMessages + delta.messages, cfg.authorityMessages),
    ("authority", "bytes", u.authorityBytes + delta.bytes, cfg.authorityBytes)] ++
    if u.remoteOrigin ≠ cfg.domain then
      [("remote origin", "messages", u.originMessages + delta.messages, cfg.originMessages),
        ("remote origin", "bytes", u.originBytes + delta.bytes, cfg.originBytes)]
    else []

/-- `admit_federated_dm_message`. -/
def admitFederatedDmMessage (s : Replica) (c : Conversation) (a : Admission) :
    Except Fault Replica :=
  if ¬ a.tracked then .ok s
  else do
    let s ← (if c.authority ≠ cfg.domain then
        pruneFederatedDmReplica cfg s a.channel c a.available a.ref a.delta a.guarded
          MAX_EVICTIONS_PER_ADMISSION a.rounds
      else .ok s)
    forEach (limits cfg a.usage a.delta) fun l =>
      ensure (l.2.2.1 ≤ l.2.2.2) (.quotaExceeded l.1 l.2.1 l.2.2.1 l.2.2.2)
    .ok s

/-- The message is stored once it is admitted; one that is there already is
left alone. -/
def receive (s : Replica) (a : Admission) : Except Fault Replica := do
  if ∃ m ∈ s.messages, m.ref = a.ref then .ok s
  else
    let c ← found (s.conversations.lookup a.channel) .unknownConversation
    let s ← admitFederatedDmMessage cfg s c a
    .ok { s with
      messages := s.messages ++ [{
        ref := a.ref, channel := a.channel, localAttachment := a.localAttachment }] }

/-- One conversation of `sweep_federated_dm_replica_cache`. -/
def sweep (s : Replica) (channel : Ref) (available : Bool) (rounds : List Round) :
    Except Fault Replica :=
  match s.conversations.lookup channel with
  | none => .ok s
  | some c => pruneFederatedDmReplica cfg s channel c available (toLex (0, cfg.domain)) ⟨0, 0⟩ []
      500 rounds

/-- `opaque_dm_history_ref_allowed`. -/
def opaqueDmHistoryRefAllowed (c : Option Conversation) (reference : Ref)
    (participantDomains : List String) (remoteAvailable : Bool) : Bool :=
  match c with
  | none => false
  | some c =>
      if c.authority = cfg.domain ∨ ¬ c.truncated ∨ ¬ remoteAvailable then false
      else match c.truncatedBefore with
        | none => false
        | some before =>
            if reference.domain = cfg.domain ∨ reference.domain ∉ participantDomains then false
            else reference ≤ before

/-! ## Runs -/

/-- Besides admissions and sweeps, what the rest of the instance does to the
rows: pins, projections that finish, a new `last_message`. -/
inductive Input where
  | start (channel : Ref) (authority : String)
  | receive (a : Admission)
  | sweep (channel : Ref) (available : Bool) (rounds : List Round)
  | pin (ref : Ref) (pinned : Bool)
  | project (ref : Ref)
  | anchor (channel : Ref) (last : Option Ref)

def Replica.mark (s : Replica) (ref : Ref) (f : Message → Message) : Replica :=
  { s with messages := s.messages.map fun m => if m.ref = ref then f m else m }

/-- A transaction that fails is rolled back. -/
def Replica.attempt (s : Replica) (outcome : Except Fault Replica) : Replica :=
  match outcome with
  | .ok s => s
  | .error _ => s

def step (s : Replica) : Input → Option Replica
  | .start channel authority =>
      match s.conversations.lookup channel with
      | some _ => none
      | none => some { s with conversations := s.conversations.insert channel { authority } }
  | .receive a => some (s.attempt (receive cfg s a))
  | .sweep channel available rounds => some (s.attempt (sweep cfg s channel available rounds))
  | .pin ref pinned => some (s.mark ref fun m => { m with pinned })
  | .project ref => some (s.mark ref fun m => { m with projected := true })
  | .anchor channel last => some { s with
      conversations := s.conversations.modify channel fun c => { c with last } }

end

/-! ## The boundary -/

variable {cfg : Settings} {s s' s'' : Replica} {m : Message} {ms : List Message}

/-- No boundary goes back. -/
def Replica.Grows (s s' : Replica) : Prop :=
  ∀ channel c, s.conversations.lookup channel = some c →
    ∃ c', s'.conversations.lookup channel = some c' ∧
      ∀ b, c.truncatedBefore = some b → ∃ b', c'.truncatedBefore = some b' ∧ b ≤ b'

theorem Replica.Grows.refl (s : Replica) : s.Grows s :=
  fun _ c hc => ⟨c, hc, fun b hb => ⟨b, hb, le_rfl⟩⟩

theorem Replica.Grows.trans (h : s.Grows s') (h' : s'.Grows s'') : s.Grows s'' := by
  intro channel c hc
  obtain ⟨c', hc', hle⟩ := h channel c hc
  obtain ⟨c'', hc'', hle'⟩ := h' channel c' hc'
  refine ⟨c'', hc'', fun b hb => ?_⟩
  obtain ⟨b', hb', hbb'⟩ := hle b hb
  obtain ⟨b'', hb'', hbb''⟩ := hle' b' hb'
  exact ⟨b'', hb'', hbb'.trans hbb''⟩

/-- A message went that came from elsewhere, was not pinned, had been projected
and was not the newest of its conversation; the boundary is past it. -/
structure Dropped (cfg : Settings) (s' : Replica) (m : Message) : Prop where
  remote : m.ref.domain ≠ cfg.domain
  unpinned : m.pinned = false
  projected : m.projected = true
  newer : ∃ n ∈ s'.messages, n.channel = m.channel ∧ m.ref < n.ref
  bounded : ∃ c b, s'.conversations.lookup m.channel = some c ∧ c.truncatedBefore = some b ∧
    m.ref ≤ b

/-- Messages went, and none came. -/
structure Replica.Shrinks (cfg : Settings) (s s' : Replica) : Prop where
  grows : s.Grows s'
  messages : s'.messages.Sublist s.messages
  dropped : ∀ m ∈ s.messages, m ∉ s'.messages → Dropped cfg s' m

theorem Replica.Shrinks.refl (cfg : Settings) (s : Replica) : s.Shrinks cfg s :=
  ⟨.refl s, .refl _, fun _ hm hnot => absurd hm hnot⟩

/-- What was dropped before stays below a newer message and the boundary. -/
theorem Dropped.mono (hm : Dropped cfg s' m) (h : s'.Shrinks cfg s'') : Dropped cfg s'' m := by
  obtain ⟨n, hn, hchannel, hlt⟩ := hm.newer
  obtain ⟨c, b, hc, hb, hle⟩ := hm.bounded
  obtain ⟨c', hc', hgrows⟩ := h.grows m.channel c hc
  obtain ⟨b', hb', hbb'⟩ := hgrows b hb
  refine ⟨hm.remote, hm.unpinned, hm.projected, ?_, c', b', hc', hb', hle.trans hbb'⟩
  by_cases hstays : n ∈ s''.messages
  · exact ⟨n, hstays, hchannel, hlt⟩
  · obtain ⟨x, hx, hxchannel, hnx⟩ := (h.dropped n hn hstays).newer
    exact ⟨x, hx, hxchannel.trans hchannel, hlt.trans hnx⟩

theorem Replica.Shrinks.trans (h : s.Shrinks cfg s') (h' : s'.Shrinks cfg s'') :
    s.Shrinks cfg s'' := by
  refine ⟨h.grows.trans h'.grows, h'.messages.trans h.messages, fun m hm hnot => ?_⟩
  by_cases hmem : m ∈ s'.messages
  · exact h'.dropped m hmem hnot
  · exact (h.dropped m hm hmem).mono h'

theorem le_largerRef (current : Option Ref) (candidate : Ref) :
    candidate ≤ largerRef current candidate ∧ ∀ b, current = some b →
      b ≤ largerRef current candidate := by
  unfold largerRef
  split
  · exact ⟨le_rfl, fun b hb => by cases hb⟩
  · split
    · rename_i hlt
      refine ⟨le_rfl, fun b hb => ?_⟩
      obtain rfl := Option.some.inj hb
      exact hlt.le
    · rename_i hge
      refine ⟨not_lt.mp hge, fun b hb => ?_⟩
      obtain rfl := Option.some.inj hb
      exact le_rfl

/-- A message above the boundary of its conversation is stored. -/
def Replica.Holds (s : Replica) (channel ref : Ref) : Prop :=
  ∀ c, s.conversations.lookup channel = some c → (∀ b, c.truncatedBefore = some b → b < ref) →
    ∃ m ∈ s.messages, m.channel = channel ∧ m.ref = ref

structure Replica.Ok (s : Replica) : Prop where
  nodup : (s.messages.map (·.ref)).Nodup
  known : ∀ m ∈ s.messages, s.conversations.lookup m.channel ≠ none

theorem Replica.Grows.known (h : s.Grows s') {channel : Ref}
    (hknown : s.conversations.lookup channel ≠ none) : s'.conversations.lookup channel ≠ none := by
  obtain ⟨c, hc⟩ := Option.ne_none_iff_exists'.mp hknown
  obtain ⟨c', hc', -⟩ := h channel c hc
  rw [hc']
  exact Option.some_ne_none c'

theorem Replica.Ok.shrink (hs : s.Ok) (h : s.Shrinks cfg s') : s'.Ok :=
  ⟨hs.nodup.sublist (h.messages.map _), fun m hm =>
    h.grows.known (hs.known m (h.messages.subset hm))⟩

/-- The conversations change, but for their boundaries. -/
theorem shrinks_touch {conversations : Table Ref Conversation}
    (hsame : ∀ channel, (conversations.lookup channel).map (·.truncatedBefore) =
      (s.conversations.lookup channel).map (·.truncatedBefore)) :
    s.Shrinks cfg { s with conversations } := by
  refine ⟨fun channel c hc => ?_, .refl _, fun m hm hnot => absurd hm hnot⟩
  have h := hsame channel
  rw [hc] at h
  obtain ⟨c', hc', hbefore⟩ := Option.map_eq_some_iff.mp h
  exact ⟨c', hc', fun b hb => ⟨b, hbefore.trans hb, le_rfl⟩⟩

/-- A message that may be dropped while the messages `ms` are. -/
structure Droppable (cfg : Settings) (s : Replica) (ms : List Message) (m : Message) : Prop where
  mem : m ∈ s.messages
  remote : m.ref.domain ≠ cfg.domain
  unpinned : m.pinned = false
  projected : m.projected = true
  newer : ∃ n ∈ s.messages, n.channel = m.channel ∧ m.ref < n.ref ∧ n.ref ∉ ms.map (·.ref)

/-- What a drop does. -/
theorem evict_cases (h : evict cfg s m = .ok s') :
    ∃ c, s.conversations.lookup m.channel = some c ∧ s' = {
      conversations := s.conversations.insert m.channel { c with
        truncated := true
        truncatedBefore := some (largerRef c.truncatedBefore m.ref) }
      messages := s.messages.filter fun n => n.ref ≠ m.ref } := by
  obtain ⟨c, hc, h⟩ := found_bind_eq_ok.mp h
  obtain ⟨-, h⟩ := check_bind_eq_ok.mp h
  exact ⟨c, hc, (Except.ok.inj h).symm⟩

theorem mem_filter_ref {n : Message} (hn : n ∈ s.messages) (hne : n.ref ≠ m.ref) :
    n ∈ s.messages.filter fun n => n.ref ≠ m.ref :=
  List.mem_filter.mpr ⟨hn, decide_eq_true hne⟩

theorem Replica.Ok.evict (hs : s.Ok) (hm : Droppable cfg s (m :: ms) m)
    (h : evict cfg s m = .ok s') : s.Shrinks cfg s' := by
  obtain ⟨c₀, hc₀, rfl⟩ := evict_cases h
  refine ⟨fun channel c hc => ?_, List.filter_sublist, fun n hn hnot => ?_⟩
  · by_cases hchannel : channel = m.channel
    · subst hchannel
      obtain rfl := Option.some.inj (hc₀.symm.trans hc)
      refine ⟨_, AList.lookup_insert _, fun b hb => ⟨_, rfl, ?_⟩⟩
      exact (le_largerRef c₀.truncatedBefore m.ref).2 b hb
    · refine ⟨c, ?_, fun b hb => ⟨b, hb, le_rfl⟩⟩
      exact (AList.lookup_insert_ne hchannel).trans hc
  · -- no other message went
    have hsame : n.ref = m.ref := by
      by_contra hne
      exact hnot (mem_filter_ref hn hne)
    obtain rfl := List.inj_on_of_nodup_map hs.nodup hn hm.mem hsame
    obtain ⟨x, hx, hchannel, hlt, -⟩ := hm.newer
    exact ⟨hm.remote, hm.unpinned, hm.projected, ⟨x, mem_filter_ref hx hlt.ne', hchannel, hlt⟩,
      _, _, AList.lookup_insert _, rfl, (le_largerRef c₀.truncatedBefore n.ref).1⟩

/-- The others may still be dropped. -/
theorem Droppable.evict {n : Message} (hn : Droppable cfg s (m :: ms) n) (hne : n.ref ≠ m.ref)
    (h : evict cfg s m = .ok s') : Droppable cfg s' ms n := by
  obtain ⟨c₀, hc₀, rfl⟩ := evict_cases h
  obtain ⟨x, hx, hchannel, hlt, hnot⟩ := hn.newer
  rw [List.map_cons, List.mem_cons, not_or] at hnot
  exact ⟨mem_filter_ref hn.mem hne, hn.remote, hn.unpinned, hn.projected, x,
    mem_filter_ref hx hnot.1, hchannel, hlt, hnot.2⟩

theorem Replica.Ok.evictAll (hs : s.Ok) (hnodup : (ms.map (·.ref)).Nodup)
    (hms : ∀ m ∈ ms, Droppable cfg s ms m) (h : evictAll cfg s ms = .ok s') :
    s.Shrinks cfg s' := by
  induction ms generalizing s with
  | nil =>
    obtain rfl := Except.ok.inj h
    exact .refl cfg s
  | cons m ms ih =>
    obtain ⟨s₁, hevict, h⟩ := bind_eq_ok.mp h
    obtain ⟨hnot, hnodup⟩ := List.nodup_cons.mp hnodup
    have hrest : ∀ n ∈ ms, Droppable cfg s₁ ms n := by
      intro n hn
      refine (hms n (List.mem_cons_of_mem _ hn)).evict (fun heq => hnot ?_) hevict
      exact List.mem_map.mpr ⟨n, hn, heq⟩
    have hfirst := hs.evict (hms m List.mem_cons_self) hevict
    exact hfirst.trans (ih (hs.shrink hfirst) hnodup hrest h)

/-! ## Rounds -/

theorem minimalEvictionPrefix_sublist {charges : List (Ref × Nat)}
    {messageDeficit byteDeficit : Nat} {count bytes : Nat} :
    (minimalEvictionPrefix charges messageDeficit byteDeficit count bytes ms).Sublist ms := by
  induction ms generalizing count bytes with
  | nil => exact List.Sublist.slnil
  | cons m ms ih =>
    rw [minimalEvictionPrefix]
    split
    · exact (List.nil_sublist ms).cons_cons m
    · exact ih.cons_cons m

theorem exists_max_of_mem {α β : Type} [LinearOrder β] (f : α → β) {l : List α} {a : α}
    (ha : a ∈ l) : ∃ x ∈ l, ∀ y ∈ l, f y ≤ f x := by
  classical
  obtain ⟨x, hx, hmax⟩ := Finset.exists_max_image l.toFinset f ⟨a, List.mem_toFinset.mpr ha⟩
  exact ⟨x, List.mem_toFinset.mp hx, fun y hy => hmax y (List.mem_toFinset.mpr hy)⟩

/-- The newest message of a conversation. -/
theorem exists_newest (hm : m ∈ s.messages) :
    ∃ x ∈ s.messages, x.channel = m.channel ∧
      ∀ n ∈ s.messages, n.channel = m.channel → n.ref ≤ x.ref := by
  have hmem : ∀ n, n ∈ s.messages.filter (fun n => n.channel = m.channel) ↔
      n ∈ s.messages ∧ n.channel = m.channel := by
    intro n
    rw [List.mem_filter, decide_eq_true_eq]
  obtain ⟨x, hx, hmax⟩ := exists_max_of_mem Message.ref ((hmem m).mpr ⟨hm, rfl⟩)
  exact ⟨x, ((hmem x).mp hx).1, ((hmem x).mp hx).2, fun n hn hc => hmax n ((hmem n).mpr ⟨hn, hc⟩)⟩

theorem mem_eligibleReplicaMessages {channel : Option Ref} {authority : String} {limit : Nat}
    {guarded locked : List Ref}
    (hm : m ∈ eligibleReplicaMessages cfg s channel authority limit guarded locked) :
    m ∈ s.messages ∧ eligible cfg s channel authority (guarded ++ locked) m := by
  have hsorted := List.mem_of_mem_take hm
  have hfilter := List.mem_filter.mp (List.mem_mergeSort.mp hsorted)
  exact ⟨hfilter.1, of_decide_eq_true hfilter.2⟩

theorem nodup_eligibleReplicaMessages (hnodup : (s.messages.map (·.ref)).Nodup)
    {channel : Option Ref} {authority : String} {limit : Nat} {guarded locked : List Ref} :
    ((eligibleReplicaMessages cfg s channel authority limit guarded locked).map (·.ref)).Nodup := by
  have hfilter := hnodup.sublist ((List.filter_sublist
    (p := fun m => decide (eligible cfg s channel authority (guarded ++ locked) m))).map (·.ref))
  have hsorted := ((List.mergeSort_perm _ fun m n : Message => decide (m.ref ≤ n.ref)).map
    (·.ref)).nodup_iff.mpr hfilter
  exact hsorted.sublist ((List.take_sublist _ _).map _)

/-- The newest message of a conversation has nothing newer, so it is never
among the candidates, and the others may go. -/
theorem droppable_of_sublist (hs : s.Ok) {channel : Option Ref} {authority : String}
    {limit : Nat} {guarded locked : List Ref}
    (hsub : ms.Sublist (eligibleReplicaMessages cfg s channel authority limit guarded locked)) :
    (ms.map (·.ref)).Nodup ∧ ∀ m ∈ ms, Droppable cfg s ms m := by
  refine ⟨(nodup_eligibleReplicaMessages hs.nodup).sublist (hsub.map _), fun m hm => ?_⟩
  obtain ⟨hmem, -, hremote, hpinned, ⟨n, hn, hchannel, hlt⟩, hprojected, -⟩ :=
    mem_eligibleReplicaMessages (hsub.subset hm)
  obtain ⟨x, hx, hxchannel, hmax⟩ := exists_newest hmem
  refine ⟨hmem, hremote, hpinned, hprojected, x, hx, hxchannel, hlt.trans_le (hmax n hn hchannel),
    fun hselected => ?_⟩
  obtain ⟨y, hy, hyref⟩ := List.mem_map.mp hselected
  obtain ⟨hymem, -, -, -, ⟨z, hz, hzchannel, hyz⟩, -⟩ :=
    mem_eligibleReplicaMessages (hsub.subset hy)
  obtain rfl := List.inj_on_of_nodup_map hs.nodup hymem hx hyref
  exact absurd hyz (not_lt.mpr (hmax z hz (hzchannel.trans hxchannel)))

theorem Replica.Ok.selectRound (hs : s.Ok) (channel : Ref) (authority : String) (d : Deficits)
    (limit : Nat) (guarded : List Ref) (r : Round) :
    ((selectRound cfg s channel authority d limit guarded r).map (·.ref)).Nodup ∧
      ∀ m ∈ DmCache.selectRound cfg s channel authority d limit guarded r,
        Droppable cfg s (DmCache.selectRound cfg s channel authority d limit guarded r) m :=
  droppable_of_sublist hs minimalEvictionPrefix_sublist

theorem shrinks_refresh (cfg : Settings) (incoming : Ref) (s : Replica) (channel : Ref) :
    s.Shrinks cfg (refresh incoming s channel) := by
  unfold refresh
  split
  · exact .refl cfg s
  · rename_i c hc
    split
    · refine shrinks_touch fun ch => ?_
      rw [Table.lookup_insert_ite]
      split
      · rename_i hch
        rw [hch, hc]
        rfl
      · rfl
    · exact .refl cfg s

theorem shrinks_refreshAll (cfg : Settings) (incoming : Ref) (s : Replica)
    (channels : List Ref) : s.Shrinks cfg (channels.foldl (refresh incoming) s) := by
  induction channels generalizing s with
  | nil => exact .refl cfg s
  | cons channel channels ih =>
    exact (shrinks_refresh cfg incoming s channel).trans (ih (refresh incoming s channel))

theorem Replica.Ok.pruneLoop {channel incoming : Ref} {authority : String} {delta : Delta}
    {guarded : List Ref} {rounds : List Round} {budget : Nat} {affected : List Ref}
    (hs : s.Ok)
    (h : pruneLoop cfg channel authority incoming delta guarded rounds s budget affected =
      .ok s') : s.Shrinks cfg s' := by
  induction rounds generalizing s budget affected with
  | nil =>
    obtain rfl := Except.ok.inj h
    exact .refl cfg s
  | cons r rounds ih =>
    rw [DmCache.pruneLoop] at h
    split at h
    · obtain rfl := Except.ok.inj h
      exact shrinks_refreshAll cfg incoming s affected
    · split at h
      · obtain rfl := Except.ok.inj h
        exact .refl cfg s
      · split at h
        · obtain rfl := Except.ok.inj h
          exact shrinks_refreshAll cfg incoming s affected
        · split at h
          · obtain rfl := Except.ok.inj h
            exact shrinks_refreshAll cfg incoming s affected
          · obtain ⟨s₁, hevict, h⟩ := bind_eq_ok.mp h
            obtain ⟨hnodup, hdrop⟩ := hs.selectRound channel authority
              (deficits cfg _ incoming delta) (min 500 budget) guarded r
            have hshrinks := hs.evictAll hnodup hdrop hevict
            exact hshrinks.trans (ih (hs.shrink hshrinks) h)

theorem Replica.Ok.prune {channel incoming : Ref} {c : Conversation} {available : Bool}
    {delta : Delta} {guarded : List Ref} {maxEvictions : Nat} {rounds : List Round}
    (hs : s.Ok)
    (h : pruneFederatedDmReplica cfg s channel c available incoming delta guarded maxEvictions
      rounds = .ok s') : s.Shrinks cfg s' := by
  unfold pruneFederatedDmReplica at h
  split at h
  · obtain rfl := Except.ok.inj h
    exact .refl cfg s
  · split at h
    · obtain rfl := Except.ok.inj h
      exact .refl cfg s
    · exact hs.pruneLoop h

/-! ## Steps -/

/-- What one thing that happens does: a message stays, if maybe marked, or it
was dropped. -/
structure Replica.Advances (cfg : Settings) (s s' : Replica) : Prop where
  ok : s'.Ok
  grows : s.Grows s'
  kept : ∀ m ∈ s.messages,
    (∃ n ∈ s'.messages, n.channel = m.channel ∧ n.ref = m.ref) ∨ Dropped cfg s' m

theorem Replica.Ok.advances (hs : s.Ok) (h : s.Shrinks cfg s') : s.Advances cfg s' := by
  refine ⟨hs.shrink h, h.grows, fun m hm => ?_⟩
  by_cases hstays : m ∈ s'.messages
  · exact .inl ⟨m, hstays, rfl, rfl⟩
  · exact .inr (h.dropped m hm hstays)

theorem Replica.Ok.admitted {c : Conversation} {a : Admission} (hs : s.Ok)
    (h : admitFederatedDmMessage cfg s c a = .ok s') : s.Shrinks cfg s' := by
  unfold admitFederatedDmMessage at h
  split at h
  · obtain rfl := Except.ok.inj h
    exact .refl cfg s
  · obtain ⟨s₁, hprune, h⟩ := bind_eq_ok.mp h
    obtain ⟨-, h⟩ := check_bind_eq_ok.mp h
    obtain rfl := Except.ok.inj h
    split at hprune
    · exact hs.prune hprune
    · obtain rfl := Except.ok.inj hprune
      exact .refl cfg s

/-- The message is stored, and room was made for it. -/
theorem receive_cases {a : Admission} (h : receive cfg s a = .ok s') :
    (s' = s ∧ ∃ m ∈ s.messages, m.ref = a.ref) ∨
      (¬∃ m ∈ s.messages, m.ref = a.ref) ∧ s.conversations.lookup a.channel ≠ none ∧
        ∃ c s₁, admitFederatedDmMessage cfg s c a = .ok s₁ ∧ s' = { s₁ with
          messages := s₁.messages ++ [{
            ref := a.ref, channel := a.channel, localAttachment := a.localAttachment }] } := by
  unfold receive at h
  split at h
  · rename_i hold
    exact .inl ⟨(Except.ok.inj h).symm, hold⟩
  · rename_i hnew
    obtain ⟨c, hc, h⟩ := found_bind_eq_ok.mp h
    obtain ⟨s₁, hadmitted, h⟩ := bind_eq_ok.mp h
    refine .inr ⟨hnew, ?_, c, s₁, hadmitted, (Except.ok.inj h).symm⟩
    rw [hc]
    exact Option.some_ne_none c

theorem Replica.Ok.receive {a : Admission} (hs : s.Ok) (h : receive cfg s a = .ok s') :
    s.Advances cfg s' := by
  obtain ⟨rfl, -⟩ | ⟨hnew, hknown, c, s₁, hadmitted, rfl⟩ := receive_cases h
  · exact hs.advances (.refl cfg s')
  have hshrinks := hs.admitted hadmitted
  have hok := hs.shrink hshrinks
  refine ⟨⟨?_, fun m hm => ?_⟩, hshrinks.grows, fun m hm => ?_⟩
  · rw [List.map_append]
    refine List.nodup_append.mpr ⟨hok.nodup, List.nodup_singleton _, ?_⟩
    intro r hr r' hr' heq
    obtain ⟨n, hn, rfl⟩ := List.mem_map.mp hr
    obtain rfl := List.mem_singleton.mp hr'
    exact hnew ⟨n, hshrinks.messages.subset hn, heq⟩
  · rcases List.mem_append.mp hm with hm | hm
    · exact hok.known m hm
    · obtain rfl := List.mem_singleton.mp hm
      exact hshrinks.grows.known hknown
  · by_cases hstays : m ∈ s₁.messages
    · exact .inl ⟨m, List.mem_append_left _ hstays, rfl, rfl⟩
    · obtain ⟨hremote, hpinned, hprojected, ⟨n, hn, hnewer⟩, hbounded⟩ :=
        hshrinks.dropped m hm hstays
      exact .inr ⟨hremote, hpinned, hprojected, ⟨n, List.mem_append_left _ hn, hnewer⟩, hbounded⟩

theorem Replica.Ok.sweep {channel : Ref} {available : Bool} {rounds : List Round}
    (hs : s.Ok) (h : sweep cfg s channel available rounds = .ok s') : s.Advances cfg s' := by
  unfold DmCache.sweep at h
  split at h
  · obtain rfl := Except.ok.inj h
    exact hs.advances (.refl cfg s)
  · exact hs.advances (hs.prune h)

/-- A failed transaction leaves the rows as they were. -/
theorem Replica.Ok.attempt (hs : s.Ok) {outcome : Except Fault Replica}
    (h : ∀ s', outcome = .ok s' → s.Advances cfg s') : s.Advances cfg (s.attempt outcome) := by
  cases outcome with
  | error fault => exact hs.advances (.refl cfg s)
  | ok s' => exact h s' rfl

theorem Replica.Ok.mark (hs : s.Ok) (ref : Ref) {f : Message → Message}
    (hf : ∀ m, (f m).ref = m.ref ∧ (f m).channel = m.channel) :
    s.Advances cfg (s.mark ref f) := by
  have hsame : ∀ m, (if m.ref = ref then f m else m).ref = m.ref ∧
      (if m.ref = ref then f m else m).channel = m.channel := by
    intro m
    split
    · exact hf m
    · exact ⟨rfl, rfl⟩
  refine ⟨⟨?_, fun m hm => ?_⟩, fun _ c hc => ⟨c, hc, fun b hb => ⟨b, hb, le_rfl⟩⟩,
    fun m hm => .inl ⟨_, List.mem_map_of_mem hm, (hsame m).2, (hsame m).1⟩⟩
  · have hmap : (s.mark ref f).messages.map (·.ref) = s.messages.map (·.ref) := by
      rw [Replica.mark, List.map_map]
      exact List.map_congr_left fun m _ => (hsame m).1
    rw [hmap]
    exact hs.nodup
  · obtain ⟨n, hn, rfl⟩ := List.mem_map.mp hm
    rw [(hsame n).2]
    exact hs.known n hn

theorem Replica.Ok.start (hs : s.Ok) {channel : Ref} (authority : String)
    (hnew : s.conversations.lookup channel = none) :
    s.Advances cfg
      { s with conversations := s.conversations.insert channel { authority } } := by
  have hgrows : s.Grows
      { s with conversations := s.conversations.insert channel { authority } } := by
    intro ch c hc
    refine ⟨c, (AList.lookup_insert_ne ?_).trans hc, fun b hb => ⟨b, hb, le_rfl⟩⟩
    rintro rfl
    cases hnew.symm.trans hc
  exact ⟨⟨hs.nodup, fun m hm => hgrows.known (hs.known m hm)⟩, hgrows,
    fun m hm => .inl ⟨m, hm, rfl, rfl⟩⟩

theorem Replica.Ok.step (hs : s.Ok) {input : Input} (hstep : step cfg s input = some s') :
    s.Advances cfg s' := by
  cases input with
  | start channel authority =>
    rw [DmCache.step] at hstep
    split at hstep
    · cases hstep
    · rename_i hnew
      obtain rfl := Option.some.inj hstep
      exact hs.start authority hnew
  | receive a =>
    obtain rfl := Option.some.inj hstep
    exact hs.attempt fun _ h => hs.receive h
  | sweep channel available rounds =>
    obtain rfl := Option.some.inj hstep
    exact hs.attempt fun _ h => hs.sweep h
  | pin ref pinned =>
    obtain rfl := Option.some.inj hstep
    exact hs.mark ref fun _ => ⟨rfl, rfl⟩
  | project ref =>
    obtain rfl := Option.some.inj hstep
    exact hs.mark ref fun _ => ⟨rfl, rfl⟩
  | anchor channel last =>
    obtain rfl := Option.some.inj hstep
    refine hs.advances (shrinks_touch fun ch => ?_)
    rw [Table.lookup_modify]
    split
    · rw [Option.map_map]
      rfl
    · rfl

/-- What is above the boundary later was above it before. -/
theorem Replica.Advances.holds {channel ref : Ref} (h : s.Advances cfg s')
    (hknown : s.conversations.lookup channel ≠ none) (hholds : s.Holds channel ref) :
    s'.Holds channel ref := by
  intro c' hc' habove
  obtain ⟨c, hc⟩ := Option.ne_none_iff_exists'.mp hknown
  obtain ⟨c'', hc'', hgrows⟩ := h.grows channel c hc
  obtain rfl := Option.some.inj (hc'.symm.trans hc'')
  obtain ⟨m, hm, rfl, rfl⟩ := hholds c hc fun b hb => by
    obtain ⟨b', hb', hle⟩ := hgrows b hb
    exact hle.trans_lt (habove b' hb')
  obtain hkept | hdropped := h.kept m hm
  · exact hkept
  · obtain ⟨c'', b, hc'', hb, hle⟩ := hdropped.bounded
    obtain rfl := Option.some.inj (hc'.symm.trans hc'')
    exact absurd (habove b hb) (not_lt.mpr hle)

/-- The messages of one state of a run in another. -/
theorem Replica.Ok.exec {is : List Input} (hs : s.Ok)
    (hrun : Exec (DmCache.step cfg) Always s is s') :
    s'.Ok ∧ s.Grows s' ∧ ∀ m ∈ s.messages, s'.Holds m.channel m.ref := by
  refine hrun.invariant
    (I := fun s' => s'.Ok ∧ s.Grows s' ∧ ∀ m ∈ s.messages, s'.Holds m.channel m.ref) ?_
    ⟨hs, .refl s, fun m hm _ _ _ => ⟨m, hm, rfl, rfl⟩⟩
  rintro s₁ input s₂ ⟨hok, hgrows, hholds⟩ - hstep
  have hadvances := hok.step hstep
  exact ⟨hadvances.ok, hgrows.trans hadvances.grows, fun m hm =>
    hadvances.holds (hgrows.known (hs.known m hm)) (hholds m hm)⟩

theorem opaque_le {c : Option Conversation} {reference : Ref} {domains : List String}
    {remoteAvailable : Bool}
    (h : opaqueDmHistoryRefAllowed cfg c reference domains remoteAvailable = true) :
    ∃ conversation b, c = some conversation ∧ conversation.truncatedBefore = some b ∧
      reference ≤ b := by
  unfold opaqueDmHistoryRefAllowed at h
  split at h
  · cases h
  · split at h
    · cases h
    · split at h
      · cases h
      · split at h
        · cases h
        · exact ⟨_, _, rfl, ‹_›, of_decide_eq_true h⟩

theorem Replica.ok_empty : ({} : Replica).Ok :=
  ⟨List.nodup_nil, fun _ hm => absurd hm List.not_mem_nil⟩

/-- A message that comes is stored, and from then on it is as long as it is
above the boundary. The boundary never goes back, a step drops what was not to
be kept, and a missing reference is excused only up to the boundary. -/
theorem dm_cache_boundary {is : List Input} (hrun : Exec (step cfg) Always {} is s) :
    (∀ a s', receive cfg s a = .ok s' → ∃ m ∈ s'.messages, m.ref = a.ref) ∧
      (∀ more s', Exec (step cfg) Always s more s' →
        s.Grows s' ∧ ∀ m ∈ s.messages, s'.Holds m.channel m.ref) ∧
      (∀ input s', step cfg s input = some s' → ∀ m ∈ s.messages,
        (∀ n ∈ s'.messages, n.ref ≠ m.ref) → Dropped cfg s' m) ∧
      ∀ channel reference domains remoteAvailable,
        opaqueDmHistoryRefAllowed cfg (s.conversations.lookup channel) reference domains
          remoteAvailable = true →
        ∃ c b, s.conversations.lookup channel = some c ∧ c.truncatedBefore = some b ∧
          reference ≤ b := by
  have hok : s.Ok := (Replica.ok_empty.exec hrun).1
  refine ⟨fun a s' h => ?_, fun more s' hmore => (hok.exec hmore).2,
    fun input s' hstep m hm hgone => ?_, fun _ _ _ _ => opaque_le⟩
  · obtain ⟨rfl, hold⟩ | ⟨-, -, c, s₁, -, rfl⟩ := receive_cases h
    · exact hold
    · exact ⟨_, List.mem_append_right _ (List.mem_singleton_self _), rfl⟩
  · obtain ⟨n, hn, -, href⟩ | hdropped := (hok.step hstep).kept m hm
    · exact absurd href (hgone n hn)
    · exact hdropped

def sampleSettings : Settings := ⟨"a.example", 3, 9, 9, 9, 9, 9, 9, 9⟩

def sampleUsage (replaceable : Nat) : Usage := ⟨"b.example", 0, 0, 0, 0, 0, 0, replaceable, 0⟩

def sampleRef (id : Nat) : Ref := toLex (id, "b.example")

/-- A message of the peer, when so many of its messages are stored. -/
def sampleAdmission (id replaceable : Nat) : Admission where
  channel := sampleRef 1
  ref := sampleRef id
  delta := ⟨1, 0⟩
  available := true
  tracked := true
  rounds := [⟨some (sampleUsage replaceable), [], []⟩, ⟨some (sampleUsage 0), [], []⟩]
  usage := sampleUsage 0

/-- The oldest of three messages is pinned. -/
def sampleMessages : List Input :=
  [.start (sampleRef 1) "b.example", .receive (sampleAdmission 2 0), .project (sampleRef 2),
    .receive (sampleAdmission 3 1), .project (sampleRef 3), .receive (sampleAdmission 4 2),
    .pin (sampleRef 2) true]

def refsAndBoundary (s : Replica) : List Ref × Option Ref :=
  (s.messages.map (·.ref), (s.conversations.lookup (sampleRef 1)).bind (·.truncatedBefore))

/-- The second oldest goes when a fourth comes. -/
theorem dm_cache_boundary_sample :
    ∃ s s', Exec (step sampleSettings) Always {} sampleMessages s ∧
      step sampleSettings s (.receive (sampleAdmission 5 3)) = some s' ∧
      refsAndBoundary s = ([sampleRef 2, sampleRef 3, sampleRef 4], none) ∧
      refsAndBoundary s' = ([sampleRef 2, sampleRef 4, sampleRef 5], some (sampleRef 3)) ∧
      (∀ m ∈ s.messages, s'.Holds m.channel m.ref) ∧
      ∀ m ∈ s.messages, (∀ n ∈ s'.messages, n.ref ≠ m.ref) → Dropped sampleSettings s' m := by
  have hbefore : (runFrom (step sampleSettings) Always {} sampleMessages).map refsAndBoundary =
      some ([sampleRef 2, sampleRef 3, sampleRef 4], none) := by
    decide +kernel
  have hafter : ((runFrom (step sampleSettings) Always {} sampleMessages).bind fun s =>
      (step sampleSettings s (.receive (sampleAdmission 5 3))).map refsAndBoundary) =
      some ([sampleRef 2, sampleRef 4, sampleRef 5], some (sampleRef 3)) := by
    decide +kernel
  obtain ⟨s, hs, hbefore⟩ := Option.map_eq_some_iff.mp hbefore
  rw [hs, Option.bind_some] at hafter
  obtain ⟨s', hs', hafter⟩ := Option.map_eq_some_iff.mp hafter
  have hrun := Exec.of_runFrom hs
  obtain ⟨-, hholds, hdropped, -⟩ := dm_cache_boundary hrun
  exact ⟨s, s', hrun, hs', hbefore, hafter,
    (hholds _ s' (.cons trivial hs' (.nil s'))).2, hdropped _ s' hs'⟩

end DmCache

end Kaede
