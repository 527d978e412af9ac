import Kaede.DmCache
import Mathlib.Algebra.Ring.Nat

/-!
# The quotas of a DM replica

`admit_federated_dm_message` (`dm_storage.py` in `backend/app/federation`)
reads what a conversation, its authority and its remote origin hold, drops
replaceable messages while one of them has too much, and then compares the
totals with their limits. `Kaede.DmCache` takes those readings as inputs;
here they are computed from the ledger, whose rows the triggers of the
database keep: one charge for each message, attachment and projection, and
all charges of a message go when the message does.

Each round of the prune drops at least one message of those it may drop, so
the admission ends (`pruneRounds_total`), and what it does is what
`Kaede.DmCache` does on the readings it made (`pruneRounds_refines`).
`admitMessage_spec` puts this together with the limits and with
the choice of what to drop.
-/

namespace Kaede

namespace DmCache

/-! ## The ledger -/

inductive Category where
  | message
  | attachment
  | projection
deriving DecidableEq

/-- A row of `federated_dm_row_charges`, with the message it belongs to. -/
structure RowCharge where
  category : Category
  rowDomain : String
  message : Ref
  conversation : Ref
  bytes : Nat
deriving DecidableEq

/-- A row of `federated_dm_storage_usage`. Its counters are sums over the
charges. -/
structure StorageUsage where
  authority : String
  remoteOrigin : String
deriving DecidableEq

structure Ledger where
  usage : Table Ref StorageUsage := ∅
  charges : List RowCharge := []

namespace Ledger

def countMessages (charges : List RowCharge) : Nat := charges.countP fun r => r.category = .message

def sumBytes (charges : List RowCharge) : Nat := (charges.map (·.bytes)).sum

def chargesOf (q : Ledger) (conversation : Ref) : List RowCharge :=
  q.charges.filter fun r => r.conversation = conversation

def messageRows (q : Ledger) (conversation : Ref) : Nat := countMessages (q.chargesOf conversation)

def totalBytes (q : Ledger) (conversation : Ref) : Nat := sumBytes (q.chargesOf conversation)

/-- The conversations that count towards an authority or an origin. -/
def conversationsWhere (q : Ledger) (p : StorageUsage → Bool) : List Ref :=
  (q.usage.entries.filter fun e => p e.2).map (·.1)

/-- The sums of `_dm_usage_totals`. -/
def rowsWhere (q : Ledger) (p : StorageUsage → Bool) : Nat :=
  ((q.conversationsWhere p).map q.messageRows).sum

def bytesWhere (q : Ledger) (p : StorageUsage → Bool) : Nat :=
  ((q.conversationsWhere p).map q.totalBytes).sum

/-- `_replaceable_replica_usage`: the charges that came from elsewhere. -/
def replaceable (q : Ledger) (cfg : Settings) (conversation : Ref) : List RowCharge :=
  (q.chargesOf conversation).filter fun r => r.rowDomain ≠ cfg.domain

/-- `_eviction_charge_bytes`. A message without a charge has no entry. -/
def evictionChargeBytes (q : Ledger) (messages : List Message) : List (Ref × Nat) :=
  (messages.filter fun m => q.charges.any fun r => r.message = m.ref).map fun m =>
    (m.ref, sumBytes (q.charges.filter fun r => r.message = m.ref))

/-- The rows of some messages are deleted. -/
def release (q : Ledger) (messages : List Message) : Ledger :=
  { q with charges := q.charges.filter fun r => r.message ∉ messages.map (·.ref) }

/-- The rows of a message are inserted. -/
def store (q : Ledger) (charges : List RowCharge) : Ledger :=
  { q with charges := q.charges ++ charges }

end Ledger

structure Store where
  replica : Replica
  ledger : Ledger

section

variable (cfg : Settings)

/-- What is read of a conversation that has a row in the ledger. -/
def readUsage (q : Ledger) (channel : Ref) (authority : String) : Option Usage :=
  (q.usage.lookup channel).map fun u =>
    { remoteOrigin := u.remoteOrigin
      conversationMessages := q.messageRows channel
      conversationBytes := q.totalBytes channel
      authorityMessages := q.rowsWhere fun v => v.authority = authority
      authorityBytes := q.bytesWhere fun v => v.authority = authority
      originMessages := q.rowsWhere fun v => v.remoteOrigin = u.remoteOrigin
      originBytes := q.bytesWhere fun v => v.remoteOrigin = u.remoteOrigin
      replaceableMessages := Ledger.countMessages (q.replaceable cfg channel)
      replaceableBytes := Ledger.sumBytes (q.replaceable cfg channel) }

/-- The readings of one round. The charges are looked up for the candidates
only. -/
def readRound (st : Store) (channel : Ref) (authority : String) (locked : List Ref) : Round where
  usage := readUsage cfg st.ledger channel authority
  locked := locked
  charges := st.ledger.evictionChargeBytes st.replica.messages

/-! ## Admission -/

def Store.refreshAll (st : Store) (incoming : Ref) (affected : List Ref) : Store :=
  { st with replica := affected.foldl (refresh incoming) st.replica }

/-- The loop of `prune_federated_dm_replica`; `none` when `fuel` rounds were
not enough. `locks n` are the rows that other transactions hold in round
`n`. -/
def pruneRounds (locks : Nat → List Ref) (channel : Ref) (authority : String) (incoming : Ref)
    (delta : Delta) (guarded : List Ref) :
    Nat → Nat → Store → Nat → List Ref → Option (Except Fault Store)
  | 0, _, _, _, _ => none
  | fuel + 1, n, st, budget, affected =>
      if budget = 0 then some (.ok (st.refreshAll incoming affected))
      else match readUsage cfg st.ledger channel authority with
        | none => some (.ok st)
        | some usage =>
            if ¬ (deficits cfg usage incoming delta).over then
              some (.ok (st.refreshAll incoming affected))
            else
              match selectRound cfg st.replica channel authority (deficits cfg usage incoming delta)
                (min 500 budget) guarded (readRound cfg st channel authority (locks n)) with
              | [] => some (.ok (st.refreshAll incoming affected))
              | m :: ms =>
                  match evictAll cfg st.replica (m :: ms) with
                  | .error fault => some (.error fault)
                  | .ok replica =>
                      pruneRounds locks channel authority incoming delta guarded fuel (n + 1)
                        ⟨replica, st.ledger.release (m :: ms)⟩ (budget - (m :: ms).length)
                        (affected ++ (m :: ms).map (·.channel))

inductive ConversationType where
  | direct
  | group
  | other
deriving DecidableEq

/-- A message before it is stored, with what is known of its conversation. -/
structure Incoming where
  channel : Ref
  type : ConversationType
  participantDomains : List String
  ref : Ref
  delta : Delta
  guarded : List Ref := []
  available : Bool

inductive QuotaFault where
  | cache (fault : Fault)
  /-- `federated direct conversation must have exactly one remote origin`. -/
  | directOrigins
  /-- `unsupported DM conversation type`. -/
  | unsupportedType
  /-- `federated DM storage ledger disappeared`. -/
  | ledgerDisappeared
deriving DecidableEq

/-- The origin a conversation is charged to. A group is charged to its
authority, whoever takes part. -/
def quotaOrigin (c : Conversation) (a : Incoming) : Except QuotaFault String :=
  match a.type with
  | .group => .ok c.authority
  | .direct =>
      match a.participantDomains.dedup.filter (· ≠ cfg.domain) with
      | [origin] => .ok origin
      | _ => .error .directOrigins
  | .other => .error .unsupportedType

/-- `_usage_for_conversation`. A conversation that is stored is registered
without a look at the limits on their number. -/
def usageForConversation (q : Ledger) (c : Conversation) (a : Incoming) :
    Except QuotaFault (Ledger × Option StorageUsage) :=
  match q.usage.lookup a.channel with
  | some u => .ok (q, some u)
  | none =>
      if a.participantDomains.dedup.length < 2 then .ok (q, none)
      else do
        let remoteOrigin ← quotaOrigin cfg c a
        let u : StorageUsage := { authority := c.authority, remoteOrigin }
        .ok ({ q with usage := q.usage.insert a.channel u }, some u)

/-- The prune of an admission: nothing on the authority, and nothing while
the authority does not serve its history. -/
def pruneForAdmission (locks : Nat → List Ref) (fuel : Nat) (st : Store) (c : Conversation)
    (a : Incoming) : Option (Except Fault Store) :=
  if c.authority = cfg.domain ∨ ¬ a.available then some (.ok st)
  else pruneRounds cfg locks a.channel c.authority a.ref a.delta a.guarded fuel 0 st
    MAX_EVICTIONS_PER_ADMISSION []

/-- The comparison with the limits that ends an admission. -/
def checkLimits (st : Store) (c : Conversation) (a : Incoming) :
    Except QuotaFault (Bool × Store) :=
  match readUsage cfg st.ledger a.channel c.authority with
  | none => .error .ledgerDisappeared
  | some usage =>
      match forEach (limits cfg usage a.delta) fun l =>
        ensure (l.2.2.1 ≤ l.2.2.2) (.quotaExceeded l.1 l.2.1 l.2.2.1 l.2.2.2) with
      | .error fault => .error (.cache fault)
      | .ok () => .ok (true, st)

/-- `admit_federated_dm_message`: `false` for a message that is stored
already. -/
def admitMessage (locks : Nat → List Ref) (fuel : Nat) (st : Store) (c : Conversation)
    (a : Incoming) : Option (Except QuotaFault (Bool × Store)) :=
  if ∃ m ∈ st.replica.messages, m.ref = a.ref then some (.ok (false, st))
  else match usageForConversation cfg st.ledger c a with
    | .error fault => some (.error fault)
    | .ok (_, none) => some (.ok (true, st))
    | .ok (q, some _) =>
        match pruneForAdmission cfg locks fuel { st with ledger := q } c a with
        | none => none
        | some (.error fault) => some (.error (.cache fault))
        | some (.ok st) => some (checkLimits cfg st c a)

end

variable {cfg : Settings}

/-! ## What a round drops -/

/-- The messages are enough for both deficits. -/
def Covers (charges : List (Ref × Nat)) (messageDeficit byteDeficit : Nat) (ms : List Message) :
    Prop :=
  messageDeficit ≤ ms.length ∧ byteDeficit ≤ (ms.map (charge charges)).sum

/-- `selected` is the shortest nonempty prefix that is enough for both
deficits, or everything when no prefix is. -/
structure MinimalSelection (charges : List (Ref × Nat)) (messageDeficit byteDeficit : Nat)
    (candidates selected : List Message) : Prop where
  initial : selected <+: candidates
  nonempty : candidates ≠ [] → selected ≠ []
  shortest : ∀ ms, ms <+: candidates → ms ≠ [] → Covers charges messageDeficit byteDeficit ms →
    Covers charges messageDeficit byteDeficit selected ∧ selected.length ≤ ms.length
  all : (∀ ms, ms <+: candidates → ms ≠ [] → ¬ Covers charges messageDeficit byteDeficit ms) →
    selected = candidates

/-- A longer prefix is enough for what is left once the first candidate is
taken. -/
theorem covers_cons_iff {charges : List (Ref × Nat)} {messageDeficit byteDeficit : Nat}
    {m : Message} {ms : List Message} :
    Covers charges messageDeficit byteDeficit (m :: ms) ↔
      Covers charges (messageDeficit - 1) (byteDeficit - charge charges m) ms := by
  rw [Covers, Covers, List.length_cons, List.map_cons, List.sum_cons]
  omega

/-- What was taken so far makes the deficits smaller. -/
theorem minimalEvictionPrefix_eq (charges : List (Ref × Nat))
    (messageDeficit byteDeficit count bytes : Nat) (ms : List Message) :
    minimalEvictionPrefix charges messageDeficit byteDeficit count bytes ms =
      minimalEvictionPrefix charges (messageDeficit - count) (byteDeficit - bytes) 0 0 ms := by
  induction ms generalizing messageDeficit byteDeficit count bytes with
  | nil => rfl
  | cons m ms ih =>
    have hcond : (messageDeficit ≤ count + 1 ∧ byteDeficit ≤ bytes + charge charges m) ↔
        (messageDeficit - count ≤ 0 + 1 ∧ byteDeficit - bytes ≤ 0 + charge charges m) := by
      omega
    rw [minimalEvictionPrefix, minimalEvictionPrefix, ih, ih (messageDeficit - count),
      Nat.sub_sub, Nat.sub_sub, Nat.zero_add, Nat.zero_add]
    simp only [hcond, Nat.zero_add]

theorem minimalEvictionPrefix_spec (charges : List (Ref × Nat)) (messageDeficit byteDeficit : Nat)
    (candidates : List Message) :
    MinimalSelection charges messageDeficit byteDeficit candidates
      (minimalEvictionPrefix charges messageDeficit byteDeficit 0 0 candidates) := by
  induction candidates generalizing messageDeficit byteDeficit with
  | nil =>
    refine ⟨List.nil_prefix, fun h => absurd rfl h, fun ms hms hne => ?_, fun _ => rfl⟩
    exact absurd (List.prefix_nil.mp hms) hne
  | cons m rest ih =>
    have hfirst : Covers charges messageDeficit byteDeficit [m] ↔
        messageDeficit ≤ 1 ∧ byteDeficit ≤ charge charges m := by
      simp [Covers]
    rw [minimalEvictionPrefix, Nat.zero_add, Nat.zero_add, minimalEvictionPrefix_eq]
    split
    · rename_i henough
      have hcovers := hfirst.mpr henough
      refine ⟨⟨rest, rfl⟩, fun _ => List.cons_ne_nil m [], fun ms _ hne _ => ⟨hcovers, ?_⟩,
        fun hnone => absurd hcovers (hnone [m] ⟨rest, rfl⟩ (List.cons_ne_nil m []))⟩
      exact List.length_pos_iff.mpr hne
    · rename_i hshort
      have hcovers := mt hfirst.mp hshort
      obtain ⟨hinitial, hnonempty, hshortest, hall⟩ :=
        ih (messageDeficit - 1) (byteDeficit - charge charges m)
      refine ⟨List.cons_prefix_cons.mpr ⟨rfl, hinitial⟩, fun _ => List.cons_ne_nil _ _, ?_, ?_⟩
      · -- a prefix that is enough has a second message
        intro ms hms hne hms'
        obtain ⟨x, tail, rfl⟩ := List.exists_cons_of_ne_nil hne
        obtain ⟨rfl, htail⟩ := List.cons_prefix_cons.mp hms
        have htne : tail ≠ [] := by
          rintro rfl
          exact hcovers hms'
        obtain ⟨hselected, hle⟩ := hshortest tail htail htne (covers_cons_iff.mp hms')
        exact ⟨covers_cons_iff.mpr hselected, Nat.succ_le_succ hle⟩
      · intro hnone
        rw [hall fun ms hms hne hms' => ?_]
        exact hnone (m :: ms) (List.cons_prefix_cons.mpr ⟨rfl, hms⟩) (List.cons_ne_nil _ _)
          (covers_cons_iff.mpr hms')

theorem eligibleReplicaMessages_oldest_first (s : Replica) (channel : Option Ref)
    (authority : String) (limit : Nat) (guarded locked : List Ref) :
    (eligibleReplicaMessages cfg s channel authority limit guarded locked).Pairwise
      fun m n => m.ref ≤ n.ref := by
  have hsorted := @List.pairwise_mergeSort Message (fun m n => decide (m.ref ≤ n.ref))
    (fun a b c hab hbc => decide_eq_true ((of_decide_eq_true hab).trans (of_decide_eq_true hbc)))
    (fun a b => by simpa using le_total a.ref b.ref)
    (s.messages.filter (eligible cfg s channel authority (guarded ++ locked)))
  refine (hsorted.sublist (List.take_sublist limit _)).imp fun h => of_decide_eq_true h

/-! ## Rounds -/

section

variable {locks : Nat → List Ref} {channel incoming : Ref} {authority : String} {delta : Delta}
  {guarded : List Ref}

/-- What a round does, here and in `Kaede.DmCache`: it is the last one and
leaves the ledger as it is, or it drops messages and goes on. -/
theorem pruneRounds_cases (n budget : Nat) (st : Store) (affected : List Ref) :
    (∃ outcome,
      (∀ fuel, pruneRounds cfg locks channel authority incoming delta guarded (fuel + 1) n st budget
        affected = some outcome) ∧
      (∀ rounds, pruneLoop cfg channel authority incoming delta guarded
        (readRound cfg st channel authority (locks n) :: rounds) st.replica budget affected =
          outcome.map (·.replica)) ∧
      ∀ st', outcome = .ok st' → st'.ledger = st.ledger) ∨
    ∃ m ms replica, 0 < budget ∧
      (∀ fuel, pruneRounds cfg locks channel authority incoming delta guarded (fuel + 1) n st budget
        affected = pruneRounds cfg locks channel authority incoming delta guarded fuel (n + 1)
          ⟨replica, st.ledger.release (m :: ms)⟩ (budget - (m :: ms).length)
          (affected ++ (m :: ms).map (·.channel))) ∧
      ∀ rounds, pruneLoop cfg channel authority incoming delta guarded
        (readRound cfg st channel authority (locks n) :: rounds) st.replica budget affected =
          pruneLoop cfg channel authority incoming delta guarded rounds replica
            (budget - (m :: ms).length) (affected ++ (m :: ms).map (·.channel)) := by
  have hread : (readRound cfg st channel authority (locks n)).usage =
    readUsage cfg st.ledger channel authority := rfl
  simp only [pruneRounds, pruneLoop, hread]
  by_cases hbudget : budget = 0
  · refine .inl ⟨.ok (st.refreshAll incoming affected), ?_, ?_, ?_⟩
    · simp only [if_pos hbudget, implies_true]
    · simp only [if_pos hbudget]
      exact fun _ => rfl
    · rintro st' ⟨⟩
      rfl
  simp only [if_neg hbudget]
  cases husage : readUsage cfg st.ledger channel authority with
  | none =>
    refine .inl ⟨.ok st, fun _ => rfl, fun _ => rfl, ?_⟩
    rintro st' ⟨⟩
    rfl
  | some usage =>
    by_cases hover : ¬ (deficits cfg usage incoming delta).over
    · refine .inl ⟨.ok (st.refreshAll incoming affected), ?_, ?_, ?_⟩
      · simp only [if_pos hover, implies_true]
      · simp only [if_pos hover]
        exact fun _ => rfl
      · rintro st' ⟨⟩
        rfl
    simp only [if_neg hover]
    cases hselected : selectRound cfg st.replica channel authority
      (deficits cfg usage incoming delta) (min 500 budget) guarded
      (readRound cfg st channel authority (locks n)) with
    | nil =>
      refine .inl ⟨.ok (st.refreshAll incoming affected), fun _ => rfl, fun _ => rfl, ?_⟩
      rintro st' ⟨⟩
      rfl
    | cons m ms =>
      simp only
      cases hevict : evictAll cfg st.replica (m :: ms) with
      | error fault =>
        refine .inl ⟨.error fault, fun _ => rfl, fun _ => rfl, ?_⟩
        rintro st' ⟨⟩
      | ok replica =>
        refine .inr ⟨m, ms, replica, Nat.pos_of_ne_zero hbudget, fun _ => rfl, fun _ => rfl⟩

/-- A round that drops something drops no more than it may, so the rounds
that may follow are fewer. -/
theorem pruneRounds_total {fuel budget : Nat} (hfuel : budget < fuel) (n : Nat) (st : Store)
    (affected : List Ref) :
    ∃ outcome, ∀ fuel', fuel ≤ fuel' →
      pruneRounds cfg locks channel authority incoming delta guarded fuel' n st budget affected =
        some outcome := by
  induction fuel generalizing budget n st affected with
  | zero => exact absurd hfuel (Nat.not_lt_zero budget)
  | succ fuel ih =>
    have hstep : ∃ outcome, ∀ fuel', fuel ≤ fuel' →
        pruneRounds cfg locks channel authority incoming delta guarded (fuel' + 1) n st budget
          affected = some outcome := by
      obtain ⟨outcome, hlast, -⟩ | ⟨m, ms, replica, hpos, hnext, -⟩ :=
        @pruneRounds_cases cfg locks channel incoming authority delta guarded n budget st affected
      · exact ⟨outcome, fun fuel' _ => hlast fuel'⟩
      · simp only [hnext]
        refine ih ?_ _ _ _
        rw [List.length_cons]
        omega
    obtain ⟨outcome, houtcome⟩ := hstep
    refine ⟨outcome, fun fuel' hle => ?_⟩
    obtain ⟨fuel', rfl⟩ : ∃ k, fuel' = k + 1 := ⟨fuel' - 1, by omega⟩
    exact houtcome fuel' (by omega)

/-- The rounds are those of `Kaede.DmCache`, on the readings made here, and
no row of a conversation is dropped. -/
theorem pruneRounds_refines {fuel n budget : Nat} {st : Store} {affected : List Ref}
    {outcome : Except Fault Store}
    (h : pruneRounds cfg locks channel authority incoming delta guarded fuel n st budget affected =
      some outcome) :
    (∃ rounds, pruneLoop cfg channel authority incoming delta guarded rounds st.replica budget
      affected = outcome.map (·.replica)) ∧
      ∀ st', outcome = .ok st' → st'.ledger.usage = st.ledger.usage := by
  induction fuel generalizing n budget st affected with
  | zero => cases h
  | succ fuel ih =>
    obtain ⟨outcome', hlast, hloop, hledger⟩ | ⟨m, ms, replica, -, hnext, hloop⟩ :=
      @pruneRounds_cases cfg locks channel incoming authority delta guarded n budget st affected
    · obtain rfl := Option.some.inj ((hlast fuel).symm.trans h)
      exact ⟨⟨_, hloop []⟩, fun st' hst' => congrArg Ledger.usage (hledger st' hst')⟩
    · rw [hnext] at h
      obtain ⟨⟨rounds, hrounds⟩, husage⟩ := ih h
      exact ⟨⟨_, (hloop rounds).trans hrounds⟩, husage⟩

end

/-! ## Totals after a message is stored -/

/-- The charges of a message that is stored, no more than was asked for. -/
structure Charged (a : Incoming) (charges : List RowCharge) : Prop where
  conversation : ∀ r ∈ charges, r.conversation = a.channel
  rows : Ledger.countMessages charges ≤ a.delta.messages
  bytes : Ledger.sumBytes charges ≤ a.delta.bytes

/-- One conversation gets more, and a sum over conversations counts it at
most once. -/
theorem sum_map_le_add {l : List Ref} (hnodup : l.Nodup) {f g : Ref → Nat} {k : Ref} {d : Nat}
    (hsame : ∀ j, j ≠ k → g j = f j) (hmore : g k ≤ f k + d) :
    (l.map g).sum ≤ (l.map f).sum + d := by
  induction l with
  | nil => exact Nat.zero_le _
  | cons j l ih =>
    obtain ⟨hnot, hnodup⟩ := List.nodup_cons.mp hnodup
    rw [List.map_cons, List.sum_cons, List.map_cons, List.sum_cons]
    by_cases hj : j = k
    · subst hj
      have hrest : l.map g = l.map f := by
        refine List.map_congr_left fun i hi => hsame i ?_
        rintro rfl
        exact hnot hi
      rw [hrest]
      omega
    · rw [hsame j hj]
      have hle := ih hnodup
      omega

namespace Ledger

theorem nodup_conversationsWhere (q : Ledger) (p : StorageUsage → Bool) :
    (q.conversationsWhere p).Nodup :=
  q.usage.nodupKeys.sublist List.filter_sublist

theorem chargesOf_store (q : Ledger) (charges : List RowCharge) (conversation : Ref) :
    (q.store charges).chargesOf conversation =
      q.chargesOf conversation ++ charges.filter fun r => r.conversation = conversation := by
  rw [chargesOf, store, List.filter_append, chargesOf]

theorem sumBytes_append (l l' : List RowCharge) :
    sumBytes (l ++ l') = sumBytes l + sumBytes l' := by
  rw [sumBytes, List.map_append, List.sum_append]
  rfl

/-- A counter of a conversation after a message is stored: `d` more at most
for its own, the same for every other. -/
theorem counter_store {a : Incoming} {charges : List RowCharge} {d : Nat} (q : Ledger)
    (count : List RowCharge → Nat) (hcount : ∀ l l', count (l ++ l') = count l + count l')
    (hconversation : ∀ r ∈ charges, r.conversation = a.channel) (hle : count charges ≤ d) :
    (∀ j, j ≠ a.channel → count ((q.store charges).chargesOf j) = count (q.chargesOf j)) ∧
      count ((q.store charges).chargesOf a.channel) ≤ count (q.chargesOf a.channel) + d := by
  constructor
  · intro j hj
    have hnone : charges.filter (fun r => r.conversation = j) = [] := by
      refine List.filter_eq_nil_iff.mpr fun r hr => ?_
      rw [hconversation r hr, decide_eq_true_eq]
      exact fun h => hj h.symm
    rw [chargesOf_store, hnone, List.append_nil]
  · have hall : charges.filter (fun r => r.conversation = a.channel) = charges :=
      List.filter_eq_self.mpr fun r hr => decide_eq_true (hconversation r hr)
    rw [chargesOf_store, hall, hcount]
    omega

end Ledger

/-- The totals of a ledger are within the limits. The origin's count when
the origin is another instance. -/
structure WithinLimits (cfg : Settings) (q : Ledger) (channel : Ref) (authority origin : String) :
    Prop where
  conversationMessages : q.messageRows channel ≤ cfg.conversationMessages
  conversationBytes : q.totalBytes channel ≤ cfg.conversationBytes
  authorityMessages : q.rowsWhere (fun v => v.authority = authority) ≤ cfg.authorityMessages
  authorityBytes : q.bytesWhere (fun v => v.authority = authority) ≤ cfg.authorityBytes
  originMessages : origin ≠ cfg.domain →
    q.rowsWhere (fun v => v.remoteOrigin = origin) ≤ cfg.originMessages
  originBytes : origin ≠ cfg.domain →
    q.bytesWhere (fun v => v.remoteOrigin = origin) ≤ cfg.originBytes

/-- The readings that the limits are compared with. -/
theorem checkLimits_cases {st st' : Store} {c : Conversation} {a : Incoming}
    (h : checkLimits cfg st c a = .ok (true, st')) :
    st' = st ∧ ∃ usage, readUsage cfg st.ledger a.channel c.authority = some usage ∧
      forEach (limits cfg usage a.delta) (fun l =>
        ensure (l.2.2.1 ≤ l.2.2.2) (Fault.quotaExceeded l.1 l.2.1 l.2.2.1 l.2.2.2)) = .ok () := by
  unfold checkLimits at h
  split at h
  · cases h
  · rename_i usage husage
    split at h
    · cases h
    · rename_i hchecks
      cases h
      exact ⟨rfl, usage, husage, hchecks⟩

theorem checkLimits_ne_disappeared {st : Store} {c : Conversation} {a : Incoming}
    {u : StorageUsage} (h : st.ledger.usage.lookup a.channel = some u) :
    checkLimits cfg st c a ≠ .error .ledgerDisappeared := by
  unfold checkLimits
  rw [readUsage, h, Option.map_some]
  simp only
  split
  · intro heq
    cases heq
  · intro heq
    cases heq

/-- The limits were checked with the charge of the message on top. -/
theorem withinLimits_of_checkLimits {st st' : Store} {c : Conversation} {a : Incoming}
    (h : checkLimits cfg st c a = .ok (true, st')) :
    ∃ u, st'.ledger.usage.lookup a.channel = some u ∧ ∀ charges, Charged a charges →
      WithinLimits cfg (st'.ledger.store charges) a.channel c.authority u.remoteOrigin := by
  obtain ⟨rfl, usage, husage, hchecks⟩ := checkLimits_cases h
  obtain ⟨u, hu, rfl⟩ := Option.map_eq_some_iff.mp husage
  refine ⟨u, hu, fun charges hcharges => ?_⟩
  have hlimit := forEach_eq_ok.mp hchecks
  simp only [ensure_eq_ok, limits, List.forall_mem_append, List.forall_mem_cons] at hlimit
  obtain ⟨⟨hconvRows, hconvBytes, hauthRows, hauthBytes, -⟩, horigin⟩ := hlimit
  have hrows := st'.ledger.counter_store Ledger.countMessages (fun l l' => List.countP_append)
    hcharges.conversation hcharges.rows
  have hbytes := st'.ledger.counter_store Ledger.sumBytes Ledger.sumBytes_append
    hcharges.conversation hcharges.bytes
  have hrowsWhere : ∀ p, (st'.ledger.store charges).rowsWhere p ≤
      st'.ledger.rowsWhere p + a.delta.messages := fun p =>
    sum_map_le_add (st'.ledger.nodup_conversationsWhere p) hrows.1 hrows.2
  have hbytesWhere : ∀ p, (st'.ledger.store charges).bytesWhere p ≤
      st'.ledger.bytesWhere p + a.delta.bytes := fun p =>
    sum_map_le_add (st'.ledger.nodup_conversationsWhere p) hbytes.1 hbytes.2
  refine ⟨hrows.2.trans hconvRows, hbytes.2.trans hconvBytes, (hrowsWhere _).trans hauthRows,
    (hbytesWhere _).trans hauthBytes, fun hremote => ?_, fun hremote => ?_⟩
  all_goals rw [if_pos hremote, List.forall_mem_cons, List.forall_mem_singleton] at horigin
  · exact (hrowsWhere _).trans horigin.1
  · exact (hbytesWhere _).trans horigin.2

/-! ## Admissions -/

section

variable {locks : Nat → List Ref} {st st' : Store} {c : Conversation} {a : Incoming}

/-- A conversation without a row in the ledger has one instance only. -/
theorem usageForConversation_cases {q : Ledger} {u : Option StorageUsage}
    (h : usageForConversation cfg st.ledger c a = .ok (q, u)) :
    q.usage.lookup a.channel = u ∧
      (u = none → q = st.ledger ∧ a.participantDomains.dedup.length < 2) := by
  unfold usageForConversation at h
  split at h
  · rename_i v hv
    cases h
    exact ⟨hv, nofun⟩
  · rename_i hnone
    split at h
    · rename_i hfew
      cases h
      exact ⟨hnone, fun _ => ⟨rfl, hfew⟩⟩
    · obtain ⟨origin, -, h⟩ := bind_eq_ok.mp h
      cases h
      exact ⟨AList.lookup_insert _, nofun⟩

theorem usageForConversation_ne_disappeared {q : Ledger} :
    usageForConversation cfg q c a ≠ .error .ledgerDisappeared := by
  have horigin : quotaOrigin cfg c a ≠ .error .ledgerDisappeared := by
    unfold quotaOrigin
    split
    · exact nofun
    · split <;> exact nofun
    · exact nofun
  unfold usageForConversation
  split
  · exact nofun
  · split
    · exact nofun
    · cases h : quotaOrigin cfg c a with
      | ok origin => exact nofun
      | error fault =>
        rintro ⟨⟩
        exact horigin h

theorem pruneForAdmission_total :
    ∃ outcome, (∀ fuel, MAX_EVICTIONS_PER_ADMISSION < fuel →
      pruneForAdmission cfg locks fuel st c a = some outcome) ∧
      ∀ st', outcome = .ok st' → st'.ledger.usage = st.ledger.usage := by
  by_cases hskip : c.authority = cfg.domain ∨ ¬ a.available
  · refine ⟨.ok st, fun fuel _ => by rw [pruneForAdmission, if_pos hskip], ?_⟩
    rintro st' ⟨⟩
    rfl
  · obtain ⟨outcome, houtcome⟩ := @pruneRounds_total cfg locks a.channel a.ref c.authority a.delta
      a.guarded _ _ (Nat.lt_succ_self MAX_EVICTIONS_PER_ADMISSION) 0 st []
    refine ⟨outcome, fun fuel hfuel => ?_, (pruneRounds_refines (houtcome _ le_rfl)).2⟩
    rw [pruneForAdmission, if_neg hskip]
    exact houtcome fuel hfuel

theorem pruneForAdmission_refines {fuel : Nat} {st₁ : Store}
    (h : pruneForAdmission cfg locks fuel st c a = some (.ok st₁)) :
    ∃ rounds, (if c.authority ≠ cfg.domain then
        pruneFederatedDmReplica cfg st.replica a.channel c a.available a.ref a.delta a.guarded
          MAX_EVICTIONS_PER_ADMISSION rounds
      else .ok st.replica) = .ok st₁.replica := by
  by_cases hlocal : c.authority = cfg.domain
  · rw [pruneForAdmission, if_pos (.inl hlocal)] at h
    cases h
    exact ⟨[], by rw [if_neg (not_not.mpr hlocal)]⟩
  · simp only [if_pos hlocal, pruneFederatedDmReplica, if_neg hlocal]
    by_cases havailable : a.available
    · rw [pruneForAdmission, if_neg (by simp [hlocal, havailable])] at h
      obtain ⟨rounds, hrounds⟩ := (pruneRounds_refines h).1
      refine ⟨rounds, ?_⟩
      rw [if_neg (not_not.mpr havailable)]
      exact hrounds
    · rw [pruneForAdmission, if_pos (.inr havailable)] at h
      cases h
      exact ⟨[], by rw [if_pos havailable]⟩

/-- An admission is one of `Kaede.DmCache`, on the readings made here. -/
theorem admitMessage_refines {fuel : Nat}
    (h : admitMessage cfg locks fuel st c a = some (.ok (true, st'))) :
    ∃ b : Admission, b.channel = a.channel ∧ b.ref = a.ref ∧ b.delta = a.delta ∧
      b.guarded = a.guarded ∧ b.available = a.available ∧
      admitFederatedDmMessage cfg st.replica c b = .ok st'.replica := by
  unfold admitMessage at h
  split at h
  · cases h
  · cases husage : usageForConversation cfg st.ledger c a with
    | error fault => simp only [husage] at h; cases h
    | ok row =>
      obtain ⟨q, u⟩ := row
      cases u with
      | none =>
        simp only [husage] at h
        cases h
        exact ⟨{
          channel := a.channel, ref := a.ref, delta := a.delta, guarded := a.guarded
          available := a.available, tracked := false, rounds := []
          usage := ⟨"", 0, 0, 0, 0, 0, 0, 0, 0⟩ }, rfl, rfl, rfl, rfl, rfl, rfl⟩
      | some u =>
        simp only [husage] at h
        split at h
        · cases h
        · cases h
        · rename_i st₁ hprune
          obtain ⟨rounds, hrounds⟩ := pruneForAdmission_refines hprune
          obtain ⟨rfl, usage, -, hchecks⟩ := checkLimits_cases (Option.some.inj h)
          refine ⟨{
            channel := a.channel, ref := a.ref, delta := a.delta, guarded := a.guarded
            available := a.available, tracked := true, rounds, usage },
            rfl, rfl, rfl, rfl, rfl, ?_⟩
          simp only [admitFederatedDmMessage, not_true_eq_false, if_false]
          rw [hrounds]
          exact check_bind_eq_ok.mpr ⟨hchecks, rfl⟩

end

/-- An admission ends, whatever other transactions hold. When it lets a
message in, the conversation has no row in the ledger since it has one
instance only, or the totals are within their limits with the message
stored. What a round drops is the shortest part of the candidates, oldest
first, that is enough for both deficits. -/
theorem admitMessage_spec (cfg : Settings) (locks : Nat → List Ref) (st : Store)
    (c : Conversation) (a : Incoming) :
    (∃ result, (∀ fuel, MAX_EVICTIONS_PER_ADMISSION < fuel →
        admitMessage cfg locks fuel st c a = some result) ∧
      result ≠ .error .ledgerDisappeared ∧
      ∀ st', result = .ok (true, st') →
        (st'.ledger.usage.lookup a.channel = none ∧ a.participantDomains.dedup.length < 2) ∨
        ∃ u, st'.ledger.usage.lookup a.channel = some u ∧ ∀ charges, Charged a charges →
          WithinLimits cfg (st'.ledger.store charges) a.channel c.authority u.remoteOrigin) ∧
      (∀ s channel authority limit guarded locked,
        (eligibleReplicaMessages cfg s channel authority limit guarded locked).Pairwise
          fun m n => m.ref ≤ n.ref) ∧
      ∀ charges messageDeficit byteDeficit candidates,
        MinimalSelection charges messageDeficit byteDeficit candidates
          (minimalEvictionPrefix charges messageDeficit byteDeficit 0 0 candidates) := by
  refine ⟨?_, eligibleReplicaMessages_oldest_first, minimalEvictionPrefix_spec⟩
  unfold admitMessage
  split
  · exact ⟨_, fun _ _ => rfl, nofun, nofun⟩
  · cases husage : usageForConversation cfg st.ledger c a with
    | error fault =>
      refine ⟨.error fault, fun _ _ => rfl, ?_, nofun⟩
      rintro ⟨⟩
      exact usageForConversation_ne_disappeared husage
    | ok row =>
      obtain ⟨q, u⟩ := row
      obtain ⟨hrow, hfew⟩ := usageForConversation_cases husage
      cases u with
      | none =>
        obtain ⟨rfl, honly⟩ := hfew rfl
        refine ⟨.ok (true, st), fun _ _ => rfl, nofun, ?_⟩
        rintro st' ⟨⟩
        exact .inl ⟨hrow, honly⟩
      | some u =>
        obtain ⟨outcome, houtcome, hkeeps⟩ :=
          @pruneForAdmission_total cfg locks { st with ledger := q } c a
        cases outcome with
        | error fault =>
          refine ⟨.error (.cache fault), fun fuel hfuel => ?_, nofun, nofun⟩
          simp only [houtcome fuel hfuel]
        | ok st₁ =>
          refine ⟨checkLimits cfg st₁ c a, fun fuel hfuel => ?_, ?_,
            fun st' hst' => .inr (withinLimits_of_checkLimits hst')⟩
          · simp only [houtcome fuel hfuel]
          · have hlookup : st₁.ledger.usage.lookup a.channel = some u := by
              rw [hkeeps st₁ rfl]
              exact hrow
            exact checkLimits_ne_disappeared hlookup

/-- The groups that hold 60 and 40 messages. -/
def sampleGroupOf (i : Nat) : Ref := toLex (if i < 60 then 1 else 2, "a.example")

/-- Two groups on their authority: their origin is this instance, which has room
for no other message of an origin. -/
def sampleGroupStore : Store where
  replica := {
    messages := (List.range 100).map fun i =>
      { ref := toLex (10 + i, "b.example"), channel := sampleGroupOf i } }
  ledger := {
    usage := (AList.singleton (toLex (1, "a.example")) ⟨"a.example", "a.example"⟩).insert
      (toLex (2, "a.example")) ⟨"a.example", "a.example"⟩
    charges := (List.range 100).map fun i =>
      ⟨.message, "b.example", toLex (10 + i, "b.example"), sampleGroupOf i, 4096⟩ }

/-- A message for the second group. -/
def sampleGroup : Incoming where
  channel := toLex (2, "a.example")
  type := .group
  participantDomains := ["a.example", "b.example", "c.example"]
  ref := toLex (200, "b.example")
  delta := ⟨1, 4096⟩
  available := false

/-- The least limits that are accepted, and an authority's that are above
them. -/
def sampleGroupSettings : Settings :=
  ⟨"a.example", 100, 1048576, 100, 1048576, 1000, 2097152, 100, 1048576⟩

/-- The limits of the origin are passed over there: the authority's limits
are the ones that count. -/
theorem origin_limit_passed_over :
    ¬ ∀ (cfg : Settings) (locks : Nat → List Ref) (st st' : Store) (c : Conversation)
      (a : Incoming) (u : StorageUsage) (charges : List RowCharge),
      admitMessage cfg locks (MAX_EVICTIONS_PER_ADMISSION + 1) st c a = some (.ok (true, st')) →
      st'.ledger.usage.lookup a.channel = some u → Charged a charges →
      (st'.ledger.store charges).rowsWhere (fun v => v.remoteOrigin = u.remoteOrigin) ≤
        cfg.originMessages := by
  intro h
  have htotal := h sampleGroupSettings (fun _ => []) sampleGroupStore sampleGroupStore
    { authority := "a.example" } sampleGroup ⟨"a.example", "a.example"⟩
    [⟨.message, "b.example", toLex (200, "b.example"), toLex (2, "a.example"), 4096⟩]
    rfl rfl ⟨by decide, by decide, by decide⟩
  exact absurd htotal (by decide +kernel)

end DmCache

end Kaede
