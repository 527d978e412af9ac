import Mathlib.Data.List.Nodup
import Mathlib.Data.List.Sort
import Kaede.Runs

/-!
# The message timeline of the web client

A channel view keeps one array of messages
(`frontend/src/lib/chat/reconcile.ts`). An optimistic send puts an entry
with a temporary id and a nonce into it; the response of the send, the
gateway's echo and history snapshots replace that entry or find the one
they are about by its entity key. Every call sorts the array and cuts it
to its newest part.

Two entries with one key are possible: the entry found by nonce is
overwritten without a look at the keys of the others.
`timeline_unique_run` says that this is the only way.
-/

namespace Kaede

namespace Timeline

inductive SafetyState where
  | pendingReview
  | removed
deriving DecidableEq, Repr

inductive DeliveryStatus where
  | pending
  | retrying
  | delivered
  | failed
deriving DecidableEq, Repr

/-- An `e2ee` envelope; `rest` stands for its other members. -/
structure Envelope where
  ciphertext : Option String
  rest : String := ""
deriving DecidableEq, Repr

/-- The members of a `Message` that the timeline reads or writes; `body`
stands for all others. An absent flag is `false`. -/
structure Message where
  id : String
  originDomain : String
  createdAt : String
  clientNonce : Option String := none
  pending : Bool := false
  queued : Bool := false
  failed : Bool := false
  failureReason : Option String := none
  retryable : Option Bool := none
  deliveryStatus : Option DeliveryStatus := none
  safetyState : Option SafetyState := none
  safetyUpdatedAt : Option String := none
  safetyUnavailable : Bool := false
  safetyLocked : Bool := false
  e2ee : Option Envelope := none
  e2eeVerified : Bool := false
  deletedAt : Option String := none
  body : String := ""
deriving DecidableEq, Repr

def Message.entityKey (m : Message) : String := m.id ++ "@" ++ m.originDomain

/-- An absent or empty string is falsy. -/
def truthy (s : Option String) : Prop := s.getD "" ≠ ""

instance (s : Option String) : Decidable (truthy s) := inferInstanceAs (Decidable (_ ≠ _))

/-- A comparison that orders the elements of a list, two ways round alike. -/
structure ConsistentOn {α : Type*} (cmp : α → α → Int) (l : List α) : Prop where
  refl : ∀ a ∈ l, cmp a a = 0
  neg_iff : ∀ a ∈ l, ∀ b ∈ l, cmp a b < 0 ↔ 0 < cmp b a
  trans : ∀ a ∈ l, ∀ b ∈ l, ∀ c ∈ l, cmp a b ≤ 0 → cmp b c ≤ 0 → cmp a c ≤ 0

/-- `Array.prototype.sort`. It keeps the elements, and where the comparison is
consistent the result is the stable one. Otherwise the language leaves the
order to the engine. -/
structure ArraySort where
  sort : (Message → Message → Int) → List Message → List Message
  perm : ∀ cmp messages, (sort cmp messages).Perm messages
  stable : ∀ cmp messages, ConsistentOn cmp messages →
    sort cmp messages = messages.insertionSort fun left right => cmp left right ≤ 0

/-- What the browser decides: collation, `Date.parse` (`none` is `NaN`),
`toLocaleString` and the sort of an array. -/
structure Browser where
  localeCompare : String → String → Int
  dateParse : String → Option Int
  toLocaleString : Int → String
  arraySort : ArraySort

/-! ## Content safety -/

/-- `authorizationKey`. -/
def authorizationKey (m : Message) : String × String × Option Envelope × String :=
  (m.entityKey, m.createdAt, m.e2ee, m.body)

/-- The tables of the content safety module, by entity reference. -/
structure ContentSafety where
  messages : List String := []
  releasedMessages : List String := []
  freshMessages : List (String × String × String × Option Envelope × String) := []

def ContentSafety.permitsSafetyRestoration (safety : ContentSafety) (m : Message) : Bool :=
  m.entityKey ∉ safety.messages ∧ m.safetyState = none ∧ m.safetyLocked = false ∧
    (m.entityKey ∈ safety.releasedMessages ∨
      safety.freshMessages.lookup m.entityKey = some (authorizationKey m))

/-- A comparison with `NaN` is false. -/
def Browser.dateBefore (browser : Browser) (a b : String) : Prop :=
  ∃ x ∈ browser.dateParse a, ∃ y ∈ browser.dateParse b, x < y

instance (browser : Browser) (a b : String) : Decidable (browser.dateBefore a b) :=
  inferInstanceAs (Decidable (∃ _, _ ∧ _))

def staleSafetyUpdate (browser : Browser) (message update : Message) : Bool :=
  update.safetyState = some .pendingReview ∧ truthy message.safetyUpdatedAt ∧
    (¬ truthy update.safetyUpdatedAt ∨
      browser.dateBefore (update.safetyUpdatedAt.getD "") (message.safetyUpdatedAt.getD "") ∨
      update.safetyUpdatedAt = message.safetyUpdatedAt ∧
        message.safetyState ≠ some .pendingReview)

/-! ## Order -/

/-- `/^\d+$/`. -/
def decimal (s : String) : Bool := s.toList ≠ [] ∧ s.toList.all Char.isDigit

def compareMessages (browser : Browser) (left right : Message) : Int :=
  if decimal left.id ∧ decimal right.id then
    if left.id = right.id then browser.localeCompare left.originDomain right.originDomain
    else if Nat.ofDigitChars 10 left.id.toList 0 < Nat.ofDigitChars 10 right.id.toList 0 then -1
    else 1
  else browser.localeCompare left.createdAt right.createdAt

def sortMessages (browser : Browser) (messages : List Message) : List Message :=
  browser.arraySort.sort (compareMessages browser) messages

/-- `slice(start)`; a negative start counts from the end. -/
def sliceFrom (messages : List Message) (start : Int) : List Message :=
  messages.drop (if start < 0 then messages.length + start else start).toNat

/-! ## The calls -/

/-- The provisional entry that an incoming message confirms. -/
def pendingIndex (existing : List Message) (incoming : Message) : Option Nat :=
  existing.findIdx? fun item =>
    truthy item.clientNonce ∧ item.clientNonce = incoming.clientNonce ∧
      (item.pending || item.queued || item.failed)

/-- What an entry with the incoming key becomes. -/
def refreshed (browser : Browser) (safety : ContentSafety) (current incoming : Message) : Message :=
  if ¬ staleSafetyUpdate browser current incoming ∧
      (current.safetyState = some .pendingReview ∨ current.safetyUnavailable) ∧
      safety.permitsSafetyRestoration incoming then
    incoming
  else
    match incoming.e2ee with
    | some envelope =>
        if incoming.e2eeVerified ∧ ¬ current.e2eeVerified ∧ ¬ truthy current.deletedAt ∧
            envelope.ciphertext = current.e2ee.bind Envelope.ciphertext then
          incoming
        else current
    | none => current

/-- The array before it is sorted. -/
def place (browser : Browser) (safety : ContentSafety) (existing : List Message)
    (incoming : Message) : List Message :=
  match pendingIndex existing incoming with
  | some pending => existing.set pending incoming
  | none =>
      match existing.findIdx? fun item => item.entityKey = incoming.entityKey with
      | some index => existing.modify index fun current => refreshed browser safety current incoming
      | none => existing ++ [incoming]

def reconcileMessage (browser : Browser) (safety : ContentSafety) (existing : List Message)
    (incoming : Message) (limit : Int) : List Message :=
  sliceFrom (sortMessages browser (place browser safety existing incoming)) (-limit)

structure Failure where
  reason : Option String := none
  retryable : Option Bool := none
deriving DecidableEq, Repr

def failPendingMessage (existing : List Message) (nonce : String) (failure : Failure) :
    List Message :=
  existing.map fun item =>
    if item.clientNonce = some nonce ∧ item.pending then
      { item with
        pending := false
        failed := true
        failureReason := failure.reason
        retryable := some (failure.retryable.getD true) }
    else item

/-- The limit a call without one has. -/
def defaultLimit : Int := 250

structure SnapshotOptions where
  authoritative : Bool := false
  complete : Bool := false
  limit : Int := defaultLimit
  preserveNonces : List String := []
deriving DecidableEq, Repr

/-- `Number.MAX_SAFE_INTEGER`. -/
def maxSafeInteger : Int := 9007199254740991

/-- The entries a snapshot leaves in place. -/
def keptMessages (browser : Browser) (existing snapshot : List Message)
    (options : SnapshotOptions) : List Message :=
  existing.filter fun message =>
    if ("pending-".toList.isPrefixOf message.id.toList || message.pending || message.queued ||
          message.failed) ∨
        truthy message.clientNonce ∧ message.clientNonce.getD "" ∈ options.preserveNonces then
      true
    else if ¬ options.authoritative then true
    else if options.complete then false
    else
      match snapshot with
      | [] => true
      | oldest :: _ => compareMessages browser message oldest < 0

/-- A snapshot message whose safety state is older than the entry's gives
way to that entry. -/
def snapshotMessage (browser : Browser) (existing : List Message) (message : Message) : Message :=
  match existing.find? fun item => item.entityKey = message.entityKey with
  | some previous => if staleSafetyUpdate browser previous message then previous else message
  | none => message

def mergeAll (browser : Browser) (safety : ContentSafety) (existing merged : List Message) :
    List Message → List Message
  | [] => merged
  | message :: snapshot =>
      mergeAll browser safety existing
        (reconcileMessage browser safety merged (snapshotMessage browser existing message)
          maxSafeInteger) snapshot

def mergeMessageSnapshot (browser : Browser) (safety : ContentSafety)
    (existing snapshot : List Message) (options : SnapshotOptions) : List Message :=
  sliceFrom (sortMessages browser
    (mergeAll browser safety existing (keptMessages browser existing snapshot options) snapshot))
    (-options.limit)

/-! ## Delivery updates -/

structure MessageDeliveryUpdate where
  messageId : String
  messageDomain : String
  status : DeliveryStatus
  code : Option String := none
  reason : Option String := none
  timeoutUntil : Option String := none
  timeoutIndefinite : Bool := false
deriving DecidableEq, Repr

def timeoutDuration (browser : Browser) (update : MessageDeliveryUpdate) : String :=
  if update.timeoutIndefinite then "indefinitely"
  else
    match (if truthy update.timeoutUntil then update.timeoutUntil.bind browser.dateParse
      else none) with
    | some time => "until " ++ browser.toLocaleString time
    | none => "in this guild"

/-- `messageDeliveryFailure`: the reason shown, and whether a retry helps. -/
def messageDeliveryFailure (browser : Browser) (update : MessageDeliveryUpdate) :
    Option String × Bool :=
  match update.code with
  | some "MEMBER_TIMED_OUT" =>
      (some ("You are timed out " ++ timeoutDuration browser update ++ "." ++
        (if truthy update.reason then " Reason: " ++ update.reason.getD "" else "")), false)
  | some "MISSING_PERMISSIONS" =>
      (some "You no longer have permission to send messages here.", false)
  | some "FEDERATED_DM_STORAGE_QUOTA_EXCEEDED" | some "KAED_FED_DM_STORAGE_QUOTA_EXCEEDED" =>
      (some ("The receiving instance is out of direct-message cache capacity. Your message was " ++
        "not delivered; try again later or contact that instance’s administrator."), true)
  | some "FEDERATION_IDENTITY_STORAGE_QUOTA_EXCEEDED"
  | some "KAED_FED_IDENTITY_STORAGE_QUOTA_EXCEEDED" =>
      (some ("The receiving instance cannot retain another remote account record, so this " ++
        "message was not delivered. Try again later or contact that instance’s " ++
        "administrator."), true)
  | some "FEDERATION_INSTANCE_STORAGE_QUOTA_EXCEEDED"
  | some "KAED_FED_INSTANCE_STORAGE_QUOTA_EXCEEDED" =>
      (some ("The receiving instance cannot retain another remote server record, so this " ++
        "message was not delivered. Try again later or contact that instance’s " ++
        "administrator."), true)
  | some "KAED_FED_INBOX_QUOTA_EXCEEDED" =>
      (some ("The receiving instance is temporarily full of federation events, so this message " ++
        "was not delivered. Try again later."), true)
  | some "KAED_FED_OUTBOX_CAPACITY_EXCEEDED" =>
      (some ("The receiving instance’s outbound federation queue is full. Kaede is retrying " ++
        "automatically."), true)
  | some "KAED_FED_REPLICA_QUOTA_EXCEEDED" =>
      (some ("The receiving instance paused this remote conversation because its replica cache " ++
        "is full. Try again later or contact that instance’s administrator."), true)
  | some "KAED_FED_DELIVERY_EXPIRED" =>
      (some ("The remote instance did not accept this message before the delivery window ended. " ++
        "Try again later."), true)
  | some "KAED_FED_EVENT_TOO_LARGE" =>
      (some ("This message is too large to send between instances. Reduce its size and try " ++
        "again."), false)
  | _ => (none, true)

def messageDeliveryRetryingReason (update : MessageDeliveryUpdate) : String :=
  match update.code with
  | some "FEDERATED_DM_STORAGE_QUOTA_EXCEEDED" | some "KAED_FED_DM_STORAGE_QUOTA_EXCEEDED" =>
      "The receiving instance is out of direct-message cache capacity. Kaede will keep retrying " ++
        "automatically."
  | some "FEDERATION_IDENTITY_STORAGE_QUOTA_EXCEEDED"
  | some "KAED_FED_IDENTITY_STORAGE_QUOTA_EXCEEDED" =>
      "The receiving instance cannot retain another remote account record yet. Kaede will keep " ++
        "retrying automatically."
  | some "FEDERATION_INSTANCE_STORAGE_QUOTA_EXCEEDED"
  | some "KAED_FED_INSTANCE_STORAGE_QUOTA_EXCEEDED" =>
      "The receiving instance cannot retain another remote server record yet. Kaede will keep " ++
        "retrying automatically."
  | some "KAED_FED_INBOX_QUOTA_EXCEEDED" =>
      "The receiving instance is temporarily full of federation events. " ++
        "Kaede will keep retrying automatically."
  | some "KAED_FED_OUTBOX_CAPACITY_EXCEEDED" =>
      "The receiving instance’s outbound federation queue is full. Kaede will keep retrying " ++
        "automatically."
  | some "KAED_FED_REPLICA_QUOTA_EXCEEDED" =>
      "The receiving instance paused this remote conversation because its " ++
        "replica cache is full. Kaede will keep retrying automatically."
  | _ =>
      "The receiving instance is temporarily at capacity. Kaede will keep retrying automatically."

def deliveryUpdated (browser : Browser) (update : MessageDeliveryUpdate) (message : Message) :
    Message :=
  let failure := messageDeliveryFailure browser update
  { message with
    deliveryStatus := some update.status
    failed := update.status = .failed
    failureReason :=
      if update.status = .failed then failure.1
      else if update.status = .retrying then some (messageDeliveryRetryingReason update)
      else none
    retryable := if update.status = .failed then some failure.2 else none }

/-- `applyMessageDeliveryUpdate`: the messages, and whether one matched. -/
def applyMessageDeliveryUpdate (browser : Browser) (existing : List Message)
    (update : MessageDeliveryUpdate) : List Message × Bool :=
  let isTarget (m : Message) : Bool :=
    m.id = update.messageId ∧ m.originDomain = update.messageDomain
  (existing.map fun m => if isTarget m then deliveryUpdated browser update m else m,
    existing.any isTarget)

/-! ## One entry for each key -/

/-- The calls that change a timeline. The tables of the content safety
module change on their own, so a call carries what it finds there. -/
inductive Call where
  | reconcileMessage (safety : ContentSafety) (incoming : Message) (limit : Int)
  | mergeMessageSnapshot (safety : ContentSafety) (snapshot : List Message)
      (options : SnapshotOptions)
  | failPendingMessage (nonce : String) (failure : Failure)
  | applyMessageDeliveryUpdate (update : MessageDeliveryUpdate)

def step (browser : Browser) (existing : List Message) : Call → Option (List Message)
  | .reconcileMessage safety incoming limit =>
      some (reconcileMessage browser safety existing incoming limit)
  | .mergeMessageSnapshot safety snapshot options =>
      some (mergeMessageSnapshot browser safety existing snapshot options)
  | .failPendingMessage nonce failure => some (failPendingMessage existing nonce failure)
  | .applyMessageDeliveryUpdate update =>
      some (applyMessageDeliveryUpdate browser existing update).1

def Unique (messages : List Message) : Prop := (messages.map Message.entityKey).Nodup

instance (messages : List Message) : Decidable (Unique messages) :=
  inferInstanceAs (Decidable (List.Nodup _))

/-- A message that confirms a provisional entry by its nonce is not in the
array already, under another entry. -/
def SingleMatch (existing : List Message) (incoming : Message) : Prop :=
  ∀ pending ∈ pendingIndex existing incoming,
    ∀ other ∈ existing.eraseIdx pending, other.entityKey ≠ incoming.entityKey

instance (existing : List Message) (incoming : Message) :
    Decidable (SingleMatch existing incoming) :=
  inferInstanceAs (Decidable (∀ pending ∈ pendingIndex existing incoming, _))

/-- The same of every message of a snapshot, when its turn comes. -/
def SnapshotSingleMatch (browser : Browser) (safety : ContentSafety)
    (existing merged : List Message) : List Message → Prop
  | [] => True
  | message :: snapshot =>
      SingleMatch merged (snapshotMessage browser existing message) ∧
      SnapshotSingleMatch browser safety existing
        (reconcileMessage browser safety merged (snapshotMessage browser existing message)
          maxSafeInteger) snapshot

/-- Every message that a call reconciles has at most one match. -/
def NoDoubleMatch (browser : Browser) (existing : List Message) : Call → Prop
  | .reconcileMessage _ incoming _ => SingleMatch existing incoming
  | .mergeMessageSnapshot safety snapshot options =>
      SnapshotSingleMatch browser safety existing
        (keptMessages browser existing snapshot options) snapshot
  | .failPendingMessage .. | .applyMessageDeliveryUpdate _ => True

section

variable {browser : Browser} {safety : ContentSafety} {existing merged : List Message}
  {incoming : Message}

theorem Unique.sort (h : Unique existing) : Unique (sortMessages browser existing) :=
  (((browser.arraySort.perm _ existing).map Message.entityKey).nodup_iff).mpr h

theorem Unique.sublist (h : Unique existing) (hsub : merged.Sublist existing) : Unique merged :=
  List.Nodup.sublist (hsub.map Message.entityKey) h

theorem Unique.sliceFrom (h : Unique existing) (start : Int) : Unique (sliceFrom existing start) :=
  h.sublist (List.drop_sublist _ _)

theorem refreshed_key {current : Message} (h : current.entityKey = incoming.entityKey) :
    (refreshed browser safety current incoming).entityKey = current.entityKey := by
  unfold refreshed
  split
  · exact h.symm
  · split
    · split
      · exact h.symm
      · rfl
    · rfl

/-- Overwriting one entry keeps the keys distinct exactly when no other
entry has the new key. -/
theorem unique_set_iff {pending : Nat} (hpending : pending < existing.length)
    (h : Unique existing) : Unique (existing.set pending incoming) ↔
      ∀ other ∈ existing.eraseIdx pending, other.entityKey ≠ incoming.entityKey := by
  have hperm : (existing.set pending incoming).Perm (incoming :: existing.eraseIdx pending) := by
    rw [List.set_eq_take_append_cons_drop, if_pos hpending, List.eraseIdx_eq_take_drop_succ]
    exact List.perm_middle
  have herase : ((existing.eraseIdx pending).map Message.entityKey).Nodup :=
    h.sublist (List.eraseIdx_sublist _ _)
  rw [Unique, (hperm.map Message.entityKey).nodup_iff, List.map_cons, List.nodup_cons,
    and_iff_left herase, List.mem_map]
  simp

theorem Unique.append_single (h : Unique existing)
    (hnew : ∀ other ∈ existing, other.entityKey ≠ incoming.entityKey) :
    Unique (existing ++ [incoming]) := by
  rw [Unique, List.map_append, List.map_singleton, List.nodup_append_comm]
  exact List.nodup_cons.mpr ⟨by simpa using hnew, h⟩

theorem Unique.modify_key (h : Unique existing) {index : Nat} {f : Message → Message}
    (hkey : ∀ m, existing[index]? = some m → (f m).entityKey = m.entityKey) :
    Unique (existing.modify index f) := by
  have hkeys : (existing.modify index f).map Message.entityKey =
      existing.map Message.entityKey := by
    refine List.ext_getElem? fun i => ?_
    rw [List.getElem?_map, List.getElem?_map, List.getElem?_modify]
    by_cases hi : index = i
    · subst hi
      cases hm : existing[index]? with
      | none => rfl
      | some m => simp [hkey m hm]
    · simp [hi]
  rw [Unique, hkeys]
  exact h

/-- One message leaves the keys distinct exactly when it has a single
match. -/
theorem unique_place_iff (h : Unique existing) :
    Unique (place browser safety existing incoming) ↔ SingleMatch existing incoming := by
  unfold place SingleMatch
  cases hpending : pendingIndex existing incoming with
  | some pending =>
      have hlt : pending < existing.length := (List.findIdx?_eq_some_iff_findIdx_eq.mp hpending).1
      simpa using unique_set_iff hlt h
  | none =>
      refine iff_of_true ?_ (by simp)
      cases hindex : existing.findIdx? fun item => item.entityKey = incoming.entityKey with
      | some index =>
          refine h.modify_key fun m hm => refreshed_key ?_
          obtain ⟨hlt, hkey, -⟩ := List.findIdx?_eq_some_iff_getElem.mp hindex
          rw [List.getElem?_eq_getElem hlt] at hm
          obtain rfl := Option.some.inj hm
          simpa using hkey
      | none =>
          refine h.append_single fun other hother => ?_
          simpa using List.findIdx?_eq_none_iff.mp hindex other hother

theorem Unique.reconcileMessage (h : Unique existing) (hmatch : SingleMatch existing incoming)
    (limit : Int) : Unique (reconcileMessage browser safety existing incoming limit) :=
  Unique.sliceFrom (Unique.sort ((unique_place_iff h).mpr hmatch)) _

theorem Unique.mergeAll {snapshot : List Message} (h : Unique merged)
    (hmatch : SnapshotSingleMatch browser safety existing merged snapshot) :
    Unique (mergeAll browser safety existing merged snapshot) := by
  induction snapshot generalizing merged with
  | nil => exact h
  | cons message snapshot ih => exact ih (h.reconcileMessage hmatch.1 _) hmatch.2

theorem Unique.map_key (h : Unique existing) {f : Message → Message}
    (hkey : ∀ m, (f m).entityKey = m.entityKey) : Unique (existing.map f) := by
  have hkeys : Message.entityKey ∘ f = Message.entityKey := funext hkey
  rw [Unique, List.map_map, hkeys]
  exact h

theorem unique_step {call : Call} (h : Unique existing)
    (hmatch : NoDoubleMatch browser existing call)
    (hstep : step browser existing call = some merged) : Unique merged := by
  cases call with
  | reconcileMessage safety incoming limit =>
      obtain rfl := Option.some.inj hstep
      exact h.reconcileMessage hmatch limit
  | mergeMessageSnapshot safety snapshot options =>
      obtain rfl := Option.some.inj hstep
      have hkept : Unique (keptMessages browser existing snapshot options) :=
        h.sublist List.filter_sublist
      exact (hkept.mergeAll hmatch).sort.sliceFrom _
  | failPendingMessage nonce failure =>
      obtain rfl := Option.some.inj hstep
      refine h.map_key fun m => ?_
      split <;> rfl
  | applyMessageDeliveryUpdate update =>
      obtain rfl := Option.some.inj hstep
      refine h.map_key fun m => ?_
      split <;> rfl

end

/-- As long as no message matches one entry by nonce and another by key,
every timeline reached from the empty one has distinct keys. -/
theorem timeline_unique_run {browser : Browser} {calls : List Call} {messages : List Message}
    (hrun : Exec (step browser) (NoDoubleMatch browser) [] calls messages) : Unique messages :=
  hrun.invariant (I := Unique) (fun _ _ _ h hmatch hstep => unique_step h hmatch hstep)
    List.nodup_nil

instance decidableSnapshotSingleMatch (browser : Browser) (safety : ContentSafety)
    (existing merged : List Message) (snapshot : List Message) :
    Decidable (SnapshotSingleMatch browser safety existing merged snapshot) :=
  match snapshot with
  | [] => .isTrue trivial
  | message :: snapshot =>
      letI := decidableSnapshotSingleMatch browser safety existing
        (reconcileMessage browser safety merged (snapshotMessage browser existing message)
          maxSafeInteger) snapshot
      inferInstanceAs (Decidable (SingleMatch _ _ ∧ _))

instance (browser : Browser) (existing : List Message) (call : Call) :
    Decidable (NoDoubleMatch browser existing call) :=
  match call with
  | .reconcileMessage _ incoming _ => inferInstanceAs (Decidable (SingleMatch existing incoming))
  | .mergeMessageSnapshot safety snapshot options => inferInstanceAs (Decidable
      (SnapshotSingleMatch browser safety existing (keptMessages browser existing snapshot options)
        snapshot))
  | .failPendingMessage .. | .applyMessageDeliveryUpdate _ => .isTrue trivial

/-- An engine that inserts one element after another. -/
def insertionEngine : ArraySort where
  sort cmp messages := messages.insertionSort fun left right => cmp left right ≤ 0
  perm _ messages := List.perm_insertionSort _ messages
  stable _ _ _ := rfl

/-- Strings compare by their code points, and no date is read. -/
def sampleBrowser : Browser where
  localeCompare a b := if a = b then 0 else if a < b then -1 else 1
  dateParse _ := none
  toLocaleString _ := ""
  arraySort := insertionEngine

/-- A confirmed message, with the nonce its payload carries. -/
def confirmed (id : String) (nonce : Option String) : Message where
  id := id
  originDomain := "chat.example"
  createdAt := "2026-07-20T00:00:00Z"
  clientNonce := nonce

/-- The entry an optimistic send puts into the array. -/
def optimistic : Message := { confirmed "pending-a" (some "a") with pending := true }

def optimisticSend (echoNonce : Option String) : List Call :=
  [.reconcileMessage {} (confirmed "10" none) defaultLimit,
   .reconcileMessage {} optimistic defaultLimit,
   .reconcileMessage {} (confirmed "12" echoNonce) defaultLimit,
   .reconcileMessage {} (confirmed "12" (some "a")) defaultLimit,
   .mergeMessageSnapshot {} [confirmed "10" none, confirmed "12" (some "a")] {}]

/-- The echo carries the nonce: the response finds the entry by its key. -/
theorem timeline_unique_run_send :
    Exec (step sampleBrowser) (NoDoubleMatch sampleBrowser) [] (optimisticSend (some "a"))
      [confirmed "10" none, confirmed "12" (some "a")] ∧
    Unique [confirmed "10" none, confirmed "12" (some "a")] := by
  have hrun : Exec (step sampleBrowser) (NoDoubleMatch sampleBrowser) []
      (optimisticSend (some "a")) [confirmed "10" none, confirmed "12" (some "a")] :=
    Exec.of_runFrom (by decide)
  exact ⟨hrun, timeline_unique_run hrun⟩

/-- The echo carries no nonce, so it is a second entry, and the response
overwrites the provisional one. -/
theorem timeline_unique_fails :
    ¬ ∀ (browser : Browser) (calls : List Call) (messages : List Message),
      Exec (step browser) Always [] calls messages → Unique messages := by
  intro h
  have hrun : Exec (step sampleBrowser) Always [] (optimisticSend none)
      [confirmed "10" none, confirmed "12" (some "a"), confirmed "12" none] :=
    Exec.of_runFrom (by decide)
  exact absurd (h sampleBrowser _ _ hrun) (by decide)

end Timeline

end Kaede
