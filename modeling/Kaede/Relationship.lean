import Mathlib.Data.List.AList
import Kaede.Runs
import Kaede.Shared

/-!
# Relationships at one home

`backend/app/api/relationships.py` (what a local user does) and
`backend/app/federation/relationships.py` (what a peer's event does) both
rewrite rows of one table, keyed by a local user and a target. The effect
on the row of the pair, with a remote target, is a function of that row
alone; these row functions come first, the endpoints around them second.

Every endpoint runs under the advisory lock of the pair, so each call is
one step. A call that raises changes nothing.
-/

namespace Kaede

/-- A row of `relationships`: its type, and its request id where the type
has one. Friend and blocked rows always store `NULL` there. -/
inductive Relation where
  | friend
  | pendingIn (requestId : Option Nat)
  | pendingOut (requestId : Option Nat)
  | blocked
deriving DecidableEq, Repr

/-- The content of an event besides its two users. -/
inductive RelationshipEvent where
  | request (requestId : Option Nat)
  | accept (requestId : Option Nat)
  | remove
  | profile
deriving DecidableEq, Repr

/-- The `detail.code` of a refused call. -/
inductive RelationshipError where
  | cannotFriendSelf
  | cannotBlockSelf
  | relationshipBlocked
  | relationshipConflict
  | friendRequestNotFound
  | userNotFound
deriving DecidableEq, Repr

def RelationshipError.status : RelationshipError → Nat
  | .cannotFriendSelf => 400
  | .cannotBlockSelf => 400
  | .relationshipBlocked => 403
  | .relationshipConflict => 409
  | .friendRequestNotFound => 404
  | .userNotFound => 404

/-- What applying an event raises; `actorRejected` stands for any refusal of
`upsert_remote_user`. -/
inductive EventError where
  | actorMismatch
  | targetNotLocal
  | targetMissing
  | profileUnknownUser
  | quotaRecipient
  | quotaRecipientOrigin
  | quotaOrigin
  | actorRejected
  | selfRelationship
  | requestMissingId
  | acceptMissingId
deriving DecidableEq, Repr

def EventError.message : EventError → String
  | .actorMismatch => "relationship actor profile does not match the envelope actor"
  | .targetNotLocal => "relationship event target is not local"
  | .targetMissing => "relationship event target does not exist"
  | .profileUnknownUser => "relationship profile references an unknown remote user"
  | .quotaRecipient => "recipient pending relationship request quota exceeded"
  | .quotaRecipientOrigin => "origin pending relationship quota for this recipient exceeded"
  | .quotaOrigin => "origin pending relationship request quota exceeded"
  | .actorRejected => "remote user profile changed an immutable identity"
  | .selfRelationship => "a user cannot create a relationship with itself"
  | .requestMissingId => "relationship request is missing its correlation ID"
  | .acceptMissingId => "relationship acceptance is missing its correlation ID"

/-! ## The row of one pair -/

namespace Relation

/-- `request_friendship` on a remote target. -/
def request (row : Option Relation) (fresh : Nat) :
    Except RelationshipError (Option Relation × List RelationshipEvent) :=
  match row with
  | some .blocked => .error .relationshipBlocked
  | some (.pendingOut r) => .ok (some (.pendingOut r), [])
  | some .friend => .ok (some .friend, [])
  | some (.pendingIn none) => .error .relationshipConflict
  | some (.pendingIn (some r)) => .ok (some .friend, [.accept (some r)])
  | none => .ok (some (.pendingOut (some fresh)), [.request (some fresh)])

/-- `accept_friendship` on a remote target. -/
def accept (row : Option Relation) :
    Except RelationshipError (Option Relation × List RelationshipEvent) :=
  match row with
  | some (.pendingIn (some r)) => .ok (some .friend, [.accept (some r)])
  | some (.pendingIn none) => .error .relationshipConflict
  | _ => .error .friendRequestNotFound

/-- Delete the row unless it is a block. -/
def unlessBlocked (row : Option Relation) : Option Relation :=
  if row = some .blocked then row else none

/-- Delete the row if it is a block. -/
def unblocked (row : Option Relation) : Option Relation :=
  if row = some .blocked then none else row

def acceptanceMatches (row : Option Relation) (requestId : Nat) : Prop :=
  row = some (.pendingOut (some requestId))

instance (row : Option Relation) (requestId : Nat) :
    Decidable (acceptanceMatches row requestId) :=
  inferInstanceAs (Decidable (row = some (.pendingOut (some requestId))))

end Relation

/-- `RelationshipApplication`: the new row, the type to announce to the
recipient, and the acceptance to send back, if any. -/
structure RelationshipApplication where
  row : Option Relation
  relationType : Option String
  replies : List RelationshipEvent
deriving DecidableEq, Repr

/-- `apply_relationship_event` from the point where the current row is known. -/
def RelationshipEvent.apply (row : Option Relation) :
    RelationshipEvent → Except EventError RelationshipApplication
  | .request none => .error .requestMissingId
  | .request (some r) =>
      match row with
      | some .blocked => .ok ⟨some .blocked, none, []⟩
      | none => .ok ⟨some (.pendingIn (some r)), some "pending_in", []⟩
      | some (.pendingIn _) => .ok ⟨some (.pendingIn (some r)), some "pending_in", []⟩
      | some _ => .ok ⟨some .friend, some "friend", [.accept (some r)]⟩
  | .accept none => .error .acceptMissingId
  | .accept (some r) =>
      if Relation.acceptanceMatches row r then .ok ⟨some .friend, some "friend", []⟩
      else .ok ⟨row, none, []⟩
  | .remove =>
      match row with
      | none => .ok ⟨none, none, []⟩
      | some .blocked => .ok ⟨some .blocked, none, []⟩
      | some _ => .ok ⟨none, some "none", []⟩
  | .profile => .ok ⟨row, if row = some .friend then some "friend" else none, []⟩

/-! ## The home -/

/-- The three settings that bound pending requests. -/
structure PendingLimits where
  perRecipient : Nat
  perRecipientOrigin : Nat
  perOrigin : Nat
deriving DecidableEq, Repr

structure Home where
  domain : String
  limits : PendingLimits
  users : List UserRef
  rows : AList fun _ : UserRef × UserRef => Relation

structure RelationshipEnvelope where
  /-- The signed actor of the envelope. -/
  actor : UserRef
  contentActor : UserRef
  target : UserRef
  event : RelationshipEvent
  /-- Whether `upsert_remote_user` accepts the profile in the content. -/
  actorAccepted : Bool
deriving DecidableEq, Repr

namespace Home

def row (h : Home) (owner target : UserRef) : Option Relation := h.rows.lookup (owner, target)

def setRow (h : Home) (owner target : UserRef) : Option Relation → Home
  | some r => { h with rows := h.rows.insert (owner, target) r }
  | none => { h with rows := h.rows.erase (owner, target) }

/-- How many pending requests a condition on their owner and target selects. -/
def pendingCount (h : Home) (p : UserRef → UserRef → Bool) : Nat :=
  h.rows.entries.countP fun e =>
    p e.1.1 e.1.2 && match e.2 with | .pendingIn _ => true | _ => false

def admitPendingRelationshipRequest (h : Home) (recipient actor : UserRef) :
    Except EventError Unit :=
  if (h.row recipient actor).isSome then .ok ()
  else if h.limits.perRecipient ≤ h.pendingCount (fun u _ => u = recipient) then
    .error .quotaRecipient
  else if h.limits.perRecipientOrigin
      ≤ h.pendingCount (fun u t => u = recipient && t.domain = actor.domain) then
    .error .quotaRecipientOrigin
  else if h.limits.perOrigin ≤ h.pendingCount (fun _ t => t.domain = actor.domain) then
    .error .quotaOrigin
  else .ok ()

def addUser (h : Home) (u : UserRef) : Home :=
  if u ∈ h.users then h else { h with users := u :: h.users }

/-- The row update of an event whose actor has been accepted. -/
def updateFrom (h : Home) (recipient actor : UserRef) (event : RelationshipEvent) :
    Except EventError (Home × RelationshipApplication) :=
  let h := h.addUser actor
  if actor = recipient then .error .selfRelationship
  else
    match event.apply (h.row recipient actor) with
    | .error e => .error e
    | .ok a => .ok (h.setRow recipient actor a.row, a)

def applyRelationshipEvent (h : Home) (e : RelationshipEnvelope) :
    Except EventError (Home × RelationshipApplication) :=
  if e.contentActor ≠ e.actor then .error .actorMismatch
  else if e.target.domain ≠ h.domain then .error .targetNotLocal
  else if e.target ∉ h.users then .error .targetMissing
  else
    match e.event with
    | .profile =>
        if e.actor ∉ h.users ∨ e.actor.domain = h.domain then .error .profileUnknownUser
        else if h.row e.target e.actor = some .friend ∧ e.actorAccepted = false then
          .error .actorRejected
        else
          match RelationshipEvent.profile.apply (h.row e.target e.actor) with
          | .error x => .error x
          | .ok a => .ok (h, a)
    | .request r =>
        match h.admitPendingRelationshipRequest e.target e.actor with
        | .error x => .error x
        | .ok () =>
            if e.actorAccepted then h.updateFrom e.target e.actor (.request r)
            else .error .actorRejected
    | event =>
        if e.actorAccepted then h.updateFrom e.target e.actor event else .error .actorRejected

/-- `request_friendship`; the handle has been resolved to `target`. -/
def requestFriendship (h : Home) (user target : UserRef) (fresh : Nat) :
    Except RelationshipError (Home × List RelationshipEvent) :=
  let h := h.addUser target
  if target = user then .error .cannotFriendSelf
  else if h.row user target = some .blocked ∨ h.row target user = some .blocked then
    .error .relationshipBlocked
  else if target.domain ≠ h.domain then
    match Relation.request (h.row user target) fresh with
    | .error e => .error e
    | .ok (row, events) => .ok (h.setRow user target row, events)
  else
    match h.row user target, h.row target user with
    | some (.pendingOut _), _ => .ok (h, [])
    | some .friend, _ => .ok (h, [])
    | some (.pendingIn _), some (.pendingOut _) =>
        .ok ((h.setRow user target (some .friend)).setRow target user (some .friend), [])
    | none, none =>
        .ok ((h.setRow user target (some (.pendingOut (some fresh)))).setRow target user
          (some (.pendingIn (some fresh))), [])
    -- with only the reverse row present the insert conflicts and is rolled back
    | _, _ => .error .relationshipConflict

def acceptFriendship (h : Home) (user target : UserRef) :
    Except RelationshipError (Home × List RelationshipEvent) :=
  if target ∉ h.users then .error .userNotFound
  else if target.domain ≠ h.domain then
    match Relation.accept (h.row user target) with
    | .error e => .error e
    | .ok (row, events) => .ok (h.setRow user target row, events)
  else
    match h.row user target, h.row target user with
    | some (.pendingIn _), some (.pendingOut _) =>
        .ok ((h.setRow user target (some .friend)).setRow target user (some .friend), [])
    | _, _ => .error .friendRequestNotFound

def removeRelationship (h : Home) (user target : UserRef) :
    Except RelationshipError (Home × List RelationshipEvent) :=
  if target ∉ h.users then .error .userNotFound
  else
    let removed := h.setRow user target (Relation.unlessBlocked (h.row user target))
    if target.domain ≠ h.domain then .ok (removed, [.remove])
    else .ok (removed.setRow target user (Relation.unlessBlocked (h.row target user)), [])

def blockUser (h : Home) (user target : UserRef) :
    Except RelationshipError (Home × List RelationshipEvent) :=
  if target ∉ h.users then .error .userNotFound
  else if target = user then .error .cannotBlockSelf
  else
    let cleared := h.setRow target user (Relation.unlessBlocked (h.row target user))
    .ok (cleared.setRow user target (some .blocked),
      if target.domain ≠ h.domain then [.remove] else [])

def unblockUser (h : Home) (user target : UserRef) :
    Except RelationshipError (Home × List RelationshipEvent) :=
  if target ∉ h.users then .error .userNotFound
  else .ok (h.setRow user target (Relation.unblocked (h.row user target)), [])

/-- `reconcile_relationship_capacity_rejection`: a request that could not be
delivered is withdrawn, if it is still the outstanding one. -/
def reconcileRejection (h : Home) (user target : UserRef) (requestId : Nat) : Home :=
  if Relation.acceptanceMatches (h.row user target) requestId then h.setRow user target none
  else h

/-! ## Frame lemmas -/

theorem row_setRow (h : Home) (u t u' t' : UserRef) (r : Option Relation) :
    (h.setRow u t r).row u' t' = if (u', t') = (u, t) then r else h.row u' t' := by
  by_cases hk : (u', t') = (u, t)
  · obtain ⟨rfl, rfl⟩ := Prod.mk.inj hk
    rw [if_pos rfl]
    cases r <;> simp [setRow, row]
  · rw [if_neg hk]
    cases r <;> simp [setRow, row, hk]

theorem row_setRow_self (h : Home) (u t : UserRef) (r : Option Relation) :
    (h.setRow u t r).row u t = r := by
  rw [row_setRow, if_pos rfl]

theorem row_setRow_ne (h : Home) {u t u' t' : UserRef} (hk : ¬ (u' = u ∧ t' = t))
    (r : Option Relation) : (h.setRow u t r).row u' t' = h.row u' t' := by
  rw [row_setRow, if_neg]
  intro heq
  exact hk (Prod.mk.inj heq)

theorem row_addUser (h : Home) (x u t : UserRef) : (h.addUser x).row u t = h.row u t := by
  unfold addUser
  split <;> rfl

theorem domain_addUser (h : Home) (x : UserRef) : (h.addUser x).domain = h.domain := by
  unfold addUser
  split <;> rfl

theorem domain_setRow (h : Home) (u t : UserRef) (r : Option Relation) :
    (h.setRow u t r).domain = h.domain := by
  cases r <;> rfl

end Home

end Kaede
