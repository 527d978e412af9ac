import Mathlib.Data.Finset.Card
import Mathlib.Data.Finset.Insert
import Kaede.Runs
import Kaede.Shared

/-!
# Calls in direct and group conversations

A call lives in five Redis keys: the JSON record, the sets of
participants, accepted and declined identities, and the channel's
active-call reference. Three Lua scripts of `backend/app/voice/state.py`
write them, each in one atomic step: `CREATE_CALL_LUA`,
`CALL_TRANSITION_LUA` on the call's authority, and
`APPLY_AUTHORITATIVE_CALL_LUA` on a participant's home that only keeps a
replica. `backend/app/api/calls.py` checks a reply of the authority with
`authoritative_call_record` before it reaches the last script.

The keys of one call get their time to live together and a run here ends
before they lapse, so no TTL is kept. The bot capability bindings of a
record are private to the authority and read by none of the scripts.
-/

namespace Kaede

inductive CallStatus where
  | ringing
  | active
  | ended
deriving DecidableEq, Repr

/-- The action words of the call endpoints and of the two scripts. -/
inductive CallAction where
  | create
  | ring
  | accept
  | decline
  | endCall
  | sync
deriving DecidableEq, Repr

/-- `CALL_IDENTITY_FIELDS`: what no transition may change. -/
structure CallIdentity where
  id : Nat
  channelId : Nat
  channelDomain : String
  authorityDomain : String
  room : String
  createdAt : Int
  caller : UserRef
  participants : List UserRef
deriving DecidableEq, Repr

structure CallRecord where
  identity : CallIdentity
  state : CallStatus
  endedAt : Option Int
deriving DecidableEq, Repr

/-- The keys of one call on one server. -/
structure CallKeys where
  call : Option CallRecord
  participants : Finset UserRef
  accepted : Finset UserRef
  declined : Finset UserRef
  channelCall : Option (Nat × String)
deriving DecidableEq

inductive CallRefusal where
  | missing
  | forbidden
  | ended
  | accepted
  | action
  | mismatch
  | transition
deriving DecidableEq, Repr

/-- What a script returns: `{0, reason}`, `{1, record}` or `{2, record}`. -/
inductive CallReply where
  | refused (reason : CallRefusal)
  | applied (record : CallRecord)
  | unchanged (record : CallRecord)
deriving DecidableEq, Repr

/-- The record of a reply with a status other than `0`. -/
def CallReply.record? : CallReply → Option CallRecord
  | .refused _ => none
  | .applied record => some record
  | .unchanged record => some record

/-! ## Creating a call -/

def callRef (identity : CallIdentity) : Nat × String := (identity.id, identity.authorityDomain)

def dmRoomName (channelId callId : Nat) : String :=
  "d." ++ toString channelId ++ "." ++ toString callId

/-- `CREATE_CALL_LUA`. -/
def createCall (s : CallKeys) (record : CallRecord) (participants accepted : Finset UserRef) :
    Bool × CallKeys :=
  if s.call.isSome then (false, s)
  else if s.channelCall.isSome then (false, s)
  else (true, {
    call := some record
    participants := s.participants ∪ participants
    accepted := s.accepted ∪ accepted
    declined := s.declined
    channelCall := some (callRef record.identity) })

/-- What `start_call` collects before it creates the call. The identities
are a set, listed once in the record, and `require_call_policy` has found
the caller among them. -/
structure NewCall where
  id : Nat
  channelId : Nat
  channelDomain : String
  authorityDomain : String
  createdAt : Int
  caller : UserRef
  participants : List UserRef
  nodup : participants.Nodup
  caller_mem : caller ∈ participants

/-- The record `start_call` builds. -/
def NewCall.record (n : NewCall) : CallRecord where
  identity := {
    id := n.id
    channelId := n.channelId
    channelDomain := n.channelDomain
    authorityDomain := n.authorityDomain
    room := dmRoomName n.channelId n.id
    createdAt := n.createdAt
    caller := n.caller
    participants := n.participants }
  state := .ringing
  endedAt := none

/-- No key of the call exists yet. -/
def CallKeys.empty : CallKeys where
  call := none
  participants := ∅
  accepted := ∅
  declined := ∅
  channelCall := none

/-- The keys after `create_call` with the caller as the only accepted
identity, as all its callers pass it. -/
def NewCall.keys (n : NewCall) : CallKeys :=
  (createCall .empty n.record n.participants.toFinset {n.caller}).2

theorem NewCall.keys_eq (n : NewCall) : n.keys = {
    call := some n.record
    participants := n.participants.toFinset
    accepted := {n.caller}
    declined := ∅
    channelCall := some (n.id, n.authorityDomain) } := by
  simp [NewCall.keys, createCall, CallKeys.empty, callRef, NewCall.record]

/-! ## The authority's transition -/

/-- The common tail of the transition: the record is written back and the
channel's reference dropped when the call has ended. -/
def CallKeys.save (s : CallKeys) (ref : Nat × String) (record : CallRecord) : CallKeys :=
  { s with
    call := some record
    channelCall :=
      if record.state = .ended ∧ s.channelCall = some ref then none else s.channelCall }

/-- `ended` at the given clock reading, never before the call was made. -/
def CallRecord.terminated (record : CallRecord) (now : Int) : CallRecord :=
  { record with state := .ended, endedAt := some (max record.identity.createdAt now) }

/-- `CALL_TRANSITION_LUA`: the reply and the keys afterwards. -/
def callTransition (s : CallKeys) (action : CallAction) (actor : UserRef) (now : Int) :
    CallReply × CallKeys :=
  match s.call with
  | none => (.refused .missing, s)
  | some call =>
    let ref := callRef call.identity
    if actor ∉ s.participants then (.refused .forbidden, s)
    else if call.state = .ended then
      if action = .endCall then (.unchanged call, s)
      else if action = .decline ∧ actor ∈ s.declined then (.unchanged call, s)
      else (.refused .ended, s)
    else
      match action with
      | .accept =>
        if actor ∈ s.accepted then
          if call.state = .active then (.unchanged call, s) else (.refused .accepted, s)
        else
          let updated := { call with state := .active }
          let s := { s with accepted := insert actor s.accepted }
          (.applied updated, s.save ref updated)
      | .decline =>
        if actor ∈ s.declined then (.unchanged call, s)
        else
          let declined := insert actor s.declined
          -- Only the sizes are compared: who is in either set does not matter here.
          let updated :=
            if s.participants.card - 1 ≤ declined.card then call.terminated now else call
          let s := { s with declined := declined }
          (.applied updated, s.save ref updated)
      | .endCall =>
        let updated := call.terminated now
        (.applied updated, s.save ref updated)
      | _ => (.refused .action, s)

/-- When the script answers `{2, raw}`: the action is a repetition. -/
def CallKeys.Repeats (s : CallKeys) (call : CallRecord) (action : CallAction) (actor : UserRef) :
    Prop :=
  (call.state = .ended ∧ action = .endCall) ∨
  (action = .decline ∧ actor ∈ s.declined) ∨
  (call.state = .active ∧ action = .accept ∧ actor ∈ s.accepted)

/-- Everything the transition can do. -/
inductive CallEffect (s : CallKeys) (actor : UserRef) (now : Int) :
    CallAction → CallReply → CallKeys → Prop
  | refused (action : CallAction) (reason : CallRefusal) :
      CallEffect s actor now action (.refused reason) s
  | repeated {action : CallAction} {call : CallRecord} (hcall : s.call = some call)
      (hactor : actor ∈ s.participants) (h : s.Repeats call action actor) :
      CallEffect s actor now action (.unchanged call) s
  | accept {call updated : CallRecord} (hcall : s.call = some call)
      (hactor : actor ∈ s.participants) (hlive : call.state ≠ .ended)
      (hnew : actor ∉ s.accepted) (hupdated : updated = { call with state := .active }) :
      CallEffect s actor now .accept (.applied updated)
        (CallKeys.save { s with accepted := insert actor s.accepted } (callRef call.identity)
          updated)
  | decline {call updated : CallRecord} (hcall : s.call = some call)
      (hactor : actor ∈ s.participants) (hlive : call.state ≠ .ended)
      (hnew : actor ∉ s.declined)
      (hupdated : updated = if s.participants.card - 1 ≤ (insert actor s.declined).card
        then call.terminated now else call) :
      CallEffect s actor now .decline (.applied updated)
        (CallKeys.save { s with declined := insert actor s.declined } (callRef call.identity)
          updated)
  | endCall {call : CallRecord} (hcall : s.call = some call)
      (hactor : actor ∈ s.participants) (hlive : call.state ≠ .ended) :
      CallEffect s actor now .endCall (.applied (call.terminated now))
        (s.save (callRef call.identity) (call.terminated now))

theorem callTransition_effect (s : CallKeys) (action : CallAction) (actor : UserRef)
    (now : Int) :
    CallEffect s actor now action (callTransition s action actor now).1
      (callTransition s action actor now).2 := by
  cases hcall : s.call with
  | none =>
    simp only [callTransition, hcall]
    exact .refused _ _
  | some call =>
    simp only [callTransition, hcall]
    by_cases hactor : actor ∈ s.participants
    swap
    · rw [if_pos hactor]
      exact .refused _ _
    rw [if_neg (not_not.mpr hactor)]
    by_cases hended : call.state = .ended
    · -- An ended call only answers repetitions.
      rw [if_pos hended]
      split
      · rename_i h
        exact .repeated hcall hactor (.inl ⟨hended, h⟩)
      · split
        · rename_i h
          exact .repeated hcall hactor (.inr (.inl h))
        · exact .refused _ _
    · rw [if_neg hended]
      cases action with
      | accept =>
        dsimp only
        split
        · rename_i hin
          split
          · rename_i hactive
            exact .repeated hcall hactor (.inr (.inr ⟨hactive, rfl, hin⟩))
          · exact .refused _ _
        · rename_i hnew
          exact .accept hcall hactor hended hnew rfl
      | decline =>
        dsimp only
        split
        · rename_i hin
          exact .repeated hcall hactor (.inr (.inl ⟨rfl, hin⟩))
        · rename_i hnew
          exact .decline hcall hactor hended hnew rfl
      | endCall => exact .endCall hcall hactor hended
      | create => exact .refused _ _
      | ring => exact .refused _ _
      | sync => exact .refused _ _

/-! ## The replica -/

/-- The checks of `CallResponse`, which both servers run on the record
they exchange. -/
def CallRecord.coherent (record : CallRecord) : Prop :=
  2 ≤ record.identity.participants.length ∧ record.identity.participants.length ≤ 10 ∧
  0 ≤ record.identity.createdAt ∧
  record.identity.room = dmRoomName record.identity.channelId record.identity.id ∧
  record.identity.participants.Nodup ∧
  record.identity.caller ∈ record.identity.participants ∧
  if record.state = .ended then ∃ endedAt ∈ record.endedAt, record.identity.createdAt ≤ endedAt
  else record.endedAt = none

instance (record : CallRecord) : Decidable record.coherent := by
  unfold CallRecord.coherent
  infer_instance

/-- `call_response` and `CallResponse.model_validate`. -/
def callResponse (record : CallRecord) : Option CallRecord :=
  if record.coherent then some record else none

/-- The state `authoritative_call_record` asks of a reply to each action. -/
def requiredState : CallAction → Option CallStatus
  | .create => some .ringing
  | .accept => some .active
  | .decline => some .ended
  | .endCall => some .ended
  | _ => none

/-- `authoritative_call_record`. -/
def authoritativeCallRecord (current response : CallRecord) (action : CallAction) :
    Option CallRecord :=
  if current.identity ≠ response.identity then none
  else if some response.state ≠ requiredState action then none
  else some response

/-- The `SADD`s of the authoritative script. -/
def CallKeys.respond (s : CallKeys) (action : CallAction) (actor : Option UserRef) : CallKeys :=
  match action, actor with
  | .accept, some actor => { s with accepted := insert actor s.accepted }
  | .decline, some actor => { s with declined := insert actor s.declined }
  | _, _ => s

/-- `APPLY_AUTHORITATIVE_CALL_LUA`; no actor stands for the empty string
of a `sync`. -/
def applyAuthoritativeCall (s : CallKeys) (incoming : CallRecord) (action : CallAction)
    (actor : Option UserRef) : CallReply × CallKeys :=
  match s.call with
  | none => (.refused .missing, s)
  | some current =>
    if current.identity ≠ incoming.identity then (.refused .mismatch, s)
    else if ∃ a ∈ actor, a ∉ s.participants then (.refused .forbidden, s)
    else
      let fits : Option Bool :=
        match action with
        | .accept => some (incoming.state = .active ∧ incoming.endedAt = none)
        | .decline | .endCall | .sync => some (incoming.state = .ended ∧ incoming.endedAt ≠ none)
        | _ => none
      match fits with
      | none => (.refused .action, s)
      | some false => (.refused .transition, s)
      | some true =>
        if current.state = .ended then
          if incoming.state ≠ .ended ∨ current.endedAt ≠ incoming.endedAt then
            (.refused .transition, s)
          else (.unchanged current, s.respond action actor)
        else if current.state = .active ∧ incoming.state = .ringing then
          (.refused .transition, s)
        else
          (.applied incoming, (s.respond action actor).save (callRef incoming.identity) incoming)

end Kaede
