import Kaede.CallResponses

/-!
# A call and its replica

The authority of a call and the home of some of its participants, which
keeps a replica. A participant of that home acts through `act_on_call`:
the request goes to the authority, a call that ends there is pushed to
every remote home (`propagate_terminal_call`, which may get lost), and
the reply is checked and applied to the replica. Everyone else's actions
reach the replica only as the push of a call that has ended.

Both servers create the call from one record (`propagate_call_create`),
which has passed `CallResponse`.

`authoritative_call_record` and the replica's script take a decline only
in a reply whose call has ended, while the authority also answers a
decline that leaves the call ringing or active. `Projected` is the
condition under which an action leaves the replica as the authority is.
-/

namespace Kaede

structure CallPair where
  authority : CallKeys
  replica : CallKeys

def CallPair.start (n : NewCall) : CallPair := ⟨n.keys, n.keys⟩

/-- One action: whether it is made at the replica's home, and whether a
push of the ended call gets through. -/
structure CallExchange extends CallInput where
  atReplica : Bool
  pushed : Bool
deriving DecidableEq, Repr

/-- `federation_call_state`: the push of an ended call. -/
def federationCallState (s : CallKeys) (incoming : CallRecord) : CallKeys :=
  match s.call with
  | none => s
  | some existing =>
    if incoming.state ≠ .ended then s
    else if existing.identity ≠ incoming.identity then s
    else (applyAuthoritativeCall s incoming .sync none).2

/-- What `act_on_call` does with the authority's reply: whether the replica
takes it, and its keys afterwards. `current` is the record it read before
the request. -/
def actOnReply (s : CallKeys) (current reply : CallRecord) (action : CallAction)
    (actor : UserRef) : Bool × CallKeys :=
  match authoritativeCallRecord current reply action with
  | none => (false, s)
  | some incoming =>
    let (answer, s) := applyAuthoritativeCall s incoming action (some actor)
    (answer.record?.isSome, s)

/-- The authority's reply and keys for an action. -/
def CallPair.transition (s : CallPair) (i : CallExchange) : CallReply × CallKeys :=
  callTransition s.authority i.action i.actor i.now

def CallPair.exchange (s : CallPair) (i : CallExchange) : Bool × CallPair :=
  let (reply, authority) := s.transition i
  match reply.record?.bind callResponse with
  | none => (false, { s with authority := authority })
  | some record =>
    let pushed :=
      if record.state = .ended ∧ i.pushed then federationCallState s.replica record
      else s.replica
    if i.atReplica then
      match s.replica.call with
      -- `act_on_call` never asks the authority about a call it does not know.
      | none => (false, s)
      | some current =>
        let (taken, replica) := actOnReply pushed current record i.action i.actor
        (taken, ⟨authority, replica⟩)
    else (true, ⟨authority, pushed⟩)

def CallPair.step (s : CallPair) (i : CallExchange) : Option CallPair := some (s.exchange i).2

def CallPair.Accepts (s : CallPair) (i : CallExchange) : Prop :=
  (s.transition i).1.record?.isSome

instance (s : CallPair) (i : CallExchange) : Decidable (s.Accepts i) :=
  inferInstanceAs (Decidable (_ = true))

/-- The replica shows the call as the authority has it. -/
def CallPair.Agrees (s : CallPair) : Prop :=
  s.authority.call.map (fun c => (c.state, c.endedAt)) =
      s.replica.call.map (fun c => (c.state, c.endedAt)) ∧
    s.authority.accepted = s.replica.accepted ∧ s.authority.declined = s.replica.declined

instance (s : CallPair) : Decidable s.Agrees := inferInstanceAs (Decidable (_ ∧ _ ∧ _))

/-- At the replica's home every action but a decline that leaves the call
live; elsewhere only a repetition, or an end whose push gets through. -/
def Projected (s : CallPair) (i : CallExchange) : Prop :=
  s.Accepts i →
    if i.atReplica then
      i.action = .decline → s.authority.Ended ∨
        s.authority.participants.card - 1 ≤ (insert i.actor s.authority.declined).card
    else
      match i.action with
      | .accept => i.actor ∈ s.authority.accepted
      | .decline => i.actor ∈ s.authority.declined
      | _ => s.authority.Ended ∨ i.pushed

/-! ## The replica's script -/

/-- The keys of a call apart from the channel's reference. -/
structure CallKeys.Holds (s : CallKeys) (call : CallRecord)
    (participants accepted declined : Finset UserRef) : Prop where
  call : s.call = some call
  participants : s.participants = participants
  accepted : s.accepted = accepted
  declined : s.declined = declined

/-- What a reply to an action looks like when the replica takes it. -/
def CallRecord.Fits (record : CallRecord) : CallAction → Prop
  | .accept => record.state = .active ∧ record.endedAt = none
  | .decline | .endCall | .sync => record.state = .ended ∧ record.endedAt ≠ none
  | _ => False

section

variable {s : CallKeys} {current incoming : CallRecord} {action : CallAction}
  {P A D : Finset UserRef}

/-- Applying a fitting record: a replica that has not ended, or has ended
with this very record, holds it afterwards. -/
theorem applyAuthoritativeCall_holds {actor : Option UserRef} (hs : s.Holds current P A D)
    (hid : current.identity = incoming.identity) (hactor : ∀ a ∈ actor, a ∈ P)
    (hfits : incoming.Fits action) (hended : current.state = .ended → incoming = current) :
    (applyAuthoritativeCall s incoming action actor).1.record?.isSome ∧
      (applyAuthoritativeCall s incoming action actor).2.Holds incoming P
        (s.respond action actor).accepted (s.respond action actor).declined := by
  have hforbidden : ¬ ∃ a ∈ actor, a ∉ s.participants := by
    rintro ⟨a, ha, hout⟩
    exact hout (hs.participants ▸ hactor a ha)
  have hrespond : (s.respond action actor).participants = s.participants ∧
      (s.respond action actor).call = s.call := by
    unfold CallKeys.respond
    split <;> exact ⟨rfl, rfl⟩
  by_cases hcur : current.state = .ended
  · obtain rfl := hended hcur
    have hnot : action ≠ .accept := by
      rintro rfl
      rw [hfits.1] at hcur
      cases hcur
    cases action <;> first
      | exact hfits.elim
      | exact (hnot rfl).elim
      | · simp only [applyAuthoritativeCall, hs.call, if_neg hforbidden, hcur, hfits.2, ne_eq,
            not_true_eq_false, not_false_eq_true, or_self, if_false, if_true, and_self, decide_true]
          exact ⟨rfl, ⟨hrespond.2.trans hs.call, hrespond.1.trans hs.participants, rfl, rfl⟩⟩
  · cases action <;> first
      | exact hfits.elim
      | · simp only [applyAuthoritativeCall, hs.call, if_neg hforbidden, if_neg hcur, hid, hfits.1,
            hfits.2, ne_eq, not_true_eq_false, not_false_eq_true, if_false, and_self, decide_true,
            reduceCtorEq, and_false]
          exact ⟨rfl, ⟨rfl, hrespond.1.trans hs.participants, rfl, rfl⟩⟩

/-- A pushed call that has ended. -/
theorem federationCallState_holds (hs : s.Holds current P A D)
    (hid : current.identity = incoming.identity) (hfits : incoming.Fits .sync)
    (hended : current.state = .ended → incoming = current) :
    (federationCallState s incoming).Holds incoming P A D := by
  simp only [federationCallState, hs.call, hfits.1, hid, ne_eq, not_true_eq_false, if_false]
  have hactor : ∀ a ∈ (none : Option UserRef), a ∈ P := fun a ha => nomatch ha
  obtain ⟨-, h⟩ := applyAuthoritativeCall_holds hs hid hactor hfits hended
  exact ⟨h.call, h.participants, h.accepted.trans hs.accepted, h.declined.trans hs.declined⟩

/-- A reply `authoritative_call_record` takes. -/
theorem actOnReply_holds {before : CallRecord} {actor : UserRef} (hs : s.Holds current P A D)
    (hbefore : before.identity = incoming.identity)
    (hrequired : requiredState action = some incoming.state)
    (hid : current.identity = incoming.identity) (hactor : actor ∈ P)
    (hfits : incoming.Fits action) (hended : current.state = .ended → incoming = current) :
    (actOnReply s before incoming action actor).1 = true ∧
      (actOnReply s before incoming action actor).2.Holds incoming P
        (s.respond action (some actor)).accepted (s.respond action (some actor)).declined := by
  have hrecord : authoritativeCallRecord before incoming action = some incoming := by
    simp [authoritativeCallRecord, hbefore, hrequired]
  simp only [actOnReply, hrecord]
  refine applyAuthoritativeCall_holds hs hid ?_ hfits hended
  rintro a ⟨⟩
  exact hactor

end

/-! ## Staying in step -/

/-- Both servers hold one coherent record and the same sets, and a live
call has fewer declines than it would take to end it. -/
structure Synced (n : NewCall) (s : CallPair) (call : CallRecord) : Prop where
  identity : call.identity = n.record.identity
  coherent : call.coherent
  authority : s.authority.Holds call n.participants.toFinset s.authority.accepted
    s.authority.declined
  replica : s.replica.Holds call n.participants.toFinset s.authority.accepted
    s.authority.declined
  live : call.state ≠ .ended →
    ¬ n.participants.toFinset.card - 1 ≤ s.authority.declined.card

theorem synced_start {n : NewCall} (hn : n.record.coherent) : Synced n (.start n) n.record := by
  have htwo : 2 ≤ n.participants.toFinset.card := by
    rw [List.toFinset_card_of_nodup n.nodup]
    exact hn.1
  refine ⟨rfl, hn, ?_, ?_, fun _ => ?_⟩
  · constructor <;> simp [CallPair.start, NewCall.keys_eq]
  · constructor <;> simp [CallPair.start, NewCall.keys_eq]
  · simp only [CallPair.start, NewCall.keys_eq, Finset.card_empty]
    omega

theorem Synced.agrees {n : NewCall} {s : CallPair} {call : CallRecord} (hs : Synced n s call) :
    s.Agrees := by
  refine ⟨?_, hs.replica.accepted.symm, hs.replica.declined.symm⟩
  rw [hs.authority.call, hs.replica.call]

theorem CallRecord.coherent.terminated {call : CallRecord} (h : call.coherent) (now : Int) :
    (call.terminated now).coherent := by
  obtain ⟨h₁, h₂, h₃, h₄, h₅, h₆, -⟩ := h
  exact ⟨h₁, h₂, h₃, h₄, h₅, h₆, _, rfl, le_max_left _ _⟩

theorem CallRecord.coherent.activated {call : CallRecord} (h : call.coherent)
    (hlive : call.state ≠ .ended) : ({ call with state := .active } : CallRecord).coherent := by
  obtain ⟨h₁, h₂, h₃, h₄, h₅, h₆, h₇⟩ := h
  rw [if_neg hlive] at h₇
  exact ⟨h₁, h₂, h₃, h₄, h₅, h₆, h₇⟩

theorem CallRecord.coherent.fits_ended {call : CallRecord} (h : call.coherent)
    (hended : call.state = .ended) : call.state = .ended ∧ call.endedAt ≠ none := by
  obtain ⟨-, -, -, -, -, -, h₇⟩ := h
  rw [if_pos hended] at h₇
  obtain ⟨t, ht, -⟩ := h₇
  exact ⟨hended, Option.ne_none_iff_exists'.mpr ⟨t, ht⟩⟩

theorem CallRecord.coherent.endedAt_none {call : CallRecord} (h : call.coherent)
    (hlive : call.state ≠ .ended) : call.endedAt = none := by
  obtain ⟨-, -, -, -, -, -, h₇⟩ := h
  rwa [if_neg hlive] at h₇

theorem CallKeys.respond_congr {s t : CallKeys} (action : CallAction) (actor : Option UserRef)
    (haccepted : s.accepted = t.accepted) (hdeclined : s.declined = t.declined) :
    (s.respond action actor).accepted = (t.respond action actor).accepted ∧
      (s.respond action actor).declined = (t.respond action actor).declined := by
  unfold CallKeys.respond
  split <;> simp [haccepted, hdeclined]

section

variable {n : NewCall} {s : CallPair} {call record : CallRecord} {i : CallExchange}

/-- The replica after the push, if there is one. -/
theorem Synced.pushed (hs : Synced n s call) (hco : record.coherent)
    (hid : record.identity = call.identity) (hended : call.state = .ended → record = call)
    (hpush : record.state = .ended ∧ i.pushed = true) :
    (federationCallState s.replica record).Holds record n.participants.toFinset
      s.authority.accepted s.authority.declined :=
  federationCallState_holds hs.replica hid.symm (hco.fits_ended hpush.1) hended

/-- An answered action of the replica's own home, with a reply of the
state its action asks for. -/
theorem Synced.take_reply (hs : Synced n s call) (hi : i.atReplica = true)
    (hrecord : (s.transition i).1.record? = some record) (hco : record.coherent)
    (hid : record.identity = call.identity) (hended : call.state = .ended → record = call)
    (hrequired : requiredState i.action = some record.state) (hfits : record.Fits i.action)
    (hactor : i.actor ∈ n.participants.toFinset)
    (hauthority : (s.transition i).2.Holds record n.participants.toFinset
      (s.authority.respond i.action (some i.actor)).accepted
      (s.authority.respond i.action (some i.actor)).declined)
    (hlive : record.state ≠ .ended →
      ¬ n.participants.toFinset.card - 1 ≤ (s.transition i).2.declined.card) :
    (s.exchange i).1 = true ∧ Synced n (s.exchange i).2 record := by
  have hcur : ∃ current, (if record.state = .ended ∧ i.pushed = true then
      federationCallState s.replica record else s.replica).Holds current n.participants.toFinset
        s.authority.accepted s.authority.declined ∧ current.identity = record.identity ∧
        (current.state = .ended → record = current) := by
    split
    · rename_i hpush
      exact ⟨record, hs.pushed hco hid hended hpush, rfl, fun _ => rfl⟩
    · exact ⟨call, hs.replica, hid.symm, hended⟩
  obtain ⟨current, hholds, hcurid, hcurended⟩ := hcur
  obtain ⟨htaken, hafter⟩ :=
    actOnReply_holds hholds hid.symm hrequired hcurid hactor hfits hcurended
  obtain ⟨hacc, hdec⟩ := CallKeys.respond_congr (t := s.authority) i.action (some i.actor)
    hholds.accepted hholds.declined
  have hexchange : s.exchange i =
      (true, ⟨(s.transition i).2, (actOnReply (if record.state = .ended ∧ i.pushed = true then
        federationCallState s.replica record else s.replica) call record i.action i.actor).2⟩) := by
    simp only [CallPair.exchange, hrecord, Option.bind_some, callResponse, if_pos hco, hi, if_true,
      hs.replica.call, htaken]
  rw [hexchange]
  refine ⟨rfl, hid.trans hs.identity, hco, ?_, ?_, hlive⟩
  · exact ⟨hauthority.call, hauthority.participants, rfl, rfl⟩
  · exact ⟨hafter.call, hafter.participants, hafter.accepted.trans
      (hacc.trans hauthority.accepted.symm), hafter.declined.trans
      (hdec.trans hauthority.declined.symm)⟩

/-- An action made elsewhere that leaves the sets alone and either
nothing to tell or a push that gets through. -/
theorem Synced.take_push (hs : Synced n s call) (hi : i.atReplica = false)
    (hrecord : (s.transition i).1.record? = some record) (hco : record.coherent)
    (hid : record.identity = call.identity) (hended : call.state = .ended → record = call)
    (hpush : record.state = .ended ∧ i.pushed = true ∨ record = call)
    (hauthority : (s.transition i).2.Holds record n.participants.toFinset
      s.authority.accepted s.authority.declined)
    (hlive : record.state ≠ .ended →
      ¬ n.participants.toFinset.card - 1 ≤ (s.transition i).2.declined.card) :
    (s.exchange i).1 = true ∧ Synced n (s.exchange i).2 record := by
  have hreplica : (if record.state = .ended ∧ i.pushed = true then
      federationCallState s.replica record else s.replica).Holds record n.participants.toFinset
        s.authority.accepted s.authority.declined := by
    split
    · rename_i h
      exact hs.pushed hco hid hended h
    · rename_i h
      rw [hpush.resolve_left h]
      exact hs.replica
  have hexchange : s.exchange i = (true, ⟨(s.transition i).2,
      if record.state = .ended ∧ i.pushed = true then federationCallState s.replica record
      else s.replica⟩) := by
    simp only [CallPair.exchange, hrecord, Option.bind_some, callResponse, if_pos hco, hi,
      Bool.false_eq_true, if_false]
  rw [hexchange]
  refine ⟨rfl, hid.trans hs.identity, hco, ?_, ?_, hlive⟩
  · exact ⟨hauthority.call, hauthority.participants, rfl, rfl⟩
  · exact ⟨hreplica.call, hreplica.participants, hreplica.accepted.trans hauthority.accepted.symm,
      hreplica.declined.trans hauthority.declined.symm⟩

theorem CallPair.transition_effect (s : CallPair) (i : CallExchange) :
    CallEffect s.authority i.actor i.now i.action (s.transition i).1 (s.transition i).2 :=
  callTransition_effect ..

/-- An answered repetition leaves both servers as they are. -/
theorem Synced.repeated (hs : Synced n s call)
    (htransition : s.transition i = (.unchanged call, s.authority))
    (hactor : i.actor ∈ n.participants.toFinset)
    (hrepeats : s.authority.Repeats call i.action i.actor)
    (hdecline : i.atReplica = true → i.action = .decline → call.state = .ended) :
    (s.exchange i).1 = true ∧ Synced n (s.exchange i).2 call := by
  have hrecord : (s.transition i).1.record? = some call := by rw [htransition]; rfl
  have hlive : call.state ≠ .ended →
      ¬ n.participants.toFinset.card - 1 ≤ (s.transition i).2.declined.card := by
    rw [htransition]
    exact hs.live
  cases hi : i.atReplica with
  | false =>
    refine hs.take_push hi hrecord hs.coherent rfl (fun _ => rfl) (.inr rfl) ?_ hlive
    rw [htransition]
    exact hs.authority
  | true =>
    have hauthority (ha : (s.authority.respond i.action (some i.actor)).accepted =
        s.authority.accepted) (hd : (s.authority.respond i.action (some i.actor)).declined =
        s.authority.declined) : (s.transition i).2.Holds call n.participants.toFinset
          (s.authority.respond i.action (some i.actor)).accepted
          (s.authority.respond i.action (some i.actor)).declined := by
      rw [htransition, ha, hd]
      exact hs.authority
    rcases hrepeats with ⟨hended, haction⟩ | ⟨haction, hin⟩ | ⟨hactive, haction, hin⟩
    · refine hs.take_reply hi hrecord hs.coherent rfl (fun _ => rfl) ?_ ?_ hactor
        (hauthority ?_ ?_) hlive
      · rw [haction, hended]; rfl
      · rw [haction]; exact hs.coherent.fits_ended hended
      · rw [haction]; rfl
      · rw [haction]; rfl
    · have hended := hdecline hi haction
      refine hs.take_reply hi hrecord hs.coherent rfl (fun _ => rfl) ?_ ?_ hactor
        (hauthority ?_ ?_) hlive
      · rw [haction, hended]; rfl
      · rw [haction]; exact hs.coherent.fits_ended hended
      · rw [haction]; rfl
      · rw [haction]; exact Finset.insert_eq_of_mem hin
    · refine hs.take_reply hi hrecord hs.coherent rfl (fun _ => rfl) ?_ ?_ hactor
        (hauthority ?_ ?_) hlive
      · rw [haction, hactive]; rfl
      · rw [haction]
        exact ⟨hactive, hs.coherent.endedAt_none (by rw [hactive]; exact nofun)⟩
      · rw [haction]; exact Finset.insert_eq_of_mem hin
      · rw [haction]; rfl

/-- A call that ends with this action: the record ends on the authority,
with the sets a reply of the action makes on the replica. -/
theorem Synced.ended (hs : Synced n s call) (hlive : call.state ≠ .ended)
    (hactor : i.actor ∈ n.participants.toFinset) {keys : CallKeys}
    (htransition : s.transition i = (.applied (call.terminated i.now), keys))
    (haction : i.action = .decline ∨ i.action = .endCall)
    (hkeys : keys.Holds (call.terminated i.now) n.participants.toFinset
      (s.authority.respond i.action (some i.actor)).accepted
      (s.authority.respond i.action (some i.actor)).declined)
    (hpush : i.atReplica = false → i.action = .endCall ∧ i.pushed = true) :
    (s.exchange i).1 = true ∧ Synced n (s.exchange i).2 (call.terminated i.now) := by
  have hrecord : (s.transition i).1.record? = some (call.terminated i.now) := by
    rw [htransition]; rfl
  have hco := hs.coherent.terminated i.now
  have hfits := hco.fits_ended rfl
  cases hi : i.atReplica with
  | false =>
    obtain ⟨hend, hpushed⟩ := hpush hi
    rw [hend] at hkeys
    refine hs.take_push hi hrecord hco rfl (fun h => (hlive h).elim) (.inl ⟨rfl, hpushed⟩) ?_
      (fun h => (h rfl).elim)
    rw [htransition]
    exact hkeys
  | true =>
    refine hs.take_reply hi hrecord hco rfl (fun h => (hlive h).elim) ?_ ?_ hactor ?_
      (fun h => (h rfl).elim)
    · rcases haction with h | h <;> rw [h] <;> rfl
    · rcases haction with h | h <;> rw [h] <;> exact hfits
    · rw [htransition]
      exact hkeys

/-- The answers of an authority whose replica is in step. -/
theorem Synced.accepts_cases (hs : Synced n s call) (haccepts : s.Accepts i) :
    i.actor ∈ n.participants.toFinset ∧
    ((s.transition i = (.unchanged call, s.authority) ∧
        s.authority.Repeats call i.action i.actor) ∨
      (call.state ≠ .ended ∧ i.action = .accept ∧ i.actor ∉ s.authority.accepted ∧
        ∃ keys, s.transition i = (.applied { call with state := .active }, keys) ∧
          keys.Holds { call with state := .active } n.participants.toFinset
            (insert i.actor s.authority.accepted) s.authority.declined) ∨
      (call.state ≠ .ended ∧ i.action = .decline ∧ i.actor ∉ s.authority.declined ∧
        ∃ record keys, s.transition i = (.applied record, keys) ∧
          record = (if n.participants.toFinset.card - 1 ≤ (insert i.actor s.authority.declined).card
            then call.terminated i.now else call) ∧
          keys.Holds record n.participants.toFinset s.authority.accepted
            (insert i.actor s.authority.declined)) ∨
      (call.state ≠ .ended ∧ i.action = .endCall ∧
        ∃ keys, s.transition i = (.applied (call.terminated i.now), keys) ∧
          keys.Holds (call.terminated i.now) n.participants.toFinset s.authority.accepted
            s.authority.declined)) := by
  have heffect := s.transition_effect i
  have hparts := hs.authority.participants
  have heq {c : CallRecord} (hc : s.authority.call = some c) : c = call :=
    Option.some.inj (hc.symm.trans hs.authority.call)
  rw [CallPair.Accepts] at haccepts
  generalize s.transition i = answer at heffect haccepts ⊢
  obtain ⟨reply, keys⟩ := answer
  generalize i.action = action at heffect ⊢
  cases heffect with
  | refused => cases haccepts
  | repeated hcall hactor h =>
    obtain rfl := heq hcall
    exact ⟨hparts ▸ hactor, .inl ⟨rfl, h⟩⟩
  | accept hcall hactor hlive hnew hupdated =>
    obtain rfl := heq hcall
    subst hupdated
    refine ⟨hparts ▸ hactor, .inr (.inl ⟨hlive, rfl, hnew, _, rfl, ?_⟩)⟩
    exact ⟨rfl, hparts, rfl, rfl⟩
  | decline hcall hactor hlive hnew hupdated =>
    obtain rfl := heq hcall
    rw [hparts] at hupdated
    refine ⟨hparts ▸ hactor, .inr (.inr (.inl ⟨hlive, rfl, hnew, _, _, rfl, hupdated, ?_⟩))⟩
    exact ⟨rfl, hparts, rfl, rfl⟩
  | endCall hcall hactor hlive =>
    obtain rfl := heq hcall
    refine ⟨hparts ▸ hactor, .inr (.inr (.inr ⟨hlive, rfl, _, rfl, ?_⟩))⟩
    exact ⟨rfl, hparts, rfl, rfl⟩

/-- A projected action is taken by the replica and keeps it in step. -/
theorem Synced.projected (hs : Synced n s call) (haccepts : s.Accepts i)
    (hprojected : Projected s i) :
    (s.exchange i).1 = true ∧ ∃ record, Synced n (s.exchange i).2 record := by
  have hguard := hprojected haccepts
  have hended : s.authority.Ended ↔ call.state = .ended := CallKeys.ended_iff hs.authority.call
  rw [hended, hs.authority.participants] at hguard
  obtain ⟨hactor, hcases⟩ := hs.accepts_cases haccepts
  rcases hcases with ⟨htr, hrep⟩ | ⟨hlive, haction, hnew, keys, htr, hkeys⟩ |
    ⟨hlive, haction, hnew, record, keys, htr, hrecord, hkeys⟩ | ⟨hlive, haction, keys, htr, hkeys⟩
  · have h := hs.repeated htr hactor hrep (fun hi hdecline => ?_)
    · exact ⟨h.1, call, h.2⟩
    · -- A repeated decline on a live call would have ended it before.
      rw [hi, if_pos rfl] at hguard
      by_contra hlive
      have hin : i.actor ∈ s.authority.declined := by
        rcases hrep with ⟨-, h⟩ | ⟨-, h⟩ | ⟨-, h, -⟩
        · rw [hdecline] at h; cases h
        · exact h
        · rw [hdecline] at h; cases h
      have hcount := (hguard hdecline).resolve_left hlive
      rw [Finset.insert_eq_of_mem hin] at hcount
      exact hs.live hlive hcount
  · cases hi : i.atReplica with
    | false =>
      simp only [hi, Bool.false_eq_true, if_false, haction] at hguard
      exact (hnew hguard).elim
    | true =>
      have hrecord : (s.transition i).1.record? = some { call with state := .active } := by
        rw [htr]; rfl
      have h := hs.take_reply hi hrecord (hs.coherent.activated hlive) rfl
        (fun h => (hlive h).elim) (by rw [haction]; rfl)
        (by rw [haction]; exact ⟨rfl, hs.coherent.endedAt_none hlive⟩) hactor
        (by rw [htr, haction]; exact hkeys)
        (by rw [htr, hkeys.declined]; exact fun _ => hs.live hlive)
      exact ⟨h.1, _, h.2⟩
  · cases hi : i.atReplica with
    | false =>
      simp only [hi, Bool.false_eq_true, if_false, haction] at hguard
      exact (hnew hguard).elim
    | true =>
      rw [hi, if_pos rfl] at hguard
      rw [if_pos ((hguard haction).resolve_left hlive)] at hrecord
      subst hrecord
      have h := hs.ended hlive hactor htr (.inl haction) (by rw [haction]; exact hkeys)
        (fun h => by rw [hi] at h; cases h)
      exact ⟨h.1, _, h.2⟩
  · have h := hs.ended hlive hactor htr (.inr haction) (by rw [haction]; exact hkeys) (fun hi => ?_)
    · exact ⟨h.1, _, h.2⟩
    · simp only [hi, Bool.false_eq_true, if_false, haction] at hguard
      exact ⟨haction, hguard.resolve_left hlive⟩

/-- A decline whose reply is a live call is refused by the replica. -/
theorem Synced.refuse_reply (hs : Synced n s call) (hi : i.atReplica = true)
    (hrecord : (s.transition i).1.record? = some record) (hco : record.coherent)
    (haction : i.action = .decline) (hlive : record.state ≠ .ended) :
    (s.exchange i).1 = false := by
  have hnone : authoritativeCallRecord call record i.action = none := by
    simp [authoritativeCallRecord, haction, requiredState, hlive]
  simp only [CallPair.exchange, hrecord, Option.bind_some, callResponse, if_pos hco, hi, if_true,
    hs.replica.call, actOnReply, hnone]

/-- The replica's sets do not change with an action made elsewhere. -/
theorem Synced.elsewhere (hs : Synced n s call) (hi : i.atReplica = false)
    (hrecord : (s.transition i).1.record? = some record) (hco : record.coherent)
    (hid : record.identity = call.identity) (hended : call.state = .ended → record = call) :
    (s.exchange i).2.authority = (s.transition i).2 ∧
      (s.exchange i).2.replica.accepted = s.authority.accepted ∧
      (s.exchange i).2.replica.declined = s.authority.declined ∧
      (i.pushed = false → (s.exchange i).2.replica = s.replica) := by
  simp only [CallPair.exchange, hrecord, Option.bind_some, callResponse, if_pos hco, hi,
    Bool.false_eq_true, if_false, true_and]
  split
  · rename_i hpush
    have h := hs.pushed hco hid hended hpush
    exact ⟨h.accepted, h.declined, fun hp => by rw [hp] at hpush; cases hpush.2⟩
  · exact ⟨hs.replica.accepted, hs.replica.declined, fun _ => rfl⟩

theorem insert_ne_self {α : Type*} [DecidableEq α] {a : α} {t : Finset α} (h : a ∉ t) :
    insert a t ≠ t :=
  fun heq => h (Finset.insert_eq_self.mp heq)

/-- An action that is not projected is refused by the replica or leaves
it behind. -/
theorem Synced.not_projected (hs : Synced n s call) (hprojected : ¬ Projected s i) :
    ¬ ((s.exchange i).1 = true ∧ (s.exchange i).2.Agrees) := by
  rintro ⟨htaken, hstate, haccepted, hdeclined⟩
  rw [Projected, Classical.not_imp] at hprojected
  obtain ⟨haccepts, hguard⟩ := hprojected
  have hended : s.authority.Ended ↔ call.state = .ended := CallKeys.ended_iff hs.authority.call
  rw [hended, hs.authority.participants] at hguard
  obtain ⟨hactor, hcases⟩ := hs.accepts_cases haccepts
  cases hi : i.atReplica with
  | true =>
    rw [hi, if_pos rfl, Classical.not_imp, not_or] at hguard
    obtain ⟨haction, hlive, hcount⟩ := hguard
    have hrecord : (s.transition i).1.record? = some call := by
      rcases hcases with ⟨htr, -⟩ | ⟨-, h, -⟩ | ⟨-, -, -, record, keys, htr, hrecord, -⟩ |
        ⟨-, h, -⟩
      · rw [htr]; rfl
      · rw [haction] at h; cases h
      · rw [htr, hrecord, if_neg hcount]; rfl
      · rw [haction] at h; cases h
    rw [hs.refuse_reply hi hrecord hs.coherent haction hlive] at htaken
    cases htaken
  | false =>
    simp only [hi, Bool.false_eq_true, if_false] at hguard
    rcases hcases with ⟨htr, hrep⟩ | ⟨hlive, haction, hnew, keys, htr, hkeys⟩ |
      ⟨hlive, haction, hnew, record, keys, htr, hrecord, hkeys⟩ |
      ⟨hlive, haction, keys, htr, hkeys⟩
    · -- A repetition is always projected.
      rcases hrep with ⟨h, haction⟩ | ⟨haction, h⟩ | ⟨-, haction, h⟩
      · rw [haction] at hguard
        exact hguard (.inl h)
      · rw [haction] at hguard
        exact hguard h
      · rw [haction] at hguard
        exact hguard h
    · have hrecord : (s.transition i).1.record? = some { call with state := .active } := by
        rw [htr]; rfl
      obtain ⟨ha, hacc, -⟩ := hs.elsewhere hi hrecord (hs.coherent.activated hlive) rfl
        (fun h => (hlive h).elim)
      rw [ha, hacc, htr, hkeys.accepted] at haccepted
      exact insert_ne_self hnew haccepted
    · have hco : record.coherent := by
        rw [hrecord]
        split
        · exact hs.coherent.terminated i.now
        · exact hs.coherent
      have hid : record.identity = call.identity := by
        rw [hrecord]
        split <;> rfl
      obtain ⟨ha, -, hdec, -⟩ := hs.elsewhere hi (by rw [htr]; rfl) hco hid
        (fun h => (hlive h).elim)
      rw [ha, hdec, htr, hkeys.declined] at hdeclined
      exact insert_ne_self hnew hdeclined
    · rw [haction, not_or] at hguard
      have hrecord : (s.transition i).1.record? = some (call.terminated i.now) := by
        rw [htr]; rfl
      obtain ⟨ha, -, -, hreplica⟩ := hs.elsewhere hi hrecord (hs.coherent.terminated i.now) rfl
        (fun h => (hlive h).elim)
      rw [ha, hreplica (Bool.eq_false_iff.mpr hguard.2), htr, hkeys.call, hs.replica.call] at hstate
      injection hstate with hstate
      exact hlive (Prod.mk.inj hstate).1.symm

theorem Synced.step (hs : Synced n s call) (hprojected : Projected s i) :
    ∃ record, Synced n (s.exchange i).2 record := by
  by_cases haccepts : s.Accepts i
  · exact (hs.projected haccepts hprojected).2
  · -- A refusal is an error reply and changes neither server.
    have hnone : (s.transition i).1.record? = none := by
      simpa [CallPair.Accepts] using haccepts
    have hkeys : (s.transition i).2 = s.authority := by
      have heffect := s.transition_effect i
      generalize s.transition i = answer at heffect hnone ⊢
      obtain ⟨reply, keys⟩ := answer
      generalize i.action = action at heffect
      cases heffect <;> first | rfl | cases hnone
    refine ⟨call, ?_⟩
    simp only [CallPair.exchange, hnone, hkeys, Option.bind_none]
    exact hs

end

theorem synced_run {n : NewCall} (hn : n.record.coherent) {s : CallPair}
    {is : List CallExchange} (hrun : Exec CallPair.step Projected (.start n) is s) :
    ∃ call, Synced n s call := by
  refine hrun.invariant (I := fun t => ∃ call, Synced n t call) ?_ ⟨_, synced_start hn⟩
  rintro t i t' ⟨call, ht⟩ hprojected hstep
  obtain rfl := Option.some.inj hstep
  exact ht.step hprojected

/-- In a run of projected actions the replica shows the authority's call,
and of the next actions the authority accepts, the replica takes and
follows exactly the projected ones. -/
theorem replica_follows_iff_projected {n : NewCall} (hn : n.record.coherent) {s : CallPair}
    {is : List CallExchange} (hrun : Exec CallPair.step Projected (.start n) is s) :
    s.Agrees ∧ ∀ i, s.Accepts i →
      ((s.exchange i).1 = true ∧ (s.exchange i).2.Agrees ↔ Projected s i) := by
  obtain ⟨call, hs⟩ := synced_run hn hrun
  refine ⟨hs.agrees, fun i haccepts => ⟨fun h => ?_, fun h => ?_⟩⟩
  · by_contra hprojected
    exact hs.not_projected hprojected h
  · obtain ⟨htaken, record, hs'⟩ := hs.projected haccepts h
    exact ⟨htaken, hs'.agrees⟩

/-- User 9 of the replica's home accepts the sample call and then ends it. -/
theorem replica_follows_iff_projected_sample :
    let s := ((CallPair.start sampleCall).exchange
      ⟨⟨.accept, ⟨9, "b"⟩, 1001⟩, true, true⟩).2
    let i : CallExchange := ⟨⟨.endCall, ⟨9, "b"⟩, 1002⟩, true, true⟩
    s.Agrees ∧ (s.exchange i).1 = true ∧ (s.exchange i).2.Agrees ∧
      (s.exchange i).2.replica.Ended := by
  have hrun : Exec CallPair.step Projected (.start sampleCall)
      [⟨⟨.accept, ⟨9, "b"⟩, 1001⟩, true, true⟩] _ :=
    .cons (fun _ h => nomatch h) rfl (.nil _)
  have h := replica_follows_iff_projected (n := sampleCall) (by decide) hrun
  have hnext := (h.2 ⟨⟨.endCall, ⟨9, "b"⟩, 1002⟩, true, true⟩ (by decide)).mpr
    (fun _ h => nomatch h)
  exact ⟨h.1, hnext.1, hnext.2, by decide⟩

/-- The decline of user 9 leaves the group call ringing: the authority
records it, and the replica refuses the reply. -/
theorem live_decline_refused_by_replica :
    let s := CallPair.start sampleCall
    let i : CallExchange := ⟨⟨.decline, ⟨9, "b"⟩, 1001⟩, true, true⟩
    s.Accepts i ∧ (s.exchange i).1 = false ∧
      ⟨9, "b"⟩ ∈ (s.exchange i).2.authority.declined ∧
      ⟨9, "b"⟩ ∉ (s.exchange i).2.replica.declined := by
  decide

end Kaede
