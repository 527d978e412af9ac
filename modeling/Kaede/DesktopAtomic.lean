import Kaede.DesktopReduce

/-!
# Dispatches that fail and leave no trace

Nearly every handler of the reducer reads all it needs before its first
write, so an error leaves the account as it was (`dispatch_atomic`). The
handlers of the state of channels and messages have this from what they do
to it (`Keeps`); deleting a guild has it because the channels that it passes
on are written out and read back.
-/

namespace Kaede

namespace Desktop

variable {F : Type} {α : Type} {c : Codec F} {value : Json F}

open Kaede.Action

/-! ## Reading -/

theorem readOnly_decode (decoder : Json F → Option α) (value : Json F) :
    ReadOnly (decode decoder value) := by
  unfold decode
  split
  · exact readOnly_pure _
  · exact readOnly_fail _

theorem readOnly_field (value : Json F) (name : String) : ReadOnly (field value name) := by
  unfold field
  split
  · exact readOnly_pure _
  · exact readOnly_fail _

theorem decode_some {decoder : Json F → Option α} {x : α} (h : decoder value = some x)
    (a : Account) : decode decoder value a = (.ok x, a) := by
  rw [decode, h]
  rfl

theorem decode_none {decoder : Json F → Option α} (h : decoder value = none) (a : Account) :
    decode decoder value a = (.error .payload, a) := by
  rw [decode, h]
  rfl

theorem field_some {item : Json F} {name : String} (h : value.get? name = some item)
    (a : Account) : field value name a = (.ok item, a) := by
  rw [field, h]
  rfl

theorem field_none {name : String} (h : value.get? name = none) (a : Account) :
    field value name a = (.error (.missingField name), a) := by
  rw [field, h]
  rfl

theorem readOnly_refFrom (idName domainName : String) :
    ReadOnly (refFrom c value idName domainName) :=
  (readOnly_field _ _).bind fun _ => (readOnly_field _ _).bind fun _ =>
    (readOnly_decode _ _).bind fun _ => (readOnly_decode _ _).bind fun _ => readOnly_pure _

theorem readOnly_entityRef (value : Json F) : ReadOnly (entityRef c value) := by
  unfold entityRef
  split_ifs <;> exact readOnly_refFrom _ _

theorem readOnly_messageEventRef (value : Json F) : ReadOnly (messageEventRef c value) := by
  unfold messageEventRef
  split_ifs <;> exact readOnly_refFrom _ _

theorem readOnly_nestedEntityRef (value : Json F) (name : String) :
    ReadOnly (nestedEntityRef c value name) :=
  (readOnly_field _ _).bind fun _ => readOnly_entityRef _

theorem readOnly_pinChannel (value : Json F) : ReadOnly (pinChannel c value) := by
  unfold pinChannel
  split
  · exact (readOnly_decode _ _).bind fun _ => (readOnly_decode _ _).bind fun _ => readOnly_pure _
  · exact readOnly_pure _

theorem readOnly_currentMembers (existing : Option VoiceState) :
    ReadOnly (currentMembers c existing) := by
  unfold currentMembers
  split
  · exact readOnly_pure _
  · split
    · exact readOnly_pure _
    · exact readOnly_fail _

theorem total_done (f : Account → Account) : Total (done f) :=
  (total_write f).bind fun _ => total_pure _

/-- Read, then write. -/
theorem atomic_done {m : Action ReduceError Account α} {f : α → Account → Account}
    (hm : ReadOnly m) : Atomic (do let x ← m; done (f x)) :=
  hm.then_atomic fun x => (total_done (f x)).atomic

/-! ## Handlers of channels and messages -/

/-- An error of a handler leaves the state it was given. -/
def Keeps (h : AppState → Handled) : Prop := ∀ s e, (h s).2 = .error e → (h s).1 = s

theorem Keeps.atomic {h : AppState → Handled} (hkeeps : Keeps h) : Atomic (onState h) := by
  intro a e he
  change { a with state := (h a.state).1 } = a
  rw [hkeeps a.state e he]

/-- Read an identity, or any other piece, and go on in the state. -/
theorem atomic_onState {m : Action ReduceError Account α} {h : α → AppState → Handled}
    (hm : ReadOnly m) (hkeeps : ∀ x, Keeps (h x)) : Atomic (do let x ← m; onState (h x)) :=
  hm.then_atomic fun x => (hkeeps x).atomic

theorem keeps_editMessage (key : EntityRef) (f : AppState → Message → Except ReduceError Message) :
    Keeps fun s => s.editMessage key (f s) := by
  intro s e he
  simp only [AppState.editMessage] at he ⊢
  split at he
  · rfl
  · rename_i message _
    cases hf : f s message with
    | error e' => rfl
    | ok edited =>
      rw [hf] at he
      cases he

theorem keeps_upsertMessage (message : Message) : Keeps fun s => s.upsertMessage message := by
  intro s e he
  simp only [AppState.upsertMessage] at he
  split at he <;> cases he

theorem keeps_updateMessagePin (key : EntityRef) (pinned : Option (Option Bool)) :
    Keeps fun s => s.updateMessagePin key pinned := by
  intro s e he
  simp only [AppState.updateMessagePin] at he ⊢
  split at he
  · rfl
  · cases he
  · cases he

theorem keeps_updateReaction (added : Bool) (key user : EntityRef) (reaction : String) :
    Keeps fun s => s.updateReaction added key user reaction := by
  intro s e he
  simp only [AppState.updateReaction] at he ⊢
  split at he
  · rename_i hempty
    rw [if_pos hempty]
  · rename_i hempty
    rw [if_neg hempty]
    exact keeps_editMessage key
      (fun s message => .ok (s.reactedMessage added user reaction message)) s e he

theorem keeps_updatePollVote (added : Bool) (key user : EntityRef) (answerId : Nat) :
    Keeps fun s => s.updatePollVote added key user answerId := by
  intro s e he
  simp only [AppState.updatePollVote] at he ⊢
  split at he
  · rename_i hzero
    rw [if_pos hzero]
  · rename_i hzero
    rw [if_neg hzero]
    split at he
    · cases he
    · split at he
      · rfl
      · cases he

theorem keeps_updateChannelPermissions (key : EntityRef) (permissions : Nat) :
    Keeps fun s => s.updateChannelPermissions key permissions := by
  intro s e he
  simp only [AppState.updateChannelPermissions] at he
  split at he <;> cases he

theorem keeps_updateGuildHistorySync (key : EntityRef) (status : String) (code : Option String)
    (retryAfterMs : Option Nat) (resource : Option String) :
    Keeps fun s => s.updateGuildHistorySync key status code retryAfterMs resource := by
  intro s e he
  simp only [AppState.updateGuildHistorySync] at he ⊢
  split at he
  · rename_i hstatus
    rw [if_pos hstatus]
  · split at he <;> cases he

/-! ## Handlers -/

theorem atomic_updateMessage (value : Json F) : Atomic (updateMessage c value) := by
  unfold updateMessage
  split
  · split
    · exact (readOnly_fail _).atomic
    · exact atomic_onState (readOnly_decode _ _) keeps_upsertMessage
  · exact atomic_onState (readOnly_entityRef _) fun key => keeps_updateMessagePin key _

theorem atomic_updateReaction (added : Bool) (value : Json F) :
    Atomic (updateReaction c added value) := by
  refine (readOnly_decode _ _).then_atomic fun update => ?_
  split
  · exact (readOnly_fail _).atomic
  · exact atomic_onState (readOnly_messageEventRef _) fun key => keeps_updateReaction added key _ _

theorem keeps_clearReactions (key : EntityRef) (reaction : Option (Option String)) :
    Keeps fun s => s.clearReactions key reaction := by
  unfold AppState.clearReactions
  exact keeps_editMessage key _

theorem keeps_updatePin (key : Option EntityRef) (channel : Option EntityRef)
    (pinned : Option (Option Bool)) : Keeps fun s => s.updatePin key channel pinned := by
  unfold AppState.updatePin
  cases key with
  | none => exact fun _ _ he => nomatch he
  | some key => exact keeps_editMessage key _

theorem atomic_updatePin (value : Json F) : Atomic (updatePin c value) := by
  unfold updatePin
  split
  · exact (readOnly_pure _).atomic
  · refine (readOnly_messageEventRef _).then_atomic fun key => ?_
    refine readOnly_read.then_atomic fun a => ?_
    split
    · exact (readOnly_pure _).atomic
    · exact atomic_onState (readOnly_pinChannel _) fun channel => keeps_updatePin _ channel _

theorem keeps_updateAttachment (key : EntityRef) (attachment : Attachment) :
    Keeps fun s => s.updateAttachment key attachment := by
  unfold AppState.updateAttachment
  exact keeps_editMessage key _

theorem total_onState {h : AppState → Handled} (hok : ∀ s, ∃ r, (h s).2 = .ok r) :
    Total (onState h) := fun a => hok a.state

/-- The identity of a channel reads back. -/
theorem entityRef_refJson (key : EntityRef) (a : Account) :
    entityRef c (refJson key) a = (.ok key, a) := by
  obtain ⟨hid, hdomain⟩ := c.reads_back key
  have hget : ((refJson key : Json F).get? "id").isSome = true := rfl
  have hidField : (refJson key : Json F).get? "id" = some (.str (toString key.id.value)) :=
    rfl
  have hdomainField : (refJson key : Json F).get? "origin_domain" = some (.str key.domain.text) :=
    rfl
  rw [entityRef, if_pos hget, refFrom, bind_of_ok (field_some hidField a),
    bind_of_ok (field_some hdomainField a), bind_of_ok (decode_some hid a),
    bind_of_ok (decode_some hdomain a)]
  rfl

theorem total_removeChannels (channels purged : List EntityRef) :
    Total (removeChannels c channels purged) := by
  induction channels generalizing purged with
  | nil => exact total_pure _
  | cons channel channels ih =>
    refine Total.bind (fun a => ?_) fun _ => ih _
    rw [removeChannel, bind_of_ok (entityRef_refJson channel a)]
    exact ⟨_, rfl⟩

theorem total_read : Total (read : Action ReduceError Account Account) := fun a => ⟨a, rfl⟩

theorem atomic_removeGuild (value : Json F) : Atomic (removeGuild c value) := by
  refine (readOnly_entityRef _).then_atomic fun key => Total.atomic ?_
  exact (total_write _).bind fun _ => total_read.bind fun _ => total_removeChannels _ _

theorem atomic_applyMemberListUpdate (value : Json F) : Atomic (applyMemberListUpdate c value) :=
  (readOnly_decode _ _).then_atomic fun _ =>
    ((total_write _).bind fun _ => total_pure _).atomic

theorem atomic_upsertUserOrRelationship (value : Json F) :
    Atomic (upsertUserOrRelationship c value) := by
  unfold upsertUserOrRelationship
  split
  · exact (readOnly_decode _ _).then_atomic fun _ =>
      ((total_write _).bind fun _ => total_pure _).atomic
  · exact (readOnly_decode _ _).then_atomic fun user =>
      ((total_write _).bind fun _ => total_onState fun _ => ⟨_, rfl⟩).atomic

theorem atomic_updateVoice (value : Json F) : Atomic (updateVoice c value) := by
  refine (readOnly_field _ _).then_atomic fun _ => (readOnly_decode _ _).then_atomic fun id => ?_
  refine (readOnly_field _ _).then_atomic fun _ => ?_
  refine (readOnly_decode _ _).then_atomic fun domain => ?_
  refine readOnly_read.then_atomic fun a => ?_
  dsimp only
  split
  · exact ((total_write _).bind fun _ => total_pure _).atomic
  · split
    · exact (readOnly_pure _).atomic
    · exact (readOnly_currentMembers _).then_atomic fun current =>
        atomic_done (readOnly_decode _ _)

theorem atomic_removeMember (value : Json F) : Atomic (removeMember c value) :=
  (readOnly_nestedEntityRef _ _).then_atomic fun _ => atomic_done (readOnly_nestedEntityRef _ _)

theorem atomic_rejectDmOpen (value : Json F) : Atomic (rejectDmOpen c value) :=
  (readOnly_decode _ _).then_atomic fun _ => (readOnly_pure _).atomic

/-- All dispatches but bulk deletes and voice snapshots. -/
theorem dispatch_atomic (now : Int) {event : String} (d : Json F)
    (hbulk : event ≠ "MESSAGE_DELETE_BULK") (hvoice : event ≠ "VOICE_STATE_UPDATE")
    (hmove : event ≠ "VOICE_CHANNEL_MOVE") : Atomic (dispatch c now event d) := by
  unfold dispatch
  split
  -- one line for each event, in the order of `dispatch`
  · exact atomic_done (readOnly_decode _ _)
  · exact atomic_done (readOnly_decode _ _)
  · exact (readOnly_pure _).atomic
  · exact (readOnly_pure _).atomic
  · exact (readOnly_pure _).atomic
  · exact (readOnly_pure _).atomic
  · exact atomic_onState (readOnly_decode _ _) fun u => keeps_updateAttachment u.1 u.2
  · exact atomic_rejectDmOpen d
  · exact atomic_done (readOnly_decode _ _)
  · exact atomic_applyMemberListUpdate d
  · exact atomic_onState (readOnly_decode _ _) keeps_upsertMessage
  · exact atomic_updateMessage d
  · exact atomic_onState (readOnly_entityRef _) fun _ _ _ he => nomatch he
  · exact absurd rfl hbulk
  · exact atomic_updateReaction true d
  · exact atomic_updateReaction false d
  · exact atomic_onState (readOnly_messageEventRef _) fun key => keeps_clearReactions key _
  · exact atomic_onState (readOnly_messageEventRef _) fun key => keeps_clearReactions key _
  · exact atomic_updatePin d
  · exact atomic_updatePin d
  · exact atomic_onState (readOnly_decode _ _) fun u => keeps_updatePollVote true u.1 u.2.1 u.2.2
  · exact atomic_onState (readOnly_decode _ _) fun u => keeps_updatePollVote false u.1 u.2.1 u.2.2
  · exact atomic_onState (readOnly_decode _ _) fun _ _ _ he => nomatch he
  · exact atomic_onState (readOnly_decode _ _) fun _ _ _ he => nomatch he
  · exact atomic_onState (readOnly_decode _ _) fun _ _ _ he => nomatch he
  · exact atomic_onState (readOnly_decode _ _) fun u => keeps_updateChannelPermissions u.1 u.2
  · exact atomic_onState (readOnly_entityRef _) fun _ _ _ he => nomatch he
  · exact atomic_onState (readOnly_entityRef _) fun _ _ _ he => nomatch he
  · exact atomic_onState (readOnly_decode _ _) fun _ _ _ he => nomatch he
  · exact atomic_onState (readOnly_decode _ _) fun _ _ _ he => nomatch he
  · exact atomic_onState (readOnly_entityRef _) fun _ _ _ he => nomatch he
  · exact atomic_onState (readOnly_decode _ _) fun _ _ _ he => nomatch he
  · exact atomic_done (readOnly_decode _ _)
  · exact atomic_done (readOnly_decode _ _)
  · exact atomic_done (readOnly_decode _ _)
  · exact atomic_removeGuild d
  · exact (readOnly_pure _).atomic
  · exact atomic_onState (readOnly_decode _ _) fun u =>
      keeps_updateGuildHistorySync u.guild _ _ _ _
  · exact atomic_done (readOnly_decode _ _)
  · exact atomic_done (readOnly_decode _ _)
  · exact atomic_done (readOnly_entityRef _)
  · exact atomic_done (readOnly_decode _ _)
  · exact atomic_done (readOnly_decode _ _)
  · exact atomic_removeMember d
  · exact atomic_done (readOnly_decode _ _)
  · exact atomic_done (readOnly_decode _ _)
  · exact absurd rfl hvoice
  · exact absurd rfl hmove
  · exact atomic_done (readOnly_decode _ _)
  · exact atomic_upsertUserOrRelationship d
  · exact atomic_onState (readOnly_decode _ _) fun _ _ _ he => nomatch he
  · exact atomic_onState (readOnly_decode _ _) fun _ _ _ he => nomatch he
  · exact atomic_done (readOnly_decode _ _)
  · exact atomic_done (readOnly_entityRef _)
  · exact atomic_done (readOnly_decode _ _)
  · exact atomic_done (readOnly_decode _ _)
  · exact atomic_done (readOnly_decode _ _)
  · exact atomic_done (readOnly_decode _ _)
  · exact atomic_done (readOnly_decode _ _)
  · exact (readOnly_pure _).atomic

end Desktop

end Kaede
