import Kaede.DesktopAtomic

/-!
# What a failed dispatch leaves behind

Two handlers check as they write. A bulk delete stops at the first message
of another channel, with the messages before it gone. A voice snapshot
empties its channel and stops at the first participant it cannot read.

`BulkKeeps` and `SnapshotKeeps` say on the stored tables when that comes to
nothing, and `reduce_keeps_iff` says that together with `dispatch_atomic`
this is all: an error leaves everything but the sequence number as it was
exactly then.
-/

namespace Kaede

namespace Desktop

open Kaede.Action

variable {F : Type} {c : Codec F} {value : Json F}

/-! ## Unchanged -/

/-- Everything but the sequence number; a table is what is found in it. -/
structure AppState.Same (s s' : AppState) : Prop where
  currentUser : s'.currentUser = s.currentUser
  guilds : ∀ key, s'.guilds.lookup key = s.guilds.lookup key
  channels : ∀ key, s'.channels.lookup key = s.channels.lookup key
  messages : ∀ key, s'.messages.lookup key = s.messages.lookup key
  linkPreviews : ∀ key, s'.linkPreviews.lookup key = s.linkPreviews.lookup key
  pendingMessages : ∀ nonce, s'.pendingMessages.lookup nonce = s.pendingMessages.lookup nonce
  messageOrder : ∀ key, s'.messageOrder.lookup key = s.messageOrder.lookup key
  inaccessibleChannels : s'.inaccessibleChannels = s.inaccessibleChannels

structure Account.Same (a b : Account) : Prop where
  state : a.state.Same b.state
  sessionId : b.sessionId = a.sessionId
  users : ∀ key, b.users.lookup key = a.users.lookup key
  roles : ∀ key, b.roles.lookup key = a.roles.lookup key
  members : ∀ key, b.members.lookup key = a.members.lookup key
  presences : ∀ key, b.presences.lookup key = a.presences.lookup key
  typing : ∀ key, b.typing.lookup key = a.typing.lookup key
  voiceStates : ∀ key, b.voiceStates.lookup key = a.voiceStates.lookup key
  calls : ∀ key, b.calls.lookup key = a.calls.lookup key
  readStates : ∀ key, b.readStates.lookup key = a.readStates.lookup key
  relationships : ∀ key, b.relationships.lookup key = a.relationships.lookup key
  emojis : ∀ key, b.emojis.lookup key = a.emojis.lookup key

theorem AppState.same_refl (s : AppState) : s.Same s :=
  ⟨rfl, fun _ => rfl, fun _ => rfl, fun _ => rfl, fun _ => rfl, fun _ => rfl, fun _ => rfl, rfl⟩

/-- Only the state of channels and messages can differ. -/
theorem Account.same_withState {a : Account} {s : AppState} (h : a.state.Same s) :
    a.Same { a with state := s } :=
  ⟨h, rfl, fun _ => rfl, fun _ => rfl, fun _ => rfl, fun _ => rfl, fun _ => rfl, fun _ => rfl,
    fun _ => rfl, fun _ => rfl, fun _ => rfl, fun _ => rfl⟩

/-- Only the voice states can differ. -/
theorem Account.same_withVoice {a : Account} {voices : Table EntityRef VoiceState}
    (h : ∀ key, voices.lookup key = a.voiceStates.lookup key) :
    a.Same { a with voiceStates := voices } :=
  ⟨a.state.same_refl, rfl, fun _ => rfl, fun _ => rfl, fun _ => rfl, fun _ => rfl, fun _ => rfl,
    h, fun _ => rfl, fun _ => rfl, fun _ => rfl, fun _ => rfl⟩

theorem Account.same_refl (a : Account) : a.Same a := same_withState a.state.same_refl

/-- The sequence number does not count. -/
theorem Account.same_sequenced (a b : Account) (sequence : Option Nat) :
    (a.sequenced sequence).Same b ↔ a.Same b := by
  constructor
  · intro h
    exact { h with state := { h.state with } }
  · intro h
    exact { h with state := { h.state with } }

/-! ## Bulk deletes -/

namespace AppState

/-- The message is stored, and in another channel. -/
def foreign (s : AppState) (channel key : EntityRef) : Bool :=
  (s.messages.lookup key).any fun message => message.channelKey ≠ channel

/-- There is nothing that a bulk delete in the channel would take away. -/
def Absent (s : AppState) (channel key : EntityRef) : Prop :=
  s.messages.lookup key = none ∧ s.linkPreviews.lookup key = none ∧ key ∉ s.order channel

/-- The keys that a bulk delete reaches before it stops. -/
def reached (s : AppState) (channel : EntityRef) (keys : List EntityRef) : List EntityRef :=
  keys.takeWhile fun key => !s.foreign channel key

/-- If a listed message is of another channel, nothing is stored for those
listed before the first such. -/
def BulkKeeps (s : AppState) (channel : EntityRef) (keys : List EntityRef) : Prop :=
  (∃ key ∈ keys, s.foreign channel key) → ∀ key ∈ s.reached channel keys, s.Absent channel key

variable {s : AppState} {channel key : EntityRef} {keys : List EntityRef}

theorem foreign_deleteListed (h : s.foreign channel key = false) (j : EntityRef) :
    (s.deleteListed channel key).foreign channel j = s.foreign channel j := by
  simp only [foreign, deleteListed, Table.lookup_erase_ite]
  split
  · rename_i hj
    subst hj
    exact h.symm
  · rfl

theorem deleteMessagesBulk_cons (s : AppState) (channel key : EntityRef) (keys : List EntityRef)
    (wasChanged : Bool) : s.deleteMessagesBulk channel wasChanged (key :: keys) =
      if s.foreign channel key then
        (s, .error (.missingField "bulk delete message/channel linkage"))
      else (s.deleteListed channel key).deleteMessagesBulk channel
        (wasChanged || (s.messages.lookup key).isSome) keys := rfl

theorem deleteMessagesBulk_ok (wasChanged : Bool)
    (h : ∀ key ∈ keys, s.foreign channel key = false) :
    ∃ r, (s.deleteMessagesBulk channel wasChanged keys).2 = .ok r := by
  induction keys generalizing s wasChanged with
  | nil => exact ⟨_, rfl⟩
  | cons key keys ih =>
    have hkey := h key List.mem_cons_self
    rw [deleteMessagesBulk_cons, hkey, if_neg Bool.false_ne_true]
    refine ih _ fun j hj => ?_
    rw [foreign_deleteListed hkey]
    exact h j (List.mem_cons_of_mem _ hj)

/-- The messages before the first foreign one are deleted all the same. -/
theorem deleteMessagesBulk_error (wasChanged : Bool)
    (h : ∃ key ∈ keys, s.foreign channel key) :
    s.deleteMessagesBulk channel wasChanged keys =
      ((s.reached channel keys).foldl (fun s key => s.deleteListed channel key) s,
        .error (.missingField "bulk delete message/channel linkage")) := by
  induction keys generalizing s wasChanged with
  | nil =>
    obtain ⟨key, hkey, -⟩ := h
    cases hkey
  | cons key keys ih =>
    rw [deleteMessagesBulk_cons]
    cases hkey : s.foreign channel key with
    | true =>
      rw [if_pos rfl, reached, List.takeWhile_cons_of_neg (by simp [hkey])]
      rfl
    | false =>
      have hnext : ∃ j ∈ keys, (s.deleteListed channel key).foreign channel j := by
        obtain ⟨j, hj, hforeign⟩ := h
        rcases List.mem_cons.mp hj with rfl | hj
        · rw [hkey] at hforeign
          cases hforeign
        · exact ⟨j, hj, by rw [foreign_deleteListed hkey]; exact hforeign⟩
      have hreached : (s.deleteListed channel key).reached channel keys =
          s.reached channel keys := by
        simp only [reached, foreign_deleteListed hkey]
      rw [if_neg Bool.false_ne_true, ih _ hnext, hreached, reached, reached,
        List.takeWhile_cons_of_pos (by simp [hkey]), List.foldl_cons]

/-- What a run of deletions leaves in each table. -/
theorem deleteAll_spec (channel : EntityRef) (keys : List EntityRef) (s : AppState) :
    (∀ j, (keys.foldl (fun s key => s.deleteListed channel key) s).messages.lookup j =
        if j ∈ keys then none else s.messages.lookup j) ∧
      (∀ j, (keys.foldl (fun s key => s.deleteListed channel key) s).linkPreviews.lookup j =
        if j ∈ keys then none else s.linkPreviews.lookup j) ∧
      (∀ j, (keys.foldl (fun s key => s.deleteListed channel key) s).messageOrder.lookup j =
        if j = channel then (s.messageOrder.lookup j).map fun order => order.filter (· ∉ keys)
        else s.messageOrder.lookup j) := by
  induction keys generalizing s with
  | nil => simp
  | cons key keys ih =>
    obtain ⟨hmessages, hpreviews, horder⟩ := ih (s.deleteListed channel key)
    refine ⟨fun j => ?_, fun j => ?_, fun j => ?_⟩
    · rw [List.foldl_cons, hmessages j]
      simp only [deleteListed, Table.lookup_erase_ite, List.mem_cons]
      by_cases hj : j = key <;> by_cases hks : j ∈ keys <;> simp [hj, hks]
    · rw [List.foldl_cons, hpreviews j]
      simp only [deleteListed, Table.lookup_erase_ite, List.mem_cons]
      by_cases hj : j = key <;> by_cases hks : j ∈ keys <;> simp [hj, hks]
    · rw [List.foldl_cons, horder j]
      simp only [deleteListed, Table.lookup_modify]
      split
      · rw [Option.map_map]
        refine congrArg (Option.map · _) (funext fun order => ?_)
        simp only [Function.comp_apply, List.filter_filter, List.mem_cons, not_or]
        refine List.filter_congr fun k _ => ?_
        by_cases hk : k = key <;> by_cases hks : k ∈ keys <;> simp [hk, hks]
      · rfl

theorem deleteAll_frame (channel : EntityRef) (keys : List EntityRef) (s : AppState) :
    ∃ messages previews order, keys.foldl (fun s key => s.deleteListed channel key) s =
      { s with messages := messages, linkPreviews := previews, messageOrder := order } := by
  induction keys generalizing s with
  | nil => exact ⟨_, _, _, rfl⟩
  | cons key keys ih =>
    obtain ⟨messages, previews, order, h⟩ := ih (s.deleteListed channel key)
    exact ⟨messages, previews, order, by rw [List.foldl_cons, h]; rfl⟩

/-- Deletions come to nothing when nothing was stored. -/
theorem same_deleteAll_iff (channel : EntityRef) (keys : List EntityRef) (s : AppState) :
    s.Same (keys.foldl (fun s key => s.deleteListed channel key) s) ↔
      ∀ key ∈ keys, s.Absent channel key := by
  obtain ⟨hmessages, hpreviews, horder⟩ := deleteAll_spec channel keys s
  constructor
  · intro h key hkey
    refine ⟨?_, ?_, ?_⟩
    · rw [← h.messages key, hmessages key, if_pos hkey]
    · rw [← h.linkPreviews key, hpreviews key, if_pos hkey]
    · intro hmem
      have hfiltered := h.messageOrder channel
      rw [horder channel, if_pos rfl] at hfiltered
      unfold order at hmem
      cases hlookup : s.messageOrder.lookup channel with
      | none =>
        rw [hlookup] at hmem
        cases hmem
      | some order =>
        rw [hlookup] at hmem hfiltered
        have hall := List.filter_eq_self.mp (Option.some.inj hfiltered) key hmem
        simp [hkey] at hall
  · intro h
    have horderSame (j : EntityRef) :
        (keys.foldl (fun s key => s.deleteListed channel key) s).messageOrder.lookup j =
          s.messageOrder.lookup j := by
      rw [horder j]
      split
      · rename_i hj
        subst hj
        cases hlookup : s.messageOrder.lookup j with
        | none => rfl
        | some order =>
          refine congrArg some (List.filter_eq_self.mpr fun key hkey => ?_)
          refine decide_eq_true fun hmem => (h key hmem).2.2 ?_
          rw [AppState.order, hlookup]
          exact hkey
      · rfl
    have hmessagesSame (j : EntityRef) :
        (keys.foldl (fun s key => s.deleteListed channel key) s).messages.lookup j =
          s.messages.lookup j := by
      rw [hmessages j]
      split
      · rename_i hj
        exact (h j hj).1.symm
      · rfl
    have hpreviewsSame (j : EntityRef) :
        (keys.foldl (fun s key => s.deleteListed channel key) s).linkPreviews.lookup j =
          s.linkPreviews.lookup j := by
      rw [hpreviews j]
      split
      · rename_i hj
        exact (h j hj).2.1.symm
      · rfl
    obtain ⟨messages, previews, order, hframe⟩ := deleteAll_frame channel keys s
    rw [hframe] at hmessagesSame hpreviewsSame horderSame ⊢
    exact ⟨rfl, fun _ => rfl, fun _ => rfl, hmessagesSame, hpreviewsSame, fun _ => rfl, horderSame,
      rfl⟩

theorem deleteMessagesBulk_keeps_iff (s : AppState) (channel : EntityRef) (keys : List EntityRef) :
    (∀ e, (s.deleteMessagesBulk channel false keys).2 = .error e →
        s.Same (s.deleteMessagesBulk channel false keys).1) ↔ s.BulkKeeps channel keys := by
  constructor
  · intro h hforeign
    have hrun := deleteMessagesBulk_error false hforeign
    rw [hrun] at h
    exact (same_deleteAll_iff channel _ s).mp (h _ rfl)
  · intro h e he
    by_cases hforeign : ∃ key ∈ keys, s.foreign channel key
    · rw [deleteMessagesBulk_error false hforeign]
      exact (same_deleteAll_iff channel _ s).mpr (h hforeign)
    · obtain ⟨r, hr⟩ := deleteMessagesBulk_ok (s := s) false
        fun key hkey => Bool.eq_false_iff.mpr fun hf => hforeign ⟨key, hkey, hf⟩
      rw [hr] at he
      cases he

end AppState

/-! ## Voice snapshots -/

section

variable (c)

/-- The participants that a snapshot reads before it stops. -/
def readable (value : Json F) (channel : EntityRef) : List (Json F) → List VoiceState
  | [] => []
  | participant :: participants =>
      match participantState c value channel participant with
      | .ok voice => voice :: readable value channel participants
      | .error _ => []

/-- The channel that a snapshot is of. -/
def snapshotChannel (value : Json F) : Option EntityRef := do
  let id ← value.get? "channel_id"
  let id ← c.snowflake id
  let domain ← value.get? "channel_domain"
  let domain ← c.domain domain
  pure ⟨id, domain⟩

end

/-- The last entry for a user. -/
def latest (voices : List VoiceState) (user : EntityRef) : Option VoiceState :=
  voices.reverse.find? fun voice => voice.userKey = user

/-- A user who was read is stored as read last, and who is stored in the
channel was read. -/
structure SnapshotKeeps (stored : Table EntityRef VoiceState) (channel : EntityRef)
    (read : List VoiceState) : Prop where
  read_stored : ∀ user voice, latest read user = some voice → stored.lookup user = some voice
  channel_read : ∀ user voice, stored.lookup user = some voice → voice.isIn channel = true →
    (latest read user).isSome

theorem lookup_insertVoices (voices : List VoiceState) (t : Table EntityRef VoiceState)
    (user : EntityRef) :
    (t.insertAll VoiceState.userKey voices).lookup user =
      (latest voices user).or (t.lookup user) := by
  induction voices generalizing t with
  | nil => rfl
  | cons voice voices ih =>
    rw [Table.insertAll, List.foldl_cons, ← Table.insertAll, ih, Table.lookup_insert_ite, latest,
      latest, List.reverse_cons, List.find?_append]
    by_cases huser : voice.userKey = user
    · simp [huser]
    · simp [huser, Ne.symm huser]

/-- The channel is cleared and the read ones are put back: that comes to
nothing exactly if they were there. -/
theorem same_snapshot_iff (stored : Table EntityRef VoiceState) (channel : EntityRef)
    (read : List VoiceState) :
    (∀ user, ((stored.retain fun voice => !voice.isIn channel).insertAll
        VoiceState.userKey read).lookup user = stored.lookup user) ↔
      SnapshotKeeps stored channel read := by
  simp only [lookup_insertVoices, Table.lookup_retain]
  constructor
  · intro h
    refine ⟨fun user voice hread => ?_, fun user voice hstored hin => ?_⟩
    · rw [← h user, hread]
      rfl
    · have huser := h user
      rw [hstored] at huser
      cases hread : latest read user with
      | none =>
        rw [hread] at huser
        simp [Option.filter, hin] at huser
      | some _ => rfl
  · intro h user
    cases hread : latest read user with
    | some voice => exact (h.read_stored user voice hread).symm
    | none =>
      cases hstored : stored.lookup user with
      | none => rfl
      | some voice =>
        have hout : voice.isIn channel = false := Bool.eq_false_iff.mpr fun hin => by
          have hsome := h.channel_read user voice hstored hin
          rw [hread] at hsome
          cases hsome
        simp [Option.filter, hout]

theorem insertParticipants_state (channel : EntityRef) (participants : List (Json F))
    (a : Account) : (insertParticipants c value channel participants a).2 =
      { a with voiceStates :=
          a.voiceStates.insertAll VoiceState.userKey (readable c value channel participants) } := by
  induction participants generalizing a with
  | nil => rfl
  | cons participant participants ih =>
    rw [insertParticipants, readable]
    cases hvoice : participantState c value channel participant with
    | error e => rfl
    | ok voice => exact ih (a.insertVoice voice)

theorem insertParticipants_error_iff (channel : EntityRef) (participants : List (Json F))
    (a : Account) : (∃ e, (insertParticipants c value channel participants a).1 = .error e) ↔
      ∃ participant ∈ participants, ∃ e,
        participantState c value channel participant = .error e := by
  induction participants generalizing a with
  | nil =>
    constructor
    · rintro ⟨e, he⟩
      cases he
    · rintro ⟨_, h, -⟩
      cases h
  | cons participant participants ih =>
    rw [insertParticipants]
    cases hvoice : participantState c value channel participant with
    | error e => exact ⟨fun _ => ⟨participant, List.mem_cons_self, e, hvoice⟩, fun _ => ⟨e, rfl⟩⟩
    | ok voice =>
      refine Iff.trans (ih (a.insertVoice voice)) ?_
      rw [List.exists_mem_cons_iff]
      refine ⟨Or.inr, fun h => h.resolve_left ?_⟩
      rintro ⟨e, he⟩
      rw [hvoice] at he
      cases he

theorem replaceVoiceSnapshot_eq {channel : EntityRef} (participants : List (Json F)) (a : Account)
    (h : snapshotChannel c value = some channel) : replaceVoiceSnapshot c value participants a =
      insertParticipants c value channel participants (a.leaveChannel channel) := by
  simp only [snapshotChannel, Option.bind_eq_bind, Option.bind_eq_some_iff] at h
  obtain ⟨idField, hidField, id, hid, domainField, hdomainField, domain, hdomain, hchannel⟩ := h
  obtain rfl : ⟨id, domain⟩ = channel := Option.some.inj hchannel
  rw [replaceVoiceSnapshot, bind_of_ok (field_some hidField a), bind_of_ok (decode_some hid a),
    bind_of_ok (field_some hdomainField a), bind_of_ok (decode_some hdomain a)]
  rfl

theorem replaceVoiceSnapshot_of_none (participants : List (Json F)) (a : Account)
    (h : snapshotChannel c value = none) : (replaceVoiceSnapshot c value participants a).2 = a := by
  unfold snapshotChannel at h
  unfold replaceVoiceSnapshot
  cases hidField : value.get? "channel_id" with
  | none => rw [bind_of_error (field_none hidField a)]
  | some idField =>
    rw [bind_of_ok (field_some hidField a)]
    cases hid : c.snowflake idField with
    | none => rw [bind_of_error (decode_none hid a)]
    | some id =>
      rw [bind_of_ok (decode_some hid a)]
      cases hdomainField : value.get? "channel_domain" with
      | none => rw [bind_of_error (field_none hdomainField a)]
      | some domainField =>
        rw [bind_of_ok (field_some hdomainField a)]
        cases hdomain : c.domain domainField with
        | none => rw [bind_of_error (decode_none hdomain a)]
        | some domain => simp [hidField, hid, hdomainField, hdomain] at h

/-- If a participant of a snapshot cannot be read, the ones before it were
there, and nobody else was in the channel. -/
def VoiceKeeps (c : Codec F) (stored : Table EntityRef VoiceState) (value : Json F) : Prop :=
  ∀ participants channel, value.get? "participants" = some (.arr participants) →
    snapshotChannel c value = some channel →
    (∃ participant ∈ participants, ∃ e, participantState c value channel participant = .error e) →
    SnapshotKeeps stored channel (readable c value channel participants)

theorem replaceVoiceSnapshot_keeps_iff {channel : EntityRef} (participants : List (Json F))
    (a : Account) (h : snapshotChannel c value = some channel) :
    (∀ e, (replaceVoiceSnapshot c value participants a).1 = .error e →
        a.Same (replaceVoiceSnapshot c value participants a).2) ↔
      ((∃ participant ∈ participants, ∃ e,
          participantState c value channel participant = .error e) →
        SnapshotKeeps a.voiceStates channel (readable c value channel participants)) := by
  rw [replaceVoiceSnapshot_eq participants a h, insertParticipants_state,
    ← insertParticipants_error_iff channel participants (a.leaveChannel channel),
    ← same_snapshot_iff]
  constructor
  · rintro hkeeps ⟨e, he⟩
    exact (hkeeps e he).voiceStates
  · intro hkeeps e he
    exact Account.same_withVoice (hkeeps ⟨e, he⟩)

theorem upsertVoice_keeps_iff (value : Json F) (a : Account) :
    (∀ e, (upsertVoice c value a).1 = .error e → a.Same (upsertVoice c value a).2) ↔
      VoiceKeeps c a.voiceStates value := by
  unfold upsertVoice VoiceKeeps
  rcases value.get? "participants" with - | item
  · refine ⟨fun _ _ _ h => (nomatch h), fun _ e he => ?_⟩
    rw [atomic_updateVoice value a e he]
    exact a.same_refl
  · cases item with
    | arr participants =>
      cases hchannel : snapshotChannel c value with
      | none =>
        refine ⟨fun _ _ _ _ h => (nomatch h), fun _ e _ => ?_⟩
        change a.Same (replaceVoiceSnapshot c value participants a).2
        rw [replaceVoiceSnapshot_of_none participants a hchannel]
        exact a.same_refl
      | some channel =>
        refine (replaceVoiceSnapshot_keeps_iff participants a hchannel).trans ⟨?_, ?_⟩
        · rintro h participants' channel' hparticipants hchannel'
          obtain rfl : participants = participants' := Json.arr.inj (Option.some.inj hparticipants)
          obtain rfl : channel = channel' := Option.some.inj hchannel'
          exact h
        · intro h
          exact h participants channel rfl rfl
    | null | bool _ | int _ | float _ | str _ | obj _ =>
      exact ⟨fun _ _ _ h => (nomatch h), fun _ _ _ => a.same_refl⟩

/-! ## Dispatches -/

theorem deleteMessagesBulk_keeps_iff (value : Json F) (a : Account) :
    (∀ e, (deleteMessagesBulk c value a).1 = .error e →
        a.Same (deleteMessagesBulk c value a).2) ↔
      ∀ channel keys, c.bulkDelete value = some (channel, keys) →
        a.state.BulkKeeps channel keys := by
  unfold deleteMessagesBulk decode
  cases hupdate : c.bulkDelete value with
  | none => exact ⟨fun _ _ _ h => (nomatch h), fun _ _ _ => a.same_refl⟩
  | some update =>
    obtain ⟨channel, keys⟩ := update
    constructor
    · rintro h channel' keys' hkeys
      obtain ⟨rfl, rfl⟩ := Prod.mk.inj (Option.some.inj hkeys)
      exact (a.state.deleteMessagesBulk_keeps_iff channel keys).mp fun e he => (h e he).state
    · intro h e he
      refine Account.same_withState ?_
      exact (a.state.deleteMessagesBulk_keeps_iff channel keys).mpr (h channel keys rfl) e he

/-- The dispatch is dropped for a gap, or it is not one of the two that
check as they write, or what that one writes was there. -/
def Account.Keeps (c : Codec F) (a : Account) (envelope : GatewayEnvelope F) : Prop :=
  a.gap envelope = false →
    (envelope.t = some "MESSAGE_DELETE_BULK" →
      ∀ channel keys, c.bulkDelete envelope.d = some (channel, keys) →
        a.state.BulkKeeps channel keys) ∧
    (envelope.t = some "VOICE_STATE_UPDATE" ∨ envelope.t = some "VOICE_CHANNEL_MOVE" →
      VoiceKeeps c a.voiceStates envelope.d)

theorem dispatchNamed_keeps_iff (now : Int) (envelope : GatewayEnvelope F) (a : Account) :
    (∀ e, (dispatchNamed c now envelope a).1 = .error e →
        a.Same (dispatchNamed c now envelope a).2) ↔
      (envelope.t = some "MESSAGE_DELETE_BULK" →
        ∀ channel keys, c.bulkDelete envelope.d = some (channel, keys) →
          a.state.BulkKeeps channel keys) ∧
      (envelope.t = some "VOICE_STATE_UPDATE" ∨ envelope.t = some "VOICE_CHANNEL_MOVE" →
        VoiceKeeps c a.voiceStates envelope.d) := by
  obtain ⟨s, t, d⟩ := envelope
  cases t with
  | none => simp [dispatchNamed, pure]
  | some event =>
    change (∀ e, (dispatch c now event d a).1 = .error e →
      a.Same (dispatch c now event d a).2) ↔ _
    by_cases hbulk : event = "MESSAGE_DELETE_BULK"
    · subst hbulk
      have hrun : dispatch c now "MESSAGE_DELETE_BULK" d = deleteMessagesBulk c d := rfl
      rw [hrun, deleteMessagesBulk_keeps_iff]
      simp
    · by_cases hvoice : event = "VOICE_STATE_UPDATE" ∨ event = "VOICE_CHANNEL_MOVE"
      · have hrun : dispatch c now event d = upsertVoice c d := by
          rcases hvoice with rfl | rfl <;> rfl
        rw [hrun, upsertVoice_keeps_iff]
        simp [hbulk, hvoice]
      · obtain ⟨hstate, hmove⟩ := not_or.mp hvoice
        refine ⟨fun _ => by simp [hbulk, hvoice], fun _ e he => ?_⟩
        rw [dispatch_atomic now d hbulk hstate hmove a e he]
        exact a.same_refl

/-- When an error leaves everything but the sequence number alone. -/
theorem reduce_keeps_iff (c : Codec F) (now : Int) (envelope : GatewayEnvelope F) (a : Account) :
    (∀ e, (reduce c now envelope a).1 = .error e → a.Same (reduce c now envelope a).2) ↔
      a.Keeps c envelope := by
  unfold Account.Keeps
  have hrun : reduce c now envelope a =
      (if a.gap envelope then pure { reconcileRequired := true }
        else dispatchNamed c now envelope : Handler)
        (a.sequenced (envelope.s.or a.state.sequence)) := rfl
  rw [hrun]
  cases hgap : a.gap envelope with
  | true => exact ⟨fun _ h => (nomatch h), fun _ _ he => (nomatch he)⟩
  | false =>
    rw [if_neg Bool.false_ne_true]
    have hkeeps := dispatchNamed_keeps_iff (c := c) now envelope
      (a.sequenced (envelope.s.or a.state.sequence))
    simp only [Account.same_sequenced] at hkeeps
    rw [hkeeps]
    exact ⟨fun h _ => h, fun h => h rfl⟩

/-! A bulk delete of two stored messages, the second in another channel. -/

def plainSnowflake : Json Unit → Option Snowflake
  | .str s =>
      if h : Nat.ofDigitChars 10 s.toList 0 ≤ maxSnowflake then
        if s.toList ≠ [] ∧ s.toList.all Char.isDigit then some ⟨_, h⟩ else none
      else none
  | _ => none

def plainDomain : Json Unit → Option Domain
  | .str s =>
      if h : s.length ≤ 253 ∧ (s.toList.splitOn '.').all domainLabel = true then some ⟨s, h⟩
      else none
  | _ => none

def plainRef (value : Json Unit) (idName domainName : String) : Option EntityRef := do
  let id ← value.get? idName
  let id ← plainSnowflake id
  let domain ← value.get? domainName
  let domain ← plainDomain domain
  pure ⟨id, domain⟩

def plainBulkDelete (value : Json Unit) : Option (EntityRef × List EntityRef) :=
  match value.get? "ids" with
  | some (.arr items) => do
      let keys ← items.mapM fun item => plainRef item "id" "origin_domain"
      let channel ← plainRef value "channel_id" "channel_domain"
      pure (channel, keys)
  | _ => none

theorem plain_reads_back (key : EntityRef) :
    plainSnowflake (.str (toString key.id.value)) = some key.id ∧
      plainDomain (.str key.domain.text) = some key.domain := by
  refine ⟨?_, dif_pos key.domain.normal⟩
  have hvalue : Nat.ofDigitChars 10 (toString key.id.value).toList 0 = key.id.value := by
    rw [Nat.toString_eq_repr, Nat.toList_repr, Nat.ofDigitChars_ten_toDigits]
  have hdigits : (toString key.id.value).toList ≠ [] ∧
      (toString key.id.value).toList.all Char.isDigit := by
    rw [Nat.toString_eq_repr, Nat.toList_repr]
    exact ⟨Nat.toDigits_ne_nil, List.all_eq_true.mpr fun d hd =>
      Nat.isDigit_of_mem_toDigits (by omega) (by omega) hd⟩
  rw [plainSnowflake, dif_pos (hvalue.trans_le key.id.le_max), if_pos hdigits]
  simp only [hvalue]

/-- It reads identities and bulk deletes. -/
def plainCodec : Codec Unit where
  snowflake := plainSnowflake
  domain := plainDomain
  bool _ := none
  user _ := none
  message _ := none
  encodeMessage _ := none
  channel _ := none
  guild _ := none
  role _ := none
  member _ := none
  presence _ := none
  voiceState _ := none
  encodeVoiceState _ := none
  call _ := none
  readState _ := none
  emoji _ := none
  ready _ := none
  resumed _ := none
  typingStart _ := none
  bulkDelete := plainBulkDelete
  reactionUpdate _ := none
  pollVote _ := none
  rejection _ := none
  delivery _ := none
  attachmentUpdate _ := none
  dmRejection _ := none
  chunk _ := none
  memberList _ := none
  permissionUpdate _ := none
  threadSync _ := none
  historyUpdate _ := none
  relationshipUpdate _ := none
  reads_back := plain_reads_back

/-- An identity of `a.example`. -/
def plainKey (id : Fin 100) : EntityRef where
  id := ⟨id, id.isLt.le.trans (by decide)⟩
  domain := ⟨"a.example", by decide⟩

def twoChannels : Account where
  state := {
    messages := Table.insertAll Message.key
      [{ key := plainKey 1, channelKey := plainKey 10, createdAt := 0 },
        { key := plainKey 2, channelKey := plainKey 20, createdAt := 0 }] ∅ }

def deleteBoth : GatewayEnvelope Unit where
  s := none
  t := some "MESSAGE_DELETE_BULK"
  d := .obj [("ids", .arr [.obj [("id", .str "1"), ("origin_domain", .str "a.example")],
      .obj [("id", .str "2"), ("origin_domain", .str "a.example")]]),
    ("channel_id", .str "10"), ("channel_domain", .str "a.example")]

/-- The first message is gone, and the dispatch failed. -/
theorem bulk_delete_not_atomic :
    ¬ ∀ (c : Codec Unit) (now : Int) (envelope : GatewayEnvelope Unit) (a : Account)
        (e : ReduceError), (reduce c now envelope a).1 = .error e →
          a.Same (reduce c now envelope a).2 := by
  intro h
  have herror : (reduce plainCodec 0 deleteBoth twoChannels).1 =
      .error (.missingField "bulk delete message/channel linkage") := by decide +kernel
  have hsame := h plainCodec 0 deleteBoth twoChannels _ herror
  have hgone : (reduce plainCodec 0 deleteBoth twoChannels).2.state.messages.lookup
      (plainKey 1) = none := by decide +kernel
  have hthere : (twoChannels.state.messages.lookup (plainKey 1)).isSome := by decide
  rw [← hsame.state.messages, hgone] at hthere
  cases hthere

end Desktop

end Kaede
