import Kaede.DesktopState

/-!
# Channels the desktop client lost access to

A channel that is deleted or revoked leaves the channel map and is marked,
and a marked channel's messages are dropped. `CHANNEL_CREATE` and its
siblings clear the mark when the channel comes back; the bulk paths
(hydration, `READY`, guild payloads, thread synchronisation) insert
channels without a look at it. As long as none of them brings a marked
channel, a channel is never present and marked at once.
-/

namespace Kaede

namespace Desktop

namespace AppState

/-- No channel is both present and marked. -/
def AccessOk (s : AppState) : Prop := ∀ key ∈ s.channels, key ∉ s.inaccessibleChannels

def Unmarked (s : AppState) (channels : List Channel) : Prop :=
  ∀ channel ∈ channels, channel.key ∉ s.inaccessibleChannels

def bulkChannels (guilds : List Guild) : List Channel := guilds.flatMap Guild.channels

/-- The channels an event inserts without clearing their marks. -/
def eventBulk : Event → List Channel
  | .ready payload => bulkChannels payload.guilds ++ payload.dmChannels
  | .guildUpsert guild => guild.channels
  | .threadListSync threads => threads
  | _ => []

def inputBulk (s : AppState) : Input → List Channel
  | .hydrateGuilds guilds => bulkChannels guilds
  | .hydrateChannels channels => channels
  | .reduce envelope => ((s.accepted envelope).map eventBulk).getD []
  | _ => []

/-- No bulk path brings a marked channel. -/
def BulkUnmarked (s : AppState) (input : Input) : Prop := s.Unmarked (s.inputBulk input)

section

variable {s s' : AppState}

/-- Two states with the same channels and the same marks. -/
structure SameAccess (s s' : AppState) : Prop where
  channels : ∀ key, key ∈ s'.channels ↔ key ∈ s.channels
  marks : s'.inaccessibleChannels = s.inaccessibleChannels

theorem AccessOk.same (h : s.AccessOk) (hsame : s.SameAccess s') : s'.AccessOk := by
  intro key hkey
  rw [hsame.marks]
  exact h key ((hsame.channels key).mp hkey)

theorem mem_modify {f : Channel → Channel} {key j : EntityRef} :
    j ∈ s.channels.modify key f ↔ j ∈ s.channels := by
  rw [← AList.lookup_isSome, ← AList.lookup_isSome, Table.lookup_modify]
  split <;> simp

theorem mem_mapValues {f : Channel → Channel} {j : EntityRef} :
    j ∈ s.channels.mapValues f ↔ j ∈ s.channels := by
  rw [← AList.lookup_isSome, ← AList.lookup_isSome, Table.lookup_mapValues, Option.isSome_map]

theorem mem_hydrateChannels {channels : List Channel} {key : EntityRef}
    (h : key ∈ (s.hydrateChannels channels).channels) :
    key ∈ s.channels ∨ ∃ channel ∈ channels, channel.key = key := by
  rw [← AList.lookup_isSome] at h
  rcases Table.lookup_insertAll Channel.key channels s.channels key
    with ⟨hsame, -⟩ | ⟨channel, hchannel, hkey, -⟩
  · have hlookup : (s.hydrateChannels channels).channels.lookup key = s.channels.lookup key := hsame
    rw [hlookup, AList.lookup_isSome] at h
    exact .inl h
  · exact .inr ⟨channel, hchannel, hkey⟩

theorem AccessOk.hydrateChannels (h : s.AccessOk) {channels : List Channel}
    (hunmarked : s.Unmarked channels) : (s.hydrateChannels channels).AccessOk := by
  intro key hkey
  rcases mem_hydrateChannels hkey with hkey | ⟨channel, hchannel, rfl⟩
  · exact h key hkey
  · exact hunmarked channel hchannel

theorem hydrateGuilds_marks (guilds : List Guild) (s : AppState) :
    (s.hydrateGuilds guilds).inaccessibleChannels = s.inaccessibleChannels := by
  induction guilds generalizing s with
  | nil => rfl
  | cons guild guilds ih => exact ih _

theorem AccessOk.hydrateGuilds (h : s.AccessOk) {guilds : List Guild}
    (hunmarked : s.Unmarked (bulkChannels guilds)) : (s.hydrateGuilds guilds).AccessOk := by
  induction guilds generalizing s with
  | nil => exact h
  | cons guild guilds ih =>
      have hguild : (s.hydrateGuild guild).AccessOk :=
        h.hydrateChannels fun channel hchannel =>
          hunmarked channel (List.mem_append_left _ hchannel)
      exact ih hguild fun channel hchannel => hunmarked channel (List.mem_append_right _ hchannel)

theorem AccessOk.upsertChannel (h : s.AccessOk) (channel : Channel) :
    (s.upsertChannel channel).1.AccessOk := by
  intro key hkey
  simp only [AppState.upsertChannel, changed, AList.mem_insert] at hkey
  simp only [AppState.upsertChannel, changed, List.mem_filter, decide_eq_true_eq, not_and, not_not]
  intro hmark
  rcases hkey with hkey | hkey
  · exact hkey
  · exact absurd hmark (h key hkey)

theorem AccessOk.removeChannelState (h : s.AccessOk) (key : EntityRef) :
    (s.removeChannelState key).AccessOk := by
  intro j hj
  simp only [AppState.removeChannelState, AList.mem_erase] at hj
  simp only [AppState.removeChannelState, List.mem_insert_iff, not_or]
  exact ⟨hj.1, h j hj.2⟩

theorem AccessOk.removeGuild (h : s.AccessOk) (key : EntityRef) :
    (s.removeGuild key).1.AccessOk := by
  have hloop (channels : List EntityRef) (t : AppState) (ht : t.AccessOk) :
      (channels.foldl AppState.removeChannelState t).AccessOk := by
    induction channels generalizing t with
    | nil => exact ht
    | cons channel channels ih => exact ih _ (ht.removeChannelState channel)
  exact hloop _ _ (h.same ⟨fun _ => Iff.rfl, rfl⟩)

theorem sameAccess_editMessage {key : EntityRef} {f : Message → Except ReduceError Message} :
    s.SameAccess (s.editMessage key f).1 := by
  unfold editMessage
  split
  · exact ⟨fun _ => Iff.rfl, rfl⟩
  · split <;> exact ⟨fun _ => Iff.rfl, rfl⟩

theorem sameAccess_deleteMessagesBulk {channel : EntityRef} {wasChanged : Bool}
    {keys : List EntityRef} :
    s.SameAccess (s.deleteMessagesBulk channel wasChanged keys).1 := by
  induction keys generalizing s wasChanged with
  | nil => exact ⟨fun _ => Iff.rfl, rfl⟩
  | cons key keys ih =>
      unfold deleteMessagesBulk
      split
      · exact ⟨fun _ => Iff.rfl, rfl⟩
      · exact ⟨fun k => ih.channels k, ih.marks⟩

theorem AccessOk.handle (h : s.AccessOk) {event : Event} (hbulk : s.Unmarked (eventBulk event)) :
    (s.handle event).1.AccessOk := by
  have huntouched {t : AppState} (hchannels : t.channels = s.channels)
      (hmarks : t.inaccessibleChannels = s.inaccessibleChannels) : t.AccessOk :=
    h.same ⟨fun _ => by rw [hchannels], hmarks⟩
  cases event with
  | ready payload =>
      let identified := { s with currentUser := some payload.user }
      have hidentified : identified.AccessOk := huntouched rfl rfl
      have hguilds : (identified.hydrateGuilds payload.guilds).AccessOk :=
        hidentified.hydrateGuilds fun channel hchannel =>
          hbulk channel (List.mem_append_left _ hchannel)
      refine hguilds.hydrateChannels fun channel hchannel => ?_
      rw [hydrateGuilds_marks]
      exact hbulk channel (List.mem_append_right _ hchannel)
  | guildUpsert guild =>
      refine h.hydrateGuilds fun channel hchannel => hbulk channel ?_
      simpa [bulkChannels, eventBulk] using hchannel
  | threadListSync threads => exact h.hydrateChannels hbulk
  | channelUpsert channel => exact h.upsertChannel channel
  | channelRemove key => exact h.removeChannelState key
  | guildDelete key => exact h.removeGuild key
  | channelPermissionUpdate key permissions =>
      simp only [AppState.handle, updateChannelPermissions]
      split
      · exact h
      · exact h.same ⟨fun _ => mem_modify, rfl⟩
  | userUpdate user => exact h.same ⟨fun _ => mem_mapValues, rfl⟩
  | messageCreate message =>
      simp only [AppState.handle, upsertMessage]
      split <;> exact huntouched rfl rfl
  | messageUpdate message =>
      simp only [AppState.handle, upsertMessage]
      split <;> exact huntouched rfl rfl
  | messageDeleteBulk channel keys => exact h.same sameAccess_deleteMessagesBulk
  | attachmentUpdate key attachment => exact h.same sameAccess_editMessage
  | messageReaction added key user reaction =>
      simp only [AppState.handle, updateReaction]
      split
      · exact h
      · exact h.same sameAccess_editMessage
  | messageReactionClear key reaction => exact h.same sameAccess_editMessage
  | messagePinUpdate key channel pinned =>
      simp only [AppState.handle, updatePin]
      split
      · exact h
      · exact h.same sameAccess_editMessage
  | messageUpdatePin key pinned =>
      simp only [AppState.handle, updateMessagePin]
      split <;> exact huntouched rfl rfl
  | messagePollVote added key user answerId =>
      simp only [AppState.handle, updatePollVote]
      split
      · exact h
      · split
        · exact h
        · split <;> exact huntouched rfl rfl
  | guildHistorySyncUpdate key status code retryAfterMs resource =>
      simp only [AppState.handle, updateGuildHistorySync]
      split
      · exact h
      · split <;> exact huntouched rfl rfl
  | messageDelete key => exact huntouched rfl rfl
  | messageDeliveryUpdate key status code => exact huntouched rfl rfl
  | messageSendRejected nonce code reason => exact huntouched rfl rfl
  | unrelated result => exact h
  | unknown name => exact h
  | malformed error => exact h

theorem AccessOk.reduce (h : s.AccessOk) {envelope : Envelope}
    (hbulk : s.BulkUnmarked (.reduce envelope)) : (s.reduce envelope).1.AccessOk := by
  have hnumbered (number : Option Nat) : AccessOk { s with sequence := number } :=
    h.same ⟨fun _ => Iff.rfl, rfl⟩
  obtain ⟨number, event⟩ := envelope
  cases number with
  | none =>
      cases event with
      | none => exact h
      | some event => exact h.handle hbulk
  | some number =>
      simp only [AppState.reduce]
      split
      · exact hnumbered _
      · rename_i hgap
        have haccepted : s.accepted ⟨some number, event⟩ = event := if_neg hgap
        rw [BulkUnmarked, inputBulk, haccepted] at hbulk
        cases event with
        | none => exact hnumbered _
        | some event => exact (hnumbered _).handle hbulk

theorem AccessOk.step (h : s.AccessOk) {input : Input} (hbulk : s.BulkUnmarked input)
    (hstep : s.step input = some s') : s'.AccessOk := by
  have huntouched (hchannels : s'.channels = s.channels)
      (hmarks : s'.inaccessibleChannels = s.inaccessibleChannels) : s'.AccessOk :=
    h.same ⟨fun _ => by rw [hchannels], hmarks⟩
  cases input with
  | hydrateGuilds guilds =>
      obtain rfl := Option.some.inj hstep
      exact h.hydrateGuilds hbulk
  | hydrateChannels channels =>
      obtain rfl := Option.some.inj hstep
      exact h.hydrateChannels hbulk
  | reduce envelope =>
      obtain rfl := Option.some.inj hstep
      exact h.reduce hbulk
  | hydrateMessages channel messages =>
      obtain rfl := Option.some.inj hstep
      refine huntouched ?_ ?_ <;> simp only [hydrateMessages, mergeMessageWindow] <;> split <;> rfl
  | hydrateOlderMessages channel messages =>
      obtain rfl := Option.some.inj hstep
      refine huntouched ?_ ?_ <;> simp only [hydrateOlderMessages, mergeMessageWindow] <;> split <;>
        rfl
  | hydrateIdentity user =>
      obtain rfl := Option.some.inj hstep
      exact huntouched rfl rfl
  | hydrateUnrelated =>
      obtain rfl := Option.some.inj hstep
      exact h
  | enqueueMessage pending =>
      obtain rfl := Option.some.inj hstep
      exact huntouched rfl rfl
  | markMessageQueued nonce =>
      obtain rfl := Option.some.inj hstep
      exact huntouched rfl rfl
  | failMessage nonce reason =>
      obtain rfl := Option.some.inj hstep
      exact huntouched rfl rfl
  | retryMessage nonce =>
      obtain rfl := Option.some.inj hstep
      exact huntouched rfl rfl

/-- A message of a present channel goes through. -/
theorem AccessOk.upsertMessage_changed (h : s.AccessOk) {message : Message}
    (hpresent : message.channelKey ∈ s.channels) :
    (s.upsertMessage message).2 = .ok { changed := true } := by
  rw [upsertMessage, if_neg (h _ hpresent)]
  rfl

end

/-- As long as no bulk path brings a marked channel, no channel is present
and marked, and no message of a present channel is dropped. -/
theorem access_run {inputs : List Input} {s : AppState}
    (hrun : Exec step BulkUnmarked {} inputs s) :
    (∀ key ∈ s.channels, key ∉ s.inaccessibleChannels) ∧
    ∀ message : Message, message.channelKey ∈ s.channels →
      (s.upsertMessage message).2 = .ok { changed := true } := by
  have haccess : s.AccessOk :=
    hrun.invariant (fun _ _ _ h hbulk hstep => h.step hbulk hstep) fun _ hkey =>
      absurd hkey (AList.notMem_empty _)
  exact ⟨haccess, fun _ hpresent => haccess.upsertMessage_changed hpresent⟩

/-! ### A channel that comes back in bulk -/

def lostChannel : Channel where
  key := ⟨⟨2, by decide⟩, sampleDomain⟩

/-- A channel is revoked and granted again. -/
theorem access_run_granted :
    ∃ s, Exec step BulkUnmarked {}
        [.hydrateChannels [lostChannel], .reduce ⟨some 1, some (.channelRemove lostChannel.key)⟩,
          .reduce ⟨some 2, some (.channelUpsert lostChannel)⟩] s ∧
      lostChannel.key ∈ s.channels ∧
      (∀ key ∈ s.channels, key ∉ s.inaccessibleChannels) := by
  have hrun : ∃ s, Exec step BulkUnmarked {}
      [.hydrateChannels [lostChannel], .reduce ⟨some 1, some (.channelRemove lostChannel.key)⟩,
        .reduce ⟨some 2, some (.channelUpsert lostChannel)⟩] s ∧ lostChannel.key ∈ s.channels :=
    ⟨_, .cons (by simp [BulkUnmarked, Unmarked]) rfl
      (.cons (fun _ h => absurd h List.not_mem_nil) rfl
        (.cons (fun _ h => absurd h List.not_mem_nil) rfl (.nil _))), by decide⟩
  obtain ⟨s, hrun, hpresent⟩ := hrun
  exact ⟨s, hrun, hpresent, (access_run hrun).1⟩

/-- A channel is revoked and comes back with a page of channels. -/
theorem access_fails :
    ¬ ∀ (inputs : List Input) (s : AppState), Exec step Always {} inputs s →
      ∀ key ∈ s.channels, key ∉ s.inaccessibleChannels := by
  intro h
  have hrun : ∃ s, Exec step Always {}
      [.reduce ⟨some 1, some (.channelRemove lostChannel.key)⟩,
        .hydrateChannels [lostChannel]] s ∧
      lostChannel.key ∈ s.channels ∧ lostChannel.key ∈ s.inaccessibleChannels :=
    ⟨_, .cons trivial rfl (.cons trivial rfl (.nil _)), by decide, by decide⟩
  obtain ⟨s, hrun, hpresent, hmarked⟩ := hrun
  exact h _ s hrun _ hpresent hmarked

end AppState

end Desktop

end Kaede
