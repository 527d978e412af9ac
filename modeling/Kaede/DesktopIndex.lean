import Kaede.DesktopState

/-!
# The message index of the desktop client

A message is stored under its key and listed in the order of its channel.
Of all inputs only five operations touch the two tables: a page is merged
into a channel's window, a live message is added, a message is deleted
(everywhere, or from one channel in a bulk deletion), and a channel goes
with its messages. `IndexRules.step` takes an input apart once; what the
five operations keep, every run keeps.

The lists and the map stay in step as long as a hydrated page only brings
messages of the channel it is merged into, or messages already stored. A
message of another channel is stored and listed nowhere.
-/

namespace Kaede

namespace Desktop

/-- What the index depends on in a stored message. -/
def Message.place (m : Message) : EntityRef × EntityRef × Int := (m.key, m.channelKey, m.createdAt)

namespace AppState

def place (s : AppState) (key : EntityRef) : Option (EntityRef × EntityRef × Int) :=
  (s.messages.lookup key).map Message.place

/-- The channel of the message stored under a key. -/
def home (s : AppState) (key : EntityRef) : Option EntityRef :=
  (s.messages.lookup key).map Message.channelKey

/-- Two states that list the same keys and store the same messages, up to
what an edit may change. -/
structure SameIndex (s s' : AppState) : Prop where
  order : ∀ channel, s'.order channel = s.order channel
  place : ∀ key, s'.place key = s.place key

section

variable {s s' : AppState} {key channel : EntityRef}

theorem SameIndex.refl (s : AppState) : s.SameIndex s := ⟨fun _ => rfl, fun _ => rfl⟩

theorem place_modify {f : Message → Message} (hf : ∀ m, (f m).place = m.place) (j : EntityRef) :
    ((s.messages.modify key f).lookup j).map Message.place = s.place j := by
  rw [Table.lookup_modify, place]
  split
  · cases s.messages.lookup j <;> simp [hf]
  · rfl

theorem sameIndex_modify {f : Message → Message} (hf : ∀ m, (f m).place = m.place) :
    s.SameIndex { s with messages := s.messages.modify key f } :=
  ⟨fun _ => rfl, fun j => place_modify hf j⟩

theorem sameIndex_editMessage {f : Message → Except ReduceError Message}
    (hf : ∀ m m', f m = .ok m' → m'.place = m.place) :
    s.SameIndex (s.editMessage key f).1 := by
  unfold editMessage
  cases hm : s.messages.lookup key with
  | none => exact .refl s
  | some m =>
      cases hedit : f m with
      | error e => simpa [hedit] using SameIndex.refl s
      | ok m' =>
          simp only [hedit, changed]
          refine ⟨fun _ => rfl, fun j => ?_⟩
          simp only [place, Table.lookup_modify]
          split
          · rename_i hj
            subst hj
            simp [hm, hf m m' hedit]
          · rfl

end

/-! ## Taking an input apart -/

def eventAdmits (live : AppState → Message → Prop) (s : AppState) : Event → Prop
  | .messageCreate message | .messageUpdate message => live s message
  | _ => True

/-- A condition on inputs: on the pages that are hydrated and on the
complete messages that live events bring, if they are handled. -/
def admits (page : AppState → EntityRef → List Message → MessageWindowEdge → Prop)
    (live : AppState → Message → Prop) (s : AppState) : Input → Prop
  | .hydrateMessages channel messages => page s channel messages .newest
  | .hydrateOlderMessages channel messages => page s channel messages .oldest
  | .reduce envelope => ∀ event ∈ s.accepted envelope, eventAdmits live s event
  | _ => True

/-- What a property of the index has to survive. -/
structure IndexRules (I : AppState → Prop)
    (page : AppState → EntityRef → List Message → MessageWindowEdge → Prop)
    (live : AppState → Message → Prop) : Prop where
  sequence : ∀ {s : AppState} {message number}, live s message →
    live { s with sequence := number } message
  same : ∀ {s s' : AppState}, s.SameIndex s' → I s → I s'
  merge : ∀ {s : AppState} {channel messages edge}, I s → page s channel messages edge →
    channel ∉ s.inaccessibleChannels → I (s.mergeMessageWindow channel messages edge)
  upsert : ∀ {s : AppState} {message}, I s → live s message →
    message.channelKey ∉ s.inaccessibleChannels → I (s.upsertMessage message).1
  delete : ∀ {s : AppState} {key}, I s → I (s.deleteMessage key).1
  deleteListed : ∀ {s : AppState} {channel key}, I s → (∀ c, s.home key = some c → c = channel) →
    I (s.deleteListed channel key)
  remove : ∀ {s : AppState} {key}, I s → I (s.removeChannelState key)

namespace IndexRules

variable {I : AppState → Prop}
  {page : AppState → EntityRef → List Message → MessageWindowEdge → Prop}
  {live : AppState → Message → Prop} {s s' : AppState}

/-- A step that writes neither table. -/
theorem untouched (h : IndexRules I page live) (hs : I s)
    (horder : s'.messageOrder = s.messageOrder) (hmessages : s'.messages = s.messages) : I s' :=
  h.same ⟨fun _ => by rw [order, order, horder], fun _ => by rw [place, place, hmessages]⟩ hs

theorem mergeMessageWindow (h : IndexRules I page live) {channel : EntityRef}
    {messages : List Message} {edge : MessageWindowEdge} (hs : I s)
    (hpage : page s channel messages edge) : I (s.mergeMessageWindow channel messages edge) := by
  by_cases hmark : channel ∈ s.inaccessibleChannels
  · rw [AppState.mergeMessageWindow, if_pos hmark]
    exact hs
  · exact h.merge hs hpage hmark

theorem upsertMessage (h : IndexRules I page live) {message : Message} (hs : I s)
    (hlive : live s message) : I (s.upsertMessage message).1 := by
  by_cases hmark : message.channelKey ∈ s.inaccessibleChannels
  · rw [AppState.upsertMessage, if_pos hmark]
    exact hs
  · exact h.upsert hs hlive hmark

theorem deleteMessagesBulk (h : IndexRules I page live) {channel : EntityRef} {wasChanged : Bool}
    {keys : List EntityRef} (hs : I s) :
    I (s.deleteMessagesBulk channel wasChanged keys).1 := by
  induction keys generalizing s wasChanged with
  | nil => exact hs
  | cons key keys ih =>
      unfold AppState.deleteMessagesBulk
      split
      · exact hs
      · rename_i hlinked
        refine ih (h.deleteListed hs fun c hc => ?_)
        obtain ⟨m, hm, rfl⟩ := Option.map_eq_some_iff.mp hc
        simpa [hm] using hlinked

theorem removeGuild (h : IndexRules I page live) {key : EntityRef} (hs : I s) :
    I (s.removeGuild key).1 := by
  have hloop (channels : List EntityRef) (t : AppState) (ht : I t) :
      I (channels.foldl removeChannelState t) := by
    induction channels generalizing t with
    | nil => exact ht
    | cons channel channels ih => exact ih _ (h.remove ht)
  exact hloop _ _ (h.untouched hs rfl rfl)

theorem sameIndex_hydrateGuilds (guilds : List Guild) (s : AppState) :
    s.SameIndex (s.hydrateGuilds guilds) := by
  induction guilds generalizing s with
  | nil => exact .refl s
  | cons guild guilds ih => exact ⟨(ih _).order, (ih _).place⟩

theorem sameIndex_upsertUser (s : AppState) (user : User) :
    s.SameIndex (s.upsertUser user).1 := by
  refine ⟨fun _ => rfl, fun j => ?_⟩
  simp only [AppState.upsertUser, changed, place, Table.lookup_mapValues, Option.map_map]
  congr 1
  funext m
  simp only [Function.comp_apply]
  split <;> rfl

theorem handle (h : IndexRules I page live) {event : Event} (hs : I s)
    (hlive : eventAdmits live s event) : I (s.handle event).1 := by
  cases event with
  | messageCreate message => exact h.upsertMessage hs hlive
  | messageUpdate message => exact h.upsertMessage hs hlive
  | messageDelete key => exact h.delete hs
  | messageDeleteBulk channel keys => exact h.deleteMessagesBulk hs
  | channelRemove key => exact h.remove hs
  | guildDelete key => exact h.removeGuild hs
  | ready payload =>
      have huser : I { s with currentUser := some payload.user } := h.untouched hs rfl rfl
      exact h.untouched (h.same (sameIndex_hydrateGuilds payload.guilds _) huser) rfl rfl
  | guildUpsert guild => exact h.same (sameIndex_hydrateGuilds _ _) hs
  | userUpdate user => exact h.same (sameIndex_upsertUser s user) hs
  | attachmentUpdate key attachment =>
      refine h.same (sameIndex_editMessage fun m m' hm => ?_) hs
      rw [← Except.ok.inj hm]
      rfl
  | messageUpdatePin key pinned =>
      refine h.same ?_ hs
      simp only [AppState.handle, updateMessagePin]
      split
      · exact .refl s
      · exact sameIndex_modify fun m => rfl
      · exact .refl s
  | messageReaction added key user reaction =>
      refine h.same ?_ hs
      simp only [AppState.handle, updateReaction]
      split
      · exact .refl s
      · refine sameIndex_editMessage fun m m' hm => ?_
        rw [← Except.ok.inj hm]
        rfl
  | messageReactionClear key reaction =>
      refine h.same (sameIndex_editMessage fun m m' hm => ?_) hs
      split at hm
      · rw [← Except.ok.inj hm]
        rfl
      · cases hm
      · cases hm
      · rw [← Except.ok.inj hm]
        rfl
  | messagePinUpdate key channel pinned =>
      refine h.same ?_ hs
      simp only [AppState.handle, updatePin]
      split
      · exact .refl s
      · refine sameIndex_editMessage fun m m' hm => ?_
        split at hm
        · cases hm
        · split at hm
          · cases hm
          · rw [← Except.ok.inj hm]
            rfl
          · rw [← Except.ok.inj hm]
            rfl
  | messagePollVote added key user answerId =>
      refine h.same ?_ hs
      simp only [AppState.handle, updatePollVote]
      split
      · exact .refl s
      · split
        · exact .refl s
        · split
          · exact .refl s
          · exact sameIndex_modify fun m => rfl
  | messageDeliveryUpdate key status code => exact h.same (sameIndex_modify fun m => rfl) hs
  | channelPermissionUpdate key permissions =>
      refine h.same ?_ hs
      simp only [AppState.handle, updateChannelPermissions]
      split
      · exact .refl s
      · exact ⟨fun _ => rfl, fun _ => rfl⟩
  | guildHistorySyncUpdate key status code retryAfterMs resource =>
      refine h.same ?_ hs
      simp only [AppState.handle, updateGuildHistorySync]
      split
      · exact .refl s
      · split
        · exact .refl s
        · exact ⟨fun _ => rfl, fun _ => rfl⟩
  | channelUpsert channel => exact h.untouched hs rfl rfl
  | threadListSync threads => exact h.untouched hs rfl rfl
  | messageSendRejected nonce code reason => exact h.untouched hs rfl rfl
  | unrelated result => exact hs
  | unknown name => exact hs
  | malformed error => exact hs

theorem reduce (h : IndexRules I page live) {envelope : Envelope} (hs : I s)
    (hlive : ∀ event ∈ s.accepted envelope, eventAdmits live s event) :
    I (s.reduce envelope).1 := by
  have hnumbered (number : Option Nat) : I { s with sequence := number } := h.untouched hs rfl rfl
  obtain ⟨number, event⟩ := envelope
  cases number with
  | none =>
      cases event with
      | none => exact hs
      | some event => exact h.handle hs (hlive event rfl)
  | some number =>
      simp only [AppState.reduce]
      split
      · exact hnumbered _
      · rename_i hgap
        have haccepted : s.accepted ⟨some number, event⟩ = event := if_neg hgap
        rw [haccepted] at hlive
        cases event with
        | none => exact hnumbered _
        | some event =>
            refine h.handle (hnumbered _) ?_
            have hevent := hlive event rfl
            cases event <;> first | exact h.sequence hevent | trivial

/-- Whatever arrives, an input acts on the index by the five operations. -/
theorem step (h : IndexRules I page live) {input : Input} (hs : I s)
    (hadmits : admits page live s input) (hstep : s.step input = some s') : I s' := by
  cases input with
  | hydrateGuilds guilds =>
      obtain rfl := Option.some.inj hstep
      exact h.same (sameIndex_hydrateGuilds guilds s) hs
  | hydrateMessages channel messages =>
      obtain rfl := Option.some.inj hstep
      exact h.mergeMessageWindow hs hadmits
  | hydrateOlderMessages channel messages =>
      obtain rfl := Option.some.inj hstep
      exact h.mergeMessageWindow hs hadmits
  | reduce envelope =>
      obtain rfl := Option.some.inj hstep
      exact h.reduce hs hadmits
  | hydrateIdentity user =>
      obtain rfl := Option.some.inj hstep
      exact h.untouched hs rfl rfl
  | hydrateChannels channels =>
      obtain rfl := Option.some.inj hstep
      exact h.untouched hs rfl rfl
  | hydrateUnrelated =>
      obtain rfl := Option.some.inj hstep
      exact hs
  | enqueueMessage pending =>
      obtain rfl := Option.some.inj hstep
      exact h.untouched hs rfl rfl
  | markMessageQueued nonce =>
      obtain rfl := Option.some.inj hstep
      exact h.untouched hs rfl rfl
  | failMessage nonce reason =>
      obtain rfl := Option.some.inj hstep
      exact h.untouched hs rfl rfl
  | retryMessage nonce =>
      obtain rfl := Option.some.inj hstep
      exact h.untouched hs rfl rfl

end IndexRules

/-! ## What the operations write -/

section

variable {s : AppState} {channel key : EntityRef} {messages : List Message}
  {edge : MessageWindowEdge} {message : Message}

theorem order_insert {l : List EntityRef} (c : EntityRef) :
    { s with messageOrder := s.messageOrder.insert channel l }.order c =
      if c = channel then l else s.order c := by
  simp only [order, Table.lookup_insert_ite]
  split <;> rfl

theorem cutWindow_perm (l : List EntityRef) (edge : MessageWindowEdge) :
    ((cutWindow l edge).1 ++ (cutWindow l edge).2).Perm l := by
  cases edge with
  | newest => simp [cutWindow]
  | oldest =>
      simp only [cutWindow, List.splitAt_eq, Prod.swap_prod_mk]
      refine List.perm_append_comm.trans ?_
      rw [List.take_append_drop]

theorem length_cutWindow_le (l : List EntityRef) (edge : MessageWindowEdge) :
    (cutWindow l edge).2.length ≤ maxMessagesPerChannel := by
  cases edge with
  | newest =>
      simp only [cutWindow, List.splitAt_eq, List.length_drop]
      omega
  | oldest =>
      simp only [cutWindow, List.splitAt_eq, Prod.swap_prod_mk, List.length_take]
      omega

theorem mem_windowKeys : key ∈ s.windowKeys channel messages ↔
    (key ∈ s.order channel ∨ key ∈ messages.map Message.key) ∧
      ((s.messages.insertAll Message.key messages).lookup key).map Message.channelKey =
        some channel := by
  simp only [windowKeys, sortKeys, List.mem_insertionSort, List.mem_filter, List.mem_dedup,
    List.mem_append]
  cases (s.messages.insertAll Message.key messages).lookup key <;> simp

theorem nodup_windowKeys : (s.windowKeys channel messages).Nodup := by
  simp only [windowKeys, sortKeys]
  rw [(List.perm_insertionSort _ _).nodup_iff]
  exact (List.nodup_dedup _).filter _

theorem mem_listedWith : key ∈ s.listedWith message ↔
    key = message.key ∨ key ∈ s.order message.channelKey := by
  unfold listedWith
  split
  · rename_i hin
    exact ⟨.inr, fun hk => hk.elim (fun hk => hk ▸ hin) id⟩
  · rw [List.mem_append, List.mem_singleton, or_comm]

theorem nodup_listedWith (h : (s.order message.channelKey).Nodup) :
    (s.listedWith message).Nodup := by
  unfold listedWith
  split
  · exact h
  · rename_i hin
    rw [List.nodup_append_comm]
    exact List.nodup_cons.mpr ⟨hin, h⟩

theorem home_eraseAll {gone : List EntityRef} {stored : Table EntityRef Message} (k : EntityRef) :
    ((Table.eraseAll gone stored).lookup k).map Message.channelKey =
      if k ∈ gone then none else (stored.lookup k).map Message.channelKey := by
  rw [Table.lookup_eraseAll]
  split <;> rfl

theorem home_erase (k : EntityRef) :
    ((s.messages.erase key).lookup k).map Message.channelKey =
      if k = key then none else s.home k := by
  rw [Table.lookup_erase_ite]
  split <;> rfl

theorem order_mergeMessageWindow (hmark : channel ∉ s.inaccessibleChannels) (c : EntityRef) :
    (s.mergeMessageWindow channel messages edge).order c =
      if c = channel then (cutWindow (s.windowKeys channel messages) edge).2 else s.order c := by
  rw [mergeMessageWindow, if_neg hmark]
  exact order_insert c

theorem home_mergeMessageWindow (hmark : channel ∉ s.inaccessibleChannels) (k : EntityRef) :
    (s.mergeMessageWindow channel messages edge).home k =
      if k ∈ (cutWindow (s.windowKeys channel messages) edge).1 then none
      else ((s.messages.insertAll Message.key messages).lookup k).map Message.channelKey := by
  rw [mergeMessageWindow, if_neg hmark]
  exact home_eraseAll k

theorem order_upsertMessage (hmark : message.channelKey ∉ s.inaccessibleChannels) (c : EntityRef) :
    (s.upsertMessage message).1.order c =
      if c = message.channelKey then (cutWindow (s.listedWith message) .newest).2
      else s.order c := by
  rw [upsertMessage, if_neg hmark]
  exact order_insert c

theorem home_upsertMessage (hmark : message.channelKey ∉ s.inaccessibleChannels) (k : EntityRef) :
    (s.upsertMessage message).1.home k =
      if k ∈ (cutWindow (s.listedWith message) .newest).1 then none
      else if k = message.key then some message.channelKey else s.home k := by
  rw [upsertMessage, if_neg hmark]
  refine (home_eraseAll k).trans ?_
  rw [Table.lookup_insert_ite]
  congr 1
  split <;> rfl

end

/-! ## The index -/

section

variable {channelOf : EntityRef → EntityRef} {s s' : AppState}

/-- The lists and the map are in step, and a message is stored with the
channel its key belongs to. -/
structure IndexOk (channelOf : EntityRef → EntityRef) (s : AppState) : Prop where
  listed : Listed maxMessagesPerChannel s.order s.home
  home : ∀ key channel, s.home key = some channel → channel = channelOf key

/-- A page for a channel brings messages of that channel, or messages that
are stored already. -/
def OwnPage (channelOf : EntityRef → EntityRef) (s : AppState) (channel : EntityRef)
    (messages : List Message) (_ : MessageWindowEdge) : Prop :=
  (∀ m ∈ messages, m.channelKey = channelOf m.key) ∧
  (channel ∈ s.inaccessibleChannels ∨
    ∀ m ∈ messages, m.channelKey = channel ∨ (s.messages.lookup m.key).isSome)

def OwnMessage (channelOf : EntityRef → EntityRef) (_ : AppState) (message : Message) : Prop :=
  message.channelKey = channelOf message.key

theorem IndexOk.home_eq (h : s.IndexOk channelOf) {key : EntityRef}
    (hstored : (s.messages.lookup key).isSome) : s.home key = some (channelOf key) := by
  obtain ⟨m, hm⟩ := Option.isSome_iff_exists.mp hstored
  have hhome : s.home key = some m.channelKey := by rw [AppState.home, hm]; rfl
  rw [hhome, h.home key _ hhome]

theorem IndexOk.merge (h : s.IndexOk channelOf) {channel : EntityRef} {messages : List Message}
    {edge : MessageWindowEdge} (hpage : OwnPage channelOf s channel messages edge)
    (hmark : channel ∉ s.inaccessibleChannels) :
    (s.mergeMessageWindow channel messages edge).IndexOk channelOf := by
  obtain ⟨hown, hforeign⟩ := hpage
  have hforeign := hforeign.resolve_left hmark
  -- the channel of a key once the page is stored
  set stored : EntityRef → Option EntityRef := fun k =>
    ((s.messages.insertAll Message.key messages).lookup k).map Message.channelKey with hstored
  have hcases (k : EntityRef) : stored k = s.home k ∧ k ∉ messages.map Message.key ∨
      ∃ m ∈ messages, m.key = k ∧ stored k = some (channelOf k) := by
    rcases Table.lookup_insertAll Message.key messages s.messages k
      with ⟨hsame, hnot⟩ | ⟨m, hm, rfl, hlookup⟩
    · exact .inl ⟨by rw [hstored, AppState.home, ← hsame], hnot⟩
    · exact .inr ⟨m, hm, rfl, by simp only [hstored, hlookup, Option.map_some, hown m hm]⟩
  have hclass (k : EntityRef) : k ∈ s.windowKeys channel messages ↔ stored k = some channel := by
    rw [mem_windowKeys]
    refine and_iff_right_of_imp fun hk => ?_
    rcases hcases k with ⟨hsame, -⟩ | ⟨m, hm, rfl, -⟩
    · exact .inl ((h.listed.mem_iff channel k).mpr (hsame ▸ hk))
    · exact .inr (List.mem_map_of_mem hm)
  refine ⟨h.listed.window nodup_windowKeys (cutWindow_perm _ edge) (length_cutWindow_le _ edge)
    hclass (fun k d hd => ?_) (order_mergeMessageWindow hmark) (home_mergeMessageWindow hmark), ?_⟩
  · rcases hcases k with ⟨hsame, -⟩ | ⟨m, hm, rfl, hk⟩
    · rw [hsame]
    · rw [hk]
      refine ⟨fun hd' => ?_, fun hd' => by rw [h.home _ _ hd']⟩
      rcases hforeign m hm with hchannel | hpresent
      · rw [← hown m hm, hchannel, Option.some.injEq] at hd'
        exact absurd hd'.symm hd
      · rw [h.home_eq hpresent, hd']
  · intro k c hk
    rw [home_mergeMessageWindow hmark] at hk
    split at hk
    · cases hk
    · rcases hcases k with ⟨hsame, -⟩ | ⟨m, hm, rfl, hk'⟩
      · exact h.home k c (hsame ▸ hk)
      · exact (Option.some.inj (hk'.symm.trans hk)).symm

theorem IndexOk.upsert (h : s.IndexOk channelOf) {message : Message}
    (hown : OwnMessage channelOf s message)
    (hmark : message.channelKey ∉ s.inaccessibleChannels) :
    (s.upsertMessage message).1.IndexOk channelOf := by
  set stored : EntityRef → Option EntityRef := fun k =>
    if k = message.key then some message.channelKey else s.home k
  have hhome (k : EntityRef) := home_upsertMessage hmark k
  have hclass (k : EntityRef) :
      k ∈ s.listedWith message ↔ stored k = some message.channelKey := by
    rw [mem_listedWith, h.listed.mem_iff]
    by_cases hk : k = message.key <;> simp [stored, hk]
  refine ⟨h.listed.window (nodup_listedWith (h.listed.nodup _)) (cutWindow_perm _ .newest)
    (length_cutWindow_le _ .newest) hclass (fun k d hd => ?_) (order_upsertMessage hmark) hhome,
    fun k c hk => ?_⟩
  · by_cases hk : k = message.key
    · simp only [stored, if_pos hk, Option.some.injEq]
      refine ⟨fun hd' => absurd hd'.symm hd, fun hd' => absurd ?_ hd⟩
      rw [h.home k d hd', hk]
      exact hown.symm
    · simp only [stored, if_neg hk]
  · rw [hhome k] at hk
    split at hk
    · cases hk
    · split at hk
      · rename_i hkey
        rw [← Option.some.inj hk, hkey]
        exact hown
      · exact h.home k c hk

theorem IndexOk.delete (h : s.IndexOk channelOf) {key : EntityRef} :
    (s.deleteMessage key).1.IndexOk channelOf := by
  have hhome (k : EntityRef) :
      (s.deleteMessage key).1.home k = if k = key then none else s.home k := home_erase k
  refine ⟨h.listed.erase (k := key) (fun c => ?_) hhome, fun k c hk => ?_⟩
  · simp only [deleteMessage, changed, order, Table.lookup_mapValues]
    cases s.messageOrder.lookup c <;> rfl
  · rw [hhome k] at hk
    split at hk
    · cases hk
    · exact h.home k c hk

theorem IndexOk.deleteListed (h : s.IndexOk channelOf) {channel key : EntityRef}
    (hlinked : ∀ c, s.home key = some c → c = channel) :
    (s.deleteListed channel key).IndexOk channelOf := by
  have hhome (k : EntityRef) :
      (s.deleteListed channel key).home k = if k = key then none else s.home k := home_erase k
  refine ⟨h.listed.erase (k := key) (fun c => ?_) hhome, fun k c hk => ?_⟩
  · have hmodify : (s.deleteListed channel key).order c =
        if c = channel then (s.order c).filter (· ≠ key) else s.order c := by
      simp only [AppState.deleteListed, order, Table.lookup_modify]
      split
      · cases s.messageOrder.lookup c <;> rfl
      · rfl
    rw [hmodify]
    split
    · rfl
    -- the other orders do not have the key
    · rename_i hc
      refine (List.filter_eq_self.mpr fun k hk => ?_).symm
      have hne : k ≠ key := by
        rintro rfl
        exact hc (hlinked c ((h.listed.mem_iff c k).mp hk))
      simpa using hne
  · rw [hhome k] at hk
    split at hk
    · cases hk
    · exact h.home k c hk

theorem IndexOk.remove (h : s.IndexOk channelOf) {key : EntityRef} :
    (s.removeChannelState key).IndexOk channelOf := by
  have hhome (k : EntityRef) : (s.removeChannelState key).home k =
      if k ∈ s.order key then none else s.home k := home_eraseAll k
  refine ⟨h.listed.replace (c := key) (l := []) List.nodup_nil (Nat.zero_le _) (fun d => ?_)
    (fun k => ?_) (fun k d hd => ?_), fun k c hk => ?_⟩
  · simp only [removeChannelState, order, Table.lookup_erase_ite]
    split <;> rfl
  · simp only [hhome k, h.listed.mem_iff]
    by_cases hk : s.home k = some key <;> simp [hk]
  · simp only [hhome k, h.listed.mem_iff]
    by_cases hk : s.home k = some key
    · simp [hk, hd.symm]
    · simp [hk]
  · rw [hhome k] at hk
    split at hk
    · cases hk
    · exact h.home k c hk

theorem IndexOk.same (h : s.IndexOk channelOf) (hsame : s.SameIndex s') : s'.IndexOk channelOf := by
  have hhome (k : EntityRef) : s'.home k = s.home k := by
    have hplace :=
      congrArg (Option.map fun p : EntityRef × EntityRef × Int => p.2.1) (hsame.place k)
    simpa [AppState.place, AppState.home, Message.place, Function.comp_def] using hplace
  have horder : s'.order = s.order := funext hsame.order
  have hhome' : s'.home = s.home := funext hhome
  exact ⟨by rw [horder, hhome']; exact h.listed, fun k c hk => h.home k c (hhome k ▸ hk)⟩

theorem indexRules (channelOf : EntityRef → EntityRef) :
    IndexRules (IndexOk channelOf) (OwnPage channelOf) (OwnMessage channelOf) where
  sequence h := h
  same hsame h := h.same hsame
  merge h hpage hmark := h.merge hpage hmark
  upsert h hown hmark := h.upsert hown hmark
  delete h := h.delete
  deleteListed h hlinked := h.deleteListed hlinked
  remove h := h.remove

/-- The map and the per-channel orders, as a reader of the state sees them. -/
structure MessageIndex (s : AppState) : Prop where
  nodup : ∀ channel, (s.order channel).Nodup
  bounded : ∀ channel, (s.order channel).length ≤ maxMessagesPerChannel
  listed : ∀ channel, ∀ key ∈ s.order channel,
    ∃ m, s.messages.lookup key = some m ∧ m.channelKey = channel
  stored : ∀ key m, s.messages.lookup key = some m → (s.order m.channelKey).count key = 1

theorem IndexOk.messageIndex (h : s.IndexOk channelOf) : s.MessageIndex where
  nodup := h.listed.nodup
  bounded := h.listed.bounded
  listed channel key hkey :=
    Option.map_eq_some_iff.mp ((h.listed.mem_iff channel key).mp hkey)
  stored key m hm := by
    have hhome : s.home key = some m.channelKey := by rw [AppState.home, hm]; rfl
    exact List.count_eq_one_of_mem (h.listed.nodup _) ((h.listed.mem_iff _ key).mpr hhome)

theorem indexOk_empty (channelOf : EntityRef → EntityRef) : IndexOk channelOf {} where
  listed := ⟨fun _ => List.nodup_nil, fun _ => Nat.zero_le _, fun _ _ => by
    simp [order, AppState.home]⟩
  home _ _ h := by cases h

end

/-- In every run in which a key belongs to one channel and no page stores a
message of another channel, the map and the orders are in step. -/
theorem message_index_run {channelOf : EntityRef → EntityRef} {inputs : List Input} {s : AppState}
    (hrun : Exec step (admits (OwnPage channelOf) (OwnMessage channelOf)) {} inputs s) :
    s.MessageIndex := by
  have hindex : s.IndexOk channelOf :=
    hrun.invariant (fun _ _ _ h hadmits hstep => (indexRules channelOf).step h hadmits hstep)
      (indexOk_empty channelOf)
  exact hindex.messageIndex

/-! ### A page with a message of another channel -/

/-- An identity of the samples. -/
def chatRef (id : Fin 10000) : EntityRef where
  id := ⟨id, id.isLt.le.trans (by decide)⟩
  domain := sampleDomain

def general : EntityRef := chatRef 2

def random : EntityRef := chatRef 3

def sampleMessage (id : Fin 10000) (channel : EntityRef) (createdAt : Int) : Message where
  key := chatRef id
  channelKey := channel
  createdAt := createdAt

/-- A page of two messages, a live one, and a deletion. -/
def samplePage : List Input :=
  [.hydrateMessages general [sampleMessage 12 general 2, sampleMessage 11 general 1],
   .reduce ⟨some 1, some (.messageCreate (sampleMessage 13 general 3))⟩,
   .reduce ⟨some 2, some (.messageDelete (chatRef 12))⟩]

theorem message_index_run_page :
    ∃ s, Exec step (admits (OwnPage fun _ => general) (OwnMessage fun _ => general)) {}
        samplePage s ∧
      s.MessageIndex ∧ s.order general = [chatRef 11, chatRef 13] := by
  have hrun : ∃ s, Exec step (admits (OwnPage fun _ => general) (OwnMessage fun _ => general)) {}
      samplePage s ∧ s.order general = [chatRef 11, chatRef 13] :=
    ⟨_, .cons ⟨by decide, .inr (by decide)⟩ rfl (.cons (by rintro event ⟨⟩; rfl) rfl
      (.cons (by rintro event ⟨⟩; trivial) rfl (.nil _))), by decide⟩
  obtain ⟨s, hrun, horder⟩ := hrun
  exact ⟨s, hrun, message_index_run hrun, horder⟩

/-- A page for one channel stores a message of another, which is then
listed nowhere. -/
theorem message_index_fails :
    ¬ ∀ (channelOf : EntityRef → EntityRef) (inputs : List Input) (s : AppState),
      Exec step (admits (fun _ _ messages _ => ∀ m ∈ messages, m.channelKey = channelOf m.key)
        (OwnMessage channelOf)) {} inputs s → s.MessageIndex := by
  intro h
  have hrun : ∃ s, Exec step (admits (fun _ _ messages _ => ∀ m ∈ messages, m.channelKey = random)
      (OwnMessage fun _ => random)) {}
      [.hydrateMessages general [sampleMessage 12 random 2]] s ∧
      s.messages.lookup (chatRef 12) = some (sampleMessage 12 random 2) ∧
      s.order random = [] :=
    ⟨_, .cons (by show ∀ m ∈ [sampleMessage 12 random 2], m.channelKey = random; decide) rfl
      (.nil _), rfl, rfl⟩
  obtain ⟨s, hrun, hlookup, horder⟩ := hrun
  have hstored := (h (fun _ => random) _ s hrun).stored _ _ hlookup
  rw [show (sampleMessage 12 random 2).channelKey = random from rfl, horder] at hstored
  cases hstored

end AppState

end Desktop

end Kaede
