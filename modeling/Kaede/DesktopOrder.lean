import Kaede.DesktopIndex

/-!
# The order of a channel's messages

Hydration sorts a channel's keys by creation time and key; a live message
is appended, or replaces the stored one where it stands. The order is
therefore sorted as long as live messages arrive in order and a key has
one creation time, which `LiveInOrder` and `DatedPage` ask for.

A full window loses its least messages, except when older history is
paged in: then it loses its greatest, so that the next page continues
where this one ended.
-/

namespace Kaede

namespace Desktop

/-- Creation time, then key. -/
def Message.position (m : Message) : Int ×ₗ Nat ×ₗ String :=
  toLex (m.createdAt, toLex (m.key.id.value, m.key.domain.text))

namespace AppState

/-- The position of the message a key stands for. -/
def dated (born : EntityRef → Int) (key : EntityRef) : Int ×ₗ Nat ×ₗ String :=
  toLex (born key, toLex (key.id.value, key.domain.text))

theorem dated_injective (born : EntityRef → Int) : Function.Injective (dated born) := by
  intro a b h
  obtain ⟨-, hkey⟩ := Prod.mk.inj (toLex.injective h)
  obtain ⟨hid, hdomain⟩ := Prod.mk.inj (toLex.injective hkey)
  obtain ⟨⟨id, hle⟩, ⟨domain, hnormal⟩⟩ := a
  obtain ⟨⟨id', hle'⟩, ⟨domain', hnormal'⟩⟩ := b
  obtain rfl : id = id' := hid
  obtain rfl : domain = domain' := hdomain
  rfl

def DatedPage (born : EntityRef → Int) (_ : AppState) (_ : EntityRef) (messages : List Message)
    (_ : MessageWindowEdge) : Prop :=
  ∀ m ∈ messages, m.createdAt = born m.key

/-- A live message that joins its channel's order comes after all that are
listed there. -/
def LiveInOrder (born : EntityRef → Int) (s : AppState) (message : Message) : Prop :=
  message.createdAt = born message.key ∧
  (message.channelKey ∈ s.inaccessibleChannels ∨ message.key ∈ s.order message.channelKey ∨
    ∀ key ∈ s.order message.channelKey, dated born key < dated born message.key)

structure OrderOk (born : EntityRef → Int) (s : AppState) : Prop where
  sorted : ∀ channel, (s.order channel).Pairwise fun a b => dated born a < dated born b
  stored : ∀ key m, s.messages.lookup key = some m → m.key = key ∧ m.createdAt = born key

/-! ## Cutting a sorted list -/

section

variable {r : EntityRef → EntityRef → Prop} {l : List EntityRef} {gone kept : EntityRef}

theorem cutWindow_pairwise (h : l.Pairwise r) (edge : MessageWindowEdge) :
    (cutWindow l edge).2.Pairwise r := by
  cases edge with
  | newest => exact h.sublist (by simpa [cutWindow] using List.drop_sublist _ l)
  | oldest => exact h.sublist (by simpa [cutWindow] using List.take_sublist _ l)

theorem mem_cutWindow_of_not_mem {edge : MessageWindowEdge} (hgone : gone ∈ l)
    (hnot : gone ∉ (cutWindow l edge).2) : gone ∈ (cutWindow l edge).1 := by
  have hmem := (cutWindow_perm l edge).mem_iff.mpr hgone
  exact (List.mem_append.mp hmem).resolve_right hnot

theorem cutWindow_newest (h : l.Pairwise r) (hgone : gone ∈ (cutWindow l .newest).1)
    (hkept : kept ∈ (cutWindow l .newest).2) : r gone kept := by
  simp only [cutWindow, List.splitAt_eq] at hgone hkept
  rw [← List.take_append_drop (l.length - maxMessagesPerChannel) l] at h
  exact (List.pairwise_append.mp h).2.2 gone hgone kept hkept

theorem cutWindow_oldest (h : l.Pairwise r) (hgone : gone ∈ (cutWindow l .oldest).1)
    (hkept : kept ∈ (cutWindow l .oldest).2) : r kept gone := by
  simp only [cutWindow, List.splitAt_eq, Prod.swap_prod_mk] at hgone hkept
  rw [← List.take_append_drop maxMessagesPerChannel l] at h
  exact (List.pairwise_append.mp h).2.2 kept hkept gone hgone

end

/-! ## The candidates are sorted -/

section

variable {born : EntityRef → Int} {s s' : AppState}

theorem OrderOk.stored_insertAll (h : s.OrderOk born) {channel : EntityRef}
    {messages : List Message} {edge : MessageWindowEdge}
    (hpage : DatedPage born s channel messages edge) (key : EntityRef) (m : Message)
    (hm : (s.messages.insertAll Message.key messages).lookup key = some m) :
    m.key = key ∧ m.createdAt = born key := by
  rcases Table.lookup_insertAll Message.key messages s.messages key
    with ⟨hsame, -⟩ | ⟨m', hm', rfl, hlookup⟩
  · exact h.stored key m (hsame ▸ hm)
  · obtain rfl := Option.some.inj (hlookup.symm.trans hm)
    exact ⟨rfl, hpage _ hm'⟩

/-- A candidate is stored, so its position is that of the message it
stands for. -/
theorem OrderOk.position_eq (h : s.OrderOk born) {channel key : EntityRef}
    {messages : List Message} {edge : MessageWindowEdge}
    (hpage : DatedPage born s channel messages edge)
    (hkey : key ∈ s.windowKeys channel messages) :
    position (s.messages.insertAll Message.key messages) key = dated born key := by
  obtain ⟨m, hm, -⟩ := Option.map_eq_some_iff.mp (mem_windowKeys.mp hkey).2
  rw [position, hm, Option.map_some, Option.getD_some, (h.stored_insertAll hpage key m hm).2]
  rfl

theorem OrderOk.sorted_windowKeys (h : s.OrderOk born) {channel : EntityRef}
    {messages : List Message} {edge : MessageWindowEdge}
    (hpage : DatedPage born s channel messages edge) :
    (s.windowKeys channel messages).Pairwise fun a b => dated born a < dated born b := by
  set stored := s.messages.insertAll Message.key messages
  have : IsTrans EntityRef fun a b => position stored a ≤ position stored b :=
    ⟨fun _ _ _ => le_trans⟩
  have : Std.Total fun a b : EntityRef => position stored a ≤ position stored b :=
    ⟨fun _ _ => le_total _ _⟩
  have hle : (s.windowKeys channel messages).Pairwise fun a b =>
      position stored a ≤ position stored b := List.pairwise_insertionSort _ _
  refine (hle.and nodup_windowKeys).imp_of_mem fun {a b} ha hb hab => ?_
  rw [h.position_eq hpage ha, h.position_eq hpage hb] at hab
  exact lt_of_le_of_ne hab.1 fun heq => hab.2 (dated_injective born heq)

theorem OrderOk.sorted_listedWith (h : s.OrderOk born) {message : Message}
    (hlive : LiveInOrder born s message)
    (hmark : message.channelKey ∉ s.inaccessibleChannels) :
    (s.listedWith message).Pairwise fun a b => dated born a < dated born b := by
  unfold listedWith
  split
  · exact h.sorted _
  · rename_i hnew
    have hlast := (hlive.2.resolve_left hmark).resolve_left hnew
    refine List.pairwise_append.mpr ⟨h.sorted _, List.pairwise_singleton _ _, fun a ha b hb => ?_⟩
    rw [List.mem_singleton.mp hb]
    exact hlast a ha

/-! ## What the operations keep -/

theorem OrderOk.merge (h : s.OrderOk born) {channel : EntityRef} {messages : List Message}
    {edge : MessageWindowEdge} (hpage : DatedPage born s channel messages edge)
    (hmark : channel ∉ s.inaccessibleChannels) :
    (s.mergeMessageWindow channel messages edge).OrderOk born := by
  refine ⟨fun c => ?_, fun key m hm => ?_⟩
  · rw [order_mergeMessageWindow hmark]
    split
    · exact cutWindow_pairwise (h.sorted_windowKeys hpage) edge
    · exact h.sorted c
  · rw [mergeMessageWindow, if_neg hmark] at hm
    simp only [Table.lookup_eraseAll] at hm
    split at hm
    · cases hm
    · exact h.stored_insertAll hpage key m hm

theorem OrderOk.upsert (h : s.OrderOk born) {message : Message}
    (hlive : LiveInOrder born s message)
    (hmark : message.channelKey ∉ s.inaccessibleChannels) :
    (s.upsertMessage message).1.OrderOk born := by
  refine ⟨fun c => ?_, fun key m hm => ?_⟩
  · rw [order_upsertMessage hmark]
    split
    · exact cutWindow_pairwise (h.sorted_listedWith hlive hmark) .newest
    · exact h.sorted c
  · rw [upsertMessage, if_neg hmark] at hm
    simp only [changed, Table.lookup_eraseAll, Table.lookup_insert_ite] at hm
    split at hm
    · cases hm
    · split at hm
      · rename_i hkey
        obtain rfl := Option.some.inj hm
        exact ⟨hkey.symm, hkey ▸ hlive.1⟩
      · exact h.stored key m hm

/-- An operation that only takes keys and messages away. -/
theorem OrderOk.shrink (h : s.OrderOk born)
    (horder : ∀ c, (s'.order c).Sublist (s.order c))
    (hmessages : ∀ k m, s'.messages.lookup k = some m → s.messages.lookup k = some m) :
    s'.OrderOk born :=
  ⟨fun c => (h.sorted c).sublist (horder c), fun k m hm => h.stored k m (hmessages k m hm)⟩

theorem OrderOk.delete (h : s.OrderOk born) {key : EntityRef} :
    (s.deleteMessage key).1.OrderOk born := by
  refine h.shrink (fun c => ?_) fun k m hm => ?_
  · simp only [deleteMessage, changed, order, Table.lookup_mapValues]
    cases s.messageOrder.lookup c with
    | none => exact List.Sublist.refl _
    | some l => exact List.filter_sublist
  · simp only [deleteMessage, changed, Table.lookup_erase_ite] at hm
    split at hm
    · cases hm
    · exact hm

theorem OrderOk.deleteListed (h : s.OrderOk born) {channel key : EntityRef} :
    (s.deleteListed channel key).OrderOk born := by
  refine h.shrink (fun c => ?_) fun k m hm => ?_
  · simp only [AppState.deleteListed, order, Table.lookup_modify]
    split
    · cases s.messageOrder.lookup c with
      | none => exact List.Sublist.refl _
      | some l => exact List.filter_sublist
    · exact List.Sublist.refl _
  · simp only [AppState.deleteListed, Table.lookup_erase_ite] at hm
    split at hm
    · cases hm
    · exact hm

theorem OrderOk.remove (h : s.OrderOk born) {key : EntityRef} :
    (s.removeChannelState key).OrderOk born := by
  refine h.shrink (fun c => ?_) fun k m hm => ?_
  · simp only [removeChannelState, order, Table.lookup_erase_ite]
    split
    · exact List.nil_sublist _
    · exact List.Sublist.refl _
  · simp only [removeChannelState, Table.lookup_eraseAll] at hm
    split at hm
    · cases hm
    · exact hm

theorem OrderOk.same (h : s.OrderOk born) (hsame : s.SameIndex s') : s'.OrderOk born := by
  refine ⟨fun c => by rw [hsame.order c]; exact h.sorted c, fun k m hm => ?_⟩
  have hplace := hsame.place k
  rw [place, hm, Option.map_some] at hplace
  obtain ⟨m', hm', hplace'⟩ := Option.map_eq_some_iff.mp hplace.symm
  obtain ⟨hkey, hrest⟩ := Prod.mk.inj hplace'
  obtain ⟨-, hcreated⟩ := Prod.mk.inj hrest
  rw [← hkey, ← hcreated]
  exact h.stored k m' hm'

theorem orderRules (born : EntityRef → Int) :
    IndexRules (OrderOk born) (DatedPage born) (LiveInOrder born) where
  sequence h := h
  same hsame h := h.same hsame
  merge h hpage hmark := h.merge hpage hmark
  upsert h hlive hmark := h.upsert hlive hmark
  delete h := h.delete
  deleteListed h _ := h.deleteListed
  remove h := h.remove

/-! ## Reading a channel -/

theorem OrderOk.channelMessages_sorted (h : s.OrderOk born) (channel : EntityRef) :
    (s.channelMessages channel).Pairwise fun a b => a.position < b.position := by
  refine List.pairwise_filterMap.mpr ((h.sorted channel).imp fun {a b} hab m hm m' hm' => ?_)
  obtain ⟨rfl, hcreated⟩ := h.stored a m hm
  obtain ⟨rfl, hcreated'⟩ := h.stored b m' hm'
  rw [Message.position, Message.position, hcreated, hcreated']
  exact hab

/-- Which messages a full window loses. -/
structure EvictsEdge (born : EntityRef → Int) (s : AppState) : Prop where
  hydrate : ∀ channel messages, DatedPage born s channel messages .newest →
    channel ∉ s.inaccessibleChannels → ∀ gone ∈ s.windowKeys channel messages,
    gone ∉ (s.hydrateMessages channel messages).order channel →
    ∀ kept ∈ (s.hydrateMessages channel messages).order channel,
      dated born gone < dated born kept
  hydrateOlder : ∀ channel messages, DatedPage born s channel messages .oldest →
    channel ∉ s.inaccessibleChannels → ∀ gone ∈ s.windowKeys channel messages,
    gone ∉ (s.hydrateOlderMessages channel messages).order channel →
    ∀ kept ∈ (s.hydrateOlderMessages channel messages).order channel,
      dated born kept < dated born gone
  live : ∀ message, LiveInOrder born s message →
    message.channelKey ∉ s.inaccessibleChannels → ∀ gone ∈ s.listedWith message,
    gone ∉ (s.upsertMessage message).1.order message.channelKey →
    ∀ kept ∈ (s.upsertMessage message).1.order message.channelKey,
      dated born gone < dated born kept

theorem OrderOk.evictsEdge (h : s.OrderOk born) : s.EvictsEdge born where
  hydrate channel messages hpage hmark gone hgone hnot kept hkept := by
    rw [hydrateMessages, order_mergeMessageWindow hmark, if_pos rfl] at hnot hkept
    exact cutWindow_newest (h.sorted_windowKeys hpage) (mem_cutWindow_of_not_mem hgone hnot) hkept
  hydrateOlder channel messages hpage hmark gone hgone hnot kept hkept := by
    rw [hydrateOlderMessages, order_mergeMessageWindow hmark, if_pos rfl] at hnot hkept
    exact cutWindow_oldest (h.sorted_windowKeys hpage) (mem_cutWindow_of_not_mem hgone hnot) hkept
  live message hlive hmark gone hgone hnot kept hkept := by
    rw [order_upsertMessage hmark, if_pos rfl] at hnot hkept
    exact cutWindow_newest (h.sorted_listedWith hlive hmark) (mem_cutWindow_of_not_mem hgone hnot)
      hkept

theorem orderOk_empty (born : EntityRef → Int) : OrderOk born {} where
  sorted _ := .nil
  stored key m h := by
    rw [show ({} : AppState).messages.lookup key = none from rfl] at h
    cases h

end

/-- With one creation time for each key and live messages that arrive in
order, every channel reads sorted, and a window loses messages at its old
end, or at its new end when older history is paged in. -/
theorem channel_order_run {born : EntityRef → Int} {inputs : List Input} {s : AppState}
    (hrun : Exec step (admits (DatedPage born) (LiveInOrder born)) {} inputs s) :
    (∀ channel, (s.channelMessages channel).Pairwise fun a b => a.position < b.position) ∧
    s.EvictsEdge born := by
  have horder : s.OrderOk born :=
    hrun.invariant (fun _ _ _ h hadmits hstep => (orderRules born).step h hadmits hstep)
      (orderOk_empty born)
  exact ⟨horder.channelMessages_sorted, horder.evictsEdge⟩

/-- The creation times of the sample messages. -/
def sampleBorn (key : EntityRef) : Int := key.id.value - 10

theorem channel_order_run_page :
    ∃ s, Exec step (admits (DatedPage sampleBorn) (LiveInOrder sampleBorn)) {} samplePage s ∧
      (∀ channel, (s.channelMessages channel).Pairwise fun a b => a.position < b.position) ∧
      s.EvictsEdge sampleBorn := by
  have hrun : ∃ s, Exec step (admits (DatedPage sampleBorn) (LiveInOrder sampleBorn)) {}
      samplePage s := by
    refine ⟨_, .cons ?_ rfl (.cons ?_ rfl (.cons ?_ rfl (.nil _)))⟩
    · show ∀ m ∈ [sampleMessage 12 general 2, sampleMessage 11 general 1],
        m.createdAt = sampleBorn m.key
      decide
    · rintro event ⟨⟩
      exact ⟨rfl, .inr (.inr (by decide))⟩
    · rintro event ⟨⟩
      trivial
  obtain ⟨s, hrun⟩ := hrun
  exact ⟨s, hrun, channel_order_run hrun⟩

/-! ### A late message, and a full window -/

/-- A page of distinct messages of its channel, longer than the limit:
older paging drops one of them and keeps another. -/
theorem hydrateOlder_evicts {channel : EntityRef} {messages : List Message}
    (hown : ∀ m ∈ messages, m.channelKey = channel) (hnodup : (messages.map Message.key).Nodup)
    (hlength : maxMessagesPerChannel < messages.length) :
    (∃ gone ∈ ({} : AppState).windowKeys channel messages,
      gone ∉ (({} : AppState).hydrateOlderMessages channel messages).order channel) ∧
    ∃ kept, kept ∈ (({} : AppState).hydrateOlderMessages channel messages).order channel := by
  set l := ({} : AppState).windowKeys channel messages
  have horder : (({} : AppState).hydrateOlderMessages channel messages).order channel =
      (cutWindow l .oldest).2 := by
    rw [hydrateOlderMessages, order_mergeMessageWindow (by simp), if_pos rfl]
  have hsubset : messages.map Message.key ⊆ l := by
    intro key hkey
    refine mem_windowKeys.mpr ⟨.inr hkey, ?_⟩
    rcases Table.lookup_insertAll Message.key messages ({} : AppState).messages key
      with ⟨-, hnot⟩ | ⟨m, hm, -, hlookup⟩
    · exact absurd hkey hnot
    · rw [hlookup, Option.map_some, hown m hm]
  have hlong : messages.length ≤ l.length := by
    have hle := (List.subperm_of_subset hnodup hsubset).length_le
    rwa [List.length_map] at hle
  have hlen : (cutWindow l .oldest).2.length = maxMessagesPerChannel := by
    simp only [cutWindow, List.splitAt_eq, Prod.swap_prod_mk, List.length_take]
    omega
  rw [horder]
  constructor
  · by_contra hall
    simp only [not_exists, not_and, not_not] at hall
    have hwindow : l.Nodup := nodup_windowKeys
    have hle := (List.subperm_of_subset hwindow hall).length_le
    omega
  · refine List.exists_mem_of_length_pos ?_
    rw [hlen]
    decide

/-- One more message than a window holds. -/
def longPage : List Message :=
  (List.finRange 2001).map fun i : Fin 2001 =>
    sampleMessage (i.castLE (by decide)) general ((i : Nat) - 10)

theorem longPage_dated : DatedPage sampleBorn {} general longPage .oldest := by
  intro m hm
  obtain ⟨i, -, rfl⟩ := List.mem_map.mp hm
  rfl

theorem longPage_evicts :
    (∃ gone ∈ ({} : AppState).windowKeys general longPage,
      gone ∉ (({} : AppState).hydrateOlderMessages general longPage).order general) ∧
    ∃ kept, kept ∈ (({} : AppState).hydrateOlderMessages general longPage).order general := by
  refine hydrateOlder_evicts (fun m hm => ?_) ?_ ?_
  · obtain ⟨i, -, rfl⟩ := List.mem_map.mp hm
    rfl
  · rw [longPage, List.map_map]
    refine (List.nodup_finRange 2001).map fun i j hij => ?_
    exact Fin.ext (congrArg (fun key => key.id.value) hij)
  · rw [longPage, List.length_map, List.length_finRange]
    decide

/-- A message created earlier that arrives later stands at the end, and
paging in older history drops messages that are not the least. -/
theorem channel_order_fails :
    (¬ ∀ (inputs : List Input) (s : AppState), Exec step Always {} inputs s → ∀ channel,
      (s.channelMessages channel).Pairwise fun a b => a.position < b.position) ∧
    ¬ ∀ (inputs : List Input) (s : AppState), Exec step Always {} inputs s →
      ∀ channel messages, channel ∉ s.inaccessibleChannels →
      ∀ gone ∈ s.windowKeys channel messages,
      gone ∉ (s.hydrateOlderMessages channel messages).order channel →
      ∀ kept ∈ (s.hydrateOlderMessages channel messages).order channel,
        position (s.messages.insertAll Message.key messages) gone <
          position (s.messages.insertAll Message.key messages) kept := by
  constructor
  · intro h
    have hrun : ∃ s, Exec step Always {}
        [.reduce ⟨some 1, some (.messageCreate (sampleMessage 12 general 2))⟩,
          .reduce ⟨some 2, some (.messageCreate (sampleMessage 11 general 1))⟩] s ∧
        s.channelMessages general = [sampleMessage 12 general 2, sampleMessage 11 general 1] :=
      ⟨_, .cons trivial rfl (.cons trivial rfl (.nil _)), rfl⟩
    obtain ⟨s, hrun, hmessages⟩ := hrun
    have hsorted := h _ s hrun general
    rw [hmessages] at hsorted
    exact absurd hsorted (by decide)
  · intro h
    obtain ⟨⟨gone, hgone, hnot⟩, kept, hkept⟩ := longPage_evicts
    have hlt := h [] {} (.nil _) general longPage (by simp) gone hgone hnot kept hkept
    have horder := orderOk_empty sampleBorn
    have hkept' : kept ∈ ({} : AppState).windowKeys general longPage := by
      rw [hydrateOlderMessages, order_mergeMessageWindow (by simp), if_pos rfl] at hkept
      exact (cutWindow_perm _ .oldest).mem_iff.mp (List.mem_append_right _ hkept)
    rw [horder.position_eq longPage_dated hgone, horder.position_eq longPage_dated hkept'] at hlt
    have hgt := horder.evictsEdge.hydrateOlder general longPage longPage_dated (by simp) gone hgone
      hnot kept hkept
    exact lt_asymm hlt hgt

end AppState

end Desktop

end Kaede
