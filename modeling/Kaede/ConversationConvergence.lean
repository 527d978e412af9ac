import Kaede.ConversationReplica

/-!
# Which state a replicated group ends with

The checks before the version gate can refuse a state, and then nothing
changes. Of those that pass them a group keeps the newest, whatever the
order and however often each arrives.

The check of the encryption policy is one of them: it looks at the stored
policy, not at the version, and can refuse the newest state.
-/

namespace Kaede

namespace Replication

section

variable {r : Replica} {d : Delivery} {k : Checked} {x y : Stamped GroupState}

/-- What the checks found. -/
structure CheckedOk (r : Replica) (d : Delivery) (k : Checked) : Prop where
  state : d.state? = some k.state
  version : 1 ≤ k.state.version
  existing : ∀ c, r.conversation = some c → k.existing = c
  inserted : r.conversation = none → k.existing.stateVersion = 0
  storedName : k.storedName = r.channel.bind DMChannel.name
  channelName : ∀ channel, r.channel = some channel → k.channel.name = channel.name

theorem groupState_version {conversationId : Nat} (h : groupState d conversationId = .ok y) :
    1 ≤ y.version := by
  simp only [groupState, bind_eq_ok, ensure_eq_ok] at h
  obtain ⟨_, -, _, -, owner, -, ownerId, -, ownerDomain, -, _, -, name, -, version, -, _, hversion,
    h⟩ := h
  cases h
  exact hversion

theorem existingRow_ok {conversationId : Nat} {owner : Option UserRef} {row : DMConversation}
    (h : existingRow r d conversationId owner = .ok row) :
    (∀ c, r.conversation = some c → row = c) ∧ (r.conversation = none → row.stateVersion = 0) := by
  unfold existingRow at h
  split at h
  · rename_i c hc
    cases h
    rw [hc]
    refine ⟨fun c' hc' => Option.some.inj hc', fun hnone => ?_⟩
    cases hnone
  · rename_i hc
    rw [hc]
    split at h
    · cases h
    · cases h
      refine ⟨fun c hsome => ?_, fun _ => rfl⟩
      cases hsome

theorem channelRow_ok {name : Option String} {row : DMChannel} (h : channelRow r name = .ok row) :
    ∀ channel, r.channel = some channel → row.name = channel.name := by
  unfold channelRow at h
  split at h
  · rename_i hc
    rw [hc]
    intro channel hsome
    cases hsome
  · rename_i channel hc
    obtain ⟨-, h⟩ := check_bind_eq_ok.mp h
    cases h
    rw [hc]
    exact fun channel' h' => congrArg DMChannel.name (Option.some.inj h')

theorem checkConversation_ok (hgroup : d.conversation.type = "group")
    (h : checkConversation r d = .ok k) : CheckedOk r d k := by
  simp only [checkConversation, conversationRow, bind_eq_ok, ensure_eq_ok] at h
  obtain ⟨_, -, conversationId, hid, _, -, _, -, _, -, users, -, _, -, policy, -, state, hstate,
    existing, ⟨row, hrow, _, -, hexisting⟩, channel, hchannel, _, -, h⟩ := h
  cases h
  cases hexisting
  rw [conversationState, if_pos hgroup] at hstate
  obtain ⟨hold, hnew⟩ := existingRow_ok hrow
  refine ⟨?_, groupState_version hstate, hold, hnew, rfl, ?_⟩
  · rw [Delivery.state?, hid, ok_bind, hstate]
    rfl
  · exact fun stored hstored => channelRow_ok hchannel stored hstored

theorem takenAt_of_ok (h : checkConversation r d = .ok k) : r.takenAt d = [k.state] := by
  rw [Replica.takenAt, h]
  rfl

/-- Once a group has its row it has its channel. -/
def Replica.Linked (r : Replica) : Prop := r.conversation ≠ none → r.channel ≠ none

theorem storeParticipants_group (stored expected : Finset UserRef) :
    storeParticipants true stored expected = .ok expected := by
  have hkept : (stored ∪ expected) \ ((stored ∪ expected) \ expected) = expected := by
    rw [sdiff_sdiff_right_self, Finset.inf_eq_inter, Finset.inter_eq_right]
    exact Finset.subset_union_right
  simp [storeParticipants, hkept, ensure, ok_bind]

/-- The version gate, for a group whose checks went through. -/
theorem replicate_eq (hgroup : d.conversation.type = "group") (h : checkConversation r d = .ok k) :
    replicateConversation r d =
      if k.state.version < k.existing.stateVersion then
        .ok (k.users, { r with conversation := some k.existing, channel := some k.channel })
      else if k.existing.stateVersion = k.state.version then
        if k.existing.owner = k.state.value.owner ∧ k.storedName = k.state.value.name then
          if r.participants = k.state.value.participants then
            .ok (k.users, { r with conversation := some k.existing, channel := some k.channel })
          else .error (.value "group DM state version conflicts with stored participants")
        else .error (.value "group DM state version conflicts with stored state")
      else
        .ok (k.users,
          { conversation := some { k.existing with
              owner := k.state.value.owner, stateVersion := k.state.version }
            channel := some { k.channel with name := k.state.value.name }
            participants := k.state.value.participants }) := by
  have hversion := (checkConversation_ok hgroup h).version
  rw [replicateConversation, h, ok_bind]
  dsimp only
  rw [if_pos hgroup]
  by_cases hstale : k.state.version < k.existing.stateVersion
  · rw [if_pos hstale, if_pos hstale]
  · rw [if_neg hstale, if_neg hstale]
    by_cases hequal : k.existing.stateVersion = k.state.version
    · rw [if_pos ⟨hequal, by omega⟩, if_pos hequal]
      unfold ensure
      split
      · rw [ok_bind]
        split
        · rfl
        · rfl
      · rfl
    · rw [if_neg fun h => hequal h.1, if_neg hequal, storeParticipants_group, ok_bind]

theorem receive_of_error {e : ReplicaError} (h : replicateConversation r d = .error e) :
    r.receive d = r := by
  rw [Replica.receive, h]
  rfl

theorem receive_of_ok {users : Users} {r' : Replica}
    (h : replicateConversation r d = .ok (users, r')) : r.receive d = r' := by
  rw [Replica.receive, h]
  rfl

theorem group?_kept (hlinked : r.Linked) (hk : CheckedOk r d k) (hx : r.group? = some x) :
    ({ r with conversation := some k.existing, channel := some k.channel } : Replica).group? =
      some x := by
  obtain ⟨c, hc, rfl⟩ := Option.map_eq_some_iff.mp hx
  obtain ⟨channel, hchannel⟩ := Option.ne_none_iff_exists'.mp (hlinked (by simp [hc]))
  simp [Replica.group?, hk.existing c hc, hchannel, hk.channelName channel hchannel]

/-- A delivery that is refused, and one whose checks go through: it is taken
as the first state, or if it is newer than the stored one. -/
theorem receive_cases (hlinked : r.Linked) (hgroup : d.conversation.type = "group") :
    (r.takenAt d = [] ∧ r.receive d = r) ∨
      ∃ y, d.state? = some y ∧ r.takenAt d = [y] ∧ (r.receive d).Linked ∧
        (r.receive d).group? = some (r.group?.elim y fun x =>
          if y.version ≤ x.version then x else y) := by
  cases hcheck : checkConversation r d with
  | error e =>
      refine .inl ⟨?_, ?_⟩
      · rw [Replica.takenAt, hcheck]
        rfl
      · refine receive_of_error (e := e) ?_
        rw [replicateConversation, hcheck]
        rfl
  | ok k =>
      have hk := checkConversation_ok hgroup hcheck
      refine .inr ⟨k.state, hk.state, takenAt_of_ok hcheck, ?_⟩
      have heq := replicate_eq hgroup hcheck
      have hversion := hk.version
      cases hgroup? : r.group? with
      | none =>
          have hnone : r.conversation = none := by simpa [Replica.group?] using hgroup?
          have hzero := hk.inserted hnone
          rw [if_neg (by omega), if_neg (by omega)] at heq
          rw [receive_of_ok heq]
          exact ⟨fun _ => nofun, rfl⟩
      | some x =>
          obtain ⟨c, hc, hx⟩ := Option.map_eq_some_iff.mp hgroup?
          have hstored : k.existing.stateVersion = x.version := by
            rw [hk.existing c hc, ← hx]
          have hkept := group?_kept hlinked hk hgroup?
          rw [hstored] at heq
          rw [Option.elim_some]
          by_cases hstale : k.state.version < x.version
          · rw [if_pos hstale] at heq
            rw [receive_of_ok heq, if_pos (Nat.le_of_lt hstale)]
            exact ⟨fun _ => nofun, hkept⟩
          · rw [if_neg hstale] at heq
            by_cases hequal : x.version = k.state.version
            · rw [if_pos hequal] at heq
              rw [if_pos (Nat.le_of_eq hequal.symm)]
              split_ifs at heq
              · rw [receive_of_ok heq]
                exact ⟨fun _ => nofun, hkept⟩
              · rw [receive_of_error heq]
                exact ⟨hlinked, hgroup?⟩
              · rw [receive_of_error heq]
                exact ⟨hlinked, hgroup?⟩
            · rw [if_neg hequal] at heq
              rw [receive_of_ok heq, if_neg (by omega)]
              exact ⟨fun _ => nofun, rfl⟩

/-- Another state under the stored version is refused. -/
theorem conflict_refused (hgroup : d.conversation.type = "group")
    (hx : r.group? = some x) (hy : d.state? = some y) (hversion : y.version = x.version)
    (hne : y ≠ x) : ∃ e, replicateConversation r d = .error e := by
  cases hcheck : checkConversation r d with
  | error e =>
      rw [replicateConversation, hcheck]
      exact ⟨e, rfl⟩
  | ok k =>
      have hk := checkConversation_ok hgroup hcheck
      obtain rfl : k.state = y := Option.some.inj (hk.state.symm.trans hy)
      obtain ⟨c, hc, rfl⟩ := Option.map_eq_some_iff.mp hx
      have hexisting := hk.existing c hc
      have hequal : k.existing.stateVersion = k.state.version := by rw [hexisting, hversion]
      rw [replicate_eq hgroup hcheck, if_neg (Nat.not_lt.mpr (Nat.le_of_eq hequal)),
        if_pos hequal]
      split_ifs with hstate hparticipants
      · rw [hexisting, hk.storedName] at hstate
        refine absurd (Stamped.ext hversion ?_) hne
        exact GroupState.ext hstate.1.symm hstate.2.symm hparticipants.symm
      · exact ⟨_, rfl⟩
      · exact ⟨_, rfl⟩

/-! ## Runs -/

/-- A group under the states it took. -/
def Replica.Holds (r : Replica) (before : List (Stamped GroupState)) : Prop :=
  match r.group? with
  | none => before = []
  | some x => IsNewest before x

theorem takenAt_subset (hgroup : d.conversation.type = "group") :
    ∀ y ∈ r.takenAt d, d.state? = some y := by
  cases hcheck : checkConversation r d with
  | error e =>
      rw [Replica.takenAt, hcheck]
      exact nofun
  | ok k =>
      rw [takenAt_of_ok hcheck]
      intro y hy
      obtain rfl := List.mem_singleton.mp hy
      exact (checkConversation_ok hgroup hcheck).state

theorem taken_subset {ds : List Delivery} (hgroup : ∀ d ∈ ds, d.conversation.type = "group") :
    r.taken ds ⊆ ds.filterMap Delivery.state? := by
  induction ds generalizing r with
  | nil => exact List.nil_subset _
  | cons d ds ih =>
      obtain ⟨hd, hds⟩ := List.forall_mem_cons.mp hgroup
      intro y hy
      rcases List.mem_append.mp hy with hy | hy
      · exact List.mem_filterMap.mpr ⟨d, List.mem_cons_self, takenAt_subset hd y hy⟩
      · obtain ⟨d', hd', hstate⟩ := List.mem_filterMap.mp (ih hds hy)
        exact List.mem_filterMap.mpr ⟨d', List.mem_cons_of_mem d hd', hstate⟩

theorem Replica.Holds.receive {before : List (Stamped GroupState)} (h : r.Holds before)
    (hlinked : r.Linked) (hgroup : d.conversation.type = "group")
    (hagree : OneValue (before ++ r.takenAt d)) :
    (r.receive d).Holds (before ++ r.takenAt d) ∧ (r.receive d).Linked := by
  rcases receive_cases hlinked hgroup with ⟨htaken, hsame⟩ | ⟨y, -, htaken, hlinked', hreceive⟩
  · rw [htaken, List.append_nil, hsame]
    exact ⟨h, hlinked⟩
  · refine ⟨?_, hlinked'⟩
    rw [htaken] at hagree ⊢
    unfold Replica.Holds at h ⊢
    cases hx : r.group? with
    | none =>
        rw [hx] at h hreceive
        dsimp only at h
        rw [hreceive, h]
        exact isNewest_singleton
    | some x =>
        rw [hx] at h hreceive
        dsimp only at h
        rw [Option.elim_some] at hreceive
        have hnewer : (if y.version ≤ x.version then x else y) = takeNewer x y := by
          unfold takeNewer
          by_cases hequal : y.version = x.version
          · simp [h.eq_of_version hagree hequal]
          · simp [Nat.le_iff_lt_or_eq, hequal]
        rw [hreceive, hnewer]
        exact h.takeNewer

theorem Replica.Holds.run {before : List (Stamped GroupState)} {ds : List Delivery}
    (h : r.Holds before) (hlinked : r.Linked)
    (hgroup : ∀ d ∈ ds, d.conversation.type = "group")
    (hagree : OneValue (before ++ r.taken ds)) :
    (r.run ds).Holds (before ++ r.taken ds) ∧ (r.run ds).Linked := by
  induction ds generalizing r before with
  | nil =>
      rw [Replica.taken, List.append_nil]
      exact ⟨h, hlinked⟩
  | cons d ds ih =>
      obtain ⟨hd, hds⟩ := List.forall_mem_cons.mp hgroup
      rw [Replica.taken, ← List.append_assoc] at hagree ⊢
      obtain ⟨hnext, hlinked'⟩ := h.receive hlinked hd
        (hagree.subset (List.subset_append_left _ _))
      exact ih hnext hlinked' hds hagree

/-- However the states of a group arrive, the replica holds the newest of
those that passed the checks before the version gate. From there a replay
and a stale state change none of its fields, and another state under the
stored version is refused. -/
theorem group_state_converges {ds : List Delivery} (hnew : r.conversation = none)
    (hgroup : ∀ d ∈ ds, d.conversation.type = "group")
    (hstates : OneValue (ds.filterMap Delivery.state?)) :
    (∀ x, (r.run ds).group? = some x → IsNewest (r.taken ds) x) ∧
    (r.taken ds ≠ [] → ∃ x, (r.run ds).group? = some x) ∧
    ∀ x, (r.run ds).group? = some x → ∀ d y, d.conversation.type = "group" → d.state? = some y →
      (y = x → ((r.run ds).receive d).group? = some x) ∧
      (y.version < x.version → ((r.run ds).receive d).group? = some x) ∧
      (y.version = x.version → y ≠ x → ∃ e, replicateConversation (r.run ds) d = .error e) := by
  have hstart : r.Holds [] := by
    unfold Replica.Holds Replica.group?
    rw [hnew]
    rfl
  obtain ⟨hholds, hlinked⟩ : (r.run ds).Holds (r.taken ds) ∧ (r.run ds).Linked :=
    hstart.run (fun h => absurd hnew h) hgroup (hstates.subset (taken_subset hgroup))
  unfold Replica.Holds at hholds
  refine ⟨fun x hx => ?_, fun htaken => ?_, fun x hx d y hd hy => ?_⟩
  · rw [hx] at hholds
    exact hholds
  · cases hx : (r.run ds).group? with
    | none =>
        rw [hx] at hholds
        exact absurd hholds htaken
    | some x => exact ⟨x, rfl⟩
  · have hkept (hle : y.version ≤ x.version) : ((r.run ds).receive d).group? = some x := by
      rcases receive_cases hlinked hd with ⟨-, hsame⟩ | ⟨y', hy', -, -, hreceive⟩
      · rw [hsame, hx]
      · obtain rfl := Option.some.inj (hy.symm.trans hy')
        rw [hreceive, hx, Option.elim_some, if_pos hle]
    refine ⟨fun hyx => hkept (hyx ▸ Nat.le_refl _), fun hlt => hkept (Nat.le_of_lt hlt), ?_⟩
    exact fun hversion hne => conflict_refused hd hx hy hversion hne

end

/-! ## A group of two -/

/-- Group 9 of `b.example` has the users 7 of that server and 1 of this. -/
def sampleSurroundings : Surroundings where
  users :=
    { localDomain := "a.example", remoteUsersPerIntroducer := 100
      rows := [{ ref := ⟨1, "a.example"⟩, isLocal := true, username := "bob"
                 federationIntroducedByDomain := none }] }
  aliases _ := []
  terminal := false
  instanceRecord := .ok ()
  retainedByAuthority := 0
  maxConversationsPerAuthority := 100
  retainedByOrigin := 0
  maxConversationsPerRemoteOrigin := 50
  idTaken := false
  groupDmKey _ _ := "361c47af51991d0c51dbb6026a3710314dbb06bc765f97bf886e6d672b9fe978"

/-- A state of the group: it is named after its version. -/
def sampleDelivery (version : String) (policy : ChannelPolicy) : Delivery where
  env := sampleSurroundings
  conversation :=
    { id := .str "9", originDomain := "b.example", type := "group"
      pairKey := "361c47af51991d0c51dbb6026a3710314dbb06bc765f97bf886e6d672b9fe978"
      authorityDomain := "b.example"
      owner := some { id := .str "7", originDomain := "b.example" }
      name := .str version
      stateVersion := .str version
      encryptionPolicy := some (some (channelEncryptionPolicyPayload policy)) }
  profiles := [{ ref := ⟨7, "b.example"⟩, username := "ann" },
    { ref := ⟨1, "a.example"⟩, username := "bob" }]

def emptyReplica : Replica := { conversation := none, channel := none, participants := ∅ }

/-- A rename, and the old state once more. -/
def sampleRename : List Delivery :=
  [sampleDelivery "1" (samplePolicy .active), sampleDelivery "2" (samplePolicy .active),
    sampleDelivery "1" (samplePolicy .active)]

theorem group_state_converges_sample :
    emptyReplica.taken sampleRename = sampleRename.filterMap Delivery.state? ∧
      ∃ x, (emptyReplica.run sampleRename).group? = some x ∧
        IsNewest (emptyReplica.taken sampleRename) x := by
  have hgroup : ∀ d ∈ sampleRename, d.conversation.type = "group" := by
    simp [sampleRename, sampleDelivery]
  have hstates : OneValue (sampleRename.filterMap Delivery.state?) := by decide +kernel
  obtain ⟨hnewest, hstored, -⟩ := group_state_converges (r := emptyReplica) rfl hgroup hstates
  obtain ⟨x, hx⟩ := hstored (by decide +kernel)
  exact ⟨by decide +kernel, x, hx, hnewest x hx⟩

/-- The authority proposes encryption, activates it and pauses it, with a
version for each; the last state arrives before the second. -/
def sampleOvertaking : List Delivery :=
  [sampleDelivery "1" proposedPolicy, sampleDelivery "3" (samplePolicy .rekeying),
    sampleDelivery "2" (samplePolicy .active)]

/-- The newest state is refused: a proposed room cannot be paused. -/
theorem newest_state_refused :
    (∀ d ∈ sampleOvertaking, d.conversation.type = "group") ∧
      OneValue (sampleOvertaking.filterMap Delivery.state?) ∧
      ¬ ∃ x, (emptyReplica.run sampleOvertaking).group? = some x ∧
        IsNewest (sampleOvertaking.filterMap Delivery.state?) x := by
  refine ⟨by simp [sampleOvertaking, sampleDelivery], by decide +kernel, ?_⟩
  rintro ⟨x, hx, hnewest⟩
  have hfinal : (emptyReplica.run sampleOvertaking).group?.map Stamped.version = some 2 := by
    decide +kernel
  have hissued : ∃ y ∈ sampleOvertaking.filterMap Delivery.state?, y.version = 3 := by
    decide +kernel
  obtain ⟨y, hy, hversion⟩ := hissued
  have hle := hnewest.le y hy
  have hstored : x.version = 2 := by simpa [hx] using hfinal
  omega

end Replication

end Kaede
