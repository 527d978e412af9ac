import Kaede.GuildMirror

/-!
# Joining a guild of another instance

A guild's authority says who its members are, but it must not make members of
this instance's users: a user becomes one by a join that was begun here. The
begun join is an intent row, and every path by which a membership enters the
replica reads it.

`Admits s t` is what one operation may do to the roster. It composes, so a
path is a chain of small operations. The snapshot is the exception: it looks
for the intent under the domain as the snapshot writes it, and stores the
member under the domain that parsing gives. The two agree if the snapshot
writes the domain of this instance's users as they are parsed.
-/

namespace Kaede

namespace GuildMirror

/-! ## The roster -/

namespace Replica

/-- Assignments and overwrites are of members. -/
structure Linked (s : Replica) : Prop where
  roles : ∀ r ∈ s.memberRoles, s.isMember r.1
  overwrites : ∀ c u, (c, Target.member u) ∈ s.overwrites → s.isMember u

/-- The user is a member, holds a role or is the target of an overwrite. -/
def Belongs (s : Replica) (u : UserRef) : Prop :=
  s.isMember u ∨ u ∈ s.memberRoles.map Prod.fst ∨ ∃ c, (c, Target.member u) ∈ s.overwrites

theorem Linked.isMember_of_belongs {s : Replica} (hs : s.Linked) {u : UserRef}
    (h : s.Belongs u) : s.isMember u := by
  rcases h with h | h | ⟨c, h⟩
  · exact h
  · obtain ⟨r, hr, rfl⟩ := List.mem_map.mp h
    exact hs.roles r hr
  · exact hs.overwrites c u h

/-- The part of the replica that memberships are read from. -/
def roster (s : Replica) :
    Table UserRef Member × List (UserRef × Nat) × List (Nat × Target) × Table UserRef Intent :=
  (s.members, s.memberRoles, s.overwrites, s.intents)

theorem isMember_keep {s : Replica} {p : UserRef → Bool} {u : UserRef}
    (h : ((s.members.keep p).lookup u).isSome) : p u ∧ s.isMember u := by
  rw [Table.lookup_keep] at h
  split at h
  · rename_i hp
    exact ⟨hp, h⟩
  · exact absurd h (by simp)

end Replica

/-- What an operation may do to the roster: no user of this instance is added
without an intent, rows keep their members, and no intent to join appears. -/
structure Admits (domain : String) (s t : Replica) : Prop where
  members : ∀ u : UserRef, u.domain = domain → t.isMember u →
    s.isMember u ∨ s.intents.lookup u = some .joining
  linked : s.Linked → t.Linked
  intents : ∀ u, t.intents.lookup u = some .joining → s.intents.lookup u = some .joining

namespace Admits

variable {domain : String} {s t r : Replica}

theorem trans (h : Admits domain s t) (h' : Admits domain t r) : Admits domain s r where
  members u hu hr := by
    rcases h'.members u hu hr with ht | ht
    · exact h.members u hu ht
    · exact .inr (h.intents u ht)
  linked hs := h'.linked (h.linked hs)
  intents u hu := h.intents u (h'.intents u hu)

/-- The members stay, and what is added is about them. -/
theorem of_members (hm : ∀ u, t.isMember u = s.isMember u) (hi : t.intents = s.intents)
    (hr : ∀ r ∈ t.memberRoles, r ∈ s.memberRoles ∨ s.isMember r.1)
    (ho : ∀ c u, (c, Target.member u) ∈ t.overwrites →
      (c, Target.member u) ∈ s.overwrites ∨ s.isMember u) : Admits domain s t := by
  refine ⟨fun u _ hu => .inl (hm u ▸ hu), fun hs => ⟨fun r hr' => ?_, fun c u hu => ?_⟩,
    fun u hu => hi ▸ hu⟩
  · rw [hm]
    exact (hr r hr').elim (hs.roles r) id
  · rw [hm]
    exact (ho c u hu).elim (hs.overwrites c u) id

theorem of_subset (hm : t.members = s.members) (hi : t.intents = s.intents)
    (hr : t.memberRoles ⊆ s.memberRoles) (ho : t.overwrites ⊆ s.overwrites) :
    Admits domain s t := by
  refine of_members (fun u => ?_) hi (fun r hr' => .inl (hr hr')) (fun c u hu => .inl (ho hu))
  rw [Replica.isMember, Replica.isMember, hm]

theorem of_roster (h : t.roster = s.roster) : Admits domain s t := by
  simp only [Replica.roster, Prod.mk.injEq] at h
  obtain ⟨hm, hr, ho, hi⟩ := h
  exact of_subset hm hi (hr ▸ List.Subset.refl _) (ho ▸ List.Subset.refl _)

theorem refl : Admits domain s s := of_roster rfl

end Admits

/-! ## Small operations -/

section

variable {domain : String} {s : Replica}

theorem admits_markDeparted (u : UserRef) : Admits domain s (s.markDeparted u) where
  members v _ hv := .inl hv
  linked hs := ⟨hs.roles, hs.overwrites⟩
  intents v hv := by
    rw [Replica.markDeparted, Table.lookup_insert_ite] at hv
    split at hv
    · exact absurd hv (by simp)
    · exact hv

theorem admits_markAllDeparted (us : List UserRef) : Admits domain s (s.markAllDeparted us) := by
  induction us generalizing s with
  | nil => exact .refl
  | cons u us ih => exact (admits_markDeparted u).trans ih

theorem admits_removeMembers (gone : UserRef → Bool) :
    Admits domain s (s.removeMembers gone) where
  members u _ hu := .inl (Replica.isMember_keep hu).2
  linked hs := by
    refine ⟨fun r hr => ?_, fun c u hu => ?_⟩
    · obtain ⟨hr, hp⟩ := List.mem_filter.mp hr
      have := hs.roles r hr
      simp only [Replica.isMember, Replica.removeMembers, Table.lookup_keep] at this ⊢
      rw [if_pos hp]
      exact this
    · obtain ⟨hu, hp⟩ := List.mem_filter.mp hu
      have := hs.overwrites c u hu
      simp only [Replica.isMember, Replica.removeMembers, Table.lookup_keep] at this ⊢
      rw [if_pos hp]
      exact this
  intents u hu := hu

theorem admits_purgeChannels (ids : List Nat) :
    Admits domain s (ids.foldl Replica.purgeChannel s) := by
  induction ids generalizing s with
  | nil => exact .refl
  | cons id ids ih =>
      have hid : Admits domain s (s.purgeChannel id) := .of_roster rfl
      exact hid.trans ih

theorem admits_purgeAll : Admits domain s s.purgeAll :=
  (admits_purgeChannels s.channels.keys).trans
    (.of_subset rfl rfl (List.Subset.refl _) (List.nil_subset _))

theorem admits_deleteMessages (rows : List (Nat × Message)) :
    Admits domain s (deleteMessages s rows) := by
  induction rows generalizing s with
  | nil => exact .refl
  | cons row rows ih =>
      have hrow : Admits domain s (deleteMessage s row.1 row.2) := .of_roster rfl
      exact hrow.trans ih

/-! ## Events -/

theorem roster_joinThread {e : MessageEvent} {c : Channel} {t : Replica}
    (h : joinThread s e c = some t) : t.roster = s.roster := by
  unfold joinThread at h
  split at h
  · obtain rfl := Option.some.inj h
    rfl
  · split at h
    · obtain rfl := Option.some.inj h
      rfl
    · exact absurd h (by simp)

theorem roster_countMessage {e : MessageEvent} {c : Channel} {t : Replica}
    (h : countMessage s e c = some t) : t.roster = s.roster := by
  unfold countMessage at h
  split at h
  · split at h
    · split at h
      · exact roster_joinThread h
      · exact absurd h (by simp)
    · exact roster_joinThread h
  · obtain rfl := Option.some.inj h
    rfl

theorem roster_advanced (e : MessageEvent) : (e.advanced s).roster = s.roster := by
  unfold MessageEvent.advanced
  split
  · rfl
  · rfl

theorem roster_storeMessage {e : MessageEvent} {c : Channel} {t : Replica}
    (h : storeMessage s e c = some t) : t.roster = s.roster := by
  unfold storeMessage at h
  split at h
  · split at h
    · obtain rfl := Option.some.inj h
      exact roster_advanced e
    · exact absurd h (by simp)
  · split at h
    · obtain rfl := Option.some.inj h
      rfl
    · rw [roster_countMessage h]
      exact roster_advanced e

theorem admits_messageEvent {e : MessageEvent} {t : Replica}
    (h : applyGuildMessageEvent s e = some t) : Admits domain s t := by
  unfold applyGuildMessageEvent at h
  split at h
  · split at h
    · split at h
      · exact .of_roster (roster_storeMessage h)
      · exact absurd h (by simp)
    · exact absurd h (by simp)
  · exact absurd h (by simp)

theorem admits_redactionEvent {seq : Nat} {valid : Bool} {t : Replica}
    (h : applyGuildRedactionEvent s seq valid = some t) : Admits domain s t := by
  unfold applyGuildRedactionEvent at h
  split at h
  · obtain rfl := Option.some.inj h
    exact .refl
  · split at h
    · obtain rfl := Option.some.inj h
      exact .of_roster rfl
    · exact absurd h (by simp)

/-- The rows that a member event adds: the member if it is new, and the roles
it lists. -/
theorem admits_addMember {u : UserRef} {row : Member} {roles : List Nat} {seq : Nat}
    (hu : u.domain = domain → s.isMember u = false → s.intents.lookup u = some .joining) :
    Admits domain s { s with
      members := if s.isMember u then s.members else s.members.insert u row
      memberRoles := s.memberRoles ++ (roles.map fun r => (u, r)).filter (· ∉ s.memberRoles)
      intents := if u.domain = domain ∧ s.isMember u = false then s.intents.erase u
        else s.intents
      lastEventSeq := seq } := by
  have hmem : ∀ v, ((if s.isMember u then s.members else s.members.insert u row).lookup v).isSome ↔
      (v = u ∨ s.isMember v) := by
    intro v
    by_cases hs : s.isMember u = true
    · rw [if_pos hs]
      refine ⟨.inr, ?_⟩
      rintro (rfl | h)
      · exact hs
      · exact h
    · rw [if_neg hs, Table.lookup_insert_ite]
      by_cases hv : v = u
      · simp [hv]
      · simp [hv, Replica.isMember]
  refine ⟨fun v hv h => ?_, fun hs => ⟨fun r hr => ?_, fun c v h => ?_⟩, fun v h => ?_⟩
  · rcases (hmem v).mp h with rfl | h
    · cases hs : s.isMember v with
      | true => exact .inl rfl
      | false => exact .inr (hu hv hs)
    · exact .inl h
  · refine (hmem r.1).mpr ?_
    rcases List.mem_append.mp hr with hr | hr
    · exact .inr (hs.roles r hr)
    · obtain ⟨_, _, rfl⟩ := List.mem_map.mp (List.mem_filter.mp hr).1
      exact .inl rfl
  · exact (hmem v).mpr (.inr (hs.overwrites c v h))
  · dsimp only at h
    split at h
    · rw [Table.lookup_erase_ite] at h
      split at h
      · exact absurd h (by simp)
      · exact h
    · exact h

theorem admits_memberEvent {e : MemberEvent} {t : Replica}
    (h : applyGuildMemberEvent domain s e = some t) : Admits domain s t := by
  unfold applyGuildMemberEvent at h
  split at h
  · obtain rfl := Option.some.inj h
    exact .refl
  · split at h
    · split at h
      · rename_i u _
        split at h
        · split at h
          · obtain rfl := Option.some.inj h
            exact .of_roster rfl
          · rename_i hblock
            split at h
            · obtain rfl := Option.some.inj h
              refine admits_addMember fun hu hs => ?_
              by_contra hjoin
              exact hblock ⟨hu, hs, hjoin⟩
            · exact absurd h (by simp)
        · exact absurd h (by simp)
      · exact absurd h (by simp)
    · exact absurd h (by simp)

/-! ## Mutations -/

theorem isMember_insert {u : UserRef} {m m' : Member} (hu : s.members.lookup u = some m)
    (v : UserRef) : ((s.members.insert u m').lookup v).isSome = s.isMember v := by
  rw [Table.lookup_insert_ite]
  by_cases hv : v = u
  · subst hv
    simp [Replica.isMember, hu]
  · simp [hv, Replica.isMember]

theorem admits_setMemberRoles {u : UserRef} {m m' : Member} {version : Nat}
    {memberRoles : List (UserRef × Nat)} {t : Replica} (hu : s.members.lookup u = some m)
    (hroles : ∀ r ∈ memberRoles, r ∈ s.memberRoles ∨ r.1 = u)
    (h : setMemberRoles s u m' version memberRoles = some t) : Admits domain s t := by
  unfold setMemberRoles at h
  split at h
  · exact absurd h (by simp)
  · obtain rfl := Option.some.inj h
    refine .of_members (isMember_insert hu) rfl (fun r hr => ?_) (fun c v hv => .inl hv)
    rcases hroles r hr with hr | hr
    · exact .inl hr
    · right
      rw [hr, Replica.isMember, hu]
      rfl

theorem admits_channelUpsert {create : Bool} {id : Nat} {c : Channel} {owner : UserRef}
    {t : Replica} (h : channelUpsert s create id c owner = some t) : Admits domain s t := by
  unfold channelUpsert at h
  split at h
  · split at h
    · obtain rfl := Option.some.inj h
      exact .of_roster rfl
    · exact absurd h (by simp)
  · obtain rfl := Option.some.inj h
    exact .of_roster rfl

theorem admits_messageUpdate {id : Nat} {safety : Option String} {released : Bool}
    {body : Option String} {t : Replica}
    (h : applyMessageUpdate s id safety released body = some t) : Admits domain s t := by
  unfold applyMessageUpdate at h
  split at h
  · obtain rfl := Option.some.inj h
    exact .refl
  · split at h
    · exact absurd h (by simp)
    · obtain ⟨m', -, rfl⟩ := Option.map_eq_some_iff.mp h
      exact .of_roster rfl

theorem admits_messageDelete {id : Nat} {removed : Bool} {t : Replica}
    (h : applyMessageDelete s id removed = some t) : Admits domain s t := by
  unfold applyMessageDelete at h
  split at h
  · obtain rfl := Option.some.inj h
    exact .refl
  · split at h
    · exact absurd h (by simp)
    · split at h
      · obtain rfl := Option.some.inj h
        exact .of_roster rfl
      · split at h
        · exact absurd h (by simp)
        · obtain rfl := Option.some.inj h
          exact .of_roster rfl

theorem admits_messageBulkDelete {channel : Nat} {ids : List Nat} {t : Replica}
    (h : applyMessageBulkDelete s channel ids = some t) : Admits domain s t := by
  unfold applyMessageBulkDelete at h
  split at h
  · obtain rfl := Option.some.inj h
    exact admits_deleteMessages _
  · exact absurd h (by simp)

/-- An overwrite that is added has a member for its target. -/
theorem mem_overwrites_upsert {channel c : Nat} {target : Target} {allow deny : Nat} {u : UserRef}
    (hknown : target.known s = true)
    (h : (c, Target.member u) ∈
      (if allow = 0 ∧ deny = 0 then s.overwrites.filter (· ≠ (channel, target))
        else if (channel, target) ∈ s.overwrites then s.overwrites
        else s.overwrites ++ [(channel, target)])) :
    (c, Target.member u) ∈ s.overwrites ∨ s.isMember u := by
  split at h
  · exact .inl (List.mem_filter.mp h).1
  · split at h
    · exact .inl h
    · rcases List.mem_append.mp h with h | h
      · exact .inl h
      · obtain ⟨-, rfl⟩ := Prod.mk.inj (List.mem_singleton.mp h)
        exact .inr hknown

theorem mem_memberRoles_add {u : UserRef} {role : Nat} {r : UserRef × Nat}
    (h : r ∈ (if (u, role) ∈ s.memberRoles then s.memberRoles
      else s.memberRoles ++ [(u, role)])) : r ∈ s.memberRoles ∨ r.1 = u := by
  split at h
  · exact .inl h
  · rcases List.mem_append.mp h with h | h
    · exact .inl h
    · rw [List.mem_singleton.mp h]
      exact .inr rfl

theorem admits_mutation {m : Mutation} {t : Replica} (h : applyMutation domain s m = some t) :
    Admits domain s t := by
  cases m with
  | guildUpdate owner =>
      cases owner with
      | none =>
          obtain rfl := Option.some.inj h
          exact .refl
      | some u =>
          simp only [applyMutation] at h
          split at h
          · obtain rfl := Option.some.inj h
            exact .of_roster rfl
          · exact absurd h (by simp)
  | channelUpsert create id c owner => exact admits_channelUpsert h
  | channelDelete id =>
      obtain rfl := Option.some.inj h
      split
      · exact .of_roster rfl
      · exact .refl
  | threadMemberUpsert thread u row memberCount =>
      simp only [applyMutation] at h
      split at h
      · split at h
        · obtain rfl := Option.some.inj h
          exact .of_roster rfl
        · exact absurd h (by simp)
      · exact absurd h (by simp)
  | threadMemberDelete thread u memberCount =>
      simp only [applyMutation] at h
      split at h
      · split at h
        · obtain rfl := Option.some.inj h
          exact .of_roster rfl
        · exact absurd h (by simp)
      · exact absurd h (by simp)
  | roleUpsert id =>
      obtain rfl := Option.some.inj h
      exact .of_roster rfl
  | roleDelete id =>
      simp only [applyMutation] at h
      split at h
      · obtain rfl := Option.some.inj h
        exact .refl
      · split at h
        · exact absurd h (by simp)
        · obtain rfl := Option.some.inj h
          exact .of_subset rfl rfl (List.filter_subset_self _) (List.filter_subset_self _)
  | overwriteUpsert channel target allow deny =>
      simp only [applyMutation] at h
      split at h
      · rename_i hknown
        obtain rfl := Option.some.inj h
        exact .of_members (fun _ => rfl) rfl (fun r hr => .inl hr)
          fun c u hu => mem_overwrites_upsert hknown.2 hu
      · exact absurd h (by simp)
  | overwriteDelete channel target =>
      simp only [applyMutation] at h
      split at h
      · obtain rfl := Option.some.inj h
        exact .of_subset rfl rfl (List.Subset.refl _) (List.filter_subset_self _)
      · exact absurd h (by simp)
  | memberUpdate u row =>
      simp only [applyMutation] at h
      split at h
      · rename_i hu
        split at h
        · exact absurd h (by simp)
        · obtain rfl := Option.some.inj h
          exact .of_members (isMember_insert hu) rfl (fun r hr => .inl hr) (fun c v hv => .inl hv)
      · exact absurd h (by simp)
  | memberRemove u =>
      simp only [applyMutation] at h
      split at h
      · split at h
        · exact absurd h (by simp)
        · split at h
          · obtain rfl := Option.some.inj h
            exact (admits_removeMembers _).trans (admits_markDeparted u)
          · obtain rfl := Option.some.inj h
            exact admits_removeMembers _
      · obtain rfl := Option.some.inj h
        exact .refl
  | membersOriginRemove origin =>
      simp only [applyMutation] at h
      split at h
      · exact absurd h (by simp)
      · split at h
        · obtain rfl := Option.some.inj h
          exact (admits_removeMembers _).trans (admits_markAllDeparted _)
        · obtain rfl := Option.some.inj h
          exact admits_removeMembers _
  | memberRoleAdd u role version =>
      simp only [applyMutation] at h
      split at h
      · rename_i hu
        split at h
        · exact admits_setMemberRoles hu (fun r hr => mem_memberRoles_add hr) h
        · exact absurd h (by simp)
      · exact absurd h (by simp)
  | memberRoleRemove u role version =>
      simp only [applyMutation] at h
      split at h
      · rename_i hu
        split at h
        · exact admits_setMemberRoles hu (fun r hr => .inl (List.mem_filter.mp hr).1) h
        · exact absurd h (by simp)
      · exact absurd h (by simp)
  | messageUpdate id safety released body => exact admits_messageUpdate h
  | messageDelete id removed => exact admits_messageDelete h
  | messageBulkDelete channel ids => exact admits_messageBulkDelete h
  | messagePurge author createdAfter =>
      obtain rfl := Option.some.inj h
      exact admits_deleteMessages _
  | other =>
      obtain rfl := Option.some.inj h
      exact .refl

theorem admits_mutationEvent {e : MutationEvent} {t : Replica}
    (h : applyGuildMutationEvent domain s e = some t) : Admits domain s t := by
  unfold applyGuildMutationEvent at h
  split at h
  · obtain rfl := Option.some.inj h
    exact .refl
  · split at h
    · obtain ⟨t', ht', rfl⟩ := Option.map_eq_some_iff.mp h
      exact (admits_mutation ht').trans (.of_roster rfl)
    · exact absurd h (by simp)

theorem admits_event {e : Event} {t : Replica} (h : applyEvent domain s e = some t) :
    Admits domain s t := by
  cases e with
  | message e => exact admits_messageEvent h
  | member e => exact admits_memberEvent h
  | redaction seq requiresSnapshot valid =>
      simp only [applyEvent] at h
      split at h
      · exact absurd h (by simp)
      · exact admits_redactionEvent h
  | mutation e =>
      simp only [applyEvent] at h
      split at h
      · exact absurd h (by simp)
      · exact admits_mutationEvent h

/-! ## Snapshots -/

theorem admits_dropOmitted (a : Admitted) : Admits domain s (dropOmitted domain s a) :=
  (admits_removeMembers _).trans (admits_markAllDeparted _)

/-- The users of this instance are written as parsing gives them. -/
def Snapshot.LocalAsParsed (domain : String) (p : Snapshot) : Prop :=
  ∀ m ∈ p.members, ∀ u ∈ m.user.ref, u.domain = domain → m.user.raw = u

instance (p : Snapshot) : Decidable (p.LocalAsParsed domain) :=
  inferInstanceAs (Decidable (∀ m ∈ p.members, ∀ u ∈ m.user.ref, _ → _))

/-- A user who is let in was a member or is joining, if the filter sees the
reference that is stored. -/
theorem mem_or_joining_of_admitted {p : Snapshot} {u : UserRef} (hp : p.LocalAsParsed domain)
    (hu : u.domain = domain)
    (h : some u ∈ (filterRemoteSnapshotMemberships domain s p).members.map fun m => m.user.ref) :
    s.isMember u ∨ s.intents.lookup u = some .joining := by
  obtain ⟨m, hm, href⟩ := List.mem_map.mp h
  obtain ⟨hm, hblock⟩ := List.mem_filter.mp hm
  have hraw : m.user.raw = u := hp m hm u href hu
  rw [hraw, decide_eq_true_eq, blockedRef, not_or, not_and, not_and, not_and] at hblock
  by_cases hlocal : u ∈ s.localMembers domain
  · left
    have hkey := (List.mem_filter.mp hlocal).1
    exact AList.lookup_isSome.mpr hkey
  · right
    by_contra hjoin
    exact hblock.1 (List.mem_map.mpr ⟨m, hm, hraw⟩) hu hlocal hjoin

theorem joining_of_completeRequired {found intents : Table UserRef Intent}
    {required : Option UserRef} {u : UserRef}
    (h : (completeRequired found intents required).lookup u = some .joining) :
    intents.lookup u = some .joining := by
  unfold completeRequired at h
  split at h
  · split at h
    · rw [Table.lookup_erase_ite] at h
      split at h
      · exact absurd h (by simp)
      · exact h
    · exact h
  · exact h

theorem admits_snapshot {p : Snapshot} {required : Option UserRef} {t : Replica}
    (hp : p.LocalAsParsed domain) (h : applyGuildSnapshot domain s p required = some t) :
    Admits domain s t := by
  unfold applyGuildSnapshot at h
  split at h
  · rename_i hok
    obtain ⟨-, -, -, hroles, hover, -⟩ := hok
    obtain rfl := Option.some.inj h
    have hdrop : Admits domain s
        (dropOmitted domain s (filterRemoteSnapshotMemberships domain s p)) :=
      admits_dropOmitted _
    have hkept : Admits domain s
        (purgeOmitted (dropOmitted domain s (filterRemoteSnapshotMemberships domain s p)) p) :=
      hdrop.trans (admits_purgeChannels _)
    refine ⟨fun u hu hmem => ?_, fun _ => ⟨fun r hr => ?_, fun c u hc => ?_⟩, fun u hu => ?_⟩
    · rcases isMember_installMembers.mp hmem with hmem | hmem
      · exact hkept.members u hu hmem
      · exact mem_or_joining_of_admitted hp hu hmem
    · exact isMember_installMembers.mpr (.inr (hroles r hr))
    · exact isMember_installMembers.mpr (.inr (of_decide_eq_true (hover _ hc)))
    · exact hdrop.intents u (joining_of_completeRequired hu)
  · exact absurd h (by simp)

/-! ## Operations of this instance -/

theorem admits_accessRevocation {u : UserRef} {t : Replica}
    (h : applyGuildAccessRevocation domain s u = some t) : Admits domain s t := by
  unfold applyGuildAccessRevocation at h
  split at h
  · obtain rfl := Option.some.inj h
    have hgone : Admits domain s (s.removeMembers (· = u)) := admits_removeMembers _
    split
    · exact hgone.trans admits_purgeAll
    · exact hgone
  · exact absurd h (by simp)

theorem admits_leave {u : UserRef} {t : Replica} (h : leaveGuild domain s u = some t) :
    Admits domain s t := by
  unfold leaveGuild at h
  split at h
  · exact (admits_markDeparted u).trans (admits_accessRevocation h)
  · exact absurd h (by simp)

theorem admits_purgeIntents (stale : List UserRef) : Admits domain s (purgeIntents s stale) where
  members u _ hu := .inl hu
  linked hs := ⟨hs.roles, hs.overwrites⟩
  intents u hu := by
    rw [purgeIntents, Table.lookup_eraseAll] at hu
    split at hu
    · exact absurd hu (by simp)
    · exact hu

/-- Every operation but a begun join. -/
theorem admits_apply {i : Input} {t : Replica} (hi : ∀ u limit, i ≠ .beginJoin u limit)
    (hp : ∀ p required, i = .snapshot p required → p.LocalAsParsed domain)
    (h : apply domain s i = some t) : Admits domain s t := by
  cases i with
  | event e => exact admits_event h
  | snapshot p required => exact admits_snapshot (hp p required rfl) h
  | beginJoin u limit => exact absurd rfl (hi u limit)
  | leave u => exact admits_leave h
  | revokeAccess u => exact admits_accessRevocation h
  | revokeInstance =>
      obtain rfl := Option.some.inj h
      exact (admits_removeMembers _).trans admits_purgeAll
  | purgeIntents stale =>
      obtain rfl := Option.some.inj h
      exact admits_purgeIntents stale
  | evict ids =>
      obtain rfl := Option.some.inj h
      exact .of_roster rfl

/-- A begun join changes the intent of its user. -/
theorem beginJoin_cases {u : UserRef} {limit : Bool} {t : Replica}
    (h : beginRemoteGuildJoin domain s u limit = some t) :
    t = s ∨ t = { s with intents := s.intents.insert u .joining } := by
  unfold beginRemoteGuildJoin at h
  split at h
  · exact absurd h (by simp)
  · split at h
    · exact .inl (Option.some.inj h).symm
    · split at h
      · exact absurd h (by simp)
      · exact .inr (Option.some.inj h).symm

end

/-! ## Runs -/

/-- The replica, and the last intent that was recorded for each user. -/
structure Watched where
  replica : Replica
  latest : Table UserRef Intent := ∅

/-- An intent to join is recorded by the begun join alone. A departure is
recorded wherever its row is written. -/
def recorded (i : Input) (intents latest : Table UserRef Intent) : Table UserRef Intent :=
  match i with
  | .beginJoin u _ =>
      if intents.lookup u = some .joining then latest.insert u .joining else latest
  | _ => intents.retain (· = .departed) ∪ latest

variable (domain : String)

/-- An operation that raises leaves everything as it was. -/
def deliver (w : Watched) (i : Input) : Watched :=
  match apply domain w.replica i with
  | some s => ⟨s, recorded i s.intents w.latest⟩
  | none => w

def step (w : Watched) (i : Input) : Option Watched := some (deliver domain w i)

/-- A snapshot that is applied writes the domain of this instance's users as it
is parsed. -/
def AsParsed (w : Watched) : Input → Prop
  | .snapshot p required =>
      (applyGuildSnapshot domain w.replica p required).isSome → p.LocalAsParsed domain
  | _ => True

instance (w : Watched) (i : Input) : Decidable (AsParsed domain w i) := by
  unfold AsParsed
  cases i with
  | snapshot p required => exact inferInstance
  | _ => exact inferInstance

/-- The rows and the record agree. -/
structure Consistent (w : Watched) : Prop where
  linked : w.replica.Linked
  latest : ∀ u i, w.replica.intents.lookup u = some i → w.latest.lookup u = some i

variable {domain}

theorem lookup_recorded {intents intents' latest : Table UserRef Intent} {u : UserRef} {i : Intent}
    (hjoin : ∀ v, intents'.lookup v = some .joining → intents.lookup v = some .joining)
    (hlatest : ∀ v j, intents.lookup v = some j → latest.lookup v = some j)
    (h : intents'.lookup u = some i) :
    (intents'.retain (· = .departed) ∪ latest).lookup u = some i := by
  have hkept := Table.lookup_retain (t := intents') (j := u) (p := (· = Intent.departed))
  rw [h] at hkept
  cases i with
  | departed =>
      have hkept : (intents'.retain (· = .departed)).lookup u = some .departed := hkept
      rw [AList.lookup_union_left (AList.lookup_isSome.mp (by rw [hkept]; rfl)), hkept]
  | joining =>
      have hkept : (intents'.retain (· = .departed)).lookup u = none := hkept
      rw [AList.lookup_union_right (AList.lookup_eq_none.mp hkept)]
      exact hlatest u .joining (hjoin u h)

theorem recorded_of_ne {i : Input} (hi : ∀ u limit, i ≠ .beginJoin u limit)
    (intents latest : Table UserRef Intent) :
    recorded i intents latest = intents.retain (· = .departed) ∪ latest := by
  cases i with
  | beginJoin u limit => exact absurd rfl (hi u limit)
  | _ => rfl

theorem consistent_beginJoin {w : Watched} {u : UserRef} {limit : Bool} (hw : Consistent w) :
    Consistent (deliver domain w (.beginJoin u limit)) := by
  unfold deliver
  split
  · rename_i t ht
    refine ⟨?_, fun v j hv => ?_⟩
    · rcases beginJoin_cases ht with rfl | rfl
      · exact hw.linked
      · exact ⟨hw.linked.roles, hw.linked.overwrites⟩
    · rcases beginJoin_cases ht with rfl | rfl
      · have hlatest := hw.latest v j hv
        simp only [recorded]
        split
        · rename_i hu
          rw [Table.lookup_insert_ite]
          split
          · rename_i hvu
            subst hvu
            rw [← hv, hu]
          · exact hlatest
        · exact hlatest
      · simp only [recorded, Table.lookup_insert_ite, if_true] at hv ⊢
        split at hv
        · rename_i hvu
          rw [if_pos hvu]
          exact hv
        · rename_i hvu
          rw [if_neg hvu]
          exact hw.latest v j hv
  · exact hw

theorem consistent_deliver {w : Watched} {i : Input} (hw : Consistent w)
    (hi : AsParsed domain w i) : Consistent (deliver domain w i) := by
  by_cases hbegin : ∃ u limit, i = .beginJoin u limit
  · obtain ⟨u, limit, rfl⟩ := hbegin
    exact consistent_beginJoin hw
  · have hne : ∀ u limit, i ≠ .beginJoin u limit := fun u limit h => hbegin ⟨u, limit, h⟩
    unfold deliver
    split
    · rename_i t ht
      have hadm : Admits domain w.replica t := by
        refine admits_apply hne (fun p required hp => ?_) ht
        subst hp
        exact hi (Option.isSome_of_eq_some ht)
      refine ⟨hadm.linked hw.linked, fun u j hu => ?_⟩
      rw [recorded_of_ne hne]
      exact lookup_recorded hadm.intents hw.latest hu
    · exact hw

theorem members_deliver {w : Watched} {i : Input} (hi : AsParsed domain w i) (u : UserRef)
    (hu : u.domain = domain) (h : (deliver domain w i).replica.isMember u) :
    w.replica.isMember u ∨ w.replica.intents.lookup u = some .joining := by
  by_cases hbegin : ∃ v limit, i = .beginJoin v limit
  · obtain ⟨v, limit, rfl⟩ := hbegin
    left
    unfold deliver at h
    split at h
    · rename_i t ht
      rcases beginJoin_cases ht with rfl | rfl
      · exact h
      · exact h
    · exact h
  · unfold deliver at h
    split at h
    · rename_i t ht
      refine Admits.members (admits_apply (fun v limit hv => hbegin ⟨v, limit, hv⟩)
        (fun p required hp => ?_) ht) u hu h
      subst hp
      exact hi (Option.isSome_of_eq_some ht)
    · exact .inl h

theorem latest_of_recorded {i : Input} {u : UserRef} {intents latest : Table UserRef Intent}
    (hi : ∀ limit, i ≠ .beginJoin u limit)
    (h : (recorded i intents latest).lookup u = some .joining) :
    latest.lookup u = some .joining := by
  by_cases hbegin : ∃ v limit, i = .beginJoin v limit
  · obtain ⟨v, limit, rfl⟩ := hbegin
    have huv : u ≠ v := by
      rintro rfl
      exact hi limit rfl
    simp only [recorded] at h
    split at h
    · rwa [Table.lookup_insert_ite, if_neg huv] at h
    · exact h
  · rw [recorded_of_ne fun v limit hv => hbegin ⟨v, limit, hv⟩] at h
    rcases AList.mem_lookup_union.mp h with h | ⟨-, h⟩
    · have hkept := Table.lookup_retain (t := intents) (j := u) (p := (· = Intent.departed))
      rw [Option.mem_def.mp h] at hkept
      have := Option.filter_eq_some_iff.mp hkept.symm
      exact absurd this.2 (by decide)
    · exact h

/-- A record of an intent to join has a begun join behind it. -/
theorem begun_of_latest {C : Watched → Input → Prop} {w w' : Watched} {is : List Input}
    {u : UserRef} (hrun : Exec (step domain) C w is w')
    (h : w'.latest.lookup u = some .joining) :
    w.latest.lookup u = some .joining ∨ ∃ limit, Input.beginJoin u limit ∈ is := by
  induction hrun with
  | nil w => exact .inl h
  | @cons w w₁ w₂ i is _ hstep _ ih =>
      obtain rfl := Option.some.inj hstep
      rcases ih h with h₁ | ⟨limit, hmem⟩
      · by_cases hbegin : ∃ limit, i = .beginJoin u limit
        · obtain ⟨limit, rfl⟩ := hbegin
          exact .inr ⟨limit, List.mem_cons_self⟩
        · left
          unfold deliver at h₁
          split at h₁
          · rename_i t _
            exact latest_of_recorded (fun limit hi => hbegin ⟨limit, hi⟩) h₁
          · exact h₁
      · exact .inr ⟨limit, List.mem_cons_of_mem _ hmem⟩

/-- What is recorded before the replica is first seen. -/
theorem consistent_empty (id : Nat) (owner : UserRef) :
    Consistent { replica := { id := id, owner := owner } } where
  linked := ⟨fun _ hr => absurd hr List.not_mem_nil, fun _ _ hu => absurd hu List.not_mem_nil⟩
  latest u i hu := absurd hu (by simp)

/-- In every state of a run whose applied snapshots write the domain of this
instance's users as it is parsed: a user of this instance who is no member becomes one,
or a role holder, or the target of an overwrite, only with an intent to join.
That intent is the last one recorded, and a begun join of the run recorded
it. -/
theorem local_membership_needs_join (domain : String) {id : Nat} {owner : UserRef}
    {is : List Input} {w : Watched}
    (hrun : Exec (step domain) (AsParsed domain) { replica := { id := id, owner := owner } } is w)
    {i : Input} (hi : AsParsed domain w i) {u : UserRef} (hu : u.domain = domain)
    (hnot : w.replica.isMember u = false) (h : (deliver domain w i).replica.Belongs u) :
    w.replica.intents.lookup u = some .joining ∧ w.latest.lookup u = some .joining ∧
      ∃ limit, Input.beginJoin u limit ∈ is := by
  have hw : Consistent w := by
    refine Exec.invariant (fun w i w' hw hi hstep => ?_) hrun (consistent_empty id owner)
    obtain rfl := Option.some.inj hstep
    exact consistent_deliver hw hi
  have hmem := (consistent_deliver hw hi).linked.isMember_of_belongs h
  have hjoin : w.replica.intents.lookup u = some .joining :=
    (members_deliver hi u hu hmem).resolve_left (by simp [hnot])
  have hlatest := hw.latest u .joining hjoin
  refine ⟨hjoin, hlatest, (begun_of_latest hrun hlatest).resolve_left (by simp)⟩

/-! ## A user of `local.example` in a guild of `remote.example` -/

def sampleOwner : UserRef := ⟨1, "remote.example"⟩

def sampleUser : UserRef := ⟨7, "local.example"⟩

/-- The snapshot that lists the owner and one more user, with a role. -/
def sampleSnapshot (seq : Nat) (domain : String) : Snapshot where
  snapshotSeq := seq
  owner := sampleOwner
  roles := [9, 20]
  channels := [(30, {})]
  members := [{ user := ⟨1, "remote.example"⟩ }, { user := ⟨7, domain⟩ }]
  memberRoles := [(sampleUser, 20)]
  overwrites := [(30, .member sampleUser)]
  threadMembers := []

def sampleStart : Watched := { replica := { id := 9, owner := sampleOwner } }

theorem local_membership_after_begun_join :
    ∃ w, Exec (step "local.example") (AsParsed "local.example") sampleStart
        [.beginJoin sampleUser false] w ∧
      (deliver "local.example" w
        (.snapshot (sampleSnapshot 4 "local.example") (some sampleUser))).replica.Belongs
          sampleUser ∧
      w.replica.intents.lookup sampleUser = some .joining := by
  have hrun : Exec (step "local.example") (AsParsed "local.example") sampleStart
      [.beginJoin sampleUser false]
      (deliver "local.example" sampleStart (.beginJoin sampleUser false)) :=
    .cons trivial rfl (.nil _)
  have hbelongs : (deliver "local.example"
      (deliver "local.example" sampleStart (.beginJoin sampleUser false))
      (.snapshot (sampleSnapshot 4 "local.example") (some sampleUser))).replica.Belongs
        sampleUser := .inl (by decide +kernel)
  refine ⟨_, hrun, hbelongs, (local_membership_needs_join "local.example" hrun ?_ rfl ?_
    hbelongs).1⟩
  · intro _
    show (sampleSnapshot 4 "local.example").LocalAsParsed "local.example"
    decide +kernel
  · decide +kernel

/-- The user joins and leaves. A snapshot that writes the domain in capitals
then makes them a member again, though the last intent is a departure. -/
theorem departed_user_added_by_spelling :
    ∃ w, Exec (step "local.example") Always sampleStart
        [.beginJoin sampleUser false,
          .snapshot (sampleSnapshot 4 "local.example") (some sampleUser), .leave sampleUser] w ∧
      w.replica.isMember sampleUser = false ∧ w.latest.lookup sampleUser = some .departed ∧
      (deliver "local.example" w
        (.snapshot (sampleSnapshot 5 "LOCAL.example") none)).replica.isMember sampleUser ∧
      w.replica.intents.lookup sampleUser ≠ some .joining := by
  refine ⟨_, .cons trivial rfl (.cons trivial rfl (.cons trivial rfl (.nil _))), ?_⟩
  decide +kernel

end GuildMirror

end Kaede
