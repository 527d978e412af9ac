import Kaede.ChannelEffects

/-!
# The order of channels

What `reorder_channels` makes of the positions in a batch. The channels with
a requested position are taken out and put back group by group, the lowest
position first, each group at the position it asks for or behind the group
before it, and the whole list is numbered anew.

A group never goes in front of the end of the one before it
(`insertGroups_prefix`), so what has been placed stays where it is. Distinct
positions below the number of channels leave room for each other, and every
channel ends where it was asked to be (`insertGroups_exact`).
-/

namespace Kaede

section

variable {groups : List (Nat × List Channel)} {rest : List Channel} {e : Nat}

/-! ## Placing groups -/

/-- The index at which a group is placed. -/
def placeOf (requested e : Nat) (rest : List Channel) : Nat := min (max requested e) rest.length

/-- The list with a group placed in it. -/
def withGroup (requested e : Nat) (group rest : List Channel) : List Channel :=
  rest.take (placeOf requested e rest) ++ group ++ rest.drop (placeOf requested e rest)

theorem insertGroups_cons (requested : Nat) (group : List Channel) :
    insertGroups ((requested, group) :: groups) e rest =
      insertGroups groups (placeOf requested e rest + group.length)
        (withGroup requested e group rest) := rfl

theorem placeOf_bounds (requested : Nat) (he : e ≤ rest.length) :
    e ≤ placeOf requested e rest ∧ placeOf requested e rest ≤ rest.length := by
  unfold placeOf
  omega

/-- The list is placed up to the end of the group. -/
theorem take_placed (requested : Nat) (group : List Channel) :
    (withGroup requested e group rest).take (placeOf requested e rest + group.length) =
      rest.take (placeOf requested e rest) ++ group := by
  have hlen : (rest.take (placeOf requested e rest)).length = placeOf requested e rest :=
    List.length_take_of_le (Nat.min_le_right _ _)
  rw [withGroup, ← hlen, ← List.length_append, hlen]
  exact List.take_left

theorem length_placed (requested : Nat) (group : List Channel) :
    (withGroup requested e group rest).length = rest.length + group.length := by
  have hle : placeOf requested e rest ≤ rest.length := Nat.min_le_right _ _
  rw [withGroup, List.length_append, List.length_append, List.length_take_of_le hle,
    List.length_drop]
  omega

theorem placed_end_le (requested : Nat) (group : List Channel) :
    placeOf requested e rest + group.length ≤ (withGroup requested e group rest).length := by
  rw [length_placed]
  exact Nat.add_le_add_right (Nat.min_le_right _ _) _

/-- The channels in front of the end of the last group stay. -/
theorem insertGroups_prefix (he : e ≤ rest.length) :
    rest.take e <+: insertGroups groups e rest := by
  induction groups generalizing e rest with
  | nil => exact List.take_prefix e rest
  | cons head groups ih =>
    obtain ⟨requested, group⟩ := head
    have hprefix := ih (@placed_end_le rest e requested group)
    rw [take_placed] at hprefix
    rw [insertGroups_cons]
    refine List.IsPrefix.trans ?_ ((List.prefix_append _ group).trans hprefix)
    exact List.take_prefix_take_left (placeOf_bounds requested he).1

/-- A group stays where it is placed. -/
theorem insertGroups_head (requested : Nat) (group : List Channel) :
    rest.take (placeOf requested e rest) ++ group <+:
      insertGroups ((requested, group) :: groups) e rest := by
  rw [insertGroups_cons, ← take_placed]
  exact insertGroups_prefix (placed_end_le requested group)

theorem insertGroups_perm :
    (insertGroups groups e rest).Perm (groups.flatMap Prod.snd ++ rest) := by
  induction groups generalizing e rest with
  | nil => exact .refl _
  | cons head groups ih =>
    obtain ⟨requested, group⟩ := head
    have hplaced : (withGroup requested e group rest).Perm (group ++ rest) := by
      rw [withGroup, List.append_assoc]
      refine (List.perm_append_comm_assoc _ _ _).trans ?_
      rw [List.take_append_drop]
    rw [insertGroups_cons, List.flatMap_cons, List.append_assoc]
    refine ih.trans ((hplaced.append_left _).trans ?_)
    exact List.perm_append_comm_assoc _ _ _

/-- The channels that are not placed keep their order. -/
theorem insertGroups_filter {p : Channel → Bool} (h : ∀ g ∈ groups, ∀ c ∈ g.2, p c = false) :
    (insertGroups groups e rest).filter p = rest.filter p := by
  induction groups generalizing e rest with
  | nil => rfl
  | cons head groups ih =>
    obtain ⟨requested, group⟩ := head
    obtain ⟨hgroup, hgroups⟩ := List.forall_mem_cons.mp h
    have hnone : group.filter p = [] := List.filter_eq_nil_iff.mpr fun c hc => by
      rw [hgroup c hc]
      exact Bool.false_ne_true
    rw [insertGroups_cons, ih hgroups, withGroup, List.filter_append, List.filter_append, hnone,
      List.append_nil, ← List.filter_append, List.take_append_drop]

/-- A group stays in one piece. -/
theorem insertGroups_contiguous {g : Nat × List Channel} (hg : g ∈ groups) :
    g.2 <:+: insertGroups groups e rest := by
  induction groups generalizing e rest with
  | nil => cases hg
  | cons head groups ih =>
    obtain ⟨requested, group⟩ := head
    rcases List.mem_cons.mp hg with rfl | hg
    · exact (List.suffix_append _ group).isInfix.trans (insertGroups_head requested group).isInfix
    · rw [insertGroups_cons]
      exact ih hg

/-- Distinct numbers below a bound leave room for each other. -/
theorem head_add_length_le {n m : Nat} {l : List Nat} (hsorted : (n :: l).Pairwise (· < ·))
    (hbound : ∀ k ∈ n :: l, k < m) : n + (n :: l).length ≤ m := by
  induction l generalizing n with
  | nil => exact hbound n List.mem_cons_self
  | cons k l ih =>
    obtain ⟨hhead, htail⟩ := List.pairwise_cons.mp hsorted
    have hk := hhead k List.mem_cons_self
    have hrest := ih htail fun j hj => hbound j (List.mem_cons_of_mem n hj)
    simp only [List.length_cons] at hrest ⊢
    omega

/-- Channels with distinct positions are placed exactly there. -/
theorem insertGroups_exact (hsorted : (groups.map Prod.fst).Pairwise (· < ·))
    (hsingle : ∀ g ∈ groups, g.2.length = 1) (hstart : ∀ p ∈ groups.map Prod.fst, e ≤ p)
    (hbound : ∀ p ∈ groups.map Prod.fst, p < rest.length + groups.length)
    {p : Nat} {c : Channel} (h : (p, [c]) ∈ groups) :
    (insertGroups groups e rest)[p]? = some c := by
  induction groups generalizing e rest with
  | nil => cases h
  | cons head groups ih =>
    obtain ⟨requested, group⟩ := head
    obtain ⟨hgroup, hsingles⟩ := List.forall_mem_cons.mp hsingle
    rw [List.map_cons] at hsorted hstart hbound
    have hroom := head_add_length_le hsorted hbound
    have hstarts := hstart requested List.mem_cons_self
    have hplace : placeOf requested e rest = requested := by
      rw [List.length_cons, List.length_cons, List.length_map] at hroom
      unfold placeOf
      omega
    rcases List.mem_cons.mp h with heq | h
    · obtain ⟨rfl, rfl⟩ := Prod.mk.inj heq
      obtain ⟨tail, htail⟩ := @insertGroups_head groups rest e p [c]
      have hlen : (rest.take p).length = p :=
        List.length_take_of_le (hplace ▸ Nat.min_le_right _ _)
      rw [← htail, hplace, List.append_assoc,
        List.getElem?_append_right (Nat.le_of_eq hlen), hlen, Nat.sub_self]
      rfl
    · rw [insertGroups_cons, hplace, hgroup]
      refine ih (List.pairwise_cons.mp hsorted).2 hsingles ?_ ?_ h
      · exact fun q hq => (List.pairwise_cons.mp hsorted).1 q hq
      · intro q hq
        have := hbound q (List.mem_cons_of_mem _ hq)
        rw [length_placed, hgroup]
        rw [List.length_cons] at this
        omega

end

namespace Guild

variable {channels : List Channel} {items : List ChannelPosition}

/-! ## The order of a batch -/

/-- The positions a batch asks for, the lowest first. -/
def requestedPositions (items : List ChannelPosition) : List Nat :=
  (items.filterMap fun i => i.position).dedup.mergeSort (· ≤ ·)

/-- The rows that ask for a position. -/
def groupAt (channels : List Channel) (items : List ChannelPosition) (p : Nat) : List Channel :=
  ((items.filter fun i => i.position = some p).filterMap fun i =>
    lookupBy Channel.id i.id channels).mergeSort fun a b => a.id ≤ b.id

/-- The channels that ask for a position, in id order. -/
def idsAt (items : List ChannelPosition) (p : Nat) : List Nat :=
  ((items.filter fun i => i.position = some p).map ChannelPosition.id).mergeSort (· ≤ ·)

/-- The channels that ask for one. -/
def positionedIds (items : List ChannelPosition) : List Nat :=
  (items.filter fun i => i.position ≠ none).map ChannelPosition.id

theorem finalOrder_eq (channels : List Channel) (items : List ChannelPosition) :
    finalOrder channels items =
      (insertGroups ((requestedPositions items).map fun p => (p, groupAt channels items p)) 0
        (channels.filter fun c => c.id ∉ positionedIds items)).map Channel.id := rfl

theorem mem_requestedPositions {p : Nat} :
    p ∈ requestedPositions items ↔ ∃ i ∈ items, i.position = some p := by
  rw [requestedPositions, List.mem_mergeSort, List.mem_dedup, List.mem_filterMap]

theorem mem_idsAt {p x : Nat} :
    x ∈ idsAt items p ↔ ∃ i ∈ items, i.position = some p ∧ i.id = x := by
  simp [idsAt, List.mem_mergeSort, and_assoc]

theorem mem_positionedIds {x : Nat} :
    x ∈ positionedIds items ↔ ∃ i ∈ items, i.position ≠ none ∧ i.id = x := by
  simp [positionedIds, and_assoc]

theorem requestedPositions_sorted (items : List ChannelPosition) :
    (requestedPositions items).Pairwise (· < ·) := by
  have hle : (requestedPositions items).Pairwise (· ≤ ·) := List.pairwise_mergeSort' _ _
  have hnodup : (requestedPositions items).Nodup :=
    (List.mergeSort_perm _ _).nodup_iff.mpr (List.nodup_dedup _)
  exact (List.Pairwise.and hle hnodup).imp fun h => Nat.lt_of_le_of_ne h.1 h.2

section

variable (hfound : ∀ i ∈ items, i.id ∈ channels.map Channel.id)
include hfound

theorem map_id_groupAt (p : Nat) : (groupAt channels items p).map Channel.id = idsAt items p := by
  have hids : ∀ l : List ChannelPosition, (∀ i ∈ l, i.id ∈ channels.map Channel.id) →
      (l.filterMap fun i => lookupBy Channel.id i.id channels).map Channel.id =
        l.map ChannelPosition.id := by
    intro l hl
    induction l with
    | nil => rfl
    | cons i l ih =>
      obtain ⟨hi, hrest⟩ := List.forall_mem_cons.mp hl
      obtain ⟨c, hc, hid⟩ := List.mem_map.mp hi
      have hsome : (lookupBy Channel.id i.id channels).isSome = true :=
        List.find?_isSome.mpr ⟨c, hc, decide_eq_true hid⟩
      obtain ⟨d, hd⟩ := Option.isSome_iff_exists.mp hsome
      have hcons : (i :: l).filterMap (fun i => lookupBy Channel.id i.id channels) =
          d :: l.filterMap fun i => lookupBy Channel.id i.id channels :=
        List.filterMap_cons_some hd
      rw [hcons, List.map_cons, List.map_cons, key_of_lookupBy hd, ih hrest]
  have hmap : (groupAt channels items p).map Channel.id =
      (List.map Channel.id ((items.filter fun i => i.position = some p).filterMap fun i =>
        lookupBy Channel.id i.id channels)).mergeSort (· ≤ ·) :=
    List.map_mergeSort fun _ _ _ _ => rfl
  rw [hmap, hids _ fun i hi => hfound i (List.mem_of_mem_filter hi)]
  rfl

/-- The channels that end up in the list: the groups and the others. -/
theorem finalOrder_perm :
    (finalOrder channels items).Perm ((requestedPositions items).flatMap (idsAt items) ++
      (channels.map Channel.id).filter fun x => x ∉ positionedIds items) := by
  have hgroups : (((requestedPositions items).map fun p =>
      (p, groupAt channels items p)).flatMap Prod.snd).map Channel.id =
        (requestedPositions items).flatMap (idsAt items) := by
    rw [List.flatMap_map, List.map_flatMap]
    exact List.flatMap_congr fun p _ => map_id_groupAt hfound p
  rw [finalOrder_eq]
  refine (insertGroups_perm.map Channel.id).trans ?_
  rw [List.map_append, hgroups, List.filter_map]
  exact .refl _

/-- The batch orders every channel once. -/
theorem finalOrder_perm_ids (hunique : (items.map ChannelPosition.id).Nodup)
    (hids : (channels.map Channel.id).Nodup) :
    (finalOrder channels items).Perm (channels.map Channel.id) := by
  have hsame : ∀ i ∈ items, ∀ j ∈ items, i.id = j.id → i = j := fun i hi j hj =>
    List.inj_on_of_nodup_map hunique hi hj
  have hat : ∀ p, (idsAt items p).Nodup := fun p =>
    (List.mergeSort_perm _ _).nodup_iff.mpr
      (hunique.sublist (List.filter_sublist.map ChannelPosition.id))
  have hgroups : ((requestedPositions items).flatMap (idsAt items)).Nodup := by
    refine List.nodup_flatMap.mpr ⟨fun p _ => hat p, ?_⟩
    refine (requestedPositions_sorted items).imp fun {p q} hlt x hp hq => ?_
    obtain ⟨i, hi, hip, rfl⟩ := mem_idsAt.mp hp
    obtain ⟨j, hj, hjq, hid⟩ := mem_idsAt.mp hq
    rw [hsame j hj i hi hid, hip] at hjq
    exact Nat.ne_of_lt hlt (Option.some.inj hjq)
  have hmem : ∀ x, x ∈ (requestedPositions items).flatMap (idsAt items) ↔
      x ∈ positionedIds items := by
    intro x
    rw [List.mem_flatMap, mem_positionedIds]
    constructor
    · rintro ⟨p, -, hx⟩
      obtain ⟨i, hi, hip, rfl⟩ := mem_idsAt.mp hx
      exact ⟨i, hi, Option.isSome_iff_ne_none.mp (hip ▸ rfl), rfl⟩
    · rintro ⟨i, hi, hip, rfl⟩
      obtain ⟨p, hp⟩ := Option.ne_none_iff_exists'.mp hip
      exact ⟨p, mem_requestedPositions.mpr ⟨i, hi, hp⟩, mem_idsAt.mpr ⟨i, hi, hp, rfl⟩⟩
  refine (finalOrder_perm hfound).trans ?_
  refine (List.perm_ext_iff_of_nodup ?_ hids).mpr fun x => ?_
  · refine List.nodup_append'.mpr ⟨hgroups, hids.filter _, fun x hx hrest => ?_⟩
    exact (of_decide_eq_true (List.mem_filter.mp hrest).2) ((hmem x).mp hx)
  · rw [List.mem_append, hmem, List.mem_filter, decide_eq_true_iff]
    constructor
    · rintro (hx | hx)
      · obtain ⟨i, hi, -, rfl⟩ := mem_positionedIds.mp hx
        exact hfound i hi
      · exact hx.1
    · intro hx
      by_cases hp : x ∈ positionedIds items
      · exact .inl hp
      · exact .inr ⟨hx, hp⟩

/-- The channels without a position keep their order. -/
theorem finalOrder_filter :
    (finalOrder channels items).filter (fun x => x ∉ positionedIds items) =
      (channels.map Channel.id).filter fun x => x ∉ positionedIds items := by
  have hplaced : ∀ g ∈ (requestedPositions items).map fun p => (p, groupAt channels items p),
      ∀ c ∈ g.2, decide (c.id ∉ positionedIds items) = false := by
    intro g hg c hc
    obtain ⟨p, -, rfl⟩ := List.mem_map.mp hg
    have hid : c.id ∈ idsAt items p := map_id_groupAt hfound p ▸ List.mem_map_of_mem hc
    obtain ⟨i, hi, hip, hid⟩ := mem_idsAt.mp hid
    have hpos : c.id ∈ positionedIds items :=
      mem_positionedIds.mpr ⟨i, hi, Option.isSome_iff_ne_none.mp (hip ▸ rfl), hid⟩
    exact decide_eq_false (not_not_intro hpos)
  rw [finalOrder_eq, List.filter_map, List.filter_map]
  have hkept := @insertGroups_filter _ (channels.filter fun c => c.id ∉ positionedIds items) 0
    (fun c => decide (c.id ∉ positionedIds items)) hplaced
  simp only [List.filter_filter, Bool.and_self] at hkept
  exact congrArg (List.map Channel.id) hkept

/-- Channels that ask for the same position are next to each other, in id
order. -/
theorem idsAt_infix (p : Nat) : idsAt items p <:+: finalOrder channels items := by
  by_cases hp : p ∈ requestedPositions items
  · rw [← map_id_groupAt hfound, finalOrder_eq]
    have hgroup : (p, groupAt channels items p) ∈
        (requestedPositions items).map fun p => (p, groupAt channels items p) :=
      List.mem_map_of_mem hp
    exact (insertGroups_contiguous hgroup).map Channel.id
  · have hnone : idsAt items p = [] := List.eq_nil_iff_forall_not_mem.mpr fun x hx => by
      obtain ⟨i, hi, hip, -⟩ := mem_idsAt.mp hx
      exact hp (mem_requestedPositions.mpr ⟨i, hi, hip⟩)
    rw [hnone]
    exact List.nil_infix

/-- Channels with positions of their own end up there. -/
theorem finalOrder_exact (hunique : (items.map ChannelPosition.id).Nodup)
    (hids : (channels.map Channel.id).Nodup)
    (hdistinct : (items.filterMap fun i => i.position).Nodup)
    (hbound : ∀ i ∈ items, ∀ p ∈ i.position, p < channels.length) {i : ChannelPosition} {p : Nat}
    (hi : i ∈ items) (hp : i.position = some p) : (finalOrder channels items)[p]? = some i.id := by
  -- a position is asked for once, so each group is one channel
  have hsingle : ∀ q ∈ requestedPositions items, (groupAt channels items q).length = 1 := by
    intro q hq
    obtain ⟨j, hj, hjq⟩ := mem_requestedPositions.mp hq
    have hone := List.nodup_iff_count_le_one.mp hdistinct q
    have hmem : j ∈ items.filter fun i => i.position = some q :=
      List.mem_filter.mpr ⟨hj, decide_eq_true hjq⟩
    have hcount : List.count q (items.filterMap fun i => i.position) =
        (items.filter fun i => i.position = some q).length := by
      rw [List.count_filterMap, ← List.countP_eq_length_filter]
      exact List.countP_congr fun j _ => by rw [beq_iff_eq, decide_eq_true_iff]
    have hlen : (groupAt channels items q).length =
        (items.filter fun i => i.position = some q).length := by
      rw [← List.length_map Channel.id, map_id_groupAt hfound, idsAt, List.length_mergeSort,
        List.length_map]
    have := List.length_pos_of_mem hmem
    omega
  have hgroups : ∀ g ∈ (requestedPositions items).map fun q => (q, groupAt channels items q),
      g.2.length = 1 := by
    intro g hg
    obtain ⟨q, hq, rfl⟩ := List.mem_map.mp hg
    exact hsingle q hq
  have hfst : (((requestedPositions items).map fun q => (q, groupAt channels items q)).map
      Prod.fst) = requestedPositions items := by
    rw [List.map_map]
    exact List.map_id _
  have hlength : channels.length =
      (channels.filter fun c => c.id ∉ positionedIds items).length +
        ((requestedPositions items).map fun q => (q, groupAt channels items q)).length := by
    have hperm := (finalOrder_perm_ids hfound hunique hids).length_eq
    rw [finalOrder_eq, List.length_map, insertGroups_perm.length_eq, List.length_append,
      List.length_map, List.length_flatMap, List.map_congr_left hgroups] at hperm
    rw [← hperm, List.map_const', List.sum_replicate_nat, Nat.mul_one, Nat.add_comm]
  obtain ⟨c, hc⟩ := List.length_eq_one_iff.mp (hsingle p (mem_requestedPositions.mpr ⟨i, hi, hp⟩))
  have hid : c.id = i.id := by
    have hgroup := map_id_groupAt hfound p
    rw [hc] at hgroup
    have hmem : i.id ∈ idsAt items p := mem_idsAt.mpr ⟨i, hi, hp, rfl⟩
    rw [← hgroup] at hmem
    exact (List.mem_singleton.mp hmem).symm
  have hplaced := @insertGroups_exact
    ((requestedPositions items).map fun q => (q, groupAt channels items q))
    (channels.filter fun c => c.id ∉ positionedIds items) 0
    (hfst.symm ▸ requestedPositions_sorted items) hgroups (fun _ _ => Nat.zero_le _)
    (fun q hq => by
      rw [hfst] at hq
      obtain ⟨j, hj, hjq⟩ := mem_requestedPositions.mp hq
      exact hlength ▸ hbound j hj q hjq)
    p c (List.mem_map.mpr ⟨p, mem_requestedPositions.mpr ⟨i, hi, hp⟩, by rw [hc]⟩)
  rw [finalOrder_eq, List.getElem?_map, hplaced, Option.map_some, hid]

end

/-! ## The guild after a batch -/

variable {g g' : Guild}

/-- The rows of a guild that can be ordered. -/
def orderable (g : Guild) : List Channel :=
  g.channels.filter fun c => !c.unavailable && !c.type.isThread

theorem map_id_orderable (h : g'.channels.map Channel.kind = g.channels.map Channel.kind) :
    g'.orderable.map Channel.id = g.orderable.map Channel.id := by
  have hkinds : ∀ l : List Channel,
      (l.filter fun c => !c.unavailable && !c.type.isThread).map Channel.id =
        ((l.map Channel.kind).filter fun k => !k.2.2 && !k.2.1.isThread).map Prod.fst := by
    intro l
    rw [List.filter_map, List.map_map]
    rfl
  rw [orderable, orderable, hkinds, hkinds, h]

theorem orderedChannels_perm (g : Guild) : g.orderedChannels.Perm g.orderable :=
  List.mergeSort_perm _ _

/-- Rows numbered by their place in a list are ordered as the list is. -/
theorem orderedChannels_numbered {order : List Nat}
    (hperm : (g.orderable.map Channel.id).Perm order) (hnodup : order.Nodup)
    (hpos : ∀ c ∈ g.orderable, c.position = order.idxOf c.id) :
    g.orderedChannels.map Channel.id = order ∧
      g.orderedChannels.map Channel.position = List.range order.length := by
  have hrows : ∀ c ∈ g.orderedChannels, c.position = order.idxOf c.id ∧ c.id ∈ order := by
    intro c hc
    have hc := (orderedChannels_perm g).mem_iff.mp hc
    exact ⟨hpos c hc, hperm.mem_iff.mp (List.mem_map_of_mem hc)⟩
  have hsorted : g.orderedChannels.Pairwise fun a b => a.position ≤ b.position := by
    refine (List.pairwise_mergeSort (fun a b c hab hbc => ?_) (fun a b => ?_) _).imp ?_
    · simp only [Bool.or_eq_true, Bool.and_eq_true, decide_eq_true_eq] at *
      omega
    · simp only [Bool.or_eq_true, Bool.and_eq_true, decide_eq_true_eq]
      omega
    · intro a b hab
      simp only [Bool.or_eq_true, Bool.and_eq_true, decide_eq_true_eq] at hab
      omega
  have hplaces : ∀ l : List Nat, l = order → l.map (fun x => order.idxOf x) =
      List.range l.length := by
    rintro l rfl
    refine List.ext_getElem (by rw [List.length_map, List.length_range]) fun i hi hi' => ?_
    rw [List.getElem_map, List.getElem_range]
    exact hnodup.idxOf_getElem i _
  have hnumbered : g.orderedChannels.map Channel.position =
      (g.orderedChannels.map Channel.id).map fun x => order.idxOf x := by
    rw [List.map_map]
    exact List.map_congr_left fun c hc => (hrows c hc).1
  have hids : g.orderedChannels.map Channel.id = order := by
    have hleft : (g.orderedChannels.map Channel.id).Pairwise fun a b =>
        order.idxOf a ≤ order.idxOf b := by
      rw [← List.pairwise_map (R := (· ≤ ·)), ← hnumbered, List.pairwise_map]
      exact hsorted
    have hright : order.Pairwise fun a b => order.idxOf a ≤ order.idxOf b := by
      rw [← List.pairwise_map (R := (· ≤ ·)), hplaces order rfl]
      exact List.pairwise_le_range
    have hsame := ((orderedChannels_perm g).map Channel.id).trans hperm
    refine List.Perm.eq_of_pairwise ?_ hleft hright hsame
    intro a b ha _ hab hba
    exact (List.idxOf_inj (hsame.mem_iff.mp ha)).mp (Nat.le_antisymm hab hba)
  exact ⟨hids, by rw [hnumbered, hplaces _ hids, hids]⟩

/-! ## What a batch does to the rows -/

theorem updateChannelRow_kinds {x : Nat} {f : Channel → Channel} (hf : ∀ c, (f c).kind = c.kind) :
    (g.updateChannelRow x f).channels.map Channel.kind = g.channels.map Channel.kind := by
  rw [updateChannelRow, updateBy, List.map_map]
  refine List.map_congr_left fun c _ => ?_
  rw [Function.comp_apply]
  split
  · exact hf c
  · rfl

theorem unsync_kinds {c : Channel} (h : g.unsync c = .ok g') :
    g'.channels.map Channel.kind = g.channels.map Channel.kind := by
  simp only [unsync, bind_eq_ok] at h
  obtain ⟨source, -, h⟩ := h
  split at h
  · rw [Except.ok.inj h]
  · rw [← Except.ok.inj h]
    exact updateChannelRow_kinds fun _ => rfl

theorem applyMove_kinds {move : PlannedMove} (h : g.applyMove move = .ok g') :
    g'.channels.map Channel.kind = g.channels.map Channel.kind := by
  simp only [applyMove, bind_eq_ok] at h
  obtain ⟨channel, -, h⟩ := h
  split at h
  · rw [Except.ok.inj h]
  · obtain ⟨g₁, hsynced, h⟩ := bind_eq_ok.mp h
    have hsame : g₁.channels.map Channel.kind = g.channels.map Channel.kind := by
      split at hsynced
      · rw [← Except.ok.inj hsynced]
        exact updateChannelRow_kinds fun _ => rfl
      · split at hsynced
        · exact unsync_kinds hsynced
        · rw [Except.ok.inj hsynced]
    rw [← Except.ok.inj h, ← hsame]
    refine updateChannelRow_kinds fun c => ?_
    split
    · exact (Channel.kind_of_place (Channel.place_pause (move.write c))).trans rfl
    · rfl

theorem applyMoves_kinds {moves : List PlannedMove} (h : applyMoves moves g = .ok g') :
    g'.channels.map Channel.kind = g.channels.map Channel.kind := by
  induction moves generalizing g with
  | nil => rw [Except.ok.inj h]
  | cons move moves ih =>
    obtain ⟨g₁, hmove, hmoves⟩ := bind_eq_ok.mp h
    exact (ih hmoves).trans (applyMove_kinds hmove)

/-- The rows after an accepted batch, numbered in the order it asks for. -/
theorem reorderChannels_rows {actor : User} {actorPermissions now : Nat} {masks : Nat → Nat}
    {payload : ChannelPositionBatch}
    (h : g.reorderChannels actor actorPermissions masks payload now = .ok g') :
    (∀ i ∈ payload.channels, i.id ∈ g.orderedChannels.map Channel.id) ∧
      (∀ i ∈ payload.channels, ∀ p ∈ i.position, p < g.orderedChannels.length) ∧
      g'.channels.map Channel.kind = g.channels.map Channel.kind ∧
      ∃ g₁ : Guild, g'.channels = ((g₁.setPositions
        (finalOrder g.orderedChannels payload.channels)).touchChanged g now).channels := by
  simp only [reorderChannels, bind_eq_ok, ensure_eq_ok] at h
  obtain ⟨_, -, _, hfound, _, hbound, ⟨moves, checks⟩, -, _, -, _, -, _, -, g₁, hmoves, h⟩ := h
  have hrows : g'.channels = ((g₁.setPositions
      (finalOrder g.orderedChannels payload.channels)).touchChanged g now).channels := by
    split at h
    · next hsame => rw [← Except.ok.inj h, hsame]
    · rw [commitChannels_ok h]
      cases moves.any (PlannedMove.changesPermissions g) <;> rfl
  refine ⟨hfound, hbound, ?_, g₁, hrows⟩
  rw [hrows, ← applyMoves_kinds hmoves, touchChanged, setPositions, List.map_map, List.map_map]
  refine List.map_congr_left fun c _ => ?_
  simp only [Function.comp_apply]
  split <;> split <;> rfl

/-- An accepted batch numbers the channels in the order it asks for. -/
theorem reorderChannels_numbered {actor : User} {actorPermissions now : Nat} {masks : Nat → Nat}
    {payload : ChannelPositionBatch} (hids : (g.channels.map Channel.id).Nodup)
    (h : g.reorderChannels actor actorPermissions masks payload now = .ok g') :
    g'.orderedChannels.map Channel.id = finalOrder g.orderedChannels payload.channels ∧
      g'.orderedChannels.map Channel.position = List.range g.orderedChannels.length := by
  obtain ⟨hfound, -, hkinds, g₁, hrows⟩ := reorderChannels_rows h
  have hunique : (g.orderedChannels.map Channel.id).Nodup :=
    ((orderedChannels_perm g).map Channel.id).nodup_iff.mpr
      (hids.sublist (List.filter_sublist.map Channel.id))
  have hperm := finalOrder_perm_ids hfound payload.uniqueIds hunique
  have horderable : (g'.orderable.map Channel.id).Perm
      (finalOrder g.orderedChannels payload.channels) := by
    rw [map_id_orderable hkinds]
    exact (((orderedChannels_perm g).map Channel.id).symm).trans hperm.symm
  have hpos : ∀ c ∈ g'.orderable,
      c.position = (finalOrder g.orderedChannels payload.channels).idxOf c.id := by
    intro c hc
    have horder := horderable.mem_iff.mp (List.mem_map_of_mem hc)
    have hc := List.mem_of_mem_filter hc
    rw [hrows] at hc
    obtain ⟨d, hd, rfl⟩ := List.mem_map.mp hc
    have hstamp : ∀ stamped : Channel, stamped = (if g.channel? d.id = some d then d
        else { d with updatedAt := now }) → stamped.id = d.id ∧ stamped.position = d.position := by
      rintro stamped rfl
      split <;> exact ⟨rfl, rfl⟩
    rw [(hstamp _ rfl).1] at horder ⊢
    rw [(hstamp _ rfl).2]
    obtain ⟨e, -, rfl⟩ := List.mem_map.mp hd
    by_cases he : e.id ∈ finalOrder g.orderedChannels payload.channels
    · simp only [if_pos he]
    · rw [if_neg he] at horder
      exact absurd horder he
  obtain ⟨hnumbered, hpositions⟩ :=
    orderedChannels_numbered horderable (hperm.nodup_iff.mpr hunique) hpos
  rw [hperm.length_eq, List.length_map] at hpositions
  exact ⟨hnumbered, hpositions⟩

/-- The positions after an accepted batch are `0` to `n - 1`, each channel
has one, the channels without a requested position keep their order, those
with positions of their own are at them, and those that share one are next to
each other in id order. -/
theorem reorderChannels_positions {actor : User} {actorPermissions now : Nat} {masks : Nat → Nat}
    {payload : ChannelPositionBatch} (hg : g.ChannelSchema)
    (h : g.reorderChannels actor actorPermissions masks payload now = .ok g') :
    (g'.orderedChannels.map Channel.id).Perm (g.orderedChannels.map Channel.id) ∧
      g'.orderedChannels.map Channel.position = List.range g.orderedChannels.length ∧
      (g'.orderedChannels.map Channel.id).filter (fun x => x ∉ positionedIds payload.channels) =
        (g.orderedChannels.map Channel.id).filter (fun x => x ∉ positionedIds payload.channels) ∧
      ((payload.channels.filterMap fun i => i.position).Nodup →
        ∀ i ∈ payload.channels, ∀ p, i.position = some p →
          (g'.channel? i.id).map Channel.position = some p) ∧
      ∀ p, idsAt payload.channels p <:+: g'.orderedChannels.map Channel.id := by
  obtain ⟨hnumbered, hpositions⟩ := reorderChannels_numbered hg.ids h
  obtain ⟨hfound, hbound, hkinds, -⟩ := reorderChannels_rows h
  have hunique : (g.orderedChannels.map Channel.id).Nodup :=
    ((orderedChannels_perm g).map Channel.id).nodup_iff.mpr
      (hg.ids.sublist (List.filter_sublist.map Channel.id))
  refine ⟨?_, hpositions, ?_, ?_, fun p => hnumbered ▸ idsAt_infix hfound p⟩
  · rw [hnumbered]
    exact finalOrder_perm_ids hfound payload.uniqueIds hunique
  · rw [hnumbered]
    exact finalOrder_filter hfound
  · intro hdistinct i hi p hp
    have hexact := finalOrder_exact hfound payload.uniqueIds hunique hdistinct hbound hi hp
    rw [← hnumbered, List.getElem?_map] at hexact
    obtain ⟨c, hc, hid⟩ := Option.map_eq_some_iff.mp hexact
    have hposition : c.position = p := by
      have hrange := congrArg (·[p]?) hpositions
      simp only [List.getElem?_map, hc, Option.map_some,
        List.getElem?_range (hbound i hi p hp)] at hrange
      exact Option.some.inj hrange
    have hids : (g'.channels.map Channel.id).Nodup := by
      have hfst := congrArg (List.map Prod.fst) hkinds
      rw [List.map_map, List.map_map] at hfst
      exact Eq.symm hfst ▸ hg.ids
    have hrow : g'.channel? c.id = some c :=
      lookupBy_of_mem hids (mem_orderedChannels.mp (List.mem_of_getElem? hc)).1
    rw [← hid, hrow, Option.map_some, hposition]

end Guild

/-- Four channels and a thread. -/
def sampleOrder : Guild :=
  { sampleTree with
    channels :=
      [{ id := 10, type := .text, position := 0 }, { id := 11, type := .text, position := 1 },
        { id := 12, type := .text, position := 2 }, { id := 13, type := .voice, position := 3 },
        { id := 14, type := .publicThread, parentId := some 10 }]
    overwrites := [] }

/-- Two channels go to the front. -/
def sampleChannelBatch : ChannelPositionBatch where
  channels := [{ id := 11, position := some 0 }, { id := 13, position := some 1 }]
  nonempty := List.cons_ne_nil _ _
  bounded := by decide
  uniqueIds := by decide

theorem sampleOrder_orderedChannels :
    sampleOrder.orderedChannels = sampleOrder.channels.take 4 :=
  List.mergeSort_of_pairwise (l := sampleOrder.channels.take 4) (by decide)

theorem sampleChannelBatch_finalOrder :
    Guild.finalOrder (sampleOrder.channels.take 4) sampleChannelBatch.channels =
      [11, 13, 10, 12] := by
  have hrequested : Guild.requestedPositions sampleChannelBatch.channels = [0, 1] :=
    List.mergeSort_of_pairwise (l := [0, 1]) (by decide)
  rw [Guild.finalOrder_eq, hrequested, List.map_cons, List.map_cons,
    List.map_nil, Guild.groupAt, Guild.groupAt, List.mergeSort_of_pairwise (by decide),
    List.mergeSort_of_pairwise (by decide)]
  decide

theorem reorderChannels_positions_sample : ∃ g', sampleOrder.reorderChannels
        { ref := sampleTree.owner, accountType := .human, disabled := false }
        allPermissions (fun _ => allPermissions) sampleChannelBatch 5 = .ok g' ∧
      g'.orderedChannels.map Channel.position = [0, 1, 2, 3] ∧
      (g'.channel? 11).map Channel.position = some 0 ∧
      (g'.channel? 13).map Channel.position = some 1 := by
  obtain ⟨g', hok⟩ : ∃ g', sampleOrder.reorderChannels
      { ref := sampleTree.owner, accountType := .human, disabled := false }
        allPermissions (fun _ => allPermissions) sampleChannelBatch 5 = .ok g' := by
    have hplan : Guild.planMoves (sampleOrder.channels.take 4) sampleChannelBatch.channels [] =
        .ok (sampleChannelBatch.channels.map fun i =>
          { item := i, nextParentId := none, parentChanged := false }, []) := rfl
    simp only [Guild.reorderChannels, sampleOrder_orderedChannels,
      sampleChannelBatch_finalOrder, hplan,
      ok_bind, List.mergeSort_nil]
    exact ⟨_, rfl⟩
  have hpositions := Guild.reorderChannels_positions ⟨by decide, by decide⟩ hok
  have hplaces := hpositions.2.2.2.1 (by decide)
  refine ⟨g', hok, ?_, ?_, ?_⟩
  · rw [hpositions.2.1, sampleOrder_orderedChannels]
    rfl
  · exact hplaces { id := 11, position := some 0 } (by decide) 0 rfl
  · exact hplaces { id := 13, position := some 1 } (by decide) 1 rfl

end Kaede
