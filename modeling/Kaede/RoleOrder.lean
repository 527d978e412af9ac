import Kaede.RoleHierarchy

/-!
# Reordering roles

`reorder_roles` takes the positions of all roles at once and accepts only
1, 2, …, n. `create_role` shifts the roles up and starts at 1, but
`delete_role` leaves its position empty, and from then on every batch moves
the highest role down: only the owner can send one. `reorderable_iff` says
exactly which reachable states let a member rearrange the roles below
their own.
-/

namespace Kaede

/-- A guild as it is created, with whoever has joined it since. -/
structure NewGuild (g : Guild) : Prop where
  everyone : ∃ r, g.roles = [r] ∧ r.id = g.id ∧ r.position = 0
  holders : g.memberRoles = []

/-- A successful role request of anybody. -/
def orderStep (g : Guild) (i : UserRef × RoleCall) : Option Guild := roleStep i.1 g i.2

namespace Guild

/-- The roles a rearrangement below `top` may move. -/
def lowerRoles (g : Guild) (top : Role) : List Role := g.movableRoles.filter fun r => r.RankLt top

/-- New places for the roles below `top` among themselves; all other roles
keep theirs. -/
structure Rearrangement (g : Guild) (top : Role) (place : Role → Nat) : Prop where
  rest : ∀ r ∈ g.roles, r ∉ g.lowerRoles top → place r = r.position
  lower : ((g.lowerRoles top).map place).Perm ((g.lowerRoles top).map Role.position)

/-- Every rearrangement below the actor's highest role has a batch that
`reorder_roles` accepts. -/
def Reorderable (g : Guild) (actor : UserRef) (actorPermissions : Nat) : Prop :=
  ∀ top place, g.highestRole actor = some top → g.Rearrangement top place →
    ∃ payload now g', g.reorderRoles actor actorPermissions payload now = .ok g' ∧
      ∀ r ∈ g.roles, ∃ r' ∈ g'.roles, r'.id = r.id ∧ r'.position = place r

/-- No position below the highest one is empty. -/
def GapFree (g : Guild) : Prop := ∀ r ∈ g.movableRoles, r.position ≤ g.movableRoles.length

instance (g : Guild) : Decidable g.GapFree := inferInstanceAs (Decidable (∀ r ∈ _, _))

end Guild

variable {g g' : Guild} {actor : UserRef} {top : Role}

theorem mem_movableRoles {r : Role} : r ∈ g.movableRoles ↔ r ∈ g.roles ∧ r.id ≠ g.id := by
  simp [Guild.movableRoles]

theorem mem_lowerRoles {r : Role} :
    r ∈ g.lowerRoles top ↔ r ∈ g.movableRoles ∧ r.RankLt top := by
  simp [Guild.lowerRoles]

namespace HierarchyOk

theorem movable_ids (hok : HierarchyOk g) : (g.movableRoles.map Role.id).Nodup :=
  hok.ids.sublist (List.filter_sublist.map Role.id)

theorem movable_positions (hok : HierarchyOk g) : (g.movableRoles.map Role.position).Nodup :=
  hok.positions.sublist (List.filter_sublist.map Role.position)

/-- Without gaps the positions are exactly 1, 2, …, n. -/
theorem positions_eq_Icc (hok : HierarchyOk g) (hgap : g.GapFree) :
    (g.movableRoles.map Role.position).toFinset = Finset.Icc 1 g.movableRoles.length := by
  refine Finset.eq_of_subset_of_card_le ?_ ?_
  · intro p hp
    obtain ⟨r, hr, rfl⟩ := List.mem_map.mp (List.mem_toFinset.mp hp)
    obtain ⟨hmem, hid⟩ := mem_movableRoles.mp hr
    exact Finset.mem_Icc.mpr ⟨hok.position_pos hmem hid, hgap r hr⟩
  · rw [List.toFinset_card_of_nodup hok.movable_positions, List.length_map, Nat.card_Icc]
    omega

end HierarchyOk

/-! ## When the loop goes through -/

theorem repositionRole_unchanged {ceiling : Option Role} {now : Nat} {roles roles' : List Role}
    {b : Bool} {item : RolePosition}
    (h : repositionRole ceiling now (roles, b) item = .ok (roles', false)) :
    roles' = roles ∧ b = false := by
  simp only [repositionRole, found_bind_eq_ok] at h
  obtain ⟨role, -, h⟩ := h
  split at h
  · obtain ⟨rfl, rfl⟩ := Prod.mk.inj (Except.ok.inj h)
    exact ⟨rfl, rfl⟩
  · simp only [check_bind_eq_ok] at h
    obtain ⟨-, -, h⟩ := h
    cases (Prod.mk.inj (Except.ok.inj h)).2

theorem repositionRoles_unchanged {ceiling : Option Role} {now : Nat} {items : List RolePosition}
    {roles roles' : List Role} {b : Bool}
    (h : repositionRoles ceiling now items (roles, b) = .ok (roles', false)) :
    roles' = roles ∧ b = false := by
  induction items generalizing roles b with
  | nil =>
      obtain ⟨rfl, rfl⟩ := Prod.mk.inj (Except.ok.inj h)
      exact ⟨rfl, rfl⟩
  | cons item rest ih =>
      obtain ⟨⟨roles₁, b₁⟩, hstep, hrest⟩ := bind_eq_ok.mp h
      obtain ⟨rfl, rfl⟩ := ih hrest
      exact repositionRole_unchanged hstep

/-- What an item needs to get through: its role is there, and if it moves,
in the version named and within the ceiling. -/
def ItemAllowed (ceiling : Option Role) (roles : List Role) (item : RolePosition) : Prop :=
  ∃ role ∈ roles, role.id = item.id ∧ (role.position ≠ item.position →
    item.version = role.updatedAt ∧ ∀ a ∈ ceiling, roleReorderAllowed a role item.position)

theorem repositionRole_succeeds {ceiling : Option Role} {now : Nat} {roles : List Role} {b : Bool}
    {item : RolePosition} (hids : (roles.map Role.id).Nodup)
    (hitem : ItemAllowed ceiling roles item) :
    ∃ roles' b', repositionRole ceiling now (roles, b) item = .ok (roles', b') := by
  obtain ⟨role, hrole, hid, hallowed⟩ := hitem
  have hfound : lookupBy Role.id item.id roles = some role := by
    rw [← hid]
    exact lookupBy_of_mem hids hrole
  by_cases hpos : role.position = item.position
  · refine ⟨roles, b, ?_⟩
    simp [repositionRole, found_bind_eq_ok, hfound, hpos]
  · obtain ⟨hversion, hceil⟩ := hallowed hpos
    refine ⟨updateBy Role.id item.id
      (fun r => { r with position := item.position, updatedAt := now }) roles, true, ?_⟩
    simp only [repositionRole, found_bind_eq_ok, hfound, Option.some.injEq, exists_eq_left',
      if_neg hpos, check_bind_eq_ok, requireCurrentVersion, ensure_eq_ok]
    exact ⟨hversion, hceil, trivial⟩

theorem repositionRoles_succeeds (now : Nat) {ceiling : Option Role} {items : List RolePosition}
    {roles : List Role} {b : Bool} (hitems : (items.map RolePosition.id).Nodup)
    (hids : (roles.map Role.id).Nodup) (hall : ∀ item ∈ items, ItemAllowed ceiling roles item) :
    ∃ roles' b', repositionRoles ceiling now items (roles, b) = .ok (roles', b') := by
  induction items generalizing roles b with
  | nil => exact ⟨roles, b, rfl⟩
  | cons item rest ih =>
      have hcons := List.nodup_cons.mp hitems
      obtain ⟨roles₁, b₁, hstep⟩ :=
        repositionRole_succeeds (b := b) hids (hall item List.mem_cons_self)
      obtain ⟨rfl, -⟩ := repositionRole_ok hids hstep
      have hids₁ : ((roles.map (placed now [item])).map Role.id).Nodup := by
        rw [List.map_map]
        simpa [Function.comp_def, placed_id] using hids
      -- the roles of the later items are other rows
      have hrest : ∀ other ∈ rest,
          ItemAllowed ceiling (roles.map (placed now [item])) other := by
        intro other hother
        obtain ⟨role, hrole, hid, hallowed⟩ := hall other (List.mem_cons_of_mem item hother)
        refine ⟨role, List.mem_map.mpr ⟨role, hrole, ?_⟩, hid, hallowed⟩
        refine placed_of_not_mem ?_
        intro hmem
        have heq : role.id = item.id := by simpa using hmem
        exact hcons.1 (List.mem_map.mpr ⟨other, hother, hid.symm.trans heq⟩)
      obtain ⟨roles', b', hloop⟩ := ih (b := b₁) hcons.2 hids₁ hrest
      refine ⟨roles', b', bind_eq_ok.mpr ⟨_, hstep, hloop⟩⟩

/-! ## The two directions -/

/-- Every accepted batch leaves each movable role at a position of the
batch. -/
theorem reorderRoles_positions (hok : HierarchyOk g) {mask now : Nat}
    {payload : RolePositionBatch} (h : g.reorderRoles actor mask payload now = .ok g') :
    g'.roles = g.roles.map (placed now payload.roles) := by
  obtain ⟨-, -, ceiling, roles, changed, -, hloop, rfl⟩ := reorderRoles_ok h
  obtain ⟨hroles, -⟩ := repositionRoles_ok payload.uniqueIds hok.ids hloop
  cases changed with
  | true =>
      rw [if_pos rfl, Guild.queueGuildMutation_eq]
      exact hroles
  | false =>
      obtain ⟨hsame, -⟩ := repositionRoles_unchanged hloop
      show g.roles = g.roles.map (placed now payload.roles)
      rw [← hroles, hsame]

/-- An accepted batch has as many items as there are movable roles. -/
theorem payload_length (hok : HierarchyOk g) {payload : RolePositionBatch}
    (hlisted : (payload.roles.map RolePosition.id).toFinset
      = (g.movableRoles.map Role.id).toFinset) :
    payload.roles.length = g.movableRoles.length := by
  have hcard := congrArg Finset.card hlisted
  rw [List.toFinset_card_of_nodup payload.uniqueIds, List.toFinset_card_of_nodup hok.movable_ids,
    List.length_map, List.length_map] at hcard
  exact hcard

/-- Keeping everything where it is needs positions without gaps, and a
number of roles that fits a batch. -/
theorem Guild.Reorderable.gapFree (hok : HierarchyOk g) {mask : Nat} (howner : g.owner ≠ actor)
    (h : g.Reorderable actor mask) :
    g.GapFree ∧ 1 ≤ g.movableRoles.length ∧ g.movableRoles.length ≤ 250 := by
  obtain ⟨top, ⟨-, htop⟩ | ⟨heq, -⟩⟩ := exists_ceilingFor hok actor
  case inr => exact absurd heq howner
  obtain ⟨payload, now, g', hres, hplace⟩ :=
    h top Role.position htop ⟨fun _ _ _ => rfl, List.Perm.refl _⟩
  obtain ⟨hlisted, hpositions, -⟩ := reorderRoles_ok hres
  have hlen := payload_length hok hlisted
  refine ⟨?_, ?_, ?_⟩
  · intro r hr
    obtain ⟨hmem, hid⟩ := mem_movableRoles.mp hr
    obtain ⟨r', hr', hrid, hrpos⟩ := hplace r hmem
    rw [reorderRoles_positions hok hres] at hr'
    obtain ⟨s, hs, rfl⟩ := List.mem_map.mp hr'
    rw [placed_id] at hrid
    obtain rfl := hok.eq_of_id hs hmem hrid
    obtain ⟨item, hitem, -, hpos⟩ := placed_position_of_movable now hlisted hmem hid
    have hIcc : item.position ∈ Finset.Icc 1 g.movableRoles.length := by
      rw [← hpositions, List.mem_toFinset]
      exact List.mem_map_of_mem hitem
    rw [← hrpos, hpos]
    exact (Finset.mem_Icc.mp hIcc).2
  · rw [← hlen]
    exact List.length_pos_iff.mpr payload.nonempty
  · rw [← hlen]
    exact payload.bounded

/-- A rearrangement takes the movable roles to the same set of places. -/
theorem Guild.Rearrangement.perm {place : Role → Nat} (h : g.Rearrangement top place) :
    (g.movableRoles.map place).Perm (g.movableRoles.map Role.position) := by
  have hsplit := List.filter_append_perm (fun r => decide (r.RankLt top)) g.movableRoles
  have hrest : (g.movableRoles.filter fun r => !decide (r.RankLt top)).map place
      = (g.movableRoles.filter fun r => !decide (r.RankLt top)).map Role.position := by
    refine List.map_congr_left ?_
    intro r hr
    obtain ⟨hmem, hnot⟩ := List.mem_filter.mp hr
    refine h.rest r (mem_movableRoles.mp hmem).1 ?_
    intro hlow
    have hlt := (mem_lowerRoles.mp hlow).2
    simp [hlt] at hnot
  have hplace := hsplit.map place
  have hposition := hsplit.map Role.position
  rw [List.map_append] at hplace hposition
  rw [hrest] at hplace
  exact hplace.symm.trans ((h.lower.append_right _).trans hposition)

/-- The batch that asks for a rearrangement. -/
theorem Guild.Rearrangement.exists_payload (hok : HierarchyOk g)
    (hone : 1 ≤ g.movableRoles.length) (hmax : g.movableRoles.length ≤ 250) {place : Role → Nat}
    (h : g.Rearrangement top place) : ∃ payload : RolePositionBatch,
      payload.roles = g.movableRoles.map fun r => ⟨r.id, place r, r.updatedAt⟩ := by
  have hids : ((g.movableRoles.map fun r => RolePosition.mk r.id (place r) r.updatedAt).map
      RolePosition.id) = g.movableRoles.map Role.id := by
    rw [List.map_map]
    rfl
  have hplaces : ((g.movableRoles.map fun r => RolePosition.mk r.id (place r) r.updatedAt).map
      RolePosition.position) = g.movableRoles.map place := by
    rw [List.map_map]
    rfl
  refine ⟨⟨_, ?_, ?_, ?_, ?_, ?_⟩, rfl⟩
  · intro hnil
    rw [List.map_eq_nil_iff] at hnil
    rw [hnil] at hone
    simp at hone
  · rw [List.length_map]
    exact hmax
  · intro item hitem
    obtain ⟨r, hr, rfl⟩ := List.mem_map.mp hitem
    have hmem : place r ∈ g.movableRoles.map Role.position :=
      h.perm.mem_iff.mp (List.mem_map_of_mem hr)
    obtain ⟨s, hs, hpos⟩ := List.mem_map.mp hmem
    obtain ⟨hs', hsid⟩ := mem_movableRoles.mp hs
    have := hok.position_pos hs' hsid
    show 1 ≤ place r
    omega
  · rw [hids]
    exact hok.movable_ids
  · rw [hplaces]
    exact h.perm.nodup_iff.mpr hok.movable_positions

/-- A rearrangement moves a lower role to the place of a lower role, which
is below the highest role's. -/
theorem Guild.Rearrangement.allowed (hok : HierarchyOk g)
    (htop : g.highestRole actor = some top) {place : Role → Nat} (h : g.Rearrangement top place)
    {r : Role} (hr : r ∈ g.movableRoles) (hmoves : r.position ≠ place r) :
    roleReorderAllowed top r (place r) := by
  have hlow : r ∈ g.lowerRoles top := by
    by_contra hnot
    exact hmoves (h.rest r (mem_movableRoles.mp hr).1 hnot).symm
  have hmem : place r ∈ (g.lowerRoles top).map Role.position :=
    h.lower.mem_iff.mp (List.mem_map_of_mem hlow)
  obtain ⟨s, hs, hpos⟩ := List.mem_map.mp hmem
  obtain ⟨hs', hslt⟩ := mem_lowerRoles.mp hs
  have htopmem := (mem_rolesOf.mp (maxRole_spec htop).1).1
  have hne : s.position ≠ top.position := by
    intro heq
    rw [hok.eq_of_position (mem_movableRoles.mp hs').1 htopmem heq] at hslt
    exact Role.RankLt.irrefl top hslt
  have hlt : s.position < top.position := by
    unfold Role.RankLt at hslt
    omega
  simp only [roleReorderAllowed, decide_eq_true_eq]
  exact ⟨(mem_lowerRoles.mp hlow).2, by omega⟩

theorem reorderable_of_gapFree (hok : HierarchyOk g) (howner : g.owner ≠ actor) {mask : Nat}
    (hmask : mask &&& Permission.manageRoles = Permission.manageRoles) (hgap : g.GapFree)
    (hone : 1 ≤ g.movableRoles.length) (hmax : g.movableRoles.length ≤ 250) :
    g.Reorderable actor mask := by
  intro top place htop hplace
  obtain ⟨payload, hpayload⟩ := hplace.exists_payload hok hone hmax
  have hids : payload.roles.map RolePosition.id = g.movableRoles.map Role.id := by
    rw [hpayload, List.map_map]
    rfl
  have hplaces : payload.roles.map RolePosition.position = g.movableRoles.map place := by
    rw [hpayload, List.map_map]
    rfl
  have hall : ∀ item ∈ payload.roles, ItemAllowed (some top) g.roles item := by
    intro item hitem
    rw [hpayload] at hitem
    obtain ⟨r, hr, rfl⟩ := List.mem_map.mp hitem
    refine ⟨r, (mem_movableRoles.mp hr).1, rfl, ?_⟩
    intro hmoves
    refine ⟨rfl, ?_⟩
    rintro a ⟨⟩
    exact hplace.allowed hok htop hr hmoves
  obtain ⟨roles, changed, hloop⟩ :=
    repositionRoles_succeeds 0 (b := false) payload.uniqueIds hok.ids hall
  have hres : ∃ g', g.reorderRoles actor mask payload 0 = .ok g' := by
    refine ⟨if changed then (({ g with roles := roles }.bumpPermissionGeneration).queueGuildMutation
      .roleUpdate true) else g, ?_⟩
    simp only [Guild.reorderRoles, check_bind_eq_ok, ensure_eq_ok, Guild.requirePermissions]
    refine ⟨hmask, ?_, ?_, ?_⟩
    · rw [hids]
    · rw [hplaces, ← hok.positions_eq_Icc hgap]
      exact List.toFinset_eq_of_perm _ _ hplace.perm
    · refine bind_eq_ok.mpr ⟨some top, ?_, bind_eq_ok.mpr ⟨(roles, changed), hloop, ?_⟩⟩
      · simp [Guild.reorderCeiling, howner, htop, found]
      · cases changed <;> rfl
  obtain ⟨g', hres⟩ := hres
  refine ⟨payload, 0, g', hres, ?_⟩
  intro r hr
  refine ⟨placed 0 payload.roles r, ?_, placed_id 0 payload.roles r, ?_⟩
  · rw [reorderRoles_positions hok hres]
    exact List.mem_map_of_mem hr
  · by_cases hid : r.id = g.id
    · have hnot : r ∉ g.lowerRoles top := by
        intro hlow
        exact (mem_movableRoles.mp (mem_lowerRoles.mp hlow).1).2 hid
      rw [placed_everyone (by rw [hids]) hid]
      exact (hplace.rest r hr hnot).symm
    · have hitem : RolePosition.mk r.id (place r) r.updatedAt ∈ payload.roles := by
        rw [hpayload]
        exact List.mem_map.mpr ⟨r, mem_movableRoles.mpr ⟨hr, hid⟩, rfl⟩
      exact placed_position payload.uniqueIds hitem rfl

/-! ## Runs -/

theorem NewGuild.hierarchyOk (h : NewGuild g) : HierarchyOk g := by
  obtain ⟨r, hroles, hid, hpos⟩ := h.everyone
  refine ⟨?_, ?_, ⟨r, ?_, hid, hpos⟩, ?_⟩
  · simp [hroles]
  · simp [hroles]
  · simp [hroles]
  · simp [h.holders]

theorem NewGuild.no_movable (h : NewGuild g) : g.movableRoles = [] := by
  obtain ⟨r, hroles, hid, -⟩ := h.everyone
  simp [Guild.movableRoles, hroles, hid]

/-- The requests that leave no gap: a deletion takes the role at the
highest position, and a creation leaves few enough roles for a batch. -/
def RoleRequest.LeavesNoGap (g : Guild) : RoleRequest → Prop
  | .create _ _ => g.movableRoles.length < 250
  | .delete roleId => ∀ role ∈ g.role? roleId, ∀ r ∈ g.movableRoles, r.position ≤ role.position
  | .update _ _ _ | .reorder _ | .assign _ _ | .replace _ _ | .remove _ _ => True

instance (g : Guild) : (request : RoleRequest) → Decidable (request.LeavesNoGap g)
  | .create _ _ => inferInstanceAs (Decidable (_ < _))
  | .delete _ => inferInstanceAs (Decidable (∀ role ∈ _, ∀ r ∈ _, _))
  | .update _ _ _ | .reorder _ | .assign _ _ | .replace _ _ | .remove _ _ =>
      inferInstanceAs (Decidable True)

def LeavesNoGap (g : Guild) (i : UserRef × RoleCall) : Prop := i.2.request.LeavesNoGap g

instance (g : Guild) (i : UserRef × RoleCall) : Decidable (LeavesNoGap g i) :=
  inferInstanceAs (Decidable (RoleRequest.LeavesNoGap _ _))

/-- The part of the roles that `reorder_roles` looks at. -/
def Guild.places (g : Guild) : List (Nat × Nat) := g.roles.map fun r => (r.id, r.position)

theorem GapFree_of_places (hsame : SameGuild g g') (h : g'.places = g.places) (hgap : g.GapFree)
    (hmax : g.movableRoles.length ≤ 250) : g'.GapFree ∧ g'.movableRoles.length ≤ 250 := by
  have hmap : ∀ k : Guild, k.movableRoles.map (fun r => (r.id, r.position))
      = k.places.filter fun p => p.1 ≠ k.id := by
    intro k
    rw [Guild.movableRoles, Guild.places, List.filter_map]
    rfl
  have hmovable : g'.movableRoles.map (fun r => (r.id, r.position))
      = g.movableRoles.map fun r => (r.id, r.position) := by
    rw [hmap, hmap, h, hsame.1]
  have hlen : g'.movableRoles.length = g.movableRoles.length := by
    simpa using congrArg List.length hmovable
  refine ⟨?_, by omega⟩
  intro r hr
  have hmem : (r.id, r.position) ∈ g.movableRoles.map fun r => (r.id, r.position) := by
    rw [← hmovable]
    exact List.mem_map.mpr ⟨r, hr, rfl⟩
  obtain ⟨s, hs, heq⟩ := List.mem_map.mp hmem
  rw [hlen, ← (Prod.mk.inj heq).2]
  exact hgap s hs

theorem updateRole_places {mask roleId now : Nat} {payload : RoleUpdate} {version : Option Nat}
    (h : g.updateRole actor mask roleId payload version now = .ok g') : g'.places = g.places := by
  simp only [Guild.updateRole, check_bind_eq_ok, found_bind_eq_ok,
    Guild.queueGuildMutation_eq] at h
  obtain ⟨-, role, -, -, -, -, -, h⟩ := h
  split at h
  · obtain rfl := Except.ok.inj h
    rfl
  · obtain rfl := Except.ok.inj h
    rw [Guild.places, Guild.places]
    simp only [Guild.bumpPermissionGeneration, updateBy, List.map_map]
    refine List.map_congr_left ?_
    intro r _
    simp only [Function.comp]
    split <;> rfl

theorem assignRole_places {target : UserRef} {mask roleId : Nat}
    (h : g.assignRole actor target mask roleId = .ok g') : g'.places = g.places := by
  simp only [Guild.assignRole, check_bind_eq_ok, found_bind_eq_ok,
    Guild.queueGuildMutation_eq] at h
  obtain ⟨-, -, role, -, -, -, -, h⟩ := h
  split at h <;> (obtain rfl := Except.ok.inj h; rfl)

theorem removeRole_places {target : UserRef} {mask roleId : Nat}
    (h : g.removeRole actor target mask roleId = .ok g') : g'.places = g.places := by
  simp only [Guild.removeRole, check_bind_eq_ok, found_bind_eq_ok,
    Guild.queueGuildMutation_eq] at h
  obtain ⟨-, -, role, -, -, -, h⟩ := h
  split at h <;> (obtain rfl := Except.ok.inj h; rfl)

theorem replaceMemberRoles_places {target : UserRef} {mask : Nat} {roleIds : List Nat}
    (h : g.replaceMemberRoles actor target mask roleIds = .ok g') : g'.places = g.places := by
  simp only [Guild.replaceMemberRoles, check_bind_eq_ok] at h
  obtain ⟨-, -, -, h⟩ := h
  split at h
  · obtain rfl := Except.ok.inj h
    rfl
  · simp only [check_bind_eq_ok] at h
    obtain ⟨-, -, h⟩ := h
    obtain rfl := Except.ok.inj h
    obtain ⟨channels, heq⟩ := foldl_queueGuildMutation _ _
    rw [heq]
    rfl

theorem createRole_gapFree (hok : HierarchyOk g) {mask roleId now : Nat} {payload : RoleCreate}
    (h : g.createRole mask payload roleId now = .ok g') (hgap : g.GapFree)
    (hmax : g.movableRoles.length < 250) : g'.GapFree ∧ g'.movableRoles.length ≤ 250 := by
  obtain ⟨role, fresh, first, hroles, -, hsame⟩ := createRole_ok h
  have hne : role.id ≠ g.id := by
    obtain ⟨e, he, hid, -⟩ := hok.everyone
    intro heq
    exact fresh e he (hid.trans heq.symm)
  have hmovable : g'.movableRoles = g.movableRoles.map (g.shiftRole now) ++ [role] := by
    have hshift : ((fun r : Role => decide (r.id ≠ g.id)) ∘ g.shiftRole now)
        = fun r => decide (r.id ≠ g.id) := by
      funext r
      simp [shiftRole_id]
    rw [Guild.movableRoles, Guild.movableRoles, hroles, hsame.1, List.filter_append,
      List.filter_map, hshift]
    simp [hne]
  have hlen : g'.movableRoles.length = g.movableRoles.length + 1 := by simp [hmovable]
  refine ⟨?_, by omega⟩
  intro r hr
  rw [hlen]
  rw [hmovable] at hr
  rcases List.mem_append.mp hr with hr | hr
  · obtain ⟨s, hs, rfl⟩ := List.mem_map.mp hr
    have hle := hgap s hs
    rw [Guild.shiftRole, if_neg (mem_movableRoles.mp hs).2]
    show s.position + 1 ≤ g.movableRoles.length + 1
    omega
  · obtain rfl := List.mem_singleton.mp hr
    omega

theorem deleteRole_gapFree (hok : HierarchyOk g) {mask roleId : Nat}
    (h : g.deleteRole actor mask roleId = .ok g') (hgap : g.GapFree)
    (hmax : g.movableRoles.length ≤ 250)
    (hlast : ∀ role ∈ g.role? roleId, ∀ r ∈ g.movableRoles, r.position ≤ role.position) :
    g'.GapFree ∧ g'.movableRoles.length ≤ 250 := by
  obtain ⟨role, hrole, hmovable, -, hroles, -, hsame⟩ := deleteRole_ok h
  have hmem := mem_of_lookupBy hrole
  have hin : role ∈ g.movableRoles := mem_movableRoles.mpr ⟨hmem, hmovable⟩
  have hrest : g'.movableRoles = g.movableRoles.erase role := by
    rw [(List.Nodup.of_map Role.id hok.movable_ids).erase_eq_filter, Guild.movableRoles,
      Guild.movableRoles, hroles, hsame.1, List.filter_comm]
    refine List.filter_congr ?_
    intro r hr
    have hiff : r.id = role.id ↔ r = role :=
      ⟨hok.eq_of_id (List.mem_filter.mp hr).1 hmem, congrArg Role.id⟩
    rw [Bool.eq_iff_iff]
    simp [hiff]
  have hlen : g'.movableRoles.length = g.movableRoles.length - 1 := by
    rw [hrest, List.length_erase_of_mem hin]
  refine ⟨?_, by omega⟩
  intro r hr
  rw [hrest] at hr
  have hr' := List.mem_of_mem_erase hr
  -- the deleted role was at the highest position, and no other is there
  have hneq : r.position ≠ role.position := by
    intro heq
    have hsame := hok.eq_of_position (mem_movableRoles.mp hr').1 hmem heq
    exact (List.Nodup.not_mem_erase (List.Nodup.of_map Role.id hok.movable_ids)) (hsame ▸ hr)
  have hle := hlast role hrole r hr'
  have hbound := hgap role hin
  omega

theorem reorderRoles_gapFree (hok : HierarchyOk g) {mask now : Nat} {payload : RolePositionBatch}
    (h : g.reorderRoles actor mask payload now = .ok g') (hsame : SameGuild g g') :
    g'.GapFree ∧ g'.movableRoles.length = g.movableRoles.length := by
  obtain ⟨hlisted, hpositions, -⟩ := reorderRoles_ok h
  have hmovable : g'.movableRoles = g.movableRoles.map (placed now payload.roles) := by
    have hplaced : ((fun r : Role => decide (r.id ≠ g.id)) ∘ placed now payload.roles)
        = fun r => decide (r.id ≠ g.id) := by
      funext r
      simp [placed_id]
    rw [Guild.movableRoles, Guild.movableRoles, reorderRoles_positions hok h, hsame.1,
      List.filter_map, hplaced]
  have hlen : g'.movableRoles.length = g.movableRoles.length := by simp [hmovable]
  refine ⟨?_, hlen⟩
  intro r hr
  rw [hmovable] at hr
  obtain ⟨s, hs, rfl⟩ := List.mem_map.mp hr
  obtain ⟨hs', hsid⟩ := mem_movableRoles.mp hs
  obtain ⟨item, hitem, -, hpos⟩ := placed_position_of_movable now hlisted hs' hsid
  have hIcc : item.position ∈ Finset.Icc 1 g.movableRoles.length := by
    rw [← hpositions, List.mem_toFinset]
    exact List.mem_map_of_mem hitem
  rw [hpos, hlen]
  exact (Finset.mem_Icc.mp hIcc).2

/-- One request that leaves no gap. -/
theorem handleRole_gapFree (hok : HierarchyOk g) {call : RoleCall}
    (h : g.handleRole actor call = .ok g') (hgap : g.GapFree)
    (hmax : g.movableRoles.length ≤ 250) (hstep : call.request.LeavesNoGap g) :
    g'.GapFree ∧ g'.movableRoles.length ≤ 250 := by
  obtain ⟨-, hsame⟩ := handleRole_hierarchyOk hok h
  unfold Guild.handleRole at h
  cases hreq : call.request with
  | create payload roleId =>
      rw [hreq] at h hstep
      exact createRole_gapFree hok h hgap hstep
  | update roleId payload version =>
      rw [hreq] at h
      exact GapFree_of_places hsame (updateRole_places h) hgap hmax
  | delete roleId =>
      rw [hreq] at h hstep
      exact deleteRole_gapFree hok h hgap hmax hstep
  | reorder payload =>
      rw [hreq] at h
      obtain ⟨hgap', hlen⟩ := reorderRoles_gapFree hok h hsame
      exact ⟨hgap', by omega⟩
  | assign target roleId =>
      rw [hreq] at h
      exact GapFree_of_places hsame (assignRole_places h) hgap hmax
  | replace target roleIds =>
      rw [hreq] at h
      exact GapFree_of_places hsame (replaceMemberRoles_places h) hgap hmax
  | remove target roleId =>
      rw [hreq] at h
      exact GapFree_of_places hsame (removeRole_places h) hgap hmax

theorem run_hierarchyOk {g₀ : Guild} {steps : List (UserRef × RoleCall)} (hnew : NewGuild g₀)
    (hrun : Exec orderStep Always g₀ steps g) : HierarchyOk g := by
  refine hrun.invariant ?_ hnew.hierarchyOk
  intro g i g' hg _ h
  exact (handleRole_hierarchyOk hg (toOption_eq_some.mp h)).1

/-- Positions stay distinct with @everyone at 0 in every run. The
rearrangements below a member's highest role are all accepted exactly when
the positions have no gap and the roles fill a batch, which they do
throughout a run that leaves no gap, as soon as there is a role. -/
theorem reorderable_iff {g₀ : Guild} {steps : List (UserRef × RoleCall)} (hnew : NewGuild g₀)
    (hrun : Exec orderStep Always g₀ steps g) :
    ((g.roles.map Role.position).Nodup ∧ ∃ r ∈ g.roles, r.id = g.id ∧ r.position = 0) ∧
    (∀ actor mask, g.owner ≠ actor → mask &&& Permission.manageRoles = Permission.manageRoles →
      (g.Reorderable actor mask ↔
        g.GapFree ∧ 1 ≤ g.movableRoles.length ∧ g.movableRoles.length ≤ 250)) ∧
    (Exec orderStep LeavesNoGap g₀ steps g → g.movableRoles ≠ [] → ∀ actor mask, g.owner ≠ actor →
      mask &&& Permission.manageRoles = Permission.manageRoles → g.Reorderable actor mask) := by
  have hok := run_hierarchyOk hnew hrun
  refine ⟨⟨hok.positions, hok.everyone⟩, ?_, ?_⟩
  · intro actor mask howner hmask
    constructor
    · intro h
      exact h.gapFree hok howner
    · rintro ⟨hgap, hone, hmax⟩
      exact reorderable_of_gapFree hok howner hmask hgap hone hmax
  · intro hguarded hsome actor mask howner hmask
    have hstart : HierarchyOk g₀ ∧ g₀.GapFree ∧ g₀.movableRoles.length ≤ 250 := by
      refine ⟨hnew.hierarchyOk, ?_, ?_⟩
      · intro r hr
        rw [hnew.no_movable] at hr
        cases hr
      · simp [hnew.no_movable]
    have hend : HierarchyOk g ∧ g.GapFree ∧ g.movableRoles.length ≤ 250 := by
      refine hguarded.invariant
        (I := fun g => HierarchyOk g ∧ g.GapFree ∧ g.movableRoles.length ≤ 250) ?_ hstart
      intro g i g' hg hstep h
      have hres := toOption_eq_some.mp h
      exact ⟨(handleRole_hierarchyOk hg.1 hres).1,
        handleRole_gapFree hg.1 hres hg.2.1 hg.2.2 hstep⟩
    exact reorderable_of_gapFree hok howner hmask hend.2.1 (List.length_pos_iff.mpr hsome) hend.2.2

/-- A new guild that one other person has joined. -/
def sampleNewGuild : Guild := { sampleGuild with roles := [sampleRole 5 0 0], memberRoles := [] }

theorem sampleNewGuild_new : NewGuild sampleNewGuild :=
  ⟨⟨sampleRole 5 0 0, rfl, rfl, rfl⟩, rfl⟩

/-- The owner creates three roles, one of which may manage roles, and gives
that one to the other member. -/
def sampleOrderSteps : List (UserRef × RoleCall) :=
  [(sampleOwner, ⟨allPermissions, 1,
      .create { name := "mod", permissions := Permission.manageRoles } 10⟩),
    (sampleOwner, ⟨allPermissions, 2, .create { name := "b" } 20⟩),
    (sampleOwner, ⟨allPermissions, 3, .create { name := "c" } 30⟩),
    (sampleOwner, ⟨allPermissions, 4, .assign sampleModerator 10⟩)]

theorem reorderable_iff_sample : ∃ g, Exec orderStep LeavesNoGap sampleNewGuild sampleOrderSteps g ∧
    g.places = [(5, 0), (10, 3), (20, 2), (30, 1)] ∧
    g.Reorderable sampleModerator Permission.manageRoles := by
  have hsome : (runFrom orderStep LeavesNoGap sampleNewGuild sampleOrderSteps).map
      (fun g => (g.places, decide (g.owner ≠ sampleModerator), decide (g.movableRoles ≠ [])))
      = some ([(5, 0), (10, 3), (20, 2), (30, 1)], true, true) := by
    decide +kernel
  obtain ⟨g, hrun, hg⟩ := Option.map_eq_some_iff.mp hsome
  simp only [Prod.mk.injEq, decide_eq_true_eq] at hg
  obtain ⟨hplaces, howner, hne⟩ := hg
  have hexec := Exec.of_runFrom hrun
  have hall : Exec orderStep Always sampleNewGuild sampleOrderSteps g :=
    hexec.mono fun _ _ _ => trivial
  exact ⟨g, hexec, hplaces, (reorderable_iff sampleNewGuild_new hall).2.2 hexec hne sampleModerator
    Permission.manageRoles howner (by decide)⟩

/-- After the role at position 1 is deleted, the member may still manage
roles and no batch is accepted from them, not even one that moves nothing. -/
theorem deletion_blocks_reordering : ∃ g, Exec orderStep Always sampleNewGuild
    (sampleOrderSteps ++ [(sampleOwner, ⟨allPermissions, 5, .delete 30⟩)]) g ∧
    g.owner ≠ sampleModerator ∧
    g.calculatePermissions ⟨sampleModerator, .human, false⟩ none 6 = .ok Permission.manageRoles ∧
    ¬ g.Reorderable sampleModerator Permission.manageRoles := by
  have hsome : (runFrom orderStep Always sampleNewGuild
      (sampleOrderSteps ++ [(sampleOwner, ⟨allPermissions, 5, .delete 30⟩)])).map
      (fun g => (decide (g.owner ≠ sampleModerator),
        (g.calculatePermissions ⟨sampleModerator, .human, false⟩ none 6).toOption,
        decide g.GapFree)) = some (true, some Permission.manageRoles, false) := by
    decide +kernel
  obtain ⟨g, hrun, hg⟩ := Option.map_eq_some_iff.mp hsome
  simp only [Prod.mk.injEq, decide_eq_true_eq, decide_eq_false_iff_not] at hg
  obtain ⟨howner, hmask, hgap⟩ := hg
  have hexec := Exec.of_runFrom hrun
  refine ⟨g, hexec, howner, toOption_eq_some.mp hmask, ?_⟩
  intro h
  exact hgap (h.gapFree (run_hierarchyOk sampleNewGuild_new hexec) howner).1

end Kaede
