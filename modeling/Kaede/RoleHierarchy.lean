import Mathlib.Algebra.Order.BigOperators.Group.List
import Mathlib.Algebra.Order.Group.Nat
import Kaede.GuildRoles
import Kaede.Runs

/-!
# The role hierarchy

A guild's roles are ranked by `(position, -id)`. `HierarchyOk` is what the
schema and the creation of the guild establish and every role endpoint
keeps: ids and positions are pairwise distinct, @everyone is at 0, and
assignments name existing roles.

The rest is the ceiling of one actor. A successful request of a member who
is not the owner is one of four `RoleChange`s below that member's highest
role, whatever mask the request was served, and none of the four touches a
role at or above it. `role_ceiling` is that fact over whole runs.
-/

namespace Kaede

namespace Role

variable {a b c : Role}

theorem RankLt.irrefl (a : Role) : ¬ a.RankLt a := by
  unfold RankLt
  omega

theorem RankLt.asymm (h : a.RankLt b) : ¬ b.RankLt a := by
  unfold RankLt at *
  omega

theorem RankLt.trans_not (hab : ¬ b.RankLt a) (hbc : ¬ c.RankLt b) : ¬ c.RankLt a := by
  unfold RankLt at *
  omega

/-- Two roles of equal rank are at the same position and have the same id. -/
theorem RankLt.antisymm (hab : ¬ a.RankLt b) (hba : ¬ b.RankLt a) :
    a.position = b.position ∧ a.id = b.id := by
  unfold RankLt at *
  omega

end Role

/-! ## The highest role -/

theorem foldl_max_spec (rest : List Role) (r : Role) :
    let m := rest.foldl (fun best x => if best.RankLt x then x else best) r
    (m = r ∨ m ∈ rest) ∧ ¬ m.RankLt r ∧ ∀ x ∈ rest, ¬ m.RankLt x := by
  induction rest generalizing r with
  | nil => exact ⟨.inl rfl, Role.RankLt.irrefl r, fun x hx => nomatch hx⟩
  | cons x rest ih =>
      intro m
      by_cases hx : r.RankLt x
      · have hm : m = rest.foldl (fun best x => if best.RankLt x then x else best) x := by
          simp [m, hx]
        obtain ⟨hmem, hself, hall⟩ := ih x
        rw [← hm] at hmem hself hall
        refine ⟨.inr ?_, Role.RankLt.trans_not hx.asymm hself, ?_⟩
        · rcases hmem with h | h
          · exact List.mem_cons.mpr (.inl h)
          · exact List.mem_cons_of_mem x h
        · intro y hy
          rcases List.mem_cons.mp hy with rfl | hy
          · exact hself
          · exact hall y hy
      · have hm : m = rest.foldl (fun best x => if best.RankLt x then x else best) r := by
          simp [m, hx]
        obtain ⟨hmem, hself, hall⟩ := ih r
        rw [← hm] at hmem hself hall
        refine ⟨hmem.imp_right (List.mem_cons_of_mem x), hself, ?_⟩
        intro y hy
        rcases List.mem_cons.mp hy with rfl | hy
        · exact Role.RankLt.trans_not hx hself
        · exact hall y hy

theorem maxRole_spec {roles : List Role} {m : Role} (h : maxRole roles = some m) :
    m ∈ roles ∧ ∀ r ∈ roles, ¬ m.RankLt r := by
  cases roles with
  | nil => cases h
  | cons r rest =>
      obtain rfl := Option.some.inj h
      obtain ⟨hmem, hself, hall⟩ := foldl_max_spec rest r
      refine ⟨?_, ?_⟩
      · rcases hmem with h | h
        · exact List.mem_cons.mpr (.inl h)
        · exact List.mem_cons_of_mem r h
      · intro x hx
        rcases List.mem_cons.mp hx with rfl | hx
        · exact hself
        · exact hall x hx

theorem exists_maxRole {roles : List Role} {t : Role} (ht : t ∈ roles) :
    ∃ m, maxRole roles = some m := by
  cases roles with
  | nil => cases ht
  | cons r rest => exact ⟨_, rfl⟩

/-- A role that no other outranks is the highest. -/
theorem maxRole_of_bound {roles : List Role} {t : Role} (ht : t ∈ roles)
    (hbound : ∀ r ∈ roles, ¬ t.RankLt r) : ∃ m, maxRole roles = some m ∧ m.id = t.id := by
  obtain ⟨m, hm⟩ := exists_maxRole ht
  obtain ⟨hmem, hmax⟩ := maxRole_spec hm
  exact ⟨m, hm, (Role.RankLt.antisymm (hmax t ht) (hbound m hmem)).2⟩

/-! ## What every role endpoint keeps -/

structure HierarchyOk (g : Guild) : Prop where
  ids : (g.roles.map Role.id).Nodup
  positions : (g.roles.map Role.position).Nodup
  everyone : ∃ r ∈ g.roles, r.id = g.id ∧ r.position = 0
  /-- The foreign key of `member_roles`. -/
  assigned : ∀ h ∈ g.memberRoles, ∃ r ∈ g.roles, r.id = h.2

namespace HierarchyOk

variable {g g' : Guild} {r s : Role}

theorem eq_of_id (hok : HierarchyOk g) (hr : r ∈ g.roles) (hs : s ∈ g.roles) (h : r.id = s.id) :
    r = s :=
  List.inj_on_of_nodup_map hok.ids hr hs h

theorem eq_of_position (hok : HierarchyOk g) (hr : r ∈ g.roles) (hs : s ∈ g.roles)
    (h : r.position = s.position) : r = s :=
  List.inj_on_of_nodup_map hok.positions hr hs h

theorem position_everyone (hok : HierarchyOk g) (hr : r ∈ g.roles) (hid : r.id = g.id) :
    r.position = 0 := by
  obtain ⟨e, he, heid, hpos⟩ := hok.everyone
  rw [hok.eq_of_id hr he (hid.trans heid.symm), hpos]

theorem position_pos (hok : HierarchyOk g) (hr : r ∈ g.roles) (hid : r.id ≠ g.id) :
    0 < r.position := by
  obtain ⟨e, he, heid, hpos⟩ := hok.everyone
  by_contra h
  have hre := hok.eq_of_position hr he (by omega)
  exact hid (hre ▸ heid)

end HierarchyOk

/-! ## The reorder loop -/

/-- The row a batch leaves a role with. -/
def placed (now : Nat) (items : List RolePosition) (role : Role) : Role :=
  match items.find? fun item => item.id = role.id with
  | none => role
  | some item =>
      if role.position = item.position then role
      else { role with position := item.position, updatedAt := now }

theorem placed_id (now : Nat) (items : List RolePosition) (role : Role) :
    (placed now items role).id = role.id := by
  unfold placed
  split
  · rfl
  · split <;> rfl

theorem placed_of_not_mem {now : Nat} {items : List RolePosition} {role : Role}
    (h : role.id ∉ items.map RolePosition.id) : placed now items role = role := by
  have hnone : items.find? (fun item => item.id = role.id) = none := by
    rw [List.find?_eq_none]
    intro item hitem hid
    exact h (List.mem_map.mpr ⟨item, hitem, by simpa using hid⟩)
  rw [placed, hnone]

theorem placed_position {now : Nat} {items : List RolePosition} {role : Role}
    {item : RolePosition} (hids : (items.map RolePosition.id).Nodup) (hitem : item ∈ items)
    (hid : item.id = role.id) : (placed now items role).position = item.position := by
  have hfind : items.find? (fun item => item.id = role.id) = some item := by
    rw [← hid]
    exact lookupBy_of_mem hids hitem
  rw [placed, hfind]
  by_cases hpos : role.position = item.position
  · simp [hpos]
  · simp [hpos]

/-- Listing an item first and then the rest, whose ids differ, is listing
them together. -/
theorem placed_cons {now : Nat} {item : RolePosition} {rest : List RolePosition} {role : Role}
    (hids : ((item :: rest).map RolePosition.id).Nodup) :
    placed now (item :: rest) role = placed now rest (placed now [item] role) := by
  rw [List.map_cons, List.nodup_cons] at hids
  by_cases hid : item.id = role.id
  · have hrest : (placed now [item] role).id ∉ rest.map RolePosition.id := by
      rw [placed_id, ← hid]
      exact hids.1
    rw [placed_of_not_mem hrest]
    simp [placed, hid]
  · have hone : placed now [item] role = role := by simp [placed, hid]
    rw [hone]
    simp [placed, hid]

/-- One successful round rewrites the row of its item, and only a role the
ceiling lets the actor move. -/
theorem repositionRole_ok {ceiling : Option Role} {now : Nat} {roles roles' : List Role}
    {b b' : Bool} {item : RolePosition} (hids : (roles.map Role.id).Nodup)
    (h : repositionRole ceiling now (roles, b) item = .ok (roles', b')) :
    roles' = roles.map (placed now [item]) ∧
      ∀ r ∈ roles, placed now [item] r = r
        ∨ ∀ a ∈ ceiling, roleReorderAllowed a r (placed now [item] r).position := by
  simp only [repositionRole, found_bind_eq_ok] at h
  obtain ⟨role, hrole, h⟩ := h
  have hmem := mem_of_lookupBy hrole
  have hid := key_of_lookupBy hrole
  have hplaced : ∀ r ∈ roles, r.id = item.id → r = role := by
    intro r hr hrid
    exact List.inj_on_of_nodup_map hids hr hmem (hrid.trans hid.symm)
  by_cases hpos : role.position = item.position
  · rw [if_pos hpos] at h
    obtain ⟨rfl, -⟩ := Prod.mk.inj (Except.ok.inj h)
    have hfix : ∀ r ∈ roles, placed now [item] r = r := by
      intro r hr
      by_cases hrid : item.id = r.id
      · have hrr := hplaced r hr hrid.symm
        simp [placed, hrr, hid, hpos]
      · simp [placed, hrid]
    refine ⟨?_, fun r hr => .inl (hfix r hr)⟩
    rw [List.map_congr_left hfix, List.map_id']
  · rw [if_neg hpos] at h
    simp only [check_bind_eq_ok, ensure_eq_ok] at h
    obtain ⟨-, hallowed, h⟩ := h
    obtain ⟨rfl, -⟩ := Prod.mk.inj (Except.ok.inj h)
    refine ⟨?_, ?_⟩
    · refine List.map_congr_left ?_
      intro r hr
      by_cases hrid : r.id = item.id
      · have hrr := hplaced r hr hrid
        simp [placed, hrr, hid, hpos]
      · simp [placed, hrid, Ne.symm hrid]
    · intro r hr
      by_cases hrid : r.id = item.id
      · have hrr := hplaced r hr hrid
        right
        simpa [placed, hrr, hid, hpos] using hallowed
      · left
        simp [placed, Ne.symm hrid]

theorem repositionRoles_ok {ceiling : Option Role} {now : Nat} {items : List RolePosition}
    {roles roles' : List Role} {b b' : Bool} (hitems : (items.map RolePosition.id).Nodup)
    (hids : (roles.map Role.id).Nodup)
    (h : repositionRoles ceiling now items (roles, b) = .ok (roles', b')) :
    roles' = roles.map (placed now items) ∧
      ∀ r ∈ roles, placed now items r = r
        ∨ ∀ a ∈ ceiling, roleReorderAllowed a r (placed now items r).position := by
  induction items generalizing roles b with
  | nil =>
      obtain ⟨rfl, -⟩ := Prod.mk.inj (Except.ok.inj h)
      have hfix : ∀ r ∈ roles, placed now [] r = r := fun r _ => rfl
      refine ⟨?_, fun r hr => .inl (hfix r hr)⟩
      rw [List.map_congr_left hfix, List.map_id']
  | cons item rest ih =>
      simp only [repositionRoles, bind_eq_ok] at h
      obtain ⟨⟨roles₁, b₁⟩, hstep, hrest⟩ := h
      obtain ⟨rfl, hone⟩ := repositionRole_ok hids hstep
      have hids₁ : ((roles.map (placed now [item])).map Role.id).Nodup := by
        rw [List.map_map]
        simpa [Function.comp_def, placed_id] using hids
      have hcons := List.nodup_cons.mp hitems
      obtain ⟨rfl, hall⟩ := ih hcons.2 hids₁ hrest
      refine ⟨?_, ?_⟩
      · rw [List.map_map]
        exact List.map_congr_left fun r _ => (placed_cons hitems).symm
      · intro r hr
        rw [placed_cons hitems]
        by_cases hid : item.id = r.id
        · have hrest : (placed now [item] r).id ∉ rest.map RolePosition.id := by
            rw [placed_id, ← hid]
            exact hcons.1
          rw [placed_of_not_mem hrest]
          exact hone r hr
        · have hsame : placed now [item] r = r := by simp [placed, hid]
          rw [hsame]
          have hr' : r ∈ roles.map (placed now [item]) :=
            List.mem_map.mpr ⟨r, hr, hsame⟩
          exact hall r hr'

/-! ## One request below the ceiling -/

/-- What a request of an actor with highest role `top` can do to the roles
and their holders. -/
inductive RoleChange (top : Role) (g g' : Guild) : Prop
  | created (now : Nat) (role : Role)
      (fresh : ∀ r ∈ g.roles, r.id ≠ role.id) (first : role.position = 1)
      (roles : g'.roles = g.roles.map (g.shiftRole now) ++ [role])
      (holders : g'.memberRoles = g.memberRoles)
  | edited (f : Role → Role)
      (ids : ∀ r, (f r).id = r.id)
      (above : ∀ r ∈ g.roles, ¬ r.RankLt top → f r = r)
      (below : ∀ r ∈ g.roles, r.RankLt top → (f r).RankLt top)
      (everyone : ∀ r ∈ g.roles, r.id = g.id → (f r).position = r.position)
      (roles : g'.roles = g.roles.map f)
      (distinct : (g'.roles.map Role.position).Nodup)
      (holders : g'.memberRoles = g.memberRoles)
  | deleted (role : Role) (mem : role ∈ g.roles) (movable : role.id ≠ g.id)
      (below : role.RankLt top)
      (roles : g'.roles = g.roles.filter fun r => r.id ≠ role.id)
      (holders : g'.memberRoles = g.memberRoles.filter fun h => h.2 ≠ role.id)
  | assigned
      (roles : g'.roles = g.roles)
      (holders : ∀ u id, ((u, id) ∈ g'.memberRoles ↔ (u, id) ∈ g.memberRoles)
        ∨ ∃ r ∈ g.roles, r.id = id ∧ r.RankLt top)
      (existing : ∀ h ∈ g'.memberRoles, ∃ r ∈ g.roles, r.id = h.2)

/-- A request changes neither the guild's id nor its owner. -/
def SameGuild (g g' : Guild) : Prop := g'.id = g.id ∧ g'.owner = g.owner

section

variable {g g' : Guild} {actor : UserRef} {top : Role}

theorem RoleChange.refl (hok : HierarchyOk g) : RoleChange top g g :=
  .assigned rfl (fun _ _ => .inl Iff.rfl) hok.assigned

/-- What bounds an actor's requests: their highest role, or anything above
all roles for the owner, whom no check holds back. -/
def CeilingFor (g : Guild) (actor : UserRef) (top : Role) : Prop :=
  (g.owner ≠ actor ∧ g.highestRole actor = some top) ∨
  (g.owner = actor ∧ g.roles.length < top.position ∧ ∀ r ∈ g.roles, r.position < top.position)

theorem requireCanManageRole_ok (hceil : CeilingFor g actor top) {role : Role} {u : Unit}
    (hrole : role ∈ g.roles) (h : g.requireCanManageRole actor role = .ok u) :
    role.RankLt top := by
  rcases hceil with ⟨howner, htop⟩ | ⟨-, -, habove⟩
  · rw [Guild.requireCanManageRole, if_neg howner] at h
    simp only [found_bind_eq_ok, htop, ensure_eq_ok] at h
    obtain ⟨a, ha, hlt⟩ := h
    cases ha
    exact hlt
  · exact .inl (habove role hrole)

theorem createRole_ok {mask roleId now : Nat} {payload : RoleCreate}
    (h : g.createRole mask payload roleId now = .ok g') :
    ∃ role : Role, (∀ r ∈ g.roles, r.id ≠ role.id) ∧ role.position = 1 ∧
      g'.roles = g.roles.map (g.shiftRole now) ++ [role] ∧
      g'.memberRoles = g.memberRoles ∧ SameGuild g g' := by
  simp only [Guild.createRole, check_bind_eq_ok, ensure_eq_ok, Guild.queueGuildMutation_eq] at h
  obtain ⟨-, -, hnew, h⟩ := h
  obtain rfl := Except.ok.inj h
  refine ⟨_, ?_, rfl, rfl, rfl, rfl, rfl⟩
  exact lookupBy_eq_none hnew

theorem createRole_change {mask roleId now : Nat} {payload : RoleCreate}
    (h : g.createRole mask payload roleId now = .ok g') :
    RoleChange top g g' ∧ SameGuild g g' := by
  obtain ⟨role, fresh, first, hroles, hholders, hsame⟩ := createRole_ok h
  exact ⟨.created now role fresh first hroles hholders, hsame⟩

theorem updateRole_change (hok : HierarchyOk g) (hceil : CeilingFor g actor top)
    {mask roleId now : Nat} {payload : RoleUpdate} {version : Option Nat}
    (h : g.updateRole actor mask roleId payload version now = .ok g') :
    RoleChange top g g' ∧ SameGuild g g' := by
  simp only [Guild.updateRole, check_bind_eq_ok, found_bind_eq_ok,
    Guild.queueGuildMutation_eq] at h
  obtain ⟨-, role, hrole, -, hmanage, -, -, h⟩ := h
  have hmem := mem_of_lookupBy hrole
  have hbelow := requireCanManageRole_ok hceil hmem hmanage
  have hid := key_of_lookupBy hrole
  by_cases hsame : payload.apply role = role
  · rw [if_pos hsame] at h
    obtain rfl := Except.ok.inj h
    exact ⟨.refl hok, rfl, rfl⟩
  · rw [if_neg hsame] at h
    obtain rfl := Except.ok.inj h
    have honly : ∀ r ∈ g.roles, r.id = roleId → r = role := by
      intro r hr hrid
      exact hok.eq_of_id hr hmem (hrid.trans hid.symm)
    refine ⟨.edited
      (fun r => if r.id = roleId then { payload.apply r with updatedAt := now } else r)
      ?_ ?_ ?_ ?_ rfl ?_ rfl, rfl, rfl⟩
    · intro r
      dsimp only
      split <;> rfl
    · intro r hr hnot
      have hne : r.id ≠ roleId := by
        intro hrid
        rw [honly r hr hrid] at hnot
        exact hnot hbelow
      rw [if_neg hne]
    · intro r hr hlt
      dsimp only
      split
      · exact hlt
      · exact hlt
    · intro r hr hrid
      dsimp only
      split <;> rfl
    · rw [Guild.bumpPermissionGeneration, updateBy, List.map_map]
      have hpos : (Role.position ∘ fun r => if r.id = roleId then
          { payload.apply r with updatedAt := now } else r) = Role.position := by
        funext r
        simp only [Function.comp]
        split <;> rfl
      rw [hpos]
      exact hok.positions

theorem deleteRole_ok {mask roleId : Nat} (h : g.deleteRole actor mask roleId = .ok g') :
    ∃ role, g.role? roleId = some role ∧ role.id ≠ g.id ∧
      g.requireCanManageRole actor role = .ok () ∧
      (g'.roles = g.roles.filter fun r => r.id ≠ role.id) ∧
      (g'.memberRoles = g.memberRoles.filter fun h => h.2 ≠ role.id) ∧ SameGuild g g' := by
  simp only [Guild.deleteRole, check_bind_eq_ok, found_bind_eq_ok, ensure_eq_ok,
    Guild.queueGuildMutation_eq] at h
  obtain ⟨-, role, hrole, hmovable, -, hmanage, h⟩ := h
  obtain rfl := Except.ok.inj h
  exact ⟨role, hrole, hmovable, hmanage, rfl, rfl, rfl, rfl⟩

theorem deleteRole_change (hceil : CeilingFor g actor top) {mask roleId : Nat}
    (h : g.deleteRole actor mask roleId = .ok g') : RoleChange top g g' ∧ SameGuild g g' := by
  obtain ⟨role, hrole, hmovable, hmanage, hroles, hholders, hsame⟩ := deleteRole_ok h
  have hmem := mem_of_lookupBy hrole
  have hbelow := requireCanManageRole_ok hceil hmem hmanage
  exact ⟨.deleted role hmem hmovable hbelow hroles hholders, hsame⟩

/-- A batch that passed the two set checks lists every movable role. -/
theorem placed_position_of_movable (now : Nat) {payload : RolePositionBatch} {r : Role}
    (hlisted : (payload.roles.map RolePosition.id).toFinset = (g.movableRoles.map Role.id).toFinset)
    (hr : r ∈ g.roles) (hid : r.id ≠ g.id) :
    ∃ item ∈ payload.roles, item.id = r.id ∧
      (placed now payload.roles r).position = item.position := by
  have hmem : r.id ∈ (payload.roles.map RolePosition.id).toFinset := by
    rw [hlisted, List.mem_toFinset]
    refine List.mem_map_of_mem ?_
    simp [Guild.movableRoles, hr, hid]
  obtain ⟨item, hitem, heq⟩ := List.mem_map.mp (List.mem_toFinset.mp hmem)
  exact ⟨item, hitem, heq, placed_position payload.uniqueIds hitem heq⟩

theorem placed_everyone {payload : RolePositionBatch} {now : Nat} {r : Role}
    (hlisted : (payload.roles.map RolePosition.id).toFinset = (g.movableRoles.map Role.id).toFinset)
    (hid : r.id = g.id) : placed now payload.roles r = r := by
  refine placed_of_not_mem ?_
  intro hmem
  rw [← List.mem_toFinset, hlisted, List.mem_toFinset] at hmem
  obtain ⟨s, hs, hsid⟩ := List.mem_map.mp hmem
  have hne : s.id ≠ g.id := by simpa [Guild.movableRoles] using (List.mem_filter.mp hs).2
  exact hne (hsid.trans hid)

/-- A batch assigns distinct positive positions, so it keeps all positions
distinct. -/
theorem placed_positions_nodup (hok : HierarchyOk g) {payload : RolePositionBatch} {now : Nat}
    (hlisted : (payload.roles.map RolePosition.id).toFinset
      = (g.movableRoles.map Role.id).toFinset) :
    ((g.roles.map (placed now payload.roles)).map Role.position).Nodup := by
  rw [List.map_map]
  refine (List.nodup_map_iff_inj_on (List.Nodup.of_map Role.id hok.ids)).mpr ?_
  intro r hr s hs heq
  simp only [Function.comp] at heq
  by_cases hrid : r.id = g.id <;> by_cases hsid : s.id = g.id
  · exact hok.eq_of_id hr hs (hrid.trans hsid.symm)
  · obtain ⟨item, hitem, -, hpos⟩ := placed_position_of_movable now hlisted hs hsid
    have hone := payload.positive item hitem
    rw [placed_everyone hlisted hrid, hpos, hok.position_everyone hr hrid] at heq
    omega
  · obtain ⟨item, hitem, -, hpos⟩ := placed_position_of_movable now hlisted hr hrid
    have hone := payload.positive item hitem
    rw [placed_everyone hlisted hsid, hpos, hok.position_everyone hs hsid] at heq
    omega
  · obtain ⟨i, hi, hiid, hipos⟩ := placed_position_of_movable now hlisted hr hrid
    obtain ⟨j, hj, hjid, hjpos⟩ := placed_position_of_movable now hlisted hs hsid
    have hij : i = j :=
      List.inj_on_of_nodup_map payload.uniquePositions hi hj (by rw [← hipos, ← hjpos, heq])
    exact hok.eq_of_id hr hs (by rw [← hiid, ← hjid, hij])

/-- The pieces of a successful reorder. -/
theorem reorderRoles_ok {mask now : Nat} {payload : RolePositionBatch}
    (h : g.reorderRoles actor mask payload now = .ok g') :
    (payload.roles.map RolePosition.id).toFinset = (g.movableRoles.map Role.id).toFinset ∧
    (payload.roles.map RolePosition.position).toFinset = Finset.Icc 1 g.movableRoles.length ∧
    ∃ ceiling roles changed, g.reorderCeiling actor = .ok ceiling ∧
      repositionRoles ceiling now payload.roles (g.roles, false) = .ok (roles, changed) ∧
      g' = if changed then
        (({ g with roles := roles }.bumpPermissionGeneration).queueGuildMutation .roleUpdate true)
        else g := by
  simp only [Guild.reorderRoles, check_bind_eq_ok, ensure_eq_ok] at h
  obtain ⟨-, hlisted, hpositions, h⟩ := h
  obtain ⟨ceiling, hceiling, h⟩ := bind_eq_ok.mp h
  obtain ⟨⟨roles, changed⟩, hloop, h⟩ := bind_eq_ok.mp h
  refine ⟨hlisted, hpositions, ceiling, roles, changed, hceiling, hloop, ?_⟩
  cases changed with
  | true => exact (Except.ok.inj h).symm
  | false => exact (Except.ok.inj h).symm

/-- A batch moves only roles below the ceiling, and not up to it. -/
theorem placed_below_ceiling (hceil : CeilingFor g actor top) {now : Nat}
    {payload : RolePositionBatch} {ceiling : Option Role}
    (hlisted : (payload.roles.map RolePosition.id).toFinset = (g.movableRoles.map Role.id).toFinset)
    (hpositions : (payload.roles.map RolePosition.position).toFinset
      = Finset.Icc 1 g.movableRoles.length)
    (hceiling : g.reorderCeiling actor = .ok ceiling)
    (hmoved : ∀ r ∈ g.roles, placed now payload.roles r = r
      ∨ ∀ a ∈ ceiling, roleReorderAllowed a r (placed now payload.roles r).position) :
    ∀ r ∈ g.roles, placed now payload.roles r = r
      ∨ (r.RankLt top ∧ (placed now payload.roles r).position < top.position) := by
  intro r hr
  rcases hceil with ⟨howner, htop⟩ | ⟨-, hlen, habove⟩
  · have hsome : ceiling = some top := by
      simp only [Guild.reorderCeiling, if_neg howner, htop, found] at hceiling
      exact (Except.ok.inj hceiling).symm
    rcases hmoved r hr with hsame | hallowed
    · exact .inl hsame
    · have hlt := hallowed top hsome
      simp only [roleReorderAllowed, decide_eq_true_eq] at hlt
      exact .inr hlt
  · by_cases hid : r.id = g.id
    · exact .inl (placed_everyone hlisted hid)
    · obtain ⟨item, hitem, -, hpos⟩ := placed_position_of_movable now hlisted hr hid
      have hmem : item.position ∈ Finset.Icc 1 g.movableRoles.length := by
        rw [← hpositions, List.mem_toFinset]
        exact List.mem_map_of_mem hitem
      have hle := (Finset.mem_Icc.mp hmem).2
      have hcount : g.movableRoles.length ≤ g.roles.length := List.length_filter_le _ _
      refine .inr ⟨.inl (habove r hr), ?_⟩
      omega

theorem reorderRoles_change (hok : HierarchyOk g) (hceil : CeilingFor g actor top)
    {mask now : Nat} {payload : RolePositionBatch}
    (h : g.reorderRoles actor mask payload now = .ok g') :
    RoleChange top g g' ∧ SameGuild g g' := by
  obtain ⟨hlisted, hpositions, ceiling, roles, changed, hceiling, hloop, rfl⟩ := reorderRoles_ok h
  cases changed with
  | false => exact ⟨.refl hok, rfl, rfl⟩
  | true =>
      obtain ⟨rfl, hmoved⟩ := repositionRoles_ok payload.uniqueIds hok.ids hloop
      have hbelow := placed_below_ceiling hceil hlisted hpositions hceiling hmoved
      rw [if_pos rfl, Guild.queueGuildMutation_eq]
      refine ⟨.edited (placed now payload.roles) (placed_id now payload.roles) ?_ ?_ ?_ rfl
        (placed_positions_nodup hok hlisted) rfl, rfl, rfl⟩
      · intro r hr hnot
        rcases hbelow r hr with hsame | hlt
        · exact hsame
        · exact absurd hlt.1 hnot
      · intro r hr hlt
        rcases hbelow r hr with hsame | hlow
        · rw [hsame]
          exact hlt
        · exact .inl hlow.2
      · intro r hr hid
        rw [placed_everyone hlisted hid]

theorem assignRole_change (hok : HierarchyOk g) (hceil : CeilingFor g actor top)
    {target : UserRef} {mask roleId : Nat}
    (h : g.assignRole actor target mask roleId = .ok g') :
    RoleChange top g g' ∧ SameGuild g g' := by
  simp only [Guild.assignRole, check_bind_eq_ok, found_bind_eq_ok,
    Guild.queueGuildMutation_eq] at h
  obtain ⟨-, -, role, hrole, -, -, hmanage, h⟩ := h
  have hmem := mem_of_lookupBy hrole
  have hbelow := requireCanManageRole_ok hceil hmem hmanage
  split at h
  · obtain rfl := Except.ok.inj h
    exact ⟨.refl hok, rfl, rfl⟩
  · obtain rfl := Except.ok.inj h
    refine ⟨.assigned rfl ?_ ?_, rfl, rfl⟩
    · intro u id
      by_cases hid : id = role.id
      · exact .inr ⟨role, hmem, hid.symm, hbelow⟩
      · left
        simp [Guild.updateMember, hid]
    · intro a ha
      rcases List.mem_append.mp ha with ha | ha
      · exact hok.assigned a ha
      · obtain rfl := List.mem_singleton.mp ha
        exact ⟨role, hmem, rfl⟩

theorem removeRole_change (hok : HierarchyOk g) (hceil : CeilingFor g actor top)
    {target : UserRef} {mask roleId : Nat}
    (h : g.removeRole actor target mask roleId = .ok g') :
    RoleChange top g g' ∧ SameGuild g g' := by
  simp only [Guild.removeRole, check_bind_eq_ok, found_bind_eq_ok,
    Guild.queueGuildMutation_eq] at h
  obtain ⟨-, -, role, hrole, -, hmanage, h⟩ := h
  have hmem := mem_of_lookupBy hrole
  have hbelow := requireCanManageRole_ok hceil hmem hmanage
  split at h
  · obtain rfl := Except.ok.inj h
    refine ⟨.assigned rfl ?_ ?_, rfl, rfl⟩
    · intro u id
      by_cases hid : id = role.id
      · exact .inr ⟨role, hmem, hid.symm, hbelow⟩
      · left
        simp [Guild.updateMember, hid]
    · intro a ha
      exact hok.assigned a (List.mem_filter.mp ha).1
  · obtain rfl := Except.ok.inj h
    exact ⟨.refl hok, rfl, rfl⟩

theorem requireChangeableRole_ok (hceil : CeilingFor g actor top) {id : Nat}
    (h : g.requireChangeableRole actor id = .ok ()) :
    ∃ r ∈ g.roles, r.id = id ∧ r.RankLt top := by
  simp only [Guild.requireChangeableRole, check_bind_eq_ok, found_bind_eq_ok] at h
  obtain ⟨role, hrole, -, hmanage⟩ := h
  have hmem := mem_of_lookupBy hrole
  exact ⟨role, hmem, key_of_lookupBy hrole, requireCanManageRole_ok hceil hmem hmanage⟩

/-- Queueing several events changes channels only. -/
theorem foldl_queueGuildMutation (events : List GuildEvent) (g : Guild) :
    ∃ channels, events.foldl (fun state event => state.queueGuildMutation event true) g
      = { g with channels := channels } := by
  induction events generalizing g with
  | nil => exact ⟨g.channels, rfl⟩
  | cons event rest ih =>
      obtain ⟨channels, hrest⟩ := ih (g.queueGuildMutation event true)
      refine ⟨channels, ?_⟩
      rw [List.foldl_cons, hrest, Guild.queueGuildMutation_eq]

theorem replaceMemberRoles_change (hok : HierarchyOk g) (hceil : CeilingFor g actor top)
    {target : UserRef} {mask : Nat} {roleIds : List Nat}
    (h : g.replaceMemberRoles actor target mask roleIds = .ok g') :
    RoleChange top g g' ∧ SameGuild g g' := by
  simp only [Guild.replaceMemberRoles, check_bind_eq_ok] at h
  obtain ⟨-, -, -, h⟩ := h
  split at h
  · obtain rfl := Except.ok.inj h
    exact ⟨.refl hok, rfl, rfl⟩
  · simp only [check_bind_eq_ok, forEach_eq_ok] at h
    obtain ⟨-, hchecked, h⟩ := h
    obtain rfl := Except.ok.inj h
    obtain ⟨channels, heq⟩ := foldl_queueGuildMutation _ _
    rw [heq]
    -- every role whose assignment changes passed the hierarchy check
    have hbelow : ∀ id, (id ∈ roleIds ∧ id ∉ g.explicitRoles target)
        ∨ (id ∈ g.explicitRoles target ∧ id ∉ roleIds) →
        ∃ r ∈ g.roles, r.id = id ∧ r.RankLt top := by
      intro id hid
      refine requireChangeableRole_ok hceil (hchecked id ?_)
      rw [List.mem_mergeSort, List.mem_append, List.mem_filter, List.mem_filter]
      simpa using hid
    refine ⟨.assigned rfl ?_ ?_, rfl, rfl⟩
    · intro u id
      by_cases hadded : id ∈ roleIds ∧ id ∉ g.explicitRoles target
      · exact .inr (hbelow id (.inl hadded))
      by_cases hremoved : id ∈ g.explicitRoles target ∧ id ∉ roleIds
      · exact .inr (hbelow id (.inr hremoved))
      left
      simp only [Guild.updateMember, List.mem_append, List.mem_filter, List.mem_map]
      constructor
      · rintro (⟨hmem, -⟩ | ⟨id', ⟨hid', hnot⟩, heq⟩)
        · exact hmem
        · cases heq
          exact absurd ⟨hid', by simpa using hnot⟩ hadded
      · intro hmem
        refine .inl ⟨hmem, ?_⟩
        simp only [decide_eq_true_eq]
        rintro ⟨-, hid⟩
        exact hremoved ⟨hid.1, by simpa using hid.2⟩
    · intro a ha
      rcases List.mem_append.mp ha with ha | ha
      · exact hok.assigned a (List.mem_filter.mp ha).1
      · obtain ⟨id, hid, rfl⟩ := List.mem_map.mp ha
        have hid' := List.mem_filter.mp hid
        obtain ⟨r, hr, hrid, -⟩ := hbelow id (.inl ⟨hid'.1, by simpa using hid'.2⟩)
        exact ⟨r, hr, hrid⟩

theorem handleRole_change (hok : HierarchyOk g) (hceil : CeilingFor g actor top) {call : RoleCall}
    (h : g.handleRole actor call = .ok g') : RoleChange top g g' ∧ SameGuild g g' := by
  unfold Guild.handleRole at h
  cases hreq : call.request with
  | create payload roleId =>
      rw [hreq] at h
      exact createRole_change h
  | update roleId payload version =>
      rw [hreq] at h
      exact updateRole_change hok hceil h
  | delete roleId =>
      rw [hreq] at h
      exact deleteRole_change hceil h
  | reorder payload =>
      rw [hreq] at h
      exact reorderRoles_change hok hceil h
  | assign target roleId =>
      rw [hreq] at h
      exact assignRole_change hok hceil h
  | replace target roleIds =>
      rw [hreq] at h
      exact replaceMemberRoles_change hok hceil h
  | remove target roleId =>
      rw [hreq] at h
      exact removeRole_change hok hceil h

theorem shiftRole_id (g : Guild) (now : Nat) (r : Role) : (g.shiftRole now r).id = r.id := by
  unfold Guild.shiftRole
  split <;> rfl

theorem shiftRole_permissions (g : Guild) (now : Nat) (r : Role) :
    (g.shiftRole now r).permissions = r.permissions := by
  unfold Guild.shiftRole
  split <;> rfl

/-- Making room at position 1 keeps every comparison. -/
theorem shiftRole_rankLt (hok : HierarchyOk g) {now : Nat} {r s : Role} (hr : r ∈ g.roles)
    (hs : s ∈ g.roles) : (g.shiftRole now r).RankLt (g.shiftRole now s) ↔ r.RankLt s := by
  unfold Guild.shiftRole
  by_cases hrid : r.id = g.id <;> by_cases hsid : s.id = g.id
  · simp [hrid, hsid]
  · have hr0 := hok.position_everyone hr hrid
    have hs0 := hok.position_pos hs hsid
    simp only [hrid, hsid, if_true, if_false, Role.RankLt]
    omega
  · have hs0 := hok.position_everyone hs hsid
    have hr0 := hok.position_pos hr hrid
    simp only [hrid, hsid, if_true, if_false, Role.RankLt]
    omega
  · simp only [hrid, hsid, if_false, Role.RankLt]
    omega

theorem shiftRole_position_ne (hok : HierarchyOk g) {now : Nat} {r : Role} (hr : r ∈ g.roles) :
    (g.shiftRole now r).position ≠ 1 := by
  unfold Guild.shiftRole
  by_cases hid : r.id = g.id
  · rw [if_pos hid, hok.position_everyone hr hid]
    omega
  · have hpos := hok.position_pos hr hid
    rw [if_neg hid]
    show r.position + 1 ≠ 1
    omega

theorem created_hierarchyOk (hok : HierarchyOk g) (hsame : SameGuild g g') {now : Nat}
    {role : Role} (fresh : ∀ r ∈ g.roles, r.id ≠ role.id) (first : role.position = 1)
    (hroles : g'.roles = g.roles.map (g.shiftRole now) ++ [role])
    (hholders : g'.memberRoles = g.memberRoles) : HierarchyOk g' where
  ids := by
    rw [hroles, List.map_append, List.map_map]
    have hids : (Role.id ∘ g.shiftRole now) = Role.id := funext (shiftRole_id g now)
    rw [hids, List.map_singleton, List.nodup_append]
    refine ⟨hok.ids, List.nodup_singleton _, ?_⟩
    intro id hid id' hid'
    obtain ⟨r, hr, rfl⟩ := List.mem_map.mp hid
    obtain rfl := List.mem_singleton.mp hid'
    exact fresh r hr
  positions := by
    rw [hroles, List.map_append, List.map_singleton, List.nodup_append, List.map_map]
    refine ⟨?_, List.nodup_singleton _, ?_⟩
    · refine (List.nodup_map_iff_inj_on (List.Nodup.of_map Role.id hok.ids)).mpr ?_
      intro r hr s hs heq
      simp only [Function.comp, Guild.shiftRole] at heq
      by_cases hrid : r.id = g.id <;> by_cases hsid : s.id = g.id
      · exact hok.eq_of_id hr hs (hrid.trans hsid.symm)
      · have hr0 := hok.position_everyone hr hrid
        simp [hrid, hsid, hr0] at heq
      · have hs0 := hok.position_everyone hs hsid
        simp [hrid, hsid, hs0] at heq
      · simp only [hrid, hsid, if_false] at heq
        exact hok.eq_of_position hr hs (by omega)
    · intro q hq q' hq'
      obtain ⟨r, hr, rfl⟩ := List.mem_map.mp hq
      obtain rfl := List.mem_singleton.mp hq'
      rw [first]
      exact shiftRole_position_ne hok hr
  everyone := by
    obtain ⟨e, he, hid, hpos⟩ := hok.everyone
    refine ⟨e, ?_, hid.trans hsame.1.symm, hpos⟩
    rw [hroles]
    refine List.mem_append_left _ (List.mem_map.mpr ⟨e, he, ?_⟩)
    rw [Guild.shiftRole, if_pos hid]
  assigned := by
    intro h hh
    rw [hholders] at hh
    obtain ⟨r, hr, hid⟩ := hok.assigned h hh
    refine ⟨g.shiftRole now r, ?_, (shiftRole_id g now r).trans hid⟩
    rw [hroles]
    exact List.mem_append_left _ (List.mem_map_of_mem hr)

theorem RoleChange.hierarchyOk (hok : HierarchyOk g) (hsame : SameGuild g g')
    (h : RoleChange top g g') : HierarchyOk g' := by
  cases h with
  | created now role fresh first hroles hholders =>
      exact created_hierarchyOk hok hsame fresh first hroles hholders
  | edited f hids above below heveryone hroles hdistinct hholders =>
      refine ⟨?_, hdistinct, ?_, ?_⟩
      · have hid : (Role.id ∘ f) = Role.id := funext hids
        rw [hroles, List.map_map, hid]
        exact hok.ids
      · obtain ⟨e, he, hid, hpos⟩ := hok.everyone
        refine ⟨f e, ?_, ?_, (heveryone e he hid).trans hpos⟩
        · rw [hroles]
          exact List.mem_map_of_mem he
        · rw [hids, hid, hsame.1]
      · intro a ha
        rw [hholders] at ha
        obtain ⟨r, hr, hid⟩ := hok.assigned a ha
        refine ⟨f r, ?_, (hids r).trans hid⟩
        rw [hroles]
        exact List.mem_map_of_mem hr
  | deleted role hmem hmovable hbelow hroles hholders =>
      have hsub : g'.roles.Sublist g.roles := by
        rw [hroles]
        exact List.filter_sublist
      refine ⟨hok.ids.sublist (hsub.map Role.id), hok.positions.sublist (hsub.map Role.position),
        ?_, ?_⟩
      · obtain ⟨e, he, hid, hpos⟩ := hok.everyone
        refine ⟨e, ?_, hid.trans hsame.1.symm, hpos⟩
        rw [hroles, List.mem_filter]
        refine ⟨he, ?_⟩
        simp [hid, Ne.symm hmovable]
      · intro a ha
        rw [hholders, List.mem_filter] at ha
        obtain ⟨r, hr, hid⟩ := hok.assigned a ha.1
        refine ⟨r, ?_, hid⟩
        rw [hroles, List.mem_filter, hid]
        exact ⟨hr, ha.2⟩
  | assigned hroles hholders hexisting =>
      refine ⟨?_, ?_, ?_, ?_⟩
      · rw [hroles]
        exact hok.ids
      · rw [hroles]
        exact hok.positions
      · rw [hroles, hsame.1]
        exact hok.everyone
      · rw [hroles]
        exact hexisting

theorem exists_ceilingFor (hok : HierarchyOk g) (actor : UserRef) :
    ∃ top, CeilingFor g actor top := by
  obtain ⟨e, he, hid, -⟩ := hok.everyone
  by_cases howner : g.owner = actor
  · refine ⟨{ e with position := g.roles.length + (g.roles.map Role.position).sum + 1 },
      .inr ⟨howner, ?_, ?_⟩⟩
    · show g.roles.length < g.roles.length + (g.roles.map Role.position).sum + 1
      omega
    · intro r hr
      have hle := List.le_sum_of_mem (List.mem_map_of_mem (f := Role.position) hr)
      show r.position < g.roles.length + (g.roles.map Role.position).sum + 1
      omega
  · have hheld : e ∈ g.rolesOf actor := by simp [Guild.rolesOf, he, hid]
    obtain ⟨top, htop⟩ := exists_maxRole hheld
    exact ⟨top, .inl ⟨howner, htop⟩⟩

theorem handleRole_hierarchyOk (hok : HierarchyOk g) {call : RoleCall}
    (h : g.handleRole actor call = .ok g') : HierarchyOk g' ∧ SameGuild g g' := by
  obtain ⟨top, hceil⟩ := exists_ceilingFor hok actor
  obtain ⟨hchange, hsame⟩ := handleRole_change hok hceil h
  exact ⟨hchange.hierarchyOk hok hsame, hsame⟩

/-! ## The ceiling -/

/-- `g'` still has every role of `g` at or above `top`, as `φ` finds it:
with its permissions, its holders and its place among the others. -/
structure Kept (top : Role) (φ : Role → Role) (g g' : Guild) : Prop where
  mem : ∀ r ∈ g.roles, ¬ r.RankLt top → φ r ∈ g'.roles
  id : ∀ r, (φ r).id = r.id
  permissions : ∀ r, (φ r).permissions = r.permissions
  order : ∀ r ∈ g.roles, ¬ r.RankLt top → ∀ s ∈ g.roles, ¬ s.RankLt top →
    ((φ r).RankLt (φ s) ↔ r.RankLt s)
  holders : ∀ r ∈ g.roles, ¬ r.RankLt top → ∀ u,
    ((u, r.id) ∈ g'.memberRoles ↔ (u, r.id) ∈ g.memberRoles)

theorem Kept.trans {φ ψ : Role → Role} {g'' : Guild} (htop : top ∈ g.roles)
    (h : Kept top φ g g') (h' : Kept (φ top) ψ g' g'') : Kept top (ψ ∘ φ) g g'' := by
  have habove : ∀ r ∈ g.roles, ¬ r.RankLt top → φ r ∈ g'.roles ∧ ¬ (φ r).RankLt (φ top) := by
    intro r hr hnot
    refine ⟨h.mem r hr hnot, ?_⟩
    rw [h.order r hr hnot top htop (Role.RankLt.irrefl top)]
    exact hnot
  refine ⟨?_, ?_, ?_, ?_, ?_⟩
  · intro r hr hnot
    obtain ⟨hmem, hnot'⟩ := habove r hr hnot
    exact h'.mem (φ r) hmem hnot'
  · intro r
    exact (h'.id (φ r)).trans (h.id r)
  · intro r
    exact (h'.permissions (φ r)).trans (h.permissions r)
  · intro r hr hnot s hs hsnot
    obtain ⟨hr', hrnot'⟩ := habove r hr hnot
    obtain ⟨hs', hsnot'⟩ := habove s hs hsnot
    exact (h'.order (φ r) hr' hrnot' (φ s) hs' hsnot').trans (h.order r hr hnot s hs hsnot)
  · intro r hr hnot u
    obtain ⟨hr', hrnot'⟩ := habove r hr hnot
    have hstep := h'.holders (φ r) hr' hrnot' u
    rw [h.id r] at hstep
    exact hstep.trans (h.holders r hr hnot u)

theorem RoleChange.kept (hok : HierarchyOk g) (h : RoleChange top g g') :
    ∃ φ, Kept top φ g g' := by
  cases h with
  | created now role fresh first hroles hholders =>
      refine ⟨g.shiftRole now, ?_, shiftRole_id g now, shiftRole_permissions g now, ?_, ?_⟩
      · intro r hr _
        rw [hroles]
        exact List.mem_append_left _ (List.mem_map_of_mem hr)
      · intro r hr _ s hs _
        exact shiftRole_rankLt hok hr hs
      · intro r hr _ u
        rw [hholders]
  | edited f hids above below heveryone hroles hdistinct hholders =>
      refine ⟨fun r => r, ?_, fun _ => rfl, fun _ => rfl, fun _ _ _ _ _ _ => Iff.rfl, ?_⟩
      · intro r hr hnot
        rw [hroles]
        exact List.mem_map.mpr ⟨r, hr, above r hr hnot⟩
      · intro r hr _ u
        rw [hholders]
  | deleted role hmem hmovable hbelow hroles hholders =>
      have hne : ∀ r ∈ g.roles, ¬ r.RankLt top → r.id ≠ role.id := by
        intro r hr hnot hid
        rw [hok.eq_of_id hr hmem hid] at hnot
        exact hnot hbelow
      refine ⟨fun r => r, ?_, fun _ => rfl, fun _ => rfl, fun _ _ _ _ _ _ => Iff.rfl, ?_⟩
      · intro r hr hnot
        rw [hroles, List.mem_filter]
        exact ⟨hr, by simpa using hne r hr hnot⟩
      · intro r hr hnot u
        rw [hholders, List.mem_filter]
        simp [hne r hr hnot]
  | assigned hroles hholders hexisting =>
      refine ⟨fun r => r, ?_, fun _ => rfl, fun _ => rfl, fun _ _ _ _ _ _ => Iff.rfl, ?_⟩
      · intro r hr _
        rw [hroles]
        exact hr
      · intro r hr hnot u
        rcases hholders u r.id with hiff | ⟨s, hs, hid, hlt⟩
        · exact hiff
        · rw [hok.eq_of_id hs hr hid] at hlt
          exact absurd hlt hnot

theorem mem_rolesOf {user : UserRef} {r : Role} :
    r ∈ g.rolesOf user ↔ r ∈ g.roles ∧ (r.id = g.id ∨ (user, r.id) ∈ g.memberRoles) := by
  simp [Guild.rolesOf]

/-- After the change every role the actor has is still at most the old
highest one. -/
theorem RoleChange.bound (hok : HierarchyOk g) (hsame : SameGuild g g')
    (htop : g.highestRole actor = some top) (h : RoleChange top g g') {φ : Role → Role}
    (hφ : Kept top φ g g') (hok' : HierarchyOk g') :
    ∀ r ∈ g'.rolesOf actor, ¬ (φ top).RankLt r := by
  obtain ⟨hmem, hmax⟩ := maxRole_spec htop
  have htopmem := (mem_rolesOf.mp hmem).1
  -- the row the highest role has now is the one `φ` names
  have hφtop : ∀ t ∈ g'.roles, t.id = top.id → φ top = t := by
    intro t ht hid
    exact hok'.eq_of_id (hφ.mem top htopmem (Role.RankLt.irrefl top)) ht
      ((hφ.id top).trans hid.symm)
  intro r hr
  obtain ⟨hr', hheld⟩ := mem_rolesOf.mp hr
  cases h with
  | created now role fresh first hroles hholders =>
      rw [hroles] at hr'
      have htop' : φ top = g.shiftRole now top := by
        refine hφtop _ ?_ (shiftRole_id g now top)
        rw [hroles]
        exact List.mem_append_left _ (List.mem_map_of_mem htopmem)
      rw [htop']
      rcases List.mem_append.mp hr' with hold | hnew
      · obtain ⟨s, hs, rfl⟩ := List.mem_map.mp hold
        rw [shiftRole_rankLt hok htopmem hs]
        refine hmax s (mem_rolesOf.mpr ⟨hs, ?_⟩)
        rw [shiftRole_id, hsame.1, hholders] at hheld
        exact hheld
      · -- nobody holds the role that has just been created
        obtain rfl := List.mem_singleton.mp hnew
        exfalso
        rcases hheld with hid | hheld
        · obtain ⟨e, he, heid, -⟩ := hok.everyone
          exact fresh e he (by rw [heid, hid, hsame.1])
        · rw [hholders] at hheld
          obtain ⟨s, hs, hid⟩ := hok.assigned _ hheld
          exact fresh s hs hid
  | edited f hids above below heveryone hroles hdistinct hholders =>
      have htop' : φ top = top := by
        refine hφtop _ ?_ rfl
        rw [hroles]
        exact List.mem_map.mpr ⟨top, htopmem, above top htopmem (Role.RankLt.irrefl top)⟩
      rw [htop']
      rw [hroles] at hr'
      obtain ⟨s, hs, rfl⟩ := List.mem_map.mp hr'
      by_cases hlt : s.RankLt top
      · exact (below s hs hlt).asymm
      · rw [above s hs hlt]
        refine hmax s (mem_rolesOf.mpr ⟨hs, ?_⟩)
        rw [hids, hsame.1, hholders] at hheld
        exact hheld
  | deleted role hmem' hmovable hbelow hroles hholders =>
      have htop' : φ top = top := by
        refine hφtop _ ?_ rfl
        rw [hroles, List.mem_filter]
        refine ⟨htopmem, ?_⟩
        have hne : top.id ≠ role.id := by
          intro hid
          rw [hok.eq_of_id htopmem hmem' hid] at hbelow
          exact Role.RankLt.irrefl role hbelow
        simpa using hne
      rw [htop']
      rw [hroles, List.mem_filter] at hr'
      refine hmax r (mem_rolesOf.mpr ⟨hr'.1, ?_⟩)
      rw [hsame.1, hholders] at hheld
      exact hheld.imp_right fun hh => (List.mem_filter.mp hh).1
  | assigned hroles hholders hexisting =>
      have htop' : φ top = top := by
        refine hφtop _ ?_ rfl
        rw [hroles]
        exact htopmem
      rw [htop']
      rw [hroles] at hr'
      rcases hheld with hid | hheld
      · exact hmax r (mem_rolesOf.mpr ⟨hr', .inl (hid.trans hsame.1)⟩)
      · rcases hholders actor r.id with hiff | ⟨s, hs, hid, hlt⟩
        · exact hmax r (mem_rolesOf.mpr ⟨hr', .inr (hiff.mp hheld)⟩)
        · rw [← hok.eq_of_id hs hr' hid]
          exact hlt.asymm

/-- A successful role request of one actor. -/
def roleStep (actor : UserRef) (g : Guild) (call : RoleCall) : Option Guild :=
  (g.handleRole actor call).toOption

/-- What holds throughout the requests of an actor who started in `g₀` with
highest role `top`. -/
structure UnderCeiling (g₀ : Guild) (actor : UserRef) (top : Role) (g : Guild) : Prop where
  ok : HierarchyOk g
  owner : g.owner ≠ actor
  kept : ∃ φ, Kept top φ g₀ g ∧ g.highestRole actor = some (φ top)

theorem RoleChange.highest (hok : HierarchyOk g) (hsame : SameGuild g g')
    (htop : g.highestRole actor = some top) (h : RoleChange top g g') {φ : Role → Role}
    (hφ : Kept top φ g g') (hok' : HierarchyOk g') : g'.highestRole actor = some (φ top) := by
  obtain ⟨hmem, -⟩ := maxRole_spec htop
  obtain ⟨htopmem, hheld⟩ := mem_rolesOf.mp hmem
  have hnot := Role.RankLt.irrefl top
  have hkept : φ top ∈ g'.rolesOf actor := by
    refine mem_rolesOf.mpr ⟨hφ.mem top htopmem hnot, ?_⟩
    rw [hφ.id, hsame.1]
    exact hheld.imp_right (hφ.holders top htopmem hnot actor).mpr
  obtain ⟨m, hm, hid⟩ := maxRole_of_bound hkept (h.bound hok hsame htop hφ hok')
  have hm' := (mem_rolesOf.mp (maxRole_spec hm).1).1
  rw [Guild.highestRole, hm, hok'.eq_of_id hm' (hφ.mem top htopmem hnot) hid]

theorem roleStep_underCeiling {g₀ : Guild} (htop : top ∈ g₀.roles)
    (hg : UnderCeiling g₀ actor top g) {call : RoleCall} (h : roleStep actor g call = some g') :
    UnderCeiling g₀ actor top g' := by
  obtain ⟨φ, hφ, hhigh⟩ := hg.kept
  obtain ⟨hchange, hsame⟩ :=
    handleRole_change hg.ok (.inl ⟨hg.owner, hhigh⟩) (toOption_eq_some.mp h)
  have hok' := hchange.hierarchyOk hg.ok hsame
  obtain ⟨ψ, hψ⟩ := hchange.kept hg.ok
  refine ⟨hok', ?_, ψ ∘ φ, hφ.trans htop hψ, ?_⟩
  · rw [hsame.2]
    exact hg.owner
  · exact hchange.highest hg.ok hsame hhigh hψ hok'

/-- Whatever one member who is not the owner does with roles, that member
stays at or below the role that was their highest, and nothing at or above
it changes permissions, holders or order. -/
theorem role_ceiling {calls : List RoleCall} (hok : HierarchyOk g) (howner : g.owner ≠ actor)
    (htop : g.highestRole actor = some top) (hrun : Exec (roleStep actor) Always g calls g') :
    (∃ top' ∈ g'.roles, top'.id = top.id ∧
      ∀ high, g'.highestRole actor = some high → ¬ top'.RankLt high) ∧
    (∀ r ∈ g.roles, ¬ r.RankLt top → ∃ r' ∈ g'.roles,
      r'.id = r.id ∧ r'.permissions = r.permissions ∧
      ∀ u, (u, r'.id) ∈ g'.memberRoles ↔ (u, r.id) ∈ g.memberRoles) ∧
    (∀ r ∈ g.roles, ¬ r.RankLt top → ∀ s ∈ g.roles, ¬ s.RankLt top →
      ∀ r' ∈ g'.roles, r'.id = r.id → ∀ s' ∈ g'.roles, s'.id = s.id →
      (r'.RankLt s' ↔ r.RankLt s)) := by
  have hmem := (mem_rolesOf.mp (maxRole_spec htop).1).1
  have hstart : UnderCeiling g actor top g :=
    ⟨hok, howner, fun r => r,
      ⟨fun _ hr _ => hr, fun _ => rfl, fun _ => rfl, fun _ _ _ _ _ _ => Iff.rfl,
        fun _ _ _ _ => Iff.rfl⟩, htop⟩
  obtain ⟨hok', -, φ, hφ, hhigh⟩ :=
    hrun.invariant (fun _ _ _ hg _ h => roleStep_underCeiling hmem hg h) hstart
  have hnot := Role.RankLt.irrefl top
  refine ⟨⟨φ top, hφ.mem top hmem hnot, hφ.id top, ?_⟩, ?_, ?_⟩
  · intro high hh
    obtain rfl := Option.some.inj (hhigh.symm.trans hh)
    exact Role.RankLt.irrefl _
  · intro r hr hr0
    refine ⟨φ r, hφ.mem r hr hr0, hφ.id r, hφ.permissions r, ?_⟩
    intro u
    rw [hφ.id]
    exact hφ.holders r hr hr0 u
  · intro r hr hr0 s hs hs0 r' hr' hrid s' hs' hsid
    have hr₁ := hok'.eq_of_id hr' (hφ.mem r hr hr0) (hrid.trans (hφ.id r).symm)
    have hs₁ := hok'.eq_of_id hs' (hφ.mem s hs hs0) (hsid.trans (hφ.id s).symm)
    rw [hr₁, hs₁]
    exact hφ.order r hr hr0 s hs hs0

end

/-! A run of a moderator who holds the middle one of three roles: a new
role is created, taken, and exchanged with the lowest one. -/

def sampleRole (id position permissions : Nat) : Role :=
  { id := id, name := "role", permissions := permissions, color := 0, position := position
    hoist := false, managed := false, mentionable := false, updatedAt := 0 }

def sampleMember (user : UserRef) : GuildMember :=
  { user := user, memberVersion := 1, temporary := false, timeoutUntil := none
    timeoutIndefinite := false, onboardingState := { rulesRevision := none, grantedRoleIds := [] } }

def sampleOwner : UserRef := { id := 1, domain := "home" }

def sampleModerator : UserRef := { id := 2, domain := "home" }

def noOnboarding : OnboardingConfig :=
  { enabled := false, revision := 0, rulesRevision := 0, rules := [], defaultChannelIds := []
    questions := [], guide := [] }

def sampleGuild : Guild :=
  { id := 5, domain := "home", owner := sampleOwner, permissionGeneration := 1
    onboarding := noOnboarding
    roles := [sampleRole 5 0 0, sampleRole 10 1 0, sampleRole 20 2 0, sampleRole 30 3 0]
    members := [sampleMember sampleOwner, sampleMember sampleModerator]
    memberRoles := [(sampleModerator, 20)]
    channels := [], overwrites := [], threadMembers := [], installations := [] }

def sampleBatch : RolePositionBatch where
  roles := [⟨10, 1, 7⟩, ⟨40, 2, 7⟩, ⟨20, 3, 7⟩, ⟨30, 4, 7⟩]
  nonempty := by decide
  bounded := by decide
  positive := by decide
  uniqueIds := by decide
  uniquePositions := by decide

def sampleRoleCalls : List RoleCall :=
  [⟨Permission.manageRoles, 7, .create { name := "new" } 40⟩,
    ⟨Permission.manageRoles, 8, .assign sampleModerator 40⟩,
    ⟨Permission.manageRoles, 9, .reorder sampleBatch⟩]

theorem sampleGuild_hierarchyOk : HierarchyOk sampleGuild :=
  ⟨by decide, by decide, by decide, by decide⟩

theorem role_ceiling_sample : ∃ g', Exec (roleStep sampleModerator) Always sampleGuild
    sampleRoleCalls g' ∧ (g'.rolesOf sampleModerator).map Role.id = [5, 20, 40] ∧
    ∃ top' ∈ g'.roles, top'.id = 20 ∧
      ∀ high, g'.highestRole sampleModerator = some high → ¬ top'.RankLt high := by
  have hsome : (runFrom (roleStep sampleModerator) Always sampleGuild sampleRoleCalls).map
      (fun g => (g.rolesOf sampleModerator).map Role.id) = some [5, 20, 40] := by
    decide +kernel
  obtain ⟨g', hrun, hroles⟩ := Option.map_eq_some_iff.mp hsome
  have hexec := Exec.of_runFrom hrun
  have howner : sampleGuild.owner ≠ sampleModerator := by decide
  have htop : sampleGuild.highestRole sampleModerator = some (sampleRole 20 2 0) := by
    decide +kernel
  exact ⟨g', hexec, hroles, (role_ceiling sampleGuild_hierarchyOk howner htop hexec).1⟩

end Kaede
