import Mathlib.Order.Interval.Finset.Nat
import Kaede.Guild

/-!
# Role endpoints

`backend/app/chat/hierarchy.py` and the role endpoints of
`backend/app/api/guilds.py` and `backend/app/api/management.py`. Each
function is one request against the guild row it has locked: the new state
if the transaction commits, the error if it is refused.

`actorPermissions` is the mask `require_permissions` was served for the
actor. It comes from the permission cache, so it is an input here and no
result about the hierarchy depends on what it says.
-/

namespace Kaede

open Permission

/-! ## The hierarchy -/

/-- `role_rank(a) < role_rank(b)`: the pairs `(position, -id)` in
lexicographic order. -/
def Role.RankLt (a b : Role) : Prop :=
  a.position < b.position ∨ (a.position = b.position ∧ b.id < a.id)

instance (a b : Role) : Decidable (a.RankLt b) :=
  inferInstanceAs (Decidable (_ ∨ _))

/-- `max(roles, key=role_rank)` -/
def maxRole : List Role → Option Role
  | [] => none
  | r :: rest => some (rest.foldl (fun best x => if best.RankLt x then x else best) r)

def roleReorderAllowed (actorRole targetRole : Role) (newPosition : Nat) : Bool :=
  targetRole.RankLt actorRole ∧ newPosition < actorRole.position

def requireUnmanagedRole (role : Role) : Except GuildError Unit :=
  ensure (role.managed = false) .managedRoleImmutable

namespace Guild

def highestRole (g : Guild) (user : UserRef) : Option Role := maxRole (g.rolesOf user)

def requireCanManageRole (g : Guild) (actor : UserRef) (role : Role) : Except GuildError Unit :=
  if g.owner = actor then .ok ()
  else do
    let actorRole ← found (g.highestRole actor) .valueError
    ensure (role.RankLt actorRole) .roleHierarchy

/-- The comparison of the two members' highest roles. -/
def requireHigherMember (g : Guild) (actor target : UserRef) : Except GuildError Unit := do
  let actorRole ← found (g.highestRole actor) .valueError
  let targetRole ← found (g.highestRole target) .valueError
  ensure (targetRole.RankLt actorRole) .roleHierarchy

def requireCanManageMember (g : Guild) (actor target : UserRef) : Except GuildError Unit := do
  let _ ← found (g.member? target) .memberNotFound
  ensure (target ≠ g.owner) .ownerImmune
  ensure (target ≠ actor) .cannotManageSelf
  if g.owner = actor then .ok () else g.requireHigherMember actor target

def requireCanAssignMemberRole (g : Guild) (actor target : UserRef) : Except GuildError Unit := do
  let _ ← found (g.member? target) .memberNotFound
  if target = g.owner then ensure (actor = g.owner) .ownerImmune
  else if actor = target ∨ actor = g.owner then .ok ()
  else g.requireHigherMember actor target

/-! ## Creating, editing and deleting roles -/

end Guild

structure RoleCreate where
  name : String
  permissions : Nat := 0
  color : Nat := 0
  hoist : Bool := false
  mentionable : Bool := false
deriving DecidableEq, Repr

structure RoleUpdate where
  name : Option String := none
  permissions : Option Nat := none
  color : Option Nat := none
  position : Option Nat := none
  hoist : Option Bool := none
  mentionable : Option Bool := none
deriving DecidableEq, Repr

/-- The `setattr` loop over the fields of the payload. -/
def RoleUpdate.apply (payload : RoleUpdate) (role : Role) : Role :=
  { role with
    name := payload.name.getD role.name
    permissions := payload.permissions.getD role.permissions
    color := payload.color.getD role.color
    hoist := payload.hoist.getD role.hoist
    mentionable := payload.mentionable.getD role.mentionable }

namespace Guild

/-- Make room at position 1, leaving @everyone where it is. -/
def shiftRole (g : Guild) (now : Nat) (role : Role) : Role :=
  if role.id = g.id then role else { role with position := role.position + 1, updatedAt := now }

def createRole (g : Guild) (actorPermissions : Nat) (payload : RoleCreate) (roleId now : Nat) :
    Except GuildError Guild := do
  requirePermissions actorPermissions manageRoles
  ensure (andNot payload.permissions actorPermissions = 0) .cannotGrantPermissions
  -- the minted id is new to the table, or the primary key refuses it
  ensure (g.role? roleId = none) .integrityError
  let role : Role :=
    { id := roleId, name := payload.name, permissions := payload.permissions
      color := payload.color, position := 1, hoist := payload.hoist, managed := false
      mentionable := payload.mentionable, updatedAt := now }
  let g' := { g with roles := g.roles.map (g.shiftRole now) ++ [role] }
  .ok (g'.bumpPermissionGeneration.queueGuildMutation .roleCreate true)

def updateRole (g : Guild) (actor : UserRef) (actorPermissions roleId : Nat)
    (payload : RoleUpdate) (version : Option Nat) (now : Nat) : Except GuildError Guild := do
  requirePermissions actorPermissions manageRoles
  let role ← found (g.role? roleId) .roleNotFound
  requireCurrentVersion role.updatedAt version
  g.requireCanManageRole actor role
  ensure (∀ p ∈ payload.permissions, andNot (p ^^^ role.permissions) actorPermissions = 0)
    .cannotManagePermissions
  ensure (payload.position = none) .rolePositionBatchRequired
  if payload.apply role = role then .ok g
  else
    let edit := fun r => { payload.apply r with updatedAt := now }
    let g' := { g with roles := updateBy Role.id roleId edit g.roles }
    .ok (g'.bumpPermissionGeneration.queueGuildMutation .roleUpdate true)

/-- Overwrites for the role go with it, and so do its assignments, by the
foreign key. -/
def deleteRole (g : Guild) (actor : UserRef) (actorPermissions roleId : Nat) :
    Except GuildError Guild := do
  requirePermissions actorPermissions manageRoles
  let role ← found (g.role? roleId) .roleNotFound
  ensure (role.id ≠ g.id) .everyoneRoleImmutable
  requireUnmanagedRole role
  g.requireCanManageRole actor role
  let g' := g.bumpPermissionGeneration.queueGuildMutation .roleDelete true
  .ok { g' with
    overwrites := g'.overwrites.filter fun o =>
      ¬ (o.overwrite.targetType = .role ∧ o.overwrite.targetId = role.id)
    memberRoles := g'.memberRoles.filter fun h => h.2 ≠ role.id
    roles := g'.roles.filter fun r => r.id ≠ role.id }

end Guild

/-! ## Reordering -/

structure RolePosition where
  id : Nat
  position : Nat
  version : Nat
deriving DecidableEq, Repr

/-- A payload that passed its validators. -/
structure RolePositionBatch where
  roles : List RolePosition
  nonempty : roles ≠ []
  bounded : roles.length ≤ 250
  positive : ∀ item ∈ roles, 1 ≤ item.position
  uniqueIds : (roles.map RolePosition.id).Nodup
  uniquePositions : (roles.map RolePosition.position).Nodup

/-- One round of the loop. `actorRole` is `none` for the owner; it is never
moved itself, so the row it was read from stands for it throughout. -/
def repositionRole (actorRole : Option Role) (now : Nat) (acc : List Role × Bool)
    (item : RolePosition) : Except GuildError (List Role × Bool) := do
  let role ← found (lookupBy Role.id item.id acc.1) .roleOrderIncomplete
  if role.position = item.position then .ok acc
  else
    requireCurrentVersion role.updatedAt (some item.version)
    ensure (∀ a ∈ actorRole, roleReorderAllowed a role item.position) .roleHierarchy
    .ok (updateBy Role.id item.id
      (fun r => { r with position := item.position, updatedAt := now }) acc.1, true)

def repositionRoles (actorRole : Option Role) (now : Nat) :
    List RolePosition → List Role × Bool → Except GuildError (List Role × Bool)
  | [], acc => .ok acc
  | item :: rest, acc => do
      let acc' ← repositionRole actorRole now acc item
      repositionRoles actorRole now rest acc'

namespace Guild

/-- The roles a batch has to list: all but @everyone. -/
def movableRoles (g : Guild) : List Role := g.roles.filter fun r => r.id ≠ g.id

/-- `None` for the owner, the highest role for anyone else. -/
def reorderCeiling (g : Guild) (actor : UserRef) : Except GuildError (Option Role) :=
  if g.owner = actor then .ok none else some <$> found (g.highestRole actor) .valueError

def reorderRoles (g : Guild) (actor : UserRef) (actorPermissions : Nat)
    (payload : RolePositionBatch) (now : Nat) : Except GuildError Guild := do
  requirePermissions actorPermissions manageRoles
  ensure ((payload.roles.map RolePosition.id).toFinset = (g.movableRoles.map Role.id).toFinset)
    .roleOrderIncomplete
  ensure ((payload.roles.map RolePosition.position).toFinset
      = Finset.Icc 1 g.movableRoles.length) .roleOrderNotContiguous
  let actorRole ← g.reorderCeiling actor
  let (roles, changed) ← repositionRoles actorRole now payload.roles (g.roles, false)
  if changed then
    .ok (({ g with roles := roles }.bumpPermissionGeneration).queueGuildMutation .roleUpdate true)
  else .ok g

/-! ## Assignments -/

def holdsRole (g : Guild) (user : UserRef) (roleId : Nat) : Bool := (user, roleId) ∈ g.memberRoles

def assignRole (g : Guild) (actor target : UserRef) (actorPermissions roleId : Nat) :
    Except GuildError Guild := do
  requirePermissions actorPermissions manageRoles
  g.requireCanAssignMemberRole actor target
  let role ← found (g.role? roleId) .roleNotFound
  ensure (role.id ≠ g.id) .everyoneRoleImplicit
  requireUnmanagedRole role
  g.requireCanManageRole actor role
  if g.holdsRole target role.id then .ok g
  else
    let g' := { g with memberRoles := g.memberRoles ++ [(target, role.id)] }
    .ok ((g'.updateMember target fun m =>
      { m with temporary := false, memberVersion := m.memberVersion + 1 }).queueGuildMutation
        .memberRoleAdd true)

/-- The roles a member holds, as stored. -/
def explicitRoles (g : Guild) (user : UserRef) : List Nat :=
  (g.memberRoles.filter fun h => h.1 = user).map Prod.snd

/-- Checks on one role whose assignment changes. -/
def requireChangeableRole (g : Guild) (actor : UserRef) (roleId : Nat) :
    Except GuildError Unit := do
  let role ← found (g.role? roleId) .roleStateChanged
  requireUnmanagedRole role
  g.requireCanManageRole actor role

def replaceMemberRoles (g : Guild) (actor target : UserRef) (actorPermissions : Nat)
    (roleIds : List Nat) : Except GuildError Guild := do
  requirePermissions actorPermissions manageRoles
  g.requireCanAssignMemberRole actor target
  forEach roleIds fun id => do
    let role ← found (g.role? id) .roleNotFound
    ensure (role.id ≠ g.id) .everyoneRoleImplicit
  let current := g.explicitRoles target
  let added := roleIds.filter fun id => id ∉ current
  let removed := current.filter fun id => id ∉ roleIds
  if added = [] ∧ removed = [] then .ok g
  else
    forEach removed fun id => ensure (g.role? id ≠ none) .roleStateChanged
    forEach ((added ++ removed).mergeSort (· ≤ ·)) (g.requireChangeableRole actor)
    let g' := { g with
      memberRoles :=
        (g.memberRoles.filter fun h : UserRef × Nat => ¬ (h.1 = target ∧ h.2 ∈ removed))
        ++ added.map fun id => (target, id) }
    let g'' := g'.updateMember target fun m =>
      { m with temporary := m.temporary && added = []
               memberVersion := m.memberVersion + 1 }
    let events := (removed.map fun _ => GuildEvent.memberRoleRemove) ++
      added.map fun _ => GuildEvent.memberRoleAdd
    .ok (events.foldl (fun state event => state.queueGuildMutation event true) g'')

def removeRole (g : Guild) (actor target : UserRef) (actorPermissions roleId : Nat) :
    Except GuildError Guild := do
  requirePermissions actorPermissions manageRoles
  g.requireCanAssignMemberRole actor target
  let role ← found (g.role? roleId) .roleNotFound
  requireUnmanagedRole role
  g.requireCanManageRole actor role
  if g.holdsRole target role.id then
    let g' := { g with memberRoles := g.memberRoles.filter fun h => h ≠ (target, role.id) }
    .ok ((g'.updateMember target fun m =>
      { m with memberVersion := m.memberVersion + 1 }).queueGuildMutation .memberRoleRemove true)
  else .ok g

end Guild

/-! ## The endpoints as one step -/

/-- A role request with the mask it was served. -/
inductive RoleRequest where
  | create (payload : RoleCreate) (roleId : Nat)
  | update (roleId : Nat) (payload : RoleUpdate) (version : Option Nat)
  | delete (roleId : Nat)
  | reorder (payload : RolePositionBatch)
  | assign (target : UserRef) (roleId : Nat)
  | replace (target : UserRef) (roleIds : List Nat)
  | remove (target : UserRef) (roleId : Nat)

structure RoleCall where
  actorPermissions : Nat
  now : Nat
  request : RoleRequest

namespace Guild

def handleRole (g : Guild) (actor : UserRef) (call : RoleCall) : Except GuildError Guild :=
  match call.request with
  | .create payload roleId => g.createRole call.actorPermissions payload roleId call.now
  | .update roleId payload version =>
      g.updateRole actor call.actorPermissions roleId payload version call.now
  | .delete roleId => g.deleteRole actor call.actorPermissions roleId
  | .reorder payload => g.reorderRoles actor call.actorPermissions payload call.now
  | .assign target roleId => g.assignRole actor target call.actorPermissions roleId
  | .replace target roleIds => g.replaceMemberRoles actor target call.actorPermissions roleIds
  | .remove target roleId => g.removeRole actor target call.actorPermissions roleId

end Guild

end Kaede
