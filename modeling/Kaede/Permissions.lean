import Mathlib.Data.Nat.Bitwise

/-!
# Permission masks

`backend/app/core/permissions.py` and the pure half of
`backend/app/chat/permissions.py`: the permission bits, the dependency
table, `normalize_permission_dependencies` and `resolve_permissions`.

Masks are natural numbers. The masks of the source have defined bits only,
since others are refused where they come in, and on these `andNot a b` is
the source's `a & ~b`: the `~` of an `IntFlag` has no bits above the
defined ones. A dependency table row keeps the bit and its dependencies;
the labels, groups and channel types of `PERMISSION_METADATA` are read by
clients only.
-/

namespace Kaede

/-- `a & ~b` on masks of defined bits. -/
def andNot (a b : Nat) : Nat := a ^^^ (a &&& b)

namespace Permission

def createInvite : Nat := 1 <<< 0
def kickMembers : Nat := 1 <<< 1
def banMembers : Nat := 1 <<< 2
def administrator : Nat := 1 <<< 3
def manageChannels : Nat := 1 <<< 4
def manageGuild : Nat := 1 <<< 5
def addReactions : Nat := 1 <<< 6
def viewAuditLog : Nat := 1 <<< 7
def prioritySpeaker : Nat := 1 <<< 8
def viewChannel : Nat := 1 <<< 10
def sendMessages : Nat := 1 <<< 11
def sendTtsMessages : Nat := 1 <<< 12
def manageMessages : Nat := 1 <<< 13
def embedLinks : Nat := 1 <<< 14
def attachFiles : Nat := 1 <<< 15
def readMessageHistory : Nat := 1 <<< 16
def mentionEveryone : Nat := 1 <<< 17
def useExternalEmojis : Nat := 1 <<< 18
def connect : Nat := 1 <<< 20
def speak : Nat := 1 <<< 21
def muteMembers : Nat := 1 <<< 22
def deafenMembers : Nat := 1 <<< 23
def moveMembers : Nat := 1 <<< 24
def useVad : Nat := 1 <<< 25
def changeNickname : Nat := 1 <<< 26
def manageNicknames : Nat := 1 <<< 27
def manageRoles : Nat := 1 <<< 28
def manageWebhooks : Nat := 1 <<< 29
def manageEmojis : Nat := 1 <<< 30
def stream : Nat := 1 <<< 31
def useApplicationCommands : Nat := 1 <<< 32
def requestToSpeak : Nat := 1 <<< 33
def manageThreads : Nat := 1 <<< 34
def createPublicThreads : Nat := 1 <<< 35
def createPrivateThreads : Nat := 1 <<< 36
def sendMessagesInThreads : Nat := 1 <<< 38
def manageEvents : Nat := 1 <<< 39
def moderateMembers : Nat := 1 <<< 40
def banInstances : Nat := 1 <<< 41
def useSoundboard : Nat := 1 <<< 43
def createGuildExpressions : Nat := 1 <<< 44
def createEvents : Nat := 1 <<< 45
def useExternalSounds : Nat := 1 <<< 46
def sendVoiceMessages : Nat := 1 <<< 47
def setVoiceChannelStatus : Nat := 1 <<< 48
def sendPolls : Nat := 1 <<< 49
def useExternalApps : Nat := 1 <<< 50
def pinMessages : Nat := 1 <<< 51
def bypassSlowmode : Nat := 1 <<< 52
def createTrackerTasks : Nat := 1 <<< 53
def editOwnTrackerTasks : Nat := 1 <<< 54
def manageTrackerTasks : Nat := 1 <<< 55
def assignTrackerTasks : Nat := 1 <<< 56
def manageTracker : Nat := 1 <<< 57
def useExternalStickers : Nat := 1 <<< 58

end Permission

open Permission

structure PermissionMetadata where
  permission : Nat
  dependencies : List Nat := []

/-- `PERMISSION_METADATA`, in the source's order. -/
def permissionMetadata : List PermissionMetadata := [
  { permission := createInvite },
  { permission := kickMembers },
  { permission := banMembers },
  { permission := administrator },
  { permission := manageChannels },
  { permission := manageGuild },
  { permission := addReactions, dependencies := [viewChannel, readMessageHistory] },
  { permission := viewAuditLog },
  { permission := prioritySpeaker, dependencies := [connect, speak] },
  { permission := viewChannel },
  { permission := sendMessages, dependencies := [viewChannel] },
  { permission := sendTtsMessages, dependencies := [viewChannel, sendMessages] },
  { permission := manageMessages, dependencies := [viewChannel] },
  { permission := embedLinks, dependencies := [viewChannel] },
  { permission := attachFiles, dependencies := [viewChannel] },
  { permission := readMessageHistory, dependencies := [viewChannel] },
  { permission := mentionEveryone, dependencies := [viewChannel] },
  { permission := useExternalEmojis, dependencies := [viewChannel] },
  { permission := useExternalStickers, dependencies := [viewChannel] },
  { permission := connect, dependencies := [viewChannel] },
  { permission := speak, dependencies := [connect] },
  { permission := muteMembers },
  { permission := deafenMembers },
  { permission := moveMembers, dependencies := [connect] },
  { permission := useVad, dependencies := [speak] },
  { permission := changeNickname },
  { permission := manageNicknames },
  { permission := manageRoles },
  { permission := manageWebhooks },
  { permission := manageEmojis },
  { permission := stream, dependencies := [connect] },
  { permission := useApplicationCommands, dependencies := [viewChannel] },
  { permission := requestToSpeak, dependencies := [viewChannel, connect] },
  { permission := manageThreads, dependencies := [viewChannel] },
  { permission := createPublicThreads, dependencies := [viewChannel] },
  { permission := createPrivateThreads, dependencies := [viewChannel] },
  { permission := sendMessagesInThreads, dependencies := [viewChannel] },
  { permission := manageEvents },
  { permission := moderateMembers },
  { permission := banInstances },
  { permission := useSoundboard, dependencies := [viewChannel, connect, speak] },
  { permission := createGuildExpressions },
  { permission := createEvents },
  { permission := useExternalSounds,
    dependencies := [viewChannel, connect, speak, useSoundboard] },
  { permission := sendVoiceMessages, dependencies := [viewChannel] },
  { permission := setVoiceChannelStatus, dependencies := [viewChannel] },
  { permission := sendPolls, dependencies := [viewChannel] },
  { permission := useExternalApps, dependencies := [viewChannel] },
  { permission := pinMessages, dependencies := [viewChannel, readMessageHistory] },
  { permission := bypassSlowmode, dependencies := [viewChannel] },
  { permission := createTrackerTasks, dependencies := [viewChannel] },
  { permission := editOwnTrackerTasks, dependencies := [viewChannel] },
  { permission := manageTrackerTasks, dependencies := [viewChannel] },
  { permission := assignTrackerTasks, dependencies := [viewChannel] },
  { permission := manageTracker, dependencies := [viewChannel] }]

/-- The table describes every permission exactly once, so its bits sum to
`ALL_PERMISSIONS`. -/
def allPermissions : Nat := (permissionMetadata.map (·.permission)).sum

/-! ## Guild channel types -/

/-- The type numbers a guild channel can have, in the source's order:
0, 2, 4, 5, 10, 11, 12, 13, 15, 17. -/
inductive ChannelType where
  | text
  | voice
  | category
  | announcement
  | announcementThread
  | publicThread
  | privateThread
  | stageVoice
  | forum
  | tracker
deriving DecidableEq, Repr

namespace ChannelType

/-- `{10, 11, 12}` -/
def isThread : ChannelType → Bool
  | announcementThread | publicThread | privateThread => true
  | _ => false

/-- `{0, 5, 15}` -/
def isThreadParent : ChannelType → Bool
  | text | announcement | forum => true
  | _ => false

/-- `GUILD_VOICE_CHANNEL_TYPES` -/
def isVoice : ChannelType → Bool
  | voice | stageVoice => true
  | _ => false

/-- `GUILD_SEND_MESSAGES_CHANNEL_TYPES` -/
def sendsMessages : ChannelType → Bool
  | text | voice | announcement | stageVoice | forum => true
  | _ => false

end ChannelType

/-! ## Dependency normalization -/

def textDependent : Nat := sendMessages ||| embedLinks ||| attachFiles ||| mentionEveryone

def threadTextDependent : Nat := embedLinks ||| attachFiles ||| mentionEveryone

def voiceDependent : Nat := prioritySpeaker ||| speak ||| stream ||| useVad ||| moveMembers

def timeoutAllowed : Nat := viewChannel ||| readMessageHistory

/-- A thread takes `SEND_MESSAGES_IN_THREADS` wherever the table asks for
`SEND_MESSAGES`. -/
def dependencyMissing (channelType : ChannelType) (permissions dependency : Nat) : Bool :=
  if dependency = sendMessages ∧ channelType.isThread then
    permissions &&& sendMessagesInThreads = 0
  else permissions &&& dependency ≠ dependency

/-- One row of one pass of the `while changed` loop. -/
def stripRow (channelType : ChannelType) (acc : Nat × Bool) (row : PermissionMetadata) :
    Nat × Bool :=
  if acc.1 &&& row.permission = 0 then acc
  else if row.dependencies.any (dependencyMissing channelType acc.1) then
    (andNot acc.1 row.permission, true)
  else acc

def stripPass (channelType : ChannelType) (permissions : Nat) : Nat × Bool :=
  permissionMetadata.foldl (stripRow channelType) (permissions, false)

/-- The `while changed` loop. A pass that changes something clears a bit of
the table, so one pass for each row and a last one are enough. -/
def stripLoop (channelType : ChannelType) : Nat → Nat → Nat
  | 0, permissions => permissions
  | fuel + 1, permissions =>
      let (next, changed) := stripPass channelType permissions
      if changed then stripLoop channelType fuel next else next

/-- The masks taken off before the table is consulted. -/
def stripChannelDependents (channelType : ChannelType) (permissions : Nat) : Nat :=
  let p₁ := if channelType.sendsMessages ∧ permissions &&& sendMessages = 0 then
    andNot permissions textDependent else permissions
  let p₂ := if channelType.isThread ∧ p₁ &&& sendMessagesInThreads = 0 then
    andNot p₁ threadTextDependent else p₁
  let p₃ := if channelType.isVoice ∧ p₂ &&& connect = 0 then andNot p₂ voiceDependent else p₂
  if channelType = .voice ∧ p₃ &&& speak = 0 then andNot p₃ prioritySpeaker else p₃

def normalizePermissionDependencies (permissions : Nat) (channelType : Option ChannelType)
    (timedOut : Bool) : Nat :=
  match channelType with
  | none => permissions
  | some t =>
      if permissions &&& viewChannel = 0 then 0
      else
        let p := stripLoop t (permissionMetadata.length + 1) (stripChannelDependents t permissions)
        if timedOut then p &&& timeoutAllowed else p

/-! ## Overwrites -/

inductive TargetType where
  | role
  | member
deriving DecidableEq, Repr

structure PermissionOverwrite where
  targetId : Nat
  targetDomain : String
  targetType : TargetType
  allow : Nat
  deny : Nat
deriving DecidableEq, Repr

/-- `(permissions & ~deny) | allow` -/
def applyOverwrite (permissions deny allow : Nat) : Nat := andNot permissions deny ||| allow

/-- The masks the overwrites of the member's own roles add up to. -/
def roleMasks (everyone : Nat × String) (roleIds : List (Nat × String))
    (overwrites : List PermissionOverwrite) : Nat × Nat :=
  overwrites.foldl
    (fun acc item =>
      if item.targetType = .role ∧ (item.targetId, item.targetDomain) ≠ everyone ∧
          (item.targetId, item.targetDomain) ∈ roleIds then
        (acc.1 ||| item.deny, acc.2 ||| item.allow)
      else acc)
    (0, 0)

def resolvePermissions (owner : Bool) (user everyone : Nat × String)
    (roleIds : List (Nat × String))
    (basePermissions : Nat) (overwrites : List PermissionOverwrite)
    (channelType : Option ChannelType) (timedOut : Bool) : Nat :=
  if owner then allPermissions
  else
    let permissions :=
      if basePermissions &&& administrator ≠ 0 then allPermissions
      else
        let afterEveryone :=
          match overwrites.find? fun item =>
            item.targetType = .role ∧ (item.targetId, item.targetDomain) = everyone with
          | some item => applyOverwrite basePermissions item.deny item.allow
          | none => basePermissions
        let (roleDeny, roleAllow) := roleMasks everyone roleIds overwrites
        let afterRoles := applyOverwrite afterEveryone roleDeny roleAllow
        match overwrites.find? fun item =>
          item.targetType = .member ∧ (item.targetId, item.targetDomain) = user with
        | some item => applyOverwrite afterRoles item.deny item.allow
        | none => afterRoles
    normalizePermissionDependencies permissions channelType timedOut

end Kaede
