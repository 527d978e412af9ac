import Kaede.Requests
import Kaede.Runs
import Kaede.Tables

/-!
# Emojis and stickers of a guild

The authority of a guild creates, patches and deletes its emojis and
stickers (`backend/app/api/media.py`, `backend/app/api/expressions.py`) and
issues an event for each change. A replica follows the events, with
`apply_guild_mutation_event` of `backend/app/federation/guilds.py`, or
replaces what it has by a snapshot: `guild_snapshot_payload` writes one and
`apply_guild_snapshot` reads it.

Emojis and stickers share their columns but for the role restrictions of
the one and the description and tags of the other, so each operation is
defined once, over a type `ε` of such extra columns, and then at the two.

A snapshot carries fewer columns than an event: neither `available`, nor
role restrictions, nor tags. An applied snapshot leaves them as they were,
or at their defaults in a new row. What follows is about a snapshot whose
transaction commits: in which order its rows are written, and so whether
two rows may swap their names, is up to the database session.
-/

namespace Kaede

namespace Expressions

/-! ## Rows -/

structure Expression (ε : Type) where
  name : String
  animated : Bool
  available : Bool := true
  mediaHash : Option String
  extra : ε
deriving DecidableEq, Repr

structure RoleRef where
  id : Nat
  domain : String
deriving DecidableEq, Repr

/-- The rows of `emoji_role_restrictions` are part of their emoji here. -/
abbrev Emoji := Expression (List RoleRef)

structure StickerText where
  description : Option String := none
  tags : List String := []
deriving DecidableEq, Repr

abbrev Sticker := Expression StickerText

/-- The guild, with its roles at the authority and at the replica. -/
structure GuildRef where
  id : Nat
  domain : String
  roles : List Nat
deriving DecidableEq, Repr

/-! ## Names

`str.casefold` and the database's `lower` are the same on ASCII. -/

/-- What the two do beyond ASCII. -/
structure Folding where
  casefold : String → String
  lower : String → String

def ascii (s : String) : Prop := ∀ c ∈ s.toList, c.toNat < 128

instance (s : String) : Decidable (ascii s) := List.decidableBAll _ _

def asciiLower (s : String) : String := String.ofList (s.toList.map Char.toLower)

def casefold (u : Folding) (s : String) : String :=
  if ascii s then asciiLower s else u.casefold s

def lower (u : Folding) (s : String) : String := if ascii s then asciiLower s else u.lower s

/-- `[A-Za-z0-9_]{2,32}`. -/
def namePattern (s : String) : Prop :=
  2 ≤ s.toList.length ∧ s.toList.length ≤ 32 ∧ ∀ c ∈ s.toList, c.isAlphanum ∨ c = '_'

instance (s : String) : Decidable (namePattern s) :=
  letI : Decidable (∀ c ∈ s.toList, c.isAlphanum ∨ c = '_') := List.decidableBAll _ _
  inferInstanceAs (Decidable (_ ∧ _ ∧ _))

/-- `[0-9a-f]{64}`. -/
def digestPattern (s : String) : Prop :=
  s.toList.length = 64 ∧ ∀ c ∈ s.toList, c.isDigit ∨ ('a' ≤ c ∧ c ≤ 'f')

instance (s : String) : Decidable (digestPattern s) :=
  letI : Decidable (∀ c ∈ s.toList, c.isDigit ∨ ('a' ≤ c ∧ c ≤ 'f')) := List.decidableBAll _ _
  inferInstanceAs (Decidable (_ ∧ _))

/-! ## Requests

The values of a request have passed its schema. Role references are the
resolved ones. -/

/-- The pattern of `EmojiCommitRequest` and `EmojiUpdate`. -/
abbrev EmojiName := { s : String // namePattern s }

/-- `content_sha256` of the attachment. -/
abbrev MediaHash := { s : String // digestPattern s }

abbrev RoleRefs := { refs : List RoleRef // refs.length ≤ 100 }

/-- `clean_sticker_description`. -/
abbrev StickerDescription := { d : String // 2 ≤ d.toList.length ∧ d.toList.length ≤ 100 }

/-- `clean_sticker_tags` on a list that is not empty. -/
structure StickerTags where
  tags : List String
  bounds : 1 ≤ tags.length ∧ tags.length ≤ 10
  each : ∀ tag ∈ tags, tag ≠ "" ∧ tag.toList.length ≤ 100 ∧ ',' ∉ tag.toList
  nodup : tags.Nodup
  serialized : (",".intercalate tags).toList.length ≤ 200

inductive Mutation where
  | createEmoji (id : Nat) (name : EmojiName) (animated : Bool) (hash : MediaHash)
      (roles : RoleRefs)
  | patchEmoji (id : Nat) (name : Option EmojiName) (roles : Option RoleRefs)
  | deleteEmoji (id : Nat)
  | createSticker (id : Nat) (name : String) (description : Option StickerDescription)
      (animated : Bool) (hash : MediaHash) (tags : Option StickerTags)
  | patchSticker (id : Nat) (name : Option String)
      (description : Option (Option StickerDescription)) (tags : Option StickerTags)
  | deleteSticker (id : Nat)

/-- `media_emoji_limit` and `media_sticker_limit`. -/
structure MediaSettings where
  emojiLimit : Nat
  stickerLimit : Nat
  emojiLimit_le : emojiLimit ≤ 1000
  stickerLimit_le : stickerLimit ≤ 1000

/-! ## The authority -/

section

variable {ε : Type} (u : Folding)

/-- The checks of a new name. -/
def checkNew (label : String) (limit : Nat) (t : Table Nat (Expression ε)) (name : String) :
    Except String Unit := do
  ensure (¬ t.entries.length ≥ limit) (label ++ "_LIMIT_REACHED")
  ensure (∀ e ∈ t.entries, casefold u e.2.name ≠ casefold u name) (label ++ "_NAME_TAKEN")

/-- The rename of a patch. -/
def rename (label : String) (t : Table Nat (Expression ε)) (id : Nat) (row : Expression ε)
    (name : Option String) : Except String (Expression ε) :=
  match name with
  | none => .ok row
  | some name => do
      ensure (∀ e ∈ t.entries, e.1 ≠ id → lower u e.2.name ≠ casefold u name)
        (label ++ "_NAME_TAKEN")
      .ok { row with name }

end

/-- The check of a role in `create_emoji` and in `_validate_roles`. -/
def validateRole (g : GuildRef) (r : RoleRef) : Except String Unit := do
  ensure (¬ (r.domain ≠ g.domain ∨ r.id = g.id)) "EMOJI_ROLE_INVALID"
  ensure (r.id ∈ g.roles) "ROLE_NOT_FOUND"

def sameRoles (a b : List RoleRef) : Prop := (∀ r ∈ a, r ∈ b) ∧ ∀ r ∈ b, r ∈ a

instance (a b : List RoleRef) : Decidable (sameRoles a b) :=
  inferInstanceAs (Decidable (_ ∧ _))

/-- The `role_ids` of a patch. -/
def patchRoles (g : GuildRef) (current : List RoleRef) (roles : Option RoleRefs) :
    Except String (List RoleRef) :=
  match roles with
  | none => .ok current
  | some roles => do
      ensure roles.1.Nodup "EMOJI_ROLE_DUPLICATE"
      forEach roles.1 (validateRole g)
      .ok (if sameRoles current roles.1 then current else roles.1)

/-- An event carries the row as `emoji_payload` or `sticker_payload` shows it. -/
inductive Event where
  | emojiCreate (id : Nat) (emoji : Emoji)
  | emojiUpdate (id : Nat) (emoji : Emoji)
  | emojiDelete (id : Nat)
  | stickerCreate (id : Nat) (sticker : Sticker)
  | stickerUpdate (id : Nat) (sticker : Sticker)
  | stickerDelete (id : Nat)
deriving DecidableEq

/-- The two tables of a guild, at the authority or at a replica. -/
structure Shelf where
  emojis : Table Nat Emoji := ∅
  stickers : Table Nat Sticker := ∅
deriving DecidableEq

structure Authority where
  shelf : Shelf := {}
  /-- The events issued, oldest first. -/
  events : List Event := []
deriving DecidableEq

section

variable (u : Folding) (g : GuildRef) (cfg : MediaSettings)

/-- `create_emoji`. The restrictions have the role in their primary key, as
the emoji has its id. -/
def createEmoji (t : Table Nat Emoji) (id : Nat) (name : EmojiName) (animated : Bool)
    (hash : MediaHash) (roles : RoleRefs) : Except String Emoji := do
  checkNew u "EMOJI" cfg.emojiLimit t name.1
  forEach roles.1 (validateRole g)
  ensure (roles.1.Nodup ∧ t.lookup id = none) "IntegrityError"
  .ok { name := name.1, animated, mediaHash := some hash.1, extra := roles.1 }

/-- `_patch_emoji`. -/
def patchEmoji (t : Table Nat Emoji) (id : Nat) (name : Option EmojiName)
    (roles : Option RoleRefs) : Except String Emoji := do
  let emoji ← found (t.lookup id) "EMOJI_NOT_FOUND"
  let emoji ← rename u "EMOJI" t id emoji (name.map (·.1))
  let roles ← patchRoles g emoji.extra roles
  .ok { emoji with extra := roles }

/-- `create_sticker`. -/
def createSticker (t : Table Nat Sticker) (id : Nat) (name : String)
    (description : Option StickerDescription) (animated : Bool) (hash : MediaHash)
    (tags : Option StickerTags) : Except String Sticker := do
  checkNew u "STICKER" cfg.stickerLimit t name
  ensure (t.lookup id = none) "IntegrityError"
  .ok { name, animated, mediaHash := some hash.1
        extra := {
          description := description.map (·.1)
          tags := (tags.map (·.tags)).getD [casefold u name] } }

/-- `_patch_sticker`. -/
def patchSticker (t : Table Nat Sticker) (id : Nat) (name : Option String)
    (description : Option (Option StickerDescription)) (tags : Option StickerTags) :
    Except String Sticker := do
  let sticker ← found (t.lookup id) "STICKER_NOT_FOUND"
  let sticker ← rename u "STICKER" t id sticker name
  .ok { sticker with extra := {
    description := (description.map (·.map (·.1))).getD sticker.extra.description
    tags := (tags.map (·.tags)).getD sticker.extra.tags } }

/-- A mutation, and the event it queues. -/
def Shelf.mutate (s : Shelf) : Mutation → Except String (Shelf × Event)
  | .createEmoji id name animated hash roles => do
      let emoji ← createEmoji u g cfg s.emojis id name animated hash roles
      .ok ({ s with emojis := s.emojis.insert id emoji }, .emojiCreate id emoji)
  | .patchEmoji id name roles => do
      let emoji ← patchEmoji u g s.emojis id name roles
      .ok ({ s with emojis := s.emojis.insert id emoji }, .emojiUpdate id emoji)
  | .deleteEmoji id => do
      let _ ← found (s.emojis.lookup id) "EMOJI_NOT_FOUND"
      .ok ({ s with emojis := s.emojis.erase id }, .emojiDelete id)
  | .createSticker id name description animated hash tags => do
      let sticker ← createSticker u cfg s.stickers id name description animated hash tags
      .ok ({ s with stickers := s.stickers.insert id sticker }, .stickerCreate id sticker)
  | .patchSticker id name description tags => do
      let sticker ← patchSticker u s.stickers id name description tags
      .ok ({ s with stickers := s.stickers.insert id sticker }, .stickerUpdate id sticker)
  | .deleteSticker id => do
      let _ ← found (s.stickers.lookup id) "STICKER_NOT_FOUND"
      .ok ({ s with stickers := s.stickers.erase id }, .stickerDelete id)

def step (a : Authority) (m : Mutation) : Option Authority :=
  (a.shelf.mutate u g cfg m).toOption.map fun outcome =>
    { shelf := outcome.1, events := a.events ++ [outcome.2] }

end

/-! ## A replica that follows the events

The branches of `apply_guild_mutation_event`. -/

def hashOk : Option String → Prop
  | none => False
  | some hash => digestPattern hash

instance : DecidablePred hashOk
  | none => inferInstanceAs (Decidable False)
  | some hash => inferInstanceAs (Decidable (digestPattern hash))

def tagsOk (tags : List String) : Prop :=
  1 ≤ tags.length ∧ tags.length ≤ 10 ∧ (∀ tag ∈ tags, tag ≠ "" ∧ tag.toList.length ≤ 100) ∧
    tags.Nodup

instance (tags : List String) : Decidable (tagsOk tags) :=
  inferInstanceAs (Decidable (_ ∧ _ ∧ _ ∧ _))

def descriptionOk (description : Option String) : Prop :=
  ∀ d ∈ description, d.toList.length ≤ 100

instance (description : Option String) : Decidable (descriptionOk description) :=
  inferInstanceAs (Decidable (∀ d ∈ description, d.toList.length ≤ 100))

section

variable (u : Folding) (g : GuildRef)

def ensureName {ε : Type} (label : String) (t : Table Nat (Expression ε)) (id : Nat)
    (name : String) : Except String Unit :=
  ensure (∀ e ∈ t.entries, e.1 ≠ id → lower u e.2.name ≠ casefold u name)
    (label ++ " mutation name conflicts with another " ++ label)

def eventRole (r : RoleRef) : Except String Unit := do
  ensure (¬ (r.domain ≠ g.domain ∨ r.id = g.id)) "emoji mutation role is outside the guild"
  ensure (r.id ∈ g.roles) "emoji mutation role does not exist"

def upsertEmoji (t : Table Nat Emoji) (id : Nat) (raw : Emoji) :
    Except String (Table Nat Emoji) := do
  ensure (namePattern raw.name ∧ hashOk raw.mediaHash ∧ raw.extra.length ≤ 100)
    "emoji mutation fields are invalid"
  forEach raw.extra (eventRole g)
  ensure raw.extra.Nodup "emoji mutation roles must be unique"
  ensureName u "emoji" t id raw.name
  .ok (t.insert id raw)

def upsertSticker (t : Table Nat Sticker) (id : Nat) (raw : Sticker) :
    Except String (Table Nat Sticker) := do
  ensure (namePattern raw.name ∧ descriptionOk raw.extra.description ∧ hashOk raw.mediaHash ∧
    tagsOk raw.extra.tags) "sticker mutation fields are invalid"
  ensureName u "sticker" t id raw.name
  .ok (t.insert id raw)

def Shelf.apply (s : Shelf) : Event → Except String Shelf
  | .emojiCreate id raw | .emojiUpdate id raw => do
      let emojis ← upsertEmoji u g s.emojis id raw
      .ok { s with emojis }
  | .emojiDelete id => .ok { s with emojis := s.emojis.erase id }
  | .stickerCreate id raw | .stickerUpdate id raw => do
      let stickers ← upsertSticker u s.stickers id raw
      .ok { s with stickers }
  | .stickerDelete id => .ok { s with stickers := s.stickers.erase id }

def Shelf.applyAll (s : Shelf) : List Event → Except String Shelf
  | [] => .ok s
  | e :: es => do
      let s ← s.apply u g e
      s.applyAll es

end

/-! ## A replica that takes a snapshot -/

/-- A row of a snapshot; `δ` is what it has of the extra columns. -/
structure SnapshotRow (δ : Type) where
  id : Nat
  name : String
  animated : Bool
  mediaHash : String
  extra : δ
deriving DecidableEq, Repr

structure Snapshot where
  emojis : List (SnapshotRow Unit)
  stickers : List (SnapshotRow (Option String))
deriving DecidableEq, Repr

section

variable {ε δ : Type}

/-- The comprehensions of `guild_snapshot_payload`. -/
def encodeRows (extra : ε → δ) (t : Table Nat (Expression ε)) : List (SnapshotRow δ) :=
  t.entries.filterMap fun e => e.2.mediaHash.map fun hash =>
    { id := e.1, name := e.2.name, animated := e.2.animated, mediaHash := hash,
      extra := extra e.2.extra }

/-- The checks of `validate_guild_snapshot`. -/
def validateRows (u : Folding) (identity name fields : String) (extraOk : δ → Prop)
    [DecidablePred extraOk] (rows : List (SnapshotRow δ)) : Except String Unit := do
  ensure (rows.length ≤ 1000) "guild snapshot collection exceeds its protocol bound"
  ensure (rows.map (·.id)).Nodup identity
  ensure (rows.map fun row => casefold u row.name).Nodup name
  forEach rows fun row => do
    ensure (namePattern row.name) name
    ensure (digestPattern row.mediaHash ∧ extraOk row.extra) fields

/-- A row of the snapshot over what the replica has, or over a new row. -/
def loadRow (fresh : ε) (write : δ → ε → ε) (loaded : Option (Expression ε))
    (row : SnapshotRow δ) : Expression ε :=
  { name := row.name
    animated := row.animated
    available := (loaded.map (·.available)).getD true
    mediaHash := some row.mediaHash
    extra := write row.extra ((loaded.map (·.extra)).getD fresh) }

/-- Rows the snapshot omits are deleted, the others written. -/
def applyRows (fresh : ε) (write : δ → ε → ε) (t : Table Nat (Expression ε))
    (rows : List (SnapshotRow δ)) : Table Nat (Expression ε) :=
  rows.foldl (fun t row => t.insert row.id (loadRow fresh write (t.lookup row.id) row))
    (t.eraseAll (t.keys.filter (· ∉ rows.map (·.id))))

end

/-- `guild_snapshot_payload`. -/
def Shelf.snapshot (s : Shelf) : Snapshot where
  emojis := encodeRows (fun _ => ()) s.emojis
  stickers := encodeRows StickerText.description s.stickers

def applyEmojis (t : Table Nat Emoji) (rows : List (SnapshotRow Unit)) : Table Nat Emoji :=
  applyRows [] (fun _ roles => roles) t rows

def applyStickers (t : Table Nat Sticker) (rows : List (SnapshotRow (Option String))) :
    Table Nat Sticker :=
  applyRows {} (fun description text => { text with description }) t rows

def validateEmojis (u : Folding) (rows : List (SnapshotRow Unit)) : Except String Unit :=
  validateRows u "guild snapshot emoji identity is invalid" "guild snapshot emoji name is invalid"
    "guild snapshot emoji media identity is invalid" (fun _ => True) rows

def validateStickers (u : Folding) (rows : List (SnapshotRow (Option String))) :
    Except String Unit :=
  validateRows u "guild snapshot sticker identity is invalid"
    "guild snapshot sticker fields are invalid" "guild snapshot sticker fields are invalid"
    descriptionOk rows

/-- `validate_guild_snapshot`, then `apply_guild_snapshot`. -/
def Shelf.applySnapshot (u : Folding) (s : Shelf) (snapshot : Snapshot) : Except String Shelf := do
  validateEmojis u snapshot.emojis
  validateStickers u snapshot.stickers
  .ok { emojis := applyEmojis s.emojis snapshot.emojis
        stickers := applyStickers s.stickers snapshot.stickers }

/-! ## Names and tables -/

section

variable {ε δ : Type} {u : Folding} {s : String} {t : Table Nat (Expression ε)} {limit : Nat}
  {extraOk : ε → Prop} {id : Nat} {row : Expression ε}

theorem toNat_lt_of_isAlphanum {c : Char} (h : c.isAlphanum) : c.toNat < 128 := by
  have hle {z : Char} (hz : z.toNat < 128) (hc : c.val ≤ z.val) : c.toNat < 128 :=
    lt_of_le_of_lt (UInt32.le_iff_toNat_le.mp hc) hz
  obtain halpha | hdigit := (Bool.or_eq_true _ _).mp h
  · obtain hupper | hlower := (Bool.or_eq_true _ _).mp halpha
    · exact hle (z := 'Z') (by decide) (of_decide_eq_true hupper).2
    · exact hle (z := 'z') (by decide) (of_decide_eq_true ((Bool.and_eq_true _ _).mp hlower).2)
  · exact hle (z := '9') (by decide) (of_decide_eq_true ((Bool.and_eq_true _ _).mp hdigit).2)

theorem ascii_of_namePattern (h : namePattern s) : ascii s := by
  intro c hc
  obtain hc | rfl := h.2.2 c hc
  · exact toNat_lt_of_isAlphanum hc
  · decide

theorem casefold_eq_lower (u : Folding) (h : namePattern s) : casefold u s = lower u s := by
  rw [casefold, lower, if_pos (ascii_of_namePattern h), if_pos (ascii_of_namePattern h)]

/-- The default tag of a sticker. -/
theorem tagsOk_name (h : namePattern s) : tagsOk [casefold u s] := by
  have hlength : (casefold u s).toList.length = s.toList.length := by
    rw [casefold, if_pos (ascii_of_namePattern h), asciiLower, String.toList_ofList,
      List.length_map]
  refine ⟨le_rfl, by simp, fun tag htag => ?_, List.nodup_singleton _⟩
  obtain rfl := List.mem_singleton.mp htag
  refine ⟨fun hempty => ?_, ?_⟩
  · rw [hempty] at hlength
    have := h.1
    simp at hlength
    omega
  · rw [hlength]
    exact Nat.le_trans h.2.1 (by decide)

theorem StickerTags.ok (tags : StickerTags) : tagsOk tags.tags :=
  ⟨tags.bounds.1, tags.bounds.2, fun tag htag => ⟨(tags.each tag htag).1, (tags.each tag htag).2.1⟩,
    tags.nodup⟩

theorem mem_entries (h : t.lookup id = some row) : ⟨id, row⟩ ∈ t.entries :=
  AList.mem_lookup_iff.mp h

/-- A row as the authority keeps it, if its name may be replicated. -/
structure Expression.Ok (extraOk : ε → Prop) (row : Expression ε) : Prop where
  name : namePattern row.name
  hash : hashOk row.mediaHash
  available : row.available = true
  extra : extraOk row.extra

structure TableOk (u : Folding) (limit : Nat) (extraOk : ε → Prop)
    (t : Table Nat (Expression ε)) : Prop where
  rows : ∀ id row, t.lookup id = some row → row.Ok extraOk
  names : ∀ id row id' row', t.lookup id = some row → t.lookup id' = some row' → id ≠ id' →
    casefold u row.name ≠ casefold u row'.name
  length : t.entries.length ≤ limit

theorem TableOk.empty : TableOk u limit extraOk (∅ : Table Nat (Expression ε)) where
  rows _ _ h := by cases h
  names _ _ _ _ h := by cases h
  length := Nat.zero_le _

theorem TableOk.erase (h : TableOk u limit extraOk t) (id : Nat) :
    TableOk u limit extraOk (t.erase id) := by
  have hkeep : ∀ j row, (t.erase id).lookup j = some row → t.lookup j = some row := by
    intro j row hrow
    rw [Table.lookup_erase_ite] at hrow
    split at hrow
    · cases hrow
    · exact hrow
  refine ⟨fun j row hrow => h.rows j row (hkeep j row hrow), ?_, ?_⟩
  · intro j row j' row' hrow hrow'
    exact h.names j row j' row' (hkeep j row hrow) (hkeep j' row' hrow')
  · have hkerase : (t.erase id).entries = List.kerase id t.entries := rfl
    rw [hkerase]
    exact Nat.le_trans (List.kerase_sublist id t.entries).length_le h.length

theorem length_insert_of_mem (hid : id ∈ t) : (t.insert id row).entries.length =
    t.entries.length := by
  have hkeys : ∀ t : Table Nat (Expression ε), t.entries.length = t.keys.length :=
    fun t => (List.length_map _).symm
  rw [hkeys, hkeys, AList.keys_insert, List.length_cons, List.length_erase_of_mem hid]
  have : 0 < t.keys.length := List.length_pos_of_mem hid
  omega

/-- A row comes in under a name no other row has. -/
theorem TableOk.insert (h : TableOk u limit extraOk t) (hrow : row.Ok extraOk)
    (hname : ∀ j other, t.lookup j = some other → j ≠ id →
      casefold u other.name ≠ casefold u row.name)
    (hlength : id ∉ t → t.entries.length < limit) :
    TableOk u limit extraOk (t.insert id row) := by
  refine ⟨?_, ?_, ?_⟩
  · intro j other hother
    obtain ⟨-, rfl⟩ | ⟨-, hother⟩ := Table.lookup_insert_eq_some.mp hother
    · exact hrow
    · exact h.rows j other hother
  · intro j other j' other' hother hother' hne
    obtain ⟨rfl, rfl⟩ | ⟨hj, hold⟩ := Table.lookup_insert_eq_some.mp hother
    · obtain ⟨rfl, -⟩ | ⟨hj', hold'⟩ := Table.lookup_insert_eq_some.mp hother'
      · exact absurd rfl hne
      · exact (hname j' other' hold' hj').symm
    · obtain ⟨rfl, rfl⟩ | ⟨-, hold'⟩ := Table.lookup_insert_eq_some.mp hother'
      · exact hname j other hold hj
      · exact h.names j other j' other' hold hold' hne
  · by_cases hid : id ∈ t
    · rw [length_insert_of_mem hid]
      exact h.length
    · rw [AList.entries_insert_of_notMem hid]
      exact hlength hid

/-- The name check of the replica, from that of the authority. -/
theorem TableOk.ensureName (h : TableOk u limit extraOk t) {label name : String}
    (hname : ∀ j other, t.lookup j = some other → j ≠ id →
      casefold u other.name ≠ casefold u name) :
    ensureName u label t id name = .ok () := by
  refine ensure_eq_ok.mpr fun e he hne => ?_
  have hlookup : t.lookup e.1 = some e.2 := AList.mem_lookup_iff.mpr he
  rw [← casefold_eq_lower u (h.rows e.1 e.2 hlookup).name]
  exact hname e.1 e.2 hlookup hne

theorem checkNew_ok {label name : String} (h : checkNew u label limit t name = .ok ()) :
    t.entries.length < limit ∧
      ∀ j other, t.lookup j = some other → casefold u other.name ≠ casefold u name := by
  obtain ⟨hlimit, h⟩ := check_bind_eq_ok.mp h
  refine ⟨Nat.lt_of_not_le (ensure_eq_ok.mp hlimit), ?_⟩
  exact fun j other hother => ensure_eq_ok.mp h ⟨j, other⟩ (mem_entries hother)

theorem rename_ok (ht : TableOk u limit extraOk t) (hid : t.lookup id = some row)
    {label : String} {name : Option String} {renamed : Expression ε}
    (h : rename u label t id row name = .ok renamed) :
    renamed = { row with name := name.getD row.name } ∧
      ∀ j other, t.lookup j = some other → j ≠ id →
        casefold u other.name ≠ casefold u renamed.name := by
  cases name with
  | none =>
    obtain rfl := Except.ok.inj h
    exact ⟨rfl, fun j other hother hne => ht.names j other id row hother hid hne⟩
  | some name =>
    obtain ⟨hname, h⟩ := check_bind_eq_ok.mp h
    obtain rfl := Except.ok.inj h
    refine ⟨rfl, fun j other hother hne => ?_⟩
    rw [casefold_eq_lower u (ht.rows j other hother).name]
    exact ensure_eq_ok.mp hname ⟨j, other⟩ (mem_entries hother) hne

end

/-! ## Events -/

section

variable {u : Folding} {g : GuildRef} {cfg : MediaSettings} {s s' : Shelf} {e : Event} {id : Nat}

def RoleRef.Ok (g : GuildRef) (r : RoleRef) : Prop :=
  r.domain = g.domain ∧ r.id ≠ g.id ∧ r.id ∈ g.roles

def rolesOk (g : GuildRef) (roles : List RoleRef) : Prop :=
  roles.length ≤ 100 ∧ roles.Nodup ∧ ∀ r ∈ roles, r.Ok g

def textOk (text : StickerText) : Prop := descriptionOk text.description ∧ tagsOk text.tags

structure Shelf.Ok (u : Folding) (g : GuildRef) (cfg : MediaSettings) (s : Shelf) : Prop where
  emojis : TableOk u cfg.emojiLimit (rolesOk g) s.emojis
  stickers : TableOk u cfg.stickerLimit textOk s.stickers

/-- The name of a sticker is one that replicas take. The names of emojis
always are. -/
def Event.Replicable : Event → Prop
  | .stickerCreate _ sticker | .stickerUpdate _ sticker => namePattern sticker.name
  | _ => True

instance : DecidablePred Event.Replicable
  | .stickerCreate _ sticker => inferInstanceAs (Decidable (namePattern sticker.name))
  | .stickerUpdate _ sticker => inferInstanceAs (Decidable (namePattern sticker.name))
  | .stickerDelete _ => inferInstanceAs (Decidable True)
  | .emojiCreate _ _ => inferInstanceAs (Decidable True)
  | .emojiUpdate _ _ => inferInstanceAs (Decidable True)
  | .emojiDelete _ => inferInstanceAs (Decidable True)

theorem validateRole_ok {r : RoleRef} : validateRole g r = .ok () ↔ r.Ok g := by
  rw [validateRole, check_bind_eq_ok, ensure_eq_ok, ensure_eq_ok, RoleRef.Ok, not_or, not_not,
    and_assoc]

theorem eventRole_ok {r : RoleRef} : eventRole g r = .ok () ↔ r.Ok g := by
  rw [eventRole, check_bind_eq_ok, ensure_eq_ok, ensure_eq_ok, RoleRef.Ok, not_or, not_not,
    and_assoc]

theorem upsertEmoji_ok {t : Table Nat Emoji} {raw : Emoji}
    (ht : TableOk u cfg.emojiLimit (rolesOk g) t) (hraw : raw.Ok (rolesOk g))
    (hname : ∀ j other, t.lookup j = some other → j ≠ id →
      casefold u other.name ≠ casefold u raw.name) :
    upsertEmoji u g t id raw = .ok (t.insert id raw) := by
  refine check_bind_eq_ok.mpr ⟨ensure_eq_ok.mpr ⟨hraw.name, hraw.hash, hraw.extra.1⟩, ?_⟩
  refine check_bind_eq_ok.mpr ⟨forEach_eq_ok.mpr fun r hr => ?_, ?_⟩
  · exact eventRole_ok.mpr (hraw.extra.2.2 r hr)
  · refine check_bind_eq_ok.mpr ⟨ensure_eq_ok.mpr hraw.extra.2.1, ?_⟩
    exact check_bind_eq_ok.mpr ⟨ht.ensureName hname, rfl⟩

theorem upsertSticker_ok {t : Table Nat Sticker} {raw : Sticker}
    (ht : TableOk u cfg.stickerLimit textOk t) (hraw : raw.Ok textOk)
    (hname : ∀ j other, t.lookup j = some other → j ≠ id →
      casefold u other.name ≠ casefold u raw.name) :
    upsertSticker u t id raw = .ok (t.insert id raw) := by
  refine check_bind_eq_ok.mpr ⟨ensure_eq_ok.mpr ?_, ?_⟩
  · exact ⟨hraw.name, hraw.extra.1, hraw.hash, hraw.extra.2⟩
  · exact check_bind_eq_ok.mpr ⟨ht.ensureName hname, rfl⟩

/-- A valid emoji under a new name reaches both tables. -/
theorem Shelf.Ok.insertEmoji (hs : s.Ok u g cfg) {emoji : Emoji} (hemoji : emoji.Ok (rolesOk g))
    (hname : ∀ j other, s.emojis.lookup j = some other → j ≠ id →
      casefold u other.name ≠ casefold u emoji.name)
    (hlength : id ∉ s.emojis → s.emojis.entries.length < cfg.emojiLimit) :
    ((do let emojis ← upsertEmoji u g s.emojis id emoji; .ok { s with emojis }) :
        Except String Shelf) = .ok { s with emojis := s.emojis.insert id emoji } ∧
      Shelf.Ok u g cfg { s with emojis := s.emojis.insert id emoji } := by
  refine ⟨?_, hs.emojis.insert hemoji hname hlength, hs.stickers⟩
  rw [upsertEmoji_ok hs.emojis hemoji hname]
  rfl

theorem Shelf.Ok.insertSticker (hs : s.Ok u g cfg) {sticker : Sticker}
    (hsticker : sticker.Ok textOk)
    (hname : ∀ j other, s.stickers.lookup j = some other → j ≠ id →
      casefold u other.name ≠ casefold u sticker.name)
    (hlength : id ∉ s.stickers → s.stickers.entries.length < cfg.stickerLimit) :
    ((do let stickers ← upsertSticker u s.stickers id sticker; .ok { s with stickers }) :
        Except String Shelf) = .ok { s with stickers := s.stickers.insert id sticker } ∧
      Shelf.Ok u g cfg { s with stickers := s.stickers.insert id sticker } := by
  refine ⟨?_, hs.emojis, hs.stickers.insert hsticker hname hlength⟩
  rw [upsertSticker_ok hs.stickers hsticker hname]
  rfl

theorem patchRoles_ok {current roles' : List RoleRef} {roles : Option RoleRefs}
    (hcurrent : rolesOk g current) (h : patchRoles g current roles = .ok roles') :
    rolesOk g roles' := by
  cases roles with
  | none =>
    obtain rfl := Except.ok.inj h
    exact hcurrent
  | some roles =>
    obtain ⟨hnodup, h⟩ := check_bind_eq_ok.mp h
    obtain ⟨hvalid, h⟩ := check_bind_eq_ok.mp h
    rw [← Except.ok.inj h]
    split
    · exact hcurrent
    · exact ⟨roles.2, ensure_eq_ok.mp hnodup,
        fun r hr => validateRole_ok.mp (forEach_eq_ok.mp hvalid r hr)⟩

/-- The event of a mutation does at a replica in step with the authority what
the mutation did there. -/
theorem Shelf.Ok.apply_event (hs : s.Ok u g cfg) {m : Mutation}
    (h : s.mutate u g cfg m = .ok (s', e)) (he : e.Replicable) :
    s.apply u g e = .ok s' ∧ s'.Ok u g cfg := by
  cases m with
  | createEmoji id name animated hash roles =>
    obtain ⟨emoji, hemoji, h⟩ := bind_eq_ok.mp h
    obtain ⟨rfl, rfl⟩ := Prod.mk.inj (Except.ok.inj h)
    obtain ⟨hnew, hemoji⟩ := check_bind_eq_ok.mp hemoji
    obtain ⟨hroles, hemoji⟩ := check_bind_eq_ok.mp hemoji
    obtain ⟨hkeys, hemoji⟩ := check_bind_eq_ok.mp hemoji
    obtain rfl := Except.ok.inj hemoji
    obtain ⟨hlimit, hname⟩ := checkNew_ok hnew
    refine hs.insertEmoji ⟨name.2, hash.2, rfl, roles.2, (ensure_eq_ok.mp hkeys).1, ?_⟩
      (fun j other hother _ => hname j other hother) fun _ => hlimit
    exact fun r hr => validateRole_ok.mp (forEach_eq_ok.mp hroles r hr)
  | patchEmoji id name roles =>
    obtain ⟨emoji, hemoji, h⟩ := bind_eq_ok.mp h
    obtain ⟨rfl, rfl⟩ := Prod.mk.inj (Except.ok.inj h)
    obtain ⟨row, hrow, hemoji⟩ := found_bind_eq_ok.mp hemoji
    obtain ⟨renamed, hrenamed, hemoji⟩ := bind_eq_ok.mp hemoji
    obtain ⟨roles', hroles, hemoji⟩ := bind_eq_ok.mp hemoji
    obtain rfl := Except.ok.inj hemoji
    obtain ⟨rfl, hname⟩ := rename_ok hs.emojis hrow hrenamed
    have hok := hs.emojis.rows id row hrow
    refine hs.insertEmoji ⟨?_, hok.hash, hok.available, patchRoles_ok hok.extra hroles⟩ hname
      fun hid => absurd (AList.lookup_isSome.mp (by rw [hrow]; rfl)) hid
    cases name with
    | none => exact hok.name
    | some name => exact name.2
  | deleteEmoji id =>
    obtain ⟨-, -, h⟩ := found_bind_eq_ok.mp h
    obtain ⟨rfl, rfl⟩ := Prod.mk.inj (Except.ok.inj h)
    exact ⟨rfl, hs.emojis.erase id, hs.stickers⟩
  | createSticker id name description animated hash tags =>
    obtain ⟨sticker, hsticker, h⟩ := bind_eq_ok.mp h
    obtain ⟨rfl, rfl⟩ := Prod.mk.inj (Except.ok.inj h)
    obtain ⟨hnew, hsticker⟩ := check_bind_eq_ok.mp hsticker
    obtain ⟨-, hsticker⟩ := check_bind_eq_ok.mp hsticker
    obtain rfl := Except.ok.inj hsticker
    obtain ⟨hlimit, hname⟩ := checkNew_ok hnew
    refine hs.insertSticker ⟨he, hash.2, rfl, fun d hd => ?_, ?_⟩
      (fun j other hother _ => hname j other hother) fun _ => hlimit
    · obtain ⟨d, -, rfl⟩ := Option.map_eq_some_iff.mp hd
      exact d.2.2
    · cases tags with
      | none => exact tagsOk_name he
      | some tags => exact tags.ok
  | patchSticker id name description tags =>
    obtain ⟨sticker, hsticker, h⟩ := bind_eq_ok.mp h
    obtain ⟨rfl, rfl⟩ := Prod.mk.inj (Except.ok.inj h)
    obtain ⟨row, hrow, hsticker⟩ := found_bind_eq_ok.mp hsticker
    obtain ⟨renamed, hrenamed, hsticker⟩ := bind_eq_ok.mp hsticker
    obtain rfl := Except.ok.inj hsticker
    obtain ⟨rfl, hname⟩ := rename_ok hs.stickers hrow hrenamed
    have hok := hs.stickers.rows id row hrow
    refine hs.insertSticker ⟨he, hok.hash, hok.available, fun d hd => ?_, ?_⟩ hname
      fun hid => absurd (AList.lookup_isSome.mp (by rw [hrow]; rfl)) hid
    · cases description with
      | none => exact hok.extra.1 d hd
      | some description =>
        obtain ⟨d, -, rfl⟩ := Option.map_eq_some_iff.mp hd
        exact d.2.2
    · cases tags with
      | none => exact hok.extra.2
      | some tags => exact tags.ok
  | deleteSticker id =>
    obtain ⟨-, -, h⟩ := found_bind_eq_ok.mp h
    obtain ⟨rfl, rfl⟩ := Prod.mk.inj (Except.ok.inj h)
    exact ⟨rfl, hs.emojis, hs.stickers.erase id⟩

theorem Shelf.applyAll_append {es : List Event} :
    s.applyAll u g (es ++ [e]) = (s.applyAll u g es >>= fun s => s.apply u g e) := by
  induction es generalizing s with
  | nil =>
    show (s.apply u g e >>= fun s => .ok s) = s.apply u g e
    cases s.apply u g e <;> rfl
  | cons x es ih =>
    show (s.apply u g x >>= fun s => s.applyAll u g (es ++ [e])) =
      ((s.apply u g x >>= fun s => s.applyAll u g es) >>= fun s => s.apply u g e)
    cases s.apply u g x with
    | error _ => rfl
    | ok s₁ => exact ih

/-- A replica that refuses no event got none it has to refuse. -/
theorem Shelf.replicable_of_applyAll {es : List Event} (h : s.applyAll u g es = .ok s') :
    ∀ e ∈ es, e.Replicable := by
  induction es generalizing s with
  | nil => exact fun e he => absurd he List.not_mem_nil
  | cons x es ih =>
    obtain ⟨s₁, hx, h⟩ := bind_eq_ok.mp h
    intro e he
    rcases List.mem_cons.mp he with rfl | he
    · cases e with
      | stickerCreate id raw | stickerUpdate id raw =>
        obtain ⟨stickers, hsticker, -⟩ := bind_eq_ok.mp hx
        obtain ⟨hfields, -⟩ := check_bind_eq_ok.mp hsticker
        exact (ensure_eq_ok.mp hfields).1
      | _ => trivial
    · exact ih h e he

/-- A replica that follows the events holds what the authority holds. -/
theorem applyAll_events {is : List Mutation} {a : Authority}
    (hrun : Exec (step u g cfg) Always {} is a) (hevents : ∀ e ∈ a.events, e.Replicable) :
    Shelf.applyAll u g {} a.events = .ok a.shelf ∧ a.shelf.Ok u g cfg := by
  refine hrun.invariant (I := fun a : Authority => (∀ e ∈ a.events, e.Replicable) →
    Shelf.applyAll u g {} a.events = .ok a.shelf ∧ a.shelf.Ok u g cfg) ?_ ?_ hevents
  · intro a m a' ih _ hstep hevents
    obtain ⟨⟨s', e⟩, houtcome, rfl⟩ := Option.map_eq_some_iff.mp hstep
    rw [toOption_eq_some] at houtcome
    obtain ⟨hall, hok⟩ := ih fun e he => hevents e (List.mem_append_left _ he)
    have he := hevents e (List.mem_append_right _ List.mem_cons_self)
    obtain ⟨happly, hok'⟩ := hok.apply_event houtcome he
    refine ⟨?_, hok'⟩
    rw [Shelf.applyAll_append, hall]
    exact happly
  · exact fun _ => ⟨rfl, TableOk.empty, TableOk.empty⟩

end

/-! ## Snapshots -/

section

variable {ε δ : Type} {u : Folding} {t : Table Nat (Expression ε)} {limit : Nat}
  {extraOk : ε → Prop} {extra : ε → δ} {fresh : ε} {write : δ → ε → ε}

theorem mem_encodeRows {row : SnapshotRow δ} :
    row ∈ encodeRows extra t ↔ ∃ e, t.lookup row.id = some e ∧
      e.mediaHash = some row.mediaHash ∧
      row = ⟨row.id, e.name, e.animated, row.mediaHash, extra e.extra⟩ := by
  rw [encodeRows, List.mem_filterMap]
  constructor
  · rintro ⟨e, he, hrow⟩
    obtain ⟨hash, hhash, rfl⟩ := Option.map_eq_some_iff.mp hrow
    exact ⟨e.2, AList.mem_lookup_iff.mpr he, hhash, rfl⟩
  · rintro ⟨e, he, hhash, hrow⟩
    refine ⟨⟨row.id, e⟩, mem_entries he, ?_⟩
    rw [hhash, Option.map_some, ← hrow]

theorem nodup_encodeRows : ((encodeRows extra t).map (·.id)).Nodup := by
  have hsub : ∀ l : List (Sigma fun _ : Nat => Expression ε),
      ((l.filterMap fun e => e.2.mediaHash.map fun hash => (⟨e.1, e.2.name, e.2.animated, hash,
        extra e.2.extra⟩ : SnapshotRow δ)).map (·.id)).Sublist (l.map Sigma.fst) := by
    intro l
    induction l with
    | nil => exact List.Sublist.slnil
    | cons e l ih =>
      rw [List.filterMap_cons, List.map_cons]
      cases e.2.mediaHash with
      | none => exact ih.cons _
      | some hash => exact ih.cons_cons _
  exact (hsub t.entries).nodup t.keys_nodup

/-- The row of a snapshot for a row of the authority. -/
theorem lookupBy_encodeRows (ht : TableOk u limit extraOk t) {j : Nat} :
    lookupBy (·.id) j (encodeRows extra t) = (t.lookup j).bind fun e =>
      e.mediaHash.map fun hash => ⟨j, e.name, e.animated, hash, extra e.extra⟩ := by
  cases hj : t.lookup j with
  | none =>
    refine List.find?_eq_none.mpr fun row hrow hid => ?_
    obtain ⟨e, he, -⟩ := mem_encodeRows.mp hrow
    obtain rfl : row.id = j := of_decide_eq_true hid
    rw [hj] at he
    cases he
  | some e =>
    have hhash := (ht.rows j e hj).hash
    rw [Option.bind_some]
    cases h : e.mediaHash with
    | none =>
      rw [h] at hhash
      exact hhash.elim
    | some hash =>
      have hmem : ⟨j, e.name, e.animated, hash, extra e.extra⟩ ∈ encodeRows extra t :=
        mem_encodeRows.mpr ⟨e, hj, h, rfl⟩
      exact lookupBy_of_mem nodup_encodeRows hmem

/-- A snapshot of the authority passes the checks. -/
theorem validateRows_encodeRows (ht : TableOk u limit extraOk t) (hlimit : limit ≤ 1000)
    {identity name fields : String} (rowOk : δ → Prop) [DecidablePred rowOk]
    (hextra : ∀ x, extraOk x → rowOk (extra x)) :
    validateRows u identity name fields rowOk (encodeRows extra t) = .ok () := by
  refine check_bind_eq_ok.mpr ⟨ensure_eq_ok.mpr ?_, ?_⟩
  · exact Nat.le_trans (List.length_filterMap_le _ _) (Nat.le_trans ht.length hlimit)
  refine check_bind_eq_ok.mpr ⟨ensure_eq_ok.mpr nodup_encodeRows, ?_⟩
  refine check_bind_eq_ok.mpr ⟨ensure_eq_ok.mpr ?_, ?_⟩
  · refine List.Nodup.map_on (fun row hrow row' hrow' hname => ?_) nodup_encodeRows.of_map
    by_contra hne
    obtain ⟨e, he, -, hrowe⟩ := mem_encodeRows.mp hrow
    obtain ⟨e', he', -, hrowe'⟩ := mem_encodeRows.mp hrow'
    rw [hrowe, hrowe'] at hname
    refine ht.names row.id e row'.id e' he he' (fun hid => hne ?_) hname
    exact List.inj_on_of_nodup_map nodup_encodeRows hrow hrow' hid
  · refine forEach_eq_ok.mpr fun row hrow => ?_
    obtain ⟨e, he, hhash, hrowe⟩ := mem_encodeRows.mp hrow
    have hok := ht.rows row.id e he
    have hdigest := hok.hash
    rw [hhash] at hdigest
    rw [hrowe]
    refine check_bind_eq_ok.mpr ⟨ensure_eq_ok.mpr hok.name, ensure_eq_ok.mpr ⟨hdigest, ?_⟩⟩
    exact hextra _ hok.extra

theorem lookup_foldl_insert {rows : List (SnapshotRow δ)} (hnodup : (rows.map (·.id)).Nodup)
    (j : Nat) (t : Table Nat (Expression ε)) :
    (rows.foldl (fun t row => t.insert row.id (loadRow fresh write (t.lookup row.id) row))
        t).lookup j =
      match lookupBy (·.id) j rows with
      | none => t.lookup j
      | some row => some (loadRow fresh write (t.lookup j) row) := by
  induction rows generalizing t with
  | nil => rfl
  | cons row rows ih =>
    obtain ⟨hnot, hnodup⟩ := List.nodup_cons.mp hnodup
    rw [List.foldl_cons, ih hnodup, Table.lookup_insert_ite]
    by_cases hj : j = row.id
    · subst hj
      have hnone : lookupBy (·.id) row.id rows = none := by
        refine List.find?_eq_none.mpr fun other hother hid => hnot ?_
        exact List.mem_map.mpr ⟨other, hother, of_decide_eq_true hid⟩
      have hhead : lookupBy (·.id) row.id (row :: rows) = some row :=
        List.find?_cons_of_pos (decide_eq_true rfl)
      rw [hnone, hhead, if_pos rfl]
    · have htail : lookupBy (·.id) j (row :: rows) = lookupBy (·.id) j rows :=
        List.find?_cons_of_neg (by simpa using Ne.symm hj)
      rw [htail, if_neg hj]

/-- After a snapshot the replica has the rows of the snapshot, each over what
it had before. -/
theorem lookup_applyRows {rows : List (SnapshotRow δ)} (hnodup : (rows.map (·.id)).Nodup)
    (j : Nat) :
    (applyRows fresh write t rows).lookup j =
      (lookupBy (·.id) j rows).map (loadRow fresh write (t.lookup j)) := by
  rw [applyRows, lookup_foldl_insert hnodup, Table.lookup_eraseAll]
  cases hrow : lookupBy (·.id) j rows with
  | none =>
    show _ = none
    by_cases hj : j ∈ t
    · have hnot : j ∉ rows.map (·.id) := by
        intro hmem
        obtain ⟨row, hmem, hid⟩ := List.mem_map.mp hmem
        exact lookupBy_eq_none hrow row hmem hid
      exact if_pos (List.mem_filter.mpr ⟨hj, decide_eq_true hnot⟩)
    · rw [AList.lookup_eq_none.mpr hj, ite_self]
  | some row =>
    have hmem : j ∈ rows.map (·.id) :=
      List.mem_map.mpr ⟨row, mem_of_lookupBy hrow, key_of_lookupBy hrow⟩
    have hkept : j ∉ t.keys.filter (· ∉ rows.map (·.id)) :=
      fun h => of_decide_eq_true (List.mem_filter.mp h).2 hmem
    rw [if_neg hkept]
    rfl

/-- After a snapshot of the authority. -/
theorem lookup_applyRows_encodeRows {source : Table Nat (Expression ε)}
    (hsource : TableOk u limit extraOk source) (j : Nat) :
    (applyRows fresh write t (encodeRows extra source)).lookup j =
      (source.lookup j).map fun e =>
        { e with
          available := ((t.lookup j).map (·.available)).getD true
          extra := write (extra e.extra) (((t.lookup j).map (·.extra)).getD fresh) } := by
  rw [lookup_applyRows nodup_encodeRows, lookupBy_encodeRows hsource]
  cases hj : source.lookup j with
  | none => rfl
  | some e =>
    have hhash := (hsource.rows j e hj).hash
    rw [Option.bind_some, Option.map_some]
    cases h : e.mediaHash with
    | none =>
      rw [h] at hhash
      exact hhash.elim
    | some hash => rfl

end

/-! ## Events against a snapshot -/

section

variable {u : Folding} {g : GuildRef} {cfg : MediaSettings} {s loaded : Shelf}

def emojiSame (a b : Emoji) : Prop :=
  a.name = b.name ∧ a.animated = b.animated ∧ a.available = b.available ∧
    a.mediaHash = b.mediaHash ∧ sameRoles a.extra b.extra

def stickerSame (a b : Sticker) : Prop :=
  a.name = b.name ∧ a.animated = b.animated ∧ a.available = b.available ∧
    a.mediaHash = b.mediaHash ∧ a.extra.tags = b.extra.tags

/-- Two replicas hold the same emojis and the same stickers. -/
structure Shelf.Agrees (a b : Shelf) : Prop where
  emojis : ∀ id, Option.Rel emojiSame (a.emojis.lookup id) (b.emojis.lookup id)
  stickers : ∀ id, Option.Rel stickerSame (a.stickers.lookup id) (b.stickers.lookup id)

/-- What a snapshot does not carry is already there: an emoji is available
and has its restrictions, or is new and has none. -/
def emojiCarried (earlier : Option Emoji) (emoji : Emoji) : Prop :=
  match earlier with
  | none => emoji.extra = []
  | some old => old.available = true ∧ sameRoles emoji.extra old.extra

/-- A sticker has tags, so a new one never arrives whole. -/
def stickerCarried (earlier : Option Sticker) (sticker : Sticker) : Prop :=
  match earlier with
  | none => False
  | some old => old.available = true ∧ sticker.extra.tags = old.extra.tags

structure Shelf.Carried (s earlier : Shelf) : Prop where
  emojis : ∀ id emoji, s.emojis.lookup id = some emoji →
    emojiCarried (earlier.emojis.lookup id) emoji
  stickers : ∀ id sticker, s.stickers.lookup id = some sticker →
    stickerCarried (earlier.stickers.lookup id) sticker

theorem emojiSame_iff {emoji : Emoji} (hemoji : emoji.Ok (rolesOk g)) (old : Option Emoji) :
    emojiSame emoji { emoji with
        available := (old.map (·.available)).getD true
        extra := (old.map (·.extra)).getD [] } ↔ emojiCarried old emoji := by
  cases old with
  | none =>
    refine ⟨fun h => List.eq_nil_iff_forall_not_mem.mpr fun r hr => ?_, fun h => ?_⟩
    · exact absurd (h.2.2.2.2.1 r hr) List.not_mem_nil
    · refine ⟨rfl, rfl, hemoji.available, rfl, ?_⟩
      rw [show emoji.extra = [] from h]
      exact ⟨fun _ hr => hr, fun _ hr => hr⟩
  | some old =>
    exact ⟨fun h => ⟨h.2.2.1.symm.trans hemoji.available, h.2.2.2.2⟩,
      fun h => ⟨rfl, rfl, hemoji.available.trans h.1.symm, rfl, h.2⟩⟩

theorem stickerSame_iff {sticker : Sticker} (hsticker : sticker.Ok textOk)
    (old : Option Sticker) :
    stickerSame sticker { sticker with
        available := (old.map (·.available)).getD true
        extra := { (old.map (·.extra)).getD {} with
          description := sticker.extra.description } } ↔ stickerCarried old sticker := by
  cases old with
  | none =>
    refine ⟨fun h => ?_, fun h => h.elim⟩
    have hpos := hsticker.extra.2.1
    rw [show sticker.extra.tags = [] from h.2.2.2.2] at hpos
    exact absurd hpos (by decide)
  | some old =>
    exact ⟨fun h => ⟨h.2.2.1.symm.trans hsticker.available, h.2.2.2.2⟩,
      fun h => ⟨rfl, rfl, hsticker.available.trans h.1.symm, rfl, h.2⟩⟩

theorem rel_map_iff {α β : Type} {R : α → β → Prop} {f : α → β} {x : Option α} :
    Option.Rel R x (x.map f) ↔ ∀ a, x = some a → R a (f a) := by
  cases x with
  | none =>
    constructor
    · intro _ a ha
      cases ha
    · exact fun _ => .none
  | some a =>
    constructor
    · intro h b hb
      obtain rfl := Option.some.inj hb
      cases h with
      | some h => exact h
    · exact fun h => .some (h a rfl)

/-- What a snapshot of the authority leaves at a replica. -/
theorem Shelf.Ok.agrees_iff (hs : s.Ok u g cfg) {earlier : Shelf}
    (hload : earlier.applySnapshot u s.snapshot = .ok loaded) :
    s.Agrees loaded ↔ s.Carried earlier := by
  obtain ⟨-, h⟩ := check_bind_eq_ok.mp hload
  obtain ⟨-, h⟩ := check_bind_eq_ok.mp h
  obtain rfl := Except.ok.inj h
  have hemojis : ∀ id, Option.Rel emojiSame (s.emojis.lookup id)
      ((applyEmojis earlier.emojis s.snapshot.emojis).lookup id) ↔
        ∀ emoji, s.emojis.lookup id = some emoji →
          emojiCarried (earlier.emojis.lookup id) emoji := by
    intro id
    rw [applyEmojis, Shelf.snapshot, lookup_applyRows_encodeRows hs.emojis, rel_map_iff]
    exact forall_congr' fun emoji => forall_congr' fun h =>
      emojiSame_iff (hs.emojis.rows id emoji h) _
  have hstickers : ∀ id, Option.Rel stickerSame (s.stickers.lookup id)
      ((applyStickers earlier.stickers s.snapshot.stickers).lookup id) ↔
        ∀ sticker, s.stickers.lookup id = some sticker →
          stickerCarried (earlier.stickers.lookup id) sticker := by
    intro id
    rw [applyStickers, Shelf.snapshot, lookup_applyRows_encodeRows hs.stickers, rel_map_iff]
    exact forall_congr' fun sticker => forall_congr' fun h =>
      stickerSame_iff (hs.stickers.rows id sticker h) _
  exact ⟨fun h => ⟨fun id => (hemojis id).mp (h.emojis id),
      fun id => (hstickers id).mp (h.stickers id)⟩,
    fun h => ⟨fun id => (hemojis id).mpr (h.emojis id),
      fun id => (hstickers id).mpr (h.stickers id)⟩⟩

theorem Shelf.Ok.applySnapshot_ok (hs : s.Ok u g cfg) (earlier : Shelf) :
    ∃ loaded, earlier.applySnapshot u s.snapshot = .ok loaded := by
  have hemojis : validateEmojis u s.snapshot.emojis = .ok () := by
    have hencode : s.snapshot.emojis = encodeRows (fun _ => ()) s.emojis := rfl
    rw [validateEmojis, hencode]
    exact validateRows_encodeRows hs.emojis cfg.emojiLimit_le (fun _ => True) fun _ _ => trivial
  have hstickers : validateStickers u s.snapshot.stickers = .ok () := by
    rw [validateStickers, Shelf.snapshot]
    exact validateRows_encodeRows hs.stickers cfg.stickerLimit_le descriptionOk fun _ h => h.1
  rw [Shelf.applySnapshot, hemojis, hstickers]
  exact ⟨_, rfl⟩

/-- A replica that followed the events and one that took a snapshot after them
agree exactly if the stickers' names replicate and the second replica had
what a snapshot leaves out. -/
theorem snapshot_agrees_iff {is : List Mutation} {a : Authority}
    (hrun : Exec (step u g cfg) Always {} is a) (earlier : Shelf) :
    (∃ followed loaded, Shelf.applyAll u g {} a.events = .ok followed ∧
        earlier.applySnapshot u a.shelf.snapshot = .ok loaded ∧ followed.Agrees loaded) ↔
      (∀ e ∈ a.events, e.Replicable) ∧ a.shelf.Carried earlier := by
  constructor
  · rintro ⟨followed, loaded, hfollow, hload, hagrees⟩
    have hevents := Shelf.replicable_of_applyAll hfollow
    obtain ⟨hall, hok⟩ := applyAll_events hrun hevents
    obtain rfl := Except.ok.inj (hfollow.symm.trans hall)
    exact ⟨hevents, (hok.agrees_iff hload).mp hagrees⟩
  · rintro ⟨hevents, hcarried⟩
    obtain ⟨hall, hok⟩ := applyAll_events hrun hevents
    obtain ⟨loaded, hload⟩ := hok.applySnapshot_ok earlier
    exact ⟨a.shelf, loaded, hall, hload, (hok.agrees_iff hload).mpr hcarried⟩

def sampleGuild : GuildRef := ⟨1, "a.example", [1, 2]⟩

def sampleSettings : MediaSettings := ⟨100, 60, by decide, by decide⟩

/-- Names of the samples are ASCII. -/
def sampleFolding : Folding := ⟨id, id⟩

def sampleHash : MediaHash :=
  ⟨"0123456789abcdef0123456789abcdef0123456789abcdef0123456789abcdef", by decide⟩

def sampleTags : StickerTags where
  tags := ["paper"]
  bounds := by decide
  each := by decide
  nodup := by decide
  serialized := by decide

def sampleMutations : List Mutation :=
  [.createEmoji 10 ⟨"wave", by decide⟩ false sampleHash ⟨[⟨2, "a.example"⟩], by decide⟩,
    .createSticker 11 "crane" none false sampleHash (some sampleTags),
    .patchEmoji 10 (some ⟨"hello", by decide⟩) (some ⟨[], by decide⟩)]

def sampleSticker : Sticker where
  name := "crane"
  animated := false
  mediaHash := some sampleHash.1
  extra := { tags := ["paper"] }

/-- The replica missed the emoji but had the sticker. -/
def sampleEarlier : Shelf where
  stickers := AList.insert 11 sampleSticker ∅

def sampleAuthority : Authority where
  shelf := {
    emojis := AList.insert 10 ⟨"hello", false, true, some sampleHash.1, []⟩ ∅
    stickers := AList.insert 11 sampleSticker ∅ }
  events := [.emojiCreate 10 ⟨"wave", false, true, some sampleHash.1, [⟨2, "a.example"⟩]⟩,
    .stickerCreate 11 sampleSticker,
    .emojiUpdate 10 ⟨"hello", false, true, some sampleHash.1, []⟩]

theorem snapshot_agrees_iff_sample :
    Exec (step sampleFolding sampleGuild sampleSettings) Always {} sampleMutations
        sampleAuthority ∧
      ∃ followed loaded,
        Shelf.applyAll sampleFolding sampleGuild {} sampleAuthority.events = .ok followed ∧
        sampleEarlier.applySnapshot sampleFolding sampleAuthority.shelf.snapshot = .ok loaded ∧
        followed.Agrees loaded := by
  have hrun : Exec (step sampleFolding sampleGuild sampleSettings) Always {} sampleMutations
      sampleAuthority := Exec.of_runFrom rfl
  refine ⟨hrun, (snapshot_agrees_iff hrun sampleEarlier).mpr ⟨by decide +kernel, ?_⟩⟩
  refine ⟨fun id emoji hemoji => ?_, fun id sticker hsticker => ?_⟩
  · cases List.mem_singleton.mp (mem_entries hemoji)
    rfl
  · cases List.mem_singleton.mp (mem_entries hsticker)
    exact ⟨rfl, rfl⟩

/-- A replica that missed the sticker gets it without its tags. -/
theorem snapshot_loses_tags :
    ¬ ∀ (u : Folding) (g : GuildRef) (cfg : MediaSettings) (is : List Mutation) (a : Authority)
      (earlier : Shelf), Exec (step u g cfg) Always {} is a →
      ∃ followed loaded, Shelf.applyAll u g {} a.events = .ok followed ∧
        earlier.applySnapshot u a.shelf.snapshot = .ok loaded ∧ followed.Agrees loaded := by
  intro h
  have hrun : Exec (step sampleFolding sampleGuild sampleSettings) Always {} sampleMutations
      sampleAuthority := Exec.of_runFrom rfl
  have hfollowed : (Shelf.applyAll sampleFolding sampleGuild {} sampleAuthority.events).toOption.map
      (·.stickers.lookup 11) = some (some sampleSticker) := by
    decide +kernel
  have hloaded : (Shelf.applySnapshot sampleFolding {} sampleAuthority.shelf.snapshot).toOption.map
      (·.stickers.lookup 11) = some (some { sampleSticker with extra := {} }) := by
    decide +kernel
  obtain ⟨followed, loaded, hfollow, hload, hagrees⟩ := h _ _ _ _ _ {} hrun
  rw [hfollow] at hfollowed
  rw [hload] at hloaded
  have hbefore : followed.stickers.lookup 11 = some sampleSticker := Option.some.inj hfollowed
  have hafter : loaded.stickers.lookup 11 = some { sampleSticker with extra := {} } :=
    Option.some.inj hloaded
  have hrel := hagrees.stickers 11
  rw [hbefore, hafter] at hrel
  cases hrel with
  | some hsame => exact absurd hsame.2.2.2.2 (by decide)

end

end Expressions

end Kaede
