import Kaede.TrackerPages

/-!
# Reading what a page says

Each of the replica's readers finds in a payload what the row had that the
payload was made of: references, times and numbers first, then profiles, the
board, its lanes and its tasks. The checks of a whole list are folds; the
state of a fold after a part of the rows is named, and one step of it is
proved.
-/

namespace Kaede

namespace TrackerSync

open Replication (RemoteUserProfile UserRow maxDatabaseSnowflake strip databaseSnowflake
  normalizeDomain)
open TrackerFields

variable {F : Type} {lib : Library F} {ref : Ref} {raw : Json F} {key label : String}

section

variable {ε α β : Type} {x : Except ε α} {a : α} {e : ε}

theorem bind_of_eq_ok {f : α → Except ε β} (h : x = .ok a) : (x >>= f) = f a := by
  rw [h, ok_bind]

theorem ensure_bind {p : Prop} [Decidable p] {f : Unit → Except ε β} (h : p) :
    (ensure p e >>= f) = f () := bind_of_eq_ok (ensure_eq_ok.mpr h)

theorem found_bind {row : Option α} {f : α → Except ε β} (h : row = some a) :
    (found row e >>= f) = f a := bind_of_eq_ok (found_eq_ok.mpr h)

end

/-! ## Values -/

theorem snowflake_idText {n : Nat} (h : n ≤ maxDatabaseSnowflake) (label : String) :
    snowflake (idText n : Json F) label = .ok n := by
  have hdigits : Nat.ofDigitChars 10 (toString n).toList 0 = n := by
    rw [Nat.toString_eq_repr, Nat.toList_repr, Nat.ofDigitChars_ten_toDigits]
  simp only [snowflake, idText, wire, databaseSnowflake, hdigits,
    (ensure_eq_ok (u := ())).mpr (decimalDigits_toString n), (ensure_eq_ok (u := ())).mpr h,
    ok_bind, lift]

theorem refAt_ok {idKey domainKey : String} (h : RefOk ref) (hid : raw.get idKey = idText ref.id)
    (hdomain : raw.get domainKey = .str ref.domain) :
    refAt lib raw idKey domainKey label = .ok ref := by
  rw [refAt, hid, hdomain, bind_of_eq_ok (snowflake_idText h.id_le _)]
  simp only [domainOf, domainText, h.domain_eq, lift, ok_bind]

theorem trackerRef_ok (h : RefOk ref) (hobj : raw.isObj = true) (hid : raw.get "id" = idText ref.id)
    (hdomain : raw.get "origin_domain" = .str ref.domain) :
    trackerRef lib raw label = .ok ref := by
  rw [trackerRef, ensure_bind hobj]
  exact refAt_ok h hid hdomain

theorem awareDatetime_timeText (t : CivilTime) (label : String) :
    awareDatetime lib (timeText t) label = .ok t := by
  simp only [awareDatetime, timeText, CivilTime.fromisoformat_isoformat]

theorem optionalDatetime_optionalTime (t : Option CivilTime) (label : String) :
    optionalDatetime lib (optionalTime t) label = .ok t := by
  cases t with
  | none => rfl
  | some t =>
    change (awareDatetime lib (timeText t) label >>= fun t => .ok (some t)) = _
    rw [awareDatetime_timeText, ok_bind]

theorem intBelow_nat {n bound : Nat} (h : n < bound) (e : SnapshotError) :
    intBelow (.int n : Json F) bound e = .ok n := by
  simp only [intBelow]
  rw [ensure_bind ⟨by omega, by omega⟩, Int.toNat_natCast]

theorem textAt_ok {s : String} (h : raw.get key = .str s) : textAt raw key = .ok s := by
  rw [textAt, h]
  rfl

theorem dateAt_ok {t : CivilTime} (h : raw.get key = timeText t) : dateAt lib raw key = .ok t := by
  rw [dateAt, h, awareDatetime_timeText]

theorem storedRef_ok {idKey domainKey : String} (h : RefOk ref)
    (hid : raw.get idKey = idText ref.id) (hdomain : raw.get domainKey = .str ref.domain) :
    storedRef raw idKey domainKey = .ok ref := by
  rw [storedRef, hid, bind_of_eq_ok (snowflake_idText h.id_le _), bind_of_eq_ok (textAt_ok hdomain)]

/-! ## Profiles -/

theorem maxLength_optionalText {s : Option String} {bound : Nat} (h : ∀ t ∈ s, TextWithin bound t)
    (hget : raw.get key = optionalText s) : maxLength key bound raw = .ok s := by
  rw [maxLength, hget]
  cases s with
  | none => rfl
  | some t =>
    change (ensure (t.length ≤ bound) _ >>= fun _ => .ok (some t)) = _
    rw [ensure_bind (h t rfl).1]

theorem integerField_nat {default low high n : Nat} (h : low ≤ n ∧ n ≤ high)
    (hget : raw.get? key = some (.int n)) : integerField key default low high raw = .ok n := by
  rw [integerField, hget]
  change (ensure ((low : Int) ≤ n ∧ (n : Int) ≤ high) _ >>= fun _ => .ok (n : Int).toNat) = _
  rw [ensure_bind ⟨by omega, by omega⟩, Int.toNat_natCast]

theorem accountTypes_lookup (type : AccountType) :
    accountTypes.lookup (accountTypeText type) = some type := by
  cases type <;> rfl

theorem TextWithin.nulFree {bound : Nat} {s : String} (h : TextWithin bound s) :
    nulFree (.str s : Json F) = true := by
  rw [TrackerFields.nulFree, decide_eq_true_eq]
  exact h.2

theorem nulFree_optionalText {bound : Nat} {s : Option String} (h : ∀ t ∈ s, TextWithin bound t) :
    nulFree (optionalText s : Json F) = true := by
  cases s with
  | none => rfl
  | some t => exact (h t rfl).nulFree

theorem nulFree_of_textOk {s : String} (h : TextOk s) : nulFree (.str s : Json F) = true := by
  rw [TrackerFields.nulFree, decide_eq_true_eq]
  exact h.1

theorem ProfileOk.nulFree {p : RemoteUserProfile} (h : ProfileOk p) :
    nulFree (dumpProfile p : Json F) = true := by
  rw [dumpProfile, TrackerFields.nulFree, nulFreeMembers_iff]
  simp only [List.forall_mem_cons]
  refine ⟨⟨by decide, nulFree_of_textOk (textOk_toString h.ref.id_le)⟩,
    ⟨by decide, nulFree_of_textOk h.ref.textOk_domain⟩,
    ⟨by decide, nulFree_of_textOk (accountType_textOk _)⟩,
    ⟨by decide, nulFree_of_textOk (usernamePattern_textOk h.username)⟩,
    ⟨by decide, nulFree_optionalText h.displayName⟩,
    ⟨by decide, nulFree_optionalText h.avatarHash⟩, ⟨by decide, nulFree_optionalText h.bannerHash⟩,
    ⟨by decide, nulFree_optionalText h.bio⟩, ⟨by decide, nulFree_optionalText h.customStatus⟩,
    ⟨by decide, rfl⟩, ⟨by decide, rfl⟩, fun _ hm => absurd hm List.not_mem_nil⟩

/-- A profile is read as it was written. -/
theorem ProfileOk.validate {p : RemoteUserProfile} (h : ProfileOk p) :
    validateProfile (dumpProfile p : Json F) = .ok p := by
  have hdomain : lift (normalizeDomain p.ref.domain) = .ok p.ref.domain := by
    rw [h.ref.domain_eq]
    rfl
  have htype : accountTypeField (dumpProfile p : Json F) = .ok p.accountType := by
    change found (accountTypes.lookup (accountTypeText p.accountType)) _ = _
    rw [accountTypes_lookup]
    rfl
  refine (ensure_bind rfl).trans ((ensure_bind h.nulFree).trans ?_)
  refine (bind_of_eq_ok (snowflake_idText h.ref.id_le "id")).trans ?_
  refine (found_bind (a := p.ref.domain) rfl).trans ((bind_of_eq_ok hdomain).trans ?_)
  refine (bind_of_eq_ok htype).trans ((found_bind (a := p.username) rfl).trans ?_)
  refine (ensure_bind h.username).trans ?_
  refine (bind_of_eq_ok (maxLength_optionalText h.displayName rfl)).trans ?_
  refine (bind_of_eq_ok (maxLength_optionalText h.avatarHash rfl)).trans ?_
  refine (bind_of_eq_ok (maxLength_optionalText h.bannerHash rfl)).trans ?_
  refine (bind_of_eq_ok (maxLength_optionalText h.bio rfl)).trans ?_
  refine (bind_of_eq_ok (maxLength_optionalText h.customStatus rfl)).trans ?_
  refine (bind_of_eq_ok (integerField_nat h.profileVersion rfl)).trans ?_
  exact bind_of_eq_ok (integerField_nat ⟨Nat.zero_le _, h.e2eeDeviceGeneration⟩ rfl)

end TrackerSync

end Kaede
