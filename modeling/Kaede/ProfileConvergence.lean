import Kaede.RemoteProfiles

/-!
# What becomes of a remote user's row

An arrival changes the row it names and no other (`SameExcept`), in one of
five ways (`RowStep`). Over a run the row keeps the newest of the profiles
it took, its handle and account type stay once it is resolved, and its
device generation never falls.

Not every profile that a home sends is taken: another handle or account
type than the stored one is refused, and a handle that another row of the
home has leaves the row opaque.
-/

namespace Kaede

namespace Replication

def RemoteUserProfile.stamp (p : RemoteUserProfile) : Stamped MutableProfile :=
  ⟨p.profileVersion, p.profile⟩

def UserRow.stamp (u : UserRow) : Stamped MutableProfile := ⟨u.profileVersion, u.profile⟩

/-- What every row of a remote user keeps: it is charged to a domain, and an
opaque row has no devices. -/
structure UserRow.Remote (u : UserRow) : Prop where
  notLocal : u.isLocal = false
  charged : ∃ domain, u.federationIntroducedByDomain = some domain
  opaqueDevices : u.profileResolved = false → u.e2eeDeviceGeneration = 0

/-- What later rows of a user keep of an earlier one. -/
structure UserRow.Keeps (u u' : UserRow) : Prop where
  identity : u.profileResolved = true →
    u'.profileResolved = true ∧ u'.username = u.username ∧ u'.accountType = u.accountType
  generation : u.e2eeDeviceGeneration ≤ u'.e2eeDeviceGeneration

theorem UserRow.Keeps.refl (u : UserRow) : u.Keeps u := ⟨fun h => ⟨h, rfl, rfl⟩, Nat.le_refl _⟩

theorem UserRow.Keeps.trans {u₁ u₂ u₃ : UserRow} (h₁ : u₁.Keeps u₂) (h₂ : u₂.Keeps u₃) :
    u₁.Keeps u₃ := by
  refine ⟨fun h => ?_, Nat.le_trans h₁.generation h₂.generation⟩
  obtain ⟨hresolved, hname, htype⟩ := h₁.identity h
  obtain ⟨hresolved', hname', htype'⟩ := h₂.identity hresolved
  exact ⟨hresolved', hname'.trans hname, htype'.trans htype⟩

/-- The identity an arrival is about. -/
def Users.Arrival.ref : Users.Arrival → UserRef
  | .profile _ p => p.ref
  | .delegated _ p _ => p.ref

theorem Users.Arrival.ref_of_sent {p : RemoteUserProfile} :
    ∀ {i : Users.Arrival}, i.sent = some p → i.ref = p.ref
  | .profile _ _, h => congrArg RemoteUserProfile.ref (Option.some.inj h)
  | .delegated _ q authorityOrigin, h => by
      by_cases hhome : q.ref.domain = authorityOrigin
      · rw [Users.Arrival.sent, if_pos hhome] at h
        exact congrArg RemoteUserProfile.ref (Option.some.inj h)
      · rw [Users.Arrival.sent, if_neg hhome] at h
        cases h

/-- The row of a resolved user after a profile: the newer of the two, and the
greater generation. -/
def updatedRow (u : UserRow) (p : RemoteUserProfile) : UserRow :=
  { u with
    e2eeDeviceGeneration := max u.e2eeDeviceGeneration p.e2eeDeviceGeneration
    profileVersion := (takeNewer u.stamp p.stamp).version
    profile := (takeNewer u.stamp p.stamp).value }

namespace Users

section

variable {s s' s'' : Users} {k ref : UserRef} {p : RemoteUserProfile} {u u' row : UserRow}
  {aliases : List String} {domain : String}

theorem ref_of_user? (h : s.user? k = some u) : u.ref = k := key_of_lookupBy h

theorem user?_setUser : (s.setUser row).user? k =
    if k = row.ref then (s.user? row.ref).map fun _ => row else s.user? k :=
  lookupBy_updateBy fun _ _ => rfl

theorem user?_setUser_self (h : s.user? k = some u) (href : row.ref = k) :
    (s.setUser row).user? k = some row := by
  rw [user?_setUser, if_pos href.symm, href, h, Option.map_some]

theorem user?_append (hnew : s.user? row.ref = none) :
    ({ s with rows := s.rows ++ [row] } : Users).user? row.ref = some row := by
  unfold user? lookupBy at hnew ⊢
  rw [List.find?_append, hnew]
  simp

/-! ## Other rows -/

/-- Only the row under one key may differ. -/
structure SameExcept (ref : UserRef) (s s' : Users) : Prop where
  localDomain : s'.localDomain = s.localDomain
  others : ∀ k, k ≠ ref → s'.user? k = s.user? k

theorem SameExcept.refl (ref : UserRef) (s : Users) : SameExcept ref s s := ⟨rfl, fun _ _ => rfl⟩

theorem SameExcept.trans (h₁ : SameExcept ref s s') (h₂ : SameExcept ref s' s'') :
    SameExcept ref s s'' :=
  ⟨h₂.localDomain.trans h₁.localDomain, fun k hk => (h₂.others k hk).trans (h₁.others k hk)⟩

theorem sameExcept_setUser (href : row.ref = ref) : SameExcept ref s (s.setUser row) :=
  ⟨rfl, fun _ hk => user?_setUser.trans (if_neg fun h => hk (h.trans href))⟩

theorem sameExcept_append (s : Users) (row : UserRow) :
    SameExcept row.ref s { s with rows := s.rows ++ [row] } :=
  ⟨rfl, fun _ hk => lookupBy_append_of_ne hk.symm⟩

theorem sameExcept_admit {existing : Option UserRow} {introducer : String}
    (h : s.admitRemoteUserIdentity ref domain = .ok (s', existing, introducer)) :
    SameExcept ref s s' ∧ ∀ u, existing = some u → u.ref = ref := by
  unfold admitRemoteUserIdentity at h
  obtain ⟨-, h⟩ := check_bind_eq_ok.mp h
  split at h
  · rename_i u hu
    obtain ⟨-, h⟩ := check_bind_eq_ok.mp h
    have href := ref_of_user? hu
    split at h
    · cases h
      exact ⟨.refl _ _, fun v hv => Option.some.inj hv ▸ href⟩
    · cases h
      refine ⟨sameExcept_setUser href, fun v hv => ?_⟩
      exact Option.some.inj hv ▸ href
  · obtain ⟨-, h⟩ := check_bind_eq_ok.mp h
    cases h
    refine ⟨.refl _ _, fun u hu => ?_⟩
    cases hu

theorem sameExcept_insertUnresolved
    (h : s.insertUnresolvedRemoteUser ref domain aliases = .ok (s', u)) :
    SameExcept ref s s' ∧ u.ref = ref := by
  unfold insertUnresolvedRemoteUser at h
  split at h
  · rename_i hu
    cases h
    exact ⟨.refl _ _, ref_of_user? hu⟩
  · split at h
    · cases h
      exact ⟨sameExcept_append s (opaqueRow ref _ domain), rfl⟩
    · cases h

theorem sameExcept_insertUser (s : Users) (row : UserRow) :
    SameExcept row.ref s (s.insertUser row) := by
  unfold insertUser
  split
  · exact sameExcept_append s row
  · exact .refl _ _

theorem sameExcept_rowFor (h : s.rowFor aliases p = .ok (s', u)) :
    SameExcept p.ref s s' ∧ u.ref = p.ref := by
  unfold rowFor at h
  obtain ⟨⟨s₁, existing, introducer⟩, hadmit, h⟩ := bind_eq_ok.mp h
  obtain ⟨hsame, href⟩ := sameExcept_admit hadmit
  dsimp only at h
  split at h
  · cases h
    exact ⟨hsame, href _ rfl⟩
  · have hinsert := sameExcept_insertUser s₁ (resolvedRow (opaqueRow p.ref p.username introducer) p)
    split at h
    · rename_i hu
      cases h
      exact ⟨hsame.trans hinsert, ref_of_user? hu⟩
    · obtain ⟨hunresolved, hu⟩ := sameExcept_insertUnresolved h
      exact ⟨(hsame.trans hinsert).trans hunresolved, hu⟩

theorem updateResolved_eq_ok : updateResolved u p = .ok u' ↔
    u.username = p.username ∧ u.accountType = .account p.accountType ∧
      (p.profileVersion = u.profileVersion → p.profile = u.profile) ∧ u' = updatedRow u p := by
  unfold updateResolved updatedRow takeNewer
  simp only [check_bind_eq_ok, ensure_eq_ok, UserRow.stamp, RemoteUserProfile.stamp]
  refine and_congr_right fun _ => and_congr_right fun _ => ?_
  by_cases hlt : p.profileVersion < u.profileVersion
  · have hne : p.profileVersion ≠ u.profileVersion := Nat.ne_of_lt hlt
    simp only [hlt, hne, if_true, false_implies, true_and, Except.ok.injEq]
    exact eq_comm
  · simp only [hlt, if_false, check_bind_eq_ok, ensure_eq_ok, not_and, not_not, Except.ok.injEq]
    exact and_congr_right fun _ => eq_comm

theorem sameExcept_upsert (h : s.upsertRemoteUser aliases p = .ok s') : SameExcept p.ref s s' := by
  unfold upsertRemoteUser at h
  obtain ⟨-, h⟩ := check_bind_eq_ok.mp h
  split at h
  · obtain ⟨-, h⟩ := check_bind_eq_ok.mp h
    cases h
    exact .refl _ _
  · obtain ⟨⟨s₁, u⟩, hrow, h⟩ := bind_eq_ok.mp h
    obtain ⟨hsame, href⟩ := sameExcept_rowFor hrow
    obtain ⟨-, h⟩ := check_bind_eq_ok.mp h
    split at h
    · obtain ⟨u', hu', h⟩ := bind_eq_ok.mp h
      obtain rfl := (updateResolved_eq_ok.mp hu').2.2.2
      cases h
      exact hsame.trans (sameExcept_setUser href)
    · cases h
      refine hsame.trans ?_
      unfold resolveUnresolvedRemoteProfile
      split
      · exact sameExcept_setUser href
      · exact .refl _ _

theorem sameExcept_delegated
    (h : s.resolveDelegatedProfile aliases p domain = .ok s') : SameExcept p.ref s s' := by
  unfold resolveDelegatedProfile at h
  split at h
  · exact sameExcept_upsert h
  · obtain ⟨-, h⟩ := check_bind_eq_ok.mp h
    obtain ⟨⟨s₁, u⟩, hrow, h⟩ := bind_eq_ok.mp h
    obtain ⟨-, h⟩ := check_bind_eq_ok.mp h
    obtain ⟨-, h⟩ := check_bind_eq_ok.mp h
    cases h
    unfold opaqueRowFor at hrow
    split at hrow
    · cases hrow
      exact .refl _ _
    · obtain ⟨⟨s₂, existing, introducer⟩, hadmit, hrow⟩ := bind_eq_ok.mp hrow
      obtain ⟨hsame, -⟩ := sameExcept_admit hadmit
      dsimp only at hrow
      split at hrow
      · cases hrow
        exact hsame
      · exact hsame.trans (sameExcept_insertUnresolved hrow).1

/-! ## The row that is named -/

theorem opaqueRow_remote (ref : UserRef) (username introducer : String) :
    (opaqueRow ref username introducer).Remote :=
  ⟨rfl, ⟨_, rfl⟩, fun _ => rfl⟩

theorem admit_of_some (hremote : ref.domain ≠ s.localDomain) (hu : s.user? ref = some u)
    (hrow : u.Remote) : ∃ introducer,
      s.admitRemoteUserIdentity ref domain = .ok (s, some u, introducer) := by
  obtain ⟨introducer, hcharged⟩ := hrow.charged
  refine ⟨introducer, ?_⟩
  unfold admitRemoteUserIdentity
  rw [check_bind_eq_ok]
  refine ⟨ensure_eq_ok.mpr hremote, ?_⟩
  rw [hu]
  dsimp only
  rw [check_bind_eq_ok]
  refine ⟨ensure_eq_ok.mpr hrow.notLocal, ?_⟩
  rw [hcharged]

theorem admit_of_none (hremote : ref.domain ≠ s.localDomain) (hu : s.user? ref = none) :
    s.admitRemoteUserIdentity ref domain =
      if s.WithinAllowance domain then .ok (s, none, domain)
      else .error .identityQuotaExceeded := by
  unfold admitRemoteUserIdentity
  rw [ensure, if_pos hremote, ok_bind, hu]
  dsimp only [ensure]
  split
  · rfl
  · rfl

theorem rowFor_of_some (hremote : p.ref.domain ≠ s.localDomain) (hu : s.user? p.ref = some u)
    (hrow : u.Remote) : s.rowFor aliases p = .ok (s, u) := by
  obtain ⟨introducer, hadmit⟩ := admit_of_some hremote hu hrow
  rw [rowFor, hadmit]
  rfl

/-- A new identity gets its row, or an opaque one if its handle is taken. -/
theorem rowFor_of_none (hremote : p.ref.domain ≠ s.localDomain) (hu : s.user? p.ref = none)
    (hallowed : s.WithinAllowance p.ref.domain) :
    s.rowFor aliases p =
      if s.UsernameFree p.ref p.username then
        let row := resolvedRow (opaqueRow p.ref p.username p.ref.domain) p
        .ok ({ s with rows := s.rows ++ [row] }, row)
      else s.insertUnresolvedRemoteUser p.ref p.ref.domain aliases := by
  rw [rowFor, admit_of_none hremote hu, if_pos hallowed, ok_bind]
  dsimp only
  by_cases hfree : s.UsernameFree p.ref p.username
  · have hinsert : s.insertUser (resolvedRow (opaqueRow p.ref p.username p.ref.domain) p) =
        { s with rows := s.rows ++ [resolvedRow (opaqueRow p.ref p.username p.ref.domain) p] } :=
      if_pos ⟨by simp [resolvedRow, opaqueRow, hu], hfree⟩
    rw [if_pos hfree, hinsert]
    have happend : ({ s with
        rows := s.rows ++ [resolvedRow (opaqueRow p.ref p.username p.ref.domain) p] } :
          Users).user? p.ref = some (resolvedRow (opaqueRow p.ref p.username p.ref.domain) p) :=
      user?_append hu
    rw [happend]
  · have hinsert : s.insertUser (resolvedRow (opaqueRow p.ref p.username p.ref.domain) p) = s :=
      if_neg fun h => hfree h.2
    rw [if_neg hfree, hinsert, hu]

theorem insertUnresolved_of_none (hu : s.user? ref = none)
    (h : s.insertUnresolvedRemoteUser ref domain aliases = .ok (s', u)) :
    ∃ username, u = opaqueRow ref username domain ∧ s' = { s with rows := s.rows ++ [u] } := by
  unfold insertUnresolvedRemoteUser at h
  rw [hu] at h
  dsimp only at h
  split at h
  · rename_i username _
    cases h
    exact ⟨username, rfl, rfl⟩
  · cases h

/-- A row of the identity itself does not take its handle away. -/
theorem usernameFree_append {username : String} (href : row.ref = ref) :
    ({ s with rows := s.rows ++ [row] } : Users).UsernameFree ref username ↔
      s.UsernameFree ref username := by
  unfold UsernameFree
  simp only [List.forall_mem_append, List.forall_mem_singleton, href, implies_true, and_true]

/-- What an arrival can do to the row of an identity. -/
inductive RowStep (s : Users) (k : UserRef) (i : Arrival) : Option UserRow → Prop
  | kept (h : ∀ p, i.sent = some p → p.ref = k → ¬ s.Takes p) : RowStep s k i (s.user? k)
  | opened {username introducer : String} (hnew : s.user? k = none)
      (h : ∀ p, i.sent = some p → p.ref = k → ¬ s.Takes p) :
      RowStep s k i (some (opaqueRow k username introducer))
  | resolved {p : RemoteUserProfile} {row : UserRow} (hsent : i.sent = some p) (hp : p.ref = k)
      (htakes : s.Takes p) (hold : ∀ u, s.user? k = some u → u.profileResolved = false)
      (href : row.ref = k) (hrow : row.Remote) : RowStep s k i (some (resolvedRow row p))
  | updated {p : RemoteUserProfile} {u : UserRow} (hsent : i.sent = some p) (hp : p.ref = k)
      (htakes : s.Takes p) (hu : s.user? k = some u) (hresolved : u.profileResolved = true)
      (hsame : p.profileVersion = u.profileVersion → p.profile = u.profile) :
      RowStep s k i (some (updatedRow u p))
  | equivocated {p : RemoteUserProfile} {u : UserRow} (hsent : i.sent = some p) (hp : p.ref = k)
      (htakes : s.Takes p) (hu : s.user? k = some u) (hresolved : u.profileResolved = true)
      (hversion : p.profileVersion = u.profileVersion) (hprofile : p.profile ≠ u.profile) :
      RowStep s k i (some u)

section

variable {i : Arrival}

theorem not_takes_of (hsent : i.sent = some p) (h : ¬ s.Takes p) :
    ∀ q, i.sent = some q → q.ref = p.ref → ¬ s.Takes q := by
  intro q hq _
  rw [hsent] at hq
  exact Option.some.inj hq ▸ h

theorem takes_iff_of_some (hid : p.ref.id ≤ maxDatabaseSnowflake) (hu : s.user? p.ref = some u) :
    s.Takes p ↔ if u.profileResolved then
        u.username = p.username ∧ u.accountType = .account p.accountType
      else s.UsernameFree p.ref p.username := by
  rw [Takes, hu, and_iff_right hid]
  rfl

theorem takes_iff_of_none (hid : p.ref.id ≤ maxDatabaseSnowflake) (hu : s.user? p.ref = none) :
    s.Takes p ↔ s.WithinAllowance p.ref.domain ∧ s.UsernameFree p.ref p.username := by
  rw [Takes, hu, and_iff_right hid]
  rfl

theorem upsert_eq (hid : p.ref.id ≤ maxDatabaseSnowflake)
    (hremote : p.ref.domain ≠ s.localDomain) (hrow : s.rowFor aliases p = .ok (s', u))
    (hlocal : u.isLocal = false) :
    s.upsertRemoteUser aliases p =
      if u.profileResolved then (updateResolved u p).map s'.setUser
      else .ok (s'.resolveUnresolvedRemoteProfile u p) := by
  rw [upsertRemoteUser, ensure, if_pos hid, ok_bind, if_neg hremote, hrow, ok_bind]
  dsimp only
  rw [ensure, if_pos hlocal, ok_bind]
  split
  · cases updateResolved u p with
    | error e => rfl
    | ok u' => rfl
  · rfl

/-- A profile for an identity that has a row. -/
theorem upsert_rowStep_of_some (hid : p.ref.id ≤ maxDatabaseSnowflake)
    (hremote : p.ref.domain ≠ s.localDomain) (hsent : i.sent = some p)
    (hu : s.user? p.ref = some u) (hrow : u.Remote) :
    RowStep s p.ref i (((s.upsertRemoteUser aliases p).toOption.getD s).user? p.ref) := by
  have htakes := takes_iff_of_some hid hu
  have href := ref_of_user? hu
  rw [upsert_eq hid hremote (rowFor_of_some hremote hu hrow) hrow.notLocal]
  by_cases hresolved : u.profileResolved = true
  · rw [if_pos hresolved] at htakes ⊢
    by_cases hmatch : u.username = p.username ∧ u.accountType = .account p.accountType
    · by_cases hsame : p.profileVersion = u.profileVersion → p.profile = u.profile
      · have hok : updateResolved u p = .ok (updatedRow u p) :=
          updateResolved_eq_ok.mpr ⟨hmatch.1, hmatch.2, hsame, rfl⟩
        rw [hok]
        have hset : (s.setUser (updatedRow u p)).user? p.ref = some (updatedRow u p) :=
          user?_setUser_self hu href
        exact hset ▸ .updated hsent rfl (htakes.mpr hmatch) hu hresolved hsame
      · obtain ⟨hversion, hprofile⟩ := Classical.not_imp.mp hsame
        cases hupdate : updateResolved u p with
        | ok u' => exact absurd (updateResolved_eq_ok.mp hupdate).2.2.1 hsame
        | error e =>
            have hstep := RowStep.equivocated hsent rfl (htakes.mpr hmatch) hu hresolved hversion
              hprofile
            rwa [← hu] at hstep
    · cases hupdate : updateResolved u p with
      | ok u' =>
          have hok := updateResolved_eq_ok.mp hupdate
          exact absurd ⟨hok.1, hok.2.1⟩ hmatch
      | error e => exact .kept (not_takes_of hsent fun h => hmatch (htakes.mp h))
  · rw [if_neg hresolved] at htakes ⊢
    have hopaque : u.profileResolved = false := by simpa using hresolved
    by_cases hfree : s.UsernameFree p.ref p.username
    · have hset : (s.resolveUnresolvedRemoteProfile u p).user? p.ref = some (resolvedRow u p) := by
        rw [resolveUnresolvedRemoteProfile, href, if_pos hfree]
        exact user?_setUser_self hu href
      have hold (v : UserRow) (hv : s.user? p.ref = some v) : v.profileResolved = false := by
        rw [hu] at hv
        exact Option.some.inj hv ▸ hopaque
      exact hset ▸ .resolved hsent rfl (htakes.mpr hfree) hold href hrow
    · have hsame : s.resolveUnresolvedRemoteProfile u p = s := by
        rw [resolveUnresolvedRemoteProfile, href, if_neg hfree]
      show RowStep s p.ref i ((s.resolveUnresolvedRemoteProfile u p).user? p.ref)
      rw [hsame]
      exact .kept (not_takes_of hsent fun h => hfree (htakes.mp h))

theorem updateResolved_fresh (row : UserRow) (p : RemoteUserProfile) :
    updateResolved (resolvedRow row p) p = .ok (resolvedRow row p) := by
  refine updateResolved_eq_ok.mpr ⟨rfl, rfl, fun _ => rfl, ?_⟩
  simp [updatedRow, resolvedRow, takeNewer, UserRow.stamp, RemoteUserProfile.stamp]

/-- A profile for an identity that has no row. -/
theorem upsert_rowStep_of_none (hid : p.ref.id ≤ maxDatabaseSnowflake)
    (hremote : p.ref.domain ≠ s.localDomain) (hsent : i.sent = some p)
    (hu : s.user? p.ref = none) :
    RowStep s p.ref i (((s.upsertRemoteUser aliases p).toOption.getD s).user? p.ref) := by
  have htakes := takes_iff_of_none hid hu
  have hkept (e : ProfileError) (hrow : s.rowFor aliases p = .error e) (h : ¬ s.Takes p) :
      RowStep s p.ref i (((s.upsertRemoteUser aliases p).toOption.getD s).user? p.ref) := by
    have herror : s.upsertRemoteUser aliases p = .error e := by
      rw [upsertRemoteUser, ensure, if_pos hid, ok_bind, if_neg hremote, hrow]
      rfl
    rw [herror]
    exact .kept (not_takes_of hsent h)
  by_cases hallowed : s.WithinAllowance p.ref.domain
  · have hrowFor : s.rowFor aliases p = _ := rowFor_of_none hremote hu hallowed
    by_cases hfree : s.UsernameFree p.ref p.username
    · rw [if_pos hfree] at hrowFor
      rw [upsert_eq hid hremote hrowFor rfl,
        if_pos (show (resolvedRow _ p).profileResolved = true from rfl), updateResolved_fresh]
      have hset : (({ s with rows := s.rows ++ [resolvedRow (opaqueRow p.ref p.username
          p.ref.domain) p] } : Users).setUser (resolvedRow (opaqueRow p.ref p.username
            p.ref.domain) p)).user? p.ref =
          some (resolvedRow (opaqueRow p.ref p.username p.ref.domain) p) :=
        user?_setUser_self (user?_append hu) rfl
      refine hset ▸ .resolved hsent rfl (htakes.mpr ⟨hallowed, hfree⟩) ?_ rfl
        (opaqueRow_remote _ _ _)
      rw [hu]
      intro u hu
      cases hu
    · rw [if_neg hfree] at hrowFor
      have hnot : ¬ s.Takes p := fun h => hfree (htakes.mp h).2
      cases hinsert : s.insertUnresolvedRemoteUser p.ref p.ref.domain aliases with
      | error e => exact hkept e (hrowFor.trans hinsert) hnot
      | ok opened =>
          obtain ⟨s', u⟩ := opened
          obtain ⟨username, rfl, rfl⟩ := insertUnresolved_of_none hu hinsert
          rw [upsert_eq hid hremote (hrowFor.trans hinsert) rfl, if_neg (by simp [opaqueRow])]
          have hsame : ∀ s' : Users, ¬ s'.UsernameFree p.ref p.username →
              s'.resolveUnresolvedRemoteProfile (opaqueRow p.ref username p.ref.domain) p = s' :=
            fun _ h => if_neg h
          rw [hsame _ fun h => hfree ((usernameFree_append rfl).mp h)]
          have hset : ({ s with rows := s.rows ++ [opaqueRow p.ref username p.ref.domain] } :
              Users).user? p.ref = some (opaqueRow p.ref username p.ref.domain) := user?_append hu
          exact hset ▸ .opened hu (not_takes_of hsent hnot)
  · refine hkept .identityQuotaExceeded ?_ fun h => hallowed (htakes.mp h).1
    rw [rowFor, admit_of_none hremote hu, if_neg hallowed]
    rfl

theorem upsert_rowStep (hremote : p.ref.domain ≠ s.localDomain) (hsent : i.sent = some p)
    (hrows : ∀ u, s.user? p.ref = some u → u.Remote) :
    RowStep s p.ref i (((s.upsertRemoteUser aliases p).toOption.getD s).user? p.ref) := by
  by_cases hid : p.ref.id ≤ maxDatabaseSnowflake
  · cases hu : s.user? p.ref with
    | none => exact upsert_rowStep_of_none hid hremote hsent hu
    | some u => exact upsert_rowStep_of_some hid hremote hsent hu (hrows u hu)
  · have herror : ∃ e, s.upsertRemoteUser aliases p = .error e := by
      rw [upsertRemoteUser, ensure, if_neg hid]
      exact ⟨_, rfl⟩
    obtain ⟨e, herror⟩ := herror
    rw [herror]
    exact .kept (not_takes_of hsent fun h => hid h.1)

/-- Another server names the identity: at most an opaque row appears. -/
theorem delegated_rowStep (hremote : p.ref.domain ≠ s.localDomain)
    (hother : p.ref.domain ≠ domain) (hsent : i.sent = none) :
    RowStep s p.ref i
      (((s.resolveDelegatedProfile aliases p domain).toOption.getD s).user? p.ref) := by
  have hnot : ∀ q, i.sent = some q → q.ref = p.ref → ¬ s.Takes q := by
    rw [hsent]
    intro q hq
    cases hq
  cases hresult : s.resolveDelegatedProfile aliases p domain with
  | error e => exact .kept hnot
  | ok s' =>
      rw [resolveDelegatedProfile, if_neg (not_or.mpr ⟨hother, hremote⟩)] at hresult
      obtain ⟨-, hresult⟩ := check_bind_eq_ok.mp hresult
      obtain ⟨⟨s₁, u⟩, hrow, hresult⟩ := bind_eq_ok.mp hresult
      obtain ⟨-, hresult⟩ := check_bind_eq_ok.mp hresult
      obtain ⟨-, hresult⟩ := check_bind_eq_ok.mp hresult
      cases hresult
      unfold opaqueRowFor at hrow
      split at hrow
      · cases hrow
        exact .kept hnot
      · rename_i hu
        rw [admit_of_none hremote hu] at hrow
        split at hrow
        · obtain ⟨username, rfl, rfl⟩ := insertUnresolved_of_none hu hrow
          have hset : ({ s with rows := s.rows ++ [opaqueRow p.ref username domain] } :
              Users).user? p.ref = some (opaqueRow p.ref username domain) := user?_append hu
          exact hset ▸ .opened hu hnot
        · cases hrow

theorem sameExcept_receive : SameExcept i.ref s (s.receive i) := by
  unfold receive
  cases hresult : i.handle s with
  | error e => exact .refl _ _
  | ok s' =>
      cases i with
      | profile aliases p => exact sameExcept_upsert hresult
      | delegated aliases p authorityOrigin => exact sameExcept_delegated hresult

/-- Every arrival makes a step of every remote identity's row. -/
theorem rowStep_receive (hremote : k.domain ≠ s.localDomain)
    (hrows : ∀ u, s.user? k = some u → u.Remote) : RowStep s k i ((s.receive i).user? k) := by
  by_cases hk : i.ref = k
  · subst hk
    cases i with
    | profile aliases p => exact upsert_rowStep hremote rfl hrows
    | delegated aliases p authorityOrigin =>
        by_cases hhome : p.ref.domain = authorityOrigin
        · have hhandle : s.resolveDelegatedProfile aliases p authorityOrigin =
              s.upsertRemoteUser aliases p := if_pos (.inl hhome)
          rw [receive, Arrival.handle, hhandle]
          exact upsert_rowStep hremote (if_pos hhome) hrows
        · exact delegated_rowStep hremote hhome (if_neg hhome)
  · rw [sameExcept_receive.others k (Ne.symm hk)]
    refine .kept fun p hsent hp => absurd ?_ hk
    rw [← hp, Arrival.ref_of_sent hsent]

/-! ## Runs -/

/-- The row under the profiles that were taken. -/
def Holds (taken : List RemoteUserProfile) : Option UserRow → Prop
  | none => taken = []
  | some u =>
      if u.profileResolved then IsNewest (taken.map RemoteUserProfile.stamp) u.stamp
      else taken = []

theorem RowStep.remote {row : Option UserRow} (h : RowStep s k i row)
    (hrows : ∀ u, s.user? k = some u → u.Remote) : ∀ u, row = some u → u.Remote := by
  cases h with
  | kept => exact hrows
  | opened =>
      rintro u ⟨⟩
      exact opaqueRow_remote _ _ _
  | resolved hsent hp htakes hold href hrow =>
      rintro u ⟨⟩
      exact ⟨hrow.notLocal, hrow.charged, nofun⟩
  | @updated p u hsent hp htakes hu hresolved =>
      rintro u' ⟨⟩
      have hu := hrows u hu
      refine ⟨hu.notLocal, hu.charged, fun h => ?_⟩
      exact absurd hresolved (Bool.eq_false_iff.mp h)
  | equivocated hsent hp htakes hu =>
      rintro u' ⟨⟩
      exact hrows _ hu

theorem RowStep.keeps {row : Option UserRow} (h : RowStep s k i row)
    (hu : s.user? k = some u) (hrow : u.Remote) : ∃ u', row = some u' ∧ u.Keeps u' := by
  cases h with
  | kept => exact ⟨u, hu, .refl u⟩
  | opened hnew =>
      rw [hnew] at hu
      cases hu
  | @resolved p row hsent hp htakes hold =>
      have hopaque := hold u hu
      refine ⟨_, rfl, fun h => ?_, ?_⟩
      · exact absurd h (Bool.eq_false_iff.mp hopaque)
      · rw [hrow.opaqueDevices hopaque]
        exact Nat.zero_le _
  | @updated p u₁ hsent hp htakes hu₁ =>
      obtain rfl := Option.some.inj (hu.symm.trans hu₁)
      exact ⟨_, rfl, fun h => ⟨h, rfl, rfl⟩, Nat.le_max_left _ _⟩
  | @equivocated p u₁ hsent hp htakes hu₁ =>
      obtain rfl := Option.some.inj (hu.symm.trans hu₁)
      exact ⟨u, rfl, .refl u⟩

theorem takenAt_eq_nil (h : ∀ p, i.sent = some p → p.ref = k → ¬ s.Takes p) :
    s.takenAt k i = [] := by
  rw [takenAt, Option.toList_eq_nil_iff, Option.filter_eq_none_iff]
  intro p hp
  simpa using h p hp

theorem takenAt_eq_singleton (hsent : i.sent = some p) (hp : p.ref = k) (htakes : s.Takes p) :
    s.takenAt k i = [p] := by
  simp [takenAt, hsent, hp, htakes]

theorem RowStep.holds {row : Option UserRow} {before : List RemoteUserProfile}
    (h : RowStep s k i row) (hbefore : Holds before (s.user? k))
    (hagree : OneValue ((before ++ s.takenAt k i).map RemoteUserProfile.stamp)) :
    Holds (before ++ s.takenAt k i) row := by
  cases h with
  | kept h =>
      rw [takenAt_eq_nil h, List.append_nil]
      exact hbefore
  | opened hnew h =>
      rw [hnew] at hbefore
      rw [takenAt_eq_nil h, List.append_nil]
      exact hbefore
  | @resolved p row hsent hp htakes hold =>
      have hempty : before = [] := by
        cases hu : s.user? k with
        | none =>
            rw [hu] at hbefore
            exact hbefore
        | some u =>
            rw [hu, Holds, if_neg (by simp [hold u hu])] at hbefore
            exact hbefore
      rw [hempty, takenAt_eq_singleton hsent hp htakes]
      exact isNewest_singleton
  | @updated p u hsent hp htakes hu hresolved =>
      rw [hu, Holds, if_pos hresolved] at hbefore
      rw [takenAt_eq_singleton hsent hp htakes, Holds,
        if_pos (show (updatedRow u p).profileResolved = true from hresolved), List.map_append]
      exact hbefore.takeNewer
  | @equivocated p u hsent hp htakes hu hresolved hversion hprofile =>
      rw [hu, Holds, if_pos hresolved] at hbefore
      rw [takenAt_eq_singleton hsent hp htakes, List.map_append] at hagree
      have hstamp : p.stamp = u.stamp := hbefore.eq_of_version hagree hversion
      exact absurd (congrArg Stamped.value hstamp) hprofile

theorem run_append (is js : List Arrival) : s.run (is ++ js) = (s.run is).run js :=
  List.foldl_append

theorem run_localDomain (is : List Arrival) : (s.run is).localDomain = s.localDomain := by
  induction is generalizing s with
  | nil => rfl
  | cons i is ih => exact ih.trans sameExcept_receive.localDomain

theorem run_remote {is : List Arrival} (hremote : k.domain ≠ s.localDomain)
    (hrows : ∀ u, s.user? k = some u → u.Remote) :
    ∀ u, (s.run is).user? k = some u → u.Remote := by
  induction is generalizing s with
  | nil => exact hrows
  | cons i is ih =>
      have hstep : RowStep s k i ((s.receive i).user? k) := rowStep_receive hremote hrows
      refine ih ?_ (hstep.remote hrows)
      rwa [sameExcept_receive.localDomain]

/-- After any arrivals the row stands under the profiles that were taken. -/
theorem run_holds {is : List Arrival} {before : List RemoteUserProfile}
    (hremote : k.domain ≠ s.localDomain) (hrows : ∀ u, s.user? k = some u → u.Remote)
    (hbefore : Holds before (s.user? k))
    (hagree : OneValue ((before ++ taken k s is).map RemoteUserProfile.stamp)) :
    Holds (before ++ taken k s is) ((s.run is).user? k) := by
  induction is generalizing s before with
  | nil =>
      rw [taken, List.append_nil]
      exact hbefore
  | cons i is ih =>
      rw [taken, ← List.append_assoc] at hagree ⊢
      have hstep : RowStep s k i ((s.receive i).user? k) := rowStep_receive hremote hrows
      have hremote' : k.domain ≠ (s.receive i).localDomain := by
        rwa [sameExcept_receive.localDomain]
      refine ih hremote' (hstep.remote hrows) (hstep.holds hbefore (hagree.subset ?_)) hagree
      exact List.map_subset _ (List.subset_append_left _ _)

theorem run_keeps {is : List Arrival} (hremote : k.domain ≠ s.localDomain)
    (hu : s.user? k = some u) (hrow : u.Remote) :
    ∃ u', (s.run is).user? k = some u' ∧ u.Keeps u' := by
  induction is generalizing s u with
  | nil => exact ⟨u, hu, .refl u⟩
  | cons i is ih =>
      have hrows (v : UserRow) (hv : s.user? k = some v) : v.Remote :=
        Option.some.inj (hu.symm.trans hv) ▸ hrow
      have hstep : RowStep s k i ((s.receive i).user? k) := rowStep_receive hremote hrows
      have hremote' : k.domain ≠ (s.receive i).localDomain := by
        rwa [sameExcept_receive.localDomain]
      obtain ⟨u₁, hu₁, hkeeps₁⟩ := hstep.keeps hu hrow
      obtain ⟨u₂, hu₂, hkeeps₂⟩ := ih hremote' hu₁ (hstep.remote hrows u₁ hu₁)
      exact ⟨u₂, hu₂, hkeeps₁.trans hkeeps₂⟩

theorem mem_seen {is : List Arrival} (hi : i ∈ is) (hsent : i.sent = some p) (hp : p.ref = k) :
    p ∈ seen k is :=
  List.mem_filter.mpr ⟨List.mem_filterMap.mpr ⟨i, hi, hsent⟩, decide_eq_true hp⟩

theorem taken_subset_seen (is : List Arrival) : taken k s is ⊆ seen k is := by
  induction is generalizing s with
  | nil => exact List.nil_subset _
  | cons i is ih =>
      intro p hp
      rcases List.mem_append.mp hp with hp | hp
      · obtain ⟨hsent, htaken⟩ := Option.filter_eq_some_iff.mp (Option.mem_toList.mp hp)
        exact mem_seen List.mem_cons_self hsent (of_decide_eq_true htaken).1
      · obtain ⟨hsent, href⟩ := List.mem_filter.mp (ih hp)
        obtain ⟨j, hj, hsent⟩ := List.mem_filterMap.mp hsent
        exact mem_seen (List.mem_cons_of_mem i hj) hsent (of_decide_eq_true href)

/-- However the profiles of a remote user arrive, its row holds the newest of
those it took, and it is resolved as soon as it took one. What it is
resolved to never changes, and its device generation never falls. -/
theorem remote_profile_converges {is : List Arrival} (hremote : k.domain ≠ s.localDomain)
    (hnew : s.user? k = none) (hhonest : OneValue ((seen k is).map RemoteUserProfile.stamp)) :
    (∀ u, (s.run is).user? k = some u → u.profileResolved = true →
      IsNewest ((taken k s is).map RemoteUserProfile.stamp) u.stamp) ∧
    (taken k s is ≠ [] → ∃ u, (s.run is).user? k = some u ∧ u.profileResolved = true) ∧
    ∀ js u, (s.run is).user? k = some u →
      ∃ u', (s.run (is ++ js)).user? k = some u' ∧ u.Keeps u' := by
  have hrows : ∀ u, s.user? k = some u → u.Remote := by
    rw [hnew]
    intro u hu
    cases hu
  have hagree : OneValue ((taken k s is).map RemoteUserProfile.stamp) :=
    hhonest.subset (List.map_subset _ (taken_subset_seen is))
  have hbefore : Holds [] (s.user? k) := by
    rw [hnew]
    rfl
  have hholds : Holds (taken k s is) ((s.run is).user? k) :=
    run_holds hremote hrows hbefore hagree
  refine ⟨fun u hu hresolved => ?_, fun htaken => ?_, fun js u hu => ?_⟩
  · rw [hu, Holds, if_pos hresolved] at hholds
    exact hholds
  · cases hu : (s.run is).user? k with
    | none =>
        rw [hu] at hholds
        exact absurd hholds htaken
    | some u =>
        refine ⟨u, rfl, ?_⟩
        by_contra hopaque
        rw [hu, Holds, if_neg hopaque] at hholds
        exact htaken hholds
  · rw [run_append]
    refine run_keeps ?_ hu (run_remote hremote hrows u hu)
    rwa [run_localDomain]

end

end

/-! ## A user of another server -/

/-- User 7 of `b.example`, under a handle and a version. -/
def sampleProfile (username : String) (version : Nat) : RemoteUserProfile :=
  { ref := ⟨7, "b.example"⟩, username
    profile := { displayName := some username }
    profileVersion := version }

def emptyUsers : Users := { localDomain := "a.example", remoteUsersPerIntroducer := 100 }

/-- A guild authority names the user, then the profiles arrive newest first. -/
def sampleArrivals : List Arrival :=
  [.delegated ["history_00"] (sampleProfile "ann" 1) "c.example",
    .profile [] (sampleProfile "ann" 2), .profile [] (sampleProfile "ann" 1)]

theorem remote_profile_converges_sample :
    (∀ u, (emptyUsers.run sampleArrivals).user? ⟨7, "b.example"⟩ = some u →
      u.profileResolved = true →
        IsNewest ((taken ⟨7, "b.example"⟩ emptyUsers sampleArrivals).map
          RemoteUserProfile.stamp) u.stamp) ∧
    taken ⟨7, "b.example"⟩ emptyUsers sampleArrivals =
      [sampleProfile "ann" 2, sampleProfile "ann" 1] ∧
    ∃ u, (emptyUsers.run sampleArrivals).user? ⟨7, "b.example"⟩ = some u ∧
      u.profileResolved = true := by
  have hhonest : OneValue ((seen ⟨7, "b.example"⟩ sampleArrivals).map RemoteUserProfile.stamp) := by
    decide
  have htaken : taken ⟨7, "b.example"⟩ emptyUsers sampleArrivals =
      [sampleProfile "ann" 2, sampleProfile "ann" 1] := by
    decide +kernel
  have hconverges := remote_profile_converges (s := emptyUsers) (by decide) rfl hhonest
  refine ⟨hconverges.1, htaken, hconverges.2.1 ?_⟩
  rw [htaken]
  exact List.cons_ne_nil _ _

/-- A home renames its user: the greatest version it sent is refused. -/
theorem renamed_profile_refused :
    OneValue ((seen ⟨7, "b.example"⟩ [.profile [] (sampleProfile "ann" 1),
      .profile [] (sampleProfile "anna" 2)]).map RemoteUserProfile.stamp) ∧
    ∃ u, (emptyUsers.run [.profile [] (sampleProfile "ann" 1),
        .profile [] (sampleProfile "anna" 2)]).user? ⟨7, "b.example"⟩ = some u ∧
      ¬ IsNewest ((seen ⟨7, "b.example"⟩ [.profile [] (sampleProfile "ann" 1),
        .profile [] (sampleProfile "anna" 2)]).map RemoteUserProfile.stamp) u.stamp := by
  have hstored : ((emptyUsers.run [.profile [] (sampleProfile "ann" 1),
      .profile [] (sampleProfile "anna" 2)]).user? ⟨7, "b.example"⟩).map
        (fun u => u.stamp.version) = some 1 := by
    decide +kernel
  obtain ⟨u, hu, hversion⟩ := Option.map_eq_some_iff.mp hstored
  refine ⟨by decide, u, hu, fun h => ?_⟩
  have hle : 2 ≤ u.stamp.version :=
    h.le ⟨2, { displayName := some "anna" }⟩ (by decide)
  omega

end Users

end Replication

end Kaede
