import Kaede.KeyPackageClaims
import Kaede.Settling

/-!
# The ledger of key packages

What holds of the tables between two claims (`Sound`), and what each part
of a claim does to them. Two facts carry everything. A claim only marks
packages that are free and only adds batches (`Grown`), so what was handed
out stays handed out for its operation. And an answer that was given once
can be given again from the tables: a user's and a bot's from their batch,
a webhook's from the mark on its package (`Settles`).
-/

namespace Kaede

variable {roster : Roster} {L L' L₁ L₂ : PackageLedger} {operation : OperationRef}
  {ks ks' : List (Device × List UInt8)} {now remaining maxDevices : Nat} {ctx : ClaimContext}

theorem E2EEKeyPackage.claim_ne_none {p : E2EEKeyPackage} (h : p.claimedFor operation = true) :
    p.claim ≠ none := by
  intro hnone
  simp [claimedFor, hnone] at h

theorem E2EEKeyPackage.claimedFor_unique {p : E2EEKeyPackage} {operation' : OperationRef}
    (h : p.claimedFor operation = true) (h' : p.claimedFor operation' = true) :
    operation = operation' := by
  cases hc : p.claim with
  | none => exact absurd hc (claim_ne_none h)
  | some c =>
      simp only [claimedFor, hc, Option.any_some, decide_eq_true_eq] at h h'
      exact h.symm.trans h'

namespace PackageLedger

/-- The package of this entry is marked for the operation. -/
def Handed (L : PackageLedger) (operation : OperationRef) (c : ClaimedPackage) : Prop :=
  ∃ p ∈ L.packages, p.key = c.key ∧ p.claimedFor operation = true

/-- Nothing that was marked or stored is lost. -/
structure Grown (L L' : PackageLedger) : Prop where
  keys : L'.packages.map E2EEKeyPackage.key = L.packages.map E2EEKeyPackage.key
  marked : ∀ p ∈ L.packages, p.claim ≠ none → p ∈ L'.packages
  batches : ∀ b ∈ L.batches, b ∈ L'.batches

/-- No row has changed but those with the keys `ks`, which are marked for
the operation. -/
def Marked (operation : OperationRef) (ks : List (Device × List UInt8)) (L L' : PackageLedger) :
    Prop :=
  ∀ p ∈ L'.packages, p ∈ L.packages ∨ p.key ∈ ks ∧ p.claimedFor operation = true

/-- Packages have been taken, and nothing else was written. -/
structure Taken (operation : OperationRef) (ks : List (Device × List UInt8))
    (L L' : PackageLedger) : Prop extends Grown L L' where
  batches_eq : L'.batches = L.batches
  marked_only : Marked operation ks L L'

theorem Grown.refl (L : PackageLedger) : Grown L L :=
  ⟨rfl, fun _ hp _ => hp, fun _ hb => hb⟩

theorem Grown.trans (h : Grown L L₁) (h' : Grown L₁ L₂) : Grown L L₂ where
  keys := h'.keys.trans h.keys
  marked p hp hc := h'.marked p (h.marked p hp hc) hc
  batches b hb := h'.batches b (h.batches b hb)

theorem Handed.grown {c : ClaimedPackage} (h : L.Handed operation c) (hg : Grown L L') :
    L'.Handed operation c := by
  obtain ⟨p, hp, hkey, hfor⟩ := h
  exact ⟨p, hg.marked p hp (E2EEKeyPackage.claim_ne_none hfor), hkey, hfor⟩

theorem Marked.refl (operation : OperationRef) (ks : List (Device × List UInt8))
    (L : PackageLedger) : Marked operation ks L L :=
  fun _ hp => .inl hp

theorem Marked.trans (h : Marked operation ks L L₁) (h' : Marked operation ks' L₁ L₂) :
    Marked operation (ks ++ ks') L L₂ := by
  intro p hp
  rcases h' p hp with hp | ⟨hk, hfor⟩
  · rcases h p hp with hp | ⟨hk, hfor⟩
    · exact .inl hp
    · exact .inr ⟨List.mem_append_left ks' hk, hfor⟩
  · exact .inr ⟨List.mem_append_right ks hk, hfor⟩

theorem Taken.refl (operation : OperationRef) (L : PackageLedger) : Taken operation [] L L where
  toGrown := .refl L
  batches_eq := rfl
  marked_only := .refl operation [] L

theorem Taken.trans (h : Taken operation ks L L₁) (h' : Taken operation ks' L₁ L₂) :
    Taken operation (ks ++ ks') L L₂ where
  toGrown := h.toGrown.trans h'.toGrown
  batches_eq := h'.batches_eq.trans h.batches_eq
  marked_only := h.marked_only.trans h'.marked_only

/-! ## Taking one package -/

theorem nextPackage_spec {device : Device} {p : E2EEKeyPackage}
    (h : L.nextPackage now device = some p) :
    p ∈ L.packages ∧ p.device = device ∧ p.claim = none := by
  have hmem := List.mem_of_mem_head? h
  rw [List.mem_insertionSort, List.mem_filter] at hmem
  obtain ⟨hp, ha⟩ := hmem
  simp only [E2EEKeyPackage.available, Bool.and_eq_true, decide_eq_true_eq,
    Option.isNone_iff_eq_none] at ha
  exact ⟨hp, ha.1.1.1, ha.1.1.2⟩

/-- One free package of the device is marked, and no other row changes. -/
theorem claimPackage_spec {claimedBy : Option UserRef} {device : Device}
    {r : E2EEKeyPackage × PackageLedger} (hkeys : (L.packages.map E2EEKeyPackage.key).Nodup)
    (h : L.claimPackage now claimedBy operation device = .ok r) :
    Taken operation [r.1.key] L r.2 ∧ r.1.device = device ∧
      ∃ p ∈ r.2.packages, p.key = r.1.key ∧ p.claimedFor operation = true := by
  obtain ⟨package, hnext, hr⟩ := found_bind_eq_ok.mp h
  obtain rfl := Except.ok.inj hr
  obtain ⟨hmem, hdevice, hfree⟩ := nextPackage_spec hnext
  refine ⟨⟨⟨?_, ?_, fun b hb => hb⟩, rfl, ?_⟩, hdevice, ?_⟩
  · exact map_key_updateBy fun q hq => hq
  · intro p hp hc
    refine mem_updateBy_of_ne hp fun hkey => hc ?_
    rw [List.inj_on_of_nodup_map hkeys hp hmem hkey]
    exact hfree
  · intro p hp
    rcases mem_updateBy hp with ⟨q, -, hkey, rfl⟩ | ⟨hp, -⟩
    · exact .inr ⟨List.mem_singleton.mpr hkey, by simp [E2EEKeyPackage.claimedFor]⟩
    · exact .inl hp
  · refine ⟨{ package with claim := some ⟨now, claimedBy, operation⟩ }, ?_, rfl, ?_⟩
    · exact List.mem_map.mpr ⟨package, hmem, if_pos rfl⟩
    · simp [E2EEKeyPackage.claimedFor]

end PackageLedger

open PackageLedger

/-- The entry for a device and the package just taken from it. -/
theorem E2EEDevice.claimed_handed (d : E2EEDevice) (user : UserRef) {package : E2EEKeyPackage}
    (hdevice : package.device = d.id)
    (h : ∃ p ∈ L.packages, p.key = package.key ∧ p.claimedFor operation = true) :
    L.Handed operation (d.claimed user package) ∧ (d.claimed user package).valid user = true := by
  obtain ⟨p, hp, hkey, hfor⟩ := h
  refine ⟨⟨p, hp, ?_, hfor⟩, ?_⟩
  · rw [hkey, E2EEKeyPackage.key, hdevice]
    rfl
  · simp [claimed, ClaimedPackage.valid, d.identityKey_length, d.credential_length,
      package.packageData_length]

/-! ## The loop over devices -/

/-- The entries are for the devices in order, each with its own package. -/
theorem claimDevices_spec {claimedBy : Option UserRef} {target : UserRef}
    {excluded : Option Device} {limit : Option Nat} {devices : List E2EEDevice}
    {claims : List ClaimedPackage} {r : List ClaimedPackage × PackageLedger}
    (hkeys : (L.packages.map E2EEKeyPackage.key).Nodup)
    (h : claimDevices now claimedBy operation target excluded limit devices claims L = .ok r) :
    ∃ new, r.1 = claims ++ new ∧ Taken operation (new.map (·.key)) L r.2 ∧
      new.map (·.deviceId) = (devices.map (·.id)).filter (fun d => excluded ≠ some d) ∧
      ∀ c ∈ new, r.2.Handed operation c ∧ c.valid target = true := by
  induction devices generalizing claims L with
  | nil =>
      obtain rfl := Except.ok.inj h
      exact ⟨[], (List.append_nil claims).symm, .refl operation L, rfl, by simp⟩
  | cons device rest ih =>
      unfold claimDevices at h
      split at h
      case isTrue hex =>
        obtain ⟨new, hr, ht, hids, hnew⟩ := ih hkeys h
        exact ⟨new, hr, ht, by simp [hids, hex], hnew⟩
      case isFalse hex =>
        obtain ⟨-, h⟩ := check_bind_eq_ok.mp h
        obtain ⟨q, hq, h⟩ := bind_eq_ok.mp h
        obtain ⟨ht₁, hdevice, hmarked⟩ := claimPackage_spec hkeys hq
        obtain ⟨hhanded, hvalid⟩ := device.claimed_handed target hdevice hmarked
        obtain ⟨new, hr, ht, hids, hnew⟩ := ih (by rw [ht₁.keys]; exact hkeys) h
        have hkey : (device.claimed target q.1).key = q.1.key := by
          rw [E2EEKeyPackage.key, hdevice]
          rfl
        have hid : (device.claimed target q.1).deviceId = device.id := rfl
        refine ⟨device.claimed target q.1 :: new, ?_, ?_, ?_, ?_⟩
        · rw [hr, List.append_assoc, List.singleton_append]
        · rw [List.map_cons, hkey]
          exact ht₁.trans ht
        · simp [hids, hid, hex]
        · intro c hc
          rcases List.mem_cons.mp hc with rfl | hc
          · exact ⟨hhanded.grown ht.toGrown, hvalid⟩
          · exact hnew c hc

/-! ## The invariant -/

namespace Roster

/-- The device is one of this user's or of this bot's. -/
def Owns (roster : Roster) (user : UserRef) (d : Device) : Prop :=
  (∃ row ∈ roster.userDevices, row.id = d ∧ row.owner = user) ∨
    ∃ row ∈ roster.botDevices, row.id = d ∧ row.owner = user

theorem Owns.kind {user : UserRef} {d : Device} (h : roster.Owns user d) : d.kind ≠ .kwe := by
  rcases h with ⟨row, -, rfl, -⟩ | ⟨row, -, rfl, -⟩
  · simp [row.id_kind]
  · simp [row.id_kind]

theorem Owns.unique {user user' : UserRef} {d : Device} (h : roster.Owns user d)
    (h' : roster.Owns user' d) : user = user' := by
  rcases h with ⟨row, hrow, rfl, rfl⟩ | ⟨row, hrow, rfl, rfl⟩ <;>
    rcases h' with ⟨row', hrow', hid, rfl⟩ | ⟨row', hrow', hid, rfl⟩
  · rw [List.inj_on_of_nodup_map roster.userDevices_nodup hrow' hrow hid]
  · have hkind := row'.id_kind
    rw [hid, row.id_kind] at hkind
    cases hkind
  · have hkind := row'.id_kind
    rw [hid, row.id_kind] at hkind
    cases hkind
  · rw [List.inj_on_of_nodup_map roster.botDevices_nodup hrow' hrow hid]

end Roster

/-- A device of the user that is not revoked and not the excluded one. -/
def Roster.UserDevice (roster : Roster) (user : UserRef) (excluded : Option Device) (d : Device) :
    Prop :=
  (∃ row ∈ roster.userDevices, row.id = d ∧ row.owner = user ∧ row.revoked = false) ∧
    excluded ≠ some d

/-- The devices a request is to have a package for. -/
def ClaimDigest.Covers (roster : Roster) (d : Device) : ClaimDigest → Prop
  | .package _ _ _ target excluded _ => roster.UserDevice target excluded d
  | .botPackage _ _ _ _ protocolIds _ => d ∈ protocolIds

/-- What a stored answer says is true of the packages. -/
structure E2EEPackageClaimBatch.Sound (roster : Roster) (L : PackageLedger)
    (b : E2EEPackageClaimBatch) : Prop where
  nodup : (b.response.map (·.deviceId)).Nodup
  covers : ∀ d, d ∈ b.response.map (·.deviceId) ↔ b.requestDigest.Covers roster d
  owned : ∀ c ∈ b.response, roster.Owns b.target c.deviceId
  handed : ∀ c ∈ b.response, L.Handed b.operation c ∧ c.valid b.target = true

theorem E2EEPackageClaimBatch.Sound.grown {b : E2EEPackageClaimBatch}
    (h : b.Sound roster L) (hg : Grown L L') : b.Sound roster L' where
  nodup := h.nodup
  covers := h.covers
  owned := h.owned
  handed c hc := ⟨(h.handed c hc).1.grown hg, (h.handed c hc).2⟩

namespace PackageLedger

structure Sound (roster : Roster) (L : PackageLedger) : Prop where
  keys : (L.packages.map E2EEKeyPackage.key).Nodup
  batchKeys : (L.batches.map fun b => (b.operation, b.target)).Nodup
  batches : ∀ b ∈ L.batches, b.Sound roster L
  /-- A webhook has at most one package marked for an operation. -/
  webhooks : ∀ operation, ∀ p ∈ L.packages, ∀ q ∈ L.packages, p.device.kind = .kwe →
    p.device = q.device → p.claimedFor operation = true → q.claimedFor operation = true → p = q

/-- No claim has been made yet; rows of one device differ in their bytes. -/
structure Unclaimed (L : PackageLedger) : Prop where
  keys : (L.packages.map E2EEKeyPackage.key).Nodup
  free : ∀ p ∈ L.packages, p.claim = none
  batches : L.batches = []

theorem Unclaimed.sound (h : Unclaimed L) : Sound roster L where
  keys := h.keys
  batchKeys := by simp [h.batches]
  batches b hb := by simp [h.batches] at hb
  webhooks _ p hp _ _ _ _ hfor _ := absurd (h.free p hp) (E2EEKeyPackage.claim_ne_none hfor)

theorem Sound.taken (h : Sound roster L) (ht : Taken operation ks L L')
    (hks : ∀ k ∈ ks, k.1.kind ≠ .kwe) : Sound roster L' where
  keys := by rw [ht.keys]; exact h.keys
  batchKeys := by rw [ht.batches_eq]; exact h.batchKeys
  batches b hb := by
    rw [ht.batches_eq] at hb
    exact (h.batches b hb).grown ht.toGrown
  webhooks operation' p hp q hq hkind hdevice hfor hfor' := by
    rcases ht.marked_only p hp with hp | ⟨hk, -⟩
    · rcases ht.marked_only q hq with hq | ⟨hk, -⟩
      · exact h.webhooks operation' p hp q hq hkind hdevice hfor hfor'
      · rw [hdevice] at hkind
        exact absurd hkind (hks q.key hk)
    · exact absurd hkind (hks p.key hk)

theorem Sound.store {b : E2EEPackageClaimBatch} (h : Sound roster L)
    (hnew : L.batch? b.operation b.target = none) (hb : b.Sound roster L) :
    Sound roster (L.store b) where
  keys := h.keys
  batchKeys := by
    have hfresh := lookupBy_eq_none hnew
    simp only [PackageLedger.store, List.map_append, List.map_cons, List.map_nil]
    refine List.nodup_append.mpr ⟨h.batchKeys, List.nodup_singleton _, ?_⟩
    intro k hk k' hk' he
    obtain ⟨b', hb', rfl⟩ := List.mem_map.mp hk
    exact hfresh b' hb' (he.trans (List.mem_singleton.mp hk'))
  batches b' hb' := by
    have hsame : Grown L (L.store b) := ⟨rfl, fun _ hp _ => hp, fun _ h => List.mem_append_left _ h⟩
    rcases List.mem_append.mp hb' with hb' | hb'
    · exact (h.batches b' hb').grown hsame
    · rw [List.mem_singleton.mp hb']
      exact hb.grown hsame
  webhooks := h.webhooks

/-! ## Answering from a batch -/

/-- The answer to the request of the batch `b` is on record. -/
def Answered (L : PackageLedger) (b : E2EEPackageClaimBatch) (claims : List ClaimedPackage) :
    Prop :=
  ∃ batch ∈ L.batches, batch.operation = b.operation ∧ batch.target = b.target ∧
    batch.requestDigest = b.requestDigest ∧ batch.response = claims

theorem Answered.grown {b : E2EEPackageClaimBatch} {claims : List ClaimedPackage}
    (h : L.Answered b claims) (hg : Grown L L') : L'.Answered b claims := by
  obtain ⟨batch, hmem, hrest⟩ := h
  exact ⟨batch, hg.batches batch hmem, hrest⟩

/-- A first claim for `b`: the packages of the answer are taken, and the
answer is worth storing. -/
def FirstClaim (roster : Roster) (L : PackageLedger) (b : E2EEPackageClaimBatch)
    (r : List ClaimedPackage × PackageLedger) : Prop :=
  Taken b.operation (r.1.map (·.key)) L r.2 ∧
    E2EEPackageClaimBatch.Sound roster r.2 { b with response := r.1 }

theorem answer_spec {b : E2EEPackageClaimBatch}
    {fresh : Except ClaimError (List ClaimedPackage × PackageLedger)}
    {r : List ClaimedPackage × PackageLedger} (hs : Sound roster L)
    (hfresh : ∀ r, fresh = .ok r → FirstClaim roster L b r) (h : L.answer b fresh = .ok r) :
    Sound roster r.2 ∧ Grown L r.2 ∧ r.2.Answered b r.1 ∧
      Marked b.operation (r.1.map (·.key)) L r.2 := by
  unfold answer at h
  split at h
  case h_1 batch hbatch =>
    obtain ⟨stored, hstored, hr⟩ := bind_eq_ok.mp h
    obtain rfl := Except.ok.inj hr
    obtain ⟨hdigest, hstored⟩ := check_bind_eq_ok.mp hstored
    obtain ⟨-, hstored⟩ := check_bind_eq_ok.mp hstored
    have hkey := key_of_lookupBy hbatch
    obtain ⟨hop, htarget⟩ := Prod.mk.inj hkey
    have hanswered : L.Answered b stored :=
      ⟨batch, mem_of_lookupBy hbatch, hop, htarget, ensure_eq_ok.mp hdigest,
        Except.ok.inj hstored⟩
    exact ⟨hs, .refl L, hanswered, .refl _ _ L⟩
  case h_2 hnone =>
    obtain ⟨r₁, hr₁, hr⟩ := bind_eq_ok.mp h
    obtain rfl := Except.ok.inj hr
    obtain ⟨ht, hb⟩ := hfresh r₁ hr₁
    have hkind : ∀ k ∈ r₁.1.map (·.key), k.1.kind ≠ .kwe := by
      intro k hk
      obtain ⟨c, hc, rfl⟩ := List.mem_map.mp hk
      exact (hb.owned c hc).kind
    have hnone' : r₁.2.batch? b.operation b.target = none := by
      rw [batch?, ht.batches_eq]
      exact hnone
    refine ⟨(hs.taken ht hkind).store hnone' hb, ?_, ?_, ht.marked_only⟩
    · exact ht.toGrown.trans ⟨rfl, fun _ hp _ => hp, fun _ h => List.mem_append_left _ h⟩
    · exact ⟨_, List.mem_append_right _ (List.mem_singleton_self _), rfl, rfl, rfl, rfl⟩

theorem answer_again {b : E2EEPackageClaimBatch} {claims : List ClaimedPackage}
    (hs : Sound roster L) (h : L.Answered b claims)
    (fresh : Except ClaimError (List ClaimedPackage × PackageLedger)) :
    L.answer b fresh = .ok (claims, L) := by
  obtain ⟨batch, hmem, hop, htarget, hdigest, rfl⟩ := h
  have hbatch : L.batch? b.operation b.target = some batch := by
    rw [batch?, ← hop, ← htarget]
    exact lookupBy_of_mem hs.batchKeys hmem
  have hvalid : batch.response.all (·.valid batch.target) = true := by
    rw [List.all_eq_true]
    exact fun c hc => ((hs.batches batch hmem).handed c hc).2
  have hreplay : batch.replay b.requestDigest = .ok batch.response := by
    unfold E2EEPackageClaimBatch.replay
    rw [(ensure_eq_ok (u := ())).mpr hdigest, ok_bind,
      (ensure_eq_ok (u := ())).mpr hvalid, ok_bind]
    rfl
  unfold answer
  rw [hbatch]
  show (batch.replay b.requestDigest >>= fun stored => Except.ok (stored, L)) = _
  rw [hreplay, ok_bind]

theorem answer_settles {b : E2EEPackageClaimBatch}
    {fresh : Nat → PackageLedger → Except ClaimError (List ClaimedPackage × PackageLedger)}
    (hfresh : ∀ now L r, Sound roster L → fresh now L = .ok r → FirstClaim roster L b r) :
    Settles (Sound roster) Grown fun now L => L.answer b (fresh now L) := by
  intro now L r hs h
  obtain ⟨hs', hg, hanswered, -⟩ := answer_spec hs (fun r hr => hfresh now L r hs hr) h
  refine ⟨hs', hg, fun now' L' hs' hg' => ?_⟩
  exact answer_again hs' (hanswered.grown hg') _

end PackageLedger

end Kaede
