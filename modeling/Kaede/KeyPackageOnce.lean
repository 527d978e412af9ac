import Mathlib.Data.List.Dedup
import Kaede.KeyPackageLedger

/-!
# Key packages are used once

The parts of a claim are put together. Each part settles, so a retried
claim answers from the tables as it did the first time. The entries of a
claim are counted against its device limit: a target that comes twice
would meet its own batch with another limit, so no device is answered
twice (`Accounted`). Over a run, what is marked stays marked, and a second
operation cannot be handed the same package.
-/

namespace Kaede

open PackageLedger

variable {roster : Roster} {L L' L₀ L₁ L₂ : PackageLedger} {operation : OperationRef}
  {now remaining maxDevices : Nat} {ctx : ClaimContext}

/-! ## First claims -/

theorem mem_iff_of_sameDevices {xs ys : List Device} (h : sameDevices xs ys = true) (d : Device) :
    d ∈ xs ↔ d ∈ ys := by
  simp only [sameDevices, Bool.and_eq_true, List.all_eq_true, decide_eq_true_eq] at h
  exact ⟨h.1 d, h.2 d⟩

namespace Roster

theorem mem_activeDevices {user : UserRef} {d : UserE2EEDevice} :
    d ∈ roster.activeDevices user ↔
      d ∈ roster.userDevices ∧ d.owner = user ∧ d.revoked = false := by
  simp [activeDevices, List.mem_insertionSort]

/-- Rows that are selected and sorted have the keys of their table. -/
theorem nodup_sorted_filter {α κ : Type*} {key : α → κ} {rows : List α} (h : (rows.map key).Nodup)
    (r : α → α → Prop) [DecidableRel r] (p : α → Bool) :
    (((rows.filter p).insertionSort r).map key).Nodup := by
  have hperm := (List.perm_insertionSort r (rows.filter p)).map key
  rw [hperm.nodup_iff]
  exact h.sublist (List.filter_sublist.map key)

theorem nodup_activeDevices (user : UserRef) :
    ((roster.activeDevices user).map (·.id)).Nodup :=
  nodup_sorted_filter roster.userDevices_nodup _ _

theorem nodup_liveBotDevices (bot : UserRef) (requested : List Device) :
    ((roster.liveBotDevices bot now requested).map (·.id)).Nodup :=
  nodup_sorted_filter roster.botDevices_nodup _ _

theorem claimUser_first {target : UserRef} {claimedBy : Option UserRef} {limit : Option Nat}
    {r : List ClaimedPackage × PackageLedger} (hs : L.Sound roster)
    (h : claimDevices now claimedBy ctx.operation target ctx.excludedDevice limit
      ((roster.activeDevices target).map (·.toE2EEDevice)) [] L = .ok r) :
    FirstClaim roster L (ctx.batch target remaining) r := by
  obtain ⟨new, hnew, ht, hids, hentries⟩ := claimDevices_spec hs.keys h
  rw [List.nil_append] at hnew
  subst hnew
  rw [List.map_map] at hids
  have hcovered : ∀ d, d ∈ r.1.map (·.deviceId) ↔
      roster.UserDevice target ctx.excludedDevice d := by
    intro d
    rw [hids, List.mem_filter, List.mem_map, UserDevice]
    simp only [mem_activeDevices, Function.comp_apply, decide_eq_true_eq]
    refine and_congr_left' ?_
    constructor
    · rintro ⟨row, ⟨hrow, howner, hlive⟩, hid⟩
      exact ⟨row, hrow, hid, howner, hlive⟩
    · rintro ⟨row, hrow, hid, howner, hlive⟩
      exact ⟨row, ⟨hrow, howner, hlive⟩, hid⟩
  refine ⟨ht, ?_, hcovered, ?_, fun c hc => hentries c hc⟩
  · rw [hids]
    exact (roster.nodup_activeDevices target).filter _
  · intro c hc
    obtain ⟨⟨row, hrow, hid, howner, -⟩, -⟩ := (hcovered c.deviceId).mp (List.mem_map_of_mem hc)
    exact .inl ⟨row, hrow, hid, howner⟩

theorem claimBot_first {target : UserRef} {protocolIds : List Device}
    {r : List ClaimedPackage × PackageLedger} (hs : L.Sound roster)
    (h : roster.claimBotE2eeKeyPackages target protocolIds ctx.operation now L = .ok r) :
    FirstClaim roster L (ctx.botBatch target protocolIds maxDevices) r := by
  obtain ⟨-, h⟩ := check_bind_eq_ok.mp h
  obtain ⟨hsame, h⟩ := check_bind_eq_ok.mp h
  have hsame := mem_iff_of_sameDevices (ensure_eq_ok.mp hsame)
  obtain ⟨new, hnew, ht, hids, hentries⟩ := claimDevices_spec hs.keys h
  rw [List.nil_append] at hnew
  subst hnew
  have hids : r.1.map (·.deviceId) =
      (roster.liveBotDevices target now protocolIds.dedup).map (·.id) := by
    rw [hids, List.map_map, List.filter_eq_self.mpr]
    · rfl
    · intro d _
      simp
  refine ⟨ht, ?_, ?_, ?_, fun c hc => hentries c hc⟩
  · rw [hids]
    exact roster.nodup_liveBotDevices target _
  · intro d
    rw [hids, hsame d, List.mem_dedup]
    rfl
  · intro c hc
    have hmem : c.deviceId ∈ r.1.map (·.deviceId) := List.mem_map_of_mem hc
    rw [hids] at hmem
    obtain ⟨row, hrow, hid⟩ := List.mem_map.mp hmem
    rw [liveBotDevices, List.mem_insertionSort, List.mem_filter] at hrow
    simp only [Bool.and_eq_true, decide_eq_true_eq] at hrow
    exact .inr ⟨row, hrow.1, hid, hrow.2.1.1.1.1.1⟩

/-! ## Each part settles -/

theorem claimParticipant_settles (participant : RoomUser) :
    Settles (Sound roster) Grown fun now L =>
      roster.claimParticipant ctx now remaining participant L := by
  refine Settles.read fun _ _ => Settles.read fun _ _ => Settles.read fun _ _ => ?_
  refine answer_settles fun now L r hs h => ?_
  obtain ⟨-, h⟩ := check_bind_eq_ok.mp h
  exact claimUser_first hs h

theorem claimLocalRoomKeyPackages_settles (participants : List RoomUser)
    (claimed : List ClaimedPackage) :
    Settles (Sound roster) Grown fun now L =>
      roster.claimLocalRoomKeyPackages ctx now maxDevices participants claimed L := by
  induction participants generalizing claimed with
  | nil => exact settles_ok .refl claimed
  | cons participant rest ih =>
      exact Settles.bind .trans (claimParticipant_settles participant) fun claims =>
        ih (claimed ++ claims)

theorem claimLocalBotRoomKeyPackages_settles (target : UserRef) (protocolIds : List Device) :
    Settles (Sound roster) Grown fun now L =>
      roster.claimLocalBotRoomKeyPackages ctx target protocolIds maxDevices now L := by
  refine Settles.read fun _ _ => answer_settles fun now L r hs h => ?_
  exact claimBot_first hs h

theorem claimBots_settles (bots : List RoomUser) (claimed : List ClaimedPackage) :
    Settles (Sound roster) Grown fun now L => roster.claimBots ctx now bots claimed L := by
  induction bots generalizing claimed with
  | nil => exact settles_ok .refl claimed
  | cons bot rest ih =>
      refine Settles.read fun protocolIds _ => ?_
      exact Settles.bind .trans (claimLocalBotRoomKeyPackages_settles bot.ref protocolIds)
        fun claims => ih (claimed ++ claims)

end Roster

/-- A webhook's package is the one marked for the operation, taken now if
there was none. -/
theorem claimWebhookDevice_spec {device : WebhookE2EEDevice}
    {r : ClaimedPackage × PackageLedger} (hs : L.Sound roster)
    (h : claimWebhookDevice now operation device L = .ok r) :
    Sound roster r.2 ∧ Grown L r.2 ∧ Marked operation [r.1.key] L r.2 ∧
      ∃ p ∈ r.2.packages, p.device = device.id ∧ p.claimedFor operation = true ∧
        r.1 = device.claimed device.owner p := by
  unfold claimWebhookDevice at h
  split at h
  case h_1 package hfind =>
    obtain rfl := Except.ok.inj h
    have hp := List.find?_some hfind
    simp only [Bool.and_eq_true, decide_eq_true_eq] at hp
    exact ⟨hs, .refl L, .refl _ _ L, package, List.mem_of_find?_eq_some hfind, hp.1, hp.2, rfl⟩
  case h_2 hnone =>
    obtain ⟨q, hq, hr⟩ := bind_eq_ok.mp h
    obtain rfl := Except.ok.inj hr
    obtain ⟨ht, hdevice, p, hp, hkey, hfor⟩ := claimPackage_spec hs.keys hq
    have hkeys : (q.2.packages.map E2EEKeyPackage.key).Nodup := by
      rw [ht.keys]
      exact hs.keys
    have hfree : ∀ p ∈ L.packages, p.device = device.id → p.claimedFor operation = false := by
      simpa using hnone
    -- a row that was already there is not marked for this operation
    have hnew : ∀ p' ∈ q.2.packages, p'.device = device.id → p'.claimedFor operation = true →
        p' = p := by
      intro p' hp' hd hfor'
      rcases ht.marked_only p' hp' with hold | ⟨hk, -⟩
      · rw [hfree p' hold hd] at hfor'
        cases hfor'
      · exact List.inj_on_of_nodup_map hkeys hp' hp ((List.mem_singleton.mp hk).trans hkey.symm)
    refine ⟨⟨hkeys, ?_, ?_, ?_⟩, ht.toGrown, ?_, p, hp, ?_, hfor, ?_⟩
    · rw [ht.batches_eq]
      exact hs.batchKeys
    · intro b hb
      rw [ht.batches_eq] at hb
      exact (hs.batches b hb).grown ht.toGrown
    · intro operation' p₁ hp₁ p₂ hp₂ hkind hd h₁ h₂
      rcases ht.marked_only p₁ hp₁ with hold₁ | ⟨hk₁, hop₁⟩
      · rcases ht.marked_only p₂ hp₂ with hold₂ | ⟨hk₂, hop₂⟩
        · exact hs.webhooks operation' p₁ hold₁ p₂ hold₂ hkind hd h₁ h₂
        · obtain rfl := E2EEKeyPackage.claimedFor_unique h₂ hop₂
          have hd₂ : p₂.device = device.id := by
            rw [← hdevice]
            exact congrArg Prod.fst (List.mem_singleton.mp hk₂)
          rw [hnew p₁ hp₁ (hd.trans hd₂) h₁, hnew p₂ hp₂ hd₂ h₂]
      · obtain rfl := E2EEKeyPackage.claimedFor_unique h₁ hop₁
        have hd₁ : p₁.device = device.id := by
          rw [← hdevice]
          exact congrArg Prod.fst (List.mem_singleton.mp hk₁)
        rw [hnew p₁ hp₁ hd₁ h₁, hnew p₂ hp₂ (hd.symm.trans hd₁) h₂]
    · have hk : (device.claimed device.owner q.1).key = q.1.key := by
        rw [E2EEKeyPackage.key, hdevice]
        rfl
      rw [hk]
      exact ht.marked_only
    · rw [← hdevice]
      exact congrArg Prod.fst hkey
    · have hdata : p.packageData = q.1.packageData := congrArg Prod.snd hkey
      simp [E2EEDevice.claimed, hdata]

theorem claimWebhookDevice_settles (device : WebhookE2EEDevice) :
    Settles (Sound roster) Grown fun now L => claimWebhookDevice now operation device L := by
  intro now L r hs h
  obtain ⟨hs', hg, -, p, hp, hd, hfor, hr⟩ := claimWebhookDevice_spec hs h
  refine ⟨hs', hg, fun now' L' hs' hg' => ?_⟩
  have hp' := hg'.marked p hp (E2EEKeyPackage.claim_ne_none hfor)
  show claimWebhookDevice now' operation device L' = _
  unfold claimWebhookDevice
  split
  case h_1 package hfind =>
    have hq := List.find?_some hfind
    simp only [Bool.and_eq_true, decide_eq_true_eq] at hq
    have hkind : package.device.kind = .kwe := by rw [hq.1, device.id_kind]
    rw [hs'.webhooks operation package (List.mem_of_find?_eq_some hfind) p hp' hkind
      (hq.1.trans hd.symm) hq.2 hfor, hr]
  case h_2 hnone =>
    have hfree := List.find?_eq_none.mp hnone p hp'
    simp [hd, hfor] at hfree

theorem claimWebhookDevices_settles (devices : List WebhookE2EEDevice)
    (claims : List ClaimedPackage) :
    Settles (Sound roster) Grown fun now L =>
      claimWebhookDevices now operation devices claims L := by
  induction devices generalizing claims with
  | nil => exact settles_ok .refl claims
  | cons device rest ih =>
      exact Settles.bind .trans (claimWebhookDevice_settles device) fun c => ih (claims ++ [c])

namespace Roster

theorem claimRoomLocally_settles (participants : List RoomUser) :
    Settles (Sound roster) Grown fun now L =>
      roster.claimRoomLocally ctx participants now L := by
  have hwebhooks : ∀ claimed : List ClaimedPackage, Settles (Sound roster) Grown fun now L =>
      (roster.claimWebhookE2eeKeyPackages ctx (maxRoomE2eeDevices - claimed.length) now L >>=
        fun w => .ok (claimed ++ w.1, w.2)) := by
    intro claimed
    exact Settles.map (fun w => claimed ++ w)
      (Settles.read fun _ _ => claimWebhookDevices_settles _ [])
  have hbots : ∀ claimed, Settles (Sound roster) Grown fun now L =>
      (roster.claimBots ctx now (participants.filter fun p =>
        p.ref.domain = roster.domain && p.isBot) claimed L >>= fun r =>
          roster.claimWebhookE2eeKeyPackages ctx (maxRoomE2eeDevices - r.1.length) now r.2 >>=
            fun w => .ok (r.1 ++ w.1, w.2)) :=
    fun claimed => Settles.bind .trans (claimBots_settles _ claimed) hwebhooks
  exact Settles.bind .trans (claimLocalRoomKeyPackages_settles _ []) hbots

theorem federationClaim_settles (origin : String) (payload : E2EEKeyPackageClaimRequest)
    (authorized restricted : Bool) :
    Settles (Sound roster) Grown fun now L =>
      roster.federationClaim origin payload authorized restricted now L := by
  refine Settles.read fun _ _ => Settles.read fun target _ => Settles.read fun _ _ =>
    Settles.read fun _ _ => ?_
  by_cases hbot : target.isBot = true
  · simp only [hbot, if_true]
    exact Settles.read fun _ _ => Settles.read fun _ _ =>
      claimLocalBotRoomKeyPackages_settles payload.target payload.botDeviceIds
  · simp only [hbot]
    exact Settles.read fun _ _ => claimLocalRoomKeyPackages_settles [target] []

end Roster

theorem ClaimTransaction.perform_settles (tx : ClaimTransaction) :
    Settles (Sound roster) Grown fun now L => tx.perform roster now L := by
  cases tx with
  | room ctx participants => exact Roster.claimRoomLocally_settles participants
  | federated origin payload authorized restricted =>
      exact Roster.federationClaim_settles origin payload authorized restricted

/-! ## One entry for each device -/

def ClaimDigest.limit : ClaimDigest → Nat
  | .package _ _ _ _ _ n => n
  | .botPackage _ _ _ _ _ n => n

/-- The entries collected since `L₀`. The batch an entry comes from was
stored with a larger limit than the one that is left now. -/
structure Accounted (roster : Roster) (operation : OperationRef) (maxDevices : Nat)
    (L₀ L : PackageLedger) (claimed : List ClaimedPackage) : Prop where
  nodup : (claimed.map (·.deviceId)).Nodup
  owned : ∀ c ∈ claimed, roster.Owns c.user c.deviceId
  handed : ∀ c ∈ claimed, L.Handed operation c
  batch : ∀ c ∈ claimed, ∃ b ∈ L.batches, b.operation = operation ∧ b.target = c.user ∧
    maxDevices - claimed.length < b.requestDigest.limit
  marked : Marked operation (claimed.map (·.key)) L₀ L

theorem Accounted.nil : Accounted roster operation maxDevices L L [] where
  nodup := List.nodup_nil
  owned _ hc := absurd hc List.not_mem_nil
  handed _ hc := absurd hc List.not_mem_nil
  batch _ hc := absurd hc List.not_mem_nil
  marked := .refl operation [] L

/-- The answer to the next target is appended. -/
theorem Accounted.append {b : E2EEPackageClaimBatch} {claimed claims : List ClaimedPackage}
    (h : Accounted roster b.operation maxDevices L₀ L claimed) (hs : Sound roster L')
    (hg : Grown L L') (ha : L'.Answered b claims)
    (hm : Marked b.operation (claims.map (·.key)) L L')
    (hlimit : b.requestDigest.limit = maxDevices - claimed.length)
    (hpos : 0 < maxDevices - claimed.length) :
    Accounted roster b.operation maxDevices L₀ L' (claimed ++ claims) := by
  obtain ⟨batch, hbatch, hop, htarget, hdigest, rfl⟩ := ha
  have hsound := hs.batches batch hbatch
  rw [← hdigest] at hlimit
  have huser : ∀ c ∈ batch.response, c.user = batch.target := by
    intro c hc
    have hvalid := (hsound.handed c hc).2
    simp only [ClaimedPackage.valid, Bool.and_eq_true, decide_eq_true_eq] at hvalid
    exact hvalid.1.1.1
  refine ⟨?_, ?_, ?_, ?_, ?_⟩
  · rw [List.map_append]
    refine List.nodup_append.mpr ⟨h.nodup, hsound.nodup, ?_⟩
    intro d hd d' hd' hdd
    obtain ⟨c, hc, rfl⟩ := List.mem_map.mp hd
    obtain ⟨c', hc', hid⟩ := List.mem_map.mp hd'
    -- the same device means the same target, hence the same batch: but its limit was larger
    have howner : roster.Owns batch.target c.deviceId := by
      rw [hdd, ← hid]
      exact hsound.owned c' hc'
    obtain ⟨b₀, hb₀, hop₀, htarget₀, hlt⟩ := h.batch c hc
    have hsame : b₀ = batch := by
      refine List.inj_on_of_nodup_map hs.batchKeys (hg.batches b₀ hb₀) hbatch ?_
      rw [hop₀, hop, htarget₀, (h.owned c hc).unique howner]
    rw [hsame, hlimit] at hlt
    exact absurd hlt (Nat.lt_irrefl _)
  · intro c hc
    rcases List.mem_append.mp hc with hc | hc
    · exact h.owned c hc
    · rw [huser c hc]
      exact hsound.owned c hc
  · intro c hc
    rcases List.mem_append.mp hc with hc | hc
    · exact (h.handed c hc).grown hg
    · rw [← hop]
      exact (hsound.handed c hc).1
  · intro c hc
    rw [List.length_append]
    rcases List.mem_append.mp hc with hc | hc
    · obtain ⟨b₀, hb₀, hop₀, htarget₀, hlt⟩ := h.batch c hc
      exact ⟨b₀, hg.batches b₀ hb₀, hop₀, htarget₀, by omega⟩
    · have hlength := List.length_pos_of_mem hc
      exact ⟨batch, hbatch, hop, (huser c hc).symm, by omega⟩
  · rw [List.map_append]
    exact h.marked.trans hm

/-- The devices of an answer on record. -/
theorem PackageLedger.Answered.devices {b : E2EEPackageClaimBatch} {claims : List ClaimedPackage}
    (h : L.Answered b claims) (hs : Sound roster L) (d : Device) :
    d ∈ claims.map (·.deviceId) ↔ b.requestDigest.Covers roster d := by
  obtain ⟨batch, hbatch, -, -, hdigest, rfl⟩ := h
  rw [(hs.batches batch hbatch).covers d, hdigest]

theorem PackageLedger.Answered.nodup {b : E2EEPackageClaimBatch} {claims : List ClaimedPackage}
    (h : L.Answered b claims) (hs : Sound roster L) : (claims.map (·.deviceId)).Nodup := by
  obtain ⟨batch, hbatch, -, -, -, rfl⟩ := h
  exact (hs.batches batch hbatch).nodup

theorem PackageLedger.Answered.handed {b : E2EEPackageClaimBatch} {claims : List ClaimedPackage}
    (h : L.Answered b claims) (hs : Sound roster L) : ∀ c ∈ claims, L.Handed b.operation c := by
  obtain ⟨batch, hbatch, hop, -, -, rfl⟩ := h
  rw [← hop]
  exact fun c hc => ((hs.batches batch hbatch).handed c hc).1

namespace Roster

theorem claimLocalRoomKeyPackages_spec {participants : List RoomUser}
    {claimed : List ClaimedPackage} {r : List ClaimedPackage × PackageLedger}
    (hs : Sound roster L) (h : Accounted roster ctx.operation maxDevices L₀ L claimed)
    (hr : roster.claimLocalRoomKeyPackages ctx now maxDevices participants claimed L = .ok r) :
    Sound roster r.2 ∧ Accounted roster ctx.operation maxDevices L₀ r.2 r.1 ∧
      ∀ d, d ∈ r.1.map (·.deviceId) ↔ d ∈ claimed.map (·.deviceId) ∨
        ∃ p ∈ participants, roster.UserDevice p.ref ctx.excludedDevice d := by
  induction participants generalizing claimed L with
  | nil =>
      obtain rfl := Except.ok.inj hr
      exact ⟨hs, h, by simp⟩
  | cons participant rest ih =>
      obtain ⟨q, hq, hr⟩ := bind_eq_ok.mp hr
      obtain ⟨-, hq⟩ := check_bind_eq_ok.mp hq
      obtain ⟨-, hq⟩ := check_bind_eq_ok.mp hq
      obtain ⟨hpos, hq⟩ := check_bind_eq_ok.mp hq
      obtain ⟨hs', hg, ha, hm⟩ := answer_spec hs (fun r hr =>
        claimUser_first hs (check_bind_eq_ok.mp hr).2) hq
      obtain ⟨hsr, hacc, hdevices⟩ := ih hs'
        (h.append (b := ctx.batch participant.ref (maxDevices - claimed.length)) hs' hg ha hm rfl
          (ensure_eq_ok.mp hpos)) hr
      refine ⟨hsr, hacc, fun d => ?_⟩
      have hclaims := ha.devices hs' d
      rw [hdevices d, List.map_append, List.mem_append, hclaims, List.exists_mem_cons_iff, or_assoc]
      rfl

/-- A trusted device of the bot, admitted to the channel. -/
def BotDevice (roster : Roster) (channel : ChannelRef) (bot : UserRef) (d : Device) : Prop :=
  ∃ row ∈ roster.botDevices, row.id = d ∧ row.owner = bot ∧ row.trusted = true ∧
    row.revoked = false ∧ roster.admitted d channel = true

theorem botParticipantDeviceIds_spec {channel : ChannelRef} {bot : UserRef} {ids : List Device}
    (h : roster.botParticipantDeviceIds channel bot = .ok ids) :
    ids ≠ [] ∧ ∀ d, d ∈ ids ↔ roster.BotDevice channel bot d := by
  obtain ⟨-, h⟩ := check_bind_eq_ok.mp h
  obtain ⟨hne, h⟩ := check_bind_eq_ok.mp h
  obtain rfl := Except.ok.inj h
  refine ⟨ensure_eq_ok.mp hne, fun d => ?_⟩
  simp only [List.mem_insertionSort, List.mem_map, List.mem_filter, Bool.and_eq_true,
    decide_eq_true_eq, Bool.not_eq_true', BotDevice]
  constructor
  · rintro ⟨row, ⟨hrow, ⟨⟨howner, htrusted⟩, hlive⟩, hadmitted⟩, rfl⟩
    exact ⟨row, hrow, rfl, howner, htrusted, hlive, hadmitted⟩
  · rintro ⟨row, hrow, rfl, howner, htrusted, hlive, hadmitted⟩
    exact ⟨row, ⟨hrow, ⟨⟨howner, htrusted⟩, hlive⟩, hadmitted⟩, rfl⟩

theorem claimBots_spec {bots : List RoomUser} {claimed : List ClaimedPackage}
    {r : List ClaimedPackage × PackageLedger} (hs : Sound roster L)
    (h : Accounted roster ctx.operation maxRoomE2eeDevices L₀ L claimed)
    (hr : roster.claimBots ctx now bots claimed L = .ok r) :
    Sound roster r.2 ∧ Accounted roster ctx.operation maxRoomE2eeDevices L₀ r.2 r.1 ∧
      ∀ d, d ∈ r.1.map (·.deviceId) ↔ d ∈ claimed.map (·.deviceId) ∨
        ∃ p ∈ bots, roster.BotDevice ctx.channel p.ref d := by
  induction bots generalizing claimed L with
  | nil =>
      obtain rfl := Except.ok.inj hr
      exact ⟨hs, h, by simp⟩
  | cons bot rest ih =>
      obtain ⟨ids, hids, hr⟩ := bind_eq_ok.mp hr
      obtain ⟨q, hq, hr⟩ := bind_eq_ok.mp hr
      obtain ⟨hlimit, hq⟩ := check_bind_eq_ok.mp hq
      obtain ⟨hne, hids⟩ := botParticipantDeviceIds_spec hids
      have hpos : 0 < maxRoomE2eeDevices - claimed.length :=
        Nat.lt_of_lt_of_le (List.length_pos_iff.mpr hne) (ensure_eq_ok.mp hlimit)
      obtain ⟨hs', hg, ha, hm⟩ := answer_spec hs (fun r hr => claimBot_first hs hr) hq
      obtain ⟨hsr, hacc, hdevices⟩ := ih hs'
        (h.append (b := ctx.botBatch bot.ref ids (maxRoomE2eeDevices - claimed.length))
          hs' hg ha hm rfl hpos) hr
      refine ⟨hsr, hacc, fun d => ?_⟩
      have hclaims : d ∈ q.1.map (·.deviceId) ↔ d ∈ ids := ha.devices hs' d
      rw [hdevices d, List.map_append, List.mem_append, hclaims, hids d,
        List.exists_mem_cons_iff, or_assoc]

end Roster

theorem claimWebhookDevices_spec {devices : List WebhookE2EEDevice}
    {claims : List ClaimedPackage} {r : List ClaimedPackage × PackageLedger}
    (hs : Sound roster L) (h : claimWebhookDevices now operation devices claims L = .ok r) :
    Grown L r.2 ∧ ∃ new, r.1 = claims ++ new ∧ new.map (·.deviceId) = devices.map (·.id) ∧
      (∀ c ∈ new, r.2.Handed operation c) ∧ Marked operation (new.map (·.key)) L r.2 := by
  induction devices generalizing claims L with
  | nil =>
      obtain rfl := Except.ok.inj h
      exact ⟨.refl L, [], (List.append_nil claims).symm, rfl, by simp, .refl _ _ L⟩
  | cons device rest ih =>
      obtain ⟨q, hq, h⟩ := bind_eq_ok.mp h
      obtain ⟨hs', hg, hm, p, hp, hd, hfor, hclaim⟩ := claimWebhookDevice_spec hs hq
      obtain ⟨hg', new, hr, hids, hhanded, hm'⟩ := ih hs' h
      have hfirst : q.2.Handed operation q.1 := by
        refine ⟨p, hp, ?_, hfor⟩
        rw [hclaim, E2EEKeyPackage.key, hd]
        rfl
      refine ⟨hg.trans hg', q.1 :: new, ?_, ?_, ?_, hm.trans hm'⟩
      · rw [hr, List.append_assoc, List.singleton_append]
      · rw [List.map_cons, hids, hclaim]
        rfl
      · intro c hc
        rcases List.mem_cons.mp hc with rfl | hc
        · exact hfirst.grown hg'
        · exact hhanded c hc

/-! ## What a transaction answers -/

/-- A trusted webhook device, admitted to the channel and not the excluded
one. -/
def Roster.WebhookDevice (roster : Roster) (channel : ChannelRef) (excluded : Option Device)
    (d : Device) : Prop :=
  (∃ row ∈ roster.webhookDevices, row.id = d ∧ roster.admitted d channel = true ∧
    row.trusted = true ∧ row.revoked = false ∧ row.webhookRevoked = false) ∧ excluded ≠ some d

/-- The devices of this home a transaction is to have a package for: of
its users all that are not revoked, of its bots and webhooks those
admitted to the channel. Another home names a bot's devices itself. -/
def ClaimTransaction.Eligible (roster : Roster) (d : Device) : ClaimTransaction → Prop
  | room ctx participants =>
      (∃ p ∈ participants, p.ref.domain = roster.domain ∧ p.isBot = false ∧
        roster.UserDevice p.ref ctx.excludedDevice d) ∨
      (∃ p ∈ participants, p.ref.domain = roster.domain ∧ p.isBot = true ∧
        roster.BotDevice ctx.channel p.ref d) ∨
      roster.WebhookDevice ctx.channel ctx.excludedDevice d
  | federated _ payload _ _ =>
      if payload.botDeviceIds = [] then
        roster.UserDevice payload.target payload.context.excludedDevice d
      else d ∈ payload.botDeviceIds

/-- What a claim from `L` answers and leaves in `L'`: one package for each
eligible device, and only these packages marked. -/
structure ClaimTransaction.Fulfilled (roster : Roster) (tx : ClaimTransaction) (L : PackageLedger)
    (claims : List ClaimedPackage) (L' : PackageLedger) : Prop where
  once : (claims.map (·.deviceId)).Nodup
  devices : ∀ d, d ∈ claims.map (·.deviceId) ↔ tx.Eligible roster d
  handed : ∀ c ∈ claims, L'.Handed tx.operation c
  marked : Marked tx.operation (claims.map (·.key)) L L'

namespace Roster

theorem nodup_webhookRows (channel : ChannelRef) :
    ((roster.webhookRows channel).map (·.id)).Nodup :=
  nodup_sorted_filter roster.webhookDevices_nodup _ _

theorem mem_webhookRows {channel : ChannelRef} {excluded : Option Device} {d : Device} :
    d ∈ ((roster.webhookRows channel).filter fun d => some d.id ≠ excluded).map (·.id) ↔
      roster.WebhookDevice channel excluded d := by
  simp only [webhookRows, List.mem_map, List.mem_filter, List.mem_insertionSort,
    Bool.and_eq_true, decide_eq_true_eq, Bool.not_eq_true', WebhookDevice]
  constructor
  · rintro ⟨row, ⟨⟨hrow, ⟨⟨hadmitted, htrusted⟩, hlive⟩, hwebhook⟩, hne⟩, rfl⟩
    exact ⟨⟨row, hrow, rfl, hadmitted, htrusted, hlive, hwebhook⟩, hne.symm⟩
  · rintro ⟨⟨row, hrow, rfl, hadmitted, htrusted, hlive, hwebhook⟩, hne⟩
    exact ⟨row, ⟨⟨hrow, ⟨⟨hadmitted, htrusted⟩, hlive⟩, hwebhook⟩, hne.symm⟩, rfl⟩

theorem claimRoomLocally_fulfilled {participants : List RoomUser}
    {r : List ClaimedPackage × PackageLedger} (hs : Sound roster L)
    (h : roster.claimRoomLocally ctx participants now L = .ok r) :
    (ClaimTransaction.room ctx participants).Fulfilled roster L r.1 r.2 := by
  obtain ⟨u, hu, h⟩ := bind_eq_ok.mp h
  obtain ⟨b, hb, h⟩ := bind_eq_ok.mp h
  obtain ⟨w, hw, h⟩ := bind_eq_ok.mp h
  obtain rfl := Except.ok.inj h
  obtain ⟨-, hw⟩ := check_bind_eq_ok.mp hw
  obtain ⟨hsu, hacc, hdu⟩ := claimLocalRoomKeyPackages_spec hs .nil hu
  obtain ⟨hsb, hacc, hdb⟩ := claimBots_spec hsu hacc hb
  obtain ⟨hg, new, hnew, hids, hhanded, hm⟩ := claimWebhookDevices_spec hsb hw
  rw [List.nil_append] at hnew
  subst hnew
  refine ⟨?_, fun d => ?_, ?_, ?_⟩
  · rw [List.map_append, hids]
    refine List.nodup_append.mpr ⟨hacc.nodup, ?_, ?_⟩
    · exact (roster.nodup_webhookRows ctx.channel).sublist (List.filter_sublist.map _)
    · -- the entries so far are of users and bots
      intro d hd d' hd' he
      obtain ⟨c, hc, rfl⟩ := List.mem_map.mp hd
      obtain ⟨row, -, rfl⟩ := List.mem_map.mp hd'
      exact (hacc.owned c hc).kind (by rw [he]; exact row.id_kind)
  · rw [List.map_append, List.mem_append, hdb d, hdu d, hids, mem_webhookRows]
    simp only [List.map_nil, List.not_mem_nil, false_or, List.mem_filter, Bool.and_eq_true,
      decide_eq_true_eq, Bool.not_eq_true', ClaimTransaction.Eligible, or_assoc, and_assoc]
  · intro c hc
    rcases List.mem_append.mp hc with hc | hc
    · exact (hacc.handed c hc).grown hg
    · exact hhanded c hc
  · rw [List.map_append]
    exact hacc.marked.trans hm

theorem federationClaim_fulfilled {origin : String} {payload : E2EEKeyPackageClaimRequest}
    {authorized restricted : Bool} {r : List ClaimedPackage × PackageLedger}
    (hs : Sound roster L)
    (h : roster.federationClaim origin payload authorized restricted now L = .ok r) :
    (ClaimTransaction.federated origin payload authorized restricted).Fulfilled roster L r.1
      r.2 := by
  obtain ⟨-, h⟩ := check_bind_eq_ok.mp h
  obtain ⟨target, htarget, h⟩ := found_bind_eq_ok.mp h
  obtain ⟨-, h⟩ := check_bind_eq_ok.mp h
  obtain ⟨-, h⟩ := check_bind_eq_ok.mp h
  have href : target.ref = payload.target := by
    have hfound := List.find?_some htarget
    simp only [Bool.and_eq_true, decide_eq_true_eq] at hfound
    exact hfound.1
  split at h
  case isTrue hbot =>
    obtain ⟨hids, h⟩ := check_bind_eq_ok.mp h
    obtain ⟨-, h⟩ := check_bind_eq_ok.mp h
    obtain ⟨-, h⟩ := check_bind_eq_ok.mp h
    obtain ⟨hs', -, ha, hm⟩ := answer_spec hs (fun r hr => claimBot_first hs hr) h
    refine ⟨ha.nodup hs', fun d => ?_, ha.handed hs', hm⟩
    rw [ha.devices hs' d, ClaimTransaction.Eligible, if_neg (ensure_eq_ok.mp hids).1]
    rfl
  case isFalse hbot =>
    obtain ⟨hids, h⟩ := check_bind_eq_ok.mp h
    obtain ⟨-, hacc, hdevices⟩ := claimLocalRoomKeyPackages_spec hs .nil h
    refine ⟨hacc.nodup, fun d => ?_, hacc.handed, hacc.marked⟩
    rw [hdevices d, ClaimTransaction.Eligible, if_pos (ensure_eq_ok.mp hids)]
    simp [href]

end Roster

theorem ClaimTransaction.perform_fulfilled {tx : ClaimTransaction}
    {r : List ClaimedPackage × PackageLedger} (hs : Sound roster L)
    (h : tx.perform roster now L = .ok r) : tx.Fulfilled roster L r.1 r.2 := by
  cases tx with
  | room ctx participants => exact Roster.claimRoomLocally_fulfilled hs h
  | federated origin payload authorized restricted =>
      exact Roster.federationClaim_fulfilled hs h

/-! ## After the commit -/

theorem RemoteReply.accept_user {reply : RemoteReply} {participant : UserRef}
    {botDeviceIds : List Device} {claimed : Nat} {out : List ClaimedPackage}
    (h : reply.accept participant botDeviceIds claimed = .ok out) :
    ∀ c ∈ out, c.user = participant := by
  cases reply with
  | packages entries =>
      obtain ⟨-, h⟩ := check_bind_eq_ok.mp h
      obtain ⟨hvalid, h⟩ := check_bind_eq_ok.mp h
      obtain ⟨-, h⟩ := check_bind_eq_ok.mp h
      obtain ⟨-, h⟩ := check_bind_eq_ok.mp h
      obtain rfl := Except.ok.inj h
      intro c hc
      obtain ⟨entry, hentry, hsome⟩ := List.mem_filterMap.mp hc
      have hv := List.all_eq_true.mp (ensure_eq_ok.mp hvalid) entry hentry
      rw [show entry = some c from hsome, Option.any_some] at hv
      simp only [ClaimedPackage.valid, Bool.and_eq_true, decide_eq_true_eq] at hv
      exact hv.1.1.1
  | unreachable => cases h
  | invalidJson => cases h
  | refused status deviceLimit => cases h
  | noPackages => cases h

/-- What a room claim returns are the packages of its transaction and then
those of participants of other homes. -/
theorem Roster.claimRemote_spec {channel : ChannelRef} {reply : UserRef → RemoteReply}
    {participants : List RoomUser} {claimed out : List ClaimedPackage}
    (h : roster.claimRemote channel reply participants claimed = .ok out) :
    ∃ remote, out = claimed ++ remote ∧ ∀ c ∈ remote, c.user.domain ≠ roster.domain := by
  induction participants generalizing claimed with
  | nil =>
      obtain rfl := Except.ok.inj h
      exact ⟨[], (List.append_nil claimed).symm, by simp⟩
  | cons participant rest ih =>
      unfold Roster.claimRemote at h
      split at h
      case isTrue => exact ih h
      case isFalse hdomain =>
        obtain ⟨-, h⟩ := check_bind_eq_ok.mp h
        obtain ⟨ids, -, h⟩ := bind_eq_ok.mp h
        obtain ⟨accepted, haccepted, h⟩ := bind_eq_ok.mp h
        obtain ⟨remote, hout, hremote⟩ := ih h
        refine ⟨accepted ++ remote, by rw [hout, List.append_assoc], ?_⟩
        intro c hc
        rcases List.mem_append.mp hc with hc | hc
        · rw [RemoteReply.accept_user haccepted c hc]
          exact hdomain
        · exact hremote c hc

/-! ## Runs -/

theorem claimStep_sound {i : ClaimTransaction × Nat} (hs : Sound roster L)
    (h : claimStep roster L i = some L') : Sound roster L' ∧ Grown L L' := by
  unfold claimStep at h
  split at h
  case h_1 r hr =>
    obtain rfl := Option.some.inj h
    obtain ⟨hs', hg, -⟩ := i.1.perform_settles i.2 L r hs hr
    exact ⟨hs', hg⟩
  case h_2 =>
    obtain rfl := Option.some.inj h
    exact ⟨hs, .refl L⟩

theorem claimRun_sound {is : List (ClaimTransaction × Nat)} (hs : Sound roster L)
    (h : Exec (claimStep roster) Always L is L') : Sound roster L' ∧ Grown L L' := by
  refine h.invariant (I := fun s => Sound roster s ∧ Grown L s) ?_ ⟨hs, .refl L⟩
  intro s i s' hI _ hstep
  obtain ⟨hs', hg⟩ := claimStep_sound hI.1 hstep
  exact ⟨hs', hI.2.trans hg⟩

/-- Two operations are never handed the same package: it is marked for one
of them and the mark stays. -/
theorem handed_operation {c c' : ClaimedPackage} {operation' : OperationRef}
    (hs : Sound roster L') (hc : L.Handed operation c) (hg : Grown L L')
    (hc' : L'.Handed operation' c') (hkey : c.key = c'.key) : operation = operation' := by
  obtain ⟨p, hp, hpk, hfor⟩ := hc.grown hg
  obtain ⟨p', hp', hpk', hfor'⟩ := hc'
  have hsame : p = p' :=
    List.inj_on_of_nodup_map hs.keys hp hp' (by rw [hpk, hpk', hkey])
  subst hsame
  exact E2EEKeyPackage.claimedFor_unique hfor hfor'

/-- From a home without claims, after any claims: a transaction that raises
leaves the tables as they were. One that succeeds has exactly one package
for each eligible device and marks no other package; retried after any
further claims it gives the same answer and writes nothing; and no other
operation is ever handed one of its packages. The remote step of a room
claim, whether it raises or not, changes none of this. -/
theorem key_packages_used_once {is : List (ClaimTransaction × Nat)} (h₀ : L₀.Unclaimed)
    (hrun : Exec (claimStep roster) Always L₀ is L₁) (tx : ClaimTransaction) (now : Nat) :
    (∀ e, tx.perform roster now L₁ = .error e →
      claimStep roster L₁ (tx, now) = some L₁ ∧
      ∀ ctx participants reply, tx = .room ctx participants →
        roster.claimRoomKeyPackages ctx participants now reply L₁ = (.error e, L₁)) ∧
    ∀ claims L₂, tx.perform roster now L₁ = .ok (claims, L₂) →
      tx.Fulfilled roster L₁ claims L₂ ∧
      (∀ ctx participants reply, tx = .room ctx participants →
        (roster.claimRoomKeyPackages ctx participants now reply L₁).2 = L₂ ∧
        ∀ out, (roster.claimRoomKeyPackages ctx participants now reply L₁).1 = .ok out →
          ∃ remote, out = claims ++ remote ∧ ∀ c ∈ remote, c.user.domain ≠ roster.domain) ∧
      ∀ js L₃, Exec (claimStep roster) Always L₂ js L₃ →
        (∀ now', tx.perform roster now' L₃ = .ok (claims, L₃)) ∧
        ∀ (tx' : ClaimTransaction) now' claims' L₄, tx'.perform roster now' L₃ = .ok (claims', L₄) →
          tx'.operation ≠ tx.operation → ∀ c ∈ claims, ∀ c' ∈ claims', c.key ≠ c'.key := by
  have hs₀ : Sound roster L₀ := h₀.sound
  obtain ⟨hs, -⟩ := claimRun_sound hs₀ hrun
  refine ⟨fun e he => ⟨?_, ?_⟩, fun claims L₂ hok => ⟨?_, ?_, ?_⟩⟩
  · rw [claimStep, he]
  · rintro ctx participants reply rfl
    have he : roster.claimRoomLocally ctx participants now L₁ = .error e := he
    rw [Roster.claimRoomKeyPackages, he]
  · exact ClaimTransaction.perform_fulfilled hs hok
  · rintro ctx participants reply rfl
    have hok : roster.claimRoomLocally ctx participants now L₁ = .ok (claims, L₂) := hok
    rw [Roster.claimRoomKeyPackages, hok]
    exact ⟨rfl, fun out hout => Roster.claimRemote_spec hout⟩
  · intro js L₃ hrun'
    obtain ⟨hs₂, -, hretry⟩ := tx.perform_settles now L₁ _ hs hok
    obtain ⟨hs₃, hg₃⟩ := claimRun_sound hs₂ hrun'
    refine ⟨fun now' => hretry now' L₃ hs₃ hg₃, ?_⟩
    intro tx' now' claims' L₄ hok' hother c hc c' hc' hkey
    obtain ⟨hs₄, hg₄, -⟩ := tx'.perform_settles now' L₃ _ hs₃ hok'
    have hhanded := (ClaimTransaction.perform_fulfilled hs hok).handed c hc
    have hhanded' := (ClaimTransaction.perform_fulfilled hs₃ hok').handed c' hc'
    exact hother (handed_operation hs₄ hhanded (hg₃.trans hg₄) hhanded' hkey).symm

/-! ## An example

A home with two users, one of them with a revoked device, and a bot one of
whose two devices was never trusted. -/

section

private def sampleDevice (kind : DeviceKind) (token : Nat) (owner : UserRef) (revoked : Bool) :
    E2EEDevice :=
  { id := ⟨kind, token⟩, owner, identityKey := List.replicate 32 0, credential := [1], revoked
    identityKey_length := rfl, credential_length := by decide }

private def samplePackage (device : Device) (byte : UInt8) : E2EEKeyPackage :=
  { device, cipherSuite := e2eeSuiteMls128, packageData := [byte], expiresAt := 100
    createdAt := 0, claim := none, packageData_length := by simp }

def sampleRoster : Roster :=
  { domain := "a", users := [⟨⟨1, "a"⟩, true, false⟩, ⟨⟨2, "a"⟩, true, false⟩]
    userDevices := [⟨sampleDevice .ked 1 ⟨1, "a"⟩ false, 1, rfl⟩,
      ⟨sampleDevice .ked 2 ⟨2, "a"⟩ false, 1, rfl⟩, ⟨sampleDevice .ked 3 ⟨2, "a"⟩ true, 2, rfl⟩]
    botDevices := [⟨sampleDevice .kbe 4 ⟨3, "a"⟩ false, true, false, none, rfl⟩,
      ⟨sampleDevice .kbe 5 ⟨3, "a"⟩ false, false, false, none, rfl⟩]
    webhookDevices := []
    participations := [⟨⟨.kbe, 4⟩, ⟨9, "a"⟩, true⟩, ⟨⟨.kbe, 5⟩, ⟨9, "a"⟩, true⟩]
    applications := [⟨3, "a"⟩], botGrants := [(⟨3, "a"⟩, ⟨9, "a"⟩)]
    userDevices_nodup := by decide, botDevices_nodup := by decide
    webhookDevices_nodup := by decide }

def sampleLedger : PackageLedger :=
  { packages := [samplePackage ⟨.ked, 2⟩ 10, samplePackage ⟨.ked, 2⟩ 11,
      samplePackage ⟨.kbe, 4⟩ 12, samplePackage ⟨.kbe, 5⟩ 13]
    batches := [] }

/-- The first user, from their own device, proposes in a room of both users
and the bot. -/
def sampleContext (operation : Nat) : ClaimContext :=
  { operation := ⟨operation, "a"⟩, channel := ⟨9, "a"⟩, claimant := ⟨1, "a"⟩
    excludedDevice := some ⟨.ked, 1⟩ }

def sampleUsers : List RoomUser := [⟨⟨1, "a"⟩, true, false⟩, ⟨⟨2, "a"⟩, true, false⟩]

def sampleBot : RoomUser := ⟨⟨3, "a"⟩, true, true⟩

def sampleRemoteUser : RoomUser := ⟨⟨1, "b"⟩, false, false⟩

theorem sampleLedger_unclaimed : sampleLedger.Unclaimed where
  keys := by decide
  free := by
    intro p hp
    simp only [sampleLedger, List.mem_cons, List.not_mem_nil, or_false] at hp
    rcases hp with rfl | rfl | rfl | rfl <;> rfl
  batches := rfl

theorem key_packages_used_once_sample :
    sampleLedger.Unclaimed ∧
    ∃ L₁ claims L₂, Exec (claimStep sampleRoster) Always sampleLedger
        [(.room (sampleContext 1) sampleUsers, 5)] L₁ ∧
      (ClaimTransaction.room (sampleContext 2) (sampleUsers ++ [sampleBot])).perform sampleRoster 6
        L₁ = .ok (claims, L₂) ∧
      claims.map (·.keyPackage) = [[11], [12]] ∧
      (ClaimTransaction.room (sampleContext 2) (sampleUsers ++ [sampleBot])).Fulfilled sampleRoster
        L₁ claims L₂ := by
  have hrun : Exec (claimStep sampleRoster) Always sampleLedger
      [(.room (sampleContext 1) sampleUsers, 5)] _ := .cons trivial rfl (.nil _)
  have h := key_packages_used_once sampleLedger_unclaimed hrun
    (.room (sampleContext 2) (sampleUsers ++ [sampleBot])) 6
  exact ⟨sampleLedger_unclaimed, _, _, _, hrun, rfl, by decide, (h.2 _ _ rfl).1⟩

/-- A claim whose remote step fails raises and leaves the packages it
committed marked; and a claim that succeeds has no package for a bot's
device that is not trusted, though it is not revoked. -/
theorem failed_claim_keeps_marks :
    (sampleLedger.Unclaimed ∧
      (sampleRoster.claimRoomKeyPackages (sampleContext 1) (sampleUsers ++ [sampleRemoteUser]) 5
        (fun _ => .unreachable) sampleLedger).1 = .error .participantHomeUnreachable ∧
      ∃ p ∈ (sampleRoster.claimRoomKeyPackages (sampleContext 1)
        (sampleUsers ++ [sampleRemoteUser]) 5 (fun _ => .unreachable) sampleLedger).2.packages,
        p.claim ≠ none) ∧
    ∃ claims row, (sampleRoster.claimRoomKeyPackages (sampleContext 1)
        (sampleUsers ++ [sampleBot]) 5 (fun _ => .unreachable) sampleLedger).1 = .ok claims ∧
      row ∈ sampleRoster.botDevices ∧ row.owner = sampleBot.ref ∧ row.revoked = false ∧
      row.id ∉ claims.map (·.deviceId) := by
  refine ⟨⟨sampleLedger_unclaimed, rfl, ?_⟩, ?_⟩
  · exact ⟨_, List.mem_cons_self, by decide⟩
  · exact ⟨_, _, rfl, List.mem_cons_of_mem _ List.mem_cons_self, rfl, rfl, by decide⟩

end

end Kaede
