import Kaede.AuthSessions

/-!
# One access token a session, and none after a revocation

The two sides of a session are written by separate commands, and any
number of requests run between them. What keeps them in step:

- a live access token is in the list of its session, and the list lives as
  long as the token (`StoreOk`), so that deleting what `SMEMBERS` returned
  deletes all of them, as long as no token is issued in between;
- a token is issued only under the row lock of its session and before any
  revocation of it is committed (`JobOk`), so nothing is issued between the
  two commands of a cleanup.

`step_moves` is the step lemma: the invariant is kept, and what the other
requests rely on is kept with it (`Frame`).
-/

namespace Kaede

namespace Auth

namespace Server

variable {δ : Type} {s s' : Server δ} {p q : Nat} {id : String} {record : Session δ}

/-! ## Rows -/

theorem row_map {f : Session δ → Session δ} (hid : ∀ r, (f r).id = r.id) :
    ({ s with sessions := s.sessions.map f }).row id = (s.row id).map f := by
  rw [row, List.find?_map]
  refine congrArg (fun p => Option.map f (s.sessions.find? p)) (funext fun r => ?_)
  rw [Function.comp_apply, hid]

theorem id_of_row {r : Session δ} (h : s.row id = some r) : r.id = id :=
  of_decide_eq_true (@List.find?_some _ (fun r : Session δ => decide (r.id = id)) _ _ h)

/-- A row that some search returns is the row of its session. -/
theorem row_of_find (hids : (s.sessions.map Session.id).Nodup) {P : Session δ → Bool}
    (h : s.sessions.find? P = some record) : s.row record.id = some record := by
  have hmem := List.mem_of_find?_eq_some h
  rw [row]
  revert hids hmem
  generalize s.sessions = rows
  intro hids hmem
  induction rows with
  | nil => cases hmem
  | cons r rows ih =>
    obtain ⟨hfresh, hrest⟩ := List.nodup_cons.mp hids
    rcases List.mem_cons.mp hmem with rfl | hmem
    · simp
    · have hne : r.id ≠ record.id := fun hsame =>
        hfresh (List.mem_map.mpr ⟨record, hmem, hsame.symm⟩)
      rw [List.find?_cons_of_neg (by simpa using hne)]
      exact ih hrest hmem

theorem row_write_of_ne (h : id ≠ record.id) : (s.write record).row id = s.row id := by
  rw [write, row_map fun r => by split <;> simp_all]
  cases hrow : s.row id with
  | none => rfl
  | some r => rw [Option.map_some, if_neg (id_of_row hrow ▸ h)]

theorem mem_write {r : Session δ} (hr : r ∈ (s.write record).sessions) :
    r = record ∨ r ∈ s.sessions ∧ r.id ≠ record.id := by
  obtain ⟨old, hold, rfl⟩ := List.mem_map.mp hr
  split
  · exact .inl rfl
  · rename_i hne
    exact .inr ⟨hold, hne⟩

theorem row_revokeRows {ids : List String} {date : Nat} :
    (s.revokeRows ids date).row id =
      if id ∈ ids then (s.row id).map fun r => { r with revokedAt := some date } else s.row id := by
  rw [revokeRows, row_map fun r => by split <;> rfl]
  cases hrow : s.row id with
  | none => simp
  | some r => simp only [Option.map_some, id_of_row hrow, apply_ite some]

theorem revoked_revokeRows {ids : List String} {date : Nat} (hid : s.Revoked id) :
    (s.revokeRows ids date).Revoked id := by
  refine ⟨hid.1, fun r hr => ?_⟩
  rw [row_revokeRows] at hr
  split at hr
  · obtain ⟨old, -, rfl⟩ := Option.map_eq_some_iff.mp hr
    exact Option.some_ne_none date
  · exact hid.2 r hr

theorem revoked_of_mem {held : List String} {date : Nat} (hid : id ∈ held)
    (hknown : id ∈ s.known) : (s.revokeRows held date).Revoked id := by
  refine ⟨hknown, fun r hr => ?_⟩
  rw [row_revokeRows, if_pos hid] at hr
  obtain ⟨old, -, rfl⟩ := Option.map_eq_some_iff.mp hr
  exact Option.some_ne_none date

theorem row_removeRows {ids : List String} :
    (s.removeRows ids).row id = if id ∈ ids then none else s.row id := by
  rw [row, removeRows, List.find?_filter]
  split
  · rename_i hid
    rw [List.find?_eq_none]
    intro r _ hr
    simp only [decide_eq_true_eq] at hr
    exact hr.1 (hr.2 ▸ hid)
  · rename_i hid
    refine congrArg (List.find? · s.sessions) (funext fun r => ?_)
    by_cases h : r.id = id
    · simp [h, hid]
    · simp [h]

theorem jobs_setJob {j : Option (Job δ)} :
    (s.setJob p j).jobs q = if q = p then j else s.jobs q :=
  Function.update_apply s.jobs p j q

/-! ## Locks -/

def LockOnce (s : Server δ) : Prop :=
  ∀ id p q, (id, p) ∈ s.locks → (id, q) ∈ s.locks → p = q

theorem LockOnce.lock (h : s.LockOnce) (hfree : s.Unlocked id) : (s.lock p id).LockOnce := by
  intro other a b ha hb
  rcases List.mem_cons.mp ha with ha | ha <;> rcases List.mem_cons.mp hb with hb | hb
  · rw [(Prod.mk.inj ha).2, (Prod.mk.inj hb).2]
  · exact absurd (Prod.mk.inj ha).1 (hfree _ hb)
  · exact absurd (Prod.mk.inj hb).1 (hfree _ ha)
  · exact h other a b ha hb

theorem LockOnce.release (h : s.LockOnce) : (s.release p).LockOnce :=
  fun other a b ha hb => h other a b (List.mem_of_mem_filter ha) (List.mem_of_mem_filter hb)

/-- The session is being inserted by `p`. -/
def Inserting (s : Server δ) (p : Nat) (record : Session δ) : Prop :=
  (record.id, p) ∈ s.locks ∧ s.row record.id = none ∧ record.id ∉ s.known

/-- The row is being rewritten by `p`. -/
def Writing (s : Server δ) (p : Nat) (record : Session δ) : Prop :=
  (record.id, p) ∈ s.locks ∧ (∃ old, s.row record.id = some old ∧ old.revokedAt = none) ∧
    record.revokedAt = none

theorem Writing.not_revoked (h : s.Writing p record) (hid : s.Revoked id) : id ≠ record.id := by
  rintro rfl
  obtain ⟨old, hold, hfree⟩ := h.2.1
  exact hid.2 old hold hfree

theorem Inserting.not_revoked (h : s.Inserting p record) : ¬ s.Revoked record.id :=
  fun hid => h.2.2 hid.1

structure TableOk (s : Server δ) : Prop where
  ids : (s.sessions.map Session.id).Nodup
  known : ∀ r ∈ s.sessions, r.id ∈ s.known

theorem TableOk.known_of_row (h : s.TableOk) {r : Session δ} (hr : s.row id = some r) :
    id ∈ s.known :=
  id_of_row hr ▸ h.known r (List.mem_of_find?_eq_some hr)

/-- Rows may be rewritten, but keep their keys. -/
theorem TableOk.map (h : s.TableOk) {f : Session δ → Session δ} (hid : ∀ r, (f r).id = r.id) :
    ({ s with sessions := s.sessions.map f }).TableOk where
  ids := by
    rw [List.map_map]
    exact (List.map_congr_left fun r _ => hid r) ▸ h.ids
  known := fun r hr => by
    obtain ⟨old, hold, rfl⟩ := List.mem_map.mp hr
    exact (hid old).symm ▸ h.known old hold

theorem TableOk.removeRows (h : s.TableOk) (ids : List String) : (s.removeRows ids).TableOk where
  ids := h.ids.sublist (List.filter_sublist.map _)
  known := fun r hr => h.known r (List.mem_of_mem_filter hr)

variable [DecidableEq δ] {digest : String → δ} {settings : Settings}

/-! ## The invariant -/

/-- The access token answers at `t`, for the session. -/
def Live (s : Server δ) (t : Nat) (d : δ) (id : String) : Prop :=
  ∃ g, Expiring.get s.access d t = some g ∧ g.sessionId = id

def NoneLive (s : Server δ) (id : String) : Prop := ∀ t, s.now ≤ t → ∀ d, ¬ s.Live t d id

structure StoreOk (settings : Settings) (s : Server δ) : Prop where
  /-- `EXPIRE` renews the list with every token, so it outlives them all. -/
  listed : ∀ t, s.now ≤ t → ∀ d id, s.Live t d id →
    ∃ ds, Expiring.get s.sessionAccess id t = some ds ∧ d ∈ ds
  ttl : ∀ t d id, s.Live t d id → t ≤ s.now + settings.accessTokenTtlSeconds * second
  single : ∀ t, s.now ≤ t → ∀ d d' id, s.Live t d id → s.Live t d' id → d = d'
  distinct : Expiring.Distinct s.sessionAccess

def CleanupOk (s : Server δ) (id : String) : Cleanup δ → Prop
  | .start => True
  | .listed digests => ∀ t, s.now ≤ t → ∀ d, s.Live t d id → d ∈ digests
  | .deleted => s.NoneLive id

def JobOk (s : Server δ) (p : Nat) : Job δ → Prop
  | .creating record => s.Inserting p record ∧ s.NoneLive record.id
  | .created record _ => s.Inserting p record
  | .rotating record _ _ stage => s.Writing p record ∧ s.CleanupOk record.id stage
  | .issuing record _ _ => s.Writing p record ∧ s.NoneLive record.id
  | .issued record _ _ _ => s.Writing p record
  | .revoking _ ids todo held =>
      (∀ id ∈ held, (id, p) ∈ s.locks) ∧
        ∀ id ∈ ids, id ∈ s.known ∧ (id ∈ todo ∨ id ∈ held ∨ s.Revoked id)
  | .cleaning ids stage => (∀ id ∈ ids, s.Revoked id) ∧ ∀ id ∈ ids.head?, s.CleanupOk id stage
  | .undoing _ => True

structure Inv (settings : Settings) (s : Server δ) : Prop where
  table : s.TableOk
  locks : s.LockOnce
  store : s.StoreOk settings
  job : ∀ p job, s.jobs p = some job → s.JobOk p job

theorem inv_init (now : Nat) : (init now : Server δ).Inv settings where
  table := ⟨List.nodup_nil, fun _ h => absurd h List.not_mem_nil⟩
  locks := fun _ _ _ h => absurd h List.not_mem_nil
  store :=
    { listed := fun _ _ _ _ ⟨_, h, _⟩ => (nomatch h)
      ttl := fun _ _ _ ⟨_, h, _⟩ => (nomatch h)
      single := fun _ _ _ _ _ ⟨_, h, _⟩ => (nomatch h)
      distinct := List.nodup_nil }
  job := fun _ _ h => (nomatch h)

/-! ## What a request relies on -/

/-- What the steps of the others leave to the request `q`: its locks, the
rows it has locked, and no new token of a session that it has locked or
that is revoked. -/
structure Frame (s s' : Server δ) (q : Nat) : Prop where
  now : s.now ≤ s'.now
  locks : ∀ id, (id, q) ∈ s.locks → (id, q) ∈ s'.locks
  row : ∀ id, (id, q) ∈ s.locks → s'.row id = s.row id
  known : ∀ id, (id, q) ∈ s.locks → (id ∈ s'.known ↔ id ∈ s.known)
  seen : ∀ id ∈ s.known, id ∈ s'.known
  revoked : ∀ id, s.Revoked id → s'.Revoked id
  live : ∀ id, (id, q) ∈ s.locks ∨ s.Revoked id →
    ∀ t, s'.now ≤ t → ∀ d, s'.Live t d id → s.Live t d id

theorem Frame.refl (s : Server δ) (q : Nat) : Frame s s q where
  now := Nat.le_refl _
  locks := fun _ h => h
  row := fun _ _ => rfl
  known := fun _ _ => Iff.rfl
  seen := fun _ h => h
  revoked := fun _ h => h
  live := fun _ _ _ _ _ h => h

theorem Frame.trans {s₁ : Server δ} (h : Frame s s₁ q) (h' : Frame s₁ s' q) : Frame s s' q where
  now := Nat.le_trans h.now h'.now
  locks := fun id hid => h'.locks id (h.locks id hid)
  row := fun id hid => (h'.row id (h.locks id hid)).trans (h.row id hid)
  known := fun id hid => (h'.known id (h.locks id hid)).trans (h.known id hid)
  seen := fun id hid => h'.seen id (h.seen id hid)
  revoked := fun id hid => h'.revoked id (h.revoked id hid)
  live := fun id hid t ht d hd =>
    h.live id hid t (Nat.le_trans h'.now ht) d
      (h'.live id (hid.imp (h.locks id) (h.revoked id)) t ht d hd)

theorem Frame.noneLive (h : Frame s s' q) (hid : (id, q) ∈ s.locks ∨ s.Revoked id)
    (hnone : s.NoneLive id) : s'.NoneLive id :=
  fun t ht d hd => hnone t (Nat.le_trans h.now ht) d (h.live id hid t ht d hd)

theorem Frame.cleanupOk (h : Frame s s' q) (hid : (id, q) ∈ s.locks ∨ s.Revoked id)
    {stage : Cleanup δ} (hstage : s.CleanupOk id stage) : s'.CleanupOk id stage := by
  cases stage with
  | start => trivial
  | listed digests =>
    exact fun t ht d hd => hstage t (Nat.le_trans h.now ht) d (h.live id hid t ht d hd)
  | deleted => exact h.noneLive hid hstage

theorem Frame.inserting (h : Frame s s' q) (hrecord : s.Inserting q record) :
    s'.Inserting q record :=
  ⟨h.locks _ hrecord.1, (h.row _ hrecord.1).trans hrecord.2.1,
    (h.known _ hrecord.1).not.mpr hrecord.2.2⟩

theorem Frame.writing (h : Frame s s' q) (hrecord : s.Writing q record) : s'.Writing q record :=
  ⟨h.locks _ hrecord.1, (h.row _ hrecord.1).symm ▸ hrecord.2.1, hrecord.2.2⟩

theorem Frame.jobOk (h : Frame s s' q) {job : Job δ} (hjob : s.JobOk q job) : s'.JobOk q job := by
  cases job with
  | creating record => exact ⟨h.inserting hjob.1, h.noneLive (.inl hjob.1.1) hjob.2⟩
  | created record access => exact h.inserting hjob
  | rotating record presented date stage =>
    exact ⟨h.writing hjob.1, h.cleanupOk (.inl hjob.1.1) hjob.2⟩
  | issuing record presented date => exact ⟨h.writing hjob.1, h.noneLive (.inl hjob.1.1) hjob.2⟩
  | issued record presented date access => exact h.writing hjob
  | revoking date ids todo held =>
    refine ⟨fun id hid => h.locks id (hjob.1 id hid), fun id hid => ?_⟩
    obtain ⟨hknown, hplace⟩ := hjob.2 id hid
    exact ⟨h.seen id hknown, hplace.imp_right (Or.imp_right (h.revoked id))⟩
  | cleaning ids stage =>
    refine ⟨fun id hid => h.revoked id (hjob.1 id hid), fun id hid => ?_⟩
    exact h.cleanupOk (.inr (hjob.1 id (List.mem_of_mem_head? hid))) (hjob.2 id hid)
  | undoing access => trivial

/-- The invariant is kept, and so is what the other requests rely on. -/
structure Moves (settings : Settings) (s : Server δ) (p : Nat) (s' : Server δ) : Prop where
  inv : s'.Inv settings
  frame : ∀ q, q ≠ p → Frame s s' q

theorem jobOk_setJob {j : Option (Job δ)} {job : Job δ} :
    (s.setJob p j).JobOk q job ↔ s.JobOk q job := by
  cases job <;> exact Iff.rfl

/-- A step of `p`: it changes the stores, and then its own job. -/
theorem Inv.moves (h : s.Inv settings) (s' : Server δ) (hjobs : s'.jobs = s.jobs)
    (htable : s'.TableOk) (hlocks : s'.LockOnce) (hstore : s'.StoreOk settings)
    (hframe : ∀ q, q ≠ p → Frame s s' q) {j : Option (Job δ)}
    (hjob : ∀ job, j = some job → s'.JobOk p job) : Moves settings s p (s'.setJob p j) where
  inv :=
    { table := ⟨htable.ids, htable.known⟩
      locks := hlocks
      store := ⟨hstore.listed, hstore.ttl, hstore.single, hstore.distinct⟩
      job := fun q job hq => by
        rw [jobOk_setJob]
        rw [jobs_setJob, hjobs] at hq
        split at hq
        · rename_i hqp
          exact hqp ▸ hjob job hq
        · rename_i hqp
          exact (hframe q hqp).jobOk (h.job q job hq) }
  frame := fun q hq =>
    ⟨(hframe q hq).now, (hframe q hq).locks, (hframe q hq).row, (hframe q hq).known,
      (hframe q hq).seen, (hframe q hq).revoked, (hframe q hq).live⟩

/-! ## Frames of the commands -/

theorem frame_lock : Frame s (s.lock p id) q :=
  { Frame.refl s q with locks := fun _ h => List.mem_cons_of_mem _ h }

theorem frame_mint {hash : δ} : Frame s (s.mint hash id) q := { Frame.refl s q with }

theorem frame_release (h : q ≠ p) : Frame s (s.release p) q :=
  { Frame.refl s q with locks := fun _ hid => List.mem_filter.mpr ⟨hid, decide_eq_true h⟩ }

/-- The session is in the table, and recorded. -/
def inserted (s : Server δ) (record : Session δ) : Server δ :=
  { s with sessions := record :: s.sessions, known := record.id :: s.known }

theorem frame_insert (hlocks : s.LockOnce) (hrecord : s.Inserting p record) (h : q ≠ p) :
    Frame s (s.inserted record) q := by
  have hrow {id : String} (hid : id ≠ record.id) : (s.inserted record).row id = s.row id := by
    rw [inserted, row, List.find?_cons_of_neg (by simpa using Ne.symm hid), row]
  have hother (id : String) (hid : (id, q) ∈ s.locks) : id ≠ record.id :=
    fun hsame => h (hlocks id q p hid (hsame ▸ hrecord.1))
  refine { Frame.refl s q with
    row := fun id hid => hrow (hother id hid), known := fun id hid => ?_,
    seen := fun _ => List.mem_cons_of_mem _,
    revoked := fun id hid => ⟨List.mem_cons_of_mem _ hid.1, fun r hr => hid.2 r ?_⟩ }
  · exact List.mem_cons.trans (or_iff_right (hother id hid))
  · rwa [hrow fun hsame => hrecord.2.2 (hsame ▸ hid.1)] at hr

/-- The row is in the table, and the exchange recorded. -/
def exchanged (s : Server δ) (record : Session δ) (presented : δ) (date : Nat) : Server δ :=
  { s.write record with
    rotations := ⟨record.id, presented, record.refreshTokenHash, date⟩ :: s.rotations }

theorem frame_write (hlocks : s.LockOnce) (hrecord : s.Writing p record) (h : q ≠ p) :
    Frame s (s.write record) q := by
  refine { Frame.refl s q with row := fun id hid => ?_, revoked := fun id hid => ?_ }
  · exact row_write_of_ne fun hsame => h (hlocks id q p hid (hsame ▸ hrecord.1))
  · refine ⟨hid.1, fun r hr => hid.2 r ?_⟩
    rwa [row_write_of_ne (hrecord.not_revoked hid)] at hr

theorem frame_removeRows {ids : List String} (hids : ∀ id ∈ ids, s.Unlocked id) :
    Frame s (s.removeRows ids) q := by
  refine { Frame.refl s q with row := fun id hid => ?_, revoked := fun id hid => ?_ }
  · rw [row_removeRows, if_neg fun hmem => hids id hmem _ hid rfl]
  · refine ⟨hid.1, fun r hr => hid.2 r ?_⟩
    rw [row_removeRows] at hr
    split at hr
    · cases hr
    · exact hr

theorem frame_revokeRows (hlocks : s.LockOnce) {held : List String} {date : Nat}
    (hheld : ∀ id ∈ held, (id, p) ∈ s.locks) (h : q ≠ p) : Frame s (s.revokeRows held date) q := by
  refine { Frame.refl s q with row := fun id hid => ?_, revoked := fun _ => revoked_revokeRows }
  rw [row_revokeRows, if_neg fun hmem => h (hlocks id q p hid (hheld id hmem))]

/-! ## Redis -/

theorem live_dropTokens {digests : List δ} {t : Nat} {d : δ} :
    (s.dropTokens digests).Live t d id ↔ d ∉ digests ∧ s.Live t d id := by
  rw [Live, Live, dropTokens, Expiring.get_deleteMany]
  by_cases h : d ∈ digests <;> simp [h]

theorem frame_dropTokens {digests : List δ} : Frame s (s.dropTokens digests) q :=
  { Frame.refl s q with live := fun _ _ _ _ _ hd => (live_dropTokens.mp hd).2 }

theorem frame_dropList : Frame s (s.dropList id) q := { Frame.refl s q with }

theorem StoreOk.dropTokens (h : s.StoreOk settings) {digests : List δ} :
    (s.dropTokens digests).StoreOk settings where
  listed := fun t ht d id hd => h.listed t ht d id (live_dropTokens.mp hd).2
  ttl := fun t d id hd => h.ttl t d id (live_dropTokens.mp hd).2
  single := fun t ht d d' id hd hd' =>
    h.single t ht d d' id (live_dropTokens.mp hd).2 (live_dropTokens.mp hd').2
  distinct := h.distinct

theorem StoreOk.dropList (h : s.StoreOk settings) (hnone : s.NoneLive id) :
    (s.dropList id).StoreOk settings where
  listed := fun t ht d other hd => by
    obtain ⟨ds, hds, hmem⟩ := h.listed t ht d other hd
    have hne : other ≠ id := by
      rintro rfl
      exact hnone t ht d hd
    exact ⟨ds, by rw [Server.dropList, Expiring.get_delete, if_neg hne, hds], hmem⟩
  ttl := h.ttl
  single := h.single
  distinct := h.distinct.delete id

theorem StoreOk.elapse (h : s.StoreOk settings) (d : Nat) :
    ({ s with now := s.now + d } : Server δ).StoreOk settings where
  listed := fun t ht => h.listed t (Nat.le_trans (Nat.le_add_right _ _) ht)
  ttl := fun t d id hd => Nat.le_trans (h.ttl t d id hd) (by simp only; omega)
  single := fun t ht => h.single t (Nat.le_trans (Nat.le_add_right _ _) ht)
  distinct := h.distinct

/-- Everything live is listed, so what the list holds is all there is. -/
theorem StoreOk.listed_all (h : s.StoreOk settings) (id : String) :
    s.CleanupOk id (.listed (s.members id)) := by
  intro t ht d hd
  obtain ⟨ds, hds, hmem⟩ := h.listed t ht d id hd
  rw [members, h.distinct.get_of_le ht hds]
  exact hmem

theorem noneLive_dropTokens {digests : List δ} (h : s.CleanupOk id (.listed digests)) :
    (s.dropTokens digests).NoneLive id :=
  fun t ht d hd => (live_dropTokens.mp hd).1 (h t ht d (live_dropTokens.mp hd).2)

theorem live_issueAccess {access d : δ} {t : Nat} :
    (issueAccess settings s record access).Live t d id ↔
      if d = access then t ≤ s.now + settings.accessTokenTtlSeconds * second ∧ record.id = id
      else s.Live t d id := by
  rw [Live, issueAccess, Expiring.get_set]
  by_cases h : d = access
  · by_cases ht : t ≤ s.now + settings.accessTokenTtlSeconds * second <;> simp [h, ht]
  · simp only [h, if_false, Live]

theorem StoreOk.issueAccess (h : s.StoreOk settings) (hnone : s.NoneLive record.id) (access : δ) :
    (issueAccess settings s record access).StoreOk settings where
  listed := fun t ht d id hd => by
    rw [live_issueAccess] at hd
    by_cases hid : id = record.id
    · -- the list of this session is the new one, and it lasts as long as the token
      refine ⟨(s.members record.id).insert access, ?_, ?_⟩
      · rw [Server.issueAccess, Expiring.get_set, if_pos hid]
        refine if_pos ?_
        split at hd
        · exact hd.1
        · exact h.ttl t d id hd
      · split at hd
        · rename_i hnew
          exact hnew ▸ List.mem_insert_self
        · exact absurd (hid ▸ hd) (hnone t ht d)
    · have hold : s.Live t d id := by
        split at hd
        · exact absurd hd.2.symm hid
        · exact hd
      obtain ⟨ds, hds, hmem⟩ := h.listed t ht d id hold
      exact ⟨ds, by rw [Server.issueAccess, Expiring.get_set, if_neg hid, hds], hmem⟩
  ttl := fun t d id hd => by
    rw [live_issueAccess] at hd
    split at hd
    · exact hd.1
    · exact h.ttl t d id hd
  single := fun t ht d d' id hd hd' => by
    rw [live_issueAccess] at hd hd'
    split at hd <;> split at hd'
    · rename_i hd₁ hd₂
      exact hd₁.trans hd₂.symm
    · exact absurd (hd.2 ▸ hd') (hnone t ht d')
    · exact absurd (hd'.2 ▸ hd) (hnone t ht d)
    · exact h.single t ht d d' id hd hd'
  distinct := h.distinct.set _ _ _

/-- A token of a session that no other request has locked, and that is not
revoked. -/
theorem frame_issueAccess (hlocks : s.LockOnce) (hheld : (record.id, p) ∈ s.locks)
    (hfree : ¬ s.Revoked record.id) (access : δ) (h : q ≠ p) :
    Frame s (issueAccess settings s record access) q := by
  refine { Frame.refl s q with live := fun id hid t _ d hd => ?_ }
  rw [live_issueAccess] at hd
  split at hd
  · rcases hid with hid | hid
    · exact absurd (hlocks id q p hid (hd.2 ▸ hheld)) h
    · exact absurd (hd.2 ▸ hid) hfree
  · exact hd

/-! ## One command -/

/-- Session identifiers and refresh tokens are random texts: a new one is
not one that the server has seen. -/
def Legal (digest : String → δ) (s : Server δ) : AuthEvent → Prop
  | .createSession _ sessionId random _ _ =>
      (sessionId ∉ s.known ∧ ∀ row ∈ s.access, row.value.sessionId ≠ sessionId) ∧
        ∀ m ∈ s.minted, m.1 ≠ digest (newRefreshToken random)
  | .rotateRefreshToken _ _ random => ∀ m ∈ s.minted, m.1 ≠ digest (newRefreshToken random)
  | _ => True

instance (digest : String → δ) (s : Server δ) : ∀ e, Decidable (Legal digest s e)
  | .createSession .. => inferInstanceAs (Decidable (_ ∧ _))
  | .rotateRefreshToken _ _ random =>
      inferInstanceAs (Decidable (∀ m ∈ s.minted, m.1 ≠ digest (newRefreshToken random)))
  | .elapse _ | .removeRows _ | .logout .. | .deleteSession .. | .revokeUserSessions .. | .lockRow _
  | .listTokens _ | .deleteTokens _ | .deleteList _ | .issue .. | .commit _ | .failCommit ..
  | .revokeToken _ | .stop _ => inferInstanceAs (Decidable True)

theorem Moves.refl (h : s.Inv settings) : Moves settings s p s :=
  ⟨h, fun q _ => Frame.refl s q⟩

/-- The own job changes, and nothing else. -/
theorem Inv.goOn (h : s.Inv settings) {j : Option (Job δ)}
    (hjob : ∀ job, j = some job → s.JobOk p job) : Moves settings s p (s.setJob p j) :=
  h.moves s rfl h.table h.locks h.store (fun q _ => Frame.refl s q) hjob

theorem Inv.createSession (h : s.Inv settings) {sessionId random : String} {user : UserRef}
    {isLocal : Bool} (hlegal : Legal digest s (.createSession p sessionId random user isLocal))
    (hstep : createSession digest settings s p sessionId random user isLocal = some s') :
    Moves settings s p s' := by
  rw [Server.createSession] at hstep
  split at hstep
  · exact Option.some.inj hstep ▸ Moves.refl h
  · split at hstep
    · rename_i hfree
      rw [← Option.some.inj hstep]
      refine h.moves ((s.lock p sessionId).mint _ sessionId) rfl
        ⟨h.table.ids, h.table.known⟩ (h.locks.lock hfree.1)
        ⟨h.store.listed, h.store.ttl, h.store.single, h.store.distinct⟩
        (fun q _ => frame_lock.trans frame_mint) fun job hjob => ?_
      rw [← Option.some.inj hjob]
      refine ⟨⟨List.mem_cons_self, hfree.2, hlegal.1.1⟩, fun t _ d hd => ?_⟩
      obtain ⟨g, hg, hid⟩ := hd
      obtain ⟨row, hrow, -, hvalue, -⟩ := Expiring.mem_of_get hg
      exact hlegal.1.2 row hrow (hvalue ▸ hid)
    · cases hstep

/-- The row is locked, and the request goes on with it. -/
theorem Inv.locked (h : s.Inv settings) (hfree : s.Unlocked id) {job : Job δ}
    (hjob : (s.lock p id).JobOk p job) : Moves settings s p ((s.lock p id).setJob p (some job)) :=
  h.moves (s.lock p id) rfl ⟨h.table.ids, h.table.known⟩ (h.locks.lock hfree)
    ⟨h.store.listed, h.store.ttl, h.store.single, h.store.distinct⟩ (fun _ _ => frame_lock)
    fun _ hsame => by cases hsame; exact hjob

/-- The one row that the request revokes is locked already. -/
theorem jobOk_revoking_single {date : Nat} (hknown : id ∈ s.known) :
    (s.lock p id).JobOk p (.revoking date [id] [] [id]) := by
  refine ⟨fun other hother => ?_, fun other hother => ?_⟩
  · rw [List.mem_singleton.mp hother]
    exact List.mem_cons_self
  · rw [List.mem_singleton.mp hother]
    exact ⟨hknown, .inr (.inl List.mem_cons_self)⟩

/-- No row is locked yet. -/
theorem jobOk_revoking_start {ids : List String} {date : Nat} (hknown : ∀ id ∈ ids, id ∈ s.known) :
    s.JobOk p (.revoking date ids ids []) :=
  ⟨fun _ hid => absurd hid List.not_mem_nil, fun id hid => ⟨hknown id hid, .inl hid⟩⟩

theorem decideRotation_eq_rotated {record : Option (Session δ)} {new presented : δ} {now : Nat}
    {record' : Session δ}
    (h : decideRotation settings record presented new now = .rotated record') :
    ∃ old, record = some old ∧ old.revokedAt = none ∧ now < old.expiresAt ∧
      now < old.absoluteExpiresAt ∧
      (old.previousTokenHash = some presented →
        now ≤ old.lastUsedAt + settings.refreshReuseGraceSeconds * second) ∧
      record' = rotatedRow settings old presented new now := by
  cases record with
  | none => cases h
  | some old =>
    rw [decideRotation] at h
    split at h
    · cases h
    · rename_i hvalid
      split at h
      · cases h
      · rename_i hlate
        obtain rfl := Decision.rotated.inj h
        simp only [not_or, Option.not_isSome_iff_eq_none, Nat.not_le] at hvalid
        refine ⟨old, rfl, hvalid.1, hvalid.2.1, hvalid.2.2, fun hreused => ?_, rfl⟩
        have hgrace := Nat.not_lt.mp fun h => hlate ⟨hreused, h⟩
        omega

theorem decideRotation_eq_reusedLate {record : Option (Session δ)} {new presented : δ} {now : Nat}
    {late : Session δ} (h : decideRotation settings record presented new now = .reusedLate late) :
    record = some late := by
  cases record with
  | none => cases h
  | some old =>
    rw [decideRotation] at h
    split at h
    · cases h
    · split at h
      · rw [Decision.reusedLate.inj h]
      · cases h

theorem rotatedRow_id {old : Session δ} {presented new : δ} {now : Nat} :
    (rotatedRow settings old presented new now).id = old.id := by
  rw [rotatedRow]
  split <;> rfl

theorem rotatedRow_revokedAt {old : Session δ} {presented new : δ} {now : Nat} :
    (rotatedRow settings old presented new now).revokedAt = old.revokedAt := by
  rw [rotatedRow]
  split <;> rfl

theorem Inv.rotateRefreshToken (h : s.Inv settings) {refreshToken random : String}
    (hstep : rotateRefreshToken digest settings s p refreshToken random = some s') :
    Moves settings s p s' := by
  rw [Server.rotateRefreshToken] at hstep
  dsimp only at hstep
  split at hstep
  · exact Option.some.inj hstep ▸ Moves.refl h
  · split at hstep
    · exact Option.some.inj hstep ▸ Moves.refl h
    · rename_i record hrecord
      have hrow := row_of_find h.table.ids hrecord
      split at hstep
      · rename_i hfree
        split at hstep
        · exact Option.some.inj hstep ▸ Moves.refl h
        · rename_i late hlate
          obtain rfl := Option.some.inj (decideRotation_eq_reusedLate hlate)
          rw [← Option.some.inj hstep]
          exact h.locked hfree
            (jobOk_revoking_single (h.table.known _ (List.mem_of_find?_eq_some hrecord)))
        · rename_i rotated hrotated
          obtain ⟨old, hold, hvalid, -, -, -, rfl⟩ := decideRotation_eq_rotated hrotated
          obtain rfl := Option.some.inj hold
          rw [← Option.some.inj hstep, rotatedRow_id]
          refine h.moves ((s.lock p record.id).mint _ record.id) rfl
            ⟨h.table.ids, h.table.known⟩ (h.locks.lock hfree)
            ⟨h.store.listed, h.store.ttl, h.store.single, h.store.distinct⟩
            (fun q _ => frame_lock.trans frame_mint) fun job hjob => ?_
          rw [← Option.some.inj hjob]
          refine ⟨⟨?_, ?_, rotatedRow_revokedAt.trans hvalid⟩, trivial⟩
          · rw [rotatedRow_id]
            exact List.mem_cons_self
          · rw [rotatedRow_id]
            exact ⟨record, hrow, hvalid⟩
      · cases hstep

theorem Inv.logout (h : s.Inv settings) {grant : AccessGrant} :
    Moves settings s p (s.logout p grant) := by
  rw [Server.logout]
  split
  · rename_i hin
    refine h.goOn fun _ hsame => ?_
    cases hsame
    refine jobOk_revoking_start fun id hid => ?_
    rw [List.mem_singleton.mp hid]
    cases hrow : s.row grant.sessionId with
    | none => simp [signedIn, hrow] at hin
    | some r => exact h.table.known_of_row hrow
  · exact Moves.refl h

theorem Inv.deleteSession (h : s.Inv settings) {user : UserRef}
    (hstep : s.deleteSession p id user = some s') : Moves settings s p s' := by
  rw [Server.deleteSession] at hstep
  split at hstep
  · exact Option.some.inj hstep ▸ Moves.refl h
  · rename_i record hrow
    split at hstep
    · split at hstep
      · rename_i hfree
        rw [← Option.some.inj hstep]
        exact h.locked hfree (jobOk_revoking_single (h.table.known_of_row hrow))
      · cases hstep
    · exact Option.some.inj hstep ▸ Moves.refl h

/-- The request ends with its transaction, or goes on without its locks. -/
theorem Inv.ended (h : s.Inv settings) (s₁ : Server δ) (hjobs : s₁.jobs = s.jobs)
    (htable : s₁.TableOk) (hlocks : s₁.LockOnce)
    (hstore : s₁.StoreOk settings) (hframe : ∀ q, q ≠ p → Frame s s₁ q) {j : Option (Job δ)}
    (hjob : ∀ job, j = some job → (s₁.release p).JobOk p job) :
    Moves settings s p ((s₁.release p).setJob p j) :=
  h.moves (s₁.release p) hjobs ⟨htable.ids, htable.known⟩ hlocks.release
    ⟨hstore.listed, hstore.ttl, hstore.single, hstore.distinct⟩
    (fun q hq => (hframe q hq).trans (frame_release hq)) hjob

theorem Inv.inserted (h : s.Inv settings) (hrecord : s.Inserting p record) {j : Option (Job δ)}
    (hjob : ∀ job, j = some job → ((s.inserted record).release p).JobOk p job) :
    Moves settings s p (((s.inserted record).release p).setJob p j) := by
  have hfresh : record.id ∉ s.sessions.map Session.id := by
    intro hmem
    obtain ⟨r, hr, hid⟩ := List.mem_map.mp hmem
    exact hrecord.2.2 (hid ▸ h.table.known r hr)
  have htable : (s.inserted record).TableOk :=
    ⟨List.nodup_cons.mpr ⟨hfresh, h.table.ids⟩, List.forall_mem_cons.mpr ⟨List.mem_cons_self,
      fun r hr => List.mem_cons_of_mem _ (h.table.known r hr)⟩⟩
  exact h.ended (s.inserted record) rfl htable h.locks
    ⟨h.store.listed, h.store.ttl, h.store.single, h.store.distinct⟩
    (fun q hq => frame_insert h.locks hrecord hq) hjob

theorem Inv.written (h : s.Inv settings) (hrecord : s.Writing p record) (presented : δ)
    (date : Nat) {j : Option (Job δ)}
    (hjob : ∀ job, j = some job → ((s.exchanged record presented date).release p).JobOk p job) :
    Moves settings s p (((s.exchanged record presented date).release p).setJob p j) := by
  have htable : (s.write record).TableOk := h.table.map fun r => by split <;> simp_all
  refine h.ended (s.exchanged record presented date) rfl ⟨htable.ids, htable.known⟩ h.locks
    ⟨h.store.listed, h.store.ttl, h.store.single, h.store.distinct⟩ (fun q hq => ?_) hjob
  have hframe := frame_write h.locks hrecord hq
  exact ⟨hframe.now, hframe.locks, hframe.row, hframe.known, hframe.seen, hframe.revoked,
    hframe.live⟩

theorem Inv.revoked (h : s.Inv settings) {held : List String} (date : Nat)
    (hheld : ∀ id ∈ held, (id, p) ∈ s.locks) {j : Option (Job δ)}
    (hjob : ∀ job, j = some job → ((s.revokeRows held date).release p).JobOk p job) :
    Moves settings s p (((s.revokeRows held date).release p).setJob p j) :=
  h.ended (s.revokeRows held date) rfl (h.table.map fun r => by split <;> rfl) h.locks
    ⟨h.store.listed, h.store.ttl, h.store.single, h.store.distinct⟩
    (fun q hq => frame_revokeRows h.locks hheld hq) hjob

/-- The commit revokes every session that was selected: its row is locked,
or has been revoked or removed by somebody else. -/
theorem revoked_selected {ids held : List String} {date date' : Nat}
    (hjob : s.JobOk p (.revoking date ids [] held)) :
    ∀ id ∈ ids, (s.revokeRows held date').Revoked id := by
  intro id hid
  obtain ⟨hknown, hplace⟩ := hjob.2 id hid
  rcases hplace with htodo | hheld | hrevoked
  · exact absurd htodo List.not_mem_nil
  · exact revoked_of_mem hheld hknown
  · exact revoked_revokeRows hrevoked

/-- What is left of a cleanup is about revoked sessions. -/
theorem jobOk_cleaned {ids : List String} (h : ∀ id ∈ ids, s.Revoked id) :
    ∀ job, cleaned ids = some job → s.JobOk p job := by
  intro job hjob
  rw [cleaned] at hjob
  split at hjob
  · cases hjob
  · rw [← Option.some.inj hjob]
    exact ⟨h, fun _ _ => trivial⟩

/-- A row that is gone is passed over: its session is revoked for good. -/
theorem jobOk_passed {ids todo held : List String} {date : Nat} (hrow : (s.row id).isNone)
    (hjob : s.JobOk p (.revoking date ids (id :: todo) held)) :
    s.JobOk p (.revoking date ids todo held) := by
  refine ⟨hjob.1, fun other hother => ?_⟩
  obtain ⟨hknown, hplace⟩ := hjob.2 other hother
  refine ⟨hknown, ?_⟩
  rcases hplace with htodo | hplace
  · rcases List.mem_cons.mp htodo with rfl | htodo
    · refine .inr (.inr ⟨hknown, fun r hr => ?_⟩)
      rw [Option.isNone_iff_eq_none.mp hrow] at hr
      cases hr
    · exact .inl htodo
  · exact .inr hplace

theorem jobOk_taken {ids todo held : List String} {date : Nat}
    (hjob : s.JobOk p (.revoking date ids (id :: todo) held)) :
    (s.lock p id).JobOk p (.revoking date ids todo (id :: held)) := by
  refine ⟨fun other hother => ?_, fun other hother => ?_⟩
  · rcases List.mem_cons.mp hother with rfl | hother
    · exact List.mem_cons_self
    · exact List.mem_cons_of_mem _ (hjob.1 other hother)
  · obtain ⟨hknown, hplace⟩ := hjob.2 other hother
    refine ⟨hknown, ?_⟩
    rcases hplace with htodo | hheld | hrevoked
    · rcases List.mem_cons.mp htodo with rfl | htodo
      · exact .inr (.inl List.mem_cons_self)
      · exact .inl htodo
    · exact .inr (.inl (List.mem_cons_of_mem _ hheld))
    · exact .inr (.inr hrevoked)

/-- The next command of a request that is under way. -/
theorem Inv.advance (h : s.Inv settings) {e : AuthEvent} {job : Job δ} (hjob : s.JobOk p job)
    (hstep : advance digest settings s p e job = some s') :
    Moves settings s p (s'.recorded e job) := by
  have hrefl (q : Nat) (_ : q ≠ p) : Frame s s q := Frame.refl s q
  unfold Server.advance at hstep
  split at hstep
  · -- the next row of an `UPDATE`
    split at hstep
    · rw [← Option.some.inj hstep]
      rename_i hrow
      exact h.goOn fun _ hsame => by cases hsame; exact jobOk_passed hrow hjob
    · split at hstep
      · rename_i hfree
        rw [← Option.some.inj hstep]
        exact h.locked hfree (jobOk_taken hjob)
      · cases hstep
  · -- the list of a session, for a rotation and for a cleanup
    rw [← Option.some.inj hstep]
    exact h.goOn fun _ hsame => by cases hsame; exact ⟨hjob.1, h.store.listed_all _⟩
  · rw [← Option.some.inj hstep]
    exact h.goOn fun _ hsame => by
      cases hsame
      exact ⟨hjob.1, fun id hid => by cases hid; exact h.store.listed_all _⟩
  · -- the digests that were in it
    rw [← Option.some.inj hstep]
    refine h.moves (s.dropTokens _) rfl ⟨h.table.ids, h.table.known⟩ h.locks h.store.dropTokens
      (fun q _ => frame_dropTokens) fun _ hsame => ?_
    cases hsame
    exact ⟨hjob.1, noneLive_dropTokens hjob.2⟩
  · rw [← Option.some.inj hstep]
    refine h.moves (s.dropTokens _) rfl ⟨h.table.ids, h.table.known⟩ h.locks h.store.dropTokens
      (fun q _ => frame_dropTokens) fun _ hsame => ?_
    cases hsame
    exact ⟨hjob.1, fun id hid => by cases hid; exact noneLive_dropTokens (hjob.2 _ rfl)⟩
  · -- the list itself
    rw [← Option.some.inj hstep]
    refine h.moves (s.dropList _) rfl ⟨h.table.ids, h.table.known⟩ h.locks (h.store.dropList hjob.2)
      (fun q _ => frame_dropList) fun _ hsame => ?_
    cases hsame
    exact ⟨hjob.1, hjob.2⟩
  · rw [← Option.some.inj hstep]
    exact h.moves (s.dropList _) rfl ⟨h.table.ids, h.table.known⟩ h.locks
      (h.store.dropList (hjob.2 _ rfl)) (fun q _ => frame_dropList)
      (jobOk_cleaned fun id hid => hjob.1 id (List.mem_cons_of_mem _ hid))
  · -- a new access token
    rename_i record
    rw [← Option.some.inj hstep]
    refine h.moves (issueAccess settings s record _) rfl ⟨h.table.ids, h.table.known⟩ h.locks
      (h.store.issueAccess hjob.2 _)
      (fun q hq => frame_issueAccess h.locks hjob.1.1 hjob.1.not_revoked _ hq) fun _ hsame => ?_
    cases hsame
    exact hjob.1
  · rename_i record presented date
    rw [← Option.some.inj hstep]
    refine h.moves (issueAccess settings s record _) rfl ⟨h.table.ids, h.table.known⟩ h.locks
      (h.store.issueAccess hjob.2 _)
      (fun q hq => frame_issueAccess h.locks hjob.1.1
        (fun hrevoked => hjob.1.not_revoked hrevoked rfl) _ hq) fun _ hsame => ?_
    cases hsame
    exact hjob.1
  · -- a commit, of each of the three transactions
    rw [← Option.some.inj hstep]
    exact h.inserted hjob fun _ hsame => by cases hsame
  · rw [← Option.some.inj hstep]
    exact h.written hjob _ _ fun _ hsame => by cases hsame
  · rw [← Option.some.inj hstep]
    exact h.revoked _ hjob.1 (jobOk_cleaned (revoked_selected hjob))
  · -- a commit that is reported as failed, and may have happened
    rename_i applied record access
    rw [← Option.some.inj hstep]
    cases applied with
    | true => exact h.inserted hjob fun _ hsame => by cases hsame; trivial
    | false =>
      exact h.ended s rfl h.table h.locks h.store hrefl fun _ hsame => by cases hsame; trivial
  · rename_i applied record presented date access
    rw [← Option.some.inj hstep]
    cases applied with
    | true => exact h.written hjob presented date fun _ hsame => by cases hsame; trivial
    | false =>
      exact h.ended s rfl h.table h.locks h.store hrefl fun _ hsame => by cases hsame; trivial
  · rename_i applied date ids held
    rw [← Option.some.inj hstep]
    cases applied with
    | true => exact h.revoked _ hjob.1 fun _ hsame => by cases hsame
    | false => exact h.ended s rfl h.table h.locks h.store hrefl fun _ hsame => by cases hsame
  · rw [← Option.some.inj hstep]
    exact h.moves (s.dropTokens _) rfl ⟨h.table.ids, h.table.known⟩ h.locks h.store.dropTokens
      (fun q _ => frame_dropTokens) fun _ hsame => by cases hsame
  · rw [← Option.some.inj hstep]
    exact h.ended s rfl h.table h.locks h.store hrefl fun _ hsame => by cases hsame
  · cases hstep

theorem step_moves (h : s.Inv settings) {e : AuthEvent} (hlegal : Legal digest s e)
    (hstep : step digest settings s e = some s') : Moves settings s (actor e) s' := by
  unfold step at hstep
  split at hstep
  · rename_i d
    rw [← Option.some.inj hstep]
    have hframe (q : Nat) : Frame s { s with now := s.now + d } q :=
      ⟨Nat.le_add_right _ _, fun _ h => h, fun _ _ => rfl, fun _ _ => Iff.rfl, fun _ h => h,
        fun _ h => h, fun _ _ _ _ _ h => h⟩
    exact ⟨⟨⟨h.table.ids, h.table.known⟩, h.locks, h.store.elapse d,
      fun q job hq => (hframe q).jobOk (h.job q job hq)⟩, fun q _ => hframe q⟩
  · split at hstep
    · rename_i ids hids
      rw [← Option.some.inj hstep]
      have hframe (q : Nat) : Frame s (s.removeRows ids) q := frame_removeRows hids
      exact ⟨⟨h.table.removeRows ids, h.locks,
        ⟨h.store.listed, h.store.ttl, h.store.single, h.store.distinct⟩,
        fun q job hq => (hframe q).jobOk (h.job q job hq)⟩, fun q _ => hframe q⟩
    · cases hstep
  · rename_i job _ _ hjob
    obtain ⟨s₁, hs₁, rfl⟩ := Option.map_eq_some_iff.mp hstep
    exact h.advance (h.job _ job hjob) hs₁
  · exact h.createSession hlegal hstep
  · exact h.rotateRefreshToken hstep
  · rw [← Option.some.inj hstep]
    exact h.logout
  · exact h.deleteSession hstep
  · rw [← Option.some.inj hstep]
    refine h.goOn fun _ hsame => ?_
    cases hsame
    refine jobOk_revoking_start fun id hid => ?_
    obtain ⟨r, hr, rfl⟩ := List.mem_map.mp hid
    exact h.table.known r (List.mem_of_mem_filter hr)
  · cases hstep

/-! ## Runs -/

abbrev Runs (digest : String → δ) (settings : Settings) :
    Server δ → List AuthEvent → Server δ → Prop :=
  Exec (step digest settings) (Legal digest)

theorem Runs.inv {es : List AuthEvent} (hrun : Runs digest settings s es s')
    (h : s.Inv settings) : s'.Inv settings :=
  hrun.invariant (fun _ _ _ hs hlegal hstep => (step_moves hs hlegal hstep).inv) h

/-- What the whole run leaves of a session that is revoked. -/
theorem Runs.of_revoked {es : List AuthEvent} (hrun : Runs digest settings s es s')
    (h : s.Inv settings) (hid : s.Revoked id) :
    s'.Revoked id ∧ (s.NoneLive id → s'.NoneLive id) := by
  have hkept : s'.Inv settings ∧ s'.Revoked id ∧ (s.NoneLive id → s'.NoneLive id) := by
    refine hrun.invariant (I := fun s₁ => s₁.Inv settings ∧ s₁.Revoked id ∧
      (s.NoneLive id → s₁.NoneLive id)) (fun s₁ e s₂ hs₁ hlegal hstep => ?_) ⟨h, hid, fun h => h⟩
    have hmoves := step_moves hs₁.1 hlegal hstep
    have hframe := hmoves.frame (actor e + 1) (Nat.succ_ne_self _)
    exact ⟨hmoves.inv, hframe.revoked id hs₁.2.1,
      fun hnone => hframe.noneLive (.inr hs₁.2.1) (hs₁.2.2 hnone)⟩
  exact hkept.2

theorem live_of_grantOf {token : String} {g : AccessGrant}
    (h : s.grantOf digest token = some g) : s.Live s.now (digest token) g.sessionId := by
  rw [grantOf] at h
  split at h
  · exact ⟨g, h, rfl⟩
  · cases h

/-- At every moment of every run, whichever requests are under way and
wherever some of them have stopped, a session has at most one access token
that works. -/
theorem one_access_token {now : Nat} {es : List AuthEvent}
    (hrun : Runs digest settings (init now) es s) {token token' : String} {g g' : AccessGrant}
    (htoken : s.grantOf digest token = some g) (htoken' : s.grantOf digest token' = some g')
    (hsession : g.sessionId = g'.sessionId) : digest token = digest token' := by
  have hlive := live_of_grantOf htoken
  rw [hsession] at hlive
  exact (hrun.inv (inv_init now)).store.single _ (Nat.le_refl _) _ _ _ hlive
    (live_of_grantOf htoken')

def homeSettings : Settings where
  accessTokenTtlSeconds := 900
  refreshSlidingDays := 30
  refreshAbsoluteDays := 90
  refreshReuseGraceSeconds := 60

/-- Every token is its own digest. -/
def tokenItself (token : String) : String := token

def sessionOwner : UserRef := ⟨7, "home"⟩

/-- A login and one refresh. -/
def refreshedSession : List AuthEvent :=
  [.createSession 1 "s" "a" sessionOwner true, .issue 1 "a", .commit 1, .elapse 5,
    .rotateRefreshToken 2 "kc1_rt_a" "b", .listTokens 2, .deleteTokens 2, .deleteList 2,
    .issue 2 "b", .commit 2]

theorem one_access_token_refreshed :
    ∃ s, Runs tokenItself homeSettings (init 0) refreshedSession s ∧
      ∀ token g, s.grantOf tokenItself token = some g → g.sessionId = "s" → token = "kc1_at_b" := by
  obtain ⟨s, hrun, hgrant⟩ := @Exec.of_runFrom_map _ _ (step tokenItself homeSettings)
      (Legal tokenItself) _ _
    (fun s => s.grantOf tokenItself "kc1_at_b") (some ⟨sessionOwner, "s"⟩) (init 0) refreshedSession
    (by decide +kernel)
  exact ⟨s, hrun, fun token g htoken hsession => one_access_token hrun htoken hgrant hsession⟩

/-- From the commit of a revocation on, no request gets in with an access
token of the session and no refresh token of it is rotated; and once
`revoke_session` is through with it, Redis holds no token of it, and never
will. -/
theorem revocation_final {now : Nat} {es₁ : List AuthEvent} {s₁ : Server δ}
    (hbefore : Runs digest settings (init now) es₁ s₁) :
    (∀ p date ids held s₂ es₂ s₃, s₁.jobs p = some (.revoking date ids [] held) →
      step digest settings s₁ (.commit p) = some s₂ → Runs digest settings s₂ es₂ s₃ →
      ∀ id ∈ ids,
        (∀ active token g, s₃.requireUser digest active token = some g → g.sessionId ≠ id) ∧
        ∀ presented new record,
          decideRotation settings (s₃.rowOfToken presented) presented new s₃.now =
            .rotated record → record.id ≠ id) ∧
    ∀ p id ids s₂ es₂ s₃, s₁.jobs p = some (.cleaning (id :: ids) .deleted) →
      step digest settings s₁ (.deleteList p) = some s₂ → Runs digest settings s₂ es₂ s₃ →
      ∀ token g, s₃.grantOf digest token = some g → g.sessionId ≠ id := by
  have hinv := hbefore.inv (inv_init now)
  constructor
  · intro p date ids held s₂ es₂ s₃ hjob hstep hafter id hid
    have hmoves := step_moves hinv (e := .commit p) trivial hstep
    have hrevoked : s₂.Revoked id := by
      unfold step at hstep
      rw [show s₁.jobs (actor (.commit p)) = _ from hjob] at hstep
      rw [← Option.some.inj hstep]
      exact revoked_selected (hinv.job p _ hjob) id hid
    have hclosed := (hafter.of_revoked hmoves.inv hrevoked).1
    refine ⟨fun active token g hgrant hsame => ?_, fun presented new record hrotated hsame => ?_⟩
    · have hjoin := (Option.filter_eq_some_iff.mp hgrant).2
      rw [decide_eq_true_eq, signedIn, hsame] at hjoin
      cases hr : s₃.row id with
      | none => simp [hr] at hjoin
      | some r =>
        rw [hr, Option.any_some, decide_eq_true_eq] at hjoin
        exact hclosed.2 r hr hjoin.2.2.1
    · obtain ⟨old, hold, hfree, -, -, -, rfl⟩ := decideRotation_eq_rotated hrotated
      have hrow := row_of_find (hafter.inv hmoves.inv).table.ids hold
      rw [rotatedRow_id] at hsame
      exact hclosed.2 old (hsame ▸ hrow) hfree
  · intro p id ids s₂ es₂ s₃ hjob hstep hafter token g hgrant hsame
    have hmoves := step_moves hinv (e := .deleteList p) trivial hstep
    obtain ⟨hrevoked, hnone⟩ := hinv.job p _ hjob
    have hframe := hmoves.frame (p + 1) (Nat.succ_ne_self _)
    have hid := hrevoked id List.mem_cons_self
    have hlive := (hafter.of_revoked hmoves.inv (hframe.revoked id hid)).2
      (hframe.noneLive (.inr hid) (hnone id rfl))
    exact hlive _ (Nat.le_refl _) _ (hsame ▸ live_of_grantOf hgrant)

/-- A logout after the refresh; its commit is next. -/
def loggingOut : List AuthEvent := refreshedSession ++ [.logout 3 ⟨sessionOwner, "s"⟩, .lockRow 3]

/-- The end of the cleanup is next. -/
def cleaningUp : List AuthEvent := loggingOut ++ [.commit 3, .listTokens 3, .deleteTokens 3]

theorem revocation_final_logout :
    (∃ s₁ s₂, Runs tokenItself homeSettings (init 0) loggingOut s₁ ∧
      step tokenItself homeSettings s₁ (.commit 3) = some s₂ ∧
      ∀ es s₃, Runs tokenItself homeSettings s₂ es s₃ →
        ∀ active token g, s₃.requireUser tokenItself active token = some g → g.sessionId ≠ "s") ∧
    ∃ s₁ s₂, Runs tokenItself homeSettings (init 0) cleaningUp s₁ ∧
      step tokenItself homeSettings s₁ (.deleteList 3) = some s₂ ∧
      ∀ es s₃, Runs tokenItself homeSettings s₂ es s₃ →
        ∀ token g, s₃.grantOf tokenItself token = some g → g.sessionId ≠ "s" := by
  constructor
  · obtain ⟨s₁, hrun, hs₁⟩ := @Exec.of_runFrom_map _ _ (step tokenItself homeSettings)
      (Legal tokenItself) _ _
      (fun s => (s.jobs 3, (step tokenItself homeSettings s (.commit 3)).isSome))
      (some (.revoking 5 ["s"] [] ["s"]), true) (init 0) loggingOut (by decide +kernel)
    obtain ⟨hjob, hstep⟩ := Prod.mk.inj hs₁
    obtain ⟨s₂, hs₂⟩ := Option.isSome_iff_exists.mp hstep
    exact ⟨s₁, s₂, hrun, hs₂, fun es s₃ hafter =>
      ((revocation_final hrun).1 3 5 ["s"] ["s"] s₂ es s₃ hjob hs₂ hafter "s" List.mem_cons_self).1⟩
  · obtain ⟨s₁, hrun, hs₁⟩ := @Exec.of_runFrom_map _ _ (step tokenItself homeSettings)
      (Legal tokenItself) _ _
      (fun s => (s.jobs 3, (step tokenItself homeSettings s (.deleteList 3)).isSome))
      (some (.cleaning ["s"] .deleted), true) (init 0) cleaningUp (by decide +kernel)
    obtain ⟨hjob, hstep⟩ := Prod.mk.inj hs₁
    obtain ⟨s₂, hs₂⟩ := Option.isSome_iff_exists.mp hstep
    exact ⟨s₁, s₂, hrun, hs₂, fun es s₃ hafter =>
      (revocation_final hrun).2 3 "s" [] s₂ es s₃ hjob hs₂ hafter⟩

end Server

end Auth

end Kaede
