import Kaede.AuthSessionSafety

/-!
# Refresh tokens are used once

A refresh token is exchanged for a new one. The exchange may get lost on
its way to the client, so the old token stays good for a grace period, and
every exchange of it replaces the one before. `TokensOk` says what the
rows, the requests under way and the record of all exchanges have to do
with each other; `refresh_token_rotation` is what follows for a token
that is accepted.

Two sessions never meet in this: every token was made for one session.
-/

namespace Kaede

namespace Auth

namespace Server

variable {δ : Type} [DecidableEq δ] {digest : String → δ} {settings : Settings}
  {s s' : Server δ} {p q : Nat} {id : String} {record : Session δ}

/-! ## The invariant -/

/-- The last exchange of a token. -/
def lastRotation (s : Server δ) (presented : δ) : Option (Rotated δ) :=
  s.rotations.find? fun e => e.presented = presented

/-- The token was issued by the last exchange of the one before it, if by
any. -/
def Delivered (s : Server δ) (d : δ) : Prop :=
  ∀ e ∈ s.rotations, e.issued = d → s.lastRotation e.presented = some e

structure RowOk (s : Server δ) (r : Session δ) : Prop where
  minted : (r.refreshTokenHash, r.id) ∈ s.minted
  lastUsed : r.lastUsedAt ≤ s.now
  unused : ∀ e ∈ s.rotations, e.presented ≠ r.refreshTokenHash
  delivered : s.Delivered r.refreshTokenHash
  previous : ∀ d, r.previousTokenHash = some d →
    (d, r.id) ∈ s.minted ∧ s.Delivered d ∧
      ∀ e ∈ s.rotations, e.presented = d →
        r.lastUsedAt ≤ e.date ∧ ∀ e' ∈ s.rotations, e'.presented ≠ e.issued

/-- Nothing refers to the token yet. -/
structure Unseen (s : Server δ) (new : δ) : Prop where
  rows : ∀ r ∈ s.sessions, r.refreshTokenHash ≠ new ∧ r.previousTokenHash ≠ some new
  rotations : ∀ e ∈ s.rotations, e.presented ≠ new ∧ e.issued ≠ new

/-- The row that a rotation under way is going to write. -/
def Pending (settings : Settings) (s : Server δ) (record : Session δ) (presented : δ)
    (date : Nat) : Prop :=
  (record.refreshTokenHash, record.id) ∈ s.minted ∧ s.Unseen record.refreshTokenHash ∧
    date ≤ s.now ∧ ∃ old, s.row record.id = some old ∧ old.lastUsedAt ≤ date ∧
      (old.refreshTokenHash = presented ∨ old.previousTokenHash = some presented) ∧
      record = rotatedRow settings old presented record.refreshTokenHash date

def TokenJobOk (settings : Settings) (s : Server δ) : Job δ → Prop
  | .creating record | .created record _ => s.RowOk record ∧ record.previousTokenHash = none
  | .rotating record presented date _ | .issuing record presented date
  | .issued record presented date _ => s.Pending settings record presented date
  | _ => True

structure TokensOk (settings : Settings) (s : Server δ) : Prop where
  owner : ∀ d a b, (d, a) ∈ s.minted → (d, b) ∈ s.minted → a = b
  rows : ∀ r ∈ s.sessions, s.RowOk r
  log : ∀ e ∈ s.rotations, (e.presented, e.sessionId) ∈ s.minted ∧
    (e.issued, e.sessionId) ∈ s.minted ∧ e.presented ≠ e.issued
  job : ∀ p job, s.jobs p = some job → s.TokenJobOk settings job

theorem tokensOk_init (now : Nat) : (init now : Server δ).TokensOk settings where
  owner := fun _ _ _ h => absurd h List.not_mem_nil
  rows := fun _ h => absurd h List.not_mem_nil
  log := fun _ h => absurd h List.not_mem_nil
  job := fun _ _ h => (nomatch h)

/-! ## Time and new tokens -/

/-- The rows and the record of exchanges are the same, and what was made
stays made. -/
structure Extends (s s' : Server δ) : Prop where
  now : s.now ≤ s'.now
  sessions : s'.sessions = s.sessions
  rotations : s'.rotations = s.rotations
  minted : ∀ m ∈ s.minted, m ∈ s'.minted

theorem Extends.delivered (h : Extends s s') {d : δ} (hd : s.Delivered d) : s'.Delivered d := by
  simpa only [Delivered, lastRotation, h.rotations] using hd

theorem Extends.rowOk (h : Extends s s') {r : Session δ} (hr : s.RowOk r) : s'.RowOk r where
  minted := h.minted _ hr.minted
  lastUsed := Nat.le_trans hr.lastUsed h.now
  unused := h.rotations ▸ hr.unused
  delivered := h.delivered hr.delivered
  previous := fun d hd => by
    rw [h.rotations]
    exact ⟨h.minted _ (hr.previous d hd).1, h.delivered (hr.previous d hd).2.1,
      (hr.previous d hd).2.2⟩

theorem Extends.pending (h : Extends s s') {presented : δ} {date : Nat}
    (hp : s.Pending settings record presented date) :
    s'.Pending settings record presented date := by
  obtain ⟨hminted, hunseen, hdate, old, hold, hrest⟩ := hp
  refine ⟨h.minted _ hminted, ⟨h.sessions ▸ hunseen.rows, h.rotations ▸ hunseen.rotations⟩,
    Nat.le_trans hdate h.now, old, ?_, hrest⟩
  rw [row, h.sessions]
  exact hold

theorem Extends.tokenJobOk (h : Extends s s') {job : Job δ} (hjob : s.TokenJobOk settings job) :
    s'.TokenJobOk settings job := by
  cases job with
  | creating record => exact ⟨h.rowOk hjob.1, hjob.2⟩
  | created record access => exact ⟨h.rowOk hjob.1, hjob.2⟩
  | rotating record presented date stage => exact h.pending hjob
  | issuing record presented date => exact h.pending hjob
  | issued record presented date access => exact h.pending hjob
  | revoking date ids todo held => trivial
  | cleaning ids stage => trivial
  | undoing access => trivial

theorem tokenJobOk_setJob {j : Option (Job δ)} {job : Job δ} :
    (s.setJob p j).TokenJobOk settings job ↔ s.TokenJobOk settings job := by
  have h : Extends s (s.setJob p j) := ⟨Nat.le_refl _, rfl, rfl, fun _ h => h⟩
  have h' : Extends (s.setJob p j) s := ⟨Nat.le_refl _, rfl, rfl, fun _ h => h⟩
  exact ⟨h'.tokenJobOk, h.tokenJobOk⟩

/-- A step that writes no row and exchanges no token. -/
theorem TokensOk.extends (h : s.TokensOk settings) (s' : Server δ) (hext : Extends s s')
    (hjobs : s'.jobs = s.jobs)
    (howner : ∀ d a b, (d, a) ∈ s'.minted → (d, b) ∈ s'.minted → a = b) {j : Option (Job δ)}
    (hjob : ∀ job, j = some job → s'.TokenJobOk settings job) :
    (s'.setJob p j).TokensOk settings where
  owner := howner
  rows := fun r hr => by
    have hsame : Extends s (s'.setJob p j) := ⟨hext.now, hext.sessions, hext.rotations, hext.minted⟩
    exact hsame.rowOk (h.rows r (hext.sessions ▸ hr))
  log := fun e he => by
    obtain ⟨hpresented, hissued, hne⟩ := h.log e (hext.rotations ▸ he)
    exact ⟨hext.minted _ hpresented, hext.minted _ hissued, hne⟩
  job := fun q job hq => by
    rw [tokenJobOk_setJob]
    rw [jobs_setJob, hjobs] at hq
    split at hq
    · exact hjob job hq
    · exact hext.tokenJobOk (h.job q job hq)

/-! ## An exchange is committed -/

theorem TokensOk.ne_of_owner (h : s.TokensOk settings) {d d' : δ} {a b : String}
    (hd : (d, a) ∈ s.minted) (hd' : (d', b) ∈ s.minted) (hne : a ≠ b) : d ≠ d' := by
  rintro rfl
  exact hne (h.owner d a b hd hd')

/-- The exchanges of one token are all of its session. -/
theorem TokensOk.session_of_issued (h : s.TokensOk settings) {e : Rotated δ}
    (he : e ∈ s.rotations) (hd : (e.issued, id) ∈ s.minted) : e.sessionId = id :=
  h.owner _ _ _ (h.log e he).2.1 hd

theorem TokensOk.session_of_presented (h : s.TokensOk settings) {e : Rotated δ}
    (he : e ∈ s.rotations) (hd : (e.presented, id) ∈ s.minted) : e.sessionId = id :=
  h.owner _ _ _ (h.log e he).1 hd

section

variable {e₀ : Rotated δ}

theorem delivered_cons (hlog : s'.rotations = e₀ :: s.rotations) {d : δ} (hd : s.Delivered d)
    (hissued : e₀.issued ≠ d)
    (hpresented : ∀ e ∈ s.rotations, e.issued = d → e.presented ≠ e₀.presented) :
    s'.Delivered d := by
  intro e he hed
  rw [hlog] at he
  rcases List.mem_cons.mp he with rfl | he
  · exact absurd hed hissued
  · rw [lastRotation, hlog, List.find?_cons_of_neg (by simpa using (hpresented e he hed).symm)]
    exact hd e he hed

theorem delivered_new (hlog : s'.rotations = e₀ :: s.rotations)
    (hfresh : ∀ e ∈ s.rotations, e.issued ≠ e₀.issued) : s'.Delivered e₀.issued := by
  intro e he hed
  rw [hlog] at he
  rcases List.mem_cons.mp he with rfl | he
  · rw [lastRotation, hlog, List.find?_cons_of_pos (by simp)]
  · exact absurd hed (hfresh e he)

/-- An exchange in another session. -/
theorem TokensOk.rowOk_cons (h : s.TokensOk settings) {r : Session δ} (hr : s.RowOk r)
    (hnow : s'.now = s.now) (hminted : s'.minted = s.minted)
    (hlog : s'.rotations = e₀ :: s.rotations) (hpresented : (e₀.presented, id) ∈ s.minted)
    (hissued : (e₀.issued, id) ∈ s.minted) (hne : r.id ≠ id) : s'.RowOk r := by
  have hother {d : δ} (hd : (d, r.id) ∈ s.minted) (hdelivered : s.Delivered d) :
      s'.Delivered d := by
    refine delivered_cons hlog hdelivered (h.ne_of_owner hissued hd hne.symm) ?_
    rintro e he rfl
    have hsession := h.session_of_issued he hd
    exact h.ne_of_owner (hsession ▸ (h.log e he).1) hpresented hne
  refine ⟨hminted ▸ hr.minted, hnow ▸ hr.lastUsed, ?_, hother hr.minted hr.delivered, ?_⟩
  · rw [hlog]
    exact List.forall_mem_cons.mpr ⟨h.ne_of_owner hpresented hr.minted hne.symm, hr.unused⟩
  · intro d hd
    obtain ⟨hmade, hdelivered, hused⟩ := hr.previous d hd
    refine ⟨hminted ▸ hmade, hother hmade hdelivered, ?_⟩
    rw [hlog]
    refine List.forall_mem_cons.mpr ⟨fun hsame => ?_, fun e he hsame => ?_⟩
    · exact absurd hsame (h.ne_of_owner hpresented hmade hne.symm)
    · refine ⟨(hused e he hsame).1, List.forall_mem_cons.mpr ⟨?_, (hused e he hsame).2⟩⟩
      have hsession := h.session_of_presented he (hsame ▸ hmade)
      exact (h.ne_of_owner (hsession ▸ (h.log e he).2.1) hpresented hne).symm

end

/-- The row that is written. -/
theorem TokensOk.rowOk_written (h : s.TokensOk settings) {presented : δ} {date : Nat}
    (hpending : s.Pending settings record presented date) (hnow : s'.now = s.now)
    (hminted : s'.minted = s.minted)
    (hlog : s'.rotations =
      ⟨record.id, presented, record.refreshTokenHash, date⟩ :: s.rotations) :
    (presented, record.id) ∈ s.minted ∧ presented ≠ record.refreshTokenHash ∧ s'.RowOk record := by
  obtain ⟨hmade, hunseen, hdate, old, hold, hused, hpresented, hrecord⟩ := hpending
  have hmem : old ∈ s.sessions := List.mem_of_find?_eq_some hold
  have hid : old.id = record.id := id_of_row hold
  have hok := h.rows old hmem
  have hfresh := hunseen.rows old hmem
  have hpmade : (presented, record.id) ∈ s.minted := by
    rcases hpresented with rfl | hprevious
    · exact hid ▸ hok.minted
    · exact hid ▸ (hok.previous _ hprevious).1
  have hne : presented ≠ record.refreshTokenHash := by
    rcases hpresented with rfl | hprevious
    · exact hfresh.1
    · rintro rfl
      exact hfresh.2 hprevious
  have hnew : s'.Delivered record.refreshTokenHash :=
    @delivered_new _ _ _ _ ⟨_, _, record.refreshTokenHash, _⟩ hlog
      fun e he => (hunseen.rotations e he).2
  have hlogged {P : Rotated δ → Prop} (hhead : P ⟨record.id, presented, record.refreshTokenHash,
      date⟩) (hrest : ∀ e ∈ s.rotations, P e) : ∀ e ∈ s'.rotations, P e :=
    hlog ▸ List.forall_mem_cons.mpr ⟨hhead, hrest⟩
  have hunused : ∀ e ∈ s'.rotations, e.presented ≠ record.refreshTokenHash :=
    hlogged hne fun e he => (hunseen.rotations e he).1
  refine ⟨hpmade, hne, hminted ▸ hmade, ?_, hunused, hnew, ?_⟩
  · rw [hnow, hrecord, rotatedRow]
    dsimp only
    split
    · exact hok.lastUsed
    · exact hdate
  · intro d hd
    rw [hminted]
    by_cases hreused : old.previousTokenHash = some presented
    · -- the same token once more: the token that got lost is replaced
      have hprevious : record.previousTokenHash = some presented := by
        rw [hrecord, rotatedRow, if_pos hreused, hreused]
      have hlast : record.lastUsedAt = old.lastUsedAt := by
        rw [hrecord, rotatedRow, if_pos hreused]
      obtain rfl := Option.some.inj (hprevious.symm.trans hd)
      obtain ⟨-, hdelivered, hbefore⟩ := hok.previous _ hreused
      refine ⟨hpmade, delivered_cons hlog hdelivered hne.symm fun e he hissued hsame => ?_, ?_⟩
      · exact (h.log e he).2.2 (hsame.trans hissued.symm)
      · refine hlogged (fun _ => ⟨hlast ▸ hused, hunused⟩) fun e he hsame => ?_
        refine ⟨hlast ▸ (hbefore e he hsame).1, hlogged ?_ (hbefore e he hsame).2⟩
        exact hsame ▸ (h.log e he).2.2
    · -- the current token: it becomes the previous one
      have hcurrent : old.refreshTokenHash = presented := hpresented.resolve_right hreused
      have hprevious : record.previousTokenHash = some presented := by
        rw [hrecord, rotatedRow, if_neg hreused, hcurrent]
      have hlast : record.lastUsedAt = date := by
        rw [hrecord, rotatedRow, if_neg hreused]
      obtain rfl := Option.some.inj (hprevious.symm.trans hd)
      have hbefore := hok.unused
      rw [hcurrent] at hbefore
      refine ⟨hpmade, delivered_cons hlog (hcurrent ▸ hok.delivered) hne.symm
        fun e he hissued hsame => ?_, ?_⟩
      · exact (h.log e he).2.2 (hsame.trans hissued.symm)
      · refine hlogged (fun _ => ⟨hlast ▸ Nat.le_refl _, hunused⟩) fun e he hsame => ?_
        exact absurd hsame (hbefore e he)

/-! ## What a commit does to the others -/

/-- The transaction of `p` ends with `s₁` in the database. -/
theorem TokensOk.committed (h : s.TokensOk settings) (s₁ : Server δ)
    (hminted : s₁.minted = s.minted) (hjobs : s₁.jobs = s.jobs)
    (hrows : ∀ r ∈ s₁.sessions, s₁.RowOk r)
    (hlog : ∀ e ∈ s₁.rotations, (e.presented, e.sessionId) ∈ s.minted ∧
      (e.issued, e.sessionId) ∈ s.minted ∧ e.presented ≠ e.issued)
    (hothers : ∀ q job, q ≠ p → s.jobs q = some job → s₁.TokenJobOk settings job)
    {j : Option (Job δ)} (hjob : ∀ job, j = some job → s₁.TokenJobOk settings job) :
    ((s₁.release p).setJob p j).TokensOk settings := by
  have hsame : Extends s₁ ((s₁.release p).setJob p j) :=
    ⟨Nat.le_refl _, rfl, rfl, fun _ h => h⟩
  refine ⟨?_, fun r hr => hsame.rowOk (hrows r hr), ?_, fun q job hq => ?_⟩
  · change ∀ d a b, (d, a) ∈ s₁.minted → (d, b) ∈ s₁.minted → a = b
    rw [hminted]
    exact h.owner
  · change ∀ e ∈ s₁.rotations, (e.presented, e.sessionId) ∈ s₁.minted ∧
      (e.issued, e.sessionId) ∈ s₁.minted ∧ e.presented ≠ e.issued
    rw [hminted]
    exact hlog
  · rw [jobs_setJob] at hq
    split at hq
    · exact hsame.tokenJobOk (hjob job hq)
    · rename_i hqp
      exact hsame.tokenJobOk (hothers q job hqp (hjobs ▸ hq))

/-- A rotation under way sees rows of other sessions written. -/
theorem TokensOk.pending_write (h : s.TokensOk settings) {presented : δ} {date : Nat}
    (hpending : s.Pending settings record presented date) (hnow : s'.now = s.now)
    (hminted : s'.minted = s.minted) (hrow : s'.row record.id = s.row record.id)
    (hrows : ∀ r ∈ s'.sessions, r.id ≠ record.id → s'.RowOk r)
    (hsame : ∀ r ∈ s'.sessions, r.id = record.id → r ∈ s.sessions)
    (hlog : ∀ e ∈ s'.rotations, e ∈ s.rotations ∨ e.sessionId ≠ record.id ∧
      (e.presented, e.sessionId) ∈ s.minted ∧ (e.issued, e.sessionId) ∈ s.minted) :
    s'.Pending settings record presented date := by
  obtain ⟨hmade, hunseen, hdate, hold⟩ := hpending
  refine ⟨hminted ▸ hmade, ⟨fun r hr => ?_, fun e he => ?_⟩, hnow ▸ hdate, hrow ▸ hold⟩
  · by_cases hid : r.id = record.id
    · exact hunseen.rows r (hsame r hr hid)
    · have hok := hrows r hr hid
      refine ⟨h.ne_of_owner (hminted ▸ hok.minted) hmade hid, fun hprevious => ?_⟩
      exact h.ne_of_owner (hminted ▸ (hok.previous _ hprevious).1) hmade hid rfl
  · rcases hlog e he with he | ⟨hid, hpresented, hissued⟩
    · exact hunseen.rotations e he
    · exact ⟨h.ne_of_owner hpresented hmade hid, h.ne_of_owner hissued hmade hid⟩

/-- The session that a request has locked for its tokens. -/
def ownSession : Job δ → Option String
  | .creating record | .created record _ | .rotating record _ _ _ | .issuing record _ _
  | .issued record _ _ _ => some record.id
  | _ => none

theorem lock_of_ownSession {job : Job δ} (hjob : s.JobOk q job) (hid : ownSession job = some id) :
    (id, q) ∈ s.locks := by
  cases job with
  | creating record => cases hid; exact hjob.1.1
  | created record access => cases hid; exact hjob.1
  | rotating record presented date stage => cases hid; exact hjob.1.1
  | issuing record presented date => cases hid; exact hjob.1.1
  | issued record presented date access => cases hid; exact hjob.1
  | revoking date ids todo held => cases hid
  | cleaning ids stage => cases hid
  | undoing access => cases hid

/-- What a commit of `p` leaves to the others: `s₁` differs from `s` by the
rows of `ids`, which `p` has locked, and by exchanges in these sessions. -/
theorem TokensOk.others (h : s.TokensOk settings) (hinv : s.Inv settings) {s₁ : Server δ}
    {ids : List String} (hids : ∀ id ∈ ids, (id, p) ∈ s.locks) (hnow : s₁.now = s.now)
    (hminted : s₁.minted = s.minted) (hrow : ∀ id, id ∉ ids → s₁.row id = s.row id)
    (hrows : ∀ r ∈ s₁.sessions, s₁.RowOk r)
    (hsame : ∀ r ∈ s₁.sessions, r.id ∉ ids → r ∈ s.sessions)
    (hkept : ∀ r, r.id ∉ ids → s.RowOk r → s₁.RowOk r)
    (hlog : ∀ e ∈ s₁.rotations, e ∈ s.rotations ∨ e.sessionId ∈ ids ∧
      (e.presented, e.sessionId) ∈ s.minted ∧ (e.issued, e.sessionId) ∈ s.minted)
    {job : Job δ} (hq : q ≠ p) (hjob : s.jobs q = some job) : s₁.TokenJobOk settings job := by
  have hown {id : String} (hid : ownSession job = some id) : id ∉ ids := fun hmem =>
    hq (hinv.locks id q p (lock_of_ownSession (hinv.job q job hjob) hid) (hids id hmem))
  have hok := h.job q job hjob
  have hpending {record : Session δ} {presented : δ} {date : Nat}
      (hid : ownSession job = some record.id)
      (hp : s.Pending settings record presented date) :
      s₁.Pending settings record presented date := by
    refine h.pending_write hp hnow hminted (hrow _ (hown hid)) (fun r hr _ => hrows r hr)
      (fun r hr hsession => hsame r hr (hsession ▸ hown hid)) fun e he => (hlog e he).imp_right ?_
    rintro ⟨hmem, hmade⟩
    exact ⟨fun hsession => hown hid (hsession ▸ hmem), hmade⟩
  cases job with
  | creating record => exact ⟨hkept record (hown rfl) hok.1, hok.2⟩
  | created record access => exact ⟨hkept record (hown rfl) hok.1, hok.2⟩
  | rotating record presented date stage => exact hpending rfl hok
  | issuing record presented date => exact hpending rfl hok
  | issued record presented date access => exact hpending rfl hok
  | revoking date ids todo held => trivial
  | cleaning ids stage => trivial
  | undoing access => trivial

theorem TokensOk.written (h : s.TokensOk settings) (hinv : s.Inv settings)
    (hwriting : s.Writing p record) {presented : δ} {date : Nat}
    (hpending : s.Pending settings record presented date) {j : Option (Job δ)}
    (hj : ∀ job, j = some job → ∀ s₁ : Server δ, s₁.TokenJobOk settings job) :
    (((s.exchanged record presented date).release p).setJob p j).TokensOk settings := by
  generalize hs₁ : s.exchanged record presented date = s₁
  have hlog : s₁.rotations = ⟨record.id, presented, record.refreshTokenHash, date⟩ :: s.rotations :=
    hs₁ ▸ rfl
  have hsessions : s₁.sessions = (s.write record).sessions := hs₁ ▸ rfl
  have hminted : s₁.minted = s.minted := hs₁ ▸ rfl
  have hnow : s₁.now = s.now := hs₁ ▸ rfl
  obtain ⟨hpresented, hne, hrecord⟩ := h.rowOk_written hpending hnow hminted hlog
  have hkept (r : Session δ) (hid : r.id ∉ [record.id]) (hr : s.RowOk r) : s₁.RowOk r :=
    h.rowOk_cons hr hnow hminted hlog hpresented hpending.1 (List.mem_singleton.not.mp hid)
  have hrows : ∀ r ∈ s₁.sessions, s₁.RowOk r := by
    intro r hr
    rcases mem_write (hsessions ▸ hr) with rfl | ⟨hmem, hid⟩
    · exact hrecord
    · exact hkept r (List.mem_singleton.not.mpr hid) (h.rows r hmem)
  refine h.committed s₁ hminted (hs₁ ▸ rfl) hrows ?_ (fun q job hq hjob => ?_)
    fun job hjob => hj job hjob s₁
  · rw [hlog]
    exact List.forall_mem_cons.mpr ⟨⟨hpresented, hpending.1, hne⟩, h.log⟩
  · refine @TokensOk.others δ _ settings s p q h hinv s₁ [record.id] ?_ hnow hminted ?_ hrows ?_
      hkept ?_ job hq hjob
    · rintro _ hid
      exact List.mem_singleton.mp hid ▸ hwriting.1
    · intro id hid
      rw [row, hsessions]
      exact row_write_of_ne (List.mem_singleton.not.mp hid)
    · intro r hr hid
      rcases mem_write (hsessions ▸ hr) with rfl | ⟨hmem, -⟩
      · exact absurd List.mem_cons_self hid
      · exact hmem
    · rw [hlog]
      exact List.forall_mem_cons.mpr
        ⟨.inr ⟨List.mem_cons_self, hpresented, hpending.1⟩, fun e he => .inl he⟩

theorem TokensOk.inserted (h : s.TokensOk settings) (hinv : s.Inv settings)
    (hinserting : s.Inserting p record) (hrecord : s.RowOk record) {j : Option (Job δ)}
    (hj : ∀ job, j = some job → ∀ s₁ : Server δ, s₁.TokenJobOk settings job) :
    (((s.inserted record).release p).setJob p j).TokensOk settings := by
  generalize hs₁ : s.inserted record = s₁
  have hsessions : s₁.sessions = record :: s.sessions := hs₁ ▸ rfl
  have hkept (r : Session δ) (hr : s.RowOk r) : s₁.RowOk r := by
    subst hs₁
    exact ⟨hr.minted, hr.lastUsed, hr.unused, hr.delivered, hr.previous⟩
  have hrows : ∀ r ∈ s₁.sessions, s₁.RowOk r := by
    rw [hsessions]
    exact List.forall_mem_cons.mpr ⟨hkept record hrecord, fun r hr => hkept r (h.rows r hr)⟩
  refine h.committed s₁ (hs₁ ▸ rfl) (hs₁ ▸ rfl) hrows (hs₁ ▸ h.log) (fun q job hq hjob => ?_)
    fun job hjob => hj job hjob s₁
  refine @TokensOk.others δ _ settings s p q h hinv s₁ [record.id] ?_ (hs₁ ▸ rfl) (hs₁ ▸ rfl) ?_
    hrows ?_ (fun r _ => hkept r) (hs₁ ▸ fun e he => .inl he) job hq hjob
  · rintro _ hid
    exact List.mem_singleton.mp hid ▸ hinserting.1
  · intro id hid
    rw [row, hsessions, List.find?_cons_of_neg, row]
    simpa using Ne.symm (List.mem_singleton.not.mp hid)
  · rw [hsessions]
    exact List.forall_mem_cons.mpr
      ⟨fun hid => absurd List.mem_cons_self hid, fun r hr _ => hr⟩

theorem TokensOk.revoked (h : s.TokensOk settings) (hinv : s.Inv settings) {held : List String}
    (hheld : ∀ id ∈ held, (id, p) ∈ s.locks) {date : Nat} {j : Option (Job δ)}
    (hj : ∀ job, j = some job → ∀ s₁ : Server δ, s₁.TokenJobOk settings job) :
    (((s.revokeRows held date).release p).setJob p j).TokensOk settings := by
  have hkept (r : Session δ) (hr : s.RowOk r) : (s.revokeRows held date).RowOk r :=
    ⟨hr.minted, hr.lastUsed, hr.unused, hr.delivered, hr.previous⟩
  have hrows : ∀ r ∈ (s.revokeRows held date).sessions, (s.revokeRows held date).RowOk r := by
    intro r hr
    obtain ⟨old, hold, rfl⟩ := List.mem_map.mp hr
    have hok := hkept old (h.rows old hold)
    split
    · exact ⟨hok.minted, hok.lastUsed, hok.unused, hok.delivered, hok.previous⟩
    · exact hok
  refine h.committed (s.revokeRows held date) rfl rfl hrows h.log (fun q job hq hjob => ?_)
    fun job hjob => hj job hjob _
  refine @TokensOk.others δ _ settings s p q h hinv (s.revokeRows held date) held hheld rfl rfl ?_
    hrows ?_ (fun r _ => hkept r) (fun e he => .inl he) job hq hjob
  · intro id hid
    rw [row_revokeRows, if_neg hid]
  · intro r hr hid
    obtain ⟨old, hold, rfl⟩ := List.mem_map.mp hr
    split at hid
    · rename_i hmem
      exact absurd hmem hid
    · rename_i hmem
      rw [if_neg hmem]
      exact hold

theorem TokensOk.removeRows (h : s.TokensOk settings) (hinv : s.Inv settings) {ids : List String}
    (hids : ∀ id ∈ ids, s.Unlocked id) : (s.removeRows ids).TokensOk settings := by
  have hrow (r : Session δ) (hr : s.RowOk r) : (s.removeRows ids).RowOk r :=
    ⟨hr.minted, hr.lastUsed, hr.unused, hr.delivered, hr.previous⟩
  refine ⟨h.owner, fun r hr => hrow r (h.rows r (List.mem_of_mem_filter hr)), h.log,
    fun q job hq => ?_⟩
  have hok := h.job q job hq
  have hpending {record : Session δ} {presented : δ} {date : Nat}
      (hid : ownSession job = some record.id)
      (hp : s.Pending settings record presented date) :
      (s.removeRows ids).Pending settings record presented date := by
    obtain ⟨hmade, hunseen, hdate, old, hold, hrest⟩ := hp
    have hlock := lock_of_ownSession (hinv.job q job hq) hid
    refine ⟨hmade, ⟨fun r hr => hunseen.rows r (List.mem_of_mem_filter hr), hunseen.rotations⟩,
      hdate, old, ?_, hrest⟩
    rw [row_removeRows, if_neg fun hmem => hids _ hmem _ hlock rfl, hold]
  cases job with
  | creating record => exact ⟨hrow record hok.1, hok.2⟩
  | created record access => exact ⟨hrow record hok.1, hok.2⟩
  | rotating record presented date stage => exact hpending rfl hok
  | issuing record presented date => exact hpending rfl hok
  | issued record presented date access => exact hpending rfl hok
  | revoking date ids todo held => trivial
  | cleaning ids stage => trivial
  | undoing access => trivial

/-! ## One command -/

/-- The own job changes, and Redis. -/
theorem TokensOk.goOn (h : s.TokensOk settings) (s₁ : Server δ) (hext : Extends s s₁)
    (hminted : s₁.minted = s.minted) (hjobs : s₁.jobs = s.jobs) {j : Option (Job δ)}
    (hjob : ∀ job, j = some job → s.TokenJobOk settings job) :
    (s₁.setJob p j).TokensOk settings :=
  h.extends s₁ hext hjobs (hminted ▸ h.owner) fun job hj => hext.tokenJobOk (hjob job hj)

omit [DecidableEq δ] in
theorem extends_same (hnow : s'.now = s.now) (hsessions : s'.sessions = s.sessions)
    (hrotations : s'.rotations = s.rotations) (hminted : s'.minted = s.minted) : Extends s s' :=
  ⟨Nat.le_of_eq hnow.symm, hsessions, hrotations, fun _ h => hminted ▸ h⟩

/-- A new token belongs to one session, and nothing refers to it. -/
theorem TokensOk.mint (h : s.TokensOk settings) {new : δ} (hfresh : ∀ m ∈ s.minted, m.1 ≠ new)
    (id : String) :
    (∀ d a b, (d, a) ∈ (new, id) :: s.minted → (d, b) ∈ (new, id) :: s.minted → a = b) ∧
      s.Unseen new := by
  refine ⟨fun d a b ha hb => ?_, fun r hr => ⟨?_, fun hprevious => ?_⟩, fun e he => ⟨?_, ?_⟩⟩
  · rcases List.mem_cons.mp ha with ha | ha <;> rcases List.mem_cons.mp hb with hb | hb
    · rw [(Prod.mk.inj ha).2, (Prod.mk.inj hb).2]
    · exact absurd (Prod.mk.inj ha).1 (hfresh _ hb)
    · exact absurd (Prod.mk.inj hb).1 (hfresh _ ha)
    · exact h.owner d a b ha hb
  · exact hfresh _ (h.rows r hr).minted
  · exact hfresh _ ((h.rows r hr).previous _ hprevious).1 rfl
  · exact hfresh _ (h.log e he).1
  · exact hfresh _ (h.log e he).2.1

theorem rowOk_newSession (hmade : (record.refreshTokenHash, record.id) ∈ s'.minted)
    (hlast : record.lastUsedAt ≤ s'.now) (hnone : record.previousTokenHash = none)
    (hlog : ∀ e ∈ s'.rotations, e.presented ≠ record.refreshTokenHash ∧
      e.issued ≠ record.refreshTokenHash) : s'.RowOk record where
  minted := hmade
  lastUsed := hlast
  unused := fun e he => (hlog e he).1
  delivered := fun e he hissued => absurd hissued (hlog e he).2
  previous := fun d hd => by cases hnone.symm.trans hd

theorem TokensOk.createSession (h : s.TokensOk settings) {sessionId random : String}
    {user : UserRef} {isLocal : Bool}
    (hlegal : Legal digest s (.createSession p sessionId random user isLocal))
    (hstep : createSession digest settings s p sessionId random user isLocal = some s') :
    s'.TokensOk settings := by
  rw [Server.createSession] at hstep
  split at hstep
  · exact Option.some.inj hstep ▸ h
  · split at hstep
    · rw [← Option.some.inj hstep]
      obtain ⟨howner, hunseen⟩ := h.mint hlegal.2 sessionId
      have hext : Extends s
          ((s.lock p sessionId).mint (digest (newRefreshToken random)) sessionId) :=
        ⟨Nat.le_refl _, rfl, rfl, fun _ => List.mem_cons_of_mem _⟩
      refine h.extends _ hext rfl howner fun job hjob => ?_
      rw [← Option.some.inj hjob]
      exact ⟨rowOk_newSession List.mem_cons_self (Nat.le_refl _) rfl hunseen.rotations, rfl⟩
    · cases hstep

theorem rowOfToken_names {hash : δ} (h : s.rowOfToken hash = some record) :
    record.refreshTokenHash = hash ∨ record.previousTokenHash = some hash := by
  have hfound := List.find?_some h
  rwa [decide_eq_true_eq] at hfound

theorem rotatedRow_refreshTokenHash {old : Session δ} {presented new : δ} {now : Nat} :
    (rotatedRow settings old presented new now).refreshTokenHash = new := by
  rw [rotatedRow]
  split <;> rfl

theorem TokensOk.rotateRefreshToken (h : s.TokensOk settings) (hinv : s.Inv settings)
    {refreshToken random : String}
    (hlegal : Legal digest s (.rotateRefreshToken p refreshToken random))
    (hstep : rotateRefreshToken digest settings s p refreshToken random = some s') :
    s'.TokensOk settings := by
  rw [Server.rotateRefreshToken] at hstep
  dsimp only at hstep
  split at hstep
  · exact Option.some.inj hstep ▸ h
  · split at hstep
    · exact Option.some.inj hstep ▸ h
    · rename_i record hrecord
      split at hstep
      · split at hstep
        · exact Option.some.inj hstep ▸ h
        · rename_i late _
          rw [← Option.some.inj hstep]
          refine h.goOn (s.lock p late.id) (extends_same rfl rfl rfl rfl) rfl rfl fun _ hsame => ?_
          cases hsame
          trivial
        · rename_i rotated hrotated
          obtain ⟨old, hold, -, -, -, -, rfl⟩ := decideRotation_eq_rotated hrotated
          obtain rfl := Option.some.inj hold
          rw [← Option.some.inj hstep, rotatedRow_id]
          obtain ⟨howner, hunseen⟩ := h.mint hlegal record.id
          have hext : Extends s
              ((s.lock p record.id).mint (digest (newRefreshToken random)) record.id) :=
            ⟨Nat.le_refl _, rfl, rfl, fun _ => List.mem_cons_of_mem _⟩
          refine h.extends _ hext rfl howner fun job hjob => ?_
          rw [← Option.some.inj hjob]
          refine ⟨?_, ?_, Nat.le_refl _, record, ?_, (h.rows _ ?_).lastUsed,
            rowOfToken_names hrecord, ?_⟩
          · rw [rotatedRow_refreshTokenHash, rotatedRow_id]
            exact List.mem_cons_self
          · rw [rotatedRow_refreshTokenHash]
            exact ⟨hunseen.rows, hunseen.rotations⟩
          · rw [rotatedRow_id]
            exact row_of_find hinv.table.ids hrecord
          · exact List.mem_of_find?_eq_some hrecord
          · rw [rotatedRow_refreshTokenHash]
      · cases hstep

theorem TokensOk.advance (h : s.TokensOk settings) (hinv : s.Inv settings) {e : AuthEvent}
    {job : Job δ} (hown : s.jobs p = some job)
    (hstep : advance digest settings s p e job = some s') :
    (s'.recorded e job).TokensOk settings := by
  have hjob := h.job p job hown
  have hjobOk := hinv.job p job hown
  have hnone (s₁ : Server δ) (hnow : s₁.now = s.now) (hsessions : s₁.sessions = s.sessions)
      (hrotations : s₁.rotations = s.rotations) (hminted : s₁.minted = s.minted)
      (hjobs : s₁.jobs = s.jobs) {j : Option (Job δ)}
      (hj : ∀ job, j = some job → ∀ s₁ : Server δ, s₁.TokenJobOk settings job) :
      (s₁.setJob p j).TokensOk settings :=
    h.goOn s₁ (extends_same hnow hsessions hrotations hminted) hminted hjobs
      fun job hsame => hj job hsame s
  have hkeep (s₁ : Server δ) (hnow : s₁.now = s.now) (hsessions : s₁.sessions = s.sessions)
      (hrotations : s₁.rotations = s.rotations) (hminted : s₁.minted = s.minted)
      (hjobs : s₁.jobs = s.jobs) {job' : Job δ} (hj : s.TokenJobOk settings job') :
      (s₁.setJob p (some job')).TokensOk settings :=
    h.goOn s₁ (extends_same hnow hsessions hrotations hminted) hminted hjobs
      fun job hsame => Option.some.inj hsame ▸ hj
  have hcleaned (ids : List String) :
      ∀ job, cleaned ids = some job → ∀ s₁ : Server δ, s₁.TokenJobOk settings job := by
    intro job hsame s₁
    rw [cleaned] at hsame
    split at hsame
    · cases hsame
    · rw [← Option.some.inj hsame]
      trivial
  unfold Server.advance at hstep
  split at hstep
  · split at hstep
    · rw [← Option.some.inj hstep]
      exact hkeep s rfl rfl rfl rfl rfl trivial
    · split at hstep
      · rw [← Option.some.inj hstep]
        exact hkeep (s.lock p _) rfl rfl rfl rfl rfl trivial
      · cases hstep
  · rw [← Option.some.inj hstep]
    exact hkeep s rfl rfl rfl rfl rfl hjob
  · rw [← Option.some.inj hstep]
    exact hkeep s rfl rfl rfl rfl rfl trivial
  · rw [← Option.some.inj hstep]
    exact hkeep (s.dropTokens _) rfl rfl rfl rfl rfl hjob
  · rw [← Option.some.inj hstep]
    exact hkeep (s.dropTokens _) rfl rfl rfl rfl rfl trivial
  · rw [← Option.some.inj hstep]
    exact hkeep (s.dropList _) rfl rfl rfl rfl rfl hjob
  · rw [← Option.some.inj hstep]
    exact hnone (s.dropList _) rfl rfl rfl rfl rfl (hcleaned _)
  · rw [← Option.some.inj hstep]
    exact hkeep (issueAccess settings s _ _) rfl rfl rfl rfl rfl hjob
  · rw [← Option.some.inj hstep]
    exact hkeep (issueAccess settings s _ _) rfl rfl rfl rfl rfl hjob
  · rw [← Option.some.inj hstep]
    exact h.inserted hinv hjobOk hjob.1 fun _ hsame => by cases hsame
  · rw [← Option.some.inj hstep]
    exact h.written hinv hjobOk hjob fun _ hsame => by cases hsame
  · rw [← Option.some.inj hstep]
    exact h.revoked hinv hjobOk.1 (hcleaned _)
  · rename_i applied record access
    rw [← Option.some.inj hstep]
    cases applied with
    | true =>
      exact h.inserted hinv hjobOk hjob.1 fun _ hsame => by
        cases hsame
        exact fun _ => trivial
    | false => exact hkeep (s.release p) rfl rfl rfl rfl rfl trivial
  · rename_i applied record presented date access
    rw [← Option.some.inj hstep]
    cases applied with
    | true =>
      exact h.written hinv hjobOk hjob fun _ hsame => by
        cases hsame
        exact fun _ => trivial
    | false => exact hkeep (s.release p) rfl rfl rfl rfl rfl trivial
  · rename_i applied date ids held
    rw [← Option.some.inj hstep]
    cases applied with
    | true => exact h.revoked hinv hjobOk.1 fun _ hsame => by cases hsame
    | false => exact hnone (s.release p) rfl rfl rfl rfl rfl fun _ hsame => by cases hsame
  · rw [← Option.some.inj hstep]
    exact hnone (s.dropTokens _) rfl rfl rfl rfl rfl fun _ hsame => by cases hsame
  · rw [← Option.some.inj hstep]
    exact hnone (s.release p) rfl rfl rfl rfl rfl fun _ hsame => by cases hsame
  · cases hstep

theorem TokensOk.step (h : s.TokensOk settings) (hinv : s.Inv settings) {e : AuthEvent}
    (hlegal : Legal digest s e) (hstep : step digest settings s e = some s') :
    s'.TokensOk settings := by
  have hstart (s₁ : Server δ) (hs₁ : Extends s s₁) (hminted : s₁.minted = s.minted)
      (hjobs : s₁.jobs = s.jobs) {p date : Nat} {ids todo held : List String} :
      (s₁.setJob p (some (.revoking date ids todo held))).TokensOk settings :=
    h.goOn s₁ hs₁ hminted hjobs fun _ hsame => by cases hsame; trivial
  unfold Server.step at hstep
  split at hstep
  · rename_i d
    rw [← Option.some.inj hstep]
    have hext : Extends s { s with now := s.now + d } :=
      ⟨Nat.le_add_right _ _, rfl, rfl, fun _ h => h⟩
    exact ⟨h.owner, fun r hr => hext.rowOk (h.rows r hr), h.log,
      fun q job hq => hext.tokenJobOk (h.job q job hq)⟩
  · split at hstep
    · rename_i ids hids
      rw [← Option.some.inj hstep]
      exact h.removeRows hinv hids
    · cases hstep
  · rename_i hown
    obtain ⟨s₁, hs₁, rfl⟩ := Option.map_eq_some_iff.mp hstep
    exact h.advance hinv hown hs₁
  · exact h.createSession hlegal hstep
  · exact h.rotateRefreshToken hinv hlegal hstep
  · rw [← Option.some.inj hstep, Server.logout]
    split
    · exact hstart s (extends_same rfl rfl rfl rfl) rfl rfl
    · exact h
  · rename_i p sessionId user _
    unfold Server.deleteSession at hstep
    repeat' split at hstep
    · exact Option.some.inj hstep ▸ h
    · rw [← Option.some.inj hstep]
      exact hstart (s.lock p sessionId) (extends_same rfl rfl rfl rfl) rfl rfl
    · cases hstep
    · exact Option.some.inj hstep ▸ h
  · rw [← Option.some.inj hstep]
    exact hstart s (extends_same rfl rfl rfl rfl) rfl rfl
  · cases hstep

theorem Runs.tokensOk {es : List AuthEvent} (hrun : Runs digest settings s es s')
    (hinv : s.Inv settings) (h : s.TokensOk settings) : s'.TokensOk settings :=
  (hrun.invariant (I := fun s₁ => s₁.Inv settings ∧ s₁.TokensOk settings)
    (fun _ _ _ hs₁ hlegal hstep =>
      ⟨(step_moves hs₁.1 hlegal hstep).inv, hs₁.2.step hs₁.1 hlegal hstep⟩) ⟨hinv, h⟩).2

/-- Whatever has been going on, a refresh token that is accepted now and
was exchanged before was exchanged at most a grace period ago, and none of
the tokens that it was exchanged for has been used; and it is itself the
one that the last exchange of its predecessor gave out. -/
theorem refresh_token_rotation {now : Nat} {es : List AuthEvent}
    (hrun : Runs digest settings (init now) es s) {presented new : δ}
    (haccepted : decideRotation settings (s.rowOfToken presented) presented new s.now =
      .rotated record) :
    (∀ e ∈ s.rotations, e.presented = presented →
      s.now ≤ e.date + settings.refreshReuseGraceSeconds * second ∧
        ∀ e' ∈ s.rotations, e'.presented ≠ e.issued) ∧
    ∀ e ∈ s.rotations, e.issued = presented → s.lastRotation e.presented = some e := by
  have htokens := Runs.tokensOk hrun (inv_init now) (tokensOk_init now)
  obtain ⟨old, hold, -, -, -, hgrace, -⟩ := decideRotation_eq_rotated haccepted
  have hok := htokens.rows old (List.mem_of_find?_eq_some hold)
  rcases rowOfToken_names hold with rfl | hprevious
  · exact ⟨fun e he hsame => absurd hsame (hok.unused e he), hok.delivered⟩
  · obtain ⟨-, hdelivered, hused⟩ := hok.previous _ hprevious
    refine ⟨fun e he hsame => ⟨?_, (hused e he hsame).2⟩, hdelivered⟩
    exact Nat.le_trans (hgrace hprevious) (Nat.add_le_add_right (hused e he hsame).1 _)

/-- The token of the login once more, right after its exchange. -/
theorem refresh_token_rotation_reused :
    ∃ s, Runs tokenItself homeSettings (init 0) refreshedSession s ∧
      s.rotations = [⟨"s", "kc1_rt_a", "kc1_rt_b", 5⟩] ∧ s.now ≤ 5 + 60 * second ∧
      ∀ e ∈ s.rotations, e.presented ≠ "kc1_rt_b" := by
  obtain ⟨s, hrun, hs⟩ := @Exec.of_runFrom_map _ _ (step tokenItself homeSettings)
    (Legal tokenItself) _ _
    (fun s => (decideRotation homeSettings (s.rowOfToken "kc1_rt_a") "kc1_rt_a" "kc1_rt_c" s.now,
      s.rotations))
    (.rotated ⟨"s", sessionOwner, "kc1_rt_c", some "kc1_rt_a", 5, 5 + 30 * day, 90 * day, none⟩,
      [⟨"s", "kc1_rt_a", "kc1_rt_b", 5⟩]) (init 0) refreshedSession (by decide +kernel)
  obtain ⟨haccepted, hlog⟩ := Prod.mk.inj hs
  exact ⟨s, hrun, hlog, (refresh_token_rotation hrun haccepted).1 _ (hlog ▸ List.mem_cons_self) rfl⟩

end Server

end Auth

end Kaede
