import Mathlib.Data.List.Nodup
import Mathlib.Logic.Function.Basic
import Kaede.Runs
import Kaede.Shared

/-!
# One-time tokens

`create_one_time_token` and `consume_one_time_token` in `auth/service.py`
keep the links that verify an address, reset a password or change an
address. Both lock the row of the user; a consumption has read the token
before that, and reads it again under the lock. The transaction ends in
the caller, which may add to it: a password reset drops every link of the
account that is left, a changed address the password resets.

`Slots` is what this is for: one slot for each user and purpose, written
by an issue, emptied by a consumption. `Inv.step` says that the commits,
in their order, are a run of it, whatever is interleaved.
-/

namespace Kaede

namespace OneTime

inductive Purpose
  | emailVerify
  | passwordReset
  | emailChange
deriving DecidableEq, Repr

structure OneTimeToken (δ : Type) where
  id : String
  user : UserRef
  purpose : Purpose
  tokenHash : δ
  expiresAt : Nat
  consumedAt : Option Nat
deriving DecidableEq, Repr

/-- The purposes whose open tokens go with the consumption of one: none
for `/verify-email`, all for `/password/reset`, the password resets for
`/email/change/confirm`. -/
def Purpose.alsoDrops : Purpose → Purpose → Bool
  | .emailVerify, _ => false
  | .passwordReset, _ => true
  | .emailChange, other => other = .passwordReset

/-! ## The slots -/

/-- A committed issue or consumption. -/
inductive Entry
  | issued (user : UserRef) (purpose : Purpose) (id : String) (expiresAt : Nat)
  | consumed (user : UserRef) (purpose : Purpose) (id : String) (date : Nat)
deriving DecidableEq, Repr

/-- The open token of each user and purpose, with the instant it expires. -/
abbrev Slots := UserRef → Purpose → Option (String × Nat)

namespace Slots

def empty : Slots := fun _ _ => none

def put (slots : Slots) (user : UserRef) (purpose : Purpose) (slot : String × Nat) : Slots :=
  fun u p => if u = user ∧ p = purpose then some slot else slots u p

/-- The slot and those that go with it. -/
def clear (slots : Slots) (user : UserRef) (purpose : Purpose) : Slots :=
  fun u p => if u = user ∧ (p = purpose ∨ purpose.alsoDrops p) then none else slots u p

def step (slots : Slots) : Entry → Option Slots
  | .issued user purpose id expiresAt => some (slots.put user purpose (id, expiresAt))
  | .consumed user purpose id date =>
      if (slots user purpose).any fun slot => slot.1 = id ∧ date < slot.2 then
        some (slots.clear user purpose)
      else none

/-- The run over a history, the newest entry first. -/
def after : List Entry → Option Slots
  | [] => some empty
  | e :: entries => (after entries).bind fun slots => slots.step e

end Slots

/-- The entry writes or empties the slot. -/
def Entry.Touches (user : UserRef) (purpose : Purpose) : Entry → Prop
  | .issued u p _ _ => u = user ∧ p = purpose
  | .consumed u p _ _ => u = user ∧ (p = purpose ∨ p.alsoDrops purpose = true)

namespace Slots

theorem step_of_not_touches {slots slots' : Slots} {e : Entry} {user : UserRef} {purpose : Purpose}
    (hstep : slots.step e = some slots') (h : ¬ e.Touches user purpose) :
    slots' user purpose = slots user purpose := by
  cases e with
  | issued u p id expiresAt =>
    rw [← Option.some.inj hstep]
    exact if_neg fun hsame => h ⟨hsame.1.symm, hsame.2.symm⟩
  | consumed u p id date =>
    rw [step] at hstep
    split at hstep
    · rw [← Option.some.inj hstep]
      exact if_neg fun hsame => h ⟨hsame.1.symm, hsame.2.imp_left Eq.symm⟩
    · cases hstep

/-- What is in a slot is what was issued last for it, and nothing has
touched it since. -/
theorem eq_some_of_after {history : List Entry} {slots : Slots} (h : after history = some slots)
    {user : UserRef} {purpose : Purpose} {id : String} {expiresAt : Nat}
    (hslot : slots user purpose = some (id, expiresAt)) :
    ∃ since before, history = since ++ .issued user purpose id expiresAt :: before ∧
      ∀ e ∈ since, ¬ e.Touches user purpose := by
  induction history generalizing slots with
  | nil => cases (Option.some.inj h).symm ▸ hslot
  | cons e history ih =>
    obtain ⟨previous, hprevious, hstep⟩ := Option.bind_eq_some_iff.mp h
    by_cases htouches : e.Touches user purpose
    · -- an entry that touches the slot and leaves it full is an issue
      refine ⟨[], history, ?_, fun _ he => absurd he List.not_mem_nil⟩
      cases e with
      | issued u p id' expiresAt' =>
        obtain ⟨rfl, rfl⟩ := htouches
        rw [← Option.some.inj hstep, put, if_pos ⟨rfl, rfl⟩] at hslot
        obtain ⟨rfl, rfl⟩ := Prod.mk.inj (Option.some.inj hslot)
        rfl
      | consumed u p id' date =>
        rw [step] at hstep
        split at hstep
        · obtain ⟨rfl, hpurpose⟩ := htouches
          rw [← Option.some.inj hstep, clear, if_pos ⟨rfl, hpurpose.imp_left Eq.symm⟩] at hslot
          cases hslot
        · cases hstep
    · obtain ⟨since, before, rfl, hsince⟩ :=
        ih hprevious ((step_of_not_touches hstep htouches) ▸ hslot)
      exact ⟨e :: since, before, rfl, List.forall_mem_cons.mpr ⟨htouches, hsince⟩⟩

/-- A consumption is of the token that was issued last, while it is valid
and before anything else has touched the slot. -/
theorem consumed_of_after {later earlier : List Entry} {slots : Slots} {user : UserRef}
    {purpose : Purpose} {id : String} {date : Nat}
    (h : after (later ++ .consumed user purpose id date :: earlier) = some slots) :
    ∃ since before expiresAt, earlier = since ++ .issued user purpose id expiresAt :: before ∧
      date < expiresAt ∧ ∀ e ∈ since, ¬ e.Touches user purpose := by
  induction later generalizing slots with
  | nil =>
    obtain ⟨previous, hprevious, hstep⟩ := Option.bind_eq_some_iff.mp h
    rw [step] at hstep
    split at hstep
    · rename_i hopen
      cases hslot : previous user purpose with
      | none => simp [hslot] at hopen
      | some slot =>
        rw [hslot, Option.any_some, decide_eq_true_eq] at hopen
        obtain ⟨since, before, hearlier, hsince⟩ := eq_some_of_after hprevious
          (hslot.trans (congrArg some (Prod.ext hopen.1 rfl)))
        exact ⟨since, before, slot.2, hearlier, hopen.2, hsince⟩
    · cases hstep
  | cons e later ih =>
    obtain ⟨previous, hprevious, -⟩ := Option.bind_eq_some_iff.mp h
    exact ih hprevious

end Slots

/-! ## The tables -/

/-- What a request still has to do, inside its transaction. -/
inductive TokenJob (δ : Type)
  | issuing (token : OneTimeToken δ)
  | found (user : UserRef) (hash : δ) (purpose : Purpose)
  | consuming (token : OneTimeToken δ) (date : Nat)
deriving DecidableEq, Repr

/-- `history` is read by no request: it has the commits, the newest first. -/
structure TokenTables (δ : Type) where
  now : Nat
  users : List UserRef
  tokens : List (OneTimeToken δ)
  userLocks : List (UserRef × Nat)
  tokenLocks : List (String × Nat)
  jobs : Nat → Option (TokenJob δ)
  history : List Entry

inductive TokenEvent
  | elapse (d : Nat)
  | addUser (user : UserRef)
  | removeUser (user : UserRef)
  | dropTokens (ids : List String)
  | create (p : Nat) (user : UserRef) (purpose : Purpose) (id random : String) (expiresIn : Nat)
  | consume (p : Nat) (raw : String) (purpose : Purpose)
  | lockUser (p : Nat)
  | commit (p : Nat)
  | rollback (p : Nat)
deriving DecidableEq, Repr

namespace TokenTables

variable {δ : Type}

def UserUnlocked (s : TokenTables δ) (user : UserRef) : Prop := ∀ l ∈ s.userLocks, l.1 ≠ user

def TokenUnlocked (s : TokenTables δ) (id : String) : Prop := ∀ l ∈ s.tokenLocks, l.1 ≠ id

instance (s : TokenTables δ) (user : UserRef) : Decidable (s.UserUnlocked user) :=
  inferInstanceAs (Decidable (∀ l ∈ s.userLocks, l.1 ≠ user))

instance (s : TokenTables δ) (id : String) : Decidable (s.TokenUnlocked id) :=
  inferInstanceAs (Decidable (∀ l ∈ s.tokenLocks, l.1 ≠ id))

def setJob (s : TokenTables δ) (p : Nat) (job : Option (TokenJob δ)) : TokenTables δ :=
  { s with jobs := Function.update s.jobs p job }

/-- The transaction of `p` ends. -/
def release (s : TokenTables δ) (p : Nat) : TokenTables δ :=
  { s with
    userLocks := s.userLocks.filter fun l => l.2 ≠ p
    tokenLocks := s.tokenLocks.filter fun l => l.2 ≠ p }

def lockUser (s : TokenTables δ) (p : Nat) (user : UserRef) : TokenTables δ :=
  { s with userLocks := (user, p) :: s.userLocks }

def lockToken (s : TokenTables δ) (p : Nat) (id : String) : TokenTables δ :=
  { s with tokenLocks := (id, p) :: s.tokenLocks }

def byHash [DecidableEq δ] (s : TokenTables δ) (hash : δ) (purpose : Purpose) :
    Option (OneTimeToken δ) :=
  s.tokens.find? fun t => t.tokenHash = hash ∧ t.purpose = purpose

/-- The open tokens that an issue deletes. -/
def Superseded (user : UserRef) (purpose : Purpose) (t : OneTimeToken δ) : Prop :=
  t.user = user ∧ t.purpose = purpose ∧ t.consumedAt = none

instance (user : UserRef) (purpose : Purpose) (t : OneTimeToken δ) :
    Decidable (Superseded user purpose t) := inferInstanceAs (Decidable (_ ∧ _))

/-- The open tokens that a consumption deletes beside its own. -/
def Dropped (token t : OneTimeToken δ) : Prop :=
  t.user = token.user ∧ token.purpose.alsoDrops t.purpose = true ∧ t.consumedAt = none

instance (token t : OneTimeToken δ) : Decidable (Dropped token t) :=
  inferInstanceAs (Decidable (_ ∧ _))

def newToken (user : UserRef) (purpose : Purpose) (id : String) (hash : δ) (expiresAt : Nat) :
    OneTimeToken δ where
  id := id
  user := user
  purpose := purpose
  tokenHash := hash
  expiresAt := expiresAt
  consumedAt := none

/-- What a commit writes. -/
def applied (s : TokenTables δ) : TokenJob δ → TokenTables δ
  | .issuing token =>
      { s with
        tokens := token :: s.tokens.filter fun t => ¬ Superseded token.user token.purpose t }
  | .found .. => s
  | .consuming token date =>
      let tokens := s.tokens.map fun t =>
        if t.id = token.id then { t with consumedAt := some date } else t
      { s with tokens := tokens.filter fun t => ¬ Dropped token t }

/-- The history with the commit of a job. -/
def recorded (s : TokenTables δ) : TokenJob δ → TokenTables δ
  | .issuing token =>
      { s with
        history := .issued token.user token.purpose token.id token.expiresAt :: s.history }
  | .found .. => s
  | .consuming token date =>
      { s with history := .consumed token.user token.purpose token.id date :: s.history }

/-- The second read of a consumption, which locks the token as well. -/
def recheck [DecidableEq δ] (s : TokenTables δ) (p : Nat) (user : UserRef) (hash : δ)
    (purpose : Purpose) : Option (TokenTables δ) :=
  match s.byHash hash purpose with
  | none => some (s.setJob p none)
  | some token =>
      if ¬ s.TokenUnlocked token.id then none
      else if token.consumedAt ≠ none ∨ token.expiresAt ≤ s.now ∨ token.user ≠ user then
        some (s.setJob p none)
      else some (((s.lockUser p user).lockToken p token.id).setJob p
        (some (.consuming token s.now)))

/-- `none` when the event is not enabled: the process is busy with
something else, or it waits for a lock. That ids and hashes are unique in
the table is not needed, and not checked. -/
def step [DecidableEq δ] (digest : String → δ) (s : TokenTables δ) :
    TokenEvent → Option (TokenTables δ)
  | .elapse d => some { s with now := s.now + d }
  | .addUser user => some { s with users := user :: s.users }
  | .removeUser user =>
      let tokens := s.tokens.filter fun t => t.user = user
      if s.UserUnlocked user ∧ ∀ t ∈ tokens, s.TokenUnlocked t.id then
        some { s with
          users := s.users.filter (· ≠ user)
          tokens := s.tokens.filter fun t => t.user ≠ user }
      else none
  -- the nightly cleanup of what has expired, or the erasure of an account
  | .dropTokens ids =>
      if ∀ id ∈ ids, s.TokenUnlocked id then
        some { s with tokens := s.tokens.filter fun t => t.id ∉ ids }
      else none
  | .create p user purpose id random expiresIn =>
      if s.jobs p ≠ none then none
      else if user ∉ s.users then some s
      else if s.UserUnlocked user then
        let token := newToken user purpose id (digest ("kc1_ot_" ++ random)) (s.now + expiresIn)
        some ((s.lockUser p user).setJob p (some (.issuing token)))
      else none
  | .consume p raw purpose =>
      if s.jobs p ≠ none then none
      else match s.byHash (digest raw) purpose with
        | none => some s
        | some candidate => some (s.setJob p (some (.found candidate.user (digest raw) purpose)))
  | .lockUser p =>
      match s.jobs p with
      | some (.found user hash purpose) =>
          if user ∉ s.users then some (s.setJob p none)
          else if s.UserUnlocked user then s.recheck p user hash purpose
          else none
      | _ => none
  | .commit p =>
      match s.jobs p with
      | some (.issuing token) =>
          some ((((s.applied (.issuing token)).release p).setJob p none).recorded (.issuing token))
      | some (.consuming token date) =>
          some ((((s.applied (.consuming token date)).release p).setJob p none).recorded
            (.consuming token date))
      | _ => none
  | .rollback p =>
      if (s.jobs p).isNone then none else some ((s.release p).setJob p none)

/-- No user and no token yet. -/
def init (now : Nat) : TokenTables δ where
  now := now
  users := []
  tokens := []
  userLocks := []
  tokenLocks := []
  jobs := fun _ => none
  history := []

/-! ## The commits are a run of the slots -/

variable {s s' : TokenTables δ} {p q : Nat}

/-- What a request has locked and read. -/
def JobOk (s : TokenTables δ) (p : Nat) : TokenJob δ → Prop
  | .issuing token => (token.user, p) ∈ s.userLocks ∧ token.consumedAt = none
  | .found .. => True
  | .consuming token date => (token.user, p) ∈ s.userLocks ∧ (token.id, p) ∈ s.tokenLocks ∧
      token ∈ s.tokens ∧ token.consumedAt = none ∧ date < token.expiresAt

structure Inv (s : TokenTables δ) : Prop where
  userLocks : ∀ user p q, (user, p) ∈ s.userLocks → (user, q) ∈ s.userLocks → p = q
  tokenLocks : ∀ id p q, (id, p) ∈ s.tokenLocks → (id, q) ∈ s.tokenLocks → p = q
  job : ∀ p job, s.jobs p = some job → s.JobOk p job
  slots : ∃ slots, Slots.after s.history = some slots ∧
    ∀ t ∈ s.tokens, t.consumedAt = none → slots t.user t.purpose = some (t.id, t.expiresAt)

theorem inv_init (now : Nat) : (init now : TokenTables δ).Inv where
  userLocks := fun _ _ _ h => absurd h List.not_mem_nil
  tokenLocks := fun _ _ _ h => absurd h List.not_mem_nil
  job := fun _ _ h => (nomatch h)
  slots := ⟨Slots.empty, rfl, fun _ h => absurd h List.not_mem_nil⟩

theorem jobs_setJob {j : Option (TokenJob δ)} :
    (s.setJob p j).jobs q = if q = p then j else s.jobs q :=
  Function.update_apply s.jobs p j q

/-- What the steps of the others leave to the request `q`. -/
structure Frame (s s' : TokenTables δ) (q : Nat) : Prop where
  userLocks : ∀ user, (user, q) ∈ s.userLocks → (user, q) ∈ s'.userLocks
  tokenLocks : ∀ id, (id, q) ∈ s.tokenLocks → (id, q) ∈ s'.tokenLocks
  tokens : ∀ t ∈ s.tokens, (t.user, q) ∈ s.userLocks → (t.id, q) ∈ s.tokenLocks → t ∈ s'.tokens

theorem Frame.jobOk (h : Frame s s' q) {job : TokenJob δ} (hjob : s.JobOk q job) :
    s'.JobOk q job := by
  cases job with
  | issuing token => exact ⟨h.userLocks _ hjob.1, hjob.2⟩
  | found user hash purpose => trivial
  | consuming token date =>
    obtain ⟨huser, htoken, hmem, hrest⟩ := hjob
    exact ⟨h.userLocks _ huser, h.tokenLocks _ htoken, h.tokens token hmem huser htoken, hrest⟩

theorem Frame.refl (s : TokenTables δ) (q : Nat) : Frame s s q :=
  ⟨fun _ h => h, fun _ h => h, fun _ h _ _ => h⟩

/-- A step of `p`: it changes the tables, and then its own job. -/
theorem Inv.moves (h : s.Inv) (s' : TokenTables δ) (hjobs : s'.jobs = s.jobs)
    (huserLocks : ∀ user p q, (user, p) ∈ s'.userLocks → (user, q) ∈ s'.userLocks → p = q)
    (htokenLocks : ∀ id p q, (id, p) ∈ s'.tokenLocks → (id, q) ∈ s'.tokenLocks → p = q)
    (hslots : ∃ slots, Slots.after s'.history = some slots ∧
      ∀ t ∈ s'.tokens, t.consumedAt = none → slots t.user t.purpose = some (t.id, t.expiresAt))
    (hframe : ∀ q, q ≠ p → Frame s s' q) {j : Option (TokenJob δ)}
    (hjob : ∀ job, j = some job → s'.JobOk p job) : (s'.setJob p j).Inv where
  userLocks := huserLocks
  tokenLocks := htokenLocks
  job := fun q job hq => by
    have hsame : Frame s' (s'.setJob p j) q := ⟨fun _ h => h, fun _ h => h, fun _ h _ _ => h⟩
    rw [jobs_setJob, hjobs] at hq
    split at hq
    · rename_i hqp
      exact hsame.jobOk (hqp ▸ hjob job hq)
    · rename_i hqp
      exact hsame.jobOk ((hframe q hqp).jobOk (h.job q job hq))
  slots := hslots

theorem lock_once {α : Type} {locks : List (α × Nat)} {a : α}
    (h : ∀ b p q, (b, p) ∈ locks → (b, q) ∈ locks → p = q) (hfree : ∀ l ∈ locks, l.1 ≠ a) :
    ∀ b q r, (b, q) ∈ (a, p) :: locks → (b, r) ∈ (a, p) :: locks → q = r := by
  intro b q r hq hr
  rcases List.mem_cons.mp hq with hq | hq <;> rcases List.mem_cons.mp hr with hr | hr
  · rw [(Prod.mk.inj hq).2, (Prod.mk.inj hr).2]
  · exact absurd (Prod.mk.inj hq).1 (hfree _ hr)
  · exact absurd (Prod.mk.inj hr).1 (hfree _ hq)
  · exact h b q r hq hr

/-- The own job changes, and nothing else. -/
theorem Inv.goOn (h : s.Inv) {j : Option (TokenJob δ)}
    (hjob : ∀ job, j = some job → s.JobOk p job) : (s.setJob p j).Inv :=
  h.moves s rfl h.userLocks h.tokenLocks h.slots (fun q _ => Frame.refl s q) hjob

/-- The transaction ends with `s₁` in the database. -/
theorem Inv.ended (h : s.Inv) (s₁ : TokenTables δ) (hjobs : s₁.jobs = s.jobs)
    (huserLocks : s₁.userLocks = s.userLocks) (htokenLocks : s₁.tokenLocks = s.tokenLocks)
    (hslots : ∃ slots, Slots.after s₁.history = some slots ∧
      ∀ t ∈ s₁.tokens, t.consumedAt = none → slots t.user t.purpose = some (t.id, t.expiresAt))
    (htokens : ∀ q, q ≠ p → ∀ t ∈ s.tokens, (t.user, q) ∈ s.userLocks →
      (t.id, q) ∈ s.tokenLocks → t ∈ s₁.tokens) : ((s₁.release p).setJob p none).Inv := by
  refine h.moves (s₁.release p) hjobs (fun user a b ha hb => ?_) (fun id a b ha hb => ?_) hslots
    (fun q hq => ⟨fun user hu => ?_, fun id hid => ?_, htokens q hq⟩) fun _ hsame => by cases hsame
  · exact h.userLocks user a b (huserLocks ▸ List.mem_of_mem_filter ha)
      (huserLocks ▸ List.mem_of_mem_filter hb)
  · exact h.tokenLocks id a b (htokenLocks ▸ List.mem_of_mem_filter ha)
      (htokenLocks ▸ List.mem_of_mem_filter hb)
  · exact List.mem_filter.mpr ⟨huserLocks ▸ hu, decide_eq_true hq⟩
  · exact List.mem_filter.mpr ⟨htokenLocks ▸ hid, decide_eq_true hq⟩

theorem Inv.issued (h : s.Inv) {token : OneTimeToken δ} (hlock : (token.user, p) ∈ s.userLocks)
    (hopen : token.consumedAt = none) :
    ((((s.applied (.issuing token)).release p).setJob p none).recorded (.issuing token)).Inv := by
  obtain ⟨slots, hafter, hslots⟩ := h.slots
  refine h.ended ((s.applied (.issuing token)).recorded (.issuing token)) rfl rfl rfl
    ⟨slots.put token.user token.purpose (token.id, token.expiresAt), ?_, fun t ht htopen => ?_⟩
    fun q hq t ht huser _ => ?_
  · rw [recorded, applied, Slots.after, hafter]
    rfl
  · rcases List.mem_cons.mp ht with rfl | ht
    · exact if_pos ⟨rfl, rfl⟩
    · obtain ⟨hmem, hkept⟩ := List.mem_filter.mp ht
      have hkept := of_decide_eq_true hkept
      exact (if_neg fun hsame => hkept ⟨hsame.1, hsame.2, htopen⟩).trans (hslots t hmem htopen)
  · refine List.mem_cons_of_mem _ (List.mem_filter.mpr ⟨ht, decide_eq_true fun hsuperseded => ?_⟩)
    exact hq (h.userLocks _ q p huser (hsuperseded.1 ▸ hlock))

theorem Inv.consumed (h : s.Inv) {token : OneTimeToken δ} {date : Nat}
    (hjob : s.JobOk p (.consuming token date)) :
    ((((s.applied (.consuming token date)).release p).setJob p none).recorded
      (.consuming token date)).Inv := by
  obtain ⟨hlock, htokenLock, hmem, hopen, hdate⟩ := hjob
  obtain ⟨slots, hafter, hslots⟩ := h.slots
  have hslot := hslots token hmem hopen
  refine h.ended ((s.applied (.consuming token date)).recorded (.consuming token date)) rfl rfl rfl
    ⟨slots.clear token.user token.purpose, ?_, fun t ht htopen => ?_⟩ fun q hq t ht huser hid => ?_
  · rw [recorded, applied, Slots.after, hafter, Option.bind_some, Slots.step, hslot,
      Option.any_some, if_pos (decide_eq_true ⟨rfl, hdate⟩)]
  · obtain ⟨hmapped, hkept⟩ := List.mem_filter.mp ht
    obtain ⟨old, hold, rfl⟩ := List.mem_map.mp hmapped
    have hkept := of_decide_eq_true hkept
    split at htopen
    · cases htopen
    · rename_i hne
      rw [if_neg hne] at hkept ⊢
      have hother := hslots old hold htopen
      refine (if_neg ?_).trans hother
      rintro ⟨huser, hpurpose | hdrops⟩
      · -- one slot, one token
        rw [huser, hpurpose, hslot] at hother
        exact hne (Prod.mk.inj (Option.some.inj hother)).1.symm
      · exact hkept ⟨huser, hdrops, htopen⟩
  · have hne : t.id ≠ token.id := fun hsame =>
      hq (h.tokenLocks _ q p hid (hsame ▸ htokenLock))
    refine List.mem_filter.mpr ⟨List.mem_map.mpr ⟨t, ht, if_neg hne⟩, decide_eq_true ?_⟩
    exact fun hdropped => hq (h.userLocks _ q p huser (hdropped.1 ▸ hlock))

/-- Tokens that nobody has locked go. -/
theorem Inv.dropped (h : s.Inv) {kept : OneTimeToken δ → Bool} {users : List UserRef}
    (hkept : ∀ t ∈ s.tokens, ∀ q, (t.user, q) ∈ s.userLocks → (t.id, q) ∈ s.tokenLocks →
      kept t = true) : ({ s with users := users, tokens := s.tokens.filter kept }).Inv := by
  obtain ⟨slots, hafter, hslots⟩ := h.slots
  refine ⟨h.userLocks, h.tokenLocks, fun q job hq => ?_,
    slots, hafter, fun t ht => hslots t (List.mem_of_mem_filter ht)⟩
  have hframe : Frame s { s with users := users, tokens := s.tokens.filter kept } q :=
    ⟨fun _ h => h, fun _ h => h, fun t ht huser hid =>
      List.mem_filter.mpr ⟨ht, hkept t ht q huser hid⟩⟩
  exact hframe.jobOk (h.job q job hq)

theorem Inv.lockedUser (h : s.Inv) {user : UserRef} (hfree : s.UserUnlocked user)
    {j : Option (TokenJob δ)} (hjob : ∀ job, j = some job → (s.lockUser p user).JobOk p job) :
    ((s.lockUser p user).setJob p j).Inv :=
  h.moves (s.lockUser p user) rfl (lock_once h.userLocks hfree) h.tokenLocks h.slots
    (fun _ _ => ⟨fun _ hu => List.mem_cons_of_mem _ hu, fun _ hid => hid, fun _ ht _ _ => ht⟩) hjob

theorem Inv.lockedBoth (h : s.Inv) {user : UserRef} {id : String} (hfree : s.UserUnlocked user)
    (hidFree : s.TokenUnlocked id) {j : Option (TokenJob δ)}
    (hjob : ∀ job, j = some job → ((s.lockUser p user).lockToken p id).JobOk p job) :
    (((s.lockUser p user).lockToken p id).setJob p j).Inv :=
  h.moves ((s.lockUser p user).lockToken p id) rfl (lock_once h.userLocks hfree)
    (lock_once h.tokenLocks hidFree) h.slots
    (fun _ _ => ⟨fun _ hu => List.mem_cons_of_mem _ hu, fun _ hid => List.mem_cons_of_mem _ hid,
      fun _ ht _ _ => ht⟩) hjob

variable [DecidableEq δ] {digest : String → δ}

/-- The token is read under the lock of its user: what is checked then
holds until the commit. -/
theorem Inv.rechecked (h : s.Inv) {user : UserRef} {hash : δ} {purpose : Purpose}
    (hfree : s.UserUnlocked user) (hstep : s.recheck p user hash purpose = some s') : s'.Inv := by
  rw [recheck] at hstep
  split at hstep
  · rw [← Option.some.inj hstep]
    exact h.goOn fun _ hsame => by cases hsame
  · rename_i token htoken
    split at hstep
    · cases hstep
    rename_i hidFree
    split at hstep
    · rw [← Option.some.inj hstep]
      exact h.goOn fun _ hsame => by cases hsame
    · rename_i hvalid
      rw [not_or, not_or, not_not, not_not, Nat.not_le] at hvalid
      obtain ⟨hopen, hdate, huser⟩ := hvalid
      rw [← Option.some.inj hstep]
      refine h.lockedBoth hfree (not_not.mp hidFree) fun job hsame => ?_
      rw [← Option.some.inj hsame]
      exact ⟨huser ▸ List.mem_cons_self, List.mem_cons_self, List.mem_of_find?_eq_some htoken,
        hopen, hdate⟩

theorem Inv.step (h : s.Inv) {e : TokenEvent} (hstep : s.step digest e = some s') : s'.Inv := by
  cases e with
  | elapse d =>
    rw [← Option.some.inj hstep]
    exact ⟨h.userLocks, h.tokenLocks, h.job, h.slots⟩
  | addUser user =>
    rw [← Option.some.inj hstep]
    exact ⟨h.userLocks, h.tokenLocks, h.job, h.slots⟩
  | removeUser user =>
    simp only [TokenTables.step] at hstep
    split at hstep
    · rename_i hfree
      rw [← Option.some.inj hstep]
      refine h.dropped fun t _ q huser _ => decide_eq_true ?_
      exact hfree.1 _ huser
    · cases hstep
  | dropTokens ids =>
    simp only [TokenTables.step] at hstep
    split at hstep
    · rename_i hfree
      rw [← Option.some.inj hstep]
      refine h.dropped fun t _ q _ hid => decide_eq_true fun hgone => ?_
      exact hfree t.id hgone _ hid rfl
    · cases hstep
  | create p user purpose id random expiresIn =>
    simp only [TokenTables.step] at hstep
    split at hstep
    · cases hstep
    split at hstep
    · exact Option.some.inj hstep ▸ h
    split at hstep
    · rename_i hfree
      rw [← Option.some.inj hstep]
      refine h.lockedUser hfree fun job hsame => ?_
      rw [← Option.some.inj hsame]
      exact ⟨List.mem_cons_self, rfl⟩
    · cases hstep
  | consume p raw purpose =>
    simp only [TokenTables.step] at hstep
    split at hstep
    · cases hstep
    split at hstep
    · exact Option.some.inj hstep ▸ h
    · rw [← Option.some.inj hstep]
      refine h.goOn fun job hsame => ?_
      rw [← Option.some.inj hsame]
      trivial
  | lockUser p =>
    simp only [TokenTables.step] at hstep
    split at hstep
    · split at hstep
      · rw [← Option.some.inj hstep]
        exact h.goOn fun _ hsame => by cases hsame
      split at hstep
      · rename_i hfree
        exact h.rechecked hfree hstep
      · cases hstep
    · cases hstep
  | commit p =>
    simp only [TokenTables.step] at hstep
    split at hstep
    · rename_i token hjob
      rw [← Option.some.inj hstep]
      exact h.issued (h.job p _ hjob).1 (h.job p _ hjob).2
    · rename_i token date hjob
      rw [← Option.some.inj hstep]
      exact h.consumed (h.job p _ hjob)
    · cases hstep
  | rollback p =>
    simp only [TokenTables.step] at hstep
    split at hstep
    · cases hstep
    · rw [← Option.some.inj hstep]
      exact h.ended s rfl rfl rfl h.slots fun _ _ t ht _ _ => ht

/-- The tables after the events. -/
abbrev Runs (digest : String → δ) (now : Nat) (events : List TokenEvent) (s : TokenTables δ) :
    Prop :=
  Exec (TokenTables.step digest) Always (init now) events s

theorem Inv.of_runs {now : Nat} {events : List TokenEvent} (h : Runs digest now events s) : s.Inv :=
  h.invariant (I := Inv) (fun _ _ _ hI _ hstep => hI.step hstep) (inv_init now)

/-- Whatever is interleaved: a token is consumed at most once, only while
it is valid, and only as long as nothing was issued for the purpose after
it and nothing dropped it; and an account has at most one open token for
a purpose, which is the one issued last. -/
theorem consumed_latest {now : Nat} {events : List TokenEvent} (h : Runs digest now events s) :
    (∀ later earlier user purpose id date,
      s.history = later ++ .consumed user purpose id date :: earlier →
      ∃ since before expiresAt, earlier = since ++ .issued user purpose id expiresAt :: before ∧
        date < expiresAt ∧ ∀ e ∈ since, ¬ e.Touches user purpose) ∧
    ∀ t ∈ s.tokens, t.consumedAt = none →
      ∃ since before, s.history = since ++ .issued t.user t.purpose t.id t.expiresAt :: before ∧
        ∀ e ∈ since, ¬ e.Touches t.user t.purpose := by
  obtain ⟨slots, hafter, hslots⟩ := (Inv.of_runs h).slots
  refine ⟨fun later earlier user purpose id date hhistory => ?_, fun t ht hopen => ?_⟩
  · exact Slots.consumed_of_after (hhistory ▸ hafter)
  · exact Slots.eq_some_of_after hafter (hslots t ht hopen)

def forgetful : UserRef := ⟨7, "home"⟩

/-- The second of two links is used, while the first is tried as well. -/
def resentReset : List TokenEvent :=
  [.addUser forgetful, .create 1 forgetful .passwordReset "first" "a" 60, .commit 1,
    .consume 2 "kc1_ot_a" .passwordReset, .create 1 forgetful .passwordReset "second" "b" 60,
    .commit 1, .consume 3 "kc1_ot_b" .passwordReset, .lockUser 3, .elapse 5, .commit 3, .lockUser 2]

theorem consumed_latest_resent :
    ∃ s, Runs id 0 resentReset s ∧ s.history.length = 3 ∧
      ∃ (since before : List Entry) (expiresAt : Nat),
        s.history.tail = since ++ .issued forgetful .passwordReset "second" expiresAt :: before ∧
          0 < expiresAt ∧ ∀ e ∈ since, ¬ e.Touches forgetful .passwordReset := by
  obtain ⟨s, hrun, hhistory⟩ := @Exec.of_runFrom_map _ _ (step id) Always _ _
    (fun s : TokenTables String => s.history)
    [.consumed forgetful .passwordReset "second" 0, .issued forgetful .passwordReset "second" 60,
      .issued forgetful .passwordReset "first" 60] (init 0) resentReset (by decide +kernel)
  refine ⟨s, hrun, congrArg List.length hhistory, ?_⟩
  rw [hhistory]
  exact (consumed_latest hrun).1 [] _ _ _ _ _ hhistory

end TokenTables

end OneTime

end Kaede
