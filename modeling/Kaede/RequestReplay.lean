import Kaede.Expiring
import Kaede.Requests
import Kaede.Runs
import Kaede.Shared
import Mathlib.Data.Prod.Basic
import Mathlib.Order.Nat

/-!
# Replayed federation requests

`authenticate_federation` in `backend/app/federation/security.py` accepts a
signed request whose timestamp is close to the server's clock and whose
nonce it has not seen. The nonce is kept in a store that expires, so what
the two checks achieve together depends on times: a record must outlive the
window in which the timestamp passes.

Between the timestamp check and the claim of the nonce the handler awaits
the body of the request and perhaps the peer's keys. The two halves are
steps of their own here, and other deliveries come in between.

Requests of protocol version 1 carry no nonce. They are accepted from peers
that have not announced `request-nonce/1`, as often as they arrive.
-/

namespace Kaede

namespace RequestReplay

/-! ## The two checks -/

structure HttpError where
  status : Nat
  code : String
deriving DecidableEq, Repr

/-- A request as its sender signed it. The timestamp is in seconds, and
`none` if it is not a number; `content` is everything else that is signed. -/
structure SignedRequest where
  origin : String
  timestamp : Option Int
  version : Option String
  nonce : Option String
  content : String
deriving DecidableEq, Repr

/-- `REQUEST_NONCE_RE`. -/
def nonceWellFormed (nonce : String) : Prop :=
  22 ≤ nonce.toList.length ∧ nonce.toList.length ≤ 64 ∧
    ∀ c ∈ nonce.toList, c.isAlphanum ∨ c = '_' ∨ c = '-'

instance (nonce : String) : Decidable (nonceWellFormed nonce) :=
  letI : Decidable (∀ c ∈ nonce.toList, c.isAlphanum ∨ c = '_' ∨ c = '-') :=
    List.decidableBAll _ _
  inferInstanceAs (Decidable (_ ∧ _ ∧ _))

/-- `federation_request_nonce`. -/
def federationRequestNonce (r : SignedRequest) : Except HttpError (Option String) :=
  if r.version = some "1" then do
    ensure (r.nonce = none) ⟨400, "KAED_FED_BAD_NONCE"⟩
    .ok none
  else do
    ensure (r.version = some "2") ⟨400, "KAED_FED_UNSUPPORTED_VERSION"⟩
    let nonce ← found r.nonce ⟨400, "KAED_FED_BAD_NONCE"⟩
    ensure (nonceWellFormed nonce) ⟨400, "KAED_FED_BAD_NONCE"⟩
    .ok (some nonce)

/-- `int(time.time())`. -/
def epochSeconds (now : Nat) : Int := (now / second : Nat)

/-- `authenticate_federation` up to the first await. `shape` is the verdict
on the `Authorization` header. -/
def checkTimestamp (skew now : Nat) (shape : Except HttpError Unit) (r : SignedRequest) :
    Except HttpError (Option String) := do
  shape
  let timestamp ← found r.timestamp ⟨401, "KAED_FED_BAD_SIGNATURE"⟩
  ensure (¬ (epochSeconds now - timestamp).natAbs > skew) ⟨401, "KAED_FED_CLOCK_SKEW"⟩
  federationRequestNonce r

/-- `ex` of the nonce record, in seconds. -/
def nonceTtl (skew : Nat) : Nat := skew * 2 + 60

abbrev NonceStore := List (Expiring (String × String) Unit)

/-- `consume_request_nonce`. -/
def consumeRequestNonce (skew now : Nat) (nonces : NonceStore) (origin : String)
    (nonce : Option String) : Except HttpError NonceStore :=
  match nonce with
  | none => .ok nonces
  | some nonce => do
      ensure (Expiring.get nonces (origin, nonce) now = none) ⟨409, "KAED_FED_REPLAYED_REQUEST"⟩
      .ok (Expiring.set nonces (origin, nonce) () (now + nonceTtl skew * second))

/-- What the rest of the handler finds: rate limits, the allow list and the
peer's key before the signature, the schema and the peer's rate after it,
and the body, the hop count and the block list at the end. -/
structure Surroundings where
  admitted : Except HttpError Unit
  /-- The peer has announced `request-nonce/1`. -/
  pinned : Bool
  verified : Bool
  charged : Except HttpError Unit
  concluded : Except HttpError Unit

/-- The checks from the first await to the claim. -/
def checkSignature (nonce : Option String) (e : Surroundings) : Except HttpError Unit := do
  e.admitted
  ensure (¬ (e.pinned = true ∧ nonce = none)) ⟨401, "KAED_FED_NONCE_REQUIRED"⟩
  ensure (e.verified = true) ⟨401, "KAED_FED_BAD_SIGNATURE"⟩
  e.charged

/-- The second half of `authenticate_federation`. A nonce stays claimed if
a later check fails. -/
def claimNonce (skew now : Nat) (nonces : NonceStore) (origin : String) (nonce : Option String)
    (e : Surroundings) : NonceStore × Except HttpError Unit :=
  match checkSignature nonce e with
  | .error error => (nonces, .error error)
  | .ok _ =>
      match consumeRequestNonce skew now nonces origin nonce with
      | .error error => (nonces, .error error)
      | .ok nonces => (nonces, e.concluded)

/-! ## Deliveries -/

/-- A delivery whose timestamp has passed. -/
structure Delivery where
  request : SignedRequest
  nonce : Option String
  checkedAt : Nat
deriving DecidableEq, Repr

structure Acceptance extends Delivery where
  claimedAt : Nat
deriving DecidableEq, Repr

structure Server where
  now : Nat
  nonces : NonceStore := []
  pending : List Delivery := []
  /-- The deliveries that were accepted, oldest first. -/
  accepted : List Acceptance := []

inductive Input where
  | elapse (d : Nat)
  | arrive (r : SignedRequest) (shape : Except HttpError Unit)
  | proceed (i : Nat) (e : Surroundings)

/-- A delivery is done. -/
def Server.settle (s : Server) (i : Nat) (d : Delivery)
    (outcome : NonceStore × Except HttpError Unit) : Server :=
  { s with
    nonces := outcome.1
    pending := s.pending.eraseIdx i
    accepted := match outcome.2 with
      | .ok _ => s.accepted ++ [{ d with claimedAt := s.now }]
      | .error _ => s.accepted }

def step (skew : Nat) (s : Server) : Input → Option Server
  | .elapse d => some { s with now := s.now + d }
  | .arrive r shape =>
      match checkTimestamp skew s.now shape r with
      | .error _ => some s
      | .ok nonce =>
          some { s with
            pending := s.pending ++ [{ request := r, nonce := nonce, checkedAt := s.now }] }
  | .proceed i e => (s.pending[i]?).map fun d =>
      s.settle i d (claimNonce skew s.now s.nonces d.request.origin d.nonce e)

/-! ## The window and the record -/

variable {skew now : Nat} {s s' : Server} {r : SignedRequest} {nonce : Option String}

/-- The delivery passed the first half. -/
structure Delivery.Checked (skew : Nat) (d : Delivery) : Prop where
  inWindow : ∃ timestamp, d.request.timestamp = some timestamp ∧
    (epochSeconds d.checkedAt - timestamp).natAbs ≤ skew
  nonce : federationRequestNonce d.request = .ok d.nonce

theorem checkTimestamp_ok {shape : Except HttpError Unit}
    (h : checkTimestamp skew now shape r = .ok nonce) :
    ({ request := r, nonce, checkedAt := now } : Delivery).Checked skew := by
  obtain ⟨-, h⟩ := check_bind_eq_ok.mp h
  obtain ⟨timestamp, htimestamp, h⟩ := found_bind_eq_ok.mp h
  obtain ⟨hskew, h⟩ := check_bind_eq_ok.mp h
  rw [ensure_eq_ok, not_lt] at hskew
  exact ⟨⟨timestamp, htimestamp, hskew⟩, h⟩

theorem nonce_isSome (h : federationRequestNonce r = .ok nonce) (hversion : r.version = some "2") :
    nonce ≠ none := by
  rw [federationRequestNonce, if_neg (by simp [hversion])] at h
  obtain ⟨-, h⟩ := check_bind_eq_ok.mp h
  obtain ⟨n, -, h⟩ := found_bind_eq_ok.mp h
  obtain ⟨-, h⟩ := check_bind_eq_ok.mp h
  rw [← Except.ok.inj h]
  exact Option.some_ne_none n

/-- Two checks of one timestamp are less than the record's life minus a
minute apart. -/
theorem checked_close {d e : Delivery} (hd : d.Checked skew) (he : e.Checked skew)
    (hsame : d.request = e.request) :
    e.checkedAt < d.checkedAt + (skew * 2 + 1) * second := by
  obtain ⟨t, ht, hd⟩ := hd.inWindow
  obtain ⟨t', ht', he⟩ := he.inWindow
  obtain rfl : t = t' := Option.some.inj (ht.symm.trans (hsame ▸ ht'))
  simp only [epochSeconds, second] at *
  omega

/-- A nonce is consumed by its first record. -/
theorem consumeRequestNonce_ok {nonces nonces' : NonceStore} {origin : String}
    (h : consumeRequestNonce skew now nonces origin nonce = .ok nonces') :
    (nonces' = nonces ∧ nonce = none) ∨
      ∃ n, nonce = some n ∧ Expiring.get nonces (origin, n) now = none ∧
        nonces' = Expiring.set nonces (origin, n) () (now + nonceTtl skew * second) := by
  cases nonce with
  | none => exact .inl ⟨(Except.ok.inj h).symm, rfl⟩
  | some n =>
    obtain ⟨hnew, h⟩ := check_bind_eq_ok.mp h
    exact .inr ⟨n, rfl, ensure_eq_ok.mp hnew, (Except.ok.inj h).symm⟩

/-- What the claim did: nothing, or it put the nonce on record. -/
theorem claimNonce_cases {nonces nonces' : NonceStore} {origin : String} {e : Surroundings}
    {verdict : Except HttpError Unit}
    (h : claimNonce skew now nonces origin nonce e = (nonces', verdict)) :
    (nonces' = nonces ∧ (verdict = .ok () → nonce = none)) ∨
      ∃ n, nonce = some n ∧ Expiring.get nonces (origin, n) now = none ∧
        nonces' = Expiring.set nonces (origin, n) () (now + nonceTtl skew * second) := by
  unfold claimNonce at h
  split at h
  · obtain ⟨rfl, rfl⟩ := Prod.mk.inj h
    exact .inl ⟨rfl, fun hok => by cases hok⟩
  · split at h
    · obtain ⟨rfl, rfl⟩ := Prod.mk.inj h
      exact .inl ⟨rfl, fun hok => by cases hok⟩
    · rename_i claimed hclaim
      obtain ⟨rfl, -⟩ := Prod.mk.inj h
      exact (consumeRequestNonce_ok hclaim).imp_left fun hsame => ⟨hsame.1, fun _ => hsame.2⟩

/-- The record of an acceptance is there for its time. -/
def Recorded (skew now : Nat) (nonces : NonceStore) (a : Acceptance) : Prop :=
  ∀ n, a.nonce = some n → now ≤ a.claimedAt + nonceTtl skew * second →
    ∃ row ∈ nonces, row.key = (a.request.origin, n) ∧
      row.expiresAt = a.claimedAt + nonceTtl skew * second

theorem Recorded.later {nonces : NonceStore} {a : Acceptance} (h : Recorded skew now nonces a)
    (d : Nat) : Recorded skew (now + d) nonces a :=
  fun n hn hlive => h n hn (by omega)

/-- A nonce is put on record only when its last record has run out. -/
theorem Recorded.set {nonces : NonceStore} {a : Acceptance} (h : Recorded skew now nonces a)
    {key : String × String} (hnew : Expiring.get nonces key now = none) (expiresAt : Nat) :
    Recorded skew now (Expiring.set nonces key () expiresAt) a := by
  intro n hn hlive
  obtain ⟨row, hrow, hkey, hexpires⟩ := h n hn hlive
  by_cases hsame : row.key = key
  · exact absurd hnew (Expiring.get_of_mem hrow hsame (hexpires ▸ hlive))
  · exact ⟨row, Expiring.mem_set_of_ne hrow hsame, hkey, hexpires⟩

/-! ## Runs -/

structure Server.Ok (skew : Nat) (s : Server) : Prop where
  pending : ∀ d ∈ s.pending, d.Checked skew ∧ d.checkedAt ≤ s.now
  accepted : ∀ a ∈ s.accepted, a.toDelivery.Checked skew ∧ a.checkedAt ≤ a.claimedAt ∧
    Recorded skew s.now s.nonces a
  ordered : s.accepted.Pairwise fun a b => a.request.origin = b.request.origin →
    a.nonce = b.nonce → a.nonce ≠ none → a.claimedAt + nonceTtl skew * second < b.claimedAt

theorem Server.Ok.elapse (h : s.Ok skew) (d : Nat) : { s with now := s.now + d }.Ok skew where
  pending e he := ⟨(h.pending e he).1, (h.pending e he).2.trans (Nat.le_add_right _ _)⟩
  accepted a ha :=
    ⟨(h.accepted a ha).1, (h.accepted a ha).2.1, (h.accepted a ha).2.2.later d⟩
  ordered := h.ordered

theorem Server.Ok.arrive (h : s.Ok skew) {shape : Except HttpError Unit}
    (hcheck : checkTimestamp skew s.now shape r = .ok nonce) :
    Server.Ok skew { s with
      pending := s.pending ++ [{ request := r, nonce, checkedAt := s.now }] } where
  pending d hd := by
    rcases List.mem_append.mp hd with hd | hd
    · exact h.pending d hd
    · obtain rfl := List.mem_singleton.mp hd
      exact ⟨checkTimestamp_ok hcheck, le_rfl⟩
  accepted := h.accepted
  ordered := h.ordered

theorem Server.Ok.proceed (h : s.Ok skew) {i : Nat} {d : Delivery} (hd : s.pending[i]? = some d)
    {e : Surroundings} {nonces : NonceStore} {verdict : Except HttpError Unit}
    (hclaim : claimNonce skew s.now s.nonces d.request.origin d.nonce e = (nonces, verdict)) :
    (s.settle i d (nonces, verdict)).Ok skew := by
  have hpending : ∀ d ∈ s.pending.eraseIdx i, d.Checked skew ∧ d.checkedAt ≤ s.now :=
    fun d hd => h.pending d (List.mem_of_mem_eraseIdx hd)
  obtain ⟨hchecked, hbefore⟩ := h.pending d (List.mem_of_getElem? hd)
  -- the records of the earlier acceptances are still there
  have hrecorded : ∀ a ∈ s.accepted, Recorded skew s.now nonces a := by
    intro a ha
    obtain ⟨rfl, -⟩ | ⟨n, -, hnew, rfl⟩ := claimNonce_cases hclaim
    · exact (h.accepted a ha).2.2
    · exact (h.accepted a ha).2.2.set hnew _
  cases verdict with
  | error error =>
    exact ⟨hpending, fun a ha =>
      ⟨(h.accepted a ha).1, (h.accepted a ha).2.1, hrecorded a ha⟩, h.ordered⟩
  | ok =>
    refine ⟨hpending, fun a ha => ?_, ?_⟩
    · rcases List.mem_append.mp ha with ha | ha
      · exact ⟨(h.accepted a ha).1, (h.accepted a ha).2.1, hrecorded a ha⟩
      · obtain rfl := List.mem_singleton.mp ha
        refine ⟨hchecked, hbefore, fun n hn _ => ?_⟩
        obtain ⟨-, hnone⟩ | ⟨m, hm, -, rfl⟩ := claimNonce_cases hclaim
        · rw [hnone rfl] at hn
          cases hn
        · obtain rfl : m = n := Option.some.inj (hm.symm.trans hn)
          exact ⟨_, List.mem_cons_self, rfl, rfl⟩
    · refine List.pairwise_append.mpr ⟨h.ordered, List.pairwise_singleton _ _, ?_⟩
      intro a ha b hb horigin hnonce hsome
      obtain rfl := List.mem_singleton.mp hb
      -- had the record still been there, the claim would have found it
      obtain ⟨-, hnone⟩ | ⟨n, hn, hnew, -⟩ := claimNonce_cases hclaim
      · exact absurd (hnonce.trans (hnone rfl)) hsome
      · by_contra hlive
        obtain ⟨row, hrow, hkey, hexpires⟩ :=
          (h.accepted a ha).2.2 n (hnonce.trans hn) (Nat.le_of_not_lt hlive)
        refine Expiring.get_of_mem hrow (hkey.trans ?_) ?_ hnew
        · rw [horigin]
        · rw [hexpires]
          exact Nat.le_of_not_lt hlive

theorem Server.Ok.step (h : s.Ok skew) {input : Input} (hstep : step skew s input = some s') :
    s'.Ok skew := by
  cases input with
  | elapse d =>
    obtain rfl := Option.some.inj hstep
    exact h.elapse d
  | arrive r shape =>
    simp only [RequestReplay.step] at hstep
    split at hstep
    · obtain rfl := Option.some.inj hstep
      exact h
    · rename_i nonce hcheck
      obtain rfl := Option.some.inj hstep
      exact h.arrive hcheck
  | proceed i e =>
    obtain ⟨d, hd, rfl⟩ := Option.map_eq_some_iff.mp hstep
    exact h.proceed hd (Prod.mk.eta).symm

/-- A request of version 2 is accepted a second time only by a delivery that
spends the better part of a minute between its two checks. -/
theorem request_accepted_once {is : List Input} (hrun : Exec (step skew) Always { now } is s') :
    s'.accepted.Pairwise fun a b => a.request = b.request → a.request.version = some "2" →
      b.checkedAt + 59 * second < b.claimedAt := by
  have hok : s'.Ok skew := by
    refine hrun.invariant (fun _ _ _ h _ hstep => h.step hstep) ⟨?_, ?_, List.Pairwise.nil⟩
    · exact fun _ hd => absurd hd List.not_mem_nil
    · exact fun _ ha => absurd ha List.not_mem_nil
  refine hok.ordered.imp_of_mem fun {a b} ha hb hordered hsame hversion => ?_
  obtain ⟨hchecked, hbefore, -⟩ := hok.accepted a ha
  obtain ⟨hchecked', -, -⟩ := hok.accepted b hb
  have hnonce : a.nonce = b.nonce := by
    have h := hchecked.nonce
    rw [hsame, hchecked'.nonce] at h
    exact (Except.ok.inj h).symm
  have hlate := hordered (by rw [hsame]) hnonce (nonce_isSome hchecked.nonce hversion)
  have hclose := checked_close hchecked hchecked' hsame
  simp only [nonceTtl, second] at hlate hclose ⊢
  omega

/-- A request of the second minute of the epoch. -/
def sampleRequest (version : String) (nonce : Option String) : SignedRequest where
  origin := "b.example"
  timestamp := some 100
  version := some version
  nonce
  content := "GET /_kaede/v1/users/lookup"

def passing : Surroundings where
  admitted := .ok ()
  pinned := false
  verified := true
  charged := .ok ()
  concluded := .ok ()

/-- The request is delivered twice, three seconds apart. -/
def deliveredTwice (r : SignedRequest) : List Input :=
  [.arrive r (.ok ()), .proceed 0 passing, .elapse (3 * second), .arrive r (.ok ()),
    .proceed 0 passing]

theorem request_accepted_once_replayed :
    let r := sampleRequest "2" (some "AAAAAAAAAAAAAAAAAAAAAA")
    ∃ s', Exec (step 30) Always { now := 100 * second } (deliveredTwice r) s' ∧
      s'.accepted.map (·.request) = [r] ∧
      s'.accepted.Pairwise fun a b => a.request = b.request → a.request.version = some "2" →
        b.checkedAt + 59 * second < b.claimedAt := by
  intro r
  have hfinal : (runFrom (step 30) Always { now := 100 * second } (deliveredTwice r)).map
      (fun s => s.accepted.map (·.request)) = some [r] := by
    decide +kernel
  obtain ⟨s', hs', haccepted⟩ := Option.map_eq_some_iff.mp hfinal
  have hrun := Exec.of_runFrom hs'
  exact ⟨s', hrun, haccepted, request_accepted_once hrun⟩

/-- Without a nonce it is accepted both times. -/
theorem request_without_nonce_replayed :
    ¬ ∀ (skew now : Nat) (is : List Input) (s' : Server),
      Exec (step skew) Always { now } is s' → (s'.accepted.map (·.request)).Nodup := by
  intro h
  have hfinal : (runFrom (step 30) Always { now := 100 * second }
      (deliveredTwice (sampleRequest "1" none))).map
      (fun s => s.accepted.map (·.request)) =
        some [sampleRequest "1" none, sampleRequest "1" none] := by
    decide +kernel
  obtain ⟨s', hs', haccepted⟩ := Option.map_eq_some_iff.mp hfinal
  have hnodup := h 30 _ _ s' (Exec.of_runFrom hs')
  rw [haccepted] at hnodup
  revert hnodup
  decide

end RequestReplay

end Kaede
