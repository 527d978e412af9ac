import Kaede.Expiring
import Kaede.Runs
import Kaede.Shared
import Mathlib.Data.Prod.Basic
import Mathlib.Logic.Function.Basic
import Mathlib.Order.Nat

/-!
# Presence

A gateway process writes a user's presence, renews it with each heartbeat
and projects it to the topics of guilds and friends; a reaper turns a
presence that has run out into an offline one and deletes it. Each access
to Redis is one of the scripts of `backend/app/gateway.py`,
`backend/app/chat/presence.py` and `backend/app/chat/events.py`, and any
other process may run between two of them.

What keeps them apart is the user's generation counter. Every script that
writes the state takes the next generation, so the counter is always that
of the state last written, and a process that holds an older one is refused
wherever it tries to publish or to delete.

The marker that suppresses a second publication of the same generation
lives for five minutes.
-/

namespace Kaede

namespace Presence

/-! ## The scripts -/

/-- The text kept under `presence:{handle}`: `base` is what stands before
`,"generation":`. -/
structure PresenceState where
  base : String
  generation : Nat
  expiresAt : Nat
  claimUntil : Option Nat := none
deriving DecidableEq, Repr

/-- The keys of one user: `presence:generation:{handle}`,
`presence:{handle}` and the user's score in `presence:expirations`. -/
structure Keys where
  counter : Option Nat := none
  state : Option PresenceState := none
  score : Option Nat := none
deriving DecidableEq, Repr

/-- `INCR` takes a missing key for zero. -/
def Keys.incr (k : Keys) : Nat := k.counter.getD 0 + 1

/-- `SET_PRESENCE_SCRIPT`. -/
def setPresence (k : Keys) (base : String) (expiresAt : Nat) : Keys × Nat :=
  ({ counter := some k.incr
     state := some { base, generation := k.incr, expiresAt }
     score := some expiresAt }, k.incr)

/-- `RENEW_PRESENCE_SCRIPT`. -/
def renewPresence (k : Keys) (expiresAt : Nat) : Keys × Nat :=
  match k.state with
  | none => (k, 0)
  | some state => setPresence k state.base expiresAt

def PRESENCE_REAPER_LEASE_SECONDS : Nat := 15

/-- `CLAIM_EXPIRED_PRESENCE_SCRIPT`. -/
def claimExpiredPresence (k : Keys) (now : Nat) : Keys × Nat :=
  match k.score with
  | none => (k, 0)
  | some score =>
      if score > now then (k, 0)
      else match k.state with
        | none => ({ k with score := none }, 0)
        | some state =>
            if state.expiresAt > now then ({ k with score := some state.expiresAt }, 0)
            else
              let claimUntil := now + PRESENCE_REAPER_LEASE_SECONDS
              ({ counter := some k.incr
                 state := some { state with generation := k.incr, claimUntil := some claimUntil }
                 score := some claimUntil }, k.incr)

/-- `FINALIZE_EXPIRED_PRESENCE_SCRIPT`. -/
def finalizeExpiredPresence (k : Keys) (generation now : Nat) : Keys × Bool :=
  match k.state with
  | none => ({ k with score := none }, true)
  | some state =>
      if state.generation ≠ generation then (k, false)
      else if state.expiresAt > now then (k, false)
      else ({ k with state := none, score := none }, true)

/-- The keys `presence:published:{topic}:{handle}`. -/
abbrev Published := List (Expiring (String × UserRef) Nat)

def markerTtl : Nat := 300

inductive Verdict where
  | stale
  | repeated
  | sent
deriving DecidableEq, Repr

/-- `PUBLISH_PRESENCE_SCRIPT`. It returns 0 for `stale` and 1 for the other
two, and only `sent` puts a message on the topic. -/
def publishPresence (clock : Nat) (counter : Option Nat) (published : Published)
    (key : String × UserRef) (generation : Nat) : Published × Verdict :=
  if counter.getD generation > generation then (published, .stale)
  else match Expiring.get published key clock with
    | none => (Expiring.set published key generation (clock + markerTtl * second), .sent)
    | some current =>
        if current > generation then (published, .stale)
        else if current = generation then (published, .repeated)
        else (Expiring.set published key generation (clock + markerTtl * second), .sent)

/-! ## Processes -/

/-- What a process is about to publish. -/
structure Projection where
  user : UserRef
  generation : Nat
  presence : String
deriving DecidableEq, Repr

/-- What a reaper holds after a claim. `updates` counts the sets and renewals
of the user at that point. -/
structure Claim where
  user : UserRef
  generation : Nat
  now : Nat
  updates : Nat
deriving DecidableEq, Repr

structure Publication extends Projection where
  topic : String
  time : Nat
deriving DecidableEq, Repr

structure Deletion where
  claim : Claim
  updates : Nat
deriving DecidableEq, Repr

/-- Redis, the processes, and what they did. Projections and claims are never
dropped: a process may act on one at any later time, and a projection goes
to any number of topics. -/
structure Gateways where
  clock : Nat := 0
  keys : UserRef → Keys := fun _ => {}
  published : Published := []
  projections : List Projection := []
  claims : List Claim := []
  updates : UserRef → Nat := fun _ => 0
  log : List Publication := []
  deletions : List Deletion := []

/-- The arguments are those of the scripts: expiries and the `now` of a reaper
come from the clocks of the processes. -/
inductive Input where
  | elapse (d : Nat)
  | set (user : UserRef) (base : String) (expiresAt : Nat)
  | renew (user : UserRef) (expiresAt : Nat)
  /-- `publish_cached_presence` reads the state. -/
  | read (user : UserRef)
  | claim (user : UserRef) (now : Nat)
  | publish (i : Nat) (topic : String)
  | finalize (i : Nat)

/-- A set or a renewal. -/
def Gateways.write (s : Gateways) (user : UserRef) (keys : Keys) : Gateways :=
  { s with
    keys := Function.update s.keys user keys
    updates := Function.update s.updates user (s.updates user + 1) }

def Gateways.hold (s : Gateways) (p : Projection) : Gateways :=
  { s with projections := s.projections ++ [p] }

/-- The reaper goes on if it got a generation. -/
def Gateways.claimed (s : Gateways) (user : UserRef) (now : Nat) (outcome : Keys × Nat) :
    Gateways :=
  let s := { s with keys := Function.update s.keys user outcome.1 }
  if outcome.2 = 0 then s
  else { s with
    projections := s.projections ++ [{ user, generation := outcome.2, presence := "offline" }]
    claims := s.claims ++ [{ user, generation := outcome.2, now, updates := s.updates user }] }

def Gateways.project (s : Gateways) (p : Projection) (topic : String)
    (outcome : Published × Verdict) : Gateways :=
  { s with
    published := outcome.1
    log := match outcome.2 with
      | .sent => s.log ++ [{ p with topic, time := s.clock }]
      | _ => s.log }

def Gateways.finalized (s : Gateways) (c : Claim) (outcome : Keys × Bool) : Gateways :=
  { s with
    keys := Function.update s.keys c.user outcome.1
    deletions := if (s.keys c.user).state ≠ none ∧ outcome.1.state = none
      then s.deletions ++ [{ claim := c, updates := s.updates c.user }] else s.deletions }

def step (s : Gateways) : Input → Option Gateways
  | .elapse d => some { s with clock := s.clock + d }
  | .set user base expiresAt =>
      let outcome := setPresence (s.keys user) base expiresAt
      some ((s.write user outcome.1).hold
        { user, generation := outcome.2, presence := base })
  | .renew user expiresAt => some (s.write user (renewPresence (s.keys user) expiresAt).1)
  | .read user => (s.keys user).state.map fun state =>
      s.hold { user, generation := state.generation, presence := state.base }
  | .claim user now => some (s.claimed user now (claimExpiredPresence (s.keys user) now))
  | .publish i topic => (s.projections[i]?).map fun p =>
      s.project p topic (publishPresence s.clock (s.keys p.user).counter s.published
        (topic, p.user) p.generation)
  | .finalize i => (s.claims[i]?).map fun c =>
      s.finalized c (finalizeExpiredPresence (s.keys c.user) c.generation c.now)

/-! ## What the scripts do to a user's keys -/

variable {k k' : Keys} {a g : Nat} {s s' : Gateways}

/-- The generation was issued for this user. -/
def Keys.Issued (k : Keys) (g : Nat) : Prop :=
  ∃ latest, k.counter = some latest ∧ g ≤ latest

/-- The state was written under the next generation. -/
def Keys.Advanced (k k' : Keys) (g : Nat) : Prop :=
  g = k.incr ∧ k'.counter = some g ∧ ∃ state, k'.state = some state ∧ state.generation = g

theorem Keys.Advanced.issued (h : k.Advanced k' g) : k'.Issued g := ⟨g, h.2.1, le_rfl⟩

theorem Keys.Advanced.lt (h : k.Advanced k' g) (ha : k.Issued a) : a < g := by
  obtain ⟨latest, hlatest, hle⟩ := ha
  rw [h.1, Keys.incr, hlatest]
  exact Nat.lt_succ_of_le hle

theorem Keys.Advanced.issued_of_issued (h : k.Advanced k' g) (ha : k.Issued a) : k'.Issued a :=
  ⟨g, h.2.1, (h.lt ha).le⟩

theorem Keys.Advanced.state (h : k.Advanced k' g) {state : PresenceState}
    (hstate : k'.state = some state) : state.generation = g := by
  obtain ⟨-, -, written, hwritten, hgeneration⟩ := h
  rw [← Option.some.inj (hwritten.symm.trans hstate)]
  exact hgeneration

theorem setPresence_advanced (k : Keys) (base : String) (expiresAt : Nat) :
    k.Advanced (setPresence k base expiresAt).1 (setPresence k base expiresAt).2 :=
  ⟨rfl, rfl, _, rfl, rfl⟩

theorem renewPresence_cases (k : Keys) (expiresAt : Nat) :
    (k.state = none ∧ (renewPresence k expiresAt).1 = k) ∨
      ∃ g, k.Advanced (renewPresence k expiresAt).1 g := by
  rw [renewPresence]
  split
  · exact .inl ⟨‹_›, rfl⟩
  · exact .inr ⟨_, setPresence_advanced _ _ _⟩

theorem claimExpiredPresence_cases (k : Keys) (now : Nat) :
    (∃ score, claimExpiredPresence k now = ({ k with score }, 0)) ∨
      ((claimExpiredPresence k now).2 ≠ 0 ∧
        k.Advanced (claimExpiredPresence k now).1 (claimExpiredPresence k now).2) := by
  unfold claimExpiredPresence
  split
  · exact .inl ⟨k.score, rfl⟩
  · split
    · exact .inl ⟨k.score, rfl⟩
    · split
      · exact .inl ⟨none, rfl⟩
      · split
        · exact .inl ⟨_, rfl⟩
        · exact .inr ⟨Nat.succ_ne_zero _, rfl, rfl, _, rfl, rfl⟩

/-- A state is deleted only under the generation it was written with. -/
theorem finalizeExpiredPresence_cases (k : Keys) (generation now : Nat) :
    (finalizeExpiredPresence k generation now).1.counter = k.counter ∧
      ((finalizeExpiredPresence k generation now).1.state = k.state ∨
        (finalizeExpiredPresence k generation now).1.state = none ∧
          ∃ state, k.state = some state ∧ state.generation = generation) := by
  unfold finalizeExpiredPresence
  split
  · exact ⟨rfl, .inl rfl⟩
  · split
    · exact ⟨rfl, .inl rfl⟩
    · rename_i state hstate hgeneration
      split
      · exact ⟨rfl, .inl rfl⟩
      · exact ⟨rfl, .inr ⟨rfl, state, hstate, not_not.mp hgeneration⟩⟩

/-- A message goes out only under the latest generation, and not while the
marker of this generation or of a later one is there. -/
theorem publishPresence_cases {clock : Nat} {published published' : Published}
    {key : String × UserRef} {verdict : Verdict} (hissued : k.Issued g)
    (h : publishPresence clock k.counter published key g = (published', verdict)) :
    (published' = published ∧ verdict ≠ .sent) ∨
      (k.counter = some g ∧ (∀ v, Expiring.get published key clock = some v → v < g) ∧
        published' = Expiring.set published key g (clock + markerTtl * second) ∧
        verdict = .sent) := by
  obtain ⟨latest, hlatest, hle⟩ := hissued
  rw [publishPresence, hlatest, Option.getD_some] at h
  split at h
  · obtain ⟨rfl, rfl⟩ := Prod.mk.inj h
    exact .inl ⟨rfl, by decide⟩
  · rename_i hge
    obtain rfl : latest = g := Nat.le_antisymm (Nat.le_of_not_lt hge) hle
    split at h
    · rename_i hget
      obtain ⟨rfl, rfl⟩ := Prod.mk.inj h
      exact .inr ⟨hlatest, fun v hv => absurd (hv.symm.trans hget) (Option.some_ne_none v), rfl,
        rfl⟩
    · rename_i current hget
      split at h
      · obtain ⟨rfl, rfl⟩ := Prod.mk.inj h
        exact .inl ⟨rfl, by decide⟩
      · split at h
        · obtain ⟨rfl, rfl⟩ := Prod.mk.inj h
          exact .inl ⟨rfl, by decide⟩
        · obtain ⟨rfl, rfl⟩ := Prod.mk.inj h
          refine .inr ⟨hlatest, fun v hv => ?_, rfl, rfl⟩
          obtain rfl : v = current := Option.some.inj (hv.symm.trans hget)
          omega

/-! ## Fences -/

/-- Nothing was written since the claim, or the state has a later generation. -/
def Fenced (k : Keys) (updates : Nat) (c : Claim) : Prop :=
  (c.updates = updates ∧ ∃ state, k.state = some state ∧ state.generation = c.generation) ∨
    ∀ state, k.state = some state → c.generation < state.generation

theorem Keys.Advanced.fenced (h : k.Advanced k' g) {c : Claim} (hc : k.Issued c.generation)
    (updates : Nat) : Fenced k' updates c :=
  .inr fun _ hstate => (h.lt hc).trans_eq (h.state hstate).symm

/-- The marker of a publication stays for its time, and is only replaced by
that of a later generation. -/
structure Publication.Marked (clock : Nat) (published : Published) (p : Publication) : Prop where
  le : ∀ row ∈ published, row.key = (p.topic, p.user) → p.generation ≤ row.value
  past : p.time ≤ clock
  row : ∃ row ∈ published, row.key = (p.topic, p.user) ∧
    p.time + markerTtl * second ≤ row.expiresAt

theorem Publication.Marked.set {clock : Nat} {published : Published} {p : Publication}
    (h : p.Marked clock published) {key : String × UserRef}
    (hg : key = (p.topic, p.user) → p.generation ≤ g) :
    p.Marked clock (Expiring.set published key g (clock + markerTtl * second)) where
  le := Expiring.forall_mem_set h.le hg
  past := h.past
  row := by
    obtain ⟨row, hrow, hkey, hlive⟩ := h.row
    by_cases hsame : row.key = key
    · refine ⟨_, List.mem_cons_self, hsame.symm.trans hkey, ?_⟩
      exact Nat.add_le_add_right h.past _
    · exact ⟨row, Expiring.mem_set_of_ne hrow hsame, hkey, hlive⟩

/-- While the marker lives, it is found. -/
theorem Publication.Marked.get {clock : Nat} {published : Published} {p : Publication}
    (h : p.Marked clock published) (hlive : clock ≤ p.time + markerTtl * second) :
    ∃ v, Expiring.get published (p.topic, p.user) clock = some v ∧ p.generation ≤ v := by
  obtain ⟨row, hrow, hkey, hexpires⟩ := h.row
  have hfound := Expiring.get_of_mem hrow hkey (hlive.trans hexpires)
  obtain ⟨v, hv⟩ := Option.ne_none_iff_exists'.mp hfound
  obtain ⟨found, hmem, hkey', rfl, -⟩ := Expiring.mem_of_get hv
  exact ⟨_, hv, h.le found hmem hkey'⟩

/-! ## Runs -/

/-- One user's generation follows another on a topic; the same one comes
again only after the marker's time. -/
def Follows (p q : Publication) : Prop :=
  p.topic = q.topic → p.user = q.user →
    p.generation < q.generation ∨
      p.generation = q.generation ∧ p.time + markerTtl * second < q.time

structure Gateways.Ok (s : Gateways) : Prop where
  states : ∀ user state, (s.keys user).state = some state →
    (s.keys user).Issued state.generation
  projections : ∀ p ∈ s.projections, (s.keys p.user).Issued p.generation
  claims : ∀ c ∈ s.claims, (s.keys c.user).Issued c.generation ∧
    Fenced (s.keys c.user) (s.updates c.user) c
  log : ∀ p ∈ s.log, (s.keys p.user).Issued p.generation ∧ p.Marked s.clock s.published
  ordered : s.log.Pairwise Follows
  deletions : ∀ d ∈ s.deletions, d.claim.updates = d.updates

theorem Gateways.Ok.elapse (h : s.Ok) (d : Nat) : { s with clock := s.clock + d }.Ok where
  states := h.states
  projections := h.projections
  claims := h.claims
  log p hp :=
    ⟨(h.log p hp).1, (h.log p hp).2.le, (h.log p hp).2.past.trans (Nat.le_add_right _ _),
      (h.log p hp).2.row⟩
  ordered := h.ordered
  deletions := h.deletions

theorem Gateways.Ok.hold (h : s.Ok) {p : Projection} (hp : (s.keys p.user).Issued p.generation) :
    (s.hold p).Ok :=
  { h with
    projections := by
      intro q hq
      rcases List.mem_append.mp hq with hq | hq
      · exact h.projections q hq
      · obtain rfl := List.mem_singleton.mp hq
        exact hp }

/-- New keys for one user that keep what was issued and fence the claims. -/
theorem Gateways.Ok.rekey (h : s.Ok) {user : UserRef} (updates : Nat)
    (hissued : ∀ a, (s.keys user).Issued a → k.Issued a)
    (hstate : ∀ state, k.state = some state → k.Issued state.generation)
    (hfenced : ∀ c ∈ s.claims, c.user = user → Fenced k updates c) :
    Gateways.Ok { s with
      keys := Function.update s.keys user k
      updates := Function.update s.updates user updates } := by
  have hkeep : ∀ u a, (s.keys u).Issued a → (Function.update s.keys user k u).Issued a := by
    intro u a ha
    by_cases hu : u = user
    · rw [hu, Function.update_self]
      exact hissued a (hu ▸ ha)
    · rw [Function.update_of_ne hu]
      exact ha
  have hstates : ∀ u state, (Function.update s.keys user k u).state = some state →
      (Function.update s.keys user k u).Issued state.generation := by
    intro u state hs
    by_cases hu : u = user
    · rw [hu, Function.update_self] at hs ⊢
      exact hstate state hs
    · rw [Function.update_of_ne hu] at hs ⊢
      exact h.states u state hs
  have hfences : ∀ c ∈ s.claims, Fenced (Function.update s.keys user k c.user)
      (Function.update s.updates user updates c.user) c := by
    intro c hc
    by_cases hu : c.user = user
    · rw [hu, Function.update_self, Function.update_self]
      exact hfenced c hc hu
    · rw [Function.update_of_ne hu, Function.update_of_ne hu]
      exact (h.claims c hc).2
  exact { h with
    states := hstates
    projections := fun p hp => hkeep _ _ (h.projections p hp)
    claims := fun c hc => ⟨hkeep _ _ (h.claims c hc).1, hfences c hc⟩
    log := fun p hp => ⟨hkeep _ _ (h.log p hp).1, (h.log p hp).2⟩ }

/-- A script that takes the next generation fences every claim before it. -/
theorem Gateways.Ok.advance (h : s.Ok) {user : UserRef} (updates : Nat)
    (hk : (s.keys user).Advanced k g) :
    Gateways.Ok { s with
      keys := Function.update s.keys user k
      updates := Function.update s.updates user updates } := by
  refine h.rekey updates (fun a => hk.issued_of_issued) ?_ fun c hc hu => ?_
  · intro state hstate
    rw [hk.state hstate]
    exact hk.issued
  · exact hk.fenced (hu ▸ (h.claims c hc).1) _

theorem Gateways.Ok.renew (h : s.Ok) (user : UserRef) (expiresAt : Nat) :
    (s.write user (renewPresence (s.keys user) expiresAt).1).Ok := by
  obtain ⟨hnone, hsame⟩ | ⟨g, hk⟩ := renewPresence_cases (s.keys user) expiresAt
  · rw [hsame]
    refine h.rekey _ (fun a ha => ha) (h.states user) fun c hc hu => ?_
    -- without a state there is nothing the claim could delete
    exact .inr fun state hstate => absurd (hstate.symm.trans hnone) (Option.some_ne_none _)
  · exact h.advance _ hk

theorem Gateways.Ok.claimed (h : s.Ok) (user : UserRef) (now : Nat) :
    (s.claimed user now (claimExpiredPresence (s.keys user) now)).Ok := by
  obtain ⟨score, hsame⟩ | ⟨hpos, hk⟩ := claimExpiredPresence_cases (s.keys user) now
  · rw [hsame]
    have hok := h.rekey (k := { s.keys user with score }) (s.updates user)
      (fun a ha => ha) (h.states user) fun c hc hu => hu ▸ (h.claims c hc).2
    rw [Function.update_eq_self] at hok
    exact hok
  · generalize claimExpiredPresence (s.keys user) now = outcome at hpos hk ⊢
    have hok := h.advance (s.updates user) hk
    rw [Function.update_eq_self] at hok
    have hissued : (Function.update s.keys user outcome.1 user).Issued outcome.2 := by
      rw [Function.update_self]
      exact hk.issued
    rw [Gateways.claimed, if_neg hpos]
    have hheld := hok.hold (p := ⟨user, outcome.2, "offline"⟩) hissued
    refine { hheld with claims := fun c hc => ?_ }
    rcases List.mem_append.mp hc with hc | hc
    · exact hok.claims c hc
    · obtain rfl := List.mem_singleton.mp hc
      have hwritten : ∃ state, (Function.update s.keys user outcome.1 user).state = some state ∧
          state.generation = outcome.2 := by
        rw [Function.update_self]
        exact hk.2.2
      exact ⟨hissued, .inl ⟨rfl, hwritten⟩⟩

theorem Gateways.Ok.project (h : s.Ok) {p : Projection} (hp : p ∈ s.projections) {topic : String}
    {published : Published} {verdict : Verdict}
    (hpublish : publishPresence s.clock (s.keys p.user).counter s.published (topic, p.user)
      p.generation = (published, verdict)) :
    (s.project p topic (published, verdict)).Ok := by
  have hissued := h.projections p hp
  obtain ⟨rfl, hverdict⟩ | ⟨hlatest, hmarker, rfl, rfl⟩ := publishPresence_cases hissued hpublish
  · cases verdict with
    | sent => exact absurd rfl hverdict
    | stale => exact { h with }
    | repeated => exact { h with }
  · -- what was published for the user so far is not later than this
    have hle : ∀ q ∈ s.log, q.user = p.user → q.generation ≤ p.generation := by
      intro q hq huser
      obtain ⟨latest, hcounter, hle⟩ := (h.log q hq).1
      rw [huser, hlatest] at hcounter
      exact hle.trans_eq (Option.some.inj hcounter).symm
    refine { h with log := fun q hq => ?_, ordered := ?_ }
    · rcases List.mem_append.mp hq with hq | hq
      · refine ⟨(h.log q hq).1, (h.log q hq).2.set fun hkey => ?_⟩
        exact hle q hq (Prod.mk.inj hkey).2.symm
      · obtain rfl := List.mem_singleton.mp hq
        refine ⟨hissued, fun row hrow hkey => ?_, le_rfl, _, List.mem_cons_self, rfl, le_rfl⟩
        rcases List.mem_cons.mp hrow with rfl | hrow
        · exact le_rfl
        · exact absurd hkey (of_decide_eq_true (List.mem_filter.mp hrow).2)
    · refine List.pairwise_append.mpr ⟨h.ordered, List.pairwise_singleton _ _, ?_⟩
      intro q hq r hr htopic huser
      obtain rfl := List.mem_singleton.mp hr
      by_cases hlive : s.clock ≤ q.time + markerTtl * second
      · obtain ⟨v, hv, hqv⟩ := (h.log q hq).2.get hlive
        rw [htopic, huser] at hv
        exact .inl (hqv.trans_lt (hmarker v hv))
      · have hq := hle q hq huser
        exact hq.lt_or_eq.imp_right fun heq => ⟨heq, Nat.lt_of_not_le hlive⟩

theorem Gateways.Ok.finalized (h : s.Ok) {c : Claim} (hc : c ∈ s.claims) :
    (s.finalized c (finalizeExpiredPresence (s.keys c.user) c.generation c.now)).Ok := by
  obtain ⟨hcounter, hcases⟩ := finalizeExpiredPresence_cases (s.keys c.user) c.generation c.now
  generalize finalizeExpiredPresence (s.keys c.user) c.generation c.now = outcome
    at hcounter hcases ⊢
  have hissued : ∀ a, (s.keys c.user).Issued a → outcome.1.Issued a := by
    intro a ha
    rw [Keys.Issued, hcounter]
    exact ha
  have hok : Gateways.Ok { s with keys := Function.update s.keys c.user outcome.1 } := by
    have hok := h.rekey (k := outcome.1) (s.updates c.user) hissued ?_ ?_
    · rw [Function.update_eq_self] at hok
      exact hok
    · intro state hstate
      obtain hsame | ⟨hnone, -⟩ := hcases
      · exact hissued _ (h.states c.user state (hsame ▸ hstate))
      · exact absurd (hstate.symm.trans hnone) (Option.some_ne_none _)
    · intro d hd hu
      obtain hsame | ⟨hnone, -⟩ := hcases
      · rw [Fenced, hsame, ← hu]
        exact (h.claims d hd).2
      · exact .inr fun state hstate => absurd (hstate.symm.trans hnone) (Option.some_ne_none _)
  refine { hok with deletions := fun d hd => ?_ }
  rw [Gateways.finalized] at hd
  split at hd
  · rename_i hdeleted
    rcases List.mem_append.mp hd with hd | hd
    · exact h.deletions d hd
    · obtain rfl := List.mem_singleton.mp hd
      obtain hsame | ⟨-, state, hstate, hgeneration⟩ := hcases
      · exact absurd (hsame.symm.trans hdeleted.2) hdeleted.1
      · -- a state under the claim's generation is the one the claim wrote
        obtain ⟨hupdates, -⟩ | hlater := (h.claims c hc).2
        · exact hupdates
        · exact absurd hgeneration (hlater state hstate).ne'
  · exact h.deletions d hd

theorem Gateways.Ok.step (h : s.Ok) {input : Input} (hstep : step s input = some s') :
    s'.Ok := by
  cases input with
  | elapse d =>
    obtain rfl := Option.some.inj hstep
    exact h.elapse d
  | set user base expiresAt =>
    obtain rfl := Option.some.inj hstep
    have hk := setPresence_advanced (s.keys user) base expiresAt
    have hissued : (Function.update s.keys user (setPresence (s.keys user) base expiresAt).1
        user).Issued (setPresence (s.keys user) base expiresAt).2 := by
      rw [Function.update_self]
      exact hk.issued
    exact (h.advance _ hk).hold hissued
  | renew user expiresAt =>
    obtain rfl := Option.some.inj hstep
    exact h.renew user expiresAt
  | read user =>
    obtain ⟨state, hstate, rfl⟩ := Option.map_eq_some_iff.mp hstep
    exact h.hold (h.states user state hstate)
  | claim user now =>
    obtain rfl := Option.some.inj hstep
    exact h.claimed user now
  | publish i topic =>
    obtain ⟨p, hp, rfl⟩ := Option.map_eq_some_iff.mp hstep
    exact h.project (List.mem_of_getElem? hp) Prod.mk.eta.symm
  | finalize i =>
    obtain ⟨c, hc, rfl⟩ := Option.map_eq_some_iff.mp hstep
    exact h.finalized (List.mem_of_getElem? hc)

/-- On each topic the generations of a user never go back, and a presence is
deleted only if it was not set or renewed since the claim. -/
theorem presence_generations_fenced {is : List Input} (hrun : Exec step Always {} is s') :
    s'.log.Pairwise Follows ∧ ∀ d ∈ s'.deletions, d.claim.updates = d.updates := by
  have hok : s'.Ok := by
    refine hrun.invariant (fun _ _ _ h _ hstep => h.step hstep) ⟨?_, ?_, ?_, ?_, .nil, ?_⟩
    · intro user state hstate
      cases hstate
    all_goals exact fun _ hmem => absurd hmem List.not_mem_nil
  exact ⟨hok.ordered, hok.deletions⟩

def sampleUser : UserRef := ⟨7, "a.example"⟩

/-- A presence runs out and is claimed; before the reaper is done the user is
back. -/
def sampleReturn : List Input :=
  [.set sampleUser "online" 90, .publish 0 "guild:1", .elapse (100 * second),
    .claim sampleUser 100, .set sampleUser "idle" 190, .publish 1 "guild:1",
    .publish 2 "guild:1", .finalize 0, .elapse (100 * second), .claim sampleUser 200,
    .publish 3 "guild:1", .finalize 1]

theorem presence_generations_fenced_return :
    ∃ s', Exec step Always {} sampleReturn s' ∧
      s'.log.map (fun p => (p.presence, p.generation)) =
        [("online", 1), ("idle", 3), ("offline", 4)] ∧
      s'.deletions.map (·.claim.generation) = [4] ∧
      s'.log.Pairwise Follows ∧ ∀ d ∈ s'.deletions, d.claim.updates = d.updates := by
  have hfinal : (runFrom step Always {} sampleReturn).map
      (fun s => (s.log.map (fun p => (p.presence, p.generation)),
        s.deletions.map (·.claim.generation))) =
        some ([("online", 1), ("idle", 3), ("offline", 4)], [4]) := by
    decide +kernel
  obtain ⟨s', hs', hsame⟩ := Option.map_eq_some_iff.mp hfinal
  have hrun := Exec.of_runFrom hs'
  obtain ⟨hlog, hdeletions⟩ := Prod.mk.inj hsame
  exact ⟨s', hrun, hlog, hdeletions, presence_generations_fenced hrun⟩

/-- The marker has run out when the presence is projected to a new friend. -/
theorem presence_generation_repeated :
    ¬ ∀ (is : List Input) (s' : Gateways), Exec step Always {} is s' →
      s'.log.Pairwise fun p q => p.topic = q.topic → p.user = q.user →
        p.generation < q.generation := by
  intro h
  have hfinal : (runFrom step Always {} [.set sampleUser "online" 90, .publish 0 "user:8",
      .elapse (301 * second), .read sampleUser, .publish 1 "user:8"]).map (·.log) =
        some [⟨⟨sampleUser, 1, "online"⟩, "user:8", 0⟩,
          ⟨⟨sampleUser, 1, "online"⟩, "user:8", 301 * second⟩] := by
    decide +kernel
  obtain ⟨s', hs', hlog⟩ := Option.map_eq_some_iff.mp hfinal
  have hordered := h _ s' (Exec.of_runFrom hs')
  rw [hlog] at hordered
  revert hordered
  decide

end Presence

end Kaede
