import Kaede.Runs
import Kaede.TrackerInvalidation

/-!
# A tracker and its replica

The authority queues an invalidation with every change of a board, and the
replica drops the lanes and tasks of a board that is older (`apply_tracker_invalidation`).
A board without lanes is stale, and reading it fetches a snapshot
(`hydrate_replicated_tracker`). The replica's lock keeps invalidations out
while it fetches.

`coherent_run` is about any order of changes, invalidations and fetches: the
version that the replica has never goes down, and a board that is not stale is
that of a state of the authority no older than the invalidations so far. Its
tasks have no assignee who is no member here, and no nonce of a client. All of
this rests on `Unstamped`: a hydration of the version that an invalidation has
announced already, which changes another column of the board, puts the time
of the replica in the place of the version (`stamped_replica_falls_behind`).
-/

namespace Kaede

namespace TrackerSync

open Replication (RemoteUserProfile UserRow Users maxDatabaseSnowflake)
open TrackerFields

variable {F : Type}

/-! ## The system -/

/-- The authority of a board and one of its replicas. `past` are the states
that the authority has had, `queued` the boards and reasons of the invalidations
that it queued, `fetching` the responses to the attempts of a hydration that
holds the replica's lock, and `members` the members of the guild that the
replica knew at its last hydration. -/
structure System (F : Type) (channel guild : Ref) where
  authority : Authority F
  past : List (Authority F)
  queued : List (BoardRow F × String)
  replica : Replica F channel guild
  applied : List CivilTime
  fetching : Option (List (List Response))
  members : List Ref
  dispatches : List (Json F)

inductive SyncEvent (F : Type) where
  /-- A transaction of the authority that changes the board. -/
  | change (a : Authority F) (reason : String)
  /-- Profiles of users change, which the board has no version for. -/
  | profiles (users : List UserRow)
  /-- An invalidation arrives, late, again or out of order. -/
  | deliver (k : Nat)
  /-- A reader takes the lock and finds the board stale. -/
  | hydrate
  /-- The authority answers a request of the hydration. -/
  | request (visit : Visit) (cursor : Option String)
  /-- The hydration starts over. -/
  | retry
  /-- The hydration commits or is rolled back. -/
  | finish (around : Surroundings)

namespace System

/-- A new channel, which the replica knows no board of. -/
def init (a : Authority F) : System F a.board.channel a.board.guild where
  authority := a
  past := [a]
  queued := []
  replica := ⟨none, [], [], fun _ hb => nomatch hb⟩
  applied := []
  fetching := none
  members := []
  dispatches := []

section

variable {channel guild : Ref}

/-- What the site of the replica has settled: its domain, and whether the
channel is a tracker there. -/
structure Site where
  domain : String
  isTracker : Bool

variable (lib : Library F) (otherTexts : List Char → Option (Json F)) (site : Site)

def deliver (s : System F channel guild) (k : Nat) : Option (System F channel guild) := do
  guard s.fetching.isNone
  let (board, reason) ← s.queued[k]?
  match applyTrackerInvalidation lib site.isTracker s.replica
      (invalidationContent board reason) (invalidationContext board) with
  | .error _ => some s
  | .ok (i, replica, dispatch) =>
      some { s with replica, applied := i.version :: s.applied, dispatches := [dispatch] }

def finish [DecidableEq F] (s : System F channel guild) (around : Surroundings) :
    Option (System F channel guild) := do
  let attempts ← s.fetching
  match hydrateReplicatedTracker lib site.domain site.isTracker around s.replica attempts with
  | .error _ => some { s with fetching := none }
  | .ok (_, replica) => some { s with replica, members := around.members, fetching := none }

def step [DecidableEq F] (s : System F channel guild) :
    SyncEvent F → Option (System F channel guild)
  | .change a reason =>
      some { s with authority := a, past := a :: s.past
                    queued := s.queued ++ [(a.board, reason)] }
  | .profiles users =>
      some { s with authority := { s.authority with users }
                    past := { s.authority with users } :: s.past }
  | .deliver k => s.deliver lib site k
  | .hydrate =>
      if s.fetching.isNone ∧ s.replica.isStale then some { s with fetching := some [[]] } else none
  | .request visit cursor => do
      let attempts ← s.fetching
      let last ← attempts.getLast?
      some { s with fetching := some (attempts.dropLast ++
        [last ++ [serve lib otherTexts s.authority visit cursor]]) }
  | .retry => do
      let attempts ← s.fetching
      some { s with fetching := some (attempts ++ [[]]) }
  | .finish around => s.finish lib site around

/-- What the authority keeps to: a change leaves a sound board of the channel
with a greater version, and says one of the reasons. -/
def Legal (s : System F channel guild) : SyncEvent F → Prop
  | .change a reason =>
      (∃ fields, Sound lib fields a) ∧ a.board.channel = channel ∧ a.board.guild = guild ∧
        s.authority.board.updatedAt.instant < a.board.updatedAt.instant ∧
        reason ∈ trackerInvalidationReasons
  | .profiles users => ∃ fields, Sound lib fields { s.authority with users }
  | _ => True

/-- No request of a hydration meets a board of the version that the replica
has, with another column changed. -/
def Unstamped [DecidableEq F] (s : System F channel guild) : SyncEvent F → Prop
  | .request _ _ => ∀ b ∈ s.replica.board, ¬ Restamps b s.authority.board
  | _ => True

/-- The authority keeps to its part, and no hydration stamps the board. -/
def Steady [DecidableEq F] (s : System F channel guild) (e : SyncEvent F) : Prop :=
  Legal lib s e ∧ Unstamped s e

end

end System

/-! ## Coherence -/

section

variable {channel guild : Ref}

theorem Served.mono {lib : Library F} {states states' : List (Authority F)} (h : states ⊆ states')
    {response : Response} (hserved : Served lib states response) : Served lib states' response := by
  rcases hserved with hrefused | ⟨a, ha, hpage⟩
  · exact .inl hrefused
  · exact .inr ⟨a, h ha, hpage⟩

/-- One more state: sound, and with the rows of those that have its version. -/
theorem History.cons {lib : Library F} {states : List (Authority F)} {a : Authority F}
    (hstates : History lib channel guild states) (hsound : ∃ fields, Sound lib fields a)
    (hchannel : a.board.channel = channel) (hguild : a.board.guild = guild)
    (hversion : ∀ b ∈ states, a.board.updatedAt = b.board.updatedAt → SameRows a b) :
    History lib channel guild (a :: states) where
  sound := List.forall_mem_cons.mpr ⟨hsound, hstates.sound⟩
  channel := List.forall_mem_cons.mpr ⟨hchannel, hstates.channel⟩
  guild := List.forall_mem_cons.mpr ⟨hguild, hstates.guild⟩
  version := by
    intro b hb c hc heq
    rcases List.mem_cons.mp hb with rfl | hbold
    · rcases List.mem_cons.mp hc with rfl | hcold
      · exact SameRows.refl _
      · exact hversion c hcold heq
    · rcases List.mem_cons.mp hc with rfl | hcold
      · exact (hversion b hbold heq.symm).symm
      · exact hstates.version b hbold c hcold heq

variable [DecidableEq F]

namespace System

/-- The states that are no older than the replica's board, and that it gets
the version of. -/
def recent (s : System F channel guild) : List (Authority F) :=
  s.past.filter fun a => ∀ b ∈ s.replica.board,
    b.updatedAt.instant ≤ a.board.updatedAt.instant ∧ ¬ Restamps b a.board

structure Coherent (lib : Library F) (s : System F channel guild) : Prop where
  history : History lib channel guild s.past
  authority_mem : s.authority ∈ s.past
  latest : ∀ a ∈ s.past, a.board.updatedAt.instant ≤ s.authority.board.updatedAt.instant
  queued : ∀ m ∈ s.queued, ∃ a ∈ s.past, m.1 = a.board
  announced : (∃ m ∈ s.queued, m.1.updatedAt = s.authority.board.updatedAt) ∨
    ∀ a ∈ s.past, a.board.updatedAt = s.authority.board.updatedAt
  version : ∀ b ∈ s.replica.board, ∃ a ∈ s.past, b.updatedAt = a.board.updatedAt
  applied : ∀ v ∈ s.applied, ∃ b ∈ s.replica.board, v.instant ≤ b.updatedAt.instant
  mirrored : s.replica.isStale = false → ∃ a ∈ s.past, Mirrors s.replica a s.members
  stale : ∀ attempts ∈ s.fetching, s.replica.isStale = true
  fetched : ∀ attempts ∈ s.fetching, ∀ responses ∈ attempts, ∀ response ∈ responses,
    Served lib s.recent response

end System

/-! ## One step -/

namespace System

variable {lib : Library F} {otherTexts : List Char → Option (Json F)} {site : Site}
  {s s' : System F channel guild}

theorem mem_recent {s : System F channel guild} {a : Authority F} :
    a ∈ s.recent ↔ a ∈ s.past ∧ ∀ b ∈ s.replica.board,
      b.updatedAt.instant ≤ a.board.updatedAt.instant ∧ ¬ Restamps b a.board := by
  rw [recent, List.mem_filter, decide_eq_true_eq]

theorem recent_mono (hpast : s.past ⊆ s'.past) (hreplica : s'.replica = s.replica) :
    s.recent ⊆ s'.recent := by
  intro b hb
  obtain ⟨hmem, hnewer⟩ := mem_recent.mp hb
  exact mem_recent.mpr ⟨hpast hmem, hreplica ▸ hnewer⟩

theorem coherent_init {fields : List TrackerField} {a : Authority F} (h : Sound lib fields a) :
    Coherent lib (init a) where
  history :=
    { sound := List.forall_mem_singleton.mpr ⟨fields, h⟩
      channel := List.forall_mem_singleton.mpr rfl
      guild := List.forall_mem_singleton.mpr rfl
      version := by
        intro b hb c hc _
        rw [List.mem_singleton.mp hb, List.mem_singleton.mp hc]
        exact SameRows.refl _ }
  authority_mem := List.mem_cons_self
  latest := List.forall_mem_singleton.mpr le_rfl
  queued := fun _ hm => absurd hm List.not_mem_nil
  announced := .inr (List.forall_mem_singleton.mpr rfl)
  version := fun _ hb => nomatch hb
  applied := fun _ hv => absurd hv List.not_mem_nil
  mirrored := fun hstale => nomatch hstale
  stale := fun _ ha => nomatch ha
  fetched := fun _ ha => nomatch ha

theorem Coherent.change (h : Coherent lib s) {a : Authority F} {reason : String}
    (hlegal : Legal lib s (.change a reason)) :
    Coherent lib { s with authority := a, past := a :: s.past
                          queued := s.queued ++ [(a.board, reason)] } := by
  obtain ⟨hsound, hchannel, hguild, hnewer, -⟩ := hlegal
  have hlater : ∀ b ∈ s.past, b.board.updatedAt.instant < a.board.updatedAt.instant :=
    fun b hb => (h.latest b hb).trans_lt hnewer
  exact
    { history := h.history.cons hsound hchannel hguild fun b hb heq =>
        absurd (hlater b hb) (heq ▸ lt_irrefl _)
      authority_mem := List.mem_cons_self
      latest := List.forall_mem_cons.mpr ⟨le_rfl, fun b hb => (hlater b hb).le⟩
      queued := by
        intro m hm
        rcases List.mem_append.mp hm with hm | hm
        · obtain ⟨b, hb, heq⟩ := h.queued m hm
          exact ⟨b, List.mem_cons_of_mem _ hb, heq⟩
        · exact ⟨a, List.mem_cons_self, List.mem_singleton.mp hm ▸ rfl⟩
      announced := .inl ⟨(a.board, reason), List.mem_append_right _ List.mem_cons_self, rfl⟩
      version := fun b hb => by
        obtain ⟨c, hc, heq⟩ := h.version b hb
        exact ⟨c, List.mem_cons_of_mem _ hc, heq⟩
      applied := h.applied
      mirrored := fun hfresh => by
        obtain ⟨c, hc, hmirrors⟩ := h.mirrored hfresh
        exact ⟨c, List.mem_cons_of_mem _ hc, hmirrors⟩
      stale := h.stale
      fetched := fun attempts ha responses hr response hresponse => by
        refine (h.fetched attempts ha responses hr response hresponse).mono ?_
        exact recent_mono (List.subset_cons_self _ _) rfl }

theorem Coherent.profiles (h : Coherent lib s) {users : List UserRow}
    (hlegal : Legal lib s (.profiles users)) :
    Coherent lib { s with authority := { s.authority with users }
                          past := { s.authority with users } :: s.past } := by
  have hrows : SameRows { s.authority with users } s.authority := ⟨rfl, rfl, rfl⟩
  have hversion : ∀ b ∈ s.past, s.authority.board.updatedAt = b.board.updatedAt →
      SameRows { s.authority with users } b := by
    intro b hb heq
    have hsame := h.history.version _ h.authority_mem b hb heq
    exact ⟨hsame.board, hsame.lanes, hsame.tasks⟩
  exact
    { history := h.history.cons hlegal
        (h.history.channel s.authority h.authority_mem)
        (h.history.guild s.authority h.authority_mem) hversion
      authority_mem := List.mem_cons_self
      latest := List.forall_mem_cons.mpr ⟨le_rfl, h.latest⟩
      queued := fun m hm => by
        obtain ⟨b, hb, heq⟩ := h.queued m hm
        exact ⟨b, List.mem_cons_of_mem _ hb, heq⟩
      announced := h.announced.imp_right fun hall => List.forall_mem_cons.mpr ⟨rfl, hall⟩
      version := fun b hb => by
        obtain ⟨c, hc, heq⟩ := h.version b hb
        exact ⟨c, List.mem_cons_of_mem _ hc, heq⟩
      applied := h.applied
      mirrored := fun hfresh => by
        obtain ⟨c, hc, hmirrors⟩ := h.mirrored hfresh
        exact ⟨c, List.mem_cons_of_mem _ hc, hmirrors⟩
      stale := h.stale
      fetched := fun attempts ha responses hr response hresponse => by
        refine (h.fetched attempts ha responses hr response hresponse).mono ?_
        exact recent_mono (List.subset_cons_self _ _) rfl }

/-- What a delivery can do. -/
theorem deliver_cases (h : Coherent lib s) {k : Nat} (hstep : s.deliver lib site k = some s') :
    s' = s ∨ s.fetching = none ∧ ∃ a ∈ s.past, ∃ i dispatch, i.version = a.board.updatedAt ∧
      s' = { s with replica := s.replica.invalidate i, applied := i.version :: s.applied
                    dispatches := [dispatch] } := by
  obtain ⟨_, hguard, hstep⟩ := Option.bind_eq_some_iff.mp hstep
  have hidle : s.fetching = none := by
    rw [Option.guard_eq_some'] at hguard
    exact Option.isNone_iff_eq_none.mp hguard
  obtain ⟨⟨board, reason⟩, hmessage, hstep⟩ := Option.bind_eq_some_iff.mp hstep
  obtain ⟨a, ha, rfl⟩ := h.queued _ (List.mem_of_getElem? hmessage)
  dsimp only at hstep
  split at hstep
  · exact .inl (Option.some.inj hstep).symm
  · rename_i i replica dispatch happlied
    obtain ⟨hversion, rfl⟩ := applyTrackerInvalidation_ok happlied
    exact .inr ⟨hidle, a, ha, i, dispatch, hversion, (Option.some.inj hstep).symm⟩

theorem Coherent.deliver (h : Coherent lib s) {k : Nat} (hstep : s.deliver lib site k = some s') :
    Coherent lib s' := by
  obtain rfl | ⟨hidle, a, ha, i, dispatch, hversion, rfl⟩ := deliver_cases h hstep
  · exact h
  obtain ⟨hgrown, hreached, hnamed⟩ := invalidatedBoard_version s.replica i
  refine { h with version := ?_, applied := ?_, mirrored := ?_, stale := ?_, fetched := ?_ }
  · intro b hb
    obtain rfl := Option.some.inj hb
    rcases hnamed with heq | ⟨c, hc, heq⟩
    · exact ⟨a, ha, heq.trans hversion⟩
    · obtain ⟨d, hd, hdeq⟩ := h.version c hc
      exact ⟨d, hd, heq.trans hdeq⟩
  · refine List.forall_mem_cons.mpr ⟨⟨_, rfl, hreached⟩, fun v hv => ?_⟩
    obtain ⟨b, hb, hle⟩ := h.applied v hv
    exact ⟨_, rfl, hle.trans (hgrown b hb)⟩
  · intro hfresh
    obtain ⟨hbefore, hboard, hlanes, htasks⟩ := invalidate_fresh hfresh
    obtain ⟨c, hc, hmirrors⟩ := h.mirrored hbefore
    exact ⟨c, hc, hboard.symm.trans hmirrors.board, hlanes.symm.trans hmirrors.lanes,
      htasks.symm.trans hmirrors.tasks⟩
  · intro attempts hattempts
    rw [hidle] at hattempts
    cases hattempts
  · intro attempts hattempts
    rw [hidle] at hattempts
    cases hattempts

/-- The present state is as new as the replica's board. -/
theorem Coherent.authority_recent (h : Coherent lib s)
    (hkept : ∀ b ∈ s.replica.board, ¬ Restamps b s.authority.board) : s.authority ∈ s.recent := by
  refine mem_recent.mpr ⟨h.authority_mem, fun b hb => ⟨?_, hkept b hb⟩⟩
  obtain ⟨a, ha, heq⟩ := h.version b hb
  rw [heq]
  exact h.latest a ha

theorem Coherent.request (h : Coherent lib s)
    (hkept : ∀ b ∈ s.replica.board, ¬ Restamps b s.authority.board)
    {attempts : List (List Response)}
    (hattempts : s.fetching = some attempts) {last : List Response}
    (hlast : attempts.getLast? = some last) (visit : Visit) (cursor : Option String) :
    Coherent lib { s with fetching := some (attempts.dropLast ++
      [last ++ [serve lib otherTexts s.authority visit cursor]]) } := by
  obtain ⟨fields, hsound⟩ := h.history.sound _ h.authority_mem
  have hfetched := h.fetched attempts hattempts
  refine { h with stale := fun _ _ => h.stale attempts hattempts, fetched := ?_ }
  intro attempts' hattempts' responses hresponses response hresponse
  obtain rfl := Option.some.inj hattempts'
  rcases List.mem_append.mp hresponses with hold | hnew
  · exact hfetched responses (List.mem_of_mem_dropLast hold) response hresponse
  · obtain rfl := List.mem_singleton.mp hnew
    rcases List.mem_append.mp hresponse with hold | hnew
    · exact hfetched last (List.mem_of_getLast? hlast) response hold
    · rw [List.mem_singleton.mp hnew]
      exact hsound.serve_served visit cursor (h.authority_recent hkept)

theorem Coherent.retry (h : Coherent lib s) {attempts : List (List Response)}
    (hattempts : s.fetching = some attempts) :
    Coherent lib { s with fetching := some (attempts ++ [[]]) } := by
  refine { h with stale := fun _ _ => h.stale attempts hattempts, fetched := ?_ }
  intro attempts' hattempts' responses hresponses response hresponse
  obtain rfl := Option.some.inj hattempts'
  rcases List.mem_append.mp hresponses with hold | hnew
  · exact h.fetched attempts hattempts responses hold response hresponse
  · rw [List.mem_singleton.mp hnew] at hresponse
    cases hresponse

/-- What the end of a hydration can do. -/
theorem finish_cases
    (hfloats : ∀ x, lib.fields.small x = true → lib.floats.Reads x) (h : Coherent lib s)
    {around : Surroundings} (hstep : s.finish lib site around = some s') :
    s' = { s with fetching := none } ∨ ∃ a ∈ s.recent, ∃ replica, Mirrors replica a around.members ∧
      s' = { s with replica, members := around.members, fetching := none } := by
  obtain ⟨attempts, hattempts, hstep⟩ := Option.bind_eq_some_iff.mp hstep
  split at hstep
  · exact .inl (Option.some.inj hstep).symm
  · rename_i users replica hhydrated
    have hrecent : s.recent ⊆ s.past := fun a ha => (mem_recent.mp ha).1
    obtain ⟨a, ha, hmirrors⟩ := hydrate_ok hfloats (h.history.mono hrecent)
      (h.fetched attempts hattempts) (fun a ha b hb => ((mem_recent.mp ha).2 b hb).2)
      (h.stale attempts hattempts) hhydrated
    exact .inr ⟨a, ha, replica, hmirrors, (Option.some.inj hstep).symm⟩

theorem Coherent.finish
    (hfloats : ∀ x, lib.fields.small x = true → lib.floats.Reads x) (h : Coherent lib s)
    {around : Surroundings} (hstep : s.finish lib site around = some s') : Coherent lib s' := by
  obtain rfl | ⟨a, ha, replica, hmirrors, rfl⟩ := finish_cases hfloats h hstep
  · exact { h with stale := (fun _ hnone => nomatch hnone)
                   fetched := (fun _ hnone => nomatch hnone) }
  obtain ⟨hpast, hnewer⟩ := mem_recent.mp ha
  refine { h with version := ?_, applied := ?_, mirrored := ?_, stale := ?_, fetched := ?_ }
  · intro b hb
    obtain rfl : a.board = b := Option.some.inj (hmirrors.board.symm.trans hb)
    exact ⟨a, hpast, rfl⟩
  · intro v hv
    obtain ⟨b, hb, hle⟩ := h.applied v hv
    exact ⟨a.board, hmirrors.board, hle.trans (hnewer b hb).1⟩
  · exact fun _ => ⟨a, hpast, hmirrors⟩
  · exact fun _ hnone => nomatch hnone
  · exact fun _ hnone => nomatch hnone

theorem coherent_step
    (hfloats : ∀ x, lib.fields.small x = true → lib.floats.Reads x) {e : SyncEvent F}
    (h : Coherent lib s) (hsteady : Steady lib s e)
    (hstep : step lib otherTexts site s e = some s') : Coherent lib s' := by
  obtain ⟨hlegal, hkept⟩ := hsteady
  cases e with
  | change a reason => exact Option.some.inj hstep ▸ h.change hlegal
  | profiles users => exact Option.some.inj hstep ▸ h.profiles hlegal
  | deliver k => exact h.deliver hstep
  | hydrate =>
    rw [step] at hstep
    split at hstep
    · rename_i hfree
      rw [← Option.some.inj hstep]
      refine { h with stale := fun _ _ => hfree.2, fetched := ?_ }
      intro attempts hattempts responses hresponses response hresponse
      obtain rfl := Option.some.inj hattempts
      rw [List.mem_singleton.mp hresponses] at hresponse
      cases hresponse
    · cases hstep
  | request visit cursor =>
    obtain ⟨attempts, hattempts, hstep⟩ := Option.bind_eq_some_iff.mp hstep
    obtain ⟨last, hlast, hstep⟩ := Option.bind_eq_some_iff.mp hstep
    exact Option.some.inj hstep ▸ h.request hkept hattempts hlast visit cursor
  | retry =>
    obtain ⟨attempts, hattempts, hstep⟩ := Option.bind_eq_some_iff.mp hstep
    exact Option.some.inj hstep ▸ h.retry hattempts
  | finish around => exact h.finish hfloats hstep

theorem step_hydrate (hidle : s.fetching = none) (hstale : s.replica.isStale = true) :
    step lib otherTexts site s .hydrate = some { s with fetching := some [[]] } := by
  rw [step, hidle, if_pos ⟨rfl, hstale⟩]

theorem finish_ok {attempts : List (List Response)} {around : Surroundings}
    {users : Users} {replica : Replica F channel guild} (hattempts : s.fetching = some attempts)
    (h : hydrateReplicatedTracker lib site.domain site.isTracker around s.replica attempts =
      .ok (users, replica)) :
    s.finish lib site around =
      some { s with replica, members := around.members, fetching := none } := by
  rw [finish, hattempts]
  dsimp only [Option.bind_eq_bind, Option.bind_some]
  rw [h]

theorem deliver_ok {fields : List TrackerField} {a : Authority F} (h : Sound lib fields a)
    (hchannel : a.board.channel = channel) (hguild : a.board.guild = guild) {k : Nat}
    {reason : String} (hreason : reason ∈ trackerInvalidationReasons)
    (hidle : s.fetching = none) (htracker : site.isTracker = true)
    (hmessage : s.queued[k]? = some (a.board, reason)) :
    ∃ dispatch, step lib otherTexts site s (.deliver k) =
      some { s with replica := s.replica.invalidate (a.board.invalidation reason)
                    applied := a.board.updatedAt :: s.applied, dispatches := [dispatch] } := by
  obtain ⟨dispatch, happlied⟩ := h.applyTrackerInvalidation_eq hchannel hguild hreason s.replica
  refine ⟨dispatch, ?_⟩
  change s.deliver lib site k = _
  rw [deliver, hidle, hmessage, htracker]
  dsimp only [Option.isNone_none, guard, Option.bind_eq_bind, Option.bind_some]
  rw [if_pos rfl]
  dsimp only [Option.pure_def, Option.bind_some]
  rw [happlied]
  rfl

/-! ## Runs -/

/-- No step takes the version of the replica's board down. -/
theorem version_step
    (hfloats : ∀ x, lib.fields.small x = true → lib.floats.Reads x) {e : SyncEvent F}
    (h : Coherent lib s) (hstep : step lib otherTexts site s e = some s') {b : BoardRow F}
    (hb : b ∈ s.replica.board) :
    ∃ b' ∈ s'.replica.board, b.updatedAt.instant ≤ b'.updatedAt.instant := by
  cases e with
  | change a reason => exact Option.some.inj hstep ▸ ⟨b, hb, le_rfl⟩
  | profiles users => exact Option.some.inj hstep ▸ ⟨b, hb, le_rfl⟩
  | deliver k =>
    obtain rfl | ⟨-, a, ha, i, dispatch, -, rfl⟩ := deliver_cases h hstep
    · exact ⟨b, hb, le_rfl⟩
    · exact ⟨_, rfl, (invalidatedBoard_version s.replica i).1 b hb⟩
  | hydrate =>
    rw [step] at hstep
    split at hstep
    · exact Option.some.inj hstep ▸ ⟨b, hb, le_rfl⟩
    · cases hstep
  | request visit cursor =>
    obtain ⟨attempts, -, hstep⟩ := Option.bind_eq_some_iff.mp hstep
    obtain ⟨last, -, hstep⟩ := Option.bind_eq_some_iff.mp hstep
    exact Option.some.inj hstep ▸ ⟨b, hb, le_rfl⟩
  | retry =>
    obtain ⟨attempts, -, hstep⟩ := Option.bind_eq_some_iff.mp hstep
    exact Option.some.inj hstep ▸ ⟨b, hb, le_rfl⟩
  | finish around =>
    obtain rfl | ⟨a, ha, replica, hmirrors, rfl⟩ := finish_cases hfloats h hstep
    · exact ⟨b, hb, le_rfl⟩
    · exact ⟨a.board, hmirrors.board, ((mem_recent.mp ha).2 b hb).1⟩

theorem version_run
    (hfloats : ∀ x, lib.fields.small x = true → lib.floats.Reads x) {events : List (SyncEvent F)}
    (hrun : Exec (step lib otherTexts site) (Steady lib) s events s') (h : Coherent lib s)
    {b : BoardRow F} (hb : b ∈ s.replica.board) :
    ∃ b' ∈ s'.replica.board, b.updatedAt.instant ≤ b'.updatedAt.instant := by
  have hinvariant : Coherent lib s' ∧
      ∃ b' ∈ s'.replica.board, b.updatedAt.instant ≤ b'.updatedAt.instant := by
    refine hrun.invariant (I := fun t => Coherent lib t ∧
      ∃ b' ∈ t.replica.board, b.updatedAt.instant ≤ b'.updatedAt.instant) ?_ ⟨h, b, hb, le_rfl⟩
    rintro t e t' ⟨ht, c, hc, hle⟩ hsteady hstep
    obtain ⟨d, hd, hle'⟩ := version_step hfloats ht hstep hc
    exact ⟨coherent_step hfloats ht hsteady hstep, d, hd, hle.trans hle'⟩
  exact hinvariant.2

/-- When all invalidations have been applied, a board that is not stale has
the rows of the authority. -/
theorem Coherent.settled (h : Coherent lib s) (hfresh : s.replica.isStale = false)
    (hall : ∀ m ∈ s.queued, m.1.updatedAt ∈ s.applied) :
    Mirrors s.replica s.authority s.members := by
  obtain ⟨a, ha, hmirrors⟩ := h.mirrored hfresh
  have hversion : a.board.updatedAt = s.authority.board.updatedAt := by
    rcases h.announced with ⟨m, hm, heq⟩ | hsame
    · obtain ⟨b, hb, hle⟩ := h.applied _ (hall m hm)
      obtain rfl : a.board = b := Option.some.inj (hmirrors.board.symm.trans hb)
      rw [heq] at hle
      exact CivilTime.eq_of_instant_eq (le_antisymm (h.latest a ha) hle)
    · exact hsame a ha
  have hrows := h.history.version a ha _ h.authority_mem hversion
  exact ⟨hmirrors.board.trans (congrArg some hrows.board), hmirrors.lanes.trans hrows.lanes,
    hmirrors.tasks.trans (congrArg _ hrows.tasks)⟩

theorem coherent_of_run
    (hfloats : ∀ x, lib.fields.small x = true → lib.floats.Reads x) {fields : List TrackerField}
    {a : Authority F} (ha : Sound lib fields a) {events : List (SyncEvent F)}
    {s : System F a.board.channel a.board.guild}
    (hrun : Exec (step lib otherTexts site) (Steady lib) (init a) events s) : Coherent lib s :=
  hrun.invariant (fun _ _ _ h hsteady hstep => coherent_step hfloats h hsteady hstep)
    (coherent_init ha)

/-- Any order of changes, invalidations and hydrations that stamp no board. -/
theorem coherent_run
    (hfloats : ∀ x, lib.fields.small x = true → lib.floats.Reads x) {fields : List TrackerField}
    {a : Authority F} (ha : Sound lib fields a) {events : List (SyncEvent F)}
    {s : System F a.board.channel a.board.guild}
    (hrun : Exec (step lib otherTexts site) (Steady lib) (init a) events s) :
    (∀ (later : List (SyncEvent F)) (s' : System F a.board.channel a.board.guild),
      Exec (step lib otherTexts site) (Steady lib) s later s' → ∀ b ∈ s.replica.board,
        ∃ b' ∈ s'.replica.board, b.updatedAt.instant ≤ b'.updatedAt.instant) ∧
      (s.replica.isStale = false → ∃ b ∈ s.past, Mirrors s.replica b s.members ∧
        ∀ v ∈ s.applied, v.instant ≤ b.board.updatedAt.instant) ∧
      (s.replica.isStale = false → (∀ m ∈ s.queued, m.1.updatedAt ∈ s.applied) →
        Mirrors s.replica s.authority s.members) := by
  have h := coherent_of_run hfloats ha hrun
  refine ⟨fun later s' hlater b hb => version_run hfloats hlater h hb, fun hfresh => ?_, h.settled⟩
  obtain ⟨b, hb, hmirrors⟩ := h.mirrored hfresh
  refine ⟨b, hb, hmirrors, fun v hv => ?_⟩
  obtain ⟨c, hc, hle⟩ := h.applied v hv
  obtain rfl : b.board = c := Option.some.inj (hmirrors.board.symm.trans hc)
  exact hle

end System

end

namespace System

/-! A board with one task, whose assignee is no member where it is replicated. -/

/-- The board with a title of its task, as it is from a time on. -/
def oneTask (title : String) (v : Nat) : Authority Unit :=
  pointsBoard (.int 1) title (boardTime v) 1

section

variable {title : String}

theorem oneTask_sound (htitle : Titled title) (v : Nat) :
    Sound oneFloat [pointsField] (oneTask title v) :=
  wholePoints_sound htitle (boardTime_le v) (by decide)

def replicaSite : Site := ⟨"b.example", true⟩

/-- A replica that knows no member of the guild, at a time of its own. -/
def atTime (now : Nat) : Surroundings where
  users := { localDomain := "b.example", remoteUsersPerIntroducer := 10 }
  aliases _ := []
  members := []
  admitted := .ok ()
  now := boardTime now

def noTexts (_ : List Char) : Option (Json Unit) := none

/-- The one page of the board. -/
def onePage (title : String) (v : Nat) : Response :=
  pageResponse oneFloat (pageTree oneFloat (oneTask title v) (oneTask title v).tasks false)

theorem oneTask_served (htitle : Titled title) (v : Nat) :
    serve oneFloat noTexts (oneTask title v) guildVisit none = onePage title v := by
  obtain ⟨taken, left, -, hjoin, -, hadvance, hserve⟩ :=
    @Sound.serve_eq Unit oneFloat noTexts _ _ (oneTask_sound htitle v) [] (oneTask title v).tasks
      rfl _ (guildVisit_passes title (boardTime v) 1)
  cases taken with
  | nil => exact absurd rfl (hadvance (List.cons_ne_nil _ _))
  | cons task rest =>
    obtain ⟨rfl, hnil⟩ := List.cons.inj hjoin
    obtain ⟨rfl, rfl⟩ := List.append_eq_nil_iff.mp hnil.symm
    exact hserve

theorem oneTask_profiles {v : Nat} {profiles : List RemoteUserProfile} {refs : List Ref}
    (hnames : Names (oneTask title v) profiles refs)
    (hprofiled : Profiled (oneTask title v) profiles) : profiles = [profileOf pointsUser] := by
  have hrefs : Authority.taskUsers (oneTask title v).tasks =
    [⟨40, "a.example"⟩, ⟨40, "a.example"⟩] := rfl
  have hall : ∀ p ∈ profiles, p = profileOf pointsUser := by
    intro p hp
    have href := (hnames.mem_profiles p.ref).mp (List.mem_map_of_mem hp)
    rw [hrefs] at href
    have hsame : p.ref = ⟨40, "a.example"⟩ := by simpa using href
    obtain ⟨user, -, hlookup, hp⟩ := hprofiled.rows p hp
    rw [hsame] at hlookup
    exact hp.trans (congrArg profileOf (Option.some.inj hlookup).symm)
  have hfirst : (⟨40, "a.example"⟩ : Ref) ∈ profiles.map RemoteUserProfile.ref :=
    (hnames.mem_profiles _).mpr List.mem_cons_self
  have hnodup := hprofiled.nodup
  match profiles with
  | [] => cases hfirst
  | [p] => rw [hall p List.mem_cons_self]
  | p :: q :: rest =>
    have hp := hall p List.mem_cons_self
    have hq := hall q (List.mem_cons_of_mem _ List.mem_cons_self)
    rw [hp, hq] at hnodup
    exact absurd List.mem_cons_self (List.nodup_cons.mp hnodup).1

theorem pointsUser_resolved (now : Nat) : ∃ users, resolveProfiles "a.example"
    (atTime now).aliases (atTime now).users [profileOf pointsUser] = .ok users := by
  have hresolved : (resolveProfiles "a.example" (fun _ => []) (atTime 0).users
      [profileOf pointsUser]).toOption.isSome = true := by decide
  obtain ⟨users, husers⟩ := Option.isSome_iff_exists.mp hresolved
  exact ⟨users, toOption_eq_some.mp husers⟩

/-- The fetch from the board, over what the replica has. -/
theorem oneTask_hydrated (htitle : Titled title) (v now : Nat)
    (replica : Replica Unit ⟨10, "a.example"⟩ ⟨1, "a.example"⟩) (hstale : replica.isStale = true) :
    ∃ users, hydrateReplicatedTracker oneFloat "b.example" true (atTime now) replica
        [[onePage title v]] =
      .ok (users, mirrorOver (a := oneTask title v) (boardTime now) replica []) := by
  have hsound := oneTask_sound htitle v
  have hdivision : Division (oneTask title v) [(oneTask title v).tasks] :=
    singly_division (List.cons_ne_nil _ _) (by change 1 ≤ 100; decide)
  have hbytes : WithinBytes oneFloat (pageTrees oneFloat (oneTask title v)
      [(oneTask title v).tasks]) :=
    pointsBoard_withinBytes one_short htitle (by decide) hdivision
  rcases hsound.fetch_spec (fun x _ => oneFloat_reads x) hdivision hbytes with
    ⟨-, profiles, refs, hnames, hprofiled, hfetch⟩ | ⟨⟨page, hpage, hrefused⟩, -⟩
  · obtain rfl := oneTask_profiles hnames hprofiled
    obtain ⟨users, husers⟩ := pointsUser_resolved now
    refine ⟨users, ?_⟩
    refine Eq.trans (ensure_bind (by decide)) ?_
    refine Eq.trans (ensure_bind rfl) ?_
    rw [if_pos hstale]
    refine Eq.trans (congrArg unavailable (bind_of_eq_ok (fetchTrackerSnapshot_first hfetch))) ?_
    have happly := hsound.apply_eq hnames (atTime now) replica
    exact congrArg unavailable (happly.trans ((bind_of_eq_ok husers).trans rfl))
  · exact absurd ((hsound.accepted_iff hdivision).mpr (pointsBoard_read hdivision) page hpage)
      hrefused

/-- A reader hydrates the board. -/
def hydration (now : Nat) : List (SyncEvent Unit) :=
  [.hydrate, .request guildVisit none, .finish (atTime now)]

variable {s : System Unit ⟨10, "a.example"⟩ ⟨1, "a.example"⟩} {v : Nat}
  {C : System Unit ⟨10, "a.example"⟩ ⟨1, "a.example"⟩ → SyncEvent Unit → Prop}

theorem hydration_run (now : Nat) (htitle : Titled title)
    (hauthority : s.authority = oneTask title v) (hidle : s.fetching = none)
    (hstale : s.replica.isStale = true)
    (hC : ∀ t, t.authority = s.authority → t.replica = s.replica → ∀ e ∈ hydration now, C t e) :
    Exec (step oneFloat noTexts replicaSite) C s (hydration now)
      { s with replica := mirrorOver (a := oneTask title v) (boardTime now) s.replica []
               members := [], fetching := none } := by
  obtain ⟨users, hhydrated⟩ := oneTask_hydrated htitle v now s.replica hstale
  have hrequest : step oneFloat noTexts replicaSite { s with fetching := some [[]] }
      (.request guildVisit none) = some { s with fetching := some [[onePage title v]] } := by
    rw [← oneTask_served htitle v, ← hauthority]
    rfl
  refine .cons (hC s rfl rfl _ List.mem_cons_self) (step_hydrate hidle hstale) ?_
  refine .cons (hC { s with fetching := some [[]] } rfl rfl _
    (List.mem_cons_of_mem _ List.mem_cons_self)) hrequest ?_
  refine .cons (hC { s with fetching := some [[onePage title v]] } rfl rfl _
    (List.mem_cons_of_mem _ (List.mem_cons_of_mem _ List.mem_cons_self))) ?_ (.nil _)
  exact @finish_ok Unit _ _ _ oneFloat replicaSite { s with fetching := some [[onePage title v]] }
    _ _ _ _ rfl hhydrated

theorem change_run (hC : C s (.change (oneTask title v) "task_updated")) :
    Exec (step oneFloat noTexts replicaSite) C s [.change (oneTask title v) "task_updated"]
      { s with authority := oneTask title v, past := oneTask title v :: s.past
               queued := s.queued ++ [((oneTask title v).board, "task_updated")] } :=
  .cons hC rfl (.nil _)

theorem deliver_run (htitle : Titled title) (hidle : s.fetching = none) {k : Nat}
    (hmessage : s.queued[k]? = some ((oneTask title v).board, "task_updated"))
    (hC : C s (.deliver k)) :
    ∃ dispatch, Exec (step oneFloat noTexts replicaSite) C s [.deliver k]
      { s with replica := s.replica.invalidate ((oneTask title v).board.invalidation "task_updated")
               applied := boardTime v :: s.applied, dispatches := [dispatch] } := by
  refine (deliver_ok (oneTask_sound htitle v) rfl rfl (by decide) hidle ?_ hmessage).imp
    fun dispatch hstep => .cons hC hstep (.nil _)
  rfl

theorem change_legal (htitle : Titled title)
    (hlater : s.authority.board.updatedAt.instant < (boardTime v).instant) :
    Legal oneFloat s (.change (oneTask title v) "task_updated") :=
  ⟨⟨_, oneTask_sound htitle v⟩, rfl, rfl, hlater, by decide⟩

theorem ship_titled : Titled "Ship" := ⟨plain_of_all (by decide), by decide, by decide⟩

/-- The board changes twice, and the invalidations arrive in the wrong order,
one of them after the next hydration. -/
def lateInvalidation : List (SyncEvent Unit) :=
  hydration 100 ++ ([.change (oneTask "Review" 7) "task_updated"] ++
    ([.change (oneTask "Ship" 9) "task_updated"] ++
      ([.deliver 1] ++ (hydration 200 ++ [.deliver 0]))))

theorem legal_hydration {now : Nat} :
    ∀ t, t.authority = s.authority → t.replica = s.replica → ∀ e ∈ hydration now,
      Legal oneFloat t e := by
  intro t _ _ e he
  simp only [hydration, List.mem_cons, List.not_mem_nil, or_false] at he
  rcases he with rfl | rfl | rfl <;> trivial

theorem steady_hydration {now : Nat}
    (hkept : ∀ b ∈ s.replica.board, ¬ Restamps b s.authority.board) :
    ∀ t, t.authority = s.authority → t.replica = s.replica → ∀ e ∈ hydration now,
      Steady oneFloat t e := by
  intro t hauthority hreplica e he
  refine ⟨legal_hydration t hauthority hreplica e he, ?_⟩
  rw [← hauthority, ← hreplica] at hkept
  simp only [hydration, List.mem_cons, List.not_mem_nil, or_false] at he
  rcases he with rfl | rfl | rfl
  · trivial
  · exact hkept
  · trivial

/-- The replica has the first state, and the board has changed twice since. -/
def changedTwice : System Unit ⟨10, "a.example"⟩ ⟨1, "a.example"⟩ :=
  { init (oneTask "Write" 5) with
    replica := mirror (oneTask "Write" 5) []
    authority := oneTask "Ship" 9
    past := [oneTask "Ship" 9, oneTask "Review" 7, oneTask "Write" 5]
    queued := [((oneTask "Review" 7).board, "task_updated"),
      ((oneTask "Ship" 9).board, "task_updated")] }

/-- The rows after the invalidation that comes first. -/
def announcedReplica : Replica Unit ⟨10, "a.example"⟩ ⟨1, "a.example"⟩ :=
  changedTwice.replica.invalidate ((oneTask "Ship" 9).board.invalidation "task_updated")

/-- The rows after the next hydration. -/
def hydratedReplica : Replica Unit ⟨10, "a.example"⟩ ⟨1, "a.example"⟩ :=
  mirrorOver (a := oneTask "Ship" 9) (boardTime 200) announcedReplica []

theorem changedTwice_run :
    Exec (step oneFloat noTexts replicaSite) (Steady oneFloat) (init (oneTask "Write" 5))
      (hydration 100 ++ ([.change (oneTask "Review" 7) "task_updated"] ++
        [.change (oneTask "Ship" 9) "task_updated"])) changedTwice := by
  refine (hydration_run 100 (s := init (oneTask "Write" 5)) write_titled rfl rfl rfl
    (steady_hydration fun b hb => absurd hb (Option.not_mem_none b))).append ?_
  exact (change_run ⟨change_legal review_titled (boardTime_lt (by decide)), trivial⟩).append
    (change_run ⟨change_legal ship_titled (boardTime_lt (by decide)), trivial⟩)

/-- The board changes twice, and the invalidations arrive in the wrong order,
one of them after the next hydration. -/
theorem coherent_run_late :
    ∃ s, Exec (step oneFloat noTexts replicaSite) (Steady oneFloat) (init (oneTask "Write" 5))
        lateInvalidation s ∧
      s.applied = [boardTime 7, boardTime 9] ∧ Mirrors s.replica s.authority s.members := by
  obtain ⟨dispatch, hannounced⟩ := deliver_run (s := changedTwice) (v := 9) (k := 1)
    (C := Steady oneFloat) ship_titled rfl rfl ⟨trivial, trivial⟩
  have hstale : announcedReplica.isStale = true := by decide
  have hkept : ∀ b ∈ announcedReplica.board, ¬ Restamps b (oneTask "Ship" 9).board := by
    intro b hb
    obtain rfl := Option.some.inj hb
    decide
  have hhydrated := hydration_run 200 (C := Steady oneFloat)
    (s := { changedTwice with replica := announcedReplica, applied := [boardTime 9]
                              dispatches := [dispatch] })
    ship_titled rfl rfl hstale (steady_hydration hkept)
  obtain ⟨dispatch', hlate⟩ := deliver_run (v := 7) (k := 0)
    (s := { changedTwice with replica := hydratedReplica, applied := [boardTime 9]
                              dispatches := [dispatch] })
    (C := Steady oneFloat) review_titled rfl rfl ⟨trivial, trivial⟩
  have hrun := changedTwice_run.append (hannounced.append (hhydrated.append hlate))
  have hfresh : (hydratedReplica.invalidate
      ((oneTask "Review" 7).board.invalidation "task_updated")).isStale = false := by decide
  refine ⟨_, hrun, rfl, (coherent_run (fun x _ => oneFloat_reads x)
    (oneTask_sound write_titled 5) hrun).2.2 hfresh ?_⟩
  exact List.forall_mem_cons.mpr ⟨List.mem_cons_self,
    List.forall_mem_singleton.mpr (List.mem_cons_of_mem _ List.mem_cons_self)⟩

/-- A fresh replica is told of a version and then fetches it. -/
def toldFirst : List (SyncEvent Unit) :=
  [.change (oneTask "Review" 7) "task_updated"] ++ ([.deliver 0] ++ (hydration 900 ++
    ([.change (oneTask "Ship" 9) "task_updated"] ++ [.deliver 1])))

/-- The board has changed once, and the replica has no board. -/
def changedOnce : System Unit ⟨10, "a.example"⟩ ⟨1, "a.example"⟩ :=
  { init (oneTask "Write" 5) with
    authority := oneTask "Review" 7
    past := [oneTask "Review" 7, oneTask "Write" 5]
    queued := [((oneTask "Review" 7).board, "task_updated")] }

/-- The rows that the invalidation makes. -/
def toldReplica : Replica Unit ⟨10, "a.example"⟩ ⟨1, "a.example"⟩ :=
  changedOnce.replica.invalidate ((oneTask "Review" 7).board.invalidation "task_updated")

/-- The rows that the fetch makes of them, with another version. -/
def stampedReplica : Replica Unit ⟨10, "a.example"⟩ ⟨1, "a.example"⟩ :=
  mirrorOver (a := oneTask "Review" 7) (boardTime 900) toldReplica []

theorem toldFirst_run :
    ∃ dispatches, Exec (step oneFloat noTexts replicaSite) (Legal oneFloat)
      (init (oneTask "Write" 5)) toldFirst
      { changedOnce with
        authority := oneTask "Ship" 9
        past := [oneTask "Ship" 9, oneTask "Review" 7, oneTask "Write" 5]
        queued := [((oneTask "Review" 7).board, "task_updated"),
          ((oneTask "Ship" 9).board, "task_updated")]
        replica := stampedReplica.invalidate ((oneTask "Ship" 9).board.invalidation "task_updated")
        applied := [boardTime 9, boardTime 7], dispatches } := by
  have hchanged : Exec (step oneFloat noTexts replicaSite) (Legal oneFloat)
      (init (oneTask "Write" 5)) [.change (oneTask "Review" 7) "task_updated"] changedOnce :=
    change_run (change_legal review_titled (boardTime_lt (by decide)))
  obtain ⟨dispatch, htold⟩ := deliver_run (s := changedOnce) (v := 7) (k := 0)
    (C := Legal oneFloat) review_titled rfl rfl trivial
  have hstale : toldReplica.isStale = true := by decide
  have hlater : (oneTask "Review" 7).board.updatedAt.instant < (boardTime 9).instant :=
    boardTime_lt (by decide)
  have hhydrated := hydration_run 900 (C := Legal oneFloat)
    (s := { changedOnce with replica := toldReplica, applied := [boardTime 7]
                             dispatches := [dispatch] })
    review_titled rfl rfl hstale legal_hydration
  have hagain := change_run (v := 9) (C := Legal oneFloat)
    (s := { changedOnce with replica := stampedReplica, applied := [boardTime 7]
                             dispatches := [dispatch] })
    (change_legal ship_titled hlater)
  obtain ⟨dispatch', hignored⟩ := deliver_run (v := 9) (k := 1)
    (s := { changedOnce with
            authority := oneTask "Ship" 9
            past := [oneTask "Ship" 9, oneTask "Review" 7, oneTask "Write" 5]
            queued := [((oneTask "Review" 7).board, "task_updated"),
              ((oneTask "Ship" 9).board, "task_updated")]
            replica := stampedReplica, applied := [boardTime 7], dispatches := [dispatch] })
    (C := Legal oneFloat) ship_titled rfl rfl trivial
  exact ⟨[dispatch'], hchanged.append (htold.append (hhydrated.append (hagain.append hignored)))⟩

/-- The time of the replica takes the place of the version, and hides the
next change. -/
theorem stamped_replica_falls_behind :
    ¬ ∀ (lib : Library Unit) (otherTexts : List Char → Option (Json Unit)) (site : Site)
        (fields : List TrackerField) (a : Authority Unit) (events : List (SyncEvent Unit))
        (s : System Unit a.board.channel a.board.guild),
      (∀ x, lib.fields.small x = true → lib.floats.Reads x) → Sound lib fields a →
        Exec (step lib otherTexts site) (Legal lib) (init a) events s →
          s.replica.isStale = false → (∀ m ∈ s.queued, m.1.updatedAt ∈ s.applied) →
            s.replica.tasks.map TaskRow.title = s.authority.tasks.map TaskRow.title := by
  intro h
  obtain ⟨dispatches, hrun⟩ := toldFirst_run
  have hfresh : (stampedReplica.invalidate
      ((oneTask "Ship" 9).board.invalidation "task_updated")).isStale = false := by decide
  have htitles : (stampedReplica.invalidate
      ((oneTask "Ship" 9).board.invalidation "task_updated")).tasks.map TaskRow.title ≠
        (oneTask "Ship" 9).tasks.map TaskRow.title := by decide
  refine htitles (h oneFloat noTexts replicaSite [pointsField] (oneTask "Write" 5) toldFirst _
    (fun x _ => oneFloat_reads x) (oneTask_sound write_titled 5) hrun hfresh ?_)
  exact List.forall_mem_cons.mpr ⟨List.mem_cons_of_mem _ List.mem_cons_self,
    List.forall_mem_singleton.mpr List.mem_cons_self⟩

/-- The tasks of a fresh board need not be those of the authority. -/
theorem assignee_not_replicated :
    ∃ s, Exec (step oneFloat noTexts replicaSite) (Steady oneFloat) (init (oneTask "Write" 5))
        (hydration 100) s ∧
      s.replica.isStale = false ∧ ∀ a ∈ s.past, s.replica.tasks ≠ a.tasks := by
  refine ⟨_, hydration_run _ (s := init (oneTask "Write" 5)) write_titled rfl rfl rfl
    (steady_hydration fun b hb => absurd hb (Option.not_mem_none b)), rfl,
    List.forall_mem_singleton.mpr fun htasks => ?_⟩
  have hassignees := congrArg (List.map TaskRow.assignee) htasks
  cases hassignees

end

end System

end TrackerSync

end Kaede
