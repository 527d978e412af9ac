import Kaede.Relationship

/-!
# Friendship needs the local user's consent

One home, its local users and a hostile network: any event content may
arrive at any time, in any order, between the local users' own calls. The
history records what the local user did about a pair, and what ended the
relation from either side.
-/

namespace Kaede

/-- What happened to the relation of a local user and a target. -/
inductive RelationshipAct where
  | requested (user target : UserRef)
  | accepted (user target : UserRef)
  | removed (user target : UserRef)
  | blocked (user target : UserRef)
  | unblocked (user target : UserRef)
  | peerRemoved (user target : UserRef)
deriving DecidableEq, Repr

namespace RelationshipAct

/-- The local user asked for, or agreed to, the relation. -/
def Consents (u v : UserRef) (a : RelationshipAct) : Prop :=
  a = .requested u v ∨ a = .accepted u v

/-- Either side ended the relation, or the block on it was lifted. -/
def Ends (u v : UserRef) (a : RelationshipAct) : Prop :=
  a = .removed u v ∨ a = .blocked u v ∨ a = .unblocked u v ∨ a = .peerRemoved u v

end RelationshipAct

/-- The local user consented, and nothing has ended the relation since; the
history is newest first. -/
def Consented (history : List RelationshipAct) (u v : UserRef) : Prop :=
  ∃ since a before, history = since ++ a :: before ∧ a.Consents u v ∧ ∀ e ∈ since, ¬ e.Ends u v

structure HomeRecord where
  home : Home
  history : List RelationshipAct

inductive HomeInput where
  | request (user target : UserRef) (fresh : Nat)
  | accept (user target : UserRef)
  | remove (user target : UserRef)
  | block (user target : UserRef)
  | unblock (user target : UserRef)
  | event (envelope : RelationshipEnvelope)
  | undeliverable (user target : UserRef) (requestId : Nat)
deriving DecidableEq, Repr

namespace HomeRecord

/-- Take over the result of a local call, if it succeeded. -/
def take (s : HomeRecord) (acts : List RelationshipAct) :
    Except RelationshipError (Home × List RelationshipEvent) → HomeRecord
  | .error _ => s
  | .ok (h, _) => { home := h, history := acts ++ s.history }

/-- One step of the home. Local calls are made by its own users; events and
delivery failures need not make sense. -/
def step (s : HomeRecord) : HomeInput → Option HomeRecord
  | .request u t fresh =>
      if u.domain ≠ s.home.domain then none
      else some (s.take [.requested u t] (s.home.requestFriendship u t fresh))
  | .accept u t =>
      if u.domain ≠ s.home.domain then none
      else some (s.take [.accepted u t] (s.home.acceptFriendship u t))
  | .remove u t =>
      if u.domain ≠ s.home.domain then none
      else some (s.take [.removed u t] (s.home.removeRelationship u t))
  | .block u t =>
      if u.domain ≠ s.home.domain then none
      else some (s.take [.blocked u t] (s.home.blockUser u t))
  | .unblock u t =>
      if u.domain ≠ s.home.domain then none
      else
        -- only a call that finds a block lifts one
        some (s.take (if s.home.row u t = some .blocked then [.unblocked u t] else [])
          (s.home.unblockUser u t))
  | .event e =>
      match s.home.applyRelationshipEvent e with
      | .error _ => some s
      | .ok (h, _) =>
          some { home := h
                 history :=
                   if e.event = .remove then .peerRemoved e.target e.actor :: s.history
                   else s.history }
  | .undeliverable u t r => some { s with home := s.home.reconcileRejection u t r }

end HomeRecord

/-! ## What an event can do to a row -/

/-- The row shows that its owner wants the relation. -/
def Wanted (row : Option Relation) : Prop :=
  row = some .friend ∨ ∃ r, row = some (.pendingOut r)

/-- No event turns an unwanted row into a wanted one, and a removal leaves
none. -/
theorem RelationshipEvent.apply_wanted {row : Option Relation} {e : RelationshipEvent}
    {a : RelationshipApplication} (h : e.apply row = .ok a) (ha : Wanted a.row) :
    Wanted row ∧ e ≠ .remove := by
  cases e with
  | request r =>
      refine ⟨?_, nofun⟩
      rcases r with _ | r
      · cases h
      · rcases row with _ | (_ | _ | r' | _)
        · obtain rfl := Except.ok.inj h
          rcases ha with ha | ⟨_, ha⟩ <;> cases ha
        · exact Or.inl rfl
        · obtain rfl := Except.ok.inj h
          rcases ha with ha | ⟨_, ha⟩ <;> cases ha
        · exact Or.inr ⟨r', rfl⟩
        · obtain rfl := Except.ok.inj h
          rcases ha with ha | ⟨_, ha⟩ <;> cases ha
  | accept r =>
      refine ⟨?_, nofun⟩
      rcases r with _ | r
      · cases h
      · simp only [apply] at h
        split at h
        · rename_i hm
          exact Or.inr ⟨some r, hm⟩
        · obtain rfl := Except.ok.inj h
          exact ha
  | remove =>
      exfalso
      rcases row with _ | (_ | _ | _ | _) <;> obtain rfl := Except.ok.inj h <;>
        rcases ha with ha | ⟨_, ha⟩ <;> cases ha
  | profile =>
      obtain rfl := Except.ok.inj h
      exact ⟨ha, nofun⟩

theorem RelationshipEvent.apply_blocked {e : RelationshipEvent} {a : RelationshipApplication}
    (h : e.apply (some .blocked) = .ok a) : a.row = some .blocked := by
  cases e with
  | request r => rcases r with _ | r <;> cases h; rfl
  | accept r =>
      rcases r with _ | r
      · cases h
      · simp only [apply, Relation.acceptanceMatches, Option.some.injEq, reduceCtorEq,
          if_false] at h
        obtain rfl := Except.ok.inj h
        rfl
  | remove => cases h; rfl
  | profile => cases h; rfl

namespace Home

variable {h h' : Home} {u v : UserRef}

theorem updateFrom_row {recipient actor : UserRef} {e : RelationshipEvent}
    {a : RelationshipApplication} (hok : h.updateFrom recipient actor e = .ok (h', a)) :
    h'.domain = h.domain
      ∧ (u = recipient ∧ v = actor → e.apply (h.row u v) = .ok a ∧ h'.row u v = a.row)
      ∧ (¬ (u = recipient ∧ v = actor) → h'.row u v = h.row u v) := by
  simp only [updateFrom] at hok
  split at hok
  · cases hok
  · split at hok
    · cases hok
    · rename_i b hb
      obtain ⟨rfl, rfl⟩ := Prod.mk.inj (Except.ok.inj hok)
      rw [row_addUser] at hb
      refine ⟨by rw [domain_setRow, domain_addUser], ?_, fun hk => ?_⟩
      · rintro ⟨rfl, rfl⟩
        exact ⟨hb, row_setRow_self _ _ _ _⟩
      · rw [row_setRow_ne _ hk, row_addUser]

/-- An event touches at most the row of its target and its actor, and there
it acts as `RelationshipEvent.apply` says. -/
theorem applyRelationshipEvent_row {e : RelationshipEnvelope} {a : RelationshipApplication}
    (hok : h.applyRelationshipEvent e = .ok (h', a)) :
    h'.domain = h.domain
      ∧ (u = e.target ∧ v = e.actor → e.event.apply (h.row u v) = .ok a ∧ h'.row u v = a.row)
      ∧ (¬ (u = e.target ∧ v = e.actor) → h'.row u v = h.row u v) := by
  unfold applyRelationshipEvent at hok
  split at hok
  · cases hok
  · split at hok
    · cases hok
    · split at hok
      · cases hok
      · split at hok
        · rename_i hev
          split at hok
          · cases hok
          · split at hok
            · cases hok
            · split at hok
              · cases hok
              · rename_i b hb
                obtain ⟨rfl, rfl⟩ := Prod.mk.inj (Except.ok.inj hok)
                refine ⟨rfl, ?_, fun _ => rfl⟩
                rintro ⟨rfl, rfl⟩
                rw [hev]
                refine ⟨hb, ?_⟩
                rw [← Except.ok.inj hb]
        · rename_i r hev
          split at hok
          · cases hok
          · split at hok
            · rw [hev]
              exact updateFrom_row hok
            · cases hok
        · split at hok
          · exact updateFrom_row hok
          · cases hok

/-- While a row is a block, no event changes it. -/
theorem applyRelationshipEvent_blocked {e : RelationshipEnvelope} {a : RelationshipApplication}
    (hok : h.applyRelationshipEvent e = .ok (h', a)) (hb : h.row u v = some .blocked) :
    h'.row u v = some .blocked := by
  obtain ⟨-, hself, hother⟩ := applyRelationshipEvent_row (u := u) (v := v) hok
  by_cases hk : u = e.target ∧ v = e.actor
  · obtain ⟨happ, hrow⟩ := hself hk
    rw [hb] at happ
    rw [hrow]
    exact RelationshipEvent.apply_blocked happ
  · rw [hother hk]
    exact hb

/-- Two updates of rows between local users leave a remote pair alone. -/
theorem row_setRow_local (hv : v.domain ≠ h.domain) {x y : UserRef} (hx : x.domain = h.domain)
    (hy : y.domain = h.domain) (r r' : Option Relation) :
    ((h.setRow x y r).setRow y x r').row u v = h.row u v := by
  rw [row_setRow_ne, row_setRow_ne]
  · rintro ⟨-, rfl⟩
    exact hv hy
  · rintro ⟨-, rfl⟩
    exact hv hx

theorem requestFriendship_row {x t : UserRef} {fresh : Nat} {es : List RelationshipEvent}
    (hok : h.requestFriendship x t fresh = .ok (h', es)) (hx : x.domain = h.domain)
    (hv : v.domain ≠ h.domain) :
    h'.domain = h.domain ∧ ((u = x ∧ v = t) ∨ h'.row u v = h.row u v) := by
  have hlocal : ∀ {r r' : Option Relation}, ¬ t.domain ≠ (h.addUser t).domain →
      (((h.addUser t).setRow x t r).setRow t x r').row u v = h.row u v := by
    intro r r' ht
    rw [domain_addUser] at ht
    rw [row_setRow_local (by rw [domain_addUser]; exact hv) (by rw [domain_addUser]; exact hx)
      (by rw [domain_addUser]; exact not_not.mp ht), row_addUser]
  simp only [requestFriendship] at hok
  split at hok
  · cases hok
  · split at hok
    · cases hok
    · split at hok
      · split at hok
        · cases hok
        · obtain ⟨rfl, -⟩ := Prod.mk.inj (Except.ok.inj hok)
          refine ⟨by rw [domain_setRow, domain_addUser], ?_⟩
          by_cases hk : u = x ∧ v = t
          · exact Or.inl hk
          · rw [row_setRow_ne _ hk, row_addUser]
            exact Or.inr rfl
      · rename_i ht
        split at hok
        · obtain ⟨rfl, -⟩ := Prod.mk.inj (Except.ok.inj hok)
          exact ⟨domain_addUser h t, Or.inr (row_addUser h t u v)⟩
        · obtain ⟨rfl, -⟩ := Prod.mk.inj (Except.ok.inj hok)
          exact ⟨domain_addUser h t, Or.inr (row_addUser h t u v)⟩
        · obtain ⟨rfl, -⟩ := Prod.mk.inj (Except.ok.inj hok)
          exact ⟨by rw [domain_setRow, domain_setRow, domain_addUser], Or.inr (hlocal ht)⟩
        · obtain ⟨rfl, -⟩ := Prod.mk.inj (Except.ok.inj hok)
          exact ⟨by rw [domain_setRow, domain_setRow, domain_addUser], Or.inr (hlocal ht)⟩
        · cases hok

theorem acceptFriendship_row {x t : UserRef} {es : List RelationshipEvent}
    (hok : h.acceptFriendship x t = .ok (h', es)) (hx : x.domain = h.domain)
    (hv : v.domain ≠ h.domain) :
    h'.domain = h.domain ∧ ((u = x ∧ v = t) ∨ h'.row u v = h.row u v) := by
  unfold acceptFriendship at hok
  split at hok
  · cases hok
  · split at hok
    · split at hok
      · cases hok
      · obtain ⟨rfl, -⟩ := Prod.mk.inj (Except.ok.inj hok)
        refine ⟨domain_setRow _ _ _ _, ?_⟩
        by_cases hk : u = x ∧ v = t
        · exact Or.inl hk
        · exact Or.inr (row_setRow_ne _ hk _)
    · rename_i ht
      split at hok
      · obtain ⟨rfl, -⟩ := Prod.mk.inj (Except.ok.inj hok)
        exact ⟨by rw [domain_setRow, domain_setRow],
          Or.inr (row_setRow_local hv hx (not_not.mp ht) _ _)⟩
      · cases hok

theorem unlessBlocked_not_wanted (row : Option Relation) :
    ¬ Wanted (Relation.unlessBlocked row) := by
  rintro (hw | ⟨r, hw⟩)
  all_goals
    unfold Relation.unlessBlocked at hw
    split at hw
    · rename_i hb
      rw [hb] at hw
      cases hw
    · cases hw

theorem removeRelationship_row {x t : UserRef} {es : List RelationshipEvent}
    (hok : h.removeRelationship x t = .ok (h', es)) (hx : x.domain = h.domain)
    (hv : v.domain ≠ h.domain) :
    h'.domain = h.domain ∧ (u = x ∧ v = t → ¬ Wanted (h'.row u v))
      ∧ (¬ (u = x ∧ v = t) → h'.row u v = h.row u v) := by
  simp only [removeRelationship] at hok
  split at hok
  · cases hok
  · split at hok
    · obtain ⟨rfl, -⟩ := Prod.mk.inj (Except.ok.inj hok)
      refine ⟨domain_setRow _ _ _ _, ?_, fun hk => row_setRow_ne _ hk _⟩
      rintro ⟨rfl, rfl⟩
      rw [row_setRow_self]
      exact unlessBlocked_not_wanted _
    · rename_i ht
      obtain ⟨rfl, -⟩ := Prod.mk.inj (Except.ok.inj hok)
      refine ⟨by rw [domain_setRow, domain_setRow], ?_,
        fun _ => row_setRow_local hv hx (not_not.mp ht) _ _⟩
      rintro ⟨-, rfl⟩
      exact absurd (not_not.mp ht) hv

theorem blockUser_row {x t : UserRef} {es : List RelationshipEvent}
    (hok : h.blockUser x t = .ok (h', es)) (hx : x.domain = h.domain)
    (hv : v.domain ≠ h.domain) :
    h'.domain = h.domain ∧ (u = x ∧ v = t → ¬ Wanted (h'.row u v))
      ∧ (¬ (u = x ∧ v = t) → h'.row u v = h.row u v) := by
  simp only [blockUser] at hok
  split at hok
  · cases hok
  · split at hok
    · cases hok
    · obtain ⟨rfl, -⟩ := Prod.mk.inj (Except.ok.inj hok)
      refine ⟨by rw [domain_setRow, domain_setRow], ?_, fun hk => ?_⟩
      · rintro ⟨rfl, rfl⟩
        rw [row_setRow_self]
        rintro (hw | ⟨r, hw⟩) <;> cases hw
      · rw [row_setRow_ne _ hk, row_setRow_ne]
        rintro ⟨-, rfl⟩
        exact hv hx

theorem unblockUser_row {x t : UserRef} {es : List RelationshipEvent}
    (hok : h.unblockUser x t = .ok (h', es)) :
    h'.domain = h.domain
      ∧ ((h.row u v = some .blocked ∧ u = x ∧ v = t ∧ h'.row u v = none)
        ∨ h'.row u v = h.row u v) := by
  simp only [unblockUser] at hok
  split at hok
  · cases hok
  · obtain ⟨rfl, -⟩ := Prod.mk.inj (Except.ok.inj hok)
    refine ⟨domain_setRow _ _ _ _, ?_⟩
    by_cases hk : u = x ∧ v = t
    · obtain ⟨rfl, rfl⟩ := hk
      rw [row_setRow_self]
      unfold Relation.unblocked
      split
      · rename_i hb
        exact Or.inl ⟨hb, rfl, rfl, rfl⟩
      · exact Or.inr rfl
    · exact Or.inr (row_setRow_ne _ hk _)

theorem reconcileRejection_row {x t : UserRef} {r : Nat} :
    (h.reconcileRejection x t r).domain = h.domain
      ∧ (Wanted ((h.reconcileRejection x t r).row u v) → Wanted (h.row u v)) := by
  unfold reconcileRejection
  split
  · refine ⟨domain_setRow _ _ _ _, fun hw => ?_⟩
    by_cases hk : u = x ∧ v = t
    · obtain ⟨rfl, rfl⟩ := hk
      rw [row_setRow_self] at hw
      rcases hw with hw | ⟨_, hw⟩ <;> cases hw
    · rw [row_setRow_ne _ hk] at hw
      exact hw
  · exact ⟨rfl, fun hw => hw⟩

end Home

/-! ## Whole runs -/

theorem Consented.cons {history : List RelationshipAct} {u v : UserRef} {a : RelationshipAct}
    (h : Consented history u v) (ha : ¬ a.Ends u v) : Consented (a :: history) u v := by
  obtain ⟨since, c, before, rfl, hc, hsince⟩ := h
  refine ⟨a :: since, c, before, rfl, hc, ?_⟩
  intro e he
  rcases List.mem_cons.mp he with rfl | he
  · exact ha
  · exact hsince e he

theorem Consented.now {history : List RelationshipAct} {u v : UserRef} {a : RelationshipAct}
    (ha : a.Consents u v) : Consented (a :: history) u v :=
  ⟨[], a, history, rfl, ha, fun _ he => nomatch he⟩

namespace HomeRecord

variable {s s' : HomeRecord} {u v : UserRef}

/-- A row that shows its owner's wish stands on the owner's consent. -/
structure Inv (domain : String) (u v : UserRef) (s : HomeRecord) : Prop where
  domain : s.home.domain = domain
  consented : Wanted (s.home.row u v) → Consented s.history u v

variable {d : String}

/-- A local call that may consent for its own pair and leaves every other
remote pair alone. -/
theorem take_consent (hs : s.Inv d u v) {x t : UserRef} {a : RelationshipAct}
    (ha : u = x → v = t → a.Consents u v) (hend : ¬ a.Ends u v)
    {res : Except RelationshipError (Home × List RelationshipEvent)}
    (hrow : ∀ h es, res = .ok (h, es) →
      h.domain = s.home.domain ∧ ((u = x ∧ v = t) ∨ h.row u v = s.home.row u v)) :
    (s.take [a] res).Inv d u v := by
  cases res with
  | error e => exact hs
  | ok r =>
      obtain ⟨h, es⟩ := r
      obtain ⟨hdom, hpair | hsame⟩ := hrow h es rfl
      · exact ⟨hdom.trans hs.domain, fun _ => Consented.now (ha hpair.1 hpair.2)⟩
      · refine ⟨hdom.trans hs.domain, fun hw => ?_⟩
        simp only [take] at hw
        rw [hsame] at hw
        exact (hs.consented hw).cons hend

/-- A local call that ends its own pair and leaves every other remote pair
alone. -/
theorem take_end (hs : s.Inv d u v) {x t : UserRef} {a : RelationshipAct}
    (hend : a.Ends u v → u = x ∧ v = t)
    {res : Except RelationshipError (Home × List RelationshipEvent)}
    (hrow : ∀ h es, res = .ok (h, es) → h.domain = s.home.domain
      ∧ (u = x ∧ v = t → ¬ Wanted (h.row u v))
      ∧ (¬ (u = x ∧ v = t) → h.row u v = s.home.row u v)) :
    (s.take [a] res).Inv d u v := by
  cases res with
  | error e => exact hs
  | ok r =>
      obtain ⟨h, es⟩ := r
      obtain ⟨hdom, hself, hother⟩ := hrow h es rfl
      refine ⟨hdom.trans hs.domain, fun hw => ?_⟩
      simp only [take] at hw
      by_cases hk : u = x ∧ v = t
      · exact absurd hw (hself hk)
      · rw [hother hk] at hw
        exact (hs.consented hw).cons fun he => hk (hend he)

theorem unblock_inv (hs : s.Inv d u v) (x t : UserRef) :
    (s.take (if s.home.row x t = some .blocked then [.unblocked x t] else [])
      (s.home.unblockUser x t)).Inv d u v := by
  cases hres : s.home.unblockUser x t with
  | error e => exact hs
  | ok r =>
      obtain ⟨h, es⟩ := r
      obtain ⟨hdom, ⟨-, -, -, hnone⟩ | hsame⟩ := Home.unblockUser_row (u := u) (v := v) hres
      · refine ⟨hdom.trans hs.domain, fun hw => ?_⟩
        simp only [take, hnone] at hw
        rcases hw with hw | ⟨_, hw⟩ <;> cases hw
      · refine ⟨hdom.trans hs.domain, fun hw => ?_⟩
        simp only [take] at hw ⊢
        rw [hsame] at hw
        split
        · -- the lifted block belongs to another pair, since this row is wanted
          rename_i hb
          refine (hs.consented hw).cons ?_
          rintro (he | he | he | he) <;> cases he
          rw [hb] at hw
          rcases hw with hw | ⟨_, hw⟩ <;> cases hw
        · exact hs.consented hw

theorem event_inv (hs : s.Inv d u v) {e : RelationshipEnvelope}
    (h : s.step (.event e) = some s') : s'.Inv d u v := by
  simp only [step] at h
  split at h
  · obtain rfl := Option.some.inj h
    exact hs
  · rename_i home a hok
    obtain rfl := Option.some.inj h
    obtain ⟨hdom, hself, hother⟩ := Home.applyRelationshipEvent_row (u := u) (v := v) hok
    refine ⟨hdom.trans hs.domain, fun hw => ?_⟩
    simp only at hw ⊢
    by_cases hk : u = e.target ∧ v = e.actor
    · obtain ⟨happ, hrow⟩ := hself hk
      rw [hrow] at hw
      obtain ⟨hold, hne⟩ := RelationshipEvent.apply_wanted happ hw
      rw [if_neg hne]
      exact hs.consented hold
    · rw [hother hk] at hw
      split
      · refine (hs.consented hw).cons ?_
        rintro (he | he | he | he) <;> cases he
        exact hk ⟨rfl, rfl⟩
      · exact hs.consented hw

theorem step_inv (hs : s.Inv d u v) (hv : v.domain ≠ d) {i : HomeInput}
    (h : s.step i = some s') : s'.Inv d u v := by
  have hv' : v.domain ≠ s.home.domain := by rw [hs.domain]; exact hv
  cases i with
  | request x t fresh =>
      simp only [step] at h
      split at h
      · cases h
      · rename_i hx
        obtain rfl := Option.some.inj h
        refine take_consent hs (x := x) (t := t) ?_ ?_ fun h' es hok =>
          Home.requestFriendship_row hok (not_not.mp hx) hv'
        · rintro rfl rfl
          exact Or.inl rfl
        · rintro (he | he | he | he) <;> cases he
  | accept x t =>
      simp only [step] at h
      split at h
      · cases h
      · rename_i hx
        obtain rfl := Option.some.inj h
        refine take_consent hs (x := x) (t := t) ?_ ?_ fun h' es hok =>
          Home.acceptFriendship_row hok (not_not.mp hx) hv'
        · rintro rfl rfl
          exact Or.inr rfl
        · rintro (he | he | he | he) <;> cases he
  | remove x t =>
      simp only [step] at h
      split at h
      · cases h
      · rename_i hx
        obtain rfl := Option.some.inj h
        refine take_end hs ?_ fun h' es hok => Home.removeRelationship_row hok (not_not.mp hx) hv'
        rintro (he | he | he | he) <;> cases he
        exact ⟨rfl, rfl⟩
  | block x t =>
      simp only [step] at h
      split at h
      · cases h
      · rename_i hx
        obtain rfl := Option.some.inj h
        refine take_end hs ?_ fun h' es hok => Home.blockUser_row hok (not_not.mp hx) hv'
        rintro (he | he | he | he) <;> cases he
        exact ⟨rfl, rfl⟩
  | unblock x t =>
      simp only [step] at h
      split at h
      · cases h
      · obtain rfl := Option.some.inj h
        exact unblock_inv hs x t
  | event e => exact event_inv hs h
  | undeliverable x t r =>
      obtain rfl := Option.some.inj h
      obtain ⟨hdom, hw⟩ := Home.reconcileRejection_row (h := s.home) (u := u) (v := v) (x := x)
        (t := t) (r := r)
      exact ⟨hdom.trans hs.domain, fun hw' => hs.consented (hw hw')⟩

/-- **No friendship without consent, and no way around a block.** Whatever a
remote home sends, a local user's relation to a remote user is `friend`
only if the local user requested or accepted it after it last ended; and a
blocked row stays as it is under every event. -/
theorem friend_needs_consent {h₀ : Home} {u v : UserRef} (hv : v.domain ≠ h₀.domain)
    (h₀row : h₀.row u v = none) {is : List HomeInput} {s : HomeRecord}
    (hrun : Exec step Always ⟨h₀, []⟩ is s) :
    (s.home.row u v = some .friend → Consented s.history u v)
      ∧ (s.home.row u v = some .blocked → ∀ e h a,
          s.home.applyRelationshipEvent e = .ok (h, a) → h.row u v = some .blocked) := by
  have hinit : Inv h₀.domain u v ⟨h₀, []⟩ := by
    refine ⟨rfl, fun hw => ?_⟩
    simp only [h₀row] at hw
    rcases hw with hw | ⟨_, hw⟩ <;> cases hw
  have hinv : s.Inv h₀.domain u v :=
    hrun.invariant (fun _ _ _ hs _ h => step_inv hs hv h) hinit
  refine ⟨fun hf => hinv.consented (Or.inl hf), fun hb e h a hok => ?_⟩
  exact Home.applyRelationshipEvent_blocked hok hb

/-- A home with one local user and nothing stored yet. -/
def sampleHome : Home :=
  { domain := "a.example"
    limits := { perRecipient := 1000, perRecipientOrigin := 100, perOrigin := 10000 }
    users := [⟨1, "a.example"⟩]
    rows := ∅ }

def sampleEnvelope (event : RelationshipEvent) : RelationshipEnvelope :=
  { actor := ⟨2, "b.example"⟩, contentActor := ⟨2, "b.example"⟩, target := ⟨1, "a.example"⟩
    event := event, actorAccepted := true }

/-- A forged acceptance does nothing; a request that the local user accepts
makes a friend. -/
theorem friend_needs_consent_sample :
    ∃ s, Exec step Always ⟨sampleHome, []⟩
        [.event (sampleEnvelope (.accept (some 7))), .event (sampleEnvelope (.request (some 8))),
          .accept ⟨1, "a.example"⟩ ⟨2, "b.example"⟩] s
      ∧ s.home.row ⟨1, "a.example"⟩ ⟨2, "b.example"⟩ = some .friend
      ∧ Consented s.history ⟨1, "a.example"⟩ ⟨2, "b.example"⟩ := by
  have hsome : (runFrom step Always ⟨sampleHome, []⟩
      [.event (sampleEnvelope (.accept (some 7))), .event (sampleEnvelope (.request (some 8))),
        .accept ⟨1, "a.example"⟩ ⟨2, "b.example"⟩]).map
          (fun s => s.home.row ⟨1, "a.example"⟩ ⟨2, "b.example"⟩)
      = some (some .friend) := by decide +kernel
  obtain ⟨s, hrun, hrow⟩ := Option.map_eq_some_iff.mp hsome
  have hexec := Exec.of_runFrom hrun
  exact ⟨s, hexec, hrow, (friend_needs_consent (by decide) (by decide +kernel) hexec).1 hrow⟩

end HomeRecord

end Kaede
