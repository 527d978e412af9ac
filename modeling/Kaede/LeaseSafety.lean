import Kaede.LeaseProtocol

/-!
# No two processes return the same identifier

Every identifier comes from a wall-clock reading, and a confirmed renewal
stands behind it. The invariant dates both against the history of
successful claims: a process reads the clock at least one TTL after its
own claims (it slept through the quarantine first), and a renewal answered
`1` shows that no other process had claimed the worker when the renewal
was sent. Two processes on one worker therefore took their readings at
least one TTL apart.
-/

namespace Kaede

namespace Generator

/-! ## Where a candidate comes from -/

/-- The millisecond a call would return if its renewal is confirmed. -/
def candidate (g : Generator) : Option Int :=
  match g.pc with
  | .ownership nowMs => some nowMs
  | .renewing nowMs _ => some nowMs
  | _ => none

/-- Every millisecond the generator could still return satisfies `P`. -/
structure Sourced (P : Int → Prop) (g : Generator) : Prop where
  last : epochMs ≤ g.lastMs → P g.lastMs
  candidate : ∀ ms, g.candidate = some ms → P ms

section

variable {P : Int → Prop} {g g' : Generator} {mono : Nat} {o : MintOutcome}

theorem Sourced.of_no_candidate (hg : g.Sourced P) (hlast : g'.lastMs = g.lastMs)
    (hpc : g'.candidate = none) : g'.Sourced P where
  last := by rw [hlast]; exact hg.last
  candidate := by intro ms hms; rw [hpc] at hms; cases hms

theorem present_sourced {nowMs : Int} (h : g.present nowMs mono = (g', o))
    (hlast : epochMs ≤ g.lastMs → P g.lastMs) (hnow : epochMs ≤ nowMs → P nowMs) :
    g'.Sourced P := by
  rcases present_cases h with ⟨-, rfl, -⟩ | ⟨-, rfl, -⟩ | ⟨rfl, -⟩ | ⟨hepoch, rfl, -⟩
  · exact ⟨hlast, fun _ hms => nomatch hms⟩
  · exact ⟨hlast, fun _ hms => nomatch hms⟩
  · exact ⟨hlast, fun _ hms => nomatch hms⟩
  · refine ⟨hlast, fun ms hms => ?_⟩
    obtain rfl := Option.some.inj hms
    exact hnow hepoch

theorem rolloverWait_sourced {d : Nat} (h : g.rolloverWait d mono = (g', o))
    (hlast : epochMs ≤ g.lastMs → P g.lastMs) : g'.Sourced P := by
  rcases rolloverWait_cases h with ⟨rfl, -⟩ | ⟨rfl, -⟩ | ⟨rfl, -⟩ <;>
    exact ⟨hlast, fun _ hms => nomatch hms⟩

theorem sequenceFor_sourced {nowMs : Int} (h : g.sequenceFor nowMs mono = (g', o))
    (hlast : epochMs ≤ g.lastMs → P g.lastMs) (hnow : epochMs ≤ nowMs → P nowMs) :
    g'.Sourced P := by
  unfold sequenceFor at h
  split at h
  · simp only at h
    split at h
    · exact rolloverWait_sourced h hlast
    · exact present_sourced h hlast hnow
  · exact present_sourced h hlast hnow

end

theorem step_sourced {P : Int → Prop} {g g' : Generator} {i : MintInput} {o : MintOutcome}
    (h : g.step i = some (g', o)) (hg : g.Sourced P) (hread : ∀ ms, g.reads i = some ms → P ms) :
    g'.Sourced P := by
  cases i with
  | call mono clockMs =>
      cases hpc : g.pc <;> simp only [step, hpc, Option.some.injEq, reduceCtorEq] at h
      unfold start at h
      split at h
      · obtain ⟨rfl, -⟩ := Prod.mk.inj h
        exact hg.of_no_candidate rfl rfl
      · rename_i l hv
        have hclock : P clockMs := hread clockMs (by simp [reads, hv])
        simp only at h
        split at h
        · split at h
          · obtain ⟨rfl, -⟩ := Prod.mk.inj h
            exact hg.of_no_candidate rfl rfl
          · obtain ⟨rfl, -⟩ := Prod.mk.inj h
            exact hg.of_no_candidate rfl rfl
        · exact sequenceFor_sourced h hg.last fun _ => hclock
  | wake mono clockMs =>
      cases hpc : g.pc <;> simp only [step, hpc, Option.some.injEq, reduceCtorEq] at h
      refine sequenceFor_sourced h hg.last fun hepoch => ?_
      -- the larger of the fresh reading and `_last_ms`
      rcases Int.le_total clockMs g.lastMs with hc | hc
      · rw [Int.max_eq_right hc] at hepoch ⊢
        exact hg.last hepoch
      · rw [Int.max_eq_left hc]
        exact hread clockMs rfl
  | tick mono clockMs =>
      cases hpc : g.pc <;> simp only [step, hpc, reduceCtorEq] at h
      split at h
      · exact rolloverWait_sourced (Option.some.inj h) hg.last
      · exact present_sourced (Option.some.inj h) hg.last fun _ => hread clockMs rfl
  | locked mono =>
      cases hpc : g.pc <;> simp only [step, hpc, reduceCtorEq] at h
      split at h
      · obtain ⟨rfl, -⟩ := Prod.mk.inj (Option.some.inj h)
        exact hg.of_no_candidate rfl rfl
      · obtain ⟨rfl, -⟩ := Prod.mk.inj (Option.some.inj h)
        refine ⟨hg.last, fun ms hms => hg.candidate ms ?_⟩
        simpa [candidate, hpc] using hms
  | replied mono reply =>
      cases hpc : g.pc <;> simp only [step, hpc, reduceCtorEq] at h
      split at h
      · obtain ⟨rfl, -⟩ := Prod.mk.inj (Option.some.inj h)
        exact hg.of_no_candidate rfl rfl
      · obtain ⟨rfl, -⟩ := Prod.mk.inj (Option.some.inj h)
        refine ⟨fun _ => hg.candidate _ (by simp [candidate, hpc]), fun _ hms => ?_⟩
        cases hms
  | cancel =>
      cases hpc : g.pc <;>
        simp only [step, hpc, Option.some.injEq, Prod.mk.injEq, reduceCtorEq] at h <;>
        obtain ⟨rfl, -⟩ := h <;> exact hg.of_no_candidate rfl rfl
  | heartbeatRenewed validUntil =>
      obtain ⟨rfl, -⟩ := Prod.mk.inj (Option.some.inj h)
      exact ⟨hg.last, hg.candidate⟩
  | heartbeatLost =>
      obtain ⟨rfl, -⟩ := Prod.mk.inj (Option.some.inj h)
      exact ⟨hg.last, hg.candidate⟩

end Generator

/-! ## The invariant -/

/-- `p` made the latest claim on `w`. -/
def Newest (claims : List Claim) (w p : Nat) : Prop :=
  ∃ newer c older, claims = newer ++ ⟨w, p, c⟩ :: older ∧ ∀ x ∈ newer, x.worker ≠ w

/-- Since `p` claimed `w` at time `c`, nobody claimed it before time `t`. -/
def Fenced (claims : List Claim) (w p c t : Nat) : Prop :=
  ∃ newer older, claims = newer ++ ⟨w, p, c⟩ :: older ∧ ∀ x ∈ newer, x.worker = w → t ≤ x.time

theorem Newest.fenced {claims : List Claim} {w p : Nat} (h : Newest claims w p) (t : Nat) :
    ∃ c, Fenced claims w p c t := by
  obtain ⟨newer, c, older, heq, hnewer⟩ := h
  exact ⟨c, newer, older, heq, fun x hx hw => absurd hw (hnewer x hx)⟩

theorem Newest.cons_self {claims : List Claim} {w p t : Nat} :
    Newest (⟨w, p, t⟩ :: claims) w p :=
  ⟨[], t, claims, rfl, fun _ hx => nomatch hx⟩

theorem Newest.cons_ne {claims : List Claim} {x : Claim} {w p : Nat} (h : Newest claims w p)
    (hx : x.worker ≠ w) : Newest (x :: claims) w p := by
  obtain ⟨newer, c, older, rfl, hnewer⟩ := h
  refine ⟨x :: newer, c, older, rfl, ?_⟩
  intro y hy
  rcases List.mem_cons.mp hy with rfl | hy
  · exact hx
  · exact hnewer y hy

theorem Fenced.mem {claims : List Claim} {w p c t : Nat} (h : Fenced claims w p c t) :
    ⟨w, p, c⟩ ∈ claims := by
  obtain ⟨newer, older, rfl, -⟩ := h
  simp

theorem Fenced.cons {claims : List Claim} {x : Claim} {w p c t : Nat}
    (h : Fenced claims w p c t) (hx : t ≤ x.time) : Fenced (x :: claims) w p c t := by
  obtain ⟨newer, older, rfl, hnewer⟩ := h
  refine ⟨x :: newer, older, rfl, ?_⟩
  intro y hy hw
  rcases List.mem_cons.mp hy with rfl | hy
  · exact hx
  · exact hnewer y hy hw

theorem Fenced.mono {claims : List Claim} {w p c t t' : Nat} (h : Fenced claims w p c t)
    (ht : t' ≤ t) : Fenced claims w p c t' := by
  obtain ⟨newer, older, heq, hnewer⟩ := h
  exact ⟨newer, older, heq, fun x hx hw => Nat.le_trans ht (hnewer x hx hw)⟩

/-- Of two processes fenced on one worker, the one that claimed it later
did so after the time up to which the other is fenced. -/
theorem Fenced.ordered {claims : List Claim} {w p q c c' t t' : Nat} (hpq : p ≠ q)
    (hp : Fenced claims w p c t) (hq : Fenced claims w q c' t') : t ≤ c' ∨ t' ≤ c := by
  obtain ⟨np, op, heqp, hnp⟩ := hp
  obtain ⟨nq, oq, heqq, hnq⟩ := hq
  rcases List.append_eq_append_iff.mp (heqp.symm.trans heqq) with ⟨d, hd, hd'⟩ | ⟨d, hd, hd'⟩
  · cases d with
    | nil =>
        obtain ⟨h, -⟩ := List.cons.inj hd'
        exact absurd (Claim.mk.inj h).2.1 hpq
    | cons x d =>
        obtain ⟨rfl, -⟩ := List.cons.inj hd'
        have hmem : (⟨w, p, c⟩ : Claim) ∈ nq := by rw [hd]; simp
        exact Or.inr (hnq _ hmem rfl)
  · cases d with
    | nil =>
        obtain ⟨h, -⟩ := List.cons.inj hd'
        exact absurd (Claim.mk.inj h).2.1.symm hpq
    | cons x d =>
        obtain ⟨rfl, -⟩ := List.cons.inj hd'
        have hmem : (⟨w, q, c'⟩ : Claim) ∈ np := by rw [hd]; simp
        exact Or.inl (hnp _ hmem rfl)

namespace Cluster

/-- Every claim of `p` is at least one TTL older than `t`. -/
def Aged (ttl : Nat) (s : Cluster) (p t : Nat) : Prop :=
  ∀ c ∈ s.claims, c.owner = p → c.time + ttl ≤ t

/-- `p` took the reading `ms` at time `t`, past its quarantine. -/
structure ReadBy (ttl : Nat) (s : Cluster) (p : Nat) (ms : Int) (t : Nat) : Prop where
  reading : ⟨t, ms⟩ ∈ s.readings
  aged : s.Aged ttl p t
  past : t ≤ s.now

/-- Request `k` is a `SET NX` of `p` that the store has not run yet. -/
def PendingSet (s : Cluster) (p k : Nat) : Prop :=
  ∃ r, s.requests[k]? = some r ∧ r.owner = p ∧ r.command = .setNx ∧ r.reply = none

structure ServerOK (ttl : Nat) (s : Cluster) (p : Nat) (v : Server) : Prop where
  worker : v.gen.lease.workerId ≤ maxWorkerId
  aged : s.Aged ttl p s.now
  candidate : v.gen.CandidateOK
  sourced : v.gen.Sourced fun ms => ∃ t, s.ReadBy ttl p ms t
  awaiting : ∀ nowMs requestedAt, v.gen.pc = .renewing nowMs requestedAt →
    ∃ t r, s.ReadBy ttl p nowMs t ∧ s.requests[v.renewal]? = some r ∧ r.owner = p
      ∧ r.worker = v.gen.lease.workerId ∧ r.command = .renew ∧ t ≤ r.sentAt

/-- What holds of process `p` at each stage. Only a process inside the
loop of `acquire` has a `SET NX` outstanding, and only one. -/
def ProcOK (ttl : Nat) (s : Cluster) (p : Nat) : Process → Prop
  | .idle => ∀ k, ¬ s.PendingSet p k
  | .setting worker request => worker ≤ maxWorkerId ∧ ∀ k, s.PendingSet p k → k = request
  | .quarantine worker wakeAt =>
      worker ≤ maxWorkerId ∧ (∀ k, ¬ s.PendingSet p k) ∧ s.Aged ttl p wakeAt
  | .activating worker _ _ =>
      worker ≤ maxWorkerId ∧ (∀ k, ¬ s.PendingSet p k) ∧ s.Aged ttl p s.now
  | .serving v => (∀ k, ¬ s.PendingSet p k) ∧ s.ServerOK ttl p v
  | .failed => True

/-- Behind an identifier stand a worker, a reading past the quarantine and
a renewal that fenced the worker up to that reading. -/
def IssuedOK (ttl : Nat) (s : Cluster) (x : Issued) : Prop :=
  ∃ (ms : Int) (w q t : Nat), epochMs ≤ ms ∧ w ≤ maxWorkerId ∧ q ≤ maxSequence
    ∧ x.id = snowflake (ms - epochMs).toNat w q ∧ ⟨t, ms⟩ ∈ s.readings ∧ t ≤ s.now
    ∧ ∃ c, Fenced s.claims w x.owner c t ∧ c + ttl ≤ t

structure Inv (ttl : Nat) (s : Cluster) : Prop where
  claimed : ∀ c ∈ s.claims, c.time ≤ s.now
  sent : ∀ r ∈ s.requests, r.sentAt ≤ s.now
  newest : ∀ w e, s.store w = some e → Newest s.claims w e.value.owner
  renewed : ∀ r ∈ s.requests, r.command = .renew → r.reply = some 1 →
    ∃ c, Fenced s.claims r.worker r.owner c r.sentAt
  procs : ∀ p, s.ProcOK ttl p (s.procs p)
  issued : ∀ x ∈ s.issued, s.IssuedOK ttl x

theorem inv_init {ttl : Nat} : Inv ttl init where
  claimed := fun _ hc => nomatch hc
  sent := fun _ hr => nomatch hr
  newest := fun _ _ he => nomatch he
  renewed := fun _ hr => nomatch hr
  procs := by
    rintro p k ⟨r, hr, -⟩
    simp [init] at hr
  issued := fun _ hx => nomatch hx

/-! ## Frame lemmas -/

/-- Later states know everything earlier ones knew: time moves on, readings
stay, and requests keep what was sent. -/
structure Grows (s s' : Cluster) : Prop where
  now : s.now ≤ s'.now
  readings : ∀ x ∈ s.readings, x ∈ s'.readings
  requests : ∀ (k : Nat) (r : Request), s.requests[k]? = some r →
    ∃ r' : Request, s'.requests[k]? = some r'
    ∧ r'.owner = r.owner ∧ r'.worker = r.worker ∧ r'.command = r.command ∧ r'.sentAt = r.sentAt

/-- Nothing new about `p`: no claim of its own, no new `SET NX`. -/
structure Quiet (s s' : Cluster) (p : Nat) : Prop where
  claims : ∀ c ∈ s'.claims, c.owner = p → c ∈ s.claims
  pending : ∀ k, s'.PendingSet p k → s.PendingSet p k

variable {ttl : Nat} {s s' : Cluster} {p : Nat}

theorem Aged.mono {t t' : Nat} (h : s.Aged ttl p t) (hq : Quiet s s' p) (ht : t ≤ t') :
    s'.Aged ttl p t' := by
  intro c hc hp
  exact Nat.le_trans (h c (hq.claims c hc hp) hp) ht

theorem ReadBy.mono {ms : Int} {t : Nat} (h : s.ReadBy ttl p ms t) (hg : Grows s s')
    (hq : Quiet s s' p) : s'.ReadBy ttl p ms t where
  reading := hg.readings _ h.reading
  aged := h.aged.mono hq (Nat.le_refl t)
  past := Nat.le_trans h.past hg.now

theorem ServerOK.mono {v : Server} (h : s.ServerOK ttl p v) (hg : Grows s s')
    (hq : Quiet s s' p) : s'.ServerOK ttl p v where
  worker := h.worker
  aged := h.aged.mono hq hg.now
  candidate := h.candidate
  sourced :=
    { last := fun hepoch => by
        obtain ⟨t, ht⟩ := h.sourced.last hepoch
        exact ⟨t, ht.mono hg hq⟩
      candidate := fun ms hms => by
        obtain ⟨t, ht⟩ := h.sourced.candidate ms hms
        exact ⟨t, ht.mono hg hq⟩ }
  awaiting := by
    intro nowMs requestedAt hpc
    obtain ⟨t, r, ht, hr, hown, hwork, hcmd, hsent⟩ := h.awaiting nowMs requestedAt hpc
    obtain ⟨r', hr', hown', hwork', hcmd', hsent'⟩ := hg.requests _ _ hr
    exact ⟨t, r', ht.mono hg hq, hr', hown'.trans hown, hwork'.trans hwork, hcmd'.trans hcmd,
      by rw [hsent']; exact hsent⟩

theorem ProcOK.mono {x : Process} (h : s.ProcOK ttl p x) (hg : Grows s s') (hq : Quiet s s' p) :
    s'.ProcOK ttl p x := by
  have hnone : (∀ k, ¬ s.PendingSet p k) → ∀ k, ¬ s'.PendingSet p k :=
    fun h k hk => h k (hq.pending k hk)
  cases x with
  | idle => exact hnone h
  | setting worker request => exact ⟨h.1, fun k hk => h.2 k (hq.pending k hk)⟩
  | quarantine worker wakeAt => exact ⟨h.1, hnone h.2.1, h.2.2.mono hq (Nat.le_refl _)⟩
  | activating worker requestedAt request => exact ⟨h.1, hnone h.2.1, h.2.2.mono hq hg.now⟩
  | serving v => exact ⟨hnone h.1, h.2.mono hg hq⟩
  | failed => trivial

/-- `p` moves to `x`, having sent `reqs`, read `reads` and returned `ids`. -/
def act (s : Cluster) (p : Nat) (x : Process) (reqs : List Request) (reads : List Reading)
    (ids : List Issued) : Cluster :=
  { s with
    procs := Function.update s.procs p x
    requests := s.requests ++ reqs
    readings := reads ++ s.readings
    issued := ids ++ s.issued }

theorem setProc_eq_act (s : Cluster) (p : Nat) (x : Process) :
    s.setProc p x = s.act p x [] [] [] := by
  simp [setProc, act]

/-- A request as `send` builds it. -/
def freshRequest (s : Cluster) (p w : Nat) (command : StoreCommand) : Request :=
  { owner := p, worker := w, command := command, sentAt := s.now, reply := none }

theorem send_setProc_eq_act (s : Cluster) (p w : Nat) (command : StoreCommand) (x : Process) :
    (s.send p w command).setProc p x = s.act p x [s.freshRequest p w command] [] [] := by
  simp [send, setProc, act, freshRequest]

section

variable {x : Process} {reqs : List Request} {reads : List Reading} {ids : List Issued}

theorem grows_act : Grows s (s.act p x reqs reads ids) where
  now := Nat.le_refl _
  readings := fun y hy => List.mem_append_right reads hy
  requests := by
    intro k r hr
    refine ⟨r, ?_, rfl, rfl, rfl, rfl⟩
    have hk : k < s.requests.length := (List.getElem?_eq_some_iff.mp hr).1
    simp only [act]
    rw [List.getElem?_append_left hk]
    exact hr

/-- A pending `SET NX` after a step was pending before or was just sent. -/
theorem pendingSet_act {q k : Nat} (h : (s.act p x reqs reads ids).PendingSet q k) :
    s.PendingSet q k ∨ (s.requests.length ≤ k ∧ k < s.requests.length + reqs.length
      ∧ ∃ r ∈ reqs, r.owner = q ∧ r.command = .setNx) := by
  obtain ⟨r, hr, hown, hcmd, hrep⟩ := h
  simp only [act] at hr
  by_cases hk : k < s.requests.length
  · rw [List.getElem?_append_left hk] at hr
    exact Or.inl ⟨r, hr, hown, hcmd, hrep⟩
  · have hk : s.requests.length ≤ k := Nat.not_lt.mp hk
    rw [List.getElem?_append_right hk] at hr
    have hlt := (List.getElem?_eq_some_iff.mp hr).1
    exact Or.inr ⟨hk, by omega, r, List.mem_of_getElem? hr, hown, hcmd⟩

theorem quiet_act {q : Nat} (hreqs : ∀ r ∈ reqs, r.owner = q → r.command ≠ .setNx) :
    Quiet s (s.act p x reqs reads ids) q where
  claims := fun _ hc _ => hc
  pending := by
    intro k hk
    rcases pendingSet_act hk with hk | ⟨-, -, r, hr, hown, hcmd⟩
    · exact hk
    · exact absurd hcmd (hreqs r hr hown)

theorem IssuedOK.act {y : Issued} (h : s.IssuedOK ttl y) :
    (s.act p x reqs reads ids).IssuedOK ttl y := by
  obtain ⟨ms, w, q, t, hms, hw, hq, hid, hread, hnow, c, hf, hc⟩ := h
  exact ⟨ms, w, q, t, hms, hw, hq, hid, List.mem_append_right _ hread, hnow, c, hf, hc⟩

/-- A step of one process keeps the invariant if it leaves that process in
order and accounts for what it returned. -/
theorem inv_act (hs : s.Inv ttl)
    (hreqs : ∀ r ∈ reqs, r.owner = p ∧ r.sentAt = s.now ∧ r.reply = none)
    (hx : (s.act p x reqs reads ids).ProcOK ttl p x)
    (hids : ∀ y ∈ ids, (s.act p x reqs reads ids).IssuedOK ttl y) :
    (s.act p x reqs reads ids).Inv ttl where
  claimed := hs.claimed
  sent := by
    intro r hr
    rcases List.mem_append.mp hr with hr | hr
    · exact hs.sent r hr
    · exact Nat.le_of_eq (hreqs r hr).2.1
  newest := hs.newest
  renewed := by
    intro r hr hcmd hrep
    rcases List.mem_append.mp hr with hr | hr
    · exact hs.renewed r hr hcmd hrep
    · rw [(hreqs r hr).2.2] at hrep
      cases hrep
  procs := by
    intro q
    by_cases hqp : q = p
    · subst hqp
      simpa [act] using hx
    · have hq : Quiet s (s.act p x reqs reads ids) q :=
        quiet_act fun r hr hown => absurd (hown.symm.trans (hreqs r hr).1) hqp
      have hproc : (s.act p x reqs reads ids).procs q = s.procs q := by
        simp [act, hqp]
      rw [hproc]
      exact (hs.procs q).mono grows_act hq
  issued := by
    intro y hy
    rcases List.mem_append.mp hy with hy | hy
    · exact hids y hy
    · exact (hs.issued y hy).act

/-- A step that sends no `SET NX` and leaves the process in a state whose
conditions only mention older history. -/
theorem inv_act_quiet (hs : s.Inv ttl)
    (hreqs : ∀ r ∈ reqs, r.owner = p ∧ r.sentAt = s.now ∧ r.reply = none)
    (hset : ∀ r ∈ reqs, r.command ≠ .setNx) (hx : s.ProcOK ttl p x) :
    (s.act p x reqs reads []).Inv ttl :=
  inv_act hs hreqs (hx.mono grows_act (quiet_act fun r hr _ => hset r hr)) fun _ hy => nomatch hy

end

/-! ## Time, flushes and the store -/

theorem elapse_inv (hs : s.Inv ttl) (d : Nat) :
    ({ s with now := s.now + d } : Cluster).Inv ttl where
  claimed := fun c hc => Nat.le_add_right_of_le (hs.claimed c hc)
  sent := fun r hr => Nat.le_add_right_of_le (hs.sent r hr)
  newest := hs.newest
  renewed := hs.renewed
  procs := fun p => (hs.procs p).mono
    ⟨Nat.le_add_right _ _, fun _ h => h, fun _ r h => ⟨r, h, rfl, rfl, rfl, rfl⟩⟩
    ⟨fun _ h _ => h, fun _ h => h⟩
  issued := by
    intro x hx
    obtain ⟨ms, w, q, t, hms, hw, hq, hid, hread, hnow, hc⟩ := hs.issued x hx
    exact ⟨ms, w, q, t, hms, hw, hq, hid, hread, Nat.le_add_right_of_le hnow, hc⟩

theorem flush_inv (hs : s.Inv ttl) : ({ s with store := fun _ => none } : Cluster).Inv ttl where
  claimed := hs.claimed
  sent := hs.sent
  newest := fun _ _ he => nomatch he
  renewed := hs.renewed
  procs := fun p => (hs.procs p).mono
    ⟨Nat.le_refl _, fun _ h => h, fun _ r h => ⟨r, h, rfl, rfl, rfl, rfl⟩⟩
    ⟨fun _ h _ => h, fun _ h => h⟩
  issued := hs.issued

end Cluster

namespace LeaseStore

theorem get_eq_some {st : LeaseStore} {now w : Nat} {x : LeaseValue} (h : st.get now w = some x) :
    ∃ e, st w = some e ∧ e.value = x := by
  unfold get at h
  split at h
  · cases h
  · rename_i e he
    split at h
    · exact ⟨e, he, Option.some.inj h⟩
    · cases h

theorem put_eq_some {st : LeaseStore} {w w' exp : Nat} {x : LeaseValue} {e : StoreEntry}
    (h : st.put w x exp w' = some e) : (w' = w ∧ e.value = x) ∨ (w' ≠ w ∧ st w' = some e) := by
  unfold put at h
  split at h
  · rename_i hw
    exact Or.inl ⟨hw, by rw [← Option.some.inj h]⟩
  · rename_i hw
    exact Or.inr ⟨hw, h⟩

end LeaseStore

/-- What the store can do with a request: claim a free worker, or touch an
entry that already names the requester, or nothing. Only a claim changes
whom an entry names, and a renewal is confirmed only to that process. -/
theorem Request.run_cases {r : Request} {st st' : LeaseStore} {ttl now : Nat} {value : Int}
    (h : r.run st ttl now = (value, st')) :
    (r.command = .setNx ∧ value = 1 ∧ st' = st.put r.worker (.quarantine r.owner) (now + ttl * 3))
      ∨ (value = 1 ∧ r.command ≠ .setNx
          ∧ (∃ e, st r.worker = some e ∧ e.value.owner = r.owner)
          ∧ st' = st.put r.worker (.active r.owner) (now + ttl))
      ∨ (value = 0 ∧ st' = st) := by
  unfold run at h
  cases hc : r.command with
  | setNx =>
      simp only [hc, LeaseStore.setNx] at h
      split at h
      · obtain ⟨rfl, rfl⟩ := Prod.mk.inj h
        exact Or.inr (Or.inr ⟨rfl, rfl⟩)
      · obtain ⟨rfl, rfl⟩ := Prod.mk.inj h
        exact Or.inl ⟨rfl, rfl, rfl⟩
  | activate =>
      simp only [hc, LeaseStore.activate] at h
      split at h
      · rename_i hget
        obtain ⟨rfl, rfl⟩ := Prod.mk.inj h
        obtain ⟨e, he, hval⟩ := LeaseStore.get_eq_some hget
        exact Or.inr (Or.inl ⟨rfl, nofun, ⟨e, he, by rw [hval]; rfl⟩, rfl⟩)
      · obtain ⟨rfl, rfl⟩ := Prod.mk.inj h
        exact Or.inr (Or.inr ⟨rfl, rfl⟩)
  | renew =>
      simp only [hc, LeaseStore.renew] at h
      split at h
      · rename_i hget
        obtain ⟨rfl, rfl⟩ := Prod.mk.inj h
        obtain ⟨e, he, hval⟩ := LeaseStore.get_eq_some hget
        exact Or.inr (Or.inl ⟨rfl, nofun, ⟨e, he, by rw [hval]; rfl⟩, rfl⟩)
      · obtain ⟨rfl, rfl⟩ := Prod.mk.inj h
        exact Or.inr (Or.inr ⟨rfl, rfl⟩)

namespace Cluster

variable {ttl : Nat} {s s' : Cluster} {p : Nat}

/-- The history after the store ran `r` with answer `value`. -/
def claimsAfter (s : Cluster) (r : Request) (value : Int) : List Claim :=
  if r.command = .setNx ∧ value = 1 then ⟨r.worker, r.owner, s.now⟩ :: s.claims else s.claims

theorem execute_cases {k : Nat} (h : s.execute ttl k = some s') :
    ∃ r value st, s.requests[k]? = some r ∧ r.reply = none ∧ r.run s.store ttl s.now = (value, st)
      ∧ s' = { s with
          store := st
          requests := s.requests.set k { r with reply := some value }
          claims := s.claimsAfter r value } := by
  unfold execute at h
  split at h
  · cases h
  · rename_i r hr
    split at h
    · cases h
    · rename_i hrep
      exact ⟨r, _, _, hr, hrep, rfl, (Option.some.inj h).symm⟩

/-- Running a request adds at most one claim, dated now. -/
theorem mem_claimsAfter {r : Request} {value : Int} {c : Claim}
    (h : c ∈ s.claimsAfter r value) :
    c ∈ s.claims ∨ (r.command = .setNx ∧ c = ⟨r.worker, r.owner, s.now⟩) := by
  unfold claimsAfter at h
  split at h
  · rename_i hc
    rcases List.mem_cons.mp h with rfl | h
    · exact Or.inr ⟨hc.1, rfl⟩
    · exact Or.inl h
  · exact Or.inl h

theorem Fenced.claimsAfter {r : Request} {value : Int} {w q c t : Nat}
    (h : Fenced s.claims w q c t) (ht : t ≤ s.now) : Fenced (s.claimsAfter r value) w q c t := by
  unfold Cluster.claimsAfter
  split
  · exact h.cons ht
  · exact h

section

variable {r : Request} {value : Int} {st : LeaseStore} {k : Nat}

theorem run_newest (hs : s.Inv ttl) (hrun : r.run s.store ttl s.now = (value, st)) (w : Nat)
    (e : StoreEntry) (he : st w = some e) : Newest (s.claimsAfter r value) w e.value.owner := by
  rcases Request.run_cases hrun with
    ⟨hcmd, hval, rfl⟩ | ⟨hval, hcmd, ⟨e', he', hown⟩, rfl⟩ | ⟨hval, rfl⟩
  · -- a fresh claim names its claimant and leaves the other workers alone
    rw [claimsAfter, if_pos ⟨hcmd, hval⟩]
    rcases LeaseStore.put_eq_some he with ⟨rfl, hv⟩ | ⟨hne, hold⟩
    · rw [hv]
      exact Newest.cons_self
    · exact (hs.newest w e hold).cons_ne (Ne.symm hne)
  · rw [claimsAfter, if_neg fun hc => hcmd hc.1]
    rcases LeaseStore.put_eq_some he with ⟨rfl, hv⟩ | ⟨-, hold⟩
    · rw [hv, LeaseValue.owner, ← hown]
      exact hs.newest _ e' he'
    · exact hs.newest w e hold
  · rw [claimsAfter, if_neg fun hc => absurd (hval.symm.trans hc.2) (by decide)]
    exact hs.newest w e he

/-- A renewal that was just confirmed fences the worker up to now. -/
theorem run_renewed (hs : s.Inv ttl) (hrun : r.run s.store ttl s.now = (value, st))
    (hcmd : r.command = .renew) (hval : value = 1) (t : Nat) :
    ∃ c, Fenced (s.claimsAfter r value) r.worker r.owner c t := by
  have hclaims : s.claimsAfter r value = s.claims := by
    rw [claimsAfter, if_neg]
    rintro ⟨hset, -⟩
    rw [hcmd] at hset
    cases hset
  rcases Request.run_cases hrun with ⟨hset, -, -⟩ | ⟨-, -, ⟨e, he, hown⟩, -⟩ | ⟨hzero, -⟩
  · rw [hcmd] at hset
    cases hset
  · have hn := hs.newest _ e he
    rw [hown] at hn
    rw [hclaims]
    exact hn.fenced t
  · rw [hval] at hzero
    cases hzero

theorem execute_grows (hr : s.requests[k]? = some r) :
    Grows s { s with
      store := st
      requests := s.requests.set k { r with reply := some value }
      claims := s.claimsAfter r value } where
  now := Nat.le_refl _
  readings := fun _ h => h
  requests := by
    intro j q hq
    by_cases hj : j = k
    · subst hj
      obtain rfl : r = q := Option.some.inj (hr.symm.trans hq)
      have hlt : j < s.requests.length := (List.getElem?_eq_some_iff.mp hr).1
      exact ⟨_, List.getElem?_set_self hlt, rfl, rfl, rfl, rfl⟩
    · exact ⟨q, by rw [List.getElem?_set_ne (Ne.symm hj)]; exact hq, rfl, rfl, rfl, rfl⟩

/-- Running a request makes no request pending, its own least of all. -/
theorem execute_pending {q j : Nat}
    (h : PendingSet { s with
      store := st
      requests := s.requests.set k { r with reply := some value }
      claims := s.claimsAfter r value } q j) : s.PendingSet q j ∧ j ≠ k := by
  obtain ⟨r', hr', hown, hcmd, hrep⟩ := h
  by_cases hj : j = k
  · subst hj
    simp only at hr'
    by_cases hlt : j < s.requests.length
    · rw [List.getElem?_set_self hlt] at hr'
      rw [← Option.some.inj hr'] at hrep
      cases hrep
    · rw [List.getElem?_eq_none (by simpa using hlt)] at hr'
      cases hr'
  · simp only at hr'
    rw [List.getElem?_set_ne (Ne.symm hj)] at hr'
    exact ⟨⟨r', hr', hown, hcmd, hrep⟩, hj⟩

theorem execute_procOK (hs : s.Inv ttl) (hr : s.requests[k]? = some r) (hrep : r.reply = none)
    (q : Nat) :
    ProcOK ttl { s with
      store := st
      requests := s.requests.set k { r with reply := some value }
      claims := s.claimsAfter r value } q (s.procs q) := by
  have hold := hs.procs q
  by_cases hself : r.command = .setNx ∧ r.owner = q
  · -- the claimant itself is still waiting for this very answer, or has given up
    have hpend : s.PendingSet q k := ⟨r, hr, hself.2, hself.1, hrep⟩
    cases hx : s.procs q with
    | idle => rw [hx] at hold; exact absurd hpend (hold k)
    | setting worker request =>
        rw [hx] at hold
        exact ⟨hold.1, fun j hj => hold.2 j (execute_pending hj).1⟩
    | quarantine worker wakeAt => rw [hx] at hold; exact absurd hpend (hold.2.1 k)
    | activating worker requestedAt request => rw [hx] at hold; exact absurd hpend (hold.2.1 k)
    | serving v => rw [hx] at hold; exact absurd hpend (hold.1 k)
    | failed => trivial
  · refine hold.mono (execute_grows hr) ⟨?_, fun j hj => (execute_pending hj).1⟩
    intro c hc hown
    rcases mem_claimsAfter hc with hc | ⟨hcmd, rfl⟩
    · exact hc
    · exact absurd ⟨hcmd, hown⟩ hself

theorem execute_inv (hs : s.Inv ttl) (h : s.execute ttl k = some s') : s'.Inv ttl := by
  obtain ⟨r, value, st, hr, hrep, hrun, rfl⟩ := execute_cases h
  have hrmem : r ∈ s.requests := List.mem_of_getElem? hr
  refine ⟨?_, ?_, run_newest hs hrun, ?_, execute_procOK hs hr hrep, ?_⟩
  · intro c hc
    rcases mem_claimsAfter hc with hc | ⟨-, rfl⟩
    · exact hs.claimed c hc
    · exact Nat.le_refl _
  · intro q hq
    rcases List.mem_or_eq_of_mem_set hq with hq | rfl
    · exact hs.sent q hq
    · exact hs.sent r hrmem
  · intro q hq hcmd hone
    rcases List.mem_or_eq_of_mem_set hq with hq | rfl
    · obtain ⟨c, hf⟩ := hs.renewed q hq hcmd hone
      exact ⟨c, Fenced.claimsAfter hf (hs.sent q hq)⟩
    · exact run_renewed hs hrun hcmd (Option.some.inj hone) _
  · intro x hx
    obtain ⟨ms, w, q, t, hms, hw, hq, hid, hread, hnow, c, hf, hc⟩ := hs.issued x hx
    exact ⟨ms, w, q, t, hms, hw, hq, hid, hread, hnow, c, Fenced.claimsAfter hf hnow, hc⟩

end

/-! ## The processes -/

theorem mem_freshRequest {w : Nat} {command : StoreCommand} {r : Request}
    (hr : r ∈ [s.freshRequest p w command]) :
    r.owner = p ∧ r.sentAt = s.now ∧ r.reply = none := by
  obtain rfl := List.mem_singleton.mp hr
  exact ⟨rfl, rfl, rfl⟩

theorem tryWorker_inv (hs : s.Inv ttl) (hp : ∀ k, ¬ s.PendingSet p k) (w : Nat) :
    (s.tryWorker p w).Inv ttl := by
  unfold tryWorker
  split
  · rename_i hw
    rw [send_setProc_eq_act]
    refine inv_act hs (fun r hr => mem_freshRequest hr) ⟨hw, ?_⟩ fun _ hy => nomatch hy
    intro k hk
    rcases pendingSet_act hk with hk | ⟨hle, hlt, -⟩
    · exact absurd hk (hp k)
    · simp only [List.length_singleton] at hlt
      omega
  · rw [setProc_eq_act]
    exact inv_act_quiet hs (fun _ hr => nomatch hr) (fun _ hr => nomatch hr) trivial

/-- Moving a process without sending or reading anything. -/
theorem setProc_inv (hs : s.Inv ttl) {x : Process} (hx : s.ProcOK ttl p x) :
    (s.setProc p x).Inv ttl := by
  rw [setProc_eq_act]
  exact inv_act_quiet hs (fun _ hr => nomatch hr) (fun _ hr => nomatch hr) hx

theorem not_pendingSet_of_reply {k : Nat} {value : Int} (h : s.replyOf k = some value) :
    ¬ s.PendingSet p k := by
  rintro ⟨r, hr, -, -, hrep⟩
  simp [replyOf, hr, hrep] at h

theorem setReplied_inv (hs : s.Inv ttl) (h : s.step ttl (.setReplied p) = some s') :
    s'.Inv ttl := by
  have hp := hs.procs p
  cases hx : s.procs p with
  | setting worker request =>
      rw [hx] at hp
      simp only [step, hx] at h
      split at h
      · cases h
      · rename_i value hval
        have hnone : ∀ k, ¬ s.PendingSet p k := by
          intro k hk
          obtain rfl := hp.2 k hk
          exact not_pendingSet_of_reply hval hk
        split at h
        · obtain rfl := Option.some.inj h
          refine setProc_inv hs ⟨hp.1, hnone, ?_⟩
          intro c hc _
          exact Nat.add_le_add_right (hs.claimed c hc) ttl
        · obtain rfl := Option.some.inj h
          exact tryWorker_inv hs hnone _
  | _ => simp [step, hx] at h

theorem woke_inv (hs : s.Inv ttl) (h : s.step ttl (.woke p) = some s') : s'.Inv ttl := by
  have hp := hs.procs p
  cases hx : s.procs p with
  | quarantine worker wakeAt =>
      rw [hx] at hp
      simp only [step, hx] at h
      split at h
      · cases h
      · rename_i hwake
        obtain rfl := Option.some.inj h
        rw [send_setProc_eq_act]
        refine inv_act_quiet hs (fun r hr => mem_freshRequest hr) ?_ ⟨hp.1, hp.2.1, ?_⟩
        · intro r hr
          obtain rfl := List.mem_singleton.mp hr
          nofun
        · intro c hc hown
          exact Nat.le_trans (hp.2.2 c hc hown) (Nat.not_lt.mp hwake)
  | _ => simp [step, hx] at h

/-- A process starts serving past its quarantine and with a clean generator. -/
theorem serverOK_init {w : Nat} (hw : w ≤ maxWorkerId) (ha : s.Aged ttl p s.now)
    (lease : WorkerLease) (hl : lease.workerId = w) :
    s.ServerOK ttl p { gen := Generator.init lease, renewal := 0, heartbeat := .absent } where
  worker := by
    show lease.workerId ≤ maxWorkerId
    rw [hl]
    exact hw
  aged := ha
  candidate := trivial
  sourced :=
    { last := by
        intro hepoch
        exact absurd hepoch (show ¬ epochMs ≤ (-1 : Int) by decide)
      candidate := fun _ hms => nomatch hms }
  awaiting := fun _ _ hpc => nomatch hpc

theorem activateReplied_inv (hs : s.Inv ttl) (h : s.step ttl (.activateReplied p) = some s') :
    s'.Inv ttl := by
  have hp := hs.procs p
  cases hx : s.procs p with
  | activating worker requestedAt request =>
      rw [hx] at hp
      simp only [step, hx] at h
      split at h
      · cases h
      · split at h
        · obtain rfl := Option.some.inj h
          exact tryWorker_inv hs hp.2.1 _
        · split at h
          · obtain rfl := Option.some.inj h
            exact tryWorker_inv hs hp.2.1 _
          · obtain rfl := Option.some.inj h
            exact setProc_inv hs ⟨hp.2.1, serverOK_init hp.1 hp.2.2 _ rfl⟩
  | _ => simp [step, hx] at h

/-! ## A serving process -/

/-- The heartbeat only touches the lease's deadline and its `lost` flag. -/
theorem ServerOK.setLease {v : Server} (h : s.ServerOK ttl p v) {l : WorkerLease}
    (hl : l.workerId = v.gen.lease.workerId) (b : Heartbeat) :
    s.ServerOK ttl p { v with gen := { v.gen with lease := l }, heartbeat := b } where
  worker := by
    show l.workerId ≤ maxWorkerId
    rw [hl]
    exact h.worker
  aged := h.aged
  candidate := h.candidate
  sourced := ⟨h.sourced.last, h.sourced.candidate⟩
  awaiting := by
    intro nowMs requestedAt hpc
    obtain ⟨t, r, ht, hr, hown, hwork, hrest⟩ := h.awaiting nowMs requestedAt hpc
    exact ⟨t, r, ht, hr, hown, hwork.trans hl.symm, hrest⟩

theorem setLease_inv (hs : s.Inv ttl) {v : Server} (hx : s.procs p = .serving v)
    {l : WorkerLease} (hl : l.workerId = v.gen.lease.workerId) (b : Heartbeat) :
    (s.setLease p v l b).Inv ttl := by
  have hp := hs.procs p
  rw [hx] at hp
  exact setProc_inv hs ⟨hp.1, hp.2.setLease hl b⟩

theorem heartbeatReplied_inv (hs : s.Inv ttl) {v : Server} (hx : s.procs p = .serving v)
    (requestedAt : Nat) (reply : RenewReply) :
    (s.heartbeatReplied p v requestedAt reply).Inv ttl := by
  unfold heartbeatReplied
  split
  · rename_i l hc
    obtain ⟨-, -, rfl⟩ := WorkerLease.confirm_ok hc
    exact setLease_inv hs hx (by rfl) _
  · rename_i e l hc
    obtain rfl := WorkerLease.confirm_error hc
    exact setLease_inv hs hx (by rfl) _

theorem heartbeatStep_inv (hs : s.Inv ttl) {v : Server} (hx : s.procs p = .serving v)
    {a : HeartbeatAction} (h : s.heartbeatStep ttl p v a = some s') : s'.Inv ttl := by
  have hp := hs.procs p
  rw [hx] at hp
  cases a with
  | start =>
      simp only [heartbeatStep] at h
      split at h
      · obtain rfl := Option.some.inj h
        exact setLease_inv hs hx (by rfl) _
      · cases h
  | woke =>
      simp only [heartbeatStep] at h
      split at h
      · split at h
        · cases h
        · split at h
          · rename_i l hv
            obtain rfl := WorkerLease.valid_false hv
            obtain rfl := Option.some.inj h
            exact setLease_inv hs hx (by rfl) _
          · rename_i l hv
            obtain ⟨rfl, -⟩ := WorkerLease.valid_true hv
            obtain rfl := Option.some.inj h
            exact setLease_inv hs hx (by rfl) _
      · cases h
  | locked =>
      simp only [heartbeatStep] at h
      split at h
      · cases h
      · split at h
        · rename_i l hv
          obtain rfl := WorkerLease.valid_false hv
          obtain rfl := Option.some.inj h
          exact setLease_inv hs hx (by rfl) _
        · rename_i l hv
          obtain ⟨rfl, -⟩ := WorkerLease.valid_true hv
          obtain rfl := Option.some.inj h
          rw [setLease, send_setProc_eq_act]
          refine inv_act_quiet hs (fun r hr => mem_freshRequest hr) ?_
            ⟨hp.1, hp.2.setLease rfl _⟩
          intro r hr
          obtain rfl := List.mem_singleton.mp hr
          nofun
      · cases h
  | replied =>
      simp only [heartbeatStep] at h
      split at h
      · split at h
        · obtain rfl := Option.some.inj h
          exact heartbeatReplied_inv hs hx _ _
        · cases h
      · cases h
  | refused =>
      simp only [heartbeatStep] at h
      split at h
      · obtain rfl := Option.some.inj h
        exact heartbeatReplied_inv hs hx _ _
      · cases h

end Cluster

/-- Apart from the lock, no step of a call leaves it waiting for a renewal. -/
theorem Generator.step_renewing {g g' : Generator} {i : MintInput} {o : MintOutcome}
    (h : g.step i = some (g', o)) {nowMs : Int} {requestedAt : Nat}
    (hpc' : g'.pc = .renewing nowMs requestedAt) :
    (∃ mono, i = .locked mono) ∨ (∃ u, i = .heartbeatRenewed u) ∨ i = .heartbeatLost := by
  have hnone : ∀ {g₀ : Generator} {n : Int} {m : Nat}, g₀.present n m = (g', o) → False := by
    intro g₀ n m hpres
    rcases present_cases hpres with ⟨-, rfl, -⟩ | ⟨-, rfl, -⟩ | ⟨rfl, -⟩ | ⟨-, rfl, -⟩ <;>
      cases hpc'
  have hwait : ∀ {g₀ : Generator} {d m : Nat}, g₀.rolloverWait d m = (g', o) → False := by
    intro g₀ d m hroll
    rcases rolloverWait_cases hroll with ⟨rfl, -⟩ | ⟨rfl, -⟩ | ⟨rfl, -⟩ <;> cases hpc'
  have hseq : ∀ {g₀ : Generator} {n : Int} {m : Nat}, g₀.sequenceFor n m = (g', o) → False := by
    intro g₀ n m hsf
    unfold sequenceFor at hsf
    split at hsf
    · simp only at hsf
      split at hsf
      · exact hwait hsf
      · exact hnone hsf
    · exact hnone hsf
  cases i with
  | call mono clockMs =>
      cases hpc : g.pc <;> simp only [step, hpc, Option.some.injEq, reduceCtorEq] at h
      unfold start at h
      split at h
      · obtain ⟨rfl, -⟩ := Prod.mk.inj h
        cases hpc'
      · simp only at h
        split at h
        · split at h <;> obtain ⟨rfl, -⟩ := Prod.mk.inj h <;> cases hpc'
        · exact (hseq h).elim
  | wake mono clockMs =>
      cases hpc : g.pc <;> simp only [step, hpc, Option.some.injEq, reduceCtorEq] at h
      exact (hseq h).elim
  | tick mono clockMs =>
      cases hpc : g.pc <;> simp only [step, hpc, reduceCtorEq] at h
      split at h
      · exact (hwait (Option.some.inj h)).elim
      · exact (hnone (Option.some.inj h)).elim
  | locked mono => exact Or.inl ⟨mono, rfl⟩
  | replied mono reply =>
      cases hpc : g.pc <;> simp only [step, hpc, reduceCtorEq] at h
      split at h <;> obtain ⟨rfl, -⟩ := Prod.mk.inj (Option.some.inj h) <;> cases hpc'
  | cancel =>
      cases hpc : g.pc <;>
        simp only [step, hpc, Option.some.injEq, Prod.mk.injEq, reduceCtorEq] at h <;>
        obtain ⟨rfl, -⟩ := h <;> cases hpc'
  | heartbeatRenewed validUntil => exact Or.inr (Or.inl ⟨validUntil, rfl⟩)
  | heartbeatLost => exact Or.inr (Or.inr rfl)

/-- Taking the lock: the call gives up, or goes on with the same candidate. -/
theorem Generator.step_locked {g g' : Generator} {mono : Nat} {o : MintOutcome}
    (h : g.step (.locked mono) = some (g', o)) :
    (g' = { g with lease := g.lease.lose, pc := .idle } ∧ o = .raised (.lease .leaseLost))
      ∨ ∃ nowMs, g.pc = .ownership nowMs ∧ g' = { g with pc := .renewing nowMs mono }
        ∧ o = .suspended := by
  cases hpc : g.pc with
  | ownership nowMs =>
      simp only [step, hpc] at h
      split at h
      · rename_i l hv
        obtain rfl := WorkerLease.valid_false hv
        obtain ⟨rfl, rfl⟩ := Prod.mk.inj (Option.some.inj h)
        exact Or.inl ⟨rfl, rfl⟩
      · rename_i l hv
        obtain ⟨rfl, -⟩ := WorkerLease.valid_true hv
        obtain ⟨rfl, rfl⟩ := Prod.mk.inj (Option.some.inj h)
        exact Or.inr ⟨nowMs, rfl, rfl, rfl⟩
  | _ => simp [step, hpc] at h

namespace Cluster

variable {ttl : Nat} {s s' : Cluster} {p : Nat}

/-- What one step of a call leaves behind, in the terms of `act`. -/
theorem mintStep_eq {v : Server} {i : MintInput} (h : s.mintStep p v i = some s') :
    ∃ g o, v.gen.step i = some (g, o)
      ∧ s' = s.act p (.serving { v with gen := g }) []
          ((v.gen.reads i).toList.map fun ms => ⟨s.now, ms⟩)
          (match o with | .returned id => [⟨p, id⟩] | _ => []) := by
  unfold mintStep at h
  split at h
  · cases h
  · rename_i g o hg
    refine ⟨g, o, hg, ?_⟩
    cases hr : v.gen.reads i <;> cases o <;> simp only [hr] at h <;>
      rw [← Option.some.inj h] <;> simp [act, setProc]

/-- A step of a call that does not take the lock keeps the server in
order, given that the readings it used are recorded. -/
theorem ServerOK.step {v : Server} {g : Generator} {i : MintInput} {o : MintOutcome}
    (hv : s.ServerOK ttl p v) (hg : v.gen.step i = some (g, o))
    (hread : ∀ ms, v.gen.reads i = some ms → ⟨s.now, ms⟩ ∈ s.readings)
    (hnl : ∀ mono, i ≠ .locked mono) (hnr : ∀ u, i ≠ .heartbeatRenewed u)
    (hnh : i ≠ .heartbeatLost) : s.ServerOK ttl p { v with gen := g } where
  worker := by
    show g.lease.workerId ≤ maxWorkerId
    rw [(Generator.step_frame hg).1]
    exact hv.worker
  aged := hv.aged
  candidate := Generator.step_candidateOK hg hv.candidate
  sourced := Generator.step_sourced hg hv.sourced fun ms hms =>
    ⟨s.now, hread ms hms, hv.aged, Nat.le_refl _⟩
  awaiting := by
    intro nowMs requestedAt hpc
    rcases Generator.step_renewing hg hpc with ⟨mono, hi⟩ | ⟨u, hi⟩ | hi
    · exact absurd hi (hnl mono)
    · exact absurd hi (hnr u)
    · exact absurd hi hnh

/-- A returned identifier is accounted for: the candidate's reading lies
past the quarantine, and the confirmed renewal was sent after it. -/
theorem returned_issuedOK (hs : s.Inv ttl) {v : Server} (hv : s.ServerOK ttl p v)
    {nowMs : Int} {requestedAt : Nat} (hpc : v.gen.pc = .renewing nowMs requestedAt)
    (hrep : s.replyOf v.renewal = some 1) :
    s.IssuedOK ttl ⟨p, snowflake (nowMs - epochMs).toNat v.gen.lease.workerId v.gen.sequence⟩ := by
  obtain ⟨t, r, ht, hr, hown, hwork, hcmd, hsent⟩ := hv.awaiting nowMs requestedAt hpc
  have hcand := hv.candidate
  simp only [Generator.CandidateOK, hpc] at hcand
  have hone : r.reply = some 1 := by simpa [replyOf, hr] using hrep
  obtain ⟨c, hf⟩ := hs.renewed r (List.mem_of_getElem? hr) hcmd hone
  rw [hwork, hown] at hf
  exact ⟨nowMs, _, _, t, hcand.2.1, hv.worker, hcand.2.2, rfl, ht.reading, ht.past, c,
    hf.mono hsent, ht.aged _ hf.mem rfl⟩

theorem mintStep_inv (hs : s.Inv ttl) {v : Server} (hx : s.procs p = .serving v)
    {i : MintInput} (h : s.mintStep p v i = some s') (hnl : ∀ mono, i ≠ .locked mono)
    (hnr : ∀ u, i ≠ .heartbeatRenewed u) (hnh : i ≠ .heartbeatLost)
    (hrep : ∀ mono, i = .replied mono (.renewed 1) → s.replyOf v.renewal = some 1) :
    s'.Inv ttl := by
  have hp := hs.procs p
  rw [hx] at hp
  obtain ⟨g, o, hg, rfl⟩ := mintStep_eq h
  have hquiet : ∀ {x : Process} {reads : List Reading} {ids : List Issued},
      Quiet s (s.act p x [] reads ids) p := quiet_act fun _ hr => nomatch hr
  have hv : ∀ {x : Process} {reads : List Reading} {ids : List Issued},
      (s.act p x [] reads ids).ServerOK ttl p v := hp.2.mono grows_act hquiet
  refine inv_act hs (fun _ hr => nomatch hr) ⟨?_, ?_⟩ ?_
  · exact fun k hk => hp.1 k (hquiet.pending k hk)
  · refine ServerOK.step hv hg ?_ hnl hnr hnh
    intro ms hms
    simp [act, hms]
  · intro y hy
    cases o with
    | returned id =>
        obtain rfl := List.mem_singleton.mp hy
        obtain ⟨nowMs, requestedAt, mono, hpc, hi, rfl, -⟩ := (Generator.step_frame hg).2 id rfl
        exact (returned_issuedOK hs hp.2 hpc (hrep mono hi)).act
    | _ => cases hy

theorem mintLocked_inv (hs : s.Inv ttl) {v : Server} (hx : s.procs p = .serving v)
    (h : s.mint p v .locked = some s') : s'.Inv ttl := by
  have hp := hs.procs p
  rw [hx] at hp
  simp only [mint] at h
  split at h
  · cases h
  · split at h
    · rename_i g hg
      obtain rfl := Option.some.inj h
      rcases Generator.step_locked hg with ⟨-, ho⟩ | ⟨nowMs, hpc, rfl, -⟩
      · cases ho
      · rw [send_setProc_eq_act]
        -- the request that was just sent is the one the call now waits for
        have hquiet : ∀ {x : Process}, Quiet s
            (s.act p x [s.freshRequest p v.gen.lease.workerId .renew] [] []) p := by
          refine quiet_act fun r hr _ => ?_
          obtain rfl := List.mem_singleton.mp hr
          intro hdone
          cases hdone
        refine inv_act hs (fun r hr => mem_freshRequest hr) ⟨?_, ?_⟩ fun _ hy =>
          absurd hy List.not_mem_nil
        · exact fun k hk => hp.1 k (hquiet.pending k hk)
        · have hv := hp.2.mono grows_act (hquiet (x := .serving
            { v with gen := { v.gen with pc := .renewing nowMs s.now },
                     renewal := s.requests.length }))
          have hcand := hp.2.candidate
          simp only [Generator.CandidateOK, hpc] at hcand
          refine ⟨hv.worker, hv.aged, hcand, ⟨hv.sourced.last, ?_⟩, ?_⟩
          · intro ms hms
            exact hv.sourced.candidate ms (by simpa [Generator.candidate, hpc] using hms)
          · intro nowMs' requestedAt hpc'
            obtain ⟨rfl, rfl⟩ := MintPc.renewing.inj hpc'
            obtain ⟨t, ht⟩ := hp.2.sourced.candidate nowMs (by simp [Generator.candidate, hpc])
            refine ⟨t, s.freshRequest p v.gen.lease.workerId .renew, ht.mono grows_act hquiet,
              ?_, rfl, rfl, rfl, ht.past⟩
            simp [act]
    · rename_i g o hne hg
      obtain rfl := Option.some.inj h
      rcases Generator.step_locked hg with ⟨rfl, -⟩ | ⟨nowMs, -, -, ho⟩
      · refine setProc_inv hs ⟨hp.1, hp.2.worker, hp.2.aged, trivial, ?_, fun _ _ hpc => ?_⟩
        · exact hp.2.sourced.of_no_candidate rfl rfl
        · cases hpc
      · exact absurd ho (by simpa using hne)
    · cases h

theorem mint_inv (hs : s.Inv ttl) {v : Server} (hx : s.procs p = .serving v) {a : MintAction}
    (h : s.mint p v a = some s') : s'.Inv ttl := by
  cases a with
  | call clockMs =>
      exact mintStep_inv hs hx h (fun _ => nofun) (fun _ => nofun) nofun fun _ => nofun
  | wake clockMs =>
      exact mintStep_inv hs hx h (fun _ => nofun) (fun _ => nofun) nofun fun _ => nofun
  | tick clockMs =>
      exact mintStep_inv hs hx h (fun _ => nofun) (fun _ => nofun) nofun fun _ => nofun
  | locked => exact mintLocked_inv hs hx h
  | replied =>
      simp only [mint] at h
      split at h
      · rename_i value hrep
        refine mintStep_inv hs hx h (fun _ => nofun) (fun _ => nofun) nofun fun mono hi => ?_
        obtain ⟨-, hval⟩ := MintInput.replied.inj hi
        rw [hrep, RenewReply.renewed.inj hval]
      · cases h
  | refused =>
      exact mintStep_inv hs hx h (fun _ => nofun) (fun _ => nofun) nofun fun _ => nofun
  | cancel =>
      exact mintStep_inv hs hx h (fun _ => nofun) (fun _ => nofun) nofun fun _ => nofun

/-! ## Whole runs -/

theorem step_inv (hs : s.Inv ttl) {i : ClusterInput} (h : s.step ttl i = some s') :
    s'.Inv ttl := by
  cases i with
  | elapse duration =>
      obtain rfl := Option.some.inj h
      exact elapse_inv hs duration
  | flush =>
      obtain rfl := Option.some.inj h
      exact flush_inv hs
  | execute request => exact execute_inv hs h
  | acquire p =>
      have hp := hs.procs p
      cases hx : s.procs p with
      | idle =>
          rw [hx] at hp
          simp only [step, hx] at h
          obtain rfl := Option.some.inj h
          exact tryWorker_inv hs hp 0
      | _ => simp [step, hx] at h
  | setReplied p => exact setReplied_inv hs h
  | woke p => exact woke_inv hs h
  | activateReplied p => exact activateReplied_inv hs h
  | abandon p =>
      cases hx : s.procs p <;> simp only [step, hx, reduceCtorEq] at h <;>
        (obtain rfl := Option.some.inj h; exact setProc_inv hs trivial)
  | mint p action =>
      cases hx : s.procs p with
      | serving v =>
          simp only [step, hx] at h
          exact mint_inv hs hx h
      | _ => simp [step, hx] at h
  | heartbeat p action =>
      cases hx : s.procs p with
      | serving v =>
          simp only [step, hx] at h
          exact heartbeatStep_inv hs hx h
      | _ => simp [step, hx] at h
  | close p =>
      cases hx : s.procs p with
      | serving v =>
          simp only [step, hx] at h
          obtain rfl := Option.some.inj h
          exact setLease_inv hs hx (by rfl) _
      | _ => simp [step, hx] at h

/-- Wall-clock readings at least one TTL apart are increasing, whichever
process took them. -/
def ClocksAdvance (ttl : Nat) (readings : List Reading) : Prop :=
  ∀ a ∈ readings, ∀ b ∈ readings, a.time + ttl ≤ b.time → a.value < b.value

/-- **Identifiers of different processes differ**, over every run of the
protocol: any delays, flushes, expirations and abandoned requests. -/
theorem no_shared_snowflake {is : List ClusterInput}
    (hrun : Exec (step ttl) Always init is s) (hclocks : ClocksAdvance ttl s.readings)
    {p q id : Nat} (hp : ⟨p, id⟩ ∈ s.issued) (hq : ⟨q, id⟩ ∈ s.issued) : p = q := by
  have hinv : s.Inv ttl := hrun.invariant (fun _ _ _ hs _ h => step_inv hs h) inv_init
  obtain ⟨ms, w, n, t, hms, hw, hn, hid, hread, -, c, hf, hc⟩ := hinv.issued _ hp
  obtain ⟨ms', w', n', t', hms', hw', hn', hid', hread', -, c', hf', hc'⟩ := hinv.issued _ hq
  obtain ⟨hts, rfl, -⟩ := snowflake_inj hw hw' hn hn' (hid.symm.trans hid')
  have hsame : ms = ms' := by omega
  by_contra hpq
  -- one of the two claimed the worker after the other's reading, then slept a TTL
  rcases hf.ordered hpq hf' with hle | hle
  · have hlt := hclocks _ hread _ hread' (show t + ttl ≤ t' by omega)
    simp only at hlt
    omega
  · have hlt := hclocks _ hread' _ hread (show t' + ttl ≤ t by omega)
    simp only at hlt
    omega

/-- One process acquires worker 0, sleeping through its quarantine, and
mints at the reading `clockMs`; `k` requests were sent before. -/
def soloTurn (p k : Nat) (clockMs : Int) : List ClusterInput :=
  [.acquire p, .execute k, .setReplied p, .elapse (leaseTtlSeconds * second), .woke p,
    .execute (k + 1), .activateReplied p, .mint p (.call clockMs), .mint p .locked,
    .execute (k + 2), .mint p .replied]

/-- Two processes take worker 0 one after the other, the second because the
store was flushed while the first still held its lease. -/
theorem no_shared_snowflake_after_flush :
    ∃ s, Exec (step (leaseTtlSeconds * second)) Always init
        (soloTurn 1 0 epochMs ++ [.flush] ++ soloTurn 2 3 (epochMs + 60000)) s
      ∧ s.issued = [⟨2, 251658240000⟩, ⟨1, 0⟩]
      ∧ ∀ p q id, ⟨p, id⟩ ∈ s.issued → ⟨q, id⟩ ∈ s.issued → p = q := by
  have hsome : (runFrom (step (leaseTtlSeconds * second)) Always init
      (soloTurn 1 0 epochMs ++ [.flush] ++ soloTurn 2 3 (epochMs + 60000))).map
        (fun s => (s.issued, s.readings))
      = some ([⟨2, 251658240000⟩, ⟨1, 0⟩],
          [⟨120000000, epochMs + 60000⟩, ⟨60000000, epochMs⟩]) := by decide +kernel
  obtain ⟨s, hrun, hs⟩ := Option.map_eq_some_iff.mp hsome
  obtain ⟨hissued, hreadings⟩ := Prod.mk.inj hs
  refine ⟨s, Exec.of_runFrom hrun, hissued, fun p q id hp hq => ?_⟩
  refine no_shared_snowflake (Exec.of_runFrom hrun) ?_ hp hq
  rw [hreadings]
  unfold ClocksAdvance
  decide

end Cluster

end Kaede
