import Kaede.RoomOperation

/-!
# The life of a room operation

Every transaction comes down to four effects on the stored rows: nothing,
a new `claiming` row, a status change of an unfinished row, or a commit.
Each effect keeps the invariant and leaves finished rows alone. What can
go wrong is a proposal's last write, which goes to the stored row without
looking at it; the guard of a run says that it finds an unfinished row.
-/

namespace Kaede

namespace RoomOperation

/-- The operation is over. -/
def Finished (op : RoomOperation) : Prop := op.status = .committed ∨ op.status = .failed

/-- A write that may only move the status of an unfinished row, and what a
proposal stores with it. -/
structure Moves (op op' : RoomOperation) : Prop where
  id : op'.id = op.id
  room : op'.room = op.room
  base : op'.basePolicyGeneration = op.basePolicyGeneration
  generation : op'.policyGeneration = op.policyGeneration
  before : op.status ≠ .committed
  after : op'.status ≠ .committed
  stays : op.status = .failed → op'.status = .failed
  active : op'.active = true → op.active = true

theorem moves_failed {op : RoomOperation} (h : op.status ≠ .committed) :
    op.Moves { op with status := .failed } :=
  ⟨rfl, rfl, rfl, rfl, h, nofun, fun _ => rfl, nofun⟩

end RoomOperation

namespace Room

/-! ## Writing one row -/

/-- `s'` is `s` with one operation row replaced or added. -/
structure Written (s s' : Room) (op : RoomOperation) : Prop where
  room : s'.room = s.room
  lookup : ∀ id, s'.operation id = if id = op.id then some op else s.operation id

theorem store_written {s s' : Room} {op : RoomOperation} (h : s.store op = some s') :
    Written s s' op ∧ s'.policy = s.policy ∧ s'.commits = s.commits
      ∧ (op.active = true → s.occupied op.id op.room = false) := by
  unfold store at h
  split at h
  · cases h
  · rename_i hocc
    obtain rfl := Option.some.inj h
    refine ⟨⟨rfl, fun id => ?_⟩, rfl, rfl, fun hactive => ?_⟩
    · by_cases hid : id = op.id
      · rw [if_pos hid, hid]
        exact AList.lookup_insert s.ops
      · rw [if_neg hid]
        exact AList.lookup_insert_ne hid
    · rw [hactive, Bool.true_and] at hocc
      exact Bool.eq_false_iff.mpr hocc

theorem Written.cases {s s' : Room} {op x : RoomOperation} {id : Nat} (hw : Written s s' op)
    (hx : s'.operation id = some x) :
    (id = op.id ∧ x = op) ∨ (id ≠ op.id ∧ s.operation id = some x) := by
  rw [hw.lookup] at hx
  by_cases hid : id = op.id
  · rw [if_pos hid] at hx
    exact Or.inl ⟨hid, (Option.some.inj hx).symm⟩
  · rw [if_neg hid] at hx
    exact Or.inr ⟨hid, hx⟩

theorem Written.self {s s' : Room} {op : RoomOperation} (hw : Written s s' op) :
    s'.operation op.id = some op := by
  rw [hw.lookup, if_pos rfl]

theorem Written.other {s s' : Room} {op : RoomOperation} (hw : Written s s' op) {id : Nat}
    (hid : id ≠ op.id) : s'.operation id = s.operation id := by
  rw [hw.lookup, if_neg hid]

theorem not_occupied {s : Room} {id room : Nat} (h : s.occupied id room = false)
    {id' : Nat} {op : RoomOperation} (hop : s.operation id' = some op) (hactive : op.active = true)
    (hroom : op.room = room) : id' = id := by
  by_contra hne
  have hmem : (⟨id', op⟩ : Sigma fun _ => RoomOperation) ∈ s.ops.entries :=
    AList.mem_lookup_iff.mp hop
  have htrue : s.occupied id room = true := by
    refine List.any_eq_true.mpr ⟨_, hmem, ?_⟩
    simp [hne, hactive, hroom]
  rw [h] at htrue
  cases htrue

theorem activeOperation_some {s : Room} {op : RoomOperation} (h : s.activeOperation = some op) :
    (∃ id, s.operation id = some op) ∧ op.active = true ∧ op.room = s.room := by
  have hmem := List.mem_of_find?_eq_some h
  have hprop := List.find?_some h
  obtain ⟨e, he, rfl⟩ := List.mem_map.mp hmem
  obtain ⟨hactive, hroom⟩ := Bool.and_eq_true_iff.mp hprop
  exact ⟨⟨e.1, AList.mem_lookup_iff.mpr he⟩, hactive, by simpa using hroom⟩

/-! ## The invariant -/

/-- A row that a logged activation left behind. -/
structure CommittedBy (s : Room) (c : Commit) (op : RoomOperation) : Prop where
  stored : s.operation c.request.payload.operationId = some op
  status : op.status = .committed
  kind : op.kind = c.request.kind
  actor : op.actor = c.request.actor
  device : op.senderDevice = c.request.payload.senderDevice
  digest : op.activationRequestDigest = some (c.request.kind, c.request.payload)
  response : op.committedResponse = some c.response
  base : op.basePolicyGeneration = c.generationBefore
  raised : c.generationAfter = c.generationBefore + 1

structure Inv (s : Room) : Prop where
  keyed : ∀ id op, s.operation id = some op → op.id = id ∧ op.room = s.room
  generation : ∀ id op, s.operation id = some op →
    op.policyGeneration = op.basePolicyGeneration + 1
  unique : ∀ id id' op op', s.operation id = some op → s.operation id' = some op' →
    op.active = true → op'.active = true → id = id'
  logged : ∀ id op, s.operation id = some op → op.status = .committed →
    ∃ c ∈ s.commits, c.request.payload.operationId = id ∧
      c.generationBefore = op.basePolicyGeneration
  committed : ∀ c ∈ s.commits, ∃ op, s.CommittedBy c op
  ordered : s.commits.Pairwise fun c d => d.generationBefore < c.generationBefore
  past : ∀ c ∈ s.commits, c.generationBefore < s.policy.generation

/-- Finished operations keep their status. -/
def Kept (s s' : Room) : Prop :=
  ∀ id op, s.operation id = some op → op.Finished →
    ∃ op', s'.operation id = some op' ∧ op'.status = op.status

theorem Kept.refl (s : Room) : Kept s s := fun _ op h _ => ⟨op, h, rfl⟩

theorem Kept.trans {s s' s'' : Room} (h : Kept s s') (h' : Kept s' s'') : Kept s s'' := by
  intro id op hop hfin
  obtain ⟨op', hop', hst⟩ := h id op hop hfin
  have hfin' : op'.Finished := by
    unfold RoomOperation.Finished
    rw [hst]
    exact hfin
  obtain ⟨op'', hop'', hst'⟩ := h' id op' hop' hfin'
  exact ⟨op'', hop'', hst'.trans hst⟩

/-- What one transaction does: it keeps the invariant and the finished rows. -/
def Good (s s' : Room) : Prop := s'.Inv ∧ Kept s s'

theorem init_inv (room : Nat) (policy : RoomPolicy) : (init room policy).Inv := by
  have hnone : ∀ id op, (init room policy).operation id ≠ some op := by
    intro id op h
    simp [operation, init] at h
  refine ⟨?_, ?_, ?_, ?_, ?_, List.Pairwise.nil, ?_⟩
  · exact fun id op h => absurd h (hnone id op)
  · exact fun id op h => absurd h (hnone id op)
  · exact fun id id' op op' h => absurd h (hnone id op)
  · exact fun id op h => absurd h (hnone id op)
  · exact fun c hc => nomatch hc
  · exact fun c hc => nomatch hc

/-! ## The four effects -/

/-- Nothing the invariant reads has changed. -/
theorem good_quiet {s s' : Room} (hs : s.Inv) (hroom : s'.room = s.room) (hops : s'.ops = s.ops)
    (hgen : s'.policy.generation = s.policy.generation) (hcommits : s'.commits = s.commits) :
    Good s s' := by
  have hop : ∀ id, s'.operation id = s.operation id := fun id => by rw [operation, hops, operation]
  refine ⟨⟨?_, ?_, ?_, ?_, ?_, ?_, ?_⟩, ?_⟩
  · intro id op h
    rw [hroom]
    exact hs.keyed id op (hop id ▸ h)
  · exact fun id op h => hs.generation id op (hop id ▸ h)
  · exact fun id id' op op' h h' => hs.unique id id' op op' (hop id ▸ h) (hop id' ▸ h')
  · intro id op h hst
    rw [hcommits]
    exact hs.logged id op (hop id ▸ h) hst
  · intro c hc
    rw [hcommits] at hc
    obtain ⟨op, h⟩ := hs.committed c hc
    exact ⟨op, ⟨(hop _).trans h.stored, h.status, h.kind, h.actor, h.device, h.digest, h.response,
      h.base, h.raised⟩⟩
  · rw [hcommits]
    exact hs.ordered
  · intro c hc
    rw [hcommits] at hc
    rw [hgen]
    exact hs.past c hc
  · intro id op h _
    exact ⟨op, (hop id).trans h, rfl⟩

/-- A logged activation is untouched by writing another operation's row. -/
theorem CommittedBy.written {s s' : Room} {c : Commit} {x op : RoomOperation}
    (h : s.CommittedBy c x) (hw : Written s s' op) (hne : c.request.payload.operationId ≠ op.id) :
    s'.CommittedBy c x :=
  ⟨(hw.other hne).trans h.stored, h.status, h.kind, h.actor, h.device, h.digest, h.response,
    h.base, h.raised⟩

/-- An unfinished row moves. -/
theorem good_move {s s' : Room} (hs : s.Inv) {op op' : RoomOperation}
    (hop : s.operation op.id = some op) (hm : op.Moves op') (h : s.store op' = some s') :
    Good s s' := by
  obtain ⟨hw, hpolicy, hcommits, -⟩ := store_written h
  have hid := hm.id
  refine ⟨⟨?_, ?_, ?_, ?_, ?_, ?_, ?_⟩, ?_⟩
  · intro id x hx
    rw [hw.room]
    rcases hw.cases hx with ⟨rfl, rfl⟩ | ⟨-, hold⟩
    · exact ⟨rfl, hm.room.trans (hs.keyed _ op hop).2⟩
    · exact hs.keyed id x hold
  · intro id x hx
    rcases hw.cases hx with ⟨rfl, rfl⟩ | ⟨-, hold⟩
    · rw [hm.generation, hm.base]
      exact hs.generation _ op hop
    · exact hs.generation id x hold
  · intro id id' x x' hx hx' ha ha'
    rcases hw.cases hx with ⟨rfl, rfl⟩ | ⟨-, hold⟩ <;>
      rcases hw.cases hx' with ⟨rfl, rfl⟩ | ⟨-, hold'⟩
    · rfl
    · exact hid ▸ hs.unique _ _ op x' hop hold' (hm.active ha) ha'
    · exact hid ▸ hs.unique _ _ x op hold hop ha (hm.active ha')
    · exact hs.unique _ _ x x' hold hold' ha ha'
  · intro id x hx hst
    rw [hcommits]
    rcases hw.cases hx with ⟨rfl, rfl⟩ | ⟨-, hold⟩
    · exact absurd hst hm.after
    · exact hs.logged id x hold hst
  · intro c hc
    rw [hcommits] at hc
    obtain ⟨x, hx⟩ := hs.committed c hc
    refine ⟨x, hx.written hw fun heq => hm.before ?_⟩
    -- the row of a logged activation is committed, so it is not the one that moves
    have hsame := hx.stored
    rw [heq, hid, hop] at hsame
    rw [Option.some.inj hsame]
    exact hx.status
  · rw [hcommits]
    exact hs.ordered
  · intro c hc
    rw [hcommits] at hc
    rw [hpolicy]
    exact hs.past c hc
  · intro id x hx hfin
    by_cases heq : id = op'.id
    · rw [heq, hid, hop] at hx
      obtain rfl := Option.some.inj hx
      refine ⟨op', by rw [heq]; exact hw.self, ?_⟩
      rcases hfin with hc | hf
      · exact absurd hc hm.before
      · rw [hm.stays hf, hf]
    · exact ⟨x, (hw.other heq).trans hx, rfl⟩

/-- A new operation is recorded, its id not used before. -/
theorem good_new {s s' : Room} (hs : s.Inv) {op : RoomOperation}
    (hnew : s.operation op.id = none) (hroom : op.room = s.room)
    (hgen : op.policyGeneration = op.basePolicyGeneration + 1) (hst : op.status = .claiming)
    (h : s.store op = some s') : Good s s' := by
  obtain ⟨hw, hpolicy, hcommits, hindex⟩ := store_written h
  have hactive : op.active = true := by simp [RoomOperation.active, hst]
  have hfree := hindex hactive
  refine ⟨⟨?_, ?_, ?_, ?_, ?_, ?_, ?_⟩, ?_⟩
  · intro id x hx
    rw [hw.room]
    rcases hw.cases hx with ⟨rfl, rfl⟩ | ⟨-, hold⟩
    · exact ⟨rfl, hroom⟩
    · exact hs.keyed id x hold
  · intro id x hx
    rcases hw.cases hx with ⟨rfl, rfl⟩ | ⟨-, hold⟩
    · exact hgen
    · exact hs.generation id x hold
  · intro id id' x x' hx hx' ha ha'
    rcases hw.cases hx with ⟨rfl, rfl⟩ | ⟨hne, hold⟩ <;>
      rcases hw.cases hx' with ⟨rfl, rfl⟩ | ⟨hne', hold'⟩
    · rfl
    · have hroom' := (hs.keyed id' x' hold').2
      exact (not_occupied hfree hold' ha' (hroom'.trans hroom.symm)).symm
    · have hroom' := (hs.keyed id x hold).2
      exact not_occupied hfree hold ha (hroom'.trans hroom.symm)
    · exact hs.unique _ _ x x' hold hold' ha ha'
  · intro id x hx hst'
    rw [hcommits]
    rcases hw.cases hx with ⟨rfl, rfl⟩ | ⟨-, hold⟩
    · rw [hst] at hst'
      cases hst'
    · exact hs.logged id x hold hst'
  · intro c hc
    rw [hcommits] at hc
    obtain ⟨x, hx⟩ := hs.committed c hc
    refine ⟨x, hx.written hw fun heq => ?_⟩
    have hsame := hx.stored
    rw [heq, hnew] at hsame
    cases hsame
  · rw [hcommits]
    exact hs.ordered
  · intro c hc
    rw [hcommits] at hc
    rw [hpolicy]
    exact hs.past c hc
  · intro id x hx _
    refine ⟨x, (hw.other fun heq => ?_).trans hx, rfl⟩
    rw [heq, hnew] at hx
    cases hx

/-! ### The commit on record -/

theorem storedStatus_of_operation {s : Room} {id : Nat} {op : RoomOperation}
    (h : s.operation id = some op) : s.storedStatus id = some op.status := by
  rw [storedStatus, h]
  rfl

/-- A refused activation is not logged. -/
theorem logged_error {s : Room} {q : ActivationRequest}
    {after : Room × Except RoomError CommittedResponse} {e : RoomError} (h : after.2 = .error e) :
    s.logged q after = after.1 := by
  rw [logged, commitOf, h]
  rfl

/-- The answer to a repeated activation is not logged either. -/
theorem logged_again {s : Room} {q : ActivationRequest}
    {after : Room × Except RoomError CommittedResponse}
    (h : s.storedStatus q.payload.operationId = some .committed) : s.logged q after = after.1 := by
  rw [logged, commitOf]
  split
  · rfl
  · rw [if_pos h]
    rfl

theorem logged_ok {s s' : Room} {q : ActivationRequest} {response : CommittedResponse}
    (h : s.storedStatus q.payload.operationId ≠ some .committed) :
    s.logged q (s', .ok response) =
      { s' with
        commits :=
          { request := q, generationBefore := s.policy.generation
            generationAfter := s'.policy.generation, response := response } :: s'.commits } := by
  rw [logged, commitOf]
  simp only [if_neg h]
  rfl

/-- A prepared operation commits: its row, the policy and the log move on
together. -/
theorem good_commit {s : Room} (hs : s.Inv) {op : RoomOperation} {q : ActivationRequest}
    {c : ActivationContext} (hop : s.operation op.id = some op)
    (hid : op.id = q.payload.operationId) (hst : op.status = .prepared)
    (hkind : op.kind = q.kind) (hactor : op.actor = q.actor)
    (hdevice : op.senderDevice = q.payload.senderDevice)
    (hbase : s.policy.generation = op.basePolicyGeneration) :
    Good s (s.logged q (s.commit op q c)) := by
  unfold commit
  simp only
  split
  · rw [logged_error rfl]
    exact good_quiet hs rfl rfl rfl rfl
  · rename_i s' h
    have hnew : s.storedStatus q.payload.operationId ≠ some .committed := by
      rw [← hid, storedStatus_of_operation hop, hst]
      simp
    rw [logged_ok hnew]
    obtain ⟨hw, hpolicy, hcommits, -⟩ := store_written h
    rw [hcommits]
    have hgen := hs.generation _ op hop
    refine ⟨⟨?_, ?_, ?_, ?_, ?_, ?_, ?_⟩, ?_⟩
    · intro id x hx
      rcases hw.cases hx with ⟨rfl, rfl⟩ | ⟨-, hold⟩
      · exact ⟨rfl, (hs.keyed _ op hop).2.trans hw.room.symm⟩
      · have hk := hs.keyed id x hold
        exact ⟨hk.1, hk.2.trans hw.room.symm⟩
    · intro id x hx
      rcases hw.cases hx with ⟨rfl, rfl⟩ | ⟨-, hold⟩
      · exact hgen
      · exact hs.generation id x hold
    · intro id id' x x' hx hx' ha ha'
      rcases hw.cases hx with ⟨rfl, rfl⟩ | ⟨-, hold⟩
      · cases ha
      · rcases hw.cases hx' with ⟨rfl, rfl⟩ | ⟨-, hold'⟩
        · cases ha'
        · exact hs.unique _ _ x x' hold hold' ha ha'
    · intro id x hx hst'
      rcases hw.cases hx with ⟨rfl, rfl⟩ | ⟨-, hold⟩
      · exact ⟨_, List.mem_cons_self, hid.symm, hbase⟩
      · obtain ⟨d, hd, hrest⟩ := hs.logged id x hold hst'
        exact ⟨d, List.mem_cons_of_mem _ hd, hrest⟩
    · intro d hd
      rcases List.mem_cons.mp hd with rfl | hd
      · have hself := (congrArg s'.operation hid.symm).trans hw.self
        refine ⟨_, ⟨hself, rfl, hkind, hactor, hdevice, rfl, rfl, hbase.symm, ?_⟩⟩
        show op.policyGeneration = s.policy.generation + 1
        omega
      · obtain ⟨x, hx⟩ := hs.committed d hd
        have hne : d.request.payload.operationId ≠ op.id := by
          intro heq
          have hsame := hx.stored
          rw [heq, hop] at hsame
          have hcom := hx.status
          rw [← Option.some.inj hsame, hst] at hcom
          cases hcom
        have hx' := hx.written hw hne
        exact ⟨x, ⟨hx'.stored, hx'.status, hx'.kind, hx'.actor, hx'.device, hx'.digest,
          hx'.response, hx'.base, hx'.raised⟩⟩
    · exact List.pairwise_cons.mpr ⟨fun d hd => hs.past d hd, hs.ordered⟩
    · intro d hd
      have hnow : s.policy.generation < op.policyGeneration := by omega
      rcases List.mem_cons.mp hd with rfl | hd
      · exact hnow
      · exact Nat.lt_trans (hs.past d hd) hnow
    · intro id x hx hfin
      by_cases heq : id = op.id
      · rw [heq, hop] at hx
        obtain rfl := Option.some.inj hx
        rcases hfin with hf | hf <;> rw [hst] at hf <;> cases hf
      · exact ⟨x, (hw.other heq).trans hx, rfl⟩

/-! ## Every transaction has such an effect -/

theorem Good.refl {s : Room} (hs : s.Inv) : Good s s := ⟨hs, Kept.refl s⟩

theorem Good.trans {s s' s'' : Room} (h : Good s s') (h' : Good s' s'') : Good s s'' :=
  ⟨h'.1, h.2.trans h'.2⟩

theorem good_setProposal {s : Room} (hs : s.Inv) (request : Nat) (p : Option Proposal) :
    Good s (s.setProposal request p) :=
  good_quiet hs rfl rfl rfl rfl

theorem resume_good {s : Room} (hs : s.Inv) {request : Nat} {q : ProposalRequest}
    {op : RoomOperation} (hop : s.operation op.id = some op) :
    Good s (s.resume request q op).1 := by
  unfold resume
  split
  · exact Good.refl hs
  · split
    · exact Good.refl hs
    · exact Good.refl hs
    · exact Good.refl hs
    · rename_i hst
      split
      · split
        · rename_i s' h
          exact good_move hs hop (RoomOperation.moves_failed (by rw [hst]; nofun)) h
        · exact Good.refl hs
      · exact good_setProposal hs _ _

theorem create_good {s : Room} (hs : s.Inv) {request : Nat} {q : ProposalRequest}
    {c : ProposalContext} (hnew : s.operation q.operationId = none) :
    Good s (s.create request q c).1 := by
  unfold create
  split
  · exact Good.refl hs
  · simp only
    split
    · exact Good.refl hs
    · exact Good.refl hs
    · rename_i s' consent hcleared _
      -- clearing an expired operation comes first, in the same transaction
      have hclear : Good s s' ∧ s'.room = s.room ∧ s'.operation q.operationId = none := by
        split at hcleared
        · obtain rfl := Except.ok.inj hcleared
          exact ⟨Good.refl hs, rfl, hnew⟩
        · rename_i op hactive
          obtain ⟨⟨id, hid⟩, hact, -⟩ := activeOperation_some hactive
          have hop : s.operation op.id = some op := by
            rw [(hs.keyed id op hid).1]
            exact hid
          split at hcleared
          · split at hcleared
            · rename_i s'' h
              obtain rfl := Except.ok.inj hcleared
              have hne : op.status ≠ .committed := by
                intro hcom
                simp [RoomOperation.active, hcom] at hact
              obtain ⟨hw, -⟩ := store_written h
              refine ⟨good_move hs hop (RoomOperation.moves_failed hne) h, hw.room, ?_⟩
              rw [hw.other, hnew]
              intro heq
              rw [heq] at hnew
              exact absurd (hnew.symm.trans hop) nofun
            · cases hcleared
          · cases hcleared
      obtain ⟨hgood, hroom, hnew'⟩ := hclear
      split
      · exact Good.refl hs
      · rename_i s'' h
        have hstore := good_new hgood.1 hnew' hroom.symm rfl rfl h
        exact hgood.trans (hstore.trans (good_setProposal hstore.1 _ _))

theorem propose_good {s : Room} (hs : s.Inv) {request : Nat} {q : ProposalRequest}
    {c : ProposalContext} : Good s (s.propose request q c).1 := by
  unfold propose
  split
  · exact Good.refl hs
  · split
    · exact Good.refl hs
    · split
      · exact Good.refl hs
      · split
        · rename_i op hop
          refine resume_good hs ?_
          rw [(hs.keyed _ op hop).1]
          exact hop
        · rename_i hnew
          exact create_good hs hnew

theorem fail_good {s : Room} (hs : s.Inv) {op : RoomOperation} {q : ActivationRequest}
    {e : RoomError} (hop : s.operation op.id = some op) (hst : op.status ≠ .committed) :
    Good s (s.logged q (s.fail op e)) := by
  unfold fail
  split
  · rename_i s' h
    rw [logged_error rfl]
    exact good_move hs hop (RoomOperation.moves_failed hst) h
  · rw [logged_error rfl]
    exact Good.refl hs

theorem refused_good {s : Room} (hs : s.Inv) {q : ActivationRequest} {e : RoomError} :
    Good s (s.logged q (s, .error e)) := by
  rw [logged_error rfl]
  exact Good.refl hs

theorem activatePrepared_good {s : Room} (hs : s.Inv) {op : RoomOperation} {q : ActivationRequest}
    {c : ActivationContext} (hop : s.operation op.id = some op)
    (hid : op.id = q.payload.operationId) (hst : op.status = .prepared)
    (hkind : op.kind = q.kind) (hactor : op.actor = q.actor)
    (hdevice : op.senderDevice = q.payload.senderDevice) :
    Good s (s.logged q (s.activatePrepared op q c)) := by
  have hne : op.status ≠ .committed := by rw [hst]; nofun
  unfold activatePrepared
  split
  · exact refused_good hs
  · split
    · exact refused_good hs
    · rename_i hcontext
      split
      · exact fail_good hs hop hne
      · split
        · exact fail_good hs hop hne
        · split
          · exact refused_good hs
          · exact good_commit hs hop hid hst hkind hactor hdevice
              (not_not.mp (not_or.mp hcontext).2)

theorem activateFound_good {s : Room} (hs : s.Inv) {q : ActivationRequest}
    {c : ActivationContext} : Good s (s.logged q (s.activateFound q c)) := by
  unfold activateFound
  split
  · exact refused_good hs
  · rename_i op hfound
    have hid := (hs.keyed _ op hfound).1
    have hop : s.operation op.id = some op := by rw [hid]; exact hfound
    split
    · exact refused_good hs
    · rename_i hmatch
      split
      · rename_i hcom
        split
        · exact refused_good hs
        · split
          · rw [logged_again (hcom ▸ storedStatus_of_operation hfound)]
            exact Good.refl hs
          · exact refused_good hs
      · rename_i hne
        split
        · exact fail_good hs hop hne
        · split
          · exact refused_good hs
          · rename_i hst
            split
            · exact fail_good hs hop hne
            · simp only [not_or, not_not] at hmatch
              exact activatePrepared_good hs hop hid (not_not.mp hst) hmatch.1 hmatch.2.2.1
                hmatch.2.2.2

theorem activate_good {s : Room} (hs : s.Inv) {q : ActivationRequest} {c : ActivationContext} :
    Good s (s.logged q (s.activate q c)) := by
  unfold activate
  split
  · exact refused_good hs
  · exact activateFound_good hs

/-! ## The writes of a proposal -/

/-- A proposal's later writes find an unfinished row: it gives up an
operation only if that has not been committed, and stores what it prepared
only if that has not been committed or failed either. -/
def FindsUnfinished (s : Room) : RoomInput → Prop
  | .check request participants =>
      ∀ p ∈ s.proposals request, participants ≠ some p.operation.participantRefs →
        s.storedStatus p.operation.id ≠ some .committed
  | .claimed request packages =>
      ∀ p ∈ s.proposals request, s.storedStatus p.operation.id ≠ some .committed
        ∧ (packages ≠ [] → s.storedStatus p.operation.id ≠ some .failed)
  | _ => True

instance (s : Room) (i : RoomInput) : Decidable (s.FindsUnfinished i) := by
  unfold FindsUnfinished
  cases i <;> infer_instance

theorem giveUp_good {s : Room} (hs : s.Inv) {request : Nat} {p : Proposal} {e : RoomError}
    (hst : s.storedStatus p.operation.id ≠ some .committed) :
    Good s (s.giveUp request p e).1 := by
  have hset := good_setProposal hs request none
  unfold giveUp
  split
  · rename_i s' h
    unfold overwrite at h
    split at h
    · cases h
    · rename_i stored hstored
      have hid := (hset.1.keyed _ stored hstored).1
      refine hset.trans (good_move hset.1 (by rw [hid]; exact hstored)
        (RoomOperation.moves_failed fun hcom => hst ?_) h)
      rw [← hcom]
      exact storedStatus_of_operation hstored
  · exact hset

theorem check_good {s : Room} (hs : s.Inv) {request : Nat} {p : Proposal}
    {participants : Option (List UserRef)}
    (hst : participants ≠ some p.operation.participantRefs →
      s.storedStatus p.operation.id ≠ some .committed) :
    Good s (s.check request p participants).1 := by
  unfold check
  split
  · rename_i hne
    exact giveUp_good hs (hst hne)
  · exact good_setProposal hs _ _

theorem finish_good {s : Room} (hs : s.Inv) {request : Nat} {p : Proposal}
    {packages : List KeyPackage} (hcom : s.storedStatus p.operation.id ≠ some .committed)
    (hfail : packages ≠ [] → s.storedStatus p.operation.id ≠ some .failed) :
    Good s (s.finish request p packages).1 := by
  have hset := good_setProposal hs request none
  unfold finish
  split
  · exact giveUp_good hs hcom
  · rename_i hne
    simp only
    split
    · exact hset
    · exact hset
    · exact hset
    · split
      · rename_i s' h
        unfold overwrite at h
        split at h
        · cases h
        · rename_i stored hstored
          have hid := (hset.1.keyed _ stored hstored).1
          have hstatus : s.storedStatus p.operation.id = some stored.status :=
            storedStatus_of_operation hstored
          have hnc : stored.status ≠ .committed := by
            intro heq
            rw [heq] at hstatus
            exact hcom hstatus
          have hnf : stored.status ≠ .failed := by
            intro heq
            rw [heq] at hstatus
            exact hfail hne hstatus
          refine hset.trans (good_move hset.1 (by rw [hid]; exact hstored) ?_ h)
          refine ⟨rfl, rfl, rfl, rfl, hnc, nofun, fun heq => absurd heq hnf, fun _ => ?_⟩
          cases hcase : stored.status <;> simp_all [RoomOperation.active]
      · exact hset

/-! ## Whole runs -/

theorem step_good {s s' : Room} (hs : s.Inv) {i : RoomInput} (hg : s.FindsUnfinished i)
    (h : s.step i = some s') : Good s s' := by
  cases i with
  | elapse seconds =>
      obtain rfl := Option.some.inj h
      exact good_quiet hs rfl rfl rfl rfl
  | pause =>
      simp only [step] at h
      split at h
      · obtain rfl := Option.some.inj h
        exact good_quiet hs rfl rfl rfl rfl
      · cases h
  | propose request q c =>
      simp only [step] at h
      split at h
      · cases h
      · obtain rfl := Option.some.inj h
        exact propose_good hs
  | check request participants =>
      simp only [step] at h
      split at h
      · rename_i op hp
        obtain rfl := Option.some.inj h
        exact check_good hs (hg _ hp)
      · cases h
  | claimed request packages =>
      simp only [step] at h
      split at h
      · rename_i op hp
        obtain rfl := Option.some.inj h
        exact finish_good hs (hg _ hp).1 (hg _ hp).2
      · cases h
  | abandon request =>
      obtain rfl := Option.some.inj h
      exact good_setProposal hs _ _
  | activate q c =>
      obtain rfl := Option.some.inj h
      exact activate_good hs

theorem run_good {s s' : Room} {is : List RoomInput} (hs : s.Inv)
    (hrun : Exec step FindsUnfinished s is s') : Good s s' :=
  hrun.invariant (I := Good s) (fun _ _ _ hg hc h => hg.trans (step_good hg.1 hc h)) (Good.refl hs)

/-- Past the checks of the caller, asking again for a logged activation
returns its response as it was. -/
theorem activateFound_again {s : Room} (hs : s.Inv) {d : Commit} (hd : d ∈ s.commits)
    (c : ActivationContext) : s.activateFound d.request c = (s, .ok d.response) := by
  obtain ⟨op, hop⟩ := hs.committed d hd
  have hkey := hs.keyed _ op hop.stored
  have hmatch : ¬ (op.kind ≠ d.request.kind ∨ op.room ≠ s.room ∨ op.actor ≠ d.request.actor
      ∨ op.senderDevice ≠ d.request.payload.senderDevice) := by
    simp only [not_or, not_not]
    exact ⟨hop.kind, hkey.2, hop.actor, hop.device⟩
  simp only [activateFound, hop.stored, if_neg hmatch, hop.status, if_true, hop.digest, ne_eq,
    not_true_eq_false, if_false, hop.response]

/-- A repeated activation changes nothing, and is answered as the first one
was exactly if the caller's checks pass. -/
theorem activate_again {s : Room} (hs : s.Inv) {d : Commit} (hd : d ∈ s.commits)
    (c : ActivationContext) :
    (s.activate d.request c).1 = s ∧
      ((s.activate d.request c).2 = .ok d.response ↔ c.check d.request.payload = .ok ()) := by
  unfold activate
  cases hcheck : c.check d.request.payload with
  | error e => simp
  | ok _ => simp [activateFound_again hs hd c]

/-- Two operations that committed from one generation are one operation. -/
theorem committed_once {s : Room} (hs : s.Inv) {id id' : Nat} {op op' : RoomOperation}
    (hop : s.operation id = some op) (hop' : s.operation id' = some op')
    (hst : op.status = .committed) (hst' : op'.status = .committed)
    (hbase : op.basePolicyGeneration = op'.basePolicyGeneration) : id = id' := by
  obtain ⟨c, hc, hcid, hcbase⟩ := hs.logged id op hop hst
  obtain ⟨d, hd, hdid, hdbase⟩ := hs.logged id' op' hop' hst'
  have hnodup : (s.commits.map Commit.generationBefore).Nodup :=
    List.pairwise_map.mpr (hs.ordered.imp fun hlt => Nat.ne_of_gt hlt)
  have hsame : c = d :=
    List.inj_on_of_nodup_map hnodup hc hd (hcbase.trans (hbase.trans hdbase.symm))
  rw [← hcid, ← hdid, hsame]

/-- **The life cycle of a room's operations**, over every run in which a
proposal's later writes find an unfinished row: one unfinished operation at
most; a finished one stays as it is; each commit raised the generation by
one over its base, once per generation; and a repeated activation changes
nothing and returns what the first one did, as long as the caller still
passes the checks that come before the operation is looked up. -/
theorem operation_lifecycle {room : Nat} {policy : RoomPolicy} {is js : List RoomInput}
    {s s' : Room} (hrun : Exec step FindsUnfinished (init room policy) is s)
    (hrun' : Exec step FindsUnfinished s js s') :
    (∀ id id' op op', s.operation id = some op → s.operation id' = some op' →
        op.active = true → op'.active = true → id = id')
      ∧ (∀ id op, s.operation id = some op → op.Finished →
          ∃ op', s'.operation id = some op' ∧ op'.status = op.status)
      ∧ (∀ id op, s.operation id = some op → op.status = .committed →
          ∃ c ∈ s.commits, c.request.payload.operationId = id
            ∧ c.generationBefore = op.basePolicyGeneration
            ∧ c.generationAfter = op.basePolicyGeneration + 1)
      ∧ (∀ id id' op op', s.operation id = some op → s.operation id' = some op' →
          op.status = .committed → op'.status = .committed →
          op.basePolicyGeneration = op'.basePolicyGeneration → id = id')
      ∧ (∀ d ∈ s.commits, ∀ c, (s.activate d.request c).1 = s
          ∧ ((s.activate d.request c).2 = .ok d.response ↔
            c.check d.request.payload = .ok ())) := by
  have hs : s.Inv := (run_good (init_inv room policy) hrun).1
  refine ⟨hs.unique, (run_good hs hrun').2, ?_, ?_, fun d hd c => activate_again hs hd c⟩
  · intro id op hop hst
    obtain ⟨c, hc, hid, hbase⟩ := hs.logged id op hop hst
    obtain ⟨x, hx⟩ := hs.committed c hc
    exact ⟨c, hc, hid, hbase, by rw [hx.raised, hbase]⟩
  · intro id id' op op' hop hop' hst hst' hbase
    exact committed_once hs hop hop' hst hst' hbase

/-! ## A sample room -/

def samplePolicy : RoomPolicy :=
  { mode := .plaintext, state := .plaintext, generation := 0, groupId := none, epoch := none
    activatedAt := none }

def sampleActor : UserRef := ⟨1, "a.example"⟩

def sampleProposal : ProposalRequest :=
  { kind := .activate, operationId := 1, actor := sampleActor, senderDevice := ⟨.ked, 1⟩ }

def sampleAccess : RoomAccess :=
  { automation := false, actorLocal := true, senderDeviceActive := true, channelFound := true
    policyAuthority := .ok () }

def sampleProposalContext : ProposalContext :=
  { access := sampleAccess, messageCapable := true, crosspost := false, consent := .ok none
    participants := [sampleActor, ⟨2, "a.example"⟩], groupId := 9 }

def samplePackages : List KeyPackage := [⟨⟨.ked, 2⟩, 5⟩]

def sampleActivation : ActivationRequest :=
  { kind := .activate, actor := sampleActor
    payload :=
      { operationId := 1, senderDevice := ⟨.ked, 1⟩, policyGeneration := 1, epoch := 1
        groupId := 9, commit := 3, welcome := 4, vaultRevision := 1, vaultDigest := 6 } }

def sampleActivationContext : ActivationContext :=
  { loaded := .ok (), access := sampleAccess
    vault := { leaseToken := some 8, storedLease := some 8, stored := some (1, 6) }
    homeAttested := false, consent := .ok none
    participants := [sampleActor, ⟨2, "a.example"⟩], botDevices := []
    webhookDevices := [], mediaRotated := true, controls := [11, 12] }

/-- The same request after the vault lease has run out. -/
def sampleLateContext : ActivationContext :=
  { sampleActivationContext with
    vault := { leaseToken := some 8, storedLease := none, stored := some (1, 6) } }

/-- One proposal request from its first transaction to its last. -/
def sampleRequest (request : Nat) : List RoomInput :=
  [.propose request sampleProposal sampleProposalContext,
    .check request (some [sampleActor, ⟨2, "a.example"⟩]), .claimed request samplePackages]

theorem operation_lifecycle_sample :
    ∃ s response, Exec step FindsUnfinished (init 7 samplePolicy)
        (sampleRequest 1 ++ [.activate sampleActivation sampleActivationContext]) s
      ∧ s.storedStatus 1 = some .committed ∧ s.policy.generation = 1
      ∧ (s.activate sampleActivation sampleActivationContext).1 = s
      ∧ (s.activate sampleActivation sampleActivationContext).2 = .ok response
      ∧ (s.activate sampleActivation sampleLateContext).1 = s
      ∧ (s.activate sampleActivation sampleLateContext).2 ≠ .ok response := by
  have hsome : (runFrom step FindsUnfinished (init 7 samplePolicy)
      (sampleRequest 1 ++ [.activate sampleActivation sampleActivationContext])).map
        (fun s => (s.storedStatus 1, s.policy.generation, s.commits.map Commit.request)) =
        some (some .committed, 1, [sampleActivation]) := by
    decide +kernel
  obtain ⟨s, hrun, hs⟩ := Option.map_eq_some_iff.mp hsome
  obtain ⟨hst, hgen, hreq⟩ : s.storedStatus 1 = some .committed ∧ s.policy.generation = 1 ∧
      s.commits.map Commit.request = [sampleActivation] := by simpa using hs
  have hexec := Exec.of_runFrom hrun
  obtain ⟨d, hd, hdreq⟩ := List.mem_map.mp (hreq ▸ List.mem_singleton_self sampleActivation :
    sampleActivation ∈ s.commits.map Commit.request)
  have hagain := (operation_lifecycle hexec (.nil s)).2.2.2.2 d hd
  rw [hdreq] at hagain
  have hnow := hagain sampleActivationContext
  have hlate := hagain sampleLateContext
  exact ⟨s, d.response, hexec, hst, hgen, hnow.1, hnow.2.mpr (by decide), hlate.1,
    fun h => absurd (hlate.2.mp h) (by decide)⟩

/-- Two requests propose the same operation. The second prepares it, it is
activated, and then the first one finishes: it writes `prepared` over
`committed`. -/
theorem late_proposal_reopens_committed :
    ∃ s s', Exec step Always (init 7 samplePolicy)
        ([.propose 1 sampleProposal sampleProposalContext,
          .check 1 (some [sampleActor, ⟨2, "a.example"⟩])] ++ sampleRequest 2
          ++ [.activate sampleActivation sampleActivationContext]) s
      ∧ Exec step Always s [.claimed 1 samplePackages] s'
      ∧ s.storedStatus 1 = some .committed ∧ s'.storedStatus 1 = some .prepared := by
  have hsome : ((runFrom step Always (init 7 samplePolicy)
      ([.propose 1 sampleProposal sampleProposalContext,
        .check 1 (some [sampleActor, ⟨2, "a.example"⟩])] ++ sampleRequest 2
        ++ [.activate sampleActivation sampleActivationContext])).bind fun s =>
          (runFrom step Always s [.claimed 1 samplePackages]).map fun s' =>
            (s.storedStatus 1, s'.storedStatus 1)) = some (some .committed, some .prepared) := by
    decide +kernel
  obtain ⟨s, hrun, hrest⟩ := Option.bind_eq_some_iff.mp hsome
  obtain ⟨s', hrun', hs⟩ := Option.map_eq_some_iff.mp hrest
  obtain ⟨hst, hst'⟩ := Prod.mk.inj hs
  exact ⟨s, s', Exec.of_runFrom hrun, Exec.of_runFrom hrun', hst, hst'⟩

end Room

end Kaede
