import Kaede.Calls

/-!
# How a call ends

Runs of `CALL_TRANSITION_LUA` on the keys of one created call, with the
latest response of every participant kept beside them: the last accept
or decline the script answered with a record.

An ended call stays as it is and never ended before it was created, in
every run. The script ends a call on a decline by comparing the size of
the declined set with the number of participants less one, and it never
takes anyone out of that set. That count means "everyone but the caller
has declined" as long as the caller does not decline and nobody accepts
after declining (`RespondsOnce`).
-/

namespace Kaede

structure CallInput where
  action : CallAction
  actor : UserRef
  now : Int
deriving DecidableEq, Repr

structure CallRun where
  keys : CallKeys
  latest : UserRef → Option CallAction

def CallRun.start (n : NewCall) : CallRun where
  keys := n.keys
  latest := fun _ => none

/-- The response an input leaves behind when the script answers `reply`. -/
def respondedWith (latest : UserRef → Option CallAction) (i : CallInput) :
    CallReply → UserRef → Option CallAction
  | .refused _ => latest
  | _ =>
    if i.action = .accept ∨ i.action = .decline then
      Function.update latest i.actor (some i.action)
    else latest

def CallRun.step (s : CallRun) (i : CallInput) : Option CallRun :=
  let (reply, keys) := callTransition s.keys i.action i.actor i.now
  some { keys := keys, latest := respondedWith s.latest i reply }

def CallKeys.Ended (s : CallKeys) : Prop := ∃ call ∈ s.call, call.state = .ended

instance (s : CallKeys) : Decidable s.Ended :=
  inferInstanceAs (Decidable (∃ call ∈ s.call, call.state = .ended))

/-- A call that has ended did so at or after its creation. -/
def CallKeys.EndsAfterCreation (s : CallKeys) : Prop :=
  ∀ call ∈ s.call, call.state = .ended →
    ∃ endedAt ∈ call.endedAt, call.identity.createdAt ≤ endedAt

/-- A decline that ends the call finds everyone but the caller declined. -/
def DeclineRule (caller : UserRef) (s : CallRun) (i : CallInput) (s' : CallRun) : Prop :=
  i.action = .decline → ¬ s.keys.Ended → s'.keys.Ended →
    ∀ p ∈ s.keys.participants, p ≠ caller → s'.latest p = some .decline

/-- While the call is live, the caller does not decline and nobody who
has declined accepts. -/
def RespondsOnce (caller : UserRef) (s : CallRun) (i : CallInput) : Prop :=
  ¬ s.keys.Ended →
    (i.action = .decline → i.actor ≠ caller) ∧ (i.action = .accept → i.actor ∉ s.keys.declined)

instance (caller : UserRef) (s : CallRun) (i : CallInput) :
    Decidable (RespondsOnce caller s i) :=
  inferInstanceAs (Decidable (_ → _ ∧ _))

theorem CallRun.step_eq {s s' : CallRun} {i : CallInput} (h : s.step i = some s') :
    ∃ reply, CallEffect s.keys i.actor i.now i.action reply s'.keys ∧
      s'.latest = respondedWith s.latest i reply := by
  obtain rfl := Option.some.inj h
  exact ⟨_, callTransition_effect .., rfl⟩

@[simp] theorem CallKeys.save_call (s : CallKeys) (ref : Nat × String) (record : CallRecord) :
    (s.save ref record).call = some record := rfl

@[simp] theorem CallKeys.save_participants (s : CallKeys) (ref : Nat × String)
    (record : CallRecord) : (s.save ref record).participants = s.participants := rfl

@[simp] theorem CallKeys.save_accepted (s : CallKeys) (ref : Nat × String)
    (record : CallRecord) : (s.save ref record).accepted = s.accepted := rfl

@[simp] theorem CallKeys.save_declined (s : CallKeys) (ref : Nat × String)
    (record : CallRecord) : (s.save ref record).declined = s.declined := rfl

theorem CallKeys.ended_iff {s : CallKeys} {call : CallRecord} (h : s.call = some call) :
    s.Ended ↔ call.state = .ended := by
  simp [CallKeys.Ended, h]

/-! ## Facts of every run -/

/-- An ended record answers only repetitions. -/
theorem CallEffect.of_ended {s s' : CallKeys} {actor : UserRef} {now : Int}
    {action : CallAction} {reply : CallReply} (h : CallEffect s actor now action reply s')
    (hended : s.Ended) : s' = s := by
  obtain ⟨call, hcall, hstate⟩ := hended
  have hlive {c : CallRecord} (hc : s.call = some c) (hne : c.state ≠ .ended) : False := by
    obtain rfl := Option.some.inj (hc.symm.trans hcall)
    exact hne hstate
  cases h with
  | refused => rfl
  | repeated => rfl
  | accept hc _ hne => exact (hlive hc hne).elim
  | decline hc _ hne => exact (hlive hc hne).elim
  | endCall hc _ hne => exact (hlive hc hne).elim

theorem ended_run {C : CallRun → CallInput → Prop} {s s' : CallRun} {is : List CallInput}
    (hrun : Exec CallRun.step C s is s') (hended : s.keys.Ended) : s'.keys = s.keys := by
  refine hrun.invariant (I := fun t => t.keys = s.keys) ?_ rfl
  intro t i t' hkeys _ hstep
  obtain ⟨reply, heffect, -⟩ := CallRun.step_eq hstep
  rw [heffect.of_ended (hkeys ▸ hended), hkeys]

theorem CallRecord.terminated_ends (call : CallRecord) (now : Int) :
    ∃ endedAt ∈ (call.terminated now).endedAt,
      (call.terminated now).identity.createdAt ≤ endedAt :=
  ⟨_, rfl, le_max_left _ _⟩

theorem CallEffect.endsAfterCreation {s s' : CallKeys} {actor : UserRef} {now : Int}
    {action : CallAction} {reply : CallReply} (h : CallEffect s actor now action reply s')
    (hs : s.EndsAfterCreation) : s'.EndsAfterCreation := by
  cases h with
  | refused => exact hs
  | repeated => exact hs
  | accept hcall _ hlive _ hupdated =>
    rintro call ⟨⟩ hended
    rw [hupdated] at hended
    cases hended
  | decline hcall _ hlive _ hupdated =>
    rintro call ⟨⟩ hended
    rw [hupdated] at hended ⊢
    split at hended
    · rename_i hcount
      rw [if_pos hcount]
      exact CallRecord.terminated_ends _ _
    · exact (hlive hended).elim
  | endCall =>
    rintro call ⟨⟩ -
    exact CallRecord.terminated_ends _ _

theorem endsAfterCreation_run {C : CallRun → CallInput → Prop} (n : NewCall) {s : CallRun}
    {is : List CallInput} (hrun : Exec CallRun.step C (.start n) is s) :
    s.keys.EndsAfterCreation := by
  refine hrun.invariant (I := fun t => t.keys.EndsAfterCreation) ?_ ?_
  · intro t i t' ht _ hstep
    obtain ⟨reply, heffect, -⟩ := CallRun.step_eq hstep
    exact heffect.endsAfterCreation ht
  · intro call hcall hended
    simp only [CallRun.start, NewCall.keys_eq, Option.mem_some_iff] at hcall
    rw [← hcall] at hended
    cases hended

/-! ## What the declined set means -/

/-- The declined set holds participants other than the caller whose
latest response is a decline. -/
structure DeclinedSet (n : NewCall) (s : CallRun) : Prop where
  subset : s.keys.declined ⊆ n.participants.toFinset.erase n.caller
  latest : ∀ p ∈ s.keys.declined, s.latest p = some .decline

structure DeclinedInv (n : NewCall) (s : CallRun) : Prop where
  participants : s.keys.participants = n.participants.toFinset
  declined : ¬ s.keys.Ended → DeclinedSet n s

theorem declinedInv_start (n : NewCall) : DeclinedInv n (.start n) := by
  refine ⟨?_, fun _ => ⟨?_, ?_⟩⟩ <;> simp [CallRun.start, NewCall.keys_eq]

theorem CallEffect.participants_eq {s s' : CallKeys} {actor : UserRef} {now : Int}
    {action : CallAction} {reply : CallReply} (h : CallEffect s actor now action reply s') :
    s'.participants = s.participants := by
  cases h <;> rfl

/-- A step of a live call keeps the meaning of the declined set, whether
or not it ends the call. -/
theorem DeclinedSet.effect {n : NewCall} {s : CallRun} {keys : CallKeys} {i : CallInput}
    {reply : CallReply} (hs : DeclinedSet n s)
    (hparts : s.keys.participants = n.participants.toFinset) (hlive : ¬ s.keys.Ended)
    (hguard : RespondsOnce n.caller s i)
    (heffect : CallEffect s.keys i.actor i.now i.action reply keys) :
    DeclinedSet n { keys := keys, latest := respondedWith s.latest i reply } := by
  obtain ⟨hcaller, hdeclined⟩ := hguard hlive
  cases i with | mk action actor now => ?_
  dsimp only at hcaller hdeclined heffect
  cases heffect with
  | refused => exact ⟨hs.subset, hs.latest⟩
  | repeated hcall hactor h =>
    refine ⟨hs.subset, fun p hp => ?_⟩
    simp only [respondedWith]
    split
    · rename_i hresponse
      -- A repeated accept by somebody else, or the repeated decline itself.
      by_cases hpa : p = actor
      · subst hpa
        rcases hresponse with rfl | rfl
        · exact (hdeclined rfl hp).elim
        · simp
      · rw [Function.update_of_ne hpa]
        exact hs.latest p hp
    · exact hs.latest p hp
  | accept hcall hactor hstate hnew hupdated =>
    refine ⟨hs.subset, fun p hp => ?_⟩
    show Function.update s.latest actor _ p = _
    rw [Function.update_of_ne (fun h : p = actor => hdeclined rfl (h ▸ hp))]
    exact hs.latest p hp
  | decline hcall hactor hstate hnew hupdated =>
    refine ⟨?_, fun p hp => ?_⟩
    · refine Finset.insert_subset ?_ hs.subset
      rw [hparts] at hactor
      exact Finset.mem_erase.mpr ⟨hcaller rfl, hactor⟩
    · show Function.update s.latest actor _ p = _
      by_cases hpa : p = actor
      · rw [hpa, Function.update_self]
      · rw [Function.update_of_ne hpa]
        exact hs.latest p ((Finset.mem_insert.mp hp).resolve_left hpa)
  | endCall => exact ⟨hs.subset, hs.latest⟩

/-- A set of non-callers as large as the participants less one is all of
them. -/
theorem DeclinedSet.eq_of_card {n : NewCall} {s : CallRun} (hs : DeclinedSet n s)
    (hcard : n.participants.toFinset.card - 1 ≤ s.keys.declined.card) :
    s.keys.declined = n.participants.toFinset.erase n.caller := by
  refine Finset.eq_of_subset_of_card_le hs.subset ?_
  rwa [Finset.card_erase_of_mem (List.mem_toFinset.mpr n.caller_mem)]

/-- A decline only ends a live call through the count. -/
theorem CallEffect.card_of_decline {s s' : CallKeys} {actor : UserRef} {now : Int}
    {reply : CallReply} (h : CallEffect s actor now .decline reply s') (hlive : ¬ s.Ended)
    (hended : s'.Ended) : s.participants.card - 1 ≤ s'.declined.card := by
  cases h with
  | refused => exact (hlive hended).elim
  | repeated => exact (hlive hended).elim
  | decline hcall _ hstate _ hupdated =>
    rw [CallKeys.save_declined]
    by_contra hcount
    rw [if_neg hcount] at hupdated
    obtain ⟨call, ⟨⟩, hcall'⟩ := hended
    exact hstate (hupdated ▸ hcall')

theorem DeclinedInv.step {n : NewCall} {s s' : CallRun} {i : CallInput} (hs : DeclinedInv n s)
    (hguard : RespondsOnce n.caller s i) (hstep : s.step i = some s') :
    DeclinedInv n s' ∧ DeclineRule n.caller s i s' := by
  obtain ⟨reply, heffect, hlatest⟩ := CallRun.step_eq hstep
  have hdeclined (hlive : ¬ s.keys.Ended) : DeclinedSet n s' := by
    have h := (hs.declined hlive).effect hs.participants hlive hguard heffect
    rwa [← hlatest] at h
  refine ⟨⟨heffect.participants_eq.trans hs.participants, fun hlive => hdeclined ?_⟩, ?_⟩
  · intro hended
    exact hlive (heffect.of_ended hended ▸ hended)
  · intro haction hlive hended p hp hpc
    rw [haction] at heffect
    have hcard := heffect.card_of_decline hlive hended
    rw [hs.participants] at hcard hp
    refine (hdeclined hlive).latest p ?_
    rw [(hdeclined hlive).eq_of_card hcard]
    exact Finset.mem_erase.mpr ⟨hpc, hp⟩

theorem declinedInv_run (n : NewCall) {s : CallRun} {is : List CallInput}
    (hrun : Exec CallRun.step (RespondsOnce n.caller) (.start n) is s) : DeclinedInv n s :=
  hrun.invariant (fun _ _ _ hs hguard hstep => (hs.step hguard hstep).1) (declinedInv_start n)

/-! ## The call state machine -/

/-- In every run an ended call never changes again and did not end before
it was created. In a run where the caller does not decline and nobody
accepts after declining, a decline ends the call only when it is the
latest response of everyone but the caller. -/
theorem call_ends_as_declined (n : NewCall) :
    (∀ is s, Exec CallRun.step Always (.start n) is s →
      s.keys.EndsAfterCreation ∧
      ∀ js s', Exec CallRun.step Always s js s' → s.keys.Ended → s'.keys = s.keys) ∧
    ∀ is s, Exec CallRun.step (RespondsOnce n.caller) (.start n) is s →
      ∀ i s', RespondsOnce n.caller s i → s.step i = some s' → DeclineRule n.caller s i s' := by
  refine ⟨fun is s hrun => ⟨endsAfterCreation_run n hrun, fun js s' hrest => ended_run hrest⟩, ?_⟩
  intro is s hrun i s' hguard hstep
  exact ((declinedInv_run n hrun).step hguard hstep).2

/-- A group call of user 7 with users 8 and 9, made at second 1000. -/
def sampleCall : NewCall where
  id := 10
  channelId := 20
  channelDomain := "a"
  authorityDomain := "a"
  createdAt := 1000
  caller := ⟨7, "a"⟩
  participants := [⟨7, "a"⟩, ⟨8, "a"⟩, ⟨9, "b"⟩]
  nodup := by decide
  caller_mem := by decide

/-- User 8 declines, and then user 9: the run of the theorem in which the
call ends on the second decline. -/
theorem call_ends_as_declined_sample :
    ∃ s s', Exec CallRun.step (RespondsOnce sampleCall.caller) (.start sampleCall)
        [⟨.decline, ⟨8, "a"⟩, 1001⟩] s ∧
      s.step ⟨.decline, ⟨9, "b"⟩, 1002⟩ = some s' ∧ s'.keys.Ended ∧
      s'.latest ⟨8, "a"⟩ = some .decline := by
  have hrun : (runFrom CallRun.step (RespondsOnce sampleCall.caller) (.start sampleCall)
      [⟨.decline, ⟨8, "a"⟩, 1001⟩]).isSome := by decide
  obtain ⟨s, hs⟩ := Option.isSome_iff_exists.mp hrun
  have hexec := Exec.of_runFrom hs
  obtain rfl := Option.some.inj hs
  refine ⟨_, _, hexec, rfl, by decide, ?_⟩
  exact (call_ends_as_declined sampleCall).2 _ _ hexec _ _ (by decide) rfl rfl (by decide)
    (by decide) _ (by decide) (by decide)

/-- User 8 declines and then accepts after all, so the call is active; the
decline of user 9 ends it although user 8 is in it. -/
theorem accepting_after_declining_still_counts :
    ∃ s s', Exec CallRun.step Always (.start sampleCall)
        [⟨.decline, ⟨8, "a"⟩, 1001⟩, ⟨.accept, ⟨8, "a"⟩, 1002⟩] s ∧
      s.step ⟨.decline, ⟨9, "b"⟩, 1003⟩ = some s' ∧
      s.latest ⟨8, "a"⟩ = some .accept ∧
      ¬ DeclineRule sampleCall.caller s ⟨.decline, ⟨9, "b"⟩, 1003⟩ s' := by
  have hrun : (runFrom CallRun.step Always (.start sampleCall)
      [⟨.decline, ⟨8, "a"⟩, 1001⟩, ⟨.accept, ⟨8, "a"⟩, 1002⟩]).isSome := by decide
  obtain ⟨s, hs⟩ := Option.isSome_iff_exists.mp hrun
  have hexec := Exec.of_runFrom hs
  obtain rfl := Option.some.inj hs
  refine ⟨_, _, hexec, rfl, by decide, ?_⟩
  intro hrule
  have h := hrule rfl (by decide) (by decide) ⟨8, "a"⟩ (by decide) (by decide)
  revert h
  decide

end Kaede
