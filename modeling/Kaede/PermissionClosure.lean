import Kaede.Guild
import Kaede.Masks

/-!
# The dependencies of permissions

What `normalize_permission_dependencies` computes: the greatest part of a
mask in which every bit has what it needs (`normalize_greatest`).

The source takes bits off in stages, some masks by the type of the channel
first and then the rows of the metadata table until a pass takes nothing
off. Each stage is a `Mask.Rule`, so none of them loses a closed part of
the mask; that the last mask is closed under the first rules as well rests
on the table: a row for one of the bits they ask for depends on
`VIEW_CHANNEL` at most (`foundation_rows`), so no pass takes those off.

The loop is written for any table here, to say that the order of the rows
does not matter.
-/

namespace Kaede

open Permission Mask

/-- What a row asks for when it names `dependency`. -/
def requiredBit (t : ChannelType) (dependency : Nat) : Nat :=
  if dependency = sendMessages ∧ t.isThread then sendMessagesInThreads else dependency

/-- Every bit of the mask has what it needs in a channel of this type. -/
structure DependencyClosed (t : ChannelType) (p : Nat) : Prop where
  view : p &&& viewChannel = 0 → p = 0
  text : t.sendsMessages = true → p &&& sendMessages = 0 → p &&& textDependent = 0
  threadText : t.isThread = true → p &&& sendMessagesInThreads = 0 →
    p &&& threadTextDependent = 0
  voice : t.isVoice = true → p &&& connect = 0 → p &&& voiceDependent = 0
  speaker : t = .voice → p &&& speak = 0 → p &&& prioritySpeaker = 0
  metadata : ∀ row ∈ permissionMetadata, p &&& row.permission ≠ 0 →
    ∀ d ∈ row.dependencies, Sub (requiredBit t d) p

/-- `r` is the greatest closed part of `m`. -/
structure GreatestClosed (t : ChannelType) (m r : Nat) : Prop where
  sub : Sub r m
  closed : DependencyClosed t r
  greatest : ∀ s, Sub s m → DependencyClosed t s → Sub s r

theorem GreatestClosed.unique {t : ChannelType} {m r r' : Nat} (h : GreatestClosed t m r)
    (h' : GreatestClosed t m r') : r = r' :=
  (h'.greatest r h.sub h.closed).antisymm (h.greatest r' h'.sub h'.closed)

/-! ## The loop, for any table -/

section

variable (table : List PermissionMetadata) (t : ChannelType)

def stripPassOver (permissions : Nat) : Nat × Bool :=
  table.foldl (stripRow t) (permissions, false)

def stripLoopOver : Nat → Nat → Nat
  | 0, permissions => permissions
  | fuel + 1, permissions =>
      let (next, changed) := stripPassOver table t permissions
      if changed then stripLoopOver fuel next else next

theorem stripLoopOver_succ (fuel permissions : Nat) :
    stripLoopOver table t (fuel + 1) permissions =
      if (stripPassOver table t permissions).2 then
        stripLoopOver table t fuel (stripPassOver table t permissions).1
      else (stripPassOver table t permissions).1 := rfl

/-- `normalize_permission_dependencies` over another table. -/
def normalizeOver (permissions : Nat) (timedOut : Bool) : Nat :=
  if permissions &&& viewChannel = 0 then 0
  else
    let p := stripLoopOver table t (table.length + 1) (stripChannelDependents t permissions)
    if timedOut then p &&& timeoutAllowed else p

theorem stripLoopOver_eq (fuel permissions : Nat) :
    stripLoopOver permissionMetadata t fuel permissions = stripLoop t fuel permissions := by
  induction fuel generalizing permissions with
  | zero => rfl
  | succ fuel ih =>
      rw [stripLoopOver_succ, stripLoop]
      show _ = if _ then _ else _
      rw [ih]
      rfl

theorem normalizeOver_eq (permissions : Nat) (timedOut : Bool) :
    normalizeOver permissionMetadata t permissions timedOut =
      normalizePermissionDependencies permissions (some t) timedOut := by
  rw [normalizeOver, normalizePermissionDependencies]
  show (if _ then _ else _) = if _ then _ else _
  rw [stripLoopOver_eq]

end

/-! ## Rows as rules -/

section

variable {table : List PermissionMetadata} {t : ChannelType} {s p m d : Nat}
  {row : PermissionMetadata}

theorem dependencyMissing_iff : dependencyMissing t p d = true ↔ ¬Sub (requiredBit t d) p := by
  unfold dependencyMissing requiredBit
  split
  · rw [decide_eq_true_iff]
    exact and_bit_eq_zero_iff
  · rw [decide_eq_true_iff]
    exact and_eq_right_iff.not

theorem dependencyMissing_anti (h : Sub s p) (hp : dependencyMissing t p d = true) :
    dependencyMissing t s d = true := by
  rw [dependencyMissing_iff] at hp ⊢
  exact fun hs => hp (hs.trans h)

def rowRule (t : ChannelType) (row : PermissionMetadata) : Rule where
  bits := row.permission
  broken p := row.dependencies.any (dependencyMissing t p)
  anti s p h hp := by
    rw [List.any_eq_true] at hp ⊢
    obtain ⟨d, hd, hmissing⟩ := hp
    exact ⟨d, hd, dependencyMissing_anti h hmissing⟩

theorem rowRule_holds_iff : (rowRule t row).Holds p ↔
    (p &&& row.permission ≠ 0 → ∀ d ∈ row.dependencies, Sub (requiredBit t d) p) := by
  constructor
  · intro h hp d hd
    by_contra hmissing
    exact hp (h (List.any_eq_true.mpr ⟨d, hd, dependencyMissing_iff.mpr hmissing⟩))
  · intro h hbroken
    obtain ⟨d, hd, hmissing⟩ := List.any_eq_true.mp hbroken
    by_contra hp
    exact dependencyMissing_iff.mp hmissing (h hp d hd)

theorem stripRow_fst (acc : Nat × Bool) (row : PermissionMetadata) :
    (stripRow t acc row).1 = (rowRule t row).fire acc.1 := by
  by_cases hbit : acc.1 &&& row.permission = 0
  · rw [stripRow, if_pos hbit]
    exact (Rule.Holds.fire_eq fun _ => hbit).symm
  · rw [stripRow, if_neg hbit, Rule.fire]
    show _ = if row.dependencies.any (dependencyMissing t acc.1) then _ else _
    split <;> rfl

/-- How many rows a mask has bits of. -/
def liveRows (table : List PermissionMetadata) (p : Nat) : Nat :=
  table.countP fun row => p &&& row.permission ≠ 0

theorem liveRows_mono (table : List PermissionMetadata) (h : Sub s p) :
    liveRows table s ≤ liveRows table p := by
  refine List.countP_mono_left fun row _ hrow => ?_
  rw [decide_eq_true_iff] at hrow ⊢
  exact fun hp => hrow (h.and_eq_zero hp)

theorem liveRows_andNot_lt (hrow : row ∈ table) (hp : p &&& row.permission ≠ 0) :
    liveRows table (andNot p row.permission) < liveRows table p := by
  obtain ⟨l, l', rfl⟩ := List.append_of_mem hrow
  have hl := liveRows_mono l (andNot_sub p row.permission)
  have hl' := liveRows_mono l' (andNot_sub p row.permission)
  unfold liveRows at *
  rw [List.countP_append, List.countP_append, List.countP_cons, List.countP_cons,
    if_neg (by simp [andNot_and]), if_pos (by simpa using hp)]
  omega

/-! ## A pass and the loop -/

/-- A pass takes nothing off and every row holds, or there is one live row
less. -/
theorem stripPass_cases (rows : List PermissionMetadata) (hrows : ∀ row ∈ rows, row ∈ table)
    (acc : Nat × Bool) :
    (rows.foldl (stripRow t) acc).1 = (rows.map (rowRule t)).foldl (fun p r => r.fire p) acc.1 ∧
    ((rows.foldl (stripRow t) acc).2 = true → acc.2 = true ∨
      liveRows table (rows.foldl (stripRow t) acc).1 < liveRows table acc.1) ∧
    ((rows.foldl (stripRow t) acc).2 = false → acc.2 = false ∧
      (rows.foldl (stripRow t) acc).1 = acc.1 ∧ ∀ row ∈ rows, (rowRule t row).Holds acc.1) := by
  induction rows generalizing acc with
  | nil => exact ⟨rfl, .inl, fun h => ⟨h, rfl, fun row hrow => by cases hrow⟩⟩
  | cons row rows ih =>
      obtain ⟨hvalue, hchanged, hkept⟩ := ih (fun r hr => hrows r (List.mem_cons_of_mem _ hr))
        (stripRow t acc row)
      have hfirst := stripRow_fst (t := t) acc row
      have hsub :
          Sub ((rows.foldl (stripRow t) (stripRow t acc row)).1) (stripRow t acc row).1 := by
        rw [hvalue]
        exact Rule.foldl_sub _ _
      rw [List.foldl_cons, List.map_cons, List.foldl_cons, ← hfirst]
      refine ⟨hvalue, fun h => ?_, fun h => ?_⟩
      · by_cases hfired : acc.1 &&& row.permission ≠ 0 ∧
            row.dependencies.any (dependencyMissing t acc.1) = true
        · refine .inr (lt_of_le_of_lt (liveRows_mono table hsub) ?_)
          rw [stripRow, if_neg hfired.1, if_pos hfired.2]
          exact liveRows_andNot_lt (hrows row List.mem_cons_self) hfired.1
        · have hsame : stripRow t acc row = acc := by
            rw [stripRow]
            split
            · rfl
            · rename_i hbit
              rw [if_neg fun hmissing => hfired ⟨hbit, hmissing⟩]
          rw [hsame] at h hchanged ⊢
          exact hchanged h
      · obtain ⟨hflag, hrest, hholds⟩ := hkept h
        have hsame : stripRow t acc row = acc ∧ (rowRule t row).Holds acc.1 := by
          rw [stripRow] at hflag ⊢
          split at hflag
          · rename_i hbit
            rw [if_pos hbit]
            exact ⟨rfl, fun _ => hbit⟩
          · split at hflag
            · cases hflag
            · rename_i hbit hmissing
              rw [if_neg hbit, if_neg hmissing]
              exact ⟨rfl, fun hbroken => absurd hbroken hmissing⟩
        rw [hsame.1] at hrest hholds hflag ⊢
        refine ⟨hflag, hrest, fun r hr => ?_⟩
        obtain rfl | hr := List.mem_cons.mp hr
        · exact hsame.2
        · exact hholds r hr

/-- With fuel for every live row the loop ends in a mask that every row
leaves alone, and loses nothing that the rows leave alone. -/
theorem stripLoop_spec {fuel : Nat} (hfuel : liveRows table p < fuel) :
    Sub (stripLoopOver table t fuel p) p ∧
    (∀ row ∈ table, (rowRule t row).Holds (stripLoopOver table t fuel p)) ∧
    ∀ s, Sub s p → (∀ row ∈ table, (rowRule t row).Holds s) →
      Sub s (stripLoopOver table t fuel p) := by
  induction fuel generalizing p with
  | zero => omega
  | succ fuel ih =>
      obtain ⟨hvalue, hchanged, hkept⟩ := stripPass_cases (t := t) table (fun _ h => h) (p, false)
      have hsub : Sub (stripPassOver table t p).1 p := by
        rw [stripPassOver, hvalue]
        exact Rule.foldl_sub _ _
      rw [stripLoopOver_succ]
      split
      · rename_i hflag
        have hlive : liveRows table (stripPassOver table t p).1 < liveRows table p :=
          (hchanged hflag).resolve_left (by simp)
        obtain ⟨hsub', hholds, hgreatest⟩ := ih (p := (stripPassOver table t p).1) (by omega)
        refine ⟨hsub'.trans hsub, hholds, fun s hs hclosed => hgreatest s ?_ hclosed⟩
        rw [stripPassOver, hvalue]
        refine Rule.sub_foldl hs fun r hr => ?_
        obtain ⟨row, hrow, rfl⟩ := List.mem_map.mp hr
        exact hclosed row hrow
      · rename_i hflag
        obtain ⟨-, hsame, hholds⟩ := hkept (Bool.eq_false_iff.mpr hflag)
        have hsame : (stripPassOver table t p).1 = p := hsame
        rw [hsame]
        exact ⟨.refl p, hholds, fun s hs _ => hs⟩

/-! ## The bits the channel rules ask for -/

/-- The masks of `stripChannelDependents` as rules. -/
def channelRules (t : ChannelType) : List Rule :=
  [.lacking t.sendsMessages textDependent sendMessages,
    .lacking t.isThread threadTextDependent sendMessagesInThreads,
    .lacking t.isVoice voiceDependent connect,
    .lacking (t = .voice) prioritySpeaker speak]

theorem stripChannelDependents_eq (t : ChannelType) (p : Nat) :
    stripChannelDependents t p = (channelRules t).foldl (fun p r => r.fire p) p := by
  simp only [stripChannelDependents, channelRules, Rule.lacking, List.foldl_cons,
    List.foldl_nil, Rule.fire, Bool.and_eq_true, decide_eq_true_eq]

/-- The bits that other bits need by the type of the channel, `SPEAK` apart. -/
def foundation : Nat := viewChannel ||| sendMessages ||| sendMessagesInThreads ||| connect

theorem foundation_rows : ∀ row ∈ permissionMetadata, row.permission &&& foundation ≠ 0 →
    ∀ d ∈ row.dependencies, d = viewChannel := by
  decide

theorem requiredBit_viewChannel (t : ChannelType) : requiredBit t viewChannel = viewChannel :=
  if_neg fun h => absurd h.1 (by decide)

/-- The foundation of a mask is closed under every row. -/
theorem rowRule_holds_foundation (htable : ∀ row ∈ table, row ∈ permissionMetadata)
    (hview : Sub viewChannel p) : ∀ row ∈ table, (rowRule t row).Holds (p &&& foundation) := by
  intro row hrow
  rw [rowRule_holds_iff]
  intro hbit d hd
  have hfoundation : row.permission &&& foundation ≠ 0 := by
    intro hzero
    refine hbit ((and_sub_right p foundation).and_eq_zero ?_)
    rw [Nat.and_comm]
    exact hzero
  rw [foundation_rows row (htable row hrow) hfoundation d hd, requiredBit_viewChannel]
  intro i hi
  rw [Nat.testBit_and, hview i hi, Bool.true_and]
  exact (and_eq_right_iff.mp (by decide : foundation &&& viewChannel = viewChannel)) i hi

theorem lacking_holds_foundation (applies : Bool) {bits needed : Nat}
    (h : Sub (foundation &&& bits) needed) :
    (Rule.lacking applies bits needed).Holds (p &&& foundation) := by
  rw [Rule.lacking_holds_iff]
  intro _ hneeded
  refine and_eq_zero_iff.mpr fun i hi => ?_
  by_contra hbit
  have hfoundation := and_sub_right p foundation i hi
  have : needed.testBit i = true := by
    refine h i ?_
    rw [Nat.testBit_and, hfoundation, Bool.true_and]
    exact Bool.not_eq_false _ ▸ hbit
  rw [and_eq_zero_iff.mp hneeded i hi] at this
  cases this

/-- The foundation of a mask is closed under the rules of its channel. -/
theorem channelRules_hold_foundation (t : ChannelType) (p : Nat) :
    ∀ r ∈ channelRules t, r.Holds (p &&& foundation) := by
  intro r hr
  simp only [channelRules, List.mem_cons, List.not_mem_nil, or_false] at hr
  obtain rfl | rfl | rfl | rfl := hr
  · exact lacking_holds_foundation _ (and_eq_right_iff.mp (by decide))
  · exact lacking_holds_foundation _ (and_eq_right_iff.mp (by decide))
  · exact lacking_holds_foundation _ (and_eq_right_iff.mp (by decide))
  · exact lacking_holds_foundation _ (and_eq_right_iff.mp (by decide))

theorem dependencyClosed_iff : DependencyClosed t p ↔
    (p &&& viewChannel = 0 → p = 0) ∧ (∀ r ∈ channelRules t, r.Holds p) ∧
      ∀ row ∈ permissionMetadata, (rowRule t row).Holds p := by
  simp only [channelRules, List.forall_mem_cons, List.not_mem_nil, false_imp_iff, implies_true,
    and_true, Rule.lacking_holds_iff, rowRule_holds_iff, decide_eq_true_eq]
  constructor
  · rintro ⟨hview, htext, hthread, hvoice, hspeaker, hmetadata⟩
    exact ⟨hview, ⟨htext, hthread, hvoice, hspeaker⟩, hmetadata⟩
  · rintro ⟨hview, ⟨htext, hthread, hvoice, hspeaker⟩, hmetadata⟩
    exact ⟨hview, htext, hthread, hvoice, hspeaker, hmetadata⟩

/-! ## The greatest closed part -/

/-- A rule that asks for a bit of the foundation holds at the end: the bit
was missing from the start. -/
theorem lacking_holds_of_foundation {applies : Bool} {bits needed r : Nat}
    (hrule : .lacking applies bits needed ∈ channelRules t) (hneeded : Sub needed foundation)
    (hfoundation : Sub (m &&& foundation) r) (hr : Sub r (stripChannelDependents t m)) :
    (Rule.lacking applies bits needed).Holds r := by
  rw [Rule.lacking_holds_iff]
  intro happlies hlacks
  refine hr.and_eq_zero ?_
  rw [stripChannelDependents_eq]
  refine Rule.foldl_and_eq_zero hrule ?_
  show (applies && decide (m &&& needed = 0)) = true
  rw [happlies, Bool.true_and, decide_eq_true_iff]
  refine and_eq_zero_iff.mpr fun i hi => ?_
  by_contra hbit
  rw [Bool.not_eq_false] at hbit
  have hkept : r.testBit i = true := by
    refine hfoundation i ?_
    rw [Nat.testBit_and, hi, hneeded i hbit]
    rfl
  rw [and_eq_zero_iff.mp hlacks i hkept] at hbit
  cases hbit

/-- A table with the rows of the source's, in any order. -/
theorem normalizeOver_greatest (htable : ∀ row, row ∈ table ↔ row ∈ permissionMetadata)
    (t : ChannelType) (m : Nat) : GreatestClosed t m (normalizeOver table t m false) := by
  rw [normalizeOver]
  split
  · rename_i hview
    refine ⟨zero_sub m, ?_, fun s hs hclosed => ?_⟩
    · rw [dependencyClosed_iff]
      have hzero (r : Rule) : r.Holds 0 := fun _ => Nat.zero_and _
      exact ⟨fun _ => rfl, fun r _ => hzero r, fun row _ => hzero _⟩
    · rw [hclosed.view (hs.and_eq_zero hview)]
      exact .refl 0
  · rename_i hview
    have hview : Sub viewChannel m := by
      by_contra h
      exact hview (and_bit_eq_zero_iff.mpr h)
    simp only [Bool.false_eq_true, if_false]
    set p := stripChannelDependents t m with hp
    have hpm : Sub p m := by
      rw [hp, stripChannelDependents_eq]
      exact Rule.foldl_sub _ _
    obtain ⟨hsub, hrows, hgreatest⟩ := stripLoop_spec (t := t) (p := p)
      (Nat.lt_succ_of_le (List.countP_le_length : liveRows table p ≤ table.length))
    set r := stripLoopOver table t (table.length + 1) p
    have hfoundation : Sub (m &&& foundation) r := by
      refine hgreatest _ ?_ ?_
      · rw [hp, stripChannelDependents_eq]
        exact Rule.sub_foldl (and_sub_left _ _) (channelRules_hold_foundation t m)
      · exact rowRule_holds_foundation (fun row hrow => (htable row).mp hrow) hview
    have hrows : ∀ row ∈ permissionMetadata, (rowRule t row).Holds r :=
      fun row hrow => hrows row ((htable row).mpr hrow)
    refine ⟨hsub.trans hpm, ?_, fun s hs hclosed => ?_⟩
    · refine dependencyClosed_iff.mpr ⟨fun hnone => ?_, fun r' hr' => ?_, hrows⟩
      · refine absurd hnone (and_bit_eq_zero_iff.not.mpr (not_not.mpr fun i hi => ?_))
        refine hfoundation i ?_
        rw [Nat.testBit_and, hview i hi, Bool.true_and]
        exact and_eq_right_iff.mp (by decide : foundation &&& viewChannel = viewChannel) i hi
      · simp only [channelRules, List.mem_cons, List.not_mem_nil, or_false] at hr'
        obtain rfl | rfl | rfl | rfl := hr'
        · exact lacking_holds_of_foundation (by simp [channelRules])
            (and_eq_right_iff.mp (by decide)) hfoundation hsub
        · exact lacking_holds_of_foundation (by simp [channelRules])
            (and_eq_right_iff.mp (by decide)) hfoundation hsub
        · exact lacking_holds_of_foundation (by simp [channelRules])
            (and_eq_right_iff.mp (by decide)) hfoundation hsub
        · -- `SPEAK` is asked for by the table as well.
          rw [Rule.lacking_holds_iff]
          intro _ hspeak
          by_contra hpriority
          have hrow := rowRule_holds_iff.mp
            (hrows { permission := prioritySpeaker, dependencies := [connect, speak] }
              (by simp [permissionMetadata])) hpriority speak (by decide)
          rw [requiredBit, if_neg fun h => absurd h.1 (by decide)] at hrow
          exact and_bit_eq_zero_iff.mp hspeak hrow
    · obtain ⟨-, hchannel, hmetadata⟩ := dependencyClosed_iff.mp hclosed
      refine hgreatest s ?_ fun row hrow => hmetadata row ((htable row).mp hrow)
      rw [hp, stripChannelDependents_eq]
      exact Rule.sub_foldl hs hchannel

theorem normalize_greatest (t : ChannelType) (m : Nat) :
    GreatestClosed t m (normalizePermissionDependencies m (some t) false) := by
  rw [← normalizeOver_eq]
  exact normalizeOver_greatest (fun _ => Iff.rfl) t m

theorem normalize_of_closed (h : DependencyClosed t p) :
    normalizePermissionDependencies p (some t) false = p :=
  (normalize_greatest t p).unique ⟨.refl p, h, fun _ hs _ => hs⟩

theorem normalize_mono (h : Sub s p) : Sub (normalizePermissionDependencies s (some t) false)
    (normalizePermissionDependencies p (some t) false) :=
  (normalize_greatest t p).greatest _ ((normalize_greatest t s).sub.trans h)
    (normalize_greatest t s).closed

theorem normalizeOver_false (h : ∀ row, row ∈ table ↔ row ∈ permissionMetadata) :
    normalizeOver table t p false = normalizePermissionDependencies p (some t) false :=
  (normalizeOver_greatest h t p).unique (normalize_greatest t p)

/-- A timeout keeps a part of what there would be without it. -/
theorem normalizeOver_timedOut (table : List PermissionMetadata) (t : ChannelType) (p : Nat)
    (timedOut : Bool) : normalizeOver table t p timedOut =
      if timedOut then normalizeOver table t p false &&& timeoutAllowed
      else normalizeOver table t p false := by
  cases timedOut with
  | false => rfl
  | true =>
      rw [normalizeOver, normalizeOver]
      split
      · exact (Nat.zero_and _).symm
      · rfl

theorem normalizeOver_perm (h : table.Perm permissionMetadata) (timedOut : Bool) :
    normalizeOver table t p timedOut =
      normalizePermissionDependencies p (some t) timedOut := by
  rw [← normalizeOver_eq, normalizeOver_timedOut, normalizeOver_timedOut permissionMetadata,
    normalizeOver_false fun row => h.mem_iff, normalizeOver_eq]

/-- What a timed out member keeps is closed: it has no bit without
`VIEW_CHANNEL`, and no other bit that needs something. -/
theorem closed_timedOut (h : DependencyClosed t p) : DependencyClosed t (p &&& timeoutAllowed) := by
  have hview : p &&& timeoutAllowed ≠ 0 → Sub viewChannel (p &&& timeoutAllowed) := by
    intro hsome
    have hp : Sub viewChannel p := by
      by_contra hnone
      rw [h.view (and_bit_eq_zero_iff.mpr hnone), Nat.zero_and] at hsome
      exact hsome rfl
    intro i hi
    rw [Nat.testBit_and, hp i hi, Bool.true_and]
    exact and_eq_right_iff.mp (by decide : timeoutAllowed &&& viewChannel = viewChannel) i hi
  have hnothing {bits : Nat} (hbits : timeoutAllowed &&& bits = 0) :
      p &&& timeoutAllowed &&& bits = 0 :=
    (and_sub_right p timeoutAllowed).and_eq_zero hbits
  have hrows : ∀ row ∈ permissionMetadata, timeoutAllowed &&& row.permission ≠ 0 →
      ∀ d ∈ row.dependencies, d = viewChannel := by
    decide
  refine ⟨fun hnone => ?_, fun _ _ => hnothing (by decide), fun _ _ => hnothing (by decide),
    fun _ _ => hnothing (by decide), fun _ _ => hnothing (by decide), fun row hrow hbit d hd => ?_⟩
  · by_contra hsome
    exact and_bit_eq_zero_iff.mp hnone (hview hsome)
  · have hallowed : timeoutAllowed &&& row.permission ≠ 0 := fun hzero => hbit (hnothing hzero)
    rw [hrows row hrow hallowed d hd, requiredBit_viewChannel]
    refine hview fun hzero => hbit ?_
    rw [hzero, Nat.zero_and]

theorem closed_normalize (t : ChannelType) (m : Nat) (timedOut : Bool) :
    DependencyClosed t (normalizePermissionDependencies m (some t) timedOut) := by
  rw [← normalizeOver_eq, normalizeOver_timedOut, normalizeOver_eq]
  split
  · exact closed_timedOut (normalize_greatest t m).closed
  · exact (normalize_greatest t m).closed

theorem closed_allPermissions (t : ChannelType) : DependencyClosed t allPermissions := by
  have hrows : ∀ row ∈ permissionMetadata, ∀ d ∈ row.dependencies, allPermissions &&& d = d := by
    decide
  refine ⟨fun h => absurd h (by decide), fun _ h => absurd h (by decide),
    fun _ h => absurd h (by decide), fun _ h => absurd h (by decide),
    fun _ h => absurd h (by decide), fun row hrow _ d hd => ?_⟩
  rw [requiredBit]
  split
  · exact and_eq_right_iff.mp (by decide)
  · exact and_eq_right_iff.mp (hrows row hrow d hd)

/-- Every mask that is resolved for a channel is closed. -/
theorem closed_resolvePermissions (owner : Bool) (user everyone : Nat × String)
    (roleIds : List (Nat × String)) (base : Nat) (overwrites : List PermissionOverwrite)
    (t : ChannelType) (timedOut : Bool) :
    DependencyClosed t (resolvePermissions owner user everyone roleIds base overwrites (some t)
      timedOut) := by
  rw [resolvePermissions]
  split
  · exact closed_allPermissions t
  · exact closed_normalize t _ timedOut

/-- `normalize_permission_dependencies` gives the greatest closed part of a
mask. So it is idempotent, monotone and blind to the order of the table, and
a bot's grant that normalizes a resolved mask again changes nothing. -/
theorem normalization_is_greatest_closed :
    (∀ (t : ChannelType) (m : Nat),
      GreatestClosed t m (normalizePermissionDependencies m (some t) false)) ∧
    (∀ (t : ChannelType) (m : Nat),
      normalizePermissionDependencies (normalizePermissionDependencies m (some t) false) (some t)
        false = normalizePermissionDependencies m (some t) false) ∧
    (∀ (t : ChannelType) (m m' : Nat), Sub m m' →
      Sub (normalizePermissionDependencies m (some t) false)
        (normalizePermissionDependencies m' (some t) false)) ∧
    (∀ (table : List PermissionMetadata), table.Perm permissionMetadata →
      ∀ (t : ChannelType) (m : Nat) (timedOut : Bool), normalizeOver table t m timedOut =
        normalizePermissionDependencies m (some t) timedOut) ∧
    ∀ (g : Guild) (grant : BotGuildPermissionGrant) (channel : Option Channel) (owner : Bool)
      (user everyone : Nat × String) (roleIds : List (Nat × String)) (base : Nat)
      (overwrites : List PermissionOverwrite) (timedOut : Bool),
      g.applyGrant grant (resolvePermissions owner user everyone roleIds base overwrites
          (channel.map Channel.type) timedOut) channel =
        if grant.installationId = none ∨
            ∃ c, channel = some c ∧ g.channelRestrictionsAllow grant.channelRestrictions c = false
          then 0
        else resolvePermissions owner user everyone roleIds base overwrites
          (channel.map Channel.type) timedOut := by
  refine ⟨normalize_greatest, fun t m => normalize_of_closed (normalize_greatest t m).closed,
    fun t m m' h => normalize_mono h, fun table h t m timedOut => normalizeOver_perm h timedOut, ?_⟩
  intro g grant channel owner user everyone roleIds base overwrites timedOut
  unfold Guild.applyGrant
  by_cases hinstalled : grant.installationId = none
  · rw [if_pos hinstalled, if_pos (.inl hinstalled)]
  · rw [if_neg hinstalled]
    cases channel with
    | none =>
        rw [if_neg]
        rintro (h | ⟨c, hc, -⟩)
        · exact hinstalled h
        · cases hc
    | some c =>
        cases hallow : g.channelRestrictionsAllow grant.channelRestrictions c with
        | false => rw [if_pos (.inr ⟨c, rfl, hallow⟩)]; simp [hallow]
        | true =>
            rw [if_neg]
            · simp only [hallow, if_true]
              exact normalize_of_closed (closed_resolvePermissions ..)
            · rintro (h | ⟨c', hc, hfalse⟩)
              · exact hinstalled h
              · rw [← Option.some.inj hc, hallow] at hfalse
                cases hfalse

end

end Kaede
