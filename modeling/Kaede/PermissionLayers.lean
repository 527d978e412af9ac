import Kaede.PermissionClosure

/-!
# The layers of a channel's permissions

What `resolve_permissions` grants, bit by bit. Three layers of overwrites
lie over the permissions of the member's roles: the member's own overwrite,
those of its roles taken together, and the one of the default role. A bit
is decided by the highest layer that mentions it, and a layer that both
allows and denies it allows it (`testBit_resolve_iff`). A layer is read off
the set of overwrites, so their order in the list says nothing.
-/

namespace Kaede

open Permission Mask PermissionOverwrite

/-- What a layer says of each bit. -/
structure PermissionLayer where
  allows : Nat → Prop
  denies : Nat → Prop

/-- The layer of the overwrites a condition picks out. -/
def layerOf (overwrites : List PermissionOverwrite) (applies : PermissionOverwrite → Prop) :
    PermissionLayer where
  allows i := ∃ o ∈ overwrites, applies o ∧ o.allow.testBit i = true
  denies i := ∃ o ∈ overwrites, applies o ∧ o.deny.testBit i = true

/-- The highest layer that mentions a bit decides, or else what is below. -/
def DecidedBy (below : Nat → Prop) : List PermissionLayer → Nat → Prop
  | [], i => below i
  | layer :: layers, i => layer.allows i ∨ ¬layer.denies i ∧ DecidedBy below layers i

namespace PermissionOverwrite

def target (o : PermissionOverwrite) : Nat × String := (o.targetId, o.targetDomain)

def OfMember (user : Nat × String) (o : PermissionOverwrite) : Prop :=
  o.targetType = .member ∧ o.target = user

def OfRoles (everyone : Nat × String) (roleIds : List (Nat × String)) (o : PermissionOverwrite) :
    Prop :=
  o.targetType = .role ∧ o.target ≠ everyone ∧ o.target ∈ roleIds

def OfEveryone (everyone : Nat × String) (o : PermissionOverwrite) : Prop :=
  o.targetType = .role ∧ o.target = everyone

/-- An overwrite of one of the layers. -/
def Applicable (user everyone : Nat × String) (roleIds : List (Nat × String))
    (o : PermissionOverwrite) : Prop :=
  o.OfMember user ∨ o.OfRoles everyone roleIds ∨ o.OfEveryone everyone

end PermissionOverwrite

/-- At most one overwrite for each target. -/
def OneEach (overwrites : List PermissionOverwrite) : Prop :=
  (overwrites.map fun o => (o.targetType, o.target)).Nodup

/-- The three layers, the highest first. -/
def layers (user everyone : Nat × String) (roleIds : List (Nat × String))
    (overwrites : List PermissionOverwrite) : List PermissionLayer :=
  [layerOf overwrites (OfMember user), layerOf overwrites (OfRoles everyone roleIds),
    layerOf overwrites (OfEveryone everyone)]

section

variable {user everyone : Nat × String} {roleIds : List (Nat × String)} {base m i : Nat}
  {overwrites overwrites' : List PermissionOverwrite} {owner timedOut : Bool}
  {channelType : Option ChannelType}

theorem testBit_applyOverwrite (m deny allow i : Nat) :
    (applyOverwrite m deny allow).testBit i = true ↔
      allow.testBit i = true ∨ ¬deny.testBit i = true ∧ m.testBit i = true := by
  rw [applyOverwrite, Nat.testBit_or, testBit_andNot]
  cases m.testBit i <;> cases deny.testBit i <;> cases allow.testBit i <;> simp

theorem OneEach.eq (h : OneEach overwrites) {o o' : PermissionOverwrite} (ho : o ∈ overwrites)
    (ho' : o' ∈ overwrites) (htype : o.targetType = o'.targetType)
    (htarget : o.target = o'.target) : o = o' :=
  List.inj_on_of_nodup_map h ho ho' (by rw [htype, htarget])

theorem allows_cons {o : PermissionOverwrite} {applies : PermissionOverwrite → Prop} :
    (layerOf (o :: overwrites) applies).allows i ↔
      (applies o ∧ o.allow.testBit i = true) ∨ (layerOf overwrites applies).allows i := by
  simp [layerOf]

theorem denies_cons {o : PermissionOverwrite} {applies : PermissionOverwrite → Prop} :
    (layerOf (o :: overwrites) applies).denies i ↔
      (applies o ∧ o.deny.testBit i = true) ∨ (layerOf overwrites applies).denies i := by
  simp [layerOf]

/-- One overwrite, found by its target, is a layer. -/
theorem testBit_found {q : PermissionOverwrite → Bool} (applies : PermissionOverwrite → Prop)
    (hq : ∀ o, q o = true ↔ applies o)
    (hone : ∀ o ∈ overwrites, ∀ o' ∈ overwrites, applies o → applies o' → o = o') :
    (match overwrites.find? q with
      | some o => applyOverwrite m o.deny o.allow
      | none => m).testBit i = true ↔
      (layerOf overwrites applies).allows i ∨
        ¬(layerOf overwrites applies).denies i ∧ m.testBit i = true := by
  cases hfind : overwrites.find? q with
  | none =>
      have hnone : ∀ o ∈ overwrites, ¬applies o := by
        intro o ho
        rw [← hq]
        exact List.find?_eq_none.mp hfind o ho
      constructor
      · intro hi
        exact .inr ⟨fun ⟨o, ho, happlies, _⟩ => hnone o ho happlies, hi⟩
      · rintro (⟨o, ho, happlies, -⟩ | ⟨-, hi⟩)
        · exact absurd happlies (hnone o ho)
        · exact hi
  | some o =>
      have ho := List.mem_of_find?_eq_some hfind
      have happlies := (hq o).mp (List.find?_some hfind)
      have hallows : (layerOf overwrites applies).allows i ↔ o.allow.testBit i = true := by
        constructor
        · rintro ⟨o', ho', happlies', hi⟩
          rwa [hone o ho o' ho' happlies happlies']
        · exact fun hi => ⟨o, ho, happlies, hi⟩
      have hdenies : (layerOf overwrites applies).denies i ↔ o.deny.testBit i = true := by
        constructor
        · rintro ⟨o', ho', happlies', hi⟩
          rwa [hone o ho o' ho' happlies happlies']
        · exact fun hi => ⟨o, ho, happlies, hi⟩
      rw [hallows, hdenies]
      exact testBit_applyOverwrite ..

/-- The loop over the overwrites of the member's roles. -/
theorem testBit_roleMasks (everyone : Nat × String) (roleIds : List (Nat × String))
    (overwrites : List PermissionOverwrite) (i : Nat) (acc : Nat × Nat) :
    let masks := overwrites.foldl
      (fun acc item =>
        if item.targetType = .role ∧ (item.targetId, item.targetDomain) ≠ everyone ∧
            (item.targetId, item.targetDomain) ∈ roleIds then
          (acc.1 ||| item.deny, acc.2 ||| item.allow)
        else acc) acc
    (masks.1.testBit i = true ↔ acc.1.testBit i = true ∨
      (layerOf overwrites (OfRoles everyone roleIds)).denies i) ∧
    (masks.2.testBit i = true ↔ acc.2.testBit i = true ∨
      (layerOf overwrites (OfRoles everyone roleIds)).allows i) := by
  induction overwrites generalizing acc with
  | nil => simp [layerOf]
  | cons o overwrites ih =>
      rw [List.foldl_cons, allows_cons, denies_cons]
      by_cases happlies : o.targetType = .role ∧ (o.targetId, o.targetDomain) ≠ everyone ∧
          (o.targetId, o.targetDomain) ∈ roleIds
      · have hof : o.OfRoles everyone roleIds := happlies
        rw [if_pos happlies]
        obtain ⟨hdeny, hallow⟩ := ih (acc.1 ||| o.deny, acc.2 ||| o.allow)
        refine ⟨hdeny.trans ?_, hallow.trans ?_⟩
        · rw [Nat.testBit_or, Bool.or_eq_true, or_assoc, and_iff_right hof]
        · rw [Nat.testBit_or, Bool.or_eq_true, or_assoc, and_iff_right hof]
      · have hof : ¬o.OfRoles everyone roleIds := happlies
        rw [if_neg happlies]
        obtain ⟨hdeny, hallow⟩ := ih acc
        refine ⟨hdeny.trans ?_, hallow.trans ?_⟩
        · exact or_congr Iff.rfl (or_iff_right fun h => hof h.1).symm
        · exact or_congr Iff.rfl (or_iff_right fun h => hof h.1).symm

/-- The mask before its dependencies are looked at: a guild has none. -/
theorem resolve_eq_normalize (howner : owner = false) :
    resolvePermissions owner user everyone roleIds base overwrites channelType timedOut =
      normalizePermissionDependencies
        (resolvePermissions owner user everyone roleIds base overwrites none timedOut)
        channelType timedOut := by
  subst howner
  rfl

theorem testBit_resolve_iff (hone : OneEach overwrites) (hadmin : base &&& administrator = 0) :
    (resolvePermissions false user everyone roleIds base overwrites none timedOut).testBit i =
        true ↔
      DecidedBy (fun i => base.testBit i = true) (layers user everyone roleIds overwrites) i := by
  have hone {applies : PermissionOverwrite → Prop} {kind : TargetType} {target : Nat × String}
      (h : ∀ o, applies o ↔ o.targetType = kind ∧ o.target = target) :
      ∀ o ∈ overwrites, ∀ o' ∈ overwrites, applies o → applies o' → o = o' := by
    intro o ho o' ho' happlies happlies'
    rw [h] at happlies happlies'
    exact hone.eq ho ho' (happlies.1.trans happlies'.1.symm) (happlies.2.trans happlies'.2.symm)
  rw [resolvePermissions, if_neg (by simp), normalizePermissionDependencies]
  simp only [hadmin, ne_eq, not_true_eq_false, if_false]
  refine (testBit_found (OfMember user) (fun o => ?_) (hone fun o => Iff.rfl)).trans
    (or_congr Iff.rfl (and_congr Iff.rfl ?_))
  · show decide (_ ∧ _) = true ↔ _ ∧ _
    exact decide_eq_true_iff
  refine (testBit_applyOverwrite ..).trans ?_
  obtain ⟨hdeny, hallow⟩ := testBit_roleMasks everyone roleIds overwrites i (0, 0)
  simp only [Nat.zero_testBit, Bool.false_eq_true, false_or] at hdeny hallow
  refine or_congr hallow (and_congr (not_congr hdeny) ?_)
  refine testBit_found (OfEveryone everyone) (fun o => ?_) (hone fun o => Iff.rfl)
  show decide (_ ∧ _) = true ↔ _ ∧ _
  exact decide_eq_true_iff

theorem layers_perm (h : overwrites'.Perm overwrites) :
    layers user everyone roleIds overwrites' = layers user everyone roleIds overwrites := by
  have hlayer (applies : PermissionOverwrite → Prop) :
      layerOf overwrites' applies = layerOf overwrites applies := by
    simp only [layerOf, h.mem_iff]
  rw [layers, layers, hlayer, hlayer, hlayer]

theorem OneEach.perm (hone : OneEach overwrites) (h : overwrites'.Perm overwrites) :
    OneEach overwrites' :=
  (h.map _).nodup_iff.mpr hone

theorem resolve_perm (hone : OneEach overwrites) (h : overwrites'.Perm overwrites) :
    resolvePermissions owner user everyone roleIds base overwrites' channelType timedOut =
      resolvePermissions owner user everyone roleIds base overwrites channelType timedOut := by
  cases owner with
  | true => rfl
  | false =>
      refine (resolve_eq_normalize rfl).trans (Eq.trans ?_ (resolve_eq_normalize rfl).symm)
      congr 1
      by_cases hadmin : base &&& administrator = 0
      · refine Nat.eq_of_testBit_eq fun i => ?_
        rw [Bool.eq_iff_iff, testBit_resolve_iff (hone.perm h) hadmin,
          testBit_resolve_iff hone hadmin, layers_perm h]
      · simp [resolvePermissions, hadmin]

theorem normalize_sub (m : Nat) (channelType : Option ChannelType) (timedOut : Bool) :
    Sub (normalizePermissionDependencies m channelType timedOut) m := by
  cases channelType with
  | none => exact .refl m
  | some t =>
      rw [← normalizeOver_eq, normalizeOver_timedOut, normalizeOver_eq]
      split
      · exact (and_sub_left _ _).trans (normalize_greatest t m).sub
      · exact (normalize_greatest t m).sub

/-- A bit that the layers grant is there from the roles or allowed by one of
the overwrites. -/
theorem DecidedBy.granted
    (h : DecidedBy (fun i => base.testBit i = true) (layers user everyone roleIds overwrites) i) :
    base.testBit i = true ∨ ∃ o ∈ overwrites, o.Applicable user everyone roleIds ∧
      o.allow.testBit i = true := by
  obtain ⟨o, ho, happlies, hi⟩ | ⟨-, h⟩ := h
  · exact .inr ⟨o, ho, .inl happlies, hi⟩
  · obtain ⟨o, ho, happlies, hi⟩ | ⟨-, h⟩ := h
    · exact .inr ⟨o, ho, .inr (.inl happlies), hi⟩
    · obtain ⟨o, ho, happlies, hi⟩ | ⟨-, h⟩ := h
      · exact .inr ⟨o, ho, .inr (.inr happlies), hi⟩
      · exact .inl h

theorem normalize_allPermissions (channelType : Option ChannelType) (timedOut : Bool) :
    normalizePermissionDependencies allPermissions channelType timedOut =
      if channelType.isSome ∧ timedOut then timeoutAllowed else allPermissions := by
  cases channelType with
  | none => rfl
  | some t =>
      rw [← normalizeOver_eq, normalizeOver_timedOut, normalizeOver_eq,
        normalize_of_closed (closed_allPermissions t)]
      cases timedOut with
      | false => rfl
      | true => exact (by decide : allPermissions &&& timeoutAllowed = timeoutAllowed)

/-- The order of the overwrites does not matter; a bit is decided by the
highest layer that mentions it; owners and administrators get everything,
but that a timed out administrator only reads in a channel; and nothing is
granted that neither the roles nor an overwrite grant. -/
theorem permissions_layered (owner : Bool) (user everyone : Nat × String)
    (roleIds : List (Nat × String)) (base : Nat) (overwrites : List PermissionOverwrite)
    (channelType : Option ChannelType) (timedOut : Bool) (hone : OneEach overwrites) :
    (∀ overwrites' : List PermissionOverwrite, overwrites'.Perm overwrites →
      resolvePermissions owner user everyone roleIds base overwrites' channelType timedOut =
        resolvePermissions owner user everyone roleIds base overwrites channelType timedOut) ∧
    (owner = false → base &&& administrator = 0 →
      resolvePermissions owner user everyone roleIds base overwrites channelType timedOut =
        normalizePermissionDependencies
          (resolvePermissions owner user everyone roleIds base overwrites none timedOut)
          channelType timedOut ∧
      ∀ i, (resolvePermissions owner user everyone roleIds base overwrites none timedOut).testBit i
          = true ↔
        DecidedBy (fun i => base.testBit i = true) (layers user everyone roleIds overwrites) i) ∧
    (owner = true →
      resolvePermissions owner user everyone roleIds base overwrites channelType timedOut =
        allPermissions) ∧
    (owner = false → base &&& administrator ≠ 0 →
      resolvePermissions owner user everyone roleIds base overwrites channelType timedOut =
        if channelType.isSome ∧ timedOut then timeoutAllowed else allPermissions) ∧
    (owner = false → base &&& administrator = 0 → ∀ i,
      (resolvePermissions owner user everyone roleIds base overwrites channelType
        timedOut).testBit i
          = true →
        base.testBit i = true ∨ ∃ o ∈ overwrites, o.Applicable user everyone roleIds ∧
          o.allow.testBit i = true) := by
  refine ⟨fun overwrites' h => resolve_perm hone h, ?_, ?_, ?_, ?_⟩
  · rintro rfl hadmin
    exact ⟨resolve_eq_normalize rfl, fun i => testBit_resolve_iff hone hadmin⟩
  · rintro rfl
    rfl
  · rintro rfl hadmin
    rw [resolvePermissions, if_neg (by simp)]
    simp only [hadmin, ne_eq, not_false_eq_true, if_true]
    exact normalize_allPermissions channelType timedOut
  · rintro rfl hadmin i hi
    rw [resolve_eq_normalize rfl] at hi
    exact ((testBit_resolve_iff hone hadmin).mp (normalize_sub _ _ _ i hi)).granted

/-- A member with a role, and an overwrite of each layer. -/
theorem layered_overwrites :
    OneEach [⟨10, "kaede.example", .role, 0, sendMessages⟩,
      ⟨11, "kaede.example", .role, sendMessages, 0⟩,
      ⟨22, "kaede.example", .member, 0, sendMessages⟩] ∧
    resolvePermissions false (22, "kaede.example") (10, "kaede.example")
      [(10, "kaede.example"), (11, "kaede.example")] (viewChannel ||| sendMessages)
      [⟨22, "kaede.example", .member, 0, sendMessages⟩,
        ⟨11, "kaede.example", .role, sendMessages, 0⟩,
        ⟨10, "kaede.example", .role, 0, sendMessages⟩] (some .text) false =
    resolvePermissions false (22, "kaede.example") (10, "kaede.example")
      [(10, "kaede.example"), (11, "kaede.example")] (viewChannel ||| sendMessages)
      [⟨10, "kaede.example", .role, 0, sendMessages⟩,
        ⟨11, "kaede.example", .role, sendMessages, 0⟩,
        ⟨22, "kaede.example", .member, 0, sendMessages⟩] (some .text) false := by
  have hone : OneEach [⟨10, "kaede.example", .role, 0, sendMessages⟩,
      ⟨11, "kaede.example", .role, sendMessages, 0⟩,
      ⟨22, "kaede.example", .member, 0, sendMessages⟩] := by
    unfold OneEach
    decide
  exact ⟨hone, (permissions_layered false _ _ _ _ _ _ false hone).1 _
    (List.reverse_perm [_, _, _])⟩

/-- An administrator who is timed out does not have the full mask in a text
channel. -/
theorem timed_out_administrator_reads_only :
    resolvePermissions false (22, "kaede.example") (10, "kaede.example") [(10, "kaede.example")]
      administrator [] (some .text) true = viewChannel ||| readMessageHistory ∧
    resolvePermissions false (22, "kaede.example") (10, "kaede.example") [(10, "kaede.example")]
      administrator [] (some .text) true ≠ allPermissions := by
  decide +kernel

end

end Kaede
