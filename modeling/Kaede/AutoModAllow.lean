import Kaede.AutoModPatterns
import Mathlib.Data.List.Nodup
import Mathlib.Data.List.Perm.Subperm

/-!
# The allow list of an AutoMod rule

`evaluate_trigger` (`backend/app/automod/engine.py`) with the checks of
`TriggerMetadata` (`schemas.py`). What the allow list takes is blanked, and
the rest is searched for the keywords.

A longer allow list should only make a rule match less. Blanks keep every
word in its place, so a keyword of words with one space between them is found
only where it was found before (`OccursAt.of_more`). A space with no letter
next to it is another matter: where the message has a word instead, and the
word is allowed, the blanks make the keyword whole. `allow_list_sound_iff`
says that such spaces are the only reason.

The preset keywords are the operator's, and regular expressions are run by a
library; both are in `Deployment`.
-/

namespace Kaede.AutoMod

inductive Preset where
  | profanity
  | sexualContent
  | slurs
deriving DecidableEq, Repr

inductive TriggerType where
  | keyword
  | memberProfile
  | keywordPreset
  | mentionSpam
  | spam
deriving DecidableEq, Repr

/-- The trigger's part of a rule. -/
structure TriggerMetadata where
  keywordFilter : List Text := []
  regexPatterns : List Text := []
  presets : List Preset := []
  allowList : List Text := []
  mentionTotalLimit : Option Nat := none
deriving DecidableEq, Repr

/-- An entry that `validate_keywords` takes. -/
def entryOk (item : Text) : Prop := hasWord (strip item) = true ∧ item.length ≤ 60

instance (item : Text) : Decidable (entryOk item) :=
  inferInstanceAs (Decidable (_ ∧ _))

/-- `validate_keywords`, with the length of the field. -/
structure KeywordsOk (items : List Text) : Prop where
  unique : items.Nodup
  bounded : items.length ≤ 1000
  entries : ∀ item ∈ items, entryOk item

/-- Metadata that `TriggerMetadata` takes, without regular expressions. -/
structure TriggerMetadata.Accepted (m : TriggerMetadata) : Prop where
  keywordFilter : KeywordsOk m.keywordFilter
  noPatterns : m.regexPatterns = []
  presets : m.presets.length ≤ 3
  allowList : KeywordsOk m.allowList
  mentionTotalLimit : ∀ n ∈ m.mentionTotalLimit, 1 ≤ n ∧ n ≤ 50

inductive MatchKind where
  | keyword
  | regex
  | preset (preset : Preset)
  | mentionSpam
  | spam
deriving DecidableEq, Repr

structure MatchResult where
  matched : Bool
  keyword : Option Text := none
  kind : Option MatchKind := none
  matchedContent : Option Text := none
deriving DecidableEq, Repr

/-- What differs between deployments. -/
structure Deployment where
  /-- `PRESET_PATTERNS` -/
  presetPatterns : Preset → List Text
  /-- `safe_regex_matched_text` -/
  safeRegexMatchedText : Text → Text → Option Text
  /-- `\w` -/
  isWord : Char → Bool

/-! ## Spam -/

/-- `re.findall(r"\w+", ...)` -/
def Deployment.words (d : Deployment) (content : Text) : List Text :=
  (content.splitOnP fun c => !d.isWord c).filter (· ≠ [])

/-- How often the most frequent word is in the text. -/
def repeatedWords (words : List Text) : Nat := (words.map fun w => words.count w).foldr max 0

/-- `re.findall(r"https?://", ...)`, counted. -/
def linkCount (content : Text) : Nat :=
  content.tails.countP fun rest =>
    "http://".toList.isPrefixOf rest || "https://".toList.isPrefixOf rest

/-- `re.search(r"(.)\1{14,}", ...)` -/
def excessiveRepetition (content : Text) : Bool :=
  content.tails.any fun rest =>
    rest.head?.any fun c => c ≠ '\n' && rest.take 15 = List.replicate 15 c

/-! ## A trigger -/

namespace Library

variable (lib : Library)

/-- The keyword is found in the text. -/
def finds (content keyword : Text) : Bool := (lib.keywordMatchedText content keyword).isSome

/-- What is shown of a match: as it is in the message, if it is found there. -/
def shown (sourceContent : Text) (matched : Option Text) : Text :=
  (matched.filter (· ≠ [])).getD sourceContent

/-- `evaluate_trigger` -/
def evaluateTrigger (d : Deployment) (triggerType : TriggerType) (metadata : TriggerMetadata)
    (content : Text) (mentionCount : Nat) : MatchResult :=
  let sourceContent := content.take MAX_EVALUATED_CHARACTERS
  let normalized := lib.normalizeContent sourceContent
  let candidateContent := lib.maskAllowed normalized metadata.allowList
  let candidateSource := lib.maskAllowed sourceContent metadata.allowList
  match triggerType with
  | .keyword | .memberProfile =>
      match metadata.keywordFilter.find? (lib.finds candidateContent) with
      | some keyword =>
          { matched := true, keyword := some keyword, kind := some .keyword
            matchedContent :=
              some (shown sourceContent (lib.keywordMatchedText candidateSource keyword)) }
      | none =>
          match metadata.regexPatterns.find? fun pattern =>
              (d.safeRegexMatchedText pattern candidateContent).isSome with
          | some pattern =>
              { matched := true, keyword := some pattern, kind := some .regex
                matchedContent :=
                  some (shown sourceContent (d.safeRegexMatchedText pattern candidateSource)) }
          | none => { matched := false }
  | .keywordPreset =>
      match (metadata.presets.flatMap fun p => (d.presetPatterns p).map (p, ·)).find?
          fun k => lib.finds candidateContent k.2 with
      | some (preset, keyword) =>
          { matched := true, keyword := some keyword, kind := some (.preset preset)
            matchedContent :=
              some (shown sourceContent (lib.keywordMatchedText candidateSource keyword)) }
      | none => { matched := false }
  | .mentionSpam =>
      let limit := metadata.mentionTotalLimit.getD 50
      { matched := limit < mentionCount, keyword := some (toString limit).toList
        kind := some .mentionSpam }
  | .spam =>
      let matched := 8 ≤ repeatedWords (d.words normalized) || 6 ≤ linkCount normalized ||
        excessiveRepetition normalized
      { matched, kind := if matched then some .spam else none }

/-! ## What is found -/

variable {lib} {pattern : KeywordPattern} {content keyword : Text} {allow more : List Text}

theorem finds_iff : lib.finds content keyword = true ↔
    ∃ pattern, lib.keywordPattern keyword = some pattern ∧ ∃ j, OccursAt lib pattern content j := by
  rw [finds, keywordMatchedText]
  cases lib.keywordPattern keyword with
  | none => simp
  | some pattern =>
    rw [Option.bind_some, Option.isSome_map]
    refine Iff.trans ⟨fun h => ?_, ?_⟩ ((@exists_matchAt_iff lib pattern content).trans (by simp))
    · obtain ⟨span, hspan⟩ := Option.isSome_iff_exists.mp h
      exact ⟨span.1, Option.isSome_iff_exists.mpr ⟨_, (searchFrom_some hspan).2.1⟩⟩
    · rintro ⟨i, hi⟩
      obtain ⟨span, hspan, -⟩ := exists_searchFrom hi (Nat.zero_le i)
      rw [hspan]
      rfl

/-- What the text has where a mask leaves a character. -/
theorem getElem?_of_masked {p : Nat} {c : Char} (h : (lib.maskAllowed content more)[p]? = some c)
    (hc : isSpace c = false) : ¬lib.Blanked content more p ∧ content[p]? = some c := by
  classical
  rw [getElem?_maskAllowed] at h
  split at h
  · cases h
    cases hc
  · next hblank => exact ⟨hblank, h⟩

/-- Where a longer list blanks nothing, both masks have the text. -/
theorem getElem?_masks {p : Nat} (hmore : allow ⊆ more) (h : ¬lib.Blanked content more p) :
    (lib.maskAllowed content allow)[p]? = (lib.maskAllowed content more)[p]? := by
  classical
  rw [getElem?_maskAllowed, getElem?_maskAllowed, if_neg h, if_neg fun ha => h (ha.mono hmore)]

/-- A space with no character other than white space next to it. -/
def ExposedAt (core : Text) (q : Nat) : Prop :=
  core[q]? = some ' ' ∧ startsWord core q = true ∧ endsWord core (q + 1) = true

/-- A keyword with such a space. -/
def Exposed (lib : Library) (keyword : Text) : Prop :=
  ∃ pattern, lib.keywordPattern keyword = some pattern ∧ ∃ q, ExposedAt pattern.core q

section

variable {j : Nat} (hmore : allow ⊆ more)
  (h : OccursAt lib pattern (lib.maskAllowed content more) j)
include h

/-- A letter of the core is a letter of the text that no mask takes. -/
theorem letter_of_core {r : Nat} {p : Char} (hp : pattern.core[r]? = some p)
    (hletter : isSpace p = false) : ¬lib.Blanked content more (j + r) ∧
      ∃ c, content[j + r]? = some c ∧ isSpace c = false := by
  obtain ⟨c, hc, halike⟩ := h.core r p hp
  have hword : isSpace c = false := (lib.alike_isSpace halike).trans hletter
  obtain ⟨hblank, hcontent⟩ := getElem?_of_masked hc hword
  exact ⟨hblank, c, hcontent, hword⟩

/-- A space of the core next to a letter is not blanked. -/
theorem not_blanked_of_core {r : Nat} (hexposed : ¬ExposedAt pattern.core r) {p : Char}
    (hp : pattern.core[r]? = some p) : ¬lib.Blanked content more (j + r) := by
  classical
  intro hblank
  obtain ⟨c, hc, halike⟩ := h.core r p hp
  rw [getElem?_maskAllowed, if_pos hblank] at hc
  obtain rfl := Option.some.inj hc
  obtain rfl := (lib.alike_space halike).mpr rfl
  by_cases hstarts : startsWord pattern.core r = true
  · -- the letter behind the space would be blanked with it
    have hends : ¬endsWord pattern.core (r + 1) = true := fun hends =>
      hexposed ⟨hp, hstarts, hends⟩
    obtain ⟨d, hd, hletter⟩ := endsWord_eq_false.mp (Bool.eq_false_iff.mpr hends)
    obtain ⟨hkept, c, hc, hword⟩ := letter_of_core h hd hletter
    exact hkept (hblank.next hc hword)
  · obtain ⟨s, rfl⟩ : ∃ s, r = s + 1 := Nat.exists_eq_succ_of_ne_zero fun hzero => by
      rw [hzero] at hstarts
      exact hstarts rfl
    obtain ⟨d, hd, hletter⟩ := startsWord_succ_eq_false.mp (Bool.eq_false_iff.mpr hstarts)
    obtain ⟨hkept, c, hc, hword⟩ := letter_of_core h hd hletter
    exact hkept (Blanked.before hblank hc hword)

include hmore

/-- The edge of a word in front of a keyword is there without the longer
list. -/
theorem startsWord_of_more (hleading : pattern.leading = false)
    (hstarts : startsWord (lib.maskAllowed content more) j = true) :
    startsWord (lib.maskAllowed content allow) j = true := by
  cases j with
  | zero => rfl
  | succ i =>
    refine Bool.of_not_eq_false fun hinside => ?_
    obtain ⟨c, hc, hword⟩ := startsWord_succ_eq_false.mp hinside
    have hblank : lib.Blanked content more i := by
      by_contra hkept
      rw [getElem?_masks hmore hkept] at hc
      rw [startsWord_succ_eq_false.mpr ⟨c, hc, hword⟩] at hstarts
      cases hstarts
    -- the word goes on into the keyword, which begins with a letter
    obtain ⟨d, hd⟩ :=
      Option.ne_none_iff_exists'.mp (mt List.head?_eq_none_iff.mp pattern.core_ne_nil)
    have hletter := pattern.starts_word hleading d hd
    rw [List.head?_eq_getElem?] at hd
    obtain ⟨hkept, e, he, hword'⟩ := letter_of_core h hd hletter
    exact hkept (hblank.next he hword')

/-- So is the one behind it. -/
theorem endsWord_of_more (htrailing : pattern.trailing = false)
    (hends : endsWord (lib.maskAllowed content more) (j + pattern.core.length) = true) :
    endsWord (lib.maskAllowed content allow) (j + pattern.core.length) = true := by
  refine Bool.of_not_eq_false fun hinside => ?_
  obtain ⟨c, hc, hword⟩ := endsWord_eq_false.mp hinside
  have hblank : lib.Blanked content more (j + pattern.core.length) := by
    by_contra hkept
    rw [getElem?_masks hmore hkept] at hc
    rw [endsWord_eq_false.mpr ⟨c, hc, hword⟩] at hends
    cases hends
  obtain ⟨d, hd⟩ :=
    Option.ne_none_iff_exists'.mp (mt List.getLast?_eq_none_iff.mp pattern.core_ne_nil)
  have hletter := pattern.ends_word htrailing d hd
  rw [List.getLast?_eq_getElem?] at hd
  obtain ⟨hkept, e, he, hword'⟩ := letter_of_core h hd hletter
  have hlength := List.length_pos_of_ne_nil pattern.core_ne_nil
  rw [show j + pattern.core.length = j + (pattern.core.length - 1) + 1 by omega] at hblank
  exact hkept (hblank.before he hword')

/-- A keyword without exposed spaces is found with the shorter list where it
is found with the longer one. -/
theorem OccursAt.of_more (hexposed : ∀ q, ¬ExposedAt pattern.core q) :
    OccursAt lib pattern (lib.maskAllowed content allow) j where
  core r p hp := by
    rw [getElem?_masks hmore (not_blanked_of_core h (hexposed r) hp)]
    exact h.core r p hp
  starts := by
    cases hleading : pattern.leading with
    | true => exact .inl rfl
    | false =>
      refine .inr (startsWord_of_more hmore h hleading ?_)
      exact h.starts.resolve_left (hleading ▸ Bool.false_ne_true)
  ends := by
    cases htrailing : pattern.trailing with
    | true => exact .inl rfl
    | false =>
      refine .inr (endsWord_of_more hmore h htrailing ?_)
      exact h.ends.resolve_left (htrailing ▸ Bool.false_ne_true)

end

theorem finds_of_more (hmore : allow ⊆ more) (hexposed : ¬lib.Exposed keyword)
    (h : lib.finds (lib.maskAllowed content more) keyword = true) :
    lib.finds (lib.maskAllowed content allow) keyword = true := by
  obtain ⟨pattern, hpattern, j, hj⟩ := finds_iff.mp h
  refine finds_iff.mpr ⟨pattern, hpattern, j, hj.of_more hmore fun q hq => ?_⟩
  exact hexposed ⟨pattern, hpattern, q, hq⟩

/-- A mask depends on which entries there are. -/
theorem maskAllowed_congr (hmore : allow ⊆ more) (hless : more ⊆ allow) :
    lib.maskAllowed content allow = lib.maskAllowed content more := by
  classical
  refine List.ext_getElem? fun p => ?_
  have hblank : lib.Blanked content allow p ↔ lib.Blanked content more p :=
    ⟨fun h => h.mono hmore, fun h => h.mono hless⟩
  rw [getElem?_maskAllowed, getElem?_maskAllowed]
  simp only [hblank]

/-! ## What matches -/

variable {d : Deployment} {triggerType : TriggerType} {m : TriggerMetadata} {mentionCount : Nat}

/-- The keywords a trigger looks for. -/
def keywordsOf (d : Deployment) (triggerType : TriggerType) (m : TriggerMetadata) : List Text :=
  match triggerType with
  | .keyword | .memberProfile => m.keywordFilter
  | .keywordPreset => m.presets.flatMap d.presetPatterns
  | .mentionSpam | .spam => []

/-- The metadata without its keywords. -/
def withoutKeywords (m : TriggerMetadata) : TriggerMetadata :=
  { m with keywordFilter := [], presets := [], allowList := [] }

/-- A trigger matches when a keyword is found in the masked message, or for a
reason that has nothing to do with keywords. -/
theorem matched_iff (hpatterns : m.regexPatterns = []) :
    (lib.evaluateTrigger d triggerType m content mentionCount).matched = true ↔
      (∃ k ∈ keywordsOf d triggerType m, lib.finds (lib.maskAllowed
        (lib.normalizeContent (content.take MAX_EVALUATED_CHARACTERS)) m.allowList) k = true) ∨
      (lib.evaluateTrigger d triggerType (withoutKeywords m) content mentionCount).matched =
        true := by
  cases triggerType with
  | keyword | memberProfile =>
    simp only [evaluateTrigger, keywordsOf, withoutKeywords, hpatterns, List.find?_nil,
      Bool.false_eq_true, or_false]
    split
    · next k hk =>
      exact iff_of_true rfl ⟨k, List.mem_of_find?_eq_some hk, List.find?_some hk⟩
    · next hnone =>
      refine iff_of_false Bool.false_ne_true ?_
      rintro ⟨k, hk, hfinds⟩
      exact List.find?_eq_none.mp hnone k hk hfinds
  | keywordPreset =>
    simp only [evaluateTrigger, keywordsOf, withoutKeywords, List.flatMap_nil, List.find?_nil,
      Bool.false_eq_true, or_false]
    split
    · next preset k hk =>
      have hfinds := List.find?_some hk
      refine iff_of_true rfl ⟨k, ?_, hfinds⟩
      have hmem := List.mem_of_find?_eq_some hk
      simp only [List.mem_flatMap, List.mem_map, Prod.mk.injEq] at hmem ⊢
      obtain ⟨p, hp, k', hk', rfl, rfl⟩ := hmem
      exact ⟨p, hp, hk'⟩
    · next hnone =>
      refine iff_of_false Bool.false_ne_true ?_
      rintro ⟨k, hk, hfinds⟩
      obtain ⟨p, hp, hk⟩ := List.mem_flatMap.mp hk
      refine List.find?_eq_none.mp hnone (p, k) ?_ hfinds
      exact List.mem_flatMap.mpr ⟨p, hp, List.mem_map_of_mem hk⟩
  | mentionSpam | spam =>
    rw [keywordsOf, or_iff_right (by simp)]
    rfl

/-- What the allow list and the order of the lists may do. -/
structure AllowListSound (lib : Library) (d : Deployment) (m : TriggerMetadata) : Prop where
  /-- More entries make no message match. -/
  monotone : ∀ triggerType content mentionCount allow, m.allowList ⊆ allow → KeywordsOk allow →
    (lib.evaluateTrigger d triggerType { m with allowList := allow } content mentionCount).matched =
      true → (lib.evaluateTrigger d triggerType m content mentionCount).matched = true
  /-- The order of the entries does not matter. -/
  order_free : ∀ triggerType content mentionCount keywords allow,
    keywords.Perm m.keywordFilter → allow.Perm m.allowList →
    (lib.evaluateTrigger d triggerType { m with keywordFilter := keywords, allowList := allow }
      content mentionCount).matched =
    (lib.evaluateTrigger d triggerType m content mentionCount).matched

/-- Keywords without exposed spaces. -/
theorem allowListSound_of_not_exposed (hpatterns : m.regexPatterns = [])
    (hexposed : ∀ triggerType, ∀ k ∈ keywordsOf d triggerType m, ¬lib.Exposed k) :
    AllowListSound lib d m where
  monotone triggerType content mentionCount allow hmore _ h := by
    have hmasked : { m with allowList := allow }.regexPatterns = [] := hpatterns
    rcases (matched_iff hmasked).mp h with ⟨k, hk, hfinds⟩ | hrest
    · refine (matched_iff hpatterns).mpr (.inl ⟨k, hk, ?_⟩)
      exact finds_of_more hmore (hexposed triggerType k hk) hfinds
    · exact (matched_iff hpatterns).mpr (.inr hrest)
  order_free triggerType content mentionCount keywords allow hkeywords hallow := by
    have hmasked : { m with keywordFilter := keywords, allowList := allow }.regexPatterns = [] :=
      hpatterns
    have hmem : ∀ k, k ∈ keywordsOf d triggerType
        { m with keywordFilter := keywords, allowList := allow } ↔
          k ∈ keywordsOf d triggerType m := by
      intro k
      cases triggerType with
      | keyword | memberProfile => exact hkeywords.mem_iff
      | keywordPreset | mentionSpam | spam => exact Iff.rfl
    refine Bool.eq_iff_iff.mpr ?_
    rw [matched_iff hmasked, matched_iff hpatterns, maskAllowed_congr hallow.subset
      hallow.symm.subset]
    simp only [hmem]
    rfl

/-! ## Exposed spaces -/

/-- Characters that have neither case nor decomposition stay as they are, and
no keyword uses them all: with one of them in the place of an exposed space a
keyword's core is the normal form of some message. -/
def Reaches (lib : Library) : Prop :=
  ∀ keyword pattern q, lib.keywordPattern keyword = some pattern → ExposedAt pattern.core q →
    ∃ (z : Char) (message : Text), isSpace z = false ∧ z ≠ '*' ∧ lib.fold [z] = [z] ∧
      (∀ c ∈ pattern.core, lib.alike z c = false) ∧
      lib.normalizeContent (message.take MAX_EVALUATED_CHARACTERS) = pattern.core.set q z

section

variable {core : Text} {z : Char} {q : Nat}

theorem strip_letter (hspace : isSpace z = false) : strip [z] = [z] := by
  simp [strip, List.rdropWhile, hspace]

/-- The pattern of a single letter. -/
theorem keywordPattern_letter (hspace : isSpace z = false) (hstar : z ≠ '*')
    (hfold : lib.fold [z] = [z]) : ∃ letter, lib.keywordPattern [z] = some letter ∧
      letter.leading = false ∧ letter.trailing = false ∧ letter.core = [z] := by
  have hstrip : strip (lib.normalizeContent [z]) = [z] := by
    have htake : [z].take MAX_EVALUATED_CHARACTERS = [z] := rfl
    rw [normalizeContent, htake, hfold, strip_letter hspace]
  have hmem : z ∈ strip (lib.normalizeContent [z]) := by
    rw [hstrip]
    exact List.mem_singleton.mpr rfl
  refine ⟨_, dif_pos (hasWord_iff.mpr ⟨z, hmem, hstar⟩), ?_, ?_, ?_⟩
  · simp [patternOf, hstrip, hstar]
  · simp [patternOf, hstrip, hstar]
  · simp [patternOf, coreOf, hstrip, hstar]

theorem startsWord_set : startsWord (core.set q z) q = startsWord core q := by
  cases q with
  | zero => rfl
  | succ q => rw [startsWord, startsWord, Nat.add_sub_cancel, List.getElem?_set_ne (by omega)]

theorem endsWord_set : endsWord (core.set q z) (q + 1) = endsWord core (q + 1) := by
  rw [endsWord, endsWord, List.getElem?_set_ne (by omega)]

/-- What the pattern of a letter matches. -/
theorem matchAt_letter {letter : KeywordPattern} {i stop : Nat} (hleading : letter.leading = false)
    (htrailing : letter.trailing = false) (hcore : letter.core = [z])
    (h : lib.matchAt letter content i = some stop) :
    stop = i + 1 ∧ ∃ c, content[i]? = some c ∧ lib.alike z c = true := by
  obtain ⟨n, hn, hstart⟩ := matchAt_isSome_iff.mp (Option.isSome_iff_exists.mpr ⟨stop, h⟩)
  rw [hleading, if_neg Bool.false_ne_true] at hstart
  obtain ⟨rfl, hstarts⟩ := hstart
  obtain ⟨hletter, -⟩ := tailAt_isSome_iff.mp hn
  refine ⟨?_, hletter 0 z (by rw [hcore]; rfl)⟩
  rw [matchAt, hleading, if_neg Bool.false_ne_true, if_pos hstarts, tailAt, htrailing, hcore] at h
  simp only [Bool.false_eq_true, if_false] at h
  split at h
  · split at h
    · exact (Option.some.inj h).symm
    · cases h
  · cases h

/-- In a core with a new letter in the place of a space, the letter is what
its pattern takes. -/
theorem blanked_letter_iff (hspace : isSpace z = false) (hstar : z ≠ '*')
    (hfold : lib.fold [z] = [z]) (hfresh : ∀ c ∈ core, lib.alike z c = false)
    (hexposed : ExposedAt core q) {p : Nat} :
    lib.Blanked (core.set q z) [[z]] p ↔ p = q := by
  obtain ⟨letter, hletter, hleading, htrailing, hcore⟩ :=
    @keywordPattern_letter lib z hspace hstar hfold
  have hspans : lib.allowedSpans (core.set q z) [z] = lib.finditer letter (core.set q z) := by
    rw [allowedSpans, hletter]
  constructor
  · rintro ⟨item, hitem, span, hspan, hstart, hstop⟩
    rw [List.mem_singleton.mp hitem, hspans] at hspan
    obtain ⟨hone, c, hc, halike⟩ := matchAt_letter hleading htrailing hcore (mem_finditerFrom hspan)
    have hq : span.1 = q := by
      by_contra hne
      rw [List.getElem?_set_ne (Ne.symm hne)] at hc
      rw [hfresh c (List.mem_of_getElem? hc)] at halike
      cases halike
    omega
  · rintro rfl
    obtain ⟨hspace', hstarts, hends⟩ := hexposed
    have hmatch : (lib.matchAt letter (core.set p z) p).isSome = true := by
      refine matchAt_isSome_iff.mpr ⟨0, tailAt_isSome_iff.mpr ⟨fun r c hc => ?_, .inr ?_⟩, ?_⟩
      · rw [hcore] at hc
        obtain ⟨rfl, rfl⟩ : r = 0 ∧ z = c := by
          cases r with
          | zero => exact ⟨rfl, Option.some.inj hc⟩
          | succ r => cases hc
        refine ⟨z, List.getElem?_set_self ?_, lib.alike_refl z⟩
        exact (List.getElem?_eq_some_iff.mp hspace').1
      · rw [hcore]
        exact endsWord_set.trans hends
      · rw [hleading, if_neg Bool.false_ne_true]
        exact ⟨rfl, startsWord_set.trans hstarts⟩
    obtain ⟨span, hspan, hcovers⟩ :=
      finditerFrom_covers hmatch (Nat.zero_le p) (show _ < 0 + ((core.set p z).length + 1) by omega)
    exact ⟨[z], List.mem_singleton.mpr rfl, span, hspans ▸ hspan, hcovers⟩

theorem maskAllowed_letter (hspace : isSpace z = false) (hstar : z ≠ '*')
    (hfold : lib.fold [z] = [z]) (hfresh : ∀ c ∈ core, lib.alike z c = false)
    (hexposed : ExposedAt core q) : lib.maskAllowed (core.set q z) [[z]] = core := by
  classical
  refine List.ext_getElem? fun p => ?_
  rw [getElem?_maskAllowed]
  simp only [blanked_letter_iff hspace hstar hfold hfresh hexposed]
  split
  · next hp => rw [hp, hexposed.1]
  · next hp => rw [List.getElem?_set_ne (Ne.symm hp)]

end

/-- A keyword is found in its own core. -/
theorem occursAt_core (pattern : KeywordPattern) : OccursAt lib pattern pattern.core 0 where
  core r p hp := ⟨p, by rwa [Nat.zero_add], lib.alike_refl p⟩
  starts := .inr rfl
  ends := .inr (by rw [endsWord, Nat.zero_add, List.getElem?_eq_none le_rfl]; rfl)

/-- With another letter in the place of a space it is not. -/
theorem not_occursAt_set {pattern : KeywordPattern} {z : Char} {q j : Nat}
    (hspace : isSpace z = false) (hexposed : ExposedAt pattern.core q) :
    ¬OccursAt lib pattern (pattern.core.set q z) j := by
  intro h
  have hlength := List.length_pos_of_ne_nil pattern.core_ne_nil
  have hat : j = 0 := by
    obtain ⟨c, hc, -⟩ := h.core (pattern.core.length - 1) _ (List.getElem?_eq_getElem (by omega))
    have := (List.getElem?_eq_some_iff.mp hc).1
    rw [List.length_set] at this
    omega
  obtain ⟨c, hc, halike⟩ := h.core q ' ' hexposed.1
  rw [hat, Nat.zero_add, List.getElem?_set_self (List.getElem?_eq_some_iff.mp hexposed.1).1] at hc
  cases hc
  rw [(lib.alike_space halike).mp rfl] at hspace
  cases hspace

/-- A keyword with an exposed space is found once the letter in its place is
allowed. -/
theorem not_allowListSound_of_exposed {keyword : Text} (hlib : lib.Reaches)
    (hexposed : lib.Exposed keyword) :
    ¬AllowListSound lib d { keywordFilter := [keyword] } := by
  intro h
  obtain ⟨pattern, hpattern, q, hq⟩ := hexposed
  obtain ⟨z, message, hspace, hstar, hfold, hfresh, hmessage⟩ := hlib keyword pattern q hpattern hq
  have hentry : entryOk [z] := by
    rw [entryOk, strip_letter hspace]
    exact ⟨hasWord_iff.mpr ⟨z, List.mem_singleton.mpr rfl, hstar⟩, by simp⟩
  have hmatches := h.monotone .keyword message 0 [[z]] (List.nil_subset _)
    ⟨List.pairwise_singleton _ _, by simp, by simpa using hentry⟩ ((matched_iff rfl).mpr (.inl ?_))
  · rcases (matched_iff rfl).mp hmatches with ⟨k, hk, hfinds⟩ | hrest
    · rw [hmessage] at hfinds
      obtain rfl := List.mem_singleton.mp hk
      obtain ⟨pattern', hpattern', j, hj⟩ := finds_iff.mp hfinds
      rw [hpattern] at hpattern'
      cases hpattern'
      exact not_occursAt_set hspace hq hj
    · cases hrest
  · rw [hmessage]
    refine ⟨keyword, List.mem_singleton.mpr rfl, finds_iff.mpr ⟨pattern, hpattern, 0, ?_⟩⟩
    rw [maskAllowed_letter hspace hstar hfold hfresh hq]
    exact occursAt_core pattern

/-- With keywords from a list, and preset keywords from it, the allow list
does what it should exactly if none of them has an exposed space. -/
theorem allow_list_sound_iff (hlib : lib.Reaches) {words : List Text}
    (hwords : ∀ k ∈ words, entryOk k) :
    (∀ m : TriggerMetadata, m.Accepted → (∀ t, keywordsOf d t m ⊆ words) →
      AllowListSound lib d m) ↔ ∀ k ∈ words, ¬lib.Exposed k := by
  constructor
  · intro hsound k hk hexposed
    refine not_allowListSound_of_exposed hlib hexposed (hsound _ ?_ fun t => ?_)
    · exact ⟨⟨List.pairwise_singleton _ _, by simp, by simpa using hwords k hk⟩, rfl, by simp,
        ⟨List.nodup_nil, by simp, by simp⟩, by simp⟩
    · cases t with
      | keyword | memberProfile => exact List.cons_subset.mpr ⟨hk, List.nil_subset _⟩
      | keywordPreset | mentionSpam | spam => exact List.nil_subset _
  · intro hexposed m hm hsubset
    exact allowListSound_of_not_exposed hm.noPatterns fun t k hk => hexposed k (hsubset t hk)

end Library

/-! ## Examples -/

/-- Lower-case text of ASCII characters is its own normal form. -/
def plainLibrary : Library where
  fold := id
  alike p c := p = c
  alike_refl _ := decide_eq_true rfl
  alike_isSpace h := by rw [of_decide_eq_true h]
  alike_space h := by rw [of_decide_eq_true h]

theorem length_strip_le (s : Text) : (strip s).length ≤ s.length :=
  (List.rdropWhile_prefix isSpace _).length_le.trans (List.dropWhile_sublist isSpace).length_le

theorem length_coreOf_le (keyword : Text) : (coreOf keyword).length ≤ keyword.length := by
  have hhead : (if keyword.head? = some '*' then keyword.tail else keyword).length ≤
      keyword.length := by
    split
    · exact keyword.tail_sublist.length_le
    · exact le_rfl
  simp only [coreOf]
  split
  · exact (List.dropLast_sublist _).length_le.trans hhead
  · exact hhead

theorem length_core_le_max {keyword : Text} {pattern : KeywordPattern}
    (h : plainLibrary.keywordPattern keyword = some pattern) :
    pattern.core.length ≤ MAX_EVALUATED_CHARACTERS := by
  unfold Library.keywordPattern at h
  split at h
  · rw [← Option.some.inj h]
    refine (length_coreOf_le _).trans ((length_strip_le _).trans ?_)
    exact List.length_take_le _ _
  · cases h

/-- Some ideograph is not in a text. -/
theorem exists_fresh {core : Text} (h : core.length ≤ MAX_EVALUATED_CHARACTERS) :
    ∃ z, isSpace z = false ∧ z ≠ '*' ∧ z ∉ core := by
  have hnat : ∀ n ≤ MAX_EVALUATED_CHARACTERS, (Char.ofNat (0x4E00 + n)).toNat = 0x4E00 + n := by
    intro n hn
    rw [MAX_EVALUATED_CHARACTERS] at hn
    have hvalid : (0x4E00 + n).isValidChar := .inl (by omega)
    rw [Char.ofNat, dif_pos hvalid]
    rfl
  by_contra hall
  have hsubset : (List.range (MAX_EVALUATED_CHARACTERS + 1)).map
      (fun n => Char.ofNat (0x4E00 + n)) ⊆ core := by
    intro z hz
    obtain ⟨n, hn, rfl⟩ := List.mem_map.mp hz
    have hn := hnat n (Nat.lt_succ_iff.mp (List.mem_range.mp hn))
    by_contra hnot
    refine hall ⟨_, ?_, ?_, hnot⟩
    · simp only [isSpace, hn, Bool.or_eq_false_iff, Bool.and_eq_false_iff,
        decide_eq_false_iff_not]
      omega
    · intro heq
      rw [heq] at hn
      have : ('*').toNat = 42 := rfl
      omega
  have hnodup : ((List.range (MAX_EVALUATED_CHARACTERS + 1)).map
      fun n => Char.ofNat (0x4E00 + n)).Nodup := by
    refine List.Nodup.map_on ?_ List.nodup_range
    intro a ha b hb heq
    have heq := congrArg Char.toNat heq
    rw [hnat a (Nat.lt_succ_iff.mp (List.mem_range.mp ha)),
      hnat b (Nat.lt_succ_iff.mp (List.mem_range.mp hb))] at heq
    omega
  have hlength := (hnodup.subperm hsubset).length_le
  rw [List.length_map, List.length_range] at hlength
  omega

theorem plainLibrary_reaches : plainLibrary.Reaches := by
  intro keyword pattern q hpattern _
  have hlength := length_core_le_max hpattern
  obtain ⟨z, hspace, hstar, hfresh⟩ := exists_fresh hlength
  refine ⟨z, pattern.core.set q z, hspace, hstar, rfl, fun c hc => ?_, ?_⟩
  · exact decide_eq_false fun heq => hfresh (heq ▸ hc)
  · have htake : (pattern.core.set q z).take MAX_EVALUATED_CHARACTERS = pattern.core.set q z :=
      List.take_of_length_le (by rwa [List.length_set])
    rw [Library.normalizeContent, htake, htake]
    rfl

/-- No presets, no regular expressions, and words of letters. -/
def plainDeployment : Deployment where
  presetPatterns _ := []
  safeRegexMatchedText _ _ := none
  isWord c := c.isAlphanum

/-- A rule with the phrase `buy now`. -/
theorem allow_list_sound_phrase :
    Library.AllowListSound plainLibrary plainDeployment
      { keywordFilter := ["buy now".toList], allowList := ["later".toList] } := by
  have hplain : ¬plainLibrary.Exposed "buy now".toList := by
    rintro ⟨pattern, hpattern, q, hq⟩
    have hcore : (plainLibrary.keywordPattern "buy now".toList).map KeywordPattern.core =
        some "buy now".toList := by decide +kernel
    rw [hpattern, Option.map_some] at hcore
    rw [Option.some.inj hcore] at hq
    have hlt : q < 7 := (List.getElem?_eq_some_iff.mp hq.1).1
    have hnone : ∀ q < 7, ¬("buy now".toList[q]? = some ' ' ∧
        startsWord "buy now".toList q = true ∧ endsWord "buy now".toList (q + 1) = true) := by
      decide +kernel
    exact hnone q hlt hq
  have hsound := (@Library.allow_list_sound_iff plainLibrary plainDeployment plainLibrary_reaches
    ["buy now".toList] (by decide)).mpr (by simpa using hplain)
  refine hsound _ ⟨⟨by decide, by decide, by decide⟩, rfl, by decide,
    ⟨by decide, by decide, by decide⟩, by decide⟩ fun t => ?_
  cases t with
  | keyword | memberProfile => exact List.Subset.refl _
  | keywordPreset | mentionSpam | spam => exact List.nil_subset _

/-- Two words with three spaces between them, and a message with a word in
between that becomes allowed. -/
theorem allowed_word_completes_keyword :
    (plainLibrary.evaluateTrigger plainDeployment .keyword
      { keywordFilter := ["buy   now".toList] } "buy x now".toList 0).matched = false ∧
    (plainLibrary.evaluateTrigger plainDeployment .keyword
      { keywordFilter := ["buy   now".toList], allowList := ["x".toList] } "buy x now".toList
        0).matched = true ∧
    ¬Library.AllowListSound plainLibrary plainDeployment
      { keywordFilter := ["buy   now".toList] } := by
  have hbefore : (plainLibrary.evaluateTrigger plainDeployment .keyword
      { keywordFilter := ["buy   now".toList] } "buy x now".toList 0).matched = false := by
    decide +kernel
  have hafter : (plainLibrary.evaluateTrigger plainDeployment .keyword
      { keywordFilter := ["buy   now".toList], allowList := ["x".toList] } "buy x now".toList
        0).matched = true := by
    decide +kernel
  refine ⟨hbefore, hafter, fun h => ?_⟩
  have hmatched := h.monotone .keyword "buy x now".toList 0 ["x".toList] (List.nil_subset _)
    ⟨by decide, by decide, by decide⟩ hafter
  rw [hbefore] at hmatched
  cases hmatched

end Kaede.AutoMod
