import Mathlib.Data.List.Basic
import Mathlib.Data.List.DropRight

/-!
# Keyword patterns

The part of `backend/app/automod/engine.py` that finds keywords in a message
and blanks what an allow list lets through. A keyword is a text between white
space, with a `*` at either end for any characters that are not white space.
`re.finditer` goes through the matches from left to right, and `\S*` takes as
much as it can.

However a match comes about, it never ends inside a word, and it begins
inside one only where another match ends. So the positions that an allow list
blanks are made of whole words and of the white space next to words that are
blanked too (`Blanked.next`, `Blanked.before`).

`NFKC`, `casefold` and what `re.IGNORECASE` takes for the same character are
in `Library`. A character that is white space has no case.
-/

namespace Kaede.AutoMod

abbrev Text := List Char

/-- `str.isspace`, which is also what `\s` matches. -/
def isSpace (c : Char) : Bool :=
  let n := c.toNat
  (9 ≤ n && n ≤ 13) || (28 ≤ n && n ≤ 32) || n = 133 || n = 160 || n = 5760 ||
    (8192 ≤ n && n ≤ 8202) || n = 8232 || n = 8233 || n = 8239 || n = 8287 || n = 12288

/-- `unicodedata` and `re` as far as they are used. -/
structure Library where
  /-- `NFKC`, then `casefold`. -/
  fold : Text → Text
  /-- A character of a pattern matches one of the text. -/
  alike : Char → Char → Bool
  alike_refl : ∀ c, alike c c = true
  alike_isSpace : ∀ {p c}, alike p c = true → isSpace c = isSpace p
  alike_space : ∀ {p c}, alike p c = true → (p = ' ' ↔ c = ' ')

def MAX_EVALUATED_CHARACTERS : Nat := 4000

/-- `str.strip` -/
def strip (s : Text) : Text := (s.dropWhile isSpace).rdropWhile isSpace

theorem head_strip {s : Text} {c : Char} (h : (strip s).head? = some c) : isSpace c = false := by
  have hfirst : (s.dropWhile isSpace).head? = some c := by
    obtain ⟨t, ht⟩ := List.rdropWhile_prefix isSpace (l := s.dropWhile isSpace)
    rw [← ht, List.head?_append_of_ne_nil]
    · exact h
    · rintro hnil
      rw [strip, hnil] at h
      cases h
  have hnot := List.head?_dropWhile_not isSpace s
  rw [hfirst] at hnot
  exact hnot

theorem last_strip {s : Text} {c : Char} (h : (strip s).getLast? = some c) : isSpace c = false := by
  rw [strip, List.rdropWhile, List.getLast?_reverse] at h
  have hnot := List.head?_dropWhile_not isSpace (s.dropWhile isSpace).reverse
  rw [h] at hnot
  exact hnot

/-- The pattern of a keyword, with `\S*` at an end that has a wildcard and the
edge of a word at one that has none. -/
structure KeywordPattern where
  leading : Bool
  trailing : Bool
  core : Text
  core_ne_nil : core ≠ []
  starts_word : leading = false → ∀ c, core.head? = some c → isSpace c = false
  ends_word : trailing = false → ∀ c, core.getLast? = some c → isSpace c = false

/-- A keyword without its wildcards. -/
def coreOf (keyword : Text) : Text :=
  let core := if keyword.head? = some '*' then keyword.tail else keyword
  if keyword.getLast? = some '*' then core.dropLast else core

theorem mem_coreOf {keyword : Text} {c : Char} (h : c ∈ keyword) (hc : c ≠ '*') :
    c ∈ coreOf keyword := by
  have hcore : c ∈ if keyword.head? = some '*' then keyword.tail else keyword := by
    split
    · next hhead =>
      obtain ⟨rest, rfl⟩ := List.head?_eq_some_iff.mp hhead
      exact (List.mem_cons.mp h).resolve_left hc
    · exact h
  simp only [coreOf]
  split
  · next hlast =>
    refine List.mem_dropLast_of_mem_of_ne_getLast? hcore fun heq => hc ?_
    split at heq
    · rw [List.getLast?_tail] at heq
      split at heq
      · cases heq
      · exact Option.some.inj (heq.trans hlast)
    · exact Option.some.inj (heq.trans hlast)
  · exact hcore

theorem head_coreOf {keyword : Text} {c : Char} (h : keyword.head? ≠ some '*')
    (hc : (coreOf keyword).head? = some c) : keyword.head? = some c := by
  simp only [coreOf, if_neg h] at hc
  split at hc
  · rw [List.head?_dropLast] at hc
    split at hc
    · exact hc
    · cases hc
  · exact hc

theorem last_coreOf {keyword : Text} {c : Char} (h : keyword.getLast? ≠ some '*')
    (hc : (coreOf keyword).getLast? = some c) : keyword.getLast? = some c := by
  simp only [coreOf, if_neg h] at hc
  split at hc
  · rw [List.getLast?_tail] at hc
    split at hc
    · cases hc
    · exact hc
  · exact hc

/-- A keyword is not made of wildcards alone. -/
def hasWord (keyword : Text) : Bool := keyword.any fun c => c ≠ '*'

theorem hasWord_iff {keyword : Text} : hasWord keyword = true ↔ ∃ c ∈ keyword, c ≠ '*' := by
  simp only [hasWord, List.any_eq_true, decide_eq_true_eq]

/-- The pattern of a keyword that has a word in it. -/
def patternOf (keyword : Text) (hword : hasWord keyword = true)
    (hhead : ∀ c, keyword.head? = some c → isSpace c = false)
    (hlast : ∀ c, keyword.getLast? = some c → isSpace c = false) : KeywordPattern where
  leading := keyword.head? = some '*'
  trailing := keyword.getLast? = some '*'
  core := coreOf keyword
  core_ne_nil := by
    obtain ⟨c, hc, hstar⟩ := hasWord_iff.mp hword
    exact List.ne_nil_of_mem (mem_coreOf hc hstar)
  starts_word h c hc := hhead c (head_coreOf (of_decide_eq_false h) hc)
  ends_word h c hc := hlast c (last_coreOf (of_decide_eq_false h) hc)

/-- `(?<!\S)` -/
def startsWord (content : Text) (i : Nat) : Bool := i = 0 || (content[i - 1]?).all isSpace

/-- `(?!\S)` -/
def endsWord (content : Text) (i : Nat) : Bool := (content[i]?).all isSpace

/-- What a greedy `\S*` takes. -/
def wordLength (content : Text) (i : Nat) : Nat :=
  ((content.drop i).takeWhile fun c => !isSpace c).length

/-- The positions from `start` on, before `stop`. -/
def blank (masked : Text) (span : Nat × Nat) : Text :=
  masked.take span.1 ++ List.replicate (span.2 - span.1) ' ' ++ masked.drop span.2

namespace Library

variable (lib : Library)

/-- `normalize_content` -/
def normalizeContent (value : Text) : Text := lib.fold (value.take MAX_EVALUATED_CHARACTERS)

/-- `_keyword_pattern` -/
def keywordPattern (value : Text) : Option KeywordPattern :=
  if h : hasWord (strip (lib.normalizeContent value)) then
    some (patternOf (strip (lib.normalizeContent value)) h (fun _ => head_strip)
      fun _ => last_strip)
  else none

/-- The core of a pattern at the head of a text. -/
def coreAt : Text → Text → Bool
  | [], _ => true
  | _ :: _, [] => false
  | p :: ps, c :: cs => lib.alike p c && coreAt ps cs

/-- The core at a position and what follows it; the end of the match. -/
def tailAt (pattern : KeywordPattern) (content : Text) (j : Nat) : Option Nat :=
  let stop := j + pattern.core.length
  if lib.coreAt pattern.core (content.drop j) then
    if pattern.trailing then some (stop + wordLength content stop)
    else if endsWord content stop then some stop
    else none
  else none

/-- A match that begins at a position. A leading `\S*` gives back what it
took until the rest matches. -/
def matchAt (pattern : KeywordPattern) (content : Text) (i : Nat) : Option Nat :=
  if pattern.leading then
    (List.range (wordLength content i + 1)).reverse.findSome? fun n =>
      lib.tailAt pattern content (i + n)
  else if startsWord content i then lib.tailAt pattern content i
  else none

/-- The first match from a position on. -/
def searchFrom (pattern : KeywordPattern) (content : Text) (pos : Nat) : Option (Nat × Nat) :=
  (List.range' pos (content.length + 1 - pos)).findSome? fun i =>
    (lib.matchAt pattern content i).map fun stop => (i, stop)

/-- `finditer`. A match has a character, so there are no more than the text
has. -/
def finditerFrom (pattern : KeywordPattern) (content : Text) : Nat → Nat → List (Nat × Nat)
  | 0, _ => []
  | fuel + 1, pos =>
      match lib.searchFrom pattern content pos with
      | none => []
      | some span => span :: finditerFrom pattern content fuel span.2

def finditer (pattern : KeywordPattern) (content : Text) : List (Nat × Nat) :=
  lib.finditerFrom pattern content (content.length + 1) 0

/-- The spans that one entry of an allow list takes. -/
def allowedSpans (content item : Text) : List (Nat × Nat) :=
  match lib.keywordPattern item with
  | none => []
  | some pattern => lib.finditer pattern content

/-- `_mask_allowed` -/
def maskAllowed (content : Text) (allowList : List Text) : Text :=
  allowList.foldl (fun masked item => (lib.allowedSpans content item).foldl blank masked) content

/-- `_keyword_matched_text` -/
def keywordMatchedText (content keyword : Text) : Option Text :=
  (lib.keywordPattern keyword).bind fun pattern =>
    (lib.searchFrom pattern content 0).map fun span =>
      (content.drop span.1).take (span.2 - span.1)

end Library

/-! ## One match -/

theorem all_getElem?_takeWhile (q : Char → Bool) (s : Text) :
    (s[(s.takeWhile q).length]?).all (fun c => !q c) = true := by
  induction s with
  | nil => rfl
  | cons c s ih =>
    rw [List.takeWhile_cons]
    split
    · rw [List.length_cons, List.getElem?_cons_succ]
      exact ih
    · next hc => simp [hc]

theorem endsWord_wordLength (content : Text) (i : Nat) :
    endsWord content (i + wordLength content i) = true := by
  have h := all_getElem?_takeWhile (fun c => !isSpace c) (content.drop i)
  simp only [List.getElem?_drop, Bool.not_not] at h
  exact h

theorem wordLength_le (content : Text) (i : Nat) : wordLength content i ≤ content.length - i := by
  rw [← List.length_drop]
  exact (List.takeWhile_sublist _).length_le

theorem startsWord_succ_eq_false {content : Text} {i : Nat} :
    startsWord content (i + 1) = false ↔ ∃ c, content[i]? = some c ∧ isSpace c = false := by
  rw [startsWord, Nat.add_sub_cancel]
  cases content[i]? <;> simp

theorem endsWord_eq_false {content : Text} {i : Nat} :
    endsWord content i = false ↔ ∃ c, content[i]? = some c ∧ isSpace c = false := by
  rw [endsWord]
  cases content[i]? <;> simp

theorem wordLength_of_not_isSpace {content : Text} {i : Nat} {c : Char} (hc : content[i]? = some c)
    (hword : isSpace c = false) : wordLength content i = wordLength content (i + 1) + 1 := by
  obtain ⟨hlt, rfl⟩ := List.getElem?_eq_some_iff.mp hc
  rw [wordLength, List.drop_eq_getElem_cons hlt, List.takeWhile_cons, hword]
  rfl

namespace Library

variable {lib : Library} {pattern : KeywordPattern} {content : Text} {i j pos stop : Nat}

/-- The core matches character by character. -/
theorem coreAt_iff {core s : Text} :
    lib.coreAt core s = true ↔
      ∀ (r : Nat) (p : Char), core[r]? = some p → ∃ c, s[r]? = some c ∧ lib.alike p c = true := by
  induction core generalizing s with
  | nil => simp [coreAt]
  | cons p ps ih =>
    cases s with
    | nil =>
      refine iff_of_false (by simp [coreAt]) fun h => ?_
      obtain ⟨c, hc, -⟩ := h 0 p rfl
      cases hc
    | cons c cs =>
      rw [coreAt, Bool.and_eq_true, ih]
      constructor
      · rintro ⟨hp, hps⟩ r q hq
        cases r with
        | zero =>
          cases hq
          exact ⟨c, rfl, hp⟩
        | succ r => exact hps r q hq
      · intro h
        refine ⟨?_, fun r q hq => h (r + 1) q hq⟩
        obtain ⟨d, hd, hp⟩ := h 0 p rfl
        cases hd
        exact hp

/-- Where the pattern can be found, apart from what its wildcards take. -/
structure OccursAt (lib : Library) (pattern : KeywordPattern) (content : Text) (j : Nat) :
    Prop where
  core : ∀ r p, pattern.core[r]? = some p → ∃ c, content[j + r]? = some c ∧ lib.alike p c = true
  starts : pattern.leading = true ∨ startsWord content j = true
  ends : pattern.trailing = true ∨ endsWord content (j + pattern.core.length) = true

theorem tailAt_isSome_iff : (lib.tailAt pattern content j).isSome = true ↔
    (∀ r p, pattern.core[r]? = some p → ∃ c, content[j + r]? = some c ∧ lib.alike p c = true) ∧
      (pattern.trailing = true ∨ endsWord content (j + pattern.core.length) = true) := by
  have hcore : lib.coreAt pattern.core (content.drop j) = true ↔ ∀ r p,
      pattern.core[r]? = some p → ∃ c, content[j + r]? = some c ∧ lib.alike p c = true := by
    simp only [coreAt_iff, List.getElem?_drop]
  rw [← hcore]
  simp only [tailAt]
  split
  · next hc =>
    rw [and_iff_right hc]
    split
    · next ht => simp [ht]
    · next ht => split <;> simp_all
  · next hc => exact iff_of_false (by simp) fun h => hc h.1

theorem length_core_le (h : (lib.tailAt pattern content j).isSome = true) :
    j + pattern.core.length ≤ content.length := by
  have hne := List.length_pos_of_ne_nil pattern.core_ne_nil
  obtain ⟨c, hc, -⟩ := (tailAt_isSome_iff.mp h).1 (pattern.core.length - 1)
    (pattern.core.getLast pattern.core_ne_nil) (by rw [← List.getLast?_eq_getElem?,
      List.getLast?_eq_some_getLast])
  have := (List.getElem?_eq_some_iff.mp hc).1
  omega

/-- A match ends behind its core and at the edge of a word. -/
theorem tailAt_stop (h : lib.tailAt pattern content j = some stop) :
    j + pattern.core.length ≤ stop ∧ endsWord content stop = true ∧ stop ≤ content.length := by
  have hlength : j + pattern.core.length ≤ content.length :=
    length_core_le (Option.isSome_iff_exists.mpr ⟨stop, h⟩)
  simp only [tailAt] at h
  split at h
  · split at h
    · obtain rfl := Option.some.inj h
      have := wordLength_le content (j + pattern.core.length)
      exact ⟨Nat.le_add_right _ _, endsWord_wordLength _ _, by omega⟩
    · split at h
      · next hends =>
        obtain rfl := Option.some.inj h
        exact ⟨le_rfl, hends, hlength⟩
      · cases h
  · cases h

/-- Where a match begins, the core is found behind what a leading wildcard
takes. -/
theorem matchAt_isSome_iff : (lib.matchAt pattern content i).isSome = true ↔
    ∃ n, (lib.tailAt pattern content (i + n)).isSome = true ∧
      if pattern.leading then n ≤ wordLength content i
      else n = 0 ∧ startsWord content i = true := by
  unfold matchAt
  split
  · rw [List.findSome?_isSome_iff]
    refine exists_congr fun n => ?_
    rw [List.mem_reverse, List.mem_range, Nat.lt_succ_iff, and_comm]
  · split
    · next hstarts => simp [hstarts]
    · next hstarts => simp [hstarts]

theorem matchAt_stop (h : lib.matchAt pattern content i = some stop) :
    i < stop ∧ endsWord content stop = true ∧ stop ≤ content.length := by
  have hne := List.length_pos_of_ne_nil pattern.core_ne_nil
  obtain ⟨n, hn⟩ : ∃ n, lib.tailAt pattern content (i + n) = some stop := by
    unfold matchAt at h
    split at h
    · obtain ⟨n, -, hn⟩ := List.exists_of_findSome?_eq_some h
      exact ⟨n, hn⟩
    · split at h
      · exact ⟨0, h⟩
      · cases h
  obtain ⟨hlength, hends, hle⟩ := tailAt_stop hn
  exact ⟨by omega, hends, hle⟩

/-- A match that begins inside a word could begin one character before. -/
theorem matchAt_pred (h : (lib.matchAt pattern content (i + 1)).isSome = true)
    (hstarts : startsWord content (i + 1) = false) :
    (lib.matchAt pattern content i).isSome = true := by
  obtain ⟨n, hn, hleading⟩ := matchAt_isSome_iff.mp h
  split at hleading
  · next hl =>
    refine matchAt_isSome_iff.mpr ⟨n + 1, ?_, ?_⟩
    · rw [show i + (n + 1) = i + 1 + n by omega]
      exact hn
    · obtain ⟨c, hc, hword⟩ := startsWord_succ_eq_false.mp hstarts
      rw [if_pos hl, wordLength_of_not_isSpace hc hword]
      exact Nat.succ_le_succ hleading
  · rw [hleading.2] at hstarts
    cases hstarts

/-- The pattern is in the text exactly if it occurs somewhere. -/
theorem exists_matchAt_iff :
    (∃ i, (lib.matchAt pattern content i).isSome = true) ↔ ∃ j, OccursAt lib pattern content j := by
  constructor
  · rintro ⟨i, h⟩
    obtain ⟨n, hn, hleading⟩ := matchAt_isSome_iff.mp h
    obtain ⟨hcore, hends⟩ := tailAt_isSome_iff.mp hn
    refine ⟨i + n, hcore, ?_, hends⟩
    split at hleading
    · next hl => exact .inl hl
    · rw [hleading.1]
      exact .inr hleading.2
  · rintro ⟨j, hcore, hstarts, hends⟩
    refine ⟨j, matchAt_isSome_iff.mpr ⟨0, tailAt_isSome_iff.mpr ⟨hcore, hends⟩, ?_⟩⟩
    split
    · exact Nat.zero_le _
    · next hl => exact ⟨rfl, hstarts.resolve_left hl⟩

/-! ## Going through the matches -/

theorem searchFrom_some {span : Nat × Nat} (h : lib.searchFrom pattern content pos = some span) :
    pos ≤ span.1 ∧ lib.matchAt pattern content span.1 = some span.2 ∧
      ∀ i, pos ≤ i → i < span.1 → lib.matchAt pattern content i = none := by
  obtain ⟨before, i, after, hsplit, hi, hbefore⟩ := List.findSome?_eq_some_iff.mp h
  obtain ⟨stop, hstop, rfl⟩ := Option.map_eq_some_iff.mp hi
  obtain ⟨k, hk, rfl, hrest⟩ := List.range'_eq_append_iff.mp hsplit
  rw [Nat.mul_one] at hrest
  have hfirst : i = pos + k := by
    have hhead := congrArg List.head? hrest
    rw [List.head?_cons, List.head?_range'] at hhead
    split at hhead
    · cases hhead
    · exact Option.some.inj hhead
  refine ⟨hfirst ▸ Nat.le_add_right _ _, hstop, fun x hpos hx => ?_⟩
  have hnone := hbefore x (List.mem_range'_1.mpr ⟨hpos, by omega⟩)
  exact Option.map_eq_none_iff.mp hnone

/-- A search finds a match no later than any there is. -/
theorem exists_searchFrom (h : (lib.matchAt pattern content i).isSome = true) (hpos : pos ≤ i) :
    ∃ span, lib.searchFrom pattern content pos = some span ∧ span.1 ≤ i := by
  obtain ⟨stop, hstop⟩ := Option.isSome_iff_exists.mp h
  obtain ⟨hlt, -, hle⟩ := matchAt_stop hstop
  have hsome : (lib.searchFrom pattern content pos).isSome = true := by
    refine List.findSome?_isSome_iff.mpr ⟨i, List.mem_range'_1.mpr ⟨hpos, by omega⟩, ?_⟩
    rw [hstop]
    rfl
  obtain ⟨span, hspan⟩ := Option.isSome_iff_exists.mp hsome
  refine ⟨span, hspan, ?_⟩
  by_contra hlate
  have hnone := (searchFrom_some hspan).2.2 i hpos (by omega)
  rw [hstop] at hnone
  cases hnone

/-- `finditer` goes through matches. -/
theorem mem_finditerFrom {fuel : Nat} {span : Nat × Nat}
    (h : span ∈ lib.finditerFrom pattern content fuel pos) :
    lib.matchAt pattern content span.1 = some span.2 := by
  induction fuel generalizing pos with
  | zero => cases h
  | succ fuel ih =>
    rw [finditerFrom] at h
    split at h
    · cases h
    · next first hfirst =>
      rcases List.mem_cons.mp h with rfl | h
      · exact (searchFrom_some hfirst).2.1
      · exact ih h

/-- A match begins at the edge of a word, or at the start of the search, or
where another one ends. -/
theorem finditerFrom_starts {fuel : Nat} {span : Nat × Nat}
    (h : span ∈ lib.finditerFrom pattern content fuel pos) :
    startsWord content span.1 = true ∨ span.1 = pos ∨
      ∃ other ∈ lib.finditerFrom pattern content fuel pos, other.2 = span.1 := by
  induction fuel generalizing pos with
  | zero => cases h
  | succ fuel ih =>
    rw [finditerFrom] at h ⊢
    split at h
    · cases h
    · next first hfirst =>
      obtain ⟨hpos, hmatch, hleft⟩ := searchFrom_some hfirst
      rcases List.mem_cons.mp h with rfl | h
      · -- a match one character to the left would have been found first
        by_cases hat : span.1 = pos
        · exact .inr (.inl hat)
        · refine .inl (Bool.of_not_eq_false fun hstarts => ?_)
          obtain ⟨i, hi⟩ : ∃ i, span.1 = i + 1 := ⟨span.1 - 1, by omega⟩
          rw [hi] at hmatch hstarts
          have hpred := matchAt_pred (Option.isSome_iff_exists.mpr ⟨_, hmatch⟩) hstarts
          rw [hleft i (by omega) (by omega)] at hpred
          cases hpred
      · rcases ih h with hstarts | hat | ⟨other, hother, hstop⟩
        · exact .inl hstarts
        · exact .inr (.inr ⟨first, List.mem_cons_self, hat.symm⟩)
        · exact .inr (.inr ⟨other, List.mem_cons_of_mem _ hother, hstop⟩)

/-- No match is left out: where one could begin, some match is. -/
theorem finditerFrom_covers {fuel : Nat} (h : (lib.matchAt pattern content i).isSome = true)
    (hpos : pos ≤ i) (hfuel : content.length < pos + fuel) :
    ∃ span ∈ lib.finditerFrom pattern content fuel pos, span.1 ≤ i ∧ i < span.2 := by
  induction fuel generalizing pos with
  | zero =>
    obtain ⟨stop, hstop⟩ := Option.isSome_iff_exists.mp h
    obtain ⟨hlt, -, hle⟩ := matchAt_stop hstop
    omega
  | succ fuel ih =>
    obtain ⟨span, hspan, hle⟩ := exists_searchFrom h hpos
    obtain ⟨hstart, hmatch, -⟩ := searchFrom_some hspan
    obtain ⟨hlt, -, -⟩ := matchAt_stop hmatch
    rw [finditerFrom, hspan]
    by_cases hin : i < span.2
    · exact ⟨span, List.mem_cons_self, hle, hin⟩
    · obtain ⟨other, hother, hcovers⟩ := ih (not_lt.mp hin) (by omega)
      exact ⟨other, List.mem_cons_of_mem _ hother, hcovers⟩

end Library

/-! ## Masks -/

theorem length_blank {masked : Text} {span : Nat × Nat} (hle : span.1 ≤ span.2)
    (hspan : span.2 ≤ masked.length) : (blank masked span).length = masked.length := by
  rw [blank, List.length_append, List.length_append, List.length_take, List.length_replicate,
    List.length_drop]
  omega

theorem getElem?_blank {masked : Text} {span : Nat × Nat} (hle : span.1 ≤ span.2)
    (hspan : span.2 ≤ masked.length) (p : Nat) :
    (blank masked span)[p]? = if span.1 ≤ p ∧ p < span.2 then some ' ' else masked[p]? := by
  have htake : (masked.take span.1).length = span.1 := List.length_take_of_le (by omega)
  rw [blank, List.append_assoc]
  by_cases hbefore : p < span.1
  · rw [List.getElem?_append_left (htake.symm ▸ hbefore), List.getElem?_take_of_lt hbefore,
      if_neg (by omega)]
  · rw [List.getElem?_append_right (by omega), htake]
    by_cases hin : p < span.2
    · rw [List.getElem?_append_left (by rw [List.length_replicate]; omega),
        List.getElem?_replicate_of_lt (by omega), if_pos (by omega)]
    · rw [List.getElem?_append_right (by rw [List.length_replicate]; omega), List.length_replicate,
        List.getElem?_drop, if_neg (by omega)]
      congr 1
      omega

theorem getElem?_foldl_blank {spans : List (Nat × Nat)} {masked : Text}
    (hspans : ∀ span ∈ spans, span.1 ≤ span.2 ∧ span.2 ≤ masked.length) (p : Nat) :
    (spans.foldl blank masked)[p]? =
      if ∃ span ∈ spans, span.1 ≤ p ∧ p < span.2 then some ' ' else masked[p]? := by
  induction spans generalizing masked with
  | nil => simp
  | cons span spans ih =>
    obtain ⟨⟨hle, hspan⟩, hrest⟩ := List.forall_mem_cons.mp hspans
    rw [List.foldl_cons, ih fun other hother => by
      rw [length_blank hle hspan]
      exact hrest other hother, getElem?_blank hle hspan]
    simp only [List.exists_mem_cons_iff]
    by_cases hhead : span.1 ≤ p ∧ p < span.2
    · rw [if_pos hhead, ite_self, if_pos (.inl hhead)]
    · rw [if_neg hhead]
      congr 1
      exact propext (or_iff_right hhead).symm

namespace Library

variable {lib : Library} {content : Text} {allow more : List Text} {p : Nat}

/-- An entry of the allow list takes the position. -/
def Blanked (lib : Library) (content : Text) (allow : List Text) (p : Nat) : Prop :=
  ∃ item ∈ allow, ∃ span ∈ lib.allowedSpans content item, span.1 ≤ p ∧ p < span.2

theorem Blanked.mono (h : lib.Blanked content allow p) (hmore : allow ⊆ more) :
    lib.Blanked content more p := by
  obtain ⟨item, hitem, hspan⟩ := h
  exact ⟨item, hmore hitem, hspan⟩

theorem allowedSpans_eq_finditer {item : Text} {span : Nat × Nat}
    (h : span ∈ lib.allowedSpans content item) : ∃ pattern,
      lib.allowedSpans content item = lib.finditer pattern content := by
  unfold allowedSpans at h ⊢
  split at h
  · cases h
  · next pattern _ => exact ⟨pattern, rfl⟩

theorem allowedSpans_bounds {item : Text} {span : Nat × Nat}
    (h : span ∈ lib.allowedSpans content item) :
    span.1 < span.2 ∧ endsWord content span.2 = true ∧ span.2 ≤ content.length := by
  obtain ⟨pattern, hspans⟩ := allowedSpans_eq_finditer h
  exact matchAt_stop (mem_finditerFrom (hspans ▸ h))

theorem maskAllowed_eq (lib : Library) (content : Text) (allow : List Text) :
    lib.maskAllowed content allow =
      (allow.flatMap (lib.allowedSpans content)).foldl blank content :=
  List.foldl_flatMap.symm

/-- A masked text has blanks where an entry takes the position. -/
theorem getElem?_maskAllowed (allow : List Text) (p : Nat)
    [Decidable (lib.Blanked content allow p)] :
    (lib.maskAllowed content allow)[p]? =
      if lib.Blanked content allow p then some ' ' else content[p]? := by
  rw [maskAllowed_eq, getElem?_foldl_blank]
  · congr 1
    simp only [Blanked, List.mem_flatMap, eq_iff_iff]
    constructor
    · rintro ⟨span, ⟨item, hitem, hspan⟩, hp⟩
      exact ⟨item, hitem, span, hspan, hp⟩
    · rintro ⟨item, hitem, span, hspan, hp⟩
      exact ⟨span, ⟨item, hitem, hspan⟩, hp⟩
  · intro span hspan
    obtain ⟨item, -, hspan⟩ := List.mem_flatMap.mp hspan
    obtain ⟨hlt, -, hle⟩ := allowedSpans_bounds hspan
    exact ⟨hlt.le, hle⟩

/-- A mask that reaches a word takes it in. -/
theorem Blanked.next {c : Char} (h : lib.Blanked content allow p)
    (hc : content[p + 1]? = some c) (hword : isSpace c = false) :
    lib.Blanked content allow (p + 1) := by
  obtain ⟨item, hitem, span, hspan, hstart, hstop⟩ := h
  obtain ⟨-, hends, -⟩ := allowedSpans_bounds hspan
  refine ⟨item, hitem, span, hspan, by omega, ?_⟩
  by_contra hedge
  rw [show span.2 = p + 1 by omega, endsWord, hc] at hends
  rw [Option.all_some, hword] at hends
  cases hends

theorem Blanked.before {c : Char} (h : lib.Blanked content allow (p + 1))
    (hc : content[p]? = some c) (hword : isSpace c = false) : lib.Blanked content allow p := by
  obtain ⟨item, hitem, span, hspan, hstart, hstop⟩ := h
  by_cases hin : span.1 ≤ p
  · exact ⟨item, hitem, span, hspan, hin, by omega⟩
  · have hedge : span.1 = p + 1 := by omega
    obtain ⟨pattern, hspans⟩ := allowedSpans_eq_finditer hspan
    rw [hspans] at hspan
    rcases finditerFrom_starts hspan with hstarts | hzero | ⟨other, hother, hends⟩
    · rw [hedge, startsWord_succ_eq_false.mpr ⟨c, hc, hword⟩] at hstarts
      cases hstarts
    · omega
    · have := (matchAt_stop (mem_finditerFrom hother)).1
      exact ⟨item, hitem, other, hspans ▸ hother, by omega, by omega⟩

end Library

end Kaede.AutoMod
