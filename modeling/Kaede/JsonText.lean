import Mathlib.Tactic.IntervalCases
import Kaede.Json
import Kaede.Utf8

/-!
# JSON texts

The writer and the reader of Python's `json` module. The writer is the
compact one that leaves characters outside ASCII as they are
(`separators=(",", ":")`, `ensure_ascii=False`). The reader refuses an
object with a key twice and the constants that are no numbers, as its
hooks ask it to.

`loads_dumps` is the round trip: what the writer makes of a tree whose
floats are read back is read back as that tree.

A string of the reader has no lone surrogate. Python keeps one that an
escape writes; such a string has no UTF-8 form.
-/

namespace Kaede

namespace Json

open Utf8 (hexDigit? hexDigit?_digitChar)

/-- The text of a float, and the float of a text. -/
structure FloatText (F : Type) where
  repr : F → List Char
  parse : List Char → F

variable {F : Type}

/-! ## Writing -/

/-- The character in a string literal. -/
def escape (c : Char) : List Char :=
  if c = '"' then ['\\', '"']
  else if c = '\\' then ['\\', '\\']
  else if c = '\n' then ['\\', 'n']
  else if c = '\r' then ['\\', 'r']
  else if c = '\t' then ['\\', 't']
  else if c = '\x0c' then ['\\', 'f']
  else if c = '\x08' then ['\\', 'b']
  else if c.toNat < 0x20 then
    ['\\', 'u', '0', '0', Nat.digitChar (c.toNat / 16), Nat.digitChar (c.toNat % 16)]
  else [c]

def writeString (s : String) : List Char := '"' :: (s.toList.flatMap escape ++ ['"'])

def writeInt : Int → List Char
  | .ofNat n => Nat.toDigits 10 n
  | .negSucc n => '-' :: Nat.toDigits 10 (n + 1)

section

variable (floats : FloatText F)

mutual

def dumps : Json F → List Char
  | .null => ['n', 'u', 'l', 'l']
  | .bool true => ['t', 'r', 'u', 'e']
  | .bool false => ['f', 'a', 'l', 's', 'e']
  | .int n => writeInt n
  | .float x => floats.repr x
  | .str s => writeString s
  | .arr [] => ['[', ']']
  | .arr (v :: vs) => '[' :: (dumps v ++ dumpsItems vs)
  | .obj [] => ['{', '}']
  | .obj ((key, v) :: ms) => '{' :: (writeString key ++ ':' :: (dumps v ++ dumpsMembers ms))

/-- The items after the first, and the end of the array. -/
def dumpsItems : List (Json F) → List Char
  | [] => [']']
  | v :: vs => ',' :: (dumps v ++ dumpsItems vs)

def dumpsMembers : List (String × Json F) → List Char
  | [] => ['}']
  | (key, v) :: ms => ',' :: (writeString key ++ ':' :: (dumps v ++ dumpsMembers ms))

end

end

/-! ## Reading -/

/-- Why a text is refused. `invalid` is a `JSONDecodeError`. -/
inductive ReadError where
  | invalid
  | duplicateKey
  | nonFinite
  | surrogate
deriving DecidableEq, Repr

def isSpace (c : Char) : Bool := c = ' ' ∨ c = '\t' ∨ c = '\n' ∨ c = '\r'

def skipSpace (text : List Char) : List Char := text.dropWhile isSpace

/-- The four digits after `\u`. -/
def scanHex : List Char → Option (Nat × List Char)
  | a :: b :: c :: d :: rest => do
      let a ← hexDigit? a
      let b ← hexDigit? b
      let c ← hexDigit? c
      let d ← hexDigit? d
      return (((a * 16 + b) * 16 + c) * 16 + d, rest)
  | _ => none

/-- A second escape completes a surrogate pair. -/
def scanLow (high : Nat) : List Char → Except ReadError (Char × List Char)
  | '\\' :: 'u' :: rest =>
      match scanHex rest with
      | none => .error .invalid
      | some (low, rest) =>
          if 0xDC00 ≤ low ∧ low ≤ 0xDFFF then
            .ok (Char.ofNat (0x10000 + ((high - 0xD800) * 0x400 + (low - 0xDC00))), rest)
          else .error .surrogate
  | _ => .error .surrogate

def scanUnicode (text : List Char) : Except ReadError (Char × List Char) :=
  match scanHex text with
  | none => .error .invalid
  | some (code, rest) =>
      if 0xD800 ≤ code ∧ code ≤ 0xDBFF then scanLow code rest
      else if 0xDC00 ≤ code ∧ code ≤ 0xDFFF then .error .surrogate
      else .ok (Char.ofNat code, rest)

def simpleEscape (c : Char) : Option Char :=
  if c = '"' then some '"'
  else if c = '\\' then some '\\'
  else if c = '/' then some '/'
  else if c = 'b' then some '\x08'
  else if c = 'f' then some '\x0c'
  else if c = 'n' then some '\n'
  else if c = 'r' then some '\r'
  else if c = 't' then some '\t'
  else none

/-- What a backslash starts. -/
def scanEscape : List Char → Except ReadError (Char × List Char)
  | [] => .error .invalid
  | c :: rest =>
      if c = 'u' then scanUnicode rest
      else
        match simpleEscape c with
        | some c => .ok (c, rest)
        | none => .error .invalid

/-- The string after its opening quote. Every round of the loop uses up
some of the text, so its length is fuel enough. -/
def scanString : Nat → List Char → Except ReadError (List Char × List Char)
  | 0, _ | _, [] => .error .invalid
  | fuel + 1, c :: rest =>
      if c = '"' then .ok ([], rest)
      else if c = '\\' then do
        let (c, rest) ← scanEscape rest
        let (cs, rest) ← scanString fuel rest
        return (c :: cs, rest)
      else if c.toNat < 0x20 then .error .invalid
      else do
        let (cs, rest) ← scanString fuel rest
        return (c :: cs, rest)

/-- `0|[1-9][0-9]*`. -/
def scanInteger : List Char → Option (List Char × List Char)
  | [] => none
  | c :: rest =>
      if c = '0' then some (['0'], rest)
      else if c.isDigit then some (c :: rest.takeWhile Char.isDigit, rest.dropWhile Char.isDigit)
      else none

/-- `(\.[0-9]+)?`. -/
def scanFraction : List Char → List Char × List Char
  | '.' :: rest =>
      match rest.takeWhile Char.isDigit with
      | [] => ([], '.' :: rest)
      | digits => ('.' :: digits, rest.dropWhile Char.isDigit)
  | text => ([], text)

/-- `([eE][-+]?[0-9]+)?`. -/
def scanExponent : List Char → List Char × List Char
  | [] => ([], [])
  | e :: rest =>
      if e = 'e' ∨ e = 'E' then
        let (sign, rest') :=
          match rest with
          | '-' :: rest' => (['-'], rest')
          | '+' :: rest' => (['+'], rest')
          | _ => ([], rest)
        match rest'.takeWhile Char.isDigit with
        | [] => ([], e :: rest)
        | digits => (e :: (sign ++ digits), rest'.dropWhile Char.isDigit)
      else ([], e :: rest)

def scanSign : List Char → List Char × List Char
  | '-' :: rest => (['-'], rest)
  | text => ([], text)

section

variable (floats : FloatText F)

def scanNumber (text : List Char) : Option (Json F × List Char) :=
  let (sign, rest) := scanSign text
  match scanInteger rest with
  | none => none
  | some (digits, rest) =>
      let (fraction, rest) := scanFraction rest
      let (exponent, rest) := scanExponent rest
      if fraction = [] ∧ exponent = [] then
        let n : Int := Nat.ofDigitChars 10 digits 0
        some (.int (if sign = [] then n else -n), rest)
      else some (.float (floats.parse (sign ++ digits ++ fraction ++ exponent)), rest)

/-- The hook of the reader for objects. -/
def objectFromPairs (pairs : List (String × Json F)) : Except ReadError (Json F) :=
  if (pairs.map Prod.fst).Nodup then .ok (.obj pairs) else .error .duplicateKey

/-- The values that start with none of the brackets and quotes. -/
def scanScalar (text : List Char) : Except ReadError (Json F × List Char) :=
  if ['n', 'u', 'l', 'l'].isPrefixOf text then .ok (.null, text.drop 4)
  else if ['t', 'r', 'u', 'e'].isPrefixOf text then .ok (.bool true, text.drop 4)
  else if ['f', 'a', 'l', 's', 'e'].isPrefixOf text then .ok (.bool false, text.drop 5)
  else
    match scanNumber floats text with
    | some result => .ok result
    | none =>
        if "NaN".toList.isPrefixOf text ∨ "Infinity".toList.isPrefixOf text ∨
            "-Infinity".toList.isPrefixOf text then .error .nonFinite
        else .error .invalid

mutual

def scanOnce : Nat → List Char → Except ReadError (Json F × List Char)
  | 0, _ | _, [] => .error .invalid
  | fuel + 1, c :: rest =>
      if c = '"' then do
        let (s, rest) ← scanString fuel rest
        return (.str (String.ofList s), rest)
      else if c = '{' then
        match skipSpace rest with
        | '}' :: rest => .ok (.obj [], rest)
        | text => do
            let (pairs, rest) ← scanMembers fuel text
            let v ← objectFromPairs pairs
            return (v, rest)
      else if c = '[' then
        match skipSpace rest with
        | ']' :: rest => .ok (.arr [], rest)
        | text => do
            let (items, rest) ← scanItems fuel text
            return (.arr items, rest)
      else scanScalar floats (c :: rest)

def scanItems : Nat → List Char → Except ReadError (List (Json F) × List Char)
  | 0, _ => .error .invalid
  | fuel + 1, text => do
      let (v, rest) ← scanOnce fuel text
      match skipSpace rest with
      | ']' :: rest => .ok ([v], rest)
      | ',' :: rest => do
          let (vs, rest) ← scanItems fuel (skipSpace rest)
          return (v :: vs, rest)
      | _ => .error .invalid

def scanMembers : Nat → List Char → Except ReadError (List (String × Json F) × List Char)
  | fuel + 1, '"' :: rest => do
      let (key, rest) ← scanString fuel rest
      match skipSpace rest with
      | ':' :: rest => do
          let (v, rest) ← scanOnce fuel (skipSpace rest)
          match skipSpace rest with
          | '}' :: rest => .ok ([(String.ofList key, v)], rest)
          | ',' :: rest => do
              let (ms, rest) ← scanMembers fuel (skipSpace rest)
              return ((String.ofList key, v) :: ms, rest)
          | _ => .error .invalid
      | _ => .error .invalid
  | _, _ => .error .invalid

end

def loads (text : List Char) : Except ReadError (Json F) := do
  let (v, rest) ← scanOnce floats (text.length + 1) (skipSpace text)
  if skipSpace rest = [] then return v else .error .invalid

end

/-! ## Strings -/

theorem skipSpace_cons {c : Char} {rest : List Char} (h : isSpace c = false) :
    skipSpace (c :: rest) = c :: rest := by
  rw [skipSpace, List.dropWhile_cons_of_neg (by simp [h])]

/-- The escape of a control character. -/
theorem scanUnicode_control {c : Char} (h : c.toNat < 0x20) (rest : List Char) :
    scanUnicode ('0' :: '0' :: Nat.digitChar (c.toNat / 16) :: Nat.digitChar (c.toNat % 16) ::
      rest) = .ok (c, rest) := by
  have hdiv := hexDigit?_digitChar (c.toNat / 16) (by omega)
  have hmod := hexDigit?_digitChar (c.toNat % 16) (by omega)
  have hzero : hexDigit? '0' = some 0 := by decide
  have hcode : ((0 * 16 + 0) * 16 + c.toNat / 16) * 16 + c.toNat % 16 = c.toNat := by omega
  simp only [scanUnicode, scanHex, hzero, hdiv, hmod, Option.bind_eq_bind, Option.bind_some,
    Option.pure_def, hcode]
  rw [if_neg (by omega), if_neg (by omega), Char.ofNat_toNat]

theorem scanEscape_unicode (text : List Char) : scanEscape ('u' :: text) = scanUnicode text := by
  rw [scanEscape, if_pos rfl]

theorem scanString_backslash {c : Char} {text rest : List Char}
    (h : scanEscape text = .ok (c, rest))
    (fuel : Nat) : scanString (fuel + 1) ('\\' :: text) =
      (scanString fuel rest).map fun r => (c :: r.1, r.2) := by
  rw [scanString, if_neg (by decide), if_pos rfl, h]
  rfl

theorem scanString_plain {c : Char} (hquote : c ≠ '"') (hbackslash : c ≠ '\\')
    (hcontrol : ¬ c.toNat < 0x20) (fuel : Nat) (rest : List Char) :
    scanString (fuel + 1) (c :: rest) =
      (scanString fuel rest).map fun r => (c :: r.1, r.2) := by
  rw [scanString, if_neg hquote, if_neg hbackslash, if_neg hcontrol]
  rfl

/-- One character of a string literal. -/
theorem scanString_escape (c : Char) (fuel : Nat) (rest : List Char) :
    scanString (fuel + 1) (escape c ++ rest) =
      (scanString fuel rest).map fun r => (c :: r.1, r.2) := by
  unfold escape
  split_ifs with h₁ h₂ h₃ h₄ h₅ h₆ h₇ h₈
  · subst h₁
    exact scanString_backslash rfl fuel
  · subst h₂
    exact scanString_backslash rfl fuel
  · subst h₃
    exact scanString_backslash rfl fuel
  · subst h₄
    exact scanString_backslash rfl fuel
  · subst h₅
    exact scanString_backslash rfl fuel
  · subst h₆
    exact scanString_backslash rfl fuel
  · subst h₇
    exact scanString_backslash rfl fuel
  · exact scanString_backslash ((scanEscape_unicode _).trans (scanUnicode_control h₈ rest)) fuel
  · exact scanString_plain h₁ h₂ h₈ fuel rest

theorem scanString_literal (cs : List Char) {fuel : Nat} (hfuel : cs.length < fuel)
    (rest : List Char) : scanString fuel (cs.flatMap escape ++ '"' :: rest) = .ok (cs, rest) := by
  induction cs generalizing fuel with
  | nil =>
    obtain ⟨fuel, rfl⟩ := Nat.exists_eq_add_of_lt hfuel
    rfl
  | cons c cs ih =>
    obtain ⟨fuel, rfl⟩ : ∃ n, fuel = n + 1 := Nat.exists_eq_succ_of_ne_zero (by omega)
    rw [List.flatMap_cons, List.append_assoc, scanString_escape, ih (Nat.lt_of_succ_lt_succ hfuel)]
    rfl

theorem length_le_flatMap_escape (cs : List Char) : cs.length ≤ (cs.flatMap escape).length := by
  induction cs with
  | nil => exact Nat.le_refl _
  | cons c cs ih =>
    have hc : 1 ≤ (escape c).length := by
      unfold escape
      split_ifs <;> simp
    rw [List.flatMap_cons, List.length_append, List.length_cons]
    omega

/-- A string literal after its opening quote. -/
theorem scanString_writeString (s : String) {fuel : Nat}
    (hfuel : (writeString s).length ≤ fuel + 1) (rest : List Char) :
    scanString fuel (s.toList.flatMap escape ++ '"' :: rest) = .ok (s.toList, rest) := by
  have hlen := length_le_flatMap_escape s.toList
  rw [writeString, List.length_cons, List.length_append, List.length_singleton] at hfuel
  exact scanString_literal s.toList (by omega) rest

theorem writeString_append (s : String) (rest : List Char) :
    writeString s ++ rest = '"' :: (s.toList.flatMap escape ++ '"' :: rest) := by
  rw [writeString, List.cons_append, List.append_assoc, List.singleton_append]

/-! ## Numbers -/

/-- What follows cannot be read as more of a number. -/
def NumberEnd (rest : List Char) : Prop :=
  ∀ c ∈ rest.head?, c.isDigit = false ∧ c ≠ '.' ∧ c ≠ 'e' ∧ c ≠ 'E'

theorem isDigit_toDigits {n : Nat} {c : Char} (h : c ∈ Nat.toDigits 10 n) : c.isDigit :=
  Nat.isDigit_of_mem_toDigits (by decide) (by decide) h

/-- A positive number is written without a leading zero. -/
theorem toDigits_cons {n : Nat} (h : 0 < n) : ∃ c cs, Nat.toDigits 10 n = c :: cs ∧ c ≠ '0' := by
  induction n using Nat.strongRecOn with
  | ind n ih =>
    by_cases hlt : n < 10
    · refine ⟨n.digitChar, [], Nat.toDigits_of_lt_base hlt, ?_⟩
      revert h
      interval_cases n <;> decide
    · obtain ⟨c, cs, hdigits, hc⟩ := ih (n / 10) (by omega) (by omega)
      refine ⟨c, cs ++ [(n % 10).digitChar], ?_, hc⟩
      rw [Nat.toDigits_of_base_le (by decide) (by omega), hdigits, List.cons_append]

theorem takeWhile_isDigit {digits rest : List Char} (hdigits : ∀ c ∈ digits, c.isDigit)
    (hrest : NumberEnd rest) :
    (digits ++ rest).takeWhile Char.isDigit = digits ∧
      (digits ++ rest).dropWhile Char.isDigit = rest := by
  rw [List.takeWhile_append_of_pos hdigits, List.dropWhile_append_of_pos hdigits]
  cases rest with
  | nil => simp
  | cons c rest =>
    have hc := (hrest c rfl).1
    simp [hc]

theorem scanInteger_toDigits (n : Nat) {rest : List Char} (hrest : NumberEnd rest) :
    scanInteger (Nat.toDigits 10 n ++ rest) = some (Nat.toDigits 10 n, rest) := by
  rcases Nat.eq_zero_or_pos n with rfl | hpos
  · rfl
  · obtain ⟨c, cs, hdigits, hc⟩ := toDigits_cons hpos
    have hall : ∀ d ∈ c :: cs, d.isDigit := fun d hd => isDigit_toDigits (hdigits ▸ hd)
    obtain ⟨htake, hdrop⟩ :=
      takeWhile_isDigit (fun d hd => hall d (List.mem_cons_of_mem _ hd)) hrest
    rw [hdigits, List.cons_append, scanInteger, if_neg hc, if_pos (hall c List.mem_cons_self),
      htake, hdrop]

theorem scanFraction_end {rest : List Char} (h : NumberEnd rest) :
    scanFraction rest = ([], rest) := by
  unfold scanFraction
  split
  · exact absurd rfl (h '.' rfl).2.1
  · rfl

theorem scanExponent_end {rest : List Char} (h : NumberEnd rest) :
    scanExponent rest = ([], rest) := by
  cases rest with
  | nil => rfl
  | cons e rest =>
    obtain ⟨-, -, he, hE⟩ := h e rfl
    unfold scanExponent
    exact if_neg fun h => h.elim he hE

theorem scanSign_toDigits (n : Nat) (rest : List Char) :
    scanSign (Nat.toDigits 10 n ++ rest) = ([], Nat.toDigits 10 n ++ rest) := by
  cases hdigits : Nat.toDigits 10 n with
  | nil => exact absurd hdigits Nat.toDigits_ne_nil
  | cons c cs =>
    have hc : c.isDigit := isDigit_toDigits (hdigits ▸ List.mem_cons_self)
    rw [List.cons_append]
    unfold scanSign
    split
    · rename_i heq
      rw [(List.cons.inj heq).1] at hc
      exact absurd hc (by decide)
    · rfl

theorem scanNumber_writeInt (floats : FloatText F) (n : Int) {rest : List Char}
    (h : NumberEnd rest) : scanNumber floats (writeInt n ++ rest) = some (.int n, rest) := by
  have hvalue (m : Nat) : Nat.ofDigitChars 10 (Nat.toDigits 10 m) 0 = m :=
    Nat.ofDigitChars_ten_toDigits
  cases n with
  | ofNat n =>
    simp only [scanNumber, writeInt, scanSign_toDigits, scanInteger_toDigits n h,
      scanFraction_end h, scanExponent_end h, hvalue, and_self, if_true]
    rfl
  | negSucc n =>
    simp only [scanNumber, writeInt, List.cons_append, scanSign, scanInteger_toDigits (n + 1) h,
      scanFraction_end h, scanExponent_end h, hvalue, and_self, if_true]
    rfl

/-! ## The round trip -/

mutual

def FloatFree : Json F → Prop
  | .float _ => False
  | .arr items => FloatFreeItems items
  | .obj members => FloatFreeMembers members
  | _ => True

def FloatFreeItems : List (Json F) → Prop
  | [] => True
  | v :: vs => v.FloatFree ∧ FloatFreeItems vs

def FloatFreeMembers : List (String × Json F) → Prop
  | [] => True
  | (_, v) :: ms => v.FloatFree ∧ FloatFreeMembers ms

end

theorem floatFreeItems_iff {items : List (Json F)} :
    FloatFreeItems items ↔ ∀ v ∈ items, v.FloatFree := by
  induction items with
  | nil => simp [FloatFreeItems]
  | cons v vs ih => rw [FloatFreeItems, ih, List.forall_mem_cons]

theorem floatFreeMembers_iff {members : List (String × Json F)} :
    FloatFreeMembers members ↔ ∀ m ∈ members, m.2.FloatFree := by
  induction members with
  | nil => simp [FloatFreeMembers]
  | cons m ms ih => rw [FloatFreeMembers, ih, List.forall_mem_cons]

mutual

def EveryFloat (p : F → Prop) : Json F → Prop
  | .float x => p x
  | .arr items => EveryFloatItems p items
  | .obj members => EveryFloatMembers p members
  | _ => True

def EveryFloatItems (p : F → Prop) : List (Json F) → Prop
  | [] => True
  | v :: vs => v.EveryFloat p ∧ EveryFloatItems p vs

def EveryFloatMembers (p : F → Prop) : List (String × Json F) → Prop
  | [] => True
  | (_, v) :: ms => v.EveryFloat p ∧ EveryFloatMembers p ms

end

theorem everyFloatItems_iff {p : F → Prop} {items : List (Json F)} :
    EveryFloatItems p items ↔ ∀ v ∈ items, v.EveryFloat p := by
  induction items with
  | nil => simp [EveryFloatItems]
  | cons v vs ih => rw [EveryFloatItems, ih, List.forall_mem_cons]

theorem everyFloatMembers_iff {p : F → Prop} {members : List (String × Json F)} :
    EveryFloatMembers p members ↔ ∀ m ∈ members, m.2.EveryFloat p := by
  induction members with
  | nil => simp [EveryFloatMembers]
  | cons m ms ih => rw [EveryFloatMembers, ih, List.forall_mem_cons]

theorem FloatFree.everyFloat {p : F → Prop} {v : Json F} (h : v.FloatFree) : v.EveryFloat p := by
  induction v using tree_induction with
  | null | bool | int | str => trivial
  | float x => exact h.elim
  | arr items ih =>
    rw [FloatFree, floatFreeItems_iff] at h
    rw [EveryFloat, everyFloatItems_iff]
    exact fun v hv => ih v hv (h v hv)
  | obj members ih =>
    rw [FloatFree, floatFreeMembers_iff] at h
    rw [EveryFloat, everyFloatMembers_iff]
    exact fun m hm => ih m hm (h m hm)

theorem EveryFloat.mono {p q : F → Prop} (hpq : ∀ x, p x → q x) {v : Json F}
    (h : v.EveryFloat p) : v.EveryFloat q := by
  induction v using tree_induction with
  | null | bool | int | str => trivial
  | float x => exact hpq x h
  | arr items ih =>
    rw [EveryFloat, everyFloatItems_iff] at h ⊢
    exact fun v hv => ih v hv (h v hv)
  | obj members ih =>
    rw [EveryFloat, everyFloatMembers_iff] at h ⊢
    exact fun m hm => ih m hm (h m hm)

/-- The text of the float is a number, and is read back as the float. Python
promises it of every finite one. -/
structure FloatText.Reads (floats : FloatText F) (x : F) : Prop where
  starts : ∃ c text, floats.repr x = c :: text ∧ (c = '-' ∨ c.isDigit)
  letters : ∀ c ∈ floats.repr x, c.isDigit ∨ c ∈ ['-', '+', '.', 'e', 'E']
  scanned : ∀ rest, NumberEnd rest →
    scanNumber floats (floats.repr x ++ rest) = some (.float x, rest)

/-- A number ends before the separators and the closing brackets. -/
theorem numberEnd_cons {c : Char} (rest : List Char) (h : c = ',' ∨ c = ']' ∨ c = '}') :
    NumberEnd (c :: rest) := by
  intro c' hc
  cases hc
  rcases h with rfl | rfl | rfl <;> decide

theorem numberEnd_dumpsItems (floats : FloatText F) (vs : List (Json F)) (rest : List Char) :
    NumberEnd (dumpsItems floats vs ++ rest) := by
  cases vs with
  | nil => exact numberEnd_cons _ (by decide)
  | cons v vs => exact numberEnd_cons _ (by decide)

theorem numberEnd_dumpsMembers (floats : FloatText F) (ms : List (String × Json F))
    (rest : List Char) : NumberEnd (dumpsMembers floats ms ++ rest) := by
  cases ms with
  | nil => exact numberEnd_cons _ (by decide)
  | cons m ms => exact numberEnd_cons _ (by decide)

theorem writeInt_cons (n : Int) :
    ∃ c text, writeInt n = c :: text ∧ (c = '-' ∨ c.isDigit) := by
  cases n with
  | ofNat n =>
    cases hdigits : Nat.toDigits 10 n with
    | nil => exact absurd hdigits Nat.toDigits_ne_nil
    | cons c cs =>
      exact ⟨c, cs, hdigits, .inr (isDigit_toDigits (hdigits ▸ List.mem_cons_self))⟩
  | negSucc n => exact ⟨'-', _, rfl, .inl rfl⟩

theorem not_numberStart {c d : Char} (hc : c = '-' ∨ c.isDigit) (hminus : d ≠ '-')
    (hdigit : d.isDigit = false) : c ≠ d := by
  rintro rfl
  rcases hc with hc | hc
  · exact hminus hc
  · rw [hdigit] at hc
    cases hc

theorem numberStart_not_space {c : Char} (hc : c = '-' ∨ c.isDigit) : isSpace c = false := by
  have hspace (d : Char) (hminus : d ≠ '-') (hdigit : d.isDigit = false) : ¬ c = d :=
    not_numberStart hc hminus hdigit
  rw [isSpace, decide_eq_false_iff_not]
  rintro (h | h | h | h)
  · exact hspace _ (by decide) (by decide) h
  · exact hspace _ (by decide) (by decide) h
  · exact hspace _ (by decide) (by decide) h
  · exact hspace _ (by decide) (by decide) h

/-- The first character of a value is no space and no closing bracket. -/
theorem dumps_cons (floats : FloatText F) (v : Json F) (h : v.EveryFloat floats.Reads) :
    ∃ c text, dumps floats v = c :: text ∧ isSpace c = false ∧ c ≠ ']' := by
  cases v with
  | null => exact ⟨'n', _, rfl, rfl, by decide⟩
  | bool b =>
    cases b with
    | true => exact ⟨'t', _, rfl, rfl, by decide⟩
    | false => exact ⟨'f', _, rfl, rfl, by decide⟩
  | int n =>
    obtain ⟨c, text, htext, hc⟩ := writeInt_cons n
    exact ⟨c, text, htext, numberStart_not_space hc, not_numberStart hc (by decide) (by decide)⟩
  | float x =>
    obtain ⟨c, text, htext, hc⟩ := h.starts
    exact ⟨c, text, htext, numberStart_not_space hc, not_numberStart hc (by decide) (by decide)⟩
  | str s => exact ⟨'"', _, rfl, rfl, by decide⟩
  | arr items =>
    cases items with
    | nil => exact ⟨'[', _, rfl, rfl, by decide⟩
    | cons v vs => exact ⟨'[', _, rfl, rfl, by decide⟩
  | obj members =>
    cases members with
    | nil => exact ⟨'{', _, rfl, rfl, by decide⟩
    | cons m ms => exact ⟨'{', _, rfl, rfl, by decide⟩

theorem scanScalar_number {floats : FloatText F} {text : List Char} {r : Json F × List Char}
    (hstart : ∃ c rest, text = c :: rest ∧ (c = '-' ∨ c.isDigit))
    (hnumber : scanNumber floats text = some r) : scanScalar floats text = .ok r := by
  obtain ⟨c, rest, rfl, hc⟩ := hstart
  have hn : c ≠ 'n' := not_numberStart hc (by decide) (by decide)
  have ht : c ≠ 't' := not_numberStart hc (by decide) (by decide)
  have hf : c ≠ 'f' := not_numberStart hc (by decide) (by decide)
  simp [scanScalar, List.isPrefixOf, Ne.symm hn, Ne.symm ht, Ne.symm hf, hnumber]

/-- The text of the tree is read as the tree, wherever it stands. -/
def Reads (floats : FloatText F) (v : Json F) : Prop :=
  ∀ fuel rest, (dumps floats v).length ≤ fuel → NumberEnd rest →
    scanOnce floats fuel (dumps floats v ++ rest) = .ok (v, rest)

variable {floats : FloatText F}

theorem exists_eq_succ_of_length {c : Char} {text : List Char} {fuel : Nat}
    (h : (c :: text).length ≤ fuel) : ∃ m, fuel = m + 1 :=
  Nat.exists_eq_succ_of_ne_zero (Nat.ne_of_gt (Nat.lt_of_lt_of_le (Nat.succ_pos _) h))

theorem reads_number {v : Json F}
    (hstart : ∃ c text, dumps floats v = c :: text ∧ (c = '-' ∨ c.isDigit))
    (hscan : ∀ rest, NumberEnd rest → scanNumber floats (dumps floats v ++ rest) = some (v, rest)) :
    Reads floats v := by
  intro fuel rest hfuel hrest
  have hnumber := hscan rest hrest
  obtain ⟨c, text, htext, hc⟩ := hstart
  rw [htext] at hfuel hnumber ⊢
  obtain ⟨fuel, rfl⟩ := exists_eq_succ_of_length hfuel
  rw [List.cons_append] at hnumber ⊢
  rw [scanOnce, if_neg (not_numberStart hc (by decide) (by decide)),
    if_neg (not_numberStart hc (by decide) (by decide)),
    if_neg (not_numberStart hc (by decide) (by decide)),
    scanScalar_number ⟨c, text ++ rest, rfl, hc⟩ hnumber]

theorem reads_int (n : Int) : Reads floats (.int n) :=
  reads_number (writeInt_cons n) fun _ hrest => scanNumber_writeInt floats n hrest

theorem reads_float {x : F} (h : floats.Reads x) : Reads floats (.float x) :=
  reads_number h.starts h.scanned

theorem reads_str (s : String) : Reads floats (.str s) := by
  intro fuel rest hfuel _
  rw [dumps] at hfuel ⊢
  obtain ⟨fuel, rfl⟩ := exists_eq_succ_of_length hfuel
  rw [writeString_append, scanOnce, if_pos rfl, scanString_writeString s hfuel]
  change Except.ok (Json.str (String.ofList s.toList), rest) = _
  rw [String.ofList_toList]

theorem skipSpace_dumps {v : Json F} (h : v.EveryFloat floats.Reads) (rest : List Char) :
    skipSpace (dumps floats v ++ rest) = dumps floats v ++ rest := by
  obtain ⟨c, text, htext, hspace, -⟩ := dumps_cons floats v h
  rw [htext, List.cons_append, skipSpace_cons hspace]

/-- The items of an array from some item on. -/
theorem scanItems_dumps {v : Json F} {vs : List (Json F)} (hv : Reads floats v)
    (hvs : ∀ w ∈ vs, Reads floats w ∧ w.EveryFloat floats.Reads) (fuel : Nat) (rest : List Char)
    (hfuel : (dumps floats v ++ dumpsItems floats vs).length ≤ fuel) :
    scanItems floats fuel (dumps floats v ++ (dumpsItems floats vs ++ rest)) =
      .ok (v :: vs, rest) := by
  induction vs generalizing v fuel with
  | nil =>
    rw [dumpsItems, List.length_append, List.length_singleton] at hfuel
    obtain ⟨fuel, rfl⟩ : ∃ m, fuel = m + 1 := Nat.exists_eq_succ_of_ne_zero (by omega)
    rw [scanItems, hv fuel _ (by omega) (numberEnd_dumpsItems floats [] rest)]
    rfl
  | cons w ws ih =>
    obtain ⟨⟨hw, hfloats⟩, hws⟩ := List.forall_mem_cons.mp hvs
    rw [dumpsItems, List.length_append, List.length_cons] at hfuel
    obtain ⟨fuel, rfl⟩ : ∃ m, fuel = m + 1 := Nat.exists_eq_succ_of_ne_zero (by omega)
    rw [scanItems, hv fuel _ (by omega) (numberEnd_dumpsItems floats (w :: ws) rest)]
    have htail := ih hw hws fuel (by omega)
    rw [← skipSpace_dumps hfloats] at htail
    rw [dumpsItems, List.cons_append, List.append_assoc]
    change (do
      let (vs, rest) ← scanItems floats fuel
        (skipSpace (dumps floats w ++ (dumpsItems floats ws ++ rest)))
      return (v :: vs, rest)) = _
    rw [htail]
    rfl

theorem reads_arr {items : List (Json F)}
    (h : ∀ v ∈ items, Reads floats v ∧ v.EveryFloat floats.Reads) :
    Reads floats (.arr items) := by
  intro fuel rest hfuel _
  cases items with
  | nil =>
    rw [dumps] at hfuel
    obtain ⟨fuel, rfl⟩ := exists_eq_succ_of_length hfuel
    rfl
  | cons v vs =>
    obtain ⟨⟨hv, hfloats⟩, hvs⟩ := List.forall_mem_cons.mp h
    rw [dumps] at hfuel
    obtain ⟨fuel, rfl⟩ := exists_eq_succ_of_length hfuel
    have hitems := scanItems_dumps hv hvs fuel rest (Nat.le_of_succ_le_succ hfuel)
    rw [dumps, List.cons_append, List.append_assoc, scanOnce, if_neg (by decide),
      if_neg (by decide), if_pos rfl, skipSpace_dumps hfloats]
    obtain ⟨c, text, htext, -, hc⟩ := dumps_cons floats v hfloats
    rw [htext, List.cons_append] at hitems ⊢
    split
    · rename_i heq
      exact absurd (List.cons.inj heq).1 hc
    · rw [hitems]
      rfl

/-- One member, up to what follows its value. -/
theorem scanMembers_member {key : String} {v : Json F} (hv : Reads floats v)
    (hfloats : v.EveryFloat floats.Reads)
    {fuel : Nat} (hfuel : (writeString key ++ dumps floats v).length ≤ fuel) {rest : List Char}
    (hrest : NumberEnd rest) :
    scanMembers floats (fuel + 1) (writeString key ++ ':' :: (dumps floats v ++ rest)) =
      match skipSpace rest with
      | '}' :: rest => .ok ([(key, v)], rest)
      | ',' :: rest => do
          let (ms, rest) ← scanMembers floats fuel (skipSpace rest)
          return ((key, v) :: ms, rest)
      | _ => .error .invalid := by
  rw [List.length_append] at hfuel
  rw [writeString_append, scanMembers, scanString_writeString key (by omega)]
  change (do
    let (v, rest) ← scanOnce floats fuel (skipSpace (dumps floats v ++ rest))
    match skipSpace rest with
    | '}' :: rest => Except.ok ([(String.ofList key.toList, v)], rest)
    | ',' :: rest => do
        let (ms, rest) ← scanMembers floats fuel (skipSpace rest)
        return ((String.ofList key.toList, v) :: ms, rest)
    | _ => .error .invalid) = _
  rw [skipSpace_dumps hfloats, hv fuel rest (by omega) hrest, String.ofList_toList]
  rfl

theorem skipSpace_writeString (s : String) (rest : List Char) :
    skipSpace (writeString s ++ rest) = writeString s ++ rest := by
  rw [writeString_append, skipSpace_cons rfl]

theorem scanMembers_dumps {key : String} {v : Json F} {ms : List (String × Json F)}
    (hv : Reads floats v) (hfloats : v.EveryFloat floats.Reads)
    (hms : ∀ m ∈ ms, Reads floats m.2 ∧ m.2.EveryFloat floats.Reads) (fuel : Nat) (rest : List Char)
    (hfuel : (writeString key ++ ':' :: (dumps floats v ++ dumpsMembers floats ms)).length ≤ fuel) :
    scanMembers floats fuel
        (writeString key ++ ':' :: (dumps floats v ++ (dumpsMembers floats ms ++ rest))) =
      .ok ((key, v) :: ms, rest) := by
  induction ms generalizing key v fuel with
  | nil =>
    simp only [List.length_append, List.length_cons] at hfuel
    obtain ⟨fuel, rfl⟩ : ∃ m, fuel = m + 1 := Nat.exists_eq_succ_of_ne_zero (by omega)
    rw [scanMembers_member hv hfloats (by rw [List.length_append]; omega)
      (numberEnd_dumpsMembers floats [] rest)]
    rfl
  | cons m ms ih =>
    obtain ⟨key', w⟩ := m
    obtain ⟨⟨hm, hmfloats⟩, hms'⟩ := List.forall_mem_cons.mp hms
    simp only [dumpsMembers, List.length_append, List.length_cons] at hfuel
    obtain ⟨fuel, rfl⟩ : ∃ m, fuel = m + 1 := Nat.exists_eq_succ_of_ne_zero (by omega)
    rw [scanMembers_member hv hfloats (by rw [List.length_append]; omega)
      (numberEnd_dumpsMembers floats ((key', w) :: ms) rest)]
    have htail := @ih key' w hm hmfloats hms' fuel
      (by simp only [List.length_append, List.length_cons]; omega)
    rw [← skipSpace_writeString] at htail
    rw [dumpsMembers, List.cons_append, List.append_assoc, List.cons_append, List.append_assoc]
    change (do
      let (ms, rest) ← scanMembers floats fuel (skipSpace
        (writeString key' ++ ':' :: (dumps floats w ++ (dumpsMembers floats ms ++ rest))))
      return ((key, v) :: ms, rest)) = _
    rw [htail]
    rfl

theorem reads_obj {members : List (String × Json F)} (hkeys : (members.map Prod.fst).Nodup)
    (h : ∀ m ∈ members, Reads floats m.2 ∧ m.2.EveryFloat floats.Reads) :
    Reads floats (.obj members) := by
  intro fuel rest hfuel _
  cases members with
  | nil =>
    rw [dumps] at hfuel
    obtain ⟨fuel, rfl⟩ := exists_eq_succ_of_length hfuel
    rfl
  | cons m ms =>
    obtain ⟨key, v⟩ := m
    obtain ⟨⟨hv, hfloats⟩, hms⟩ := List.forall_mem_cons.mp h
    rw [dumps] at hfuel
    obtain ⟨fuel, rfl⟩ := exists_eq_succ_of_length hfuel
    have hmembers := scanMembers_dumps hv hfloats hms fuel rest (Nat.le_of_succ_le_succ hfuel)
    rw [dumps, List.cons_append, List.append_assoc, List.cons_append, List.append_assoc, scanOnce,
      if_neg (by decide), if_pos rfl, skipSpace_writeString]
    rw [writeString_append] at hmembers ⊢
    change (do
      let (pairs, rest) ← scanMembers floats fuel ('"' :: _)
      let v ← objectFromPairs pairs
      return (v, rest)) = _
    rw [hmembers]
    change (do
      let v ← objectFromPairs ((key, v) :: ms)
      return (v, rest)) = _
    rw [objectFromPairs, if_pos hkeys]
    rfl

theorem reads (v : Json F) (hdistinct : v.Distinct) (hfloats : v.EveryFloat floats.Reads) :
    Reads floats v := by
  induction v using tree_induction with
  | null =>
    intro fuel rest hfuel _
    obtain ⟨fuel, rfl⟩ := exists_eq_succ_of_length hfuel
    rfl
  | bool b =>
    intro fuel rest hfuel _
    cases b <;>
    · obtain ⟨fuel, rfl⟩ := exists_eq_succ_of_length hfuel
      rfl
  | int n => exact reads_int n
  | float x => exact reads_float hfloats
  | str s => exact reads_str s
  | arr items ih =>
    rw [Distinct, distinctItems_iff] at hdistinct
    rw [EveryFloat, everyFloatItems_iff] at hfloats
    exact reads_arr fun v hv => ⟨ih v hv (hdistinct v hv) (hfloats v hv), hfloats v hv⟩
  | obj members ih =>
    rw [Distinct, distinctMembers_iff] at hdistinct
    rw [EveryFloat, everyFloatMembers_iff] at hfloats
    exact reads_obj hdistinct.1
      fun m hm => ⟨ih m hm (hdistinct.2 m hm) (hfloats m hm), hfloats m hm⟩

theorem loads_dumps (v : Json F) (hdistinct : v.Distinct) (hfloats : v.EveryFloat floats.Reads) :
    loads floats (dumps floats v) = .ok v := by
  have hskip : skipSpace (dumps floats v ++ []) = _ := skipSpace_dumps hfloats []
  have hread : Reads floats v := reads v hdistinct hfloats
  replace hread := hread ((dumps floats v).length + 1) [] (Nat.le_succ _) fun _ h => nomatch h
  rw [List.append_nil] at hskip hread
  rw [loads, hskip, hread]
  rfl

end Json

end Kaede
