import Mathlib.Data.List.Basic

/-!
# UTF-8 and hexadecimal digits

Texts as lists of bytes, and the two ways back: `decode?` refuses a
malformed sequence, `decodeReplace` puts U+FFFD in its place, one for each
maximal part that could have started a character. Both undo `encode`.
-/

namespace Kaede

namespace Utf8

def encode (text : List Char) : List UInt8 := text.flatMap String.utf8EncodeChar

def decode? (bytes : List UInt8) : Option (List Char) :=
  (String.fromUTF8? bytes.toByteArray).map String.toList

/-- A byte that goes on with a character. -/
def isContinuation (b : UInt8) : Bool := 0x80 ≤ b ∧ b ≤ 0xBF

/-- A second byte that a lead of three or four bytes can have. The bounds
leave out overlong forms, surrogates and what is above U+10FFFF. -/
def isSecond (lead b : UInt8) : Bool :=
  if lead = 0xE0 then 0xA0 ≤ b ∧ b ≤ 0xBF
  else if lead = 0xED then 0x80 ≤ b ∧ b ≤ 0x9F
  else if lead = 0xF0 then 0x90 ≤ b ∧ b ≤ 0xBF
  else if lead = 0xF4 then 0x80 ≤ b ∧ b ≤ 0x8F
  else isContinuation b

/-- How many bytes after a lead still belong to the malformed sequence it
starts. -/
def subpart (lead : UInt8) (rest : List UInt8) : Nat :=
  match rest with
  | [] => 0
  | b :: rest =>
      if 0xE0 ≤ lead ∧ lead ≤ 0xEF ∧ isSecond lead b then 1
      else if 0xF0 ≤ lead ∧ lead ≤ 0xF4 ∧ isSecond lead b then
        match rest with
        | [] => 1
        | c :: _ => if isContinuation c then 2 else 1
      else 0

/-- `bytes.decode("utf-8", "replace")`. Every round takes a byte, so the
number of bytes is fuel enough. -/
def replaceFrom : Nat → List UInt8 → List Char
  | 0, _ | _, [] => []
  | fuel + 1, b :: rest =>
      match (b :: rest).toByteArray.utf8DecodeChar? 0 with
      | some c => c :: replaceFrom fuel ((b :: rest).drop c.utf8Size)
      | none => '\uFFFD' :: replaceFrom fuel (rest.drop (subpart b rest))

def decodeReplace (bytes : List UInt8) : List Char := replaceFrom bytes.length bytes

theorem encode_cons (c : Char) (text : List Char) :
    encode (c :: text) = String.utf8EncodeChar c ++ encode text := List.flatMap_cons

theorem encode_append (text text' : List Char) :
    encode (text ++ text') = encode text ++ encode text' := List.flatMap_append

theorem toByteArray_encode (text : List Char) :
    (encode text).toByteArray = (String.ofList text).toByteArray := by
  rw [String.toByteArray_ofList]
  rfl

theorem decode?_encode (text : List Char) : decode? (encode text) = some text := by
  rw [decode?, toByteArray_encode, String.fromUTF8?, dif_pos (String.ofList text).isValidUTF8]
  exact congrArg some String.toList_ofList

/-- A character at the front is decoded first. -/
theorem utf8DecodeChar?_encode (c : Char) (text : List Char) :
    (encode (c :: text)).toByteArray.utf8DecodeChar? 0 = some c := by
  rw [encode_cons, List.toByteArray_append, ByteArray.utf8DecodeChar?_utf8EncodeChar_append]

theorem replaceFrom_encode {text : List Char} {fuel : Nat} (h : (encode text).length ≤ fuel) :
    replaceFrom fuel (encode text) = text := by
  induction text generalizing fuel with
  | nil => cases fuel <;> rfl
  | cons c text ih =>
    have hlen : (String.utf8EncodeChar c).length = c.utf8Size := String.length_utf8EncodeChar c
    have hdecode := utf8DecodeChar?_encode c text
    have hpos := c.utf8Size_pos
    rw [encode_cons, List.length_append] at h
    obtain ⟨fuel, rfl⟩ : ∃ n, fuel = n + 1 := Nat.exists_eq_succ_of_ne_zero (by omega)
    have hdrop : (encode (c :: text)).drop c.utf8Size = encode text := by
      rw [encode_cons, ← hlen, List.drop_left]
    cases hbytes : encode (c :: text) with
    | nil =>
      rw [encode_cons] at hbytes
      exact absurd (List.append_eq_nil_iff.mp hbytes).1 String.utf8EncodeChar_ne_nil
    | cons b rest =>
      rw [hbytes] at hdecode hdrop
      rw [replaceFrom, hdecode]
      exact congrArg (c :: ·) (hdrop ▸ ih (by omega))

theorem decodeReplace_encode (text : List Char) : decodeReplace (encode text) = text :=
  replaceFrom_encode (Nat.le_refl _)

/-! ## First bytes -/

theorem utf8EncodeChar_ascii {c : Char} (h : c.toNat < 0x80) :
    String.utf8EncodeChar c = [UInt8.ofNat c.toNat] :=
  if_pos (Nat.le_of_lt_succ h)

theorem ofNat_ne_zero {n : Nat} (hpos : 0 < n) (hlt : n < 256) : UInt8.ofNat n ≠ 0 := by
  intro h
  have htoNat := congrArg UInt8.toNat h
  rw [UInt8.toNat_ofNat', Nat.mod_eq_of_lt hlt] at htoNat
  exact Nat.ne_of_gt hpos htoNat

/-- Only NUL has a zero byte. -/
theorem utf8EncodeChar_cons {c : Char} (h : c ≠ '\x00') :
    ∃ b rest, String.utf8EncodeChar c = b :: rest ∧ b ≠ 0 := by
  have hpos : 0 < c.val.toNat := by
    refine Nat.pos_of_ne_zero fun hzero => h ?_
    exact Char.toNat_inj.mp hzero
  unfold String.utf8EncodeChar
  dsimp only
  split_ifs
  · exact ⟨_, _, rfl, ofNat_ne_zero hpos (by omega)⟩
  · exact ⟨_, _, rfl, ofNat_ne_zero (by omega) (by omega)⟩
  · exact ⟨_, _, rfl, ofNat_ne_zero (by omega) (by omega)⟩
  · exact ⟨_, _, rfl, ofNat_ne_zero (by omega) (by omega)⟩

/-! ## Hexadecimal digits -/

def hexDigit? (c : Char) : Option Nat :=
  if '0' ≤ c ∧ c ≤ '9' then some (c.toNat - '0'.toNat)
  else if 'a' ≤ c ∧ c ≤ 'f' then some (c.toNat - 'a'.toNat + 10)
  else if 'A' ≤ c ∧ c ≤ 'F' then some (c.toNat - 'A'.toNat + 10)
  else none

theorem hexDigit?_digitChar : ∀ n < 16, hexDigit? (Nat.digitChar n) = some n := by decide

theorem hexDigit?_toUpper : ∀ n < 16, hexDigit? (Nat.digitChar n).toUpper = some n := by decide

end Utf8

end Kaede
