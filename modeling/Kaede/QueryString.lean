import Mathlib.Data.List.Flatten
import Kaede.Utf8

/-!
# Query strings

`parse_qsl` and `urlencode` of Python's `urllib.parse`. Reading splits at
`&`, skips empty pieces, splits each at its first `=` and decodes `+` and
percent escapes; what does not decode as UTF-8 becomes U+FFFD. Writing
percent-encodes everything but the unreserved characters.

`parseQsl_urlencode` is the round trip of the pairs.
-/

namespace Kaede

namespace QueryString

/-! ## Writing -/

/-- `_ALWAYS_SAFE`: letters, digits and `_.-~`. -/
def alwaysSafe (b : UInt8) : Bool :=
  (0x41 ≤ b ∧ b ≤ 0x5A) ∨ (0x61 ≤ b ∧ b ≤ 0x7A) ∨ (0x30 ≤ b ∧ b ≤ 0x39) ∨
    b = 0x5F ∨ b = 0x2E ∨ b = 0x2D ∨ b = 0x7E

def upperHex (n : Nat) : Char := (Nat.digitChar n).toUpper

def quoteByte (b : UInt8) : List Char :=
  if alwaysSafe b then [Char.ofNat b.toNat]
  else if b = 0x20 then ['+']
  else ['%', upperHex (b.toNat / 16), upperHex (b.toNat % 16)]

def quotePlus (text : List Char) : List Char := (Utf8.encode text).flatMap quoteByte

def urlencode (pairs : List (String × String)) : List Char :=
  ['&'].intercalate
    (pairs.map fun pair => quotePlus pair.1.toList ++ '=' :: quotePlus pair.2.toList)

/-! ## Reading -/

/-- The byte that two hexadecimal digits at the front write. -/
def hexByte? : List Char → Option UInt8
  | a :: b :: _ =>
      match Utf8.hexDigit? a, Utf8.hexDigit? b with
      | some high, some low => some (UInt8.ofNat (high * 16 + low))
      | _, _ => none
  | _ => none

/-- The bytes of a text in ASCII after its first `skip` characters, with
the percent escapes decoded. -/
def bytesAfter : Nat → List Char → List UInt8
  | _, [] => []
  | skip + 1, _ :: rest => bytesAfter skip rest
  | 0, c :: rest =>
      if c = '%' then
        match hexByte? rest with
        | some byte => byte :: bytesAfter 2 rest
        | none => 0x25 :: bytesAfter 0 rest
      else UInt8.ofNat c.toNat :: bytesAfter 0 rest

def unquoteToBytes (text : List Char) : List UInt8 := bytesAfter 0 text

def isAscii (c : Char) : Bool := c.toNat < 0x80

/-- The runs of ASCII characters are decoded, one by one; `run` is the
current one. -/
def unquoteRun (run : List Char) : List Char → List Char
  | [] => Utf8.decodeReplace (unquoteToBytes run)
  | c :: rest =>
      if isAscii c then unquoteRun (run ++ [c]) rest
      else Utf8.decodeReplace (unquoteToBytes run) ++ c :: unquoteRun [] rest

def unquote (text : List Char) : List Char := unquoteRun [] text

def plusToSpace (text : List Char) : List Char := text.map fun c => if c = '+' then ' ' else c

/-- A name or a value. -/
def unquotePlus (text : List Char) : String := String.ofList (unquote (plusToSpace text))

/-- A piece without `=` is a name with an empty value. -/
def parsePair (piece : List Char) : String × String :=
  (unquotePlus (piece.takeWhile (· ≠ '=')), unquotePlus ((piece.dropWhile (· ≠ '=')).drop 1))

/-- With `keep_blank_values`. -/
def parseQsl (query : List Char) : List (String × String) :=
  ((query.splitOn '&').filter (· ≠ [])).map parsePair

/-! ## The round trip -/

/-- What a quoted byte is made of. -/
def IsQuoted (c : Char) : Prop := isAscii c ∧ c ≠ '&' ∧ c ≠ '='

instance (c : Char) : Decidable (IsQuoted c) := inferInstanceAs (Decidable (_ ∧ _))

theorem byte_forall {P : UInt8 → Prop} (h : ∀ n < 256, P (UInt8.ofNat n)) (b : UInt8) : P b := by
  have hb := h b.toNat (UInt8.toNat_lt b)
  rwa [UInt8.ofNat_toNat] at hb

set_option maxRecDepth 4000 in
theorem isQuoted_quoteByte (b : UInt8) : ∀ c ∈ quoteByte b, IsQuoted c := by
  have hall := byte_forall (P := fun b => (quoteByte b).all (fun c => IsQuoted c) = true)
    (by decide) b
  exact fun c hc => of_decide_eq_true (List.all_eq_true.mp hall c hc)

set_option maxRecDepth 4000 in
/-- A safe byte stands for itself. -/
theorem alwaysSafe_char (b : UInt8) : alwaysSafe b →
    Char.ofNat b.toNat ≠ '%' ∧ Char.ofNat b.toNat ≠ '+' ∧
      UInt8.ofNat (Char.ofNat b.toNat).toNat = b :=
  byte_forall (P := fun b => alwaysSafe b → Char.ofNat b.toNat ≠ '%' ∧ Char.ofNat b.toNat ≠ '+' ∧
    UInt8.ofNat (Char.ofNat b.toNat).toNat = b) (by decide) b

theorem upperHex_ne_plus : ∀ n < 16, upperHex n ≠ '+' := by decide

theorem hexByte?_upperHex (b : UInt8) (rest : List Char) :
    hexByte? (upperHex (b.toNat / 16) :: upperHex (b.toNat % 16) :: rest) = some b := by
  have hb := UInt8.toNat_lt b
  have hhigh := Utf8.hexDigit?_toUpper (b.toNat / 16) (by omega)
  have hlow := Utf8.hexDigit?_toUpper (b.toNat % 16) (by omega)
  have hvalue : b.toNat / 16 * 16 + b.toNat % 16 = b.toNat := by omega
  simp only [hexByte?, upperHex, hhigh, hlow, hvalue, UInt8.ofNat_toNat]

theorem plusToSpace_append (text text' : List Char) :
    plusToSpace (text ++ text') = plusToSpace text ++ plusToSpace text' := List.map_append

theorem bytesAfter_quoteByte (b : UInt8) (rest : List Char) :
    bytesAfter 0 (plusToSpace (quoteByte b) ++ rest) = b :: bytesAfter 0 rest := by
  unfold quoteByte
  split_ifs with hsafe hspace
  · obtain ⟨hpercent, hplus, hbyte⟩ := alwaysSafe_char b hsafe
    simp only [plusToSpace, List.map_cons, List.map_nil, if_neg hplus, List.cons_append,
      List.nil_append, bytesAfter, if_neg hpercent, hbyte]
  · subst hspace
    rfl
  · have hb := UInt8.toNat_lt b
    have hhigh := upperHex_ne_plus (b.toNat / 16) (by omega)
    have hlow := upperHex_ne_plus (b.toNat % 16) (by omega)
    have hplus : '%' ≠ '+' := by decide
    simp only [plusToSpace, List.map_cons, List.map_nil, if_neg hhigh, if_neg hlow, if_neg hplus,
      List.cons_append, List.nil_append, bytesAfter, if_true, hexByte?_upperHex]

theorem unquoteToBytes_quote (bytes : List UInt8) :
    unquoteToBytes (plusToSpace (bytes.flatMap quoteByte)) = bytes := by
  induction bytes with
  | nil => rfl
  | cons b bytes ih =>
    rw [List.flatMap_cons, plusToSpace_append, unquoteToBytes, bytesAfter_quoteByte]
    exact congrArg (b :: ·) ih

/-- A text in ASCII is one run. -/
theorem unquoteRun_ascii {text : List Char} (h : ∀ c ∈ text, isAscii c) (run : List Char) :
    unquoteRun run text = Utf8.decodeReplace (unquoteToBytes (run ++ text)) := by
  induction text generalizing run with
  | nil => rw [unquoteRun, List.append_nil]
  | cons c text ih =>
    obtain ⟨hc, htext⟩ := List.forall_mem_cons.mp h
    rw [unquoteRun, if_pos hc, ih htext, List.append_assoc, List.singleton_append]

theorem isQuoted_quotePlus {text : List Char} {c : Char} (h : c ∈ quotePlus text) :
    IsQuoted c := by
  obtain ⟨b, -, hc⟩ := List.mem_flatMap.mp h
  exact isQuoted_quoteByte b c hc

theorem unquotePlus_quotePlus (s : String) : unquotePlus (quotePlus s.toList) = s := by
  have hascii : ∀ c ∈ plusToSpace (quotePlus s.toList), isAscii c := by
    intro c' hc'
    obtain ⟨c, hc, rfl⟩ := List.mem_map.mp hc'
    split_ifs
    · rfl
    · exact (isQuoted_quotePlus hc).1
  rw [unquotePlus, unquote, unquoteRun_ascii hascii, List.nil_append, quotePlus,
    unquoteToBytes_quote, Utf8.decodeReplace_encode, String.ofList_toList]

theorem parsePair_urlencode (name value : String) :
    parsePair (quotePlus name.toList ++ '=' :: quotePlus value.toList) = (name, value) := by
  have hname : ∀ c ∈ quotePlus name.toList, decide (c ≠ '=') = true :=
    fun c hc => decide_eq_true (isQuoted_quotePlus hc).2.2
  rw [parsePair, List.takeWhile_append_of_pos hname, List.dropWhile_append_of_pos hname,
    List.takeWhile_cons_of_neg (by decide), List.dropWhile_cons_of_neg (by decide),
    List.append_nil, List.drop_one, List.tail_cons, unquotePlus_quotePlus, unquotePlus_quotePlus]

theorem parseQsl_urlencode (pairs : List (String × String)) :
    parseQsl (urlencode pairs) = pairs := by
  cases hpairs : pairs with
  | nil => rfl
  | cons first rest =>
    rw [← hpairs]
    have hsep : ∀ piece ∈ pairs.map fun pair =>
        quotePlus pair.1.toList ++ '=' :: quotePlus pair.2.toList, '&' ∉ piece := by
      intro piece hpiece hmem
      obtain ⟨pair, -, rfl⟩ := List.mem_map.mp hpiece
      rcases List.mem_append.mp hmem with hname | hvalue
      · exact (isQuoted_quotePlus hname).2.1 rfl
      · exact (isQuoted_quotePlus ((List.mem_cons.mp hvalue).resolve_left (by decide))).2.1 rfl
    have hne : ∀ piece ∈ pairs.map fun pair =>
        quotePlus pair.1.toList ++ '=' :: quotePlus pair.2.toList, decide (piece ≠ []) := by
      intro piece hpiece
      obtain ⟨pair, -, rfl⟩ := List.mem_map.mp hpiece
      simp
    rw [parseQsl, urlencode, List.splitOn_intercalate '&' hsep (by simp [hpairs]),
      List.filter_eq_self.mpr hne, List.map_map]
    exact List.map_id'' (fun pair => parsePair_urlencode pair.1 pair.2) _

/-- The pairs of queries with the same pieces are the same, up to order. -/
theorem parseQsl_perm {query query' : List Char}
    (h : (query'.splitOn '&').Perm (query.splitOn '&')) :
    (parseQsl query').Perm (parseQsl query) :=
  (h.filter _).map _

end QueryString

end Kaede
