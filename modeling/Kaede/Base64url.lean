import Kaede.TrackerSnapshot

/-!
# Canonical base64url

`decode_base64url` of `backend/app/core/base64url.py`. The library's decoder
takes some texts that no bytes are written as, and the comparison with the
text that the decoded bytes have leaves exactly the canonical ones
(`decodeBase64url_eq_ok`).
-/

namespace Kaede

namespace TrackerSync

/-- The six bits of a letter. -/
def base64Value (c : Char) : Option Nat :=
  if 'A' ≤ c ∧ c ≤ 'Z' then some (c.toNat - 65)
  else if 'a' ≤ c ∧ c ≤ 'z' then some (c.toNat - 71)
  else if c.isDigit then some (c.toNat + 4)
  else if c = '-' then some 62
  else if c = '_' then some 63
  else none

/-- Four letters are three bytes. The bits that a short group has too many
are dropped. -/
def base64Bytes : List Nat → Option (List UInt8)
  | a :: b :: c :: d :: rest => do
      let bytes ← base64Bytes rest
      some (UInt8.ofNat (a * 4 + b / 16) :: UInt8.ofNat (b % 16 * 16 + c / 4) ::
        UInt8.ofNat (c % 4 * 64 + d) :: bytes)
  | [a, b, c] => some [UInt8.ofNat (a * 4 + b / 16), UInt8.ofNat (b % 16 * 16 + c / 4)]
  | [a, b] => some [UInt8.ofNat (a * 4 + b / 16)]
  | [_] => none
  | [] => some []

/-- What `b64decode` makes of a text of letters. Texts with other characters
it takes, of padding or of the plain alphabet, are not canonical. -/
def b64decode (value : List Char) : Option (List UInt8) := do
  let values ← value.mapM base64Value
  base64Bytes values

/-- `decode_base64url`. -/
def decodeBase64url (value : List Char) (size maximum : Option Nat) :
    Except String (List UInt8) :=
  match b64decode value with
  | none => .error "value is not canonical URL-safe base64"
  | some decoded => do
      ensure (encodeBase64url decoded = value) "value is not canonical URL-safe base64"
      ensure (∀ n ∈ size, decoded.length = n)
        ("value must decode to exactly " ++ toString (size.getD 0) ++ " bytes")
      ensure (∀ n ∈ maximum, decoded.length ≤ n)
        ("value must decode to at most " ++ toString (maximum.getD 0) ++ " bytes")
      .ok decoded

/-! ## Round trip -/

theorem base64Value_base64Letter : ∀ n < 64, base64Value (base64Letter n) = some n := by decide

theorem ofNat_toNat_eq {x : UInt8} {n : Nat} (h : n = x.toNat) : UInt8.ofNat n = x := by
  rw [h, UInt8.ofNat_toNat]

theorem mapM_base64Letter {values : List Nat} (h : ∀ n ∈ values, n < 64) :
    (values.map base64Letter).mapM base64Value = some values := by
  induction values with
  | nil => rfl
  | cons n values ih =>
    obtain ⟨hn, hvalues⟩ := List.forall_mem_cons.mp h
    rw [List.map_cons, List.mapM_cons, base64Value_base64Letter n hn, ih hvalues]
    rfl

/-- The bits of bytes, six by six. -/
def base64Values : List UInt8 → List Nat
  | a :: b :: c :: rest =>
      a.toNat / 4 :: (a.toNat % 4 * 16 + b.toNat / 16) :: (b.toNat % 16 * 4 + c.toNat / 64) ::
        c.toNat % 64 :: base64Values rest
  | [a, b] => [a.toNat / 4, a.toNat % 4 * 16 + b.toNat / 16, b.toNat % 16 * 4]
  | [a] => [a.toNat / 4, a.toNat % 4 * 16]
  | [] => []

theorem encodeBase64url_eq (bytes : List UInt8) :
    encodeBase64url bytes = (base64Values bytes).map base64Letter := by
  fun_induction base64Values bytes with
  | case1 a b c rest ih => rw [encodeBase64url, ih]; rfl
  | case2 a b => rfl
  | case3 a => rfl
  | case4 => rfl

theorem base64Values_lt (bytes : List UInt8) : ∀ n ∈ base64Values bytes, n < 64 := by
  fun_induction base64Values bytes with
  | case1 a b c rest ih =>
    have ha := a.toNat_lt
    have hb := b.toNat_lt
    have hc := c.toNat_lt
    simp only [List.forall_mem_cons]
    exact ⟨by omega, by omega, by omega, by omega, ih⟩
  | case2 a b =>
    have ha := a.toNat_lt
    have hb := b.toNat_lt
    simp only [List.forall_mem_cons]
    exact ⟨by omega, by omega, by omega, fun _ hn => absurd hn List.not_mem_nil⟩
  | case3 a =>
    have ha := a.toNat_lt
    simp only [List.forall_mem_cons]
    exact ⟨by omega, by omega, fun _ hn => absurd hn List.not_mem_nil⟩
  | case4 => exact fun _ hn => absurd hn List.not_mem_nil

theorem base64Bytes_base64Values (bytes : List UInt8) :
    base64Bytes (base64Values bytes) = some bytes := by
  fun_induction base64Values bytes with
  | case1 a b c rest ih =>
    have ha := a.toNat_lt
    have hb := b.toNat_lt
    have hc := c.toNat_lt
    rw [base64Bytes, ih]
    refine congrArg some ?_
    rw [ofNat_toNat_eq (x := a) (by omega), ofNat_toNat_eq (x := b) (by omega),
      ofNat_toNat_eq (x := c) (by omega)]
  | case2 a b =>
    have ha := a.toNat_lt
    have hb := b.toNat_lt
    rw [base64Bytes, ofNat_toNat_eq (x := a) (by omega), ofNat_toNat_eq (x := b) (by omega)]
  | case3 a =>
    have ha := a.toNat_lt
    rw [base64Bytes, ofNat_toNat_eq (x := a) (by omega)]
  | case4 => rfl

theorem b64decode_encodeBase64url (bytes : List UInt8) :
    b64decode (encodeBase64url bytes) = some bytes := by
  rw [b64decode, encodeBase64url_eq, mapM_base64Letter (base64Values_lt bytes)]
  exact base64Bytes_base64Values bytes

/-- The decoder takes exactly the texts that bytes are written as. -/
theorem decodeBase64url_eq_ok {value : List Char} {size maximum : Option Nat} {bytes : List UInt8} :
    decodeBase64url value size maximum = .ok bytes ↔
      encodeBase64url bytes = value ∧ (∀ n ∈ size, bytes.length = n) ∧
        ∀ n ∈ maximum, bytes.length ≤ n := by
  constructor
  · intro h
    rw [decodeBase64url] at h
    split at h
    · cases h
    · obtain ⟨hvalue, h⟩ := check_bind_eq_ok.mp h
      obtain ⟨hsize, h⟩ := check_bind_eq_ok.mp h
      obtain ⟨hmaximum, h⟩ := check_bind_eq_ok.mp h
      obtain rfl := Except.ok.inj h
      exact ⟨ensure_eq_ok.mp hvalue, ensure_eq_ok.mp hsize, ensure_eq_ok.mp hmaximum⟩
  · rintro ⟨rfl, hsize, hmaximum⟩
    rw [decodeBase64url, b64decode_encodeBase64url]
    refine check_bind_eq_ok.mpr ⟨ensure_eq_ok.mpr rfl, ?_⟩
    refine check_bind_eq_ok.mpr ⟨ensure_eq_ok.mpr hsize, ?_⟩
    exact check_bind_eq_ok.mpr ⟨ensure_eq_ok.mpr hmaximum, rfl⟩

theorem encodeBase64url_injective : Function.Injective encodeBase64url := by
  intro bytes bytes' h
  have hdecoded := b64decode_encodeBase64url bytes
  rw [h, b64decode_encodeBase64url] at hdecoded
  exact (Option.some.inj hdecoded).symm

end TrackerSync

end Kaede
