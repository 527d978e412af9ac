import Kaede.TrackerFetch

/-!
# The parts of snapshot pages

What a page of a snapshot is made of, against the limits that the federation
sets on JSON: ids, domains, times and cursors are short texts of plain
letters, and a checked value of a custom field has one of a few shapes
(`ValueShape`). Such a value passes the reader of pages unless it is a float.
-/

namespace Kaede

namespace TrackerSync

open Replication (domainLabel domainLetter domainPattern lowerDomain normalizeDomain
  maxDatabaseSnowflake)
open TrackerFields

variable {F : Type}

/-! ## Texts -/

/-- A string that the limits let through. -/
def TextOk (s : String) : Prop := '\x00' ∉ s.toList ∧ s.utf8ByteSize ≤ 1024 * 1024

instance (s : String) : Decidable (TextOk s) := inferInstanceAs (Decidable (_ ∧ _))

theorem validateString_ok_iff {s label : String} {bound : Nat} :
    Json.validateString s bound label = .ok () ↔ '\x00' ∉ s.toList ∧ s.utf8ByteSize ≤ bound := by
  unfold Json.validateString
  split_ifs with hnul hsize
  · simp [hnul]
  · simp [Nat.not_le.mpr hsize]
  · simp [hnul, Nat.not_lt.mp hsize]

theorem utf8ByteSize_eq (s : String) : s.utf8ByteSize = (Utf8.encode s.toList).length := by
  have h := congrArg ByteArray.size (Utf8.toByteArray_encode s.toList)
  rw [String.ofList_toList, List.size_toByteArray] at h
  exact h.symm

theorem length_encode_le (text : List Char) : (Utf8.encode text).length ≤ 4 * text.length := by
  induction text with
  | nil => exact Nat.le_refl _
  | cons c text ih =>
    have hc : (String.utf8EncodeChar c).length ≤ 4 :=
      (String.length_utf8EncodeChar c).trans_le c.utf8Size_le_four
    rw [Utf8.encode_cons, List.length_append, List.length_cons]
    omega

theorem length_encode_ascii {text : List Char} (h : ∀ c ∈ text, c.toNat < 0x80) :
    (Utf8.encode text).length = text.length := by
  induction text with
  | nil => rfl
  | cons c text ih =>
    obtain ⟨hc, htext⟩ := List.forall_mem_cons.mp h
    rw [Utf8.encode_cons, Utf8.utf8EncodeChar_ascii hc, List.singleton_append, List.length_cons,
      List.length_cons, ih htext]

theorem textOk_of_length {s : String} {n : Nat} (hnul : '\x00' ∉ s.toList) (h : s.length ≤ n)
    (hn : n ≤ 262144) : TextOk s := by
  refine ⟨hnul, ?_⟩
  have hle := length_encode_le s.toList
  rw [utf8ByteSize_eq]
  rw [String.length_toList] at hle
  omega

/-- The letters of references, times and cursors. -/
def PlainLetter (c : Char) : Prop := 0x20 < c.toNat ∧ c.toNat < 0x80 ∧ c ≠ '"' ∧ c ≠ '\\'

instance (c : Char) : Decidable (PlainLetter c) := inferInstanceAs (Decidable (_ ∧ _))

theorem PlainLetter.ne_nul {c : Char} (h : PlainLetter c) : c ≠ '\x00' := by
  rintro rfl
  exact absurd h.1 (by decide)

theorem plainLetter_of_isDigit {c : Char} (h : c.isDigit) : PlainLetter c := by
  rw [Char.isDigit, Bool.and_eq_true, decide_eq_true_eq, decide_eq_true_eq] at h
  have hlow : 48 ≤ c.toNat := h.1
  have hhigh : c.toNat ≤ 57 := h.2
  refine ⟨by omega, by omega, ?_, ?_⟩
  · rintro rfl
    exact absurd hlow (by decide)
  · rintro rfl
    exact absurd hhigh (by decide)

theorem textOk_of_plain {s : String} {n : Nat} (hplain : ∀ c ∈ s.toList, PlainLetter c)
    (h : s.length ≤ n) (hn : n ≤ 262144) : TextOk s :=
  textOk_of_length (fun hnul => (hplain _ hnul).ne_nul rfl) h hn

theorem toString_plain (n : Nat) : ∀ c ∈ (toString n).toList, PlainLetter c := by
  intro c hc
  exact plainLetter_of_isDigit ((decimalDigits_toString n).2.1 c hc)

theorem length_toString_le {n : Nat} (h : n ≤ maxDatabaseSnowflake) : (toString n).length ≤ 19 := by
  rw [← String.length_toList, Nat.toString_eq_repr, Nat.toList_repr,
    Nat.length_toDigits_le_iff (by decide) (by decide)]
  exact Nat.lt_of_le_of_lt h (by decide)

theorem textOk_toString {n : Nat} (h : n ≤ maxDatabaseSnowflake) : TextOk (toString n) :=
  textOk_of_plain (toString_plain n) (length_toString_le h) (by decide)

theorem pad_plain (width n : Nat) : ∀ c ∈ CivilTime.pad width n, PlainLetter c := by
  induction width with
  | zero => simp [CivilTime.pad]
  | succ width ih =>
    refine List.forall_mem_cons.mpr ⟨plainLetter_of_isDigit ?_, ih⟩
    exact (CivilTime.digitChar_value _ (Nat.mod_lt _ (by decide))).1

theorem length_pad (width n : Nat) : (CivilTime.pad width n).length = width := by
  induction width with
  | zero => rfl
  | succ width ih => rw [CivilTime.pad, List.length_cons, ih]

theorem fraction_plain (n : Nat) : ∀ c ∈ CivilTime.fraction n, PlainLetter c := by
  unfold CivilTime.fraction
  split_ifs
  · simp
  · exact List.forall_mem_cons.mpr ⟨by decide, pad_plain 6 n⟩

theorem length_fraction_le (n : Nat) : (CivilTime.fraction n).length ≤ 7 := by
  unfold CivilTime.fraction
  split_ifs
  · exact Nat.zero_le _
  · rw [List.length_cons, length_pad]

theorem isoformat_plain (t : CivilTime) : ∀ c ∈ t.isoformat.toList, PlainLetter c := by
  rw [CivilTime.isoformat, String.toList_ofList, CivilTime.isoChars]
  simp only [List.forall_mem_append, List.forall_mem_cons]
  refine ⟨pad_plain _ _, by decide, pad_plain _ _, by decide, pad_plain _ _, by decide,
    pad_plain _ _, by decide, pad_plain _ _, by decide, pad_plain _ _, fraction_plain _, ?_⟩
  exact ⟨by decide, by decide, by decide, by decide, by decide, by decide, List.forall_mem_nil _⟩

theorem length_isoformat_le (t : CivilTime) : t.isoformat.length ≤ 32 := by
  have hfraction := length_fraction_le (t.time % 1000000)
  rw [← String.length_toList, CivilTime.isoformat, String.toList_ofList, CivilTime.isoChars]
  simp only [List.length_append, List.length_cons, List.length_nil, length_pad]
  omega

theorem textOk_isoformat (t : CivilTime) : TextOk t.isoformat :=
  textOk_of_plain (isoformat_plain t) (length_isoformat_le t) (by decide)

/-! ## References -/

/-- A reference as the tables have it. -/
structure RefOk (ref : Ref) : Prop where
  id_le : ref.id ≤ maxDatabaseSnowflake
  domain_eq : normalizeDomain ref.domain = .ok ref.domain

theorem normalizeDomain_eq_ok {value domain : String} :
    normalizeDomain value = .ok domain ↔
      domainPattern (lowerDomain value) = true ∧ String.ofList (lowerDomain value) = domain := by
  rw [normalizeDomain, check_bind_eq_ok, ensure_eq_ok, Except.ok.injEq]

/-- A stored domain has the form of one. -/
theorem RefOk.pattern {ref : Ref} (h : RefOk ref) : domainPattern ref.domain.toList = true := by
  obtain ⟨hpattern, hdomain⟩ := normalizeDomain_eq_ok.mp h.domain_eq
  rwa [← hdomain, String.toList_ofList]

theorem plainLetter_of_domainLetter {c : Char} (h : domainLetter c = true) : PlainLetter c := by
  rw [domainLetter, Bool.or_eq_true, Bool.and_eq_true, decide_eq_true_eq, decide_eq_true_eq] at h
  rcases h with h | h
  · have hlow : 97 ≤ c.toNat := h.1
    have hhigh : c.toNat ≤ 122 := h.2
    refine ⟨by omega, by omega, ?_, ?_⟩
    · rintro rfl
      exact absurd hlow (by decide)
    · rintro rfl
      exact absurd hlow (by decide)
  · exact plainLetter_of_isDigit h

theorem mem_of_mem_intercalate {c : Char} {sep : List Char} {labels : List (List Char)}
    (h : c ∈ sep.intercalate labels) : c ∈ sep ∨ ∃ label ∈ labels, c ∈ label := by
  induction labels with
  | nil => cases h
  | cons label rest ih =>
    cases rest with
    | nil =>
      rw [List.intercalate_singleton] at h
      exact .inr ⟨label, List.mem_cons_self, h⟩
    | cons next rest =>
      rw [List.intercalate_cons_cons, List.mem_append, List.mem_append] at h
      rcases h with (h | h) | h
      · exact .inr ⟨label, List.mem_cons_self, h⟩
      · exact .inl h
      · rcases ih h with h | ⟨l, hl, hc⟩
        · exact .inl h
        · exact .inr ⟨l, List.mem_cons_of_mem _ hl, hc⟩

theorem RefOk.domain_plain {ref : Ref} (h : RefOk ref) :
    ∀ c ∈ ref.domain.toList, PlainLetter c := by
  have hpattern := h.pattern
  rw [domainPattern, Bool.and_eq_true, Bool.and_eq_true] at hpattern
  have hlabels := List.all_eq_true.mp hpattern.2
  intro c hc
  rw [← @List.intercalate_splitOn _ ref.domain.toList _ _ '.'] at hc
  rcases mem_of_mem_intercalate hc with hdot | ⟨label, hlabel, hmem⟩
  · rw [List.mem_singleton.mp hdot]
    decide
  · have hall := hlabels label hlabel
    simp only [domainLabel, Bool.and_eq_true, List.all_eq_true, Bool.or_eq_true,
      decide_eq_true_eq] at hall
    rcases hall.1.1.2 c hmem with hletter | rfl
    · exact plainLetter_of_domainLetter hletter
    · decide

theorem RefOk.length_domain_le {ref : Ref} (h : RefOk ref) : ref.domain.length ≤ 253 := by
  have hpattern := h.pattern
  rw [domainPattern, Bool.and_eq_true, Bool.and_eq_true, decide_eq_true_eq] at hpattern
  exact String.length_toList ▸ hpattern.1.1

theorem RefOk.textOk_domain {ref : Ref} (h : RefOk ref) : TextOk ref.domain :=
  textOk_of_plain h.domain_plain h.length_domain_le (by decide)

/-! ## Cursors -/

theorem base64Letter_plain (n : Nat) : PlainLetter (base64Letter n) := by
  have hlow : ∀ m < 26, PlainLetter (Char.ofNat (m + 65)) ∧ PlainLetter (Char.ofNat (m + 97)) := by
    decide
  have hdigit : ∀ m < 10, PlainLetter (Char.ofNat (m + 48)) := by decide
  unfold base64Letter
  split_ifs with h₁ h₂ h₃ h₄
  · exact (hlow n h₁).1
  · exact (hlow (n - 26) (by omega)).2
  · exact hdigit (n - 52) (by omega)
  · decide
  · decide

theorem encodeBase64url_plain (bytes : List UInt8) :
    ∀ c ∈ encodeBase64url bytes, PlainLetter c := by
  induction bytes using encodeBase64url.induct with
  | case1 a b c rest ih =>
    simp only [encodeBase64url, List.forall_mem_cons]
    exact ⟨base64Letter_plain _, base64Letter_plain _, base64Letter_plain _, base64Letter_plain _,
      ih⟩
  | case2 a b => simp [encodeBase64url, base64Letter_plain]
  | case3 a => simp [encodeBase64url, base64Letter_plain]
  | case4 => simp [encodeBase64url]

theorem length_encodeBase64url_le (bytes : List UInt8) :
    3 * (encodeBase64url bytes).length ≤ 4 * bytes.length + 2 := by
  induction bytes using encodeBase64url.induct with
  | case1 a b c rest ih =>
    simp only [encodeBase64url, List.length_cons]
    omega
  | case2 a b => simp [encodeBase64url]
  | case3 a => simp [encodeBase64url]
  | case4 => simp [encodeBase64url]

theorem escape_plain {c : Char} (h : PlainLetter c) : Json.escape c = [c] := by
  obtain ⟨hlow, -, hquote, hbackslash⟩ := h
  have hne (d : Char) (hd : d.toNat ≤ 0x20) : ¬ c = d := by
    rintro rfl
    omega
  unfold Json.escape
  rw [if_neg hquote, if_neg hbackslash, if_neg (hne _ (by decide)), if_neg (hne _ (by decide)),
    if_neg (hne _ (by decide)), if_neg (hne _ (by decide)), if_neg (hne _ (by decide)),
    if_neg (by omega)]

theorem writeString_plain {s : String} (h : ∀ c ∈ s.toList, PlainLetter c) :
    Json.writeString s = '"' :: (s.toList ++ ['"']) := by
  have hflat : s.toList.flatMap Json.escape = s.toList.flatMap fun c => [c] :=
    List.flatMap_congr fun c hc => escape_plain (h c hc)
  rw [Json.writeString, hflat, List.flatMap_singleton']

/-- The bytes of a string of plain letters. -/
theorem length_encode_writeString {s : String} (h : ∀ c ∈ s.toList, PlainLetter c) :
    (Utf8.encode (Json.writeString s)).length = s.length + 2 := by
  rw [writeString_plain h, length_encode_ascii, List.length_cons, List.length_append,
    String.length_toList, List.length_singleton]
  simp only [List.forall_mem_cons, List.forall_mem_append]
  exact ⟨by decide, fun c hc => (h c hc).2.1, by decide, by simp⟩

theorem length_encode_mark {c : Char} {text : List Char} {m : Nat} (hc : c.toNat < 0x80)
    (htext : (Utf8.encode text).length ≤ m) : (Utf8.encode (c :: text)).length ≤ m + 1 := by
  rw [Utf8.encode_cons, Utf8.utf8EncodeChar_ascii hc, List.singleton_append, List.length_cons]
  exact Nat.succ_le_succ htext

/-- The bytes of a member whose value is a string, and of what follows it. -/
theorem length_encode_member (key : String) {s : String} {text : List Char} {k n m : Nat}
    (hkey : key.toList.all (fun c => PlainLetter c) = true) (hk : key.toList.length ≤ k)
    (hs : ∀ c ∈ s.toList, PlainLetter c) (hn : s.length ≤ n)
    (htext : (Utf8.encode text).length ≤ m) :
    (Utf8.encode (Json.writeString key ++ ':' :: (Json.writeString s ++ text))).length ≤
      k + 2 + (n + 2 + m + 1) := by
  have hplain : ∀ c ∈ key.toList, PlainLetter c :=
    fun c hc => of_decide_eq_true (List.all_eq_true.mp hkey c hc)
  have hvalue : (Utf8.encode (Json.writeString s ++ text)).length ≤ n + 2 + m := by
    rw [Utf8.encode_append, List.length_append, length_encode_writeString hs]
    omega
  have htail := length_encode_mark (c := ':') (by decide) hvalue
  rw [Utf8.encode_append, List.length_append, length_encode_writeString hplain]
  rw [String.length_toList] at hk
  omega

section

variable {floats : Json.FloatText F} {n : Nat}

/-- The bytes of an array, from a bound on those of its items. -/
theorem length_encode_arr_le (floats : Json.FloatText F) (items : List (Json F))
    (h : ∀ v ∈ items, (Utf8.encode (Json.dumps floats v)).length ≤ n) :
    (Utf8.encode (Json.dumps floats (.arr items))).length ≤ items.length * (n + 1) + 2 := by
  have htail : ∀ items : List (Json F),
      (∀ v ∈ items, (Utf8.encode (Json.dumps floats v)).length ≤ n) →
        (Utf8.encode (Json.dumpsItems floats items)).length ≤ items.length * (n + 1) + 1 := by
    intro items
    induction items with
    | nil => exact fun _ => Nat.le_add_left _ _
    | cons v vs ih =>
      intro hitems
      obtain ⟨hv, hvs⟩ := List.forall_mem_cons.mp hitems
      have hvs := ih hvs
      refine (length_encode_mark (m := n + (vs.length * (n + 1) + 1)) (by decide) ?_).trans ?_
      · rw [Utf8.encode_append, List.length_append]
        omega
      · rw [List.length_cons, Nat.succ_mul]
        omega
  cases items with
  | nil => exact Nat.le_add_left _ _
  | cons v vs =>
    obtain ⟨hv, hvs⟩ := List.forall_mem_cons.mp h
    have hvs := htail vs hvs
    refine (length_encode_mark (m := n + (vs.length * (n + 1) + 1)) (by decide) ?_).trans ?_
    · rw [Utf8.encode_append, List.length_append]
      omega
    · rw [List.length_cons, Nat.succ_mul]
      omega

/-- The bytes of an object, from bounds on its keys and its values. -/
theorem length_encode_obj_le {members : List (String × Json F)} {k : Nat}
    (hkeys : ∀ key ∈ members.map Prod.fst, (Utf8.encode (Json.writeString key)).length ≤ k)
    (h : ∀ m ∈ members, (Utf8.encode (Json.dumps floats m.2)).length ≤ n) :
    (Utf8.encode (Json.dumps floats (.obj members))).length ≤ members.length * (k + n + 2) + 2 := by
  have hmember : ∀ (m : String × Json F) (text : List Char),
      (Utf8.encode (Json.writeString m.1)).length ≤ k →
        (Utf8.encode (Json.dumps floats m.2)).length ≤ n →
          (Utf8.encode (Json.writeString m.1 ++ ':' :: (Json.dumps floats m.2 ++ text))).length ≤
            k + n + 1 + (Utf8.encode text).length := by
    intro m text hkey hvalue
    have hrest : (Utf8.encode (':' :: (Json.dumps floats m.2 ++ text))).length ≤ _ :=
      length_encode_mark (by decide) (Nat.le_refl _)
    rw [Utf8.encode_append, List.length_append] at hrest
    rw [Utf8.encode_append, List.length_append]
    omega
  have htail : ∀ members : List (String × Json F),
      (∀ key ∈ members.map Prod.fst, (Utf8.encode (Json.writeString key)).length ≤ k) →
        (∀ m ∈ members, (Utf8.encode (Json.dumps floats m.2)).length ≤ n) →
          (Utf8.encode (Json.dumpsMembers floats members)).length ≤
            members.length * (k + n + 2) + 1 := by
    intro members
    induction members with
    | nil => exact fun _ _ => Nat.le_add_left _ _
    | cons m ms ih =>
      intro hkeys hvalues
      obtain ⟨hkey, hkeys⟩ := List.forall_mem_cons.mp hkeys
      obtain ⟨hvalue, hvalues⟩ := List.forall_mem_cons.mp hvalues
      have hms := ih hkeys hvalues
      refine (length_encode_mark (by decide) (hmember m (Json.dumpsMembers floats ms) hkey
        hvalue)).trans ?_
      rw [List.length_cons, Nat.succ_mul ms.length]
      omega
  cases members with
  | nil => exact Nat.le_add_left _ _
  | cons m ms =>
    obtain ⟨hkey, hkeys⟩ := List.forall_mem_cons.mp hkeys
    obtain ⟨hvalue, hvalues⟩ := List.forall_mem_cons.mp h
    have hms := htail ms hkeys hvalues
    refine (length_encode_mark (by decide) (hmember m (Json.dumpsMembers floats ms) hkey
      hvalue)).trans ?_
    rw [List.length_cons, Nat.succ_mul ms.length]
    omega

end

theorem length_cursorPayload_le (lib : Library F) {board : BoardRow F} {afterTaskId : Nat}
    (hchannel : RefOk board.channel) (hguild : RefOk board.guild)
    (hafter : afterTaskId ≤ maxDatabaseSnowflake) :
    (Utf8.encode (Json.dumps lib.floats (cursorPayload board afterTaskId))).length ≤ 696 := by
  have hend : (Utf8.encode ['}']).length ≤ 1 := by decide
  have hversion := length_encode_mark (c := ',') (by decide)
    (length_encode_member "version" (k := 7) (by decide) (by decide)
      (isoformat_plain board.updatedAt) (length_isoformat_le _) hend)
  have hguildId := length_encode_mark (c := ',') (by decide)
    (length_encode_member "guild_id" (k := 8) (by decide) (by decide)
      (toString_plain _) (length_toString_le hguild.id_le) hversion)
  have hguildDomain := length_encode_mark (c := ',') (by decide)
    (length_encode_member "guild_domain" (k := 12) (by decide) (by decide)
      hguild.domain_plain hguild.length_domain_le hguildId)
  have hchannelId := length_encode_mark (c := ',') (by decide)
    (length_encode_member "channel_id" (k := 10) (by decide) (by decide)
      (toString_plain _) (length_toString_le hchannel.id_le) hguildDomain)
  have hchannelDomain := length_encode_mark (c := ',') (by decide)
    (length_encode_member "channel_domain" (k := 14) (by decide) (by decide)
      hchannel.domain_plain hchannel.length_domain_le hchannelId)
  exact length_encode_mark (c := '{') (by decide)
    (length_encode_member "after_task_id" (k := 13) (by decide) (by decide)
      (toString_plain _) (length_toString_le hafter) hchannelDomain)

theorem trackerSnapshotCursor_plain (lib : Library F) (board : BoardRow F) (afterTaskId : Nat) :
    ∀ c ∈ (trackerSnapshotCursor lib board afterTaskId).toList, PlainLetter c := by
  rw [trackerSnapshotCursor, String.toList_ofList]
  exact encodeBase64url_plain _

theorem length_trackerSnapshotCursor_le (lib : Library F) {board : BoardRow F} {afterTaskId : Nat}
    (hchannel : RefOk board.channel) (hguild : RefOk board.guild)
    (hafter : afterTaskId ≤ maxDatabaseSnowflake) :
    (trackerSnapshotCursor lib board afterTaskId).length ≤ 1024 := by
  have hpayload := length_cursorPayload_le lib hchannel hguild hafter
  have hcursor := length_encodeBase64url_le
    (Utf8.encode (Json.dumps lib.floats (cursorPayload board afterTaskId)) ++
      (lib.hmac (Utf8.encode (Json.dumps lib.floats (cursorPayload board afterTaskId)))).val)
  rw [List.length_append, (lib.hmac _).property] at hcursor
  rw [← String.length_toList, trackerSnapshotCursor, String.toList_ofList]
  omega

/-! ## Trees within the limits -/

section

variable (lib : Library F)

/-- What the reader of pages asks of a value at a depth. -/
def FitsAt (depth : Nat) (v : Json F) : Prop :=
  Json.Fits Json.federationJsonLimits ⟨false, lib.isFinite⟩ "federation peer response" depth v

/-- The reader of pages accepts the tree. -/
def Accepted (v : Json F) : Prop :=
  Json.validateJsonTree Json.federationJsonLimits ⟨false, lib.isFinite⟩ "federation peer response"
    v = .ok ()

def KeyOk (key : String) : Prop := '\x00' ∉ key.toList ∧ key.utf8ByteSize ≤ 256

instance (key : String) : Decidable (KeyOk key) := inferInstanceAs (Decidable (_ ∧ _))

variable {lib} {depth : Nat}

theorem accepted_iff {v : Json F} : Accepted lib v ↔ v.nodes ≤ 16384 ∧ FitsAt lib 0 v :=
  Json.validateJsonTree_ok_iff

theorem fitsAt_null (hdepth : depth ≤ 24) : FitsAt lib depth .null :=
  Json.fits_iff.mpr ⟨hdepth, rfl, fun _ hc => absurd hc List.not_mem_nil⟩

theorem fitsAt_bool (hdepth : depth ≤ 24) (b : Bool) : FitsAt lib depth (.bool b) :=
  Json.fits_iff.mpr ⟨hdepth, rfl, fun _ hc => absurd hc List.not_mem_nil⟩

theorem fitsAt_int_iff (hdepth : depth ≤ 24) {n : Int} :
    FitsAt lib depth (.int n) ↔ -Json.maxSafeJsonInteger ≤ n ∧ n ≤ Json.maxSafeJsonInteger := by
  have hitem : Json.validateItem Json.federationJsonLimits ⟨false, lib.isFinite⟩
      "federation peer response" (.int n) = .ok () ↔
        -Json.maxSafeJsonInteger ≤ n ∧ n ≤ Json.maxSafeJsonInteger := by
    rw [Json.validateItem]
    split_ifs with h <;> simp [h]
  rw [← hitem]
  constructor
  · exact fun h => (Json.fits_iff.mp h).2.1
  · exact fun h => Json.fits_iff.mpr ⟨hdepth, h, fun _ hc => absurd hc List.not_mem_nil⟩

theorem fitsAt_str (hdepth : depth ≤ 24) {s : String} (h : TextOk s) : FitsAt lib depth (.str s) :=
  Json.fits_iff.mpr ⟨hdepth, validateString_ok_iff.mpr h, fun _ hc => absurd hc List.not_mem_nil⟩

theorem fitsAt_arr (hdepth : depth ≤ 24) {items : List (Json F)} (hlength : items.length ≤ 4096)
    (h : ∀ v ∈ items, FitsAt lib (depth + 1) v) : FitsAt lib depth (.arr items) := by
  refine Json.fits_iff.mpr ⟨hdepth, ?_, h⟩
  rw [Json.validateItem]
  exact if_neg (Nat.not_lt.mpr hlength)

theorem fitsAt_obj (hdepth : depth ≤ 24) {members : List (String × Json F)}
    (hlength : members.length ≤ 1024) (hkeys : ∀ key ∈ members.map Prod.fst, KeyOk key)
    (h : ∀ m ∈ members, FitsAt lib (depth + 1) m.2) : FitsAt lib depth (.obj members) := by
  refine Json.fits_iff.mpr ⟨hdepth, ?_, ?_⟩
  · refine Json.validateItem_obj_ok_iff.mpr ⟨hlength, fun key hkey => ?_⟩
    exact validateString_ok_iff.mpr (hkeys key hkey)
  · intro c hc
    obtain ⟨m, hm, rfl⟩ := List.mem_map.mp hc
    exact h m hm

theorem FitsAt.item {items : List (Json F)} (h : FitsAt lib depth (.arr items)) {v : Json F}
    (hv : v ∈ items) : FitsAt lib (depth + 1) v :=
  (Json.fits_iff.mp h).2.2 v hv

theorem FitsAt.member {members : List (String × Json F)} (h : FitsAt lib depth (.obj members))
    {m : String × Json F} (hm : m ∈ members) : FitsAt lib (depth + 1) m.2 :=
  (Json.fits_iff.mp h).2.2 m.2 (List.mem_map_of_mem hm)

end

/-! ## Values of custom fields -/

/-- An object with three members, all of them strings. -/
def FileShape (v : Json F) : Prop :=
  ∃ members, v = .obj members ∧ members.length = 3 ∧
    ∀ m ∈ members, KeyOk m.1 ∧ ∃ s, m.2 = .str s

/-- What the value of a custom field can be. -/
inductive ValueShape (lib : Library F) : Json F → Prop where
  | null : ValueShape lib .null
  | bool (b : Bool) : ValueShape lib (.bool b)
  | int {n : Int} (h : n.natAbs ≤ 1000000000000000) : ValueShape lib (.int n)
  | float {x : F} (h : lib.fields.small x = true) : ValueShape lib (.float x)
  | str (s : String) : ValueShape lib (.str s)
  | strings {items : List (Json F)} (hlength : items.length ≤ 100)
      (h : ∀ v ∈ items, ∃ s, v = .str s) : ValueShape lib (.arr items)
  | files {items : List (Json F)} (hlength : items.length ≤ 10)
      (h : ∀ v ∈ items, FileShape v) : ValueShape lib (.arr items)

section

variable {lib : Library F}

theorem eq_str_of_str?_any {v : Json F} {p : String → Bool} (h : v.str?.any p = true) :
    ∃ s, v = .str s ∧ p s = true := by
  cases v with
  | str s => exact ⟨s, rfl, h⟩
  | null | bool | int | float | arr | obj => cases h

theorem perm_of_keysAre {members : List (String × Json F)} {keys : List String}
    (hnodup : keys.Nodup) (h : keysAre members keys = true) :
    (members.map Prod.fst).Perm keys := by
  rw [keysAre, decide_eq_true_eq] at h
  obtain ⟨hlength, hmem⟩ := h
  refine ((List.subperm_of_subset hnodup hmem).perm_of_length_le ?_).symm
  rw [List.length_map, hlength]

theorem safeUrl_str {v : Json F} (h : safeUrl lib.fields v = true) : ∃ s, v = .str s := by
  cases v with
  | str s => exact ⟨s, rfl⟩
  | null | bool | int | float | arr | obj => cases h

theorem fileShape_of_valid {v : Json F} (hdistinct : v.Distinct)
    (h : validAttachment lib.fields v = true) : FileShape v := by
  cases v with
  | null | bool | int | float | arr | str => cases h
  | obj members =>
    simp only [validAttachment, Bool.and_eq_true, Bool.or_eq_true] at h
    obtain ⟨⟨⟨hkeys, hname⟩, htype⟩, hsource⟩ := h
    have hget {m : String × Json F} (hm : m ∈ members) :
        (Json.obj members).get? m.1 = some m.2 := Json.lookup_of_mem hdistinct.1 hm
    have hlength : members.length = 3 := by
      rcases hkeys with hkeys | hkeys
      · exact (decide_eq_true_eq.mp hkeys).1
      · exact (decide_eq_true_eq.mp hkeys).1
    refine ⟨members, rfl, hlength, fun m hm => ?_⟩
    have hvalue (key : String) (hkey : m.1 = key) : (Json.obj members).get key = m.2 := by
      rw [Json.get, ← hkey, hget hm, Option.getD_some]
    have hname' (hkey : m.1 = "name") : ∃ s, m.2 = .str s := by
      rw [hvalue "name" hkey] at hname
      split at hname
      · rename_i s heq
        exact ⟨s, heq⟩
      · cases hname
    have htype' (hkey : m.1 = "type") : ∃ s, m.2 = .str s := by
      rw [hvalue "type" hkey] at htype
      split at htype
      · rename_i s heq
        exact ⟨s, heq⟩
      · cases htype
    have hmem : m.1 ∈ members.map Prod.fst := List.mem_map_of_mem hm
    rcases hkeys with hkeys | hkeys
    · have hperm := perm_of_keysAre (by decide) hkeys
      rw [hperm.mem_iff] at hmem
      simp only [List.mem_cons, List.not_mem_nil, or_false] at hmem
      rcases hmem with hkey | hkey | hkey
      · exact ⟨hkey ▸ by decide, hname' hkey⟩
      · have hurl : (Json.obj members).get? "url" = some m.2 := hkey ▸ hget hm
        rw [hurl] at hsource
        exact ⟨hkey ▸ by decide, safeUrl_str hsource⟩
      · exact ⟨hkey ▸ by decide, htype' hkey⟩
    · have hperm := perm_of_keysAre (by decide) hkeys
      rw [hperm.mem_iff] at hmem
      simp only [List.mem_cons, List.not_mem_nil, or_false] at hmem
      rcases hmem with hkey | hkey | hkey
      · have hurl : (Json.obj members).get? "url" = none := by
          refine List.lookup_eq_none_iff.mpr fun m' hm' => ?_
          have hmem' : m'.1 ∈ members.map Prod.fst := List.mem_map_of_mem hm'
          rw [hperm.mem_iff] at hmem'
          rw [bne_iff_ne]
          intro hne
          rw [← hne] at hmem'
          exact absurd hmem' (by decide)
        rw [hurl] at hsource
        obtain ⟨s, hs, -⟩ := eq_str_of_str?_any hsource
        exact ⟨hkey ▸ by decide, s, (hvalue "id" hkey).symm.trans hs⟩
      · exact ⟨hkey ▸ by decide, hname' hkey⟩
      · exact ⟨hkey ▸ by decide, htype' hkey⟩

/-- The items of a list of strings. -/
theorem eq_map_str {items : List (Json F)} {strings : List String}
    (h : items.mapM Json.str? = some strings) : items = strings.map Json.str := by
  induction items generalizing strings with
  | nil =>
    obtain rfl : [] = strings := Option.some.inj h
    rfl
  | cons v vs ih =>
    rw [List.mapM_cons, Option.bind_eq_bind, Option.bind_eq_some_iff] at h
    obtain ⟨s, hs, h⟩ := h
    rw [Option.bind_eq_bind, Option.bind_eq_some_iff] at h
    obtain ⟨rest, hrest, h⟩ := h
    obtain rfl : s :: rest = strings := Option.some.inj h
    cases v with
    | str s' =>
      obtain rfl : s' = s := Option.some.inj hs
      rw [ih hrest, List.map_cons]
    | null | bool | int | float | arr | obj => cases hs

theorem strings_of_valid {field : TrackerField} {v : Json F} (h : validStrings field v = true) :
    ValueShape lib v := by
  unfold validStrings at h
  split at h
  · rename_i strings hstrings
    cases v with
    | null | bool | int | float | str | obj => cases hstrings
    | arr items =>
      obtain rfl := eq_map_str hstrings
      simp only [Bool.and_eq_true, decide_eq_true_eq] at h
      refine .strings (List.length_map Json.str ▸ h.1.1) fun v hv => ?_
      obtain ⟨s, -, rfl⟩ := List.mem_map.mp hv
      exact ⟨s, rfl⟩
  · cases h

theorem valueShape_of_valid {field : TrackerField} {v : Json F} (hdistinct : v.Distinct)
    (h : validValue lib.fields field v = true) : ValueShape lib v := by
  have hstr {p : String → Bool} (h : v.str?.any p = true) : ValueShape lib v := by
    obtain ⟨s, rfl, -⟩ := eq_str_of_str?_any h
    exact .str s
  unfold validValue at h
  cases hkind : field.type with
  | text | textarea | date | select =>
    rw [hkind] at h
    exact hstr h
  | number =>
    rw [hkind] at h
    cases v with
    | int n => exact .int (of_decide_eq_true h)
    | float x => exact .float h
    | null | bool | str | arr | obj => cases h
  | checkbox =>
    rw [hkind] at h
    cases v with
    | bool b => exact .bool b
    | null | int | float | str | arr | obj => cases h
  | url =>
    rw [hkind] at h
    obtain ⟨s, rfl⟩ := safeUrl_str h
    exact .str s
  | multiselect | users | channels =>
    rw [hkind] at h
    exact strings_of_valid h
  | attachments =>
    rw [hkind] at h
    cases v with
    | arr items =>
      rw [Json.Distinct, Json.distinctItems_iff] at hdistinct
      simp only [Bool.and_eq_true, decide_eq_true_eq, List.all_eq_true] at h
      exact .files h.1 fun v hv => fileShape_of_valid (hdistinct v hv) (h.2 v hv)
    | null | bool | int | float | str | obj => cases h

theorem valueShape_of_blank {v : Json F} (h : isBlank v = true) : ValueShape lib v := by
  cases v with
  | null => exact .null
  | str s => exact .str s
  | arr items =>
    obtain rfl : items = [] := List.isEmpty_iff.mp h
    exact .strings (Nat.zero_le _) fun v hv => absurd hv List.not_mem_nil
  | bool | int | float | obj => cases h

/-! ## The sizes of values -/

theorem utf8ByteSize_le_asciiLength (s : String) : s.utf8ByteSize ≤ asciiLength s := by
  rw [utf8ByteSize_eq, asciiLength]
  induction s.toList with
  | nil => exact Nat.zero_le _
  | cons c text ih =>
    rw [Utf8.encode_cons, List.length_append, String.length_utf8EncodeChar, List.map_cons,
      List.sum_cons]
    have hc : c.utf8Size ≤ if c ∈ ['"', '\\', '\n', '\r', '\t', '\x0c', '\x08'] then 2
        else if ' ' ≤ c ∧ c ≤ '~' then 1 else if c.toNat < 0x10000 then 6 else 12 := by
      have hfour := c.utf8Size_le_four
      split_ifs with h₁ h₂ h₃
      · simp only [List.mem_cons, List.not_mem_nil, or_false] at h₁
        rcases h₁ with rfl | rfl | rfl | rfl | rfl | rfl | rfl <;> decide
      · have hle : c.val ≤ 127 := UInt32.le_iff_toNat_le.mpr (Nat.le_trans h₂.2 (by decide))
        exact (Char.utf8Size_eq_one_iff.mpr hle).le
      · omega
      · omega
    omega

theorem dumpsLength_le_items (lib : Library F) {items : List (Json F)} {v : Json F}
    (hv : v ∈ items) :
    dumpsLength lib.fields v ≤ itemsLength lib.fields items := by
  induction items with
  | nil => cases hv
  | cons w ws ih =>
    rw [itemsLength]
    rcases List.mem_cons.mp hv with rfl | hv
    · omega
    · have := ih hv
      omega

theorem dumpsLength_le_members (lib : Library F) {members : List (String × Json F)}
    {m : String × Json F} (hm : m ∈ members) :
    dumpsLength lib.fields m.2 ≤ membersLength lib.fields members := by
  induction members with
  | nil => cases hm
  | cons w ws ih =>
    rw [membersLength]
    rcases List.mem_cons.mp hm with rfl | hm
    · omega
    · have := ih hm
      omega

theorem nulFreeItems_iff {items : List (Json F)} :
    nulFreeItems items = true ↔ ∀ v ∈ items, nulFree v = true := by
  induction items with
  | nil => simp [nulFreeItems]
  | cons v vs ih => rw [nulFreeItems, Bool.and_eq_true, ih, List.forall_mem_cons]

theorem nulFreeMembers_iff {members : List (String × Json F)} :
    nulFreeMembers members = true ↔
      ∀ m ∈ members, '\x00' ∉ m.1.toList ∧ nulFree m.2 = true := by
  induction members with
  | nil => simp [nulFreeMembers]
  | cons m ms ih =>
    rw [nulFreeMembers, Bool.and_eq_true, Bool.and_eq_true, decide_eq_true_eq, ih,
      List.forall_mem_cons]

theorem fitsAt_text {depth : Nat} (hdepth : depth ≤ 24) {s : String}
    (hlength : dumpsLength lib.fields (.str s : Json F) ≤ 32000)
    (hnul : nulFree (.str s : Json F) = true) : FitsAt lib depth (.str s : Json F) := by
  refine fitsAt_str hdepth ⟨of_decide_eq_true hnul, ?_⟩
  rw [dumpsLength] at hlength
  exact (utf8ByteSize_le_asciiLength s).trans (hlength.trans (by decide))

theorem FileShape.fits {v : Json F} (h : FileShape v) {depth : Nat} (hdepth : depth ≤ 23)
    (hlength : dumpsLength lib.fields v ≤ 32000) (hnul : nulFree v = true) :
    FitsAt lib depth v := by
  obtain ⟨members, rfl, hcount, hmembers⟩ := h
  rw [dumpsLength] at hlength
  rw [nulFree, nulFreeMembers_iff] at hnul
  refine fitsAt_obj (by omega) (by omega) ?_ fun m hm => ?_
  · intro key hkey
    obtain ⟨m, hm, rfl⟩ := List.mem_map.mp hkey
    exact (hmembers m hm).1
  · have hm' := dumpsLength_le_members lib hm
    have hnul' := (hnul m hm).2
    obtain ⟨-, s, hs⟩ := hmembers m hm
    rw [hs] at hm' hnul' ⊢
    exact fitsAt_text (by omega) (by omega) hnul'

/-- A value of a custom field passes the reader, floats excepted. -/
theorem ValueShape.fits {v : Json F} (h : ValueShape lib v) {depth : Nat} (hdepth : depth ≤ 20)
    (hlength : dumpsLength lib.fields v ≤ 32000) (hnul : nulFree v = true) (hfree : v.FloatFree) :
    FitsAt lib depth v := by
  cases h with
  | null => exact fitsAt_null (by omega)
  | bool b => exact fitsAt_bool (by omega) b
  | int h =>
    refine (fitsAt_int_iff (by omega)).mpr ?_
    rw [Json.maxSafeJsonInteger]
    omega
  | float h => exact hfree.elim
  | str s => exact fitsAt_text (by omega) hlength hnul
  | strings hcount h =>
    rw [dumpsLength] at hlength
    rw [nulFree, nulFreeItems_iff] at hnul
    refine fitsAt_arr (by omega) (by omega) fun v hv => ?_
    have hv' := dumpsLength_le_items lib hv
    have hnul' := hnul v hv
    obtain ⟨s, rfl⟩ := h v hv
    exact fitsAt_text (by omega) (by omega) hnul'
  | files hcount h =>
    rw [dumpsLength] at hlength
    rw [nulFree, nulFreeItems_iff] at hnul
    refine fitsAt_arr (by omega) (by omega) fun v hv => ?_
    have hv' := dumpsLength_le_items lib hv
    exact (h v hv).fits (by omega) (by omega) (hnul v hv)

theorem ValueShape.everyFloat {v : Json F} (h : ValueShape lib v) :
    v.EveryFloat fun x => lib.fields.small x = true := by
  cases h with
  | null | bool | int | str => trivial
  | float h => exact h
  | strings hcount h =>
    rw [Json.EveryFloat, Json.everyFloatItems_iff]
    intro v hv
    obtain ⟨s, rfl⟩ := h v hv
    trivial
  | files hcount h =>
    rw [Json.EveryFloat, Json.everyFloatItems_iff]
    intro v hv
    obtain ⟨members, rfl, -, hmembers⟩ := h v hv
    rw [Json.EveryFloat, Json.everyFloatMembers_iff]
    intro m hm
    obtain ⟨-, s, hs⟩ := hmembers m hm
    rw [hs]
    trivial

theorem mapM_eq_ok {ε α β : Type} {f : α → Except ε β} {l : List α} {bs : List β} :
    l.mapM f = .ok bs ↔ List.Forall₂ (fun a b => f a = .ok b) l bs := by
  induction l generalizing bs with
  | nil =>
    rw [List.mapM_nil, List.forall₂_nil_left_iff]
    exact ⟨fun h => (Except.ok.inj h).symm, fun h => h ▸ rfl⟩
  | cons a l ih =>
    rw [List.mapM_cons, bind_eq_ok, List.forall₂_cons_left_iff]
    constructor
    · rintro ⟨b, hb, h⟩
      obtain ⟨rest, hrest, h⟩ := bind_eq_ok.mp h
      exact ⟨b, rest, hb, ih.mp hrest, (Except.ok.inj h).symm⟩
    · rintro ⟨b, rest, hb, hrest, rfl⟩
      exact ⟨b, hb, bind_eq_ok.mpr ⟨rest, ih.mpr hrest, rfl⟩⟩

theorem forall₂_exists_right {α β : Type} {R : α → β → Prop} {as : List α} {bs : List β}
    (h : List.Forall₂ R as bs) {a : α} (ha : a ∈ as) : ∃ b ∈ bs, R a b := by
  induction h with
  | nil => cases ha
  | cons hab _ ih =>
    rcases List.mem_cons.mp ha with rfl | ha
    · exact ⟨_, List.mem_cons_self, hab⟩
    · obtain ⟨b, hb, hR⟩ := ih ha
      exact ⟨b, List.mem_cons_of_mem _ hb, hR⟩

theorem dumpsLength_le_of_blank {v : Json F} (h : isBlank v = true) :
    dumpsLength lib.fields v ≤ 32000 := by
  cases v with
  | null =>
    rw [dumpsLength]
    omega
  | str s =>
    obtain rfl : s = "" := of_decide_eq_true h
    rw [dumpsLength]
    decide
  | arr items =>
    obtain rfl : items = [] := List.isEmpty_iff.mp h
    rw [dumpsLength, itemsLength, List.length_nil]
    omega
  | bool | int | float | obj => cases h

/-- The loop body lets a blank value pass, and keeps a valid one. -/
theorem validateEntry_eq_ok {fields : List TrackerField} {entry : String × Json F}
    {kept : Option (String × Json F)} (h : validateEntry lib.fields fields entry = .ok kept) :
    ∃ field, lookupBy TrackerField.id entry.1 fields = some field ∧
      ((isBlank entry.2 = true ∧ kept = none) ∨
        (validValue lib.fields field entry.2 = true ∧ kept = some entry)) := by
  rw [validateEntry, found_bind_eq_ok] at h
  obtain ⟨field, hfield, h⟩ := h
  refine ⟨field, hfield, ?_⟩
  split at h
  · rename_i hblank
    exact .inl ⟨hblank, (Except.ok.inj h).symm⟩
  · rw [check_bind_eq_ok, ensure_eq_ok] at h
    exact .inr ⟨h.1, (Except.ok.inj h.2).symm⟩

theorem values_spec {fields : List TrackerField} {values : Json F}
    {kept : List (String × Json F)} (hdistinct : values.Distinct)
    (h : validateValues lib.fields fields values = .ok kept) :
    ∃ members, values = .obj members ∧ members.length ≤ 50 ∧ ∀ m ∈ members,
      m.1 ∈ fields.map TrackerField.id ∧ ValueShape lib m.2 ∧
        dumpsLength lib.fields m.2 ≤ 32000 := by
  cases values with
  | null | bool | int | float | str | arr => cases h
  | obj members =>
    unfold validateValues at h
    dsimp only at h
    rw [ok_bind, check_bind_eq_ok, ensure_eq_ok, bind_eq_ok] at h
    obtain ⟨hcount, entries, hentries, h⟩ := h
    rw [check_bind_eq_ok, ensure_eq_ok, dumpsLength] at h
    rw [mapM_eq_ok] at hentries
    rw [Json.Distinct, Json.distinctMembers_iff] at hdistinct
    refine ⟨members, rfl, hcount, fun m hm => ?_⟩
    obtain ⟨entry, hentry, hm'⟩ := forall₂_exists_right hentries hm
    obtain ⟨field, hfield, hcase⟩ := validateEntry_eq_ok hm'
    refine ⟨List.mem_map.mpr ⟨field, mem_of_lookupBy hfield, key_of_lookupBy hfield⟩, ?_⟩
    rcases hcase with ⟨hblank, -⟩ | ⟨hvalid, rfl⟩
    · exact ⟨valueShape_of_blank hblank, dumpsLength_le_of_blank hblank⟩
    · refine ⟨valueShape_of_valid (hdistinct.2 m hm) hvalid, ?_⟩
      have hkept : m ∈ entries.filterMap id := List.mem_filterMap.mpr ⟨some m, hentry, rfl⟩
      have hle := dumpsLength_le_members lib hkept
      omega

/-! ## Fields -/

theorem textOk_fieldKind (kind : FieldKind) : TextOk (fieldKindText kind) := by
  cases kind <;> decide

/-- A field that is stored as it was checked. -/
structure FieldOk (field : TrackerField) : Prop where
  id_length : field.id.length ≤ 64
  id_nul : '\x00' ∉ field.id.toList
  name_length : field.name.length ≤ 100
  name_nul : '\x00' ∉ field.name.toList
  options_length : field.options.length ≤ 100
  options_text : ∀ option ∈ field.options, option.length ≤ 100 ∧ '\x00' ∉ option.toList

theorem mapM_str (strings : List String) :
    (strings.map (Json.str : String → Json F)).mapM Json.str? = some strings := by
  induction strings with
  | nil => rfl
  | cons s rest ih =>
    rw [List.map_cons, List.mapM_cons, ih]
    rfl

theorem fieldOk_of_trackerField {field : TrackerField}
    (h : trackerField (dumpField field : Json F) = .ok field) : FieldOk field := by
  rw [trackerField, check_bind_eq_ok, ensure_eq_ok] at h
  obtain ⟨⟨-, hnul⟩, h⟩ := h
  rw [found_bind_eq_ok] at h
  obtain ⟨id, hid, h⟩ := h
  obtain rfl : field.id = id := Option.some.inj hid
  rw [check_bind_eq_ok, ensure_eq_ok, check_bind_eq_ok, found_bind_eq_ok] at h
  obtain ⟨hidLength, -, name, hname, h⟩ := h
  obtain rfl : field.name = name := Option.some.inj hname
  rw [check_bind_eq_ok, ensure_eq_ok, bind_eq_ok] at h
  obtain ⟨hnameLength, name, hname, h⟩ := h
  rw [found_bind_eq_ok] at h
  obtain ⟨kind, hkind, h⟩ := h
  rw [bind_eq_ok] at h
  obtain ⟨options, hoptions, h⟩ := h
  have hstrings : found (strings? (Json.arr (field.options.map Json.str) : Json F))
      "options must be a list of strings" = .ok options := hoptions
  rw [strings?, mapM_str] at hstrings
  obtain rfl : field.options = options := Except.ok.inj hstrings
  rw [check_bind_eq_ok, ensure_eq_ok, bind_eq_ok] at h
  obtain ⟨hoptionsLength, cleaned, -, h⟩ := h
  rw [check_bind_eq_ok, ensure_eq_ok, check_bind_eq_ok] at h
  obtain ⟨hcleaned, -, h⟩ := h
  have hfield : (⟨field.id, name, kind, cleaned⟩ : TrackerField) = field := by
    split at h
    · rw [check_bind_eq_ok] at h
      exact Except.ok.inj h.2
    · rw [check_bind_eq_ok] at h
      exact Except.ok.inj h.2
  have hfieldOptions : cleaned = field.options := congrArg TrackerField.options hfield
  simp only [dumpField, nulFree, nulFreeMembers, nulFreeItems_iff, List.forall_mem_map,
    Bool.and_eq_true, decide_eq_true_eq] at hnul
  obtain ⟨⟨-, hidNul⟩, ⟨-, hnameNul⟩, -, ⟨-, hoptionsNul⟩, -⟩ := hnul
  exact ⟨hidLength.2.1, hidNul, hnameLength.2, hnameNul, hoptionsLength,
    fun option hoption => ⟨hcleaned option (hfieldOptions ▸ hoption), hoptionsNul option hoption⟩⟩

theorem FieldOk.keyOk {field : TrackerField} (h : FieldOk field) : KeyOk field.id := by
  refine ⟨h.id_nul, ?_⟩
  have hle := length_encode_le field.id.toList
  have hlength := h.id_length
  rw [utf8ByteSize_eq]
  rw [String.length_toList] at hle
  omega

theorem FieldOk.fits {field : TrackerField} (h : FieldOk field) {depth : Nat}
    (hdepth : depth ≤ 20) : FitsAt lib depth (dumpField field) := by
  refine fitsAt_obj (by omega) (Nat.le_of_ble_eq_true rfl) ?_ ?_
  · simp only [List.map_cons, List.map_nil]
    decide
  simp only [List.forall_mem_cons]
  refine ⟨fitsAt_str (by omega) (textOk_of_length h.id_nul h.id_length (by decide)),
    fitsAt_str (by omega) (textOk_of_length h.name_nul h.name_length (by decide)),
    fitsAt_str (by omega) (textOk_fieldKind _), ?_, fun _ hm => absurd hm List.not_mem_nil⟩
  refine fitsAt_arr (by omega) ?_ fun v hv => ?_
  · rw [List.length_map]
    exact h.options_length.trans (by decide)
  · obtain ⟨option, hoption, rfl⟩ := List.mem_map.mp hv
    obtain ⟨hlength, hnul⟩ := h.options_text option hoption
    exact fitsAt_str (by omega) (textOk_of_length hnul hlength (by decide))

/-- The tree of the fields of a board has no floats and no key twice. -/
theorem dumpField_plain (field : TrackerField) :
    (dumpField field : Json F).Distinct ∧ (dumpField field : Json F).FloatFree := by
  constructor
  · rw [dumpField, Json.Distinct, Json.distinctMembers_iff]
    simp only [List.map_cons, List.map_nil, List.forall_mem_cons]
    refine ⟨by decide, trivial, trivial, trivial, ?_, fun _ hm => absurd hm List.not_mem_nil⟩
    rw [Json.Distinct, Json.distinctItems_iff, List.forall_mem_map]
    exact fun _ _ => trivial
  · rw [dumpField, Json.FloatFree, Json.floatFreeMembers_iff]
    simp only [List.forall_mem_cons]
    refine ⟨trivial, trivial, trivial, ?_, fun _ hm => absurd hm List.not_mem_nil⟩
    rw [Json.FloatFree, Json.floatFreeItems_iff, List.forall_mem_map]
    exact fun _ _ => trivial

end

end TrackerSync

end Kaede
