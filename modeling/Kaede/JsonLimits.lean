import Kaede.JsonText

/-!
# JSON within limits

`core/json_limits.py` refuses JSON that is too large or that two readers
could take in two ways. `validate_json_tree` walks a tree with an explicit
stack and a budget of values; `strict_json_loads` reads a text and then
walks what it read.

`validateJsonTree_ok_iff` says what the walk accepts. The answer does not
look at the order of members, so a tree is accepted when its sorted form
is.

The walk also refuses a container that it meets twice, which a tree that
was read from a text never has; a model of trees by their values has no
such containers.
-/

namespace Kaede

namespace Json

variable {F : Type}

/-! ## The walk -/

structure JsonTreeLimits where
  maxDepth : Nat
  maxNodes : Nat
  maxObjectMembers : Nat
  maxArrayMembers : Nat
  maxKeyBytes : Nat
  maxStringBytes : Nat

def federationJsonLimits : JsonTreeLimits where
  maxDepth := 24
  maxNodes := 16384
  maxObjectMembers := 1024
  maxArrayMembers := 4096
  maxKeyBytes := 256
  maxStringBytes := 1024 * 1024

def maxSafeJsonInteger : Int := 2 ^ 53 - 1

/-- What the walk asks of floats: whether they are let through, and which
are finite. -/
structure FloatRule (F : Type) where
  allowFloats : Bool
  isFinite : F → Bool

/-- A string of Lean is valid Unicode, so the check for that passes. -/
def validateString (value : String) (maxBytes : Nat) (label : String) : Except String Unit :=
  if '\x00' ∈ value.toList then .error (label ++ " must not contain NUL characters")
  else if maxBytes < value.utf8ByteSize then .error (label ++ " is too large")
  else .ok ()

section

variable (limits : JsonTreeLimits) (rule : FloatRule F) (label : String)

/-- The checks on one value, apart from its depth. -/
def validateItem : Json F → Except String Unit
  | .obj members =>
      if limits.maxObjectMembers < members.length then
        .error (label ++ " object contains too many members")
      else
        members.forM fun m => validateString m.1 limits.maxKeyBytes (label ++ " object key")
  | .arr items =>
      if limits.maxArrayMembers < items.length then
        .error (label ++ " array contains too many items")
      else .ok ()
  | .str s => validateString s limits.maxStringBytes (label ++ " string")
  | .null | .bool _ => .ok ()
  | .int n =>
      if -maxSafeJsonInteger ≤ n ∧ n ≤ maxSafeJsonInteger then .ok ()
      else .error (label ++ " integer is outside the supported range")
  | .float x =>
      if rule.allowFloats ∧ rule.isFinite x then .ok ()
      else .error (label ++ " floating-point numbers are not supported")

def children : Json F → List (Json F)
  | .arr items => items
  | .obj members => members.map Prod.snd
  | _ => []

/-- The loop over the stack, whose top is the head of the list. `budget`
is the number of values that may still be visited. -/
def validateLoop : Nat → List (Json F × Nat) → Except String Unit
  | _, [] => .ok ()
  | 0, _ :: _ => .error (label ++ " contains too many values")
  | budget + 1, (item, depth) :: stack =>
      if limits.maxDepth < depth then .error (label ++ " exceeds the nesting depth limit")
      else do
        validateItem limits rule label item
        validateLoop budget ((item.children.map fun child => (child, depth + 1)).reverse ++ stack)

def validateJsonTree (value : Json F) : Except String Unit :=
  validateLoop limits rule label limits.maxNodes [(value, 0)]

end

/-! ## What the walk accepts -/

mutual

/-- The values of a tree. -/
def nodes : Json F → Nat
  | .arr items => nodesItems items + 1
  | .obj members => nodesMembers members + 1
  | _ => 1

def nodesItems : List (Json F) → Nat
  | [] => 0
  | v :: vs => v.nodes + nodesItems vs

def nodesMembers : List (String × Json F) → Nat
  | [] => 0
  | (_, v) :: ms => v.nodes + nodesMembers ms

end

section

variable (limits : JsonTreeLimits) (rule : FloatRule F) (label : String)

mutual

/-- Every value of a tree passes its checks, the root at a given depth. -/
def Fits (depth : Nat) : Json F → Prop
  | .arr items => depth ≤ limits.maxDepth ∧
      validateItem limits rule label (.arr items) = .ok () ∧ FitsItems (depth + 1) items
  | .obj members => depth ≤ limits.maxDepth ∧
      validateItem limits rule label (.obj members) = .ok () ∧ FitsMembers (depth + 1) members
  | v => depth ≤ limits.maxDepth ∧ validateItem limits rule label v = .ok ()

def FitsItems (depth : Nat) : List (Json F) → Prop
  | [] => True
  | v :: vs => Fits depth v ∧ FitsItems depth vs

def FitsMembers (depth : Nat) : List (String × Json F) → Prop
  | [] => True
  | (_, v) :: ms => Fits depth v ∧ FitsMembers depth ms

end

end

section

variable {limits : JsonTreeLimits} {rule : FloatRule F} {label : String}

/-- Induction over a tree by its children. -/
theorem children_induction {motive : Json F → Prop}
    (step : ∀ v, (∀ c ∈ v.children, motive c) → motive v) (v : Json F) : motive v := by
  induction v using tree_induction with
  | null | bool | int | float | str => exact step _ fun c hc => absurd hc List.not_mem_nil
  | arr items ih => exact step _ ih
  | obj members ih =>
    refine step _ fun c hc => ?_
    obtain ⟨m, hm, rfl⟩ := List.mem_map.mp hc
    exact ih m hm

theorem nodes_eq (v : Json F) : v.nodes = (v.children.map nodes).sum + 1 := by
  have hitems : ∀ items : List (Json F), nodesItems items = (items.map nodes).sum := by
    intro items
    induction items with
    | nil => rfl
    | cons v vs ih => rw [nodesItems, ih, List.map_cons, List.sum_cons]
  have hmembers : ∀ ms : List (String × Json F),
      nodesMembers ms = ((ms.map Prod.snd).map nodes).sum := by
    intro ms
    induction ms with
    | nil => rfl
    | cons m ms ih => rw [nodesMembers, ih, List.map_cons, List.map_cons, List.sum_cons]
  cases v with
  | null | bool | int | float | str => rfl
  | arr items => rw [nodes, hitems, children]
  | obj members => rw [nodes, hmembers, children]

theorem fits_iff {depth : Nat} {v : Json F} :
    Fits limits rule label depth v ↔ depth ≤ limits.maxDepth ∧
      validateItem limits rule label v = .ok () ∧
      ∀ c ∈ v.children, Fits limits rule label (depth + 1) c := by
  have hitems : ∀ (d : Nat) (items : List (Json F)),
      FitsItems limits rule label d items ↔ ∀ v ∈ items, Fits limits rule label d v := by
    intro d items
    induction items with
    | nil => simp [FitsItems]
    | cons v vs ih => rw [FitsItems, ih, List.forall_mem_cons]
  have hmembers : ∀ (d : Nat) (ms : List (String × Json F)),
      FitsMembers limits rule label d ms ↔ ∀ v ∈ ms.map Prod.snd, Fits limits rule label d v := by
    intro d ms
    induction ms with
    | nil => simp [FitsMembers]
    | cons m ms ih => rw [FitsMembers, ih, List.map_cons, List.forall_mem_cons]
  cases v with
  | null | bool | int | float | str => simp [Fits, children]
  | arr items => rw [Fits, hitems, children]
  | obj members => rw [Fits, hmembers, children]

theorem nodes_pos (v : Json F) : 0 < v.nodes := by
  rw [nodes_eq]
  exact Nat.succ_pos _

/-- The loop accepts a stack when there is budget for every value under it
and each of them fits. -/
theorem validateLoop_ok_iff (budget : Nat) (stack : List (Json F × Nat)) :
    validateLoop limits rule label budget stack = .ok () ↔
      (stack.map fun p => p.1.nodes).sum ≤ budget ∧
        ∀ p ∈ stack, Fits limits rule label p.2 p.1 := by
  induction budget generalizing stack with
  | zero =>
    cases stack with
    | nil => simp [validateLoop]
    | cons p stack =>
      have hpos := nodes_pos p.1
      simp only [validateLoop, List.map_cons, List.sum_cons, reduceCtorEq, false_iff, not_and]
      omega
  | succ budget ih =>
    cases stack with
    | nil => simp [validateLoop]
    | cons p stack =>
      obtain ⟨item, depth⟩ := p
      rw [validateLoop, List.forall_mem_cons, fits_iff]
      by_cases hdepth : limits.maxDepth < depth
      · rw [if_pos hdepth]
        simp [Nat.not_le.mpr hdepth]
      rw [if_neg hdepth]
      cases hitem : validateItem limits rule label item with
      | error e => simp [bind, Except.bind]
      | ok u =>
        change validateLoop limits rule label budget _ = _ ↔ _
        rw [ih]
        have hsum : (((item.children.map fun child => (child, depth + 1)).reverse ++ stack).map
            fun p => p.1.nodes).sum + 1 = item.nodes + (stack.map fun p => p.1.nodes).sum := by
          rw [nodes_eq item, List.map_append, List.sum_append, List.map_reverse, List.sum_reverse,
            List.map_map]
          exact Nat.add_right_comm _ _ _
        simp only [List.map_cons, List.sum_cons, ← hsum, Nat.add_le_add_iff_right,
          List.forall_mem_append, List.mem_reverse, List.forall_mem_map, Nat.not_lt.mp hdepth,
          true_and]

theorem validateJsonTree_ok_iff {v : Json F} :
    validateJsonTree limits rule label v = .ok () ↔
      v.nodes ≤ limits.maxNodes ∧ Fits limits rule label 0 v := by
  rw [validateJsonTree, validateLoop_ok_iff]
  simp

/-! ## Sorting and floats -/

theorem children_sorted (v : Json F) : v.sorted.children.Perm (v.children.map sorted) := by
  cases v with
  | null | bool | int | float | str => exact List.Perm.refl _
  | arr items => rw [sorted, children, sortedItems_eq, children]
  | obj members =>
    have hperm := (sorted_members_perm members).map Prod.snd
    rw [List.map_map] at hperm
    rw [sorted, children, children, List.map_map]
    exact hperm

theorem nodes_sorted (v : Json F) : v.sorted.nodes = v.nodes := by
  induction v using children_induction with
  | step v ih =>
    rw [nodes_eq v.sorted, nodes_eq v, ((children_sorted v).map nodes).sum_nat, List.map_map]
    exact congrArg (·.sum + 1) (List.map_congr_left ih)

theorem forM_ok_iff {α : Type} {f : α → Except String Unit} {l : List α} :
    l.forM f = .ok () ↔ ∀ x ∈ l, f x = .ok () := by
  induction l with
  | nil => simp [pure, Except.pure]
  | cons x l ih =>
    rw [List.forall_mem_cons, ← ih]
    change (do f x; l.forM f) = _ ↔ _
    cases hx : f x with
    | error e => simp [bind, Except.bind]
    | ok u => simp [bind, Except.bind]

theorem validateItem_obj_ok_iff {members : List (String × Json F)} :
    validateItem limits rule label (.obj members) = .ok () ↔
      members.length ≤ limits.maxObjectMembers ∧ ∀ key ∈ members.map Prod.fst,
        validateString key limits.maxKeyBytes (label ++ " object key") = .ok () := by
  rw [validateItem]
  by_cases hlen : limits.maxObjectMembers < members.length
  · rw [if_pos hlen]
    simp [Nat.not_le.mpr hlen]
  · rw [if_neg hlen, forM_ok_iff]
    simp [Nat.not_lt.mp hlen]

theorem validateItem_sorted {v : Json F} :
    validateItem limits rule label v.sorted = .ok () ↔
      validateItem limits rule label v = .ok () := by
  cases v with
  | null | bool | int | float | str => exact Iff.rfl
  | arr items => simp [sorted, validateItem, sortedItems_eq]
  | obj members =>
    have hperm := sorted_keys_perm members
    have hlen := hperm.length_eq
    rw [List.length_map, List.length_map] at hlen
    rw [sorted, validateItem_obj_ok_iff, validateItem_obj_ok_iff, hlen]
    simp only [hperm.mem_iff]

theorem fits_sorted {v : Json F} {depth : Nat} :
    Fits limits rule label depth v.sorted ↔ Fits limits rule label depth v := by
  induction v using children_induction generalizing depth with
  | step v ih =>
    rw [fits_iff, fits_iff (v := v), validateItem_sorted]
    simp only [(children_sorted v).mem_iff, List.forall_mem_map]
    refine and_congr_right fun _ => and_congr_right fun _ => ?_
    exact forall₂_congr fun c hc => ih c hc

theorem validateJsonTree_sorted {v : Json F} :
    validateJsonTree limits rule label v.sorted = .ok () ↔
      validateJsonTree limits rule label v = .ok () := by
  rw [validateJsonTree_ok_iff, validateJsonTree_ok_iff, nodes_sorted, fits_sorted]

theorem floatFree_iff {v : Json F} :
    v.FloatFree ↔ (∀ x, v ≠ .float x) ∧ ∀ c ∈ v.children, c.FloatFree := by
  cases v with
  | null | bool | int | float | str => simp [FloatFree, children]
  | arr items => simp [FloatFree, children, floatFreeItems_iff]
  | obj members =>
    rw [FloatFree, children, floatFreeMembers_iff, List.forall_mem_map]
    refine (and_iff_right fun x h => ?_).symm
    cases h

theorem FloatFree.sorted {v : Json F} (h : v.FloatFree) : v.sorted.FloatFree := by
  induction v using children_induction with
  | step v ih =>
    obtain ⟨hfloat, hchildren⟩ := floatFree_iff.mp h
    refine floatFree_iff.mpr ⟨fun x hx => ?_, fun c hc => ?_⟩
    · cases v with
      | null | bool | int | str | arr | obj => simp [Json.sorted] at hx
      | float y => exact hfloat y rfl
    · obtain ⟨c', hc', rfl⟩ := List.mem_map.mp ((children_sorted v).mem_iff.mp hc)
      exact ih c' hc' (hchildren c' hc')

/-- Where floats are not let through, an accepted tree has none. -/
theorem Fits.floatFree (hrule : rule.allowFloats = false) {v : Json F} {depth : Nat}
    (h : Fits limits rule label depth v) : v.FloatFree := by
  induction v using children_induction generalizing depth with
  | step v ih =>
    rw [fits_iff] at h
    refine floatFree_iff.mpr ⟨?_, fun c hc => ih c hc (h.2.2 c hc)⟩
    rintro x rfl
    have hitem := h.2.1
    rw [validateItem, hrule] at hitem
    cases hitem

end

/-! ## Reading bytes -/

inductive Encoding where
  | utf8
  | utf8Sig
  | utf16
  | utf16Be
  | utf16Le
  | utf32
  | utf32Be
  | utf32Le
deriving DecidableEq, Repr

/-- What `json.loads` takes bytes to be, from their first four. -/
def detectEncoding (bytes : List UInt8) : Encoding :=
  if [0x00, 0x00, 0xFE, 0xFF].isPrefixOf bytes ∨ [0xFF, 0xFE, 0x00, 0x00].isPrefixOf bytes then
    .utf32
  else if [0xFE, 0xFF].isPrefixOf bytes ∨ [0xFF, 0xFE].isPrefixOf bytes then .utf16
  else if [0xEF, 0xBB, 0xBF].isPrefixOf bytes then .utf8Sig
  else
    match bytes with
    | a :: b :: c :: d :: _ =>
        if a = 0 then (if b ≠ 0 then .utf16Be else .utf32Be)
        else if b = 0 then (if c ≠ 0 ∨ d ≠ 0 then .utf16Le else .utf32Le)
        else .utf8
    | [a, b] => if a = 0 then .utf16Be else if b = 0 then .utf16Le else .utf8
    | _ => .utf8

section

variable (floats : FloatText F) (wide : Encoding → List UInt8 → Option (List Char))

/-- `wide` are the decoders of the other encodings. -/
def decodeBytes (bytes : List UInt8) : Option (List Char) :=
  match detectEncoding bytes with
  | .utf8 => Utf8.decode? bytes
  | .utf8Sig => Utf8.decode? (bytes.drop 3)
  | encoding => wide encoding bytes

def readErrorText (label : String) : ReadError → String
  | .invalid => label ++ " is invalid"
  | .duplicateKey => label ++ " contains a duplicate object key"
  | .nonFinite => label ++ " contains a non-finite number"
  | .surrogate => label ++ " string must contain valid Unicode"

def strictJsonLoads (limits : JsonTreeLimits) (rule : FloatRule F) (label : String)
    (bytes : List UInt8) : Except String (Json F) :=
  match decodeBytes wide bytes with
  | none => .error (label ++ " is invalid")
  | some text =>
      match loads floats text with
      | .error e => .error (readErrorText label e)
      | .ok decoded => do
          validateJsonTree limits rule label decoded
          return decoded

/-- A text whose first character is one of ASCII, with no NUL among the
first two, is taken for UTF-8. -/
theorem detectEncoding_encode {c : Char} {rest : List Char} (hpos : 0 < c.toNat)
    (hascii : c.toNat < 0x80) (hrest : ∀ d ∈ rest.head?, d ≠ '\x00') :
    detectEncoding (Utf8.encode (c :: rest)) = .utf8 := by
  have ha := Utf8.ofNat_ne_zero hpos (by omega)
  have hmark (mark : UInt8) (hmark : 0x80 ≤ mark.toNat) : UInt8.ofNat c.toNat ≠ mark := by
    rintro rfl
    rw [UInt8.toNat_ofNat'] at hmark
    omega
  rw [Utf8.encode_cons, Utf8.utf8EncodeChar_ascii hascii, List.singleton_append]
  generalize UInt8.ofNat c.toNat = a at ha hmark
  have hFE : a ≠ 0xFE := hmark _ (by decide)
  have hFF : a ≠ 0xFF := hmark _ (by decide)
  have hEF : a ≠ 0xEF := hmark _ (by decide)
  unfold detectEncoding
  rw [if_neg (by simp [List.isPrefixOf, ha.symm, hFF.symm]),
    if_neg (by simp [List.isPrefixOf, hFE.symm, hFF.symm]),
    if_neg (by simp [List.isPrefixOf, hEF.symm])]
  cases rest with
  | nil => rfl
  | cons d rest =>
    obtain ⟨b, bs, hbytes, hb⟩ := Utf8.utf8EncodeChar_cons (hrest d rfl)
    rw [Utf8.encode_cons, hbytes, List.cons_append]
    match bs ++ Utf8.encode rest with
    | [] => exact (if_neg ha).trans (if_neg hb)
    | [_] => rfl
    | _ :: _ :: _ => exact (if_neg ha).trans (if_neg hb)

end

/-- A character of ASCII other than NUL. -/
def Plain (c : Char) : Prop := 0 < c.toNat ∧ c.toNat < 0x80

instance (c : Char) : Decidable (Plain c) := inferInstanceAs (Decidable (_ ∧ _))

theorem Plain.ne_nul {c : Char} (h : Plain c) : c ≠ '\x00' := by
  rintro rfl
  exact absurd h (by decide)

theorem plain_of_isDigit {c : Char} (h : c.isDigit) : Plain c := by
  rw [Char.isDigit, Bool.and_eq_true, decide_eq_true_eq, decide_eq_true_eq] at h
  have hlow : 48 ≤ c.toNat := h.1
  have hhigh : c.toNat ≤ 57 := h.2
  exact ⟨by omega, by omega⟩

theorem escape_head (c : Char) : ∃ d text, escape c = d :: text ∧ d ≠ '\x00' := by
  unfold escape
  split_ifs with _ _ _ _ _ _ _ hcontrol
  all_goals try exact ⟨_, _, rfl, by decide⟩
  refine ⟨c, [], rfl, ?_⟩
  rintro rfl
  exact hcontrol (by decide)

theorem writeInt_plain (n : Int) : ∀ c ∈ writeInt n, Plain c := by
  cases n with
  | ofNat n => exact fun c hc => plain_of_isDigit (isDigit_toDigits hc)
  | negSucc n =>
    refine List.forall_mem_cons.mpr ⟨by decide, fun c hc => ?_⟩
    exact plain_of_isDigit (isDigit_toDigits hc)

theorem floatRepr_plain {floats : FloatText F} {x : F} (h : floats.Reads x) :
    ∀ c ∈ floats.repr x, Plain c := by
  intro c hc
  rcases h.letters c hc with hdigit | hsign
  · exact plain_of_isDigit hdigit
  · simp only [List.mem_cons, List.not_mem_nil, or_false] at hsign
    rcases hsign with rfl | rfl | rfl | rfl | rfl <;> decide

/-- The first two characters of a number. -/
theorem number_plain {text : List Char} (hplain : ∀ c ∈ text, Plain c)
    (hstart : ∃ c rest, text = c :: rest ∧ (c = '-' ∨ c.isDigit)) :
    ∃ c rest, text = c :: rest ∧ Plain c ∧ ∀ d ∈ rest.head?, d ≠ '\x00' := by
  obtain ⟨c, rest, rfl, -⟩ := hstart
  refine ⟨c, rest, rfl, hplain c List.mem_cons_self, fun d hd => ?_⟩
  exact (hplain d (List.mem_cons_of_mem _ (List.mem_of_mem_head? hd))).ne_nul

theorem ne_nul_of_head (c : Char) (text : List Char) (hc : c ≠ '\x00') :
    ∀ d ∈ (c :: text).head?, d ≠ '\x00' := by
  intro d hd
  cases hd
  exact hc

/-- The first two characters of a text. -/
theorem dumps_plain (floats : FloatText F) (v : Json F) (h : v.EveryFloat floats.Reads) :
    ∃ c text, dumps floats v = c :: text ∧ Plain c ∧ ∀ d ∈ text.head?, d ≠ '\x00' := by
  induction v using tree_induction with
  | null => exact ⟨'n', _, rfl, by decide, ne_nul_of_head 'u' "ll".toList (by decide)⟩
  | bool b =>
    cases b with
    | false => exact ⟨'f', _, rfl, by decide, ne_nul_of_head 'a' "lse".toList (by decide)⟩
    | true => exact ⟨'t', _, rfl, by decide, ne_nul_of_head 'r' "ue".toList (by decide)⟩
  | int n => exact number_plain (writeInt_plain n) (writeInt_cons n)
  | float x => exact number_plain (floatRepr_plain h) h.starts
  | str s =>
    refine ⟨_, _, rfl, by decide, ?_⟩
    cases s.toList with
    | nil => exact ne_nul_of_head '"' [] (by decide)
    | cons c cs =>
      obtain ⟨e, text, htext, he⟩ := escape_head c
      rw [List.flatMap_cons, htext]
      exact ne_nul_of_head e _ he
  | arr items ih =>
    cases items with
    | nil => exact ⟨'[', _, rfl, by decide, ne_nul_of_head ']' [] (by decide)⟩
    | cons v vs =>
      obtain ⟨c, text, htext, hc, -⟩ := ih v List.mem_cons_self h.1
      refine ⟨_, _, rfl, by decide, ?_⟩
      rw [htext]
      exact ne_nul_of_head c _ hc.ne_nul
  | obj members ih =>
    cases members with
    | nil => exact ⟨'\x7b', _, rfl, by decide, ne_nul_of_head '\x7d' [] (by decide)⟩
    | cons m ms => exact ⟨'\x7b', _, rfl, by decide, ne_nul_of_head '"' _ (by decide)⟩

/-- What the writer makes of a tree is read back as that tree, if the walk
accepts it. -/
theorem strictJsonLoads_dumps (floats : FloatText F)
    (wide : Encoding → List UInt8 → Option (List Char)) {limits : JsonTreeLimits}
    {rule : FloatRule F} {label : String} {v : Json F} (hdistinct : v.Distinct)
    (hfloats : v.EveryFloat floats.Reads) :
    strictJsonLoads floats wide limits rule label (Utf8.encode (dumps floats v)) =
      (validateJsonTree limits rule label v).map fun _ => v := by
  have hdecode : decodeBytes wide (Utf8.encode (dumps floats v)) = some (dumps floats v) := by
    obtain ⟨c, text, htext, hc, htail⟩ := dumps_plain floats v hfloats
    rw [htext, decodeBytes, detectEncoding_encode hc.1 hc.2 htail]
    exact Utf8.decode?_encode _
  rw [strictJsonLoads, hdecode]
  dsimp only
  rw [loads_dumps v hdistinct hfloats]
  dsimp only
  cases validateJsonTree limits rule label v <;> rfl

end Json

end Kaede
