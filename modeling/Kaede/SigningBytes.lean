import Kaede.JsonLimits
import Kaede.QueryString

/-!
# What a signature is made over

Federation requests and events are signed over canonical JSON
(`core/federation.py`): the sorted, compact text of a tree that passes the
limits. A request is signed as an object of its method, target, hosts,
time, content hash and nonce, with the query of the target in a canonical
form; an event as its envelope without the signatures.

`signing_bytes_bind` collects what that binds. Canonical texts are equal
exactly for equal trees and read back as them, the canonical query depends
on its parameters and not on their order, and equal signing bytes come
from equal contents. The one field that is not bound as it stands is the
method, which is signed in upper case.
-/

namespace Kaede

namespace Signing

open Json

variable {F : Type}

/-! ## The calls -/

section

variable (floats : FloatText F) (isFinite : F → Bool)

/-- `allowFloats` is `False` where a caller does not say. -/
def canonicalJson (allowFloats : Bool) (value : Json F) : Except String (List UInt8) := do
  validateJsonTree federationJsonLimits ⟨allowFloats, isFinite⟩ "federation JSON" value
  return Utf8.encode (dumps floats value.sorted)

/-- The pairs of a query in the order Python gives tuples of strings. -/
def PairLe (a b : String × String) : Prop := a.1 < b.1 ∨ a.1 = b.1 ∧ a.2 ≤ b.2

instance : DecidableRel PairLe := fun _ _ => inferInstanceAs (Decidable (_ ∨ _))

def canonicalQuery (query : List Char) : List Char :=
  QueryString.urlencode ((QueryString.parseQsl query).insertionSort PairLe)

def canonicalRequestTarget (path query : List Char) : List Char :=
  match canonicalQuery query with
  | [] => path
  | normalized => path ++ '?' :: normalized

structure SigningInput where
  method : String
  requestTarget : String
  origin : String
  destination : String
  timestamp : Int
  contentHash : String
  nonce : Option String := none
deriving DecidableEq, Repr

/-- The members after the time. -/
def nonceMember (nonce : Option String) : List (String × Json F) :=
  match nonce with
  | some nonce => [("nonce", .str nonce)]
  | none => []

/-- `upper` is Python's `str.upper`. -/
def signingValue (upper : String → String) (input : SigningInput) : Json F :=
  .obj ([("content_sha256", .str input.contentHash), ("destination", .str input.destination),
    ("method", .str (upper input.method)), ("origin", .str input.origin),
    ("request_target", .str input.requestTarget), ("ts", .int input.timestamp)] ++
    nonceMember input.nonce)

def canonicalBytes (upper : String → String) (input : SigningInput) :
    Except String (List UInt8) :=
  canonicalJson floats isFinite false (signingValue upper input)

/-- The members of an envelope that are signed. -/
def signedMembers (envelope : List (String × Json F)) : List (String × Json F) :=
  envelope.filter fun m => m.1 ≠ "signatures"

def envelopeSigningBytes (envelope : List (String × Json F)) : Except String (List UInt8) :=
  canonicalJson floats isFinite false (.obj (signedMembers envelope))

end

/-! ## Canonical JSON -/

section

variable {floats : FloatText F} {isFinite : F → Bool} {allowFloats : Bool} {v w : Json F}

theorem canonicalJson_ok_iff {bytes : List UInt8} :
    canonicalJson floats isFinite allowFloats v = .ok bytes ↔
      validateJsonTree federationJsonLimits ⟨allowFloats, isFinite⟩ "federation JSON" v = .ok () ∧
        Utf8.encode (dumps floats v.sorted) = bytes := by
  unfold canonicalJson
  cases validateJsonTree federationJsonLimits ⟨allowFloats, isFinite⟩ "federation JSON" v with
  | error e => simp [bind, Except.bind]
  | ok u => simp [bind, Except.bind, pure, Except.pure]

theorem encode_injective {text text' : List Char} (h : Utf8.encode text = Utf8.encode text') :
    text = text' := by
  have hdecode := congrArg Utf8.decode? h
  rw [Utf8.decode?_encode, Utf8.decode?_encode] at hdecode
  exact Option.some.inj hdecode

/-- The text of a sorted tree tells which tree it is. -/
theorem same_of_encode_eq (hv : v.Distinct) (hw : w.Distinct) (hvfree : v.FloatFree)
    (hwfree : w.FloatFree)
    (h : Utf8.encode (dumps floats v.sorted) = Utf8.encode (dumps floats w.sorted)) :
    v.Same w := by
  have htext := encode_injective h
  have hread : loads floats (dumps floats v.sorted) = _ :=
    loads_dumps v.sorted hv.sorted hvfree.sorted.everyFloat
  rw [htext, loads_dumps w.sorted hw.sorted hwfree.sorted.everyFloat] at hread
  exact same_of_sorted_eq (Except.ok.inj hread).symm

/-- Canonical JSON reads back as the value. -/
theorem strictJsonLoads_canonicalJson (wide : Encoding → List UInt8 → Option (List Char))
    (hv : v.Distinct) (hfree : v.FloatFree)
    (hvalid : validateJsonTree federationJsonLimits ⟨allowFloats, isFinite⟩ "federation JSON" v =
      .ok ()) :
    ∃ bytes u, canonicalJson floats isFinite allowFloats v = .ok bytes ∧
      strictJsonLoads floats wide federationJsonLimits ⟨allowFloats, isFinite⟩ "federation JSON"
        bytes = .ok u ∧ u.Same v := by
  refine ⟨_, v.sorted, canonicalJson_ok_iff.mpr ⟨hvalid, rfl⟩, ?_, ?_⟩
  · rw [strictJsonLoads_dumps floats wide hv.sorted hfree.sorted.everyFloat,
      validateJsonTree_sorted.mpr hvalid]
    rfl
  · exact same_of_sorted_eq (sorted_sorted v)

theorem canonicalJson_eq_iff (hv : v.Distinct) (hw : w.Distinct) (hvfree : v.FloatFree)
    (hwfree : w.FloatFree)
    (hvvalid : validateJsonTree federationJsonLimits ⟨allowFloats, isFinite⟩ "federation JSON" v =
      .ok ())
    (hwvalid : validateJsonTree federationJsonLimits ⟨allowFloats, isFinite⟩ "federation JSON" w =
      .ok ()) :
    canonicalJson floats isFinite allowFloats v = canonicalJson floats isFinite allowFloats w ↔
      v.Same w := by
  rw [canonicalJson_ok_iff.mpr ⟨hvvalid, rfl⟩, canonicalJson_ok_iff.mpr ⟨hwvalid, rfl⟩]
  constructor
  · exact fun h => same_of_encode_eq hv hw hvfree hwfree (Except.ok.inj h)
  · intro h
    rw [h.sorted_eq hv hw]

/-- Equal canonical JSON without floats comes from equal values. -/
theorem same_of_canonicalJson {bytes : List UInt8} (hv : v.Distinct) (hw : w.Distinct)
    (hvbytes : canonicalJson floats isFinite false v = .ok bytes)
    (hwbytes : canonicalJson floats isFinite false w = .ok bytes) : v.Same w := by
  obtain ⟨hvvalid, rfl⟩ := canonicalJson_ok_iff.mp hvbytes
  obtain ⟨hwvalid, heq⟩ := canonicalJson_ok_iff.mp hwbytes
  have hvfree := ((validateJsonTree_ok_iff.mp hvvalid).2).floatFree rfl
  have hwfree := ((validateJsonTree_ok_iff.mp hwvalid).2).floatFree rfl
  exact same_of_encode_eq hv hw hvfree hwfree heq.symm

end

/-! ## Canonical queries -/

theorem pairLe_total (a b : String × String) : PairLe a b ∨ PairLe b a := by
  by_cases hfst : a.1 = b.1
  · exact (String.le_total a.2 b.2).imp (fun h => .inr ⟨hfst, h⟩) fun h => .inr ⟨hfst.symm, h⟩
  · exact (String.le_total a.1 b.1).imp (fun h => .inl (Std.lt_of_le_of_ne h hfst))
      fun h => .inl (Std.lt_of_le_of_ne h (Ne.symm hfst))

theorem pairLe_trans {a b c : String × String} (hab : PairLe a b) (hbc : PairLe b c) :
    PairLe a c := by
  rcases hab with hab | ⟨hfst, hab⟩
  · rcases hbc with hbc | ⟨hfst', -⟩
    · exact .inl (String.lt_trans hab hbc)
    · exact .inl (hfst' ▸ hab)
  · rcases hbc with hbc | ⟨hfst', hbc⟩
    · exact .inl (hfst ▸ hbc)
    · exact .inr ⟨hfst.trans hfst', String.le_trans hab hbc⟩

theorem pairLe_antisymm {a b : String × String} (hab : PairLe a b) (hba : PairLe b a) :
    a = b := by
  rcases hab with hab | ⟨hfst, hab⟩
  · rcases hba with hba | ⟨hfst, -⟩
    · exact absurd hba (String.lt_asymm hab)
    · exact absurd (hfst ▸ hab) (String.lt_irrefl _)
  · rcases hba with hba | ⟨-, hba⟩
    · exact absurd (hfst ▸ hba) (String.lt_irrefl _)
    · exact Prod.ext hfst (String.le_antisymm hab hba)

theorem canonicalQuery_idempotent (query : List Char) :
    canonicalQuery (canonicalQuery query) = canonicalQuery query := by
  have hsorted : ((QueryString.parseQsl query).insertionSort PairLe).Pairwise PairLe :=
    PoolSort.pairwise_insertionSort_of_mem (p := fun _ => True) (fun a b _ _ => pairLe_total a b)
      (fun _ _ _ _ _ _ => pairLe_trans) fun _ _ => trivial
  rw [canonicalQuery, canonicalQuery, QueryString.parseQsl_urlencode, hsorted.insertionSort_eq]

theorem canonicalQuery_eq_of_perm {query query' : List Char}
    (h : (query'.splitOn '&').Perm (query.splitOn '&')) :
    canonicalQuery query' = canonicalQuery query := by
  rw [canonicalQuery, canonicalQuery]
  refine congrArg QueryString.urlencode ?_
  exact PoolSort.insertionSort_eq_of_perm (p := fun _ => True) (fun a b _ _ => pairLe_total a b)
    (fun _ _ _ _ _ _ => pairLe_trans) (fun _ _ _ _ => pairLe_antisymm) (fun _ _ => trivial)
    (QueryString.parseQsl_perm h)

/-- The order of parameters does not change what is requested. -/
theorem canonicalRequestTarget_eq_of_perm (path : List Char) {query query' : List Char}
    (h : (query'.splitOn '&').Perm (query.splitOn '&')) :
    canonicalRequestTarget path query' = canonicalRequestTarget path query := by
  rw [canonicalRequestTarget, canonicalRequestTarget, canonicalQuery_eq_of_perm h]

/-! ## Signing inputs -/

/-- What two inputs with the same signing bytes agree on. -/
structure SameRequest (upper : String → String) (a b : SigningInput) : Prop where
  method : upper a.method = upper b.method
  requestTarget : a.requestTarget = b.requestTarget
  origin : a.origin = b.origin
  destination : a.destination = b.destination
  timestamp : a.timestamp = b.timestamp
  contentHash : a.contentHash = b.contentHash
  nonce : a.nonce = b.nonce

variable {floats : FloatText F} {isFinite : F → Bool} {upper : String → String}

theorem signingValue_distinct (input : SigningInput) :
    (signingValue upper input : Json F).Distinct := by
  unfold signingValue
  cases input.nonce with
  | none => simp [nonceMember, Distinct, DistinctMembers]
  | some nonce => simp [nonceMember, Distinct, DistinctMembers]

/-- Members of the same dicts under one key are the same. -/
theorem same_member {as bs : List (String × Json F)} (hkeys : (bs.map Prod.fst).Nodup)
    (h : HasMembers as bs) {key : String} {v w : Json F} (hv : (key, v) ∈ as)
    (hw : (key, w) ∈ bs) : v.Same w := by
  obtain ⟨b, hb, hsame⟩ := hasMembers_iff.mp h (key, v) hv
  have hpair := List.inj_on_of_nodup_map hkeys hb hw rfl
  rwa [(Prod.mk.inj hpair).2] at hsame

theorem mem_nonceMember {nonce : Option String} {n : String} (h : nonce = some n) :
    ("nonce", Json.str n) ∈ (nonceMember nonce : List (String × Json F)) := by
  subst h
  exact List.mem_singleton_self _

theorem SameRequest.of_same {a b : SigningInput}
    (h : (signingValue upper a : Json F).Same (signingValue upper b)) : SameRequest upper a b := by
  obtain ⟨hlen, hmem⟩ := h
  have hdistinct : (signingValue upper b : Json F).Distinct := signingValue_distinct b
  have hmember {key : String} {v w : Json F} (hv : (key, v) ∈ _) (hw : (key, w) ∈ _) :=
    same_member hdistinct.1 hmem hv hw
  refine ⟨?_, ?_, ?_, ?_, ?_, ?_, ?_⟩
  · exact hmember (.tail _ (.tail _ (.head _))) (.tail _ (.tail _ (.head _)))
  · exact hmember (.tail _ (.tail _ (.tail _ (.tail _ (.head _)))))
      (.tail _ (.tail _ (.tail _ (.tail _ (.head _)))))
  · exact hmember (.tail _ (.tail _ (.tail _ (.head _)))) (.tail _ (.tail _ (.tail _ (.head _))))
  · exact hmember (.tail _ (.head _)) (.tail _ (.head _))
  · exact hmember (.tail _ (.tail _ (.tail _ (.tail _ (.tail _ (.head _))))))
      (.tail _ (.tail _ (.tail _ (.tail _ (.tail _ (.head _))))))
  · exact hmember (.head _) (.head _)
  · -- the number of members tells whether there is a nonce
    have hcount : (nonceMember a.nonce : List (String × Json F)).length =
        (nonceMember b.nonce : List (String × Json F)).length := by
      rw [List.length_append, List.length_append] at hlen
      exact Nat.add_left_cancel (n := 6) hlen
    cases ha : a.nonce with
    | none =>
      cases hb : b.nonce with
      | none => rfl
      | some m =>
        rw [ha, hb] at hcount
        cases hcount
    | some n =>
      cases hb : b.nonce with
      | none =>
        rw [ha, hb] at hcount
        cases hcount
      | some m =>
        have hnonce : (Json.str n : Json F).Same (.str m) :=
          hmember (List.mem_append_right _ (mem_nonceMember ha))
            (List.mem_append_right _ (mem_nonceMember hb))
        exact congrArg some hnonce

/-- The signed members of a dict are those of a dict. -/
theorem signedMembers_distinct {envelope : List (String × Json F)}
    (h : (Json.obj envelope).Distinct) : (Json.obj (signedMembers envelope)).Distinct := by
  rw [Distinct, distinctMembers_iff] at h ⊢
  refine ⟨h.1.sublist (List.filter_sublist.map _), fun m hm => ?_⟩
  exact h.2 m (List.mem_of_mem_filter hm)

/-! ## The whole -/

/-- What canonical JSON and the signing bytes bind. Trees are those of
Python values, whose dicts have no key twice. The queries with the same
parameters are those with the same pieces between `&`. -/
theorem signing_bytes_bind (floats : FloatText F) (isFinite : F → Bool)
    (wide : Encoding → List UInt8 → Option (List Char)) (upper : String → String) :
    (∀ (allowFloats : Bool) (v : Json F), v.Distinct → v.FloatFree →
      validateJsonTree federationJsonLimits ⟨allowFloats, isFinite⟩ "federation JSON" v = .ok () →
      ∃ bytes u, canonicalJson floats isFinite allowFloats v = .ok bytes ∧
        strictJsonLoads floats wide federationJsonLimits ⟨allowFloats, isFinite⟩ "federation JSON"
          bytes = .ok u ∧ u.Same v) ∧
    (∀ (allowFloats : Bool) (v w : Json F), v.Distinct → w.Distinct → v.FloatFree → w.FloatFree →
      validateJsonTree federationJsonLimits ⟨allowFloats, isFinite⟩ "federation JSON" v = .ok () →
      validateJsonTree federationJsonLimits ⟨allowFloats, isFinite⟩ "federation JSON" w = .ok () →
      (canonicalJson floats isFinite allowFloats v = canonicalJson floats isFinite allowFloats w ↔
        v.Same w)) ∧
    (∀ query, canonicalQuery (canonicalQuery query) = canonicalQuery query) ∧
    (∀ query query' : List Char, (query'.splitOn '&').Perm (query.splitOn '&') →
      canonicalQuery query' = canonicalQuery query) ∧
    (∀ (a b : SigningInput) (bytes : List UInt8),
      canonicalBytes floats isFinite upper a = .ok bytes →
      canonicalBytes floats isFinite upper b = .ok bytes → SameRequest upper a b) ∧
    (∀ (envelope envelope' : List (String × Json F)) (bytes : List UInt8),
      (Json.obj envelope).Distinct → (Json.obj envelope').Distinct →
      envelopeSigningBytes floats isFinite envelope = .ok bytes →
      envelopeSigningBytes floats isFinite envelope' = .ok bytes →
      (Json.obj (signedMembers envelope)).Same (.obj (signedMembers envelope'))) := by
  refine ⟨?_, ?_, canonicalQuery_idempotent, ?_, ?_, ?_⟩
  · exact fun _ _ hv hfree hvalid => strictJsonLoads_canonicalJson wide hv hfree hvalid
  · exact fun _ _ _ hv hw hvfree hwfree => canonicalJson_eq_iff hv hw hvfree hwfree
  · exact fun _ _ => canonicalQuery_eq_of_perm
  · intro a b bytes ha hb
    exact SameRequest.of_same
      (same_of_canonicalJson (signingValue_distinct a) (signingValue_distinct b) ha hb)
  · intro envelope envelope' bytes henvelope henvelope' hbytes hbytes'
    exact same_of_canonicalJson (signedMembers_distinct henvelope)
      (signedMembers_distinct henvelope') hbytes hbytes'

/-- Floats by their texts. -/
def floatTexts : FloatText String := ⟨String.toList, String.ofList⟩

/-- `str.upper` on ASCII. -/
def asciiUpper (s : String) : String := String.ofList (s.toList.map Char.toUpper)

def lowerCaseInput : SigningInput where
  method := "get"
  requestTarget := "/_kaede/v1/guilds/7?after=1"
  origin := "a.example"
  destination := "b.example"
  timestamp := 1784541600
  contentHash := "e3b0c442"
  nonce := some "n-1"

def upperCaseInput : SigningInput := { lowerCaseInput with method := "GET" }

theorem lowerCaseInput_valid :
    validateJsonTree federationJsonLimits ⟨false, fun _ => true⟩ "federation JSON"
      (signingValue asciiUpper lowerCaseInput : Json String) = .ok () := rfl

/-- The object a request is signed as reads back. -/
theorem lowerCaseInput_reads_back :
    ∃ bytes u, canonicalJson floatTexts (fun _ => true) false
        (signingValue asciiUpper lowerCaseInput) = .ok bytes ∧
      strictJsonLoads floatTexts (fun _ _ => none) federationJsonLimits ⟨false, fun _ => true⟩
        "federation JSON" bytes = .ok u ∧
      u.Same (signingValue asciiUpper lowerCaseInput) :=
  (signing_bytes_bind floatTexts (fun _ => true) (fun _ _ => none) asciiUpper).1 false _
    (signingValue_distinct lowerCaseInput)
    (((validateJsonTree_ok_iff.mp lowerCaseInput_valid).2).floatFree rfl) lowerCaseInput_valid

/-- Requests that differ in the case of their method are signed alike. -/
theorem method_case_not_bound :
    ¬ ∀ (a b : SigningInput) (bytes : List UInt8),
      canonicalBytes floatTexts (fun _ => true) asciiUpper a = .ok bytes →
      canonicalBytes floatTexts (fun _ => true) asciiUpper b = .ok bytes → a = b := by
  intro h
  have hvalue : (signingValue asciiUpper upperCaseInput : Json String) =
      signingValue asciiUpper lowerCaseInput := by
    have hupper : asciiUpper "GET" = asciiUpper "get" := by decide
    rw [signingValue, signingValue, upperCaseInput, lowerCaseInput, hupper]
  have hlower : canonicalBytes floatTexts (fun _ => true) asciiUpper lowerCaseInput = .ok _ :=
    canonicalJson_ok_iff.mpr ⟨lowerCaseInput_valid, rfl⟩
  refine absurd (h lowerCaseInput upperCaseInput _ hlower ?_) (by decide)
  rw [canonicalBytes, hvalue]
  exact hlower

end Signing

end Kaede
