import Kaede.JsonLimits
import Kaede.Utf8
import Mathlib.Data.List.Forall2

/-!
# The walk over containers that may be shared

`validate_json_tree` of `core/json_limits.py` is called on whatever object
its caller holds, so a container can hold itself, or be held in two places.
Here the objects are a heap: a value is a scalar or the identity of a
container, and the heap says what the container holds. The walk keeps a
stack, the identities it has met and a count, as the source does.

`validateJsonTree_spec` says that the walk always ends, and when it
accepts: the value has to unfold to a finite tree with no identity in it
twice, within the limits, of scalars that JSON can carry.

A text of the interpreter is a list of code points, where a surrogate can
stand alone; such a text has no bytes.
-/

namespace Kaede

namespace JsonWalk

open Json (JsonTreeLimits FloatRule maxSafeJsonInteger federationJsonLimits)

variable {F : Type}

/-! ## Objects -/

abbrev PyText := List (Fin 0x110000)

/-- The character of a code point, unless it is a surrogate. -/
def scalarValue (c : Fin 0x110000) : Option Char :=
  if h : c.val.isValidChar then some (Char.ofNatAux c.val h) else none

/-- `value.encode("utf-8")`, which raises on a surrogate. -/
def encodeUtf8 (text : PyText) : Option (List UInt8) :=
  (text.mapM scalarValue).map Utf8.encode

inductive Scalar (F : Type)
  | none
  | bool (b : Bool)
  | int (n : Int)
  | float (x : F)
  | str (s : PyText)
  /-- An object of any type that the walk does not know. -/
  | other

inductive Value (F : Type)
  | scalar (s : Scalar F)
  | ref (id : Nat)

inductive Key
  | str (s : PyText)
  | other

/-- A dict, or a list or tuple. -/
inductive Container (F : Type)
  | dict (items : List (Key × Value F))
  | list (items : List (Value F))

def Container.values : Container F → List (Value F)
  | .dict items => items.map Prod.snd
  | .list items => items

/-- What every identity holds. -/
abbrev Heap (F : Type) := Nat → Container F

/-! ## The walk -/

structure Walk (F : Type) where
  /-- The top of the stack is the head of the list. -/
  stack : List (Value F × Nat)
  seenContainers : List Nat
  nodes : Nat

def Walk.start (value : Value F) : Walk F where
  stack := [(value, 0)]
  seenContainers := []
  nodes := 0

def validateString (value : PyText) (maxBytes : Nat) (label : String) : Except String Unit :=
  if 0 ∈ value then .error (label ++ " must not contain NUL characters")
  else
    match encodeUtf8 value with
    | none => .error (label ++ " must contain valid Unicode")
    | some encoded =>
        if maxBytes < encoded.length then .error (label ++ " is too large") else .ok ()

section

variable (heap : Heap F) (limits : JsonTreeLimits) (rule : FloatRule F) (label : String)

def validateKey : Key → Except String Unit
  | .other => .error (label ++ " object keys must be strings")
  | .str s => validateString s limits.maxKeyBytes (label ++ " object key")

def validateContainer : Container F → Except String Unit
  | .dict items =>
      if limits.maxObjectMembers < items.length then
        .error (label ++ " object contains too many members")
      else items.forM fun item => validateKey limits label item.1
  | .list items =>
      if limits.maxArrayMembers < items.length then
        .error (label ++ " array contains too many items")
      else .ok ()

def validateScalar : Scalar F → Except String Unit
  | .str s => validateString s limits.maxStringBytes (label ++ " string")
  | .none | .bool _ => .ok ()
  | .int n =>
      if -maxSafeJsonInteger ≤ n ∧ n ≤ maxSafeJsonInteger then .ok ()
      else .error (label ++ " integer is outside the supported range")
  | .float x =>
      if rule.allowFloats ∧ rule.isFinite x then .ok ()
      else .error (label ++ " floating-point numbers are not supported")
  | .other => .error (label ++ " contains a value that JSON cannot encode")

/-- The round of the loop that pops `item`. -/
def visit (item : Value F) (depth : Nat) (stack : List (Value F × Nat)) (w : Walk F) :
    Except String (Walk F) :=
  if limits.maxNodes < w.nodes + 1 then .error (label ++ " contains too many values")
  else if limits.maxDepth < depth then .error (label ++ " exceeds the nesting depth limit")
  else
    match item with
    | .scalar s => do
        validateScalar limits rule label s
        .ok { w with stack := stack, nodes := w.nodes + 1 }
    | .ref id =>
        if id ∈ w.seenContainers then
          .error (label ++ " contains a cyclic or shared container")
        else do
          validateContainer limits label (heap id)
          .ok {
            stack := ((heap id).values.map fun child => (child, depth + 1)).reverse ++ stack
            seenContainers := id :: w.seenContainers
            nodes := w.nodes + 1 }

/-- `fuel` rounds of the loop at most; `none` when they were not enough. -/
def walk : Nat → Walk F → Option (Except String Unit)
  | 0, _ => none
  | fuel + 1, w =>
      match w.stack with
      | [] => some (.ok ())
      | (item, depth) :: stack =>
          match visit heap limits rule label item depth stack w with
          | .error e => some (.error e)
          | .ok w' => walk fuel w'

end

/-! ## Trees -/

/-- What a value can unfold to. A container keeps its identity. -/
inductive Tree (F : Type)
  | leaf (s : Scalar F)
  | node (id : Nat) (container : Container F) (children : List (Tree F))

namespace Tree

def root : Tree F → Value F
  | leaf s => .scalar s
  | node id _ _ => .ref id

mutual

def depth : Tree F → Nat
  | leaf _ => 0
  | node _ _ children => depthAll children

/-- How far the children reach below their parent. -/
def depthAll : List (Tree F) → Nat
  | [] => 0
  | t :: ts => max (t.depth + 1) (depthAll ts)

end

mutual

def nodes : Tree F → Nat
  | leaf _ => 1
  | node _ _ children => nodesAll children + 1

def nodesAll : List (Tree F) → Nat
  | [] => 0
  | t :: ts => t.nodes + nodesAll ts

end

mutual

/-- The identities in a tree, each as often as it is met. -/
def ids : Tree F → List Nat
  | leaf _ => []
  | node id _ children => id :: idsAll children

def idsAll : List (Tree F) → List Nat
  | [] => []
  | t :: ts => t.ids ++ idsAll ts

end

mutual

/-- Every container of the tree is what the heap holds under its identity,
and its children unfold its values. -/
def Unfolds (heap : Heap F) : Tree F → Prop
  | leaf _ => True
  | node id container children =>
      heap id = container ∧ children.map root = container.values ∧ UnfoldsAll heap children

def UnfoldsAll (heap : Heap F) : List (Tree F) → Prop
  | [] => True
  | t :: ts => t.Unfolds heap ∧ UnfoldsAll heap ts

end

mutual

/-- `p` holds of every scalar of the tree and `q` of every container. -/
def Holds (p : Scalar F → Prop) (q : Container F → Prop) : Tree F → Prop
  | leaf s => p s
  | node _ container children => q container ∧ HoldsAll p q children

def HoldsAll (p : Scalar F → Prop) (q : Container F → Prop) : List (Tree F) → Prop
  | [] => True
  | t :: ts => t.Holds p q ∧ HoldsAll p q ts

end

/-! ### A container and its children -/

theorem nodes_node (id : Nat) (container : Container F) (children : List (Tree F)) :
    (node id container children).nodes = (children.map nodes).sum + 1 := by
  have hall : nodesAll children = (children.map nodes).sum := by
    induction children with
    | nil => rfl
    | cons t ts ih => rw [nodesAll, ih, List.map_cons, List.sum_cons]
  rw [nodes, hall]

theorem ids_node (id : Nat) (container : Container F) (children : List (Tree F)) :
    (node id container children).ids = id :: children.flatMap ids := by
  have hall : idsAll children = children.flatMap ids := by
    induction children with
    | nil => rfl
    | cons t ts ih => rw [idsAll, ih, List.flatMap_cons]
  rw [ids, hall]

theorem depth_node_le_iff {id : Nat} {container : Container F} {children : List (Tree F)}
    {n : Nat} :
    (node id container children).depth ≤ n ↔ ∀ t ∈ children, t.depth + 1 ≤ n := by
  rw [depth]
  induction children with
  | nil => simp [depthAll]
  | cons t ts ih => rw [depthAll, Nat.max_le, ih, List.forall_mem_cons]

theorem unfolds_node_iff {heap : Heap F} {id : Nat} {container : Container F}
    {children : List (Tree F)} :
    (node id container children).Unfolds heap ↔ heap id = container ∧
      children.map root = container.values ∧ ∀ t ∈ children, t.Unfolds heap := by
  have hall : UnfoldsAll heap children ↔ ∀ t ∈ children, t.Unfolds heap := by
    induction children with
    | nil => simp [UnfoldsAll]
    | cons t ts ih => rw [UnfoldsAll, ih, List.forall_mem_cons]
  rw [Unfolds, hall]

theorem holds_node_iff {p : Scalar F → Prop} {q : Container F → Prop} {id : Nat}
    {container : Container F} {children : List (Tree F)} :
    (node id container children).Holds p q ↔
      q container ∧ ∀ t ∈ children, t.Holds p q := by
  have hall : HoldsAll p q children ↔ ∀ t ∈ children, t.Holds p q := by
    induction children with
    | nil => simp [HoldsAll]
    | cons t ts ih => rw [HoldsAll, ih, List.forall_mem_cons]
  rw [Holds, hall]

theorem nodes_pos (t : Tree F) : 0 < t.nodes := by
  cases t with
  | leaf s => exact Nat.one_pos
  | node id container children =>
    rw [nodes_node]
    exact Nat.succ_pos _

/-- Induction over a tree by its children. -/
theorem children_induction {motive : Tree F → Prop} (leaf : ∀ s, motive (leaf s))
    (node : ∀ id container children, (∀ t ∈ children, motive t) →
      motive (node id container children)) (t : Tree F) : motive t := by
  refine @Tree.rec F motive (fun ts => ∀ t ∈ ts, motive t) leaf node ?_ ?_ t
  · exact fun t ht => absurd ht List.not_mem_nil
  · exact fun t ts ht hts => List.forall_mem_cons.mpr ⟨ht, hts⟩

theorem holds_and_iff {p p' : Scalar F → Prop} {q q' : Container F → Prop} (t : Tree F) :
    t.Holds (fun s => p s ∧ p' s) (fun c => q c ∧ q' c) ↔ t.Holds p q ∧ t.Holds p' q' := by
  induction t using children_induction with
  | leaf s => exact Iff.rfl
  | node id container children ih =>
    have hall : (∀ t ∈ children, t.Holds (fun s => p s ∧ p' s) fun c => q c ∧ q' c) ↔
        (∀ t ∈ children, t.Holds p q) ∧ ∀ t ∈ children, t.Holds p' q' := by
      rw [← forall₂_and]
      exact forall₂_congr ih
    rw [holds_node_iff, holds_node_iff, holds_node_iff, hall]
    exact and_and_and_comm

end Tree

/-! ## What the limits and the scalars ask -/

section

variable (limits : JsonTreeLimits) (rule : FloatRule F)

/-- A text that has bytes has no more than `maxBytes`. -/
def FitsBytes (maxBytes : Nat) (text : PyText) : Prop :=
  ∀ encoded, encodeUtf8 text = some encoded → encoded.length ≤ maxBytes

/-- A text that can be sent: valid Unicode without NUL. -/
def Sendable (text : PyText) : Prop := 0 ∉ text ∧ (encodeUtf8 text).isSome

def Scalar.Within : Scalar F → Prop
  | .str s => FitsBytes limits.maxStringBytes s
  | _ => True

def Container.Within : Container F → Prop
  | .dict items => items.length ≤ limits.maxObjectMembers ∧
      ∀ item ∈ items, ∀ s, item.1 = .str s → FitsBytes limits.maxKeyBytes s
  | .list items => items.length ≤ limits.maxArrayMembers

def Scalar.Supported : Scalar F → Prop
  | .none | .bool _ => True
  | .int n => -maxSafeJsonInteger ≤ n ∧ n ≤ maxSafeJsonInteger
  | .float x => rule.allowFloats ∧ rule.isFinite x
  | .str s => Sendable s
  | .other => False

def Container.Supported : Container F → Prop
  | .dict items => ∀ item ∈ items, ∃ s, item.1 = .str s ∧ Sendable s
  | .list _ => True

/-- Depth, values, members and bytes of a tree are within the limits. -/
structure Tree.Within (t : Tree F) : Prop where
  depth_le : t.depth ≤ limits.maxDepth
  nodes_le : t.nodes ≤ limits.maxNodes
  sizes : t.Holds (Scalar.Within limits) (Container.Within limits)

/-- Every scalar and key of a tree is one that JSON can carry to every
reader. -/
def Tree.Supported (t : Tree F) : Prop := t.Holds (Scalar.Supported rule) Container.Supported

/-- A value is a finite tree: no container in it is met twice. -/
structure Tree.Of (heap : Heap F) (value : Value F) (t : Tree F) : Prop where
  root_eq : t.root = value
  unfolds : t.Unfolds heap
  nodup : t.ids.Nodup

end

section

variable {heap : Heap F} {limits : JsonTreeLimits} {rule : FloatRule F} {label : String}

theorem validateString_ok_iff {value : PyText} {maxBytes : Nat} {label : String} :
    validateString value maxBytes label = .ok () ↔ FitsBytes maxBytes value ∧ Sendable value := by
  rw [validateString, FitsBytes, Sendable]
  by_cases hnul : 0 ∈ value
  · simp [hnul]
  rw [if_neg hnul]
  cases hbytes : encodeUtf8 value with
  | none => simp
  | some encoded =>
    by_cases hlong : maxBytes < encoded.length
    · simp [hlong]
    · simp [hlong, hnul, Nat.not_lt.mp hlong]

theorem validateKey_ok_iff {key : Key} :
    validateKey limits label key = .ok () ↔
      (∀ s, key = .str s → FitsBytes limits.maxKeyBytes s) ∧ ∃ s, key = .str s ∧ Sendable s := by
  cases key with
  | other => simp [validateKey]
  | str s =>
    rw [validateKey, validateString_ok_iff]
    simp

theorem validateContainer_ok_iff {container : Container F} :
    validateContainer limits label container = .ok () ↔
      container.Within limits ∧ container.Supported := by
  cases container with
  | list items =>
    rw [validateContainer, Container.Within, Container.Supported]
    by_cases hmany : limits.maxArrayMembers < items.length
    · simp [hmany]
    · simp [hmany, Nat.not_lt.mp hmany]
  | dict items =>
    rw [validateContainer, Container.Within, Container.Supported]
    by_cases hmany : limits.maxObjectMembers < items.length
    · simp [hmany]
    rw [if_neg hmany, Json.forM_ok_iff]
    simp only [validateKey_ok_iff, Nat.not_lt.mp hmany, true_and]
    exact forall₂_and

theorem validateScalar_ok_iff {s : Scalar F} :
    validateScalar limits rule label s = .ok () ↔ s.Within limits ∧ s.Supported rule := by
  cases s with
  | none | bool => simp [validateScalar, Scalar.Within, Scalar.Supported]
  | other => simp [validateScalar, Scalar.Supported]
  | int n =>
    simp only [validateScalar, Scalar.Within, Scalar.Supported, true_and]
    split <;> simp_all
  | float x =>
    simp only [validateScalar, Scalar.Within, Scalar.Supported, true_and]
    split <;> simp_all
  | str s => rw [validateScalar, validateString_ok_iff, Scalar.Within, Scalar.Supported]

/-! ## What the walk accepts -/

/-- A tree that the walk can take for an entry of its stack. -/
structure Fits (heap : Heap F) (limits : JsonTreeLimits) (rule : FloatRule F) (label : String)
    (entry : Value F × Nat) (t : Tree F) : Prop where
  root_eq : t.root = entry.1
  unfolds : t.Unfolds heap
  depth_le : entry.2 + t.depth ≤ limits.maxDepth
  passes : t.Holds (fun s => validateScalar limits rule label s = .ok ())
    fun c => validateContainer limits label c = .ok ()

/-- The trees under the stack of a walk that will be accepted. The ones
nearer the top come first. -/
structure Reads (heap : Heap F) (limits : JsonTreeLimits) (rule : FloatRule F) (label : String)
    (w : Walk F) (ts : List (Tree F)) : Prop where
  fits : List.Forall₂ (Fits heap limits rule label) w.stack ts
  nodup : (ts.flatMap Tree.ids).Nodup
  fresh : ∀ id ∈ ts.flatMap Tree.ids, id ∉ w.seenContainers
  nodes_le : w.nodes + (ts.map Tree.nodes).sum ≤ limits.maxNodes

theorem fits_scalar_iff {s : Scalar F} {depth : Nat} {t : Tree F} :
    Fits heap limits rule label (.scalar s, depth) t ↔
      t = .leaf s ∧ depth ≤ limits.maxDepth ∧ validateScalar limits rule label s = .ok () := by
  constructor
  · rintro ⟨hroot, -, hdepth, hpasses⟩
    cases t with
    | node id container children => cases hroot
    | leaf s' =>
      cases hroot
      exact ⟨rfl, hdepth, hpasses⟩
  · rintro ⟨rfl, hdepth, hpasses⟩
    exact ⟨rfl, trivial, hdepth, hpasses⟩

/-- The trees for the children that one container pushes. -/
theorem forall₂_fits_iff {values : List (Value F)} {depth : Nat} {ts : List (Tree F)} :
    List.Forall₂ (Fits heap limits rule label) (values.map fun v => (v, depth)) ts ↔
      ts.map Tree.root = values ∧ ∀ t ∈ ts, Fits heap limits rule label (t.root, depth) t := by
  constructor
  · intro h
    rw [List.forall₂_map_left_iff] at h
    induction h with
    | nil => exact ⟨rfl, fun t ht => absurd ht List.not_mem_nil⟩
    | @cons v t _ _ hfit _ ih =>
      have hv : t.root = v := hfit.root_eq
      rw [List.map_cons, ih.1, List.forall_mem_cons, hv]
      exact ⟨rfl, hfit, ih.2⟩
  · rintro ⟨rfl, hfits⟩
    rw [List.map_map, List.forall₂_map_left_iff, List.forall₂_same]
    exact hfits

theorem fits_ref_iff {id depth : Nat} {t : Tree F} :
    Fits heap limits rule label (.ref id, depth) t ↔
      ∃ children, t = .node id (heap id) children ∧ depth ≤ limits.maxDepth ∧
        validateContainer limits label (heap id) = .ok () ∧
        List.Forall₂ (Fits heap limits rule label)
          ((heap id).values.map fun child => (child, depth + 1)) children := by
  constructor
  · rintro ⟨hroot, hunfolds, hdepth, hpasses⟩
    cases t with
    | leaf s => cases hroot
    | node id' container children =>
      cases hroot
      obtain ⟨rfl, hroots, hunfolds⟩ := Tree.unfolds_node_iff.mp hunfolds
      obtain ⟨hcontainer, hpasses⟩ := Tree.holds_node_iff.mp hpasses
      have hle := Tree.depth_node_le_iff.mp (Nat.le_sub_of_add_le' hdepth)
      refine ⟨children, rfl, Nat.le_of_add_right_le hdepth, hcontainer, ?_⟩
      refine forall₂_fits_iff.mpr ⟨hroots, fun t ht => ⟨rfl, hunfolds t ht, ?_, hpasses t ht⟩⟩
      have htle := hle t ht
      change depth + 1 + t.depth ≤ limits.maxDepth
      omega
  · rintro ⟨children, rfl, hdepth, hcontainer, hfits⟩
    obtain ⟨hroots, hfits⟩ := forall₂_fits_iff.mp hfits
    have hbelow : (Tree.node id (heap id) children).depth ≤ limits.maxDepth - depth := by
      refine Tree.depth_node_le_iff.mpr fun t ht => ?_
      have htle : depth + 1 + t.depth ≤ limits.maxDepth := (hfits t ht).depth_le
      omega
    refine ⟨rfl, Tree.unfolds_node_iff.mpr ⟨rfl, hroots, fun t ht => (hfits t ht).unfolds⟩, ?_,
      Tree.holds_node_iff.mpr ⟨hcontainer, fun t ht => (hfits t ht).passes⟩⟩
    change depth + (Tree.node id (heap id) children).depth ≤ limits.maxDepth
    omega

theorem visit_scalar_ok_iff {s : Scalar F} {depth : Nat} {stack : List (Value F × Nat)}
    {w w' : Walk F} :
    visit heap limits rule label (.scalar s) depth stack w = .ok w' ↔
      w.nodes + 1 ≤ limits.maxNodes ∧ depth ≤ limits.maxDepth ∧
        validateScalar limits rule label s = .ok () ∧
        w' = { w with stack := stack, nodes := w.nodes + 1 } := by
  rw [visit]
  by_cases hnodes : limits.maxNodes < w.nodes + 1
  · rw [if_pos hnodes]
    exact iff_of_false nofun fun h => Nat.not_le.mpr hnodes h.1
  by_cases hdepth : limits.maxDepth < depth
  · rw [if_neg hnodes, if_pos hdepth]
    exact iff_of_false nofun fun h => Nat.not_le.mpr hdepth h.2.1
  rw [if_neg hnodes, if_neg hdepth]
  cases validateScalar limits rule label s with
  | error e => simp [bind, Except.bind]
  | ok u => simp [bind, Except.bind, Nat.not_lt.mp hnodes, Nat.not_lt.mp hdepth, eq_comm]

theorem visit_ref_ok_iff {id depth : Nat} {stack : List (Value F × Nat)} {w w' : Walk F} :
    visit heap limits rule label (.ref id) depth stack w = .ok w' ↔
      w.nodes + 1 ≤ limits.maxNodes ∧ depth ≤ limits.maxDepth ∧ id ∉ w.seenContainers ∧
        validateContainer limits label (heap id) = .ok () ∧
        w' = {
          stack := ((heap id).values.map fun child => (child, depth + 1)).reverse ++ stack
          seenContainers := id :: w.seenContainers
          nodes := w.nodes + 1 } := by
  rw [visit]
  by_cases hnodes : limits.maxNodes < w.nodes + 1
  · rw [if_pos hnodes]
    exact iff_of_false nofun fun h => Nat.not_le.mpr hnodes h.1
  by_cases hdepth : limits.maxDepth < depth
  · rw [if_neg hnodes, if_pos hdepth]
    exact iff_of_false nofun fun h => Nat.not_le.mpr hdepth h.2.1
  by_cases hseen : id ∈ w.seenContainers
  · simp [hnodes, hdepth, hseen]
  rw [if_neg hnodes, if_neg hdepth]
  simp only [if_neg hseen]
  cases validateContainer limits label (heap id) with
  | error e => simp [bind, Except.bind]
  | ok u => simp [bind, Except.bind, Nat.not_lt.mp hnodes, Nat.not_lt.mp hdepth, hseen, eq_comm]

/-- Entries pushed one after the other come off the stack last first. -/
theorem forall₂_pushed_iff {α β : Type} {R : α → β → Prop} {pushed stack : List α}
    {ts : List β} :
    List.Forall₂ R (pushed.reverse ++ stack) ts ↔
      ∃ children below, ts = children.reverse ++ below ∧ List.Forall₂ R pushed children ∧
        List.Forall₂ R stack below := by
  constructor
  · intro h
    have htake := List.forall₂_take pushed.reverse.length h
    have hdrop := List.forall₂_drop pushed.reverse.length h
    rw [List.take_left] at htake
    rw [List.drop_left] at hdrop
    refine ⟨(ts.take pushed.reverse.length).reverse, ts.drop pushed.reverse.length, ?_, ?_, hdrop⟩
    · rw [List.reverse_reverse, List.take_append_drop]
    · rw [← List.forall₂_reverse_iff, List.reverse_reverse]
      exact htake
  · rintro ⟨children, below, rfl, hchildren, hbelow⟩
    exact List.rel_append (List.rel_reverse hchildren) hbelow

/-- The identities and values under a container and the rest of the stack,
before and after its children are pushed. -/
theorem ids_pushed (id : Nat) (container : Container F) (children below : List (Tree F)) :
    ((Tree.node id container children :: below).flatMap Tree.ids).Perm
      (id :: (children.reverse ++ below).flatMap Tree.ids) := by
  rw [List.flatMap_cons, Tree.ids_node, List.flatMap_append, List.cons_append]
  exact ((children.reverse_perm.symm.flatMap_right _).append_right _).cons _

theorem nodes_pushed (id : Nat) (container : Container F) (children below : List (Tree F)) :
    ((Tree.node id container children :: below).map Tree.nodes).sum =
      1 + ((children.reverse ++ below).map Tree.nodes).sum := by
  rw [List.map_cons, List.sum_cons, Tree.nodes_node, List.map_append, List.sum_append,
    List.map_reverse, List.sum_reverse]
  omega

/-- What a round that does not raise leaves for the rounds after it. The
trees under the new stack are the ones under the old stack, with the popped
one replaced by its children. -/
theorem reads_iff_visit {item : Value F} {depth : Nat} {stack : List (Value F × Nat)}
    {w : Walk F} (hstack : w.stack = (item, depth) :: stack) :
    (∃ ts, Reads heap limits rule label w ts) ↔
      ∃ w', visit heap limits rule label item depth stack w = .ok w' ∧
        ∃ ts, Reads heap limits rule label w' ts := by
  cases item with
  | scalar s =>
    simp only [visit_scalar_ok_iff]
    constructor
    · rintro ⟨ts, hfits, hnodup, hfresh, hnodes⟩
      rw [hstack] at hfits
      cases hfits with
      | @cons _ t _ below hfit hbelow =>
        obtain ⟨rfl, hdepth, hscalar⟩ := fits_scalar_iff.mp hfit
        rw [List.map_cons, List.sum_cons, Tree.nodes] at hnodes
        refine ⟨_, ⟨by omega, hdepth, hscalar, rfl⟩, below, hbelow, hnodup, hfresh, ?_⟩
        change w.nodes + 1 + (below.map Tree.nodes).sum ≤ limits.maxNodes
        omega
    · rintro ⟨w', ⟨-, hdepth, hscalar, rfl⟩, below, hbelow, hnodup, hfresh, hnodes⟩
      have hnodes : w.nodes + 1 + (below.map Tree.nodes).sum ≤ limits.maxNodes := hnodes
      refine ⟨.leaf s :: below, ?_, hnodup, hfresh, ?_⟩
      · rw [hstack]
        exact .cons (fits_scalar_iff.mpr ⟨rfl, hdepth, hscalar⟩) hbelow
      · rw [List.map_cons, List.sum_cons, Tree.nodes]
        omega
  | ref id =>
    simp only [visit_ref_ok_iff]
    constructor
    · rintro ⟨ts, hfits, hnodup, hfresh, hnodes⟩
      rw [hstack] at hfits
      cases hfits with
      | @cons _ t _ below hfit hbelow =>
        obtain ⟨children, rfl, hdepth, hcontainer, hchildren⟩ := fits_ref_iff.mp hfit
        have hids := ids_pushed id (heap id) children below
        rw [nodes_pushed] at hnodes
        rw [hids.nodup_iff, List.nodup_cons] at hnodup
        have hmem : ∀ i, i = id ∨ i ∈ (children.reverse ++ below).flatMap Tree.ids →
            i ∉ w.seenContainers := fun i hi => hfresh i (hids.mem_iff.mpr (List.mem_cons.mpr hi))
        refine ⟨_, ⟨by omega, hdepth, hmem id (.inl rfl), hcontainer, rfl⟩,
          children.reverse ++ below, ?_, hnodup.2, ?_, ?_⟩
        · exact forall₂_pushed_iff.mpr ⟨children, below, rfl, hchildren, hbelow⟩
        · intro i hi hseen
          obtain rfl | hseen := List.mem_cons.mp hseen
          · exact hnodup.1 hi
          · exact hmem i (.inr hi) hseen
        · change w.nodes + 1 + ((children.reverse ++ below).map Tree.nodes).sum ≤ limits.maxNodes
          omega
    · rintro ⟨w', ⟨-, hdepth, hseen, hcontainer, rfl⟩, ts, hfits, hnodup, hfresh, hnodes⟩
      obtain ⟨children, below, rfl, hchildren, hbelow⟩ := forall₂_pushed_iff.mp hfits
      have hids := ids_pushed id (heap id) children below
      have hnodes : w.nodes + 1 + ((children.reverse ++ below).map Tree.nodes).sum ≤
        limits.maxNodes := hnodes
      refine ⟨.node id (heap id) children :: below, ?_, ?_, ?_, ?_⟩
      · rw [hstack]
        exact .cons (fits_ref_iff.mpr ⟨children, rfl, hdepth, hcontainer, hchildren⟩) hbelow
      · rw [hids.nodup_iff, List.nodup_cons]
        exact ⟨fun hi => hfresh id hi List.mem_cons_self, hnodup⟩
      · intro i hi
        obtain rfl | hi := List.mem_cons.mp (hids.mem_iff.mp hi)
        · exact hseen
        · exact fun h => hfresh i hi (List.mem_cons_of_mem _ h)
      · rw [nodes_pushed]
        omega

theorem visit_nodes {item : Value F} {depth : Nat} {stack : List (Value F × Nat)} {w w' : Walk F}
    (h : visit heap limits rule label item depth stack w = .ok w') :
    w'.nodes = w.nodes + 1 ∧ w'.nodes ≤ limits.maxNodes := by
  cases item with
  | scalar s =>
    obtain ⟨hnodes, -, -, rfl⟩ := visit_scalar_ok_iff.mp h
    exact ⟨rfl, hnodes⟩
  | ref id =>
    obtain ⟨hnodes, -, -, -, rfl⟩ := visit_ref_ok_iff.mp h
    exact ⟨rfl, hnodes⟩

/-- Every round counts a value, so the count bounds the rounds: the walk
ends on every heap, and what it says is whether there are trees to read. -/
theorem walk_spec (fuel : Nat) (w : Walk F) (hfuel : limits.maxNodes + 2 ≤ w.nodes + fuel)
    (hnodes : w.nodes ≤ limits.maxNodes) :
    ∃ result, walk heap limits rule label fuel w = some result ∧
      (result = .ok () ↔ ∃ ts, Reads heap limits rule label w ts) := by
  induction fuel generalizing w with
  | zero => omega
  | succ fuel ih =>
    cases hstack : w.stack with
    | nil =>
      refine ⟨.ok (), by rw [walk, hstack], iff_of_true rfl ⟨[], ?_, ?_, ?_, hnodes⟩⟩
      · rw [hstack]
        exact .nil
      · exact List.nodup_nil
      · exact fun id hid => absurd hid List.not_mem_nil
    | cons entry stack =>
      obtain ⟨item, depth⟩ := entry
      rw [reads_iff_visit hstack]
      cases hvisit : visit heap limits rule label item depth stack w with
      | error e =>
        refine ⟨.error e, ?_, iff_of_false nofun ?_⟩
        · simp only [walk, hstack, hvisit]
        · rintro ⟨w', h, -⟩
          cases h
      | ok w' =>
        obtain ⟨hsucc, hle⟩ := visit_nodes hvisit
        obtain ⟨result, hwalk, hresult⟩ := ih w' (by omega) hle
        refine ⟨result, ?_, hresult.trans ⟨fun h => ⟨w', rfl, h⟩, ?_⟩⟩
        · simp only [walk, hstack, hvisit, hwalk]
        · rintro ⟨w'', h, hreads⟩
          cases h
          exact hreads

theorem walk_fuel {fuel fuel' : Nat} {w : Walk F} {result : Except String Unit}
    (h : walk heap limits rule label fuel w = some result) (hle : fuel ≤ fuel') :
    walk heap limits rule label fuel' w = some result := by
  induction fuel generalizing fuel' w with
  | zero => cases h
  | succ fuel ih =>
    obtain ⟨fuel', rfl⟩ : ∃ n, fuel' = n + 1 := ⟨fuel' - 1, by omega⟩
    cases hstack : w.stack with
    | nil =>
      simp only [walk, hstack] at h ⊢
      exact h
    | cons entry stack =>
      cases hvisit : visit heap limits rule label entry.1 entry.2 stack w with
      | error e =>
        simp only [walk, hstack, hvisit] at h ⊢
        exact h
      | ok w' =>
        simp only [walk, hstack, hvisit] at h ⊢
        exact ih h (by omega)

theorem reads_start_iff {value : Value F} :
    (∃ ts, Reads heap limits rule label (Walk.start value) ts) ↔
      ∃ t : Tree F, t.Of heap value ∧ t.Within limits ∧ t.Supported rule := by
  have hscalar : (fun s => validateScalar limits rule label s = .ok ()) =
      fun s : Scalar F => s.Within limits ∧ s.Supported rule :=
    funext fun s => propext validateScalar_ok_iff
  have hcontainer : (fun c => validateContainer limits label c = .ok ()) =
      fun c : Container F => c.Within limits ∧ c.Supported :=
    funext fun c => propext validateContainer_ok_iff
  constructor
  · rintro ⟨ts, hfits, hnodup, -, hnodes⟩
    obtain ⟨t, ts, ⟨hroot, hunfolds, hdepth, hpasses⟩, hnil, rfl⟩ :=
      List.forall₂_cons_left_iff.mp hfits
    cases hnil
    rw [hscalar, hcontainer, Tree.holds_and_iff] at hpasses
    refine ⟨t, ⟨hroot, hunfolds, ?_⟩, ⟨?_, ?_, hpasses.1⟩, hpasses.2⟩
    · simpa using hnodup
    · simpa using hdepth
    · simpa [Walk.start] using hnodes
  · rintro ⟨t, ⟨rfl, hunfolds, hnodup⟩, ⟨hdepth, hnodes, hsizes⟩, hsupported⟩
    have hpasses := (Tree.holds_and_iff t).mpr ⟨hsizes, hsupported⟩
    rw [← hscalar, ← hcontainer] at hpasses
    refine ⟨[t], .cons ⟨rfl, hunfolds, ?_, hpasses⟩ .nil, ?_, fun _ _ => List.not_mem_nil, ?_⟩
    · simpa using hdepth
    · simpa using hnodup
    · simpa [Walk.start] using hnodes

end

/-- The loop of the source ends on every heap, and it ends without raising
when the value is a finite tree within the limits whose scalars and keys
are supported. -/
theorem validateJsonTree_spec (heap : Heap F) (limits : JsonTreeLimits) (rule : FloatRule F)
    (label : String) (value : Value F) :
    ∃ result, (∀ fuel, limits.maxNodes + 2 ≤ fuel →
        walk heap limits rule label fuel (Walk.start value) = some result) ∧
      (result = .ok () ↔ ∃ t : Tree F, t.Of heap value ∧ t.Within limits ∧ t.Supported rule) := by
  obtain ⟨result, hwalk, hresult⟩ := @walk_spec F heap limits rule label (limits.maxNodes + 2)
    (Walk.start value) (Nat.le_add_left _ _) (Nat.zero_le _)
  exact ⟨result, fun fuel hfuel => walk_fuel hwalk hfuel, hresult.trans reads_start_iff⟩

/-- A list that holds itself is refused, however deep trees may be. -/
example : walk (fun _ => .list [.ref 0]) { federationJsonLimits with maxDepth := 1000 }
    ⟨false, fun _ : Unit => true⟩ "body" 3 (Walk.start (.ref 0)) =
      some (.error "body contains a cyclic or shared container") := by decide

/-- The integer 2^53 is a tree of one value, within every limit, and the
walk raises: the limits are not all that it asks. -/
theorem limits_not_enough :
    ¬ ∀ (heap : Heap Unit) (limits : JsonTreeLimits) (rule : FloatRule Unit) (label : String)
      (value : Value Unit), ∃ result, (∀ fuel, limits.maxNodes + 2 ≤ fuel →
          walk heap limits rule label fuel (Walk.start value) = some result) ∧
        (result = .ok () ↔ ∃ t : Tree Unit, t.Of heap value ∧ t.Within limits) := by
  intro h
  obtain ⟨result, hwalk, hresult⟩ := h (fun _ => .list []) federationJsonLimits
    ⟨false, fun _ => true⟩ "body" (.scalar (.int (2 ^ 53)))
  have hrefused : result = .error "body integer is outside the supported range" := by
    have := hwalk _ (Nat.le_refl _)
    exact Option.some_inj.mp (this.symm.trans rfl)
  have haccepted : result = .ok () := by
    refine hresult.mpr ⟨.leaf (.int (2 ^ 53)), ⟨rfl, trivial, List.nodup_nil⟩, ?_, ?_, trivial⟩
    · exact Nat.zero_le _
    · exact Nat.le_of_ble_eq_true rfl
  rw [hrefused] at haccepted
  cases haccepted

end JsonWalk

end Kaede
