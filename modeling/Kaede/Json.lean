import Mathlib.Data.List.Perm.Subperm
import Kaede.PoolSort

/-!
# JSON trees

The values that Python's `json` module reads and writes. A dict is the list
of its members in insertion order, and two dicts are equal when they have
the same members in any order; `Same` is that equality, for whole trees.
Floats are left to a type parameter.

`sorted` puts the members of every object into the order of their keys.
`same_iff` makes it a normal form: trees whose objects have no key twice
are the same exactly when their sorted forms are equal.
-/

namespace Kaede

inductive Json (F : Type) where
  | null
  | bool (b : Bool)
  | int (n : Int)
  | float (x : F)
  | str (s : String)
  | arr (items : List (Json F))
  | obj (members : List (String × Json F))

namespace Json

variable {F : Type}

/-- Induction over a tree, with the hypothesis for every item and member. -/
theorem tree_induction {motive : Json F → Prop} (null : motive .null) (bool : ∀ b, motive (.bool b))
    (int : ∀ n, motive (.int n)) (float : ∀ x, motive (.float x)) (str : ∀ s, motive (.str s))
    (arr : ∀ items, (∀ v ∈ items, motive v) → motive (.arr items))
    (obj : ∀ members, (∀ m ∈ members, motive m.2) → motive (.obj members)) (v : Json F) :
    motive v := by
  refine @Json.rec F motive (fun items => ∀ v ∈ items, motive v)
    (fun members => ∀ m ∈ members, motive m.2) (fun m => motive m.2)
    null bool int float str arr obj ?_ ?_ ?_ ?_ ?_ v
  · exact fun v hv => absurd hv List.not_mem_nil
  · exact fun head tail hhead htail => List.forall_mem_cons.mpr ⟨hhead, htail⟩
  · exact fun m hm => absurd hm List.not_mem_nil
  · exact fun head tail hhead htail => List.forall_mem_cons.mpr ⟨hhead, htail⟩
  · exact fun _ _ h => h

/-! ## Members -/

/-- The member of a dict under a key. -/
def get? (v : Json F) (key : String) : Option (Json F) :=
  match v with
  | .obj members => members.lookup key
  | _ => none

/-- `v.get(key)`; an absent member and a null one are the same. -/
def get (v : Json F) (key : String) : Json F := (v.get? key).getD .null

def isObj : Json F → Bool
  | .obj _ => true
  | _ => false

def isBool : Json F → Bool
  | .bool _ => true
  | _ => false

def isTrue : Json F → Bool
  | .bool b => b
  | _ => false

def isNull : Json F → Bool
  | .null => true
  | _ => false

def str? : Json F → Option String
  | .str s => some s
  | _ => none

/-! ## Equality up to the order of members -/

mutual

/-- Python's `==` between values of one type. -/
def Same : Json F → Json F → Prop
  | .null, .null => True
  | .bool a, .bool b => a = b
  | .int a, .int b => a = b
  | .float a, .float b => a = b
  | .str a, .str b => a = b
  | .arr as, .arr bs => SameItems as bs
  | .obj as, .obj bs => as.length = bs.length ∧ HasMembers as bs
  | _, _ => False

def SameItems : List (Json F) → List (Json F) → Prop
  | [], [] => True
  | a :: as, b :: bs => a.Same b ∧ SameItems as bs
  | _, _ => False

/-- Every member of the first dict is in the second. -/
def HasMembers : List (String × Json F) → List (String × Json F) → Prop
  | [], _ => True
  | (key, a) :: as, bs => (∃ b, (key, b) ∈ bs ∧ a.Same b) ∧ HasMembers as bs

end

mutual

/-- No object has a key twice; a dict cannot. -/
def Distinct : Json F → Prop
  | .arr items => DistinctItems items
  | .obj members => (members.map Prod.fst).Nodup ∧ DistinctMembers members
  | _ => True

def DistinctItems : List (Json F) → Prop
  | [] => True
  | v :: vs => v.Distinct ∧ DistinctItems vs

def DistinctMembers : List (String × Json F) → Prop
  | [] => True
  | (_, v) :: ms => v.Distinct ∧ DistinctMembers ms

end

/-- The order of members that `sort_keys` asks for. -/
def ByKey (a b : String × Json F) : Prop := a.1 ≤ b.1

instance : DecidableRel (@ByKey F) := fun a b => inferInstanceAs (Decidable (a.1 ≤ b.1))

mutual

/-- The tree with the members of every object in the order of their keys. -/
def sorted : Json F → Json F
  | .arr items => .arr (sortedItems items)
  | .obj members => .obj ((sortedMembers members).insertionSort ByKey)
  | v => v

def sortedItems : List (Json F) → List (Json F)
  | [] => []
  | v :: vs => v.sorted :: sortedItems vs

def sortedMembers : List (String × Json F) → List (String × Json F)
  | [] => []
  | (key, v) :: ms => (key, v.sorted) :: sortedMembers ms

end

section

variable {items : List (Json F)} {members as bs : List (String × Json F)} {v w : Json F}

theorem distinctItems_iff : DistinctItems items ↔ ∀ v ∈ items, v.Distinct := by
  induction items with
  | nil => simp [DistinctItems]
  | cons v vs ih => rw [DistinctItems, ih, List.forall_mem_cons]

theorem distinctMembers_iff : DistinctMembers members ↔ ∀ m ∈ members, m.2.Distinct := by
  induction members with
  | nil => simp [DistinctMembers]
  | cons m ms ih => rw [DistinctMembers, ih, List.forall_mem_cons]

theorem sortedItems_eq : sortedItems items = items.map sorted := by
  induction items with
  | nil => rfl
  | cons v vs ih => rw [sortedItems, ih, List.map_cons]

theorem sortedMembers_eq : sortedMembers members = members.map fun m => (m.1, m.2.sorted) := by
  induction members with
  | nil => rfl
  | cons m ms ih => rw [sortedMembers, ih, List.map_cons]

theorem hasMembers_iff :
    HasMembers as bs ↔ ∀ a ∈ as, ∃ b, (a.1, b) ∈ bs ∧ a.2.Same b := by
  induction as with
  | nil => simp [HasMembers]
  | cons m ms ih => rw [HasMembers, ih, List.forall_mem_cons]

/-- The members of an object and of its sorted form. -/
theorem sorted_members_perm (members : List (String × Json F)) :
    ((sortedMembers members).insertionSort ByKey).Perm
      (members.map fun m => (m.1, m.2.sorted)) := by
  rw [← sortedMembers_eq]
  exact List.perm_insertionSort _ _

theorem sorted_keys_perm (members : List (String × Json F)) :
    (((sortedMembers members).insertionSort ByKey).map Prod.fst).Perm
      (members.map Prod.fst) := by
  have h := (sorted_members_perm members).map Prod.fst
  rwa [List.map_map] at h

theorem Distinct.sorted (h : v.Distinct) : v.sorted.Distinct := by
  induction v using tree_induction with
  | null | bool | int | float | str => exact trivial
  | arr items ih =>
    rw [Json.sorted, Distinct, distinctItems_iff, sortedItems_eq]
    rw [Distinct, distinctItems_iff] at h
    simp only [List.mem_map, forall_exists_index, and_imp, forall_apply_eq_imp_iff₂]
    exact fun v hv => ih v hv (h v hv)
  | obj members ih =>
    rw [Json.sorted, Distinct, distinctMembers_iff]
    rw [Distinct, distinctMembers_iff] at h
    refine ⟨(sorted_keys_perm members).nodup_iff.mpr h.1, fun m hm => ?_⟩
    obtain ⟨m', hm', rfl⟩ := List.mem_map.mp ((sorted_members_perm members).mem_iff.mp hm)
    exact ih m' hm' (h.2 m' hm')

/-- A list of members with different keys is sorted in one way. -/
theorem sort_eq_of_perm (hkeys : (bs.map Prod.fst).Nodup) (hperm : as.Perm bs) :
    as.insertionSort ByKey = bs.insertionSort ByKey := by
  refine PoolSort.insertionSort_eq_of_perm (p := (· ∈ bs)) ?_ ?_ ?_ (fun _ h => h) hperm
  · exact fun a b _ _ => String.le_total a.1 b.1
  · exact fun a b c _ _ _ => String.le_trans
  · intro a b ha hb hab hba
    exact List.inj_on_of_nodup_map hkeys ha hb (String.le_antisymm hab hba)

theorem pairwise_byKey (members : List (String × Json F)) :
    (members.insertionSort ByKey).Pairwise ByKey := by
  refine PoolSort.pairwise_insertionSort_of_mem (p := fun _ => True) ?_ ?_ fun _ _ => trivial
  · exact fun a b _ _ => String.le_total a.1 b.1
  · exact fun _ _ _ _ _ _ => String.le_trans

theorem sorted_sorted (v : Json F) : v.sorted.sorted = v.sorted := by
  induction v using tree_induction with
  | null | bool | int | float | str => rfl
  | arr items ih =>
    simp only [sorted, sortedItems_eq, List.map_map, Json.arr.injEq]
    exact List.map_congr_left ih
  | obj members ih =>
    have hmap : members.map ((fun m => (m.1, m.2.sorted)) ∘ fun m => (m.1, m.2.sorted)) =
        members.map fun m => (m.1, m.2.sorted) :=
      List.map_congr_left fun m hm => Prod.ext rfl (ih m hm)
    have hsort : ∀ ms : List (String × Json F),
        (ms.insertionSort ByKey).map (fun m => (m.1, m.2.sorted)) =
          (ms.map fun m => (m.1, m.2.sorted)).insertionSort ByKey :=
      fun ms => List.map_insertionSort ByKey ByKey _ ms fun _ _ _ _ => Iff.rfl
    rw [sorted, sorted, sortedMembers_eq, sortedMembers_eq, hsort, List.map_map, hmap]
    exact congrArg Json.obj (pairwise_byKey _).insertionSort_eq

theorem sameItems_of_map_eq {as bs : List (Json F)}
    (ih : ∀ a ∈ as, ∀ b : Json F, a.sorted = b.sorted → a.Same b)
    (h : as.map sorted = bs.map sorted) : SameItems as bs := by
  induction as generalizing bs with
  | nil =>
    rw [List.map_nil, eq_comm, List.map_eq_nil_iff] at h
    rw [h]
    exact trivial
  | cons a as iha =>
    cases bs with
    | nil => cases h
    | cons b bs =>
      obtain ⟨hhead, htail⟩ := List.cons.inj h
      obtain ⟨iha', ihas⟩ := List.forall_mem_cons.mp ih
      exact ⟨iha' b hhead, iha ihas htail⟩

/-- Trees with equal sorted forms are the same. -/
theorem same_of_sorted_eq (h : v.sorted = w.sorted) : v.Same w := by
  induction v using tree_induction generalizing w with
  | null => cases w <;> simp_all [sorted, Same]
  | bool | int | float | str => cases w <;> simp_all [sorted, Same]
  | arr items ih =>
    cases w with
    | null | bool | int | float | str | obj => simp [sorted] at h
    | arr items' =>
      rw [sorted, sorted, Json.arr.injEq, sortedItems_eq, sortedItems_eq] at h
      exact sameItems_of_map_eq (fun a ha b => ih a ha) h
  | obj members ih =>
    cases w with
    | null | bool | int | float | str | arr => simp [sorted] at h
    | obj members' =>
      rw [sorted, sorted, Json.obj.injEq] at h
      have hperm := (sorted_members_perm members).symm.trans
        (h ▸ sorted_members_perm members')
      refine ⟨by simpa using hperm.length_eq, hasMembers_iff.mpr fun m hm => ?_⟩
      -- the sorted member is one of the other object too
      obtain ⟨m', hm', heq⟩ := List.mem_map.mp (hperm.mem_iff.mp (List.mem_map_of_mem hm))
      obtain ⟨hkey, hvalue⟩ := Prod.mk.inj heq
      exact ⟨m'.2, hkey ▸ hm', ih m hm hvalue.symm⟩

theorem sortedItems_eq_of_same {as bs : List (Json F)}
    (ih : ∀ a ∈ as, ∀ b ∈ bs, a.Same b → a.sorted = b.sorted) (h : SameItems as bs) :
    sortedItems as = sortedItems bs := by
  induction as generalizing bs with
  | nil =>
    cases bs with
    | nil => rfl
    | cons b bs => exact h.elim
  | cons a as iha =>
    cases bs with
    | nil => exact h.elim
    | cons b bs =>
      rw [sortedItems, sortedItems, ih a List.mem_cons_self b List.mem_cons_self h.1]
      rw [iha (fun x hx y hy => ih x (List.mem_cons_of_mem _ hx) y (List.mem_cons_of_mem _ hy)) h.2]

/-- Same trees have equal sorted forms. -/
theorem Same.sorted_eq (hv : v.Distinct) (hw : w.Distinct) (h : v.Same w) :
    v.sorted = w.sorted := by
  induction v using tree_induction generalizing w with
  | null => cases w <;> simp_all [Json.sorted, Same]
  | bool | int | float | str => cases w <;> simp_all [Json.sorted, Same]
  | arr items ih =>
    cases w with
    | null | bool | int | float | str | obj => exact h.elim
    | arr items' =>
      rw [Distinct, distinctItems_iff] at hv hw
      rw [Json.sorted, Json.sorted, Json.arr.injEq]
      exact sortedItems_eq_of_same (fun a ha b hb => ih a ha (hv a ha) (hw b hb)) h
  | obj members ih =>
    cases w with
    | null | bool | int | float | str | arr => exact h.elim
    | obj members' =>
      rw [Distinct, distinctMembers_iff] at hv hw
      obtain ⟨hlen, hmem⟩ := h
      rw [hasMembers_iff] at hmem
      rw [Json.sorted, Json.sorted, Json.obj.injEq, sortedMembers_eq, sortedMembers_eq]
      have hkeys : ∀ ms : List (String × Json F),
          (ms.map fun m => (m.1, m.2.sorted)).map Prod.fst = ms.map Prod.fst := by
        intro ms
        rw [List.map_map]
        rfl
      have hsub : members.map (fun m => (m.1, m.2.sorted)) ⊆
          members'.map fun m => (m.1, m.2.sorted) := by
        intro m' hm'
        obtain ⟨m, hm, rfl⟩ := List.mem_map.mp hm'
        obtain ⟨b, hb, hsame⟩ := hmem m hm
        rw [ih m hm (hv.2 m hm) (hw.2 _ hb) hsame]
        exact List.mem_map_of_mem hb
      have hnodup : (members.map fun m => (m.1, m.2.sorted)).Nodup :=
        List.Nodup.of_map Prod.fst (hkeys members ▸ hv.1)
      refine sort_eq_of_perm (hkeys members' ▸ hw.1) ?_
      refine (List.subperm_of_subset hnodup hsub).perm_of_length_le ?_
      rw [List.length_map, List.length_map, hlen]

theorem same_iff (hv : v.Distinct) (hw : w.Distinct) : v.Same w ↔ v.sorted = w.sorted :=
  ⟨fun h => h.sorted_eq hv hw, same_of_sorted_eq⟩

end

/-! ## The test for equality -/

theorem lookup_of_mem {members : List (String × Json F)} (hkeys : (members.map Prod.fst).Nodup)
    {m : String × Json F} (hm : m ∈ members) : members.lookup m.1 = some m.2 := by
  induction members with
  | nil => cases hm
  | cons head tail ih =>
    rw [List.map_cons, List.nodup_cons] at hkeys
    rcases List.mem_cons.mp hm with rfl | hm
    · exact List.lookup_cons_self
    · have hne : (m.1 == head.1) = false := by
        rw [beq_eq_false_iff_ne]
        exact fun h => hkeys.1 (h ▸ List.mem_map_of_mem hm)
      rw [List.lookup_cons, hne]
      exact ih hkeys.2 hm

section

variable [DecidableEq F]

mutual

/-- Python's `==`, for which `True` is `1`. A float is equal to no integer
here; the trees that are compared have none. -/
def equal : Json F → Json F → Bool
  | .null, .null => true
  | .bool a, .bool b => a = b
  | .bool a, .int n => n = a.toInt
  | .int n, .bool a => n = a.toInt
  | .int a, .int b => a = b
  | .float a, .float b => a = b
  | .str a, .str b => a = b
  | .arr as, .arr bs => equalItems as bs
  | .obj as, .obj bs => as.length = bs.length && equalMembers as bs
  | _, _ => false

def equalItems : List (Json F) → List (Json F) → Bool
  | [], [] => true
  | a :: as, b :: bs => a.equal b && equalItems as bs
  | _, _ => false

def equalMembers : List (String × Json F) → List (String × Json F) → Bool
  | [], _ => true
  | (key, a) :: as, bs =>
      (match bs.lookup key with
        | some b => a.equal b
        | none => false) && equalMembers as bs

end

theorem equalItems_self {items : List (Json F)} (h : ∀ v ∈ items, v.equal v = true) :
    equalItems items items = true := by
  induction items with
  | nil => rfl
  | cons v vs ih =>
    obtain ⟨hv, hvs⟩ := List.forall_mem_cons.mp h
    rw [equalItems, hv, ih hvs, Bool.and_true]

theorem equalMembers_self {members as : List (String × Json F)}
    (hkeys : (members.map Prod.fst).Nodup) (hsub : as ⊆ members)
    (h : ∀ m ∈ members, m.2.equal m.2 = true) : equalMembers as members = true := by
  induction as with
  | nil => rfl
  | cons m ms ih =>
    obtain ⟨hm, hms⟩ := List.cons_subset.mp hsub
    rw [equalMembers, lookup_of_mem hkeys hm, ih hms, Bool.and_true]
    exact h m hm

theorem equal_self {v : Json F} (h : v.Distinct) : v.equal v = true := by
  induction v using tree_induction with
  | null => rfl
  | bool | int | float | str => simp [equal]
  | arr items ih =>
    rw [Distinct, distinctItems_iff] at h
    exact equalItems_self fun v hv => ih v hv (h v hv)
  | obj members ih =>
    rw [Distinct, distinctMembers_iff] at h
    rw [equal, equalMembers_self h.1 (List.Subset.refl _) fun m hm => ih m hm (h.2 m hm)]
    simp

end

end Json

end Kaede
