import SectionIndex.Number.Binary
import SectionIndex.Text.Points

/-!
# JSON values

The values that messages are made of. Members of an object keep their order, and a number with a
fraction or an exponent is kept apart from a whole number, as it is rounded and written differently.

## Main definitions

* `Json`, `Json.Members.get?`, `Json.Members.put`.
* `Json.isTruthy` — the values that count as given.
* `Json.nesting` — how deep brackets stand inside each other.
* `Json.texts` — all texts in a value.
-/

namespace SectionIndex

/-- The two kinds of brackets: around arrays and around objects. -/
inductive Json.Bracket
  | square
  | curly
  deriving DecidableEq, Repr

/-- **A JSON value.** -/
inductive Json
  | null
  | bool (b : Bool)
  | int (n : Int)
  /-- A number written with a fraction or an exponent, or one of the words for no number. -/
  | binary (x : Binary)
  | str (points : Points)
  | arr (items : List Json)
  | obj (members : List (Points × Json))
  deriving Repr, Inhabited

namespace Json

/-- The members of an object. -/
abbrev Members := List (Points × Json)

/-- The value of a member. -/
def Members.get? (members : Members) (key : Text) : Option Json :=
  members.lookup (key : Points)

/-- Does the object have the member? -/
def Members.has (members : Members) (key : Text) : Bool :=
  (members.get? key).isSome

/-- **Puts a member into an object.** A key keeps the place of its first value and takes the
last. -/
def Members.put (key : Points) (value : Json) : Members → Members
  | [] => [(key, value)]
  | (k, v) :: members =>
    if k = key then (k, value) :: members else (k, v) :: Members.put key value members

/-- A text. -/
def text (t : Text) : Json :=
  .str t

/-- Any text, or null for none. -/
def ofText? (t : Option Text) : Json :=
  t.elim .null text

/-- Any number, or null for none. -/
def ofInt? (n : Option Int) : Json :=
  n.elim .null .int

/-- A natural number. -/
def nat (n : Nat) : Json :=
  .int n

/-- **The values that count as given:** not null, false, zero, or empty. -/
def isTruthy : Json → Bool
  | .null => false
  | .bool b => b
  | .int n => n != 0
  | .binary x => !x.isZero
  | .str points => !points.isEmpty
  | .arr items => !items.isEmpty
  | .obj members => !members.isEmpty

/-- The value is null. -/
def isNull : Json → Bool
  | .null => true
  | _ => false

mutual

/-- **How deep brackets stand inside each other** when the value is written. -/
def nesting : Json → Nat
  | .arr items => nestingOfItems items + 1
  | .obj members => nestingOfMembers members + 1
  | _ => 0

/-- The same for items. -/
def nestingOfItems : List Json → Nat
  | [] => 0
  | item :: items => max (nesting item) (nestingOfItems items)

/-- The same for members. -/
def nestingOfMembers : List (Points × Json) → Nat
  | [] => 0
  | (_, value) :: members => max (nesting value) (nestingOfMembers members)

end

mutual

/-- **All texts in a value:** the keys of objects are among them. -/
def texts : Json → List Points
  | .str points => [points]
  | .arr items => textsOfItems items
  | .obj members => textsOfMembers members
  | _ => []

/-- The same for items. -/
def textsOfItems : List Json → List Points
  | [] => []
  | item :: items => texts item ++ textsOfItems items

/-- The same for members. -/
def textsOfMembers : List (Points × Json) → List Points
  | [] => []
  | (key, value) :: members => key :: (texts value ++ textsOfMembers members)

end

theorem nesting_arr_le_iff {items : List Json} {n : Nat} :
    nesting (.arr items) ≤ n + 1 ↔ ∀ item ∈ items, item.nesting ≤ n := by
  rw [nesting, Nat.add_le_add_iff_right]
  induction items with
  | nil => exact ⟨fun _ => List.forall_mem_nil _, fun _ => Nat.zero_le n⟩
  | cons item items ih => rw [nestingOfItems, Nat.max_le, ih, List.forall_mem_cons]

theorem nesting_obj_le_iff {members : Members} {n : Nat} :
    nesting (.obj members) ≤ n + 1 ↔ ∀ member ∈ members, member.2.nesting ≤ n := by
  rw [nesting, Nat.add_le_add_iff_right]
  induction members with
  | nil => exact ⟨fun _ => List.forall_mem_nil _, fun _ => Nat.zero_le n⟩
  | cons member members ih => rw [nestingOfMembers, Nat.max_le, ih, List.forall_mem_cons]

theorem Members.get?_put_self (key : Text) (value : Json) (members : Members) :
    (members.put key value).get? key = some value := by
  induction members with
  | nil => simp [Members.put, Members.get?]
  | cons member members ih =>
    obtain ⟨k, v⟩ := member
    unfold Members.put
    split
    · rename_i h; simp [Members.get?, h]
    · rename_i h
      have hne : (key == k) = false := by simpa using Ne.symm h
      simpa [Members.get?, List.lookup_cons, hne] using ih

end Json

end SectionIndex
