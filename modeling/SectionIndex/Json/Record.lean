import SectionIndex.Json.Value

/-!
# Records

Objects with fixed members. A member with no proper value is reported by its name, and all of them
are reported together, so reading a record either gives all its fields or the names of the faulty
ones in alphabetical order.

## Main definitions

* `Json.record` — an object with these members.
* `Json.Members.required?`, `Json.Members.optional?` — the value of one field.
* `Json.faultyNames` — the names of the fields without proper values.
-/

namespace SectionIndex

namespace Json

/-- An object with these members. -/
def record (members : List (String × Json)) : Members :=
  members.map fun (key, value) => ((key : Points), value)

/-- **A field that must be there.** -/
def Members.required? {α : Type} (members : Members) (name : Text) (read : Json → Option α) :
    Option α :=
  (members.get? name).bind read

/-- **A field that can be missing**, and its value then. -/
def Members.optional? {α : Type} (members : Members) (name : Text) (read : Json → Option α)
    (default : α) : Option α :=
  match members.get? name with
  | none => some default
  | some value => read value

/-- Names in alphabetical order. -/
def sortNames (names : List Text) : List Text :=
  names.mergeSort Text.isAtMost

/-- **The names of the faulty fields**, in alphabetical order, given all names and which of the
fields are proper. -/
def faultyNames (fields : List (String × Bool)) : List Text :=
  sortNames ((fields.filter fun (_, isProper) => !isProper).map fun (name, _) => name.toList)

/-- The full name of a field of a record that has a name itself. -/
def fieldOf (name field : Text) : Text :=
  name ++ '.' :: field

/-- The names of faulty fields, none if there is a value. -/
def namesOf {α : Type} : Except (List Text) α → List Text
  | .ok _ => []
  | .error names => names

end Json

end SectionIndex
