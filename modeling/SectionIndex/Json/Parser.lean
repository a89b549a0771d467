import SectionIndex.Json.Value
import SectionIndex.Text.Numeral

/-!
# Reading JSON

A strict reader: no control characters in texts, no commas before closing brackets, no leading
zeros. Beyond the standard it reads the three numbers that are none, and halves of surrogate pairs.
Of two members with one key the last counts. Brackets may stand inside each other up to a depth.

## Main definitions

* `Json.parse` — the value of a text.
* `Json.ParseFault` — why there is none.
-/

namespace SectionIndex

namespace Json

/-- **Why there is no value:** it is not JSON, it holds a whole number of too many digits, or a
bracket stands inside too many others. -/
inductive ParseFault
  | malformed
  | numberTooLong (digits : Nat)
  | tooDeep (bracket : Bracket)
  deriving DecidableEq, Repr

/-- A reader: what stands at the start of a text and what follows it. -/
abbrev Reading (α : Type) : Type := Except ParseFault (α × Points)

/-- White space between values. -/
def isSpace (p : CodePoint) : Bool :=
  p == .char ' ' || p == .char '\t' || p == .char '\n' || p == .char '\r'

/-- What follows the white space at the start. -/
def skipSpace (t : Points) : Points :=
  t.dropWhile isSpace

/-- The value of a hexadecimal digit. -/
def hexValue? : CodePoint → Option Nat
  | .char c =>
    if '0' ≤ c ∧ c ≤ '9' then some (c.toNat - '0'.toNat)
    else if 'a' ≤ c ∧ c ≤ 'f' then some (c.toNat - 'a'.toNat + 10)
    else if 'A' ≤ c ∧ c ≤ 'F' then some (c.toNat - 'A'.toNat + 10)
    else none
  | .surrogate _ => none

/-- The 16-bit unit of four hexadecimal digits. -/
def hexUnit? (a b c d : CodePoint) : Option Nat := do
  return ((← hexValue? a) * 16 + (← hexValue? b)) * 256 + (← hexValue? c) * 16 + (← hexValue? d)

/-- The unit that is written as an escape at the start, and what follows it. -/
def unitEscape? : Points → Option (Nat × Points)
  | .char '\\' :: .char 'u' :: a :: b :: c :: d :: t => (hexUnit? a b c d).map (·, t)
  | _ => none

/-- The character a letter stands for after a backslash. -/
def escapedChar? : Char → Option Char
  | '"' => some '"'
  | '\\' => some '\\'
  | '/' => some '/'
  | 'b' => some '\x08'
  | 'f' => some '\x0c'
  | 'n' => some '\n'
  | 'r' => some '\r'
  | 't' => some '\t'
  | _ => none

/-- The code point that is written as an escape at the start, and what follows it. Two halves of a
surrogate pair that are written next to each other are one character. -/
def escape? (t : Points) : Option (CodePoint × Points) :=
  match unitEscape? t with
  | some (first, rest) =>
    match unitEscape? rest with
    | some (second, afterPair) =>
      match pairedChar? first second with
      | some c => some (.char c, afterPair)
      -- the second escape is read again by itself, as it may be the first half of a pair
      | none => some (.ofNat first, rest)
    | none => some (.ofNat first, rest)
  | none =>
    match t with
    | .char '\\' :: .char e :: rest => (escapedChar? e).map fun c => (.char c, rest)
    | _ => none

theorem length_of_unitEscape? {t rest : Points} {unit : Nat}
    (h : unitEscape? t = some (unit, rest)) : rest.length < t.length := by
  unfold unitEscape? at h
  split at h
  · obtain ⟨_, _, h⟩ := Option.map_eq_some_iff.1 h
    obtain ⟨_, rfl⟩ := Prod.mk.inj h
    simp only [List.length_cons]
    omega
  · simp at h

/-- An escape takes at least one code point. -/
theorem length_of_escape? {t rest : Points} {p : CodePoint}
    (h : escape? t = some (p, rest)) : rest.length < t.length := by
  unfold escape? at h
  split at h
  · rename_i hfirst
    have hfirst := length_of_unitEscape? hfirst
    split at h
    · rename_i hsecond
      have hsecond := length_of_unitEscape? hsecond
      split at h <;> (obtain ⟨_, rfl⟩ := Prod.mk.inj (Option.some.inj h); omega)
    · obtain ⟨_, rfl⟩ := Prod.mk.inj (Option.some.inj h); omega
  · split at h
    · obtain ⟨_, _, h⟩ := Option.map_eq_some_iff.1 h
      obtain ⟨_, rfl⟩ := Prod.mk.inj h
      simp only [List.length_cons]
      omega
    · simp at h

/-- A text after its opening quote; `seen` comes before it, the latest first. -/
def parseChars (seen : Points) (t : Points) : Reading Points :=
  match t with
  | [] => .error .malformed
  | .char '"' :: rest => .ok (seen.reverse, rest)
  | .char '\\' :: rest =>
    match _h : escape? (.char '\\' :: rest) with
    | some (p, rest) => parseChars (p :: seen) rest
    | none => .error .malformed
  | .char c :: rest => if c < ' ' then .error .malformed else parseChars (.char c :: seen) rest
  | .surrogate unit :: rest => parseChars (.surrogate unit :: seen) rest
termination_by t.length
decreasing_by
  all_goals first
    | exact length_of_escape? _h
    | simp

/-- The digits at the start, and what follows them; `seen` comes before them, the latest first. -/
def takeDigits (seen : Text) : Points → Text × Points
  | .char c :: t => if c.isDigit then takeDigits (c :: seen) t else (seen.reverse, .char c :: t)
  | t => (seen.reverse, t)

/-- The digits of a fraction at the start, and what follows it; there is no fraction without
digits. -/
def takeFraction (t : Points) : Text × Points :=
  match t with
  | .char '.' :: afterPoint =>
    match takeDigits [] afterPoint with
    | ([], _) => ([], t)
    | found => found
  | _ => ([], t)

/-- The sign of an exponent at the start, as a factor, and what follows it. -/
def takeSign : Points → Int × Points
  | .char '-' :: t => (-1, t)
  | .char '+' :: t => (1, t)
  | t => (1, t)

/-- The exponent at the start, if there is one, and what follows it. -/
def takeExponent (t : Points) : Option Int × Points :=
  match t with
  | .char 'e' :: afterMark | .char 'E' :: afterMark =>
    let (sign, afterSign) := takeSign afterMark
    match takeDigits [] afterSign with
    | ([], _) => (none, t)
    | (digits, rest) => (some (sign * Nat.ofDigitChars 10 digits 0), rest)
  | _ => (none, t)

/-- The digits before a point at the start, and what follows them. No other digit follows a
zero. -/
def takeWhole : Points → Text × Points
  | .char '0' :: t => (['0'], t)
  | t => takeDigits [] t

/-- A number without its sign. -/
def parseUnsigned (negative : Bool) (t : Points) : Reading Json :=
  let (whole, afterWhole) := takeWhole t
  let (fraction, afterFraction) := takeFraction afterWhole
  let (exponent, rest) := takeExponent afterFraction
  -- a number without fraction and exponent is whole and has no greatest value, only a length
  if whole = [] then .error .malformed
  else if fraction = [] ∧ exponent = none then
    if maxDigits < whole.length then .error (.numberTooLong whole.length)
    else
      let n : Nat := Nat.ofDigitChars 10 whole 0
      .ok (.int (if negative then -(n : Int) else n), rest)
  else
    .ok (.binary (.ofNumeral negative (whole ++ fraction) (exponent.getD 0 - fraction.length)),
      rest)

/-- A number. -/
def parseNumber : Points → Reading Json
  | .char '-' :: t => parseUnsigned true t
  | t => parseUnsigned false t

/-- The words that are values. -/
def words : List (String × Json) :=
  [("null", .null), ("true", .bool true), ("false", .bool false), ("NaN", .binary .notANumber),
   ("Infinity", .binary (.infinite false)), ("-Infinity", .binary (.infinite true))]

/-- The value of the word at the start, if there is one, and what follows it. -/
def takeWord? (t : Points) : Option (Json × Points) :=
  words.findSome? fun (word, value) =>
    let points : Points := word.toList
    if points.isPrefixOf t then some (value, t.drop points.length) else none

/-- A value without brackets. -/
def parsePlain (t : Points) : Reading Json :=
  match t with
  | .char '"' :: t => (parseChars [] t).map fun (points, rest) => (.str points, rest)
  | _ =>
    match takeWord? t with
    | some found => .ok found
    | none => parseNumber t

mutual

/-- The value at the start, in which brackets stand inside each other at most `depth` deep. Each
step inside it takes `fuel`, of which there is enough. -/
def parseValue (depth : Nat) : (fuel : Nat) → Points → Reading Json
  | 0, _ => .error .malformed
  | fuel + 1, .char '[' :: t =>
    match depth with
    | 0 => .error (.tooDeep .square)
    | depth + 1 =>
      match skipSpace t with
      | .char ']' :: rest => .ok (.arr [], rest)
      | t => parseItems depth fuel [] t
  | fuel + 1, .char '\x7b' :: t =>
    match depth with
    | 0 => .error (.tooDeep .curly)
    | depth + 1 =>
      match skipSpace t with
      | .char '\x7d' :: rest => .ok (.obj [], rest)
      | t => parseMembers depth fuel [] t
  | _ + 1, t => parsePlain t

/-- An array from its next item on; the items `seen` come before it, the latest first. -/
def parseItems (depth : Nat) : (fuel : Nat) → (seen : List Json) → Points → Reading Json
  | 0, _, _ => .error .malformed
  | fuel + 1, seen, t =>
    match parseValue depth fuel t with
    | .error fault => .error fault
    | .ok (item, rest) =>
      match skipSpace rest with
      | .char ']' :: rest => .ok (.arr (item :: seen).reverse, rest)
      | .char ',' :: rest => parseItems depth fuel (item :: seen) (skipSpace rest)
      | _ => .error .malformed

/-- An object from its next member on, which is put to the members `seen`. -/
def parseMembers (depth : Nat) : (fuel : Nat) → (seen : Members) → Points → Reading Json
  | 0, _, _ => .error .malformed
  | fuel + 1, seen, .char '"' :: t =>
    match parseChars [] t with
    | .error fault => .error fault
    | .ok (key, rest) =>
      match skipSpace rest with
      | .char ':' :: rest =>
        match parseValue depth fuel (skipSpace rest) with
        | .error fault => .error fault
        | .ok (value, rest) =>
          match skipSpace rest with
          | .char '\x7d' :: rest => .ok (.obj (seen.put key value), rest)
          | .char ',' :: rest => parseMembers depth fuel (seen.put key value) (skipSpace rest)
          | _ => .error .malformed
      | _ => .error .malformed
  | _ + 1, _, _ => .error .malformed

end

/-- **The value of a text**, in which brackets stand inside each other at most `depth` deep. A value
has fewer parts than code points, so twice their number is fuel enough. -/
def parse (depth : Nat) (t : Points) : Except ParseFault Json :=
  match parseValue depth (2 * t.length + 2) (skipSpace t) with
  | .error fault => .error fault
  | .ok (value, rest) => if skipSpace rest = [] then .ok value else .error .malformed

end Json

end SectionIndex
