import SectionIndex.Json.Value
import SectionIndex.Number.Shortest

/-!
# Writing JSON

The text of a JSON value, in ASCII: on one line, with a space after commas and colons, or spread
over lines with an indent of two spaces. A third form shows a value inside a message.

## Main definitions

* `Json.render` — one line.
* `Json.renderIndented` — one line for each value.
* `Json.display` — for messages.
-/

namespace SectionIndex

namespace Json

/-- An escape of one 16-bit unit. -/
def unitEscape (unit : Nat) : Text :=
  '\\' :: 'u' :: Text.hexPadded 4 unit

/-- A character inside quotes. What is not printable ASCII is written as one 16-bit unit, or two
if one is not enough. -/
def escapeChar (c : Char) : Text :=
  if c == '"' || c == '\\' then ['\\', c]
  else if c == '\n' then ['\\', 'n']
  else if c == '\r' then ['\\', 'r']
  else if c == '\t' then ['\\', 't']
  else if c == '\x08' then ['\\', 'b']
  else if c == '\x0c' then ['\\', 'f']
  else if ' ' ≤ c && c ≤ '~' then [c]
  else if c.toNat < 0x10000 then unitEscape c.toNat
  else
    unitEscape (0xD800 + (c.toNat - 0x10000) / 0x400) ++
      unitEscape (0xDC00 + (c.toNat - 0x10000) % 0x400)

/-- A code point inside quotes. -/
def escapePoint : CodePoint → Text
  | .char c => escapeChar c
  | .surrogate unit => unitEscape unit

/-- Code points in quotes. -/
def renderPoints (points : Points) : Text :=
  '"' :: points.flatMap escapePoint ++ ['"']

/-- The digits with a point after the first `whole` of them. -/
def pointed (digits : Text) (whole : Nat) : Text :=
  digits.take whole ++ '.' :: digits.drop whole

/-- Digits times a power of ten. The number is written without an exponent if its first digit stands
between the fourth place after the point and the sixteenth before it. -/
def renderDigits (digits : Text) (exponent : Int) : Text :=
  let point := digits.length + exponent
  if -4 < point ∧ point ≤ 0 then
    '0' :: '.' :: List.replicate (-point).toNat '0' ++ digits
  else if 0 < point ∧ point ≤ 16 then
    if 0 ≤ exponent then digits ++ List.replicate exponent.toNat '0' ++ ['.', '0']
    else pointed digits point.toNat
  else
    (if digits.length = 1 then digits else pointed digits 1) ++
      'e' :: (if point ≤ 0 then '-' else '+') :: Text.ofNatPadded 2 (point - 1).natAbs

/-- The words for the numbers that are none. -/
structure NumberWords where
  infinite : Text
  notANumber : Text

/-- The words in a value that is sent. -/
def sentWords : NumberWords := ⟨"Infinity", "NaN"⟩

/-- The words in messages. -/
def shownWords : NumberWords := ⟨"inf", "nan"⟩

/-- A sign in front of a number. -/
def signed (negative : Bool) (t : Text) : Text :=
  if negative then '-' :: t else t

/-- **A binary number**, with as few digits as read back. -/
def renderBinary (words : NumberWords) : Binary → Text
  | .finite negative 0 _ => signed negative "0.0"
  | .finite negative mantissa exponent =>
    let (digits, place) := Binary.shortest mantissa exponent
    signed negative (renderDigits (Text.ofNat digits) place)
  | .infinite negative => signed negative words.infinite
  | .notANumber => words.notANumber

mutual

/-- **The value on one line.** -/
def render : Json → Text
  | .null => "null"
  | .bool true => "true"
  | .bool false => "false"
  | .int n => Text.ofInt n
  | .binary x => renderBinary sentWords x
  | .str points => renderPoints points
  | .arr items => '[' :: Text.join ", " (renderItems items) ++ [']']
  | .obj members => '\x7b' :: Text.join ", " (renderMembers members) ++ ['\x7d']

/-- The items of an array. -/
def renderItems : List Json → List Text
  | [] => []
  | item :: items => render item :: renderItems items

/-- The members of an object. -/
def renderMembers : List (Points × Json) → List Text
  | [] => []
  | (key, value) :: members =>
    (renderPoints key ++ ": " ++ render value) :: renderMembers members

end

/-- The start of a line at a depth. -/
def indent (depth : Nat) : Text :=
  '\n' :: List.replicate (2 * depth) ' '

/-- Parts between brackets, each on a line of its own; none of them on no line. -/
def bracketed (opening closing : Char) (depth : Nat) (parts : List Text) : Text :=
  if parts = [] then [opening, closing]
  else
    opening :: indent (depth + 1) ++ Text.join (',' :: indent (depth + 1)) parts ++
      indent depth ++ [closing]

mutual

/-- The value spread over lines, inside `depth` brackets. -/
def renderAt (depth : Nat) : Json → Text
  | .arr items => bracketed '[' ']' depth (renderItemsAt (depth + 1) items)
  | .obj members => bracketed '\x7b' '\x7d' depth (renderMembersAt (depth + 1) members)
  | value => render value

/-- The items of an array, inside `depth` brackets. -/
def renderItemsAt (depth : Nat) : List Json → List Text
  | [] => []
  | item :: items => renderAt depth item :: renderItemsAt depth items

/-- The members of an object, inside `depth` brackets. -/
def renderMembersAt (depth : Nat) : List (Points × Json) → List Text
  | [] => []
  | (key, value) :: members =>
    (renderPoints key ++ ": " ++ renderAt depth value) :: renderMembersAt depth members

end

/-- **The value spread over lines.** -/
def renderIndented (value : Json) : Text :=
  renderAt 0 value

mutual

/-- A value inside another one in a message: texts are quoted. -/
def displayInner : Json → Text
  | .null => "None"
  | .bool true => "True"
  | .bool false => "False"
  | .int n => Text.ofInt n
  | .binary x => renderBinary shownWords x
  | .str points => points.quoted
  | .arr items => '[' :: Text.join ", " (displayItems items) ++ [']']
  | .obj members => '\x7b' :: Text.join ", " (displayMembers members) ++ ['\x7d']

/-- The items of an array in a message. -/
def displayItems : List Json → List Text
  | [] => []
  | item :: items => displayInner item :: displayItems items

/-- The members of an object in a message. -/
def displayMembers : List (Points × Json) → List Text
  | [] => []
  | (key, value) :: members =>
    (key.quoted ++ ": " ++ displayInner value) :: displayMembers members

end

/-- **The value in a message:** a text as it is, anything else as inside another value. -/
def display : Json → Points
  | .str points => points
  | value => displayInner value

end Json

end SectionIndex
