/-!
# Texts

Everything this library reads or writes is a *text*: a finite list of characters. The rules of
index blocks, region markers and companion tables are all stated character by character, so the
list is the representation every rule and every proof works on.

## Main definitions

* `Text` — a list of characters; string literals are read as texts.
* `Text.trim` — a text without its outer characters of a class.
* `Text.padRight`, `Text.padLeft` — columns.
* `Text.ofInt` — the decimal numeral of a whole number.
* `Text.isAtMost` — the alphabetical order.
* `CodeRanges` — a character class that no formula describes, as a list of ranges of code points.
  The modules `Word`, `Digit` and `Printable` each hold one such list.
* `isBlank`, `Text.strip` — the blank characters, and a text without those at its two ends. Blanks
  are also what separates the words of a marker.
-/

namespace SectionIndex

/-- **A text** is the list of its characters, so that positions and lengths count characters. -/
abbrev Text := List Char

instance : Coe String Text := ⟨String.toList⟩

namespace Text

/-- Whether all characters of a text have a property is decided one by one. -/
instance decidableForallMem {p : Char → Prop} [DecidablePred p] (t : List Char) :
    Decidable (∀ c ∈ t, p c) :=
  List.decidableBAll p t

/-- The text without its longest end in the class `p`. -/
def trimEnd (p : Char → Bool) (t : Text) : Text :=
  (t.reverse.dropWhile p).reverse

/-- The text without its longest start and its longest end in the class `p`. -/
def trim (p : Char → Bool) (t : Text) : Text :=
  trimEnd p (t.dropWhile p)

/-- The text filled up with spaces on the right to a width of at least `width`. -/
def padRight (width : Nat) (t : Text) : Text :=
  t ++ List.replicate (width - t.length) ' '

/-- The text filled up with spaces on the left to a width of at least `width`. -/
def padLeft (width : Nat) (t : Text) : Text :=
  List.replicate (width - t.length) ' ' ++ t

@[simp] theorem trimEnd_nil (p : Char → Bool) : trimEnd p [] = [] := rfl

@[simp] theorem trim_nil (p : Char → Bool) : trim p [] = [] := rfl

@[simp] theorem length_padRight (width : Nat) (t : Text) :
    (padRight width t).length = max width t.length := by
  simp [padRight]; omega

@[simp] theorem length_padLeft (width : Nat) (t : Text) :
    (padLeft width t).length = max width t.length := by
  simp [padLeft]; omega

/-- The decimal numeral of a natural number. -/
def ofNat (n : Nat) : Text :=
  Nat.toDigits 10 n

/-- The decimal numeral of a whole number: a minus sign, if needed, and the digits. -/
def ofInt : Int → Text
  | .ofNat n => ofNat n
  | .negSucc n => '-' :: ofNat (n + 1)

/-- The numeral of `n` with zeros in front up to `width` digits. -/
def ofNatPadded (width n : Nat) : Text :=
  List.replicate (width - (ofNat n).length) '0' ++ ofNat n

@[simp] theorem ofInt_natCast (n : Nat) : ofInt (n : Int) = ofNat n := rfl

/-- **The alphabetical order of texts**, by the numbers of their characters. A text comes after its
own beginnings. -/
def isAtMost : Text → Text → Bool
  | [], _ => true
  | _ :: _, [] => false
  | c :: s, d :: t => if c = d then isAtMost s t else c.toNat < d.toNat

/-- The texts one after another with `separator` between neighbours. -/
def join (separator : Text) (parts : List Text) : Text :=
  separator.intercalate parts

end Text

/-! ### Character classes -/

/-- **A table of code point ranges**, each with its first and its last member. -/
abbrev CodeRanges := List (Nat × Nat)

/-- The table has a range around the character's code point. -/
def CodeRanges.hasChar (table : CodeRanges) (c : Char) : Bool :=
  table.any fun range => range.1 ≤ c.toNat && c.toNat ≤ range.2

theorem CodeRanges.hasChar_iff (table : CodeRanges) (c : Char) :
    table.hasChar c = true ↔ ∃ range ∈ table, range.1 ≤ c.toNat ∧ c.toNat ≤ range.2 := by
  simp [CodeRanges.hasChar]

/-! ### Blanks -/

/-- The blanks outside the first 128 code points. -/
def blankRanges : CodeRanges :=
  [(0x85, 0x85), (0xA0, 0xA0), (0x1680, 0x1680), (0x2000, 0x200A), (0x2028, 0x2029),
   (0x202F, 0x202F), (0x205F, 0x205F), (0x3000, 0x3000)]

/-- **A blank** is white space of any script: tab, line ends, the four information separators,
space, and the wider and narrower spaces. The zero-width space and the byte order mark are none. -/
def isBlank (c : Char) : Bool :=
  if c.toNat < 0x80 then
    (9 ≤ c.toNat && c.toNat ≤ 13) || (28 ≤ c.toNat && c.toNat ≤ 32)
  else
    blankRanges.hasChar c

/-- The text without the blanks at its two ends. -/
def Text.strip (t : Text) : Text :=
  Text.trim isBlank t

@[simp] theorem Text.strip_nil : Text.strip [] = [] := rfl

end SectionIndex
