import Mathlib.Data.List.Infix
import SectionIndex.Json.Printer
import SectionIndex.Proofs.Text.Lines
import SectionIndex.Proofs.Text.Numeral

/-!
# The characters of written JSON

A value on one line is written with printable characters of ASCII only: what is not printable is
escaped, and an escape is made of a reverse solidus, a letter and digits. So no text inside the
value, with whatever line breaks, ends the line on which the value is written.

## Main definitions

* `Text.IsGraphic` — the texts of printable ASCII characters.

## Main statements

* `Json.isGraphic_render` — the characters of a value on one line.
* `Text.IsGraphic.isUnbroken` — they end no line.
-/

namespace SectionIndex

namespace Text

/-- **Every character is a printable one of ASCII.** -/
def IsGraphic (t : Text) : Prop :=
  ∀ c ∈ t, ' ' ≤ c ∧ c ≤ '~'

instance (t : Text) : Decidable t.IsGraphic :=
  inferInstanceAs (Decidable (∀ c ∈ t, ' ' ≤ c ∧ c ≤ '~'))

variable {s t : Text}

@[simp] theorem isGraphic_nil : IsGraphic [] := List.forall_mem_nil _

@[simp] theorem isGraphic_cons {c : Char} :
    IsGraphic (c :: t) ↔ (' ' ≤ c ∧ c ≤ '~') ∧ t.IsGraphic :=
  List.forall_mem_cons

@[simp] theorem isGraphic_append : IsGraphic (s ++ t) ↔ s.IsGraphic ∧ t.IsGraphic :=
  List.forall_mem_append

theorem IsGraphic.subset (ht : t.IsGraphic) (h : s ⊆ t) : s.IsGraphic :=
  fun c hc => ht c (h hc)

theorem isGraphic_replicate {n : Nat} {c : Char} (hc : ' ' ≤ c ∧ c ≤ '~') :
    IsGraphic (List.replicate n c) := by
  intro d hd
  rw [List.eq_of_mem_replicate hd]
  exact hc

theorem isGraphic_join {separator : Text} {parts : List Text} (hseparator : separator.IsGraphic)
    (hparts : ∀ part ∈ parts, part.IsGraphic) : (join separator parts).IsGraphic := by
  intro c hc
  rcases mem_join hc with hmem | ⟨part, hpart, hmem⟩
  · exact hseparator c hmem
  · exact hparts part hpart c hmem

/-- **No printable character ends a line.** -/
theorem IsGraphic.isUnbroken (h : t.IsGraphic) : t.IsUnbroken := by
  intro c hc
  obtain ⟨hlow, -⟩ := h c hc
  obtain ⟨-, hhigh⟩ := h c hc
  have hlow' : 0x20 ≤ c.toNat := hlow
  have hhigh' : c.toNat ≤ 0x7e := hhigh
  -- the line breaks stand below the space or above the tilde
  have hne (d : Char) (hd : d.toNat < 0x20 ∨ 0x7e < d.toNat) : (c == d) = false := by
    rw [beq_eq_false_iff_ne]
    rintro rfl
    omega
  unfold isLineBreak
  simp only [Bool.or_eq_false_iff]
  refine ⟨⟨⟨⟨⟨⟨⟨⟨⟨hne _ ?_, hne _ ?_⟩, hne _ ?_⟩, hne _ ?_⟩, hne _ ?_⟩, hne _ ?_⟩, hne _ ?_⟩,
    hne _ ?_⟩, hne _ ?_⟩, hne _ ?_⟩
  all_goals decide

/-! ### Digits -/

/-- **The digits of a number** to a base of at most sixteen, by induction on the number. -/
theorem isGraphic_toDigits {base : Nat} (hone : 1 < base) (hbase : base ≤ 16) (n : Nat) :
    IsGraphic (Nat.toDigits base n) := by
  have hdigit : ∀ d < 16, ' ' ≤ Nat.digitChar d ∧ Nat.digitChar d ≤ '~' := by decide
  induction n using Nat.strongRecOn with
  | ind n ih =>
    by_cases h : n < base
    · rw [Nat.toDigits_of_lt_base h, isGraphic_cons]
      exact ⟨hdigit n (by omega), isGraphic_nil⟩
    · rw [Nat.toDigits_of_base_le hone (Nat.le_of_not_lt h), isGraphic_append, isGraphic_cons]
      have hsmaller : n / base < n := Nat.div_lt_self (by omega) hone
      have hlast : n % base < base := Nat.mod_lt n (by omega)
      exact ⟨ih _ hsmaller, hdigit _ (by omega), isGraphic_nil⟩

theorem isGraphic_ofNat (n : Nat) : IsGraphic (Text.ofNat n) :=
  isGraphic_toDigits (by decide) (by decide) n

theorem isGraphic_hexPadded (width n : Nat) : IsGraphic (hexPadded width n) := by
  unfold hexPadded
  rw [isGraphic_append]
  exact ⟨isGraphic_replicate (by decide), isGraphic_toDigits (by decide) (by decide) n⟩

end Text

namespace Json

open Text

/-! ### Texts -/

theorem isGraphic_unitEscape (unit : Nat) : (unitEscape unit).IsGraphic := by
  unfold unitEscape
  rw [isGraphic_cons, isGraphic_cons]
  exact ⟨by decide, by decide, isGraphic_hexPadded 4 unit⟩

/-- **Whatever the character is**, it is written with printable ones. -/
theorem isGraphic_escapeChar (c : Char) : (escapeChar c).IsGraphic := by
  unfold escapeChar
  split
  · next h =>
    -- the quote and the reverse solidus stand for themselves behind a reverse solidus
    rw [Bool.or_eq_true, beq_iff_eq, beq_iff_eq] at h
    rcases h with rfl | rfl
    · decide
    · decide
  iterate 5
    split
    · decide
  split
  · next h =>
    rw [Bool.and_eq_true, decide_eq_true_eq, decide_eq_true_eq] at h
    rw [isGraphic_cons]
    exact ⟨h, isGraphic_nil⟩
  split
  · exact isGraphic_unitEscape _
  · rw [isGraphic_append]
    exact ⟨isGraphic_unitEscape _, isGraphic_unitEscape _⟩

theorem isGraphic_renderPoints (points : Points) : (renderPoints points).IsGraphic := by
  have hpoint (point : CodePoint) : (escapePoint point).IsGraphic := by
    cases point with
    | char c => exact isGraphic_escapeChar c
    | surrogate unit => exact isGraphic_unitEscape unit
  have hpoints : IsGraphic (points.flatMap escapePoint) := by
    intro c hc
    obtain ⟨point, -, hmem⟩ := List.mem_flatMap.mp hc
    exact hpoint point c hmem
  show IsGraphic ('"' :: (points.flatMap escapePoint ++ ['"']))
  rw [isGraphic_cons, isGraphic_append]
  exact ⟨by decide, hpoints, by decide⟩

/-! ### Numbers -/

theorem isGraphic_ofInt (n : Int) : (Text.ofInt n).IsGraphic := by
  cases n with
  | ofNat n => exact isGraphic_ofNat n
  | negSucc n =>
    show IsGraphic ('-' :: Text.ofNat (n + 1))
    rw [isGraphic_cons]
    exact ⟨by decide, isGraphic_ofNat _⟩

theorem isGraphic_pointed {digits : Text} (h : digits.IsGraphic) (whole : Nat) :
    (pointed digits whole).IsGraphic := by
  unfold pointed
  rw [isGraphic_append, isGraphic_cons]
  exact ⟨h.subset (List.take_subset whole digits), by decide,
    h.subset (List.drop_subset whole digits)⟩

/-- The digits of a number are written without an exponent or with one. -/
theorem isGraphic_renderDigits {digits : Text} (h : digits.IsGraphic) (exponent : Int) :
    (renderDigits digits exponent).IsGraphic := by
  have hzeros (n : Nat) : IsGraphic (List.replicate n '0') := isGraphic_replicate (by decide)
  have hfirst : IsGraphic (if digits.length = 1 then digits else pointed digits 1) := by
    split
    · exact h
    · exact isGraphic_pointed h 1
  have hpadded (n : Nat) : IsGraphic (Text.ofNatPadded 2 n) := by
    unfold Text.ofNatPadded
    rw [isGraphic_append]
    exact ⟨hzeros _, isGraphic_ofNat n⟩
  -- each layout joins the digits with zeros, a point or an exponent
  unfold renderDigits
  simp only
  split
  · simp only [List.cons_append, isGraphic_cons, isGraphic_append]
    exact ⟨by decide, by decide, hzeros _, h⟩
  split
  · split
    · simp only [isGraphic_append]
      exact ⟨⟨h, hzeros _⟩, by decide⟩
    · exact isGraphic_pointed h _
  · rw [isGraphic_append, isGraphic_cons, isGraphic_cons]
    refine ⟨hfirst, by decide, ?_, hpadded _⟩
    split
    · decide
    · decide

theorem isGraphic_signed {t : Text} (h : t.IsGraphic) (negative : Bool) :
    (signed negative t).IsGraphic := by
  unfold signed
  split
  · rw [isGraphic_cons]
    exact ⟨by decide, h⟩
  · exact h

theorem isGraphic_renderBinary (x : Binary) : (renderBinary sentWords x).IsGraphic := by
  unfold renderBinary
  split
  · exact isGraphic_signed (by decide) _
  · next negative mantissa exponent _ =>
    obtain ⟨digits, place⟩ := Binary.shortest mantissa exponent
    exact isGraphic_signed (isGraphic_renderDigits (isGraphic_ofNat digits) place) negative
  · exact isGraphic_signed (by decide) _
  · decide

/-! ### Values -/

theorem isGraphic_comma : IsGraphic ", " := by decide

mutual

/-- **The characters of a value on one line**, by recursion on the value: a text has its quotes and
escapes, and the brackets, commas and colons around values are printable. -/
theorem isGraphic_render : ∀ value : Json, (render value).IsGraphic
  | .null | .bool true | .bool false => by unfold render; decide
  | .int n => by
    unfold render
    exact isGraphic_ofInt n
  | .binary x => by
    unfold render
    exact isGraphic_renderBinary x
  | .str points => by
    unfold render
    exact isGraphic_renderPoints points
  | .arr items => by
    unfold render
    have hitems := isGraphic_join isGraphic_comma (isGraphic_renderItems items)
    show IsGraphic ('[' :: (Text.join ", " (renderItems items) ++ [']']))
    rw [isGraphic_cons, isGraphic_append]
    exact ⟨by decide, hitems, by decide⟩
  | .obj members => by
    unfold render
    have hmembers := isGraphic_join isGraphic_comma (isGraphic_renderMembers members)
    show IsGraphic ('\x7b' :: (Text.join ", " (renderMembers members) ++ ['\x7d']))
    rw [isGraphic_cons, isGraphic_append]
    exact ⟨by decide, hmembers, by decide⟩

theorem isGraphic_renderItems : ∀ items : List Json, ∀ part ∈ renderItems items, IsGraphic part
  | [] => by
    unfold renderItems
    exact List.forall_mem_nil _
  | item :: items => by
    unfold renderItems
    exact List.forall_mem_cons.mpr ⟨isGraphic_render item, isGraphic_renderItems items⟩

theorem isGraphic_renderMembers :
    ∀ members : List (Points × Json), ∀ part ∈ renderMembers members, IsGraphic part
  | [] => by
    unfold renderMembers
    exact List.forall_mem_nil _
  | (key, value) :: members => by
    unfold renderMembers
    have hmember : IsGraphic (renderPoints key ++ ": " ++ render value) := by
      rw [isGraphic_append, isGraphic_append]
      exact ⟨⟨isGraphic_renderPoints key, by decide⟩, isGraphic_render value⟩
    exact List.forall_mem_cons.mpr ⟨hmember, isGraphic_renderMembers members⟩

end

/-- **A value on one line is one line.** -/
theorem isUnbroken_render (value : Json) : (render value).IsUnbroken :=
  (isGraphic_render value).isUnbroken

end Json

end SectionIndex
