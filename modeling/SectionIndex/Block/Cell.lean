import SectionIndex.Block.Basic

/-!
# Table cells

How a text is written in a cell of a table, and read back. A bar inside a cell gets a backslash,
so that it is no cell boundary; in a documentation comment the characters that would end the
comment are kept apart by a backslash too.

## Main definitions

* `Block.escapeCell`, `Block.unescapeCell`.
* `Block.splitCells` — a row cut at its cell boundaries.
* `isSeparatorCell` — the dashes below a heading.
-/

namespace SectionIndex

/-- The dashes under a heading: one or more, with or without a colon at either end. -/
def isSeparatorCell (t : Text) : Bool :=
  let t := if t.head? = some ':' then t.tail else t
  let rest := t.dropWhile (· == '-')
  t.head? == some '-' && (rest.isEmpty || rest == [':'])

namespace Block

/-- A backslash before each bar. -/
def escapeBars : Text → Text
  | [] => []
  | c :: t => if c = '|' then '\\' :: '|' :: escapeBars t else c :: escapeBars t

/-- Each bar after a backslash without the backslash. -/
def unescapeBars : Text → Text
  | [] => []
  | '\\' :: '|' :: t => '|' :: unescapeBars t
  | c :: t => c :: unescapeBars t

/-- A backslash between each star and slash. -/
def escapeClosings : Text → Text
  | [] => []
  | '*' :: '/' :: t => '*' :: '\\' :: '/' :: escapeClosings t
  | c :: t => c :: escapeClosings t

/-- Each star, backslash, slash without the backslash. -/
def unescapeClosings : Text → Text
  | [] => []
  | '*' :: '\\' :: '/' :: t => '*' :: '/' :: unescapeClosings t
  | c :: t => c :: unescapeClosings t

/-- **The text of a cell.** A cell is always followed by a space, so its escapes end in it. -/
def escapeCell : Style → Text → Text
  | .jsdoc, t => escapeClosings (escapeBars t)
  | .hash, t => escapeBars t

/-- **The text that a cell stands for.** -/
def unescapeCell : Style → Text → Text
  | .jsdoc, t => unescapeBars (unescapeClosings t)
  | .hash, t => unescapeBars t

/-- The cells of what is left of a row; `escaped` says that a backslash stands before it. -/
def splitCellsFrom : (escaped : Bool) → Text → List Text
  | _, [] => [[]]
  | escaped, c :: t =>
    if c = '|' ∧ escaped = false then [] :: splitCellsFrom false t
    else (splitCellsFrom (c == '\\') t).modifyHead (c :: ·)

/-- **The cells of a row:** a bar is a boundary unless a backslash stands before it. -/
def splitCells (t : Text) : List Text :=
  splitCellsFrom false t

@[simp] theorem escapeBars_nil : escapeBars [] = [] := rfl

/-- Bars are all that `escapeBars` changes, and reading them back gives the text. -/
theorem unescapeBars_escapeBars (t : Text) : unescapeBars (escapeBars t) = t := by
  induction t with
  | nil => rfl
  | cons c t ih =>
    unfold escapeBars
    split
    · rename_i h; subst h; simp [unescapeBars, ih]
    · rename_i h
      unfold unescapeBars
      split
      · rename_i heq; simp at heq
      · rename_i t' heq
        simp only [List.cons.injEq] at heq
        obtain ⟨rfl, h2⟩ := heq
        -- the text after a backslash starts with no bar once its bars are escaped
        cases t with
        | nil => simp at h2
        | cons d t =>
          unfold escapeBars at h2
          split at h2 <;> simp_all
      · rename_i heq
        simp only [List.cons.injEq] at heq
        obtain ⟨rfl, rfl⟩ := heq
        rw [ih]

theorem splitCellsFrom_ne_nil (escaped : Bool) (t : Text) : splitCellsFrom escaped t ≠ [] := by
  induction t generalizing escaped with
  | nil => simp [splitCellsFrom]
  | cons c t ih =>
    unfold splitCellsFrom
    split
    · simp
    · intro h
      have := congrArg List.length h
      simp only [List.length_modifyHead, List.length_nil, List.length_eq_zero_iff] at this
      exact ih _ this

end Block

end SectionIndex
