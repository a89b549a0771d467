import SectionIndex.Proofs.Scan.RegionMarks
import SectionIndex.Proofs.Scan.Replaced

/-!
# Documents of regions

An author writes a file as plain lines and regions, one after another. Scanning it gives back the
regions: their names and descriptions as they were written, and their lines from the mark that
opens a region to the mark that ends it.

## Main definitions

* `Piece`, `documentLines` — what an author writes, and its lines.
* `documentSections` — the sections that are meant.

## Main statements

* `sectionsOfMarks_documentLines` — the pieces of a document are scanned one after another.
* `scanExplicit_documentLines` — the sections that are found are those that are meant.
-/

namespace SectionIndex

/-- **A piece of a document:** a line outside all regions, or a region. -/
inductive Piece
  | plain (line : Text)
  | region (r : Region)
  deriving DecidableEq, Repr

namespace Piece

/-- The lines of a piece. -/
def lines (language : Language) : Piece → List Text
  | .plain line => [line]
  | .region r => r.lines language

/-- The section that is meant by a piece whose first line has the number `number`: it goes from the
first line of a region to its last. -/
def sections (language : Language) (number : Nat) : Piece → List Section
  | .plain _ => []
  | .region r =>
    [{ name := r.name
       first := number
       last := number + (r.lines language).length - 1
       description := (r.description.map Prod.snd).getD []
       source := .explicit }]

/-- The piece says what it is meant to say: a line outside all regions is no mark. -/
def IsWritable (language : Language) : Piece → Prop
  | .plain line => language.isPlain line = true
  | .region r => r.IsWritable language

end Piece

/-- **The lines of a document.** -/
def documentLines (language : Language) (pieces : List Piece) : List Text :=
  pieces.flatMap (Piece.lines language)

/-- **The sections that are meant** by the pieces of a document from line `number` on. -/
def documentSections (language : Language) : (number : Nat) → List Piece → List Section
  | _, [] => []
  | number, piece :: pieces =>
    piece.sections language number ++
      documentSections language (number + (piece.lines language).length) pieces

variable {language : Language} {pieces : List Piece}

/-- The marks of a region are those of its first line and of its last; the lines between mean
nothing. -/
theorem Region.IsWritable.map_markOf_lines {r : Region} (h : r.IsWritable language)
    (hlanguage : language ∈ Language.all) (hstart : language.regionStart.isSome = true) :
    (r.lines language).map language.markOf =
      .opening r.name ((r.description.map Prod.snd).getD []) ::
        (r.body.map language.markOf ++ [.ending]) := by
  rw [Region.lines, List.map_cons, List.map_append, List.map_singleton,
    Language.markOf_opening hlanguage hstart h, Language.markOf_closing hlanguage hstart]

/-- **The pieces of a document are scanned one after another:** no region is open between them. -/
theorem sectionsOfMarks_documentLines (hlanguage : language ∈ Language.all)
    (hstart : language.regionStart.isSome = true)
    (h : ∀ piece ∈ pieces, piece.IsWritable language) (number : Nat) :
    sectionsOfMarks none number ((documentLines language pieces).map language.markOf) =
      documentSections language number pieces := by
  -- by induction on the pieces: no section is open between two of them
  induction pieces generalizing number with
  | nil => rfl
  | cons piece pieces ih =>
    obtain ⟨hpiece, hpieces⟩ := List.forall_mem_cons.mp h
    rw [documentLines, List.flatMap_cons, List.map_append, documentSections]
    cases piece with
    | plain line =>
      rw [Piece.lines, List.map_singleton, Language.markOf_of_isPlain _ hpiece]
      exact ih hpieces (number + 1)
    | region r =>
      have hr : r.IsWritable language := hpiece
      have hbody : ∀ mark ∈ r.body.map language.markOf, mark = .plain :=
        List.forall_mem_map.mpr fun line hline =>
          Language.markOf_of_isPlain _ (hr.isPlain_body line hline)
      have hlength : number + (r.lines language).length = number + 1 + r.body.length + 1 := by
        rw [Region.lines, List.length_cons, List.length_append, List.length_singleton]
        omega
      have hrest := ih hpieces (number + (r.lines language).length)
      rw [Piece.lines, hr.map_markOf_lines hlanguage hstart, List.cons_append, List.append_assoc,
        sectionsOfMarks, sectionsOfMarks_plain_append _ _ _ hbody, List.length_map,
        List.singleton_append, sectionsOfMarks, ← hrest, hlength]
      -- the region is ended on its last line
      have hlast : ((number + 1 + r.body.length : Nat) : Int) =
          number + (r.lines language).length - 1 := by omega
      simp only [closeAt, Option.map_none, Option.map_some, Option.toList_none, Option.toList_some,
        List.nil_append, OpenSection.close, Piece.sections, hlast]
      rfl

/-- **The sections found in a document are those that are meant:** one for each region and in the
order of the regions, with the name and the description as the author wrote them, and with the lines
from the mark that opens the region to the mark that ends it. -/
theorem scanExplicit_documentLines (hlanguage : language ∈ Language.all)
    (hstart : language.regionStart.isSome = true)
    (h : ∀ piece ∈ pieces, piece.IsWritable language) :
    scanExplicit (some language) (documentLines language pieces) =
      documentSections language 1 pieces := by
  have hmarkers : language.hasMarkers = true := by rw [Language.hasMarkers, hstart, Bool.true_or]
  rw [scanExplicit]
  simp only [hmarkers, if_true]
  exact sectionsOfMarks_documentLines hlanguage hstart h 1

/-- **A script with two regions.** The description of the first one has dashes in it, and looks like
a mark itself. -/
theorem scanExplicit_documentLines_of_script :
    (∀ piece ∈ [Piece.plain "import os",
        .region ⟨"set up", some (.long, "once - # region: not one"), ["x = 1"]⟩,
        .region ⟨"main", none, []⟩], piece.IsWritable Language.python) ∧
      scanExplicit (some Language.python)
          ["import os", "# region: set up — once - # region: not one", "x = 1", "# endregion",
            "# region: main", "# endregion"] =
        [⟨"set up", 2, 4, "once - # region: not one", .explicit⟩,
          ⟨"main", 5, 6, [], .explicit⟩] := by
  have hfirst : Region.IsWritable Language.python
      ⟨"set up", some (.long, "once - # region: not one"), ["x = 1"]⟩ := by
    refine ⟨by decide, by decide, by decide, fun _ => by decide, ?_, ?_, ?_, by decide⟩
    all_goals
      rintro d ⟨⟩
      decide
  have hsecond : Region.IsWritable Language.python ⟨"main", none, []⟩ := by
    refine ⟨by decide, by decide, by decide, fun _ => by decide, ?_, ?_, ?_, by decide⟩
    all_goals rintro d ⟨⟩
  have hpieces : ∀ piece ∈ [Piece.plain "import os",
      .region ⟨"set up", some (.long, "once - # region: not one"), ["x = 1"]⟩,
      .region ⟨"main", none, []⟩], piece.IsWritable Language.python :=
    List.forall_mem_cons.mpr ⟨by rw [Piece.IsWritable]; decide,
      List.forall_mem_cons.mpr ⟨hfirst, List.forall_mem_singleton.mpr hsecond⟩⟩
  exact ⟨hpieces, scanExplicit_documentLines (by decide) rfl hpieces⟩

end SectionIndex
