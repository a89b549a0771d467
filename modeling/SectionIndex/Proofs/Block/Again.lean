import SectionIndex.Proofs.Block.Replace
import SectionIndex.Proofs.Block.Reread
import SectionIndex.Proofs.Scan.BlockLines

/-!
# A block that is written again

A block that is written in the place of one with the same names and descriptions is found again if
that one was: the time in it and its numbers neither close a comment nor end a line. It is read
alike if its sections are the same.

## Main definitions

* `Block.SameTable` — the same table stands in the same text.

## Main statements

* `Block.closing_infix_render_iff` — when the end of a comment stands in a hash block.
* `Block.IsClear.render` — what stands around a block is clear for the next one.
* `Block.parseRows_render_eq` — the rows that are read depend on the sections alone.
-/

namespace SectionIndex

namespace Block

variable {style : Style} {newline newline' stamp stamp' before after content block : Text}
  {sections sections' : List Section} {totalLines totalLines' : Int}

/-- **The same table in the same text:** there is a block in both texts, its rows are the same, and
so is what stands before and after it. -/
def SameTable (t u : Text) : Prop :=
  ∃ b b', parse t = .ok (some b) ∧ parse u = .ok (some b') ∧ b'.rows = b.rows ∧
    u.take b'.start = t.take b.start ∧ u.drop b'.stop = t.drop b.stop

/-! ### The end of a comment in a hash block -/

theorem escapeCell_infix_sectionLine (style : Style) (n m : Nat) (s : Section) :
    escapeCell style s.name <:+: sectionLine style n m s ∧
      escapeCell style s.description <:+: sectionLine style n m s := by
  have hcell : ∀ (cells : List Text) (k : Nat) (t : Text), Text.padRight k t ∈ cells →
      t <:+: tableLine cells := by
    intro cells k t hmem
    have hpadded : t <:+: Text.padRight k t := (List.prefix_append t _).isInfix
    have hjoin : Text.join " | " cells <:+: tableLine cells := ⟨"| ", " |", rfl⟩
    exact (hpadded.trans (Text.infix_join_of_mem hmem)).trans hjoin
  exact ⟨hcell _ n _ (by simp), hcell _ m _ (by simp)⟩

/-- **The end of a comment stands in a hash block** only in a name or a description. -/
theorem closing_infix_render_iff (totalLines : Int) (h : newline.IsLineEnd)
    (hstamp : IsStamp stamp) :
    closing <:+: render sections totalLines .hash stamp newline ↔
      ∃ s ∈ sections, closing <:+: escapeCell .hash s.name ∨
        closing <:+: escapeCell .hash s.description := by
  constructor
  · -- what stands in the block stands in one of its lines, as no line end has a part in it
    intro hclosing
    have hnewline : ∀ c ∈ closing, c ∉ newline := by rcases h with rfl | rfl <;> decide
    obtain ⟨line, hline, hclosing⟩ :=
      Text.exists_infix_of_join h.ne_nil (by decide) hnewline hclosing
    rcases mem_blockLines hline with hframe | ⟨body, hbody, rfl⟩
    · have hnone : ∀ line ∈ frameLines .hash, ¬ closing <:+: line := by decide +kernel
      exact absurd hclosing (hnone line hframe)
    · -- the end stands after the sign of the line
      have hsign : ∀ c ∈ closing, c ∉ ("# " : Text) := by decide
      unfold commentLine at hclosing
      split at hclosing
      · exact absurd hclosing (by decide)
      · have hclosing : closing <:+: ("# " : Text) ++ body := hclosing
        have hforeign : IsForeign closing := by decide +kernel
        obtain ⟨s, hs, -, hclosing⟩ := hforeign.exists_of_isInfix hstamp hbody
          (Text.infix_of_append_right (by decide) hsign hclosing)
        exact ⟨s, hs, hclosing⟩
  · rintro ⟨s, hs, hclosing⟩
    -- the row of that section is a line of the block, and holds both texts of it
    let line := rowLine .hash sections s
    have hmem : line ∈ bodyLines .hash sections totalLines stamp := by
      have hrow : line ∈ tableRows .hash sections :=
        List.mem_cons_of_mem _ (List.mem_cons_of_mem _ (List.mem_map_of_mem hs))
      simp only [bodyLines, List.mem_cons, hrow, or_true]
    have hcomment : line <:+: commentLine "#" line := by
      have hne : line ≠ [] := List.cons_ne_nil _ _
      rw [commentLine_of_ne_nil _ hne]
      exact (List.suffix_append ['#', ' '] line).isInfix
    have hblock : line <:+: render sections totalLines .hash stamp newline :=
      hcomment.trans (Text.infix_join_of_mem (List.mem_append_left _ (List.mem_map_of_mem hmem)))
    obtain ⟨hname, hdescription⟩ := escapeCell_infix_sectionLine .hash
      (columnWidth (sections.map fun s => escapeCell .hash s.name))
      (columnWidth (sections.map fun s => escapeCell .hash s.description)) s
    rcases hclosing with hclosing | hclosing
    · exact (hclosing.trans hname).trans hblock
    · exact (hclosing.trans hdescription).trans hblock

/-- **What stands around a block is clear for the next one** with the same names and
descriptions. -/
theorem IsClear.render (h : newline.IsLineEnd) (h' : newline'.IsLineEnd) (hstamp : IsStamp stamp)
    (hstamp' : IsStamp stamp')
    (htexts : sections'.map (fun s => (s.name, s.description)) =
      sections.map fun s => (s.name, s.description))
    (hclear : IsClear style before (render sections totalLines style stamp newline) after) :
    IsClear style before (render sections' totalLines' style stamp' newline') after := by
  cases style with
  | jsdoc => exact hclear
  | hash =>
    -- only the last clause is about what stands in the block
    obtain ⟨hstart, hends, hlines, hcomment⟩ := hclear
    refine ⟨hstart, hends, hlines, fun hopens => ?_⟩
    have hclosing := hcomment hopens
    rw [closing_infix_render_iff totalLines h hstamp] at hclosing
    rw [closing_infix_render_iff totalLines' h' hstamp']
    rintro ⟨s', hs', hmem⟩
    -- the texts of this section are those of one in the other block
    have hpair : (s'.name, s'.description) ∈ sections.map fun s => (s.name, s.description) :=
      htexts ▸ List.mem_map_of_mem hs'
    obtain ⟨s, hs, heq⟩ := List.mem_map.mp hpair
    obtain ⟨hname, hdescription⟩ := Prod.mk.inj heq
    rw [← hname, ← hdescription] at hmem
    exact hclosing ⟨s, hs, hmem⟩

/-! ### What is read -/

/-- **The rows that are read from a block** depend on its sections alone. -/
theorem parseRows_render_eq (style : Style) (sections : List Section) (totalLines totalLines' : Int)
    (h : newline.IsLineEnd) (h' : newline'.IsLineEnd) (hstamp : IsStamp stamp)
    (hstamp' : IsStamp stamp') :
    parseRows style [] (Text.breakLines (render sections totalLines' style stamp' newline')) =
      parseRows style [] (Text.breakLines (render sections totalLines style stamp newline)) := by
  rw [parseRows_render style sections totalLines' h' hstamp',
    parseRows_render style sections totalLines h hstamp]

end Block

end SectionIndex
