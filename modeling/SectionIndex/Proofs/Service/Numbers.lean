import SectionIndex.Proofs.Indexing.Order
import SectionIndex.Proofs.Json.RoundTrip
import SectionIndex.Proofs.Service.Question

/-!
# The numbers of an answer

The numbers in an answer count lines, characters or tokens of a file, or they are read from a table
that somebody wrote. Those of the second kind can be written again, as what is too long to be
written is not read either, and those of the first are bounded by the length of the file. So an
answer that is written is read back as it was.

## Main definitions

* `Text.width` — what lines take up in a text.
* `Question.IsOfShortFile` — the file has fewer characters than the least number that is too long.

## Main statements

* `FileIndex.HasWritableLines.isPlain_payload`, `Context.isPlain_payload_of_readSection`,
  `Context.isPlain_payload_of_verify` — the payloads that are read back.
* `Question.isPlain_of_find` — what is found is read back.
-/

namespace SectionIndex

/-! ### Lengths of texts -/

namespace Text

/-- **What lines take up** in a text in which each of them is ended. -/
def width : List Text → Nat
  | [] => 0
  | line :: lines => line.length + 1 + width lines

@[simp] theorem width_cons (line : Text) (lines : List Text) :
    width (line :: lines) = line.length + 1 + width lines :=
  rfl

theorem length_le_width (lines : List Text) : lines.length ≤ width lines := by
  induction lines with
  | nil => exact Nat.le_refl 0
  | cons line lines ih =>
    rw [List.length_cons, width_cons]
    omega

theorem width_le_of_sublist {lines lines' : List Text} (h : lines.Sublist lines') :
    width lines ≤ width lines' := by
  induction h with
  | slnil => exact Nat.le_refl 0
  | cons line _ ih => exact Nat.le_trans ih (Nat.le_add_left _ _)
  | cons_cons line _ ih => exact Nat.add_le_add_left ih _

/-- Joined lines take up one character less, as the last is not ended. -/
theorem length_join_add_one {lines : List Text} (h : lines ≠ []) :
    (join ['\n'] lines).length + 1 = width lines := by
  induction lines with
  | nil => exact absurd rfl h
  | cons line lines ih =>
    cases lines with
    | nil => simp [join_singleton, width]
    | cons next lines =>
      rw [join_cons_of_ne_nil _ _ (List.cons_ne_nil _ _), width_cons,
        ← ih (List.cons_ne_nil _ _)]
      simp only [List.length_append, List.length_singleton]
      omega

theorem length_dropReturn_le (line : Text) : (dropReturn line).length ≤ line.length := by
  unfold dropReturn
  split
  · rw [List.length_dropLast]
    exact Nat.sub_le _ _
  · exact Nat.le_refl _

theorem width_map_dropReturn_le (lines : List Text) :
    width (lines.map dropReturn) ≤ width lines := by
  induction lines with
  | nil => exact Nat.le_refl 0
  | cons line lines ih =>
    have hline := length_dropReturn_le line
    rw [List.map_cons, width_cons, width_cons]
    omega

/-- **The lines of a file** take up no more than its text and the end of its last line. -/
theorem width_splitLines_le (content : Text) : width (splitLines content) ≤ content.length + 1 := by
  have hsplit : width (content.splitOn '\n') = content.length + 1 := by
    have hjoin : join ['\n'] (content.splitOn '\n') = content := List.intercalate_splitOn '\n'
    have hne : content.splitOn '\n' ≠ [] := List.splitOnP_ne_nil _ _
    rw [← length_join_add_one hne, hjoin]
  have hmap := width_map_dropReturn_le (content.splitOn '\n')
  unfold splitLines
  simp only
  split
  · exact Nat.le_trans (width_le_of_sublist (List.dropLast_sublist _)) (hsplit ▸ hmap)
  · exact hsplit ▸ hmap

theorem length_splitLines_le (content : Text) :
    (splitLines content).length ≤ content.length + 1 :=
  Nat.le_trans (length_le_width _) (width_splitLines_le content)

end Text

/-- The text of a section is no longer than that of the file. -/
theorem length_sectionText_le (content : Text) (s : Section) :
    (sectionText (Text.splitLines content) s).length ≤ content.length := by
  unfold sectionText
  have hsublist := (List.drop_sublist (s.first - 1).toNat
    ((Text.splitLines content).take s.last.toNat)).trans (List.take_sublist _ _)
  have hwidth := Nat.le_trans (Text.width_le_of_sublist hsublist)
    (Text.width_splitLines_le content)
  by_cases hnil : ((Text.splitLines content).take s.last.toNat).drop (s.first - 1).toNat = []
  · rw [hnil]
    exact Nat.zero_le _
  · have hjoin := Text.length_join_add_one hnil
    omega

theorem countTokens_le (t : Text) : countTokens t ≤ t.length := by
  unfold countTokens
  split
  · exact Nat.zero_le _
  · next h =>
    have hpos := List.length_pos_of_ne_nil h
    have hdiv := Nat.div_le_self t.length charsPerToken
    omega

/-! ### Numbers that can be written -/

/-- The lines of a file are numbered with numbers that can be written. -/
theorem isWritable_of_le_length {content : Text} (h : isWritable (content.length + 1) = true)
    {n : Int} (hn : 0 ≤ n) (hle : n ≤ (Text.splitLines content).length) :
    isWritable n = true := by
  have hlines := Text.length_splitLines_le content
  exact isWritable_of_le hn (by omega) h

/-- The last line of a row of a document is read. -/
theorem Companion.isWritable_last_of_parseRow {cells : List Text} {s : Section}
    (h : parseRow cells = .ok (some s)) : isWritable s.last = true := by
  -- the last line of a range was read from a numeral, so it can be written again
  have hrange : ∀ {value : Text} {first last : Int},
      lineRange? value = .ok (some (first, last)) → isWritable last = true := by
    intro value first last h
    unfold lineRange? at h
    simp only at h
    split at h
    · cases h
    · split at h
      · obtain ⟨n, hn, h⟩ := Fault.bind_eq_ok_iff.mp h
        cases h
        exact isWritable_of_readNumber hn
      · split at h
        · obtain ⟨m, -, h⟩ := Fault.bind_eq_ok_iff.mp h
          obtain ⟨n, hn, h⟩ := Fault.bind_eq_ok_iff.mp h
          cases h
          exact isWritable_of_readNumber hn
        · cases h
  unfold parseRow at h
  split at h
  · split at h
    · cases h
    · obtain ⟨range, hread, h⟩ := Fault.bind_eq_ok_iff.mp h
      split at h
      · split at h
        · cases h
          exact hrange hread
        · cases h
      · cases h
  · cases h

/-- **The sections of a file** end on lines whose numbers can be written. -/
theorem Context.isWritable_last_of_detect {context : Context} {file content : Text}
    {sections : List Section} {companion : Option Companion}
    (hshort : isWritable (content.length + 1) = true)
    (h : context.detect file (Text.splitLines content) = .ok (sections, companion)) :
    ∀ s ∈ sections, isWritable s.last = true := by
  obtain ⟨document?, hdocument, h⟩ := Fault.bind_eq_ok_iff.mp h
  cases h
  intro s hs
  obtain ⟨s₀, hs₀, -, hlast, -⟩ := exists_of_mem_presentSections hs
  rw [hlast]
  have hscanned : ∀ language?, ∀ s ∈ chooseSections.scanned language? (Text.splitLines content),
      isWritable s.last = true := by
    intro language? s hs
    have hlayout := (IsMap.scanned language? (Text.splitLines content)).layout
      fun s hs => source_of_mem_scanned hs
    obtain ⟨hfirst, hlines, hlast⟩ := hlayout.bounds s hs
    exact isWritable_of_le_length hshort (by omega) hlast
  -- the lines are those of a companion document, or they are no more than the lines of the file
  unfold chooseSections at hs₀
  split at hs₀
  · next document =>
    split at hs₀
    · obtain ⟨text, path, hread⟩ := Host.exists_parse_of_companionOf hdocument
      obtain ⟨line, -, hrow⟩ := Companion.exists_of_mem_sections hread hs₀
      exact Companion.isWritable_last_of_parseRow hrow
    · exact hscanned _ s₀ hs₀
  · exact hscanned _ s₀ hs₀

/-- **The numbers of an index can be written:** the number of lines of the file, and the lines of
its sections, which are in order. -/
structure FileIndex.HasWritableLines (index : FileIndex) : Prop where
  totalLines : isWritable index.totalLines = true
  bounds : ∀ s ∈ index.sections, 1 ≤ s.first ∧ s.first ≤ s.last
  last : ∀ s ∈ index.sections, isWritable s.last = true

theorem Context.hasWritableLines_of_indexOf {context : Context} {file content : Text}
    {index : FileIndex} (hshort : isWritable (content.length + 1) = true)
    (h : context.indexOf file content = .ok index) : index.HasWritableLines := by
  have hsound := isSound_of_indexOf h
  obtain ⟨⟨sections, companion⟩, hdetect, h⟩ := Fault.bind_eq_ok_iff.mp h
  obtain ⟨now, -, h⟩ := Fault.bind_eq_ok_iff.mp h
  cases h
  have htotal : isWritable ((Text.splitLines content).length : Int) = true :=
    isWritable_of_le_length hshort (Int.natCast_nonneg _) (Int.le_refl _)
  refine ⟨htotal, hsound.isMap.bounds, ?_⟩
  show ∀ s ∈ orFallback (Text.splitLines content).length sections, isWritable s.last = true
  -- the fallback ends on the last line, and the other sections are those that were detected
  unfold orFallback
  split
  · rw [List.forall_mem_singleton]
    have hpos := List.length_pos_of_ne_nil (Text.splitLines_ne_nil content)
    have hlast : max ((Text.splitLines content).length : Int) 1 =
        (Text.splitLines content).length :=
      Int.max_eq_left (Int.ofNat_le.mpr hpos)
    show isWritable (max ((Text.splitLines content).length : Int) 1) = true
    rw [hlast]
    exact htotal
  · exact isWritable_last_of_detect hshort hdetect

/-! ### Payloads -/

namespace Json

variable {depth : Nat}

theorem isPlain_int {n : Int} (h : isWritable n = true) : IsPlain depth (.int n) := by
  cases depth <;> exact h

theorem isPlain_null (depth : Nat) : IsPlain depth .null := by
  cases depth <;> trivial

theorem isPlain_bool (depth : Nat) (b : Bool) : IsPlain depth (.bool b) := by
  cases depth <;> trivial

theorem isPlain_ofText? (depth : Nat) (t : Option Text) : IsPlain depth (.ofText? t) := by
  cases t with
  | none => exact isPlain_null depth
  | some t => exact isPlain_text depth t

theorem isPlain_ofNonempty (depth : Nat) (t : Text) : IsPlain depth (.ofNonempty t) := by
  unfold ofNonempty
  split
  · exact isPlain_null depth
  · exact isPlain_text depth t

theorem isPlain_ofInt? {n : Option Int} (h : ∀ m, n = some m → isWritable m = true) :
    IsPlain depth (.ofInt? n) := by
  cases n with
  | none => exact isPlain_null depth
  | some n => exact isPlain_int (h n rfl)

end Json

open Json

variable {depth : Nat}

/-- A section is read back if its last line is. -/
theorem Section.isPlain_payload {s : Section} (hbounds : 1 ≤ s.first ∧ s.first ≤ s.last)
    (hlast : isWritable s.last = true) : Json.IsPlain (depth + 1) s.payload := by
  obtain ⟨hfirst, hlines⟩ := hbounds
  have hsize : isWritable s.size = true :=
    isWritable_of_le (by rw [size]; omega) (by rw [size]; omega) hlast
  refine isPlain_record (by simp) ?_
  simp only [List.forall_mem_cons]
  exact ⟨isPlain_text _ _, isPlain_int (isWritable_of_le (by omega) hlines hlast),
    isPlain_int hlast, isPlain_int hsize, isPlain_text _ _, isPlain_text _ _,
    List.forall_mem_nil _⟩

/-- **The index of a file is read back.** -/
theorem FileIndex.HasWritableLines.isPlain_payload {index : FileIndex}
    (h : index.HasWritableLines) : IsPlain (depth + 3) (.obj index.payload) := by
  have hsections : IsPlain (depth + 2) (.arr (index.sections.map Section.payload)) := by
    refine isPlain_arr (List.forall_mem_map.mpr fun s hs => ?_)
    exact Section.isPlain_payload (h.bounds s hs) (h.last s hs)
  refine isPlain_record (by simp) ?_
  simp only [List.forall_mem_cons]
  exact ⟨isPlain_text _ _, isPlain_text _ _, isPlain_text _ _, isPlain_int h.totalLines, hsections,
    isPlain_ofText? _ _, isPlain_ofText? _ _, isPlain_ofNonempty _ _, isPlain_ofNonempty _ _,
    List.forall_mem_nil _⟩

/-- The answer that there is no section of a name is read back. -/
theorem ReadResult.isPlain_payload_unknown (name : Text) (available : List Text) :
    IsPlain (depth + 2) (.obj (unknown name available).payload) := by
  refine isPlain_record (by simp) ?_
  simp only [List.forall_mem_cons]
  exact ⟨isPlain_text _ _, isPlain_arr (List.forall_mem_map.mpr fun t _ => isPlain_text _ t),
    List.forall_mem_nil _⟩

/-- **What a reader gets is read back:** a section of an index with its text, or names. -/
theorem Context.isPlain_payload_of_readSection {context : Context} {file name content : Text}
    {result : ReadResult} (hshort : isWritable (content.length + 1) = true)
    (hload : context.host.loadFile file = .ok content)
    (h : context.readSection file name = .ok result) :
    IsPlain (depth + 2) (.obj result.payload) := by
  obtain ⟨content', hload', h⟩ := Fault.bind_eq_ok_iff.mp h
  obtain rfl : content = content' := Except.ok.inj (hload.symm.trans hload')
  obtain ⟨index, hindex, h⟩ := Fault.bind_eq_ok_iff.mp h
  have hlines := hasWritableLines_of_indexOf hshort hindex
  split at h
  · next s hfind =>
    cases h
    obtain ⟨hs, -⟩ := FileIndex.find?_eq_some hfind
    obtain ⟨hfirst, hle⟩ := hlines.bounds s hs
    have hlast := hlines.last s hs
    -- a text has no more tokens than characters, and no more of these than the file
    have htokens : isWritable (countTokens (sectionText (Text.splitLines content) s)) = true := by
      have hcount := countTokens_le (sectionText (Text.splitLines content) s)
      have hlength := length_sectionText_le content s
      exact isWritable_of_le (Int.natCast_nonneg _) (by omega) hshort
    refine isPlain_record (by simp) ?_
    simp only [List.forall_mem_cons]
    exact ⟨isPlain_text _ _, isPlain_int (isWritable_of_le (by omega) hle hlast),
      isPlain_int hlast, isPlain_text _ _, isPlain_int htokens, List.forall_mem_nil _⟩
  · cases h
    exact ReadResult.isPlain_payload_unknown name index.names

/-- An issue is read back if its lines are. -/
theorem Issue.isPlain_payload {issue : Issue}
    (hstored : ∀ n, issue.storedStart = some n → isWritable n = true)
    (hactual : ∀ n, issue.actualStart = some n → isWritable n = true) :
    IsPlain (depth + 1) issue.payload := by
  refine isPlain_record (by simp) ?_
  simp only [List.forall_mem_cons]
  exact ⟨isPlain_text _ _, isPlain_ofText? _ _, isPlain_text _ _, isPlain_ofInt? hstored,
    isPlain_ofInt? hactual, List.forall_mem_nil _⟩

/-! ### Checks -/

/-- The first line of a stored row is read. -/
theorem Block.isWritable_first_of_parseRow {cells : List Text} {row : Row}
    (h : parseRow cells = .ok (some row)) : isWritable row.first = true := by
  unfold parseRow at h
  split at h
  · split at h
    · cases h
    · obtain ⟨first, hfirst, h⟩ := Fault.bind_eq_ok_iff.mp h
      obtain ⟨last, -, h⟩ := Fault.bind_eq_ok_iff.mp h
      obtain ⟨size, -, h⟩ := Fault.bind_eq_ok_iff.mp h
      cases h
      exact isWritable_of_readNumber hfirst
  · cases h

/-- **The rows of a stored block** start on lines whose numbers can be written. -/
theorem Block.isWritable_first_of_parse {content : Text} {stored : Block}
    (h : parse content = .ok (some stored)) : ∀ row ∈ stored.rows, isWritable row.first = true := by
  unfold parse at h
  split at h
  · cases h
  · obtain ⟨rows, hrows, h⟩ := Fault.bind_eq_ok_iff.mp h
    obtain ⟨total, -, h⟩ := Fault.bind_eq_ok_iff.mp h
    cases h
    exact forall_of_parseRows hrows (List.forall_mem_nil _)
      fun _ _ _ => isWritable_first_of_parseRow

/-- The issues of a check are read back. -/
theorem isPlain_of_mem_contentIssues {rows : List Block.Row} {language? : Option Language}
    {content : Text} {tolerance : Int} (hshort : isWritable (content.length + 1) = true)
    (hrows : ∀ row ∈ rows, isWritable row.first = true) :
    ∀ issue ∈ contentIssues rows language? content tolerance,
      IsPlain (depth + 1) issue.payload := by
  -- the sections that are marked in the file start on lines of the file
  have hmarked : ∀ s ∈ Section.uniqueNames (scanExplicit language? (Text.splitLines content)),
      isWritable s.first = true := by
    intro s hs
    obtain ⟨s₀, hs₀, heq, -⟩ := Section.exists_of_mem_uniqueNames hs
    obtain ⟨hfirst, hlines, hlast⟩ := (isLayout_scanExplicit language? _).bounds s₀ hs₀
    have hfirst₀ : s.first = s₀.first := by rw [heq]
    rw [hfirst₀]
    exact isWritable_of_le_length hshort (by omega) (by omega)
  intro issue hissue
  rcases List.mem_append.mp hissue with hissue | hissue
  · -- a row that is out of range tells its own line
    obtain ⟨row, hrow, h⟩ := List.mem_filterMap.mp hissue
    split at h
    · cases h
      refine Issue.isPlain_payload (fun n hn => ?_) (fun n hn => nomatch hn)
      exact Option.some.inj hn ▸ hrows row hrow
    · nomatch h
  · -- a section that is marked tells its line, and the line of its row if the two are apart
    obtain ⟨s, hs, h⟩ := List.mem_filterMap.mp hissue
    split at h
    · cases h
      refine Issue.isPlain_payload (fun n hn => nomatch hn) (fun n hn => ?_)
      exact Option.some.inj hn ▸ hmarked s hs
    · next row hrow =>
      split at h
      · cases h
        refine Issue.isPlain_payload (fun n hn => ?_) (fun n hn => ?_)
        · exact Option.some.inj hn ▸ hrows row (List.mem_of_find?_eq_some hrow)
        · exact Option.some.inj hn ▸ hmarked s hs
      · nomatch h

/-- A check is read back if its issues are. -/
theorem VerifyResult.isPlain_payload {result : VerifyResult}
    (h : ∀ issue ∈ result.issues, IsPlain (depth + 1) issue.payload) :
    IsPlain (depth + 3) (.obj result.payload) := by
  refine isPlain_record (by simp) ?_
  simp only [List.forall_mem_cons]
  exact ⟨isPlain_text _ _, isPlain_text _ _, isPlain_bool _ _,
    isPlain_arr (List.forall_mem_map.mpr h), isPlain_ofText? _ _, List.forall_mem_nil _⟩

/-- **What came of a check is read back.** -/
theorem Context.isPlain_payload_of_verify {context : Context} {file : Text}
    {tolerance : Option Int} {result : VerifyResult}
    (hshort : ∀ content, context.host.loadFile file = .ok content →
      isWritable (content.length + 1) = true)
    (h : context.verify file tolerance = .ok result) :
    IsPlain (depth + 3) (.obj result.payload) := by
  refine VerifyResult.isPlain_payload ?_
  -- a check finds no text, or no block, or what is wrong with the block
  unfold verify at h
  split at h
  · cases h
    exact List.forall_mem_nil _
  · cases h
  · next content hload =>
    obtain ⟨stored?, hstored, h⟩ := Fault.bind_eq_ok_iff.mp h
    cases stored? with
    | none =>
      cases h
      exact List.forall_mem_singleton.mpr
        (Issue.isPlain_payload (fun n hn => nomatch hn) (fun n hn => nomatch hn))
    | some stored =>
      cases h
      exact isPlain_of_mem_contentIssues (hshort content hload)
        (Block.isWritable_first_of_parse hstored)

/-! ### Answers -/

namespace Question

/-- **The question is about a short file:** its characters are fewer than the least number that has
too many digits to be written. -/
def IsOfShortFile (context : Context) (question : Question) : Prop :=
  ∀ path content, context.resolvePath question.file = .ok path →
    context.host.loadFile path.toText = .ok content → content.length + 1 < 10 ^ maxDigits

/-- **What is found is read back** as it was written. -/
theorem isPlain_of_find {context : Context} {question : Question} {finding : Finding}
    (hshort : question.IsOfShortFile context) (h : question.find context = .ok finding) :
    IsPlain (depth + 3) (.obj finding.payload) := by
  obtain ⟨path, hpath, h⟩ := Fault.bind_eq_ok_iff.mp h
  replace hshort : ∀ content, context.host.loadFile path.toText = .ok content →
      isWritable (content.length + 1) = true := by
    intro content hload
    rw [isWritable_iff]
    exact hshort path content hpath hload
  -- all three questions are about one file, and what they find is no longer than that
  cases question with
  | index file =>
    cases hindex : context.index path.toText with
    | error fault => rw [findAt, hindex] at h; cases h
    | ok index =>
      rw [findAt, hindex] at h
      cases h
      obtain ⟨content, hload, hindex⟩ := Fault.bind_eq_ok_iff.mp hindex
      exact (Context.hasWritableLines_of_indexOf (hshort content hload) hindex).isPlain_payload
  | readSection file name =>
    cases hread : context.readSection path.toText name with
    | error fault => rw [findAt, hread] at h; cases h
    | ok result =>
      rw [findAt, hread] at h
      cases h
      obtain ⟨content, hload, -⟩ := Fault.bind_eq_ok_iff.mp hread
      exact Context.isPlain_payload_of_readSection (hshort content hload) hload hread
  | verify file =>
    cases hverify : context.verify path.toText context.settings.driftTolerance with
    | error fault => rw [findAt, hverify] at h; cases h
    | ok result =>
      rw [findAt, hverify] at h
      cases h
      exact Context.isPlain_payload_of_verify hshort hverify

end Question

end SectionIndex
