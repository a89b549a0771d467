import SectionIndex.Proofs.Indexing.Order
import SectionIndex.Proofs.Service.Responses

/-!
# Sections that are listed and read

The index that a tool lists is found anew when a section is read, from the same file. As all names
of an index are different, the section that is read is the one that was listed. Only a section
without a name cannot be asked for: a mark with nothing but blanks where its name should stand opens
such a section.

## Main definitions

* `Tool.AsksFor` — arguments that ask for a section of a file.
* `ToolResult.IsReadingOf` — the answer with the text of a section.

## Main statements

* `Context.exists_readSection_of_mem` — every section of an index is read by its name.
* `Tool.exists_reading_iff_name_ne_nil` — what is listed can be read, if it has a name.
-/

namespace SectionIndex

/-! ### Sections of an index -/

/-- A section of an index is found by its name, as no other has it. -/
theorem FileIndex.find?_of_mem {index : FileIndex} {s : Section} (hnodup : index.names.Nodup)
    (hs : s ∈ index.sections) : index.find? s.name = some s := by
  cases hfind : index.find? s.name with
  | none => exact absurd (List.mem_map_of_mem hs) (find?_eq_none_iff.mp hfind)
  | some t =>
    obtain ⟨ht, hname⟩ := find?_eq_some hfind
    exact congrArg some (List.inj_on_of_nodup_map hnodup ht hs hname)

namespace Context

variable {context : Context} {later : Moment} {file : Text} {index : FileIndex} {s : Section}

/-- The index of a file at a later time has the same sections. -/
theorem exists_indexOf_later {content : Text} (hlater : later.utc? ≠ none)
    (h : context.indexOf file content = .ok index) :
    ∃ index', (⟨context.host, context.settings, later⟩ : Context).indexOf file content =
      .ok index' ∧ index'.sections = index.sections := by
  obtain ⟨⟨sections, companion⟩, hdetect, h⟩ := Fault.bind_eq_ok_iff.mp h
  obtain ⟨now, -, h⟩ := Fault.bind_eq_ok_iff.mp h
  cases h
  obtain ⟨moment, hmoment⟩ := Option.ne_none_iff_exists'.mp hlater
  have hnow : (⟨context.host, context.settings, later⟩ : Context).utcNow = .ok moment :=
    utcNow_eq_ok_iff.mpr hmoment
  exact ⟨_, Fault.bind_eq_ok_iff.mpr ⟨_, hdetect, Fault.bind_eq_ok_iff.mpr ⟨_, hnow, rfl⟩⟩, rfl⟩

/-- **Every section of an index is read by its name**, also at a later time. -/
theorem exists_readSection_of_mem (hlater : later.utc? ≠ none)
    (h : context.index file = .ok index) (hs : s ∈ index.sections) :
    ∃ content, (⟨context.host, context.settings, later⟩ : Context).readSection file s.name =
      .ok (.text s content) := by
  obtain ⟨content, hload, hindex⟩ := Fault.bind_eq_ok_iff.mp h
  obtain ⟨index', hindex', hsections⟩ := exists_indexOf_later hlater hindex
  have hfind : index'.find? s.name = some s :=
    FileIndex.find?_of_mem (isSound_of_indexOf hindex').nodup_names (hsections ▸ hs)
  refine ⟨sectionText (Text.splitLines content) s, Fault.bind_eq_ok_iff.mpr ⟨content, hload, ?_⟩⟩
  refine Fault.bind_eq_ok_iff.mpr ⟨index', hindex', ?_⟩
  rw [hfind]
  rfl

end Context

/-! ### Answers of tools -/

/-- A section that is listed tells its name and its lines. -/
theorem Section.eq_of_payload_eq {s t : Section} (h : s.payload = t.payload) :
    s.name = t.name ∧ s.first = t.first ∧ s.last = t.last := by
  have hname : some (Json.str s.name) = some (Json.str t.name) := congrArg (·.member? "name") h
  have hfirst : some (Json.int s.first) = some (Json.int t.first) :=
    congrArg (·.member? "start") h
  have hlast : some (Json.int s.last) = some (Json.int t.last) := congrArg (·.member? "end") h
  have htext := congrArg Points.toText? (Json.str.inj (Option.some.inj hname))
  rw [Points.toText?_coe, Points.toText?_coe] at htext
  exact ⟨Option.some.inj htext, Json.int.inj (Option.some.inj hfirst),
    Json.int.inj (Option.some.inj hlast)⟩

/-- The text of a section is no error. -/
theorem ToolResult.isError_reply_text (question : Text) (s : Section) (content : Text) :
    (ToolResult.reply question (ReadResult.text s content).payload).isError = false :=
  rfl

/-- **The answer with the text of a section:** no error, and the name and the lines of the
section. -/
structure ToolResult.IsReadingOf (reading : ToolResult) (s : Section) : Prop where
  noError : reading.isError = false
  name : reading.payload.get? "section" = some (.str s.name)
  first : reading.payload.get? "start" = some (.int s.first)
  last : reading.payload.get? "end" = some (.int s.last)

theorem ToolResult.isReadingOf_reply (question : Text) (s : Section) (content : Text) :
    (ToolResult.reply question (ReadResult.text s content).payload).IsReadingOf s where
  noError := isError_reply_text question s content
  name := rfl
  first := rfl
  last := rfl

namespace Tool

/-- **The arguments ask for a section** of the file that other arguments name. -/
structure AsksFor (arguments : Json) (s : Section) (asked : Json) : Prop where
  file : asked.member? fileParameter = arguments.member? fileParameter
  name : asked.member? sectionParameter = some (.str s.name)

variable {context : Context} {arguments asked : Json} {listing : ToolResult} {s : Section}

theorem argument?_eq_member? (arguments : Json) (parameter : Text) :
    argument? arguments parameter =
      ((arguments.member? parameter).bind Json.exactText?).filter fun value => value ≠ [] := by
  cases arguments with
  | obj members => rfl
  | _ => rfl

/-- The name of a section is a proper value if it is not empty. -/
theorem AsksFor.argument?_section (h : AsksFor arguments s asked) :
    argument? asked sectionParameter = if s.name = [] then none else some s.name := by
  rw [argument?_eq_member?, h.name, Option.bind_some, Json.exactText?_str]
  by_cases hname : s.name = []
  · simp [hname]
  · simp [hname]

theorem AsksFor.argument?_file (h : AsksFor arguments s asked) :
    argument? asked fileParameter = argument? arguments fileParameter := by
  rw [argument?_eq_member?, argument?_eq_member?, h.file]

/-- An answer that is no error is a reply. -/
theorem exists_of_orFailure {question : Text} {payload? : Except Fault Json.Members}
    (h : ToolResult.orFailure question payload? = .ok listing) (hok : listing.isError = false) :
    ∃ payload, payload? = .ok payload ∧ listing.payload = payload := by
  cases payload? with
  | ok payload =>
    cases h
    exact ⟨payload, rfl, rfl⟩
  | error fault =>
    simp only [ToolResult.orFailure] at h
    split at h
    · cases h
      rw [ToolResult.isError_failure] at hok
      nomatch hok
    · nomatch h

/-- **A listing is the index of a file** in the workspace. -/
theorem exists_index_of_call (h : call context .getFileIndex arguments = .ok listing)
    (hok : listing.isError = false) :
    ∃ file path index, argument? arguments fileParameter = some file ∧
      context.resolvePath file = .ok path ∧ context.index path.toText = .ok index ∧
      listing.payload = index.payload := by
  unfold call at h
  cases hfile : argument? arguments fileParameter with
  | none =>
    rw [hfile] at h
    cases h
    exact absurd hok (by simp [invalidArguments])
  | some file =>
    rw [hfile] at h
    obtain ⟨payload, hpayload, heq⟩ := exists_of_orFailure h hok
    obtain ⟨path, hpath, hpayload⟩ := Fault.bind_eq_ok_iff.mp hpayload
    obtain ⟨index, hindex, hpayload⟩ := Fault.bind_eq_ok_iff.mp hpayload
    cases hpayload
    exact ⟨file, path, index, rfl, hpath, hindex, heq⟩

/-- **What is listed can be read.** A section of a listing is read by its name, with the lines that
are listed and also at a later time, if and only if its name is not empty. -/
theorem exists_reading_iff_name_ne_nil {later : Moment} (hlater : later.utc? ≠ none)
    (hlisting : call context .getFileIndex arguments = .ok listing)
    (hok : listing.isError = false) :
    ∃ sections : List Section,
      listing.payload.get? "sections" = some (.arr (sections.map Section.payload)) ∧
      ∀ s ∈ sections, ∀ asked, AsksFor arguments s asked →
        ((∃ reading, call ⟨context.host, context.settings, later⟩ .readSection asked =
          .ok reading ∧ reading.IsReadingOf s) ↔ s.name ≠ []) := by
  obtain ⟨file, path, index, hfile, hpath, hindex, hpayload⟩ := exists_index_of_call hlisting hok
  refine ⟨index.sections, by rw [hpayload]; rfl, fun s hs asked hasks => ?_⟩
  have hname := hasks.argument?_section
  have hfile' : argument? asked fileParameter = some file := hasks.argument?_file.trans hfile
  unfold call
  rw [hfile', hname]
  by_cases hnil : s.name = []
  · -- a name that is empty is no proper value
    rw [if_pos hnil]
    refine ⟨?_, fun hne => absurd hnil hne⟩
    rintro ⟨reading, hcall, hreading⟩
    cases hcall
    exact absurd hreading.noError (by simp [invalidArguments])
  · rw [if_neg hnil]
    refine ⟨fun _ => hnil, fun _ => ?_⟩
    -- a section of the index is found again by its name
    obtain ⟨content, hread⟩ := Context.exists_readSection_of_mem hlater hindex hs
    have hsection : sectionPayload ⟨context.host, context.settings, later⟩ file s.name =
        .ok (ReadResult.text s content).payload :=
      Fault.bind_eq_ok_iff.mpr ⟨path, hpath, Fault.bind_eq_ok_iff.mpr ⟨_, hread, rfl⟩⟩
    refine ⟨_, ?_, ToolResult.isReadingOf_reply (file ++ ' ' :: s.name) s content⟩
    simp only [hsection]
    rfl

/-- A mark with only blanks for a name opens a section that is listed and cannot be asked for. -/
theorem not_exists_reading_of_blank_mark :
    let content : Text := "//#region  \nlet x = 1;\n//#endregion\n"
    let context : Context := ⟨⟨⟨[(["ws"], .directory), (["ws", "a.ts"],
      .file (encodeUtf8 content))]⟩, [], "/", []⟩, { workspaceRoot := ⟨.root, ["ws"]⟩ },
      ⟨2024, 2, 29, 1, 2, 3, 4, 0⟩⟩
    let arguments : Json := .obj (Json.record [("file_path", .str ("a.ts" : Text))])
    let asked : Json := .obj (Json.record
      [("file_path", .str ("a.ts" : Text)), ("section_name", .str ([] : Text))])
    context.now.utc? ≠ none ∧ ∃ listing s, call context .getFileIndex arguments = .ok listing ∧
      listing.isError = false ∧ listing.payload.get? "sections" = some (.arr [s.payload]) ∧
      AsksFor arguments s asked ∧
      ¬ ∃ reading, call context .readSection asked = .ok reading ∧ reading.IsReadingOf s := by
  intro content context arguments asked
  let s : Section := ⟨[], 1, 3, [], .explicit⟩
  have hclock : context.now.utc? ≠ none := by decide
  have hpath : context.resolvePath "a.ts" = .ok (.ofLocation ["ws", "a.ts"]) := by decide +kernel
  have hload : context.host.loadFile "/ws/a.ts" = .ok content := by decide +kernel
  have hdetect : context.detect "/ws/a.ts" (Text.splitLines content) = .ok ([s], none) := by
    decide +kernel
  have hnow : context.utcNow = .ok context.now := by decide +kernel
  obtain ⟨index, hindex, hsections⟩ : ∃ index, context.index "/ws/a.ts" = .ok index ∧
      index.sections = [s] :=
    ⟨_, Fault.bind_eq_ok_iff.mpr ⟨content, hload, Fault.bind_eq_ok_iff.mpr
      ⟨_, hdetect, Fault.bind_eq_ok_iff.mpr ⟨_, hnow, rfl⟩⟩⟩, rfl⟩
  have hpayload : fileIndexPayload context "a.ts" = .ok index.payload :=
    Fault.bind_eq_ok_iff.mpr ⟨_, hpath, Fault.bind_eq_ok_iff.mpr ⟨index, hindex, rfl⟩⟩
  have hcall : call context .getFileIndex arguments = .ok (.reply "a.ts" index.payload) := by
    show ToolResult.orFailure "a.ts" (fileIndexPayload context "a.ts") = _
    rw [hpayload]
    rfl
  have hok : (ToolResult.reply "a.ts" index.payload).isError = false := rfl
  have hlisted : index.payload.get? "sections" = some (.arr [s.payload]) := by
    show some (Json.arr (index.sections.map Section.payload)) = _
    rw [hsections]
    rfl
  refine ⟨hclock, _, s, hcall, hok, hlisted, ⟨rfl, rfl⟩, fun hread => ?_⟩
  obtain ⟨sections, hentries, hreads⟩ := exists_reading_iff_name_ne_nil hclock hcall hok
  -- the one section that is listed has no name
  have hentries : [s.payload] = sections.map Section.payload :=
    Json.arr.inj (Option.some.inj (hlisted.symm.trans hentries))
  obtain ⟨t, rfl, ht⟩ := List.map_eq_singleton_iff.mp hentries.symm
  obtain ⟨hname, hfirst, hlast⟩ := Section.eq_of_payload_eq ht
  have hasks : AsksFor arguments t asked := ⟨rfl, by rw [hname]; rfl⟩
  obtain ⟨reading, hcall, hreading⟩ := hread
  refine (hreads t (List.mem_singleton_self t) asked hasks).mp ⟨reading, hcall, ?_⟩ hname
  exact ⟨hreading.noError, hname ▸ hreading.name, hfirst ▸ hreading.first, hlast ▸ hreading.last⟩

end Tool

end SectionIndex
