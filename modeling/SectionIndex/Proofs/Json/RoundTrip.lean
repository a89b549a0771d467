import SectionIndex.Json.Record
import SectionIndex.Proofs.Json.Texts
import SectionIndex.Proofs.Text.Lines

/-!
# Values read back

A value that is spread over lines is read back as it was: white space between its parts does not
count, and each part ends where the next sign starts. This holds of values whose numbers are whole
and not too long, whose texts are characters, and whose objects have each key once.

## Main definitions

* `IsPlain` — such values, with brackets up to a depth.

## Main statements

* `parseValue_renderAt` — a plain value is read back, whatever follows it.
* `parse_renderIndented` — its text is read as the value.
-/

namespace SectionIndex

namespace Json

mutual

/-- **A plain value**, in which brackets stand inside each other at most `depth` deep: numbers are
whole and not too long, texts are characters, and no key of an object is there twice. -/
def IsPlain : (depth : Nat) → Json → Prop
  | _, .null => True
  | _, .bool _ => True
  | _, .int n => isWritable n = true
  | _, .binary _ => False
  | _, .str points => ∃ t : Text, points = t
  | 0, .arr _ => False
  | depth + 1, .arr items => ArePlain depth items
  | 0, .obj _ => False
  | depth + 1, .obj members =>
    (members.map Prod.fst).Nodup ∧ MembersArePlain depth members

/-- The same for items. -/
def ArePlain (depth : Nat) : List Json → Prop
  | [] => True
  | item :: items => IsPlain depth item ∧ ArePlain depth items

/-- The same for members. -/
def MembersArePlain (depth : Nat) : List (Points × Json) → Prop
  | [] => True
  | (key, value) :: members =>
    (∃ t : Text, key = t) ∧ IsPlain depth value ∧ MembersArePlain depth members

end

theorem isPlain_text (depth : Nat) (t : Text) : IsPlain depth (.str t) := by
  cases depth <;> exact ⟨t, rfl⟩

theorem isPlain_arr {depth : Nat} {items : List Json} (h : ∀ item ∈ items, IsPlain depth item) :
    IsPlain (depth + 1) (.arr items) := by
  show ArePlain depth items
  induction items with
  | nil => trivial
  | cons item items ih =>
    obtain ⟨hitem, hitems⟩ := List.forall_mem_cons.mp h
    exact ⟨hitem, ih hitems⟩

/-- A record is plain if its values are. -/
theorem isPlain_record {depth : Nat} {members : List (String × Json)}
    (hnodup : (members.map Prod.fst).Nodup) (h : ∀ member ∈ members, IsPlain depth member.2) :
    IsPlain (depth + 1) (.obj (record members)) := by
  refine ⟨?_, ?_⟩
  · -- different names are different keys
    let key (name : String) : Points := name.toList
    have hkeys : (record members).map Prod.fst = (members.map Prod.fst).map key := by
      rw [record, List.map_map, List.map_map]
      rfl
    rw [hkeys]
    refine List.Pairwise.map key (fun name name' hne heq => hne ?_) hnodup
    have htext := congrArg Points.toText? heq
    rw [Points.toText?_coe, Points.toText?_coe] at htext
    exact String.toList_inj.mp (Option.some.inj htext)
  · induction members with
    | nil => trivial
    | cons member members ih =>
      obtain ⟨hmember, hmembers⟩ := List.forall_mem_cons.mp h
      exact ⟨⟨_, rfl⟩, hmember, ih (List.nodup_cons.mp hnodup).2 hmembers⟩

/-! ### White space -/

theorem skipSpace_cons {p : CodePoint} (t : Points) (h : isSpace p = false) :
    skipSpace (p :: t) = p :: t := by
  simp [skipSpace, h]

/-- The start of a line is white space. -/
theorem skipSpace_indent (depth : Nat) (t : Points) :
    skipSpace ((indent depth : Points) ++ t) = skipSpace t := by
  have hspaces : ∀ n, skipSpace (((List.replicate n ' ' : Text) : Points) ++ t) = skipSpace t := by
    intro n
    induction n with
    | zero => rfl
    | succ n ih => rw [List.replicate_succ, ← ih]; rfl
  exact hspaces (2 * depth)

theorem endsNumber_indent (depth : Nat) (t : Points) :
    EndsNumber ((indent depth : Points) ++ t) := by
  rintro c h
  cases h
  decide

theorem endsNumber_comma (t : Points) : EndsNumber (.char ',' :: t) := by
  rintro c h
  cases h
  decide

/-! ### Values without brackets -/

/-- The value has no brackets. -/
def IsBare : Json → Prop
  | .arr _ | .obj _ => False
  | _ => True

variable {depth fuel : Nat} {value : Json} {rest : Points}

/-- A value is written from a sign on that is no white space and closes no bracket. -/
theorem exists_renderAt_append (place : Nat) (h : IsPlain depth value) (rest : Points) :
    ∃ c t, (renderAt place value : Points) ++ rest = .char c :: t ∧
      isSpace (.char c) = false ∧ c ≠ ']' ∧ (IsBare value → c ≠ '[' ∧ c ≠ '\x7b') := by
  -- each kind of value starts with a character of its own
  cases value with
  | null => exact ⟨'n', _, rfl, rfl, by decide, fun _ => by decide⟩
  | bool b =>
    cases b with
    | true => exact ⟨'t', _, rfl, rfl, by decide, fun _ => by decide⟩
    | false => exact ⟨'f', _, rfl, rfl, by decide, fun _ => by decide⟩
  | int n =>
    obtain ⟨d, t, hd, heq | heq⟩ := exists_ofInt_append n rest
    · have hne : ∀ c, c.isDigit = false → d ≠ c := by
        rintro c hc rfl
        exact absurd hd (by simp [hc])
      refine ⟨d, t, heq, ?_, hne ']' rfl, fun _ => ⟨hne '[' rfl, hne '\x7b' rfl⟩⟩
      simp [isSpace, hne ' ' rfl, hne '\t' rfl, hne '\n' rfl, hne '\r' rfl]
    · exact ⟨'-', _, heq, rfl, by decide, fun _ => by decide⟩
  | binary x => exact h.elim
  | str points =>
    obtain ⟨t, rfl⟩ := h
    exact ⟨'"', _, renderPoints_append t rest, rfl, by decide, fun _ => by decide⟩
  | arr items =>
    rw [renderAt, bracketed]
    split
    · exact ⟨'[', _, rfl, rfl, by decide, False.elim⟩
    · exact ⟨'[', _, rfl, rfl, by decide, False.elim⟩
  | obj members =>
    rw [renderAt, bracketed]
    split
    · exact ⟨'\x7b', _, rfl, rfl, by decide, False.elim⟩
    · exact ⟨'\x7b', _, rfl, rfl, by decide, False.elim⟩

/-- **A value without brackets** is read back. -/
theorem parsePlain_renderAt (place : Nat) (hbare : IsBare value) (h : IsPlain depth value)
    (hrest : EndsNumber rest) :
    parsePlain ((renderAt place value : Points) ++ rest) = .ok (value, rest) := by
  cases value with
  | null => rfl
  | bool b =>
    cases b with
    | true => rfl
    | false => rfl
  | int n =>
    have hword := takeWord?_ofInt n rest
    obtain ⟨c, t, heq, -, -, -⟩ := exists_renderAt_append place h rest
    show parsePlain ((Text.ofInt n : Points) ++ rest) = _
    unfold parsePlain
    split
    · next hquote =>
      -- a numeral starts with no quote
      obtain ⟨d, u, hd, hfirst | hfirst⟩ := exists_ofInt_append n rest
      all_goals
        rw [hfirst] at hquote
        obtain ⟨hsame, -⟩ := List.cons.inj hquote
        have hsame := CodePoint.char.inj hsame
      · rw [hsame] at hd
        exact absurd hd (by decide)
      · exact absurd hsame (by decide)
    · rw [hword]
      exact parseNumber_ofInt h hrest
  | binary x => exact h.elim
  | str points =>
    obtain ⟨t, rfl⟩ := h
    show parsePlain ((renderPoints t : Points) ++ rest) = _
    rw [renderPoints_append t rest]
    show (parseChars [] _).map _ = _
    rw [parseChars_escaped]
    rfl
  | arr items => exact hbare.elim
  | obj members => exact hbare.elim

/-! ### Values with brackets -/

theorem length_renderAt_pos (place : Nat) (h : IsPlain depth value) :
    0 < (renderAt place value).length := by
  obtain ⟨c, t, heq, -⟩ := exists_renderAt_append place h []
  have hlength := congrArg List.length heq
  simp only [List.append_nil, List.length_map, List.length_cons] at hlength
  omega

/-- A value without brackets is read by itself. -/
theorem parseValue_of_isBare (place : Nat) (hbare : IsBare value) (h : IsPlain depth value)
    (hrest : EndsNumber rest) (hfuel : 2 * (renderAt place value).length ≤ fuel) :
    parseValue depth fuel ((renderAt place value : Points) ++ rest) = .ok (value, rest) := by
  have hpos := length_renderAt_pos place h
  obtain ⟨fuel, rfl⟩ : ∃ n, fuel = n + 1 := ⟨fuel - 1, by omega⟩
  have hplain := parsePlain_renderAt place hbare h hrest
  obtain ⟨c, t, heq, -, -, hopen⟩ := exists_renderAt_append place h rest
  obtain ⟨hsquare, hcurly⟩ := hopen hbare
  rw [heq] at hplain ⊢
  rw [parseValue]
  · exact hplain
  · rintro u heq
    exact hsquare (CodePoint.char.inj (List.cons.inj heq).1)
  · rintro u heq
    exact hcurly (CodePoint.char.inj (List.cons.inj heq).1)

/-- A member that is put to others with other keys comes after them. -/
theorem Members.put_of_not_mem {key : Points} (value : Json) {members : Members}
    (h : key ∉ members.map Prod.fst) : members.put key value = members ++ [(key, value)] := by
  induction members with
  | nil => rfl
  | cons member members ih =>
    obtain ⟨k, v⟩ := member
    obtain ⟨hne, hmembers⟩ := not_or.mp (mt List.mem_cons.mpr h)
    rw [Members.put, if_neg (Ne.symm hne), ih hmembers, List.cons_append]

/-- A key that is there once comes after other keys. -/
theorem not_mem_of_nodup {key : Points} {value : Json} {seen members : Members}
    (h : ((seen ++ (key, value) :: members).map Prod.fst).Nodup) : key ∉ seen.map Prod.fst := by
  rw [List.map_append, List.nodup_append] at h
  exact fun hmem => h.2.2 key hmem key List.mem_cons_self rfl

/-! ### Parts between brackets -/

/-- The parts between two brackets, from the first one on. -/
def partsAt (place : Nat) (parts : List Text) : Text :=
  Text.join (',' :: indent (place + 1)) parts

theorem length_indent (place : Nat) : (indent place).length = 2 * place + 1 := by
  simp [indent]

theorem bracketed_of_ne_nil (opening closing : Char) (place : Nat) {parts : List Text}
    (h : parts ≠ []) : bracketed opening closing place parts =
      opening :: (indent (place + 1) ++ (partsAt place parts ++ (indent place ++ [closing]))) := by
  rw [bracketed, if_neg h]
  simp [partsAt]

theorem partsAt_singleton (place : Nat) (part : Text) : partsAt place [part] = part :=
  Text.join_singleton _ _

/-- After a comma the next part stands on a line of its own. -/
theorem partsAt_cons_append (place : Nat) (part : Text) {parts : List Text} (h : parts ≠ [])
    (rest : Points) :
    (partsAt place (part :: parts) : Points) ++ rest = (part : Points) ++ .char ',' ::
      ((indent (place + 1) : Points) ++ ((partsAt place parts : Points) ++ rest)) := by
  rw [partsAt, Text.join_cons_of_ne_nil _ _ h, partsAt]
  simp

theorem length_partsAt_cons (place : Nat) (part : Text) {parts : List Text} (h : parts ≠ []) :
    (partsAt place (part :: parts)).length =
      part.length + (2 * place + 4) + (partsAt place parts).length := by
  rw [partsAt, Text.join_cons_of_ne_nil _ _ h, partsAt]
  simp only [List.length_append, List.length_cons, length_indent]
  omega

/-- What is written of parts starts with the first of them. -/
theorem exists_partsAt_cons (place : Nat) (part : Text) (parts : List Text) (rest : Points) :
    ∃ after, (partsAt place (part :: parts) : Points) ++ rest = (part : Points) ++ after := by
  cases parts with
  | nil => exact ⟨rest, by rw [partsAt_singleton]⟩
  | cons next parts => exact ⟨_, partsAt_cons_append place part (List.cons_ne_nil _ _) rest⟩

theorem renderItemsAt_cons_ne_nil (place : Nat) (item : Json) (items : List Json) :
    renderItemsAt place (item :: items) ≠ [] :=
  List.cons_ne_nil _ _

theorem renderMembersAt_cons_ne_nil (place : Nat) (member : Points × Json) (members : Members) :
    renderMembersAt place (member :: members) ≠ [] :=
  List.cons_ne_nil _ _

/-- A line with items starts with the first of them, which closes no bracket. -/
theorem skipSpace_indent_items (place : Nat) (h : IsPlain depth value) (items : List Json)
    (rest : Points) :
    let written := (partsAt place (renderItemsAt (place + 1) (value :: items)) : Points) ++ rest
    skipSpace ((indent (place + 1) : Points) ++ written) = written ∧
      ∀ t, written ≠ .char ']' :: t := by
  intro written
  obtain ⟨after, hafter⟩ := exists_partsAt_cons place (renderAt (place + 1) value)
    (renderItemsAt (place + 1) items) rest
  obtain ⟨c, t, heq, hspace, hclose, -⟩ := exists_renderAt_append (place + 1) h after
  have hwritten : written = .char c :: t := hafter.trans heq
  rw [hwritten, skipSpace_indent]
  refine ⟨skipSpace_cons t hspace, fun u hu => hclose ?_⟩
  exact CodePoint.char.inj (List.cons.inj hu).1

/-- A member is written with its key in quotes, a colon and a space. -/
theorem renderMember_append (place : Nat) (key : Text) (value : Json) (rest : Points) :
    ((renderPoints key ++ ": " ++ renderAt place value : Text) : Points) ++ rest =
      .char '"' :: ((escaped key : Points) ++ .char '"' :: .char ':' :: .char ' ' ::
        ((renderAt place value : Points) ++ rest)) := by
  rw [List.map_append, List.map_append, List.append_assoc, List.append_assoc,
    renderPoints_append]
  rfl

/-- A line with members starts with the quote of the first key. -/
theorem skipSpace_indent_members (place : Nat) (key : Text) (value : Json) (members : Members)
    (rest : Points) :
    let written :=
      (partsAt place (renderMembersAt (place + 1) ((↑key, value) :: members)) : Points) ++ rest
    skipSpace ((indent (place + 1) : Points) ++ written) = written ∧
      ∀ t, written ≠ .char '\x7d' :: t := by
  intro written
  obtain ⟨after, hafter⟩ := exists_partsAt_cons place
    (renderPoints key ++ ": " ++ renderAt (place + 1) value)
    (renderMembersAt (place + 1) members) rest
  have hwritten := hafter.trans (renderMember_append (place + 1) key value after)
  replace hwritten : written = .char '"' :: _ := hwritten
  rw [hwritten, skipSpace_indent]
  refine ⟨skipSpace_cons _ rfl, fun u hu => ?_⟩
  exact absurd (CodePoint.char.inj (List.cons.inj hu).1) (by decide)

/-! ### Steps of the reader -/

variable {t after : Points} {key : Points}

theorem parseValue_square (h : skipSpace t = after) (hafter : ∀ u, after ≠ .char ']' :: u) :
    parseValue (depth + 1) (fuel + 1) (.char '[' :: t) = parseItems depth fuel [] after := by
  rw [parseValue, h]
  split
  · next heq => exact absurd rfl (hafter _)
  · rfl

theorem parseValue_curly (h : skipSpace t = after) (hafter : ∀ u, after ≠ .char '\x7d' :: u) :
    parseValue (depth + 1) (fuel + 1) (.char '\x7b' :: t) = parseMembers depth fuel [] after := by
  rw [parseValue, h]
  split
  · next heq => exact absurd rfl (hafter _)
  · rfl

/-- An array goes on after an item. -/
theorem parseItems_of_item (seen : List Json)
    (hvalue : parseValue depth fuel t = .ok (value, rest)) :
    parseItems depth (fuel + 1) seen t =
      match skipSpace rest with
      | .char ']' :: rest => .ok (.arr (value :: seen).reverse, rest)
      | .char ',' :: rest => parseItems depth fuel (value :: seen) (skipSpace rest)
      | _ => .error .malformed := by
  rewrite [parseItems, hvalue]
  rfl

/-- An object goes on after a member. -/
theorem parseMembers_of_member (seen : Members) (key : Text) (place : Nat)
    (hplain : IsPlain depth value)
    (hvalue : parseValue depth fuel ((renderAt place value : Points) ++ t) = .ok (value, rest)) :
    parseMembers depth (fuel + 1) seen
        (((renderPoints key ++ ": " ++ renderAt place value : Text) : Points) ++ t) =
      match skipSpace rest with
      | .char '\x7d' :: rest => .ok (.obj (seen.put key value), rest)
      | .char ',' :: rest => parseMembers depth fuel (seen.put key value) (skipSpace rest)
      | _ => .error .malformed := by
  obtain ⟨c, u, heq, hspace, -⟩ := exists_renderAt_append place hplain t
  -- the value begins with no blank, so only the one after the colon is skipped
  have hskip : skipSpace (.char ' ' :: ((renderAt place value : Points) ++ t)) =
      (renderAt place value : Points) ++ t := by
    rw [heq]
    exact skipSpace_cons u hspace
  have hcolon := skipSpace_cons (.char ' ' :: ((renderAt place value : Points) ++ t))
    (show isSpace (.char ':') = false from rfl)
  rewrite [renderMember_append, parseMembers, parseChars_escaped]
  dsimp only
  rewrite [hcolon]
  -- after the key comes a colon, and after that the value
  split
  · next heq =>
    cases heq
    rewrite [hskip, hvalue]
    rfl
  · next hno => exact absurd rfl (hno _)

/-! ### Values with brackets -/

mutual

/-- **A plain value is read back**, whatever follows it, with twice its length as fuel. -/
theorem parseValue_renderAt : ∀ (value : Json) {depth : Nat} (fuel place : Nat) {rest : Points},
    IsPlain depth value → EndsNumber rest → 2 * (renderAt place value).length ≤ fuel →
    parseValue depth fuel ((renderAt place value : Points) ++ rest) = .ok (value, rest)
  | .arr [], depth + 1, fuel + 1, place, rest, h, hrest, hfuel => rfl
  | .arr (item :: items), depth + 1, fuel + 1, place, rest, h, hrest, hfuel => by
    rw [renderAt, bracketed_of_ne_nil _ _ _ (renderItemsAt_cons_ne_nil _ _ _)] at hfuel ⊢
    simp only [List.length_cons, List.length_append, length_indent] at hfuel
    obtain ⟨hskip, hclose⟩ := skipSpace_indent_items place h.1 items
      ((indent place : Points) ++ .char ']' :: rest)
    have hitems := parseItems_partsAt (item :: items) fuel place [] rest h
      (List.cons_ne_nil _ _) (by omega)
    simp only [List.map_cons, List.map_append, List.map_nil, List.cons_append, List.append_assoc,
      List.nil_append]
    rw [parseValue_square hskip hclose, hitems]
    rfl
  | .obj [], depth + 1, fuel + 1, place, rest, h, hrest, hfuel => rfl
  | .obj ((key, value) :: members), depth + 1, fuel + 1, place, rest, h, hrest, hfuel => by
    rw [renderAt, bracketed_of_ne_nil _ _ _ (renderMembersAt_cons_ne_nil _ _ _)] at hfuel ⊢
    simp only [List.length_cons, List.length_append, length_indent] at hfuel
    obtain ⟨hnodup, ⟨key, rfl⟩, hvalue, hmembers⟩ := h
    obtain ⟨hskip, hclose⟩ := skipSpace_indent_members place key value members
      ((indent place : Points) ++ .char '\x7d' :: rest)
    have hmembers := parseMembers_partsAt ((↑key, value) :: members) fuel place [] rest
      ⟨⟨key, rfl⟩, hvalue, hmembers⟩ hnodup (List.cons_ne_nil _ _) (by omega)
    simp only [List.map_cons, List.map_append, List.map_nil, List.cons_append, List.append_assoc,
      List.nil_append]
    rw [parseValue_curly hskip hclose, hmembers]
    rfl
  | .null, _, _, place, _, h, hrest, hfuel => parseValue_of_isBare place trivial h hrest hfuel
  | .bool b, _, _, place, _, h, hrest, hfuel => parseValue_of_isBare place trivial h hrest hfuel
  | .int n, _, _, place, _, h, hrest, hfuel => parseValue_of_isBare place trivial h hrest hfuel
  | .str t, _, _, place, _, h, hrest, hfuel => parseValue_of_isBare place trivial h hrest hfuel

/-- The items of an array are read back, after those that were seen before. -/
theorem parseItems_partsAt : ∀ (items : List Json) {depth : Nat} (fuel place : Nat)
    (seen : List Json) (rest : Points), ArePlain depth items → items ≠ [] →
    2 * (partsAt place (renderItemsAt (place + 1) items)).length + 1 ≤ fuel →
    parseItems depth fuel seen ((partsAt place (renderItemsAt (place + 1) items) : Points) ++
        ((indent place : Points) ++ .char ']' :: rest)) =
      .ok (.arr (seen.reverse ++ items), rest)
  | [item], depth, fuel + 1, place, seen, rest, h, _, hfuel => by
    rw [renderItemsAt, renderItemsAt, partsAt_singleton] at hfuel ⊢
    have hitem := parseValue_renderAt item fuel (place + 1) h.1
      (endsNumber_indent place (.char ']' :: rest)) (by omega)
    rw [parseItems_of_item seen hitem, skipSpace_indent, skipSpace_cons _ rfl]
    simp only [List.reverse_cons]
  | item :: next :: items, depth, fuel + 1, place, seen, rest, h, _, hfuel => by
    obtain ⟨hitem, hitems⟩ := h
    rw [renderItemsAt, length_partsAt_cons _ _ (renderItemsAt_cons_ne_nil _ _ _)] at hfuel
    have hitem := parseValue_renderAt item fuel (place + 1) hitem
      (endsNumber_comma ((indent (place + 1) : Points) ++
        ((partsAt place (renderItemsAt (place + 1) (next :: items)) : Points) ++
          ((indent place : Points) ++ .char ']' :: rest)))) (by omega)
    obtain ⟨hskip, -⟩ := skipSpace_indent_items place hitems.1 items
      ((indent place : Points) ++ .char ']' :: rest)
    rw [renderItemsAt, partsAt_cons_append _ _ (renderItemsAt_cons_ne_nil _ _ _),
      parseItems_of_item seen hitem, skipSpace_cons _ rfl]
    simp only [hskip]
    rw [parseItems_partsAt (next :: items) fuel place (item :: seen) rest hitems
      (List.cons_ne_nil _ _) (by omega)]
    simp

/-- The members of an object are read back, after those that were seen before. -/
theorem parseMembers_partsAt : ∀ (members : Members) {depth : Nat} (fuel place : Nat)
    (seen : Members) (rest : Points), MembersArePlain depth members →
    ((seen ++ members).map Prod.fst).Nodup → members ≠ [] →
    2 * (partsAt place (renderMembersAt (place + 1) members)).length + 1 ≤ fuel →
    parseMembers depth fuel seen ((partsAt place (renderMembersAt (place + 1) members) : Points) ++
        ((indent place : Points) ++ .char '\x7d' :: rest)) =
      .ok (.obj (seen ++ members), rest)
  | [(key, value)], depth, fuel + 1, place, seen, rest, h, hnodup, _, hfuel => by
    rw [renderMembersAt, renderMembersAt, partsAt_singleton] at hfuel ⊢
    simp only [List.length_append] at hfuel
    obtain ⟨⟨key, rfl⟩, hplain, -⟩ := h
    have hvalue := parseValue_renderAt value fuel (place + 1) hplain
      (endsNumber_indent place (.char '\x7d' :: rest)) (by omega)
    rw [parseMembers_of_member seen key (place + 1) hplain hvalue, skipSpace_indent,
      skipSpace_cons _ rfl]
    simp only [Members.put_of_not_mem value (not_mem_of_nodup hnodup)]
  | (key, value) :: next :: members, depth, fuel + 1, place, seen, rest, h, hnodup, _, hfuel => by
    obtain ⟨⟨key, rfl⟩, hplain, hmembers⟩ := h
    rw [renderMembersAt, length_partsAt_cons _ _ (renderMembersAt_cons_ne_nil _ _ _),
      List.length_append] at hfuel
    obtain ⟨nextKey, nextValue⟩ := next
    obtain ⟨nextKey, rfl⟩ := hmembers.1
    have hvalue := parseValue_renderAt value fuel (place + 1) hplain
      (endsNumber_comma ((indent (place + 1) : Points) ++ ((partsAt place
        (renderMembersAt (place + 1) ((↑nextKey, nextValue) :: members)) : Points) ++
          ((indent place : Points) ++ .char '\x7d' :: rest)))) (by omega)
    obtain ⟨hskip, -⟩ := skipSpace_indent_members place nextKey nextValue members
      ((indent place : Points) ++ .char '\x7d' :: rest)
    rw [renderMembersAt, partsAt_cons_append _ _ (renderMembersAt_cons_ne_nil _ _ _),
      parseMembers_of_member seen key (place + 1) hplain hvalue, skipSpace_cons _ rfl]
    simp only [hskip]
    rw [Members.put_of_not_mem value (not_mem_of_nodup hnodup),
      parseMembers_partsAt ((↑nextKey, nextValue) :: members) fuel place _ rest hmembers
        (by simpa using hnodup) (List.cons_ne_nil _ _) (by omega)]
    simp

end

/-- **The text of a plain value is read as the value.** -/
theorem parse_renderIndented (h : IsPlain depth value) :
    parse depth (value.renderIndented : Points) = .ok value := by
  obtain ⟨c, t, heq, hspace, -⟩ := exists_renderAt_append 0 h []
  rw [List.append_nil] at heq
  have hskip : skipSpace (value.renderIndented : Points) = value.renderIndented := by
    rw [renderIndented, heq]
    exact skipSpace_cons t hspace
  have hvalue := parseValue_renderAt value (2 * (renderAt 0 value).length + 2) 0 h
    endsNumber_nil (by omega)
  rw [List.append_nil] at hvalue
  rw [parse, hskip, List.length_map, renderIndented, hvalue]
  rfl

end Json

end SectionIndex
