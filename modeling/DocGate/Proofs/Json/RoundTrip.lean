import DocGate.Proofs.Json.NumberLiteral
import DocGate.Proofs.Json.StringLiteral

/-!
# Trees read back

The text of a tree is read back to the same tree (`RawJson.read?_render`).

* One lemma for each shape says what the reader does at the first character of
  a value, after an item and after a member.
* `RawJson.takeValue?_chars` is the induction on the tree.  The reader counts
  its steps; the bound on them is twice the length of the text, as in the
  reader.
-/

namespace DocGate

namespace RawJson

theorem skipSpace_cons {c : Char} (h : isSpace c = false) (rest : List Char) :
    skipSpace (c :: rest) = c :: rest :=
  List.dropWhile_cons_of_neg (by simp [h])

/-! ## What stands first -/

/-- A number starts with its sign or a digit. -/
theorem exists_numeralChars_eq_cons (value : Numeral) :
    ∃ c rest, numeralChars value = c :: rest ∧ (c = '-' ∨ c.isDigit = true) := by
  have hfirst : ∀ (negative : Bool) (n : Nat) (after : List Char), ∃ c rest,
      (if negative then ['-'] else []) ++ (Text.digits n ++ after) = c :: rest ∧
        (c = '-' ∨ c.isDigit = true) := by
    intro negative n after
    obtain ⟨c, more, hdigits, -⟩ := Text.exists_digits_eq_cons n
    cases negative with
    | true => exact ⟨'-', _, rfl, .inl rfl⟩
    | false =>
      rw [hdigits]
      exact ⟨c, _, rfl, .inr (Text.isDigit_of_mem_digits c (hdigits ▸ List.mem_cons_self))⟩
  cases value with
  | integer negative magnitude =>
    simpa [numeralChars] using hfirst negative magnitude []
  | decimal negative whole fraction power =>
    simpa [numeralChars] using hfirst negative whole
      (fractionChars fraction ++ 'e' :: Text.integerChars power)

/-- What a number starts with is told apart from what other values start with. -/
theorem ne_of_startsNumber {c d : Char} (hc : c = '-' ∨ c.isDigit = true)
    (hd : ¬ (d = '-' ∨ d.isDigit = true)) : c ≠ d := by
  rintro rfl
  exact hd hc

theorem isSpace_of_startsNumber {c : Char} (hc : c = '-' ∨ c.isDigit = true) :
    isSpace c = false := by
  simp only [isSpace, Bool.or_eq_false_iff, beq_eq_false_iff_ne]
  exact ⟨⟨⟨ne_of_startsNumber hc (by decide), ne_of_startsNumber hc (by decide)⟩,
    ne_of_startsNumber hc (by decide)⟩, ne_of_startsNumber hc (by decide)⟩

/-- A value starts with a character that is no white space and closes no array. -/
theorem exists_chars_eq_cons (value : RawJson) :
    ∃ c rest, value.chars = c :: rest ∧ isSpace c = false ∧ c ≠ ']' := by
  cases value with
  | null => exact ⟨'n', _, rfl, by decide, by decide⟩
  | bool value =>
    cases value with
    | true => exact ⟨'t', _, rfl, by decide, by decide⟩
    | false => exact ⟨'f', _, rfl, by decide, by decide⟩
  | number value =>
    obtain ⟨c, rest, hchars, hc⟩ := exists_numeralChars_eq_cons value
    exact ⟨c, rest, hchars, isSpace_of_startsNumber hc, ne_of_startsNumber hc (by decide)⟩
  | string pieces => exact ⟨'"', _, rfl, by decide, by decide⟩
  | array items => exact ⟨'[', _, rfl, by decide, by decide⟩
  | object members => exact ⟨'\x7b', _, rfl, by decide, by decide⟩

/-- So do the items of an array. -/
theorem exists_itemChars_eq_cons (item : RawJson) (items : List RawJson) :
    ∃ c rest, itemChars (item :: items) = c :: rest ∧ isSpace c = false ∧ c ≠ ']' := by
  obtain ⟨c, rest, hchars, hc⟩ := exists_chars_eq_cons item
  cases items with
  | nil => exact ⟨c, rest, by rw [itemChars, hchars], hc⟩
  | cons second more => exact ⟨c, _, by rw [itemChars, hchars, List.cons_append], hc⟩

/-- The members of an object start with the quote of the first key. -/
theorem exists_memberChars_eq_cons (member : List StringPiece × RawJson)
    (members : List (List StringPiece × RawJson)) :
    ∃ rest, memberChars (member :: members) = '"' :: rest := by
  obtain ⟨key, value⟩ := member
  cases members with
  | nil => exact ⟨_, rfl⟩
  | cons second more => exact ⟨_, rfl⟩

/-! ## The reader at each shape -/

theorem takeValue?_number {c : Char} {cs : List Char} (hc : c = '-' ∨ c.isDigit = true)
    (steps : Nat) :
    takeValue? (steps + 1) (c :: cs) =
      (takeNumber? (c :: cs)).map fun taken => (.number taken.1, taken.2) := by
  rw [takeValue?, skipSpace_cons (isSpace_of_startsNumber hc)]
  split
  case h_7 => cases takeNumber? (c :: cs) <;> rfl
  -- The other values start with characters that start no number.
  all_goals
    rename_i hcons
    exact absurd (List.cons.inj hcons).1 (ne_of_startsNumber hc (by decide))

theorem takeValue?_array {c : Char} {cs : List Char} (hspace : isSpace c = false) (hclose : c ≠ ']')
    (steps : Nat) :
    takeValue? (steps + 1) ('[' :: c :: cs) =
      (takeItems? steps (c :: cs)).map fun taken => (.array taken.1, taken.2) := by
  have hopen : skipSpace ('[' :: c :: cs) = '[' :: c :: cs := rfl
  rw [takeValue?, hopen]
  simp only [skipSpace_cons hspace]
  split
  · rename_i hclosed
    exact absurd (List.cons.inj hclosed).1 hclose
  · cases takeItems? steps (c :: cs) <;> rfl

theorem takeValue?_object (steps : Nat) (cs : List Char) :
    takeValue? (steps + 1) ('\x7b' :: '"' :: cs) =
      (takeMembers? steps ('"' :: cs)).map fun taken => (.object taken.1, taken.2) := by
  have hopen : skipSpace ('\x7b' :: '"' :: cs) = '\x7b' :: '"' :: cs := rfl
  have hquote : skipSpace ('"' :: cs) = '"' :: cs := rfl
  rw [takeValue?, hopen]
  simp only [hquote]
  split
  · rename_i hclosed
    exact absurd (List.cons.inj hclosed).1 (by decide)
  · cases takeMembers? steps ('"' :: cs) <;> rfl

theorem takeItems?_last {steps : Nat} {cs after : List Char} {item : RawJson}
    (hitem : takeValue? steps cs = some (item, ']' :: after)) :
    takeItems? (steps + 1) cs = some ([item], after) := by
  have hclose : skipSpace (']' :: after) = ']' :: after := rfl
  rw [takeItems?, hitem]
  simp only [hclose]

theorem takeItems?_more {steps : Nat} {cs more after : List Char} {item : RawJson}
    {items : List RawJson} (hitem : takeValue? steps cs = some (item, ',' :: more))
    (hitems : takeItems? steps more = some (items, after)) :
    takeItems? (steps + 1) cs = some (item :: items, after) := by
  have hcomma : skipSpace (',' :: more) = ',' :: more := rfl
  rw [takeItems?, hitem]
  simp only [hcomma, hitems]

theorem takeMembers?_last {steps : Nat} {start after : List Char} {value : RawJson}
    (key : List StringPiece) (hvalue : takeValue? steps start = some (value, '\x7d' :: after)) :
    takeMembers? (steps + 1) (stringChars key ++ ':' :: start) = some ([(key, value)], after) := by
  have hquote : ∀ cs, skipSpace ('"' :: cs) = '"' :: cs := fun _ => rfl
  have hcolon : skipSpace (':' :: start) = ':' :: start := rfl
  have hclose : skipSpace ('\x7d' :: after) = '\x7d' :: after := rfl
  rw [stringChars_append, takeMembers?, hquote]
  simp only [takePieces?_flatMap_pieceChars, hcolon, hvalue, hclose]

theorem takeMembers?_more {steps : Nat} {start more after : List Char} {value : RawJson}
    {members : List (List StringPiece × RawJson)} (key : List StringPiece)
    (hvalue : takeValue? steps start = some (value, ',' :: more))
    (hmembers : takeMembers? steps more = some (members, after)) :
    takeMembers? (steps + 1) (stringChars key ++ ':' :: start) =
      some ((key, value) :: members, after) := by
  have hquote : ∀ cs, skipSpace ('"' :: cs) = '"' :: cs := fun _ => rfl
  have hcolon : skipSpace (':' :: start) = ':' :: start := rfl
  have hcomma : skipSpace (',' :: more) = ',' :: more := rfl
  rw [stringChars_append, takeMembers?, hquote]
  simp only [takePieces?_flatMap_pieceChars, hcolon, hvalue, hcomma, hmembers]

/-! ## Values -/

/-- A character that ends a value does not go on with a number. -/
theorem endsNumber_cons {c : Char} {rest : List Char}
    (h : c = ',' ∨ c = ']' ∨ c = '\x7d') : EndsNumber (c :: rest) := by
  intro d hd
  obtain rfl := Option.some.inj hd
  rcases h with rfl | rfl | rfl <;> decide

theorem length_chars_pos (value : RawJson) : 0 < value.chars.length := by
  obtain ⟨c, rest, hchars, -⟩ := exists_chars_eq_cons value
  rw [hchars]
  exact Nat.succ_pos _

mutual

/-- A written value is read back within two steps for each of its characters,
less one. -/
theorem takeValue?_chars : ∀ (value : RawJson) (steps : Nat) (rest : List Char),
    2 * value.chars.length ≤ steps + 2 → EndsNumber rest →
    takeValue? (steps + 1) (value.chars ++ rest) = some (value, rest)
  | .null, _, _, _, _ => rfl
  | .bool true, _, _, _, _ => rfl
  | .bool false, _, _, _, _ => rfl
  | .number value, steps, rest, _, hrest => by
    obtain ⟨c, more, hchars, hc⟩ := exists_numeralChars_eq_cons value
    have hread := takeNumber?_numeralChars value hrest
    rw [hchars, List.cons_append] at hread
    rw [chars, hchars, List.cons_append, takeValue?_number hc, hread]
    rfl
  | .string pieces, steps, rest, _, _ => takeValue?_stringChars steps pieces rest
  | .array [], _, _, _, _ => rfl
  | .array (item :: items), steps, rest, hsteps, _ => by
    rw [chars, List.cons_append, List.length_cons, List.length_append, List.length_singleton]
      at hsteps
    obtain ⟨n, rfl⟩ : ∃ n, steps = n + 2 := ⟨steps - 2, by omega⟩
    have hitems := takeItems?_itemChars (item :: items) n rest (List.cons_ne_nil _ _) (by omega)
    obtain ⟨c, more, hchars, hspace, hclose⟩ := exists_itemChars_eq_cons item items
    rw [hchars, List.cons_append] at hitems
    rw [chars, List.append_assoc, hchars]
    show takeValue? (n + 2 + 1) ('[' :: c :: (more ++ ']' :: rest)) = _
    rw [takeValue?_array hspace hclose, hitems]
    rfl
  | .object [], _, _, _, _ => rfl
  | .object (member :: members), steps, rest, hsteps, _ => by
    rw [chars, List.cons_append, List.length_cons, List.length_append, List.length_singleton]
      at hsteps
    obtain ⟨n, rfl⟩ : ∃ n, steps = n + 2 := ⟨steps - 2, by omega⟩
    have hmembers := takeMembers?_memberChars (member :: members) n rest (List.cons_ne_nil _ _)
      (by omega)
    obtain ⟨more, hchars⟩ := exists_memberChars_eq_cons member members
    rw [hchars, List.cons_append] at hmembers
    rw [chars, List.append_assoc, hchars]
    show takeValue? (n + 2 + 1) ('\x7b' :: '"' :: (more ++ '\x7d' :: rest)) = _
    rw [takeValue?_object, hmembers]
    rfl

/-- Written items are read back up to the closing bracket. -/
theorem takeItems?_itemChars : ∀ (items : List RawJson) (steps : Nat) (rest : List Char),
    items ≠ [] → 2 * (itemChars items).length ≤ steps + 2 →
    takeItems? (steps + 2) (itemChars items ++ ']' :: rest) = some (items, rest)
  | [], _, _, hne, _ => absurd rfl hne
  | [item], steps, rest, _, hsteps => by
    rw [itemChars] at hsteps ⊢
    exact takeItems?_last
      (takeValue?_chars item steps (']' :: rest) hsteps (endsNumber_cons (.inr (.inl rfl))))
  | item :: second :: more, steps, rest, _, hsteps => by
    have hpos := length_chars_pos item
    rw [itemChars, List.length_append, List.length_cons] at hsteps
    obtain ⟨n, rfl⟩ : ∃ n, steps = n + 1 := ⟨steps - 1, by omega⟩
    have hitem := takeValue?_chars item (n + 1)
      (',' :: (itemChars (second :: more) ++ ']' :: rest)) (by omega) (endsNumber_cons (.inl rfl))
    have hitems := takeItems?_itemChars (second :: more) n rest (List.cons_ne_nil _ _) (by omega)
    rw [itemChars, List.append_assoc, List.cons_append]
    exact takeItems?_more hitem hitems

/-- Written members are read back up to the closing brace. -/
theorem takeMembers?_memberChars : ∀ (members : List (List StringPiece × RawJson)) (steps : Nat)
    (rest : List Char), members ≠ [] → 2 * (memberChars members).length ≤ steps + 2 →
    takeMembers? (steps + 2) (memberChars members ++ '\x7d' :: rest) = some (members, rest)
  | [], _, _, hne, _ => absurd rfl hne
  | [(key, value)], steps, rest, _, hsteps => by
    rw [memberChars, List.length_append, List.length_cons] at hsteps
    have hvalue := takeValue?_chars value steps ('\x7d' :: rest) (by omega)
      (endsNumber_cons (.inr (.inr rfl)))
    rw [memberChars, List.append_assoc, List.cons_append]
    exact takeMembers?_last key hvalue
  | (key, value) :: second :: more, steps, rest, _, hsteps => by
    have hpos := length_chars_pos value
    rw [memberChars, List.length_append, List.length_append, List.length_cons, List.length_cons]
      at hsteps
    obtain ⟨n, rfl⟩ : ∃ n, steps = n + 1 := ⟨steps - 1, by omega⟩
    have hvalue := takeValue?_chars value (n + 1)
      (',' :: (memberChars (second :: more) ++ '\x7d' :: rest)) (by omega)
      (endsNumber_cons (.inl rfl))
    have hmembers := takeMembers?_memberChars (second :: more) n rest (List.cons_ne_nil _ _)
      (by omega)
    rw [memberChars, List.append_assoc, List.append_assoc, List.cons_append, List.cons_append]
    exact takeMembers?_more key hvalue hmembers

end

/-- The text of a tree is read back to the tree. -/
theorem read?_render (value : RawJson) : read? (render value) = some value := by
  have hread := takeValue?_chars value (2 * value.chars.length + 1) [] (by omega)
    fun c hc => by cases hc
  rw [List.append_nil] at hread
  rw [read?, render, String.toList_ofList, ofChars?, hread]
  rfl

end RawJson

end DocGate
