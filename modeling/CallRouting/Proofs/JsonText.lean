import CallRouting.Json.Reader
import CallRouting.Json.Writer
import Mathlib.Data.List.Basic
import Mathlib.Data.List.TakeWhile
import Mathlib.Tactic.Common

/-!
# Written JSON can be read back

* **Escapes** (`Json.readsAs_escapeChar`, `Json.readString_escaped`): what a string is written as is
  read as that string, whatever characters it holds, and with either set of characters.
* **Values** (`Json.readValue_chars`): a value without numbers (`Json.isTextual`) reads back from
  what it is written as, in any layout that puts white space between the items (`Layout.IsBlank`)
  and whatever stands behind it; hence what is printed reads back (`Json.read_line`,
  `Json.read_page`).
* **Characters** (`Json.allows_of_mem_line`): a value on one line is written without control
  characters, and with the printable characters of ASCII if it is to be.
* **Pairs** (`Json.isPaired_line`): nothing that is written has half a pair that stands alone.
-/

namespace CallRouting

namespace Text

/-- The four digits of a unit. -/
theorem hexDigits_four (n : Nat) :
    hexDigits 4 n = [hexDigit (n / 16 / 16 / 16 % 16), hexDigit (n / 16 / 16 % 16),
      hexDigit (n / 16 % 16), hexDigit (n % 16)] := rfl

/-- **A unit of sixteen bits reads back** from its four digits. -/
theorem hexFour?_hexDigit {n : Nat} (h : n < 0x10000) :
    hexFour? (hexDigit (n / 16 / 16 / 16 % 16)) (hexDigit (n / 16 / 16 % 16))
      (hexDigit (n / 16 % 16)) (hexDigit (n % 16)) = some n := by
  have hdigit : ∀ m, hexValue? (hexDigit (m % 16)) = some (m % 16) := fun m =>
    hexValue?_hexDigit _ (Nat.mod_lt _ (by decide))
  simp only [hexFour?, hdigit]
  change some _ = some _
  congr 1
  omega

/-- A unit that is no half of a pair is a character by itself. -/
theorem Utf16.joinParts_unit {n : Nat} (hn : Utf16.isHigh n = false) (rest : List Utf16.Part) :
    Utf16.joinParts (.unit n :: rest) = Utf16.loneUnit n :: Utf16.joinParts rest := by
  match rest with
  | [] => rfl
  | .char c :: rest => rfl
  | .unit m :: rest => simp [Utf16.joinParts, hn]

end Text

namespace Json

open Text.Utf16 (joinParts)

/-! ## Escapes -/

section Escapes

variable {opened : Nat} {tail left : List Char} {parts : List Text.Utf16.Part}

/-- A character that stands for itself. -/
theorem stringParts_plain {c : Char} (hquote : c ≠ '"') (hback : c ≠ '\\') (hc : 0x20 ≤ c.toNat)
    (h : stringParts opened tail = .ok (parts, left)) :
    stringParts opened (c :: tail) = .ok (.char c :: parts, left) := by
  rw [stringParts]
  · rw [if_neg (by omega), h]
    rfl
  all_goals simp_all

/-- A letter behind a backslash. -/
theorem stringParts_letter {e d : Char} (hu : e ≠ 'u') (he : escaped? e = some d)
    (h : stringParts opened tail = .ok (parts, left)) :
    stringParts opened ('\\' :: e :: tail) = .ok (.char d :: parts, left) := by
  rw [stringParts]
  · rw [if_neg hu, he]
    simp only [h]
    rfl
  all_goals simp_all

/-- A unit behind a backslash. -/
theorem stringParts_unit {n : Nat} (hn : n < 0x10000)
    (h : stringParts opened tail = .ok (parts, left)) :
    stringParts opened (unitEscape n ++ tail) = .ok (.unit n :: parts, left) := by
  cases tail with
  | nil => cases h
  | cons e tail =>
    rw [unitEscape, Text.hexDigits_four]
    simp only [List.cons_append, List.nil_append]
    rw [stringParts, Text.hexFour?_hexDigit hn]
    simp only [h]
    rfl

/-- Whether characters within a string are read as one character, whatever stands behind them. -/
def ReadsAs (cs : List Char) (c : Char) : Prop :=
  ∃ parts, (∀ opened tail ps left, stringParts opened tail = .ok (ps, left) →
      stringParts opened (cs ++ tail) = .ok (parts ++ ps, left)) ∧
    ∀ ps, joinParts (parts ++ ps) = c :: joinParts ps

/-- A character that stands for itself. -/
theorem readsAs_self {c : Char} (hquote : c ≠ '"') (hback : c ≠ '\\') (hc : 0x20 ≤ c.toNat) :
    ReadsAs [c] c :=
  ⟨[.char c], fun _ _ _ _ h => stringParts_plain hquote hback hc h, fun _ => rfl⟩

/-- A letter behind a backslash. -/
theorem readsAs_letter {e c : Char} (hu : e ≠ 'u') (he : escaped? e = some c) :
    ReadsAs ['\\', e] c :=
  ⟨[.char c], fun _ _ _ _ h => stringParts_letter hu he h, fun _ => rfl⟩

/-- A code point as one unit or as two. -/
theorem readsAs_codeEscape (c : Char) : ReadsAs (codeEscape c.toNat) c := by
  have hvalid := c.valid
  change c.toNat < 0xD800 ∨ 0xDFFF < c.toNat ∧ c.toNat < 0x110000 at hvalid
  by_cases hsmall : c.toNat < 0x10000
  · -- no code point of a character is a half of a pair
    have hhalf : Text.Utf16.isHigh c.toNat = false ∧ Text.Utf16.isLow c.toNat = false := by
      simp only [Text.Utf16.isHigh, Text.Utf16.isLow, Bool.and_eq_false_iff,
        decide_eq_false_iff_not]
      omega
    refine ⟨[.unit c.toNat], fun opened tail ps left h => ?_, fun ps => ?_⟩
    · rw [codeEscape, if_pos hsmall]
      exact stringParts_unit hsmall h
    · rw [List.singleton_append, Text.Utf16.joinParts_unit hhalf.1, Text.Utf16.loneUnit, hhalf.1,
        hhalf.2, Char.ofNat_toNat]
      rfl
  · refine ⟨[.unit (0xD800 + (c.toNat - 0x10000) / 0x400),
      .unit (0xDC00 + (c.toNat - 0x10000) % 0x400)], fun opened tail ps left h => ?_, fun ps => ?_⟩
    · rw [codeEscape, if_neg hsmall, List.append_assoc]
      exact stringParts_unit (by omega) (stringParts_unit (by omega) h)
    · have hhigh : Text.Utf16.isHigh (0xD800 + (c.toNat - 0x10000) / 0x400) = true := by
        simp only [Text.Utf16.isHigh, Bool.and_eq_true, decide_eq_true_eq]
        omega
      have hlow : Text.Utf16.isLow (0xDC00 + (c.toNat - 0x10000) % 0x400) = true := by
        simp only [Text.Utf16.isLow, Bool.and_eq_true, decide_eq_true_eq]
        omega
      have hcode : 0x10000 + (0xD800 + (c.toNat - 0x10000) / 0x400 - 0xD800) * 0x400 +
          (0xDC00 + (c.toNat - 0x10000) % 0x400 - 0xDC00) = c.toNat := by omega
      rw [List.cons_append, List.singleton_append, Text.Utf16.joinParts_pair hhigh hlow, hcode,
        Char.ofNat_toNat]

/-- **What a character is written as is read as that character.** -/
theorem readsAs_escapeChar (charset : Charset) (c : Char) : ReadsAs (escapeChar charset c) c := by
  unfold escapeChar
  split_ifs with hquote hback hn hr ht hb hf hcontrol hpast
  · exact readsAs_letter (by decide) (by rw [hquote]; decide)
  · exact readsAs_letter (by decide) (by rw [hback]; decide)
  · exact readsAs_letter (by decide) (by rw [hn]; decide)
  · exact readsAs_letter (by decide) (by rw [hr]; decide)
  · exact readsAs_letter (by decide) (by rw [ht]; decide)
  · exact readsAs_letter (by decide) (by rw [hb]; decide)
  · exact readsAs_letter (by decide) (by rw [hf]; decide)
  · have hcode : codeEscape c.toNat = unitEscape c.toNat := by rw [codeEscape, if_pos (by omega)]
    rw [← hcode]
    exact readsAs_codeEscape c
  · exact readsAs_codeEscape c
  · exact readsAs_self hquote hback (Nat.not_lt.mp hcontrol)

/-- **A written string reads back.** -/
theorem readString_escaped (charset : Charset) (s : String) (left : List Char) :
    readString (s.toList.flatMap (escapeChar charset) ++ '"' :: left) = .ok (s, left) := by
  have hparts : ∀ (cs : List Char) (opened : Nat), ∃ parts,
      stringParts opened (cs.flatMap (escapeChar charset) ++ '"' :: left) = .ok (parts, left) ∧
        joinParts parts = cs := by
    intro cs opened
    induction cs with
    | nil => exact ⟨[], rfl, rfl⟩
    | cons c cs ih =>
      obtain ⟨ps, hps, hcs⟩ := ih
      obtain ⟨parts, hread, hjoin⟩ := readsAs_escapeChar charset c
      refine ⟨parts ++ ps, ?_, by rw [hjoin, hcs]⟩
      rw [List.flatMap_cons, List.append_assoc]
      exact hread opened _ ps left hps
  obtain ⟨parts, hread, hjoin⟩ := hparts s.toList
    ((s.toList.flatMap (escapeChar charset) ++ '"' :: left).length + 1)
  rw [readString, hread]
  change Except.ok (String.ofList (joinParts parts), left) = _
  rw [hjoin, String.ofList_toList]

end Escapes

/-! ## Values -/

section Values

mutual

/-- Whether a value holds no numbers, no two fields of one name, and no more than `room` containers
inside one another. -/
def isTextual : Nat → Json → Bool
  | _, .null | _, .bool _ | _, .str _ => true
  | _, .int _ | _, .real _ => false
  | 0, .arr _ | 0, .obj _ => false
  | room + 1, .arr items => itemsTextual room items
  | room + 1, .obj fields => decide (fields.map (·.1)).Nodup && fieldsTextual room fields

/-- Whether items are textual. -/
def itemsTextual (room : Nat) : List Json → Bool
  | [] => true
  | item :: rest => isTextual room item && itemsTextual room rest

/-- Whether the values of fields are textual. -/
def fieldsTextual (room : Nat) : List (String × Json) → Bool
  | [] => true
  | (_, value) :: rest => isTextual room value && fieldsTextual room rest

end

/-- Whether a layout puts white space only between the items, apart from one comma. -/
structure Layout.IsBlank (layout : Layout) : Prop where
  opening : ∀ depth, ∀ c ∈ (layout depth).opening, isGap c = true
  between : ∀ depth, ∃ gap, (layout depth).between = ',' :: gap ∧ ∀ c ∈ gap, isGap c = true
  closing : ∀ depth, ∀ c ∈ (layout depth).closing, isGap c = true

/-- Everything on one line. -/
theorem isBlank_oneLine : Layout.IsBlank oneLine :=
  ⟨fun _ => List.forall_mem_nil _, fun _ => ⟨[' '], rfl, List.forall_mem_singleton.mpr rfl⟩,
   fun _ => List.forall_mem_nil _⟩

/-- A line break is white space. -/
theorem isGap_of_mem_lineBreak {depth : Nat} {c : Char} (h : c ∈ lineBreak depth) :
    isGap c = true := by
  rcases List.mem_cons.mp h with rfl | h
  · rfl
  · rw [List.eq_of_mem_replicate h]
    rfl

/-- Each item on a line of its own. -/
theorem isBlank_indented : Layout.IsBlank indented :=
  ⟨fun _ _ h => isGap_of_mem_lineBreak h, fun _ => ⟨_, rfl, fun _ h => isGap_of_mem_lineBreak h⟩,
    fun _ _ h => isGap_of_mem_lineBreak h⟩

/-- White space is dropped up to the first character that is none. -/
theorem skip_append {gap left : List Char} {c : Char} (hgap : ∀ c ∈ gap, isGap c = true)
    (hc : isGap c = false) : skip (gap ++ c :: left) = c :: left := by
  rw [skip, List.dropWhile_append_of_pos hgap, List.dropWhile_cons_of_neg (by simp [hc])]

/-- A character that is no white space stays in front. -/
theorem skip_cons {left : List Char} {c : Char} (hc : isGap c = false) :
    skip (c :: left) = c :: left :=
  skip_append (List.forall_mem_nil _) hc

/-- Reading goes on with what was read. -/
theorem Reading.ok_bind {α β : Type} (a : α) (f : α → Reading β) :
    ((.ok a : Reading α) >>= f) = f a := rfl

variable {charset : Charset} {layout : Layout}

/-- A textual value starts with neither white space nor a closing bracket nor a byte order mark. -/
theorem chars_head (charset : Charset) (layout : Layout) (depth : Nat) {room : Nat} {v : Json}
    (h : isTextual room v = true) :
    ∃ c cs, chars charset layout depth v = c :: cs ∧ isGap c = false ∧ c ≠ ']' ∧
      c ≠ '\ufeff' := by
  match v, room with
  | .null, _ => exact ⟨'n', _, rfl, rfl, by decide, by decide⟩
  | .bool true, _ => exact ⟨'t', _, rfl, rfl, by decide, by decide⟩
  | .bool false, _ => exact ⟨'f', _, rfl, rfl, by decide, by decide⟩
  | .str _, _ => exact ⟨'"', _, rfl, rfl, by decide, by decide⟩
  | .arr [], _ | .arr (_ :: _), _ => exact ⟨'[', _, rfl, rfl, by decide, by decide⟩
  | .obj [], _ | .obj (_ :: _), _ => exact ⟨'\x7b', _, rfl, rfl, by decide, by decide⟩
  | .int _, 0 | .int _, _ + 1 | .real _, 0 | .real _, _ + 1 => cases h

/-- White space in front of a textual value is dropped. -/
theorem skip_chars {depth room : Nat} {v : Json} (h : isTextual room v = true) {gap : List Char}
    (hgap : ∀ c ∈ gap, isGap c = true) (left : List Char) :
    skip (gap ++ (chars charset layout depth v ++ left)) = chars charset layout depth v ++ left := by
  obtain ⟨c, cs, hchars, hc, -, -⟩ := chars_head charset layout depth h
  rw [hchars]
  exact skip_append hgap hc

/-- A new field goes to the end. -/
theorem setField_of_nodup {name : String} {value : Json} {seen rest : List (String × Json)}
    (h : ((seen ++ (name, value) :: rest).map (·.1)).Nodup) :
    setField name value seen = seen ++ [(name, value)] := by
  induction seen with
  | nil => rfl
  | cons f seen ih =>
    rw [List.cons_append, List.map_cons, List.nodup_cons] at h
    have hne : f.1 ≠ name := by
      rintro rfl
      exact h.1 (by simp)
    rw [setField, if_neg hne, ih h.2]
    rfl

/-- The first field of those that are left reads back. -/
theorem readFields_field {depth room fuel : Nat} {name : String} {value : Json}
    {seen : List (String × Json)} {left : List Char} (htextual : isTextual room value = true)
    (hvalue : readValue fuel room (chars charset layout depth value ++ left) = .ok (value, left)) :
    readFields (fuel + 1) room seen
        (stringChars charset name ++ ':' :: ' ' :: (chars charset layout depth value ++ left)) =
      match skip left with
      | '\x7d' :: left => .ok (setField name value seen, left)
      | ',' :: rest => readFields fuel room (setField name value seen) (skip rest)
      | left => stopAt .expectingComma left := by
  have hskip : skip (' ' :: (chars charset layout depth value ++ left)) =
      chars charset layout depth value ++ left :=
    skip_chars htextual (List.forall_mem_singleton.mpr rfl) left
  simp only [stringChars, List.cons_append, List.append_assoc, List.nil_append, readFields]
  rw [readString_escaped, Reading.ok_bind]
  simp only
  rw [skip_cons rfl]
  simp only
  rw [hskip, hvalue]
  rfl

mutual

/-- **A textual value reads back**, whatever stands behind it. -/
theorem readValue_chars (hl : layout.IsBlank) (depth : Nat) : ∀ (v : Json) (room fuel : Nat)
    (left : List Char), isTextual room v = true →
    2 * (chars charset layout depth v).length ≤ fuel →
    readValue fuel room (chars charset layout depth v ++ left) = .ok (v, left)
  | .null, room, fuel + 1, left, _, _ => by
    simp [chars, readValue, readWord?, words]
  | .bool true, room, fuel + 1, left, _, _ => by
    simp [chars, readValue, readWord?, words]
  | .bool false, room, fuel + 1, left, _, _ => by
    simp [chars, readValue, readWord?, words]
  | .str s, room, fuel + 1, left, _, _ => by
    simp only [chars, stringChars, List.cons_append, List.append_assoc, List.nil_append, readValue,
      readString_escaped]
    rfl
  | .arr [], room + 1, fuel + 1, left, _, _ => by
    simp [chars, readValue, skip, isGap]
  | .arr (item :: rest), room + 1, fuel + 1, left, h, hfuel => by
    rw [isTextual, itemsTextual, Bool.and_eq_true] at h
    simp only [chars, List.length_cons, List.length_append] at hfuel
    have hitems := readItems_chars hl depth item
      (fun fuel left => readValue_chars hl (depth + 1) item room fuel left h.1) rest fuel left h.2
      (by omega)
    obtain ⟨c, cs, hchars, -, hclose, -⟩ := chars_head charset layout (depth + 1) h.1
    simp only [chars, List.cons_append, List.append_assoc, List.nil_append, readValue]
    rw [skip_chars h.1 (hl.opening depth)]
    rw [hchars, List.cons_append] at hitems ⊢
    split
    · rename_i heq
      exact absurd (List.cons.inj heq).1 hclose
    · rw [hitems]
      rfl
  | .obj [], room + 1, fuel + 1, left, _, _ => by
    simp [chars, readValue, skip, isGap]
  | .obj ((name, value) :: rest), room + 1, fuel + 1, left, h, hfuel => by
    rw [isTextual, fieldsTextual, Bool.and_eq_true, Bool.and_eq_true, decide_eq_true_eq] at h
    simp only [chars, List.length_cons, List.length_append] at hfuel
    have hfields := readFields_chars hl depth name value
      (fun fuel left => readValue_chars hl (depth + 1) value room fuel left h.2.1) rest fuel []
      left h.2.1 h.2.2 h.1 (by omega)
    simp only [chars, List.cons_append, List.append_assoc, List.nil_append, readValue]
    simp only [stringChars, List.cons_append, List.append_assoc, List.nil_append] at hfields ⊢
    rw [skip_append (hl.opening depth) rfl]
    split
    · rename_i heq
      exact absurd (List.cons.inj heq).1 (by decide)
    · rw [hfields]
      rfl
  | .int _, room, _, _, h, _ => by cases room <;> cases h
  | .real _, room, _, _, h, _ => by cases room <;> cases h
  | .arr _, 0, _, _, h, _ => by cases h
  | .obj _, 0, _, _, h, _ => by cases h
  | v, room, 0, left, h, hfuel => by
    obtain ⟨c, cs, hchars, -, -, -⟩ := chars_head charset layout depth h
    rw [hchars, List.length_cons] at hfuel
    omega

/-- The items of an array read back, the first one being known to. -/
theorem readItems_chars (hl : layout.IsBlank) (depth : Nat) (item : Json) {room : Nat}
    (hitem : ∀ (fuel : Nat) (left : List Char),
      2 * (chars charset layout (depth + 1) item).length ≤ fuel →
      readValue fuel room (chars charset layout (depth + 1) item ++ left) = .ok (item, left)) :
    ∀ (rest : List Json) (fuel : Nat) (left : List Char), itemsTextual room rest = true →
    2 * (chars charset layout (depth + 1) item).length +
      2 * (itemChars charset layout depth rest).length + 1 ≤ fuel →
    readItems fuel room (chars charset layout (depth + 1) item ++
      (itemChars charset layout depth rest ++ ((layout depth).closing ++ ']' :: left))) =
        .ok (item :: rest, left)
  | [], fuel + 1, left, _, hfuel => by
    simp only [readItems, itemChars, List.nil_append]
    rw [hitem fuel _ (by omega), Reading.ok_bind, skip_append (hl.closing depth) rfl]
    rfl
  | next :: rest, fuel + 1, left, h, hfuel => by
    rw [itemsTextual, Bool.and_eq_true] at h
    obtain ⟨gap, hbetween, hgap⟩ := hl.between depth
    simp only [itemChars, hbetween, List.length_cons, List.length_append] at hfuel
    have hrest := readItems_chars hl depth next
      (fun fuel left => readValue_chars hl (depth + 1) next room fuel left h.1) rest fuel left h.2
      (by omega)
    simp only [readItems, itemChars, hbetween, List.cons_append, List.append_assoc]
    rw [hitem fuel _ (by omega), Reading.ok_bind, skip_cons rfl]
    simp only
    rw [skip_chars h.1 hgap, hrest]
    rfl
  | _, 0, _, _, hfuel => by omega

/-- The fields of an object read back after those seen before, the value of the first one being
known to. -/
theorem readFields_chars (hl : layout.IsBlank) (depth : Nat) (name : String) (value : Json)
    {room : Nat} (hvalue : ∀ (fuel : Nat) (left : List Char),
      2 * (chars charset layout (depth + 1) value).length ≤ fuel →
      readValue fuel room (chars charset layout (depth + 1) value ++ left) = .ok (value, left)) :
    ∀ (rest : List (String × Json)) (fuel : Nat) (seen : List (String × Json)) (left : List Char),
    isTextual room value = true → fieldsTextual room rest = true →
    ((seen ++ (name, value) :: rest).map (·.1)).Nodup →
    2 * (chars charset layout (depth + 1) value).length +
      2 * (fieldChars charset layout depth rest).length + 1 ≤ fuel →
    readFields fuel room seen (stringChars charset name ++ (':' :: ' ' ::
      (chars charset layout (depth + 1) value ++
        (fieldChars charset layout depth rest ++ ((layout depth).closing ++ '\x7d' :: left))))) =
          .ok (seen ++ (name, value) :: rest, left)
  | [], fuel + 1, seen, left, htextual, _, hnodup, hfuel => by
    rw [fieldChars, List.nil_append, readFields_field htextual (hvalue fuel _ (by omega)),
      skip_append (hl.closing depth) rfl, setField_of_nodup hnodup]
    rfl
  | (next, other) :: rest, fuel + 1, seen, left, htextual, h, hnodup, hfuel => by
    rw [fieldsTextual, Bool.and_eq_true] at h
    obtain ⟨gap, hbetween, hgap⟩ := hl.between depth
    simp only [fieldChars, hbetween, List.length_cons, List.length_append] at hfuel
    have hrest := readFields_chars hl depth next other
      (fun fuel left => readValue_chars hl (depth + 1) other room fuel left h.1) rest fuel
      (seen ++ [(name, value)]) left h.1 h.2 (by simpa using hnodup) (by omega)
    rw [readFields_field htextual (hvalue fuel _ (by omega)), setField_of_nodup hnodup]
    simp only [fieldChars, hbetween, List.cons_append, List.append_assoc, List.nil_append]
    rw [skip_cons rfl]
    simp only [stringChars, List.cons_append, List.append_assoc, List.nil_append] at hrest ⊢
    rw [skip_append hgap rfl, hrest]
  | _, 0, _, _, _, _, _, hfuel => by omega

end

/-- **A whole text reads back**, with white space behind it. -/
theorem read_chars (hl : layout.IsBlank) {room : Nat} {v : Json} (h : isTextual room v = true)
    {gap : List Char} (hgap : ∀ c ∈ gap, isGap c = true) :
    read room (String.ofList (chars charset layout 0 v ++ gap)) = .ok v := by
  have hskip : skip (chars charset layout 0 v ++ gap) = chars charset layout 0 v ++ gap :=
    skip_chars h (List.forall_mem_nil _) gap
  have hend : skip gap = [] := List.dropWhile_eq_nil_iff.mpr hgap
  have hread : readChars room (chars charset layout 0 v ++ gap) = .ok v := by
    rw [readChars, hskip, readValue_chars hl 0 v room _ gap h (by rw [List.length_append]; omega),
      Reading.ok_bind]
    simp only [hend]
    rfl
  have hmark : (chars charset layout 0 v ++ gap).head? ≠ some '\ufeff' := by
    obtain ⟨c, cs, hchars, -, -, hc⟩ := chars_head charset layout 0 h
    rw [hchars]
    exact fun heq => hc (Option.some.inj heq)
  simp only [read, String.toList_ofList]
  rw [if_neg hmark, hread]

/-- A value on one line reads back. -/
theorem read_line {room : Nat} {v : Json} (h : isTextual room v = true) (charset : Charset) :
    read room (v.line charset) = .ok v := by
  have hread : read room (String.ofList (chars charset oneLine 0 v ++ [])) = .ok v :=
    read_chars isBlank_oneLine h (List.forall_mem_nil _)
  rwa [List.append_nil] at hread

/-- A value over several lines, with a line break behind it, reads back. -/
theorem read_page {room : Nat} {v : Json} (h : isTextual room v = true) :
    read room (v.page ++ "\n") = .ok v := by
  have hread : read room (String.ofList (chars .unicode indented 0 v ++ ['\n'])) = .ok v :=
    read_chars isBlank_indented h (List.forall_mem_singleton.mpr rfl)
  rwa [String.ofList_append] at hread

end Values

end Json

/-! ## Characters of a line -/

namespace Text

/-- A printable character of ASCII. -/
def isPlain (c : Char) : Bool := 0x20 ≤ c.toNat && c.toNat ≤ 0x7E

/-- The digits of a number are plain. -/
theorem all_isPlain_hexDigits (width n : Nat) : (hexDigits width n).all isPlain = true := by
  have hdigit : ∀ m < 16, isPlain (hexDigit m) = true := by decide
  induction width generalizing n with
  | zero => rfl
  | succ width ih =>
    rw [hexDigits, List.all_append, ih, List.all_cons, hdigit _ (Nat.mod_lt _ (by decide))]
    rfl

end Text

namespace Json

open Text (isPlain)

/-- The characters that a value on one line is written with: no control characters, and in ASCII the
printable ones only. -/
def Charset.allows : Charset → Char → Bool
  | .unicode, c => 0x20 ≤ c.toNat
  | .ascii, c => isPlain c

variable (charset : Charset)

/-- Plain characters are allowed everywhere. -/
theorem all_allows_of_isPlain {cs : List Char} (h : cs.all isPlain = true) :
    cs.all charset.allows = true := by
  refine List.all_eq_true.mpr fun c hc => ?_
  have hplain := List.all_eq_true.mp h c hc
  cases charset with
  | ascii => exact hplain
  | unicode => exact (Bool.and_eq_true_iff.mp hplain).1

/-- Escapes are plain, and what is not escaped is allowed. -/
theorem all_allows_escapeChar (c : Char) : (escapeChar charset c).all charset.allows = true := by
  have hunit : ∀ n, (unitEscape n).all isPlain = true := by
    intro n
    rw [unitEscape, List.all_cons, List.all_cons, Text.all_isPlain_hexDigits]
    rfl
  have hcode : ∀ n, (codeEscape n).all isPlain = true := by
    intro n
    unfold codeEscape
    split_ifs
    · exact hunit n
    · rw [List.all_append, hunit, hunit]
      rfl
  unfold escapeChar
  split_ifs with _ _ _ _ _ _ _ hcontrol hpast
  any_goals exact all_allows_of_isPlain charset rfl
  · exact all_allows_of_isPlain charset (hunit _)
  · exact all_allows_of_isPlain charset (hcode _)
  · rw [List.all_cons, List.all_nil, Bool.and_true]
    cases charset with
    | unicode => simpa [Charset.allows] using hcontrol
    | ascii =>
      rw [Charset.allows, isPlain, Bool.and_eq_true, decide_eq_true_eq, decide_eq_true_eq]
      simp at hpast
      omega

/-- A string is written with allowed characters. -/
theorem all_allows_stringChars (s : String) :
    (stringChars charset s).all charset.allows = true := by
  have hquote : charset.allows '"' = true := by cases charset <;> rfl
  rw [stringChars, List.cons_append, List.all_cons, List.all_append, List.all_flatMap]
  simp [all_allows_escapeChar, hquote]

mutual

/-- **A textual value is written on one line with allowed characters.** -/
theorem all_allows_chars (depth : Nat) : ∀ (v : Json) (room : Nat), isTextual room v = true →
    (chars charset oneLine depth v).all charset.allows = true
  | .null, _, _ => all_allows_of_isPlain charset (by simp [chars, isPlain])
  | .bool true, _, _ => all_allows_of_isPlain charset (by simp [chars, isPlain])
  | .bool false, _, _ => all_allows_of_isPlain charset (by simp [chars, isPlain])
  | .str s, _, _ => all_allows_stringChars charset s
  | .arr [], _, _ => all_allows_of_isPlain charset (by simp [chars, isPlain])
  | .arr (item :: rest), room + 1, h => by
    rw [isTextual, itemsTextual, Bool.and_eq_true] at h
    have hitem := all_allows_chars (depth + 1) item room h.1
    have hrest := all_allows_itemChars depth rest room h.2
    simp only [chars, List.all_append, List.all_cons, hitem, hrest]
    cases charset <;> rfl
  | .obj [], _, _ => all_allows_of_isPlain charset (by simp [chars, isPlain])
  | .obj ((name, value) :: rest), room + 1, h => by
    rw [isTextual, fieldsTextual, Bool.and_eq_true, Bool.and_eq_true] at h
    have hvalue := all_allows_chars (depth + 1) value room h.2.1
    have hrest := all_allows_fieldChars depth rest room h.2.2
    simp only [chars, List.all_append, List.all_cons, all_allows_stringChars, hvalue, hrest]
    cases charset <;> rfl
  | .int _, room, h => by cases room <;> cases h
  | .real _, room, h => by cases room <;> cases h
  | .arr (_ :: _), 0, h => by cases h
  | .obj (_ :: _), 0, h => by cases h

/-- The items after the first are written with allowed characters. -/
theorem all_allows_itemChars (depth : Nat) : ∀ (rest : List Json) (room : Nat),
    itemsTextual room rest = true →
      (itemChars charset oneLine depth rest).all charset.allows = true
  | [], _, _ => rfl
  | item :: rest, room, h => by
    rw [itemsTextual, Bool.and_eq_true] at h
    have hitem := all_allows_chars (depth + 1) item room h.1
    have hrest := all_allows_itemChars depth rest room h.2
    simp only [itemChars, List.all_append, hitem, hrest]
    cases charset <;> rfl

/-- The fields after the first are written with allowed characters. -/
theorem all_allows_fieldChars (depth : Nat) : ∀ (rest : List (String × Json)) (room : Nat),
    fieldsTextual room rest = true →
      (fieldChars charset oneLine depth rest).all charset.allows = true
  | [], _, _ => rfl
  | (name, value) :: rest, room, h => by
    rw [fieldsTextual, Bool.and_eq_true] at h
    have hvalue := all_allows_chars (depth + 1) value room h.1
    have hrest := all_allows_fieldChars depth rest room h.2
    simp only [fieldChars, List.all_append, all_allows_stringChars, hvalue, hrest]
    cases charset <;> rfl

end

/-- The characters of a textual value on one line. -/
theorem allows_of_mem_line {room : Nat} {v : Json} (h : isTextual room v = true) :
    ∀ c ∈ (v.line charset).toList, charset.allows c = true := by
  rw [line, String.toList_ofList]
  exact List.all_eq_true.mp (all_allows_chars charset 0 v room h)

end Json

/-! ## Pairs of a line -/

namespace Json

/-- Whether the parts behind some characters are paired exactly if they are with these in front. -/
def LeavesPairs (cs : List Char) : Prop :=
  ∀ tail, Text.Utf16.isPaired (partsOf (cs ++ tail)) = Text.Utf16.isPaired (partsOf tail)

/-- No characters. -/
theorem leavesPairs_nil : LeavesPairs [] := fun _ => rfl

/-- Characters and others behind them. -/
theorem LeavesPairs.append {cs ds : List Char} (hcs : LeavesPairs cs) (hds : LeavesPairs ds) :
    LeavesPairs (cs ++ ds) := by
  intro tail
  rw [List.append_assoc, hcs, hds]

/-- A character that is no backslash. -/
theorem leavesPairs_singleton {c : Char} (h : c ≠ '\\') : LeavesPairs [c] := by
  intro tail
  rw [List.singleton_append, partsOf]
  · rfl
  all_goals simp_all

/-- A letter behind a backslash. -/
theorem leavesPairs_letter {e : Char} (h : e ≠ 'u') : LeavesPairs ['\\', e] := by
  intro tail
  rw [List.cons_append, List.singleton_append, partsOf]
  · rfl
  all_goals simp_all

/-- A unit behind a backslash. -/
theorem partsOf_unitEscape {n : Nat} (hn : n < 0x10000) (tail : List Char) :
    partsOf (unitEscape n ++ tail) = .unit n :: partsOf tail := by
  rw [unitEscape, Text.hexDigits_four]
  simp only [List.cons_append, List.nil_append]
  rw [partsOf, Text.hexFour?_hexDigit hn]

/-- A code point as one unit or as two: the only unit of a character is no half of a pair. -/
theorem leavesPairs_codeEscape (c : Char) : LeavesPairs (codeEscape c.toNat) := by
  have hvalid := c.valid
  change c.toNat < 0xD800 ∨ 0xDFFF < c.toNat ∧ c.toNat < 0x110000 at hvalid
  generalize c.toNat = n at hvalid
  intro tail
  by_cases hsmall : n < 0x10000
  · rw [codeEscape, if_pos hsmall, partsOf_unitEscape hsmall]
    apply Text.Utf16.isPaired_unit
    · simp only [Text.Utf16.isHigh, Bool.and_eq_false_iff, decide_eq_false_iff_not]
      omega
    · simp only [Text.Utf16.isLow, Bool.and_eq_false_iff, decide_eq_false_iff_not]
      omega
  · rw [codeEscape, if_neg hsmall, List.append_assoc, partsOf_unitEscape (by omega),
      partsOf_unitEscape (by omega)]
    apply Text.Utf16.isPaired_pair
    · simp only [Text.Utf16.isHigh, Bool.and_eq_true, decide_eq_true_eq]
      omega
    · simp only [Text.Utf16.isLow, Bool.and_eq_true, decide_eq_true_eq]
      omega

/-- What a character of a string is written as. -/
theorem leavesPairs_escapeChar (charset : Charset) (c : Char) :
    LeavesPairs (escapeChar charset c) := by
  unfold escapeChar
  split_ifs with _ hback _ _ _ _ _ hcontrol
  any_goals exact leavesPairs_letter (by decide)
  · have hcode : codeEscape c.toNat = unitEscape c.toNat := by rw [codeEscape, if_pos (by omega)]
    rw [← hcode]
    exact leavesPairs_codeEscape c
  · exact leavesPairs_codeEscape c
  · exact leavesPairs_singleton hback

/-- A written string. -/
theorem leavesPairs_stringChars (charset : Charset) (s : String) :
    LeavesPairs (stringChars charset s) := by
  have hinside : ∀ cs : List Char, LeavesPairs (cs.flatMap (escapeChar charset)) := by
    intro cs
    induction cs with
    | nil => exact leavesPairs_nil
    | cons c cs ih => exact (leavesPairs_escapeChar charset c).append ih
  have hquote : LeavesPairs ['"'] := leavesPairs_singleton (by decide)
  exact (hquote.append (hinside s.toList)).append hquote

/-- Characters without a backslash. -/
theorem leavesPairs_of_forall_ne {cs : List Char} (h : ∀ c ∈ cs, c ≠ '\\') : LeavesPairs cs := by
  induction cs with
  | nil => exact leavesPairs_nil
  | cons c cs ih =>
    obtain ⟨hc, hcs⟩ := List.forall_mem_cons.mp h
    exact (leavesPairs_singleton hc).append (ih hcs)

variable (charset : Charset)

mutual

/-- **A textual value is written on one line without a half that stands alone.** -/
theorem leavesPairs_chars (depth : Nat) : ∀ (v : Json) (room : Nat), isTextual room v = true →
    LeavesPairs (chars charset oneLine depth v)
  | .null, _, _ => leavesPairs_of_forall_ne (by simp [chars])
  | .bool true, _, _ => leavesPairs_of_forall_ne (by simp [chars])
  | .bool false, _, _ => leavesPairs_of_forall_ne (by simp [chars])
  | .str s, _, _ => leavesPairs_stringChars charset s
  | .arr [], _, _ => leavesPairs_of_forall_ne (by simp [chars])
  | .arr (item :: rest), room + 1, h => by
    rw [isTextual, itemsTextual, Bool.and_eq_true] at h
    have hitem := leavesPairs_chars (depth + 1) item room h.1
    have hrest := leavesPairs_itemChars depth rest room h.2
    have hopen : LeavesPairs ['['] := leavesPairs_singleton (by decide)
    have hclose : LeavesPairs [']'] := leavesPairs_singleton (by decide)
    rw [chars, oneLine]
    exact (((hopen.append leavesPairs_nil).append hitem).append hrest).append leavesPairs_nil
      |>.append hclose
  | .obj [], _, _ => leavesPairs_of_forall_ne (by simp [chars])
  | .obj ((name, value) :: rest), room + 1, h => by
    rw [isTextual, fieldsTextual, Bool.and_eq_true, Bool.and_eq_true] at h
    have hname := leavesPairs_stringChars charset name
    have hvalue := leavesPairs_chars (depth + 1) value room h.2.1
    have hrest := leavesPairs_fieldChars depth rest room h.2.2
    have hopen : LeavesPairs ['\x7b'] := leavesPairs_singleton (by decide)
    have hcolon : LeavesPairs [':', ' '] := leavesPairs_of_forall_ne (by simp)
    have hclose : LeavesPairs ['\x7d'] := leavesPairs_singleton (by decide)
    rw [chars, oneLine]
    exact (((((hopen.append leavesPairs_nil).append hname).append hcolon).append hvalue).append
      hrest).append leavesPairs_nil |>.append hclose
  | .int _, room, h => by cases room <;> cases h
  | .real _, room, h => by cases room <;> cases h
  | .arr (_ :: _), 0, h => by cases h
  | .obj (_ :: _), 0, h => by cases h

/-- The items after the first. -/
theorem leavesPairs_itemChars (depth : Nat) : ∀ (rest : List Json) (room : Nat),
    itemsTextual room rest = true → LeavesPairs (itemChars charset oneLine depth rest)
  | [], _, _ => leavesPairs_nil
  | item :: rest, room, h => by
    rw [itemsTextual, Bool.and_eq_true] at h
    have hitem := leavesPairs_chars (depth + 1) item room h.1
    have hrest := leavesPairs_itemChars depth rest room h.2
    have hcomma : LeavesPairs [',', ' '] := leavesPairs_of_forall_ne (by simp)
    rw [itemChars]
    exact (hcomma.append hitem).append hrest

/-- The fields after the first. -/
theorem leavesPairs_fieldChars (depth : Nat) : ∀ (rest : List (String × Json)) (room : Nat),
    fieldsTextual room rest = true → LeavesPairs (fieldChars charset oneLine depth rest)
  | [], _, _ => leavesPairs_nil
  | (name, value) :: rest, room, h => by
    rw [fieldsTextual, Bool.and_eq_true] at h
    have hname := leavesPairs_stringChars charset name
    have hvalue := leavesPairs_chars (depth + 1) value room h.1
    have hrest := leavesPairs_fieldChars depth rest room h.2
    have hcomma : LeavesPairs [',', ' '] := leavesPairs_of_forall_ne (by simp)
    have hcolon : LeavesPairs [':', ' '] := leavesPairs_of_forall_ne (by simp)
    rw [fieldChars]
    exact (((hcomma.append hname).append hcolon).append hvalue).append hrest

end

/-- No half of a pair stands alone in a textual value on one line. -/
theorem isPaired_line {room : Nat} {v : Json} (h : isTextual room v = true) :
    isPaired (v.line charset) = true := by
  have hleaves := leavesPairs_chars charset 0 v room h []
  rw [List.append_nil] at hleaves
  rw [isPaired, line, String.toList_ofList, hleaves]
  rfl

end Json

end CallRouting
