import Mathlib.Tactic.SplitIfs
import StoreLint.Json.Reading

/-!
# Reading what has been written

A document that has been written for a value is read back as that value, whatever
strings the value holds (`document_pretty`).  The reader is given more steps than the
text has characters, and every step takes at least one character away, so it never
stops early.
-/

namespace StoreLint

namespace Json

mutual

/-- What is read when the value has been written. -/
def reading : Json → Reading
  | .null => .null
  | .boolean value => .boolean value
  | .string value => .string (some value)
  | .array elements => .sequence (readings elements) true
  | .object members => .map (memberReadings members) true

def readings : List Json → List Reading
  | [] => []
  | element :: elements => element.reading :: readings elements

/-- Counterpart of `reading` for the members of an object. -/
def memberReadings : List (String × Json) → List (Option String × Reading)
  | [] => []
  | (name, value) :: members => (some name, value.reading) :: memberReadings members

end

end Json

namespace Reading

/-! ## Strings -/

/-- A control character is written with two hexadecimal digits. -/
theorem hexPart?_digits {code : Nat} (isControl : code < 0x20) :
    hexPart? '0' '0' (Nat.digitChar (code / 16)) (Nat.digitChar (code % 16)) =
      some (.char (Char.ofNat code)) := by
  have digit : ∀ value < 16, hexValue? (Nat.digitChar value) = some value := by decide
  have high := digit (code / 16) (by omega)
  have low := digit (code % 16) (by omega)
  have zero := digit 0 (by omega)
  have notHalf : ¬(0xd800 ≤ code ∧ code ≤ 0xdfff) := by omega
  rw [show Nat.digitChar 0 = '0' from rfl] at zero
  simp [hexPart?, zero, high, low, Nat.div_add_mod', notHalf]

theorem encodeChar_of_control {c : Char} (isControl : c.toNat < 0x20) :
    ['\\', 'u'] ++ List.replicate (4 - (Nat.toDigits 16 c.toNat).length) '0' ++
        Nat.toDigits 16 c.toNat =
      ['\\', 'u', '0', '0', Nat.digitChar (c.toNat / 16), Nat.digitChar (c.toNat % 16)] := by
  have all : ∀ code < 0x20, ['\\', 'u'] ++
      List.replicate (4 - (Nat.toDigits 16 code).length) '0' ++ Nat.toDigits 16 code =
        ['\\', 'u', '0', '0', Nat.digitChar (code / 16), Nat.digitChar (code % 16)] := by
    decide
  exact all c.toNat isControl

/-- A character is written as a letter after a backslash, as four hexadecimal digits, or as it
is. -/
theorem encodeChar_cases (c : Char) :
    (∃ letter, Json.encodeChar c = ['\\', letter] ∧ escaped? letter = some c) ∨
    (c.toNat < 0x20 ∧ Json.encodeChar c =
      ['\\', 'u', '0', '0', Nat.digitChar (c.toNat / 16), Nat.digitChar (c.toNat % 16)]) ∨
    (Json.encodeChar c = [c] ∧ c ≠ '"' ∧ c ≠ '\\' ∧ 0x20 ≤ c.toNat) := by
  unfold Json.encodeChar
  simp only [beq_iff_eq]
  split_ifs with quote backslash backspace feed line carriage tab control
  · exact .inl ⟨'"', rfl, by rw [quote]; rfl⟩
  · exact .inl ⟨'\\', rfl, by rw [backslash]; rfl⟩
  · exact .inl ⟨'b', rfl, backspace ▸ rfl⟩
  · exact .inl ⟨'f', rfl, feed ▸ rfl⟩
  · exact .inl ⟨'n', rfl, line ▸ rfl⟩
  · exact .inl ⟨'r', rfl, carriage ▸ rfl⟩
  · exact .inl ⟨'t', rfl, tab ▸ rfl⟩
  · exact .inr (.inl ⟨control, encodeChar_of_control control⟩)
  · exact .inr (.inr ⟨rfl, quote, backslash, Nat.le_of_not_lt control⟩)

/-- A character is read back from the way in which it is written. -/
theorem readParts_encodeChar (c : Char) (parts : List StringPart) (rest : List Char) :
    readParts parts (Json.encodeChar c ++ rest) = readParts (.char c :: parts) rest := by
  rcases encodeChar_cases c with ⟨letter, written, meant⟩ | ⟨isControl, written⟩ |
    ⟨written, notQuote, notBackslash, notControl⟩
  · have notHex : letter ≠ 'u' := by
      rintro rfl
      simp [escaped?] at meant
    rw [written, List.cons_append, List.cons_append, List.nil_append, readParts]
    · simp only [meant]
    · exact fun _ _ _ _ _ isHex _ => notHex isHex
  · simp only [written, List.cons_append, List.nil_append, readParts, hexPart?_digits isControl,
      Char.ofNat_toNat]
  · rw [written, List.singleton_append, readParts]
    · simp [notBackslash, Nat.not_lt.mpr notControl]
    · exact notQuote
    · exact fun _ _ _ _ _ isBackslash _ => notBackslash isBackslash
    · exact fun _ _ isBackslash _ => notBackslash isBackslash

theorem readParts_encoded (chars : List Char) (parts : List StringPart) (rest : List Char) :
    readParts parts (chars.flatMap Json.encodeChar ++ '"' :: rest) =
      some (parts.reverse ++ chars.map StringPart.char, rest) := by
  induction chars generalizing parts with
  | nil => simp [readParts]
  | cons c chars induction =>
      rw [List.flatMap_cons, List.append_assoc, readParts_encodeChar, induction]
      simp

theorem joinParts_chars (chars : List Char) :
    joinParts (chars.map StringPart.char) = some chars := by
  induction chars with
  | nil => rfl
  | cons c chars induction => simp [joinParts, induction]

theorem readString_encoded (value : String) (rest : List Char) :
    readString (value.toList.flatMap Json.encodeChar ++ '"' :: rest) =
      some (some value, rest) := by
  rw [readString, readParts_encoded, List.reverse_nil, List.nil_append]
  simp [joinParts_chars]

/-! ## White space -/

theorem toList_newline (level : Nat) :
    (Json.newline level).toList = '\n' :: List.replicate (2 * level) ' ' := by
  simp [Json.newline]

theorem skipBlank_newline (level : Nat) (chars : List Char) :
    skipBlank ((Json.newline level).toList ++ chars) = skipBlank chars := by
  rw [toList_newline, skipBlank, skipBlank, List.dropWhile_append_of_pos]
  intro c member
  rcases List.mem_cons.mp member with rfl | isSpace
  · rfl
  · rw [List.eq_of_mem_replicate isSpace]
    rfl

theorem skipBlank_of_not_blank {c : Char}
    (notBlank : (c == ' ' || c == '\n' || c == '\t' || c == '\r') = false) (chars : List Char) :
    skipBlank (c :: chars) = c :: chars :=
  List.dropWhile_cons_of_neg (by simp [notBlank])

/-! ## Values -/

theorem toList_encodeString (value : String) :
    (Json.encodeString value).toList = '"' :: (value.toList.flatMap Json.encodeChar ++ ['"']) := by
  simp [Json.encodeString]

theorem toList_write_array (level : Nat) (element : Json) (elements : List Json) :
    ((Json.array (element :: elements)).write level).toList =
      '[' :: ((Json.newline (level + 1)).toList ++ ((element.write (level + 1)).toList ++
        ((Json.writeElements (level + 1) elements).toList ++
          ((Json.newline level).toList ++ [']'])))) := by
  simp [Json.write]

theorem toList_writeElements (level : Nat) (element : Json) (elements : List Json) :
    (Json.writeElements level (element :: elements)).toList =
      ',' :: ((Json.newline level).toList ++ ((element.write level).toList ++
        (Json.writeElements level elements).toList)) := by
  simp [Json.writeElements]

theorem toList_write_object (level : Nat) (name : String) (value : Json)
    (members : List (String × Json)) :
    ((Json.object ((name, value) :: members)).write level).toList =
      '\x7b' :: ((Json.newline (level + 1)).toList ++ ((Json.encodeString name).toList ++
        ':' :: ' ' :: ((value.write (level + 1)).toList ++
          ((Json.writeMembers (level + 1) members).toList ++
            ((Json.newline level).toList ++ ['\x7d']))))) := by
  simp [Json.write]

theorem toList_writeMembers (level : Nat) (name : String) (value : Json)
    (members : List (String × Json)) :
    (Json.writeMembers level ((name, value) :: members)).toList =
      ',' :: ((Json.newline level).toList ++ ((Json.encodeString name).toList ++
        ':' :: ' ' :: ((value.write level).toList ++
          (Json.writeMembers level members).toList))) := by
  simp [Json.writeMembers]

/-- The characters that a value starts with. -/
theorem exists_write_eq (value : Json) (level : Nat) :
    ∃ first others, (value.write level).toList = first :: others ∧
      first ∈ ['n', 't', 'f', '"', '[', '\x7b'] := by
  cases value with
  | null => exact ⟨'n', ['u', 'l', 'l'], by simp [Json.write], by decide⟩
  | boolean value =>
      cases value with
      | true => exact ⟨'t', ['r', 'u', 'e'], by simp [Json.write], by decide⟩
      | false => exact ⟨'f', ['a', 'l', 's', 'e'], by simp [Json.write], by decide⟩
  | string value => exact ⟨'"', _, toList_encodeString value, by decide⟩
  | array elements =>
      cases elements with
      | nil => exact ⟨'[', [']'], by simp [Json.write], by decide⟩
      | cons element elements =>
          exact ⟨'[', _, toList_write_array level element elements, by decide⟩
  | object members =>
      cases members with
      | nil => exact ⟨'\x7b', ['\x7d'], by simp [Json.write], by decide⟩
      | cons member members =>
          exact ⟨'\x7b', _, toList_write_object level member.1 member.2 members, by decide⟩

theorem skipBlank_write (value : Json) (level : Nat) (rest : List Char) :
    skipBlank ((value.write level).toList ++ rest) = (value.write level).toList ++ rest := by
  obtain ⟨first, others, written, start⟩ := exists_write_eq value level
  have notBlank : ∀ c ∈ ['n', 't', 'f', '"', '[', '\x7b'],
      (c == ' ' || c == '\n' || c == '\t' || c == '\r') = false := by
    simp
  rw [written, List.cons_append, skipBlank_of_not_blank (notBlank first start)]

theorem skipBlank_newline_write (value : Json) (level indentation : Nat) (rest : List Char) :
    skipBlank ((Json.newline indentation).toList ++ ((value.write level).toList ++ rest)) =
      (value.write level).toList ++ rest := by
  rw [skipBlank_newline, skipBlank_write]

theorem skipBlank_newline_name (name : String) (indentation : Nat) (rest : List Char) :
    skipBlank ((Json.newline indentation).toList ++ ((Json.encodeString name).toList ++ rest)) =
      (Json.encodeString name).toList ++ rest := by
  rw [skipBlank_newline, toList_encodeString, List.cons_append, skipBlank_of_not_blank rfl]

/-- The space in front of a value does not matter. -/
theorem readValue_space (fuel : Nat) (chars : List Char) :
    readValue fuel (' ' :: chars) = readValue fuel chars := by
  cases fuel with
  | zero => rw [readValue, readValue]
  | succ fuel =>
      have skipped : skipBlank (' ' :: chars) = skipBlank chars := rfl
      rw [readValue, readValue, skipped]

theorem write_append_ne (value : Json) (level : Nat) (rest others : List Char) :
    (value.write level).toList ++ rest ≠ ']' :: others := by
  obtain ⟨first, _, written, start⟩ := exists_write_eq value level
  rw [written, List.cons_append]
  intro same
  cases same
  revert start
  decide

section Separators

variable {fuel : Nat} {chars text rest after later : List Char} {value : Reading}

theorem readElements_of_comma (isFirst : Bool) (blank : skipBlank chars = text)
    (notClosed : ∀ others, text ≠ ']' :: others)
    (read : readValue fuel text = (value, some after)) (next : skipBlank after = ',' :: later) :
    readElements (fuel + 1) isFirst chars =
      (value :: (readElements fuel false later).1, (readElements fuel false later).2) := by
  rw [readElements, blank]
  split
  next others => exact absurd rfl (notClosed others)
  next => simp only [read, next]

theorem readElements_of_bracket (isFirst : Bool) (blank : skipBlank chars = text)
    (notClosed : ∀ others, text ≠ ']' :: others)
    (read : readValue fuel text = (value, some after)) (next : skipBlank after = ']' :: later) :
    readElements (fuel + 1) isFirst chars = ([value], some later) := by
  rw [readElements, blank]
  split
  next others => exact absurd rfl (notClosed others)
  next => simp only [read, next]

theorem readString_name (name : String) :
    readString (name.toList.flatMap Json.encodeChar ++ ['"'] ++ ':' :: rest) =
      some (some name, ':' :: rest) := by
  rw [List.append_assoc]
  exact readString_encoded name (':' :: rest)

theorem readMembers_of_comma (isFirst : Bool) (name : String)
    (blank : skipBlank chars = (Json.encodeString name).toList ++ ':' :: rest)
    (read : readValue fuel rest = (value, some after)) (next : skipBlank after = ',' :: later) :
    readMembers (fuel + 1) isFirst chars =
      ((some name, value) :: (readMembers fuel false later).1,
        (readMembers fuel false later).2) := by
  have colon : skipBlank (':' :: rest) = ':' :: rest := skipBlank_of_not_blank rfl rest
  rw [readMembers, blank, toList_encodeString, List.cons_append]
  simp only [readString_name, colon, read, next]

theorem readMembers_of_brace (isFirst : Bool) (name : String)
    (blank : skipBlank chars = (Json.encodeString name).toList ++ ':' :: rest)
    (read : readValue fuel rest = (value, some after))
    (next : skipBlank after = '\x7d' :: later) :
    readMembers (fuel + 1) isFirst chars = ([(some name, value)], some later) := by
  have colon : skipBlank (':' :: rest) = ':' :: rest := skipBlank_of_not_blank rfl rest
  rw [readMembers, blank, toList_encodeString, List.cons_append]
  simp only [readString_name, colon, read, next]

end Separators

/-- A value is read back from its document, whatever follows. -/
def ReadsBack (value : Json) : Prop :=
  ∀ (level : Nat) {fuel : Nat} (rest : List Char), (value.write level).toList.length ≤ fuel →
    readValue fuel ((value.write level).toList ++ rest) = (value.reading, some rest)

/-- After an element the other elements are read back. -/
def ElementsReadBack (elements : List Json) : Prop :=
  ∀ (isFirst : Bool) (level outer : Nat) (rest : List Char) {fuel : Nat} {chars text : List Char}
    {value : Reading},
    readValue fuel text = (value, some ((Json.writeElements level elements).toList ++
      ((Json.newline outer).toList ++ ']' :: rest))) →
    skipBlank chars = text → (∀ others, text ≠ ']' :: others) →
    (Json.writeElements level elements).toList.length ≤ fuel →
    readElements (fuel + 1) isFirst chars = (value :: Json.readings elements, some rest)

/-- After a member the other members are read back. -/
def MembersReadBack (members : List (String × Json)) : Prop :=
  ∀ (isFirst : Bool) (name : String) (level outer : Nat) (rest : List Char) {fuel : Nat}
    {chars text : List Char} {value : Reading},
    readValue fuel text = (value, some ((Json.writeMembers level members).toList ++
      ((Json.newline outer).toList ++ '\x7d' :: rest))) →
    skipBlank chars = (Json.encodeString name).toList ++ ':' :: ' ' :: text →
    (Json.writeMembers level members).toList.length ≤ fuel →
    readMembers (fuel + 1) isFirst chars =
      ((some name, value) :: Json.memberReadings members, some rest)

/-- There is a step for every character of a value, and the first is taken for its start. -/
theorem readsBack_of_succ {value : Json}
    (step : ∀ {level fuel : Nat} (rest : List Char),
      (value.write level).toList.length ≤ fuel + 1 →
      readValue (fuel + 1) ((value.write level).toList ++ rest) = (value.reading, some rest)) :
    ReadsBack value := by
  intro level fuel rest enough
  obtain ⟨first, others, written, _⟩ := exists_write_eq value level
  cases fuel with
  | zero => simp [written] at enough
  | succ fuel => exact step rest enough

theorem readsBack_null : ReadsBack .null := by
  refine readsBack_of_succ fun rest _ => ?_
  rw [readValue, skipBlank_write]
  simp [Json.write, readWord, afterWord?, Json.reading]

theorem readsBack_boolean (value : Bool) : ReadsBack (.boolean value) := by
  refine readsBack_of_succ fun rest _ => ?_
  rw [readValue, skipBlank_write]
  cases value <;> simp [Json.write, readWord, afterWord?, Json.reading]

theorem readsBack_string (value : String) : ReadsBack (.string value) := by
  refine readsBack_of_succ fun rest _ => ?_
  have read := readString_encoded value rest
  rw [readValue, skipBlank_write]
  simp [Json.write, toList_encodeString, read, Json.reading]

theorem readsBack_array_nil : ReadsBack (.array []) := by
  refine readsBack_of_succ fun {level fuel} rest enough => ?_
  have closed : skipBlank (']' :: rest) = ']' :: rest := skipBlank_of_not_blank rfl rest
  have length_eq : ((Json.array []).write level).toList.length = 2 := by simp [Json.write]
  obtain ⟨fuel, rfl⟩ : ∃ smaller, fuel = smaller + 1 := ⟨fuel - 1, by omega⟩
  rw [readValue, skipBlank_write]
  simp [Json.write, readElements, closed, Json.reading, Json.readings]

theorem readsBack_object_nil : ReadsBack (.object []) := by
  refine readsBack_of_succ fun {level fuel} rest enough => ?_
  have closed : skipBlank ('\x7d' :: rest) = '\x7d' :: rest := skipBlank_of_not_blank rfl rest
  have length_eq : ((Json.object []).write level).toList.length = 2 := by simp [Json.write]
  obtain ⟨fuel, rfl⟩ : ∃ smaller, fuel = smaller + 1 := ⟨fuel - 1, by omega⟩
  rw [readValue, skipBlank_write]
  simp [Json.write, readMembers, closed, Json.reading, Json.memberReadings]

theorem ReadsBack.array {element : Json} {elements : List Json} (first : ReadsBack element)
    (others : ElementsReadBack elements) : ReadsBack (.array (element :: elements)) := by
  refine readsBack_of_succ fun {level fuel} rest enough => ?_
  rw [readValue, skipBlank_write, toList_write_array]
  rw [toList_write_array] at enough
  simp only [List.length_cons, List.length_append] at enough
  obtain ⟨fuel, rfl⟩ : ∃ smaller, fuel = smaller + 1 := ⟨fuel - 1, by omega⟩
  have read := others true (level + 1) level rest (first (level + 1) _ (show _ ≤ fuel by omega))
    (skipBlank_newline_write element (level + 1) (level + 1) _)
    (write_append_ne element (level + 1) _) (by omega)
  simp only [List.cons_append, List.append_assoc, List.nil_append, read, Json.reading,
    Json.readings, Option.isSome_some]

theorem ReadsBack.object {name : String} {value : Json} {members : List (String × Json)}
    (first : ReadsBack value) (others : MembersReadBack members) :
    ReadsBack (.object ((name, value) :: members)) := by
  refine readsBack_of_succ fun {level fuel} rest enough => ?_
  rw [readValue, skipBlank_write, toList_write_object]
  rw [toList_write_object] at enough
  simp only [List.length_cons, List.length_append] at enough
  obtain ⟨fuel, rfl⟩ : ∃ smaller, fuel = smaller + 1 := ⟨fuel - 1, by omega⟩
  have read := others true name (level + 1) level rest
    (first (level + 1) _ (show _ ≤ fuel by omega))
    (skipBlank_newline_name name (level + 1) _) (by omega)
  simp only [List.cons_append, List.append_assoc, List.nil_append, read, Json.reading,
    Json.memberReadings, Option.isSome_some]

theorem elementsReadBack_nil : ElementsReadBack [] := by
  intro isFirst level outer rest fuel chars text value read blank notClosed _
  have closed : skipBlank ((Json.writeElements level []).toList ++
      ((Json.newline outer).toList ++ ']' :: rest)) = ']' :: rest := by
    simpa [Json.writeElements, skipBlank_newline] using skipBlank_of_not_blank rfl rest
  rw [readElements_of_bracket isFirst blank notClosed read closed, Json.readings]

theorem ElementsReadBack.cons {element : Json} {elements : List Json} (first : ReadsBack element)
    (others : ElementsReadBack elements) : ElementsReadBack (element :: elements) := by
  intro isFirst level outer rest fuel chars text value read blank notClosed enough
  rw [toList_writeElements, List.cons_append, List.append_assoc, List.append_assoc] at read
  rw [toList_writeElements] at enough
  simp only [List.length_cons, List.length_append] at enough
  obtain ⟨fuel, rfl⟩ : ∃ smaller, fuel = smaller + 1 := ⟨fuel - 1, by omega⟩
  have later := others false level outer rest (first level _ (show _ ≤ fuel by omega))
    (skipBlank_newline_write element level level _) (write_append_ne element level _) (by omega)
  rw [readElements_of_comma isFirst blank notClosed read (skipBlank_of_not_blank rfl _), later,
    Json.readings]

theorem membersReadBack_nil : MembersReadBack [] := by
  intro isFirst name level outer rest fuel chars text value read blank _
  have closed : skipBlank ((Json.writeMembers level []).toList ++
      ((Json.newline outer).toList ++ '\x7d' :: rest)) = '\x7d' :: rest := by
    simpa [Json.writeMembers, skipBlank_newline] using skipBlank_of_not_blank rfl rest
  rw [readMembers_of_brace isFirst name blank ((readValue_space fuel text).trans read) closed,
    Json.memberReadings]

theorem MembersReadBack.cons {other : String} {next : Json} {members : List (String × Json)}
    (first : ReadsBack next) (others : MembersReadBack members) :
    MembersReadBack ((other, next) :: members) := by
  intro isFirst name level outer rest fuel chars text value read blank enough
  rw [toList_writeMembers] at enough
  simp only [toList_writeMembers, List.cons_append, List.append_assoc] at read
  simp only [List.length_cons, List.length_append] at enough
  obtain ⟨fuel, rfl⟩ : ∃ smaller, fuel = smaller + 1 := ⟨fuel - 1, by omega⟩
  have later := others false other level outer rest (first level _ (show _ ≤ fuel by omega))
    (skipBlank_newline_name other level _) (by omega)
  rw [readMembers_of_comma isFirst name blank ((readValue_space _ text).trans read)
    (skipBlank_of_not_blank rfl _), later, Json.memberReadings]

mutual

theorem readsBack : (value : Json) → ReadsBack value
  | .null => readsBack_null
  | .boolean value => readsBack_boolean value
  | .string value => readsBack_string value
  | .array [] => readsBack_array_nil
  | .array (element :: elements) => (readsBack element).array (elementsReadBack elements)
  | .object [] => readsBack_object_nil
  | .object ((_, value) :: members) => (readsBack value).object (membersReadBack members)

theorem elementsReadBack : (elements : List Json) → ElementsReadBack elements
  | [] => elementsReadBack_nil
  | element :: elements => .cons (readsBack element) (elementsReadBack elements)

theorem membersReadBack : (members : List (String × Json)) → MembersReadBack members
  | [] => membersReadBack_nil
  | (_, value) :: members => .cons (readsBack value) (membersReadBack members)

end

/-- A document is read back as the value that it was written for. -/
theorem document_pretty (value : Json) : document value.pretty = (value.reading, true) := by
  have read := readsBack value 0 []
    (show (value.write 0).toList.length ≤ 2 * (value.write 0).toList.length + 2 by omega)
  rw [List.append_nil] at read
  rw [document, Json.pretty, read]
  rfl

end Reading

end StoreLint
