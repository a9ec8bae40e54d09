/-
Module: ModelDistribution.Foundation.JsonReader
Layer: Foundation
Purpose: A reader of JSON texts: blanks between tokens, escapes and surrogate pairs in strings,
  integers of machine size, and every other number by a reader of floating-point texts. It reads the
  compact text of a value back, up to what reading makes of the floating-point numbers.
Imports: ModelDistribution.Foundation.JsonText
Trusted boundary: human-reviewed spec
Main exports: readString, readNumber, Json.readValue, Json.read, JsonNumber.InRange,
  JsonNumber.IsWord, Json.Within, Json.mapNumber, ReadsFloats, ReadsBack, readString_quoted,
  readValue_render, readsBack_read, ReadsBack.words
-/
import ModelDistribution.Foundation.JsonText

namespace ModelDistribution.Foundation

/-! ### Strings -/

def hexValue? (c : Char) : Option Nat :=
  if '0' ≤ c ∧ c ≤ '9' then some (c.toNat - '0'.toNat)
  else if 'a' ≤ c ∧ c ≤ 'f' then some (c.toNat - 'a'.toNat + 10)
  else if 'A' ≤ c ∧ c ≤ 'F' then some (c.toNat - 'A'.toNat + 10)
  else none

/-- A UTF-16 code unit from its four hexadecimal digits. -/
def hexUnit? (a b c d : Char) : Option Nat := do
  let a ← hexValue? a
  let b ← hexValue? b
  let c ← hexValue? c
  let d ← hexValue? d
  return ((a * 16 + b) * 16 + c) * 16 + d

/-- The character that a letter behind a backslash stands for. -/
def letterEscape? (letter : Char) : Option Char :=
  if letter = '"' then some '"'
  else if letter = '\\' then some '\\'
  else if letter = '/' then some '/'
  else if letter = 'b' then some '\x08'
  else if letter = 't' then some '\t'
  else if letter = 'n' then some '\n'
  else if letter = 'f' then some '\x0c'
  else if letter = 'r' then some '\r'
  else none

/-- A part of a string: a character, or a code unit given by its number. -/
inductive StringPart where
  | char (c : Char)
  | unit (value : Nat)

/-- The parts of a string up to its closing quote, and the text behind it. -/
def readParts : List Char → Option (List StringPart × List Char)
  | [] => none
  | c :: rest =>
      if c = '"' then some ([], rest)
      else if c = '\\' then
        match rest with
        | [] => none
        | letter :: rest =>
            if letter = 'u' then
              match rest with
              | h₃ :: h₂ :: h₁ :: h₀ :: rest =>
                  (hexUnit? h₃ h₂ h₁ h₀).bind fun unit =>
                    (readParts rest).map fun (parts, rest) => (.unit unit :: parts, rest)
              | _ => none
            else
              (letterEscape? letter).bind fun c =>
                (readParts rest).map fun (parts, rest) => (.char c :: parts, rest)
      else if c.toNat < 0x20 then none
      else (readParts rest).map fun (parts, rest) => (.char c :: parts, rest)

def isHighSurrogate (unit : Nat) : Bool := 0xD800 ≤ unit && unit < 0xDC00

def isLowSurrogate (unit : Nat) : Bool := 0xDC00 ≤ unit && unit < 0xE000

/-- The characters of the parts; surrogates must come in pairs. -/
def joinParts : List StringPart → Option (List Char)
  | [] => some []
  | .char c :: parts => (joinParts parts).map (c :: ·)
  | .unit high :: parts =>
      if isHighSurrogate high then
        match parts with
        | .unit low :: parts =>
            if isLowSurrogate low then
              (joinParts parts).map
                (Char.ofNat (0x10000 + (high - 0xD800) * 0x400 + (low - 0xDC00)) :: ·)
            else none
        | _ => none
      else if isLowSurrogate high then none
      else (joinParts parts).map (Char.ofNat high :: ·)

/-- A string behind its opening quote, and the text behind it. -/
def readString (text : List Char) : Option (String × List Char) :=
  (readParts text).bind fun (parts, rest) =>
    (joinParts parts).map fun chars => (String.ofList chars, rest)

/-! ### Numbers -/

/-- The number of decimal digits without leading zeros. -/
def natural? (digits : List Char) : Option Nat :=
  let n := Nat.ofDigitChars 10 digits 0
  if Nat.toDigits 10 n = digits then some n else none

/-- An integer; there is no negative zero. -/
def integer? : List Char → Option Int
  | [] => none
  | c :: digits =>
      if c = '-' then
        match natural? digits with
        | some (n + 1) => some (.negSucc n)
        | _ => none
      else (natural? (c :: digits)).map Int.ofNat

/-- Integers from the least signed to the greatest unsigned 64-bit word. -/
def JsonNumber.InRange : JsonNumber → Prop
  | .integer value => -2 ^ 63 ≤ value ∧ value < 2 ^ 64
  | _ => True

/-- An integer of the range, so no floating-point number. -/
def JsonNumber.IsWord (value : JsonNumber) : Prop :=
  value.InRange ∧ ∃ integer, value = .integer integer

/-- A number from its text; integers outside the range are floating-point numbers. -/
def readNumber (readFloat : List Char → Option JsonNumber) (text : List Char) :
    Option JsonNumber :=
  match integer? text with
  | some value =>
      if -2 ^ 63 ≤ value ∧ value < 2 ^ 64 then some (.integer value) else readFloat text
  | none => readFloat text

def startsNumber (c : Char) : Bool := c.isDigit || c == '-'

def isNumberChar (c : Char) : Bool :=
  c.isDigit || c == '-' || c == '+' || c == '.' || c == 'e' || c == 'E'

/-! ### Values -/

def isBlank (c : Char) : Bool := c == ' ' || c == '\t' || c == '\n' || c == '\r'

def skipBlanks (text : List Char) : List Char := text.dropWhile isBlank

namespace Json

/-- The three words of JSON. -/
def readWord : List Char → Option (Json × List Char)
  | 'n' :: 'u' :: 'l' :: 'l' :: rest => some (.null, rest)
  | 't' :: 'r' :: 'u' :: 'e' :: rest => some (.bool true, rest)
  | 'f' :: 'a' :: 'l' :: 's' :: 'e' :: rest => some (.bool false, rest)
  | _ => none

/-- The key of a member with its colon. -/
def readKey (text : List Char) : Option (String × List Char) :=
  match skipBlanks text with
  | [] => none
  | c :: rest =>
      if c = '"' then
        (readString rest).bind fun (key, rest) =>
          match skipBlanks rest with
          | [] => none
          | c :: rest => if c = ':' then some (key, rest) else none
      else none

section Read

variable (readFloat : List Char → Option JsonNumber)

mutual

/-- A value in front of a text, and the text behind it. The fuel bounds the calls that are open. -/
def readValue : Nat → List Char → Option (Json × List Char)
  | 0, _ => none
  | fuel + 1, text =>
      match skipBlanks text with
      | [] => none
      | c :: rest =>
          if c = '"' then (readString rest).map fun (text, rest) => (.string text, rest)
          else if c = '[' then
            match skipBlanks rest with
            | [] => none
            | next :: behind =>
                if next = ']' then some (.array [], behind)
                else
                  (readItems fuel (next :: behind)).map fun (items, rest) => (.array items, rest)
          else if c = '{' then
            match skipBlanks rest with
            | [] => none
            | next :: behind =>
                if next = '}' then some (.object [], behind)
                else
                  (readFields fuel (next :: behind)).map fun (fields, rest) =>
                    (.object fields, rest)
          else if startsNumber c then
            (readNumber readFloat ((c :: rest).takeWhile isNumberChar)).map fun value =>
              (.number value, (c :: rest).dropWhile isNumberChar)
          else readWord (c :: rest)

/-- The items of an array and its closing bracket. -/
def readItems : Nat → List Char → Option (List Json × List Char)
  | 0, _ => none
  | fuel + 1, text =>
      (readValue fuel text).bind fun (item, rest) =>
        match skipBlanks rest with
        | [] => none
        | c :: rest =>
            if c = ']' then some ([item], rest)
            else if c = ',' then
              (readItems fuel rest).map fun (items, rest) => (item :: items, rest)
            else none

/-- The members of an object and its closing brace. -/
def readFields : Nat → List Char → Option (List (String × Json) × List Char)
  | 0, _ => none
  | fuel + 1, text =>
      (readKey text).bind fun (key, rest) =>
        (readValue fuel rest).bind fun (value, rest) =>
          match skipBlanks rest with
          | [] => none
          | c :: rest =>
              if c = '}' then some ([(key, value)], rest)
              else if c = ',' then
                (readFields fuel rest).map fun (fields, rest) => ((key, value) :: fields, rest)
              else none

end

/-- The one value that the bytes hold. -/
def read (bytes : List UInt8) : Option Json :=
  bytes.toByteArray.utf8Decode?.bind fun text =>
    (readValue readFloat text.size text.toList).bind fun (value, rest) =>
      if skipBlanks rest = [] then some value else none

end Read

section Within

variable (P : JsonNumber → Prop)

mutual

/-- The numbers have the property and nowhere are more than so many brackets open. -/
def Within : Nat → Json → Prop
  | _, .null => True
  | _, .bool _ => True
  | _, .number value => P value
  | _, .string _ => True
  | 0, .array _ => False
  | limit + 1, .array items => WithinItems limit items
  | 0, .object _ => False
  | limit + 1, .object fields => WithinFields limit fields

def WithinItems : Nat → List Json → Prop
  | _, [] => True
  | limit, item :: items => Within limit item ∧ WithinItems limit items

def WithinFields : Nat → List (String × Json) → Prop
  | _, [] => True
  | limit, (_, value) :: fields => Within limit value ∧ WithinFields limit fields

end

end Within

section MapNumber

variable (reread : JsonNumber → JsonNumber)

mutual

/-- The value with its numbers replaced. -/
def mapNumber : Json → Json
  | .null => .null
  | .bool value => .bool value
  | .number value => .number (reread value)
  | .string value => .string value
  | .array items => .array (mapItems items)
  | .object fields => .object (mapFields fields)

def mapItems : List Json → List Json
  | [] => []
  | item :: items => mapNumber item :: mapItems items

def mapFields : List (String × Json) → List (String × Json)
  | [] => []
  | (key, value) :: fields => (key, mapNumber value) :: mapFields fields

end

end MapNumber

end Json

/-- Texts of floating-point numbers that are read again: numerals that give the number that `reread`
names. Integers stay as they are. -/
structure ReadsFloats (floatText : JsonNumber → List Char)
    (readFloat : List Char → Option JsonNumber) (reread : JsonNumber → JsonNumber) : Prop where
  integer : ∀ value, reread (.integer value) = .integer value
  starts : ∀ value, ∃ c rest, floatText value = c :: rest ∧ startsNumber c = true
  numeral : ∀ value, ∀ c ∈ floatText value, isNumberChar c = true
  single : ∀ value, readNumber readFloat (floatText (.single value)) = some (reread (.single value))
  double : ∀ value, readNumber readFloat (floatText (.double value)) = some (reread (.double value))

/-- A reader that gives every value back from its compact text, with the numbers that reading makes of
those in it. Nesting is limited. -/
structure ReadsBack (floatText : JsonNumber → List Char) (limit : Nat)
    (reread : JsonNumber → JsonNumber) (read : List UInt8 → Option Json) : Prop where
  integer : ∀ value, reread (.integer value) = .integer value
  reads : ∀ value, Json.Within JsonNumber.InRange limit value →
    read (value.toBytes floatText) = some (value.mapNumber reread)

/-! ### Strings are read back -/

/-- The part that a character is written as. -/
def StringPart.of (c : Char) : StringPart :=
  if c ∉ shortEscapes ∧ c.toNat < 0x20 then .unit c.toNat else .char c

private theorem hexUnit?_control : ∀ n < 0x20,
    hexUnit? '0' '0' (Nat.digitChar (n / 16)) (Nat.digitChar (n % 16)) = some n := by
  decide

theorem readParts_quote (rest : List Char) : readParts ('"' :: rest) = some ([], rest) := by
  rw [readParts.eq_def]
  simp

/-- A character that is neither escaped nor the end. -/
theorem readParts_plain {c : Char} (quote : c ≠ '"') (backslash : c ≠ '\\')
    (visible : ¬ c.toNat < 0x20) (rest : List Char) :
    readParts (c :: rest) = (readParts rest).map fun (parts, rest) => (.char c :: parts, rest) := by
  rw [readParts.eq_def]
  simp [quote, backslash, visible]

/-- A backslash with a letter. -/
theorem readParts_letter {letter c : Char} (other : letter ≠ 'u')
    (known : letterEscape? letter = some c) (rest : List Char) :
    readParts ('\\' :: letter :: rest) =
      (readParts rest).map fun (parts, rest) => (.char c :: parts, rest) := by
  rw [readParts.eq_def]
  simp [other, known]

/-- A code unit. -/
theorem readParts_unit {a b c d : Char} {unit : Nat} (known : hexUnit? a b c d = some unit)
    (rest : List Char) :
    readParts ('\\' :: 'u' :: a :: b :: c :: d :: rest) =
      (readParts rest).map fun (parts, rest) => (.unit unit :: parts, rest) := by
  rw [readParts.eq_def]
  simp [known]

theorem readParts_escapeChar (c : Char) (rest : List Char) :
    readParts (escapeChar c ++ rest) =
      (readParts rest).map fun (parts, rest) => (StringPart.of c :: parts, rest) := by
  by_cases short : c ∈ shortEscapes
  · have part : StringPart.of c = .char c := by simp [StringPart.of, short]
    rw [part]
    simp only [shortEscapes, List.mem_cons, List.not_mem_nil, or_false] at short
    rcases short with rfl | rfl | rfl | rfl | rfl | rfl | rfl <;>
      exact readParts_letter (by decide) rfl rest
  · have plain := short
    simp only [shortEscapes, List.mem_cons, List.not_mem_nil, or_false, not_or] at plain
    rcases plain with ⟨quote, backslash, backspace, tab, newline, formFeed, carriageReturn⟩
    by_cases control : c.toNat < 0x20
    · have part : StringPart.of c = .unit c.toNat := by simp [StringPart.of, short, control]
      have byte : (UInt8.ofNat c.toNat).toNat = c.toNat :=
        UInt8.toNat_ofNat_of_lt' (Nat.lt_trans control (by decide))
      have escaped : escapeChar c = ['\\', 'u', '0', '0', Nat.digitChar (c.toNat / 16),
          Nat.digitChar (c.toNat % 16)] := by
        simp [escapeChar, quote, backslash, backspace, tab, newline, formFeed, carriageReturn,
          control, hexByte, byte]
      rw [part, escaped]
      exact readParts_unit (hexUnit?_control c.toNat control) rest
    · have part : StringPart.of c = .char c := by simp [StringPart.of, control]
      have escaped : escapeChar c = [c] := by
        simp [escapeChar, quote, backslash, backspace, tab, newline, formFeed, carriageReturn,
          control]
      rw [part, escaped]
      exact readParts_plain quote backslash control rest

theorem readParts_text (text rest : List Char) :
    readParts (text.flatMap escapeChar ++ '"' :: rest) = some (text.map StringPart.of, rest) := by
  induction text with
  | nil => simp [readParts_quote]
  | cons c text ih =>
      rw [List.flatMap_cons, List.append_assoc, readParts_escapeChar, ih]
      rfl

/-- A code unit that is no surrogate. -/
theorem joinParts_unit {unit : Nat} (high : isHighSurrogate unit = false)
    (low : isLowSurrogate unit = false) (parts : List StringPart) :
    joinParts (.unit unit :: parts) = (joinParts parts).map (Char.ofNat unit :: ·) := by
  rw [joinParts.eq_def]
  simp [high, low]

theorem joinParts_of (c : Char) (parts : List StringPart) :
    joinParts (StringPart.of c :: parts) = (joinParts parts).map (c :: ·) := by
  by_cases control : c ∉ shortEscapes ∧ c.toNat < 0x20
  · have high : isHighSurrogate c.toNat = false := by
      have small := control.2
      simp only [isHighSurrogate, Bool.and_eq_false_iff, decide_eq_false_iff_not]
      omega
    have low : isLowSurrogate c.toNat = false := by
      have small := control.2
      simp only [isLowSurrogate, Bool.and_eq_false_iff, decide_eq_false_iff_not]
      omega
    simp [StringPart.of, control, joinParts_unit high low, Char.ofNat_toNat]
  · simp [StringPart.of, control, joinParts]

theorem joinParts_text (text : List Char) : joinParts (text.map StringPart.of) = some text := by
  induction text with
  | nil => rfl
  | cons c text ih =>
      rw [List.map_cons, joinParts_of, ih]
      rfl

/-- A string is read back from its quoted text. -/
theorem readString_quoted (text : String) (rest : List Char) :
    readString (text.toList.flatMap escapeChar ++ '"' :: rest) = some (text, rest) := by
  simp [readString, readParts_text, joinParts_text, String.ofList_toList]

/-! ### Numbers are read back -/

@[simp] theorem natural?_toDigits (n : Nat) : natural? (Nat.toDigits 10 n) = some n := by
  simp [natural?, Nat.ofDigitChars_ten_toDigits]

/-- The digits of a number: a first digit, and only digits. -/
theorem toDigits_eq_cons (n : Nat) :
    ∃ c rest, Nat.toDigits 10 n = c :: rest ∧ ∀ d ∈ c :: rest, d.isDigit = true := by
  cases digits : Nat.toDigits 10 n with
  | nil => exact absurd digits Nat.toDigits_ne_nil
  | cons c rest =>
      have all : ∀ d ∈ c :: rest, d.isDigit = true := by
        intro d mem
        rw [← digits] at mem
        exact Nat.isDigit_of_mem_toDigits (by decide) (by decide) mem
      exact ⟨c, rest, rfl, all⟩

theorem ne_minus_of_isDigit {c : Char} (digit : c.isDigit = true) : c ≠ '-' := by
  intro same
  rw [same] at digit
  cases digit

theorem integer?_render (floatText : JsonNumber → List Char) (value : Int) :
    integer? ((JsonNumber.integer value).render floatText) = some value := by
  cases value with
  | ofNat n =>
      rcases toDigits_eq_cons n with ⟨c, rest, digits, all⟩
      have notMinus := ne_minus_of_isDigit (all c List.mem_cons_self)
      have back := natural?_toDigits n
      simp only [JsonNumber.render, digits] at back ⊢
      simp [integer?, notMinus, back]
  | negSucc n => simp [JsonNumber.render, integer?]

theorem isNumberChar_of_isDigit {c : Char} (digit : c.isDigit = true) : isNumberChar c = true := by
  simp [isNumberChar, digit]

section Render

variable {floatText : JsonNumber → List Char} {readFloat : List Char → Option JsonNumber}
  {reread : JsonNumber → JsonNumber}

/-- The text of a number is a numeral. -/
theorem ReadsFloats.render (reads : ReadsFloats floatText readFloat reread) (value : JsonNumber) :
    (∃ c rest, value.render floatText = c :: rest ∧ startsNumber c = true) ∧
      ∀ c ∈ value.render floatText, isNumberChar c = true := by
  cases value with
  | integer value =>
      cases value with
      | ofNat n =>
          rcases toDigits_eq_cons n with ⟨c, rest, digits, all⟩
          have starts : startsNumber c = true := by simp [startsNumber, all c List.mem_cons_self]
          simp only [JsonNumber.render, digits]
          exact ⟨⟨c, rest, rfl, starts⟩, fun d mem => isNumberChar_of_isDigit (all d mem)⟩
      | negSucc n =>
          rcases toDigits_eq_cons (n + 1) with ⟨c, rest, digits, all⟩
          simp only [JsonNumber.render, digits]
          refine ⟨⟨'-', c :: rest, rfl, rfl⟩, ?_⟩
          intro d mem
          rcases List.mem_cons.mp mem with rfl | later
          · rfl
          · exact isNumberChar_of_isDigit (all d later)
  | single value => exact ⟨reads.starts _, reads.numeral _⟩
  | double value => exact ⟨reads.starts _, reads.numeral _⟩

/-- A number is read back from its text. -/
theorem readNumber_render (reads : ReadsFloats floatText readFloat reread) {value : JsonNumber}
    (range : value.InRange) :
    readNumber readFloat (value.render floatText) = some (reread value) := by
  cases value with
  | integer value =>
      rw [readNumber, integer?_render, reads.integer]
      exact if_pos range
  | single value => exact reads.single value
  | double value => exact reads.double value

end Render

/-! ### Values are read back -/

/-- No character of a number is in front. -/
def EndsNumber (rest : List Char) : Prop := ∀ c tail, rest = c :: tail → isNumberChar c = false

theorem endsNumber_nil : EndsNumber [] := fun _ _ same => by cases same

theorem endsNumber_cons {c : Char} (other : isNumberChar c = false) (rest : List Char) :
    EndsNumber (c :: rest) := by
  intro d tail same
  cases same
  exact other

theorem takeWhile_numeral {numeral rest : List Char} (all : ∀ c ∈ numeral, isNumberChar c = true)
    (ends : EndsNumber rest) : (numeral ++ rest).takeWhile isNumberChar = numeral := by
  rw [List.takeWhile_append_of_pos all]
  cases rest with
  | nil => simp
  | cons c tail => simp [ends c tail rfl]

theorem dropWhile_numeral {numeral rest : List Char} (all : ∀ c ∈ numeral, isNumberChar c = true)
    (ends : EndsNumber rest) : (numeral ++ rest).dropWhile isNumberChar = rest := by
  rw [List.dropWhile_append_of_pos all]
  cases rest with
  | nil => simp
  | cons c tail => simp [ends c tail rfl]

theorem skipBlanks_cons {c : Char} (visible : isBlank c = false) (rest : List Char) :
    skipBlanks (c :: rest) = c :: rest := by
  simp [skipBlanks, visible]

/-- A character that starts a number starts nothing else. -/
theorem startsNumber_only {c : Char} (starts : startsNumber c = true) :
    isBlank c = false ∧ c ≠ '"' ∧ c ≠ '[' ∧ c ≠ '{' ∧ c ≠ ']' := by
  refine ⟨?_, ?_, ?_, ?_, ?_⟩
  · cases blank : isBlank c with
    | false => rfl
    | true =>
        simp only [isBlank, Bool.or_eq_true, beq_iff_eq] at blank
        rcases blank with ((rfl | rfl) | rfl) | rfl <;> cases starts
  all_goals
    intro same
    rw [same] at starts
    cases starts

namespace Json

section Render

variable {floatText : JsonNumber → List Char} {readFloat : List Char → Option JsonNumber}
  {reread : JsonNumber → JsonNumber}

/-- The text of a value starts with neither a blank nor a closing bracket. -/
theorem render_eq_cons (reads : ReadsFloats floatText readFloat reread) (value : Json) :
    ∃ c rest, value.render floatText = c :: rest ∧ isBlank c = false ∧ c ≠ ']' := by
  cases value with
  | null => exact ⟨'n', _, rfl, rfl, by decide⟩
  | bool value =>
      cases value with
      | true => exact ⟨'t', _, rfl, rfl, by decide⟩
      | false => exact ⟨'f', _, rfl, rfl, by decide⟩
  | number value =>
      rcases (reads.render value).1 with ⟨c, rest, text, starts⟩
      rcases startsNumber_only starts with ⟨visible, _, _, _, notClosing⟩
      exact ⟨c, rest, by rw [render, text], visible, notClosing⟩
  | string text => exact ⟨'"', _, rfl, rfl, by decide⟩
  | array items => exact ⟨'[', _, rfl, rfl, by decide⟩
  | object fields => exact ⟨'{', _, rfl, rfl, by decide⟩

theorem renderItems_eq_cons (reads : ReadsFloats floatText readFloat reread) (item : Json)
    (items : List Json) :
    ∃ c rest, renderItems floatText (item :: items) = c :: rest ∧ isBlank c = false ∧ c ≠ ']' := by
  rcases render_eq_cons reads item with ⟨c, rest, text, visible, notClosing⟩
  cases items with
  | nil => exact ⟨c, rest, by rw [renderItems, text], visible, notClosing⟩
  | cons next items =>
      exact ⟨c, _, by rw [renderItems, text, List.cons_append], visible, notClosing⟩

theorem renderFields_eq_cons (floatText : JsonNumber → List Char) (field : String × Json)
    (fields : List (String × Json)) :
    ∃ rest, renderFields floatText (field :: fields) = '"' :: rest := by
  cases fields with
  | nil => exact ⟨_, rfl⟩
  | cons next fields => exact ⟨_, rfl⟩

theorem readKey_quoted (key : String) (rest : List Char) :
    readKey (quoted key ++ ':' :: rest) = some (key, rest) := by
  have text : quoted key ++ ':' :: rest =
      '"' :: (key.toList.flatMap escapeChar ++ '"' :: ':' :: rest) := by
    simp [quoted]
  rw [text, readKey, skipBlanks_cons rfl]
  simp [readString_quoted, skipBlanks_cons (c := ':') rfl]

mutual

/-- A value is read back from its text. -/
theorem readValue_render (reads : ReadsFloats floatText readFloat reread) :
    ∀ (value : Json) {limit fuel : Nat} {rest : List Char},
      Within JsonNumber.InRange limit value →
      (value.render floatText).length ≤ fuel → EndsNumber rest →
      readValue readFloat fuel (value.render floatText ++ rest) =
        some (value.mapNumber reread, rest)
  | .null, limit, fuel, rest, _, enough, _ => by
      cases fuel with
      | zero => simp [render] at enough
      | succ fuel => simp [render, readValue, skipBlanks, isBlank, startsNumber, readWord, mapNumber]
  | .bool true, limit, fuel, rest, _, enough, _ => by
      cases fuel with
      | zero => simp [render] at enough
      | succ fuel => simp [render, readValue, skipBlanks, isBlank, startsNumber, readWord, mapNumber]
  | .bool false, limit, fuel, rest, _, enough, _ => by
      cases fuel with
      | zero => simp [render] at enough
      | succ fuel => simp [render, readValue, skipBlanks, isBlank, startsNumber, readWord, mapNumber]
  | .number value, limit, fuel, rest, within, enough, ends => by
      rcases reads.render value with ⟨⟨c, tail, text, starts⟩, numeral⟩
      rcases startsNumber_only starts with ⟨visible, quote, bracket, brace, _⟩
      have range : value.InRange := by simpa [Within] using within
      have back := readNumber_render reads range
      have token := takeWhile_numeral numeral ends
      have behind := dropWhile_numeral numeral ends
      simp only [render, text] at enough token behind back ⊢
      cases fuel with
      | zero => simp at enough
      | succ fuel =>
          rw [List.cons_append] at token behind ⊢
          rw [readValue, skipBlanks_cons visible]
          simp [quote, bracket, brace, starts, token, behind, back, mapNumber]
  | .string text, limit, fuel, rest, _, enough, _ => by
      cases fuel with
      | zero => simp [render, quoted] at enough
      | succ fuel =>
          simp [render, quoted, readValue, skipBlanks_cons (c := '"') rfl, readString_quoted,
            mapNumber]
  | .array [], limit, fuel, rest, _, enough, _ => by
      cases fuel with
      | zero => simp [render] at enough
      | succ fuel =>
          simp [render, renderItems, readValue, skipBlanks, isBlank, mapNumber, mapItems]
  | .array (item :: items), limit, fuel, rest, within, enough, _ => by
      rcases limit with _ | limit
      · cases within
      rcases fuel with _ | fuel
      · simp [render] at enough
      have inside : WithinItems JsonNumber.InRange limit (item :: items) := within
      have fits : (renderItems floatText (item :: items)).length + 1 ≤ fuel := by
        simp only [render, List.length_cons, List.length_append, List.length_nil] at enough
        omega
      have back : readItems readFloat fuel (renderItems floatText (item :: items) ++ ']' :: rest) =
          some (mapItems reread (item :: items), rest) :=
        readItems_render reads (item :: items) (by simp) inside fits
      rcases renderItems_eq_cons reads item items with ⟨c, tail, text, visible, notClosing⟩
      rw [text, List.cons_append] at back
      simp [render, readValue, skipBlanks_cons (c := '[') rfl, text, skipBlanks_cons visible,
        notClosing, back, mapNumber]
  | .object [], limit, fuel, rest, _, enough, _ => by
      cases fuel with
      | zero => simp [render] at enough
      | succ fuel =>
          simp [render, renderFields, readValue, skipBlanks, isBlank, mapNumber, mapFields]
  | .object (field :: fields), limit, fuel, rest, within, enough, _ => by
      rcases limit with _ | limit
      · cases within
      rcases fuel with _ | fuel
      · simp [render] at enough
      have inside : WithinFields JsonNumber.InRange limit (field :: fields) := within
      have fits : (renderFields floatText (field :: fields)).length + 1 ≤ fuel := by
        simp only [render, List.length_cons, List.length_append, List.length_nil] at enough
        omega
      have back : readFields readFloat fuel
          (renderFields floatText (field :: fields) ++ '}' :: rest) =
          some (mapFields reread (field :: fields), rest) :=
        readFields_render reads (field :: fields) (by simp) inside fits
      rcases renderFields_eq_cons floatText field fields with ⟨tail, text⟩
      rw [text, List.cons_append] at back
      simp [render, readValue, skipBlanks_cons (c := '{') rfl, text, skipBlanks_cons (c := '"') rfl,
        back, mapNumber]

theorem readItems_render (reads : ReadsFloats floatText readFloat reread) :
    ∀ (items : List Json) {limit fuel : Nat} {rest : List Char}, items ≠ [] →
      WithinItems JsonNumber.InRange limit items → (renderItems floatText items).length + 1 ≤ fuel →
      readItems readFloat fuel (renderItems floatText items ++ ']' :: rest) =
        some (mapItems reread items, rest)
  | [], _, _, _, some_item, _, _ => absurd rfl some_item
  | [item], limit, fuel, rest, _, within, enough => by
      rcases fuel with _ | fuel
      · simp at enough
      have first : readValue readFloat fuel (item.render floatText ++ ']' :: rest) =
          some (item.mapNumber reread, ']' :: rest) :=
        readValue_render reads item within.1 (Nat.le_of_succ_le_succ enough)
          (endsNumber_cons rfl rest)
      simp [renderItems, readItems, first, skipBlanks_cons (c := ']') rfl, mapItems]
  | item :: next :: items, limit, fuel, rest, _, within, enough => by
      rcases fuel with _ | fuel
      · simp at enough
      simp only [renderItems, List.length_append, List.length_cons] at enough
      have others : readItems readFloat fuel
          (renderItems floatText (next :: items) ++ ']' :: rest) =
          some (mapItems reread (next :: items), rest) :=
        readItems_render reads (next :: items) (by simp) within.2 (by omega)
      have first : readValue readFloat fuel (item.render floatText ++
          ',' :: (renderItems floatText (next :: items) ++ ']' :: rest)) =
          some (item.mapNumber reread,
            ',' :: (renderItems floatText (next :: items) ++ ']' :: rest)) :=
        readValue_render reads item within.1 (by omega) (endsNumber_cons rfl _)
      simp [renderItems, readItems, first, others, skipBlanks_cons (c := ',') rfl, mapItems]

theorem readFields_render (reads : ReadsFloats floatText readFloat reread) :
    ∀ (fields : List (String × Json)) {limit fuel : Nat} {rest : List Char}, fields ≠ [] →
      WithinFields JsonNumber.InRange limit fields → (renderFields floatText fields).length + 1 ≤ fuel →
      readFields readFloat fuel (renderFields floatText fields ++ '}' :: rest) =
        some (mapFields reread fields, rest)
  | [], _, _, _, some_field, _, _ => absurd rfl some_field
  | [(key, value)], limit, fuel, rest, _, within, enough => by
      rcases fuel with _ | fuel
      · simp at enough
      simp only [renderFields, List.length_append, List.length_cons] at enough
      have named := readKey_quoted key (value.render floatText ++ '}' :: rest)
      have first : readValue readFloat fuel (value.render floatText ++ '}' :: rest) =
          some (value.mapNumber reread, '}' :: rest) :=
        readValue_render reads value within.1 (by omega) (endsNumber_cons rfl rest)
      simp [renderFields, readFields, named, first, skipBlanks_cons (c := '}') rfl, mapFields]
  | (key, value) :: next :: fields, limit, fuel, rest, _, within, enough => by
      rcases fuel with _ | fuel
      · simp at enough
      simp only [renderFields, List.length_append, List.length_cons] at enough
      have others : readFields readFloat fuel
          (renderFields floatText (next :: fields) ++ '}' :: rest) =
          some (mapFields reread (next :: fields), rest) :=
        readFields_render reads (next :: fields) (by simp) within.2 (by omega)
      have first : readValue readFloat fuel (value.render floatText ++
          ',' :: (renderFields floatText (next :: fields) ++ '}' :: rest)) =
          some (value.mapNumber reread,
            ',' :: (renderFields floatText (next :: fields) ++ '}' :: rest)) :=
        readValue_render reads value within.1 (by omega) (endsNumber_cons rfl _)
      have named := readKey_quoted key (value.render floatText ++
        ',' :: (renderFields floatText (next :: fields) ++ '}' :: rest))
      simp [renderFields, readFields, named, first, others, skipBlanks_cons (c := ',') rfl,
        mapFields]

end

/-- The reader gives every value back from the bytes of its text. -/
theorem readsBack_read (reads : ReadsFloats floatText readFloat reread) (limit : Nat) :
    ReadsBack floatText limit reread (read readFloat) where
  integer := reads.integer
  reads value within := by
    have decoded : (value.toBytes floatText).toByteArray.utf8Decode? =
        some (value.render floatText).toArray := by
      rw [toBytes, utf8, ← List.utf8Encode]
      exact List.utf8Decode?_utf8Encode
    have back := readValue_render reads value within (Nat.le_refl (value.render floatText).length)
      endsNumber_nil
    rw [List.append_nil] at back
    rw [read, decoded, Option.bind_some, List.size_toArray, back, Option.bind_some]
    exact if_pos rfl

end Render

/-! ### Nesting and numbers of some values -/

section Within

variable {P Q : JsonNumber → Prop}

theorem withinItems_iff {limit : Nat} {items : List Json} :
    WithinItems P limit items ↔ ∀ item ∈ items, Within P limit item := by
  induction items with
  | nil => simp [WithinItems]
  | cons item items ih => simp [WithinItems, ih]

theorem within_array {limit : Nat} {items : List Json} :
    Within P (limit + 1) (array items) ↔ ∀ item ∈ items, Within P limit item := by
  rw [Within, withinItems_iff]

mutual

/-- Weaker demands are met as well. -/
theorem Within.mono (weaker : ∀ value, P value → Q value) :
    ∀ (value : Json) {limit more : Nat}, limit ≤ more → Within P limit value → Within Q more value
  | .null, _, _, _, _ => by simp [Within]
  | .bool _, _, _, _, _ => by simp [Within]
  | .number value, _, _, _, within => by
      simp only [Within] at within ⊢
      exact weaker value within
  | .string _, _, _, _, _ => by simp [Within]
  | .array items, 0, _, _, within => within.elim
  | .array items, limit + 1, more, below, within => by
      cases more with
      | zero => cases below
      | succ more => exact WithinItems.mono weaker items (Nat.le_of_succ_le_succ below) within
  | .object fields, 0, _, _, within => within.elim
  | .object fields, limit + 1, more, below, within => by
      cases more with
      | zero => cases below
      | succ more => exact WithinFields.mono weaker fields (Nat.le_of_succ_le_succ below) within

theorem WithinItems.mono (weaker : ∀ value, P value → Q value) :
    ∀ (items : List Json) {limit more : Nat}, limit ≤ more → WithinItems P limit items →
      WithinItems Q more items
  | [], _, _, _, _ => trivial
  | item :: items, _, _, below, within =>
      ⟨Within.mono weaker item below within.1, WithinItems.mono weaker items below within.2⟩

theorem WithinFields.mono (weaker : ∀ value, P value → Q value) :
    ∀ (fields : List (String × Json)) {limit more : Nat}, limit ≤ more →
      WithinFields P limit fields → WithinFields Q more fields
  | [], _, _, _, _ => trivial
  | (_, value) :: fields, _, _, below, within =>
      ⟨Within.mono weaker value below within.1, WithinFields.mono weaker fields below within.2⟩

end

theorem within_ofNat {limit n : Nat} (small : n < 2 ^ 64) :
    Within JsonNumber.IsWord limit (ofNat n) := by
  simp only [ofNat, Within, JsonNumber.IsWord, JsonNumber.InRange]
  refine ⟨?_, _, rfl⟩
  omega

theorem within_bytes (limit : Nat) (data : List UInt8) :
    Within JsonNumber.IsWord (limit + 1) (bytes data) := by
  simp only [bytes, within_array, List.forall_mem_map]
  intro byte _
  exact within_ofNat (Nat.lt_trans byte.toNat_lt (by decide))

end Within

/-! ### Values without floating-point numbers -/

section Words

variable {floatText otherText : JsonNumber → List Char} {reread : JsonNumber → JsonNumber}

mutual

/-- Their text does not depend on that of floating-point numbers. -/
theorem render_words : ∀ (value : Json) {limit : Nat}, Within JsonNumber.IsWord limit value →
    value.render floatText = value.render otherText
  | .null, _, _ => rfl
  | .bool true, _, _ => rfl
  | .bool false, _, _ => rfl
  | .number value, limit, within => by
      rcases within with ⟨_, integer, rfl⟩
      cases integer with
      | ofNat n => rfl
      | negSucc n => rfl
  | .string _, _, _ => rfl
  | .array items, 0, within => within.elim
  | .array items, limit + 1, within => by
      rw [render, render, renderItems_words items within]
  | .object fields, 0, within => within.elim
  | .object fields, limit + 1, within => by
      rw [render, render, renderFields_words fields within]

theorem renderItems_words : ∀ (items : List Json) {limit : Nat},
    WithinItems JsonNumber.IsWord limit items →
    renderItems floatText items = renderItems otherText items
  | [], _, _ => rfl
  | [item], _, within => by rw [renderItems, renderItems, render_words item within.1]
  | item :: next :: items, _, within => by
      rw [renderItems, renderItems, render_words item within.1,
        renderItems_words (next :: items) within.2]

theorem renderFields_words : ∀ (fields : List (String × Json)) {limit : Nat},
    WithinFields JsonNumber.IsWord limit fields →
    renderFields floatText fields = renderFields otherText fields
  | [], _, _ => rfl
  | [(key, value)], _, within => by rw [renderFields, renderFields, render_words value within.1]
  | (key, value) :: next :: fields, _, within => by
      rw [renderFields, renderFields, render_words value within.1,
        renderFields_words (next :: fields) within.2]

end

mutual

/-- Reading leaves them as they are. -/
theorem mapNumber_words (same : ∀ value, reread (.integer value) = .integer value) :
    ∀ (value : Json) {limit : Nat}, Within JsonNumber.IsWord limit value →
      value.mapNumber reread = value
  | .null, _, _ => rfl
  | .bool _, _, _ => rfl
  | .number value, limit, within => by
      rcases within with ⟨_, integer, rfl⟩
      rw [mapNumber, same]
  | .string _, _, _ => rfl
  | .array items, 0, within => within.elim
  | .array items, limit + 1, within => by
      rw [mapNumber, mapItems_words same items within]
  | .object fields, 0, within => within.elim
  | .object fields, limit + 1, within => by
      rw [mapNumber, mapFields_words same fields within]

theorem mapItems_words (same : ∀ value, reread (.integer value) = .integer value) :
    ∀ (items : List Json) {limit : Nat}, WithinItems JsonNumber.IsWord limit items →
      mapItems reread items = items
  | [], _, _ => rfl
  | item :: items, _, within => by
      rw [mapItems, mapNumber_words same item within.1, mapItems_words same items within.2]

theorem mapFields_words (same : ∀ value, reread (.integer value) = .integer value) :
    ∀ (fields : List (String × Json)) {limit : Nat}, WithinFields JsonNumber.IsWord limit fields →
      mapFields reread fields = fields
  | [], _, _ => rfl
  | (key, value) :: fields, _, within => by
      rw [mapFields, mapNumber_words same value within.1, mapFields_words same fields within.2]

end

end Words

theorem mapItems_eq_map (reread : JsonNumber → JsonNumber) (items : List Json) :
    mapItems reread items = items.map (mapNumber reread) := by
  induction items with
  | nil => rfl
  | cons item items ih => simp [mapItems, ih]

end Json

/-- What is read back of a value without floating-point numbers is the value, in whichever way it was
written. -/
theorem ReadsBack.words {floatText otherText : JsonNumber → List Char}
    {reread : JsonNumber → JsonNumber} {limit : Nat} {read : List UInt8 → Option Json}
    (reads : ReadsBack floatText limit reread read) {value : Json}
    (words : Json.Within JsonNumber.IsWord limit value) :
    read (value.toBytes otherText) = some value := by
  have range : Json.Within JsonNumber.InRange limit value :=
    Json.Within.mono (fun _ isWord => isWord.1) value (Nat.le_refl limit) words
  rw [Json.toBytes, Json.render_words value words, ← Json.toBytes, reads.reads value range,
    Json.mapNumber_words reads.integer value words]

end ModelDistribution.Foundation
