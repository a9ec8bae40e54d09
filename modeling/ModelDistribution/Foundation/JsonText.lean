/-
Module: ModelDistribution.Foundation.JsonText
Layer: Foundation
Purpose: The compact text of a JSON value and its size in bytes, counted from the value alone. The
  text of a floating-point number is a parameter.
Imports: Mathlib.Algebra.Group.Action.Defs, Mathlib.Algebra.Order.BigOperators.Group.List,
  Mathlib.Algebra.Order.Ring.Nat, ModelDistribution.Foundation.Json,
  ModelDistribution.Foundation.Text
Trusted boundary: human-reviewed spec
Main exports: Json.render, Json.toBytes, Json.bytes, decimalSize, textSize, arraySize,
  byteListSize, Json.size, length_toBytes, size_array, size_bytes, byteListSize_le, textSize_le,
  le_byteListSize, printable_render, le_of_mem_utf8
-/
import Mathlib.Algebra.Group.Action.Defs
import Mathlib.Algebra.Order.BigOperators.Group.List
import Mathlib.Algebra.Order.Ring.Nat
import ModelDistribution.Foundation.Json
import ModelDistribution.Foundation.Text

namespace ModelDistribution.Foundation

/-! ### Text -/

/-- How a character stands in a JSON string. -/
def escapeChar (c : Char) : List Char :=
  if c = '"' then ['\\', '"']
  else if c = '\\' then ['\\', '\\']
  else if c = '\x08' then ['\\', 'b']
  else if c = '\t' then ['\\', 't']
  else if c = '\n' then ['\\', 'n']
  else if c = '\x0c' then ['\\', 'f']
  else if c = '\r' then ['\\', 'r']
  else if c.toNat < 0x20 then ['\\', 'u', '0', '0'] ++ hexByte (UInt8.ofNat c.toNat)
  else [c]

/-- A JSON string with its quotes. -/
def quoted (text : String) : List Char := '"' :: (text.toList.flatMap escapeChar ++ ['"'])

/-- The text of a number; `floatText` gives that of the floating-point ones. -/
def JsonNumber.render (floatText : JsonNumber → List Char) : JsonNumber → List Char
  | .integer (.ofNat n) => Nat.toDigits 10 n
  | .integer (.negSucc n) => '-' :: Nat.toDigits 10 (n + 1)
  | other => floatText other

namespace Json

section Render

variable (floatText : JsonNumber → List Char)

mutual

/-- The compact text of a value: no blanks, members in their order. -/
def render : Json → List Char
  | .null => ['n', 'u', 'l', 'l']
  | .bool true => ['t', 'r', 'u', 'e']
  | .bool false => ['f', 'a', 'l', 's', 'e']
  | .number value => value.render floatText
  | .string value => quoted value
  | .array items => '[' :: (renderItems items ++ [']'])
  | .object fields => '{' :: (renderFields fields ++ ['}'])

def renderItems : List Json → List Char
  | [] => []
  | [item] => render item
  | item :: next :: rest => render item ++ ',' :: renderItems (next :: rest)

def renderFields : List (String × Json) → List Char
  | [] => []
  | [(key, value)] => quoted key ++ ':' :: render value
  | (key, value) :: next :: rest =>
      quoted key ++ ':' :: (render value ++ ',' :: renderFields (next :: rest))

end

/-- The bytes that are sent. -/
def toBytes (value : Json) : List UInt8 := utf8 (value.render floatText)

end Render

/-- A byte string as it is encoded: an array of numbers. -/
def bytes (data : List UInt8) : Json := .array (data.map fun byte => .ofNat byte.toNat)

end Json

/-! ### Sizes -/

/-- The number of decimal digits. -/
def decimalSize (n : Nat) : Nat := (Nat.toDigits 10 n).length

/-- The characters that are escaped by a letter behind a backslash. -/
def shortEscapes : List Char := ['"', '\\', '\x08', '\t', '\n', '\x0c', '\r']

/-- The bytes that a character takes in a JSON string. -/
def charSize (c : Char) : Nat :=
  if c ∈ shortEscapes then 2
  else if c.toNat < 0x20 then 6
  else c.utf8Size

/-- The bytes of a JSON string. -/
def textSize (text : String) : Nat := 2 + (text.toList.map charSize).sum

/-- The bytes of an array with items of these sizes: a comma or a bracket behind each. -/
def arraySize (sizes : List Nat) : Nat := max 2 (1 + (sizes.map (· + 1)).sum)

/-- The bytes of a byte string that is sent as an array of numbers. -/
def byteListSize (data : List UInt8) : Nat :=
  arraySize (data.map fun byte => decimalSize byte.toNat)

namespace Json

section Size

variable (floatText : JsonNumber → List Char)

mutual

/-- The bytes of a value. -/
def size : Json → Nat
  | .null => 4
  | .bool true => 4
  | .bool false => 5
  | .number (.integer (.ofNat n)) => decimalSize n
  | .number (.integer (.negSucc n)) => 1 + decimalSize (n + 1)
  | .number other => utf8Size (floatText other)
  | .string value => textSize value
  | .array items => 2 + sizeItems items
  | .object fields => 2 + sizeFields fields

def sizeItems : List Json → Nat
  | [] => 0
  | [item] => size item
  | item :: next :: rest => size item + 1 + sizeItems (next :: rest)

def sizeFields : List (String × Json) → Nat
  | [] => 0
  | [(key, value)] => textSize key + 1 + size value
  | (key, value) :: next :: rest =>
      textSize key + 1 + size value + 1 + sizeFields (next :: rest)

end

end Size

end Json

/-! ### The text has the counted size -/

private theorem utf8Size_ascii {c : Char} (ascii : c.toNat < 128) : c.utf8Size = 1 := by
  apply Char.utf8Size_eq_one_iff.mpr
  rw [UInt32.le_iff_toNat_le]
  exact Nat.le_of_lt_succ ascii

/-- A text of ASCII characters has a byte for each of them. -/
theorem utf8Size_of_ascii {text : List Char} (ascii : ∀ c ∈ text, c.toNat < 128) :
    utf8Size text = text.length := by
  induction text with
  | nil => rfl
  | cons c text ih =>
      rw [utf8Size_cons, utf8Size_ascii (ascii c List.mem_cons_self),
        ih fun other mem => ascii other (List.mem_cons_of_mem c mem), List.length_cons, Nat.add_comm]

@[simp] theorem utf8Size_decimal (n : Nat) : utf8Size (Nat.toDigits 10 n) = decimalSize n := by
  apply utf8Size_of_ascii
  intro c mem
  have digit := Nat.isDigit_of_mem_toDigits (by decide) (by decide) mem
  simp only [Char.isDigit, Bool.and_eq_true, decide_eq_true_eq] at digit
  have upper := UInt32.le_iff_toNat_le.mp digit.2
  exact Nat.lt_of_le_of_lt upper (by decide)

/-- The two digits of a hexadecimal byte are ASCII. -/
private theorem utf8Size_hexByte : ∀ byte : UInt8, utf8Size (hexByte byte) = 2 := by
  intro byte
  apply utf8Size_of_ascii
  intro c mem
  have high : byte.toNat / 16 < 16 := by have := byte.toNat_lt; omega
  have digits : ∀ n < 16, (Nat.digitChar n).toNat < 128 := by decide
  simp only [hexByte, List.mem_cons, List.not_mem_nil, or_false] at mem
  rcases mem with rfl | rfl
  · exact digits _ high
  · exact digits _ (Nat.mod_lt _ (by decide))

/-- The three ways in which a character stands in a string: a letter behind a backslash, a code, or
itself. -/
private theorem escapeChar_cases (c : Char) :
    (c ∈ shortEscapes ∧
      ∃ letter, 0x20 ≤ letter.toNat ∧ letter.toNat < 0x80 ∧ escapeChar c = ['\\', letter]) ∨
    (c ∉ shortEscapes ∧ c.toNat < 0x20 ∧
      escapeChar c = ['\\', 'u', '0', '0'] ++ hexByte (UInt8.ofNat c.toNat)) ∨
    (c ∉ shortEscapes ∧ 0x20 ≤ c.toNat ∧ escapeChar c = [c]) := by
  by_cases short : c ∈ shortEscapes
  · left
    refine ⟨short, ?_⟩
    simp only [shortEscapes, List.mem_cons, List.not_mem_nil, or_false] at short
    rcases short with rfl | rfl | rfl | rfl | rfl | rfl | rfl
    · exact ⟨'"', by decide, by decide, rfl⟩
    · exact ⟨'\\', by decide, by decide, rfl⟩
    · exact ⟨'b', by decide, by decide, rfl⟩
    · exact ⟨'t', by decide, by decide, rfl⟩
    · exact ⟨'n', by decide, by decide, rfl⟩
    · exact ⟨'f', by decide, by decide, rfl⟩
    · exact ⟨'r', by decide, by decide, rfl⟩
  · right
    have notShort := short
    simp only [shortEscapes, List.mem_cons, List.not_mem_nil, or_false, not_or] at short
    obtain ⟨quote, backslash, backspace, tab, newline, formFeed, carriageReturn⟩ := short
    rw [escapeChar, if_neg quote, if_neg backslash, if_neg backspace, if_neg tab, if_neg newline,
      if_neg formFeed, if_neg carriageReturn]
    by_cases control : c.toNat < 0x20
    · exact .inl ⟨notShort, control, if_pos control⟩
    · exact .inr ⟨notShort, Nat.le_of_not_lt control, if_neg control⟩

theorem utf8Size_escapeChar (c : Char) : utf8Size (escapeChar c) = charSize c := by
  rcases escapeChar_cases c with ⟨short, letter, _, ascii, escaped⟩ | ⟨long, control, escaped⟩ |
    ⟨long, visible, escaped⟩
  · have size : utf8Size ['\\', letter] = 2 := by
      apply utf8Size_of_ascii
      intro other mem
      simp only [List.mem_cons, List.not_mem_nil, or_false] at mem
      rcases mem with rfl | rfl
      · decide
      · exact ascii
    rw [escaped, charSize, if_pos short, size]
  · rw [escaped, charSize, if_neg long, if_pos control, utf8Size_append, utf8Size_hexByte]
    decide
  · rw [escaped, charSize, if_neg long, if_neg (Nat.not_lt_of_le visible), utf8Size_cons,
      utf8Size_nil, Nat.add_zero]

theorem utf8Size_flatMap_escapeChar (text : List Char) :
    utf8Size (text.flatMap escapeChar) = (text.map charSize).sum := by
  induction text with
  | nil => rfl
  | cons c text ih =>
      rw [List.flatMap_cons, utf8Size_append, utf8Size_escapeChar, ih, List.map_cons, List.sum_cons]

@[simp] theorem utf8Size_quoted (text : String) : utf8Size (quoted text) = textSize text := by
  have quote : '"'.utf8Size = 1 := by decide
  rw [quoted, utf8Size_cons, utf8Size_append, utf8Size_flatMap_escapeChar, utf8Size_cons, quote,
    utf8Size_nil, textSize]
  omega

namespace Json

variable (floatText : JsonNumber → List Char)

private theorem punctuation : '['.utf8Size = 1 ∧ ']'.utf8Size = 1 ∧ '{'.utf8Size = 1 ∧
    '}'.utf8Size = 1 ∧ ','.utf8Size = 1 ∧ ':'.utf8Size = 1 ∧ '-'.utf8Size = 1 := by
  decide

mutual

/-- The text of a value has the counted size. -/
theorem utf8Size_render : ∀ value : Json, utf8Size (value.render floatText) = value.size floatText
  | .null => rfl
  | .bool true => rfl
  | .bool false => rfl
  | .number (.integer (.ofNat n)) => utf8Size_decimal n
  | .number (.integer (.negSucc n)) => by
      simp [render, JsonNumber.render, size, punctuation]
  | .number (.single value) => rfl
  | .number (.double value) => rfl
  | .string value => utf8Size_quoted value
  | .array items => by
      have inner := utf8Size_renderItems items
      simp only [render, size, utf8Size_cons, utf8Size_append, utf8Size_nil, punctuation, inner]
      omega
  | .object fields => by
      have inner := utf8Size_renderFields fields
      simp only [render, size, utf8Size_cons, utf8Size_append, utf8Size_nil, punctuation, inner]
      omega

theorem utf8Size_renderItems : ∀ items : List Json,
    utf8Size (renderItems floatText items) = sizeItems floatText items
  | [] => rfl
  | [item] => utf8Size_render item
  | item :: next :: rest => by
      have first := utf8Size_render item
      have others := utf8Size_renderItems (next :: rest)
      simp only [renderItems, sizeItems, utf8Size_cons, utf8Size_append, punctuation, first, others]
      omega

theorem utf8Size_renderFields : ∀ fields : List (String × Json),
    utf8Size (renderFields floatText fields) = sizeFields floatText fields
  | [] => rfl
  | [(key, value)] => by
      have inner := utf8Size_render value
      simp only [renderFields, sizeFields, utf8Size_cons, utf8Size_append, utf8Size_quoted,
        punctuation, inner]
      omega
  | (key, value) :: next :: rest => by
      have first := utf8Size_render value
      have others := utf8Size_renderFields (next :: rest)
      simp only [renderFields, sizeFields, utf8Size_cons, utf8Size_append, utf8Size_quoted,
        punctuation, first, others]
      omega

end

@[simp] theorem length_toBytes (value : Json) :
    (value.toBytes floatText).length = value.size floatText := by
  rw [toBytes, length_utf8, utf8Size_render]

/-! ### Arrays -/

private theorem sizeItems_cons (item : Json) (items : List Json) :
    sizeItems floatText (item :: items) + 1 =
      (((item :: items).map (size floatText)).map (· + 1)).sum := by
  induction items generalizing item with
  | nil => rfl
  | cons next items ih =>
      have others := ih next
      simp only [List.map_cons, sizeItems, List.sum_cons] at others ⊢
      omega

/-- The size of an array by the sizes of its items. -/
theorem size_array (items : List Json) :
    (array items).size floatText = arraySize (items.map (size floatText)) := by
  cases items with
  | nil => rfl
  | cons item items =>
      have counted := sizeItems_cons floatText item items
      simp only [size, arraySize, List.map_cons, List.sum_cons] at counted ⊢
      omega

theorem size_bytes (data : List UInt8) : (bytes data).size floatText = byteListSize data := by
  rw [bytes, size_array, List.map_map]
  rfl

/-- Items of at most `most` bytes. -/
theorem arraySize_le {sizes : List Nat} {most : Nat} (bounded : ∀ size ∈ sizes, size ≤ most) :
    arraySize sizes ≤ (most + 1) * sizes.length + 2 := by
  have total := List.sum_le_card_nsmul (sizes.map (· + 1)) (most + 1) <| by
    intro item mem
    obtain ⟨size, inSizes, rfl⟩ := List.mem_map.mp mem
    exact Nat.succ_le_succ (bounded size inSizes)
  rw [List.length_map, smul_eq_mul, Nat.mul_comm] at total
  unfold arraySize
  omega

/-- Items of at least `least` bytes. -/
theorem le_arraySize {sizes : List Nat} {least : Nat} (bounded : ∀ size ∈ sizes, least ≤ size) :
    (least + 1) * sizes.length + 1 ≤ arraySize sizes := by
  have total := List.card_nsmul_le_sum (sizes.map (· + 1)) (least + 1) <| by
    intro item mem
    obtain ⟨size, inSizes, rfl⟩ := List.mem_map.mp mem
    exact Nat.succ_le_succ (bounded size inSizes)
  rw [List.length_map, smul_eq_mul, Nat.mul_comm] at total
  unfold arraySize
  omega

/-- A number has at most `k` digits when it is below the power of ten. -/
theorem decimalSize_le_iff {n k : Nat} (positive : 0 < k) : decimalSize n ≤ k ↔ n < 10 ^ k :=
  Nat.length_toDigits_le_iff (by decide) positive

/-- A byte has at most three digits. -/
theorem byteListSize_le (data : List UInt8) : byteListSize data ≤ 4 * data.length + 2 := by
  have digits : ∀ size ∈ data.map fun byte => decimalSize byte.toNat, size ≤ 3 := by
    intro size mem
    obtain ⟨byte, _, rfl⟩ := List.mem_map.mp mem
    exact (decimalSize_le_iff (by decide)).mpr (Nat.lt_trans byte.toNat_lt (by decide))
  have bound := arraySize_le digits
  rwa [List.length_map] at bound

/-- A character takes at most six bytes. -/
theorem textSize_le (text : String) : textSize text ≤ 2 + 6 * text.length := by
  have each : ∀ size ∈ text.toList.map charSize, size ≤ 6 := by
    intro size mem
    rcases List.mem_map.mp mem with ⟨c, _, rfl⟩
    have wide := c.utf8Size_le_four
    unfold charSize
    split
    · omega
    · split <;> omega
  have bound := List.sum_le_card_nsmul _ 6 each
  rw [List.length_map, String.length_toList, smul_eq_mul] at bound
  unfold textSize
  omega

/-- A byte that is no control character has at least two digits. -/
theorem le_byteListSize {data : List UInt8} (printable : ∀ byte ∈ data, 32 ≤ byte.toNat) :
    3 * data.length + 1 ≤ byteListSize data := by
  have digits : ∀ size ∈ data.map fun byte => decimalSize byte.toNat, 2 ≤ size := by
    intro size mem
    obtain ⟨byte, inData, rfl⟩ := List.mem_map.mp mem
    have visible := printable byte inData
    apply Nat.lt_of_not_le
    rw [decimalSize_le_iff Nat.one_pos]
    omega
  have bound := le_arraySize digits
  rwa [List.length_map] at bound

/-! ### No control characters -/

/-- A text without control characters. -/
def Printable (text : List Char) : Prop := ∀ c ∈ text, 32 ≤ c.toNat

@[simp] theorem printable_nil : Printable [] := fun _ mem => absurd mem List.not_mem_nil

@[simp] theorem printable_cons {c : Char} {text : List Char} :
    Printable (c :: text) ↔ 32 ≤ c.toNat ∧ Printable text :=
  List.forall_mem_cons

@[simp] theorem printable_append {front back : List Char} :
    Printable (front ++ back) ↔ Printable front ∧ Printable back :=
  List.forall_mem_append

@[simp] theorem printable_decimal (n : Nat) : Printable (Nat.toDigits 10 n) := by
  intro c mem
  have digit := Nat.isDigit_of_mem_toDigits (by decide) (by decide) mem
  simp only [Char.isDigit, Bool.and_eq_true, decide_eq_true_eq] at digit
  exact Nat.le_trans (by decide) (UInt32.le_iff_toNat_le.mp digit.1)

private theorem printable_hexByte (byte : UInt8) : Printable (hexByte byte) := by
  have digits : ∀ n < 16, 32 ≤ (Nat.digitChar n).toNat := by decide
  have high : byte.toNat / 16 < 16 := Nat.div_lt_of_lt_mul byte.toNat_lt
  simp only [hexByte, printable_cons, printable_nil, and_true]
  exact ⟨digits _ high, digits _ (Nat.mod_lt _ (by decide))⟩

private theorem printable_escapeChar (c : Char) : Printable (escapeChar c) := by
  rcases escapeChar_cases c with ⟨_, letter, visible, _, escaped⟩ | ⟨_, _, escaped⟩ |
    ⟨_, visible, escaped⟩
  · rw [escaped]
    simp [visible]
  · rw [escaped]
    simp [printable_hexByte]
  · rw [escaped]
    simpa using visible

@[simp] theorem printable_quoted (text : String) : Printable (quoted text) := by
  have inner : Printable (text.toList.flatMap escapeChar) := by
    intro c mem
    obtain ⟨source, _, inEscape⟩ := List.mem_flatMap.mp mem
    exact printable_escapeChar source c inEscape
  simp [quoted, inner]

variable {floatText : JsonNumber → List Char}

mutual

/-- The text of a value has no control characters when those of its floating-point numbers have
none. -/
theorem printable_render (floats : ∀ n, Printable (floatText n)) :
    ∀ value : Json, Printable (value.render floatText)
  | .null => by simp [render]
  | .bool true => by simp [render]
  | .bool false => by simp [render]
  | .number (.integer (.ofNat n)) => printable_decimal n
  | .number (.integer (.negSucc n)) => by simp [render, JsonNumber.render]
  | .number (.single value) => floats _
  | .number (.double value) => floats _
  | .string value => printable_quoted value
  | .array items => by simp [render, printable_renderItems floats items]
  | .object fields => by simp [render, printable_renderFields floats fields]

theorem printable_renderItems (floats : ∀ n, Printable (floatText n)) :
    ∀ items : List Json, Printable (renderItems floatText items)
  | [] => printable_nil
  | [item] => printable_render floats item
  | item :: next :: rest => by
      simp [renderItems, printable_render floats item, printable_renderItems floats (next :: rest)]

theorem printable_renderFields (floats : ∀ n, Printable (floatText n)) :
    ∀ fields : List (String × Json), Printable (renderFields floatText fields)
  | [] => printable_nil
  | [(key, value)] => by simp [renderFields, printable_render floats value]
  | (key, value) :: next :: rest => by
      simp [renderFields, printable_render floats value,
        printable_renderFields floats (next :: rest)]

end

/-- Printable text has no bytes of control characters. -/
theorem le_of_mem_utf8 {text : List Char} (printable : Printable text) {byte : UInt8}
    (mem : byte ∈ utf8 text) : 32 ≤ byte.toNat := by
  obtain ⟨c, inText, inChar⟩ := List.mem_flatMap.mp mem
  have visible : 32 ≤ c.val.toNat := printable c inText
  have wraps : ∀ n, (UInt8.ofNat n).toNat = n % 256 := fun n => UInt8.toNat_ofNat'
  unfold String.utf8EncodeChar at inChar
  simp only at inChar
  split at inChar
  · simp only [List.mem_cons, List.not_mem_nil, or_false] at inChar
    rw [inChar, wraps]
    omega
  · split at inChar
    · simp only [List.mem_cons, List.not_mem_nil, or_false] at inChar
      rcases inChar with rfl | rfl <;> rw [wraps] <;> omega
    · split at inChar
      · simp only [List.mem_cons, List.not_mem_nil, or_false] at inChar
        rcases inChar with rfl | rfl | rfl <;> rw [wraps] <;> omega
      · simp only [List.mem_cons, List.not_mem_nil, or_false] at inChar
        rcases inChar with rfl | rfl | rfl | rfl <;> rw [wraps] <;> omega

end Json

end ModelDistribution.Foundation
