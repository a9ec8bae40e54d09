/-
Module: ModelDistribution.Foundation.Text
Layer: Foundation
Purpose: The UTF-8 bytes of a text, and two textual number formats with their injectivity: lower-case
  hexadecimal bytes and decimal numbers padded with zeros to a minimum width. A text is read back
  from the last occurrence of a mark in it.
Imports: Mathlib.Algebra.Order.Ring.Nat
Trusted boundary: human-reviewed spec
Main exports: utf8, utf8Size, hexEncode, hexEncode_injective, paddedDecimal, paddedDecimal_injective,
  isDigit_of_mem_paddedDecimal, append_mark_inj
-/
import Mathlib.Algebra.Order.Ring.Nat

namespace ModelDistribution.Foundation

/-- The UTF-8 bytes of a text. -/
def utf8 (text : List Char) : List UInt8 := text.flatMap String.utf8EncodeChar

/-- The number of UTF-8 bytes of a text. -/
def utf8Size (text : List Char) : Nat := (text.map Char.utf8Size).sum

@[simp] theorem utf8Size_nil : utf8Size [] = 0 := rfl

@[simp] theorem utf8Size_cons (c : Char) (text : List Char) :
    utf8Size (c :: text) = c.utf8Size + utf8Size text := by
  simp [utf8Size]

@[simp] theorem utf8Size_append (front back : List Char) :
    utf8Size (front ++ back) = utf8Size front + utf8Size back := by
  simp [utf8Size]

@[simp] theorem length_utf8 (text : List Char) : (utf8 text).length = utf8Size text := by
  induction text with
  | nil => rfl
  | cons c text ih =>
      rw [utf8, List.flatMap_cons, List.length_append, String.length_utf8EncodeChar, utf8Size_cons,
        ← ih, utf8]

/-- The two hexadecimal digits of a byte. -/
def hexByte (byte : UInt8) : List Char :=
  [Nat.digitChar (byte.toNat / 16), Nat.digitChar (byte.toNat % 16)]

/-- Lower-case hexadecimal text of a byte string. -/
def hexEncode (bytes : List UInt8) : String := String.ofList (bytes.flatMap hexByte)

private theorem digitChar_inj : ∀ a < 16, ∀ b < 16, Nat.digitChar a = Nat.digitChar b → a = b := by
  decide

private theorem hexByte_inj {a b : UInt8} (h : hexByte a = hexByte b) : a = b := by
  have ha := a.toNat_lt
  have hb := b.toNat_lt
  simp only [hexByte, List.cons.injEq, and_true] at h
  have high := digitChar_inj _ (by omega) _ (by omega) h.1
  have low := digitChar_inj _ (by omega) _ (by omega) h.2
  exact UInt8.toNat_inj.mp (by omega)

private theorem flatMap_hexByte_inj : ∀ {xs ys : List UInt8},
    xs.flatMap hexByte = ys.flatMap hexByte → xs = ys
  | [], [], _ => rfl
  | [], y :: ys, h => by simp [hexByte] at h
  | x :: xs, [], h => by simp [hexByte] at h
  | x :: xs, y :: ys, h => by
      rw [List.flatMap_cons, List.flatMap_cons] at h
      obtain ⟨head, tail⟩ := List.append_inj h rfl
      rw [hexByte_inj head, flatMap_hexByte_inj tail]

/-- Different byte strings have different hexadecimal texts. -/
theorem hexEncode_injective : Function.Injective hexEncode := fun _ _ h =>
  flatMap_hexByte_inj (String.ofList_injective h)

/-- Decimal digits padded on the left with zeros to at least `width` characters. -/
def paddedDecimal (width n : Nat) : List Char :=
  List.replicate (width - (Nat.toDigits 10 n).length) '0' ++ Nat.toDigits 10 n

/-- Reading the padded digits back gives the number. -/
theorem ofDigitChars_paddedDecimal (width n : Nat) :
    Nat.ofDigitChars 10 (paddedDecimal width n) 0 = n := by
  rw [paddedDecimal, Nat.ofDigitChars_append, Nat.ofDigitChars_replicate_zero, Nat.mul_zero]
  exact Nat.ofDigitChars_ten_toDigits

theorem paddedDecimal_injective (width : Nat) : Function.Injective (paddedDecimal width) := by
  intro m n h
  have read := congrArg (fun digits => Nat.ofDigitChars 10 digits 0) h
  simpa only [ofDigitChars_paddedDecimal] using read

theorem isDigit_of_mem_paddedDecimal {width n : Nat} {c : Char} (mem : c ∈ paddedDecimal width n) :
    c.isDigit := by
  rcases List.mem_append.mp mem with zero | digit
  · rw [List.eq_of_mem_replicate zero]
    rfl
  · exact Nat.isDigit_of_mem_toDigits (by decide) (by decide) digit

/-- A text with a mark in it is read back from its end: what stands behind the last mark is
determined, and so is what stands in front of it. -/
theorem append_mark_inj {α : Type} {mark : α} {front front' back back' : List α}
    (last : mark ∉ back) (last' : mark ∉ back')
    (same : front ++ mark :: back = front' ++ mark :: back') : front = front' ∧ back = back' := by
  have noEarlier : ∀ {back back' between : List α}, mark ∉ back →
      mark :: back = between ++ mark :: back' → between = [] ∧ back = back' := by
    intro back back' between last split
    cases between with
    | nil => exact ⟨rfl, List.tail_eq_of_cons_eq split⟩
    | cons first between =>
        have inside := List.tail_eq_of_cons_eq split
        exact absurd (by simp [inside]) last
  rcases List.append_eq_append_iff.mp same with ⟨between, longer, split⟩ | ⟨between, longer, split⟩
  · obtain ⟨rfl, sameBack⟩ := noEarlier last split
    rw [List.append_nil] at longer
    exact ⟨longer.symm, sameBack⟩
  · obtain ⟨rfl, sameBack⟩ := noEarlier last' split
    rw [List.append_nil] at longer
    exact ⟨longer, sameBack.symm⟩

end ModelDistribution.Foundation
