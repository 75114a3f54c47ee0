import Mathlib.Data.Nat.Notation
import Mathlib.Tactic.SplitIfs

/-!
# Lines of a byte stream

Texts as UTF-8 bytes, and a stream of bytes as the lines that its newlines end.
-/

namespace Lines

def utf8 (text : String) : List UInt8 := text.toByteArray.data.toList

theorem utf8_append (text text' : String) : utf8 (text ++ text') = utf8 text ++ utf8 text' := by
  unfold utf8
  rw [String.toByteArray_append, ByteArray.toList_data_append]

def ofUtf8? (bytes : List UInt8) : Option String := String.fromUTF8? ⟨bytes.toArray⟩

theorem ofUtf8?_utf8 (text : String) : ofUtf8? (utf8 text) = some text := by
  have valid : text.toByteArray.IsValidUTF8 := text.isValidUTF8
  exact dif_pos valid

/-- The byte of a newline stands for a newline only. -/
theorem newline_mem_utf8EncodeChar {c : Char} :
    (10 : UInt8) ∈ String.utf8EncodeChar c ↔ c = '\n' := by
  constructor
  · intro mem
    have code : c.val.toNat = 10 := by
      unfold String.utf8EncodeChar at mem
      dsimp only at mem
      have ten : (10 : UInt8).toNat = 10 := rfl
      split_ifs at mem with one two three <;>
        simp only [List.mem_cons, List.not_mem_nil, or_false, ← UInt8.toNat_inj,
          UInt8.toNat_ofNat', ten] at mem <;>
        omega
    exact Char.ext (UInt32.toNat_inj.1 code)
  · rintro rfl
    decide

theorem newline_mem_utf8_iff {text : String} : (10 : UInt8) ∈ utf8 text ↔ '\n' ∈ text.toList := by
  have bytes : utf8 text = text.toList.flatMap String.utf8EncodeChar := by
    have encoded : text.toByteArray = text.toList.utf8Encode := by
      rw [← String.toByteArray_ofList, String.ofList_toList]
    rw [utf8, encoded, List.utf8Encode, List.toList_data_toByteArray]
  rw [bytes, List.mem_flatMap]
  simp only [newline_mem_utf8EncodeChar, exists_eq_right]

/-- The lines of a stream; the last one need not be ended by a newline. -/
def lines (bytes : List UInt8) : List (List UInt8) :=
  let pieces := bytes.splitOn 10
  if pieces.getLast? = some [] then pieces.dropLast else pieces

theorem flatMap_newline (ls : List (List UInt8)) :
    ls.flatMap (· ++ [10]) = [10].intercalate (ls ++ [[]]) := by
  induction ls with
  | nil => rfl
  | cons l ls ih =>
    rw [List.flatMap_cons, List.cons_append, List.intercalate_cons_of_ne_nil (by simp), ih,
      List.append_assoc]

/-- A stream of lines that are ended splits into them, with nothing after the last one. -/
theorem splitOn_flatMap {ls : List (List UInt8)} (closed : ∀ l ∈ ls, 10 ∉ l) :
    (ls.flatMap (· ++ [10])).splitOn 10 = ls ++ [[]] := by
  rw [flatMap_newline, List.splitOn_intercalate]
  · intro l mem
    rcases List.mem_append.1 mem with mem | mem
    · exact closed l mem
    · rw [List.mem_singleton.1 mem]
      exact List.not_mem_nil
  · simp

theorem lines_flatMap {ls : List (List UInt8)} (closed : ∀ l ∈ ls, 10 ∉ l) :
    lines (ls.flatMap (· ++ [10])) = ls := by
  unfold lines
  rw [splitOn_flatMap closed]
  simp

end Lines
