import Mathlib.Data.Nat.Notation
import ValueEngine.Engine.Comparison

/-! Comparing texts by their bytes. The order of byte strings turns around when they are
exchanged, and only equal texts have equal bytes. -/

namespace ValueEngine

theorem compareBytes_swap (as bs : List UInt8) : compareBytes bs as = (compareBytes as bs).swap := by
  induction as generalizing bs with
  | nil => cases bs <;> rfl
  | cons a as ih =>
    cases bs with
    | nil => rfl
    | cons b bs =>
      rw [compareBytes, compareBytes, ih, Ordering.swap_then, Nat.compare_swap]

theorem compareBytes_eq_eq_iff {as bs : List UInt8} : compareBytes as bs = .eq ↔ as = bs := by
  induction as generalizing bs with
  | nil => cases bs <;> simp [compareBytes]
  | cons a as ih =>
    cases bs with
    | nil => simp [compareBytes]
    | cons b bs => simp [compareBytes, Ordering.then_eq_eq, ih, UInt8.toNat_inj]

namespace Text.Utf8

theorem loop_eq (b : ByteArray) (i : ℕ) (r : List UInt8) :
    ByteArray.toList.loop b i r = r.reverse ++ b.data.toList.drop i := by
  fun_induction ByteArray.toList.loop b i r with
  | case1 i r h ih =>
    have hi : i < b.data.toList.length := h
    have hget : b.get! i = b.data.toList[i] := by
      simp [ByteArray.get!, getElem!_pos, h]
    rw [ih, hget, List.drop_eq_getElem_cons hi, List.reverse_cons, List.append_assoc]
    rfl
  | case2 i r h =>
    rw [List.drop_of_length_le (Nat.not_lt.mp h), List.append_nil]

theorem encode_injective {s t : String} (h : encode s = encode t) : s = t := by
  have hbytes : ∀ b : ByteArray, b.toList = b.data.toList := fun b => loop_eq b 0 []
  simp only [encode, hbytes, Array.toList_inj] at h
  exact String.toByteArray_inj.mp (ByteArray.ext h)

theorem encode_inj {s t : String} : encode s = encode t ↔ s = t :=
  ⟨encode_injective, congrArg encode⟩

end Text.Utf8

end ValueEngine
