import Mathlib.Order.Lattice
import SmithyKotlin.Text.Blank

/-!
# The order of texts is the order of their bytes

`lt_iff_bytes_lt`: texts are compared character by character, and in UTF-8 that is the same as comparing them byte
by byte.  The first byte tells how many follow, longer sequences belong to larger characters, and within one length
the bits are written from the highest to the lowest (`utf8EncodeChar_append_lt`).
-/

namespace SmithyKotlin.Text

/-- The bytes of a text in UTF-8. -/
def bytes (text : String) : List UInt8 := text.toUTF8.data.toList

theorem bytes_eq_flatMap (text : String) :
    bytes text = text.toList.flatMap String.utf8EncodeChar := by
  rw [bytes, String.toUTF8_eq_toByteArray, ← String.utf8Encode_toList, List.utf8Encode,
    List.toList_data_toByteArray]

theorem cons_lt_cons_iff {a b : UInt8} {xs ys : List UInt8} :
    a :: xs < b :: ys ↔ a.toNat < b.toNat ∨ a.toNat = b.toNat ∧ xs < ys := by
  rw [List.cons_lt_cons_iff, UInt8.lt_iff_toNat_lt, UInt8.toNat_inj]

/-- The head of a sequence of several bytes. -/
theorem toNat_head {n : Nat} (h : n < 256) : (UInt8.ofNat n).toNat = n := by
  rw [UInt8.toNat_ofNat', Nat.mod_eq_of_lt h]

/-- A byte that carries six bits of a character. -/
theorem toNat_tail (n : Nat) : (UInt8.ofNat (n % 64 + 128)).toNat = n % 64 + 128 :=
  toNat_head (by omega)

/-- Of two numbers the smaller one is smaller in the first of its digits to base 64 that differ. -/
theorem digits_of_lt {m n : Nat} (h : m < n) :
    m / 262144 < n / 262144 ∨ m / 262144 = n / 262144 ∧
      (m / 4096 % 64 < n / 4096 % 64 ∨ m / 4096 = n / 4096 ∧
        (m / 64 % 64 < n / 64 % 64 ∨ m / 64 = n / 64 ∧ m % 64 < n % 64)) := by
  have h6 : m / 64 < n / 64 ∨ m / 64 = n / 64 ∧ m % 64 < n % 64 := by omega
  have h12 : m / 64 < n / 64 →
      m / 4096 < n / 4096 ∨ m / 4096 = n / 4096 ∧ m / 64 % 64 < n / 64 % 64 := by omega
  have h18 : m / 4096 < n / 4096 →
      m / 262144 < n / 262144 ∨ m / 262144 = n / 262144 ∧ m / 4096 % 64 < n / 4096 % 64 := by omega
  rcases h6 with h6 | h6
  · rcases h12 h6 with h12 | h12
    · rcases h18 h12 with h18 | h18
      · exact .inl h18
      · exact .inr ⟨h18.1, .inl h18.2⟩
    · exact .inr ⟨by omega, .inr ⟨h12.1, .inl h12.2⟩⟩
  · exact .inr ⟨by omega, .inr ⟨by omega, .inr h6⟩⟩

/-- The bytes of a smaller character come first, whatever follows. -/
theorem utf8EncodeChar_append_lt {c d : Char} (h : c < d) (xs ys : List UInt8) :
    String.utf8EncodeChar c ++ xs < String.utf8EncodeChar d ++ ys := by
  have hlt : c.val.toNat < d.val.toNat := h
  have hmax : d.val.toNat < 1114112 := by
    rcases d.valid with hd | ⟨_, hd⟩
    · omega
    · exact hd
  simp only [String.utf8EncodeChar]
  generalize c.val.toNat = m at *
  generalize d.val.toNat = n at *
  have hm : m / 262144 % 8 + 240 < 256 := by omega
  have hn : n / 262144 % 8 + 240 < 256 := by omega
  have htop : m / 262144 % 8 = m / 262144 ∧ n / 262144 % 8 = n / 262144 := by omega
  have hm' : m / 4096 % 16 + 224 < 256 := by omega
  have hn' : n / 4096 % 16 + 224 < 256 := by omega
  have hm'' : m / 64 % 32 + 192 < 256 := by omega
  have hn'' : n / 64 % 32 + 192 < 256 := by omega
  have hdigits := digits_of_lt hlt
  -- one case for each pair of lengths; the first bytes decide unless the lengths agree
  split_ifs <;> simp only [List.cons_append, cons_lt_cons_iff, toNat_tail, toNat_head hm,
    toNat_head hn, toNat_head hm', toNat_head hn', toNat_head hm'', toNat_head hn'',
    UInt8.toNat_ofNat'] <;> omega

theorem utf8EncodeChar_ne_nil (c : Char) : String.utf8EncodeChar c ≠ [] := by
  rw [← List.length_pos_iff, String.length_utf8EncodeChar]
  exact c.utf8Size_pos

theorem flatMap_lt_flatMap {xs ys : List Char} (h : xs < ys) :
    xs.flatMap String.utf8EncodeChar < ys.flatMap String.utf8EncodeChar := by
  induction xs generalizing ys with
  | nil =>
    cases ys with
    | nil => exact absurd h (List.lt_irrefl [])
    | cons d rest =>
      cases hd : String.utf8EncodeChar d with
      | nil => exact absurd hd (utf8EncodeChar_ne_nil d)
      | cons byte others =>
        rw [List.flatMap_cons, hd]
        exact List.nil_lt_cons _ _
  | cons c xs ih =>
    cases ys with
    | nil => exact absurd h (List.not_lt_nil _)
    | cons d ys =>
      rw [List.flatMap_cons, List.flatMap_cons]
      rcases List.cons_lt_cons_iff.mp h with hlt | ⟨rfl, hrest⟩
      · exact utf8EncodeChar_append_lt hlt _ _
      · exact List.append_left_lt (ih hrest)

/-- Texts are in the order of their bytes. -/
theorem lt_iff_bytes_lt {a b : String} : a < b ↔ bytes a < bytes b := by
  have hmono {x y : String} (h : x < y) : bytes x < bytes y := by
    rw [bytes_eq_flatMap, bytes_eq_flatMap]
    exact flatMap_lt_flatMap h
  constructor
  · exact hmono
  · intro h
    refine String.not_le.mp fun hle => ?_
    by_cases heq : b = a
    · rw [heq] at h
      exact absurd h (List.lt_irrefl _)
    · have hlt : b < a := String.not_le.mp fun hge => heq (String.le_antisymm hle hge)
      exact absurd (hmono hlt) (List.lt_asymm h)

end SmithyKotlin.Text
