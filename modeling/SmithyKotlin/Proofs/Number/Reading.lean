import SmithyKotlin.Json.Lexeme
import SmithyKotlin.Number.Text
import SmithyKotlin.Proofs.Number.Shortest
import SmithyKotlin.Proofs.Text.Pieces

/-!
# The text of a number, read again

* `Decimal.Parts`: the digits in front of a point, the digits behind it and an exponent, of which the point or the
  exponent may be missing but not both.
* `Decimal.exists_parts`: the text of a decimal is one of such parts, and they have its value.
* `Lexeme.read_parts`: a reader that takes the longest run of digits each time finds these parts, whatever follows
  them that cannot go on with a number (`Lexeme.continues`).

Both the reader of documents and the one of Kotlin literals are instances of that.
-/

namespace SmithyKotlin

/-! ## Digits -/

namespace Lexeme

theorem digits_append {run rest : List Char} (hrun : ∀ c ∈ run, c.isDigit = true)
    (hrest : rest.head?.any Char.isDigit = false) : digits (run ++ rest) = (run, rest) := by
  obtain ⟨htake, hdrop⟩ := Text.takeWhile_append_of_head? hrun hrest
  rw [digits, htake, hdrop]

theorem digitValue_append (front back : List Char) :
    digitValue (front ++ back) = 10 ^ back.length * digitValue front + digitValue back := by
  show Nat.ofDigitChars 10 (front ++ back) 0 = _
  rw [Nat.ofDigitChars_append, Nat.ofDigitChars_eq_ofDigitChars_zero]
  rfl

@[simp] theorem digitValue_toDigits (n : Nat) : digitValue (Nat.toDigits 10 n) = n :=
  Nat.ofDigitChars_toDigits (by decide) (by decide)

@[simp] theorem digitValue_zeros (n : Nat) : digitValue (List.replicate n '0') = 0 :=
  Nat.ofDigitChars_replicate_zero

end Lexeme

theorem isDigit_of_mem_toDigits {n : Nat} : ∀ c ∈ Nat.toDigits 10 n, c.isDigit = true :=
  fun _ => Nat.isDigit_of_mem_toDigits (by decide) (by decide)

theorem isDigit_of_mem_zeros {n : Nat} : ∀ c ∈ List.replicate n '0', c.isDigit = true := by
  intro c hc
  rw [List.eq_of_mem_replicate hc]
  rfl

theorem isDigit_zero : ∀ c ∈ ['0'], c.isDigit = true := List.forall_mem_singleton.mpr rfl

/-- The digits of a number start with a zero only if it is zero. -/
theorem eq_zero_of_head?_toDigits {n : Nat} (h : (Nat.toDigits 10 n).head? = some '0') : n = 0 := by
  induction n using Nat.strong_induction_on with
  | h n ih =>
    rw [Nat.toDigits_eq_if (by decide)] at h
    split at h
    · rename_i hsmall
      have hdigit : ∀ m < 10, [Nat.digitChar m].head? = some '0' → m = 0 := by decide
      exact hdigit n hsmall h
    · rename_i hlarge
      rw [List.head?_append_of_ne_nil _ Nat.toDigits_ne_nil] at h
      -- the first digit is that of a tenth, which is not zero
      have htenth := ih (n / 10) (by omega) h
      omega

theorem head?_toDigits {n : Nat} (h : (Nat.toDigits 10 n).head? = some '0') : (Nat.toDigits 10 n).length = 1 := by
  rw [eq_zero_of_head?_toDigits h]
  rfl

theorem isDigit_head?_toDigits (n : Nat) (rest : List Char) :
    (Nat.toDigits 10 n ++ rest).head?.any Char.isDigit = true := by
  have hdigits := isDigit_of_mem_toDigits (n := n)
  have hne : Nat.toDigits 10 n ≠ [] := Nat.toDigits_ne_nil
  cases hlist : Nat.toDigits 10 n with
  | nil => exact absurd hlist hne
  | cons c others =>
    rw [hlist] at hdigits
    exact hdigits c List.mem_cons_self

/-! ## The parts of a text -/

namespace Decimal

/-- The digits behind a point, and the point unless there are none. -/
def pointText (fraction : List Char) : List Char := if fraction.isEmpty then [] else '.' :: fraction

/-- The exponent with its mark and a sign. -/
def exponentText : Option Int → List Char
  | none => []
  | some n => 'e' :: (if n < 0 then '-' else '+') :: Nat.toDigits 10 n.natAbs

/-- A text with a point or an exponent, in its parts. -/
structure Parts where
  whole : List Char
  fraction : List Char
  exponent : Option Int
  whole_ne_nil : whole ≠ []
  whole_digits : ∀ c ∈ whole, c.isDigit = true
  /-- A zero stands alone in front of the point. -/
  whole_start : whole.head? = some '0' → whole.length = 1
  fraction_digits : ∀ c ∈ fraction, c.isDigit = true
  marked : fraction ≠ [] ∨ exponent ≠ none

namespace Parts

def text (parts : Parts) : List Char :=
  parts.whole ++ (pointText parts.fraction ++ exponentText parts.exponent)

def decimal (parts : Parts) : Decimal :=
  ⟨Lexeme.digitValue (parts.whole ++ parts.fraction), parts.exponent.getD 0 - parts.fraction.length⟩

theorem isDigit_head? (parts : Parts) (rest : List Char) : (parts.text ++ rest).head?.any Char.isDigit = true := by
  have hdigits := parts.whole_digits
  rw [text, List.append_assoc]
  cases hlist : parts.whole with
  | nil => exact absurd hlist parts.whole_ne_nil
  | cons c others =>
    rw [hlist] at hdigits
    exact hdigits c List.mem_cons_self

end Parts

section Parts

variable (d : Decimal)

/-- Without digits behind the point a zero stands there. -/
theorem exists_parts_of_nonneg (hzero : d.digits = 0 → d.exponent ≤ 0) (h : 0 ≤ d.exponent) :
    ∃ parts : Parts, parts.text = d.positional ∧ parts.decimal.value = d.value := by
  obtain ⟨n, hn⟩ := Int.eq_ofNat_of_zero_le h
  have hne : Nat.toDigits 10 d.digits ++ List.replicate n '0' ≠ [] :=
    List.append_ne_nil_of_left_ne_nil Nat.toDigits_ne_nil _
  have hwhole : ∀ c ∈ Nat.toDigits 10 d.digits ++ List.replicate n '0', c.isDigit = true :=
    List.forall_mem_append.mpr ⟨isDigit_of_mem_toDigits, isDigit_of_mem_zeros⟩
  have hstart : (Nat.toDigits 10 d.digits ++ List.replicate n '0').head? = some '0' →
      (Nat.toDigits 10 d.digits ++ List.replicate n '0').length = 1 := by
    intro hhead
    rw [List.head?_append_of_ne_nil _ Nat.toDigits_ne_nil] at hhead
    have hdigits := eq_zero_of_head?_toDigits hhead
    have hn0 : n = 0 := by
      have hexponent := hzero hdigits
      omega
    rw [hdigits, hn0]
    rfl
  have hvalue : Lexeme.digitValue (Nat.toDigits 10 d.digits ++ List.replicate n '0' ++ ['0']) =
      10 * (10 ^ n * d.digits) := by
    rw [Lexeme.digitValue_append, Lexeme.digitValue_append, List.length_replicate, Lexeme.digitValue_toDigits,
      Lexeme.digitValue_zeros]
    rfl
  refine ⟨⟨_, ['0'], none, hne, hwhole, hstart, isDigit_zero, by decide⟩, ?_, ?_⟩
  · rw [positional, if_pos h, hn]
    rfl
  · rw [Parts.decimal, value, value, hvalue, hn, zpow_natCast]
    show ((10 * (10 ^ n * d.digits) : Nat) : ℚ) * 10 ^ (-1 : Int) = d.digits * 10 ^ n
    push_cast
    rw [zpow_neg_one]
    ring

/-- With fewer places than digits the point stands between the digits. -/
theorem exists_parts_of_lt {n : Nat} (hn : d.exponent = -(n + 1 : Nat))
    (h : n + 1 < (Nat.toDigits 10 d.digits).length) :
    ∃ parts : Parts, parts.text = d.positional ∧ parts.decimal = d := by
  have hdigits := isDigit_of_mem_toDigits (n := d.digits)
  have hstart := head?_toDigits (n := d.digits)
  have hvalue := Lexeme.digitValue_toDigits d.digits
  have hpositional : d.positional =
      (Nat.toDigits 10 d.digits).take ((Nat.toDigits 10 d.digits).length - (n + 1)) ++
        '.' :: (Nat.toDigits 10 d.digits).drop ((Nat.toDigits 10 d.digits).length - (n + 1)) := by
    have hnegative : ¬ 0 ≤ d.exponent := by omega
    rw [positional, if_neg hnegative, hn, neg_neg, Int.toNat_natCast]
    exact if_pos h
  generalize Nat.toDigits 10 d.digits = digits at *
  have hfront : digits.take (digits.length - (n + 1)) ≠ [] := by
    rw [ne_eq, List.take_eq_nil_iff, not_or]
    exact ⟨by omega, List.ne_nil_of_length_pos (by omega)⟩
  have hlength : (digits.drop (digits.length - (n + 1))).length = n + 1 := by
    rw [List.length_drop]
    omega
  have hback : digits.drop (digits.length - (n + 1)) ≠ [] :=
    List.ne_nil_of_length_eq_add_one hlength
  -- more than one digit does not start with a zero
  have hfirst : (digits.take (digits.length - (n + 1))).head? ≠ some '0' := by
    intro hhead
    rw [List.head?_take, if_neg (by omega)] at hhead
    have hone := hstart hhead
    omega
  refine ⟨⟨_, _, none, hfront, fun c hc => hdigits c (List.mem_of_mem_take hc), fun hhead => absurd hhead hfirst,
    fun c hc => hdigits c (List.mem_of_mem_drop hc), .inl hback⟩, ?_, ?_⟩
  · rw [hpositional, Parts.text, pointText, if_neg (mt List.isEmpty_iff.mp hback), exponentText, List.append_nil]
  · rw [Parts.decimal, List.take_append_drop, hvalue, hlength, Option.getD_none, zero_sub, ← hn]

/-- Otherwise zeros stand in front of the digits. -/
theorem exists_parts_of_le {n : Nat} (hn : d.exponent = -(n + 1 : Nat))
    (h : (Nat.toDigits 10 d.digits).length ≤ n + 1) :
    ∃ parts : Parts, parts.text = d.positional ∧ parts.decimal = d := by
  have hdigits := isDigit_of_mem_toDigits (n := d.digits)
  have hback : List.replicate (n + 1 - (Nat.toDigits 10 d.digits).length) '0' ++ Nat.toDigits 10 d.digits ≠ [] :=
    List.append_ne_nil_of_right_ne_nil _ Nat.toDigits_ne_nil
  have hlength : (List.replicate (n + 1 - (Nat.toDigits 10 d.digits).length) '0' ++
      Nat.toDigits 10 d.digits).length = n + 1 := by
    rw [List.length_append, List.length_replicate]
    omega
  refine ⟨⟨['0'], _, none, by decide, isDigit_zero, fun _ => rfl,
    List.forall_mem_append.mpr ⟨isDigit_of_mem_zeros, hdigits⟩, .inl hback⟩, ?_, ?_⟩
  · have hnegative : ¬ 0 ≤ d.exponent := by omega
    have hless : ¬ n + 1 < (Nat.toDigits 10 d.digits).length := by omega
    rw [Parts.text, pointText, if_neg (mt List.isEmpty_iff.mp hback), exponentText, List.append_nil, positional,
      if_neg hnegative, hn, neg_neg, Int.toNat_natCast]
    exact (if_neg hless).symm
  · have hvalue : Lexeme.digitValue (['0'] ++
        (List.replicate (n + 1 - (Nat.toDigits 10 d.digits).length) '0' ++ Nat.toDigits 10 d.digits)) = d.digits := by
      rw [Lexeme.digitValue_append, Lexeme.digitValue_append, Lexeme.digitValue_zeros, Lexeme.digitValue_toDigits]
      simp [Lexeme.digitValue]
    rw [Parts.decimal, hvalue, hlength, Option.getD_none, zero_sub, ← hn]

/-- In scientific text the power of ten of the first digit is the exponent. -/
theorem exists_parts_scientific : ∃ parts : Parts, parts.text = d.scientific ∧ parts.decimal = d := by
  have hdigits := isDigit_of_mem_toDigits (n := d.digits)
  have hvalue := Lexeme.digitValue_toDigits d.digits
  have hne : Nat.toDigits 10 d.digits ≠ [] := Nat.toDigits_ne_nil
  have horder : d.order = (Nat.toDigits 10 d.digits).length + d.exponent - 1 := rfl
  rw [scientific]
  generalize Nat.toDigits 10 d.digits = digits at *
  have hfirst : digits.take 1 ≠ [] := by
    rw [ne_eq, List.take_eq_nil_iff, not_or]
    exact ⟨one_ne_zero, hne⟩
  have hpos : 0 < digits.length := List.length_pos_iff.mpr hne
  refine ⟨⟨_, digits.drop 1, some d.order, hfirst, fun c hc => hdigits c (List.mem_of_mem_take hc),
    fun _ => List.length_take_of_le hpos, fun c hc => hdigits c (List.mem_of_mem_drop hc),
    .inr (Option.some_ne_none _)⟩, ?_, ?_⟩
  · rw [Parts.text, pointText, exponentText, List.append_assoc]
  · have hexponent : d.order - (digits.drop 1).length = d.exponent := by
      rw [List.length_drop]
      omega
    rw [Parts.decimal, List.take_append_drop, hvalue, Option.getD_some, hexponent]

/-- Every text of a decimal is that of parts with its value. -/
theorem exists_parts (hzero : d.digits = 0 → d.exponent ≤ 0) :
    ∃ parts : Parts, parts.text = d.toText ∧ parts.decimal.value = d.value := by
  have hvalue {text : List Char} (h : ∃ parts : Parts, parts.text = text ∧ parts.decimal = d) :
      ∃ parts : Parts, parts.text = text ∧ parts.decimal.value = d.value := by
    obtain ⟨parts, htext, hdecimal⟩ := h
    exact ⟨parts, htext, congrArg value hdecimal⟩
  rw [toText]
  split
  · by_cases hexponent : 0 ≤ d.exponent
    · exact d.exists_parts_of_nonneg hzero hexponent
    · obtain ⟨n, hn⟩ : ∃ n : Nat, d.exponent = -(n + 1 : Nat) := ⟨(-d.exponent).toNat - 1, by omega⟩
      rcases lt_or_ge (n + 1) (Nat.toDigits 10 d.digits).length with hless | hle
      · exact hvalue (d.exists_parts_of_lt hn hless)
      · exact hvalue (d.exists_parts_of_le hn hle)
  · exact hvalue d.exists_parts_scientific

example : toText ⟨125, -9⟩ = "1.25e-7".toList := by decide +kernel

end Parts

end Decimal

/-! ## Reading -/

namespace Lexeme

/-- A character with which the digits of a number could go on. -/
def continuesDigits (c : Char) : Bool := c.isDigit || c = '.'

/-- A character with which a number could go on. -/
def continues (c : Char) : Bool := continuesDigits c || c = 'e' || c = 'E'

variable {rest : List Char}

theorem not_continuesDigits (h : rest.head?.any continues = false) : rest.head?.any continuesDigits = false := by
  cases rest with
  | nil => rfl
  | cons c others => exact (Bool.or_eq_false_iff.mp (Bool.or_eq_false_iff.mp h).1).1

theorem not_isDigit (h : rest.head?.any continuesDigits = false) : rest.head?.any Char.isDigit = false := by
  cases rest with
  | nil => rfl
  | cons c others => exact (Bool.or_eq_false_iff.mp h).1

theorem exponent?_append (h : rest.head?.any continues = false) (exponent : Option Int) :
    exponent? (Decimal.exponentText exponent ++ rest) = some (exponent, rest) := by
  cases exponent with
  | none =>
    cases rest with
    | nil => rfl
    | cons c others =>
      have hc : continues c = false := h
      simp only [continues, Bool.or_eq_false_iff, decide_eq_false_iff_not] at hc
      have hmark : ¬ (c = 'e' || c = 'E') = true := by
        simp [hc.1.2, hc.2]
      show (if (c = 'e' || c = 'E') then _ else some (none, c :: others)) = _
      rw [if_neg hmark]
  | some n =>
    have hdigits := digits_append (isDigit_of_mem_toDigits (n := n.natAbs)) (not_isDigit (not_continuesDigits h))
    have hsigned : signed ((if n < 0 then '-' else '+') :: (Nat.toDigits 10 n.natAbs ++ rest)) =
        (decide (n < 0), Nat.toDigits 10 n.natAbs ++ rest) := by
      by_cases hn : n < 0
      · simp only [hn, if_true, decide_true, signed]
      · simp only [hn, if_false, decide_false, signed]
    have hempty : (Nat.toDigits 10 n.natAbs).isEmpty = false := List.isEmpty_eq_false_iff.mpr Nat.toDigits_ne_nil
    have hvalue : (if decide (n < 0) = true then -(n.natAbs : Int) else n.natAbs) = n := by
      by_cases hn : n < 0
      · rw [if_pos (decide_eq_true hn)]
        omega
      · rw [if_neg (mt of_decide_eq_true hn)]
        omega
    rw [Decimal.exponentText, List.cons_append, List.cons_append, exponent?]
    simp only [hsigned, hdigits, hempty, digitValue_toDigits, hvalue, decide_true, Bool.true_or, if_true,
      Bool.false_eq_true, if_false]

theorem fraction?_append {fraction : List Char} (hfraction : ∀ c ∈ fraction, c.isDigit = true)
    (h : rest.head?.any continuesDigits = false) :
    fraction? (Decimal.pointText fraction ++ rest) = some (fraction, rest) := by
  rw [Decimal.pointText]
  split
  · rename_i hempty
    rw [List.isEmpty_iff.mp hempty, List.nil_append]
    cases rest with
    | nil => rfl
    | cons c others =>
      have hpoint : c ≠ '.' := by
        rintro rfl
        exact Bool.noConfusion h
      unfold fraction?
      split
      · rename_i heq
        exact absurd (List.cons.inj heq).1 hpoint
      · rfl
  · rename_i hempty
    rw [List.cons_append, fraction?, digits_append hfraction (not_isDigit h), if_neg hempty]

/-- A text with a point or an exponent is cut into its parts again. -/
theorem read_parts (h : rest.head?.any continues = false) (parts : Decimal.Parts) :
    ∃ behind mark, digits (parts.text ++ rest) = (parts.whole, behind) ∧
      (behind.head? = some '.' ∨ behind.head? = some 'e') ∧
      fraction? behind = some (parts.fraction, mark) ∧ exponent? mark = some (parts.exponent, rest) := by
  have hmark : (Decimal.exponentText parts.exponent ++ rest).head?.any continuesDigits = false := by
    cases parts.exponent with
    | none => exact not_continuesDigits h
    | some n => rfl
  have hbehind : (Decimal.pointText parts.fraction ++ (Decimal.exponentText parts.exponent ++ rest)).head?.any
      Char.isDigit = false := by
    cases parts.fraction with
    | nil => exact not_isDigit hmark
    | cons c others => rfl
  refine ⟨_, _, ?_, ?_, fraction?_append parts.fraction_digits hmark, exponent?_append h _⟩
  · rw [Decimal.Parts.text, List.append_assoc, List.append_assoc, digits_append parts.whole_digits hbehind]
  · rcases parts.marked with hfraction | hexponent
    · rw [Decimal.pointText, if_neg (mt List.isEmpty_iff.mp hfraction)]
      exact .inl rfl
    · obtain ⟨n, hn⟩ := Option.ne_none_iff_exists'.mp hexponent
      rw [hn, Decimal.pointText]
      split
      · exact .inr rfl
      · exact .inl rfl

end Lexeme

end SmithyKotlin
