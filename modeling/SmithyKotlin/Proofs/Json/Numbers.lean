import SmithyKotlin.Proofs.Number.Reading

/-!
# Numbers of a JSON text

* `Number.Printable`: the numbers that a text can denote, integers of 64 bits and finite doubles.
* `Lexeme.number?_toText`: such a number is read back from its own text, whatever follows that does not go on with
  it (`Stops`).

That a double is the nearest one to its printed digits is a matter of `Double.ofDecimal_eq_some_iff` and
`Double.isNearest_shortest`; how digits are cut out of a text is one of `Lexeme.read_parts`.
-/

namespace SmithyKotlin

/-- A number that is denoted by a text: an integer of 64 bits, of which a negative one takes one for its sign, or a
finite double. -/
inductive Number.Printable : Number → Prop where
  | integer {n : Int} (hlow : -(twoTo 63 : Int) ≤ n) (hhigh : n < twoTo 64) : Printable (.integer n)
  | double {d : Double} (hfinite : d.IsFinite) : Printable (.double d)

namespace Lexeme

/-- A number in front of the text ends there. -/
def Stops (rest : List Char) : Prop := rest.head?.any continues = false

variable {rest : List Char}

/-! ## Reading the text of a number -/

theorem whole?_eq_some {run behind cs : List Char} (hdigits : digits cs = (run, behind)) (hne : run ≠ [])
    (hstart : run.head? = some '0' → run.length = 1) : whole? cs = some (run, behind) := by
  have hempty : run.isEmpty = false := List.isEmpty_eq_false_iff.mpr hne
  have hzero : (run.head? == some '0' && decide (1 < run.length)) = false := by
    rw [Bool.and_eq_false_iff, beq_eq_false_iff_ne, decide_eq_false_iff_not]
    by_cases hhead : run.head? = some '0'
    · exact .inr (hstart hhead).not_gt
    · exact .inl hhead
  rw [whole?]
  simp [hdigits, hempty, hzero]

theorem unsigned?_toDigits (hstops : Stops rest) (negative : Bool) (n : Nat) :
    unsigned? negative (Nat.toDigits 10 n ++ rest) = some (numberOf negative (Nat.toDigits 10 n) [] none, rest) := by
  have hdigits := digits_append (isDigit_of_mem_toDigits (n := n)) (not_isDigit (not_continuesDigits hstops))
  have hwhole := whole?_eq_some hdigits Nat.toDigits_ne_nil head?_toDigits
  have hfraction : fraction? rest = some ([], rest) :=
    fraction?_append (List.forall_mem_nil _) (not_continuesDigits hstops)
  have hexponent : exponent? rest = some (none, rest) := exponent?_append hstops none
  simp only [unsigned?, hwhole, hfraction, hexponent, Option.bind_eq_bind, Option.bind_some, Option.pure_def]

/-- The parts of a text denote the double that is nearest to their value. -/
theorem unsigned?_parts (hstops : Stops rest) {negative : Bool} {parts : Decimal.Parts} {d : Double}
    (hread : Double.ofDecimal negative parts.decimal.digits parts.decimal.exponent = some d) :
    unsigned? negative (parts.text ++ rest) = some (.number (.double d), rest) := by
  obtain ⟨behind, mark, hdigits, _, hfraction, hexponent⟩ := read_parts hstops parts
  have hwhole := whole?_eq_some hdigits parts.whole_ne_nil parts.whole_start
  have hmarked : (parts.fraction.isEmpty && parts.exponent.isNone) = false := by
    rw [Bool.and_eq_false_iff, List.isEmpty_eq_false_iff, Option.isNone_eq_false_iff, Option.isSome_iff_ne_none]
    exact parts.marked
  have hnumber : numberOf negative parts.whole parts.fraction parts.exponent = .number (.double d) := by
    rw [Decimal.Parts.decimal] at hread
    simp only [numberOf, hmarked, Bool.false_and, Bool.false_eq_true, if_false, hread]
  simp only [unsigned?, hwhole, hfraction, hexponent, hnumber, Option.bind_eq_bind, Option.bind_some, Option.pure_def]

theorem number?_of_digit {cs : List Char} (h : cs.head?.any Char.isDigit = true) :
    number? cs = unsigned? false cs := by
  unfold number?
  split
  · cases h
  · rfl

theorem number?_integerText (hstops : Stops rest) {n : Int} (hlow : -(twoTo 63 : Int) ≤ n) (hhigh : n < twoTo 64) :
    number? ((integerText n).toList ++ rest) = some (.number (.integer n), rest) := by
  by_cases hnegative : n < 0
  · have htext : (integerText n).toList ++ rest = '-' :: (Nat.toDigits 10 n.natAbs ++ rest) := by
      rw [integerText, if_pos hnegative, String.toList_append, Nat.toList_repr]
      rfl
    have hnumber : numberOf true (Nat.toDigits 10 n.natAbs) [] none = .number (.integer n) := by
      obtain ⟨m, rfl⟩ : ∃ m : Nat, n = -m := ⟨n.natAbs, by omega⟩
      have hpos : 0 < m := by omega
      have hle : m ≤ twoTo 63 := by omega
      simp [numberOf, hpos, hle]
    rw [htext, number?, unsigned?_toDigits hstops, hnumber]
  · have htext : (integerText n).toList ++ rest = Nat.toDigits 10 n.natAbs ++ rest := by
      rw [integerText, if_neg hnegative, Nat.toList_repr]
    have hnumber : numberOf false (Nat.toDigits 10 n.natAbs) [] none = .number (.integer n) := by
      obtain ⟨m, rfl⟩ : ∃ m : Nat, n = m := ⟨n.natAbs, by omega⟩
      have hlt : m < twoTo 64 := by omega
      simp [numberOf, hlt]
    rw [htext, number?_of_digit (isDigit_head?_toDigits _ _), unsigned?_toDigits hstops, hnumber]

theorem number?_doubleText (hstops : Stops rest) {d : Double} (hfinite : d.IsFinite) :
    number? (d.toText.toList ++ rest) = some (.number (.double d), rest) := by
  obtain ⟨parts, htext, hvalue⟩ := d.shortest.exists_parts Double.exponent_shortest_le
  have hread (negative : Bool) (hsign : d.negative = negative) :
      Double.ofDecimal negative parts.decimal.digits parts.decimal.exponent = some d := by
    refine Double.ofDecimal_eq_some_iff.mpr ⟨?_, hsign⟩
    show Double.IsNearest parts.decimal.value d
    exact hvalue ▸ Double.isNearest_shortest hfinite
  rw [Double.toText, String.toList_ofList, ← htext]
  cases hsign : d.negative with
  | true => exact unsigned?_parts hstops (hread true hsign)
  | false => exact (number?_of_digit (parts.isDigit_head? rest)).trans (unsigned?_parts hstops (hread false hsign))

/-- A number is read back from its text. -/
theorem number?_toText (hstops : Stops rest) {number : Number} (h : number.Printable) :
    number? (number.toText.toList ++ rest) = some (.number number, rest) := by
  cases h with
  | integer hlow hhigh => exact number?_integerText hstops hlow hhigh
  | double hfinite => exact number?_doubleText hstops hfinite

/-- The text of a number starts with a digit or a minus. -/
theorem head?_toText (number : Number) (rest : List Char) :
    (number.toText.toList ++ rest).head?.any (fun c => c.isDigit || c = '-') = true := by
  have hdigit {cs : List Char} (h : cs.head?.any Char.isDigit = true) :
      cs.head?.any (fun c => c.isDigit || c = '-') = true := by
    cases cs with
    | nil => cases h
    | cons c others => exact Bool.or_eq_true_iff.mpr (.inl h)
  cases number with
  | integer n =>
    show ((integerText n).toList ++ rest).head?.any _ = true
    rw [integerText]
    split
    · rw [String.toList_append]
      rfl
    · rw [Nat.toList_repr]
      exact hdigit (isDigit_head?_toDigits _ _)
  | double d =>
    obtain ⟨parts, htext, _⟩ := d.shortest.exists_parts Double.exponent_shortest_le
    show (d.toText.toList ++ rest).head?.any _ = true
    rw [Double.toText, String.toList_ofList, ← htext]
    cases d.negative with
    | true => rfl
    | false => exact hdigit (parts.isDigit_head? rest)

end Lexeme

end SmithyKotlin
