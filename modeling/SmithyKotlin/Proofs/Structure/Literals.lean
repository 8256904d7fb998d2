import SmithyKotlin.Naming
import SmithyKotlin.Proofs.Number.Reading
import SmithyKotlin.Proofs.Symbol.TypeName
import SmithyKotlin.Structure.Default

/-!
# Literals of Kotlin

* `Kotlin.expression?`: how Kotlin reads an expression that is a literal, a number with a minus sign in front of it,
  or the call that gives an empty collection.  The digits of a literal are read without the sign, so that the
  literal has to be a number of the type `Long` itself.
* `Kotlin.Denotes`, `Kotlin.Means`: what such an expression is in a type.
* `Kotlin.read_stringLiteral`, `Kotlin.read_integerText`, `Kotlin.read_doubleText`: what stands for a default is
  read back.

Other expressions of Kotlin are not read; none stands for a default.
-/

namespace SmithyKotlin

namespace Kotlin

/-! ## The expressions -/

inductive Literal where
  | truth (value : Bool)
  /-- Digits, with the suffix of long numbers or without. -/
  | whole (value : Nat) (long : Bool)
  /-- A number with a point or an exponent. -/
  | decimal (value : Decimal)
  | text (value : List Char)
  | emptyList
  | emptyMap
  deriving DecidableEq

/-- The character behind a backslash. -/
def escaped? (c : Char) : Option Char :=
  if c = '"' || c = '\\' || c = '$' then some c
  else if c = 'n' then some '\n'
  else if c = 'r' then some '\r'
  else if c = 't' then some '\t'
  else none

/-- The characters up to a quote that ends the text.  A dollar without a backslash would start a template. -/
def text? : List Char → Option (List Char)
  | [] => none
  | ['"'] => some []
  | '\\' :: c :: rest => (escaped? c).bind fun found => (text? rest).map (found :: ·)
  | c :: rest =>
    if c = '"' || c = '\\' || c = '$' || c = '\n' || c = '\r' then none else (text? rest).map (c :: ·)

/-- Whole numbers have no zero in front of other digits. -/
def whole? (digits : List Char) (long : Bool) : Option Literal :=
  if digits.head? = some '0' ∧ digits.length ≠ 1 then none else some (.whole (Lexeme.digitValue digits) long)

/-- The number that the whole text is. -/
def number? (cs : List Char) : Option Literal :=
  let run := Lexeme.digits cs
  if run.1.isEmpty then none
  else if run.2 = [] then whole? run.1 false
  else if run.2 = ['L'] then whole? run.1 true
  else do
    let fraction ← Lexeme.fraction? run.2
    let exponent ← Lexeme.exponent? fraction.2
    if exponent.2.isEmpty then
      some (.decimal ⟨Lexeme.digitValue (run.1 ++ fraction.1), exponent.1.getD 0 - fraction.1.length⟩)
    else none

/-- Words and calls that are literals as a whole. -/
def keywords : List (String × Literal) :=
  [("true", .truth true), ("false", .truth false), ("emptyList()", .emptyList), ("emptyMap()", .emptyMap)]

def literal? : List Char → Option Literal
  | '"' :: rest => (text? rest).map .text
  | cs => ((keywords.find? fun keyword => keyword.1.toList = cs).map (·.2)).or (number? cs)

/-- A literal, and whether a minus sign stands in front of it, which only a number may have. -/
def expression? : List Char → Option (Bool × Literal)
  | '-' :: rest => (number? rest).map (true, ·)
  | cs => (literal? cs).map (false, ·)

/-! ## What they are -/

/-- The value of an expression. -/
inductive Constant where
  | truth (value : Bool)
  | integer (value : Int)
  | double (value : Double)
  | text (value : String)
  | emptyList
  | emptyMap
  deriving DecidableEq

/-- The types of integers with their bits. -/
def integerTypes : List (TypeName × Nat) :=
  [(⟨"kotlin", "Byte"⟩, 8), (⟨"kotlin", "Short"⟩, 16), (⟨"kotlin", "Int"⟩, 32), (⟨"kotlin", "Long"⟩, 64)]

/-- The range of the signed integers with the given bits. -/
def InRange (bits : Nat) (n : Int) : Prop := -2 ^ (bits - 1) ≤ n ∧ n < 2 ^ (bits - 1)

/-- The greatest number that digits can be, which is that of the type `Long`. -/
def greatestWhole : Nat := 9223372036854775807

def signed (negative : Bool) (n : Nat) : Int := if negative then -n else n

/-- What a literal is in a type, where a minus sign stands in front of it or not. -/
inductive Literal.Gives (type : TypeName) (negative : Bool) : Literal → Constant → Prop
  | truth (htype : type = ⟨"kotlin", "Boolean"⟩) (hsign : negative = false) (value : Bool) :
      Gives type negative (.truth value) (.truth value)
  | integer {bits n : Nat} {long : Bool} (htype : (type, bits) ∈ integerTypes) (hlong : long = true → bits = 64)
      (hwhole : n ≤ greatestWhole) (hrange : InRange bits (signed negative n)) :
      Gives type negative (.whole n long) (.integer (signed negative n))
  | double {value : Decimal} {d : Double} (htype : type = ⟨"kotlin", "Double"⟩) (hsign : d.negative = negative)
      (hnearest : d.IsNearest value.value) : Gives type negative (.decimal value) (.double d)
  | text (htype : type = ⟨"kotlin", "String"⟩) (hsign : negative = false) (value : List Char) :
      Gives type negative (.text value) (.text (String.ofList value))
  | emptyList (htype : type = ⟨"kotlin.collections", "List"⟩) (hsign : negative = false) :
      Gives type negative .emptyList .emptyList
  | emptyMap (htype : type = ⟨"kotlin.collections", "Map"⟩) (hsign : negative = false) :
      Gives type negative .emptyMap .emptyMap

/-- The text is an expression of the type with the given value. -/
def Denotes (type : TypeName) (text : String) (constant : Constant) : Prop :=
  ∃ negative literal, expression? text.toList = some (negative, literal) ∧ literal.Gives type negative constant

/-- The text is an expression of the type, and its value is the given one and no other. -/
def Means (type : TypeName) (text : String) (constant : Constant) : Prop :=
  ∀ other, Denotes type text other ↔ other = constant

theorem Literal.Gives.unique {literal : Literal} {type : TypeName} {negative : Bool} {a b : Constant}
    (ha : literal.Gives type negative a) (hb : literal.Gives type negative b) : a = b := by
  cases ha with
  | truth | integer | text | emptyList | emptyMap =>
    cases hb
    rfl
  | double _ hsign hnearest =>
    cases hb with
    | double _ hsign' hnearest' => rw [hnearest.unique hnearest' (hsign.trans hsign'.symm)]

section Means

variable {type : TypeName} {text : String} {negative : Bool} {literal : Literal}

theorem means_of_gives {constant : Constant} (hread : expression? text.toList = some (negative, literal))
    (hgives : literal.Gives type negative constant) : Means type text constant := by
  intro other
  constructor
  · intro h
    obtain ⟨negative', literal', hread', hgives'⟩ := h
    rw [hread, Option.some.injEq, Prod.mk.injEq] at hread'
    obtain ⟨rfl, rfl⟩ := hread'
    exact hgives'.unique hgives
  · rintro rfl
    exact ⟨negative, literal, hread, hgives⟩

theorem not_denotes_of_not_gives (hread : expression? text.toList = some (negative, literal))
    (hgives : ∀ constant, ¬ literal.Gives type negative constant) (constant : Constant) :
    ¬ Denotes type text constant := by
  intro h
  obtain ⟨negative', literal', hread', hgives'⟩ := h
  rw [hread, Option.some.injEq, Prod.mk.injEq] at hread'
  obtain ⟨rfl, rfl⟩ := hread'
  exact hgives constant hgives'

theorem not_denotes_of_not_read (hread : expression? text.toList = none) (constant : Constant) :
    ¬ Denotes type text constant := by
  intro h
  obtain ⟨negative, literal, hread', _⟩ := h
  rw [hread] at hread'
  cases hread'

end Means

/-! ## Texts are read back -/

theorem text?_escapeChar (c : Char) (rest : List Char) :
    text? (Naming.escapeChar c ++ rest) = (text? rest).map (c :: ·) := by
  rw [Naming.escapeChar]
  split_ifs with hquote hbackslash hdollar hnewline hreturn htab
  · rw [hquote]
    rfl
  · rw [hbackslash]
    rfl
  · rw [hdollar]
    rfl
  · rw [hnewline]
    rfl
  · rw [hreturn]
    rfl
  · rw [htab]
    rfl
  · have hplain : (c = '"' || c = '\\' || c = '$' || c = '\n' || c = '\r') = false := by
      simp [hquote, hbackslash, hdollar, hnewline, hreturn]
    show text? (c :: rest) = _
    rw [text?.eq_4 c rest (fun h _ => hquote h) (fun _ _ h _ => hbackslash h), hplain, if_neg Bool.false_ne_true]

theorem text?_flatMap (cs : List Char) : text? (cs.flatMap Naming.escapeChar ++ ['"']) = some cs := by
  induction cs with
  | nil => rfl
  | cons c rest ih => rw [List.flatMap_cons, List.append_assoc, text?_escapeChar, ih, Option.map_some]

theorem read_stringLiteral (text : String) :
    expression? (Naming.stringLiteral text).toList = some (false, .text text.toList) := by
  rw [Naming.stringLiteral, String.toList_ofList, List.cons_append]
  show ((text? (text.toList.flatMap Naming.escapeChar ++ ['"'])).map Literal.text).map (false, ·) = _
  rw [text?_flatMap]
  rfl

/-! ## Numbers are read back -/

def sign (negative : Bool) : List Char := if negative then ['-'] else []

/-- What starts with a digit is a number. -/
theorem read_sign (negative : Bool) {cs : List Char} (hdigit : cs.head?.any Char.isDigit = true) :
    expression? (sign negative ++ cs) = (number? cs).map (negative, ·) := by
  cases negative with
  | true => rfl
  | false =>
    cases cs with
    | nil => cases hdigit
    | cons c rest =>
      have hc : c.isDigit = true := hdigit
      have hminus : c ≠ '-' := by
        rintro rfl
        cases hc
      have hquote : c ≠ '"' := by
        rintro rfl
        cases hc
      have hkeyword : keywords.find? (fun keyword => keyword.1.toList = c :: rest) = none := by
        have hheads : ∀ keyword ∈ keywords, keyword.1.toList.head?.any Char.isDigit = false := by
          decide
        refine List.find?_eq_none.mpr fun keyword hmem heq => ?_
        have hhead := hheads keyword hmem
        rw [of_decide_eq_true heq] at hhead
        exact Bool.noConfusion (hhead.symm.trans hc)
      show expression? (c :: rest) = _
      rw [expression?.eq_2 _ (fun _ h => hminus (List.cons.inj h).1),
        literal?.eq_2 _ (fun _ h => hquote (List.cons.inj h).1), hkeyword]
      rfl

/-- The suffix of long numbers. -/
def suffix (long : Bool) : List Char := if long then ['L'] else []

theorem number?_toDigits (n : Nat) (long : Bool) :
    number? (Nat.toDigits 10 n ++ suffix long) = some (.whole n long) := by
  have hends : (suffix long).head?.any Char.isDigit = false := by
    cases long <;> rfl
  have hempty : (Nat.toDigits 10 n).isEmpty = false := List.isEmpty_eq_false_iff.mpr Nat.toDigits_ne_nil
  have hzero : ¬ ((Nat.toDigits 10 n).head? = some '0' ∧ (Nat.toDigits 10 n).length ≠ 1) :=
    fun h => h.2 (head?_toDigits h.1)
  have hwhole : whole? (Nat.toDigits 10 n) long = some (.whole n long) := by
    rw [whole?, if_neg hzero, Lexeme.digitValue_toDigits]
  rw [number?, Lexeme.digits_append isDigit_of_mem_toDigits hends, hempty]
  cases long <;> exact hwhole

/-- A number with a point or an exponent is read as its parts say, and has no suffix. -/
theorem number?_parts (parts : Decimal.Parts) (long : Bool) :
    number? (parts.text ++ suffix long) = if long then none else some (.decimal parts.decimal) := by
  have hends : (suffix long).head?.any Lexeme.continues = false := by
    cases long <;> rfl
  obtain ⟨behind, mark, hdigits, hbehind, hfraction, hexponent⟩ := Lexeme.read_parts hends parts
  have hempty : parts.whole.isEmpty = false := List.isEmpty_eq_false_iff.mpr parts.whole_ne_nil
  have hnil : behind ≠ [] := by
    rintro rfl
    rcases hbehind with h | h <;> cases h
  have hlong : behind ≠ ['L'] := by
    rintro rfl
    rcases hbehind with h | h <;> exact absurd h (by decide)
  rw [number?, hdigits]
  simp only [hempty, hnil, hlong, hfraction, hexponent, Bool.false_eq_true, if_false, Option.bind_eq_bind,
    Option.bind_some]
  cases long <;> rfl

theorem toList_integerText (n : Int) :
    (integerText n).toList = sign (decide (n < 0)) ++ Nat.toDigits 10 n.natAbs := by
  rw [integerText, sign]
  by_cases h : n < 0
  · rw [if_pos h, if_pos (decide_eq_true h), String.toList_append, Nat.toList_repr]
    rfl
  · rw [if_neg h, if_neg (mt of_decide_eq_true h), Nat.toList_repr]
    rfl

theorem signed_natAbs (n : Int) : signed (decide (n < 0)) n.natAbs = n := by
  rw [signed]
  split
  · rename_i h
    have hneg := of_decide_eq_true h
    omega
  · rename_i h
    have hnonneg := mt decide_eq_true h
    omega

/-- A whole number is read back, with the suffix of long numbers or without. -/
theorem read_integerText (n : Int) (long : Bool) :
    expression? ((integerText n).toList ++ suffix long) = some (decide (n < 0), .whole n.natAbs long) := by
  rw [toList_integerText, List.append_assoc, read_sign _ (isDigit_head?_toDigits _ _), number?_toDigits]
  rfl

/-- A whole number with a zero behind the point is read back. -/
theorem read_integerText_point (n : Int) : ∃ decimal : Decimal, decimal.value = n.natAbs ∧
    expression? ((integerText n).toList ++ ['.', '0']) = some (decide (n < 0), .decimal decimal) := by
  obtain ⟨parts, htext, hvalue⟩ := Decimal.exists_parts_of_nonneg ⟨n.natAbs, 0⟩ (fun _ => le_rfl) le_rfl
  have hpositional : Decimal.positional ⟨n.natAbs, 0⟩ = Nat.toDigits 10 n.natAbs ++ ['.', '0'] := by
    rw [Decimal.positional, if_pos le_rfl]
    simp
  have hread := number?_parts parts false
  have hhead := parts.isDigit_head? []
  rw [suffix, if_neg Bool.false_ne_true, if_neg Bool.false_ne_true, List.append_nil] at hread
  rw [List.append_nil] at hhead
  refine ⟨parts.decimal, ?_, ?_⟩
  · rw [hvalue, Decimal.value, zpow_zero, mul_one]
  · rw [toList_integerText, List.append_assoc, ← hpositional, ← htext, read_sign _ hhead, hread]
    rfl

/-- The text of a double is a sign and parts with its shortest digits. -/
theorem exists_parts_doubleText (d : Double) : ∃ parts : Decimal.Parts,
    parts.decimal.value = d.shortest.value ∧ d.toText.toList = sign d.negative ++ parts.text := by
  obtain ⟨parts, htext, hvalue⟩ := d.shortest.exists_parts Double.exponent_shortest_le
  refine ⟨parts, hvalue, ?_⟩
  rw [Double.toText, String.toList_ofList, htext]
  rfl

/-- The text of a double is read as a number with its value, and is no long number. -/
theorem read_doubleText (d : Double) : ∃ decimal : Decimal, decimal.value = d.shortest.value ∧ ∀ long,
    expression? (d.toText.toList ++ suffix long) =
      if long then none else some (d.negative, .decimal decimal) := by
  obtain ⟨parts, hvalue, htext⟩ := exists_parts_doubleText d
  refine ⟨parts.decimal, hvalue, fun long => ?_⟩
  rw [htext, List.append_assoc, read_sign _ (parts.isDigit_head? _), number?_parts]
  cases long <;> rfl

/-- A double has a point or an exponent of its own. -/
theorem doubleLiteral_double (d : Double) : doubleLiteral (.double d) = d.toText := by
  obtain ⟨parts, _, htext⟩ := exists_parts_doubleText d
  refine if_pos ?_
  show d.toText.toList.any _ = true
  rw [htext, List.any_append, Decimal.Parts.text, List.any_append, List.any_append]
  rcases parts.marked with hfraction | hexponent
  · rw [Decimal.pointText, if_neg (mt List.isEmpty_iff.mp hfraction), List.any_cons]
    simp
  · obtain ⟨n, hn⟩ := Option.ne_none_iff_exists'.mp hexponent
    rw [hn, Decimal.exponentText, List.any_cons]
    simp

/-- An integer gets a zero behind a point. -/
theorem doubleLiteral_integer (n : Int) : doubleLiteral (.integer n) = integerText n ++ ".0" := by
  have hdigits : ∀ c ∈ Nat.toDigits 10 n.natAbs, ¬ (c = '.' || c = 'e' || c = 'E') = true := by
    intro c hc hmark
    have hdigit := isDigit_of_mem_toDigits c hc
    simp only [Bool.or_eq_true, decide_eq_true_eq] at hmark
    rcases hmark with (rfl | rfl) | rfl <;> cases hdigit
  refine if_neg ?_
  show ¬ (integerText n).toList.any _ = true
  rw [toList_integerText, List.any_eq_true]
  rintro ⟨c, hmem, hmark⟩
  rcases List.mem_append.mp hmem with hsign | hdigit
  · rw [sign] at hsign
    split at hsign
    · rw [List.mem_singleton.mp hsign] at hmark
      cases hmark
    · cases hsign
  · exact hdigits c hdigit hmark

end Kotlin

end SmithyKotlin
