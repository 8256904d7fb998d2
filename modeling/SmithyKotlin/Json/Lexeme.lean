import SmithyKotlin.Json.Source

/-!
# The lexemes of a JSON text

`ofText` cuts a text into brackets, separators, texts and other scalars.  The first character that starts no lexeme
gives the lexeme `wrong`, and nothing after it is looked at.

* `quotedUnits` takes a text in quotes apart into characters and UTF-16 codes, which `joinUnits` puts together; a
  half of a surrogate pair alone is no text.
* `numberOf` makes an integer of 64 bits or a double of the parts of a number; a number beyond all doubles has none.
* `length_first?`: every lexeme takes something off the text, so `ofText` ends.

How lexemes make up values is left to `Source.Reading`.
-/

namespace SmithyKotlin

inductive Lexeme where
  | openObject
  | closeObject
  | openArray
  | closeArray
  | comma
  | colon
  /-- A quoted text; `none` when its escapes denote no text. -/
  | text (value : Option String)
  /-- Any other scalar. -/
  | scalar (value : Source)
  | wrong

namespace Lexeme

def isSpace (c : Char) : Bool := c = ' ' || c = '\n' || c = '\t' || c = '\r'

/-! ## Texts -/

/-- One element of a quoted text: a character, or a 16-bit unit written in hexadecimal. -/
inductive Unit16 where
  | char (c : Char)
  | code (n : Nat)

def hexValue? (c : Char) : Option Nat :=
  if '0' ≤ c && c ≤ '9' then some (c.toNat - 48)
  else if 'a' ≤ c && c ≤ 'f' then some (c.toNat - 87)
  else if 'A' ≤ c && c ≤ 'F' then some (c.toNat - 55)
  else none

def hexCode? (a b c d : Char) : Option Nat := do
  return 4096 * (← hexValue? a) + 256 * (← hexValue? b) + 16 * (← hexValue? c) + (← hexValue? d)

def escaped? (c : Char) : Option Char :=
  if c = '"' || c = '\\' || c = '/' then some c
  else if c = 'n' then some '\n'
  else if c = 'r' then some '\r'
  else if c = 't' then some '\t'
  else if c = 'b' then some (Char.ofNat 8)
  else if c = 'f' then some (Char.ofNat 12)
  else none

/-- The elements of a quoted text behind its first quote, and what follows the last quote. -/
def quotedUnits (units : List Unit16) : List Char → Option (List Unit16 × List Char)
  | [] => none
  | '"' :: rest => some (units.reverse, rest)
  | '\\' :: 'u' :: a :: b :: c :: d :: rest =>
    match hexCode? a b c d with
    | some n => quotedUnits (.code n :: units) rest
    | none => none
  | '\\' :: c :: rest =>
    match escaped? c with
    | some e => quotedUnits (.char e :: units) rest
    | none => none
  | c :: rest => if c.toNat < 0x20 then none else quotedUnits (.char c :: units) rest

/-- Joins surrogate pairs; a half of a pair that stands alone denotes nothing. -/
def joinUnits : List Unit16 → Option (List Char)
  | [] => some []
  | .char c :: rest => (joinUnits rest).map (c :: ·)
  | .code high :: .code low :: rest =>
    if 0xd800 ≤ high && high < 0xdc00 then
      if 0xdc00 ≤ low && low < 0xe000 then
        (joinUnits rest).map (Char.ofNat (0x10000 + (high - 0xd800) * 0x400 + (low - 0xdc00)) :: ·)
      else none
    else if 0xdc00 ≤ high && high < 0xe000 then none
    else (joinUnits (.code low :: rest)).map (Char.ofNat high :: ·)
  | .code n :: rest =>
    if 0xd800 ≤ n && n < 0xe000 then none else (joinUnits rest).map (Char.ofNat n :: ·)

theorem length_quotedUnits {units : List Unit16} {cs : List Char}
    {found : List Unit16 × List Char} (h : quotedUnits units cs = some found) :
    found.2.length < cs.length := by
  fun_induction quotedUnits units cs with
  | case1 => simp at h
  | case2 units tail => simp at h; simp [← h]
  | case3 units a b c d tail n hn ih => have := ih h; simp; omega
  | case4 => simp at h
  | case5 units c tail e _ he ih => have := ih h; simp; omega
  | case6 => simp at h
  | case7 => simp at h
  | case8 units c tail _ _ _ _ ih => have := ih h; simp; omega

/-! ## Numbers -/

def digitValue (digits : List Char) : Nat := digits.foldl (fun n c => 10 * n + (c.toNat - 48)) 0

/-- The number with the given sign, whole digits, fraction digits and exponent.  Without fraction
and exponent it is an integer, if it has at most 64 bits and is not a negative zero. -/
def numberOf (negative : Bool) (whole : List Char) (fraction : List Char)
    (exponent : Option Int) : Source :=
  let n := digitValue whole
  if fraction.isEmpty && exponent.isNone && negative && 0 < n && n ≤ twoTo 63 then
    .number (.integer (-n))
  else if fraction.isEmpty && exponent.isNone && !negative && n < twoTo 64 then .number (.integer n)
  else
    match Double.ofDecimal negative (digitValue (whole ++ fraction))
        (exponent.getD 0 - fraction.length) with
    | some d => .number (.double d)
    | none => .unreadable

/-- The digits at the start of a text and the rest of it. -/
def digits (cs : List Char) : List Char × List Char :=
  (cs.takeWhile Char.isDigit, cs.dropWhile Char.isDigit)

/-- The whole digits: a zero alone, or digits that do not start with one. -/
def whole? (cs : List Char) : Option (List Char × List Char) :=
  let found := digits cs
  if found.1.isEmpty || (found.1.head? == some '0' && 1 < found.1.length) then none
  else some found

/-- A point with digits behind it, if there is a point. -/
def fraction? : List Char → Option (List Char × List Char)
  | '.' :: rest =>
    if (digits rest).1.isEmpty then none else some (digits rest)
  | cs => some ([], cs)

def signed (cs : List Char) : Bool × List Char :=
  match cs with
  | '+' :: rest => (false, rest)
  | '-' :: rest => (true, rest)
  | cs => (false, cs)

/-- An exponent mark with a number behind it, if there is a mark. -/
def exponent? (cs : List Char) : Option (Option Int × List Char) :=
  match cs with
  | c :: rest =>
    if c = 'e' || c = 'E' then
      let found := digits (signed rest).2
      if found.1.isEmpty then none
      else
        let n : Int := digitValue found.1
        some (some (if (signed rest).1 then -n else n), found.2)
    else some (none, cs)
  | [] => some (none, [])

/-- The number at the start of a text without sign and what follows it. -/
def unsigned? (negative : Bool) (cs : List Char) : Option (Source × List Char) := do
  let whole ← whole? cs
  let fraction ← fraction? whole.2
  let exponent ← exponent? fraction.2
  return (numberOf negative whole.1 fraction.1 exponent.1, exponent.2)

/-- The number at the start of a text and what follows it. -/
def number? (cs : List Char) : Option (Source × List Char) :=
  match cs with
  | '-' :: rest => unsigned? true rest
  | cs => unsigned? false cs

/-! ## One lexeme -/

/-- The lexeme at the start of a text that does not start with a space, and what follows it. -/
def first? : List Char → Option (Lexeme × List Char)
  | [] => none
  | '\x7b' :: rest => some (openObject, rest)
  | '\x7d' :: rest => some (closeObject, rest)
  | '[' :: rest => some (openArray, rest)
  | ']' :: rest => some (closeArray, rest)
  | ',' :: rest => some (comma, rest)
  | ':' :: rest => some (colon, rest)
  | 't' :: 'r' :: 'u' :: 'e' :: rest => some (scalar (.bool true), rest)
  | 'f' :: 'a' :: 'l' :: 's' :: 'e' :: rest => some (scalar (.bool false), rest)
  | 'n' :: 'u' :: 'l' :: 'l' :: rest => some (scalar .null, rest)
  | '"' :: rest =>
    (quotedUnits [] rest).map fun found =>
      (text ((joinUnits found.1).map String.ofList), found.2)
  | cs => (number? cs).map fun found => (scalar found.1, found.2)

/-! ## Every lexeme takes something off the text -/

theorem length_digits (cs : List Char) : (digits cs).1.length + (digits cs).2.length = cs.length := by
  have h := congrArg List.length (List.takeWhile_append_dropWhile (p := Char.isDigit) (l := cs))
  simpa only [digits, List.length_append] using h

theorem length_whole? {cs : List Char} {found : List Char × List Char}
    (h : whole? cs = some found) : found.2.length < cs.length := by
  have hd := length_digits cs
  simp only [whole?] at h
  split at h
  · simp at h
  · rename_i hne
    simp only [Bool.or_eq_true, not_or, List.isEmpty_iff] at hne
    have hpos := List.length_pos_iff.mpr hne.1
    injection h with h
    rw [← h]
    omega

theorem length_fraction? {cs : List Char} {found : List Char × List Char}
    (h : fraction? cs = some found) : found.2.length ≤ cs.length := by
  unfold fraction? at h
  split at h
  · rename_i tail
    have hd := length_digits tail
    split at h
    · simp at h
    · injection h with h
      rw [← h, List.length_cons]
      omega
  · injection h with h
    subst h
    exact Nat.le_refl _

theorem length_signed (cs : List Char) : (signed cs).2.length ≤ cs.length := by
  unfold signed
  split <;> simp

theorem length_exponent? {cs : List Char} {found : Option Int × List Char}
    (h : exponent? cs = some found) : found.2.length ≤ cs.length := by
  unfold exponent? at h
  split at h
  · rename_i c tail
    have hs := length_signed tail
    have hd := length_digits (signed tail).2
    split at h
    · simp only at h
      split at h
      · simp at h
      · injection h with h
        rw [← h, List.length_cons]
        simp only
        omega
    · injection h with h
      subst h
      exact Nat.le_refl _
  · injection h with h
    subst h
    exact Nat.le_refl _

theorem length_unsigned? {negative : Bool} {cs : List Char} {found : Source × List Char}
    (h : unsigned? negative cs = some found) : found.2.length < cs.length := by
  simp only [unsigned?, Option.bind_eq_bind, Option.bind_eq_some_iff, Option.pure_def,
    Option.some.injEq] at h
  obtain ⟨w, h₁, f, h₂, e, h₃, rfl⟩ := h
  have l₁ := length_whole? h₁
  have l₂ := length_fraction? h₂
  have l₃ := length_exponent? h₃
  simp only
  omega

theorem length_number? {cs : List Char} {found : Source × List Char}
    (h : number? cs = some found) : found.2.length < cs.length := by
  unfold number? at h
  split at h
  · exact Nat.lt_succ_of_lt (length_unsigned? h)
  · exact length_unsigned? h

theorem length_first? {cs : List Char} {found : Lexeme × List Char}
    (h : first? cs = some found) : found.2.length < cs.length := by
  unfold first? at h
  split at h
  case h_11 tail =>
    obtain ⟨q, hq, rfl⟩ := Option.map_eq_some_iff.mp h
    exact Nat.lt_succ_of_lt (length_quotedUnits hq)
  case h_12 =>
    obtain ⟨n, hn, rfl⟩ := Option.map_eq_some_iff.mp h
    exact length_number? hn
  all_goals simp at h
  all_goals simp [← h] <;> omega

theorem length_dropWhile_le (p : Char → Bool) (cs : List Char) :
    (cs.dropWhile p).length ≤ cs.length :=
  (List.dropWhile_sublist p).length_le

/-- The lexemes of a text, up to and with the first wrong one. -/
def ofText (cs : List Char) : List Lexeme :=
  match cs.dropWhile isSpace, length_dropWhile_le isSpace cs with
  | [], _ => []
  | c :: tail, hle =>
    match h : first? (c :: tail) with
    | none => [wrong]
    | some found =>
      have : found.2.length < cs.length := Nat.lt_of_lt_of_le (length_first? h) hle
      found.1 :: ofText found.2
termination_by cs.length

end Lexeme

end SmithyKotlin
