import SmithyKotlin.Proofs.Naming.Casing
import SmithyKotlin.Proofs.Text.Pieces

/-!
# Types as text

The grammar of types with arguments: a type (`TypeExpr`) is a name with its package, alone or with arguments between
`<` and `>`, where an argument may have a `?`; `Derives` says which texts are such a type.

`Derives.unique`: a text derives at most one type.  This is so because a name ends where one of the marks begins,
and each mark says what comes next (`Derives.append_inj`).  Types of functions and the like are not in the grammar.
-/

namespace SmithyKotlin

/-! ## Names with their packages -/

/-- Letters, digits and underscores of ASCII. -/
def isWordChar (c : Char) : Bool := c.isAlphanum || c = '_'

def isWord (word : List Char) : Bool := !word.isEmpty && word.all isWordChar

/-- Words between points, two at least. -/
def IsQualifiedName (name : String) : Prop :=
  2 ≤ (Text.pieces (· == '.') name.toList).length ∧
    ∀ word ∈ Text.pieces (· == '.') name.toList, isWord word = true

instance (name : String) : Decidable (IsQualifiedName name) :=
  @instDecidableAnd _ _ _ (List.decidableBAll _ _)

/-- A character that can be in a name. -/
def isNameChar (c : Char) : Bool := isWordChar c || c = '.'

theorem IsQualifiedName.isNameChar {name : String} (h : IsQualifiedName name) {c : Char}
    (hmem : c ∈ name.toList) : SmithyKotlin.isNameChar c = true := by
  rw [SmithyKotlin.isNameChar, Bool.or_eq_true, decide_eq_true_eq]
  by_cases hpoint : c = '.'
  · exact .inr hpoint
  · have hsep : (c == '.') = false := beq_eq_false_iff_ne.mpr hpoint
    obtain ⟨word, hword, hc⟩ : ∃ word ∈ Text.pieces (· == '.') name.toList, c ∈ word :=
      Text.exists_mem_pieces hmem hsep
    have hall := h.2 word hword
    rw [isWord, Bool.and_eq_true, List.all_eq_true] at hall
    exact .inl (hall.2 c hc)

/-- A name in a package whose segments are words. -/
theorem isQualifiedName_append {package name : String}
    (hpackage : ∀ word ∈ Text.pieces (· == '.') package.toList, isWord word = true)
    (hname : isWord name.toList = true) : IsQualifiedName (package ++ "." ++ name) := by
  have hsplit : (package ++ "." ++ name).toList = package.toList ++ '.' :: name.toList := by
    rw [String.toList_append, String.toList_append, List.append_assoc]
    rfl
  have hsingle : Text.pieces (· == '.') name.toList = [name.toList] := by
    refine Text.pieces_eq_singleton fun c hc => beq_eq_false_iff_ne.mpr ?_
    rintro rfl
    rw [isWord, Bool.and_eq_true, List.all_eq_true] at hname
    exact absurd (hname.2 _ hc) (by decide)
  have hpieces : Text.pieces (· == '.') (package ++ "." ++ name).toList =
      Text.pieces (· == '.') package.toList ++ [name.toList] := by
    rw [hsplit, Text.pieces_append_cons rfl, hsingle]
  refine ⟨?_, ?_⟩
  · have hpos := List.length_pos_of_ne_nil (Text.pieces_ne_nil (· == '.') package.toList)
    rw [hpieces, List.length_append, List.length_singleton]
    omega
  · rw [hpieces]
    intro word hmem
    rcases List.mem_append.mp hmem with hmem | hmem
    · exact hpackage word hmem
    · rw [List.mem_singleton.mp hmem]
      exact hname

/-! ## The grammar -/

mutual

/-- A type as it stands in source. -/
inductive TypeExpr where
  | named (name : String)
  | applied (name : String) (arguments : TypeArguments)

/-- The arguments of a type, each with whether it has a `?`. -/
inductive TypeArguments where
  | last (type : TypeExpr) (nullable : Bool)
  | cons (type : TypeExpr) (nullable : Bool) (rest : TypeArguments)

end

/-- The `?` of an argument that has one. -/
def nullMark (nullable : Bool) : List Char := if nullable then ['?'] else []

mutual

/-- `T ::= name | name '<' A (', ' A)* '>'` -/
inductive Derives : List Char → TypeExpr → Prop where
  | named {name : String} (hname : IsQualifiedName name) : Derives name.toList (.named name)
  | applied {name : String} {text : List Char} {arguments : TypeArguments}
      (hname : IsQualifiedName name) (harguments : DerivesArguments text arguments) :
      Derives (name.toList ++ '<' :: text ++ ['>']) (.applied name arguments)

/-- `A ::= T | T '?'`, with commas between several. -/
inductive DerivesArguments : List Char → TypeArguments → Prop where
  | last {text : List Char} {type : TypeExpr} (nullable : Bool) (htype : Derives text type) :
      DerivesArguments (text ++ nullMark nullable) (.last type nullable)
  | cons {text rest : List Char} {type : TypeExpr} {arguments : TypeArguments} (nullable : Bool)
      (htype : Derives text type) (hrest : DerivesArguments rest arguments) :
      DerivesArguments (text ++ nullMark nullable ++ ',' :: ' ' :: rest) (.cons type nullable arguments)

end

/-! ## At most one type -/

/-- Nothing that could go on a type: neither more of a name nor arguments. -/
def Ends (rest : List Char) : Prop := rest.head?.any (fun c => isNameChar c || c = '<') = false

theorem ends_nil : Ends [] := rfl

theorem Ends.stops {rest : List Char} (h : Ends rest) : rest.head?.any isNameChar = false := by
  cases rest with
  | nil => rfl
  | cons c others => exact (Bool.or_eq_false_iff.mp h).1

theorem not_ends_open (rest : List Char) : ¬ Ends ('<' :: rest) := by
  rw [Ends, List.head?_cons, Option.any_some]
  decide

theorem ends_argument (nullable : Bool) {c : Char} (hmark : (isNameChar c || c = '<') = false)
    (rest : List Char) : Ends (nullMark nullable ++ c :: rest) := by
  cases nullable with
  | false => exact hmark
  | true => exact show (isNameChar '?' || '?' = '<') = false by decide

/-- Names are the same when no more of a name follows, and so is what follows. -/
theorem name_append_inj {name other : String} (hname : IsQualifiedName name) (hother : IsQualifiedName other)
    {rest rest' : List Char} (hstops : rest.head?.any isNameChar = false)
    (hstops' : rest'.head?.any isNameChar = false) (h : name.toList ++ rest = other.toList ++ rest') :
    name = other ∧ rest = rest' := by
  obtain ⟨htake, hdrop⟩ := Text.takeWhile_append_of_head? (fun _ => hname.isNameChar) hstops
  obtain ⟨htake', hdrop'⟩ := Text.takeWhile_append_of_head? (fun _ => hother.isNameChar) hstops'
  rw [← h] at htake' hdrop'
  exact ⟨String.toList_inj.mp (htake.symm.trans htake'), hdrop.symm.trans hdrop'⟩

theorem nullMark_append_inj {a b : Bool} {c d : Char} {rest rest' : List Char} (hc : c ≠ '?') (hd : d ≠ '?')
    (h : nullMark a ++ c :: rest = nullMark b ++ d :: rest') : a = b ∧ c = d ∧ rest = rest' := by
  cases a <;> cases b
  · obtain ⟨rfl, rfl⟩ := List.cons.inj h
    exact ⟨rfl, rfl, rfl⟩
  · exact absurd (List.cons.inj h).1 hc
  · exact absurd (List.cons.inj h).1.symm hd
  · obtain ⟨rfl, rfl⟩ := List.cons.inj (List.cons.inj h).2
    exact ⟨rfl, rfl, rfl⟩

mutual

/-- What derives a type cannot go on and derive another one. -/
theorem Derives.append_inj {first second : List Char} {a b : TypeExpr} (ha : Derives first a)
    (hb : Derives second b) {rest rest' : List Char} (hends : Ends rest) (hends' : Ends rest')
    (h : first ++ rest = second ++ rest') : a = b ∧ rest = rest' := by
  cases ha with
  | @named name hname =>
    cases hb with
    | @named other hother =>
      obtain ⟨rfl, rfl⟩ := name_append_inj hname hother hends.stops hends'.stops h
      exact ⟨rfl, rfl⟩
    | @applied other text arguments hother harguments =>
      rw [List.append_assoc, List.append_assoc] at h
      obtain ⟨_, rfl⟩ := name_append_inj hname hother hends.stops rfl h
      exact absurd hends (not_ends_open _)
  | @applied name text arguments hname harguments =>
    rw [List.append_assoc, List.append_assoc] at h
    cases hb with
    | @named other hother =>
      obtain ⟨_, rfl⟩ := name_append_inj hname hother rfl hends'.stops h
      exact absurd hends' (not_ends_open _)
    | @applied other text' arguments' hother harguments' =>
      rw [List.append_assoc, List.append_assoc] at h
      obtain ⟨rfl, hbehind⟩ := name_append_inj hname hother rfl rfl h
      obtain ⟨rfl, rfl⟩ := harguments.append_inj harguments' (List.cons.inj hbehind).2
      exact ⟨rfl, rfl⟩

theorem DerivesArguments.append_inj {first second : List Char} {a b : TypeArguments}
    (ha : DerivesArguments first a) (hb : DerivesArguments second b) {rest rest' : List Char}
    (h : first ++ ('>' :: rest) = second ++ ('>' :: rest')) : a = b ∧ rest = rest' := by
  cases ha with
  | @last text type nullable htype =>
    rw [List.append_assoc] at h
    cases hb with
    | @last text' type' nullable' htype' =>
      rw [List.append_assoc] at h
      obtain ⟨rfl, hmark⟩ := htype.append_inj htype' (ends_argument _ (by decide) _)
        (ends_argument _ (by decide) _) h
      obtain ⟨rfl, _, rfl⟩ := nullMark_append_inj (by decide) (by decide) hmark
      exact ⟨rfl, rfl⟩
    | @cons text' others type' arguments nullable' htype' hrest =>
      rw [List.append_assoc, List.append_assoc] at h
      obtain ⟨rfl, hmark⟩ := htype.append_inj htype' (ends_argument _ (by decide) _)
        (ends_argument _ (by decide) _) h
      exact absurd (nullMark_append_inj (by decide) (by decide) hmark).2.1 (by decide)
  | @cons text others type arguments nullable htype hrest =>
    rw [List.append_assoc, List.append_assoc] at h
    cases hb with
    | @last text' type' nullable' htype' =>
      rw [List.append_assoc] at h
      obtain ⟨rfl, hmark⟩ := htype.append_inj htype' (ends_argument _ (by decide) _)
        (ends_argument _ (by decide) _) h
      exact absurd (nullMark_append_inj (by decide) (by decide) hmark).2.1 (by decide)
    | @cons text' others' type' arguments' nullable' htype' hrest' =>
      rw [List.append_assoc, List.append_assoc] at h
      obtain ⟨rfl, hmark⟩ := htype.append_inj htype' (ends_argument _ (by decide) _)
        (ends_argument _ (by decide) _) h
      obtain ⟨rfl, _, hbehind⟩ := nullMark_append_inj (by decide) (by decide) hmark
      obtain ⟨rfl, rfl⟩ := hrest.append_inj hrest' (List.cons.inj hbehind).2
      exact ⟨rfl, rfl⟩

end

/-- A text derives at most one type. -/
theorem Derives.unique {text : List Char} {a b : TypeExpr} (ha : Derives text a) (hb : Derives text b) :
    a = b :=
  (ha.append_inj hb ends_nil ends_nil rfl).1

end SmithyKotlin
