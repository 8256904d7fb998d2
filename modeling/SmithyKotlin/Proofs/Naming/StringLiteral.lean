import SmithyKotlin.Proofs.Rendering.Annotations
import SmithyKotlin.Proofs.Structure.Literals
import SmithyKotlin.Proofs.Structure.Redaction

/-!
# Texts as literals

A text from the model stands in source between quotes.  Kotlin reads such a literal from the left, where a backslash
takes the next character out of its role: so a quote or a dollar is escaped when an odd number of backslashes stands
directly in front of it (`IsEscaped`).

* `isComplete_stringLiteral`: the literal ends at its last quote and not before, and has no line break in it.
* `interpolations_stringLiteral`: it has no template.
* `run_emitDocumentation`: so an annotation stays on one line.
* `stringLiteral_keepsText` adds that it is read as the text again (`read_stringLiteral`), and stays on one line
  whatever is written around it.
-/

namespace SmithyKotlin

namespace Kotlin

/-! ## Escaped characters -/

/-- The character behind the text is escaped: an odd number of backslashes stands directly in front of it. -/
def IsEscaped (front : List Char) : Prop := (front.reverse.takeWhile (· = '\\')).length % 2 = 1

instance : DecidablePred IsEscaped := fun front =>
  inferInstanceAs (Decidable ((front.reverse.takeWhile (· = '\\')).length % 2 = 1))

/-- A backslash escapes the next character unless it is escaped itself. -/
theorem isEscaped_concat_backslash (front : List Char) : IsEscaped (front ++ ['\\']) ↔ ¬ IsEscaped front := by
  rw [IsEscaped, IsEscaped, List.reverse_concat, List.takeWhile_cons_of_pos (by decide), List.length_cons]
  omega

theorem not_isEscaped_concat {c : Char} (hc : c ≠ '\\') (front : List Char) : ¬ IsEscaped (front ++ [c]) := by
  rw [IsEscaped, List.reverse_concat, List.takeWhile_cons_of_neg (by simpa using hc)]
  decide

/-- One literal from its first to its last character. -/
structure IsComplete (literal : List Char) : Prop where
  /-- It stands between two quotes that are not escaped. -/
  ends : ∃ inner, literal = '"' :: inner ++ ['"'] ∧ ¬ IsEscaped ('"' :: inner)
  /-- Every other quote is escaped. -/
  quote : ∀ front behind, literal = front ++ '"' :: behind → IsEscaped front ∨ front = [] ∨ behind = []
  dollar : ∀ front behind, literal = front ++ '$' :: behind → IsEscaped front
  oneLine : '\n' ∉ literal ∧ '\r' ∉ literal

end Kotlin

namespace Naming

open Kotlin

/-! ## Escaping a text -/

/-- A character stands for itself, or a mark behind a backslash stands for it. -/
theorem escapeChar_cases (c : Char) :
    (escapeChar c = [c] ∧ ∀ d ∈ ['"', '\\', '$', '\n', '\r'], c ≠ d) ∨
      ∃ mark, escapeChar c = ['\\', mark] ∧ mark ≠ '\n' ∧ mark ≠ '\r' := by
  rw [escapeChar]
  split_ifs with hquote hbackslash hdollar hnewline hreturn htab
  · exact .inr ⟨'"', rfl, by decide⟩
  · exact .inr ⟨'\\', rfl, by decide⟩
  · exact .inr ⟨'$', rfl, by decide⟩
  · exact .inr ⟨'n', rfl, by decide⟩
  · exact .inr ⟨'r', rfl, by decide⟩
  · exact .inr ⟨'t', rfl, by decide⟩
  · refine .inl ⟨rfl, ?_⟩
    simp only [List.forall_mem_cons, List.not_mem_nil, false_imp_iff, implies_true, and_true]
    exact ⟨hquote, hbackslash, hdollar, hnewline, hreturn⟩

variable {front before behind : List Char} {c : Char}

/-- Behind an escaped character the next one has its own role again. -/
theorem not_isEscaped_escapeChar (hfront : ¬ IsEscaped front) (c : Char) : ¬ IsEscaped (front ++ escapeChar c) := by
  obtain ⟨hself, hplain⟩ | ⟨mark, hmark, _⟩ := escapeChar_cases c
  · rw [hself]
    exact not_isEscaped_concat (hplain '\\' (by decide)) front
  · rw [hmark, List.append_cons]
    by_cases hbackslash : mark = '\\'
    · rw [hbackslash, isEscaped_concat_backslash, not_not, isEscaped_concat_backslash]
      exact hfront
    · exact not_isEscaped_concat hbackslash _

theorem not_isEscaped_flatMap (hfront : ¬ IsEscaped front) (text : List Char) :
    ¬ IsEscaped (front ++ text.flatMap escapeChar) := by
  induction text generalizing front with
  | nil =>
    rw [List.flatMap_nil, List.append_nil]
    exact hfront
  | cons c rest ih =>
    rw [List.flatMap_cons, ← List.append_assoc]
    exact ih (not_isEscaped_escapeChar hfront c)

/-- In what stands for a character, quotes and dollars are escaped. -/
theorem isEscaped_of_escapeChar (hfront : ¬ IsEscaped front) {d : Char}
    (hsplit : escapeChar d = before ++ c :: behind) (hc : c = '"' ∨ c = '$') : IsEscaped (front ++ before) := by
  obtain ⟨hself, hplain⟩ | ⟨mark, hmark, _⟩ := escapeChar_cases d
  · rw [hself] at hsplit
    obtain ⟨_, hsingle⟩ | ⟨_, hnil⟩ := List.singleton_eq_append_iff.mp hsplit
    · obtain ⟨hd, _⟩ := List.cons.inj hsingle
      rcases hc with rfl | rfl
      · exact absurd hd.symm (hplain '"' (by decide))
      · exact absurd hd.symm (hplain '$' (by decide))
    · cases hnil
  · rw [hmark] at hsplit
    match before, hsplit with
    | [], hsplit =>
      obtain ⟨rfl, _⟩ := List.cons.inj hsplit
      exact absurd hc (by decide)
    | [first], hsplit =>
      obtain ⟨rfl, _⟩ := List.cons.inj hsplit
      exact (isEscaped_concat_backslash front).mpr hfront
    | first :: second :: others, hsplit => simp at hsplit

/-- In an escaped text with a quote behind it all other quotes and all dollars are escaped. -/
theorem isEscaped_of_flatMap (hfront : ¬ IsEscaped front) {text : List Char}
    (hsplit : text.flatMap escapeChar ++ ['"'] = before ++ c :: behind) (hc : c = '"' ∨ c = '$') :
    IsEscaped (front ++ before) ∨ c = '"' ∧ behind = [] := by
  induction text generalizing front before with
  | nil =>
    obtain ⟨_, hsingle⟩ | ⟨_, hnil⟩ := List.singleton_eq_append_iff.mp hsplit
    · exact .inr (List.cons.inj hsingle)
    · cases hnil
  | cons d rest ih =>
    rw [List.flatMap_cons, List.append_assoc] at hsplit
    have hnext := not_isEscaped_escapeChar hfront d
    -- the character stands in what is given for `d` or behind it
    obtain ⟨inner, rfl, hrest⟩ | ⟨inner, hd, hrest⟩ := List.append_eq_append_iff.mp hsplit
    · rw [← List.append_assoc]
      exact ih hnext hrest
    · cases inner with
      | nil =>
        rw [List.append_nil] at hd
        rw [← hd]
        have hhere : rest.flatMap escapeChar ++ ['"'] = [] ++ c :: behind := hrest.symm
        have hescaped := ih hnext hhere
        rwa [List.append_nil] at hescaped
      | cons e others =>
        obtain ⟨rfl, _⟩ := List.cons.inj hrest
        exact .inl (isEscaped_of_escapeChar hfront hd hc)

/-- Nothing in an escaped text breaks the line. -/
theorem not_mem_flatMap_escapeChar (text : List Char) :
    '\n' ∉ text.flatMap escapeChar ∧ '\r' ∉ text.flatMap escapeChar := by
  have hchar (d) : '\n' ∉ escapeChar d ∧ '\r' ∉ escapeChar d := by
    obtain ⟨hself, hplain⟩ | ⟨mark, hmark, hnewline, hreturn⟩ := escapeChar_cases d
    · rw [hself, List.mem_singleton, List.mem_singleton]
      exact ⟨(hplain '\n' (by decide)).symm, (hplain '\r' (by decide)).symm⟩
    · simp [hmark, hnewline.symm, hreturn.symm]
  simp only [List.mem_flatMap, not_exists, not_and]
  exact ⟨fun d _ => (hchar d).1, fun d _ => (hchar d).2⟩

theorem interpolations_flatMap_escapeChar (text rest : List Char) :
    interpolations (text.flatMap escapeChar ++ rest) = interpolations rest := by
  induction text with
  | nil => rfl
  | cons d others ih =>
    rw [List.flatMap_cons, List.append_assoc]
    obtain ⟨hself, hplain⟩ | ⟨mark, hmark, _⟩ := escapeChar_cases d
    · rw [hself, List.singleton_append,
        interpolations_cons (hplain '$' (by decide)) (hplain '\\' (by decide)), ih]
    · rw [hmark]
      show interpolations ('\\' :: mark :: (others.flatMap escapeChar ++ rest)) = _
      rw [interpolations.eq_2, List.tail_cons, ih]

/-! ## Literals -/

theorem toList_stringLiteral (text : String) :
    (stringLiteral text).toList = '"' :: text.toList.flatMap escapeChar ++ ['"'] :=
  String.toList_ofList

theorem isComplete_stringLiteral (text : String) : IsComplete (stringLiteral text).toList := by
  have hopen : ¬ IsEscaped ['"'] := by
    decide
  have hescaped (front behind) (c : Char) (hsplit : (stringLiteral text).toList = front ++ c :: behind)
      (hc : c = '"' ∨ c = '$') : IsEscaped front ∨ c = '"' ∧ (front = [] ∨ behind = []) := by
    rw [toList_stringLiteral, List.cons_append] at hsplit
    obtain ⟨rfl, hfirst⟩ | ⟨others, rfl, hrest⟩ := List.cons_eq_append_iff.mp hsplit
    · exact .inr ⟨(List.cons.inj hfirst).1, .inl rfl⟩
    · exact (isEscaped_of_flatMap hopen hrest hc).imp_right fun h => ⟨h.1, .inr h.2⟩
  refine ⟨⟨_, toList_stringLiteral text, not_isEscaped_flatMap hopen _⟩, ?_, ?_, ?_⟩
  · exact fun front behind hsplit => (hescaped front behind '"' hsplit (.inl rfl)).imp_right And.right
  · exact fun front behind hsplit => (hescaped front behind '$' hsplit (.inr rfl)).resolve_right fun h =>
      absurd h.1 (by decide)
  · have hinner := not_mem_flatMap_escapeChar text.toList
    simp [toList_stringLiteral, hinner]

theorem interpolations_stringLiteral (text : String) : interpolations (stringLiteral text).toList = [] := by
  rw [toList_stringLiteral, List.cons_append, interpolations_cons (by decide) (by decide),
    interpolations_flatMap_escapeChar]
  decide +kernel

/-- What is deprecated is annotated on one line behind its documentation, whatever the message is. -/
theorem run_emitDocumentation (writer : Writer) (documentation : Option String) (message : String) :
    writer.run (emitDocumentation documentation (some message)) =
      (writer.run (emitDocumentation documentation none)).addLines [annotationLine message] := by
  have hline : '\n' ∉ (annotationLine message).toList := by
    rw [annotationLine, String.toList_append, String.toList_append, List.mem_append, List.mem_append, not_or, not_or]
    exact ⟨⟨by decide, (isComplete_stringLiteral message).oneLine.1⟩, by decide⟩
  rw [emitDocumentation, emitDocumentation, Writer.run_append, Writer.run_append]
  exact congrArg (Writer.addLines _) (Text.split_eq_singleton hline)

/-- The literal of a text is complete and has no template, and Kotlin reads it as the text.  It stays on one line among
what is written around it; so does the annotation of a deprecated declaration. -/
theorem stringLiteral_keepsText (text : String) :
    IsComplete (stringLiteral text).toList ∧
    interpolations (stringLiteral text).toList = [] ∧
    expression? (stringLiteral text).toList = some (false, .text text.toList) ∧
    ∀ writer : Writer,
      (∀ front behind : String, ∃ early start rest later,
        Text.split '\n' front = early ++ [start] ∧ Text.split '\n' behind = rest :: later ∧
        writer.step (.write (front ++ stringLiteral text ++ behind)) =
          writer.addLines (early ++ (start ++ stringLiteral text ++ rest) :: later)) ∧
      ∀ documentation, writer.run (emitDocumentation documentation (some text)) =
        (writer.run (emitDocumentation documentation none)).addLines [annotationLine text] := by
  have hcomplete := isComplete_stringLiteral text
  refine ⟨hcomplete, interpolations_stringLiteral text, read_stringLiteral text, fun writer => ⟨?_, ?_⟩⟩
  · intro front behind
    obtain ⟨early, start, rest, later, hfront, hbehind, hwhole⟩ :=
      Text.split_around hcomplete.oneLine.1 front behind
    exact ⟨early, start, rest, later, hfront, hbehind, congrArg writer.addLines hwhole⟩
  · exact fun documentation => run_emitDocumentation writer documentation text

example : stringLiteral "a \"b\" $c\\" = "\"a \\\"b\\\" \\$c\\\\\"" := by decide +kernel

end Naming

end SmithyKotlin
