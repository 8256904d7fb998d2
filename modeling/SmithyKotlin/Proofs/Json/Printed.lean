import SmithyKotlin.Json.Printer
import SmithyKotlin.Proofs.Json.Printable

/-!
# Reading what was printed

A value is read back from both of its texts, with its fields in their order, as long as its numbers can be printed.

* `Lexeme.first?_quoted`: a text is read back from its quoted form, whatever characters it has.
* `Json.lexemes`: the lexemes that a value is written with; `Lexeme.Spells` says that a text is cut into them,
  whatever follows that ends a number.  Both layouts spell them (`Json.spells_compact`, `Json.spells_indented`): they
  differ in spaces only.
* `Source.Reading.run_lexemes`: wherever a value may come, its lexemes bring it.
* `Source.read_compact` and `Source.read_pretty` put these together.

What becomes of the tree that is read, so the order of fields and the limit on nesting, is no matter of texts
(`Source.exists_toJson?_ofJson`).
-/

namespace SmithyKotlin

namespace Lexeme

/-! ## Texts -/

/-- The element that a character is read back as. -/
def unitOf (c : Char) : Unit16 :=
  if c.toNat < 0x20 && c.toNat != 8 && c.toNat != 9 && c.toNat != 10 && c.toNat != 12 && c.toNat != 13 then
    .code c.toNat
  else .char c

theorem hexCode?_control : ∀ n < 0x20,
    hexCode? '0' '0' (Json.hexDigit (n / 16)) (Json.hexDigit (n % 16)) = some n := by
  decide

theorem quotedUnits_escapeChar (units : List Unit16) (c : Char) (rest : List Char) :
    quotedUnits units (Json.escapeChar c ++ rest) = quotedUnits (unitOf c :: units) rest := by
  have hofNat {n : Nat} (h : c.toNat = n) : c = Char.ofNat n := by
    rw [← h, Char.ofNat_toNat]
  unfold Json.escapeChar
  split_ifs with hquote hbackslash hline hreturn htab hback hfeed hcontrol
  · subst hquote
    rfl
  · subst hbackslash
    rfl
  · subst hline
    rfl
  · subst hreturn
    rfl
  · subst htab
    rfl
  · obtain rfl := hofNat hback
    rfl
  · obtain rfl := hofNat hfeed
    rfl
  · -- a character without a letter of its own is written with its code
    have hcode : unitOf c = .code c.toNat := by
      have hnine : c.toNat ≠ 9 := fun h => htab (hofNat h)
      have hten : c.toNat ≠ 10 := fun h => hline (hofNat h)
      have hthirteen : c.toNat ≠ 13 := fun h => hreturn (hofNat h)
      simp [unitOf, hcontrol, hback, hnine, hten, hfeed, hthirteen]
    rw [hcode]
    simp [quotedUnits, hexCode?_control c.toNat hcontrol]
  · have hchar : unitOf c = .char c := by
      simp [unitOf, hcontrol]
    rw [hchar, List.singleton_append]
    simp [quotedUnits, hbackslash, hcontrol]

theorem quotedUnits_flatMap (units : List Unit16) (cs rest : List Char) :
    quotedUnits units (cs.flatMap Json.escapeChar ++ '"' :: rest) = some (units.reverse ++ cs.map unitOf, rest) := by
  induction cs generalizing units with
  | nil => simp [quotedUnits]
  | cons c cs ih =>
    rw [List.flatMap_cons, List.append_assoc, quotedUnits_escapeChar, ih, List.reverse_cons, List.append_assoc]
    rfl

theorem joinUnits_code {n : Nat} (hn : n < 0x20) (units : List Unit16) :
    joinUnits (.code n :: units) = (joinUnits units).map (Char.ofNat n :: ·) := by
  have hhigh : ¬ 0xd800 ≤ n := by
    omega
  have hlow : ¬ 0xdc00 ≤ n := by
    omega
  cases units with
  | nil => simp [joinUnits, hhigh]
  | cons unit units => cases unit <;> simp [joinUnits, hhigh, hlow]

theorem joinUnits_map_unitOf (cs : List Char) : joinUnits (cs.map unitOf) = some cs := by
  induction cs with
  | nil => rfl
  | cons c cs ih =>
    rw [List.map_cons, unitOf]
    split
    · rename_i hcontrol
      simp only [Bool.and_eq_true, decide_eq_true_eq] at hcontrol
      rw [joinUnits_code (by omega), ih, Option.map_some, Char.ofNat_toNat]
    · rw [joinUnits, ih, Option.map_some]

theorem first?_quoted (text : String) (rest : List Char) :
    first? ((Json.quoted text).toList ++ rest) = some (.text (some text), rest) := by
  rw [Json.quoted, String.toList_ofList, List.cons_append, List.cons_append, List.append_assoc]
  show (quotedUnits [] _).map _ = _
  rw [List.singleton_append, quotedUnits_flatMap, Option.map_some, List.reverse_nil, List.nil_append,
    joinUnits_map_unitOf, Option.map_some, String.ofList_toList]

/-! ## Spelling -/

/-- The text is cut into the lexemes, whatever follows that ends a number. -/
def Spells (text : List Char) (lexemes : List Lexeme) : Prop :=
  ∀ rest, Stops rest → ofText (text ++ rest) = lexemes ++ ofText rest

/-- The text starts like a number. -/
theorem not_isSpace_of_starts {cs : List Char} (h : cs.head?.any (fun c => c.isDigit || c = '-') = true) :
    cs.head?.any isSpace = false := by
  cases cs with
  | nil => cases h
  | cons c rest =>
    refine eq_false_of_ne_true fun hspace => ?_
    have hc : isSpace c = true := hspace
    simp only [isSpace, Bool.or_eq_true, decide_eq_true_eq] at hc
    rcases hc with ((rfl | rfl) | rfl) | rfl <;> exact Bool.noConfusion h

theorem first?_of_starts {cs : List Char} (h : cs.head?.any (fun c => c.isDigit || c = '-') = true) :
    first? cs = (number? cs).map fun found => (scalar found.1, found.2) := by
  unfold first?
  split
  case h_12 => rfl
  case h_1 => cases h
  all_goals
    exact Bool.noConfusion h

theorem ofText_of_first? {cs rest : List Char} {lexeme : Lexeme} (hspace : cs.head?.any isSpace = false)
    (hfirst : first? cs = some (lexeme, rest)) : ofText cs = lexeme :: ofText rest := by
  cases cs with
  | nil => cases hfirst
  | cons c tail =>
    have hc : isSpace c = false := hspace
    rw [ofText_eq, List.dropWhile_cons_of_neg (ne_true_of_eq_false hc)]
    simp only [hfirst, Option.elim_some]

theorem ofText_space {c : Char} (hc : isSpace c = true) (cs : List Char) : ofText (c :: cs) = ofText cs := by
  rw [ofText_eq, List.dropWhile_cons_of_pos hc, ← ofText_eq]

/-- A character that is a lexeme by itself and ends a number in front of it. -/
structure IsMark (c : Char) (lexeme : Lexeme) : Prop where
  first : ∀ rest, first? (c :: rest) = some (lexeme, rest)
  space : isSpace c = false
  ends : continues c = false

theorem isMark_comma : IsMark ',' .comma := ⟨fun _ => rfl, rfl, rfl⟩

theorem isMark_colon : IsMark ':' .colon := ⟨fun _ => rfl, rfl, rfl⟩

/-- Two characters around items or fields. -/
structure IsBracket (first last : Char) (opening closing : Lexeme) : Prop where
  opening : IsMark first opening
  closing : IsMark last closing

theorem isBracket_array : IsBracket '[' ']' .openArray .closeArray :=
  ⟨⟨fun _ => rfl, rfl, rfl⟩, ⟨fun _ => rfl, rfl, rfl⟩⟩

theorem isBracket_object : IsBracket '\x7b' '\x7d' .openObject .closeObject :=
  ⟨⟨fun _ => rfl, rfl, rfl⟩, ⟨fun _ => rfl, rfl, rfl⟩⟩

theorem continues_of_isSpace {c : Char} (h : isSpace c = true) : continues c = false := by
  simp only [isSpace, Bool.or_eq_true, decide_eq_true_eq] at h
  rcases h with ((rfl | rfl) | rfl) | rfl <;> decide

namespace Spells

variable {text behind : List Char} {lexemes others : List Lexeme} {c : Char} {lexeme : Lexeme}

theorem nil : Spells [] [] := fun _ _ => rfl

/-- A text that starts with one lexeme, with nothing of it left. -/
theorem single (hspace : text.head?.any isSpace = false)
    (hfirst : ∀ rest, Stops rest → first? (text ++ rest) = some (lexeme, rest)) : Spells text [lexeme] := by
  intro rest hrest
  refine ofText_of_first? ?_ (hfirst rest hrest)
  cases text with
  | nil => cases hfirst [] rfl
  | cons c tail => exact hspace

theorem append (h : Spells text lexemes) (hbehind : Spells behind others)
    (hstops : ∀ rest, Stops rest → Stops (behind ++ rest)) : Spells (text ++ behind) (lexemes ++ others) := by
  intro rest hrest
  rw [List.append_assoc, h _ (hstops rest hrest), hbehind rest hrest, List.append_assoc]

theorem mark (hmark : IsMark c lexeme) (h : Spells text lexemes) : Spells (c :: text) (lexeme :: lexemes) := by
  intro rest hrest
  have hcons : ofText (c :: (text ++ rest)) = lexeme :: ofText (text ++ rest) :=
    ofText_of_first? hmark.space (hmark.first _)
  rw [List.cons_append, hcons, h rest hrest, List.cons_append]

theorem append_mark (h : Spells text lexemes) (hmark : IsMark c lexeme) (hbehind : Spells behind others) :
    Spells (text ++ c :: behind) (lexemes ++ lexeme :: others) :=
  h.append (.mark hmark hbehind) fun _ _ => hmark.ends

theorem spaces {margin : List Char} (hmargin : ∀ c ∈ margin, isSpace c = true) (h : Spells text lexemes) :
    Spells (margin ++ text) lexemes := by
  induction margin with
  | nil => exact h
  | cons c rest ih =>
    obtain ⟨hc, hrest⟩ := List.forall_mem_cons.mp hmargin
    intro behind hbehind
    exact (ofText_space hc _).trans (ih hrest behind hbehind)

/-- Texts with commas between them. -/
theorem intercalate {texts : List (List Char)} {parts : List (List Lexeme)} (h : List.Forall₂ Spells texts parts) :
    Spells ([','].intercalate texts) ([comma].intercalate parts) := by
  induction h with
  | nil => exact nil
  | cons hfirst hrest ih =>
    cases hrest with
    | nil =>
      rw [List.intercalate_singleton, List.intercalate_singleton]
      exact hfirst
    | cons hnext hothers =>
      rw [List.intercalate_cons_cons, List.intercalate_cons_cons, List.append_assoc, List.append_assoc]
      exact hfirst.append_mark isMark_comma ih

/-- A text in brackets, of which the last one may stand behind spaces. -/
theorem enclosed {first last : Char} {opening closing : Lexeme} (hbracket : IsBracket first last opening closing)
    {margin : List Char} (hmargin : ∀ c ∈ margin, isSpace c = true) (h : Spells text lexemes) :
    Spells (first :: (text ++ (margin ++ [last]))) (opening :: (lexemes ++ [closing])) := by
  refine .mark hbracket.opening (h.append (.spaces hmargin (.mark hbracket.closing nil)) fun rest _ => ?_)
  cases margin with
  | nil => exact hbracket.closing.ends
  | cons c others => exact continues_of_isSpace (hmargin c List.mem_cons_self)

theorem inside {first last : Char} {opening closing : Lexeme} (hbracket : IsBracket first last opening closing)
    (h : Spells text lexemes) : Spells (first :: (text ++ [last])) (opening :: (lexemes ++ [closing])) :=
  enclosed hbracket (List.forall_mem_nil _) h

end Spells

end Lexeme

/-! ## Printing -/

namespace Json

open Lexeme (Spells isBracket_array isBracket_object isMark_colon)

mutual

/-- The lexemes that a value is written with. -/
def lexemes : Json → List Lexeme
  | null => [.scalar .null]
  | bool value => [.scalar (.bool value)]
  | number value => [.scalar (.number value)]
  | string value => [.text (some value)]
  | array items => .openArray :: ([Lexeme.comma].intercalate (itemLexemes items) ++ [.closeArray])
  | object fields => .openObject :: ([Lexeme.comma].intercalate (fieldLexemes fields) ++ [.closeObject])

def itemLexemes : List Json → List (List Lexeme)
  | [] => []
  | item :: rest => item.lexemes :: itemLexemes rest

def fieldLexemes : List (String × Json) → List (List Lexeme)
  | [] => []
  | (name, value) :: rest => (.text (some name) :: .colon :: value.lexemes) :: fieldLexemes rest

end

theorem spells_quoted (text : String) : Spells (quoted text).toList [.text (some text)] := by
  refine .single ?_ fun rest _ => Lexeme.first?_quoted text rest
  rw [quoted, String.toList_ofList]
  rfl

theorem spells_number {value : Number} (h : value.Printable) :
    Spells value.toText.toList [.scalar (.number value)] := by
  have hhead := Lexeme.head?_toText value
  refine .single ?_ fun rest hrest => ?_
  · have hstart := hhead []
    rw [List.append_nil] at hstart
    exact Lexeme.not_isSpace_of_starts hstart
  · rw [Lexeme.first?_of_starts (hhead rest), Lexeme.number?_toText hrest h, Option.map_some]

/-! ### Without spaces -/

theorem toList_enclosed (first last : String) (texts : List String) :
    (first ++ ",".intercalate texts ++ last).toList =
      first.toList ++ ([','].intercalate (texts.map String.toList) ++ last.toList) := by
  rw [String.toList_append, String.toList_append, String.toList_intercalate, List.append_assoc]
  rfl

mutual

/-- The compact text of a value spells its lexemes. -/
theorem spells_compact : ∀ value : Json, value.Printable → Spells (compact value).toList value.lexemes
  | null, _ => .single rfl fun _ _ => rfl
  | bool true, _ => .single rfl fun _ _ => rfl
  | bool false, _ => .single rfl fun _ _ => rfl
  | number _, h => spells_number h
  | string text, _ => spells_quoted text
  | array items, h => by
    rw [compact, toList_enclosed, lexemes]
    exact .inside isBracket_array (.intercalate (spells_compactItems items h))
  | object fields, h => by
    rw [compact, toList_enclosed, lexemes]
    exact .inside isBracket_object (.intercalate (spells_compactFields fields h))

theorem spells_compactItems : ∀ items : List Json, ItemsPrintable items →
    List.Forall₂ Spells ((compactItems items).map String.toList) (itemLexemes items)
  | [], _ => .nil
  | item :: rest, h => .cons (spells_compact item h.1) (spells_compactItems rest h.2)

theorem spells_compactFields : ∀ fields : List (String × Json), FieldsPrintable fields →
    List.Forall₂ Spells ((compactFields fields).map String.toList) (fieldLexemes fields)
  | [], _ => .nil
  | (name, value) :: rest, h => by
    refine .cons ?_ (spells_compactFields rest h.2)
    rw [String.toList_append, String.toList_append, List.append_assoc]
    exact (spells_quoted name).append_mark isMark_colon (spells_compact value h.1)

end

/-! ### Line by line -/

theorem isSpace_of_mem_lineStart {level : Nat} : ∀ c ∈ (lineStart level).toList, Lexeme.isSpace c = true := by
  intro c hc
  rw [lineStart, String.toList_append, List.mem_append] at hc
  rcases hc with hnewline | hmargin
  · obtain rfl := List.mem_singleton.mp hnewline
    rfl
  · rw [String.toList_ofList] at hmargin
    rw [List.eq_of_mem_replicate hmargin]
    rfl

/-- Lines between brackets spell what their texts spell. -/
theorem spells_bracketed {first last : String} {a b : Char} {opening closing : Lexeme}
    (hfirst : first.toList = [a]) (hlast : last.toList = [b]) (hbracket : Lexeme.IsBracket a b opening closing)
    {lines : List String} {parts : List (List Lexeme)}
    (h : List.Forall₂ Spells (lines.map String.toList) parts) (level : Nat) :
    Spells (bracketed level first last lines).toList
      (opening :: ([Lexeme.comma].intercalate parts ++ [closing])) := by
  rw [bracketed]
  cases lines with
  | nil =>
    cases h
    rw [List.isEmpty_nil, if_pos rfl, String.toList_append, hfirst, hlast]
    exact .inside hbracket .nil
  | cons line rest =>
    have hlines : List.Forall₂ Spells
        (((line :: rest).map (lineStart (level + 1) ++ ·)).map String.toList) parts := by
      rw [List.map_map, List.forall₂_map_left_iff]
      rw [List.forall₂_map_left_iff] at h
      refine h.imp fun text part hpart => ?_
      rw [Function.comp_apply, String.toList_append]
      exact hpart.spaces isSpace_of_mem_lineStart
    rw [List.isEmpty_cons, if_neg Bool.false_ne_true, String.append_assoc, toList_enclosed, hfirst,
      String.toList_append, hlast]
    exact .enclosed hbracket isSpace_of_mem_lineStart (.intercalate hlines)

mutual

/-- So does the text line by line, however far it is indented. -/
theorem spells_indented : ∀ (value : Json) (level : Nat), value.Printable →
    Spells (indented level value).toList value.lexemes
  | null, level, _ => by
    rw [indented]
    exact spells_compact null True.intro
  | bool value, level, _ => by
    rw [indented]
    exact spells_compact (bool value) True.intro
  | number _, _, h => spells_number h
  | string text, _, _ => spells_quoted text
  | array items, level, h => by
    rw [indented, lexemes]
    exact spells_bracketed rfl rfl isBracket_array (spells_indentedItems items (level + 1) h) level
  | object fields, level, h => by
    rw [indented, lexemes]
    exact spells_bracketed rfl rfl isBracket_object (spells_indentedFields fields (level + 1) h) level

theorem spells_indentedItems : ∀ (items : List Json) (level : Nat), ItemsPrintable items →
    List.Forall₂ Spells ((indentedItems level items).map String.toList) (itemLexemes items)
  | [], _, _ => .nil
  | item :: rest, level, h => .cons (spells_indented item level h.1) (spells_indentedItems rest level h.2)

theorem spells_indentedFields : ∀ (fields : List (String × Json)) (level : Nat), FieldsPrintable fields →
    List.Forall₂ Spells ((indentedFields level fields).map String.toList) (fieldLexemes fields)
  | [], _, _ => .nil
  | (name, value) :: rest, level, h => by
    have hspace : ∀ c ∈ [' '], Lexeme.isSpace c = true := List.forall_mem_singleton.mpr rfl
    refine .cons ?_ (spells_indentedFields rest level h.2)
    rw [String.toList_append, String.toList_append, List.append_assoc]
    exact (spells_quoted name).append_mark isMark_colon ((spells_indented value level h.1).spaces hspace)

end

end Json

/-! ## Reading -/

namespace Source

namespace Reading

theorem intercalate_cons {α : Type} (separator : α) (first : List α) (rest : List (List α)) :
    [separator].intercalate (first :: rest) = first ++ rest.flatMap (separator :: ·) := by
  induction rest generalizing first with
  | nil => rw [List.intercalate_singleton, List.flatMap_nil, List.append_nil]
  | cons next others ih =>
    rw [List.intercalate_cons_cons, ih, List.flatMap_cons, List.append_assoc, List.singleton_append, List.cons_append]

/-- Behind an opening bracket an item is read as behind a comma. -/
theorem run_itemOrEnd (item : Json) (frames : List Frame) (rest : List Lexeme) :
    run ⟨.itemOrEnd, frames⟩ (item.lexemes ++ rest) = run ⟨.value, .items [] :: frames⟩ (item.lexemes ++ rest) := by
  cases item <;> rfl

mutual

/-- Where a value may come, its lexemes bring it. -/
theorem run_lexemes : ∀ (value : Json) (frames : List Frame) (rest : List Lexeme),
    run ⟨.value, frames⟩ (value.lexemes ++ rest) = (deliver (.ofJson value) frames).run rest
  | .null, _, _ | .bool _, _, _ | .number _, _, _ | .string _, _, _ => rfl
  | .array [], _, _ | .object [], _, _ => rfl
  | .array (item :: items), frames, rest => by
    rw [Json.lexemes, Json.itemLexemes, intercalate_cons, List.cons_append, List.append_assoc, List.append_assoc]
    show run ⟨.itemOrEnd, frames⟩ _ = _
    rw [run_itemOrEnd, run_lexemes item]
    exact run_items items [ofJson item] frames rest
  | .object ((name, value) :: fields), frames, rest => by
    rw [Json.lexemes, Json.fieldLexemes, intercalate_cons, List.cons_append, List.append_assoc, List.append_assoc]
    show run ⟨.value, .fields [] (some name) :: frames⟩ (value.lexemes ++ _) = _
    rw [run_lexemes value]
    exact run_fields fields [(some name, ofJson value)] frames rest

/-- Further items, up to the end of the array. -/
theorem run_items : ∀ (items : List Json) (done : List Source) (frames : List Frame) (rest : List Lexeme),
    run ⟨.itemEnd done, frames⟩ ((Json.itemLexemes items).flatMap (Lexeme.comma :: ·) ++ ([.closeArray] ++ rest)) =
      (deliver (.array (done.reverse ++ ofItems items) true) frames).run rest
  | [], done, frames, rest => by
    rw [ofItems, List.append_nil]
    rfl
  | item :: items, done, frames, rest => by
    rw [Json.itemLexemes, List.flatMap_cons, List.append_assoc, List.cons_append]
    show run ⟨.value, .items done :: frames⟩ (item.lexemes ++ _) = _
    rw [run_lexemes item]
    show run ⟨.itemEnd (ofJson item :: done), frames⟩ _ = _
    rw [run_items items, List.reverse_cons, List.append_assoc, ofItems, List.singleton_append]

/-- Further fields, up to the end of the object. -/
theorem run_fields : ∀ (fields : List (String × Json)) (done : List (Option String × Source)) (frames : List Frame)
    (rest : List Lexeme),
    run ⟨.fieldEnd done, frames⟩ ((Json.fieldLexemes fields).flatMap (Lexeme.comma :: ·) ++ ([.closeObject] ++ rest)) =
      (deliver (.object (done.reverse ++ ofFields fields) true) frames).run rest
  | [], done, frames, rest => by
    rw [ofFields, List.append_nil]
    rfl
  | (name, value) :: fields, done, frames, rest => by
    rw [Json.fieldLexemes, List.flatMap_cons, List.append_assoc, List.cons_append]
    show run ⟨.value, .fields done (some name) :: frames⟩ (value.lexemes ++ _) = _
    rw [run_lexemes value]
    show run ⟨.fieldEnd ((some name, ofJson value) :: done), frames⟩ _ = _
    rw [run_fields fields, List.reverse_cons, List.append_assoc, ofFields, List.singleton_append]

end

end Reading

/-- A text that spells a value is read as that value and nothing behind it. -/
theorem read_of_spells {text : String} {value : Json} (h : Lexeme.Spells text.toList value.lexemes) :
    SourceText.read text = ⟨.ofJson value, true⟩ := by
  have hlexemes : Lexeme.ofText text.toList = value.lexemes ++ [] := by
    have hwhole := h [] rfl
    rwa [List.append_nil, Lexeme.ofText_eq []] at hwhole
  rw [SourceText.read, hlexemes, Reading.run_lexemes]
  rfl

/-- A value is read back from its compact text. -/
theorem read_compact {value : Json} (h : value.Printable) : SourceText.read value.compact = ⟨.ofJson value, true⟩ :=
  read_of_spells (Json.spells_compact value h)

/-- A value is read back from its text line by line. -/
theorem read_pretty {value : Json} (h : value.Printable) : SourceText.read value.pretty = ⟨.ofJson value, true⟩ :=
  read_of_spells (Json.spells_indented value 0 h)

end Source

end SmithyKotlin
