import SmithyKotlin.Proofs.Naming.Casing
import SmithyKotlin.Proofs.Structure.Planning
import SmithyKotlin.Proofs.Symbol.Mentions
import SmithyKotlin.Structure.Emission

/-!
# What `toString` prints

* `Kotlin.interpolations`: the lines of `toString` are string templates of Kotlin, which are read here for the names
  whose values they print.
* `Property.sensitive_ofMember`: a value is redacted when its member or the target of the member is marked as
  sensitive (`Member.isMarked`).
* `Member.holdsSensitive_iff`: marks further down are not seen; a list or map of sensitive values is printed as a
  whole (`Member.WrapsSensitive`).
* `plan_printedLines`: which values each line prints, and when none of them is sensitive (`PrintedLine`).

What an object of another class prints when it is asked for its text is not looked at.
-/

namespace SmithyKotlin

namespace Kotlin

/-! ## String templates -/

/-- Letters and underscores start a name; beyond ASCII every character counts as a letter. -/
def isNameStart (c : Char) : Bool := c.isAlpha || c = '_' || 128 ≤ c.toNat

def isNamePart (c : Char) : Bool := isNameStart c || c.isDigit

def isName (name : String) : Bool :=
  match name.toList with
  | [] => false
  | c :: rest => isNameStart c && rest.all isNamePart

/-- The expressions whose values a template has: a name behind a dollar, or what stands in braces there.  The
character behind a backslash is taken as it is. -/
def interpolations : List Char → List String
  | [] => []
  | '\\' :: rest => interpolations rest.tail
  | '$' :: '\x7b' :: rest =>
    String.ofList (rest.takeWhile (· ≠ '\x7d')) :: interpolations (rest.dropWhile (· ≠ '\x7d'))
  | '$' :: rest =>
    if rest.head?.any isNameStart then
      String.ofList (rest.takeWhile isNamePart) :: interpolations (rest.dropWhile isNamePart)
    else interpolations rest
  | _ :: rest => interpolations rest
termination_by cs => cs.length
decreasing_by
  all_goals simp only [List.length_cons, List.length_tail]
  · omega
  · exact Nat.lt_succ_of_le (Nat.le_succ_of_le (List.dropWhile_sublist _).length_le)
  · exact Nat.lt_succ_of_le (List.dropWhile_sublist _).length_le
  · omega
  · omega

variable {c : Char} {cs rest : List Char}

theorem interpolations_cons (hdollar : c ≠ '$') (hbackslash : c ≠ '\\') (rest : List Char) :
    interpolations (c :: rest) = interpolations rest :=
  interpolations.eq_5 c rest hbackslash (fun _ h => absurd h hdollar) hdollar

/-- Text that stands in a template as it is. -/
def IsVerbatim (text : List Char) : Prop := ∀ c ∈ text, c ≠ '$' ∧ c ≠ '\\'

-- character by character, and not by trying all the characters there are
instance (text : List Char) : Decidable (IsVerbatim text) := List.decidableBAll _ text

theorem interpolations_append_of_isVerbatim {plain : List Char} (hplain : IsVerbatim plain)
    (rest : List Char) : interpolations (plain ++ rest) = interpolations rest := by
  induction plain with
  | nil => rfl
  | cons c others ih =>
    obtain ⟨⟨hdollar, hbackslash⟩, hothers⟩ := List.forall_mem_cons.mp hplain
    rw [List.cons_append, interpolations_cons hdollar hbackslash, ih hothers]

/-- Without a dollar nothing is interpolated. -/
theorem interpolations_of_not_mem (h : '$' ∉ cs) : interpolations cs = [] := by
  fun_induction interpolations cs with
  | case1 => rfl
  | case2 rest ih => exact ih fun hmem => h (List.mem_cons_of_mem _ (List.mem_of_mem_tail hmem))
  | case3 => exact absurd List.mem_cons_self h
  | case4 => exact absurd List.mem_cons_self h
  | case5 => exact absurd List.mem_cons_self h
  | case6 c rest _ _ _ ih => exact ih fun hmem => h (List.mem_cons_of_mem _ hmem)

theorem isName_iff {name : String} : isName name = true ↔
    ∃ c rest, name.toList = c :: rest ∧ isNameStart c = true ∧ ∀ d ∈ rest, isNamePart d = true := by
  rw [isName]
  cases name.toList with
  | nil => simp
  | cons c rest => simp

theorem isNamePart_of_mem {name : String} (hname : isName name = true) (hc : c ∈ name.toList) :
    isNamePart c = true := by
  obtain ⟨d, rest, hlist, hd, hrest⟩ := isName_iff.mp hname
  rw [hlist] at hc
  rcases List.mem_cons.mp hc with rfl | hc
  · rw [isNamePart, hd, Bool.true_or]
  · exact hrest c hc

/-- A name behind a dollar ends where the next character cannot go on with it. -/
theorem interpolations_name {name : String} (hname : isName name = true)
    (hrest : rest.head?.any isNamePart = false) :
    interpolations ('$' :: (name.toList ++ rest)) = name :: interpolations rest := by
  obtain ⟨c, others, hlist, hc, _⟩ := isName_iff.mp hname
  obtain ⟨htake, hdrop⟩ := Text.takeWhile_append_of_head? (fun d hd => isNamePart_of_mem hname hd) hrest
  have hhead : (name.toList ++ rest).head?.any isNameStart = true := by
    rw [hlist]
    exact hc
  have hbrace : ∀ others, name.toList ++ rest ≠ '\x7b' :: others := by
    intro others heq
    rw [heq, List.head?_cons, Option.any_some] at hhead
    exact absurd hhead (by decide)
  rw [interpolations.eq_4 _ hbrace, if_pos hhead, htake, hdrop, String.ofList_toList]

/-- What stands in braces behind a dollar ends with the first brace that closes. -/
theorem interpolations_braces {inner : String} (hinner : '\x7d' ∉ inner.toList) (rest : List Char) :
    interpolations ('$' :: '\x7b' :: (inner.toList ++ '\x7d' :: rest)) = inner :: interpolations rest := by
  have hrun : ∀ c ∈ inner.toList, decide (c ≠ '\x7d') = true := fun c hc =>
    decide_eq_true fun heq => hinner (heq ▸ hc)
  have hclose : ('\x7d' :: rest).head?.any (fun c => decide (c ≠ '\x7d')) = false := rfl
  obtain ⟨htake, hdrop⟩ := Text.takeWhile_append_of_head? hrun hclose
  rw [interpolations.eq_3, htake, hdrop, String.ofList_toList, interpolations_cons (by decide) (by decide)]

example : interpolations "a=$a, b=$\x7bb.c\x7d, c=\\$c, 5$".toList = ["a", "b.c"] := by decide +kernel

theorem ne_of_isNamePart (h : isNamePart c = true) : c ≠ '$' ∧ c ≠ '\\' ∧ c ≠ '\x7d' := by
  refine ⟨?_, ?_, ?_⟩
  · rintro rfl
    exact absurd h (by decide)
  · rintro rfl
    exact absurd h (by decide)
  · rintro rfl
    exact absurd h (by decide)

end Kotlin

open Kotlin

/-! ## Printed values -/

/-- The expressions whose values an instruction prints. -/
def Instruction.printed : Instruction → List String
  | write line => interpolations line.toList
  | openBlock header => interpolations header.toList
  | closeBlock footer => interpolations footer.toList
  | _ => []

namespace Property

variable {property : Property}

theorem name_eq_or (property : Property) :
    property.name = Naming.camelCase property.member ∨
      property.name = Naming.quoted (Naming.camelCase property.member) := by
  rw [name, Naming.propertyName]
  generalize Naming.camelCase property.member = cased
  by_cases hkeyword : cased ∈ Naming.hardKeywords
  · exact .inr (Naming.escapeIdentifier_of_mem hkeyword)
  · exact .inl (Naming.escapeIdentifier_of_not_mem hkeyword)

theorem toList_quoted (name : String) :
    (Naming.quoted name).toList = backtick :: (name.toList ++ [backtick]) := by
  rw [Naming.quoted, String.toList_append, String.toList_append]
  rfl

variable (hname : isName (Naming.camelCase property.member) = true)

include hname

/-- The name of a property has nothing but parts of names and backticks. -/
theorem part_of_mem_name {c : Char} (hc : c ∈ property.name.toList) : isNamePart c = true ∨ c = backtick := by
  rcases name_eq_or property with heq | heq
  · rw [heq] at hc
    exact .inl (isNamePart_of_mem hname hc)
  · rw [heq, toList_quoted, List.mem_cons, List.mem_append, List.mem_singleton] at hc
    rcases hc with hc | hc | hc
    · exact .inr hc
    · exact .inl (isNamePart_of_mem hname hc)
    · exact .inr hc

theorem plain_of_mem_name {c : Char} (hc : c ∈ property.name.toList) : c ≠ '$' ∧ c ≠ '\\' ∧ c ≠ '\x7d' := by
  rcases part_of_mem_name hname hc with hpart | rfl
  · exact ne_of_isNamePart hpart
  · decide

theorem isVerbatim_plainName : IsVerbatim property.plainName.toList := by
  intro c hc
  rw [plainName, String.toList_ofList, List.mem_reverse] at hc
  have hreverse := (List.dropWhile_sublist _).subset hc
  have hmem := (List.dropWhile_sublist _).subset (List.mem_reverse.mp hreverse)
  obtain ⟨hdollar, hbackslash, _⟩ := plain_of_mem_name hname hmem
  exact ⟨hdollar, hbackslash⟩

/-- A template interpolates the property, unless it is the redacted one. -/
theorem interpolations_template {rest : List Char} (hrest : rest.head?.any isNamePart = false) :
    interpolations (property.template.toList ++ rest) =
      (if property.sensitive then [] else [property.name]) ++ interpolations rest := by
  rw [template]
  cases property.sensitive with
  | true =>
    have hredacted : IsVerbatim redacted.toList := by decide +kernel
    exact interpolations_append_of_isVerbatim hredacted rest
  | false =>
    rw [if_neg Bool.false_ne_true, if_neg Bool.false_ne_true]
    rcases name_eq_or property with heq | heq
    · obtain ⟨c, others, hlist, hc, _⟩ := isName_iff.mp hname
      have hhead : property.name.toList.head? ≠ some backtick := by
        rw [heq, hlist, List.head?_cons]
        rintro ⟨rfl⟩
        exact absurd hc (by decide)
      have hnamed : isName property.name = true := by
        rw [heq]
        exact hname
      have hdollar : "$".toList = ['$'] := rfl
      rw [if_neg hhead, String.toList_append, List.append_assoc, hdollar, List.singleton_append,
        List.singleton_append, interpolations_name hnamed hrest]
    · -- the backticks of a keyword are no part of a name, so braces stand around them
      have hhead : property.name.toList.head? = some backtick := by
        rw [heq, toList_quoted, List.head?_cons]
      have hbrace : '\x7d' ∉ property.name.toList := fun hmem => (plain_of_mem_name hname hmem).2.2 rfl
      have hopen : "$\x7b".toList = ['$', '\x7b'] := rfl
      have hclose : "\x7d".toList = ['\x7d'] := rfl
      rw [if_pos hhead, String.toList_append, String.toList_append, List.append_assoc, List.append_assoc, hopen,
        hclose, List.cons_append, List.singleton_append, List.singleton_append, List.singleton_append,
        interpolations_braces hbrace]

/-- The line of a property prints the property, or nothing when it is redacted. -/
theorem printed_emitAppend {separator : String} (hseparator : separator ∈ ["", ","]) :
    (property.emitAppend separator).printed = if property.sensitive then [] else [property.name] := by
  have hstart : IsVerbatim "append(\"".toList := by decide +kernel
  have hrest : ∀ separator ∈ ["", ","], (separator ++ "\")").toList.head?.any isNamePart = false ∧
      interpolations (separator ++ "\")").toList = [] := by
    decide +kernel
  obtain ⟨hhead, hnothing⟩ := hrest separator hseparator
  have hline : ("append(\"" ++ property.plainName ++ "=" ++ property.template ++ separator ++ "\")").toList =
      "append(\"".toList ++ (property.plainName.toList ++
        '=' :: (property.template.toList ++ (separator ++ "\")").toList)) := by
    simp only [String.toList_append, List.append_assoc]
    rfl
  show interpolations ("append(\"" ++ property.plainName ++ "=" ++ property.template ++ separator
    ++ "\")").toList = _
  rw [hline, interpolations_append_of_isVerbatim hstart,
    interpolations_append_of_isVerbatim (isVerbatim_plainName hname),
    interpolations_cons (by decide) (by decide), interpolations_template hname hhead, hnothing, List.append_nil]

end Property

/-! ## Marks -/

variable {model : Model} {member : Member}

def Shape.IsSensitive (shape : Shape) : Prop := shape.traits.contains Trait.sensitive = true

/-- The shape is marked as sensitive, or holds one that is, at any depth. -/
def Shape.HoldsSensitive (model : Model) (shape : Shape) : Prop :=
  ∃ inner, model.Holds shape inner ∧ inner.IsSensitive

namespace Member

/-- The member or its target is marked as sensitive. -/
def isMarked (model : Model) (member : Member) : Bool :=
  member.isSensitive || (model.get? member.target).any (·.traits.contains Trait.sensitive)

/-- The member is marked, or what it targets holds something that is. -/
def HoldsSensitive (model : Model) (member : Member) : Prop :=
  member.isSensitive = true ∨ ∃ target, model.get? member.target = some target ∧ target.HoldsSensitive model

/-- The target is a list or map with something sensitive in it. -/
def WrapsSensitive (model : Model) (member : Member) : Prop :=
  ∃ target, model.get? member.target = some target ∧
    ∃ name ∈ target.slots, ∃ slot element, target.member? name = some slot ∧
      model.get? slot.target = some element ∧ element.HoldsSensitive model

theorem holdsSensitive_iff :
    member.HoldsSensitive model ↔ member.isMarked model = true ∨ member.WrapsSensitive model := by
  rw [HoldsSensitive, WrapsSensitive, isMarked, Bool.or_eq_true, or_assoc]
  refine or_congr_right ?_
  cases hget : model.get? member.target with
  | none => simp
  | some target =>
    simp only [Option.some.injEq, exists_eq_left', Option.any_some, Shape.HoldsSensitive]
    constructor
    · rintro ⟨inner, hholds, hsensitive⟩
      rcases Model.holds_iff.mp hholds with rfl | ⟨name, hslot, slot, element, hmember, helement, hinner⟩
      · exact .inl hsensitive
      · exact .inr ⟨name, hslot, slot, element, hmember, helement, inner, hinner, hsensitive⟩
    · rintro (hsensitive | ⟨name, hslot, slot, element, hmember, helement, inner, hinner, hsensitive⟩)
      · exact ⟨target, .self target, hsensitive⟩
      · exact ⟨inner, .slot hslot hmember helement hinner, hsensitive⟩

end Member

theorem Property.sensitive_ofMember {symbols : SymbolProvider} {error : Bool} {property : Property}
    (h : ofMember model symbols error member = .ok property) : property.sensitive = member.isMarked model := by
  obtain ⟨target, htarget, h⟩ := bind_eq_ok_iff.mp h
  obtain ⟨symbol, _, h⟩ := bind_eq_ok_iff.mp h
  cases h
  rw [Member.isMarked, Model.find_eq_ok_iff.mp htarget]
  rfl

/-! ## The method -/

/-- The line of a member in `toString`, for a member whose property has a name of Kotlin. -/
structure PrintedLine (model : Model) (member : Member) (line : Instruction) : Prop where
  /-- The value is printed unless the member or its target is marked. -/
  names : line.printed = if member.isMarked model then [] else [Naming.propertyName member.name]
  /-- A printed value holds nothing sensitive, but for members whose target has it inside. -/
  safe : (Naming.propertyName member.name ∈ line.printed → ¬ member.HoldsSensitive model) ↔
    member.isMarked model = true ∨ ¬ member.WrapsSensitive model

theorem printedLine_of_names {line : Instruction}
    (hnames : line.printed = if member.isMarked model then [] else [Naming.propertyName member.name]) :
    PrintedLine model member line := by
  refine ⟨hnames, ?_⟩
  rw [hnames, Member.holdsSensitive_iff]
  cases member.isMarked model <;> simp

namespace StructureDeclaration

theorem emitAppends_cons (property : Property) (rest : List Property) :
    ∃ separator ∈ ["", ","], emitAppends (property :: rest) =
      property.emitAppend separator :: emitAppends rest := by
  cases rest with
  | nil => exact ⟨"", by decide, rfl⟩
  | cons => exact ⟨",", by decide, rfl⟩

theorem printedLines_emitAppends {symbols : SymbolProvider} {error : Bool} {members : List Member}
    {properties : List Property}
    (h : List.Forall₂ (fun member property => Property.ofMember model symbols error member = .ok property)
      members properties) :
    List.Forall₂ (fun member line =>
        isName (Naming.camelCase member.name) = true → PrintedLine model member line)
      members (emitAppends properties) := by
  induction h with
  | nil => exact .nil
  | @cons member property members properties hproperty _ ih =>
    obtain ⟨separator, hseparator, hlines⟩ := emitAppends_cons property properties
    rw [hlines]
    refine .cons (fun hname => printedLine_of_names ?_) ih
    rw [← Property.member_ofMember hproperty] at hname ⊢
    rw [Property.printed_emitAppend hname hseparator, Property.sensitive_ofMember hproperty]
    rfl

/-- A line with the name of the class prints no value. -/
theorem printed_className {name : String} (hname : '$' ∉ name.toList) {before behind : String}
    (hbefore : '$' ∉ before.toList) (hbehind : '$' ∉ behind.toList) :
    (Instruction.write (before ++ name ++ behind)).printed = [] := by
  refine interpolations_of_not_mem ?_
  rw [String.toList_append, String.toList_append, List.mem_append, List.mem_append]
  exact not_or.mpr ⟨not_or.mpr ⟨hbefore, hname⟩, hbehind⟩

/-- What stands around the lines of the members: the name of the class, and parentheses. -/
theorem emitToString_eq (declaration : StructureDeclaration) : ∃ start ending,
    declaration.emitToString = start ++ emitAppends declaration.properties ++ ending ∧
      ('$' ∉ declaration.symbol.name.toList → (start ++ ending).flatMap Instruction.printed = []) := by
  rw [emitToString]
  cases declaration.properties with
  | nil =>
    refine ⟨[.write ("override fun toString(): kotlin.String = \"" ++ declaration.symbol.name ++ "()\"")], [],
      rfl, fun hname => ?_⟩
    rw [List.append_nil, List.flatMap_singleton, printed_className hname (by decide +kernel) (by decide +kernel)]
  | cons property rest =>
    have hheader : (Instruction.openBlock
        "override fun toString(): kotlin.String = buildString \x7b").printed = [] := by
      decide +kernel
    have hending : [Instruction.write "append(\")\")", .closeBlock "\x7d"].flatMap Instruction.printed = [] := by
      decide +kernel
    refine ⟨[.openBlock "override fun toString(): kotlin.String = buildString \x7b",
        .write ("append(\"" ++ declaration.symbol.name ++ "(\")")],
      [.write "append(\")\")", .closeBlock "\x7d"], ?_, fun hname => ?_⟩
    · rw [List.isEmpty_cons, if_neg Bool.false_ne_true, block]
      simp only [List.cons_append, List.nil_append, List.append_assoc]
    · rw [List.flatMap_append, hending, List.flatMap_cons, List.flatMap_singleton, hheader,
        printed_className hname (by decide +kernel) (by decide +kernel)]
      rfl

end StructureDeclaration

/-- Of a structure that can be planned `toString` has one line for each member, which prints the value of its
property unless the member or its target is marked as sensitive, and prints no other values.  So it shows nothing
sensitive exactly when no list or map that it prints has something sensitive in it. -/
theorem plan_printedLines (model : Model) (symbols : SymbolProvider) (settings : Settings) (id : ShapeId)
    (shape : Shape) (declaration : StructureDeclaration) (hget : model.get? id = some shape)
    (hplan : StructureDeclaration.plan model symbols settings id = .ok declaration) :
    ∃ start lines ending, declaration.emitToString = start ++ lines ++ ending ∧
      ('$' ∉ declaration.symbol.name.toList → (start ++ ending).flatMap Instruction.printed = []) ∧
      List.Forall₂ (fun member line =>
          isName (Naming.camelCase member.name) = true → PrintedLine model member line)
        shape.members lines := by
  have htype := StructureDeclaration.type_of_plan hget hplan
  obtain ⟨start, ending, hmethod, hnothing⟩ := declaration.emitToString_eq
  exact ⟨start, _, ending, hmethod, hnothing, StructureDeclaration.printedLines_emitAppends
    (StructureDeclaration.properties_of_plan hget htype hplan)⟩

/-! ## Tokens in a list -/

namespace PrintedLine

/-- A text that is not to be seen. -/
def token : Shape :=
  { id := ⟨"com.example#Token"⟩, type := .string
    traits := SortedMap.empty.insert Trait.sensitive Json.emptyObject }

def tokens : Shape :=
  { id := ⟨"com.example#Tokens"⟩, type := .list
    members := [.of ⟨"com.example#Tokens"⟩ "member" token.id] }

/-- A structure with a token, and one with a list of tokens. -/
def session : Shape :=
  { id := ⟨"com.example#Session"⟩, type := .struct
    members := [.of ⟨"com.example#Session"⟩ "object" ⟨"smithy.api#String"⟩,
      .of ⟨"com.example#Session"⟩ "token" token.id] }

def keyring : Shape :=
  { id := ⟨"com.example#Keyring"⟩, type := .struct
    members := [.of ⟨"com.example#Keyring"⟩ "tokens" tokens.id] }

def tokenModel : Model :=
  ((((Model.insert {} { id := ⟨"smithy.api#String"⟩, type := .string }).insert token).insert tokens).insert
    session).insert keyring

def tokenSettings : Settings := { packageName := "com.example", runtimeVersion := "1.0.0" }

theorem get?_session : tokenModel.get? session.id = some session := by
  rw [tokenModel, Model.get?_insert, if_neg (by decide), Model.get?_insert, if_pos rfl]

theorem plan_printedLines_session :
    ∃ declaration, StructureDeclaration.plan tokenModel (.kotlin tokenSettings) tokenSettings session.id =
        .ok declaration ∧
      declaration.emitToString.map Instruction.printed = [[], [], ["`object`"], [], [], []] ∧
      (∀ member ∈ session.members, isName (Naming.camelCase member.name) = true) ∧
      ∃ start lines ending, declaration.emitToString = start ++ lines ++ ending ∧
        (start ++ ending).flatMap Instruction.printed = [] ∧
        List.Forall₂ (fun member line =>
            isName (Naming.camelCase member.name) = true → PrintedLine tokenModel member line)
          session.members lines := by
  have hseen : (StructureDeclaration.plan tokenModel (.kotlin tokenSettings) tokenSettings
      session.id).toOption.map (fun declaration =>
        (declaration.emitToString.map Instruction.printed, declaration.symbol.name)) =
      some ([[], [], ["`object`"], [], [], []], "Session") := by
    decide +kernel
  obtain ⟨declaration, hplan, hparts⟩ := map_toOption_eq_some_iff.mp hseen
  obtain ⟨hprinted, hclass⟩ := Prod.mk.inj hparts
  obtain ⟨start, lines, ending, hmethod, hnothing, hlines⟩ := plan_printedLines tokenModel
    (.kotlin tokenSettings) tokenSettings session.id session declaration get?_session hplan
  refine ⟨declaration, hplan, hprinted, by decide +kernel, start, lines, ending, hmethod, hnothing ?_, hlines⟩
  rw [hclass]
  decide +kernel

/-- The list of tokens is printed as a whole. -/
theorem not_safe_keyring :
    (∀ member ∈ keyring.members, member.HoldsSensitive tokenModel) ∧
      ∃ declaration, StructureDeclaration.plan tokenModel (.kotlin tokenSettings) tokenSettings keyring.id =
          .ok declaration ∧
        .write "append(\"tokens=$tokens\")" ∈ declaration.emitToString ∧
        (Instruction.write "append(\"tokens=$tokens\")").printed = ["tokens"] := by
  have htoken : tokenModel.get? token.id = some token := by
    rw [tokenModel, Model.get?_insert, if_neg (by decide), Model.get?_insert, if_neg (by decide),
      Model.get?_insert, if_neg (by decide), Model.get?_insert, if_pos rfl]
  have htokens : tokenModel.get? tokens.id = some tokens := by
    rw [tokenModel, Model.get?_insert, if_neg (by decide), Model.get?_insert, if_neg (by decide),
      Model.get?_insert, if_pos rfl]
  have hsensitive : token.IsSensitive := by
    show token.traits.contains Trait.sensitive = true
    decide +kernel
  constructor
  · intro member hmem
    rw [List.mem_singleton.mp hmem]
    exact .inr ⟨tokens, htokens, token,
      .slot List.mem_cons_self (List.find?_cons_of_pos rfl) htoken (.self token), hsensitive⟩
  · have hseen : (StructureDeclaration.plan tokenModel (.kotlin tokenSettings) tokenSettings
        keyring.id).toOption.map (fun declaration =>
          decide (.write "append(\"tokens=$tokens\")" ∈ declaration.emitToString)) = some true := by
      decide +kernel
    obtain ⟨declaration, hplan, hmem⟩ := map_toOption_eq_some_iff.mp hseen
    exact ⟨declaration, hplan, of_decide_eq_true hmem, by decide +kernel⟩

end PrintedLine

end SmithyKotlin
