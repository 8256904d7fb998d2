import SmithyKotlin.Proofs.Naming.Spelling
import SmithyKotlin.Proofs.Structure.Planning
import SmithyKotlin.Structure.Emission

/-!
# The message of an error

The exceptions that errors extend have a `message`, so a property of that name has to override it and no other one
can.

* `Naming.propertyName_eq_message_iff`: the property is called so for four spellings of the word
  (`messageSpellings`).
* `Property.overridesMessage_ofMember`: it is marked for any case of its letters.
* `Naming.message_iff`: so the two agree on the four spellings and on the names that are neither such a spelling nor
  cased to the word.
* `StructureDeclaration.plan_messageMarks`: this for every string member of an error, down to the text of the header
  (`MessageMark`).
-/

namespace SmithyKotlin

/-! ## Names -/

namespace Naming

/-- The spellings of the word in one piece whose property is called `message`. -/
def messageSpellings : List String := ["message", "mESSAGE", "Message", "MESSAGE"]

theorem asciiLower_of_mem_messageSpellings :
    ∀ name ∈ messageSpellings, Text.asciiLower name = "message" := by
  decide +kernel

theorem hasOneCapital_message : ∀ c ∈ ['m', 'e', 's', 's', 'a', 'g', 'e'], Text.HasOneCapital c := by
  simp [Text.HasOneCapital]

theorem propertyName_eq_message_iff_camelCase {name : String} :
    propertyName name = "message" ↔ camelCase name = "message" := by
  have hword : escapeIdentifier "message" = "message" := by
    decide +kernel
  have hkeywords : ∀ keyword ∈ hardKeywords, "message" ≠ quoted keyword ∧ "message" ≠ keyword := by
    decide +kernel
  have hsame : propertyName name = "message" ↔ escapeIdentifier (camelCase name) = escapeIdentifier "message" := by
    rw [hword]
    rfl
  rw [hsame, escapeIdentifier_eq_iff, or_iff_left_iff_imp]
  intro h
  obtain ⟨keyword, hkeyword, ⟨_, h⟩ | ⟨h, _⟩⟩ := h
  · exact absurd h (hkeywords keyword hkeyword).1
  · exact absurd h (hkeywords keyword hkeyword).2

/-- A property is called `message` when casing has the word with one capital or in capitals. -/
theorem propertyName_eq_message_iff {name : String} :
    propertyName name = "message" ↔ pascalCase name ∈ ["Message", "MESSAGE"] := by
  rw [propertyName_eq_message_iff_camelCase, List.mem_pair]
  exact camelCase_eq_iff hasOneCapital_message

theorem propertyName_eq_message_iff_of_asciiLower {name : String} (h : Text.asciiLower name = "message") :
    propertyName name = "message" ↔ name ∈ messageSpellings := by
  have hspelled := camelCase_eq_asciiLower_iff hasOneCapital_message h
  simp only [List.mem_pair, exists_eq_or_imp, exists_eq_left, or_assoc] at hspelled
  rw [propertyName_eq_message_iff_camelCase, messageSpellings]
  simp only [List.mem_cons, List.not_mem_nil, or_false]
  exact hspelled

/-- The word in any case and the name of the property agree on these names. -/
theorem message_iff {name : String} :
    (Text.asciiLower name = "message" ↔ propertyName name = "message") ↔
      name ∈ messageSpellings ∨
        Text.asciiLower name ≠ "message" ∧ pascalCase name ∉ ["Message", "MESSAGE"] := by
  rw [← propertyName_eq_message_iff]
  by_cases hlower : Text.asciiLower name = "message"
  · rw [propertyName_eq_message_iff_of_asciiLower hlower]
    simp only [hlower, true_iff, ne_eq, not_true, false_and, or_false]
  · have hspelling := mt (asciiLower_of_mem_messageSpellings name) hlower
    simp only [hlower, hspelling, false_iff, ne_eq, not_false_eq_true, true_and, false_or]

end Naming

/-! ## Properties -/

/-- How the property of a member of an error goes together with the message of the exception. -/
structure MessageMark (member : Member) (property : Property) : Prop where
  /-- The mark goes by the name of the member in any case. -/
  marked : property.overridesMessage = true ↔ Text.asciiLower member.name = "message"
  /-- The name of the property goes by the casing. -/
  named : property.name = "message" ↔ Naming.pascalCase member.name ∈ ["Message", "MESSAGE"]
  agree : (property.overridesMessage = true ↔ property.name = "message") ↔
    member.name ∈ Naming.messageSpellings ∨
      Text.asciiLower member.name ≠ "message" ∧ Naming.pascalCase member.name ∉ ["Message", "MESSAGE"]
  /-- The parameter of the constructor overrides exactly where the mark is. -/
  written : (∃ type, property.parameter = "override val " ++ property.name ++ ": " ++ type) ↔
    property.overridesMessage = true

namespace Property

theorem parameter_overrides_iff {property : Property} :
    (∃ type, property.parameter = "override val " ++ property.name ++ ": " ++ type) ↔
      property.overridesMessage = true := by
  constructor
  · intro h
    obtain ⟨type, htype⟩ := h
    by_contra hmark
    rw [parameter, if_neg hmark] at htype
    have hfirst := congrArg (fun text => text.toList.head?) htype
    simp only [String.toList_append, List.append_assoc] at hfirst
    exact absurd (show some 'p' = some 'o' from hfirst) (by decide)
  · intro hmark
    rw [parameter, if_pos hmark]
    exact ⟨_, String.append_assoc⟩

/-- The mark of a member that targets a text. -/
theorem overridesMessage_ofMember {model : Model} {symbols : SymbolProvider} {member : Member}
    {property : Property} {target : Shape} (htarget : model.get? member.target = some target)
    (htext : target.type = .string) (h : ofMember model symbols true member = .ok property) :
    property.overridesMessage = Text.sameIgnoringAsciiCase member.name "message" := by
  rw [ofMember, Model.find_eq_ok_iff.mpr htarget, ok_bind] at h
  obtain ⟨symbol, _, h⟩ := bind_eq_ok_iff.mp h
  cases h
  simp [htext]

theorem messageMark_ofMember {model : Model} {symbols : SymbolProvider} {member : Member}
    {property : Property} {target : Shape} (htarget : model.get? member.target = some target)
    (htext : target.type = .string) (h : ofMember model symbols true member = .ok property) :
    MessageMark member property := by
  have hword : Text.asciiLower "message" = "message" :=
    Naming.asciiLower_of_mem_messageSpellings "message" List.mem_cons_self
  have hmarked : property.overridesMessage = true ↔ Text.asciiLower member.name = "message" := by
    rw [overridesMessage_ofMember htarget htext h, Text.sameIgnoringAsciiCase, beq_iff_eq, hword]
  have hname : property.name = Naming.propertyName member.name := by
    rw [Property.name, member_ofMember h]
  refine ⟨hmarked, ?_, ?_, parameter_overrides_iff⟩
  · rw [hname]
    exact Naming.propertyName_eq_message_iff
  · rw [hmarked, hname]
    exact Naming.message_iff

end Property

/-! ## Errors -/

namespace StructureDeclaration

/-- Each property has its line in the header. -/
theorem parameter_in_header {declaration : StructureDeclaration} {property : Property}
    (hmem : property ∈ declaration.properties) :
    ∃ before behind, declaration.header = before ++ "    " ++ property.parameter ++ ",\n" ++ behind := by
  have hsome : declaration.properties.isEmpty = false := by
    rw [List.isEmpty_eq_false_iff_exists_mem]
    exact ⟨property, hmem⟩
  obtain ⟨first, last, hsplit⟩ := List.append_of_mem hmem
  rw [header, hsome, if_neg Bool.false_ne_true, hsplit, List.map_append, List.map_cons, String.join_append,
    String.join_cons]
  refine ⟨"public class " ++ declaration.symbol.name ++ "(\n"
      ++ String.join (first.map fun p => "    " ++ p.parameter ++ ",\n"),
    String.join (last.map fun p => "    " ++ p.parameter ++ ",\n") ++ ")"
      ++ (declaration.superclass.elim "" fun symbol => " : " ++ symbol.referenceText ++ "()") ++ " \x7b", ?_⟩
  simp only [String.append_assoc]

/-- In the class of an error each property of a text is written with the mark that its member has, and the mark
goes together with the name of the property for the names of members that `Naming.message_iff` describes. -/
theorem plan_messageMarks (model : Model) (symbols : SymbolProvider) (settings : Settings) (id : ShapeId)
    (shape : Shape) (hget : model.get? id = some shape) (herror : shape.isError = true) :
    ∀ declaration, plan model symbols settings id = .ok declaration →
      .openBlock declaration.header ∈ declaration.emit ∧
      (∀ property ∈ declaration.properties, ∃ before behind,
        declaration.header = before ++ "    " ++ property.parameter ++ ",\n" ++ behind) ∧
      List.Forall₂ (fun member property => ∀ target, model.get? member.target = some target →
          target.type = .string → MessageMark member property)
        shape.members declaration.properties := by
  intro declaration hplan
  have hproperties := properties_of_plan hget (type_of_plan hget hplan) hplan
  rw [herror] at hproperties
  refine ⟨?_, fun _ hmem => parameter_in_header hmem, hproperties.imp fun member property hproperty => ?_⟩
  · exact List.mem_append_right _ List.mem_cons_self
  · intro target htarget htext
    exact Property.messageMark_ofMember htarget htext hproperty

/-! ## Two spellings -/

/-- An error whose members are texts. -/
def rejection (names : List String) : Shape :=
  { id := ⟨"com.example#Rejection"⟩, type := .struct
    members := names.map fun name => .of ⟨"com.example#Rejection"⟩ name ⟨"smithy.api#String"⟩
    traits := SortedMap.empty.insert Trait.error (.string "client") }

def rejectionModel (names : List String) : Model :=
  (Model.insert {} { id := ⟨"smithy.api#String"⟩, type := .string }).insert (rejection names)

def rejectionSettings : Settings := { packageName := "com.example", runtimeVersion := "1.0.0" }

theorem get?_rejection (names : List String) :
    (rejectionModel names).get? ⟨"com.example#Rejection"⟩ = some (rejection names) := by
  rw [rejectionModel, Model.get?_insert]
  exact if_pos rfl

/-- What is planned for the error, and its header. -/
def rejectionPlan (names : List String) : Except CodegenError StructureDeclaration :=
  plan (rejectionModel names) (.kotlin rejectionSettings) rejectionSettings ⟨"com.example#Rejection"⟩

theorem plan_messageMarks_rejection :
    (rejection ["Message", "reason"]).isError = true ∧
      ∃ declaration, rejectionPlan ["Message", "reason"] = .ok declaration ∧
        declaration.header = "public class Rejection(\n    override val message: kotlin.String? = null,\n"
          ++ "    public val reason: kotlin.String? = null,\n) : ServiceException() \x7b" ∧
        List.Forall₂ (fun member property => ∀ target,
            (rejectionModel ["Message", "reason"]).get? member.target = some target →
              target.type = .string → MessageMark member property)
          (rejection ["Message", "reason"]).members declaration.properties := by
  have herror : (rejection ["Message", "reason"]).isError = true := by
    decide +kernel
  have hseen : (rejectionPlan ["Message", "reason"]).toOption.map header =
      some ("public class Rejection(\n    override val message: kotlin.String? = null,\n"
        ++ "    public val reason: kotlin.String? = null,\n) : ServiceException() \x7b") := by
    decide +kernel
  obtain ⟨declaration, hplan, hheader⟩ := map_toOption_eq_some_iff.mp hseen
  exact ⟨herror, declaration, hplan, hheader,
    (plan_messageMarks (rejectionModel ["Message", "reason"]) (.kotlin rejectionSettings) rejectionSettings
      ⟨"com.example#Rejection"⟩ _ (get?_rejection _) herror declaration hplan).2.2⟩

/-- A property called `message` that overrides nothing, and another one that is to override what is not there. -/
theorem not_agree_rejection :
    (rejection ["_message", "messagE"]).isError = true ∧
      ∃ declaration, rejectionPlan ["_message", "messagE"] = .ok declaration ∧
        declaration.properties.map (fun property => (property.name, property.overridesMessage)) =
          [("message", false), ("messagE", true)] ∧
        declaration.header = "public class Rejection(\n    public val message: kotlin.String? = null,\n"
          ++ "    override val messagE: kotlin.String? = null,\n) : ServiceException() \x7b" := by
  have hseen : (rejectionPlan ["_message", "messagE"]).toOption.map (fun declaration =>
      (declaration.properties.map (fun property => (property.name, property.overridesMessage)),
        declaration.header)) =
      some ([("message", false), ("messagE", true)],
        "public class Rejection(\n    public val message: kotlin.String? = null,\n"
          ++ "    override val messagE: kotlin.String? = null,\n) : ServiceException() \x7b") := by
    decide +kernel
  obtain ⟨declaration, hplan, hparts⟩ := map_toOption_eq_some_iff.mp hseen
  obtain ⟨hmarks, hheader⟩ := Prod.mk.inj hparts
  exact ⟨by decide +kernel, declaration, hplan, hmarks, hheader⟩

end StructureDeclaration

end SmithyKotlin
