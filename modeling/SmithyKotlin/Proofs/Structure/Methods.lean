import Mathlib.Data.String.Basic
import SmithyKotlin.Structure.Emission

/-!
# The methods of a structure

`StructureDeclaration.hashCodeMethod` and `StructureDeclaration.equalsMethod` are `hashCode` and `equals` as syntax
(`Kotlin.Expression`, `Kotlin.Statement`).  Every name without a qualifier is there with what it is meant for, a
property of the class or something that the method itself brings in (`Kotlin.Meaning`).

Written out, the syntax gives the instructions of the declaration: `StructureDeclaration.emit_hashCodeMethod` and
`StructureDeclaration.emit_equalsMethod`.  So what is shown of the syntax is shown of the text; what the syntax
means is left to `Proofs/Structure/Evaluation`.
-/

namespace SmithyKotlin

namespace Kotlin

/-! ## Syntax -/

/-- What a name without a qualifier stands for. -/
inductive Meaning where
  /-- A property of the class. -/
  | property
  /-- A variable or parameter of the method. -/
  | binding
  deriving DecidableEq, Repr

inductive Expression where
  /-- A name without a qualifier. -/
  | name (meaning : Meaning) (text : String)
  | self
  | literal (text : String)
  /-- A property or call of the receiver; if `safe`, null gives null. -/
  | select (receiver : Expression) (safe : Bool) (text : String)
  | classOf (receiver : Expression)
  | binary (lhs : Expression) (operator : String) (rhs : Expression)
  | contentEquals (lhs rhs : Expression)
  | negated (value : Expression)
  | grouped (value : Expression)
  deriving DecidableEq, Repr

inductive Statement where
  /-- A new variable. -/
  | declare (name : String) (value : Expression)
  | assign (name : String) (value : Expression)
  /-- Leaves the method with a result, under a condition. -/
  | leaveIf (condition result : Expression)
  /-- From here on the name has the type. -/
  | cast (name type : String)
  | give (result : Expression)
  | blank
  deriving DecidableEq, Repr

inductive Body where
  | expression (value : Expression)
  | statements (list : List Statement)
  deriving DecidableEq, Repr

/-- A method that overrides one of the superclass. -/
structure Method where
  name : String
  /-- The parameters with their types. -/
  parameters : List (String × String)
  result : String
  body : Body
  deriving DecidableEq, Repr

/-! ## Text -/

def Expression.text : Expression → String
  | name _ text => text
  | self => "this"
  | literal text => text
  | select receiver safe text => receiver.text ++ (if safe then "?." else ".") ++ text
  | classOf receiver => receiver.text ++ "::class"
  | binary lhs operator rhs => lhs.text ++ " " ++ operator ++ " " ++ rhs.text
  | contentEquals lhs rhs => lhs.text ++ ".contentEquals(" ++ rhs.text ++ ")"
  | negated value => "!" ++ value.text
  | grouped value => "(" ++ value.text ++ ")"

def Statement.instruction : Statement → Instruction
  | declare name value => .write ("var " ++ name ++ " = " ++ value.text)
  | assign name value => .write (name ++ " = " ++ value.text)
  | leaveIf condition result => .write ("if (" ++ condition.text ++ ") return " ++ result.text)
  | cast name type => .write (name ++ " as " ++ type)
  | give result => .write ("return " ++ result.text)
  | blank => .blank

namespace Method

def signature (method : Method) : String :=
  "override fun " ++ method.name ++ "("
    ++ ", ".intercalate (method.parameters.map fun entry => entry.1 ++ ": " ++ entry.2) ++ "): "
    ++ method.result

def emit (method : Method) : List Instruction :=
  match method.body with
  | .expression value => [.write (method.signature ++ " = " ++ value.text)]
  | .statements list => block (method.signature ++ " \x7b") "\x7d" (list.map Statement.instruction)

end Method

end Kotlin

open Kotlin

/-! ## The syntax of a strategy -/

namespace Strategy

/-- The hash of a value. -/
def hash (strategy : Strategy) (value : Expression) : Expression :=
  match strategy.basis, strategy.nullable with
  | .numeric, false => value
  | .numeric, true => .binary value "?:" (.literal "0")
  | basis, false => .select value false (hashCall basis)
  | basis, true => .binary (.select value true (hashCall basis)) "?:" (.literal "0")

/-- Whether two values differ. -/
def difference (strategy : Strategy) (lhs rhs : Expression) : Expression :=
  match strategy.basis with
  | .content => .negated (.contentEquals lhs rhs)
  | .identity => .binary lhs "!==" rhs
  | _ => .binary lhs "!=" rhs

theorem text_hash (strategy : Strategy) (value : Expression) :
    (strategy.hash value).text = strategy.hashExpression value.text := by
  obtain ⟨basis, nullable⟩ := strategy
  cases nullable with
  | false => cases basis <;> rfl
  | true =>
    cases basis with
    | numeric =>
      show value.text ++ " " ++ "?:" ++ " " ++ "0" = value.text ++ " ?: 0"
      simp only [String.append_assoc]
      rfl
    | _ =>
      simp only [hash, Expression.text, hashExpression, String.append_assoc]
      rfl

theorem text_difference (strategy : Strategy) (lhs rhs : Expression) :
    (strategy.difference lhs rhs).text = strategy.differExpression lhs.text rhs.text := by
  obtain ⟨basis, nullable⟩ := strategy
  cases basis with
  | content => simp only [difference, Expression.text, differExpression, String.append_assoc]
  | _ =>
    simp only [difference, Expression.text, differExpression, String.append_assoc]
    rfl

end Strategy

/-! ## The syntax of the methods -/

namespace Property

/-- The property by its bare name. -/
def reference (property : Property) : Expression := .name .property property.name

/-- Mixes the hash of the property into the result. -/
def mix (property : Property) : Statement :=
  .assign "result" (.binary (.binary (.literal "31") "*" (.name .binding "result")) "+"
    (.grouped (property.strategy.hash property.reference)))

/-- Compares the property with that of the other value. -/
def compare (property : Property) : Statement :=
  .leaveIf (property.strategy.difference property.reference
    (.select (.name .binding "other") false property.name)) (.literal "false")

theorem instruction_mix (property : Property) :
    property.mix.instruction = .write
      ("result = 31 * result + (" ++ property.strategy.hashExpression property.name ++ ")") := by
  have htext := property.strategy.text_hash property.reference
  show Instruction.write ("result" ++ " = " ++ ("31" ++ " " ++ "*" ++ " " ++ "result" ++ " " ++ "+"
    ++ " " ++ ("(" ++ (property.strategy.hash property.reference).text ++ ")"))) = _
  rw [htext]
  simp only [← String.append_assoc]
  rfl

theorem instruction_compare (property : Property) :
    property.compare.instruction = .write
      ("if (" ++ property.strategy.differExpression property.name ("other." ++ property.name)
        ++ ") return false") := by
  have htext := property.strategy.text_difference property.reference
    (.select (.name .binding "other") false property.name)
  show Instruction.write ("if (" ++ (property.strategy.difference property.reference
    (.select (.name .binding "other") false property.name)).text ++ ") return " ++ "false") = _
  rw [htext, String.append_assoc]
  rfl

end Property

namespace StructureDeclaration

def hashCodeMethod (declaration : StructureDeclaration) : Method where
  name := "hashCode"
  parameters := []
  result := "kotlin.Int"
  body :=
    match declaration.properties with
    | [] => .expression (.select (.classOf .self) false "hashCode()")
    | first :: rest =>
      .statements (.declare "result" (first.strategy.hash first.reference) ::
        rest.map Property.mix ++ [.give (.name .binding "result")])

/-- What `equals` does before it looks at properties. -/
def checksOfOther : List Statement :=
  [.leaveIf (.binary .self "===" (.name .binding "other")) (.literal "true"),
    .leaveIf (.binary (.binary (.name .binding "other") "==" (.literal "null")) "||"
      (.binary (.classOf .self) "!=" (.classOf (.name .binding "other")))) (.literal "false")]

def comparisons (declaration : StructureDeclaration) : List Statement :=
  if declaration.properties.isEmpty then []
  else [.blank, .cast "other" declaration.symbol.name, .blank]
    ++ declaration.properties.map Property.compare

def equalsMethod (declaration : StructureDeclaration) : Method where
  name := "equals"
  parameters := [("other", "kotlin.Any?")]
  result := "kotlin.Boolean"
  body := .statements
    (checksOfOther ++ declaration.comparisons ++ [.blank, .give (.literal "true")])

theorem emit_hashCodeMethod (declaration : StructureDeclaration) :
    declaration.hashCodeMethod.emit = declaration.emitHashCode := by
  rw [emitHashCode, hashCodeMethod, Method.emit]
  cases declaration.properties with
  | nil => rfl
  | cons first rest =>
    have hfirst : "var " ++ "result" ++ " = " ++ (first.strategy.hash first.reference).text =
        "var result = " ++ first.strategy.hashExpression first.name := by
      rw [Strategy.text_hash]
      rfl
    have hrest : (rest.map Property.mix).map Statement.instruction = rest.map fun property =>
        .write ("result = 31 * result + (" ++ property.strategy.hashExpression property.name
          ++ ")") := by
      rw [List.map_map]
      exact List.map_congr_left fun property _ => property.instruction_mix
    dsimp only
    rw [List.map_append, List.map_cons, hrest, Statement.instruction, hfirst]
    rfl

theorem emit_equalsMethod (declaration : StructureDeclaration) :
    declaration.equalsMethod.emit = declaration.emitEquals := by
  have hcomparisons : declaration.comparisons.map Statement.instruction =
      declaration.emitComparisons := by
    rw [comparisons, emitComparisons]
    split
    · rfl
    · rw [List.map_append, List.map_map]
      congr 1
      exact List.map_congr_left fun property _ => property.instruction_compare
  rw [emitEquals, equalsMethod, Method.emit]
  dsimp only
  rw [List.map_append, List.map_append, hcomparisons]
  rfl

end StructureDeclaration

end SmithyKotlin
