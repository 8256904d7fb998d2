import SmithyKotlin.Structure.Basic

/-!
# Writing structure declarations

`StructureDeclaration.emit` are the instructions that write a class: its `header` with the constructor properties,
then `emitToString`, `emitHashCode` and `emitEquals`.  A sensitive property is printed as `redacted`.

What is written is a matter of the plan alone, but for the imports: those are made when the instructions are run
(`Writer.run`).
-/

namespace SmithyKotlin

namespace Property

/-- What is printed for a value that must not be seen. -/
def redacted : String := "*** Sensitive Data Redacted ***"

/-- The mark around a name that is a keyword. -/
def backtick : Char := '\x60'

/-- The name without backticks at its ends. -/
def plainName (property : Property) : String :=
  let rest := property.name.toList.dropWhile (· = backtick)
  String.ofList (rest.reverse.dropWhile (· = backtick)).reverse

/-- The value inside a string template; a name in backticks needs braces. -/
def template (property : Property) : String :=
  if property.sensitive then redacted
  else if property.name.toList.head? = some backtick then "$\x7b" ++ property.name ++ "\x7d"
  else "$" ++ property.name

/-- The parameter of the constructor. -/
def parameter (property : Property) : String :=
  (if property.overridesMessage then "override val " else "public val ") ++ property.name ++ ": "
    ++ property.symbol.referenceText ++ (property.default.elim "" (" = " ++ ·))

/-- The tag that documents the property in the comment of the class. -/
def documentationTag? (property : Property) : Option String :=
  property.documentation.map fun text => "@property " ++ property.name ++ " " ++ Text.trim text

def emitAppend (property : Property) (separator : String) : Instruction :=
  .write ("append(\"" ++ property.plainName ++ "=" ++ property.template ++ separator ++ "\")")

end Property

namespace StructureDeclaration

/-- The documentation of the class followed by the tags of its documented properties. -/
def classDocumentation? (declaration : StructureDeclaration) : Option String :=
  let tags := "\n".intercalate (declaration.properties.filterMap Property.documentationTag?)
  let tagged := declaration.properties.any (·.documentation.isSome)
  match declaration.documentation, tagged with
  | documentation, false => documentation
  | none, true => some tags
  | some text, true => some (Text.trim text ++ "\n\n" ++ tags)

/-- The symbols that the header refers to: the superclass first, then the properties. -/
def referencedSymbols (declaration : StructureDeclaration) : List Symbol :=
  declaration.superclass.toList ++ declaration.properties.map (·.symbol)

/-- The text of the header, which has a line for each property. -/
def header (declaration : StructureDeclaration) : String :=
  let supertype := declaration.superclass.elim "" fun symbol => " : " ++ symbol.referenceText ++ "()"
  if declaration.properties.isEmpty then
    "public class " ++ declaration.symbol.name ++ supertype ++ " \x7b"
  else
    "public class " ++ declaration.symbol.name ++ "(\n"
      ++ String.join (declaration.properties.map fun p => "    " ++ p.parameter ++ ",\n")
      ++ ")" ++ supertype ++ " \x7b"

/-- The lines that print the properties, a comma behind all but the last. -/
def emitAppends : List Property → List Instruction
  | [] => []
  | [property] => [property.emitAppend ""]
  | property :: rest => property.emitAppend "," :: emitAppends rest

def emitToString (declaration : StructureDeclaration) : List Instruction :=
  if declaration.properties.isEmpty then
    [.write ("override fun toString(): kotlin.String = \"" ++ declaration.symbol.name ++ "()\"")]
  else
    block "override fun toString(): kotlin.String = buildString \x7b" "\x7d"
      (.write ("append(\"" ++ declaration.symbol.name ++ "(\")") ::
        emitAppends declaration.properties ++ [.write "append(\")\")"])

def emitHashCode (declaration : StructureDeclaration) : List Instruction :=
  match declaration.properties with
  | [] => [.write "override fun hashCode(): kotlin.Int = this::class.hashCode()"]
  | first :: rest =>
    block "override fun hashCode(): kotlin.Int \x7b" "\x7d"
      (.write ("var result = " ++ first.strategy.hashExpression first.name) ::
        rest.map (fun property => .write
          ("result = 31 * result + (" ++ property.strategy.hashExpression property.name ++ ")"))
        ++ [.write "return result"])

/-- The comparison of all properties with those of `other`. -/
def emitComparisons (declaration : StructureDeclaration) : List Instruction :=
  if declaration.properties.isEmpty then []
  else
    [.blank, .write ("other as " ++ declaration.symbol.name), .blank]
      ++ declaration.properties.map fun property => .write
        ("if (" ++ property.strategy.differExpression property.name ("other." ++ property.name)
          ++ ") return false")

def emitEquals (declaration : StructureDeclaration) : List Instruction :=
  block "override fun equals(other: kotlin.Any?): kotlin.Boolean \x7b" "\x7d"
    ([.write "if (this === other) return true",
      .write "if (other == null || this::class != other::class) return false"]
      ++ declaration.emitComparisons ++ [.blank, .write "return true"])

/-- The instructions that write the declaration. -/
def emit (declaration : StructureDeclaration) : List Instruction :=
  emitDocumentation declaration.classDocumentation? declaration.deprecated
    ++ declaration.referencedSymbols.map .reference
    ++ block declaration.header "\x7d"
      (declaration.emitToString ++ .blank :: declaration.emitHashCode ++ .blank ::
        declaration.emitEquals)

end StructureDeclaration

end SmithyKotlin
