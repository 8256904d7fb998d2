import SmithyKotlin.Proofs.Writer.Lines
import SmithyKotlin.Structure.Emission
import SmithyKotlin.Union.Emission

/-!
# The lines of declarations

Each emitter is gone through once here, for all that is said of the lines of a class.

* `UnionDeclaration.writtenLines_emit`: a union has its annotation, its header, the lines of each variant, that of
  the catch-all and the two accessors of each variant (`classSignature`, `assertSignature`, `optionalSignature`).
* `UnionDeclaration.linesStarting_emit`: what is kept of them by ways to start that none of the lines in between has.
* `StructureDeclaration.writtenLines_emit`: a structure has its annotation and its header, and all lines behind start
  like those of its three methods (`methodStarts`).
-/

namespace SmithyKotlin

/-- How the lines of methods start. -/
def methodStarts : List String :=
  ["override fun ", "append(", "var result = ", "result = ", "return ", "if (", "other as "]

/-! ## Unions -/

namespace UnionDeclaration

/-- The type of a value as it stands in the class. -/
def valueType (declaration : UnionDeclaration) (variant : Variant) : String :=
  (valueReference declaration.variantNames variant.symbol).text

/-- The type of a value that may be null. -/
def optionalValueType (declaration : UnionDeclaration) (variant : Variant) : String :=
  (valueReference declaration.variantNames (variant.symbol.asNullable variant.symbol.boxed)).text

/-- The line of the nested class of a variant, which may be followed by its own comparison. -/
def classSignature (declaration : UnionDeclaration) (variant : Variant) : String :=
  let line := "public data class " ++ variant.name ++ "(val value: " ++ declaration.valueType variant ++ ") : "
    ++ declaration.symbol.qualifiedName ++ "()"
  if variant.strategy.needsOwnEquality then line ++ " \x7b" else line

/-- The line of the accessor that asserts the variant. -/
def assertSignature (declaration : UnionDeclaration) (variant : Variant) : String :=
  "public fun " ++ variant.assertAccessor ++ "(): " ++ declaration.valueType variant ++ " = (this as "
    ++ (declaration.symbol.qualifiedName ++ "." ++ variant.name) ++ ").value"

/-- The line of the accessor that answers null for another variant. -/
def optionalSignature (declaration : UnionDeclaration) (variant : Variant) : String :=
  "public fun " ++ variant.optionalAccessor ++ "(): " ++ declaration.optionalValueType variant ++ " = (this as? "
    ++ (declaration.symbol.qualifiedName ++ "." ++ variant.name) ++ ")?.value"

theorem startsIn_classSignature (declaration : UnionDeclaration) (variant : Variant) :
    startsIn ["public data class "] (declaration.classSignature variant) = true := by
  unfold classSignature
  split
  all_goals
    simp only [String.append_assoc]
    exact startsIn_append (by decide) _

theorem startsIn_assertSignature (declaration : UnionDeclaration) (variant : Variant) :
    startsIn ["public fun "] (declaration.assertSignature variant) = true := by
  unfold assertSignature
  simp only [String.append_assoc]
  exact startsIn_append (by decide) _

theorem startsIn_optionalSignature (declaration : UnionDeclaration) (variant : Variant) :
    startsIn ["public fun "] (declaration.optionalSignature variant) = true := by
  unfold optionalSignature
  simp only [String.append_assoc]
  exact startsIn_append (by decide) _

/-- The comparison that a variant has of its own. -/
theorem linesStart_emitEquality (variant : Variant) : LinesStart methodStarts (emitEquality variant) := by
  have hreturn (text : String) : startsIn methodStarts ("return " ++ text) = true :=
    startsIn_append (by decide) text
  have hcast (text : String) : startsIn methodStarts ("other as " ++ text) = true :=
    startsIn_append (by decide) text
  have hhash : LinesStart methodStarts (block "override fun hashCode(): kotlin.Int \x7b" "\x7d"
      [.write ("return " ++ variant.strategy.hashExpression "value")]) :=
    .block (by decide) _ (.write (hreturn _) .nil)
  refine hhash.append (.blank (.block (by decide) _ ?_))
  exact .write (by decide) (.write (by decide) (.blank (.write (hcast _) (.blank (.write (hreturn _) .nil)))))

@[simp] theorem writtenLines_valueReference (shadowed : List String) (symbol : Symbol) (rest : List Instruction) :
    writtenLines ((valueReference shadowed symbol).instruction :: rest) = writtenLines rest := by
  rw [valueReference]
  split <;> rfl

theorem writtenLines_emitVariant (declaration : UnionDeclaration) (variant : Variant) :
    writtenLines (emitVariant declaration.symbol.qualifiedName declaration.variantNames variant) =
      (variant.deprecated.map annotationLine).toList ++ declaration.classSignature variant ::
        if variant.strategy.needsOwnEquality then writtenLines (emitEquality variant) else [] := by
  unfold emitVariant
  rw [writtenLines_append, writtenLines_emitDocumentation, writtenLines_valueReference]
  unfold classSignature
  cases variant.strategy.needsOwnEquality with
  | true =>
    rw [if_pos rfl, if_pos rfl, if_pos rfl, writtenLines_block]
    rfl
  | false => rfl

theorem writtenLines_emitAccessors (declaration : UnionDeclaration) (variant : Variant) :
    writtenLines (emitAccessors declaration.symbol.qualifiedName declaration.variantNames variant) =
      [declaration.assertSignature variant, declaration.optionalSignature variant] := by
  rw [emitAccessors, writtenLines_valueReference, writtenLines_valueReference]
  rfl

/-- The header of the class. -/
def header (declaration : UnionDeclaration) : String := "public sealed class " ++ declaration.symbol.name ++ " \x7b"

/-- The line of the catch-all variant. -/
def unknownLine (declaration : UnionDeclaration) : String :=
  "public object " ++ declaration.unknownName ++ " : " ++ declaration.symbol.qualifiedName ++ "()"

theorem writtenLines_emit (declaration : UnionDeclaration) :
    writtenLines declaration.emit =
      (declaration.deprecated.map annotationLine).toList ++ declaration.header ::
        (declaration.variants.flatMap (fun variant =>
            writtenLines (emitVariant declaration.symbol.qualifiedName declaration.variantNames variant)) ++
          declaration.unknownLine :: declaration.variants.flatMap fun variant =>
            [declaration.assertSignature variant, declaration.optionalSignature variant]) := by
  simp only [emit, emitBody, emitUnknown, writtenLines_append, writtenLines_emitDocumentation, writtenLines_block,
    writtenLines_flatMap, writtenLines_blank, writtenLines_doc, writtenLines_write, writtenLines_emitAccessors,
    writtenLines_nil, List.append_nil, List.append_assoc, List.singleton_append]
  rfl

variable {kept : List String}

/-- Of the lines of a variant those of its comparison are not kept. -/
theorem linesStarting_emitVariant (hmethods : Apart kept methodStarts) (declaration : UnionDeclaration)
    (variant : Variant) :
    linesStarting kept (emitVariant declaration.symbol.qualifiedName declaration.variantNames variant) =
      ((variant.deprecated.map annotationLine).toList ++ [declaration.classSignature variant]).filter
        (startsIn kept) := by
  have hequality : linesStarting kept (emitEquality variant) = [] :=
    (linesStart_emitEquality variant).linesStarting_eq_nil hmethods
  rw [linesStarting, writtenLines_emitVariant]
  split
  · rw [List.append_cons, List.filter_append, ← linesStarting, hequality, List.append_nil]
  · rfl

/-- What is kept of a union by ways to start that neither methods nor the lines around the variants have. -/
theorem linesStarting_emit (haround : Apart kept ["public sealed class ", "public object "])
    (hmethods : Apart kept methodStarts) (declaration : UnionDeclaration) :
    linesStarting kept declaration.emit =
      (declaration.deprecated.map annotationLine).toList.filter (startsIn kept) ++
        (declaration.variants.flatMap (fun variant =>
            ((variant.deprecated.map annotationLine).toList ++ [declaration.classSignature variant]).filter
              (startsIn kept)) ++
          declaration.variants.flatMap fun variant =>
            [declaration.assertSignature variant, declaration.optionalSignature variant].filter
              (startsIn kept)) := by
  have hheader : ¬ startsIn kept declaration.header = true := by
    refine ne_true_of_eq_false (startsIn_eq_false ?_ haround)
    unfold header
    simp only [String.append_assoc]
    exact startsIn_append (by decide) _
  have hunknown : ¬ startsIn kept declaration.unknownLine = true := by
    refine ne_true_of_eq_false (startsIn_eq_false ?_ haround)
    unfold unknownLine
    simp only [String.append_assoc]
    exact startsIn_append (by decide) _
  have hvariants : (declaration.variants.flatMap fun variant =>
      (writtenLines (emitVariant declaration.symbol.qualifiedName declaration.variantNames variant)).filter
        (startsIn kept)) = declaration.variants.flatMap fun variant =>
      ((variant.deprecated.map annotationLine).toList ++ [declaration.classSignature variant]).filter
        (startsIn kept) :=
    List.flatMap_congr fun variant _ => linesStarting_emitVariant hmethods declaration variant
  rw [linesStarting, writtenLines_emit, List.filter_append, List.filter_cons_of_neg hheader, List.filter_append,
    List.filter_cons_of_neg hunknown, List.filter_flatMap, List.filter_flatMap, hvariants]

end UnionDeclaration

/-! ## Structures -/

namespace StructureDeclaration

theorem linesStart_emitAppends (properties : List Property) : LinesStart methodStarts (emitAppends properties) := by
  have happend (property : Property) (separator : String) : startsIn methodStarts ("append(\"" ++
      property.plainName ++ "=" ++ property.template ++ separator ++ "\")") = true := by
    simp only [String.append_assoc]
    exact startsIn_append (by decide) _
  induction properties with
  | nil => exact .nil
  | cons property rest ih =>
    cases rest with
    | nil => exact .write (happend property "") .nil
    | cons next others => exact .write (happend property ",") ih

theorem linesStart_emitToString (declaration : StructureDeclaration) :
    LinesStart methodStarts declaration.emitToString := by
  have hempty : startsIn methodStarts ("override fun toString(): kotlin.String = \"" ++ declaration.symbol.name
      ++ "()\"") = true := by
    simp only [String.append_assoc]
    exact startsIn_append (by decide) _
  have hfirst : startsIn methodStarts ("append(\"" ++ declaration.symbol.name ++ "(\")") = true := by
    simp only [String.append_assoc]
    exact startsIn_append (by decide) _
  rw [emitToString]
  split
  · exact .write hempty .nil
  · exact .block (by decide) _ (.append (.write hfirst (linesStart_emitAppends _)) (.write (by decide) .nil))

theorem linesStart_emitHashCode (declaration : StructureDeclaration) :
    LinesStart methodStarts declaration.emitHashCode := by
  have hresult (text : String) : startsIn methodStarts ("var result = " ++ text) = true :=
    startsIn_append (by decide) text
  have hstep (property : Property) : startsIn methodStarts ("result = 31 * result + ("
      ++ property.strategy.hashExpression property.name ++ ")") = true := by
    simp only [String.append_assoc]
    exact startsIn_append (by decide) _
  rw [emitHashCode]
  split
  · exact .write (by decide) .nil
  · exact .block (by decide) _ (.append (.write (hresult _) (.map_write hstep _)) (.write (by decide) .nil))

theorem linesStart_emitEquals (declaration : StructureDeclaration) :
    LinesStart methodStarts declaration.emitEquals := by
  have hcast (text : String) : startsIn methodStarts ("other as " ++ text) = true :=
    startsIn_append (by decide) text
  have hdiffer (property : Property) : startsIn methodStarts ("if ("
      ++ property.strategy.differExpression property.name ("other." ++ property.name)
      ++ ") return false") = true := by
    simp only [String.append_assoc]
    exact startsIn_append (by decide) _
  have hcomparisons : LinesStart methodStarts declaration.emitComparisons := by
    rw [emitComparisons]
    split
    · exact .nil
    · exact .append (.blank (.write (hcast _) (.blank .nil))) (.map_write hdiffer _)
  have hsame : LinesStart methodStarts [.write "if (this === other) return true",
      .write "if (other == null || this::class != other::class) return false"] :=
    .write (by decide) (.write (by decide) .nil)
  exact .block (by decide) _ ((hsame.append hcomparisons).append (.blank (.write (by decide) .nil)))

/-- Behind the annotation and the header there are only methods. -/
theorem writtenLines_emit (declaration : StructureDeclaration) :
    ∃ methods, LinesStart methodStarts methods ∧ writtenLines declaration.emit =
      (declaration.deprecated.map annotationLine).toList ++ declaration.header :: writtenLines methods := by
  have hreferences : writtenLines (declaration.referencedSymbols.map .reference) = [] := by
    induction declaration.referencedSymbols with
    | nil => rfl
    | cons symbol rest ih => exact (writtenLines_cons_of_none rfl _).trans ih
  refine ⟨_, ((linesStart_emitToString declaration).append (.blank (linesStart_emitHashCode declaration))).append
    (.blank (linesStart_emitEquals declaration)), ?_⟩
  rw [emit, writtenLines_append, writtenLines_append, writtenLines_emitDocumentation, hreferences, List.append_nil,
    writtenLines_block]

theorem startsIn_header (declaration : StructureDeclaration) :
    startsIn ["public class "] declaration.header = true := by
  unfold header
  split
  all_goals
    simp only [String.append_assoc]
    exact startsIn_append (by decide) _

/-- What is kept of a structure by ways to start that neither its header nor its methods have. -/
theorem linesStarting_emit {kept : List String} (hclass : Apart kept ["public class "])
    (hmethods : Apart kept methodStarts) (declaration : StructureDeclaration) :
    linesStarting kept declaration.emit =
      (declaration.deprecated.map annotationLine).toList.filter (startsIn kept) := by
  obtain ⟨methods, hstarts, hlines⟩ := writtenLines_emit declaration
  have hheader : ¬ startsIn kept declaration.header = true :=
    ne_true_of_eq_false (startsIn_eq_false declaration.startsIn_header hclass)
  rw [linesStarting, hlines, List.filter_append, List.filter_cons_of_neg hheader, ← linesStarting,
    hstarts.linesStarting_eq_nil hmethods, List.append_nil]

end StructureDeclaration

end SmithyKotlin
