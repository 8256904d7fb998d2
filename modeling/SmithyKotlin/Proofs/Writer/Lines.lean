import Mathlib.Data.List.Basic
import SmithyKotlin.Writer.Documentation

/-!
# Written lines

What is said of the text of a declaration is mostly said of some of its lines, and these are told from the
others by how they start.

* `writtenLines` has the lines that instructions write alone or as headers, in their order, and
  `linesStarting` those of them that start in one of some ways; both go through instructions part by part
  (`writtenLines_append`, `writtenLines_block`, `writtenLines_flatMap`).
* `LinesStart` says that all lines start in one of some ways.  Where no start of one list goes with a start of
  another one (`Apart`), no line is kept by both (`LinesStart.linesStarting_eq_nil`).
* Of a comment with documentation and deprecation the annotation is the only line
  (`writtenLines_emitDocumentation`).

The footers of blocks, the lines of comments and the indentation are left out.
-/

namespace SmithyKotlin

/-! ## Starts of lines -/

/-- The line starts in one of these ways. -/
def startsIn (starts : List String) (line : String) : Bool :=
  starts.any fun start => start.toList.isPrefixOf line.toList

/-- No line can start in one of the first ways and in one of the second: any two of them differ somewhere. -/
def Apart (first second : List String) : Prop :=
  ∀ a ∈ first, ∀ b ∈ second, (a.toList.zip b.toList).any (fun pair => pair.1 != pair.2) = true

instance (first second : List String) : Decidable (Apart first second) :=
  inferInstanceAs (Decidable (∀ a ∈ first, ∀ b ∈ second,
    (a.toList.zip b.toList).any (fun pair => pair.1 != pair.2) = true))

theorem isPrefixOf_append_eq_false {first second : List Char}
    (hdiffer : (first.zip second).any (fun pair => pair.1 != pair.2) = true) (rest : List Char) :
    first.isPrefixOf (second ++ rest) = false := by
  induction first generalizing second with
  | nil => cases hdiffer
  | cons c first ih =>
    cases second with
    | nil => cases hdiffer
    | cons d second =>
      rw [List.zip_cons_cons, List.any_cons, Bool.or_eq_true] at hdiffer
      rw [List.cons_append, List.isPrefixOf]
      rcases hdiffer with hhead | htail
      · rw [beq_eq_false_iff_ne.mpr (bne_iff_ne.mp hhead), Bool.false_and]
      · rw [ih htail, Bool.and_false]

theorem startsIn_iff {starts : List String} {line : String} :
    startsIn starts line = true ↔ ∃ start ∈ starts, ∃ rest, line = start ++ rest := by
  simp only [startsIn, List.any_eq_true, List.isPrefixOf_iff_prefix]
  refine exists_congr fun start => and_congr_right fun _ => ⟨fun h => ?_, fun h => ?_⟩
  · obtain ⟨rest, hrest⟩ := h
    refine ⟨String.ofList rest, String.toList_inj.mp ?_⟩
    rw [String.toList_append, String.toList_ofList, hrest]
  · obtain ⟨rest, rfl⟩ := h
    exact ⟨rest.toList, String.toList_append.symm⟩

/-- What stands behind the start of a line does not matter. -/
theorem startsIn_append {starts : List String} {line : String} (h : startsIn starts line = true) (rest : String) :
    startsIn starts (line ++ rest) = true := by
  obtain ⟨start, hmem, behind, rfl⟩ := startsIn_iff.mp h
  exact startsIn_iff.mpr ⟨start, hmem, behind ++ rest, String.append_assoc⟩

theorem startsIn_mono {starts more : List String} {line : String} (h : startsIn starts line = true)
    (hmore : ∀ start ∈ starts, start ∈ more) : startsIn more line = true := by
  obtain ⟨start, hmem, rest⟩ := startsIn_iff.mp h
  exact startsIn_iff.mpr ⟨start, hmore start hmem, rest⟩

theorem startsIn_eq_false {starts kept : List String} {line : String} (hstarts : startsIn starts line = true)
    (hapart : Apart kept starts) : startsIn kept line = false := by
  obtain ⟨start, hmem, rest, rfl⟩ := startsIn_iff.mp hstarts
  refine List.any_eq_false.mpr fun other hother => ne_true_of_eq_false ?_
  rw [String.toList_append]
  exact isPrefixOf_append_eq_false (hapart other hother start hmem) rest.toList

/-! ## Lines of instructions -/

/-- The line that an instruction writes, alone or as the header of a block. -/
def Instruction.line? : Instruction → Option String
  | write line => some line
  | openBlock header => some header
  | _ => none

/-- The lines that instructions write alone or as headers. -/
def writtenLines (instructions : List Instruction) : List String := instructions.filterMap Instruction.line?

/-- Those of the lines that start in one of these ways. -/
def linesStarting (starts : List String) (instructions : List Instruction) : List String :=
  (writtenLines instructions).filter (startsIn starts)

@[simp] theorem writtenLines_nil : writtenLines [] = [] := rfl

@[simp] theorem writtenLines_append (first second : List Instruction) :
    writtenLines (first ++ second) = writtenLines first ++ writtenLines second :=
  List.filterMap_append

@[simp] theorem writtenLines_write (line : String) (rest : List Instruction) :
    writtenLines (.write line :: rest) = line :: writtenLines rest := rfl

theorem writtenLines_cons_of_none {instruction : Instruction} (hnone : instruction.line? = none)
    (rest : List Instruction) : writtenLines (instruction :: rest) = writtenLines rest :=
  List.filterMap_cons_none hnone

@[simp] theorem writtenLines_blank (rest : List Instruction) :
    writtenLines (.blank :: rest) = writtenLines rest := rfl

@[simp] theorem writtenLines_doc (text : String) (rest : List Instruction) :
    writtenLines (.doc text :: rest) = writtenLines rest := rfl

@[simp] theorem writtenLines_block (header footer : String) (body : List Instruction) :
    writtenLines (block header footer body) = header :: writtenLines body := by
  have hopen : writtenLines (.openBlock header :: body) = header :: writtenLines body := rfl
  rw [block, writtenLines_append, hopen]
  exact List.append_nil _

theorem writtenLines_flatMap {α : Type} (f : α → List Instruction) (xs : List α) :
    writtenLines (xs.flatMap f) = xs.flatMap fun x => writtenLines (f x) :=
  List.filterMap_flatMap

/-- Instructions of which each keeps its line exactly when that starts in one of these ways keep these lines. -/
theorem filterMap_eq_linesStarting {starts : List String} {view : Instruction → Option String}
    {instructions : List Instruction}
    (hview : ∀ instruction ∈ instructions, view instruction = instruction.line?.filter (startsIn starts)) :
    instructions.filterMap view = linesStarting starts instructions := by
  rw [linesStarting, writtenLines, List.filter_filterMap]
  exact List.filterMap_congr hview

/-! ## Instructions whose lines start alike -/

/-- All lines of the instructions start in one of these ways. -/
def LinesStart (starts : List String) (instructions : List Instruction) : Prop :=
  ∀ line ∈ writtenLines instructions, startsIn starts line = true

namespace LinesStart

variable {starts : List String} {first second rest : List Instruction}

theorem nil : LinesStart starts [] := List.forall_mem_nil _

theorem append (hfirst : LinesStart starts first) (hsecond : LinesStart starts second) :
    LinesStart starts (first ++ second) := by
  rw [LinesStart, writtenLines_append, List.forall_mem_append]
  exact ⟨hfirst, hsecond⟩

theorem write {line : String} (hline : startsIn starts line = true) (hrest : LinesStart starts rest) :
    LinesStart starts (.write line :: rest) :=
  List.forall_mem_cons.mpr ⟨hline, hrest⟩

theorem blank (hrest : LinesStart starts rest) : LinesStart starts (.blank :: rest) := hrest

theorem block {header : String} (hheader : startsIn starts header = true) (footer : String)
    (hbody : LinesStart starts rest) : LinesStart starts (block header footer rest) := by
  rw [LinesStart, writtenLines_block]
  exact List.forall_mem_cons.mpr ⟨hheader, hbody⟩

theorem map_write {α : Type} {line : α → String} (hline : ∀ x, startsIn starts (line x) = true) (xs : List α) :
    LinesStart starts (xs.map fun x => .write (line x)) := by
  induction xs with
  | nil => exact nil
  | cons x others ih => exact ih.write (hline x)

/-- Lines that start otherwise are not kept. -/
theorem linesStarting_eq_nil {kept : List String} (h : LinesStart starts first) (hapart : Apart kept starts) :
    linesStarting kept first = [] :=
  List.filter_eq_nil_iff.mpr fun line hmem => ne_true_of_eq_false (startsIn_eq_false (h line hmem) hapart)

end LinesStart

/-! ## Annotations -/

/-- A line that annotates what stands behind it as deprecated. -/
def annotationLine (message : String) : String := "@Deprecated(" ++ Naming.stringLiteral message ++ ")"

theorem startsIn_annotationLine (message : String) : startsIn ["@Deprecated("] (annotationLine message) = true := by
  have hstart : startsIn ["@Deprecated("] "@Deprecated(" = true := by
    decide
  exact startsIn_append (startsIn_append hstart _) _

/-- No annotation is kept with lines that start otherwise. -/
theorem filter_annotation {kept : List String} (hapart : Apart kept ["@Deprecated("]) (deprecated : Option String) :
    (deprecated.map annotationLine).toList.filter (startsIn kept) = [] := by
  cases deprecated with
  | none => rfl
  | some message =>
    exact List.filter_cons_of_neg (ne_true_of_eq_false (startsIn_eq_false (startsIn_annotationLine message) hapart))

/-- Documentation is a comment, and what is deprecated has one line. -/
@[simp] theorem writtenLines_emitDocumentation (documentation deprecated : Option String) :
    writtenLines (emitDocumentation documentation deprecated) = (deprecated.map annotationLine).toList := by
  have hcomment : writtenLines (documentationComment documentation) = [] := by
    cases documentation with
    | none => rfl
    | some text =>
      rw [documentationComment]
      split <;> rfl
  rw [emitDocumentation, writtenLines_append, hcomment, List.nil_append]
  cases deprecated <;> rfl

end SmithyKotlin
