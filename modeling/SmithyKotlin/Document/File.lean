import SmithyKotlin.Document.Conversion
import SmithyKotlin.Document.Decoder
import SmithyKotlin.Files.Tree

/-!
# Model files

A model is read from the text of a document (`Document.modelOfText`) or from a file that holds it
(`Document.modelOfFile`).  A text that is no document fails before anything is converted.
-/

namespace SmithyKotlin.Document

/-- The document in a text. -/
def ofText (text : String) : Except CodegenError Document :=
  (read text).mapError .malformedDocument

def modelOfText (text : String) : Except CodegenError Model := do
  (← ofText text).toModel

/-- The model in the file with the given path. -/
def modelOfFile (tree : FileTree) (path : String) : Except CodegenError Model := do
  modelOfText (← (tree.readFile path).mapError (.unreadableModel path))

end SmithyKotlin.Document
