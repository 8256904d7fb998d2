import SmithyKotlin.Document.File
import SmithyKotlin.Proofs.Document.Decoded
import SmithyKotlin.Proofs.Json.Printed

/-!
# Texts of documents

* `Document.read_compact` and `Document.read_pretty`: a printable document is read back from both of its texts.
* `Document.modelOfText_of_ofText`: so a text that holds a document can be replaced by a printed one, for anything
  that is made of it.

Every document that was read is such a document (`Document.printable_of_read`).  A text that was read need not be one
of the two that are printed: spaces, the order inside traits and the spelling of numbers are lost.
-/

namespace SmithyKotlin

namespace Document

variable {document : Document}

/-- What is written of a document may be spelled in any way. -/
theorem read_of_source {text : String} (h : document.Printable Source.nestingLimit)
    (hsource : SourceText.read text = ⟨.ofJson document.encode, true⟩) : read text = .ok document := by
  have hdecode := decode_encode h.sorted h.fits.depth
  rw [read, hsource]
  simp only [hdecode, ok_bind, if_true]
  rfl

theorem read_compact (h : document.Printable Source.nestingLimit) : read document.encode.compact = .ok document :=
  read_of_source h (Source.read_compact h.fits.printable)

theorem read_pretty (h : document.Printable Source.nestingLimit) : read document.encode.pretty = .ok document :=
  read_of_source h (Source.read_pretty h.fits.printable)

/-- A document that was read is read again from what is printed of it, and so it becomes the same model or fails with
the same error. -/
theorem modelOfText_of_ofText {text : String} (h : ofText text = .ok document) :
    modelOfText document.encode.compact = modelOfText text ∧
      modelOfText document.encode.pretty = modelOfText text := by
  have hprintable := printable_of_read (mapError_eq_ok_iff.mp h)
  have hcompact : ofText document.encode.compact = .ok document :=
    mapError_eq_ok_iff.mpr (read_compact hprintable)
  have hpretty : ofText document.encode.pretty = .ok document :=
    mapError_eq_ok_iff.mpr (read_pretty hprintable)
  rw [modelOfText, modelOfText, modelOfText, h, hcompact, hpretty]
  exact ⟨rfl, rfl⟩

end Document

end SmithyKotlin
