import SmithyKotlin.Proofs.Json.Printed
import SmithyKotlin.Proofs.Json.Written
import SmithyKotlin.Rendering.Manifest

/-!
# The text of a manifest

* `Manifest.read_text`: the text is read as the object that the manifest is written as, with nothing behind it.
* `Manifest.text_injective`: two manifests with one text are one manifest, so whoever reads the file gets the versions,
  the files and the dependencies as they were, in their order.

That this text is what generating leaves in the file is part of `Generation.Leaves`.
-/

namespace SmithyKotlin

theorem Json.printable_ofStrings (texts : List String) : (ofStrings texts).Printable :=
  printable_array_iff.mpr (List.forall_mem_map.mpr fun _ _ => True.intro)

namespace Manifest

theorem printable_encode (manifest : Manifest) : manifest.encode.Printable := by
  refine Json.printable_object_iff.mpr ?_
  simp only [List.forall_mem_cons, Json.Printable, true_and]
  exact ⟨Json.printable_ofStrings _, Json.printable_ofStrings _, List.forall_mem_nil _⟩

theorem read_text (manifest : Manifest) : SourceText.read manifest.text = ⟨.ofJson manifest.encode, true⟩ :=
  Source.read_pretty manifest.printable_encode

/-- The texts in an array are read back, so the array tells them. -/
theorem eq_of_ofJson_ofStrings {first second : List String}
    (h : Source.ofJson (.ofStrings first) = .ofJson (.ofStrings second)) : first = second := by
  have hread (texts : List String) : Source.asList Source.asString (.ofJson (.ofStrings texts)) = .ok texts :=
    Source.asList_ofJson fun _ _ => rfl
  have hlists := congrArg (Source.asList Source.asString) h
  rw [hread, hread] at hlists
  cases hlists
  rfl

/-- The text of a manifest tells everything in it. -/
theorem text_injective : Function.Injective text := by
  intro first second htext
  have hread := first.read_text
  rw [htext, second.read_text] at hread
  have hencode : Source.ofJson second.encode = .ofJson first.encode := congrArg SourceText.document hread
  simp only [encode, Source.ofJson, Source.ofFields, Source.object.injEq, List.cons.injEq, Prod.mk.injEq,
    Source.string.injEq] at hencode
  obtain ⟨⟨⟨-, hgenerator⟩, ⟨-, hname⟩, ⟨-, hversion⟩, ⟨-, hruntime⟩, ⟨-, hfiles⟩, ⟨-, hdependencies⟩, -⟩, -⟩ := hencode
  have hfiles := eq_of_ofJson_ofStrings hfiles
  have hdependencies := eq_of_ofJson_ofStrings hdependencies
  cases first
  cases second
  subst hgenerator hname hversion hruntime hfiles hdependencies
  rfl

end Manifest

end SmithyKotlin
