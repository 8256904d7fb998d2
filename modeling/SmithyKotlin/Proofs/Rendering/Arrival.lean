import Mathlib.Data.List.Nodup
import SmithyKotlin.Proofs.Rendering.Merge

/-!
# Results in any order

Shapes are rendered side by side, so their results may arrive in any order.

* `Rendering.add_add_comm`: results of different shapes can be filed in either order.
* `Rendering.collect_eq_of_perm`: a whole list of them can be in every order.
* `Rendering.merge_arrivalOrder`: so the outcome and its error are the same, since what is made of the filed results
  does not see the order any more.
-/

namespace SmithyKotlin.Rendering

/-- Results of different shapes may be filed in either order. -/
theorem add_add_comm (rendering : Rendering) {a b : Result} (hne : a.1 ≠ b.1) :
    (rendering.add a).add b = (rendering.add b).add a := by
  obtain ⟨idA, outcomeA⟩ := a
  obtain ⟨idB, outcomeB⟩ := b
  have htexts : idA.text ≠ idB.text := mt ShapeId.text_inj.mp hne
  cases outcomeA with
  | ok fileA =>
    cases outcomeB with
    | ok fileB => simp only [add, SortedMap.insert_comm _ _ _ htexts]
    | error errorB => rfl
  | error errorA =>
    cases outcomeB with
    | ok fileB => rfl
    | error errorB => simp only [add, SortedMap.insert_comm _ _ _ htexts]

/-- Results of distinct shapes are collected alike in every order. -/
theorem collect_eq_of_perm {results arrived : List Result} (hnodup : (results.map Prod.fst).Nodup)
    (hperm : results.Perm arrived) : collect results = collect arrived := by
  refine hperm.foldl_eq' (fun a ha b hb rendering => ?_) _
  by_cases hid : a.1 = b.1
  · -- one id has one result
    rw [List.inj_on_of_nodup_map hnodup ha hb hid]
  · exact rendering.add_add_comm hid

/-- The order in which the results of distinct shapes arrive shows neither in the rendering nor in the
failure that stops it. -/
theorem merge_arrivalOrder (continueOnError : Bool) (results arrived : List Result)
    (hnodup : (results.map Prod.fst).Nodup) (hperm : results.Perm arrived) :
    merge continueOnError results = merge continueOnError arrived := by
  rw [merge, merge, collect_eq_of_perm hnodup hperm]

/-- Two files of one path around a failure. -/
def contested : List Result :=
  [(⟨"com.b#Reading"⟩, .ok ⟨⟨"com.b#Reading"⟩, "model/Reading.kt", "b", []⟩),
    (⟨"com.c#Event"⟩, .error (.unresolvedShape ⟨"com.c#Missing"⟩)),
    (⟨"com.a#Reading"⟩, .ok ⟨⟨"com.a#Reading"⟩, "model/Reading.kt", "a", []⟩)]

theorem merge_arrivalOrder_contested :
    (contested.map Prod.fst).Nodup ∧ contested.Perm contested.reverse ∧
      (merge true contested.reverse).toOption.map (fun rendering =>
        (rendering.files.keys, rendering.failures.keys)) =
          some (["com.a#Reading"], ["com.b#Reading", "com.c#Event"]) ∧
      ∀ continueOnError,
        merge continueOnError contested = merge continueOnError contested.reverse := by
  have hnodup : (contested.map Prod.fst).Nodup := by decide
  have hperm : contested.Perm contested.reverse := (List.reverse_perm contested).symm
  exact ⟨hnodup, hperm, by decide +kernel, fun continueOnError =>
    merge_arrivalOrder continueOnError contested contested.reverse hnodup hperm⟩

end SmithyKotlin.Rendering
