import SmithyKotlin.Proofs.Collections.SortedMap
import SmithyKotlin.Rendering.Basic

/-!
# Merging the results of single shapes

What the files and failures of a rendering are, said in terms of the results that were merged.

* `Rendering.KeepsPath`: the file of a shape stays when no smaller id has a file of the same path
  (`Rendering.files_get?_merged`).
* `Rendering.collisions`: every other file becomes a failure that names the owner of its path (`Rendering.Owns`),
  and a shape that failed by itself keeps its failure (`Rendering.failures_get?_merged`).
* `Rendering.merge_true`, `Rendering.merge_false_eq_ok_iff`: what the two ways to run make of it.

The ids of the results are taken to be distinct, so no result can replace another one.
-/

namespace SmithyKotlin.Rendering

/-- What rendering one shape gave. -/
abbrev Result := ShapeId × Except CodegenError SourceFile

variable {results : List Result}

/-! ## Collecting -/

/-- The entry among the files that a result gives. -/
def keyedFile? (result : Result) : Option (String × SourceFile) :=
  match result.2 with
  | .ok file => some (result.1.text, file)
  | .error _ => none

/-- The entry among the failures that a result gives. -/
def keyedFailure? (result : Result) : Option (String × CodegenError) :=
  match result.2 with
  | .ok _ => none
  | .error error => some (result.1.text, error)

theorem keyedFile?_eq_some_iff {result : Result} {key : String} {file : SourceFile} :
    keyedFile? result = some (key, file) ↔ result = (⟨key⟩, .ok file) := by
  obtain ⟨id, outcome⟩ := result
  cases outcome with
  | ok found => simp [keyedFile?, ← ShapeId.text_inj]
  | error error => simp [keyedFile?]

theorem keyedFailure?_eq_some_iff {result : Result} {key : String} {error : CodegenError} :
    keyedFailure? result = some (key, error) ↔ result = (⟨key⟩, .error error) := by
  obtain ⟨id, outcome⟩ := result
  cases outcome with
  | ok file => simp [keyedFailure?]
  | error found => simp [keyedFailure?, ← ShapeId.text_inj]

theorem foldl_add (rendering : Rendering) (results : List Result) :
    results.foldl add rendering =
      { files := rendering.files.insertAll (results.filterMap keyedFile?)
        failures := rendering.failures.insertAll (results.filterMap keyedFailure?) } := by
  induction results generalizing rendering with
  | nil => rfl
  | cons result rest ih =>
    rw [List.foldl_cons, ih]
    obtain ⟨id, outcome⟩ := result
    cases outcome <;> rfl

/-- A collected file is one of the results, whether or not their ids differ. -/
theorem mem_of_files_get?_collect {key : String} {file : SourceFile}
    (h : (collect results).files.get? key = some file) : (⟨key⟩, .ok file) ∈ results := by
  rw [collect, foldl_add] at h
  rcases SortedMap.mem_of_get?_insertAll h with hmem | hnone
  · obtain ⟨result, hresult, hkeyed⟩ := List.mem_filterMap.mp hmem
    exact keyedFile?_eq_some_iff.mp hkeyed ▸ hresult
  · cases hnone

theorem nodup_texts (hnodup : (results.map Prod.fst).Nodup) :
    (results.map fun result => result.1.text).Nodup := by
  have htexts := hnodup.map fun a b h => ShapeId.text_inj.mp h
  rwa [List.map_map] at htexts

/-- The collected files are the files among the results. -/
theorem files_get?_collect (hnodup : (results.map Prod.fst).Nodup) {id : ShapeId}
    {file : SourceFile} :
    (collect results).files.get? id.text = some file ↔ (id, .ok file) ∈ results := by
  have hentries : ((results.filterMap keyedFile?).map Prod.fst).Nodup := by
    refine (keys_filterMap_sublist ?_ results).nodup (nodup_texts hnodup)
    intro result image himage
    rw [keyedFile?_eq_some_iff.mp himage]
  have hfiles : (collect results).files = SortedMap.ofList (results.filterMap keyedFile?) := by
    rw [collect, foldl_add]
    rfl
  rw [hfiles, SortedMap.get?_ofList hentries, findEntry_eq_some_iff hentries, List.mem_filterMap]
  simp only [keyedFile?_eq_some_iff, exists_eq_right]

/-- The collected failures are the failures among the results. -/
theorem failures_get?_collect (hnodup : (results.map Prod.fst).Nodup) {id : ShapeId}
    {error : CodegenError} :
    (collect results).failures.get? id.text = some error ↔ (id, .error error) ∈ results := by
  have hentries : ((results.filterMap keyedFailure?).map Prod.fst).Nodup := by
    refine (keys_filterMap_sublist ?_ results).nodup (nodup_texts hnodup)
    intro result image himage
    rw [keyedFailure?_eq_some_iff.mp himage]
  have hfailures :
      (collect results).failures = SortedMap.ofList (results.filterMap keyedFailure?) := by
    rw [collect, foldl_add]
    rfl
  rw [hfailures, SortedMap.get?_ofList hentries, findEntry_eq_some_iff hentries,
    List.mem_filterMap]
  simp only [keyedFailure?_eq_some_iff, exists_eq_right]

/-- Two results of one id are the same result. -/
theorem eq_of_mem_of_mem (hnodup : (results.map Prod.fst).Nodup) {id : ShapeId}
    {a b : Except CodegenError SourceFile} (ha : (id, a) ∈ results) (hb : (id, b) ∈ results) :
    a = b :=
  congrArg Prod.snd (List.inj_on_of_nodup_map hnodup ha hb rfl)

/-! ## Owners of paths -/

/-- The smallest key with a file of the path. -/
def Owns (rendering : Rendering) (key path : String) : Prop :=
  ∃ file, rendering.files.get? key = some file ∧ Path.same file.path path = true ∧
    ∀ other found, rendering.files.get? other = some found →
      Path.same found.path path = true → key ≤ other

theorem Owns.unique {rendering : Rendering} {a b path : String} (ha : rendering.Owns a path)
    (hb : rendering.Owns b path) : a = b := by
  obtain ⟨fa, hfa, hpa, hmina⟩ := ha
  obtain ⟨fb, hfb, hpb, hminb⟩ := hb
  exact String.le_antisymm (hmina b fb hfb hpb) (hminb a fa hfa hpa)

theorem owner?_eq_some_iff {rendering : Rendering} {file : SourceFile} {key : String} :
    rendering.owner? file = some key ↔ rendering.Owns key file.path := by
  rw [owner?, Option.map_eq_some_iff]
  have hfind (found : SourceFile) :=
    rendering.files.find?_entries_eq_some_iff (fun other => Path.same other.path file.path) key found
  constructor
  · intro h
    obtain ⟨⟨k, found⟩, hfirst, rfl⟩ := h
    exact ⟨found, (hfind found).mp hfirst⟩
  · intro h
    obtain ⟨found, hfound⟩ := h
    exact ⟨(key, found), (hfind found).mpr hfound, rfl⟩

theorem same_self (path : String) : Path.same path path = true := beq_self_eq_true _

theorem same_comm {a b : String} (h : Path.same a b = true) : Path.same b a = true := by
  have hparts : Path.components a = Path.components b := beq_iff_eq.mp h
  exact beq_iff_eq.mpr hparts.symm

theorem same_trans {a b c : String} (h : Path.same a b = true) (h' : Path.same b c = true) :
    Path.same a c = true := by
  have hparts : Path.components a = Path.components b := beq_iff_eq.mp h
  have hparts' : Path.components b = Path.components c := beq_iff_eq.mp h'
  exact beq_iff_eq.mpr (hparts.trans hparts')

theorem Owns.of_same {rendering : Rendering} {key a b : String} (h : rendering.Owns key a)
    (hsame : Path.same a b = true) : rendering.Owns key b := by
  obtain ⟨file, hfile, hpath, hmin⟩ := h
  refine ⟨file, hfile, same_trans hpath hsame, fun other found hother hfound => ?_⟩
  exact hmin other found hother (same_trans hfound (same_comm hsame))

/-- A path that belongs to a file has an owner. -/
theorem exists_owns {rendering : Rendering} {key : String} {file : SourceFile}
    (h : rendering.files.get? key = some file) : ∃ owner, rendering.Owns owner file.path := by
  have hsome : (rendering.files.entries.find? fun entry =>
      Path.same entry.2.path file.path).isSome := by
    rw [List.find?_isSome]
    exact ⟨(key, file), SortedMap.get?_eq_some_iff.mp h, same_self file.path⟩
  obtain ⟨⟨owner, found⟩, hfind⟩ := Option.isSome_iff_exists.mp hsome
  exact ⟨owner, owner?_eq_some_iff.mp (by rw [owner?, hfind]; rfl)⟩

/-! ## Leaving paths to their owners -/

theorem collision?_eq_some_iff {rendering : Rendering} {entry : String × SourceFile} {key : String}
    {error : CodegenError} :
    rendering.collision? entry = some (key, error) ↔
      key = entry.1 ∧ ∃ owner, rendering.Owns owner entry.2.path ∧ owner ≠ entry.1 ∧
        error = .samePath ⟨entry.1⟩ ⟨owner⟩ entry.2.path := by
  unfold collision?
  cases howner : rendering.owner? entry.2 with
  | none =>
    constructor
    · intro h
      cases h
    · intro h
      obtain ⟨_, owner, howns, _⟩ := h
      rw [owner?_eq_some_iff.mpr howns] at howner
      cases howner
  | some owner =>
    have howns := owner?_eq_some_iff.mp howner
    dsimp only
    split
    · rename_i heq
      constructor
      · intro h
        cases h
      · intro h
        obtain ⟨_, other, hother, hne, _⟩ := h
        exact absurd ((hother.unique howns).trans heq) hne
    · rename_i hne
      constructor
      · intro h
        cases h
        exact ⟨rfl, owner, howns, hne, rfl⟩
      · intro h
        obtain ⟨rfl, other, hother, _, rfl⟩ := h
        rw [hother.unique howns]

/-- The failures of all files whose paths belong to other shapes. -/
def collisions (rendering : Rendering) : List (String × CodegenError) :=
  rendering.files.entries.filterMap rendering.collision?

/-- The files that lose their path, with what becomes of them. -/
theorem mem_collisions_iff {rendering : Rendering} {key : String} {error : CodegenError} :
    (key, error) ∈ rendering.collisions ↔
      ∃ file owner, rendering.files.get? key = some file ∧ rendering.Owns owner file.path ∧
        owner ≠ key ∧ error = .samePath ⟨key⟩ ⟨owner⟩ file.path := by
  rw [collisions, List.mem_filterMap]
  constructor
  · intro h
    obtain ⟨⟨k, file⟩, hmem, hcollision⟩ := h
    obtain ⟨rfl, owner, howns, hne, rfl⟩ := collision?_eq_some_iff.mp hcollision
    exact ⟨file, owner, SortedMap.get?_eq_some_iff.mpr hmem, howns, hne, rfl⟩
  · intro h
    obtain ⟨file, owner, hget, howns, hne, rfl⟩ := h
    exact ⟨(key, file), SortedMap.get?_eq_some_iff.mp hget,
      collision?_eq_some_iff.mpr ⟨rfl, owner, howns, hne, rfl⟩⟩

theorem nodup_keys_collisions (rendering : Rendering) :
    (rendering.collisions.map Prod.fst).Nodup := by
  refine (keys_filterMap_sublist ?_ _).nodup rendering.files.ascending.nodup_keys
  intro entry image himage
  exact (collision?_eq_some_iff.mp himage).1

theorem rejectCollisions_eq (rendering : Rendering) :
    rendering.rejectCollisions =
      { files := rendering.files.filterKeys fun key => !(rendering.collisions.any (·.1 == key))
        failures := rendering.failures.insertAll rendering.collisions } := rfl

/-- A file stays exactly when its shape owns its path. -/
theorem files_get?_rejectCollisions {rendering : Rendering} {key : String} {file : SourceFile} :
    rendering.rejectCollisions.files.get? key = some file ↔
      rendering.files.get? key = some file ∧ rendering.Owns key file.path := by
  rw [rejectCollisions_eq]
  dsimp only
  rw [SortedMap.get?_filterKeys]
  have hany : rendering.collisions.any (·.1 == key) = true ↔
      ∃ error, (key, error) ∈ rendering.collisions := by
    simp only [List.any_eq_true, beq_iff_eq, Prod.exists]
    constructor
    · intro h
      obtain ⟨k, error, hmem, rfl⟩ := h
      exact ⟨error, hmem⟩
    · intro h
      obtain ⟨error, hmem⟩ := h
      exact ⟨key, error, hmem, rfl⟩
  by_cases hlost : rendering.collisions.any (·.1 == key) = true
  · rw [hlost, if_neg (by simp)]
    obtain ⟨error, hmem⟩ := hany.mp hlost
    obtain ⟨found, owner, hget, howns, hne, _⟩ := mem_collisions_iff.mp hmem
    constructor
    · intro h
      cases h
    · intro h
      obtain ⟨hfile, hself⟩ := h
      rw [hget] at hfile
      cases hfile
      exact absurd (howns.unique hself) hne
  · rw [Bool.not_eq_true] at hlost
    rw [hlost, if_pos (by simp)]
    constructor
    · intro hget
      refine ⟨hget, ?_⟩
      obtain ⟨owner, howns⟩ := exists_owns hget
      by_cases heq : owner = key
      · exact heq ▸ howns
      · have hmem := mem_collisions_iff.mpr ⟨file, owner, hget, howns, heq, rfl⟩
        rw [hany.mpr ⟨_, hmem⟩] at hlost
        cases hlost
    · exact And.left

/-- A file that does not stay becomes a failure; the other failures are those from before. -/
theorem failures_get?_rejectCollisions {rendering : Rendering} {key : String} {error : CodegenError}
    (hdisjoint : ∀ file, rendering.files.get? key = some file → rendering.failures.get? key = none) :
    rendering.rejectCollisions.failures.get? key = some error ↔
      rendering.failures.get? key = some error ∨
        ∃ file owner, rendering.files.get? key = some file ∧ rendering.Owns owner file.path ∧
          owner ≠ key ∧ error = .samePath ⟨key⟩ ⟨owner⟩ file.path := by
  rw [rejectCollisions_eq]
  dsimp only
  rw [SortedMap.get?_insertAll _ rendering.nodup_keys_collisions, ← mem_collisions_iff,
    Option.or_eq_some_iff, findEntry_eq_some_iff rendering.nodup_keys_collisions,
    findEntry_eq_none_iff]
  constructor
  · intro h
    rcases h with hmem | ⟨_, hget⟩
    · exact .inr hmem
    · exact .inl hget
  · intro h
    rcases h with hget | hmem
    · refine .inr ⟨fun hkey => ?_, hget⟩
      obtain ⟨⟨k, other⟩, hother, rfl⟩ := List.mem_map.mp hkey
      obtain ⟨file, _, hfile, _⟩ := mem_collisions_iff.mp hother
      rw [hdisjoint file hfile] at hget
      cases hget
    · exact .inl hmem

/-! ## Merged results -/

/-- The smallest id among the results with a file of the path. -/
def KeepsPath (results : List Result) (id : ShapeId) (path : String) : Prop :=
  ∃ file, (id, .ok file) ∈ results ∧ Path.same file.path path = true ∧
    ∀ other found, (other, .ok found) ∈ results → Path.same found.path path = true →
      id.text ≤ other.text

theorem owns_collect_iff (hnodup : (results.map Prod.fst).Nodup) {id : ShapeId} {path : String} :
    (collect results).Owns id.text path ↔ KeepsPath results id path := by
  constructor
  · intro h
    obtain ⟨file, hget, hsame, hmin⟩ := h
    refine ⟨file, (files_get?_collect hnodup).mp hget, hsame, fun other found hmem hfound => ?_⟩
    exact hmin other.text found ((files_get?_collect hnodup).mpr hmem) hfound
  · intro h
    obtain ⟨file, hmem, hsame, hmin⟩ := h
    refine ⟨file, (files_get?_collect hnodup).mpr hmem, hsame, fun other found hget hfound => ?_⟩
    have hother : (collect results).files.get? (⟨other⟩ : ShapeId).text = some found := hget
    exact hmin ⟨other⟩ found ((files_get?_collect hnodup).mp hother) hfound

theorem KeepsPath.unique {a b : ShapeId} {path : String} (ha : KeepsPath results a path)
    (hb : KeepsPath results b path) : a = b := by
  obtain ⟨fa, hfa, hpa, hmina⟩ := ha
  obtain ⟨fb, hfb, hpb, hminb⟩ := hb
  exact ShapeId.text_inj.mp (String.le_antisymm (hmina b fb hfb hpb) (hminb a fa hfa hpa))

theorem exists_keepsPath (hnodup : (results.map Prod.fst).Nodup) {id : ShapeId} {file : SourceFile}
    (hmem : (id, .ok file) ∈ results) : ∃ keeper, KeepsPath results keeper file.path := by
  obtain ⟨owner, howns⟩ := exists_owns ((files_get?_collect hnodup).mpr hmem)
  exact ⟨⟨owner⟩, (owns_collect_iff hnodup).mp howns⟩

/-- The files of merged results: those of the shapes that keep their paths. -/
theorem files_get?_merged (hnodup : (results.map Prod.fst).Nodup) {id : ShapeId}
    {file : SourceFile} :
    (collect results).rejectCollisions.files.get? id.text = some file ↔
      (id, .ok file) ∈ results ∧ KeepsPath results id file.path := by
  rw [files_get?_rejectCollisions, files_get?_collect hnodup, owns_collect_iff hnodup]

/-- The failures of merged results: those among them, and those of the shapes that lose their paths. -/
theorem failures_get?_merged (hnodup : (results.map Prod.fst).Nodup) {id : ShapeId}
    {error : CodegenError} :
    (collect results).rejectCollisions.failures.get? id.text = some error ↔
      (id, .error error) ∈ results ∨
        ∃ file keeper, (id, .ok file) ∈ results ∧ KeepsPath results keeper file.path ∧
          keeper ≠ id ∧ error = .samePath id keeper file.path := by
  have hdisjoint : ∀ file, (collect results).files.get? id.text = some file →
      (collect results).failures.get? id.text = none := by
    intro file hfile
    cases hfailure : (collect results).failures.get? id.text with
    | none => rfl
    | some other =>
      have hok := (files_get?_collect hnodup).mp hfile
      have hsame := eq_of_mem_of_mem hnodup hok ((failures_get?_collect hnodup).mp hfailure)
      cases hsame
  rw [failures_get?_rejectCollisions hdisjoint, failures_get?_collect hnodup]
  refine or_congr_right ⟨?_, ?_⟩
  · intro h
    obtain ⟨file, owner, hfile, howns, hne, rfl⟩ := h
    refine ⟨file, ⟨owner⟩, (files_get?_collect hnodup).mp hfile, ?_, ?_, rfl⟩
    · exact (owns_collect_iff hnodup).mp howns
    · intro heq
      exact hne (congrArg ShapeId.text heq)
  · intro h
    obtain ⟨file, keeper, hmem, hkeeps, hne, rfl⟩ := h
    refine ⟨file, keeper.text, (files_get?_collect hnodup).mpr hmem, ?_, ?_, rfl⟩
    · exact (owns_collect_iff hnodup).mpr hkeeps
    · intro heq
      exact hne (ShapeId.text_inj.mp heq)

theorem merge_true (results : List Result) :
    merge true results = .ok (collect results).rejectCollisions := by
  unfold merge
  dsimp only
  split
  · rw [if_pos rfl]
  · rfl

/-- Where failures are not skipped there is none. -/
theorem merge_false_eq_ok_iff {rendering : Rendering} :
    merge false results = .ok rendering ↔
      rendering = (collect results).rejectCollisions ∧ rendering.failures.entries = [] := by
  unfold merge
  dsimp only
  split
  · rename_i hfailures
    refine ⟨fun h => ?_, fun h => ?_⟩
    · cases h
    · obtain ⟨rfl, hnone⟩ := h
      rw [hnone] at hfailures
      cases hfailures
  · rename_i hfailures
    refine ⟨fun h => ?_, fun h => ?_⟩
    · cases h
      exact ⟨rfl, hfailures⟩
    · rw [h.1]

/-- Whether failures are skipped or not, a rendering is made of all results. -/
theorem of_merge {continueOnError : Bool} {rendering : Rendering}
    (h : merge continueOnError results = .ok rendering) :
    rendering = (collect results).rejectCollisions := by
  cases continueOnError with
  | true =>
    rw [merge_true] at h
    cases h
    rfl
  | false => exact (merge_false_eq_ok_iff.mp h).1

/-- Each file of a rendering is one of the results and owns its path. -/
theorem of_files_get?_merge {continueOnError : Bool} {rendering : Rendering}
    (h : merge continueOnError results = .ok rendering) {key : String} {file : SourceFile}
    (hfile : rendering.files.get? key = some file) :
    (⟨key⟩, .ok file) ∈ results ∧ (collect results).Owns key file.path := by
  rw [of_merge h, files_get?_rejectCollisions] at hfile
  exact ⟨mem_of_files_get?_collect hfile.1, hfile.2⟩

end SmithyKotlin.Rendering
