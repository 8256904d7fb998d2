import SmithyKotlin.Proofs.Files.Confinement

/-!
# What writing leaves

* `FileTree.Wrote`: the written files are there with their contents, and apart from them the tree is the one from
  before, possibly with new directories.
* `FileTree.wrote_makeDirectories`, `FileTree.wrote_put`: adding directories and writing files change a tree in this
  way.
* `FileTree.Wrote.trans`: where the written files have different places this carries over to a run of writes, so
  none of them is lost again.
* `FileTree.LeadsTo`: the place that the path of a file leads to, and what is read there afterwards
  (`FileTree.LeadsTo.readFile_eq`).
-/

namespace SmithyKotlin.FileTree

variable {tree before middle after : FileTree} {path contents : String} {place : List String}

/-! ## Directories and files added to a tree -/

/-- The second tree is the first one with files under the given keys, and with more directories. -/
structure Wrote (before : FileTree) (files : List (String × String)) (after : FileTree) : Prop where
  /-- No directory gives way to a file. -/
  free : ∀ key ∈ files.map Prod.fst, before.get? key ≠ some .directory
  there : ∀ key contents, (key, contents) ∈ files → after.get? key = some (.file contents)
  others : ∀ key, key ∉ files.map Prod.fst →
    after.get? key = before.get? key ∨ before.get? key = none ∧ after.get? key = some .directory

namespace Wrote

variable {xs ys : List (String × String)}

theorem refl (tree : FileTree) : Wrote tree [] tree where
  free := fun _ h => absurd h List.not_mem_nil
  there := fun _ _ h => absurd h List.not_mem_nil
  others := fun _ _ => .inl rfl

/-- What stood there still does, unless a file was written over it. -/
theorem get?_of_some (h : Wrote before xs after) {key : String} (hkey : key ∉ xs.map Prod.fst)
    {node : Node} (hnode : before.get? key = some node) : after.get? key = some node := by
  rcases h.others key hkey with heq | ⟨hnone, _⟩
  · exact heq.trans hnode
  · rw [hnone] at hnode
    cases hnode

theorem directories (h : Wrote before xs after) (key : String)
    (hkey : before.get? key = some .directory) : after.get? key = some .directory :=
  h.get?_of_some (fun hmem => h.free key hmem hkey) hkey

/-- Writes to different keys add up. -/
theorem trans (hfirst : Wrote before xs middle) (hsecond : Wrote middle ys after)
    (hdisjoint : ∀ key ∈ xs.map Prod.fst, key ∉ ys.map Prod.fst) : Wrote before (xs ++ ys) after where
  free := fun key hmem => by
    rw [List.map_append, List.mem_append] at hmem
    rcases hmem with hmem | hmem
    · exact hfirst.free key hmem
    · exact fun hkey => hsecond.free key hmem (hfirst.directories key hkey)
  there := fun key contents hmem => by
    rcases List.mem_append.mp hmem with hmem | hmem
    · have hkey := hdisjoint key (List.mem_map_of_mem hmem)
      exact hsecond.get?_of_some hkey (hfirst.there key contents hmem)
    · exact hsecond.there key contents hmem
  others := fun key hkey => by
    rw [List.map_append, List.mem_append, not_or] at hkey
    have hstep := hfirst.others key hkey.1
    rcases hsecond.others key hkey.2 with heq | ⟨hnone, hnew⟩
    · rwa [heq]
    · rcases hstep with hsame | ⟨_, hmade⟩
      · exact .inr ⟨hsame ▸ hnone, hnew⟩
      · rw [hmade] at hnone
        cases hnone

end Wrote

/-! ## Operations -/

theorem wrote_makeDirectory {steps : List String} (h : tree.makeDirectory steps = .ok after) :
    Wrote tree [] after := by
  obtain ⟨⟨place, node⟩, hlocate, h⟩ := bind_eq_ok_iff.mp h
  cases node with
  | none =>
    cases h
    obtain ⟨_, _, _, _, _, _, hnone⟩ := of_locate hlocate (by decide)
    refine ⟨(Wrote.refl tree).free, fun _ _ hmem => absurd hmem List.not_mem_nil, fun key _ => ?_⟩
    rw [get?_put]
    split
    · rename_i hkey
      exact .inr ⟨hkey ▸ hnone.symm, rfl⟩
    · exact .inl rfl
  | some node => cases h

theorem wrote_makeDirectories {steps : List String} (h : tree.makeDirectories steps = .ok after) :
    Wrote tree [] after := by
  fun_induction makeDirectories tree steps generalizing after with
  | case1 =>
    cases h
    exact .refl tree
  | case2 path hne made hmake =>
    cases h
    exact wrote_makeDirectory hmake
  | case3 path hne hmissing hlt ih =>
    obtain ⟨around, haround, h⟩ := bind_eq_ok_iff.mp h
    split at h
    · cases h
      exact ih haround
    · exact (ih haround).trans (wrote_makeDirectory h) (fun _ hmem => absurd hmem List.not_mem_nil)
  | case4 path hne error herror hmissing hdirectory =>
    cases h
    exact .refl tree
  | case5 => cases h

/-- The path of a file leads to the place, whether or not something stands there. -/
structure LeadsTo (tree : FileTree) (path : String) (place : List String) : Prop where
  steps : ∃ front name directory, fileSteps? path = .ok (front ++ [name]) ∧
    tree.enter [] front = .ok directory ∧ place = directory ++ [name] ∧
    tree.lookUp directory name = .ok (place, tree.get? (Path.ofComponents place))

/-- Where a name is looked up does not depend on the tree. -/
theorem lookUp_in_place {directory : List String} {name : String} {node : Option Node}
    (h : before.lookUp directory name = .ok (place, node)) (hnode : node ≠ some .directory) :
    after.lookUp directory name = .ok (place, after.get? (Path.ofComponents place)) := by
  rw [lookUp] at h
  split_ifs at h with hroot hdot hup
  case neg hlimit =>
    rw [Except.ok.injEq, Prod.mk.injEq] at h
    obtain ⟨hplace, hfound⟩ := h
    have hinside : isOutside place ≠ true := by
      intro houtside
      rw [hplace, node?, if_pos houtside] at hfound
      exact hnode hfound.symm
    rw [lookUp, if_neg hroot, if_neg hdot, if_neg hup, if_neg hlimit, hplace, node?, if_neg hinside]
  all_goals
    cases h
    exact absurd rfl hnode

theorem LeadsTo.of_wrote {files : List (String × String)} (hwrote : Wrote before files after)
    (h : before.LeadsTo path place) (hfree : before.get? (Path.ofComponents place) ≠ some .directory) :
    after.LeadsTo path place := by
  obtain ⟨front, name, directory, hsteps, henter, hplace, hlook⟩ := h.steps
  exact ⟨front, name, directory, hsteps, enter_of_keeps hwrote.directories henter, hplace,
    lookUp_in_place hlook hfree⟩

/-- Writing a file changes what stands at its place, where no directory is. -/
theorem exists_place_of_writeFile (h : tree.writeFile path contents = .ok after) :
    ∃ place, tree.LeadsTo path place ∧ tree.get? (Path.ofComponents place) ≠ some .directory ∧
      after = tree.put place (.file contents) := by
  obtain ⟨steps, hsteps, h⟩ := bind_eq_ok_iff.mp h
  obtain ⟨⟨place, node⟩, hlocate, h⟩ := bind_eq_ok_iff.mp h
  dsimp only at h
  split at h
  · cases h
  · rename_i hnode
    cases h
    obtain ⟨front, name, directory, rfl, henter, hplace, hget⟩ := of_locate hlocate hnode
    rw [locate, List.getLast?_concat, List.dropLast_concat] at hlocate
    obtain ⟨found, hfound, hlook⟩ := bind_eq_ok_iff.mp hlocate
    rw [henter] at hfound
    cases hfound
    exact ⟨place, ⟨front, name, directory, hsteps, henter, hplace, hget ▸ hlook⟩, hget ▸ hnode, rfl⟩

theorem wrote_put (hfree : tree.get? (Path.ofComponents place) ≠ some .directory) :
    Wrote tree [(Path.ofComponents place, contents)] (tree.put place (.file contents)) where
  free := fun key hmem => by
    rw [List.map_singleton, List.mem_singleton] at hmem
    exact hmem ▸ hfree
  there := fun key found hmem => by
    rw [List.mem_singleton, Prod.mk.injEq] at hmem
    rw [hmem.1, hmem.2, get?_put, if_pos rfl]
  others := fun key hkey => by
    rw [List.map_singleton, List.mem_singleton] at hkey
    rw [get?_put, if_neg (Ne.symm hkey)]
    exact .inl rfl

/-- Where a path leads to a file, the file is read. -/
theorem LeadsTo.readFile_eq (h : tree.LeadsTo path place)
    (hget : tree.get? (Path.ofComponents place) = some (.file contents)) :
    tree.readFile path = .ok contents := by
  obtain ⟨front, name, directory, hsteps, henter, hplace, hlook⟩ := h.steps
  have hpath : path.isEmpty = false := by
    rw [String.isEmpty_eq_false_iff]
    rintro rfl
    have hnil : fileSteps? "" = .ok [] := by decide +kernel
    rw [hnil, Except.ok.injEq] at hsteps
    exact List.append_ne_nil_of_right_ne_nil _ (List.cons_ne_nil _ _) hsteps.symm
  have hlocate : tree.locate (front ++ [name]) = .ok (place, some (.file contents)) := by
    rw [locate, List.getLast?_concat, List.dropLast_concat]
    dsimp only
    rw [henter, ok_bind, hlook, hget]
  rw [readFile, hpath, if_neg Bool.false_ne_true]
  show (fileSteps? path >>= fun steps => tree.locate steps >>= _) = _
  rw [hsteps, ok_bind, hlocate, ok_bind]

/-- A path that leads on from an output and never back leads to a place below that of the output. -/
theorem LeadsTo.exists_below {output rest : List String} (h : tree.LeadsTo path place)
    (hsteps : Path.steps path = output ++ rest) (hne : rest ≠ []) (hdescends : Descends rest) :
    ∃ directory, tree.enter [] output = .ok directory ∧ place = directory ++ rest.filter (· ≠ ".") := by
  obtain ⟨front, name, directory, hfound, henter, rfl, hlook⟩ := h.steps
  have hdot : name ≠ "." := by
    rintro rfl
    have hstay : tree.lookUp directory "." = .ok (directory, some .directory) := rfl
    rw [hlook, Except.ok.injEq, Prod.mk.injEq] at hstay
    exact absurd (List.append_right_eq_self.mp hstay.1) (List.cons_ne_nil _ _)
  obtain ⟨idle, hidle, hlast⟩ := steps_of_fileSteps? hfound
  have hpath : front ++ [name] = output ++ rest := by
    rcases hidle with rfl | rfl
    · rw [hlast, List.append_nil, hsteps]
    · exact absurd (List.singleton_inj.mp (List.append_inj' hlast rfl).2) hdot
  obtain ⟨rest', name', rfl⟩ := List.eq_nil_or_concat' rest |>.resolve_left hne
  rw [← List.append_assoc] at hpath
  obtain ⟨rfl, hname⟩ := List.append_inj' hpath rfl
  obtain rfl := List.singleton_inj.mp hname
  obtain ⟨start, hstart, henter⟩ := enter_append.mp henter
  refine ⟨start, hstart, ?_⟩
  rw [place_of_enter (descends_append.mp hdescends).1 henter, List.filter_append,
    List.filter_singleton, decide_eq_true hdot, List.append_assoc]
  rfl

end SmithyKotlin.FileTree
