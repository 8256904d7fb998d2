import SmithyKotlin.Files.Tree
import SmithyKotlin.Proofs.Outcome

/-!
# Changes below a directory

* `FileTree.Confined`: what happens to a file tree when something is written below a directory.  A file with new
  contents stands below it (`LiesBelow`), no file and no directory goes, and a directory may come where nothing
  stood.
* `FileTree.Confined.trans`: so paths that lead through directories go on leading to the same places
  (`FileTree.enter_of_keeps`), and one change may follow another.
* `FileTree.confined_makeDirectories` and `FileTree.confined_writeFile`: both ways to write are such changes, for
  paths whose steps never lead back (`Descends`).
-/

namespace SmithyKotlin.FileTree

/-- Steps that never lead back: none of them goes upwards or to the start of all paths. -/
def Descends (steps : List String) : Prop := ".." ∉ steps ∧ "/" ∉ steps

instance (steps : List String) : Decidable (Descends steps) := instDecidableAnd

theorem descends_append {front rest : List String} :
    Descends (front ++ rest) ↔ Descends front ∧ Descends rest := by
  rw [Descends, Descends, Descends, List.mem_append, List.mem_append, not_or, not_or,
    and_and_and_comm]

theorem descends_cons {name : String} {rest : List String} :
    Descends (name :: rest) ↔ (name ≠ ".." ∧ name ≠ "/") ∧ Descends rest := by
  rw [Descends, Descends, List.mem_cons, List.mem_cons, not_or, not_or, and_and_and_comm, Ne, Ne,
    eq_comm, @eq_comm _ "/"]

theorem Descends.filter {steps : List String} (h : Descends steps) (keep : String → Bool) :
    Descends (steps.filter keep) :=
  ⟨fun hmem => h.1 (List.mem_of_mem_filter hmem), fun hmem => h.2 (List.mem_of_mem_filter hmem)⟩

variable {tree before after : FileTree} {directory place steps : List String} {name : String}
  {node : Option Node}

/-! ## Following steps -/

/-- What is not known to be a directory is found under its place. -/
theorem of_lookUp (h : tree.lookUp directory name = .ok (place, node))
    (hnode : node ≠ some .directory) :
    place = directory ++ [name] ∧ node = tree.get? (Path.ofComponents place) := by
  rw [lookUp] at h
  split_ifs at h with hroot hdot hup
  case neg =>
    cases h
    have hinside : isOutside (directory ++ [name]) ≠ true := by
      intro houtside
      rw [node?, if_pos houtside] at hnode
      exact hnode rfl
    exact ⟨rfl, by rw [node?, if_neg hinside]⟩
  all_goals
    cases h
    exact absurd rfl hnode

/-- A step that leads on ends below the directory, or in it when it is `.`. -/
theorem place_of_lookUp (hup : name ≠ "..") (hroot : name ≠ "/")
    (h : tree.lookUp directory name = .ok (place, node)) :
    place = directory ++ [name].filter (· ≠ ".") := by
  rw [lookUp, if_neg hroot] at h
  by_cases hdot : name = "."
  · subst hdot
    cases h
    exact (List.append_nil directory).symm
  · rw [if_neg hdot, if_neg hup] at h
    split at h
    · cases h
    · cases h
      rw [List.filter_singleton, decide_eq_true hdot]
      rfl

theorem enter_cons {rest : List String} :
    tree.enter directory (name :: rest) = .ok place ↔ ∃ next,
      tree.lookUp directory name = .ok (next, some .directory) ∧ tree.enter next rest = .ok place := by
  rw [enter, bind_eq_ok_iff]
  constructor
  · intro h
    obtain ⟨⟨next, node⟩, hlook, h⟩ := h
    rcases node with _ | _ | _
    · cases h
    · exact ⟨next, hlook, h⟩
    · cases h
  · intro h
    obtain ⟨next, hlook, h⟩ := h
    exact ⟨_, hlook, h⟩

theorem enter_append {front rest : List String} :
    tree.enter directory (front ++ rest) = .ok place ↔ ∃ next,
      tree.enter directory front = .ok next ∧ tree.enter next rest = .ok place := by
  induction front generalizing directory with
  | nil =>
    constructor
    · intro h
      exact ⟨directory, rfl, h⟩
    · intro h
      obtain ⟨next, hfront, h⟩ := h
      cases hfront
      exact h
  | cons name front ih =>
    rw [List.cons_append, enter_cons]
    constructor
    · intro h
      obtain ⟨middle, hlook, h⟩ := h
      obtain ⟨next, hfront, hrest⟩ := ih.mp h
      exact ⟨next, enter_cons.mpr ⟨middle, hlook, hfront⟩, hrest⟩
    · intro h
      obtain ⟨next, hfront, hrest⟩ := h
      obtain ⟨middle, hlook, hfront⟩ := enter_cons.mp hfront
      exact ⟨middle, hlook, ih.mpr ⟨next, hfront, hrest⟩⟩

/-- Steps that never lead back end below the directory that they start from. -/
theorem place_of_enter (hdescends : Descends steps) (h : tree.enter directory steps = .ok place) :
    place = directory ++ steps.filter (· ≠ ".") := by
  induction steps generalizing directory with
  | nil =>
    cases h
    exact (List.append_nil _).symm
  | cons name rest ih =>
    obtain ⟨⟨hup, hroot⟩, hrest⟩ := descends_cons.mp hdescends
    obtain ⟨next, hlook, h⟩ := enter_cons.mp h
    rw [ih hrest h, place_of_lookUp hup hroot hlook, List.append_assoc, ← List.filter_append]
    rfl

/-- What is found in place of a directory was reached through directories. -/
theorem of_locate (h : tree.locate steps = .ok (place, node)) (hnode : node ≠ some .directory) :
    ∃ front name directory, steps = front ++ [name] ∧ tree.enter [] front = .ok directory ∧
      place = directory ++ [name] ∧ node = tree.get? (Path.ofComponents place) := by
  rw [locate] at h
  split at h
  · cases h
    exact absurd rfl hnode
  · rename_i name hlast
    obtain ⟨front, rfl⟩ := List.getLast?_eq_some_iff.mp hlast
    obtain ⟨directory, henter, hlook⟩ := bind_eq_ok_iff.mp h
    rw [List.dropLast_concat] at henter
    exact ⟨front, name, directory, rfl, henter, of_lookUp hlook hnode⟩

/-! ## More directories -/

section Keeps

variable (hkeeps : ∀ key, before.get? key = some .directory → after.get? key = some .directory)

include hkeeps

theorem lookUp_of_keeps (h : before.lookUp directory name = .ok (place, some .directory)) :
    after.lookUp directory name = .ok (place, some .directory) := by
  have hnode (spot : List String) (h : before.node? spot = some .directory) :
      after.node? spot = some .directory := by
    rw [node?] at h ⊢
    split
    · rfl
    · rename_i hinside
      rw [if_neg hinside] at h
      exact hkeeps _ h
  rw [lookUp] at h ⊢
  split_ifs at h ⊢ with hroot hdot hup
  case neg =>
    rw [Except.ok.injEq, Prod.mk.injEq] at h
    rw [h.1, hnode place (h.1 ▸ h.2)]
  all_goals exact h

/-- Where no directory has gone, paths through directories lead where they led. -/
theorem enter_of_keeps (h : before.enter directory steps = .ok place) :
    after.enter directory steps = .ok place := by
  induction steps generalizing directory with
  | nil => exact h
  | cons name rest ih =>
    obtain ⟨next, hlook, h⟩ := enter_cons.mp h
    exact enter_cons.mpr ⟨next, lookUp_of_keeps hkeeps hlook, ih h⟩

end Keeps

/-! ## Confined changes -/

variable {output : List String} {key contents : String}

/-- A key is that of a place below the one where some steps lead through directories. -/
def LiesBelow (tree : FileTree) (output : List String) (key : String) : Prop :=
  ∃ directory rest, tree.enter [] output = .ok directory ∧ rest ≠ [] ∧ Descends rest ∧
    key = Path.ofComponents (directory ++ rest)

/-- Below an output that never leads back the place starts with the output. -/
theorem LiesBelow.exists_place (h : tree.LiesBelow output key) (hdescends : Descends output) :
    ∃ rest, key = Path.ofComponents (output.filter (· ≠ ".") ++ rest) := by
  obtain ⟨directory, rest, henter, _, _, hkey⟩ := h
  rw [place_of_enter hdescends henter, List.nil_append] at hkey
  exact ⟨rest, hkey⟩

/-- The changes from one tree to another one write files below the place where the steps `output` lead, and
nowhere else. -/
structure Confined (output : List String) (before after : FileTree) : Prop where
  /-- A file that is new or has other contents lies below the place. -/
  written : ∀ key contents, after.get? key = some (.file contents) →
    before.get? key = some (.file contents) ∨ after.LiesBelow output key
  files : ∀ key contents, before.get? key = some (.file contents) →
    ∃ contents', after.get? key = some (.file contents')
  directories : ∀ key, before.get? key = some .directory → after.get? key = some .directory

namespace Confined

theorem refl (output : List String) (tree : FileTree) : Confined output tree tree where
  written := fun _ _ h => .inl h
  files := fun _ contents h => ⟨contents, h⟩
  directories := fun _ h => h

theorem liesBelow (h : Confined output before after) (hbelow : before.LiesBelow output key) :
    after.LiesBelow output key := by
  obtain ⟨directory, rest, henter, hrest⟩ := hbelow
  exact ⟨directory, rest, enter_of_keeps h.directories henter, hrest⟩

theorem trans {middle : FileTree} (hfirst : Confined output before middle)
    (hsecond : Confined output middle after) : Confined output before after where
  written := fun key contents hafter => by
    rcases hsecond.written key contents hafter with hmiddle | hbelow
    · exact (hfirst.written key contents hmiddle).imp_right hsecond.liesBelow
    · exact .inr hbelow
  files := fun key contents h => by
    obtain ⟨contents', hmiddle⟩ := hfirst.files key contents h
    exact hsecond.files key contents' hmiddle
  directories := fun key h => hsecond.directories key (hfirst.directories key h)

end Confined

/-! ## Operations -/

theorem get?_put (tree : FileTree) (place : List String) (node : Node) (key : String) :
    (tree.put place node).get? key =
      if Path.ofComponents place = key then some node else tree.get? key :=
  SortedMap.get?_insert tree _ _ _

/-- A directory where nothing stood is no file. -/
theorem confined_put_directory (hnone : tree.get? (Path.ofComponents place) = none) :
    Confined output tree (tree.put place .directory) where
  written := fun key contents h => by
    rw [get?_put] at h
    split at h
    · cases h
    · exact .inl h
  files := fun key contents h => by
    refine ⟨contents, ?_⟩
    rw [get?_put, if_neg, h]
    rintro rfl
    rw [hnone] at h
    cases h
  directories := fun key h => by
    rw [get?_put]
    split
    · rfl
    · exact h

theorem confined_put_file (hfree : tree.get? (Path.ofComponents place) ≠ some .directory)
    (hbelow : tree.LiesBelow output (Path.ofComponents place)) :
    Confined output tree (tree.put place (.file contents)) := by
  have hdirectories (key : String) (h : tree.get? key = some .directory) :
      (tree.put place (.file contents)).get? key = some .directory := by
    rw [get?_put, if_neg, h]
    rintro rfl
    exact hfree h
  refine ⟨fun key contents' h => ?_, fun key contents' h => ?_, hdirectories⟩
  · rw [get?_put] at h
    split at h
    · rename_i hkey
      obtain ⟨directory, rest, henter, hrest⟩ := hbelow
      exact .inr ⟨directory, rest, enter_of_keeps hdirectories henter, hkey ▸ hrest⟩
    · exact .inl h
  · rw [get?_put]
    split
    · exact ⟨contents, rfl⟩
    · exact ⟨contents', h⟩

theorem confined_makeDirectory (h : tree.makeDirectory steps = .ok after) :
    Confined output tree after := by
  obtain ⟨⟨place, node⟩, hlocate, h⟩ := bind_eq_ok_iff.mp h
  cases node with
  | none =>
    cases h
    obtain ⟨_, _, _, _, _, _, hnode⟩ := of_locate hlocate (by decide)
    exact confined_put_directory hnode.symm
  | some node => cases h

theorem confined_makeDirectories (h : tree.makeDirectories steps = .ok after) :
    Confined output tree after := by
  fun_induction makeDirectories tree steps generalizing after with
  | case1 =>
    cases h
    exact .refl output tree
  | case2 path hne made hmake =>
    cases h
    exact confined_makeDirectory hmake
  | case3 path hne hmissing hlt ih =>
    obtain ⟨around, haround, h⟩ := bind_eq_ok_iff.mp h
    split at h
    · cases h
      exact ih haround
    · exact (ih haround).trans (confined_makeDirectory h)
  | case4 path hne error herror hmissing hdirectory =>
    cases h
    exact .refl output tree
  | case5 => cases h

/-- The steps to a file are those of its path, with `.` behind them at most. -/
theorem steps_of_fileSteps? {path : String} (h : fileSteps? path = .ok steps) :
    ∃ idle, (idle = [] ∨ idle = ["."]) ∧ steps = Path.steps path ++ idle := by
  obtain ⟨found, hfound, h⟩ := bind_eq_ok_iff.mp h
  have hsteps : found = Path.steps path := by
    rw [steps?] at hfound
    split at hfound
    · cases hfound
    · split at hfound
      · cases hfound
      · cases hfound
        rfl
  cases h
  subst hsteps
  split
  · exact ⟨["."], .inr rfl, rfl⟩
  · exact ⟨[], .inl rfl, (List.append_nil _).symm⟩

/-- A file on a path that leads on from the output and never back lies below the output. -/
theorem confined_writeFile {path : String} {rest : List String}
    (h : tree.writeFile path contents = .ok after) (hsteps : Path.steps path = output ++ rest)
    (hne : rest ≠ []) (hdescends : Descends rest) : Confined output tree after := by
  obtain ⟨steps, hfound, h⟩ := bind_eq_ok_iff.mp h
  obtain ⟨⟨place, node⟩, hlocate, h⟩ := bind_eq_ok_iff.mp h
  dsimp only at h
  split at h
  · cases h
  · rename_i hnode
    cases h
    obtain ⟨front, name, directory, hlast, henter, rfl, hget⟩ := of_locate hlocate hnode
    refine confined_put_file (hget ▸ hnode) ?_
    obtain ⟨idle, hidle, rfl⟩ := steps_of_fileSteps? hfound
    obtain ⟨rest', name', hrest⟩ := List.eq_nil_or_concat' (rest ++ idle) |>.resolve_left
      (List.append_ne_nil_of_left_ne_nil hne idle)
    have hidle : Descends idle := by rcases hidle with rfl | rfl <;> decide
    have hall : Descends (rest' ++ [name']) := hrest ▸ descends_append.mpr ⟨hdescends, hidle⟩
    rw [hsteps, List.append_assoc, hrest, ← List.append_assoc] at hlast
    obtain ⟨rfl, hname⟩ := List.append_inj' hlast rfl
    obtain rfl := List.singleton_inj.mp hname
    obtain ⟨start, hstart, henter⟩ := enter_append.mp henter
    obtain ⟨hfront, hend⟩ := descends_append.mp hall
    refine ⟨start, rest'.filter (· ≠ ".") ++ [name'], hstart, ?_, ?_, ?_⟩
    · exact List.append_ne_nil_of_right_ne_nil _ (List.cons_ne_nil _ _)
    · exact descends_append.mpr ⟨hfront.filter _, hend⟩
    · rw [place_of_enter hfront henter, List.append_assoc]

end SmithyKotlin.FileTree
