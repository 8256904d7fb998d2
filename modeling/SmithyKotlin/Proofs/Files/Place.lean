import SmithyKotlin.Proofs.Files.Confinement
import SmithyKotlin.Proofs.Files.Path

/-!
# Places

Steps lead to a place: names that stand where paths start, or behind the start of all paths (`Path.IsPlace`).

* `Path.steps_ofComponents`: a file tree keeps a place under its text, and the steps of the text are the place
  again.
* `Path.ofComponents_inj`: so different places never share an entry.
* `FileTree.isPlace_of_path`: what a path leads to is a place.
* `Path.LeadsOn`: the paths that lead to a place of their own wherever they are joined.
-/

namespace SmithyKotlin

namespace Path

/-- A name that a path can lead through: it has something in it, and no slash. -/
def IsName (name : String) : Prop := name ≠ "" ∧ '/' ∉ name.toList

/-- Names, from where the path starts or from the start of all paths. -/
def IsPlace (place : List String) : Prop :=
  ∃ names, (∀ name ∈ names, IsName name) ∧ (place = names ∨ place = "/" :: names)

theorem isName_of_mem_names {cs : List Char} {name : String} (h : name ∈ names cs) : IsName name := by
  refine ⟨?_, slash_not_mem_of_mem_names h⟩
  rintro rfl
  simpa using (List.mem_filter.mp h).2

theorem ne_root_of_isName {name : String} (h : IsName name) : name ≠ "/" := by
  rintro rfl
  exact h.2 (by decide)

theorem isName_of_mem_steps {path name : String} (h : name ∈ steps path) (hroot : name ≠ "/") :
    IsName name := by
  rw [steps_eq, List.mem_append] at h
  rcases h with h | h
  · split at h
    · exact absurd (List.mem_singleton.mp h) hroot
    · cases h
  · exact isName_of_mem_names h

theorem isPlace_nil : IsPlace [] := ⟨[], by simp, .inl rfl⟩

theorem isPlace_root : IsPlace ["/"] := ⟨[], by simp, .inr rfl⟩

theorem IsPlace.append {place rest : List String} (h : IsPlace place)
    (hrest : ∀ name ∈ rest, IsName name) : IsPlace (place ++ rest) := by
  obtain ⟨names, hnames, hplace⟩ := h
  refine ⟨names ++ rest, ?_, ?_⟩
  · intro name hmem
    rcases List.mem_append.mp hmem with hmem | hmem
    · exact hnames name hmem
    · exact hrest name hmem
  · rcases hplace with rfl | rfl
    · exact .inl rfl
    · exact .inr rfl

/-- The text of names gives the names back. -/
theorem names_intercalate {list : List String} (h : ∀ name ∈ list, IsName name) :
    names ("/".intercalate list).toList = list := by
  induction list with
  | nil => rfl
  | cons name rest ih =>
    obtain ⟨⟨hne, hslash⟩, hrest⟩ := List.forall_mem_cons.mp h
    cases rest with
    | nil =>
      rw [String.intercalate_singleton]
      exact names_eq_singleton hslash hne
    | cons next rest =>
      have hlist : ("/".intercalate (name :: next :: rest)).toList =
          name.toList ++ '/' :: ("/".intercalate (next :: rest)).toList := by
        rw [String.intercalate_cons_cons, String.toList_append, String.toList_append,
          List.append_assoc]
        rfl
      rw [hlist, names_append_cons, names_eq_singleton hslash hne, ih hrest]
      rfl

theorem isAbsolute_intercalate {list : List String} (h : ∀ name ∈ list, IsName name) :
    isAbsolute ("/".intercalate list) = false := by
  cases list with
  | nil => rfl
  | cons name rest =>
    obtain ⟨⟨hne, hslash⟩, _⟩ := List.forall_mem_cons.mp h
    have hlist : name.toList ≠ [] := mt String.toList_eq_nil_iff.mp hne
    have hhead : ("/".intercalate (name :: rest)).toList.head? = name.toList.head? := by
      cases rest with
      | nil => rw [String.intercalate_singleton]
      | cons next rest =>
        rw [String.intercalate_cons_cons, String.append_assoc, String.toList_append,
          List.head?_append_of_ne_nil _ hlist]
    rw [isAbsolute, decide_eq_false_iff_not, hhead]
    exact fun h => hslash (List.mem_of_mem_head? h)

theorem ofComponents_root (list : List String) :
    ofComponents ("/" :: list) = "/" ++ "/".intercalate list := rfl

theorem ofComponents_names {list : List String} (h : ∀ name ∈ list, IsName name) :
    ofComponents list = "/".intercalate list := by
  rw [ofComponents]
  rintro rest rfl
  exact ne_root_of_isName (h _ List.mem_cons_self) rfl

/-- The steps of the text of a place are the place. -/
theorem steps_ofComponents {place : List String} (h : IsPlace place) :
    steps (ofComponents place) = place := by
  obtain ⟨list, hnames, rfl | rfl⟩ := h
  · rw [ofComponents_names hnames, steps_eq, isAbsolute_intercalate hnames, names_intercalate hnames]
    rfl
  · have habsolute : isAbsolute ("/" ++ "/".intercalate list) = true := by
      rw [isAbsolute, String.toList_append]
      rfl
    have hlist : ("/" ++ "/".intercalate list).toList = [] ++ '/' :: ("/".intercalate list).toList := by
      rw [String.toList_append]
      rfl
    rw [ofComponents_root, steps_eq, habsolute, hlist, names_append_cons, names_intercalate hnames]
    rfl

/-- Different places have different texts. -/
theorem ofComponents_inj {a b : List String} (ha : IsPlace a) (hb : IsPlace b) :
    ofComponents a = ofComponents b ↔ a = b := by
  refine ⟨fun h => ?_, congrArg ofComponents⟩
  rw [← steps_ofComponents ha, h, steps_ofComponents hb]

/-- A path that leads somewhere from where it is joined: it is relative and never leads upwards. -/
structure LeadsOn (path : String) : Prop where
  relative : isAbsolute path = false
  descends : ".." ∉ steps path
  steps_ne : steps path ≠ []

namespace LeadsOn

variable {path : String} (h : LeadsOn path)

include h

theorem isName_of_mem_components {name : String} (hmem : name ∈ components path) : IsName name := by
  have hstep := List.mem_of_mem_filter hmem
  exact isName_of_mem_steps hstep fun heq => root_not_mem_steps h.relative (heq ▸ hstep)

theorem isPlace_append {directory : List String} (hdirectory : IsPlace directory) :
    IsPlace (directory ++ components path) :=
  hdirectory.append fun _ => h.isName_of_mem_components

end LeadsOn

end Path

namespace FileTree

open SmithyKotlin.Path

variable {tree : FileTree} {directory place steps : List String} {name : String} {node : Option Node}

theorem isPlace_above (h : IsPlace directory) : IsPlace (above directory) := by
  have hup : ∀ name ∈ [".."], IsName name := by
    intro name hmem
    rw [List.mem_singleton.mp hmem]
    exact ⟨by decide, by decide⟩
  rw [above]
  split_ifs with hroot houtside
  · exact h
  · exact h.append hup
  · obtain ⟨names, hnames, rfl | rfl⟩ := h
    · exact ⟨_, fun name hmem => hnames name ((List.dropLast_sublist _).subset hmem), .inl rfl⟩
    · have hne : names ≠ [] := by
        rintro rfl
        exact hroot rfl
      refine ⟨_, fun name hmem => hnames name ((List.dropLast_sublist _).subset hmem), .inr ?_⟩
      rw [List.dropLast_cons_of_ne_nil hne]

theorem isPlace_of_lookUp (hdirectory : IsPlace directory) (hname : name ≠ "/" → IsName name)
    (h : tree.lookUp directory name = .ok (place, node)) : IsPlace place := by
  rw [lookUp] at h
  split_ifs at h with hroot hdot hup
  · cases h
    exact isPlace_root
  · cases h
    exact hdirectory
  · cases h
    exact isPlace_above hdirectory
  · cases h
    refine hdirectory.append fun found hmem => ?_
    rw [List.mem_singleton.mp hmem]
    exact hname hroot

/-- Steps lead from places to places. -/
theorem isPlace_of_enter (hdirectory : IsPlace directory)
    (hsteps : ∀ name ∈ steps, name ≠ "/" → IsName name)
    (h : tree.enter directory steps = .ok place) : IsPlace place := by
  induction steps generalizing directory with
  | nil =>
    cases h
    exact hdirectory
  | cons name rest ih =>
    obtain ⟨hname, hrest⟩ := List.forall_mem_cons.mp hsteps
    obtain ⟨next, hlook, h⟩ := enter_cons.mp h
    exact ih (isPlace_of_lookUp hdirectory hname hlook) hrest h

theorem isPlace_of_path {path : String} (h : tree.enter [] (Path.steps path) = .ok place) :
    IsPlace place :=
  isPlace_of_enter isPlace_nil (fun _ => isName_of_mem_steps) h

end FileTree

end SmithyKotlin
