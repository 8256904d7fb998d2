import Mathlib.Data.String.Basic
import SmithyKotlin.Files.Path
import SmithyKotlin.Proofs.Text.Pieces

/-!
# Paths below a directory

* `Path.steps_join`: a path that is joined to another one leads on from where that one ends, unless it is absolute
  (`Path.join_of_isAbsolute`).
* `Path.fileName?_join`: a name without slashes becomes the last component, whatever the path is.

What the steps lead to in a tree is left to `Proofs/Files/Place`.
-/

namespace SmithyKotlin

namespace Path

/-- The names between the slashes of a text. -/
def names (cs : List Char) : List String :=
  ((Text.pieces (· == '/') cs).map String.ofList).filter fun name => !name.isEmpty

theorem names_append_cons (xs ys : List Char) : names (xs ++ '/' :: ys) = names xs ++ names ys := by
  have hpieces : Text.pieces (· == '/') (xs ++ '/' :: ys) =
      Text.pieces (· == '/') xs ++ Text.pieces (· == '/') ys :=
    Text.pieces_append_cons (by decide) xs ys
  rw [names, hpieces, List.map_append, List.filter_append]
  rfl

/-- A text without slashes is one name. -/
theorem names_eq_singleton {name : String} (hslash : '/' ∉ name.toList) (hne : name ≠ "") :
    names name.toList = [name] := by
  have hsep := Text.beq_eq_false_of_not_mem hslash
  have hempty : name.isEmpty = false := String.isEmpty_eq_false_iff.mpr hne
  rw [names, Text.pieces_eq_singleton hsep, List.map_singleton, String.ofList_toList,
    List.filter_singleton, hempty]
  rfl

/-- A text that is not made of slashes only has a name. -/
theorem names_ne_nil {cs : List Char} {c : Char} (hmem : c ∈ cs) (hslash : c ≠ '/') :
    names cs ≠ [] := by
  obtain ⟨piece, hpiece, hc⟩ : ∃ piece ∈ Text.pieces (· == '/') cs, c ∈ piece :=
    Text.exists_mem_pieces hmem (beq_eq_false_iff_ne.mpr hslash)
  have hne := mt String.ofList_eq_empty_iff.mp (List.ne_nil_of_mem hc)
  refine List.ne_nil_of_mem (List.mem_filter.mpr ⟨List.mem_map_of_mem hpiece, ?_⟩)
  rw [String.isEmpty_eq_false_iff.mpr hne]
  rfl

theorem slash_not_mem_of_mem_names {cs : List Char} {name : String} (hmem : name ∈ names cs) :
    '/' ∉ name.toList := by
  intro hslash
  obtain ⟨piece, hpiece, rfl⟩ := List.mem_map.mp (List.mem_of_mem_filter hmem)
  rw [String.toList_ofList] at hslash
  exact absurd (Text.sep_of_mem_pieces hpiece hslash) (by decide)

/-- A relative text that ends with its only name has no slash. -/
theorem no_slash_of_names_eq_singleton {cs : List Char} {last : Char} {name : String}
    (hhead : cs.head? ≠ some '/') (hlast : last ≠ '/') (h : names (cs ++ [last]) = [name]) :
    '/' ∉ cs := by
  intro hmem
  cases hcut : Text.cutList '/' cs with
  | none => exact Text.cutList_eq_none_iff.mp hcut hmem
  | some parts =>
    obtain ⟨front, behind⟩ := parts
    obtain ⟨hcs, hfront⟩ := Text.cutList_eq_some_iff.mp hcut
    cases front with
    | nil =>
      rw [hcs] at hhead
      exact hhead rfl
    | cons c rest =>
      have hc : c ≠ '/' := fun heq => hfront (heq ▸ List.mem_cons_self)
      have hbefore : 0 < (names (c :: rest)).length :=
        List.length_pos_iff.mpr (names_ne_nil List.mem_cons_self hc)
      have hbehind : 0 < (names (behind ++ [last])).length :=
        List.length_pos_iff.mpr
          (names_ne_nil (List.mem_append_right _ (List.mem_singleton_self _)) hlast)
      have hsplit : cs ++ [last] = (c :: rest) ++ '/' :: (behind ++ [last]) := by
        rw [hcs, List.append_assoc]
        rfl
      rw [hsplit, names_append_cons] at h
      have hlength := congrArg List.length h
      rw [List.length_append, List.length_singleton] at hlength
      omega

theorem steps_eq (path : String) :
    steps path = (if isAbsolute path then ["/"] else []) ++ names path.toList := by
  rw [steps]
  split <;> rfl

theorem isAbsolute_of_no_slash {name : String} (hslash : '/' ∉ name.toList) :
    isAbsolute name = false := by
  rw [isAbsolute, decide_eq_false_iff_not]
  exact fun h => hslash (List.mem_of_mem_head? h)

/-- A relative path does not lead to the start of all paths. -/
theorem root_not_mem_steps {path : String} (hrelative : isAbsolute path = false) :
    "/" ∉ steps path := by
  rw [steps_eq, hrelative, if_neg Bool.false_ne_true, List.nil_append]
  intro hmem
  exact slash_not_mem_of_mem_names hmem (by decide)

section Join

variable {base path : String}

theorem join_of_isAbsolute (h : isAbsolute path = true) : join base path = path := if_pos h

example : join "src" "/a" = "/a" := by decide +kernel

/-- The text of two paths joined, the second of which starts where the first one ends. -/
theorem toList_join (hrelative : isAbsolute path = false) :
    (join base path).toList =
      if base.isEmpty || base.toList.getLast? = some '/' then base.toList ++ path.toList
      else base.toList ++ '/' :: path.toList := by
  rw [join, hrelative, if_neg Bool.false_ne_true]
  split
  · rw [String.toList_append]
  · rw [String.toList_append, String.toList_append, List.append_assoc]
    rfl

/-- Joining brings no character but slashes into a path. -/
theorem mem_join {c : Char} (h : c ∈ (join base path).toList) :
    c = '/' ∨ c ∈ base.toList ∨ c ∈ path.toList := by
  rw [join] at h
  split at h
  · exact .inr (.inr h)
  · split at h
    · rw [String.toList_append, List.mem_append] at h
      exact .inr h
    · rw [String.toList_append, String.toList_append, List.mem_append, List.mem_append] at h
      rcases h with (h | h) | h
      · exact .inr (.inl h)
      · exact .inl (List.mem_singleton.mp h)
      · exact .inr (.inr h)

theorem names_join (hrelative : isAbsolute path = false) :
    names (join base path).toList = names base.toList ++ names path.toList := by
  rw [toList_join hrelative]
  by_cases hempty : base = ""
  · subst hempty
    rfl
  · rw [String.isEmpty_eq_false_iff.mpr hempty, Bool.false_or]
    by_cases hlast : base.toList.getLast? = some '/'
    · rw [decide_eq_true hlast, if_pos rfl]
      obtain ⟨front, hfront⟩ := List.getLast?_eq_some_iff.mp hlast
      have hnone : names [] = [] := rfl
      rw [hfront, List.append_assoc, List.singleton_append, names_append_cons, names_append_cons,
        hnone, List.append_nil]
    · rw [decide_eq_false hlast, if_neg Bool.false_ne_true, names_append_cons]

theorem isAbsolute_join (hrelative : isAbsolute path = false) :
    isAbsolute (join base path) = isAbsolute base := by
  rw [isAbsolute, isAbsolute, toList_join hrelative]
  by_cases hempty : base = ""
  · subst hempty
    rw [isAbsolute, decide_eq_false_iff_not] at hrelative
    exact decide_eq_decide.mpr (iff_of_false hrelative (by decide))
  · have hlist : base.toList ≠ [] := by
      intro h
      exact hempty (String.toList_eq_nil_iff.mp h)
    obtain ⟨c, rest, hcons⟩ := List.exists_cons_of_ne_nil hlist
    rw [hcons]
    split <;> rfl

/-- A joined path leads through the first path and from its end through the second one. -/
theorem steps_join (hrelative : isAbsolute path = false) :
    steps (join base path) = steps base ++ steps path := by
  rw [steps_eq, steps_eq, steps_eq, isAbsolute_join hrelative, names_join hrelative, hrelative,
    if_neg Bool.false_ne_true, List.nil_append, List.append_assoc]

theorem components_join (hrelative : isAbsolute path = false) :
    components (join base path) = components base ++ components path := by
  rw [components, components, components, steps_join hrelative, List.filter_append]

end Join

theorem steps_name {name : String} (hslash : '/' ∉ name.toList) (hne : name ≠ "") :
    steps name = [name] := by
  rw [steps_eq, isAbsolute_of_no_slash hslash, if_neg Bool.false_ne_true, List.nil_append,
    names_eq_singleton hslash hne]

/-- Components that do not start with that of all paths are joined behind the first of them. -/
theorem prefix_ofComponents {name : String} (hroot : name ≠ "/") (rest : List String) :
    name.toList <+: (ofComponents (name :: rest)).toList := by
  have hnames : ofComponents (name :: rest) = "/".intercalate (name :: rest) := by
    rw [ofComponents]
    intro names heq
    exact hroot (List.cons.inj heq).1
  rw [hnames]
  cases rest with
  | nil =>
    have hone : "/".intercalate [name] = name := String.intercalate_singleton
    exact ⟨[], by rw [List.append_nil, hone]⟩
  | cons next rest =>
    rw [String.intercalate_cons_cons, String.append_assoc, String.toList_append]
    exact List.prefix_append _ _

/-- A name joined to a path is the last component. -/
theorem fileName?_join {base name : String} (hslash : '/' ∉ name.toList) (hne : name ≠ "")
    (hdot : name ≠ ".") (hdots : name ≠ "..") : fileName? (join base name) = some name := by
  have hroot : name ≠ "/" := by
    rintro rfl
    exact hslash (by decide)
  have hname : components name = [name] := by
    rw [components, steps_name hslash hne, List.filter_singleton, decide_eq_true hdot]
    rfl
  rw [fileName?, components_join (isAbsolute_of_no_slash hslash), hname, List.getLast?_concat,
    Option.filter_some, decide_eq_true hdots, decide_eq_true hroot]
  rfl

end Path

end SmithyKotlin
