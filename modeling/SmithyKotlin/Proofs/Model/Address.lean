import SmithyKotlin.Model.ShapeId
import SmithyKotlin.Proofs.Text.Cut

/-!
# What an id addresses

* `ShapeId.IsRoot`, `ShapeId.IsMember`: an absolute id addresses a shape, its container, or a member of it.
* `ShapeId.eq_of_address_eq`: its text is that of the container with the name of the member behind it, so no two
  absolute ids address the same thing.
* `ShapeId.isMember_withMember_iff`: when an id that is made for a member is one of it.  The parts of an id are
  found at its first `#` and behind that, but a member is put where the first `$` is.
* `ShapeId.withMember_agrees`: as long as no `$` stands in front of the `#` (`ShapeId.IsScoped`) the two agree, and
  the id of a member tells its shape and its name.
-/

namespace SmithyKotlin.ShapeId

/-- A text of the form `scope#rest` with both parts, where the scope ends at the first `#`. -/
def IsQualified (text : String) : Prop :=
  ∃ scope rest, text = scope ++ "#" ++ rest ∧ '#' ∉ scope.toList ∧ scope ≠ "" ∧ rest ≠ ""

/-- The cut of a text at the end of its scope. -/
theorem cut?_scope {text scope rest : String} (htext : text = scope ++ "#" ++ rest)
    (hscope : '#' ∉ scope.toList) : Text.cut? '#' text = some (scope, rest) :=
  Text.cut?_eq_some_iff.mpr ⟨htext, hscope⟩

theorem isAbsolute_iff {id : ShapeId} : id.isAbsolute = true ↔ IsQualified id.text := by
  rw [isAbsolute, IsQualified]
  cases hcut : Text.cut? '#' id.text with
  | none =>
    constructor
    · intro h
      cases h
    · intro h
      obtain ⟨scope, rest, htext, hscope, _⟩ := h
      rw [cut?_scope htext hscope] at hcut
      cases hcut
  | some parts =>
    obtain ⟨scope, rest⟩ := parts
    obtain ⟨htext, hscope⟩ := Text.cut?_eq_some_iff.mp hcut
    simp only [Bool.and_eq_true, Bool.not_eq_true', String.isEmpty_eq_false_iff]
    constructor
    · intro h
      obtain ⟨hne, hrest⟩ := h
      exact ⟨scope, rest, htext, hscope, hne, hrest⟩
    · intro h
      obtain ⟨scope', rest', htext', hscope', hne, hrest⟩ := h
      rw [cut?_scope htext' hscope'] at hcut
      cases hcut
      exact ⟨hne, hrest⟩

theorem namespace?_eq {id : ShapeId} {scope rest : String} (htext : id.text = scope ++ "#" ++ rest)
    (hscope : '#' ∉ scope.toList) : id.namespace? = some scope := by
  rw [namespace?, cut?_scope htext hscope]
  rfl

theorem exists_namespace?_iff {id : ShapeId} :
    (∃ scope, id.namespace? = some scope) ↔ '#' ∈ id.text.toList := by
  rw [← Option.isSome_iff_exists, namespace?, Option.isSome_map, Option.isSome_iff_ne_none, Ne,
    Text.cut?_eq_none_iff, not_not]

theorem localPart_eq {id : ShapeId} {scope rest : String} (htext : id.text = scope ++ "#" ++ rest)
    (hscope : '#' ∉ scope.toList) : id.localPart = rest := by
  rw [localPart, cut?_scope htext hscope]
  rfl

/-- The text of the member `member?` of the shape with the text `container`, or of the shape. -/
def addressText (container : String) (member? : Option String) : String :=
  container ++ member?.elim "" fun member => "$" ++ member

/-- The text of an id with a scope is made of its parts. -/
theorem text_eq_of_scope {id : ShapeId} {scope rest : String} (htext : id.text = scope ++ "#" ++ rest)
    (hscope : '#' ∉ scope.toList) : id.text = addressText (scope ++ "#" ++ id.name) id.member? := by
  have hlocal := localPart_eq htext hscope
  have hmember : id.member? = (Text.cut? '$' rest).map (·.2) := by
    rw [member?, namespace?_eq htext hscope, if_pos Option.isSome_some, hlocal]
  rw [addressText, name, hlocal, hmember, htext, Text.before]
  cases hparts : Text.cut? '$' rest with
  | none =>
    change scope ++ "#" ++ rest = scope ++ "#" ++ rest ++ ""
    rw [String.append_empty]
  | some parts =>
    have hrest := (Text.cut?_eq_some_iff.mp hparts).1
    change scope ++ "#" ++ rest = scope ++ "#" ++ parts.1 ++ ("$" ++ parts.2)
    rw [hrest, String.append_assoc, String.append_assoc, String.append_assoc, String.append_assoc]
    rfl

theorem text_eq_addressText {id : ShapeId} (habsolute : id.isAbsolute = true) :
    id.text = addressText id.container.text id.member? := by
  obtain ⟨scope, rest, htext, hscope, _⟩ := isAbsolute_iff.mp habsolute
  rw [container, namespace?_eq htext hscope]
  exact text_eq_of_scope htext hscope

/-- Absolute ids with the same container and member are the same. -/
theorem eq_of_address_eq {a b : ShapeId} (ha : a.isAbsolute = true) (hb : b.isAbsolute = true)
    (hcontainer : a.container = b.container) (hmember : a.member? = b.member?) : a = b := by
  rw [← text_inj, text_eq_addressText ha, text_eq_addressText hb, hcontainer, hmember]

/-! ## Ids of shapes and of members -/

/-- The id of a shape: a namespace and a name, and no member. -/
structure IsRoot (id : ShapeId) : Prop where
  scope : ∃ scope, id.namespace? = some scope ∧ scope ≠ ""
  name : id.name ≠ ""
  member : id.member? = none

/-- The id of a member of the shape `container`. -/
structure IsMember (id container : ShapeId) (ownName : String) : Prop where
  scope : id.namespace? = container.namespace?
  name : id.name = container.name
  member : id.member? = some ownName

theorem exists_scope {id : ShapeId} (habsolute : id.isAbsolute = true) :
    ∃ scope, id.namespace? = some scope ∧ scope ≠ "" := by
  obtain ⟨scope, rest, htext, hscope, hne, _⟩ := isAbsolute_iff.mp habsolute
  exact ⟨scope, namespace?_eq htext hscope, hne⟩

/-- An absolute id is that of a shape unless there is a `$` behind its `#`. -/
theorem isRoot_iff {id : ShapeId} (habsolute : id.isAbsolute = true) :
    id.IsRoot ↔ '$' ∉ id.localPart.toList := by
  obtain ⟨scope, rest, htext, hscope, hne, hrest⟩ := isAbsolute_iff.mp habsolute
  have hspace := namespace?_eq htext hscope
  have hmember : id.member? = (Text.cut? '$' id.localPart).map (·.2) := by
    rw [member?, hspace, if_pos Option.isSome_some]
  rw [← Text.cut?_eq_none_iff]
  constructor
  · intro hroot
    rw [← Option.map_eq_none_iff, ← hmember]
    exact hroot.member
  · intro hcut
    refine ⟨⟨scope, hspace, hne⟩, ?_, ?_⟩
    · rw [name, Text.before, hcut, localPart_eq htext hscope]
      exact hrest
    · rw [hmember, hcut]
      rfl

/-- Without a `$` in the scope, the member is put behind scope and name. -/
theorem text_withMember {id : ShapeId} {scope rest : String} (htext : id.text = scope ++ "#" ++ rest)
    (hscope : '#' ∉ scope.toList) (hdollar : '$' ∉ scope.toList) (member : String) :
    (id.withMember member).text = scope ++ "#" ++ (id.name ++ String.singleton '$' ++ member) := by
  have hfront : '$' ∉ (scope ++ "#").toList := by
    rw [String.toList_append, List.mem_append, not_or]
    exact ⟨hdollar, by decide⟩
  show Text.before '$' id.text ++ String.singleton '$' ++ member = _
  rw [htext, Text.before_append hfront, name, localPart_eq htext hscope]
  simp only [String.append_assoc]

theorem isMember_withMember_of_scope {id : ShapeId} {scope rest : String} (htext : id.text = scope ++ "#" ++ rest)
    (hscope : '#' ∉ scope.toList) (hdollar : '$' ∉ scope.toList) (member : String) :
    (id.withMember member).IsMember id member := by
  have hmember := text_withMember htext hscope hdollar member
  have hcut : Text.cut? '$' (id.withMember member).localPart = some (id.name, member) := by
    rw [localPart_eq hmember hscope]
    exact Text.cut?_eq_some_iff.mpr ⟨rfl, Text.not_mem_before '$' _⟩
  refine ⟨?_, ?_, ?_⟩
  · rw [namespace?_eq htext hscope, namespace?_eq hmember hscope]
  · rw [name, Text.before, hcut]
    rfl
  · rw [member?, namespace?_eq hmember hscope, if_pos Option.isSome_some, hcut]
    rfl

theorem isMember_withMember {id : ShapeId} (habsolute : id.isAbsolute = true)
    (hdollar : ∀ scope ∈ id.namespace?, '$' ∉ scope.toList) (member : String) :
    (id.withMember member).IsMember id member := by
  obtain ⟨scope, rest, htext, hscope, _⟩ := isAbsolute_iff.mp habsolute
  exact isMember_withMember_of_scope htext hscope (hdollar scope (namespace?_eq htext hscope)) member

theorem exists_text_of_member? {id : ShapeId} {member : String} (hmember : id.member? = some member) :
    ∃ scope name, id.text = scope ++ "#" ++ name ++ "$" ++ member := by
  rw [member?, localPart, namespace?, Option.ite_none_right_eq_some] at hmember
  cases hcut : Text.cut? '#' id.text with
  | none =>
    rw [hcut] at hmember
    cases hmember.1
  | some parts =>
    obtain ⟨scope, rest⟩ := parts
    rw [hcut] at hmember
    obtain ⟨⟨name, behind⟩, hrest, hbehind⟩ := Option.map_eq_some_iff.mp hmember.2
    have hname : rest = name ++ "$" ++ behind := (Text.cut?_eq_some_iff.mp hrest).1
    refine ⟨scope, name, ?_⟩
    rw [(Text.cut?_eq_some_iff.mp hcut).1, hname, ← hbehind]
    simp only [String.append_assoc]
    rfl

/-- With a `$` in the namespace the text of a member goes on with its name there, before the `#`. -/
theorem member?_withMember_ne {id : ShapeId} {scope rest : String}
    (htext : id.text = scope ++ "#" ++ rest) (hscope : '#' ∉ scope.toList)
    (hdollar : '$' ∈ scope.toList) (member : String) : (id.withMember member).member? ≠ some member := by
  obtain ⟨behind, hsplit⟩ := Text.exists_eq_before_append hdollar
  have hfront : '#' ∉ (Text.before '$' scope).toList := by
    intro hmem
    rw [hsplit, String.toList_append, String.toList_append] at hscope
    exact hscope (List.mem_append_left _ (List.mem_append_left _ hmem))
  have hbefore : Text.before '$' id.text = Text.before '$' scope := by
    rw [Text.before_eq_iff (Text.not_mem_before '$' scope), htext]
    refine .inr ⟨behind ++ "#" ++ rest, (congrArg (· ++ "#" ++ rest) hsplit).trans ?_⟩
    simp only [String.append_assoc]
  intro hmember
  obtain ⟨space, name, hwhole⟩ := exists_text_of_member? hmember
  change Text.before '$' id.text ++ "$" ++ member = _ at hwhole
  rw [hbefore, String.append_left_inj, String.append_left_inj] at hwhole
  rw [hwhole, String.toList_append, String.toList_append] at hfront
  exact hfront (List.mem_append_left _ (List.mem_append_right _ (by decide)))

/-- The id of a member is that of the shape with the name behind it unless the namespace has a `$`. -/
theorem isMember_withMember_iff {id : ShapeId} (habsolute : id.isAbsolute = true) (member : String) :
    (id.withMember member).IsMember id member ↔ ∀ scope ∈ id.namespace?, '$' ∉ scope.toList := by
  refine ⟨fun hmember scope hspace hdollar => ?_, fun h => isMember_withMember habsolute h member⟩
  obtain ⟨space, rest, htext, hhash, _⟩ := isAbsolute_iff.mp habsolute
  rw [namespace?_eq htext hhash, Option.mem_some_iff] at hspace
  subst hspace
  exact member?_withMember_ne htext hhash hdollar member hmember.member

/-- An id without a member addresses itself. -/
theorem container_of_member_none {id : ShapeId} (habsolute : id.isAbsolute = true)
    (hmember : id.member? = none) : id.container = id := by
  rw [← text_inj, text_eq_addressText habsolute, hmember, addressText, Option.elim_none,
    String.append_empty]

theorem IsMember.container_eq {id container : ShapeId} {name : String}
    (hmember : id.IsMember container name) (habsolute : container.isAbsolute = true)
    (hroot : container.IsRoot) : id.container = container := by
  rw [ShapeId.container, hmember.scope, hmember.name]
  exact container_of_member_none habsolute hroot.member

/-! ## Members of one shape -/

theorem before_withMember (id : ShapeId) (member : String) :
    Text.before '$' (id.withMember member).text = Text.before '$' id.text :=
  (Text.before_eq_iff (Text.not_mem_before '$' id.text)).mpr (.inr ⟨member, rfl⟩)

/-- A member takes the place of one that was named before. -/
theorem withMember_withMember (id : ShapeId) (a b : String) : (id.withMember a).withMember b = id.withMember b := by
  rw [withMember, before_withMember]
  rfl

/-- A `#` stands in the text, and no `$` in front of it. -/
def IsScoped (id : ShapeId) : Prop :=
  ∃ front rest : String, id.text = front ++ "#" ++ rest ∧ '$' ∉ front.toList

/-- The scope ends at the first `#`, and there is no `$` in front of that one either. -/
theorem IsScoped.exists_scope {id : ShapeId} (hid : id.IsScoped) : ∃ scope rest : String,
    id.text = scope ++ "#" ++ rest ∧ '#' ∉ scope.toList ∧ '$' ∉ scope.toList := by
  obtain ⟨front, rest, htext, hdollar⟩ := hid
  by_cases hhash : '#' ∈ front.toList
  · obtain ⟨behind, hfront⟩ := Text.exists_eq_before_append hhash
    refine ⟨Text.before '#' front, behind ++ "#" ++ rest, ?_, Text.not_mem_before '#' front, fun hmem => ?_⟩
    · rw [htext]
      refine (congrArg (· ++ "#" ++ rest) hfront).trans ?_
      simp only [String.append_assoc]
      rfl
    · rw [hfront, String.toList_append, String.toList_append] at hdollar
      exact hdollar (List.mem_append_left _ (List.mem_append_left _ hmem))
  · exact ⟨front, rest, htext, hhash, hdollar⟩

/-- The parts of an id make up its text, and a member that is named keeps them and can be read back: so the id of a
member tells which shape and which member it belongs to. -/
theorem withMember_agrees {id : ShapeId} (hid : id.IsScoped) :
    (∃ scope, id.namespace? = some scope ∧ '#' ∉ scope.toList ∧ '$' ∉ id.name.toList ∧
      id.text = addressText (scope ++ "#" ++ id.name) id.member?) ∧
    (∀ member, (id.withMember member).IsMember id member) ∧
    (∀ a b, (id.withMember a).withMember b = id.withMember b) ∧
    ∀ other : ShapeId, other.IsScoped → ∀ a b, id.withMember a = other.withMember b ↔
      id.namespace? = other.namespace? ∧ id.name = other.name ∧ a = b := by
  obtain ⟨scope, rest, htext, hscope, hdollar⟩ := hid.exists_scope
  have hmember := isMember_withMember_of_scope htext hscope hdollar
  refine ⟨⟨scope, namespace?_eq htext hscope, hscope, Text.not_mem_before '$' _, text_eq_of_scope htext hscope⟩,
    hmember, withMember_withMember id, fun other hother a b => ?_⟩
  obtain ⟨scope', rest', htext', hscope', hdollar'⟩ := hother.exists_scope
  have hmember' := isMember_withMember_of_scope htext' hscope' hdollar' b
  constructor
  · intro h
    rw [← h] at hmember'
    exact ⟨(hmember a).scope.symm.trans hmember'.scope, (hmember a).name.symm.trans hmember'.name,
      Option.some.inj ((hmember a).member.symm.trans hmember'.member)⟩
  · rintro ⟨hspace, hname, rfl⟩
    rw [namespace?_eq htext hscope, namespace?_eq htext' hscope', Option.some.injEq] at hspace
    rw [← text_inj, text_withMember htext hscope hdollar, text_withMember htext' hscope' hdollar', hspace, hname]

/-- Two ids of one shape, one of which names a member, and a member whose name has both signs in it. -/
theorem withMember_agrees_note :
    (⟨"com.example#Note$draft"⟩ : ShapeId).IsScoped ∧ (⟨"com.example#Note"⟩ : ShapeId).IsScoped ∧
      (⟨"com.example#Note$draft"⟩ : ShapeId).withMember "a$b#c" =
        (⟨"com.example#Note"⟩ : ShapeId).withMember "a$b#c" ∧
      ((⟨"com.example#Note$draft"⟩ : ShapeId).withMember "a$b#c").member? = some "a$b#c" := by
  have hdraft : (⟨"com.example#Note$draft"⟩ : ShapeId).IsScoped :=
    ⟨"com.example", "Note$draft", by decide, by decide⟩
  have hnote : (⟨"com.example#Note"⟩ : ShapeId).IsScoped := ⟨"com.example", "Note", by decide, by decide⟩
  obtain ⟨_, hmember, _, htell⟩ := withMember_agrees hdraft
  have hsame := htell ⟨"com.example#Note"⟩ hnote "a$b#c" "a$b#c"
  exact ⟨hdraft, hnote, hsame.mpr ⟨by decide +kernel, by decide +kernel, rfl⟩, (hmember "a$b#c").member⟩

example : ((⟨"a.b#C"⟩ : ShapeId).withMember "d").withMember "e" = ⟨"a.b#C$e"⟩ := by decide +kernel

/-- Without a scope there is no shape that a member could belong to. -/
example : (⟨"C$d"⟩ : ShapeId).member? = none := by decide +kernel

end SmithyKotlin.ShapeId
