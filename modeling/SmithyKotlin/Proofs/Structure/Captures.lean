import SmithyKotlin.Proofs.Structure.Methods
import SmithyKotlin.Proofs.Structure.PropertyNames

/-!
# What names mean inside the methods

A variable or parameter of a method hides the property of its name from where it is declared.

* `Method.uses`: the names in a method with what they mean there and what they are meant for; a use is faithful when
  the two are the same (`Use.IsFaithful`).
* `StructureDeclaration.reads_hashCodeMethod`: `hashCode` names each property once and declares `result` while it
  deals with the first one, which may therefore have that name.
* `StructureDeclaration.reads_equalsMethod`: `equals` names each one once and has the parameter `other` from the
  start.
* `StructureDeclaration.plan_readsMembers`: so all properties are read exactly where the names of the members keep
  clear of the two (`Shape.AvoidsBindings`).

Names with a qualifier are no matter of scope, and `toString` has no variables of its own.
-/

namespace SmithyKotlin

namespace Kotlin

/-! ## Scopes -/

/-- The name that a text stands for: backticks around it do not belong to it. -/
def unquoted (text : String) : String :=
  match text.toList with
  | '\x60' :: rest => if rest.getLast? = some '\x60' then String.ofList rest.dropLast else text
  | _ => text

/-- What a bare name means where the method has declared some names. -/
def meaningOf (declared : List String) (text : String) : Meaning :=
  if unquoted text ∈ declared then .binding else .property

/-- The bare names of an expression with what they are meant for. -/
def Expression.names : Expression → List (Meaning × String)
  | name meaning text => [(meaning, text)]
  | self => []
  | literal _ => []
  | select receiver _ _ => receiver.names
  | classOf receiver => receiver.names
  | binary lhs _ rhs => lhs.names ++ rhs.names
  | contentEquals lhs rhs => lhs.names ++ rhs.names
  | negated value => value.names
  | grouped value => value.names

/-- The bare names of a statement; a variable is no use of its name where it is declared. -/
def Statement.names : Statement → List (Meaning × String)
  | declare _ value => value.names
  | assign name value => (.binding, name) :: value.names
  | leaveIf condition result => condition.names ++ result.names
  | cast name _ => [(.binding, name)]
  | give result => result.names
  | blank => []

/-- The names that a statement declares for those behind it. -/
def Statement.declares : Statement → List String
  | declare name _ => [name]
  | _ => []

/-- A bare name at a place where some names are declared. -/
structure Use where
  declared : List String
  meaning : Meaning
  text : String
  deriving DecidableEq, Repr

namespace Use

/-- The name means what it is meant for. -/
def IsFaithful (use : Use) : Prop := meaningOf use.declared use.text = use.meaning

instance (use : Use) : Decidable use.IsFaithful :=
  inferInstanceAs (Decidable (meaningOf use.declared use.text = use.meaning))

/-- The name of a property that is hidden. -/
def isCaptured (use : Use) : Bool :=
  use.meaning = .property && meaningOf use.declared use.text = .binding

end Use

/-- The uses of the given names where some names are declared. -/
def usesAt (declared : List String) (names : List (Meaning × String)) : List Use :=
  names.map fun name => ⟨declared, name.1, name.2⟩

/-- The uses of bare names in statements, each with the names that have been declared before it. -/
def usesIn (declared : List String) : List Statement → List Use
  | [] => []
  | statement :: rest =>
    usesAt declared statement.names ++ usesIn (statement.declares ++ declared) rest

namespace Method

def uses (method : Method) : List Use :=
  match method.body with
  | .expression value => usesAt (method.parameters.map Prod.fst) value.names
  | .statements list => usesIn (method.parameters.map Prod.fst) list

/-- Every bare name of the method means what it is meant for. -/
def IsFaithful (method : Method) : Prop := ∀ use ∈ method.uses, use.IsFaithful

/-- The names that are meant for properties, in the order of their uses. -/
def propertyNames (method : Method) : List String :=
  (method.uses.filter fun use => use.meaning = .property).map Use.text

/-- The names that are meant for properties and mean a variable or parameter. -/
def captured (method : Method) : List String := (method.uses.filter Use.isCaptured).map Use.text

/-- Names that are meant for variables and parameters cannot go wrong. -/
theorem isFaithful_iff {method : Method}
    (hbindings : ∀ use ∈ method.uses, use.meaning = .binding → use.IsFaithful) :
    method.IsFaithful ↔ method.captured = [] := by
  rw [captured, List.map_eq_nil_iff, List.filter_eq_nil_iff]
  refine forall₂_congr fun use hmem => ?_
  rw [Use.isCaptured, Bool.and_eq_true, decide_eq_true_eq, decide_eq_true_eq, Use.IsFaithful]
  cases hmeaning : use.meaning with
  | property =>
    cases meaningOf use.declared use.text <;> simp
  | binding =>
    have hfaithful := hbindings use hmem hmeaning
    rw [Use.IsFaithful, hmeaning] at hfaithful
    simp [hfaithful]

end Method

/-! ## Uses in one scope -/

theorem usesAt_append (declared : List String) (xs ys : List (Meaning × String)) :
    usesAt declared (xs ++ ys) = usesAt declared xs ++ usesAt declared ys :=
  List.map_append

/-- Statements that declare nothing leave the scope as it is. -/
theorem usesIn_append {declared : List String} {xs : List Statement}
    (hxs : ∀ statement ∈ xs, statement.declares = []) (ys : List Statement) :
    usesIn declared (xs ++ ys) =
      usesAt declared (xs.flatMap Statement.names) ++ usesIn declared ys := by
  induction xs with
  | nil => rfl
  | cons statement rest ih =>
    obtain ⟨hhead, hrest⟩ := List.forall_mem_cons.mp hxs
    rw [List.cons_append, usesIn, hhead, List.nil_append, ih hrest, List.flatMap_cons,
      usesAt_append, List.append_assoc]

/-- The names that are meant for properties. -/
def propertyNamesIn (names : List (Meaning × String)) : List String :=
  (names.filter fun name => name.1 = .property).map Prod.snd

@[simp] theorem propertyNamesIn_nil : propertyNamesIn [] = [] := rfl

@[simp] theorem propertyNamesIn_cons_property (text : String) (rest : List (Meaning × String)) :
    propertyNamesIn ((.property, text) :: rest) = text :: propertyNamesIn rest := by
  simp [propertyNamesIn]

@[simp] theorem propertyNamesIn_cons_binding (text : String) (rest : List (Meaning × String)) :
    propertyNamesIn ((.binding, text) :: rest) = propertyNamesIn rest := by
  simp [propertyNamesIn]

theorem propertyNamesIn_append (xs ys : List (Meaning × String)) :
    propertyNamesIn (xs ++ ys) = propertyNamesIn xs ++ propertyNamesIn ys := by
  rw [propertyNamesIn, List.filter_append, List.map_append]
  rfl

theorem propertyNames_usesAt (declared : List String) (names : List (Meaning × String)) :
    ((usesAt declared names).filter fun use => use.meaning = .property).map Use.text =
      propertyNamesIn names := by
  rw [usesAt, List.filter_map, List.map_map]
  rfl

/-- In one scope those names are captured that are declared. -/
theorem captured_usesAt (declared : List String) (names : List (Meaning × String)) :
    ((usesAt declared names).filter Use.isCaptured).map Use.text =
      (propertyNamesIn names).filter fun text => unquoted text ∈ declared := by
  have hcaptured : (fun name : Meaning × String =>
      Use.isCaptured ⟨declared, name.1, name.2⟩) = fun name =>
        decide (unquoted name.2 ∈ declared) && decide (name.1 = .property) := by
    funext name
    show (decide (name.1 = .property) && decide (meaningOf declared name.2 = .binding)) = _
    rw [Bool.and_comm, meaningOf]
    by_cases hmem : unquoted name.2 ∈ declared <;> simp [hmem]
  rw [usesAt, List.filter_map, List.map_map, propertyNamesIn, List.filter_map, List.filter_filter]
  exact congrArg (fun keep => (names.filter keep).map Prod.snd) hcaptured

end Kotlin

open Kotlin

theorem Strategy.names_hash (strategy : Strategy) (value : Expression) :
    (strategy.hash value).names = value.names := by
  obtain ⟨basis, nullable⟩ := strategy
  cases nullable <;> cases basis <;> simp [hash, Expression.names]

theorem Strategy.names_difference (strategy : Strategy) (lhs rhs : Expression) :
    (strategy.difference lhs rhs).names = lhs.names ++ rhs.names := by
  obtain ⟨basis, nullable⟩ := strategy
  cases basis <;> rfl

theorem Property.names_mix (property : Property) :
    property.mix.names =
      [(.binding, "result"), (.binding, "result"), (.property, property.name)] := by
  show (Meaning.binding, "result") :: (Meaning.binding, "result") ::
    (property.strategy.hash property.reference).names = _
  rw [Strategy.names_hash]
  rfl

theorem Property.names_compare (property : Property) :
    property.compare.names = [(.property, property.name), (.binding, "other")] := by
  show (property.strategy.difference property.reference _).names ++ [] = _
  rw [Strategy.names_difference]
  rfl

/-! ## Uses in the methods -/

namespace Kotlin.Method

/-- The method reads properties with these names, each once and in this order.  It does not get those that
are `hidden`, because their names mean something else there. -/
structure Reads (method : Method) (properties hidden : List String) : Prop where
  names : method.propertyNames = properties
  captured : method.captured = hidden
  faithful : method.IsFaithful ↔ hidden = []

theorem Reads.of_uses {method : Method} {properties hidden : List String}
    (hnames : method.propertyNames = properties) (hcaptured : method.captured = hidden)
    (hbindings : ∀ use ∈ method.uses, use.meaning = .binding → use.IsFaithful) :
    method.Reads properties hidden :=
  ⟨hnames, hcaptured, hcaptured ▸ isFaithful_iff hbindings⟩

end Kotlin.Method

/-- A list of names with one property for each of the given ones. -/
theorem propertyNamesIn_flatMap {names : Property → List (Meaning × String)}
    (hnames : ∀ property, propertyNamesIn (names property) = [property.name])
    (properties : List Property) :
    propertyNamesIn (properties.flatMap names) = properties.map Property.name := by
  induction properties with
  | nil => rfl
  | cons property rest ih =>
    rw [List.flatMap_cons, propertyNamesIn_append, hnames, ih]
    rfl

theorem isFaithful_of_mem_usesAt {declared : List String} {names : List (Meaning × String)}
    (hnames : ∀ text, (.binding, text) ∈ names → unquoted text ∈ declared) :
    ∀ use ∈ usesAt declared names, use.meaning = .binding → use.IsFaithful := by
  intro use hmem hmeaning
  obtain ⟨⟨meaning, text⟩, hname, rfl⟩ := List.mem_map.mp hmem
  obtain rfl : meaning = .binding := hmeaning
  exact if_pos (hnames text hname)

namespace StructureDeclaration

/-- Behind the first property the variable is there. -/
theorem uses_hashCodeMethod {declaration : StructureDeclaration} {first : Property}
    {rest : List Property} (hproperties : declaration.properties = first :: rest) :
    declaration.hashCodeMethod.uses =
      usesAt [] [(.property, first.name)] ++
        usesAt ["result"] (rest.flatMap (fun property => property.mix.names) ++
          [(.binding, "result")]) := by
  have hmix : ∀ statement ∈ rest.map Property.mix, statement.declares = [] := by
    simp only [List.forall_mem_map]
    exact fun _ _ => rfl
  rw [Method.uses, hashCodeMethod, hproperties]
  show usesAt [] (first.strategy.hash first.reference).names ++
    usesIn ["result"] (rest.map Property.mix ++ [.give (.name .binding "result")]) = _
  rw [Strategy.names_hash, usesIn_append hmix, List.flatMap_map, usesAt_append]
  rfl

/-- What `hashCode` names where its variable is there. -/
theorem propertyNamesIn_mix (rest : List Property) :
    propertyNamesIn (rest.flatMap (fun property => property.mix.names) ++ [(.binding, "result")]) =
      rest.map Property.name := by
  have hmix (property : Property) : propertyNamesIn property.mix.names = [property.name] := by
    simp [Property.names_mix]
  rw [propertyNamesIn_append, propertyNamesIn_flatMap hmix, propertyNamesIn_cons_binding,
    propertyNamesIn_nil, List.append_nil]

theorem eq_result_of_mem_mix {rest : List Property} {text : String}
    (h : (.binding, text) ∈
      rest.flatMap (fun property => property.mix.names) ++ [(.binding, "result")]) :
    text = "result" := by
  simp only [Property.names_mix, List.mem_append, List.mem_flatMap, List.mem_cons, Prod.mk.injEq,
    reduceCtorEq, false_and, List.not_mem_nil, or_false, true_and, or_self] at h
  rcases h with ⟨_, _, h⟩ | h
  · exact h
  · exact h

theorem reads_hashCodeMethod (declaration : StructureDeclaration) :
    declaration.hashCodeMethod.Reads declaration.propertyNames
      (declaration.propertyNames.tail.filter fun name => unquoted name = "result") := by
  rw [propertyNames]
  cases hproperties : declaration.properties with
  | nil =>
    have huses : declaration.hashCodeMethod.uses = [] := by
      rw [Method.uses, hashCodeMethod, hproperties]
      rfl
    refine .of_uses ?_ ?_ ?_
    · rw [Method.propertyNames, huses]
      rfl
    · rw [Method.captured, huses]
      rfl
    · rw [huses]
      exact fun use hmem => absurd hmem List.not_mem_nil
  | cons first rest =>
    have huses := uses_hashCodeMethod hproperties
    refine .of_uses ?_ ?_ ?_
    · rw [Method.propertyNames, huses, List.filter_append, List.map_append, propertyNames_usesAt,
        propertyNames_usesAt, propertyNamesIn_mix, propertyNamesIn_cons_property,
        propertyNamesIn_nil, List.map_cons, List.singleton_append]
    · -- nothing is declared yet where the first property is read
      have hfirst : (propertyNamesIn [(.property, first.name)]).filter
          (fun text => unquoted text ∈ ([] : List String)) = [] := by
        simp
      rw [Method.captured, huses, List.filter_append, List.map_append, captured_usesAt,
        captured_usesAt, propertyNamesIn_mix, hfirst, List.nil_append, List.map_cons,
        List.tail_cons]
      simp only [List.mem_singleton]
    · rw [huses]
      intro use hmem
      rcases List.mem_append.mp hmem with hmem | hmem
      · exact isFaithful_of_mem_usesAt (fun text h => by simp at h) use hmem
      · refine isFaithful_of_mem_usesAt (fun text h => ?_) use hmem
        rw [eq_result_of_mem_mix h]
        decide

/-- The parameter is there from the start. -/
theorem uses_equalsMethod (declaration : StructureDeclaration) :
    declaration.equalsMethod.uses =
      usesAt ["other"] ((checksOfOther ++ declaration.comparisons).flatMap Statement.names) := by
  have hcomparisons : ∀ statement ∈ checksOfOther ++ declaration.comparisons,
      statement.declares = [] := by
    rw [comparisons]
    split
    · decide
    · simp [checksOfOther, Property.compare, Statement.declares]
  show usesIn ["other"] (checksOfOther ++ declaration.comparisons
    ++ [.blank, .give (.literal "true")]) = _
  rw [usesIn_append hcomparisons]
  exact List.append_nil _

theorem names_comparisons {declaration : StructureDeclaration} {first : Property}
    {rest : List Property} (hproperties : declaration.properties = first :: rest) :
    declaration.comparisons.flatMap Statement.names =
      (.binding, "other") :: (first :: rest).flatMap fun property => property.compare.names := by
  rw [comparisons, hproperties]
  show ([Statement.blank, .cast "other" declaration.symbol.name, .blank]
    ++ (first :: rest).map Property.compare).flatMap Statement.names = _
  rw [List.flatMap_append, List.flatMap_map]
  rfl

theorem propertyNamesIn_comparisons (declaration : StructureDeclaration) :
    propertyNamesIn (declaration.comparisons.flatMap Statement.names) =
      declaration.propertyNames := by
  rw [propertyNames]
  cases hproperties : declaration.properties with
  | nil =>
    rw [comparisons, hproperties]
    rfl
  | cons first rest =>
    rw [names_comparisons hproperties, propertyNamesIn_cons_binding]
    exact propertyNamesIn_flatMap (fun property => by simp [Property.names_compare]) _

theorem eq_other_of_mem_comparisons {declaration : StructureDeclaration} {text : String}
    (h : (.binding, text) ∈ declaration.comparisons.flatMap Statement.names) : text = "other" := by
  cases hproperties : declaration.properties with
  | nil =>
    rw [comparisons, hproperties] at h
    cases h
  | cons first rest =>
    rw [names_comparisons hproperties] at h
    simp only [Property.names_compare, List.mem_cons, List.mem_flatMap, Prod.mk.injEq,
      reduceCtorEq, false_and, List.not_mem_nil, or_false, false_or, true_and] at h
    rcases h with h | ⟨_, _, h⟩
    · exact h
    · exact h

theorem reads_equalsMethod (declaration : StructureDeclaration) :
    declaration.equalsMethod.Reads declaration.propertyNames
      (declaration.propertyNames.filter fun name => unquoted name = "other") := by
  have hchecks : propertyNamesIn (checksOfOther.flatMap Statement.names) = [] := rfl
  have hnames : propertyNamesIn ((checksOfOther ++ declaration.comparisons).flatMap
      Statement.names) = declaration.propertyNames := by
    rw [List.flatMap_append, propertyNamesIn_append, hchecks, List.nil_append,
      propertyNamesIn_comparisons]
  refine .of_uses ?_ ?_ ?_
  · rw [Method.propertyNames, uses_equalsMethod, propertyNames_usesAt, hnames]
  · rw [Method.captured, uses_equalsMethod, captured_usesAt, hnames]
    simp only [List.mem_singleton]
  · rw [uses_equalsMethod]
    refine isFaithful_of_mem_usesAt fun text h => ?_
    have hother : text = "other" := by
      rw [List.flatMap_append, List.mem_append] at h
      rcases h with h | h
      · simpa [checksOfOther, Statement.names, Expression.names] using h
      · exact eq_other_of_mem_comparisons h
    rw [hother]
    decide

end StructureDeclaration

/-! ## Structures whose properties are read -/

/-- No member gives a property the name of something that the methods bring in, except that the first one
may be called `result`. -/
def Shape.AvoidsBindings (shape : Shape) : Prop :=
  (∀ member ∈ shape.members.tail, unquoted (Naming.propertyName member.name) ≠ "result") ∧
    ∀ member ∈ shape.members, unquoted (Naming.propertyName member.name) ≠ "other"

instance (shape : Shape) : Decidable shape.AvoidsBindings := inferInstanceAs (Decidable (_ ∧ _))

namespace StructureDeclaration

/-- What is known of the methods of a planned structure: what they are as syntax, which properties they read
in which order, and which of these they do not get. -/
structure ReadsMembers (shape : Shape) (declaration : StructureDeclaration) : Prop where
  hashCode : declaration.hashCodeMethod.emit = declaration.emitHashCode
  equals : declaration.equalsMethod.emit = declaration.emitEquals
  hashCodeReads : declaration.hashCodeMethod.Reads
    (shape.members.map fun member => Naming.propertyName member.name)
    ((shape.members.tail.map fun member => Naming.propertyName member.name).filter fun name =>
      unquoted name = "result")
  equalsReads : declaration.equalsMethod.Reads
    (shape.members.map fun member => Naming.propertyName member.name)
    ((shape.members.map fun member => Naming.propertyName member.name).filter fun name =>
      unquoted name = "other")
  faithful : declaration.hashCodeMethod.IsFaithful ∧ declaration.equalsMethod.IsFaithful ↔
    shape.AvoidsBindings

/-- The methods of a planned structure get the properties that they read just when no member is called like
something that the methods bring in. -/
theorem plan_readsMembers (model : Model) (symbols : SymbolProvider) (settings : Settings)
    (id : ShapeId) (shape : Shape) (declaration : StructureDeclaration)
    (hget : model.get? id = some shape) (htype : shape.type = .struct)
    (hplan : plan model symbols settings id = .ok declaration) :
    declaration.ReadsMembers shape := by
  have hnames := propertyNames_of_plan hget htype hplan
  have hhashCode := declaration.reads_hashCodeMethod
  have hequals := declaration.reads_equalsMethod
  rw [hnames, ← List.map_tail] at hhashCode
  rw [hnames] at hequals
  refine ⟨declaration.emit_hashCodeMethod, declaration.emit_equalsMethod, hhashCode, hequals, ?_⟩
  rw [hhashCode.faithful, hequals.faithful, Shape.AvoidsBindings]
  simp only [List.filter_eq_nil_iff, List.forall_mem_map, decide_eq_true_eq]

/-- A structure whose first member is called like the variable of `hashCode`. -/
def outcome : Shape :=
  { id := ⟨"com.example#Outcome"⟩, type := .struct
    members := [.of ⟨"com.example#Outcome"⟩ "result" ⟨"smithy.api#Integer"⟩,
      .of ⟨"com.example#Outcome"⟩ "note" ⟨"smithy.api#Integer"⟩] }

/-- A structure that has its result last. -/
def attempt : Shape :=
  { id := ⟨"com.example#Attempt"⟩, type := .struct
    members := [.of ⟨"com.example#Attempt"⟩ "other" ⟨"smithy.api#Integer"⟩,
      .of ⟨"com.example#Attempt"⟩ "result" ⟨"smithy.api#Integer"⟩] }

def attemptModel : Model :=
  ((Model.insert {} { id := ⟨"smithy.api#Integer"⟩, type := .integer }).insert attempt).insert
    outcome

def attemptSettings : Settings := { packageName := "com.example", runtimeVersion := "1.0.0" }

theorem plan_readsMembers_outcome :
    attemptModel.get? outcome.id = some outcome ∧ outcome.type = .struct ∧
      outcome.AvoidsBindings ∧
      ∃ declaration, plan attemptModel (.kotlin attemptSettings) attemptSettings outcome.id =
          .ok declaration ∧ declaration.ReadsMembers outcome := by
  have hget : attemptModel.get? outcome.id = some outcome := by
    rw [attemptModel, Model.get?_insert, if_pos rfl]
  have hplanned : (plan attemptModel (.kotlin attemptSettings) attemptSettings
      outcome.id).toOption.map propertyNames = some ["result", "note"] := by
    decide +kernel
  obtain ⟨declaration, hplan, _⟩ := map_toOption_eq_some_iff.mp hplanned
  exact ⟨hget, rfl, by decide +kernel, declaration, hplan,
    plan_readsMembers attemptModel (.kotlin attemptSettings) attemptSettings outcome.id outcome
      declaration hget rfl hplan⟩

/-- Each method reads something else than one of the properties. -/
theorem not_faithful_attempt :
    attemptModel.get? attempt.id = some attempt ∧
      ∃ declaration, plan attemptModel (.kotlin attemptSettings) attemptSettings attempt.id =
          .ok declaration ∧
        declaration.emitHashCode = block "override fun hashCode(): kotlin.Int \x7b" "\x7d"
          [.write "var result = other ?: 0", .write "result = 31 * result + (result ?: 0)",
            .write "return result"] ∧
        declaration.emitHashCode = declaration.hashCodeMethod.emit ∧
        declaration.hashCodeMethod.captured = ["result"] ∧
        ¬ declaration.hashCodeMethod.IsFaithful ∧
        .write "if (other != other.other) return false" ∈ declaration.emitEquals ∧
        declaration.emitEquals = declaration.equalsMethod.emit ∧
        declaration.equalsMethod.captured = ["other"] ∧
        ¬ declaration.equalsMethod.IsFaithful := by
  have hget : attemptModel.get? attempt.id = some attempt := by
    rw [attemptModel, Model.get?_insert, if_neg (by decide), Model.get?_insert, if_pos rfl]
  have hplanned : (plan attemptModel (.kotlin attemptSettings) attemptSettings
      attempt.id).toOption.map (fun declaration =>
        (declaration.propertyNames, declaration.emitHashCode,
          decide (.write "if (other != other.other) return false" ∈ declaration.emitEquals))) =
      some (["other", "result"], block "override fun hashCode(): kotlin.Int \x7b" "\x7d"
        [.write "var result = other ?: 0", .write "result = 31 * result + (result ?: 0)",
          .write "return result"], true) := by
    decide +kernel
  obtain ⟨declaration, hplan, hseen⟩ := map_toOption_eq_some_iff.mp hplanned
  simp only [Prod.mk.injEq, decide_eq_true_eq] at hseen
  obtain ⟨hnames, hhashText, hequalsText⟩ := hseen
  have hhashCode := declaration.reads_hashCodeMethod
  have hequals := declaration.reads_equalsMethod
  have hresult : (["other", "result"].tail.filter fun name => unquoted name = "result") =
      ["result"] := by
    decide
  have hother : (["other", "result"].filter fun name => unquoted name = "other") = ["other"] := by
    decide
  rw [hnames, hresult] at hhashCode
  rw [hnames, hother] at hequals
  refine ⟨hget, declaration, hplan, hhashText, declaration.emit_hashCodeMethod.symm,
    hhashCode.captured, ?_, hequalsText, declaration.emit_equalsMethod.symm, hequals.captured, ?_⟩
  · rw [hhashCode.faithful]
    exact List.cons_ne_nil _ _
  · rw [hequals.faithful]
    exact List.cons_ne_nil _ _

end StructureDeclaration

end SmithyKotlin
