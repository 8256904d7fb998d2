import SmithyKotlin.Proofs.Structure.Captures
import SmithyKotlin.Proofs.Structure.Values

/-!
# Running the methods

The syntax of the methods is given its meaning: an expression has a value in an object and a scope
(`Kotlin.Expression.eval`), a statement goes on or leaves (`Flow`), and a method gives what it is left with
(`Kotlin.Method.call`).

* `Strategy.eval_hash`, `Strategy.eval_difference`: the expressions of a strategy hash and compare by its basis.
* `StructureDeclaration.call_hashCodeMethod`: where nothing hides the properties, `hashCode` mixes the hashes of all
  values.
* `StructureDeclaration.call_equalsMethod`: and `equals` compares them one by one.

Only what these two methods use of Kotlin has a meaning here.
-/

namespace SmithyKotlin

namespace Kotlin

/-! ## Meaning of the syntax -/

/-- The names that a method has brought in, the latest first. -/
abbrev Scope (heap : Heap) := List (String × Value heap.Object)

namespace Heap

variable (heap : Heap)

/-- What a call or property of a value gives. -/
def select (receiver : Value heap.Object) (text : String) : Option (Value heap.Object) :=
  if text = "hashCode()" then some (.int (heap.hash receiver))
  else if text = "contentHashCode()" then some (.int (heap.contentHash receiver))
  else if text = "toInt()" then
    match receiver with
    | .byte bits => some (.int (bits.signExtend 32))
    | .short bits => some (.int (bits.signExtend 32))
    | .int bits => some (.int bits)
    | _ => none
  else
    match receiver with
    | .object reference => heap.property reference (unquoted text)
    | _ => none

/-- The operators that have both their operands evaluated; arithmetic wraps around. -/
def operate (operator : String) (lhs rhs : Value heap.Object) : Option (Value heap.Object) :=
  match operator, lhs, rhs with
  | "==", a, b => some (.truth (heap.equal a b))
  | "!=", a, b => some (.truth (!heap.equal a b))
  | "===", a, b => some (.truth (heap.identical a b))
  | "!==", a, b => some (.truth (!heap.identical a b))
  | "*", .int a, .int b => some (.int (a * b))
  | "+", .int a, .int b => some (.int (a + b))
  | _, _, _ => none

/-- The literals that the methods have. -/
def literal? : String → Option (Value heap.Object)
  | "null" => some .null
  | "true" => some (.truth true)
  | "false" => some (.truth false)
  | "0" => some (.int 0)
  | "31" => some (.int 31)
  | _ => none

end Heap

/-- The value of an expression.  A name is looked up in the scope before it is one of a property. -/
def Expression.eval (heap : Heap) (object : heap.Object) (scope : Scope heap) :
    Expression → Option (Value heap.Object)
  | name _ text =>
    (scope.lookup (unquoted text)).or (heap.select (.object object) text)
  | self => some (.object object)
  | literal text => heap.literal? text
  | select receiver safe text => do
    let value ← receiver.eval heap object scope
    if safe ∧ value = .null then some .null else heap.select value text
  | classOf receiver => do
    match ← receiver.eval heap object scope with
    | .object reference => some (.object (heap.classOf reference))
    | _ => none
  | binary lhs operator rhs => do
    let left ← lhs.eval heap object scope
    if operator = "?:" then
      if left = .null then rhs.eval heap object scope else some left
    else if operator = "||" then
      if left = .truth true then some left else rhs.eval heap object scope
    else heap.operate operator left (← rhs.eval heap object scope)
  | contentEquals lhs rhs => do
    let left ← lhs.eval heap object scope
    return .truth (heap.sameContents left (← rhs.eval heap object scope))
  | negated value => do
    match ← value.eval heap object scope with
    | .truth found => some (.truth !found)
    | _ => none
  | grouped value => value.eval heap object scope

/-- What a statement leads to. -/
inductive Flow (heap : Heap) where
  | on (scope : Scope heap)
  | left (result : Value heap.Object)

namespace Statement

/-- Runs one statement.  An assignment hides the value from before. -/
def run (heap : Heap) (object : heap.Object) (scope : Scope heap) : Statement → Option (Flow heap)
  | declare name value => do return .on ((name, ← value.eval heap object scope) :: scope)
  | assign name value => do
    let _ ← scope.lookup name
    return .on ((name, ← value.eval heap object scope) :: scope)
  | leaveIf condition result => do
    match ← condition.eval heap object scope with
    | .truth true => return .left (← result.eval heap object scope)
    | .truth false => return .on scope
    | _ => none
  | cast name type => do
    match ← scope.lookup name with
    | .object reference => if heap.isA reference type then return .on scope else none
    | _ => none
  | give result => do return .left (← result.eval heap object scope)
  | blank => return .on scope

/-- Runs statements until one of them leaves. -/
def runAll (heap : Heap) (object : heap.Object) (scope : Scope heap) :
    List Statement → Option (Value heap.Object)
  | [] => none
  | statement :: rest => do
    match ← statement.run heap object scope with
    | .on scope => runAll heap object scope rest
    | .left result => some result

end Statement

/-- What a method gives for an object and arguments. -/
def Method.call (method : Method) (heap : Heap) (object : heap.Object)
    (arguments : List (Value heap.Object)) : Option (Value heap.Object) :=
  let scope := (method.parameters.map Prod.fst).zip arguments
  match method.body with
  | .expression value => value.eval heap object scope
  | .statements list => Statement.runAll heap object scope list

end Kotlin

open Kotlin

variable {heap : Heap} {object other : heap.Object} {scope : Scope heap}
  {expression lhs rhs : Expression} {value left right : Value heap.Object}

/-! ## Expressions -/

/-- But for two operators both operands are evaluated. -/
theorem Kotlin.Expression.eval_binary {operator : String} (hoperator : operator ∉ ["?:", "||"])
    (hleft : lhs.eval heap object scope = some left)
    (hright : rhs.eval heap object scope = some right) :
    (Expression.binary lhs operator rhs).eval heap object scope = heap.operate operator left right := by
  rw [List.mem_pair, not_or] at hoperator
  simp only [eval, hleft, hright, hoperator, if_false, Option.bind_eq_bind, Option.bind_some]

/-! ## Values on a basis -/

/-- The values that are hashed and compared on a basis. -/
def Basis.Admits {Object : Type} : Basis → Value Object → Prop
  | _, .null => True
  | .numeric, .int _ => True
  | .widened, .byte _ => True
  | .widened, .short _ => True
  | .content, .object _ => True
  | .identity, .object _ => True
  | .structural, _ => True
  | _, _ => False

namespace Strategy

/-- The values that a strategy is made for. -/
structure Admits {Object : Type} (strategy : Strategy) (value : Value Object) : Prop where
  basis : strategy.basis.Admits value
  nullable : value = .null → strategy.nullable = true

theorem hashBy_null (basis : Basis) : heap.hashBy basis .null = 0 := by
  rw [Heap.hashBy]
  split <;> rfl

/-- Values that are hashed as numbers are their own hashes. -/
theorem hashBy_numeric (hadmits : Basis.numeric.Admits value) (hnull : value ≠ .null) :
    value = .int (heap.hashBy .numeric value) := by
  cases value with
  | null => exact absurd rfl hnull
  | int bits => rfl
  | _ => exact absurd hadmits not_false

/-- The call that hashes a value gives the hash on the basis. -/
theorem select_hashCall {basis : Basis} (hadmits : basis.Admits value) (hnull : value ≠ .null)
    (hbasis : basis ≠ .numeric) :
    heap.select value (hashCall basis) = some (.int (heap.hashBy basis value)) := by
  cases basis with
  | numeric => exact absurd rfl hbasis
  | widened =>
    cases value with
    | null => exact absurd rfl hnull
    | byte bits => rfl
    | short bits => rfl
    | _ => exact absurd hadmits not_false
  | _ => rfl

theorem eval_select (hvalue : expression.eval heap object scope = some value) (hnull : value ≠ .null)
    (safe : Bool) (text : String) :
    (Expression.select expression safe text).eval heap object scope = heap.select value text := by
  simp only [Expression.eval, hvalue, hnull, and_false, if_false, Option.bind_eq_bind, Option.bind_some]

theorem eval_select_null (hvalue : expression.eval heap object scope = some .null) (text : String) :
    (Expression.select expression true text).eval heap object scope = some .null := by
  simp only [Expression.eval, hvalue, and_self, if_true, Option.bind_eq_bind, Option.bind_some]

/-- A value that may be null, with `0` for null. -/
theorem eval_orZero (hvalue : expression.eval heap object scope = some value) :
    (Expression.binary expression "?:" (.literal "0")).eval heap object scope =
      some (if value = .null then .int 0 else value) := by
  simp only [Expression.eval, hvalue, Option.bind_eq_bind, Option.bind_some, if_true]
  split <;> rfl

/-- The hash expression of a strategy gives the hash on its basis. -/
theorem eval_hash {strategy : Strategy} (hvalue : expression.eval heap object scope = some value)
    (hadmits : strategy.Admits value) :
    (strategy.hash expression).eval heap object scope =
      some (.int (heap.hashBy strategy.basis value)) := by
  obtain ⟨basis, nullable⟩ := strategy
  by_cases hnull : value = .null
  · obtain rfl : nullable = true := hadmits.nullable hnull
    subst hnull
    rw [hashBy_null]
    cases basis with
    | numeric => exact eval_orZero hvalue
    | _ => exact eval_orZero (eval_select_null hvalue _)
  · cases basis with
    | numeric =>
      rw [← hashBy_numeric hadmits.basis hnull]
      cases nullable with
      | false => exact hvalue
      | true =>
        refine (eval_orZero hvalue).trans ?_
        rw [if_neg hnull]
    | _ =>
      have hcall := (eval_select hvalue hnull nullable _).trans
        (select_hashCall hadmits.basis hnull (fun hbasis => nomatch hbasis))
      cases nullable with
      | false => exact hcall
      | true => exact eval_orZero hcall

/-- The comparison of a strategy finds whether two values differ on its basis. -/
theorem eval_difference (strategy : Strategy) (hleft : lhs.eval heap object scope = some left)
    (hright : rhs.eval heap object scope = some right) :
    (strategy.difference lhs rhs).eval heap object scope =
      some (.truth (!heap.sameBy strategy.basis left right)) := by
  obtain ⟨basis, nullable⟩ := strategy
  cases basis <;>
    simp [difference, Expression.eval, hleft, hright, Heap.operate, Heap.sameBy]

end Strategy

/-! ## Properties -/

namespace Property

/-- The property of the object has the value, which its strategy is made for. -/
structure Holds (object : heap.Object) (property : Property) (value : Value heap.Object) : Prop where
  read : heap.select (.object object) property.name = some value
  admits : property.strategy.Admits value

variable {property : Property}

/-- Where nothing hides it, the name of a property gives its value. -/
theorem eval_reference (hholds : property.Holds object value)
    (hscope : scope.lookup (unquoted property.name) = none) :
    property.reference.eval heap object scope = some value := by
  rw [reference, Expression.eval, hscope, Option.none_or, hholds.read]

theorem eval_hash (hholds : property.Holds object value)
    (hscope : scope.lookup (unquoted property.name) = none) :
    (property.strategy.hash property.reference).eval heap object scope =
      some (.int (heap.hashBy property.strategy.basis value)) :=
  Strategy.eval_hash (eval_reference hholds hscope) hholds.admits

end Property

/-- In the scope a single name has been brought in. -/
structure Kotlin.Scope.Only (scope : Scope heap) (name : String) (value : Value heap.Object) : Prop where
  there : scope.lookup name = some value
  others : ∀ text, text ≠ name → scope.lookup text = none

theorem Kotlin.Scope.only_cons {name : String} (hothers : ∀ text, text ≠ name → scope.lookup text = none) :
    Scope.Only ((name, value) :: scope) name value where
  there := List.lookup_cons_self
  others := fun text htext => by
    rw [List.lookup_cons, beq_eq_false_iff_ne.mpr htext]
    exact hothers text htext

/-! ## The methods -/

namespace Property

variable {property : Property} {result : BitVec 32}

/-- The hash with that of one more property. -/
def mixed (heap : Heap) (result : BitVec 32) (entry : Property × Value heap.Object) : BitVec 32 :=
  31 * result + heap.hashBy entry.1.strategy.basis entry.2

/-- A name that was brought in is found there. -/
theorem eval_binding {name : String} (hname : unquoted name = name) (hscope : scope.Only name value) :
    (Expression.name .binding name).eval heap object scope = some value := by
  rw [Expression.eval, hname, hscope.there, Option.some_or]

/-- Whether the values of two objects are the same, each on the basis of its property. -/
def allSame (heap : Heap) :
    List Property → List (Value heap.Object) → List (Value heap.Object) → Bool
  | property :: properties, value :: values, other :: others =>
    heap.sameBy property.strategy.basis value other && allSame heap properties values others
  | _, _, _ => true

theorem run_mix (hholds : property.Holds object value) (hname : unquoted property.name ≠ "result")
    (hscope : scope.Only "result" (.int result)) :
    property.mix.run heap object scope =
      some (.on (("result", .int (mixed heap result (property, value))) :: scope)) := by
  have hhash : (Expression.grouped (property.strategy.hash property.reference)).eval heap object scope =
      some (.int (heap.hashBy property.strategy.basis value)) :=
    eval_hash hholds (hscope.others _ hname)
  have hresult : (Expression.name .binding "result").eval heap object scope = some (.int result) :=
    eval_binding (by decide) hscope
  have hfactor : (Expression.literal "31").eval heap object scope = some (.int 31) := rfl
  have htimes : "*" ∉ ["?:", "||"] := by decide
  have hplus : "+" ∉ ["?:", "||"] := by decide
  have hproduct : (Expression.binary (.literal "31") "*" (.name .binding "result")).eval heap object scope =
      some (.int (31 * result)) :=
    Expression.eval_binary htimes hfactor hresult
  have hsum : (Expression.binary (.binary (.literal "31") "*" (.name .binding "result")) "+"
      (.grouped (property.strategy.hash property.reference))).eval heap object scope =
        some (.int (31 * result + heap.hashBy property.strategy.basis value)) :=
    Expression.eval_binary hplus hproduct hhash
  rw [mix, Statement.run, hscope.there, hsum]
  rfl

/-- Statements that mix in properties leave with the hash of all of them. -/
theorem runAll_mix {properties : List Property} {values : List (Value heap.Object)}
    (hholds : List.Forall₂ (fun property value => property.Holds object value) properties values)
    (hnames : ∀ property ∈ properties, unquoted property.name ≠ "result")
    (hscope : scope.Only "result" (.int result)) :
    Statement.runAll heap object scope
        (properties.map mix ++ [.give (.name .binding "result")]) =
      some (.int ((properties.zip values).foldl (mixed heap) result)) := by
  induction hholds generalizing scope result with
  | nil =>
    have hresult : (Expression.name .binding "result").eval heap object scope = some (.int result) :=
      eval_binding (by decide) hscope
    simp only [List.map_nil, List.nil_append, Statement.runAll, Statement.run, hresult,
      Option.bind_eq_bind, Option.bind_some]
    rfl
  | cons hfirst _ ih =>
    obtain ⟨hname, hnames⟩ := List.forall_mem_cons.mp hnames
    rw [List.map_cons, List.cons_append, Statement.runAll, run_mix hfirst hname hscope]
    exact ih hnames (Scope.only_cons hscope.others)

/-- Two objects are compared by one property. -/
theorem run_compare (hholds : property.Holds object left) (hother : property.Holds other right)
    (hname : unquoted property.name ≠ "other") (hscope : scope.Only "other" (.object other)) :
    property.compare.run heap object scope =
      some (if heap.sameBy property.strategy.basis left right = true then .on scope
        else .left (.truth false)) := by
  have hbinding : (Expression.name .binding "other").eval heap object scope = some (.object other) :=
    eval_binding (by decide) hscope
  have hright : (Expression.select (.name .binding "other") false property.name).eval heap object scope =
      some right :=
    (Strategy.eval_select hbinding (fun hnull => nomatch hnull) _ _).trans hother.read
  have hdifference := Strategy.eval_difference property.strategy
    (eval_reference hholds (hscope.others _ hname)) hright
  rw [compare, Statement.run, hdifference]
  cases heap.sameBy property.strategy.basis left right <;> rfl

/-- Statements that compare properties leave at the first difference, and go on where there is none. -/
theorem runAll_compare {properties : List Property} {values others : List (Value heap.Object)}
    (hholds : List.Forall₂ (fun property value => property.Holds object value) properties values)
    (hothers : List.Forall₂ (fun property value => property.Holds other value) properties others)
    (hnames : ∀ property ∈ properties, unquoted property.name ≠ "other")
    (hscope : scope.Only "other" (.object other)) (rest : List Statement) :
    Statement.runAll heap object scope (properties.map compare ++ rest) =
      if allSame heap properties values others = true then Statement.runAll heap object scope rest
      else some (.truth false) := by
  induction hholds generalizing others with
  | nil =>
    cases hothers
    rfl
  | cons hfirst _ ih =>
    cases hothers with
    | cons hother hothers =>
      obtain ⟨hname, hnames⟩ := List.forall_mem_cons.mp hnames
      rw [List.map_cons, List.cons_append, Statement.runAll, run_compare hfirst hother hname hscope,
        allSame]
      cases heap.sameBy _ _ _ with
      | false => rfl
      | true => exact ih hothers hnames

end Property

namespace StructureDeclaration

/-- The hash of an object of the class with some values. -/
def hashOf (declaration : StructureDeclaration) (object : heap.Object)
    (values : List (Value heap.Object)) : BitVec 32 :=
  match declaration.properties.zip values with
  | [] => heap.hashCode (heap.classOf object)
  | (first, value) :: rest =>
    rest.foldl (Property.mixed heap) (heap.hashBy first.strategy.basis value)

/-- The object is of the class, and its properties have the values. -/
structure Describes (declaration : StructureDeclaration) (object : heap.Object)
    (values : List (Value heap.Object)) : Prop where
  isA : heap.isA object declaration.symbol.name = true
  holds : List.Forall₂ (fun property value => property.Holds object value) declaration.properties values

variable {declaration : StructureDeclaration} {values others : List (Value heap.Object)}

/-- Where no name is hidden, `hashCode` gives the hash of the values. -/
theorem call_hashCodeMethod (hdescribes : declaration.Describes object values)
    (hnames : ∀ name ∈ declaration.propertyNames, unquoted name ≠ "result") :
    declaration.hashCodeMethod.call heap object [] =
      some (.int (declaration.hashOf object values)) := by
  rw [propertyNames, List.forall_mem_map] at hnames
  have hholds := hdescribes.holds
  rw [hashCodeMethod, hashOf, Method.call]
  cases hproperties : declaration.properties with
  | nil => rfl
  | cons first rest =>
    rw [hproperties] at hholds hnames
    cases hholds with
    | cons hfirst hrest =>
      have hhash : (first.strategy.hash first.reference).eval heap object [] =
          some (.int (heap.hashBy first.strategy.basis _)) :=
        Property.eval_hash hfirst rfl
      show Statement.runAll heap object [] (.declare "result" (first.strategy.hash first.reference) ::
        rest.map Property.mix ++ [.give (.name .binding "result")]) = _
      rw [List.cons_append, Statement.runAll, Statement.run, hhash]
      exact Property.runAll_mix hrest (List.forall_mem_cons.mp hnames).2
        (Scope.only_cons fun _ _ => rfl)

/-- Before it looks at properties `equals` leaves when both objects are the same one, and when their classes
differ. -/
theorem runAll_checksOfOther (hscope : scope.Only "other" (.object other)) (rest : List Statement) :
    Statement.runAll heap object scope (checksOfOther ++ rest) =
      if object = other then some (.truth true)
      else if heap.equals (heap.classOf object) (heap.classOf other) = true then
        Statement.runAll heap object scope rest
      else some (.truth false) := by
  have hother : (Expression.name .binding "other").eval heap object scope = some (.object other) :=
    Property.eval_binding (by decide) hscope
  have hidentical : (Expression.binary .self "===" (.name .binding "other")).eval heap object scope =
      some (.truth (decide (object = other))) := by
    have hself : Expression.self.eval heap object scope = some (.object object) := rfl
    have hoperator : "===" ∉ ["?:", "||"] := by decide
    rw [Expression.eval_binary hoperator hself hother]
    simp only [Heap.operate, Heap.identical, Value.object.injEq]
  have hclass : (Expression.binary (.binary (.name .binding "other") "==" (.literal "null")) "||"
      (.binary (.classOf .self) "!=" (.classOf (.name .binding "other")))).eval heap object scope =
        some (.truth !heap.equals (heap.classOf object) (heap.classOf other)) := by
    have hnull : (Expression.literal "null").eval heap object scope = some .null := rfl
    have hequal : "==" ∉ ["?:", "||"] := by decide
    have hdiffer : "!=" ∉ ["?:", "||"] := by decide
    have hself : (Expression.classOf .self).eval heap object scope = some (.object (heap.classOf object)) :=
      rfl
    have hclassOf : (Expression.classOf (.name .binding "other")).eval heap object scope =
        some (.object (heap.classOf other)) := by
      rw [Expression.eval, hother]
      rfl
    rw [Expression.eval, Expression.eval_binary hequal hother hnull,
      Expression.eval_binary hdiffer hself hclassOf]
    rfl
  rw [checksOfOther, List.cons_append, List.cons_append, List.nil_append, Statement.runAll,
    Statement.run, hidentical]
  by_cases hsame : object = other
  · rw [if_pos hsame, decide_eq_true hsame]
    rfl
  · rw [if_neg hsame, decide_eq_false hsame]
    show Statement.runAll heap object scope (_ :: rest) = _
    rw [Statement.runAll, Statement.run, hclass]
    cases heap.equals (heap.classOf object) (heap.classOf other) <;> rfl

theorem runAll_comparisons (hdescribes : declaration.Describes object values)
    (hother : declaration.Describes other others)
    (hnames : ∀ name ∈ declaration.propertyNames, unquoted name ≠ "other")
    (hscope : scope.Only "other" (.object other)) (rest : List Statement) :
    Statement.runAll heap object scope (declaration.comparisons ++ rest) =
      if Property.allSame heap declaration.properties values others = true then
        Statement.runAll heap object scope rest
      else some (.truth false) := by
  rw [propertyNames, List.forall_mem_map] at hnames
  have hcompare := Property.runAll_compare hdescribes.holds hother.holds hnames hscope rest
  rw [comparisons]
  split
  · rename_i hempty
    rw [List.isEmpty_iff] at hempty
    rw [hempty] at hcompare ⊢
    exact hcompare
  · -- the cast does not fail
    rw [← hcompare]
    simp only [List.cons_append, List.nil_append, Statement.runAll, Statement.run, hscope.there,
      hother.isA, Option.bind_eq_bind, Option.bind_some, Option.pure_def, if_true]

/-- Where no name is hidden, `equals` finds out whether two objects of the class are the same one, or have the same
values. -/
theorem call_equalsMethod (hdescribes : declaration.Describes object values)
    (hother : declaration.Describes other others)
    (hnames : ∀ name ∈ declaration.propertyNames, unquoted name ≠ "other") :
    declaration.equalsMethod.call heap object [.object other] =
      some (.truth (decide (object = other) || heap.equals (heap.classOf object) (heap.classOf other) &&
        Property.allSame heap declaration.properties values others)) := by
  have hscope : Scope.Only [("other", Value.object other)] "other" (.object other) :=
    Scope.only_cons fun _ _ => rfl
  show Statement.runAll heap object [("other", .object other)]
    (checksOfOther ++ declaration.comparisons ++ [.blank, .give (.literal "true")]) = _
  rw [List.append_assoc, runAll_checksOfOther hscope, runAll_comparisons hdescribes hother hnames hscope]
  by_cases hsame : object = other
  · rw [if_pos hsame, decide_eq_true hsame]
    rfl
  · rw [if_neg hsame, decide_eq_false hsame]
    cases heap.equals (heap.classOf object) (heap.classOf other) <;>
      cases Property.allSame heap declaration.properties values others <;> rfl

end StructureDeclaration

end SmithyKotlin
