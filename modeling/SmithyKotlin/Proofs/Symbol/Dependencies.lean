import SmithyKotlin.Proofs.Outcome
import SmithyKotlin.Proofs.Symbol.Mentions

/-!
# Symbols of the runtime

A symbol depends on the artifact of the runtime exactly when a type of the runtime occurs in its type, at any depth
of lists and maps, and on nothing else: `KotlinType.mem_dependencies_symbol` for trees,
`mem_dependencies_memberSymbol` for members (`Member.HoldsRuntime`).  Providers other than the Kotlin one may add
what they like.
-/

namespace SmithyKotlin

variable {model : Model} {settings : Settings} {d : Dependency}

/-- A shape that becomes a type of the runtime. -/
def Shape.IsRuntime (shape : Shape) : Prop :=
  shape.type ∈ [.bigInteger, .bigDecimal, .timestamp, .document] ∨ shape.isStreamingBlob = true

instance (shape : Shape) : Decidable shape.IsRuntime := inferInstanceAs (Decidable (_ ∨ _))

/-- The shape is one that becomes a type of the runtime, or holds one at any depth. -/
def Shape.HoldsRuntime (model : Model) (shape : Shape) : Prop :=
  ∃ inner, model.Holds shape inner ∧ inner.IsRuntime

namespace Symbol

theorem mem_dependencies_dependingOn {symbol : Symbol} {dependency : Dependency} :
    d ∈ (symbol.dependingOn dependency).dependencies ↔ d ∈ symbol.dependencies ∨ d = dependency := by
  rw [dependingOn]
  split
  · rename_i hthere
    rw [List.contains_iff_mem] at hthere
    exact ⟨.inl, fun h => h.elim id fun heq => heq ▸ hthere⟩
  · exact List.mem_append.trans (or_congr_right List.mem_singleton)

theorem mem_dependencies_dependingOnAll {symbol : Symbol} {dependencies : List Dependency} :
    d ∈ (symbol.dependingOnAll dependencies).dependencies ↔
      d ∈ symbol.dependencies ∨ d ∈ dependencies := by
  induction dependencies generalizing symbol with
  | nil => exact (or_iff_left List.not_mem_nil).symm
  | cons dependency rest ih =>
    show d ∈ ((symbol.dependingOn dependency).dependingOnAll rest).dependencies ↔ _
    rw [ih, mem_dependencies_dependingOn, List.mem_cons, or_assoc]

end Symbol

namespace KotlinType

/-- A type depends on the runtime when a type of the runtime is among its leaves. -/
theorem mem_dependencies_symbol {type : KotlinType} :
    d ∈ (type.symbol settings).dependencies ↔
      (∃ package name, runtime package name ∈ type.leaves) ∧ d = Runtime.dependency settings := by
  induction type with
  | builtin name => simp [symbol, leaves]
  | runtime package name => simp [symbol, leaves]
  | generated name => simp [symbol, leaves]
  | list element sparse ih =>
    rw [symbol, Symbol.mem_dependencies_dependingOnAll, ih, leaves]
    exact or_iff_right List.not_mem_nil
  | map key value sparse ihkey ihvalue =>
    rw [symbol, Symbol.mem_dependencies_dependingOnAll, List.mem_append, ihkey, ihvalue, leaves]
    simp only [List.not_mem_nil, false_or, List.mem_append, exists_or, or_and_right]

/-- A shape itself becomes a type of the runtime when it is one of a few types, or a blob that is streamed. -/
theorem exists_runtime_iff {shape : Shape} :
    (∃ package name, scalar? shape = some (runtime package name)) ↔ shape.IsRuntime := by
  rw [scalar?, Shape.IsRuntime, Shape.isStreamingBlob]
  cases htype : shape.type with
  | blob => cases hstreaming : shape.isStreaming <;> simp
  | struct => cases hunit : shape.traits.contains Trait.unitType <;> simp
  | _ => simp

theorem mem_dependencies_symbol_of_ofShape {shape : Shape} {type : KotlinType}
    (h : ofShape model shape = .ok type) :
    d ∈ (type.symbol settings).dependencies ↔
      shape.HoldsRuntime model ∧ d = Runtime.dependency settings := by
  have hholds : (∃ package name, runtime package name ∈ type.leaves) ↔ shape.HoldsRuntime model := by
    simp only [mem_leaves_iff_of_ofShape h, HoldsLeaf, Shape.HoldsRuntime, ← exists_runtime_iff]
    constructor
    · rintro ⟨package, name, inner, hinner, hscalar⟩
      exact ⟨inner, hinner, package, name, hscalar⟩
    · rintro ⟨inner, hinner, package, name, hscalar⟩
      exact ⟨package, name, inner, hinner, hscalar⟩
  rw [mem_dependencies_symbol, hholds]

end KotlinType

/-- The target of a member is a shape of the runtime or holds one. -/
def Member.HoldsRuntime (model : Model) (member : Member) : Prop :=
  ∃ target, model.get? member.target = some target ∧ target.HoldsRuntime model

namespace SymbolProvider

/-- Whether a value may be null makes no difference to what its symbol depends on. -/
theorem mem_dependencies_memberSymbol {member : Member} {symbol : Symbol}
    (h : (kotlin settings).memberSymbol model member = .ok symbol) :
    d ∈ symbol.dependencies ↔ member.HoldsRuntime model ∧ d = Runtime.dependency settings := by
  obtain ⟨target, type, htarget, htype, hsymbol⟩ := memberSymbol_eq_ok_iff.mp h
  have hsame : symbol.dependencies = (type.symbol settings).dependencies := by
    rw [hsymbol]
    split <;> rfl
  rw [hsame, KotlinType.mem_dependencies_symbol_of_ofShape htype, Member.HoldsRuntime]
  simp only [htarget, Option.some.injEq, exists_eq_left']

end SymbolProvider

end SmithyKotlin
