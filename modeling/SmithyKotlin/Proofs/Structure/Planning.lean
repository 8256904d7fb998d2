import SmithyKotlin.Proofs.Outcome
import SmithyKotlin.Structure.Basic

/-!
# Planned structures

* `StructureDeclaration.exists_plan_iff`: a structure can be planned when its members have symbols.
* `StructureDeclaration.properties_of_plan`: the plan has one property for each of them, in their order.
* `Property.member_ofMember`, `Property.symbol_ofMember`, `Property.strategy_ofMember`: and what it has from the
  member.
-/

namespace SmithyKotlin

variable {model : Model} {symbols : SymbolProvider} {settings : Settings} {id : ShapeId}
  {shape : Shape}

namespace Property

variable {error : Bool} {member : Member}

/-- A member becomes a property when its target is in the model and it has a symbol. -/
theorem exists_ofMember_iff :
    (∃ property, ofMember model symbols error member = .ok property) ↔
      (∃ target, model.get? member.target = some target) ∧
        ∃ symbol, symbols.memberSymbol model member = .ok symbol := by
  constructor
  · intro h
    obtain ⟨property, h⟩ := h
    obtain ⟨target, htarget, h⟩ := bind_eq_ok_iff.mp h
    obtain ⟨symbol, hsymbol, _⟩ := bind_eq_ok_iff.mp h
    exact ⟨⟨target, Model.find_eq_ok_iff.mp htarget⟩, symbol, hsymbol⟩
  · intro h
    obtain ⟨⟨target, htarget⟩, symbol, hsymbol⟩ := h
    rw [ofMember, Model.find_eq_ok_iff.mpr htarget, ok_bind, hsymbol, ok_bind]
    exact ⟨_, rfl⟩

theorem member_ofMember {property : Property}
    (h : ofMember model symbols error member = .ok property) : property.member = member.name := by
  obtain ⟨target, _, h⟩ := bind_eq_ok_iff.mp h
  obtain ⟨symbol, _, h⟩ := bind_eq_ok_iff.mp h
  cases h
  rfl

theorem symbol_ofMember {property : Property}
    (h : ofMember model symbols error member = .ok property) :
    symbols.memberSymbol model member = .ok property.symbol := by
  obtain ⟨target, _, h⟩ := bind_eq_ok_iff.mp h
  obtain ⟨symbol, hsymbol, h⟩ := bind_eq_ok_iff.mp h
  cases h
  exact hsymbol

/-- The strategy of a property follows the target of its member. -/
theorem strategy_ofMember {property : Property}
    (h : ofMember model symbols error member = .ok property) :
    ∃ target, model.get? member.target = some target ∧
      property.strategy = .select target.type property.symbol.nullable target.isStreamingBlob := by
  obtain ⟨target, htarget, h⟩ := bind_eq_ok_iff.mp h
  obtain ⟨symbol, _, h⟩ := bind_eq_ok_iff.mp h
  cases h
  exact ⟨target, Model.find_eq_ok_iff.mp htarget, rfl⟩

end Property

namespace StructureDeclaration

/-- What a plan is made of. -/
theorem plan_eq_ok_iff (hget : model.get? id = some shape) (htype : shape.type = .struct)
    {declaration : StructureDeclaration} :
    plan model symbols settings id = .ok declaration ↔
      ∃ properties symbol,
        List.Forall₂ (fun member property =>
          Property.ofMember model symbols shape.isError member = .ok property)
          shape.members properties ∧
        symbols.shapeSymbol model shape = .ok symbol ∧
        declaration =
          { id, symbol, properties
            superclass := if shape.isError then some (serviceException settings) else none
            documentation := shape.traits.documentation?
            deprecated := shape.traits.deprecation? } := by
  rw [plan, Model.find_eq_ok_iff.mpr hget, ok_bind, if_neg (not_not_intro htype)]
  simp only [bind_eq_ok_iff, mapM_eq_ok_iff]
  constructor
  · intro h
    obtain ⟨properties, hproperties, symbol, hsymbol, h⟩ := h
    cases h
    exact ⟨properties, symbol, hproperties, hsymbol, rfl⟩
  · intro h
    obtain ⟨properties, symbol, hproperties, hsymbol, rfl⟩ := h
    exact ⟨properties, hproperties, symbol, hsymbol, rfl⟩

theorem type_of_plan {declaration : StructureDeclaration} (hget : model.get? id = some shape)
    (hplan : plan model symbols settings id = .ok declaration) : shape.type = .struct := by
  rw [plan, Model.find_eq_ok_iff.mpr hget, ok_bind] at hplan
  by_contra htype
  rw [if_pos htype] at hplan
  cases hplan

/-- Planning needs all targets and symbols, and nothing else. -/
theorem exists_plan_iff (hget : model.get? id = some shape) (htype : shape.type = .struct) :
    (∃ declaration, plan model symbols settings id = .ok declaration) ↔
      (∀ member ∈ shape.members, (∃ target, model.get? member.target = some target) ∧
        ∃ symbol, symbols.memberSymbol model member = .ok symbol) ∧
      ∃ symbol, symbols.shapeSymbol model shape = .ok symbol := by
  have hproperties : (∃ properties, shape.members.mapM
      (Property.ofMember model symbols shape.isError) = .ok properties) ↔
        ∀ member ∈ shape.members, (∃ target, model.get? member.target = some target) ∧
          ∃ symbol, symbols.memberSymbol model member = .ok symbol := by
    simp only [exists_mapM_eq_ok_iff, Property.exists_ofMember_iff]
  simp only [plan_eq_ok_iff hget htype, ← mapM_eq_ok_iff, ← hproperties]
  constructor
  · intro h
    obtain ⟨_, properties, symbol, hmembers, hsymbol, _⟩ := h
    exact ⟨⟨properties, hmembers⟩, symbol, hsymbol⟩
  · intro h
    obtain ⟨⟨properties, hmembers⟩, symbol, hsymbol⟩ := h
    exact ⟨_, properties, symbol, hmembers, hsymbol, rfl⟩

theorem properties_of_plan (hget : model.get? id = some shape) (htype : shape.type = .struct)
    {declaration : StructureDeclaration}
    (hplan : plan model symbols settings id = .ok declaration) :
    List.Forall₂ (fun member property =>
      Property.ofMember model symbols shape.isError member = .ok property)
      shape.members declaration.properties := by
  obtain ⟨properties, _, hproperties, _, rfl⟩ := (plan_eq_ok_iff hget htype).mp hplan
  exact hproperties

end StructureDeclaration

end SmithyKotlin
