import SmithyKotlin.Proofs.Symbol.Locality
import SmithyKotlin.Proofs.Union.Order
import SmithyKotlin.Rendering.SourceFile

/-!
# What a file depends on

The file of a structure or union shows the shape itself, the targets of its members, and what stands in lists and
maps among them.

* `UnionDeclaration.plan_congr`, `StructureDeclaration.plan_congr`: models that agree there give the same plan, or
  fail in the same way.
* `SourceFile.render_dependsOnReached`: so it is for the file, whatever else is in the models (`Model.AgreeFrom`).
-/

namespace SmithyKotlin

variable {a b : Model} {settings : Settings} {shape : Shape}

theorem Shape.variantMembers_congr (hagree : a.AgreeFrom b shape) :
    shape.variantMembers a = shape.variantMembers b := by
  have hresolved : shape.members.mapM (fun member =>
        (a.find member.target).map fun target => (member, target)) =
      shape.members.mapM fun member =>
        (b.find member.target).map fun target => (member, target) :=
    mapM_congr fun member hmember => by rw [Model.find_congr (hagree _ (.target hmember))]
  rw [variantMembers, variantMembers, hresolved]

/-- Only members of the union become variants. -/
theorem Shape.mem_of_mem_variantMembers {model : Model} {members : List Member}
    (hunion : shape.type = .union) (h : shape.variantMembers model = .ok members) :
    ∀ member ∈ members, member ∈ shape.members := by
  have hmembers := variantMembers_eq_ok hunion (target_of_variantMembers h)
  rw [h, Except.ok.injEq] at hmembers
  intro member hmember
  rw [hmembers, List.mem_mergeSort] at hmember
  exact List.mem_of_mem_filter hmember

theorem Variant.ofMember_congr (hagree : a.AgreeFrom b shape) {member : Member}
    (hmember : member ∈ shape.members) :
    Variant.ofMember a (.kotlin settings) member = Variant.ofMember b (.kotlin settings) member :=
  ofMember_matching (KotlinType.matching_of_agreeFrom hagree) (.target hmember) settings

theorem Property.ofMember_congr (hagree : a.AgreeFrom b shape) (error : Bool) {member : Member}
    (hmember : member ∈ shape.members) :
    Property.ofMember a (.kotlin settings) error member =
      Property.ofMember b (.kotlin settings) error member := by
  have hsymbol : (SymbolProvider.kotlin settings).memberSymbol a member =
      (SymbolProvider.kotlin settings).memberSymbol b member :=
    SymbolProvider.kotlinMember_congr settings hagree hmember
  rw [ofMember, ofMember, Model.find_congr (hagree _ (.target hmember)), hsymbol]

section Plans

variable (ha : a.get? shape.id = some shape) (hb : b.get? shape.id = some shape)
  (hagree : a.AgreeFrom b shape)

include ha hb hagree

theorem UnionDeclaration.plan_congr :
    plan a (.kotlin settings) settings shape.id = plan b (.kotlin settings) settings shape.id := by
  have hsymbol : (SymbolProvider.kotlin settings).shapeSymbol a shape =
      (SymbolProvider.kotlin settings).shapeSymbol b shape :=
    SymbolProvider.kotlinShape_congr settings hagree
  rw [plan, plan, Model.find_eq_ok_iff.mpr ha, Model.find_eq_ok_iff.mpr hb, ok_bind, ok_bind]
  by_cases hunion : shape.type = .union
  · rw [if_neg (not_not_intro hunion), if_neg (not_not_intro hunion),
      Shape.variantMembers_congr hagree]
    cases hmembers : shape.variantMembers b with
    | error error => rfl
    | ok members =>
      have hvariants : members.mapM (Variant.ofMember a (.kotlin settings)) =
          members.mapM (Variant.ofMember b (.kotlin settings)) :=
        mapM_congr fun member hmember => Variant.ofMember_congr hagree
          (Shape.mem_of_mem_variantMembers hunion hmembers member hmember)
      rw [ok_bind, ok_bind, hvariants, hsymbol]
  · rw [if_pos hunion, if_pos hunion]
    rfl

theorem StructureDeclaration.plan_congr :
    plan a (.kotlin settings) settings shape.id = plan b (.kotlin settings) settings shape.id := by
  have hsymbol : (SymbolProvider.kotlin settings).shapeSymbol a shape =
      (SymbolProvider.kotlin settings).shapeSymbol b shape :=
    SymbolProvider.kotlinShape_congr settings hagree
  have hproperties : shape.members.mapM
        (Property.ofMember a (.kotlin settings) shape.isError) =
      shape.members.mapM (Property.ofMember b (.kotlin settings) shape.isError) :=
    mapM_congr fun member hmember => Property.ofMember_congr hagree shape.isError hmember
  rw [plan, plan, Model.find_eq_ok_iff.mpr ha, Model.find_eq_ok_iff.mpr hb, ok_bind, ok_bind,
    hproperties, hsymbol]

end Plans

namespace SourceFile

/-- The file of a shape depends on the shape and on what it leads to, and on nothing else in the model; so
does the failure of a shape that has no file. -/
theorem render_dependsOnReached (a b : Model) (settings : Settings) (shape : Shape)
    (ha : a.get? shape.id = some shape) (hb : b.get? shape.id = some shape)
    (hagree : a.AgreeFrom b shape) :
    render a (SymbolProvider.kotlin settings) settings shape =
      render b (SymbolProvider.kotlin settings) settings shape := by
  rw [render, render]
  split
  · rw [UnionDeclaration.plan_congr ha hb hagree]
  · rw [StructureDeclaration.plan_congr ha hb hagree]
  · rfl

/-- A log with a list of items, which hold payloads. -/
def log : Shape :=
  { id := ⟨"com.a#Log"⟩, type := .struct
    members := [.of ⟨"com.a#Log"⟩ "entries" ⟨"com.a#Entries"⟩] }

def entries : Shape :=
  { id := ⟨"com.a#Entries"⟩, type := .list
    members := [.of ⟨"com.a#Entries"⟩ "member" ⟨"com.a#Item"⟩] }

def item : Shape :=
  { id := ⟨"com.a#Item"⟩, type := .struct
    members := [.of ⟨"com.a#Item"⟩ "payload" ⟨"com.a#Payload"⟩] }

/-- A model in which the payload is missing. -/
def bareLogs : Model := ((Model.insert {} item).insert entries).insert log

def fullLogs : Model := bareLogs.insert { id := ⟨"com.a#Payload"⟩, type := .string }

def logSettings : Settings := { packageName := "com.a", runtimeVersion := "1.0.0" }

theorem bareLogs_agreeFrom : bareLogs.AgreeFrom fullLogs log := by
  intro id h
  have hid : id = entries.id ∨ id = item.id := by
    refine h.of_closed (fun id => id = entries.id ∨ id = item.id) ?_ ?_
    · exact List.forall_mem_singleton.mpr (.inl rfl)
    · rintro id outer (rfl | rfl) hget name hslot member hmember
      · obtain rfl : entries = outer := Option.some.inj hget
        obtain rfl := List.mem_singleton.mp hslot
        obtain rfl := Option.some.inj hmember
        exact .inr rfl
      · obtain rfl : item = outer := Option.some.inj hget
        cases hslot
  -- only the payload is new, and the log does not lead to it
  have hne : ⟨"com.a#Payload"⟩ ≠ id := by
    rcases hid with rfl | rfl <;> decide
  exact ((Model.get?_insert bareLogs _ id).trans (if_neg hne)).symm

/-- What the items hold does not show in the file of the log. -/
theorem render_dependsOnReached_log :
    bareLogs.get? log.id = some log ∧ fullLogs.get? log.id = some log ∧
      bareLogs.AgreeFrom fullLogs log ∧
      (bareLogs.contains ⟨"com.a#Payload"⟩ = false ∧ fullLogs.contains ⟨"com.a#Payload"⟩ = true) ∧
      (render bareLogs (.kotlin logSettings) logSettings log).toOption.isSome = true ∧
      render bareLogs (.kotlin logSettings) logSettings log =
        render fullLogs (.kotlin logSettings) logSettings log := by
  have hbare : bareLogs.get? log.id = some log := rfl
  have hfull : fullLogs.get? log.id = some log := rfl
  exact ⟨hbare, hfull, bareLogs_agreeFrom, by decide +kernel, by decide +kernel,
    render_dependsOnReached bareLogs fullLogs logSettings log hbare hfull bareLogs_agreeFrom⟩

end SourceFile

end SmithyKotlin
