import Mathlib.Data.List.Nodup
import SmithyKotlin.Proofs.Outcome
import SmithyKotlin.Union.Members

/-!
# The members that become variants

The members of a union that qualify, said of each member by itself (`Shape.qualifies`): all of them, but in an event
stream those whose targets are no errors.

* `Shape.variantMembers_eq_ok`: where every target is in the model, the variants come from exactly these members.
* `Shape.mergeSort_eq_of_perm`, `Shape.pairwise_lt_mergeSort`: they come in the order of their names, which does not
  depend on the order of the declaration.
-/

namespace SmithyKotlin.Shape

/-- Whether a member becomes a variant: a union with the trait `streaming` drops the members whose
targets are structures with the trait `error`. -/
def qualifies (union : Shape) (model : Model) (member : Member) : Bool :=
  !(union.traits.contains Trait.streaming && (model.get? member.target).any fun target =>
    target.type = .struct && target.traits.contains Trait.error)

/-- The members that become variants, in the order of their declaration. -/
def qualifying (union : Shape) (model : Model) : List Member :=
  union.members.filter (union.qualifies model)

theorem qualifies_eq_keepsMember {union target : Shape} {model : Model} {member : Member}
    (htype : union.type = .union) (htarget : model.get? member.target = some target) :
    union.qualifies model member = union.keepsMember target := by
  rw [qualifies, keepsMember, isEventStream, isStreaming, isError, htarget, htype]
  simp

/-- A pair of a member and its target. -/
abbrev Resolved := Member × Shape

/-- Resolving the targets loses no member, so filtering by the target is filtering the members. -/
theorem filter_resolved {model : Model} {members : List Member} {keep : Shape → Bool}
    {keepMember : Member → Bool}
    (htargets : ∀ member ∈ members, ∃ target, model.get? member.target = some target ∧
      keepMember member = keep target) :
    ∃ resolved : List Resolved,
      members.mapM (fun member => (model.find member.target).map fun target => (member, target))
          = .ok resolved ∧
        (resolved.filter fun entry => keep entry.2).map Prod.fst = members.filter keepMember := by
  induction members with
  | nil => exact ⟨[], rfl, rfl⟩
  | cons member rest ih =>
    obtain ⟨target, hget, hkeep⟩ := htargets member List.mem_cons_self
    obtain ⟨resolved, hrest, hfilter⟩ := ih fun other hother =>
      htargets other (List.mem_cons_of_mem _ hother)
    refine ⟨(member, target) :: resolved, ?_, ?_⟩
    · rw [List.mapM_cons, Model.find_eq_ok_iff.mpr hget, hrest]
      rfl
    · rw [List.filter_cons, List.filter_cons, hkeep]
      split
      · rw [List.map_cons, hfilter]
      · exact hfilter

/-- With all targets in the model the variants come from the members that qualify. -/
theorem variantMembers_eq_ok {union : Shape} {model : Model} (htype : union.type = .union)
    (htargets : ∀ member ∈ union.members, ∃ target, model.get? member.target = some target) :
    union.variantMembers model = .ok ((union.qualifying model).mergeSort byName) := by
  have hkeeps : ∀ member ∈ union.members, ∃ target, model.get? member.target = some target ∧
      union.qualifies model member = union.keepsMember target := by
    intro member hmem
    obtain ⟨target, hget⟩ := htargets member hmem
    exact ⟨target, hget, qualifies_eq_keepsMember htype hget⟩
  obtain ⟨resolved, hresolved, hfilter⟩ := filter_resolved hkeeps
  rw [variantMembers, hresolved, qualifying, ← hfilter]
  rfl

/-- A union that has variants has all its targets in the model. -/
theorem target_of_variantMembers {union : Shape} {model : Model} {members : List Member}
    (h : union.variantMembers model = .ok members) :
    ∀ member ∈ union.members, ∃ target, model.get? member.target = some target := by
  obtain ⟨resolved, hresolved, _⟩ := bind_eq_ok_iff.mp h
  intro member hmem
  obtain ⟨entry, hentry⟩ := exists_mapM_eq_ok_iff.mp ⟨resolved, hresolved⟩ member hmem
  obtain ⟨target, htarget, _⟩ := map_eq_ok_iff.mp hentry
  exact ⟨target, Model.find_eq_ok_iff.mp htarget⟩

/-! ## The order of the variants -/

theorem byName_trans (a b c : Member) (hab : byName a b = true) (hbc : byName b c = true) :
    byName a c = true := by
  have hle : a.name ≤ b.name := of_decide_eq_true hab
  have hle' : b.name ≤ c.name := of_decide_eq_true hbc
  exact decide_eq_true (String.le_trans hle hle')

theorem byName_total (a b : Member) : (byName a b || byName b a) = true := by
  show (decide (a.name ≤ b.name) || decide (b.name ≤ a.name)) = true
  rw [Bool.or_eq_true, decide_eq_true_eq, decide_eq_true_eq]
  exact String.le_total a.name b.name

/-- Members with different names are sorted into one list, in whatever order they come. -/
theorem mergeSort_eq_of_perm {members others : List Member}
    (hnames : (members.map (·.name)).Nodup) (hperm : others.Perm members) :
    others.mergeSort byName = members.mergeSort byName := by
  have hsorted (list : List Member) : (list.mergeSort byName).Pairwise fun a b => byName a b = true :=
    List.pairwise_mergeSort byName_trans byName_total list
  have hmerged := ((List.mergeSort_perm others byName).trans hperm).trans
    (List.mergeSort_perm members byName).symm
  refine List.Perm.eq_of_pairwise ?_ (hsorted others) (hsorted members) hmerged
  intro a b ha hb hab hba
  have hname : a.name = b.name :=
    String.le_antisymm (of_decide_eq_true hab) (of_decide_eq_true hba)
  refine List.inj_on_of_nodup_map hnames ?_ (List.mem_mergeSort.mp hb) hname
  exact hperm.mem_iff.mp (List.mem_mergeSort.mp ha)

/-- Members with different names are sorted strictly. -/
theorem pairwise_lt_mergeSort {members : List Member}
    (hnames : (members.mergeSort byName).Pairwise fun a b => a.name ≠ b.name) :
    (members.mergeSort byName).Pairwise fun a b => a.name < b.name := by
  have hsorted := List.pairwise_mergeSort byName_trans byName_total members
  refine (hsorted.and hnames).imp ?_
  intro a b h
  obtain ⟨hle, hne⟩ := h
  rw [byName, decide_eq_true_eq] at hle
  exact String.not_le.mp fun hge => hne (String.le_antisymm hle hge)

end SmithyKotlin.Shape
