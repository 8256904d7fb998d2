import Mathlib.Data.List.Forall2

/-!
# Steps that may fail

* `bind_eq_ok_iff`, `bind_eq_error_iff`: two steps succeed when both do, and the first failure is the failure of
  both.
* `mapM_eq_ok_iff`: a list of steps succeeds when each of them does, with their results in the same order.
* `foldlM_keeps`: what every step of a run keeps, the whole run keeps.

These are about any type of errors, so all decoders and plans use them.
-/

namespace SmithyKotlin

variable {ε α β : Type}

theorem ok_bind (a : α) (next : α → Except ε β) : (.ok a >>= next) = next a := rfl

theorem error_bind (e : ε) (next : α → Except ε β) : (.error e >>= next) = .error e := rfl

theorem bind_eq_ok_iff {first : Except ε α} {next : α → Except ε β} {b : β} :
    (first >>= next) = .ok b ↔ ∃ a, first = .ok a ∧ next a = .ok b := by
  cases first with
  | error e =>
    constructor
    · intro h
      cases h
    · intro h
      obtain ⟨a, h, _⟩ := h
      cases h
  | ok a =>
    constructor
    · intro h
      exact ⟨a, rfl, h⟩
    · intro h
      obtain ⟨a', h, hnext⟩ := h
      cases h
      exact hnext

theorem bind_eq_error_iff {first : Except ε α} {next : α → Except ε β} {e : ε} :
    (first >>= next) = .error e ↔ first = .error e ∨ ∃ a, first = .ok a ∧ next a = .error e := by
  cases first with
  | error e' =>
    constructor
    · intro h
      cases h
      exact .inl rfl
    · intro h
      rcases h with h | ⟨a, h, _⟩
      · cases h
        rfl
      · cases h
  | ok a =>
    constructor
    · intro h
      exact .inr ⟨a, rfl, h⟩
    · intro h
      rcases h with h | ⟨a', h, hnext⟩
      · cases h
      · cases h
        exact hnext

theorem map_eq_ok_iff {first : Except ε α} {f : α → β} {b : β} :
    first.map f = .ok b ↔ ∃ a, first = .ok a ∧ f a = b := by
  cases first <;> simp [Except.map]

theorem mapError_eq_ok_iff {ε' : Type} {first : Except ε α} {f : ε → ε'} {a : α} :
    first.mapError f = .ok a ↔ first = .ok a := by
  cases first <;> simp [Except.mapError]

/-- Two outcomes are the same but for their failures. -/
theorem toOption_eq_toOption_iff {ε' : Type} {first : Except ε α} {second : Except ε' α} :
    first.toOption = second.toOption ↔ ∀ a, first = .ok a ↔ second = .ok a := by
  have hsome {ε : Type} (outcome : Except ε α) (a : α) : outcome.toOption = some a ↔ outcome = .ok a := by
    cases outcome <;> simp [Except.toOption]
  rw [Option.ext_iff]
  simp only [hsome]

/-- What is seen of a result, which has to be there. -/
theorem map_toOption_eq_some_iff {first : Except ε α} {f : α → β} {b : β} :
    first.toOption.map f = some b ↔ ∃ a, first = .ok a ∧ f a = b := by
  cases first <;> simp [Except.toOption]

/-- A list of steps succeeds when each of them does, with their results in the same order. -/
theorem mapM_eq_ok_iff {f : α → Except ε β} {xs : List α} {ys : List β} :
    xs.mapM f = .ok ys ↔ List.Forall₂ (fun x y => f x = .ok y) xs ys := by
  induction xs generalizing ys with
  | nil =>
    rw [List.mapM_nil, List.forall₂_nil_left_iff]
    constructor
    · intro h
      cases h
      rfl
    · rintro rfl
      rfl
  | cons x xs ih =>
    rw [List.mapM_cons, bind_eq_ok_iff, List.forall₂_cons_left_iff]
    constructor
    · intro h
      obtain ⟨y, hy, hnext⟩ := h
      obtain ⟨rest, hrest, h⟩ := bind_eq_ok_iff.mp hnext
      cases h
      exact ⟨y, rest, hy, ih.mp hrest, rfl⟩
    · intro h
      obtain ⟨y, rest, hy, hrest, rfl⟩ := h
      exact ⟨y, hy, bind_eq_ok_iff.mpr ⟨rest, ih.mpr hrest, rfl⟩⟩

/-- The failure of a list of steps is the failure of one of them. -/
theorem mapM_eq_error {f : α → Except ε β} {xs : List α} {e : ε} (h : xs.mapM f = .error e) :
    ∃ x ∈ xs, f x = .error e := by
  induction xs with
  | nil => cases h
  | cons x xs ih =>
    rw [List.mapM_cons] at h
    rcases bind_eq_error_iff.mp h with hx | ⟨y, _, hrest⟩
    · exact ⟨x, List.mem_cons_self, hx⟩
    · rcases bind_eq_error_iff.mp hrest with hxs | ⟨ys, _, hpure⟩
      · obtain ⟨x', hmem, hx'⟩ := ih hxs
        exact ⟨x', List.mem_cons_of_mem _ hmem, hx'⟩
      · cases hpure

/-- Steps that do the same on every element of a list do the same on the list. -/
theorem mapM_congr {f g : α → Except ε β} {xs : List α} (h : ∀ x ∈ xs, f x = g x) :
    xs.mapM f = xs.mapM g := by
  induction xs with
  | nil => rw [List.mapM_nil, List.mapM_nil]
  | cons x xs ih =>
    obtain ⟨hx, hxs⟩ := List.forall_mem_cons.mp h
    rw [List.mapM_cons, List.mapM_cons, hx, ih hxs]

/-- What every step of a run keeps, the whole run keeps. -/
theorem foldlM_keeps {step : β → α → Except ε β} {P : β → Prop} {xs : List α}
    (hstep : ∀ x ∈ xs, ∀ b next, P b → step b x = .ok next → P next) {b last : β} (hstart : P b)
    (h : xs.foldlM step b = .ok last) : P last := by
  induction xs generalizing b with
  | nil =>
    cases h
    exact hstart
  | cons x xs ih =>
    obtain ⟨hx, hxs⟩ := List.forall_mem_cons.mp hstep
    rw [List.foldlM_cons] at h
    obtain ⟨next, hnext, hrest⟩ := bind_eq_ok_iff.mp h
    exact ih hxs (hx b next hstart hnext) hrest

/-- Each element on the left has one on the right. -/
theorem exists_mem_of_forall₂ {R : α → β → Prop} {xs : List α} {ys : List β}
    (h : List.Forall₂ R xs ys) : ∀ x ∈ xs, ∃ y ∈ ys, R x y := by
  induction h with
  | nil => exact List.forall_mem_nil _
  | cons hxy _ ih =>
    refine List.forall_mem_cons.mpr ⟨⟨_, List.mem_cons_self, hxy⟩, fun x hx => ?_⟩
    obtain ⟨y, hy, hrelated⟩ := ih x hx
    exact ⟨y, List.mem_cons_of_mem _ hy, hrelated⟩

theorem exists_of_forall₂ {R : α → β → Prop} {xs : List α} {ys : List β} (h : List.Forall₂ R xs ys) :
    ∀ x ∈ xs, ∃ y, R x y := fun x hx => (exists_mem_of_forall₂ h x hx).imp fun _ hy => hy.2

theorem exists_mapM_eq_ok_iff {f : α → Except ε β} {xs : List α} :
    (∃ ys, xs.mapM f = .ok ys) ↔ ∀ x ∈ xs, ∃ y, f x = .ok y := by
  constructor
  · intro h
    obtain ⟨ys, h⟩ := h
    exact exists_of_forall₂ (mapM_eq_ok_iff.mp h)
  · intro hall
    cases h : xs.mapM f with
    | ok ys => exact ⟨ys, rfl⟩
    | error e =>
      obtain ⟨x, hmem, hx⟩ := mapM_eq_error h
      obtain ⟨y, hy⟩ := hall x hmem
      rw [hx] at hy
      cases hy

end SmithyKotlin
