import SmithyKotlin.Json.Reader
import SmithyKotlin.Proofs.Json.Numbers

/-!
# Values with numbers that can be printed

* `Json.Printable` and `Source.Printable`: every number in the value is one that a text can denote.
* `Source.printable_read`: of a text nothing else is read, whether it is JSON to its end or breaks off before; one
  lexeme keeps this (`Source.Reading.Printable.step`), so a run does (`Source.Reading.Printable.run`).

That this is kept when what was read becomes a JSON value is part of `Source.readable_of_toJson?`.
-/

namespace SmithyKotlin

/-! ## Values -/

namespace Json

mutual

/-- Every number in the value is denoted by its text. -/
def Printable : Json → Prop
  | number value => value.Printable
  | array items => ItemsPrintable items
  | object fields => FieldsPrintable fields
  | _ => True

def ItemsPrintable : List Json → Prop
  | [] => True
  | item :: rest => item.Printable ∧ ItemsPrintable rest

def FieldsPrintable : List (String × Json) → Prop
  | [] => True
  | (_, value) :: rest => value.Printable ∧ FieldsPrintable rest

end

theorem itemsPrintable_iff {items : List Json} : ItemsPrintable items ↔ ∀ item ∈ items, item.Printable := by
  induction items with
  | nil => simp [ItemsPrintable]
  | cons item rest ih => rw [ItemsPrintable, ih, List.forall_mem_cons]

theorem fieldsPrintable_iff {fields : List (String × Json)} :
    FieldsPrintable fields ↔ ∀ field ∈ fields, field.2.Printable := by
  induction fields with
  | nil => simp [FieldsPrintable]
  | cons field rest ih => rw [FieldsPrintable, ih, List.forall_mem_cons]

theorem printable_array_iff {items : List Json} : (array items).Printable ↔ ∀ item ∈ items, item.Printable := by
  rw [Printable, itemsPrintable_iff]

theorem printable_object_iff {fields : List (String × Json)} :
    (object fields).Printable ↔ ∀ field ∈ fields, field.2.Printable := by
  rw [Printable, fieldsPrintable_iff]

end Json

namespace Source

mutual

/-- Every number that was read is denoted by its text. -/
def Printable : Source → Prop
  | number value => value.Printable
  | array items _ => ItemsPrintable items
  | object fields _ => FieldsPrintable fields
  | _ => True

def ItemsPrintable : List Source → Prop
  | [] => True
  | item :: rest => item.Printable ∧ ItemsPrintable rest

def FieldsPrintable : List (Option String × Source) → Prop
  | [] => True
  | (_, value) :: rest => value.Printable ∧ FieldsPrintable rest

end

theorem itemsPrintable_iff {items : List Source} : ItemsPrintable items ↔ ∀ item ∈ items, item.Printable := by
  induction items with
  | nil => simp [ItemsPrintable]
  | cons item rest ih => rw [ItemsPrintable, ih, List.forall_mem_cons]

theorem fieldsPrintable_iff {fields : List (Option String × Source)} :
    FieldsPrintable fields ↔ ∀ field ∈ fields, field.2.Printable := by
  induction fields with
  | nil => simp [FieldsPrintable]
  | cons field rest ih => rw [FieldsPrintable, ih, List.forall_mem_cons]

theorem printable_array_iff {items : List Source} {ended : Bool} :
    (array items ended).Printable ↔ ∀ item ∈ items, item.Printable := by
  rw [Printable, itemsPrintable_iff]

theorem printable_object_iff {fields : List (Option String × Source)} {ended : Bool} :
    (object fields ended).Printable ↔ ∀ field ∈ fields, field.2.Printable := by
  rw [Printable, fieldsPrintable_iff]

end Source

/-! ## Lexemes -/

namespace Lexeme

/-- The value that the lexeme brings is printable. -/
def Printable : Lexeme → Prop
  | scalar value => value.Printable
  | _ => True

theorem printable_numberOf (negative : Bool) (whole fraction : List Char) (exponent : Option Int) :
    (numberOf negative whole fraction exponent).Printable := by
  unfold numberOf
  dsimp only
  split
  · rename_i hsmall
    simp only [Bool.and_eq_true, decide_eq_true_eq] at hsmall
    exact Number.Printable.integer (by omega) (by omega)
  · split
    · rename_i hsmall
      simp only [Bool.and_eq_true, decide_eq_true_eq] at hsmall
      exact Number.Printable.integer (by omega) (by omega)
    · split
      · rename_i hread
        exact Number.Printable.double (Double.isNearest_of_ofDecimal hread).1.finite
      · exact True.intro

theorem printable_unsigned? {negative : Bool} {cs : List Char} {found : Source × List Char}
    (h : unsigned? negative cs = some found) : found.1.Printable := by
  simp only [unsigned?, Option.bind_eq_bind, Option.bind_eq_some_iff, Option.pure_def, Option.some.injEq] at h
  obtain ⟨_, _, _, _, _, _, rfl⟩ := h
  exact printable_numberOf _ _ _ _

theorem printable_number? {cs : List Char} {found : Source × List Char} (h : number? cs = some found) :
    found.1.Printable := by
  unfold number? at h
  split at h
  · exact printable_unsigned? h
  · exact printable_unsigned? h

theorem printable_first? {cs : List Char} {found : Lexeme × List Char} (h : first? cs = some found) :
    found.1.Printable := by
  unfold first? at h
  split at h
  case h_11 =>
    obtain ⟨_, _, rfl⟩ := Option.map_eq_some_iff.mp h
    exact True.intro
  case h_12 =>
    obtain ⟨_, hnumber, rfl⟩ := Option.map_eq_some_iff.mp h
    exact printable_number? hnumber
  all_goals
    cases h
  all_goals
    exact True.intro

/-- Spaces are skipped, then one lexeme is taken off the text. -/
theorem ofText_eq (cs : List Char) : ofText cs =
    match cs.dropWhile isSpace with
    | [] => []
    | c :: tail => (first? (c :: tail)).elim [wrong] fun found => found.1 :: ofText found.2 := by
  rw [ofText]
  split
  · rename_i h _
    rw [h]
  · rename_i c tail _ h _
    rw [h]
    dsimp only
    split
    · rename_i hnone
      rw [hnone, Option.elim_none]
    · rename_i hsome
      rw [hsome, Option.elim_some]

theorem printable_ofText (cs : List Char) : ∀ lexeme ∈ ofText cs, lexeme.Printable := by
  induction cs using ofText.induct with
  | case1 cs _ hnil =>
    rw [ofText_eq, hnil]
    exact List.forall_mem_nil _
  | case2 cs c tail _ hcons hnone =>
    rw [ofText_eq, hcons]
    simp only [hnone, Option.elim_none]
    exact List.forall_mem_singleton.mpr True.intro
  | case3 cs c tail _ hcons found hfound _ ih =>
    rw [ofText_eq, hcons]
    simp only [hfound, Option.elim_some]
    exact List.forall_mem_cons.mpr ⟨printable_first? hfound, ih⟩

end Lexeme

/-! ## Reading -/

namespace Source

def Frame.Printable : Frame → Prop
  | items done => ∀ value ∈ done, value.Printable
  | fields done _ => ∀ field ∈ done, field.2.Printable

def Expected.Printable : Expected → Prop
  | itemEnd done => ∀ value ∈ done, value.Printable
  | name done | colon done _ | fieldEnd done => ∀ field ∈ done, field.2.Printable
  | nothing document => document.Printable
  | _ => True

/-- Everything that was read so far is printable. -/
structure Reading.Printable (reading : Reading) : Prop where
  expected : reading.expected.Printable
  frames : ∀ frame ∈ reading.frames, frame.Printable

theorem printable_deliver {value : Source} {frames : List Frame} (hvalue : value.Printable)
    (hframes : ∀ frame ∈ frames, frame.Printable) : (deliver value frames).Printable := by
  cases frames with
  | nil => exact ⟨hvalue, List.forall_mem_nil _⟩
  | cons frame outer =>
    obtain ⟨hframe, houter⟩ := List.forall_mem_cons.mp hframes
    cases frame with
    | items done => exact ⟨List.forall_mem_cons.mpr ⟨hvalue, hframe⟩, houter⟩
    | fields done name => exact ⟨List.forall_mem_cons.mpr ⟨hvalue, hframe⟩, houter⟩

theorem printable_startValue {lexeme : Lexeme} {frames : List Frame} {next : Reading} (hlexeme : lexeme.Printable)
    (hframes : ∀ frame ∈ frames, frame.Printable) (h : startValue lexeme frames = some next) : next.Printable := by
  cases lexeme with
  | openObject | openArray =>
    cases h
    exact ⟨True.intro, hframes⟩
  | text value =>
    cases value with
    | none =>
      cases h
      exact printable_deliver True.intro hframes
    | some text =>
      cases h
      exact printable_deliver True.intro hframes
  | scalar value =>
    cases h
    exact printable_deliver hlexeme hframes
  | _ => cases h

theorem printable_array_reverse {done : List Source} (h : ∀ value ∈ done, value.Printable) (ended : Bool) :
    (array done.reverse ended).Printable :=
  printable_array_iff.mpr fun value hvalue => h value (List.mem_reverse.mp hvalue)

theorem printable_object_reverse {done : List (Option String × Source)} (h : ∀ field ∈ done, field.2.Printable)
    (ended : Bool) : (object done.reverse ended).Printable :=
  printable_object_iff.mpr fun field hfield => h field (List.mem_reverse.mp hfield)

/-- One lexeme keeps everything printable. -/
theorem Reading.Printable.step {reading next : Reading} {lexeme : Lexeme} (hreading : reading.Printable)
    (hlexeme : lexeme.Printable) (h : reading.step lexeme = some next) : next.Printable := by
  obtain ⟨expected, frames⟩ := reading
  have hexpected : expected.Printable := hreading.expected
  have hframes : ∀ frame ∈ frames, frame.Printable := hreading.frames
  unfold Reading.step at h
  dsimp only at h
  -- in the order of `Reading.step`: a value, four cases inside an array, six inside an object, and no fit
  split at h
  case h_1 => exact printable_startValue hlexeme hframes h
  case h_2 =>
    cases h
    exact printable_deliver (printable_array_iff.mpr (List.forall_mem_nil _)) hframes
  case h_3 =>
    have hinner : Frame.Printable (.items []) := List.forall_mem_nil _
    exact printable_startValue hlexeme (List.forall_mem_cons.mpr ⟨hinner, hframes⟩) h
  case h_4 =>
    cases h
    exact printable_deliver (printable_array_reverse hexpected _) hframes
  case h_5 =>
    cases h
    exact ⟨True.intro, List.forall_mem_cons.mpr ⟨hexpected, hframes⟩⟩
  case h_6 =>
    cases h
    exact printable_deliver (printable_object_iff.mpr (List.forall_mem_nil _)) hframes
  case h_7 =>
    cases h
    exact ⟨List.forall_mem_nil _, hframes⟩
  case h_8 =>
    cases h
    exact ⟨hexpected, hframes⟩
  case h_9 =>
    cases h
    exact ⟨True.intro, List.forall_mem_cons.mpr ⟨hexpected, hframes⟩⟩
  case h_10 =>
    cases h
    exact printable_deliver (printable_object_reverse hexpected _) hframes
  case h_11 =>
    cases h
    exact ⟨hexpected, hframes⟩
  case h_12 => cases h

theorem printable_unwind {value : Source} {frames : List Frame} (hvalue : value.Printable)
    (hframes : ∀ frame ∈ frames, frame.Printable) : (unwind value frames).Printable := by
  induction frames generalizing value with
  | nil => exact hvalue
  | cons frame outer ih =>
    obtain ⟨hframe, houter⟩ := List.forall_mem_cons.mp hframes
    cases frame with
    | items done => exact ih (printable_array_reverse (List.forall_mem_cons.mpr ⟨hvalue, hframe⟩) _) houter
    | fields done name => exact ih (printable_object_reverse (List.forall_mem_cons.mpr ⟨hvalue, hframe⟩) _) houter

theorem Reading.Printable.breakOff {reading : Reading} (h : reading.Printable) : reading.breakOff.Printable := by
  obtain ⟨expected, frames⟩ := reading
  obtain ⟨hexpected, hframes⟩ := h
  cases expected with
  | value => exact printable_unwind True.intro hframes
  | itemOrEnd => exact printable_unwind (printable_array_iff.mpr (List.forall_mem_nil _)) hframes
  | itemEnd done => exact printable_unwind (printable_array_reverse hexpected _) hframes
  | nameOrEnd => exact printable_unwind (printable_object_iff.mpr (List.forall_mem_nil _)) hframes
  | name done | fieldEnd done => exact printable_unwind (printable_object_reverse hexpected _) hframes
  | colon done name =>
    have hfields : ∀ field ∈ (name, broken) :: done, field.2.Printable :=
      List.forall_mem_cons.mpr ⟨True.intro, hexpected⟩
    exact printable_unwind (printable_object_reverse hfields _) hframes
  | nothing document => exact hexpected

theorem Reading.Printable.run {reading : Reading} (hreading : reading.Printable) {lexemes : List Lexeme}
    (hlexemes : ∀ lexeme ∈ lexemes, lexeme.Printable) : (reading.run lexemes).1.Printable := by
  induction lexemes generalizing reading with
  | nil => exact hreading.breakOff
  | cons lexeme rest ih =>
    obtain ⟨hlexeme, hrest⟩ := List.forall_mem_cons.mp hlexemes
    rw [Reading.run]
    split
    · rename_i hstep
      exact ih (hreading.step hlexeme hstep) hrest
    · exact hreading.breakOff

/-- Everything that is read of a text is printable. -/
theorem printable_read (text : String) : (SourceText.read text).document.Printable := by
  have hstart : Reading.Printable ⟨.value, []⟩ := ⟨True.intro, List.forall_mem_nil _⟩
  exact hstart.run (Lexeme.printable_ofText text.toList)

end Source

end SmithyKotlin
