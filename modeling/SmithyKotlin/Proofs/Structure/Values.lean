import Mathlib.Data.BitVec
import SmithyKotlin.Strategy

/-!
# Values and their hashes

* `Kotlin.Value`: the values that properties of generated classes have.  Numbers are bit patterns; what objects are
  is left open (`Heap`), and how they compare as well.
* `Kotlin.Heap.equal`, `Kotlin.Heap.hash`: the equality and the hash that Kotlin gives them, and the variants for
  references and for contents of arrays (`sameBy`, `hashBy`).
* `Kotlin.Heap.hashBy_of_sameBy`: equal values have the same hash but for zeros.  The zeros of either sign are equal
  as floating-point numbers, while their hashes come from their bits, and so differ in the highest bit (`signBit`).
-/

namespace SmithyKotlin

namespace Kotlin

inductive Value (Object : Type) where
  | null
  | truth (value : Bool)
  | byte (bits : BitVec 8)
  | short (bits : BitVec 16)
  | int (bits : BitVec 32)
  | long (bits : BitVec 64)
  | float (bits : BitVec 32)
  | double (bits : BitVec 64)
  /-- A reference to an object. -/
  | object (reference : Object)
  deriving DecidableEq, Repr

/-- The objects there are and what they do.  A reference is an object itself, so two of them are identical when they
are equal here. -/
structure Heap where
  Object : Type
  decidableEq : DecidableEq Object
  /-- The object that stands for the class of an object. -/
  classOf : Object → Object
  /-- Whether an object is an instance of the class with the name. -/
  isA : Object → String → Bool
  property : Object → String → Option (Value Object)
  /-- What `==` finds for two objects. -/
  equals : Object → Object → Bool
  hashCode : Object → BitVec 32
  contentEquals : Object → Object → Bool
  contentHashCode : Object → BitVec 32

instance (heap : Heap) : DecidableEq heap.Object := heap.decidableEq

/-- Objects with the same contents, or that are equal, have the same hash. -/
structure Heap.Lawful (heap : Heap) : Prop where
  hashCode : ∀ a b, heap.equals a b = true → heap.hashCode a = heap.hashCode b
  contentHashCode : ∀ a b, heap.contentEquals a b = true →
    heap.contentHashCode a = heap.contentHashCode b

/-! ## Floating-point numbers -/

namespace Float

/-- The bits of a number without its sign. -/
def magnitude {n : Nat} (bits : BitVec (n + 1)) : BitVec n := bits.setWidth n

/-- The patterns beyond infinity are no numbers. -/
def isNaN {n : Nat} (infinity : BitVec n) (bits : BitVec (n + 1)) : Bool := infinity < magnitude bits

/-- The comparison of numbers: zeros are equal whatever their sign, and what is no number equals nothing. -/
def equal {n : Nat} (infinity : BitVec n) (a b : BitVec (n + 1)) : Bool :=
  !isNaN infinity a && !isNaN infinity b && (a = b || magnitude a = 0 && magnitude b = 0)

/-- Two zeros, one of them negative. -/
def oppositeZeros {n : Nat} (a b : BitVec (n + 1)) : Bool :=
  magnitude a = 0 && magnitude b = 0 && a ≠ b

def infinity32 : BitVec 31 := 0x7f800000

def infinity64 : BitVec 63 := 0x7ff0000000000000

/-- The bits of a number, and one pattern for all that are none. -/
def hash32 (bits : BitVec 32) : BitVec 32 := if isNaN infinity32 bits then 0x7fc00000 else bits

/-- Both halves of a long number, mixed. -/
def fold (bits : BitVec 64) : BitVec 32 := (bits ^^^ (bits >>> 32)).setWidth 32

def hash64 (bits : BitVec 64) : BitVec 32 :=
  fold (if isNaN infinity64 bits then 0x7ff8000000000000 else bits)

/-- A zero has no bits but that of its sign. -/
theorem eq_of_magnitude_eq_zero {n : Nat} {bits : BitVec (n + 1)} (h : magnitude bits = 0) :
    bits = 0 ∨ bits = BitVec.intMin (n + 1) := by
  have hmod : bits.toNat % 2 ^ n = 0 := by
    have hnat := congrArg BitVec.toNat h
    rwa [magnitude, BitVec.toNat_setWidth] at hnat
  have hlt : bits.toNat < 2 ^ n * 2 := bits.isLt.trans_eq (pow_succ 2 n)
  obtain ⟨k, hk⟩ := Nat.dvd_of_mod_eq_zero hmod
  have hk2 : k < 2 := Nat.lt_of_mul_lt_mul_left (hk ▸ hlt)
  obtain rfl | rfl : k = 0 ∨ k = 1 := by omega
  · left
    exact BitVec.eq_of_toNat_eq (by rw [hk]; rfl)
  · right
    refine BitVec.eq_of_toNat_eq ?_
    rw [hk, BitVec.toNat_intMin, mul_one, Nat.add_sub_cancel]
    exact (Nat.mod_eq_of_lt (Nat.pow_lt_pow_right (by decide) (Nat.lt_succ_self n))).symm

/-- Numbers are equal when they have the same bits, or are zeros. -/
theorem cases_of_equal {n : Nat} {infinity : BitVec n} {a b : BitVec (n + 1)}
    (h : equal infinity a b = true) :
    a = b ∨ oppositeZeros a b = true ∧
      (a = 0 ∧ b = BitVec.intMin (n + 1) ∨ a = BitVec.intMin (n + 1) ∧ b = 0) := by
  simp only [equal, Bool.and_eq_true, Bool.or_eq_true, decide_eq_true_eq] at h
  by_cases hsame : a = b
  · exact .inl hsame
  · obtain ⟨ha, hb⟩ := h.2.resolve_left hsame
    refine .inr ⟨by simp [oppositeZeros, ha, hb, hsame], ?_⟩
    rcases eq_of_magnitude_eq_zero ha with rfl | rfl
    · exact .inl ⟨rfl, (eq_of_magnitude_eq_zero hb).resolve_left (Ne.symm hsame)⟩
    · exact .inr ⟨rfl, (eq_of_magnitude_eq_zero hb).resolve_right (Ne.symm hsame)⟩

theorem oppositeZeros_self {n : Nat} (bits : BitVec (n + 1)) : oppositeZeros bits bits = false := by
  simp [oppositeZeros]

end Float

/-! ## Hashes that differ by a sign -/

/-- What a sign adds to a hash. -/
def signBit (there : Bool) : BitVec 32 := if there then BitVec.intMin 32 else 0

theorem signBit_add (a b : Bool) : signBit a + signBit b = signBit (a ^^ b) := by
  cases a <;> cases b <;> decide

/-- An odd factor moves no sign. -/
theorem mul_signBit (there : Bool) : 31 * signBit there = signBit there := by
  cases there <;> decide

theorem eq_add_signBit_iff {hash : BitVec 32} {there : Bool} :
    hash = hash + signBit there ↔ there = false := by
  rw [left_eq_add]
  cases there <;> decide

theorem Float.hash32_of_equal {a b : BitVec 32} (h : Float.equal Float.infinity32 a b = true) :
    Float.hash32 b = Float.hash32 a + signBit (Float.oppositeZeros a b) := by
  rcases Float.cases_of_equal h with rfl | ⟨hzeros, ⟨rfl, rfl⟩ | ⟨rfl, rfl⟩⟩
  · rw [Float.oppositeZeros_self, signBit, if_neg Bool.false_ne_true]
    exact (add_zero _).symm
  · rw [hzeros]
    decide
  · rw [hzeros]
    decide

theorem Float.hash64_of_equal {a b : BitVec 64} (h : Float.equal Float.infinity64 a b = true) :
    Float.hash64 b = Float.hash64 a + signBit (Float.oppositeZeros a b) := by
  rcases Float.cases_of_equal h with rfl | ⟨hzeros, ⟨rfl, rfl⟩ | ⟨rfl, rfl⟩⟩
  · rw [Float.oppositeZeros_self, signBit, if_neg Bool.false_ne_true]
    exact (add_zero _).symm
  · rw [hzeros]
    decide
  · rw [hzeros]
    decide

/-! ## Comparing and hashing values -/

/-- Two zeros of the same type, one of them negative. -/
def Value.oppositeZeros {Object : Type} : Value Object → Value Object → Bool
  | .float a, .float b => Float.oppositeZeros a b
  | .double a, .double b => Float.oppositeZeros a b
  | _, _ => false

theorem Value.oppositeZeros_self {Object : Type} (value : Value Object) :
    value.oppositeZeros value = false := by
  cases value with
  | float bits => exact Float.oppositeZeros_self bits
  | double bits => exact Float.oppositeZeros_self bits
  | _ => rfl

namespace Heap

variable (heap : Heap)

/-- What `==` finds.  Floating-point numbers are compared as numbers, as they are where their type is known. -/
def equal : Value heap.Object → Value heap.Object → Bool
  | .null, .null => true
  | .truth a, .truth b => a = b
  | .byte a, .byte b => a = b
  | .short a, .short b => a = b
  | .int a, .int b => a = b
  | .long a, .long b => a = b
  | .float a, .float b => Float.equal Float.infinity32 a b
  | .double a, .double b => Float.equal Float.infinity64 a b
  | .object a, .object b => heap.equals a b
  | _, _ => false

/-- What `===` finds. -/
def identical (a b : Value heap.Object) : Bool := a = b

/-- What `contentEquals` finds, which takes null. -/
def sameContents : Value heap.Object → Value heap.Object → Bool
  | .null, .null => true
  | .object a, .object b => heap.contentEquals a b
  | _, _ => false

/-- The hash of a value, which for a number comes from its bits. -/
def hash : Value heap.Object → BitVec 32
  | .null => 0
  | .truth value => if value then 1231 else 1237
  | .byte bits => bits.signExtend 32
  | .short bits => bits.signExtend 32
  | .int bits => bits
  | .long bits => Float.fold bits
  | .float bits => Float.hash32 bits
  | .double bits => Float.hash64 bits
  | .object reference => heap.hashCode reference

def contentHash : Value heap.Object → BitVec 32
  | .object reference => heap.contentHashCode reference
  | _ => 0

/-- Whether two values are the same on a basis. -/
def sameBy (basis : Basis) (a b : Value heap.Object) : Bool :=
  match basis with
  | .content => heap.sameContents a b
  | .identity => heap.identical a b
  | _ => heap.equal a b

/-- The hash on a basis. -/
def hashBy (basis : Basis) (value : Value heap.Object) : BitVec 32 :=
  if basis = .content then heap.contentHash value else heap.hash value

variable {heap} {a b : Value heap.Object}

/-- Equal values have the same hash, but for the sign of zero. -/
theorem hash_of_equal (hlawful : heap.Lawful) (h : heap.equal a b = true) :
    heap.hash b = heap.hash a + signBit (a.oppositeZeros b) := by
  -- values of different types are never equal; those of one type are the same, but for floating-point numbers
  -- and objects
  cases a <;> cases b <;> first
    | exact absurd h Bool.false_ne_true
    | exact Float.hash32_of_equal h
    | exact Float.hash64_of_equal h
    | exact (hlawful.hashCode _ _ h).symm.trans (add_zero _).symm
    | (obtain rfl := of_decide_eq_true h; exact (add_zero _).symm)
    | exact (add_zero _).symm

/-- On every basis values that are the same have the same hash, but for the sign of zero. -/
theorem hashBy_of_sameBy (hlawful : heap.Lawful) {basis : Basis} (h : heap.sameBy basis a b = true) :
    heap.hashBy basis b = heap.hashBy basis a + signBit (a.oppositeZeros b) := by
  cases basis with
  | content =>
    cases a <;> cases b <;> first
      | exact absurd h Bool.false_ne_true
      | exact (hlawful.contentHashCode _ _ h).symm.trans (add_zero _).symm
      | exact (add_zero _).symm
  | identity =>
    obtain rfl := of_decide_eq_true h
    rw [Value.oppositeZeros_self]
    exact (add_zero _).symm
  | _ => exact hash_of_equal hlawful h

end Heap

end Kotlin

end SmithyKotlin
