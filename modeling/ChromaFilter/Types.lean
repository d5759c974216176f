import Mathlib.Data.String.Basic
import Mathlib.Data.BitVec

/-!
# Metadata values and the predicate grammar

The values a record's metadata may hold, the key conversions of the segment's column indexes,
and the `Where` tree a query filters by. An `i64` is held as `BitVec 64`, an `f64` as its IEEE
bits and an `f32` as `UInt32`; the `Ord` of `MetadataValue` comes from the spec.
-/
namespace ChromaFilter

/-- `MetadataValue`: the value of one metadata key. -/
inductive MetadataValue where
  | bool (b : Bool)
  | int (i : BitVec 64)
  | float (f : BitVec 64)
  | str (s : String)
  deriving DecidableEq, Repr

namespace MetadataValue

/-- The position of a value's variant in the declaration of `MetadataValue`. -/
def variantRank : MetadataValue → Nat
  | bool _ => 0
  | int _ => 1
  | float _ => 2
  | str _ => 3

/-- Whether two values have the same variant; the spec compares only such values. -/
def sameVariant (w v : MetadataValue) : Bool :=
  w.variantRank == v.variantRank

/-- The integer `f64::total_cmp` compares, from the IEEE bits. -/
def totalCmpKey (f : BitVec 64) : Int :=
  if f.toNat < 2 ^ 63 then f.toNat else -((f.toNat - 2 ^ 63 : Nat) : Int) - 1

/-- Modelled from the spec: `<` of the `Ord` of `MetadataValue`, by variant first and then by
that variant's order (`i64` signed, `f64` by `total_cmp`, strings by code point). -/
def lt : MetadataValue → MetadataValue → Bool
  | bool a, bool b => !a && b
  | int a, int b => a.slt b
  | float a, float b => totalCmpKey a < totalCmpKey b
  | str a, str b => a < b
  | a, b => a.variantRank < b.variantRank

theorem totalCmpKey_injective : Function.Injective totalCmpKey := by
  intro a b h
  simp only [totalCmpKey] at h
  apply BitVec.eq_of_toNat_eq
  split_ifs at h <;> omega

theorem not_lt_and_not_gt_iff_eq {v w : MetadataValue} :
    (!v.lt w && !w.lt v) = true ↔ v = w := by
  constructor
  · cases v <;> cases w <;> simp [lt, variantRank, BitVec.slt] <;> intros
    · rename_i a b h1 h2; cases a <;> cases b <;> simp_all
    · exact BitVec.eq_of_toInt_eq (by omega)
    · exact totalCmpKey_injective (by omega)
    · exact String.ext (le_antisymm ‹_› ‹_›)
  · rintro rfl
    cases v <;> simp [lt, BitVec.slt]

/-- `i as u32`: the low 32 bits of an `i64`. -/
def asU32 (i : BitVec 64) : UInt32 := UInt32.ofNat i.toNat

theorem asU32_lt_asU32 {w q : BitVec 64} (hw : w.toNat < 2 ^ 32) (hq : q.toNat < 2 ^ 32) :
    decide (asU32 w < asU32 q) = w.slt q := by
  have h1 : 2 * w.toNat < 2 ^ 64 := by omega
  have h2 : 2 * q.toNat < 2 ^ 64 := by omega
  simp only [BitVec.slt, BitVec.toInt_eq_toNat_cond, h1, h2, if_true, UInt32.lt_def, BitVec.lt_def]
  simp [asU32, UInt32.ofNat]; omega

theorem asU32_inj {w q : BitVec 64} (hw : w.toNat < 2 ^ 32) (hq : q.toNat < 2 ^ 32) :
    asU32 w = asU32 q ↔ w = q := by
  refine ⟨fun h => BitVec.eq_of_toNat_eq ?_, fun h => h ▸ rfl⟩
  have := congrArg (fun u : UInt32 => u.toBitVec.toNat) h
  simp [asU32, UInt32.ofNat] at this; omega

/-- Round `x / 2 ^ s` to the nearest integer, ties to even. -/
def roundTiesToEven (x s : Nat) : Nat :=
  if x % 2 ^ s * 2 > 2 ^ s ∨ (x % 2 ^ s * 2 = 2 ^ s ∧ x / 2 ^ s % 2 = 1) then x / 2 ^ s + 1
  else x / 2 ^ s

/-- `f as f32` on IEEE bits: round to nearest, ties to even; a NaN is quieted. -/
def asF32 (f : BitVec 64) : UInt32 :=
  let n := f.toNat
  let exp := n / 2 ^ 52 % 2 ^ 11
  let mant := n % 2 ^ 52
  UInt32.ofNat <| n / 2 ^ 63 * 2 ^ 31 +
    if exp = 2047 then 0x7F800000 + (if mant = 0 then 0 else 0x400000 ||| mant / 2 ^ 29)
    else if 896 < exp then min 0x7F800000 (roundTiesToEven ((exp - 896) * 2 ^ 52 + mant) 29)
    else roundTiesToEven (if exp = 0 then mant else 2 ^ 52 + mant) (926 - max exp 1)

end MetadataValue

/-- `KeyWrapper`: the key a segment column index is queried with. -/
inductive KeyWrapper where
  | string (s : String)
  | float32 (f : UInt32)
  | bool (b : Bool)
  | uint32 (u : UInt32)
  deriving DecidableEq, Repr

inductive PrimitiveOperator where
  | equal
  | notEqual
  | greaterThan
  | greaterThanOrEqual
  | lessThan
  | lessThanOrEqual
  deriving DecidableEq, Repr

/-- What `w op q` means in an order given by its strict part `lt`. -/
def PrimitiveOperator.holds {κ : Type} [DecidableEq κ] (lt : κ → κ → Bool) :
    PrimitiveOperator → κ → κ → Bool
  | equal, w, q => w = q
  | notEqual, w, q => w ≠ q
  | greaterThan, w, q => lt q w
  | greaterThanOrEqual, w, q => !lt w q
  | lessThan, w, q => lt w q
  | lessThanOrEqual, w, q => !lt q w

theorem PrimitiveOperator.holds_map {κ κ' : Type} [DecidableEq κ] [DecidableEq κ']
    {lt : κ → κ → Bool} {lt' : κ' → κ' → Bool} {f : κ → κ'} {w q : κ}
    (hwq : lt' (f w) (f q) = lt w q) (hqw : lt' (f q) (f w) = lt q w) (hinj : f w = f q ↔ w = q)
    (op : PrimitiveOperator) : op.holds lt' (f w) (f q) = op.holds lt w q := by
  cases op <;> simp [holds, hwq, hqw, hinj]

/-- On one variant, the tagged-value order is that variant's order. -/
theorem PrimitiveOperator.holds_variant {κ : Type} [DecidableEq κ] {lt : κ → κ → Bool}
    (f : κ → MetadataValue) (hlt : ∀ x y, MetadataValue.lt (f x) (f y) = lt x y)
    (hinj : ∀ x y, f x = f y ↔ x = y) (op : PrimitiveOperator) (w q : κ) :
    op.holds MetadataValue.lt (f w) (f q) = op.holds lt w q :=
  holds_map (hlt w q) (hlt q w) (hinj w q) op

inductive SetOperator where
  | «in»
  | notIn
  deriving DecidableEq, Repr

/-- `MetadataSetValue`: the values of a set comparison, all of one variant. -/
inductive MetadataSetValue where
  | bool (vs : List Bool)
  | int (vs : List (BitVec 64))
  | float (vs : List (BitVec 64))
  | str (vs : List String)
  deriving DecidableEq, Repr

/-- The `child_values` that `MetadataExpression::eval` builds of a set comparison. -/
def MetadataSetValue.childValues : MetadataSetValue → List MetadataValue
  | bool vs => vs.map .bool
  | int vs => vs.map .int
  | float vs => vs.map .float
  | str vs => vs.map .str

/-- Whether `v` is one of the values of a set comparison. -/
def MetadataSetValue.has : MetadataSetValue → MetadataValue → Bool
  | bool vs, .bool b => b ∈ vs
  | int vs, .int i => i ∈ vs
  | float vs, .float f => f ∈ vs
  | str vs, .str s => s ∈ vs
  | _, _ => false

inductive MetadataComparison where
  | primitive (op : PrimitiveOperator) (value : MetadataValue)
  | set (op : SetOperator) (values : MetadataSetValue)
  deriving DecidableEq, Repr

structure MetadataExpression where
  key : String
  comparison : MetadataComparison
  deriving DecidableEq, Repr

inductive DocumentOperator where
  | contains
  | notContains
  | regex
  | notRegex
  deriving DecidableEq, Repr

/-- `DocumentExpression`: a test on a record's document. -/
structure DocumentExpression where
  operator : DocumentOperator
  pattern : String
  deriving DecidableEq, Repr

inductive BooleanOperator where
  | and
  | or
  deriving DecidableEq, Repr

/-- `Where`: the predicate tree. A composite node holds the fields of `CompositeExpression`. -/
inductive Where where
  | metadata (e : MetadataExpression)
  | document (e : DocumentExpression)
  | composite (operator : BooleanOperator) (children : List Where)
  deriving Repr

end ChromaFilter
