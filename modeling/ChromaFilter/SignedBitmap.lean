import Mathlib.Data.Finset.Basic

/-!
# Signed roaring bitmaps

A `SignedRoaringBitmap` holds a set of `u32` offsets either by its members (`include`) or by
the members of its complement (`exclude`), so that the universe is never materialized. The
operators live in `chroma_types`; their table is the spec's.
-/
namespace ChromaFilter

/-- `roaring::RoaringBitmap`: a finite set of `u32` offsets. -/
abbrev RoaringBitmap := Finset UInt32

/-- Modelled from the spec: `SignedRoaringBitmap` of `chroma_types`. -/
inductive SignedRoaringBitmap where
  | include (b : RoaringBitmap)
  | exclude (b : RoaringBitmap)
  deriving DecidableEq

namespace SignedRoaringBitmap

/-- `SignedRoaringBitmap::empty()`. -/
def empty : SignedRoaringBitmap := .include ∅

/-- `SignedRoaringBitmap::full()`. -/
def full : SignedRoaringBitmap := .exclude ∅

/-- Modelled from the spec: `BitAnd` of two signed bitmaps. -/
def bitand : SignedRoaringBitmap → SignedRoaringBitmap → SignedRoaringBitmap
  | .include x, .include y => .include (x ∩ y)
  | .include x, .exclude y => .include (x \ y)
  | .exclude x, .include y => .include (y \ x)
  | .exclude x, .exclude y => .exclude (x ∪ y)

/-- Modelled from the spec: `BitOr` of two signed bitmaps. -/
def bitor : SignedRoaringBitmap → SignedRoaringBitmap → SignedRoaringBitmap
  | .include x, .include y => .include (x ∪ y)
  | .include x, .exclude y => .exclude (y \ x)
  | .exclude x, .include y => .exclude (x \ y)
  | .exclude x, .exclude y => .exclude (x ∩ y)

instance : AndOp SignedRoaringBitmap := ⟨bitand⟩
instance : OrOp SignedRoaringBitmap := ⟨bitor⟩

/-- Whether an offset is in the set, as the downstream operators read the mask. -/
def contains : SignedRoaringBitmap → UInt32 → Bool
  | .include b, o => o ∈ b
  | .exclude b, o => o ∉ b

instance : Membership UInt32 SignedRoaringBitmap := ⟨fun s o => s.contains o = true⟩

instance (o : UInt32) (s : SignedRoaringBitmap) : Decidable (o ∈ s) :=
  inferInstanceAs (Decidable (s.contains o = true))

variable {o : UInt32} {a b : SignedRoaringBitmap} {x : RoaringBitmap}

@[simp] theorem mem_include : o ∈ SignedRoaringBitmap.include x ↔ o ∈ x := by
  show contains _ _ = true ↔ _; simp [contains]

@[simp] theorem mem_exclude : o ∈ SignedRoaringBitmap.exclude x ↔ o ∉ x := by
  show contains _ _ = true ↔ _; simp [contains]

@[simp] theorem not_mem_empty : o ∉ empty := by simp [empty]

@[simp] theorem mem_full : o ∈ full := by simp [full]

@[simp] theorem mem_bitand : o ∈ a &&& b ↔ o ∈ a ∧ o ∈ b := by
  show o ∈ bitand a b ↔ _
  cases a <;> cases b <;> simp [bitand, and_comm]

@[simp] theorem mem_bitor : o ∈ a ||| b ↔ o ∈ a ∨ o ∈ b := by
  show o ∈ bitor a b ↔ _
  cases a <;> cases b <;> simp [bitor, imp_iff_not_or, or_comm]

theorem mem_foldl_bitand (l : List SignedRoaringBitmap) (init : SignedRoaringBitmap) :
    o ∈ l.foldl (· &&& ·) init ↔ o ∈ init ∧ ∀ s ∈ l, o ∈ s := by
  induction l generalizing init with
  | nil => simp
  | cons s l ih => simp [ih, and_assoc]

theorem mem_foldl_bitor (l : List SignedRoaringBitmap) (init : SignedRoaringBitmap) :
    o ∈ l.foldl (· ||| ·) init ↔ o ∈ init ∨ ∃ s ∈ l, o ∈ s := by
  induction l generalizing init with
  | nil => simp
  | cons s l ih => simp [ih, or_assoc]

end SignedRoaringBitmap

end ChromaFilter
