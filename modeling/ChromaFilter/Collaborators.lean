import ChromaFilter.SignedBitmap
import ChromaFilter.Types
import Mathlib.Data.List.AList

/-!
# The filter's collaborators

What the filter reads of the crates around it: the record segment reader, the metadata
segment reader with its column and n-gram indexes, the parsed regular expression, and the
entries of the materialized log. Each is modelled by what its calls return, so every
theorem about the filter holds for every behaviour of these collaborators that its
hypotheses allow.

A call of the filter returns `Ok`, returns `Err`, or panics (`unreachable!`); `Outcome`
keeps the three apart, and a panic, like an error, ends the computation. Rust's `HashMap`
and `BTreeMap` are association lists with unique keys: only lookups, inserts and the
union of a range of entries are read, none of which depends on the order of entries.
-/
namespace ChromaFilter

/-- `std::collections::HashMap`. -/
abbrev HashMap (K V : Type) := AList (fun _ : K => V)

/-- `std::collections::BTreeMap`, read through lookups and the entries of a range. -/
abbrev BTreeMap (K V : Type) := AList (fun _ : K => V)

/-- `FullTextIndexError`, by its message. -/
structure FullTextIndexError where
  msg : String
  deriving DecidableEq, Repr

/-- `MetadataIndexError`: the filter builds only `FullTextError`; the column indexes raise
the others, which this model keeps by their message. -/
inductive MetadataIndexError where
  | fullTextError (e : FullTextIndexError)
  | other (msg : String)
  deriving DecidableEq, Repr

/-- `LogMaterializerError`, by its message. -/
structure LogMaterializerError where
  msg : String
  deriving DecidableEq, Repr

/-- `MetadataSegmentError`, by its message. -/
structure MetadataSegmentError where
  msg : String
  deriving DecidableEq, Repr

/-- The `Box<dyn ChromaError>` a record read fails with, by its message. -/
structure RecordError where
  msg : String
  deriving DecidableEq, Repr

/-- `RecordSegmentReaderCreationError`: `UninitializedSegment` is told apart by `run`. -/
inductive RecordSegmentReaderCreationError where
  | uninitializedSegment
  | other (msg : String)
  deriving DecidableEq, Repr

/-- `ChromaRegexError`, by its message. -/
structure ChromaRegexError where
  msg : String
  deriving DecidableEq, Repr

/-- `FilterError`. -/
inductive FilterError where
  | index (e : MetadataIndexError)
  | logMaterializer (e : LogMaterializerError)
  | metadataReader (e : MetadataSegmentError)
  | record (e : RecordError)
  | recordReader (e : RecordSegmentReaderCreationError)
  | regex (e : ChromaRegexError)
  deriving DecidableEq, Repr

/-- How a call of the filter ends: `Ok`, `Err`, or a panic with its message. -/
inductive Outcome (α : Type) where
  | ok (a : α)
  | err (e : FilterError)
  | panic (msg : String)
  deriving DecidableEq, Repr

namespace Outcome

/-- Sequencing: an error or a panic ends the computation. -/
def bind {α β : Type} : Outcome α → (α → Outcome β) → Outcome β
  | ok a, f => f a
  | err e, _ => err e
  | panic m, _ => panic m

instance : Monad Outcome where
  pure := ok
  bind := bind

/-- The `?` on a collaborator's `Result`, with the `From` conversion of its error. -/
def lift {ε α : Type} (f : ε → FilterError) : Except ε α → Outcome α
  | .ok a => ok a
  | .error e => err (f e)

variable {α β ε : Type} {a : α} {f : α → Outcome β}

@[simp] theorem pure_eq : (pure a : Outcome α) = ok a := rfl

@[simp] theorem ok_bind : (ok a >>= f) = f a := rfl

@[simp] theorem err_bind (e : FilterError) : (err e >>= f) = err e := rfl

@[simp] theorem panic_bind (m : String) : (panic m >>= f) = panic m := rfl

@[simp] theorem lift_ok (g : ε → FilterError) : lift g (.ok a : Except ε α) = ok a := rfl

@[simp] theorem lift_error (g : ε → FilterError) (e : ε) :
    lift g (.error e : Except ε α) = err (g e) := rfl

@[simp] theorem bind_pure (x : Outcome α) : (x >>= fun a => pure a) = x := by cases x <;> rfl

@[simp] theorem bind_assoc {γ : Type} (x : Outcome α) (f : α → Outcome β) (g : β → Outcome γ) :
    (x >>= f >>= g) = x >>= fun a => f a >>= g := by
  cases x <;> rfl

theorem bind_eq_ok {x : Outcome α} {b : β} : (x >>= f) = ok b ↔ ∃ a, x = ok a ∧ f a = ok b := by
  cases x <;> simp

theorem bind_eq_err {x : Outcome α} {e : FilterError} :
    (x >>= f) = err e ↔ x = err e ∨ ∃ a, x = ok a ∧ f a = err e := by
  cases x <;> simp

/-- The computation does not panic, and every error it can end with satisfies `P`. -/
def ErrorsIn (P : FilterError → Prop) : Outcome α → Prop
  | ok _ => True
  | err e => P e
  | panic _ => False

variable {P : FilterError → Prop}

@[simp] theorem errorsIn_ok : ErrorsIn P (ok a) := trivial

@[simp] theorem errorsIn_pure : ErrorsIn P (pure a) := trivial

@[simp] theorem errorsIn_err {e : FilterError} : ErrorsIn P (err e : Outcome α) ↔ P e := Iff.rfl

theorem errorsIn_bind {x : Outcome α} (hx : ErrorsIn P x) (hf : ∀ a, x = ok a → ErrorsIn P (f a)) :
    ErrorsIn P (x >>= f) := by
  cases x with
  | ok a => exact hf a rfl
  | err e => exact hx
  | panic m => exact hx.elim

theorem errorsIn_lift {g : ε → FilterError} {x : Except ε α} (h : ∀ e, x = .error e → P (g e)) :
    ErrorsIn P (lift g x) := by
  cases x with
  | ok a => trivial
  | error e => exact h e rfl

theorem ErrorsIn.mono {Q : FilterError → Prop} {x : Outcome α} (h : ErrorsIn P x)
    (hPQ : ∀ e, P e → Q e) : ErrorsIn Q x := by
  cases x with
  | ok a => trivial
  | err e => exact hPQ e h
  | panic m => exact h.elim

theorem ErrorsIn.ne_panic {x : Outcome α} (h : ErrorsIn P x) (m : String) : x ≠ panic m := by
  rintro rfl
  exact h

@[simp] theorem lift_eq_ok {g : ε → FilterError} {x : Except ε α} : lift g x = ok a ↔ x = .ok a := by
  cases x <;> simp

end Outcome

/-- `DataRecord`, by the fields the filter reads: the user id and the document. -/
structure DataRecord where
  id : String
  document : Option String
  deriving DecidableEq, Repr

/-- `RecordSegmentReader`, by what each of its calls returns. Streams are read whole by
`try_collect`, so each is one `Result` of the list of its items. -/
structure RecordSegmentReader where
  getOffsetIdForUserId : String → Except RecordError (Option UInt32)
  getDataForOffsetId : UInt32 → Except RecordError (Option DataRecord)
  getDataStream : Except RecordError (List (UInt32 × DataRecord))
  getOffsetStream : Except RecordError (List UInt32)
  count : Except RecordError Nat

/-- A column index of the metadata segment, by its five lookups. -/
structure MetadataIndexReader where
  get : String → KeyWrapper → Except MetadataIndexError RoaringBitmap
  gt : String → KeyWrapper → Except MetadataIndexError RoaringBitmap
  gte : String → KeyWrapper → Except MetadataIndexError RoaringBitmap
  lt : String → KeyWrapper → Except MetadataIndexError RoaringBitmap
  lte : String → KeyWrapper → Except MetadataIndexError RoaringBitmap

/-- The n-gram full-text index over literal expressions of type `L`. An answer `none` of
`matchLiteralExpression` is "no filter possible". -/
structure FullTextIndexReader (L : Type) where
  search : String → Except FullTextIndexError RoaringBitmap
  matchLiteralExpression : L → Except FullTextIndexError (Option RoaringBitmap)
  canMatchExactly : L → Bool

/-- `MetadataSegmentReader`, by the readers the filter uses; each may be absent. -/
structure MetadataSegmentReader (L : Type) where
  fullTextIndexReader : Option (FullTextIndexReader L)
  boolMetadataIndexReader : Option MetadataIndexReader
  u32MetadataIndexReader : Option MetadataIndexReader
  f32MetadataIndexReader : Option MetadataIndexReader
  stringMetadataIndexReader : Option MetadataIndexReader

/-- A compiled `regex::Regex`, by its matcher. -/
structure Regex where
  isMatch : String → Bool

/-- A parsed `ChromaRegex`, by what the filter reads of it. -/
structure ChromaRegex (L : Type) where
  /-- `LiteralExpr::from(chroma_regex.hir().clone())`. -/
  literalExpr : L
  /-- `chroma_regex.properties().look_set().is_empty()`. -/
  lookSetIsEmpty : Bool
  /-- `chroma_regex.regex()`: compiling may fail even after parsing succeeded. -/
  regex : Except ChromaRegexError Regex

/-- `MaterializedLogOperation`. -/
inductive MaterializedLogOperation where
  | initial
  | addNew
  | updateExisting
  | overwriteExisting
  | deleteExisting
  deriving DecidableEq, Repr

/-- A hydrated log entry, by what `create` reads of it. -/
structure HydratedMaterializedLogRecord where
  userId : String
  mergedMetadata : HashMap String MetadataValue
  mergedDocument : Option String

/-- An entry of `MaterializeLogsResult`: its operation, its offset, and the outcome of
`hydrate` against the run's record reader. -/
structure MaterializedLogRecord where
  operation : MaterializedLogOperation
  offsetId : UInt32
  hydrate : Except LogMaterializerError HydratedMaterializedLogRecord

end ChromaFilter
