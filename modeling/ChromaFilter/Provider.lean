import ChromaFilter.LogReader
import Mathlib.Data.Finset.Sort

/-!
# Metadata providers

`MetadataProvider` answers the evaluator's three primitive queries from the compacted segment
or from the log view. On the segment a comparison goes to the column index of the value's
variant, a substring test to the n-gram index, and a regular expression to the n-gram index for
candidates, checked against the records by point lookups or by a full scan unless the index's
answer is exact.

The regex library enters as `tryFrom` (`ChromaRegex::try_from`), and the literal expressions the
n-gram index consumes as the type `L`.
-/
namespace ChromaFilter

/-- `MetadataProvider`. -/
inductive MetadataProvider (L : Type) where
  | compactData (metadataSegmentReader : MetadataSegmentReader L)
      (recordSegmentReader : Option RecordSegmentReader)
  | log (metadataLogReader : MetadataLogReader)

/-- `str::contains`, on characters: a byte match of a whole UTF-8 string is one. -/
def strContains (haystack needle : String) : Bool :=
  decide (needle.data <:+: haystack.data)

def ascending (b : RoaringBitmap) : List UInt32 :=
  ((b.image UInt32.toNat).sort (· ≤ ·)).map UInt32.ofNat

/-- `rec.document.is_some_and(|doc| regex.is_match(doc))`. -/
def documentMatches (regex : Regex) (rec : DataRecord) : Bool :=
  rec.document.any regex.isMatch

/-- The point-lookup loop of the verification branch. -/
def lookupMatches (recReader : RecordSegmentReader) (regex : Regex) (acc : RoaringBitmap) :
    List UInt32 → Outcome RoaringBitmap
  | [] => .ok acc
  | id :: ids => do
    let rec ← Outcome.lift .record (recReader.getDataForOffsetId id)
    lookupMatches recReader regex (if rec.any (documentMatches regex) then insert id acc else acc) ids

/-- The full-scan loop of the verification branch, over the collected data stream. -/
def scanMatches (regex : Regex) (candidateOffsets : Option RoaringBitmap)
    (records : List (UInt32 × DataRecord)) : RoaringBitmap :=
  ((records.filter fun r =>
    (candidateOffsets.isNone || candidateOffsets.any (r.1 ∈ ·)) && documentMatches regex r.2).map
      (·.1)).toFinset

/-- The verification branch of `filter_by_document_regex`. -/
def verifyMatches (recReader : RecordSegmentReader) (regex : Regex)
    (approximateMatchingOffsetIds : Option RoaringBitmap) : Outcome RoaringBitmap := do
  match approximateMatchingOffsetIds with
  | some offsetIds =>
    let count ← Outcome.lift .record recReader.count
    if offsetIds.card < count / 10 then
      lookupMatches recReader regex ∅ (ascending offsetIds)
    else
      let records ← Outcome.lift .record recReader.getDataStream
      pure (scanMatches regex (some offsetIds) records)
  | none =>
    let records ← Outcome.lift .record recReader.getDataStream
    pure (scanMatches regex none records)

/-- The segment side of `filter_by_document_regex` with both readers present; the argument of
`unwrap_or` is evaluated first, so the offset stream is read in every exact case. -/
def regexOnSegment {L : Type} (ftiReader : FullTextIndexReader L) (recReader : RecordSegmentReader)
    (chromaRegex : ChromaRegex L) : Outcome RoaringBitmap := do
  let literalExpr := chromaRegex.literalExpr
  let approximateMatchingOffsetIds ←
    Outcome.lift (.index ∘ .fullTextError) (ftiReader.matchLiteralExpression literalExpr)
  let isExactMatch := chromaRegex.lookSetIsEmpty && ftiReader.canMatchExactly literalExpr
  if isExactMatch then
    let allOffsetIds ← Outcome.lift .record recReader.getOffsetStream
    pure (approximateMatchingOffsetIds.getD allOffsetIds.toFinset)
  else
    let regex ← Outcome.lift .regex chromaRegex.regex
    verifyMatches recReader regex approximateMatchingOffsetIds

/-- The records of a record segment, by offset. -/
abbrev RecordSegment := AList fun _ : UInt32 => DataRecord

/-- The reader's point lookups and data stream both read the records of `segment`. -/
structure RecordSegmentReader.Reads (reader : RecordSegmentReader) (segment : RecordSegment) :
    Prop where
  getDataForOffsetId : ∀ o, reader.getDataForOffsetId o = .ok (segment.lookup o)
  getDataStream : ∃ records, reader.getDataStream = .ok records ∧
    ∀ o r, (o, r) ∈ records ↔ segment.lookup o = some r

theorem mem_ascending {b : RoaringBitmap} {o : UInt32} : o ∈ ascending b ↔ o ∈ b := by
  have hinv : ∀ u : UInt32, UInt32.ofNat u.toNat = u := fun u =>
    UInt32.eq_of_val_eq (by simp [UInt32.ofNat, UInt32.toNat, Fin.ofNat])
  simp [ascending, hinv]

theorem any_eq_true_iff {α : Type} {x : Option α} {p : α → Bool} :
    x.any p = true ↔ ∃ a, x = some a ∧ p a = true := by
  cases x <;> simp

theorem documentMatches_eq_true {regex : Regex} {rec : DataRecord} :
    documentMatches regex rec = true ↔ ∃ d, rec.document = some d ∧ regex.isMatch d = true :=
  any_eq_true_iff

theorem lookupMatches_eq_ok {recReader : RecordSegmentReader} {segment : RecordSegment}
    (hr : ∀ o, recReader.getDataForOffsetId o = .ok (segment.lookup o)) (regex : Regex)
    (ids : List UInt32) (acc : RoaringBitmap) :
    ∃ s, lookupMatches recReader regex acc ids = .ok s ∧ ∀ o, o ∈ s ↔
      o ∈ acc ∨ (o ∈ ids ∧ ∃ r, segment.lookup o = some r ∧ documentMatches regex r) := by
  induction ids generalizing acc with
  | nil => exact ⟨acc, rfl, by simp⟩
  | cons id ids ih =>
    obtain ⟨s, hs, hmem⟩ := ih (if (segment.lookup id).any (documentMatches regex) then
      insert id acc else acc)
    refine ⟨s, by simp [lookupMatches, hr, hs], fun o => ?_⟩
    rw [hmem]
    by_cases ho : o = id
    · subst ho
      cases hl : segment.lookup o with
      | none => simp
      | some r => by_cases hm : documentMatches regex r <;> simp [hm]
    · split_ifs <;> simp [ho]

theorem mem_scanMatches {regex : Regex} {candidateOffsets : Option RoaringBitmap}
    {records : List (UInt32 × DataRecord)} {o : UInt32} :
    o ∈ scanMatches regex candidateOffsets records ↔ ∃ r, (o, r) ∈ records ∧
      (candidateOffsets = none ∨ ∃ c, candidateOffsets = some c ∧ o ∈ c) ∧
        documentMatches regex r := by
  cases candidateOffsets <;> simp [scanMatches]

/-- Both loops of the verification branch return the candidates whose document the regex
matches. -/
theorem verifyMatches_eq_ok {recReader : RecordSegmentReader} {segment : RecordSegment}
    (hr : recReader.Reads segment) {n : Nat} (hcount : recReader.count = .ok n) (regex : Regex)
    (approximate : Option RoaringBitmap) :
    ∃ s, verifyMatches recReader regex approximate = .ok s ∧ ∀ o, o ∈ s ↔
      ∃ r, segment.lookup o = some r ∧ (approximate = none ∨ ∃ c, approximate = some c ∧ o ∈ c) ∧
        documentMatches regex r := by
  obtain ⟨records, hstream, hrec⟩ := hr.getDataStream
  have hscan : ∀ c, ∀ o, o ∈ scanMatches regex c records ↔ ∃ r, segment.lookup o = some r ∧
      (c = none ∨ ∃ c', c = some c' ∧ o ∈ c') ∧ documentMatches regex r := fun c o => by
    simp only [mem_scanMatches, hrec]
  cases approximate with
  | none => exact ⟨_, by simp [verifyMatches, hstream]; rfl, by simpa using hscan none⟩
  | some c =>
    by_cases hsmall : c.card < n / 10
    · obtain ⟨s, hs, hmem⟩ := lookupMatches_eq_ok hr.getDataForOffsetId regex (ascending c) ∅
      refine ⟨s, by simp [verifyMatches, hcount, hsmall, hs], fun o => ?_⟩
      rw [hmem]
      simp only [Finset.not_mem_empty, false_or, mem_ascending, Option.some_inj, exists_eq_left',
        reduceCtorEq]
      exact ⟨fun ⟨hc, r, h1, h2⟩ => ⟨r, h1, hc, h2⟩, fun ⟨r, h1, hc, h2⟩ => ⟨hc, r, h1, h2⟩⟩
    · exact ⟨_, by simp [verifyMatches, hcount, hsmall, hstream], hscan (some c)⟩

namespace MetadataProvider

variable {L : Type}

/-- `filter_by_document_contains`. -/
def filterByDocumentContains : MetadataProvider L → String → Outcome RoaringBitmap
  | compactData metadataSegmentReader _, query =>
    match metadataSegmentReader.fullTextIndexReader with
    | some reader => Outcome.lift (.index ∘ .fullTextError) (reader.search query)
    | none => .ok ∅
  | log metadataLogReader, query =>
    .ok (metadataLogReader.document.entries.filterMap fun e =>
      if strContains e.2 query then some e.1 else none).toFinset

/-- `filter_by_document_regex`. -/
def filterByDocumentRegex (tryFrom : String → Except ChromaRegexError (ChromaRegex L)) :
    MetadataProvider L → String → Outcome RoaringBitmap
  | compactData metadataSegmentReader recordSegmentReader, query => do
    let chromaRegex ← Outcome.lift .regex (tryFrom query)
    match metadataSegmentReader.fullTextIndexReader, recordSegmentReader with
    | some ftiReader, some recReader => regexOnSegment ftiReader recReader chromaRegex
    | _, _ => pure ∅
  | log metadataLogReader, query => do
    let chromaRegex ← Outcome.lift .regex (tryFrom query)
    let regex ← Outcome.lift .regex chromaRegex.regex
    pure (metadataLogReader.document.entries.filterMap fun e =>
      if regex.isMatch e.2 then some e.1 else none).toFinset

end MetadataProvider

/-- `ChromaRegex::try_from` rejects the pattern, or `regex()` fails to compile it. -/
def regexFails {L : Type} (tryFrom : String → Except ChromaRegexError (ChromaRegex L))
    (pattern : String) : Bool :=
  match tryFrom pattern with
  | .error _ => true
  | .ok chromaRegex =>
    match chromaRegex.regex with
    | .error _ => true
    | .ok _ => false

namespace MetadataProvider

variable {L : Type} {tryFrom : String → Except ChromaRegexError (ChromaRegex L)}
  (reader : MetadataLogReader) {pattern : String}

theorem filterByDocumentRegex_log_of_fails (h : regexFails tryFrom pattern = true) :
    ∃ e, (log reader).filterByDocumentRegex tryFrom pattern = .err (.regex e) := by
  unfold regexFails at h
  simp only [filterByDocumentRegex]
  cases hp : tryFrom pattern with
  | error e => exact ⟨e, rfl⟩
  | ok cr =>
    rw [hp] at h
    cases hr : cr.regex with
    | error e => exact ⟨e, by simp [hr]⟩
    | ok _ => simp [hr] at h

theorem filterByDocumentRegex_log_of_not_fails (h : regexFails tryFrom pattern = false) :
    ∃ s, (log reader).filterByDocumentRegex tryFrom pattern = .ok s := by
  unfold regexFails at h
  simp only [filterByDocumentRegex]
  cases hp : tryFrom pattern with
  | error e => simp [hp] at h
  | ok cr =>
    rw [hp] at h
    cases hr : cr.regex with
    | error e => simp [hr] at h
    | ok _ => exact ⟨_, by simp [hr]; rfl⟩

end MetadataProvider

/-- The column index of a value's variant, and the value converted to its key type. -/
def MetadataSegmentReader.indexFor {L : Type} (reader : MetadataSegmentReader L) :
    MetadataValue → Option MetadataIndexReader × KeyWrapper
  | .bool b => (reader.boolMetadataIndexReader, .bool b)
  | .int i => (reader.u32MetadataIndexReader, .uint32 (MetadataValue.asU32 i))
  | .float f => (reader.f32MetadataIndexReader, .float32 (MetadataValue.asF32 f))
  | .str s => (reader.stringMetadataIndexReader, .string s)

/-- The lookup of a column index for an operator; `NotEqual` is `unreachable!`. -/
def MetadataIndexReader.lookup (reader : MetadataIndexReader) (key : String) (kw : KeyWrapper) :
    PrimitiveOperator → Outcome RoaringBitmap
  | .equal => Outcome.lift .index (reader.get key kw)
  | .greaterThan => Outcome.lift .index (reader.gt key kw)
  | .greaterThanOrEqual => Outcome.lift .index (reader.gte key kw)
  | .lessThan => Outcome.lift .index (reader.lt key kw)
  | .lessThanOrEqual => Outcome.lift .index (reader.lte key kw)
  | .notEqual => .panic MetadataLogReader.inequalityUnreachable

/-- `filter_by_metadata`. -/
def MetadataProvider.filterByMetadata {L : Type} :
    MetadataProvider L → String → MetadataValue → PrimitiveOperator → Outcome RoaringBitmap
  | compactData metadataSegmentReader _, key, val, op =>
    match metadataSegmentReader.indexFor val with
    | (some reader, kw) => reader.lookup key kw op
    | (none, _) => .ok ∅
  | log metadataLogReader, key, val, op => metadataLogReader.get key val op

/-- The errors a provider call raises: index, record and regex errors. -/
def FilterError.RaisedByProvider : FilterError → Prop
  | .index _ | .record _ | .regex _ => True
  | .logMaterializer _ | .metadataReader _ | .recordReader _ => False

section ProviderErrors

open Outcome

variable {L : Type} {recReader : RecordSegmentReader} {regex : Regex}

theorem lookupMatches_errorsIn :
    ∀ (acc : RoaringBitmap) (ids : List UInt32),
      ErrorsIn FilterError.RaisedByProvider (lookupMatches recReader regex acc ids)
  | _, [] => errorsIn_ok
  | _, _ :: ids => errorsIn_bind (errorsIn_lift fun _ _ => trivial) fun _ _ =>
    lookupMatches_errorsIn _ ids

theorem verifyMatches_errorsIn (approximate : Option RoaringBitmap) :
    ErrorsIn FilterError.RaisedByProvider (verifyMatches recReader regex approximate) := by
  unfold verifyMatches
  split
  · refine errorsIn_bind (errorsIn_lift fun _ _ => trivial) fun count _ => ?_
    split_ifs
    · exact lookupMatches_errorsIn _ _
    · exact errorsIn_bind (errorsIn_lift fun _ _ => trivial) fun _ _ => errorsIn_pure
  · exact errorsIn_bind (errorsIn_lift fun _ _ => trivial) fun _ _ => errorsIn_pure

theorem regexOnSegment_errorsIn (ftiReader : FullTextIndexReader L) (chromaRegex : ChromaRegex L) :
    ErrorsIn FilterError.RaisedByProvider (regexOnSegment ftiReader recReader chromaRegex) := by
  refine errorsIn_bind (errorsIn_lift fun _ _ => trivial) fun _ _ => ?_
  dsimp only
  split_ifs
  · exact errorsIn_bind (errorsIn_lift fun _ _ => trivial) fun _ _ => errorsIn_pure
  · exact errorsIn_bind (errorsIn_lift fun _ _ => trivial) fun _ _ => verifyMatches_errorsIn _

variable (provider : MetadataProvider L)

theorem filterByMetadata_errorsIn (key : String) (val : MetadataValue) (op : PrimitiveOperator)
    (hop : op ≠ .notEqual) :
    ErrorsIn FilterError.RaisedByProvider (provider.filterByMetadata key val op) := by
  cases provider with
  | compactData msr _ =>
    simp only [MetadataProvider.filterByMetadata]
    split
    · cases op <;> simp only [MetadataIndexReader.lookup] <;>
        first | exact absurd rfl hop | exact errorsIn_lift fun _ _ => trivial
    · exact errorsIn_ok
  | log reader =>
    simp only [MetadataProvider.filterByMetadata, MetadataLogReader.get]
    split
    · cases op <;> simp_all [MetadataLogReader.rangeBounds]
    · exact errorsIn_ok

theorem filterByDocumentContains_errorsIn (query : String) :
    ErrorsIn FilterError.RaisedByProvider (provider.filterByDocumentContains query) := by
  cases provider with
  | compactData msr _ =>
    simp only [MetadataProvider.filterByDocumentContains]
    split
    · exact errorsIn_lift fun _ _ => trivial
    · exact errorsIn_ok
  | log reader => exact errorsIn_ok

theorem filterByDocumentRegex_errorsIn
    (tryFrom : String → Except ChromaRegexError (ChromaRegex L)) (query : String) :
    ErrorsIn FilterError.RaisedByProvider (provider.filterByDocumentRegex tryFrom query) := by
  cases provider with
  | compactData msr rr =>
    refine errorsIn_bind (errorsIn_lift fun _ _ => trivial) fun _ _ => ?_
    split
    · exact regexOnSegment_errorsIn _ _
    · exact errorsIn_pure
  | log reader =>
    exact errorsIn_bind (errorsIn_lift fun _ _ => trivial) fun _ _ =>
      errorsIn_bind (errorsIn_lift fun _ _ => trivial) fun _ _ => errorsIn_pure

end ProviderErrors

section Regex

variable {L : Type}

/-- The one-tenth heuristic never changes what a regular expression selects on the segment: in
the verification branch, whichever loop runs, the result is the candidates whose record has a
document the regex matches. -/
theorem filterByDocumentRegex_verification
    (tryFrom : String → Except ChromaRegexError (ChromaRegex L)) (query : String)
    (msr : MetadataSegmentReader L) (recReader : RecordSegmentReader) (segment : RecordSegment)
    {ftiReader : FullTextIndexReader L} {chromaRegex : ChromaRegex L}
    {candidates : Option RoaringBitmap} {regex : Regex} {n : Nat}
    (hfti : msr.fullTextIndexReader = some ftiReader) (hr : recReader.Reads segment)
    (hparse : tryFrom query = .ok chromaRegex)
    (hmatch : ftiReader.matchLiteralExpression chromaRegex.literalExpr = .ok candidates)
    (hinexact : (chromaRegex.lookSetIsEmpty && ftiReader.canMatchExactly chromaRegex.literalExpr)
      = false)
    (hregex : chromaRegex.regex = .ok regex) (hcount : recReader.count = .ok n) :
    ∃ s, (MetadataProvider.compactData msr (some recReader)).filterByDocumentRegex tryFrom query =
      .ok s ∧ ∀ o, o ∈ s ↔ ∃ r, segment.lookup o = some r ∧
        (candidates = none ∨ ∃ c, candidates = some c ∧ o ∈ c) ∧
          ∃ d, r.document = some d ∧ regex.isMatch d = true := by
  obtain ⟨s, hs, hmem⟩ := verifyMatches_eq_ok hr hcount regex candidates
  refine ⟨s, ?_, fun o => by simp only [hmem, documentMatches_eq_true]⟩
  simp only [MetadataProvider.filterByDocumentRegex, hparse, Outcome.lift_ok, Outcome.ok_bind, hfti,
    regexOnSegment, hmatch, hinexact, hregex, hs]
  rfl

theorem filterByDocumentRegex_verification_both_loops :
    (MetadataProvider.compactData ⟨some ⟨fun _ => .ok ∅,
        fun _ => .ok (some {1, 2, 3}), fun _ => true⟩, none, none, none, none⟩
      (some ⟨fun _ => .ok none, fun o => .ok ((⟨[⟨1, ⟨"a", some "cat"⟩⟩, ⟨2, ⟨"b", none⟩⟩,
          ⟨3, ⟨"c", some "dog"⟩⟩], by unfold List.NodupKeys List.keys; decide⟩ :
          RecordSegment).lookup o),
        .ok [(1, ⟨"a", some "cat"⟩), (2, ⟨"b", none⟩), (3, ⟨"c", some "dog"⟩)], .ok [1, 2, 3],
        .ok 100⟩)).filterByDocumentRegex
      (fun _ => .ok ⟨(), false, .ok ⟨fun d => d == "cat"⟩⟩) "cat" = .ok {1} ∧
    (MetadataProvider.compactData ⟨some ⟨fun _ => .ok ∅,
        fun _ => .ok (some {1, 2, 3}), fun _ => true⟩, none, none, none, none⟩
      (some ⟨fun _ => .ok none, fun o => .ok ((⟨[⟨1, ⟨"a", some "cat"⟩⟩, ⟨2, ⟨"b", none⟩⟩,
          ⟨3, ⟨"c", some "dog"⟩⟩], by unfold List.NodupKeys List.keys; decide⟩ :
          RecordSegment).lookup o),
        .ok [(1, ⟨"a", some "cat"⟩), (2, ⟨"b", none⟩), (3, ⟨"c", some "dog"⟩)], .ok [1, 2, 3],
        .ok 3⟩)).filterByDocumentRegex
      (fun _ => .ok ⟨(), false, .ok ⟨fun d => d == "cat"⟩⟩) "cat" = .ok {1} := by
  have hlookup : ∀ o r, (⟨[⟨1, ⟨"a", some "cat"⟩⟩, ⟨2, ⟨"b", none⟩⟩, ⟨3, ⟨"c", some "dog"⟩⟩],
      by unfold List.NodupKeys List.keys; decide⟩ : RecordSegment).lookup o = some r ↔
      (o, r) ∈ [(1, ⟨"a", some "cat"⟩), (2, ⟨"b", none⟩), (3, ⟨"c", some "dog"⟩)] := by
    intro o r
    rw [← Option.mem_def, AList.mem_lookup_iff]
    simp
  -- one proof for both counts: 100 takes the point-lookup loop, 3 the full scan
  have hloop : ∀ n : Nat, (MetadataProvider.compactData ⟨some ⟨fun _ => .ok ∅,
          fun _ => .ok (some {1, 2, 3}), fun _ => true⟩, none, none, none, none⟩
        (some ⟨fun _ => .ok none, fun o => .ok ((⟨[⟨1, ⟨"a", some "cat"⟩⟩, ⟨2, ⟨"b", none⟩⟩,
            ⟨3, ⟨"c", some "dog"⟩⟩], by unfold List.NodupKeys List.keys; decide⟩ :
            RecordSegment).lookup o),
          .ok [(1, ⟨"a", some "cat"⟩), (2, ⟨"b", none⟩), (3, ⟨"c", some "dog"⟩)], .ok [1, 2, 3],
          .ok n⟩)).filterByDocumentRegex
        (fun _ => .ok ⟨(), false, .ok ⟨fun d => d == "cat"⟩⟩) "cat" = .ok {1} := by
    intro n
    obtain ⟨s, hs, hmem⟩ := filterByDocumentRegex_verification
      (fun _ => .ok ⟨(), false, .ok ⟨fun d => d == "cat"⟩⟩) "cat"
      ⟨some ⟨fun _ => .ok ∅, fun _ => .ok (some {1, 2, 3}), fun _ => true⟩, none, none, none,
        none⟩
      ⟨fun _ => .ok none, fun o => .ok ((⟨[⟨1, ⟨"a", some "cat"⟩⟩, ⟨2, ⟨"b", none⟩⟩,
          ⟨3, ⟨"c", some "dog"⟩⟩], by unfold List.NodupKeys List.keys; decide⟩ :
          RecordSegment).lookup o),
        .ok [(1, ⟨"a", some "cat"⟩), (2, ⟨"b", none⟩), (3, ⟨"c", some "dog"⟩)], .ok [1, 2, 3],
        .ok n⟩ _ rfl ⟨fun _ => rfl, _, rfl, fun o r => (hlookup o r).symm⟩ rfl rfl rfl rfl rfl
    refine hs.trans (congrArg _ (Finset.ext fun o => ?_))
    simp [hmem, hlookup, or_and_right, exists_or, and_assoc]
    exact .inl
  exact ⟨hloop 100, hloop 3⟩

/-- In the exact branch an answer "no filter possible" is replaced by the whole offset stream,
records without a document included. -/
theorem filterByDocumentRegex_exact_returns_documentless :
    (MetadataProvider.compactData ⟨some ⟨fun _ => .ok ∅, fun _ => .ok none, fun _ => true⟩,
        none, none, none, none⟩
      (some ⟨fun _ => .ok (some 0), fun o => .ok ((AList.singleton 0 ⟨"u", none⟩ :
        RecordSegment).lookup o), .ok [(0, ⟨"u", none⟩)], .ok [0], .ok 1⟩)).filterByDocumentRegex
      (fun _ => .ok ⟨(), true, .ok ⟨fun _ => true⟩⟩) ".*" = .ok {0} ∧
    (AList.singleton 0 ⟨"u", none⟩ : RecordSegment).lookup 0 = some ⟨"u", none⟩ :=
  ⟨by decide, by decide⟩

/-- In the exact branch the result is the n-gram index's answer: under the index's exactness
contract the records whose document matches, and, when the index answers "no filter possible",
every record of the segment, those without a document included. -/
theorem filterByDocumentRegex_exact
    (tryFrom : String → Except ChromaRegexError (ChromaRegex L)) (query : String)
    (msr : MetadataSegmentReader L) (recReader : RecordSegmentReader) (segment : RecordSegment)
    (isMatch : String → Bool) {ftiReader : FullTextIndexReader L} {chromaRegex : ChromaRegex L}
    {candidates : Option RoaringBitmap} {offsets : List UInt32}
    (hfti : msr.fullTextIndexReader = some ftiReader) (hparse : tryFrom query = .ok chromaRegex)
    (hmatch : ftiReader.matchLiteralExpression chromaRegex.literalExpr = .ok candidates)
    (hexact : (chromaRegex.lookSetIsEmpty && ftiReader.canMatchExactly chromaRegex.literalExpr)
      = true)
    (hstream : recReader.getOffsetStream = .ok offsets)
    (hoffsets : ∀ o, o ∈ offsets ↔ (segment.lookup o).isSome)
    (hsome : ∀ c, candidates = some c → ∀ o, o ∈ c ↔
      ∃ r, segment.lookup o = some r ∧ ∃ d, r.document = some d ∧ isMatch d = true)
    (hnone : candidates = none → ∀ o r d, segment.lookup o = some r → r.document = some d →
      isMatch d = true) :
    ∃ s, (MetadataProvider.compactData msr (some recReader)).filterByDocumentRegex tryFrom query =
      .ok s ∧ ∀ o, o ∈ s ↔ ∃ r, segment.lookup o = some r ∧
        ((∃ d, r.document = some d ∧ isMatch d = true) ∨ (candidates = none ∧ r.document = none)) := by
  refine ⟨candidates.getD offsets.toFinset, ?_, fun o => ?_⟩
  · simp only [MetadataProvider.filterByDocumentRegex, hparse, Outcome.lift_ok, Outcome.ok_bind,
      hfti, regexOnSegment, hmatch, hexact, if_true, hstream]
    rfl
  cases candidates with
  | some c => simp [hsome c rfl]
  | none =>
    simp only [Option.getD_none, List.mem_toFinset, hoffsets, Option.isSome_iff_exists]
    refine exists_congr fun r => ⟨fun hr => ⟨hr, ?_⟩, fun h => h.1⟩
    cases hd : r.document with
    | none => exact .inr ⟨trivial, rfl⟩
    | some d => exact .inl ⟨d, rfl, hnone rfl o r d hr hd⟩

theorem filterByDocumentRegex_exact_keeps_every_record :
    (MetadataProvider.compactData ⟨some ⟨fun _ => .ok ∅, fun _ => .ok none, fun _ => true⟩,
        none, none, none, none⟩
      (some ⟨fun _ => .ok none, fun o => .ok ((⟨[⟨0, ⟨"u", none⟩⟩, ⟨1, ⟨"v", some "cat"⟩⟩],
          by unfold List.NodupKeys List.keys; decide⟩ : RecordSegment).lookup o),
        .ok [(0, ⟨"u", none⟩), (1, ⟨"v", some "cat"⟩)], .ok [0, 1], .ok 2⟩)).filterByDocumentRegex
      (fun _ => .ok ⟨(), true, .ok ⟨fun _ => true⟩⟩) ".*" = .ok {0, 1} := by
  have hlookup : ∀ o r, (⟨[⟨0, ⟨"u", none⟩⟩, ⟨1, ⟨"v", some "cat"⟩⟩],
      by unfold List.NodupKeys List.keys; decide⟩ : RecordSegment).lookup o = some r ↔
      (o, r) ∈ [(0, ⟨"u", none⟩), (1, ⟨"v", some "cat"⟩)] := by
    intro o r
    rw [← Option.mem_def, AList.mem_lookup_iff]
    simp
  obtain ⟨s, hs, hmem⟩ := filterByDocumentRegex_exact
    (fun _ => .ok ⟨(), true, .ok ⟨fun _ => true⟩⟩) ".*"
    ⟨some ⟨fun _ => .ok ∅, fun _ => .ok none, fun _ => true⟩, none, none, none, none⟩
    ⟨fun _ => .ok none, fun o => .ok ((⟨[⟨0, ⟨"u", none⟩⟩, ⟨1, ⟨"v", some "cat"⟩⟩],
        by unfold List.NodupKeys List.keys; decide⟩ : RecordSegment).lookup o),
      .ok [(0, ⟨"u", none⟩), (1, ⟨"v", some "cat"⟩)], .ok [0, 1], .ok 2⟩
    ⟨[⟨0, ⟨"u", none⟩⟩, ⟨1, ⟨"v", some "cat"⟩⟩], by unfold List.NodupKeys List.keys; decide⟩
    (fun _ => true) rfl rfl rfl rfl rfl
    (fun o => by rw [Option.isSome_iff_exists]; simp [hlookup, exists_or]) (fun _ h => nomatch h)
    (fun _ _ _ _ _ _ => rfl)
  refine hs.trans (congrArg _ (Finset.ext fun o => ?_))
  simp [hmem, hlookup, or_and_right, exists_or, and_assoc]

end Regex

/-- The offsets of the entries whose value satisfies `p`. -/
def selectOffsets {κ : Type} (entries : List (UInt32 × κ)) (p : κ → Bool) : RoaringBitmap :=
  ((entries.filter fun e => p e.2).map (·.1)).toFinset

/-- A column index answers its five lookups under `key` with `sel p`, the offsets whose stored
key `w` satisfies `p w`, for the relation of each lookup to the query in the order `less`. -/
structure MetadataIndexReader.Holds {κ : Type} [DecidableEq κ] (reader : MetadataIndexReader)
    (less : κ → κ → Bool) (wrap : κ → KeyWrapper) (key : String)
    (sel : (κ → Bool) → RoaringBitmap) : Prop where
  get : ∀ q, reader.get key (wrap q) = .ok (sel fun w => w = q)
  gt : ∀ q, reader.gt key (wrap q) = .ok (sel fun w => less q w)
  gte : ∀ q, reader.gte key (wrap q) = .ok (sel fun w => !less w q)
  lt : ∀ q, reader.lt key (wrap q) = .ok (sel fun w => less w q)
  lte : ∀ q, reader.lte key (wrap q) = .ok (sel fun w => !less q w)

/-- The log view holds `records` under `key`: exactly those offsets carry each value. -/
def MetadataLogReader.HoldsKey (reader : MetadataLogReader) (key : String)
    (records : List (UInt32 × MetadataValue)) : Prop :=
  ∀ w o, o ∈ reader.offsets key w ↔ (o, w) ∈ records

/-- The `(offset, value)` pairs of `key` in the live entries of a log. -/
def keyRecords (logs : List MaterializedLogRecord) (key : String) : List (UInt32 × MetadataValue) :=
  logs.filterMap fun e => e.live.bind fun h => (h.mergedMetadata.lookup key).map (e.offsetId, ·)

theorem MetadataLogReader.IsViewOf.holdsKey {reader : MetadataLogReader}
    {logs : List MaterializedLogRecord} (hv : reader.IsViewOf logs) (key : String) :
    reader.HoldsKey key (keyRecords logs key) := by
  intro w o
  rw [hv.metadata]
  simp only [keyRecords, List.mem_filterMap, Option.bind_eq_some, Option.map_eq_some',
    Prod.mk.injEq]
  constructor
  · rintro ⟨e, he, rfl, h, hl, hk⟩; exact ⟨e, he, h, hl, w, hk, rfl, rfl⟩
  · rintro ⟨e, he, h, hl, w', hk, rfl, rfl⟩; exact ⟨e, he, rfl, h, hl, hk⟩

/-- A column index holding exactly `entries` under `key`. -/
def MetadataIndexReader.ofEntries {κ : Type} [DecidableEq κ] (lt : κ → κ → Bool)
    (unwrap : KeyWrapper → Option κ) (key : String) (entries : List (UInt32 × κ)) :
    MetadataIndexReader :=
  let answer (op : PrimitiveOperator) (k : String) (kw : KeyWrapper) :
      Except MetadataIndexError RoaringBitmap :=
    .ok (match unwrap kw with
      | some q => if k = key then selectOffsets entries fun w => op.holds lt w q else ∅
      | none => ∅)
  ⟨answer .equal, answer .greaterThan, answer .greaterThanOrEqual, answer .lessThan,
    answer .lessThanOrEqual⟩

section Comparison

variable {L κ : Type} {o : UInt32} {p p' : κ → Bool}

@[simp] theorem mem_selectOffsets {entries : List (UInt32 × κ)} :
    o ∈ selectOffsets entries p ↔ ∃ w, (o, w) ∈ entries ∧ p w := by
  simp [selectOffsets]

theorem selectOffsets_map {κ' : Type} (entries : List (UInt32 × κ)) (f : κ → κ') (p : κ' → Bool) :
    selectOffsets (entries.map fun e => (e.1, f e.2)) p = selectOffsets entries (p ∘ f) := by
  ext o; simp only [mem_selectOffsets, List.mem_map, Prod.mk.injEq, Function.comp]
  constructor
  · rintro ⟨_, ⟨⟨a, w⟩, hw, rfl, rfl⟩, hp⟩; exact ⟨w, hw, hp⟩
  · rintro ⟨w, hw, hp⟩; exact ⟨f w, ⟨(o, w), hw, rfl, rfl⟩, hp⟩

theorem selectOffsets_congr {entries : List (UInt32 × κ)} (h : ∀ e ∈ entries, p e.2 = p' e.2) :
    selectOffsets entries p = selectOffsets entries p' := by
  ext o; simp only [mem_selectOffsets]
  exact exists_congr fun w => and_congr_right fun hw => by rw [h _ hw]

/-- The filter's dispatch sends each operator to the lookup of its relation. -/
theorem MetadataIndexReader.Holds.lookup [DecidableEq κ] {reader : MetadataIndexReader}
    {less : κ → κ → Bool} {wrap : κ → KeyWrapper} {key : String}
    {sel : (κ → Bool) → RoaringBitmap} (h : reader.Holds less wrap key sel)
    {op : PrimitiveOperator} (hop : op ≠ .notEqual) (q : κ) :
    reader.lookup key (wrap q) op = .ok (sel fun w => op.holds less w q) := by
  cases op <;> simp only [MetadataIndexReader.lookup, h.get, h.gt, h.gte, h.lt, h.lte,
    Outcome.lift_ok, PrimitiveOperator.holds]
  exact absurd rfl hop

theorem ofEntries_holds [DecidableEq κ] {less : κ → κ → Bool} {unwrap : KeyWrapper → Option κ}
    (wrap : κ → KeyWrapper) (hunwrap : ∀ q, unwrap (wrap q) = some q) (key : String)
    (entries : List (UInt32 × κ)) :
    (MetadataIndexReader.ofEntries less unwrap key entries).Holds less wrap key
      (selectOffsets entries) := by
  constructor <;> intro q <;>
    simp [MetadataIndexReader.ofEntries, hunwrap, PrimitiveOperator.holds]

theorem filterByMetadata_log_of_holdsKey {reader : MetadataLogReader} {key : String}
    {records : List (UInt32 × MetadataValue)} (h : reader.HoldsKey key records)
    {op : PrimitiveOperator} (hop : op ≠ .notEqual) (val : MetadataValue) :
    (MetadataProvider.log (L := L) reader).filterByMetadata key val op =
      .ok (selectOffsets records fun w => op.holds MetadataValue.lt w val) := by
  obtain ⟨s, hs, hmem⟩ := reader.get_holds key val hop
  refine hs.trans (congrArg _ (Finset.ext fun o => ?_))
  simp only [hmem, mem_selectOffsets]
  exact exists_congr fun w => by rw [h w o, and_comm]

theorem filterByMetadata_log_of_variant [DecidableEq κ] {lt : κ → κ → Bool}
    (f : κ → MetadataValue) (hlt : ∀ x y, MetadataValue.lt (f x) (f y) = lt x y)
    (hinj : ∀ x y, f x = f y ↔ x = y) {reader : MetadataLogReader} {key : String}
    {entries : List (UInt32 × κ)} (hlog : reader.HoldsKey key (entries.map fun e => (e.1, f e.2)))
    {op : PrimitiveOperator} (hop : op ≠ .notEqual) (q : κ) :
    (MetadataProvider.log (L := L) reader).filterByMetadata key (f q) op =
      .ok (selectOffsets entries fun w => op.holds lt w q) := by
  rw [filterByMetadata_log_of_holdsKey hlog hop, selectOffsets_map]
  exact congrArg _ (selectOffsets_congr fun _ _ => PrimitiveOperator.holds_variant f hlt hinj op _ _)

/-- Over a column index and a log view holding the same records, the two providers agree on
every comparison of `Bool` and `Str` values, and of `Int` values below `2 ^ 32`. -/
theorem filterByMetadata_providers_agree (msr : MetadataSegmentReader L)
    (rr : Option RecordSegmentReader) (reader : MetadataLogReader) (key : String)
    (op : PrimitiveOperator) (hop : op ≠ .notEqual) :
    (∀ (idx : MetadataIndexReader) (entries : List (UInt32 × Bool)) (b : Bool),
      msr.boolMetadataIndexReader = some idx →
      idx.Holds (fun x y => !x && y) .bool key (selectOffsets entries) →
      reader.HoldsKey key (entries.map fun e => (e.1, .bool e.2)) →
      (MetadataProvider.compactData msr rr).filterByMetadata key (.bool b) op =
        .ok (selectOffsets entries fun w => op.holds (fun x y => !x && y) w b) ∧
      (MetadataProvider.log (L := L) reader).filterByMetadata key (.bool b) op =
        .ok (selectOffsets entries fun w => op.holds (fun x y => !x && y) w b)) ∧
    (∀ (idx : MetadataIndexReader) (entries : List (UInt32 × String)) (s : String),
      msr.stringMetadataIndexReader = some idx →
      idx.Holds (fun x y => decide (x < y)) .string key (selectOffsets entries) →
      reader.HoldsKey key (entries.map fun e => (e.1, .str e.2)) →
      (MetadataProvider.compactData msr rr).filterByMetadata key (.str s) op =
        .ok (selectOffsets entries fun w => op.holds (fun x y => decide (x < y)) w s) ∧
      (MetadataProvider.log (L := L) reader).filterByMetadata key (.str s) op =
        .ok (selectOffsets entries fun w => op.holds (fun x y => decide (x < y)) w s)) ∧
    (∀ (idx : MetadataIndexReader) (entries : List (UInt32 × BitVec 64)) (i : BitVec 64),
      msr.u32MetadataIndexReader = some idx →
      idx.Holds (fun x y => decide (x < y)) .uint32 key
        (selectOffsets (entries.map fun e => (e.1, MetadataValue.asU32 e.2))) →
      reader.HoldsKey key (entries.map fun e => (e.1, .int e.2)) →
      i.toNat < 2 ^ 32 → (∀ e ∈ entries, e.2.toNat < 2 ^ 32) →
      (MetadataProvider.compactData msr rr).filterByMetadata key (.int i) op =
        .ok (selectOffsets entries fun w => op.holds BitVec.slt w i) ∧
      (MetadataProvider.log (L := L) reader).filterByMetadata key (.int i) op =
        .ok (selectOffsets entries fun w => op.holds BitVec.slt w i)) := by
  refine ⟨fun idx entries b hidx hheld hlog => ⟨?_, ?_⟩, fun idx entries s hidx hheld hlog => ⟨?_, ?_⟩,
    fun idx entries i hidx hheld hlog hi hent => ⟨?_, ?_⟩⟩
  · simpa [MetadataProvider.filterByMetadata, MetadataSegmentReader.indexFor, hidx] using
      hheld.lookup hop b
  · exact filterByMetadata_log_of_variant MetadataValue.bool (fun _ _ => rfl) (by simp) hlog hop b
  · simpa [MetadataProvider.filterByMetadata, MetadataSegmentReader.indexFor, hidx] using
      hheld.lookup hop s
  · exact filterByMetadata_log_of_variant MetadataValue.str (fun _ _ => rfl) (by simp) hlog hop s
  · have := hheld.lookup hop (MetadataValue.asU32 i)
    simp only [MetadataProvider.filterByMetadata, MetadataSegmentReader.indexFor, hidx, this,
      selectOffsets_map]
    exact congrArg _ (selectOffsets_congr fun e he =>
      PrimitiveOperator.holds_map (MetadataValue.asU32_lt_asU32 (hent e he) hi)
        (MetadataValue.asU32_lt_asU32 hi (hent e he)) (MetadataValue.asU32_inj (hent e he) hi) op)
  · exact filterByMetadata_log_of_variant MetadataValue.int (fun _ _ => rfl) (by simp) hlog hop i

theorem filterByMetadata_providers_agree_small_int :
    ∃ reader, MetadataLogReader.create
        [⟨.addNew, 1, .ok ⟨"a", AList.singleton "k" (.int 5), none⟩⟩] = .ok reader ∧
      (MetadataProvider.compactData (L := Unit) ⟨none, none, some (MetadataIndexReader.ofEntries
          (fun x y => decide (x < y)) (fun | .uint32 u => some u | _ => none) "k"
          [(1, MetadataValue.asU32 5)]), none, none⟩ none).filterByMetadata "k" (.int 3)
        .greaterThan = .ok {1} ∧
      (MetadataProvider.log (L := Unit) reader).filterByMetadata "k" (.int 3) .greaterThan =
        .ok {1} := by
  obtain ⟨reader, hr⟩ : ∃ r, MetadataLogReader.create
      [⟨.addNew, 1, .ok ⟨"a", AList.singleton "k" (.int 5), none⟩⟩] = .ok r := ⟨_, rfl⟩
  have hlog := (MetadataLogReader.create_isViewOf _ ⟨by decide, by simp⟩ hr).holdsKey "k"
  simp only [keyRecords, MetadataLogReader.live_eq_some] at hlog
  obtain ⟨h1, h2⟩ := (filterByMetadata_providers_agree ⟨none, none, some
    (MetadataIndexReader.ofEntries (fun x y => decide (x < y))
      (fun | .uint32 u => some u | _ => none) "k" [(1, MetadataValue.asU32 5)]), none, none⟩
    none reader "k" .greaterThan (by decide)).2.2 _ [((1 : UInt32), (5 : BitVec 64))] 3 rfl
    (ofEntries_holds KeyWrapper.uint32 (fun _ => rfl) _ _) (by simpa using hlog) (by decide)
    (by decide)
  exact ⟨reader, hr, h1.trans (by decide), h2.trans (by decide)⟩

/-- Below zero `as u32` breaks the agreement: a stored `-1` satisfies `k < 0` on the log side
only. -/
theorem filterByMetadata_negative_int_disagrees :
    ∃ reader, MetadataLogReader.create
        [⟨.addNew, 1, .ok ⟨"a", AList.singleton "k" (.int (-1)), none⟩⟩] = .ok reader ∧
      reader.HoldsKey "k" [(1, .int (-1))] ∧
      (MetadataIndexReader.ofEntries (fun x y => decide (x < y))
          (fun | .uint32 u => some u | _ => none) "k" [(1, MetadataValue.asU32 (-1))]).Holds
        (fun x y => decide (x < y)) .uint32 "k" (selectOffsets [(1, MetadataValue.asU32 (-1))]) ∧
      (MetadataProvider.compactData (L := Unit) ⟨none, none, some (MetadataIndexReader.ofEntries
          (fun x y => decide (x < y)) (fun | .uint32 u => some u | _ => none) "k"
          [(1, MetadataValue.asU32 (-1))]), none, none⟩ none).filterByMetadata "k" (.int 0)
        .lessThan = .ok ∅ ∧
      (MetadataProvider.log (L := Unit) reader).filterByMetadata "k" (.int 0) .lessThan =
        .ok {1} := by
  refine ⟨_, rfl, ?_, ofEntries_holds KeyWrapper.uint32 (fun _ => rfl) _ _, by decide,
    by decide⟩
  have hv := MetadataLogReader.create_isViewOf
    [⟨.addNew, 1, .ok ⟨"a", AList.singleton "k" (.int (-1)), none⟩⟩] ⟨by decide, by simp⟩ rfl
  simpa [keyRecords, MetadataLogReader.live_eq_some] using hv.holdsKey "k"

theorem filterByMetadata_log_ok (reader : MetadataLogReader) (key : String) (val : MetadataValue)
    {op : PrimitiveOperator} (hop : op ≠ .notEqual) :
    ∃ s, (MetadataProvider.log (L := L) reader).filterByMetadata key val op = .ok s := by
  obtain ⟨s, hs, -⟩ := reader.get_holds key val hop
  exact ⟨s, hs⟩

end Comparison

section LogAnswers

variable {L : Type} {logs : List MaterializedLogRecord} {reader : MetadataLogReader}

theorem mem_document_filterMap (p : String → Bool) (o : UInt32) :
    o ∈ (reader.document.entries.filterMap fun e => if p e.2 then some e.1 else none).toFinset ↔
      ∃ d, reader.document.lookup o = some d ∧ p d = true := by
  simp only [List.mem_toFinset, List.mem_filterMap]
  constructor
  · rintro ⟨⟨o', d⟩, he, h⟩
    split_ifs at h with hp
    cases h
    exact ⟨d, AList.mem_lookup_iff.2 he, hp⟩
  · rintro ⟨d, he, hp⟩
    exact ⟨⟨o, d⟩, AList.mem_lookup_iff.1 he, by simp [hp]⟩

theorem MetadataLogReader.IsViewOf.mem_document_filterMap (hv : reader.IsViewOf logs)
    (p : String → Bool) (o : UInt32) :
    o ∈ (reader.document.entries.filterMap fun e => if p e.2 then some e.1 else none).toFinset ↔
      ∃ e ∈ logs, e.offsetId = o ∧ ∃ hyd, e.live = some hyd ∧
        ∃ d, hyd.mergedDocument = some d ∧ p d = true := by
  rw [ChromaFilter.mem_document_filterMap]
  simp only [hv.document]
  constructor
  · rintro ⟨d, ⟨e, he, rfl, hyd, hl, hdoc⟩, hp⟩
    exact ⟨e, he, rfl, hyd, hl, d, hdoc, hp⟩
  · rintro ⟨e, he, rfl, hyd, hl, d, hdoc, hp⟩
    exact ⟨d, ⟨e, he, rfl, hyd, hl, hdoc⟩, hp⟩

theorem MetadataLogReader.IsViewOf.filterByMetadata_log (hv : reader.IsViewOf logs)
    (key : String) (v : MetadataValue) {op : PrimitiveOperator} (hop : op ≠ .notEqual) :
    ∃ s, (MetadataProvider.log (L := L) reader).filterByMetadata key v op = .ok s ∧
      ∀ o, o ∈ s ↔ ∃ e ∈ logs, e.offsetId = o ∧ ∃ hyd, e.live = some hyd ∧
        ∃ w, hyd.mergedMetadata.lookup key = some w ∧ op.holds MetadataValue.lt w v = true := by
  obtain ⟨s, hs, hmem⟩ := reader.get_holds key v hop
  refine ⟨s, hs, fun o => ?_⟩
  simp only [hmem, hv.metadata]
  constructor
  · rintro ⟨w, hw, e, he, rfl, hyd, hl, hk⟩
    exact ⟨e, he, rfl, hyd, hl, w, hk, hw⟩
  · rintro ⟨e, he, rfl, hyd, hl, w, hk, hw⟩
    exact ⟨w, hw, e, he, rfl, hyd, hl, hk⟩

/-- Over the log view of entries with distinct offsets, the log provider answers each query
from the live records, comparisons in the tagged-value order. -/
theorem MetadataProvider.log_answers_from_records (hd : MetadataLogReader.DistinctEntries logs)
    (hcreate : MetadataLogReader.create logs = .ok reader) :
    (∀ key v op, op ≠ .notEqual →
      ∃ s, (MetadataProvider.log (L := L) reader).filterByMetadata key v op = .ok s ∧
        ∀ o, o ∈ s ↔ ∃ e ∈ logs, e.offsetId = o ∧ ∃ hyd, e.live = some hyd ∧
          ∃ w, hyd.mergedMetadata.lookup key = some w ∧ op.holds MetadataValue.lt w v = true) ∧
    (∀ q, ∃ s, (MetadataProvider.log (L := L) reader).filterByDocumentContains q = .ok s ∧
      ∀ o, o ∈ s ↔ ∃ e ∈ logs, e.offsetId = o ∧ ∃ hyd, e.live = some hyd ∧
        ∃ d, hyd.mergedDocument = some d ∧ strContains d q = true) ∧
    (∀ (tryFrom : String → Except ChromaRegexError (ChromaRegex L)) p chromaRegex regex,
      tryFrom p = .ok chromaRegex → chromaRegex.regex = .ok regex →
      ∃ s, (MetadataProvider.log reader).filterByDocumentRegex tryFrom p = .ok s ∧
        ∀ o, o ∈ s ↔ ∃ e ∈ logs, e.offsetId = o ∧ ∃ hyd, e.live = some hyd ∧
          ∃ d, hyd.mergedDocument = some d ∧ regex.isMatch d = true) := by
  have hv := MetadataLogReader.create_isViewOf logs hd hcreate
  exact ⟨fun key v _ hop => hv.filterByMetadata_log key v hop,
    fun q => ⟨_, rfl, hv.mem_document_filterMap (strContains · q)⟩,
    fun _ p _ regex hp hr => ⟨_, by simp [filterByDocumentRegex, hp, hr],
      hv.mem_document_filterMap regex.isMatch⟩⟩

theorem MetadataProvider.log_answers_from_records_one_entry :
    ∃ (logs : List MaterializedLogRecord) (reader : MetadataLogReader),
      logs = [⟨.addNew, 7, .ok ⟨"u7", AList.singleton "k" (.int 1), some "a cat"⟩⟩] ∧
      MetadataLogReader.DistinctEntries logs ∧ MetadataLogReader.create logs = .ok reader ∧
      (∀ key v op, op ≠ .notEqual →
        ∃ s, (MetadataProvider.log (L := Unit) reader).filterByMetadata key v op = .ok s ∧
          ∀ o, o ∈ s ↔ ∃ e ∈ logs, e.offsetId = o ∧ ∃ hyd, e.live = some hyd ∧
            ∃ w, hyd.mergedMetadata.lookup key = some w ∧ op.holds MetadataValue.lt w v = true) ∧
      (∀ q, ∃ s, (MetadataProvider.log (L := Unit) reader).filterByDocumentContains q = .ok s ∧
        ∀ o, o ∈ s ↔ ∃ e ∈ logs, e.offsetId = o ∧ ∃ hyd, e.live = some hyd ∧
          ∃ d, hyd.mergedDocument = some d ∧ strContains d q = true) ∧
      (∀ (tryFrom : String → Except ChromaRegexError (ChromaRegex Unit)) p chromaRegex regex,
        tryFrom p = .ok chromaRegex → chromaRegex.regex = .ok regex →
        ∃ s, (MetadataProvider.log reader).filterByDocumentRegex tryFrom p = .ok s ∧
          ∀ o, o ∈ s ↔ ∃ e ∈ logs, e.offsetId = o ∧ ∃ hyd, e.live = some hyd ∧
            ∃ d, hyd.mergedDocument = some d ∧ regex.isMatch d = true) := by
  have hd : MetadataLogReader.DistinctEntries
      [⟨.addNew, 7, .ok ⟨"u7", AList.singleton "k" (.int 1), some "a cat"⟩⟩] :=
    ⟨by decide, by simp⟩
  exact ⟨_, _, rfl, hd, rfl, MetadataProvider.log_answers_from_records hd rfl⟩

end LogAnswers

end ChromaFilter
