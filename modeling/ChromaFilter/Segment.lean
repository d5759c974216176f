import ChromaFilter.DualSource

/-!
# The segment side over its records

`FilterOperator.mem_compactOffsets_of_run` takes as given that the segment evaluates the where
clause by its meaning on the segment's records. This module derives it from what the segment's
readers hold, one call of the evaluator at a time:

* a comparison goes to the column index of its value's variant. Indexes that hold the segment's
  values of their variant under every key (`i64` values `as u32`) answer a comparison with a
  `Bool` or `Str` value by the records when the segment's values under the key are of that
  variant, and one with an `Int` value in `[0, 2 ^ 32)` when they are `Int` values in that
  range, where `as u32` keeps their order. `Float` values are left out: `as f32` rounds them;
* a substring test goes to the n-gram index, taken to answer it by the records;
* a regular expression goes to the n-gram index for candidates and, unless the index calls its
  answer exact, is checked against the records the record reader reads. When the candidates
  hold every match, an exact answer is the matches, and the index never answers "no filter
  possible" to an expression it calls exact (where the code returns the whole offset stream),
  the answer is the matches, whichever loop reads the records.

Over such readers every tree whose comparisons are of that kind and whose patterns parse
evaluates on the segment by its meaning on each record (`Records.segment_eval_holds`). With the
log side, `FilterOperator.mem_logOffsets_of_run`, a run then keeps exactly the merged records the
operator selects, from the contracts of the collaborators alone
(`FilterOperator.run_keeps_selected_records`).
-/
namespace ChromaFilter

namespace MetadataValue

def boolKey : MetadataValue → Option Bool
  | bool b => some b
  | _ => none

def u32Key : MetadataValue → Option UInt32
  | int i => some (asU32 i)
  | _ => none

def stringKey : MetadataValue → Option String
  | str s => some s
  | _ => none

end MetadataValue

/-- A column index holds the segment's records: under every key, the values that `keyOf`
converts, in the order `less`. -/
def MetadataIndexReader.HoldsRecords {κ : Type} [DecidableEq κ] (reader : MetadataIndexReader)
    (less : κ → κ → Bool) (wrap : κ → KeyWrapper) (keyOf : MetadataValue → Option κ)
    (segment : Records) : Prop :=
  ∀ key, reader.Holds less wrap key fun p =>
    segment.select fun r => ((r.mergedMetadata.lookup key).bind keyOf).any p

/-- The column index over the values of `segment` that `keyOf` converts, in the order `lt`;
`unwrap` reads its key type back from a `KeyWrapper`. -/
def MetadataIndexReader.ofRecords {κ : Type} [DecidableEq κ] (lt : κ → κ → Bool)
    (unwrap : KeyWrapper → Option κ) (keyOf : MetadataValue → Option κ) (segment : Records) :
    MetadataIndexReader :=
  let answer (op : PrimitiveOperator) (key : String) (kw : KeyWrapper) :
      Except MetadataIndexError RoaringBitmap :=
    .ok (match unwrap kw with
      | some q => segment.select fun r =>
        ((r.mergedMetadata.lookup key).bind keyOf).any (op.holds lt · q)
      | none => ∅)
  ⟨answer .equal, answer .greaterThan, answer .greaterThanOrEqual, answer .lessThan,
    answer .lessThanOrEqual⟩

/-- The segment's column indexes for `Bool`, `i64` and `String` values hold its records. -/
structure MetadataSegmentReader.IndexesRecords {L : Type} (msr : MetadataSegmentReader L)
    (segment : Records) : Prop where
  bool : ∃ reader, msr.boolMetadataIndexReader = some reader ∧
    reader.HoldsRecords (fun x y => !x && y) .bool MetadataValue.boolKey segment
  u32 : ∃ reader, msr.u32MetadataIndexReader = some reader ∧
    reader.HoldsRecords (fun x y : UInt32 => decide (x < y)) .uint32 MetadataValue.u32Key segment
  string : ∃ reader, msr.stringMetadataIndexReader = some reader ∧
    reader.HoldsRecords (fun x y : String => decide (x < y)) .string MetadataValue.stringKey
      segment

/-- The comparisons with `v` under `key` that the column indexes answer by the records: the
segment's values under `key` are of `v`'s variant, and for `Int` they and `v` lie in
`[0, 2 ^ 32)`; never for `Float`. -/
def Records.Indexable (segment : Records) (key : String) : MetadataValue → Prop
  | .bool _ => segment.ValuesUnder key fun w => ∃ b, w = .bool b
  | .int i => i.toNat < 2 ^ 32 ∧
    segment.ValuesUnder key fun w => ∃ j, w = .int j ∧ j.toNat < 2 ^ 32
  | .float _ => False
  | .str _ => segment.ValuesUnder key fun w => ∃ s, w = .str s

/-- The calls the segment answers by its records, over readers that hold them. -/
def Query.Served (segment : Records) : Query → Prop
  | .metadata key v _ => segment.Indexable key v
  | .contains _ | .regex _ => True

/-- The n-gram index finds the records of `segment`: a substring search answers with the
records whose document contains the needle; for a pattern that `tryFrom` parses, the candidates
hold every record whose document `isMatch` matches, and are exactly those records, never "no
filter possible", when the index can match the expression exactly. -/
structure FullTextIndexReader.Finds {L : Type} (reader : FullTextIndexReader L)
    (tryFrom : String → Except ChromaRegexError (ChromaRegex L))
    (isMatch : String → String → Bool) (segment : Records) : Prop where
  search : ∀ q,
    reader.search q = .ok (segment.select fun r => r.mergedDocument.any (strContains · q))
  candidates : ∀ p chromaRegex, tryFrom p = .ok chromaRegex → ∃ c,
    reader.matchLiteralExpression chromaRegex.literalExpr = .ok c ∧
      (∀ b ∈ c, segment.select (·.mergedDocument.any (isMatch p)) ⊆ b) ∧
      ((chromaRegex.lookSetIsEmpty && reader.canMatchExactly chromaRegex.literalExpr) = true →
        c = some (segment.select (·.mergedDocument.any (isMatch p))))

/-- The record reader reads the records of `segment`: its point lookups and its data stream
return each record's user id and document, and its offset stream and count are read without
error. -/
structure RecordSegmentReader.ReadsRecords (reader : RecordSegmentReader) (segment : Records) :
    Prop where
  reads : ∃ recordSegment : RecordSegment, reader.Reads recordSegment ∧
    ∀ o, recordSegment.lookup o = (segment.record o).map fun r => ⟨r.userId, r.mergedDocument⟩
  offsetStream : ∃ offsets, reader.getOffsetStream = .ok offsets
  count : ∃ n, reader.count = .ok n

theorem MetadataIndexReader.ofRecords_holdsRecords {κ : Type} [DecidableEq κ]
    {lt : κ → κ → Bool} {unwrap : KeyWrapper → Option κ} (wrap : κ → KeyWrapper)
    (hunwrap : ∀ q, unwrap (wrap q) = some q) (keyOf : MetadataValue → Option κ)
    (segment : Records) :
    (ofRecords lt unwrap keyOf segment).HoldsRecords lt wrap keyOf segment := fun _ => by
  constructor <;> intro q <;> simp [ofRecords, hunwrap, PrimitiveOperator.holds]

section SegmentAnswers

variable {L : Type} {tryFrom : String → Except ChromaRegexError (ChromaRegex L)}
  {isMatch : String → String → Bool} {segment : Records} {msr : MetadataSegmentReader L}
  {key : String} {op : PrimitiveOperator}

/-- An index that holds the segment's records answers a comparison by the records when, on every
value the segment holds under the key, the converted comparison means what comparing within a
variant means. -/
theorem MetadataIndexReader.HoldsRecords.lookup_compares {κ : Type} [DecidableEq κ]
    {reader : MetadataIndexReader} {less : κ → κ → Bool} {wrap : κ → KeyWrapper}
    {keyOf : MetadataValue → Option κ} (h : reader.HoldsRecords less wrap keyOf segment)
    (hop : op ≠ .notEqual) (q : κ) (v : MetadataValue)
    (hq : segment.ValuesUnder key fun w =>
      (keyOf w).any (op.holds less · q) = (w.sameVariant v && op.holds MetadataValue.lt w v)) :
    reader.lookup key (wrap q) op = .ok (segment.select (·.compares key op v)) := by
  rw [(h key).lookup hop q]
  refine congrArg _ (Records.select_congr fun o r hr => ?_)
  unfold HydratedMaterializedLogRecord.compares
  cases hw : r.mergedMetadata.lookup key with
  | none => rfl
  | some w => exact hq o r w hr hw

theorem MetadataSegmentReader.IndexesRecords.filterByMetadata (hidx : msr.IndexesRecords segment)
    (rr : Option RecordSegmentReader) {v : MetadataValue} (hv : segment.Indexable key v)
    (hop : op ≠ .notEqual) :
    (MetadataProvider.compactData msr rr).filterByMetadata key v op =
      .ok (segment.select (·.compares key op v)) := by
  cases v with
  | bool b =>
    obtain ⟨reader, hr, hh⟩ := hidx.bool
    simp only [MetadataProvider.filterByMetadata, MetadataSegmentReader.indexFor, hr]
    refine hh.lookup_compares hop b _ fun o r w hrec hw => ?_
    obtain ⟨b', rfl⟩ := hv o r w hrec hw
    exact (PrimitiveOperator.holds_variant MetadataValue.bool (fun _ _ => rfl) (by simp) op
      b' b).symm
  | int i =>
    obtain ⟨hi, hvals⟩ := hv
    obtain ⟨reader, hr, hh⟩ := hidx.u32
    simp only [MetadataProvider.filterByMetadata, MetadataSegmentReader.indexFor, hr]
    refine hh.lookup_compares hop _ _ fun o r w hrec hw => ?_
    obtain ⟨j, rfl, hj⟩ := hvals o r w hrec hw
    show op.holds _ (MetadataValue.asU32 j) (MetadataValue.asU32 i) = _
    rw [PrimitiveOperator.holds_variant MetadataValue.int (fun _ _ => rfl) (by simp) op j i]
    exact PrimitiveOperator.holds_map (MetadataValue.asU32_lt_asU32 hj hi)
      (MetadataValue.asU32_lt_asU32 hi hj) (MetadataValue.asU32_inj hj hi) op
  | float f => exact hv.elim
  | str s =>
    obtain ⟨reader, hr, hh⟩ := hidx.string
    simp only [MetadataProvider.filterByMetadata, MetadataSegmentReader.indexFor, hr]
    refine hh.lookup_compares hop s _ fun o r w hrec hw => ?_
    obtain ⟨s', rfl⟩ := hv o r w hrec hw
    exact (PrimitiveOperator.holds_variant MetadataValue.str (fun _ _ => rfl) (by simp) op
      s' s).symm

variable {fti : FullTextIndexReader L}

theorem FullTextIndexReader.Finds.filterByDocumentContains
    (hfti : msr.fullTextIndexReader = some fti) (hf : fti.Finds tryFrom isMatch segment)
    (rr : Option RecordSegmentReader) (q : String) :
    (MetadataProvider.compactData msr rr).filterByDocumentContains q =
      .ok (segment.select fun r => r.mergedDocument.any (strContains · q)) := by
  simp [MetadataProvider.filterByDocumentContains, hfti, hf.search]

/-- The segment answers a regular expression that parses with the records it matches, in the
exact branch and in the verification branch whichever loop reads the records, when the n-gram
index finds the records and the record reader reads them. -/
theorem FullTextIndexReader.Finds.filterByDocumentRegex {recReader : RecordSegmentReader}
    (hfti : msr.fullTextIndexReader = some fti) (hf : fti.Finds tryFrom isMatch segment)
    (hrr : recReader.ReadsRecords segment) {p : String}
    (hparse : (Query.regex p).Parses tryFrom isMatch) :
    (MetadataProvider.compactData msr (some recReader)).filterByDocumentRegex tryFrom p =
      .ok (segment.select (·.mergedDocument.any (isMatch p))) := by
  obtain ⟨cr, rx, hp, hrx, hm⟩ := hparse
  obtain ⟨c, hc, hsub, hexact⟩ := hf.candidates p cr hp
  simp only [MetadataProvider.filterByDocumentRegex, hp, Outcome.lift_ok, Outcome.ok_bind, hfti,
    regexOnSegment, hc]
  split_ifs with hex
  · obtain ⟨offsets, hs⟩ := hrr.offsetStream
    simp [hs, hexact hex]
  · obtain ⟨recordSegment, hreads, hdata⟩ := hrr.reads
    obtain ⟨n, hn⟩ := hrr.count
    obtain ⟨s, hs, hmem⟩ := verifyMatches_eq_ok hreads hn rx c
    simp only [hrx, Outcome.lift_ok, Outcome.ok_bind, hs]
    refine congrArg _ (Finset.ext fun o => ?_)
    simp only [hmem, hdata, Records.mem_select, Option.map_eq_some', documentMatches, hm]
    constructor
    · rintro ⟨_, ⟨r, hr, rfl⟩, -, hd⟩
      exact ⟨r, hr, hd⟩
    · rintro ⟨r, hr, hd⟩
      refine ⟨_, ⟨r, hr, rfl⟩, ?_, hd⟩
      cases c with
      | none => exact .inl rfl
      | some b => exact .inr ⟨b, rfl, hsub b rfl (Records.mem_select.2 ⟨r, hr, hd⟩)⟩

/-- Over readers that hold the segment's records, the segment answers by the records each call
of a tree that it serves and whose pattern parses. -/
theorem Records.segment_answered {recReader : RecordSegmentReader}
    (hidx : msr.IndexesRecords segment) (hfti : msr.fullTextIndexReader = some fti)
    (hfinds : fti.Finds tryFrom isMatch segment) (hrr : recReader.ReadsRecords segment)
    (P : Where) (hP : ∀ q ∈ P.queries, q.Served segment ∧ q.Parses tryFrom isMatch) :
    ∀ q ∈ P.queries, q.Answered tryFrom (.compactData msr (some recReader)) (segment.answers isMatch)
  | .metadata key v op, hq => by
    have hop : op ≠ .notEqual := by
      rintro rfl
      exact P.notEqual_not_mem_queries key v hq
    exact hidx.filterByMetadata _ (hP _ hq).1 hop
  | .contains q, _ => hfinds.filterByDocumentContains hfti _ q
  | .regex _, hq => hfinds.filterByDocumentRegex hfti hrr (hP _ hq).2

/-- The segment evaluates a tree by its meaning on each of its records when its readers hold
them: the column indexes for `Bool`, `i64` and `String` values, the n-gram index for substrings
and for the candidates of a regular expression, and the record reader for the records
themselves; each comparison of the tree is indexable and each of its patterns parses. -/
theorem Records.segment_eval_holds (tryFrom : String → Except ChromaRegexError (ChromaRegex L))
    (isMatch : String → String → Bool) (segment : Records) (msr : MetadataSegmentReader L)
    (recReader : RecordSegmentReader) (P : Where) (hidx : msr.IndexesRecords segment)
    (hfti : msr.fullTextIndexReader = some fti) (hfinds : fti.Finds tryFrom isMatch segment)
    (hrr : recReader.ReadsRecords segment)
    (hP : ∀ q ∈ P.queries, q.Served segment ∧ q.Parses tryFrom isMatch) :
    ∃ s, P.eval tryFrom (.compactData msr (some recReader)) = .ok s ∧
      ∀ o r, segment.record o = some r → (o ∈ s ↔ P.holds isMatch r = true) :=
  Records.eval_holds P (Records.segment_answered hidx hfti hfinds hrr P hP)

/-- The filter keeps exactly the records it should, from the contracts of its collaborators
alone. The segment's readers hold its records (column indexes, n-gram index, record reader,
which also finds each record by user id); each call of the where clause is indexable, meets in
the log only values of its variant and has a pattern that parses; and the log (with distinct
offsets and user ids) holds no `Initial` entry and adds no offset of the segment. Then the
offsets a run keeps, from the log and from the segment, are exactly those of the merged records
the operator selects. -/
theorem FilterOperator.run_keeps_selected_records {operator : FilterOperator}
    {out : FilterOutput} {logs : List MaterializedLogRecord}
    (tryFrom : String → Except ChromaRegexError (ChromaRegex L))
    (isMatch : String → String → Bool) (input : FilterInput L) (segment : Records)
    (msr : MetadataSegmentReader L) (recReader : RecordSegmentReader)
    (hrun : operator.run tryFrom input = .ok out)
    (hopen : openRecordSegment input.recordSegmentReader = .ok (some recReader))
    (hmat : input.materializeLogs (some recReader) = .ok logs)
    (hmsr : input.metadataSegmentReader = .ok msr)
    (hd : MetadataLogReader.DistinctEntries logs)
    (hinit : ∀ e ∈ logs, e.operation ≠ .initial)
    (hadd : ∀ e ∈ logs, e.operation = .addNew → e.offsetId ∉ segment.offsets)
    (hidx : msr.IndexesRecords segment) (hfti : msr.fullTextIndexReader = some fti)
    (hfinds : fti.Finds tryFrom isMatch segment) (hrr : recReader.ReadsRecords segment)
    (hids : ∀ u o, recReader.getOffsetIdForUserId u = .ok (some o) ↔
      ∃ r, segment.record o = some r ∧ r.userId = u)
    (hP : ∀ clause ∈ operator.whereClause, ∀ q ∈ clause.queries,
      q.Served segment ∧ q.Typed (logRecords logs) ∧ q.Parses tryFrom isMatch) :
    out.logOffsets logs ∪ out.compactOffsets segment.offsets =
      (merged logs segment).select (operator.selects isMatch) := by
  have hseg : ∀ clause ∈ operator.whereClause, ∃ s,
      clause.eval tryFrom (.compactData msr (some recReader)) = .ok s ∧
        ∀ o r, segment.record o = some r → (o ∈ s ↔ clause.holds isMatch r = true) :=
    fun clause hc => Records.eval_holds clause (Records.segment_answered hidx hfti hfinds hrr
      clause fun q hq => ⟨(hP clause hc q hq).1, (hP clause hc q hq).2.2⟩)
  ext o
  rw [Finset.mem_union, FilterOperator.mem_logOffsets_of_run hrun hopen hmat hd
      fun clause hc q hq => (hP clause hc q hq).2,
    FilterOperator.mem_compactOffsets_of_run segment hrun hopen hmat hmsr hd hinit hadd hseg
      (fun _ hr => by cases hr; exact hids) (fun h => by cases h), mem_merged_select hd]

end SegmentAnswers

theorem FilterOperator.run_keeps_selected_records_two_sources :
    ∃ (logs : List MaterializedLogRecord) (segment : Records) (operator : FilterOperator)
      (out : FilterOutput),
      logs = [⟨.addNew, 1, .ok ⟨"a", AList.singleton "k" (.int 1), some "x"⟩⟩,
        ⟨.deleteExisting, 2, .error ⟨"deleted"⟩⟩] ∧
      segment = ⟨fun o => if o = 3 then some ⟨"c", ∅, none⟩ else none, {3},
        fun o => by by_cases h : o = 3 <;> simp [h]⟩ ∧
      operator = ⟨some ["a", "c"], some (.metadata ⟨"k", .primitive .equal (.int 1)⟩)⟩ ∧
      operator.run (fun p => .ok ⟨(), true, .ok ⟨(strContains · p)⟩⟩)
        ⟨.ok ⟨fun u => .ok (if u = "c" then some 3 else none),
            fun o => .ok ((AList.singleton 3 ⟨"c", none⟩ : RecordSegment).lookup o),
            .ok [(3, ⟨"c", none⟩)], .ok [3], .ok 1⟩,
          fun _ => .ok logs,
          .ok ⟨some ⟨fun q => .ok (segment.select fun r =>
              r.mergedDocument.any (strContains · q)), fun _ => .ok none, fun _ => false⟩,
            some (.ofRecords (fun x y => !x && y) (fun | .bool b => some b | _ => none)
              MetadataValue.boolKey segment),
            some (.ofRecords (fun x y : UInt32 => decide (x < y))
              (fun | .uint32 u => some u | _ => none) MetadataValue.u32Key segment), none,
            some (.ofRecords (fun x y : String => decide (x < y))
              (fun | .string s => some s | _ => none) MetadataValue.stringKey segment)⟩⟩ =
        .ok out ∧
      out.logOffsets logs ∪ out.compactOffsets segment.offsets =
        (merged logs segment).select (operator.selects fun p d => strContains d p) := by
  have hd : MetadataLogReader.DistinctEntries
      [⟨.addNew, 1, .ok ⟨"a", AList.singleton "k" (.int 1), some "x"⟩⟩,
        ⟨.deleteExisting, 2, .error ⟨"deleted"⟩⟩] :=
    ⟨by decide, by simp [MaterializedLogRecord.live]⟩
  have hrec : ∀ (o : UInt32) r, (if o = 3 then some (⟨"c", ∅, none⟩ : HydratedMaterializedLogRecord)
      else none) = some r → o = 3 ∧ r = ⟨"c", ∅, none⟩ := fun o r h => by
    by_cases ho : o = 3 <;> simp_all
  have hl : ∀ o : UInt32, (AList.singleton 3 ⟨"c", none⟩ : RecordSegment).lookup o =
      if o = 3 then some ⟨"c", none⟩ else none := fun o => by
    by_cases h : o = 3
    · subst h; simp [AList.lookup, AList.singleton_entries]
    · simp [AList.lookup, AList.singleton_entries, h]
  refine ⟨_, _, _, _, rfl, rfl, rfl, rfl, ?_⟩
  refine FilterOperator.run_keeps_selected_records (fun p => .ok ⟨(), true, .ok ⟨(strContains · p)⟩⟩)
    _ ⟨.ok ⟨fun u => .ok (if u = "c" then some 3 else none),
      fun o => .ok ((AList.singleton 3 ⟨"c", none⟩ : RecordSegment).lookup o),
      .ok [(3, ⟨"c", none⟩)], .ok [3], .ok 1⟩, fun _ => .ok _, .ok _⟩ _
    ⟨some ⟨fun q => .ok (Records.select ⟨fun o => if o = 3 then some ⟨"c", ∅, none⟩ else none,
        {3}, fun o => by by_cases h : o = 3 <;> simp [h]⟩ fun r =>
          r.mergedDocument.any (strContains · q)), fun _ => .ok none, fun _ => false⟩,
      some (.ofRecords (fun x y => !x && y) (fun | .bool b => some b | _ => none)
        MetadataValue.boolKey _),
      some (.ofRecords (fun x y : UInt32 => decide (x < y))
        (fun | .uint32 u => some u | _ => none) MetadataValue.u32Key _), none,
      some (.ofRecords (fun x y : String => decide (x < y))
        (fun | .string s => some s | _ => none) MetadataValue.stringKey _)⟩
    _ (by exact rfl) rfl rfl rfl hd
    (by decide) (by decide)
    ⟨⟨_, rfl, MetadataIndexReader.ofRecords_holdsRecords KeyWrapper.bool (fun _ => rfl) _ _⟩,
      ⟨_, rfl, MetadataIndexReader.ofRecords_holdsRecords KeyWrapper.uint32 (fun _ => rfl) _ _⟩,
      ⟨_, rfl, MetadataIndexReader.ofRecords_holdsRecords KeyWrapper.string (fun _ => rfl) _ _⟩⟩
    rfl ⟨fun _ => rfl, fun _ _ _ => ⟨none, rfl, (fun _ h => nomatch h), by simp⟩⟩
    ⟨⟨_, ⟨fun _ => rfl, _, rfl, fun o r => by rw [hl]; by_cases h : o = 3 <;> simp [h, eq_comm]⟩,
      fun o => by rw [hl]; by_cases h : o = 3 <;> simp [h]⟩, ⟨_, rfl⟩, ⟨_, rfl⟩⟩
    (fun u o => ?_) ?_
  · by_cases hu : u = "c" <;> by_cases ho : o = 3 <;> simp [hu, ho, eq_comm]
  · intro clause hc q hq
    cases hc
    simp only [Where.queries, List.mem_singleton] at hq
    subst hq
    refine ⟨⟨by decide, fun o r w h hw => ?_⟩, .inl rfl, trivial⟩
    obtain ⟨-, rfl⟩ := hrec o r h
    simp at hw

theorem Records.segment_eval_holds_one_record :
    ∃ segment : Records, segment = ⟨fun o => if o = 0 then
        some ⟨"u", AList.singleton "k" (.int 5), some "cat"⟩ else none, {0},
        fun o => by by_cases h : o = 0 <;> simp [h]⟩ ∧
      ∃ s, (Where.composite .and [.metadata ⟨"k", .primitive .greaterThan (.int 3)⟩,
          .document ⟨.regex, "at"⟩]).eval (fun p => .ok ⟨(), true, .ok ⟨(strContains · p)⟩⟩)
          (.compactData ⟨some ⟨fun q => .ok (segment.select fun r =>
              r.mergedDocument.any (strContains · q)), fun _ => .ok none, fun _ => false⟩,
            some (.ofRecords (fun x y => !x && y) (fun | .bool b => some b | _ => none)
              MetadataValue.boolKey segment),
            some (.ofRecords (fun x y : UInt32 => decide (x < y))
              (fun | .uint32 u => some u | _ => none) MetadataValue.u32Key segment), none,
            some (.ofRecords (fun x y : String => decide (x < y))
              (fun | .string s => some s | _ => none) MetadataValue.stringKey segment)⟩
          (some ⟨fun _ => .ok none, fun o => .ok ((AList.singleton 0 ⟨"u", some "cat"⟩ :
              RecordSegment).lookup o), .ok [(0, ⟨"u", some "cat"⟩)], .ok [0], .ok 1⟩)) = .ok s ∧
        ∀ o r, segment.record o = some r → (o ∈ s ↔
          (Where.composite .and [.metadata ⟨"k", .primitive .greaterThan (.int 3)⟩,
            .document ⟨.regex, "at"⟩]).holds (fun p d => strContains d p) r = true) := by
  refine ⟨_, rfl, ?_⟩
  have hrec : ∀ (o : UInt32) r, (if o = 0 then
      some (⟨"u", AList.singleton "k" (.int 5), some "cat"⟩ : HydratedMaterializedLogRecord)
      else none) = some r →
      o = 0 ∧ r = ⟨"u", AList.singleton "k" (.int 5), some "cat"⟩ := fun o r h => by
    by_cases ho : o = 0 <;> simp_all
  have hl : ∀ o : UInt32, (AList.singleton 0 ⟨"u", some "cat"⟩ : RecordSegment).lookup o =
      if o = 0 then some ⟨"u", some "cat"⟩ else none := fun o => by
    by_cases h : o = 0
    · subst h; simp [AList.lookup, AList.singleton_entries]
    · simp [AList.lookup, AList.singleton_entries, h]
  refine Records.segment_eval_holds _ _ _ _ _ _
    ⟨⟨_, rfl, MetadataIndexReader.ofRecords_holdsRecords KeyWrapper.bool (fun _ => rfl) _ _⟩,
      ⟨_, rfl, MetadataIndexReader.ofRecords_holdsRecords KeyWrapper.uint32 (fun _ => rfl) _ _⟩,
      ⟨_, rfl, MetadataIndexReader.ofRecords_holdsRecords KeyWrapper.string (fun _ => rfl) _ _⟩⟩
    rfl ⟨fun _ => rfl, fun _ _ _ => ⟨none, rfl, (fun _ h => nomatch h), by simp⟩⟩
    ⟨⟨_, ⟨fun _ => rfl, _, rfl, fun o r => by rw [hl]; by_cases h : o = 0 <;> simp [h, eq_comm]⟩,
      fun o => by rw [hl]; by_cases h : o = 0 <;> simp [h]⟩, ⟨_, rfl⟩, ⟨_, rfl⟩⟩
    ?_
  simp only [Where.queries, Where.queriesAll, List.append_nil, List.singleton_append,
    List.mem_cons, List.mem_singleton, List.not_mem_nil, or_false]
  rintro q (rfl | rfl)
  · refine ⟨⟨by decide, fun o r w h hw => ?_⟩, trivial⟩
    obtain ⟨-, rfl⟩ := hrec o r h
    simp [AList.lookup, AList.singleton_entries] at hw
    exact ⟨5, hw.symm, by decide⟩
  · exact ⟨trivial, _, _, rfl, rfl, rfl⟩

end ChromaFilter
