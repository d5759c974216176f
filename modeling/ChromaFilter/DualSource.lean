import ChromaFilter.Operator

/-!
# The dual-source filter over one collection

A run reads two sources, the segment's records and the log's entries over them. What it should
select is read off one collection, the merged records: the log's live record at every offset the
log holds, the segment's record elsewhere. Over one record a predicate tree has a plain meaning,
`Where.holds`, which compares values only within a variant.

This module gives each side of a run by that meaning: the log side
(`FilterOperator.mem_logOffsets_of_run`), the segment side given the segment's evaluation
(`FilterOperator.mem_compactOffsets_of_run`), and the selection over the merged collection
(`mem_merged_select`).
-/
namespace ChromaFilter

/-- Whether a record's value under `key` has `v`'s variant and compares to `v` by `op`. -/
def HydratedMaterializedLogRecord.compares (r : HydratedMaterializedLogRecord) (key : String)
    (op : PrimitiveOperator) (v : MetadataValue) : Bool :=
  (r.mergedMetadata.lookup key).any fun w => w.sameVariant v && op.holds MetadataValue.lt w v

theorem sameVariant_and_equal (w v : MetadataValue) :
    (w.sameVariant v && PrimitiveOperator.equal.holds MetadataValue.lt w v) = decide (w = v) := by
  by_cases h : w = v <;> simp [h, PrimitiveOperator.holds, MetadataValue.sameVariant]

mutual

/-- What a predicate tree says of one record; `isMatch p d` tells whether the regular
expression `p` matches the document `d`. -/
def Where.holds (isMatch : String → String → Bool) (r : HydratedMaterializedLogRecord) :
    Where → Bool
  | .metadata ⟨key, .primitive .notEqual v⟩ => !r.compares key .equal v
  | .metadata ⟨key, .primitive op v⟩ => r.compares key op v
  | .metadata ⟨key, .set .in vs⟩ => (r.mergedMetadata.lookup key).any vs.has
  | .metadata ⟨key, .set .notIn vs⟩ => !(r.mergedMetadata.lookup key).any vs.has
  | .document ⟨.contains, p⟩ => r.mergedDocument.any (strContains · p)
  | .document ⟨.notContains, p⟩ => !r.mergedDocument.any (strContains · p)
  | .document ⟨.regex, p⟩ => r.mergedDocument.any (isMatch p)
  | .document ⟨.notRegex, p⟩ => !r.mergedDocument.any (isMatch p)
  | .composite .and children => Where.holdsAll isMatch r children
  | .composite .or children => Where.holdsAny isMatch r children

def Where.holdsAll (isMatch : String → String → Bool) (r : HydratedMaterializedLogRecord) :
    List Where → Bool
  | [] => true
  | child :: children => child.holds isMatch r && Where.holdsAll isMatch r children

def Where.holdsAny (isMatch : String → String → Bool) (r : HydratedMaterializedLogRecord) :
    List Where → Bool
  | [] => false
  | child :: children => child.holds isMatch r || Where.holdsAny isMatch r children

end

/-- Whether the operator selects a record: the where clause holds and the user id is
whitelisted. -/
def FilterOperator.selects (operator : FilterOperator) (isMatch : String → String → Bool)
    (r : HydratedMaterializedLogRecord) : Bool :=
  operator.whereClause.all (·.holds isMatch r) && operator.queryIds.all (r.userId ∈ ·)

/-- A collection of records by offset, with the finite set of offsets that hold one. -/
structure Records where
  record : UInt32 → Option HydratedMaterializedLogRecord
  offsets : Finset UInt32
  mem_offsets : ∀ o, o ∈ offsets ↔ (record o).isSome

namespace Records

variable {rs : Records} {o : UInt32} {r : HydratedMaterializedLogRecord}

def select (rs : Records) (p : HydratedMaterializedLogRecord → Bool) : Finset UInt32 :=
  rs.offsets.filter fun o => (rs.record o).any p

@[simp] theorem mem_select {p : HydratedMaterializedLogRecord → Bool} :
    o ∈ rs.select p ↔ ∃ r, rs.record o = some r ∧ p r = true := by
  simp only [select, Finset.mem_filter, rs.mem_offsets]
  cases rs.record o <;> simp

theorem select_congr {p p' : HydratedMaterializedLogRecord → Bool}
    (h : ∀ o r, rs.record o = some r → p r = p' r) : rs.select p = rs.select p' := by
  ext o
  simp only [mem_select]
  exact exists_congr fun r => and_congr_right fun hr => by rw [h o r hr]

/-- Every value the records hold under `key` satisfies `p`. -/
def ValuesUnder (rs : Records) (key : String) (p : MetadataValue → Prop) : Prop :=
  ∀ o r w, rs.record o = some r → r.mergedMetadata.lookup key = some w → p w

/-- The answers of a provider that reads the records exactly. -/
def answers (rs : Records) (isMatch : String → String → Bool) : ProviderAnswers where
  metadata key v op := rs.select (·.compares key op v)
  contains q := rs.select fun r => r.mergedDocument.any (strContains · q)
  regex p := rs.select fun r => r.mergedDocument.any (isMatch p)

variable {isMatch : String → String → Bool}

theorem compares_equal {key : String} {v : MetadataValue} :
    r.compares key .equal v = true ↔ r.mergedMetadata.lookup key = some v := by
  unfold HydratedMaterializedLogRecord.compares
  cases r.mergedMetadata.lookup key <;> simp [sameVariant_and_equal]

mutual

/-- Over answers read off records, a tree selects a record's offset exactly when it holds of
the record. -/
theorem sem_answers (h : rs.record o = some r) :
    ∀ P : Where, P.sem (rs.answers isMatch) o ↔ P.holds isMatch r = true
  | .metadata ⟨_, .primitive op _⟩ => by cases op <;> simp [Where.sem, Where.holds, answers, h]
  | .metadata ⟨key, .set op _⟩ => by
    cases hw : r.mergedMetadata.lookup key <;> cases op <;>
      simp [Where.sem, Where.holds, answers, h, compares_equal, hw, imp_not_comm]
  | .document ⟨op, _⟩ => by cases op <;> simp [Where.sem, Where.holds, answers, h]
  | .composite op children => by
    cases op <;> simp [Where.sem, Where.holds, semAll_answers h children,
      semAny_answers h children]

theorem semAll_answers (h : rs.record o = some r) :
    ∀ children : List Where,
      Where.semAll (rs.answers isMatch) children o ↔ Where.holdsAll isMatch r children = true
  | [] => by simp [Where.semAll, Where.holdsAll]
  | child :: children => by
    simp [Where.semAll, Where.holdsAll, sem_answers h child, semAll_answers h children]

theorem semAny_answers (h : rs.record o = some r) :
    ∀ children : List Where,
      Where.semAny (rs.answers isMatch) children o ↔ Where.holdsAny isMatch r children = true
  | [] => by simp [Where.semAny, Where.holdsAny]
  | child :: children => by
    simp [Where.semAny, Where.holdsAny, sem_answers h child, semAny_answers h children]

end

end Records

/-- The regex library reads a call's pattern as `isMatch` reads it. -/
def Query.Parses {L : Type} (tryFrom : String → Except ChromaRegexError (ChromaRegex L))
    (isMatch : String → String → Bool) : Query → Prop
  | .regex p => ∃ cr rx, tryFrom p = .ok cr ∧ cr.regex = .ok rx ∧ rx.isMatch = isMatch p
  | .metadata .. | .contains _ => True

/-- A range comparison meets, in `rs`, only values of its own variant. -/
def Query.Typed (rs : Records) : Query → Prop
  | .metadata key v op => op = .equal ∨ rs.ValuesUnder key fun w => w.sameVariant v = true
  | .contains _ | .regex _ => True

/-- On the records a typed comparison meets, comparing within a variant is comparing in the
tagged-value order. -/
theorem Records.compares_of_typed {rs : Records} {key : String} {v : MetadataValue}
    {op : PrimitiveOperator} (hty : (Query.metadata key v op).Typed rs) {o : UInt32}
    {r : HydratedMaterializedLogRecord} (hr : rs.record o = some r) :
    r.compares key op v = (r.mergedMetadata.lookup key).any (op.holds MetadataValue.lt · v) := by
  unfold HydratedMaterializedLogRecord.compares
  cases hw : r.mergedMetadata.lookup key with
  | none => rfl
  | some w =>
    rcases hty with rfl | hvals
    · exact sameVariant_and_equal w v
    · simp [hvals o r w hr hw]

/-- The log's entry at an offset: the first, the only one when offsets are distinct. -/
def entryAt (logs : List MaterializedLogRecord) (o : UInt32) : Option MaterializedLogRecord :=
  logs.find? (·.offsetId = o)

section EntryAt

variable {logs : List MaterializedLogRecord} {o : UInt32} {e : MaterializedLogRecord}

theorem mem_of_entryAt (h : entryAt logs o = some e) : e ∈ logs ∧ e.offsetId = o :=
  ⟨List.mem_of_find?_eq_some h, by simpa using List.find?_some h⟩

theorem entryAt_eq_none : entryAt logs o = none ↔ ∀ e ∈ logs, e.offsetId ≠ o := by
  simp [entryAt, List.find?_eq_none]

theorem entryAt_eq_some (hd : MetadataLogReader.DistinctEntries logs) :
    entryAt logs o = some e ↔ e ∈ logs ∧ e.offsetId = o := by
  refine ⟨mem_of_entryAt, fun ⟨he, hoff⟩ => ?_⟩
  cases h : entryAt logs o with
  | none => exact absurd hoff (entryAt_eq_none.mp h e he)
  | some e' =>
    obtain ⟨he', hoff'⟩ := mem_of_entryAt h
    rw [List.inj_on_of_nodup_map hd.1 he' he (hoff'.trans hoff.symm)]

end EntryAt

def logRecords (logs : List MaterializedLogRecord) : Records where
  record o := (entryAt logs o).bind (·.live)
  offsets := (logs.map (·.offsetId)).toFinset.filter fun o => ((entryAt logs o).bind (·.live)).isSome
  mem_offsets o := by
    simp only [Finset.mem_filter, List.mem_toFinset, List.mem_map, and_iff_right_iff_imp]
    intro h
    cases he : entryAt logs o with
    | none => simp [he] at h
    | some e => exact ⟨e, mem_of_entryAt he⟩

/-- The record of the merged collection at an offset: the log's, live or deleted, at an offset
the log holds; the segment's at any other. -/
def mergedRecord (logs : List MaterializedLogRecord) (segment : Records) (o : UInt32) :
    Option HydratedMaterializedLogRecord :=
  match entryAt logs o with
  | some e => e.live
  | none => segment.record o

/-- The collection the filter reads: the log's entries over the segment's records. -/
def merged (logs : List MaterializedLogRecord) (segment : Records) : Records where
  record := mergedRecord logs segment
  offsets := ((logs.map (·.offsetId)).toFinset ∪ segment.offsets).filter
    fun o => (mergedRecord logs segment o).isSome
  mem_offsets o := by
    simp only [Finset.mem_filter, Finset.mem_union, List.mem_toFinset, List.mem_map,
      and_iff_right_iff_imp, mergedRecord]
    cases he : entryAt logs o with
    | some e => exact fun _ => .inl ⟨e, mem_of_entryAt he⟩
    | none => exact fun h => .inr ((segment.mem_offsets o).mpr h)

variable {logs : List MaterializedLogRecord} {o : UInt32} {e : MaterializedLogRecord}

theorem logRecords_record_eq_some (hd : MetadataLogReader.DistinctEntries logs)
    {r : HydratedMaterializedLogRecord} :
    (logRecords logs).record o = some r ↔ ∃ e ∈ logs, e.offsetId = o ∧ e.live = some r := by
  simp only [logRecords, Option.bind_eq_some, entryAt_eq_some hd, and_assoc]

theorem mergedRecord_eq_some (hd : MetadataLogReader.DistinctEntries logs) {segment : Records}
    {r : HydratedMaterializedLogRecord} :
    mergedRecord logs segment o = some r ↔
      (∃ e ∈ logs, e.offsetId = o ∧ e.live = some r) ∨
        ((∀ e ∈ logs, e.offsetId ≠ o) ∧ segment.record o = some r) := by
  unfold mergedRecord
  cases hat : entryAt logs o with
  | some e =>
    obtain ⟨he, rfl⟩ := mem_of_entryAt hat
    constructor
    · exact fun h => .inl ⟨e, he, rfl, h⟩
    · rintro (⟨e', he', hoff, h⟩ | ⟨hno, -⟩)
      · rwa [List.inj_on_of_nodup_map hd.1 he' he hoff] at h
      · exact absurd rfl (hno e he)
  | none =>
    have hno := entryAt_eq_none.mp hat
    constructor
    · exact fun h => .inr ⟨hno, h⟩
    · rintro (⟨e, he, rfl, -⟩ | ⟨-, h⟩)
      · exact absurd rfl (hno e he)
      · exact h

theorem mem_logRecords_select (hd : MetadataLogReader.DistinctEntries logs)
    {p : HydratedMaterializedLogRecord → Bool} :
    o ∈ (logRecords logs).select p ↔
      ∃ e ∈ logs, e.offsetId = o ∧ ∃ hyd, e.live = some hyd ∧ p hyd = true := by
  simp only [Records.mem_select, logRecords_record_eq_some hd]
  constructor
  · rintro ⟨r, ⟨e, he, rfl, hl⟩, hp⟩
    exact ⟨e, he, rfl, r, hl, hp⟩
  · rintro ⟨e, he, rfl, r, hl, hp⟩
    exact ⟨r, ⟨e, he, rfl, hl⟩, hp⟩

section LogAnswers

variable {L : Type} {tryFrom : String → Except ChromaRegexError (ChromaRegex L)}
  {isMatch : String → String → Bool} {reader : MetadataLogReader}

/-- Over the log view of entries with distinct offsets, the log provider answers by the live
records each call that meets only values of its variant and whose pattern parses. -/
theorem MetadataLogReader.IsViewOf.answered (hv : reader.IsViewOf logs)
    (hd : MetadataLogReader.DistinctEntries logs) :
    ∀ {q : Query}, (∀ key v, q ≠ .metadata key v .notEqual) → q.Typed (logRecords logs) →
      q.Parses tryFrom isMatch → q.Answered tryFrom (.log reader) ((logRecords logs).answers isMatch)
  | .metadata key v op, hop, hty, _ => by
    obtain ⟨s, hs, hmem⟩ := hv.filterByMetadata_log (L := L) key v fun h => hop key v (h ▸ rfl)
    simp only [Query.Answered, Records.answers,
      Records.select_congr fun _ _ hr => Records.compares_of_typed hty hr]
    refine hs.trans (congrArg _ (Finset.ext fun o => ?_))
    simp only [hmem, mem_logRecords_select hd, any_eq_true_iff]
  | .contains q, _, _, _ => congrArg _ <| Finset.ext fun o => by
    simp only [Records.answers, mem_logRecords_select hd, any_eq_true_iff]
    exact hv.mem_document_filterMap (strContains · q) o
  | .regex p, _, _, ⟨cr, rx, hp, hr, hm⟩ => by
    simp only [Query.Answered, MetadataProvider.filterByDocumentRegex, hp, hr, Outcome.lift_ok,
      Outcome.ok_bind, Outcome.pure_eq]
    refine congrArg _ (Finset.ext fun o => ?_)
    simp only [hv.mem_document_filterMap, Records.answers, mem_logRecords_select hd,
      any_eq_true_iff, hm]

end LogAnswers

@[simp] theorem FilterOperator.selects_eq_true {operator : FilterOperator}
    {isMatch : String → String → Bool} {r : HydratedMaterializedLogRecord} :
    operator.selects isMatch r = true ↔
      operator.whereClause.all (·.holds isMatch r) = true ∧
        ∀ ids ∈ operator.queryIds, r.userId ∈ ids := by
  unfold FilterOperator.selects
  cases operator.queryIds <;> simp

section Refinement

variable {L : Type} {tryFrom : String → Except ChromaRegexError (ChromaRegex L)}
  {isMatch : String → String → Bool} {operator : FilterOperator} {input : FilterInput L}
  {out : FilterOutput} {rr : Option RecordSegmentReader} {msr : MetadataSegmentReader L}

/-- Over a provider that answers a tree's calls by the records, the tree's evaluation selects
exactly the offsets of the records it holds of. -/
theorem Records.eval_holds {provider : MetadataProvider L} {rs : Records} (P : Where)
    (ha : ∀ q ∈ P.queries, q.Answered tryFrom provider (rs.answers isMatch)) :
    ∃ s, P.eval tryFrom provider = .ok s ∧
      ∀ o r, rs.record o = some r → (o ∈ s ↔ P.holds isMatch r = true) := by
  obtain ⟨s, hs, hmem⟩ := Where.eval_sem P ha
  exact ⟨s, hs, fun o r hrec => (hmem o).trans (Records.sem_answers hrec P)⟩

/-- When every clause's evaluation selects an offset exactly when the clause holds of a record,
the where clause does so. -/
theorem whereClause_iff_holds {provider : MetadataProvider L} {r : HydratedMaterializedLogRecord}
    {whereClause : Option Where}
    (h : ∀ clause ∈ whereClause,
      ∃ s, clause.eval tryFrom provider = .ok s ∧ (o ∈ s ↔ clause.holds isMatch r = true)) :
    (∀ clause ∈ whereClause, ∃ s, clause.eval tryFrom provider = .ok s ∧ o ∈ s) ↔
      whereClause.all (·.holds isMatch r) = true := by
  cases whereClause with
  | none => simp
  | some clause =>
    obtain ⟨s, hs, hmem⟩ := h clause rfl
    simp [hs, hmem]

theorem mem_merged_select (hd : MetadataLogReader.DistinctEntries logs) {segment : Records}
    {p : HydratedMaterializedLogRecord → Bool} :
    o ∈ (merged logs segment).select p ↔
      (∃ e ∈ logs, e.offsetId = o ∧ ∃ hyd, e.live = some hyd ∧ p hyd = true) ∨
        ((∀ e ∈ logs, e.offsetId ≠ o) ∧ ∃ r, segment.record o = some r ∧ p r = true) := by
  rw [Records.mem_select]
  show (∃ r, mergedRecord logs segment o = some r ∧ _) ↔ _
  simp only [mergedRecord_eq_some hd]
  constructor
  · rintro ⟨r, ⟨e, he, rfl, hl⟩ | ⟨hno, hr⟩, hs⟩
    · exact .inl ⟨e, he, rfl, r, hl, hs⟩
    · exact .inr ⟨hno, r, hr, hs⟩
  · rintro (⟨e, he, rfl, hyd, hl, hs⟩ | ⟨hno, r, hr, hs⟩)
    · exact ⟨hyd, .inl ⟨e, he, rfl, hl⟩, hs⟩
    · exact ⟨r, .inr ⟨hno, hr⟩, hs⟩

/-- The log side of a run: when the log's offsets and user ids are distinct, and each call of
the where clause meets only values of its variant and has a pattern that parses, the run keeps a
log offset exactly when the log's live record there is selected. -/
theorem FilterOperator.mem_logOffsets_of_run (hrun : operator.run tryFrom input = .ok out)
    (hopen : openRecordSegment input.recordSegmentReader = .ok rr)
    (hmat : input.materializeLogs rr = .ok logs) (hd : MetadataLogReader.DistinctEntries logs)
    (hlog : ∀ clause ∈ operator.whereClause, ∀ q ∈ clause.queries,
      q.Typed (logRecords logs) ∧ q.Parses tryFrom isMatch)
    (o : UInt32) :
    o ∈ out.logOffsets logs ↔ ∃ e ∈ logs, e.offsetId = o ∧
      ∃ hyd, e.live = some hyd ∧ operator.selects isMatch hyd = true := by
  obtain ⟨rr', logs', reader, _, allowed, logIds, _, hopen', hmat', hcreate, _, hallowed, hwhere, _,
    hout⟩ := FilterOperator.run_eq_ok hrun
  cases hopen.symm.trans hopen'
  cases hmat.symm.trans hmat'
  have hv := MetadataLogReader.create_isViewOf logs hd hcreate
  -- a live log record is kept by the log mask exactly when the operator selects it
  have hsel : ∀ e ∈ logs, ∀ hyd, e.live = some hyd →
      (e.offsetId ∈ logIds ↔ operator.selects isMatch hyd = true) := fun e he hyd hlive => by
    rw [whereOffsetIds_eq_ok hwhere, whereClause_iff_holds fun clause hc =>
      (Records.eval_holds clause fun q hq => hv.answered hd
        (fun key v h => clause.notEqual_not_mem_queries key v (h ▸ hq)) (hlog clause hc q hq).1
        (hlog clause hc q hq).2).imp fun s ⟨hs, hmem⟩ =>
          ⟨hs, hmem _ _ ((logRecords_record_eq_some hd).2 ⟨e, he, rfl, hlive⟩)⟩,
      (userAllowedOffsetIds_eq_ok hallowed _).1, FilterOperator.selects_eq_true]
    simp only [hv.mem_searchUserIds hd he hlive]
  rw [FilterOutput.mem_logOffsets, hout]
  constructor
  · rintro ⟨⟨e, he, rfl, hdel⟩, ho⟩
    obtain ⟨hyd, hlive⟩ := MetadataLogReader.foldlM_createStep_live hcreate e he hdel
    exact ⟨e, he, rfl, hyd, hlive, (hsel e he hyd hlive).mp ho⟩
  · rintro ⟨e, he, rfl, hyd, hlive, hs⟩
    exact ⟨⟨e, he, rfl, (MetadataLogReader.live_eq_some.mp hlive).1⟩,
      (hsel e he hyd hlive).mpr hs⟩

/-- The segment side of a run: when the segment evaluates the where clause by its meaning on
the records of `segment`, its reader finds each record by user id, and the log holds no
`Initial` entry and adds no offset of the segment, the run keeps a segment offset exactly when
the log holds no entry there and the segment's record there is selected. -/
theorem FilterOperator.mem_compactOffsets_of_run (segment : Records)
    (hrun : operator.run tryFrom input = .ok out)
    (hopen : openRecordSegment input.recordSegmentReader = .ok rr)
    (hmat : input.materializeLogs rr = .ok logs)
    (hmsr : input.metadataSegmentReader = .ok msr)
    (hd : MetadataLogReader.DistinctEntries logs)
    (hinit : ∀ e ∈ logs, e.operation ≠ .initial)
    (hadd : ∀ e ∈ logs, e.operation = .addNew → e.offsetId ∉ segment.offsets)
    (hseg : ∀ clause ∈ operator.whereClause, ∃ s,
      clause.eval tryFrom (.compactData msr rr) = .ok s ∧
        ∀ o r, segment.record o = some r → (o ∈ s ↔ clause.holds isMatch r = true))
    (hids : ∀ recReader ∈ rr, ∀ u o, recReader.getOffsetIdForUserId u = .ok (some o) ↔
      ∃ r, segment.record o = some r ∧ r.userId = u)
    (hnone : rr = none → segment.offsets = ∅) (o : UInt32) :
    o ∈ out.compactOffsets segment.offsets ↔ (∀ e ∈ logs, e.offsetId ≠ o) ∧
      ∃ r, segment.record o = some r ∧ operator.selects isMatch r = true := by
  obtain ⟨rr', logs', reader, msr', allowed, _, compactIds, hopen', hmat', hcreate, hmsr',
    hallowed, _, hcompact, hout⟩ := FilterOperator.run_eq_ok hrun
  cases hopen.symm.trans hopen'
  cases hmat.symm.trans hmat'
  cases hmsr.symm.trans hmsr'
  have hv := MetadataLogReader.create_isViewOf logs hd hcreate
  -- a segment record is kept by the compact mask, before the log's exclusion, exactly when the
  -- operator selects it
  have hsel : ∀ o r, segment.record o = some r →
      (o ∈ compactIds ↔ operator.selects isMatch r = true) := fun o r hrec => by
    rw [whereOffsetIds_eq_ok hcompact, whereClause_iff_holds fun clause hc =>
      (hseg clause hc).imp fun s ⟨hs, hmem⟩ => ⟨hs, hmem o r hrec⟩,
      (userAllowedOffsetIds_eq_ok hallowed o).2, FilterOperator.selects_eq_true]
    cases rr with
    | none => exact absurd ((segment.mem_offsets o).2 (by simp [hrec])) (by simp [hnone rfl])
    | some recReader => simp [hids recReader rfl, hrec]
  simp only [hout, FilterOutput.mem_compactOffsets, SignedRoaringBitmap.mem_bitand,
    SignedRoaringBitmap.mem_exclude, hv.updated, segment.mem_offsets, Option.isSome_iff_exists]
  constructor
  · rintro ⟨⟨r, hrec⟩, ho, hnot⟩
    refine ⟨fun e he hoff => ?_, r, hrec, (hsel o r hrec).mp ho⟩
    rcases eq_or_ne e.operation .addNew with hnew | hnew
    · exact hadd e he hnew ((segment.mem_offsets _).2 (by simp [hoff, hrec]))
    · exact hnot ⟨e, he, hoff, hinit e he, hnew⟩
  · rintro ⟨hno, r, hrec, hs⟩
    exact ⟨⟨r, hrec⟩, (hsel o r hrec).mpr hs, fun ⟨e, he, hoff, _⟩ => hno e he hoff⟩

end Refinement

end ChromaFilter
