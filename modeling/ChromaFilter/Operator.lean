import ChromaFilter.Eval

/-!
# The filter operator

`FilterOperator::run` opens the record segment, builds the log view of the materialized log,
and evaluates the where clause over the log view and over the compacted segment. Both masks are
narrowed by the user-id whitelist, and the segment's mask excludes every offset the log took
from the segment, so that the log's view of a record wins over the segment's.
-/
namespace ChromaFilter

/-- `FilterOperator`: the whitelist of user ids and the predicate on records. -/
structure FilterOperator where
  queryIds : Option (List String)
  whereClause : Option Where

/-- `FilterInput`, by what `run` makes of it: the two segment readers and the materialized log. -/
structure FilterInput (L : Type) where
  recordSegmentReader : Except RecordSegmentReaderCreationError RecordSegmentReader
  materializeLogs :
    Option RecordSegmentReader → Except LogMaterializerError (List MaterializedLogRecord)
  metadataSegmentReader : Except MetadataSegmentError (MetadataSegmentReader L)

/-- `FilterOutput`: the masks of offsets to keep in the log and in the segment. -/
structure FilterOutput where
  logOffsetIds : SignedRoaringBitmap
  compactOffsetIds : SignedRoaringBitmap
  deriving DecidableEq

/-- The record reader of `run`: `None` for an uninitialized segment. -/
def openRecordSegment :
    Except RecordSegmentReaderCreationError RecordSegmentReader → Outcome (Option RecordSegmentReader)
  | .ok reader => .ok (some reader)
  | .error .uninitializedSegment => .ok none
  | .error e => .err (.recordReader e)

/-- The `for user_id in user_allowed_ids` loop. -/
def compactOffsetIdsForUserIds (reader : RecordSegmentReader) :
    List String → RoaringBitmap → Outcome RoaringBitmap
  | [], offsetIds => .ok offsetIds
  | userId :: userIds, offsetIds =>
    match reader.getOffsetIdForUserId userId with
    | .ok (some offsetId) => compactOffsetIdsForUserIds reader userIds (insert offsetId offsetIds)
    | .ok none => compactOffsetIdsForUserIds reader userIds offsetIds
    | .error e => .err (.record e)

/-- `(user_allowed_log_offset_ids, user_allowed_compact_offset_ids)`. -/
def userAllowedOffsetIds (queryIds : Option (List String)) (metadataLogReader : MetadataLogReader)
    (recordSegmentReader : Option RecordSegmentReader) :
    Outcome (SignedRoaringBitmap × SignedRoaringBitmap) :=
  match queryIds with
  | some userAllowedIds => do
    let logOffsetIds := SignedRoaringBitmap.include (metadataLogReader.searchUserIds userAllowedIds)
    let compactOffsetIds ← match recordSegmentReader with
      | some reader => do
        let offsetIds ← compactOffsetIdsForUserIds reader userAllowedIds ∅
        pure (SignedRoaringBitmap.include offsetIds)
      | none => pure .full
    pure (logOffsetIds, compactOffsetIds)
  | none => .ok (.full, .full)

section Run

variable {L : Type} (tryFrom : String → Except ChromaRegexError (ChromaRegex L))

/-- One source's mask before the log's exclusion. -/
def whereOffsetIds (whereClause : Option Where) (provider : MetadataProvider L)
    (allowed : SignedRoaringBitmap) : Outcome SignedRoaringBitmap :=
  match whereClause with
  | some clause => do
    let offsetIds ← clause.eval tryFrom provider
    pure (offsetIds &&& allowed)
  | none => .ok allowed

/-- `FilterOperator::run`. -/
def FilterOperator.run (operator : FilterOperator) (input : FilterInput L) :
    Outcome FilterOutput := do
  let recordSegmentReader ← openRecordSegment input.recordSegmentReader
  let materializedLogs ← Outcome.lift .logMaterializer (input.materializeLogs recordSegmentReader)
  let metadataLogReader ← Outcome.lift .logMaterializer (MetadataLogReader.create materializedLogs)
  let metadataSegmentReader ← Outcome.lift .metadataReader input.metadataSegmentReader
  let userAllowed ← userAllowedOffsetIds operator.queryIds metadataLogReader recordSegmentReader
  let logOffsetIds ← whereOffsetIds tryFrom operator.whereClause (.log metadataLogReader)
    userAllowed.1
  let compactOffsetIds ← whereOffsetIds tryFrom operator.whereClause
    (.compactData metadataSegmentReader recordSegmentReader) userAllowed.2
  pure ⟨logOffsetIds, compactOffsetIds &&& .exclude metadataLogReader.updatedOffsetIds⟩

variable {tryFrom} {operator : FilterOperator} {input : FilterInput L} {out : FilterOutput}

/-- Everything a successful run did, step by step. -/
theorem FilterOperator.run_eq_ok (h : operator.run tryFrom input = .ok out) :
    ∃ rr logs reader msr allowed logIds compactIds,
      openRecordSegment input.recordSegmentReader = .ok rr ∧
      input.materializeLogs rr = .ok logs ∧ MetadataLogReader.create logs = .ok reader ∧
      input.metadataSegmentReader = .ok msr ∧
      userAllowedOffsetIds operator.queryIds reader rr = .ok allowed ∧
      whereOffsetIds tryFrom operator.whereClause (.log reader) allowed.1 = .ok logIds ∧
      whereOffsetIds tryFrom operator.whereClause (.compactData msr rr) allowed.2 = .ok compactIds ∧
      out = ⟨logIds, compactIds &&& .exclude reader.updatedOffsetIds⟩ := by
  simp only [FilterOperator.run, Outcome.bind_eq_ok] at h
  obtain ⟨rr, hrr, logs, hlogs, reader, hreader, msr, hmsr, allowed, hallowed, logIds, hlog,
    compactIds, hcompact, hout⟩ := h
  cases hl : input.materializeLogs rr <;> rw [hl] at hlogs <;> cases hlogs
  cases hc : MetadataLogReader.create logs <;> rw [hc] at hreader <;> cases hreader
  cases hm : input.metadataSegmentReader <;> rw [hm] at hmsr <;> cases hmsr
  exact ⟨rr, logs, reader, msr, allowed, logIds, compactIds, hrr, hl, hc, rfl, hallowed, hlog,
    hcompact, (Outcome.ok.inj hout).symm⟩

theorem whereOffsetIds_eq_ok {whereClause : Option Where} {provider : MetadataProvider L}
    {allowed offsetIds : SignedRoaringBitmap}
    (h : whereOffsetIds tryFrom whereClause provider allowed = .ok offsetIds) (o : UInt32) :
    o ∈ offsetIds ↔
      (∀ clause ∈ whereClause, ∃ s, clause.eval tryFrom provider = .ok s ∧ o ∈ s) ∧ o ∈ allowed := by
  cases whereClause with
  | none => cases h; simp
  | some clause =>
    obtain ⟨s, hs, ⟨⟩⟩ := Outcome.bind_eq_ok.mp h
    simp [hs]

theorem compactOffsetIdsForUserIds_eq_ok {reader : RecordSegmentReader} :
    ∀ {userIds : List String} {offsetIds result : RoaringBitmap},
      compactOffsetIdsForUserIds reader userIds offsetIds = .ok result → ∀ o,
        (o ∈ result ↔ o ∈ offsetIds ∨ ∃ u ∈ userIds, reader.getOffsetIdForUserId u = .ok (some o))
  | [], _, _, h, o => by cases h; simp
  | u :: userIds, offsetIds, result, h, o => by
    simp only [compactOffsetIdsForUserIds] at h
    cases hu : reader.getOffsetIdForUserId u with
    | error e => rw [hu] at h; cases h
    | ok a =>
      rw [hu] at h
      cases a with
      | none => simp [compactOffsetIdsForUserIds_eq_ok h o, hu]
      | some offsetId =>
        simp only [compactOffsetIdsForUserIds_eq_ok h o, Finset.mem_insert, List.mem_cons,
          exists_eq_or_imp, hu, Except.ok.injEq, Option.some.injEq]
        tauto

/-- What a successful run's whitelists admit on each side. -/
theorem userAllowedOffsetIds_eq_ok {queryIds : Option (List String)} {reader : MetadataLogReader}
    {rr : Option RecordSegmentReader} {allowed : SignedRoaringBitmap × SignedRoaringBitmap}
    (h : userAllowedOffsetIds queryIds reader rr = .ok allowed) (o : UInt32) :
    (o ∈ allowed.1 ↔ ∀ ids ∈ queryIds, o ∈ reader.searchUserIds ids) ∧
    (o ∈ allowed.2 ↔
      ∀ ids ∈ queryIds, ∀ r ∈ rr, ∃ u ∈ ids, r.getOffsetIdForUserId u = .ok (some o)) := by
  cases queryIds with
  | none => cases h; simp
  | some ids =>
    cases rr with
    | none => cases h; simp
    | some r =>
      obtain ⟨c, hc, ⟨⟩⟩ := Outcome.bind_eq_ok.mp h
      simp [compactOffsetIdsForUserIds_eq_ok hc o]

theorem MetadataLogReader.IsViewOf.mem_searchUserIds {reader : MetadataLogReader}
    {logs : List MaterializedLogRecord} (hv : reader.IsViewOf logs) (hd : DistinctEntries logs)
    {e : MaterializedLogRecord} (he : e ∈ logs) {hyd : HydratedMaterializedLogRecord}
    (hlive : e.live = some hyd) (ids : List String) :
    e.offsetId ∈ reader.searchUserIds ids ↔ hyd.userId ∈ ids := by
  simp only [MetadataLogReader.searchUserIds, List.mem_toFinset, List.mem_filterMap, hv.userIds]
  constructor
  · rintro ⟨u, hu, e', he', hoff, h', hlive', rfl⟩
    obtain rfl := List.inj_on_of_nodup_map hd.1 he' he hoff
    obtain rfl := Option.some.inj (hlive'.symm.trans hlive)
    exact hu
  · exact fun hu => ⟨_, hu, e, he, rfl, hyd, hlive, rfl⟩

end Run

/-- The log records the next operators keep: live entries the log mask admits. -/
def FilterOutput.logOffsets (out : FilterOutput) (logs : List MaterializedLogRecord) :
    Finset UInt32 :=
  ((logs.filter (·.operation ≠ .deleteExisting)).map (·.offsetId)).toFinset.filter
    (· ∈ out.logOffsetIds)

def FilterOutput.compactOffsets (out : FilterOutput) (segment : Finset UInt32) : Finset UInt32 :=
  segment.filter (· ∈ out.compactOffsetIds)

@[simp] theorem FilterOutput.mem_logOffsets {out : FilterOutput} {logs : List MaterializedLogRecord}
    {o : UInt32} :
    o ∈ out.logOffsets logs ↔
      (∃ e ∈ logs, e.offsetId = o ∧ e.operation ≠ .deleteExisting) ∧ o ∈ out.logOffsetIds := by
  simp only [FilterOutput.logOffsets, Finset.mem_filter, List.mem_toFinset, List.mem_map,
    List.mem_filter, decide_eq_true_eq]
  exact and_congr_left fun _ => exists_congr fun e => by tauto

@[simp] theorem FilterOutput.mem_compactOffsets {out : FilterOutput} {segment : Finset UInt32}
    {o : UInt32} : o ∈ out.compactOffsets segment ↔ o ∈ segment ∧ o ∈ out.compactOffsetIds :=
  Finset.mem_filter

/-- Where an error of a run comes from, by its kind: opening a segment (never
`UninitializedSegment`), materializing or hydrating the log, or a provider call. -/
def FilterInput.Raises {L : Type} (input : FilterInput L) : FilterError → Prop
  | .recordReader e => input.recordSegmentReader = .error e ∧ e ≠ .uninitializedSegment
  | .metadataReader e => input.metadataSegmentReader = .error e
  | .logMaterializer e => ∃ rr, openRecordSegment input.recordSegmentReader = .ok rr ∧
    (input.materializeLogs rr = .error e ∨
      ∃ logs, input.materializeLogs rr = .ok logs ∧ MetadataLogReader.create logs = .error e)
  | .index _ | .record _ | .regex _ => True

section Errors

open Outcome

variable {L : Type} (tryFrom : String → Except ChromaRegexError (ChromaRegex L))

theorem compactOffsetIdsForUserIds_errorsIn (reader : RecordSegmentReader) :
    ∀ (userIds : List String) (offsetIds : RoaringBitmap),
      ErrorsIn FilterError.RaisedByProvider (compactOffsetIdsForUserIds reader userIds offsetIds)
  | [], _ => errorsIn_ok
  | _ :: userIds, offsetIds => by
    simp only [compactOffsetIdsForUserIds]
    split
    · exact compactOffsetIdsForUserIds_errorsIn reader userIds _
    · exact compactOffsetIdsForUserIds_errorsIn reader userIds _
    · exact errorsIn_err.mpr trivial

theorem userAllowedOffsetIds_errorsIn (queryIds : Option (List String))
    (reader : MetadataLogReader) (rr : Option RecordSegmentReader) :
    ErrorsIn FilterError.RaisedByProvider (userAllowedOffsetIds queryIds reader rr) := by
  unfold userAllowedOffsetIds
  split
  · split
    · exact errorsIn_bind (compactOffsetIdsForUserIds_errorsIn _ _ _) fun _ _ =>
        errorsIn_bind errorsIn_pure fun _ _ => errorsIn_pure
    · exact errorsIn_bind errorsIn_pure fun _ _ => errorsIn_pure
  · exact errorsIn_ok

theorem whereOffsetIds_errorsIn (whereClause : Option Where) (provider : MetadataProvider L)
    (allowed : SignedRoaringBitmap) :
    ErrorsIn FilterError.RaisedByProvider (whereOffsetIds tryFrom whereClause provider allowed) := by
  cases whereClause with
  | none => exact errorsIn_ok
  | some clause =>
    exact errorsIn_bind (Where.eval_errorsIn tryFrom provider clause) fun _ _ => errorsIn_pure

theorem FilterOperator.run_errorsIn (operator : FilterOperator) (input : FilterInput L) :
    ErrorsIn input.Raises (operator.run tryFrom input) := by
  have hprov : ∀ e : FilterError, e.RaisedByProvider → input.Raises e := by
    rintro (_ | _ | _ | _ | _ | _) he <;> first | exact he.elim | trivial
  refine errorsIn_bind ?_ fun rr hrr => errorsIn_bind ?_ fun logs hlogs => errorsIn_bind ?_
    fun _ _ => errorsIn_bind ?_ fun _ _ =>
    errorsIn_bind ((userAllowedOffsetIds_errorsIn _ _ _).mono hprov) fun _ _ =>
    errorsIn_bind ((whereOffsetIds_errorsIn tryFrom _ _ _).mono hprov) fun _ _ =>
    errorsIn_bind ((whereOffsetIds_errorsIn tryFrom _ _ _).mono hprov) fun _ _ => errorsIn_pure
  · cases h : input.recordSegmentReader with
    | ok r => exact errorsIn_ok
    | error e =>
      cases e with
      | uninitializedSegment => exact errorsIn_ok
      | other m => exact errorsIn_err.mpr ⟨h, nofun⟩
  · exact errorsIn_lift fun _ he => ⟨rr, hrr, .inl he⟩
  · exact errorsIn_lift fun _ he => ⟨rr, hrr, .inr ⟨logs, lift_eq_ok.mp hlogs, he⟩⟩
  · exact errorsIn_lift fun _ he => he

/-- No run reaches an `unreachable!`, for every operator, input and behaviour of the
collaborators. -/
theorem FilterOperator.run_never_panics (operator : FilterOperator) (input : FilterInput L)
    (m : String) : operator.run tryFrom input ≠ .panic m :=
  (FilterOperator.run_errorsIn tryFrom operator input).ne_panic m

/-- Over any log view, evaluating a tree fails exactly when it holds an invalid regex leaf, and
then with a regex error; so a run whose where clause holds such a leaf never succeeds. -/
theorem Where.eval_log_fails_iff_invalid_regex (P : Where) :
    (∀ reader : MetadataLogReader,
      ((∃ e, P.eval tryFrom (.log reader) = .err e) ↔ P.hasInvalidRegex tryFrom = true) ∧
      (∀ e, P.eval tryFrom (.log reader) = .err e → ∃ re, e = .regex re) ∧
      (P.hasInvalidRegex tryFrom = false → ∃ s, P.eval tryFrom (.log reader) = .ok s)) ∧
    (P.hasInvalidRegex tryFrom = true →
      ∀ (queryIds : Option (List String)) (input : FilterInput L) (out : FilterOutput),
        (FilterOperator.mk queryIds (some P)).run tryFrom input ≠ .ok out) := by
  refine ⟨fun reader => ?_, fun hP queryIds input out hrun => ?_⟩
  · obtain ⟨hErr, hOk⟩ := Where.eval_log reader P
    cases hP : P.hasInvalidRegex tryFrom
    · obtain ⟨s, hs⟩ := hOk hP
      simp [hs]
    · obtain ⟨re, he⟩ := hErr hP
      simp [he]
  · obtain ⟨_, _, reader, _, _, _, _, -, -, -, -, -, hlog, -, -⟩ := FilterOperator.run_eq_ok hrun
    obtain ⟨re, he⟩ := (Where.eval_log reader P).1 hP
    simp [whereOffsetIds, he] at hlog

end Errors

section Sources

variable {L : Type} {tryFrom : String → Except ChromaRegexError (ChromaRegex L)}
  {operator : FilterOperator} {input : FilterInput L} {out : FilterOutput}
  {rr : Option RecordSegmentReader} {logs : List MaterializedLogRecord} {reader : MetadataLogReader}

/-- The log wins over the segment, but for `Initial` entries: no offset of another log entry is
read from the segment, no deleted offset is read from the log, and a live log record is read
exactly when it satisfies the where clause over the log view and its user id is whitelisted. -/
theorem FilterOperator.run_log_view_wins (input : FilterInput L)
    (hrun : operator.run tryFrom input = .ok out)
    (hopen : openRecordSegment input.recordSegmentReader = .ok rr)
    (hmat : input.materializeLogs rr = .ok logs) (hcreate : MetadataLogReader.create logs = .ok reader)
    (hd : MetadataLogReader.DistinctEntries logs) (segment : Finset UInt32)
    (hadd : ∀ e ∈ logs, e.operation = .addNew → e.offsetId ∉ segment) :
    (∀ e ∈ logs, e.operation ≠ .initial → e.offsetId ∉ out.compactOffsets segment) ∧
    (∀ e ∈ logs, e.operation = .deleteExisting → e.offsetId ∉ out.logOffsets logs) ∧
    (∀ e ∈ logs, ∀ hyd, e.operation ≠ .deleteExisting → e.hydrate = .ok hyd →
      (e.offsetId ∈ out.logOffsets logs ↔
        (∀ clause ∈ operator.whereClause,
          ∃ s, clause.eval tryFrom (.log reader) = .ok s ∧ e.offsetId ∈ s) ∧
        ∀ ids ∈ operator.queryIds, hyd.userId ∈ ids)) := by
  obtain ⟨rr', logs', reader', -, allowed, logIds, compactIds, hopen', hmat', hcreate', -, hallowed,
    hlog, -, rfl⟩ := FilterOperator.run_eq_ok hrun
  cases hopen.symm.trans hopen'
  cases hmat.symm.trans hmat'
  cases hcreate.symm.trans hcreate'
  have hv := MetadataLogReader.create_isViewOf logs hd hcreate
  refine ⟨fun e he hinit => ?_, fun e he hdel => ?_, fun e he hyd hdel hhyd => ?_⟩
  · simp only [FilterOutput.mem_compactOffsets, SignedRoaringBitmap.mem_bitand,
      SignedRoaringBitmap.mem_exclude, not_and, not_not]
    intro hseg _
    rcases eq_or_ne e.operation .addNew with hnew | hnew
    · exact absurd hseg (hadd e he hnew)
    · exact (hv.updated _).2 ⟨e, he, rfl, hinit, hnew⟩
  · rw [FilterOutput.mem_logOffsets]
    rintro ⟨⟨e', he', hoff, hdel'⟩, -⟩
    exact hdel' (List.inj_on_of_nodup_map hd.1 he' he hoff ▸ hdel)
  · have hlive : e.live = some hyd := MetadataLogReader.live_eq_some.2 ⟨hdel, hhyd⟩
    rw [FilterOutput.mem_logOffsets, and_iff_right ⟨e, he, rfl, hdel⟩, whereOffsetIds_eq_ok hlog,
      (userAllowedOffsetIds_eq_ok hallowed _).1]
    simp only [hv.mem_searchUserIds hd he hlive]

theorem FilterOperator.run_log_view_wins_two_entries :
    ∃ (logs : List MaterializedLogRecord) (operator : FilterOperator) (out : FilterOutput)
      (reader : MetadataLogReader),
      logs = [⟨.updateExisting, 1, .ok ⟨"a", AList.singleton "k" (.int 1), none⟩⟩,
        ⟨.addNew, 2, .ok ⟨"b", AList.singleton "k" (.int 1), none⟩⟩] ∧
      operator = ⟨some ["b"], some (.metadata ⟨"k", .primitive .equal (.int 1)⟩)⟩ ∧
      MetadataLogReader.DistinctEntries logs ∧
      operator.run (fun _ => .error ⟨"unused"⟩ : String → Except ChromaRegexError (ChromaRegex Unit))
        ⟨.ok ⟨fun u => .ok (if u = "a" then some 1 else none),
            fun o => .ok (if o = 1 then some ⟨"a", none⟩ else none), .ok [(1, ⟨"a", none⟩)],
            .ok [1], .ok 1⟩, fun _ => .ok logs, .ok ⟨none, none, none, none, none⟩⟩ = .ok out ∧
      MetadataLogReader.create logs = .ok reader ∧
      (∀ e ∈ logs, e.operation ≠ .initial → e.offsetId ∉ out.compactOffsets {1}) ∧
      (∀ e ∈ logs, e.operation = .deleteExisting → e.offsetId ∉ out.logOffsets logs) ∧
      (∀ e ∈ logs, ∀ hyd, e.operation ≠ .deleteExisting → e.hydrate = .ok hyd →
        (e.offsetId ∈ out.logOffsets logs ↔
          (∀ clause ∈ operator.whereClause,
            ∃ s, clause.eval (fun _ => .error ⟨"unused"⟩) (.log (L := Unit) reader) = .ok s ∧
              e.offsetId ∈ s) ∧
          ∀ ids ∈ operator.queryIds, hyd.userId ∈ ids)) := by
  have hd : MetadataLogReader.DistinctEntries
      [⟨.updateExisting, 1, .ok ⟨"a", AList.singleton "k" (.int 1), none⟩⟩,
        ⟨.addNew, 2, .ok ⟨"b", AList.singleton "k" (.int 1), none⟩⟩] :=
    ⟨by decide, by simp [MaterializedLogRecord.live, Except.toOption]⟩
  refine ⟨_, _, _, _, rfl, rfl, hd, rfl, rfl, ?_⟩
  exact FilterOperator.run_log_view_wins ⟨.ok ⟨fun u => .ok (if u = "a" then some 1 else none),
      fun o => .ok (if o = 1 then some ⟨"a", none⟩ else none), .ok [(1, ⟨"a", none⟩)], .ok [1],
      .ok 1⟩,
    fun _ => .ok [⟨.updateExisting, 1, .ok ⟨"a", AList.singleton "k" (.int 1), none⟩⟩,
      ⟨.addNew, 2, .ok ⟨"b", AList.singleton "k" (.int 1), none⟩⟩],
    .ok ⟨none, none, none, none, none⟩⟩ (by exact rfl) (by exact rfl) (by exact rfl) (by exact rfl)
    hd {1} (by decide)

/-- The offset of an `Initial` entry is not excluded from the segment's mask, so its record is
read from both sources. -/
theorem FilterOperator.run_initial_entry_read_twice :
    ∃ (logs : List MaterializedLogRecord) (out : FilterOutput),
      logs = [⟨.initial, 0, .ok ⟨"u", ∅, none⟩⟩] ∧ MetadataLogReader.DistinctEntries logs ∧
      (FilterOperator.mk none none).run
        (fun _ => .error ⟨"unused"⟩ : String → Except ChromaRegexError (ChromaRegex Unit))
        ⟨.ok ⟨fun u => .ok (if u = "u" then some 0 else none),
            fun o => .ok (if o = 0 then some ⟨"u", none⟩ else none), .ok [(0, ⟨"u", none⟩)],
            .ok [0], .ok 1⟩, fun _ => .ok logs, .ok ⟨none, none, none, none, none⟩⟩ = .ok out ∧
      0 ∈ out.logOffsets logs ∩ out.compactOffsets {0} :=
  ⟨_, _, rfl, ⟨by decide, by simp⟩, rfl, by decide⟩

end Sources

end ChromaFilter
