import ChromaFilter.Collaborators

/-!
# The log view

`MetadataLogReader::create` lays the materialized log out like the metadata segment in one
pass over its entries: the offsets the log takes from the segment, a user id to offset map,
an offset to document map, and for each key a `BTreeMap` from value to offsets. `get`
answers a comparison by the union of a range of that `BTreeMap`.

`IsViewOf reader logs` states what the four structures hold after the entries `logs`; one
step of the loop keeps it (`createStep_isViewOf`), so the whole pass does (`create_isViewOf`).
The pass fails exactly at the first entry it keeps whose hydration fails (`create_eq_error`).
-/
namespace ChromaFilter

/-- `std::ops::Bound`. -/
inductive Bound (α : Type) where
  | included (a : α)
  | excluded (a : α)
  | unbounded

namespace Bound

/-- Whether a key lies at or after a start bound of `BTreeMap::range`. -/
def admitsFrom : Bound MetadataValue → MetadataValue → Bool
  | included v, w => !w.lt v
  | excluded v, w => v.lt w
  | unbounded, _ => true

/-- Whether a key lies at or before an end bound of `BTreeMap::range`. -/
def admitsUpTo : Bound MetadataValue → MetadataValue → Bool
  | included v, w => !v.lt w
  | excluded v, w => w.lt v
  | unbounded, _ => true

end Bound

/-- `BTreeMap::range`: the entries whose key lies within the bounds. -/
def BTreeMap.range (m : BTreeMap MetadataValue RoaringBitmap)
    (bounds : Bound MetadataValue × Bound MetadataValue) :
    List (Σ _ : MetadataValue, RoaringBitmap) :=
  m.entries.filter fun e => bounds.1.admitsFrom e.1 && bounds.2.admitsUpTo e.1

/-- `MetadataLogReader`: the materialized log laid out like the metadata segment. -/
structure MetadataLogReader where
  compactMetadata : HashMap String (BTreeMap MetadataValue RoaringBitmap)
  document : HashMap UInt32 String
  updatedOffsetIds : RoaringBitmap
  userIdToOffsetId : HashMap String UInt32

/-- Whether `create` records the entry's offset as taken from the segment:
`!matches!(op, Initial | AddNew)`. -/
def MaterializedLogRecord.updatesExisting (e : MaterializedLogRecord) : Prop :=
  e.operation ≠ .initial ∧ e.operation ≠ .addNew

instance (e : MaterializedLogRecord) : Decidable e.updatesExisting :=
  inferInstanceAs (Decidable (_ ∧ _))

/-- The hydrated record of an entry the log keeps: any operation but `DeleteExisting`. -/
def MaterializedLogRecord.live (e : MaterializedLogRecord) :
    Option HydratedMaterializedLogRecord :=
  if e.operation = .deleteExisting then none else e.hydrate.toOption

theorem exists_split_cons {α : Type} (P Q : α → Prop) (x : α) (xs : List α) :
    (∃ pre y post, x :: xs = pre ++ y :: post ∧ (∀ z ∈ pre, P z) ∧ Q y) ↔
      Q x ∨ P x ∧ ∃ pre y post, xs = pre ++ y :: post ∧ (∀ z ∈ pre, P z) ∧ Q y := by
  constructor
  · rintro ⟨_ | ⟨z, pre⟩, y, post, h, hp, hq⟩
    · obtain ⟨rfl, -⟩ := List.cons.inj h
      exact .inl hq
    · obtain ⟨rfl, rfl⟩ := List.cons.inj h
      exact .inr ⟨hp x (List.mem_cons_self _ _), pre, y, post, rfl,
        fun z hz => hp z (List.mem_cons_of_mem _ hz), hq⟩
  · rintro (hq | ⟨hp, pre, y, post, rfl, hps, hq⟩)
    · exact ⟨[], x, xs, rfl, by simp, hq⟩
    · exact ⟨x :: pre, y, post, rfl, by simpa [hp] using hps, hq⟩

namespace MetadataLogReader

/-- `compact_metadata.entry(key).or_default().entry(val).or_default().insert(offset)`. -/
def insertMetadata (cm : HashMap String (BTreeMap MetadataValue RoaringBitmap))
    (key : String) (val : MetadataValue) (offset : UInt32) :
    HashMap String (BTreeMap MetadataValue RoaringBitmap) :=
  let m := (cm.lookup key).getD ∅
  cm.insert key (m.insert val (insert offset ((m.lookup val).getD ∅)))

/-- What `create` records for an entry that is not deleted, once hydrated. -/
def addHydrated (reader : MetadataLogReader) (offsetId : UInt32)
    (log : HydratedMaterializedLogRecord) : MetadataLogReader :=
  { reader with
    compactMetadata := log.mergedMetadata.entries.foldl
      (fun cm e => insertMetadata cm e.1 e.2 offsetId) reader.compactMetadata
    document := match log.mergedDocument with
      | some doc => reader.document.insert offsetId doc
      | none => reader.document
    userIdToOffsetId := reader.userIdToOffsetId.insert log.userId offsetId }

/-- `updated_offset_ids.insert(offset)`, for an entry whose offset the log takes from the
segment. -/
def recordUpdated (reader : MetadataLogReader) (log : MaterializedLogRecord) :
    MetadataLogReader :=
  if log.updatesExisting then
    { reader with updatedOffsetIds := insert log.offsetId reader.updatedOffsetIds }
  else reader

/-- One iteration of the loop of `create`. -/
def createStep (reader : MetadataLogReader) (log : MaterializedLogRecord) :
    Except LogMaterializerError MetadataLogReader :=
  let reader := recordUpdated reader log
  if log.operation = .deleteExisting then .ok reader
  else do
    let hydrated ← log.hydrate
    pure (addHydrated reader log.offsetId hydrated)

/-- The reader before any entry. -/
def new : MetadataLogReader := ⟨∅, ∅, ∅, ∅⟩

/-- `MetadataLogReader::create`. -/
def create (logs : List MaterializedLogRecord) : Except LogMaterializerError MetadataLogReader :=
  logs.foldlM createStep new

/-- The range of `get` for each operator; `none` is the `unreachable!` arm of `NotEqual`. -/
def rangeBounds (val : MetadataValue) :
    PrimitiveOperator → Option (Bound MetadataValue × Bound MetadataValue)
  | .equal => some (.included val, .included val)
  | .greaterThan => some (.excluded val, .unbounded)
  | .greaterThanOrEqual => some (.included val, .unbounded)
  | .lessThan => some (.unbounded, .excluded val)
  | .lessThanOrEqual => some (.unbounded, .included val)
  | .notEqual => none

/-- The message of the `unreachable!` on `NotEqual`. -/
def inequalityUnreachable : String :=
  "Inequality filter should be handled above the metadata provider level"

/-- `MetadataLogReader::get`. -/
def get (reader : MetadataLogReader) (key : String) (val : MetadataValue)
    (op : PrimitiveOperator) : Outcome RoaringBitmap :=
  match reader.compactMetadata.lookup key with
  | some metadataValueToOffsetIds =>
    match rangeBounds val op with
    | some bounds =>
      .ok ((metadataValueToOffsetIds.range bounds).foldl (fun acc e => acc ∪ e.2) ∅)
    | none => .panic inequalityUnreachable
  | none => .ok ∅

/-- `MetadataLogReader::search_user_ids`. -/
def searchUserIds (reader : MetadataLogReader) (userIds : List String) : RoaringBitmap :=
  (userIds.filterMap reader.userIdToOffsetId.lookup).toFinset

def bitmapAt (cm : HashMap String (BTreeMap MetadataValue RoaringBitmap)) (key : String)
    (val : MetadataValue) : Option RoaringBitmap :=
  (cm.lookup key).bind (AList.lookup val)

/-- The offsets `compact_metadata[key][val]`, none when either lookup misses. -/
def offsets (reader : MetadataLogReader) (key : String) (val : MetadataValue) : RoaringBitmap :=
  (bitmapAt reader.compactMetadata key val).getD ∅

/-- No key holds an empty `BTreeMap` and no value an empty bitmap. -/
def NoEmptyEntries (cm : HashMap String (BTreeMap MetadataValue RoaringBitmap)) : Prop :=
  ∀ key m, cm.lookup key = some m → m.entries ≠ [] ∧ ∀ val b, m.lookup val = some b → b.Nonempty

variable {reader reader' : MetadataLogReader} {log : MaterializedLogRecord}
  {cm : HashMap String (BTreeMap MetadataValue RoaringBitmap)}

@[simp] theorem recordUpdated_updatedOffsetIds : (recordUpdated reader log).updatedOffsetIds =
    if log.updatesExisting then insert log.offsetId reader.updatedOffsetIds
    else reader.updatedOffsetIds := by
  unfold recordUpdated; split_ifs <;> rfl

@[simp] theorem recordUpdated_compactMetadata :
    (recordUpdated reader log).compactMetadata = reader.compactMetadata := by
  unfold recordUpdated; split_ifs <;> rfl

@[simp] theorem recordUpdated_document : (recordUpdated reader log).document = reader.document := by
  unfold recordUpdated; split_ifs <;> rfl

@[simp] theorem recordUpdated_userIdToOffsetId :
    (recordUpdated reader log).userIdToOffsetId = reader.userIdToOffsetId := by
  unfold recordUpdated; split_ifs <;> rfl

@[simp] theorem addHydrated_updatedOffsetIds {o : UInt32} {h : HydratedMaterializedLogRecord} :
    (addHydrated reader o h).updatedOffsetIds = reader.updatedOffsetIds := rfl

theorem createStep_eq_ok (h : createStep reader log = .ok reader') :
    reader' = match log.live with
      | none => recordUpdated reader log
      | some hydrated => addHydrated (recordUpdated reader log) log.offsetId hydrated := by
  unfold createStep at h
  unfold MaterializedLogRecord.live
  split_ifs at h ⊢ with hd
  · exact (Except.ok.inj h).symm
  · cases hh : log.hydrate <;> simp only [hh] at h
    · cases h
    · exact (Except.ok.inj h).symm

theorem bitmapAt_insertMetadata (key' : String) (val' : MetadataValue) (o : UInt32)
    (key : String) (val : MetadataValue) :
    bitmapAt (insertMetadata cm key' val' o) key val =
      if key = key' ∧ val = val' then some (insert o ((bitmapAt cm key val).getD ∅))
      else bitmapAt cm key val := by
  unfold bitmapAt insertMetadata
  by_cases hk : key = key'
  · subst hk
    by_cases hv : val = val'
    · subst hv; cases cm.lookup key <;> simp [AList.lookup_insert, -AList.insert_empty]
    · cases cm.lookup key <;>
        simp [AList.lookup_insert, AList.lookup_insert_ne hv, hv, -AList.insert_empty]
  · simp [AList.lookup_insert_ne hk, hk]

theorem bitmapAt_foldl_insertMetadata (es : List (Σ _ : String, MetadataValue)) (o : UInt32)
    (key : String) (val : MetadataValue) :
    bitmapAt (es.foldl (fun cm e => insertMetadata cm e.1 e.2 o) cm) key val =
      if ⟨key, val⟩ ∈ es then some (insert o ((bitmapAt cm key val).getD ∅))
      else bitmapAt cm key val := by
  induction es generalizing cm with
  | nil => simp
  | cons e es ih =>
    rw [List.foldl_cons, ih, bitmapAt_insertMetadata]
    obtain ⟨k, v⟩ := e
    by_cases he : key = k ∧ val = v
    · obtain ⟨rfl, rfl⟩ := he; simp
    · have : (⟨key, val⟩ : Σ _ : String, MetadataValue) ≠ ⟨k, v⟩ := by
        rintro ⟨⟩; exact he ⟨rfl, rfl⟩
      simp [he, this]

theorem entries_ne_nil_of_lookup {m : BTreeMap MetadataValue RoaringBitmap} {val : MetadataValue}
    {b : RoaringBitmap} (h : m.lookup val = some b) : m.entries ≠ [] := by
  rintro he; simp [AList.lookup, he] at h

theorem noEmptyEntries_insertMetadata (h : NoEmptyEntries cm) (key' : String)
    (val' : MetadataValue) (o : UInt32) : NoEmptyEntries (insertMetadata cm key' val' o) := by
  intro key m hm
  unfold insertMetadata at hm
  by_cases hk : key = key'
  · subst hk
    rw [AList.lookup_insert, Option.some_inj] at hm
    subst hm
    refine ⟨entries_ne_nil_of_lookup (AList.lookup_insert _), fun val b hb => ?_⟩
    by_cases hv : val = val'
    · subst hv
      rw [AList.lookup_insert, Option.some_inj] at hb
      exact hb ▸ Finset.insert_nonempty _ _
    · rw [AList.lookup_insert_ne hv] at hb
      cases hc : cm.lookup key with
      | none => simp [hc] at hb
      | some m₀ => simp only [hc, Option.getD_some] at hb; exact (h key m₀ hc).2 val b hb
  · rw [AList.lookup_insert_ne hk] at hm
    exact h key m hm

theorem noEmptyEntries_foldl_insertMetadata (h : NoEmptyEntries cm)
    (es : List (Σ _ : String, MetadataValue)) (o : UInt32) :
    NoEmptyEntries (es.foldl (fun cm e => insertMetadata cm e.1 e.2 o) cm) := by
  induction es generalizing cm with
  | nil => exact h
  | cons e es ih => exact ih (noEmptyEntries_insertMetadata h e.1 e.2 o)

theorem mem_offsets_addHydrated {off o : UInt32} {h : HydratedMaterializedLogRecord}
    {key : String} {val : MetadataValue} : o ∈ (addHydrated reader off h).offsets key val ↔
      o ∈ reader.offsets key val ∨ (o = off ∧ h.mergedMetadata.lookup key = some val) := by
  unfold offsets addHydrated
  rw [bitmapAt_foldl_insertMetadata]
  split_ifs with hm <;> simp [← AList.mem_lookup_iff, Option.mem_def] at hm <;> simp [hm, or_comm]

/-- `reader` is the log view of the entries `logs`, read through its lookups. -/
structure IsViewOf (reader : MetadataLogReader) (logs : List MaterializedLogRecord) : Prop where
  updated : ∀ o, o ∈ reader.updatedOffsetIds ↔ ∃ e ∈ logs, e.offsetId = o ∧ e.updatesExisting
  userIds : ∀ u o, reader.userIdToOffsetId.lookup u = some o ↔
    ∃ e ∈ logs, e.offsetId = o ∧ ∃ h, e.live = some h ∧ h.userId = u
  document : ∀ o d, reader.document.lookup o = some d ↔
    ∃ e ∈ logs, e.offsetId = o ∧ ∃ h, e.live = some h ∧ h.mergedDocument = some d
  metadata : ∀ key val o, o ∈ reader.offsets key val ↔
    ∃ e ∈ logs, e.offsetId = o ∧ ∃ h, e.live = some h ∧ h.mergedMetadata.lookup key = some val
  noEmpty : NoEmptyEntries reader.compactMetadata

/-- The entries have pairwise distinct offsets, and the live ones pairwise distinct user ids. -/
def DistinctEntries (logs : List MaterializedLogRecord) : Prop :=
  (logs.map (·.offsetId)).Nodup ∧
    logs.Pairwise fun e e' => ∀ h h', e.live = some h → e'.live = some h' → h.userId ≠ h'.userId

theorem DistinctEntries.sublist {l l' : List MaterializedLogRecord} (h : DistinctEntries l')
    (hs : l.Sublist l') : DistinctEntries l :=
  ⟨h.1.sublist (hs.map _), h.2.sublist hs⟩

theorem isViewOf_new : IsViewOf new [] where
  updated := by simp [new]
  userIds := by simp [new]
  document := by simp [new]
  metadata := by simp [new, offsets, bitmapAt]
  noEmpty := by simp [NoEmptyEntries, new]

theorem exists_mem_append_singleton {pre : List MaterializedLogRecord}
    {P : MaterializedLogRecord → Prop} : (∃ e ∈ pre ++ [log], P e) ↔ (∃ e ∈ pre, P e) ∨ P log := by
  simp [or_and_right, exists_or]

theorem updated_recordUpdated {pre : List MaterializedLogRecord} (hv : IsViewOf reader pre) (o : UInt32) :
    o ∈ (recordUpdated reader log).updatedOffsetIds ↔
      ∃ e ∈ pre ++ [log], e.offsetId = o ∧ e.updatesExisting := by
  rw [exists_mem_append_singleton, ← hv.updated]
  by_cases hu : log.updatesExisting <;> simp [hu, eq_comm, or_comm]

theorem lookup_insert_iff {κ β : Type} [DecidableEq κ] {l : AList fun _ : κ => β} {k k' : κ}
    {v x : β} {P : Prop} (hl : l.lookup k' = some x ↔ P) (hk : k' = k → ¬P) :
    (l.insert k v).lookup k' = some x ↔ P ∨ (k' = k ∧ v = x) := by
  by_cases h : k' = k
  · subst h
    simp [AList.lookup_insert, hk rfl]
  · simp [AList.lookup_insert_ne h, hl, h]

/-- One step of `create` extends the view by its entry. -/
theorem createStep_isViewOf {pre : List MaterializedLogRecord} (hv : IsViewOf reader pre)
    (hd : DistinctEntries (pre ++ [log])) (h : createStep reader log = .ok reader') :
    IsViewOf reader' (pre ++ [log]) := by
  have hoff : ∀ e ∈ pre, e.offsetId ≠ log.offsetId := by
    have := hd.1; simp only [List.map_append, List.nodup_append] at this
    intro e he heq; exact this.2.2 (List.mem_map_of_mem _ he) (by simp [heq])
  have huid : ∀ e ∈ pre, ∀ h h', e.live = some h → log.live = some h' → h.userId ≠ h'.userId :=
    fun e he => (List.pairwise_append.1 hd.2).2.2 e he log (List.mem_singleton_self _)
  rw [createStep_eq_ok h]
  cases hl : log.live with
  | none =>
    refine ⟨updated_recordUpdated hv, fun u o => ?_, fun o d => ?_, fun key val o => ?_,
      by simpa using hv.noEmpty⟩ <;> rw [exists_mem_append_singleton]
    · simp [hv.userIds, hl]
    · simp [hv.document, hl]
    · simp [offsets, ← hv.metadata, hl]
  | some hyd =>
    show IsViewOf (addHydrated (recordUpdated reader log) log.offsetId hyd) _
    constructor
    · exact updated_recordUpdated hv
    · intro u o
      simp only [addHydrated, recordUpdated_userIdToOffsetId, exists_mem_append_singleton, hl,
        Option.some_inj, exists_eq_left']
      rw [lookup_insert_iff (hv.userIds u o) fun hu ⟨e, he, _, h', he', hu'⟩ =>
        huid e he h' hyd he' hl (hu'.trans hu)]
      exact or_congr_right ⟨fun ⟨h1, h2⟩ => ⟨h2, h1.symm⟩, fun ⟨h1, h2⟩ => ⟨h2.symm, h1⟩⟩
    · intro o d
      simp only [addHydrated, recordUpdated_document, exists_mem_append_singleton, hl,
        Option.some_inj, exists_eq_left']
      cases hdoc : hyd.mergedDocument with
      | none => simp [hv.document]
      | some d' =>
        rw [lookup_insert_iff (hv.document o d) fun ho ⟨e, he, heq, _⟩ => hoff e he (heq.trans ho),
          Option.some_inj]
        exact or_congr_right ⟨fun ⟨h1, h2⟩ => ⟨h1.symm, h2⟩, fun ⟨h1, h2⟩ => ⟨h1.symm, h2⟩⟩
    · intro key val o
      rw [mem_offsets_addHydrated, exists_mem_append_singleton, offsets, recordUpdated_compactMetadata,
        ← offsets, hv.metadata]
      simp [hl, or_comm, eq_comm]
    · exact noEmptyEntries_foldl_insertMetadata (by simpa using hv.noEmpty) _ _

theorem foldlM_createStep_isViewOf {logs pre : List MaterializedLogRecord}
    (hv : IsViewOf reader pre) (hd : DistinctEntries (pre ++ logs))
    (h : logs.foldlM createStep reader = .ok reader') : IsViewOf reader' (pre ++ logs) := by
  induction logs generalizing pre reader with
  | nil => cases h; simpa using hv
  | cons log logs ih =>
    rw [List.foldlM_cons] at h
    cases hs : createStep reader log with
    | error e => rw [hs] at h; cases h
    | ok r =>
      rw [hs] at h
      have hd' : DistinctEntries (pre ++ [log] ++ logs) := by simpa using hd
      simpa using ih (createStep_isViewOf hv (hd'.sublist (List.sublist_append_left _ _)) hs) hd' h

theorem create_isViewOf (logs : List MaterializedLogRecord) (hd : DistinctEntries logs)
    (h : create logs = .ok reader) : IsViewOf reader logs := by
  simpa using foldlM_createStep_isViewOf isViewOf_new (by simpa using hd) h

theorem createStep_eq_error {e : LogMaterializerError} :
    createStep reader log = .error e ↔
      log.operation ≠ .deleteExisting ∧ log.hydrate = .error e := by
  unfold createStep
  split_ifs with hd
  · simp [hd]
  · cases log.hydrate <;> simp [hd, bind, Except.bind, pure, Except.pure]

theorem foldlM_createStep_eq_error (e : LogMaterializerError) :
    ∀ (logs : List MaterializedLogRecord) (reader : MetadataLogReader),
      logs.foldlM createStep reader = .error e ↔
        ∃ pre entry post, logs = pre ++ entry :: post ∧
          (∀ x ∈ pre, x.operation = .deleteExisting ∨ ∃ h, x.hydrate = .ok h) ∧
          entry.operation ≠ .deleteExisting ∧ entry.hydrate = .error e
  | [], reader => by simp [pure, Except.pure]
  | log :: logs, reader => by
    rw [exists_split_cons, List.foldlM_cons]
    cases hs : createStep reader log with
    | error e' =>
      obtain ⟨hd, hh⟩ := createStep_eq_error.mp hs
      simp [hd, hh, bind, Except.bind]
    | ok r =>
      have hnot : ¬(log.operation ≠ .deleteExisting ∧ log.hydrate = .error e) := fun hfail => by
        cases hs.symm.trans (createStep_eq_error.mpr hfail)
      have hkept : log.operation = .deleteExisting ∨ ∃ h, log.hydrate = .ok h := by
        cases hh : log.hydrate with
        | ok h => exact .inr ⟨h, rfl⟩
        | error e' =>
          exact .inl (by_contra fun hd => by cases hs.symm.trans (createStep_eq_error.mpr ⟨hd, hh⟩))
      simp only [bind, Except.bind]
      rw [foldlM_createStep_eq_error e logs r, or_iff_right hnot, and_iff_right hkept]

/-- `create` fails exactly at the first entry it keeps whose hydration fails. -/
theorem create_eq_error (logs : List MaterializedLogRecord) (e : LogMaterializerError) :
    create logs = .error e ↔
      ∃ pre entry post, logs = pre ++ entry :: post ∧
        (∀ x ∈ pre, x.operation = .deleteExisting ∨ ∃ h, x.hydrate = .ok h) ∧
        entry.operation ≠ .deleteExisting ∧ entry.hydrate = .error e :=
  foldlM_createStep_eq_error e logs new

theorem mem_foldl_union {o : UInt32} (l : List (Σ _ : MetadataValue, RoaringBitmap))
    (acc : RoaringBitmap) :
    o ∈ l.foldl (fun acc e => acc ∪ e.2) acc ↔ o ∈ acc ∨ ∃ e ∈ l, o ∈ e.2 := by
  induction l generalizing acc with
  | nil => simp
  | cons e l ih => simp [ih, or_assoc]

theorem get_eq_ok (reader : MetadataLogReader) (key : String) {val : MetadataValue}
    {op : PrimitiveOperator}
    {bounds : Bound MetadataValue × Bound MetadataValue} (hb : rangeBounds val op = some bounds) :
    ∃ s, reader.get key val op = .ok s ∧ ∀ o, o ∈ s ↔
      ∃ w, bounds.1.admitsFrom w ∧ bounds.2.admitsUpTo w ∧ o ∈ reader.offsets key w := by
  unfold get offsets bitmapAt
  cases hk : reader.compactMetadata.lookup key with
  | none => simp
  | some m =>
    refine ⟨_, by simp only [hb]; rfl, fun o => ?_⟩
    simp only [mem_foldl_union, Finset.not_mem_empty, false_or, BTreeMap.range, List.mem_filter,
      Bool.and_eq_true, Option.bind_some]
    constructor
    · rintro ⟨⟨w, b⟩, ⟨hm, h1, h2⟩, ho⟩
      exact ⟨w, h1, h2, show o ∈ (m.lookup w).getD ∅ by rw [AList.mem_lookup_iff.2 hm]; exact ho⟩
    · rintro ⟨w, h1, h2, ho⟩
      cases hw : m.lookup w with
      | none => simp [hw] at ho
      | some b => exact ⟨⟨w, b⟩, ⟨AList.mem_lookup_iff.1 hw, h1, h2⟩, by simpa [hw] using ho⟩

/-- Over a log whose `k` holds a string at offset 1 and a boolean at offset 2, the range scans
of `k > 0` and `k < 0` return the other variants' offsets. -/
theorem get_range_crosses_variants :
    (create [⟨.addNew, 1, .ok ⟨"a", AList.singleton "k" (.str "s"), none⟩⟩,
        ⟨.addNew, 2, .ok ⟨"b", AList.singleton "k" (.bool true), none⟩⟩]).toOption.map
      (fun r => (r.get "k" (.int 0) .greaterThan, r.get "k" (.int 0) .lessThan)) =
      some (.ok {1}, .ok {2}) := by
  decide

theorem rangeBounds_admits {val w : MetadataValue} {op : PrimitiveOperator}
    {bounds : Bound MetadataValue × Bound MetadataValue} (hb : rangeBounds val op = some bounds) :
    (bounds.1.admitsFrom w && bounds.2.admitsUpTo w) = op.holds MetadataValue.lt w val := by
  cases op <;> simp only [rangeBounds, Option.some_inj, reduceCtorEq] at hb <;> subst hb <;>
    simp [Bound.admitsFrom, Bound.admitsUpTo, PrimitiveOperator.holds]
  exact Bool.eq_iff_iff.2 (by rw [decide_eq_true_iff]; exact MetadataValue.not_lt_and_not_gt_iff_eq)

/-- `get` answers with the offsets of the key's values `w` with `w op val` in the tagged-value
order, whatever their variant. -/
theorem get_holds (reader : MetadataLogReader) (key : String) (val : MetadataValue)
    {op : PrimitiveOperator} (hop : op ≠ .notEqual) : ∃ s, reader.get key val op = .ok s ∧ ∀ o, o ∈ s ↔
      ∃ w, op.holds MetadataValue.lt w val ∧ o ∈ reader.offsets key w := by
  obtain ⟨bounds, hb⟩ : ∃ bounds, rangeBounds val op = some bounds := by
    cases op <;> simp [rangeBounds] at hop ⊢
  obtain ⟨s, hs, hmem⟩ := reader.get_eq_ok key hb
  exact ⟨s, hs, fun o => by simp only [hmem, ← rangeBounds_admits hb, Bool.and_eq_true]; tauto⟩

theorem live_eq_some {e : MaterializedLogRecord} {h : HydratedMaterializedLogRecord} :
    e.live = some h ↔ e.operation ≠ .deleteExisting ∧ e.hydrate = .ok h := by
  unfold MaterializedLogRecord.live
  split_ifs with hd
  · simp [hd]
  · cases e.hydrate <;> simp [hd, Except.toOption]

theorem foldlM_createStep_live : ∀ {logs : List MaterializedLogRecord} {reader : MetadataLogReader},
    logs.foldlM createStep reader = .ok reader' → ∀ e ∈ logs, e.operation ≠ .deleteExisting →
      ∃ hyd, e.live = some hyd
  | [], _, _, e, he, _ => absurd he (List.not_mem_nil e)
  | log :: logs, reader, h, e, he, hdel => by
    rw [List.foldlM_cons] at h
    cases hs : createStep reader log with
    | error err => rw [hs] at h; cases h
    | ok r =>
      rw [hs] at h
      rcases List.mem_cons.mp he with rfl | he
      · cases hh : e.hydrate with
        | ok hyd => exact ⟨hyd, live_eq_some.mpr ⟨hdel, hh⟩⟩
        | error err => cases hs.symm.trans (createStep_eq_error.mpr ⟨hdel, hh⟩)
      · exact foldlM_createStep_live h e he hdel

/-- `create` builds exactly the log view of its entries, whatever their order. -/
theorem create_builds_log_view {logs : List MaterializedLogRecord} (hd : DistinctEntries logs)
    (h : create logs = .ok reader) :
    reader.updatedOffsetIds = ((logs.filter fun e =>
      e.operation != .initial && e.operation != .addNew).map (·.offsetId)).toFinset ∧
    (∀ u o, reader.userIdToOffsetId.lookup u = some o ↔ ∃ e ∈ logs, e.offsetId = o ∧
      e.operation ≠ .deleteExisting ∧ ∃ hyd, e.hydrate = .ok hyd ∧ hyd.userId = u) ∧
    (∀ o d, reader.document.lookup o = some d ↔ ∃ e ∈ logs, e.offsetId = o ∧
      e.operation ≠ .deleteExisting ∧ ∃ hyd, e.hydrate = .ok hyd ∧ hyd.mergedDocument = some d) ∧
    (∀ key val o, o ∈ reader.offsets key val ↔ ∃ e ∈ logs, e.offsetId = o ∧
      e.operation ≠ .deleteExisting ∧ ∃ hyd, e.hydrate = .ok hyd ∧
        hyd.mergedMetadata.lookup key = some val) ∧
    NoEmptyEntries reader.compactMetadata := by
  have hv := create_isViewOf logs hd h
  refine ⟨Finset.ext fun o => ?_, fun u o => ?_, fun o d => ?_, fun key val o => ?_, hv.noEmpty⟩
  · simp only [hv.updated, List.mem_toFinset, List.mem_map, List.mem_filter, Bool.and_eq_true,
      bne_iff_ne, MaterializedLogRecord.updatesExisting]
    exact exists_congr fun e => by tauto
  · simp [hv.userIds, live_eq_some, and_assoc, exists_and_left]
  · simp [hv.document, live_eq_some, and_assoc, exists_and_left]
  · simp [hv.metadata, live_eq_some, and_assoc, exists_and_left]

theorem create_builds_log_view_two_entries :
    DistinctEntries [⟨.addNew, 7, .ok ⟨"u7", AList.singleton "k" (.int 1), some "doc"⟩⟩,
      ⟨.deleteExisting, 3, .error ⟨"gone"⟩⟩] ∧
    ∃ reader, create [⟨.addNew, 7, .ok ⟨"u7", AList.singleton "k" (.int 1), some "doc"⟩⟩,
      ⟨.deleteExisting, 3, .error ⟨"gone"⟩⟩] = .ok reader ∧ reader.updatedOffsetIds = {3} := by
  have hd : DistinctEntries [⟨.addNew, 7, .ok ⟨"u7", AList.singleton "k" (.int 1), some "doc"⟩⟩,
      ⟨.deleteExisting, 3, .error ⟨"gone"⟩⟩] :=
    ⟨by decide, by simp [MaterializedLogRecord.live]⟩
  exact ⟨hd, _, rfl, (create_builds_log_view hd rfl).1.trans (by decide)⟩

end MetadataLogReader

end ChromaFilter
