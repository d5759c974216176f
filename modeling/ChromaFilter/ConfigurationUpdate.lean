import ChromaFilter.CollectionConfiguration

/-!
# Runs of configuration updates

Once a collection exists, its configuration changes only by `update`, one request after
another. Over any run of requests the index keeps its kind, its space and the parameters it
was built with; each parameter a request may set holds the last value given by a request of
the index's own kind, requests of the other kind having no effect; and the embedding function
is the last one given. `VectorIndexConfiguration::update`, which replaces an index
configuration whole, likewise never changes the kind: a run of it leaves the last
configuration of the index's kind.
-/
namespace ChromaFilter

/-- The value a run of writes leaves in a slot that held `current`: the last one written. -/
def lastWrite {α : Type} (writes : List (Option α)) (current : α) : α :=
  (writes.filterMap id).getLast?.getD current

@[simp] theorem lastWrite_nil {α : Type} (current : α) : lastWrite [] current = current := rfl

@[simp] theorem lastWrite_cons {α : Type} (w : Option α) (writes : List (Option α))
    (current : α) : lastWrite (w :: writes) current = lastWrite writes (w.getD current) := by
  cases w <;> simp [lastWrite, List.getLast?_cons]

/-- The part of an index configuration that `update` never sets: the kind, the space and the
construction parameters, with the parameters a request may set erased. -/
def VectorIndexConfiguration.built : VectorIndexConfiguration → VectorIndexConfiguration
  | .hnsw c =>
    .hnsw { c with
      efSearch := 0
      maxNeighbors := 0
      numThreads := 0
      resizeFactor := 0
      syncThreshold := 0
      batchSize := 0 }
  | .spann c => .spann { c with searchNprobe := 0, efSearch := 0 }

namespace VectorIndexConfiguration

@[simp] theorem knnIndex_update (v w : VectorIndexConfiguration) :
    (v.update w).knnIndex = v.knnIndex := by
  cases v <;> cases w <;> rfl

/-- A run of `VectorIndexConfiguration::update` leaves the last configuration of the index's
kind, the index's own when the run gives none; configurations of the other kind are ignored,
so the kind never changes. -/
theorem foldl_update_last_of_kind (v : VectorIndexConfiguration)
    (vs : List VectorIndexConfiguration) :
    vs.foldl update v = ((vs.filter (·.knnIndex == v.knnIndex)).getLast?).getD v := by
  induction vs generalizing v with
  | nil => rfl
  | cons w vs ih =>
    rw [List.foldl_cons, ih, knnIndex_update]
    cases v <;> cases w <;> simp [update, knnIndex, List.filter_cons, List.getLast?_cons]

end VectorIndexConfiguration

namespace InternalHnswConfiguration

/-- Parameter sets applied in order leave each parameter at the last value given. -/
theorem foldl_applyUpdate (us : List UpdateHnswConfiguration) (h : InternalHnswConfiguration) :
    us.foldl applyUpdate h = { h with
      efSearch := lastWrite (us.map (·.efSearch)) h.efSearch
      maxNeighbors := lastWrite (us.map (·.maxNeighbors)) h.maxNeighbors
      numThreads := lastWrite (us.map (·.numThreads)) h.numThreads
      resizeFactor := lastWrite (us.map (·.resizeFactor)) h.resizeFactor
      syncThreshold := lastWrite (us.map (·.syncThreshold)) h.syncThreshold
      batchSize := lastWrite (us.map (·.batchSize)) h.batchSize } := by
  induction us generalizing h with
  | nil => rfl
  | cons u us ih => simp [ih, applyUpdate]

end InternalHnswConfiguration

namespace InternalSpannConfiguration

/-- Parameter sets applied in order leave each parameter at the last value given. -/
theorem foldl_applyUpdate (us : List UpdateSpannConfiguration) (s : InternalSpannConfiguration) :
    us.foldl applyUpdate s = { s with
      searchNprobe := lastWrite (us.map (·.searchNprobe)) s.searchNprobe
      efSearch := lastWrite (us.map (·.efSearch)) s.efSearch } := by
  induction us generalizing s with
  | nil => rfl
  | cons u us ih => simp [ih, applyUpdate]

end InternalSpannConfiguration

namespace InternalUpdateCollectionConfiguration

variable {J : Type}

def hnswParameters (u : InternalUpdateCollectionConfiguration J) :
    Option UpdateHnswConfiguration :=
  match u.vectorIndex with
  | some (.hnsw update) => update
  | _ => none

def spannParameters (u : InternalUpdateCollectionConfiguration J) :
    Option UpdateSpannConfiguration :=
  match u.vectorIndex with
  | some (.spann update) => update
  | _ => none

def hnswUpdates (us : List (InternalUpdateCollectionConfiguration J)) :
    List UpdateHnswConfiguration :=
  us.filterMap hnswParameters

def spannUpdates (us : List (InternalUpdateCollectionConfiguration J)) :
    List UpdateSpannConfiguration :=
  us.filterMap spannParameters

end InternalUpdateCollectionConfiguration

namespace InternalCollectionConfiguration

open InternalUpdateCollectionConfiguration

variable {J : Type}

/-- A run of update requests, applied in order. -/
def updateAll (c : InternalCollectionConfiguration J)
    (us : List (InternalUpdateCollectionConfiguration J)) : InternalCollectionConfiguration J :=
  us.foldl update c

@[simp] theorem updateAll_nil (c : InternalCollectionConfiguration J) : c.updateAll [] = c := rfl

@[simp] theorem updateAll_cons (c : InternalCollectionConfiguration J)
    (u : InternalUpdateCollectionConfiguration J) (us : List (InternalUpdateCollectionConfiguration J)) :
    c.updateAll (u :: us) = (c.update u).updateAll us := rfl

/-- One request on an HNSW index applies the HNSW parameters it gives. -/
theorem update_vectorIndex_hnsw (c : InternalCollectionConfiguration J)
    (u : InternalUpdateCollectionConfiguration J) (h : InternalHnswConfiguration)
    (hc : c.vectorIndex = .hnsw h) :
    (c.update u).vectorIndex = .hnsw (u.hnswParameters.elim h h.applyUpdate) := by
  rcases u with ⟨_ | ⟨_ | _⟩ | ⟨_ | _⟩, _⟩ <;> simp [update, hc, hnswParameters]

theorem update_vectorIndex_spann (c : InternalCollectionConfiguration J)
    (u : InternalUpdateCollectionConfiguration J) (s : InternalSpannConfiguration)
    (hc : c.vectorIndex = .spann s) :
    (c.update u).vectorIndex = .spann (u.spannParameters.elim s s.applyUpdate) := by
  rcases u with ⟨_ | ⟨_ | _⟩ | ⟨_ | _⟩, _⟩ <;> simp [update, hc, spannParameters]

theorem update_embeddingFunction (c : InternalCollectionConfiguration J)
    (u : InternalUpdateCollectionConfiguration J) :
    (c.update u).embeddingFunction = u.embeddingFunction.or c.embeddingFunction := by
  rcases u with ⟨_, _ | _⟩ <;> rfl

/-- A request never changes what the index was built with. -/
theorem built_update (c : InternalCollectionConfiguration J)
    (u : InternalUpdateCollectionConfiguration J) :
    (c.update u).vectorIndex.built = c.vectorIndex.built := by
  rcases hc : c.vectorIndex with h | s
  · rw [update_vectorIndex_hnsw c u h hc]
    cases u.hnswParameters <;> rfl
  · rw [update_vectorIndex_spann c u s hc]
    cases u.spannParameters <;> rfl

/-- Over any run of requests the index keeps its kind, its space and its construction
parameters. -/
theorem updateAll_keeps_built (c : InternalCollectionConfiguration J)
    (us : List (InternalUpdateCollectionConfiguration J)) :
    (c.updateAll us).vectorIndex.built = c.vectorIndex.built := by
  induction us generalizing c with
  | nil => rfl
  | cons u us ih => rw [updateAll_cons, ih, built_update]

/-- A run on an HNSW index applies, in order, the HNSW parameter sets of its requests. -/
theorem updateAll_vectorIndex_hnsw (c : InternalCollectionConfiguration J)
    (us : List (InternalUpdateCollectionConfiguration J)) (h : InternalHnswConfiguration)
    (hc : c.vectorIndex = .hnsw h) :
    (c.updateAll us).vectorIndex = .hnsw ((hnswUpdates us).foldl InternalHnswConfiguration.applyUpdate h) := by
  induction us generalizing c h with
  | nil => simp [hc, hnswUpdates]
  | cons u us ih =>
    rw [updateAll_cons, ih _ _ (update_vectorIndex_hnsw c u h hc)]
    cases hp : u.hnswParameters <;> simp [hnswUpdates, List.filterMap_cons, hp]

theorem updateAll_vectorIndex_spann (c : InternalCollectionConfiguration J)
    (us : List (InternalUpdateCollectionConfiguration J)) (s : InternalSpannConfiguration)
    (hc : c.vectorIndex = .spann s) :
    (c.updateAll us).vectorIndex = .spann ((spannUpdates us).foldl InternalSpannConfiguration.applyUpdate s) := by
  induction us generalizing c s with
  | nil => simp [hc, spannUpdates]
  | cons u us ih =>
    rw [updateAll_cons, ih _ _ (update_vectorIndex_spann c u s hc)]
    cases hp : u.spannParameters <;> simp [spannUpdates, List.filterMap_cons, hp]

theorem updateAll_embeddingFunction (c : InternalCollectionConfiguration J)
    (us : List (InternalUpdateCollectionConfiguration J)) :
    (c.updateAll us).embeddingFunction =
      (us.filterMap (·.embeddingFunction)).getLast?.or c.embeddingFunction := by
  induction us generalizing c with
  | nil => rfl
  | cons u us ih =>
    rw [updateAll_cons, ih, update_embeddingFunction]
    rcases u with ⟨_, _ | _⟩
    · rfl
    · simp only [List.filterMap_cons, List.getLast?_cons]
      cases (us.filterMap (·.embeddingFunction)).getLast? <;> rfl

/-- Last writer wins over any run of requests: each parameter a request may set holds the last
value given by a request of the index's kind, the index's own when none gives one, and the
embedding function is the last one given. -/
theorem updateAll_last_writes (c : InternalCollectionConfiguration J)
    (us : List (InternalUpdateCollectionConfiguration J)) :
    (∀ h, c.vectorIndex = .hnsw h → (c.updateAll us).vectorIndex = .hnsw { h with
      efSearch := lastWrite ((hnswUpdates us).map (·.efSearch)) h.efSearch
      maxNeighbors := lastWrite ((hnswUpdates us).map (·.maxNeighbors)) h.maxNeighbors
      numThreads := lastWrite ((hnswUpdates us).map (·.numThreads)) h.numThreads
      resizeFactor := lastWrite ((hnswUpdates us).map (·.resizeFactor)) h.resizeFactor
      syncThreshold := lastWrite ((hnswUpdates us).map (·.syncThreshold)) h.syncThreshold
      batchSize := lastWrite ((hnswUpdates us).map (·.batchSize)) h.batchSize }) ∧
    (∀ s, c.vectorIndex = .spann s → (c.updateAll us).vectorIndex = .spann { s with
      searchNprobe := lastWrite ((spannUpdates us).map (·.searchNprobe)) s.searchNprobe
      efSearch := lastWrite ((spannUpdates us).map (·.efSearch)) s.efSearch }) ∧
    (c.updateAll us).embeddingFunction =
      (us.filterMap (·.embeddingFunction)).getLast?.or c.embeddingFunction :=
  ⟨fun h hc => by rw [updateAll_vectorIndex_hnsw c us h hc, InternalHnswConfiguration.foldl_applyUpdate],
    fun s hc => by rw [updateAll_vectorIndex_spann c us s hc, InternalSpannConfiguration.foldl_applyUpdate],
    updateAll_embeddingFunction c us⟩

end InternalCollectionConfiguration

end ChromaFilter
