import ChromaFilter.Collaborators

/-!
# Collection configurations

A collection's configuration names its vector index, HNSW or SPANN, with that index's
parameters, and the embedding function. Users give a `CollectionConfiguration`, in which
each index is optional and each parameter may be missing; the worker keeps an
`InternalCollectionConfiguration`, with exactly one index whose parameters are all set.

`tryFrom` converts by the index the user gave. `tryFromConfig` converts as a deployment does:
the index built is always the deployment's default kind, and when the user gave the other
kind only its distance space carries over; with no index at all, the parameters come from the
legacy `hnsw:*` keys of the collection's metadata. `ofInternal` goes back.

The defaults of the index configurations, the `From` conversions between their user-facing
and internal forms, and the reading of legacy metadata are declared in other crates; they
enter as `IndexConfigurations`.
-/
namespace ChromaFilter

inductive HnswSpace where
  | l2
  | cosine
  | ip
  deriving DecidableEq, Repr

/-- `InternalHnswConfiguration`: the parameters of an HNSW index. `resize_factor` is an `f64`,
held as its IEEE bits. -/
structure InternalHnswConfiguration where
  space : HnswSpace
  efConstruction : Nat
  efSearch : Nat
  maxNeighbors : Nat
  numThreads : Nat
  resizeFactor : BitVec 64
  syncThreshold : Nat
  batchSize : Nat
  deriving DecidableEq, Repr

/-- `==` on `f64`: a NaN equals nothing, `0.0` equals `-0.0`, and other values are equal when
their bits are. -/
def f64Eq (a b : BitVec 64) : Bool :=
  let isNaN (x : BitVec 64) := x.toNat / 2 ^ 52 % 2 ^ 11 == 2047 && x.toNat % 2 ^ 52 != 0
  let isZero (x : BitVec 64) := x.toNat % 2 ^ 63 == 0
  !isNaN a && !isNaN b && (a == b || isZero a && isZero b)

/-- The derived `PartialEq` of `InternalHnswConfiguration`: field by field, `resize_factor` by
`f64` equality. -/
def InternalHnswConfiguration.beq (a b : InternalHnswConfiguration) : Bool :=
  a.space == b.space && a.efConstruction == b.efConstruction && a.efSearch == b.efSearch &&
    a.maxNeighbors == b.maxNeighbors && a.numThreads == b.numThreads &&
    f64Eq a.resizeFactor b.resizeFactor && a.syncThreshold == b.syncThreshold &&
    a.batchSize == b.batchSize

/-- `InternalSpannConfiguration`: the parameters of a SPANN index. -/
structure InternalSpannConfiguration where
  searchNprobe : Nat
  writeNprobe : Nat
  space : HnswSpace
  efConstruction : Nat
  efSearch : Nat
  maxNeighbors : Nat
  reassignNeighborCount : Nat
  splitThreshold : Nat
  mergeThreshold : Nat
  deriving DecidableEq, Repr

/-- `HnswConfiguration`: HNSW parameters as a user gives them, each optional. -/
structure HnswConfiguration where
  maxNeighbors : Option Nat
  efConstruction : Option Nat
  efSearch : Option Nat
  batchSize : Option Nat
  numThreads : Option Nat
  syncThreshold : Option Nat
  resizeFactor : Option (BitVec 64)
  space : Option HnswSpace
  deriving DecidableEq, Repr

/-- `SpannConfiguration`: SPANN parameters as a user gives them, each optional. -/
structure SpannConfiguration where
  efConstruction : Option Nat
  efSearch : Option Nat
  maxNeighbors : Option Nat
  searchNprobe : Option Nat
  writeNprobe : Option Nat
  space : Option HnswSpace
  reassignNeighborCount : Option Nat
  splitThreshold : Option Nat
  mergeThreshold : Option Nat
  deriving DecidableEq, Repr

structure UpdateHnswConfiguration where
  efSearch : Option Nat
  maxNeighbors : Option Nat
  numThreads : Option Nat
  resizeFactor : Option (BitVec 64)
  syncThreshold : Option Nat
  batchSize : Option Nat
  deriving DecidableEq, Repr

structure UpdateSpannConfiguration where
  searchNprobe : Option Nat
  efSearch : Option Nat
  deriving DecidableEq, Repr

/-- `Metadata`: a collection's or segment's metadata. -/
abbrev Metadata := HashMap String MetadataValue

/-- `HnswParametersFromSegmentError`, by its message. -/
structure HnswParametersFromSegmentError where
  msg : String
  deriving DecidableEq, Repr

/-- `Segment`, by the field this file reads. -/
structure Segment where
  metadata : Option Metadata

/-- What the configuration code takes from the crates around it: the `Default`s of the internal
index configurations, the `From` conversions between their user-facing and internal forms, and
`InternalHnswConfiguration::from_legacy_segment_metadata`. -/
structure IndexConfigurations where
  hnswDefault : InternalHnswConfiguration
  spannDefault : InternalSpannConfiguration
  hnswOfUser : HnswConfiguration → InternalHnswConfiguration
  hnswToUser : InternalHnswConfiguration → HnswConfiguration
  spannOfUser : SpannConfiguration → InternalSpannConfiguration
  spannToUser : InternalSpannConfiguration → SpannConfiguration
  fromLegacySegmentMetadata :
    Option Metadata → Except HnswParametersFromSegmentError InternalHnswConfiguration

/-- `KnnIndex`: the kind of vector index. -/
inductive KnnIndex where
  | hnsw
  | spann
  deriving DecidableEq, Repr

def defaultDefaultKnnIndex : KnnIndex := .hnsw

/-- `EmbeddingFunctionNewConfiguration`; `J` is `serde_json::Value`, which nothing here reads. -/
structure EmbeddingFunctionNewConfiguration (J : Type) where
  name : String
  config : J

inductive EmbeddingFunctionConfiguration (J : Type) where
  | legacy
  | known (c : EmbeddingFunctionNewConfiguration J)

inductive VectorIndexConfiguration where
  | hnsw (c : InternalHnswConfiguration)
  | spann (c : InternalSpannConfiguration)
  deriving DecidableEq, Repr

/-- `VectorIndexConfiguration::update`: a configuration of the same kind replaces the index's;
one of the other kind is ignored. -/
def VectorIndexConfiguration.update :
    VectorIndexConfiguration → VectorIndexConfiguration → VectorIndexConfiguration
  | .hnsw _, .hnsw hnswNew => .hnsw hnswNew
  | .spann _, .spann spannNew => .spann spannNew
  | .hnsw current, .spann _ => .hnsw current
  | .spann current, .hnsw _ => .spann current

def VectorIndexConfiguration.knnIndex : VectorIndexConfiguration → KnnIndex
  | .hnsw _ => .hnsw
  | .spann _ => .spann

def defaultVectorIndexConfig (env : IndexConfigurations) : VectorIndexConfiguration :=
  .hnsw env.hnswDefault

structure InternalCollectionConfiguration (J : Type) where
  vectorIndex : VectorIndexConfiguration
  embeddingFunction : Option (EmbeddingFunctionConfiguration J)

/-- `CollectionConfiguration`: what a user gives. -/
structure CollectionConfiguration (J : Type) where
  hnsw : Option HnswConfiguration
  spann : Option SpannConfiguration
  embeddingFunction : Option (EmbeddingFunctionConfiguration J)

inductive CollectionConfigurationToInternalConfigurationError where
  | multipleVectorIndexConfigurations
  | hnswParametersFromSegmentError (e : HnswParametersFromSegmentError)
  deriving DecidableEq, Repr

inductive UpdateVectorIndexConfiguration where
  | hnsw (c : Option UpdateHnswConfiguration)
  | spann (c : Option UpdateSpannConfiguration)
  deriving DecidableEq, Repr

/-- `UpdateCollectionConfiguration`: an update as a user gives it. -/
structure UpdateCollectionConfiguration (J : Type) where
  hnsw : Option UpdateHnswConfiguration
  spann : Option UpdateSpannConfiguration
  embeddingFunction : Option (EmbeddingFunctionConfiguration J)

structure InternalUpdateCollectionConfiguration (J : Type) where
  vectorIndex : Option UpdateVectorIndexConfiguration
  embeddingFunction : Option (EmbeddingFunctionConfiguration J)

inductive UpdateCollectionConfigurationToInternalUpdateConfigurationError where
  | multipleVectorIndexConfigurations
  deriving DecidableEq, Repr

namespace InternalCollectionConfiguration

variable {J : Type} (env : IndexConfigurations)

/-- `InternalCollectionConfiguration::from_legacy_metadata`. -/
def fromLegacyMetadata (metadata : Metadata) :
    Except HnswParametersFromSegmentError (InternalCollectionConfiguration J) := do
  let hnsw ← env.fromLegacySegmentMetadata (some metadata)
  pure ⟨.hnsw hnsw, none⟩

def defaultHnsw : InternalCollectionConfiguration J := ⟨.hnsw env.hnswDefault, none⟩

def defaultSpann : InternalCollectionConfiguration J := ⟨.spann env.spannDefault, none⟩

def getSpannConfig (self : InternalCollectionConfiguration J) :
    Option InternalSpannConfiguration :=
  match self.vectorIndex with
  | .spann config => some config
  | _ => none

def getHnswConfig (self : InternalCollectionConfiguration J) :
    Option InternalHnswConfiguration :=
  match self.vectorIndex with
  | .hnsw config => some config
  | _ => none

/-- `get_hnsw_config_from_legacy_metadata`: the legacy metadata is read for every HNSW
configuration, and its parameters replace a configuration equal to the default. -/
def getHnswConfigFromLegacyMetadata (self : InternalCollectionConfiguration J)
    (metadata : Option Metadata) :
    Except HnswParametersFromSegmentError (Option InternalHnswConfiguration) :=
  match self.getHnswConfig with
  | some config => do
    let configFromMetadata ← env.fromLegacySegmentMetadata metadata
    if config.beq env.hnswDefault && !config.beq configFromMetadata then
      return some configFromMetadata
    return some config
  | none => .ok none

def getHnswConfigWithLegacyFallback (self : InternalCollectionConfiguration J)
    (segment : Segment) :
    Except HnswParametersFromSegmentError (Option InternalHnswConfiguration) :=
  self.getHnswConfigFromLegacyMetadata env segment.metadata

end InternalCollectionConfiguration

/-- The `if let Some` assignments of `update` on an HNSW index: each parameter the update
gives replaces the current one. -/
def InternalHnswConfiguration.applyUpdate (current : InternalHnswConfiguration)
    (update : UpdateHnswConfiguration) : InternalHnswConfiguration :=
  { current with
    efSearch := update.efSearch.getD current.efSearch
    maxNeighbors := update.maxNeighbors.getD current.maxNeighbors
    numThreads := update.numThreads.getD current.numThreads
    resizeFactor := update.resizeFactor.getD current.resizeFactor
    syncThreshold := update.syncThreshold.getD current.syncThreshold
    batchSize := update.batchSize.getD current.batchSize }

/-- The `if let Some` assignments of `update` on a SPANN index. -/
def InternalSpannConfiguration.applyUpdate (current : InternalSpannConfiguration)
    (update : UpdateSpannConfiguration) : InternalSpannConfiguration :=
  { current with
    searchNprobe := update.searchNprobe.getD current.searchNprobe
    efSearch := update.efSearch.getD current.efSearch }

/-- `InternalCollectionConfiguration::update`: an index update of the index's kind changes the
parameters it gives, one of the other kind is ignored, and a given embedding function replaces
the current one. -/
def InternalCollectionConfiguration.update {J : Type} (self : InternalCollectionConfiguration J)
    (configuration : InternalUpdateCollectionConfiguration J) : InternalCollectionConfiguration J :=
  let vectorIndex :=
    match configuration.vectorIndex with
    | some (.hnsw hnswConfig) =>
      match self.vectorIndex, hnswConfig with
      | .hnsw currentConfig, some updateConfig => .hnsw (currentConfig.applyUpdate updateConfig)
      | vectorIndex, _ => vectorIndex
    | some (.spann spannConfig) =>
      match self.vectorIndex, spannConfig with
      | .spann currentConfig, some updateConfig => .spann (currentConfig.applyUpdate updateConfig)
      | vectorIndex, _ => vectorIndex
    | none => self.vectorIndex
  let embeddingFunction :=
    match configuration.embeddingFunction with
    | some embeddingFunction => some embeddingFunction
    | none => self.embeddingFunction
  ⟨vectorIndex, embeddingFunction⟩

/-- `InternalCollectionConfiguration::try_from_config`. With neither index given, an HNSW
configuration is first read from the legacy metadata; the index built is always of the kind
`defaultKnnIndex`, inheriting only the space from a configuration of the other kind. -/
def InternalCollectionConfiguration.tryFromConfig {J : Type} (env : IndexConfigurations)
    (value : CollectionConfiguration J) (defaultKnnIndex : KnnIndex) (metadata : Option Metadata) :
    Except CollectionConfigurationToInternalConfigurationError (InternalCollectionConfiguration J) :=
  do
  let hnsw ←
    if value.hnsw.isNone && value.spann.isNone then do
      let hnswConfigFromMetadata ← (env.fromLegacySegmentMetadata metadata).mapError
        .hnswParametersFromSegmentError
      pure (some (env.hnswToUser hnswConfigFromMetadata))
    else pure value.hnsw
  let spann := value.spann
  match hnsw, spann with
  | some _, some _ => .error .multipleVectorIndexConfigurations
  | some hnsw, none =>
    match defaultKnnIndex with
    | .spann =>
      let internalConfig :=
        match hnsw.space with
        | some space => { env.spannDefault with space }
        | none => env.spannDefault
      .ok ⟨.spann internalConfig, value.embeddingFunction⟩
    | .hnsw => .ok ⟨.hnsw (env.hnswOfUser hnsw), value.embeddingFunction⟩
  | none, some spann =>
    match defaultKnnIndex with
    | .hnsw =>
      let internalConfig :=
        match spann.space with
        | some space => { env.hnswDefault with space }
        | none => env.hnswDefault
      .ok ⟨.hnsw internalConfig, value.embeddingFunction⟩
    | .spann => .ok ⟨.spann (env.spannOfUser spann), value.embeddingFunction⟩
  | none, none =>
    let vectorIndex :=
      match defaultKnnIndex with
      | .hnsw => .hnsw env.hnswDefault
      | .spann => .spann env.spannDefault
    .ok ⟨vectorIndex, value.embeddingFunction⟩

/-- `TryFrom<CollectionConfiguration> for InternalCollectionConfiguration`: the index the user
gave, HNSW's default when none. -/
def InternalCollectionConfiguration.tryFrom {J : Type} (env : IndexConfigurations)
    (value : CollectionConfiguration J) :
    Except CollectionConfigurationToInternalConfigurationError (InternalCollectionConfiguration J) :=
  match value.hnsw, value.spann with
  | some _, some _ => .error .multipleVectorIndexConfigurations
  | some hnsw, none => .ok ⟨.hnsw (env.hnswOfUser hnsw), value.embeddingFunction⟩
  | none, some spann => .ok ⟨.spann (env.spannOfUser spann), value.embeddingFunction⟩
  | none, none => .ok ⟨.hnsw env.hnswDefault, value.embeddingFunction⟩

/-- `From<InternalCollectionConfiguration> for CollectionConfiguration`. -/
def CollectionConfiguration.ofInternal {J : Type} (env : IndexConfigurations)
    (value : InternalCollectionConfiguration J) : CollectionConfiguration J where
  hnsw :=
    match value.vectorIndex with
    | .hnsw config => some (env.hnswToUser config)
    | _ => none
  spann :=
    match value.vectorIndex with
    | .spann config => some (env.spannToUser config)
    | _ => none
  embeddingFunction := value.embeddingFunction

/-- `TryFrom<UpdateCollectionConfiguration> for InternalUpdateCollectionConfiguration`. -/
def InternalUpdateCollectionConfiguration.tryFrom {J : Type} (value : UpdateCollectionConfiguration J) :
    Except UpdateCollectionConfigurationToInternalUpdateConfigurationError
      (InternalUpdateCollectionConfiguration J) :=
  match value.hnsw, value.spann with
  | some _, some _ => .error .multipleVectorIndexConfigurations
  | some hnsw, none => .ok ⟨some (.hnsw (some hnsw)), value.embeddingFunction⟩
  | none, some spann => .ok ⟨some (.spann (some spann)), value.embeddingFunction⟩
  | none, none => .ok ⟨none, value.embeddingFunction⟩

end ChromaFilter
