import ChromaFilter.SignedBitmap
import ChromaFilter.Types
import ChromaFilter.Collaborators
import ChromaFilter.LogReader
import ChromaFilter.Provider
import ChromaFilter.Eval
import ChromaFilter.Operator
import ChromaFilter.DualSource
import ChromaFilter.Segment
import ChromaFilter.CollectionConfiguration
import ChromaFilter.ConfigurationUpdate
