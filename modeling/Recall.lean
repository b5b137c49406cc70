import Recall.Message.Identifier
import Recall.Message.Json
import Recall.Occupancy
import Recall.Config.Json
import Recall.Session
import Recall.Proofs.Course
import Recall.Proofs.Buffer.Limits
import Recall.Proofs.Buffer.Retention
import Recall.Proofs.Buffer.Lineage
import Recall.Proofs.Buffer.Batches
import Recall.Proofs.Buffer.Budget
import Recall.Proofs.Summarization.Conservation
import Recall.Proofs.Retrieval.Index
import Recall.Proofs.Retrieval.Ranking
import Recall.Proofs.Hierarchical.Layers
import Recall.Proofs.Hierarchical.Archive
import Recall.Proofs.Summarization.Schedule
import Recall.Proofs.Occupancy
import Recall.Proofs.Hierarchical.Context
import Recall.Proofs.Hierarchical.Selection
import Recall.Proofs.Chronology
import Recall.Proofs.Written
import Recall.Proofs.Json.Lexeme
import Recall.Proofs.Json.Value
import Recall.Proofs.Json.Record
import Recall.Proofs.Config.Settings
import Recall.Proofs.Config.Acceptance
import Recall.Proofs.Config.Gates
import Recall.Proofs.Instant.Calendar
import Recall.Proofs.Instant.Text
import Recall.Proofs.Message.Rereading
import Recall.Proofs.SlidingWindow.Resizing
import Recall.Proofs.Failure
import Recall.Proofs.Forgetting
import Recall.Proofs.Buffer.Chronology
import Recall.Proofs.Summarization.Context
import Recall.Proofs.Estimates
import Recall.Proofs.Binary.Propagation
import Recall.Proofs.Embedding.Cosine
import Recall.Proofs.Retrieval.Ties
import Recall.Proofs.Binary.Whole
import Recall.Proofs.Digest
import Recall.Proofs.Embedding.Hashed
import Recall.Proofs.Buffer.RunningDigest
import Recall.Proofs.Summarization.Overflow
