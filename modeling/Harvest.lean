import Harvest.Main
import Harvest.Proofs.Stream.Delivery
import Harvest.Proofs.Job.Preparation
import Harvest.Proofs.Query.Composition
import Harvest.Proofs.Stream.Reconnect
import Harvest.Proofs.Job.Polling
import Harvest.Proofs.Watermark
import Harvest.Proofs.Batcher
import Harvest.Proofs.Footprint
import Harvest.Proofs.Job.Closing
import Harvest.Proofs.Disk.Frame
import Harvest.Proofs.Sink
import Harvest.Proofs.Extraction.Streaming
import Harvest.Proofs.Local.Filing
import Harvest.Proofs.Report
import Harvest.Proofs.Extraction.Publishing
import Harvest.Proofs.Json.RoundTrip
import Harvest.Proofs.Lists
import Harvest.Proofs.Document.Schema
import Harvest.Proofs.Catalog.Document
import Harvest.Proofs.Catalog.Map
import Harvest.Proofs.Stream.Draining
import Harvest.Proofs.Staging.File
import Harvest.Proofs.Sink.ReadBack
import Harvest.Proofs.Local.ReadBack
import Harvest.Proofs.Staging.Registry
import Harvest.Proofs.Local.Chunking
import Harvest.Proofs.Stream.Failure
import Harvest.Proofs.Stream.Naming
import Harvest.Proofs.Calendar.Order
import Harvest.Proofs.Local.Maximum
import Harvest.Proofs.Staging.Isolation
import Harvest.Proofs.Query.Rendering
import Harvest.Proofs.Query.Agreement
import Harvest.Proofs.Stream.Budget
import Harvest.Proofs.Extraction.Deletions
import Harvest.Proofs.Catalog.Unsaved
import Harvest.Proofs.Catalog.Registering
import Harvest.Proofs.Local.Batches
import Harvest.Proofs.Extraction.Causes
import Harvest.Proofs.Extraction.LateQuery
import Harvest.Proofs.Watermark.Timestamp
import Harvest.Proofs.Job.Splitting
import Harvest.Proofs.Job.Pacing
import Harvest.Proofs.Stream.Escalation
import Harvest.Proofs.Query.Limit
import Harvest.Proofs.Query.Entity
import Harvest.Proofs.Catalog.Arity
import Harvest.Proofs.Local.Apart
