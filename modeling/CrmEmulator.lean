import CrmEmulator.Config
import CrmEmulator.Http.Service
import CrmEmulator.Main
import CrmEmulator.Proofs.Bulk.IngestLife
import CrmEmulator.Proofs.Query.Quoting
import CrmEmulator.Proofs.Org.Integrity
import CrmEmulator.Proofs.Streaming.Delivery
import CrmEmulator.Proofs.Csv.Reading
import CrmEmulator.Proofs.Csv.RoundTrip
import CrmEmulator.Proofs.Csv.Lines
import CrmEmulator.Proofs.Bulk.Merging
import CrmEmulator.Proofs.Bulk.Results
import CrmEmulator.Proofs.Query.Acceptance
import CrmEmulator.Proofs.Schema.Validation
import CrmEmulator.Proofs.Org.Agreement
import CrmEmulator.Proofs.Org.Invariant
import CrmEmulator.Proofs.Org.Conformance
import CrmEmulator.Proofs.Bulk.ExternalId
import CrmEmulator.Proofs.Org.ReadOnly
import CrmEmulator.Proofs.Bulk.Batches
import CrmEmulator.Proofs.Org.BatchJobs
import CrmEmulator.Proofs.Query.Paging
import CrmEmulator.Proofs.Query.Searching
import CrmEmulator.Proofs.Saql.Grammar
import CrmEmulator.Proofs.Saql.Parsing
import CrmEmulator.Proofs.Text.Matching
import CrmEmulator.Proofs.Xml.Escaping
import CrmEmulator.Proofs.Xml.Records
import CrmEmulator.Proofs.Bulk.Typing
import CrmEmulator.Proofs.Bulk.QueryResults
import CrmEmulator.Proofs.Saql.Dataflow
import CrmEmulator.Proofs.Org.Events
import CrmEmulator.Proofs.Org.Required
import CrmEmulator.Proofs.Org.Failures
import CrmEmulator.Proofs.Http.Errors
import CrmEmulator.Proofs.Bulk.FailingRows
import CrmEmulator.Proofs.Org.ReadBack
import CrmEmulator.Proofs.Streaming.Dropped
import CrmEmulator.Proofs.Streaming.Resetting
import CrmEmulator.Proofs.Org.Upserting
import CrmEmulator.Proofs.Query.Sorting
import CrmEmulator.Proofs.Query.PlainPatterns
import CrmEmulator.Proofs.Query.Equality
import CrmEmulator.Proofs.Query.Integers
import CrmEmulator.Proofs.Org.Attributes
import CrmEmulator.Proofs.Analytics.Partition
import CrmEmulator.Proofs.Analytics.Overflow
import CrmEmulator.Proofs.Analytics.Averages
import CrmEmulator.Proofs.Streaming.Isolation
import CrmEmulator.Proofs.Record.Ordered
import CrmEmulator.Proofs.Registry.Index
import CrmEmulator.Proofs.Schema.Reload
import CrmEmulator.Proofs.Record.Ordered
