import RecordGateway.Bytes.BigEndian.Lemmas
import RecordGateway.CommandLine
import RecordGateway.Main
import RecordGateway.Session.Calls
import RecordGateway.Proofs.Flow.History
import RecordGateway.Proofs.Group.Packing
import RecordGateway.Proofs.Row.Extent
import RecordGateway.Proofs.FrameReader.Arrivals
import RecordGateway.Proofs.FrameReader.Progress
import RecordGateway.Proofs.FrameReader.Chunks
import RecordGateway.Proofs.Row.Harvest
import RecordGateway.Proofs.Batch.Outcome
import RecordGateway.Proofs.Batch.Reassembly
import RecordGateway.Proofs.Batch.Completion
import RecordGateway.Proofs.Client.Opening
import RecordGateway.Proofs.Client.Batch
import RecordGateway.Proofs.Partition.Tracker
import RecordGateway.Proofs.RecordSet.Round
import RecordGateway.Proofs.RecordSet.Headed
import RecordGateway.Proofs.RecordSet.Finish
import RecordGateway.Proofs.RecordSet.Progress
import RecordGateway.Proofs.RecordSet.Delivery
import RecordGateway.Proofs.Client.Streams
import RecordGateway.Proofs.Flow.Failures
import RecordGateway.Proofs.Row.Failures
import RecordGateway.Proofs.FrameReader.Failures
import RecordGateway.Proofs.Client.Attempts
import RecordGateway.Proofs.Client.Execution
import RecordGateway.Proofs.Client.Replies
import RecordGateway.Proofs.RecordSet.Doubt
import RecordGateway.Proofs.Client.Doubt
import RecordGateway.Proofs.Client.Reads
import RecordGateway.Proofs.RecordSet.Course
import RecordGateway.Proofs.RecordSet.Handoff
import RecordGateway.Proofs.Row.Recovery
import RecordGateway.Proofs.Batch.Verdict
import RecordGateway.Proofs.Session.Schedule
import RecordGateway.Proofs.Credential.Custody
import RecordGateway.Proofs.Flow.Traces
import RecordGateway.Proofs.FrameReader.Traces
import RecordGateway.Proofs.Client.Traces
import RecordGateway.Proofs.Client.Renewal
import RecordGateway.Proofs.Session.Conduct
import RecordGateway.Proofs.Client.Cancellation
import RecordGateway.Proofs.Envelope.Request
import RecordGateway.Proofs.Credential.Lifetime
import RecordGateway.Proofs.RecordSet.Resumption
import RecordGateway.Proofs.RecordSet.Unordered
import RecordGateway.Proofs.Fault.Report
import RecordGateway.Proofs.Client.Packing
import RecordGateway.Proofs.Credential.Claims
import RecordGateway.Proofs.Client.Wording
import RecordGateway.Proofs.Row.Reports
import RecordGateway.Proofs.Fault.Success
import RecordGateway.Proofs.Client.Unsent
import RecordGateway.Proofs.Session.Timing
import RecordGateway.Proofs.Client.Deadline
import RecordGateway.Proofs.Row.Acceptance
import RecordGateway.Proofs.Row.Gathering
import RecordGateway.Proofs.CommandLine.Listing
import RecordGateway.Proofs.Row.Passage
import RecordGateway.Proofs.Client.Inquiry
import RecordGateway.Proofs.Client.Polling
import RecordGateway.Proofs.Group.Word
import RecordGateway.Proofs.Row.Agreement
