import Oncall.Main
import Oncall.PagerDuty.Memory
import Oncall.Vault.Concurrent
import Oncall.Proofs.Transcript
import Oncall.Proofs.KeyedLocks.Line
import Oncall.Proofs.KeyedLocks.Use
import Oncall.Proofs.Pool.Exclusion
import Oncall.Proofs.Pool.Progress
import Oncall.Proofs.Pool.Guarantee
import Oncall.Proofs.PagerDuty.Growth
import Oncall.Proofs.PagerDuty.Memory
import Oncall.Proofs.PagerDuty.Retry
import Oncall.Proofs.PagerDuty.Rounds
import Oncall.Proofs.PagerDuty.Duplicates
import Oncall.Proofs.Pool.Log
import Oncall.Proofs.Pool.Serial
import Oncall.Proofs.Pool.SerialRun
import Oncall.Proofs.PagerDuty.SameCluster
import Oncall.Proofs.Pool.Apart
import Oncall.Proofs.PagerDuty.UpToIds
import Oncall.Proofs.PagerDuty.OtherClusters
import Oncall.Proofs.KeyedLocks.Known
import Oncall.Proofs.KeyedLocks.Whole
import Oncall.Proofs.KeyedLocks.Linear
import Oncall.Proofs.Vault.ReadThrough
import Oncall.Proofs.PagerDuty.Listing
import Oncall.Proofs.PagerDuty.ServiceNames
import Oncall.Proofs.Pool.Contract
import Oncall.Proofs.Vault.Isolation
import Oncall.Proofs.Pool.Notes
import Oncall.Proofs.Vault.SharedFetch
import Oncall.Proofs.Json.Text
import Oncall.Proofs.Json.Written
import Oncall.Proofs.Json.Record
import Oncall.Proofs.PagerDuty.Requests
import Oncall.Proofs.PagerDuty.RoundTrip
import Oncall.Proofs.Text.Base64
import Oncall.Proofs.Source.Objects
import Oncall.Proofs.Source.Agreement
import Oncall.Proofs.PagerDuty.Token
import Oncall.Proofs.Cli.Steps
import Oncall.Proofs.Cli.Configured
import Oncall.Proofs.Cli.Provisioning
import Oncall.Proofs.Cli.Effects
import Oncall.Proofs.Cli.Choices
import Oncall.Proofs.Cli.CommandLine
import Oncall.Proofs.PagerDuty.Transcript
import Oncall.Proofs.PagerDuty.Adoption
import Oncall.Proofs.Files.Entry
import Oncall.Proofs.Vault.FaultyDisk
import Oncall.Proofs.Vault.Lookup
import Oncall.Proofs.Vault.EmptySecret
import Oncall.Proofs.PagerDuty.StoredIds
import Oncall.Proofs.Vault.Replies
import Oncall.Proofs.PagerDuty.Paging
import Oncall.Proofs.PagerDuty.Refusals
import Oncall.Proofs.Text.Parts
import Oncall.Proofs.Url.Percent
import Oncall.Proofs.Url.Form
import Oncall.Proofs.Url.Joined
import Oncall.Proofs.Url.Segment
import Oncall.Proofs.PagerDuty.Queries
import Oncall.Proofs.PagerDuty.Addresses
import Oncall.Proofs.Text.Unsigned
import Oncall.Proofs.Source.Payload
import Oncall.Proofs.Source.FirstFault
import Oncall.Proofs.Text.Quoted
import Oncall.Proofs.Source.Redaction
import Oncall.Proofs.Files.Frame
import Oncall.Proofs.Vault.Confinement
import Oncall.Proofs.Source.LossyText
import Oncall.Proofs.Vault.Freshness
