import OpenairHss.Lib.Gf256
import OpenairHss.Lib.Bytes
import OpenairHss.Lib.Aes
import OpenairHss.Lib.Budget
import OpenairHss.Lib.Buffer
import OpenairHss.Lib.ControlBreak
import OpenairHss.Lib.Cql
import OpenairHss.Lib.Csv
import OpenairHss.Lib.Emit
import OpenairHss.Lib.Forest
import OpenairHss.Lib.Getline
import OpenairHss.Lib.Hex
import OpenairHss.Lib.Index
import OpenairHss.Lib.Interact
import OpenairHss.Lib.Json
import OpenairHss.Lib.SortedMap
import OpenairHss.Lib.KeyedOps
import OpenairHss.Lib.Locality
import OpenairHss.Lib.Quoted
import OpenairHss.Lib.StableSort
import OpenairHss.Lib.Steps
import OpenairHss.Lib.EventLoop
import OpenairHss.Lib.Threads
import OpenairHss.Lib.Traced
import OpenairHss.Lib.UnorderedMap
import OpenairHss.Lib.Walk
import OpenairHss.Diameter
import OpenairHss.Hsssec.AccessRestriction
import OpenairHss.Hsssec.Conversion
import OpenairHss.Hsssec.Fx
import OpenairHss.Hsssec.Kdf
import OpenairHss.Hsssec.Milenage
import OpenairHss.Hsssec.Random
import OpenairHss.Hsssec.Rijndael
import OpenairHss.Hsssec.SequenceNumber
import OpenairHss.DataAccess.Schema
import OpenairHss.DataAccess.Events
import OpenairHss.DataAccess.Atomicity
import OpenairHss.DataAccess.Identities
import OpenairHss.DataAccess.ImsiSec
import OpenairHss.DataAccess.Users
import OpenairHss.DataAccess.Statements
import OpenairHss.DataAccess.Subscribers
import OpenairHss.DataAccess.OpcKeys
import OpenairHss.Processor.Machine
import OpenairHss.Processor.Ghost
import OpenairHss.Processor.Accounting
import OpenairHss.Processor.Slots
import OpenairHss.Processor.Admission
import OpenairHss.Processor.Data
import OpenairHss.Processor.Order
import OpenairHss.Processor.Wake
import OpenairHss.Processor.Promise
import OpenairHss.Processor.Owed
import OpenairHss.Processor.Owned
import OpenairHss.Requests.Slots
import OpenairHss.Requests.Completed
import OpenairHss.Requests.Order
import OpenairHss.Requests.Callbacks
import OpenairHss.Requests.InFlight
import OpenairHss.Requests.Provisioned
import OpenairHss.Requests.Located
import OpenairHss.Requests.Purged
import OpenairHss.Requests.Results
import OpenairHss.Air.Vectors
import OpenairHss.Air.Processor
import OpenairHss.Air.Bounds
import OpenairHss.Air.Completion
import OpenairHss.Air.Freshness
import OpenairHss.Air.Race
import OpenairHss.Air.Resync
import OpenairHss.Air.RoundKeys
import OpenairHss.Air.SynchFix
import OpenairHss.Air.Updates
import OpenairHss.Ulr.Request
import OpenairHss.Ulr.Checks
import OpenairHss.Ulr.Accepted
import OpenairHss.Ulr.Processor
import OpenairHss.Ulr.Scene
import OpenairHss.Ulr.View
import OpenairHss.Ulr.Watch
import OpenairHss.Ulr.Completion
import OpenairHss.Ulr.EventQueries
import OpenairHss.Ulr.Rule
import OpenairHss.Ulr.Events
import OpenairHss.Ulr.Plmn
import OpenairHss.Ulr.ResultCode
import OpenairHss.Ulr.Roaming
import OpenairHss.Srr.Request
import OpenairHss.Nir.Request
import OpenairHss.Nir.Updates
import OpenairHss.Cir.RirBuilder
import OpenairHss.Cir.Request
import OpenairHss.Cir.Answers
import OpenairHss.Cir.Statuses
import OpenairHss.Cir.Merged
import OpenairHss.Cir.Stored
import OpenairHss.Pur.Request
import OpenairHss.Tbcd.Codec
import OpenairHss.Tbcd.Msisdn
import OpenairHss.Air.Auts
import OpenairHss.FdExtractor.Resolve
import OpenairHss.FdExtractor.Bound
import OpenairHss.FdExtractor.Copy
import OpenairHss.FdExtractor.Table
import OpenairHss.FdExtractor.Read
import OpenairHss.FdExtractor.Copied
import OpenairHss.FdAvp.Avp
import OpenairHss.FdAvp.RoundTrip
import OpenairHss.FdJson.AddAvps
import OpenairHss.FdJson.Apn
import OpenairHss.FdJson.GetJson
import OpenairHss.FdJson.Tolerant
import OpenairHss.FdJson.Kept
import OpenairHss.FdJson.Restored
import OpenairHss.Stime.DateTime
import OpenairHss.Stime.ReadBack
import OpenairHss.Stime.Instant
import OpenairHss.Strftime.Specs
import OpenairHss.Strftime.Moment
import OpenairHss.Strftime.Scanned
import OpenairHss.Strftime.Formats
import OpenairHss.Strftime.Trials
import OpenairHss.Strftime.Aligned
import OpenairHss.Dns.Parser
import OpenairHss.Dns.Cache
import OpenairHss.Dns.Confined
import OpenairHss.Dns.Message
import OpenairHss.Dns.Decoded
import OpenairHss.Dns.Hits
import OpenairHss.Dns.Lifetime
import OpenairHss.Epc.Service
import OpenairHss.Epc.NodeSelector
import OpenairHss.Epc.Colocated
import OpenairHss.Epc.SrvVector
import OpenairHss.Epc.DiameterSelector
import OpenairHss.Epc.Fqdn
import OpenairHss.Epc.Names
import OpenairHss.Epc.Plmnid
import OpenairHss.Epc.Selectors
import OpenairHss.Epc.ServiceText
import OpenairHss.Epc.Published
import OpenairHss.Stats.Hss
import OpenairHss.Stats.Counted
import OpenairHss.Stats.Rows
import OpenairHss.Stats.Live
import OpenairHss.Stats.Hooks
import OpenairHss.Stats.Thread
import OpenairHss.Worker.SQueue
import OpenairHss.Worker.Shutdown
import OpenairHss.Worker.Drained
import OpenairHss.Worker.SEventThread
import OpenairHss.Startup.Options
import OpenairHss.Startup.Precedence
import OpenairHss.Startup.Main
