import ContainerUsage.Cgroup.ControllerFile
import ContainerUsage.Cgroup.StatReader
import ContainerUsage.Collector.Basic
import ContainerUsage.Collector.Collect
import ContainerUsage.Collector.Exposition
import ContainerUsage.Collector.Notice
import ContainerUsage.Container.Id
import ContainerUsage.Container.Scope
import ContainerUsage.Discovery.Scanner
import ContainerUsage.Discovery.Scopes
import ContainerUsage.FileSystem.Edit
import ContainerUsage.FileSystem.Error
import ContainerUsage.FileSystem.Path
import ContainerUsage.FileSystem.Tree
import ContainerUsage.Metric.Catalog
import ContainerUsage.Metric.Descriptor
import ContainerUsage.Metric.LabelSet
import ContainerUsage.Metric.Naming
import ContainerUsage.Net.Ipv4
import ContainerUsage.Net.Ipv6
import ContainerUsage.Net.SocketAddress
import ContainerUsage.Numeric.Double
import ContainerUsage.Payload.Envelope
import ContainerUsage.Payload.Legacy
import ContainerUsage.Payload.Unified
import ContainerUsage.Settings.Basic
import ContainerUsage.Startup
import ContainerUsage.Stat.Controllers
import ContainerUsage.Stat.Error
import ContainerUsage.Stat.KeyValue
import ContainerUsage.Stat.Lines
import ContainerUsage.Task.Basic
import ContainerUsage.Task.Host
import ContainerUsage.Text.Decimal
import ContainerUsage.Text.Pieces
import ContainerUsage.Text.Reader
import ContainerUsage.Text.Utf8
import ContainerUsage.Text.Words
import ContainerUsage.Wire.Error
import ContainerUsage.Wire.Key
import ContainerUsage.Wire.Message
import ContainerUsage.Wire.Varint
import ContainerUsage.Proofs.Collector.History
import ContainerUsage.Proofs.Collector.Samples
import ContainerUsage.Proofs.Collector.Families
import ContainerUsage.Proofs.Collector.Labels
import ContainerUsage.Proofs.Discovery.Discoverable
import ContainerUsage.Proofs.Task.Key
import ContainerUsage.Proofs.Collector.Holdings
import ContainerUsage.Proofs.Discovery.Tracking
import ContainerUsage.Proofs.Discovery.Watch
import ContainerUsage.Proofs.Discovery.Accuracy
import ContainerUsage.Proofs.Metric.Describable
import ContainerUsage.Proofs.Settings.TaskLabels
import ContainerUsage.Proofs.Cgroup.Reading
import ContainerUsage.Proofs.Discovery.Freshness
import ContainerUsage.Proofs.Payload.Schemas
import ContainerUsage.Proofs.Payload.Content
import ContainerUsage.Proofs.Payload.Records
import ContainerUsage.Proofs.Collector.Ledger
import ContainerUsage.Proofs.Collector.About
import ContainerUsage.Proofs.Collector.Asking
import ContainerUsage.Proofs.Collector.Isolation
import ContainerUsage.Proofs.Cgroup.KernelFiles
import ContainerUsage.Proofs.Stat.Items
import ContainerUsage.Proofs.Stat.Values
import ContainerUsage.Proofs.Stat.Rearranged
import ContainerUsage.Proofs.Stat.DeviceLines
import ContainerUsage.Proofs.Collector.Legacy
import ContainerUsage.Proofs.Collector.Names
import ContainerUsage.Proofs.Collector.Order
import ContainerUsage.Proofs.Exposition.Lines
import ContainerUsage.Proofs.Exposition.Faithful
import ContainerUsage.Proofs.Collector.Devices
import ContainerUsage.Proofs.Metric.Refusal
import ContainerUsage.Proofs.Collector.Refusal
import ContainerUsage.Proofs.Container.Scope
import ContainerUsage.Proofs.Payload.Growth
import ContainerUsage.Proofs.Numeric.Double
import ContainerUsage.Proofs.Metric.Counters
import ContainerUsage.Proofs.Collector.Usable
import ContainerUsage.Proofs.FileSystem.Relisted
import ContainerUsage.Proofs.Discovery.Repeated
import ContainerUsage.Proofs.Metric.Identifier
import ContainerUsage.Proofs.Collector.Sharing
import ContainerUsage.Proofs.Cgroup.PageSizes
import ContainerUsage.Proofs.Numeric.Nearest
import ContainerUsage.Proofs.Collector.Printed
import ContainerUsage.Proofs.Text.Trimming
import ContainerUsage.Proofs.Settings.LabelText
