import RowStore.Main
import RowStore.Session
import RowStore.Proofs.Log.TornTail
import RowStore.Proofs.Table.Answers
import RowStore.Proofs.Table.Switch
import RowStore.Proofs.Host.Sharing
import RowStore.Proofs.Host.Turns
import RowStore.Proofs.Connection.Reads
import RowStore.Proofs.Row.Selection
import RowStore.Proofs.Snapshot.Grammar
import RowStore.Proofs.FileSystem.Naming
import RowStore.Proofs.Snapshot.RoundTrip
import RowStore.Proofs.Bytes.Damage
import RowStore.Proofs.Log.Damage
import RowStore.Proofs.Snapshot.Damage
import RowStore.Proofs.Table.Opening
import RowStore.Proofs.Table.Numbering
import RowStore.Proofs.Log.Live
import RowStore.Proofs.CommandLine.RoundTrip
import RowStore.Proofs.Measurement.Agreement
import RowStore.Proofs.Measurement.Saturation
import RowStore.Proofs.Connection.Scans
import RowStore.Proofs.Table.Browsing
import RowStore.Proofs.Table.Reopening
import RowStore.Proofs.Table.Closing
import RowStore.Proofs.Table.Scheduling
import RowStore.Proofs.Table.Course
import RowStore.Proofs.Table.Setbacks
import RowStore.Proofs.Table.Canonical
import RowStore.Proofs.FileSystem.Extension
import RowStore.Proofs.FileSystem.Links
import RowStore.Proofs.Snapshot.Replacement
import RowStore.Proofs.Properties
import RowStore.Proofs.Settings
import RowStore.Proofs.Table.Sizes
import RowStore.Proofs.CommandLine.Faults
import RowStore.Proofs.Row.Truncation
