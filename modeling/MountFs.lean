import MountFs.Main
import MountFs.Namespace.Request
import MountFs.Store.Survey
import MountFs.World.Change
import MountFs.Proofs.NormalPath
import MountFs.Proofs.RegistryRows
import MountFs.Proofs.History
import MountFs.Proofs.Effect
import MountFs.Proofs.Integrity
import MountFs.Proofs.FileTree
import MountFs.Proofs.TreeStore
import MountFs.Proofs.TreeRefinement
import MountFs.Proofs.Sessions
import MountFs.Proofs.Exclusive
import MountFs.Proofs.HostPlaces
import MountFs.Proofs.HostLookup
import MountFs.Proofs.Confinement
import MountFs.Proofs.Escapes
import MountFs.Proofs.HostMirror
import MountFs.Proofs.StoreMirror
import MountFs.Proofs.StoreAgreement
import MountFs.Proofs.PathPrefix
import MountFs.Proofs.NormalForm
import MountFs.Proofs.NamespaceEvents
import MountFs.Proofs.Routing
import MountFs.Proofs.FailedWrites
import MountFs.Proofs.ReadOnlyMounts
import MountFs.Proofs.Listing
import MountFs.Proofs.EntryHistory
import MountFs.Proofs.HandleTable
import MountFs.Proofs.Snapshots
import MountFs.Proofs.HostTree
import MountFs.Proofs.Totals
import MountFs.Proofs.Refusals
import MountFs.Proofs.HostCommits
import MountFs.Proofs.HostItems
import MountFs.Proofs.HostWriters
import MountFs.Proofs.SizeLimit
import MountFs.Proofs.SparseWrites
import MountFs.Proofs.Independence
import MountFs.Proofs.HandleLifecycle
import MountFs.Proofs.ClosedSessions
import MountFs.Proofs.ByteOrder
import MountFs.Proofs.ListingNames
import MountFs.Proofs.CurrentDirectory
import MountFs.Proofs.Words
import MountFs.Proofs.ShellSessions
import MountFs.Proofs.CommandLines
