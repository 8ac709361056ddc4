import LibVmi.Core.Concurrent
import LibVmi.Core.WriteVirtual
import LibVmi.Artifact.KdmpMetadata
import LibVmi.Artifact.RdmpLayout
import LibVmi.Artifact.Agreement
import LibVmi.Qemu.QmpRuns
import LibVmi.Qemu.Framing
import LibVmi.Qemu.Gdb
import LibVmi.Ffi.Handles
import LibVmi.Acquisition.Publication
import LibVmi.Acquisition.InPlace
import LibVmi.Acquisition.LibvirtRanges
import LibVmi.Testkit.FakeProvider
import LibVmi.Arch.Amd64Walk
import LibVmi.Arch.Aarch64Walk
import LibVmi.Events.EventQueue
import LibVmi.Views.ManagerRuns
import LibVmi.Xen.Capabilities
import LibVmi.Xen.ForeignMemory
import LibVmi.Commands.CaptureRuns
import LibVmi.Arch.Aarch64Blocks
import LibVmi.Arch.Aarch64Reference
import LibVmi.Artifact.ElfExact
import LibVmi.Artifact.BitmapExact
import LibVmi.Core.WritePrefix
import LibVmi.Os.CircularLists
import LibVmi.Os.SocketTables
import LibVmi.Os.Ancestries
import LibVmi.Os.DentryVisits
import LibVmi.Os.HandleTables
import LibVmi.Os.OpenFiles
import LibVmi.Profile.FormatAgreement
import LibVmi.Qemu.HmpMemory
import LibVmi.Qemu.MonitorPaths
import LibVmi.Qemu.PhysicalReads
import LibVmi.Qemu.SharedMonitor
import LibVmi.Qemu.Chunking
import LibVmi.Testkit.SparseWrites
import LibVmi.Os.GuestText
import LibVmi.Core.CacheHistory
import LibVmi.Core.ProviderRegistry
import LibVmi.Qemu.RegisterCodec
import LibVmi.Artifact.BoundedReads
import LibVmi.Artifact.ManifestExact
import LibVmi.VirtualBox.Machine
import LibVmi.Commands.Addressed
import LibVmi.Attach.Snapshots
import LibVmi.Testkit.FakeRuns
