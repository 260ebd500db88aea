import Microkernel.BitField
import Microkernel.Memory.PageList
import Microkernel.Wire.Request
import Microkernel.Wire.Response
import Microkernel.Capability.Parser
import Microkernel.SupervisorCall
import Microkernel.Handle.Table
import Microkernel.Lifecycle
import Microkernel.Memory.AddressSpace
import Microkernel.AuditLog
import Microkernel.Json.Reader
import Microkernel.Json.Writer
import Microkernel.Json.Basic
import Microkernel.Records
import Microkernel.Sync
import Microkernel.Object.Session
import Microkernel.Object.Memory
import Microkernel.Service.Blueprint
import Microkernel.Supervisor.MessageQueue
import Microkernel.Machine.Handles
import Microkernel.Machine.Waits
import Microkernel.Machine.Memory
import Microkernel.Machine.Processes
import Microkernel.Service.Call
import Microkernel.Service.Dispatch
import Microkernel.Machine.Settling
import Microkernel.Machine.Collecting
import Microkernel.Machine.ServiceManager
import Microkernel.Supervisor.ServerSet
import Microkernel.Supervisor.SharedLayout
import Microkernel.Supervisor.Basic
import Microkernel.Report.Wire
import Microkernel.Bench.Basic
import Microkernel.Bench.Guests
import Microkernel.Bench.Report
import Microkernel.Report.Failure
import Microkernel.Json.Fields
import Microkernel.Description.Service
import Microkernel.Report.Constants
import Microkernel.Report.Kernel
import Microkernel.Records.Forms
import Microkernel.Bench.Description
import Microkernel.Bench.Services
import Microkernel.Proofs.Wire.RoundTrip
import Microkernel.Proofs.Handle.Soundness
import Microkernel.Proofs.Handle.Refinement
import Microkernel.Proofs.Machine.Keeps
import Microkernel.Proofs.Service.Handlers
import Microkernel.Proofs.Service.Memory
import Microkernel.Proofs.Machine.Handles
import Microkernel.Proofs.Service.Cases
import Microkernel.Proofs.Service.Importing
import Microkernel.Proofs.Service.Conservation
import Microkernel.Proofs.Service.Classification
import Microkernel.Proofs.Machine.ProcessIds
import Microkernel.Proofs.Machine.Frames
import Microkernel.Proofs.Machine.Starting
import Microkernel.Proofs.Memory.Pages
import Microkernel.Proofs.Memory.Regions
import Microkernel.Proofs.Machine.HostCalls
import Microkernel.Proofs.Machine.Subsiding
import Microkernel.Proofs.Machine.Orderly
import Microkernel.Proofs.Machine.Upkeep
import Microkernel.Proofs.Machine.Performing
import Microkernel.Proofs.Machine.Sweeping
import Microkernel.Proofs.Machine.PhysicalPages
import Microkernel.Proofs.Machine.Terminated
import Microkernel.Proofs.Object.Talk
import Microkernel.Proofs.Machine.Sessions
import Microkernel.Proofs.Machine.Rendezvous
import Microkernel.Proofs.Machine.Ports
import Microkernel.Proofs.Machine.PortAccounts
import Microkernel.Proofs.Machine.Directory
import Microkernel.Proofs.Service.Holding
import Microkernel.Proofs.Service.Registration
import Microkernel.Proofs.Memory.HostBytes
import Microkernel.Proofs.Wire.StaleBytes
import Microkernel.Proofs.Wire.Commands
import Microkernel.Proofs.Machine.WaitSteps
import Microkernel.Proofs.Machine.Acquisitions
import Microkernel.Proofs.Machine.WakeUps
import Microkernel.Proofs.Machine.WaitsAlone
import Microkernel.Proofs.Capability.Grammar
import Microkernel.Proofs.Machine.Gates
import Microkernel.Proofs.Machine.Replacing
import Microkernel.Proofs.Machine.Denials
import Microkernel.Proofs.Shutdown.Standings
import Microkernel.Proofs.Shutdown.Making
import Microkernel.Proofs.Shutdown.Closing
import Microkernel.Proofs.Shutdown.Books
import Microkernel.Proofs.Shutdown.Closed
import Microkernel.Proofs.Pausing.Lasting
import Microkernel.Proofs.Pausing.Toggling
import Microkernel.Proofs.Pausing.Agreement
import Microkernel.Proofs.Memory.Spaces
import Microkernel.Proofs.Machine.MemoryObjects
import Microkernel.Proofs.Machine.Steady
import Microkernel.Proofs.Machine.Grants
import Microkernel.Proofs.Machine.Protecting
import Microkernel.Proofs.Machine.GrantCalls
import Microkernel.Proofs.Machine.MemoryRuns
import Microkernel.Proofs.Memory.Places
import Microkernel.Proofs.Memory.Shown
import Microkernel.Proofs.Machine.Contents
import Microkernel.Proofs.Machine.Writing
import Microkernel.Proofs.Machine.Views
import Microkernel.Proofs.Teardown.Once
import Microkernel.Proofs.Teardown.Alone
import Microkernel.Proofs.Stopping.Alone
import Microkernel.Proofs.Stopping.Stopped
import Microkernel.Proofs.Counting.Disciplines
import Microkernel.Proofs.Counting.Exact
import Microkernel.Proofs.Supervising.Pausing
import Microkernel.Proofs.Supervising.Supervision
import Microkernel.Proofs.Supervising.Shutdown
import Microkernel.Proofs.Supervising.Launching
import Microkernel.Proofs.Supervising.Hosting
import Microkernel.Proofs.Supervising.Undoing
import Microkernel.Proofs.Memory.Mapped
import Microkernel.Proofs.Memory.Translation
import Microkernel.Proofs.Memory.Gaps
import Microkernel.Proofs.Memory.Words
import Microkernel.Proofs.Machine.Accesses
import Microkernel.Proofs.Machine.Placing
import Microkernel.Proofs.Machine.Extents
import Microkernel.Proofs.Machine.MemoryCalls
import Microkernel.Proofs.Machine.Capturing
import Microkernel.Proofs.Memory.FreeRuns
import Microkernel.Proofs.Memory.Allocator
import Microkernel.Proofs.Machine.FailedStarts
import Microkernel.Proofs.Wire.Decoded
import Microkernel.Proofs.Wire.Reencoding
import Microkernel.Proofs.Service.Buffers
import Microkernel.Proofs.Machine.WaitPlaces
import Microkernel.Proofs.Machine.WholeWaits
import Microkernel.Proofs.Shutdown.Seniority
import Microkernel.Proofs.Shutdown.Order
import Microkernel.Proofs.Handle.Recycling
import Microkernel.Proofs.Capability.Slots
import Microkernel.Proofs.Service.Arguments
import Microkernel.Proofs.Capability.Masks
import Microkernel.Proofs.Capability.InWords
import Microkernel.Proofs.Capability.Cores
import Microkernel.Proofs.Service.Windows
import Microkernel.Proofs.Supervising.Messages
import Microkernel.Proofs.Pausing.GuestTime
import Microkernel.Proofs.Memory.FlatMemory
import Microkernel.Proofs.Service.Names
import Microkernel.Proofs.Memory.PageSequences
