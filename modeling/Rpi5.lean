import Rpi5.Semantics.Dialogue
import Rpi5.Semantics.Polling
import Rpi5.Semantics.Emission
import Rpi5.Semantics.Twins
import Rpi5.Semantics.Linked
import Rpi5.Semantics.Checked
import Rpi5.Semantics.Machine
import Rpi5.Semantics.Threads
import Rpi5.Semantics.Sections
import Rpi5.Semantics.A64
import Rpi5.Semantics.Embedding
import Rpi5.Semantics.Monitor
import Rpi5.Logical.Bytes
import Rpi5.Logical.Utf8
import Rpi5.Logical.FixedPoint
import Rpi5.Logical.Fifo
import Rpi5.Logical.Relocation
import Rpi5.Logical.Placement
import Rpi5.DeviceTree.Memory
import Rpi5.DeviceTree.BigEndian
import Rpi5.DeviceTree.Parser
import Rpi5.DeviceTree.Scan
import Rpi5.DeviceTree.Steps
import Rpi5.DeviceTree.Stages
import Rpi5.DeviceTree.Tree
import Rpi5.DeviceTree.Format
import Rpi5.DeviceTree.Assembly
import Rpi5.DeviceTree.EarlyStop
import Rpi5.DeviceTree.Properties
import Rpi5.DeviceTree.Nodes
import Rpi5.DeviceTree.Progress
import Rpi5.DeviceTree.Grammar
import Rpi5.DeviceTree.Reports
import Rpi5.DeviceTree.Correctness
import Rpi5.DeviceTree.Termination
import Rpi5.DeviceTree.Alignment
import Rpi5.DeviceTree.Pointers
import Rpi5.DeviceTree.Demands
import Rpi5.DeviceTree.Visits
import Rpi5.DeviceTree.Bounds
import Rpi5.DeviceTree.Translation
import Rpi5.DeviceTree.RangeTable
import Rpi5.DeviceTree.Exactness
import Rpi5.DeviceTree.Iteration
import Rpi5.DeviceTree.Nop
import Rpi5.DeviceTree.OwnRanges
import Rpi5.DeviceTree.Edits
import Rpi5.DeviceTree.EmptyRanges
import Rpi5.DeviceTree.SubWindows
import Rpi5.DeviceTree.RootRanges
import Rpi5.DeviceTree.StringLists
import Rpi5.DeviceTree.Places
import Rpi5.DeviceTree.AlikeReads
import Rpi5.DeviceTree.Courses
import Rpi5.DeviceTree.Padding
import Rpi5.DeviceTree.Influence
import Rpi5.DeviceTree.Acceptance
import Rpi5.DeviceTree.Position
import Rpi5.DeviceTree.Surroundings
import Rpi5.Mutex.RWLock
import Rpi5.Mutex.Exclusion
import Rpi5.Mutex.Preference
import Rpi5.Mutex.Ordering
import Rpi5.Mutex.Sections
import Rpi5.Mutex.SpinLock
import Rpi5.Mutex.Deadlock
import Rpi5.Mutex.Publication
import Rpi5.Bootloader.Registers
import Rpi5.Bootloader.Pl011
import Rpi5.Bootloader.Baud
import Rpi5.Bootloader.SystemTimer
import Rpi5.Bootloader.Output
import Rpi5.Bootloader.Rp1
import Rpi5.Bootloader.Gpio
import Rpi5.Bootloader.Print
import Rpi5.Bootloader.PrintSteps
import Rpi5.Bootloader.Messages
import Rpi5.Bootloader.Completion
import Rpi5.Bootloader.Startup
import Rpi5.Bootloader.Main
import Rpi5.Bootloader.Boot
import Rpi5.Bootloader.Footprint
import Rpi5.Bootloader.Blink
import Rpi5.Bootloader.Pacing
import Rpi5.Bootloader.Turns
import Rpi5.Bootloader.Panic
import Rpi5.Bootloader.Sessions
import Rpi5.Bootloader.Power
