import Nachos.Lib.Transition
import Nachos.Lib.Memory
import Nachos.Lib.Slots
import Nachos.Lib.SlotMap
import Nachos.Lib.DoubleWord
import Nachos.Lib.Reading
import Nachos.Lib.Answers
import Nachos.Lib.Chains
import Nachos.Threads.Kernel
import Nachos.Threads.Turn
import Nachos.Threads.Placement
import Nachos.Threads.Scheduling
import Nachos.Threads.Semaphores
import Nachos.Threads.Conditions
import Nachos.Threads.Locks
import Nachos.Threads.Misuse
import Nachos.Threads.Bindings
import Nachos.Threads.Holders
import Nachos.Threads.Carcasses
import Nachos.Threads.Asserted
import Nachos.Threads.Levels
import Nachos.Threads.SortedList
import Nachos.Threads.LinkedList
import Nachos.Threads.SynchList
import Nachos.Threads.Takers
import Nachos.Threads.Switch
import Nachos.Threads.StackSwitch
import Nachos.Office.Monitors
import Nachos.Office.Programs
import Nachos.Office.System
import Nachos.Office.Lines
import Nachos.Office.Progress
import Nachos.Office.Waiting
import Nachos.Office.Queues
import Nachos.Office.Locking
import Nachos.Office.Breaks
import Nachos.Office.Leaving
import Nachos.Office.Service
import Nachos.Office.Serving
import Nachos.Office.Visits
import Nachos.Office.Counters
import Nachos.Office.Smallest
import Nachos.Office.Menu
import Nachos.Machine.Interrupt
import Nachos.Machine.Deliveries
import Nachos.Machine.Network
import Nachos.Machine.Devices
import Nachos.Machine.Completions
import Nachos.Machine.Polling
import Nachos.Machine.Clock
import Nachos.Machine.Latency
import Nachos.Machine.Ties
import Nachos.Machine.Loops
import Nachos.Machine.Keyboard
import Nachos.Machine.Translation
import Nachos.Machine.Instructions
import Nachos.Machine.Exceptions
import Nachos.Machine.UserPrograms
import Nachos.Machine.Copying
import Nachos.Machine.Bytes
import Nachos.Machine.DelaySlots
import Nachos.Machine.Products
import Nachos.Machine.Encodings
import Nachos.Machine.Operations
import Nachos.Machine.Protection
import Nachos.Network.Mail
import Nachos.Network.PostOffice
import Nachos.Network.Delivery
import Nachos.Network.MailTest
import Nachos.FileSys.OpenFile
import Nachos.Threads.Exclusion
import Nachos.Threads.SynchDevice
import Nachos.FileSys.Transfers
import Nachos.FileSys.BitMap
import Nachos.FileSys.BitSets
import Nachos.FileSys.Allocation
import Nachos.FileSys.Requests
import Nachos.FileSys.Directory
import Nachos.FileSys.FileSystem
import Nachos.FileSys.Volume
import Nachos.FileSys.Layout
import Nachos.FileSys.Upkeep
import Nachos.FileSys.Format
import Nachos.FileSys.Histories
import Nachos.FileSys.RoundTrip
import Nachos.FileSys.Room
import Nachos.FileSys.Undoing
import Nachos.FileSys.Accounting
import Nachos.FileSys.Negative
import Nachos.FileSys.Stale
import Nachos.FileSys.Names
import Nachos.FileSys.Lengths
import Nachos.FileSys.Keys
import Nachos.FileSys.Commands
import Nachos.UserProg.Table
import Nachos.UserProg.SlotRaces
import Nachos.UserProg.AddrSpace
import Nachos.UserProg.Handlers
import Nachos.UserProg.Coff
import Nachos.UserProg.Conversions
import Nachos.UserProg.Loading
import Nachos.UserProg.FlatFile
import Nachos.UserProg.ConsoleTest
import Nachos.UserProg.ReadLine
import Nachos.UserProg.UserState
