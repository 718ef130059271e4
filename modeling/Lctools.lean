import Lctools.Conf.Block
import Lctools.Conf.Cursor
import Lctools.Conf.CutLine
import Lctools.Conf.Decorated
import Lctools.Conf.LineScan
import Lctools.Conf.Outcome
import Lctools.Conf.Render
import Lctools.Conf.Scan
import Lctools.Conf.Section
import Lctools.Conf.Stored
import Lctools.Config.Decode
import Lctools.Config.Decoration
import Lctools.Config.EndError
import Lctools.Config.Global
import Lctools.Config.Keys
import Lctools.Config.Manager
import Lctools.Config.RoundTrip
import Lctools.Config.Switch
import Lctools.Csort.Bubblesort
import Lctools.Csort.Bucketsort
import Lctools.Csort.Heapsort
import Lctools.Csort.Insertsort
import Lctools.Csort.Lengths
import Lctools.Csort.Machine
import Lctools.Csort.Machine.Heapsort
import Lctools.Csort.Machine.Mergesort
import Lctools.Csort.Machine.PerceDown
import Lctools.Csort.Machine.Quicksort
import Lctools.Csort.Mergesort
import Lctools.Csort.PerceDown
import Lctools.Csort.Quicksort
import Lctools.Csort.Shellsort
import Lctools.Csort.Sorting
import Lctools.Ext.Answers
import Lctools.Ext.Buffer
import Lctools.Ext.Count
import Lctools.Foundation.BinaryHeap
import Lctools.Foundation.BinarySearch
import Lctools.Foundation.Buffer
import Lctools.Foundation.ByteMemory
import Lctools.Foundation.CString
import Lctools.Foundation.Calendar
import Lctools.Foundation.Cells
import Lctools.Foundation.Fallible
import Lctools.Foundation.FixedWidth
import Lctools.Foundation.Flags
import Lctools.Foundation.HashTable
import Lctools.Foundation.Lines
import Lctools.Foundation.Monitor
import Lctools.Foundation.Numerals
import Lctools.Foundation.Occurrences
import Lctools.Foundation.Overflow
import Lctools.Foundation.Reading
import Lctools.Foundation.Ref
import Lctools.Foundation.Run
import Lctools.Foundation.Scratch
import Lctools.Foundation.StableOrder
import Lctools.Log.Appended
import Lctools.Log.Clock
import Lctools.Log.CloseSwitch
import Lctools.Log.Conf
import Lctools.Log.DefaultName
import Lctools.Log.Framing
import Lctools.Log.Generation
import Lctools.Log.Lifecycle
import Lctools.Log.Loaded
import Lctools.Log.Node
import Lctools.Log.NodeEvents
import Lctools.Log.NodeView
import Lctools.Log.OneLog
import Lctools.Log.Paths
import Lctools.Log.ProcessLock
import Lctools.Log.Repeated
import Lctools.Log.Rotation
import Lctools.Log.Rows
import Lctools.Log.Select
import Lctools.Log.Table
import Lctools.Log.Terminal
import Lctools.Log.Threads
import Lctools.Log.Write
import Lctools.Muduo.AsyncLogging
import Lctools.Muduo.AsyncOutput
import Lctools.Muduo.BlockingQueue
import Lctools.Muduo.Clog
import Lctools.Muduo.ConfFileRead
import Lctools.Muduo.Date
import Lctools.Muduo.LocalTime
import Lctools.Muduo.LogFile
import Lctools.Muduo.LogStream
import Lctools.Muduo.Logging
import Lctools.Muduo.Pipeline
import Lctools.Muduo.ReadSmallFile
import Lctools.Muduo.ThreadPool
import Lctools.Muduo.TimeZone
import Lctools.Muduo.Timestamp
import Lctools.Muduo.ZoneFile
import Lctools.Network.Headers
import Lctools.Network.Session
import Lctools.Network.Slice
import Lctools.Opt.Conflicts
import Lctools.Opt.Entry
import Lctools.Pcap.WriteSingle
import Lctools.Process.ProcName
import Lctools.Process.SingleInstance
import Lctools.Redis.Conn
import Lctools.Redis.Dispatch
import Lctools.Redis.Subscribe
import Lctools.Trace.GetTrace
