import SmartFridge.Library.Runs
import SmartFridge.Library.Locking
import SmartFridge.Library.Ring
import SmartFridge.QueueRing
import SmartFridge.QueueHistory
import SmartFridge.Library.CString
import SmartFridge.Library.Json
import SmartFridge.Library.JsonRoundTrip
import SmartFridge.CJson
import SmartFridge.ProductDecoder
import SmartFridge.ProductRoundTrip
import SmartFridge.Library.JsonConsumption
import SmartFridge.Reader
import SmartFridge.DeletionMessage
import SmartFridge.Pipeline
import SmartFridge.PipelineConservation
import SmartFridge.PipelineShutdown
import SmartFridge.Library.Table
import SmartFridge.Schema
import SmartFridge.Daemon
import SmartFridge.DaemonEffect
import SmartFridge.DaemonTables
import SmartFridge.DaemonMessages
import SmartFridge.Integrity
import SmartFridge.ReaderRequests
import SmartFridge.StockCounts
import SmartFridge.Inventory
import SmartFridge.StringReads
import SmartFridge.Dispatch
import SmartFridge.ImageSlots
import SmartFridge.Atomicity
import SmartFridge.Recording
import SmartFridge.Commutation
import SmartFridge.DatabaseSend
import SmartFridge.Library.Chunks
import SmartFridge.SocketMode
import SmartFridge.Library.Numeral
import SmartFridge.Library.BlockMapping
import SmartFridge.Config
import SmartFridge.ConfigLoading
import SmartFridge.Library.JsonExtension
import SmartFridge.Library.JsonInfix
import SmartFridge.MessageParts
import SmartFridge.Segmentation
import SmartFridge.TagStorage
import SmartFridge.StoredAfresh
import SmartFridge.Downloader
import SmartFridge.Sending
import SmartFridge.SocketFormat
import SmartFridge.TestFile
import SmartFridge.ConfigScanning
import SmartFridge.ConfigOutcomes
import SmartFridge.Handles
import SmartFridge.HandleHistory
import SmartFridge.Library.Buffer
import SmartFridge.RawFormat
import SmartFridge.ReceiveBuffer
import SmartFridge.Library.LockedCalls
import SmartFridge.QueueLock
import SmartFridge.LockedReader
import SmartFridge.Fridge
import SmartFridge.PipelineProgress
import SmartFridge.Library.Allocation
import SmartFridge.ReaderHeap
import SmartFridge.TablesHistory
import SmartFridge.Library.Options
import SmartFridge.DatabaseFile
import SmartFridge.Startup
import SmartFridge.FridgeMemory
import SmartFridge.Library.HeapProgram
import SmartFridge.DecoderHeap
import SmartFridge.DaemonHeap
import SmartFridge.RawDecoderHeap
