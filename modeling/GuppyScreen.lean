import GuppyScreen.Lib.Affine
import GuppyScreen.Lib.Bilinear
import GuppyScreen.Lib.Counter
import GuppyScreen.Lib.Double
import GuppyScreen.Lib.Expand
import GuppyScreen.Lib.Fgets
import GuppyScreen.Lib.Find
import GuppyScreen.Lib.Gcode
import GuppyScreen.Lib.Handle
import GuppyScreen.Lib.Heap
import GuppyScreen.Lib.History
import GuppyScreen.Lib.Json
import GuppyScreen.Lib.Latch
import GuppyScreen.Lib.LineBuffer
import GuppyScreen.Lib.Mailbox
import GuppyScreen.Lib.Mutex
import GuppyScreen.Lib.Outcome
import GuppyScreen.Lib.Pointer
import GuppyScreen.Lib.Polygon
import GuppyScreen.Lib.Regex
import GuppyScreen.Lib.Rounding
import GuppyScreen.Lib.Run
import GuppyScreen.Lib.Split
import GuppyScreen.Lib.StdMap
import GuppyScreen.Lib.Table
import GuppyScreen.Lib.Text
import GuppyScreen.Lib.Traverse
import GuppyScreen.Lib.Trie
import GuppyScreen.Lib.Widgets
import GuppyScreen.State
import GuppyScreen.State.Accessors
import GuppyScreen.WebSocketClient
import GuppyScreen.WebSocketClient.Queue
import GuppyScreen.Reconnect
import GuppyScreen.InitPanel
import GuppyScreen.InitPanel.Callbacks
import GuppyScreen.Utils
import GuppyScreen.Eta
import GuppyScreen.Clock
import GuppyScreen.Config
import GuppyScreen.Config.Migration
import GuppyScreen.SysInfo
import GuppyScreen.PrinterSelect
import GuppyScreen.Belts
import GuppyScreen.PowerPanel
import GuppyScreen.ShellCommand
import GuppyScreen.MeshView
import GuppyScreen.MeshView.Flat
import GuppyScreen.MeshView.Surface
import GuppyScreen.BedMesh
import GuppyScreen.InputShaper.Panel
import GuppyScreen.InputShaper.Runs
import GuppyScreen.InputShaper.Analysis
import GuppyScreen.InputShaper.Save
import GuppyScreen.Loop
import GuppyScreen.TouchCalibration
import GuppyScreen.ManualZ
import GuppyScreen.ManualZ.Printing
import GuppyScreen.ManualZ.Jog
import GuppyScreen.Moves
import GuppyScreen.Selector
import GuppyScreen.ExtruderLimits
import GuppyScreen.Options
import GuppyScreen.FineTune
import GuppyScreen.FineTune.ZOffset
import GuppyScreen.Fans
import GuppyScreen.PrintPanel.Panel
import GuppyScreen.PrintPanel.System
import GuppyScreen.PrintPanel.Hold
import GuppyScreen.PrintPanel.Release
import GuppyScreen.PrintPanel.Once
import GuppyScreen.PrintPanel.Tree
import GuppyScreen.PrintPanel.Cache
import GuppyScreen.PrintPanel.FileList
import GuppyScreen.PrintPanel.Selection
import GuppyScreen.PrintPanel.Order
import GuppyScreen.PrintPanel.Reply
import GuppyScreen.PrintPanel.Scroll
import GuppyScreen.PrintStatus
import GuppyScreen.PrintStatus.Layers
import GuppyScreen.PrintStatus.Screen
import GuppyScreen.Thumbnail
import GuppyScreen.Macros
import GuppyScreen.Macros.Hidden
import GuppyScreen.Console
import GuppyScreen.PromptPanel
import GuppyScreen.PromptPanel.Group
import GuppyScreen.Spoolman
import GuppyScreen.TmcTune
import GuppyScreen.UpdateCheck
import GuppyScreen.UpdateDialog
import GuppyScreen.Wifi.Supplicant
import GuppyScreen.Wifi.Credentials
import GuppyScreen.Wifi.Networks
import GuppyScreen.Wifi.Panel
import GuppyScreen.Wifi.Blocks
import GuppyScreen.Wifi.ScanList
import GuppyScreen.Wifi.Current
