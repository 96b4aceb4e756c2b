import TermuxX11.Wire.ActivityToServer
import TermuxX11.Server.Connection
import TermuxX11.VirtualKeys.Reload
import TermuxX11.VirtualKeys.RoundTrip
import TermuxX11.VirtualKeys.Layout
import TermuxX11.VirtualKeys.Manager
import TermuxX11.VirtualKeys.Editor
import TermuxX11.Activity.Buffers
import TermuxX11.Server.Registration
import TermuxX11.Server.Clipboard
import TermuxX11.Input.Touch
import TermuxX11.Server.Decoder
import TermuxX11.VirtualKeys.Storage
import TermuxX11.VirtualKeys.Import
import TermuxX11.VirtualKeys.Rename
import TermuxX11.Input.Keys
import TermuxX11.Server.Stylus
import TermuxX11.Input.Mouse
import TermuxX11.Input.Gestures
import TermuxX11.Input.Interceptor
import TermuxX11.Input.ExtraKeys
import TermuxX11.Input.ExtraKeyGestures
import TermuxX11.Preferences.Receiver
import TermuxX11.Preferences.Restore
import TermuxX11.Input.Composing
import TermuxX11.Activity.Viewport
import TermuxX11.Server.Keysym
import TermuxX11.Server.WorkQueue
import TermuxX11.VirtualKeys.Pad
import TermuxX11.VirtualKeys.Cursor
import TermuxX11.VirtualKeys.Scroll
import TermuxX11.VirtualKeys.Apart
import TermuxX11.VirtualKeys.Fling
import TermuxX11.Server.TouchQueue
import TermuxX11.Input.Taps
import TermuxX11.Input.Swipe
import TermuxX11.Input.Dex
import TermuxX11.Activity.Zoom
import TermuxX11.Activity.Dimensions
import TermuxX11.Activity.Fitting
import TermuxX11.Wire.ScreenSize
import TermuxX11.Server.CheckUtf8
import TermuxX11.Server.Selection
import TermuxX11.Server.Replies
import TermuxX11.Server.Locks
import TermuxX11.Buffer.Transfer
import TermuxX11.Input.TextEvents
import TermuxX11.Server.Flip
import TermuxX11.Server.Imported
import TermuxX11.Server.Present
import TermuxX11.Server.Cursor
import TermuxX11.Server.Configure
import TermuxX11.Server.KeysymSearch
import TermuxX11.Server.AddedKeysyms
import TermuxX11.Activity.RendererThread
import TermuxX11.Server.Lookups
import TermuxX11.Server.NumLock
import TermuxX11.Server.NewKeysym
import TermuxX11.Input.Macros
import TermuxX11.Shm.Numbers
import TermuxX11.Shm.Requests
import TermuxX11.Shm.Keys
import TermuxX11.Shared.Mutex
import TermuxX11.Shared.Frames
import TermuxX11.Shared.Clipboards
import TermuxX11.Shared.CondVarProxy
import TermuxX11.Activity.Reconnect
import TermuxX11.Input.DelayedRelease
