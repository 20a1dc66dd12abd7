import KWinFT.VirtualDesktops.RemoveDesktop
import KWinFT.VirtualDesktops.Navigation
import KWinFT.VirtualDesktops.RoundTrip
import KWinFT.XdgShell.Agreement
import KWinFT.Geometry.MaximizeRoundTrip
import KWinFT.Geometry.FullscreenRoundTrip
import KWinFT.Lib.ErasingLoop
import KWinFT.Lib.Acyclic
import KWinFT.Scene.Invisible
import KWinFT.Stacking.Result
import KWinFT.Transient.Completeness
import KWinFT.Transient.Acyclicity
import KWinFT.Transient.References
import KWinFT.Focus.Follows
import KWinFT.Xwl.WltoXDelivery
import KWinFT.Xwl.XtoWlDelivery
import KWinFT.TabBox.Switching
import KWinFT.Xwl.Routing
import KWinFT.Xwl.Ownership
import KWinFT.Xwl.DragWlVisits
import KWinFT.Xwl.DragXSafety
import KWinFT.Transient.NullControl
import KWinFT.RuleBook.Lifetime
import KWinFT.RuleBook.Persistence
import KWinFT.Areas.Usable
import KWinFT.Areas.PerDesktop
import KWinFT.Xwl.UrlReceivers
import KWinFT.Gestures.Delivery
import KWinFT.Scene.Repaints
import KWinFT.ScreenEdge.TouchGestures
import KWinFT.ScreenEdge.Reservations
import KWinFT.NightColor.Transitions
import KWinFT.NightColor.Limits
import KWinFT.Session.RoundTrip
import KWinFT.Transient.Desktops
import KWinFT.Glx.BufferAge
import KWinFT.Focus.Integrity
import KWinFT.Xwl.Targets
import KWinFT.Transient.ClientLeader
import KWinFT.Transient.Leaving
import KWinFT.Transient.Minimizing
import KWinFT.RuleBook.Precedence
import KWinFT.Placement.Mirror
import KWinFT.Placement.Smart
import KWinFT.Placement.InArea
import KWinFT.Snapping.Candidates
import KWinFT.Snapping.Sparse
import KWinFT.Stacking.Placed
import KWinFT.TabBox.Listing
import KWinFT.Scene.PixmapReferences
import KWinFT.Input.ShortcutTraces
import KWinFT.Xwl.TimeoutRuns
import KWinFT.NightColor.SunTimings
import KWinFT.Shutdown.Released
import KWinFT.Effects.Continuity
import KWinFT.Effects.Reports
import KWinFT.Placement.Visible
import KWinFT.Geometry.SizeHints
import KWinFT.Geometry.Surroundings
import KWinFT.XdgShell.PopupConstraints
import KWinFT.Stacking.Subsurfaces
import KWinFT.Placement.Reachable
import KWinFT.Placement.EdgeContact
import KWinFT.Geometry.MoveResize
import KWinFT.Scene.Effective
import KWinFT.Effects.QuadTiling
import KWinFT.DesktopAreas.Runs
import KWinFT.VertexBuffer.Runs
import KWinFT.Activation.Runs
import KWinFT.Render.Runs
import KWinFT.Drm.Runs
