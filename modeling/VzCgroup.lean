import VzCgroup.Basic
import VzCgroup.Ctl
import VzCgroup.MountTable
import VzCgroup.MountTable.Render
import VzCgroup.Resolver
import VzCgroup.Resolver.Concurrent
import VzCgroup.ParamIO
import VzCgroup.Decimal
import VzCgroup.Fs
import VzCgroup.ParamIO.Typed
import VzCgroup.Freezer
import VzCgroup.Accessors
import VzCgroup.ListReaders
import VzCgroup.EnvParam
import VzCgroup.Attach
import VzCgroup.Ve
import VzCgroup.TreeWalk
import VzCgroup.TreeWalk.Steps
import VzCgroup.TreeWalk.Invariant
import VzCgroup.TreeWalk.Run
import VzCgroup.Hierarchy
import VzCgroup.Hierarchy.Steps
import VzCgroup.Hierarchy.Destroy
import VzCgroup.Hierarchy.Lifecycle
import VzCgroup.BindMount
import VzCgroup.BindMount.Unwind
import VzCgroup.BindMount.Symlink
import VzCgroup.BindMount.Setup
import VzCgroup.BindMount.Cgroups
import VzCgroup.Callers
import VzCgroup.Library
