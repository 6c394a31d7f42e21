import Xv6Slab.Base
import Xv6Slab.Lib.Bytes
import Xv6Slab.Lib.Chain
import Xv6Slab.Lib.Tiling
import Xv6Slab.Lib.Pool
import Xv6Slab.Lib.Machine
import Xv6Slab.Lib.Writes
import Xv6Slab.Lib.Ring
import Xv6Slab.Lib.Confluence
import Xv6Slab.Lib.Radix
import Xv6Slab.Buddy.Model
import Xv6Slab.Buddy.Rep
import Xv6Slab.Buddy.Lists
import Xv6Slab.Buddy.Moves
import Xv6Slab.Buddy.Alloc
import Xv6Slab.Buddy.Free
import Xv6Slab.Buddy.Init
import Xv6Slab.Buddy.Invariant
import Xv6Slab.Buddy.Coalesce
import Xv6Slab.Slab.Model
import Xv6Slab.Slab.Lists
import Xv6Slab.Slab.Headers
import Xv6Slab.Slab.Slabs
import Xv6Slab.Slab.Owners
import Xv6Slab.Slab.Live
import Xv6Slab.Slab.Setup
import Xv6Slab.Slab.Inv
import Xv6Slab.Slab.Alloc
import Xv6Slab.Slab.Free
import Xv6Slab.Slab.Shrink
import Xv6Slab.Slab.CacheList
import Xv6Slab.Slab.Caches
import Xv6Slab.Slab.Frames
import Xv6Slab.Slab.Init
import Xv6Slab.Slab.Run
import Xv6Slab.Slab.Invariant
import Xv6Slab.Slab.BadFree
import Xv6Slab.Slab.Teardown.Model
import Xv6Slab.Slab.Teardown.Hidden
import Xv6Slab.Slab.Teardown.Invariant
import Xv6Slab.Slab.Teardown.Grow
import Xv6Slab.Slab.Teardown.Destroy
import Xv6Slab.Spec.CachePool
import Xv6Slab.Spec.BuddyCalls
import Xv6Slab.Spec.BuddyFrees
import Xv6Slab.Spec.Conversions
import Xv6Slab.Spec.Objects
import Xv6Slab.Spec.CacheCalls
import Xv6Slab.Spec.Geometry
import Xv6Slab.Spec.GiveBack
import Xv6Slab.Spec.Contents
import Xv6Slab.Spec.Footprint
import Xv6Slab.Spec.Interleaving
import Xv6Slab.Kernel.ActiveKmem
import Xv6Slab.Kernel.Log.Model
import Xv6Slab.Kernel.Log.Wakeup
import Xv6Slab.Kernel.Log.Space
import Xv6Slab.Kernel.Log.Disk
import Xv6Slab.Kernel.Bio
import Xv6Slab.Kernel.Inodes
import Xv6Slab.Kernel.File
import Xv6Slab.Kernel.Boot
import Xv6Slab.Kernel.Syscalls
import Xv6Slab.Kernel.Window
import Xv6Slab.Kernel.Arena
import Xv6Slab.Kernel.ArenaInit
import Xv6Slab.Kernel.Restore
import Xv6Slab.Kernel.Isolation
import Xv6Slab.Kernel.Pipe
import Xv6Slab.Kernel.Results
import Xv6Slab.Kernel.RoundTrip
import Xv6Slab.Kernel.Vm.Model
import Xv6Slab.Kernel.Vm.Pages
import Xv6Slab.Kernel.Vm.Table
import Xv6Slab.Kernel.Vm.User
import Xv6Slab.Kernel.Vm.Image
import Xv6Slab.Kernel.Vm.Fork
import Xv6Slab.Kernel.Vm.Life
import Xv6Slab.Kernel.Sync.Sleeplock
import Xv6Slab.Kernel.Disk.Requests
import Xv6Slab.Kernel.Fs.Content
import Xv6Slab.User.Wrapper
