import Lonet.Bytes
import Lonet.Xerr
import Lonet.Addr
import Lonet.Quote
import Lonet.Regex
import Lonet.Wire
import Lonet.Handshake
import Lonet.Registry
import Lonet.Virtnet.State
import Lonet.Virtnet.Ops
import Lonet.Virtnet.System
import Lonet.Virtnet.PortTable
import Lonet.Virtnet.Close
import Lonet.Virtnet.NewHost
import Lonet.Virtnet.Frame
import Lonet.Virtnet.Footprint
import Lonet.Virtnet.Accept
import Lonet.Virtnet.Invariant
import Lonet.Virtnet.Preserve
import Lonet.Virtnet.Wake
import Lonet.Virtnet.Down
import Lonet.Virtnet.Agreement
import Lonet.Virtnet.Names
import Lonet.Virtnet.Owned
import Lonet.Virtnet.Resolve
import Lonet.Pool
