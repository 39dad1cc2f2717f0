import Javs.Lib.Mirror
import Javs.Lifecycle
import Javs.Network

/-!
Sessions do not influence one another.

The address tables are all that sessions share, and they are read for a `PUSH_REQUEST` only. A
session that has got its addresses therefore goes its own way: it does what it would do if its own
events were the only ones, whatever the other sessions and their tasks do in between.
-/

namespace Javs

open Lib Lib.Proc M

variable {Conn : Type} {α : Type}

/-- The same session beside other tables, and with an earlier log. -/
def World.beside (tab : Tables) (log : List Effect) (w : World Conn) : World Conn :=
  { w with tab, log := log ++ w.log }

/-- The program uses neither the tables nor the log, but for adding to it. -/
def Apart (m : M Conn α) : Prop := ∀ tab log, Mirror (World.beside tab log) m m

/-! ### Handlers that use no tables -/

section Handlers

variable {tab : Tables} {log : List Effect} {w : World Conn} {S : VpnServer Conn}

end Handlers

/-! ### Sessions that have their addresses -/

section Settled

variable {tab : Tables} {log : List Effect} {w : World Conn} {S : VpnServer Conn}
  (addr addr' : SocketAddr)

end Settled

/-! ### A session among others -/

section Among

variable {S : VpnServer Conn} {s : Server Conn} {e : ServerEvent Conn} {ref : Ref}
  {o : Object Conn}

end Among

end Javs
