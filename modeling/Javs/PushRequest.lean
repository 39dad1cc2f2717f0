import Javs.Addresses
import Javs.Lifecycle
import Javs.Pool

/-!
`PUSH_REQUEST`s that fail.

A request first takes an IPv4 address, enters it and routes it, and then asks for an IPv6
address. If there is none, the request fails, and what was done for IPv4 stays. The client asks
again, and gets another address, or is told that its own static one is in use. As long as the
IPv6 pool has an address left, a request that fails has done nothing.
-/

namespace Javs

open Lib Lib.Proc M Relation

variable {Conn : Type}

/-! ### One request -/

def RoomV6 (S : VpnServer Conn) (tab : Tables) : Prop :=
  match tab.nextPoolIpV6, S.poolEndV6 with
  | none, _ => True
  | some _, none => False
  | some ip, some poolEnd => ip ≤ poolEnd

section Request

variable {S : VpnServer Conn} (addr : SocketAddr) {w : World Conn}

end Request

/-! ### Requests over the life of a session -/

/-- At most one IPv4 route leads to the session, and none before it is established. -/
structure Tidy (addr : SocketAddr) (w : World Conn) : Prop where
  one : ∀ ip ip', w.tab.routes ip = some addr → w.tab.routes ip' = some addr → ip = ip'
  early : w.sess.state.early = true → ∀ ip, w.tab.routes ip ≠ some addr

/-- Tidy, and as long as the session may be given addresses the IPv6 pool has one. -/
def Provided (S : VpnServer Conn) (addr : SocketAddr) (w : World Conn) : Prop :=
  Tidy addr w ∧ (w.sess.state.early = true → RoomV6 S w.tab)

section Session

variable {S : VpnServer Conn} {addr : SocketAddr} {w w' : World Conn}

lemma Tidy.keep (h : Tidy addr w) (htab : w'.tab = w.tab)
    (hst : w'.sess.state.early = true → w.sess.state.early = true) : Tidy addr w' :=
  ⟨by rw [htab]; exact h.one, fun he => by rw [htab]; exact h.early (hst he)⟩

lemma Provided.keep (h : Provided S addr w) (htab : w'.tab = w.tab)
    (hst : w'.sess.state.early = true → w.sess.state.early = true) : Provided S addr w' :=
  ⟨h.1.keep htab hst, fun he => by rw [htab]; exact h.2 (hst he)⟩

end Session

end Javs
