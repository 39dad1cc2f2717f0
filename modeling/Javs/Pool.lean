import Javs.Lib.Cursor
import Javs.Server

/-!
The two address pools.

Both allocators are cursors on machine words, of 32 and of 128 bits. What they hand out is
lawful for every range but those that end at the very last address: there the cursor wraps
around, and the test against the end of the pool never fails.
-/

namespace Javs

open Lib Proc

variable {Conn : Type} {S : VpnServer Conn} {p : Pools} {w : World Conn}

/-- The server has the pools that `VpnServer::new` makes of its configuration. -/
structure VpnServer.Built (S : VpnServer Conn) (p : Pools) : Prop where
  pools : S.cfg.pools = .ok p
  poolEnd : S.poolEnd = p.stop
  poolEndV6 : S.poolEndV6 = p.v6.map Prod.snd

lemma allocateIp_eq (S : VpnServer Conn) (w : World Conn) : allocateIp S w =
    if w.tab.nextPoolIp > S.poolEnd then (.error (.bail "client IP pool exhausted"), w)
    else (.ok w.tab.nextPoolIp,
      { w with tab := { w.tab with nextPoolIp := w.tab.nextPoolIp + 1 } }) := by
  simp only [allocateIp, get_bind]
  split <;> rfl

lemma allocateIp_handOut (S : VpnServer Conn) (w : World Conn) :
    ((allocateIp S w).1.toOption.bind fun ip => some ip.toNat,
      (allocateIp S w).2.tab.nextPoolIp.toNat) =
      handOut (2 ^ 32) S.poolEnd.toNat w.tab.nextPoolIp.toNat := by
  rw [allocateIp_eq]
  by_cases h : w.tab.nextPoolIp > S.poolEnd
  · rw [if_pos h, handOut_of_lt (UInt32.lt_iff_toNat_lt.mp h)]
    rfl
  · rw [if_neg h, handOut_of_le (UInt32.le_iff_toNat_le.mp (UInt32.not_lt.mp h))]
    simp [Except.toOption, UInt32.toNat_add]

lemma allocateIpV6_eq {hi : Ipv6Addr} (hS : S.poolEndV6 = some hi) {ip : Ipv6Addr}
    (hw : w.tab.nextPoolIpV6 = some ip) : allocateIpV6 S w =
      if ip > hi then (.error (.bail "client IPv6 pool exhausted"), w)
      else (.ok (some ip), { w with tab := { w.tab with nextPoolIpV6 := some (ip + 1) } }) := by
  simp only [allocateIpV6, get_bind, hw, hS]
  split <;> rfl

def Tables.cursorV6 (tab : Tables) : ℕ := (tab.nextPoolIpV6.map BitVec.toNat).getD 0

lemma allocateIpV6_handOut {hi : Ipv6Addr} (hS : S.poolEndV6 = some hi)
    (hw : w.tab.nextPoolIpV6.isSome) : (allocateIpV6 S w).2.tab.nextPoolIpV6.isSome ∧
      ((allocateIpV6 S w).1.toOption.bind (Option.map BitVec.toNat),
        (allocateIpV6 S w).2.tab.cursorV6) =
      handOut (2 ^ 128) hi.toNat w.tab.cursorV6 := by
  obtain ⟨ip, hip⟩ := Option.isSome_iff_exists.mp hw
  rw [allocateIpV6_eq hS hip]
  have hcur : w.tab.cursorV6 = ip.toNat := by rw [Tables.cursorV6, hip]; rfl
  by_cases h : ip > hi
  · rw [if_pos h, hcur, handOut_of_lt (BitVec.lt_def.mp h)]
    exact ⟨hw, by rw [← hcur]; rfl⟩
  · rw [if_neg h, hcur, handOut_of_le (BitVec.le_def.mp (BitVec.not_lt.mp h))]
    exact ⟨rfl, by simp [Except.toOption, Tables.cursorV6, BitVec.toNat_add]⟩

/-- **The pools are lawful.** From the start of the server on, and however often they are called,
the two allocators keep to their ranges, hand out no address twice and fail once all addresses
have been handed out, exactly if neither range ends at the last address there is. -/
theorem allocators_lawful (hS : S.Built p) (hw : w.tab = (Server.new p : Server Conn).tab) :
    ((∀ n, LawfulRange p.start.toNat p.stop.toNat
        ((calls (allocateIp S) n w).map (·.bind fun ip => some ip.toNat))) ∧
      ∀ lo hi, p.v6 = some (lo, hi) → ∀ n, LawfulRange lo.toNat hi.toNat
        ((calls (allocateIpV6 S) n w).map (·.bind (Option.map BitVec.toNat)))) ↔
      p.stop ≠ 0xFFFFFFFF ∧ ∀ lo hi, p.v6 = some (lo, hi) → hi ≠ BitVec.allOnes 128 := by
  refine and_congr ?_
    (forall_congr' fun lo => forall_congr' fun hi => imp_congr_right fun hv6 => ?_)
  · have hcalls (n : ℕ) : (calls (allocateIp S) n w).map (·.bind fun ip => some ip.toNat) =
        handOuts (2 ^ 32) p.stop.toNat n p.start.toNat := by
      rw [calls_eq_handOuts (I := fun _ => True) (fun u => u.tab.nextPoolIp.toNat)
        (fun u _ => ⟨trivial, allocateIp_handOut S u⟩) trivial, hS.poolEnd, hw]
      rfl
    simp only [hcalls]
    rw [lawful_handOuts p.stop.toNat_lt p.start.toNat_lt, ← UInt32.toNat_inj.ne]
    have htop : (0xFFFFFFFF : UInt32).toNat + 1 = 2 ^ 32 := rfl
    omega
  · have hstop : S.poolEndV6 = some hi := by rw [hS.poolEndV6, hv6]; rfl
    have hcur : w.tab.nextPoolIpV6 = some lo := by
      rw [hw]
      simp [Server.new, hv6]
    have hcalls (n : ℕ) : (calls (allocateIpV6 S) n w).map (·.bind (Option.map BitVec.toNat)) =
        handOuts (2 ^ 128) hi.toNat n lo.toNat := by
      rw [calls_eq_handOuts (I := fun u => u.tab.nextPoolIpV6.isSome) (fun u => u.tab.cursorV6)
        (fun u hu => allocateIpV6_handOut hstop hu) (by rw [hcur]; rfl), Tables.cursorV6, hcur]
      rfl
    simp only [hcalls]
    rw [lawful_handOuts hi.isLt lo.isLt, ← BitVec.toNat_inj.ne]
    have htop : (BitVec.allOnes 128).toNat + 1 = 2 ^ 128 := by decide
    omega

lemma built_plainServer : plainServer.Built plainPools := ⟨rfl, rfl, rfl⟩

def poolWorld (p : Pools) : World Plain :=
  { started plainServer plainOpening with tab := (Server.new p : Server Plain).tab }

theorem allocators_lawful_plain :
    calls (allocateIp plainServer) 2 (poolWorld plainPools) = [some 0x0A08000A, some 0x0A08000B] ∧
      ∀ n, LawfulRange 0x0A08000A 0x0A0800FA ((calls (allocateIp plainServer) n
        (poolWorld plainPools)).map (·.bind fun ip => some ip.toNat)) :=
  ⟨by decide +kernel, ((allocators_lawful built_plainServer rfl).mpr
    ⟨by decide, by simp [plainPools]⟩).1⟩

def topPools : Pools :=
  ⟨0xFFFFFFFE, 0xFFFFFFFF, some (BitVec.allOnes 128 - 1, BitVec.allOnes 128)⟩

def topServer : VpnServer Plain :=
  { plainServer with
    cfg := { plainServer.cfg with
      clientPoolStart := .v4 0xFFFFFFFE
      clientPoolEnd := .v4 0xFFFFFFFF
      tunIp6 := some (.v6 1)
      clientPoolStartV6 := some (.v6 (BitVec.allOnes 128 - 1))
      clientPoolEndV6 := some (.v6 (BitVec.allOnes 128)) }
    poolEnd := 0xFFFFFFFF
    poolEndV6 := some (BitVec.allOnes 128) }

/-- A pool of the last two addresses goes on with the first one there is. -/
theorem cursor_wraps : topServer.Built topPools ∧
    calls (allocateIp topServer) 3 (poolWorld topPools) =
      [some 0xFFFFFFFE, some 0xFFFFFFFF, some 0] ∧
    calls (allocateIpV6 topServer) 3 (poolWorld topPools) =
      [some (some (BitVec.allOnes 128 - 1)), some (some (BitVec.allOnes 128)), some (some 0)] :=
  ⟨⟨rfl, rfl, rfl⟩, by decide +kernel, by decide +kernel⟩

end Javs
