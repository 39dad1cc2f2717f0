import Javs.Bounds
import Javs.Network

/-!
The accesses as the code has them.

In places the model says less than the code does: it takes a list apart where the code indexes
it, and where the code keeps an index in bounds the model has a type of indices. Here these
functions stand with the accesses of the code, each of which panics on its own. They return what
the model says.
-/

namespace Javs.Literal

open Bytes

variable {Conn α : Type}

/-! ### Accesses -/

def index (xs : List α) (i : ℕ) : Res α :=
  match xs[i]? with
  | some x => .ok x
  | none => .error (.panic "index out of bounds")

def assign (xs : List α) (i : ℕ) (x : α) : Res (List α) :=
  if i < xs.length then .ok (xs.set i x) else .error (.panic "index out of bounds")

def copyFromSlice (out : Bytes) (i j : ℕ) (src : Bytes) : Res Bytes :=
  if i ≤ j ∧ j ≤ out.length then
    if src.length = j - i then .ok (out.take i ++ src ++ out.drop j)
    else .error (.panic "copy_from_slice: source slice length does not match")
  else .error (.panic "slice index out of range")

def fill (k : ℕ) (src : Bytes) : Res Bytes := copyFromSlice (List.replicate k 0) 0 k src

def subU32 (a b : UInt32) : Res UInt32 :=
  if b ≤ a then .ok (a - b) else .error (.panic "attempt to subtract with overflow")

def shlU64 (x : BitVec 64) (n : ℕ) : Res (BitVec 64) :=
  if n < 64 then .ok (x <<< n) else .error (.panic "attempt to shift left with overflow")

def shlU32 (x : UInt32) (n : ℕ) : Res UInt32 :=
  if n < 32 then .ok (x <<< UInt32.ofNat n)
  else .error (.panic "attempt to shift left with overflow")

/-- A result whose error is only logged. A panic goes on. -/
def caught : Res α → Res (Option α)
  | .ok a => .ok (some a)
  | .error (.bail _) => .ok none
  | .error (.panic msg) => .error (.panic msg)

lemma caught_eq {x : Res α} (h : NoPanic x) : caught x = .ok x.toOption := by
  rcases x with (_ | msg) | _
  · rfl
  · exact absurd rfl (h msg)
  · rfl

lemma index_of_getElem? {xs : List α} {i : ℕ} {x : α} (h : xs[i]? = some x) :
    index xs i = .ok x := by
  rw [index, h]

lemma mapM_index {xs : List α} {i k : ℕ} (h : i + k ≤ xs.length) :
    (List.range' i k).mapM (index xs) = .ok ((xs.drop i).take k) := by
  induction k generalizing i with
  | zero => rfl
  | succ k ih =>
    have hi : i < xs.length := by omega
    rw [List.range'_succ, List.mapM_cons, index_of_getElem? (List.getElem?_eq_getElem hi),
      Res.ok_bind, ih (by omega), Res.ok_bind, List.drop_eq_getElem_cons hi, List.take_succ_cons]
    rfl

lemma slice_zero {b : Bytes} {n : ℕ} (h : n ≤ b.length) : slice b 0 n = .ok (b.take n) :=
  slice_eq_ok.mpr ⟨Nat.zero_le n, h, rfl⟩

lemma fill_eq {src : Bytes} {k : ℕ} (h : src.length = k) : fill k src = .ok src := by
  have hzeros : (List.replicate k (0 : UInt8)).drop k = [] := List.drop_eq_nil_of_le (by simp)
  rw [fill, copyFromSlice, if_pos ⟨Nat.zero_le k, by simp⟩, if_pos (by omega), List.take_zero,
    hzeros, List.append_nil, List.nil_append]

lemma slice_fill {b : Bytes} {i k : ℕ} (h : i + k ≤ b.length) :
    (slice b i (i + k) >>= fill k) = .ok ((b.drop i).take k) := by
  have hlen : ((b.take (i + k)).drop i).length = k := by
    rw [List.length_drop, List.length_take]
    omega
  rw [slice_eq_ok.mpr ⟨by omega, h, rfl⟩, Res.ok_bind, fill_eq hlen, List.drop_take,
    Nat.add_sub_cancel_left]

lemma copyFromSlice_append {done rest src : Bytes} (h : src.length ≤ rest.length) :
    copyFromSlice (done ++ rest) done.length (done.length + src.length) src =
      .ok (done ++ src ++ rest.drop src.length) := by
  rw [copyFromSlice, if_pos ⟨by omega, by rw [List.length_append]; omega⟩, if_pos (by omega),
    List.take_left, List.drop_append, List.drop_eq_nil_of_le (by omega), List.nil_append,
    Nat.add_sub_cancel_left]

/-! ### Receiving -/

section Receive

variable (S : VpnServer Conn) (peer : ℕ → SocketAddr)

def receivePacket (addr : SocketAddr) (transport : Transport) (pkt : Bytes) : Res (List Call) := do
  let first ← index pkt 0
  match ← caught (OpCode.fromU8 (first >>> 3)) with
  | none => return []
  | some op =>
    if op.isData then return [.routeData pkt]
    else
      match ← caught (unwrapControl S pkt) with
      | none => return []
      | some (innerOwned, replayPid) =>
        return [.handleControlPacket addr (innerOwned.getD pkt) replayPid transport]

/-- The receive loop of a transport. `recv_from` fills the buffer as far as it goes, and tells
how far. -/
def receive : Transport → Bytes → Res (List Call)
  | .udp addr, datagram => do
    let n := min datagram.length datagramMax
    let buf := datagram.take n ++ List.replicate (datagramMax - n) 0
    if n = 0 then return []
    else receivePacket S addr (.udp addr) (← slice buf 0 n)
  | .tcp stream, pkt =>
    if pkt.length = 0 then return []
    else receivePacket S (peer stream) (.tcp stream) pkt

lemma noPanic_unwrapControl (pkt : Bytes) : NoPanic (unwrapControl S pkt) := by
  unfold unwrapControl
  rcases S.tlsCrypt with _ | tc
  · rcases S.tlsAuth with _ | ta
    · exact noPanic_ok _
    · exact (noPanic_tlsAuthUnwrap S.prims ta pkt).bind fun _ _ => noPanic_ok _
  · exact (noPanic_tlsCryptUnwrap S.prims tc pkt).bind fun _ _ => noPanic_ok _

variable {S}

lemma receivePacket_cons (addr : SocketAddr) (first : UInt8) (rest : Bytes) :
    ((first :: rest).length ≤ datagramMax → receivePacket S addr (.udp addr) (first :: rest) =
      .ok (receiveDatagram S addr (first :: rest))) ∧
    ∀ stream, receivePacket S addr (.tcp stream) (first :: rest) =
      .ok (receiveFrame S addr stream (first :: rest)) := by
  simp only [receivePacket, index_of_getElem? (List.getElem?_cons_zero (a := first) (l := rest)),
    Res.ok_bind, caught_eq (noPanic_fromU8 _), caught_eq (noPanic_unwrapControl S _),
    receiveDatagram, receiveFrame]
  refine ⟨fun hlen => ?_, fun stream => ?_⟩
  on_goal 1 =>
    rw [List.take_of_length_le hlen]
    dsimp only
  all_goals
    rcases OpCode.fromU8 (first >>> 3) with _ | op
    · rfl
    · dsimp only [Except.toOption]
      split
      · rfl
      · rcases unwrapControl S (first :: rest) with _ | ⟨inner, pid⟩ <;> rfl

lemma receive_eq (transport : Transport) (pkt : Bytes) :
    receive S peer transport pkt = .ok (Javs.receive S peer transport pkt) := by
  rcases transport with addr | stream
  · have htake : pkt.take (min pkt.length datagramMax) = pkt.take datagramMax := by
      rw [Nat.min_comm, ← List.take_take, List.take_length]
    have hlen : (pkt.take datagramMax).length = min pkt.length datagramMax := by
      rw [List.length_take, Nat.min_comm]
    have hslice (zeros : Bytes) : slice (pkt.take datagramMax ++ zeros) 0
        (min pkt.length datagramMax) = .ok (pkt.take datagramMax) :=
      slice_of (x := []) rfl rfl (by rw [hlen, Nat.zero_add])
    have hsame : receiveDatagram S addr (pkt.take datagramMax) = receiveDatagram S addr pkt := by
      rw [receiveDatagram, receiveDatagram, List.take_take, Nat.min_self]
    rw [receive, Javs.receive, ← hsame, htake, hslice]
    rcases hpkt : pkt.take datagramMax with _ | ⟨first, rest⟩ <;> rw [hpkt] at hlen
    · have hzero : min pkt.length datagramMax = 0 := hlen.symm
      rw [if_pos hzero]
      rfl
    · rw [if_neg (by rw [← hlen]; exact Nat.succ_ne_zero _), Res.ok_bind]
      refine (receivePacket_cons addr first rest).1 ?_
      rw [hlen]
      exact Nat.min_le_right _ _
  · rcases pkt with _ | ⟨first, rest⟩
    · rfl
    · exact (receivePacket_cons _ first rest).2 stream

/-- `route_data`, with the first byte it reads for its message. -/
def routeData (s : Server Conn) (pkt : Bytes) : Res (Option Ref) := do
  match ← caught (DataPacketV2.parse pkt) with
  | none =>
    if !pkt.isEmpty then let _op := (← index pkt 0) >>> 3
    return none
  | some dp => return s.dataRoutes dp.peerId

lemma routeData_eq (s : Server Conn) (pkt : Bytes) : routeData s pkt = .ok (s.routeData pkt) := by
  rw [routeData, Server.routeData, caught_eq (noPanic_dataParse pkt), Res.ok_bind]
  rcases DataPacketV2.parse pkt with e | dp
  · rcases pkt with _ | ⟨first, rest⟩ <;> rfl
  · rfl

end Receive

/-! ### Packets from the TUN -/

/-- The destination `forward_tun_to_client` reads. -/
def tunDestination (ipPkt : Bytes) : Res (Option IpAddr) := do
  if ipPkt.isEmpty then return none
  let b ← index ipPkt 0
  if b >>> 4 = 4 then
    if ipPkt.length < 20 then return none
    let octets ← (List.range' 16 4).mapM (index ipPkt)
    return some (.v4 (UInt32.ofNat (ofBe octets)))
  else if b >>> 4 = 6 then
    if ipPkt.length < 40 then return none
    let octets ← slice ipPkt 24 40 >>= fill 16
    return some (.v6 (BitVec.ofNat 128 (ofBe octets)))
  else return none

lemma tunDestination_eq (ipPkt : Bytes) :
    tunDestination ipPkt = .ok (Javs.tunDestination ipPkt) := by
  rcases ipPkt with _ | ⟨b, rest⟩
  · rfl
  rw [tunDestination, Javs.tunDestination, if_neg (by simp),
    index_of_getElem? (List.getElem?_cons_zero (a := b) (l := rest)), Res.ok_bind]
  split
  · by_cases hlen : (b :: rest).length < 20
    · rw [if_pos hlen, if_pos hlen]
      rfl
    · rw [if_neg hlen, if_neg hlen, mapM_index (by omega)]
      rfl
  · split
    · by_cases hlen : (b :: rest).length < 40
      · rw [if_pos hlen, if_pos hlen]
        rfl
      · rw [if_neg hlen, if_neg hlen, slice_fill (i := 24) (k := 16) (Nat.le_of_not_lt hlen)]
        rfl
    · rfl

/-! ### The replay window -/

def checkAndSet (w : ReplayWindow) (packetId : UInt32) : Res (Bool × ReplayWindow) := do
  if packetId = 0 then return (false, w)
  if packetId > w.highest then
    let shift := (← subU32 packetId w.highest).toNat
    if shift ≥ 64 then return (true, ⟨packetId, 1⟩)
    else return (true, ⟨packetId, (← shlU64 w.bitmap shift) ||| 1⟩)
  else
    let diff := (← subU32 w.highest packetId).toNat
    if diff ≥ windowSize then return (false, w)
    let bit ← shlU64 1#64 diff
    if w.bitmap &&& bit ≠ 0 then return (false, w)
    else return (true, { w with bitmap := w.bitmap ||| bit })

lemma checkAndSet_eq (w : ReplayWindow) (packetId : UInt32) :
    checkAndSet w packetId = .ok (w.checkAndSet packetId) := by
  unfold checkAndSet ReplayWindow.checkAndSet
  by_cases h0 : packetId = 0
  · rw [if_pos h0, if_pos h0]
    rfl
  rw [if_neg h0, if_neg h0]
  by_cases hgt : packetId > w.highest
  -- the two subtractions are guarded by the comparison, and each shift by the test before it
  · rw [if_pos hgt, if_pos hgt, subU32, if_pos (UInt32.le_of_lt hgt), Res.ok_bind]
    by_cases hbig : (packetId - w.highest).toNat ≥ 64
    · simp only [if_pos hbig]
      rfl
    · simp only [if_neg hbig, shlU64, if_pos (Nat.lt_of_not_le hbig)]
      rfl
  · have hle : packetId ≤ w.highest := UInt32.not_lt.mp hgt
    rw [if_neg hgt, if_neg hgt, subU32, if_pos hle, Res.ok_bind]
    by_cases hold : (w.highest - packetId).toNat ≥ windowSize
    · simp only [if_pos hold]
      rfl
    · simp only [if_neg hold, shlU64, if_pos (Nat.lt_of_not_le hold : _ < 64), Res.ok_bind]
      by_cases hseen : w.bitmap &&& (1#64 <<< (w.highest - packetId).toNat) ≠ 0
      · rw [if_pos hseen, if_pos hseen]
        rfl
      · rw [if_neg hseen, if_neg hseen]
        rfl

/-! ### The slots -/

structure Slots where
  slots : List (Option KeySlot)
  activeSlotIdx : ℕ

namespace Slots

/-- The slots that the table stands for. -/
def of (t : SlotTable) : Slots := ⟨List.ofFn t.slots, t.activeSlotIdx⟩

variable (s : Slots)

def activeSlot : Res (Option KeySlot) := index s.slots s.activeSlotIdx

def installSlot (slot : KeySlot) : Res Slots := do
  let idx ← checkedSub 1 s.activeSlotIdx
  return { s with slots := ← assign s.slots idx (some slot) }

/-- How `install_prf_slot` ends. -/
def place (slot : KeySlot) : Res Slots := do
  if (← s.activeSlot).isNone then return ⟨← assign s.slots 0 (some slot), 0⟩
  else s.installSlot slot

def promoteSlot (keyId : UInt8) : Bool × Slots :=
  match s.slots.findIdx? (·.map KeySlot.keyId = some keyId) with
  | some idx => (true, { s with activeSlotIdx := idx })
  | none => (false, s)

lemma assign_ofFn {n : ℕ} (f : Fin n → α) (i : Fin n) (x : α) :
    assign (List.ofFn f) i x = .ok (List.ofFn (Function.update f i x)) := by
  rw [assign, if_pos (by simp)]
  refine congrArg Except.ok (List.ext_getElem? fun j => ?_)
  rw [List.getElem?_set, List.length_ofFn, List.getElem?_ofFn, List.getElem?_ofFn]
  by_cases hij : (i : ℕ) = j
  · subst hij
    simp
  · rw [if_neg hij]
    split
    · rw [Function.update_of_ne fun h => hij (congrArg Fin.val h).symm]
    · rfl

lemma of_activeSlot (t : SlotTable) : (of t).activeSlot = .ok t.activeSlot := by
  refine index_of_getElem? ?_
  rw [of, List.getElem?_ofFn, dif_pos t.activeSlotIdx.isLt]
  rfl

lemma of_installSlot (t : SlotTable) (slot : KeySlot) :
    (of t).installSlot slot = .ok (of (t.installSlot slot)) := by
  have hother : ∀ i : Fin 2, 1 - (i : ℕ) = (1 - i : Fin 2) := by decide
  have hle : (t.activeSlotIdx : ℕ) ≤ 1 := Nat.le_of_lt_succ t.activeSlotIdx.isLt
  simp only [of, installSlot, checkedSub_of hle, Res.ok_bind, hother t.activeSlotIdx, assign_ofFn]
  rfl

lemma of_place (t : SlotTable) (slot : KeySlot) :
    (of t).place slot = .ok (of (t.place slot)) := by
  rw [place, of_activeSlot, Res.ok_bind, SlotTable.place]
  rcases t.activeSlot with _ | old
  · have h : assign (of t).slots 0 (some slot) = .ok _ :=
      assign_ofFn t.slots SlotTable.empty.activeSlotIdx (some slot)
    rw [if_pos Option.isNone_none, h]
    rfl
  · exact of_installSlot t slot

lemma of_promoteSlot (t : SlotTable) (keyId : UInt8) :
    (of t).promoteSlot keyId = ((t.promoteSlot keyId).1, of (t.promoteSlot keyId).2) := by
  have hslots : (of t).slots = [t.slots 0, t.slots 1] := by simp [of]
  rw [promoteSlot, SlotTable.promoteSlot, SlotTable.position, hslots, List.findIdx?_cons,
    List.findIdx?_cons, List.findIdx?_nil]
  by_cases h0 : (t.slots 0).map KeySlot.keyId = some keyId
  · rw [if_pos h0, if_pos (decide_eq_true h0)]
    rfl
  rw [if_neg h0, if_neg (by simpa using h0)]
  by_cases h1 : (t.slots 1).map KeySlot.keyId = some keyId
  · rw [if_pos h1, if_pos (decide_eq_true h1)]
    rfl
  · rw [if_neg h1, if_neg (by simpa using h1)]
    rfl

end Slots

/-! ### Key derivation -/

section Keys

variable (hmac : Bytes → Bytes → Bytes) (p : Primitives)

/-- The loop of `p_hash` on its buffer, of which `written` bytes are done. -/
def pHashLoop (secret seed : Bytes) : ℕ → Bytes → ℕ → Bytes → Res Bytes
  | 0, _, _, out => return out
  | fuel + 1, a, written, out => do
    if written < out.length then
      let block := hmac secret (a ++ seed)
      let n := min block.length (← checkedSub out.length written)
      let out ← copyFromSlice out written (written + n) (← slice block 0 n)
      pHashLoop secret seed fuel (hmac secret a) (written + n) out
    else return out

def pHash (secret seed : Bytes) (n : ℕ) : Res Bytes :=
  pHashLoop hmac secret seed n (hmac secret seed) 0 (List.replicate n 0)

def tls10Prf (secret label seed : Bytes) (n : ℕ) : Res Bytes := do
  let half := (secret.length + 1) / 2
  let s1 ← slice secret 0 half
  let s2 ← sliceFrom secret (← checkedSub secret.length half)
  let md5Out ← pHash p.hmacMd5 s1 (label ++ seed) n
  let sha1Out ← pHash p.hmacSha1 s2 (label ++ seed) n
  return List.zipWith (· ^^^ ·) md5Out sha1Out

def deriveOpenvpnKeyData (preMaster clientRandom1 serverRandom1 clientRandom2 serverRandom2
    clientSid serverSid : Bytes) : Res Bytes := do
  let master ← tls10Prf p preMaster masterLabel (clientRandom1 ++ serverRandom1) masterLen
  tls10Prf p master keyExpLabel (clientRandom2 ++ serverRandom2 ++ clientSid ++ serverSid)
    keymatLen

def fromKeymatServer (km : Bytes) : Res DataCipher := do
  let slot := 64
  let clientEnc ← slice km 0 (0 + keySize) >>= fill keySize
  let clientIv ← slice km slot (slot + implicitIvSize) >>= fill implicitIvSize
  let serverEnc ← slice km (slot * 2) (slot * 2 + keySize) >>= fill keySize
  let serverIv ← slice km (slot * 3) (slot * 3 + implicitIvSize) >>= fill implicitIvSize
  return ⟨serverEnc, clientEnc, serverIv, clientIv⟩

lemma fromKeymatServer_eq {km : Bytes} (h : km.length = keymatLen) :
    fromKeymatServer km = .ok (.fromKeymatServer km) := by
  have hread (i k : ℕ) (hik : i + k ≤ 256) : (slice km i (i + k) >>= fill k) =
      .ok ((km.drop i).take k) := slice_fill (h ▸ hik)
  rw [fromKeymatServer, hread 0 keySize (by decide), hread _ implicitIvSize (by decide),
    hread _ keySize (by decide), hread _ implicitIvSize (by decide)]
  rfl

variable {hmac}

lemma pHashLoop_eq (hpos : ∀ k m, hmac k m ≠ []) (secret seed : Bytes) (fuel : ℕ) (a : Bytes)
    (done rest : Bytes) (hfuel : rest.length ≤ fuel) :
    pHashLoop hmac secret seed fuel a done.length (done ++ rest) =
      .ok (Javs.pHashLoop hmac secret seed (done.length + rest.length) fuel a done) := by
  induction fuel generalizing a done rest with
  | zero =>
    rw [List.eq_nil_of_length_eq_zero (Nat.le_zero.mp hfuel), List.append_nil]
    rfl
  | succ fuel ih =>
    rw [pHashLoop, Javs.pHashLoop, List.length_append]
    by_cases hrest : rest = []
    · subst hrest
      rw [if_neg (by simp), if_neg (by simp), List.append_nil]
      rfl
    have hlen : 0 < rest.length := List.length_pos_iff.mpr hrest
    rw [if_pos (by omega), if_pos (by omega), checkedSub_of (by omega), Res.ok_bind,
      Nat.add_sub_cancel_left]
    -- what is written is the part of the block that still fits in the buffer
    generalize hblock : hmac secret (a ++ seed) = block
    have hblen : 0 < block.length := List.length_pos_iff.mpr (hblock ▸ hpos _ _)
    have htake : block.take rest.length = block.take (min block.length rest.length) := by
      rw [List.take_eq_take_min, Nat.min_comm]
    have hsrc : (block.take rest.length).length = min block.length rest.length := by
      rw [List.length_take, Nat.min_comm]
    dsimp only
    rw [slice_zero (Nat.min_le_left _ _), Res.ok_bind, ← htake, ← hsrc,
      copyFromSlice_append (by rw [hsrc]; exact Nat.min_le_right _ _), Res.ok_bind,
      ← List.length_append]
    rw [ih (hmac secret a) (done ++ block.take rest.length) _ (by rw [List.length_drop]; omega)]
    congr 2
    rw [List.length_append, List.length_drop, hsrc]
    omega

lemma pHash_eq (hpos : ∀ k m, hmac k m ≠ []) (secret seed : Bytes) (n : ℕ) :
    pHash hmac secret seed n = .ok (Javs.pHash hmac secret seed n) := by
  have h := pHashLoop_eq hpos secret seed n (hmac secret seed) [] (List.replicate n 0)
    (List.length_replicate ..).le
  rwa [List.length_replicate, List.length_nil, Nat.zero_add] at h

variable {p}

lemma tls10Prf_eq (hp : p.Sized) (secret label seed : Bytes) (n : ℕ) :
    tls10Prf p secret label seed n = .ok (Javs.tls10Prf p secret label seed n) := by
  have hhalf : (secret.length + 1) / 2 ≤ secret.length := by omega
  have hs2 : sliceFrom secret (secret.length - (secret.length + 1) / 2) =
      .ok (secret.drop (secret.length - (secret.length + 1) / 2)) :=
    slice_eq_ok.mpr ⟨Nat.sub_le _ _, Nat.le_refl _, by rw [List.take_length]⟩
  simp only [tls10Prf, slice_zero hhalf, checkedSub_of hhalf, hs2, Res.ok_bind,
    pHash_eq hp.hmacMd5_ne_nil _ _ n, pHash_eq hp.hmacSha1_ne_nil _ _ n]
  rfl

lemma deriveOpenvpnKeyData_eq (hp : p.Sized) (preMaster c1 s1 c2 s2 clientSid serverSid : Bytes) :
    deriveOpenvpnKeyData p preMaster c1 s1 c2 s2 clientSid serverSid =
      .ok (Javs.deriveOpenvpnKeyData p preMaster c1 s1 c2 s2 clientSid serverSid) := by
  rw [deriveOpenvpnKeyData, tls10Prf_eq hp, Res.ok_bind, tls10Prf_eq hp]
  rfl

end Keys

/-! ### Envelopes and messages -/

section Messages

variable {p : Primitives}

def computeHmac (p : Primitives) (key : Bytes) (op : UInt8) (sessionId : Bytes)
    (replayPid timestamp : UInt32) (body : Bytes) : Res Bytes :=
  fill TlsAuthKey.hmacLen
    (p.hmacSha256 key (TlsAuthKey.composeHmacInput op sessionId replayPid timestamp body))

lemma computeHmac_eq (hp : p.Sized) (key : Bytes) (op : UInt8) (sessionId : Bytes)
    (replayPid timestamp : UInt32) (body : Bytes) :
    computeHmac p key op sessionId replayPid timestamp body =
      .ok (TlsAuthKey.computeHmac p key op sessionId replayPid timestamp body) :=
  fill_eq (hp.sha256 _ _)

def tlsCryptWrap (p : Primitives) (k : TlsCryptKey) (inner : Bytes)
    (packetId timestamp : UInt32) : Res Bytes := do
  if inner.length < 9 then
    throw (.bail s!"tls-crypt: inner control packet too short ({inner.length})")
  let (op, _) ← getU8 inner
  let sessionId ← slice inner 1 9
  let body ← sliceFrom inner 9
  let header := [op] ++ sessionId ++ putU32 packetId ++ putU32 timestamp
  let tag := p.hmacSha256 k.encHmacKey (header ++ body)
  let iv ← slice tag 0 16
  return header ++ tag ++ p.aesCtr k.encCipherKey iv body

lemma tlsCryptWrap_eq (hp : p.Sized) (k : TlsCryptKey) (inner : Bytes)
    (packetId timestamp : UInt32) :
    tlsCryptWrap p k inner packetId timestamp = k.wrap p inner packetId timestamp := by
  have hiv (m : Bytes) : slice (p.hmacSha256 k.encHmacKey m) 0 16 =
      .ok ((p.hmacSha256 k.encHmacKey m).take 16) := slice_zero (by rw [hp.sha256]; omega)
  simp only [tlsCryptWrap, TlsCryptKey.wrap, hiv, Res.ok_bind]

def tryPopAscii (buf : Bytes) : Res (Pop Text) :=
  match buf.findIdx? (· = 0) with
  | some idx => do return .ready (fromUtf8Lossy (← slice buf 0 idx)) (idx + 1)
  | none => return .needMore

lemma tryPopAscii_eq (buf : Bytes) : tryPopAscii buf = .ok (Javs.tryPopAscii buf) := by
  unfold tryPopAscii Javs.tryPopAscii
  generalize hidx : buf.findIdx? (· = 0) = found
  rcases found with _ | idx
  · rfl
  · have hlt := (List.findIdx?_eq_some_iff_getElem.mp hidx).1
    dsimp only
    rw [slice_zero (Nat.le_of_lt hlt)]
    rfl

def cidrToRoute (cidr : Text) : Res (Option (Text × Text)) := do
  match cidr.findIdx? (· = '/') with
  | none => return none
  | some idx =>
    match parseU32 (cidr.drop (idx + 1)) with
    | none => return none
    | some bits =>
      if bits > 32 then return none
      else if bits = 0 then return some (cidr.take idx, Ipv4Addr.show 0)
      else
        let mask ← shlU32 0xFFFFFFFF (← checkedSub 32 bits)
        return some (cidr.take idx, Ipv4Addr.show mask)

lemma cidrToRoute_eq (cidr : Text) : cidrToRoute cidr = .ok (Javs.cidrToRoute cidr) := by
  unfold cidrToRoute Javs.cidrToRoute
  rcases cidr.findIdx? (· = '/') with _ | idx
  · rfl
  dsimp only
  rcases hbits : parseU32 (cidr.drop (idx + 1)) with _ | bits
  · simp [hbits]
    rfl
  simp only [Option.bind_eq_bind, Option.bind_some, hbits]
  by_cases hbig : bits > 32
  · rw [if_pos hbig, if_pos hbig]
    rfl
  rw [if_neg hbig, if_neg hbig]
  by_cases hzero : bits = 0
  · rw [if_pos hzero, if_pos hzero]
    rfl
  · rw [if_neg hzero, if_neg hzero, checkedSub_of (by omega), Res.ok_bind, shlU32,
      if_pos (by omega)]
    rfl

end Messages

/-- On every input the functions of the code return what those of the model do. -/
structure InBounds (p : Primitives) : Prop where
  replay : ∀ w packetId, checkAndSet w packetId = .ok (w.checkAndSet packetId)
  activeSlot : ∀ t, (Slots.of t).activeSlot = .ok t.activeSlot
  installSlot : ∀ t slot, (Slots.of t).installSlot slot = .ok (.of (t.installSlot slot))
  place : ∀ t slot, (Slots.of t).place slot = .ok (.of (t.place slot))
  promoteSlot : ∀ t keyId,
    (Slots.of t).promoteSlot keyId = ((t.promoteSlot keyId).1, .of (t.promoteSlot keyId).2)
  keyData : ∀ preMaster c1 s1 c2 s2 clientSid serverSid,
    (deriveOpenvpnKeyData p preMaster c1 s1 c2 s2 clientSid serverSid >>= fromKeymatServer) =
      .ok (.fromKeymatServer
        (Javs.deriveOpenvpnKeyData p preMaster c1 s1 c2 s2 clientSid serverSid))
  hmac : ∀ key op sessionId replayPid timestamp body,
    computeHmac p key op sessionId replayPid timestamp body =
      .ok (TlsAuthKey.computeHmac p key op sessionId replayPid timestamp body)
  wrap : ∀ (k : TlsCryptKey) inner packetId timestamp,
    tlsCryptWrap p k inner packetId timestamp = k.wrap p inner packetId timestamp
  pop : ∀ buf, tryPopAscii buf = .ok (Javs.tryPopAscii buf)
  route : ∀ cidr, cidrToRoute cidr = .ok (Javs.cidrToRoute cidr)

lemma inBounds {p : Primitives} (hp : p.Sized) : InBounds p where
  replay := checkAndSet_eq
  activeSlot := Slots.of_activeSlot
  installSlot := Slots.of_installSlot
  place := Slots.of_place
  promoteSlot := Slots.of_promoteSlot
  keyData preMaster c1 s1 c2 s2 clientSid serverSid := by
    rw [deriveOpenvpnKeyData_eq hp, Res.ok_bind,
      fromKeymatServer_eq (length_deriveOpenvpnKeyData hp ..)]
  hmac := computeHmac_eq hp
  wrap := tlsCryptWrap_eq hp
  pop := tryPopAscii_eq
  route := cidrToRoute_eq

end Javs.Literal
