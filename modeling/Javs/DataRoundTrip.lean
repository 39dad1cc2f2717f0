import Javs.Bounds
import Javs.React

/-!
Data packets between the server and the mirrored peer: what one end seals, the other opens.
-/

namespace Javs

open Lib Bytes M Proc

/-- What is assumed of AES-256-GCM: a text that is encrypted gets a 16-byte tag, and decrypts
under the same key, nonce and associated data. -/
def Primitives.Decrypts (p : Primitives) : Prop :=
  ∀ k n a text ct, k.length = keySize → n.length = 12 → p.gcmEncrypt k n a text = some ct →
    ct.length = text.length + tagSize ∧ p.gcmDecrypt k n a ct = some text

/-! ### Ciphers -/

namespace DataCipher

def mirror (c : DataCipher) : DataCipher := ⟨c.decKey, c.encKey, c.decIv, c.encIv⟩

structure Sized (c : DataCipher) : Prop where
  encKey : c.encKey.length = keySize
  decKey : c.decKey.length = keySize
  encIv : c.encIv.length = implicitIvSize
  decIv : c.decIv.length = implicitIvSize

lemma sized_fromKeymatServer {km : Bytes} (h : km.length = keymatLen) :
    (fromKeymatServer km).Sized := by
  constructor <;> simp [fromKeymatServer, h, keymatLen, keySize, implicitIvSize]

lemma sized_of_derives {p : Primitives} (hp : p.Sized) {c : DataCipher} (h : p.Derives c) :
    c.Sized := by
  obtain ⟨preMaster, c1, s1, c2, s2, clientSid, serverSid, rfl⟩ := h
  exact sized_fromKeymatServer (length_deriveOpenvpnKeyData hp ..)

lemma Sized.mirror {c : DataCipher} (h : c.Sized) : c.mirror.Sized :=
  ⟨h.decKey, h.encKey, h.decIv, h.encIv⟩

variable {p : Primitives} (hp : p.Decrypts) {c : DataCipher} (hc : c.Sized)
  (pid : UInt32) (aad text : Bytes)

include hp hc

lemma length_of_gcmEncrypt {ct : Bytes}
    (h : p.gcmEncrypt c.encKey (c.sealNonce pid) aad text = some ct) :
    ct.length = text.length + tagSize ∧
      p.gcmDecrypt c.encKey (c.sealNonce pid) aad ct = some text :=
  hp _ _ _ _ _ hc.encKey (by simp [sealNonce, hc.encIv, implicitIvSize]) h

lemma seal'_eq_error {e : Err} (h : c.seal' p pid aad text = .error e) :
    p.gcmEncrypt c.encKey (c.sealNonce pid) aad text = none := by
  rcases hct : p.gcmEncrypt c.encKey (c.sealNonce pid) aad text with _ | ct
  · rfl
  · have hlen := (length_of_gcmEncrypt hp hc pid aad text hct).1
    simp only [seal', hct] at h
    rw [if_neg (by omega)] at h
    cases h

lemma open'_of_seal' {wire : Bytes} (h : c.seal' p pid aad text = .ok wire) :
    c.mirror.open' p pid aad wire = .ok text := by
  rcases hct : p.gcmEncrypt c.encKey (c.sealNonce pid) aad text with _ | ct
  · simp only [seal', hct] at h
    cases h
  obtain ⟨hlen, hdec⟩ := length_of_gcmEncrypt hp hc pid aad text hct
  simp only [seal', hct] at h
  rw [if_neg (by omega)] at h
  obtain rfl := Except.ok.inj h
  -- The tag goes in front of the ciphertext, and back behind it.
  have htag : (ct.drop (ct.length - tagSize)).length = tagSize := by simp; omega
  have hswap : (ct.drop (ct.length - tagSize) ++ ct.take (ct.length - tagSize)).drop tagSize ++
      (ct.drop (ct.length - tagSize) ++ ct.take (ct.length - tagSize)).take tagSize = ct := by
    rw [List.drop_left' htag, List.take_left' htag, List.take_append_drop]
  have hnonce : c.mirror.openNonce pid = c.sealNonce pid := rfl
  rw [open'_of_le p _ pid aad (by simp; omega), hswap, hnonce,
    show c.mirror.decKey = c.encKey from rfl, hdec]

end DataCipher

/-! ### The data header -/

/-- The low three bytes of a peer id, as the header carries them. -/
def carriedPeerId (peerId : UInt32) : UInt32 :=
  UInt32.ofNat (ofBe [(peerId >>> 16).toUInt8, (peerId >>> 8).toUInt8, peerId.toUInt8])

lemma carriedPeerId_eq {peerId : UInt32} (h : peerId < 0x1000000) :
    carriedPeerId peerId = peerId := by
  have hlt : peerId.toNat < 16777216 := h
  have h16 : (peerId >>> 16).toNat = peerId.toNat / 65536 := by
    rw [UInt32.toNat_shiftRight]
    exact Nat.shiftRight_eq_div_pow peerId.toNat 16
  have h8 : (peerId >>> 8).toNat = peerId.toNat / 256 := by
    rw [UInt32.toNat_shiftRight]
    exact Nat.shiftRight_eq_div_pow peerId.toNat 8
  apply UInt32.toNat_inj.mp
  simp only [carriedPeerId, ofBe, List.foldl_cons, List.foldl_nil, UInt32.toNat_toUInt8, h16, h8,
    UInt32.toNat_ofNat']
  omega

lemma length_dataHeader (peerId : UInt32) (keyId : UInt8) (pid : UInt32) :
    (Session.dataHeader peerId keyId pid).length = 8 := by
  simp [Session.dataHeader]

lemma parse_dataHeader {keyId : UInt8} (hkey : keyId < 8) (peerId pid : UInt32) (ct : Bytes) :
    DataPacketV2.parse (Session.dataHeader peerId keyId pid ++ ct) =
      .ok ⟨keyId, carriedPeerId peerId, pid, ct⟩ := by
  have hlen : ¬ (Session.dataHeader peerId keyId pid ++ ct).length < 8 := by
    simp [length_dataHeader]
  have hpeer (x y z : UInt8) (r : Bytes) : advance 3 (x :: y :: z :: r) = .ok ([x, y, z], r) :=
    advance_eq_ok.mpr ⟨rfl, rfl⟩
  simp only [DataPacketV2.parse, if_neg hlen]
  simp only [Session.dataHeader, List.cons_append, List.nil_append, getU8_eq_ok.mpr rfl,
    Res.ok_bind, pack_high (OpCode.toU8_lt .dataV2), pack_low (OpCode.toU8_lt .dataV2) hkey,
    ne_eq, not_true, if_false, hpeer, getU32_putU32]
  rfl

/-! ### Both directions -/

section

variable {Conn : Type} {S : VpnServer Conn}

variable (hp : S.prims.Decrypts) {slot : KeySlot} (hc : slot.cipher.Sized) (hkey : slot.keyId < 8)
  (w : World Conn) (plaintext : Bytes)

include hp hc hkey

lemma buildDataPacket_roundTrip (hs : w.sess.activeSlot = some slot)
    (hpeer : w.sess.peerId < 0x1000000) :
    match buildDataPacket S plaintext w with
    | (.ok bytes, w') =>
      DataPacketV2.parse bytes =
        .ok ⟨slot.keyId, w.sess.peerId, slot.dataPidOut, bytes.drop 8⟩ ∧
      slot.cipher.mirror.open' S.prims slot.dataPidOut (bytes.take 8) (bytes.drop 8) =
        .ok plaintext ∧
      w'.sess.activeSlot = some { slot with dataPidOut := slot.dataPidOut + 1 }
    | (.error _, _) =>
      S.prims.gcmEncrypt slot.cipher.encKey (slot.cipher.sealNonce slot.dataPidOut)
        (Session.dataHeader w.sess.peerId slot.keyId slot.dataPidOut) plaintext = none := by
  have hlen := length_dataHeader w.sess.peerId slot.keyId slot.dataPidOut
  have hparse := parse_dataHeader hkey w.sess.peerId slot.dataPidOut
  unfold buildDataPacket
  rw [get_bind]
  simp only [hs]
  rw [put_bind]
  generalize Session.dataHeader w.sess.peerId slot.keyId slot.dataPidOut = header at hlen hparse ⊢
  -- the packet id is used up before sealing, whether or not AES-GCM encrypts
  rcases hct : slot.cipher.seal' S.prims slot.dataPidOut header plaintext with e | ct
  · exact DataCipher.seal'_eq_error hp hc _ _ _ hct
  · have hopen := DataCipher.open'_of_seal' hp hc _ _ _ hct
    rw [bind_ok (ofExcept_apply _ _)]
    simp only [pure_apply]
    rw [List.drop_left' hlen, List.take_left' hlen, hparse, carriedPeerId_eq hpeer]
    refine ⟨rfl, hopen, ?_⟩
    simp [SlotTable.activeSlot, SlotTable.setSlot]

lemma opens_of_peer (hs : w.sess.slotByKeyId slot.keyId = some slot)
    {peerId pid : UInt32} {wire : Bytes}
    (hseal : slot.cipher.mirror.seal' S.prims pid (Session.dataHeader peerId slot.keyId pid)
      plaintext = .ok wire) (hfresh : (slot.replay.checkAndSet pid).1 = true) :
    ∃ i, Opens S w (Session.dataHeader peerId slot.keyId pid ++ wire)
      ⟨slot.keyId, carriedPeerId peerId, pid, wire⟩ i slot plaintext := by
  have hlen := length_dataHeader peerId slot.keyId pid
  obtain ⟨i, hpos, hfound⟩ := Option.bind_eq_some_iff.mp hs
  refine ⟨i, parse_dataHeader hkey peerId pid wire, hpos, hfound, ?_, hfresh⟩
  have haad : slice (Session.dataHeader peerId slot.keyId pid ++ wire) 0 8 =
      .ok (Session.dataHeader peerId slot.keyId pid) :=
    slice_of (x := []) rfl rfl (by rw [hlen])
  exact ⟨_, haad, DataCipher.open'_of_seal' hp hc.mirror _ _ _ hseal⟩

lemma decryptAndForward_recovers (hs : w.sess.slotByKeyId slot.keyId = some slot)
    {peerId pid : UInt32} {wire : Bytes}
    (hseal : slot.cipher.mirror.seal' S.prims pid (Session.dataHeader peerId slot.keyId pid)
      plaintext = .ok wire) (hfresh : (slot.replay.checkAndSet pid).1 = true) :
    let pkt := Session.dataHeader peerId slot.keyId pid ++ wire
    let delivered := plaintext = pingPayload ∨ w.env.tunOpen
    ((decryptAndForward S pkt w).1 = .ok () ↔ delivered) ∧
      (decryptAndForward S pkt w).2.log = w.log ++ [.opened slot.cipher pid pkt] ++
        if plaintext ≠ pingPayload ∧ w.env.tunOpen then [.tun pkt plaintext] else [] := by
  obtain ⟨i, hopens⟩ := opens_of_peer hp hc hkey w plaintext hs hseal hfresh
  dsimp only
  rw [decryptAndForward_opens hopens]
  by_cases hping : plaintext = pingPayload
  · simp [hping, World.opened]
  · by_cases htun : w.env.tunOpen = true
    · simp [hping, htun, World.opened]
    · simp [hping, htun, World.opened]

end

/-- **Server and mirrored peer read each other's data packets.** What `build_data_packet`
produces parses to the slot's key id, the session's peer id and the packet id it consumed, and
opens at the peer to the plaintext; it produces nothing only if AES-GCM does not encrypt. What
the peer seals under an id the slot's replay window accepts is opened, and its plaintext handed
to the TUN. -/
theorem data_roundTrip {Conn : Type} (S : VpnServer Conn) (hp : S.prims.Decrypts) (km : Bytes)
    (hkm : km.length = keymatLen) (slot : KeySlot) (hcipher : slot.cipher = .fromKeymatServer km)
    (hkey : slot.keyId < 8) (w : World Conn) (plaintext : Bytes) :
    (w.sess.activeSlot = some slot → w.sess.peerId < 0x1000000 →
      match buildDataPacket S plaintext w with
      | (.ok bytes, w') =>
        DataPacketV2.parse bytes =
          .ok ⟨slot.keyId, w.sess.peerId, slot.dataPidOut, bytes.drop 8⟩ ∧
        slot.cipher.mirror.open' S.prims slot.dataPidOut (bytes.take 8) (bytes.drop 8) =
          .ok plaintext ∧
        w'.sess.activeSlot = some { slot with dataPidOut := slot.dataPidOut + 1 }
      | (.error _, _) =>
        S.prims.gcmEncrypt slot.cipher.encKey (slot.cipher.sealNonce slot.dataPidOut)
          (Session.dataHeader w.sess.peerId slot.keyId slot.dataPidOut) plaintext = none) ∧
    (w.sess.slotByKeyId slot.keyId = some slot → ∀ peerId pid wire,
      slot.cipher.mirror.seal' S.prims pid (Session.dataHeader peerId slot.keyId pid) plaintext =
        .ok wire → (slot.replay.checkAndSet pid).1 = true →
      let pkt := Session.dataHeader peerId slot.keyId pid ++ wire
      ((decryptAndForward S pkt w).1 = .ok () ↔ plaintext = pingPayload ∨ w.env.tunOpen) ∧
        (decryptAndForward S pkt w).2.log = w.log ++ [.opened slot.cipher pid pkt] ++
          if plaintext ≠ pingPayload ∧ w.env.tunOpen then [.tun pkt plaintext] else []) := by
  have hc : slot.cipher.Sized := hcipher ▸ DataCipher.sized_fromKeymatServer hkm
  refine ⟨buildDataPacket_roundTrip hp hc hkey w plaintext, ?_⟩
  intro hs peerId pid wire hseal hfresh
  exact decryptAndForward_recovers hp hc hkey w plaintext hs hseal hfresh

def tagPrims : Primitives where
  __ := plainPrims
  gcmEncrypt _ _ _ text := some (text ++ List.replicate 16 0)
  gcmDecrypt _ _ _ ct :=
    if 16 ≤ ct.length ∧ ct.drop (ct.length - 16) = List.replicate 16 0 then
      some (ct.take (ct.length - 16))
    else none

lemma decrypts_tagPrims : tagPrims.Decrypts := by
  intro k n a text ct _ _ h
  obtain rfl := Option.some.inj h
  refine ⟨by simp [tagSize], ?_⟩
  simp [tagPrims]

lemma sized_tagPrims : tagPrims.Sized where
  gcm k n a text ct h := by
    obtain rfl := Option.some.inj h
    simp [tagSize]
  md5 _ _ := List.length_replicate ..
  sha1 _ _ := List.length_replicate ..
  sha256 _ _ := List.length_replicate ..

def keyedWorld : World Plain where
  sess := { Session.new 7 (.new {}) 0x10203 (.udp plainAddr) [] [] 0 with
    toSlotTable := SlotTable.empty.place (.fresh 2 (List.replicate 256 3))
    state := .established }
  tab := plainOpening.tab
  env := plainEnv 1

theorem data_roundTrip_keyed :
    let S := { plainServer with prims := tagPrims }
    let slot := KeySlot.fresh 2 (List.replicate 256 3)
    (∃ bytes, (buildDataPacket S [0x45, 0] keyedWorld).1 = .ok bytes ∧
      slot.cipher.mirror.open' tagPrims 1 (bytes.take 8) (bytes.drop 8) = .ok [0x45, 0]) ∧
    ∃ wire, (decryptAndForward S (Session.dataHeader 5 2 9 ++ wire) keyedWorld).1 = .ok () := by
  have h := data_roundTrip { plainServer with prims := tagPrims } decrypts_tagPrims
    (List.replicate 256 3) List.length_replicate (.fresh 2 (List.replicate 256 3)) rfl (by decide)
    keyedWorld [0x45, 0]
  refine ⟨⟨_, rfl, (h.1 rfl (by decide)).2.1⟩, _, (h.2 rfl 5 9 _ rfl (by decide)).1.mpr (.inr rfl)⟩

end Javs
