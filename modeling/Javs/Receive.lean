import Javs.Lib.Stream
import Javs.Events

/-!
The receive loops: how datagrams and TCP streams become calls to the server.

Over TCP every packet is framed by its length. The writer task frames what the server sends;
the reader loop takes frames off a stream that arrives in reads of any size, and dispatches
each packet as the UDP loop dispatches a datagram.
-/

namespace Javs

open Lib Bytes

variable {Conn : Type} (S : VpnServer Conn)

/-! ### Dispatch -/

/-- Strip the configured envelope off a control packet. Without one the packet itself is the
inner packet. -/
def unwrapControl (pkt : Bytes) : Res (Option Bytes × Option UInt32) :=
  match S.tlsCrypt, S.tlsAuth with
  | some tc, _ => do
    let (inner, pid) ← tc.unwrap S.prims pkt
    return (some inner, some pid)
  | none, some ta => do
    let (inner, pid) ← ta.unwrap S.prims pkt
    return (some inner, some pid)
  | none, none => return (none, none)

/-- What a receive loop calls. -/
inductive Call
  | routeData (pkt : Bytes)
  | handleControlPacket (addr : SocketAddr) (pkt : Bytes) (replayPid : Option UInt32)
      (transport : Transport)
  deriving DecidableEq

def Call.over (transport : Transport) : Call → Call
  | .routeData pkt => .routeData pkt
  | .handleControlPacket addr pkt replayPid _ => .handleControlPacket addr pkt replayPid transport

def datagramMax : ℕ := 65535

/-- One round of the UDP receive loop. -/
def receiveDatagram (addr : SocketAddr) (datagram : Bytes) : List Call :=
  match datagram.take datagramMax with
  | [] => []
  | first :: rest =>
    let pkt := first :: rest
    match OpCode.fromU8 (first >>> 3) with
    | .error _ => []
    | .ok op =>
      if op.isData then [.routeData pkt]
      else
        match unwrapControl S pkt with
        | .error _ => []
        | .ok (innerOwned, replayPid) =>
          [.handleControlPacket addr (innerOwned.getD pkt) replayPid (.udp addr)]

/-- One round of the TCP reader loop, once it has read a packet. -/
def receiveFrame (peer : SocketAddr) (stream : ℕ) (pkt : Bytes) : List Call :=
  match pkt with
  | [] => []
  | first :: _ =>
    match OpCode.fromU8 (first >>> 3) with
    | .error _ => []
    | .ok op =>
      if op.isData then [.routeData pkt]
      else
        match unwrapControl S pkt with
        | .error _ => []
        | .ok (innerOwned, replayPid) =>
          [.handleControlPacket peer (innerOwned.getD pkt) replayPid (.tcp stream)]

variable {S} in
lemma receiveFrame_eq {pkt : Bytes} (h : pkt.length ≤ datagramMax) (peer : SocketAddr)
    (stream : ℕ) :
    receiveFrame S peer stream pkt =
      (receiveDatagram S peer pkt).map (Call.over (.tcp stream)) := by
  unfold receiveFrame receiveDatagram
  rw [List.take_of_length_le h]
  rcases pkt with _ | ⟨first, rest⟩
  · rfl
  · dsimp only
    rcases OpCode.fromU8 (first >>> 3) with _ | op
    · rfl
    · dsimp only
      split
      · rfl
      · rcases unwrapControl S (first :: rest) with _ | ⟨inner, pid⟩ <;> rfl

/-! ### Frames -/

def tcpFrame (bytes : Bytes) : Bytes := putU16 (UInt16.ofNat bytes.length) ++ bytes

/-- The writer task of a TCP stream: what it writes for the packets it is given. -/
def tcpWriter (out : List Bytes) : Bytes :=
  out.flatMap fun bytes => if bytes.length > 65535 then [] else tcpFrame bytes

/-- The reader loop of a TCP stream, with `f` done to each packet. -/
def tcpReader {β : Type} (f : Bytes → List β) : ℕ → Source UInt8 → List β
  | 0, _ => []
  | fuel + 1, r =>
    match r.readExact 2 with
    | none => []
    | some (lenBuf, r) =>
      let len := ofBe lenBuf
      if len = 0 then tcpReader f fuel r
      else
        match r.readExact len with
        | none => []
        | some (pkt, r) => f pkt ++ tcpReader f fuel r

/-- The loop over a whole stream, delivered in `reads`. Every round takes two bytes at least,
so the loop ends within these rounds. -/
def runTcpStream {β : Type} (f : Bytes → List β) (reads : List Bytes) : List β :=
  tcpReader f (reads.flatten.length + 1) ⟨[], reads⟩

/-- Taking frames off a buffer, as a consumer that collects the packets. -/
def frames : Consumer (List Bytes) UInt8 := fun got b =>
  if b.length < 2 ∨ b.length < 2 + ofBe (b.take 2) then none
  else some (if ofBe (b.take 2) = 0 then got else got ++ [(b.drop 2).take (ofBe (b.take 2))],
    2 + ofBe (b.take 2))

lemma frames_steady : frames.Steady where
  pos {got b got' n} h := by
    unfold frames at h
    split at h
    · cases h
    · obtain ⟨-, rfl⟩ := Prod.mk.inj (Option.some.inj h)
      omega
  le {got b got' n} h := by
    unfold frames at h
    split at h
    · cases h
    · rename_i hlen
      obtain ⟨-, rfl⟩ := Prod.mk.inj (Option.some.inj h)
      omega
  extend {got b got' n} h more := by
    unfold frames at h ⊢
    split at h
    · cases h
    · rename_i hlen
      -- later bytes do not change a frame that is already complete
      have htake : (b ++ more).take 2 = b.take 2 := List.take_append_of_le_length (by omega)
      have hpkt : ((b ++ more).drop 2).take (ofBe (b.take 2)) =
          (b.drop 2).take (ofBe (b.take 2)) := by
        rw [List.drop_append_of_le_length (by omega),
          List.take_append_of_le_length (by rw [List.length_drop]; omega)]
      rw [← h]
      simp only [htake, hpkt]
      rw [if_neg (by rw [List.length_append]; omega)]

lemma tcpReader_eq {β : Type} (f : Bytes → List β) {fuel : ℕ} {r : Source UInt8}
    (hr : [] ∉ r.reads) (hf : r.rest.length ≤ fuel) (got : List Bytes) :
    got.flatMap f ++ tcpReader f fuel r = (frames.consume got r.rest).1.flatMap f := by
  induction fuel generalizing r got with
  | zero =>
    rw [List.eq_nil_of_length_eq_zero (Nat.le_zero.mp hf), Consumer.consume_nil]
    simp [tcpReader]
  | succ fuel ih =>
    unfold tcpReader
    by_cases htwo : r.rest.length < 2
    · have hwait : frames got r.rest = none := if_pos (.inl htwo)
      rw [Source.readExact_of_lt htwo, Consumer.consume_of_none hwait, List.append_nil]
    obtain ⟨r₁, hread, hrest, hr₁⟩ := Source.readExact_of_le (n := 2) hr (by omega)
    rw [hread]
    dsimp only
    have hlen₁ : r₁.rest.length = r.rest.length - 2 := by rw [hrest, List.length_drop]
    by_cases hshort : r.rest.length < 2 + ofBe (r.rest.take 2)
    · -- the stream ends within the frame
      have hwait : frames got r.rest = none := if_pos (.inr hshort)
      rw [if_neg (by omega), Source.readExact_of_lt (by omega), Consumer.consume_of_none hwait,
        List.append_nil]
    -- a whole frame is there: the consumer takes it, and the reader reads it in two steps
    have htaken : frames got r.rest = some (if ofBe (r.rest.take 2) = 0 then got
        else got ++ [(r.rest.drop 2).take (ofBe (r.rest.take 2))], 2 + ofBe (r.rest.take 2)) :=
      if_neg (not_or.mpr ⟨htwo, hshort⟩)
    rw [frames_steady.consume_of_some htaken]
    by_cases hzero : ofBe (r.rest.take 2) = 0
    · rw [if_pos hzero, if_pos hzero, hzero, ← hrest]
      exact ih hr₁ (by omega) got
    · obtain ⟨r₂, hread₂, hrest₂, hr₂⟩ := Source.readExact_of_le (n := ofBe (r.rest.take 2)) hr₁
        (by omega)
      have hrest' : r₂.rest = r.rest.drop (2 + ofBe (r.rest.take 2)) := by
        rw [hrest₂, hrest, List.drop_drop]
      have hlen₂ : r₂.rest.length = r₁.rest.length - ofBe (r.rest.take 2) := by
        rw [hrest₂, List.length_drop]
      rw [if_neg hzero, if_neg hzero, hread₂, ← hrest']
      have h := ih hr₂ (by omega) (got ++ [(r.rest.drop 2).take (ofBe (r.rest.take 2))])
      rw [List.flatMap_append, List.flatMap_singleton, List.append_assoc] at h
      rw [hrest]
      exact h

/-! ### Frames of the writer -/

lemma length_tcpFrame (p : Bytes) : (tcpFrame p).length = 2 + p.length := by
  rw [tcpFrame, List.length_append, length_putU16]

section Frame

variable {p : Bytes} (hp : p.length ≤ 65535)

include hp

lemma ofBe_tcpFrame (b : Bytes) : ofBe ((tcpFrame p ++ b).take 2) = p.length := by
  have htake : (tcpFrame p ++ b).take 2 = putU16 (UInt16.ofNat p.length) := by
    rw [tcpFrame, List.append_assoc]
    exact List.take_left' (length_putU16 _)
  rw [htake, putU16, UInt16.toNat_ofNat_of_lt' (by simpa using Nat.lt_succ_of_le hp)]
  exact ofBe_be (by omega)

lemma consume_frame (got : List Bytes) (b : Bytes) :
    frames.consume got (tcpFrame p ++ b) = frames.consume (got ++ [p].filter (· ≠ [])) b := by
  have hlen := length_tcpFrame p
  have hpkt : ((tcpFrame p ++ b).drop 2).take p.length = p := by
    rw [tcpFrame, List.append_assoc, List.drop_left' (length_putU16 _)]
    exact List.take_left' rfl
  have htaken : frames got (tcpFrame p ++ b) =
      some (if p.length = 0 then got else got ++ [p], 2 + p.length) := by
    unfold frames
    rw [ofBe_tcpFrame hp, if_neg (by rw [List.length_append]; omega), hpkt]
  rw [frames_steady.consume_of_some htaken, List.drop_left' hlen]
  rcases p with _ | ⟨x, p⟩
  · simp
  · simp

lemma consume_cut {n : ℕ} (hn : n < 2 + p.length) (got : List Bytes) (b : Bytes) :
    (frames.consume got ((tcpFrame p ++ b).take n)).1 = got := by
  have hwait : frames got ((tcpFrame p ++ b).take n) = none := by
    unfold frames
    refine if_pos ?_
    rw [List.length_take, List.length_append, length_tcpFrame]
    by_cases htwo : n < 2
    · exact .inl (by omega)
    · rw [List.take_take, Nat.min_eq_left (show 2 ≤ n by omega), ofBe_tcpFrame hp]
      exact .inr (by omega)
  rw [Consumer.consume_of_none hwait]

end Frame

/-- How many of the frames are complete within the first `n` bytes. -/
def complete : ℕ → List Bytes → ℕ
  | _, [] => 0
  | n, p :: ps => if n < 2 + p.length then 0 else complete (n - (2 + p.length)) ps + 1

def framed (out : List Bytes) : List Bytes := out.filter (·.length ≤ 65535)

lemma tcpWriter_framed (out : List Bytes) : tcpWriter out = (framed out).flatMap tcpFrame := by
  induction out with
  | nil => rfl
  | cons p ps ih =>
    by_cases hp : p.length ≤ 65535
    · simp only [tcpWriter, framed] at ih ⊢
      rw [List.flatMap_cons, ih, if_neg (by omega), List.filter_cons_of_pos (by simpa using hp),
        List.flatMap_cons]
    · simp only [tcpWriter, framed] at ih ⊢
      rw [List.flatMap_cons, ih, if_pos (by omega), List.filter_cons_of_neg (by simpa using hp)]
      rfl

lemma consume_take {ps : List Bytes} (hps : ∀ p ∈ ps, p.length ≤ 65535) (n : ℕ)
    (got : List Bytes) :
    (frames.consume got ((ps.flatMap tcpFrame).take n)).1 =
      got ++ (ps.take (complete n ps)).filter (· ≠ []) := by
  induction ps generalizing n got with
  | nil => simp
  | cons p ps ih =>
    have hp := hps p List.mem_cons_self
    rw [List.flatMap_cons, complete]
    split
    · rename_i hn
      rw [consume_cut hp hn]
      simp
    · rename_i hn
      have hlen := length_tcpFrame p
      rw [List.take_append, List.take_of_length_le (by omega), hlen, consume_frame hp,
        ih (fun q hq => hps q (List.mem_cons_of_mem _ hq)), List.append_assoc, List.take_succ_cons,
        ← List.filter_append]
      rfl

lemma length_take_complete (n : ℕ) (ps : List Bytes) :
    ((ps.take (complete n ps)).flatMap tcpFrame).length ≤ n := by
  induction ps generalizing n with
  | nil => simp
  | cons p ps ih =>
    rw [complete]
    split
    · simp
    · have h := ih (n - (2 + p.length))
      rw [List.take_succ_cons, List.flatMap_cons, List.length_append, length_tcpFrame]
      omega

lemma lt_length_take_complete {n : ℕ} {ps : List Bytes} (h : complete n ps < ps.length) :
    n < ((ps.take (complete n ps + 1)).flatMap tcpFrame).length := by
  induction ps generalizing n with
  | nil => simp at h
  | cons p ps ih =>
    rw [complete] at h ⊢
    split at h
    · rename_i hn
      rw [if_pos hn, List.take_succ_cons, List.flatMap_cons, List.length_append, length_tcpFrame]
      omega
    · rename_i hn
      rw [if_neg hn, List.take_succ_cons, List.flatMap_cons, List.length_append, length_tcpFrame]
      have := ih (n := n - (2 + p.length)) (by simpa using h)
      omega

lemma complete_le (n : ℕ) (ps : List Bytes) : complete n ps ≤ ps.length := by
  induction ps generalizing n with
  | nil => exact le_rfl
  | cons p ps ih =>
    rw [complete]
    split
    · exact Nat.zero_le _
    · exact Nat.succ_le_succ (ih _)

lemma complete_all (ps : List Bytes) : complete (ps.flatMap tcpFrame).length ps = ps.length := by
  induction ps with
  | nil => rfl
  | cons p ps ih =>
    rw [complete, List.flatMap_cons, List.length_append, length_tcpFrame, if_neg (by omega),
      Nat.add_sub_cancel_left, ih, List.length_cons]

lemma flatMap_filter_ne_nil {β : Type} {f : Bytes → List β} (hf : f [] = []) (ps : List Bytes) :
    (ps.filter (· ≠ [])).flatMap f = ps.flatMap f := by
  induction ps with
  | nil => rfl
  | cons p ps ih =>
    rcases p with _ | ⟨x, p⟩
    · rw [List.filter_cons_of_neg (by simp), List.flatMap_cons, hf, ih]
      rfl
    · rw [List.filter_cons_of_pos (by simp), List.flatMap_cons, List.flatMap_cons, ih]

lemma length_le_of_mem_framed {out : List Bytes} {p : Bytes} (hp : p ∈ framed out) :
    p.length ≤ 65535 := by
  simpa using (List.mem_filter.mp hp).2

lemma runTcpStream_take {β : Type} (f : Bytes → List β) {out reads : List Bytes} {n : ℕ}
    (hreads : [] ∉ reads) (h : reads.flatten = (tcpWriter out).take n) :
    runTcpStream f reads =
      (((framed out).take (complete n (framed out))).filter (· ≠ [])).flatMap f := by
  have hrun := tcpReader_eq f (r := ⟨[], reads⟩) hreads (Nat.le_succ _) []
  have hrest : Source.rest ⟨[], reads⟩ = ((framed out).flatMap tcpFrame).take n := by
    rw [Source.rest, List.nil_append, h, tcpWriter_framed]
  rw [hrest, consume_take fun p => length_le_of_mem_framed, ← hrest] at hrun
  exact hrun

lemma flatMap_receiveFrame {ps : List Bytes} (hps : ∀ p ∈ ps, p.length ≤ 65535)
    (peer : SocketAddr) (stream : ℕ) :
    (ps.filter (· ≠ [])).flatMap (receiveFrame S peer stream) =
      (ps.flatMap (receiveDatagram S peer)).map (Call.over (.tcp stream)) := by
  rw [flatMap_filter_ne_nil rfl, List.map_flatMap]
  exact List.flatMap_congr fun p hp => receiveFrame_eq (hps p hp) peer stream

/-- **TCP carries packets like UDP.** From the stream of the writer, however it is delivered,
the reader loop recovers the packets of length 1 to 65535, and makes for them the calls the UDP
loop makes for datagrams; from a stream that is cut off it recovers the complete frames. -/
theorem tcp_carries_packets (peer : SocketAddr) (stream : ℕ) (out reads : List Bytes)
    (hreads : [] ∉ reads) :
    (reads.flatten = tcpWriter out →
      runTcpStream (fun pkt => [pkt]) reads =
          out.filter (fun p => 1 ≤ p.length ∧ p.length ≤ 65535) ∧
        runTcpStream (receiveFrame S peer stream) reads =
          ((framed out).flatMap (receiveDatagram S peer)).map (Call.over (.tcp stream))) ∧
    ∀ n, reads.flatten = (tcpWriter out).take n →
      ∃ k ≤ (framed out).length, (tcpWriter ((framed out).take k)).length ≤ n ∧
        (k < (framed out).length → n < (tcpWriter ((framed out).take (k + 1))).length) ∧
        runTcpStream (receiveFrame S peer stream) reads =
          (((framed out).take k).flatMap (receiveDatagram S peer)).map
            (Call.over (.tcp stream)) := by
  have hframed (k : ℕ) :
      tcpWriter ((framed out).take k) = ((framed out).take k).flatMap tcpFrame := by
    rw [tcpWriter_framed, framed, List.filter_eq_self.mpr]
    intro p hp
    simpa using length_le_of_mem_framed (List.mem_of_mem_take hp)
  constructor
  · intro h
    have hcut : reads.flatten = (tcpWriter out).take (tcpWriter out).length := by
      rw [h, List.take_length]
    have hall : (framed out).take (complete (tcpWriter out).length (framed out)) = framed out := by
      rw [tcpWriter_framed, complete_all, List.take_length]
    constructor
    · rw [runTcpStream_take _ hreads hcut, hall, List.flatMap_singleton', framed,
        List.filter_filter]
      refine List.filter_congr fun p _ => ?_
      rcases p with _ | ⟨x, p⟩ <;> simp
    · rw [runTcpStream_take _ hreads hcut, hall]
      exact flatMap_receiveFrame S (fun p => length_le_of_mem_framed) peer stream
  · intro n h
    refine ⟨complete n (framed out), complete_le n _, ?_, fun hlt => ?_, ?_⟩
    · rw [hframed]
      exact length_take_complete n _
    · rw [hframed]
      exact lt_length_take_complete hlt
    · rw [runTcpStream_take _ hreads h]
      exact flatMap_receiveFrame S
        (fun p hp => length_le_of_mem_framed (List.mem_of_mem_take hp)) peer stream

/-- Three packets, the second one empty; the stream comes in two reads, the first of which ends
within a length. -/
theorem tcp_carries_packets_twoReads :
    let out : List Bytes := [[0x48, 1], [], [0x48, 2, 3]]
    let reads : List Bytes := [[0, 2, 0x48, 1, 0], [0, 0, 3, 0x48, 2, 3]]
    reads.flatten = tcpWriter out ∧
      runTcpStream (fun pkt => [pkt]) reads = [[0x48, 1], [0x48, 2, 3]] ∧
      runTcpStream (receiveFrame plainServer plainAddr 0) reads =
        ((framed out).flatMap (receiveDatagram plainServer plainAddr)).map
          (Call.over (.tcp 0)) := by
  intro out reads
  have hstream : reads.flatten = tcpWriter out := by decide
  obtain ⟨hpackets, hcalls⟩ :=
    (tcp_carries_packets plainServer plainAddr 0 out reads (by decide)).1 hstream
  exact ⟨hstream, hpackets, hcalls⟩

end Javs
