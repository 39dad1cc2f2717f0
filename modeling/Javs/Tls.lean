import Javs.Bytes

/-!
The control channel's TLS session, over a TLS library that stays a parameter.
-/

namespace Javs

/-- The operations of `rustls::ServerConnection` on connections `Conn`. They return the
connection as they leave it, also when they fail. -/
structure Rustls (Conn : Type) where
  /-- `read_tls`: how many bytes of the input were taken. -/
  readTls : Conn → Bytes → Conn × Option ℕ
  processNewPackets : Conn → Conn × Bool
  /-- `reader().read` until nothing is left. -/
  readPlaintext : Conn → Conn × Bytes
  /-- `write_tls` into a fresh buffer. -/
  writeTls : Conn → Conn × Bytes
  isHandshaking : Conn → Bool
  /-- `writer().write_all`. -/
  writePlaintext : Conn → Bytes → Conn × Bool
  /-- The common name in the peer's leaf certificate, `none` if there is no certificate or it
  does not parse. -/
  peerCommonName : Conn → Option (Option Text)

structure TlsSession (Conn : Type) where
  conn : Conn
  plaintextIn : Bytes
  deriving DecidableEq

namespace TlsSession

variable {Conn : Type} (T : Rustls Conn)

def new (conn : Conn) : TlsSession Conn := ⟨conn, []⟩

/-- The `while !data.is_empty()` loop of `feed`. Every round takes at least one byte, so as
many rounds as there are bytes are enough. -/
def feedLoop : ℕ → Conn → Bytes → Conn × Res Unit
  | 0, c, _ => (c, .ok ())
  | fuel + 1, c, data =>
    if data.isEmpty then (c, .ok ())
    else
      match T.readTls c data with
      | (c, none) => (c, .error (.bail "read_tls"))
      | (c, some 0) => (c, .ok ())
      | (c, some (n + 1)) =>
        match T.processNewPackets c with
        | (c, false) => (c, .error (.bail "process_new_packets"))
        | (c, true) => feedLoop fuel c (data.drop (n + 1))

def feed (t : TlsSession Conn) (data : Bytes) : TlsSession Conn × Res Unit :=
  match feedLoop T data.length t.conn data with
  | (c, .error e) => ({ t with conn := c }, .error e)
  | (c, .ok ()) =>
    let (c, plain) := T.readPlaintext c
    (⟨c, t.plaintextIn ++ plain⟩, .ok ())

def takeOutgoing (t : TlsSession Conn) : TlsSession Conn × Bytes :=
  let (c, out) := T.writeTls t.conn
  ({ t with conn := c }, out)

def isHandshaking (t : TlsSession Conn) : Bool := T.isHandshaking t.conn

def sendPlaintext (t : TlsSession Conn) (data : Bytes) : TlsSession Conn × Bool :=
  let (c, ok) := T.writePlaintext t.conn data
  ({ t with conn := c }, ok)

def drain (t : TlsSession Conn) (n : ℕ) : TlsSession Conn :=
  { t with plaintextIn := t.plaintextIn.drop n }

def drainTo (t : TlsSession Conn) (n : ℕ) : Res (TlsSession Conn) :=
  if n ≤ t.plaintextIn.length then .ok (t.drain n)
  else .error (.panic "range end index out of range for slice")

lemma drainTo_of_le {t : TlsSession Conn} {n : ℕ} (h : n ≤ t.plaintextIn.length) :
    t.drainTo n = .ok (t.drain n) := if_pos h

end TlsSession

/-! ### A library without cryptography -/

/-- The state of a *plain* connection: every byte fed to it is a byte of plaintext, every
byte written goes out as it is, and the first bytes that arrive end the handshake. -/
structure Plain where
  cn : Option Text := none
  input : Bytes := []
  output : Bytes := []
  up : Bool := false
  deriving DecidableEq

def plainTls : Rustls Plain where
  readTls c data := ({ c with input := c.input ++ data, up := true }, some data.length)
  processNewPackets c := (c, true)
  readPlaintext c := ({ c with input := [] }, c.input)
  writeTls c := ({ c with output := [] }, c.output)
  isHandshaking c := !c.up
  writePlaintext c data := ({ c with output := c.output ++ data }, true)
  peerCommonName c := some c.cn

end Javs
