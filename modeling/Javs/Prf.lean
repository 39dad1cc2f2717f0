import Javs.Crypto

/-!
Key derivation of `key-method 2`: the TLS 1.0 PRF, applied twice.
-/

namespace Javs

open Bytes

def masterLen : ℕ := 48
def masterLabel : Bytes := ascii "OpenVPN master secret"
def keyExpLabel : Bytes := ascii "OpenVPN key expansion"

/-- The `while written < out.len()` loop of `p_hash`; `out` is what has been written. Each
round writes at least one byte, so `n` rounds are enough for `n` bytes. -/
def pHashLoop (hmac : Bytes → Bytes → Bytes) (secret seed : Bytes) (n : ℕ) :
    ℕ → Bytes → Bytes → Bytes
  | 0, _, out => out
  | fuel + 1, a, out =>
    if out.length < n then
      let block := hmac secret (a ++ seed)
      pHashLoop hmac secret seed n fuel (hmac secret a) (out ++ block.take (n - out.length))
    else out

def pHash (hmac : Bytes → Bytes → Bytes) (secret seed : Bytes) (n : ℕ) : Bytes :=
  pHashLoop hmac secret seed n n (hmac secret seed) []

variable (p : Primitives)

def tls10Prf (secret label seed : Bytes) (n : ℕ) : Bytes :=
  let half := (secret.length + 1) / 2
  let s1 := secret.take half
  let s2 := secret.drop (secret.length - half)
  List.zipWith (· ^^^ ·) (pHash p.hmacMd5 s1 (label ++ seed) n)
    (pHash p.hmacSha1 s2 (label ++ seed) n)

def deriveOpenvpnKeyData (preMaster clientRandom1 serverRandom1 clientRandom2 serverRandom2
    clientSid serverSid : Bytes) : Bytes :=
  let master := tls10Prf p preMaster masterLabel (clientRandom1 ++ serverRandom1) masterLen
  tls10Prf p master keyExpLabel (clientRandom2 ++ serverRandom2 ++ clientSid ++ serverSid)
    keymatLen

end Javs
