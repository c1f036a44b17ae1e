import DeltaFeedback.Pow.Base64
import DeltaFeedback.Pow.Sha256

namespace DeltaFeedback.Pow

open Text

structure Challenge where
  token : Bytes
  id : Bytes
  expiresUnix : Int
  difficultyBits : UInt32
deriving DecidableEq

inductive VerifyResult
  | Ok
  | Malformed
  | BadSignature
  | Expired
  | InsufficientWork
  | Replay
deriving DecidableEq

structure ChallengeIssuer where
  secret : Bytes
  difficultyBits : UInt32
  ttl : Int

-- A 64-bit signed accumulator, wrapping around.
def i64 (v : Int) : Int := v.bmod (2 ^ 64)

def parseI64Loop (v : Int) : Bytes → Option Int
  | [] => some v
  | c :: rest => if c < 48 || c > 57 then none else parseI64Loop (i64 (v * 10 + (c.toNat - 48))) rest

def parseI64 (s : Bytes) : Option Int := if s.isEmpty then none else parseI64Loop 0 s

def parseUintLoop (v : UInt32) : Bytes → Option UInt32
  | [] => some v
  | c :: rest => if c < 48 || c > 57 then none else parseUintLoop (v * 10 + (c - 48).toUInt32) rest

def parseUint (s : Bytes) : Option UInt32 := if s.isEmpty then none else parseUintLoop 0 s

def ctEq (a b : Bytes) : Bool := if a.length ≠ b.length then false else xorDiff 0 a b == 0

-- The split loop: `field` runs from the last dot, `parts` holds the fields
-- before it. A dot after the third field is one too many.
def splitLoop (field : Bytes) (parts : List Bytes) : Bytes → Option (List Bytes)
  | [] => some (parts ++ [field])
  | c :: rest =>
      if c = 46 then
        if parts.length = 3 then none else splitLoop [] (parts ++ [field]) rest
      else splitLoop (field ++ [c]) parts rest

def joinPayload (idB64 expires difficulty : Bytes) : Bytes :=
  idB64 ++ [46] ++ expires ++ [46] ++ difficulty

namespace ChallengeIssuer

variable (crypto : Crypto) (issuer : ChallengeIssuer)

-- A clock in seconds stays far from the ends of int64: the sum is taken exactly.
def issue (clock : Int) (randomId : Bytes) : Challenge :=
  let expiresUnix := clock + issuer.ttl
  let payload := joinPayload (b64urlEncode randomId) (decimalInt expiresUnix)
    (decimal issuer.difficultyBits.toNat)
  let sig := crypto.hmacSha256 issuer.secret payload
  { token := payload ++ [46] ++ b64urlEncode sig.val
    id := randomId
    expiresUnix := expiresUnix
    difficultyBits := issuer.difficultyBits }

-- The second component is `*out_id`, none where it is left alone.
def verify (token nonce : Bytes) (clock : Int) : VerifyResult × Option Bytes :=
  match splitLoop [] [] token with
  | some [idB64, expiresText, difficultyText, sigB64] =>
      match parseI64 expiresText with
      | none => (.Malformed, none)
      | some expires =>
      match parseUint difficultyText with
      | none => (.Malformed, none)
      | some difficulty =>
      match b64urlDecode idB64, b64urlDecode sigB64 with
      | some idRaw, some sigRaw =>
          let expected := crypto.hmacSha256 issuer.secret
            (joinPayload idB64 expiresText difficultyText)
          if !ctEq expected.val sigRaw then (.BadSignature, none)
          else if clock > expires then (.Expired, none)
          else if leadingZeroBits (crypto.sha256 (token ++ [58] ++ nonce)).val < difficulty.toNat then
            (.InsufficientWork, none)
          else (.Ok, some idRaw)
      | _, _ => (.Malformed, none)
  | _ => (.Malformed, none)

end ChallengeIssuer

end DeltaFeedback.Pow
