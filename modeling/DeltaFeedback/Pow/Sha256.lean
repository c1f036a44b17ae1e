import DeltaFeedback.Sha2.Spec

namespace DeltaFeedback.Pow

open Text

abbrev Sha256Digest := { digest : Bytes // digest.length = 32 }

-- OpenSSL's EVP_sha256 and HMAC, as far as the program sees them.
structure Crypto where
  sha256 : Bytes → Sha256Digest
  hmacSha256 : Bytes → Bytes → Sha256Digest

-- What OpenSSL documents of the two.
def fips : Crypto where
  sha256 data := ⟨Sha2.sha256 data, Sha2.length_sha256 data⟩
  hmacSha256 key data := ⟨Sha2.hmac key data, Sha2.length_hmac key data⟩

def kHex : Bytes := utf8 "0123456789abcdef"

def toHex (bytes : Bytes) : Bytes :=
  bytes.flatMap fun (b : UInt8) => [kHex.getD (b >>> 4).toNat 0, kHex.getD (b &&& 0x0F).toNat 0]

-- The inner loop from bit i - 1 down: the zero bits before the first one.
def zeroBitsFrom (b : UInt8) : Nat → Nat
  | 0 => 0
  | i + 1 => if (b >>> i.toUInt8) &&& 1 = 1 then 0 else zeroBitsFrom b i + 1

def leadingZeroBits : Bytes → Nat
  | [] => 0
  | b :: rest => if b = 0 then 8 + leadingZeroBits rest else zeroBitsFrom b 8

end DeltaFeedback.Pow
