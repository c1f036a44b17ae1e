import DeltaFeedback.Sha2.Digest
import DeltaFeedback.Web.Sha256.Theorems

namespace DeltaFeedback.Web.SHA256

open Text Js

theorem pad_eq_append (bytes : Bytes) : ∃ padding, Sha2.pad bytes = bytes ++ padding :=
  ⟨_, List.append_assoc _ _ _⟩

-- The padding is whole blocks, and the digest of them the one of FIPS 180-4.
theorem sha256Bytes_digest {bytes : Bytes} (h : bytes.length + 72 < 2 ^ 31) :
    sha256Bytes bytes = .ok (Sha2.digest bytes) ∧ (Sha2.digest bytes).length = 32 ∧
      padded bytes = .ok (Sha2.pad bytes) ∧ 64 ∣ (Sha2.pad bytes).length ∧
      ∃ padding, Sha2.pad bytes = bytes ++ padding := by
  refine ⟨?_, Sha2.length_digest bytes, padded_ok h, Sha2.length_pad bytes, pad_eq_append bytes⟩
  rw [sha256Bytes_ok h, Sha2.sha256_eq_digest]

theorem sha256Bytes_digest_abc :
    sha256Bytes (utf8 "abc") = .ok (Sha2.digest (utf8 "abc")) ∧
      (Sha2.digest (utf8 "abc")).length = 32 ∧
      padded (utf8 "abc") = .ok (Sha2.pad (utf8 "abc")) ∧ 64 ∣ (Sha2.pad (utf8 "abc")).length ∧
      ∃ padding, Sha2.pad (utf8 "abc") = utf8 "abc" ++ padding :=
  sha256Bytes_digest (by decide)

end DeltaFeedback.Web.SHA256
