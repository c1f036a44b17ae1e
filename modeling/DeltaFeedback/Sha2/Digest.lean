import DeltaFeedback.Sha2.Schedule

namespace Sha2

open Text

-- SHA-256 block by block as FIPS 180-4 writes it: the words M_0 to M_15 of a
-- block, its schedule, the rounds 0 to 63.
def messageBlock (padded : Bytes) (i : Nat) : List UInt32 :=
  (List.range 16).map fun t => word (padded.getD (64 * i + 4 * t) 0)
    (padded.getD (64 * i + 4 * t + 1) 0) (padded.getD (64 * i + 4 * t + 2) 0)
    (padded.getD (64 * i + 4 * t + 3) 0)

def hashBlock (H : Hash) (block : List UInt32) : Hash :=
  let r := (List.range 64).foldl
    (fun s t => round s (k.getD t 0) (scheduleWord block t)) H
  ⟨H.a + r.a, H.b + r.b, H.c + r.c, H.d + r.d, H.e + r.e, H.f + r.f, H.g + r.g, H.h + r.h⟩

def digest (message : Bytes) : Bytes :=
  let padded := pad message
  output ((List.range (padded.length / 64)).foldl
    (fun H i => hashBlock H (messageBlock padded i)) initial)

theorem length_messageBlock (padded : Bytes) (i : Nat) : (messageBlock padded i).length = 16 := by
  rw [messageBlock, List.length_map, List.length_range]

theorem hashBlock_eq (H : Hash) {block : List UInt32} (h : block.length = 16) :
    hashBlock H block = compress H block := by
  rw [hashBlock, compress, rounds_block H h, List.range_eq_range']

-- The sixteen words of a block, cut out of all words of the message.
theorem messageBlock_eq {padded : Bytes} {i : Nat} (h : 64 * i + 64 ≤ padded.length) :
    messageBlock padded i = ((words padded).drop (16 * i)).take 16 := by
  have hlength : (((words padded).drop (16 * i)).take 16).length = 16 := by
    simp only [List.length_take, List.length_drop, length_words]
    omega
  apply List.ext_getElem
  · rw [length_messageBlock, hlength]
  · intro t ht ht'
    rw [length_messageBlock] at ht
    have hword := getD_words padded (16 * i + t) (by omega)
    have hbyte : 4 * (16 * i + t) = 64 * i + 4 * t := by omega
    have hroom : 16 * i + t < (words padded).length := by
      rw [length_words]
      omega
    rw [hbyte, List.getD_eq_getElem?_getD, List.getElem?_eq_getElem hroom] at hword
    rw [List.getElem_take, List.getElem_drop]
    simp only [messageBlock, List.getElem_map, List.getElem_range]
    exact hword.symm

theorem sha256_eq_digest (message : Bytes) : sha256 message = digest message := by
  obtain ⟨n, hn⟩ := length_pad message
  have hblocks : (pad message).length / 64 = n := by omega
  have hwords : (words (pad message)).length / 16 = n := by
    rw [length_words]
    omega
  rw [sha256, digest, hwords, hblocks, blocks_eq]
  refine congrArg output (List.foldl_ext _ _ _ fun H i hi => ?_)
  have hroom : 64 * i + 64 ≤ (pad message).length := by
    rw [hn]
    have hlt := List.mem_range.mp hi
    omega
  rw [hashBlock_eq H (length_messageBlock _ _), messageBlock_eq hroom]

theorem length_digest (message : Bytes) : (digest message).length = 32 := by
  rw [← sha256_eq_digest, length_sha256]

end Sha2
