import DeltaFeedback.Text.Ascii

namespace Text

-- 10xxxxxx, which goes on with a scalar.
def isContinuation (c : UInt8) : Bool := c &&& 0xC0 == 0x80

theorem isContinuation_iff (c : UInt8) :
    isContinuation c = true ↔ 0x80 ≤ c.toNat ∧ c.toNat < 0xC0 := by
  revert c
  exact forall_byte (by decide +kernel)

theorem isContinuation_ofNat (n : Nat) : isContinuation (UInt8.ofNat (n % 64 + 0x80)) = true := by
  rw [isContinuation_iff, UInt8.toNat_ofNat']
  omega

theorem forall_isContinuation_ofNat (ns : List Nat) :
    ∀ b ∈ ns.map fun n => UInt8.ofNat (n % 64 + 0x80), isContinuation b = true := by
  intro b hb
  obtain ⟨n, -, rfl⟩ := List.mem_map.mp hb
  exact isContinuation_ofNat n

-- Past ASCII, a lead byte from 0xC0 on and one to three that go on with it.
theorem utf8EncodeChar_wide {c : Char} (h : 128 ≤ c.toNat) :
    ∃ lead rest, String.utf8EncodeChar c = lead :: rest ∧ 0xC0 ≤ lead.toNat ∧
      rest.length ≤ 3 ∧ ∀ b ∈ rest, isContinuation b = true := by
  have hnarrow : ¬ c.val.toNat ≤ 0x7F := by
    have hval : c.toNat = c.val.toNat := rfl
    omega
  let n := c.val.toNat
  simp only [String.utf8EncodeChar, if_neg hnarrow]
  split_ifs with htwo hthree
  · refine ⟨_, _, rfl, ?_, by simp, forall_isContinuation_ofNat [n]⟩
    rw [UInt8.toNat_ofNat']
    omega
  · refine ⟨_, _, rfl, ?_, by simp, forall_isContinuation_ofNat [n / 64, n]⟩
    rw [UInt8.toNat_ofNat']
    omega
  · refine ⟨_, _, rfl, ?_, by simp, forall_isContinuation_ofNat [n / 4096, n / 64, n]⟩
    rw [UInt8.toNat_ofNat']
    omega

end Text
