import DeltaFeedback.Text.Bytes

namespace Text

-- The string of a text of ASCII bytes.
def ofAscii (s : Bytes) : String := String.ofList (s.map fun c => Char.ofNat c.toNat)

theorem utf8EncodeChar_ascii {c : Char} (h : c.toNat < 128) :
    String.utf8EncodeChar c = [c.toNat.toUInt8] := by
  have hsize : c.utf8Size = 1 := Char.utf8Size_eq_one_iff.mpr (by
    rw [UInt32.le_iff_toNat_le]
    exact Nat.le_of_lt_succ h)
  rw [String.utf8EncodeChar_eq_singleton hsize]
  rfl

theorem utf8_ascii (s : String) (h : ∀ c ∈ s.toList, c.toNat < 128) :
    utf8 s = s.toList.map fun c => c.toNat.toUInt8 := by
  rw [utf8]
  generalize s.toList = cs at *
  induction cs with
  | nil => rfl
  | cons c cs ih =>
      rw [List.flatMap_cons, utf8EncodeChar_ascii (h c List.mem_cons_self),
        ih fun d hd => h d (List.mem_cons_of_mem _ hd)]
      rfl

theorem utf8_append (s t : String) : utf8 (s ++ t) = utf8 s ++ utf8 t := by
  simp [utf8]

theorem toNat_ofNat_of_lt {n : Nat} (h : n < 128) : (Char.ofNat n).toNat = n := by
  rw [Char.ofNat, dif_pos (Or.inl (by omega))]
  rfl

theorem utf8_ofAscii {s : Bytes} (h : ∀ c ∈ s, c < 128) : utf8 (ofAscii s) = s := by
  have hchar : ∀ c ∈ s, (Char.ofNat c.toNat).toNat = c.toNat := fun c hc =>
    toNat_ofNat_of_lt (UInt8.lt_iff_toNat_lt.mp (h c hc))
  rw [utf8_ascii, ofAscii, String.toList_ofList, List.map_map]
  · conv_rhs => rw [← List.map_id s]
    apply List.map_congr_left
    intro c hc
    simp [hchar c hc]
  · intro c hc
    rw [ofAscii, String.toList_ofList] at hc
    obtain ⟨b, hb, rfl⟩ := List.mem_map.mp hc
    rw [hchar b hb]
    exact UInt8.lt_iff_toNat_lt.mp (h b hb)

theorem toList_toString (n : Nat) : (toString n).toList = Nat.toDigits 10 n :=
  Nat.toList_repr

theorem utf8_toString (n : Nat) : utf8 (toString n) = decimal n := by
  rw [utf8_ascii, toList_toString, decimal]
  intro c hc
  rw [toList_toString] at hc
  have hdigit := toNat_of_isDigit c (Nat.isDigit_of_mem_toDigits (by decide) (by decide) hc)
  omega

theorem ascii_decimal (n : Nat) : ∀ c ∈ decimal n, c < 128 := by
  intro c hc
  have hdigit := (isDigit_iff c).mp (isDigit_of_mem_decimal hc)
  rw [UInt8.lt_iff_toNat_lt]
  exact Nat.lt_of_le_of_lt hdigit.2 (by decide)

theorem ascii_decimalInt (v : Int) : ∀ c ∈ decimalInt v, c < 128 := by
  unfold decimalInt
  split_ifs
  · exact List.forall_mem_cons.mpr ⟨by decide, ascii_decimal _⟩
  · exact ascii_decimal _

end Text
