import DeltaFeedback.Text.Bytes
import Mathlib.Algebra.Group.Int.Defs

namespace Js

open Text

-- JavaScript numbers, where they are whole and small enough to be exact:
-- the bit operators read their operands modulo 2^32, `>>>` gives an unsigned
-- result and the other operators a signed one.
def toUint32 (x : Int) : UInt32 := UInt32.ofInt x
def ofUint32 (w : UInt32) : Int := w.toNat
def ofInt32 (w : UInt32) : Int := w.toBitVec.toInt

def shl (x n : Int) : Int := ofInt32 (toUint32 x <<< toUint32 n)
def shr (x n : Int) : Int :=
  ((toUint32 x).toBitVec.sshiftRight ((toUint32 n).toNat % 32)).toInt
def ushr (x n : Int) : Int := ofUint32 (toUint32 x >>> toUint32 n)

def band (x y : Int) : Int := ofInt32 (toUint32 x &&& toUint32 y)
def bor (x y : Int) : Int := ofInt32 (toUint32 x ||| toUint32 y)
def bxor (x y : Int) : Int := ofInt32 (toUint32 x ^^^ toUint32 y)
def bnot (x : Int) : Int := ofInt32 (~~~(toUint32 x))

-- What a Uint8Array throws: a negative length, or more bytes than it has room for.
inductive RangeError
  | InvalidTypedArrayLength
  | OffsetOutOfBounds
deriving DecidableEq

-- `new Uint8Array(length)`
def newUint8Array (length : Int) : Except RangeError Bytes :=
  if length < 0 then .error .InvalidTypedArrayLength else .ok (List.replicate length.toNat 0)

-- `buf.set(bytes)`
def setBytes (buf bytes : Bytes) : Except RangeError Bytes :=
  if bytes.length > buf.length then .error .OffsetOutOfBounds
  else .ok (bytes ++ buf.drop bytes.length)

-- `buf[i] = x`, which does nothing outside of the array.
def storeByte (buf : Bytes) (i x : Int) : Bytes :=
  if i < 0 then buf else buf.set i.toNat (UInt8.ofInt x)

-- `buf[i]`; what an operator makes of `undefined`, outside of the array, is 0.
def byteAt (buf : Bytes) (i : Nat) : Int := (buf.getD i 0).toNat

-- The same of a Uint32Array.
def storeWord (words : List UInt32) (i : Nat) (x : Int) : List UInt32 := words.set i (toUint32 x)
def wordAt (words : List UInt32) (i : Nat) : Int := ofUint32 (words.getD i 0)

@[simp] theorem toUint32_ofUint32 (w : UInt32) : toUint32 (ofUint32 w) = w := by
  have hlt := w.toNat_lt
  rw [toUint32, ofUint32, UInt32.ofInt, Int.emod_eq_of_lt (by omega) (by omega), Int.toNat_natCast,
    UInt32.ofNat_toNat]

@[simp] theorem toUint32_ofInt32 (w : UInt32) : toUint32 (ofInt32 w) = w := by
  have hlt := w.toNat_lt
  have hmod : w.toBitVec.toInt % 2 ^ 32 = w.toNat := by
    rw [BitVec.toInt_eq_toNat_cond]
    split <;> simp only [UInt32.toNat_toBitVec] <;> omega
  rw [toUint32, ofInt32, UInt32.ofInt, hmod, Int.toNat_natCast, UInt32.ofNat_toNat]

@[simp] theorem toUint32_add (x y : Int) : toUint32 (x + y) = toUint32 x + toUint32 y :=
  UInt32.ofInt_add x y

@[simp] theorem toUint32_natCast (n : Nat) : toUint32 n = UInt32.ofNat n := by
  apply UInt32.toNat_inj.mp
  simp only [toUint32, UInt32.ofInt, UInt32.toNat_ofNat']
  omega

@[simp] theorem toUint32_ofNat (n : Nat) :
    toUint32 (no_index (OfNat.ofNat n)) = OfNat.ofNat n :=
  toUint32_natCast n

@[simp] theorem toUint32_sub (x y : Int) : toUint32 (x - y) = toUint32 x - toUint32 y := by
  rw [Int.sub_eq_add_neg, toUint32_add, UInt32.sub_eq_add_neg]
  exact congrArg _ (UInt32.ofInt_neg y)

@[simp] theorem toUint32_shl (x n : Int) : toUint32 (shl x n) = toUint32 x <<< toUint32 n :=
  toUint32_ofInt32 _

@[simp] theorem toUint32_ushr (x n : Int) : toUint32 (ushr x n) = toUint32 x >>> toUint32 n :=
  toUint32_ofUint32 _

@[simp] theorem toUint32_band (x y : Int) : toUint32 (band x y) = toUint32 x &&& toUint32 y :=
  toUint32_ofInt32 _

@[simp] theorem toUint32_bor (x y : Int) : toUint32 (bor x y) = toUint32 x ||| toUint32 y :=
  toUint32_ofInt32 _

@[simp] theorem toUint32_bxor (x y : Int) : toUint32 (bxor x y) = toUint32 x ^^^ toUint32 y :=
  toUint32_ofInt32 _

@[simp] theorem toUint32_bnot (x : Int) : toUint32 (bnot x) = ~~~(toUint32 x) :=
  toUint32_ofInt32 _

@[simp] theorem toUint32_wordAt (words : List UInt32) (i : Nat) :
    toUint32 (wordAt words i) = words.getD i 0 :=
  toUint32_ofUint32 _

@[simp] theorem toUint32_byteAt (buf : Bytes) (i : Nat) :
    toUint32 (byteAt buf i) = (buf.getD i 0).toUInt32 := by
  have hlt := (buf.getD i 0).toNat_lt
  rw [toUint32, byteAt, UInt32.ofInt, Int.emod_eq_of_lt (by omega) (by omega), Int.toNat_natCast]
  exact UInt32.ofNat_uInt8ToNat _

theorem toInt_toUint32 (x : Int) : (toUint32 x).toBitVec.toInt = x.bmod (2 ^ 32) := by
  have hofInt : (toUint32 x).toBitVec = BitVec.ofInt 32 x := by
    apply BitVec.eq_of_toNat_eq
    rw [UInt32.toNat_toBitVec, toUint32, UInt32.ofInt, UInt32.toNat_ofNat', BitVec.toNat_ofInt]
    omega
  rw [hofInt, BitVec.toInt_ofInt]

-- `>> 6` and `<< 6`: they divide and multiply what is left of x in 32 bits.
theorem shr_six (x : Int) : shr x 6 = x.bmod (2 ^ 32) / 64 := by
  rw [shr, toUint32_ofNat, BitVec.toInt_sshiftRight, toInt_toUint32,
    Int.shiftRight_eq_div_pow]
  rfl

theorem shl_six (x : Int) (hlo : -2 ^ 31 ≤ x * 64) (hhi : x * 64 < 2 ^ 31) :
    shl x 6 = x * 64 := by
  have hmul : toUint32 x <<< toUint32 6 = toUint32 (x * 64) := by
    apply UInt32.toNat_inj.mp
    rw [toUint32_ofNat, UInt32.toNat_shiftLeft, toUint32, toUint32, UInt32.ofInt, UInt32.ofInt,
      UInt32.toNat_ofNat', UInt32.toNat_ofNat', Nat.shiftLeft_eq]
    change _ * 64 % 2 ^ 32 = _
    omega
  rw [shl, hmul, ofInt32, toInt_toUint32]
  apply Int.bmod_eq_of_le <;> omega

theorem ofInt_ofInt32 (w : UInt32) : UInt8.ofInt (ofInt32 w) = w.toUInt8 := by
  have hlt := w.toNat_lt
  apply UInt8.toNat_inj.mp
  rw [ofInt32, BitVec.toInt_eq_toNat_cond, UInt32.toNat_toBitVec, UInt8.ofInt, UInt8.toNat_ofNat',
    UInt32.toNat_toUInt8]
  split <;> omega

-- A masked byte is the low byte of the word.
theorem ofInt_band (x : Int) : UInt8.ofInt (band x 0xff) = UInt8.ofNat (toUint32 x).toNat := by
  apply UInt8.toNat_inj.mp
  rw [band, ofInt_ofInt32, UInt32.toNat_toUInt8, UInt32.toNat_and, toUint32_ofNat,
    UInt8.toNat_ofNat']
  change ((toUint32 x).toNat &&& (2 ^ 8 - 1)) % 2 ^ 8 = _
  rw [Nat.and_two_pow_sub_one_eq_mod, Nat.mod_mod]

theorem storeByte_append (front tail : Bytes) (i : Nat) (x : Int) :
    storeByte (front ++ tail) (front.length + i) x = front ++ tail.set i (UInt8.ofInt x) := by
  have hpos : ¬(front.length + i : Int) < 0 := by omega
  have hindex : (front.length + i : Int).toNat = front.length + i := by omega
  rw [storeByte, if_neg hpos, hindex, List.set_append_right _ _ (by omega), Nat.add_sub_cancel_left]

@[simp] theorem length_storeWord (words : List UInt32) (i : Nat) (x : Int) :
    (storeWord words i x).length = words.length :=
  List.length_set

theorem getD_storeWord (words : List UInt32) {i : Nat} (j : Nat) (x : Int) (h : i < words.length) :
    (storeWord words i x).getD j 0 = if j = i then toUint32 x else words.getD j 0 := by
  simp only [storeWord, List.getD_eq_getElem?_getD]
  split_ifs with hj
  · rw [hj, List.getElem?_set_self h]
    rfl
  · rw [List.getElem?_set_ne (Ne.symm hj)]

-- A loop that writes the entries of a Uint32Array in order: each may be
-- computed from those before it.
theorem fill (value : List UInt32 → Nat → Int) (entry : Nat → UInt32) (words : List UInt32)
    (start count : Nat) (hroom : start + count ≤ words.length)
    (hbefore : ∀ j < start, words.getD j 0 = entry j)
    (hvalue : ∀ (ws : List UInt32) (i : Nat), start ≤ i → i < start + count →
      (∀ j < i, ws.getD j 0 = entry j) → toUint32 (value ws i) = entry i) :
    ((List.range' start count).foldl (fun ws i => storeWord ws i (value ws i)) words).length =
        words.length ∧
      ∀ j < start + count, ((List.range' start count).foldl
        (fun ws i => storeWord ws i (value ws i)) words).getD j 0 = entry j := by
  induction count with
  | zero => exact ⟨rfl, hbefore⟩
  | succ count ih =>
      obtain ⟨hlen, hdone⟩ := ih (by omega) fun ws i hlo hhi => hvalue ws i hlo (by omega)
      rw [List.range'_concat, List.foldl_append, Nat.one_mul, List.foldl_cons, List.foldl_nil]
      refine ⟨by rw [length_storeWord, hlen], fun j hj => ?_⟩
      rw [getD_storeWord _ _ _ (by omega)]
      split_ifs with hlast
      · rw [hlast]
        exact hvalue _ _ (by omega) (by omega) hdone
      · exact hdone j (by omega)

end Js
