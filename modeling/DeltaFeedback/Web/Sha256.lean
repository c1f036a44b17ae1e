import DeltaFeedback.Js.Number

namespace DeltaFeedback.Web.SHA256

open Text Js

def K : List UInt32 := [
  0x428a2f98, 0x71374491, 0xb5c0fbcf, 0xe9b5dba5, 0x3956c25b, 0x59f111f1, 0x923f82a4, 0xab1c5ed5,
  0xd807aa98, 0x12835b01, 0x243185be, 0x550c7dc3, 0x72be5d74, 0x80deb1fe, 0x9bdc06a7, 0xc19bf174,
  0xe49b69c1, 0xefbe4786, 0x0fc19dc6, 0x240ca1cc, 0x2de92c6f, 0x4a7484aa, 0x5cb0a9dc, 0x76f988da,
  0x983e5152, 0xa831c66d, 0xb00327c8, 0xbf597fc7, 0xc6e00bf3, 0xd5a79147, 0x06ca6351, 0x14292967,
  0x27b70a85, 0x2e1b2138, 0x4d2c6dfc, 0x53380d13, 0x650a7354, 0x766a0abb, 0x81c2c92e, 0x92722c85,
  0xa2bfe8a1, 0xa81a664b, 0xc24b8b70, 0xc76c51a3, 0xd192e819, 0xd6990624, 0xf40e3585, 0x106aa070,
  0x19a4c116, 0x1e376c08, 0x2748774c, 0x34b0bcb5, 0x391c0cb3, 0x4ed8aa4a, 0x5b9cca4f, 0x682e6ff3,
  0x748f82ee, 0x78a5636f, 0x84c87814, 0x8cc70208, 0x90befffa, 0xa4506ceb, 0xbef9a3f7, 0xc67178f2]

def rotr (x n : Int) : Int := bor (ushr x n) (shl x (32 - n))

-- The message with its padding; it throws where padLen, a signed 32-bit
-- result, is no longer the length that is needed.
def padded (bytes : Bytes) : Except RangeError Bytes := do
  let len : Int := bytes.length
  let bitLenLo := ushr (len * 8) 0
  let bitLenHi := len / 0x20000000
  let padLen := shl (shr (len + 9 + 63) 6) 6
  let buf ← newUint8Array padLen
  let buf ← setBytes buf bytes
  let buf := storeByte buf len 0x80
  let buf := storeByte buf (padLen - 8) (band (ushr bitLenHi 24) 0xff)
  let buf := storeByte buf (padLen - 7) (band (ushr bitLenHi 16) 0xff)
  let buf := storeByte buf (padLen - 6) (band (ushr bitLenHi 8) 0xff)
  let buf := storeByte buf (padLen - 5) (band bitLenHi 0xff)
  let buf := storeByte buf (padLen - 4) (band (ushr bitLenLo 24) 0xff)
  let buf := storeByte buf (padLen - 3) (band (ushr bitLenLo 16) 0xff)
  let buf := storeByte buf (padLen - 2) (band (ushr bitLenLo 8) 0xff)
  return storeByte buf (padLen - 1) (band bitLenLo 0xff)

-- The variables h0 .. h7, and a .. h of a block's rounds.
structure Vars where
  (a b c d e f g h : Int)

def initial : Vars :=
  ⟨0x6a09e667, 0xbb67ae85, 0x3c6ef372, 0xa54ff53a, 0x510e527f, 0x9b05688c, 0x1f83d9ab, 0x5be0cd19⟩

def loadWord (buf : Bytes) (off i : Nat) : Int :=
  bor (bor (bor (shl (byteAt buf (off + 4 * i)) 24) (shl (byteAt buf (off + 4 * i + 1)) 16))
    (shl (byteAt buf (off + 4 * i + 2)) 8)) (byteAt buf (off + 4 * i + 3))

def extendWord (W : List UInt32) (i : Nat) : Int :=
  let s0 := bxor (bxor (rotr (wordAt W (i - 15)) 7) (rotr (wordAt W (i - 15)) 18))
    (ushr (wordAt W (i - 15)) 3)
  let s1 := bxor (bxor (rotr (wordAt W (i - 2)) 17) (rotr (wordAt W (i - 2)) 19))
    (ushr (wordAt W (i - 2)) 10)
  ushr (wordAt W (i - 16) + s0 + wordAt W (i - 7) + s1) 0

-- The array W of one block, written over that of the block before.
def schedule (buf : Bytes) (off : Nat) (W : List UInt32) : List UInt32 :=
  let W := (List.range' 0 16).foldl (fun W i => storeWord W i (loadWord buf off i)) W
  (List.range' 16 48).foldl (fun W i => storeWord W i (extendWord W i)) W

def round (W : List UInt32) (v : Vars) (i : Nat) : Vars :=
  let S1 := bxor (bxor (rotr v.e 6) (rotr v.e 11)) (rotr v.e 25)
  let ch := bxor (band v.e v.f) (band (bnot v.e) v.g)
  let t1 := ushr (v.h + S1 + ch + wordAt K i + wordAt W i) 0
  let S0 := bxor (bxor (rotr v.a 2) (rotr v.a 13)) (rotr v.a 22)
  let mj := bxor (bxor (band v.a v.b) (band v.a v.c)) (band v.b v.c)
  let t2 := ushr (S0 + mj) 0
  ⟨ushr (t1 + t2) 0, v.a, v.b, v.c, ushr (v.d + t1) 0, v.e, v.f, v.g⟩

def block (buf : Bytes) (H : Vars × List UInt32) (off : Nat) : Vars × List UInt32 :=
  let W := schedule buf off H.2
  let h := H.1
  let v := (List.range' 0 64).foldl (round W) h
  (⟨ushr (h.a + v.a) 0, ushr (h.b + v.b) 0, ushr (h.c + v.c) 0, ushr (h.d + v.d) 0,
    ushr (h.e + v.e) 0, ushr (h.f + v.f) 0, ushr (h.g + v.g) 0, ushr (h.h + v.h) 0⟩, W)

def outWord (x : Int) : Bytes :=
  [UInt8.ofInt (band (ushr x 24) 0xff), UInt8.ofInt (band (ushr x 16) 0xff),
    UInt8.ofInt (band (ushr x 8) 0xff), UInt8.ofInt (band x 0xff)]

-- The block loop runs over the multiples of 64 below padLen.
def sha256Bytes (bytes : Bytes) : Except RangeError Bytes := do
  let buf ← padded bytes
  let offs := List.range' 0 ((buf.length + 63) / 64) 64
  let h := (offs.foldl (block buf) (initial, List.replicate 64 0)).1
  return [h.a, h.b, h.c, h.d, h.e, h.f, h.g, h.h].flatMap outWord

-- The inner loop from bit j - 1 down: the zero bits before the first one.
def zeroBitsFrom (b : Int) : Nat → Nat
  | 0 => 0
  | j + 1 => if band (shr b j) 1 ≠ 0 then 0 else zeroBitsFrom b j + 1

def leadingZeroBits : Bytes → Nat
  | [] => 0
  | b :: rest => if b = 0 then 8 + leadingZeroBits rest else zeroBitsFrom b.toNat 8

-- The loop from n on, with the tries that are left; none stands for null.
def findNonceFrom (head : Bytes) (bits : Nat) : Nat → Nat → Except RangeError (Option String)
  | 0, _ => .ok none
  | tries + 1, n => do
      let ns := toString n
      let buf := head ++ ns.toList.map fun c => UInt8.ofInt c.toNat
      let d ← sha256Bytes buf
      if leadingZeroBits d ≥ bits then return some ns else findNonceFrom head bits tries (n + 1)

def findNonce (token : String) (bits : Nat) : Except RangeError (Option String) :=
  findNonceFrom (utf8 (token ++ ":")) bits 0x7fffffff 0

end DeltaFeedback.Web.SHA256
