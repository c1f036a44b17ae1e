import DeltaFeedback.Text.Bytes
import Mathlib.Algebra.Group.Int.Defs

namespace Text

-- `std::stoi`, none where it throws.
def stoi (s : Bytes) : Option Int :=
  let s := s.dropWhile isSpace
  let negative := s.head? = some 45
  let digits := (if negative ∨ s.head? = some 43 then s.drop 1 else s).takeWhile isDigit
  let v : Int := if negative then -digitsValue digits else digitsValue digits
  if digits.isEmpty ∨ v < -2 ^ 31 ∨ v ≥ 2 ^ 31 then none else some v

end Text

namespace DeltaFeedback.App

open Text

-- `std::map`, which is walked through in the order of the keys.
structure Config where
  kv : Std.TreeMap Bytes Bytes

namespace Config

-- The four characters that a line of a config file is trimmed of.
def isBlank (c : UInt8) : Bool := c == 32 || c == 9 || c == 13 || c == 10

def trim (s : Bytes) : Bytes := (s.dropWhile isBlank).rdropWhile isBlank

def empty : Config := ⟨∅⟩

variable (config : Config)

def has (key : Bytes) : Bool := config.kv[key]?.any fun value => !value.isEmpty

def get (key fallback : Bytes) : Bytes :=
  match config.kv[key]? with
  | some value => if value.isEmpty then fallback else value
  | none => fallback

def getInt (key : Bytes) (fallback : Int) : Int :=
  match config.kv[key]? with
  | some value => if value.isEmpty then fallback else (stoi value).getD fallback
  | none => fallback

def set (key value : Bytes) : Config := ⟨config.kv.insert key value⟩

def loadLine (line : Bytes) : Config :=
  let t := trim line
  if t.isEmpty || t.head? == some 35 then config
  else if 61 ∈ t then
    let key := t.takeWhile fun c => c != 61
    config.set (trim key) (trim (t.drop (key.length + 1)))
  else config

-- The text of a file that is not there is empty.
def load (text : Bytes) : Config := (text.splitOn 10).foldl loadLine empty

-- The text that is written to the file.
def save : Bytes := config.kv.toList.flatMap fun (k, v) => k ++ [61] ++ v ++ [10]

-- Every value of the other file is set, the empty ones too.
def overlay (other : Config) : Config := other.kv.foldl (fun cfg k v => cfg.set k v) config

theorem getElem?_set (key value asked : Bytes) :
    (config.set key value).kv[asked]? = if key = asked then some value else config.kv[asked]? := by
  rw [set, Std.TreeMap.getElem?_insert]
  simp only [Std.LawfulEqCmp.compare_eq_iff_eq]

end Config

end DeltaFeedback.App
