import DeltaFeedback.Text.Bytes

namespace Text

-- `std::filesystem::path` of a POSIX system, which knows nothing but the text.
namespace Path

def dot : Bytes := [46]

def dotdot : Bytes := [46, 46]

def isAbsolute (p : Bytes) : Bool := p.head? == some 47

-- `p / q`
def append (p q : Bytes) : Bytes :=
  if isAbsolute q then q
  else if p.isEmpty || p.getLast? == some 47 then p ++ q
  else p ++ 47 :: q

-- An element behind the names so far: `..` takes back the one before it, and
-- at the root there is none.
def push (absolute : Bool) (names : List Bytes) (element : Bytes) : List Bytes :=
  if element = [] ∨ element = dot then names
  else if element = dotdot then
    match names.getLast? with
    | none => if absolute then [] else [dotdot]
    | some last => if last = dotdot then names ++ [dotdot] else names.dropLast
  else names ++ [element]

def follow (absolute : Bool) (names : List Bytes) (p : Bytes) : List Bytes :=
  (p.splitOn 47).foldl (push absolute) names

-- The names of a path, with its dots followed.
def names (p : Bytes) : List Bytes := follow (isAbsolute p) [] p

-- A path that ends in a slash or in dots keeps a slash at its end.
def opened (p : Bytes) : Bool :=
  (p.splitOn 47).getLast?.any fun last => last == [] || last == dot || last == dotdot

def lexicallyNormal (p : Bytes) : Bytes :=
  if p.isEmpty then []
  else
    let names := names p
    let text := (if isAbsolute p then [47] else []) ++ [47].intercalate names
    let text := if opened p && !names.isEmpty && names.getLast? != some dotdot then text ++ [47] else text
    if text.isEmpty then dot else text

-- A directory's name has no slash at its end, but for the root's.
def withoutSlash (p : Bytes) : Bytes :=
  if 1 < p.length && p.getLast? == some 47 then p.dropLast else p

example : lexicallyNormal (utf8 "/a//./b/../c/.") = utf8 "/a/c/" := by decide +kernel

example : lexicallyNormal (utf8 "a/../../b") = utf8 "../b" := by decide +kernel

-- The names that stand in a text, as they are.
def elements (p : Bytes) : List Bytes := (p.splitOn 47).filter fun element => !element.isEmpty

-- The first path is the second one or a directory above it.
def Above (root p : Bytes) : Prop := elements root <+: elements p

end Path

end Text
