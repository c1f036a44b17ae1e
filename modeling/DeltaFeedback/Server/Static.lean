import DeltaFeedback.Server.Http
import DeltaFeedback.Text.Path

namespace DeltaFeedback.Server

open Text

-- What the file system says of a path, none where it reports an error.
structure Entry where
  fileSize : Option Nat
  lastWriteTime : Option Int
  content : Option Bytes

def mimeFor (path : Bytes) : Bytes :=
  if 46 ∈ path then
    let ext := 46 :: path.rtakeWhile fun c => c != 46
    if ext = utf8 ".html" then utf8 "text/html; charset=utf-8"
    else if ext = utf8 ".css" then utf8 "text/css; charset=utf-8"
    else if ext = utf8 ".js" then utf8 "application/javascript; charset=utf-8"
    else if ext = utf8 ".json" then utf8 "application/json; charset=utf-8"
    else if ext = utf8 ".svg" then utf8 "image/svg+xml"
    else if ext = utf8 ".png" then utf8 "image/png"
    else if ext = utf8 ".ico" then utf8 "image/x-icon"
    else utf8 "application/octet-stream"
  else utf8 "application/octet-stream"

-- On a file system without symbolic links: a directory that is there is named
-- without the slash that its normal form may end in.
def weaklyCanonical (p : Bytes) : Bytes := Path.withoutSlash (Path.lexicallyNormal p)

-- The traversal check: the text of the root starts that of the file.
def inside (root rel : Bytes) : Bool :=
  let full := weaklyCanonical (Path.append root rel)
  let rootc := weaklyCanonical root
  !(full.length < rootc.length || full.take rootc.length != rootc)

-- The error of file_size is forgotten when last_write_time has none; the size
-- is then -1 as uintmax_t.
def etagOf (fsize : Option Nat) (ftime : Int) : Bytes :=
  [34] ++ decimalInt ftime ++ [45] ++ decimal (fsize.getD (2 ^ 64 - 1)) ++ [34]

def fileResponse (files : Bytes → Entry) (root rel : Bytes) (req : Request) : Response :=
  let full := weaklyCanonical (Path.append root rel)
  if !inside root rel then .text 404 []
  else
    let entry := files full
    match entry.lastWriteTime with
    | none => .text 404 []
    | some ftime =>
        let etag := etagOf entry.fileSize ftime
        let inm := req.header (utf8 "If-None-Match")
        if !inm.isEmpty && inm == etag then
          ⟨304, [(utf8 "ETag", etag), (utf8 "Cache-Control", utf8 "no-cache")], .Text []⟩
        else
          match entry.content with
          | none => .text 404 []
          | some text =>
              ⟨200, [(utf8 "Content-Type", mimeFor full), (utf8 "Cache-Control", utf8 "no-cache"),
                (utf8 "ETag", etag)], .Text text⟩

-- The routes of the page and its files.
inductive StaticRoute
  | Index
  | Ticket (id : Bytes)
  | Static (p : Bytes)
  | Favicon
  | Locale (p : Bytes)

def StaticRoute.rel : StaticRoute → Bytes
  | .Index => utf8 "index.html"
  | .Ticket _ => utf8 "index.html"
  | .Static p => p
  | .Favicon => utf8 "favicon.ico"
  | .Locale p => utf8 "locales/" ++ p

end DeltaFeedback.Server
