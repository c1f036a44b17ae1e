import DeltaFeedback.World

namespace DeltaFeedback.Server

open Text

-- What a handler asks of a request: get_header_value (empty where there is no
-- such header), the peer's address, url_params.get, the raw body.
structure Request where
  header : Bytes → Bytes
  remoteIpAddress : Bytes
  urlParam : Bytes → Option Bytes
  body : Bytes

structure TicketMessage where
  sender : Bytes
  body : Bytes
  createdAt : Int
deriving DecidableEq

-- A response's body: a text, or one of the JSON objects the handlers build.
inductive Body
  | Text (text : Bytes)
  | Captcha (token : Bytes) (difficulty : UInt32) (expiresAt : Int)
  | Code (code : Bytes)
  | Submitted (code ticketId readToken : Bytes)
  | Ticket (status : Bytes) (messages : List TicketMessage)
deriving DecidableEq

structure Response where
  code : Nat
  headers : List (Bytes × Bytes)
  body : Body
deriving DecidableEq

def Response.text (code : Nat) (text : Bytes) : Response := ⟨code, [], .Text text⟩

-- `{"code":"..."}`
def Response.error (code : Nat) (what : String) : Response :=
  .text code (utf8 ("\x7b\"code\":\"" ++ what ++ "\"\x7d"))

def Response.json (code : Nat) (body : Body) : Response :=
  ⟨code, [(utf8 "Content-Type", utf8 "application/json")], body⟩

-- What ends a handler before it has an answer.
inductive Thrown
  | Sql (exn : SqlError)
  | Json (what : Bytes)
deriving DecidableEq

-- Crow, as far as the handlers rely on it: its JSON reader, whose accessors
-- can throw, and what it answers for a handler that has thrown.
structure Crow (Json : Type) where
  load : Bytes → Option Json
  has : Json → Bytes → Except Bytes Bool
  isString : Json → Bytes → Except Bytes Bool
  s : Json → Bytes → Except Bytes Bytes
  i : Json → Bytes → Except Bytes Int
  handleException : Thrown → Response

def takeFirst (s : Bytes) : Bytes :=
  let s := trim (s.takeWhile fun c => c != 44)
  let s :=
    if s.head? = some 91 then
      match s.findIdx? fun c => c == 93 with
      | some rb => (s.drop 1).take (rb - 1)
      | none => s
    else if s.count 58 = 1 then s.takeWhile fun c => c != 58
    else s
  s.take 64

def visitorIp (req : Request) : Bytes :=
  let xff := req.header (utf8 "X-Forwarded-For")
  if !xff.isEmpty then takeFirst xff
  else
    let xri := req.header (utf8 "X-Real-IP")
    if !xri.isEmpty then takeFirst xri else req.remoteIpAddress

example : takeFirst (utf8 " [2001:db8::1]:443 , 10.0.0.1") = utf8 "2001:db8::1" := by decide +kernel

def kPrefix : Bytes := utf8 "Bearer "

def bearer (req : Request) : Bytes :=
  let h := req.header (utf8 "Authorization")
  if kPrefix.isPrefixOf h then h.drop kPrefix.length else []

end DeltaFeedback.Server
