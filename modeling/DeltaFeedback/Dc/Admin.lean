import DeltaFeedback.Text.Bytes

namespace DeltaFeedback.Dc

open Text

-- The kinds of AdminCommand and of AdminRoute are the same three.
inductive AdminKind
  | Reply
  | Close
  | NoTicketId
deriving DecidableEq

structure AdminRoute where
  kind : AdminKind
  ticketId : Bytes
  body : Bytes
deriving DecidableEq

def kClose : Bytes := utf8 "/close"

def isIdChar (c : UInt8) : Bool := (65 ≤ c && c ≤ 90) || (48 ≤ c && c ≤ 57)

-- The test of the scan at index i: `[`, six id characters, `]`.
def markerAt (text : Bytes) (i : Nat) : Bool :=
  text[i]? == some 91 && text[i + 7]? == some 93 &&
    (List.range 6).all fun k => (text[i + (k + 1)]?).any isIdChar

def findMarker (text : Bytes) : Option Nat :=
  ((List.range text.length).filter fun i => i + 8 ≤ text.length).find? (markerAt text)

def makeKind (ticketId body : Bytes) : AdminRoute :=
  if body = kClose then ⟨.Close, ticketId, []⟩ else ⟨.Reply, ticketId, body⟩

def parseAdminMessage (text : Bytes) : AdminRoute :=
  match findMarker text with
  | none => ⟨.NoTicketId, [], []⟩
  | some i => makeKind ((text.drop (i + 1)).take 6) (trim (text.take i ++ text.drop (i + 8)))

-- `quoted` is what the lookup gave for the quoted message, none where nothing was looked up.
def routeAdminMessage (text : Bytes) (quoted : Option Bytes) (quotedText : Bytes) : AdminRoute :=
  match quoted with
  | some ticketId => makeKind ticketId (trim text)
  | none =>
      let cmd := parseAdminMessage text
      if cmd.kind ≠ .NoTicketId then cmd
      else
        let qcmd := parseAdminMessage quotedText
        if qcmd.kind ≠ .NoTicketId then makeKind qcmd.ticketId (trim text)
        else ⟨.NoTicketId, [], []⟩

-- The lookup, an empty function or one of the quoted message's id, is only
-- made for a quoted message.
def resolve (lookup : Option (UInt32 → Option Bytes)) (quotedMsgId : UInt32) : Option Bytes :=
  if quotedMsgId = 0 then none else lookup.bind fun find => find quotedMsgId

example : parseAdminMessage (utf8 "hi [AB] [A3F2K9] all done\n") =
    ⟨.Reply, utf8 "A3F2K9", utf8 "hi [AB]  all done"⟩ := by decide +kernel

end DeltaFeedback.Dc
