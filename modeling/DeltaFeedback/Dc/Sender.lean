import DeltaFeedback.Db.Repos

namespace DeltaFeedback.Dc

open Text Interleaving

-- What Delta Chat answers while a message is sent: the chat with the contact,
-- whether it makes a message object, whether it still has the message to
-- quote, and the id of the sent message. 0 stands for a failure.
structure Delivery where
  chat : UInt32
  msgNew : Bool
  getMsg : Bool
  id : UInt32
deriving DecidableEq

-- Without the message to quote, the text is sent without a quote.
def Delivery.quote (dc : Delivery) (quoteMsgId : UInt32) : UInt32 :=
  if dc.getMsg then quoteMsgId else 0

def sendToOwner (dc : Delivery) (text : Bytes) (quoteMsgId : UInt32) : Proc (Option UInt32) := do
  let owner : UInt32 ← perform .OwnerLoad
  if owner = 0 then return none
  if dc.chat = 0 then return none
  if quoteMsgId = 0 then
    let id : UInt32 ← perform (.DcSend owner (cStr text) 0 dc.id)
    return if id = 0 then none else some id
  if !dc.msgNew then return none
  let id : UInt32 ← perform (.DcSend owner (cStr text) (dc.quote quoteMsgId) dc.id)
  return if id = 0 then none else some id

def ownerContactId : Proc (Option UInt32) := do
  let v : UInt32 ← perform .OwnerLoad
  return if v = 0 then none else some v

end DeltaFeedback.Dc
