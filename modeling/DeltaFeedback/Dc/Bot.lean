import DeltaFeedback.Dc.Admin
import DeltaFeedback.Dc.Sender

namespace DeltaFeedback.Dc

open Text Interleaving Db

-- A message as the event loop reads it; `quotedMsgId` is 0 where nothing is quoted.
structure IncomingMsg where
  msgId : UInt32
  fromId : UInt32
  text : Bytes
  quotedMsgId : UInt32
  quotedText : Bytes

def kOwnerKey : Bytes := utf8 "owner_contact_id"

def kWelcome : Bytes :=
  utf8 "Вы зарегистрированы как администратор обратной связи. " ++
    utf8 "Все новые обращения с формы будут приходить сюда. " ++
    utf8 "Чтобы ответить — нажмите «ответить» или начните сообщение с [ID]. " ++
    utf8 "Команда закрытия: [ID] /close"

def kNoTicketId : Bytes :=
  utf8 "Ответьте на сообщение бота через «reply» — или укажите [ID] тикета " ++
    utf8 "в первой строке."

def kEmptyReply : Bytes := utf8 "Пустой ответ — ничего не отправлено."

def notFoundText (ticketId : Bytes) : Bytes :=
  utf8 "Тикет [" ++ ticketId ++ utf8 "] не найден (возможно, удалён по сроку)."

def alreadyClosedText (ticketId : Bytes) : Bytes :=
  utf8 "Тикет [" ++ ticketId ++ utf8 "] уже закрыт."

def closedText (ticketId : Bytes) : Bytes := utf8 "Тикет [" ++ ticketId ++ utf8 "] закрыт."

def sendTo (dc : Delivery) (contactId : UInt32) (text : Bytes) (quoteMsgId : UInt32) :
    Proc Unit := do
  if contactId = 0 then return
  if dc.chat = 0 then return
  if quoteMsgId = 0 then
    let _ : UInt32 ← perform (.DcSend contactId (cStr text) 0 dc.id)
    return
  if !dc.msgNew then return
  let _ : UInt32 ← perform (.DcSend contactId (cStr text) (dc.quote quoteMsgId) dc.id)
  return

-- The lookup is only made for a quoted message.
def lookup (quotedMsgId : UInt32) : Proc (Option Bytes) :=
  if quotedMsgId = 0 then return none else MessagesRepo.findTicketByDcMsgId quotedMsgId

def routeAdminMsg (dc : Delivery) (now : Int) (ownerContactId : UInt32) (msg : IncomingMsg) :
    Proc Unit := do
  let quoted ← lookup msg.quotedMsgId
  let route := routeAdminMessage msg.text quoted msg.quotedText
  if route.kind = .NoTicketId then
    sendTo dc ownerContactId kNoTicketId 0
    return
  let some t ← TicketsRepo.get route.ticketId |
    sendTo dc ownerContactId (notFoundText route.ticketId) 0
  if t.status = .Closed then
    sendTo dc ownerContactId (alreadyClosedText route.ticketId) 0
    return
  if route.kind = .Close then
    TicketsRepo.close route.ticketId now
    sendTo dc ownerContactId (closedText route.ticketId) msg.msgId
    return
  if route.body.isEmpty then
    sendTo dc ownerContactId kEmptyReply 0
    return
  let _ ← MessagesRepo.append route.ticketId .Admin route.body now []
  TicketsRepo.setStatus route.ticketId .AwaitingVisitor

-- DC_EVENT_INCOMING_MSG. Read receipts, and the block and the deleted chat of a
-- stranger, stay inside Delta Chat.
def incomingMsg (dc : Delivery) (now : Int) (msg : IncomingMsg) : Proc Unit := do
  let currentOwner : UInt32 ← perform .OwnerLoad
  if currentOwner = 0 then
    perform (.OwnerStore msg.fromId)
    StateRepo.set kOwnerKey (decimal msg.fromId.toNat)
    sendTo dc msg.fromId kWelcome 0
  else if msg.fromId = currentOwner then
    routeAdminMsg dc now currentOwner msg
  else return

-- Bot::Bot. What stoul throws is ignored; its 64 bits are cut to 32.
def bot : Proc Unit := do
  match ← StateRepo.get kOwnerKey with
  | none => return
  | some stored =>
      if stored.isEmpty then return
      match stoul stored with
      | none => return
      | some contact => perform (.OwnerStore contact.toUInt32)

end DeltaFeedback.Dc
