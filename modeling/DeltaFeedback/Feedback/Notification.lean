import DeltaFeedback.Pow.Sha256

namespace DeltaFeedback.Feedback

open Text

def kTicketAlpha : Bytes := utf8 "0123456789ABCDEFGHJKMNPQRSTVWXYZ"

def ticketIdLoop (v : UInt64) : Nat → Bytes
  | 0 => []
  | i + 1 => kTicketAlpha.getD (v &&& 0x1F).toNat 0 :: ticketIdLoop (v >>> 5) i

def makeTicketId (v : UInt64) : Bytes := ticketIdLoop v 6

-- Eight bytes of every draw, the low one first.
def makeRandom (draw : Nat → UInt64) (bytes : Nat) : Bytes :=
  (List.range bytes).map fun i => (draw (i / 8) >>> (i % 8 * 8).toUInt64).toUInt8

-- The date of a day number counted from 1 January 1970.
def civilFromDays (days : Int) : Int × Nat × Nat :=
  let shifted := days + 719468
  let era := shifted / 146097
  let dayOfEra := (shifted - era * 146097).toNat
  let yearOfEra := (dayOfEra - dayOfEra / 1460 + dayOfEra / 36524 - dayOfEra / 146096) / 365
  let dayOfYear := dayOfEra - (365 * yearOfEra + yearOfEra / 4 - yearOfEra / 100)
  let shiftedMonth := (5 * dayOfYear + 2) / 153
  let day := dayOfYear - (153 * shiftedMonth + 2) / 5 + 1
  let month := if shiftedMonth < 10 then shiftedMonth + 3 else shiftedMonth - 9
  (yearOfEra + era * 400 + if month ≤ 2 then 1 else 0, month, day)

def twoDigits (n : Nat) : Bytes := if n < 10 then 48 :: decimal n else decimal n

-- `%Y-%m-%d %H:%M UTC`
def formatIso8601Utc (t : Int) : Bytes :=
  let (year, month, day) := civilFromDays (t / 86400)
  let minutes := (t % 86400).toNat / 60
  decimalInt year ++ utf8 "-" ++ twoDigits month ++ utf8 "-" ++ twoDigits day ++ utf8 " " ++
    twoDigits (minutes / 60) ++ utf8 ":" ++ twoDigits (minutes % 60) ++ utf8 " UTC"

def formatAdminNotification (ticketId visitorIp : Bytes) (whenUnix : Int)
    (locale name body : Bytes) (isReply : Bool) : Bytes :=
  utf8 "[" ++ ticketId ++ utf8 "] " ++ (if visitorIp.isEmpty then utf8 "?" else visitorIp) ++
    utf8 " · " ++ formatIso8601Utc whenUnix ++ utf8 "\n" ++
    (if isReply then utf8 "\n"
    else (if name.isEmpty then utf8 "(anonymous)" else name) ++ utf8 " · " ++ locale ++
      utf8 "\n\n") ++ body

example : formatIso8601Utc 1709210096 = utf8 "2024-02-29 12:34 UTC" := by decide +kernel

theorem length_ticketIdLoop (v : UInt64) (n : Nat) : (ticketIdLoop v n).length = n := by
  induction n generalizing v with
  | zero => rfl
  | succ n ih => simp only [ticketIdLoop, List.length_cons, ih]

theorem length_makeTicketId (v : UInt64) : (makeTicketId v).length = 6 := length_ticketIdLoop v 6

theorem mem_alpha_of_mem_ticketIdLoop {v : UInt64} {n : Nat} {c : UInt8}
    (h : c ∈ ticketIdLoop v n) : c ∈ kTicketAlpha := by
  induction n generalizing v with
  | zero => simp [ticketIdLoop] at h
  | succ n ih =>
      rcases List.mem_cons.mp h with rfl | hrest
      · have hindex : (v &&& 0x1F).toNat < kTicketAlpha.length := by
          have hle : (v &&& 0x1F).toNat ≤ 31 := by
            rw [UInt64.toNat_and]
            exact Nat.and_le_right
          exact lt_of_le_of_lt hle (by decide)
        rw [List.getD_eq_getElem?_getD, List.getElem?_eq_getElem hindex, Option.getD_some]
        exact List.getElem_mem hindex
      · exact ih hrest

theorem ne_zero_of_mem_ticketIdLoop {v : UInt64} {n : Nat} {c : UInt8}
    (h : c ∈ ticketIdLoop v n) : c ≠ 0 := by
  have halpha : ∀ c ∈ kTicketAlpha, c ≠ 0 := by decide +kernel
  exact halpha c (mem_alpha_of_mem_ticketIdLoop h)

-- A text that reaches the admin as a notification of a ticket.
def Notifies (ticketId text : Bytes) : Prop :=
  ∃ visitorIp whenUnix locale name body isReply,
    text = cStr (formatAdminNotification ticketId visitorIp whenUnix locale name body isReply)

-- It names the ticket: one text is not the notification of two tickets.
theorem Notifies.ticketId {v w : UInt64} {text : Bytes} (hv : Notifies (makeTicketId v) text)
    (hw : Notifies (makeTicketId w) text) : makeTicketId v = makeTicketId w := by
  have hbracket : ∀ c ∈ utf8 "[", c ≠ 0 := by decide +kernel
  have hhead : ∀ v, ∀ c ∈ utf8 "[" ++ makeTicketId v, c ≠ 0 := by
    intro v c hc
    rcases List.mem_append.mp hc with hc | hc
    · exact hbracket c hc
    · exact ne_zero_of_mem_ticketIdLoop hc
  obtain ⟨_, _, _, _, _, _, rfl⟩ := hv
  obtain ⟨_, _, _, _, _, _, htext⟩ := hw
  simp only [formatAdminNotification, List.append_assoc] at htext
  rw [← List.append_assoc, ← List.append_assoc (utf8 "["), cStr_append _ (hhead v),
    cStr_append _ (hhead w)] at htext
  exact List.append_cancel_left (List.append_inj htext (by simp [length_makeTicketId])).1

end DeltaFeedback.Feedback
