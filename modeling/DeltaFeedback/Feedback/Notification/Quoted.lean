import DeltaFeedback.Dc.Admin.Theorems
import DeltaFeedback.Feedback.Notification

namespace DeltaFeedback.Feedback

open Text Dc

theorem isTicketId_makeTicketId (v : UInt64) : IsTicketId (makeTicketId v) := by
  have halpha : ∀ c ∈ kTicketAlpha, isIdChar c = true := by decide +kernel
  exact ⟨length_makeTicketId v, fun c hc => halpha c (mem_alpha_of_mem_ticketIdLoop hc)⟩

-- A notification starts with its ticket's marker, whatever the visitor wrote.
theorem marker_prefix_notification (ticketId visitorIp : Bytes) (whenUnix : Int)
    (locale name body : Bytes) (isReply : Bool) :
    marker ticketId <+:
      formatAdminNotification ticketId visitorIp whenUnix locale name body isReply := by
  have hopen : utf8 "[" = [91] := by decide +kernel
  have hclose : utf8 "] " = [93, 32] := by decide +kernel
  rw [formatAdminNotification, hopen, hclose]
  simp only [marker, List.append_assoc, List.cons_append, List.nil_append]
  rw [List.cons_prefix_cons, List.prefix_append_right_inj]
  exact ⟨rfl, _, rfl⟩

-- So does a quote of it that is cut off after eight bytes or later.
theorem firstMarker_quote {ticketId visitorIp : Bytes} {whenUnix : Int} {locale name body : Bytes}
    {isReply : Bool} {quote : Bytes} (hid : IsTicketId ticketId)
    (hquote : quote <+: formatAdminNotification ticketId visitorIp whenUnix locale name body isReply)
    (hlen : 8 ≤ quote.length) : FirstMarker quote 0 ticketId := by
  have hmarker : marker ticketId <+: quote :=
    List.prefix_of_prefix_length_le (marker_prefix_notification _ _ _ _ _ _ _) hquote
      (by rwa [length_marker hid])
  exact ⟨⟨hid, hmarker⟩, fun _ _ _ => Nat.zero_le _⟩

-- A visitor cannot redirect the answer: what is quoted of a notification names
-- its ticket, and so does an answer that only quotes it.
theorem quote_names_ticket (v : UInt64) (visitorIp : Bytes) (whenUnix : Int)
    (locale name body : Bytes) (isReply : Bool) (quote : Bytes)
    (hquote : quote <+:
      formatAdminNotification (makeTicketId v) visitorIp whenUnix locale name body isReply)
    (hlen : 8 ≤ quote.length) :
    (parseAdminMessage quote).kind ≠ .NoTicketId ∧
    (parseAdminMessage quote).ticketId = makeTicketId v ∧
    ∀ text lookup quotedMsgId, NoMarker text → resolve lookup quotedMsgId = none →
      (routeAdminMessage text (resolve lookup quotedMsgId) quote).kind ≠ .NoTicketId ∧
      (routeAdminMessage text (resolve lookup quotedMsgId) quote).ticketId = makeTicketId v := by
  have hfirst := firstMarker_quote (isTicketId_makeTicketId v) hquote hlen
  have hparse := parseAdminMessage_first hfirst
  refine ⟨?_, ?_, fun text lookup quotedMsgId htext hunknown => ?_⟩
  · rw [hparse]
    exact (makeKind_ticketId _ _).2
  · rw [hparse]
    exact (makeKind_ticketId _ _).1
  · rw [hunknown, routeAdminMessage_quotedText htext hfirst]
    exact (makeKind_ticketId _ _).symm

-- The body carries the marker of another ticket, the quote is cut off in the name.
theorem quote_names_ticket_sample :
    (parseAdminMessage (utf8 "[000000] ? · 2023-11-14 22:13 UTC\n[A3F")).kind ≠ .NoTicketId ∧
    (parseAdminMessage (utf8 "[000000] ? · 2023-11-14 22:13 UTC\n[A3F")).ticketId = makeTicketId 0 ∧
    ∀ text lookup quotedMsgId, NoMarker text → resolve lookup quotedMsgId = none →
      (routeAdminMessage text (resolve lookup quotedMsgId)
        (utf8 "[000000] ? · 2023-11-14 22:13 UTC\n[A3F")).kind ≠ .NoTicketId ∧
      (routeAdminMessage text (resolve lookup quotedMsgId)
        (utf8 "[000000] ? · 2023-11-14 22:13 UTC\n[A3F")).ticketId = makeTicketId 0 :=
  quote_names_ticket 0 [] 1700000000 (utf8 "en") (utf8 "[A3F2K9]") (utf8 "/close [ZZZZZZ]") false _
    ⟨utf8 "2K9] · en\n\n/close [ZZZZZZ]", by decide +kernel⟩ (by decide +kernel)

end DeltaFeedback.Feedback
