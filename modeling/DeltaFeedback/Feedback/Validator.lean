import DeltaFeedback.Text.Bytes

namespace DeltaFeedback.Feedback

open Text

structure Limits where
  messageMaxChars : Nat
  nameMaxChars : Nat
  minFillTimeMs : Int

inductive FieldError
  | Ok
  | Empty
  | TooLong
  | BadChars
  | BadLocale
  | HoneypotTripped
  | FilledTooFast
deriving DecidableEq

structure ValidationReport where
  name : FieldError
  message : FieldError
  locale : FieldError
  honeypot : FieldError
  timing : FieldError
deriving DecidableEq

def ValidationReport.ok (r : ValidationReport) : Bool :=
  r.name == .Ok && r.message == .Ok && r.locale == .Ok && r.honeypot == .Ok && r.timing == .Ok

structure SubmissionInput where
  name : Bytes
  message : Bytes
  locale : Bytes
  honeypot : Bytes
  fillTimeMs : Int

def utf8CodepointCount (s : Bytes) : Nat := s.countP fun c => c &&& 0xC0 != 0x80

def hasDisallowedControlChars (s : Bytes) : Bool :=
  s.any fun c => (c < 0x20 && c != 9 && c != 10 && c != 13) || c == 0x7F

def checkText (s : Bytes) (maxChars : Nat) (allowEmpty : Bool) : FieldError :=
  if s.isEmpty then if allowEmpty then .Ok else .Empty
  else if hasDisallowedControlChars s then .BadChars
  else if utf8CodepointCount s > maxChars then .TooLong
  else .Ok

namespace Limits

variable (limits : Limits)

def validate (input : SubmissionInput) : ValidationReport where
  honeypot := if input.honeypot.isEmpty then .Ok else .HoneypotTripped
  timing := if input.fillTimeMs < limits.minFillTimeMs then .FilledTooFast else .Ok
  name := checkText input.name limits.nameMaxChars true
  message := checkText input.message limits.messageMaxChars false
  locale := if input.locale ≠ utf8 "ru" ∧ input.locale ≠ utf8 "en" then .BadLocale else .Ok

def validateReply (text : Bytes) : FieldError := checkText text limits.messageMaxChars false

end Limits

end DeltaFeedback.Feedback
