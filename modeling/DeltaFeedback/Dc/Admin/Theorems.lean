import DeltaFeedback.Dc.Admin

namespace DeltaFeedback.Dc

open Text

-- A ticket's id as the admin writes it: six characters of [A-Z0-9].
def IsTicketId (ticketId : Bytes) : Prop :=
  ticketId.length = 6 ∧ ∀ c ∈ ticketId, isIdChar c = true

def marker (ticketId : Bytes) : Bytes := 91 :: ticketId ++ [93]

def MarkerAt (text : Bytes) (i : Nat) (ticketId : Bytes) : Prop :=
  IsTicketId ticketId ∧ marker ticketId <+: text.drop i

def NoMarker (text : Bytes) : Prop := ∀ i ticketId, ¬MarkerAt text i ticketId

def FirstMarker (text : Bytes) (i : Nat) (ticketId : Bytes) : Prop :=
  MarkerAt text i ticketId ∧ ∀ j other, MarkerAt text j other → i ≤ j

theorem length_marker {ticketId : Bytes} (h : IsTicketId ticketId) : (marker ticketId).length = 8 := by
  simp [marker, h.1]

theorem MarkerAt.length_le {text : Bytes} {i : Nat} {ticketId : Bytes}
    (h : MarkerAt text i ticketId) : i + 8 ≤ text.length := by
  have hle := h.2.length_le
  rw [length_marker h.1, List.length_drop] at hle
  omega

theorem MarkerAt.ticketId_eq {text : Bytes} {i : Nat} {ticketId : Bytes}
    (h : MarkerAt text i ticketId) : (text.drop (i + 1)).take 6 = ticketId := by
  obtain ⟨hid, after, hafter⟩ := h
  rw [← List.drop_drop, ← hafter, marker, ← hid.1]
  simp

-- What the scan tests at an index, character by character.
theorem markerAt_iff_getElem? (text : Bytes) (i : Nat) :
    markerAt text i = true ↔ text[i]? = some 91 ∧ text[i + 7]? = some 93 ∧
      ∀ k < 6, ∃ c, text[i + (k + 1)]? = some c ∧ isIdChar c = true := by
  simp only [markerAt, Bool.and_eq_true, beq_iff_eq, List.all_eq_true, List.mem_range,
    Option.any_eq_true, and_assoc]

theorem markerAt_drop (text : Bytes) (i : Nat) : markerAt text i = markerAt (text.drop i) 0 := by
  simp only [markerAt, List.getElem?_drop, Nat.add_zero, Nat.zero_add]

theorem getElem?_marker (ticketId after : Bytes) {k : Nat} (hk : k < ticketId.length) :
    (marker ticketId ++ after)[0 + (k + 1)]? = some ticketId[k] := by
  simp only [marker, Nat.zero_add, List.cons_append, List.append_assoc, List.getElem?_cons_succ]
  rw [List.getElem?_append_left hk, List.getElem?_eq_getElem hk]

theorem markerAt_iff (text : Bytes) (i : Nat) :
    markerAt text i = true ↔ ∃ ticketId, MarkerAt text i ticketId := by
  rw [markerAt_drop, markerAt_iff_getElem?]
  simp only [MarkerAt]
  generalize text.drop i = rest
  constructor
  · rintro ⟨hopen, hclose, hchars⟩
    match rest, hopen, hclose, hchars with
    | [o, a, b, c, d, e, f], _, hclose, _ => simp at hclose
    | o :: a :: b :: c :: d :: e :: f :: g :: after, hopen, hclose, hchars =>
        simp only [List.getElem?_cons_zero, Option.some.injEq] at hopen
        simp only [List.getElem?_cons_succ, List.getElem?_cons_zero, Option.some.injEq] at hclose
        subst hopen hclose
        refine ⟨[a, b, c, d, e, f], ⟨rfl, ?_⟩, after, rfl⟩
        intro x hx
        obtain ⟨k, hk, rfl⟩ := List.mem_iff_getElem.mp hx
        obtain ⟨y, hy, hid⟩ := hchars k hk
        have hget := getElem?_marker [a, b, c, d, e, f] after hk
        rw [Option.some.inj (hget.symm.trans hy)]
        exact hid
  · rintro ⟨ticketId, ⟨hlen, hchars⟩, after, rfl⟩
    refine ⟨rfl, ?_, ?_⟩
    · match ticketId, hlen with
      | [_, _, _, _, _, _], _ => rfl
    · intro k hk
      have hk : k < ticketId.length := by omega
      exact ⟨_, getElem?_marker ticketId after hk, hchars _ (List.getElem_mem hk)⟩

theorem findMarker_eq_some {text : Bytes} {i : Nat} :
    findMarker text = some i ↔ FirstMarker text i ((text.drop (i + 1)).take 6) := by
  rw [findMarker, List.find?_filter, List.find?_range_eq_some]
  simp only [decide_eq_true_eq, List.mem_range, Bool.not_eq_true', decide_eq_false_iff_not, not_and]
  constructor
  · rintro ⟨⟨_, hat⟩, _, hbefore⟩
    obtain ⟨ticketId, hmarker⟩ := (markerAt_iff text i).mp hat
    refine ⟨by rwa [hmarker.ticketId_eq], fun j other hother => ?_⟩
    by_contra hlt
    exact hbefore j (Nat.lt_of_not_le hlt) hother.length_le ((markerAt_iff text j).mpr ⟨other, hother⟩)
  · rintro ⟨hmarker, hfirst⟩
    have hroom := hmarker.length_le
    refine ⟨⟨hroom, (markerAt_iff text i).mpr ⟨_, hmarker⟩⟩, by omega, fun j hj _ hat => ?_⟩
    obtain ⟨other, hother⟩ := (markerAt_iff text j).mp hat
    exact absurd (hfirst j other hother) (Nat.not_le.mpr hj)

theorem findMarker_eq_none {text : Bytes} : findMarker text = none ↔ NoMarker text := by
  rw [findMarker, List.find?_eq_none]
  constructor
  · intro hnone i ticketId hmarker
    have hroom := hmarker.length_le
    refine hnone i ?_ ((markerAt_iff text i).mpr ⟨ticketId, hmarker⟩)
    exact List.mem_filter.mpr ⟨List.mem_range.mpr (by omega), decide_eq_true hroom⟩
  · intro hno i _ hat
    obtain ⟨ticketId, hmarker⟩ := (markerAt_iff text i).mp hat
    exact hno i ticketId hmarker

theorem parseAdminMessage_first {text : Bytes} {i : Nat} {ticketId : Bytes}
    (h : FirstMarker text i ticketId) :
    parseAdminMessage text = makeKind ticketId (trim (text.take i ++ text.drop (i + 8))) := by
  have hfind : findMarker text = some i := findMarker_eq_some.mpr (by rwa [h.1.ticketId_eq])
  rw [parseAdminMessage, hfind]
  simp only [h.1.ticketId_eq]

theorem parseAdminMessage_none {text : Bytes} (h : NoMarker text) :
    parseAdminMessage text = ⟨.NoTicketId, [], []⟩ := by
  rw [parseAdminMessage, findMarker_eq_none.mpr h]

theorem makeKind_ticketId (ticketId body : Bytes) :
    (makeKind ticketId body).ticketId = ticketId ∧ (makeKind ticketId body).kind ≠ .NoTicketId := by
  unfold makeKind
  split_ifs <;> exact ⟨rfl, AdminKind.noConfusion⟩

-- The quoted text counts where the admin's own text names no ticket.
theorem routeAdminMessage_quotedText {text quotedText : Bytes} {i : Nat} {ticketId : Bytes}
    (htext : NoMarker text) (hquoted : FirstMarker quotedText i ticketId) :
    routeAdminMessage text none quotedText = makeKind ticketId (trim text) := by
  have hkind := makeKind_ticketId ticketId (trim (quotedText.take i ++ quotedText.drop (i + 8)))
  simp only [routeAdminMessage, parseAdminMessage_none htext, parseAdminMessage_first hquoted,
    hkind.1, hkind.2, ne_eq, not_true_eq_false, not_false_eq_true, ite_true, ite_false]

theorem routeAdminMessage_text {text : Bytes} (quotedText : Bytes) {i : Nat} {ticketId : Bytes}
    (h : FirstMarker text i ticketId) : routeAdminMessage text none quotedText =
      makeKind ticketId (trim (text.take i ++ text.drop (i + 8))) := by
  have hkind := makeKind_ticketId ticketId (trim (text.take i ++ text.drop (i + 8)))
  simp only [routeAdminMessage, parseAdminMessage_first h, hkind.2, ne_eq, not_false_eq_true,
    ite_true]

-- A text without markers has none after one is put into it but that one: an
-- earlier one would have to reach over the new bracket.
theorem FirstMarker.insert {ticketId before after : Bytes} (hid : IsTicketId ticketId)
    (h : NoMarker (before ++ after)) :
    FirstMarker (before ++ marker ticketId ++ after) before.length ticketId := by
  refine ⟨⟨hid, after, by simp⟩, fun j other hother => ?_⟩
  by_contra hlt
  obtain ⟨hopen, hclose, hchars⟩ :=
    (markerAt_iff_getElem? _ j).mp ((markerAt_iff _ j).mpr ⟨other, hother⟩)
  have hbracket : (before ++ marker ticketId ++ after)[before.length]? = some 91 := by
    simp [marker]
  by_cases hinside : j + 8 ≤ before.length
  · -- The marker would stand in the text itself.
    have hsame : ∀ k < 8, (before ++ marker ticketId ++ after)[j + k]? = (before ++ after)[j + k]? := by
      intro k hk
      rw [List.append_assoc, List.getElem?_append_left (by omega),
        List.getElem?_append_left (by omega)]
    obtain ⟨found, hfound⟩ := (markerAt_iff (before ++ after) j).mp
      ((markerAt_iff_getElem? _ j).mpr ⟨hsame 0 (by decide) ▸ hopen, hsame 7 (by decide) ▸ hclose,
        fun k hk => hsame (k + 1) (by omega) ▸ hchars k hk⟩)
    exact h j found hfound
  · by_cases hlast : j + 7 = before.length
    · rw [hlast, hbracket] at hclose
      cases hclose
    · obtain ⟨c, hc, hidChar⟩ := hchars (before.length - j - 1) (by omega)
      have hindex : j + (before.length - j - 1 + 1) = before.length := by omega
      rw [hindex, hbracket] at hc
      rw [← Option.some.inj hc] at hidChar
      exact absurd hidChar (by decide)

theorem take_drop_marker {ticketId before after : Bytes} (hid : IsTicketId ticketId) :
    (before ++ marker ticketId ++ after).take before.length ++
      (before ++ marker ticketId ++ after).drop (before.length + 8) = before ++ after := by
  have hlen := length_marker hid
  simp only [List.append_assoc, List.take_left]
  rw [← List.drop_drop, List.drop_left, ← hlen, List.drop_left]

-- The three ways of naming a ticket are one command: by a quoted message that
-- is known, by a marker anywhere in the text, by a marker in the quoted text.
theorem naming_agrees {ticketId before after quotedText : Bytes} {i : Nat}
    {known lookup : Option (UInt32 → Option Bytes)} {knownMsgId quotedMsgId : UInt32}
    (hid : IsTicketId ticketId) (htext : NoMarker (before ++ after))
    (hquoted : FirstMarker quotedText i ticketId)
    (hknown : resolve known knownMsgId = some ticketId)
    (hunknown : resolve lookup quotedMsgId = none) (anyQuoted otherQuoted : Bytes) :
    let s := before ++ after
    let command : AdminRoute :=
      if trim s = utf8 "/close" then ⟨.Close, ticketId, []⟩ else ⟨.Reply, ticketId, trim s⟩
    routeAdminMessage s (resolve known knownMsgId) anyQuoted = command ∧
      routeAdminMessage (before ++ marker ticketId ++ after) (resolve lookup quotedMsgId)
        otherQuoted = command ∧
      routeAdminMessage s (resolve lookup quotedMsgId) quotedText = command := by
  intro s command
  refine ⟨?_, ?_, ?_⟩
  · rw [hknown]
    rfl
  · rw [hunknown, routeAdminMessage_text _ (FirstMarker.insert hid htext), take_drop_marker hid]
    rfl
  · rw [hunknown, routeAdminMessage_quotedText htext hquoted]
    rfl

theorem naming_agrees_sample :
    let s := utf8 " /cl" ++ utf8 "ose\n"
    let command : AdminRoute := ⟨.Close, utf8 "A3F2K9", []⟩
    routeAdminMessage s (resolve (some fun _ => some (utf8 "A3F2K9")) 7) [] = command ∧
      routeAdminMessage (utf8 " /cl" ++ marker (utf8 "A3F2K9") ++ utf8 "ose\n") (resolve none 7)
        [] = command ∧
      routeAdminMessage s (resolve none 7) (utf8 "see [A3F2K9] above") = command := by
  have hid : IsTicketId (utf8 "A3F2K9") := ⟨by decide +kernel, by decide +kernel⟩
  have htext : NoMarker (utf8 " /cl" ++ utf8 "ose\n") := findMarker_eq_none.mp (by decide +kernel)
  have hquoted : FirstMarker (utf8 "see [A3F2K9] above") 4 (utf8 "A3F2K9") :=
    findMarker_eq_some.mp (by decide +kernel)
  have hclose : trim (utf8 " /cl" ++ utf8 "ose\n") = utf8 "/close" := by decide +kernel
  have hknown : resolve (some fun _ => some (utf8 "A3F2K9")) 7 = some (utf8 "A3F2K9") := rfl
  have hunknown : resolve none 7 = none := rfl
  have hagree := naming_agrees hid htext hquoted hknown hunknown [] []
  simpa only [hclose, ite_true] using hagree

end DeltaFeedback.Dc
