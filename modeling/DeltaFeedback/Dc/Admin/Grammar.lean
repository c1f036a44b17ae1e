import DeltaFeedback.Dc.Admin.Theorems
import DeltaFeedback.Text.Strip

namespace DeltaFeedback.Dc

open Text

-- The parser with every read of the text checked, none where one is outside of it.
namespace Checked

def idChars (text : Bytes) (i : Nat) : List Nat → Option Bool
  | [] => some true
  | k :: ks => do
      let c ← text[i + k]?
      if isIdChar c then idChars text i ks else some false

def markerAt (text : Bytes) (i : Nat) : Option Bool := do
  let first ← text[i]?
  if first ≠ 91 then some false
  else
    let last ← text[i + 7]?
    if last ≠ 93 then some false else idChars text i [1, 2, 3, 4, 5, 6]

def scan (text : Bytes) (i : Nat) : Option (Option Nat) :=
  if i + 8 ≤ text.length then
    match markerAt text i with
    | none => none
    | some true => some (some i)
    | some false => scan text (i + 1)
  else some none
termination_by text.length - i

def slice (s : Bytes) (pos len : Nat) : Option Bytes :=
  if pos + len ≤ s.length then some ((s.drop pos).take len) else none

def trimStart (s : Bytes) (a : Nat) : Option Nat :=
  if a < s.length then
    match s[a]? with
    | none => none
    | some c => if isSpace c then trimStart s (a + 1) else some a
  else some a
termination_by s.length - a

def trimEnd (s : Bytes) (a : Nat) : Nat → Option Nat
  | 0 => some 0
  | b + 1 =>
      if b + 1 > a then
        match s[b]? with
        | none => none
        | some c => if isSpace c then trimEnd s a b else some (b + 1)
      else some (b + 1)

def trim (s : Bytes) : Option Bytes := do
  let a ← trimStart s 0
  let b ← trimEnd s a s.length
  slice s a (b - a)

def parseAdminMessage (text : Bytes) : Option AdminRoute := do
  match ← scan text 0 with
  | none => some ⟨.NoTicketId, [], []⟩
  | some i =>
      let ticketId ← slice text (i + 1) 6
      let front ← slice text 0 i
      let back ← slice text (i + 8) (text.length - i - 8)
      let body ← trim (front ++ back)
      some (makeKind ticketId body)

end Checked

section Scan

variable {text : Bytes} {i : Nat}

theorem checked_idChars {ks : List Nat} (h : ∀ k ∈ ks, i + k < text.length) :
    Checked.idChars text i ks = some (ks.all fun k => (text[i + k]?).any isIdChar) := by
  induction ks with
  | nil => rfl
  | cons k ks ih =>
      obtain ⟨hk, hks⟩ := List.forall_mem_cons.mp h
      have hget := List.getElem?_eq_getElem hk
      rw [Checked.idChars, hget, List.all_cons, hget, ih hks]
      by_cases hid : isIdChar text[i + k] = true
      · simp [hid]
      · simp [hid]

theorem checked_markerAt (h : i + 8 ≤ text.length) :
    Checked.markerAt text i = some (markerAt text i) := by
  have hfirst := List.getElem?_eq_getElem (l := text) (i := i) (by omega)
  have hlast := List.getElem?_eq_getElem (l := text) (i := i + 7) (by omega)
  have hroom : ∀ k ∈ [1, 2, 3, 4, 5, 6], i + k < text.length := by
    intro k hk
    have hle : k ≤ 6 := by
      revert k
      decide
    omega
  have hchars := checked_idChars hroom
  have hrange : ((List.range 6).all fun k => (text[i + (k + 1)]?).any isIdChar) =
      [1, 2, 3, 4, 5, 6].all fun k => (text[i + k]?).any isIdChar := rfl
  rw [Checked.markerAt, markerAt, hchars, hrange, hfirst, hlast]
  by_cases hopen : text[i] = 91
  · by_cases hclose : text[i + 7] = 93
    · simp [hopen, hclose]
    · simp [hopen, hclose]
  · simp [hopen]

-- From i on the scan finds the least index at which a marker starts.
theorem checked_scan (text : Bytes) (i : Nat) :
    (Checked.scan text i = some none ∧
        ∀ j, i ≤ j → j + 8 ≤ text.length → markerAt text j = false) ∨
      ∃ j, Checked.scan text i = some (some j) ∧ i ≤ j ∧ markerAt text j = true ∧
        ∀ k, i ≤ k → k < j → markerAt text k = false := by
  induction i using Checked.scan.induct text with
  | case1 i hroom hnone =>
      rw [checked_markerAt hroom] at hnone
      cases hnone
  | case2 i hroom hfound =>
      rw [Checked.scan, if_pos hroom, hfound]
      rw [checked_markerAt hroom] at hfound
      exact .inr ⟨i, rfl, le_refl i, Option.some.inj hfound, by omega⟩
  | case3 i hroom hother ih =>
      rw [Checked.scan, if_pos hroom, hother]
      rw [checked_markerAt hroom] at hother
      have hat := Option.some.inj hother
      rcases ih with ⟨hscan, hnone⟩ | ⟨j, hscan, hle, hfound, hbefore⟩
      · refine .inl ⟨hscan, fun j hj hlen => ?_⟩
        rcases Nat.eq_or_lt_of_le hj with rfl | hlt
        · exact hat
        · exact hnone j hlt hlen
      · refine .inr ⟨j, hscan, by omega, hfound, fun k hk hkj => ?_⟩
        rcases Nat.eq_or_lt_of_le hk with rfl | hlt
        · exact hat
        · exact hbefore k hlt hkj
  | case4 i hroom =>
      rw [Checked.scan, if_neg hroom]
      exact .inl ⟨rfl, fun j hj hlen => absurd hlen (by omega)⟩

theorem checked_scan_eq (text : Bytes) : Checked.scan text 0 = some (findMarker text) := by
  rcases checked_scan text 0 with ⟨hscan, hnone⟩ | ⟨j, hscan, -, hfound, hbefore⟩
  · have hno : NoMarker text := by
      intro j ticketId hmarker
      have hat := (markerAt_iff text j).mpr ⟨ticketId, hmarker⟩
      rw [hnone j (Nat.zero_le j) hmarker.length_le] at hat
      cases hat
    rw [hscan, findMarker_eq_none.mpr hno]
  · obtain ⟨ticketId, hmarker⟩ := (markerAt_iff text j).mp hfound
    have hfirst : FirstMarker text j ticketId := by
      refine ⟨hmarker, fun k other hother => ?_⟩
      by_contra hlt
      have hat := (markerAt_iff text k).mpr ⟨other, hother⟩
      rw [hbefore k (Nat.zero_le k) (Nat.lt_of_not_le hlt)] at hat
      cases hat
    rw [hscan, findMarker_eq_some.mpr (by rwa [hmarker.ticketId_eq])]

end Scan

section Strip

-- `b` is `s` without the whitespace on both sides, as much of it as there is.
def Stripped (s b : Bytes) : Prop :=
  ∃ front back, s = front ++ b ++ back ∧
    (∀ c ∈ front, isSpace c = true) ∧ (∀ c ∈ back, isSpace c = true) ∧
    (∀ c ∈ b.head?, isSpace c = false) ∧ ∀ c ∈ b.getLast?, isSpace c = false

theorem Stripped.eq_trim {s b : Bytes} (h : Stripped s b) : b = trim s := by
  obtain ⟨front, back, rfl, hfront, hback, hhead, hlast⟩ := h
  have htight : Tight isSpace b := by
    rintro c (hc | hc)
    · exact hhead c hc
    · exact hlast c hc
  exact (strip_padded hfront hback htight).symm

variable {s : Bytes}

theorem checked_trimStart {a : Nat} (h : a ≤ s.length) :
    ∃ a', Checked.trimStart s a = some a' ∧ a ≤ a' ∧ a' ≤ s.length ∧
      (∀ k c, a ≤ k → k < a' → s[k]? = some c → isSpace c = true) ∧
      ∀ c, s[a']? = some c → isSpace c = false := by
  induction a using Checked.trimStart.induct s with
  | case1 a hlt hnone =>
      rw [List.getElem?_eq_getElem hlt] at hnone
      cases hnone
  | case2 a hlt c hc hspace ih =>
      obtain ⟨a', hstart, hle, hroom, hspaces, hstop⟩ := ih (by omega)
      rw [Checked.trimStart, if_pos hlt, hc]
      refine ⟨a', by simpa only [hspace, if_true] using hstart, by omega, hroom,
        fun k d hk hka hd => ?_, hstop⟩
      rcases Nat.eq_or_lt_of_le hk with rfl | hafter
      · rw [hc] at hd
        rwa [← Option.some.inj hd]
      · exact hspaces k d hafter hka hd
  | case3 a hlt c hc hspace =>
      rw [Checked.trimStart, if_pos hlt, hc]
      refine ⟨a, by simp only [hspace, if_false, Bool.false_eq_true], le_refl a, h, by omega,
        fun d hd => ?_⟩
      rw [hc] at hd
      rw [← Option.some.inj hd]
      exact Bool.eq_false_iff.mpr hspace
  | case4 a hend =>
      rw [Checked.trimStart, if_neg hend]
      refine ⟨a, rfl, le_refl a, h, by omega, fun c hc => ?_⟩
      rw [List.getElem?_eq_none (by omega)] at hc
      cases hc

theorem checked_trimEnd {a b : Nat} (hab : a ≤ b) (h : b ≤ s.length) :
    ∃ b', Checked.trimEnd s a b = some b' ∧ a ≤ b' ∧ b' ≤ b ∧
      (∀ k c, b' ≤ k → k < b → s[k]? = some c → isSpace c = true) ∧
      (a < b' → ∀ c, s[b' - 1]? = some c → isSpace c = false) := by
  induction b with
  | zero => exact ⟨0, rfl, hab, le_refl 0, by omega, by omega⟩
  | succ b ih =>
      rw [Checked.trimEnd]
      by_cases hlt : b + 1 > a
      · have hget := List.getElem?_eq_getElem (l := s) (i := b) (by omega)
        rw [if_pos hlt, hget]
        by_cases hspace : isSpace s[b] = true
        · obtain ⟨b', hend, hle, hroom, hspaces, hstop⟩ := ih (by omega) (by omega)
          refine ⟨b', by simpa only [hspace, if_true] using hend, hle, by omega,
            fun k c hk hkb hc => ?_, hstop⟩
          rcases Nat.eq_or_lt_of_le (Nat.le_of_lt_succ hkb) with rfl | hbefore
          · rw [hget] at hc
            rwa [← Option.some.inj hc]
          · exact hspaces k c hk hbefore hc
        · refine ⟨b + 1, by simp only [hspace, if_false, Bool.false_eq_true], by omega, le_refl _,
            by omega, fun _ c hc => ?_⟩
          rw [Nat.add_sub_cancel, hget] at hc
          rw [← Option.some.inj hc]
          exact Bool.eq_false_iff.mpr hspace
      · rw [if_neg hlt]
        exact ⟨b + 1, rfl, hab, le_refl _, by omega, fun hlt' => absurd hlt' hlt⟩

theorem checked_slice {pos len : Nat} (h : pos + len ≤ s.length) :
    Checked.slice s pos len = some ((s.drop pos).take len) := if_pos h

theorem checked_trim (s : Bytes) : ∃ b, Checked.trim s = some b ∧ Stripped s b := by
  obtain ⟨a, hstart, -, ha, hbefore, hhead⟩ := checked_trimStart (s := s) (Nat.zero_le _)
  obtain ⟨b, hend, hab, hb, hbehind, hlast⟩ := checked_trimEnd (s := s) ha (le_refl _)
  refine ⟨(s.drop a).take (b - a), ?_, s.take a, s.drop b, ?_, ?_, ?_, ?_, ?_⟩
  · simp only [Checked.trim, hstart, hend, Option.bind_eq_bind, Option.bind_some]
    exact checked_slice (by omega)
  · have hsplit : a + (b - a) = b := by omega
    rw [← List.take_add, hsplit, List.take_append_drop]
  · intro c hc
    obtain ⟨k, hk, hget⟩ := List.mem_take_iff_getElem.mp hc
    exact hbefore k c (Nat.zero_le k) (by omega) (List.getElem?_eq_some_iff.mpr ⟨by omega, hget⟩)
  · intro c hc
    obtain ⟨k, hk, hget⟩ := List.mem_drop_iff_getElem.mp hc
    exact hbehind (b + k) c (by omega) (by omega) (List.getElem?_eq_some_iff.mpr ⟨by omega, hget⟩)
  · intro c hc
    rw [List.head?_eq_getElem?] at hc
    obtain ⟨hlt, hget⟩ := List.getElem?_eq_some_iff.mp hc
    refine hhead c ?_
    rw [List.getElem_take, List.getElem_drop] at hget
    exact List.getElem?_eq_some_iff.mpr ⟨by rw [List.length_take] at hlt; omega, hget⟩
  · intro c hc
    rw [List.getLast?_eq_getElem?] at hc
    obtain ⟨hlt, hget⟩ := List.getElem?_eq_some_iff.mp hc
    rw [List.length_take, List.length_drop] at hlt
    have hindex : a + ((s.drop a).take (b - a)).length - 1 = b - 1 := by
      rw [List.length_take, List.length_drop]
      omega
    refine hlast (by omega) c ?_
    rw [List.getElem_take, List.getElem_drop] at hget
    refine List.getElem?_eq_some_iff.mpr ⟨by omega, ?_⟩
    rw [← hget]
    congr 1
    omega

end Strip

-- No read of the parser is outside of the text.
theorem checked_parseAdminMessage (text : Bytes) :
    Checked.parseAdminMessage text = some (parseAdminMessage text) := by
  unfold Checked.parseAdminMessage parseAdminMessage
  simp only [checked_scan_eq, Option.bind_eq_bind, Option.bind_some]
  cases hfind : findMarker text with
  | none => rfl
  | some i =>
      have hroom := (findMarker_eq_some.mp hfind).1.length_le
      obtain ⟨b, htrim, hstripped⟩ := checked_trim (text.take i ++ text.drop (i + 8))
      have hback : (text.drop (i + 8)).take (text.length - i - 8) = text.drop (i + 8) :=
        List.take_of_length_le (by rw [List.length_drop]; omega)
      simp only [checked_slice (by omega : i + 1 + 6 ≤ text.length),
        checked_slice (by omega : 0 + i ≤ text.length),
        checked_slice (by omega : i + 8 + (text.length - i - 8) ≤ text.length),
        List.drop_zero, hback, htrim, Option.bind_some, hstripped.eq_trim]

theorem parseAdminMessage_kind_iff (text : Bytes) :
    (parseAdminMessage text).kind = .NoTicketId ↔ NoMarker text := by
  constructor
  · intro hkind
    by_contra hsome
    rw [← findMarker_eq_none, ← Ne, Option.ne_none_iff_exists'] at hsome
    obtain ⟨i, hfind⟩ := hsome
    rw [parseAdminMessage_first (findMarker_eq_some.mp hfind)] at hkind
    exact (makeKind_ticketId _ _).2 hkind
  · intro hno
    rw [parseAdminMessage_none hno]

theorem parseAdminMessage_grammar (text : Bytes) :
    Checked.parseAdminMessage text = some (parseAdminMessage text) ∧
    ((parseAdminMessage text).kind = .NoTicketId ↔ NoMarker text) ∧
    (NoMarker text → parseAdminMessage text = ⟨.NoTicketId, [], []⟩) ∧
    ∀ i ticketId, FirstMarker text i ticketId →
      ticketId = (text.drop (i + 1)).take 6 ∧
      ∃ b, Stripped (text.take i ++ text.drop (i + 8)) b ∧
        parseAdminMessage text =
          if b = utf8 "/close" then ⟨.Close, ticketId, []⟩ else ⟨.Reply, ticketId, b⟩ := by
  refine ⟨checked_parseAdminMessage text, parseAdminMessage_kind_iff text,
    fun hno => parseAdminMessage_none hno, fun i ticketId hfirst => ⟨hfirst.1.ticketId_eq.symm, ?_⟩⟩
  obtain ⟨b, -, hstripped⟩ := checked_trim (text.take i ++ text.drop (i + 8))
  refine ⟨b, hstripped, ?_⟩
  rw [parseAdminMessage_first hfirst, ← hstripped.eq_trim]
  rfl

end DeltaFeedback.Dc
