import DeltaFeedback.Server.Http
import DeltaFeedback.Text.Strip

namespace DeltaFeedback.Server

open Text

-- What is left of an entry that has been cut out of a header and trimmed.
def host (s : Bytes) : Bytes :=
  if s.head? = some 91 then
    match s.findIdx? fun c => c == 93 with
    | some rb => (s.drop 1).take (rb - 1)
    | none => s
  else if s.count 58 = 1 then s.takeWhile fun c => c != 58
  else s

theorem takeFirst_eq (s : Bytes) :
    takeFirst s = (host (strip isSpace (s.takeWhile fun c => c != 44))).take 64 := rfl

-- No comma, no bracket and no whitespace.
def Bare (s : Bytes) : Prop := ∀ c ∈ s, c ≠ 44 ∧ c ≠ 91 ∧ c ≠ 93 ∧ isSpace c = false

structure Ipv4Style (a : Bytes) : Prop where
  bare : Bare a
  colons : 58 ∉ a
  length : 1 ≤ a.length ∧ a.length ≤ 64

structure Ipv6Style (v : Bytes) : Prop where
  bare : Bare v
  colons : 2 ≤ v.count 58
  length : v.length ≤ 64

structure PortText (p : Bytes) : Prop where
  bare : Bare p
  colons : 58 ∉ p

-- What may stand around the first entry of a header.
structure Around (front back tail : Bytes) : Prop where
  front : ∀ c ∈ front, isSpace c = true
  back : ∀ c ∈ back, isSpace c = true
  tail : tail = [] ∨ tail.head? = some 44

section Entry

variable {front back tail : Bytes}

theorem takeFirst_entry (h : Around front back tail) {x : Bytes}
    (hx : ∀ c ∈ x, c ≠ 44 ∧ isSpace c = false) :
    takeFirst (front ++ x ++ back ++ tail) = (host x).take 64 := by
  have hspace : ∀ c, isSpace c = true → (c != 44) = true := by
    intro c hc
    rw [bne_iff_ne]
    rintro rfl
    cases hc
  have hentry : ∀ c ∈ front ++ x ++ back, (c != 44) = true := by
    intro c hc
    rw [List.mem_append, List.mem_append] at hc
    rcases hc with (hc | hc) | hc
    · exact hspace c (h.front c hc)
    · exact bne_iff_ne.mpr (hx c hc).1
    · exact hspace c (h.back c hc)
  have htail : ∀ c ∈ tail.head?, (c != 44) = false := by
    intro c hc
    rcases h.tail with rfl | hcomma
    · cases hc
    · obtain rfl := Option.some.inj (hcomma.symm.trans hc)
      rfl
  have htight : Tight isSpace x := by
    rintro c (hhead | hlast)
    · exact (hx c (List.mem_of_mem_head? hhead)).2
    · exact (hx c (List.mem_of_getLast? hlast)).2
  rw [takeFirst_eq, takeWhile_append_stop hentry htail, strip_padded h.front h.back htight]

end Entry

section Host

variable {a v p : Bytes}

theorem Bare.head?_ne {s : Bytes} (h : Bare s) : s.head? ≠ some 91 := by
  intro hhead
  exact (h 91 (List.mem_of_mem_head? hhead)).2.1 rfl

theorem host_ipv4 (ha : Ipv4Style a) : host a = a := by
  rw [host, if_neg ha.bare.head?_ne, if_neg]
  rw [List.count_eq_zero_of_not_mem ha.colons]
  decide

theorem host_ipv4_port (ha : Ipv4Style a) (hp : PortText p) : host (a ++ 58 :: p) = a := by
  have hhead : (a ++ 58 :: p).head? ≠ some 91 := by
    cases a with
    | nil => exact absurd ha.length.1 (by decide)
    | cons c a => exact ha.bare.head?_ne
  have hcount : (a ++ 58 :: p).count 58 = 1 := by
    rw [List.count_append, List.count_cons_self, List.count_eq_zero_of_not_mem ha.colons,
      List.count_eq_zero_of_not_mem hp.colons]
  rw [host, if_neg hhead, if_pos hcount, takeWhile_ne_append ha.colons]

theorem host_ipv6 (hv : Ipv6Style v) : host v = v := by
  rw [host, if_neg hv.bare.head?_ne, if_neg]
  exact fun hone => absurd hv.colons (by rw [hone]; decide)

-- What stands between brackets, whatever follows.
theorem host_brackets (hv : Bare v) (rest : Bytes) : host (91 :: v ++ 93 :: rest) = v := by
  have hfind : (91 :: v ++ 93 :: rest).findIdx? (fun c => c == 93) = some (v.length + 1) := by
    have hnone : (91 :: v).findIdx? (fun c => c == 93) = none := by
      rw [List.findIdx?_eq_none_iff]
      intro c hc
      rcases List.mem_cons.mp hc with rfl | hc
      · rfl
      · exact beq_eq_false_iff_ne.mpr (hv c hc).2.2.1
    rw [List.findIdx?_append, hnone, Option.none_or, List.findIdx?_cons, if_pos (by rfl),
      Option.map_some, List.length_cons, Nat.zero_add]
  rw [host, if_pos (by rfl), hfind]
  dsimp only
  rw [Nat.add_sub_cancel, List.cons_append, List.drop_one, List.tail_cons, List.take_left']
  rfl

end Host

-- Nothing is added to what is left of the comma.
theorem mem_of_mem_host {s : Bytes} {c : UInt8} (h : c ∈ host s) : c ∈ s := by
  unfold host at h
  split_ifs at h
  · split at h
    · exact List.mem_of_mem_drop (List.mem_of_mem_take h)
    · exact h
  · exact (List.takeWhile_prefix _).subset h
  · exact h

theorem takeFirst_safe (s : Bytes) : (takeFirst s).length ≤ 64 ∧ 44 ∉ takeFirst s := by
  rw [takeFirst_eq]
  refine ⟨List.length_take_le _ _, fun hmem => ?_⟩
  have hkept := List.mem_takeWhile_imp (mem_of_mem_strip (mem_of_mem_host (List.mem_of_mem_take hmem)))
  exact absurd hkept (by decide)

-- All spellings of one peer are one key.
theorem takeFirst_spellings {a v p front back tail : Bytes} (ha : Ipv4Style a) (hv : Ipv6Style v)
    (hp : PortText p) (h : Around front back tail) :
    (takeFirst (front ++ a ++ back ++ tail) = a ∧
      takeFirst (front ++ (a ++ 58 :: p) ++ back ++ tail) = a) ∧
    (takeFirst (front ++ v ++ back ++ tail) = v ∧
      takeFirst (front ++ (91 :: v ++ [93]) ++ back ++ tail) = v ∧
      takeFirst (front ++ (91 :: v ++ 93 :: 58 :: p) ++ back ++ tail) = v) ∧
    ∀ s, (takeFirst s).length ≤ 64 ∧ 44 ∉ takeFirst s := by
  have hsolid {s : Bytes} (hs : Bare s) : ∀ c ∈ s, c ≠ 44 ∧ isSpace c = false :=
    fun c hc => ⟨(hs c hc).1, (hs c hc).2.2.2⟩
  have hmark (c : UInt8) (hc : c = 58 ∨ c = 91 ∨ c = 93) : c ≠ 44 ∧ isSpace c = false := by
    rcases hc with rfl | rfl | rfl <;> decide
  refine ⟨⟨?_, ?_⟩, ⟨?_, ?_, ?_⟩, takeFirst_safe⟩
  · rw [takeFirst_entry h (hsolid ha.bare), host_ipv4 ha, List.take_of_length_le ha.length.2]
  · rw [takeFirst_entry h, host_ipv4_port ha hp, List.take_of_length_le ha.length.2]
    rw [List.forall_mem_append, List.forall_mem_cons]
    exact ⟨hsolid ha.bare, hmark 58 (by decide), hsolid hp.bare⟩
  · rw [takeFirst_entry h (hsolid hv.bare), host_ipv6 hv, List.take_of_length_le hv.length]
  · rw [takeFirst_entry h, host_brackets hv.bare, List.take_of_length_le hv.length]
    rw [List.forall_mem_append, List.forall_mem_cons, List.forall_mem_singleton]
    exact ⟨⟨hmark 91 (by decide), hsolid hv.bare⟩, hmark 93 (by decide)⟩
  · rw [takeFirst_entry h, host_brackets hv.bare, List.take_of_length_le hv.length]
    rw [List.forall_mem_append, List.forall_mem_cons, List.forall_mem_cons, List.forall_mem_cons]
    exact ⟨⟨hmark 91 (by decide), hsolid hv.bare⟩, hmark 93 (by decide), hmark 58 (by decide),
      hsolid hp.bare⟩

def local4 : Bytes := utf8 "127.0.0.1"
def local6 : Bytes := utf8 "::1"

theorem takeFirst_spellings_local :
    (takeFirst ([32] ++ local4 ++ [9] ++ [44, 49]) = local4 ∧
      takeFirst ([32] ++ (local4 ++ 58 :: utf8 "8080") ++ [9] ++ [44, 49]) = local4) ∧
    (takeFirst ([32] ++ local6 ++ [9] ++ [44, 49]) = local6 ∧
      takeFirst ([32] ++ (91 :: local6 ++ [93]) ++ [9] ++ [44, 49]) = local6 ∧
      takeFirst ([32] ++ (91 :: local6 ++ 93 :: 58 :: utf8 "8080") ++ [9] ++ [44, 49]) = local6) ∧
    ∀ s, (takeFirst s).length ≤ 64 ∧ 44 ∉ takeFirst s :=
  takeFirst_spellings ⟨by unfold Bare; decide +kernel, by decide +kernel, by decide +kernel⟩
    ⟨by unfold Bare; decide +kernel, by decide +kernel, by decide +kernel⟩
    ⟨by unfold Bare; decide +kernel, by decide +kernel⟩
    ⟨List.forall_mem_singleton.mpr rfl, List.forall_mem_singleton.mpr rfl, .inr rfl⟩

end DeltaFeedback.Server
