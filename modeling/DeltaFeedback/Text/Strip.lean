import Mathlib.Data.List.Basic
import Mathlib.Data.List.DropRight

namespace Text

variable {α : Type*} (p : α → Bool)

-- A list without the elements of one kind at its two ends.
def strip (s : List α) : List α := (s.dropWhile p).rdropWhile p

-- There are none of the kind at the ends.
def Tight (s : List α) : Prop := ∀ c, s.head? = some c ∨ s.getLast? = some c → p c = false

variable {p} {s front back : List α}

theorem Tight.head (h : Tight p s) {c : α} (hc : s.head? = some c) : p c = false := h c (.inl hc)

theorem Tight.last (h : Tight p s) {c : α} (hc : s.getLast? = some c) : p c = false := h c (.inr hc)

theorem dropWhile_of_tight (h : Tight p s) : s.dropWhile p = s := by
  cases s with
  | nil => rfl
  | cons c s => rw [List.dropWhile_cons_of_neg (by simp [h.head rfl])]

theorem rdropWhile_of_tight (h : Tight p s) : s.rdropWhile p = s := by
  rw [List.rdropWhile_eq_self_iff]
  intro hne
  rw [h.last (List.getLast?_eq_some_getLast hne)]
  decide

theorem strip_of_tight (h : Tight p s) : strip p s = s := by
  rw [strip, dropWhile_of_tight h, rdropWhile_of_tight h]

theorem rdropWhile_append_pos (h : ∀ c ∈ back, p c = true) :
    (s ++ back).rdropWhile p = s.rdropWhile p := by
  rw [List.rdropWhile, List.reverse_append, List.dropWhile_append_of_pos, List.rdropWhile]
  simpa using h

-- What surrounds the list is taken off, and no more.
theorem strip_padded (hfront : ∀ c ∈ front, p c = true) (hback : ∀ c ∈ back, p c = true)
    (h : Tight p s) : strip p (front ++ s ++ back) = s := by
  rw [strip, List.append_assoc, List.dropWhile_append_of_pos hfront]
  cases s with
  | nil =>
      have hnone : back.dropWhile p = [] := List.dropWhile_eq_nil_iff.mpr hback
      rw [List.nil_append, hnone, List.rdropWhile_nil]
  | cons c s =>
      rw [List.cons_append, List.dropWhile_cons_of_neg (by simp [h.head rfl]), ← List.cons_append,
        rdropWhile_append_pos hback, rdropWhile_of_tight h]

-- A list is cut where the first element of the other kind stands.
theorem takeWhile_append_stop {tail : List α} (hs : ∀ c ∈ s, p c = true)
    (htail : ∀ c ∈ tail.head?, p c = false) : (s ++ tail).takeWhile p = s := by
  rw [List.takeWhile_append_of_pos hs]
  cases tail with
  | nil => exact List.append_nil s
  | cons c tail =>
      rw [List.takeWhile_cons_of_neg (by simp [htail c rfl]), List.append_nil]

theorem takeWhile_ne_append [BEq α] [LawfulBEq α] {mark : α} (h : mark ∉ s) (rest : List α) :
    (s ++ mark :: rest).takeWhile (fun c => c != mark) = s := by
  apply takeWhile_append_stop
  · intro c hc
    rw [bne_iff_ne]
    rintro rfl
    exact h hc
  · intro c hc
    rw [← Option.some.inj hc]
    exact bne_self_eq_false mark

theorem mem_of_mem_strip {c : α} (h : c ∈ strip p s) : c ∈ s :=
  (List.dropWhile_suffix p).subset ((List.rdropWhile_prefix p _).subset h)

theorem tight_strip (s : List α) : Tight p (strip p s) := by
  rintro c (hhead | hlast)
  · obtain ⟨back, hback⟩ := List.rdropWhile_prefix p (s.dropWhile p)
    have hfirst : (s.dropWhile p).head? = some c := by
      rw [← hback, List.head?_append, ← strip, hhead]
      rfl
    have hnot := List.head?_dropWhile_not p s
    rwa [hfirst] at hnot
  · have hne : strip p s ≠ [] := by
      intro hnil
      rw [hnil] at hlast
      cases hlast
    rw [List.getLast?_eq_some_getLast hne] at hlast
    have hnot := List.rdropWhile_last_not p (s.dropWhile p) hne
    rw [← Option.some.inj hlast]
    exact Bool.eq_false_iff.mpr hnot

end Text
