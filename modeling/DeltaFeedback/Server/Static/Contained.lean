import DeltaFeedback.Server.Static
import DeltaFeedback.Text.Path.Theorems

namespace DeltaFeedback.Server

open Text Path

variable {root rel : Bytes}

-- The path leads beside the root, to a name that starts with the root's own.
def Strays (root rel : Bytes) : Prop := ∃ up name more rest, more ≠ [] ∧
  names root = up ++ [name] ∧ follow true (names root) rel = up ++ (name ++ more) :: rest

-- A path that passes the check is that of the root or of something beneath it.
def Contained (root rel : Bytes) : Prop :=
  inside root rel = true → Above (weaklyCanonical root) (weaklyCanonical (append root rel))

theorem inside_iff (root rel : Bytes) :
    inside root rel = true ↔ weaklyCanonical root <+: weaklyCanonical (append root rel) := by
  rw [inside, Bool.not_eq_true', Bool.or_eq_false_iff, decide_eq_false_iff_not, bne_eq_false_iff_eq,
    List.prefix_iff_eq_take, eq_comm (a := weaklyCanonical root)]
  refine and_iff_right_of_imp fun htake => ?_
  have hlength := congrArg List.length htake
  rw [List.length_take] at hlength
  omega

theorem weaklyCanonical_eq {p : Bytes} (h : isAbsolute p = true) : ∃ tail,
    weaklyCanonical p = rooted (names p) ++ tail ∧ (tail = [] ∨ tail = [47]) ∧
      (names p ≠ [] → tail = []) := by
  refine ⟨_, withoutSlash_lexicallyNormal h, ?_, fun hnames => if_neg hnames⟩
  split_ifs
  · exact .inr rfl
  · exact .inl rfl

theorem elements_weaklyCanonical {p : Bytes} (h : isAbsolute p = true) :
    elements (weaklyCanonical p) = names p := by
  obtain ⟨tail, htext, htail, -⟩ := weaklyCanonical_eq h
  rw [htext]
  exact elements_rooted (proper_names h) htail

-- A longer name is another one.
theorem prefix_beside_iff (up rest : List Bytes) (name more : Bytes) :
    up ++ [name] <+: up ++ (name ++ more) :: rest ↔ more = [] := by
  rw [List.prefix_append_right_inj, List.cons_prefix_cons, and_iff_left List.nil_prefix]
  exact ⟨fun h => List.append_cancel_left (h.symm.trans (List.append_nil name).symm),
    fun h => by rw [h, List.append_nil]⟩

theorem contained_iff (hroot : isAbsolute root = true) (hrel : isAbsolute rel = false) :
    Contained root rel ↔ ¬ Strays root rel := by
  have hfull := isAbsolute_append (q := rel) hroot
  have hproper := proper_names hroot
  have hproper' : Proper (follow true (names root) rel) := hproper.follow rel
  obtain ⟨tail, hrootText, -, hrootTail⟩ := weaklyCanonical_eq hroot
  obtain ⟨tail', hfullText, htail', -⟩ := weaklyCanonical_eq hfull
  rw [Contained, inside_iff, Above, elements_weaklyCanonical hroot, elements_weaklyCanonical hfull,
    hrootText, hfullText, names_append hroot hrel]
  by_cases hnil : names root = []
  · refine ⟨fun _ => ?_, fun _ _ => hnil ▸ List.nil_prefix⟩
    rintro ⟨up, name, -, -, -, hup, -⟩
    exact absurd (hnil.symm.trans hup) (by simp)
  rw [hrootTail hnil, List.append_nil, rooted_prefix_iff hproper hproper' htail', or_iff_right hnil]
  constructor
  · rintro h ⟨up, name, more, rest, hmore, hup, hbeside⟩
    have hprefix := h ⟨up, name, more, rest, hup, hbeside⟩
    rw [hbeside, hup] at hprefix
    exact hmore ((prefix_beside_iff up rest name more).mp hprefix)
  · rintro hstays ⟨up, name, more, rest, hup, hbeside⟩
    by_cases hmore : more = []
    · rw [hbeside, hup]
      exact (prefix_beside_iff up rest name more).mpr hmore
    · exact absurd ⟨up, name, more, rest, hmore, hup, hbeside⟩ hstays

theorem contained_iff_index : Contained (utf8 "/srv/web") (utf8 "index.html") ↔
    ¬ Strays (utf8 "/srv/web") (utf8 "index.html") :=
  contained_iff (by decide +kernel) (by decide +kernel)

-- A directory beside the root, whose name goes on where the root's ends.
theorem not_contained_sibling :
    inside (utf8 "/srv/web") (utf8 "../web-old/notes.txt") = true ∧
      weaklyCanonical (append (utf8 "/srv/web") (utf8 "../web-old/notes.txt")) =
        utf8 "/srv/web-old/notes.txt" ∧
      ¬ Contained (utf8 "/srv/web") (utf8 "../web-old/notes.txt") := by
  have hinside : inside (utf8 "/srv/web") (utf8 "../web-old/notes.txt") = true := by decide +kernel
  refine ⟨hinside, by decide +kernel, fun hcontained => ?_⟩
  have habove := hcontained hinside
  unfold Above at habove
  revert habove
  decide +kernel

section Served

variable (files : Bytes → Entry) (req : Request)

-- Whatever is answered but 404 is about a file that has passed the check.
theorem inside_of_served (h : (fileResponse files root rel req).code ≠ 404) :
    inside root rel = true := by
  by_contra hout
  rw [Bool.not_eq_true] at hout
  refine h ?_
  rw [fileResponse, hout]
  rfl

-- The parameter of a route ends at the next slash.
def StaticRoute.Matched : StaticRoute → Prop
  | .Ticket id => 47 ∉ id
  | .Static p => 47 ∉ p
  | .Locale p => 47 ∉ p
  | _ => True

theorem follow_single (names : List Bytes) {p : Bytes} (h : 47 ∉ p) :
    follow true names p = push true names p := by
  rw [follow, List.splitOn_eq_singleton h]
  rfl

theorem follow_append_slash (names : List Bytes) {p : Bytes} (h : 47 ∉ p) (q : Bytes) :
    follow true names (p ++ 47 :: q) = follow true (push true names p) q := by
  rw [follow, List.splitOn_append_cons_self_of_not_mem h]
  rfl

theorem push_cases (names : List Bytes) {p : Bytes} (h : Proper names) :
    push true names p = names ∨ push true names p = names.dropLast ∨
      push true names p = names ++ [p] := by
  by_cases hskip : p = [] ∨ p = dot
  · exact .inl (if_pos hskip)
  by_cases hup : p = dotdot
  · rw [hup, push_dotdot h]
    exact .inr (.inl rfl)
  · rw [push, if_neg hskip, if_neg hup]
    exact .inr (.inr rfl)

-- A path that goes down from the root, or up and no further.
theorem not_strays (h : names root <+: follow true (names root) rel ∨
    (follow true (names root) rel).length < (names root).length) : ¬ Strays root rel := by
  rintro ⟨up, name, more, rest, hmore, hup, hbeside⟩
  rw [hbeside, hup] at h
  rcases h with hprefix | hshorter
  · exact hmore ((prefix_beside_iff up rest name more).mp hprefix)
  · rw [List.length_append, List.length_append, List.length_cons, List.length_singleton] at hshorter
    omega

-- The routes themselves ask for nothing beside the root.
theorem route_contained (hroot : isAbsolute root = true) (route : StaticRoute)
    (h : route.Matched) : Contained root route.rel := by
  have hproper := proper_names hroot
  have hsingle {p : Bytes} (hp : 47 ∉ p) : Contained root p := by
    have hrel : isAbsolute p = false := by
      rw [isAbsolute, beq_eq_false_iff_ne]
      exact fun hhead => hp (List.mem_of_mem_head? hhead)
    refine (contained_iff hroot hrel).mpr (not_strays ?_)
    rw [follow_single _ hp]
    rcases push_cases (names root) (p := p) hproper with hsame | hup | hdown
    · exact .inl ⟨[], by rw [List.append_nil, hsame]⟩
    · by_cases hnil : names root = []
      · exact .inl (by rw [hnil]; exact List.nil_prefix)
      · have hpos := List.length_pos_of_ne_nil hnil
        rw [hup, List.length_dropLast]
        omega
    · exact .inl (by rw [hdown]; exact List.prefix_append _ _)
  cases route with
  | Index => exact hsingle (by decide +kernel)
  | Ticket id =>
      have hindex : StaticRoute.rel (.Ticket id) = utf8 "index.html" := rfl
      rw [hindex]
      exact hsingle (by decide +kernel)
  | Static p => exact hsingle h
  | Favicon => exact hsingle (by decide +kernel)
  | Locale p =>
      have hlocales : StaticRoute.rel (.Locale p) = utf8 "locales" ++ 47 :: p := rfl
      have hdown : push true (names root) (utf8 "locales") = names root ++ [utf8 "locales"] := by
        rw [push, if_neg (by decide +kernel), if_neg (by decide +kernel)]
      have hname : 47 ∉ utf8 "locales" := by decide +kernel
      have hproper' := hproper.push hname
      rw [hdown] at hproper'
      rw [hlocales]
      refine (contained_iff hroot rfl).mpr (not_strays (.inl ?_))
      rw [follow_append_slash _ (by decide +kernel), hdown, follow_single _ h]
      rcases push_cases _ (p := p) hproper' with hsame | hup | hfurther
      · rw [hsame]
        exact List.prefix_append _ _
      · exact ⟨[], by rw [List.append_nil, hup, List.dropLast_concat]⟩
      · rw [hfurther, List.append_assoc]
        exact List.prefix_append _ _

theorem served_beneath (hroot : isAbsolute root = true) (route : StaticRoute) (h : route.Matched)
    (hserved : (fileResponse files root route.rel req).code ≠ 404) :
    Above (weaklyCanonical root) (weaklyCanonical (append root route.rel)) :=
  route_contained hroot route h (inside_of_served files req hserved)

end Served

end DeltaFeedback.Server
