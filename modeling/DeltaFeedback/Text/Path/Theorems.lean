import DeltaFeedback.Text.Path

namespace Text.Path

section Follow

-- What stands between the slashes of a path without dots.
def Proper (names : List Bytes) : Prop := ∀ name ∈ names, name ≠ [] ∧ name ≠ dotdot ∧ 47 ∉ name

theorem push_dotdot {names : List Bytes} (h : Proper names) :
    push true names dotdot = names.dropLast := by
  have hskip : ¬(dotdot = [] ∨ dotdot = dot) := by decide
  rw [push, if_neg hskip, if_pos rfl]
  cases hlast : names.getLast? with
  | none =>
      rw [List.getLast?_eq_none_iff.mp hlast]
      rfl
  | some last =>
      dsimp only
      rw [if_neg (h last (List.mem_of_getLast? hlast)).2.1]

theorem Proper.push {names : List Bytes} (h : Proper names) {element : Bytes}
    (helement : 47 ∉ element) : Proper (push true names element) := by
  by_cases hskip : element = [] ∨ element = dot
  · rwa [Path.push, if_pos hskip]
  by_cases hup : element = dotdot
  · rw [hup, push_dotdot h]
    exact fun name hname => h name (List.dropLast_subset _ hname)
  · rw [Path.push, if_neg hskip, if_neg hup]
    rw [not_or] at hskip
    exact List.forall_mem_append.mpr ⟨h, List.forall_mem_singleton.mpr ⟨hskip.1, hup, helement⟩⟩

theorem Proper.follow {names : List Bytes} (h : Proper names) (p : Bytes) :
    Proper (follow true names p) := by
  have hfold : ∀ parts : List Bytes, (∀ part ∈ parts, 47 ∉ part) → ∀ names, Proper names →
      Proper (parts.foldl (Path.push true) names) := by
    intro parts
    induction parts with
    | nil => exact fun _ _ hnames => hnames
    | cons part parts ih =>
        intro hparts names hnames
        rw [List.forall_mem_cons] at hparts
        exact ih hparts.2 _ (hnames.push hparts.1)
  exact hfold _ (fun part hpart => notMem_of_mem_splitOn hpart) names h

variable {p q : Bytes}

theorem proper_names (h : isAbsolute p = true) : Proper (names p) := by
  rw [names, h]
  exact Proper.follow (fun name hname => absurd hname List.not_mem_nil) p

theorem isAbsolute_append (h : isAbsolute p = true) : isAbsolute (append p q) = true := by
  unfold append
  split_ifs with hq hopen
  · exact hq
  · cases p with
    | nil => cases h
    | cons c p => exact h
  · cases p with
    | nil => cases h
    | cons c p => exact h

-- A relative path is followed from where the absolute one has led.
theorem names_append (hp : isAbsolute p = true) (hq : isAbsolute q = false) :
    names (append p q) = follow true (names p) q := by
  rw [names, isAbsolute_append hp, names, hp, append, if_neg (by simp [hq])]
  have hne : p ≠ [] := by
    rintro rfl
    cases hp
  split_ifs with hopen
  · obtain ⟨front, rfl⟩ : ∃ front, p = front ++ [47] := by
      rw [Bool.or_eq_true, List.isEmpty_iff, beq_iff_eq, or_iff_right hne] at hopen
      exact List.getLast?_eq_some_iff.mp hopen
    have hslash : follow true [] (front ++ [47]) = follow true [] front := by
      rw [follow, List.splitOn_append_cons_self, List.splitOn_nil, List.foldl_append]
      rfl
    rw [hslash, follow, List.append_assoc, List.singleton_append, List.splitOn_append_cons_self,
      List.foldl_append]
    rfl
  · rw [follow, List.splitOn_append_cons_self, List.foldl_append]
    rfl

end Follow

section Rooted

variable {p : Bytes}

-- The text of an absolute path with these names.
def rooted (names : List Bytes) : Bytes := names.flatMap fun name => 47 :: name

theorem rooted_nil : rooted [] = [] := rfl

theorem rooted_cons (name : Bytes) (names : List Bytes) :
    rooted (name :: names) = 47 :: (name ++ rooted names) := rfl

theorem rooted_eq_nil_iff {names : List Bytes} : rooted names = [] ↔ names = [] := by
  cases names with
  | nil => simp [rooted_nil]
  | cons name names => simp [rooted_cons]

theorem elements_slash (s : Bytes) : elements (47 :: s) = elements s := by
  rw [elements, List.splitOn_cons_eq_if_modifyHead, if_pos (by rfl)]
  rfl

theorem elements_name {name : Bytes} (hne : name ≠ []) (hslash : 47 ∉ name) (s : Bytes) :
    elements (name ++ 47 :: s) = name :: elements s := by
  rw [elements, List.splitOn_append_cons_self_of_not_mem hslash, List.filter_cons_of_pos]
  · rfl
  · simpa using hne

theorem elements_single {name : Bytes} (hne : name ≠ []) (hslash : 47 ∉ name) :
    elements name = [name] := by
  rw [elements, List.splitOn_eq_singleton hslash, List.filter_cons_of_pos, List.filter_nil]
  simpa using hne

-- Nothing, or another slash.
def Ends (s : Bytes) : Prop := s = [] ∨ s.head? = some 47

theorem ends_rooted (names : List Bytes) {tail : Bytes} (h : Ends tail) :
    Ends (rooted names ++ tail) := by
  cases names with
  | nil => exact h
  | cons name names => exact .inr rfl

theorem ends_rooted_nil (names : List Bytes) : Ends (rooted names) := by
  have h : Ends (rooted names ++ []) := ends_rooted names (.inl rfl)
  rwa [List.append_nil] at h

theorem Ends.cases {s : Bytes} (h : Ends s) : s = [] ∨ ∃ rest, s = 47 :: rest := by
  rcases h with rfl | h
  · exact .inl rfl
  · exact .inr (List.head?_eq_some_iff.mp h)

theorem elements_rooted {names : List Bytes} (h : Proper names) {tail : Bytes}
    (htail : tail = [] ∨ tail = [47]) : elements (rooted names ++ tail) = names := by
  induction names with
  | nil => rcases htail with rfl | rfl <;> decide
  | cons name names ih =>
      obtain ⟨⟨hne, -, hslash⟩, hnames⟩ := List.forall_mem_cons.mp h
      have hends : Ends (rooted names ++ tail) :=
        ends_rooted names (htail.imp id fun h => by rw [h]; rfl)
      rw [rooted_cons, List.cons_append, elements_slash, List.append_assoc]
      specialize ih hnames
      rcases hends.cases with hnil | ⟨rest, hrest⟩
      · rw [hnil] at ih ⊢
        rw [List.append_nil, elements_single hne hslash, ← ih]
        rfl
      · rw [hrest, elements_slash] at ih
        rw [hrest, elements_name hne hslash, ih]

theorem cons_intercalate (name : Bytes) (names : List Bytes) :
    47 :: [47].intercalate (name :: names) = rooted (name :: names) := by
  induction names generalizing name with
  | nil => simp [rooted]
  | cons next names ih =>
      rw [List.intercalate_cons_cons, List.append_assoc, List.singleton_append, ih]
      rfl

theorem lexicallyNormal_eq (h : isAbsolute p = true) :
    lexicallyNormal p = rooted (names p) ++ if opened p ∨ names p = [] then [47] else [] := by
  have hne : p.isEmpty = false := by
    cases p with
    | nil => cases h
    | cons c p => rfl
  have hproper := proper_names h
  rw [lexicallyNormal, hne, if_neg (by decide)]
  dsimp only
  rw [h, if_pos rfl]
  cases hnames : names p with
  | nil => simp [rooted, List.intercalate]
  | cons name rest =>
      have hlast : ((name :: rest).getLast? != some dotdot) = true := by
        rw [bne_iff_ne]
        intro hlast
        exact (hproper dotdot (hnames ▸ List.mem_of_getLast? hlast)).2.1 rfl
      rw [List.singleton_append, cons_intercalate, hlast]
      by_cases hopen : opened p = true
      · simp [hopen]
      · simp [hopen, rooted]

theorem getLast_rooted {names : List Bytes} (h : Proper names) :
    (rooted names).getLast? ≠ some 47 := by
  rcases List.eq_nil_or_concat names with rfl | ⟨up, name, rfl⟩
  · simp [rooted_nil]
  · obtain ⟨hne, -, hslash⟩ := h name (by simp)
    have hrooted : rooted (up ++ [name]) = rooted up ++ [47] ++ name := by
      simp [rooted, List.flatMap_append]
    rw [List.concat_eq_append, hrooted, List.getLast?_append_of_ne_nil _ hne]
    exact fun hlast => hslash (List.mem_of_getLast? hlast)

theorem withoutSlash_lexicallyNormal (h : isAbsolute p = true) :
    withoutSlash (lexicallyNormal p) = rooted (names p) ++ if names p = [] then [47] else [] := by
  rw [lexicallyNormal_eq h]
  by_cases hnil : names p = []
  · simp [hnil, rooted_nil, withoutSlash]
  rw [if_neg hnil, List.append_nil]
  by_cases hopen : opened p = true
  · have hpos := List.length_pos_of_ne_nil (mt rooted_eq_nil_iff.mp hnil)
    have hslash : (1 < (rooted (names p) ++ [47]).length &&
        (rooted (names p) ++ [47]).getLast? == some 47) = true := by simpa using hpos
    rw [if_pos (.inl hopen), withoutSlash, if_pos hslash, List.dropLast_concat]
  · have hkept : ¬ (1 < (rooted (names p)).length && (rooted (names p)).getLast? == some 47) := by
      simp [getLast_rooted (proper_names h)]
    rw [if_neg (not_or.mpr ⟨hopen, hnil⟩), List.append_nil, withoutSlash, if_neg hkept]

-- Where one name ends in front of a slash, the other one does too.
theorem prefix_name_iff {name other rest tail : Bytes} (hname : 47 ∉ name) (hother : 47 ∉ other)
    (hrest : Ends rest) (htail : Ends tail) :
    name ++ rest <+: other ++ tail ↔
      rest = [] ∧ name <+: other ∨ name = other ∧ rest <+: tail := by
  constructor
  · rintro ⟨more, hmore⟩
    rw [List.append_assoc] at hmore
    rcases List.append_eq_append_iff.mp hmore with ⟨between, rfl, hbetween⟩ | ⟨between, rfl, hbetween⟩
    · cases between with
      | nil =>
          rw [List.append_nil]
          exact .inr ⟨rfl, more, hbetween⟩
      | cons c between =>
          rcases hrest.cases with rfl | ⟨rest, rfl⟩
          · exact .inl ⟨rfl, List.prefix_append name _⟩
          · obtain ⟨rfl, -⟩ := List.cons.inj hbetween
            exact absurd (List.mem_append_right name List.mem_cons_self) hother
    · cases between with
      | nil =>
          rw [List.append_nil]
          exact .inr ⟨rfl, more, hbetween.symm⟩
      | cons c between =>
          rcases htail.cases with rfl | ⟨tail, rfl⟩
          · cases hbetween
          · obtain ⟨rfl, -⟩ := List.cons.inj hbetween
            exact absurd (List.mem_append_right other List.mem_cons_self) hname
  · rintro (⟨rfl, hprefix⟩ | ⟨rfl, hprefix⟩)
    · rw [List.append_nil]
      exact hprefix.trans (List.prefix_append other tail)
    · exact (List.prefix_append_right_inj name).mpr hprefix

-- A text of names is the start of another one where its last name is the start
-- of the name that stands there.
theorem rooted_prefix_iff {names others : List Bytes} (hnames : Proper names)
    (hothers : Proper others) {tail : Bytes} (htail : tail = [] ∨ tail = [47]) :
    rooted names <+: rooted others ++ tail ↔ names = [] ∨ ∃ up name more rest,
      names = up ++ [name] ∧ others = up ++ (name ++ more) :: rest := by
  have hends : Ends tail := htail.imp id fun h => by rw [h]; rfl
  induction names generalizing others with
  | nil => exact ⟨fun _ => .inl rfl, fun _ => List.nil_prefix⟩
  | cons name names ih =>
      obtain ⟨⟨hne, -, hslash⟩, hnames⟩ := List.forall_mem_cons.mp hnames
      rw [or_iff_right (List.cons_ne_nil name names), rooted_cons]
      cases others with
      | nil =>
          refine ⟨fun hprefix => ?_, fun ⟨up, _, _, _, _, hothers⟩ => ?_⟩
          · have hlength := hprefix.length_le
            have hshort : tail.length ≤ 1 := by rcases htail with rfl | rfl <;> decide
            have hpos := List.length_pos_of_ne_nil hne
            rw [rooted_nil, List.nil_append, List.length_cons, List.length_append] at hlength
            omega
          · exact absurd hothers (by simp)
      | cons other others =>
          obtain ⟨⟨-, -, hslash'⟩, hothers⟩ := List.forall_mem_cons.mp hothers
          have hbehind := ih hnames hothers
          rw [rooted_cons, List.cons_append, List.cons_prefix_cons, and_iff_right rfl,
            List.append_assoc, prefix_name_iff hslash hslash' (ends_rooted_nil names)
              (ends_rooted others hends)]
          constructor
          · rintro (⟨hnil, more, rfl⟩ | ⟨rfl, hprefix⟩)
            · obtain rfl := rooted_eq_nil_iff.mp hnil
              exact ⟨[], name, more, others, rfl, rfl⟩
            · rcases hbehind.mp hprefix with rfl | ⟨up, last, more, rest, rfl, rfl⟩
              · exact ⟨[], name, [], others, rfl, by rw [List.append_nil]; rfl⟩
              · exact ⟨name :: up, last, more, rest, rfl, rfl⟩
          · rintro ⟨up, last, more, rest, heq, heq'⟩
            cases up with
            | nil =>
                obtain ⟨rfl, rfl⟩ := List.cons.inj heq
                obtain ⟨rfl, -⟩ := List.cons.inj heq'
                exact .inl ⟨rfl, List.prefix_append name more⟩
            | cons first up =>
                obtain ⟨rfl, hrest⟩ := List.cons.inj heq
                obtain ⟨rfl, hrest'⟩ := List.cons.inj heq'
                exact .inr ⟨rfl, hbehind.mpr (.inr ⟨up, last, more, rest, hrest, hrest'⟩)⟩

end Rooted

end Text.Path
