import DeltaFeedback.App.Config
import DeltaFeedback.Text.Strip

namespace DeltaFeedback.App.Config

open Text

section Pairs

variable {key : Bytes}

def setAll (config : Config) (pairs : List (Bytes × Bytes)) : Config :=
  pairs.foldl (fun cfg (k, v) => cfg.set k v) config

-- The last pair with the key counts.
theorem getElem?_setAll (config : Config) (pairs : List (Bytes × Bytes)) (key : Bytes) :
    (config.setAll pairs).kv[key]? = (pairs.reverse.lookup key).or config.kv[key]? := by
  induction pairs generalizing config with
  | nil => rfl
  | cons pair pairs ih =>
      rw [setAll, List.foldl_cons, ← setAll, ih, getElem?_set, List.reverse_cons, List.lookup_append]
      cases pairs.reverse.lookup key with
      | some value => rfl
      | none =>
          rw [List.lookup_cons, List.lookup_nil]
          by_cases hkey : pair.1 = key
          · simp [hkey]
          · have hother : (key == pair.1) = false := beq_eq_false_iff_ne.mpr (Ne.symm hkey)
            simp [hkey, hother]

theorem lookup_eq_some_iff {pairs : List (Bytes × Bytes)}
    (hdistinct : pairs.Pairwise fun p q => p.1 ≠ q.1) (key value : Bytes) :
    pairs.lookup key = some value ↔ (key, value) ∈ pairs := by
  induction pairs with
  | nil => simp
  | cons pair pairs ih =>
      obtain ⟨hfirst, hrest⟩ := List.pairwise_cons.mp hdistinct
      rw [List.lookup_cons, List.mem_cons, Prod.ext_iff]
      by_cases hkey : key = pair.1
      · subst hkey
        have hnone : (pair.1, value) ∉ pairs := fun hmem => hfirst _ hmem rfl
        simp [hnone, eq_comm]
      · have hother : (key == pair.1) = false := beq_eq_false_iff_ne.mpr hkey
        simp [hkey, hother, ih hrest]

theorem lookup_toList (config : Config) (key : Bytes) :
    config.kv.toList.reverse.lookup key = config.kv[key]? := by
  have hdistinct : config.kv.toList.reverse.Pairwise fun p q => p.1 ≠ q.1 := by
    rw [List.pairwise_reverse]
    refine Std.TreeMap.distinct_keys_toList.imp fun hne => ?_
    exact fun hsame => hne (Std.LawfulEqCmp.compare_eq_iff_eq.mpr hsame.symm)
  ext value
  rw [lookup_eq_some_iff hdistinct, List.mem_reverse, Std.TreeMap.mem_toList_iff_getElem?_eq_some]

theorem overlay_eq (config other : Config) : config.overlay other = config.setAll other.kv.toList := by
  rw [overlay, Std.TreeMap.foldl_eq_foldl_toList, setAll]

-- A key of the other file hides the one below, even with an empty value.
theorem getElem?_overlay (config other : Config) (key : Bytes) :
    (config.overlay other).kv[key]? = other.kv[key]?.or config.kv[key]? := by
  rw [overlay_eq, getElem?_setAll, lookup_toList]

end Pairs

section Lines

-- A line `k=v` that is read back as it was written.
structure Printable (k v : Bytes) : Prop where
  newline : 10 ∉ k ∧ 10 ∉ v
  equals : 61 ∉ k
  comment : k.head? ≠ some 35
  tightKey : Tight isBlank k
  tightValue : Tight isBlank v

variable {k v line : Bytes}

theorem trim_eq_strip (s : Bytes) : trim s = strip isBlank s := rfl

theorem Printable.tight (h : Printable k v) : Tight isBlank (k ++ [61] ++ v) := by
  rintro c (hhead | hlast)
  · cases k with
    | nil =>
        obtain rfl := Option.some.inj hhead
        rfl
    | cons d k => exact h.tightKey.head hhead
  · rw [List.getLast?_append] at hlast
    cases hv : v.getLast? with
    | none =>
        rw [hv, Option.none_or, List.getLast?_concat] at hlast
        obtain rfl := Option.some.inj hlast
        rfl
    | some d =>
        rw [hv, Option.some_or] at hlast
        exact h.tightValue.last (hv.trans hlast)

theorem Printable.loadLine (h : Printable k v) (config : Config) :
    config.loadLine (k ++ [61] ++ v) = config.set k v := by
  have hkey : (k ++ [61] ++ v).takeWhile (fun c => c != 61) = k := by
    rw [List.append_assoc]
    exact takeWhile_ne_append h.equals v
  have hrest : (k ++ [61] ++ v).drop (k.length + 1) = v := List.drop_left' (by simp)
  have hcomment : (k ++ [61] ++ v).head? ≠ some 35 := by
    cases k with
    | nil => simp
    | cons c k => exact h.comment
  unfold Config.loadLine
  rw [trim_eq_strip, strip_of_tight h.tight, if_neg (by simpa using hcomment), if_pos (by simp)]
  dsimp only
  rw [hkey, hrest, trim_eq_strip, trim_eq_strip, strip_of_tight h.tightKey,
    strip_of_tight h.tightValue]

theorem head?_takeWhile_of_ne_nil {q : UInt8 → Bool} {t : Bytes} (h : t.takeWhile q ≠ []) :
    (t.takeWhile q).head? = t.head? := by
  cases t with
  | nil => rfl
  | cons c t =>
      cases hc : q c with
      | true => rw [List.takeWhile_cons_of_pos hc, List.head?_cons, List.head?_cons]
      | false => exact absurd (List.takeWhile_cons_of_neg (by simp [hc])) h

-- What is left and right of the first `=` of a trimmed line that is no comment.
theorem printable_of_tight {t : Bytes} (ht : Tight isBlank t) (hnewline : 10 ∉ t)
    (hcomment : t.head? ≠ some 35) (n : Nat) :
    Printable (trim (t.takeWhile fun c => c != 61)) (trim (t.drop n)) := by
  refine ⟨⟨fun hmem => ?_, fun hmem => ?_⟩, fun hmem => ?_, fun hhead => ?_, tight_strip _,
    tight_strip _⟩
  · exact hnewline ((List.takeWhile_prefix _).subset (mem_of_mem_strip hmem))
  · exact hnewline (List.mem_of_mem_drop (mem_of_mem_strip hmem))
  · have hother := List.mem_takeWhile_imp (mem_of_mem_strip hmem)
    exact absurd hother (by decide)
  · have hne : (t.takeWhile fun c => c != 61) ≠ [] := by
      intro hnil
      rw [hnil] at hhead
      cases hhead
    have hfirst := head?_takeWhile_of_ne_nil hne
    have hkept : (t.takeWhile fun c => c != 61).dropWhile isBlank = t.takeWhile fun c => c != 61 := by
      cases hkey : t.takeWhile fun c => c != 61 with
      | nil => rfl
      | cons c key =>
          rw [hkey] at hfirst
          exact List.dropWhile_cons_of_neg (by simp [ht.head hfirst.symm])
    rw [trim, hkept] at hhead
    obtain ⟨back, hback⟩ := List.rdropWhile_prefix isBlank (t.takeWhile fun c => c != 61)
    rw [← hfirst, ← hback, List.head?_append, hhead] at hcomment
    exact hcomment rfl

-- A line either leaves the map alone or sets what can be printed again.
theorem loadLine_cases (hline : 10 ∉ line) :
    (∀ config : Config, config.loadLine line = config) ∨
      ∃ k v, Printable k v ∧ ∀ config : Config, config.loadLine line = config.set k v := by
  by_cases hskip : (trim line).isEmpty || (trim line).head? == some 35
  · exact .inl fun config => if_pos hskip
  by_cases hequals : 61 ∈ trim line
  · have hcomment : (trim line).head? ≠ some 35 := by
      intro hhead
      exact hskip (by simp [hhead])
    have hnewline : 10 ∉ trim line := fun hmem => hline (mem_of_mem_strip hmem)
    refine .inr ⟨_, _, printable_of_tight (tight_strip line) hnewline hcomment
      (((trim line).takeWhile fun c => c != 61).length + 1), fun config => ?_⟩
    unfold loadLine
    dsimp only
    rw [if_neg hskip, if_pos hequals]
    rfl
  · refine .inl fun config => ?_
    unfold loadLine
    dsimp only
    rw [if_neg hskip, if_neg hequals]

end Lines

section Files

variable {config : Config}

def AllPrintable (config : Config) : Prop := ∀ k v, config.kv[k]? = some v → Printable k v

theorem AllPrintable.set (h : config.AllPrintable) {k v : Bytes} (hpair : Printable k v) :
    (config.set k v).AllPrintable := by
  intro key value hget
  rw [getElem?_set] at hget
  split_ifs at hget with hkey
  · obtain rfl := Option.some.inj hget
    exact hkey ▸ hpair
  · exact h key value hget

theorem AllPrintable.setAll (h : config.AllPrintable) {pairs : List (Bytes × Bytes)}
    (hpairs : ∀ pair ∈ pairs, Printable pair.1 pair.2) : (config.setAll pairs).AllPrintable := by
  induction pairs generalizing config with
  | nil => exact h
  | cons pair pairs ih =>
      rw [List.forall_mem_cons] at hpairs
      exact ih (h.set hpairs.1) hpairs.2

-- What is loaded can be written and loaded again.
theorem allPrintable_load (text : Bytes) : (load text).AllPrintable := by
  have hlines : ∀ (lines : List Bytes) (config : Config), (∀ line ∈ lines, 10 ∉ line) →
      config.AllPrintable → (lines.foldl loadLine config).AllPrintable := by
    intro lines
    induction lines with
    | nil => exact fun config _ hconfig => hconfig
    | cons line lines ih =>
        intro config hlines hconfig
        rw [List.forall_mem_cons] at hlines
        refine ih _ hlines.2 ?_
        rcases loadLine_cases hlines.1 with hsame | ⟨k, v, hpair, hset⟩
        · rwa [hsame]
        · rw [hset]
          exact hconfig.set hpair
  refine hlines _ empty (fun line hline => notMem_of_mem_splitOn hline) ?_
  intro k v hget
  cases hget

theorem load_flatMap {pairs : List (Bytes × Bytes)}
    (hpairs : ∀ pair ∈ pairs, Printable pair.1 pair.2) :
    load (pairs.flatMap fun (k, v) => k ++ [61] ++ v ++ [10]) = empty.setAll pairs := by
  unfold load
  generalize empty = config
  induction pairs generalizing config with
  | nil => rfl
  | cons pair pairs ih =>
      obtain ⟨hpair, hrest⟩ := List.forall_mem_cons.mp hpairs
      have hline : 10 ∉ pair.1 ++ [61] ++ pair.2 := by
        simp [hpair.newline.1, hpair.newline.2]
      rw [List.flatMap_cons, List.append_assoc, List.singleton_append,
        List.splitOn_append_cons_self_of_not_mem hline, List.foldl_cons, hpair.loadLine, ih hrest]
      rfl

-- What is written is read back.
theorem AllPrintable.load_save (h : config.AllPrintable) :
    (load config.save).kv.Equiv config.kv := by
  have hpairs : ∀ pair ∈ config.kv.toList, Printable pair.1 pair.2 := fun pair hmem =>
    h _ _ (Std.TreeMap.mem_toList_iff_getElem?_eq_some.mp hmem)
  refine Std.TreeMap.Equiv.of_forall_constGet?_eq fun key => ?_
  rw [save, load_flatMap hpairs, getElem?_setAll, lookup_toList, empty, Std.TreeMap.getElem?_emptyc,
    Option.or_none]

end Files

end DeltaFeedback.App.Config
