import DeltaFeedback.Server.Static
import DeltaFeedback.Text.Strip
import Mathlib.Logic.Function.Basic

namespace DeltaFeedback.Server

open Text

deriving instance DecidableEq for StaticRoute

-- What a browser that may keep the page's files does: it asks for one, and it
-- drops what it has kept of one. The files may have changed in between.
inductive Visit
  | Fetch (files : Bytes → Entry) (route : StaticRoute)
  | Evict (route : StaticRoute)

def Visit.files? : Visit → Option (Bytes → Entry)
  | .Fetch files _ => some files
  | .Evict _ => none

abbrev BrowserCache := StaticRoute → Option Response

def etagHeader (resp : Response) : Bytes := (resp.headers.lookup (utf8 "ETag")).getD []

-- A request that names the tag of what is kept; without one it asks for all.
def conditional (req : Request) (kept : Option Response) : Request :=
  { req with header := fun name =>
      if name = utf8 "If-None-Match" then (kept.map etagHeader).getD [] else req.header name }

-- `Cache-Control: no-cache`: the server is always asked. A 304 stands for what is
-- kept, and a 200 is kept.
def browse (root : Bytes) (req : Request) (cache : BrowserCache) :
    Visit → Option Response × BrowserCache
  | .Fetch files route =>
      let resp := fileResponse files root route.rel (conditional req (cache route))
      if resp.code = 304 then (cache route, cache)
      else (some resp, if resp.code = 200 then Function.update cache route (some resp) else cache)
  | .Evict route => (none, Function.update cache route none)

def browseAll (root : Bytes) (req : Request) : List Visit → BrowserCache → List (Option Response)
  | [], _ => []
  | visit :: rest, cache =>
      let (shown, next) := browse root req cache visit
      shown :: browseAll root req rest next

-- What would be shown without a cache.
def uncached (root : Bytes) (req : Request) : Visit → Option Response
  | .Fetch files route => some (fileResponse files root route.rel (conditional req none))
  | .Evict _ => none

-- What the tag is made of.
def stamp (entry : Entry) : Option (Int × Nat) :=
  entry.lastWriteTime.map fun ftime => (ftime, entry.fileSize.getD (2 ^ 64 - 1))

-- No file has been two contents under one modification time and size.
def Stamped (history : List (Bytes → Entry)) : Prop :=
  ∀ files ∈ history, ∀ other ∈ history, ∀ path mark, stamp (files path) = some mark →
    stamp (other path) = some mark → (files path).content = (other path).content

section Etag

theorem minus_notMem_decimal (n : Nat) : 45 ∉ decimal n := fun h =>
  absurd (isDigit_of_mem_decimal h) (by decide)

theorem decimal_injective {n m : Nat} (h : decimal n = decimal m) : n = m := by
  rw [← digitsValue_decimal n, h, digitsValue_decimal]

theorem decimalInt_injective {v w : Int} (h : decimalInt v = decimalInt w) : v = w := by
  have hsign (n m : Nat) : 45 :: decimal n ≠ decimal m := fun heq =>
    minus_notMem_decimal m (heq ▸ List.mem_cons_self)
  unfold decimalInt at h
  split_ifs at h with hv hw hw
  · have habs := decimal_injective (List.cons_inj_right 45 |>.mp h)
    omega
  · exact absurd h (hsign _ _)
  · exact absurd h.symm (hsign _ _)
  · have habs := decimal_injective h
    omega

-- What stands after the last mark, and what before it.
theorem append_mark_inj {front back front' back' : Bytes} {mark : UInt8} (hback : mark ∉ back)
    (hback' : mark ∉ back') (h : front ++ mark :: back = front' ++ mark :: back') :
    front = front' ∧ back = back' := by
  have hreverse := congrArg List.reverse h
  simp only [List.reverse_append, List.reverse_cons, List.append_assoc, List.singleton_append]
    at hreverse
  have hlast := congrArg (List.takeWhile fun c => c != mark) hreverse
  rw [takeWhile_ne_append (by simpa using hback), takeWhile_ne_append (by simpa using hback')] at hlast
  obtain rfl := List.reverse_injective hlast
  exact ⟨List.append_cancel_right h, rfl⟩

theorem etagOf_injective {fsize fsize' : Option Nat} {ftime ftime' : Int}
    (h : etagOf fsize ftime = etagOf fsize' ftime') :
    (ftime, fsize.getD (2 ^ 64 - 1)) = (ftime', fsize'.getD (2 ^ 64 - 1)) := by
  have htag : decimalInt ftime ++ 45 :: (decimal (fsize.getD (2 ^ 64 - 1)) ++ [34]) =
      decimalInt ftime' ++ 45 :: (decimal (fsize'.getD (2 ^ 64 - 1)) ++ [34]) := by
    simpa [etagOf] using h
  have hmark (n : Nat) : 45 ∉ decimal n ++ [34] := by simp [minus_notMem_decimal]
  obtain ⟨htime, hsize⟩ := append_mark_inj (hmark _) (hmark _) htag
  rw [decimalInt_injective htime, decimal_injective (List.append_cancel_right hsize)]

end Etag

section Browse

variable {root : Bytes} {req : Request} {files other : Bytes → Entry} {route : StaticRoute}
variable {history : List (Bytes → Entry)} {cache : BrowserCache}

def fullPath (root : Bytes) (route : StaticRoute) : Bytes :=
  weaklyCanonical (Path.append root route.rel)

-- The tag and the content a route leads to.
def served (files : Bytes → Entry) (root : Bytes) (route : StaticRoute) :
    Option (Bytes × Option Bytes) :=
  if inside root route.rel then
    (files (fullPath root route)).lastWriteTime.map fun ftime =>
      (etagOf (files (fullPath root route)).fileSize ftime, (files (fullPath root route)).content)
  else none

-- The response that carries a file.
def fileWith (full etag text : Bytes) : Response :=
  ⟨200, [(utf8 "Content-Type", mimeFor full), (utf8 "Cache-Control", utf8 "no-cache"),
    (utf8 "ETag", etag)], .Text text⟩

theorem etagHeader_fileWith (full etag text : Bytes) : etagHeader (fileWith full etag text) = etag := by
  have htype : (utf8 "ETag" == utf8 "Content-Type") = false := by decide +kernel
  have hcontrol : (utf8 "ETag" == utf8 "Cache-Control") = false := by decide +kernel
  simp [etagHeader, fileWith, List.lookup_cons, htype, hcontrol]

-- The server sends a file, unless the browser has named its tag.
theorem fileResponse_conditional (had : Option Response) :
    fileResponse files root route.rel (conditional req had) =
      match served files root route with
      | none => .text 404 []
      | some (etag, content) =>
          if had.map etagHeader = some etag then
            ⟨304, [(utf8 "ETag", etag), (utf8 "Cache-Control", utf8 "no-cache")], .Text []⟩
          else match content with
            | none => .text 404 []
            | some text => fileWith (fullPath root route) etag text := by
  have hheader : (conditional req had).header (utf8 "If-None-Match") =
      (had.map etagHeader).getD [] := by simp [conditional]
  unfold fileResponse served fullPath
  cases inside root route.rel with
  | false => rfl
  | true =>
      simp only [Bool.not_true, Bool.false_eq_true, if_false, if_true, hheader]
      generalize files (weaklyCanonical (Path.append root route.rel)) = entry
      cases entry.lastWriteTime with
      | none => rfl
      | some ftime =>
          have htag : etagOf entry.fileSize ftime ≠ [] := by simp [etagOf]
          cases had with
          | none => rfl
          | some kept =>
              by_cases hsame : etagHeader kept = etagOf entry.fileSize ftime
              · simp [hsame, htag]
              · cases entry.content <;> simp [hsame, fileWith]

theorem served_content {etag : Bytes} {content content' : Option Bytes} (h : Stamped history)
    (hfiles : files ∈ history) (hother : other ∈ history)
    (hserved : served files root route = some (etag, content))
    (hserved' : served other root route = some (etag, content')) : content = content' := by
  obtain ⟨-, hserved⟩ := Option.ite_none_right_eq_some.mp hserved
  obtain ⟨-, hserved'⟩ := Option.ite_none_right_eq_some.mp hserved'
  obtain ⟨ftime, htime, heq⟩ := Option.map_eq_some_iff.mp hserved
  obtain ⟨ftime', htime', heq'⟩ := Option.map_eq_some_iff.mp hserved'
  obtain ⟨htag, rfl⟩ := Prod.mk.inj heq
  obtain ⟨htag', rfl⟩ := Prod.mk.inj heq'
  refine h files hfiles other hother (fullPath root route) _ (by rw [stamp, htime]; rfl) ?_
  rw [stamp, htime', Option.map_some, Option.some.injEq]
  exact etagOf_injective (htag'.trans htag.symm)

-- What is kept has been a file of the server.
def Kept (history : List (Bytes → Entry)) (root : Bytes) (cache : BrowserCache) : Prop :=
  ∀ route resp, cache route = some resp → ∃ files ∈ history, ∃ etag text,
    served files root route = some (etag, some text) ∧ resp = fileWith (fullPath root route) etag text

theorem Kept.update (h : Kept history root cache) {shown : Option Response}
    (hshown : ∀ resp, shown = some resp → ∃ files ∈ history, ∃ etag text,
      served files root route = some (etag, some text) ∧
        resp = fileWith (fullPath root route) etag text) :
    Kept history root (Function.update cache route shown) := by
  intro other resp hresp
  by_cases hroute : other = route
  · subst hroute
    rw [Function.update_self] at hresp
    exact hshown resp hresp
  · rw [Function.update_of_ne hroute] at hresp
    exact h other resp hresp

-- Each visit shows what the server has, and keeps only that.
theorem Kept.browse (req : Request) (h : Kept history root cache) (hstamped : Stamped history)
    (visit : Visit) (hvisit : ∀ files, visit.files? = some files → files ∈ history) :
    (browse root req cache visit).1 = uncached root req visit ∧
      Kept history root (browse root req cache visit).2 := by
  cases visit with
  | Evict route => exact ⟨rfl, h.update fun _ hresp => by cases hresp⟩
  | Fetch files route =>
      have hfiles := hvisit files rfl
      simp only [Server.browse, uncached, fileResponse_conditional]
      cases hserved : served files root route with
      | none => exact ⟨rfl, h⟩
      | some tagged =>
          obtain ⟨etag, content⟩ := tagged
          simp only [Option.map_none, reduceCtorEq, if_false]
          by_cases htag : (cache route).map etagHeader = some etag
          · obtain ⟨kept, hkept, rfl⟩ := Option.map_eq_some_iff.mp htag
            obtain ⟨past, hpast, etag', text, hpastServed, rfl⟩ := h route kept hkept
            rw [etagHeader_fileWith] at hserved ⊢
            obtain rfl := served_content hstamped hpast hfiles hpastServed hserved
            simp only [hkept, Option.map_some, etagHeader_fileWith, if_true]
            exact ⟨trivial, h⟩
          · rw [if_neg htag]
            cases content with
            | none => exact ⟨rfl, h⟩
            | some text =>
                refine ⟨rfl, h.update fun resp hresp => ?_⟩
                exact ⟨files, hfiles, etag, text, hserved, (Option.some.inj hresp).symm⟩

theorem Kept.browseAll (h : Kept history root cache) (hstamped : Stamped history)
    (visits : List Visit) (hvisits : ∀ visit ∈ visits, ∀ files, visit.files? = some files →
      files ∈ history) : browseAll root req visits cache = visits.map (uncached root req) := by
  induction visits generalizing cache with
  | nil => rfl
  | cons visit rest ih =>
      obtain ⟨hvisit, hrest⟩ := List.forall_mem_cons.mp hvisits
      obtain ⟨hshown, hnext⟩ := h.browse req hstamped visit hvisit
      exact congrArg₂ List.cons hshown (ih hnext hrest)

-- A browser that keeps the page's files shows what one that keeps none would
-- show: whenever the files change, and whatever it drops.
theorem cache_transparent (root : Bytes) (req : Request) (visits : List Visit)
    (hstamped : Stamped (visits.filterMap Visit.files?)) :
    browseAll root req visits (fun _ => none) = visits.map (uncached root req) := by
  have hnone : Kept (visits.filterMap Visit.files?) root fun _ => none := fun _ _ h => by cases h
  exact hnone.browseAll hstamped visits fun visit hvisit files hfiles =>
    List.mem_filterMap.mpr ⟨visit, hvisit, hfiles⟩

end Browse

def sampleFiles (ftime : Int) (text : String) : Bytes → Entry := fun path =>
  if path = utf8 "/srv/web/index.html" then
    ⟨some (utf8 text).length, some ftime, some (utf8 text)⟩
  else ⟨none, none, none⟩

-- The page is loaded, loaded again, edited, and loaded again.
def sampleVisits : List Visit :=
  [.Fetch (sampleFiles 5 "old") .Index, .Fetch (sampleFiles 5 "old") .Index,
    .Fetch (sampleFiles 6 "new") .Index]

def sampleReq : Request where
  header _ := []
  remoteIpAddress := utf8 "192.0.2.1"
  urlParam _ := none
  body := []

theorem stamped_sample : Stamped (sampleVisits.filterMap Visit.files?) := by
  have hfiles : sampleVisits.filterMap Visit.files? =
      [sampleFiles 5 "old", sampleFiles 5 "old", sampleFiles 6 "new"] := rfl
  rw [hfiles]
  intro files hfiles other hother path mark hmark hmark'
  simp only [List.mem_cons, List.not_mem_nil, or_false, or_self_left] at hfiles hother
  by_cases hpath : path = utf8 "/srv/web/index.html"
  · have htime {ftime : Int} {text : String} (h : stamp (sampleFiles ftime text path) = some mark) :
        ftime = mark.1 := by
      simp only [stamp, sampleFiles, hpath, if_true, Option.map_some, Option.some.injEq] at h
      exact congrArg Prod.fst h
    rcases hfiles with rfl | rfl <;> rcases hother with rfl | rfl
    · rfl
    · exact absurd ((htime hmark).trans (htime hmark').symm) (by decide)
    · exact absurd ((htime hmark).trans (htime hmark').symm) (by decide)
    · rfl
  · rcases hfiles with rfl | rfl <;> simp [stamp, sampleFiles, hpath] at hmark

theorem cache_transparent_sample :
    browseAll (utf8 "/srv/web") sampleReq sampleVisits (fun _ => none) =
      sampleVisits.map (uncached (utf8 "/srv/web") sampleReq) :=
  cache_transparent (utf8 "/srv/web") sampleReq sampleVisits stamped_sample

-- The second time the server only says that nothing has changed.
example : (fileResponse (sampleFiles 5 "old") (utf8 "/srv/web") (utf8 "index.html")
    (conditional sampleReq (uncached (utf8 "/srv/web") sampleReq
      (.Fetch (sampleFiles 5 "old") .Index)))).code = 304 := by decide +kernel

end DeltaFeedback.Server
