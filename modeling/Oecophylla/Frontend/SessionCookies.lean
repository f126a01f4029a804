import Mathlib.Data.List.Basic
import Mathlib.Data.List.DropRight
import Mathlib.Data.List.Infix
import Mathlib.Data.Char

namespace Oecophylla.Frontend.SessionCookies

/-!
# Splitting a `Set-Cookie` header — `src/lib/server/sessionCookies.ts`

Where the platform has no `getSetCookie`, the headers of a response come as one text, the cookies
joined by commas.  A comma also stands in the date of an `Expires` attribute.

* `splitSetCookieHeader` — the scan of the code, with its flag `inExpires`;
* `Covered` — every comma of a text comes after an `expires=`;
* `scan_covered`, `scan_cookie` — the scan over a text without `;`, and over a cookie;
* `SetCookie.endsInExpires` — the last attribute of a cookie has an `expires=`, so that the flag stays set;
* `splitSetCookieHeader_eq_iff` — the cookies come back exactly if no cookie but the last is such.
-/

/-! ### The code -/

/-- The characters that `trim` removes. -/
def spaces : List ℕ :=
  [0x9, 0xa, 0xb, 0xc, 0xd, 0x20, 0xa0, 0x1680, 0x2000, 0x2001, 0x2002, 0x2003, 0x2004, 0x2005,
   0x2006, 0x2007, 0x2008, 0x2009, 0x200a, 0x2028, 0x2029, 0x202f, 0x205f, 0x3000, 0xfeff]

def isSpace (c : Char) : Bool := spaces.contains c.toNat

/-- `text.trim()`. -/
def trim (text : List Char) : List Char :=
  ((text.dropWhile isSpace).reverse.dropWhile isSpace).reverse

/-- `rest.toLowerCase().startsWith('expires=')`; only ASCII letters become those of the name. -/
def startsExpires (rest : List Char) : Bool := "expires=".toList.isPrefixOf (rest.map Char.toLower)

/-- The loop, with `header.slice(start, i)` as `current`, and what comes after it. -/
def scan (parts : List (List Char)) (current : List Char) (inExpires : Bool) :
    List Char → List (List Char)
  | [] => parts ++ [trim current]
  | char :: rest =>
    let inExpires := if !inExpires && startsExpires (char :: rest) then true else inExpires
    let inExpires := if inExpires && char == ';' then false else inExpires
    if !inExpires && char == ',' then scan (parts ++ [trim current]) [] inExpires rest
    else scan parts (current ++ [char]) inExpires rest

/-- `splitSetCookieHeader(header)`. -/
def splitSetCookieHeader (header : List Char) : List (List Char) :=
  (scan [] [] false header).filter fun part => part ≠ []

/-! ### The flag -/

/-- Somewhere in a text there is an `expires=`. -/
def mentionsExpires : List Char → Bool
  | [] => false
  | c :: cs => startsExpires (c :: cs) || mentionsExpires cs

/-- Each comma of a text comes after an `expires=`, or the flag is set before. -/
def Covered (inExpires : Bool) : List Char → Prop
  | [] => True
  | c :: cs =>
    (c = ',' → inExpires = true) ∧ Covered (inExpires || startsExpires (c :: cs)) cs

/-- A text is followed by nothing, by a `;` or by a comma. -/
def Stops (rest : List Char) : Prop := ∀ c ∈ rest.head?, c = ';' ∨ c = ','

/-- A list without `c` at the start of a text with a `c` ends before it. -/
theorem prefix_of_prefix_append {α : Type*} {c : α} {l text rest : List α} (hc : c ∉ l)
    (h : l <+: text ++ c :: rest) : l <+: text := by
  induction text generalizing l with
  | nil =>
    cases l with
    | nil => exact List.prefix_rfl
    | cons d l =>
      obtain rfl : d = c := (List.cons_prefix_cons.mp h).1
      exact absurd List.mem_cons_self hc
  | cons e text ih =>
    cases l with
    | nil => exact List.nil_prefix
    | cons d l =>
      obtain ⟨rfl, htail⟩ := List.cons_prefix_cons.mp h
      have hl : c ∉ l := fun hmem => hc (List.mem_cons_of_mem d hmem)
      exact List.cons_prefix_cons.mpr ⟨rfl, ih hl htail⟩

/-- An `expires=` does not go over the end of a text. -/
theorem startsExpires_append {rest : List Char} (hrest : Stops rest) (text : List Char) :
    startsExpires (text ++ rest) = startsExpires text := by
  cases rest with
  | nil => rw [List.append_nil]
  | cons c rest =>
    have hc : c.toLower ∉ "expires=".toList := by
      rcases hrest c rfl with rfl | rfl <;> decide
    rw [startsExpires, startsExpires, Bool.eq_iff_iff, List.isPrefixOf_iff_prefix,
      List.isPrefixOf_iff_prefix, List.map_append, List.map_cons]
    constructor
    · exact prefix_of_prefix_append hc
    · intro h
      exact h.trans (List.prefix_append _ _)

/-- The first character of an `expires=` is a letter. -/
theorem startsExpires_cons_of_ne {c : Char} (hc : c.toLower ≠ 'e') (cs : List Char) :
    startsExpires (c :: cs) = false := by
  have hname : "expires=".toList = 'e' :: "xpires=".toList := by decide
  have hne : ('e' == c.toLower) = false := by simpa using hc.symm
  rw [startsExpires, hname, List.map_cons, List.isPrefixOf_cons_cons, hne, Bool.false_and]

theorem covered_true (text : List Char) : Covered true text := by
  induction text with
  | nil => trivial
  | cons c cs ih => exact ⟨fun _ => rfl, ih⟩

theorem covered_of_not_mem {text : List Char} (h : ',' ∉ text) (inExpires : Bool) :
    Covered inExpires text := by
  induction text generalizing inExpires with
  | nil => trivial
  | cons c cs ih =>
    refine ⟨?_, ih (fun hmem => h (List.mem_cons_of_mem c hmem)) _⟩
    rintro rfl
    exact absurd List.mem_cons_self h

/-- The date of an `Expires` attribute may have commas. -/
theorem covered_of_startsExpires {text : List Char} (h : startsExpires (text.dropWhile isSpace))
    (inExpires : Bool) : Covered inExpires text := by
  induction text generalizing inExpires with
  | nil => trivial
  | cons c cs ih =>
    rw [List.dropWhile_cons] at h
    split at h
    · rename_i hspace
      refine ⟨?_, ih h _⟩
      rintro rfl
      exact absurd hspace (by decide)
    · refine ⟨?_, ?_⟩
      · rintro rfl
        rw [startsExpires_cons_of_ne (by decide)] at h
        cases h
      · rw [h, Bool.or_true]
        exact covered_true cs

/-! ### The scan -/

/-- One character of the loop. -/
theorem scan_cons (parts : List (List Char)) (current : List Char) (inExpires : Bool) (char : Char)
    (rest : List Char) : scan parts current inExpires (char :: rest)
      = if char = ';' then scan parts (current ++ [char]) false rest
        else if char = ',' ∧ (inExpires || startsExpires (char :: rest)) = false then
          scan (parts ++ [trim current]) [] false rest
        else scan parts (current ++ [char]) (inExpires || startsExpires (char :: rest)) rest := by
  rw [scan]
  by_cases hsemi : char = ';'
  · subst hsemi
    cases inExpires <;> simp [startsExpires_cons_of_ne (show ';'.toLower ≠ 'e' by decide)]
  · have hbeq : (char == ';') = false := by simpa using hsemi
    by_cases hcomma : char = ','
    · subst hcomma
      cases inExpires <;> simp [startsExpires_cons_of_ne (show ','.toLower ≠ 'e' by decide)]
    · cases inExpires <;> cases startsExpires (char :: rest) <;> simp [hsemi, hcomma]

/-- The scan over a text without `;`, none of whose commas separates cookies. -/
theorem scan_covered {text rest : List Char} (hsemi : ';' ∉ text) (hrest : Stops rest)
    {inExpires : Bool} (hcovered : Covered inExpires text) (parts : List (List Char))
    (current : List Char) :
    scan parts current inExpires (text ++ rest)
      = scan parts (current ++ text) (inExpires || mentionsExpires text) rest := by
  induction text generalizing inExpires current with
  | nil => simp [mentionsExpires]
  | cons c cs ih =>
    obtain ⟨hcomma, hcs⟩ := hcovered
    have hne : c ≠ ';' := by
      rintro rfl
      exact hsemi List.mem_cons_self
    have hstart : startsExpires (c :: (cs ++ rest)) = startsExpires (c :: cs) :=
      startsExpires_append hrest (c :: cs)
    -- a comma of the text stands behind an `expires=`
    have hkept : ¬ (c = ',' ∧ (inExpires || startsExpires (c :: cs)) = false) := by
      rintro ⟨rfl, hflag⟩
      rw [hcomma rfl, Bool.true_or] at hflag
      cases hflag
    rw [List.cons_append, scan_cons, if_neg hne, hstart, if_neg hkept,
      ih (fun hmem => hsemi (List.mem_cons_of_mem c hmem)) hcs, mentionsExpires, Bool.or_assoc,
      List.append_assoc, List.singleton_append]

/-! ### Cookies -/

/-- A serialized cookie: its name and value, and what stands after each `;`.  The only commas are
    in the dates of `Expires` attributes. -/
structure SetCookie where
  pair : List Char
  attributes : List (List Char)
  noSemicolon : ∀ segment ∈ pair :: attributes, ';' ∉ segment
  pairCommas : ',' ∉ pair
  dates : ∀ av ∈ attributes, ',' ∈ av → startsExpires (av.dropWhile isSpace) = true

def SetCookie.serialize (c : SetCookie) : List Char := [';'].intercalate (c.pair :: c.attributes)

/-- The last attribute of the cookie, or its value, has an `expires=`. -/
def SetCookie.endsInExpires (c : SetCookie) : Bool := mentionsExpires (c.attributes.getLastD c.pair)

/-- The header of some cookies. -/
def joined (cookies : List SetCookie) : List Char :=
  [',', ' '].intercalate (cookies.map SetCookie.serialize)

theorem SetCookie.covered (c : SetCookie) {av : List Char} (h : av ∈ c.attributes) :
    Covered false av := by
  by_cases hcomma : ',' ∈ av
  · exact covered_of_startsExpires (c.dates av h hcomma) false
  · exact covered_of_not_mem hcomma false

/-- The scan over segments: the flag is set after it if the last one has an `expires=`. -/
theorem scan_segments {segments : List (List Char)} {text : List Char} (hrest : Stops text)
    {segment : List Char} (hsemi : ∀ s ∈ segment :: segments, ';' ∉ s) {inExpires : Bool}
    (hfirst : Covered inExpires segment) (hcovered : ∀ s ∈ segments, Covered false s)
    (parts : List (List Char)) (current : List Char) :
    ∃ flag, scan parts current inExpires ([';'].intercalate (segment :: segments) ++ text)
        = scan parts (current ++ [';'].intercalate (segment :: segments)) flag text
      ∧ (mentionsExpires (segments.getLastD segment) = true → flag = true)
      ∧ (inExpires = false → flag = mentionsExpires (segments.getLastD segment)) := by
  induction segments generalizing segment inExpires current with
  | nil =>
    refine ⟨inExpires || mentionsExpires segment, ?_, ?_, ?_⟩
    · rw [List.intercalate_singleton, scan_covered (hsemi _ List.mem_cons_self) hrest hfirst]
    · intro h
      rw [List.getLastD_nil] at h
      rw [h, Bool.or_true]
    · rintro rfl
      rw [Bool.false_or, List.getLastD_nil]
  | cons next segments ih =>
    obtain ⟨flag, hscan, hset, hflag⟩ := @ih next
      (fun s hs => hsemi s (List.mem_cons_of_mem segment hs)) false
      (hcovered next List.mem_cons_self) (fun s hs => hcovered s (List.mem_cons_of_mem next hs))
      (current ++ segment ++ [';'])
    have hstops : Stops (';' :: ([';'].intercalate (next :: segments) ++ text)) := by
      rintro c hc
      simp only [List.head?_cons, Option.mem_some_iff] at hc
      exact .inl hc.symm
    -- the semicolon resets the flag
    refine ⟨flag, ?_, ?_, fun _ => ?_⟩
    · rw [List.intercalate_cons_cons, List.append_assoc, List.append_assoc, List.singleton_append,
        scan_covered (hsemi _ List.mem_cons_self) hstops hfirst, scan_cons, if_pos rfl, hscan]
      simp only [List.append_assoc]
    · rw [List.getLastD_cons]
      exact hset
    · rw [List.getLastD_cons]
      exact hflag rfl

theorem scan_cookie (c : SetCookie) {rest : List Char} (hrest : Stops rest)
    (parts : List (List Char)) (current : List Char) (inExpires : Bool) :
    ∃ flag, scan parts current inExpires (c.serialize ++ rest)
        = scan parts (current ++ c.serialize) flag rest
      ∧ (c.endsInExpires = true → flag = true)
      ∧ (inExpires = false → flag = c.endsInExpires) :=
  scan_segments hrest c.noSemicolon (covered_of_not_mem c.pairCommas inExpires)
    (fun _ h => c.covered h) parts current

/-! ### Trimming -/

theorem trim_eq (text : List Char) : trim text = (text.dropWhile isSpace).rdropWhile isSpace := rfl

theorem trim_trim (text : List Char) : trim (trim text) = trim text := by
  have hstart : ∀ l : List Char, l.dropWhile isSpace = l →
      (l.rdropWhile isSpace).dropWhile isSpace = l.rdropWhile isSpace := by
    intro l hl
    obtain ⟨tail, htail⟩ := l.rdropWhile_prefix isSpace
    cases hcut : l.rdropWhile isSpace with
    | nil => rfl
    | cons c cs =>
      rw [hcut] at htail
      rw [← htail, List.cons_append, List.dropWhile_eq_self_iff] at hl
      rw [List.dropWhile_eq_self_iff]
      exact fun h => hl (by simp)
  rw [trim_eq (trim text), trim_eq text, hstart _ (List.dropWhile_idempotent isSpace text),
    List.rdropWhile_idempotent]

theorem trim_append_of_space {blank : List Char} (hblank : ∀ c ∈ blank, isSpace c = true)
    (text : List Char) : trim (blank ++ text) = trim text := by
  rw [trim_eq, trim_eq, List.dropWhile_append_of_pos hblank]

/-- Every part of the scan is trimmed. -/
theorem trim_of_mem_scan {part : List Char} {header : List Char} {parts : List (List Char)}
    {current : List Char} {inExpires : Bool} (hparts : ∀ part ∈ parts, trim part = part)
    (h : part ∈ scan parts current inExpires header) : trim part = part := by
  induction header generalizing parts current inExpires with
  | nil =>
    rw [scan, List.mem_append, List.mem_singleton] at h
    rcases h with h | rfl
    · exact hparts part h
    · exact trim_trim current
  | cons c cs ih =>
    rw [scan_cons] at h
    split_ifs at h
    · exact ih hparts h
    · refine ih ?_ h
      intro part hpart
      rcases List.mem_append.mp hpart with hpart | hpart
      · exact hparts part hpart
      · rw [List.mem_singleton.mp hpart, trim_trim]
    · exact ih hparts h

/-! ### The header of some cookies -/

theorem joined_cons_cons (c d : SetCookie) (cookies : List SetCookie) :
    joined (c :: d :: cookies) = c.serialize ++ (',' :: ' ' :: joined (d :: cookies)) := by
  rw [joined, List.map_cons, List.map_cons, List.intercalate_cons_cons, List.append_assoc]
  rfl

theorem joined_singleton (c : SetCookie) : joined [c] = c.serialize := List.intercalate_singleton

theorem stops_nil : Stops [] := by simp [Stops]

theorem stops_comma (rest : List Char) : Stops (',' :: rest) := by
  intro c hc
  simp only [List.head?_cons, Option.mem_some_iff] at hc
  exact .inr hc.symm

/-- Between two cookies: the flag decides whether the comma separates them. -/
theorem scan_separator (parts : List (List Char)) (current : List Char) (flag : Bool)
    (rest : List Char) : scan parts current flag (',' :: ' ' :: rest)
      = if flag then scan parts (current ++ [',', ' ']) true rest
        else scan (parts ++ [trim current]) [' '] false rest := by
  have hcomma := startsExpires_cons_of_ne (show ','.toLower ≠ 'e' by decide) (' ' :: rest)
  have hspace := startsExpires_cons_of_ne (show ' '.toLower ≠ 'e' by decide) rest
  rw [scan_cons, if_neg (by decide), hcomma, Bool.or_false]
  cases flag with
  | true =>
    rw [if_neg (by decide), scan_cons, hspace, if_neg (by decide), if_neg (by decide),
      List.append_assoc]
    rfl
  | false =>
    rw [if_pos (by decide), scan_cons, hspace, if_neg (by decide), if_neg (by decide)]
    rfl

/-- Where no cookie but the last ends in an `expires=`, each is a part. -/
theorem scan_joined (cookies : List SetCookie) (hne : cookies ≠ [])
    (hends : ∀ c ∈ cookies.dropLast, c.endsInExpires = false) (parts : List (List Char))
    {current : List Char} (hcurrent : ∀ c ∈ current, isSpace c = true) :
    scan parts current false (joined cookies)
      = parts ++ cookies.map fun c => trim c.serialize := by
  induction cookies generalizing parts current with
  | nil => exact absurd rfl hne
  | cons c cookies ih =>
    cases cookies with
    | nil =>
      obtain ⟨flag, hscan, -⟩ := scan_cookie c stops_nil parts current false
      rw [List.append_nil] at hscan
      rw [joined_singleton, hscan, scan, trim_append_of_space hcurrent]
      rfl
    | cons d cookies =>
      -- the flag is not set after this cookie, so the comma separates
      obtain ⟨flag, hscan, -, hflag⟩ := scan_cookie c (stops_comma _) parts current false
      have hflag : flag = false := by
        rw [hflag rfl]
        exact hends c (by simp)
      rw [joined_cons_cons, hscan, hflag, scan_separator, if_neg (by decide),
        trim_append_of_space hcurrent,
        ih (by simp) (fun e he => hends e (by
          rw [List.dropLast_cons_cons]
          exact List.mem_cons_of_mem c he)) _ (by simp [isSpace, spaces])]
      simp

/-- There are no more parts than cookies, and fewer if a cookie before the last ends in an
    `expires=`: its separator is taken for a comma of the date. -/
theorem length_scan_joined (cookies : List SetCookie) (hne : cookies ≠ [])
    (parts : List (List Char)) (current : List Char) (inExpires : Bool) :
    (scan parts current inExpires (joined cookies)).length ≤ parts.length + cookies.length
      ∧ ((∃ c ∈ cookies.dropLast, c.endsInExpires = true) →
        (scan parts current inExpires (joined cookies)).length
          < parts.length + cookies.length) := by
  induction cookies generalizing parts current inExpires with
  | nil => exact absurd rfl hne
  | cons c cookies ih =>
    cases cookies with
    | nil =>
      obtain ⟨flag, hscan, -⟩ := scan_cookie c stops_nil parts current inExpires
      rw [List.append_nil] at hscan
      rw [joined_singleton, hscan, scan]
      simp
    | cons d cookies =>
      obtain ⟨flag, hscan, hset, -⟩ := scan_cookie c (stops_comma (' ' :: joined (d :: cookies)))
        parts current inExpires
      rw [joined_cons_cons, hscan, scan_separator]
      cases hflag : flag with
      | true =>
        -- the comma is taken for one of a date: one part less
        obtain ⟨hle, -⟩ := ih (by simp) parts (current ++ c.serialize ++ [',', ' ']) true
        simp only [if_true, List.length_cons] at hle ⊢
        exact ⟨by omega, fun _ => by omega⟩
      | false =>
        -- the cookie ends here, and the others have their own parts
        obtain ⟨hle, hlt⟩ := ih (by simp) (parts ++ [trim (current ++ c.serialize)]) [' '] false
        simp only [Bool.false_eq_true, if_false, List.length_cons, List.length_append,
          List.length_nil] at hle hlt ⊢
        refine ⟨by omega, ?_⟩
        rintro ⟨e, he, hends⟩
        rw [List.dropLast_cons_cons] at he
        rcases List.mem_cons.mp he with rfl | he
        · -- this cookie would have set the flag
          rw [hset hends] at hflag
          cases hflag
        · have h := hlt ⟨e, he, hends⟩
          omega

/-- **The cookies of a header come back** exactly if each is a non-empty text without blanks
    around it and none but the last ends in an `expires=`. -/
theorem splitSetCookieHeader_eq_iff (cookies : List SetCookie) :
    splitSetCookieHeader (joined cookies) = cookies.map SetCookie.serialize
      ↔ (∀ c ∈ cookies, c.serialize ≠ [] ∧ trim c.serialize = c.serialize)
        ∧ ∀ c ∈ cookies.dropLast, c.endsInExpires = false := by
  by_cases hne : cookies = []
  · subst hne
    simp [splitSetCookieHeader, joined, scan, trim]
  constructor
  · intro hsplit
    refine ⟨?_, ?_⟩
    · intro c hc
      have hmem : c.serialize ∈ splitSetCookieHeader (joined cookies) := by
        rw [hsplit]
        exact List.mem_map_of_mem hc
      obtain ⟨hscan, hne⟩ := List.mem_filter.mp hmem
      exact ⟨by simpa using hne, trim_of_mem_scan (by simp) hscan⟩
    · intro c hc
      by_contra hends
      -- too few parts for the cookies
      obtain ⟨-, hlt⟩ := length_scan_joined cookies hne [] [] false
      have hfewer := hlt ⟨c, hc, by simpa using hends⟩
      have hlength := congrArg List.length hsplit
      rw [List.length_map] at hlength
      have hfilter := List.length_filter_le (fun part : List Char => decide (part ≠ []))
        (scan [] [] false (joined cookies))
      rw [List.length_nil] at hfewer
      rw [splitSetCookieHeader] at hlength
      omega
  · rintro ⟨htexts, hends⟩
    rw [splitSetCookieHeader, scan_joined cookies hne hends [] (by simp), List.nil_append,
      List.map_congr_left fun c hc => (htexts c hc).2, List.filter_eq_self]
    intro part hpart
    obtain ⟨c, hc, rfl⟩ := List.mem_map.mp hpart
    simpa using (htexts c hc).1

/-! ### A cookie that expires -/

/-- A cleared access cookie whose last attribute is its date. -/
def clearedAccess : SetCookie where
  pair := "oec_access=".toList
  attributes := [" Path=/".toList, " Expires=Thu, 01 Jan 1970 00:00:00 GMT".toList]
  noSemicolon := by decide
  pairCommas := by decide
  dates := by decide

/-- A cleared refresh cookie. -/
def clearedRefresh : SetCookie where
  pair := "oec_refresh=".toList
  attributes := [" Path=/api/v1/auth".toList, " Max-Age=0".toList]
  noSemicolon := by decide
  pairCommas := by decide
  dates := by decide

/-- The two cookies come back as one. -/
theorem splitSetCookieHeader_merges : ¬ ∀ cookies : List SetCookie,
    (∀ c ∈ cookies, c.serialize ≠ [] ∧ trim c.serialize = c.serialize) →
      splitSetCookieHeader (joined cookies) = cookies.map SetCookie.serialize := by
  intro h
  have hsplit := h [clearedAccess, clearedRefresh] (by
    intro c hc
    simp only [List.mem_cons, List.not_mem_nil, or_false] at hc
    rcases hc with rfl | rfl <;> decide)
  obtain ⟨-, hlt⟩ := length_scan_joined [clearedAccess, clearedRefresh] (by simp) [] [] false
  have hfewer := hlt ⟨clearedAccess, by simp, by decide⟩
  have hlength := congrArg List.length hsplit
  have hfilter := List.length_filter_le (fun part : List Char => decide (part ≠ []))
    (scan [] [] false (joined [clearedAccess, clearedRefresh]))
  rw [splitSetCookieHeader] at hlength
  simp only [List.length_map, List.length_cons, List.length_nil] at hlength hfewer
  omega

end Oecophylla.Frontend.SessionCookies
