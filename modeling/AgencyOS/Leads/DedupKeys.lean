import AgencyOS.Leads.Model

/-!
The keys of the code against those of the database.

Both normalizers of phones keep the digits of a text, and so does the import worker; they agree as far
as they take the same characters for digits.  The normalizers of domains take off the same parts, but
the database does not strip the text, cuts the path at its first slash whatever follows, and knows
`www.` in lower case only.

* `KeepsMarks`: putting a text in lower case leaves spaces, slashes and dots;
* `pyHost`, `dbHost`: what is left of a URL, before it is put in lower case;
* `SchemeText`: a text that begins with a scheme;
* `Plain`: none of the differences shows;
* `Echo`: a URL after spaces whose host spells the spaces and the scheme;
* `keys_agree_iff`: **the keys of a text agree exactly when its digits do, and it is plain or an echo**.
-/

namespace Leads

open Python

/-! ### Lists -/

/-- Two filters agree when their conditions do, on the elements. -/
lemma filter_eq_filter_iff {α : Type} {p q : α → Bool} {l : List α} :
    l.filter p = l.filter q ↔ ∀ a ∈ l, p a = q a := by
  constructor
  · intro h a ha
    rw [Bool.eq_iff_iff]
    constructor
    · intro hp
      exact (List.mem_filter.1 (h ▸ List.mem_filter.2 ⟨ha, hp⟩)).2
    · intro hq
      exact (List.mem_filter.1 (h.symm ▸ List.mem_filter.2 ⟨ha, hq⟩)).2
  · exact List.filter_congr

section Counts

variable {p q : Char → Bool} (hq : ∀ c, p c = true → q c = false)
include hq

lemma countP_dropWhile (l : List Char) : (l.dropWhile p).countP q = l.countP q := by
  induction l with
  | nil => rfl
  | cons c l ih =>
      rw [List.dropWhile_cons]
      split_ifs with hc
      · rw [ih, List.countP_cons_of_neg (by simp [hq c hc])]
      · rfl

lemma countP_rdropWhile (l : List Char) : (l.rdropWhile p).countP q = l.countP q := by
  rw [List.rdropWhile, List.countP_reverse, countP_dropWhile hq, List.countP_reverse]

end Counts

/-- What stands before an element that is kept is kept as well. -/
lemma rdropWhile_append_cons {p : Char → Bool} {c : Char} (hc : p c = false) (before after : List Char) :
    (before ++ c :: after).rdropWhile p = before ++ c :: after.rdropWhile p := by
  induction after using List.reverseRecOn with
  | nil => rw [List.rdropWhile_concat_neg _ _ _ (by simp [hc]), List.rdropWhile_nil]
  | append_singleton after d ih =>
      rw [← List.cons_append, ← List.append_assoc, List.rdropWhile_concat, List.rdropWhile_concat]
      split_ifs
      · exact ih
      · simp

/-! ### Lower case -/

/-- The characters that no letter turns into, and that stand between the parts of a URL. -/
def isMark (c : Char) : Bool := c = '/' || c = '.' || isSpace c

/-- Lower case is a matter of letters. -/
structure KeepsMarks (lower : List Char → List Char) : Prop where
  marks : ∀ cs, (lower cs).filter isMark = cs.filter isMark
  nil : ∀ cs, lower cs = [] ↔ cs = []

variable {n : Normalizers}

/-- Texts with one lower case have the same marks. -/
lemma countP_of_lower (hlower : KeepsMarks n.lower) (hdb : KeepsMarks n.dbLower)
    {cs cs' : List Char} (h : n.lower cs = n.dbLower cs') {q : Char → Bool}
    (hq : ∀ c, q c = true → isMark c = true) : cs.countP q = cs'.countP q := by
  have hmarks : cs.filter isMark = cs'.filter isMark := by
    rw [← hlower.marks, h, hdb.marks]
  have hcount : ∀ l : List Char, (l.filter isMark).countP q = l.countP q := by
    intro l
    rw [List.countP_filter]
    refine List.countP_congr fun c _ => ?_
    simpa using hq c
  rw [← hcount cs, hmarks, hcount]

/-! ### Hosts -/

/-- What the code leaves of a URL. -/
def pyHost (url : List Char) : List Char :=
  stripDots (dropWww (dropPath (dropScheme (strip url))))

/-- What the database leaves of a URL. -/
def dbHost (url : List Char) : List Char :=
  stripDots (Database.dropWww (Database.dropPath (dropScheme url)))

lemma orNone_inj {cs cs' : List Char} : orNone cs = orNone cs' ↔ cs = cs' := by
  constructor
  · intro h
    rw [orNone, orNone] at h
    split_ifs at h with hcs hcs' hcs'
    · rw [hcs, hcs']
    · exact Option.some.inj h
  · rintro rfl
    rfl

lemma domain_keys_eq_iff (hlower : KeepsMarks n.lower) (url : String) :
    normalizeDomain n (some url) = Database.normalizeDomain n (some url) ↔
      n.lower (pyHost url.toList) = n.dbLower (dbHost url.toList) := by
  have hkey : normalizeDomain n (some url) = orNone (n.lower (pyHost url.toList)) := by
    rw [normalizeDomain]
    split_ifs with hnil
    · rw [hnil, show pyHost [] = [] from rfl, (hlower.nil []).2 rfl]
      rfl
    · rfl
  rw [hkey]
  exact orNone_inj

lemma stripDots_countP {q : Char → Bool} (hq : q '.' = false) (cs : List Char) :
    (stripDots cs).countP q = cs.countP q := by
  have hdot : ∀ c, decide (c = '.') = true → q c = false := by
    intro c hc
    rw [of_decide_eq_true hc, hq]
  rw [stripDots, countP_rdropWhile hdot, countP_dropWhile hdot]

/-- Dropping `www.` in either case drops no slash and no space. -/
lemma dropWww_countP {q : Char → Bool} (hq : q 'w' = false ∧ q 'W' = false ∧ q '.' = false)
    (cs : List Char) : (dropWww cs).countP q = cs.countP q := by
  fun_cases dropWww cs with
  | case1 a b c rest h =>
      have hw : ∀ x ∈ ['w', 'W'], q x = false := by simp [hq.1, hq.2.1]
      simp [hw a h.1, hw b h.2.1, hw c h.2.2, hq.2.2]
  | case2 a b c rest h => rfl
  | case3 cs h => rfl

lemma Database.dropWww_countP {q : Char → Bool} (hq : q 'w' = false ∧ q '.' = false)
    (cs : List Char) : (Database.dropWww cs).countP q = cs.countP q := by
  fun_cases Database.dropWww cs with
  | case1 rest => simp [hq.1, hq.2]
  | case2 cs h => rfl

/-! ### Schemes -/

/-- The text is a scheme, `://` and the rest. -/
def SchemeText (cs scheme rest : List Char) : Prop :=
  cs = scheme ++ ':' :: '/' :: '/' :: rest
    ∧ ∃ c t, scheme = c :: t ∧ isAsciiLetter c = true ∧ ∀ d ∈ t, isSchemeChar d = true

lemma dropWhile_scheme {t rest : List Char} (ht : ∀ d ∈ t, isSchemeChar d = true) :
    (t ++ ':' :: rest).dropWhile isSchemeChar = ':' :: rest := by
  rw [List.dropWhile_append_of_pos ht, List.dropWhile_cons_of_neg (by decide)]

lemma dropScheme_of_scheme {cs scheme rest : List Char} (h : SchemeText cs scheme rest) :
    dropScheme cs = rest := by
  obtain ⟨rfl, c, t, rfl, hc, ht⟩ := h
  rw [List.cons_append, dropScheme, if_pos hc, dropWhile_scheme ht]
  rfl

lemma dropScheme_of_none {cs : List Char} (h : ∀ scheme rest, ¬ SchemeText cs scheme rest) :
    dropScheme cs = cs := by
  fun_cases dropScheme cs with
  | case1 => rfl
  | case2 c cs hc rest hdrop =>
      refine absurd ?_ (h (c :: cs.takeWhile isSchemeChar) rest)
      refine ⟨?_, c, _, rfl, hc, fun d hd => List.mem_takeWhile_imp hd⟩
      rw [List.cons_append, ← hdrop, List.takeWhile_append_dropWhile]
  | case3 => rfl
  | case4 => rfl

/-- A text has a scheme or none; without its last spaces it has the same. -/
lemma dropScheme_rdropWhile (cs : List Char) :
    dropScheme (cs.rdropWhile isSpace) = (dropScheme cs).rdropWhile isSpace := by
  by_cases hscheme : ∃ scheme rest, SchemeText cs scheme rest
  · obtain ⟨scheme, rest, hcs⟩ := hscheme
    rw [dropScheme_of_scheme hcs]
    obtain ⟨rfl, hletters⟩ := hcs
    have hslash : scheme ++ ':' :: '/' :: '/' :: rest
        = (scheme ++ [':', '/']) ++ '/' :: rest := by simp
    rw [hslash, rdropWhile_append_cons (by decide)]
    exact dropScheme_of_scheme ⟨by simp, hletters⟩
  · rw [not_exists] at hscheme
    rw [dropScheme_of_none fun scheme rest h => hscheme scheme ⟨rest, h⟩]
    refine dropScheme_of_none fun scheme rest ⟨heq, hletters⟩ => hscheme scheme ?_
    obtain ⟨tail, htail⟩ := List.rdropWhile_prefix isSpace cs
    exact ⟨rest ++ tail, by rw [← htail, heq]; simp, hletters⟩

/-! ### Paths -/

lemma dropPath_of_not_mem {cs : List Char} (h : '/' ∉ cs) : dropPath cs = cs := by
  induction cs with
  | nil => rfl
  | cons c cs ih =>
      rw [List.mem_cons, not_or] at h
      rw [dropPath, if_neg fun hc => h.1 hc.1.symm, ih h.2]

lemma dropPath_append {host path : List Char} (hhost : '/' ∉ host) (hpath : '\n' ∉ path) :
    dropPath (host ++ '/' :: path) = host := by
  induction host with
  | nil => rw [List.nil_append, dropPath, if_pos ⟨rfl, hpath⟩]
  | cons c host ih =>
      rw [List.mem_cons, not_or] at hhost
      rw [List.cons_append, dropPath, if_neg fun hc => hhost.1 hc.1.symm, ih hhost.2]

/-- A newline after the first slash keeps that slash. -/
lemma mem_dropPath_append {host path : List Char} (hhost : '/' ∉ host) (hpath : '\n' ∈ path) :
    '/' ∈ dropPath (host ++ '/' :: path) := by
  induction host with
  | nil =>
      rw [List.nil_append, dropPath, if_neg fun h => h.2 hpath]
      exact List.mem_cons_self
  | cons c host ih =>
      rw [List.mem_cons, not_or] at hhost
      rw [List.cons_append, dropPath, if_neg fun hc => hhost.1 hc.1.symm]
      exact List.mem_cons_of_mem c (ih hhost.2)

/-- A text has no slash, or a first one. -/
lemma not_mem_or_first (c : Char) (cs : List Char) :
    c ∉ cs ∨ ∃ host path, cs = host ++ c :: path ∧ c ∉ host := by
  by_cases hmem : c ∈ cs
  · obtain ⟨host, path, hcs, hhost⟩ := List.eq_append_cons_of_mem hmem
    exact .inr ⟨host, path, hcs, hhost⟩
  · exact .inl hmem

lemma Database.dropPath_of_not_mem {cs : List Char} (h : '/' ∉ cs) : Database.dropPath cs = cs := by
  rw [Database.dropPath, List.takeWhile_eq_self_iff]
  intro c hc
  simpa using fun heq : c = '/' => h (heq ▸ hc)

lemma Database.dropPath_append {host path : List Char} (hhost : '/' ∉ host) :
    Database.dropPath (host ++ '/' :: path) = host := by
  rw [Database.dropPath, List.takeWhile_append_of_pos, List.takeWhile_cons_of_neg (by simp),
    List.append_nil]
  intro c hc
  simpa using fun heq : c = '/' => hhost (heq ▸ hc)

lemma Database.not_mem_dropPath (cs : List Char) : '/' ∉ Database.dropPath cs := by
  intro h
  have hne := List.mem_takeWhile_imp h
  simp at hne

/-- A path that leaves no slash was cut at the first. -/
lemma dropPath_eq_of_not_mem {cs : List Char} (h : '/' ∉ dropPath cs) :
    dropPath cs = Database.dropPath cs := by
  rcases not_mem_or_first '/' cs with hcs | ⟨host, path, rfl, hhost⟩
  · rw [dropPath_of_not_mem hcs, Database.dropPath_of_not_mem hcs]
  · by_cases hpath : '\n' ∈ path
    · exact absurd (mem_dropPath_append hhost hpath) h
    · rw [dropPath_append hhost hpath, Database.dropPath_append hhost]

/-! ### Where the two agree -/

/-- None of the differences shows: nothing before the text to strip, no newline in the path, nothing
after a host without a path to strip, and no `www.` with capitals. -/
structure Plain (url : List Char) : Prop where
  front : ∀ c rest, url = c :: rest → isSpace c = false
  path : ∀ host path, dropScheme url = host ++ '/' :: path → '/' ∉ host →
    '\n' ∉ path.rdropWhile isSpace
  back : '/' ∉ dropScheme url → ∀ init c, url = init ++ [c] → isSpace c = false
  www : ∀ a b c rest, dropScheme url = a :: b :: c :: '.' :: rest →
    a ∈ ['w', 'W'] → b ∈ ['w', 'W'] → c ∈ ['w', 'W'] → a = 'w' ∧ b = 'w' ∧ c = 'w'

/-- Spaces and a URL whose host spells the spaces and the scheme: the database stops at the scheme, and
the code goes on to the host. -/
def Echo (n : Normalizers) (url : List Char) : Prop :=
  ∃ spaces scheme rest, url = spaces ++ (scheme ++ ':' :: '/' :: '/' :: rest)
    ∧ spaces ≠ [] ∧ (∀ c ∈ spaces, isSpace c = true)
    ∧ (∃ c t, scheme = c :: t ∧ isAsciiLetter c = true ∧ ∀ d ∈ t, isSchemeChar d = true)
    ∧ n.lower (stripDots (dropWww (dropPath (rest.rdropWhile isSpace))))
      = n.dbLower (spaces ++ (scheme ++ [':']))

variable {url : List Char}

lemma strip_of_front (h : ∀ c rest, url = c :: rest → isSpace c = false) :
    strip url = url.rdropWhile isSpace := by
  cases url with
  | nil => rfl
  | cons c rest => rw [strip, List.dropWhile_cons_of_neg (by simp [h c rest rfl])]

lemma pyHost_of_front (h : ∀ c rest, url = c :: rest → isSpace c = false) :
    pyHost url = stripDots (dropWww (dropPath ((dropScheme url).rdropWhile isSpace))) := by
  rw [pyHost, strip_of_front h, dropScheme_rdropWhile]

/-- `www.` in lower case is taken off by both. -/
lemma dropWww_eq {cs : List Char} (h : ∀ a b c rest, cs = a :: b :: c :: '.' :: rest →
    a ∈ ['w', 'W'] → b ∈ ['w', 'W'] → c ∈ ['w', 'W'] → a = 'w' ∧ b = 'w' ∧ c = 'w') :
    dropWww cs = Database.dropWww cs := by
  fun_cases dropWww cs with
  | case1 a b c rest hw =>
      obtain ⟨rfl, rfl, rfl⟩ := h a b c rest rfl hw.1 hw.2.1 hw.2.2
      rfl
  | case2 a b c rest hw =>
      rw [Database.dropWww]
      rintro rest' heq
      obtain ⟨rfl, rfl, rfl, -⟩ : a = 'w' ∧ b = 'w' ∧ c = 'w' ∧ True := by simp_all
      exact absurd ⟨by simp, by simp, by simp⟩ hw
  | case3 cs hne =>
      fun_cases Database.dropWww cs with
      | case1 rest => exact absurd rfl (hne 'w' 'w' 'w' rest)
      | case2 => rfl

/-- What is left of the end of a text that ends in no space. -/
lemma rdropWhile_dropScheme (h : ∀ init c, url = init ++ [c] → isSpace c = false) :
    (dropScheme url).rdropWhile isSpace = dropScheme url := by
  rw [← dropScheme_rdropWhile]
  congr 1
  rw [List.rdropWhile_eq_self_iff]
  intro hne
  simp [h _ _ (List.dropLast_append_getLast hne).symm]

/-- Both cut the path alike, when there is none or it has no newline. -/
lemma path_eq (hpath : ∀ host path, dropScheme url = host ++ '/' :: path → '/' ∉ host →
      '\n' ∉ path.rdropWhile isSpace)
    (hback : '/' ∉ dropScheme url → ∀ init c, url = init ++ [c] → isSpace c = false) :
    dropPath ((dropScheme url).rdropWhile isSpace) = Database.dropPath (dropScheme url) := by
  rcases not_mem_or_first '/' (dropScheme url) with hnone | ⟨host, path, hurl, hhost⟩
  · rw [rdropWhile_dropScheme (hback hnone), dropPath_of_not_mem hnone,
      Database.dropPath_of_not_mem hnone]
  · rw [hurl, rdropWhile_append_cons (by decide), dropPath_append hhost (hpath host path hurl hhost),
      Database.dropPath_append hhost]

/-- **A plain text is read alike.** -/
lemma Plain.host_eq (h : Plain url) : pyHost url = dbHost url := by
  rw [pyHost_of_front h.front, dbHost, path_eq h.path h.back]
  congr 1
  refine dropWww_eq fun a b c rest hwww => ?_
  obtain ⟨tail, htail⟩ := List.takeWhile_prefix (fun c => decide (c ≠ '/')) (l := dropScheme url)
  refine h.www a b c (rest ++ tail) ?_
  rw [← htail, show (dropScheme url).takeWhile (fun c => decide (c ≠ '/')) = _ from hwww]
  rfl

/-! ### Where they differ -/

section Differ

variable (hlower : KeepsMarks n.lower) (hdb : KeepsMarks n.dbLower)
  (hkeys : n.lower (pyHost url) = n.dbLower (dbHost url))
include hlower hdb hkeys

/-- With one key, the code cuts the path at its first slash. -/
lemma not_mem_dropPath_of_keys : '/' ∉ dropPath (dropScheme (strip url)) := by
  have hcount := countP_of_lower hlower hdb hkeys (q := fun c => decide (c = '/'))
    (by intro c hc; simp [isMark, of_decide_eq_true hc])
  rw [pyHost, dbHost, stripDots_countP (by decide), stripDots_countP (by decide),
    dropWww_countP (by decide), Database.dropWww_countP (by decide)] at hcount
  have hzero : (Database.dropPath (dropScheme url)).countP (fun c => decide (c = '/')) = 0 := by
    rw [List.countP_eq_zero]
    intro c hc hslash
    exact Database.not_mem_dropPath _ (of_decide_eq_true hslash ▸ hc)
  rw [hzero, List.countP_eq_zero] at hcount
  intro hmem
  simpa using hcount '/' hmem

/-- With one key, both leave as many spaces. -/
lemma spaces_of_keys : (Database.dropPath (dropScheme (strip url))).countP isSpace
    = (Database.dropPath (dropScheme url)).countP isSpace := by
  have hcount := countP_of_lower hlower hdb hkeys (q := isSpace)
    (by intro c hc; simp [isMark, hc])
  rwa [pyHost, dbHost, stripDots_countP (by decide), stripDots_countP (by decide),
    dropWww_countP (by decide), Database.dropWww_countP (by decide),
    dropPath_eq_of_not_mem (not_mem_dropPath_of_keys hlower hdb hkeys)] at hcount

end Differ

lemma isSpace_eq_false {c : Char} (hlow : 0x20 < c.toNat) (hhigh : c.toNat < 0x85) :
    isSpace c = false := by
  have hspaces : c.toNat ∉ [0x9, 0xa, 0xb, 0xc, 0xd, 0x1c, 0x1d, 0x1e, 0x1f, 0x20, 0x85, 0xa0, 0x1680,
      0x2028, 0x2029, 0x202f, 0x205f, 0x3000] := by
    simp only [List.mem_cons, List.not_mem_nil, or_false]
    omega
  rw [isSpace, decide_eq_false hspaces, decide_eq_false (by omega : ¬ 0x2000 ≤ c.toNat)]
  rfl

/-- A character of a scheme is no space. -/
lemma isSpace_of_isSchemeChar {c : Char} (h : isSchemeChar c = true) : isSpace c = false := by
  have hrange : 0x20 < c.toNat ∧ c.toNat < 0x85 := by
    simp only [isSchemeChar, isAsciiLetter, Bool.or_eq_true, Bool.and_eq_true, decide_eq_true_eq,
      Char.le_def, UInt32.le_iff_toNat_le] at h
    rcases h with (((((⟨h, h'⟩ | ⟨h, h'⟩) | ⟨h, h'⟩) | rfl) | rfl) | rfl)
    · exact ⟨Nat.lt_of_lt_of_le (by decide) h, Nat.lt_of_le_of_lt h' (by decide)⟩
    · exact ⟨Nat.lt_of_lt_of_le (by decide) h, Nat.lt_of_le_of_lt h' (by decide)⟩
    · exact ⟨Nat.lt_of_lt_of_le (by decide) h, Nat.lt_of_le_of_lt h' (by decide)⟩
    · decide
    · decide
    · decide
  exact isSpace_eq_false hrange.1 hrange.2

lemma isSchemeChar_of_isAsciiLetter {c : Char} (h : isAsciiLetter c = true) :
    isSchemeChar c = true := by
  simp [isSchemeChar, h]

lemma dropScheme_of_space {c : Char} (hc : isSpace c = true) (rest : List Char) :
    dropScheme (c :: rest) = c :: rest := by
  rw [dropScheme, if_neg]
  intro hletter
  rw [isSpace_of_isSchemeChar (isSchemeChar_of_isAsciiLetter hletter)] at hc
  cases hc

/-- What the database leaves of a text after spaces. -/
lemma Database.dropPath_append_of_spaces {spaces : List Char} (hspaces : ∀ c ∈ spaces, isSpace c = true)
    (rest : List Char) : Database.dropPath (spaces ++ rest) = spaces ++ Database.dropPath rest := by
  refine List.takeWhile_append_of_pos fun c hc => ?_
  have hspace := hspaces c hc
  rw [decide_eq_true_eq]
  rintro rfl
  revert hspace
  decide

/-- The path of a URL begins in its scheme. -/
lemma dropPath_of_scheme {cs scheme rest : List Char} (h : SchemeText cs scheme rest) :
    Database.dropPath cs = scheme ++ [':'] := by
  obtain ⟨rfl, c, t, rfl, hc, ht⟩ := h
  have hscheme : ∀ d ∈ c :: t, isSchemeChar d = true := by
    intro d hd
    rcases List.mem_cons.1 hd with rfl | hd
    · exact isSchemeChar_of_isAsciiLetter hc
    · exact ht d hd
  have hslash : '/' ∉ c :: t ++ [':'] := by
    intro hmem
    rcases List.mem_append.1 hmem with hmem | hmem
    · exact absurd (hscheme '/' hmem) (by decide)
    · exact absurd hmem (by decide)
  have happend := @Database.dropPath_append _ ('/' :: rest) hslash
  rwa [List.append_assoc, List.singleton_append] at happend

section Spaces

variable {spaces rest : List Char} (hne : spaces ≠ []) (hspaces : ∀ c ∈ spaces, isSpace c = true)
include hne hspaces

lemma dropWww_of_spaces : Database.dropWww (spaces ++ rest) = spaces ++ rest := by
  obtain ⟨c, t, rfl⟩ := List.exists_cons_of_ne_nil hne
  have hc := hspaces c List.mem_cons_self
  rw [List.cons_append, Database.dropWww]
  rintro rest' heq
  obtain ⟨rfl, -⟩ := List.cons.inj heq
  revert hc
  decide

lemma stripDots_of_spaces : stripDots (spaces ++ (rest ++ [':'])) = spaces ++ (rest ++ [':']) := by
  obtain ⟨c, t, rfl⟩ := List.exists_cons_of_ne_nil hne
  have hc := hspaces c List.mem_cons_self
  have hdot : c ≠ '.' := by
    rintro rfl
    revert hc
    decide
  rw [stripDots, List.cons_append, List.dropWhile_cons_of_neg (by simpa using hdot), ← List.cons_append,
    ← List.append_assoc, List.rdropWhile_concat_neg _ _ _ (by decide)]

variable (rest) in
/-- After spaces the code reads the host of a URL, and the database its scheme. -/
lemma hosts_of_spaces {scheme url : List Char} (h : SchemeText url scheme rest) :
    pyHost (spaces ++ url) = stripDots (dropWww (dropPath (rest.rdropWhile isSpace)))
      ∧ dbHost (spaces ++ url) = spaces ++ (scheme ++ [':']) := by
  constructor
  · have hurl : url.dropWhile isSpace = url := by
      obtain ⟨rfl, c, t, rfl, hc, -⟩ := h
      rw [List.cons_append, List.dropWhile_cons_of_neg]
      simp [isSpace_of_isSchemeChar (isSchemeChar_of_isAsciiLetter hc)]
    rw [pyHost, strip, List.dropWhile_append_of_pos hspaces, hurl, dropScheme_rdropWhile,
      dropScheme_of_scheme h]
  · have hscheme : dropScheme (spaces ++ url) = spaces ++ url := by
      obtain ⟨c, t, rfl⟩ := List.exists_cons_of_ne_nil hne
      exact dropScheme_of_space (hspaces c List.mem_cons_self) _
    rw [dbHost, hscheme, Database.dropPath_append_of_spaces hspaces, dropPath_of_scheme h,
      dropWww_of_spaces hne hspaces, stripDots_of_spaces hne hspaces]

end Spaces

lemma Database.dropPath_rdropWhile (cs : List Char) :
    (Database.dropPath (cs.rdropWhile isSpace)).Sublist (Database.dropPath cs) := by
  rcases not_mem_or_first '/' cs with hnone | ⟨host, path, rfl, hhost⟩
  · have hle := List.rdropWhile_prefix isSpace cs
    rw [Database.dropPath_of_not_mem hnone,
      Database.dropPath_of_not_mem fun hmem => hnone (hle.subset hmem)]
    exact hle.sublist
  · rw [rdropWhile_append_cons (by decide), Database.dropPath_append hhost,
      Database.dropPath_append hhost]

/-- A last space is left by a scheme. -/
lemma dropScheme_concat (init : List Char) {c : Char} (hc : isSpace c = true) :
    ∃ init', dropScheme (init ++ [c]) = init' ++ [c] := by
  by_cases hscheme : ∃ scheme rest, SchemeText (init ++ [c]) scheme rest
  · obtain ⟨scheme, rest, htext⟩ := hscheme
    rw [dropScheme_of_scheme htext]
    induction rest using List.reverseRecOn with
    | nil =>
        have hlast := htext.1
        rw [show scheme ++ [':', '/', '/'] = (scheme ++ [':', '/']) ++ ['/'] by simp] at hlast
        obtain ⟨-, hslash⟩ := List.append_inj' hlast rfl
        rw [(List.cons.inj hslash).1] at hc
        exact absurd hc (by decide)
    | append_singleton rest d _ =>
        have hlast := htext.1
        rw [show scheme ++ ':' :: '/' :: '/' :: (rest ++ [d])
          = (scheme ++ ':' :: '/' :: '/' :: rest) ++ [d] by simp] at hlast
        obtain ⟨-, hd⟩ := List.append_inj' hlast rfl
        exact ⟨rest, by rw [hd]⟩
  · rw [not_exists] at hscheme
    exact ⟨init, dropScheme_of_none fun scheme rest h => hscheme scheme ⟨rest, h⟩⟩

section Differ

variable (hlower : KeepsMarks n.lower) (hdb : KeepsMarks n.dbLower)
  (hkeys : n.lower (pyHost url) = n.dbLower (dbHost url))
include hlower hdb hkeys

/-- **Spaces before the text** are left by the database: only an echo has one key all the same. -/
lemma echo_of_space {c : Char} {tail : List Char} (hurl : url = c :: tail) (hc : isSpace c = true) :
    Echo n url := by
  have hsplit := List.takeWhile_append_dropWhile (p := isSpace) (l := url)
  have hne : url.takeWhile isSpace ≠ [] := by
    rw [hurl, List.takeWhile_cons_of_pos hc]
    exact List.cons_ne_nil _ _
  have hspaces : ∀ c ∈ url.takeWhile isSpace, isSpace c = true :=
    fun c hmem => List.mem_takeWhile_imp hmem
  have hscheme : dropScheme url = url := by
    rw [hurl]
    exact dropScheme_of_space hc tail
  by_cases hrest : ∃ scheme rest, SchemeText (url.dropWhile isSpace) scheme rest
  · obtain ⟨scheme, rest, htext⟩ := hrest
    refine ⟨_, scheme, rest, ?_, hne, hspaces, htext.2, ?_⟩
    · rw [← htext.1, hsplit]
    · obtain ⟨hpy, hdb⟩ := hosts_of_spaces _ hne hspaces htext
      rw [hsplit] at hpy hdb
      rw [← hpy, ← hdb, hkeys]
  · -- without a scheme the database has more spaces
    exfalso
    rw [not_exists] at hrest
    have hnone : dropScheme (url.dropWhile isSpace) = url.dropWhile isSpace :=
      dropScheme_of_none fun scheme rest h => hrest scheme ⟨rest, h⟩
    have hcount := spaces_of_keys hlower hdb hkeys
    have hle := (Database.dropPath_rdropWhile (url.dropWhile isSpace)).countP_le (p := isSpace)
    have hpos : 0 < (url.takeWhile isSpace).countP isSpace := by
      rw [List.countP_eq_length.2 hspaces]
      exact List.length_pos_of_ne_nil hne
    rw [strip, dropScheme_rdropWhile, hnone, hscheme, ← hsplit,
      Database.dropPath_append_of_spaces hspaces, List.countP_append, hsplit] at hcount
    omega

/-- **A path with a newline** is kept by the code, slashes and all. -/
lemma path_of_keys (hfront : ∀ c rest, url = c :: rest → isSpace c = false)
    (host path : List Char) (hurl : dropScheme url = host ++ '/' :: path) (hhost : '/' ∉ host) :
    '\n' ∉ path.rdropWhile isSpace := by
  intro hnewline
  have hslash := not_mem_dropPath_of_keys hlower hdb hkeys
  rw [strip_of_front hfront, dropScheme_rdropWhile, hurl, rdropWhile_append_cons (by decide)] at hslash
  exact hslash (mem_dropPath_append hhost hnewline)

/-- **Spaces after a host** are left by the database. -/
lemma back_of_keys (hfront : ∀ c rest, url = c :: rest → isSpace c = false)
    (hhost : '/' ∉ dropScheme url) (init : List Char) (c : Char) (hurl : url = init ++ [c]) :
    isSpace c = false := by
  have hcount := spaces_of_keys hlower hdb hkeys
  rw [strip_of_front hfront, dropScheme_rdropWhile, Database.dropPath_of_not_mem hhost,
    Database.dropPath_of_not_mem fun hmem =>
      hhost ((List.rdropWhile_prefix isSpace (dropScheme url)).subset hmem)] at hcount
  by_contra hc
  rw [Bool.not_eq_false] at hc
  obtain ⟨init', hdrop⟩ := dropScheme_concat init hc
  have hle := (List.rdropWhile_prefix isSpace init').sublist.countP_le (p := isSpace)
  have hone : [c].countP isSpace = 1 := by simp [hc]
  rw [hurl, hdrop, List.rdropWhile_concat_pos _ _ _ hc, List.countP_append, hone] at hcount
  omega

/-- **`www.` with capitals** is left by the database. -/
lemma www_of_keys (hpath : dropPath (dropScheme (strip url)) = Database.dropPath (dropScheme url))
    {a b c : Char} {rest : List Char} (hurl : dropScheme url = a :: b :: c :: '.' :: rest)
    (ha : a ∈ ['w', 'W']) (hb : b ∈ ['w', 'W']) (hc : c ∈ ['w', 'W']) :
    a = 'w' ∧ b = 'w' ∧ c = 'w' := by
  have hletter : ∀ x ∈ ['w', 'W'], x ≠ '/' ∧ x ≠ '.' := by simp
  obtain ⟨tail, htail⟩ : ∃ tail, Database.dropPath (dropScheme url) = a :: b :: c :: '.' :: tail := by
    refine ⟨rest.takeWhile fun c => decide (c ≠ '/'), ?_⟩
    simp [hurl, Database.dropPath, (hletter a ha).1, (hletter b hb).1, (hletter c hc).1]
  by_contra hcapital
  have hdropped : dropWww (a :: b :: c :: '.' :: tail) = tail := by
    rw [dropWww, if_pos ⟨ha, hb, hc⟩]
  have hkept : Database.dropWww (a :: b :: c :: '.' :: tail) = a :: b :: c :: '.' :: tail := by
    rw [Database.dropWww]
    rintro rest' heq
    simp only [List.cons.injEq] at heq
    exact hcapital ⟨heq.1, heq.2.1, heq.2.2.1⟩
  have hkeys' := hkeys
  rw [pyHost, dbHost, hpath, htail, hdropped, hkept] at hkeys'
  have hadot : decide (a = '.') = false := by simpa using (hletter a ha).2
  -- the dot of `www.` is one more, unless there is nothing but dots behind it
  cases hdots : tail.dropWhile fun c => decide (c = '.') with
  | nil =>
      have hnil : stripDots tail = [] := by rw [stripDots, hdots, List.rdropWhile_nil]
      rw [hnil, (hlower.nil []).2 rfl, eq_comm, hdb.nil, stripDots,
        List.dropWhile_cons_of_neg (by simp [hadot]), List.rdropWhile_eq_nil_iff] at hkeys'
      have ha' := hkeys' a List.mem_cons_self
      rw [hadot] at ha'
      cases ha'
  | cons e t =>
      have hedot : decide (e = '.') = false := by
        have hhead := List.head?_dropWhile_not (fun c => decide (c = '.')) tail
        rw [hdots] at hhead
        simpa using hhead
      obtain ⟨dots, hdotted⟩ : ∃ dots, tail = dots ++ e :: t :=
        ⟨_, hdots ▸ List.takeWhile_append_dropWhile.symm⟩
      have hdropped' : stripDots tail = e :: t.rdropWhile fun c => decide (c = '.') := by
        rw [stripDots, hdots]
        exact rdropWhile_append_cons hedot [] t
      have hkept' : stripDots (a :: b :: c :: '.' :: tail)
          = (a :: b :: c :: '.' :: dots) ++ e :: t.rdropWhile fun c => decide (c = '.') := by
        rw [stripDots, List.dropWhile_cons_of_neg (by simp [hadot]), hdotted]
        exact rdropWhile_append_cons hedot (a :: b :: c :: '.' :: dots) t
      have hcount := countP_of_lower hlower hdb hkeys' (q := fun c => decide (c = '.'))
        (by intro c hc; simp [isMark, of_decide_eq_true hc])
      rw [hdropped', hkept', List.countP_append] at hcount
      simp [hadot] at hcount

end Differ

/-- **The domain keys of a text agree exactly when it is plain**, and its host has one lower case, or when
it is an echo. -/
lemma domain_keys_iff (hlower : KeepsMarks n.lower) (hdb : KeepsMarks n.dbLower) (url : String) :
    normalizeDomain n (some url) = Database.normalizeDomain n (some url) ↔
      Plain url.toList ∧ n.lower (dbHost url.toList) = n.dbLower (dbHost url.toList)
        ∨ Echo n url.toList := by
  rw [domain_keys_eq_iff hlower]
  constructor
  · intro hkeys
    by_cases hspace : ∃ c tail, url.toList = c :: tail ∧ isSpace c = true
    · obtain ⟨c, tail, hurl, hc⟩ := hspace
      exact .inr (echo_of_space hlower hdb hkeys hurl hc)
    · have hfront : ∀ c rest, url.toList = c :: rest → isSpace c = false := by
        intro c rest hurl
        by_contra hc
        exact hspace ⟨c, rest, hurl, by simpa using hc⟩
      have hpath := path_of_keys hlower hdb hkeys hfront
      have hback := back_of_keys hlower hdb hkeys hfront
      have hsame : dropPath (dropScheme (strip url.toList))
          = Database.dropPath (dropScheme url.toList) := by
        rw [strip_of_front hfront, dropScheme_rdropWhile, path_eq hpath hback]
      have hplain : Plain url.toList :=
        ⟨hfront, hpath, hback, fun a b c rest => www_of_keys hlower hdb hkeys hsame⟩
      rw [hplain.host_eq] at hkeys
      exact .inl ⟨hplain, hkeys⟩
  · rintro (⟨hplain, hhost⟩ | ⟨spaces, scheme, rest, hurl, hne, hspaces, hletters, hecho⟩)
    · rw [hplain.host_eq, hhost]
    · obtain ⟨hpy, hdb⟩ := hosts_of_spaces rest hne hspaces ⟨rfl, hletters⟩
      rw [hurl, hpy, hdb, hecho]

/-! ### Phones -/

/-- The three digit filters keep the same of a text. -/
def DigitsAgree (n : Normalizers) (cs : List Char) : Prop :=
  ∀ c ∈ cs, isDigit c = (digit? c).isSome ∧ n.dbDigit c = (digit? c).isSome

lemma phone_keys_iff (raw : String) :
    (normalizePhone (some raw) = digits (some raw)
        ∧ normalizePhone (some raw) = Database.normalizePhone n (some raw)) ↔
      DigitsAgree n raw.toList := by
  rw [normalizePhone, digits, Database.normalizePhone, Option.bind_some, Option.bind_some, orNone_inj,
    orNone_inj, Option.getD_some, filter_eq_filter_iff, filter_eq_filter_iff, ← forall₂_and]
  refine forall₂_congr fun c _ => ?_
  rw [eq_comm, eq_comm (a := (digit? c).isSome) (b := n.dbDigit c)]

/-! ### All keys -/

/-- **The keys of a text agree exactly when it is plain and its digits are digits to all**, up to the case
of its host, and but for echoes.  The two functions for lower case leave spaces, slashes and dots. -/
theorem keys_agree_iff (n : Normalizers) (hlower : KeepsMarks n.lower) (hdb : KeepsMarks n.dbLower)
    (text : String) :
    (normalizeDomain n (some text) = Database.normalizeDomain n (some text)
        ∧ normalizePhone (some text) = digits (some text)
        ∧ normalizePhone (some text) = Database.normalizePhone n (some text)) ↔
      (Plain text.toList ∧ n.lower (dbHost text.toList) = n.dbLower (dbHost text.toList)
          ∨ Echo n text.toList) ∧ DigitsAgree n text.toList := by
  rw [domain_keys_iff hlower hdb, phone_keys_iff]

/-! ### ASCII -/

/-- In lower case a capital is a letter, and nothing else changes. -/
lemma toLower_spec (c : Char) : c.toLower = c ∨ isMark c = false ∧ isMark c.toLower = false := by
  by_cases hcapital : 65 ≤ c.toNat ∧ c.toNat ≤ 90
  · refine .inr ?_
    obtain ⟨hlow, hhigh⟩ := hcapital
    rw [← Char.ofNat_toNat c]
    generalize c.toNat = k at hlow hhigh
    interval_cases k <;> decide
  · refine .inl ?_
    exact dif_neg fun h => hcapital h

lemma keepsMarks_ascii : KeepsMarks (List.map Char.toLower) where
  marks := by
    intro cs
    induction cs with
    | nil => rfl
    | cons c cs ih =>
        rw [List.map_cons]
        rcases toLower_spec c with hsame | ⟨hmark, hmark'⟩
        · rw [hsame, List.filter_cons, List.filter_cons, ih]
        · rw [List.filter_cons_of_neg (by simp [hmark']), List.filter_cons_of_neg (by simp [hmark]), ih]
  nil := fun cs => List.map_eq_nil_iff

/-- A URL with a scheme and `www.`. -/
theorem keys_agree_url :
    normalizeDomain .ascii (some "https://www.x.com")
        = Database.normalizeDomain .ascii (some "https://www.x.com")
      ∧ normalizePhone (some "https://www.x.com") = digits (some "https://www.x.com")
      ∧ normalizePhone (some "https://www.x.com")
        = Database.normalizePhone .ascii (some "https://www.x.com") := by
  have hscheme : dropScheme "https://www.x.com".toList
      = ['w', 'w', 'w', '.', 'x', '.', 'c', 'o', 'm'] := by decide +kernel
  have hslash : '/' ∉ ['w', 'w', 'w', '.', 'x', '.', 'c', 'o', 'm'] := by simp
  refine (keys_agree_iff .ascii keepsMarks_ascii keepsMarks_ascii _).2
    ⟨.inl ⟨⟨fun c rest hurl => ?_, fun host path hurl => ?_, fun _ init c hurl => ?_,
      fun a b c rest hurl _ _ _ => ?_⟩, rfl⟩, ?_⟩
  · rw [← (List.cons.inj hurl).1]
    decide
  · rw [hscheme] at hurl
    exact absurd (hurl ▸ List.mem_append_right host List.mem_cons_self) hslash
  · have hlast := congrArg List.getLast? hurl
    rw [List.getLast?_concat] at hlast
    rw [← Option.some.inj hlast]
    decide
  · rw [hscheme] at hurl
    simp only [List.cons.injEq] at hurl
    exact ⟨hurl.1.symm, hurl.2.1.symm, hurl.2.2.1.symm⟩
  · have hdigits : "https://www.x.com".toList.all (fun c =>
        isDigit c == (digit? c).isSome && Normalizers.ascii.dbDigit c == (digit? c).isSome) = true := rfl
    intro c hc
    simpa only [Bool.and_eq_true, beq_iff_eq] using List.all_eq_true.1 hdigits c hc

/-- A host with a capital `WWW.` has two keys. -/
theorem keys_differ :
    normalizeDomain .ascii (some "WWW.x.com") = some "x.com".toList
      ∧ Database.normalizeDomain .ascii (some "WWW.x.com") = some "www.x.com".toList := by
  decide +kernel

end Leads
