import AgencyOS.Python.Exceptions

/-!
`re.sub` with a function for the replacements, for a pattern that a scanner decides.

* `Scanner`, `sub`: a scanner reads the match at the start of a text; the matches of a text are
  replaced from the left;
* `Piece`, `Reads`, `pieces`: the matches of a text, and the characters between them;
* `reads_iff`: **every text is read as pieces in one way**;
* `sub_eq_mapM`: **every piece is replaced by itself**, whatever the replacements of the others are;
* `sub_eq_error`: what is raised is what the first match raises that has no replacement.
-/

namespace Python

variable {α β ε : Type}

/-- What decides a pattern: it reads the match at the start of a text, and what follows. -/
structure Scanner (α β : Type) where
  Matches : List α → β → Prop
  scan : List α → Option (β × List α)
  scan_iff : ∀ s b rest, scan s = some (b, rest) ↔ ∃ t, Matches t b ∧ s = t ++ rest
  ne_nil : ∀ t b, Matches t b → t ≠ []

/-- A piece of a text: a match, or a character that starts none. -/
inductive Piece (α β : Type) where
  | hit (b : β)
  | plain (c : α)

/-- How a text is read from the left. -/
inductive Reads (Matches : List α → β → Prop) : List α → List (Piece α β) → Prop
  | nil : Reads Matches [] []
  | hit {t rest : List α} {b : β} {ps : List (Piece α β)} (matched : Matches t b)
      (next : Reads Matches rest ps) : Reads Matches (t ++ rest) (.hit b :: ps)
  | plain {c : α} {cs : List α} {ps : List (Piece α β)}
      (unmatched : ∀ t b rest, Matches t b → c :: cs ≠ t ++ rest) (next : Reads Matches cs ps) :
      Reads Matches (c :: cs) (.plain c :: ps)

namespace Scanner

variable (sc : Scanner α β)

/-- A match is not empty. -/
lemma length_of_scan {s rest : List α} {b : β} (h : sc.scan s = some (b, rest)) :
    rest.length < s.length := by
  obtain ⟨t, hmatch, rfl⟩ := (sc.scan_iff s b rest).mp h
  have hpos := List.length_pos_of_ne_nil (sc.ne_nil t b hmatch)
  rw [List.length_append]
  omega

/-- `pattern.sub(replace, s)`. -/
def sub (replace : β → Except ε (List α)) : List α → Except ε (List α)
  | [] => .ok []
  | c :: cs =>
      match _h : sc.scan (c :: cs) with
      | some (b, rest) => do
          let replaced ← replace b
          return replaced ++ (← sub replace rest)
      | none => do
          return c :: (← sub replace cs)
termination_by s => s.length
decreasing_by
  · exact sc.length_of_scan ‹_›
  · exact Nat.lt_succ_self _

/-- The pieces of a text. -/
def pieces : List α → List (Piece α β)
  | [] => []
  | c :: cs =>
      match _h : sc.scan (c :: cs) with
      | some (b, rest) => .hit b :: pieces rest
      | none => .plain c :: pieces cs
termination_by s => s.length
decreasing_by
  · exact sc.length_of_scan ‹_›
  · exact Nat.lt_succ_self _

/-! ### Reading -/

/-- Texts are read by the scanner. -/
lemma reads_pieces (s : List α) : Reads sc.Matches s (sc.pieces s) := by
  induction s using pieces.induct sc with
  | case1 =>
      rw [pieces]
      exact .nil
  | case2 c cs b rest h ih =>
      rw [pieces]
      split
      · next b' rest' h' =>
          obtain ⟨rfl, rfl⟩ := Prod.mk.inj (Option.some_injective _ (h.symm.trans h'))
          obtain ⟨t, hmatch, heq⟩ := (sc.scan_iff _ _ _).mp h
          rw [heq]
          exact .hit hmatch ih
      · next h' => exact nomatch h.symm.trans h'
  | case3 c cs h ih =>
      rw [pieces]
      split
      · next h' => exact nomatch h.symm.trans h'
      · refine .plain (fun t b rest hmatch heq => ?_) ih
        exact nomatch h.symm.trans ((sc.scan_iff _ b rest).mpr ⟨t, hmatch, heq⟩)

/-- There is one way to read a text. -/
lemma pieces_of_reads {s : List α} {ps : List (Piece α β)} (h : Reads sc.Matches s ps) :
    sc.pieces s = ps := by
  induction h with
  | nil => rw [pieces]
  | @hit t rest b ps matched next ih =>
      have hscan : sc.scan (t ++ rest) = some (b, rest) := (sc.scan_iff _ _ _).mpr ⟨t, matched, rfl⟩
      obtain ⟨c, cs, ht⟩ := List.exists_cons_of_ne_nil (sc.ne_nil t b matched)
      rw [ht, List.cons_append] at hscan ⊢
      rw [pieces]
      split
      · next b' rest' h' =>
          obtain ⟨rfl, rfl⟩ := Prod.mk.inj (Option.some_injective _ (hscan.symm.trans h'))
          rw [ih]
      · next h' => exact nomatch hscan.symm.trans h'
  | @plain c cs ps unmatched next ih =>
      rw [pieces]
      split
      · next b rest h' =>
          obtain ⟨t, hmatch, heq⟩ := (sc.scan_iff _ _ _).mp h'
          exact absurd heq (unmatched t b rest hmatch)
      · rw [ih]

/-- **A text is read in one way.** -/
theorem reads_iff {s : List α} {ps : List (Piece α β)} :
    Reads sc.Matches s ps ↔ ps = sc.pieces s := by
  constructor
  · intro h
    exact (sc.pieces_of_reads h).symm
  · rintro rfl
    exact sc.reads_pieces s

end Scanner

/-! ### Replacing -/

/-- What a piece is replaced by. -/
def Piece.replaceBy (replace : β → Except ε (List α)) : Piece α β → Except ε (List α)
  | .hit b => replace b
  | .plain c => .ok [c]

/-- **Every piece is replaced by itself.** -/
theorem Scanner.sub_eq_mapM (sc : Scanner α β) (replace : β → Except ε (List α)) (s : List α) :
    sc.sub replace s = ((sc.pieces s).mapM (Piece.replaceBy replace)).map List.flatten := by
  induction s using Scanner.pieces.induct sc with
  | case1 =>
      rw [sub, pieces, List.mapM_nil]
      rfl
  | case2 c cs b rest h ih =>
      rw [sub, pieces]
      split
      · next b' rest' h' =>
          obtain ⟨rfl, rfl⟩ := Prod.mk.inj (Option.some_injective _ (h.symm.trans h'))
          rw [ih, List.mapM_cons, Piece.replaceBy]
          cases replace b with
          | error e => rfl
          | ok replaced =>
              cases (sc.pieces rest).mapM (Piece.replaceBy replace) with
              | error e => rfl
              | ok chunks => rfl
      · next h' => exact nomatch h.symm.trans h'
  | case3 c cs h ih =>
      rw [sub, pieces]
      split
      · next h' => exact nomatch h.symm.trans h'
      · rw [ih, List.mapM_cons, Piece.replaceBy]
        cases (sc.pieces cs).mapM (Piece.replaceBy replace) with
        | error e => rfl
        | ok chunks => rfl

/-- What is done with a result raises nothing. -/
lemma bind_pure_eq_error {x : Except ε α} {f : α → β} {e : ε} :
    (x >>= fun a => pure (f a)) = .error e ↔ x = .error e := by
  cases x with
  | error e' =>
      constructor
      · intro h
        exact congrArg _ (Except.error.inj h)
      · intro h
        exact congrArg _ (Except.error.inj h)
  | ok a => exact ⟨nofun, nofun⟩

/-- A loop over a list fails where it first fails. -/
lemma mapM_eq_error {f : α → Except ε β} {as : List α} {e : ε} : as.mapM f = .error e
    ↔ ∃ before a after, as = before ++ a :: after ∧ f a = .error e ∧ ∀ b ∈ before, ∃ y, f b = .ok y := by
  induction as with
  | nil =>
      rw [List.mapM_nil]
      constructor
      · exact nofun
      · rintro ⟨before, a, after, h, -⟩
        simp at h
  | cons a as ih =>
      rw [List.mapM_cons]
      cases ha : f a with
      | error e' =>
          constructor
          · intro h
            obtain rfl : e' = e := Except.error.inj h
            exact ⟨[], a, as, rfl, ha, fun b hb => by cases hb⟩
          · rintro ⟨before, b, after, heq, hb, hbefore⟩
            cases before with
            | nil =>
                obtain ⟨rfl, -⟩ := List.cons.inj heq
                exact congrArg _ (Except.error.inj (ha.symm.trans hb))
            | cons c before =>
                obtain ⟨rfl, -⟩ := List.cons.inj heq
                obtain ⟨y, hy⟩ := hbefore a List.mem_cons_self
                exact nomatch ha.symm.trans hy
      | ok y =>
          refine bind_pure_eq_error.trans (ih.trans ?_)
          constructor
          · rintro ⟨before, b, after, rfl, hb, hbefore⟩
            refine ⟨a :: before, b, after, rfl, hb, fun c hc => ?_⟩
            rcases List.mem_cons.mp hc with rfl | hc
            · exact ⟨y, ha⟩
            · exact hbefore c hc
          · rintro ⟨before, b, after, heq, hb, hbefore⟩
            cases before with
            | nil =>
                obtain ⟨rfl, -⟩ := List.cons.inj heq
                exact nomatch ha.symm.trans hb
            | cons c before =>
                obtain ⟨rfl, rfl⟩ := List.cons.inj heq
                exact ⟨before, b, after, rfl, hb, fun d hd => hbefore d (List.mem_cons_of_mem _ hd)⟩

/-- A list has counterparts when each of its members has one. -/
lemma exists_forall₂_iff {R : α → β → Prop} {as : List α} :
    (∃ bs, List.Forall₂ R as bs) ↔ ∀ a ∈ as, ∃ b, R a b := by
  induction as with
  | nil => exact ⟨fun _ => nofun, fun _ => ⟨[], .nil⟩⟩
  | cons a as ih =>
      rw [List.forall_mem_cons, ← ih]
      constructor
      · rintro ⟨bs, hbs⟩
        cases hbs with
        | cons hb hrest => exact ⟨⟨_, hb⟩, ⟨_, hrest⟩⟩
      · rintro ⟨⟨b, hb⟩, bs, hbs⟩
        exact ⟨b :: bs, .cons hb hbs⟩

/-- The matches among pieces. -/
def hits (ps : List (Piece α β)) : List β :=
  ps.filterMap fun
    | .hit b => some b
    | .plain _ => none

lemma mem_hits {ps : List (Piece α β)} {b : β} : b ∈ hits ps ↔ .hit b ∈ ps := by
  rw [hits, List.mem_filterMap]
  constructor
  · rintro ⟨p, hp, heq⟩
    cases p with
    | hit b' =>
        obtain rfl := Option.some_injective _ heq
        exact hp
    | plain c => cases heq
  · intro h
    exact ⟨.hit b, h, rfl⟩

/-- Only matches can fail. -/
lemma mapM_replaceBy_eq_error {replace : β → Except ε (List α)} {ps : List (Piece α β)} {e : ε} :
    ps.mapM (Piece.replaceBy replace) = .error e ↔ (hits ps).mapM replace = .error e := by
  induction ps with
  | nil => exact ⟨nofun, nofun⟩
  | cons p ps ih =>
      rw [List.mapM_cons]
      cases p with
      | hit b =>
          have hhits : hits (.hit b :: ps) = b :: hits ps := rfl
          rw [hhits, List.mapM_cons, Piece.replaceBy]
          cases replace b with
          | error e' =>
              constructor
              · intro h
                exact congrArg _ (Except.error.inj h)
              · intro h
                exact congrArg _ (Except.error.inj h)
          | ok t => exact bind_pure_eq_error.trans (ih.trans bind_pure_eq_error.symm)
      | plain c =>
          have hhits : hits (.plain c :: ps) = hits ps := rfl
          rw [hhits, ← ih]
          exact bind_pure_eq_error

/-- A text without failures is made up of what its pieces are replaced by. -/
theorem Scanner.sub_eq_ok {sc : Scanner α β} {replace : β → Except ε (List α)} {s out : List α} :
    sc.sub replace s = .ok out ↔ ∃ chunks,
      List.Forall₂ (fun p chunk => Piece.replaceBy replace p = .ok chunk) (sc.pieces s) chunks
        ∧ chunks.flatten = out := by
  rw [sc.sub_eq_mapM, map_eq_ok]
  exact exists_congr fun chunks => and_congr_left fun _ => mapM_eq_ok

/-- In a text without failures every match is replaced. -/
lemma Scanner.replaced_of_sub {sc : Scanner α β} {replace : β → Except ε (List α)} {s out : List α}
    (h : sc.sub replace s = .ok out) {b : β} (hb : b ∈ hits (sc.pieces s)) : ∃ t, replace b = .ok t := by
  obtain ⟨chunks, hchunks, -⟩ := sub_eq_ok.mp h
  exact exists_forall₂_iff.mp ⟨chunks, hchunks⟩ _ (mem_hits.mp hb)

/-- **What is raised is what the first match raises that has no replacement.** -/
theorem Scanner.sub_eq_error {sc : Scanner α β} {replace : β → Except ε (List α)} {s : List α} {e : ε} :
    sc.sub replace s = .error e ↔ ∃ before b after, hits (sc.pieces s) = before ++ b :: after
      ∧ replace b = .error e ∧ ∀ b' ∈ before, ∃ t, replace b' = .ok t := by
  rw [sc.sub_eq_mapM, ← mapM_eq_error, ← mapM_replaceBy_eq_error]
  cases (sc.pieces s).mapM (Piece.replaceBy replace) with
  | error e' =>
      constructor
      · intro h
        exact congrArg _ (Except.error.inj h)
      · intro h
        exact congrArg _ (Except.error.inj h)
  | ok chunks => exact ⟨nofun, nofun⟩

end Python
