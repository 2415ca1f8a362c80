import AgencyOS.Txn.Monitor

/-!
Programs of one store run on a larger one.

A program is translated statement by statement, each answer translated back.  A schema is extended
by tables of its own and by further statements, which may address the old tables as well; the programs
of the old schema are lifted to the new one.

* `Prog.translate`: a program with its statements translated; what it issues and which monitors it
  obeys;
* `Extension`, `Schema.extend`, `Tx.lift`: the larger schema, and the programs of the smaller one on it.
-/

namespace Txn

variable {S S' : Signature} {ι ε α β γ : Type}

/-! ### Translations -/

namespace Prog

/-- The program with its statements translated by `f`, the answers translated back by `g`. -/
def translate (f : S.Stmt → S'.Stmt) (g : ∀ q, S'.Resp (f q) → S.Resp q) :
    Prog S ε α → Prog S' ε α
  | ret a => ret a
  | raise e => raise e
  | call q k => call (f q) fun a => (k (g q a)).translate f g

variable {f : S.Stmt → S'.Stmt} {g : ∀ q, S'.Resp (f q) → S.Resp q}

@[simp] lemma translate_ret (a : α) : (ret a : Prog S ε α).translate f g = ret a := rfl

@[simp] lemma translate_raise (e : ε) : (raise e : Prog S ε α).translate f g = raise e := rfl

@[simp] lemma translate_call (q : S.Stmt) (k : S.Resp q → Prog S ε α) :
    (call q k).translate f g = call (f q) fun a => (k (g q a)).translate f g := rfl

@[simp] lemma translate_bind (p : Prog S ε α) (k : α → Prog S ε β) :
    (p.bind k).translate f g = (p.translate f g).bind fun a => (k a).translate f g := by
  induction p with
  | ret a => rfl
  | raise e => rfl
  | call q k ih =>
      simp only [call_bind, translate_call, call.injEq, heq_eq_eq, true_and]
      exact funext fun a => ih (g q a)

@[simp] lemma translate_tryCatch (p : Prog S ε α) (k : ε → Prog S ε α) :
    (p.tryCatch k).translate f g = (p.translate f g).tryCatch fun e => (k e).translate f g := by
  induction p with
  | ret a => rfl
  | raise e => rfl
  | call q k ih =>
      simp only [call_tryCatch, translate_call, call.injEq, heq_eq_eq, true_and]
      exact funext fun a => ih (g q a)

/-- A translated program issues the translations of what the program issues. -/
lemma issues_translate {φ : S'.Stmt → Prop} {p : Prog S ε α} (hp : p.Issues fun q => φ (f q)) :
    (p.translate f g).Issues φ := by
  induction p with
  | ret a => trivial
  | raise e => trivial
  | call q k ih => exact ⟨hp.1, fun a => ih (g q a) (hp.2 (g q a))⟩

/-- A translated program raises what the program raises. -/
lemma throws_translate {F : ε → Prop} {p : Prog S ε α} (hp : p.Throws F) :
    (p.translate f g).Throws F := by
  induction p with
  | ret a => trivial
  | raise e => exact hp
  | call q k ih => exact fun a => ih (g q a) (hp (g q a))

/-- A translated program obeys a monitor that says of a translation what another one says of the
statement. -/
lemma Obeys.translate {M : Monitor S γ} {M' : Monitor S' γ} {Q : γ → Except ε α → Prop}
    (hallow : ∀ x q, M.allows x q → M'.allows x (f q))
    (hstep : ∀ x q a, M'.step x ⟨f q, a⟩ = M.step x ⟨q, g q a⟩) {p : Prog S ε α} {x : γ}
    (hp : p.Obeys M Q x) : (p.translate f g).Obeys M' Q x := by
  induction p generalizing x with
  | ret a => exact hp
  | raise e => exact hp
  | call q k ih =>
      refine ⟨hallow x q hp.1, fun a => ?_⟩
      rw [hstep]
      exact ih (g q a) (hp.2 (g q a))

end Prog

/-! ### Extensions of a schema -/

/-- Further tables, and further statements on the old and the new tables. -/
structure Extension (S : Schema) where
  Table : Type
  Row : Table → Type
  Update : Type
  target : Update → S.Table ⊕ Table
  act : (u : Update) → GuardedUpdate (Sum.elim S.Row Row (target u))
  Insert : Type
  into : Insert → S.Table ⊕ Table
  new : (x : Insert) → Sum.elim S.Row Row (into x)
  Query : Type
  source : Query → S.Table ⊕ Table
  matching : (q : Query) → Sum.elim S.Row Row (source q) → Bool

/-- The schema with the extension added. -/
@[reducible] def Schema.extend (S : Schema) (E : Extension S) : Schema where
  Table := S.Table ⊕ E.Table
  Row := Sum.elim S.Row E.Row
  Update := S.Update ⊕ E.Update
  target
    | .inl u => .inl (S.target u)
    | .inr u => E.target u
  act
    | .inl u => S.act u
    | .inr u => E.act u
  Insert := S.Insert ⊕ E.Insert
  into
    | .inl x => .inl (S.into x)
    | .inr x => E.into x
  new
    | .inl x => S.new x
    | .inr x => E.new x
  Query := S.Query ⊕ E.Query
  source
    | .inl q => .inl (S.source q)
    | .inr q => E.source q
  matching
    | .inl q => S.matching q
    | .inr q => E.matching q

variable {T : Schema} {E : Extension T}

/-- A statement of the old schema as one of the new. -/
def Sql.lift (E : Extension T) : Sql T → Sql (T.extend E)
  | .select t n => .select (S := T.extend E) (.inl t) n
  | .scan q => .scan (S := T.extend E) (.inl q)
  | .update u n => .update (S := T.extend E) (.inl u) n
  | .insert x => .insert (S := T.extend E) (.inl x)
  | .now => .now
  | .commit => .commit
  | .rollback => .rollback

/-- The answer to a lifted statement is one to the statement. -/
def Sql.lower (E : Extension T) : (q : Sql T) → (q.lift E).Resp → q.Resp
  | .select _ _, a => a
  | .scan _, a => a
  | .update _ _, a => a
  | .insert _, a => a
  | .now, a => a
  | .commit, a => a
  | .rollback, a => a

/-- A program of the old schema on the new one. -/
def Tx.lift (E : Extension T) (p : Tx T ε α) : Tx (T.extend E) ε α :=
  @Prog.translate (sql T) (sql (T.extend E)) ε α (Sql.lift E) (Sql.lower E) p

/-- A session of the old schema is one of the new. -/
lemma Tx.lift_withSession (p : Tx T ε α) :
    Tx.lift E (Tx.withSession p) = Tx.withSession (Tx.lift E p) := by
  rw [Tx.withSession, Tx.lift, Prog.translate_tryCatch, Prog.translate_bind]
  rfl

end Txn
