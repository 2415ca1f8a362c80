import AgencyOS.Automation.ControlService
import AgencyOS.Txn.Guarded
import AgencyOS.Txn.Monitor

/-!
Pauses and their audit records.

Whoever changes the switch holds the lock of its row, and commits the three settings of a pause with
it: in every committed state they are there exactly while the switch is off.  The audit record follows
in a transaction of its own, so the state that a change commits is one in which it is not audited.

* `Progress`, `monitor`: what a transaction has written, and what it knows of the settings;
* `complies_program`: the calls obey the monitor;
* `Sound`, `Sound.effect`: the store against the monitors;
* `pausesAudited_iff`: **changes and records agree in every committed state of a run exactly if nothing
  is changed and nothing recorded**.
-/

namespace Automation.Control

open Txn

/-- The switch as `is_enabled` reads it. -/
def reads (row : Option SystemSetting) : Bool := (row.bind fun r => r.value.enabled).getD true

lemma slot_ne {k k' : Key} (h : k ≠ k') : k.slot ≠ k'.slot := by
  cases k <;> cases k' <;> simp [Key.slot] at h ⊢

/-! ### The monitor -/

/-- What a transaction knows of the rows under the keys, once it holds the lock of the switch; whether
it has written an audit record; the id under which the session has seen the switch; and whether an
answer has contradicted this, which never happens. -/
structure Progress where
  known : ℕ → Option (Option SystemSetting)
  logged : Bool
  seen : Option ℕ
  lost : Bool

namespace Progress

def start : Progress := ⟨fun _ => none, false, none, false⟩

/-- The transaction holds the lock of the switch. -/
def holds (g : Progress) : Prop := g.known Key.enabled.slot ≠ none

instance (g : Progress) : Decidable g.holds := inferInstanceAs (Decidable (g.known _ ≠ none))

def knows (g : Progress) (n : ℕ) (row : Option SystemSetting) : Progress :=
  { g with known := Function.update g.known n (some row) }

/-- The answer contradicts what is known. -/
def contradicts (g : Progress) (n : ℕ) (row : Option SystemSetting) : Bool :=
  (g.known n).any (fun e => e ≠ row)
    || decide (n = Key.enabled.slot) && g.seen.any fun id => !row.any fun r => r.id = id

/-- A row that was read. -/
def saw (g : Progress) (n : ℕ) (row : Option SystemSetting) : Progress where
  known := if g.holds then Function.update g.known n (some row) else g.known
  logged := g.logged
  seen := if n = Key.enabled.slot then row.map (·.id) else g.seen
  lost := g.lost || g.contradicts n row

/-- The settings of a pause are known, and there exactly if the switch is off. -/
def settled (g : Progress) : Prop :=
  ∀ e, g.known Key.enabled.slot = some e → ∀ k, k ≠ Key.enabled →
    ∃ row, g.known k.slot = some row ∧ row.isSome = !reads e

/-- The statement may be issued. -/
def admits (g : Progress) (n : ℕ) (w : Write) : Prop :=
  g.logged = false ∧ (n ≠ Key.enabled.slot → g.holds) ∧
    ∀ id, w = .delete id → n ≠ Key.enabled.slot ∧ ∃ x, g.known n = some (some x) ∧ x.id = id

end Progress

/-- A transaction writes the switch before anything else, or an audit record alone; it commits the
switch with the settings of the pause. -/
def monitor : Monitor (sql control) Progress where
  start := .start
  step g x :=
    match x with
    | ⟨.select .systemSetting n, row⟩ => g.saw n row.join
    | ⟨.select .activityLog _, _⟩ => g
    | ⟨.scan _, _⟩ => g
    | ⟨.update w n, row⟩ => if row.isNone && w.unmatched.isSome then g else g.knows n w.result
    | ⟨.insert _, _⟩ => { g with logged := true }
    | ⟨.now, _⟩ => g
    | ⟨.commit, _⟩ => { g with known := fun _ => none, logged := false }
    | ⟨.rollback, _⟩ => { Progress.start with lost := g.lost }
  allows g q := g.lost = true ∨
    match q with
    | .update w n => g.admits n w
    | .insert _ => ¬ g.holds
    | .commit => g.settled
    | _ => True

/-! ### The calls obey the monitor -/

section Complies

variable {α : Type} {g g' : Progress} {s s' : Session} {key : Key}

/-- The program obeys the monitor from the state `g`. -/
abbrev Complies (p : ControlTx α) (g : Progress) : Prop :=
  p.Obeys monitor (fun _ _ => True) g

/-- After a contradiction nothing is asked any more. -/
lemma complies_of_lost (p : ControlTx α) (hlost : g.lost = true) : Complies p g := by
  refine (Prog.obeys_of_issues (M := monitor) (J := fun g => g.lost = true) p.issues_true
    (fun g q _ hg => Or.inl hg) (fun g q a _ hg => ?_) hlost).mono fun _ _ _ => trivial
  cases q with
  | select t n =>
      cases t with
      | systemSetting =>
          show (g.lost || _) = true
          rw [hg, Bool.true_or]
      | activityLog => exact hg
  | scan q => exact q.elim
  | update w n =>
      show (if _ then g else g.knows n w.result).lost = true
      split_ifs
      · exact hg
      · exact hg
  | insert x => exact hg
  | now => exact hg
  | commit => exact hg
  | rollback => exact hg

/-- What the flush would leave. -/
def Progress.flush (g : Progress) (s : Session) : Progress :=
  match s.unflushed with
  | none => g
  | some (key, w) => g.knows key.slot w.result

/-- The change that is not written yet may be written. -/
def Session.Flushable (s : Session) (g : Progress) : Prop :=
  ∀ key w, s.unflushed = some (key, w) → g.admits key.slot w

@[simp] lemma flush_of_clean (hs : s.unflushed = none) : g.flush s = g := by
  rw [Progress.flush, hs]

@[simp] lemma flush_of_write {w : Write} (hs : s.unflushed = some (key, w)) :
    g.flush s = g.knows key.slot w.result := by
  rw [Progress.flush, hs]

lemma flushable_of_clean (hs : s.unflushed = none) : s.Flushable g := by
  intro key w hw
  rw [hs] at hw
  cases hw

@[simp] lemma unflushed_flushed (s : Session) : s.flushed.unflushed = none := by
  unfold Session.flushed
  split <;> rfl

lemma complies_flush {f : Session → ControlTx α} (hs : s.Flushable g)
    (hf : Complies (f s.flushed) (g.flush s)) : Complies ((flush s).bind f) g := by
  cases hw : s.unflushed with
  | none =>
      rw [flush_of_clean hw] at hf
      rw [flush.eq_def, hw]
      exact hf
  | some kw =>
      obtain ⟨key, w⟩ := kw
      rw [flush_of_write hw] at hf
      rw [flush.eq_def, hw]
      refine ⟨Or.inr (hs key w hw), fun row => ?_⟩
      cases row with
      | some r => exact hf
      | none =>
          cases w with
          | insert x => trivial
          | update x => trivial
          | delete id => exact hf

/-- A query: the flush, and any answer. -/
lemma complies_get {f : Option SystemSetting × Session → ControlTx α} (hs : s.Flushable g)
    (hf : ∀ row, Complies (f (s.flushed.load key row)) ((g.flush s).saw key.slot row)) :
    Complies ((get s key).bind f) g := by
  unfold get
  simp only [Prog.bind_eq, Prog.pure_eq, Prog.bind_assoc]
  refine complies_flush hs ⟨Or.inr trivial, fun row => ?_⟩
  exact hf row.join

/-- The object for a row is the one already loaded or the row itself. -/
lemma load_some (s : Session) (key : Key) (r : SystemSetting) :
    ∃ x, x.id = r.id ∧ (s.objects key = some x ∨ (∀ y, s.objects key = some y → y.id ≠ r.id) ∧ x = r)
      ∧ s.load key (some r) = (some x, ⟨Function.update s.objects key (some x), s.unflushed⟩) := by
  cases hobject : (s.objects key).filter fun x => x.id = r.id with
  | none =>
      refine ⟨r, rfl, Or.inr ⟨fun y hy hid => ?_, rfl⟩, by simp [Session.load, hobject]⟩
      rw [hy] at hobject
      simp [Option.filter, hid] at hobject
  | some x =>
      obtain ⟨hx, hid⟩ := Option.filter_eq_some_iff.mp hobject
      exact ⟨x, by simpa using hid, Or.inl hx, by simp [Session.load, hobject]⟩

/-- The transaction has written the switch, as `e`; and it knows of the settings under `keys` whether
they are there. -/
structure Working (e : SystemSetting) (there : Bool) (keys : List Key) (s : Session) (g : Progress) :
    Prop where
  flushable : s.Flushable g
  logged : g.logged = false
  switch : (g.flush s).known Key.enabled.slot = some (some e)
  settled : ∀ k ∈ keys, ∃ row, (g.flush s).known k.slot = some row ∧ row.isSome = there

variable {e : SystemSetting} {there : Bool} {keys : List Key}

@[simp] lemma logged_flush (g : Progress) (s : Session) : (g.flush s).logged = g.logged := by
  unfold Progress.flush
  split <;> rfl

lemma Working.holds (h : Working e there keys s g) : (g.flush s).holds := by
  rw [Progress.holds, h.switch]
  simp

lemma known_knows (g : Progress) (n : ℕ) (row : Option SystemSetting) :
    (g.knows n row).known = Function.update g.known n (some row) := rfl

lemma known_saw (hg : g.holds) (n : ℕ) (row : Option SystemSetting) :
    (g.saw n row).known = Function.update g.known n (some row) := if_pos hg

/-- A read of another setting, and a change of it that is not written yet. -/
lemma Working.change (h : Working e there keys s g) (hkey : key ≠ .enabled)
    {row : Option SystemSetting} {w : Write} (hthere : w.result.isSome = there) (hs' : s'.unflushed = some (key, w))
    (hdelete : ∀ id, w = .delete id → ∃ x, row = some x ∧ x.id = id) :
    Working e there (key :: keys) s' ((g.flush s).saw key.slot row) := by
  have hknown := known_saw h.holds key.slot row
  have hswitch : Key.enabled.slot ≠ key.slot := slot_ne hkey.symm
  have hholds : ((g.flush s).saw key.slot row).holds := by
    rw [Progress.holds, hknown, Function.update_of_ne hswitch, h.switch]
    simp
  constructor
  · intro k w' hw'
    obtain ⟨rfl, rfl⟩ := Prod.mk.inj (Option.some.inj (hs'.symm.trans hw'))
    refine ⟨(logged_flush g s).trans h.logged, fun _ => hholds, fun id hid => ⟨slot_ne hkey, ?_⟩⟩
    obtain ⟨x, rfl, hx⟩ := hdelete id hid
    exact ⟨x, by rw [hknown, Function.update_self], hx⟩
  · exact (logged_flush g s).trans h.logged
  · rw [flush_of_write hs', known_knows, Function.update_of_ne hswitch, hknown,
      Function.update_of_ne hswitch, h.switch]
  · intro k hk
    rw [flush_of_write hs', known_knows]
    by_cases hkk : k = key
    · subst hkk
      exact ⟨w.result, Function.update_self .., hthere⟩
    · rcases List.mem_cons.mp hk with rfl | hk
      · exact absurd rfl hkk
      · rw [Function.update_of_ne (slot_ne hkk), hknown, Function.update_of_ne (slot_ne hkk)]
        exact h.settled k hk

/-- A read of another setting that is left as it is. -/
lemma Working.same (h : Working e there keys s g) (hkey : key ≠ .enabled) {row : Option SystemSetting}
    (hthere : row.isSome = there) (hs' : s'.unflushed = none) :
    Working e there (key :: keys) s' ((g.flush s).saw key.slot row) := by
  have hknown := known_saw h.holds key.slot row
  constructor
  · exact flushable_of_clean hs'
  · exact (logged_flush g s).trans h.logged
  · rw [flush_of_clean hs', hknown, Function.update_of_ne (slot_ne hkey.symm), h.switch]
  · intro k hk
    rw [flush_of_clean hs', hknown]
    by_cases hkk : k = key
    · subst hkk
      exact ⟨row, Function.update_self .., hthere⟩
    · rcases List.mem_cons.mp hk with rfl | hk
      · exact absurd rfl hkk
      · rw [Function.update_of_ne (slot_ne hkk)]
        exact h.settled k hk

variable (uuid4 : Key → ℕ) (value : Value) (user : Option ℕ)

/-- One setting of a pause is written, if it is not there with the value already. -/
lemma complies_setValue {f : SystemSetting × Session → ControlTx α} (h : Working e true keys s g)
    (hkey : key ≠ .enabled)
    (hf : ∀ x s' g', Working e true (key :: keys) s' g' → Complies (f (x, s')) g') :
    Complies ((setValue uuid4 s key value user).bind f) g := by
  unfold setValue
  simp only [Prog.bind_eq, Prog.pure_eq, Prog.bind_assoc]
  refine complies_get h.flushable fun row => ?_
  cases row with
  | none =>
      simp only [Session.load, Prog.ret_bind]
      exact hf _ _ _ (h.change hkey rfl rfl (by simp))
  | some r =>
      obtain ⟨x, hid, -, hload⟩ := load_some s.flushed key r
      simp only [hload, Prog.ret_bind]
      refine hf _ _ _ ?_
      by_cases hsame : { x with value, updatedByUserId := user } = x
      · exact h.same hkey rfl (by simp [Session.assign, hsame])
      · exact h.change hkey (w := .update { x with value, updatedByUserId := user }) rfl
          (by simp [Session.assign, hsame]) (by simp)

/-- One setting of a pause is deleted, if it is there. -/
lemma complies_delete {f : Session → ControlTx α} (h : Working e false keys s g)
    (hkey : key ≠ .enabled) (hf : ∀ s' g', Working e false (key :: keys) s' g' → Complies (f s') g') :
    Complies ((delete s key).bind f) g := by
  unfold delete
  simp only [Prog.bind_eq, Prog.pure_eq, Prog.bind_assoc]
  refine complies_get h.flushable fun row => ?_
  cases row with
  | none =>
      simp only [Session.load, Prog.ret_bind]
      exact hf _ _ (h.same hkey rfl (unflushed_flushed s))
  | some r =>
      obtain ⟨x, hid, -, hload⟩ := load_some s.flushed key r
      simp only [hload, Prog.ret_bind]
      refine hf _ _ (h.change hkey (w := .delete x.id) rfl rfl fun id hw => ?_)
      exact ⟨r, rfl, by rw [← hid]; exact Write.delete.inj hw⟩

/-- The switch is loaded, as `x`: the session has seen its row, or is about to write it. -/
structure Loaded (x : SystemSetting) (s : Session) (g : Progress) : Prop where
  logged : g.logged = false
  object : s.objects .enabled = some x
  written : s.unflushed = none ∧ g.seen = some x.id
    ∨ ∃ w, s.unflushed = some (.enabled, w) ∧ w.result = some x

lemma admits_switch {w : Write} {x : SystemSetting} (hg : g.logged = false) (hw : w.result = some x) :
    g.admits Key.enabled.slot w := by
  refine ⟨hg, fun h => absurd rfl h, fun id hid => ?_⟩
  rw [hid] at hw
  cases hw

lemma flushable_of_switch {w : Write} {x : SystemSetting} (hg : g.logged = false)
    (hs : s.unflushed = some (.enabled, w)) (hw : w.result = some x) : s.Flushable g := by
  intro k w' hw'
  obtain ⟨rfl, rfl⟩ := Prod.mk.inj (Option.some.inj (hs.symm.trans hw'))
  exact admits_switch hg hw

lemma Loaded.flushable {x : SystemSetting} (h : Loaded x s g) : s.Flushable g := by
  rcases h.written with ⟨hclean, -⟩ | ⟨w, hw, hx⟩
  · exact flushable_of_clean hclean
  · exact flushable_of_switch h.logged hw hx

/-- The object of the switch survives the flush. -/
lemma Loaded.flushed {x : SystemSetting} (h : Loaded x s g) : s.flushed.objects .enabled = some x := by
  rcases h.written with ⟨hclean, -⟩ | ⟨w, hw, hx⟩
  · simp [Session.flushed, hclean, h.object]
  · cases w with
    | delete id => cases hx
    | insert y => simp [Session.flushed, hw, h.object]
    | update y => simp [Session.flushed, hw, h.object]

/-- Unless the answer contradicts what is known, it is the row of the object. -/
lemma Loaded.id_eq {x r : SystemSetting} (h : Loaded x s g)
    (hlost : (g.flush s).contradicts Key.enabled.slot (some r) = false) : x.id = r.id := by
  simp only [Progress.contradicts, decide_true, Bool.true_and, Bool.or_eq_false_iff] at hlost
  rcases h.written with ⟨hclean, hseen⟩ | ⟨w, hw, hx⟩
  · rw [flush_of_clean hclean, hseen] at hlost
    have heq : r.id = x.id := by simpa using hlost.2
    exact heq.symm
  · rw [flush_of_write hw, known_knows, Function.update_self, hx] at hlost
    have heq : x = r := by simpa using hlost.1
    rw [heq]

/-- The switch as it is or as it is set. -/
lemma complies_getOrSet {f : SystemSetting × Session → ControlTx α} (hs : s.unflushed = none)
    (hg : g.logged = false) (hf : ∀ x s' g', Loaded x s' g' → Complies (f (x, s')) g') :
    Complies ((getOrSet uuid4 s .enabled value user).bind f) g := by
  unfold getOrSet
  simp only [Prog.bind_eq, Prog.pure_eq, Prog.bind_assoc]
  refine complies_get (flushable_of_clean hs) fun row => ?_
  rw [flush_of_clean hs]
  cases row with
  | some r =>
      obtain ⟨x, hid, -, hload⟩ := load_some s.flushed .enabled r
      simp only [hload, Prog.ret_bind]
      exact hf _ _ _ ⟨hg, by simp, Or.inl ⟨unflushed_flushed s, by simp [Progress.saw, hid]⟩⟩
  | none =>
      simp only [Session.load, setValue, Prog.bind_eq, Prog.pure_eq, Prog.bind_assoc]
      refine complies_get (flushable_of_clean (unflushed_flushed s)) fun row => ?_
      rw [flush_of_clean (unflushed_flushed s)]
      cases row with
      | none =>
          simp only [Session.load, Prog.ret_bind]
          exact hf _ _ _ ⟨hg, by simp [Session.add], Or.inr ⟨_, rfl, rfl⟩⟩
      | some r =>
          obtain ⟨x, hid, -, hload⟩ := load_some s.flushed.flushed .enabled r
          simp only [hload, Prog.ret_bind]
          refine hf _ _ _ ⟨hg, by simp [Session.assign], ?_⟩
          by_cases hsame : { x with value, updatedByUserId := user } = x
          · exact Or.inl ⟨by simp [Session.assign, hsame], by simp [Progress.saw, hid]⟩
          · exact Or.inr ⟨.update { x with value, updatedByUserId := user },
              by simp [Session.assign, hsame], rfl⟩

/-- The switch is set: from here on the transaction holds its lock. -/
lemma complies_setSwitch {f : SystemSetting × Session → ControlTx α} {x : SystemSetting}
    (h : Loaded x s g) (hne : { x with value, updatedByUserId := user } ≠ x)
    (hf : ∀ y e s' g', e.value = value → Working e there [] s' g' → Complies (f (y, s')) g') :
    Complies ((setValue uuid4 s .enabled value user).bind f) g := by
  have hlogged : (g.flush s).logged = false := (logged_flush g s).trans h.logged
  -- whatever the write, the change of the switch is what the flush leaves
  have hworking : ∀ (row : Option SystemSetting) (s' : Session) (w : Write) (e : SystemSetting),
      s'.unflushed = some (.enabled, w) → w.result = some e →
      Working e there [] s' ((g.flush s).saw Key.enabled.slot row) := by
    intro row s' w e hs' hw
    refine ⟨flushable_of_switch hlogged hs' hw, hlogged, ?_, fun k hk => by cases hk⟩
    rw [flush_of_write hs', known_knows, Function.update_self, hw]
  unfold setValue
  simp only [Prog.bind_eq, Prog.pure_eq, Prog.bind_assoc]
  refine complies_get h.flushable fun row => ?_
  cases hlost : (g.flush s).contradicts Key.enabled.slot row with
  | true => exact complies_of_lost _ (by simp [Progress.saw, hlost])
  | false =>
      cases row with
      | none =>
          simp only [Session.load, Prog.ret_bind]
          exact hf _ _ _ _ rfl (hworking none _ _ ⟨uuid4 .enabled, value, user⟩ rfl rfl)
      | some r =>
          obtain ⟨y, hid, hobject, hload⟩ := load_some s.flushed .enabled r
          have hy : y = x := by
            rcases hobject with hy | ⟨hother, -⟩
            · exact Option.some.inj (hy.symm.trans h.flushed)
            · exact absurd (h.id_eq hlost) (hother x h.flushed)
          subst hy
          simp only [hload, Prog.ret_bind]
          refine hf _ { y with value, updatedByUserId := user } _ _ rfl
            (hworking _ _ (.update { y with value, updatedByUserId := user }) _ ?_ rfl)
          simp [Session.assign, hne]

/-- With the settings of the pause known, the transaction may commit. -/
lemma complies_commit {f : Session → ControlTx α} (h : Working e there keys s g)
    (hkeys : ∀ k, k ≠ Key.enabled → k ∈ keys) (hthere : there = !reads (some e))
    (hf : ∀ g', g'.known = (fun _ => none) → g'.logged = false → Complies (f s.flushed) g') :
    Complies ((commit s).bind f) g := by
  unfold commit
  simp only [Prog.bind_eq, Prog.pure_eq, Prog.bind_assoc]
  refine complies_flush h.flushable ⟨Or.inr fun e' he' k hk => ?_, fun _ => hf _ rfl rfl⟩
  obtain rfl := Option.some.inj (h.switch.symm.trans he')
  obtain ⟨row, hrow, hsome⟩ := h.settled k (hkeys k hk)
  exact ⟨row, hrow, hsome.trans hthere⟩

/-- The audit record is committed alone. -/
lemma complies_audit {f : Unit → ControlTx α} {log : ActivityLog} (hg : g.known = fun _ => none)
    (hf : ∀ g', g'.logged = false → Complies (f ()) g') : Complies ((audit log).bind f) g := by
  have hfree : ¬ g.holds := fun hholds => hholds (by rw [hg])
  refine ⟨Or.inr hfree, fun n => ⟨Or.inr fun e he => ?_, fun _ => hf _ rfl⟩⟩
  have hnone : g.known Key.enabled.slot = some e := he
  rw [hg] at hnone
  cases hnone

lemma unflushed_load (s : Session) (key : Key) (row : Option SystemSetting) :
    (s.load key row).2.unflushed = s.unflushed := by
  cases row <;> rfl

/-- `get_status` commits nothing. -/
lemma complies_getStatus (hs : s.unflushed = none) (hg : g.logged = false) :
    Complies (getStatus uuid4 s) g := by
  have hclean : ∀ (s : Session) (key : Key) (row : Option SystemSetting) (g : Progress),
      (s.flushed.load key row).2.Flushable g := fun s key row g =>
    flushable_of_clean ((unflushed_load _ key row).trans (unflushed_flushed s))
  unfold getStatus
  simp only [Prog.bind_eq, Prog.pure_eq]
  refine complies_getOrSet uuid4 _ _ hs hg fun x s' g' h => ?_
  refine complies_get h.flushable fun row => ?_
  refine complies_get (hclean _ _ row _) fun row' => ?_
  exact complies_get (hclean _ _ row' _) fun _ => trivial

/-- A change of the switch is one of its object. -/
lemma ne_of_enabled {x : SystemSetting} {b d : Bool} (h : x.value.enabled.getD d = !b) :
    { x with value := { enabled := some b }, updatedByUserId := user } ≠ x := by
  intro heq
  rw [← heq] at h
  cases b <;> simp at h

/-- **A pause** obeys the monitor. -/
lemma complies_pause (userId : ℕ) (reason : String) (organizationId : ℕ) :
    Complies (pause uuid4 userId reason organizationId) .start := by
  unfold pause
  simp only [Prog.bind_eq, Prog.throw_eq]
  refine complies_getOrSet uuid4 _ _ rfl rfl fun x s g h => ?_
  split_ifs with henabled
  · trivial
  · have hx : x.value.enabled.getD true = !false := by simpa using henabled
    refine complies_setSwitch uuid4 _ _ h (ne_of_enabled _ hx)
      fun _ e s g he (h : Working e true [] s g) => ?_
    refine complies_setValue uuid4 _ _ h (by simp) fun _ s g h => ⟨Or.inr trivial, fun now => ?_⟩
    refine complies_setValue uuid4 _ _ h (by simp) fun _ s g h => ?_
    refine complies_setValue uuid4 _ _ h (by simp) fun _ s g h => ?_
    refine complies_commit h (fun k hk => ?_) (by simp [reads, he]) fun g hknown hlogged => ?_
    · cases k <;> simp at hk ⊢
    · refine complies_audit hknown fun g hlogged => ?_
      exact complies_getStatus uuid4 (unflushed_flushed s) hlogged

/-- **A resume** obeys the monitor. -/
lemma complies_resume (userId organizationId : ℕ) :
    Complies (resume uuid4 userId organizationId) .start := by
  unfold resume
  simp only [Prog.bind_eq, Prog.throw_eq]
  refine complies_getOrSet uuid4 _ _ rfl rfl fun x s g h => ?_
  split_ifs with henabled
  · trivial
  · have hx : x.value.enabled.getD false = !true := by simpa using henabled
    refine complies_setSwitch uuid4 _ _ h (ne_of_enabled _ hx)
      fun _ e s g he (h : Working e false [] s g) => ?_
    refine complies_delete h (by simp) fun s g h => ?_
    refine complies_delete h (by simp) fun s g h => ?_
    refine complies_delete h (by simp) fun s g h => ?_
    refine complies_commit h (fun k hk => ?_) (by simp [reads, he]) fun g hknown hlogged => ?_
    · cases k <;> simp at hk ⊢
    · refine complies_audit hknown fun g hlogged => ?_
      exact complies_getStatus uuid4 (unflushed_flushed s) hlogged

/-- **Every call** obeys the monitor. -/
lemma complies_program (op : Operation) : Complies op.program .start := by
  have hbody : Complies op.body .start := by
    cases op with
    | getStatus uuid4 => exact complies_getStatus uuid4 rfl rfl
    | pause uuid4 userId reason organizationId => exact complies_pause uuid4 _ _ _
    | resume uuid4 userId organizationId => exact complies_resume uuid4 _ _
  refine Prog.Obeys.tryCatch (Q := fun _ _ => True) (hbody.bind (fun g a _ => ?_) fun _ _ _ => trivial)
    (fun _ _ _ => trivial) fun g e _ => ⟨Or.inr trivial, fun _ => trivial⟩
  exact ⟨Or.inr trivial, fun _ => trivial⟩

end Complies

/-! ### The store against the monitors -/

section Sound

/-- The tables. -/
abbrev settingsTable : control.Table := .systemSetting

abbrev logsTable : control.Table := .activityLog

variable {ι : Type} [DecidableEq ι] {i j : ι}

/-- The row that session `i` sees under a key. -/
def seeing (s : ControlStore ι) (i : ι) (n : ℕ) : Option SystemSetting :=
  (s.view i settingsTable n).join

/-- The committed row under a key. -/
def setting (s : ControlStore ι) (key : Key) : Option SystemSetting :=
  (s.committed settingsTable key.slot).join

/-- The settings of a pause are there exactly while the switch is off. -/
def Paired (s : ControlStore ι) : Prop :=
  ∀ key, key ≠ Key.enabled → (setting s key).isSome = !reads (setting s .enabled)

/-- What the monitor of session `i` says holds of the store. -/
structure Follows (g : Progress) (i : ι) (s : ControlStore ι) : Prop where
  idle : ¬ g.holds → (∀ n, g.known n = none) ∧ ∀ n row, s.dirty settingsTable n ≠ some (i, row)
  held : g.holds → ∃ row, s.dirty settingsTable Key.enabled.slot = some (i, row)
  known : ∀ n row, g.known n = some row → seeing s i n = row
  seen : ∀ id, g.seen = some id → ∃ x, seeing s i Key.enabled.slot = some x ∧ x.id = id
  found : g.lost = false
  logs : ∀ n log, s.dirty logsTable n = some (i, log) → g.logged = true
  apart : g.logged = true → ¬ g.holds

/-- The store against the monitors of its sessions. -/
structure Sound (g : ι → Progress) (s : ControlStore ι) : Prop where
  follows : ∀ i, Follows (g i) i s
  sameId : ∀ i x row, setting s .enabled = some x →
    s.dirty settingsTable Key.enabled.slot = some (i, row) → ∃ x', row = some x' ∧ x'.id = x.id
  new : ∀ i n log, s.dirty logsTable n = some (i, log) → s.committed logsTable n = none
  paired : Paired s

variable {g : ι → Progress} {s : ControlStore ι} {q : Sql control}

/-- The row of the switch guards the settings. -/
abbrev switchGuard : Guardian control := ⟨settingsTable, Key.enabled.slot, fun _ _ => true⟩

/-- **The settings are written only under the lock of the switch.** -/
lemma Sound.covered (h : Sound g s) : Covered switchGuard (fun t _ => t = settingsTable) s := by
  rintro t n j row hd rfl
  by_cases hholds : (g j).holds
  · exact (h.follows j).held hholds
  · exact absurd hd (((h.follows j).idle hholds).2 n row)

lemma seeing_of_not_dirty {n : ℕ} (h : ∀ row, s.dirty settingsTable n ≠ some (i, row)) :
    seeing s i n = (s.committed settingsTable n).join := by
  rw [seeing, Db.view_of_not_own h]

/-- A statement of another session leaves what the monitor says. -/
lemma Sound.other (h : Sound g s) (hij : i ≠ j) (q : Sql control) :
    Follows (g j) j (Db.effect i q s) := by
  have hf := h.follows j
  have hframe : Frame j s (Db.effect i q s) := frame_effect hij q s
  have hsame : (g j).holds → ∀ n, seeing (Db.effect i q s) j n = seeing s j n := fun hholds n => by
    rw [seeing, (h.covered.view_eq (hf.held hholds) hij q rfl).1, seeing]
  constructor
  · intro hholds
    obtain ⟨hknown, hdirty⟩ := hf.idle hholds
    exact ⟨hknown, fun n row hd => hdirty n row ((hframe.dirty _ n row).mp hd)⟩
  · intro hholds
    obtain ⟨row, hrow⟩ := hf.held hholds
    exact ⟨row, (hframe.dirty _ _ row).mpr hrow⟩
  · intro n row hrow
    by_cases hholds : (g j).holds
    · rw [hsame hholds]
      exact hf.known n row hrow
    · rw [(hf.idle hholds).1 n] at hrow
      cases hrow
  · intro id hid
    obtain ⟨x, hx, hxid⟩ := hf.seen id hid
    by_cases hholds : (g j).holds
    · exact ⟨x, (hsame hholds _).trans hx, hxid⟩
    · -- the row it sees is the committed one, and a commit keeps its id
      have hdirty := (hf.idle hholds).2 Key.enabled.slot
      have hx' : setting s .enabled = some x := (seeing_of_not_dirty hdirty).symm.trans hx
      have hview : seeing (Db.effect i q s) j Key.enabled.slot
          = ((Db.effect i q s).committed settingsTable Key.enabled.slot).join :=
        seeing_of_not_dirty fun row hd => hdirty row ((hframe.dirty _ _ row).mp hd)
      rw [hview]
      rcases Db.committed_effect_cases i q s settingsTable Key.enabled.slot with
        hcom | ⟨-, row, hd, hcom⟩
      · exact ⟨x, by rw [hcom]; exact hx', hxid⟩
      · obtain ⟨x', rfl, hid'⟩ := h.sameId i x row hx' hd
        exact ⟨x', by rw [hcom]; rfl, hid'.trans hxid⟩
  · exact hf.found
  · exact fun n log hd => hf.logs n log ((hframe.dirty _ n log).mp hd)
  · exact hf.apart

lemma known_of_step {g : Progress} {n m : ℕ} {row : Option SystemSetting} {e : Option SystemSetting}
    (h : (g.knows n row).known m = some e) : m = n ∧ e = row ∨ m ≠ n ∧ g.known m = some e := by
  rw [known_knows] at h
  by_cases hm : m = n
  · subst hm
    rw [Function.update_self] at h
    exact Or.inl ⟨rfl, (Option.some.inj h).symm⟩
  · rw [Function.update_of_ne hm] at h
    exact Or.inr ⟨hm, h⟩

lemma holds_saw (g : Progress) (n : ℕ) (row : Option SystemSetting) :
    (g.saw n row).holds ↔ g.holds := by
  by_cases hholds : g.holds
  · refine iff_of_true ?_ hholds
    rw [Progress.holds, known_saw hholds]
    by_cases hn : Key.enabled.slot = n
    · rw [hn, Function.update_self]
      simp
    · rwa [Function.update_of_ne hn]
  · rw [Progress.holds, Progress.saw, if_neg hholds]
    rfl

/-- A read says what is seen. -/
lemma Follows.saw {g : Progress} (h : Follows g i s) (n : ℕ) :
    Follows (g.saw n (seeing s i n)) i s := by
  constructor
  · intro hholds
    rw [holds_saw] at hholds
    rw [Progress.saw, if_neg hholds]
    exact h.idle hholds
  · exact fun hholds => h.held ((holds_saw ..).mp hholds)
  · intro m row hrow
    by_cases hholds : g.holds
    · rw [known_saw hholds] at hrow
      by_cases hm : m = n
      · subst hm
        rw [Function.update_self] at hrow
        exact Option.some.inj hrow
      · rw [Function.update_of_ne hm] at hrow
        exact h.known m row hrow
    · rw [Progress.saw, if_neg hholds] at hrow
      exact h.known m row hrow
  · intro id hid
    by_cases hn : n = Key.enabled.slot
    · subst hn
      rw [Progress.saw, if_pos rfl] at hid
      exact Option.map_eq_some_iff.mp hid
    · rw [Progress.saw, if_neg hn] at hid
      exact h.seen id hid
  · -- what is known is what is seen, so no answer contradicts it
    have hknown : (g.known n).any (fun e => e ≠ seeing s i n) = false := by
      cases hk : g.known n with
      | none => rfl
      | some e => simp [h.known n e hk]
    rw [Progress.saw, h.found, Bool.false_or, Progress.contradicts, hknown, Bool.false_or]
    by_cases hn : n = Key.enabled.slot
    · subst hn
      cases hs : g.seen with
      | none => rfl
      | some id =>
          obtain ⟨x, hx, hid⟩ := h.seen id hs
          simp [hx, hid]
    · simp [hn]
  · exact h.logs
  · exact fun hlogged hholds => h.apart hlogged ((holds_saw ..).mp hholds)

lemma settings_ne_logs : settingsTable ≠ logsTable := by decide

omit [DecidableEq ι] in
lemma logs_write (n m : ℕ) (row : control.Row settingsTable) :
    (s.write i settingsTable n row).dirty logsTable m = s.dirty logsTable m := by
  unfold Db.write
  dsimp only
  exact put_of_ne_table _ _ _ _ settings_ne_logs.symm

omit [DecidableEq ι] in
lemma settings_insert (n m : ℕ) (log : control.Row logsTable) :
    (s.write i logsTable n log).dirty settingsTable m = s.dirty settingsTable m := by
  unfold Db.write
  dsimp only
  exact put_of_ne_table _ _ _ _ settings_ne_logs

lemma seeing_write {n m : ℕ} {row : Option SystemSetting} :
    seeing (s.write i settingsTable n row) i m = if m = n then row else seeing s i m := by
  rw [seeing, Db.view_write]
  split_ifs with hm
  · subst hm
    rw [Function.update_self]
    rfl
  · rw [Function.update_of_ne hm]
    rfl

/-- The session of the monitor writes under a key. -/
lemma Follows.write {g : Progress} {n : ℕ} {w : Write} {r : Option SystemSetting} (h : Follows g i s)
    (hadmits : g.admits n w) (hr : s.view i settingsTable n = some r) (hfinds : w.finds r = true) :
    Follows (g.knows n w.result) i (s.write i settingsTable n w.result) := by
  have hdirty : ∀ m row, m ≠ n → ((s.write i settingsTable n w.result).dirty settingsTable m
      = some (i, row) ↔ s.dirty settingsTable m = some (i, row)) := fun m row hm => by
    rw [Db.dirty_write, put_of_ne_id _ _ _ hm]
  have hholds : (g.knows n w.result).holds := by
    rw [Progress.holds, known_knows]
    by_cases hn : Key.enabled.slot = n
    · rw [hn, Function.update_self]
      simp
    · rw [Function.update_of_ne hn]
      exact hadmits.2.1 fun heq => hn heq.symm
  constructor
  · exact fun hnot => absurd hholds hnot
  · intro _
    by_cases hn : Key.enabled.slot = n
    · exact ⟨w.result, by rw [hn, Db.dirty_write, put_self]⟩
    · obtain ⟨row, hrow⟩ := h.held (hadmits.2.1 fun heq => hn heq.symm)
      exact ⟨row, (hdirty _ row hn).mpr hrow⟩
  · intro m row hrow
    rw [seeing_write]
    rcases known_of_step hrow with ⟨rfl, rfl⟩ | ⟨hm, hrow⟩
    · rw [if_pos rfl]
    · rw [if_neg hm]
      exact h.known m row hrow
  · intro id hid
    obtain ⟨x, hx, hxid⟩ := h.seen id hid
    rw [seeing_write]
    split_ifs with hn
    · -- the row of the switch is rewritten under its id
      rw [hn, seeing, hr] at hx
      obtain rfl : r = some x := hx
      cases w with
      | insert y => cases hfinds
      | update y =>
          have hy : x.id = y.id := by simpa [Write.finds] using hfinds
          exact ⟨y, rfl, hy.symm.trans hxid⟩
      | delete id => exact absurd hn.symm (hadmits.2.2 id rfl).1
    · exact ⟨x, hx, hxid⟩
  · exact h.found
  · intro m log hd
    rw [logs_write] at hd
    exact h.logs m log hd
  · intro hlogged
    have hfalse : g.logged = true := hlogged
    rw [hadmits.1] at hfalse
    cases hfalse

/-- A `DELETE` that finds no row was not admitted. -/
lemma Sound.not_unmatched (h : Sound g s) {n : ℕ} {id : ℕ} (hadmits : (g i).admits n (.delete id))
    (hnone : s.written i (.delete id) n = none) : False := by
  obtain ⟨hn, x, hx, rfl⟩ := hadmits.2.2 id rfl
  have hsee := (h.follows i).known n _ hx
  obtain ⟨r, hview⟩ : ∃ r, s.view i settingsTable n = some r := by
    cases hv : s.view i settingsTable n with
    | none =>
        rw [seeing, hv] at hsee
        cases hsee
    | some r => exact ⟨r, rfl⟩
  obtain rfl : r = some x := by
    rw [seeing, hview] at hsee
    exact hsee
  have hfree : s.heldByOther i settingsTable n = false := by
    by_contra hheld
    obtain ⟨j, row, hj, hd⟩ := Db.heldByOther_eq_true.mp (by simpa using hheld)
    exact hj ((h.covered _ n j row hd rfl).unique ((h.follows i).held (hadmits.2.1 hn)))
  have hwritten : s.written i (.delete x.id) n = some (none : Option SystemSetting) :=
    Db.written_eq_some.mpr ⟨hfree, some x, hview, by simp [Write.finds], rfl⟩
  rw [hwritten] at hnone
  cases hnone

/-- The state of the monitor of session `i` after a statement. -/
abbrev next (g : ι → Progress) (i : ι) (q : Sql control) (s : ControlStore ι) : Progress :=
  monitor.step (g i) ⟨q, Db.answer i q s⟩

/-- The end of a transaction leaves nothing of it. -/
lemma follows_released {g : Progress} {s' : ControlStore ι} (hdirty : s'.dirty = s.release i)
    (hknown : ∀ n, g.known n = none) (hlogged : g.logged = false) (hlost : g.lost = false)
    (hseen : ∀ id, g.seen = some id → ∃ x, seeing s' i Key.enabled.slot = some x ∧ x.id = id) :
    Follows g i s' := by
  have hnone : ∀ (t : control.Table) n row, s'.dirty t n ≠ some (i, row) := fun t n row hd => by
    rw [hdirty] at hd
    exact (Db.release_eq_some.mp hd).1 rfl
  constructor
  · exact fun _ => ⟨hknown, hnone settingsTable⟩
  · exact fun hholds => absurd (hknown _) hholds
  · intro n row hrow
    rw [hknown] at hrow
    cases hrow
  · exact hseen
  · exact hlost
  · exact fun n log hd => absurd hd (hnone logsTable n log)
  · intro hlog
    rw [hlogged] at hlog
    cases hlog

/-- A statement that the monitor allows leaves what the monitor then says. -/
lemma Sound.own (h : Sound g s) (hallow : monitor.allows (g i) q) :
    Follows (next g i q s) i (Db.effect i q s) := by
  have hf := h.follows i
  have hallow' := hallow.resolve_left (by simp [hf.found])
  cases q with
  | select t n =>
      cases t with
      | systemSetting => exact hf.saw n
      | activityLog => exact hf
  | scan q => exact q.elim
  | now => exact ⟨hf.idle, hf.held, hf.known, hf.seen, hf.found, hf.logs, hf.apart⟩
  | commit =>
      refine follows_released rfl (fun _ => rfl) rfl hf.found fun id hid => ?_
      obtain ⟨x, hx, hxid⟩ := hf.seen id hid
      exact ⟨x, by rw [seeing, Db.effect, Db.view_commit]; exact hx, hxid⟩
  | rollback => exact follows_released rfl (fun _ => rfl) rfl hf.found fun id hid => by cases hid
  | update w n =>
      cases hw : s.written i w n with
      | some r =>
          obtain ⟨-, r₀, hview, hfinds, rfl⟩ := Db.written_eq_some.mp hw
          rw [Db.effect_update hw]
          have hnext : next g i (.update w n) s = (g i).knows n w.result := by
            simp [next, monitor, Db.answer, hw]
          rw [hnext]
          exact hf.write hallow' hview hfinds
      | none =>
          rw [Db.effect_update_of_none hw]
          cases w with
          | delete id => exact (h.not_unmatched hallow' hw).elim
          | insert x =>
              have hnext : next g i (.update (.insert x) n) s = g i := by
                simp [next, monitor, Db.answer, hw, Write.unmatched]
              rw [hnext]
              exact hf
          | update x =>
              have hnext : next g i (.update (.update x) n) s = g i := by
                simp [next, monitor, Db.answer, hw, Write.unmatched]
              rw [hnext]
              exact hf
  | insert log =>
      have hsettings : ∀ n, (Db.effect i (.insert log) s).dirty settingsTable n
          = s.dirty settingsTable n := fun n => settings_insert s.fresh n log
      have hsee : ∀ n, seeing (Db.effect i (.insert log) s) i n = seeing s i n := fun n => by
        rw [seeing, Db.view, hsettings]
        rfl
      constructor
      · intro hholds
        obtain ⟨hknown, hdirty⟩ := hf.idle hholds
        exact ⟨hknown, fun n row hd => hdirty n row (hsettings n ▸ hd)⟩
      · exact fun hholds => absurd hholds hallow'
      · intro n row hrow
        rw [hsee]
        exact hf.known n row hrow
      · intro id hid
        rw [hsee]
        exact hf.seen id hid
      · exact hf.found
      · exact fun _ _ _ => rfl
      · exact fun _ => hallow'

/-- A session that does not hold the lock of the switch commits no setting. -/
lemma Sound.setting_idle (h : Sound g s) (hholds : ¬ (g i).holds) (key : Key) :
    setting (s.commit i) key = setting s key := by
  rw [setting, Db.committed_commit, Db.view_of_not_own (((h.follows i).idle hholds).2 key.slot)]
  rfl

/-- A session commits of the settings what it sees. -/
lemma setting_commit (s : ControlStore ι) (key : Key) :
    setting (s.commit i) key = seeing s i key.slot := rfl

/-- **The settings of a pause are committed with the switch.** -/
lemma Sound.paired_commit (h : Sound g s) (hsettled : (g i).settled) : Paired (s.commit i) := by
  by_cases hholds : (g i).holds
  · obtain ⟨e, he⟩ := Option.ne_none_iff_exists'.mp hholds
    intro key hkey
    obtain ⟨row, hrow, hsome⟩ := hsettled e he key hkey
    rw [setting_commit, setting_commit, (h.follows i).known _ _ hrow, (h.follows i).known _ _ he]
    exact hsome
  · intro key hkey
    rw [h.setting_idle hholds, h.setting_idle hholds]
    exact h.paired key hkey

omit [DecidableEq ι] in
lemma setting_of_committed {s' : ControlStore ι} (h : s'.committed = s.committed) (key : Key) :
    setting s' key = setting s key := by
  rw [setting, h, setting]

/-- What is uncommitted after a statement was uncommitted before or has just been written, and in the
first case the committed row is as it was. -/
lemma committed_of_dirty {t : control.Table} {n : ℕ} {row : control.Row t}
    (hd : s.dirty t n = some (j, row)) (hj : q = .commit ∨ q = .rollback → j ≠ i) :
    (Db.effect i q s).committed t n = s.committed t n := by
  rcases Db.committed_effect_cases i q s t n with hsame | ⟨rfl, r, hd', -⟩
  · exact hsame
  · rw [hd] at hd'
    exact absurd (Prod.mk.inj (Option.some.inj hd')).1 (hj (Or.inl rfl))

/-- The row of the switch keeps its id. -/
lemma Sound.sameId_effect (h : Sound g s)
    (hadmits : ∀ w n, q = .update w n → (g i).admits n w) (x : SystemSetting)
    (row : Option SystemSetting)
    (hx : setting (Db.effect i q s) .enabled = some x)
    (hd : (Db.effect i q s).dirty settingsTable Key.enabled.slot = some (j, row)) :
    ∃ x', row = some x' ∧ x'.id = x.id := by
  rcases Db.dirty_effect_cases hd with
    ⟨hold, hj⟩ | ⟨rfl, ⟨w, r, rfl, hview, hfinds, heq⟩ | ⟨log, -, -, heq⟩⟩
  · rw [setting, committed_of_dirty hold hj] at hx
    exact h.sameId j x row hx hold
  · rw [setting_of_committed (Db.committed_effect (by simp))] at hx
    cases heq
    obtain ⟨y, rfl, hid⟩ : ∃ y, r = some y ∧ y.id = x.id := by
      rcases s.view_cases j settingsTable Key.enabled.slot with ⟨r', hd', hv⟩ | ⟨-, hv⟩
      · obtain rfl := Option.some.inj (hview.symm.trans hv)
        exact h.sameId j x r hx hd'
      · rw [setting, ← hv, hview] at hx
        exact ⟨x, hx, rfl⟩
    cases w with
    | insert z => cases hfinds
    | update z =>
        have hz : y.id = z.id := by simpa [Write.finds] using hfinds
        exact ⟨z, rfl, hz.symm.trans hid⟩
    | delete id => exact absurd rfl ((hadmits _ _ rfl).2.2 id rfl).1
  · cases heq

/-- An uncommitted audit record is a new one. -/
lemma Sound.new_effect (h : Sound g s) (n : ℕ) (log : ActivityLog)
    (hd : (Db.effect i q s).dirty logsTable n = some (j, log)) :
    (Db.effect i q s).committed logsTable n = none := by
  rcases Db.dirty_effect_cases hd with
    ⟨hold, hj⟩ | ⟨-, ⟨w, r, -, -, -, heq⟩ | ⟨x, rfl, rfl, -⟩⟩
  · rw [committed_of_dirty hold hj]
    exact h.new j n log hold
  · cases heq
  · rw [Db.committed_effect (by simp)]
    exact (s.alloc logsTable s.fresh le_rfl).1

/-- **The invariant** is kept by every statement that the monitor allows. -/
theorem Sound.effect (h : Sound g s) (hallow : monitor.allows (g i) q) :
    Sound (Function.update g i (next g i q s)) (Db.effect i q s) := by
  have hallow' := hallow.resolve_left (by simp [(h.follows i).found])
  constructor
  · intro j
    by_cases hij : j = i
    · subst hij
      rw [Function.update_self]
      exact h.own hallow
    · rw [Function.update_of_ne hij]
      exact h.other (fun heq => hij heq.symm) q
  · refine fun j x row => h.sameId_effect (fun w n hq => ?_) x row
    subst hq
    exact hallow'
  · exact fun j n log => h.new_effect n log
  · by_cases hq : q = .commit
    · subst hq
      exact h.paired_commit hallow'
    · intro key hkey
      rw [setting_of_committed (Db.committed_effect hq), setting_of_committed (Db.committed_effect hq)]
      exact h.paired key hkey

end Sound

/-! ### Changes and records -/

section Runs

variable {ι : Type} [DecidableEq ι]

/-- What a statement changes of the switch, as the record that it calls for. -/
def changed (ev : Event (sql control) ι (ControlStore ι)) : List ActivityEventType :=
  if reads (setting ev.before .enabled) = reads (setting ev.after .enabled) then []
  else if reads (setting ev.after .enabled) then [.automationResumed] else [.automationPaused]

/-- The audit records that a statement commits. -/
def recorded (ev : Event (sql control) ι (ControlStore ι)) : List ActivityEventType :=
  (List.range ev.after.fresh).filterMap fun n =>
    if (ev.before.committed logsTable n).isSome then none
    else (ev.after.committed logsTable n).map (·.eventType)

/-- In every committed state the settings of a pause go with the switch, and the committed changes of
the switch are recorded: each once, in their order, and nothing else. -/
structure PausesAudited (tr : List (Event (sql control) ι (ControlStore ι))) : Prop where
  paired : ∀ ev ∈ tr, Paired ev.after
  audited : ∀ past, past <+: tr → past.flatMap recorded = past.flatMap changed

/-- The statement does not commit a transaction that has moved the switch or holds an audit record. -/
def Spared (ev : Event (sql control) ι (ControlStore ι)) : Prop :=
  ev.stmt = .commit →
    reads (seeing ev.before ev.pid Key.enabled.slot) = reads (setting ev.before .enabled)
      ∧ ∀ n log, ev.before.dirty logsTable n ≠ some (ev.pid, log)

/-- Where the calls start: every key has its place, nothing is uncommitted, and the settings of a pause
go with the switch. -/
structure Standing (ι : Type) where
  store : ControlStore ι
  settled : store.Settled
  places : ∀ key : Key, store.committed settingsTable key.slot ≠ none
  paired : Paired store

variable {ev : Event (sql control) ι (ControlStore ι)} {g : ι → Progress}

omit [DecidableEq ι] in
lemma changed_eq_nil :
    changed ev = [] ↔ reads (setting ev.before .enabled) = reads (setting ev.after .enabled) := by
  unfold changed
  split_ifs <;> simp_all

omit [DecidableEq ι] in
lemma recorded_eq_nil :
    recorded ev = [] ↔ ∀ n, ev.before.committed logsTable n = none →
      ev.after.committed logsTable n = none := by
  unfold recorded
  simp only [List.filterMap_eq_nil_iff, List.mem_range]
  constructor
  · intro h n hbefore
    cases hafter : ev.after.committed logsTable n with
    | none => rfl
    | some log =>
        have hn := h n (Db.lt_fresh_of_committed hafter)
        simp [hbefore, hafter] at hn
  · intro h n _
    cases hbefore : ev.before.committed logsTable n with
    | some log => simp
    | none => simp [h n hbefore]

/-- What a commit of session `i` records, it holds uncommitted. -/
lemma Sound.recorded_commit {i : ι} {s : ControlStore ι} (h : Sound g s) :
    recorded ⟨i, .commit, s, s.commit i⟩ = [] ↔ ∀ n log, s.dirty logsTable n ≠ some (i, log) := by
  rw [recorded_eq_nil]
  constructor
  · intro hnone n log hd
    have hc := hnone n (h.new i n log hd)
    rw [Db.committed_commit, Db.view_of_own hd] at hc
    cases hc
  · intro hnone n hbefore
    rw [Db.committed_commit, Db.view_of_not_own (hnone n)]
    exact hbefore

/-- **A statement is spared exactly if it changes nothing and records nothing.** -/
lemma Sound.spared_iff {i : ι} {q : Sql control} {s : ControlStore ι} (h : Sound g s) :
    Spared ⟨i, q, s, Db.effect i q s⟩ ↔ changed ⟨i, q, s, Db.effect i q s⟩ = []
      ∧ recorded ⟨i, q, s, Db.effect i q s⟩ = [] := by
  by_cases hq : q = .commit
  · subst hq
    have hmoved : reads (seeing s i Key.enabled.slot) = reads (setting s .enabled) ↔
        changed ⟨i, .commit, s, Db.effect i .commit s⟩ = [] := by
      rw [changed_eq_nil]
      exact eq_comm
    exact ⟨fun hs => ⟨hmoved.mp (hs rfl).1, h.recorded_commit.mpr (hs rfl).2⟩,
      fun hnil _ => ⟨hmoved.mpr hnil.1, h.recorded_commit.mp hnil.2⟩⟩
  · have hsame := Db.committed_effect (i := i) (s := s) hq
    refine iff_of_true (fun hc => absurd hc hq) ⟨changed_eq_nil.mpr ?_, recorded_eq_nil.mpr ?_⟩
    · show reads (setting s .enabled) = reads (setting (Db.effect i q s) .enabled)
      rw [setting_of_committed hsame]
    · intro n hbefore
      show (Db.effect i q s).committed logsTable n = none
      rw [hsame]
      exact hbefore

/-- No statement both moves the switch and records something. -/
lemma Sound.changed_or_recorded {i : ι} {q : Sql control} {s : ControlStore ι} (h : Sound g s) :
    recorded ⟨i, q, s, Db.effect i q s⟩ = [] ∨ changed ⟨i, q, s, Db.effect i q s⟩ = [] := by
  by_cases hq : q = .commit
  · subst hq
    by_cases hholds : (g i).holds
    · refine Or.inl (h.recorded_commit.mpr fun n log hd => ?_)
      exact (h.follows i).apart ((h.follows i).logs n log hd) hholds
    · refine Or.inr (changed_eq_nil.mpr ?_)
      show reads (setting s .enabled) = reads (setting (s.commit i) .enabled)
      rw [h.setting_idle hholds]
  · exact Or.inl (h.spared_iff.mp fun hc => absurd hc hq).2

/-- Two lists that a trace gives agree at every point of it, if no event gives to both, exactly when
neither gets anything. -/
lemma flatMap_eq_iff {α β : Type} {f f' : α → List β} {l : List α}
    (h : ∀ x ∈ l, f x = [] ∨ f' x = []) :
    (∀ past, past <+: l → past.flatMap f = past.flatMap f') ↔ ∀ x ∈ l, f' x = [] ∧ f x = [] := by
  constructor
  · induction l using List.reverseRecOn with
    | nil =>
        intro _ x hx
        cases hx
    | append_singleton l x ih =>
        intro hpast
        have hl := ih (fun y hy => h y (List.mem_append_left _ hy)) fun past hp =>
          hpast past (hp.trans (List.prefix_append _ _))
        have hnil : l.flatMap f = [] := List.flatMap_eq_nil_iff.mpr fun y hy => (hl y hy).2
        have hnil' : l.flatMap f' = [] := List.flatMap_eq_nil_iff.mpr fun y hy => (hl y hy).1
        have hx : f x = f' x := by
          have hall := hpast _ List.prefix_rfl
          rw [List.flatMap_append, List.flatMap_append, hnil, hnil'] at hall
          simpa using hall
        intro y hy
        rcases List.mem_append.mp hy with hold | hnew
        · exact hl y hold
        · obtain rfl := List.mem_singleton.mp hnew
          rcases h y hy with hf | hf'
          · exact ⟨hx ▸ hf, hf⟩
          · exact ⟨hf', hx.trans hf'⟩
  · intro hall past hp
    rw [List.flatMap_eq_nil_iff.mpr fun y hy => (hall y (hp.subset hy)).1,
      List.flatMap_eq_nil_iff.mpr fun y hy => (hall y (hp.subset hy)).2]

lemma Standing.sound (w : Standing ι) : Sound (fun _ : ι => monitor.start) w.store := by
  have hnone : ∀ (t : control.Table) n i row, w.store.dirty t n ≠ some (i, row) := by
    intro t n i row hd
    rw [w.settled t n] at hd
    cases hd
  refine ⟨fun i => ?_, fun i x row _ hd => absurd hd (hnone _ _ _ _),
    fun i n log hd => absurd hd (hnone _ _ _ _), w.paired⟩
  constructor
  · exact fun _ => ⟨fun _ => rfl, fun n row => hnone _ _ _ _⟩
  · exact fun hholds => absurd rfl hholds
  · intro n row hrow
    cases hrow
  · intro id hid
    cases hid
  · rfl
  · exact fun n log hd => absurd hd (hnone _ _ _ _)
  · exact fun hlogged => by cases hlogged

variable {c : Pool (sql control) ι (ControlStore ι) Exn Status}

/-- The invariant at every event of every run. -/
lemma sound_of_reach (w : Standing ι) (ops : ι → Operation)
    (h : Pool.Reach (server control ι) (.start (fun i => (ops i).program) w.store) c) :
    ∀ ev ∈ c.trace, ∃ g, Sound g ev.before ∧ Paired ev.after
      ∧ ev.after = Db.effect ev.pid ev.stmt ev.before := by
  have hall := (h.monitored (M := monitor) (C := fun _ => True) (I := Sound)
    (fun i => complies_program (ops i)) (fun _ => Or.inr trivial) w.sound
    (fun g i q s hI hallow _ _ => hI.effect hallow) fun _ _ => trivial).2
  intro ev hev
  obtain ⟨g, hI, hallow, -, hafter⟩ := hall ev hev
  exact ⟨g, hI, hafter ▸ (hI.effect hallow).paired, hafter⟩

/-- **The settings of a pause are there exactly while the switch is off**, in every committed state of
every run. -/
theorem paired_of_reach (w : Standing ι) (ops : ι → Operation)
    (h : Pool.Reach (server control ι) (.start (fun i => (ops i).program) w.store) c) :
    ∀ ev ∈ c.trace, Paired ev.after := fun ev hev => by
  obtain ⟨-, -, hpaired, -⟩ := sound_of_reach w ops h ev hev
  exact hpaired

/-- **Pauses and their audit records**: whatever calls run, interleaved and lost at any point, the
settings and the records are right in every committed state exactly if no transaction commits that has
moved the switch or holds a record.  A change of the switch is never recorded in the state that commits
it. -/
theorem pausesAudited_iff (w : Standing ι) (ops : ι → Operation)
    (h : Pool.Reach (server control ι) (.start (fun i => (ops i).program) w.store) c) :
    PausesAudited c.trace ↔ ∀ ev ∈ c.trace, Spared ev := by
  have hevent : ∀ ev ∈ c.trace, (recorded ev = [] ∨ changed ev = [])
      ∧ (Spared ev ↔ changed ev = [] ∧ recorded ev = []) := by
    intro ev hev
    obtain ⟨g, hI, -, hafter⟩ := sound_of_reach w ops h ev hev
    obtain ⟨i, q, s, s'⟩ := ev
    have hs' : s' = Db.effect i q s := hafter
    subst hs'
    exact ⟨hI.changed_or_recorded, hI.spared_iff⟩
  have hlists := flatMap_eq_iff fun ev hev => (hevent ev hev).1
  calc PausesAudited c.trace
      ↔ ∀ past, past <+: c.trace → past.flatMap recorded = past.flatMap changed :=
        ⟨fun hp => hp.audited, fun ha => ⟨paired_of_reach w ops h, ha⟩⟩
    _ ↔ ∀ ev ∈ c.trace, changed ev = [] ∧ recorded ev = [] := hlists
    _ ↔ ∀ ev ∈ c.trace, Spared ev := forall₂_congr fun ev hev => (hevent ev hev).2.symm

/-! ### A pause -/

/-- The tables before the first call. -/
def untouched : (t : control.Table) → ℕ → Option (control.Row t)
  | .systemSetting, n => if n < 4 then some none else none
  | .activityLog, _ => none

lemma untouched_of_le (t : control.Table) (n : ℕ) (hn : 4 ≤ n) : untouched t n = none := by
  cases t with
  | systemSetting => exact if_neg (by omega)
  | activityLog => rfl

/-- The store before the first call. -/
def freshStore : ControlStore ι := Db.init untouched 4 (.still 0) untouched_of_le

omit [DecidableEq ι] in
lemma places_freshStore (key : Key) :
    (freshStore : ControlStore ι).committed settingsTable key.slot ≠ none := by
  cases key <;> simp [freshStore, Db.init, untouched, Key.slot]

omit [DecidableEq ι] in
lemma paired_freshStore : Paired (freshStore : ControlStore ι) := by
  intro key hkey
  cases key <;> rfl

def newInstallation : Standing ι where
  store := freshStore
  settled := Db.settled_init untouched 4 (.still 0) untouched_of_le
  places := places_freshStore
  paired := paired_freshStore

end Runs

/-- One operator who pauses. -/
def onePause : Unit → Operation := fun _ => .pause Key.slot 7 "incident" 1

/-- The pause up to the commit of its settings, where its process is lost. -/
def lostAfterFirstCommit : List (Move Unit) := List.replicate 13 (.step ()) ++ [.hangup ()]

/-- The start of the pause on a new installation. -/
def pauseStarted : Pool (sql control) Unit (ControlStore Unit) Exn Status :=
  .start (fun i => (onePause i).program) newInstallation.store

/-- The equivalence at the pause that is lost between its commits. -/
theorem pausesAudited_iff_lost :
    ∃ c, Pool.Reach (server control Unit) pauseStarted c ∧ c.trace.length = 14
      ∧ (PausesAudited c.trace ↔ ∀ ev ∈ c.trace, Spared ev) := by
  have hrun : (pauseStarted.run (server control Unit) lostAfterFirstCommit).any
      (fun c => c.trace.length == 14) = true := by
    decide +kernel
  obtain ⟨c, hc, hlength⟩ := Pool.exists_of_run hrun
  exact ⟨c, hc, by simpa using hlength, pausesAudited_iff newInstallation onePause hc⟩

/-- A pause that is lost between its commits is never recorded. -/
theorem not_pausesAudited_of_lost :
    ¬ ∀ (w : Standing Unit) (ops : Unit → Operation)
      (c : Pool (sql control) Unit (ControlStore Unit) Exn Status),
      Pool.Reach (server control Unit) (.start (fun i => (ops i).program) w.store) c →
        PausesAudited c.trace := by
  intro hall
  have hrun : (pauseStarted.run (server control Unit) lostAfterFirstCommit).any (fun c =>
      c.trace.flatMap recorded == [] && c.trace.flatMap changed == [.automationPaused]) = true := by
    decide +kernel
  obtain ⟨c, hc, hlists⟩ := Pool.exists_of_run hrun
  obtain ⟨hrecorded, hchanged⟩ := Bool.and_eq_true_iff.mp hlists
  have haudited := (hall newInstallation onePause c hc).audited c.trace List.prefix_rfl
  rw [eq_of_beq hrecorded, eq_of_beq hchanged] at haudited
  cases haudited

end Automation.Control
