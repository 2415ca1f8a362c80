import Mathlib.Order.Lattice
import Mathlib.Data.List.Basic

/-!
Reservations that expire.

A store is asked to reserve a key until some time; it refuses while an earlier reservation of the key
runs.  What it forgets is its own business, as long as it does not forget what still runs.

* `Store`: a store of reservations, by what it holds later on;
* `run`, `grants`: the answers to a list of requests, and the requests that are granted;
* `spaced`: a key is granted again only after its last reservation has run out;
* `Ledger`, `run_eq_ledger`: on a clock that does not go back every store answers as the list of all
  reservations ever made does.
-/

namespace Reservation

/-- A request: the key, the time, and the time the reservation would run out. -/
structure Request (κ τ : Type) where
  key : κ
  now : τ
  expiry : τ
  deriving DecidableEq, Repr

/-- A store with states `σ`.  It grants what it does not hold; and from then on it holds that besides what
it held. -/
structure Store (σ κ τ : Type) [LT τ] [LE τ] where
  acquire : σ → Request κ τ → Bool × σ
  Holds : σ → κ → τ → Prop
  granted_iff : ∀ s r, (acquire s r).1 = true ↔ ¬ Holds s r.key r.now
  holds_acquire : ∀ s r key later, r.now ≤ later →
    (Holds (acquire s r).2 key later ↔
      ((acquire s r).1 = true ∧ r.key = key ∧ later < r.expiry) ∨ Holds s key later)

section Run

variable {σ κ τ : Type}

/-- The answers of a store, in order. -/
def run [LT τ] [LE τ] (store : Store σ κ τ) (s : σ) : List (Request κ τ) → List Bool
  | [] => []
  | r :: requests => (store.acquire s r).1 :: run store (store.acquire s r).2 requests

/-- The requests a store grants, in order. -/
def grants [LT τ] [LE τ] (store : Store σ κ τ) (s : σ) : List (Request κ τ) → List (Request κ τ)
  | [] => []
  | r :: requests =>
      if (store.acquire s r).1 then r :: grants store (store.acquire s r).2 requests
      else grants store (store.acquire s r).2 requests

/-- The state a store is left in. -/
def after [LT τ] [LE τ] (store : Store σ κ τ) (s : σ) (requests : List (Request κ τ)) : σ :=
  requests.foldl (fun s r => (store.acquire s r).2) s

/-- What a store keeps of what it has granted, over a run. -/
theorem after_induction [LT τ] [LE τ] {store : Store σ κ τ} {P : σ → List (Request κ τ) → Prop}
    (hgranted : ∀ s made r, P s made → (store.acquire s r).1 = true →
      P (store.acquire s r).2 (made ++ [r]))
    (hrefused : ∀ s made r, P s made → (store.acquire s r).1 = false → P (store.acquire s r).2 made)
    {s : σ} (h : P s []) (requests : List (Request κ τ)) :
    P (after store s requests) (grants store s requests) := by
  suffices hrun : ∀ made, P s made → P (after store s requests) (made ++ grants store s requests) from
    hrun [] h
  clear h
  induction requests generalizing s with
  | nil => simp [after, grants]
  | cons r requests ih =>
      intro made h
      cases hr : (store.acquire s r).1 with
      | false => simpa [after, grants, hr] using ih made (hrefused s made r h hr)
      | true => simpa [after, grants, hr] using ih _ (hgranted s made r h hr)

/-! ### Spacing -/

/-- What a store holds of a key until some time, it does not grant before that time. -/
theorem le_of_mem_grants [LinearOrder τ] (store : Store σ κ τ) {s : σ} {key : κ} {expiry : τ}
    {requests : List (Request κ τ)} (hclock : requests.Pairwise fun r r' => r.now ≤ r'.now)
    (hholds : ∀ r ∈ requests, r.now < expiry → store.Holds s key r.now) {r : Request κ τ}
    (hr : r ∈ grants store s requests) (hkey : r.key = key) : expiry ≤ r.now := by
  induction requests generalizing s with
  | nil => simp [grants] at hr
  | cons first requests ih =>
      obtain ⟨hfirst, hclock⟩ := List.pairwise_cons.mp hclock
      have hnext : ∀ r ∈ requests, r.now < expiry →
          store.Holds (store.acquire s first).2 key r.now := fun r hr hlt =>
        (store.holds_acquire s first key r.now (hfirst r hr)).mpr
          (Or.inr (hholds r (List.mem_cons_of_mem _ hr) hlt))
      by_cases hgranted : (store.acquire s first).1 = true
      · rw [grants, if_pos hgranted] at hr
        rcases List.mem_cons.mp hr with rfl | hlater
        · by_contra hlt
          have hheld := hholds r List.mem_cons_self (not_le.mp hlt)
          rw [← hkey] at hheld
          exact (store.granted_iff s r).mp hgranted hheld
        · exact ih hclock hnext hlater
      · rw [grants, if_neg hgranted] at hr
        exact ih hclock hnext hr

/-- **Spacing**: whatever a store holds at first, on a clock that does not go back a key is granted again
only when its last reservation has run out. -/
theorem spaced [LinearOrder τ] (store : Store σ κ τ) (s : σ) {requests : List (Request κ τ)}
    (hclock : requests.Pairwise fun r r' => r.now ≤ r'.now) :
    (grants store s requests).Pairwise fun r r' => r.key = r'.key → r.expiry ≤ r'.now := by
  induction requests generalizing s with
  | nil => exact List.Pairwise.nil
  | cons r requests ih =>
      obtain ⟨hfirst, hclock⟩ := List.pairwise_cons.mp hclock
      by_cases hgranted : (store.acquire s r).1 = true
      · rw [grants, if_pos hgranted]
        refine List.pairwise_cons.mpr ⟨fun r' hr' hkey => ?_, ih _ hclock⟩
        refine le_of_mem_grants store hclock (fun later hlater hlt => ?_) hr' rfl
        exact (store.holds_acquire s r r'.key later.now (hfirst later hlater)).mpr
          (Or.inl ⟨hgranted, hkey, hlt⟩)
      · rw [grants, if_neg hgranted]
        exact ih _ hclock

/-! ### The ledger -/

/-- All reservations that were made. -/
abbrev Ledger (κ τ : Type) := List (Request κ τ)

variable [DecidableEq κ] [LinearOrder τ]

/-- Whether a reservation of the key still runs. -/
def Ledger.running (ledger : Ledger κ τ) (key : κ) (now : τ) : Bool :=
  ledger.any fun made => made.key = key && decide (now < made.expiry)

/-- The answers when nothing is ever forgotten. -/
def Ledger.answers (ledger : Ledger κ τ) : List (Request κ τ) → List Bool
  | [] => []
  | r :: requests =>
      if ledger.running r.key r.now then false :: Ledger.answers ledger requests
      else true :: Ledger.answers (r :: ledger) requests

/-- A store that from a time on holds what runs in the ledger answers like it. -/
theorem run_eq_answers (store : Store σ κ τ) {s : σ} {ledger : Ledger κ τ}
    {requests : List (Request κ τ)} (hclock : requests.Pairwise fun r r' => r.now ≤ r'.now)
    (hholds : ∀ r ∈ requests, ∀ key later, r.now ≤ later →
      (store.Holds s key later ↔ ledger.running key later = true)) :
    run store s requests = ledger.answers requests := by
  induction requests generalizing s ledger with
  | nil => rfl
  | cons r requests ih =>
      obtain ⟨hfirst, hclock⟩ := List.pairwise_cons.mp hclock
      have hr := hholds r List.mem_cons_self
      have hgranted := store.granted_iff s r
      rw [hr r.key r.now le_rfl] at hgranted
      by_cases hrunning : ledger.running r.key r.now = true
      · have hanswer : (store.acquire s r).1 = false := by simpa [hrunning] using hgranted
        have hnext : ∀ r' ∈ requests, ∀ key later, r'.now ≤ later →
            (store.Holds (store.acquire s r).2 key later ↔ ledger.running key later = true) := by
          intro r' hr' key later hlater
          have hle := (hfirst r' hr').trans hlater
          rw [store.holds_acquire s r key later hle, hr key later hle, hanswer]
          simp
        rw [run, Ledger.answers, if_pos hrunning, hanswer, ih hclock hnext]
      · have hanswer : (store.acquire s r).1 = true := hgranted.mpr hrunning
        have hnext : ∀ r' ∈ requests, ∀ key later, r'.now ≤ later →
            (store.Holds (store.acquire s r).2 key later ↔
              Ledger.running (r :: ledger) key later = true) := by
          intro r' hr' key later hlater
          have hle := (hfirst r' hr').trans hlater
          rw [store.holds_acquire s r key later hle, hr key later hle, hanswer]
          simp [Ledger.running]
        rw [run, Ledger.answers, if_neg hrunning, hanswer, ih hclock hnext]

/-- On a clock that does not go back, an empty store answers like the ledger. -/
theorem run_eq_ledger (store : Store σ κ τ) {s : σ} (hempty : ∀ key later, ¬ store.Holds s key later)
    {requests : List (Request κ τ)} (hclock : requests.Pairwise fun r r' => r.now ≤ r'.now) :
    run store s requests = Ledger.answers [] requests :=
  run_eq_answers store hclock fun _ _ key later _ => by simp [hempty key later, Ledger.running]

end Run

end Reservation
