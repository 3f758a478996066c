import Rieul.Lib.Trace
import Rieul.RootUpdate.Dispatch

/-!
# No update is retried behind the user's back

The marker of a dispatch stays in force until the worker that holds the lock has
accepted the journal. What is recorded about an action is judged by the actions
before it.
-/

namespace Rieul.RootUpdate.Transaction
open Crash

def Label.marks : Label → Option (Option String)
  | mark nonce => some (some nonce)
  | accept _ => some none
  | _ => none

def pendingMark : Log → Option String
  | [] => none
  | e :: before =>
    if e.answer.done then e.label.marks.getD (pendingMark before) else pendingMark before

/-- A drain was deferred for `reason`. -/
def Drained (reason : String) (log : Log) : Prop :=
  ∃ q ∈ log, q.label = .quiesce ∧ q.answer.error = none ∧
    q.answer.drain.outcome = .error (.deferred reason)

/-- An automatic submission follows its own marker, saved where no retry had to be confirmed; an
acceptance follows the verification of the worker; what is published is about the journal that is
there, or was retired last, and a deferral comes from a drain. -/
def Justified (e : Entry Job World Answer Label) (before : Log) : Prop :=
  match e.label with
  | .submit => ∃ intent mark earlier manual j, before = intent :: mark :: earlier ∧
      e.who = .dispatch manual ∧ intent.label = .intend manual ∧ mark.label = .mark j.nonce ∧
      mark.before.dir.journal = some j ∧ e.before.dir.journal = some j ∧
      (manual = false → mark.before.dir.requiresConfirmedRetry j = false)
  | .accept nonce => ∃ verify earlier j, before = verify :: earlier ∧ e.who = .worker ∧
      verify.label = .verify ∧ verify.answer.error = none ∧ e.before.dir.journal = some j ∧
      j.nonce = nonce
  | .publish nonce result => e.who = .worker ∧ result.nonce = some nonce ∧
      (match e.before.dir.journal with
        | some j => j.nonce = nonce
        | none => ∃ last, e.before.dir.lastResult = some last ∧ last.nonce = nonce) ∧
      (result.deferred = true → ∃ reason, Drained reason before ∧
        result.error = some (Error.deferred reason).text)
  | .refuse result => result.deferred = false
  | _ => True

def Marked (w : World) (log : Log) : Prop :=
  ∀ nonce, pendingMark log = some nonce → ∃ j result, w.dir.journal = some j ∧ j.nonce = nonce ∧
    w.dir.workerResult = some result ∧ result.failed j = true

def Invariant (w : World) (log : Log) : Prop := Marked w log ∧ Trace.Sound Justified log

def Label.plain : Label → Bool
  | .submit | .mark _ | .accept _ | .publish _ _ | .refuse _ => false
  | _ => true

theorem plain_marks {label : Label} (h : label.plain = true) : label.marks = none := by
  cases label with
  | mark nonce | accept nonce => cases h
  | _ => rfl

section
variable {e : Entry Job World Answer Label} (h : e.label.plain = true)
include e h

theorem plain_justified (before : Log) : Justified e before := by
  unfold Justified
  cases hl : e.label with
  | submit | accept nonce | publish nonce result | refuse result => simp [hl, Label.plain] at h
  | mark nonce => trivial
  | _ => trivial

theorem pendingMark_plain (log : Log) : pendingMark (e :: log) = pendingMark log := by
  rw [pendingMark, plain_marks h, Option.getD_none, ite_self]

theorem invariant_plain (w : World)
    (log : Log) (hi : Invariant e.before log)
    (hkept : pendingMark log = none ∨ (w.dir.journal = e.before.dir.journal ∧
      w.dir.workerResult = e.before.dir.workerResult)) : Invariant w (e :: log) := by
  refine ⟨?_, plain_justified h log, hi.2⟩
  intro nonce hp
  rw [pendingMark_plain h] at hp
  rcases hkept with hnone | ⟨hj, hr⟩
  · rw [hnone] at hp
    cases hp
  · rw [hj, hr]
    exact hi.1 nonce hp

end

section
variable (job : Job)

def Free (_ : World) (log : Log) : Prop := pendingMark log = none

def FreeError (e : Error) (_ : World) (log : Log) : Prop :=
  pendingMark log = none ∧ ∀ reason, e = .deferred reason → Drained reason log

/-- Without a marker, `x` records nothing. -/
def Harmless {α : Type} (x : Script α) : Prop :=
  Spec job Invariant Free x (fun _ => Free) FreeError

variable {job} {α β : Type}

theorem freeError_other {w : World} {log : Log} (h : Free w log) (text : String) :
    FreeError (.other text) w log :=
  ⟨h, fun _ he => by cases he⟩

theorem Harmless.pure (a : α) : Harmless job (pure a) :=
  Spec.pure fun _ _ _ h => h

theorem Harmless.bind {x : Script α} {f : α → Script β} (hx : Harmless job x)
    (hf : ∀ a, Harmless job (f a)) : Harmless job (x >>= f) :=
  Spec.bind hx hf

theorem Harmless.ensure {p : Prop} [Decidable p] {text : String} {f : Unit → Script β}
    (hf : Harmless job (f ())) : Harmless job (Crash.ensure p (.other text) >>= f) :=
  Spec.ensure_bind (fun _ => hf) fun _ _ _ h => freeError_other h text

theorem Harmless.require {o : Option α} {text : String} {f : α → Script β}
    (hf : ∀ a, Harmless job (f a)) : Harmless job (Crash.require (.other text) o >>= f) :=
  Spec.require_bind (fun a _ => hf a) fun _ _ _ h => freeError_other h text

theorem Harmless.ite {c : Prop} [Decidable c] {x y : Script α} (hx : Harmless job x)
    (hy : Harmless job y) : Harmless job (if c then x else y) :=
  Spec.ite (fun _ => hx) fun _ => hy

theorem harmless_perform {label : Label} (hl : label.plain = true)
    {effect : Answer → World → World} {answer : Answer → World → Except Error α}
    (h : ∀ i w reason, answer i w = .error (.deferred reason) →
      label = .quiesce ∧ i.error = none ∧ i.drain.outcome = .error (.deferred reason)) :
    Harmless job (perform label effect answer) := by
  refine Spec.perform fun w log i hi hfree => ?_
  have hplain : (⟨job, label, i, w⟩ : Entry Job World Answer Label).label.plain = true := hl
  have hfree' : pendingMark (⟨job, label, i, w⟩ :: log) = none :=
    (pendingMark_plain hplain log).trans hfree
  refine ⟨invariant_plain hplain _ log hi (.inl hfree), ?_⟩
  cases ha : answer i w with
  | ok a => exact hfree'
  | error e =>
    refine ⟨hfree', fun reason he => ?_⟩
    obtain ⟨hq, herror, hdrain⟩ := h i w reason (ha.trans (congrArg _ he))
    exact ⟨_, List.mem_cons_self, hq, herror, hdrain⟩

theorem outcome_ok {a : α} {i : Answer} {reason : String}
    (h : i.outcome (.ok a) = .error (.deferred reason)) : False := by
  unfold Answer.outcome at h
  cases hi : i.error with
  | none | some text =>
    rw [hi] at h
    cases h

theorem Harmless.write {label : Label} (hl : label.plain = true) (f : World → World) :
    Harmless job (Transaction.write label f) :=
  harmless_perform hl fun _ _ _ h => (outcome_ok h).elim

theorem Harmless.save {label : Label} (hl : label.plain = true) (f : Dir → Dir) :
    Harmless job (Transaction.save label f) :=
  .write hl _

theorem Harmless.see {label : Label} (hl : label.plain = true) (f : Answer → World → α) :
    Harmless job (look label fun i w => .ok (f i w)) :=
  harmless_perform hl fun _ _ _ h => (outcome_ok h).elim

theorem Harmless.load (f : Dir → α) : Harmless job (Transaction.load f) := .see rfl _

theorem harmless_quiesce : Harmless job quiesce := by
  refine harmless_perform rfl fun i w reason h => ?_
  unfold Answer.outcome at h
  cases hi : i.error with
  | none =>
    rw [hi] at h
    exact ⟨rfl, rfl, h⟩
  | some text =>
    rw [hi] at h
    cases h

theorem harmless_validate (j : Journal) : Harmless job (validate j) := by
  refine harmless_perform rfl fun i w reason h => ?_
  unfold Answer.outcome World.validated at h
  cases hi : i.error with
  | some text =>
    rw [hi] at h
    cases h
  | none =>
    rw [hi] at h
    dsimp only at h
    split at h
    · cases h
    · split at h
      · cases h
      · split at h
        · cases h
        · split at h
          · cases h
          · cases h

theorem harmless_known (j : Journal) : Harmless job (known j) :=
  .bind (.see rfl _) fun _ => .ensure (.pure _)

theorem harmless_atTarget (target : Installed) (j : Journal) : Harmless job (atTarget target j) :=
  .bind (harmless_known j) fun _ => .ensure (.pure _)

theorem harmless_start (identity : Identity) (nonce : String) :
    Harmless job (start identity nonce) :=
  .bind (.see rfl _) fun _ => .ensure (.bind (.save rfl _) fun _ => .see rfl _)

theorem harmless_ready : Harmless job ready := .see rfl _

theorem harmless_restoreGuis : Harmless job restoreGuis := .see rfl _

theorem harmless_ensureSchema (text : String) : Harmless job (ensureSchema text) :=
  .bind (.see rfl _) fun _ =>
    Spec.ite (fun _ => Harmless.pure ()) fun _ => Spec.throw fun _ _ _ h => freeError_other h text

theorem harmless_ensure {p : Prop} [Decidable p] (text : String) :
    Harmless job (Crash.ensure p (.other text)) :=
  Spec.ite (fun _ => Harmless.pure ()) fun _ => Spec.throw fun _ _ _ h => freeError_other h text

theorem harmless_ensureServing (identity : Identity) (nonce : String) :
    Harmless job (ensureServing identity nonce) := by
  refine .bind harmless_ready fun serving => .ite (.pure ()) ?_
  refine .bind harmless_quiesce fun _ => .bind (harmless_start identity nonce) fun _ => ?_
  exact .bind harmless_ready fun _ => harmless_ensure _

theorem harmless_saveJournal (j : Journal) : Harmless job (saveJournal j) := .save rfl _

theorem harmless_cleanup : Harmless job cleanup :=
  .bind (.write rfl _) fun _ => .bind (.write rfl _) fun _ => .bind (.save rfl _) fun _ =>
    .save rfl _

theorem harmless_cleanupPendingLocked : Harmless job cleanupPendingLocked := by
  refine .bind (.load _) fun pending => ?_
  cases pending with
  | none => exact .pure ()
  | some pending =>
    refine .bind (.load _) fun journal => .ensure (.bind (.load _) fun found => ?_)
    exact .require fun last => .ensure (.bind harmless_cleanup fun _ => .save rfl _)

theorem harmless_prepareLocked (old new : Identity) (nonce : String) :
    Harmless job (prepareLocked old new nonce) :=
  .bind (.load _) fun _ => .ensure (.bind (.load _) fun _ => .ensure (.ensure
    (harmless_saveJournal _)))

theorem harmless_finalize (j : Journal) : Harmless job (finalize j) :=
  .bind (.save rfl _) fun _ => .bind (.save rfl _) fun _ => .bind (.save rfl _) fun _ =>
    harmless_cleanupPendingLocked

theorem harmless_exchangeFrom (side : Installed) (here : Installed × Installed) :
    Harmless job (exchangeFrom side here) := by
  have hservice : Harmless job (if here.2 = side then exchangeService else pure ()) :=
    .ite (.write rfl _) (.pure ())
  exact .ite (.bind (.write rfl _) fun _ => hservice) hservice

theorem harmless_rollback (j : Journal) : Harmless job (rollback j) := by
  refine .bind harmless_quiesce fun _ => .bind (harmless_ensureSchema _) fun _ => ?_
  refine .bind (harmless_validate j) fun _ => .bind (harmless_known j) fun _ => ?_
  refine .bind (harmless_exchangeFrom _ _) fun _ => ?_
  refine .bind (harmless_atTarget .old j) fun _ => .ensure ?_
  refine .bind (harmless_start j.old j.nonce) fun _ => .bind harmless_ready fun _ => .ensure ?_
  refine .bind (harmless_saveJournal _) fun _ => .bind harmless_restoreGuis fun _ => ?_
  exact .bind (harmless_finalize _) fun _ => .pure _

theorem harmless_finish (j : Journal) (target : Installed) (identity : Identity) (text : String) :
    Harmless job (finish j target identity text) := by
  refine .bind (harmless_atTarget target j) fun _ => .ensure ?_
  refine .bind (harmless_ensureServing identity j.nonce) fun _ => ?_
  exact .bind harmless_restoreGuis fun _ => .bind (harmless_finalize j) fun _ => .pure _

theorem harmless_attempt {x : Script α} {f : Except Error α → Script β} (hx : Harmless job x)
    (hf : ∀ r, Harmless job (f r)) : Harmless job (attempt x >>= f) := by
  refine Spec.bind (Spec.attempt hx) fun r => (hf r).strengthen fun w log _ h => ?_
  cases r with
  | ok a => exact h
  | error e => exact h.1

theorem harmless_launch (j : Journal) : Harmless job (launch j) := by
  refine harmless_attempt (harmless_start j.new j.nonce) fun started => ?_
  cases started with
  | error e => exact .pure _
  | ok u =>
    refine harmless_attempt harmless_ready fun serving => ?_
    cases serving with
    | error e | ok serving => exact .pure _

theorem harmless_replace (j : Journal) : Harmless job (replace j) := by
  refine .bind harmless_quiesce fun _ => .bind (harmless_ensureSchema _) fun _ => ?_
  refine .bind (harmless_validate j) fun _ => .bind (harmless_saveJournal _) fun _ => ?_
  refine .bind (harmless_known j) fun _ => .bind (harmless_exchangeFrom _ _) fun _ => ?_
  refine .bind (harmless_atTarget .new j) fun _ => .ensure ?_
  refine .bind (harmless_saveJournal _) fun _ => .bind (harmless_launch j) fun _ => .ite ?_ ?_
  · refine .bind (harmless_ensureSchema _) fun _ => .bind (harmless_saveJournal _) fun _ => ?_
    refine .bind harmless_restoreGuis fun _ => ?_
    exact .bind (harmless_finalize _) fun _ => .pure _
  · exact .bind (harmless_saveJournal _) fun _ => harmless_rollback _

theorem harmless_resumeLocked : Harmless job resumeLocked := by
  refine .bind (.load _) fun found => ?_
  cases found with
  | none =>
    refine .bind (.load _) fun found => .require fun last => .ensure ?_
    exact .bind harmless_cleanupPendingLocked fun _ => .pure _
  | some j =>
    refine .ensure (.bind (harmless_validate j) fun _ => ?_)
    refine .bind (harmless_ensureSchema _) fun _ => .bind (harmless_known j) fun _ => ?_
    cases j.phase with
    | rolledBack | committed => exact harmless_finish j _ _ _
    | rollingBack => exact harmless_rollback j
    | prepared => exact .bind (harmless_saveJournal _) fun _ => harmless_replace _
    | quiescing | replacing | starting => exact harmless_replace j

end

def IsOther (e : Error) : Prop := ∃ text, e = .other text

theorem outcome_other {α : Type} {i : Answer} {a : α} {e : Error}
    (h : i.outcome (.ok a) = .error e) : IsOther e := by
  unfold Answer.outcome at h
  cases hi : i.error with
  | none =>
    rw [hi] at h
    cases h
  | some text =>
    rw [hi] at h
    cases h
    exact ⟨text, rfl⟩

theorem outcome_value {α : Type} {i : Answer} {a b : α} (h : i.outcome (.ok a) = .ok b) :
    i.error = none ∧ a = b := by
  unfold Answer.outcome at h
  cases hi : i.error with
  | none =>
    rw [hi] at h
    cases h
    exact ⟨rfl, rfl⟩
  | some text =>
    rw [hi] at h
    cases h

section
variable {job : Job} {α : Type} {P : World → Prop}

theorem spec_see {label : Label} (hl : label.plain = true) (f : Answer → World → α) :
    Spec job Invariant (fun w _ => P w) (look label fun i w => .ok (f i w))
      (fun a w log => P w ∧ ∃ e before, log = e :: before ∧ e.label = label ∧
        e.answer.error = none ∧ a = f e.answer w) fun e w _ => P w ∧ IsOther e := by
  refine Spec.perform fun w log i hi hp => ⟨?_, ?_⟩
  · exact invariant_plain (e := ⟨job, label, i, w⟩) hl w log hi (.inr ⟨rfl, rfl⟩)
  · cases ha : i.outcome (.ok (f i w)) with
    | ok a =>
      obtain ⟨herror, rfl⟩ := outcome_value ha
      exact ⟨hp, _, log, rfl, rfl, herror, rfl⟩
    | error e => exact ⟨hp, outcome_other ha⟩

theorem spec_load (f : Dir → α) : Spec job Invariant (fun w _ => P w) (load f)
    (fun a w _ => P w ∧ a = f w.dir) fun e w _ => P w ∧ IsOther e :=
  (spec_see rfl _).weaken (fun _ _ _ _ ⟨hp, _, _, _, _, _, ha⟩ => ⟨hp, ha⟩) fun _ _ _ _ h => h

end

theorem free_of_none {w : World} {log : Log} (hi : Invariant w log) (h : w.dir.journal = none) :
    Free w log := by
  cases hp : pendingMark log with
  | none => exact hp
  | some nonce =>
    obtain ⟨j, result, hj, -⟩ := hi.1 nonce hp
    rw [h] at hj
    cases hj

def Kept {α : Type} (job : Job) (P : World → Prop) (x : Script α) : Prop :=
  Spec job Invariant (fun w _ => P w) x (fun _ _ _ => True) fun _ _ _ => True

section
variable {job : Job} {α : Type}

theorem Harmless.kept {x : Script α} (h : Harmless job x) {P : World → Prop}
    (hp : ∀ w, P w → w.dir.journal = none) : Kept job P x :=
  (h.strengthen fun _ _ hi hw => free_of_none hi (hp _ hw)).weaken (fun _ _ _ _ _ => trivial)
    fun _ _ _ _ _ => trivial

theorem kept_cleanupRetired : Kept .cleanup (fun _ => True) cleanupRetired := by
  refine Spec.bind ((spec_load _).weaken (fun _ _ _ _ h => h.2) fun _ _ _ _ _ => trivial)
    fun journal => Spec.ite (fun _ => Spec.pure fun _ _ _ _ => trivial) fun hnone => ?_
  have hclean : Kept .cleanup (fun w => journal = w.dir.journal) cleanupPendingLocked :=
    harmless_cleanupPendingLocked.kept fun w hw => by simpa [← hw] using hnone
  exact hclean

theorem kept_prepare (old : Identity) (version : Version) (new : Identity) (nonce : String)
    (confirmedRetry : Bool) : Kept .prepare (fun _ => True)
      (prepareWithRetry old version new nonce confirmedRetry) := by
  have hlook : Kept .prepare (fun _ => True) (look .effect fun i _ => .ok i.allowed) :=
    (spec_see rfl _).weaken (fun _ _ _ _ _ => trivial) fun _ _ _ _ _ => trivial
  refine Spec.bind hlook fun allowed => Spec.ite (fun _ => Spec.pure fun _ _ _ _ => trivial) fun _ => ?_
  refine Spec.bind ((spec_load (P := fun _ => True) _).weaken (fun _ _ _ _ h => h.2)
    fun _ _ _ _ _ => trivial) fun journal => ?_
  refine Spec.ensure_bind (fun hnone => ?_) fun _ _ _ _ => trivial
  refine Harmless.kept (P := fun w => journal = w.dir.journal) ?_ fun w hw => hw ▸ hnone
  refine .bind harmless_cleanupPendingLocked fun _ => .bind (.see rfl _) fun _ => ?_
  refine .ite (.pure _) (.bind (.write rfl _) fun _ => .bind (.write rfl _) fun _ => ?_)
  refine .bind (.see rfl _) fun _ => .ensure (.bind (.load _) fun last => .ite ?_ ?_)
  · exact .bind (.write rfl _) fun _ => .pure _
  · exact .bind (harmless_prepareLocked old new nonce) fun _ => .pure _

end

section
variable {job : Job}

theorem spec_requiresConfirmedRetry (j : Journal) :
    Spec job Invariant (fun w _ => w.dir.journal = some j) (requiresConfirmedRetry j)
      (fun confirm w _ => w.dir.journal = some j ∧ confirm = w.dir.requiresConfirmedRetry j)
      fun _ _ _ => True := by
  refine Spec.bind ((spec_load _).weaken (fun _ _ _ _ h => h) fun _ _ _ _ _ => trivial) fun result => ?_
  refine Spec.ite (fun hfailed => Spec.pure fun w _ _ h => ⟨h.1, ?_⟩) fun hok => ?_
  · unfold Dir.requiresConfirmedRetry
    rw [← h.2, hfailed, Bool.true_or]
  · refine Spec.bind ((spec_load (P := fun w => w.dir.journal = some j ∧
      result = w.dir.workerResult) _).weaken (fun _ _ _ _ h => h) fun _ _ _ _ _ => trivial) fun last => ?_
    refine Spec.pure fun w _ _ h => ⟨h.1.1, ?_⟩
    unfold Dir.requiresConfirmedRetry
    rw [← h.1.2, ← h.2, Bool.eq_false_iff.mpr hok, Bool.false_or]

theorem marked_save (label : Label) (j : Journal) (result : WorkerResult) (i : Answer) (w : World)
    (log : Log) (hi : Invariant w log) (hj : w.dir.journal = some j)
    (hmarks : ∀ nonce, label.marks = some (some nonce) → nonce = j.nonce)
    (hfailed : label.marks = some none ∨ pendingMark log = none ∧ label.marks = none ∨
      result.failed j = true) :
    Marked (if i.done then { w with dir := { w.dir with workerResult := some result } } else w)
      (⟨job, label, i, w⟩ :: log) := by
  intro nonce hp
  rw [pendingMark] at hp
  by_cases hd : i.done = true
  · rw [if_pos hd] at hp ⊢
    have hnonce : j.nonce = nonce := by
      cases hm : label.marks with
      | none =>
        rw [hm, Option.getD_none] at hp
        obtain ⟨j', -, hj', hn, -⟩ := hi.1 nonce hp
        rw [hj] at hj'
        cases hj'
        exact hn
      | some m =>
        rw [hm, Option.getD_some] at hp
        subst hp
        exact (hmarks nonce hm).symm
    refine ⟨j, result, hj, hnonce, rfl, ?_⟩
    rcases hfailed with hnone | ⟨hfree, hnone⟩ | hfailed
    · rw [hnone, Option.getD_some] at hp
      cases hp
    · rw [hnone, Option.getD_none, hfree] at hp
      cases hp
    · exact hfailed
  · rw [if_neg hd] at hp ⊢
    exact hi.1 nonce hp

theorem failure_failed (j : Journal) {e : Error} (h : IsOther e) :
    (WorkerResult.failure (some j.nonce) e).failed j = true := by
  obtain ⟨text, rfl⟩ := h
  simp [WorkerResult.failed, WorkerResult.failure]

end

/-- The marker of a dispatch was saved where `manual` allows it. -/
def MarkedBy (manual : Bool) (j : Journal) (mark : Entry Job World Answer Label) : Prop :=
  mark.label = .mark j.nonce ∧ mark.before.dir.journal = some j ∧
    (manual = false → mark.before.dir.requiresConfirmedRetry j = false)

section
variable (manual : Bool)

theorem spec_mark (j : Journal) :
    Spec (.dispatch manual) Invariant (fun w _ => w.dir.journal = some j ∧
        (manual = false → w.dir.requiresConfirmedRetry j = false))
      (saveResult (.mark j.nonce) (.failure (some j.nonce) interrupted))
      (fun _ w log => w.dir.journal = some j ∧ ∃ mark earlier, log = mark :: earlier ∧
        MarkedBy manual j mark) fun _ _ _ => True := by
  refine Spec.perform fun w log i hi hp => ⟨⟨?_, trivial, hi.2⟩, ?_⟩
  · refine marked_save _ j _ i w log hi hp.1 ?_ (.inr (.inr (failure_failed j ⟨_, rfl⟩)))
    intro nonce hm
    cases hm
    rfl
  · cases ha : i.outcome (.ok ()) with
    | error e => trivial
    | ok u =>
      refine ⟨?_, _, log, rfl, rfl, hp⟩
      by_cases hd : i.done = true
      · rw [if_pos hd]
        exact hp.1
      · rw [if_neg hd]
        exact hp.1

theorem spec_intend (j : Journal) :
    Spec (.dispatch manual) Invariant (fun w log => w.dir.journal = some j ∧
        ∃ mark earlier, log = mark :: earlier ∧ MarkedBy manual j mark) (intend manual j)
      (fun _ w log => w.dir.journal = some j ∧ ∃ intent mark earlier,
        log = intent :: mark :: earlier ∧ intent.label = .intend manual ∧ MarkedBy manual j mark)
      fun e w _ => w.dir.journal = some j ∧ IsOther e := by
  refine Spec.perform fun w log i hi hp => ?_
  have hsame : ∀ f : World → World, (∀ w, (f w).dir.journal = w.dir.journal ∧
      (f w).dir.workerResult = w.dir.workerResult) → (if i.done then f w else w).dir.journal =
      w.dir.journal ∧ (if i.done then f w else w).dir.workerResult = w.dir.workerResult := by
    intro f hf
    by_cases hd : i.done = true
    · rw [if_pos hd]
      exact hf w
    · rw [if_neg hd]
      exact ⟨rfl, rfl⟩
  have hkept := hsame (fun w => { w with dir := { w.dir with
    installRequest := if manual then some ⟨j.nonce, true⟩ else none } }) fun _ => ⟨rfl, rfl⟩
  refine ⟨invariant_plain (e := ⟨_, .intend manual, i, w⟩) rfl _ log hi (.inr hkept), ?_⟩
  cases ha : i.outcome (.ok ()) with
  | error e => exact ⟨hkept.1.trans hp.1, outcome_other ha⟩
  | ok u =>
    obtain ⟨mark, earlier, rfl, hmark⟩ := hp.2
    exact ⟨hkept.1.trans hp.1, _, mark, earlier, rfl, rfl, hmark⟩

theorem spec_submit (j : Journal) :
    Spec (.dispatch manual) Invariant (fun w log => w.dir.journal = some j ∧
        ∃ intent mark earlier, log = intent :: mark :: earlier ∧ intent.label = .intend manual ∧
          MarkedBy manual j mark) ensureWorker
      (fun _ _ _ => True) fun e w _ => w.dir.journal = some j ∧ IsOther e := by
  refine Spec.perform fun w log i hi hp => ?_
  obtain ⟨hj, intent, mark, earlier, rfl, hintent, hmark, hbefore, hallowed⟩ := hp
  have hkept : (if i.done then { w with submitted := true } else w).dir = w.dir := by
    by_cases hd : i.done = true
    · rw [if_pos hd]
    · rw [if_neg hd]
  refine ⟨⟨?_, ?_, hi.2⟩, ?_⟩
  · intro nonce hpending
    rw [hkept]
    refine hi.1 nonce ?_
    rw [pendingMark] at hpending
    by_cases hd : i.done = true
    · rwa [if_pos hd] at hpending
    · rwa [if_neg hd] at hpending
  · exact ⟨intent, mark, earlier, manual, j, rfl, rfl, hintent, hmark, hbefore, hj, hallowed⟩
  · cases ha : i.outcome (.ok ()) with
    | error e => exact ⟨hkept ▸ hj, outcome_other ha⟩
    | ok u => trivial

theorem spec_refuse (j : Journal) {e : Error} (he : IsOther e) :
    Spec (.dispatch manual) Invariant (fun w _ => w.dir.journal = some j)
      (saveResult (.refuse (.failure (some j.nonce) e)) (.failure (some j.nonce) e))
      (fun _ _ _ => True) fun _ _ _ => True := by
  refine Spec.perform fun w log i hi hj => ⟨⟨?_, ?_, hi.2⟩, ?_⟩
  · exact marked_save _ j _ i w log hi hj nofun
      (.inr (.inr (failure_failed j he)))
  · obtain ⟨text, rfl⟩ := he
    rfl
  · cases i.outcome (.ok ()) with
    | ok u | error e => trivial

theorem kept_dispatch : Kept (.dispatch manual) (fun _ => True) (dispatchAttempt manual) := by
  refine Spec.bind ((spec_load (P := fun _ => True) _).weaken (fun _ _ _ _ h => h.2)
    fun _ _ _ _ _ => trivial) fun found => ?_
  refine Spec.require_bind (fun j hj => ?_) fun _ _ _ _ => trivial
  subst hj
  have hconfirm : Spec (.dispatch manual) Invariant (fun w _ => some j = w.dir.journal)
      (if manual then pure false else requiresConfirmedRetry j) (fun confirm w _ =>
        w.dir.journal = some j ∧ (manual = false → confirm = w.dir.requiresConfirmedRetry j))
      fun _ _ _ => True := by
    refine Spec.ite (fun hm => Spec.pure fun w _ _ h => ⟨h.symm, ?_⟩) fun _ => ?_
    · intro hm'
      rw [hm] at hm'
      cases hm'
    · exact ((spec_requiresConfirmedRetry j).strengthen fun _ _ _ h => h.symm).weaken
        (fun _ _ _ _ h => ⟨h.1, fun _ => h.2⟩) fun _ _ _ _ _ => trivial
  refine Spec.bind hconfirm fun confirm => ?_
  refine Spec.ensure_bind (fun hc => ?_) fun _ _ _ _ => trivial
  refine Spec.bind ((spec_mark manual j).strengthen fun _ _ _ h =>
    ⟨h.1, fun hm => (h.2 hm).symm.trans hc⟩) fun _ => ?_
  have hsubmit := Spec.bind (spec_intend manual j) fun _ => spec_submit manual j
  refine Spec.bind (Spec.attempt hsubmit) fun outcome => ?_
  cases outcome with
  | ok u => exact Spec.pure fun _ _ _ _ => trivial
  | error e =>
    intro w log hi hp
    obtain ⟨hj, he⟩ := hp
    have hthrow : Spec (.dispatch manual) Invariant (fun _ _ => True) (throw e : Script Unit)
        (fun _ _ _ => True) fun _ _ _ => True := Spec.throw fun _ _ _ _ => trivial
    exact Spec.bind (spec_refuse manual j he) (fun _ => hthrow) w log hi hj

end

def WorkerError (j : Journal) (e : Error) (w : World) (log : Log) : Prop :=
  FreeError e w log ∨ (w.dir.journal = some j ∧ IsOther e)

def Outcome (j : Journal) (outcome : Except Error Phase) (w : World) (log : Log) : Prop :=
  match outcome with
  | .ok _ => Free w log
  | .error e => WorkerError j e w log

theorem outcome_plain {j : Journal} {outcome : Except Error Phase} {w : World} {log : Log}
    {e : Entry Job World Answer Label} (h : e.label.plain = true) (ho : Outcome j outcome w log) :
    Outcome j outcome w (e :: log) := by
  have hfree : Free w log → Free w (e :: log) := fun hf => (pendingMark_plain h log).trans hf
  cases outcome with
  | ok phase => exact hfree ho
  | error err =>
    rcases ho with ⟨hf, hd⟩ | hother
    · refine .inl ⟨hfree hf, fun reason he => ?_⟩
      obtain ⟨q, hq, hrest⟩ := hd reason he
      exact ⟨q, List.mem_cons_of_mem e hq, hrest⟩
    · exact .inr hother

/-- The journal is that of `nonce`, or was retired last. -/
def Owned (nonce : String) (w : World) : Prop :=
  match w.dir.journal with
  | some j => j.nonce = nonce
  | none => ∃ last, w.dir.lastResult = some last ∧ last.nonce = nonce

section
variable {j : Journal} {outcome : Except Error Phase}

theorem spec_read {α : Type} {P : World → Prop} (f : Dir → α) :
    Spec .worker Invariant (fun w log => P w ∧ Outcome j outcome w log) (load f)
      (fun a w log => (P w ∧ a = f w.dir) ∧ Outcome j outcome w log) fun _ _ _ => True := by
  refine Spec.perform fun w log i hi hp => ?_
  refine ⟨invariant_plain (e := ⟨.worker, .read, i, w⟩) rfl w log hi (.inr ⟨rfl, rfl⟩), ?_⟩
  cases ha : i.outcome (.ok (f w.dir)) with
  | error e => trivial
  | ok a =>
    obtain ⟨-, rfl⟩ := outcome_value ha
    exact ⟨⟨hp.1, rfl⟩, outcome_plain (e := ⟨.worker, .read, i, w⟩) rfl hp.2⟩

theorem spec_current (nonce : String) :
    Spec .worker Invariant (Outcome j outcome) (current nonce)
      (fun owned w log => (owned = true → Owned nonce w) ∧ Outcome j outcome w log)
      fun _ _ _ => True := by
  refine Spec.bind ((spec_read (P := fun _ => True) _).strengthen fun _ _ _ h => ⟨trivial, h⟩)
    fun found => ?_
  cases found with
  | some c =>
    refine Spec.pure fun w _ _ h => ⟨fun hc => ?_, h.2⟩
    unfold Owned
    rw [← h.1.2]
    simpa using hc
  | none =>
    refine Spec.bind ((spec_read (P := fun w => none = w.dir.journal) _).strengthen
      fun _ _ _ h => ⟨h.1.2, h.2⟩) fun last => ?_
    refine Spec.pure fun w _ _ h => ⟨fun hc => ?_, h.2⟩
    unfold Owned
    rw [← h.1.1]
    cases last with
    | none => cases hc
    | some last => exact ⟨last, h.1.2.symm, by simpa using hc⟩

theorem spec_publishResult (nonce : String) (result : WorkerResult)
    (hnonce : result.nonce = some nonce) :
    Spec .worker Invariant (fun w log => Owned nonce w ∧
        (pendingMark log = none ∨ ∃ j, w.dir.journal = some j ∧ result.failed j = true) ∧
        (result.deferred = true → ∃ reason, Drained reason log ∧
          result.error = some (Error.deferred reason).text))
      (saveResult (.publish nonce result) result) (fun _ _ _ => True) fun _ _ _ => True := by
  refine Spec.perform fun w log i hi hp => ⟨⟨?_, ?_, hi.2⟩, ?_⟩
  · rcases hp.2.1 with hfree | ⟨c, hc, hfailed⟩
    · intro m hm
      rw [pendingMark] at hm
      have hnone : (none : Option String) = some m := by
        by_cases hd : i.done = true
        · rw [if_pos hd] at hm
          exact hfree.symm.trans hm
        · rw [if_neg hd] at hm
          exact hfree.symm.trans hm
      cases hnone
    · exact marked_save _ c _ i w log hi hc nofun (.inr (.inr hfailed))
  · refine ⟨rfl, hnonce, ?_, hp.2.2⟩
    exact hp.1
  · cases i.outcome (.ok ()) with
    | ok u | error e => trivial

theorem spec_publish :
    Spec .worker Invariant (fun w log => Owned j.nonce w ∧ Outcome j outcome w log)
      (publish j.nonce outcome) (fun _ _ _ => True) fun _ _ _ => True := by
  cases outcome with
  | ok phase =>
    refine (spec_publishResult j.nonce _ rfl).strengthen fun w log _ h => ⟨h.1, .inl h.2, ?_⟩
    exact nofun
  | error e =>
    have hlook : Spec .worker Invariant (fun w log => Owned j.nonce w ∧ Outcome j (.error e) w log)
        (look .effect fun _ _ => .ok ()) (fun _ w log => Owned j.nonce w ∧
          Outcome j (.error e) w log) fun _ _ _ => True := by
      refine Spec.perform fun w log i hi hp => ?_
      refine ⟨invariant_plain (e := ⟨.worker, .effect, i, w⟩) rfl w log hi (.inr ⟨rfl, rfl⟩), ?_⟩
      cases i.outcome (.ok ()) with
      | error e => trivial
      | ok u => exact ⟨hp.1, outcome_plain (e := ⟨.worker, .effect, i, w⟩) rfl hp.2⟩
    refine Spec.bind hlook fun _ => (spec_publishResult j.nonce _ rfl).strengthen ?_
    intro w log hi h
    refine ⟨h.1, ?_, ?_⟩
    · rcases h.2 with hfree | ⟨hj, he⟩
      · exact .inl hfree.1
      · exact .inr ⟨j, hj, failure_failed j he⟩
    · intro hd
      cases e with
      | other text => cases hd
      | deferred reason =>
        rcases h.2 with hfree | ⟨-, text, he⟩
        · exact ⟨reason, hfree.2 reason rfl, rfl⟩
        · cases he

end

theorem spec_accept (j : Journal) :
    Spec .worker Invariant (fun w log => w.dir.journal = some j ∧ ∃ verify earlier,
        log = verify :: earlier ∧ verify.label = .verify ∧ verify.answer.error = none)
      (saveResult (.accept j.nonce) (.accepted j.nonce)) (fun _ => Free) (WorkerError j) := by
  refine Spec.perform fun w log i hi hp => ?_
  obtain ⟨hj, verify, earlier, rfl, hlabel, hverified⟩ := hp
  refine ⟨⟨?_, ⟨verify, earlier, j, rfl, rfl, hlabel, hverified, hj, rfl⟩, hi.2⟩, ?_⟩
  · exact marked_save _ j _ i w _ hi hj nofun (.inl rfl)
  · cases ha : i.outcome (.ok ()) with
    | ok u =>
      obtain ⟨herror, -⟩ := outcome_value ha
      have hd : i.done = true := by rw [Answer.done, herror]; rfl
      show pendingMark _ = none
      rw [pendingMark, if_pos hd]
      rfl
    | error e =>
      by_cases hd : i.done = true
      · refine .inl ⟨?_, ?_⟩
        · rw [pendingMark, if_pos hd]
          rfl
        · obtain ⟨text, rfl⟩ := outcome_other ha
          exact nofun
      · rw [if_neg hd]
        exact .inr ⟨hj, outcome_other ha⟩

theorem kept_worker {execute : Script Phase} (hexecute : Harmless .worker execute) :
    Kept .worker (fun _ => True) (runTransactionWorker execute) := by
  refine Spec.bind ((spec_load (P := fun _ => True) _).weaken (fun _ _ _ _ h => h.2)
    fun _ _ _ _ _ => trivial) fun found => ?_
  cases found with
  | none =>
    refine Harmless.kept (P := fun w => none = w.dir.journal) ?_ fun w hw => hw.symm
    exact .bind (.see rfl _) fun _ => harmless_cleanupPendingLocked
  | some j =>
    have hverify : Spec .worker Invariant (fun w _ => some j = w.dir.journal) verifyWorker
        (fun _ w log => w.dir.journal = some j ∧ ∃ verify earlier, log = verify :: earlier ∧
          verify.label = .verify ∧ verify.answer.error = none) (WorkerError j) := by
      refine (spec_see rfl _).weaken ?_ fun _ _ _ _ h => .inr ⟨h.1.symm, h.2⟩
      intro _ w log _ h
      obtain ⟨hj, verify, earlier, hlog, hlabel, herror, -⟩ := h
      exact ⟨hj.symm, verify, earlier, hlog, hlabel, herror⟩
    have hexecute' : Spec .worker Invariant Free execute (fun _ => Free) (WorkerError j) :=
      hexecute.weaken (fun _ _ _ _ h => h) fun _ _ _ _ h => .inl h
    have hrun := Spec.bind hverify fun _ => Spec.bind (spec_accept j) fun _ => hexecute'
    refine Spec.bind (Spec.attempt hrun) fun outcome => ?_
    refine Spec.bind ((@spec_current j outcome j.nonce).strengthen fun w log _ h => ?_)
      fun owned => ?_
    · cases outcome with
      | ok phase | error e => exact h
    · refine Spec.ite (fun ho => ?_) fun _ => Spec.pure fun _ _ _ _ => trivial
      exact spec_publish.strengthen fun _ _ _ h => ⟨h.1 ho, h.2⟩

structure Host.Inv (h : Host) : Prop where
  invariant : Invariant h.world h.log
  running (job : Job) (p : Program) : h.running = some (job, p) →
    p.Safe job Invariant (fun _ _ _ => True) h.world h.log

theorem inv_enter (h : Host) (hi : h.Inv) (job : Job) (program : Script Unit)
    (hp : Kept job (fun _ => True) program) : (h.enter job program).Inv := by
  unfold Host.enter
  cases hr : h.running with
  | some running => exact hi
  | none =>
    refine ⟨hi.invariant, fun job' p hrun => ?_⟩
    cases hrun
    exact (hp h.world h.log hi.invariant trivial).weaken fun _ _ _ _ _ => trivial

theorem inv_continue (h : Host) (hi : h.Inv) (job : Job) (p : Program)
    (hr : h.running = some (job, p)) (i : Answer) : (h.continue job p i).Inv := by
  have hnext := (hi.running job p hr).next i
  unfold Host.continue
  refine ⟨hnext.invariant, fun job' p' hrun => ?_⟩
  dsimp only at hrun
  split at hrun
  · cases hrun
  · cases hrun
    exact hnext

theorem inv_step (h : Host) (a : Action) (hi : h.Inv) : (h.step a).Inv := by
  cases a with
  | prepare old version new nonce confirmedRetry =>
    refine inv_enter h hi .prepare _ ?_
    exact Spec.bind (kept_prepare old version new nonce confirmedRetry) fun _ =>
      Spec.pure fun _ _ _ _ => trivial
  | dispatch manual => exact inv_enter h hi _ _ (kept_dispatch manual)
  | cleanup => exact inv_enter h hi _ _ kept_cleanupRetired
  | worker => exact inv_enter h hi _ _ (kept_worker harmless_resumeLocked)
  | crash => exact ⟨hi.invariant, fun _ _ hrun => by cases hrun⟩
  | answer i =>
    unfold Host.step
    cases hr : h.running with
    | none => exact hi
    | some running => exact inv_continue h hi running.1 running.2 hr i

theorem Host.Reached.inv {h : Host} (hr : h.Reached) : h.Inv := by
  refine hr.invariant Host.Inv ?_ ?_
  · intro h ⟨world, hw⟩
    subst hw
    exact ⟨⟨fun _ hp => (by cases hp), trivial⟩, fun _ _ hrun => by cases hrun⟩
  · intro h t hi ⟨a, ha⟩
    subst ha
    exact inv_step h a hi

section
variable (attempt : String) (pid : ℕ)

def Poll.Says (state : String) (poll : Poll) : Prop :=
  ∃ response, poll.response = some response ∧ response.nonce = attempt ∧ response.pid = pid ∧
    response.state = state

/-- The daemon granted the drain and said later that it exits. -/
def Acknowledged (polls : List Poll) : Prop :=
  ∃ p q, [p, q].Sublist polls ∧ p.Says attempt pid "granted" ∧ q.Says attempt pid "exiting"

/-- What `awaitExit` has passed, with or without a grant before. -/
structure Passed (committed : Bool) (polls : List Poll) : Prop where
  running : committed = true → ∀ q ∈ polls, ¬ q.Says attempt pid "exiting"
  unacknowledged : ¬ Acknowledged attempt pid polls

def Refuses (reason : String) (poll : Poll) : Prop :=
  ∃ response, poll.response = some response ∧ response.nonce = attempt ∧ response.pid = pid ∧
    ((response.state = "busy" ∧ reason = response.reason) ∨
      (response.state = "expired" ∧ reason = "drain lease expired") ∨
      (response.state = "granted" ∧ reason = "stale drain grant" ∧
        (1000 ≤ poll.now - response.monotonicMs ∨
          response.remainingMs ≤ poll.now - response.monotonicMs + 5000)))

/-- One poll refuses before the drain is acknowledged, or none acknowledges it. -/
def Unanswered (committed : Bool) (reason : String) (polls : List Poll) : Prop :=
  (∃ before poll after, polls = before ++ poll :: after ∧ Passed attempt pid committed before ∧
    Refuses attempt pid reason poll) ∨
  (reason = "no drain acknowledgement" ∧ Passed attempt pid committed polls)

variable {attempt pid}

theorem Passed.nil (committed : Bool) : Passed attempt pid committed [] := by
  refine ⟨fun _ _ hq => absurd hq List.not_mem_nil, ?_⟩
  rintro ⟨p, q, hsub, -⟩
  cases hsub

theorem Passed.cons {committed later : Bool} {polls : List Poll} {poll : Poll}
    (h : Passed attempt pid later polls) (hlater : committed = true → later = true)
    (hexit : committed = true → ¬ poll.Says attempt pid "exiting")
    (hgrant : poll.Says attempt pid "granted" → later = true) :
    Passed attempt pid committed (poll :: polls) := by
  constructor
  · intro hcommitted q hq
    rcases List.mem_cons.mp hq with rfl | hq
    · exact hexit hcommitted
    · exact h.running (hlater hcommitted) q hq
  · rintro ⟨p, q, hsub, hp, hq⟩
    cases hsub with
    | cons _ hsub => exact h.unacknowledged ⟨p, q, hsub, hp, hq⟩
    | cons_cons _ hsub => exact h.running (hgrant hp) q (List.singleton_sublist.mp hsub) hq

theorem Unanswered.cons {committed later : Bool} {reason : String} {polls : List Poll} {poll : Poll}
    (h : Unanswered attempt pid later reason polls) (hlater : committed = true → later = true)
    (hexit : committed = true → ¬ poll.Says attempt pid "exiting")
    (hgrant : poll.Says attempt pid "granted" → later = true) :
    Unanswered attempt pid committed reason (poll :: polls) := by
  rcases h with ⟨before, p, after, rfl, hpassed, hrefuses⟩ | ⟨hreason, hpassed⟩
  · exact .inl ⟨poll :: before, p, after, rfl, hpassed.cons hlater hexit hgrant, hrefuses⟩
  · exact .inr ⟨hreason, hpassed.cons hlater hexit hgrant⟩

theorem Unanswered.head {committed : Bool} {reason : String} {poll : Poll} (polls : List Poll)
    (h : Refuses attempt pid reason poll) :
    Unanswered attempt pid committed reason (poll :: polls) :=
  .inl ⟨[], poll, polls, rfl, .nil committed, h⟩

theorem awaitExit_deferred (committed : Bool) (polls : List Poll) (reason : String)
    (h : awaitExit attempt pid committed polls = .error (.deferred reason)) :
    Unanswered attempt pid committed reason polls := by
  induction polls generalizing committed with
  | nil =>
    cases h
    exact .inr ⟨rfl, .nil committed⟩
  | cons poll rest ih =>
    unfold awaitExit at h
    cases hr : poll.response with
    | none =>
      rw [hr] at h
      have hsaid (state : String) : ¬ poll.Says attempt pid state := by
        rintro ⟨response, hresponse, -⟩
        cases hr.symm.trans hresponse
      exact (ih committed h).cons id (fun _ => hsaid _) fun hs => absurd hs (hsaid _)
    | some response =>
      rw [hr] at h
      dsimp only at h
      have hsaid (state : String) (hs : poll.Says attempt pid state) : response.state = state := by
        obtain ⟨other, hother, -, -, hstate⟩ := hs
        cases hr.symm.trans hother
        exact hstate
      by_cases hours : response.nonce = attempt ∧ response.pid = pid
      · rw [if_pos hours] at h
        by_cases hbusy : response.state = "busy"
        · rw [if_pos hbusy] at h
          cases h
          exact .head rest ⟨response, hr, hours.1, hours.2, .inl ⟨hbusy, rfl⟩⟩
        · rw [if_neg hbusy] at h
          by_cases hexpired : response.state = "expired"
          · rw [if_pos hexpired] at h
            cases h
            exact .head rest ⟨response, hr, hours.1, hours.2, .inr (.inl ⟨hexpired, rfl⟩)⟩
          · rw [if_neg hexpired] at h
            by_cases hgranted : response.state = "granted" ∧ ¬ committed
            · rw [if_pos hgranted] at h
              by_cases hlate : 1000 ≤ poll.now - response.monotonicMs ∨
                  response.remainingMs ≤ poll.now - response.monotonicMs + 5000
              · rw [if_pos hlate] at h
                cases h
                exact .head rest ⟨response, hr, hours.1, hours.2, .inr (.inr ⟨hgranted.1, rfl, hlate⟩)⟩
              · rw [if_neg hlate] at h
                exact (ih true h).cons (fun _ => rfl) (fun hc => absurd hc hgranted.2) fun _ => rfl
            · rw [if_neg hgranted] at h
              by_cases hexiting : response.state = "exiting" ∧ committed
              · rw [if_pos hexiting] at h
                cases h
              · rw [if_neg hexiting] at h
                refine (ih committed h).cons id ?_ ?_
                · exact fun hc hs => hexiting ⟨hsaid _ hs, hc⟩
                · intro hs
                  by_contra hc
                  exact hgranted ⟨hsaid _ hs, hc⟩
      · rw [if_neg hours] at h
        have hother (state : String) : ¬ poll.Says attempt pid state := by
          rintro ⟨other, hsome, hnonce, hpid, -⟩
          cases hr.symm.trans hsome
          exact hours ⟨hnonce, hpid⟩
        exact (ih committed h).cons id (fun _ => hother _) fun hs => absurd hs (hother _)

end

def Label.saved : Label → Option WorkerResult
  | mark nonce => some (.failure (some nonce) interrupted)
  | refuse r => some r
  | accept nonce => some (.accepted nonce)
  | publish _ r => some r
  | _ => none

structure Host.Confirmed (h : Host) : Prop where
  /-- An automatic dispatch submits only after it has saved its marker in a state in which no retry
  had to be confirmed. -/
  automatic (after before : Log) (e : Entry Job World Answer Label) :
    h.log = after ++ e :: before → e.label = .submit → e.who = .dispatch false →
      ∃ intent mark earlier j, before = intent :: mark :: earlier ∧ mark.label = .mark j.nonce ∧
        e.before.dir.journal = some j ∧ mark.before.dir.journal = some j ∧
        (∀ result, mark.before.dir.workerResult = some result → result.failed j = false) ∧
        rolledBackCandidate mark.before.dir.lastResult j.new = false
  /-- Nothing but a dispatch submits. -/
  submitted (after before : Log) (e : Entry Job World Answer Label) :
    h.log = after ++ e :: before → e.label = .submit → ∃ manual, e.who = .dispatch manual
  /-- From the marker to the acceptance, also after a crash, a retry has to be confirmed. -/
  refused (nonce : String) : pendingMark h.log = some nonce →
    ∃ j, h.world.dir.journal = some j ∧ j.nonce = nonce ∧ h.world.dir.requiresConfirmedRetry j = true
  /-- Only a verified worker accepts, the journal that is there. -/
  accepted (after before : Log) (e : Entry Job World Answer Label) (nonce : String) :
    h.log = after ++ e :: before → e.label = .accept nonce → e.who = .worker ∧
      (∃ verify earlier, before = verify :: earlier ∧ verify.label = .verify ∧
        verify.answer.error = none) ∧
      ∃ j, e.before.dir.journal = some j ∧ j.nonce = nonce
  /-- A worker publishes only about a journal that is there, or was retired last. -/
  published (after before : Log) (e : Entry Job World Answer Label) (nonce : String)
      (result : WorkerResult) :
    h.log = after ++ e :: before → e.label = .publish nonce result → e.who = .worker ∧
      result.nonce = some nonce ∧ Owned nonce e.before
  /-- A deferral comes from a drain that was not answered in time, or busy. -/
  deferred (after before : Log) (e : Entry Job World Answer Label) (result : WorkerResult) :
    h.log = after ++ e :: before → e.label.saved = some result → result.deferred = true →
      ∃ q ∈ before, q.label = .quiesce ∧ ∃ attempt pid polls reason,
        q.answer.drain = .asked attempt pid polls ∧ Unanswered attempt pid false reason polls ∧
          result.error = some (Error.deferred reason).text

theorem automatic_unconfirmed {d : Dir} {j : Journal} (h : d.requiresConfirmedRetry j = false) :
    (∀ r, d.workerResult = some r → r.failed j = false) ∧
      rolledBackCandidate d.lastResult j.new = false := by
  obtain ⟨hresult, hlast⟩ := Bool.or_eq_false_iff.mp h
  refine ⟨fun r hr => ?_, hlast⟩
  rw [hr] at hresult
  exact hresult

def sampleOld : Identity := ⟨⟨1, 0, 1⟩, "old", 1, 1⟩

def sampleNew : Identity := ⟨⟨1, 0, 2⟩, "new", 1, 2⟩

def sampleNonce : String := "0123456789abcdef0123456789abcdef0123456789abcdef0123456789abcdef"

def sampleHost : Host :=
  ⟨⟨⟨none, none, none, none, none, none⟩, (1, 1), "old", none, none, false⟩, none, []⟩

def answers (n : ℕ) : List Action := List.replicate n (.answer {})

def interruptedRun : List Action :=
  .prepare sampleOld ⟨1, 0, 2⟩ sampleNew sampleNonce false :: answers 11 ++
    .dispatch false :: answers 1

def unansweredRun : List Action :=
  .prepare sampleOld ⟨1, 0, 2⟩ sampleNew sampleNonce false :: answers 11 ++
    .dispatch false :: answers 6 ++ .worker :: answers 8 ++
    .answer { drain := .asked "attempt" 7 [] } :: answers 3

theorem run_reached (actions : List Action) : (actions.foldl Host.step sampleHost).Reached := by
  refine List.foldlRecOn actions Host.step (.start _ ⟨_, rfl⟩) ?_
  exact fun h hr a _ => hr.next h _ ⟨a, rfl⟩

end Rieul.RootUpdate.Transaction
