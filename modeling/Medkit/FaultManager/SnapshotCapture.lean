import Medkit.Lib.InFlight
import Medkit.FaultManager.CaptureStorage

/-! Snapshot captures run on pool workers while the service thread reports and
clears faults. A capture samples its topics, reads the status of the fault once, and
then stores its rows or drops them; each storage call is atomic, and anything may
happen between two of them. -/
namespace Medkit.FaultManager

open Lib

/-! ## Captures -/

inductive CapturePhase where
  | sampling
  /-- the status has been read, the rows go to the store next -/
  | accepted
  /-- acknowledged while the capture ran -/
  | dropped
deriving DecidableEq

structure Capture where
  faultCode : Str
  rows : List SnapshotData := []
  phase : CapturePhase := .sampling
  /-- A clear of the fault has returned since the capture started. Nothing the program
  does depends on it. -/
  overtaken : Bool := false

structure CaptureState (σ : Type) where
  storage : σ
  /-- numbered by `capture_seq_` -/
  captures : InFlight Capture

inductive CaptureOp where
  | start (faultCode : Str)
  | sampleTopic (id : Nat) (topic messageType data : Str) (capturedAtNs : Int)
  | readStatus (id : Nat)
  | finish (id : Nat)
  | reportFaultEvent (r : FaultReport)
  | clearFault (faultCode : Str)

def CaptureOp.clears (faultCode : Str) : CaptureOp → Bool
  | .clearFault cleared => cleared = faultCode
  | _ => false

inductive CaptureReply where
  | none
  | started (id : Nat)
  | stored (id : Nat) (faultCode : Str) (rows : List SnapshotData)
deriving DecidableEq

namespace Capture

def sampled (capture : Capture) (topic messageType data : Str) (capturedAtNs : Int) : Capture :=
  match capture.phase with
  | .sampling =>
      { capture with
        rows := capture.rows ++ [{
          faultCode := capture.faultCode
          topic := topic
          messageType := messageType
          data := data
          capturedAtNs := capturedAtNs
          captureId := 0 }] }
  | _ => capture

/-- Absent is not cleared. -/
def decided (capture : Capture) (status : Option FaultStatus) (retains : Bool) : Capture :=
  match capture.phase with
  | .sampling =>
      let acknowledgedMidCapture := status = some .cleared
      { capture with phase := if acknowledgedMidCapture && !retains then .dropped else .accepted }
  | _ => capture

def overtakenBy (cleared : Str) (capture : Capture) : Capture :=
  { capture with overtaken := capture.overtaken || cleared = capture.faultCode }

def batch (capture : Capture) (id : Nat) : List SnapshotData :=
  capture.rows.map fun row => { row with captureId := id }

end Capture

def captureStep {σ : Type} (storage : SnapshotStorage σ) (st : CaptureState σ) :
    CaptureOp → CaptureState σ × CaptureReply
  | .start faultCode =>
      ({ st with captures := st.captures.start { faultCode := faultCode } },
        .started (st.captures.last + 1))
  | .sampleTopic id topic messageType data capturedAtNs =>
      ({ st with captures := st.captures.update id (·.sampled topic messageType data capturedAtNs) },
        .none)
  | .readStatus id =>
      ({ st with
          captures := st.captures.update id fun capture =>
            capture.decided (storage.status st.storage capture.faultCode)
              (storage.retainsSnapshotsOnClear st.storage) },
        .none)
  | .finish id =>
      match st.captures.calls[id]? with
      | none => (st, .none)
      | some capture =>
          match capture.phase with
          | .sampling => (st, .none)
          | .dropped => ({ st with captures := st.captures.finish id }, .none)
          | .accepted =>
              ({ storage := storage.storeSnapshots st.storage (capture.batch id)
                 captures := st.captures.finish id },
                .stored id capture.faultCode (capture.batch id))
  | .reportFaultEvent r =>
      ({ st with storage := storage.reportFaultEvent st.storage r }, .none)
  | .clearFault faultCode =>
      ({ storage := (storage.clearFault st.storage faultCode).1
         captures := st.captures.map (·.overtakenBy faultCode) }, .none)

/-- `captureSeq` is the largest capture id the store held at startup. -/
def captureMachine {σ : Type} (storage : SnapshotStorage σ) (store : σ) (captureSeq : Nat) :
    Machine (CaptureState σ) CaptureOp CaptureReply where
  init := { storage := store, captures := { last := captureSeq } }
  step := captureStep storage

abbrev CaptureEvent (σ : Type) := Event (CaptureState σ) CaptureOp CaptureReply

def clearedSince {σ : Type} (id : Nat) (faultCode : Str) : List (CaptureEvent σ) → Bool
  | [] => false
  | event :: older =>
      if event.out = .started id then false
      else event.op.clears faultCode || clearedSince id faultCode older

/-! ## Which captures store their rows -/

/-- What keeps the promise of a clear: no clear lands between the status read of a
capture of its fault and the store, none is for a fault the store does not have, and
no FAILED report reactivates the fault while a capture that the clear overtook has
not read the status. -/
def CaptureOp.Undisturbed {σ : Type} (storage : SnapshotStorage σ) (st : CaptureState σ) :
    CaptureOp → Prop
  | .clearFault faultCode => st.captures.All fun _ capture => capture.faultCode = faultCode →
      capture.phase ≠ .accepted ∧ (storage.getFault st.storage faultCode).isSome
  | .reportFaultEvent r => r.isFailed → st.captures.All fun _ capture =>
      capture.faultCode = r.faultCode → capture.overtaken → capture.phase ≠ .sampling
  | _ => True

instance CaptureOp.decidableUndisturbed {σ : Type} (storage : SnapshotStorage σ)
    (st : CaptureState σ) (op : CaptureOp) :
    Decidable (op.Undisturbed storage st) := by
  cases op <;> unfold CaptureOp.Undisturbed <;> infer_instance

structure Capture.Kept {σ : Type} (storage : SnapshotStorage σ) (store : σ)
    (history : List (CaptureEvent σ)) (id : Nat) (capture : Capture) : Prop where
  overtaken : capture.overtaken = clearedSince id capture.faultCode history
  sampling : capture.phase = .sampling → capture.overtaken →
    storage.status store capture.faultCode = some .cleared
  accepted : capture.phase = .accepted → capture.overtaken = false

section
variable {σ : Type} {storage : SnapshotStorage σ} {store store' : σ} {st : CaptureState σ}
  {history : List (CaptureEvent σ)} {event : CaptureEvent σ} {id : Nat} {capture : Capture}

theorem clearedSince_cons (hstarted : event.out ≠ .started id) (faultCode : Str) :
    clearedSince id faultCode (event :: history) =
      (event.op.clears faultCode || clearedSince id faultCode history) := by
  rw [clearedSince, if_neg hstarted]

theorem Capture.Kept.frame (h : capture.Kept storage store history id)
    (hstarted : event.out ≠ .started id) (hclears : event.op.clears capture.faultCode = false)
    (hstatus : capture.phase = .sampling → capture.overtaken →
      storage.status store capture.faultCode = some .cleared →
      storage.status store' capture.faultCode = some .cleared) :
    capture.Kept storage store' (event :: history) id where
  overtaken := by rw [clearedSince_cons hstarted, hclears, Bool.false_or, h.overtaken]
  sampling hphase hover := hstatus hphase hover (h.sampling hphase hover)
  accepted := h.accepted

structure CapturesKept (storage : SnapshotStorage σ) (history : List (CaptureEvent σ))
    (st : CaptureState σ) : Prop where
  retains : storage.retainsSnapshotsOnClear st.storage = false
  captures : st.captures.All (Capture.Kept storage st.storage history)

theorem Capture.Kept.sampled (h : capture.Kept storage store history id)
    (topic messageType data : Str) (capturedAtNs : Int) :
    (capture.sampled topic messageType data capturedAtNs).Kept storage store history id := by
  unfold Capture.sampled
  split
  · exact ⟨h.overtaken, h.sampling, h.accepted⟩
  · exact h

theorem Capture.Kept.decided (h : capture.Kept storage store history id) :
    (capture.decided (storage.status store capture.faultCode) false).Kept storage store history
      id := by
  unfold Capture.decided
  split
  · rename_i hphase
    refine ⟨h.overtaken, fun hsampling => ?_, fun haccepted => ?_⟩
    · dsimp only at hsampling
      split at hsampling <;> cases hsampling
    · cases hover : capture.overtaken with
      | false => rfl
      | true => simp [h.sampling hphase hover] at haccepted
  · exact h

theorem Capture.Kept.overtakenBy {faultCode : Str} (h : capture.Kept storage store history id)
    (hevent : event.op = .clearFault faultCode) (hstarted : event.out ≠ .started id)
    (hphase : capture.faultCode = faultCode → capture.phase ≠ .accepted)
    (hsame : capture.faultCode = faultCode → storage.status store' faultCode = some .cleared)
    (hother : faultCode ≠ capture.faultCode →
      storage.status store' capture.faultCode = storage.status store capture.faultCode) :
    (capture.overtakenBy faultCode).Kept storage store' (event :: history) id where
  overtaken := by
    rw [clearedSince_cons hstarted, hevent]
    exact (Bool.or_comm _ _).trans (congrArg _ h.overtaken)
  sampling hsampling hover := by
    by_cases hcode : capture.faultCode = faultCode
    · exact (congrArg _ hcode).trans (hsame hcode)
    · have hbefore : capture.overtaken := by
        simpa [Capture.overtakenBy, Ne.symm hcode] using hover
      exact (hother (Ne.symm hcode)).trans (h.sampling hsampling hbefore)
  accepted haccepted := by
    have hcode : faultCode ≠ capture.faultCode := fun hcode => hphase hcode.symm haccepted
    simpa [Capture.overtakenBy, hcode] using h.accepted haccepted

theorem finish_cases (storage : SnapshotStorage σ) (st : CaptureState σ) (id : Nat) :
    captureStep storage st (.finish id) = (st, .none) ∨
      captureStep storage st (.finish id) =
        ({ st with captures := st.captures.finish id }, .none) ∨
      ∃ capture, st.captures.calls[id]? = some capture ∧ capture.phase = .accepted ∧
        captureStep storage st (.finish id) =
          ({ storage := storage.storeSnapshots st.storage (capture.batch id)
             captures := st.captures.finish id },
            .stored id capture.faultCode (capture.batch id)) := by
  simp only [captureStep]
  cases hcall : st.captures.calls[id]? with
  | none => exact .inl rfl
  | some capture =>
    dsimp only
    cases hphase : capture.phase with
    | sampling => exact .inl rfl
    | dropped => exact .inr (.inl rfl)
    | accepted => exact .inr (.inr ⟨capture, rfl, hphase, rfl⟩)

theorem finish_ne_started (st : CaptureState σ) (id : Nat) {other : Nat} :
    (captureStep storage st (.finish id)).2 ≠ .started other := by
  obtain heq | heq | ⟨capture, -, -, heq⟩ := finish_cases storage st id <;> rw [heq] <;> nofun

theorem stored_inv {op : CaptureOp} {faultCode : Str} {rows : List SnapshotData}
    (h : (captureStep storage st op).2 = .stored id faultCode rows) :
    ∃ capture, st.captures.calls[id]? = some capture ∧ capture.phase = .accepted ∧
      capture.faultCode = faultCode := by
  cases op with
  | finish id' =>
    obtain heq | heq | ⟨capture, hcall, hphase, heq⟩ := finish_cases storage st id'
    · rw [heq] at h
      cases h
    · rw [heq] at h
      cases h
    · rw [heq] at h
      cases h
      exact ⟨capture, hcall, hphase, rfl⟩
  | _ => cases h

theorem CapturesKept.framed (h : CapturesKept storage history st) (event : CaptureEvent σ)
    (hstarted : ∀ id, event.out ≠ .started id)
    (hclears : ∀ faultCode, event.op.clears faultCode = false) :
    st.captures.All (Capture.Kept storage st.storage (event :: history)) :=
  h.captures.imp fun id capture _ hkept =>
    hkept.frame (hstarted id) (hclears capture.faultCode) fun _ _ hcleared => hcleared

theorem CapturesKept.step (hlawful : storage.Lawful) {op : CaptureOp}
    (hop : op.Undisturbed storage st) (h : CapturesKept storage history st) :
    CapturesKept storage (⟨st, op, (captureStep storage st op).2⟩ :: history)
      (captureStep storage st op).1 := by
  cases op with
  | start faultCode =>
    refine ⟨h.retains, InFlight.All.start ?_ ?_⟩
    · refine h.captures.imp fun id capture hcall hkept => ?_
      refine hkept.frame ?_ rfl fun _ _ hcleared => hcleared
      have hle := st.captures.le_last id capture hcall
      simp only [captureStep, ne_eq, CaptureReply.started.injEq]
      omega
    · refine ⟨?_, fun _ hover => (nomatch hover), fun _ => rfl⟩
      simp [clearedSince, captureStep]
  | sampleTopic id topic messageType data capturedAtNs =>
    have hframe := h.framed
      ⟨st, .sampleTopic id topic messageType data capturedAtNs, .none⟩
      (fun _ => by nofun) fun _ => rfl
    refine ⟨h.retains, hframe.update fun capture hcall => ?_⟩
    exact (hframe id capture hcall).sampled topic messageType data capturedAtNs
  | readStatus id =>
    have hframe := h.framed ⟨st, .readStatus id, .none⟩ (fun _ => by nofun) fun _ => rfl
    refine ⟨h.retains, hframe.update fun capture hcall => ?_⟩
    rw [h.retains]
    exact (hframe id capture hcall).decided
  | finish id =>
    have hframe := h.framed ⟨st, .finish id, (captureStep storage st (.finish id)).2⟩
      (fun _ => finish_ne_started st id) fun _ => rfl
    obtain heq | heq | ⟨capture, -, -, heq⟩ := finish_cases storage st id
    · rw [heq] at hframe ⊢
      exact ⟨h.retains, hframe⟩
    · rw [heq] at hframe ⊢
      exact ⟨h.retains, hframe.finish id⟩
    · rw [heq] at hframe ⊢
      refine ⟨(hlawful.retains_store _ _).trans h.retains, InFlight.All.finish ?_ id⟩
      refine hframe.imp fun other capture _ hkept => ⟨hkept.overtaken, ?_, hkept.accepted⟩
      intro hsampling hover
      exact (hlawful.status_store _ _ _).trans (hkept.sampling hsampling hover)
  | reportFaultEvent r =>
    refine ⟨(hlawful.retains_report st.storage r).trans h.retains, ?_⟩
    refine h.captures.imp fun id capture hcall hkept => ?_
    apply hkept.frame (by nofun) rfl
    intro hsampling hover hcleared
    by_cases hcode : r.faultCode = capture.faultCode
    · -- a FAILED report would have found an overtaken capture before its read
      have hpassed : r.isFailed = false := by
        by_contra hfailed
        exact hop (by simpa using hfailed) id capture hcall hcode.symm hover hsampling
      rw [← hcode] at hcleared ⊢
      exact hlawful.status_report_passed st.storage r hpassed hcleared
    · exact (hlawful.status_report_of_ne st.storage r _ hcode).trans hcleared
  | clearFault faultCode =>
    refine ⟨(hlawful.retains_clear st.storage faultCode).trans h.retains, InFlight.All.map ?_⟩
    refine h.captures.imp fun id capture hcall hkept => ?_
    apply hkept.overtakenBy rfl (by nofun)
    · intro hcode
      exact (hop id capture hcall hcode).1
    · intro hcode
      exact hlawful.status_clear st.storage faultCode (hop id capture hcall hcode).2
    · intro hcode
      exact hlawful.status_clear_of_ne st.storage faultCode _ hcode

/-- Undisturbed captures store nothing for a fault that was cleared after they
started. -/
theorem overtaken_capture_stores_nothing (hlawful : storage.Lawful) (store : σ) (captureSeq : Nat)
    (hretain : storage.retainsSnapshotsOnClear store = false)
    (hrun : (captureMachine storage store captureSeq).Runs
      (fun st op => op.Undisturbed storage st) history st) :
    ∀ event earlier, event :: earlier <:+ history → ∀ id faultCode rows,
      event.out = .stored id faultCode rows → clearedSince id faultCode earlier = false := by
  suffices h : CapturesKept storage history st ∧
      ∀ event earlier, event :: earlier <:+ history → ∀ id faultCode rows,
        event.out = .stored id faultCode rows → clearedSince id faultCode earlier = false from h.2
  refine hrun.invariant (fun history st => CapturesKept storage history st ∧
      ∀ event earlier, event :: earlier <:+ history → ∀ id faultCode rows,
        event.out = .stored id faultCode rows → clearedSince id faultCode earlier = false)
    ⟨⟨hretain, fun id capture hcall => ?_⟩, fun event earlier hsuffix => ?_⟩ ?_
  · simp [captureMachine] at hcall
  · simp at hsuffix
  · intro history st op _ hop ⟨hkept, hstored⟩
    refine ⟨hkept.step hlawful hop, fun event earlier hsuffix id faultCode rows hout => ?_⟩
    rcases List.suffix_cons_iff.mp hsuffix with hlast | hbefore
    · obtain ⟨rfl, rfl⟩ := List.cons.inj hlast
      obtain ⟨capture, hcall, hphase, rfl⟩ := stored_inv hout
      have hcapture := hkept.captures id capture hcall
      exact hcapture.overtaken.symm.trans (hcapture.accepted hphase)
    · exact hstored event earlier hbefore id faultCode rows hout

end

def motorCode : Str := str "MOTOR_TEMP"

def sampleMotor (id : Nat) : CaptureOp :=
  .sampleTopic id (str "/motor/temp") (str "sensor_msgs/msg/Temperature") (str "71.5") 7

/-- The first capture is overtaken and drops its row, the second stores. -/
theorem overtaken_capture_stores_nothing_twice :
    let machine := captureMachine inMemorySnapshotStorage {} 0
    let ops : List CaptureOp :=
      [.reportFaultEvent (nearMissReport (str "hot")), .start motorCode, sampleMotor 1,
        .clearFault motorCode, .readStatus 1, .finish 1,
        .reportFaultEvent (nearMissReport (str "hot")), .start motorCode, sampleMotor 2,
        .readStatus 2, .finish 2]
    (machine.exec machine.init ops).storage.snapshots.map (·.captureId) = [2] ∧
      ∀ event earlier, event :: earlier <:+ machine.history [] machine.init ops →
        ∀ id faultCode rows, event.out = .stored id faultCode rows →
          clearedSince id faultCode earlier = false := by
  intro machine ops
  have hops : machine.Guarded (fun st op => op.Undisturbed inMemorySnapshotStorage st)
      machine.init ops := by decide
  exact ⟨by decide, overtaken_capture_stores_nothing inMemorySnapshotStorage_lawful {} 0 rfl
    (Machine.Runs.start.exec ops hops)⟩

/-- A clear between the status read and the store is overtaken by the rows: they
are stored after it and stay. -/
theorem rows_stored_after_clear :
    let machine := captureMachine inMemorySnapshotStorage {} 0
    let ops : List CaptureOp :=
      [.reportFaultEvent (nearMissReport (str "hot")), .start motorCode, sampleMotor 1,
        .readStatus 1, .clearFault motorCode]
    let st := machine.exec machine.init ops
    clearedSince 1 motorCode (machine.history [] machine.init ops) = true ∧
      (∃ rows, rows ≠ [] ∧ (machine.step st (.finish 1)).2 = .stored 1 motorCode rows) ∧
      (machine.step st (.finish 1)).1.storage.snapshots.map (·.captureId) = [1] := by
  intro machine ops st
  exact ⟨by decide, ⟨_, by decide, rfl⟩, by decide⟩

end Medkit.FaultManager
