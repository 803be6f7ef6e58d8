import TwoPhaseCommit.Record.Frame

/-!
# Scanning a log

A scan reads frame after frame. What is damaged at the end of the log is a torn final append and is
only counted; damage that more data follow is an error, for it hides a decision.
-/

namespace TwoPhaseCommit

structure LogScan where
  records : List LogRecord
  /-- How many bytes their frames take. -/
  validLength : Nat
  /-- How many bytes follow the last whole frame. -/
  tornBytes : Nat
deriving DecidableEq

namespace LogScan

/-- The frames of a list of records, one after the other. -/
def frames (rs : List LogRecord) : Bytes := rs.flatMap Frame.encode

@[simp] theorem frames_nil : frames [] = [] := rfl

@[simp] theorem frames_cons (r : LogRecord) (rs : List LogRecord) :
    frames (r :: rs) = Frame.encode r ++ frames rs := rfl

@[simp] theorem frames_append (rs qs : List LogRecord) :
    frames (rs ++ qs) = frames rs ++ frames qs := by
  simp [frames]

/-- Whether a damaged frame at the front of `rest` is what a torn final append leaves: it claims to
reach the end, or nothing but zeros is left. -/
def isTorn (rest : Bytes) : Bool :=
  (Frame.declared? rest).all (rest.length ≤ ·) || rest.all (· == 0)

/-- Scan the bytes that follow `offset` in a file. -/
def scanFrom (offset : Nat) (rest : Bytes) : Except StorageError LogScan :=
  match rest with
  | [] => .ok ⟨[], offset, 0⟩
  | b :: bs =>
    match _h : Frame.decode (b :: bs) offset with
    | .ok (r, n) => do
      let scan ← scanFrom (offset + n) ((b :: bs).drop n)
      return { scan with records := r :: scan.records }
    | .error (.incomplete ..) => .ok ⟨[], offset, (b :: bs).length⟩
    | .error (.corruption c) =>
      if isTorn (b :: bs) then .ok ⟨[], offset, (b :: bs).length⟩ else .error (.corruption c)
    | .error e => .error e
termination_by rest.length
decreasing_by
  have := Frame.decode_size _h
  simp only [List.length_drop]
  simp only [List.length_cons] at this ⊢
  omega

def scan (buf : Bytes) : Except StorageError LogScan := scanFrom 0 buf

@[simp] theorem scan_nil : scan [] = .ok ⟨[], 0, 0⟩ := by
  simp [scan, scanFrom]

end LogScan

end TwoPhaseCommit
