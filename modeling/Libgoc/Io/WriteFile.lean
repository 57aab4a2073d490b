import Mathlib.Data.List.Basic

namespace Libgoc.Io.WriteFile

/-! # Writing a file -/

inductive Phase where
  | opening
  | writing
  | closing
deriving Repr, DecidableEq

/-- `goc_write_file_ctx_t`; `len` is the length of `raw`. -/
structure Ctx where
  state : Phase := .opening
  fd : Int := -1
  raw : List UInt8
  error : Int := 0
deriving Repr, DecidableEq

inductive Request where
  | uvFsOpen (path : List UInt8) (flags mode : Int)
  | uvFsWrite (fd : Int) (bytes : List UInt8)
  | uvFsClose (fd : Int)
deriving Repr, DecidableEq

inductive Turn where
  | issues (ctx : Ctx) (request : Request)
  | reports (status : Int)
deriving Repr, DecidableEq

/-- The length given to `uv_buf_init` is a cast to `unsigned int`. -/
def Ctx.uvbuf (ctx : Ctx) : List UInt8 :=
  ctx.raw.take (ctx.raw.length % 4294967296)

def onWriteFileStep (ctx : Ctx) (result : Int) : Turn :=
  match ctx.state with
  | .opening =>
    if result < 0 then .reports result
    else .issues { ctx with fd := result, state := .writing } (.uvFsWrite result ctx.uvbuf)
  | .writing =>
    .issues { ctx with error := if result < 0 then result else 0, state := .closing }
      (.uvFsClose ctx.fd)
  | .closing => .reports ctx.error

/-- `rc` is what `uv_fs_open` returns at once, and `data` are the bytes before the
terminator. -/
def writeFileImpl (path data : List UInt8) (openFlags rc : Int) : Turn :=
  if rc < 0 then .reports rc else .issues { raw := data } (.uvFsOpen path openFlags 0o644)

def gocIoFsWriteFile (path data : List UInt8) (flags rc : Int) : Turn :=
  writeFileImpl path data flags rc

/-- `UV_FS_O_WRONLY | UV_FS_O_CREAT | UV_FS_O_APPEND`. -/
def appendFlags : Nat :=
  0o1 ||| 0o100 ||| 0o2000

def gocIoFsAppendFile (path data : List UInt8) (rc : Int) : Turn :=
  writeFileImpl path data appendFlags rc

def Request.stored : Request → Int → List UInt8
  | .uvFsWrite _ bytes, result => bytes.take result.toNat
  | _, _ => []

/-- A write stores no more than it was given. -/
def Request.MayGive : Request → Int → Prop
  | .uvFsWrite _ bytes, result => result ≤ bytes.length
  | _, _ => True

/-- The status that is reported and the bytes that are written before. -/
def run : Turn → List Int → Option (Int × List UInt8)
  | .reports status, _ => some (status, [])
  | .issues _ _, [] => none
  | .issues ctx request, result :: rest =>
    match run (onWriteFileStep ctx result) rest with
    | some (status, written) => some (status, request.stored result ++ written)
    | none => none

/-- The results answer all requests up to the report. -/
def Given : Turn → List Int → Prop
  | .reports _, results => results = []
  | .issues _ _, [] => False
  | .issues ctx request, result :: rest =>
    request.MayGive result ∧ Given (onWriteFileStep ctx result) rest

/-- A write that does not fail stores all bytes, and the close does not fail. -/
def Complete (data : List UInt8) (results : List Int) : Prop :=
  ∀ opened wrote closed, results = [opened, wrote, closed] → 0 ≤ wrote →
    wrote = data.length ∧ 0 ≤ closed

variable {path data : List UInt8} {flags rc : Int} {results : List Int}

/-- The calls end in a failed open or after all three requests. -/
theorem Given.cases (given : Given (writeFileImpl path data flags rc) results) :
    (rc < 0 ∧ results = []) ∨ (0 ≤ rc ∧ ∃ opened : Int, opened < 0 ∧ results = [opened]) ∨
      (0 ≤ rc ∧ ∃ opened wrote closed : Int, 0 ≤ opened ∧
        wrote ≤ (Ctx.uvbuf { raw := data }).length ∧ results = [opened, wrote, closed]) := by
  unfold writeFileImpl at given
  split at given
  next failed => exact .inl ⟨failed, by simpa [Given] using given⟩
  next submitted =>
    right
    cases results with
    | nil => exact given.elim
    | cons opened rest =>
      obtain ⟨_, given⟩ := given
      simp only [onWriteFileStep] at given
      split at given
      next failed => exact .inl ⟨by omega, opened, failed, by simpa [Given] using given⟩
      next succeeded =>
        obtain _ | ⟨wrote, _ | ⟨closed, _ | _⟩⟩ := rest
        · exact given.elim
        · exact given.2.elim
        · exact .inr ⟨by omega, opened, wrote, closed, by omega, given.1, rfl⟩
        · cases given.2.2

theorem run_open_fails (submitted : 0 ≤ rc) (failed : opened < 0) :
    run (writeFileImpl path data flags rc) [opened] = some (opened, []) := by
  simp [writeFileImpl, run, onWriteFileStep, Request.stored, Int.not_lt.mpr submitted, failed]

theorem run_all (submitted : 0 ≤ rc) (succeeded : 0 ≤ opened) :
    run (writeFileImpl path data flags rc) [opened, wrote, closed] =
      some (if wrote < 0 then wrote else 0, (Ctx.uvbuf { raw := data }).take wrote.toNat) := by
  simp [writeFileImpl, run, onWriteFileStep, Request.stored, Int.not_lt.mpr submitted,
    Int.not_lt.mpr succeeded, Ctx.uvbuf]

theorem take_uvbuf {wrote : Int} (bound : wrote ≤ (Ctx.uvbuf { raw := data }).length)
    (stored : 0 ≤ wrote) :
    (Ctx.uvbuf { raw := data }).take wrote.toNat = data ↔ wrote = data.length := by
  simp only [Ctx.uvbuf, List.length_take, List.take_take] at bound ⊢
  rw [Nat.min_eq_left (by omega)]
  constructor
  · intro same
    have sameLength := congrArg List.length same
    rw [List.length_take] at sameLength
    omega
  · intro all
    exact List.take_of_length_le (by omega)

theorem complete_all : Complete data [opened, wrote, closed] ↔
    (0 ≤ wrote → wrote = data.length ∧ 0 ≤ closed) := by
  simp [Complete]

/-- A status of 0 means that all bytes are written, and every error is reported,
exactly where the only write request stores all bytes and the close succeeds. -/
theorem reported_status_truthful (turn : Turn) (flags : Int)
    (call : turn = gocIoFsWriteFile path data flags rc ∨ turn = gocIoFsAppendFile path data rc)
    (given : Given turn results) :
    (∃ status written, run turn results = some (status, written) ∧
        (status = 0 → written = data) ∧
        (rc < 0 ∨ (∃ result ∈ results, result < 0) → status < 0)) ↔
      Complete data results := by
  obtain ⟨flags, rfl⟩ : ∃ flags, turn = writeFileImpl path data flags rc := by
    obtain same | same := call
    · exact ⟨flags, same⟩
    · exact ⟨appendFlags, same⟩
  obtain ⟨failed, rfl⟩ | ⟨submitted, opened, failed, rfl⟩ |
    ⟨submitted, opened, wrote, closed, succeeded, bound, rfl⟩ := given.cases
  · simp [writeFileImpl, run, failed, Complete, Int.ne_of_lt failed]
  · simp [run_open_fails submitted failed, failed, Complete, Int.ne_of_lt failed]
  · rw [run_all submitted succeeded, complete_all]
    by_cases stored : 0 ≤ wrote
    · simp [Int.not_lt.mpr stored, Int.not_lt.mpr submitted, Int.not_lt.mpr succeeded, stored,
        take_uvbuf bound stored]
    · simp [stored, Int.lt_of_not_ge stored, Int.ne_of_lt (Int.lt_of_not_ge stored)]

theorem whole_write_truthful :
    ∃ status written, run (gocIoFsAppendFile [47, 97] [104, 105] 0) [3, 2, 0] =
        some (status, written) ∧ (status = 0 → written = [104, 105]) ∧
      ((0 : Int) < 0 ∨ (∃ result ∈ ([3, 2, 0] : List Int), result < 0) → status < 0) := by
  apply (reported_status_truthful _ 0 (.inr rfl) _).mpr
  · intro opened wrote closed same _
    cases same
    decide
  · exact ⟨trivial, by simp [Request.MayGive, Ctx.uvbuf], trivial, rfl⟩

/-- A write that stores one of two bytes is reported as a success, and so is a failed
close. -/
theorem short_write_reports_success :
    Given (gocIoFsWriteFile [47, 97] [104, 105] 577 0) [3, 1, 0] ∧
      run (gocIoFsWriteFile [47, 97] [104, 105] 577 0) [3, 1, 0] = some (0, [104]) ∧
      Given (gocIoFsWriteFile [47, 97] [104, 105] 577 0) [3, 2, -5] ∧
      run (gocIoFsWriteFile [47, 97] [104, 105] 577 0) [3, 2, -5] = some (0, [104, 105]) :=
  ⟨⟨trivial, by simp [Request.MayGive, Ctx.uvbuf], trivial, rfl⟩, rfl,
    ⟨trivial, by simp [Request.MayGive, Ctx.uvbuf], trivial, rfl⟩, rfl⟩

end Libgoc.Io.WriteFile
