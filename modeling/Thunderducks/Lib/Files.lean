import Mathlib.Data.List.TakeDrop
import Mathlib.Logic.Function.Basic
import Thunderducks.Lib.Json

/-!
# Files — file system calls and replacing a file by rename

A sequence of calls stops at the first one that fails, and what the failing call did in part stays
behind.  `perform` runs such a sequence with a fault at any call; the same files are left when the
process dies there.  `atomicWriteBytes` writes another path and renames it over the file, so the file
itself is replaced as a whole or not at all.
-/

namespace Thunderducks
namespace Lib

/-- The contents of the files, by path. -/
abbrev Files : Type := String → Option Bytes

inductive FileOp
  | createDirAll
  /-- `File::create`: an existing file is cut to nothing. -/
  | create (path : String)
  | writeAll (path : String) (bytes : Bytes)
  | syncAll (path : String)
  | rename (source target : String)

/-- Where a sequence of calls stops: the number of calls that succeed before, how much of a failing
write is put out, and the text of the error. -/
structure Fault where
  done : Nat
  part : Nat
  error : String

namespace FileOp

variable {fs : Files} {ops : List FileOp} {path : String}

/-- What a call does. -/
def apply (fs : Files) : FileOp → Files
  | .createDirAll => fs
  | .create p => Function.update fs p (some [])
  | .writeAll p bs => Function.update fs p ((fs p).map fun old => old ++ bs)
  | .syncAll _ => fs
  | .rename p q => Function.update (Function.update fs q (fs p)) p none

/-- What a call leaves behind when it fails. -/
def fail (fs : Files) (part : Nat) : FileOp → Files
  | .writeAll p bs => Function.update fs p ((fs p).map fun old => old ++ bs.take part)
  | _ => fs

/-- The files after calls that all succeed. -/
def applyAll (fs : Files) (ops : List FileOp) : Files :=
  ops.foldl apply fs

/-- One call after the other, up to the fault. -/
def perform (fs : Files) : List FileOp → Option Fault → Except String Unit × Files
  | [], _ => (.ok (), fs)
  | op :: ops, none => perform (op.apply fs) ops none
  | op :: ops, some fault =>
      match fault.done with
      | 0 => (.error fault.error, op.fail fs fault.part)
      | n + 1 => perform (op.apply fs) ops (some { fault with done := n })

/-- The call has nothing to do with a path. -/
def Spares (path : String) : FileOp → Prop
  | .createDirAll => True
  | .create p => p ≠ path
  | .writeAll p _ => p ≠ path
  | .syncAll _ => True
  | .rename p q => p ≠ path ∧ q ≠ path

theorem apply_spares {op : FileOp} (h : op.Spares path) : op.apply fs path = fs path := by
  cases op with
  | createDirAll => rfl
  | create p => exact Function.update_of_ne (Ne.symm h) _ _
  | writeAll p bs => exact Function.update_of_ne (Ne.symm h) _ _
  | syncAll p => rfl
  | rename p q =>
      calc
        Function.update (Function.update fs q (fs p)) p none path
            = Function.update fs q (fs p) path := Function.update_of_ne (Ne.symm h.1) _ _
        _ = fs path := Function.update_of_ne (Ne.symm h.2) _ _

/-- What is renamed stands under the new path. -/
theorem apply_rename {source target : String} (h : source ≠ target) :
    (rename source target).apply fs target = fs source := by
  calc
    Function.update (Function.update fs target (fs source)) source none target
        = Function.update fs target (fs source) target := Function.update_of_ne (Ne.symm h) _ _
    _ = fs source := Function.update_self _ _ _

theorem fail_spares {op : FileOp} {part : Nat} (h : op.Spares path) :
    op.fail fs part path = fs path := by
  cases op with
  | writeAll p bs => exact Function.update_of_ne (Ne.symm h) _ _
  | _ => rfl

theorem applyAll_spares (h : ∀ op ∈ ops, op.Spares path) : applyAll fs ops path = fs path := by
  induction ops generalizing fs with
  | nil => rfl
  | cons op ops ih =>
      have hop : op.apply fs path = fs path := apply_spares (h op (by simp))
      exact (ih fun o ho => h o (List.mem_cons_of_mem _ ho)).trans hop

/-- A sequence that reports success did all its calls. -/
theorem perform_ok {fault : Option Fault} (h : (perform fs ops fault).1 = .ok ()) :
    (perform fs ops fault).2 = applyAll fs ops := by
  induction ops generalizing fs fault with
  | nil => rfl
  | cons op ops ih =>
      cases fault with
      | none => exact ih h
      | some f =>
          rcases f with ⟨n, part, e⟩
          cases n with
          | zero => cases h
          | succ n => exact ih h

/-- Without a fault there is no error. -/
theorem perform_none (fs : Files) (ops : List FileOp) : (perform fs ops none).1 = .ok () := by
  induction ops generalizing fs with
  | nil => rfl
  | cons op ops ih => exact ih _

/-- One that reports an error did some of them, and part of the next. -/
theorem perform_error {fault : Option Fault} {e : String}
    (h : (perform fs ops fault).1 = .error e) :
    ∃ before op after part, ops = before ++ op :: after ∧
      (perform fs ops fault).2 = op.fail (applyAll fs before) part := by
  induction ops generalizing fs fault with
  | nil => cases h
  | cons op ops ih =>
      cases fault with
      | none =>
          rcases ih h with ⟨before, op', after, part, rfl, hfs⟩
          exact ⟨op :: before, op', after, part, rfl, hfs⟩
      | some f =>
          rcases f with ⟨n, part, e'⟩
          cases n with
          | zero => exact ⟨[], op, ops, part, rfl, rfl⟩
          | succ n =>
              rcases ih h with ⟨before, op', after, part', rfl, hfs⟩
              exact ⟨op :: before, op', after, part', rfl, hfs⟩

/-- A path that every call spares is left alone, wherever the sequence stops. -/
theorem perform_spares {fault : Option Fault} (h : ∀ op ∈ ops, op.Spares path) :
    (perform fs ops fault).2 path = fs path := by
  cases hout : (perform fs ops fault).1 with
  | ok _ =>
      rw [perform_ok hout]
      exact applyAll_spares h
  | error e =>
      rcases perform_error hout with ⟨before, op, after, part, rfl, hfs⟩
      have hop : op.Spares path := h op (by simp)
      have hbefore : ∀ o ∈ before, o.Spares path := fun o ho => h o (by simp [ho])
      rw [hfs, fail_spares hop]
      exact applyAll_spares hbefore

end FileOp

/-! ## Replacing a file -/

/-- The body with a newline at its end. -/
def terminated (body : Bytes) : Bytes :=
  if body.getLast? = some 10 then body else body ++ [10]

/-- The calls that fill the other path. -/
def fillBytes (tmp : String) (body : Bytes) : List FileOp :=
  [.create tmp, .writeAll tmp body] ++
    (if body.getLast? = some 10 then [] else [.writeAll tmp [10]]) ++ [.syncAll tmp]

/-- `atomic_write_bytes`. -/
def atomicWriteBytes (tmp path : String) (body : Bytes) : List FileOp :=
  fillBytes tmp body ++ [.rename tmp path]

section Replace

variable {fs : Files} {tmp path : String} {body : Bytes}

theorem fillBytes_spares {p : String} (h : tmp ≠ p) : ∀ op ∈ fillBytes tmp body, op.Spares p := by
  intro op hop
  unfold fillBytes at hop
  split at hop <;> simp only [List.cons_append, List.nil_append, List.append_nil, List.mem_cons,
    List.not_mem_nil, or_false] at hop
  · rcases hop with rfl | rfl | rfl
    · exact h
    · exact h
    · trivial
  · rcases hop with rfl | rfl | rfl | rfl
    · exact h
    · exact h
    · exact h
    · trivial

theorem applyAll_fillBytes : FileOp.applyAll fs (fillBytes tmp body) tmp = some (terminated body) := by
  unfold fillBytes terminated
  split <;> simp [FileOp.applyAll, FileOp.apply]

theorem atomicWriteBytes_spares {p : String} (htmp : tmp ≠ p) (hpath : path ≠ p) :
    ∀ op ∈ atomicWriteBytes tmp path body, op.Spares p := by
  intro op hop
  rcases List.mem_append.1 hop with hfill | hrename
  · exact fillBytes_spares htmp op hfill
  · rw [List.mem_singleton.1 hrename]
    exact ⟨htmp, hpath⟩

/-- Whatever fills the other path: a file that is renamed over is replaced as a whole. -/
theorem perform_rename_ok {fill : List FileOp} {fault : Option Fault} (hne : tmp ≠ path)
    (h : (FileOp.perform fs (fill ++ [.rename tmp path]) fault).1 = .ok ()) :
    (FileOp.perform fs (fill ++ [.rename tmp path]) fault).2 path = FileOp.applyAll fs fill tmp := by
  rw [FileOp.perform_ok h]
  have hsplit : FileOp.applyAll fs (fill ++ [.rename tmp path]) =
      (FileOp.rename tmp path).apply (FileOp.applyAll fs fill) := by
    simp only [FileOp.applyAll, List.foldl_append, List.foldl_cons, List.foldl_nil]
  rw [hsplit, FileOp.apply_rename hne]

/-- When that fails, wherever it is, the file is the old one. -/
theorem perform_rename_error {fill : List FileOp} {fault : Option Fault} {e : String}
    (hfill : ∀ op ∈ fill, op.Spares path)
    (h : (FileOp.perform fs (fill ++ [.rename tmp path]) fault).1 = .error e) :
    (FileOp.perform fs (fill ++ [.rename tmp path]) fault).2 path = fs path := by
  rcases FileOp.perform_error h with ⟨done, op, after, part, hsplit, hfs⟩
  rw [hfs]
  -- the rename is the last call: whatever failed comes before it or is it
  rcases List.eq_nil_or_concat after with rfl | ⟨after', last, rfl⟩
  · rcases List.append_inj' hsplit (by simp) with ⟨rfl, hlast⟩
    cases hlast
    exact FileOp.applyAll_spares hfill
  · have hsplit' : fill ++ [FileOp.rename tmp path] = (done ++ op :: after') ++ [last] := by
      rw [hsplit]
      simp
    have hinit := (List.append_inj' hsplit' rfl).1
    have hop : op.Spares path := hfill op (by rw [hinit]; simp)
    have hdone : ∀ o ∈ done, o.Spares path := fun o ho => hfill o (by rw [hinit]; simp [ho])
    rw [FileOp.fail_spares hop]
    exact FileOp.applyAll_spares hdone

variable (before : List FileOp)

/-- When a replacement succeeds, the file holds the new body. -/
theorem perform_atomicWriteBytes_ok {fault : Option Fault} (hne : tmp ≠ path)
    (h : (FileOp.perform fs (before ++ atomicWriteBytes tmp path body) fault).1 = .ok ()) :
    (FileOp.perform fs (before ++ atomicWriteBytes tmp path body) fault).2 path =
      some (terminated body) := by
  unfold atomicWriteBytes at h ⊢
  rw [← List.append_assoc] at h ⊢
  rw [perform_rename_ok hne h, FileOp.applyAll, List.foldl_append]
  exact applyAll_fillBytes

/-- When it fails, wherever that is, the file is the old one. -/
theorem perform_atomicWriteBytes_error {fault : Option Fault} {e : String} (hne : tmp ≠ path)
    (hbefore : ∀ op ∈ before, op.Spares path)
    (h : (FileOp.perform fs (before ++ atomicWriteBytes tmp path body) fault).1 = .error e) :
    (FileOp.perform fs (before ++ atomicWriteBytes tmp path body) fault).2 path = fs path := by
  have hfill : ∀ op ∈ before ++ fillBytes tmp body, op.Spares path := by
    intro op hop
    rcases List.mem_append.1 hop with hb | hf
    · exact hbefore op hb
    · exact fillBytes_spares hne op hf
  unfold atomicWriteBytes at h ⊢
  rw [← List.append_assoc] at h ⊢
  exact perform_rename_error hfill h

end Replace

end Lib
end Thunderducks
