import Mathlib.Logic.Function.Basic
import Mathlib.Tactic.Cases

/-!
# A flat directory of files, with what is durable in each

A file is its bytes together with `synced`, the length of the prefix the last sync made durable.
A directory maps names to files; `none` is "no such file". The operations are the ones a
log-structured store needs: create-and-truncate, positional write, `set_len`, remove, sync.

* `File.WF`: the durable prefix is inside the file; every operation keeps it.
* `writeAt_end`: a write at the end of the file is an append, and leaves the durable prefix;
  `setLen_append` takes it back.
* `Crash`: what a crash may leave of a file, the durable prefix followed by arbitrary bytes.
-/

namespace Statix.Lib

/-- A file: its bytes, and how many of them are durable. -/
structure File (β : Type) where
  data : List β
  synced : Nat
  deriving DecidableEq

/-- A directory. -/
abbrev Dir (ν β : Type) := ν → Option (File β)

namespace File

variable {β : Type}

/-- The durable prefix lies inside the file. -/
def WF (f : File β) : Prop := f.synced ≤ f.data.length

/-- A write of `bs` at offset `pos`: bytes under it are replaced, a gap is filled with zeros. What
was durable stays durable up to `pos`. -/
def writeAt [Inhabited β] (pos : Nat) (bs : List β) (f : File β) : File β where
  data := f.data.take pos ++ List.replicate (pos - f.data.length) default ++ bs ++
    f.data.drop (pos + bs.length)
  synced := min f.synced pos

/-- `set_len`: cut the file at `n`, or extend it with zeros. -/
def setLen [Inhabited β] (n : Nat) (f : File β) : File β where
  data := f.data.take n ++ List.replicate (n - f.data.length) default
  synced := min f.synced n

/-- `fdatasync`: everything written is durable. -/
def sync (f : File β) : File β := { f with synced := f.data.length }

/-- What a crash may leave of `f`: its durable prefix, then anything. -/
def Crash (f f' : File β) : Prop :=
  ∃ tail, f'.data = f.data.take f.synced ++ tail ∧ f'.synced = f.synced

/-- A crash may take nothing. -/
theorem crash_refl (f : File β) : Crash f f :=
  ⟨f.data.drop f.synced, (List.take_append_drop _ _).symm, rfl⟩

theorem Crash.wf {f f' : File β} (h : Crash f f') (hf : f.WF) : f'.WF := by
  obtain ⟨tail, hdata, hsync⟩ := h
  unfold WF at *
  rw [hdata, hsync, List.length_append, List.length_take]
  omega

@[simp] theorem data_sync (f : File β) : f.sync.data = f.data := rfl

@[simp] theorem synced_sync (f : File β) : f.sync.synced = f.data.length := rfl

theorem wf_sync (f : File β) : f.sync.WF := Nat.le_refl _

variable [Inhabited β]

/-- A write at the end of the file is an append and leaves the durable prefix. -/
theorem writeAt_end {pos : Nat} {f : File β} (bs : List β) (h : f.data.length = pos)
    (hf : f.WF) : f.writeAt pos bs = ⟨f.data ++ bs, f.synced⟩ := by
  unfold WF at hf
  subst h
  simp [writeAt, hf]

/-- Cutting off what was written behind a durable prefix. -/
theorem setLen_append {n : Nat} {f : File β} (tail : List β) (h : f.data.length = n) (hf : f.WF) :
    setLen n ⟨f.data ++ tail, f.synced⟩ = f := by
  unfold WF at hf
  subst h
  simp [setLen, hf]

theorem length_writeAt {pos : Nat} {f : File β} (bs : List β) (h : f.data.length = pos) :
    (f.writeAt pos bs).data.length = pos + bs.length := by
  simp [writeAt, h]

@[simp] theorem length_setLen (n : Nat) (f : File β) : (f.setLen n).data.length = n := by
  simp [setLen]
  omega

end File

namespace Dir

variable {ν β : Type} [DecidableEq ν]

/-- `OpenOptions::create(true).truncate(true)`. -/
def create (d : Dir ν β) (n : ν) : Dir ν β := Function.update d n (some ⟨[], 0⟩)

/-- `remove_file`. -/
def remove (d : Dir ν β) (n : ν) : Dir ν β := Function.update d n none

/-- Change the file `n`, when there is one. -/
def modify (d : Dir ν β) (n : ν) (g : File β → File β) : Dir ν β :=
  Function.update d n ((d n).map g)

/-- Set the file `n`. -/
def put (d : Dir ν β) (n : ν) (f : File β) : Dir ν β := Function.update d n (some f)

@[simp] theorem create_self (d : Dir ν β) (n : ν) : d.create n n = some ⟨[], 0⟩ := by
  simp [create]

theorem create_ne (d : Dir ν β) {m n : ν} (h : m ≠ n) : d.create n m = d m := by
  simp [create, h]

@[simp] theorem remove_self (d : Dir ν β) (n : ν) : d.remove n n = none := by
  simp [remove]

theorem remove_ne (d : Dir ν β) {m n : ν} (h : m ≠ n) : d.remove n m = d m := by
  simp [remove, h]

@[simp] theorem modify_self (d : Dir ν β) (n : ν) (g : File β → File β) :
    d.modify n g n = (d n).map g := by
  simp [modify]

theorem modify_ne (d : Dir ν β) {m n : ν} (g : File β → File β) (h : m ≠ n) :
    d.modify n g m = d m := by
  simp [modify, h]

@[simp] theorem put_self (d : Dir ν β) (n : ν) (f : File β) : d.put n f n = some f := by
  simp [put]

theorem put_ne (d : Dir ν β) {m n : ν} (f : File β) (h : m ≠ n) : d.put n f m = d m := by
  simp [put, h]

theorem put_eq_self {d : Dir ν β} {n : ν} {f : File β} (h : d n = some f) : d.put n f = d := by
  unfold put
  rw [← h]
  exact Function.update_eq_self n d

@[simp] theorem modify_id (d : Dir ν β) (n : ν) : d.modify n id = d := by
  funext m
  by_cases h : m = n
  · subst h
    rw [modify_self, Option.map_id, id]
  · exact modify_ne d id h

@[simp] theorem modify_put (d : Dir ν β) (n : ν) (f : File β) (g : File β → File β) :
    (d.put n f).modify n g = d.put n (g f) := by
  unfold modify
  rw [put_self, Option.map_some]
  exact Function.update_idem _ _ _

end Dir

end Statix.Lib
