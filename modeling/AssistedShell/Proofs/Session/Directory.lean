import AssistedShell.Machine.Kernel
import AssistedShell.Session.Builtin
import Mathlib

/-! The working directory of a session and that of its process. The session keeps
the path of a directory that only the system knows for sure, and `cd` sets one
after the other. What that leaves depends on a system whose answers are right, but
which may refuse to go somewhere or to tell where the process is. -/

namespace AssistedShell

variable {σ : Type}

/-- What a host tells of the working directory of the shell's process is right, and neither a
refused change nor a diagnostic moves the process; `place` is its path, if it has one. -/
structure Host.Locates (h : Host σ) (place : σ → Option String) : Prop where
  directory {s : σ} {path : String} : h.directory s = .ok path → place s = some path
  refused {target : String} {s s' : σ} {f : Fault} :
    h.changeDirectory target s = (.error f, s') → place s' = place s
  writeErr (text : String) (s : σ) : place (h.writeErr text s).2 = place s

namespace Session

variable {h : Host σ} {place : σ → Option String} {s : Session σ}

/-- The session's directory is that of its process. -/
def InStep (place : σ → Option String) (s : Session σ) : Prop := place s.system = some s.directory

instance (place : σ → Option String) (s : Session σ) : Decidable (s.InStep place) :=
  inferInstanceAs (Decidable (place s.system = some s.directory))

/-- `cd` takes the process to another directory and then is not told where that is. -/
def Strands (h : Host σ) (place : σ → Option String) (s : Session σ) (arguments : List String) :
    Prop :=
  ∃ dir system f, destination? (s.home? h) arguments = some dir ∧
    h.changeDirectory (joinPath s.directory dir) s.system = (.ok (), system) ∧
    h.directory system = .error f ∧ place system ≠ place s.system

/-- What `cd` can do: it knows no directory, cannot go there, is not told where it is then, or is. -/
theorem changeDirectory_cases (h : Host σ) (s : Session σ) (arguments : List String) :
    (destination? (s.home? h) arguments = none ∧
      s.changeDirectory h arguments = (1, s.report h "cd: HOME not set")) ∨
    ∃ dir system, destination? (s.home? h) arguments = some dir ∧
      ((∃ f, h.changeDirectory (joinPath s.directory dir) s.system = (.error f, system) ∧
          s.changeDirectory h arguments = (1, { s with system }.report h
            ("cd: " ++ joinPath s.directory dir ++ ": " ++ f.message))) ∨
        h.changeDirectory (joinPath s.directory dir) s.system = (.ok (), system) ∧
          ((∃ f, h.directory system = .error f ∧ s.changeDirectory h arguments =
              (1, { s with system }.report h ("cd: " ++ f.message))) ∨
            ∃ directory, h.directory system = .ok directory ∧
              s.changeDirectory h arguments = (0, { s with system, directory }))) := by
  rw [changeDirectory]
  rcases destination? (s.home? h) arguments with _ | dir
  · exact .inl ⟨rfl, rfl⟩
  · rcases hc : h.changeDirectory (joinPath s.directory dir) s.system with ⟨f | _, system⟩
    · exact .inr ⟨dir, system, rfl, .inl ⟨f, hc, by simp only [hc]⟩⟩
    · rcases hd : h.directory system with f | directory
      · exact .inr ⟨dir, system, rfl, .inr ⟨hc, .inl ⟨f, hd, by simp only [hc, hd]⟩⟩⟩
      · exact .inr ⟨dir, system, rfl, .inr ⟨hc, .inr ⟨directory, hd, by simp only [hc, hd]⟩⟩⟩

theorem place_report (hl : h.Locates place) (s : Session σ) (message : String) :
    place (s.report h message).system = place s.system := hl.writeErr _ _

/-- A session that reported where its process stayed is in step. -/
theorem inStep_report (hl : h.Locates place) (hs : s.InStep place) {system : σ}
    (hp : place system = place s.system) (message : String) :
    InStep place ({ s with system }.report h message) := by
  rw [InStep, place_report hl]
  exact hp.trans hs

/-- A directory that `cd` gets to is recorded; where it fails the record stays, and so does the
process, unless it was taken to a directory that it was not told. -/
theorem changeDirectory_in_step_iff (hl : h.Locates place) (hs : s.InStep place)
    (arguments : List String) :
    ((s.changeDirectory h arguments).1 = 0 → (s.changeDirectory h arguments).2.InStep place) ∧
    ((s.changeDirectory h arguments).1 ≠ 0 →
      (s.changeDirectory h arguments).2.directory = s.directory) ∧
    ((s.changeDirectory h arguments).2.InStep place ∧
        ((s.changeDirectory h arguments).1 ≠ 0 →
          (s.changeDirectory h arguments).2.directory = s.directory ∧
            place (s.changeDirectory h arguments).2.system = place s.system) ↔
      ¬ s.Strands h place arguments) := by
  rcases changeDirectory_cases h s arguments with
    ⟨hd, hr⟩ | ⟨dir, system, hd, ⟨f, hc, hr⟩ | ⟨hc, ⟨f, hg, hr⟩ | ⟨directory, hg, hr⟩⟩⟩ <;> rw [hr]
  · have hi := inStep_report hl hs rfl "cd: HOME not set"
    have hn : ¬ s.Strands h place arguments := by simp [Strands, hd]
    exact ⟨nofun, fun _ => rfl, fun _ => hn, fun _ => ⟨hi, fun _ => ⟨rfl, place_report hl s _⟩⟩⟩
  · have hp := hl.refused hc
    have hn : ¬ s.Strands h place arguments := by simp [Strands, hd, hc]
    exact ⟨nofun, fun _ => rfl, fun _ => hn,
      fun _ => ⟨inStep_report hl hs hp _, fun _ => ⟨rfl, (place_report hl _ _).trans hp⟩⟩⟩
  -- The one failure that comes after the process has moved.
  · have hn : ¬ s.Strands h place arguments ↔ place system = place s.system := by
      simp [Strands, hd, hc, hg]
    refine ⟨nofun, fun _ => rfl, ?_⟩
    rw [hn]
    constructor
    · rintro ⟨-, ht⟩
      exact (place_report hl _ _).symm.trans (ht nofun).2
    · intro hp
      exact ⟨inStep_report hl hs hp _, fun _ => ⟨rfl, (place_report hl _ _).trans hp⟩⟩
  · have hi : InStep place { s with system, directory } := hl.directory hg
    have hn : ¬ s.Strands h place arguments := by simp [Strands, hd, hc, hg]
    exact ⟨fun _ => hi, fun h0 => absurd rfl h0, fun _ => hn,
      fun _ => ⟨hi, fun h0 => absurd rfl h0⟩⟩

end Session

/-! ### The machine -/

namespace Machine

namespace Disk

theorem get?_put (d : Disk) (id : NodeId) (n : Node) (x : NodeId) :
    (d.put id n).get? x = if id = x then some n else d.get? x := by
  simp only [get?, put, Std.TreeMap.getElem?_insert, Nat.compare_eq_eq]

/-- Bytes are no directory. -/
theorem directory?_setBytes (d : Disk) (id : NodeId) (bytes : ByteArray) (x : NodeId) :
    (d.setBytes id bytes).directory? x = d.directory? x := by
  rw [setBytes]
  split
  next mode old ho =>
    rw [directory?, directory?, get?_put]
    by_cases hx : id = x
    · rw [if_pos hx, ← hx, ho]
    · rw [if_neg hx]
  next => rfl

theorem next_setBytes (d : Disk) (id : NodeId) (bytes : ByteArray) :
    (d.setBytes id bytes).next = d.next := by
  rw [setBytes]
  split <;> rfl

/-- Where directories are is a matter of directories. -/
theorem namesTo?_congr {d d' : Disk} (h : ∀ x, d'.directory? x = d.directory? x) (fuel : Nat)
    (id : NodeId) : d'.namesTo? fuel id = d.namesTo? fuel id := by
  induction fuel generalizing id with
  | zero => rfl
  | succ fuel ih => simp only [namesTo?, nameOf?, h, ih]

theorem pathOf?_setBytes (d : Disk) (id : NodeId) (bytes : ByteArray) (x : NodeId) :
    (d.setBytes id bytes).pathOf? x = d.pathOf? x := by
  rw [pathOf?, next_setBytes, namesTo?_congr (d.directory?_setBytes id bytes), pathOf?]

end Disk

namespace Desk

/-- The path of the working directory; none if the directory was removed. -/
def place (d : Desk) : Option String := d.machine.disk.pathOf? d.machine.directory

/-- Writing leaves the directories where they are. -/
theorem place_of_write {m m' : State} {file now : Nat} {data : Stream}
    (h : m.write file now data = .ok m') :
    m'.disk.pathOf? m'.directory = m.disk.pathOf? m.directory := by
  rw [State.write] at h
  split at h
  · cases h
  next f hf =>
    split at h
    · cases h
    · split at h
      · cases h
        rfl
      · cases h
        rfl
      · split at h <;> cases h
        · exact Disk.pathOf?_setBytes ..
        · rfl

theorem place_writeTo (d : Desk) (file : Nat) (text : String) :
    (d.writeTo file text).place = d.place := by
  rw [writeTo]
  split
  next m hm => exact place_of_write hm
  next => rfl

theorem locates_host : host.Locates place where
  directory {d path} h := by
    change d.directory = .ok path at h
    rw [directory] at h
    split at h
    next p hp =>
      cases h
      exact hp
    next => cases h
  refused {target d d' f} h := by
    change d.changeDirectory target = (.error f, d') at h
    rw [changeDirectory] at h
    split at h
    · cases h
      rfl
    · split at h
      · cases h
        rfl
      · split at h <;> cases h
        rfl
  writeErr text d := d.place_writeTo _ text

/-- A session at the root of a disk. -/
def sessionAtRoot (disk : Disk) : Session Desk where
  system := .onDisk disk Disk.root true none
  settings := default
  environment := {}
  directory := "/"

/-- Going to a directory below the root. -/
theorem changeDirectory_below_root :
    let s := sessionAtRoot (addFolder .empty Disk.root "w").2
    s.InStep place ∧ (s.changeDirectory host ["w"]).1 = 0 ∧
      (s.changeDirectory host ["w"]).2.directory = "/w" ∧
      (s.changeDirectory host ["w"]).2.InStep place := by
  have hs : (sessionAtRoot (addFolder .empty Disk.root "w").2).InStep place := by
    rw [Session.InStep]
    cbv
  refine ⟨hs, ?_, ?_, (Session.changeDirectory_in_step_iff locates_host hs ["w"]).1 ?_⟩ <;> cbv

/-- Going to a directory that was removed, which is still there for a process in it. -/
theorem changeDirectory_removed :
    let removed := Disk.empty.add ⟨0o755, .directory [] Disk.root⟩
    let s := sessionAtRoot (addNode removed.2 Disk.root "p" ⟨0o777, .anchor removed.1⟩)
    s.InStep place ∧ (s.changeDirectory host ["p"]).1 = 1 ∧
      (s.changeDirectory host ["p"]).2.directory = "/" ∧
      place (s.changeDirectory host ["p"]).2.system = none := by
  refine ⟨?_, ?_, ?_, ?_⟩
  · rw [Session.InStep]
    cbv
  all_goals cbv

end Desk

end Machine

end AssistedShell
