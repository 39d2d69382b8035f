import AssistedShell.CommandLine
import AssistedShell.Machine.Kernel

/-! The shell as a program: it runs its command line on a fresh machine and
shows what is written there. -/

namespace AssistedShell

/-- The home directory on a fresh machine. -/
def homeDirectory : String := "/root"

/-- The environment on a fresh machine. -/
def freshEnvironment : Environment :=
  ⟨[⟨"PATH", "/usr/bin:/bin"⟩, ⟨"HOME", homeDirectory⟩, ⟨"USER", "root"⟩]⟩

/-- A fresh machine with the shell at home. -/
def freshDesk (input : ByteArray) : Machine.Desk :=
  let disk := Machine.systemDisk
  let home :=
    match disk.find Machine.Disk.root true homeDirectory with
    | .ok (id, _) => id
    | .error _ => Machine.Disk.root
  Machine.Desk.onDisk disk home true (some input)

end AssistedShell

open AssistedShell in
def main (arguments : List String) : IO UInt32 := do
  let input ← (← IO.getStdin).readBinToEnd
  let (status, desk) :=
    CommandLine.run Machine.Desk.host freshEnvironment arguments (freshDesk input)
  let out ← IO.getStdout
  out.write (desk.collected desk.console.output)
  out.flush
  let err ← IO.getStderr
  err.write (desk.collected desk.console.error)
  err.flush
  return UInt32.ofNat status
