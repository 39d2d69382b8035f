import AssistedShell.Assistant.Basic
import AssistedShell.Host

/-! A system that keeps a record of what it was asked and what it answered. It
answers as the system it is made from, and of the operations that only look at
the state, none is recorded. What the shell asks of a system is read off the
record of a run on it. -/

namespace AssistedShell

/-- What a system was asked, with its answer. -/
inductive Call where
  | openInput (path : String) (answer : Except Fault Descriptor)
  | openOutput (path : String) (append : Bool) (answer : Except Fault Descriptor)
  | stageText (text : String) (answer : Except Fault Descriptor)
  | makePipe (answer : Except Fault (Descriptor × Descriptor))
  | close (descriptor : Descriptor)
  | spawn (environment : Environment) (child : Child) (answer : Except Fault Pid)
  | await (pid : Pid) (answer : Except Fault Ending)
  | poll (pid : Pid) (answer : Poll)
  | changeDirectory (path : String) (answer : Except Fault Unit)
  | makeDirectories (path : String) (answer : Except Fault Unit)
  | makePrivate (path : String) (answer : Except Fault Unit)
  | appendPrivate (path : String) (bytes : ByteArray) (answer : Except Fault Unit)
  | readInput (answer : ByteArray)
  | writeOut (text : String) (answer : Except Fault Unit)
  | writeErr (text : String) (answer : Except Fault Unit)
  | capture (environment : Environment) (command directory : String)
      (answer : Except Fault Captured)
  | preview (prompt command : String) (milliseconds : Nat) (answer : Except Fault Decision)
  | send (request : Http.Request) (answer : Except Http.TransportFault Http.Response)
  | ask (request : CompletionRequest) (answer : Except CompletionFault String)

namespace Call

/-- Whether it is a request to the assistant's service. -/
def isAsk : Call → Bool
  | .ask .. => true
  | _ => false

/-- Whether it is a command to be run with its output kept. -/
def isCapture : Call → Bool
  | .capture .. => true
  | _ => false

end Call

/-- A state with a record of the calls so far, oldest first. -/
structure Recorded (σ : Type) where
  state : σ
  log : List Call := []

namespace Recorded

variable {σ α : Type}

/-- Performs an operation and records the call that it was. -/
def perform (r : Recorded σ) (operation : σ → α × σ) (call : α → Call) : α × Recorded σ :=
  ((operation r.state).1, ⟨(operation r.state).2, r.log ++ [call (operation r.state).1]⟩)

theorem perform_eq {operation : σ → α × σ} {s s' : σ} {answer : α} (log : List Call)
    (call : α → Call) (ho : operation s = (answer, s')) :
    perform ⟨s, log⟩ operation call = (answer, ⟨s', log ++ [call answer]⟩) := by
  rw [perform, ho]

/-- What is picked out of the record gets what is picked out of the call. -/
theorem filterMap_log_perform {β : Type} (pick : Call → Option β) (r : Recorded σ)
    (operation : σ → α × σ) (call : α → Call) :
    (r.perform operation call).2.log.filterMap pick =
      r.log.filterMap pick ++ (pick (call (operation r.state).1)).toList := by
  rw [perform, List.filterMap_append]
  cases hp : pick (call (operation r.state).1) with
  | none => rw [List.filterMap_cons_none hp]; rfl
  | some b => rw [List.filterMap_cons_some hp]; rfl

end Recorded

variable {σ : Type}

/-- The system that records. -/
def Host.recorded (h : Host σ) : Host (Recorded σ) where
  openInput path r := r.perform (h.openInput path) (.openInput path)
  openOutput path append r := r.perform (h.openOutput path append) (.openOutput path append)
  stageText text r := r.perform (h.stageText text) (.stageText text)
  makePipe r := r.perform h.makePipe .makePipe
  close d r := ⟨h.close d r.state, r.log ++ [.close d]⟩
  spawn env child r := r.perform (h.spawn env child) (.spawn env child)
  await pid r := r.perform (h.await pid) (.await pid)
  poll pid r := r.perform (h.poll pid) (.poll pid)
  changeDirectory path r := r.perform (h.changeDirectory path) (.changeDirectory path)
  directory r := h.directory r.state
  home? r := h.home? r.state
  runnable r := h.runnable r.state
  present r := h.present r.state
  isDirectory r := h.isDirectory r.state
  canonical r := h.canonical r.state
  fileContent r := h.fileContent r.state
  listing r := h.listing r.state
  makeDirectories path r := r.perform (h.makeDirectories path) (.makeDirectories path)
  makePrivate path r := r.perform (h.makePrivate path) (.makePrivate path)
  appendPrivate path bytes r :=
    r.perform (h.appendPrivate path bytes) (.appendPrivate path bytes)
  readInput r := r.perform h.readInput .readInput
  writeOut text r := r.perform (h.writeOut text) (.writeOut text)
  writeErr text r := r.perform (h.writeErr text) (.writeErr text)
  capture env command dir r :=
    r.perform (h.capture env command dir) (.capture env command dir)
  preview prompt command ms r :=
    r.perform (h.preview prompt command ms) (.preview prompt command ms)
  setUpClient r := h.setUpClient r.state
  send request r := r.perform (h.send request) (.send request)
  explain := h.explain

section
variable {h : Host σ} {s s' : σ} (log : List Call)

theorem Host.preview_recorded {prompt command : String} {ms : Nat}
    {answer : Except Fault Decision} (hp : h.preview prompt command ms s = (answer, s')) :
    h.recorded.preview prompt command ms ⟨s, log⟩ =
      (answer, ⟨s', log ++ [.preview prompt command ms answer]⟩) :=
  Recorded.perform_eq log _ hp

theorem Host.capture_recorded {env : Environment} {command dir : String}
    {answer : Except Fault Captured} (hc : h.capture env command dir s = (answer, s')) :
    h.recorded.capture env command dir ⟨s, log⟩ =
      (answer, ⟨s', log ++ [.capture env command dir answer]⟩) :=
  Recorded.perform_eq log _ hc

theorem Host.writeOut_recorded {text : String} {answer : Except Fault Unit}
    (hw : h.writeOut text s = (answer, s')) :
    h.recorded.writeOut text ⟨s, log⟩ = (answer, ⟨s', log ++ [.writeOut text answer]⟩) :=
  Recorded.perform_eq log _ hw

theorem Host.openInput_recorded {path : String} {answer : Except Fault Descriptor}
    (ho : h.openInput path s = (answer, s')) :
    h.recorded.openInput path ⟨s, log⟩ = (answer, ⟨s', log ++ [.openInput path answer]⟩) :=
  Recorded.perform_eq log _ ho

theorem Host.openOutput_recorded {path : String} {append : Bool} {answer : Except Fault Descriptor}
    (ho : h.openOutput path append s = (answer, s')) :
    h.recorded.openOutput path append ⟨s, log⟩ =
      (answer, ⟨s', log ++ [.openOutput path append answer]⟩) :=
  Recorded.perform_eq log _ ho

theorem Host.stageText_recorded {text : String} {answer : Except Fault Descriptor}
    (ht : h.stageText text s = (answer, s')) :
    h.recorded.stageText text ⟨s, log⟩ = (answer, ⟨s', log ++ [.stageText text answer]⟩) :=
  Recorded.perform_eq log _ ht

theorem Host.makePipe_recorded {answer : Except Fault (Descriptor × Descriptor)}
    (hp : h.makePipe s = (answer, s')) :
    h.recorded.makePipe ⟨s, log⟩ = (answer, ⟨s', log ++ [.makePipe answer]⟩) :=
  Recorded.perform_eq log _ hp

theorem Host.spawn_recorded {env : Environment} {child : Child} {answer : Except Fault Pid}
    (hs : h.spawn env child s = (answer, s')) :
    h.recorded.spawn env child ⟨s, log⟩ = (answer, ⟨s', log ++ [.spawn env child answer]⟩) :=
  Recorded.perform_eq log _ hs

theorem Host.await_recorded {pid : Pid} {answer : Except Fault Ending}
    (ha : h.await pid s = (answer, s')) :
    h.recorded.await pid ⟨s, log⟩ = (answer, ⟨s', log ++ [.await pid answer]⟩) :=
  Recorded.perform_eq log _ ha

end

/-- The service that records. -/
def Service.recorded (service : Service σ) : Service (Recorded σ) := fun request r =>
  r.perform (service request) (.ask request)

namespace Assistant

/-- The assistant whose service records. -/
def recorded (a : Assistant σ) : Assistant (Recorded σ) where
  service := Service.recorded a.service
  instructions := a.instructions
  conversation := a.conversation
  lastReply := a.lastReply
  acting := a.acting

@[simp] theorem recorded_record (a : Assistant σ) (origin : Origin) (text : String) :
    a.recorded.record origin text = (a.record origin text).recorded := rfl

@[simp] theorem recorded_setActing (a : Assistant σ) (acting : Bool) :
    a.recorded.setActing acting = (a.setActing acting).recorded := rfl

/-- What the service is sent when a text is said. -/
def asking (a : Assistant σ) (text : String) : CompletionRequest := (a.record .user text).pending

/-- Keeps the reply, if there is one. -/
def hear (a : Assistant σ) : Except CompletionFault String → Assistant σ
  | .error _ => a
  | .ok reply => a.receive reply

/-- To say something is to ask the service once and to keep what it replies. -/
theorem request_eq (a : Assistant σ) (text : String) (s : σ) :
    a.request text s =
      (((a.service (a.asking text) s).1,
        (a.record .user text).hear (a.service (a.asking text) s).1),
        (a.service (a.asking text) s).2) := by
  have hr : (a.record .user text).service (a.record .user text).pending s =
      a.service (a.asking text) s := rfl
  rw [request, hr]
  rcases a.service (a.asking text) s with ⟨f | reply, s'⟩
  · rfl
  · rfl

@[simp] theorem recorded_hear (a : Assistant σ) (answer : Except CompletionFault String) :
    a.recorded.hear answer = (a.hear answer).recorded := by
  cases answer with
  | error f => rfl
  | ok reply => rfl

/-- With a service that records, the request and its answer are added to the record. -/
theorem request_recorded {a a' : Assistant σ} {text : String} {s s' : σ}
    {answer : Except CompletionFault String} (log : List Call)
    (ha : a.request text s = ((answer, a'), s')) :
    a.recorded.request text ⟨s, log⟩ =
      ((answer, a'.recorded), ⟨s', log ++ [.ask (a.asking text) answer]⟩) := by
  rw [request_eq, Prod.mk.injEq, Prod.mk.injEq] at ha
  obtain ⟨⟨rfl, rfl⟩, rfl⟩ := ha
  rw [request_eq, ← recorded_hear]
  rfl

end Assistant

end AssistedShell
