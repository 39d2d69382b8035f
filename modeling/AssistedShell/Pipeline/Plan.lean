import AssistedShell.Pipeline

/-! Which stage reads and writes where. Only the first stage's input and the
last stage's output redirection count; between neighbours there is a pipe. -/

namespace AssistedShell

inductive StdinPlan where
  | inherit
  | pipe
  | file (path : String)
  | hereDoc (text : String)
  deriving DecidableEq, Repr, Inhabited

inductive StdoutPlan where
  | inherit
  | pipe
  | file (target : OutputTarget)
  deriving DecidableEq, Repr, Inhabited

structure StagePlan where
  stdin : StdinPlan
  stdout : StdoutPlan
  deriving DecidableEq, Repr, Inhabited

/-- The plan of the stage at `index` among `count` stages. -/
def Stage.plan (s : Stage) (index count : Nat) : StagePlan where
  stdin :=
    if index = 0 then
      match s.input with
      | none => .inherit
      | some (.file p) => .file p
      | some (.hereDoc t) => .hereDoc t
    else .pipe
  stdout :=
    if index + 1 = count then
      match s.output with
      | none => .inherit
      | some t => .file t
    else .pipe

/-- Every stage with its plan. -/
def Pipeline.planned (p : Pipeline) : List (Stage × StagePlan) :=
  p.stages.mapIdx fun i s => (s, s.plan i p.stages.length)

end AssistedShell
