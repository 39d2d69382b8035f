import AssistedShell.Process.Descriptors
import AssistedShell.Proofs.Host.Recording
import Mathlib.Tactic.SplitIfs

/-! What the shell holds open while it makes its calls, read off their record, and
what a child gets of it. Everything that the shell opens is closed when a child
becomes another program. -/

namespace AssistedShell

/-- What an open file of the shell leads to. The pipes are numbered as they were made. -/
inductive Channel where
  | standing (d : Descriptor)
  | input (path : String)
  | output (path : String) (append : Bool)
  | text (text : String)
  | reader (pipe : Nat)
  | writer (pipe : Nat)
  deriving DecidableEq, Repr

def Channel.isPipeEnd : Channel → Bool
  | .reader _ | .writer _ => true
  | _ => false

namespace Call

/-- What the system was asked to open, whatever it answered. -/
def requested? : Call → Option Channel
  | .openInput path _ => some (.input path)
  | .openOutput path append _ => some (.output path append)
  | .stageText text _ => some (.text text)
  | _ => none

/-- The descriptors that were answered. -/
def handedOut : Call → List Descriptor
  | .openInput _ (.ok d) | .openOutput _ _ (.ok d) | .stageText _ (.ok d) => [d]
  | .makePipe (.ok (r, w)) => [r, w]
  | _ => []

end Call

/-- What is asked to be opened, in order. -/
def requested (calls : List Call) : List Channel := calls.filterMap Call.requested?

theorem requested_append (cs ds : List Call) :
    requested (cs ++ ds) = requested cs ++ requested ds := List.filterMap_append

/-- The open files of the shell, and the number of pipes that it has made. -/
structure Holdings where
  files : Descriptors Channel := .empty
  pipes : Nat := 0
  deriving DecidableEq, Repr

namespace Holdings

def get? (t : Holdings) (d : Descriptor) : Option (Opened Channel) := t.files.get? d

def leadsTo? (t : Holdings) (d : Descriptor) : Option Channel := t.files.leadsTo? d

/-- What a program has open from its start. -/
def standing : Holdings where
  files := ((.empty : Descriptors Channel).insert 0 ⟨.standing 0, false⟩).insert 1 ⟨.standing 1, false⟩
    |>.insert 2 ⟨.standing 2, false⟩

/-- A shell that has made no pipe. -/
structure Unpiped (t : Holdings) : Prop where
  pipes : t.pipes = 0
  noEnds : ∀ d c, t.leadsTo? d = some c → c.isPipeEnd = false

theorem unpiped_of_entries {t : Holdings} (hp : t.pipes = 0)
    (he : ∀ e ∈ t.files.entries, e.2.leadsTo.isPipeEnd = false) : t.Unpiped where
  pipes := hp
  noEnds d c hd := by
    obtain ⟨o, ho, rfl⟩ := Option.map_eq_some_iff.mp hd
    exact he (d, o) (Descriptors.mem_of_get? ho)

/-- Whether a descriptor leads to a channel; there is none if there is no channel. -/
def Leads (t : Holdings) (source : Option Descriptor) (c : Option Channel) : Prop :=
  source.map t.leadsTo? = c.map some

instance (t : Holdings) (source : Option Descriptor) (c : Option Channel) :
    Decidable (t.Leads source c) := inferInstanceAs (Decidable (_ = _))

/-- Opens something. -/
def gain (t : Holdings) (d : Descriptor) (c : Channel) : Holdings :=
  { t with files := t.files.insert d ⟨c, true⟩ }

def drop (t : Holdings) (d : Descriptor) : Holdings := { t with files := t.files.erase d }

/-- What is held after a call. -/
def after (t : Holdings) : Call → Holdings
  | .openInput path (.ok d) => t.gain d (.input path)
  | .openOutput path append (.ok d) => t.gain d (.output path append)
  | .stageText text (.ok d) => t.gain d (.text text)
  | .makePipe (.ok (r, w)) =>
    { (t.gain r (.reader t.pipes)).gain w (.writer t.pipes) with pipes := t.pipes + 1 }
  | .close d => t.drop d
  | _ => t

def afterAll (t : Holdings) (calls : List Call) : Holdings := calls.foldl after t

/-- Whether the descriptors that a call is answered with were free. -/
def Admits (t : Holdings) (c : Call) : Prop :=
  c.handedOut.Nodup ∧ ∀ d ∈ c.handedOut, t.get? d = none

instance (t : Holdings) (c : Call) : Decidable (t.Admits c) := inferInstanceAs (Decidable (_ ∧ _))

/-! ### The calls with what is held at each -/

/-- Every call with what is held when it is made. -/
def steps : Holdings → List Call → List (Holdings × Call)
  | _, [] => []
  | t, c :: cs => (t, c) :: steps (t.after c) cs

/-- Whether all descriptors that some calls are answered with were free. -/
def Fits (t : Holdings) (calls : List Call) : Prop := ∀ x ∈ t.steps calls, x.1.Admits x.2

instance (t : Holdings) (calls : List Call) : Decidable (t.Fits calls) :=
  inferInstanceAs (Decidable (∀ _ ∈ _, _))

/-- The start of a process: what the shell holds then, the process and the answer. -/
structure Fork where
  held : Holdings
  child : Child
  answer : Except Fault Pid

def fork? : Holdings × Call → Option Fork
  | (t, .spawn _ child answer) => some ⟨t, child, answer⟩
  | _ => none

/-- What is held when a pipe is asked for. -/
def piping? : Holdings × Call → Option Holdings
  | (t, .makePipe _) => some t
  | _ => none

/-- What a descriptor leads to that is closed. -/
def closing? : Holdings × Call → Option (Option Channel)
  | (t, .close d) => some (t.leadsTo? d)
  | _ => none

/-- The two ends of a pipe that is made. -/
def made : Holdings × Call → List Channel
  | (t, .makePipe (.ok _)) => [.reader t.pipes, .writer t.pipes]
  | _ => []

def forks (t : Holdings) (calls : List Call) : List Fork := (t.steps calls).filterMap fork?

def pipings (t : Holdings) (calls : List Call) : List Holdings := (t.steps calls).filterMap piping?

def closings (t : Holdings) (calls : List Call) : List (Option Channel) :=
  (t.steps calls).filterMap closing?

def pipeEnds (t : Holdings) (calls : List Call) : List Channel := (t.steps calls).flatMap made

section
variable (t : Holdings)

theorem afterAll_append (cs ds : List Call) :
    t.afterAll (cs ++ ds) = (t.afterAll cs).afterAll ds := List.foldl_append

theorem steps_append (cs ds : List Call) :
    t.steps (cs ++ ds) = t.steps cs ++ (t.afterAll cs).steps ds := by
  induction cs generalizing t with
  | nil => rfl
  | cons c cs ih => exact congrArg ((t, c) :: ·) (ih (t.after c))

theorem forks_append (cs ds : List Call) :
    t.forks (cs ++ ds) = t.forks cs ++ (t.afterAll cs).forks ds := by
  rw [forks, steps_append, List.filterMap_append]
  rfl

theorem pipings_append (cs ds : List Call) :
    t.pipings (cs ++ ds) = t.pipings cs ++ (t.afterAll cs).pipings ds := by
  rw [pipings, steps_append, List.filterMap_append]
  rfl

theorem closings_append (cs ds : List Call) :
    t.closings (cs ++ ds) = t.closings cs ++ (t.afterAll cs).closings ds := by
  rw [closings, steps_append, List.filterMap_append]
  rfl

theorem pipeEnds_append (cs ds : List Call) :
    t.pipeEnds (cs ++ ds) = t.pipeEnds cs ++ (t.afterAll cs).pipeEnds ds := by
  rw [pipeEnds, steps_append, List.flatMap_append]
  rfl

theorem pipes_after (c : Call) : (∃ r w, c = .makePipe (.ok (r, w))) ∨
    (t.after c).pipes = t.pipes ∧ made (t, c) = [] := by
  cases c with
  | makePipe answer =>
    rcases answer with e | ⟨r, w⟩
    · exact .inr ⟨rfl, rfl⟩
    · exact .inl ⟨r, w, rfl⟩
  | openInput path answer => cases answer <;> exact .inr ⟨rfl, rfl⟩
  | openOutput path append answer => cases answer <;> exact .inr ⟨rfl, rfl⟩
  | stageText text answer => cases answer <;> exact .inr ⟨rfl, rfl⟩
  | _ => exact .inr ⟨rfl, rfl⟩

/-- The pipes that are made are numbered on. -/
theorem pipeEnds_eq (calls : List Call) :
    t.pipes ≤ (t.afterAll calls).pipes ∧ t.pipeEnds calls =
      (List.range' t.pipes ((t.afterAll calls).pipes - t.pipes)).flatMap fun i =>
        [.reader i, .writer i] := by
  induction calls generalizing t with
  | nil => simp [afterAll, pipeEnds, steps]
  | cons c cs ih =>
    obtain ⟨hle, he⟩ := ih (t.after c)
    have ha : t.afterAll (c :: cs) = (t.after c).afterAll cs := rfl
    have hs : t.pipeEnds (c :: cs) = made (t, c) ++ (t.after c).pipeEnds cs := rfl
    rw [ha, hs]
    rcases t.pipes_after c with ⟨r, w, rfl⟩ | ⟨hp, hm⟩
    · have hp : (t.after (.makePipe (.ok (r, w)))).pipes = t.pipes + 1 := rfl
      rw [hp] at hle he
      refine ⟨by omega, ?_⟩
      have hk : ((t.after (.makePipe (.ok (r, w)))).afterAll cs).pipes - t.pipes =
        ((t.after (.makePipe (.ok (r, w)))).afterAll cs).pipes - (t.pipes + 1) + 1 := by omega
      rw [he, hk, List.range'_succ]
      rfl
    · rw [hp] at hle he
      exact ⟨hle, by rw [hm, he, List.nil_append]⟩

theorem fits_cons {c : Call} {cs : List Call} :
    t.Fits (c :: cs) ↔ t.Admits c ∧ (t.after c).Fits cs := List.forall_mem_cons

theorem fits_append {cs ds : List Call} :
    t.Fits (cs ++ ds) ↔ t.Fits cs ∧ (t.afterAll cs).Fits ds := by
  rw [Fits, steps_append, List.forall_mem_append]
  rfl

theorem get?_gain (d e : Descriptor) (c : Channel) :
    (t.gain d c).get? e = if e = d then some ⟨c, true⟩ else t.get? e := t.files.get?_insert d e _

theorem get?_drop (d e : Descriptor) :
    (t.drop d).get? e = if e = d then none else t.get? e := t.files.get?_erase d e

end

section
variable {t t' : Holdings} {source : Option Descriptor} {c : Option Channel}

theorem leadsTo?_eq_some_iff {d : Descriptor} {c : Channel} :
    t.leadsTo? d = some c ↔ ∃ o, t.get? d = some o ∧ o.leadsTo = c := Option.map_eq_some_iff

theorem leads_none_iff : t.Leads none c ↔ c = none := by
  cases c <;> simp [Leads]

theorem leads_to_none_iff : t.Leads source none ↔ source = none := by
  cases source <;> simp [Leads]

theorem leads_some_iff {d : Descriptor} :
    t.Leads (some d) c ↔ ∃ e, c = some e ∧ t.leadsTo? d = some e := by
  cases c <;> simp [Leads]

theorem Leads.eq_some {d : Descriptor} {e : Channel} (hl : t.Leads (some d) c)
    (hd : t.leadsTo? d = some e) : c = some e := by
  obtain ⟨c, rfl, hc⟩ := leads_some_iff.mp hl
  exact hc.symm.trans hd

theorem Leads.exists_eq {e : Channel} (hl : t.Leads source (some e)) :
    ∃ d, source = some d ∧ t.leadsTo? d = some e := by
  cases source with
  | none => cases leads_none_iff.mp hl
  | some d =>
    obtain ⟨c, hc, hd⟩ := leads_some_iff.mp hl
    exact ⟨d, rfl, hd.trans hc.symm⟩

theorem Leads.kept (hl : t.Leads source c)
    (hk : ∀ d o, source = some d → t.get? d = some o → t'.get? d = some o) : t'.Leads source c := by
  cases source with
  | none => exact leads_none_iff.mpr (leads_none_iff.mp hl)
  | some d =>
    obtain ⟨e, rfl, he⟩ := leads_some_iff.mp hl
    obtain ⟨o, ho, rfl⟩ := leadsTo?_eq_some_iff.mp he
    exact leads_some_iff.mpr ⟨_, rfl, leadsTo?_eq_some_iff.mpr ⟨o, hk d o rfl ho, rfl⟩⟩

end

end Holdings

/-! ### A child -/

/-- The tables that a child has one after another from its start to its end, when it starts with a
copy of a table: before and after each of its files is in place, when it has become another
program, and none when it has ended. -/
inductive Child.Has {α : Type} (c : Child) (t : Descriptors α) : Descriptors α → Prop where
  | copied : c.Has t t
  | reading {t'} : t.place c.stdin 0 = some t' → c.Has t t'
  | wired {t'} : c.wire t = some t' → c.Has t t'
  | running {t'} : c.wire t = some t' → c.Has t t'.atExec
  | ended : c.Has t .empty

namespace Descriptors

variable {α : Type} {t t' : Descriptors α}

/-- A descriptor that was put in its place stays open when the process becomes another program. -/
theorem get?_of_place {source : Option Descriptor} {target : Descriptor}
    (hp : t.place source target = some t') (d : Descriptor) :
    t'.get? d =
      if d = target then
        source.elim (t.get? target) fun s => (t.get? s).map fun o => { o with closeOnExec := false }
      else t.get? d := by
  cases source with
  | none =>
    cases hp
    by_cases hd : d = target <;> simp [hd]
  | some s =>
    rw [place, redirect] at hp
    cases hs : t.get? s with
    | some o =>
      rw [hs] at hp
      cases hp
      rw [get?_insert]
      simp [hs]
    | none =>
      rw [hs] at hp
      dsimp only at hp
      split_ifs at hp with he
      cases hp
      subst he
      by_cases hd : d = s <;> simp [hd, hs]

theorem leadsTo?_of_place {source : Option Descriptor} {target : Descriptor}
    (hp : t.place source target = some t') (d : Descriptor) :
    t'.leadsTo? d = if d = target then t.leadsTo? (source.getD target) else t.leadsTo? d := by
  rw [leadsTo?, get?_of_place hp d]
  by_cases hd : d = target
  · cases source <;> simp [hd, leadsTo?, Function.comp_def]
  · simp [hd, leadsTo?]

/-- A standard descriptor that is open can be made to lead elsewhere. -/
theorem exists_place {source : Option Descriptor} {target : Descriptor} {a₀ : α} {a : Option α}
    (h₀ : t.get? target = some ⟨a₀, false⟩) (hs : source.map t.leadsTo? = a.map some) :
    ∃ t', t.place source target = some t' ∧ t'.get? target = some ⟨a.getD a₀, false⟩ ∧
      ∀ d, d ≠ target → t'.get? d = t.get? d := by
  cases source with
  | none =>
    cases a with
    | none => exact ⟨t, rfl, h₀, fun _ _ => rfl⟩
    | some a => cases hs
  | some s =>
    cases a with
    | none => cases hs
    | some a =>
      obtain ⟨o, ho, rfl⟩ := Option.map_eq_some_iff.mp (Option.some.inj hs)
      refine ⟨t.insert target { o with closeOnExec := false }, by rw [place, redirect, ho], ?_, ?_⟩
      · rw [get?_insert, if_pos rfl]
        rfl
      · intro d hd
        rw [get?_insert, if_neg hd]

end Descriptors

namespace Child

variable {α : Type} {c : Child} {t T : Descriptors α}

theorem exists_leadsTo?_of_place {source : Option Descriptor} {target : Descriptor}
    (hp : t.place source target = some T) {d : Descriptor} {a : α} (hd : T.leadsTo? d = some a) :
    ∃ e, t.leadsTo? e = some a := by
  rw [Descriptors.leadsTo?_of_place hp] at hd
  split_ifs at hd
  · exact ⟨_, hd⟩
  · exact ⟨_, hd⟩

theorem exists_leadsTo?_of_wire (hw : c.wire t = some T) {d : Descriptor} {a : α}
    (hd : T.leadsTo? d = some a) : ∃ e, t.leadsTo? e = some a := by
  obtain ⟨t', hin, hout⟩ := Option.bind_eq_some_iff.mp hw
  obtain ⟨e, he⟩ := exists_leadsTo?_of_place hout hd
  exact exists_leadsTo?_of_place hin he

/-- A child has nothing open that leads where nothing of its parent led. -/
theorem Has.exists_leadsTo? (hT : c.Has t T) {d : Descriptor} {a : α} (hd : T.leadsTo? d = some a) :
    ∃ e, t.leadsTo? e = some a := by
  cases hT with
  | copied => exact ⟨d, hd⟩
  | reading hp => exact exists_leadsTo?_of_place hp hd
  | wired hw => exact exists_leadsTo?_of_wire hw hd
  | @running t' hw =>
    obtain ⟨o, ho, rfl⟩ := Option.map_eq_some_iff.mp hd
    rw [Descriptors.get?_atExec, Option.filter_eq_some_iff] at ho
    exact exists_leadsTo?_of_wire hw (congrArg (Option.map _) ho.1)
  | ended => cases hd

/-- A child whose files are open becomes another program with these as its standard input and
output, and with those of its parent where it has none. -/
theorem exists_wire {a₀ a₁ : α} {a b : Option α} (h₀ : t.get? 0 = some ⟨a₀, false⟩)
    (h₁ : t.get? 1 = some ⟨a₁, false⟩) (hin : c.stdin.map t.leadsTo? = a.map some)
    (hout : c.stdout.map t.leadsTo? = b.map some) (hne : c.stdout ≠ some 0) :
    ∃ T, c.wire t = some T ∧ T.atExec.leadsTo? 0 = some (a.getD a₀) ∧
      T.atExec.leadsTo? 1 = some (b.getD a₁) := by
  obtain ⟨t', hp, hd, hrest⟩ := Descriptors.exists_place h₀ hin
  have hleads : c.stdout.map t'.leadsTo? = b.map some := by
    rw [← hout]
    cases hs : c.stdout with
    | none => rfl
    | some s =>
      have hs0 : s ≠ 0 := fun h => hne (h ▸ hs)
      simp [Descriptors.leadsTo?, hrest s hs0]
  obtain ⟨T, hp', hd', hrest'⟩ := Descriptors.exists_place ((hrest 1 (by decide)).trans h₁) hleads
  have hexec {d : Descriptor} {x : α} (h : T.get? d = some ⟨x, false⟩) :
      T.atExec.leadsTo? d = some x := by
    rw [Descriptors.leadsTo?, Descriptors.get?_atExec, h]
    rfl
  exact ⟨T, by rw [wire, hp, Option.bind_some, hp'], hexec ((hrest' 0 (by decide)).trans hd),
    hexec hd'⟩

end Child

end AssistedShell
