import AssistedShell.Proofs.History.Entries
import AssistedShell.Proofs.Host.Recording
import AssistedShell.Proofs.Session.Sparing
import AssistedShell.Proofs.Session.Usage

/-! The history of a session that reads its command lines from its input. Every
line of the input is skipped, executed, or taken by the line executed before it,
and a line is recorded just before it is executed. Nothing else is added to the
history file, neither by startup files and scripts nor by what a line does. -/

namespace AssistedShell

/-! ### What a record says of private files -/

namespace Call

/-- What was added to a private file. -/
def addition? : Call → Option (String × ByteArray)
  | .appendPrivate path bytes (.ok ()) => some (path, bytes)
  | _ => none

/-- Whether the system refused to make a directory or to add to a private file. -/
def isRefusal : Call → Bool
  | .makeDirectories _ (.error _) | .appendPrivate _ _ (.error _) => true
  | _ => false

/-- Whether a call concerns neither directories nor private files. -/
structure Aside (call : Call) : Prop where
  addition : call.addition? = none
  refusal : call.isRefusal = false

end Call

namespace Recorded

variable {σ α : Type}

/-- What was added to private files, in order. -/
def additions (r : Recorded σ) : List (String × ByteArray) := r.log.filterMap Call.addition?

/-- Whether something was refused. -/
def refused (r : Recorded σ) : Bool := r.log.any Call.isRefusal

/-- What a record says of private files. -/
def filing (r : Recorded σ) : List (String × ByteArray) × Bool := (r.additions, r.refused)

theorem additions_perform (r : Recorded σ) (operation : σ → α × σ) (call : α → Call) :
    (r.perform operation call).2.additions =
      r.additions ++ (call (operation r.state).1).addition?.toList :=
  r.filterMap_log_perform Call.addition? operation call

theorem refused_perform (r : Recorded σ) (operation : σ → α × σ) (call : α → Call) :
    (r.perform operation call).2.refused =
      (r.refused || (call (operation r.state).1).isRefusal) := by
  rw [perform, refused, List.any_append, List.any_cons, List.any_nil, Bool.or_false]
  rfl

theorem filing_perform (r : Recorded σ) (operation : σ → α × σ) {call : α → Call}
    (hc : ∀ answer, (call answer).Aside) : filing (r.perform operation call).2 = filing r := by
  rw [filing, additions_perform, refused_perform, (hc _).addition, (hc _).refusal,
    Option.toList_none, List.append_nil, Bool.or_false]
  rfl

end Recorded

variable {σ : Type}

theorem Host.spares_filing (h : Host σ) : h.recorded.Spares Recorded.filing where
  openInput _ r := r.filing_perform _ fun _ => ⟨rfl, rfl⟩
  openOutput _ _ r := r.filing_perform _ fun _ => ⟨rfl, rfl⟩
  stageText _ r := r.filing_perform _ fun _ => ⟨rfl, rfl⟩
  makePipe r := r.filing_perform _ fun _ => ⟨rfl, rfl⟩
  close d r :=
    @Recorded.filing_perform _ _ r (fun s => ((), h.close d s)) (fun _ => .close d)
      fun _ => ⟨rfl, rfl⟩
  spawn _ _ r := r.filing_perform _ fun _ => ⟨rfl, rfl⟩
  await _ r := r.filing_perform _ fun _ => ⟨rfl, rfl⟩
  poll _ r := r.filing_perform _ fun _ => ⟨rfl, rfl⟩
  changeDirectory _ r := r.filing_perform _ fun _ => ⟨rfl, rfl⟩
  readInput r := r.filing_perform _ fun _ => ⟨rfl, rfl⟩
  writeOut _ r := r.filing_perform _ fun _ => ⟨rfl, rfl⟩
  writeErr _ r := r.filing_perform _ fun _ => ⟨rfl, rfl⟩
  capture _ _ _ r := r.filing_perform _ fun _ => ⟨rfl, rfl⟩
  preview _ _ _ r := r.filing_perform _ fun _ => ⟨rfl, rfl⟩
  send _ r := r.filing_perform _ fun _ => ⟨rfl, rfl⟩

theorem Service.spares_filing (service : Service σ) :
    (Service.recorded service).Spares Recorded.filing := fun _ r =>
  r.filing_perform _ fun _ => ⟨rfl, rfl⟩

/-! ### Recording a line -/

namespace History

variable {h : Host σ} {path text entry : String}

theorem filing_makeParent (path : String) (r : Recorded σ) :
    (makeParent h.recorded path r).2.additions = r.additions ∧
      ((makeParent h.recorded path r).2.refused = false →
        r.refused = false ∧ (makeParent h.recorded path r).1 = .ok ()) := by
  rw [makeParent]
  split
  · exact ⟨rfl, fun hr => ⟨hr, rfl⟩⟩
  · exact ⟨rfl, fun hr => ⟨hr, rfl⟩⟩
  case _ dir _ _ =>
    have ha := r.additions_perform (h.makeDirectories dir) (.makeDirectories dir)
    have hn := r.refused_perform (h.makeDirectories dir) (.makeDirectories dir)
    refine ⟨ha.trans (List.append_nil _), fun hr => ?_⟩
    have hr' := Bool.or_eq_false_iff.mp (hn.symm.trans hr)
    refine ⟨hr'.1, ?_⟩
    change (h.makeDirectories dir r.state).1 = .ok ()
    cases hm : (h.makeDirectories dir r.state).1 with
    | ok u => rfl
    | error f =>
      rw [hm] at hr'
      cases hr'.2

theorem filing_append (he : entry? text = some entry) {r : Recorded σ}
    (hr : (History.append h.recorded (some path) text r).2.refused = false) :
    r.refused = false ∧ (History.append h.recorded (some path) text r).2.additions =
      r.additions ++ [(path, (entry ++ "\n").toUTF8)] := by
  obtain ⟨ha, hn⟩ := filing_makeParent (h := h) path r
  rw [append_of_some _ _ _ he] at hr ⊢
  generalize makeParent h.recorded path r = x at ha hn hr ⊢
  rcases x with ⟨f | _, t⟩
  · cases (hn hr).2
  dsimp only at ha hn hr ⊢
  have ht := t.refused_perform (h.appendPrivate path (entry ++ "\n").toUTF8)
    (.appendPrivate path (entry ++ "\n").toUTF8)
  have hr' := Bool.or_eq_false_iff.mp (ht.symm.trans hr)
  refine ⟨(hn hr'.1).1, ?_⟩
  have hadd := t.additions_perform (h.appendPrivate path (entry ++ "\n").toUTF8)
    (.appendPrivate path (entry ++ "\n").toUTF8)
  refine hadd.trans ?_
  cases hm : (h.appendPrivate path (entry ++ "\n").toUTF8 t.state).1 with
  | ok u => rw [ha]; rfl
  | error f =>
    rw [hm] at hr'
    cases hr'.2

end History

namespace Session

/-- The session on the system that records, with nothing recorded. -/
def recorded (s : Session σ) : Session (Recorded σ) where
  system := ⟨s.system, []⟩
  settings := s.settings
  environment := s.environment
  directory := s.directory
  lastStatus := s.lastStatus
  exitLatch := s.exitLatch
  crashed := s.crashed
  jobs := s.jobs
  assistant :=
    match s.assistant with
    | .untried => .untried
    | .ready a => .ready a.recorded
    | .unavailable reason => .unavailable reason
  depth := s.depth

/-- The assistant of such a session leaves alone what services that record leave alone. -/
theorem tame_recorded_of {α : Type} {view : Recorded σ → α}
    (hv : ∀ service : Service σ, (Service.recorded service).Spares view) (s : Session σ) :
    s.recorded.Tame view := by
  intro a ha
  rw [recorded] at ha
  dsimp only at ha
  cases hs : s.assistant with
  | ready b =>
    rw [hs] at ha
    obtain rfl := Availability.ready.inj ha
    exact hv b.service
  | untried | unavailable =>
    rw [hs] at ha
    cases ha

theorem tame_recorded (s : Session σ) : s.recorded.Tame Recorded.filing :=
  s.tame_recorded_of Service.spares_filing

/-! ### Sessions that read command lines -/

/-- What becomes of the lines of the input, the lines that are left over, and the session after
them. A command line is recorded and then executed. -/
inductive Converses (h : Host σ) :
    List String → Session σ → List Use → List String → Session σ → Prop where
  | ended {lines s} : s.isOver = true → Converses h lines s [] lines s
  | closed {s : Session σ} : s.isOver = false → Converses h [] s [] [] (s.reapJobs h)
  | skipped {line rest uses unread} {s s' : Session σ} : s.isOver = false →
      line.isAllBlank = true → Converses h rest (s.reapJobs h) uses unread s' →
      Converses h (line :: rest) s (.skipped line :: uses) unread s'
  | command {line fed rest inner left uses unread n} {s t u s' : Session σ} : s.isOver = false →
      line.isAllBlank = false → (s.reapJobs h).recordHistory h line = t → Takes t line fed rest →
      t.execute h line ((fed ++ rest).map some) = ((n, rest.map some), u) →
      Uses h (.line line (t.parse line ((fed ++ rest).map some)).value) t inner left n u →
      Converses h rest u uses unread s' →
      Converses h (line :: (fed ++ rest)) s (.command line fed n inner :: uses) unread s'

variable {h : Host σ} {s s' t : Session σ} {path line : String} {lines unread : List String}
  {uses : List Use}

theorem exists_converses (lines : List String) (s : Session σ) :
    ∃ uses unread, Converses h lines s uses unread (converse h (lines.map some) s).2 := by
  generalize hl : lines.map some = source
  fun_induction converse h source s generalizing lines with
  | case1 source s ho => exact ⟨[], lines, .ended ho⟩
  | case2 s ho =>
    obtain rfl := List.map_eq_nil_iff.mp hl
    exact ⟨[], [], .closed (Bool.eq_false_iff.mpr ho)⟩
  | case3 s ho =>
    obtain ⟨line, -, -, hline, -⟩ := List.map_eq_cons_iff.mp hl
    cases hline
  | case4 s ho _ line rest hb ih =>
    obtain ⟨line', rest', rfl, hline, hr⟩ := List.map_eq_cons_iff.mp hl
    obtain rfl := Option.some.inj hline
    obtain ⟨uses, unread, hc⟩ := ih rest' hr
    exact ⟨_, unread, .skipped (Bool.eq_false_iff.mpr ho) hb hc⟩
  | case5 s ho _ line rest hb t taken ih =>
    obtain ⟨line', rest', rfl, hline, rfl⟩ := List.map_eq_cons_iff.mp hl
    obtain rfl := Option.some.inj hline
    obtain ⟨fed, left, rfl, hrest, ht⟩ := exists_takes t line' rest'
    obtain ⟨es, hr⟩ := exists_runs h (.line line' taken.value) t
    obtain ⟨inner, unused, hu⟩ := hr.exists_uses (legible_line _ _)
    have he := execute_eq hr
    rw [hrest] at he
    obtain ⟨uses, unread, hc⟩ := ih left hrest.symm
    have hover : s.isOver = false := Bool.eq_false_iff.mpr ho
    exact ⟨_, unread, .command hover (Bool.eq_false_iff.mpr hb) rfl ht he hu hc⟩

theorem converse_texts (lines : List String) (s : Session σ) :
    (converse h (lines.map some) s).1 = .ok () := by
  generalize hl : lines.map some = source
  fun_induction converse h source s generalizing lines with
  | case1 | case2 => rfl
  | case3 s ho =>
    obtain ⟨line, -, -, hline, -⟩ := List.map_eq_cons_iff.mp hl
    cases hline
  | case4 s ho _ line rest hb ih =>
    obtain ⟨line', rest', rfl, hline, hr⟩ := List.map_eq_cons_iff.mp hl
    exact ih rest' hr
  | case5 s ho _ line rest hb t taken ih =>
    obtain ⟨line', rest', rfl, hline, rfl⟩ := List.map_eq_cons_iff.mp hl
    obtain ⟨fed, left, rfl, hrest, -⟩ := exists_takes t line rest'
    exact ih left hrest.symm

/-- Every line has one use, or the session is to end before it. -/
theorem Converses.split (hc : Converses h lines s uses unread s') :
    lines = uses.flatMap Use.lines ++ unread ∧ (s'.isOver = false → unread = []) := by
  induction hc with
  | ended ho => exact ⟨rfl, fun hn => by cases ho.symm.trans hn⟩
  | closed => exact ⟨rfl, fun _ => rfl⟩
  | skipped _ _ _ ih => exact ⟨congrArg (_ :: ·) ih.1, ih.2⟩
  | command _ _ _ _ _ _ _ ih =>
    refine ⟨?_, ih.2⟩
    rw [ih.1]
    simp [Use.lines]

/-- The command line of a use. -/
def Use.command? : Use → Option String
  | .skipped _ => none
  | .command line _ _ _ => some line

/-- The command lines among lines, in their order. -/
def commandsOf (uses : List Use) : List String := uses.filterMap Use.command?

theorem crashed_reapJobs (s : Session σ) : (s.reapJobs h).crashed = s.crashed := by
  obtain ⟨jobs, system, hj⟩ := exists_reapJobs h s
  rw [hj]

/-- The command lines of a dialogue, each with the lines after it and the session that it met: its
predecessors were executed, and it is recorded. -/
inductive Meets (h : Host σ) :
    List String → Session σ → String → List String → Session σ → Prop where
  | here {line rest} {s : Session σ} : s.isOver = false → line.isAllBlank = false →
      Meets h (line :: rest) s line rest ((s.reapJobs h).recordHistory h line)
  | skipped {line rest line' rest'} {s t : Session σ} : s.isOver = false → line.isAllBlank = true →
      Meets h rest (s.reapJobs h) line' rest' t → Meets h (line :: rest) s line' rest' t
  | later {line rest left n line' rest'} {s t u : Session σ} : s.isOver = false →
      line.isAllBlank = false →
      ((s.reapJobs h).recordHistory h line).execute h line (rest.map some) =
        ((n, left.map some), u) →
      Meets h left u line' rest' t → Meets h (line :: rest) s line' rest' t

/-- A breakdown comes from a line that a command line of the dialogue performed where it stood. -/
theorem Converses.exists_performs (hc : Converses h lines s uses unread s')
    (h0 : s.crashed = false) (hk : s'.crashed = true) :
    ∃ line ∈ commandsOf uses, ∃ rest t q u, Meets h lines s line rest t ∧
      Performs h (.line line (t.parse line (rest.map some)).value) t q u ∧ Breaks h u q := by
  induction hc with
  | ended => cases h0.symm.trans hk
  | @closed s =>
    rw [crashed_reapJobs, h0] at hk
    cases hk
  | skipped ho hb _ ih =>
    rw [crashed_reapJobs] at ih
    obtain ⟨line', hm, rest', t, q, v, hmeets, hp⟩ := ih h0 hk
    exact ⟨line', hm, rest', t, q, v, .skipped ho hb hmeets, hp⟩
  | @command line fed rest inner _ uses _ n s t u _ ho hb hrec _ he _ _ ih =>
    have h0' : t.crashed = false := by
      rw [← hrec]
      exact (crashed_reapJobs s).trans h0
    cases hu : u.crashed with
    | false =>
      obtain ⟨line', hm, rest', v, q, w, hmeets, hp⟩ := ih hu hk
      have hlater := Meets.later ho hb (hrec.symm ▸ he) hmeets
      exact ⟨line', List.mem_cons_of_mem _ hm, rest', v, q, w, hlater, hp⟩
    | true =>
      obtain ⟨es, hr⟩ := exists_runs h (.line line (t.parse line ((fed ++ rest).map some)).value) t
      have hres : (Task.result h (.line line (t.parse line ((fed ++ rest).map some)).value) t).2 =
          u := congrArg Prod.snd he
      rw [hres] at hr
      obtain ⟨q, v, hp, hbr⟩ := hr.exists_performs h0' hu
      exact ⟨line, List.mem_cons_self, _, t, q, v, hrec ▸ .here ho hb, hp, hbr⟩

/-- What is added to the history file for a command line. -/
def additionFor (path line : String) : String × ByteArray :=
  (path, (line.trimBlankEnd ++ "\n").toUTF8)

/-! ### What is added to the history -/

theorem spared_execute {α : Type} {view : σ → α} (hs : h.Spares view) (ht : s.Tame view)
    (line : String) (input : LineSource) : Spared view s (s.execute h line input).2 := by
  obtain ⟨es, hr⟩ := exists_runs h (.line line (s.parse line input).value) s
  exact hr.spared hs ht

theorem Spared.additions_eq {s t : Session (Recorded σ)} (hst : Spared Recorded.filing s t) :
    t.system.additions = s.system.additions := congrArg Prod.fst hst.view_eq

theorem Spared.refused_eq {s t : Session (Recorded σ)} (hst : Spared Recorded.filing s t) :
    t.system.refused = s.system.refused := congrArg Prod.snd hst.view_eq

theorem entry?_of_line (hb : line.isAllBlank = false) (hn : '\n' ∉ line.toList) :
    History.entry? line = some line.trimBlankEnd := by
  cases he : History.entry? line with
  | none => cases hb.symm.trans (History.entry?_eq_none_iff.mp he)
  | some entry => rw [(History.entry?_eq_some_iff.mp he).eq_trimBlankEnd hn]

theorem filing_recordHistory {s : Session (Recorded σ)} (hf : s.settings.historyFile = some path)
    (hb : line.isAllBlank = false) (hn : '\n' ∉ line.toList)
    (hr : (s.recordHistory h.recorded line).system.refused = false) :
    s.system.refused = false ∧ (s.recordHistory h.recorded line).system.additions =
      s.system.additions ++ [additionFor path line] := by
  rw [recordHistory, hf] at hr ⊢
  exact History.filing_append (entry?_of_line hb hn) hr

/-- The command lines are added, one after another, and nothing else is. -/
theorem Converses.additions_eq {s s' : Session (Recorded σ)}
    (hc : Converses h.recorded lines s uses unread s') (hf : s.settings.historyFile = some path)
    (ht : s.Tame Recorded.filing) (hn : ∀ line ∈ lines, '\n' ∉ line.toList)
    (hr : s'.system.refused = false) :
    s.system.refused = false ∧
      s'.system.additions = s.system.additions ++ (commandsOf uses).map (additionFor path) := by
  induction hc with
  | ended => exact ⟨hr, (List.append_nil _).symm⟩
  | closed =>
    have hj := spared_reapJobs h.spares_filing ht
    exact ⟨hj.refused_eq.symm.trans hr, hj.additions_eq.trans (List.append_nil _).symm⟩
  | skipped _ _ _ ih =>
    have hj := spared_reapJobs h.spares_filing ht
    obtain ⟨hr', ha⟩ := ih (by rw [hj.settings, hf]) hj.tame
      (fun line hl => hn line (List.mem_cons_of_mem _ hl)) hr
    rw [hj.additions_eq] at ha
    exact ⟨hj.refused_eq.symm.trans hr', ha⟩
  | @command line fed rest _ _ uses _ _ s t u _ _ hb hrec _ he _ _ ih =>
    have hj := spared_reapJobs h.spares_filing ht
    have hjf : (s.reapJobs h.recorded).settings.historyFile = some path := by rw [hj.settings, hf]
    have htf : t.settings.historyFile = some path := by rw [← hrec]; exact hjf
    have htt : t.Tame Recorded.filing := by rw [← hrec]; exact hj.tame
    have hu := spared_execute h.spares_filing htt line ((fed ++ rest).map some)
    rw [he] at hu
    have hline : '\n' ∉ line.toList := hn line List.mem_cons_self
    obtain ⟨hru, hau⟩ := ih (by rw [hu.settings, htf]) hu.tame
      (fun l hl => hn l (List.mem_cons_of_mem _ (List.mem_append_right fed hl))) hr
    have hrt : t.system.refused = false := hu.refused_eq.symm.trans hru
    rw [← hrec] at hrt
    obtain ⟨hrj, haj⟩ := filing_recordHistory hjf hb hline hrt
    refine ⟨hj.refused_eq.symm.trans hrj, ?_⟩
    rw [hau, hu.additions_eq, ← hrec, haj, hj.additions_eq, List.append_assoc]
    rfl

/-! ### The lines of the input -/

theorem newline_notMem_splitLines (bytes : List UInt8) : ∀ l ∈ splitLines bytes, 10 ∉ l := by
  fun_induction splitLines bytes with
  | case1 => exact List.forall_mem_nil _
  | case2 r ih | case3 r ih => exact List.forall_mem_cons.mpr ⟨List.not_mem_nil, ih⟩
  | case4 b r hb =>
    exact List.forall_mem_singleton.mpr fun hm => hb (List.mem_singleton.mp hm).symm
  | case5 b r hb _ l ls hs ih =>
    rw [hs] at ih
    obtain ⟨hl, hls⟩ := List.forall_mem_cons.mp ih
    refine List.forall_mem_cons.mpr ⟨fun hm => ?_, hls⟩
    exact (List.mem_cons.mp hm).elim (fun he => hb he.symm) hl

theorem newline_notMem_of_inputLines {input : ByteArray}
    (hl : inputLines input = lines.map some) (hm : line ∈ lines) : '\n' ∉ line.toList := by
  have hline : some line ∈ inputLines input := hl ▸ List.mem_map_of_mem hm
  obtain ⟨l, hs, hu⟩ := List.mem_map.mp hline
  intro hn
  obtain ⟨before, after, hsplit⟩ := List.append_of_mem hn
  have htext : line = String.ofList before ++ "\n" ++ String.ofList after := by
    rw [← String.toList_inj]
    simp [hsplit]
  have hbytes : line.toUTF8.data.toList = l := by
    rw [Text.toUTF8_of_fromUTF8? hu]
  refine newline_notMem_splitLines _ l hs ?_
  rw [← hbytes, htext, String.toUTF8_eq_toByteArray, String.toByteArray_append,
    String.toByteArray_append, ByteArray.toList_data_append, ByteArray.toList_data_append]
  exact List.mem_append_left _ (List.mem_append_right _ (by decide))

/-! ### Dialogues -/

/-- The session after its startup files, if they are run. -/
def greeted (h : Host σ) (startup : Bool) (s : Session σ) : Session σ :=
  if startup then s.startUp h else s

/-- The lines of the input that a session has when its startup files are done. -/
def inputOf (h : Host σ) (startup : Bool) (s : Session σ) : LineSource :=
  inputLines (h.readInput (s.greeted h startup).system).1

/-- The session at its first command line. -/
def opened (h : Host σ) (startup : Bool) (s : Session σ) : Session σ :=
  let t := s.greeted h startup
  if t.isOver then t else { t with system := (h.readInput t.system).2 }

theorem interact_eq (startup : Bool) (s : Session σ) :
    s.interact h startup = converse h (s.inputOf h startup) (s.opened h startup) := by
  change (if (s.greeted h startup).isOver then (Except.ok (), s.greeted h startup)
    else converse h (inputLines (h.readInput (s.greeted h startup).system).1)
      { s.greeted h startup with system := (h.readInput (s.greeted h startup).system).2 }) = _
  rw [inputOf, opened]
  generalize s.greeted h startup = t
  by_cases ho : t.isOver = true
  · rw [if_pos ho, if_pos ho, converse, if_pos ho]
  · rw [if_neg ho, if_neg ho]

theorem spared_opened {s : Session σ} {α : Type} {view : σ → α} (hs : h.Spares view)
    (ht : s.Tame view) (startup : Bool) : Spared view s (s.opened h startup) := by
  have hg : Spared view s (s.greeted h startup) := by
    rw [greeted]
    split
    · exact spared_startUp hs ht
    · exact ht.refl
  rw [opened]
  generalize s.greeted h startup = t at hg ⊢
  split
  · exact hg
  · exact hg.trans (hg.tame.spared (hs.readInput t.system) rfl rfl)

/-- Every line of the input is skipped, or recorded and then executed, or taken by the line executed
before it, or left over when the session is to end: after an `exit`, or after a command line that
breaks the shell down. If the system refuses nothing, the history gets the command lines, each
without the blanks at its end, in their order and nothing else, whatever the startup files, the
scripts and the lines themselves do. -/
theorem history_holds_commands (h : Host σ) (startup : Bool) (s : Session σ)
    (hf : s.settings.historyFile = some path)
    (hl : s.recorded.inputOf h.recorded startup = lines.map some) :
    ∃ uses unread,
      Converses h.recorded lines (s.recorded.opened h.recorded startup) uses unread
        (s.recorded.interact h.recorded startup).2 ∧
      (s.recorded.interact h.recorded startup).1 = .ok () ∧
      lines = uses.flatMap Use.lines ++ unread ∧
      (unread = [] ∨ (s.recorded.interact h.recorded startup).2.exitLatch.isSome = true ∨
        (s.recorded.opened h.recorded startup).crashed = true ∨
        (s.recorded.interact h.recorded startup).2.crashed = true ∧
          ∃ line ∈ commandsOf uses, ∃ rest t q u,
            Meets h.recorded lines (s.recorded.opened h.recorded startup) line rest t ∧
            Performs h.recorded (.line line (t.parse line (rest.map some)).value) t q u ∧
            Breaks h.recorded u q) ∧
      ((s.recorded.interact h.recorded startup).2.system.refused = false →
        (s.recorded.interact h.recorded startup).2.system.additions =
          (commandsOf uses).map (additionFor path)) := by
  have ho := spared_opened h.spares_filing s.tame_recorded startup
  have hi := interact_eq (h := h.recorded) startup s.recorded
  rw [hl] at hi
  obtain ⟨uses, unread, hc⟩ :=
    exists_converses (h := h.recorded) lines (s.recorded.opened h.recorded startup)
  rw [← hi] at hc
  refine ⟨uses, unread, hc, ?_, hc.split.1, ?_, ?_⟩
  · rw [hi]
    exact converse_texts lines _
  · cases hover : (s.recorded.interact h.recorded startup).2.isOver with
    | false => exact .inl (hc.split.2 hover)
    | true =>
      rw [isOver, Bool.or_eq_true] at hover
      refine .inr (hover.imp_right fun hk => ?_)
      cases h0 : (s.recorded.opened h.recorded startup).crashed with
      | true => exact .inl rfl
      | false => exact .inr ⟨hk, hc.exists_performs h0 hk⟩
  · intro hr
    have hof : (s.recorded.opened h.recorded startup).settings.historyFile = some path := by
      rw [ho.settings]
      exact hf
    obtain ⟨-, ha⟩ := hc.additions_eq hof ho.tame
      (fun line hm => newline_notMem_of_inputLines hl hm) hr
    rw [ha, ho.additions_eq]
    rfl

/-- A session with a startup file, a here-document, a faulty line and an `exit` before the end. -/
theorem history_holds_commands_exit :
    let texts := [("/root/.ghshrc", "help\n")]
    let h : Host Machine.Desk :=
      { Machine.Desk.host with
        fileContent := fun _ path =>
          ((texts.lookup path).map String.toUTF8).elim (.error (.system .noEntry)) .ok
        makeDirectories := fun _ d => (.ok (), d)
        appendPrivate := fun _ _ d => (.ok (), d) }
    let s : Session Machine.Desk :=
      { system := .onDisk .empty Machine.Disk.root true
          (some "help \n\nhelp <<end\n# data\nend\nexport >\nexit 3\nhelp\n".toUTF8)
        settings := .ofPreferences { historyFile := some "/root/.ghost_history" } none "/root/.ghsh"
        environment := ⟨[⟨"HOME", "/root"⟩]⟩
        directory := "/root" }
    let r := s.recorded.interact h.recorded true
    s.settings.historyFile = some "/root/.ghost_history" ∧ r.2.exitLatch = some 3 ∧
      ∃ lines uses unread, s.recorded.inputOf h.recorded true = lines.map some ∧
        Converses h.recorded lines (s.recorded.opened h.recorded true) uses unread r.2 ∧
        r.2.system.additions = (commandsOf uses).map (additionFor "/root/.ghost_history") := by
  intro texts h s r
  have hf : s.settings.historyFile = some "/root/.ghost_history" := rfl
  have hl : s.recorded.inputOf h.recorded true =
      ["help ", "", "help <<end", "# data", "end", "export >", "exit 3", "help"].map some := by
    decide +kernel
  have hr : r.2.system.refused = false := by decide +kernel
  obtain ⟨uses, unread, hc, -, -, -, ha⟩ := history_holds_commands h true s hf hl
  exact ⟨hf, by decide +kernel, _, uses, unread, hl, hc, ha hr⟩

/-- After a line that breaks the shell down the next line is not read as a command, though there was
no `exit`. -/
theorem history_with_nul :
    let h : Host Machine.Desk :=
      { Machine.Desk.host with
        makeDirectories := fun _ d => (.ok (), d)
        appendPrivate := fun _ _ d => (.ok (), d) }
    let s : Session Machine.Desk :=
      { system := .onDisk .empty Machine.Disk.root true (some "export A=x\x00y\nexit 5\n".toUTF8)
        settings := .ofPreferences { historyFile := some "/root/.ghost_history" } none "/root/.ghsh"
        environment := {}
        directory := "/root" }
    let r := s.recorded.interact h.recorded false
    s.recorded.inputOf h.recorded false = [some "export A=x\x00y", some "exit 5"] ∧
      r.2.exitLatch = none ∧ r.2.system.refused = false ∧
      r.2.system.additions = [additionFor "/root/.ghost_history" "export A=x\x00y"] := by
  decide +kernel

end Session

end AssistedShell
