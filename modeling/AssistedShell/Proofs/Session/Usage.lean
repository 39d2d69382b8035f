import AssistedShell.Proofs.Pipeline.HereDocument
import AssistedShell.Proofs.Session.Breakdown

/-! How the lines of a script are used. Where a command line is expected, a line
that says nothing is skipped, and any other line is executed; the lines that its
here-documents take are neither. Every line is used once and in its turn, and a
script uses its own lines only. Lines are left over when the session is to end,
that is, after an `exit` and after a breakdown. -/

namespace AssistedShell

namespace Text

/-- The first character, if it is to stay, is still the first without the end of the text. -/
theorem head?_dropEndWhile {p : Char → Bool} {cs : List Char}
    (hc : ∀ c, cs.head? = some c → p c = false) : (dropEndWhile p cs).head? = cs.head? := by
  obtain ⟨ending, hs, he⟩ := Pipeline.exists_dropEndWhile_append p cs
  cases hk : dropEndWhile p cs with
  | cons c kept =>
    rw [hk] at hs
    rw [hs]
    rfl
  | nil =>
    rw [hk, List.nil_append] at hs
    cases cs with
    | nil => rfl
    | cons c r =>
      have hp : p c = true := he c (hs ▸ List.mem_cons_self)
      cases hp.symm.trans (hc c rfl)

end Text

namespace Session

variable {σ : Type} {h : Host σ} {s s' t : Session σ} {line : String}

/-! ### Lines that say nothing -/

/-- The lines that say nothing where a command line is expected. -/
inductive SaysNothing : List Char → Prop where
  | blank {blanks} : (∀ c ∈ blanks, Text.isBlank c = true) → SaysNothing blanks
  | comment {blanks text} : (∀ c ∈ blanks, Text.isBlank c = true) →
      SaysNothing (blanks ++ '#' :: text)

theorem saysNothing_iff {cs : List Char} :
    SaysNothing cs ↔
      (cs.dropWhile Text.isBlank).head? = none ∨ (cs.dropWhile Text.isBlank).head? = some '#' := by
  constructor
  · rintro (hb | hb)
    · exact .inl (List.head?_eq_none_iff.mpr (List.dropWhile_eq_nil_iff.mpr hb))
    · rw [List.dropWhile_append_of_pos hb, List.dropWhile_cons_of_neg (by decide)]
      exact .inr rfl
  · have hs : cs = cs.takeWhile Text.isBlank ++ cs.dropWhile Text.isBlank :=
      List.takeWhile_append_dropWhile.symm
    have hb : ∀ c ∈ cs.takeWhile Text.isBlank, Text.isBlank c = true := fun c hc =>
      List.mem_takeWhile_imp hc
    rintro (hn | hc)
    · rw [hs, List.head?_eq_none_iff.mp hn, List.append_nil]
      exact .blank hb
    · obtain ⟨text, ht⟩ := List.head?_eq_some_iff.mp hc
      rw [hs, ht]
      exact .comment hb

theorem isIdle_iff : isIdle line = true ↔ SaysNothing line.toList := by
  have hf : ∀ c, (line.toList.dropWhile Text.isBlank).head? = some c → Text.isBlank c = false := by
    intro c hc
    have hn := List.head?_dropWhile_not Text.isBlank line.toList
    rw [hc] at hn
    exact hn
  rw [saysNothing_iff, ← Text.head?_dropEndWhile hf, isIdle, Bool.or_eq_true,
    String.isEmpty_iff, String.startsWith_string_iff, ← String.toList_inj, String.trimBlank,
    String.toList_ofList, Text.trim, Text.trimStart, Text.trimEnd, List.head?_eq_none_iff]
  refine or_congr Iff.rfl ?_
  rw [List.head?_eq_some_iff]
  exact exists_congr fun r => eq_comm

/-! ### What a line takes -/

/-- The lines that a line takes from those after it, and the lines that it leaves. A faulty or empty
line takes none, and any other takes the lines of its here-documents. -/
inductive Takes (s : Session σ) (line : String) : List String → List String → Prop where
  | faulty {left f} : (s.parse line (left.map some)).value = .error f → Takes s line [] left
  | silent {left} : (s.parse line (left.map some)).value = .ok none → Takes s line [] left
  | fed {p fed left pieces n} : (s.parse line ((fed ++ left).map some)).value = .ok (some p) →
      Pipeline.Feeds
        ((Pipeline.body (Token.ofLine (Expansion.line s.environment.get? line))).splitOn .pipe)
        ((fed ++ left).map some) p.stages pieces (left.map some) n →
      Takes s line fed left

theorem exists_takes (s : Session σ) (line : String) (rest : List String) :
    ∃ fed left, rest = fed ++ left ∧ (s.parse line (rest.map some)).rest = left.map some ∧
      Takes s line fed left := by
  obtain ⟨ts, hts⟩ : ∃ ts, Token.ofLine (Expansion.line s.environment.get? line) = ts := ⟨_, rfl⟩
  have hp : s.parse line (rest.map some) = Pipeline.ofTokens ts (rest.map some) := by
    rw [parse, Pipeline.ofLine, hts]
  rw [Pipeline.ofTokens] at hp
  by_cases hn : ts.isEmpty = true
  · rw [if_pos hn] at hp
    exact ⟨[], rest, rfl, congrArg (·.rest) hp, .silent (congrArg (·.value) hp)⟩
  rw [if_neg hn] at hp
  rcases hd : Pipeline.drafts ts with f | ⟨ds, background⟩
  · rw [hd] at hp
    exact ⟨[], rest, rfl, congrArg (·.rest) hp, .faulty (congrArg (·.value) hp)⟩
  rw [hd] at hp
  obtain ⟨hw, rfl⟩ := Pipeline.drafts_eq_ok hd
  obtain ⟨pieces, hf⟩ := Pipeline.exists_feeds hw (rest.map some)
  obtain ⟨fed, left, rfl, -, hl⟩ := List.map_eq_append_iff.mp hf.source_eq
  rw [← hl] at hf
  refine ⟨fed, left, rfl, (congrArg (·.rest) hp).trans hl.symm, ?_⟩
  subst hts
  exact .fed (congrArg (·.value) hp) hf

/-! ### What becomes of lines -/

/-- What becomes of lines where command lines are expected. -/
inductive Use where
  | skipped (line : String)
  /-- A command line, the lines that its here-documents take, its status, and what becomes of the
  lines of the script that it runs. -/
  | command (line : String) (fed : List String) (status : Nat) (script : List Use)

/-- The lines in their order. -/
def Use.lines : Use → List String
  | .skipped line => [line]
  | .command line fed _ _ => line :: fed

/-- The status of a command line. -/
def Use.status? : Use → Option Nat
  | .skipped _ => none
  | .command _ _ status _ => some status

/-- The status of the last command line, or else the one before. -/
def statusAfter (before : Nat) (uses : List Use) : Nat :=
  (uses.filterMap Use.status?).getLast?.getD before

/-- What becomes of the lines of a task, the lines that are left over, the status, and the session
after it. A script uses its own lines, whatever lines may come after the one that runs it. -/
inductive Uses (h : Host σ) :
    Task → Session σ → List Use → List String → Nat → Session σ → Prop where
  | other {line parsed s n s'} : (∀ path, demand parsed ≠ .source path) →
      perform h (runNested h) line parsed s = (n, s') → Uses h (.line line parsed) s [] [] n s'
  | source {line parsed path s uses unread n s'} : demand parsed = .source path →
      Uses h (.file path) s uses unread n s' →
      Uses h (.line line parsed) s uses unread n { s' with lastStatus := n }
  | missing {path s f} : h.readText s.system (joinPath s.directory path) = .error f →
      Uses h (.file path) s [] [] 1
        (s.report h ("source: " ++ joinPath s.directory path ++ ": " ++ f.message))
  | found {path s text uses unread n s'} :
      h.readText s.system (joinPath s.directory path) = .ok text →
      Uses h (.script (joinPath s.directory path) text) s uses unread n s' →
      Uses h (.file path) s uses unread n s'
  | refused {path text s} : nestingLimit ≤ s.depth →
      Uses h (.script path text) s [] [] 1
        (s.report h ("source: " ++ path ++ ": nested too deeply"))
  | script {path text s uses unread n s'} : s.depth < nestingLimit →
      Uses h (.lines (text.textLines.map some) 0) { s with depth := s.depth + 1 } uses unread n s' →
      Uses h (.script path text) s uses unread n { s' with depth := s'.depth - 1 }
  | finished {n s} : Uses h (.lines [] n) s [] [] n s
  | skipped {line rest n s uses unread m s'} : SaysNothing line.toList →
      Uses h (.lines rest n) s uses unread m s' →
      Uses h (.lines (some line :: rest) n) s (.skipped line :: uses) unread m s'
  | last {line fed rest n s inner left m t} : ¬ SaysNothing line.toList → Takes s line fed rest →
      s.execute h line ((fed ++ rest).map some) = ((m, rest.map some), t) →
      Uses h (.line line (s.parse line ((fed ++ rest).map some)).value) s inner left m t →
      t.isOver = true →
      Uses h (.lines (some line :: (fed ++ rest).map some) n) s [.command line fed m inner] rest m t
  | next {line fed rest n s inner left m t uses unread k s'} : ¬ SaysNothing line.toList →
      Takes s line fed rest →
      s.execute h line ((fed ++ rest).map some) = ((m, rest.map some), t) →
      Uses h (.line line (s.parse line ((fed ++ rest).map some)).value) s inner left m t →
      t.isOver = false → Uses h (.lines (rest.map some) m) t uses unread k s' →
      Uses h (.lines (some line :: (fed ++ rest).map some) n) s
        (.command line fed m inner :: uses) unread k s'

/-- Whether all lines of a task are texts. -/
def Task.Legible (task : Task) : Prop :=
  ∀ lines n, task = .lines lines n → ∃ texts : List String, lines = texts.map some

theorem legible_lines (texts : List String) (n : Nat) :
    (Task.lines (texts.map some) n).Legible := by
  rintro lines m ht
  obtain ⟨rfl, -⟩ := Task.lines.inj ht
  exact ⟨texts, rfl⟩

theorem legible_line (line : String) (parsed : Except SyntaxFault (Option Pipeline)) :
    (Task.line line parsed).Legible := by
  intro lines n ht
  cases ht

theorem Task.Legible.rest {rest : LineSource} {n : Nat}
    (hl : (Task.lines (some line :: rest) n).Legible) :
    ∃ texts : List String, rest = texts.map some := by
  obtain ⟨texts, ht⟩ := hl _ _ rfl
  obtain ⟨-, texts', -, -, hr⟩ := List.map_eq_cons_iff.mp ht.symm
  exact ⟨texts', hr.symm⟩

theorem Runs.result_eq {task : Task} {es : List Event} {n : Nat} (hr : Runs h task s es n s') :
    task.result h s = (n, s') := by
  obtain ⟨es', hr'⟩ := exists_runs h task s
  obtain ⟨-, hn, hs⟩ := hr'.unique hr
  exact Prod.ext hn hs

theorem execute_eq {input : LineSource} {es : List Event} {n : Nat}
    (hr : Runs h (.line line (s.parse line input).value) s es n s') :
    s.execute h line input = ((n, (s.parse line input).rest), s') := by
  have he : perform h (runNested h) line (s.parse line input).value s = (n, s') := hr.result_eq
  rw [execute, he]

theorem Runs.exists_uses {task : Task} {es : List Event} {n : Nat} (hr : Runs h task s es n s')
    (hl : task.Legible) : ∃ uses unread, Uses h task s uses unread n s' := by
  induction hr with
  | plain hd hp => exact ⟨[], [], .other (by rw [hd]; nofun) (hp (runNested h))⟩
  | exit hd he =>
    refine ⟨[], [], .other (by rw [hd]; nofun) ?_⟩
    rw [perform_of_exit hd, he]
  | source hd _ ih =>
    obtain ⟨uses, unread, hu⟩ := ih nofun
    exact ⟨uses, unread, .source hd hu⟩
  | missing ht => exact ⟨[], [], .missing ht⟩
  | found ht _ ih =>
    obtain ⟨uses, unread, hu⟩ := ih nofun
    exact ⟨uses, unread, .found ht hu⟩
  | refused hd => exact ⟨[], [], .refused hd⟩
  | script hd _ ih =>
    obtain ⟨uses, unread, hu⟩ := ih (legible_lines _ _)
    exact ⟨uses, unread, .script hd hu⟩
  | finished => exact ⟨[], [], .finished⟩
  | cut =>
    obtain ⟨texts, ht⟩ := hl _ _ rfl
    cases texts with
    | nil => cases ht
    | cons text texts => cases (List.cons.inj ht).1
  | idle hi _ ih =>
    obtain ⟨rest, rfl⟩ := hl.rest
    obtain ⟨uses, unread, hu⟩ := ih (legible_lines _ _)
    exact ⟨_, unread, .skipped (isIdle_iff.mp hi) hu⟩
  | last hi hr ho ih =>
    obtain ⟨rest, rfl⟩ := hl.rest
    obtain ⟨fed, left, rfl, hrest, ht⟩ := exists_takes _ _ rest
    obtain ⟨inner, unused, hu⟩ := ih (legible_line _ _)
    have he := execute_eq hr
    rw [hrest] at he
    exact ⟨_, left, .last (mt isIdle_iff.mpr (Bool.eq_false_iff.mp hi)) ht he hu ho⟩
  | next hi hr ho _ ih ih' =>
    obtain ⟨rest, rfl⟩ := hl.rest
    obtain ⟨fed, left, rfl, hrest, ht⟩ := exists_takes _ _ rest
    obtain ⟨inner, unused, hu⟩ := ih (legible_line _ _)
    rw [hrest] at ih'
    obtain ⟨uses, unread, hu'⟩ := ih' (legible_lines _ _)
    have he := execute_eq hr
    rw [hrest] at he
    exact ⟨_, unread, .next (mt isIdle_iff.mpr (Bool.eq_false_iff.mp hi)) ht he hu ho hu'⟩

/-! ### Every line is used once -/

/-- An account of lines after a line with a status: what becomes of them, the lines that are left
over, and the status. Lines are left over only when the session is to end. -/
structure Account (lines : List String) (before : Nat) (uses : List Use) (unread : List String)
    (status : Nat) (ends : Bool) : Prop where
  split : lines = uses.flatMap Use.lines ++ unread
  status : status = statusAfter before uses
  whole : ends = false → unread = []

theorem statusAfter_skipped (before : Nat) (uses : List Use) :
    statusAfter before (.skipped line :: uses) = statusAfter before uses := rfl

theorem statusAfter_command (before : Nat) (fed : List String) (status : Nat)
    (script uses : List Use) :
    statusAfter before (.command line fed status script :: uses) = statusAfter status uses := by
  have hs : Use.status? (.command line fed status script) = some status := rfl
  rw [statusAfter, List.filterMap_cons_some hs, List.getLast?_cons]
  rfl

variable {texts unread : List String} {before n : Nat} {uses : List Use}

theorem eq_cons_of_map {rest : List String} (hl : some line :: rest.map some = texts.map some) :
    texts = line :: rest :=
  (List.map_injective_iff.mpr (Option.some_injective _) (List.map_cons.trans hl)).symm

theorem Uses.account {task : Task} (hu : Uses h task s uses unread n s')
    (ht : task = .lines (texts.map some) before) :
    Account texts before uses unread n s'.isOver := by
  induction hu generalizing texts before with
  | other | source | missing | found | refused | script => cases ht
  | finished =>
    obtain ⟨hl, rfl⟩ := Task.lines.inj ht
    obtain rfl := List.map_eq_nil_iff.mp hl.symm
    exact ⟨rfl, rfl, fun _ => rfl⟩
  | skipped _ _ ih =>
    obtain ⟨hl, rfl⟩ := Task.lines.inj ht
    obtain ⟨line, rest, rfl, hline, rfl⟩ := List.map_eq_cons_iff.mp hl.symm
    obtain rfl := Option.some.inj hline
    have ha := ih rfl
    refine ⟨congrArg (line :: ·) ha.split, ?_, ha.whole⟩
    rw [statusAfter_skipped]
    exact ha.status
  | @last line fed rest _ _ inner _ m _ _ _ _ _ ho =>
    obtain ⟨hl, rfl⟩ := Task.lines.inj ht
    obtain rfl := eq_cons_of_map hl
    refine ⟨?_, ?_, ?_⟩
    · simp [Use.lines]
    · rw [statusAfter_command]
      rfl
    · intro hn
      cases ho.symm.trans hn
  | @next line fed rest _ _ inner _ m _ uses unread _ _ _ _ _ _ _ _ _ ih =>
    obtain ⟨hl, rfl⟩ := Task.lines.inj ht
    obtain rfl := eq_cons_of_map hl
    have ha := ih rfl
    refine ⟨?_, ?_, ha.whole⟩
    · rw [ha.split]
      simp [Use.lines]
    · rw [ha.status, statusAfter_command]

theorem Uses.account_script {path text : String} (hd : s.depth < nestingLimit)
    (hu : Uses h (.script path text) s uses unread n s') :
    Account text.textLines 0 uses unread n s'.isOver := by
  cases hu with
  | refused hl => exact absurd hl (Nat.not_le.mpr hd)
  | script _ hu => exact hu.account rfl

/-- Every line of a script is used once and in its turn: it is skipped, executed, or taken by the
line executed before it. That holds for the scripts that it runs in the same way, which use their
own lines only. The status is that of the last line executed, or 0. Lines are left over only after
an `exit` or a line that breaks the shell down. -/
theorem script_lines_used_once (h : Host σ) (path text : String) (s : Session σ)
    (hd : s.depth < nestingLimit) (hc : s.crashed = false) :
    ∃ uses unread,
      Uses h (.script path text) s uses unread (runNested h path text s).1
        (runNested h path text s).2 ∧
      text.textLines = uses.flatMap Use.lines ++ unread ∧
      (runNested h path text s).1 = statusAfter 0 uses ∧
      (unread = [] ∨ (runNested h path text s).2.exitLatch.isSome = true ∨
        ∃ q t, Performs h (.script path text) s q t ∧ Breaks h t q) := by
  obtain ⟨es, hr⟩ := exists_runs h (.script path text) s
  obtain ⟨uses, unread, hu⟩ := hr.exists_uses nofun
  obtain ⟨hsplit, hstatus, hwhole⟩ := hu.account_script hd
  refine ⟨uses, unread, hu, hsplit, hstatus, ?_⟩
  cases ho : (runNested h path text s).2.isOver with
  | false => exact .inl (hwhole ho)
  | true =>
    rw [isOver, Bool.or_eq_true] at ho
    exact .inr (ho.imp_right fun hk => hr.exists_performs hc hk)

/-- A script that runs another one; blank lines and comments in here-documents are data. -/
theorem script_lines_used_once_nested :
    let texts := [("/root/inner", "help <<end\n# data\n\n")]
    let h : Host Machine.Desk :=
      { Machine.Desk.host with
        fileContent := fun _ path =>
          ((texts.lookup path).map String.toUTF8).elim (.error (.system .noEntry)) .ok }
    let text := "# comment\n\nsource inner\ncd <<end\n# data\nend\nsource\n"
    let s : Session Machine.Desk :=
      { system := .onDisk .empty Machine.Disk.root true none
        settings := .ofPreferences {} none "/root/.ghsh"
        environment := {}
        directory := "/root" }
    s.depth < nestingLimit ∧ s.crashed = false ∧
      ∃ uses s', Uses h (.script "/root/script" text) s uses [] 2 s' ∧
        text.textLines = uses.flatMap Use.lines ∧ statusAfter 0 uses = 2 := by
  intro texts h text s
  obtain ⟨uses, unread, hu, hsplit, hstatus, hrest⟩ :=
    script_lines_used_once h "/root/script" text s (by decide) rfl
  have hn : (runNested h "/root/script" text s).1 = 2 := by decide +kernel
  have ho : (runNested h "/root/script" text s).2.isOver = false := by decide +kernel
  obtain ⟨hl, hk⟩ := isOver_eq_false.mp ho
  obtain ⟨es, hr⟩ := exists_runs h (.script "/root/script" text) s
  rw [hn] at hu hstatus
  rcases hrest with rfl | hset | ⟨q, t, hp, hb⟩
  · rw [List.append_nil] at hsplit
    exact ⟨by decide, rfl, uses, _, hu, hsplit, hstatus.symm⟩
  · rw [hl] at hset
    cases hset
  · cases hk.symm.trans (hp.crashed hb rfl hr)

/-- After a line that breaks the shell down the lines are not used, though there was no `exit`: the
status is not that of the last line. -/
theorem script_with_nul :
    let h := Machine.Desk.host
    let text := "export A=x\x00y\nsource\n"
    let s : Session Machine.Desk :=
      { system := .onDisk .empty Machine.Disk.root true none
        settings := .ofPreferences {} none "/root/.ghsh"
        environment := {}
        directory := "/root" }
    s.depth < nestingLimit ∧ text.textLines = ["export A=x\x00y", "source"] ∧
      (runNested h "/root/script" text s).2.exitLatch = none ∧
      (s.execute h "export A=x\x00y" [some "source"]).1.2 = [some "source"] ∧
      ((s.execute h "export A=x\x00y" [some "source"]).2.execute h "source" []).1.1 = 2 ∧
      (runNested h "/root/script" text s).1 = 0 := by
  decide +kernel

end Session

end AssistedShell
