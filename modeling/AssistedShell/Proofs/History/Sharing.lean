import AssistedShell.Machine.Kernel
import AssistedShell.Proofs.History.Entries
import Mathlib.Data.List.Induction

/-! One history file for several shells. Each shell adds an entry in one piece, so
however the shells take turns, and whatever they do in between, the file holds
the entries of the texts one after another, and every shell reads them back. -/

namespace AssistedShell.History

variable {ι σ : Type}

/-- Whether a host knows a file under a path, and what it holds, if it is there. -/
structure Shares (h : Host σ) (path : String) (content : σ → Option ByteArray) : Prop where
  /-- What is added stands at the end, in one piece. -/
  adds : ∀ bytes s t, h.appendPrivate path bytes s = (.ok (), t) →
    content t = some ((content s).getD .empty ++ bytes)
  makes : ∀ dir s, content (h.makeDirectories dir s).2 = content s
  reads : ∀ s bytes, content s = some bytes → h.fileContent s path = .ok bytes
  lacks : ∀ s, content s = none → ∃ f, h.fileContent s path = .error f ∧ f.kind = .notFound

/-- What happens to the file between two states: the texts that the shells have appended, in the
order in which they were written. -/
inductive Run (h : ι → Host σ) (path : ι → String) (content : σ → Option ByteArray) (s : σ) :
    List (ι × String) → σ → Prop where
  | start : Run h path content s [] s
  /-- Something happens that leaves the file as it is. -/
  | pass {as t u} : Run h path content s as t → content u = content t → Run h path content s as u
  /-- A shell writes what is kept of a text. -/
  | write {as t i text entry u} : Run h path content s as t → entry? text = some entry →
      (h i).appendPrivate (path i) (entry ++ "\n").toUTF8 t = (.ok (), u) →
      Run h path content s (as ++ [(i, text)]) u
  /-- A shell keeps nothing of a text. -/
  | blank {as t i text} : Run h path content s as t → entry? text = none →
      Run h path content s (as ++ [(i, text)]) t

variable {h : ι → Host σ} {path : ι → String} {content : σ → Option ByteArray} {s s' : σ}
  {as : List (ι × String)}

/-- The entries of texts. -/
def entriesFor (texts : List String) : List String := texts.filterMap entry?

theorem forall₂_entriesFor (texts : List String) :
    List.Forall₂ Entered (texts.filter (!·.isAllBlank)) (entriesFor texts) := by
  induction texts with
  | nil => exact .nil
  | cons text texts ih =>
    rw [entriesFor, List.filterMap_cons]
    cases he : entry? text with
    | none =>
      have hb : text.isAllBlank = true := entry?_eq_none_iff.mp he
      rw [List.filter_cons_of_neg (by simp [hb])]
      exact ih
    | some entry =>
      have hb : text.isAllBlank = false := by
        rw [← Bool.not_eq_true, ← entry?_eq_none_iff, he]
        nofun
      rw [List.filter_cons_of_pos (by simp [hb])]
      exact .cons (entry?_eq_some_iff.mp he) ih

theorem toUTF8_textOf_concat (es : List String) (entry : String) :
    (Pipeline.textOf (es ++ [entry])).toUTF8 =
      (Pipeline.textOf es).toUTF8 ++ (entry ++ "\n").toUTF8 := by
  have ht : Pipeline.textOf (es ++ [entry]) = Pipeline.textOf es ++ (entry ++ "\n") := by
    simp [Pipeline.textOf, String.join_append]
  rw [ht]
  exact String.toByteArray_append

/-- The file holds the entries after what it held at first. -/
theorem Run.content_eq (hs : ∀ i, Shares (h i) (path i) content) (hr : Run h path content s as s') :
    (content s').getD .empty =
      (content s).getD .empty ++ (Pipeline.textOf (entriesFor (as.map Prod.snd))).toUTF8 := by
  induction hr with
  | start => exact ByteArray.append_empty.symm
  | pass _ hc ih => rw [hc, ih]
  | @write as t i text entry u _ he ha ih =>
    have hf : entriesFor ((as ++ [(i, text)]).map Prod.snd) =
        entriesFor (as.map Prod.snd) ++ [entry] := by
      rw [entriesFor, List.map_append, List.filterMap_append]
      exact congrArg _ (List.filterMap_cons_some he)
    rw [(hs i).adds _ _ _ ha, Option.getD_some, ih, ByteArray.append_assoc, hf,
      toUTF8_textOf_concat]
  | blank _ he ih =>
    rw [ih, List.map_append, entriesFor, entriesFor, List.filterMap_append]
    simp [he]

theorem content_makeParent {h : Host σ} {path : String} (hs : Shares h path content) (s : σ) :
    content (makeParent h path s).2 = content s := by
  rw [makeParent]
  split
  · rfl
  · rfl
  · exact hs.makes _ s

/-- A shell that appends a text writes it, after it has prepared the directory. -/
theorem Run.append (hs : ∀ i, Shares (h i) (path i) content) (hr : Run h path content s as s')
    {i : ι} {text : String} {t : σ}
    (ha : History.append (h i) (some (path i)) text s' = (.ok (), t)) :
    Run h path content s (as ++ [(i, text)]) t := by
  cases he : entry? text with
  | none =>
    rw [append_of_none _ _ _ he] at ha
    obtain ⟨-, rfl⟩ := Prod.mk.inj ha
    exact hr.blank he
  | some entry =>
    have hp := content_makeParent (hs i) s'
    rw [append_of_some _ _ _ he] at ha
    generalize makeParent (h i) (path i) s' = x at hp ha
    rcases x with ⟨f | _, u⟩
    · cases ha
    · exact (hr.pass hp).write he ha

/-- The state after shells have appended texts one after another. -/
def appended (h : ι → Host σ) (path : ι → String) (as : List (ι × String)) (s : σ) : σ :=
  as.foldl (fun t a => (History.append (h a.1) (some (path a.1)) a.2 t).2) s

/-- Shells that take turns write all their texts if the system refuses nothing. -/
theorem run_appended (hs : ∀ i, Shares (h i) (path i) content)
    (hd : ∀ i dir t, ((h i).makeDirectories dir t).1 = .ok ())
    (ha : ∀ i bytes t, ((h i).appendPrivate (path i) bytes t).1 = .ok ())
    (as : List (ι × String)) : Run h path content s as (appended h path as s) := by
  induction as using List.reverseRecOn with
  | nil => exact .start
  | append_singleton as a ih =>
    obtain ⟨i, text⟩ := a
    have hok := append_ok (s := appended h path as s) (fun dir => hd i dir _) (ha i) text
    rw [appended, List.foldl_append]
    exact ih.append hs (Prod.ext hok rfl)

/-- However shells take turns in appending texts to a file that was missing or empty, each of them
reads back, in the order of the writes, one entry for each text that is more than blanks: the text
without the blanks at its end, with a blank for every newline. Texts of blanks change nothing. -/
theorem entries_round_trip (hs : ∀ i, Shares (h i) (path i) content)
    (h0 : (content s).getD .empty = .empty) (hr : Run h path content s as s') :
    (∀ j, ∃ es, entries (h j) (some (path j)) s' = .ok es ∧
      List.Forall₂ Entered ((as.map Prod.snd).filter (!·.isAllBlank)) es) ∧
    ∀ i text,
      (text.isAllBlank = true → History.append (h i) (some (path i)) text s' = (.ok (), s')) ∧
      ∀ t, History.append (h i) (some (path i)) text s' = (.ok (), t) →
        Run h path content s (as ++ [(i, text)]) t := by
  have hf := forall₂_entriesFor (as.map Prod.snd)
  have hc := hr.content_eq hs
  rw [h0, ByteArray.empty_append] at hc
  refine ⟨?_, ?_⟩
  · intro j
    refine ⟨_, ?_, hf⟩
    rw [entries]
    cases hn : content s' with
    | some bytes =>
      rw [hn, Option.getD_some] at hc
      rw [(hs j).reads s' bytes hn, hc]
      dsimp only
      rw [entriesOf_textOf hf]
    | none =>
      obtain ⟨f, hf', hk⟩ := (hs j).lacks s' hn
      rw [hn, Option.getD_none] at hc
      rw [hf']
      dsimp only
      rw [if_pos hk, ← entriesOf_textOf hf, ← hc]
      rfl
  · intro i text
    exact ⟨fun hb => append_of_none _ _ _ (entry?_eq_none_iff.mpr hb), fun t ha => hr.append hs ha⟩

/-- A machine on which one node of the disk is the history file of every shell. -/
def notebook : Host Machine.Desk :=
  { Machine.Desk.host with
    makeDirectories := fun _ d => (.ok (), d)
    appendPrivate := fun _ bytes d =>
      let file := ⟨0o600, .file ((d.machine.disk.bytes? 1).getD .empty ++ bytes)⟩
      (.ok (), { d with machine := { d.machine with disk := d.machine.disk.put 1 file } })
    fileContent := fun d _ => (d.machine.disk.bytes? 1).elim (.error (.system .noEntry)) .ok }

theorem shares_notebook (path : String) :
    Shares notebook path fun d => d.machine.disk.bytes? 1 where
  adds := by
    rintro bytes s t ht
    obtain ⟨-, rfl⟩ := Prod.mk.inj ht
    simp [Machine.Disk.put, Machine.Disk.bytes?, Machine.Disk.get?]
  makes _ _ := rfl
  reads s bytes hb := by
    rw [notebook]
    dsimp only
    rw [hb]
    rfl
  lacks s hn := by
    refine ⟨.system .noEntry, ?_, rfl⟩
    rw [notebook]
    dsimp only
    rw [hn]
    rfl

/-- Two shells append in turn a text of two lines that end differently, one of blanks, and one that
begins with a blank. -/
theorem entries_round_trip_inTurn :
    let h : Bool → Host Machine.Desk := fun _ => notebook
    let path : Bool → String := fun _ => "/root/.ghost_history"
    let content : Machine.Desk → Option ByteArray := fun d => d.machine.disk.bytes? 1
    let s : Machine.Desk := { machine := {}, console := default }
    let as := [(true, "echo é\r\nb \n"), (false, " \t"), (false, " ls\r")]
    (∀ i, Shares (h i) (path i) content) ∧ (content s).getD .empty = .empty ∧
      Run h path content s as (appended h path as s) ∧
      ∃ es, entries (h true) (some (path true)) (appended h path as s) = .ok es ∧
        List.Forall₂ Entered ["echo é\r\nb \n", " ls\r"] es := by
  intro h path content s as
  have hs : ∀ i, Shares (h i) (path i) content := fun _ => shares_notebook _
  have h0 : (content s).getD .empty = .empty := rfl
  have hr : Run h path content s as (appended h path as s) :=
    run_appended hs (fun _ _ _ => rfl) (fun _ _ _ => rfl) as
  exact ⟨hs, h0, hr, (entries_round_trip hs h0 hr).1 true⟩

end AssistedShell.History
