import AssistedShell.Machine.Kernel
import AssistedShell.Proofs.Path.Below
import AssistedShell.Proofs.Text.Cutting
import AssistedShell.Session.Builtin

/-! The directory that the prompt shows. The home directory at its front is
abbreviated, by components, and `cd` writes it out again, by characters. The two
undo one another: `cd` asks for a path with the components of the directory shown,
whatever they are and however the home directory is spelled, so no two directories
are shown alike. -/

namespace AssistedShell

/-! ### What is shown -/

namespace Prompt

variable {home cwd : String}

theorem directory_of_short (cwd : String) (h : ¬ home.utf8ByteSize > 1) :
    directory cwd (some home) = cwd := by
  have hf : (some home).filter (·.utf8ByteSize > 1) = none := by simp [Option.filter, h]
  rw [directory, hf]

theorem directory_of_long (cwd : String) (h : home.utf8ByteSize > 1) :
    directory cwd (some home) =
      match Path.below? cwd.toList home.toList with
      | none => cwd
      | some [] => "~"
      | some rest => "~/" ++ String.ofList rest := by
  have hf : (some home).filter (·.utf8ByteSize > 1) = some home := by simp [Option.filter, h]
  unfold directory
  generalize (some home).filter (·.utf8ByteSize > 1) = shortened at hf ⊢
  subst hf
  rfl

/-- A directory is shown as it is, or as what remains of it below the home directory. -/
theorem directory_cases (cwd home : String) :
    directory cwd (some home) = cwd ∨ ∃ rest, Path.below? cwd.toList home.toList = some rest ∧
      (directory cwd (some home)).toList = if rest = [] then ['~'] else '~' :: '/' :: rest := by
  by_cases hl : home.utf8ByteSize > 1
  · rw [directory_of_long cwd hl]
    rcases Path.below? cwd.toList home.toList with _ | _ | ⟨c, rest⟩
    · exact .inl rfl
    · exact .inr ⟨[], rfl, (rfl : "~".toList = ['~'])⟩
    · refine .inr ⟨c :: rest, rfl, ?_⟩
      simp [String.toList_append]
  · exact .inl (directory_of_short cwd hl)

theorem one_lt_utf8ByteSize (ha : Path.isAbsolute home.toList) (hr : home ≠ "/") :
    home.utf8ByteSize > 1 := by
  obtain ⟨tail, ht, -⟩ := Path.split_of_isAbsolute ha
  obtain rfl : home = String.ofList ('/' :: tail) := by rw [← ht, String.ofList_toList]
  cases tail with
  | nil => exact absurd rfl hr
  | cons c tail =>
    have hc := c.utf8Size_pos
    have hs : ('/' : Char).utf8Size = 1 := rfl
    rw [Text.utf8ByteSize_ofList_cons, Text.utf8ByteSize_ofList_cons]
    omega

/-- The home directory is abbreviated exactly where its components come first. -/
theorem directory_eq_self_iff (ha : Path.isAbsolute home.toList) (hr : home ≠ "/")
    (hc : Path.isAbsolute cwd.toList) :
    directory cwd (some home) = cwd ↔
      ¬ Path.components home.toList <+: Path.components cwd.toList := by
  rw [← Path.isSome_below?_iff ha hc, directory_of_long cwd (one_lt_utf8ByteSize ha hr)]
  obtain ⟨tail, ht, -⟩ := Path.split_of_isAbsolute hc
  rcases Path.below? cwd.toList home.toList with _ | _ | ⟨c, rest⟩
  · simp
  · refine iff_of_false (fun h => ?_) (by simp)
    have hs : "~".toList = '/' :: tail := (congrArg String.toList h).trans ht
    simp at hs
  · refine iff_of_false (fun h => ?_) (by simp)
    have hs : ("~/" ++ String.ofList (c :: rest)).toList = '/' :: tail :=
      (congrArg String.toList h).trans ht
    simp [String.toList_append] at hs

/-- Two homes with the same components are abbreviated alike, unless one is just the root. -/
theorem directory_congr {home' : String} (ha : Path.isAbsolute home.toList) (hr : home ≠ "/")
    (ha' : Path.isAbsolute home'.toList) (hr' : home' ≠ "/")
    (h : Path.components home'.toList = Path.components home.toList) (cwd : String) :
    directory cwd (some home') = directory cwd (some home) := by
  rw [directory_of_long cwd (one_lt_utf8ByteSize ha hr),
    directory_of_long cwd (one_lt_utf8ByteSize ha' hr'), Path.below?_congr h]

/-- A slash before the home directory does not matter. -/
theorem directory_slash_append (ha : Path.isAbsolute home.toList) (hr : home ≠ "/") (cwd : String) :
    directory cwd (some ("/" ++ home)) = directory cwd (some home) := by
  have hs : ("/" ++ home).toList = '/' :: home.toList := by simp [String.toList_append]
  have hne : "/" ++ home ≠ "/" := by
    intro h
    have hl : home.toList = [] := by simpa [hs] using congrArg String.toList h
    rw [hl] at ha
    cases ha
  refine directory_congr ha hr (by rw [hs]; rfl) hne ?_ cwd
  rw [hs, Path.components_slash_cons ha]

/-- Nor does one after it. -/
theorem directory_append_slash (ha : Path.isAbsolute home.toList) (hr : home ≠ "/") (cwd : String) :
    directory cwd (some (home ++ "/")) = directory cwd (some home) := by
  obtain ⟨tail, ht, -⟩ := Path.split_of_isAbsolute ha
  have hs : (home ++ "/").toList = home.toList ++ ['/'] := by simp [String.toList_append]
  have hne : home ++ "/" ≠ "/" := by
    intro h
    have hl : home.toList ++ ['/'] = ['/'] := by simpa [hs] using congrArg String.toList h
    rw [ht] at hl
    simp at hl
  refine directory_congr ha hr (by rw [hs, ht]; rfl) hne ?_ cwd
  rw [hs, Path.components_concat_slash ha]

end Prompt

/-! ### What is gone to -/

namespace Home

variable {home dir : String}

theorem expandTilde_of_isAbsolute (home : Option String) (hd : Path.isAbsolute dir.toList) :
    expandTilde home dir = dir := by
  obtain ⟨tail, ht, -⟩ := Path.split_of_isAbsolute hd
  rw [expandTilde, ht]
  rfl

theorem expandTilde_tilde (hd : dir.toList = ['~']) : expandTilde (some home) dir = home := by
  rw [expandTilde, hd]
  simp

/-- A relative path after a tilde and a slash is put below the home directory. -/
theorem expandTilde_tilde_slash {rest : List Char} (hd : dir.toList = '~' :: '/' :: rest)
    (hne : rest ≠ []) (hr : Path.isAbsolute rest = false) :
    expandTilde (some home) dir = joinPath home (String.ofList rest) := by
  obtain ⟨c, rest, rfl⟩ := List.exists_cons_of_ne_nil hne
  have hc : c ≠ '/' := by simpa [Path.isAbsolute] using hr
  rw [expandTilde, hd]
  simp [hc]

end Home

namespace Session

variable {σ : Type} {s : Session σ} {home cwd : String}

/-- The tilde in what is shown is written out as the home directory: the result is an absolute
path with the components of the directory. -/
theorem components_expandTilde_directory (ha : Path.isAbsolute home.toList)
    (hc : Path.isAbsolute cwd.toList) :
    let target := Home.expandTilde (some home) (Prompt.directory cwd (some home))
    Path.isAbsolute target.toList ∧
      Path.components target.toList = Path.components cwd.toList := by
  intro target
  rcases Prompt.directory_cases cwd home with hd | ⟨rest, hb, hd⟩
  · have ht : target = cwd := by rw [← Home.expandTilde_of_isAbsolute (some home) hc, ← hd]
    rw [ht]
    exact ⟨hc, rfl⟩
  · obtain ⟨hr, hcomponents⟩ := Path.components_of_below? ha hc hb
    by_cases hne : rest = []
    · rw [if_pos hne] at hd
      rw [show target = home from Home.expandTilde_tilde hd, hcomponents, hne]
      exact ⟨ha, (List.append_nil _).symm⟩
    · rw [if_neg hne] at hd
      rw [show target = _ from Home.expandTilde_tilde_slash hd hne hr, joinPath,
        String.toList_ofList, String.toList_ofList, Path.isAbsolute_join, ha,
        Path.components_join_below? ha hc hb]
      exact ⟨rfl, rfl⟩

/-- What `cd` does once it knows the path. -/
def goTo (h : Host σ) (s : Session σ) (target : String) : Nat × Session σ :=
  match h.changeDirectory target s.system with
  | (.error f, system) => (1, { s with system }.report h ("cd: " ++ target ++ ": " ++ f.message))
  | (.ok (), system) =>
    match h.directory system with
    | .error f => (1, { s with system }.report h ("cd: " ++ f.message))
    | .ok directory => (0, { s with system, directory })

theorem changeDirectory_eq_goTo (h : Host σ) (s : Session σ) (dir : String)
    (rest : List String) :
    s.changeDirectory h (dir :: rest) =
      s.goTo h (joinPath s.directory (Home.expandTilde (s.home? h) dir)) := by
  rfl

/-- What the prompt shows as the directory, `cd` accepts: it goes to a path with the components of
that directory, whatever they are. So no two directories are shown alike. A home directory that is
the root is not abbreviated; any other is exactly where its components come first, and slashes
before or after it do not matter. -/
theorem changeDirectory_shown (ha : Path.isAbsolute home.toList) (hc : Path.isAbsolute cwd.toList) :
    let shown := Prompt.directory cwd (some home)
    (∃ target, Path.components target.toList = Path.components cwd.toList ∧
      ∀ h : Host σ, s.home? h = some home → s.changeDirectory h [shown] = s.goTo h target) ∧
    (∀ other, Path.isAbsolute other.toList → Prompt.directory other (some home) = shown →
      Path.components other.toList = Path.components cwd.toList ∧
      (Path.Canonical other.toList → Path.Canonical cwd.toList → other = cwd)) ∧
    (home = "/" → shown = cwd) ∧
    (home ≠ "/" →
      (shown = cwd ↔ ¬ Path.components home.toList <+: Path.components cwd.toList) ∧
      Prompt.directory cwd (some ("/" ++ home)) = shown ∧
      Prompt.directory cwd (some (home ++ "/")) = shown) := by
  intro shown
  obtain ⟨habsolute, hcomponents⟩ := components_expandTilde_directory ha hc
  refine ⟨⟨_, hcomponents, fun h hh => ?_⟩, fun other ho hs => ?_, ?_, fun hr => ⟨?_, ?_, ?_⟩⟩
  · rw [changeDirectory_eq_goTo, hh, joinPath_of_isAbsolute s.directory habsolute]
  · have heq : Path.components other.toList = Path.components cwd.toList := by
      rw [← hcomponents, ← (components_expandTilde_directory ha ho).2, hs]
    exact ⟨heq, fun h h' => String.toList_injective (h.eq_of_components_eq h' heq)⟩
  · rintro rfl
    exact Prompt.directory_of_short cwd (by decide)
  · exact Prompt.directory_eq_self_iff ha hr hc
  · exact Prompt.directory_slash_append ha hr cwd
  · exact Prompt.directory_append_slash ha hr cwd

/-- A home with a doubled slash at the front and one at the end, and below it a directory whose
name begins as the abbreviation does. -/
theorem changeDirectory_shown_belowHome :
    let s : Session Machine.Desk :=
      { system := .onDisk .empty Machine.Disk.root true none
        settings := default
        environment := ⟨[⟨"HOME", "//h/"⟩]⟩
        directory := "/w" }
    s.home? Machine.Desk.host = some "//h/" ∧ Path.isAbsolute "//h/".toList ∧
      Path.isAbsolute "/h/~/src".toList ∧ Prompt.directory "/h/~/src" (some "//h/") = "~/~/src" ∧
      ∃ target, Path.components target.toList = Path.components "/h/~/src".toList ∧
        s.changeDirectory Machine.Desk.host ["~/~/src"] = s.goTo Machine.Desk.host target := by
  intro s
  have hh : s.home? Machine.Desk.host = some "//h/" := by decide
  have ha : Path.isAbsolute "//h/".toList := by decide
  have hc : Path.isAbsolute "/h/~/src".toList := by decide
  have hs : Prompt.directory "/h/~/src" (some "//h/") = "~/~/src" := by decide
  obtain ⟨⟨target, ht, hgo⟩, -⟩ := changeDirectory_shown (s := s) ha hc
  refine ⟨hh, ha, hc, hs, target, ht, ?_⟩
  rw [← hs]
  exact hgo Machine.Desk.host hh

end Session

end AssistedShell
