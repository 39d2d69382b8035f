import AssistedShell.Program

/-! What a command name leads to. A name with a slash leads to a program, to
something that cannot be run, or to nothing, by what is there. Any other is looked
for in the entries of the search path, and the first entry that holds a program
gives it. Where none does, the entries are gone through once more for anything of
that name, and then a `~` is not read as the home directory. -/

namespace AssistedShell.Program

/-- The entries of a search path; without a search path there are none. -/
def entries (search : Option String) : List String := (search.map directories).getD []

/-- The path at which an entry is looked into for something that cannot be run. -/
def plainCandidate (cwd name dir : String) : String := joinPath (joinPath cwd dir) name

/-- Some entry, looked into at the path that `look` gives for it, holds something. -/
def Holds (test : String → Bool) (look : String → String) (search : Option String) : Prop :=
  ∃ dir ∈ entries search, test (look dir)

instance (test : String → Bool) (look : String → String) (search : Option String) :
    Decidable (Holds test look search) :=
  inferInstanceAs (Decidable (∃ dir ∈ entries search, test (look dir)))

section
variable {runnable present : String → Bool} {env : Environment} {cwd name : String}
  {search : Option String}

theorem resolve_of_slash (hn : name ≠ "") (hs : name.contains '/') :
    resolve runnable present env cwd search name =
      if runnable (joinPath cwd name) then .found name
      else if present (joinPath cwd name) then .notExecutable
      else .notFound := by
  rw [resolve, if_neg (by simpa using hn), if_pos hs]

theorem resolve_of_not_slash (hn : name ≠ "") (hs : ¬ name.contains '/') :
    resolve runnable present env cwd search name =
      match ((entries search).map (candidate env cwd name)).find? runnable with
      | some path => .found path
      | none =>
        if (entries search).any fun dir => present (plainCandidate cwd name dir) then .notExecutable
        else .notFound := by
  rw [resolve, if_neg (by simpa using hn), if_neg hs]
  rfl

theorem resolve_eq_found_iff_find? (hn : name ≠ "") (hs : ¬ name.contains '/') {path : String} :
    resolve runnable present env cwd search name = .found path ↔
      ((entries search).map (candidate env cwd name)).find? runnable = some path := by
  rw [resolve_of_not_slash hn hs]
  rcases ((entries search).map (candidate env cwd name)).find? runnable with _ | p
  · constructor
    · intro h
      dsimp only at h
      split at h <;> cases h
    · exact nofun
  · simp

/-- The first entry that holds a program gives it. -/
theorem resolve_eq_found_iff (hn : name ≠ "") (hs : ¬ name.contains '/') {path : String} :
    resolve runnable present env cwd search name = .found path ↔
      ∃ before dir after, entries search = before ++ dir :: after ∧
        path = candidate env cwd name dir ∧ runnable path ∧
        ∀ d ∈ before, ¬ runnable (candidate env cwd name d) := by
  rw [resolve_eq_found_iff_find? hn hs, List.find?_map, Option.map_eq_some_iff]
  constructor
  · rintro ⟨dir, hd, rfl⟩
    obtain ⟨hr, before, after, he, hb⟩ := List.find?_eq_some_iff_append.mp hd
    exact ⟨before, dir, after, he, rfl, hr, fun d hd => by simpa using hb d hd⟩
  · rintro ⟨before, dir, after, he, rfl, hr, hb⟩
    refine ⟨dir, List.find?_eq_some_iff_append.mpr ⟨hr, before, after, he, fun d hd => ?_⟩, rfl⟩
    simpa using hb d hd

theorem isSome_find?_iff :
    (((entries search).map (candidate env cwd name)).find? runnable).isSome ↔
      Holds runnable (candidate env cwd name) search := by
  simp [Holds]

/-- Where some entry holds a program, one is found. -/
theorem resolve_of_holds (hn : name ≠ "") (hs : ¬ name.contains '/')
    (h : Holds runnable (candidate env cwd name) search) :
    ∃ path, resolve runnable present env cwd search name = .found path := by
  obtain ⟨path, hp⟩ := Option.isSome_iff_exists.mp (isSome_find?_iff.mpr h)
  exact ⟨path, (resolve_eq_found_iff_find? hn hs).mpr hp⟩

/-- Where none does, the second look decides. -/
theorem resolve_of_not_holds (hn : name ≠ "") (hs : ¬ name.contains '/')
    (h : ¬ Holds runnable (candidate env cwd name) search) :
    (resolve runnable present env cwd search name = .notExecutable ↔
      Holds present (plainCandidate cwd name) search) ∧
    (resolve runnable present env cwd search name = .notFound ↔
      ¬ Holds present (plainCandidate cwd name) search) := by
  have hf := Option.not_isSome_iff_eq_none.mp (mt isSome_find?_iff.mp h)
  have ha : (entries search).any (fun dir => present (plainCandidate cwd name dir)) = true ↔
      Holds present (plainCandidate cwd name) search := List.any_eq_true
  rw [resolve_of_not_slash hn hs, hf, ← ha]
  split <;> simp_all

theorem Holds.mono (hp : ∀ path, runnable path → present path) {look : String → String}
    (h : Holds runnable look search) : Holds present look search := by
  obtain ⟨dir, hd, hr⟩ := h
  exact ⟨dir, hd, hp _ hr⟩

/-- What the second look tells is what the first would tell exactly if a program is found, or the
two agree on whether some entry holds anything of the name. -/
theorem resolve_missing_iff (hp : ∀ path, runnable path → present path) (hn : name ≠ "")
    (hs : ¬ name.contains '/') :
    ((resolve runnable present env cwd search name = .notExecutable ↔
        ¬ Holds runnable (candidate env cwd name) search ∧
          Holds present (candidate env cwd name) search) ∧
      (resolve runnable present env cwd search name = .notFound ↔
        ¬ Holds present (candidate env cwd name) search)) ↔
    (Holds runnable (candidate env cwd name) search ∨
      (Holds present (candidate env cwd name) search ↔
        Holds present (plainCandidate cwd name) search)) := by
  by_cases hr : Holds runnable (candidate env cwd name) search
  · obtain ⟨path, hf⟩ : ∃ path, resolve runnable present env cwd search name = .found path :=
      resolve_of_holds hn hs hr
    simp [hf, hr, hr.mono hp]
  · rw [(resolve_of_not_holds hn hs hr).1, (resolve_of_not_holds hn hs hr).2]
    simp only [hr, not_false_eq_true, true_and, false_or]
    exact ⟨fun h => h.1.symm, fun h => ⟨h.symm, by rw [h]⟩⟩

/-- A name leads to what is there. With a slash, that is one path. Without, the first entry of the
search path that holds a program gives it; where none does, what is said of the name is right
exactly if the two looks at the entries agree on whether one of them holds anything of it. -/
theorem resolve_trichotomy (hp : ∀ path, runnable path → present path) (hn : name ≠ "") :
    (name.contains '/' →
      (∀ path, resolve runnable present env cwd search name = .found path ↔
        path = name ∧ runnable (joinPath cwd name)) ∧
      (resolve runnable present env cwd search name = .notExecutable ↔
        present (joinPath cwd name) ∧ ¬ runnable (joinPath cwd name)) ∧
      (resolve runnable present env cwd search name = .notFound ↔
        ¬ present (joinPath cwd name))) ∧
    (¬ name.contains '/' →
      (∀ path, resolve runnable present env cwd search name = .found path ↔
        ∃ before dir after, entries search = before ++ dir :: after ∧
          path = candidate env cwd name dir ∧ runnable path ∧
          ∀ d ∈ before, ¬ runnable (candidate env cwd name d)) ∧
      ((resolve runnable present env cwd search name = .notExecutable ↔
          ¬ Holds runnable (candidate env cwd name) search ∧
            Holds present (candidate env cwd name) search) ∧
        (resolve runnable present env cwd search name = .notFound ↔
          ¬ Holds present (candidate env cwd name) search) ↔
        Holds runnable (candidate env cwd name) search ∨
          (Holds present (candidate env cwd name) search ↔
            Holds present (plainCandidate cwd name) search))) := by
  refine ⟨fun hs => ?_, fun hs => ⟨fun path => resolve_eq_found_iff hn hs,
    resolve_missing_iff hp hn hs⟩⟩
  rw [resolve_of_slash hn hs]
  have hq := hp (joinPath cwd name)
  by_cases hr : runnable (joinPath cwd name)
  · simp [hr, hq hr, eq_comm]
  · by_cases he : present (joinPath cwd name) <;> simp [hr, he]

end

/-- A program in the home directory. -/
theorem resolve_home :
    (∀ path : String, path == "/h/bin/tool" → path == "/h/bin/tool") ∧ "tool" ≠ "" ∧
      resolve (· == "/h/bin/tool") (· == "/h/bin/tool") ⟨[⟨"HOME", "/h"⟩]⟩ "/w"
        (some "bin:~/bin") "tool" = .found "/h/bin/tool" := by
  have hp : ∀ path : String, path == "/h/bin/tool" → path == "/h/bin/tool" := fun _ h => h
  have hn : "tool" ≠ "" := by decide
  obtain ⟨-, ht⟩ := @resolve_trichotomy (· == "/h/bin/tool") (· == "/h/bin/tool")
    ⟨[⟨"HOME", "/h"⟩]⟩ "/w" "tool" (some "bin:~/bin") hp hn
  exact ⟨hp, hn, ((ht (by simp)).1 _).mpr
    ⟨["bin"], "~/bin", [], by decide, by decide, by decide, by decide⟩⟩

/-- What the home directory holds is missed if it cannot be run, and what a directory of the name
`~` holds is taken for it. -/
theorem resolve_tilde :
    (Holds (· == "/h/bin/data") (candidate ⟨[⟨"HOME", "/h"⟩]⟩ "/w" "data") (some "~/bin") ∧
      resolve (fun _ => false) (· == "/h/bin/data") ⟨[⟨"HOME", "/h"⟩]⟩ "/w" (some "~/bin") "data" =
        .notFound) ∧
    ¬ Holds (· == "/w/~/bin/data") (candidate ⟨[⟨"HOME", "/h"⟩]⟩ "/w" "data") (some "~/bin") ∧
      resolve (fun _ => false) (· == "/w/~/bin/data") ⟨[⟨"HOME", "/h"⟩]⟩ "/w" (some "~/bin") "data" =
        .notExecutable := by
  rw [resolve_of_not_slash (by decide) (by simp), resolve_of_not_slash (by decide) (by simp)]
  decide

end AssistedShell.Program
