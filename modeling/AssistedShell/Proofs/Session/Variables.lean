import AssistedShell.Machine.Kernel
import AssistedShell.Proofs.Expansion.Segmentation
import AssistedShell.Proofs.Session.Breakdown

/-! What `export` makes of its arguments, and what references to its variables then
read. The arguments are taken in turn, each by itself: one with no proper name is
refused, a name alone changes nothing, and a name with a value sets a variable. So a
variable has the last value that was assigned to it, and a reference to it reads that
value, because the characters of a name are the characters that a reference takes. -/

namespace AssistedShell

/-! ### Variables by name -/

namespace Environment

variable {name name' value : String}

/-- Where no equals sign is in the name, a variable is found by its name alone. -/
theorem get?_eq_find? (env : Environment) (hne : name ≠ "") (hn : '=' ∉ name.toList) :
    env.get? name = (env.bindings.find? (·.name = name)).map (·.value) := by
  have ha : ∀ b : Binding, b.after? name = if b.name = name then some b.value else none := by
    intro b
    have hc : name.contains '=' = false := by simpa [String.contains_char_eq] using hn
    rw [Binding.after?, hc]
    rfl
  rw [get?, if_neg hne]
  induction env.bindings with
  | nil => rfl
  | cons b bindings ih =>
    rw [List.findSome?_cons, List.find?_cons, ha]
    by_cases hb : b.name = name
    · simp [hb]
    · simpa [hb] using ih

theorem find?_map_set {bindings : List Binding} :
    (bindings.map fun b => if b.name = name then ⟨name, value⟩ else b).find? (·.name = name') =
      if name' = name then (bindings.find? (·.name = name)).map fun _ => ⟨name, value⟩
      else bindings.find? (·.name = name') := by
  induction bindings with
  | nil => simp
  | cons b bindings ih =>
    rw [List.map_cons, List.find?_cons, ih, List.find?_cons, List.find?_cons]
    by_cases hb : b.name = name
    · by_cases hn : name' = name
      · simp [hb, hn]
      · simp [hb, hn, Ne.symm hn]
    · by_cases hn : name' = name
      · simp [hb, hn]
      · simp [hb, hn]

/-- A variable has the value that it was given, and the others keep theirs. -/
theorem get?_set (env : Environment) (value : String) (hname : name ≠ "")
    (hn : '=' ∉ name'.toList) :
    (env.set name value).get? name' = if name' = name then some value else env.get? name' := by
  by_cases hne : name' = ""
  · rw [hne, if_neg (Ne.symm hname)]
    rfl
  rw [get?_eq_find? _ hne hn, get?_eq_find? _ hne hn, set]
  split
  case isTrue hany =>
    have hs : (env.bindings.find? (·.name = name)).isSome := by simpa using hany
    obtain ⟨b, hb⟩ := Option.isSome_iff_exists.mp hs
    rw [find?_map_set, hb]
    split <;> rfl
  case isFalse hany =>
    have hs : env.bindings.find? (·.name = name) = none := by simpa using hany
    rw [List.find?_append]
    by_cases hnn : name' = name
    · rw [hnn, hs]
      simp
    · simp [hnn, Ne.symm hnn]

end Environment

/-! ### References -/

namespace Expansion

instance (c : Char) : Decidable (NameChar c) := decidable_of_iff _ (isNameChar_iff c)

variable (lookup : String → Option String) {name rest : List Char}

/-- A dollar sign and a name, with no character of a name after it, read the variable. -/
theorem expand_plain (hne : name ≠ []) (hname : ∀ c ∈ name, NameChar c)
    (hrest : ∀ c ∈ rest.head?, ¬ NameChar c) :
    expand lookup ('$' :: (name ++ rest)) = value lookup name ++ expand lookup rest := by
  have hall : ∀ c ∈ name, isNameChar c = true := fun c hc => (isNameChar_iff c).mpr (hname c hc)
  have hstop : rest.takeWhile isNameChar = [] ∧ rest.dropWhile isNameChar = rest := by
    cases rest with
    | nil => exact ⟨rfl, rfl⟩
    | cons c rest =>
      have hc : ¬ isNameChar c := fun hc => hrest c rfl ((isNameChar_iff c).mp hc)
      exact ⟨List.takeWhile_cons_of_neg hc, List.dropWhile_cons_of_neg hc⟩
  obtain ⟨c, name, rfl⟩ := List.exists_cons_of_ne_nil hne
  obtain ⟨hc, hall⟩ := List.forall_mem_cons.mp hall
  have hb : c ≠ '{' := by
    rintro rfl
    exact absurd hc (by decide)
  rw [List.cons_append, expand, if_pos hc, List.takeWhile_append_of_pos hall,
    List.dropWhile_append_of_pos hall, hstop.1, hstop.2, List.append_nil]
  exact hb

/-- So do a dollar sign and a name in braces, whatever comes after. -/
theorem expand_braced (hname : '}' ∉ name) (rest : List Char) :
    expand lookup ('$' :: '{' :: (name ++ '}' :: rest)) =
      value lookup name ++ expand lookup rest := by
  have hall : ∀ c ∈ name, decide (c ≠ '}') = true := fun _ hc =>
    decide_eq_true (ne_of_mem_of_not_mem hc hname)
  have ht : (name ++ '}' :: rest).takeWhile (· ≠ '}') = name := by
    rw [List.takeWhile_append_of_pos hall, List.takeWhile_cons_of_neg (by simp), List.append_nil]
  have hd : afterBrace (name ++ '}' :: rest) = rest := by
    rw [afterBrace, List.dropWhile_append_of_pos hall, List.dropWhile_cons_of_neg (by simp)]
    rfl
  rw [expand, ht, hd]

theorem value_of_some {text : String} (h : lookup (String.ofList name) = some text) :
    value lookup name = text.toList := by
  rw [value, h]
  rfl

end Expansion

/-! ### Arguments -/

namespace Session

open Expansion (NameChar)

/-- A text that can be the name of a variable: letters, digits and underscores, and no digit comes
first. -/
structure Identifier (name : List Char) : Prop where
  nonempty : name ≠ []
  chars : ∀ c ∈ name, NameChar c
  start : ∀ c ∈ name.head?, ¬ ('0' ≤ c ∧ c ≤ '9')

theorem isAlpha_iff (c : Char) : c.isAlpha ↔ ('A' ≤ c ∧ c ≤ 'Z') ∨ ('a' ≤ c ∧ c ≤ 'z') := by
  have h : c.isAlpha =
      (decide ('A' ≤ c ∧ c ≤ 'Z') || (decide ('a' ≤ c) && decide (c ≤ 'z'))) := rfl
  simp only [h, Bool.or_eq_true, Bool.and_eq_true, decide_eq_true_eq]

/-- A character that a name may begin with is one of a name and no digit. -/
theorem begins_iff (c : Char) :
    (c == '_' || c.isAlpha) = true ↔ NameChar c ∧ ¬ ('0' ≤ c ∧ c ≤ '9') := by
  have hle : ∀ a b : Char, a ≤ b ↔ a.toNat ≤ b.toNat := fun _ _ => Iff.rfl
  have hu : c = '_' ↔ c.toNat = 95 := Char.toNat_inj.symm
  rw [Bool.or_eq_true, beq_iff_eq, isAlpha_iff, NameChar]
  simp only [hle, hu, Char.reduceToNat]
  omega

theorem isIdentifier_iff (name : List Char) : isIdentifier name ↔ Identifier name := by
  cases name with
  | nil => exact iff_of_false nofun fun h => h.nonempty rfl
  | cons c name =>
    have hall : name.all (fun c => c == '_' || c.isAlphanum) = true ↔ ∀ d ∈ name, NameChar d := by
      simp only [List.all_eq_true, ← Expansion.isNameChar_iff, Expansion.isNameChar, Bool.or_comm]
    rw [isIdentifier, Bool.and_eq_true, begins_iff, hall]
    constructor
    · rintro ⟨⟨hc, hd⟩, hname⟩
      exact ⟨List.cons_ne_nil c name, List.forall_mem_cons.mpr ⟨hc, hname⟩, by simpa using hd⟩
    · rintro ⟨-, hchars, hstart⟩
      obtain ⟨hc, hname⟩ := List.forall_mem_cons.mp hchars
      exact ⟨⟨hc, hstart c rfl⟩, hname⟩

instance (name : List Char) : Decidable (Identifier name) :=
  decidable_of_iff _ (isIdentifier_iff name)

/-- An argument without a proper name: what stands before its first equals sign is none, or all of
it where there is no equals sign. -/
def Refused (argument : String) : Prop := ¬ Identifier (argument.toList.takeWhile (· ≠ '='))

instance (argument : String) : Decidable (Refused argument) :=
  inferInstanceAs (Decidable (¬ Identifier _))

/-- An argument that is a name, an equals sign and a value. -/
structure Assigns (argument name value : String) : Prop where
  text : argument = name ++ "=" ++ value
  name : Identifier name.toList

theorem Identifier.notMem {name : List Char} (hn : Identifier name) {c : Char}
    (hc : ¬ NameChar c) : c ∉ name := fun hm => hc (hn.chars c hm)

theorem not_nameChar_equals : ¬ NameChar '=' := by decide

theorem Identifier.ne_empty {name : String} (hn : Identifier name.toList) : name ≠ "" := by
  rintro rfl
  exact hn.nonempty rfl

/-- A reference to a variable that has a value is replaced by the value. -/
theorem Identifier.expand_plain {lookup : String → Option String} {name value : String}
    {rest : List Char} (hn : Identifier name.toList) (hv : lookup name = some value)
    (hrest : ∀ c ∈ rest.head?, ¬ NameChar c) :
    Expansion.expand lookup ('$' :: (name.toList ++ rest)) =
      value.toList ++ Expansion.expand lookup rest := by
  rw [Expansion.expand_plain lookup hn.nonempty hn.chars hrest,
    Expansion.value_of_some lookup (by rw [String.ofList_toList, hv])]

theorem Identifier.expand_braced {lookup : String → Option String} {name value : String}
    (hn : Identifier name.toList) (hv : lookup name = some value) (rest : List Char) :
    Expansion.expand lookup ('$' :: '{' :: (name.toList ++ '}' :: rest)) =
      value.toList ++ Expansion.expand lookup rest := by
  have hbrace : '}' ∉ name.toList := hn.notMem (by decide)
  rw [Expansion.expand_braced lookup hbrace rest,
    Expansion.value_of_some lookup (by rw [String.ofList_toList, hv])]

/-! ### What an argument is read as -/

variable {argument name value : String}

theorem ofArgument_of_assigns (ha : Assigns argument name value) :
    Assignment.ofArgument argument = .assign name value := by
  have hs : Text.splitAt? '=' argument.toList = some (name.toList, value.toList) := by
    refine Text.splitAt?_eq_some_iff.mpr ⟨?_, ha.name.notMem not_nameChar_equals⟩
    rw [ha.text]
    simp [String.toList_append]
  have hn : isIdentifier name.toList := (isIdentifier_iff _).mpr ha.name
  rw [Assignment.ofArgument, hs]
  simp [hn]

theorem ofArgument_of_identifier (ha : Identifier argument.toList) :
    Assignment.ofArgument argument = .mention := by
  have hs : Text.splitAt? '=' argument.toList = none :=
    Text.splitAt?_eq_none_iff.mpr (ha.notMem not_nameChar_equals)
  have hn : isIdentifier argument.toList := (isIdentifier_iff _).mpr ha
  rw [Assignment.ofArgument, hs]
  simp [hn]

theorem takeWhile_of_splitAt? {before after : List Char}
    (hs : Text.splitAt? '=' argument.toList = some (before, after)) :
    argument.toList.takeWhile (· ≠ '=') = before := by
  obtain ⟨ht, hn⟩ := Text.splitAt?_eq_some_iff.mp hs
  have hall : ∀ c ∈ before, decide (c ≠ '=') = true := fun _ hc =>
    decide_eq_true (ne_of_mem_of_not_mem hc hn)
  rw [ht, List.takeWhile_append_of_pos hall, List.takeWhile_cons_of_neg (by simp), List.append_nil]

theorem takeWhile_of_splitAt?_none (hs : Text.splitAt? '=' argument.toList = none) :
    argument.toList.takeWhile (· ≠ '=') = argument.toList :=
  List.takeWhile_eq_self_iff.mpr fun _ hc =>
    decide_eq_true (ne_of_mem_of_not_mem hc (Text.splitAt?_eq_none_iff.mp hs))

theorem ofArgument_of_refused (ha : Refused argument) :
    Assignment.ofArgument argument = .invalid := by
  rw [Refused, ← isIdentifier_iff] at ha
  rw [Assignment.ofArgument]
  rcases hs : Text.splitAt? '=' argument.toList with _ | ⟨before, after⟩
  · rw [takeWhile_of_splitAt?_none hs] at ha
    simp [ha]
  · rw [takeWhile_of_splitAt? hs] at ha
    simp [ha]

/-- There are no other arguments. -/
theorem argument_cases (argument : String) :
    Refused argument ∨ Identifier argument.toList ∨ ∃ name value, Assigns argument name value := by
  by_cases hr : Refused argument
  · exact .inl hr
  rw [Refused, not_not] at hr
  rcases hs : Text.splitAt? '=' argument.toList with _ | ⟨before, after⟩
  · rw [takeWhile_of_splitAt?_none hs] at hr
    exact .inr (.inl hr)
  · rw [takeWhile_of_splitAt? hs] at hr
    refine .inr (.inr ⟨String.ofList before, String.ofList after, ?_, by simpa using hr⟩)
    apply String.toList_injective
    simp [String.toList_append, (Text.splitAt?_eq_some_iff.mp hs).1]

theorem not_refused_of_identifier (ha : Identifier argument.toList) : ¬ Refused argument := by
  intro hr
  cases (ofArgument_of_identifier ha).symm.trans (ofArgument_of_refused hr)

theorem not_refused_of_assigns (ha : Assigns argument name value) : ¬ Refused argument := by
  intro hr
  cases (ofArgument_of_assigns ha).symm.trans (ofArgument_of_refused hr)

/-! ### The arguments in turn -/

variable {σ : Type}

/-- Does what one argument of `export` asks for. -/
def heed (h : Host σ) (s : Session σ) (argument : String) : Session σ :=
  match Assignment.ofArgument argument with
  | .invalid => s.report h ("export: " ++ String.singleton (Char.ofNat 0x60) ++ argument ++
      "': not a valid identifier")
  | .mention => s
  | .assign name value => { s with environment := s.environment.set name value }

variable {h : Host σ} {s : Session σ} {arguments : List String}

theorem heed_of_refused (ha : Refused argument) :
    s.heed h argument = s.report h ("export: " ++ String.singleton (Char.ofNat 0x60) ++ argument ++
      "': not a valid identifier") := by
  rw [heed, ofArgument_of_refused ha]

theorem heed_of_identifier (ha : Identifier argument.toList) : s.heed h argument = s := by
  rw [heed, ofArgument_of_identifier ha]

theorem heed_of_assigns (ha : Assigns argument name value) :
    s.heed h argument = { s with environment := s.environment.set name value } := by
  rw [heed, ofArgument_of_assigns ha]

theorem settable_of_assigns (ha : Assigns argument name value) (hn : '\x00' ∉ argument.toList) :
    Environment.Settable name value := by
  have hv : '\x00' ∉ value.toList := by
    rw [ha.text] at hn
    simp only [String.toList_append, List.mem_append, not_or] at hn
    exact hn.2
  have hs := settable_iff ((isIdentifier_iff _).mpr ha.name) value.toList
  rw [String.ofList_toList, String.ofList_toList] at hs
  exact hs.mpr hv

/-- Each argument is heeded, whatever the others are; the status tells whether one was refused. -/
theorem assignAll_eq (hn : ∀ a ∈ arguments, '\x00' ∉ a.toList) (s : Session σ) (status : Nat) :
    s.assignAll h status arguments =
      (if ∃ a ∈ arguments, Refused a then 1 else status, arguments.foldl (heed h) s) := by
  induction arguments generalizing s status with
  | nil => simp [assignAll]
  | cons a arguments ih =>
    obtain ⟨ha, hn⟩ := List.forall_mem_cons.mp hn
    rw [assignAll, List.foldl_cons]
    rcases argument_cases a with hr | hi | ⟨name, value, hv⟩
    · rw [ofArgument_of_refused hr, heed_of_refused hr]
      dsimp only
      rw [ih hn]
      simp [hr]
    · rw [ofArgument_of_identifier hi, heed_of_identifier hi]
      dsimp only
      rw [ih hn]
      simp [not_refused_of_identifier hi]
    · rw [ofArgument_of_assigns hv, heed_of_assigns hv]
      dsimp only
      rw [if_pos (settable_of_assigns hv ha), ih hn]
      simp [not_refused_of_assigns hv]

theorem exportVariables_eq (hn : ∀ a ∈ arguments, '\x00' ∉ a.toList) (hne : arguments ≠ [])
    (s : Session σ) :
    s.exportVariables h arguments =
      (if ∃ a ∈ arguments, Refused a then 1 else 0, arguments.foldl (heed h) s) := by
  have he : arguments.isEmpty = false := by simpa using hne
  rw [exportVariables, he]
  exact assignAll_eq hn s 0

/-- A variable that an argument does not assign to keeps its value. -/
theorem get?_heed (hname : '=' ∉ name.toList) (ha : ∀ value, ¬ Assigns argument name value) :
    (s.heed h argument).environment.get? name = s.environment.get? name := by
  rcases argument_cases argument with hr | hi | ⟨name', value, hv⟩
  · rw [heed_of_refused hr]
    rfl
  · rw [heed_of_identifier hi]
  · have hne : name ≠ name' := by
      rintro rfl
      exact ha value hv
    rw [heed_of_assigns hv, Environment.get?_set _ _ hv.name.ne_empty hname, if_neg hne]

theorem get?_foldl_heed (hname : '=' ∉ name.toList)
    (ha : ∀ a ∈ arguments, ∀ value, ¬ Assigns a name value) (s : Session σ) :
    (arguments.foldl (heed h) s).environment.get? name = s.environment.get? name := by
  induction arguments generalizing s with
  | nil => rfl
  | cons a arguments ih =>
    obtain ⟨hfirst, hrest⟩ := List.forall_mem_cons.mp ha
    rw [List.foldl_cons, ih hrest, get?_heed hname hfirst]

/-- The last value that is assigned to a variable is the one it has. -/
theorem get?_foldl_heed_of_last {before after : List String} (ha : Assigns argument name value)
    (hlast : ∀ a ∈ after, ∀ value, ¬ Assigns a name value) (s : Session σ) :
    ((before ++ argument :: after).foldl (heed h) s).environment.get? name = some value := by
  have hname : '=' ∉ name.toList := ha.name.notMem not_nameChar_equals
  rw [List.foldl_append, List.foldl_cons, get?_foldl_heed hname hlast, heed_of_assigns ha,
    Environment.get?_set _ _ ha.name.ne_empty hname, if_pos rfl]

/-- The last value that is assigned to `HOME` is the home directory from then on, on every system
that honours the variable. -/
theorem home?_exportVariables {before after : List String} {home : String} (hh : h.HonoursHome)
    (hn : ∀ a ∈ before ++ argument :: after, '\x00' ∉ a.toList) (ha : Assigns argument "HOME" home)
    (hlast : ∀ a ∈ after, ∀ value, ¬ Assigns a "HOME" value) (hne : home ≠ "") (s : Session σ) :
    (s.exportVariables h (before ++ argument :: after)).2.home? h = some home := by
  rw [exportVariables_eq hn (by simp)]
  refine hh _ _ home ?_
  rw [Environment.home?, get?_foldl_heed_of_last ha hlast]
  simpa using hne

/-- What `export` does, and what references then read. It heeds its arguments from the first to the
last: one without a proper name is refused and nothing else, a name alone changes nothing, a name
with a value sets the variable. The status tells whether an argument was refused. A variable that no
argument assigns to keeps its value; any other has the last value assigned to it, and a reference to
it, in braces or with no character of a name after it, is replaced by just that. -/
theorem exportVariables_assigns (h : Host σ) (s : Session σ) (arguments : List String)
    (hn : ∀ a ∈ arguments, '\x00' ∉ a.toList) :
    let done := s.exportVariables h arguments
    let lookup := done.2.environment.get?
    (arguments ≠ [] → done.2 = arguments.foldl (heed h) s) ∧
    (∀ (t : Session σ) (argument : String),
      (Refused argument → t.heed h argument = t.report h ("export: " ++
        String.singleton (Char.ofNat 0x60) ++ argument ++ "': not a valid identifier")) ∧
      (Identifier argument.toList → t.heed h argument = t) ∧
      (∀ name value, Assigns argument name value →
        t.heed h argument = { t with environment := t.environment.set name value })) ∧
    done.1 = (if ∃ a ∈ arguments, Refused a then 1 else 0) ∧
    (∀ name, '=' ∉ name.toList → (∀ a ∈ arguments, ∀ value, ¬ Assigns a name value) →
      lookup name = s.environment.get? name) ∧
    (∀ before argument after name value, arguments = before ++ argument :: after →
      Assigns argument name value → (∀ a ∈ after, ∀ value, ¬ Assigns a name value) →
      lookup name = some value ∧
      ∀ rest : List Char,
        ((∀ c ∈ rest.head?, ¬ NameChar c) →
          Expansion.expand lookup ('$' :: (name.toList ++ rest)) =
            value.toList ++ Expansion.expand lookup rest) ∧
        Expansion.expand lookup ('$' :: '{' :: (name.toList ++ '}' :: rest)) =
          value.toList ++ Expansion.expand lookup rest) := by
  intro done lookup
  refine ⟨fun hne => congrArg Prod.snd (exportVariables_eq hn hne s), fun t argument =>
    ⟨heed_of_refused, heed_of_identifier, fun _ _ => heed_of_assigns⟩, ?_, ?_, ?_⟩
  · by_cases hne : arguments = []
    · subst hne
      rfl
    · exact congrArg Prod.fst (exportVariables_eq hn hne s)
  · intro name hname hnone
    by_cases hne : arguments = []
    · subst hne
      rfl
    · show (s.exportVariables h arguments).2.environment.get? name = _
      rw [exportVariables_eq hn hne]
      exact get?_foldl_heed hname hnone s
  · intro before argument after name value heq ha hlast
    have hlookup : lookup name = some value := by
      show (s.exportVariables h arguments).2.environment.get? name = _
      rw [exportVariables_eq hn (by simp [heq]), heq]
      exact get?_foldl_heed_of_last ha hlast s
    exact ⟨hlookup, fun rest => ⟨ha.name.expand_plain hlookup, ha.name.expand_braced hlookup rest⟩⟩

/-- Two assignments to a variable, the second with an equals sign in its value, and an argument that
is refused between them. -/
theorem exportVariables_assigns_twice :
    let s : Session Machine.Desk :=
      { system := .onDisk .empty Machine.Disk.root true none
        settings := default
        environment := ⟨[⟨"B", "old"⟩]⟩
        directory := "/" }
    let arguments := ["A=1", "2=x", "A=b=c", "B"]
    let lookup := (s.exportVariables Machine.Desk.host arguments).2.environment.get?
    (∀ a ∈ arguments, '\x00' ∉ a.toList) ∧
      (s.exportVariables Machine.Desk.host arguments).1 = 1 ∧ lookup "A" = some "b=c" ∧
      Expansion.expand lookup "$A/x".toList =
        "b=c".toList ++ Expansion.expand lookup "/x".toList := by
  intro s arguments lookup
  have hn : ∀ a ∈ arguments, '\x00' ∉ a.toList := by decide
  have hr : ∃ a ∈ arguments, Refused a := ⟨"2=x", by decide, by decide⟩
  have ha : Assigns "A=b=c" "A" "b=c" := ⟨by decide, by decide⟩
  have hb : ∀ a ∈ ["B"], ∀ value, ¬ Assigns a "A" value := by
    intro a hm value hv
    obtain rfl := List.mem_singleton.mp hm
    have hmention : Assignment.ofArgument "B" = .mention := by decide
    cases hmention.symm.trans (ofArgument_of_assigns hv)
  obtain ⟨-, -, hstatus, -, hlast⟩ :=
    exportVariables_assigns Machine.Desk.host s arguments hn
  obtain ⟨hlookup, hexpand⟩ := hlast ["A=1", "2=x"] "A=b=c" ["B"] "A" "b=c" rfl ha hb
  have hslash : ∀ c ∈ "/x".toList.head?, ¬ NameChar c := by
    intro c hc
    obtain rfl : '/' = c := Option.some.inj hc
    decide
  exact ⟨hn, hstatus.trans (if_pos hr), hlookup, (hexpand "/x".toList).1 hslash⟩

end Session

end AssistedShell
