import AssistedShell.Process

/-! Tables of open files. A child starts with a copy of the shell's table. It makes
its standard input and output lead where it was told, and when it becomes
another program it loses every entry that is closed then. -/

namespace AssistedShell

/-- The open file behind a descriptor. -/
structure Opened (α : Type) where
  leadsTo : α
  /-- Whether it is closed when the process becomes another program. -/
  closeOnExec : Bool
  deriving DecidableEq, Repr, Inhabited

/-- The open files of a process, at most one for each descriptor. -/
structure Descriptors (α : Type) where
  entries : List (Descriptor × Opened α)
  distinct : (entries.map Prod.fst).Nodup
  deriving DecidableEq, Repr

namespace Descriptors

variable {α : Type}

def empty : Descriptors α := ⟨[], List.nodup_nil⟩

instance : Inhabited (Descriptors α) := ⟨empty⟩

def get? (t : Descriptors α) (d : Descriptor) : Option (Opened α) := t.entries.lookup d

/-- What a descriptor leads to. -/
def leadsTo? (t : Descriptors α) (d : Descriptor) : Option α := (t.get? d).map Opened.leadsTo

/-- The table with some of its entries. -/
def filter (keeps : Descriptor × Opened α → Bool) (t : Descriptors α) : Descriptors α where
  entries := t.entries.filter keeps
  distinct := t.distinct.sublist (List.filter_sublist.map _)

def erase (t : Descriptors α) (d : Descriptor) : Descriptors α := t.filter (·.1 != d)

def insert (t : Descriptors α) (d : Descriptor) (o : Opened α) : Descriptors α where
  entries := (d, o) :: (t.erase d).entries
  distinct := List.nodup_cons.mpr ⟨by simp [erase, filter], (t.erase d).distinct⟩

/-- The least descriptor that is not in use. -/
def lowest (t : Descriptors α) : Descriptor :=
  ((List.range (t.entries.length + 1)).find? fun d => (t.get? d).isNone).getD t.entries.length

/-- Makes a descriptor lead where another one does, which has to be open unless it is the same. -/
def redirect (t : Descriptors α) (source target : Descriptor) : Option (Descriptors α) :=
  match t.get? source with
  | some o => some (t.insert target { o with closeOnExec := false })
  | none => if source = target then some t else none

/-- Makes a descriptor lead where another one does, if there is another one. -/
def place (t : Descriptors α) (source : Option Descriptor) (target : Descriptor) :
    Option (Descriptors α) :=
  match source with
  | none => some t
  | some source => t.redirect source target

/-- What is left when the process becomes another program. -/
def atExec (t : Descriptors α) : Descriptors α := t.filter (!·.2.closeOnExec)

/-! ### What a descriptor leads to after a change -/

@[simp] theorem get?_empty (d : Descriptor) : (empty : Descriptors α).get? d = none := rfl

theorem mem_of_get? {t : Descriptors α} {d : Descriptor} {o : Opened α} (hd : t.get? d = some o) :
    (d, o) ∈ t.entries := by
  obtain ⟨before, after, he, -⟩ := List.lookup_eq_some_iff.mp hd
  simp [he]

theorem lookup_filter {es : List (Descriptor × Opened α)} (hd : (es.map Prod.fst).Nodup)
    (keeps : Descriptor × Opened α → Bool) (d : Descriptor) :
    (es.filter keeps).lookup d = (es.lookup d).filter fun o => keeps (d, o) := by
  induction es with
  | nil => rfl
  | cons e es ih =>
    obtain ⟨d', o⟩ := e
    obtain ⟨hn, hes⟩ := List.nodup_cons.mp hd
    by_cases he : d = d'
    · subst he
      have hl : es.lookup d = none := by
        rw [List.lookup_eq_none_iff]
        intro e hm
        exact bne_iff_ne.mpr fun h => hn (List.mem_map.mpr ⟨e, hm, h.symm⟩)
      by_cases hk : keeps (d, o)
      · simp [hk, Option.filter]
      · simp [hk, ih hes, hl, Option.filter]
    · have hb : (d == d') = false := beq_false_of_ne he
      by_cases hk : keeps (d', o)
      · simp [hk, List.lookup_cons, hb, ih hes]
      · simp [hk, List.lookup_cons, hb, ih hes]

theorem get?_filter (t : Descriptors α) (keeps : Descriptor × Opened α → Bool) (d : Descriptor) :
    (t.filter keeps).get? d = (t.get? d).filter fun o => keeps (d, o) :=
  lookup_filter t.distinct keeps d

theorem get?_erase (t : Descriptors α) (d e : Descriptor) :
    (t.erase d).get? e = if e = d then none else t.get? e := by
  rw [erase, get?_filter]
  by_cases he : e = d
  · cases h : t.get? e <;> simp [he]
  · cases h : t.get? e <;> simp [he]

theorem get?_insert (t : Descriptors α) (d e : Descriptor) (o : Opened α) :
    (t.insert d o).get? e = if e = d then some o else t.get? e := by
  by_cases he : e = d
  · simp [get?, insert, he]
  · have hb : (e == d) = false := beq_false_of_ne he
    rw [if_neg he, get?, insert, List.lookup_cons, hb]
    exact (t.get?_erase d e).trans (if_neg he)

theorem get?_atExec (t : Descriptors α) (d : Descriptor) :
    t.atExec.get? d = (t.get? d).filter (!·.closeOnExec) := get?_filter t _ d

end Descriptors

/-- The table of a child that starts with a copy of `t`, once its standard input and output are in
their places. -/
def Child.wire {α : Type} (c : Child) (t : Descriptors α) : Option (Descriptors α) :=
  (t.place c.stdin 0).bind fun t => t.place c.stdout 1

end AssistedShell
