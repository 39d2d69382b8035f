import AssistedShell.Text.Blank

/-! The commands in a reply: one a line, without the blanks around it. -/

namespace AssistedShell.Reply

/-- The commands of a text. -/
def commandsOf (cs : List Char) : List (List Char) :=
  ((Text.lines cs).map Text.trim).filter (!·.isEmpty)

/-- The commands that a reply suggests, in their order. -/
def commands (reply : String) : List String := (commandsOf reply.toList).map String.ofList

end AssistedShell.Reply
