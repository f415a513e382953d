/-!
# Marks for lone halves

Half of a surrogate pair that stands alone is no character, so no text holds it, and nothing that
holds it can be encoded. Something that may hold lone halves is given by what it is with a mark in
their place, for every character that may serve as the mark.
-/

namespace RequestWriter

/-- Something that may hold lone halves, by the mark that stands for them. -/
abbrev Marked (α : Type) := Char → α

namespace Marked

variable {α : Type}

/-- The mark that is tried first. Like the second one it is a code without a character. -/
def firstMark : Char := '\ufdd0'

def secondMark : Char := '\ufdd1'

/-- Whether no lone half is there: the mark makes no difference. -/
def isWhole [DecidableEq α] (x : Marked α) : Bool := x firstMark = x secondMark

end Marked

end RequestWriter
