import Lamplighter.Text.Ranges

/-! White space, and trimming it off the ends of a text.

Trimming leaves a text that neither starts nor ends with white space, and a text
of that kind is left alone. -/

namespace Lamplighter.Text

/-- Every separator of Unicode, and the controls that act as one. A zero-width
space and a byte order mark are visible text here. -/
def blanks : Ranges :=
  [(0x09, 0x0D), (0x1C, 0x20), (0x85, 0x85), (0xA0, 0xA0), (0x1680, 0x1680),
   (0x2000, 0x200A), (0x2028, 0x2029), (0x202F, 0x202F), (0x205F, 0x205F), (0x3000, 0x3000)]

def isBlank (c : Char) : Bool := blanks.has c

def trimStart (cs : List Char) : List Char := cs.dropWhile isBlank

def trimEnd (cs : List Char) : List Char := (cs.reverse.dropWhile isBlank).reverse

def trim (cs : List Char) : List Char := trimEnd (trimStart cs)

/-- The number of characters that white space takes at the front. -/
def indent (cs : List Char) : Nat := (cs.takeWhile isBlank).length

/-- The characters up to the first white space, and those from it on. -/
def splitWord (cs : List Char) : List Char × List Char := cs.span fun c => !isBlank c

@[simp] theorem trim_nil : trim [] = [] := rfl

theorem head_trimStart (cs : List Char) (c : Char) (first : (trimStart cs).head? = some c) :
    isBlank c = false := by
  have h := List.head?_dropWhile_not isBlank cs
  rw [trimStart] at first
  rw [first] at h
  simpa using h

end Lamplighter.Text
